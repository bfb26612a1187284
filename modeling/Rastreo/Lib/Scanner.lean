import Mathlib

/-!
# Scanners of a buffer that may still grow

A scanner reads values off the front of a buffer. It gives a value and the rest, or it stops:
`malformed` when what it has seen is wrong, `short` when it needs more.

* `Final p`: a value, and a `malformed`, stay when more arrives behind the buffer. Each way of
  building a scanner keeps this.
* `scanTo stop bad`: up to the first `stop`, with no `bad` before it.
* `Final.of_append`: in front of a value there is more to wait for, or the value is there already.
-/

namespace Rastreo.Lib

universe u

/-- Why a scanner gives no value. -/
inductive Stop
  | malformed
  | short
  deriving DecidableEq, Repr

/-- A scanner of a buffer of `β`: a value, and the rest of the buffer. -/
abbrev Scanner (β : Type u) := StateT (List β) (Except Stop)

namespace Scanner

variable {α β γ : Type u} {p : Scanner β α} {f : α → Scanner β γ} {s r t : List β} {a : α} {b : γ}

/-! ## Building blocks -/

/-- No value. -/
def fail (e : Stop) : Scanner β α := fun _ => .error e

/-- The next element, which stays where it is. -/
def peek : Scanner β β
  | [] => .error .short
  | c :: s => .ok (c, c :: s)

/-- The next element. -/
def next : Scanner β β
  | [] => .error .short
  | c :: s => .ok (c, s)

/-- At least `n` more elements. -/
def need (n : Nat) : Scanner β PUnit := fun s => if s.length < n then .error .short else .ok (⟨⟩, s)

/-- The next element is `c`. -/
def expect [DecidableEq β] (c : β) : Scanner β PUnit
  | [] => .error .short
  | d :: s => if d = c then .ok (⟨⟩, s) else .error .malformed

/-- The elements in front of the first `stop`; none of them may be `bad`. -/
def scanTo (stop bad : β → Bool) : Scanner β (List β)
  | [] => .error .short
  | c :: s =>
    if stop c then .ok ([], c :: s)
    else if bad c then .error .malformed
    else match scanTo stop bad s with
      | .ok (u, r) => .ok (c :: u, r)
      | .error e => .error e

@[simp] theorem run_pure : (pure a : Scanner β α).run s = .ok (a, s) := rfl

@[simp] theorem run_fail (e : Stop) : (fail e : Scanner β α).run s = .error e := rfl

@[simp] theorem run_peek_cons (c : β) : (peek : Scanner β β).run (c :: s) = .ok (c, c :: s) := rfl

@[simp] theorem run_next_cons (c : β) : (next : Scanner β β).run (c :: s) = .ok (c, s) := rfl

theorem run_bind :
    (p >>= f).run s = match p.run s with
      | .ok (a, r) => (f a).run r
      | .error e => .error e := by
  show (p s >>= fun x => f x.1 x.2) = _
  change _ = match p s with
    | .ok (a, r) => f a r
    | .error e => .error e
  cases p s with
  | ok x => rfl
  | error e => rfl

theorem run_bind_of_ok (h : p.run s = .ok (a, r)) : (p >>= f).run s = (f a).run r := by
  rw [run_bind, h]

theorem run_bind_of_error {e : Stop} (h : p.run s = .error e) :
    (p >>= f).run s = .error e := by
  rw [run_bind, h]

theorem bind_eq_ok {x : γ × List β} :
    (p >>= f).run s = .ok x ↔ ∃ a r, p.run s = .ok (a, r) ∧ (f a).run r = .ok x := by
  rw [run_bind]
  constructor
  · intro h
    cases hp : p.run s with
    | ok y => rw [hp] at h; exact ⟨y.1, y.2, rfl, h⟩
    | error e => rw [hp] at h; cases h
  · rintro ⟨a, r, hp, hf⟩
    rw [hp]
    exact hf

/-! ## What is read -/

theorem need_eq_ok {n : Nat} {x : PUnit} :
    (need n).run s = .ok (x, r) ↔ n ≤ s.length ∧ s = r := by
  show (if s.length < n then _ else _) = _ ↔ _
  split
  · rename_i h
    exact ⟨fun h' => (nomatch h'), fun h' => absurd h'.1 (Nat.not_le.mpr h)⟩
  · rename_i h
    exact ⟨fun h' => ⟨Nat.not_lt.mp h, (Prod.mk.inj (Except.ok.inj h')).2⟩,
      fun h' => by rw [h'.2]⟩

theorem expect_eq_ok [DecidableEq β] {c : β} {x : PUnit} :
    (expect c).run s = .ok (x, r) ↔ s = c :: r := by
  cases s with
  | nil => exact ⟨fun h => (nomatch h), fun h => (nomatch h)⟩
  | cons d s =>
    show (if d = c then _ else _) = _ ↔ _
    split
    · rename_i h
      rw [h]
      exact ⟨fun h' => by rw [(Prod.mk.inj (Except.ok.inj h')).2],
        fun h' => by rw [(List.cons.inj h').2]⟩
    · rename_i h
      exact ⟨fun h' => (nomatch h'), fun h' => absurd (List.cons.inj h').1 h⟩

theorem peek_eq_ok {c : β} :
    (peek : Scanner β β).run s = .ok (c, r) ↔ s = r ∧ r.head? = some c := by
  cases s with
  | nil =>
    refine ⟨fun h => (nomatch h), fun h => ?_⟩
    rw [← h.1] at h
    cases h.2
  | cons d s =>
    rw [run_peek_cons]
    constructor
    · intro h
      cases h
      exact ⟨rfl, rfl⟩
    · rintro ⟨rfl, hhead⟩
      rw [Option.some.inj hhead]

theorem next_eq_ok {c : β} : (next : Scanner β β).run s = .ok (c, r) ↔ s = c :: r := by
  cases s with
  | nil => exact ⟨fun h => (nomatch h), fun h => (nomatch h)⟩
  | cons d s =>
    rw [run_next_cons]
    constructor
    · intro h
      cases h
      rfl
    · intro h
      cases h
      rfl

section ScanTo

variable {stop bad : β → Bool}

theorem run_scanTo_cons (c : β) (s : List β) :
    (scanTo stop bad).run (c :: s) =
      if stop c then .ok ([], c :: s)
      else if bad c then .error .malformed
      else match (scanTo stop bad).run s with
        | .ok (u, r) => .ok (c :: u, r)
        | .error e => .error e := rfl

/-- What is scanned ends at the first `stop`. -/
theorem scanTo_eq_ok {u : List β} :
    (scanTo stop bad).run s = .ok (u, r) ↔
      s = u ++ r ∧ (∀ c ∈ u, stop c = false ∧ bad c = false) ∧
        ∃ c, r.head? = some c ∧ stop c = true := by
  induction s generalizing u with
  | nil =>
    refine ⟨fun h => (nomatch h), ?_⟩
    rintro ⟨hs, -, c, hc, -⟩
    rw [(List.append_eq_nil_iff.mp hs.symm).2] at hc
    cases hc
  | cons c s ih =>
    rw [run_scanTo_cons]
    constructor
    · intro h
      split at h
      · rename_i hstop
        cases h
        exact ⟨rfl, fun d hd => (List.not_mem_nil hd).elim, c, rfl, hstop⟩
      · rename_i hstop
        split at h
        · cases h
        · rename_i hbad
          split at h
          · rename_i u r hu
            cases h
            obtain ⟨hs, hall, hend⟩ := ih.mp hu
            refine ⟨congrArg _ hs, fun d hd => ?_, hend⟩
            rcases List.mem_cons.mp hd with rfl | hd
            · exact ⟨Bool.eq_false_iff.mpr hstop, Bool.eq_false_iff.mpr hbad⟩
            · exact hall d hd
          · cases h
    · rintro ⟨hs, hall, d, hd, hstop⟩
      cases u with
      | nil =>
        obtain rfl : c :: s = r := hs
        rw [if_pos (Option.some.inj hd ▸ hstop)]
      | cons e u =>
        obtain ⟨rfl, htail⟩ := List.cons.inj hs
        have hc := hall c List.mem_cons_self
        rw [if_neg (Bool.eq_false_iff.mp hc.1), if_neg (Bool.eq_false_iff.mp hc.2),
          ih.mpr ⟨htail, fun e he => hall e (List.mem_cons_of_mem _ he), d, hd, hstop⟩]

end ScanTo

/-! ## Answers that stay -/

/-- More behind the buffer changes no value, and no `malformed`. -/
structure Final (p : Scanner β α) : Prop where
  reads : ∀ {s a r}, p.run s = .ok (a, r) → ∃ u, s = u ++ r
  ok : ∀ {s a r}, p.run s = .ok (a, r) → ∀ t, p.run (s ++ t) = .ok (a, r ++ t)
  malformed : ∀ {s}, p.run s = .error .malformed → ∀ t, p.run (s ++ t) = .error .malformed

theorem Final.pure (a : α) : Final (pure a : Scanner β α) where
  reads h := by cases h; exact ⟨[], rfl⟩
  ok h t := by cases h; rfl
  malformed h := by cases h

theorem Final.fail : Final (fail .malformed : Scanner β α) where
  reads h := by cases h
  ok h := by cases h
  malformed _ _ := rfl

theorem Final.bind (hp : Final p) (hf : ∀ a, Final (f a)) : Final (p >>= f) where
  reads h := by
    obtain ⟨a, r, hpr, hfr⟩ := bind_eq_ok.mp h
    obtain ⟨u, hu⟩ := hp.reads hpr
    obtain ⟨v, hv⟩ := (hf a).reads hfr
    exact ⟨u ++ v, by rw [hu, hv, List.append_assoc]⟩
  ok h t := by
    obtain ⟨a, r, hpr, hfr⟩ := bind_eq_ok.mp h
    rw [run_bind_of_ok (hp.ok hpr t)]
    exact (hf a).ok hfr t
  malformed {s} h t := by
    rw [run_bind] at h
    cases hpr : p.run s with
    | ok x =>
      rw [hpr] at h
      rw [run_bind_of_ok (hp.ok hpr t)]
      exact (hf x.1).malformed h t
    | error e =>
      rw [hpr] at h
      obtain rfl : e = .malformed := Except.error.inj h
      exact run_bind_of_error (hp.malformed hpr t)

theorem Final.ite {q : Scanner β α} {c : Prop} [Decidable c] (hp : Final p) (hq : Final q) :
    Final (if c then p else q) := by
  split
  · exact hp
  · exact hq

theorem final_peek : Final (peek : Scanner β β) where
  reads h := ⟨[], (peek_eq_ok.mp h).1⟩
  ok {s _ _} h t := by
    cases s with
    | nil => cases h
    | cons c s => cases h; rfl
  malformed {s} h := by cases s <;> cases h

theorem final_next : Final (next : Scanner β β) where
  reads {_ a _} h := ⟨[a], next_eq_ok.mp h⟩
  ok h t := by rw [next_eq_ok.mp h]; rfl
  malformed {s} h := by cases s <;> cases h

theorem final_need (n : Nat) : Final (need n : Scanner β PUnit) where
  reads h := ⟨[], (need_eq_ok.mp h).2⟩
  ok h t := by
    obtain ⟨hle, rfl⟩ := need_eq_ok.mp h
    exact need_eq_ok.mpr ⟨hle.trans (by rw [List.length_append]; omega), rfl⟩
  malformed {s} h := by
    have h' : (if s.length < n then (.error .short : Except Stop (PUnit × List β))
      else .ok (⟨⟩, s)) = .error .malformed := h
    split at h' <;> cases h'

theorem final_expect [DecidableEq β] (c : β) : Final (expect c) where
  reads h := ⟨[c], expect_eq_ok.mp h⟩
  ok h t := by
    rw [expect_eq_ok.mp h]
    exact expect_eq_ok.mpr rfl
  malformed {s} h t := by
    cases s with
    | nil => cases h
    | cons d s =>
      have h' : (if d = c then (.ok (⟨⟩, s) : Except Stop (PUnit × List β))
        else .error .malformed) = .error .malformed := h
      show (if d = c then _ else _) = _
      split at h'
      · cases h'
      · rename_i hne
        rw [if_neg hne]

theorem final_scanTo (stop bad : β → Bool) : Final (scanTo stop bad) where
  reads {_ a _} h := ⟨a, (scanTo_eq_ok.mp h).1⟩
  ok {s a r} h t := by
    obtain ⟨hs, hall, c, hc, hstop⟩ := scanTo_eq_ok.mp h
    refine scanTo_eq_ok.mpr ⟨by rw [hs, List.append_assoc], hall, c, ?_, hstop⟩
    rw [List.head?_append_of_ne_nil _ (by rintro rfl; cases hc)]
    exact hc
  malformed {s} h t := by
    induction s with
    | nil => cases h
    | cons c s ih =>
      rw [run_scanTo_cons] at h
      rw [List.cons_append, run_scanTo_cons]
      split at h
      · cases h
      · rename_i hstop
        rw [if_neg hstop]
        split at h
        · rename_i hbad
          rw [if_pos hbad]
        · rename_i hbad
          rw [if_neg hbad]
          split at h
          · cases h
          · rename_i e he
            obtain rfl : e = .malformed := Except.error.inj h
            rw [ih he]

/-- In front of a value there is more to wait for, or the value is there already. -/
theorem Final.of_append (hp : Final p) (h : p.run (s ++ t) = .ok (a, r)) :
    p.run s = .error .short ∨ ∃ r', p.run s = .ok (a, r') ∧ r = r' ++ t := by
  cases hs : p.run s with
  | error e =>
    cases e with
    | short => exact .inl rfl
    | malformed => rw [hp.malformed hs t] at h; cases h
  | ok x =>
    rw [hp.ok hs t, Except.ok.injEq, Prod.mk.injEq] at h
    exact .inr ⟨x.2, by rw [← h.1], h.2.symm⟩

end Scanner

end Rastreo.Lib
