import Mathlib

/-!
# Two-level signals

A signal is the list of its samples. `widths` is how many samples each of its levels lasts, in
order; from one level to the next the signal changes. A level that lasts one sample only is a
glitch, one that lasts longer is held. `holds` are the levels held.

* `Alternates`: between two equal entries of a list there is one of the other value.
  `alternates_iff` makes it a condition on neighbours.
* `EvenGlitches`: from a held level to the next one held there are evenly many glitches.
* `alternates_holds`: the levels held alternate exactly when the glitches between them are even.
* `heldAfter`: the levels held after the first one, sample by sample.
-/

namespace Rastreo.Lib

/-- The widths of the levels from one that is `b` and has lasted `n` samples. -/
def widthsFrom (b : Bool) (n : Nat) : List Bool → List Nat
  | [] => [n]
  | x :: l => if x = b then widthsFrom b (n + 1) l else n :: widthsFrom x 1 l

/-- How many samples each level lasts. -/
def widths : List Bool → List Nat
  | [] => []
  | b :: l => widthsFrom b 1 l

/-- The levels that last more than one sample, where the first is `b`. -/
def holds (b : Bool) : List Nat → List Bool
  | [] => []
  | w :: ws => if 2 ≤ w then b :: holds (!b) ws else holds (!b) ws

/-- Between two entries of one value there is one of the other. -/
def Alternates (bs : List Bool) : Prop :=
  ∀ (as ms cs : List Bool) (b : Bool), bs = as ++ b :: (ms ++ b :: cs) → (!b) ∈ ms

/-- Between a held level and the next one held, the number of glitches is even. -/
def EvenGlitches (ws : List Nat) : Prop :=
  ∀ (us gs vs : List Nat) (v w : Nat), ws = us ++ v :: (gs ++ w :: vs) → 2 ≤ v → 2 ≤ w →
    (∀ g ∈ gs, g < 2) → Even gs.length

/-! ## Alternation -/

@[simp] theorem alternates_nil : Alternates [] := by
  intro as ms cs b h
  simp at h

@[simp] theorem alternates_singleton (b : Bool) : Alternates [b] := by
  intro as ms cs c h
  have := congrArg List.length h
  simp at this
  omega

theorem Alternates.tail {b : Bool} {bs : List Bool} (h : Alternates (b :: bs)) : Alternates bs := by
  intro as ms cs c hbs
  exact h (b :: as) ms cs c (by rw [hbs]; rfl)

/-- **Alternation is a matter of neighbours.** -/
theorem alternates_iff {bs : List Bool} : Alternates bs ↔ bs.IsChain (· ≠ ·) := by
  induction bs with
  | nil => simp
  | cons b bs ih =>
    constructor
    · intro h
      cases bs with
      | nil => simp
      | cons c cs =>
        rw [List.isChain_cons_cons]
        refine ⟨?_, ih.mp h.tail⟩
        rintro rfl
        simpa using h [] [] cs b rfl
    · intro h as ms cs c hbs
      cases as with
      | nil =>
        -- the neighbour of the first of the two is already of the other value
        obtain ⟨rfl, rfl⟩ := List.cons.inj hbs
        cases ms with
        | nil => exact absurd rfl (List.isChain_cons_cons.mp h).1
        | cons m ms =>
          have hne : b ≠ m := (List.isChain_cons_cons.mp h).1
          have hm : m = !b := by cases b <;> cases m <;> simp_all
          rw [hm]
          exact List.mem_cons_self
      | cons a as =>
        obtain ⟨rfl, rfl⟩ := List.cons.inj hbs
        exact ih.mpr h.tail as ms cs c rfl

/-! ## Widths -/

/-- How long the first level lasts does not matter for the others. -/
theorem tail_widthsFrom (b : Bool) (n m : Nat) (l : List Bool) :
    (widthsFrom b n l).tail = (widthsFrom b m l).tail := by
  induction l generalizing n m with
  | nil => rfl
  | cons x l ih =>
    unfold widthsFrom
    split
    · exact ih (n + 1) (m + 1)
    · rfl

/-- A level that goes on. -/
theorem tail_widths_same (b : Bool) (l : List Bool) :
    (widths (b :: b :: l)).tail = (widths (b :: l)).tail := by
  simp only [widths, widthsFrom, if_pos]
  exact tail_widthsFrom b _ _ l

/-- The level changes. -/
theorem tail_widths_change (b : Bool) (l : List Bool) :
    (widths ((!b) :: b :: l)).tail = widths (b :: l) := by
  cases b <;> simp [widths, widthsFrom]

theorem exists_widthsFrom (b : Bool) (n : Nat) (l : List Bool) :
    ∃ w ws, widthsFrom b n l = w :: ws ∧ n ≤ w := by
  induction l generalizing n with
  | nil => exact ⟨n, [], rfl, Nat.le_refl n⟩
  | cons x l ih =>
    unfold widthsFrom
    split
    · obtain ⟨w, ws, hw, hn⟩ := ih (n + 1)
      exact ⟨w, ws, hw, Nat.le_of_succ_le hn⟩
    · exact ⟨n, _, rfl, Nat.le_refl n⟩

/-- A level seen twice is held. -/
theorem holds_widths_same (b : Bool) (l : List Bool) :
    holds b (widths (b :: b :: l)) = b :: holds (!b) (widths (b :: l)).tail := by
  have htail := tail_widths_same b l
  have hw : widths (b :: b :: l) = widthsFrom b 2 l := by simp [widths, widthsFrom]
  obtain ⟨w, ws, hcons, hle⟩ := exists_widthsFrom b 2 l
  rw [← htail, hw, hcons, holds, if_pos hle, List.tail_cons]

/-- A level seen once. -/
theorem holds_widths_change (b : Bool) (l : List Bool) :
    holds b (widths (b :: (!b) :: l)) = holds (!b) (widths ((!b) :: l)) := by
  have hw : widths (b :: (!b) :: l) = 1 :: widths ((!b) :: l) := by
    cases b <;> simp [widths, widthsFrom]
  rw [hw, holds, if_neg (by omega)]

/-! ## Glitches -/

/-- The next level held, if there is one, comes after evenly many glitches. -/
def EvenUntil (ws : List Nat) (p : Bool) : Prop :=
  ∀ (gs vs : List Nat) (w : Nat), ws = gs ++ w :: vs → 2 ≤ w → (∀ g ∈ gs, g < 2) →
    (Even gs.length ↔ p = true)

theorem evenGlitches_nil : EvenGlitches [] := by
  intro us gs vs v w h
  simp at h

theorem evenUntil_nil (p : Bool) : EvenUntil [] p := by
  intro gs vs w h
  simp at h

theorem evenGlitches_cons {w : Nat} {ws : List Nat} :
    EvenGlitches (w :: ws) ↔ (2 ≤ w → EvenUntil ws true) ∧ EvenGlitches ws := by
  constructor
  · intro h
    constructor
    · intro hw gs vs v hws hv hg
      simp only [iff_true]
      exact h [] gs vs w v (by rw [hws]; rfl) hw hv hg
    · intro us gs vs u v hws
      exact h (w :: us) gs vs u v (by rw [hws]; rfl)
  · rintro ⟨hu, hws⟩ us gs vs v v' heq hv hv' hg
    cases us with
    | nil =>
      obtain ⟨rfl, rfl⟩ := List.cons.inj heq
      exact (hu hv gs vs v' rfl hv' hg).mpr rfl
    | cons u us =>
      obtain ⟨rfl, rfl⟩ := List.cons.inj heq
      exact hws us gs vs v v' rfl hv hv' hg

theorem evenUntil_held {w : Nat} {ws : List Nat} {p : Bool} (hw : 2 ≤ w) :
    EvenUntil (w :: ws) p ↔ p = true := by
  constructor
  · intro h
    exact (h [] ws w rfl hw (by simp)).mp (by simp)
  · rintro rfl gs vs v heq hv hg
    cases gs with
    | nil => simp
    | cons g gs =>
      obtain ⟨rfl, -⟩ := List.cons.inj heq
      exact absurd (hg w List.mem_cons_self) (by omega)

theorem evenUntil_glitch {w : Nat} {ws : List Nat} {p : Bool} (hw : ¬ 2 ≤ w) :
    EvenUntil (w :: ws) p ↔ EvenUntil ws (!p) := by
  constructor
  · intro h gs vs v heq hv hg
    have := h (w :: gs) vs v (by rw [heq]; rfl) hv
      (List.forall_mem_cons.mpr ⟨Nat.not_le.mp hw, hg⟩)
    rw [List.length_cons, Nat.even_add_one] at this
    cases p <;> simp_all
  · intro h gs vs v heq hv hg
    cases gs with
    | nil =>
      obtain ⟨rfl, -⟩ := List.cons.inj heq
      exact absurd hv hw
    | cons g gs =>
      obtain ⟨rfl, rfl⟩ := List.cons.inj heq
      have := h gs vs v rfl hv fun x hx => hg x (List.mem_cons_of_mem _ hx)
      rw [List.length_cons, Nat.even_add_one]
      cases p <;> simp_all

/-- After a held level `c`, the levels held go on alternating. -/
theorem isChain_holds (b c : Bool) (ws : List Nat) :
    (c :: holds b ws).IsChain (· ≠ ·) ↔ EvenUntil ws (b != c) ∧ EvenGlitches ws := by
  induction ws generalizing b c with
  | nil => simp [holds, evenUntil_nil, evenGlitches_nil]
  | cons w ws ih =>
    unfold holds
    by_cases hw : 2 ≤ w
    · rw [if_pos hw, List.isChain_cons_cons, ih, evenUntil_held hw, evenGlitches_cons]
      have hb : ((!b) != b) = true := by cases b <;> rfl
      rw [hb, bne_iff_ne, ne_comm]
      simp [hw]
    · rw [if_neg hw, ih, evenUntil_glitch hw, evenGlitches_cons]
      have hb : ((!b) != c) = !(b != c) := by cases b <;> cases c <;> rfl
      rw [hb]
      simp [hw]

/-- **The levels held alternate exactly when the glitches between them are even.** -/
theorem alternates_holds (b : Bool) (ws : List Nat) :
    Alternates (holds b ws) ↔ EvenGlitches ws := by
  rw [alternates_iff]
  induction ws generalizing b with
  | nil => simp [holds, evenGlitches_nil]
  | cons w ws ih =>
    unfold holds
    rw [evenGlitches_cons]
    by_cases hw : 2 ≤ w
    · rw [if_pos hw, isChain_holds]
      have hb : ((!b) != b) = true := by cases b <;> rfl
      rw [hb]
      simp [hw]
    · rw [if_neg hw, ih]
      simp [hw]

/-! ## After the first level -/

/-- The levels held after the first level of the signal. -/
def heldAfter : List Bool → List Bool
  | [] => []
  | b :: l => holds (!b) (widths (b :: l)).tail

theorem alternates_heldAfter (l : List Bool) :
    Alternates (heldAfter l) ↔ EvenGlitches (widths l).tail := by
  cases l with
  | nil => simp [heldAfter, widths, evenGlitches_nil]
  | cons b l => exact alternates_holds (!b) _

/-- The first level goes on. -/
theorem heldAfter_same (b : Bool) (l : List Bool) : heldAfter (b :: b :: l) = heldAfter (b :: l) := by
  simp only [heldAfter, tail_widths_same]

/-- The second level is held. -/
theorem heldAfter_held (b : Bool) (l : List Bool) :
    heldAfter ((!b) :: b :: b :: l) = b :: heldAfter (b :: b :: l) := by
  rw [heldAfter_same]
  simp only [heldAfter, tail_widths_change, Bool.not_not]
  exact holds_widths_same b l

/-- The second level is a glitch. -/
theorem heldAfter_glitch (b : Bool) (l : List Bool) :
    heldAfter (b :: (!b) :: b :: l) = heldAfter ((!b) :: b :: l) := by
  have h := tail_widths_change (!b) (b :: l)
  rw [Bool.not_not] at h
  simp only [heldAfter, h, tail_widths_change, Bool.not_not]
  have hg := holds_widths_change (!b) l
  rw [Bool.not_not] at hg
  exact hg

end Rastreo.Lib
