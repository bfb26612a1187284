import Mathlib

/-!
# Cyclic redundancy checks

A check of `w` bits is kept in a register, one step per bit of the message, the highest bit first
(`step`). `poly` reads a register as a polynomial over the field of two elements, and `message` a list
of bits.

* **`poly_crc`**: the register ends up with the remainder of the message, moved up `w` places, on
  division by the generator.
* **`crc_ne_of_burst`**: two messages that differ in a stretch of at most `w` bits have different
  checks, when the generator ends in 1.
* `steps_split`: of several steps at once, the bits of the register that do not reach the top are only
  moved up; the others can be looked up in a table.
-/

namespace Rastreo.Lib.Crc

open Polynomial

variable {w : Nat}

/-! ## The register -/

/-- One bit. -/
def step (g r : BitVec w) (b : Bool) : BitVec w :=
  (r <<< 1) ^^^ (if r.msb ^^ b then g else 0)

/-- The check of a message. -/
def crc (g : BitVec w) (bits : List Bool) : BitVec w := bits.foldl (step g) 0

/-! ## Polynomials -/

/-- The generator: its highest power is not in the register. -/
noncomputable def poly (r : BitVec w) : (ZMod 2)[X] :=
  ∑ i ∈ Finset.range w, if r.getLsbD i then X ^ i else 0

/-- The generator with its highest power. -/
noncomputable def generator (g : BitVec w) : (ZMod 2)[X] := X ^ w + poly g

/-- The first bit is the highest. -/
noncomputable def message : List Bool → (ZMod 2)[X]
  | [] => 0
  | b :: bits => (if b then X ^ bits.length else 0) + message bits

theorem add_self (p : (ZMod 2)[X]) : p + p = 0 := CharTwo.add_self_eq_zero p

theorem coeff_poly (r : BitVec w) (k : Nat) :
    (poly r).coeff k = if r.getLsbD k then 1 else 0 := by
  unfold poly
  rw [finsetSum_coeff]
  have hterm : ∀ i, (if r.getLsbD i then (X : (ZMod 2)[X]) ^ i else 0).coeff k =
      if i = k then (if r.getLsbD k then 1 else 0) else 0 := by
    intro i
    by_cases hi : i = k
    · subst hi
      rw [if_pos rfl]
      split <;> simp
    · rw [if_neg hi]
      split
      · rw [coeff_X_pow, if_neg (Ne.symm hi)]
      · rfl
  rw [Finset.sum_congr rfl fun i _ => hterm i, Finset.sum_ite_eq']
  split
  · rfl
  · rename_i hk
    rw [Finset.mem_range] at hk
    rw [BitVec.getLsbD_of_ge r k (Nat.not_lt.mp hk)]
    rfl

@[simp] theorem poly_zero : poly (0 : BitVec w) = 0 := by
  ext k
  simp [coeff_poly]

theorem poly_xor (r s : BitVec w) : poly (r ^^^ s) = poly r + poly s := by
  ext k
  rw [coeff_add, coeff_poly, coeff_poly, coeff_poly, BitVec.getLsbD_xor]
  cases r.getLsbD k <;> cases s.getLsbD k <;> decide

theorem degree_poly_lt (r : BitVec w) : (poly r).degree < w := by
  rw [degree_lt_iff_coeff_zero]
  intro k hk
  rw [coeff_poly, BitVec.getLsbD_of_ge r k hk]
  rfl

theorem monic_generator (g : BitVec w) : (generator g).Monic :=
  monic_X_pow_add (degree_poly_lt g)

theorem degree_generator (g : BitVec w) : (generator g).degree = w := by
  rw [generator, degree_add_eq_left_of_degree_lt, degree_X_pow]
  rw [degree_X_pow]
  exact degree_poly_lt g

/-- A place up, and what falls out. -/
theorem poly_shiftLeft (r : BitVec w) :
    X * poly r = poly (r <<< 1) + if r.msb then X ^ w else 0 := by
  have hmsb : ∀ k, (if r.msb then (X : (ZMod 2)[X]) ^ w else 0).coeff k =
      if k = w then (if r.getLsbD (w - 1) then 1 else 0) else 0 := by
    intro k
    rw [BitVec.msb_eq_getLsbD_last]
    cases r.getLsbD (w - 1) with
    | true => rw [if_pos rfl, if_pos rfl, coeff_X_pow]
    | false => rw [if_neg Bool.false_ne_true, if_neg Bool.false_ne_true, coeff_zero, ite_self]
  ext k
  rw [coeff_add, coeff_poly, hmsb, BitVec.getLsbD_shiftLeft]
  cases k with
  | zero =>
    rw [coeff_X_mul_zero]
    by_cases hw : 0 = w
    · subst hw
      rw [BitVec.getLsbD_of_ge r _ (Nat.zero_le _)]
      rfl
    · rw [if_neg hw]
      simp
  | succ k =>
    rw [coeff_X_mul, coeff_poly, Nat.add_sub_cancel]
    rcases Nat.lt_trichotomy (k + 1) w with h | h | h
    · rw [if_neg h.ne, add_zero, decide_eq_true h]
      rfl
    · subst h
      rw [if_pos rfl, Nat.add_sub_cancel, decide_eq_false (Nat.lt_irrefl _)]
      exact (zero_add _).symm
    · rw [if_neg h.ne', add_zero, decide_eq_false h.not_gt, BitVec.getLsbD_of_ge r k (by omega)]
      rfl

/-- What a step does, up to multiples of the generator. -/
theorem poly_step (g r : BitVec w) (b : Bool) :
    poly (step g r b) = X * poly r + (if b then X ^ w else 0) +
      (if r.msb ^^ b then generator g else 0) := by
  have hpow : (X : (ZMod 2)[X]) ^ w + X ^ w = 0 := add_self _
  unfold step
  rw [poly_xor, poly_shiftLeft]
  cases r.msb <;> cases b
  · show poly (r <<< 1) + poly 0 = poly (r <<< 1) + 0 + 0 + 0
    rw [poly_zero, add_zero, add_zero, add_zero]
  · show poly (r <<< 1) + poly g = poly (r <<< 1) + 0 + X ^ w + (X ^ w + poly g)
    rw [add_zero, add_assoc (poly (r <<< 1)), ← add_assoc (X ^ w), hpow, zero_add]
  · show poly (r <<< 1) + poly g = poly (r <<< 1) + X ^ w + 0 + (X ^ w + poly g)
    rw [add_zero, add_assoc (poly (r <<< 1)), ← add_assoc (X ^ w), hpow, zero_add]
  · show poly (r <<< 1) + poly 0 = poly (r <<< 1) + X ^ w + X ^ w + 0
    rw [poly_zero, add_assoc (poly (r <<< 1)), hpow, add_zero, add_zero]

/-! ## Remainders -/

/-- The steps of a message, up to multiples of the generator. -/
theorem poly_foldl (g r : BitVec w) (bits : List Bool) :
    ∃ q, poly (bits.foldl (step g) r) =
      X ^ bits.length * poly r + X ^ w * message bits + generator g * q := by
  induction bits generalizing r with
  | nil => exact ⟨0, by simp [message]⟩
  | cons b bits ih =>
    obtain ⟨q, hq⟩ := ih (step g r b)
    refine ⟨q + X ^ bits.length * (if r.msb ^^ b then 1 else 0), ?_⟩
    have hstep : (if r.msb ^^ b then generator g else 0) =
        generator g * (if r.msb ^^ b then 1 else 0) := by
      split <;> simp
    have hbit : (if b then (X : (ZMod 2)[X]) ^ w else 0) = X ^ w * (if b then 1 else 0) := by
      split <;> simp
    have hmessage : message (b :: bits) = X ^ bits.length * (if b then 1 else 0) + message bits := by
      rw [message]
      split <;> simp
    rw [List.foldl_cons, hq, poly_step, hstep, hbit, hmessage, List.length_cons]
    ring

/-- **The check is the remainder.** -/
theorem poly_crc (g : BitVec w) (bits : List Bool) :
    poly (crc g bits) = (X ^ w * message bits) %ₘ generator g := by
  obtain ⟨q, hq⟩ := poly_foldl g 0 bits
  rw [poly_zero, mul_zero, zero_add] at hq
  have hdeg : (poly (crc g bits)).degree < (generator g).degree := by
    rw [degree_generator]
    exact degree_poly_lt _
  refine ((div_modByMonic_unique (-q) (poly (crc g bits)) (monic_generator g) ⟨?_, hdeg⟩).2).symm
  unfold crc
  rw [hq]
  ring

theorem message_append (bits bits' : List Bool) :
    message (bits ++ bits') = X ^ bits'.length * message bits + message bits' := by
  induction bits with
  | nil => simp [message]
  | cons b bits ih =>
    rw [List.cons_append, message, message, ih, List.length_append, pow_add]
    split <;> ring

theorem degree_message_lt (bits : List Bool) : (message bits).degree < bits.length := by
  induction bits with
  | nil => exact bot_lt_iff_ne_bot.mpr (by simp)
  | cons b bits ih =>
    have hlt : (bits.length : WithBot Nat) < (b :: bits).length := by
      exact_mod_cast Nat.lt_succ_self bits.length
    rw [message]
    refine (degree_add_le _ _).trans_lt (max_lt ?_ (ih.trans hlt))
    split
    · rw [degree_X_pow]
      exact hlt
    · rw [degree_zero]
      exact WithBot.bot_lt_coe _

/-- Messages of one length are told apart by their polynomials. -/
theorem message_inj {bits bits' : List Bool} (hlen : bits.length = bits'.length)
    (h : message bits = message bits') : bits = bits' := by
  induction bits generalizing bits' with
  | nil => exact (List.length_eq_zero_iff.mp hlen.symm).symm
  | cons b bits ih =>
    cases bits' with
    | nil => cases hlen
    | cons b' bits' =>
      have hlen' : bits.length = bits'.length := Nat.succ.inj hlen
      -- the highest coefficient is the first bit
      have hfirst : ∀ (c : Bool) (cs : List Bool), (message (c :: cs)).coeff cs.length =
          if c then 1 else 0 := by
        intro c cs
        rw [message, coeff_add, coeff_eq_zero_of_degree_lt (degree_message_lt cs), add_zero]
        cases c
        · exact coeff_zero _
        · exact coeff_X_pow_self _
      have hbit := congrArg (fun p => coeff p bits.length) h
      rw [hfirst, hlen', hfirst] at hbit
      have hb : b = b' := by
        cases b <;> cases b' <;> simp at hbit <;> rfl
      subst hb
      rw [message, message, hlen', add_right_inj] at h
      rw [ih hlen' h]

/-- A generator that ends in 1 shares no factor with the powers of `X`. -/
theorem isCoprime_generator {g : BitVec w} (hg : g.getLsbD 0 = true) (k : Nat) :
    IsCoprime (generator g) (X ^ k) := by
  have hw : w ≠ 0 := by
    rintro rfl
    rw [BitVec.getLsbD_of_ge g 0 le_rfl] at hg
    cases hg
  have hcoeff : (generator g).coeff 0 = 1 := by
    rw [generator, coeff_add, coeff_poly, if_pos hg, coeff_X_pow, if_neg (Ne.symm hw), zero_add]
  refine ((irreducible_X.coprime_iff_not_dvd).mpr fun hdvd => ?_).symm.pow_right
  rw [X_dvd_iff, hcoeff] at hdvd
  exact one_ne_zero hdvd

/-- **Two messages that differ in a stretch of at most `w` bits.** -/
theorem crc_ne_of_burst {g : BitVec w} (hg : g.getLsbD 0 = true) {front mid mid' back : List Bool}
    (hlen : mid.length = mid'.length) (hw : mid.length ≤ w) (hne : mid ≠ mid') :
    crc g (front ++ mid ++ back) ≠ crc g (front ++ mid' ++ back) := by
  intro heq
  have hmod := congrArg poly heq
  rw [poly_crc, poly_crc, ← sub_eq_zero, ← sub_modByMonic,
    modByMonic_eq_zero_iff_dvd (monic_generator g)] at hmod
  have hdiff : X ^ w * message (front ++ mid ++ back) - X ^ w * message (front ++ mid' ++ back) =
      X ^ (w + back.length) * (message mid - message mid') := by
    have happend : ∀ m, message (front ++ m ++ back) =
        X ^ back.length * (X ^ m.length * message front + message m) + message back := by
      intro m
      rw [message_append, message_append]
    rw [happend, happend, hlen, pow_add]
    ring
  rw [hdiff] at hmod
  have hdvd := (isCoprime_generator hg _).dvd_of_dvd_mul_left hmod
  have hdeg : (message mid - message mid').degree < (generator g).degree := by
    have hle : (mid.length : WithBot Nat) ≤ w := by exact_mod_cast hw
    rw [degree_generator]
    refine (degree_sub_le _ _).trans_lt (max_lt ((degree_message_lt mid).trans_le hle) ?_)
    exact (degree_message_lt mid').trans_le (hlen ▸ hle)
  have hzero := eq_zero_of_dvd_of_degree_lt hdvd hdeg
  exact hne (message_inj hlen (sub_eq_zero.mp hzero))

/-! ## Several steps at once -/

theorem step_xor (g r s : BitVec w) (b : Bool) :
    step g (r ^^^ s) b = step g r b ^^^ step g s false := by
  have hgate : ∀ p q : Bool, (if p then g else 0#w) ^^^ (if q then g else 0#w) =
      if p ^^ q then g else 0#w := by
    intro p q
    cases p <;> cases q
    · exact BitVec.xor_zero
    · exact BitVec.zero_xor
    · exact BitVec.xor_zero
    · exact BitVec.xor_self
  have hbit : ((r.msb ^^ b) ^^ (s.msb ^^ false)) = ((r ^^^ s).msb ^^ b) := by
    rw [BitVec.msb_xor]
    cases r.msb <;> cases s.msb <;> cases b <;> rfl
  unfold step
  rw [BitVec.shiftLeft_xor_distrib, ← hbit]
  calc r <<< 1 ^^^ s <<< 1 ^^^ (if (r.msb ^^ b) ^^ (s.msb ^^ false) then g else 0#w)
      = r <<< 1 ^^^ s <<< 1 ^^^ ((if r.msb ^^ b then g else 0#w) ^^^
          (if s.msb ^^ false then g else 0#w)) := by rw [hgate]
    _ = _ := by ac_rfl

theorem steps_shift (g : BitVec w) {r : BitVec w} {k : Nat} (hk : k ≤ w)
    (hr : ∀ i, w - k ≤ i → r.getLsbD i = false) :
    (List.replicate k false).foldl (step g) r = r <<< k := by
  induction k generalizing r with
  | zero => exact (BitVec.shiftLeft_zero r).symm
  | succ k ih =>
    have htop : r.msb = false := by
      rw [BitVec.msb_eq_getLsbD_last]
      exact hr (w - 1) (by omega)
    have hstep : step g r false = r <<< 1 := by
      unfold step
      rw [htop]
      exact BitVec.xor_zero
    rw [List.replicate_succ, List.foldl_cons, hstep, ih (by omega), ← BitVec.shiftLeft_add,
      Nat.add_comm]
    intro i hi
    rw [BitVec.getLsbD_shiftLeft]
    by_cases hi0 : i < 1
    · simp [hi0]
    · rw [hr (i - 1) (by omega), Bool.and_false]

theorem steps_split (g hi : BitVec w) {lo : BitVec w} (bits : List Bool) (hlen : bits.length ≤ w)
    (hlo : ∀ i, w - bits.length ≤ i → lo.getLsbD i = false) :
    bits.foldl (step g) (hi ^^^ lo) = bits.foldl (step g) hi ^^^ lo <<< bits.length := by
  have hsplit : ∀ (bits : List Bool) (hi lo : BitVec w), bits.foldl (step g) (hi ^^^ lo) =
      bits.foldl (step g) hi ^^^ (List.replicate bits.length false).foldl (step g) lo := by
    intro bits
    induction bits with
    | nil => exact fun hi lo => rfl
    | cons b bits ih =>
      intro hi lo
      rw [List.foldl_cons, step_xor, ih, List.foldl_cons, List.length_cons, List.replicate_succ,
        List.foldl_cons]
  rw [hsplit, steps_shift g hlen hlo]

end Rastreo.Lib.Crc
