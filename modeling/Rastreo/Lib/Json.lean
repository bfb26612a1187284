import Rastreo.Lib.CString
import Mathlib

/-!
# JSON objects of numbers

A reader for the JSON texts (RFC 8259) whose value is one object with number members and no
insignificant white space: `number` follows the grammar `-? int frac? exp?` (no leading zero,
at least one digit after the point), and `object` reads `{"key":number,…}` up to the end of the
text. Numbers are read as rationals, so the value is the one the text denotes, before any
conversion to floating point.

`number_decimal` reads `n.frac`, and `number_point_neg` is the error a sign after the point gives.
-/

namespace Rastreo.Lib.Json

open Rastreo.Lib

/-- The digits at the head of a text, and the rest. -/
def digits (s : Bytes) : Bytes × Bytes := (s.takeWhile isDigit, s.dropWhile isDigit)

/-- `int`: `0`, or digits that do not start with `0`. -/
def int (s : Bytes) : Option (Nat × Bytes) :=
  match digits s with
  | ([], _) => none
  | (48 :: _ :: _, _) => none
  | (ds, r) => some (decVal ds, r)

/-- `frac`: nothing, or a point and at least one digit. -/
def frac (s : Bytes) : Option (ℚ × Bytes) :=
  match s with
  | 46 :: s =>
    match digits s with
    | ([], _) => none
    | (ds, r) => some ((decVal ds : ℚ) / 10 ^ ds.length, r)
  | s => some (0, s)

/-- The digits of `exp`, after its sign. -/
def expDigits (s : Bytes) : Option (Nat × Bytes) :=
  match digits s with
  | ([], _) => none
  | (ds, r) => some (decVal ds, r)

/-- `exp`: nothing, or `e`, a sign and at least one digit; the factor it denotes. -/
def exp (s : Bytes) : Option (ℚ × Bytes) :=
  match s with
  | c :: s =>
    if c = 101 ∨ c = 69 then
      match s with
      | 45 :: s => (expDigits s).map fun (k, r) => (1 / 10 ^ k, r)
      | 43 :: s => (expDigits s).map fun (k, r) => (10 ^ k, r)
      | s => (expDigits s).map fun (k, r) => (10 ^ k, r)
    else some (1, c :: s)
  | [] => some (1, [])

/-- A number without its sign. -/
def unsigned (s : Bytes) : Option (ℚ × Bytes) := do
  let (n, s) ← int s
  let (f, s) ← frac s
  let (e, s) ← exp s
  return ((n + f) * e, s)

/-- A number at the head of a text, and the rest. -/
def number (s : Bytes) : Option (ℚ × Bytes) :=
  match s with
  | 45 :: s => (unsigned s).map fun (q, r) => (-q, r)
  | s => unsigned s

/-- A string without escapes at the head of a text. -/
def string (s : Bytes) : Option (Bytes × Bytes) :=
  match s with
  | 34 :: s =>
    match s.dropWhile (fun c => c ≠ 34 && c ≠ 92) with
    | 34 :: r => some (s.takeWhile (fun c => c ≠ 34 && c ≠ 92), r)
    | _ => none
  | _ => none

/-- Members up to the closing brace; `fuel` bounds their number. -/
def members : Nat → Bytes → Option (List (Bytes × ℚ))
  | 0, _ => none
  | fuel + 1, s => do
    let (k, s) ← string s
    match s with
    | 58 :: s =>
      let (q, s) ← number s
      match s with
      | [125] => some [(k, q)]
      | 44 :: s => (members fuel s).map ((k, q) :: ·)
      | _ => none
    | _ => none

/-- **The members of the object the text is**, or `none` when it is not one. -/
def object (s : Bytes) : Option (List (Bytes × ℚ)) :=
  match s with
  | [123, 125] => some []
  | 123 :: s => members s.length s
  | _ => none

/-! ## Reading what `printf` writes -/

/-- The text after a number: not a digit, a point or an exponent. -/
structure Ends (r : Bytes) : Prop where
  digit : ∀ c ∈ r.head?, isDigit c = false
  point : r.head? ≠ some 46
  exp : r.head? ≠ some 101 ∧ r.head? ≠ some 69

theorem digits_append {ds r : Bytes} (hds : ∀ c ∈ ds, isDigit c = true)
    (hr : ∀ c ∈ r.head?, isDigit c = false) : digits (ds ++ r) = (ds, r) := by
  have ht : r.takeWhile isDigit = [] ∧ r.dropWhile isDigit = r := by
    cases r with
    | nil => exact ⟨rfl, rfl⟩
    | cons c r =>
      have := hr c rfl
      rw [List.takeWhile_cons, List.dropWhile_cons]
      simp [this]
  unfold digits
  rw [List.takeWhile_append_of_pos hds, List.dropWhile_append_of_pos hds, ht.1, ht.2,
    List.append_nil]

/-- A number of two or more digits does not start with `0`. -/
theorem dec_head {n : Nat} : ∀ {c d : UInt8} {ds : Bytes}, dec n = c :: d :: ds → c ≠ 48 := by
  induction n using Nat.strongRecOn with
  | _ n ih =>
    intro c d ds h hc
    subst hc
    rw [dec_eq] at h
    by_cases hn : n < 10
    · rw [if_pos hn] at h
      simp at h
    · rw [if_neg hn] at h
      cases hq : dec (n / 10) with
      | nil => exact dec_ne_nil _ hq
      | cons a as =>
        rw [hq] at h
        obtain rfl := (List.cons.inj h).1
        cases as with
        | nil =>
          have hv : decVal (dec (n / 10)) = 0 := by rw [hq]; rfl
          rw [decVal_dec] at hv
          omega
        | cons b bs => exact ih (n / 10) (by omega) hq rfl

theorem int_dec (n : Nat) {r : Bytes} (hr : ∀ c ∈ r.head?, isDigit c = false) :
    int (dec n ++ r) = some (n, r) := by
  unfold int
  rw [digits_append (fun c hc => isDigit_of_mem_dec hc) hr]
  split
  · rename_i h; exact absurd (Prod.mk.inj h).1 (dec_ne_nil n)
  · rename_i h; exact absurd rfl (dec_head (Prod.mk.inj h).1)
  · rename_i h
    obtain ⟨rfl, rfl⟩ := Prod.mk.inj h
    rw [decVal_dec]

theorem exp_ends {r : Bytes} (hr : Ends r) : exp r = some (1, r) := by
  cases r with
  | nil => rfl
  | cons c r =>
    have h1 : c ≠ 101 := fun h => hr.exp.1 (by rw [h]; rfl)
    have h2 : c ≠ 69 := fun h => hr.exp.2 (by rw [h]; rfl)
    simp only [exp, h1, h2, or_self, if_false]

/-- **A number written as `n.frac`** denotes `n` plus `frac` over the power of ten of its
length. -/
theorem unsigned_decimal (n : Nat) {ds r : Bytes} (hne : ds ≠ [])
    (hds : ∀ c ∈ ds, isDigit c = true) (hr : Ends r) :
    unsigned (dec n ++ 46 :: (ds ++ r)) = some (n + (decVal ds : ℚ) / 10 ^ ds.length, r) := by
  have hfrac : frac (46 :: (ds ++ r)) = some ((decVal ds : ℚ) / 10 ^ ds.length, r) := by
    simp only [frac]
    rw [digits_append hds hr.digit]
    split
    · rename_i h; exact absurd (Prod.mk.inj h).1 hne
    · rename_i h; obtain ⟨rfl, rfl⟩ := Prod.mk.inj h; rfl
  unfold unsigned
  rw [int_dec n (by simp [isDigit])]
  simp [hfrac, exp_ends hr]

/-- A whole number. -/
theorem unsigned_dec (n : Nat) {r : Bytes} (hr : Ends r) : unsigned (dec n ++ r) = some ((n : ℚ), r) := by
  have hfrac : frac r = some (0, r) := by
    unfold frac
    split
    · exact absurd rfl hr.point
    · rfl
  unfold unsigned
  rw [int_dec n hr.digit]
  simp [hfrac, exp_ends hr]

theorem number_of_isDigit {c : UInt8} {s : Bytes} (h : isDigit c = true) :
    number (c :: s) = unsigned (c :: s) := by
  have hc : c ≠ 45 := by rintro rfl; exact absurd h (by decide)
  unfold number
  split
  · rename_i h; exact absurd (List.cons.inj h).1 hc
  · rfl

theorem number_dec_append (n : Nat) (r : Bytes) : number (dec n ++ r) = unsigned (dec n ++ r) := by
  cases h : dec n with
  | nil => exact absurd h (dec_ne_nil n)
  | cons c cs => exact number_of_isDigit (isDigit_of_mem_dec (h ▸ List.mem_cons_self))

/-- A sign after the point is not a number. -/
theorem unsigned_point_neg (n : Nat) (r : Bytes) : unsigned (dec n ++ 46 :: 45 :: r) = none := by
  unfold unsigned
  rw [int_dec n (by simp [isDigit])]
  rfl

/-- A member followed by another. -/
theorem members_cons {fuel : Nat} {key s r : Bytes} {q : ℚ}
    (hkey : ∀ c ∈ key, c ≠ 34 ∧ c ≠ 92) (hq : number s = some (q, 44 :: r)) :
    members (fuel + 1) (34 :: (key ++ 34 :: 58 :: s)) = (members fuel r).map ((key, q) :: ·) := by
  have hall : ∀ c ∈ key, (decide (c ≠ 34) && decide (c ≠ 92)) = true := fun c hc => by
    simp [hkey c hc]
  simp only [members, string]
  rw [List.takeWhile_append_of_pos hall, List.dropWhile_append_of_pos hall]
  simp [hq]

/-- The last member. -/
theorem members_last {fuel : Nat} {key s : Bytes} {q : ℚ}
    (hkey : ∀ c ∈ key, c ≠ 34 ∧ c ≠ 92) (hq : number s = some (q, [125])) :
    members (fuel + 1) (34 :: (key ++ 34 :: 58 :: s)) = some [(key, q)] := by
  have hall : ∀ c ∈ key, (decide (c ≠ 34) && decide (c ≠ 92)) = true := fun c hc => by
    simp [hkey c hc]
  simp only [members, string]
  rw [List.takeWhile_append_of_pos hall, List.dropWhile_append_of_pos hall]
  simp [hq]

/-- A member whose value is not a number. -/
theorem members_none {fuel : Nat} {key s : Bytes}
    (hkey : ∀ c ∈ key, c ≠ 34 ∧ c ≠ 92) (hq : number s = none) :
    members (fuel + 1) (34 :: (key ++ 34 :: 58 :: s)) = none := by
  have hall : ∀ c ∈ key, (decide (c ≠ 34) && decide (c ≠ 92)) = true := fun c hc => by
    simp [hkey c hc]
  simp only [members, string]
  rw [List.takeWhile_append_of_pos hall, List.dropWhile_append_of_pos hall]
  simp [hq]

end Rastreo.Lib.Json
