import Mathlib

/-!
# C strings

Bytes are `UInt8`, texts are lists of bytes without their terminating NUL, and a byte array is
read as a string up to its first NUL (`cstr`). The functions follow the C library:

* `strcmp`, `strncmp`: the difference of the first two bytes that differ, as unsigned chars.
  What callers need is when they give 0: `strcmp_eq_zero_iff`, `strncmp_eq_zero_iff`.
* `strtok`: one call, on the text its saved pointer is at; `none` is the NULL pointer.
  `strtok_field` and `strtok_last` are the two ways a non-empty field ends, `strtok_eq_some_iff`
  says where in the text a token stands; `strtoks` is a row of calls.
* `atoi`: blanks, a sign, digits, saturating at the ends of a 32-bit `long` as `strtol` does.
* `fmtD w`: the conversion `%0wd` of `printf` (`%d` when `w = 0`).

`dec` writes a natural number in decimal and `decVal` reads digits; `decVal_dec` and
`decVal_fmtD` say that reading undoes writing.
-/

namespace Rastreo.Lib

/-- A sequence of bytes. -/
abbrev Bytes := List UInt8

/-- The bytes of an ASCII literal. -/
def ascii (s : String) : Bytes := s.toList.map fun c => UInt8.ofNat c.toNat

/-- The text of a byte array: up to its first NUL, or all of it when there is none. -/
def cstr (b : Bytes) : Bytes := b.takeWhile (· ≠ 0)

/-! ## Comparison -/

/-- `strcmp`; the end of a list stands for its NUL. -/
def strcmp : Bytes → Bytes → Int
  | [], [] => 0
  | [], b :: _ => -(b.toNat : Int)
  | a :: _, [] => a.toNat
  | a :: as, b :: bs =>
    if a = b then (if a = 0 then 0 else strcmp as bs) else (a.toNat : Int) - b.toNat

/-- `strncmp` over at most `n` bytes. -/
def strncmp : Nat → Bytes → Bytes → Int
  | 0, _, _ => 0
  | _ + 1, [], [] => 0
  | _ + 1, [], b :: _ => -(b.toNat : Int)
  | _ + 1, a :: _, [] => a.toNat
  | n + 1, a :: as, b :: bs =>
    if a = b then (if a = 0 then 0 else strncmp n as bs) else (a.toNat : Int) - b.toNat

@[simp] theorem cstr_nil : cstr [] = [] := rfl

theorem cstr_cons (a : UInt8) (as : Bytes) : cstr (a :: as) = if a = 0 then [] else a :: cstr as := by
  unfold cstr
  rw [List.takeWhile_cons]
  by_cases h : a = 0 <;> simp [h]

theorem zero_notMem_cstr (b : Bytes) : (0 : UInt8) ∉ cstr b :=
  fun h => by simpa using List.mem_takeWhile_imp h

/-- A text is its own string. -/
theorem cstr_of_notMem {t : Bytes} (h : (0 : UInt8) ∉ t) : cstr t = t :=
  List.takeWhile_eq_self_iff.mpr fun c hc => by
    simp only [decide_eq_true_eq]
    rintro rfl
    exact h hc

/-- A text followed by a NUL. -/
theorem cstr_append_zero {t : Bytes} (h : (0 : UInt8) ∉ t) (rest : Bytes) :
    cstr (t ++ 0 :: rest) = t := by
  induction t with
  | nil => simp [cstr_cons]
  | cons a t ih =>
    rw [List.mem_cons, not_or] at h
    rw [List.cons_append, cstr_cons, if_neg (Ne.symm h.1), ih h.2]

theorem toNat_eq_zero {a : UInt8} : a.toNat = 0 ↔ a = 0 :=
  UInt8.toNat_inj (b := 0)

theorem toNat_sub_ne_zero {a b : UInt8} (h : a ≠ b) : (a.toNat : Int) - b.toNat ≠ 0 := by
  intro he
  exact h (UInt8.toNat_inj.mp (by omega))

/-- **`strcmp` gives 0 exactly on equal strings.** -/
theorem strcmp_eq_zero_iff : ∀ {a b : Bytes}, strcmp a b = 0 ↔ cstr a = cstr b
  | [], [] => by simp [strcmp]
  | [], b :: bs => by
    rw [strcmp, cstr_nil, cstr_cons]
    by_cases h : b = 0 <;> simp [toNat_eq_zero, h]
  | a :: as, [] => by
    rw [strcmp, cstr_nil, cstr_cons]
    by_cases h : a = 0 <;> simp [toNat_eq_zero, h]
  | a :: as, b :: bs => by
    rw [strcmp, cstr_cons, cstr_cons]
    by_cases hab : a = b
    · subst hab
      by_cases h0 : a = 0
      · simp [h0]
      · simp [h0, strcmp_eq_zero_iff (a := as) (b := bs)]
    · rw [if_neg hab]
      refine ⟨fun h => absurd h (toNat_sub_ne_zero hab), fun h => ?_⟩
      by_cases ha : a = 0 <;> by_cases hb : b = 0 <;> simp_all

/-- **`strncmp` gives 0 exactly when the strings agree on their first `n` bytes.** -/
theorem strncmp_eq_zero_iff :
    ∀ {n : Nat} {a b : Bytes}, strncmp n a b = 0 ↔ (cstr a).take n = (cstr b).take n
  | 0, _, _ => by simp [strncmp]
  | n + 1, [], [] => by simp [strncmp]
  | n + 1, [], b :: bs => by
    rw [strncmp, cstr_nil, cstr_cons]
    by_cases h : b = 0 <;> simp [toNat_eq_zero, h]
  | n + 1, a :: as, [] => by
    rw [strncmp, cstr_nil, cstr_cons]
    by_cases h : a = 0 <;> simp [toNat_eq_zero, h]
  | n + 1, a :: as, b :: bs => by
    rw [strncmp, cstr_cons, cstr_cons]
    by_cases hab : a = b
    · subst hab
      by_cases h0 : a = 0
      · simp [h0]
      · simp [h0, strncmp_eq_zero_iff (n := n) (a := as) (b := bs)]
    · rw [if_neg hab]
      refine ⟨fun h => absurd h (toNat_sub_ne_zero hab), fun h => ?_⟩
      by_cases ha : a = 0 <;> by_cases hb : b = 0 <;> simp_all

/-! ## Tokens -/

/-- One call of `strtok` on the text at the saved pointer: the token and the text after the
delimiter that ended it, or `none` (NULL) when only delimiters are left. -/
def strtok (delim s : Bytes) : Option (Bytes × Bytes) :=
  let s := s.dropWhile (· ∈ delim)
  if s = [] then none else some (s.takeWhile (· ∉ delim), (s.dropWhile (· ∉ delim)).tail)

theorem dropWhile_head_notMem {delim tok rest : Bytes} (hne : tok ≠ [])
    (htok : ∀ c ∈ tok, c ∉ delim) : (tok ++ rest).dropWhile (· ∈ delim) = tok ++ rest := by
  cases tok with
  | nil => exact absurd rfl hne
  | cons c cs => simp [htok c List.mem_cons_self]

/-- A field ended by a delimiter. -/
theorem strtok_field {delim tok rest : Bytes} {d : UInt8} (hne : tok ≠ [])
    (htok : ∀ c ∈ tok, c ∉ delim) (hd : d ∈ delim) :
    strtok delim (tok ++ d :: rest) = some (tok, rest) := by
  have hall : ∀ c ∈ tok, decide (c ∉ delim) = true := fun c hc => by simpa using htok c hc
  unfold strtok
  simp only [dropWhile_head_notMem hne htok]
  rw [if_neg (by simp), List.takeWhile_append_of_pos hall, List.dropWhile_append_of_pos hall]
  simp [hd]

/-- The last field, ended by the NUL. -/
theorem strtok_last {delim tok : Bytes} (hne : tok ≠ []) (htok : ∀ c ∈ tok, c ∉ delim) :
    strtok delim tok = some (tok, []) := by
  have hall : ∀ c ∈ tok, decide (c ∉ delim) = true := fun c hc => by simpa using htok c hc
  have hdrop := @dropWhile_head_notMem delim tok [] hne htok
  rw [List.append_nil] at hdrop
  unfold strtok
  simp only [hdrop]
  rw [if_neg hne, List.takeWhile_eq_self_iff.mpr hall, List.dropWhile_eq_nil_iff.mpr hall]
  rfl

/-- Delimiters before a token are skipped. -/
theorem strtok_skip {delim skip : Bytes} (h : ∀ c ∈ skip, c ∈ delim) (s : Bytes) :
    strtok delim (skip ++ s) = strtok delim s := by
  have hall : ∀ c ∈ skip, decide (c ∈ delim) = true := fun c hc => by simpa using h c hc
  unfold strtok
  rw [List.dropWhile_append_of_pos hall]

/-- **A token in its text**: delimiters, the token, then one more delimiter or the end. -/
theorem strtok_eq_some_iff {delim s tok rest : Bytes} :
    strtok delim s = some (tok, rest) ↔
      ∃ skip, (∀ c ∈ skip, c ∈ delim) ∧ tok ≠ [] ∧ (∀ c ∈ tok, c ∉ delim) ∧
        (s = skip ++ tok ∧ rest = [] ∨ ∃ d ∈ delim, s = skip ++ (tok ++ d :: rest)) := by
  constructor
  · intro h
    have hs := s.takeWhile_append_dropWhile (p := fun c => decide (c ∈ delim))
    unfold strtok at h
    dsimp only at h
    split at h
    · cases h
    · rename_i hne
      obtain ⟨rfl, hrest⟩ := Prod.mk.inj (Option.some.inj h)
      refine ⟨s.takeWhile (· ∈ delim), fun c hc => ?_, ?_, fun c hc => ?_, ?_⟩
      · simpa using List.mem_takeWhile_imp hc
      · -- dropping stopped at a character of the token
        obtain ⟨c, cs, hcs⟩ := List.exists_cons_of_ne_nil hne
        have hc := List.head?_dropWhile_not (fun c => decide (c ∈ delim)) s
        rw [hcs] at hc ⊢
        simp only [List.head?_cons, decide_eq_false_iff_not] at hc
        simp [hc]
      · simpa using List.mem_takeWhile_imp hc
      · generalize s.dropWhile (· ∈ delim) = t at hs hrest ⊢
        have ht := t.takeWhile_append_dropWhile (p := fun c => decide (c ∉ delim))
        cases hd : t.dropWhile (· ∉ delim) with
        | nil =>
          rw [hd] at hrest ht
          rw [List.append_nil] at ht
          exact .inl ⟨by rw [ht, hs], hrest.symm⟩
        | cons d ds =>
          have hmem := List.head?_dropWhile_not (fun c => decide (c ∉ delim)) t
          rw [hd] at hrest ht hmem
          simp only [List.head?_cons, decide_eq_false_iff_not, not_not] at hmem
          refine .inr ⟨d, hmem, ?_⟩
          rw [← hrest, List.tail_cons, ht, hs]
  · rintro ⟨skip, hskip, hne, htok, ⟨rfl, rfl⟩ | ⟨d, hd, rfl⟩⟩
    · rw [strtok_skip hskip, strtok_last hne htok]
    · rw [strtok_skip hskip, strtok_field hne htok hd]

/-- The same for a single delimiter: what follows the token is empty or begins with it. -/
theorem strtok_single_iff {d : UInt8} {s tok r : Bytes} :
    strtok [d] s = some (tok, r) ↔
      ∃ skip rest, s = skip ++ (tok ++ rest) ∧ (∀ c ∈ skip, c = d) ∧ tok ≠ [] ∧ d ∉ tok ∧
        (∀ c ∈ rest.head?, c = d) ∧ r = rest.tail := by
  have hnot : (∀ c ∈ tok, c ∉ [d]) ↔ d ∉ tok := by
    simp only [List.mem_singleton]
    exact ⟨fun h hd => h d hd rfl, fun h c hc he => h (he ▸ hc)⟩
  rw [strtok_eq_some_iff, hnot]
  simp only [List.mem_singleton, exists_eq_left]
  constructor
  · rintro ⟨skip, hskip, hne, htok, ⟨rfl, rfl⟩ | rfl⟩
    · exact ⟨skip, [], by rw [List.append_nil], hskip, hne, htok, by simp, rfl⟩
    · exact ⟨skip, d :: r, rfl, hskip, hne, htok, by simp, rfl⟩
  · rintro ⟨skip, rest, rfl, hskip, hne, htok, hhead, rfl⟩
    refine ⟨skip, hskip, hne, htok, ?_⟩
    cases rest with
    | nil => exact .inl ⟨by rw [List.append_nil], rfl⟩
    | cons c rest =>
      obtain rfl := hhead c rfl
      exact .inr rfl

/-- With something left after it, a token is ended by the delimiter. -/
theorem strtok_single_cons_iff {d : UInt8} {s tok r : Bytes} (hr : r ≠ []) :
    strtok [d] s = some (tok, r) ↔
      ∃ skip, s = skip ++ (tok ++ d :: r) ∧ (∀ c ∈ skip, c = d) ∧ tok ≠ [] ∧ d ∉ tok := by
  rw [strtok_single_iff]
  constructor
  · rintro ⟨skip, rest, rfl, hskip, hne, htok, hhead, rfl⟩
    cases rest with
    | nil => exact absurd rfl hr
    | cons c rest =>
      obtain rfl := hhead c rfl
      exact ⟨skip, rfl, hskip, hne, htok⟩
  · rintro ⟨skip, rfl, hskip, hne, htok⟩
    exact ⟨skip, d :: r, rfl, hskip, hne, htok, by simp, rfl⟩

theorem strtok_ne_nil {delim s : Bytes} {p : Bytes × Bytes} (h : strtok delim s = some p) :
    s ≠ [] := by
  rintro rfl
  cases h

/-- A token and the rest are no longer than the text. -/
theorem strtok_length_le {delim s tok rest : Bytes} (h : strtok delim s = some (tok, rest)) :
    tok.length ≤ s.length ∧ rest.length ≤ s.length := by
  unfold strtok at h
  dsimp only at h
  split at h
  · cases h
  · obtain ⟨rfl, rfl⟩ := Prod.mk.inj (Option.some.inj h)
    have hdrop := (List.dropWhile_sublist (l := s) (· ∈ delim)).length_le
    constructor
    · exact (List.takeWhile_sublist _).length_le.trans hdrop
    · exact ((List.tail_sublist _).length_le.trans (List.dropWhile_sublist _).length_le).trans hdrop

/-- Successive calls of `strtok`, each with its own delimiters. -/
def strtoks : List Bytes → Bytes → Option (List Bytes)
  | [], _ => some []
  | delim :: delims, s => do
    let (tok, rest) ← strtok delim s
    let toks ← strtoks delims rest
    return tok :: toks

@[simp] theorem strtoks_nil (s : Bytes) : strtoks [] s = some [] := rfl

/-- The first of the calls. -/
theorem strtoks_cons {delim s tok rest : Bytes} (h : strtok delim s = some (tok, rest))
    (delims : List Bytes) :
    strtoks (delim :: delims) s = (strtoks delims rest).map (tok :: ·) := by
  rw [strtoks, h]
  cases h' : strtoks delims rest <;> simp [h']

theorem strtoks_cons_eq_some_iff {delim s : Bytes} {delims toks : List Bytes} :
    strtoks (delim :: delims) s = some toks ↔
      ∃ tok rest toks', strtok delim s = some (tok, rest) ∧ strtoks delims rest = some toks' ∧
        toks = tok :: toks' := by
  simp only [strtoks, Option.bind_eq_bind, Option.pure_def, Option.bind_eq_some_iff, Option.some.injEq,
    Prod.exists]
  constructor
  · rintro ⟨tok, rest, htok, toks', htoks, rfl⟩
    exact ⟨tok, rest, toks', htok, htoks, rfl⟩
  · rintro ⟨tok, rest, toks', htok, htoks, rfl⟩
    exact ⟨tok, rest, htok, toks', htoks, rfl⟩

/-! ## Decimal -/

/-- `isdigit`. -/
def isDigit (c : UInt8) : Bool := 48 ≤ c && c ≤ 57

/-- `n` in decimal. -/
def dec (n : Nat) : Bytes := (Nat.toDigits 10 n).map fun c => UInt8.ofNat c.toNat

/-- The number a list of digits denotes. -/
def decVal (ds : Bytes) : Nat := ds.foldl (fun v d => 10 * v + (d.toNat - 48)) 0

/-- The digit byte of `d`. -/
def digit (d : Nat) : UInt8 := UInt8.ofNat (48 + d)

theorem digitChar_byte {d : Nat} (h : d < 10) :
    UInt8.ofNat (Nat.digitChar d).toNat = digit d := by
  have : ∀ d : Fin 10, UInt8.ofNat (Nat.digitChar d).toNat = digit d := by decide
  exact this ⟨d, h⟩

theorem digit_spec {d : Nat} (h : d < 10) : isDigit (digit d) = true ∧ (digit d).toNat - 48 = d := by
  have : ∀ d : Fin 10, isDigit (digit d) = true ∧ (digit d).toNat - 48 = d := by decide
  exact this ⟨d, h⟩

/-- The last digit comes off the end. -/
theorem dec_eq (n : Nat) : dec n = (if n < 10 then [] else dec (n / 10)) ++ [digit (n % 10)] := by
  unfold dec
  by_cases h : n < 10
  · rw [if_pos h, Nat.toDigits_of_lt_base h, Nat.mod_eq_of_lt h]
    simp [digitChar_byte h]
  · rw [if_neg h, Nat.toDigits_of_base_le (by omega) (by omega), List.map_append]
    simp [digitChar_byte (Nat.mod_lt n (by omega : 10 > 0))]

theorem dec_ne_nil (n : Nat) : dec n ≠ [] := by rw [dec_eq]; simp

theorem decVal_foldl (ds : Bytes) (v : Nat) :
    ds.foldl (fun v d => 10 * v + (d.toNat - 48)) v = v * 10 ^ ds.length + decVal ds := by
  unfold decVal
  induction ds generalizing v with
  | nil => simp
  | cons d ds ih =>
    rw [List.foldl_cons, List.foldl_cons, ih, ih (10 * 0 + _), List.length_cons, pow_succ]
    ring

theorem decVal_append (as bs : Bytes) : decVal (as ++ bs) = decVal as * 10 ^ bs.length + decVal bs := by
  rw [decVal, List.foldl_append, decVal_foldl]
  rfl

/-- **Reading undoes writing.** -/
@[simp] theorem decVal_dec (n : Nat) : decVal (dec n) = n := by
  induction n using Nat.strongRecOn with
  | _ n ih =>
    have hd : decVal [digit (n % 10)] = n % 10 := by
      simp [decVal, (digit_spec (Nat.mod_lt n (by omega : 10 > 0))).2]
    rw [dec_eq, decVal_append, hd]
    by_cases h : n < 10
    · rw [if_pos h, Nat.mod_eq_of_lt h]
      simp [decVal]
    · rw [if_neg h, ih (n / 10) (by omega), List.length_singleton]
      omega

theorem isDigit_of_mem_dec {n : Nat} {c : UInt8} (h : c ∈ dec n) : isDigit c = true := by
  induction n using Nat.strongRecOn with
  | _ n ih =>
    rw [dec_eq, List.mem_append, List.mem_singleton] at h
    rcases h with h | rfl
    · by_cases hn : n < 10
      · rw [if_pos hn] at h; exact absurd h List.not_mem_nil
      · rw [if_neg hn] at h; exact ih (n / 10) (by omega) h
    · exact (digit_spec (Nat.mod_lt n (by omega : 10 > 0))).1

theorem dec_length_le_iff {n k : Nat} (hk : 0 < k) : (dec n).length ≤ k ↔ n < 10 ^ k := by
  rw [dec, List.length_map]
  exact Nat.length_toDigits_le_iff (by omega) hk

theorem decVal_replicate_zero (k : Nat) (ds : Bytes) :
    decVal (List.replicate k 48 ++ ds) = decVal ds := by
  induction k with
  | zero => rfl
  | succ k ih => rw [List.replicate_succ, List.cons_append, ← ih]; rfl

/-! ## `printf` and `atoi` -/

/-- `%0wd`: the sign, zeros up to the width, the digits. -/
def fmtD (w : Nat) (z : Int) : Bytes :=
  let d := dec z.natAbs
  if z < 0 then 45 :: (List.replicate (w - 1 - d.length) 48 ++ d)
  else List.replicate (w - d.length) 48 ++ d

theorem fmtD_natCast (w n : Nat) : fmtD w n = List.replicate (w - (dec n).length) 48 ++ dec n := by
  unfold fmtD
  rw [if_neg (by omega), Int.natAbs_natCast]

@[simp] theorem decVal_fmtD (w n : Nat) : decVal (fmtD w n) = n := by
  rw [fmtD_natCast, decVal_replicate_zero, decVal_dec]

theorem isDigit_of_mem_fmtD {w n : Nat} {c : UInt8} (h : c ∈ fmtD w n) : isDigit c = true := by
  rw [fmtD_natCast, List.mem_append] at h
  rcases h with h | h
  · rw [List.eq_of_mem_replicate h]; rfl
  · exact isDigit_of_mem_dec h

theorem fmtD_length (w n : Nat) : (fmtD w n).length = max w (dec n).length := by
  rw [fmtD_natCast, List.length_append, List.length_replicate]
  omega

theorem fmtD_ne_nil (w : Nat) (z : Int) : fmtD w z ≠ [] := by
  unfold fmtD
  have := dec_ne_nil z.natAbs
  split <;> simp [this]

/-- `LONG_MAX` and `LONG_MIN` of a 32-bit `long`. -/
def clampLong (z : Int) : Int := max (-2147483648) (min 2147483647 z)

/-- `isspace`. -/
def isBlank (c : UInt8) : Bool := c = 32 || (9 ≤ c && c ≤ 13)

/-- `atoi`. -/
def atoi (s : Bytes) : Int :=
  match s.dropWhile isBlank with
  | 45 :: t => clampLong (-(decVal (t.takeWhile isDigit) : Int))
  | 43 :: t => clampLong (decVal (t.takeWhile isDigit))
  | t => clampLong (decVal (t.takeWhile isDigit))

/-- Leading white space is skipped. -/
theorem atoi_append_of_isBlank {bs s : Bytes} (h : ∀ c ∈ bs, isBlank c = true) :
    atoi (bs ++ s) = atoi s := by
  unfold atoi
  rw [List.dropWhile_append_of_pos h]

theorem atoi_of_isDigit_head {c : UInt8} {t : Bytes} (hc : isDigit c = true) :
    atoi (c :: t) = clampLong (decVal ((c :: t).takeWhile isDigit)) := by
  have hb : isBlank c = false := by
    simp only [isDigit, isBlank, Bool.and_eq_true, decide_eq_true_eq, UInt8.le_iff_toNat_le] at hc ⊢
    simp only [← UInt8.toNat_inj, Bool.or_eq_false_iff, Bool.and_eq_false_iff, decide_eq_false_iff_not]
    have h48 : (48 : UInt8).toNat = 48 := rfl
    have h32 : (32 : UInt8).toNat = 32 := rfl
    have h13 : (13 : UInt8).toNat = 13 := rfl
    omega
  have h45 : c ≠ 45 := by rintro rfl; exact absurd hc (by decide)
  have h43 : c ≠ 43 := by rintro rfl; exact absurd hc (by decide)
  unfold atoi
  rw [List.dropWhile_cons_of_neg (by simp [hb])]
  split
  · rename_i h; exact absurd (List.cons.inj h).1 h45
  · rename_i h; exact absurd (List.cons.inj h).1 h43
  · rfl

/-- `atoi` of digits, up to whatever follows them. -/
theorem atoi_digits {ds rest : Bytes} (hne : ds ≠ []) (hds : ∀ c ∈ ds, isDigit c = true)
    (hrest : rest.takeWhile isDigit = []) (hle : decVal ds ≤ 2147483647) :
    atoi (ds ++ rest) = decVal ds := by
  cases ds with
  | nil => exact absurd rfl hne
  | cons c cs =>
    rw [List.cons_append, atoi_of_isDigit_head (hds c List.mem_cons_self), ← List.cons_append,
      List.takeWhile_append_of_pos hds, hrest, List.append_nil]
    unfold clampLong
    omega

end Rastreo.Lib
