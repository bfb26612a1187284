import Rastreo.Simcom.Tasks
import Mathlib

/-!
# The read footprint of `ATCommandParse` (`A7672E.c`)

`parseAt` is `ATCommandParse` on memory: the function gets a pointer and a size, and what it reads
behind the buffer is whatever lies there. Beside its result it returns the indices of `command` it
reads, in the order of the source: the scan for the end tests the byte before the bound, and the
four comparisons stop at the first that differs.

* `scan_spec`: the scan stops at the end of the text and has read every index up to it, the end
  included.
* `differs_spec`: the comparisons read a prefix of their indices.
* `parses_iff`: the function stays inside the buffer, and tells whether the text is framed, exactly
  when the buffer holds a NUL.
* `parseAt_eq`: on a buffer of two bytes or more the result is `atCommandParse` of the array.
-/

namespace Rastreo.Simcom

open Rastreo.Lib

/-- The bytes from `command` on. -/
abbrev Memory := Nat → UInt8

/-- `while (command[i] != 0x00 && i < size) i++;` from `i` on: the final `i`, and the reads. -/
def scan (mem : Memory) (size i : Nat) : Nat × List Nat :=
  if mem i ≠ 0 ∧ i < size then
    let (j, reads) := scan mem size (i + 1)
    (j, i :: reads)
  else (i, [i])
termination_by size - i

/-- `command[i₁] != c₁ || command[i₂] != c₂ || …`. -/
def differs (mem : Memory) : List (UInt32 × UInt8) → Bool × List Nat
  | [] => (false, [])
  | (i, c) :: rest =>
    if mem i.toNat ≠ c then (true, [i.toNat])
    else
      let (b, reads) := differs mem rest
      (b, i.toNat :: reads)

/-- `ATCommandParse`; `none` is the NULL pointer. -/
def parseAt (command : Option Memory) (size : UInt32) : Bool × List Nat :=
  match command with
  | none => (false, [])
  | some mem =>
    if mem 0 = 0 then (false, [0])
    else
      let (i, scanned) := scan mem size.toNat 0
      let i := UInt32.ofNat i
      let (bad, compared) := differs mem [(0, 13), (1, 10), (i - 2, 13), (i - 1, 10)]
      (!bad, 0 :: scanned ++ compared)

/-- The `n` bytes from index `i` on. -/
def bytesAt (mem : Memory) (i n : Nat) : Bytes := (List.range' i n).map mem

/-- The text starts with CR LF and ends with CR LF. -/
def Framed (t : Bytes) : Prop := [13, 10] <+: t ∧ [13, 10] <:+ t

/-- The function reads only the buffer, and accepts exactly the framed texts. -/
def Parses (mem : Memory) (size : UInt32) : Prop :=
  (∀ i ∈ (parseAt (some mem) size).2, i < size.toNat) ∧
    ((parseAt (some mem) size).1 = true ↔ Framed (cstr (bytesAt mem 0 size.toNat)))

/-! ## The scan -/

variable {mem : Memory}

theorem bytesAt_succ (i n : Nat) : bytesAt mem i (n + 1) = mem i :: bytesAt mem (i + 1) n := by
  rw [bytesAt, List.range'_succ, List.map_cons]
  rfl

/-- **The scan** stops at the first NUL or at `size`, and reads the byte it stops at. -/
theorem scan_spec (mem : Memory) (size : Nat) : ∀ n i, i + n = size →
    scan mem size i = (i + (cstr (bytesAt mem i n)).length,
      List.range' i ((cstr (bytesAt mem i n)).length + 1)) := by
  intro n
  induction n with
  | zero =>
    intro i hi
    rw [scan, if_neg (by omega)]
    simp [bytesAt]
  | succ n ih =>
    intro i hi
    rw [scan, bytesAt_succ, cstr_cons]
    by_cases h0 : mem i = 0
    · rw [if_neg (by simp [h0]), if_pos h0]
      simp
    · rw [if_pos ⟨h0, by omega⟩, if_neg h0, ih (i + 1) (by omega), List.length_cons]
      simp only [Prod.mk.injEq]
      exact ⟨by omega, List.range'_succ.symm⟩

/-- The text ends before the buffer does exactly when there is a NUL. -/
theorem length_cstr_bytesAt_lt_iff (i n : Nat) :
    (cstr (bytesAt mem i n)).length < n ↔ ∃ k < n, mem (i + k) = 0 := by
  induction n generalizing i with
  | zero => simp
  | succ n ih =>
    rw [bytesAt_succ, cstr_cons]
    by_cases h0 : mem i = 0
    · rw [if_pos h0]
      simp only [List.length_nil, Nat.zero_lt_succ, true_iff]
      exact ⟨0, by omega, h0⟩
    · rw [if_neg h0, List.length_cons, Nat.add_lt_add_iff_right, ih]
      constructor
      · rintro ⟨k, hk, hz⟩
        exact ⟨k + 1, by omega, by rwa [← Nat.add_assoc, Nat.add_right_comm]⟩
      · rintro ⟨k, hk, hz⟩
        cases k with
        | zero => exact absurd hz h0
        | succ k => exact ⟨k, by omega, by rwa [Nat.add_right_comm, Nat.add_assoc]⟩

/-- The bytes of the text are those of the memory. -/
theorem getElem?_cstr_bytesAt {n k : Nat} (h : k < (cstr (bytesAt mem 0 n)).length) :
    (cstr (bytesAt mem 0 n))[k]? = some (mem k) := by
  have hpre : cstr (bytesAt mem 0 n) <+: bytesAt mem 0 n := List.takeWhile_prefix _
  rw [List.getElem?_eq_getElem h, hpre.getElem h]
  simp [bytesAt]

/-- The text is ended by its NUL. -/
theorem mem_length_cstr {n : Nat} (h : (cstr (bytesAt mem 0 n)).length < n) :
    mem (cstr (bytesAt mem 0 n)).length = 0 := by
  have hall : ∀ n i, (cstr (bytesAt mem i n)).length < n →
      mem (i + (cstr (bytesAt mem i n)).length) = 0 := by
    intro n
    induction n with
    | zero => intro i h; omega
    | succ n ih =>
      intro i h
      rw [bytesAt_succ, cstr_cons] at h ⊢
      by_cases h0 : mem i = 0
      · rw [if_pos h0]
        exact h0
      · rw [if_neg h0, List.length_cons] at h ⊢
        have := ih (i + 1) (by omega)
        rwa [Nat.add_right_comm] at this
  have := hall n 0 h
  rwa [Nat.zero_add] at this

/-! ## The comparisons -/

/-- The comparisons all hold. -/
theorem differs_eq_false_iff (tests : List (UInt32 × UInt8)) :
    (differs mem tests).1 = false ↔ ∀ p ∈ tests, mem p.1.toNat = p.2 := by
  induction tests with
  | nil => simp [differs]
  | cons p tests ih =>
    obtain ⟨i, c⟩ := p
    rw [differs, List.forall_mem_cons]
    by_cases h : mem i.toNat = c
    · rw [if_neg (by simp [h])]
      simp [h, ih]
    · rw [if_pos h]
      simp [h]

/-- **A comparison is made** only after all before it have held. -/
theorem differs_reads (tests : List (UInt32 × UInt8)) : ∀ i ∈ (differs mem tests).2,
    ∃ (k : Nat) (p : UInt32 × UInt8), tests[k]? = some p ∧ i = p.1.toNat ∧
      ∀ j < k, ∀ q, tests[j]? = some q → mem q.1.toNat = q.2 := by
  induction tests with
  | nil => intro i hi; simp [differs] at hi
  | cons p tests ih =>
    obtain ⟨x, c⟩ := p
    intro i hi
    have hfirst : i = x.toNat → ∃ (k : Nat) (p : UInt32 × UInt8),
        ((x, c) :: tests)[k]? = some p ∧ i = p.1.toNat ∧
        ∀ j < k, ∀ q, ((x, c) :: tests)[j]? = some q → mem q.1.toNat = q.2 :=
      fun he => ⟨0, (x, c), rfl, he, by omega⟩
    rw [differs] at hi
    by_cases h : mem x.toNat = c
    · rw [if_neg (by simp [h])] at hi
      rcases List.mem_cons.mp hi with he | hi
      · exact hfirst he
      · obtain ⟨k, p, hk, he, hall⟩ := ih i hi
        refine ⟨k + 1, p, hk, he, ?_⟩
        intro j hj q hq
        cases j with
        | zero =>
          obtain rfl := Option.some.inj hq
          exact h
        | succ j => exact hall j (by omega) q hq
    · rw [if_pos h] at hi
      exact hfirst (List.mem_singleton.mp hi)

/-! ## The function -/

theorem framed_iff {t : Bytes} : Framed t ↔ 2 ≤ t.length ∧ t[0]? = some 13 ∧ t[1]? = some 10 ∧
    t[t.length - 2]? = some 13 ∧ t[t.length - 1]? = some 10 := by
  unfold Framed
  rw [List.prefix_iff_getElem?, List.suffix_iff_getElem?]
  constructor
  · rintro ⟨hpre, hlen, hsuf⟩
    simp only [List.length_cons, List.length_nil] at hpre hlen hsuf
    have h0 := hsuf 0 (by omega)
    have h1 := hsuf 1 (by omega)
    rw [show 0 + t.length - 2 = t.length - 2 by omega] at h0
    rw [show 1 + t.length - 2 = t.length - 1 by omega] at h1
    exact ⟨hlen, hpre 0 (by omega), hpre 1 (by omega), h0, h1⟩
  · rintro ⟨hlen, h0, h1, h2, h3⟩
    simp only [List.length_cons, List.length_nil]
    refine ⟨?_, hlen, ?_⟩
    · intro i hi
      interval_cases i
      · exact h0
      · exact h1
    · intro i hi
      interval_cases i
      · rw [show 0 + t.length - 2 = t.length - 2 by omega]
        exact h2
      · rw [show 1 + t.length - 2 = t.length - 1 by omega]
        exact h3

/-- The comparisons after the scan, for a text of `len` bytes. -/
def frameTests (len : Nat) : List (UInt32 × UInt8) :=
  [(0, 13), (1, 10), (UInt32.ofNat len - 2, 13), (UInt32.ofNat len - 1, 10)]

theorem parseAt_zero {size : UInt32} (h : mem 0 = 0) : parseAt (some mem) size = (false, [0]) := by
  simp [parseAt, h]

theorem parseAt_ne_zero {size : UInt32} (h : mem 0 ≠ 0) : parseAt (some mem) size =
    (!(differs mem (frameTests (cstr (bytesAt mem 0 size.toNat)).length)).1,
      0 :: List.range' 0 ((cstr (bytesAt mem 0 size.toNat)).length + 1) ++
        (differs mem (frameTests (cstr (bytesAt mem 0 size.toNat)).length)).2) := by
  unfold parseAt
  simp only [if_neg h, scan_spec mem size.toNat size.toNat 0 (by omega), Nat.zero_add]
  rfl

/-- The two indices counted from the end. -/
theorem toNat_ofNat_sub {len : Nat} (h2 : 2 ≤ len) (hlt : len < 2 ^ 32) :
    (UInt32.ofNat len - 2).toNat = len - 2 ∧ (UInt32.ofNat len - 1).toNat = len - 1 := by
  have hl : (UInt32.ofNat len).toNat = len := UInt32.toNat_ofNat_of_lt' hlt
  constructor
  · rw [UInt32.toNat_sub_of_le _ _ (by rw [UInt32.le_iff_toNat_le, hl]; exact h2), hl]
    rfl
  · rw [UInt32.toNat_sub_of_le _ _ (by rw [UInt32.le_iff_toNat_le, hl]; exact (by omega : 1 ≤ len)), hl]
    rfl

/-- The four comparisons hold exactly for a framed text, once its end is known to be two bytes or
more behind its start. -/
theorem differs_frameTests {size : UInt32} {t : Bytes} (ht : t = cstr (bytesAt mem 0 size.toNat))
    (h2 : 2 ≤ t.length) : (differs mem (frameTests t.length)).1 = false ↔ Framed t := by
  have hle : t.length ≤ size.toNat := by
    rw [ht]
    exact (List.takeWhile_prefix _).length_le.trans (by simp [bytesAt])
  have hlt : t.length < 2 ^ 32 := Nat.lt_of_le_of_lt hle size.toNat_lt
  have hget : ∀ k < t.length, t[k]? = some (mem k) := by
    subst ht
    exact fun k hk => getElem?_cstr_bytesAt hk
  have hidx := toNat_ofNat_sub h2 hlt
  rw [differs_eq_false_iff, framed_iff, hget 0 (by omega), hget 1 (by omega),
    hget (t.length - 2) (by omega), hget (t.length - 1) (by omega)]
  simp only [frameTests, List.forall_mem_cons, hidx.1, hidx.2, Option.some.injEq]
  simp [h2]

/-- The scan reads the index it stops at. -/
theorem length_mem_reads {size : UInt32} (h : mem 0 ≠ 0) :
    (cstr (bytesAt mem 0 size.toNat)).length ∈ (parseAt (some mem) size).2 := by
  rw [parseAt_ne_zero h]
  refine List.mem_append_left _ (List.mem_cons_of_mem _ ?_)
  rw [List.mem_range'_1]
  omega

/-- A text of one byte is not framed: what follows it is its NUL. -/
theorem mem_one_ne {n : Nat} (h : (cstr (bytesAt mem 0 n)).length < n) (h0 : mem 0 ≠ 0)
    (h2 : ¬ 2 ≤ (cstr (bytesAt mem 0 n)).length) : mem 1 ≠ 10 := by
  intro h1
  have hend := mem_length_cstr h
  by_cases hl : (cstr (bytesAt mem 0 n)).length = 0
  · rw [hl] at hend
    exact h0 hend
  · rw [show (cstr (bytesAt mem 0 n)).length = 1 by omega, h1] at hend
    exact absurd hend (by decide)

/-- **The result is that of `atCommandParse`** on the bytes of a buffer of two bytes or more. -/
theorem parseAt_eq {size : UInt32} (hsize : 2 ≤ size.toNat) :
    (parseAt (some mem) size).1 = atCommandParse (bytesAt mem 0 size.toNat) := by
  have hbyte : ∀ k < size.toNat, (bytesAt mem 0 size.toNat)[k]? = some (mem k) := by
    intro k hk
    rw [List.getElem?_eq_getElem (by simpa [bytesAt] using hk)]
    simp [bytesAt]
  have hle : (cstr (bytesAt mem 0 size.toNat)).length ≤ size.toNat :=
    (List.takeWhile_prefix _).length_le.trans (by simp [bytesAt])
  unfold atCommandParse
  dsimp only
  by_cases h0 : mem 0 = 0
  · rw [parseAt_zero h0, hbyte 0 (by omega), h0]
    simp
  · rw [parseAt_ne_zero h0, hbyte 0 (by omega), hbyte 1 (by omega)]
    by_cases h2 : 2 ≤ (cstr (bytesAt mem 0 size.toNat)).length
    · have hdiff := @differs_frameTests mem size _ rfl h2
      rw [framed_iff, getElem?_cstr_bytesAt (by omega), getElem?_cstr_bytesAt (by omega),
        getElem?_cstr_bytesAt (by omega), getElem?_cstr_bytesAt (by omega)] at hdiff
      rw [hbyte _ (by omega), hbyte _ (by omega), Bool.eq_iff_iff, Bool.not_eq_true', hdiff]
      have hne : (cstr (bytesAt mem 0 size.toNat)).length ≠ 0 := by omega
      simp [h2, hne, and_assoc]
    · have h1 := mem_one_ne (by omega) h0 h2
      have hdiff : (differs mem
          (frameTests (cstr (bytesAt mem 0 size.toNat)).length)).1 = true := by
        rw [← Bool.not_eq_false, differs_eq_false_iff]
        intro h
        exact h1 (h (1, 10) (by simp [frameTests]))
      rw [hdiff]
      simp [h1]

/-- **`ATCommandParse` stays inside the buffer, and tells whether the text is framed**, exactly when
the buffer holds a NUL. -/
theorem parses_iff (mem : Memory) (size : UInt32) :
    Parses mem size ↔ ∃ i < size.toNat, mem i = 0 := by
  unfold Parses
  by_cases h0 : mem 0 = 0
  · have hunframed : ¬ Framed (cstr (bytesAt mem 0 size.toNat)) := by
      rw [framed_iff]
      rintro ⟨hlen, hfirst, -⟩
      rw [getElem?_cstr_bytesAt (by omega), h0] at hfirst
      exact absurd hfirst (by decide)
    rw [parseAt_zero h0]
    constructor
    · intro h
      exact ⟨0, h.1 0 List.mem_cons_self, h0⟩
    · rintro ⟨i, hi, -⟩
      refine ⟨?_, by simp [hunframed]⟩
      intro j hj
      obtain rfl := List.mem_singleton.mp hj
      omega
  · have hstop := @length_mem_reads mem size h0
    rw [parseAt_ne_zero h0] at hstop ⊢
    have hnul := @length_cstr_bytesAt_lt_iff mem 0 size.toNat
    simp only [Nat.zero_add] at hnul
    rw [← hnul]
    generalize ht : cstr (bytesAt mem 0 size.toNat) = t at *
    have hlt := size.toNat_lt
    constructor
    · rintro ⟨hreads, -⟩
      exact hreads _ hstop
    · intro hlen
      have htwo : mem 1 = 10 → 2 ≤ t.length := by
        subst ht
        intro h
        by_contra hc
        exact mem_one_ne hlen h0 hc h
      have hone : 1 < size.toNat := by
        by_contra hc
        have h1 : t.length = 0 := by omega
        subst ht
        have hend := mem_length_cstr hlen
        rw [h1] at hend
        exact h0 hend
      constructor
      · intro i hi
        rcases List.mem_append.mp hi with hi | hi
        · rcases List.mem_cons.mp hi with rfl | hi
          · omega
          · rw [List.mem_range'_1] at hi
            omega
        · obtain ⟨k, p, hk, rfl, hall⟩ := differs_reads _ i hi
          have hklt : k < 4 := (List.getElem?_eq_some_iff.mp hk).1
          interval_cases k
          · obtain rfl := Option.some.inj hk
            exact (by omega : 0 < size.toNat)
          · obtain rfl := Option.some.inj hk
            exact hone
          · have h2 := htwo (hall 1 (by omega) (1, 10) rfl)
            obtain rfl := Option.some.inj hk
            rw [(toNat_ofNat_sub h2 (by omega)).1]
            omega
          · have h2 := htwo (hall 1 (by omega) (1, 10) rfl)
            obtain rfl := Option.some.inj hk
            rw [(toNat_ofNat_sub h2 (by omega)).2]
            omega
      · rw [Bool.not_eq_true']
        by_cases h2 : 2 ≤ t.length
        · exact differs_frameTests ht.symm h2
        · constructor
          · intro h
            have := (differs_eq_false_iff _).mp h (1, 10) (by simp [frameTests])
            exact absurd (htwo this) h2
          · intro h
            exact absurd (framed_iff.mp h).1 h2

/-- A reply that fills the 512 bytes of the buffer is read past its end. -/
theorem not_parses_full : ∃ mem : Memory, (∀ i < 512, mem i ≠ 0) ∧ ¬ Parses mem 512 := by
  refine ⟨fun i => if i % 2 = 0 then 13 else 10, ?_, ?_⟩
  · intro i _
    simp only
    split <;> decide
  · intro h
    have hread := h.1 _ (length_mem_reads (by decide))
    rw [length_cstr_bytesAt_lt_iff] at hread
    obtain ⟨k, -, hk⟩ := hread
    simp only [Nat.zero_add] at hk
    split at hk <;> exact absurd hk (by decide)

end Rastreo.Simcom
