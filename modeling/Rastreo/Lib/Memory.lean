import Rastreo.Lib.Buffer

/-!
# Memory areas

`memcmp` and `strncpy` on bytes in memory; a NUL stands for what lies behind a list.

* `memcmp_text`: compared over the length of a text, memory agrees with it exactly when the string
  in memory begins with the text.
* `text_strncpy`: what a cleared array reads as after `strncpy`.
-/

namespace Rastreo.Lib

/-- `memcmp` over `n` bytes. -/
def memcmp : Nat → Bytes → Bytes → Int
  | 0, _, _ => 0
  | n + 1, a, b =>
    if a.headD 0 = b.headD 0 then memcmp n a.tail b.tail
    else ((a.headD 0).toNat : Int) - (b.headD 0).toNat

/-- **Memory begins with a text exactly when its string does.** -/
theorem memcmp_text {s : Bytes} (hs : (0 : UInt8) ∉ s) (mem rest : Bytes) :
    memcmp s.length mem (s ++ rest) = 0 ↔ s <+: cstr mem := by
  induction s generalizing mem with
  | nil => simp [memcmp]
  | cons c s ih =>
    rw [List.mem_cons, not_or] at hs
    rw [List.length_cons, memcmp, List.cons_append, List.headD_cons, List.tail_cons]
    cases mem with
    | nil =>
      -- a NUL where the text has `c`
      rw [List.headD_nil, if_neg hs.1, cstr_nil, List.prefix_nil]
      exact ⟨fun h => absurd h (toNat_sub_ne_zero hs.1), fun h => by cases h⟩
    | cons d mem =>
      rw [List.headD_cons, List.tail_cons, cstr_cons]
      by_cases hd : d = c
      · subst hd
        rw [if_pos rfl, if_neg (Ne.symm hs.1), List.cons_prefix_cons, ih hs.2]
        simp
      · rw [if_neg hd]
        refine ⟨fun h => absurd h (toNat_sub_ne_zero hd), fun h => ?_⟩
        split at h
        · cases List.prefix_nil.mp h
        · exact absurd (List.cons_prefix_cons.mp h).1.symm hd

/-- The `k` bytes that `strncpy` writes: the string, cut or filled up with NULs. -/
def padded (src : Bytes) (k : Nat) : Bytes :=
  (cstr src).take k ++ List.replicate (k - (cstr src).length) 0

theorem length_padded (src : Bytes) (k : Nat) : (padded src k).length = k := by
  rw [padded, List.length_append, List.length_take, List.length_replicate]
  omega

namespace Buf

variable {n : Nat}

/-- `strncpy (buf, src, k)`. -/
def strncpy (b : Buf n) (src : Bytes) (k : Nat) (hk : k ≤ n) : Buf n :=
  ⟨padded src k ++ b.bytes.drop k, by
    rw [List.length_append, length_padded, List.length_drop, b.length_eq]
    omega⟩

/-- The bytes of a cleared array after `strncpy`. -/
theorem bytes_strncpy (src : Bytes) {k : Nat} (hk : k ≤ n) :
    ((clear : Buf n).strncpy src k hk).bytes = (cstr src).take k ++
      List.replicate (k - (cstr src).length + (n - k)) 0 := by
  show padded src k ++ (List.replicate n 0).drop k = _
  rw [padded, List.drop_replicate, List.append_assoc, List.replicate_append_replicate]

/-- **A cleared array reads as the string cut to `k` bytes.** -/
theorem text_strncpy (src : Bytes) {k : Nat} (hk : k ≤ n) :
    ((clear : Buf n).strncpy src k hk).text = (cstr src).take k := by
  rw [text, bytes_strncpy, cstr_append_replicate, cstr_of_notMem]
  exact fun h => zero_notMem_cstr src (List.mem_of_mem_take h)

end Buf

end Rastreo.Lib
