import Rastreo.Lib.CString

/-!
# C arrays of bytes

`Buf n` is an array of `n` bytes; its length is part of the type, so a store outside the array is
not a value: `store` gives `none` for it. `text` is the array read as a C string.

* `clear`: `memset(buf, 0, sizeof(buf))`.
* `sprintf`: the text and its NUL at the start of the array, the bytes after it as they were.
* `text_sprintf`, `text_store_clear`: what the array reads as after the store.
-/

namespace Rastreo.Lib

/-- `char buf[n]`. -/
structure Buf (n : Nat) where
  bytes : Bytes
  length_eq : bytes.length = n
  deriving DecidableEq, Repr

namespace Buf

variable {n : Nat}

/-- `memset(buf, 0, n)`. -/
def clear : Buf n := ⟨List.replicate n 0, List.length_replicate⟩

/-- The string at the start of the array. -/
def text (b : Buf n) : Bytes := cstr b.bytes

/-- The bytes `bs` from index `off` on; `none` when they do not fit. -/
def store (b : Buf n) (off : Nat) (bs : Bytes) : Option (Buf n) :=
  if h : off + bs.length ≤ n then
    some ⟨b.bytes.take off ++ bs ++ b.bytes.drop (off + bs.length), by
      have := b.length_eq
      simp only [List.length_append, List.length_take, List.length_drop]
      omega⟩
  else none

/-- `sprintf(buf, …)`, for the text it formats. -/
def sprintf (b : Buf n) (text : Bytes) : Option (Buf n) := b.store 0 (text ++ [0])

theorem cstr_replicate_zero (n : Nat) : cstr (List.replicate n 0) = [] := by
  cases n with
  | zero => rfl
  | succ n => rw [List.replicate_succ, cstr_cons, if_pos rfl]

@[simp] theorem text_clear : (clear : Buf n).text = [] := cstr_replicate_zero n

theorem length_text_le (b : Buf n) : b.text.length ≤ n :=
  (List.takeWhile_sublist _).length_le.trans_eq b.length_eq

/-- A string followed by zeros reads as itself, up to its own first NUL. -/
theorem cstr_append_replicate (s : Bytes) (k : Nat) : cstr (s ++ List.replicate k 0) = cstr s := by
  induction s with
  | nil => exact cstr_replicate_zero k
  | cons a s ih =>
    rw [List.cons_append, cstr_cons, cstr_cons, ih]

/-- The bytes after a store. -/
theorem bytes_of_store {b b' : Buf n} {off : Nat} {bs : Bytes} (h : b.store off bs = some b') :
    b'.bytes = b.bytes.take off ++ bs ++ b.bytes.drop (off + bs.length) := by
  unfold store at h
  split at h
  · obtain rfl := Option.some.inj h
    rfl
  · cases h

theorem text_of_store_zero {b b' : Buf n} {bs : Bytes} (h : b.store 0 bs = some b') :
    b'.bytes = bs ++ b.bytes.drop bs.length := by
  rw [bytes_of_store h, List.take_zero, List.nil_append, Nat.zero_add]

/-- A store leaves what is before it. -/
theorem take_of_store {b b' : Buf n} {off k : Nat} {bs : Bytes} (h : b.store off bs = some b')
    (hk : k ≤ off) : b'.bytes.take k = b.bytes.take k := by
  have hfit : off ≤ b.bytes.length := by
    unfold store at h
    split at h
    · rw [b.length_eq]
      omega
    · cases h
  rw [bytes_of_store h, List.append_assoc, List.take_append_of_le_length, List.take_take,
    Nat.min_eq_left hk]
  rw [List.length_take]
  omega

/-- **A string formatted into the array reads as itself.** -/
theorem text_sprintf {b b' : Buf n} {t : Bytes} (h : b.sprintf t = some b') (ht : (0 : UInt8) ∉ t) :
    b'.text = t := by
  rw [text, text_of_store_zero h, List.append_assoc]
  exact cstr_append_zero ht _

/-- What a transfer stores into a cleared array reads as its text. -/
theorem text_store_clear {b' : Buf n} {bs : Bytes} (h : (clear : Buf n).store 0 bs = some b') :
    b'.text = cstr bs := by
  rw [text, text_of_store_zero h, clear, List.drop_replicate, cstr_append_replicate]

/-- **Bytes stored behind the first `off`.** -/
theorem store_append {b : Buf n} {p z bs : Bytes} {off : Nat} (hb : b.bytes = p ++ z)
    (hp : p.length = off) (hbs : bs.length ≤ z.length) :
    ∃ b', b.store off bs = some b' ∧ b'.bytes = p ++ bs ++ z.drop bs.length := by
  have hn := b.length_eq
  rw [hb, List.length_append] at hn
  refine ⟨_, dif_pos (by omega), ?_⟩
  show b.bytes.take off ++ bs ++ b.bytes.drop (off + bs.length) = _
  rw [hb, List.take_left' hp, ← List.drop_drop, List.drop_left' hp]

theorem store_isSome {b : Buf n} {off : Nat} {bs : Bytes} (h : off + bs.length ≤ n) :
    ∃ b', b.store off bs = some b' := by
  unfold store
  rw [dif_pos h]
  exact ⟨_, rfl⟩

end Buf

end Rastreo.Lib
