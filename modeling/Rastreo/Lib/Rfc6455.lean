import Rastreo.Lib.CString

/-!
# WebSocket frames (RFC 6455, section 5.2)

A `Frame` is what a frame says; on the wire it also has a length form, the 7-bit one or one of the
two extensions, and the payload is xored with the masking key when there is one. No extension is
negotiated, so the reserved bits are zero.

* `Frame.encode`, `decode`: the wire format and its reader. `decode_encode`: reading undoes writing,
  whatever follows the frame.
* `LengthForm.minimal`: the form RFC 6455 asks of a sender.
* `applyMask_applyMask`: unmasking is masking.
-/

namespace Rastreo.Lib

/-! ## Network byte order -/

/-- The last `k` bytes of `n`, most significant first. -/
def be : Nat → Nat → Bytes
  | 0, _ => []
  | k + 1, n => be k (n / 256) ++ [UInt8.ofNat n]

/-- The number bytes denote, most significant first. -/
def beVal (bs : Bytes) : Nat := bs.foldl (fun v b => 256 * v + b.toNat) 0

@[simp] theorem length_be (k n : Nat) : (be k n).length = k := by
  induction k generalizing n with
  | zero => rfl
  | succ k ih => rw [be, List.length_append, ih, List.length_singleton]

theorem be_ne_nil (k n : Nat) (hk : 0 < k) : be k n ≠ [] :=
  List.ne_nil_of_length_pos (by rwa [length_be])

/-- Only the low bytes are written. -/
theorem be_mod (k n : Nat) : be k (n % 256 ^ k) = be k n := by
  induction k generalizing n with
  | zero => rfl
  | succ k ih =>
    have hlow : UInt8.ofNat (n % (256 * 256 ^ k)) = UInt8.ofNat n := by
      rw [← UInt8.toNat_inj, UInt8.toNat_ofNat', UInt8.toNat_ofNat']
      exact Nat.mod_mul_right_mod n 256 (256 ^ k)
    rw [be, be, Nat.pow_succ', Nat.mod_mul_right_div_self, ih, hlow]

theorem beVal_concat (bs : Bytes) (b : UInt8) : beVal (bs ++ [b]) = 256 * beVal bs + b.toNat := by
  rw [beVal, List.foldl_append, List.foldl_cons, List.foldl_nil, ← beVal]

/-- **Reading undoes writing** up to the number of bytes. -/
theorem beVal_be (k n : Nat) : beVal (be k n) = n % 256 ^ k := by
  induction k generalizing n with
  | zero => rw [Nat.pow_zero, Nat.mod_one]; rfl
  | succ k ih =>
    have hlow : (UInt8.ofNat n).toNat = n % 256 := UInt8.toNat_ofNat'
    rw [be, beVal_concat, ih, hlow, Nat.pow_succ', Nat.mod_mul, Nat.add_comm]

theorem beVal_be_of_lt {k n : Nat} (h : n < 256 ^ k) : beVal (be k n) = n := by
  rw [beVal_be, Nat.mod_eq_of_lt h]

/-! ## Masking -/

/-- A masking key. -/
structure MaskKey where
  bytes : Bytes
  length_eq : bytes.length = 4
  deriving DecidableEq, Repr

/-- The byte of the key for octet `i` of the payload. -/
def MaskKey.at (key : MaskKey) (i : Nat) : UInt8 := key.bytes.getD (i % 4) 0

/-- The payload masked, or unmasked. -/
def applyMask (key : MaskKey) (bs : Bytes) : Bytes := bs.mapIdx fun i b => b ^^^ key.at i

@[simp] theorem length_applyMask (key : MaskKey) (bs : Bytes) :
    (applyMask key bs).length = bs.length := List.length_mapIdx

@[simp] theorem applyMask_applyMask (key : MaskKey) (bs : Bytes) :
    applyMask key (applyMask key bs) = bs := by
  rw [applyMask, applyMask, List.mapIdx_mapIdx]
  refine List.ext_getElem (by simp) fun i h₁ h₂ => ?_
  simp

/-! ## Frames -/

/-- The three forms of the payload length. -/
inductive LengthForm
  | short
  | ext16
  | ext64
  deriving DecidableEq, Repr

/-- The form can hold the length. -/
def LengthForm.Fits (n : Nat) : LengthForm → Prop
  | .short => n < 126
  | .ext16 => n < 65536
  | .ext64 => n < 9223372036854775808

instance (n : Nat) (form : LengthForm) : Decidable (form.Fits n) := by
  cases form <;> unfold LengthForm.Fits <;> infer_instance

/-- The shortest form for a length. -/
def LengthForm.minimal (n : Nat) : LengthForm :=
  if n < 126 then .short else if n < 65536 then .ext16 else .ext64

/-- The seven bits of the second byte. -/
def LengthForm.code (n : Nat) : LengthForm → Nat
  | .short => n
  | .ext16 => 126
  | .ext64 => 127

/-- How many bytes of length follow. -/
def LengthForm.extra : LengthForm → Nat
  | .short => 0
  | .ext16 => 2
  | .ext64 => 8

instance neZero_opcodes : NeZero 16 := ⟨Nat.succ_ne_zero 15⟩

/-- A frame; no key when it is not masked. -/
structure Frame where
  fin : Bool
  opcode : Fin 16
  mask : Option MaskKey
  payload : Bytes
  deriving DecidableEq, Repr

/-- A bit worth `w` when set. -/
def bitOf (b : Bool) (w : Nat) : Nat := if b then w else 0

namespace Frame

/-- The first two bytes. -/
def first (f : Frame) : UInt8 := UInt8.ofNat (bitOf f.fin 128 + f.opcode)

/-- The mask bit, and the length or the code of its form. -/
def second (form : LengthForm) (f : Frame) : UInt8 :=
  UInt8.ofNat (bitOf f.mask.isSome 128 + form.code f.payload.length)

/-- All that stands before the masking key. -/
def header (form : LengthForm) (f : Frame) : Bytes :=
  f.first :: f.second form :: be form.extra f.payload.length

/-- The payload as it is sent. -/
def body (f : Frame) : Bytes :=
  match f.mask with
  | none => f.payload
  | some key => key.bytes ++ applyMask key f.payload

/-- **The wire format.** -/
def encode (form : LengthForm) (f : Frame) : Bytes := f.header form ++ f.body

end Frame

/-- The length form and the payload length, from the seven bits and what follows them. -/
def readLength (code : Nat) (r : Bytes) : LengthForm × Nat × Bytes :=
  if code = 126 then (.ext16, beVal (r.take 2), r.drop 2)
  else if code = 127 then (.ext64, beVal (r.take 8), r.drop 8)
  else (.short, code, r)

/-- The masking key, when the mask bit says so. -/
def readKey (masked : Bool) (r : Bytes) : Option (Option MaskKey × Bytes) :=
  if masked then
    if h : (r.take 4).length = 4 then some (some ⟨r.take 4, h⟩, r.drop 4) else none
  else some (none, r)

/-- **The reader**: a frame, the form of its length, and the bytes after it. -/
def decode : Bytes → Option (Frame × LengthForm × Bytes)
  | b₀ :: b₁ :: r =>
    if b₀.toNat / 16 % 8 ≠ 0 then none
    else
      let (form, n, r) := readLength (b₁.toNat % 128) r
      (readKey (128 ≤ b₁.toNat) r).bind fun (mask, r) =>
        if r.length < n then none
        else some (⟨128 ≤ b₀.toNat, ⟨b₀.toNat % 16, Nat.mod_lt _ (by decide)⟩, mask,
          match mask with
          | none => r.take n
          | some key => applyMask key (r.take n)⟩, form, r.drop n)
  | _ => none

section RoundTrip

variable {form : LengthForm} {f : Frame}

theorem LengthForm.fits_minimal {n : Nat} (h : n < 9223372036854775808) :
    (LengthForm.minimal n).Fits n := by
  unfold minimal
  split
  · assumption
  · split
    · assumption
    · exact h

theorem LengthForm.code_lt {n : Nat} (h : form.Fits n) : form.code n < 128 := by
  cases form with
  | short => exact Nat.lt_trans h (by decide)
  | ext16 => exact Nat.lt_of_sub_eq_succ rfl
  | ext64 => exact Nat.lt_of_sub_eq_succ rfl

theorem bitOf_le (b : Bool) (w : Nat) : bitOf b w ≤ w := by
  cases b <;> simp [bitOf]

theorem Frame.first_toNat (f : Frame) : f.first.toNat = bitOf f.fin 128 + f.opcode := by
  have := bitOf_le f.fin 128
  rw [first, UInt8.toNat_ofNat', Nat.mod_eq_of_lt (by omega)]

theorem Frame.second_toNat (h : form.Fits f.payload.length) :
    (f.second form).toNat = bitOf f.mask.isSome 128 + form.code f.payload.length := by
  have h₁ := bitOf_le f.mask.isSome 128
  have h₂ := form.code_lt h
  rw [second, UInt8.toNat_ofNat', Nat.mod_eq_of_lt (by omega)]

theorem readLength_be (h : form.Fits f.payload.length) (r : Bytes) :
    readLength (form.code f.payload.length) (be form.extra f.payload.length ++ r) =
      (form, f.payload.length, r) := by
  unfold readLength
  cases form with
  | short =>
    have h : f.payload.length < 126 := h
    rw [LengthForm.code, if_neg (by omega), if_neg (by omega)]
    rfl
  | ext16 =>
    have h : f.payload.length < 65536 := h
    rw [LengthForm.code, if_pos rfl, LengthForm.extra, List.take_left' (length_be _ _),
      List.drop_left' (length_be _ _), beVal_be_of_lt (by omega)]
  | ext64 =>
    have h : f.payload.length < 9223372036854775808 := h
    rw [LengthForm.code, if_neg (by decide), if_pos rfl, LengthForm.extra,
      List.take_left' (length_be _ _), List.drop_left' (length_be _ _), beVal_be_of_lt (by omega)]

theorem bitOf_mod (b : Bool) (n : Nat) (h : n < 128) : (bitOf b 128 + n) % 128 = n := by
  cases b <;> simp only [bitOf, Bool.false_eq_true, if_true, if_false] <;> omega

theorem le_bitOf (b : Bool) (n : Nat) (h : n < 128) : decide (128 ≤ bitOf b 128 + n) = b := by
  cases b
  · simp only [bitOf, Bool.false_eq_true, if_false, decide_eq_false_iff_not]; omega
  · simp [bitOf]

/-- **Reading undoes writing.** -/
theorem decode_encode (h : form.Fits f.payload.length) (r : Bytes) :
    decode (f.encode form ++ r) = some (f, form, r) := by
  have hop : (f.opcode : Nat) < 128 := Nat.lt_trans f.opcode.isLt (by decide)
  have hcode := form.code_lt h
  have hrsv : ¬ (f.first.toNat / 16 % 8 ≠ 0) := by
    have hlt := f.opcode.isLt
    rw [f.first_toNat]
    cases f.fin <;> simp only [bitOf, Bool.false_eq_true, if_true, if_false] <;> omega
  have hfirst : f.first.toNat % 16 = f.opcode := by
    have hlt := f.opcode.isLt
    rw [f.first_toNat]
    cases f.fin <;> simp only [bitOf, Bool.false_eq_true, if_true, if_false] <;> omega
  have hfin : decide (128 ≤ f.first.toNat) = f.fin := by rw [f.first_toNat, le_bitOf _ _ hop]
  have hmask : decide (128 ≤ (f.second form).toNat) = f.mask.isSome := by
    rw [f.second_toNat h, le_bitOf _ _ hcode]
  have hlen : (f.second form).toNat % 128 = form.code f.payload.length := by
    rw [f.second_toNat h, bitOf_mod _ _ hcode]
  have hop' : (⟨f.first.toNat % 16, Nat.mod_lt _ (by decide)⟩ : Fin 16) = f.opcode :=
    Fin.ext hfirst
  rw [Frame.encode, Frame.header, List.cons_append, List.cons_append, List.cons_append,
    List.cons_append, List.append_assoc, decode, if_neg hrsv, hlen, readLength_be h, hmask]
  obtain ⟨fin, opcode, mask, payload⟩ := f
  cases mask with
  | none =>
    simp only [Frame.body, readKey, Option.isSome_none, Bool.false_eq_true, if_false,
      Option.bind_some, List.length_append]
    rw [if_neg (by omega), List.take_left, List.drop_left, hfin, hop']
  | some key =>
    have hkey : (key.bytes ++ (applyMask key payload ++ r)).take 4 = key.bytes :=
      List.take_left' key.length_eq
    have hrest : (key.bytes ++ (applyMask key payload ++ r)).drop 4 = applyMask key payload ++ r :=
      List.drop_left' key.length_eq
    have hpay := length_applyMask key payload
    simp only [Frame.body, List.append_assoc, readKey, Option.isSome_some, if_true, hkey, hrest,
      key.length_eq, dite_true, Option.bind_some, List.length_append, hpay]
    rw [if_neg (by omega), List.take_left' hpay, List.drop_left' hpay, applyMask_applyMask, hfin,
      hop']

/-- **A masked frame takes its header, four bytes of key and its payload.** -/
theorem length_of_decode {bs r : Bytes} {key : MaskKey} (h : decode bs = some (f, form, r))
    (hkey : f.mask = some key) :
    bs.length = 2 + form.extra + 4 + f.payload.length + r.length := by
  rcases bs with _ | ⟨b₀, _ | ⟨b₁, q⟩⟩
  · cases h
  · cases h
  · rw [decode] at h
    split at h
    · cases h
    · -- what the length takes off, and what is then left for the key
      have hlength : ∀ form n q', readLength (b₁.toNat % 128) q = (form, n, q') → 4 ≤ q'.length →
          q.length = form.extra + q'.length := by
        intro form n q' hread hq'
        unfold readLength at hread
        split at hread
        · cases hread
          rw [List.length_drop] at hq' ⊢
          rw [LengthForm.extra]
          omega
        · split at hread
          · cases hread
            rw [List.length_drop] at hq' ⊢
            rw [LengthForm.extra]
            omega
          · cases hread
            exact (Nat.zero_add _).symm
      cases hread : readLength (b₁.toNat % 128) q with
      | mk form' rest =>
        obtain ⟨n, q'⟩ := rest
        rw [hread] at h
        dsimp only at h
        obtain ⟨⟨mask, q''⟩, hkeyed, h⟩ := Option.bind_eq_some_iff.mp h
        dsimp only at h
        split at h
        · cases h
        · rename_i hn
          have h := Option.some.inj h
          obtain ⟨hf, hrest⟩ := Prod.mk.inj h
          obtain ⟨rfl, rfl⟩ := Prod.mk.inj hrest
          subst hf
          dsimp only at hkey
          subst hkey
          unfold readKey at hkeyed
          split at hkeyed
          · split at hkeyed
            · rename_i h4
              obtain ⟨-, rfl⟩ := Prod.mk.inj (Option.some.inj hkeyed)
              rw [List.length_take] at h4
              rw [List.length_drop] at hn
              rw [List.length_cons, List.length_cons, hlength _ _ _ hread (by omega)]
              simp only [length_applyMask, List.length_take, List.length_drop]
              omega
            · cases hkeyed
          · cases hkeyed

end RoundTrip

end Rastreo.Lib
