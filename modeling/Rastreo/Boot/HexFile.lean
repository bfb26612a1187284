import Rastreo.Boot.HexRecord

/-!
# Hex files

The records as a host has them, and their bytes in a command.

* **`nvmProgramHexRecord_bytes`**: a row of records one behind the other is read record by record, to
  its end, and answered with `HEX_REC_NORMAL`.
* `nvmProgramHexRecord_crcError`: one with a wrong checksum among them is not.
-/

namespace Rastreo.Boot

open Lib

/-- A record: what there is at an address, or what the addresses that follow are added to. -/
inductive HexRecord
  | data (address : UInt16) (bytes : Bytes)
  | endOfFile
  | extSegment (segment : UInt16)
  | extLinear (upper : UInt16)
  | startLinear (entry : UInt16) (offset : UInt16)
  deriving DecidableEq

/-- A 16-bit number, the high byte first. -/
def word (a : UInt16) : Bytes := [(a >>> 8).toUInt8, a.toUInt8]

namespace HexRecord

/-- The type byte. -/
def type : HexRecord → UInt8
  | data .. => 0
  | endOfFile => 1
  | extSegment _ => 2
  | extLinear _ => 4
  | startLinear .. => 5

/-- The address field; 0 in a record that has none. -/
def address : HexRecord → UInt16
  | data a _ => a
  | _ => 0

/-- The data field. -/
def payload : HexRecord → Bytes
  | data _ bytes => bytes
  | endOfFile => []
  | extSegment a | extLinear a => word a
  | startLinear a b => word a ++ word b

/-- The length fits its byte. -/
def Fits (r : HexRecord) : Prop := r.payload.length < 256

instance (r : HexRecord) : Decidable r.Fits := inferInstanceAs (Decidable (_ < _))

/-- What the checksum is taken of: length, address, type and data. -/
def head (r : HexRecord) : Bytes :=
  UInt8.ofNat r.payload.length :: word r.address ++ r.type :: r.payload

/-- The record with its checksum. -/
def bytes (r : HexRecord) : Bytes := r.head ++ [0 - r.head.foldl (· + ·) 0]

/-- What `bootloader_NvmProgramHexRecord` does with it. -/
def apply (s : Nvm) (r : HexRecord) : Nvm :=
  let s := { s with recType := r.type }
  match r with
  | data a d => s.dataRecord 255 (a.toUInt32 + s.extLinAddress + s.extSegAddress) d
  | endOfFile => s.endOfFile
  | extSegment a => { s with extSegAddress := a.toUInt32 <<< 4, extLinAddress := 0 }
  | extLinear a => { s with extLinAddress := a.toUInt32 <<< 16, extSegAddress := 0 }
  | startLinear .. => { s with extSegAddress := 0, extLinAddress := 0 }

theorem length_bytes (r : HexRecord) : r.bytes.length = r.payload.length + 5 := by
  unfold bytes head word
  simp only [List.length_append, List.length_cons, List.length_nil]
  omega

/-- The checksum: the bytes of a record add up to nothing. -/
theorem sum_bytes (r : HexRecord) : r.bytes.foldl (· + ·) 0 = 0 := by
  unfold bytes
  rw [List.foldl_append, List.foldl_cons, List.foldl_nil]
  generalize r.head.foldl (· + ·) 0 = c
  rw [UInt8.zero_sub, UInt8.add_right_neg]

theorem knownType_type (r : HexRecord) : knownType r.type = true := by
  cases r <;> rfl

/-! ## A record in memory -/

variable {r : HexRecord} {mem : Ram} {p : Nat}

/-- The bytes of the record are at `p`. -/
def At (mem : Ram) (p : Nat) (r : HexRecord) : Prop := Ram.load mem p r.bytes.length = r.bytes

theorem At.fields (h : r.At mem p) : mem p = UInt8.ofNat r.payload.length ∧
    [mem (p + 1), mem (p + 2)] = word r.address ∧ mem (p + 3) = r.type ∧
    Ram.load mem (p + 4) r.payload.length = r.payload := by
  unfold At at h
  rw [length_bytes, Ram.load_succ, Ram.load_succ, Ram.load_succ, Ram.load_succ, Ram.load_append] at h
  unfold bytes head word at h
  simp only [List.cons_append, List.nil_append, List.cons.injEq] at h
  obtain ⟨hlen, hhigh, hlow, htype, hrest⟩ := h
  refine ⟨hlen, ?_, htype, (List.append_inj hrest Ram.length_load).1⟩
  unfold word
  rw [← hhigh, ← hlow]

theorem At.length (h : r.At mem p) (hfits : r.Fits) : (mem p).toNat = r.payload.length := by
  rw [h.fields.1]
  exact Nat.mod_eq_of_lt hfits

/-- Two bytes, read as the code reads them: high byte first, moved up. -/
theorem word_moved (a : UInt16) :
    ((a >>> 8).toUInt8.toUInt32 <<< 8) + a.toUInt8.toUInt32 = a.toUInt32 ∧
    ((a >>> 8).toUInt8.toUInt32 <<< 12) + (a.toUInt8.toUInt32 <<< 4) = a.toUInt32 <<< 4 ∧
    ((a >>> 8).toUInt8.toUInt32 <<< 24) + (a.toUInt8.toUInt32 <<< 16) = a.toUInt32 <<< 16 := by
  have ha := a.toNat_lt
  refine ⟨?_, ?_, ?_⟩
  all_goals
    refine UInt32.toNat_inj.mp ?_
    simp only [UInt32.toNat_add, UInt32.toNat_shiftLeft, UInt8.toNat_toUInt32, UInt16.toNat_toUInt8,
      UInt16.toNat_toUInt32, UInt16.toNat_shiftRight, UInt32.reduceToNat, UInt16.reduceToNat,
      Nat.shiftLeft_eq, Nat.shiftRight_eq_div_pow, Nat.reducePow, Nat.reduceMod]
    omega

/-- **A record in memory is read as what it says.** -/
theorem record_at (h : r.At mem p) (hfits : r.Fits) (s : Nvm) :
    Nvm.record { s with recType := mem (p + 3) } mem p = r.apply s := by
  obtain ⟨-, haddr, htype, hdata⟩ := h.fields
  unfold Nvm.record
  dsimp only
  cases r with
  | data a d =>
    rw [show mem (p + 3) = 0 from htype]
    obtain ⟨h₁, h₂⟩ := List.cons.inj haddr
    have hd : Ram.load mem (p + 4) (mem p).toNat = d := by
      rw [h.length hfits]
      exact hdata
    rw [if_pos rfl, hd, h₁, (List.cons.inj h₂).1]
    dsimp only [address, apply]
    rw [(word_moved a).1, show (data a d).type = 0 from rfl]
  | endOfFile =>
    rw [show mem (p + 3) = 1 from htype]
    rw [if_neg (by decide), if_neg (by decide), if_neg (by decide), if_pos rfl]
    rfl
  | extSegment a =>
    rw [show mem (p + 3) = 2 from htype]
    obtain ⟨h₁, h₂⟩ := List.cons.inj (show [mem (p + 4), mem (p + 5)] = word a from hdata)
    rw [if_neg (by decide), if_pos rfl, h₁, (List.cons.inj h₂).1, (word_moved a).2.1]
    rfl
  | extLinear a =>
    rw [show mem (p + 3) = 4 from htype]
    obtain ⟨h₁, h₂⟩ := List.cons.inj (show [mem (p + 4), mem (p + 5)] = word a from hdata)
    rw [if_neg (by decide), if_neg (by decide), if_pos rfl, h₁, (List.cons.inj h₂).1,
      (word_moved a).2.2]
    rfl
  | startLinear a b =>
    rw [show mem (p + 3) = 5 from htype]
    rw [if_neg (by decide), if_neg (by decide), if_neg (by decide), if_neg (by decide)]
    rfl

end HexRecord

/-! ## A row of records -/

section Records

variable {s : Nvm} {mem : Ram} {p : Nat} {r : HexRecord} {rs : List HexRecord}

/-- What a data record leaves alone. -/
def Nvm.kept (s : Nvm) : UInt8 × UInt32 × UInt32 × Bool :=
  (s.recType, s.extSegAddress, s.extLinAddress, s.nvmDataInitDone)

theorem Nvm.kept_alignProgAddress (s : Nvm) (a : UInt32) : (s.alignProgAddress a).kept = s.kept := by
  unfold alignProgAddress
  dsimp only
  split <;> rfl

theorem Nvm.kept_leave (s : Nvm) (a : UInt32) : (s.leave a).kept = s.kept := by
  unfold leave
  split
  · exact kept_alignProgAddress s a
  · rfl

theorem Nvm.kept_jump (s : Nvm) (a : UInt32) : (s.jump a).kept = s.kept := by
  unfold jump
  split
  · exact kept_leave s a
  · rfl

theorem Nvm.kept_makeRoom (s : Nvm) (a : UInt32) : (s.makeRoom a).kept = s.kept := by
  unfold makeRoom
  rw [kept_jump]
  unfold flushFull
  split
  · exact kept_alignProgAddress s a
  · rfl

theorem Nvm.kept_fill (s : Nvm) (a : UInt32) (d : Bytes) (n : UInt32) :
    (s.fill a d n).kept = s.kept := rfl

theorem Nvm.kept_dataRecord (turns : Nat) (a : UInt32) (d : Bytes) (s : Nvm) :
    (s.dataRecord turns a d).kept = s.kept := by
  induction turns generalizing s a d with
  | zero => rfl
  | succ turns ih =>
    unfold dataRecord
    dsimp only
    split
    · rfl
    · split
      · rw [ih, kept_fill, kept_makeRoom]
      · rw [ih]

theorem Nvm.ext_dataRecord (turns : Nat) (a : UInt32) (d : Bytes) (s : Nvm) :
    (s.dataRecord turns a d).extSegAddress = s.extSegAddress ∧
      (s.dataRecord turns a d).extLinAddress = s.extLinAddress := by
  have h := kept_dataRecord turns a d s
  unfold kept at h
  simp only [Prod.mk.injEq] at h
  exact ⟨h.2.1, h.2.2.1⟩

theorem HexRecord.recType_apply (s : Nvm) (r : HexRecord) : (r.apply s).recType = r.type := by
  cases r with
  | data a d => exact congrArg Prod.fst (Nvm.kept_dataRecord _ _ d _)
  | endOfFile =>
    unfold HexRecord.apply Nvm.endOfFile
    dsimp only
    split <;> rfl
  | extSegment a => rfl
  | extLinear a => rfl
  | startLinear a b => rfl

/-- The bytes of the records. -/
def recordsBytes (rs : List HexRecord) : Bytes := rs.flatMap HexRecord.bytes

/-- One turn, for a record. -/
theorem hexRecords_cons {r : HexRecord} (hr : r.Fits) (hat : r.At mem p) {totalLen : UInt32}
    (hlen : r.bytes.length ≤ totalLen.toNat) (turns : Nat) (s : Nvm) :
    hexRecords mem (turns + 1) p totalLen s =
      hexRecords mem turns (p + r.bytes.length) (totalLen - UInt32.ofNat r.bytes.length) (r.apply s) := by
  have hpay := hat.length hr
  have hbytes := r.length_bytes
  have hnext : ((mem p).toUInt32 + 5).toNat = r.bytes.length := by
    have hlt := (mem p).toNat_lt
    rw [UInt32.toNat_add, UInt8.toNat_toUInt32, hbytes, ← hpay]
    exact Nat.mod_eq_of_lt (by
      show (mem p).toNat + 5 < 2 ^ 32
      omega)
  have hge : ¬ totalLen < 5 := fun h => by
    have hlt := UInt32.lt_iff_toNat_lt.mp h
    exact absurd hlt (by
      show ¬ totalLen.toNat < 5
      omega)
  have hsum : ¬ (Ram.load mem p ((mem p).toUInt32 + 5).toNat).foldl (· + ·) 0 ≠ 0 := by
    rw [hnext, show Ram.load mem p r.bytes.length = r.bytes from hat, r.sum_bytes]
    exact not_not.mpr rfl
  have hofNat : (mem p).toUInt32 + 5 = UInt32.ofNat r.bytes.length := by
    rw [← hnext, UInt32.ofNat_toNat]
  generalize hrest : hexRecords mem turns (p + r.bytes.length) _ _ = t
  unfold hexRecords
  dsimp only
  rw [if_neg hge, if_neg hsum, HexRecord.record_at hat hr, hnext, hofNat]
  exact hrest

/-- The records, and what comes behind them. -/
theorem hexRecords_append (hfits : ∀ r ∈ rs, r.Fits) {totalLen : UInt32}
    (hmem : Ram.load mem p (recordsBytes rs).length = recordsBytes rs)
    (hlen : (recordsBytes rs).length ≤ totalLen.toNat) (turns : Nat) :
    hexRecords mem (turns + rs.length) p totalLen s =
      hexRecords mem turns (p + (recordsBytes rs).length)
        (totalLen - UInt32.ofNat (recordsBytes rs).length) (rs.foldl HexRecord.apply s) := by
  induction rs generalizing s p totalLen with
  | nil => exact congrArg (hexRecords mem turns p · s) (UInt32.sub_zero totalLen).symm
  | cons r rs ih =>
    have hsplit : recordsBytes (r :: rs) = r.bytes ++ recordsBytes rs := List.flatMap_cons
    rw [hsplit, List.length_append] at hlen hmem ⊢
    rw [Ram.load_append] at hmem
    obtain ⟨hat, hrest⟩ := List.append_inj hmem Ram.length_load
    have htotal := totalLen.toNat_lt
    have hofNat : (UInt32.ofNat r.bytes.length).toNat = r.bytes.length :=
      UInt32.toNat_ofNat_of_lt' (show _ < 2 ^ 32 by omega)
    have hsub : (totalLen - UInt32.ofNat r.bytes.length).toNat = totalLen.toNat - r.bytes.length := by
      rw [UInt32.toNat_sub_of_le _ _ (UInt32.le_iff_toNat_le.mpr (by omega)), hofNat]
    have hsubs : totalLen - UInt32.ofNat r.bytes.length - UInt32.ofNat (recordsBytes rs).length =
        totalLen - (UInt32.ofNat r.bytes.length + UInt32.ofNat (recordsBytes rs).length) := by
      grind
    rw [List.length_cons, ← Nat.add_assoc, hexRecords_cons (hfits r List.mem_cons_self) hat (by omega),
      ih (fun r' h => hfits r' (List.mem_cons_of_mem r h)) hrest (by omega), List.foldl_cons,
      UInt32.ofNat_add, Nat.add_assoc, hsubs]

theorem knownType_foldl (hne : rs ≠ []) (s : Nvm) :
    knownType (rs.foldl HexRecord.apply s).recType = true := by
  obtain ⟨front, r, rfl⟩ := (List.eq_nil_or_concat rs).resolve_left hne
  rw [List.concat_eq_append, List.foldl_append, List.foldl_cons, List.foldl_nil,
    HexRecord.recType_apply, HexRecord.knownType_type]

/-- Each record takes a turn. -/
theorem length_le_recordsBytes (rs : List HexRecord) : rs.length ≤ (recordsBytes rs).length := by
  unfold recordsBytes
  rw [List.length_flatMap]
  have hmap : rs.length = (rs.map fun r => r.bytes.length).length :=
    (List.length_map _).symm
  refine hmap.trans_le (List.length_le_sum_of_one_le _ fun n hn => ?_)
  obtain ⟨r, -, rfl⟩ := List.mem_map.mp hn
  rw [r.length_bytes]
  omega

/-- **A row of records is read record by record.** -/
theorem nvmProgramHexRecord_bytes (hfits : ∀ r ∈ rs, r.Fits) (hne : rs ≠ [])
    {totalLen : UInt32} (hmem : Ram.load mem p (recordsBytes rs).length = recordsBytes rs)
    (hlen : totalLen.toNat = (recordsBytes rs).length) :
    nvmProgramHexRecord mem p totalLen s = (rs.foldl HexRecord.apply s.prepared, some .normal) := by
  have hcount := length_le_recordsBytes rs
  have htotal := totalLen.toNat_lt
  obtain ⟨turns, hturns⟩ := Nat.exists_eq_add_of_lt (show rs.length < 2 ^ 32 by omega)
  have hdone : totalLen - UInt32.ofNat (recordsBytes rs).length < 5 := by
    rw [← hlen, UInt32.ofNat_toNat, UInt32.sub_self]
    decide
  unfold nvmProgramHexRecord
  rw [hturns, show rs.length + turns + 1 = turns + 1 + rs.length by omega,
    hexRecords_append hfits hmem hlen.ge]
  unfold hexRecords
  rw [if_pos hdone, if_pos (knownType_foldl hne _)]

/-- A record whose bytes do not add up to nothing ends the row. -/
theorem nvmProgramHexRecord_crcError (hfits : ∀ r ∈ rs, r.Fits) {n : UInt8} {bad : Bytes}
    (hbad : (n :: bad).length = n.toNat + 5) (hsum : (n :: bad).foldl (· + ·) 0 ≠ 0)
    {totalLen : UInt32} {w : Bytes} (hw : w = recordsBytes rs ++ n :: bad)
    (hmem : Ram.load mem p w.length = w) (hlen : w.length ≤ totalLen.toNat) :
    (nvmProgramHexRecord mem p totalLen s).2 = some .crcError := by
  have hcount := length_le_recordsBytes rs
  have htotal := totalLen.toNat_lt
  rw [hw, List.length_append] at hlen hmem
  rw [Ram.load_append] at hmem
  obtain ⟨hrecords, hrest⟩ := List.append_inj hmem Ram.length_load
  obtain ⟨turns, hturns⟩ := Nat.exists_eq_add_of_lt (show rs.length < 2 ^ 32 by omega)
  have hofNat : (UInt32.ofNat (recordsBytes rs).length).toNat = (recordsBytes rs).length :=
    UInt32.toNat_ofNat_of_lt' (show _ < 2 ^ 32 by omega)
  have hleft : (totalLen - UInt32.ofNat (recordsBytes rs).length).toNat =
      totalLen.toNat - (recordsBytes rs).length := by
    rw [UInt32.toNat_sub_of_le _ _ (UInt32.le_iff_toNat_le.mpr (by omega)), hofNat]
  have hge : ¬ totalLen - UInt32.ofNat (recordsBytes rs).length < 5 := fun h => by
    have hlt := UInt32.lt_iff_toNat_lt.mp h
    rw [hleft] at hlt
    exact absurd hlt (by
      show ¬ _ < 5
      omega)
  have hfirst : mem (p + (recordsBytes rs).length) = n := by
    rw [List.length_cons, Ram.load_succ] at hrest
    exact (List.cons.inj hrest).1
  have hnext : ((mem (p + (recordsBytes rs).length)).toUInt32 + 5).toNat = (n :: bad).length := by
    have hlt := n.toNat_lt
    rw [hfirst, UInt32.toNat_add, UInt8.toNat_toUInt32, hbad]
    exact Nat.mod_eq_of_lt (by
      show n.toNat + 5 < 2 ^ 32
      omega)
  unfold nvmProgramHexRecord
  rw [hturns, show rs.length + turns + 1 = turns + 1 + rs.length by omega,
    hexRecords_append hfits hrecords (by omega)]
  unfold hexRecords
  dsimp only
  rw [if_neg hge, hnext, hrest, if_pos hsum]

end Records

end Rastreo.Boot
