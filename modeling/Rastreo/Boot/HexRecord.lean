import Rastreo.Lib.Ram

/-!
# `bootloader_nvm_interface.c`: from hex records to the flash

The records of a command are read one behind the other. The data goes into a page kept in memory
(`buff`), and the page to the flash when it is full, when the next byte belongs to another page, or at
the end-of-file record. The flash is what the operations asked of the NVM controller make of it (`ops`);
they have all ended when the functions return.

* `Nvm.InBank.nvmProgramHexRecord`: whatever the records say, each page that is programmed belongs to
  the bank that is not running.
-/

namespace Rastreo.Boot

open Lib

/-! ## Addresses -/

/-- `PAGE_SIZE`. -/
def pageSize : UInt32 := 2048
/-- `ERASE_BLOCK_SIZE`. -/
def eraseBlockSize : UInt32 := 16384
/-- `INACTIVE_BANK_OFFSET`. -/
def inactiveBankOffset : UInt32 := 0x100000

/-- `APP_START_ADDRESS`, the first address of the bank that is not running. -/
def appStartAddress : UInt32 := 0x9d100000
/-- `FLASH_END_ADDRESS`. -/
def flashEndAddress : UInt32 := 0x9d200000
/-- `UPPER_FLASH_SERIAL_START`. -/
def upperFlashSerialStart : UInt32 := 0x9d1ff800

@[simp] theorem toNat_pageSize : pageSize.toNat = 2048 := rfl

@[simp] theorem toNat_appStartAddress : appStartAddress.toNat = 0x9d100000 := rfl

@[simp] theorem toNat_flashEndAddress : flashEndAddress.toNat = 0x9d200000 := rfl

@[simp] theorem toNat_upperFlashSerialStart : upperFlashSerialStart.toNat = 0x9d1ff800 := rfl

/-- Where an address of the file is put: `PA_TO_KVA0`, and the offset of the other bank. -/
def flashAddress (a : UInt32) : UInt32 := (a ||| 0x80000000) + inactiveBankOffset

/-! ## The NVM controller -/

/-- `NVM_PageErase`, `NVM_RowWrite`, `NVM_QuadWordWrite`. -/
inductive NvmOp
  | pageErase (address : UInt32)
  | rowWrite (data : Bytes) (address : UInt32)
  | quadWordWrite (data : Bytes) (address : UInt32)
  deriving DecidableEq

/-- How many bytes an operation covers; it takes the block of that size that its address is in. -/
def NvmOp.size : NvmOp → Nat
  | .pageErase _ => 16384
  | .rowWrite _ _ => 2048
  | .quadWordWrite _ _ => 16

/-- The address the operation is given. -/
def NvmOp.address : NvmOp → UInt32
  | .pageErase a | .rowWrite _ a | .quadWordWrite _ a => a

/-- The operation changes this address. -/
def NvmOp.Touches (op : NvmOp) (a : Nat) : Prop := a / op.size = op.address.toNat / op.size

instance (op : NvmOp) (a : Nat) : Decidable (op.Touches a) :=
  inferInstanceAs (Decidable (_ = _))

/-- It changes nothing outside the bank that is not running. -/
def NvmOp.InBank (op : NvmOp) : Prop :=
  ∀ a, op.Touches a → appStartAddress.toNat ≤ a ∧ a < flashEndAddress.toNat

/-! ## The code -/

/-- `nvm_data` and `nvmDataInitDone`, what `HexRecordSt` keeps from one record to the next, and the
operations so far. -/
structure Nvm where
  progAddr : UInt32 := appStartAddress
  prevAddr : UInt32 := appStartAddress
  prevLen : UInt32 := 0
  buffIndex : UInt32 := 0
  /-- The first `pageSize` bytes are the array. -/
  buff : Ram := fun _ => 0
  nvmDataInitDone : Bool := false
  recType : UInt8 := 0
  extSegAddress : UInt32 := 0
  extLinAddress : UInt32 := 0
  ops : List NvmOp := []

/-- `bootloader_NvmAppErase`, with a bound on its turns. -/
def eraseLoop (endAddr : UInt32) : Nat → UInt32 → List NvmOp
  | 0, _ => []
  | turns + 1, flashAddr =>
    if flashAddr < endAddr then
      .pageErase flashAddr :: eraseLoop endAddr turns (flashAddr + eraseBlockSize)
    else []

namespace Nvm

variable (s : Nvm)

/-- `bootloader_NvmAppErase`. -/
def nvmAppErase (startAddr endAddr : UInt32) : Nvm :=
  -- there are no more blocks than that in the address space
  { s with ops := s.ops ++ eraseLoop endAddr (2 ^ 18) startAddr }

/-- `memset (buff, 0xFF, PAGE_SIZE)`. -/
abbrev blank : Ram := fun _ => 0xFF

/-- `bootloader_NVMPageWrite` with `nvm_data.buff`. -/
def nvmPageWrite : Nvm :=
  { s with ops := s.ops ++ [.rowWrite (Ram.load s.buff 0 pageSize.toNat) s.progAddr] }

/-- `bootloader_AlignProgAddress`. -/
def alignProgAddress (curAddress : UInt32) : Nvm :=
  let s :=
    if s.buffIndex ≠ 0 then
      let s := { s with buffIndex := 0 }
      { s.nvmPageWrite with buff := blank }
    else s
  { s with progAddr := curAddress - curAddress % pageSize }

/-- A page that is full is programmed. -/
def flushFull (curAddress : UInt32) : Nvm :=
  if s.buffIndex = pageSize then s.alignProgAddress curAddress else s

/-- So is one that the next address is not in. -/
def leave (curAddress : UInt32) : Nvm :=
  if s.buffIndex + (curAddress - (s.prevAddr + s.prevLen)) ≥ pageSize then
    s.alignProgAddress curAddress
  else s

/-- An address that does not come next in the page. -/
def jump (curAddress : UInt32) : Nvm :=
  if s.prevAddr + s.prevLen ≠ curAddress then
    { s.leave curAddress with buffIndex := curAddress % pageSize }
  else s

/-- The page for a piece of data. -/
def makeRoom (curAddress : UInt32) : Nvm := (s.flushFull curAddress).jump curAddress

/-- How much of the data goes into the page. -/
def curDataLen (recDataLen : UInt32) : UInt32 :=
  if s.buffIndex + recDataLen > pageSize then pageSize - s.buffIndex else recDataLen

/-- The first `n` bytes of the data go into the page. -/
def fill (curAddress : UInt32) (data : Bytes) (n : UInt32) : Nvm :=
  { s with
    buff := Ram.store s.buff s.buffIndex.toNat (data.take n.toNat)
    buffIndex := s.buffIndex + n
    prevAddr := curAddress
    prevLen := n }

/-- A data record from `address` on. Each turn takes a byte or more. -/
def dataRecord : Nat → UInt32 → Bytes → Nvm → Nvm
  | 0, _, _, s => s
  | turns + 1, address, data, s =>
    if data = [] then s
    else
      let curAddress := flashAddress address
      if appStartAddress ≤ curAddress ∧ curAddress ≤ upperFlashSerialStart then
        let s := s.makeRoom curAddress
        let n := s.curDataLen (UInt32.ofNat data.length)
        dataRecord turns (address + n) (data.drop n.toNat) (s.fill curAddress data n)
      else dataRecord turns (address + 4) (data.drop 4) s

/-- `END_OF_FILE_RECORD`. -/
def endOfFile : Nvm :=
  let s :=
    if s.buffIndex > 0 then
      { s.nvmPageWrite with
        buffIndex := 0
        prevLen := 0
        progAddr := appStartAddress
        prevAddr := appStartAddress
        buff := blank }
    else s
  { s with extSegAddress := 0, extLinAddress := 0 }

/-- A record whose checksum is right; `HexRecord` is at `p`. -/
def record (mem : Ram) (p : Nat) : Nvm :=
  if mem (p + 3) = 0 then
    s.dataRecord 255 (((mem (p + 1)).toUInt32 <<< 8) + (mem (p + 2)).toUInt32 + s.extLinAddress +
      s.extSegAddress) (Ram.load mem (p + 4) (mem p).toNat)
  else if mem (p + 3) = 2 then
    { s with
      extSegAddress := ((mem (p + 4)).toUInt32 <<< 12) + ((mem (p + 5)).toUInt32 <<< 4)
      extLinAddress := 0 }
  else if mem (p + 3) = 4 then
    { s with
      extLinAddress := ((mem (p + 4)).toUInt32 <<< 24) + ((mem (p + 5)).toUInt32 <<< 16)
      extSegAddress := 0 }
  else if mem (p + 3) = 1 then s.endOfFile
  else { s with extSegAddress := 0, extLinAddress := 0 }

end Nvm

/-- `HEX_RECORD_STATUS`. -/
inductive HexRecordStatus
  | crcError | pgmError | unknowType | normal
  deriving DecidableEq

/-- The record types of the last `if`. -/
def knownType (t : UInt8) : Bool := t = 0 || t = 2 || t = 4 || t = 5 || t = 1

/-- The records from `p` on; `none` when their end is not reached. -/
def hexRecords (mem : Ram) : Nat → Nat → UInt32 → Nvm → Nvm × Option HexRecordStatus
  | 0, _, _, s => (s, none)
  | turns + 1, p, totalLen, s =>
    if totalLen < 5 then (s, some (if knownType s.recType then .normal else .unknowType))
    else
      let next := (mem p).toUInt32 + 5
      let s := { s with recType := mem (p + 3) }
      if (Ram.load mem p next.toNat).foldl (· + ·) 0 ≠ 0 then (s, some .crcError)
      else hexRecords mem turns (p + next.toNat) (totalLen - next) (s.record mem p)

/-- The page is blank before the first record. -/
def Nvm.prepared (s : Nvm) : Nvm :=
  if s.nvmDataInitDone = false then { s with buff := Nvm.blank, nvmDataInitDone := true } else s

/-- `bootloader_NvmProgramHexRecord`, the records at `p`. -/
def nvmProgramHexRecord (mem : Ram) (p : Nat) (totalLen : UInt32) (s : Nvm) :
    Nvm × Option HexRecordStatus :=
  -- with as many records the pointer has left the memory
  hexRecords mem (2 ^ 32) p totalLen s.prepared

/-! ## Nothing outside the bank -/

theorem toNat_pageOf (a : UInt32) : (a - a % pageSize).toNat = a.toNat - a.toNat % 2048 := by
  have hle : a % pageSize ≤ a := UInt32.le_iff_toNat_le.mpr (by
    rw [UInt32.toNat_mod]
    exact Nat.mod_le _ _)
  rw [UInt32.toNat_sub_of_le _ _ hle, UInt32.toNat_mod, toNat_pageSize]

/-- The page the next row goes to, and the rows so far. -/
structure Nvm.InBank (s : Nvm) : Prop where
  paged : s.progAddr.toNat % 2048 = 0
  low : appStartAddress.toNat ≤ s.progAddr.toNat
  high : s.progAddr.toNat ≤ upperFlashSerialStart.toNat
  index : s.buffIndex.toNat ≤ 2048
  ops : ∀ op ∈ s.ops, op.InBank

namespace Nvm

variable {s : Nvm} {curAddress : UInt32} {data : Bytes}

theorem InBank.row (h : s.InBank) : (NvmOp.rowWrite data s.progAddr).InBank := by
  intro a ha
  have hlow := h.low
  have hhigh := h.high
  have hpaged := h.paged
  have ha' : a / 2048 = s.progAddr.toNat / 2048 := ha
  rw [toNat_appStartAddress] at hlow ⊢
  rw [toNat_upperFlashSerialStart] at hhigh
  rw [toNat_flashEndAddress]
  omega

theorem InBank.nvmPageWrite (h : s.InBank) : s.nvmPageWrite.InBank where
  paged := h.paged
  low := h.low
  high := h.high
  index := h.index
  ops := fun op hop => (List.mem_append.mp hop).elim (h.ops op) fun hop => by
    rw [List.mem_singleton.mp hop]
    exact h.row

/-- Nothing but the pages and the operations matters. -/
theorem InBank.congr {t : Nvm} (h : s.InBank) (hprog : t.progAddr = s.progAddr)
    (hindex : t.buffIndex.toNat ≤ 2048) (hops : t.ops = s.ops) : t.InBank where
  paged := hprog ▸ h.paged
  low := hprog ▸ h.low
  high := hprog ▸ h.high
  index := hindex
  ops := hops ▸ h.ops

theorem InBank.alignProgAddress (h : s.InBank) (hlow : appStartAddress ≤ curAddress)
    (hhigh : curAddress ≤ upperFlashSerialStart) : (s.alignProgAddress curAddress).InBank := by
  have hlow' := UInt32.le_iff_toNat_le.mp hlow
  have hhigh' := UInt32.le_iff_toNat_le.mp hhigh
  have hindex := h.index
  have hops : ∀ op ∈ (s.alignProgAddress curAddress).ops, op.InBank := by
    unfold Nvm.alignProgAddress
    dsimp only
    split
    · exact (h.congr (t := { s with buffIndex := 0 }) rfl (Nat.zero_le _) rfl).nvmPageWrite.ops
    · exact h.ops
  refine ⟨?_, ?_, ?_, ?_, hops⟩
  · show (curAddress - curAddress % pageSize).toNat % 2048 = 0
    rw [toNat_pageOf]
    omega
  · show _ ≤ (curAddress - curAddress % pageSize).toNat
    rw [toNat_pageOf]
    rw [toNat_appStartAddress] at hlow' ⊢
    omega
  · show (curAddress - curAddress % pageSize).toNat ≤ _
    rw [toNat_pageOf]
    omega
  · unfold Nvm.alignProgAddress
    dsimp only
    split
    · exact Nat.zero_le _
    · exact hindex

/-- The page has room afterwards. -/
theorem InBank.makeRoom (h : s.InBank) (hlow : appStartAddress ≤ curAddress)
    (hhigh : curAddress ≤ upperFlashSerialStart) :
    (s.makeRoom curAddress).InBank ∧ (s.makeRoom curAddress).buffIndex.toNat < 2048 := by
  have hmod : (curAddress % pageSize).toNat < 2048 := by
    rw [UInt32.toNat_mod]
    exact Nat.mod_lt _ (by decide)
  have hfull : (s.flushFull curAddress).InBank ∧ (s.flushFull curAddress).buffIndex.toNat < 2048 := by
    unfold flushFull
    split
    · rename_i hpage
      refine ⟨h.alignProgAddress hlow hhigh, ?_⟩
      unfold Nvm.alignProgAddress
      dsimp only
      rw [if_pos (by rw [hpage]; decide)]
      exact Nat.zero_lt_succ _
    · rename_i hpage
      refine ⟨h, lt_of_le_of_ne h.index fun heq => hpage ?_⟩
      exact UInt32.toNat_inj.mp heq
  have hleave : ((s.flushFull curAddress).leave curAddress).InBank := by
    unfold leave
    split
    · exact hfull.1.alignProgAddress hlow hhigh
    · exact hfull.1
  unfold Nvm.makeRoom jump
  split
  · exact ⟨hleave.congr rfl hmod.le rfl, hmod⟩
  · exact hfull

theorem InBank.fill (h : s.InBank) (hlt : s.buffIndex.toNat < 2048) (hdata : data.length < 256) :
    (s.fill curAddress data (s.curDataLen (UInt32.ofNat data.length))).InBank := by
  have hlen : (UInt32.ofNat data.length).toNat = data.length :=
    UInt32.toNat_ofNat_of_lt' (hdata.trans (by decide))
  refine h.congr rfl ?_ rfl
  show (s.buffIndex + s.curDataLen _).toNat ≤ 2048
  unfold Nvm.curDataLen
  split
  · rename_i hgt
    have hle : s.buffIndex ≤ pageSize := UInt32.le_iff_toNat_le.mpr hlt.le
    rw [UInt32.add_comm, UInt32.sub_add_cancel]
    rfl
  · rename_i hgt
    have hle := UInt32.le_iff_toNat_le.mp (UInt32.not_lt.mp hgt)
    exact hle

/-- **A data record keeps to the bank**, whatever its address. -/
theorem InBank.dataRecord (turns : Nat) (address : UInt32) (h : s.InBank) (hdata : data.length < 256) :
    (s.dataRecord turns address data).InBank := by
  induction turns generalizing s address data with
  | zero => exact h
  | succ turns ih =>
    have hdrop : ∀ n, (data.drop n).length < 256 := by
      intro n
      rw [List.length_drop]
      omega
    unfold Nvm.dataRecord
    dsimp only
    split
    · exact h
    · split
      · rename_i hin
        obtain ⟨hbank, hroom⟩ := h.makeRoom hin.1 hin.2
        exact ih _ (hbank.fill hroom hdata) (hdrop _)
      · exact ih _ h (hdrop _)

theorem InBank.endOfFile (h : s.InBank) : s.endOfFile.InBank := by
  unfold Nvm.endOfFile
  dsimp only
  split
  · have hpaged : appStartAddress.toNat % 2048 = 0 := by decide
    have hhigh : appStartAddress.toNat ≤ upperFlashSerialStart.toNat := by decide
    exact ⟨hpaged, le_rfl, hhigh, Nat.zero_le _, h.nvmPageWrite.ops⟩
  · exact h.congr rfl h.index rfl

theorem InBank.record (h : s.InBank) (mem : Ram) (p : Nat) : (s.record mem p).InBank := by
  unfold Nvm.record
  split
  · exact h.dataRecord _ _ (by rw [Ram.length_load]; exact (mem p).toNat_lt)
  · split
    · exact h.congr rfl h.index rfl
    · split
      · exact h.congr rfl h.index rfl
      · split
        · exact h.endOfFile
        · exact h.congr rfl h.index rfl

theorem InBank.hexRecords (h : s.InBank) (mem : Ram) (turns p : Nat) (totalLen : UInt32) :
    (Boot.hexRecords mem turns p totalLen s).1.InBank := by
  induction turns generalizing s p totalLen with
  | zero => exact h
  | succ turns ih =>
    have htype : Nvm.InBank { s with recType := mem (p + 3) } := h.congr rfl h.index rfl
    unfold Boot.hexRecords
    dsimp only
    split
    · exact h
    · split
      · exact htype
      · exact ih (htype.record mem p) _ _

theorem InBank.prepared (h : s.InBank) : s.prepared.InBank := by
  unfold Nvm.prepared
  split
  · exact h.congr rfl h.index rfl
  · exact h

/-- **The records of a command, whatever they are, program the bank that is not running.** -/
theorem InBank.nvmProgramHexRecord (h : s.InBank) (mem : Ram) (p : Nat) (totalLen : UInt32) :
    (Boot.nvmProgramHexRecord mem p totalLen s).1.InBank :=
  h.prepared.hexRecords mem _ p totalLen

/-- The blocks from `a` on. -/
theorem inBank_eraseLoop (turns : Nat) {a : UInt32} (ha : appStartAddress.toNat ≤ a.toNat)
    (hblock : a.toNat % 16384 = 0) : ∀ op ∈ eraseLoop flashEndAddress turns a, op.InBank := by
  induction turns generalizing a with
  | zero => exact fun op hop => (List.not_mem_nil hop).elim
  | succ turns ih =>
    unfold eraseLoop
    split
    · rename_i hlt
      have hend := UInt32.lt_iff_toNat_lt.mp hlt
      have hnext : (a + eraseBlockSize).toNat = a.toNat + 16384 := by
        rw [toNat_flashEndAddress] at hend
        rw [UInt32.toNat_add]
        exact Nat.mod_eq_of_lt (by
          show a.toNat + 16384 < 2 ^ 32
          omega)
      refine List.forall_mem_cons.mpr ⟨fun b hb => ?_, ih (by omega) (by omega)⟩
      have hb' : b / 16384 = a.toNat / 16384 := hb
      rw [toNat_appStartAddress] at ha ⊢
      rw [toNat_flashEndAddress] at hend ⊢
      omega
    · exact fun op hop => (List.not_mem_nil hop).elim

/-- **So does the erasing.** -/
theorem InBank.nvmAppErase (h : s.InBank) :
    (s.nvmAppErase appStartAddress flashEndAddress).InBank where
  paged := h.paged
  low := h.low
  high := h.high
  index := h.index
  ops := fun op hop => (List.mem_append.mp hop).elim (h.ops op)
    (inBank_eraseLoop _ le_rfl (by decide) op)

theorem inBank_init : ({} : Nvm).InBank :=
  ⟨by decide, le_rfl, by decide, by decide, fun _ hop => (List.not_mem_nil hop).elim⟩

end Nvm

end Rastreo.Boot
