import Rastreo.Lib.Chain
import Rastreo.Lib.CString
import Rastreo.Lib.Run

/-!
# The flash memories (`drv_sst26.c`)

Two SST26 memories share the SQI peripheral. An operation writes its command to `sqi_cmd`, links
descriptors of the static arrays `sqiCmdDesc` and `sqiBufDesc`, and hands the first to
`SQI1_DMATransfer`; the interrupt at the end of the transfer sets `isTransferDone`.

* `desc` is the memory of both arrays, by reference. A physical address stands for its object
  (`KVA_TO_PA`), and an address of the caller's is a number.
* `BdCtrl` keeps the operands that `bd_ctrl` is made of; `BdCtrl.word` is the value stored, from
  which the peripheral reads.
* `inFlight` and `started` are the peripheral's: the transfers it has not completed, and all it has
  been handed, with what stood in memory then.
* A loop that waits for `isTransferDone` ends with the next interrupt (`awaitTransfer`).
* `curOpType`, `bd_stat`, the geometry and the security ID are left out, which nothing here reads.
-/

namespace Rastreo.Drv

open Rastreo.Lib

/-! ## Descriptors -/

/-- `SQI_BDCTRL_PKTINTEN`. -/
def sqiPktIntEn : UInt32 := 0x00020000

/-- `SQI_BDCTRL_LASTPKT`. -/
def sqiLastPkt : UInt32 := 0x00040000

/-- `SQI_BDCTRL_LASTBD`. -/
def sqiLastBd : UInt32 := 0x00080000

/-- `SQI_BDCTRL_DIR_READ`. -/
def sqiDirRead : UInt32 := 0x00100000

/-- `DRV_SQI_LANE_MODE`, which is `SQI_BDCTRL_MODE_QUAD_LANE`. -/
def sqiLaneMode : UInt32 := 0x00800000

/-- `SQI_BDCTRL_SCHECK`. -/
def sqiScheck : UInt32 := 0x08000000

/-- `SQI_BDCTRL_SQICS_CS0`. -/
def sqiCs0 : UInt32 := 0x00000000

/-- `SQI_BDCTRL_SQICS_CS1`. -/
def sqiCs1 : UInt32 := 0x10000000

/-- `SQI_BDCTRL_DEASSERT`. -/
def sqiDeassert : UInt32 := 0x40000000

/-- `SQI_BDCTRL_DESCEN`. -/
def sqiDescEn : UInt32 := 0x80000000

/-- `SQI_INVALID_CS_VALUE`. -/
def sqiInvalidCsValue : UInt32 := 0xAA

/-- The bits of a control word below `SQI_BDCTRL_BDDONEINTIEN`, which are the length. -/
def bufflenMask : UInt32 := 0x0000FFFF

/-- The bits of a control word from `SQI_BDCTRL_SQICS_CS1` to `SQI_BDCTRL_DEASSERT`, which are the
chip select. -/
def sqicsMask : UInt32 := 0x30000000

/-- The operands of `bd_ctrl`: `SQI_BDCTRL_BUFFLEN_VAL`, the flags and the chip select. -/
structure BdCtrl where
  bufflen : UInt32
  flags : UInt32
  cs : UInt32
  deriving DecidableEq, Repr

/-- The value of `bd_ctrl`. -/
def BdCtrl.word (c : BdCtrl) : UInt32 := c.bufflen ||| c.flags ||| c.cs

/-- The length the peripheral reads. -/
def BdCtrl.length (c : BdCtrl) : ℕ := (c.word &&& bufflenMask).toNat

/-- The chip select the peripheral reads. -/
def BdCtrl.sqics (c : BdCtrl) : UInt32 := c.word &&& sqicsMask

/-- Whether the descriptor receives. -/
def BdCtrl.receives (c : BdCtrl) : Bool := c.word &&& sqiDirRead ≠ 0

/-- What `bd_bufaddr` can point to. -/
inductive BufAddr
  | sqiCmd
  | sqiCmdWren
  | statusRegVal
  | jedecID
  | securityID
  | caller (address : ℕ)
  deriving DecidableEq, Repr

/-- An element of `sqiCmdDesc` or of `sqiBufDesc`. -/
inductive DescRef
  | cmd (i : ℕ)
  | buf (i : ℕ)
  deriving DecidableEq, Repr

/-- `sqi_dma_desc_t`. -/
structure SqiDesc where
  bdCtrl : BdCtrl
  bdBufaddr : Option BufAddr
  bdNxtptr : Option DescRef
  deriving DecidableEq, Repr

/-- `CMD_DESC_NUMBER`. -/
def cmdDescNumber : ℕ := 5

/-- `BUFF_DESC_NUMBER`. -/
def buffDescNumber : ℕ := 32

/-! ## Data -/

/-- `t_JEDEC`. -/
structure Jedec where
  id : UInt8
  minorRevisionNumber : UInt8
  majorRevisionNumber : UInt8
  tableLength : UInt8
  deriving DecidableEq, Repr

/-- `HANDLE_DATA`. -/
structure HandleData where
  opened : Bool
  cs : UInt32
  jedecId : Jedec
  deriving DecidableEq, Repr

/-- The values of `SYS_STATUS` that `status` takes. -/
inductive SysStatus
  | uninitialized
  | ready
  deriving DecidableEq, Repr

/-- A chain handed to the peripheral for a device. -/
structure Started where
  device : ℕ
  /-- The transfers not completed at that moment. -/
  pending : ℕ
  descs : List SqiDesc
  sqiCmd : Bytes
  deriving DecidableEq, Repr

/-- `DRV_SST26_DATA`, the static buffers and the peripheral. -/
structure Sst26 where
  initialized : Bool
  isTransferDone : Bool
  status : SysStatus
  /-- `handle[DRV_SST26_MAX_HANDLES]`. -/
  handle : ℕ → HandleData
  desc : DescRef → SqiDesc
  sqiCmd : Bytes
  sqiCmdWren : UInt8
  inFlight : ℕ
  /-- The chains started, latest first. -/
  started : List Started

/-- `DRV_SST26_MAX_HANDLES`. -/
def maxHandles : ℕ := 2

/-- The static variables at reset. -/
def sst26Zero : Sst26 where
  initialized := false
  isTransferDone := false
  status := .uninitialized
  handle := fun _ => ⟨false, 0, ⟨0, 0, 0, 0⟩⟩
  desc := fun _ => ⟨⟨0, 0, 0⟩, none, none⟩
  sqiCmd := List.replicate 7 0
  sqiCmdWren := 0
  inFlight := 0
  started := []

/-! ## The peripheral -/

/-- `SQI1_DMATransfer`. -/
def dmaTransfer (device : ℕ) (r : DescRef) (d : Sst26) : Sst26 :=
  { d with
    inFlight := d.inFlight + 1
    started :=
      { device
        pending := d.inFlight
        descs := follow SqiDesc.bdNxtptr d.desc (cmdDescNumber + buffDescNumber) (some r)
        sqiCmd := d.sqiCmd } :: d.started }

/-- `SQI1_InterruptHandler` at the end of a transfer, which calls `event_handler`. -/
def sqiInterrupt (d : Sst26) : Sst26 :=
  { d with inFlight := d.inFlight - 1, isTransferDone := true }

/-- `while (drvData.isTransferDone == false)`. -/
def awaitTransfer (d : Sst26) : Sst26 := if d.isTransferDone = false then sqiInterrupt d else d

/-! ## Low-level operations -/

/-- The first bytes of `sqi_cmd` are written. -/
def putCmd (bs : Bytes) (d : Sst26) : Sst26 :=
  { d with sqiCmd := bs ++ d.sqiCmd.drop bs.length }

/-- A descriptor is written. -/
def putDesc (r : DescRef) (x : SqiDesc) (d : Sst26) : Sst26 :=
  { d with desc := Function.update d.desc r x }

/-- `drvData.isTransferDone = false`, before a chain is handed over. -/
def startTransfer (d : Sst26) : Sst26 := { d with isTransferDone := false }

/-- A handle is written. -/
def putHandle (h : ℕ) (x : HandleData) (d : Sst26) : Sst26 :=
  { d with handle := Function.update d.handle h x }

/-- `init_handle_data`. -/
def initHandleData : HandleData := ⟨false, sqiInvalidCsValue, ⟨0, 0, 0, 0⟩⟩

/-- The command descriptor of an operation without data. -/
def cmdDesc (bufflen flags cs : UInt32) (next : Option DescRef) : SqiDesc :=
  ⟨⟨bufflen, flags, cs⟩, some .sqiCmd, next⟩

/-- The flags of a descriptor that ends its chain. -/
def sqiEnd : UInt32 := sqiPktIntEn ||| sqiLastPkt ||| sqiLastBd ||| sqiDeassert ||| sqiDescEn

/-- `reset_flash`. -/
def resetFlash (h : ℕ) (d : Sst26) : Sst26 :=
  let d := putCmd [0x66] (startTransfer d)
  let d := putDesc (.cmd 0) (cmdDesc 1 sqiEnd (d.handle h).cs none) d
  let d := startTransfer (awaitTransfer (dmaTransfer h (.cmd 0) d))
  let d := putCmd [0x99] d
  let d := putDesc (.cmd 1) (cmdDesc 1 sqiEnd (d.handle h).cs none) d
  awaitTransfer (dmaTransfer h (.cmd 1) d)

/-- `enable_quad_io`. -/
def enableQuadIo (h : ℕ) (d : Sst26) : Sst26 :=
  let d := putCmd [0x38] (startTransfer d)
  let d := putDesc (.cmd 0) (cmdDesc 1 sqiEnd (d.handle h).cs none) d
  awaitTransfer (dmaTransfer h (.cmd 0) d)

/-- The descriptor of the write enable command. -/
def wrenDesc (cs : UInt32) : SqiDesc :=
  ⟨⟨1, sqiLaneMode ||| sqiDeassert ||| sqiDescEn, cs⟩, some .sqiCmdWren, some (.cmd 1)⟩

/-- `enable_write`. -/
def enableWrite (h : ℕ) (d : Sst26) : Sst26 :=
  putDesc (.cmd 0) (wrenDesc (d.handle h).cs) { d with sqiCmdWren := 0x06 }

/-- `unlock_flash`. -/
def unlockFlash (h : ℕ) (d : Sst26) : Sst26 :=
  let d := enableWrite h (startTransfer d)
  let d := putCmd [0x98] d
  let d := putDesc (.cmd 1) (cmdDesc 1 (sqiEnd ||| sqiLaneMode) (d.handle h).cs none) d
  awaitTransfer (dmaTransfer h (.cmd 0) d)

/-- `erase`, with the instruction in `sqi_cmd`. -/
def erase (h : ℕ) (length : UInt32) (d : Sst26) : Sst26 :=
  let d := enableWrite h (startTransfer d)
  let d := putDesc (.cmd 1)
    (cmdDesc length (sqiEnd ||| sqiLaneMode ||| sqiScheck) (d.handle h).cs none) d
  dmaTransfer h (.cmd 0) d

/-- `read_jedec_id`, with what the memory answers. -/
def readJedecId (h : ℕ) (jedec : Jedec) (d : Sst26) : Sst26 :=
  let d := putCmd [0xAF, 0xFF] (startTransfer d)
  let d := putDesc (.cmd 0)
    (cmdDesc 2 (sqiLaneMode ||| sqiDescEn) (d.handle h).cs (some (.buf 0))) d
  let d := putDesc (.buf 0)
    ⟨⟨4, sqiEnd ||| sqiLaneMode ||| sqiDirRead, (d.handle h).cs⟩, some .jedecID, none⟩ d
  let d := awaitTransfer (dmaTransfer h (.cmd 0) d)
  putHandle h { d.handle h with jedecId := jedec } d

/-- `read_security_id`. -/
def readSecurityId (h : ℕ) (d : Sst26) : Sst26 :=
  let d := putCmd [0x88, 0, 0, 0xFF, 0xFF, 0xFF] (startTransfer d)
  let d := putDesc (.cmd 0)
    (cmdDesc 6 (sqiLaneMode ||| sqiDescEn) (d.handle h).cs (some (.buf 0))) d
  let d := putDesc (.buf 0)
    ⟨⟨8, sqiEnd ||| sqiLaneMode ||| sqiDirRead, (d.handle h).cs⟩, some .securityID, none⟩ d
  awaitTransfer (dmaTransfer h (.cmd 0) d)

/-- `gSstFlashIdSizeTable`. -/
def sstFlashIdSizeTable : List (UInt8 × ℕ) :=
  [(0x01, 0x200000), (0x41, 0x200000), (0x02, 0x400000), (0x42, 0x400000), (0x43, 0x800000)]

/-- `get_flash_size`. -/
def getFlashSize (deviceId : UInt8) : ℕ :=
  ((sstFlashIdSizeTable.find? fun row => deviceId = row.1).map Prod.snd).getD 0

/-- `check_handle`. -/
def checkHandle (d : Sst26) (handle : ℕ) : Bool :=
  if d.status ≠ .ready then false
  else if d.isTransferDone = false then false
  else if maxHandles ≤ handle then false
  else if (d.handle handle).opened = false then false
  else true

/-! ## The interface -/

/-- `DRV_SST26_Initialize`. -/
def drvSst26Initialize (d : Sst26) : Sst26 :=
  if d.initialized then d
  else
    let d := { d with initialized := true, isTransferDone := true, status := .ready }
    let d := putHandle 1 initHandleData (putHandle 0 initHandleData d)
    let d := putHandle 0 { d.handle 0 with cs := sqiCs0 } d
    putHandle 1 { d.handle 1 with cs := sqiCs1 } d

/-- `DRV_SST26_UnlockFlash`. -/
def drvSst26UnlockFlash (handle : ℕ) (d : Sst26) : Bool × Sst26 :=
  if checkHandle d handle then (true, unlockFlash handle d) else (false, d)

/-- `DRV_SST26_ReadStatus`. -/
def drvSst26ReadStatus (handle : ℕ) (rxDataLength : UInt32) (d : Sst26) : Bool × Sst26 :=
  if checkHandle d handle then
    let d := putCmd [0x05, 0xFF] (startTransfer d)
    let d := putDesc (.cmd 0)
      (cmdDesc 2 (sqiLaneMode ||| sqiDescEn) (d.handle handle).cs (some (.buf 0))) d
    let d := putDesc (.buf 0)
      ⟨⟨rxDataLength, sqiEnd ||| sqiLaneMode ||| sqiDirRead, (d.handle handle).cs⟩,
        some .statusRegVal, none⟩ d
    (true, awaitTransfer (dmaTransfer handle (.cmd 0) d))
  else (false, d)

/-- `DRV_SST26_START_ADDRESS`. -/
def sst26StartAddress : ℕ := 0

/-- `DRV_SST26_PAGE_SIZE`. -/
def sst26PageSize : ℕ := 256

/-- `DRV_SST26_ERASE_BUFFER_SIZE`. -/
def sst26EraseBufferSize : ℕ := 4096

/-- The transfers by which `DRV_SST26_Open` gets to know the memory. -/
def identify (index : ℕ) (jedec : Jedec) (d : Sst26) : Sst26 :=
  let d := putHandle index { d.handle index with opened := false } d
  readJedecId index jedec (unlockFlash index (enableQuadIo index (resetFlash index d)))

/-- `DRV_SST26_Open`, `none` for `DRV_HANDLE_INVALID`. -/
def drvSst26Open (index : ℕ) (jedec : Jedec) (d : Sst26) : Option ℕ × Sst26 :=
  if d.status ≠ .ready then (none, d)
  else if maxHandles ≤ index then (none, d)
  else
    let d := identify index jedec d
    let flashSize := getFlashSize (d.handle index).jedecId.majorRevisionNumber
    if 0 < flashSize then
      if sst26StartAddress < flashSize then
        if sst26EraseBufferSize ≤ flashSize - sst26StartAddress then
          let d := readSecurityId index d
          (some index, putHandle index { d.handle index with opened := true } d)
        else (none, d)
      else (none, d)
    else (none, d)

/-- `DRV_SST26_Close`. -/
def drvSst26Close (handle : ℕ) (d : Sst26) : Sst26 :=
  if checkHandle d handle then putHandle handle initHandleData d else d

/-- The three bytes of an address. -/
def addressBytes (address : UInt32) : Bytes :=
  [(address >>> 16).toUInt8, (address >>> 8).toUInt8, address.toUInt8]

/-- The flags of a data descriptor of `DRV_SST26_Read`. -/
def sqiData : UInt32 := sqiPktIntEn ||| sqiLaneMode ||| sqiDirRead ||| sqiDescEn

/-- The loop over `sqiBufDesc`, with the turns it has left. -/
def readLoop (cs : UInt32) : ℕ → ℕ → ℕ → ℕ → Sst26 → ℕ × Sst26
  | 0, i, _, _, d => (i, d)
  | left + 1, i, pendingBytes, readBuffer, d =>
    let numBytes := if sst26PageSize ≤ pendingBytes then sst26PageSize else pendingBytes
    let d := putDesc (.buf i)
      ⟨⟨UInt32.ofNat numBytes, sqiData, cs⟩, some (.caller readBuffer), some (.buf (i + 1))⟩ d
    if pendingBytes - numBytes = 0 then (i + 1, d)
    else readLoop cs left (i + 1) (pendingBytes - numBytes) (readBuffer + numBytes) d

/-- The last descriptor is made the end of the list. -/
def closeList (r : DescRef) (d : Sst26) : Sst26 :=
  let x := d.desc r
  putDesc r
    { x with
      bdCtrl := { x.bdCtrl with flags := x.bdCtrl.flags ||| (sqiLastPkt ||| sqiLastBd ||| sqiDeassert) }
      bdNxtptr := none } d

/-- The descriptors of `DRV_SST26_Read`. -/
def readDescs (handle rxData : ℕ) (rxDataLength : UInt32) (d : Sst26) : Sst26 :=
  let d := putDesc (.cmd 1)
    (cmdDesc 7 (sqiLaneMode ||| sqiDescEn) (d.handle handle).cs (some (.buf 0))) d
  let p := readLoop (d.handle handle).cs buffDescNumber 0 rxDataLength.toNat rxData d
  closeList (.buf (p.1 - 1)) p.2

/-- The command of `DRV_SST26_Read`. -/
def readCmd (address : UInt32) : Bytes := [0x0B] ++ addressBytes address ++ [0xFF, 0xFF, 0xFF]

/-- `DRV_SST26_Read`. -/
def drvSst26Read (handle rxData : ℕ) (rxDataLength address : UInt32) (d : Sst26) : Bool × Sst26 :=
  if checkHandle d handle then
    if 0 < rxDataLength.toNat ∨ rxDataLength.toNat ≤ sst26PageSize * buffDescNumber then
      let d := putCmd (readCmd address) (startTransfer d)
      (true, dmaTransfer handle (.cmd 0) (readDescs handle rxData rxDataLength d))
    else (false, d)
  else (false, d)

/-- `DRV_SST26_PageWrite`. -/
def drvSst26PageWrite (handle txData : ℕ) (address : UInt32) (d : Sst26) : Bool × Sst26 :=
  if checkHandle d handle then
    let d := enableWrite handle (startTransfer d)
    let d := putCmd ([0x02] ++ addressBytes address) d
    let d := putDesc (.cmd 1)
      (cmdDesc 4 (sqiLaneMode ||| sqiDescEn) (d.handle handle).cs (some (.buf 0))) d
    let d := putDesc (.buf 0)
      ⟨⟨UInt32.ofNat sst26PageSize, sqiEnd ||| sqiLaneMode ||| sqiScheck, (d.handle handle).cs⟩,
        some (.caller txData), none⟩ d
    (true, dmaTransfer handle (.cmd 0) d)
  else (false, d)

/-- An erase with its instruction. -/
def eraseWith (handle : ℕ) (instruction : Bytes) (d : Sst26) : Bool × Sst26 :=
  if checkHandle d handle then
    (true, erase handle (UInt32.ofNat instruction.length) (putCmd instruction d))
  else (false, d)

/-- `DRV_SST26_SectorErase`. -/
def drvSst26SectorErase (handle : ℕ) (address : UInt32) : Sst26 → Bool × Sst26 :=
  eraseWith handle ([0x20] ++ addressBytes address)

/-- `DRV_SST26_BulkErase`. -/
def drvSst26BulkErase (handle : ℕ) (address : UInt32) : Sst26 → Bool × Sst26 :=
  eraseWith handle ([0xD8] ++ addressBytes address)

/-- `DRV_SST26_ChipErase`. -/
def drvSst26ChipErase (handle : ℕ) : Sst26 → Bool × Sst26 := eraseWith handle [0xC7]

/-! ## Runs -/

/-- What happens to the driver. -/
inductive SstEvent
  | init
  | openIndex (index : ℕ) (jedec : Jedec)
  | close (handle : ℕ)
  | unlock (handle : ℕ)
  | readStatus (handle : ℕ) (rxDataLength : UInt32)
  | read (handle rxData : ℕ) (rxDataLength address : UInt32)
  | pageWrite (handle txData : ℕ) (address : UInt32)
  | sectorErase (handle : ℕ) (address : UInt32)
  | bulkErase (handle : ℕ) (address : UInt32)
  | chipErase (handle : ℕ)
  /-- A transfer completes. -/
  | completed
  deriving Repr

/-- A transfer completes only when there is one. -/
def sstStep (d : Sst26) : SstEvent → Option Sst26
  | .init => some (drvSst26Initialize d)
  | .openIndex i jedec => some (drvSst26Open i jedec d).2
  | .close h => some (drvSst26Close h d)
  | .unlock h => some (drvSst26UnlockFlash h d).2
  | .readStatus h n => some (drvSst26ReadStatus h n d).2
  | .read h rx n a => some (drvSst26Read h rx n a d).2
  | .pageWrite h tx a => some (drvSst26PageWrite h tx a d).2
  | .sectorErase h a => some (drvSst26SectorErase h a d).2
  | .bulkErase h a => some (drvSst26BulkErase h a d).2
  | .chipErase h => some (drvSst26ChipErase h d).2
  | .completed => if 0 < d.inFlight then some (sqiInterrupt d) else none

end Rastreo.Drv
