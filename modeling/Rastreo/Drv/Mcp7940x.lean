import Rastreo.Lib.Calendar
import Rastreo.Lib.CString
import Rastreo.Lib.Run

/-!
# The external clock (`drv_mcp7940x.c`)

`drv_mcp7940x_tasks` runs in every pass of the main loop: the sub-task pending, if there is one,
and otherwise the state of the driver. A sub-task waits, or moves registers over the bus, one state
of the transfer in each pass.

* The I2C module and the delays of the system are inputs of a pass (`McpIo`). A transfer moves its
  bytes when it ends: all of them without an error, some of them with one.
* The chip is the memory behind the bus. `rwParams.data` always is `sys.s`; a pointer handed to
  the bus is the bytes at it.
* What is only printed is left out.
-/

namespace Rastreo.Drv

open Rastreo.Lib

/-! ## Data -/

/-- `t_MCP7940X_STATES`. -/
inductive McpState
  | init
  | idle
  | refreshData
  | checkOn
  | turnOn
  | refreshForUpdate
  | updating
  | error
  deriving DecidableEq, Repr

/-- `t_BUSI2C_STATE`. -/
inductive BusState
  | idle
  | preInit
  | init
  | inProgressTx
  | inProgressRx
  | completed
  | nak
  | collision
  | error
  deriving DecidableEq, Repr

/-- What `I2C5_ErrorGet` tells apart. -/
inductive I2cError
  | none
  | busCollision
  | nack
  | other
  deriving DecidableEq, Repr

/-- `t_I2C_SM_DATA`. -/
structure I2cData where
  tx : Option Bytes
  txLength : Nat
  /-- Whether there is a buffer to read into, which is `sys.s`. -/
  rx : Bool
  rxLength : Nat
  state : BusState
  deriving DecidableEq, Repr

/-- `t_MCP7940X_REGS_DATE`, by its bytes. -/
structure McpRegs where
  seconds00h : UInt8
  minutes01h : UInt8
  hours02h : UInt8
  day03h : UInt8
  date04h : UInt8
  month05h : UInt8
  year06h : UInt8
  controlReg07h : UInt8
  calibration08h : UInt8
  deriving DecidableEq, Repr

/-- `s[9]`. -/
def McpRegs.s (r : McpRegs) : Bytes :=
  [r.seconds00h, r.minutes01h, r.hours02h, r.day03h, r.date04h, r.month05h, r.year06h,
    r.controlReg07h, r.calibration08h]

/-- The bytes from the start of `s` on. -/
def McpRegs.load (r : McpRegs) (bs : Bytes) : McpRegs where
  seconds00h := bs.getD 0 r.seconds00h
  minutes01h := bs.getD 1 r.minutes01h
  hours02h := bs.getD 2 r.hours02h
  day03h := bs.getD 3 r.day03h
  date04h := bs.getD 4 r.date04h
  month05h := bs.getD 5 r.month05h
  year06h := bs.getD 6 r.year06h
  controlReg07h := bs.getD 7 r.controlReg07h
  calibration08h := bs.getD 8 r.calibration08h

/-- The bit-fields of the driver. -/
def McpRegs.st (r : McpRegs) : Bool := r.seconds00h &&& 0x80 ≠ 0

/-- `sys.vbaten`. -/
def McpRegs.vbaten (r : McpRegs) : Bool := r.day03h &&& 0x08 ≠ 0

/-- `sys.day`. -/
def McpRegs.day (r : McpRegs) : UInt8 := r.day03h &&& 0x07

/-- `sys.day = v`. -/
def McpRegs.setDay (r : McpRegs) (v : UInt8) : McpRegs :=
  { r with day03h := (r.day03h &&& 0xF8) ||| (v &&& 0x07) }

/-- `t_RW_PARAMS`, `data` apart. -/
structure RwParams where
  startAddress : UInt8
  length : Nat
  deriving DecidableEq, Repr

/-- `t_MCP7940X_CALL_BACK_CONTEXT`; the result is `MCP7940X_RES_SUCCESS` or not. -/
structure McpContext where
  success : Bool
  ts : Int
  reliable : Bool
  deriving DecidableEq, Repr

/-- A callback: `init_cb`, or one by its name. -/
inductive McpCallback
  | init
  | user (name : Nat)
  deriving DecidableEq, Repr

/-- The functions `subTask` points to. -/
inductive SubTask
  | wait
  | readRegisters
  | writeRegisters
  deriving DecidableEq, Repr

/-- `t_SUB_TASK_DATA`; the context of `wait` is `timeDelayms`, that of the others `rwParams`. -/
structure SubTaskData where
  stateOnSuccessful : McpState
  stateOnError : McpState
  subTask : Option SubTask
  state : Nat
  deriving DecidableEq, Repr

/-- The driver and the registers of the chip, by address. -/
structure Mcp where
  smCurrentState : McpState
  rwParams : RwParams
  sys : McpRegs
  tsLocal : Tm
  cb : Option McpCallback
  subtaskData : SubTaskData
  i2cData : I2cData
  timeDelayms : Nat
  chip : Nat → UInt8
  /-- The callbacks made, latest first. -/
  calls : List (McpCallback × McpContext)

/-- What one pass finds. -/
structure McpIo where
  /-- `I2C5_IsBusy`. -/
  isBusy : Bool
  /-- What `I2C5_Write` and `I2C5_WriteRead` return. -/
  accepts : Bool
  /-- `I2C5_ErrorGet`. -/
  error : I2cError
  /-- The bytes moved before an error. -/
  moved : Nat
  /-- `SYS_TIME_DelayMS` succeeds. -/
  delayStarts : Bool
  /-- `SYS_TIME_DelayIsComplete`. -/
  delayDone : Bool
  deriving DecidableEq, Repr

/-- A pass in which nothing is held up. -/
def goodPass : McpIo := ⟨false, true, .none, 0, true, true⟩

/-! ## The bus -/

/-- `n` registers of the chip. -/
def readChip (chip : Nat → UInt8) (addr n : Nat) : Bytes := (List.range n).map fun i => chip (addr + i)

/-- Bytes into the registers of the chip. -/
def writeChip (chip : Nat → UInt8) (addr : Nat) (bs : Bytes) : Nat → UInt8 := fun a =>
  if addr ≤ a then bs.getD (a - addr) (chip a) else chip a

/-- `i2c_reset`. -/
def i2cReset (i : I2cData) : I2cData :=
  { i with tx := none, txLength := 0, rx := false, rxLength := 0, state := .idle }

/-- What a transfer moves; `n` is the number of its bytes that got through. -/
def moveData (m : Mcp) (n : Nat) : Mcp :=
  match m.i2cData.tx with
  | some (addr :: bs) =>
    match m.i2cData.state with
    | .inProgressRx =>
      { m with sys := m.sys.load (readChip m.chip addr.toNat (min n m.i2cData.rxLength)) }
    | .inProgressTx =>
      { m with chip := writeChip m.chip addr.toNat ((bs.take (m.i2cData.txLength - 1)).take n) }
    | _ => m
  | _ => m

/-- The state of the bus after a transfer. -/
def I2cError.busState : I2cError → BusState
  | .none => .completed
  | .busCollision => .collision
  | .nack => .nak
  | .other => .error

/-- `i2c_task`. -/
def i2cTask (io : McpIo) (m : Mcp) : Mcp :=
  match m.i2cData.state with
  | .init =>
    if io.isBusy then m
    else
      let state :=
        if m.i2cData.tx.isSome && m.i2cData.txLength ≠ 0 then
          if m.i2cData.rx && m.i2cData.txLength ≠ 0 then
            if io.accepts then .inProgressRx else .error
          else if io.accepts then .inProgressTx else .error
        else .error
      { m with i2cData := { m.i2cData with state := state } }
  | .inProgressTx | .inProgressRx =>
    if io.isBusy then m
    else
      let m := match io.error with
        | .none => moveData m (max m.i2cData.txLength m.i2cData.rxLength)
        | _ => moveData m io.moved
      { m with i2cData := { m.i2cData with state := io.error.busState } }
  | _ => m

/-- `i2c_rw`; the slave address is the same in every call. -/
def i2cRw (m : Mcp) (txDat : Bytes) (txLen : Nat) (rxDat : Bool) (rxLen : Nat) : Bool × Mcp :=
  if m.i2cData.state ≠ .idle then (false, m)
  else (true, { m with i2cData := ⟨some txDat, txLen, rxDat, rxLen, .init⟩ })

/-! ## Sub-tasks -/

/-- `sub_task_init`. -/
def subTaskInit (m : Mcp) (stf : SubTask) (stateOK stateError : McpState) : Mcp :=
  { m with subtaskData := ⟨stateOK, stateError, some stf, 0⟩ }

/-- `sub_task_end`. -/
def subTaskEnd (m : Mcp) (ok : Bool) : Mcp :=
  { m with
    subtaskData := { m.subtaskData with subTask := none }
    i2cData := i2cReset m.i2cData
    smCurrentState :=
      if ok then m.subtaskData.stateOnSuccessful else m.subtaskData.stateOnError }

/-- `subtaskData.state = n`. -/
def Mcp.setSubState (m : Mcp) (n : Nat) : Mcp :=
  { m with subtaskData := { m.subtaskData with state := n } }

/-- `sub_task_wait`. -/
def subTaskWait (io : McpIo) (m : Mcp) : Mcp :=
  match m.subtaskData.state with
  | 0 => if io.delayStarts then m.setSubState 1 else subTaskEnd m false
  | 1 => if io.delayDone then subTaskEnd m true else m
  | _ => m

/-- The second state of the sub-tasks that move registers: what the bus says. -/
def subTaskPoll (m : Mcp) : Mcp :=
  match m.i2cData.state with
  | .nak => m.setSubState 0
  | .completed => subTaskEnd m true
  | .collision | .error => subTaskEnd m false
  | _ => m

/-- `sub_task_read_registers`. -/
def subTaskReadRegisters (io : McpIo) (m : Mcp) : Mcp :=
  let m := i2cTask io m
  match m.subtaskData.state with
  | 0 =>
    match i2cRw m [m.rwParams.startAddress] 1 true m.rwParams.length with
    | (true, m) => m.setSubState 1
    | (false, m) => subTaskEnd m false
  | 1 => subTaskPoll m
  | _ => m

/-- `sub_task_write_registers`. -/
def subTaskWriteRegisters (io : McpIo) (m : Mcp) : Mcp :=
  let m := i2cTask io m
  match m.subtaskData.state with
  | 0 =>
    match i2cRw m (m.rwParams.startAddress :: m.sys.s.take m.rwParams.length)
        (m.rwParams.length + 1) false 0 with
    | (true, m) => m.setSubState 1
    | (false, m) => subTaskEnd m false
  | 1 => subTaskPoll m
  | _ => m

/-! ## The states of the driver -/

/-- `bcd2dec`. -/
def bcd2dec (bcd : UInt8) : UInt8 := (bcd >>> 4) * 10 + (bcd &&& 0x0F)

/-- `dec2bcd`. -/
def dec2bcd (dec : UInt8) : UInt8 := ((dec / 10) <<< 4) ||| (dec % 10)

/-- An `int` handed to a parameter of type `uint8_t`. -/
def uint8 (z : Int) : UInt8 := UInt8.ofInt z

/-- The fields of `ts_local` that `MCP7940X_STATE_CHECK_ON` reads from the registers. -/
def checkOn (r : McpRegs) (t : Tm) : Tm :=
  { t with
    tmSec := (bcd2dec (r.seconds00h &&& 0x7F)).toNat
    tmMin := (bcd2dec (r.minutes01h &&& 0x7F)).toNat
    tmHour := (bcd2dec (r.hours02h &&& 0x3F)).toNat
    tmWday := r.day.toNat - 1
    tmMday := (bcd2dec (r.date04h &&& 0x3F)).toNat
    tmMon := (bcd2dec (r.month05h &&& 0x1F)).toNat - 1
    tmYear := (bcd2dec r.year06h).toNat + 100 }

/-- The registers that `MCP7940X_STATE_UPDATING` sets from `ts_local`. -/
def updating (r : McpRegs) (t : Tm) : McpRegs :=
  let r := { r with
    seconds00h := (r.seconds00h &&& 0x80) ||| dec2bcd (uint8 t.tmSec)
    minutes01h := (r.minutes01h &&& 0x80) ||| dec2bcd (uint8 t.tmMin)
    hours02h := (r.hours02h &&& 0xC0) ||| dec2bcd (uint8 t.tmHour) }
  let r := r.setDay (uint8 (t.tmWday + 1))
  { r with
    date04h := (r.date04h &&& 0xC0) ||| dec2bcd (uint8 t.tmMday)
    month05h := (r.month05h &&& 0xC0) ||| dec2bcd (uint8 (t.tmMon + 1))
    year06h := dec2bcd (uint8 (t.tmYear.tmod 100)) }

/-- The registers that `MCP7940X_STATE_TURN_ON` sets: ST, VBATEN, SQWE and RS = 011. -/
def turnOn (r : McpRegs) : McpRegs :=
  { r with
    seconds00h := r.seconds00h ||| 0x80
    day03h := r.day03h ||| 0x08
    controlReg07h := ((r.controlReg07h ||| 0x40) ||| 0x03) &&& 0xFB }

/-- `if (drvData.cb) drvData.cb (&ctx)`; `init_cb` takes itself off. -/
def Mcp.callBack (m : Mcp) (ctx : McpContext) : Mcp :=
  match m.cb with
  | some .init => { m with cb := none, calls := (.init, ctx) :: m.calls }
  | some (.user name) => { m with calls := (.user name, ctx) :: m.calls }
  | none => m

section CallBack

variable (m : Mcp) (ctx : McpContext)

@[simp] theorem callBack_smCurrentState : (m.callBack ctx).smCurrentState = m.smCurrentState := by
  unfold Mcp.callBack
  split <;> rfl

@[simp] theorem callBack_subtaskData : (m.callBack ctx).subtaskData = m.subtaskData := by
  unfold Mcp.callBack
  split <;> rfl

@[simp] theorem callBack_i2cData : (m.callBack ctx).i2cData = m.i2cData := by
  unfold Mcp.callBack
  split <;> rfl

@[simp] theorem callBack_tsLocal : (m.callBack ctx).tsLocal = m.tsLocal := by
  unfold Mcp.callBack
  split <;> rfl

end CallBack

/-- `MCP7940X_STATE_CHECK_ON`. -/
def Mcp.checkOn (m : Mcp) : Mcp :=
  let t := Drv.checkOn m.sys m.tsLocal
  if m.sys.st && m.sys.vbaten then
    { m with
      tsLocal := gmtime (mktime t)
      smCurrentState := .idle }.callBack ⟨true, mktime t, true⟩
  else { m with tsLocal := t, smCurrentState := .turnOn }.callBack ⟨false, 0, false⟩

/-- `drv_mcp7940x_tasks`. -/
def drvMcp7940xTasks (io : McpIo) (m : Mcp) : Mcp :=
  match m.subtaskData.subTask with
  | some .wait => subTaskWait io m
  | some .readRegisters => subTaskReadRegisters io m
  | some .writeRegisters => subTaskWriteRegisters io m
  | none =>
    match m.smCurrentState with
    | .init =>
      { m with
        rwParams := ⟨0, 9⟩
        cb := some .init
        smCurrentState := .refreshData }
    | .idle => m
    | .refreshData =>
      if m.i2cData.state = .idle then subTaskInit m .readRegisters .checkOn .error else m
    | .checkOn => m.checkOn
    | .turnOn =>
      if m.i2cData.state = .idle then
        subTaskInit { m with rwParams := ⟨0, 8⟩, sys := turnOn m.sys } .writeRegisters .idle .error
      else m
    | .refreshForUpdate =>
      if m.i2cData.state = .idle then subTaskInit m .readRegisters .updating .error else m
    | .updating =>
      if m.i2cData.state = .idle then
        subTaskInit { m with rwParams := ⟨0, 7⟩, sys := updating m.sys m.tsLocal }
          .writeRegisters .idle .error
      else m
    | .error => subTaskInit { m with timeDelayms := 5000 } .wait .init .error

/-! ## The interface -/

/-- `drv_mcp7940x_init`, for the data of the sub-tasks and of the bus as they are. -/
def drvMcp7940xInit (m : Mcp) : Mcp :=
  subTaskInit { m with
    smCurrentState := .init
    rwParams := ⟨0, 0⟩
    sys := ⟨0, 0, 0, 0, 0, 0, 0, 0, 0⟩
    tsLocal := ⟨0, 0, 0, 0, 0, 0, 0, 0, 0⟩
    cb := none
    timeDelayms := 500 } .wait .init .error

/-- `mcp7940x_get_ts`. -/
def mcp7940xGetTs (m : Mcp) (cb : Option Nat) : Int × Mcp :=
  if m.smCurrentState ≠ .idle then (-1, m)
  else (0, { m with rwParams := ⟨0, 9⟩, cb := cb.map .user, smCurrentState := .refreshData })

/-- `mcp7940x_set_ts`. -/
def mcp7940xSetTs (m : Mcp) (ts : Tm) : Int × Mcp :=
  if m.smCurrentState ≠ .idle then (-1, m)
  else (0, { m with tsLocal := ts, rwParams := ⟨0, 7⟩, smCurrentState := .refreshForUpdate })

/-- What happens to the driver. -/
inductive McpEvent
  | tasks (io : McpIo)
  | getTs (cb : Option Nat)
  | setTs (ts : Tm)
  /-- The registers of the chip change by themselves. -/
  | clock (chip : Nat → UInt8)

/-- One event. -/
def mcpStep (m : Mcp) : McpEvent → Option Mcp
  | .tasks io => some (drvMcp7940xTasks io m)
  | .getTs cb => some (mcp7940xGetTs m cb).2
  | .setTs ts => some (mcp7940xSetTs m ts).2
  | .clock chip => some { m with chip := chip }

/-- The statics of the module before the first call, in front of a chip. -/
def mcpZero (chip : Nat → UInt8) : Mcp where
  smCurrentState := .init
  rwParams := ⟨0, 0⟩
  sys := ⟨0, 0, 0, 0, 0, 0, 0, 0, 0⟩
  tsLocal := ⟨0, 0, 0, 0, 0, 0, 0, 0, 0⟩
  cb := none
  subtaskData := ⟨.init, .init, none, 0⟩
  i2cData := ⟨none, 0, false, 0, .idle⟩
  timeDelayms := 0
  chip := chip
  calls := []

/-- The driver after its start, in front of a chip. -/
def mcpInit (chip : Nat → UInt8) : Mcp := drvMcp7940xInit (mcpZero chip)

/-! ## Between two passes -/

/-- Without a sub-task the bus is idle, and the idle driver has no sub-task. -/
structure Mcp.Settled (m : Mcp) : Prop where
  quiet : m.subtaskData.subTask = none → m.i2cData.state = .idle
  resting : m.smCurrentState = .idle → m.subtaskData.subTask = none

section Settled

variable {m : Mcp} {io : McpIo}

theorem settled_mcpInit (chip : Nat → UInt8) : (mcpInit chip).Settled := by
  constructor
  · intro h
    cases h
  · intro h
    cases h

theorem settled_subTaskEnd (m : Mcp) (ok : Bool) : (subTaskEnd m ok).Settled :=
  ⟨fun _ => rfl, fun _ => rfl⟩

/-- The sub-task stays, and so does the state of the driver. -/
theorem Mcp.Settled.of_same {m' : Mcp} (h : m.Settled) {k : SubTask}
    (hk : m'.subtaskData.subTask = some k) (hm : m.subtaskData.subTask = some k)
    (hs : m'.smCurrentState = m.smCurrentState) : m'.Settled := by
  constructor
  · intro hnone
    rw [hk] at hnone
    cases hnone
  · intro hidle
    have hnone := h.resting (hs.symm.trans hidle)
    rw [hm] at hnone
    cases hnone

theorem i2cTask_frame (io : McpIo) (m : Mcp) :
    (i2cTask io m).subtaskData = m.subtaskData ∧
      (i2cTask io m).smCurrentState = m.smCurrentState := by
  have hmove : ∀ n, (moveData m n).subtaskData = m.subtaskData ∧
      (moveData m n).smCurrentState = m.smCurrentState := by
    intro n
    unfold moveData
    split
    · split <;> exact ⟨rfl, rfl⟩
    · exact ⟨rfl, rfl⟩
  unfold i2cTask
  split
  · split <;> exact ⟨rfl, rfl⟩
  · split
    · exact ⟨rfl, rfl⟩
    · cases io.error <;> exact hmove _
  · split
    · exact ⟨rfl, rfl⟩
    · cases io.error <;> exact hmove _
  · exact ⟨rfl, rfl⟩

theorem settled_subTaskPoll (h : m.Settled) {k : SubTask} (hk : m.subtaskData.subTask = some k) :
    (subTaskPoll m).Settled := by
  unfold subTaskPoll
  split
  · exact h.of_same hk hk rfl
  · exact settled_subTaskEnd m true
  · exact settled_subTaskEnd m false
  · exact settled_subTaskEnd m false
  · exact h

/-- A sub-task started where the driver is not idle. -/
theorem settled_subTaskInit {stf : SubTask} {ok err : McpState} (h : m.smCurrentState ≠ .idle) :
    (subTaskInit m stf ok err).Settled := by
  constructor
  · intro hnone
    cases hnone
  · intro hidle
    exact absurd hidle h

theorem i2cRw_cases (m : Mcp) (tx : Bytes) (n : Nat) (rx : Bool) (k : Nat) :
    i2cRw m tx n rx k = (false, m) ∨
      i2cRw m tx n rx k = (true, { m with i2cData := ⟨some tx, n, rx, k, .init⟩ }) := by
  unfold i2cRw
  split
  · exact .inl rfl
  · exact .inr rfl

theorem settled_tasks (h : m.Settled) : (drvMcp7940xTasks io m).Settled := by
  obtain ⟨hsub, hsm⟩ := i2cTask_frame io m
  have hbus : ∀ k, m.subtaskData.subTask = some k → (i2cTask io m).Settled :=
    fun k hk => h.of_same (hsub ▸ hk) hk hsm
  unfold drvMcp7940xTasks
  split
  · rename_i hk
    unfold subTaskWait
    split
    · split
      · exact h.of_same hk hk rfl
      · exact settled_subTaskEnd m false
    · split
      · exact settled_subTaskEnd m true
      · exact h
    · exact h
  · rename_i hk
    unfold subTaskReadRegisters
    dsimp only
    split
    · rcases i2cRw_cases (i2cTask io m) [(i2cTask io m).rwParams.startAddress] 1 true
        (i2cTask io m).rwParams.length with hrw | hrw
      · rw [hrw]
        exact settled_subTaskEnd _ false
      · rw [hrw]
        exact (hbus _ hk).of_same (hsub ▸ hk) (hsub ▸ hk) rfl
    · exact settled_subTaskPoll (hbus _ hk) (hsub ▸ hk)
    · exact hbus _ hk
  · rename_i hk
    unfold subTaskWriteRegisters
    dsimp only
    split
    · rcases i2cRw_cases (i2cTask io m) ((i2cTask io m).rwParams.startAddress ::
          (i2cTask io m).sys.s.take (i2cTask io m).rwParams.length)
        ((i2cTask io m).rwParams.length + 1) false 0 with hrw | hrw
      · rw [hrw]
        exact settled_subTaskEnd _ false
      · rw [hrw]
        exact (hbus _ hk).of_same (hsub ▸ hk) (hsub ▸ hk) rfl
    · exact settled_subTaskPoll (hbus _ hk) (hsub ▸ hk)
    · exact hbus _ hk
  · rename_i hk
    have hquiet := h.quiet hk
    split
    · exact ⟨fun _ => hquiet, fun hidle => by cases hidle⟩
    · exact h
    · rename_i hs
      rw [if_pos hquiet]
      exact settled_subTaskInit (by rw [hs]; decide)
    · unfold Mcp.checkOn
      constructor
      · intro _
        split <;> simpa using hquiet
      · intro _
        split <;> simpa using hk
    · rename_i hs
      rw [if_pos hquiet]
      exact settled_subTaskInit (by simp only [hs]; decide)
    · rename_i hs
      rw [if_pos hquiet]
      exact settled_subTaskInit (by rw [hs]; decide)
    · rename_i hs
      rw [if_pos hquiet]
      exact settled_subTaskInit (by simp only [hs]; decide)
    · rename_i hs
      exact settled_subTaskInit (by simp only [hs]; decide)

theorem settled_of_step {e : McpEvent} {m' : Mcp} (h : m.Settled) (hs : mcpStep m e = some m') :
    m'.Settled := by
  cases e with
  | tasks io =>
    obtain rfl := Option.some.inj hs
    exact settled_tasks h
  | getTs cb =>
    obtain rfl := Option.some.inj hs
    show (mcp7940xGetTs m cb).2.Settled
    unfold mcp7940xGetTs
    split
    · exact h
    · exact ⟨h.quiet, fun hidle => by cases hidle⟩
  | setTs ts =>
    obtain rfl := Option.some.inj hs
    show (mcp7940xSetTs m ts).2.Settled
    unfold mcp7940xSetTs
    split
    · exact h
    · exact ⟨h.quiet, fun hidle => by cases hidle⟩
  | clock chip =>
    obtain rfl := Option.some.inj hs
    exact ⟨h.quiet, h.resting⟩

/-- **Every reachable state of the driver.** -/
theorem settled_of_run {chip : Nat → UInt8} {es : List McpEvent}
    (hr : run mcpStep (mcpInit chip) es = some m) : m.Settled := by
  refine inv_of_run (C := fun _ _ => True) ?_ (settled_mcpInit chip) along_true hr
  intro s e s' hs _ hstep
  exact settled_of_step hs hstep

end Settled

/-! ## A sub-task on the bus -/

/-- The transfer a sub-task asks for. -/
def request (m : Mcp) : SubTask → I2cData
  | .readRegisters => ⟨some [m.rwParams.startAddress], 1, true, m.rwParams.length, .init⟩
  | _ => ⟨some (m.rwParams.startAddress :: m.sys.s.take m.rwParams.length), m.rwParams.length + 1,
      false, 0, .init⟩

section SubTasks

variable {m : Mcp}

/-- A sub-task that has asked polls the bus. -/
theorem tasks_polling {k : SubTask} (io : McpIo) (hk : m.subtaskData.subTask = some k)
    (hne : k ≠ .wait) (h1 : m.subtaskData.state = 1) :
    drvMcp7940xTasks io m = subTaskPoll (i2cTask io m) := by
  have hstate : (i2cTask io m).subtaskData.state = 1 := by rw [(i2cTask_frame io m).1, h1]
  unfold drvMcp7940xTasks
  rw [hk]
  cases k with
  | wait => exact absurd rfl hne
  | readRegisters =>
    show subTaskReadRegisters io m = _
    simp only [subTaskReadRegisters, hstate]
  | writeRegisters =>
    show subTaskWriteRegisters io m = _
    simp only [subTaskWriteRegisters, hstate]

/-- The first pass asks for the transfer. -/
theorem tasks_asking {k : SubTask} (io : McpIo) (hk : m.subtaskData.subTask = some k)
    (hne : k ≠ .wait) (h0 : m.subtaskData.state = 0) (hidle : m.i2cData.state = .idle) :
    drvMcp7940xTasks io m = { m with i2cData := request m k }.setSubState 1 := by
  have hbus : i2cTask io m = m := by
    unfold i2cTask
    rw [hidle]
  unfold drvMcp7940xTasks
  rw [hk]
  cases k with
  | wait => exact absurd rfl hne
  | readRegisters =>
    show subTaskReadRegisters io m = _
    unfold subTaskReadRegisters i2cRw
    rw [hbus]
    simp only [h0, hidle, ne_eq, not_true_eq_false, if_false]
    rfl
  | writeRegisters =>
    show subTaskWriteRegisters io m = _
    unfold subTaskWriteRegisters i2cRw
    rw [hbus]
    simp only [h0, hidle, ne_eq, not_true_eq_false, if_false]
    rfl

end SubTasks

end Rastreo.Drv
