import Mathlib

/-!
# Inputs and outputs (`pmz_io_control.c`)

`local_timers` runs every 100 ms: it counts the timers down and calls `io_tasks`, which samples
the pins of the inputs and moves the outputs on.

* Of the input identifiers, 01 to 04 belong to the serial modules in this build (the macros that
  would make them inputs are not defined by `plib_gpio.h`): they stay disabled and are not sampled.
* A callback is a name, `none` where the pointer is NULL; a context is the pointer handed to it.
* The output pin is the bit of its latch register. `t_OUTPUT.state` is used nowhere and left out.
-/

namespace Rastreo.Drv

/-! ## Data -/

/-- `t_IO_INPUT_STATES`. -/
inductive InputState
  | disable
  | unknown
  | low
  | lowToHigh
  | high
  | highToLow
  deriving DecidableEq, Repr

/-- `t_IO_EDGE`. -/
inductive IoEdge
  | rising
  | falling
  | both
  deriving DecidableEq, Repr

/-- `t_IO_OUTPUT_STATES`. -/
inductive OutputState
  | low
  | high
  deriving DecidableEq, Repr

/-- `t_IO_OUTPUT_MODE`. -/
inductive OutputMode
  | set
  | pulse
  | blink
  deriving DecidableEq, Repr

/-- `t_OUTPUT_ACTION`. -/
inductive OutputAction
  | low
  | high
  | toggle
  deriving DecidableEq, Repr

/-- `t_IO_STATES`. -/
inductive IoState
  | init
  | running
  | error
  deriving DecidableEq, Repr

/-- `t_IO_INPUT_ID`; the index of `IO_INPUT_ID_01` is 0. -/
abbrev InputId := Fin 12

/-- `t_IO_OUTPUT_ID`; the index of `IO_OUTPUT_RELE_ID_1` is 0. -/
inductive OutputId
  | greenLed
  | amberLed
  | rele (n : Fin 8)
  | simcomPower
  deriving DecidableEq, Repr

/-- `IO_INPUT_CALL_BACK`, by name. -/
abbrev Callback := Nat

/-- `t_INPUT`. -/
structure Input where
  state : InputState
  t : Nat
  risingEdgeCb : Option Callback
  risingEdgeCtx : Nat
  fallingEdgeCb : Option Callback
  fallingEdgeCtx : Nat
  deriving DecidableEq, Repr

/-- `t_OUTPUT`, and the pin it drives. -/
structure Output where
  mode : OutputMode
  tPulse : Nat
  tOper : Nat
  msPulseHigh : UInt16
  msPulseLow : UInt16
  pin : Bool
  deriving DecidableEq, Repr

/-- `t_IO_DATA`. -/
structure Io where
  state : IoState
  input : InputId → Input
  output : OutputId → Output

/-- A call of an input's callback. -/
structure Call where
  cb : Callback
  id : InputId
  state : InputState
  ctx : Nat
  deriving DecidableEq, Repr

/-! ## Timers -/

/-- `timer_ms`: the value it loads. -/
def timerMs (ms : Nat) : Nat := ms / 100 + 1

/-- `timer_expired`. -/
def timerExpired (t : Nat) : Bool := t == 1

/-- `timer_dec`. -/
def timerDec (t : Nat) : Nat := if 1 < t then t - 1 else t

/-- `CTE_TIME_MS`. -/
def cteTimeMs : Nat := 100

/-! ## Outputs -/

/-- `set_output`, on the pin of the output. -/
def setOutput (o : Output) : OutputAction → Output
  | .low => { o with pin := false }
  | .high => { o with pin := true }
  | .toggle => { o with pin := !o.pin }

/-- `io_output_get_state`; the LEDs read inverted. -/
def ioOutputGetState (io : Io) (id : OutputId) : OutputState :=
  let level := match id with
    | .greenLed | .amberLed => !(io.output id).pin
    | .rele _ | .simcomPower => (io.output id).pin
  if level then .high else .low

/-- The body of the loop of `outputs_task`, where `state` is what `io_output_get_state` gives. -/
def outputTask (state : OutputState) (o : Output) : Output :=
  let o :=
    if timerExpired o.tPulse then
      match o.mode with
      | .set | .pulse => o
      | .blink =>
        let ms := if state = .high then o.msPulseLow else o.msPulseHigh
        setOutput { o with tPulse := timerMs ms.toNat } .toggle
    else o
  if timerExpired o.tOper then
    { setOutput o .toggle with tPulse := 0, tOper := 0, mode := .set }
  else o

/-- `outputs_task`. -/
def outputsTask (io : Io) : Io :=
  { io with output := fun id => outputTask (ioOutputGetState io id) (io.output id) }

/-! ## Inputs -/

/-- The call of a callback that is not NULL. -/
def callTo (cb : Option Callback) (id : InputId) (state : InputState) (ctx : Nat) : List Call :=
  match cb with
  | some cb => [⟨cb, id, state, ctx⟩]
  | none => []

/-- `inputs_task`, with the calls it makes. -/
def inputsTask (id : InputId) (i : Input) (pinState : Bool) : Input × List Call :=
  match i.state with
  | .disable => (i, [])
  | .unknown => ({ i with t := 0, state := if pinState then .high else .low }, [])
  | .low =>
    if pinState then ({ i with t := timerMs cteTimeMs, state := .lowToHigh }, []) else (i, [])
  | .lowToHigh =>
    if pinState then
      if timerExpired i.t then
        ({ i with t := 0, state := .high }, callTo i.risingEdgeCb id i.state i.risingEdgeCtx)
      else (i, [])
    else ({ i with t := timerMs cteTimeMs, state := .highToLow }, [])
  | .high =>
    if pinState then (i, []) else ({ i with t := timerMs cteTimeMs, state := .highToLow }, [])
  | .highToLow =>
    if pinState then ({ i with t := timerMs cteTimeMs, state := .lowToHigh }, [])
    else if timerExpired i.t then
      ({ i with t := 0, state := .low }, callTo i.fallingEdgeCb id i.state i.fallingEdgeCtx)
    else (i, [])

/-- `io_tasks` samples this input. -/
def Sampled (id : InputId) : Prop := 4 ≤ id.val

instance (id : InputId) : Decidable (Sampled id) := inferInstanceAs (Decidable (4 ≤ id.val))

/-- The `inputs_task` calls of `io_tasks`, on the pins' levels. -/
def inputsTasks (io : Io) (pins : InputId → Bool) : Io × List Call :=
  ({ io with
      input := fun id =>
        if Sampled id then (inputsTask id (io.input id) (pins id)).1 else io.input id },
    (List.finRange 12).flatMap fun id =>
      if Sampled id then (inputsTask id (io.input id) (pins id)).2 else [])

/-- `io_tasks`. -/
def ioTasks (io : Io) (pins : InputId → Bool) : Io × List Call :=
  match io.state with
  | .init =>
    ({ io with
        input := fun id =>
          { io.input id with state := if Sampled id then .unknown else .disable }
        state := .running }, [])
  | .running => inputsTasks (outputsTask io) pins
  | .error => (io, [])

/-- The timers of `local_timers`. -/
def timersDec (io : Io) : Io :=
  { io with
    input := fun id => { io.input id with t := timerDec (io.input id).t }
    output := fun id =>
      { io.output id with
        tPulse := timerDec (io.output id).tPulse
        tOper := timerDec (io.output id).tOper } }

/-- `local_timers`. -/
def localTimers (io : Io) (pins : InputId → Bool) : Io × List Call := ioTasks (timersDec io) pins

/-! ## Interface -/

/-- `io_initialize`, by whether the timer could be registered. -/
def ioInitialize (registered : Bool) : Io where
  state := if registered then .init else .error
  input := fun _ => ⟨.disable, 0, none, 0, none, 0⟩
  output := fun _ => ⟨.set, 0, 0, 0, 0, false⟩

/-- `io_register_input_cb`; for both edges the contexts stay. -/
def ioRegisterInputCb (io : Io) (id : InputId) (edge : IoEdge) (cb : Option Callback)
    (ctx : Nat) : Io :=
  let i := io.input id
  let i := match edge with
    | .falling => { i with fallingEdgeCb := cb, fallingEdgeCtx := ctx }
    | .rising => { i with risingEdgeCb := cb, risingEdgeCtx := ctx }
    | .both => { i with fallingEdgeCb := cb, risingEdgeCb := cb }
  { io with input := Function.update io.input id i }

/-- The action that makes the pin read `state`. -/
def OutputState.action : OutputState → OutputAction
  | .low => .low
  | .high => .high

/-- `io_output_set_state`. -/
def ioOutputSetState (io : Io) (id : OutputId) (state : OutputState) : Io :=
  { io with
    output := Function.update io.output id
      (setOutput { io.output id with tPulse := 0, tOper := 0, mode := .set } state.action) }

/-- `io_output_toggle`. -/
def ioOutputToggle (io : Io) (id : OutputId) : Io :=
  { io with
    output := Function.update io.output id
      (setOutput { io.output id with tPulse := 0, tOper := 0, mode := .set } .toggle) }

/-- `io_output_pulse`. -/
def ioOutputPulse (io : Io) (id : OutputId) (state : OutputState) (ms : UInt32) : Io :=
  { io with
    output := Function.update io.output id
      (setOutput { io.output id with tOper := timerMs ms.toNat, tPulse := 0, mode := .pulse }
        state.action) }

/-- `io_output_blink`. -/
def ioOutputBlink (io : Io) (id : OutputId) (msHigh msLow : UInt16) (ms : UInt32) : Io :=
  { io with
    output := Function.update io.output id
      { setOutput
          { io.output id with
            tPulse := timerMs msHigh.toNat
            tOper := if 0 < ms then timerMs ms.toNat else 0
            mode := .blink } .high with
        msPulseHigh := msHigh
        msPulseLow := msLow } }

/-! ## Runs -/

/-- What can happen to the module after `io_initialize`, the interface functions as a whole
(`IoStatements` takes them apart). -/
inductive IoEvent
  /-- `local_timers`, with the levels of the input pins. -/
  | tick (pins : InputId → Bool)
  | registerInputCb (id : InputId) (edge : IoEdge) (cb : Option Callback) (ctx : Nat)
  | setState (id : OutputId) (state : OutputState)
  | toggle (id : OutputId)
  | pulse (id : OutputId) (state : OutputState) (ms : UInt32)
  | blink (id : OutputId) (msHigh msLow : UInt16) (ms : UInt32)

/-- The state after the event and the callbacks called. -/
def ioEvent (io : Io) : IoEvent → Io × List Call
  | .tick pins => localTimers io pins
  | .registerInputCb id edge cb ctx => (ioRegisterInputCb io id edge cb ctx, [])
  | .setState id state => (ioOutputSetState io id state, [])
  | .toggle id => (ioOutputToggle io id, [])
  | .pulse id state ms => (ioOutputPulse io id state ms, [])
  | .blink id msHigh msLow ms => (ioOutputBlink io id msHigh msLow ms, [])

/-- One event; all of them can happen at any time. -/
def ioStep (io : Io) (e : IoEvent) : Option Io := some (ioEvent io e).1

end Rastreo.Drv
