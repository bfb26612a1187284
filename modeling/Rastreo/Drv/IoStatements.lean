import Rastreo.Lib.Run
import Rastreo.Drv.IoControl

/-!
# The interface functions, statement by statement

`local_timers` is called from the interrupt of the core timer, so a tick can fall between any two
statements of an interface function. `IoMachine` adds to the module's data the statements that the
call in progress has left; a call begins with its first statement.

* `statements`: the assignments of each function, in the order of the source.
* `completed`: the data once the call in progress has returned. `completed_step`, `completed_call`:
  a statement keeps it, and a call takes it where the whole function does.
* `run_refines`: a run of whole functions and ticks is a run of statements.
* `run_of_uninterrupted`: where no tick falls inside a call, a run of statements is one of whole
  functions.
* `Calls`: one call from its first statement to its return, with the ticks inside it; `run_inside`:
  what its statements keep and its ticks count down.
-/

namespace Rastreo.Drv

open Rastreo.Lib

/-- An assignment, or a `set_output`, of an interface function. -/
inductive Statement
  | fallingEdgeCb (id : InputId) (cb : Option Callback)
  | fallingEdgeCtx (id : InputId) (ctx : Nat)
  | risingEdgeCb (id : InputId) (cb : Option Callback)
  | risingEdgeCtx (id : InputId) (ctx : Nat)
  /-- `timer_ms` or `timer_off` of `tPulse`. -/
  | tPulse (id : OutputId) (t : Nat)
  /-- `timer_ms` or `timer_off` of `tOper`. -/
  | tOper (id : OutputId) (t : Nat)
  | mode (id : OutputId) (mode : OutputMode)
  | setOutput (id : OutputId) (action : OutputAction)
  | msPulseHigh (id : OutputId) (ms : UInt16)
  | msPulseLow (id : OutputId) (ms : UInt16)
  deriving DecidableEq, Repr

/-- `io.input[id]`, changed. -/
def Io.mapInput (io : Io) (id : InputId) (f : Input → Input) : Io :=
  { io with input := Function.update io.input id (f (io.input id)) }

/-- `io.output[id]`, changed. -/
def Io.mapOutput (io : Io) (id : OutputId) (f : Output → Output) : Io :=
  { io with output := Function.update io.output id (f (io.output id)) }

/-- One statement. -/
def execStatement (io : Io) : Statement → Io
  | .fallingEdgeCb id cb => io.mapInput id fun i => { i with fallingEdgeCb := cb }
  | .fallingEdgeCtx id ctx => io.mapInput id fun i => { i with fallingEdgeCtx := ctx }
  | .risingEdgeCb id cb => io.mapInput id fun i => { i with risingEdgeCb := cb }
  | .risingEdgeCtx id ctx => io.mapInput id fun i => { i with risingEdgeCtx := ctx }
  | .tPulse id t => io.mapOutput id fun o => { o with tPulse := t }
  | .tOper id t => io.mapOutput id fun o => { o with tOper := t }
  | .mode id mode => io.mapOutput id fun o => { o with mode := mode }
  | .setOutput id action => io.mapOutput id fun o => setOutput o action
  | .msPulseHigh id ms => io.mapOutput id fun o => { o with msPulseHigh := ms }
  | .msPulseLow id ms => io.mapOutput id fun o => { o with msPulseLow := ms }

/-- The statements of the function an event calls. -/
def statements : IoEvent → List Statement
  | .tick _ => []
  | .registerInputCb id edge cb ctx =>
    match edge with
    | .falling => [.fallingEdgeCb id cb, .fallingEdgeCtx id ctx]
    | .rising => [.risingEdgeCb id cb, .risingEdgeCtx id ctx]
    | .both => [.fallingEdgeCb id cb, .risingEdgeCb id cb]
  | .setState id state => [.tPulse id 0, .tOper id 0, .mode id .set, .setOutput id state.action]
  | .toggle id => [.tOper id 0, .tPulse id 0, .mode id .set, .setOutput id .toggle]
  | .pulse id state ms =>
    [.tOper id (timerMs ms.toNat), .tPulse id 0, .mode id .pulse, .setOutput id state.action]
  | .blink id msHigh msLow ms =>
    [.tPulse id (timerMs msHigh.toNat), .tOper id (if 0 < ms then timerMs ms.toNat else 0),
      .mode id .blink, .setOutput id .high, .msPulseHigh id msHigh, .msPulseLow id msLow]

/-- The module's data and what is left of the call in progress. -/
structure IoMachine where
  io : Io
  left : List Statement

/-- What happens next. -/
inductive IoMicroEvent
  /-- `local_timers` interrupts, or a function is called: its first statement is executed. -/
  | event (e : IoEvent)
  /-- The next statement of the call in progress. -/
  | step

/-- **One micro-step.** The calls come one after the other, a tick at any time. -/
def ioMicroStep (m : IoMachine) : IoMicroEvent → Option IoMachine
  | .event (.tick pins) => some { m with io := (localTimers m.io pins).1 }
  | .event e =>
    match m.left, statements e with
    | [], st :: sts => some ⟨execStatement m.io st, sts⟩
    | _, _ => none
  | .step =>
    match m.left with
    | [] => none
    | st :: sts => some ⟨execStatement m.io st, sts⟩

/-- The callbacks called: only `local_timers` calls any. -/
def ioMicroCalls (m : IoMachine) : IoMicroEvent → List Call
  | .event (.tick pins) => (localTimers m.io pins).2
  | _ => []

/-- The data once the call in progress has returned. -/
def IoMachine.completed (m : IoMachine) : Io := m.left.foldl execStatement m.io

/-- The event is a tick of `local_timers`. -/
def IoEvent.isTick : IoEvent → Bool
  | .tick _ => true
  | _ => false

/-- The same between statements. -/
def IoMicroEvent.isTick : IoMicroEvent → Bool
  | .event e => e.isTick
  | .step => false

/-- The function called, or the tick. -/
def IoMicroEvent.event? : IoMicroEvent → Option IoEvent
  | .event e => some e
  | .step => none

/-- No tick falls inside a call. -/
def Uninterrupted (m : IoMachine) (e : IoMicroEvent) : Prop := e.isTick = true → m.left = []

/-! ## Whole functions -/

section Whole

variable {io io' : Io} {m m' : IoMachine} {e : IoEvent}

theorem mapInput_mapInput (io : Io) (id : InputId) (f g : Input → Input) :
    (io.mapInput id f).mapInput id g = io.mapInput id fun i => g (f i) := by
  simp [Io.mapInput]

theorem mapOutput_mapOutput (io : Io) (id : OutputId) (f g : Output → Output) :
    (io.mapOutput id f).mapOutput id g = io.mapOutput id fun o => g (f o) := by
  simp [Io.mapOutput]

/-- **The statements of a function make the function.** -/
theorem foldl_statements (io : Io) (h : e.isTick = false) :
    (statements e).foldl execStatement io = (ioEvent io e).1 := by
  cases e with
  | tick pins => cases h
  | registerInputCb id edge cb ctx =>
    cases edge <;>
      simp only [statements, List.foldl_cons, List.foldl_nil, execStatement, mapInput_mapInput] <;> rfl
  | setState id state =>
    simp only [statements, List.foldl_cons, List.foldl_nil, execStatement, mapOutput_mapOutput]
    rfl
  | toggle id =>
    simp only [statements, List.foldl_cons, List.foldl_nil, execStatement, mapOutput_mapOutput]
    rfl
  | pulse id state ms =>
    simp only [statements, List.foldl_cons, List.foldl_nil, execStatement, mapOutput_mapOutput]
    rfl
  | blink id msHigh msLow ms =>
    simp only [statements, List.foldl_cons, List.foldl_nil, execStatement, mapOutput_mapOutput]
    rfl

/-- Every function has a first statement. -/
theorem statements_ne_nil (h : e.isTick = false) : statements e ≠ [] := by
  cases e with
  | tick pins => cases h
  | registerInputCb id edge cb ctx => cases edge <;> exact List.cons_ne_nil _ _
  | _ => exact List.cons_ne_nil _ _

/-- A call begins where none is in progress, with its first statement. -/
theorem ioMicroStep_call (h : e.isTick = false) :
    ioMicroStep m (.event e) = some m' ↔
      m.left = [] ∧ ∃ st sts, statements e = st :: sts ∧ m' = ⟨execStatement m.io st, sts⟩ := by
  have hstep : ioMicroStep m (.event e) = match m.left, statements e with
      | [], st :: sts => some ⟨execStatement m.io st, sts⟩
      | _, _ => none := by
    cases e with
    | tick pins => cases h
    | _ => rfl
  rw [hstep]
  cases hl : m.left with
  | cons st sts => simp
  | nil =>
    cases hs : statements e with
    | nil => simp
    | cons st sts =>
      simp only [Option.some.injEq, true_and, List.cons.injEq]
      constructor
      · rintro rfl
        exact ⟨st, sts, ⟨rfl, rfl⟩, rfl⟩
      · rintro ⟨_, _, ⟨rfl, rfl⟩, rfl⟩
        rfl

theorem ioMicroStep_step :
    ioMicroStep m .step = some m' ↔
      ∃ st sts, m.left = st :: sts ∧ m' = ⟨execStatement m.io st, sts⟩ := by
  unfold ioMicroStep
  cases m.left with
  | nil => simp
  | cons st sts =>
    simp only [Option.some.injEq, List.cons.injEq]
    constructor
    · rintro rfl
      exact ⟨st, sts, ⟨rfl, rfl⟩, rfl⟩
    · rintro ⟨_, _, ⟨rfl, rfl⟩, rfl⟩
      rfl

theorem completed_of_left (h : m.left = []) : m.completed = m.io := by
  unfold IoMachine.completed
  rw [h, List.foldl_nil]

/-- A statement keeps what the call comes to. -/
theorem completed_step (hs : ioMicroStep m .step = some m') : m'.completed = m.completed := by
  obtain ⟨st, sts, hl, rfl⟩ := ioMicroStep_step.mp hs
  unfold IoMachine.completed
  rw [hl, List.foldl_cons]

/-- A call comes to what the function makes of the data. -/
theorem completed_call (h : e.isTick = false) (hs : ioMicroStep m (.event e) = some m') :
    m'.completed = (ioEvent m.io e).1 := by
  obtain ⟨-, st, sts, hst, rfl⟩ := (ioMicroStep_call h).mp hs
  rw [← foldl_statements m.io h, hst, List.foldl_cons]
  rfl

/-- The statements left, one after the other. -/
theorem run_steps (io : Io) (sts : List Statement) :
    run ioMicroStep ⟨io, sts⟩ (List.replicate sts.length .step) =
      some ⟨sts.foldl execStatement io, []⟩ := by
  induction sts generalizing io with
  | nil => rfl
  | cons st sts ih =>
    rw [List.length_cons, List.replicate_succ, run]
    exact ih (execStatement io st)

/-- **A run of whole functions and ticks** is a run of statements. -/
theorem run_refines {es : List IoEvent} : ∀ {io : Io}, run ioStep io es = some io' →
    ∃ ms, run ioMicroStep ⟨io, []⟩ ms = some ⟨io', []⟩ := by
  induction es with
  | nil =>
    intro io hr
    obtain rfl := Option.some.inj hr
    exact ⟨[], rfl⟩
  | cons e es ih =>
    intro io hr
    obtain ⟨io₁, hs, hr⟩ := run_cons.mp hr
    obtain rfl := Option.some.inj hs
    obtain ⟨ms, hms⟩ := ih hr
    by_cases h : e.isTick = true
    · cases e with
      | tick pins => exact ⟨.event (.tick pins) :: ms, run_cons.mpr ⟨_, rfl, hms⟩⟩
      | _ => cases h
    · rw [Bool.not_eq_true] at h
      obtain ⟨st, sts, hst⟩ := List.exists_cons_of_ne_nil (statements_ne_nil h)
      have hcall : ioMicroStep ⟨io, []⟩ (.event e) = some ⟨execStatement io st, sts⟩ :=
        (ioMicroStep_call h).mpr ⟨rfl, st, sts, hst, rfl⟩
      have hfold : sts.foldl execStatement (execStatement io st) = (ioEvent io e).1 := by
        rw [← foldl_statements io h, hst, List.foldl_cons]
      refine ⟨.event e :: (List.replicate sts.length .step ++ ms), run_cons.mpr ⟨_, hcall, ?_⟩⟩
      rw [run_append, run_steps, Option.bind_some, hfold, hms]

/-- The functions called and the ticks of a run of statements. -/
def whole (ms : List IoMicroEvent) : List IoEvent := ms.filterMap IoMicroEvent.event?

/-- **A run of statements** with no tick inside a call is one of whole functions. -/
theorem run_of_uninterrupted {ms : List IoMicroEvent} :
    ∀ {m : IoMachine}, Along ioMicroStep Uninterrupted m ms → run ioMicroStep m ms = some m' →
      run ioStep m.completed (whole ms) = some m'.completed := by
  induction ms with
  | nil =>
    intro m _ hr
    obtain rfl := Option.some.inj hr
    rfl
  | cons e ms ih =>
    intro m hC hr
    obtain ⟨m₁, hs, hr⟩ := run_cons.mp hr
    have hrest := ih (hC.2 m₁ hs) hr
    cases e with
    | step =>
      rw [← completed_step hs]
      exact hrest
    | event e =>
      refine run_cons.mpr ⟨m₁.completed, ?_, hrest⟩
      by_cases h : e.isTick = true
      · cases e with
        | tick pins =>
          have hl := hC.1 rfl
          obtain rfl := Option.some.inj hs
          rw [completed_of_left hl, completed_of_left (by exact hl)]
          rfl
        | _ => cases h
      · rw [Bool.not_eq_true] at h
        rw [completed_call h hs, completed_of_left ((ioMicroStep_call h).mp hs).1]
        rfl

end Whole

/-! ## One call -/

/-- The ticks of a run. -/
def microTicks (ms : List IoMicroEvent) : ℕ := ms.countP IoMicroEvent.isTick

/-- A call of the function from its first statement to its last, after which it returns; the ticks
that fall inside it stand between its statements. -/
structure Calls (io : Io) (e : IoEvent) (inside : List IoMicroEvent) (m : IoMachine) : Prop where
  command : e.isTick = false
  only : ∀ d ∈ inside, d = .step ∨ d.isTick = true
  runs : run ioMicroStep ⟨io, []⟩ (.event e :: (inside ++ [.step])) = some m
  returned : m.left = []

/-- **Inside a call** there are statements, which keep the property, and ticks, which count it down. -/
theorem run_inside {I : ℕ → IoMachine → Prop} {inside : List IoMicroEvent}
    (hstep : ∀ n m m', I n m → ioMicroStep m .step = some m' → I n m')
    (htick : ∀ n m pins, I n m → I (n - 1) ⟨(localTimers m.io pins).1, m.left⟩)
    (honly : ∀ d ∈ inside, d = .step ∨ d.isTick = true) {n : ℕ} {m m' : IoMachine} (hI : I n m)
    (hr : run ioMicroStep m inside = some m') : I (n - microTicks inside) m' := by
  induction inside generalizing m n with
  | nil =>
    obtain rfl := Option.some.inj hr
    exact hI
  | cons d ds ih =>
    obtain ⟨m₁, hs, hr₁⟩ := run_cons.mp hr
    obtain ⟨hd, hrest⟩ := List.forall_mem_cons.mp honly
    unfold microTicks at ih ⊢
    rw [List.countP_cons]
    rcases hd with rfl | h
    · exact ih hrest (hstep n m m₁ hI hs) hr₁
    · cases d with
      | step => cases h
      | event e =>
        cases e with
        | tick pins =>
          obtain rfl := Option.some.inj hs
          rw [if_pos h, Nat.add_comm, ← Nat.sub_sub]
          exact ih hrest (htick n m pins hI) hr₁
        | _ => cases h

theorem two_le_length_statements {e : IoEvent} (h : e.isTick = false) :
    2 ≤ (statements e).length := by
  cases e with
  | tick pins => cases h
  | registerInputCb id edge cb ctx => cases edge <;> simp [statements]
  | _ => simp [statements]

/-- Nothing need interrupt a call. -/
theorem calls_quiet (io : Io) {e : IoEvent} (h : e.isTick = false) :
    Calls io e (List.replicate ((statements e).length - 2) .step) ⟨(ioEvent io e).1, []⟩ where
  command := h
  only := fun d hd => .inl (List.eq_of_mem_replicate hd)
  runs := by
    have hlen := two_le_length_statements h
    have hfold := foldl_statements io h
    obtain ⟨st, sts, hst⟩ := List.exists_cons_of_ne_nil (statements_ne_nil h)
    rw [hst, List.length_cons] at hlen
    rw [hst, List.foldl_cons] at hfold
    refine run_cons.mpr ⟨_, (ioMicroStep_call h).mpr ⟨rfl, st, sts, hst, rfl⟩, ?_⟩
    have hsteps : List.replicate ((statements e).length - 2) IoMicroEvent.step ++ [.step] =
        List.replicate sts.length .step := by
      rw [← List.replicate_succ', hst, List.length_cons]
      congr 1
      omega
    rw [hsteps, run_steps, hfold]
  returned := rfl

/-- **A call with no tick inside** is the function. -/
theorem Calls.eq_of_quiet {io : Io} {e : IoEvent} {inside : List IoMicroEvent} {m : IoMachine}
    (h : Calls io e inside m) (hquiet : microTicks inside = 0) : m = ⟨(ioEvent io e).1, []⟩ := by
  have hsteps : ∀ d ∈ inside ++ [.step], d = .step := fun d hd => by
    rcases List.mem_append.mp hd with hd | hd
    · exact (h.only d hd).resolve_right (List.countP_eq_zero.mp hquiet d hd)
    · exact List.mem_singleton.mp hd
  obtain ⟨m₁, hcall, hr⟩ := run_cons.mp h.runs
  have hcompleted : m.completed = m₁.completed := by
    refine inv_of_run (I := fun m : IoMachine => m.completed = m₁.completed)
      (C := fun _ d => d = .step) ?_ rfl (along_of_mem fun d hd _ => hsteps d hd) hr
    rintro a _ b ha rfl hs
    exact (completed_step hs).trans ha
  rw [completed_call h.command hcall, completed_of_left h.returned] at hcompleted
  obtain ⟨io₁, left⟩ := m
  obtain rfl : left = [] := h.returned
  exact congrArg (IoMachine.mk · []) hcompleted

end Rastreo.Drv
