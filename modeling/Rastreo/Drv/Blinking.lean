import Rastreo.Lib.Run
import Rastreo.Lib.Wave
import Rastreo.Drv.IoStatements

/-!
# Pulses and blinking

An output is moved on by the ticks of `local_timers` and by the commands on it alone, also where the
ticks fall between the statements of other commands (`output_of_microRun`). So a pulse and a blink
are what a number of ticks makes of one output.

* `duration`: how many ticks a timer takes.
* **`pulses_iff`**: a pulse has its length, and the other outputs go on as without it, exactly when no
  tick falls inside the call: the timer is loaded before the output is set.
* `blinkStep_wave`: a blinking output is a square wave. The next duration is chosen by what
  `io_output_get_state` reads, which for the LEDs is the pin inverted: there the two durations are
  exchanged after the first phase.
* **`blinks_iff`**: when a blink has the durations it was given; **`blinks_call_iff`**: the same between
  the statements of other commands, and only where no tick falls inside the call.
-/

namespace Rastreo.Drv

open Rastreo.Lib

/-! ## One output -/

/-- The ticks until a timer loaded with `ms` expires. -/
def duration (ms : ℕ) : ℕ := max 1 (ms / 100)

theorem duration_pos (ms : ℕ) : 0 < duration ms := Nat.lt_of_lt_of_le Nat.one_pos (Nat.le_max_left _ _)

/-- `io_output_get_state` reads the pin inverted. -/
def OutputId.Inverted (id : OutputId) : Prop := id = .greenLed ∨ id = .amberLed

instance (id : OutputId) : Decidable id.Inverted := inferInstanceAs (Decidable (_ ∨ _))

/-- What `io_output_get_state` gives for a level of the pin. -/
def OutputId.read (id : OutputId) (pin : Bool) : OutputState :=
  if pin = decide id.Inverted then .low else .high

theorem ioOutputGetState_eq (io : Io) (id : OutputId) :
    ioOutputGetState io id = id.read (io.output id).pin := by
  unfold ioOutputGetState OutputId.read OutputId.Inverted
  cases id <;> cases (io.output _).pin <;> rfl

/-- What a tick makes of an output. -/
def tickOutput (id : OutputId) (o : Output) : Output :=
  outputTask (id.read o.pin) { o with tPulse := timerDec o.tPulse, tOper := timerDec o.tOper }

/-- The event is a command on the output. -/
def Commands (id : OutputId) : IoEvent → Prop
  | .tick _ | .registerInputCb _ _ _ _ => False
  | .setState j _ | .toggle j | .pulse j _ _ | .blink j _ _ _ => j = id

instance (id : OutputId) : (e : IoEvent) → Decidable (Commands id e)
  | .tick _ | .registerInputCb _ _ _ _ => .isFalse not_false
  | .setState _ _ | .toggle _ | .pulse _ _ _ | .blink _ _ _ _ => inferInstanceAs (Decidable (_ = _))

/-- The ticks of a run. -/
def ticks (es : List IoEvent) : ℕ := es.countP IoEvent.isTick

/-- A command on the output is called. -/
def IoMicroEvent.Commands (id : OutputId) : IoMicroEvent → Prop
  | .event e => Drv.Commands id e
  | .step => False

instance (id : OutputId) : (e : IoMicroEvent) → Decidable (e.Commands id)
  | .event e => inferInstanceAs (Decidable (Drv.Commands id e))
  | .step => .isFalse not_false

/-- The statement is about the output. -/
def Statement.On (id : OutputId) : Statement → Prop
  | .tPulse j _ | .tOper j _ | .mode j _ | .setOutput j _ | .msPulseHigh j _ | .msPulseLow j _ => j = id
  | .fallingEdgeCb _ _ | .fallingEdgeCtx _ _ | .risingEdgeCb _ _ | .risingEdgeCtx _ _ => False

section Events

variable {io io' : Io} {id : OutputId} {e : IoEvent} {es : List IoEvent}

theorem state_of_event (hrun : io.state = .running) : (ioEvent io e).1.state = .running := by
  cases e with
  | tick pins =>
    show (ioTasks (timersDec io) pins).1.state = _
    unfold ioTasks
    rw [show (timersDec io).state = _ from hrun]
    exact hrun
  | registerInputCb id edge cb ctx => exact hrun
  | _ => exact hrun

/-- **One event**, unless it is a command on the output. -/
theorem output_of_event (hrun : io.state = .running) (h : ¬ Commands id e) :
    (ioEvent io e).1.output id =
      if e.isTick then tickOutput id (io.output id) else io.output id := by
  cases e with
  | tick pins =>
    show (ioTasks (timersDec io) pins).1.output id = tickOutput id (io.output id)
    unfold ioTasks
    rw [show (timersDec io).state = _ from hrun]
    show outputTask (ioOutputGetState (timersDec io) id) _ = _
    rw [ioOutputGetState_eq]
    rfl
  | registerInputCb id edge cb ctx => rfl
  | _ => exact Function.update_of_ne (Ne.symm h) _ _

/-- **A run** without a command on the output. -/
theorem output_of_run (hrun : io.state = .running) (h : ∀ e ∈ es, ¬ Commands id e)
    (hr : run ioStep io es = some io') :
    io'.output id = (tickOutput id)^[ticks es] (io.output id) := by
  induction es generalizing io with
  | nil =>
    obtain rfl := Option.some.inj hr
    rfl
  | cons e es ih =>
    obtain ⟨io₁, hs, hr⟩ := run_cons.mp hr
    obtain rfl := Option.some.inj hs
    obtain ⟨he, hes⟩ := List.forall_mem_cons.mp h
    rw [ih (state_of_event hrun) hes hr, output_of_event hrun he]
    unfold ticks
    rw [List.countP_cons]
    split
    · rw [Function.iterate_succ_apply]
    · rfl

/-- What becomes of an output depends on nothing of the others. -/
theorem agree_of_event {io₁ : Io} (hs : io.state = io₁.state) (ho : io.output id = io₁.output id)
    (e : IoEvent) : (ioEvent io e).1.state = (ioEvent io₁ e).1.state ∧
      (ioEvent io e).1.output id = (ioEvent io₁ e).1.output id := by
  have hcommand : ∀ (j : OutputId) (o o' : Output), (io.output j = io₁.output j → o = o') →
      Function.update io.output j o id = Function.update io₁.output j o' id := by
    intro j o o' h
    by_cases hj : id = j
    · subst hj
      rw [Function.update_self, Function.update_self, h ho]
    · rw [Function.update_of_ne hj, Function.update_of_ne hj, ho]
  cases e with
  | tick pins =>
    show (ioTasks (timersDec io) pins).1.state = (ioTasks (timersDec io₁) pins).1.state ∧
      (ioTasks (timersDec io) pins).1.output id = (ioTasks (timersDec io₁) pins).1.output id
    have hdec : (timersDec io).output id = (timersDec io₁).output id := by
      simp only [timersDec, ho]
    unfold ioTasks
    rw [show (timersDec io).state = io₁.state from hs, show (timersDec io₁).state = io₁.state from rfl]
    cases io₁.state with
    | init => exact ⟨rfl, hdec⟩
    | running =>
      refine ⟨hs, ?_⟩
      show outputTask (ioOutputGetState (timersDec io) id) _ =
        outputTask (ioOutputGetState (timersDec io₁) id) _
      rw [ioOutputGetState_eq, ioOutputGetState_eq, hdec]
    | error => exact ⟨hs, hdec⟩
  | registerInputCb j edge cb ctx => exact ⟨hs, ho⟩
  | setState j s => exact ⟨hs, hcommand j _ _ fun h => by rw [h]⟩
  | toggle j => exact ⟨hs, hcommand j _ _ fun h => by rw [h]⟩
  | pulse j s ms => exact ⟨hs, hcommand j _ _ fun h => by rw [h]⟩
  | blink j high low ms => exact ⟨hs, hcommand j _ _ fun h => by rw [h]⟩

end Events

section Statements

variable {io : Io} {id : OutputId} {m m' : IoMachine}

theorem state_execStatement (io : Io) (st : Statement) : (execStatement io st).state = io.state := by
  cases st <;> rfl

/-- A statement changes one output, or none. -/
theorem execStatement_cases (st : Statement) :
    (∃ j f, (∀ io : Io, execStatement io st = io.mapOutput j f) ∧ ∀ id, st.On id ↔ j = id) ∨
      ((∀ io : Io, (execStatement io st).output = io.output) ∧ ∀ id, ¬ st.On id) := by
  cases st with
  | tPulse j t => exact .inl ⟨j, fun o => { o with tPulse := t }, fun _ => rfl, fun _ => Iff.rfl⟩
  | tOper j t => exact .inl ⟨j, fun o => { o with tOper := t }, fun _ => rfl, fun _ => Iff.rfl⟩
  | mode j mode => exact .inl ⟨j, fun o => { o with mode := mode }, fun _ => rfl, fun _ => Iff.rfl⟩
  | setOutput j action =>
    exact .inl ⟨j, fun o => setOutput o action, fun _ => rfl, fun _ => Iff.rfl⟩
  | msPulseHigh j ms =>
    exact .inl ⟨j, fun o => { o with msPulseHigh := ms }, fun _ => rfl, fun _ => Iff.rfl⟩
  | msPulseLow j ms =>
    exact .inl ⟨j, fun o => { o with msPulseLow := ms }, fun _ => rfl, fun _ => Iff.rfl⟩
  | _ => exact .inr ⟨fun _ => rfl, fun _ => not_false⟩

theorem output_execStatement {st : Statement} (h : ¬ st.On id) :
    (execStatement io st).output id = io.output id := by
  rcases execStatement_cases st with ⟨j, f, hexec, hon⟩ | ⟨hexec, -⟩
  · rw [hexec]
    exact Function.update_of_ne (fun hj => h ((hon id).mpr hj.symm)) _ _
  · rw [hexec]

/-- The statements of a function are about the output it is called for. -/
theorem commands_of_on {e : IoEvent} {st : Statement} (hst : st ∈ statements e) (h : st.On id) :
    Commands id e := by
  cases e with
  | tick pins => cases hst
  | registerInputCb i edge cb ctx =>
    cases edge <;> simp only [statements, List.mem_cons, List.not_mem_nil, or_false] at hst <;>
      rcases hst with rfl | rfl <;> cases h
  | setState j state | toggle j | pulse j state ms =>
    simp only [statements, List.mem_cons, List.not_mem_nil, or_false] at hst
    rcases hst with rfl | rfl | rfl | rfl <;> exact h
  | blink j high low ms =>
    simp only [statements, List.mem_cons, List.not_mem_nil, or_false] at hst
    rcases hst with rfl | rfl | rfl | rfl | rfl | rfl <;> exact h

/-- No statement on the output is left, in a running module. -/
structure Apart (id : OutputId) (m : IoMachine) : Prop where
  state : m.io.state = .running
  left : ∀ st ∈ m.left, ¬ st.On id

theorem apart_of_returned (hrun : m.io.state = .running) (hl : m.left = []) : Apart id m :=
  ⟨hrun, by rw [hl]; simp⟩

/-- **One micro-step**, unless it calls a command on the output. -/
theorem output_of_microStep {e : IoMicroEvent} (h : Apart id m) (he : ¬ e.Commands id)
    (hs : ioMicroStep m e = some m') : Apart id m' ∧
      m'.io.output id = if e.isTick then tickOutput id (m.io.output id) else m.io.output id := by
  cases e with
  | step =>
    obtain ⟨st, sts, hl, rfl⟩ := ioMicroStep_step.mp hs
    obtain ⟨hst, hsts⟩ := List.forall_mem_cons.mp (hl ▸ h.left)
    exact ⟨⟨(state_execStatement _ _).trans h.state, hsts⟩, output_execStatement hst⟩
  | event e =>
    by_cases htick : e.isTick = true
    · cases e with
      | tick pins =>
        obtain rfl := Option.some.inj hs
        exact ⟨⟨@state_of_event m.io (.tick pins) h.state, h.left⟩,
          @output_of_event m.io id (.tick pins) h.state he⟩
      | _ => cases htick
    · rw [Bool.not_eq_true] at htick
      obtain ⟨-, st, sts, hst, rfl⟩ := (ioMicroStep_call htick).mp hs
      have hoff : ∀ st' ∈ st :: sts, ¬ st'.On id := fun st' hmem hon =>
        he (commands_of_on (by rw [hst]; exact hmem) hon)
      obtain ⟨h₁, hrest⟩ := List.forall_mem_cons.mp hoff
      refine ⟨⟨(state_execStatement _ _).trans h.state, hrest⟩, ?_⟩
      rw [output_execStatement h₁, if_neg (by rw [IoMicroEvent.isTick, htick]; decide)]

/-- **A run of statements** without a command on the output. -/
theorem output_of_microRun {es : List IoMicroEvent} (h : Apart id m)
    (hes : ∀ e ∈ es, ¬ e.Commands id) (hr : run ioMicroStep m es = some m') :
    m'.io.output id = (tickOutput id)^[microTicks es] (m.io.output id) := by
  induction es generalizing m with
  | nil =>
    obtain rfl := Option.some.inj hr
    rfl
  | cons e es ih =>
    obtain ⟨m₁, hs, hr⟩ := run_cons.mp hr
    obtain ⟨he, hes⟩ := List.forall_mem_cons.mp hes
    obtain ⟨h₁, hout⟩ := output_of_microStep h he hs
    rw [ih h₁ hes hr, hout]
    unfold microTicks
    rw [List.countP_cons]
    split
    · rw [Function.iterate_succ_apply]
    · rfl

/-- Two machines with the same call in progress agree on an output. -/
structure Agree (id : OutputId) (m m₁ : IoMachine) : Prop where
  left : m.left = m₁.left
  state : m.io.state = m₁.io.state
  output : m.io.output id = m₁.io.output id

/-- They go on agreeing: what becomes of an output depends on nothing of the others. -/
theorem Agree.step {m₁ m₁' : IoMachine} {e : IoMicroEvent} (h : Agree id m m₁)
    (hs : ioMicroStep m e = some m') (hs₁ : ioMicroStep m₁ e = some m₁') : Agree id m' m₁' := by
  have hexec : ∀ st, (execStatement m.io st).output id = (execStatement m₁.io st).output id := by
    intro st
    rcases execStatement_cases st with ⟨j, f, hexec, -⟩ | ⟨hexec, -⟩
    · rw [hexec, hexec]
      unfold Io.mapOutput
      by_cases hj : id = j
      · subst hj
        simp [h.output]
      · simp [Function.update_of_ne hj, h.output]
    · rw [hexec, hexec, h.output]
  have hstate : ∀ st, (execStatement m.io st).state = (execStatement m₁.io st).state := fun st => by
    rw [state_execStatement, state_execStatement, h.state]
  cases e with
  | step =>
    obtain ⟨st, sts, hl, rfl⟩ := ioMicroStep_step.mp hs
    obtain ⟨st₁, sts₁, hl₁, rfl⟩ := ioMicroStep_step.mp hs₁
    obtain ⟨rfl, rfl⟩ := List.cons.inj (hl.symm.trans (h.left.trans hl₁))
    exact ⟨rfl, hstate st, hexec st⟩
  | event e =>
    by_cases htick : e.isTick = true
    · cases e with
      | tick pins =>
        obtain rfl := Option.some.inj hs
        obtain rfl := Option.some.inj hs₁
        obtain ⟨h₁, h₂⟩ := agree_of_event h.state h.output (.tick pins)
        exact ⟨h.left, h₁, h₂⟩
      | _ => cases htick
    · rw [Bool.not_eq_true] at htick
      obtain ⟨-, st, sts, hst, rfl⟩ := (ioMicroStep_call htick).mp hs
      obtain ⟨-, st₁, sts₁, hst₁, rfl⟩ := (ioMicroStep_call htick).mp hs₁
      obtain ⟨rfl, rfl⟩ := List.cons.inj (hst.symm.trans hst₁)
      exact ⟨rfl, hstate st, hexec st⟩

end Statements

/-! ## Timers -/

/-- The ticks a running timer still takes. -/
def ticksLeft (t : ℕ) : ℕ := max 1 (t - 1)

theorem ticksLeft_timerMs (ms : ℕ) : ticksLeft (timerMs ms) = duration ms := rfl

/-- The tick with which a timer expires. -/
theorem timerExpired_dec {t : ℕ} (ht : 0 < t) :
    timerExpired (timerDec t) = decide (ticksLeft t ≤ 1) := by
  unfold timerExpired timerDec ticksLeft
  rw [Bool.eq_iff_iff, beq_iff_eq, decide_eq_true_iff]
  split <;> omega

/-- One before it. -/
theorem ticksLeft_dec {t : ℕ} (h : 1 < ticksLeft t) :
    0 < timerDec t ∧ ticksLeft (timerDec t) = ticksLeft t - 1 := by
  unfold ticksLeft timerDec at *
  split <;> omega

/-- The module after its first tick. -/
def ioRunning : Io := (localTimers (ioInitialize true) fun _ => false).1

/-- A tick with every input low. -/
def tickLow : IoEvent := .tick fun _ => false

/-- Any number of ticks can come with no command. -/
theorem exists_ticks (io : Io) (id : OutputId) (n : ℕ) :
    ∃ es io', run ioStep io es = some io' ∧ (∀ e ∈ es, ¬ Commands id e) ∧ ticks es = n := by
  induction n generalizing io with
  | zero => exact ⟨[], io, rfl, by simp, rfl⟩
  | succ n ih =>
    obtain ⟨es, io', hr, hes, hn⟩ := ih (ioEvent io tickLow).1
    refine ⟨tickLow :: es, io', run_cons.mpr ⟨_, rfl, hr⟩,
      List.forall_mem_cons.mpr ⟨not_false, hes⟩, ?_⟩
    unfold ticks at hn ⊢
    rw [List.countP_cons, hn]
    rfl

/-- The same between statements. -/
theorem exists_microTicks (m : IoMachine) (id : OutputId) (n : ℕ) :
    ∃ es m', run ioMicroStep m es = some m' ∧ (∀ e ∈ es, ¬ e.Commands id) ∧ microTicks es = n := by
  induction n generalizing m with
  | zero => exact ⟨[], m, rfl, by simp, rfl⟩
  | succ n ih =>
    obtain ⟨es, m', hr, hes, hn⟩ := ih ⟨(localTimers m.io fun _ => false).1, m.left⟩
    refine ⟨.event tickLow :: es, m', run_cons.mpr ⟨_, rfl, hr⟩,
      List.forall_mem_cons.mpr ⟨not_false, hes⟩, ?_⟩
    unfold microTicks at hn ⊢
    rw [List.countP_cons, hn]
    rfl

/-! ## Pulses -/

/-- The level a command gives the pin. -/
def OutputState.level : OutputState → Bool
  | .low => false
  | .high => true

section Pulses

variable {id : OutputId} {o : Output} {io io' io₁ : Io} {es : List IoEvent}

/-- An output whose timers are off stays as it is. -/
theorem tickOutput_off (hp : o.tPulse = 0) (ho : o.tOper = 0) : tickOutput id o = o := by
  unfold tickOutput outputTask
  cases o
  simp_all [timerDec, timerExpired]

/-- While the pulse timer does not expire, it is for the operating timer. -/
theorem tickOutput_of_not_expired (h : timerExpired (timerDec o.tPulse) = false) :
    tickOutput id o = if timerExpired (timerDec o.tOper) then
      { o with pin := !o.pin, tPulse := 0, tOper := 0, mode := .set }
    else { o with tPulse := timerDec o.tPulse, tOper := timerDec o.tOper } := by
  unfold tickOutput outputTask
  dsimp only
  rw [h, if_neg Bool.false_ne_true]
  rfl

theorem tickOutput_pulsing (hp : o.tPulse = 0) (ho : 0 < o.tOper) :
    tickOutput id o = if ticksLeft o.tOper ≤ 1 then
      { o with pin := !o.pin, tPulse := 0, tOper := 0, mode := .set }
    else { o with tOper := timerDec o.tOper } := by
  rw [tickOutput_of_not_expired (by rw [hp]; rfl), timerExpired_dec ho]
  by_cases h : ticksLeft o.tOper ≤ 1
  · rw [decide_eq_true h, if_pos rfl, if_pos h]
  · rw [decide_eq_false h, if_neg Bool.false_ne_true, if_neg h, hp]
    rfl

/-- The level changes once. -/
theorem pin_pulsing (hp : o.tPulse = 0) (ho : 0 < o.tOper) (n : ℕ) :
    ((tickOutput id)^[n] o).pin = if n < ticksLeft o.tOper then o.pin else !o.pin := by
  induction n generalizing o with
  | zero => exact (if_pos (Nat.lt_of_lt_of_le Nat.one_pos (Nat.le_max_left _ _))).symm
  | succ n ih =>
    rw [Function.iterate_succ_apply, tickOutput_pulsing hp ho]
    by_cases h : ticksLeft o.tOper ≤ 1
    · rw [if_pos h, if_neg (by omega), Function.iterate_fixed (tickOutput_off rfl rfl)]
    · obtain ⟨hpos, hleft⟩ := ticksLeft_dec (Nat.not_le.mp h)
      rw [if_neg h, @ih { o with tOper := timerDec o.tOper } hp hpos]
      dsimp only
      rw [hleft]
      exact if_congr (by omega) rfl rfl

/-! ### The operating timer -/

theorem tOper_tickOutput (id : OutputId) (o : Output) : (tickOutput id o).tOper =
    if timerExpired (timerDec o.tOper) then 0 else timerDec o.tOper := by
  unfold tickOutput outputTask
  cases timerExpired (timerDec o.tPulse) <;> cases o.mode <;>
    cases hoper : timerExpired (timerDec o.tOper) <;> simp [setOutput, hoper]

theorem tPulse_tickOutput (id : OutputId) (h : o.tPulse = 0) : (tickOutput id o).tPulse = 0 := by
  rw [tickOutput_of_not_expired (by rw [h]; rfl)]
  split
  · rfl
  · dsimp only
    rw [h]
    rfl

/-- The operating timer is off, or it expires within `n` ticks. -/
def Output.Due (o : Output) (n : ℕ) : Prop := o.tOper = 0 ∨ 0 < o.tOper ∧ ticksLeft o.tOper ≤ n

/-- A tick brings it nearer. -/
theorem Output.Due.tick {n : ℕ} (h : o.Due n) : (tickOutput id o).Due (n - 1) := by
  unfold Output.Due at h ⊢
  rw [tOper_tickOutput]
  rcases h with h | ⟨hpos, hle⟩
  · left
    rw [h]
    rfl
  · rw [timerExpired_dec hpos]
    by_cases hone : ticksLeft o.tOper ≤ 1
    · rw [decide_eq_true hone, if_pos rfl]
      exact .inl rfl
    · obtain ⟨hpos', hleft⟩ := ticksLeft_dec (Nat.not_le.mp hone)
      rw [decide_eq_false hone, if_neg Bool.false_ne_true, hleft]
      exact .inr ⟨hpos', by omega⟩

/-! ### The call -/

/-- **The output pulses** once the call has returned with `m`: until the next command on it, it is in
the state for the pulse's length in ticks and in the other one after that. Every other output is
what it is without the call. -/
structure Pulses (io : Io) (id : OutputId) (s : OutputState) (ms : UInt32)
    (inside : List IoMicroEvent) (m : IoMachine) : Prop where
  level : ∀ es m', (∀ e ∈ es, ¬ e.Commands id) → run ioMicroStep m es = some m' →
    (m'.io.output id).pin = if microTicks es < duration ms.toNat then s.level else !s.level
  others : ∀ j ≠ id, ∀ es m' m₁, run ioMicroStep m es = some m' →
    run ioMicroStep ⟨io, []⟩ (inside.filter IoMicroEvent.isTick ++ es) = some m₁ →
    m'.io.output j = m₁.io.output j

/-- The call is past the statement that loads the timer. -/
structure PulseCall (id : OutputId) (s : OutputState) (n : ℕ) (m : IoMachine) : Prop where
  state : m.io.state = .running
  left : m.left <:+ [.tPulse id 0, .mode id .pulse, .setOutput id s.action]
  tPulse : m.left.length ≤ 2 → (m.io.output id).tPulse = 0
  due : (m.io.output id).Due n

variable {s : OutputState} {n : ℕ} {m m' : IoMachine}

/-- Its next statement. -/
theorem PulseCall.step (h : PulseCall id s n m) (hs : ioMicroStep m .step = some m') :
    PulseCall id s n m' := by
  obtain ⟨st, sts, hl, rfl⟩ := ioMicroStep_step.mp hs
  have hleft := h.left
  have hsetOutput : (setOutput (m.io.output id) s.action).tPulse = (m.io.output id).tPulse ∧
      (setOutput (m.io.output id) s.action).tOper = (m.io.output id).tOper := by
    cases s <;> exact ⟨rfl, rfl⟩
  rw [hl] at hleft
  simp only [List.suffix_cons_iff, List.suffix_nil, List.cons.injEq, reduceCtorEq, or_false]
    at hleft
  refine ⟨(state_execStatement _ _).trans h.state,
    (List.suffix_cons st sts).trans (hl ▸ h.left), fun hlen => ?_, ?_⟩
  · rcases hleft with ⟨rfl, rfl⟩ | ⟨rfl, rfl⟩ | ⟨rfl, rfl⟩
    · simp [execStatement, Io.mapOutput]
    · simpa [execStatement, Io.mapOutput] using h.tPulse (by simp [hl])
    · simpa [execStatement, Io.mapOutput, hsetOutput] using h.tPulse (by simp [hl])
  · have hkeep : ((execStatement m.io st).output id).tOper = (m.io.output id).tOper := by
      rcases hleft with ⟨rfl, rfl⟩ | ⟨rfl, rfl⟩ | ⟨rfl, rfl⟩ <;>
        simp [execStatement, Io.mapOutput, hsetOutput]
    unfold Output.Due
    rw [hkeep]
    exact h.due

/-- A tick inside it. -/
theorem PulseCall.tick (h : PulseCall id s n m) (pins : InputId → Bool) :
    PulseCall id s (n - 1) ⟨(localTimers m.io pins).1, m.left⟩ := by
  have hout : (localTimers m.io pins).1.output id = tickOutput id (m.io.output id) :=
    @output_of_event m.io id (.tick pins) h.state not_false
  refine ⟨@state_of_event m.io (.tick pins) h.state, h.left, fun hlen => ?_, ?_⟩
  · rw [hout]
    exact tPulse_tickOutput id (h.tPulse hlen)
  · rw [hout]
    exact h.due.tick

/-- **What an interrupted call leaves**: the output in the state, and its timer short by the ticks that
fell inside. -/
theorem Calls.pulse {io : Io} {ms : UInt32} {inside : List IoMicroEvent}
    (h : Calls io (.pulse id s ms) inside m) (hrun : io.state = .running) :
    m.io.state = .running ∧ (m.io.output id).pin = s.level ∧ (m.io.output id).tPulse = 0 ∧
      (m.io.output id).Due (duration ms.toNat - microTicks inside) := by
  obtain ⟨m₁, hcall, hr⟩ := run_cons.mp h.runs
  obtain ⟨-, st, sts, hst, rfl⟩ := (ioMicroStep_call h.command).mp hcall
  obtain ⟨rfl, rfl⟩ := List.cons.inj hst
  have hstart : PulseCall id s (duration ms.toNat) ⟨execStatement io (.tOper id (timerMs ms.toNat)),
      [.tPulse id 0, .mode id .pulse, .setOutput id s.action]⟩ := by
    refine ⟨hrun, List.suffix_rfl, fun hlen => absurd hlen (by simp), ?_⟩
    right
    simp only [execStatement, Io.mapOutput, Function.update_self]
    exact ⟨Nat.succ_pos _, (ticksLeft_timerMs _).le⟩
  rw [run_append, Option.bind_eq_some_iff] at hr
  obtain ⟨m₀, hinside, hlast⟩ := hr
  have hend := run_inside (I := PulseCall id s) (fun _ _ _ h hs => h.step hs)
    (fun _ _ pins h => h.tick pins) h.only hstart hinside
  obtain ⟨m', hs, hnil⟩ := run_cons.mp hlast
  obtain rfl := Option.some.inj hnil
  have hfinal := hend.step hs
  refine ⟨hfinal.state, ?_, hfinal.tPulse (by rw [h.returned]; simp), hfinal.due⟩
  -- the last statement sets the output
  obtain ⟨st, sts, hl, rfl⟩ := ioMicroStep_step.mp hs
  obtain rfl : sts = [] := h.returned
  have hleft := hend.left
  rw [hl] at hleft
  simp only [List.suffix_cons_iff, List.suffix_nil, List.cons.injEq, reduceCtorEq, or_false,
    and_false, false_or, and_true] at hleft
  obtain rfl := hleft
  simp only [execStatement, Io.mapOutput, Function.update_self]
  cases s <;> rfl

/-- **A pulse has its length in ticks, whatever is called for the other outputs, and every other output
is what it is without it**, exactly when no tick falls inside the call. -/
theorem pulses_iff {io : Io} {ms : UInt32} {inside : List IoMicroEvent} (hrun : io.state = .running)
    (hcall : Calls io (.pulse id s ms) inside m) :
    Pulses io id s ms inside m ↔ microTicks inside = 0 := by
  constructor
  · intro h
    by_contra hticks
    obtain ⟨hrun', hpin, hoff, hdue⟩ := hcall.pulse hrun
    have hduration := duration_pos ms.toNat
    -- the level after `k` ticks and no command
    have hlevel : ∀ k, ((tickOutput id)^[k] (m.io.output id)).pin =
        if k < duration ms.toNat then s.level else !s.level := by
      intro k
      obtain ⟨es, m', hr, hes, rfl⟩ := exists_microTicks m id k
      rw [← output_of_microRun (apart_of_returned hrun' hcall.returned) hes hr]
      exact h.level es m' hes hr
    rcases hdue with hzero | ⟨hpos, hleft⟩
    · -- the timer is off: the output stays
      have hstays := hlevel (duration ms.toNat)
      rw [Function.iterate_fixed (tickOutput_off hoff hzero), hpin, if_neg (Nat.lt_irrefl _)] at hstays
      cases s <;> cases hstays
    · -- the timer expires too early
      have hearly := hlevel (ticksLeft (m.io.output id).tOper)
      rw [pin_pulsing hoff hpos, if_neg (Nat.lt_irrefl _), hpin, if_pos (by omega)] at hearly
      cases s <;> cases hearly
  · intro hquiet
    have hm := hcall.eq_of_quiet hquiet
    obtain ⟨hrun', hpin, hoff, -⟩ := hcall.pulse hrun
    have hoper : (m.io.output id).tOper = timerMs ms.toNat := by
      rw [hm]
      simp only [ioEvent, ioOutputPulse, Function.update_self]
      cases s <;> rfl
    constructor
    · intro es m' hes hr
      rw [output_of_microRun (apart_of_returned hrun' hcall.returned) hes hr,
        pin_pulsing hoff (by rw [hoper]; exact Nat.succ_pos _), hpin, hoper, ticksLeft_timerMs]
    · intro j hj es m' m₁ hr hr₁
      have hfilter : inside.filter IoMicroEvent.isTick = [] :=
        List.filter_eq_nil_iff.mpr (List.countP_eq_zero.mp hquiet)
      rw [hfilter, List.nil_append] at hr₁
      have hagree : Agree j m ⟨io, []⟩ := by
        rw [hm]
        exact ⟨rfl, rfl, Function.update_of_ne hj _ _⟩
      refine (rel_of_runs (E := Eq) (R := Agree j) ?_ hagree (List.forall₂_same.mpr fun _ _ => rfl)
        hr hr₁).output
      rintro a b e _ a' b' hab rfl ha hb
      exact hab.step ha hb

/-- A call for the power pin that nothing interrupts. -/
theorem pulses_power : Pulses ioRunning .simcomPower .high 250 [.step, .step]
    ⟨ioOutputPulse ioRunning .simcomPower .high 250, []⟩ :=
  (pulses_iff rfl (calls_quiet ioRunning (e := .pulse .simcomPower .high 250) rfl)).mpr rfl

/-- 100 ms, and a tick before the output is set: it is never set back. -/
theorem not_pulses : ¬ ∀ (io : Io) (id : OutputId) (s : OutputState) (ms : UInt32)
    (inside : List IoMicroEvent) (m : IoMachine), io.state = .running →
      Calls io (.pulse id s ms) inside m → Pulses io id s ms inside m := by
  intro hall
  have hcall : ∃ m, Calls ioRunning (.pulse .simcomPower .high 100)
      [.step, .step, .event tickLow] m ∧
        (run ioMicroStep m [.event tickLow]).map (fun m => (m.io.output .simcomPower).pin) =
          some true := by
    refine ⟨_, ⟨rfl, ?_, rfl, rfl⟩, by decide +kernel⟩
    intro d hd
    simp only [List.mem_cons, List.not_mem_nil, or_false] at hd
    rcases hd with rfl | rfl | rfl
    · exact .inl rfl
    · exact .inl rfl
    · exact .inr rfl
  obtain ⟨m, hcall, hr⟩ := hcall
  obtain ⟨m', hr, hpin⟩ := Option.map_eq_some_iff.mp hr
  have hlow := (hall _ _ _ _ _ m rfl hcall).level _ m' (by decide) hr
  rw [hpin] at hlow
  exact absurd hlow (by decide)

end Pulses

/-! ## Blinking -/

/-- What the new level lasts that follows a toggle. -/
def blinkDuration (id : OutputId) (msHigh msLow : UInt16) (level : Bool) : ℕ :=
  duration (if level = decide id.Inverted then msLow else msHigh).toNat

/-- The operating time is not over for another `n` ticks. -/
def Output.Operates (o : Output) (n : ℕ) : Prop := o.tOper = 0 ∨ n < ticksLeft o.tOper

section Blinking

variable {id : OutputId} {o o' : Output}

/-- One tick of a blinking output is one of a square wave. -/
structure BlinkStep (id : OutputId) (o o' : Output) : Prop where
  mode : o'.mode = .blink
  tPulse : 0 < o'.tPulse
  msPulseHigh : o'.msPulseHigh = o.msPulseHigh
  msPulseLow : o'.msPulseLow = o.msPulseLow
  tOper : o'.tOper = timerDec o.tOper
  wave : (o'.pin, ticksLeft o'.tPulse) =
    waveStep (blinkDuration id o.msPulseHigh o.msPulseLow) (o.pin, ticksLeft o.tPulse)

theorem timerExpired_operates (h : o.Operates 1) : timerExpired (timerDec o.tOper) = false := by
  rcases h with h | h
  · rw [h]
    rfl
  · have hpos : 0 < o.tOper := by
      unfold ticksLeft at h
      omega
    rw [timerExpired_dec hpos, decide_eq_false (by omega)]

theorem Output.Operates.tick {n : ℕ} (h : o.Operates (n + 1)) (ho : o'.tOper = timerDec o.tOper) :
    o'.Operates n := by
  rcases h with h | h
  · left
    rw [ho, h]
    rfl
  · obtain ⟨-, hleft⟩ := ticksLeft_dec (show 1 < ticksLeft o.tOper by omega)
    right
    rw [ho, hleft]
    omega

theorem blinkStep_wave (hm : o.mode = .blink) (hp : 0 < o.tPulse) (ho : o.Operates 1) :
    BlinkStep id o (tickOutput id o) := by
  have hoff := timerExpired_operates ho
  by_cases h : ticksLeft o.tPulse ≤ 1
  · have htick : tickOutput id o = { o with
        tPulse := timerMs (if id.read o.pin = .high then o.msPulseLow else o.msPulseHigh).toNat
        tOper := timerDec o.tOper
        pin := !o.pin } := by
      simp [tickOutput, outputTask, timerExpired_dec hp, h, hm, setOutput, hoff]
    rw [htick]
    refine ⟨hm, Nat.succ_pos _, rfl, rfl, rfl, ?_⟩
    -- the new level reads high when it is the inverse of what is read
    have hread : (id.read o.pin = .high) = ((!o.pin) = decide id.Inverted) := by
      unfold OutputId.read
      cases o.pin <;> cases decide id.Inverted <;> simp
    rw [waveStep, if_pos h, ticksLeft_timerMs, blinkDuration]
    simp only [hread]
  · rw [tickOutput_of_not_expired (by rw [timerExpired_dec hp, decide_eq_false h]), hoff,
      if_neg Bool.false_ne_true]
    obtain ⟨hpos, hleft⟩ := ticksLeft_dec (Nat.not_le.mp h)
    refine ⟨hm, hpos, rfl, rfl, rfl, ?_⟩
    rw [waveStep, if_neg h, hleft]

/-- **While it operates**, a blinking output is a square wave. -/
theorem pin_blinking {n : ℕ} (hm : o.mode = .blink) (hp : 0 < o.tPulse) (ho : o.Operates n) :
    ((tickOutput id)^[n] o).pin =
      ((waveStep (blinkDuration id o.msPulseHigh o.msPulseLow))^[n] (o.pin, ticksLeft o.tPulse)).1 := by
  induction n generalizing o with
  | zero => rfl
  | succ n ih =>
    have hone : o.Operates 1 := ho.imp_right fun h => by omega
    obtain ⟨hm', hp', hhigh, hlow, hoper, hwave⟩ := @blinkStep_wave id o hm hp hone
    rw [Function.iterate_succ_apply, Function.iterate_succ_apply, ih hm' hp' (ho.tick hoper), hhigh,
      hlow, hwave]

/-! ### The first phase, and the rest -/

section Phases

variable {h l n : ℕ}

/-- The two durations exchanged after the first phase. -/
def exchanged (h l : ℕ) (level : Bool) : ℕ := if level then l else h

/-- Up to the end of the first phases nothing is seen of it. -/
theorem exchanged_agrees (hh : 0 < h) (hn : n < h + min h l) :
    ((waveStep (exchanged h l))^[n] (true, h)).1 = decide (n % (h + l) < h) := by
  have hlt : n < h + l := by omega
  rw [Nat.mod_eq_of_lt hlt]
  by_cases hfirst : n < h
  · rw [waveStep_before hfirst, decide_eq_true hfirst]
  · obtain ⟨k, rfl⟩ := Nat.exists_eq_add_of_le (Nat.not_lt.mp hfirst)
    rw [Nat.add_comm, Function.iterate_add_apply, waveStep_change hh, waveStep_before,
      decide_eq_false (by omega)]
    · rfl
    · show k < h
      omega

/-- There the levels differ. -/
theorem exchanged_differs (hh : 0 < h) (hne : h ≠ l) :
    ((waveStep (exchanged h l))^[h + min h l] (true, h)).1 ≠
      decide ((h + min h l) % (h + l) < h) := by
  have hsecond : (!true, exchanged h l !true) = (false, h) := rfl
  rw [Nat.add_comm h (min h l), Function.iterate_add_apply, waveStep_change hh, hsecond]
  rcases Nat.lt_or_gt_of_ne hne with hlt | hlt
  · -- the low phase is over too early
    have hchange : (waveStep (exchanged h l))^[h] (false, h) = (true, l) := waveStep_change hh
    rw [Nat.min_eq_left hlt.le, hchange, Nat.mod_eq_of_lt (by omega), decide_eq_false (by omega)]
    exact Bool.false_ne_true.symm
  · rw [Nat.min_eq_right hlt.le, waveStep_before hlt, Nat.add_comm l h, Nat.mod_self,
      decide_eq_true hh]
    exact Bool.false_ne_true

end Phases

/-! ### The command -/

/-- **The output blinks**: it starts high, and until the operating time is over or the next command
on it, the high and the low phases have the durations given. The other commands are whole. -/
def Blinks (io : Io) (id : OutputId) (msHigh msLow : UInt16) (ms : UInt32) : Prop :=
  ∀ es io', (∀ e ∈ es, ¬ Commands id e) → (ms = 0 ∨ ticks es < duration ms.toNat) →
    run ioStep (ioOutputBlink io id msHigh msLow ms) es = some io' →
    (io'.output id).pin = decide (ticks es % (duration msHigh.toNat + duration msLow.toNat) <
      duration msHigh.toNat)

/-- The same between the statements of other commands, from the return of the call on. -/
def BlinksFrom (m : IoMachine) (id : OutputId) (msHigh msLow : UInt16) (ms : UInt32) : Prop :=
  ∀ es m', (∀ e ∈ es, ¬ e.Commands id) → (ms = 0 ∨ microTicks es < duration ms.toNat) →
    run ioMicroStep m es = some m' →
    (m'.io.output id).pin = decide (microTicks es % (duration msHigh.toNat + duration msLow.toNat) <
      duration msHigh.toNat)

section Command

variable {io : Io} {msHigh msLow : UInt16} {ms : UInt32}

theorem blinkDuration_inverted (hinv : id.Inverted) : blinkDuration id msHigh msLow =
    exchanged (duration msHigh.toNat) (duration msLow.toNat) := by
  funext b
  cases b <;> simp [blinkDuration, exchanged, hinv]

/-- Where the exchange makes no difference. -/
theorem level_regular
    (h : ¬ id.Inverted ∨ duration msHigh.toNat = duration msLow.toNat) (n : ℕ) :
    ((waveStep (blinkDuration id msHigh msLow))^[n] (true, duration msHigh.toNat)).1 =
      decide (n % (duration msHigh.toNat + duration msLow.toNat) < duration msHigh.toNat) := by
  have hdurations : blinkDuration id msHigh msLow true = duration msHigh.toNat ∧
      blinkDuration id msHigh msLow false = duration msLow.toNat := by
    by_cases hinv : id.Inverted
    · have heq := h.resolve_left (not_not_intro hinv)
      rw [blinkDuration_inverted hinv]
      exact ⟨heq.symm, heq⟩
    · simp [blinkDuration, hinv]
  have hpos : ∀ b, 0 < blinkDuration id msHigh msLow b := fun b => duration_pos _
  have hlevel := waveStep_level hpos true n
  rw [Bool.not_true, hdurations.1, hdurations.2] at hlevel
  rw [hlevel]
  split <;> simp [*]

theorem pin_ioOutputBlink {es : List IoEvent} {io' : Io} (hrun : io.state = .running)
    (hes : ∀ e ∈ es, ¬ Commands id e) (hover : ms = 0 ∨ ticks es < duration ms.toNat)
    (hr : run ioStep (ioOutputBlink io id msHigh msLow ms) es = some io') :
    (io'.output id).pin = ((waveStep (blinkDuration id msHigh msLow))^[ticks es]
      (true, duration msHigh.toNat)).1 := by
  have hstart : (ioOutputBlink io id msHigh msLow ms).output id =
      ⟨.blink, timerMs msHigh.toNat, if 0 < ms then timerMs ms.toNat else 0, msHigh, msLow, true⟩ :=
    Function.update_self _ _ _
  have hoper : ((ioOutputBlink io id msHigh msLow ms).output id).Operates (ticks es) := by
    rw [hstart]
    rcases hover with rfl | hlt
    · exact .inl rfl
    · by_cases hms : 0 < ms
      · refine .inr ?_
        rw [if_pos hms]
        exact hlt
      · exact .inl (if_neg hms)
  rw [@output_of_run (ioOutputBlink io id msHigh msLow ms) io' id es hrun hes hr,
    pin_blinking (by rw [hstart]) (by rw [hstart]; exact Nat.succ_pos _) hoper, hstart]
  rfl

/-- **When a blink has the durations it was given**: not on an LED, unless the durations are the same
number of ticks, or the operating time ends before they would show. -/
theorem blinks_iff (hrun : io.state = .running) (id : OutputId) (msHigh msLow : UInt16)
    (ms : UInt32) : Blinks io id msHigh msLow ms ↔
      ¬ id.Inverted ∨ duration msHigh.toNat = duration msLow.toNat ∨
        ms ≠ 0 ∧ duration ms.toNat ≤ duration msHigh.toNat +
          min (duration msHigh.toNat) (duration msLow.toNat) := by
  have hh := duration_pos msHigh.toNat
  have hl := duration_pos msLow.toNat
  constructor
  · intro hblinks
    by_contra hnot
    obtain ⟨hinv, hne, hlong⟩ : id.Inverted ∧ duration msHigh.toNat ≠ duration msLow.toNat ∧
        (ms = 0 ∨ duration msHigh.toNat + min (duration msHigh.toNat) (duration msLow.toNat) <
          duration ms.toNat) := by
      rw [not_or, not_or, not_not, not_and_or, not_not, Nat.not_le] at hnot
      exact hnot
    have hexchanged : blinkDuration id msHigh msLow =
        exchanged (duration msHigh.toNat) (duration msLow.toNat) :=
      blinkDuration_inverted hinv
    obtain ⟨es, io', hr, hes, hn⟩ := exists_ticks (ioOutputBlink io id msHigh msLow ms) id
      (duration msHigh.toNat + min (duration msHigh.toNat) (duration msLow.toNat))
    rw [← hn] at hlong
    have hpin := hblinks es io' hes hlong hr
    rw [pin_ioOutputBlink hrun hes hlong hr, hn, hexchanged] at hpin
    exact exchanged_differs hh hne hpin
  · intro hcond es io' hes hover hr
    rw [pin_ioOutputBlink hrun hes hover hr]
    rcases or_assoc.mpr hcond with hregular | ⟨hms, hshort⟩
    · exact level_regular hregular _
    · by_cases hinv : id.Inverted
      · rw [blinkDuration_inverted hinv]
        exact exchanged_agrees hh ((hover.resolve_left hms).trans_le hshort)
      · exact level_regular (.inl hinv) _

/-- The statements of the other commands make no difference. -/
theorem blinksFrom_iff (hrun : io.state = .running) :
    BlinksFrom ⟨ioOutputBlink io id msHigh msLow ms, []⟩ id msHigh msLow ms ↔
      Blinks io id msHigh msLow ms := by
  have hstart : Apart id ⟨ioOutputBlink io id msHigh msLow ms, []⟩ := apart_of_returned hrun rfl
  constructor
  · intro h es io' hes hover hr
    obtain ⟨ms', m', hr', hnone, hn⟩ :=
      exists_microTicks ⟨ioOutputBlink io id msHigh msLow ms, []⟩ id (ticks es)
    have hpin := h ms' m' hnone (by rwa [hn]) hr'
    rw [output_of_microRun hstart hnone hr', hn] at hpin
    rw [@output_of_run (ioOutputBlink io id msHigh msLow ms) io' id es hrun hes hr]
    exact hpin
  · intro h es m' hes hover hr
    obtain ⟨es', io', hr', hnone, hn⟩ :=
      exists_ticks (ioOutputBlink io id msHigh msLow ms) id (microTicks es)
    have hpin := h es' io' hnone (by rwa [hn]) hr'
    rw [@output_of_run (ioOutputBlink io id msHigh msLow ms) io' id _ hrun hnone hr', hn] at hpin
    rw [output_of_microRun hstart hes hr]
    exact hpin

end Command

/-! ### A tick inside the call -/

section Interrupted

variable {io : Io} {msHigh msLow : UInt16} {ms : UInt32} {t c n : ℕ} {m m' : IoMachine}
  {inside : List IoMicroEvent}

/-- The pulse timer is off, or takes `n` more ticks. -/
def Output.Phase (o : Output) (n : ℕ) : Prop := o.tPulse = 0 ∨ 0 < o.tPulse ∧ ticksLeft o.tPulse = n

theorem Output.Phase.not_expired (h : o.Phase n) (hn : 1 < n) :
    timerExpired (timerDec o.tPulse) = false := by
  rcases h with h | ⟨hpos, hleft⟩
  · rw [h]
    rfl
  · rw [timerExpired_dec hpos, decide_eq_false (by omega)]

theorem Output.Phase.tick (h : o.Phase n) (hn : 1 < n) : (tickOutput id o).Phase (n - 1) := by
  unfold Output.Phase
  rw [tickOutput_of_not_expired (h.not_expired hn)]
  split
  · exact .inl rfl
  · rcases h with h | ⟨hpos, rfl⟩
    · left
      dsimp only
      rw [h]
      rfl
    · exact .inr (ticksLeft_dec hn)

/-- Where neither timer expires. -/
theorem Output.Phase.tick_eq (h : o.Phase n) (hn : 1 < n) (ho : o.Operates 1) : tickOutput id o =
    { o with tPulse := timerDec o.tPulse, tOper := timerDec o.tOper } := by
  rw [tickOutput_of_not_expired (h.not_expired hn), timerExpired_operates ho,
    if_neg Bool.false_ne_true]

/-- With the pulse timer off the level stays while the output operates. -/
theorem pin_off (hp : o.tPulse = 0) (ho : o.Operates n) : ((tickOutput id)^[n] o).pin = o.pin := by
  induction n generalizing o with
  | zero => rfl
  | succ n ih =>
    have hphase : o.Phase 2 := .inl hp
    rw [Function.iterate_succ_apply,
      hphase.tick_eq (by decide) (ho.imp_right fun h => by omega),
      ih (by dsimp only; rw [hp]; rfl) (ho.tick rfl)]

/-- The call is past the statement that loads the pulse timer, of which `n` ticks are left; `t` is what
it loads the operating timer with, which is to outlast that by `c` ticks. -/
structure BlinkCall (id : OutputId) (msHigh msLow : UInt16) (t c n : ℕ) (m : IoMachine) : Prop where
  state : m.io.state = .running
  left : m.left <:+ [.tOper id t, .mode id .blink, .setOutput id .high, .msPulseHigh id msHigh,
    .msPulseLow id msLow]
  phase : (m.io.output id).Phase n
  timer : t = 0 ∨ n + c < ticksLeft t
  oper : m.left.length ≤ 4 → (m.io.output id).Operates (n + c)
  mode : m.left.length ≤ 3 → (m.io.output id).mode = .blink
  pin : m.left.length ≤ 2 → (m.io.output id).pin = true

/-- One statement, by what it makes of the output. -/
theorem BlinkCall.next {st : Statement} {sts : List Statement} {o : Output}
    (h : BlinkCall id msHigh msLow t c n m) (hl : m.left = st :: sts)
    (hout : (execStatement m.io st).output id = o) (hpulse : o.tPulse = (m.io.output id).tPulse)
    (hoper : sts.length ≤ 4 → o.Operates (n + c)) (hmode : sts.length ≤ 3 → o.mode = .blink)
    (hpin : sts.length ≤ 2 → o.pin = true) :
    BlinkCall id msHigh msLow t c n ⟨execStatement m.io st, sts⟩ := by
  subst hout
  refine ⟨(state_execStatement _ _).trans h.state, (List.suffix_cons st sts).trans (hl ▸ h.left), ?_,
    h.timer, hoper, hmode, hpin⟩
  unfold Output.Phase
  rw [hpulse]
  exact h.phase

/-- Its next statement. -/
theorem BlinkCall.step (h : BlinkCall id msHigh msLow t c n m) (hs : ioMicroStep m .step = some m') :
    BlinkCall id msHigh msLow t c n m' := by
  obtain ⟨st, sts, hl, rfl⟩ := ioMicroStep_step.mp hs
  have hleft := h.left
  have hoper := h.oper
  have hmode := h.mode
  have hpin := h.pin
  rw [hl] at hleft hoper hmode hpin
  simp only [List.suffix_cons_iff, List.suffix_nil, List.cons.injEq, reduceCtorEq, or_false]
    at hleft
  rcases hleft with ⟨rfl, rfl⟩ | ⟨rfl, rfl⟩ | ⟨rfl, rfl⟩ | ⟨rfl, rfl⟩ | ⟨rfl, rfl⟩
  · -- the operating timer
    exact h.next hl (Function.update_self _ _ _) rfl (fun _ => h.timer)
      (fun hlen => absurd hlen (by simp)) (fun hlen => absurd hlen (by simp))
  · -- the mode
    exact h.next hl (Function.update_self _ _ _) rfl (fun _ => hoper (by simp)) (fun _ => rfl)
      (fun hlen => absurd hlen (by simp))
  · -- the level
    exact h.next hl (Function.update_self _ _ _) rfl (fun _ => hoper (by simp))
      (fun _ => hmode (by simp)) (fun _ => rfl)
  · exact h.next hl (Function.update_self _ _ _) rfl (fun _ => hoper (by simp))
      (fun _ => hmode (by simp)) (fun _ => hpin (by simp))
  · exact h.next hl (Function.update_self _ _ _) rfl (fun _ => hoper (by simp))
      (fun _ => hmode (by simp)) (fun _ => hpin (by simp))

/-- A tick inside it. -/
theorem BlinkCall.tick (h : BlinkCall id msHigh msLow t c n m) (hn : 1 < n) (pins : InputId → Bool) :
    BlinkCall id msHigh msLow t c (n - 1) ⟨(localTimers m.io pins).1, m.left⟩ := by
  have hout : (localTimers m.io pins).1.output id = tickOutput id (m.io.output id) :=
    @output_of_event m.io id (.tick pins) h.state not_false
  have hquiet : m.left.length ≤ 4 → tickOutput id (m.io.output id) = { m.io.output id with
      tPulse := timerDec (m.io.output id).tPulse, tOper := timerDec (m.io.output id).tOper } :=
    fun hlen => h.phase.tick_eq hn ((h.oper hlen).imp_right fun h => by omega)
  refine ⟨@state_of_event m.io (.tick pins) h.state, h.left, ?_, h.timer.imp_right (by omega),
    fun hlen => ?_, fun hlen => ?_, fun hlen => ?_⟩
  · rw [hout]
    exact h.phase.tick hn
  · have hoper := h.oper hlen
    rw [show n + c = (n - 1 + c) + 1 by omega] at hoper
    rw [hout, hquiet hlen]
    exact hoper.tick rfl
  · rw [hout, hquiet (hlen.trans (by decide))]
    exact h.mode hlen
  · rw [hout, hquiet (hlen.trans (by decide))]
    exact h.pin hlen

/-- **What an interrupted call leaves**, while the ticks inside are fewer than those of the first phase
and the operating time outlasts both: a blinking output, high, with its pulse timer off or short by
those ticks. -/
theorem Calls.blink (h : Calls io (.blink id msHigh msLow ms) inside m) (hrun : io.state = .running)
    (hfew : microTicks inside < duration msHigh.toNat)
    (hlong : ms = 0 ∨ duration msHigh.toNat + microTicks inside < duration ms.toNat) :
    m.io.state = .running ∧ (m.io.output id).mode = .blink ∧ (m.io.output id).pin = true ∧
      (m.io.output id).Phase (duration msHigh.toNat - microTicks inside) ∧
      (m.io.output id).Operates (duration msHigh.toNat) := by
  obtain ⟨m₁, hcall, hr⟩ := run_cons.mp h.runs
  obtain ⟨-, st, sts, hst, rfl⟩ := (ioMicroStep_call h.command).mp hcall
  obtain ⟨rfl, rfl⟩ := List.cons.inj hst
  have hstart : BlinkCall id msHigh msLow (if 0 < ms then timerMs ms.toNat else 0)
      (microTicks inside) (duration msHigh.toNat)
      ⟨execStatement io (.tPulse id (timerMs msHigh.toNat)), [.tOper id
        (if 0 < ms then timerMs ms.toNat else 0), .mode id .blink, .setOutput id .high,
        .msPulseHigh id msHigh, .msPulseLow id msLow]⟩ := by
    refine ⟨hrun, List.suffix_rfl, ?_, ?_, fun hlen => absurd hlen (by simp),
      fun hlen => absurd hlen (by simp), fun hlen => absurd hlen (by simp)⟩
    · right
      simp only [execStatement, Io.mapOutput, Function.update_self]
      exact ⟨Nat.succ_pos _, ticksLeft_timerMs _⟩
    · by_cases hms : 0 < ms
      · right
        rw [if_pos hms]
        exact hlong.resolve_left fun h => by simp [h] at hms
      · exact .inl (if_neg hms)
  rw [run_append, Option.bind_eq_some_iff] at hr
  obtain ⟨m₀, hinside, hlast⟩ := hr
  have hend := run_inside (I := fun n m => 0 < n → BlinkCall id msHigh msLow
      (if 0 < ms then timerMs ms.toNat else 0) (microTicks inside) n m)
    (fun _ _ _ h hs hn => (h hn).step hs) (fun _ _ pins h hn => (h (by omega)).tick (by omega) pins)
    h.only (fun _ => hstart) hinside (by omega)
  obtain ⟨m', hs, hnil⟩ := run_cons.mp hlast
  obtain rfl := Option.some.inj hnil
  have hfinal := hend.step hs
  have hleft : m'.left.length = 0 := by rw [h.returned]; rfl
  have hoper := hfinal.oper (by omega)
  rw [Nat.sub_add_cancel hfew.le] at hoper
  exact ⟨hfinal.state, hfinal.mode (by omega), hfinal.pin (by omega), hfinal.phase, hoper⟩

/-- **A tick inside the call** then shows: the first phase is over too early, or never. -/
theorem Calls.not_blinksFrom (h : Calls io (.blink id msHigh msLow ms) inside m)
    (hrun : io.state = .running) (hpos : 0 < microTicks inside)
    (hfew : microTicks inside < duration msHigh.toNat)
    (hlong : ms = 0 ∨ duration msHigh.toNat + microTicks inside < duration ms.toNat) :
    ¬ BlinksFrom m id msHigh msLow ms := by
  intro hblinks
  obtain ⟨hrun', hmode, hpin, hphase, hoper⟩ := h.blink hrun hfew hlong
  have hlow := duration_pos msLow.toNat
  -- the level after `k` ticks and no command
  have hlevel : ∀ k ≤ duration msHigh.toNat, ((tickOutput id)^[k] (m.io.output id)).pin =
      decide (k % (duration msHigh.toNat + duration msLow.toNat) < duration msHigh.toNat) := by
    intro k hk
    obtain ⟨es, m', hr, hes, rfl⟩ := exists_microTicks m id k
    rw [← output_of_microRun (apart_of_returned hrun' h.returned) hes hr]
    exact hblinks es m' hes (hlong.imp_right fun h => by omega) hr
  rcases hphase with hoff | ⟨hon, hleft⟩
  · -- the pulse timer is off: the level stays
    have hstays := hlevel _ le_rfl
    rw [pin_off hoff hoper, hpin, Nat.mod_eq_of_lt (by omega), decide_eq_false (by omega)] at hstays
    cases hstays
  · -- the pulse timer expires too early
    have hearly := hlevel (ticksLeft (m.io.output id).tPulse) (by omega)
    rw [pin_blinking hmode hon (hoper.imp_right fun h => by omega), waveStep_change (by omega), hpin,
      Nat.mod_eq_of_lt (by omega), decide_eq_true (by omega)] at hearly
    cases hearly

end Interrupted

/-! ### The call -/

section Call

variable {io : Io} {msHigh msLow : UInt16} {ms : UInt32} {inside : List IoMicroEvent} {m : IoMachine}

/-- **When a blink has the durations it was given**, with the other commands statement by statement:
under the same condition, and only with no tick inside the call. Where ticks fall inside, the first
phase outlasts them, and the operating time both. -/
theorem blinks_call_iff (hrun : io.state = .running)
    (hcall : Calls io (.blink id msHigh msLow ms) inside m)
    (hfew : microTicks inside = 0 ∨ microTicks inside < duration msHigh.toNat ∧
      (ms = 0 ∨ duration msHigh.toNat + microTicks inside < duration ms.toNat)) :
    BlinksFrom m id msHigh msLow ms ↔ microTicks inside = 0 ∧
      (¬ id.Inverted ∨ duration msHigh.toNat = duration msLow.toNat ∨
        ms ≠ 0 ∧ duration ms.toNat ≤ duration msHigh.toNat +
          min (duration msHigh.toNat) (duration msLow.toNat)) := by
  by_cases hquiet : microTicks inside = 0
  · rw [hcall.eq_of_quiet hquiet, and_iff_right hquiet]
    exact (blinksFrom_iff hrun).trans (blinks_iff hrun id msHigh msLow ms)
  · obtain ⟨hlt, hlong⟩ := hfew.resolve_left hquiet
    exact iff_of_false (hcall.not_blinksFrom hrun (Nat.pos_of_ne_zero hquiet) hlt hlong)
      fun h => hquiet h.1

/-- A relay. -/
theorem blinks_call_rele :
    BlinksFrom ⟨ioOutputBlink ioRunning (.rele 0) 1000 100 0, []⟩ (.rele 0) 1000 100 0 :=
  (blinks_call_iff rfl (calls_quiet ioRunning (e := .blink (.rele 0) 1000 100 0) rfl) (.inl rfl)).mpr
    ⟨rfl, .inl (by decide)⟩

/-- The green LED of `PMZ_Initialize`: a second high, and then a second low. -/
theorem not_blinks_call : ¬ ∀ (io : Io) (id : OutputId) (msHigh msLow : UInt16) (ms : UInt32)
    (inside : List IoMicroEvent) (m : IoMachine), io.state = .running →
      Calls io (.blink id msHigh msLow ms) inside m → BlinksFrom m id msHigh msLow ms := by
  intro hall
  have hrun : (run ioMicroStep ⟨ioOutputBlink ioRunning .greenLed 1000 100 0, []⟩
      (List.replicate 11 (.event tickLow))).map (fun m => (m.io.output .greenLed).pin) =
        some false := by
    decide +kernel
  obtain ⟨m', hrun, hpin⟩ := Option.map_eq_some_iff.mp hrun
  have hhigh := hall ioRunning .greenLed 1000 100 0 _ _ rfl (calls_quiet ioRunning rfl) _ m'
    (by decide) (.inl rfl) hrun
  rw [hpin] at hhigh
  exact absurd hhigh (by decide)

end Call

end Blinking

end Rastreo.Drv
