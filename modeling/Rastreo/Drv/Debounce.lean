import Rastreo.Drv.IoControl
import Rastreo.Lib.Levels
import Rastreo.Lib.Run

/-!
# The debouncer of the inputs

An input that is sampled settles at the level of its first sample. A change starts a 200 ms timer,
which the next tick finds expired, so a level is confirmed by its second sample. The two states
in between do not remember the level the input had: a change back goes to the other one of them,
not to the level before, so a pulse of one sample ends in a callback for the level that never
left.

`InputState.past` is what the state of an input stands for: the last samples of its pin, as far as they
matter. `edges_eq_heldAfter`: the callbacks of a run are the levels held for two samples or more
after the first one. So they alternate exactly when there are evenly many one-sample levels
between two levels held (`debounces_iff`).
-/

namespace Rastreo.Drv

open Rastreo.Lib

/-! ## What is seen of one input -/

/-- Both callbacks of the input are registered. -/
structure Io.Configured (io : Io) (id : InputId) : Prop where
  rising : (io.input id).risingEdgeCb ≠ none
  falling : (io.input id).fallingEdgeCb ≠ none

instance (io : Io) (id : InputId) : Decidable (io.Configured id) :=
  decidable_of_iff ((io.input id).risingEdgeCb ≠ none ∧ (io.input id).fallingEdgeCb ≠ none)
    ⟨fun h => ⟨h.1, h.2⟩, fun h => ⟨h.1, h.2⟩⟩

/-- The event takes no callback of the input away. -/
def IoEvent.Keeps (id : InputId) : IoEvent → Prop
  | .registerInputCb id' _ cb _ => id' = id → cb ≠ none
  | _ => True

/-- The samples the event takes of the input's pin. -/
def Io.samples (io : Io) (id : InputId) : IoEvent → List Bool
  | .tick pins => if io.state = .running ∧ Sampled id then [pins id] else []
  | _ => []

/-- The calls about the input. -/
def callsOf (id : InputId) (cs : List Call) : List Call := cs.filter fun c => c.id = id

/-- The edges of the input the calls are about: `true` is a rising one. -/
def edgesOf (id : InputId) (cs : List Call) : List Bool :=
  (cs.filter fun c => c.id = id).map fun c => c.state = .lowToHigh

/-- The samples of the input's pin taken in a run. -/
def Io.samplesOf (id : InputId) : Io → List IoEvent → List Bool
  | _, [] => []
  | io, e :: es => io.samples id e ++ Io.samplesOf id (ioEvent io e).1 es

/-- The callbacks called in a run. -/
def Io.calls : Io → List IoEvent → List Call
  | _, [] => []
  | io, e :: es => (ioEvent io e).2 ++ Io.calls (ioEvent io e).1 es

/-- What the state of an input remembers of the samples so far. -/
def InputState.past : InputState → List Bool
  | .disable | .unknown => []
  | .low => [false]
  | .lowToHigh => [false, true]
  | .high => [true]
  | .highToLow => [true, false]

/-- The rising and falling callbacks of the input strictly alternate in the run. -/
def Debounces (id : InputId) (io : Io) (es : List IoEvent) : Prop :=
  Alternates (edgesOf id (io.calls es))

/-! ## One sample -/

/-- Between ticks a timer is loaded in the two states that wait for it. -/
def Input.Timed (i : Input) : Prop :=
  i.state = .lowToHigh ∨ i.state = .highToLow → i.t = timerMs cteTimeMs

@[simp] theorem edgesOf_nil (id : InputId) : edgesOf id [] = [] := rfl

theorem callsOf_append (id : InputId) (as bs : List Call) :
    callsOf id (as ++ bs) = callsOf id as ++ callsOf id bs := List.filter_append _ _

/-- The edges are those of the calls about the input. -/
theorem edgesOf_callsOf (id : InputId) (cs : List Call) : edgesOf id (callsOf id cs) = edgesOf id cs := by
  simp [edgesOf, callsOf, List.filter_filter]

theorem edgesOf_append (id : InputId) (as bs : List Call) :
    edgesOf id (as ++ bs) = edgesOf id as ++ edgesOf id bs := by
  simp [edgesOf]

theorem edgesOf_callTo {cb : Option Callback} (hcb : cb ≠ none) (id : InputId)
    (state : InputState) (ctx : Nat) :
    edgesOf id (callTo cb id state ctx) = [decide (state = .lowToHigh)] := by
  cases cb with
  | none => exact absurd rfl hcb
  | some cb => simp [callTo, edgesOf]

theorem timerDec_loaded : timerDec (timerMs cteTimeMs) = 1 := rfl

/-- The input after `local_timers` has counted its timer down. -/
def Input.ticked (i : Input) : Input := { i with t := timerDec i.t }

/-- **One sample**: it is added to the past of the input, and the callback is called for the level
that this makes held. -/
theorem heldAfter_sample {i : Input} (ht : i.Timed) (hs : i.state ≠ .disable)
    (hr : i.risingEdgeCb ≠ none) (hf : i.fallingEdgeCb ≠ none) (id : InputId) (x : Bool)
    (xs : List Bool) :
    heldAfter (i.state.past ++ x :: xs) =
      edgesOf id (inputsTask id i.ticked x).2 ++
        heldAfter ((inputsTask id i.ticked x).1.state.past ++ xs) := by
  unfold Input.Timed at ht
  cases hst : i.state with
  | disable => exact absurd hst hs
  | unknown => cases x <;> simp [inputsTask, Input.ticked, hst, InputState.past]
  | low =>
    cases x with
    | false =>
      simp [inputsTask, Input.ticked, hst, InputState.past, heldAfter_same]
    | true => simp [inputsTask, Input.ticked, hst, InputState.past]
  | lowToHigh =>
    have hexp : timerExpired (timerDec i.t) = true := by
      rw [ht (.inl hst), timerDec_loaded]
      rfl
    cases x with
    | false =>
      have := heldAfter_glitch false xs
      simpa [inputsTask, Input.ticked, hst, InputState.past] using this
    | true =>
      have := heldAfter_held true xs
      simpa [inputsTask, Input.ticked, hst, hexp, InputState.past, edgesOf_callTo hr,
        heldAfter_same] using this
  | high =>
    cases x with
    | false => simp [inputsTask, Input.ticked, hst, InputState.past]
    | true =>
      simp [inputsTask, Input.ticked, hst, InputState.past, heldAfter_same]
  | highToLow =>
    have hexp : timerExpired (timerDec i.t) = true := by
      rw [ht (.inr hst), timerDec_loaded]
      rfl
    cases x with
    | false =>
      have := heldAfter_held false xs
      simpa [inputsTask, Input.ticked, hst, hexp, InputState.past, edgesOf_callTo hf,
        heldAfter_same] using this
    | true =>
      have := heldAfter_glitch true xs
      simpa [inputsTask, Input.ticked, hst, InputState.past] using this

/-- A sample leaves the timer loaded where it is waited for. -/
theorem timed_inputsTask {i : Input} (ht : i.Timed) (id : InputId) (x : Bool) :
    (inputsTask id i.ticked x).1.Timed := by
  unfold Input.Timed at ht ⊢
  cases hst : i.state <;> cases x <;>
    simp_all [inputsTask, Input.ticked, timerDec_loaded, timerExpired]

theorem state_inputsTask_ne {i : Input} (hs : i.state ≠ .disable) (id : InputId) (x : Bool) :
    (inputsTask id i.ticked x).1.state ≠ .disable := by
  cases hst : i.state <;> cases x <;> simp_all [inputsTask, Input.ticked] <;> split <;> simp_all

theorem inputsTask_callbacks (id : InputId) (i : Input) (x : Bool) :
    (inputsTask id i x).1.risingEdgeCb = i.risingEdgeCb ∧
      (inputsTask id i x).1.fallingEdgeCb = i.fallingEdgeCb := by
  unfold inputsTask
  cases i.state <;> cases x <;> simp <;> split <;> simp

/-- The calls of a task are about its own input. -/
theorem id_of_mem_inputsTask {id : InputId} {i : Input} {x : Bool} {c : Call}
    (hc : c ∈ (inputsTask id i x).2) : c.id = id := by
  have hcall : ∀ cb state ctx, c ∈ callTo cb id state ctx → c.id = id := by
    intro cb state ctx hc
    cases cb with
    | none => cases hc
    | some cb => rw [List.mem_singleton.mp hc]
  unfold inputsTask at hc
  cases hst : i.state <;> cases x <;> simp only [hst, if_true, Bool.false_eq_true, if_false] at hc
  case lowToHigh.true | highToLow.false =>
    split at hc
    · exact hcall _ _ _ hc
    · cases hc
  all_goals cases hc

theorem callsOf_inputsTask (id : InputId) (i : Input) (x : Bool) :
    callsOf id (inputsTask id i x).2 = (inputsTask id i x).2 :=
  List.filter_eq_self.mpr fun _ hc => decide_eq_true (id_of_mem_inputsTask hc)

theorem callsOf_inputsTask_ne {id id' : InputId} (h : id' ≠ id) (i : Input) (x : Bool) :
    callsOf id (inputsTask id' i x).2 = [] :=
  List.filter_eq_nil_iff.mpr fun _ hc heq =>
    h ((id_of_mem_inputsTask hc).symm.trans (of_decide_eq_true heq))

/-- Of all the calls of a tick, those about one input are its own task's. -/
theorem callsOf_flatMap (id : InputId) (f : InputId → List Call)
    (hf : ∀ id', id' ≠ id → callsOf id (f id') = []) :
    ∀ {ids : List InputId}, ids.Nodup → id ∈ ids → callsOf id (ids.flatMap f) = callsOf id (f id)
  | [], _, h => absurd h List.not_mem_nil
  | id' :: ids, hn, h => by
    rw [List.flatMap_cons, callsOf_append]
    rw [List.nodup_cons] at hn
    have hnil : ∀ {ids : List InputId}, id ∉ ids → callsOf id (ids.flatMap f) = [] := by
      intro ids hids
      induction ids with
      | nil => rfl
      | cons j ids ih =>
        rw [List.mem_cons, not_or] at hids
        rw [List.flatMap_cons, callsOf_append, hf j (Ne.symm hids.1), ih hids.2, List.append_nil]
    by_cases heq : id' = id
    · rw [heq] at hn ⊢
      rw [hnil hn.1, List.append_nil]
    · have hmem := (List.mem_cons.mp h).resolve_left (Ne.symm heq)
      rw [hf id' heq, List.nil_append, callsOf_flatMap id f hf hn.2 hmem]

/-! ## Runs -/

/-- What holds of an input between events. -/
structure Io.Steady (io : Io) (id : InputId) : Prop where
  timed : (io.input id).Timed
  live : io.state = .running → Sampled id → (io.input id).state ≠ .disable
  idle : ¬ (io.state = .running ∧ Sampled id) → (io.input id).state = .disable

theorem steady_ioInitialize (registered : Bool) (id : InputId) :
    (ioInitialize registered).Steady id where
  timed := by simp [Input.Timed, ioInitialize]
  live := by cases registered <;> simp [ioInitialize]
  idle := fun _ => rfl

/-- Events that leave the state of the module and of the input as they are. -/
theorem Io.Steady.congr {io io' : Io} {id : InputId} (h : io.Steady id)
    (hs : io'.state = io.state) (hi : (io'.input id).state = (io.input id).state)
    (ht : (io'.input id).t = (io.input id).t) : io'.Steady id where
  timed := by
    have := h.timed
    unfold Input.Timed at this ⊢
    rwa [hi, ht]
  live := by
    rw [hs, hi]
    exact h.live
  idle := by
    rw [hs, hi]
    exact h.idle

/-- `io_register_input_cb` changes callbacks and contexts only. -/
theorem ioRegisterInputCb_input (io : Io) (id' id : InputId) (edge : IoEdge)
    (cb : Option Callback) (ctx : Nat) :
    ((ioRegisterInputCb io id' edge cb ctx).input id).state = (io.input id).state ∧
      ((ioRegisterInputCb io id' edge cb ctx).input id).t = (io.input id).t := by
  by_cases h : id = id'
  · subst h
    cases edge <;> simp [ioRegisterInputCb]
  · simp [ioRegisterInputCb, Function.update_of_ne h]

theorem configured_register {io : Io} {id id' : InputId} (h : io.Configured id) {edge : IoEdge}
    {cb : Option Callback} {ctx : Nat} (hk : id' = id → cb ≠ none) :
    (ioRegisterInputCb io id' edge cb ctx).Configured id := by
  by_cases heq : id = id'
  · subst heq
    have hcb := hk rfl
    cases edge <;> constructor <;>
      simp [ioRegisterInputCb, hcb, h.rising, h.falling]
  · constructor <;> simp [ioRegisterInputCb, Function.update_of_ne heq, h.rising, h.falling]

theorem ioEvent_tick_running {io : Io} (hst : io.state = .running) (pins : InputId → Bool) :
    ioEvent io (.tick pins) = inputsTasks (outputsTask (timersDec io)) pins := by
  simp [ioEvent, localTimers, ioTasks, timersDec, hst]

/-- The calls of a tick about one input. -/
theorem callsOf_tick {io : Io} (hst : io.state = .running) (id : InputId) (pins : InputId → Bool) :
    callsOf id (ioEvent io (.tick pins)).2 =
      if Sampled id then (inputsTask id (io.input id).ticked (pins id)).2 else [] := by
  rw [ioEvent_tick_running hst]
  unfold inputsTasks
  rw [callsOf_flatMap id _ ?_ (List.nodup_finRange 12) (List.mem_finRange id)]
  · split
    · exact callsOf_inputsTask id _ _
    · rfl
  · intro id' hne
    split
    · exact callsOf_inputsTask_ne hne _ _
    · rfl

/-- A tick of a running module, at one input that it samples. -/
theorem tick_sampled {io : Io} {id : InputId} (hst : io.state = .running) (hs : Sampled id)
    (pins : InputId → Bool) :
    (ioEvent io (.tick pins)).1.input id =
        (inputsTask id (io.input id).ticked (pins id)).1 ∧
      callsOf id (ioEvent io (.tick pins)).2 =
        (inputsTask id (io.input id).ticked (pins id)).2 := by
  refine ⟨?_, by rw [callsOf_tick hst, if_pos hs]⟩
  rw [ioEvent_tick_running hst]
  simp [inputsTasks, hs, outputsTask, timersDec, Input.ticked]

/-- A tick of a running module, at an input that it does not sample. -/
theorem tick_unsampled {io : Io} {id : InputId} (hst : io.state = .running) (hs : ¬ Sampled id)
    (pins : InputId → Bool) :
    (ioEvent io (.tick pins)).1.input id = (io.input id).ticked ∧
      callsOf id (ioEvent io (.tick pins)).2 = [] := by
  refine ⟨?_, by rw [callsOf_tick hst, if_neg hs]⟩
  rw [ioEvent_tick_running hst]
  simp [inputsTasks, hs, outputsTask, timersDec, Input.ticked]

/-- The tick that starts the module. -/
theorem tick_init {io : Io} (hst : io.state = .init) (id : InputId) (pins : InputId → Bool) :
    (ioEvent io (.tick pins)).1.input id =
        { (io.input id).ticked with state := if Sampled id then .unknown else .disable } ∧
      (ioEvent io (.tick pins)).1.state = .running ∧ (ioEvent io (.tick pins)).2 = [] := by
  simp [ioEvent, localTimers, ioTasks, timersDec, hst, Input.ticked]

/-- A tick of a module whose timer could not be registered. -/
theorem tick_error {io : Io} (hst : io.state = .error) (id : InputId) (pins : InputId → Bool) :
    (ioEvent io (.tick pins)).1.input id = (io.input id).ticked ∧
      (ioEvent io (.tick pins)).1.state = .error ∧ (ioEvent io (.tick pins)).2 = [] := by
  simp [ioEvent, localTimers, ioTasks, timersDec, hst, Input.ticked]

theorem steady_tick {io : Io} {id : InputId} (hI : io.Steady id) (pins : InputId → Bool) :
    (ioEvent io (.tick pins)).1.Steady id := by
  cases hst : io.state with
  | init =>
    obtain ⟨hi, hs, -⟩ := tick_init hst id pins
    constructor
    · rw [hi]
      by_cases h : Sampled id <;> simp [Input.Timed, h]
    · intro _ h
      simp [hi, h]
    · intro h
      rw [hs] at h
      simp at h
      simp [hi, h]
  | error =>
    obtain ⟨hi, hs, -⟩ := tick_error hst id pins
    have hdis := hI.idle (by simp [hst])
    constructor
    · rw [hi]
      simp [Input.Timed, Input.ticked, hdis]
    · simp [hs]
    · intro _
      rw [hi]
      exact hdis
  | running =>
    have hstate : (ioEvent io (.tick pins)).1.state = .running := by
      rw [ioEvent_tick_running hst]
      exact hst
    by_cases hs : Sampled id
    · have hlive := hI.live hst hs
      have hi := (tick_sampled hst hs pins).1
      constructor
      · rw [hi]
        exact timed_inputsTask hI.timed id (pins id)
      · intro _ _
        rw [hi]
        exact state_inputsTask_ne hlive id (pins id)
      · intro h
        exact absurd ⟨hstate, hs⟩ h
    · have hdis := hI.idle fun h => hs h.2
      have hi := (tick_unsampled hst hs pins).1
      constructor
      · rw [hi]
        simp [Input.Timed, Input.ticked, hdis]
      · intro _ h
        exact absurd h hs
      · intro _
        rw [hi]
        exact hdis

/-- What holds of an input between events is kept by each of them. -/
theorem steady_ioEvent {io : Io} {id : InputId} (hI : io.Steady id) (e : IoEvent) :
    (ioEvent io e).1.Steady id := by
  cases e with
  | tick pins => exact steady_tick hI pins
  | registerInputCb id' edge cb ctx =>
    have hi := ioRegisterInputCb_input io id' id edge cb ctx
    exact hI.congr rfl hi.1 hi.2
  | setState id' state => exact hI.congr rfl rfl rfl
  | toggle id' => exact hI.congr rfl rfl rfl
  | pulse id' state ms => exact hI.congr rfl rfl rfl
  | blink id' hi lo ms => exact hI.congr rfl rfl rfl

theorem configured_ioEvent {io : Io} {id : InputId} (hc : io.Configured id) {e : IoEvent}
    (hk : e.Keeps id) : (ioEvent io e).1.Configured id := by
  cases e with
  | tick pins =>
    have hcb : ((ioEvent io (.tick pins)).1.input id).risingEdgeCb = (io.input id).risingEdgeCb ∧
        ((ioEvent io (.tick pins)).1.input id).fallingEdgeCb = (io.input id).fallingEdgeCb := by
      cases hst : io.state with
      | init => simp [(tick_init hst id pins).1, Input.ticked]
      | error => simp [(tick_error hst id pins).1, Input.ticked]
      | running =>
        by_cases hs : Sampled id
        · rw [(tick_sampled hst hs pins).1]
          exact inputsTask_callbacks id _ _
        · simp [(tick_unsampled hst hs pins).1, Input.ticked]
    constructor
    · rw [hcb.1]
      exact hc.rising
    · rw [hcb.2]
      exact hc.falling
  | registerInputCb id' edge cb ctx => exact configured_register hc hk
  | setState id' state => exact ⟨hc.rising, hc.falling⟩
  | toggle id' => exact ⟨hc.rising, hc.falling⟩
  | pulse id' state ms => exact ⟨hc.rising, hc.falling⟩
  | blink id' hi lo ms => exact ⟨hc.rising, hc.falling⟩

/-- **One event**: what the input remembers grows by the samples taken, and the callbacks called
are for the levels this makes held. -/
theorem heldAfter_ioEvent {io : Io} {id : InputId} (hI : io.Steady id) (hc : io.Configured id)
    (e : IoEvent) (xs : List Bool) :
    heldAfter ((io.input id).state.past ++ (io.samples id e ++ xs)) =
      edgesOf id (ioEvent io e).2 ++
        heldAfter (((ioEvent io e).1.input id).state.past ++ xs) := by
  cases e with
  | tick pins =>
    cases hst : io.state with
    | init =>
      obtain ⟨hi, -, hcalls⟩ := tick_init hst id pins
      have hdis := hI.idle (by simp [hst])
      rw [hi, hcalls, hdis]
      by_cases hs : Sampled id <;> simp [Io.samples, hst, InputState.past, hs]
    | error =>
      obtain ⟨hi, -, hcalls⟩ := tick_error hst id pins
      simp [hi, hcalls, Io.samples, hst, Input.ticked]
    | running =>
      by_cases hs : Sampled id
      · obtain ⟨hi, hcalls⟩ := tick_sampled hst hs pins
        rw [hi, ← edgesOf_callsOf, hcalls]
        simp only [Io.samples, if_pos (And.intro hst hs), List.cons_append, List.nil_append]
        exact heldAfter_sample hI.timed (hI.live hst hs) hc.rising hc.falling id (pins id) xs
      · obtain ⟨hi, hcalls⟩ := tick_unsampled hst hs pins
        rw [hi, ← edgesOf_callsOf, hcalls]
        simp [Io.samples, hs, Input.ticked]
  | registerInputCb id' edge cb ctx =>
    have hi := ioRegisterInputCb_input io id' id edge cb ctx
    simp only [ioEvent, Io.samples, edgesOf_nil, List.nil_append]
    rw [hi.1]
  | setState id' state => rfl
  | toggle id' => rfl
  | pulse id' state ms => rfl
  | blink id' hi lo ms => rfl

/-- **The callbacks of a run** are for the levels of the pin held after the first one. -/
theorem edges_eq_heldAfter {id : InputId} :
    ∀ {es : List IoEvent} {io : Io}, io.Steady id → io.Configured id → (∀ e ∈ es, e.Keeps id) →
      edgesOf id (io.calls es) = heldAfter ((io.input id).state.past ++ io.samplesOf id es)
  | [], io, _, _, _ => by
    cases hst : (io.input id).state <;>
      simp [Io.calls, Io.samplesOf, InputState.past, heldAfter, widths, widthsFrom,
        holds]
  | e :: es, io, hI, hc, hk => by
    have ih := edges_eq_heldAfter (steady_ioEvent hI e)
      (configured_ioEvent hc (hk e List.mem_cons_self))
      fun e' he' => hk e' (List.mem_cons_of_mem e he')
    rw [Io.calls, Io.samplesOf, edgesOf_append, ih, heldAfter_ioEvent hI hc]

/-- Every state the module reaches keeps the timers and the disabled inputs right. -/
theorem steady_of_run {id : InputId} {es : List IoEvent} {io io' : Io} (hI : io.Steady id)
    (hr : run ioStep io es = some io') : io'.Steady id := by
  refine @inv_of_run Io IoEvent ioStep (fun _ _ => True) (fun io => io.Steady id) ?_ io io' es hI
    along_true hr
  intro io e io₁ hI _ hs
  obtain rfl := Option.some.inj hs
  exact steady_ioEvent hI e

/-- **The callbacks of an input alternate** exactly when the levels of one sample between two
levels held are even in number, from the level the input is at. -/
theorem debounces_iff (registered : Bool) (id : InputId) {before es : List IoEvent} {io : Io}
    (hr : run ioStep (ioInitialize registered) before = some io) (hc : io.Configured id)
    (hk : ∀ e ∈ es, e.Keeps id) :
    Debounces id io es ↔
      EvenGlitches (widths ((io.input id).state.past ++ io.samplesOf id es)).tail := by
  have hI := steady_of_run (steady_ioInitialize registered id) hr
  unfold Debounces
  rw [edges_eq_heldAfter hI hc hk]
  exact alternates_heldAfter _

/-- Ticks with every pin at the level given. -/
def ticksAt (levels : List Bool) : List IoEvent := levels.map fun b => .tick fun _ => b

/-- A module just initialized, with both callbacks of one input registered. -/
def ioWatching (id : InputId) : Io := ioRegisterInputCb (ioInitialize true) id .both (some 1) 0

theorem keeps_ticksAt (id : InputId) (levels : List Bool) : ∀ e ∈ ticksAt levels, e.Keeps id := by
  intro e he
  obtain ⟨b, -, rfl⟩ := List.mem_map.mp he
  trivial

/-- Two pulses of two samples each, two samples apart. -/
theorem debounces_two_pulses :
    Debounces 4 (ioWatching 4) (ticksAt [false, false, true, true, false, false, true, true]) ∧
      edgesOf 4 ((ioWatching 4).calls
        (ticksAt [false, false, true, true, false, false, true, true])) =
          [true, false, true] := by
  have hr : run ioStep (ioInitialize true) [.registerInputCb 4 .both (some 1) 0] =
    some (ioWatching 4) := rfl
  refine ⟨(debounces_iff true 4 hr ⟨by decide, by decide⟩ (keeps_ticksAt 4 _)).mpr ?_, by decide⟩
  have hw : (widths (((ioWatching 4).input 4).state.past ++ (ioWatching 4).samplesOf 4
      (ticksAt [false, false, true, true, false, false, true, true]))).tail = [2, 2, 2] := by
    decide
  rw [hw]
  simp [evenGlitches_cons, evenGlitches_nil, evenUntil_held, evenUntil_nil]

/-- A low sample between two high pulses: two rising callbacks with no falling one between. -/
theorem not_debounces :
    ¬ ∀ (registered : Bool) (id : InputId) (before es : List IoEvent) (io : Io),
      run ioStep (ioInitialize registered) before = some io → io.Configured id →
      (∀ e ∈ es, e.Keeps id) → Debounces id io es := by
  intro h
  have hd := h true 4 [.registerInputCb 4 .both (some 1) 0]
    (ticksAt [false, false, true, true, false, true, true]) (ioWatching 4) rfl
    ⟨by decide, by decide⟩ (keeps_ticksAt 4 _)
  have hedges : edgesOf 4 ((ioWatching 4).calls
      (ticksAt [false, false, true, true, false, true, true])) = [true, true] := by decide
  have hmem : (!true) ∈ [] := hd [] [] [] true hedges
  exact absurd hmem List.not_mem_nil

end Rastreo.Drv
