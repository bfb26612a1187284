import Rastreo.Drv.Debounce

/-!
# Two samples for a level

The states `LOW` and `HIGH` report a level as stable; the two in between report none. A level is
entered only from the state that waits for its second sample, and there the callback is called, so that
both samples have the new level.

* `Input.sample_cases`: all that one sample can do.
* `Shown`: the sample of the preceding tick and the stable level last reported, as history
  variables.
* `confirmed_run`: every event of every run changes the stable level, or calls back, only at the
  second of two equal samples, and calls one callback of an input at most.
-/

namespace Rastreo.Drv

open Rastreo.Lib

/-! ## One sample -/

/-- The level that a state reports as stable. -/
def InputState.stable : InputState → Option Bool
  | .low => some false
  | .high => some true
  | .disable | .unknown | .lowToHigh | .highToLow => none

/-- The state that waits for the second sample of a level. -/
def waiting : Bool → InputState
  | true => .lowToHigh
  | false => .highToLow

/-- The callback of the edge to a level. -/
def Input.edgeCb (i : Input) : Bool → Option Callback
  | true => i.risingEdgeCb
  | false => i.fallingEdgeCb

/-- The context of the edge to a level. -/
def Input.edgeCtx (i : Input) : Bool → Nat
  | true => i.risingEdgeCtx
  | false => i.fallingEdgeCtx

/-- What one sample `x` does to the state `s`, with these calls about the input. -/
inductive Input.Sample (i : Input) (id : InputId) (x : Bool) : InputState → List Call → Prop
  /-- The first sample. -/
  | first {s : InputState} (hs : i.state = .unknown) (hx : s.stable = some x) : Sample i id x s []
  /-- The level stays, or has changed for the first time. -/
  | quiet {s : InputState} (hs : i.state.past ≠ []) (hl : s.past.getLast? = some x)
      (hstable : s.stable = none ∨ s.stable = i.state.stable) : Sample i id x s []
  /-- The second sample of a new level. -/
  | edge {s : InputState} (hs : i.state = waiting x) (hx : s.stable = some x) :
      Sample i id x s (callTo (i.edgeCb x) id (waiting x) (i.edgeCtx x))

/-- **All that one sample can do.** -/
theorem Input.sample_cases {i : Input} (ht : i.Timed) (hs : i.state ≠ .disable) (id : InputId)
    (x : Bool) :
    i.Sample id x (inputsTask id i.ticked x).1.state (inputsTask id i.ticked x).2 := by
  unfold Input.Timed at ht
  cases hst : i.state with
  | disable => exact absurd hst hs
  | unknown =>
    have hcalls : (inputsTask id i.ticked x).2 = [] := by simp [inputsTask, Input.ticked, hst]
    rw [hcalls]
    refine .first hst ?_
    cases x <;> simp [inputsTask, Input.ticked, hst, InputState.stable]
  | low =>
    have hcalls : (inputsTask id i.ticked x).2 = [] := by
      cases x <;> simp [inputsTask, Input.ticked, hst]
    rw [hcalls]
    refine .quiet (by simp [hst, InputState.past]) ?_ ?_ <;>
      cases x <;> simp [inputsTask, Input.ticked, hst, InputState.past, InputState.stable]
  | high =>
    have hcalls : (inputsTask id i.ticked x).2 = [] := by
      cases x <;> simp [inputsTask, Input.ticked, hst]
    rw [hcalls]
    refine .quiet (by simp [hst, InputState.past]) ?_ ?_ <;>
      cases x <;> simp [inputsTask, Input.ticked, hst, InputState.past, InputState.stable]
  | lowToHigh =>
    have hexp : timerExpired (timerDec i.t) = true := by
      rw [ht (.inl hst), timerDec_loaded]
      rfl
    cases x with
    | false =>
      have hcalls : (inputsTask id i.ticked false).2 = [] := by
        simp [inputsTask, Input.ticked, hst]
      rw [hcalls]
      refine .quiet (by simp [hst, InputState.past]) ?_ ?_ <;>
        simp [inputsTask, Input.ticked, hst, InputState.past, InputState.stable]
    | true =>
      have hcalls : (inputsTask id i.ticked true).2 =
          callTo (i.edgeCb true) id (waiting true) (i.edgeCtx true) := by
        simp [inputsTask, Input.ticked, hst, hexp, Input.edgeCb, Input.edgeCtx, waiting]
      rw [hcalls]
      refine .edge hst ?_
      simp [inputsTask, Input.ticked, hst, hexp, InputState.stable]
  | highToLow =>
    have hexp : timerExpired (timerDec i.t) = true := by
      rw [ht (.inr hst), timerDec_loaded]
      rfl
    cases x with
    | false =>
      have hcalls : (inputsTask id i.ticked false).2 =
          callTo (i.edgeCb false) id (waiting false) (i.edgeCtx false) := by
        simp [inputsTask, Input.ticked, hst, hexp, Input.edgeCb, Input.edgeCtx, waiting]
      rw [hcalls]
      refine .edge hst ?_
      simp [inputsTask, Input.ticked, hst, hexp, InputState.stable]
    | true =>
      have hcalls : (inputsTask id i.ticked true).2 = [] := by
        simp [inputsTask, Input.ticked, hst]
      rw [hcalls]
      refine .quiet (by simp [hst, InputState.past]) ?_ ?_ <;>
        simp [inputsTask, Input.ticked, hst, InputState.past, InputState.stable]

/-! ## One event -/

/-- What an event does to the input: it is sampled, or is as it was and nothing is called. -/
inductive Io.Does (io : Io) (id : InputId) (e : IoEvent) : Prop
  | sampled (x : Bool) (hx : io.samples id e = [x])
      (hs : (io.input id).Sample id x ((ioEvent io e).1.input id).state (callsOf id (ioEvent io e).2))
  | started (hx : io.samples id e = []) (hs : (io.input id).state.past = [])
      (hs' : ((ioEvent io e).1.input id).state.past = []) (hcalls : callsOf id (ioEvent io e).2 = [])
  | left (hx : io.samples id e = [])
      (hs : ((ioEvent io e).1.input id).state = (io.input id).state)
      (hcalls : callsOf id (ioEvent io e).2 = [])

/-- **All that one event can do** to an input. -/
theorem Io.Steady.does {io : Io} {id : InputId} (hI : io.Steady id) (e : IoEvent) : io.Does id e := by
  cases e with
  | tick pins =>
    cases hst : io.state with
    | init =>
      obtain ⟨hi, -, hcalls⟩ := tick_init hst id pins
      refine .started (by simp [Io.samples, hst]) ?_ ?_ (by rw [hcalls]; rfl)
      · rw [hI.idle (by simp [hst])]
        rfl
      · rw [hi]
        by_cases h : Sampled id <;> simp [h, InputState.past]
    | error =>
      obtain ⟨hi, -, hcalls⟩ := tick_error hst id pins
      exact .left (by simp [Io.samples, hst]) (by rw [hi]; rfl) (by rw [hcalls]; rfl)
    | running =>
      by_cases hs : Sampled id
      · obtain ⟨hi, hcalls⟩ := tick_sampled hst hs pins
        refine .sampled (pins id) (by simp [Io.samples, hst, hs]) ?_
        rw [hi, hcalls]
        exact Input.sample_cases hI.timed (hI.live hst hs) id (pins id)
      · obtain ⟨hi, hcalls⟩ := tick_unsampled hst hs pins
        exact .left (by simp [Io.samples, hs]) (by rw [hi]; rfl) hcalls
  | registerInputCb id' edge cb ctx =>
    exact .left rfl (ioRegisterInputCb_input io id' id edge cb ctx).1 rfl
  | setState id' state => exact .left rfl rfl rfl
  | toggle id' => exact .left rfl rfl rfl
  | pulse id' state ms => exact .left rfl rfl rfl
  | blink id' hi lo ms => exact .left rfl rfl rfl

/-! ## Runs -/

/-- What a run has shown of an input: its sample at the preceding tick, and the level last reported
as stable. -/
structure Shown where
  sample : Option Bool
  level : Option Bool
  deriving DecidableEq, Repr

/-- The event shows its sample, and the level its state reports. -/
def Shown.after (id : InputId) (io : Io) (e : IoEvent) (g : Shown) : Shown where
  sample := (io.samples id e).head?.or g.sample
  level := ((ioEvent io e).1.input id).state.stable.or g.level

/-- The event samples a level that the preceding tick has sampled too. -/
def Twice (id : InputId) (p : Io × Shown) (e : IoEvent) (b : Bool) : Prop :=
  p.1.samples id e = [b] ∧ p.2.sample = some b

/-- **What the event shows is confirmed** by two samples: a change of the stable level, and every
call, which is one of the callback for the new level. -/
structure Confirmed (id : InputId) (p : Io × Shown) (e : IoEvent) : Prop where
  change : ∀ a b, p.2.level = some a → (Shown.after id p.1 e p.2).level = some b → b ≠ a →
    Twice id p e b
  call : ∀ c ∈ callsOf id (ioEvent p.1 e).2, ∃ b, Twice id p e b ∧
    (Shown.after id p.1 e p.2).level = some b ∧ (p.1.input id).edgeCb b = some c.cb
  once : (callsOf id (ioEvent p.1 e).2).length ≤ 1

/-- The state of the input says what has been shown. -/
structure Shows (id : InputId) (p : Io × Shown) : Prop where
  steady : p.1.Steady id
  unsampled : (p.1.input id).state.past = [] → p.2.level = none
  sample : ∀ b, (p.1.input id).state.past.getLast? = some b → p.2.sample = some b
  level : ∀ b, (p.1.input id).state.stable = some b → p.2.level = some b

theorem past_of_stable {s : InputState} {b : Bool} (h : s.stable = some b) : s.past = [b] := by
  cases s <;> simp_all [InputState.stable, InputState.past]

theorem past_waiting (b : Bool) : (waiting b).past.getLast? = some b := by
  cases b <;> rfl

theorem stable_waiting (b : Bool) : (waiting b).stable = none := by
  cases b <;> rfl

theorem length_callTo_le (cb : Option Callback) (id : InputId) (state : InputState) (ctx : Nat) :
    (callTo cb id state ctx).length ≤ 1 := by
  cases cb <;> simp [callTo]

/-- The callback called is the one stored. -/
theorem cb_of_mem_callTo {cb : Option Callback} {id : InputId} {state : InputState} {ctx : Nat}
    {c : Call} (hc : c ∈ callTo cb id state ctx) : cb = some c.cb := by
  cases cb with
  | none => cases hc
  | some cb => rw [List.mem_singleton.mp hc]

/-- **Step lemma**: an event keeps what the state says. -/
theorem shows_step {id : InputId} {p : Io × Shown} (hI : Shows id p) (e : IoEvent) :
    Shows id ((ioEvent p.1 e).1, Shown.after id p.1 e p.2) := by
  have hsteady := steady_ioEvent hI.steady e
  cases hI.steady.does e with
  | started hx hs hs' hcalls =>
    have hstable : ((ioEvent p.1 e).1.input id).state.stable = none := by
      cases h : ((ioEvent p.1 e).1.input id).state <;> simp_all [InputState.past, InputState.stable]
    refine ⟨hsteady, fun _ => ?_, fun b hb => ?_, fun b hb => ?_⟩
    · simp [Shown.after, hstable, hI.unsampled hs]
    · rw [hs'] at hb
      cases hb
    · rw [hstable] at hb
      cases hb
  | left hx hs hcalls =>
    refine ⟨hsteady, fun h => ?_, fun b hb => ?_, fun b hb => ?_⟩
    · rw [hs] at h
      have hnone := hI.unsampled h
      have hstable : (p.1.input id).state.stable = none := by
        cases h' : (p.1.input id).state <;> simp_all [InputState.past, InputState.stable]
      simp [Shown.after, hs, hstable, hnone]
    · rw [hs] at hb
      simp [Shown.after, hx, hI.sample b hb]
    · simp [Shown.after, hb]
  | sampled x hx hs =>
    have hsample : (Shown.after id p.1 e p.2).sample = some x := by simp [Shown.after, hx]
    have hlast : ((ioEvent p.1 e).1.input id).state.past.getLast? = some x := by
      generalize hcs : callsOf id (ioEvent p.1 e).2 = cs at hs
      cases hs with
      | first _ hstable => rw [past_of_stable hstable]; rfl
      | quiet _ hl _ => exact hl
      | edge _ hstable => rw [past_of_stable hstable]; rfl
    refine ⟨hsteady, fun h => ?_, fun b hb => ?_, fun b hb => ?_⟩
    · rw [h] at hlast
      cases hlast
    · rw [hlast] at hb
      rw [hsample, hb]
    · simp [Shown.after, hb]

/-- The level confirmed last is the stable one. -/
theorem Shows.level_or {id : InputId} {p : Io × Shown} (hI : Shows id p) {a b : Bool}
    (ha : p.2.level = some a) (hb : (p.1.input id).state.stable.or p.2.level = some b) : b = a := by
  cases hst : (p.1.input id).state.stable with
  | none =>
    rw [hst, Option.none_or, ha] at hb
    exact (Option.some.inj hb).symm
  | some c =>
    rw [hst, Option.some_or] at hb
    rw [hI.level c hst] at ha
    exact (Option.some.inj hb).symm.trans (Option.some.inj ha)

/-- **One event is confirmed.** -/
theorem confirmed_step {id : InputId} {p : Io × Shown} (hI : Shows id p) (e : IoEvent) :
    Confirmed id p e := by
  have hquiet : callsOf id (ioEvent p.1 e).2 = [] →
      (∀ a b, p.2.level = some a → (Shown.after id p.1 e p.2).level = some b → b = a) →
        Confirmed id p e := fun hcalls hlevel =>
    ⟨fun a b ha hb hne => absurd (hlevel a b ha hb) hne, by simp [hcalls], by simp [hcalls]⟩
  cases hI.steady.does e with
  | started hx hs hs' hcalls =>
    refine hquiet hcalls fun a b ha _ => ?_
    rw [hI.unsampled hs] at ha
    cases ha
  | left hx hs hcalls =>
    refine hquiet hcalls fun a b ha hb => ?_
    simp only [Shown.after, hs] at hb
    exact hI.level_or ha hb
  | sampled x hx hs =>
    generalize hcs : callsOf id (ioEvent p.1 e).2 = cs at hs
    cases hs with
    | first hunknown hstable =>
      refine hquiet hcs fun a b ha _ => ?_
      rw [hI.unsampled (by rw [hunknown]; rfl)] at ha
      cases ha
    | quiet hpast hl hstable =>
      refine hquiet hcs fun a b ha hb => ?_
      simp only [Shown.after] at hb
      rcases hstable with hnone | hsame
      · rw [hnone, Option.none_or, ha] at hb
        exact (Option.some.inj hb).symm
      · rw [hsame] at hb
        exact hI.level_or ha hb
    | edge hwait hstable =>
      have htwice : Twice id p e x := ⟨hx, hI.sample x (by rw [hwait]; exact past_waiting x)⟩
      have hlevel : (Shown.after id p.1 e p.2).level = some x := by simp [Shown.after, hstable]
      refine ⟨fun a b _ hb _ => ?_, fun c hc => ?_, ?_⟩
      · obtain rfl := Option.some.inj (hlevel.symm.trans hb)
        exact htwice
      · rw [hcs] at hc
        exact ⟨x, htwice, hlevel, cb_of_mem_callTo hc⟩
      · rw [hcs]
        exact length_callTo_le _ _ _ _

/-- **Every event of every run is confirmed**, from the initialization on, for each input. -/
theorem confirmed_run (registered : Bool) (id : InputId) (es : List IoEvent) :
    Along (watch ioStep (Shown.after id)) (Confirmed id) (ioInitialize registered, ⟨none, none⟩)
      es := by
  have hstart : Shows id (ioInitialize registered, ⟨none, none⟩) := by
    refine ⟨steady_ioInitialize registered id, fun _ => rfl, ?_, ?_⟩ <;>
      simp [ioInitialize, InputState.past, InputState.stable]
  refine along_of_inv (C := fun _ _ => True) ?_ (fun p e hI _ => confirmed_step hI e) hstart along_true
  intro p e q hI _ hs
  obtain ⟨hstep, hg⟩ := watch_eq_some.mp hs
  have hio : q = ((ioEvent p.1 e).1, Shown.after id p.1 e p.2) :=
    Prod.ext (Option.some.inj hstep).symm hg
  rw [hio]
  exact shows_step hI e

end Rastreo.Drv
