import Rastreo.Drv.Stable
import Rastreo.Drv.IoStatements

/-!
# The callback of an edge

`io_register_input_cb` stores a callback and its context for one edge, or a callback for both
edges. In the second case it stores no context: the callback is called with the contexts of
earlier registrations.

* `Registry`: what was registered last for each edge of an input, as a history variable.
* `delivered_run`: every edge calls what was registered last, in the runs where a registration for
  both edges passes the context that the two edges hold already (`SharesCtx`).
* `sharesCtx_iff`: those are just the runs in which every state would call right at the next edge.
* `delivered_interleaved`: the same between the statements of the registrations, where no edge of the
  input falls inside one of its own (`Undisturbed`).
-/

namespace Rastreo.Drv

open Rastreo.Lib

/-! ## What is registered and what is stored -/

/-- The registration is for the edge to this level. -/
def IoEdge.Covers : IoEdge → Bool → Prop
  | .rising, b => b = true
  | .falling, b => b = false
  | .both, _ => True

instance (edge : IoEdge) (b : Bool) : Decidable (edge.Covers b) := by
  cases edge <;> unfold IoEdge.Covers <;> infer_instance

/-- The callback and the context registered last, for the edge to each level. -/
abbrev Registry := Bool → Option Callback × Nat

/-- The registration is the last one for its edges. -/
def Registry.after (id : InputId) (_ : Io) (e : IoEvent) (g : Registry) : Registry :=
  match e with
  | .registerInputCb id' edge cb ctx => fun b => if id' = id ∧ edge.Covers b then (cb, ctx) else g b
  | .tick _ | .setState _ _ | .toggle _ | .pulse _ _ _ | .blink _ _ _ _ => g

/-- Before the first registration. -/
def Registry.empty : Registry := fun _ => (none, 0)

/-- The event is the debounced edge of the input to this level. -/
def Io.Edge (io : Io) (id : InputId) (e : IoEvent) (b : Bool) : Prop :=
  (io.input id).state = waiting b ∧ ((ioEvent io e).1.input id).state.stable = some b

instance (io : Io) (id : InputId) (e : IoEvent) (b : Bool) : Decidable (io.Edge id e b) :=
  inferInstanceAs (Decidable (_ ∧ _))

/-- **An edge calls what was registered last for it**, once and with its own context; without an
edge nothing is called. -/
structure Delivered (id : InputId) (p : Io × Registry) (e : IoEvent) : Prop where
  edge : ∀ b, p.1.Edge id e b →
    callsOf id (ioEvent p.1 e).2 = callTo (p.2 b).1 id (waiting b) (p.2 b).2
  quiet : (∀ b, ¬ p.1.Edge id e b) → callsOf id (ioEvent p.1 e).2 = []

instance (id : InputId) (p : Io × Registry) (e : IoEvent) : Decidable (Delivered id p e) :=
  decidable_of_iff ((∀ b, p.1.Edge id e b →
      callsOf id (ioEvent p.1 e).2 = callTo (p.2 b).1 id (waiting b) (p.2 b).2) ∧
    ((∀ b, ¬ p.1.Edge id e b) → callsOf id (ioEvent p.1 e).2 = []))
    ⟨fun h => ⟨h.1, h.2⟩, fun h => ⟨h.1, h.2⟩⟩

/-- A callback registered for both edges of the input comes with the context that each of them
holds. -/
def SharesCtx (id : InputId) (p : Io × Registry) : IoEvent → Prop
  | .registerInputCb id' .both (some _) ctx => id' = id → ∀ b, ctx = (p.1.input id).edgeCtx b
  | _ => True

instance (id : InputId) (p : Io × Registry) (e : IoEvent) : Decidable (SharesCtx id p e) := by
  unfold SharesCtx
  split <;> infer_instance

/-- What is stored for the edges of the input is what was registered last. -/
structure Stored (id : InputId) (p : Io × Registry) : Prop where
  steady : p.1.Steady id
  cb : ∀ b, (p.1.input id).edgeCb b = (p.2 b).1
  ctx : ∀ b, (p.2 b).1 ≠ none → (p.1.input id).edgeCtx b = (p.2 b).2

/-- The next edge would call what was registered last for it. -/
def Ready (id : InputId) (p : Io × Registry) : Prop :=
  ∀ b, callTo ((p.1.input id).edgeCb b) id (waiting b) ((p.1.input id).edgeCtx b) =
    callTo (p.2 b).1 id (waiting b) (p.2 b).2

/-! ## One event -/

theorem edgeCb_register (io : Io) (id id' : InputId) (edge : IoEdge) (cb : Option Callback)
    (ctx : Nat) (b : Bool) :
    ((ioRegisterInputCb io id' edge cb ctx).input id).edgeCb b =
      if id' = id ∧ edge.Covers b then cb else (io.input id).edgeCb b := by
  by_cases hid : id = id'
  · subst hid
    cases edge <;> cases b <;> simp [ioRegisterInputCb, Input.edgeCb, IoEdge.Covers]
  · simp [ioRegisterInputCb, Function.update_of_ne hid, Ne.symm hid]

theorem edgeCtx_register (io : Io) (id id' : InputId) (edge : IoEdge) (cb : Option Callback)
    (ctx : Nat) (b : Bool) :
    ((ioRegisterInputCb io id' edge cb ctx).input id).edgeCtx b =
      if id' = id ∧ edge.Covers b ∧ edge ≠ .both then ctx else (io.input id).edgeCtx b := by
  by_cases hid : id = id'
  · subst hid
    cases edge <;> cases b <;> simp [ioRegisterInputCb, Input.edgeCtx, IoEdge.Covers]
  · simp [ioRegisterInputCb, Function.update_of_ne hid, Ne.symm hid]

theorem edge_inputsTask (id : InputId) (i : Input) (x b : Bool) :
    (inputsTask id i x).1.edgeCb b = i.edgeCb b ∧
      (inputsTask id i x).1.edgeCtx b = i.edgeCtx b := by
  have hkeep : ∀ t s, Input.edgeCb { i with t := t, state := s } b = i.edgeCb b ∧
      Input.edgeCtx { i with t := t, state := s } b = i.edgeCtx b := by
    intro t s
    cases b <;> exact ⟨rfl, rfl⟩
  unfold inputsTask
  cases i.state <;> cases x <;> simp [hkeep] <;> split <;> simp [hkeep]

/-- A tick leaves what is stored. -/
theorem edge_tick (io : Io) (id : InputId) (pins : InputId → Bool) (b : Bool) :
    ((ioEvent io (.tick pins)).1.input id).edgeCb b = (io.input id).edgeCb b ∧
      ((ioEvent io (.tick pins)).1.input id).edgeCtx b = (io.input id).edgeCtx b := by
  have hticked : (io.input id).ticked.edgeCb b = (io.input id).edgeCb b ∧
      (io.input id).ticked.edgeCtx b = (io.input id).edgeCtx b := by
    cases b <;> exact ⟨rfl, rfl⟩
  cases hst : io.state with
  | init =>
    rw [(tick_init hst id pins).1]
    cases b <;> exact ⟨rfl, rfl⟩
  | error =>
    rw [(tick_error hst id pins).1]
    exact hticked
  | running =>
    by_cases hs : Sampled id
    · rw [(tick_sampled hst hs pins).1, (edge_inputsTask id _ _ b).1, (edge_inputsTask id _ _ b).2]
      exact hticked
    · rw [(tick_unsampled hst hs pins).1]
      exact hticked

/-- An event with the registry as it was leaves what is stored. -/
theorem Stored.keep {id : InputId} {p : Io × Registry} (hI : Stored id p) {e : IoEvent}
    (hg : Registry.after id p.1 e p.2 = p.2)
    (hcb : ∀ b, ((ioEvent p.1 e).1.input id).edgeCb b = (p.1.input id).edgeCb b)
    (hctx : ∀ b, ((ioEvent p.1 e).1.input id).edgeCtx b = (p.1.input id).edgeCtx b) :
    Stored id ((ioEvent p.1 e).1, Registry.after id p.1 e p.2) := by
  rw [hg]
  refine ⟨steady_ioEvent hI.steady e, fun b => ?_, fun b hb => ?_⟩
  · rw [hcb]
    exact hI.cb b
  · rw [hctx]
    exact hI.ctx b hb

/-- **Step lemma**: what is stored stays what was registered last. -/
theorem stored_step {id : InputId} {p : Io × Registry} (hI : Stored id p) {e : IoEvent}
    (hC : SharesCtx id p e) : Stored id ((ioEvent p.1 e).1, Registry.after id p.1 e p.2) := by
  cases e with
  | tick pins =>
    exact hI.keep rfl (fun b => (edge_tick p.1 id pins b).1) fun b => (edge_tick p.1 id pins b).2
  | setState id' state => exact hI.keep rfl (fun _ => rfl) fun _ => rfl
  | toggle id' => exact hI.keep rfl (fun _ => rfl) fun _ => rfl
  | pulse id' state ms => exact hI.keep rfl (fun _ => rfl) fun _ => rfl
  | blink id' hi lo ms => exact hI.keep rfl (fun _ => rfl) fun _ => rfl
  | registerInputCb id' edge cb ctx =>
    refine ⟨steady_ioEvent hI.steady _, fun b => ?_, fun b hb => ?_⟩
    · dsimp only [ioEvent, Registry.after]
      rw [edgeCb_register]
      split
      · rfl
      · exact hI.cb b
    · dsimp only [ioEvent, Registry.after] at hb ⊢
      rw [edgeCtx_register]
      by_cases hcov : id' = id ∧ edge.Covers b
      · rw [if_pos hcov] at hb ⊢
        by_cases hboth : edge = .both
        · -- the context stays, and is the one passed
          subst hboth
          rw [if_neg fun h => h.2.2 rfl]
          obtain ⟨c, rfl⟩ := Option.ne_none_iff_exists'.mp hb
          exact (hC hcov.1 b).symm
        · rw [if_pos ⟨hcov.1, hcov.2, hboth⟩]
      · rw [if_neg hcov] at hb ⊢
        rw [if_neg fun h => hcov ⟨h.1, h.2.1⟩]
        exact hI.ctx b hb

/-- The next edge calls what is stored. -/
theorem Stored.ready {id : InputId} {p : Io × Registry} (hI : Stored id p) : Ready id p := by
  intro b
  rw [hI.cb b]
  cases hcb : (p.2 b).1 with
  | none => rfl
  | some c => rw [hI.ctx b (by simp [hcb])]

theorem waiting_inj {b c : Bool} (h : waiting b = waiting c) : b = c := by
  cases b <;> cases c <;> first | rfl | cases h

/-- **One event delivers**, in a state that is ready. -/
theorem delivered_step {id : InputId} {p : Io × Registry} (hI : p.1.Steady id) (hr : Ready id p)
    (e : IoEvent) : Delivered id p e := by
  have hquiet : callsOf id (ioEvent p.1 e).2 = [] → (∀ b, ¬ p.1.Edge id e b) →
      Delivered id p e := fun hcalls hno => ⟨fun b hb => absurd hb (hno b), fun _ => hcalls⟩
  cases hI.does e with
  | started hx hs hs' hcalls =>
    refine hquiet hcalls fun b hb => ?_
    have hlast := past_waiting b
    rw [← hb.1, hs] at hlast
    cases hlast
  | left hx hs hcalls =>
    refine hquiet hcalls fun b hb => ?_
    have hstable := hb.2
    rw [hs, hb.1, stable_waiting] at hstable
    cases hstable
  | sampled x hx hs =>
    generalize hcs : callsOf id (ioEvent p.1 e).2 = cs at hs
    cases hs with
    | first hunknown _ =>
      refine hquiet hcs fun b hb => ?_
      have hlast := past_waiting b
      rw [← hb.1, hunknown] at hlast
      cases hlast
    | quiet _ _ hstable =>
      refine hquiet hcs fun b hb => ?_
      have hnone : ((ioEvent p.1 e).1.input id).state.stable = none :=
        hstable.elim (fun h => h) fun h => by rw [h, hb.1, stable_waiting]
      rw [hb.2] at hnone
      cases hnone
    | edge hwait hstable =>
      refine ⟨fun b hb => ?_, fun hno => absurd ⟨hwait, hstable⟩ (hno x)⟩
      obtain rfl := waiting_inj (hwait.symm.trans hb.1)
      rw [hcs, hr]

/-! ## Runs -/

/-- What holds before the first event. -/
theorem stored_ioInitialize (registered : Bool) (id : InputId) :
    Stored id (ioInitialize registered, Registry.empty) := by
  refine ⟨steady_ioInitialize registered id, fun b => ?_, fun b hb => absurd rfl hb⟩
  cases b <;> rfl

/-- The state after a step of the machine with its history. -/
theorem stored_watch {id : InputId} {p q : Io × Registry} {e : IoEvent} (hI : Stored id p)
    (hC : SharesCtx id p e) (hs : watch ioStep (Registry.after id) p e = some q) : Stored id q := by
  obtain ⟨hstep, hg⟩ := watch_eq_some.mp hs
  have hq : q = ((ioEvent p.1 e).1, Registry.after id p.1 e p.2) :=
    Prod.ext (Option.some.inj hstep).symm hg
  rw [hq]
  exact stored_step hI hC

/-- **Every edge calls what was registered last**, with the context of that registration, in every
run that meets `SharesCtx`. -/
theorem delivered_run {registered : Bool} {id : InputId} {es : List IoEvent}
    (hC : Along (watch ioStep (Registry.after id)) (SharesCtx id)
      (ioInitialize registered, Registry.empty) es) :
    Along (watch ioStep (Registry.after id)) (Delivered id)
      (ioInitialize registered, Registry.empty) es :=
  along_of_inv (fun _ _ _ hI hC hs => stored_watch hI hC hs)
    (fun _ e hI _ => delivered_step hI.steady hI.ready e) (stored_ioInitialize registered id) hC

/-- **The condition is exact**: it is met along a run just when every state the run passes would
call right at the next edge. -/
theorem sharesCtx_iff {registered : Bool} {id : InputId} {es : List IoEvent} {p : Io × Registry}
    (hr : run (watch ioStep (Registry.after id)) (ioInitialize registered, Registry.empty) es =
      some p) :
    Along (watch ioStep (Registry.after id)) (SharesCtx id) (ioInitialize registered, Registry.empty)
        es ↔
      ∀ es₁ es₂ q, es = es₁ ++ es₂ →
        run (watch ioStep (Registry.after id)) (ioInitialize registered, Registry.empty) es₁ =
          some q → Ready id q := by
  refine along_iff_of_inv (fun _ _ _ hI hC hs => stored_watch hI hC hs) (fun _ hI => hI.ready) ?_
    (stored_ioInitialize registered id) hr
  intro p e q hI hs hq
  obtain ⟨hstep, hg⟩ := watch_eq_some.mp hs
  have hio : q.1 = (ioEvent p.1 e).1 := (Option.some.inj hstep).symm
  unfold SharesCtx
  split
  · -- the contexts stored are still those of before
    rename_i id' cb ctx
    rintro rfl b
    have hb := hq b
    rw [hg, hio] at hb
    dsimp only [ioEvent, Registry.after] at hb
    rw [edgeCb_register, edgeCtx_register, if_pos ⟨rfl, trivial⟩, if_neg fun h => h.2.2 rfl,
      if_pos ⟨rfl, trivial⟩] at hb
    have hcall := (List.cons.inj hb).1
    exact (congrArg Call.ctx hcall).symm
  · trivial

/-! ## Between the statements of a registration -/

/-- The statement is about the input. -/
def Statement.OnInput (id : InputId) : Statement → Prop
  | .fallingEdgeCb j _ | .fallingEdgeCtx j _ | .risingEdgeCb j _ | .risingEdgeCtx j _ => j = id
  | .tPulse _ _ | .tOper _ _ | .mode _ _ | .setOutput _ _ | .msPulseHigh _ _ | .msPulseLow _ _ => False

instance (id : InputId) (st : Statement) : Decidable (st.OnInput id) := by
  cases st <;> unfold Statement.OnInput <;> infer_instance

/-- A registration is the last one for its edges from its call on. -/
def Registry.afterMicro (id : InputId) (m : IoMachine) (e : IoMicroEvent) (g : Registry) : Registry :=
  match e with
  | .event e => g.after id m.io e
  | .step => g

/-- The machine of statements, and what was registered last. -/
abbrev watchMicro (id : InputId) : IoMachine × Registry → IoMicroEvent → Option (IoMachine × Registry) :=
  watch ioMicroStep (Registry.afterMicro id)

/-- A registration for both edges passes the context that each of them holds. -/
def MicroSharesCtx (id : InputId) (p : IoMachine × Registry) : IoMicroEvent → Prop
  | .event e => SharesCtx id (p.1.io, p.2) e
  | .step => True

/-- No edge of the input falls inside a registration for it. -/
def Undisturbed (id : InputId) (p : IoMachine × Registry) : IoMicroEvent → Prop
  | .event e => (∃ b, p.1.io.Edge id e b) → ∀ st ∈ p.1.left, ¬ st.OnInput id
  | .step => True

/-- **An edge calls what was registered last for it**, once and with its own context, and nothing else
calls anything. -/
def MicroDelivered (id : InputId) (p : IoMachine × Registry) : IoMicroEvent → Prop
  | .event (.tick pins) => Delivered id (p.1.io, p.2) (.tick pins)
  | e => callsOf id (ioMicroCalls p.1 e) = []

instance (id : InputId) (p : IoMachine × Registry) (e : IoMicroEvent) :
    Decidable (MicroSharesCtx id p e ∧ Undisturbed id p e) := by
  cases e with
  | step => exact .isTrue ⟨trivial, trivial⟩
  | event e => unfold MicroSharesCtx Undisturbed; infer_instance

instance (id : InputId) (p : IoMachine × Registry) (e : IoMicroEvent) :
    Decidable (MicroDelivered id p e) := by
  unfold MicroDelivered
  split <;> infer_instance

/-- The same callbacks and contexts for both edges. -/
def Input.SameEdges (i i' : Input) : Prop :=
  ∀ b, i.edgeCb b = i'.edgeCb b ∧ i.edgeCtx b = i'.edgeCtx b

section Micro

variable {id : InputId} {io io' : Io} {m : IoMachine}

/-- A statement changes the callbacks or contexts of one input, or nothing of the inputs. -/
theorem execStatement_input (st : Statement) :
    (∃ j f, (∀ io : Io, execStatement io st = io.mapInput j f) ∧ (∀ id, st.OnInput id ↔ j = id) ∧
        (∀ i : Input, (f i).state = i.state ∧ (f i).t = i.t) ∧
        ∀ i i' : Input, i.SameEdges i' → (f i).SameEdges (f i')) ∨
      ((∀ io : Io, (execStatement io st).input = io.input) ∧ ∀ id, ¬ st.OnInput id) := by
  have hkeep : ∀ f : Input → Input, (∀ i i' b, i.SameEdges i' →
      (f i).edgeCb b = (f i').edgeCb b ∧ (f i).edgeCtx b = (f i').edgeCtx b) →
      ∀ i i' : Input, i.SameEdges i' → (f i).SameEdges (f i') := fun f hf i i' h b => hf i i' b h
  cases st with
  | fallingEdgeCb j cb =>
    refine .inl ⟨j, fun i => { i with fallingEdgeCb := cb }, fun _ => rfl, fun _ => Iff.rfl,
      fun _ => ⟨rfl, rfl⟩, hkeep _ fun i i' b h => ?_⟩
    cases b
    · exact ⟨rfl, (h false).2⟩
    · exact h true
  | fallingEdgeCtx j ctx =>
    refine .inl ⟨j, fun i => { i with fallingEdgeCtx := ctx }, fun _ => rfl, fun _ => Iff.rfl,
      fun _ => ⟨rfl, rfl⟩, hkeep _ fun i i' b h => ?_⟩
    cases b
    · exact ⟨(h false).1, rfl⟩
    · exact h true
  | risingEdgeCb j cb =>
    refine .inl ⟨j, fun i => { i with risingEdgeCb := cb }, fun _ => rfl, fun _ => Iff.rfl,
      fun _ => ⟨rfl, rfl⟩, hkeep _ fun i i' b h => ?_⟩
    cases b
    · exact h false
    · exact ⟨rfl, (h true).2⟩
  | risingEdgeCtx j ctx =>
    refine .inl ⟨j, fun i => { i with risingEdgeCtx := ctx }, fun _ => rfl, fun _ => Iff.rfl,
      fun _ => ⟨rfl, rfl⟩, hkeep _ fun i i' b h => ?_⟩
    cases b
    · exact h false
    · exact ⟨(h true).1, rfl⟩
  | _ => exact .inr ⟨fun _ => rfl, fun _ => not_false⟩

/-- One statement changes neither the state of an input nor its timer. -/
theorem steady_execStatement (h : io.Steady id) (st : Statement) : (execStatement io st).Steady id := by
  have hstate : (execStatement io st).state = io.state := by cases st <;> rfl
  rcases execStatement_input st with ⟨j, f, hexec, -, hf, -⟩ | ⟨hexec, -⟩
  · have hinput : ((execStatement io st).input id).state = (io.input id).state ∧
        ((execStatement io st).input id).t = (io.input id).t := by
      rw [hexec]
      unfold Io.mapInput
      by_cases hj : id = j
      · subst hj
        simp [hf]
      · simp [Function.update_of_ne hj]
    exact h.congr hstate hinput.1 hinput.2
  · exact h.congr hstate (by rw [hexec]) (by rw [hexec])

theorem steady_foldl (h : io.Steady id) (sts : List Statement) :
    (sts.foldl execStatement io).Steady id := by
  induction sts generalizing io with
  | nil => exact h
  | cons st sts ih => exact ih (steady_execStatement h st)

/-- What the statements store depends only on what is stored. -/
theorem sameEdges_foldl (h : (io.input id).SameEdges (io'.input id)) (sts : List Statement) :
    ((sts.foldl execStatement io).input id).SameEdges ((sts.foldl execStatement io').input id) := by
  induction sts generalizing io io' with
  | nil => exact h
  | cons st sts ih =>
    refine ih ?_
    rcases execStatement_input st with ⟨j, f, hexec, -, -, hf⟩ | ⟨hexec, -⟩
    · rw [hexec, hexec]
      unfold Io.mapInput
      by_cases hj : id = j
      · subst hj
        simpa using hf _ _ h
      · simpa [Function.update_of_ne hj] using h
    · rw [hexec, hexec]
      exact h

/-- With no statement on the input left, the call changes nothing of it. -/
theorem input_completed (h : ∀ st ∈ m.left, ¬ st.OnInput id) :
    m.completed.input id = m.io.input id := by
  obtain ⟨io, left⟩ := m
  unfold IoMachine.completed
  induction left generalizing io with
  | nil => rfl
  | cons st sts ih =>
    obtain ⟨hst, hsts⟩ := List.forall_mem_cons.mp h
    refine (ih (execStatement io st) hsts).trans ?_
    rcases execStatement_input st with ⟨j, f, hexec, hon, -, -⟩ | ⟨hexec, -⟩
    · show (execStatement io st).input id = io.input id
      rw [hexec]
      exact Function.update_of_ne (fun hj => hst ((hon id).mpr hj.symm)) _ _
    · exact congrFun (hexec io) id

/-- What is stored once the call in progress has returned is what was registered last. -/
structure MicroStored (id : InputId) (p : IoMachine × Registry) : Prop where
  steady : p.1.io.Steady id
  stored : Stored id (p.1.completed, p.2)

/-- **Step lemma.** -/
theorem microStored_watch {p q : IoMachine × Registry} {e : IoMicroEvent} (hI : MicroStored id p)
    (hC : MicroSharesCtx id p e) (hs : watchMicro id p e = some q) : MicroStored id q := by
  obtain ⟨hstep, hg⟩ := watch_eq_some.mp hs
  obtain ⟨m, g⟩ := p
  obtain ⟨m', g'⟩ := q
  dsimp only at hstep hg hC
  subst hg
  cases e with
  | step =>
    obtain ⟨st, sts, -, hm⟩ := ioMicroStep_step.mp hstep
    refine ⟨?_, ?_⟩
    · show m'.io.Steady id
      rw [hm]
      exact steady_execStatement hI.steady st
    · show Stored id (m'.completed, g)
      rw [completed_step hstep]
      exact hI.stored
  | event e =>
    by_cases htick : e.isTick = true
    · cases e with
      | tick pins =>
        obtain rfl := Option.some.inj hstep
        have hsteady := steady_tick hI.steady pins
        refine ⟨hsteady, ?_⟩
        -- the tick leaves what is stored, so the statements left store the same
        have hedges := sameEdges_foldl (fun b => edge_tick m.io id pins b) m.left
        refine ⟨steady_foldl hsteady m.left, fun b => ?_, fun b hb => ?_⟩
        · exact (hedges b).1.trans (hI.stored.cb b)
        · exact (hedges b).2.trans (hI.stored.ctx b hb)
      | _ => cases htick
    · rw [Bool.not_eq_true] at htick
      obtain ⟨hl, st, sts, -, hm⟩ := (ioMicroStep_call htick).mp hstep
      have hio : m.completed = m.io := completed_of_left hl
      have hstored : Stored id (m.io, g) := hio ▸ hI.stored
      refine ⟨?_, ?_⟩
      · show m'.io.Steady id
        rw [hm]
        exact steady_execStatement hI.steady st
      · show Stored id (m'.completed, g.after id m.io e)
        rw [completed_call htick hstep]
        exact stored_step hstored hC

/-- **One micro-step delivers.** -/
theorem microDelivered_step {p : IoMachine × Registry} {e : IoMicroEvent} (hI : MicroStored id p)
    (hC : Undisturbed id p e) : MicroDelivered id p e := by
  obtain ⟨m, g⟩ := p
  cases e with
  | step => rfl
  | event e =>
    cases e with
    | tick pins =>
      by_cases hedge : ∃ b, m.io.Edge id (.tick pins) b
      · -- no registration is in progress: what is stored is what was registered
        have hinput := input_completed (hC hedge)
        refine delivered_step hI.steady (fun b => ?_) _
        have hready := hI.stored.ready b
        rw [hinput] at hready
        exact hready
      · have hquiet := (@delivered_step id
          (m.io, fun b => ((m.io.input id).edgeCb b, (m.io.input id).edgeCtx b)) hI.steady
          (fun b => rfl) (.tick pins)).quiet (fun b hb => hedge ⟨b, hb⟩)
        exact ⟨fun b hb => absurd ⟨b, hb⟩ hedge, fun _ => hquiet⟩
    | _ => rfl

/-- **Every edge calls what was registered last**, statement by statement: in every run in which a
registration for both edges passes the context that they hold, and no edge of the input falls
inside a registration for it. -/
theorem delivered_interleaved {registered : Bool} {id : InputId} {es : List IoMicroEvent}
    (hC : Along (watchMicro id) (fun p e => MicroSharesCtx id p e ∧ Undisturbed id p e)
      (⟨ioInitialize registered, []⟩, Registry.empty) es) :
    Along (watchMicro id) (MicroDelivered id) (⟨ioInitialize registered, []⟩, Registry.empty) es :=
  along_of_inv (fun _ _ _ hI hC hs => microStored_watch hI hC.1 hs)
    (fun _ _ hI hC => microDelivered_step hI hC.2)
    ⟨steady_ioInitialize registered id, stored_ioInitialize registered id⟩ hC

/-- Callbacks for one edge each, then one for both with the context they share, with a tick inside
its registration, and an edge. -/
theorem delivered_interleaved_shared :
    Along (watchMicro 4) (MicroDelivered 4) (⟨ioInitialize true, []⟩, Registry.empty)
      ([.event (.registerInputCb 4 .rising (some 1) 7), .step,
        .event (.registerInputCb 4 .falling (some 2) 7), .step,
        .event (.registerInputCb 4 .both (some 3) 7), .event (.tick fun _ => false), .step] ++
        (ticksAt [false, true, true]).map .event) :=
  delivered_interleaved (by decide +kernel)

/-- A callback registered for both edges with context 7 is called with context 0. -/
theorem not_delivered_interleaved :
    ¬ ∀ (registered : Bool) (id : InputId) (es : List IoMicroEvent),
      Along (watchMicro id) (MicroDelivered id)
        (⟨ioInitialize registered, []⟩, Registry.empty) es := by
  intro hall
  have hx := hall true 4 ([.event (.registerInputCb 4 .both (some 1) 7), .step] ++
    (ticksAt [false, false, true, true]).map .event)
  exact absurd hx (by decide +kernel)

end Micro

end Rastreo.Drv
