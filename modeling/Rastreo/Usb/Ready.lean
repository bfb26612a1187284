import Rastreo.Usb.Driver

/-!
# A ready driver

`USB_HOST_SIMCOM_IsInReadyState` stands for all eleven pipes being open, and for a handler that
hears their completions. `F_USB_HOST_SIMCOM_DeviceRelease` closes the pipes and forgets the
handler, but leaves the state as it is, so a driver that was ready when its device went stays
ready without one.

`Held` is the invariant that carries the rest: a valid handle is an open pipe of the attached
device, `READY` is only entered with all of them valid, and the application leaves its wait by
registering its handler. `sound_iff_stays`: a run passes only sound states exactly when no device
is released in `READY` and an interface assigned in it has its pipes opened.
-/

namespace Rastreo.Usb

open Rastreo.Lib Rastreo.Simcom

/-! ## The property and the condition -/

/-- What a ready driver promises. -/
structure Sound (u : Bus) : Prop where
  /-- Each transfer function is on an open pipe of the attached device. -/
  pipes : isInReadyState u.driver = true → ∀ (p : PipeId) (dataIsNull : Bool) (size : ℕ) (r : Request),
    p.transfer u.driver dataIsNull size = .ok r → ∃ i, r.pipeHandle = some i ∧ u.host.Open i
  /-- The handler is the application's. -/
  handler : u.app.state ≠ .waitingDriverReady → isInReadyState u.driver = true →
    u.driver.eventHandler = some .simcomEventHandler
  /-- So it is told of completions. -/
  delivered : u.app.state ≠ .waitingDriverReady → isInReadyState u.driver = true →
    ∀ context chunk u', usbStep u (.transferComplete context chunk) = some u' →
      u'.calls = u.calls ++ [(context, some chunk.length)]

/-- With so many pipe objects free the pipe is opened: its interface has the endpoint, and the
controller sets the pipe up. -/
def opens (setup : ℕ → Bool) (free : ℕ) (o : PipeId × Option EndpointDescriptor) : Bool :=
  0 < free && o.2.any fun e => setup e.bEndpointAddress

/-- Each of the pipes is opened, the last time it is its turn. -/
def Opens (setup : ℕ → Bool) : ℕ → List (PipeId × Option EndpointDescriptor) → Prop
  | _, [] => True
  | free, o :: os =>
    (opens setup free o = true ∨ o.1 ∈ os.map Prod.fst) ∧
      Opens setup (if opens setup free o then free - 1 else free) os

instance Opens.decidable (setup : ℕ → Bool) :
    ∀ (free : ℕ) (os : List (PipeId × Option EndpointDescriptor)), Decidable (Opens setup free os)
  | _, [] => .isTrue trivial
  | free, o :: os =>
    have := Opens.decidable setup (if opens setup free o then free - 1 else free) os
    inferInstanceAs (Decidable (_ ∧ _))

/-- In `READY` no device is released, and an interface that is assigned has its pipes opened. -/
def Stays (u : Bus) : UsbStep → Prop
  | .deviceDenumerate _ => u.host.deviceClientDriver = true → u.driver.state ≠ .ready
  | .interfaceAssign a setup =>
    u.driver.state = .ready → Opens setup u.host.free.card a.openings
  | _ => True

instance (u : Bus) : ∀ e : UsbStep, Decidable (Stays u e)
  | .deviceDenumerate _ =>
    inferInstanceAs (Decidable (u.host.deviceClientDriver = true → u.driver.state ≠ .ready))
  | .interfaceAssign a setup =>
    inferInstanceAs (Decidable (u.driver.state = .ready → Opens setup u.host.free.card a.openings))
  | .deviceEnumerate | .deviceAssign _ | .deviceTasks _ | .deviceEvent _ | .transferComplete _ _
  | .interfaceEvent _ | .transfer _ _ _ | .simcomTasks _ | .tick => .isTrue trivial

/-- The invariant. -/
structure Held (u : Bus) : Prop where
  owned : u.host.deviceClientDriver = true → u.host.inUse = true
  open_of_some : ∀ p i, u.driver.pipe p = some i →
    u.host.deviceClientDriver = true ∧ u.host.pipeObj i = some u.host.deviceIdentifier
  ready : u.driver.state = .ready →
    u.host.deviceClientDriver = true ∧ ∀ p, (u.driver.pipe p).isSome = true
  app : u.app.state ≠ .waitingDriverReady →
    u.driver.state = .ready ∧ u.driver.eventHandler = some .simcomEventHandler

theorem Held.sound {u : Bus} (h : Held u) : Sound u where
  pipes := by
    intro _ p dataIsNull size r hr
    obtain ⟨hready, hpipe⟩ := transfer_eq_ok hr
    obtain ⟨hown, hsome⟩ := h.ready hready
    obtain ⟨i, hi⟩ := Option.isSome_iff_exists.mp (hsome p)
    exact ⟨i, by rw [hpipe, hi], h.owned hown, (h.open_of_some p i hi).2⟩
  handler := fun happ _ => (h.app happ).2
  delivered := by
    intro happ _ context chunk u' hs
    simp only [usbStep, Option.map_eq_some_iff] at hs
    obtain ⟨app, -, rfl⟩ := hs
    show (callHandler context (some chunk.length) { u with app := app }).calls = _
    rw [callHandler_calls, if_neg]
    show ¬ u.driver.eventHandler = none
    rw [(h.app happ).2]
    simp

/-! ## The pipes -/

section Pipes

variable {u : Bus} {setup : ℕ → Bool}

theorem mem_free {h : Host} {i : PipeHandle} : i ∈ h.free ↔ h.pipeObj i = none := by
  simp [Host.free]

/-- Opening a pipe takes its object from the free ones. -/
theorem free_update {h : Host} {i : PipeHandle} {d : ℕ} :
    Host.free { h with pipeObj := Function.update h.pipeObj i (some d) } = h.free.erase i := by
  ext j
  rw [Finset.mem_erase, mem_free, mem_free]
  by_cases hij : j = i
  · simp [hij]
  · simp [hij]

/-- **What `USB_HOST_DevicePipeOpen` does**: it answers a pipe object that was free and is now the
device's, or it fails and changes nothing. -/
theorem devicePipeOpen_cases (h : Host) (ok : Bool) :
    (ok = true ∧ ∃ i ∈ h.free, h.devicePipeOpen h.deviceIdentifier ok =
      (some i, { h with pipeObj := Function.update h.pipeObj i (some h.deviceIdentifier) })) ∨
    (h.devicePipeOpen h.deviceIdentifier ok = (none, h) ∧
      ¬ (h.inUse = true ∧ ok = true ∧ 0 < h.free.card)) := by
  unfold Host.devicePipeOpen
  by_cases hu : h.inUse = true
  · rw [if_pos ⟨hu, rfl⟩]
    cases hf : (List.finRange 16).find? fun i => (h.pipeObj i).isNone with
    | some i =>
      by_cases hok : ok = true
      · refine .inl ⟨hok, i, ?_, if_pos hok⟩
        have hnone := List.find?_some hf
        rw [mem_free]
        exact Option.isNone_iff_eq_none.mp hnone
      · exact .inr ⟨if_neg hok, fun hc => hok hc.2.1⟩
    | none =>
      refine .inr ⟨rfl, fun ⟨_, _, hpos⟩ => ?_⟩
      obtain ⟨i, hi⟩ := Finset.card_pos.mp hpos
      have hnone := List.find?_eq_none.mp hf i (List.mem_finRange i)
      rw [mem_free.mp hi] at hnone
      exact hnone rfl
  · rw [if_neg fun hc => hu hc.1]
    exact .inr ⟨rfl, fun hc => hu hc.1⟩

/-- The bus after pipes were opened or closed. -/
def Bus.withPipes (u : Bus) (pipe : PipeId → Option PipeHandle) (obj : PipeHandle → Option ℕ) : Bus :=
  { u with host := { u.host with pipeObj := obj }, driver := { u.driver with pipe := pipe } }

/-- The handle an opening gets, and the pipe objects after it. -/
structure OpenedAs (u : Bus) (setup : ℕ → Bool) (o : PipeId × Option EndpointDescriptor)
    (r : Option PipeHandle) (obj : PipeHandle → Option ℕ) : Prop where
  eq : openPipe setup u o = u.withPipes (Function.update u.driver.pipe o.1 r) obj
  /-- No open pipe is closed. -/
  keeps : ∀ i, u.host.pipeObj i = some u.host.deviceIdentifier → obj i = some u.host.deviceIdentifier
  open_of_some : ∀ i, r = some i → obj i = some u.host.deviceIdentifier
  isSome : u.host.inUse = true → r.isSome = opens setup u.host.free.card o
  free : Finset.card (Host.free { u.host with pipeObj := obj }) =
    if r.isSome then u.host.free.card - 1 else u.host.free.card

theorem openedAs_none {o : PipeId × Option EndpointDescriptor}
    (heq : openPipe setup u o = u.withPipes (Function.update u.driver.pipe o.1 none) u.host.pipeObj)
    (hfail : u.host.inUse = true → opens setup u.host.free.card o = false) :
    OpenedAs u setup o none u.host.pipeObj where
  eq := heq
  keeps := fun i hi => hi
  open_of_some := fun i hi => by cases hi
  isSome := fun hu => (hfail hu).symm
  free := rfl

/-- **What an opening does.** -/
theorem openPipe_cases (o : PipeId × Option EndpointDescriptor) :
    ∃ r obj, OpenedAs u setup o r obj := by
  obtain ⟨p, e⟩ := o
  cases e with
  | none => exact ⟨none, u.host.pipeObj, openedAs_none rfl fun _ => by simp [opens]⟩
  | some e =>
    rcases devicePipeOpen_cases u.host (setup e.bEndpointAddress) with
      ⟨hok, i, hi, heq⟩ | ⟨heq, hne⟩
    · refine ⟨some i, Function.update u.host.pipeObj i (some u.host.deviceIdentifier), ?_, ?_, ?_,
        ?_, ?_⟩
      · unfold openPipe
        dsimp only
        rw [heq]
        rfl
      · intro j hj
        by_cases hij : j = i
        · rw [hij, Function.update_self]
        · rw [Function.update_of_ne hij, hj]
      · intro j hj
        rw [← Option.some.inj hj, Function.update_self]
      · intro _
        have hpos : 0 < u.host.free.card := Finset.card_pos.mpr ⟨i, hi⟩
        simp [opens, hpos, hok]
      · rw [free_update, Finset.card_erase_of_mem hi]
        rfl
    · refine ⟨none, u.host.pipeObj, openedAs_none ?_ fun hu => ?_⟩
      · unfold openPipe
        dsimp only
        rw [heq]
        rfl
      · rw [← Bool.not_eq_true]
        intro hop
        simp only [opens, Option.any_some, Bool.and_eq_true, decide_eq_true_eq] at hop
        exact hne ⟨hu, hop.2, hop.1⟩

/-- **What an interface assignment does**, whether its pipes open or not. -/
theorem openPipes_cases (os : List (PipeId × Option EndpointDescriptor)) :
    ∃ pipe obj, os.foldl (openPipe setup) u = u.withPipes pipe obj ∧
      (∀ i, u.host.pipeObj i = some u.host.deviceIdentifier → obj i = some u.host.deviceIdentifier) ∧
      ∀ p i, pipe p = some i →
        u.driver.pipe p = some i ∨ obj i = some u.host.deviceIdentifier := by
  induction os generalizing u with
  | nil => exact ⟨u.driver.pipe, u.host.pipeObj, rfl, fun i hi => hi, fun p i hi => .inl hi⟩
  | cons o os ih =>
    obtain ⟨r, obj, ho⟩ := @openPipe_cases u setup o
    obtain ⟨pipe', obj', heq', hkeep', hpipe'⟩ :=
      ih (u := u.withPipes (Function.update u.driver.pipe o.1 r) obj)
    refine ⟨pipe', obj', by rw [List.foldl_cons, ho.eq, heq']; rfl,
      fun i hi => hkeep' i (ho.keeps i hi), fun p i hp => ?_⟩
    rcases hpipe' p i hp with h | h
    · by_cases hpo : p = o.1
      · have hri : r = some i := by
          rw [← h, hpo]
          exact (Function.update_self (f := u.driver.pipe) ..).symm
        exact .inr (hkeep' i (ho.open_of_some i hri))
      · exact .inl (by rw [← h]; exact (Function.update_of_ne hpo r u.driver.pipe).symm)
    · exact .inr h

/-- The handles outside a list are valid once one more is set: the others were, and that one is
or is in the list. -/
theorem isSome_update {pipe : PipeId → Option PipeHandle} {p : PipeId} {r : Option PipeHandle}
    {ps : List PipeId} :
    (∀ q, q ∉ ps → (Function.update pipe p r q).isSome = true) ↔
      (∀ q, q ∉ p :: ps → (pipe q).isSome = true) ∧ (r.isSome = true ∨ p ∈ ps) := by
  constructor
  · intro h
    refine ⟨fun q hq => ?_, ?_⟩
    · rw [List.mem_cons, not_or] at hq
      have := h q hq.2
      rwa [Function.update_of_ne hq.1] at this
    · by_cases hp : p ∈ ps
      · exact .inr hp
      · have := h p hp
        rw [Function.update_self] at this
        exact .inl this
  · rintro ⟨h, hr⟩ q hq
    by_cases hqp : q = p
    · rw [hqp, Function.update_self]
      exact hr.resolve_right fun hp => hq (hqp ▸ hp)
    · rw [Function.update_of_ne hqp]
      exact h q (by simp [hqp, hq])

/-- **After an assignment every handle is valid** exactly when the pipes it opens are opened and
the others were valid. -/
theorem isSome_openPipes {os : List (PipeId × Option EndpointDescriptor)}
    (hu : u.host.inUse = true) :
    (∀ p, ((os.foldl (openPipe setup) u).driver.pipe p).isSome = true) ↔
      (∀ p, p ∉ os.map Prod.fst → (u.driver.pipe p).isSome = true) ∧
        Opens setup u.host.free.card os := by
  induction os generalizing u with
  | nil => simp [Opens]
  | cons o os ih =>
    obtain ⟨r, obj, ho⟩ := @openPipe_cases u setup o
    rw [List.foldl_cons, ho.eq, ih (u := u.withPipes (Function.update u.driver.pipe o.1 r) obj) hu]
    have hfree : Finset.card (u.withPipes (Function.update u.driver.pipe o.1 r) obj).host.free =
        if opens setup u.host.free.card o then u.host.free.card - 1 else u.host.free.card := by
      rw [← ho.isSome hu]
      exact ho.free
    rw [hfree, Opens, List.map_cons, ← ho.isSome hu, ← and_assoc]
    exact and_congr_left' isSome_update

/-- **What closing pipes does**: their handles become invalid. -/
theorem closePipes_cases (ps : List PipeId) :
    ∃ pipe obj, ps.foldl closePipe u = u.withPipes pipe obj ∧
      (∀ p, u.driver.pipe p = none → pipe p = none) ∧ ∀ p ∈ ps, pipe p = none := by
  induction ps generalizing u with
  | nil => exact ⟨u.driver.pipe, u.host.pipeObj, rfl, fun p hp => hp, fun p hp => absurd hp List.not_mem_nil⟩
  | cons q ps ih =>
    have hone : ∃ pipe obj, closePipe u q = u.withPipes pipe obj ∧
        (∀ p, u.driver.pipe p = none → pipe p = none) ∧ pipe q = none := by
      unfold closePipe
      split
      · next i hi =>
        obtain ⟨obj, hobj⟩ : ∃ obj, u.host.devicePipeClose i = { u.host with pipeObj := obj } := by
          unfold Host.devicePipeClose
          split
          · exact ⟨_, rfl⟩
          · exact ⟨u.host.pipeObj, rfl⟩
        refine ⟨Function.update u.driver.pipe q none, obj, by rw [hobj]; rfl, fun p hp => ?_,
          Function.update_self ..⟩
        by_cases hpq : p = q
        · rw [hpq, Function.update_self]
        · rw [Function.update_of_ne hpq, hp]
      · next hq => exact ⟨u.driver.pipe, u.host.pipeObj, rfl, fun p hp => hp, hq⟩
    obtain ⟨pipe, obj, heq, hnone, hq⟩ := hone
    obtain ⟨pipe', obj', heq', hnone', hps⟩ := ih (u := u.withPipes pipe obj)
    refine ⟨pipe', obj', by rw [List.foldl_cons, heq, heq']; rfl,
      fun p hp => hnone' p (hnone p hp), fun p hp => ?_⟩
    rcases List.mem_cons.mp hp with rfl | hp
    · exact hnone' p hq
    · exact hps p hp

end Pipes

/-! ## The application -/

section Application

variable {u : Bus}

/-- The handler only sets flags. -/
theorem state_simcomEventHandler (ev : UsbEvent) (data : Option ℕ) (s : Sys) :
    (Simcom.simcomEventHandler ev data s).state = s.state := by
  unfold Simcom.simcomEventHandler
  cases ev <;> cases data <;> rfl

theorem state_callHandler (ev : UsbEvent) (data : Option ℕ) :
    (callHandler ev data u).app.state = u.app.state := by
  unfold callHandler
  split
  · exact state_simcomEventHandler ev data u.app
  · rfl

theorem state_received {ev : UsbEvent} {chunk : Bytes} {s s' : Sys}
    (h : received ev chunk s = some s') : s'.state = s.state := by
  unfold received at h
  split at h
  · rw [Option.map_eq_some_iff] at h
    obtain ⟨buff, -, rfl⟩ := h
    rfl
  · cases h
    rfl
  · cases h
    rfl

/-- The application waits as long as the driver is not ready. -/
theorem simcomTasks_waiting {io : Io} {s : Sys} (hs : s.state = .waitingDriverReady)
    (hio : io.driverReady = false) : simcomTasks io s = s := by
  unfold simcomTasks
  rw [hs]
  show execBlock io s .driver = s
  unfold execBlock
  rw [if_neg (by rw [hio]; simp)]

/-- The transfers aborted by a release are completed ones to the application. -/
theorem aborted_frame (aborted : List (UsbEvent × ℕ)) :
    ∃ app calls, aborted.foldl (fun u c => interfaceEventHandler (.transferComplete c.2) c.1 u) u =
      { u with app := app, calls := calls } ∧ app.state = u.app.state := by
  induction aborted generalizing u with
  | nil => exact ⟨u.app, u.calls, rfl, rfl⟩
  | cons c cs ih =>
    obtain ⟨app, calls, heq, hstate⟩ := ih (u := callHandler c.1 (some c.2) u)
    refine ⟨app, calls, ?_, by rw [hstate, state_callHandler]⟩
    rw [List.foldl_cons]
    show cs.foldl _ (callHandler c.1 (some c.2) u) = _
    rw [heq, callHandler_host, callHandler_driver]

/-- **What a release does**: no handle is valid and none is registered to hear of it, but the
state is the one before. -/
theorem deviceRelease_cases (aborted : List (UsbEvent × ℕ)) :
    (deviceRelease aborted u).host.deviceClientDriver = u.host.deviceClientDriver ∧
      (∀ p, (deviceRelease aborted u).driver.pipe p = none) ∧
      (deviceRelease aborted u).driver.eventHandler = none ∧
      (deviceRelease aborted u).driver.state = u.driver.state ∧
      (deviceRelease aborted u).app.state = u.app.state := by
  obtain ⟨app, calls, heq, hstate⟩ := aborted_frame (u := u) aborted
  obtain ⟨pipe, obj, hclose, -, hall⟩ :=
    closePipes_cases (u := { u with app := app, calls := calls }) PipeId.all
  unfold deviceRelease
  dsimp only
  rw [heq, hclose, callHandler_host, callHandler_driver, state_callHandler]
  exact ⟨rfl, fun p => hall p (mem_all p), rfl, rfl, hstate⟩

end Application

/-! ## One step -/

section Step

variable {u u' : Bus}

/-- Without a device of its own the driver has no valid handle. -/
theorem Held.pipe_of_not_owned (h : Held u) (hown : ¬ u.host.deviceClientDriver = true) (p : PipeId) :
    u.driver.pipe p = none := by
  cases hp : u.driver.pipe p with
  | none => rfl
  | some i => exact absurd (h.open_of_some p i hp).1 hown

theorem Held.not_ready_of_not_owned (h : Held u) (hown : ¬ u.host.deviceClientDriver = true) :
    u.driver.state ≠ .ready := fun hr => hown (h.ready hr).1

theorem Held.waiting_of_not_ready (h : Held u) (hr : u.driver.state ≠ .ready) :
    u.app.state = .waitingDriverReady :=
  by_contra fun happ => hr (h.app happ).1

/-- A driver that holds nothing is as the invariant wants it. -/
theorem Held.of_not_ready (hown : u.host.deviceClientDriver = true → u.host.inUse = true)
    (hpipe : ∀ p, u.driver.pipe p = none) (hr : u.driver.state ≠ .ready)
    (happ : u.app.state = .waitingDriverReady) : Held u where
  owned := hown
  open_of_some := fun p i hi => by rw [hpipe p] at hi; cases hi
  ready := fun h => absurd h hr
  app := fun h => absurd happ h

/-- The invariant reads the pipes, the handler and the two states. -/
theorem Held.congr (h : Held u) (hhost : u'.host = u.host) (hpipe : u'.driver.pipe = u.driver.pipe)
    (hstate : u'.driver.state = u.driver.state)
    (hhandler : u'.driver.eventHandler = u.driver.eventHandler)
    (happ : u'.app.state = u.app.state) : Held u' where
  owned := by rw [hhost]; exact h.owned
  open_of_some := by rw [hhost, hpipe]; exact h.open_of_some
  ready := by rw [hhost, hpipe, hstate]; exact h.ready
  app := by rw [happ, hstate, hhandler]; exact h.app

theorem held_deviceEnumerate (h : Held u) (hfree : ¬ u.host.inUse = true) :
    Held { u with host := u.host.deviceEnumerate } := by
  have hown : ¬ u.host.deviceClientDriver = true := fun ho => hfree (h.owned ho)
  have hr := h.not_ready_of_not_owned hown
  exact .of_not_ready (fun _ => rfl) (h.pipe_of_not_owned hown) hr (h.waiting_of_not_ready hr)

theorem held_deviceAssign (h : Held u) (n : ℕ) (huse : u.host.inUse = true)
    (hown : ¬ u.host.deviceClientDriver = true) :
    Held (deviceAssign n { u with host := { u.host with deviceClientDriver := true } }) := by
  have happ := h.waiting_of_not_ready (h.not_ready_of_not_owned hown)
  have hpipe := h.pipe_of_not_owned hown
  unfold deviceAssign
  dsimp only
  split
  · exact .of_not_ready (fun _ => huse) hpipe (by simp) happ
  · refine .of_not_ready (fun _ => ?_) hpipe (by simp) happ
    unfold Host.deviceRelease
    split <;> exact huse

/-- **What the device task does**: it enters `READY` with every handle valid, or another state
from one that is not `READY`. -/
theorem deviceTasks_cases (set : HostResult) (d : Driver) :
    (deviceTasks set d).pipe = d.pipe ∧ (deviceTasks set d).eventHandler = d.eventHandler ∧
      ((deviceTasks set d).state = d.state ∨ (d.state ≠ .ready ∧
        ((deviceTasks set d).state = .ready → ∀ p, (d.pipe p).isSome = true))) := by
  unfold deviceTasks
  split
  · exact ⟨rfl, rfl, .inl rfl⟩
  · next hs =>
    dsimp only
    split
    · exact ⟨rfl, rfl, .inr ⟨by rw [hs]; simp, by simp⟩⟩
    · exact ⟨rfl, rfl, .inl rfl⟩
  · next hs =>
    split
    · split
      · exact ⟨rfl, rfl, .inr ⟨by rw [hs]; simp, by simp⟩⟩
      · exact ⟨rfl, rfl, .inr ⟨by rw [hs]; simp, by simp⟩⟩
    · exact ⟨rfl, rfl, .inl rfl⟩
  · next hs =>
    split
    · next hall =>
      exact ⟨rfl, rfl, .inr ⟨by rw [hs]; simp, fun _ p => List.all_eq_true.mp hall p (mem_all p)⟩⟩
    · exact ⟨rfl, rfl, .inl rfl⟩
  · exact ⟨rfl, rfl, .inl rfl⟩
  · exact ⟨rfl, rfl, .inl rfl⟩

theorem held_deviceTasks (h : Held u) (set : HostResult) (hown : u.host.deviceClientDriver = true) :
    Held { u with driver := deviceTasks set u.driver } := by
  obtain ⟨hpipe, hhandler, hstate | ⟨hr, hall⟩⟩ := deviceTasks_cases set u.driver
  · exact h.congr rfl hpipe hstate hhandler rfl
  · have happ := h.waiting_of_not_ready hr
    refine ⟨h.owned, fun p i hi => h.open_of_some p i ?_, fun hready => ⟨hown, fun p => ?_⟩,
      fun hc => absurd happ hc⟩
    · rw [← hpipe]
      exact hi
    · show ((deviceTasks set u.driver).pipe p).isSome = true
      rw [hpipe]
      exact hall hready p

theorem held_interfaceAssign (h : Held u) (a : Assigned) (setup : ℕ → Bool)
    (hown : u.host.deviceClientDriver = true)
    (hc : u.driver.state = .ready → Opens setup u.host.free.card a.openings) :
    Held (interfaceAssign a setup u) := by
  have hsome := fun hr =>
    (isSome_openPipes (h.owned hown)).mpr ⟨fun p _ => (h.ready hr).2 p, hc hr⟩
  obtain ⟨pipe, obj, heq, hkeep, hpipe⟩ := @openPipes_cases u setup a.openings
  unfold interfaceAssign
  rw [heq] at hsome ⊢
  refine ⟨h.owned, fun p i hi => ⟨hown, ?_⟩, fun hr => ⟨hown, hsome hr⟩, h.app⟩
  rcases hpipe p i hi with hold | hnew
  · exact hkeep i (h.open_of_some p i hold).2
  · exact hnew

theorem held_deviceDenumerate (h : Held u) (aborted : List (UsbEvent × ℕ))
    (hc : u.host.deviceClientDriver = true → u.driver.state ≠ .ready) :
    Held (deviceDenumerate aborted u) := by
  have hr : u.driver.state ≠ .ready := fun hr => hc (h.ready hr).1 hr
  have happ := h.waiting_of_not_ready hr
  unfold deviceDenumerate
  dsimp only
  split
  · obtain ⟨-, hpipe, -, hstate, happ'⟩ := deviceRelease_cases (u := u) aborted
    refine .of_not_ready (fun hn => by cases hn) hpipe ?_ (happ'.trans happ)
    show (deviceRelease aborted u).driver.state ≠ .ready
    rw [hstate]
    exact hr
  · next hown => exact .of_not_ready (fun hn => by cases hn) (h.pipe_of_not_owned hown) hr happ

theorem held_appTasks (h : Held u) (io : Io) : Held (appTasks io u) := by
  unfold appTasks
  dsimp only
  by_cases hw : u.app.state = .waitingDriverReady
  · by_cases hready : u.driver.state = .ready
    · have hdriver : isInReadyState u.driver = true := decide_eq_true hready
      rw [if_pos ⟨hw, hdriver⟩]
      exact ⟨h.owned, h.open_of_some, h.ready, fun _ => ⟨hready, rfl⟩⟩
    · have hdriver : isInReadyState u.driver = false := decide_eq_false hready
      rw [if_neg (by rw [hdriver]; simp), simcomTasks_waiting hw hdriver]
      exact h.congr rfl rfl rfl rfl rfl
  · rw [if_neg fun hc => hw hc.1]
    exact ⟨h.owned, h.open_of_some, h.ready, fun _ => h.app hw⟩

/-- **Step lemma.** -/
theorem held_of_step (e : UsbStep) (h : Held u) (hc : Stays u e) (hs : usbStep u e = some u') :
    Held u' := by
  cases e with
  | deviceEnumerate =>
    simp only [usbStep] at hs
    split at hs
    · cases hs
    · next hfree =>
      cases hs
      exact held_deviceEnumerate h hfree
  | deviceAssign n =>
    simp only [usbStep] at hs
    split at hs
    · next hg =>
      cases hs
      exact held_deviceAssign h n hg.1 hg.2
    · cases hs
  | deviceTasks set =>
    simp only [usbStep] at hs
    split at hs
    · next hown =>
      cases hs
      exact held_deviceTasks h set hown
    · cases hs
  | deviceEvent e =>
    simp only [usbStep] at hs
    split at hs
    · cases hs
      refine h.congr rfl ?_ ?_ ?_ rfl
      all_goals cases e <;> rfl
    · cases hs
  | interfaceAssign a setup =>
    simp only [usbStep] at hs
    split at hs
    · next hown =>
      cases hs
      exact held_interfaceAssign h a setup hown hc
    · cases hs
  | transferComplete context chunk =>
    simp only [usbStep, Option.map_eq_some_iff] at hs
    obtain ⟨app, happ, rfl⟩ := hs
    simp only [interfaceEventHandler]
    refine h.congr (callHandler_host ..) ?_ ?_ ?_ ?_
    · rw [callHandler_driver]
    · rw [callHandler_driver]
    · rw [callHandler_driver]
    · rw [state_callHandler]
      exact state_received happ
  | interfaceEvent context =>
    cases hs
    exact h
  | transfer p dataIsNull size =>
    cases hs
    exact h
  | deviceDenumerate aborted =>
    simp only [usbStep] at hs
    split at hs
    · cases hs
      exact held_deviceDenumerate h aborted hc
    · cases hs
  | simcomTasks io =>
    cases hs
    exact held_appTasks h io
  | tick =>
    cases hs
    refine h.congr rfl rfl rfl rfl ?_
    show (resendATCommandCB u.app).state = u.app.state
    unfold resendATCommandCB
    split <;> rfl

end Step

/-- In a sound state a ready driver has no invalid handle. -/
theorem Sound.isSome {u : Bus} (h : Sound u) (hr : u.driver.state = .ready) (p : PipeId) :
    (u.driver.pipe p).isSome = true := by
  obtain ⟨i, hi, -⟩ := h.pipes (decide_eq_true hr) p false 0 _ (transfer_of_ready hr)
  exact Option.isSome_iff_exists.mpr ⟨i, hi⟩

/-- No step against the condition ends in a sound state. -/
theorem stays_of_sound {u u' : Bus} (e : UsbStep) (h : Held u) (hs : usbStep u e = some u')
    (hsound : Sound u') : Stays u e := by
  cases e with
  | deviceDenumerate aborted =>
    intro hown hready
    simp only [usbStep, if_pos (h.owned hown)] at hs
    cases hs
    obtain ⟨-, hpipe, -, hstate, -⟩ := deviceRelease_cases (u := u) aborted
    have hu : (deviceDenumerate aborted u).driver = (deviceRelease aborted u).driver := by
      unfold deviceDenumerate
      rw [if_pos hown]
    have hsome := hsound.isSome (by rw [hu, hstate, hready]) .atBulkOut
    rw [hu, hpipe] at hsome
    cases hsome
  | interfaceAssign a setup =>
    intro hready
    have hown := (h.ready hready).1
    simp only [usbStep, if_pos hown] at hs
    cases hs
    refine ((isSome_openPipes (h.owned hown)).mp fun p => ?_).2
    obtain ⟨pipe, obj, heq, -⟩ := @openPipes_cases u setup a.openings
    refine hsound.isSome ?_ p
    unfold interfaceAssign
    rw [heq]
    exact hready
  | deviceEnumerate | deviceAssign n | deviceTasks set | deviceEvent e | transferComplete c chunk
  | interfaceEvent c | transfer p dataIsNull size | simcomTasks io | tick => exact trivial

/-! ## A run -/

theorem held_init : Held usbInit :=
  .of_not_ready (fun h => by cases h) (fun _ => rfl) (by simp [usbInit]) rfl

/-- **The states a run passes are all sound exactly when its steps keep to the condition.** -/
theorem sound_iff_stays (es : List UsbStep) (u : Bus) (hr : run usbStep usbInit es = some u) :
    (∀ es₁ es₂ v, es = es₁ ++ es₂ → run usbStep usbInit es₁ = some v → Sound v) ↔
      Along usbStep Stays usbInit es :=
  (along_iff_of_inv (fun _ e _ hI hC hs => held_of_step e hI hC hs) (fun _ hI => hI.sound)
    (fun _ e _ hI hs hQ => stays_of_sound e hI hs hQ) held_init hr).symm

/-! ## The modem plugged in, and out -/

/-- The endpoints of an interface of the modem. -/
def endpoints : List EndpointDescriptor :=
  [⟨0x81, .interrupt, .deviceToHost⟩, ⟨0x82, .bulk, .deviceToHost⟩, ⟨0x02, .bulk, .hostToDevice⟩]

/-- The modem is plugged in, set up, and taken into use by the application. -/
def plugIn : List UsbStep :=
  [.deviceEnumerate, .deviceAssign 1, .deviceTasks .success, .deviceEvent (.configurationSet .success),
    .deviceTasks .success,
    .interfaceAssign (.association (some ⟨0, 0xE0, 1, 3, endpoints⟩) (some ⟨1, 0x0A, 0, 0, endpoints⟩))
      fun _ => true,
    .interfaceAssign (.interface ⟨2, 0xFF, 0, 0, endpoints⟩) fun _ => true,
    .interfaceAssign (.interface ⟨4, 0xFF, 0, 0, endpoints⟩) fun _ => true,
    .interfaceAssign (.interface ⟨5, 0xFF, 0, 0, endpoints⟩) fun _ => true,
    .deviceTasks .success, .simcomTasks ⟨true, .success, .success, .success, 0, 0, 0, 0⟩]

theorem sound_plugIn : ∃ u, run usbStep usbInit plugIn = some u ∧
    isInReadyState u.driver = true ∧ u.app.state ≠ .waitingDriverReady ∧
    ∀ es₁ es₂ v, plugIn = es₁ ++ es₂ → run usbStep usbInit es₁ = some v → Sound v := by
  have h : (run usbStep usbInit plugIn).map (fun u => (isInReadyState u.driver, u.app.state)) =
      some (true, .notReady) := by decide +kernel
  obtain ⟨u, hu, hv⟩ := Option.map_eq_some_iff.mp h
  obtain ⟨hready, happ⟩ := Prod.mk.inj hv
  refine ⟨u, hu, hready, by rw [happ]; simp, ?_⟩
  exact (sound_iff_stays plugIn u hu).mpr (by decide +kernel)

/-- Once it is unplugged the driver is still ready, on no pipe. -/
theorem not_sound_unplugged :
    ¬ ∀ (es : List UsbStep) (u : Bus), run usbStep usbInit es = some u → Sound u := by
  have h : (run usbStep usbInit (plugIn ++ [.deviceDenumerate []])).map
      (fun u => (u.driver.state, u.driver.pipe .atBulkOut)) = some (.ready, none) := by
    decide +kernel
  obtain ⟨u, hu, hv⟩ := Option.map_eq_some_iff.mp h
  obtain ⟨hready, hpipe⟩ := Prod.mk.inj hv
  intro hall
  have hsome := (hall _ u hu).isSome hready .atBulkOut
  rw [hpipe] at hsome
  cases hsome

end Rastreo.Usb
