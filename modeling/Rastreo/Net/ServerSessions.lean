import Rastreo.Net.ServerQueue

/-!
# The sessions of a server slot

A slot tells its user when a connection is there and when it is over. Between the two the state of
the slot is one of seven (`ServerSlot.live`). `tcpEventCallback` and `tcp_server_force_disconnect`
set the state whatever it was: a FIN that arrives without a connection is told as its end, and a
connection that arrives before the end of the last one was told as a second beginning.

* `Alternates`: a beginning, an end, a beginning and so on.
* `SessionInv`: a session is open exactly while the slot is live. Each operation keeps it when the
  stack's signals are `Orderly`.
* **`sessions_alternate`**: in a run of orderly signals the events of every slot alternate.
-/

namespace Rastreo.Net

open Rastreo.Lib

/-! ## The events of a slot -/

/-- Whether the event opens a session or ends one. -/
def ServerEvent.opens? : ServerEvent → Option Bool
  | .connectionStablished => some true
  | .disconnected | .close => some false
  | .messageSent => none

/-- The beginnings and ends of sessions. -/
def sessions (es : List ServerEvent) : List Bool := es.filterMap ServerEvent.opens?

/-- **A session is opened, ended, opened and so on.** -/
def Alternates (es : List ServerEvent) : Prop := (false :: sessions es).IsChain (· ≠ ·)

instance (es : List ServerEvent) : Decidable (Alternates es) :=
  inferInstanceAs (Decidable (List.IsChain _ _))

/-- The last session was not ended. -/
def sessionOpen (es : List ServerEvent) : Bool := (false :: sessions es).getLastD false

section Events

variable {es : List ServerEvent} {e : ServerEvent}

theorem alternates_nil : Alternates [] := List.isChain_singleton _

/-- Any other event changes nothing. -/
theorem sessions_push_none (he : e.opens? = none) : sessions (es ++ [e]) = sessions es := by
  unfold sessions
  rw [List.filterMap_append, List.filterMap_cons_none he, List.filterMap_nil, List.append_nil]

theorem sessions_push_some {b : Bool} (he : e.opens? = some b) :
    sessions (es ++ [e]) = sessions es ++ [b] := by
  unfold sessions
  rw [List.filterMap_append, List.filterMap_cons_some he, List.filterMap_nil]

theorem sessionOpen_push {b : Bool} (he : e.opens? = some b) : sessionOpen (es ++ [e]) = b := by
  unfold sessionOpen
  rw [sessions_push_some he, ← List.cons_append, List.getLastD_concat]

theorem Alternates.push {b : Bool} (h : Alternates es) (he : e.opens? = some b)
    (hb : sessionOpen es ≠ b) : Alternates (es ++ [e]) := by
  unfold Alternates
  rw [sessions_push_some he, ← List.cons_append]
  refine List.isChain_append.mpr ⟨h, List.isChain_singleton _, ?_⟩
  intro x hx z hz
  obtain rfl := Option.some.inj hz
  unfold sessionOpen at hb
  rwa [List.getLastD_eq_getLast?, Option.mem_def.mp hx] at hb

end Events

/-! ## The signals -/

/-- From the signal of a connection to the event of its end. -/
def ServerSlot.live (s : ServerSlot) : Bool :=
  match s.state with
  | .connectionStablished | .disconnecting | .waitDisconnect | .aborting | .waitAbort | .close
  | .waitClose => true
  | .init | .openSocket | .waitForConnection | .disable => false

/-- A slot is disconnected while it is live; one without a callback tells nobody. -/
def ServerCall.Orderly (y : ServerSys) : ServerCall → Prop
  | .send _ _ => True
  | .forceDisconnect i => (y.servers i).cb = true → (y.servers i).live = true

/-- A connection arrives on a slot that is not live, its end on one that is, and the server is
reset when no slot is live. -/
def Orderly (y : ServerSys) : ServerStep → Prop
  | .signal i _ _ .established => (y.servers i).cb = true → (y.servers i).live = false
  | .signal i _ _ .rxFin | .signal i _ _ .rxRst =>
    (y.servers i).cb = true → (y.servers i).live = true
  | .signal _ _ _ .other | .config _ _ _ => True
  -- the receive processor runs in two of the states
  | .pass i io => (y.servers i).rxP = true → (y.servers i).state = .connectionStablished ∨
      (y.servers i).state = .disconnecting → ∀ c ∈ io.rx, c.Orderly y
  | .call c => c.Orderly y
  | .reset => ∀ i, (y.servers i).cb = true → (y.servers i).live = false

instance (y : ServerSys) : (c : ServerCall) → Decidable (c.Orderly y)
  | .send _ _ => .isTrue trivial
  | .forceDisconnect _ => inferInstanceAs (Decidable (_ → _))

instance (y : ServerSys) : (e : ServerStep) → Decidable (Orderly y e)
  | .signal _ _ _ .established => inferInstanceAs (Decidable (_ → _))
  | .signal _ _ _ .rxFin | .signal _ _ _ .rxRst => inferInstanceAs (Decidable (_ → _))
  | .signal _ _ _ .other | .config _ _ _ => .isTrue trivial
  | .pass _ _ => inferInstanceAs (Decidable (_ → _ → ∀ c ∈ _, ServerCall.Orderly y c))
  | .call c => inferInstanceAs (Decidable (c.Orderly y))
  | .reset => inferInstanceAs (Decidable (∀ _, _ → _))

/-- After the step the events of every slot alternate. -/
def Alternating (y : ServerSys) (e : ServerStep) : Prop :=
  ∀ y', serverStep y e = some y' → ∀ i, Alternates (y'.servers i).events

/-! ## The invariant -/

/-- **A session is open while the slot is live.** -/
structure SessionInv (s : ServerSlot) : Prop where
  noCallback : s.inUse = false → s.cb = false
  silent : s.cb = false → sessions s.events = []
  alternates : Alternates s.events
  sessionOpen_eq : s.cb = true → sessionOpen s.events = s.live

section Slots

variable {s s' : ServerSlot}

/-- A slot that stays live, or stays not live, and tells of no session. -/
theorem SessionInv.of_same (h : SessionInv s) (hu : s'.inUse = s.inUse) (hc : s'.cb = s.cb)
    (he : sessions s'.events = sessions s.events) (hl : s.cb = true → s'.live = s.live) :
    SessionInv s' where
  noCallback hn := hc.trans (h.noCallback (hu.symm.trans hn))
  silent hn := he.trans (h.silent (hc.symm.trans hn))
  alternates := by
    unfold Alternates
    rw [he]
    exact h.alternates
  sessionOpen_eq hn := by
    have hcb := hc.symm.trans hn
    unfold sessionOpen
    rw [he, hl hcb]
    exact h.sessionOpen_eq hcb

/-- `emitEvent` changes the events and nothing else. -/
theorem emitEvent_eq (s : ServerSlot) (e : ServerEvent) :
    s.emitEvent e = { s with events := if s.cb then s.events ++ [e] else s.events } := by
  unfold ServerSlot.emitEvent
  split <;> rfl

/-- A slot tells of the session that its new state means. -/
theorem SessionInv.emit (h : SessionInv s) {e : ServerEvent} {b : Bool} (he : e.opens? = some b)
    (hu : s'.inUse = s.inUse) (hc : s'.cb = s.cb)
    (hev : s'.events = if s.cb then s.events ++ [e] else s.events)
    (hold : s.cb = true → s.live ≠ b) (hnew : s'.live = b) : SessionInv s' := by
  cases hcb : s.cb with
  | false =>
    rw [hcb, if_neg Bool.false_ne_true] at hev
    exact h.of_same hu hc (congrArg sessions hev) (by rw [hcb]; rintro ⟨⟩)
  | true =>
    rw [hcb, if_pos rfl] at hev
    refine ⟨fun hn => hc.trans (h.noCallback (hu.symm.trans hn)), ?_, ?_, fun _ => ?_⟩
    · rw [hc, hcb]
      rintro ⟨⟩
    · rw [hev]
      exact h.alternates.push he (by rw [h.sessionOpen_eq hcb]; exact hold hcb)
    · rw [hev, hnew]
      exact sessionOpen_push he

theorem SessionInv.setState (h : SessionInv s) {q : ServerState}
    (hl : s.cb = true → (s.setState q).live = s.live) : SessionInv (s.setState q) :=
  h.of_same rfl rfl rfl hl

/-- A connection is told when there was none. -/
theorem SessionInv.established (h : SessionInv s) (hl : s.cb = true → s.live = false)
    (address : UInt32) (port : UInt16) :
    SessionInv (s.tcpEventCallback address port .established) := by
  unfold ServerSlot.tcpEventCallback
  dsimp only
  rw [emitEvent_eq]
  refine @SessionInv.emit s _ h .connectionStablished _ rfl rfl rfl rfl (fun hcb => ?_) rfl
  rw [hl hcb]
  exact Bool.false_ne_true

/-- The end of a session is told, and the slot waits for the next one. -/
theorem SessionInv.ended (h : SessionInv s) (hl : s.live = true) : SessionInv s.ended := by
  unfold ServerSlot.ended
  rw [emitEvent_eq]
  refine @SessionInv.emit s _ h .disconnected _ rfl rfl rfl rfl (fun _ => ?_) rfl
  rw [hl]
  rintro ⟨⟩

theorem SessionInv.closed (h : SessionInv s) (hl : s.live = true) :
    SessionInv { s.emitEvent .close with hSocket := invalidSocket, state := .init } := by
  rw [emitEvent_eq]
  refine @SessionInv.emit s _ h .close _ rfl rfl rfl rfl (fun _ => ?_) rfl
  rw [hl]
  rintro ⟨⟩

/-- A message that was sent is no session. -/
theorem SessionInv.messageSent (h : SessionInv s) : SessionInv (s.emitEvent .messageSent) := by
  rw [emitEvent_eq]
  refine h.of_same rfl rfl ?_ fun _ => rfl
  dsimp only
  split
  · exact sessions_push_none rfl
  · rfl

/-- The stream of a slot has no part in its sessions. -/
theorem SessionInv.of_stream (h : SessionInv s) {out : OutTx} {put : Bytes} {passed : List Bytes}
    {calls : List StackCall} {fault : Bool} {hSocket : Int} :
    SessionInv { s with
      out := out, put := put, passed := passed, calls := calls, fault := fault,
      hSocket := hSocket } :=
  h.of_same rfl rfl rfl fun _ => rfl

theorem SessionInv.txTask (h : SessionInv s) (putIsReady : Nat) (hp : Heap) :
    SessionInv (s.txTask putIsReady hp).1 := by
  unfold ServerSlot.txTask
  cases s.out.state with
  | idle =>
    dsimp only
    split
    · exact h.of_stream
    · exact h
  | sending =>
    dsimp only
    split
    · cases s.out.queueData with
      | nil => exact h.of_stream
      | cons n rest =>
        dsimp only
        split
        · exact h.of_stream
        · refine SessionInv.of_stream (SessionInv.messageSent ?_)
          exact h.of_stream
    · exact h
  | error => exact h.of_stream

theorem SessionInv.send (h : SessionInv s) (hp : Heap) (data : Packet) :
    SessionInv (s.send hp data).1 := by
  unfold ServerSlot.send
  dsimp only
  split
  · cases listNewNode hp data.bytes data.bytes.length with
    | mk node hp' =>
      cases node with
      | none => exact h.of_stream
      | some n => exact h.of_stream
  · exact h.of_stream

theorem reset_quiet (s : ServerSlot) (hp : Heap) : (s.reset hp).1.live = false := by
  unfold ServerSlot.reset
  split <;> rfl

theorem SessionInv.reset (h : SessionInv s) (hl : s.cb = true → s.live = false) (hp : Heap) :
    SessionInv (s.reset hp).1 := by
  have hinit : ∀ {t : ServerSlot}, SessionInv t → t.cb = s.cb → t.live = s.live →
      SessionInv (t.setState .init) := fun ht hc hlive =>
    ht.setState fun hcb => (hlive.trans (hl (hc.symm.trans hcb))).symm
  unfold ServerSlot.reset
  split
  · unfold ServerSlot.clearStream
    split
    · exact hinit h.of_stream rfl rfl
    · exact hinit h.of_stream rfl rfl
  · exact hinit h rfl rfl

end Slots

/-! ## The steps -/

section System

variable {y y' : ServerSys}

/-- What a call leaves of a slot. -/
def ServerSlot.Kept (s s' : ServerSlot) : Prop :=
  s'.cb = s.cb ∧ (s.live = true → s'.live = true)

theorem send_kept (s : ServerSlot) (hp : Heap) (data : Packet) : s.Kept (s.send hp data).1 := by
  unfold ServerSlot.send
  dsimp only
  split
  · cases listNewNode hp data.bytes data.bytes.length with
    | mk node hp' => cases node <;> exact ⟨rfl, id⟩
  · exact ⟨rfl, id⟩

theorem call_kept (y : ServerSys) (c : ServerCall) (i : Fin tcpServerMaxSockets) :
    (y.servers i).Kept ((y.call c).servers i) := by
  cases c with
  | send j data => exact ServerSys.rel_put (fun _ => ⟨rfl, id⟩) (send_kept _ _ _) i
  | forceDisconnect j => exact ServerSys.rel_put (fun _ => ⟨rfl, id⟩) ⟨rfl, fun _ => rfl⟩ i

theorem ServerCall.Orderly.call {c c' : ServerCall} (h : c.Orderly y) :
    c.Orderly (y.call c') := by
  cases c with
  | send _ _ => trivial
  | forceDisconnect i =>
    obtain ⟨hcb, hlive⟩ := call_kept y c' i
    exact fun hc => hlive (h (hcb.symm.trans hc))

theorem sessionInv_call {c : ServerCall} (hI : ∀ i, SessionInv (y.servers i))
    (hC : c.Orderly y) : ∀ i, SessionInv ((y.call c).servers i) := by
  cases c with
  | send i data => exact ServerSys.forall_put hI ((hI i).send y.heap data)
  | forceDisconnect i =>
    exact ServerSys.forall_put hI ((hI i).setState fun hcb => (hC hcb).symm)

theorem sessionInv_calls (cs : List ServerCall) (hI : ∀ i, SessionInv (y.servers i))
    (hC : ∀ c ∈ cs, c.Orderly y) : ∀ i, SessionInv ((cs.foldl ServerSys.call y).servers i) := by
  induction cs generalizing y with
  | nil => exact hI
  | cons c cs ih =>
    exact ih (sessionInv_call hI (hC c List.mem_cons_self)) fun c' hc' =>
      (hC c' (List.mem_cons_of_mem c hc')).call

/-- A receive processor leaves the slots live that were. -/
theorem live_calls (cs : List ServerCall) {i : Fin tcpServerMaxSockets}
    (hl : (y.servers i).live = true) : ((cs.foldl ServerSys.call y).servers i).live = true := by
  induction cs generalizing y with
  | nil => exact hl
  | cons c cs ih => exact ih ((call_kept y c i).2 hl)

theorem sessionInv_pass (io : ServerIo) (i : Fin tcpServerMaxSockets)
    (hI : ∀ i, SessionInv (y.servers i)) (hC : Orderly y (.pass i io)) :
    ∀ j, SessionInv ((serverPass io y i).servers j) := by
  have hlive : ∀ {q : ServerState}, (y.servers i).state = q →
      (y.servers i).live = ((y.servers i).setState q).live := by
    rintro q rfl
    rfl
  unfold serverPass
  dsimp only
  cases hst : (y.servers i).state with
  | init =>
    refine ServerSys.forall_put hI ((hI i).setState fun _ => ?_)
    rw [hlive hst]
    split <;> rfl
  | openSocket =>
    refine ServerSys.forall_put hI ?_
    dsimp only
    split
    · exact (hI i).of_same rfl rfl rfl fun _ => (hlive hst).symm
    · exact (hI i).of_same rfl rfl rfl fun _ => (hlive hst).symm
  | waitForConnection => exact hI
  | disable => exact hI
  | connectionStablished =>
    have hrx : ∀ j, SessionInv ((if (y.servers i).rxP then io.rx.foldl ServerSys.call y
        else y.put i ((y.servers i).called (.discard (y.servers i).hSocket), y.heap)).servers
          j) := by
      split
      · rename_i hrxP
        exact sessionInv_calls io.rx hI (hC hrxP (.inl hst))
      · exact ServerSys.forall_put hI (hI i).of_stream
    exact ServerSys.forall_put hrx ((hrx i).txTask _ _)
  | disconnecting =>
    dsimp only
    split
    · rename_i hrxP
      have hrx := sessionInv_calls io.rx hI (hC hrxP (.inr hst))
      split
      · refine ServerSys.forall_put hrx ((hrx i).of_stream.setState fun _ => ?_)
        exact (live_calls io.rx (hlive hst)).symm
      · exact hrx
    · exact ServerSys.forall_put hI ((hI i).of_stream.setState fun _ => (hlive hst).symm)
  | waitDisconnect =>
    dsimp only
    split
    · exact ServerSys.forall_put hI ((hI i).ended (hlive hst))
    · exact hI
  | waitAbort =>
    dsimp only
    split
    · exact ServerSys.forall_put hI ((hI i).ended (hlive hst))
    · exact hI
  | aborting =>
    exact ServerSys.forall_put hI ((hI i).of_stream.setState fun _ => (hlive hst).symm)
  | close =>
    exact ServerSys.forall_put hI ((hI i).of_stream.setState fun _ => (hlive hst).symm)
  | waitClose => exact ServerSys.forall_put hI ((hI i).closed (hlive hst))

theorem sessionInv_config (listenPort : UInt16) (rxP cb : Bool)
    (hI : ∀ i, SessionInv (y.servers i)) :
    ∀ i, SessionInv ((tcpServerConfig y listenPort rxP cb).2.servers i) := by
  unfold tcpServerConfig
  split
  · exact hI
  · rename_i i hfind
    have hfree : (y.servers i).inUse = false := by
      have := List.find?_some hfind
      rwa [Bool.not_eq_true'] at this
    have hnone := (hI i).silent ((hI i).noCallback hfree)
    refine ServerSys.forall_put hI ⟨by rintro ⟨⟩, fun _ => hnone, (hI i).alternates, fun _ => ?_⟩
    show (false :: sessions (y.servers i).events).getLastD false = false
    rw [hnone]
    rfl

theorem sessionInv_reset (hI : ∀ i, SessionInv (y.servers i)) (hC : Orderly y .reset) :
    ∀ i, SessionInv ((tcpServerReset y).servers i) := by
  -- a slot that is reset is not live, so the others still have what they need
  have hfold : ∀ (is : List (Fin tcpServerMaxSockets)) (y : ServerSys),
      (∀ i, SessionInv (y.servers i) ∧ ((y.servers i).cb = true → (y.servers i).live = false)) →
      ∀ i, SessionInv ((is.foldl (fun y i => y.put i ((y.servers i).reset y.heap)) y).servers
        i) := by
    intro is
    induction is with
    | nil => exact fun y hy i => (hy i).1
    | cons j is ih =>
      intro y hy
      have hj := (hy j).1.reset (hy j).2 y.heap
      exact ih _ (@ServerSys.forall_put
        (fun s => SessionInv s ∧ (s.cb = true → s.live = false)) _ _ _ hy
        ⟨hj, fun _ => reset_quiet _ _⟩)
  exact hfold _ y fun i => ⟨hI i, hC i⟩

theorem sessionInv_of_step {e : ServerStep} (hI : ∀ i, SessionInv (y.servers i))
    (hC : Orderly y e) (hs : serverStep y e = some y') : ∀ i, SessionInv (y'.servers i) := by
  cases e with
  | signal i address port sig =>
    obtain rfl := Option.some.inj hs
    refine ServerSys.forall_put hI ?_
    cases sig with
    | established => exact (hI i).established hC address port
    | rxFin => exact (hI i).setState fun hcb => (hC hcb).symm
    | rxRst => exact (hI i).setState fun hcb => (hC hcb).symm
    | other => exact hI i
  | pass i io =>
    obtain rfl := Option.some.inj hs
    exact sessionInv_pass io i hI hC
  | config listenPort rxP cb =>
    obtain rfl := Option.some.inj hs
    exact sessionInv_config listenPort rxP cb hI
  | call c =>
    obtain rfl := Option.some.inj hs
    exact sessionInv_call hI hC
  | reset =>
    obtain rfl := Option.some.inj hs
    exact sessionInv_reset hI hC

theorem sessionInv_serverInit (grants : Nat → Bool) (i : Fin tcpServerMaxSockets) :
    SessionInv ((serverInit grants).servers i) :=
  ⟨fun _ => rfl, fun _ => rfl, alternates_nil, by rintro ⟨⟩⟩

/-- **In a run of orderly signals the sessions of every slot alternate.** -/
theorem sessions_alternate (grants : Nat → Bool) (es : List ServerStep)
    (hC : Along serverStep Orderly (serverInit grants) es) :
    Along serverStep Alternating (serverInit grants) es := by
  refine @along_of_inv _ _ _ _ _ (fun y : ServerSys => ∀ i, SessionInv (y.servers i))
    (fun _ _ _ hI hC hs => sessionInv_of_step hI hC hs) (fun y e hI hC y' hs i => ?_) _ _
    (sessionInv_serverInit grants) hC
  exact (sessionInv_of_step hI hC hs i).alternates

end System

/-! ## Two runs -/

/-- A client connects to slot 0, and closes the connection. -/
def connectAndFinish : List ServerStep :=
  [.config 23 false true, .pass 0 (serverIo 0), .pass 0 (serverIo 0),
    .signal 0 0 0 .established, .signal 0 0 0 .rxFin, .pass 0 (serverIo 0)]

/-- The next one connects after its end was told. -/
def connectAfter : List ServerStep :=
  connectAndFinish ++ [.pass 0 (serverIo 0), .signal 0 0 0 .established]

theorem sessions_alternate_connectAfter :
    Along serverStep Alternating (serverInit fun _ => true) connectAfter :=
  sessions_alternate _ _ (by decide +kernel)

/-- And here before. -/
def connectBefore : List ServerStep := connectAndFinish ++ [.signal 0 0 0 .established]

/-- Two connections are told, and no end between them. -/
theorem not_sessions_alternate :
    ¬ Along serverStep Alternating (serverInit fun _ => true) connectBefore := by
  intro hall
  have hevents : (run serverStep (serverInit fun _ => true) connectBefore).map
      (fun y => (y.servers 0).events) =
        some [.connectionStablished, .connectionStablished] := by decide +kernel
  obtain ⟨y, hr, hy⟩ := Option.map_eq_some_iff.mp hevents
  obtain ⟨y₀, -, hs, halt⟩ := along_last hall hr
  have h0 := halt y hs 0
  rw [hy] at h0
  exact absurd h0 (by decide)

end Rastreo.Net
