import Rastreo.Net.Guarding

/-!
# The slots are shared

`curSocketId` names a slot of the TCP client from the start, and no event takes it back: the slot
may be closed, reset or opened for somebody else, and only a connection that the network ends is
reported. The TCP client has other users, and `reset_all` of `net.c` resets its slots; its call of
`ws_client_reset` does nothing.

* `SharedEvent`, `sharedStep`: the system, with the other users of the slots.
* `World.Tied`: an established client has a connection of its own.
* `UsesOwn`: what the client calls is on its own slot.
* **`tied_run`**: so it is in a run that respects the client's slot.
-/

namespace Rastreo.Net

open Rastreo.Lib

/-! ## The system and the other users -/

/-- An event of the system, or a call by another user of the slots. -/
inductive SharedEvent
  | system (e : Event)
  | openHost (n : Nat) (host : Bytes) (port : UInt16) (tls : Bool)
  | openIp (n : Nat) (ip : UInt32) (port : UInt16) (tls : Bool)
  | send (sid : Nat) (data : Bytes) (dataLength : Nat)
  | getRx (sid : Fin tcpClientMaxSockets) (limit request : Nat)
  | close (sid : Nat)
  /-- `reset_all`, of which `tcp_client_reset` is all that reaches the two clients. -/
  | resetAll

/-- **One event of the system and the other users.** -/
def sharedStep (libs : Libs) (w : World) : SharedEvent → Option World
  | .system e => step libs w e
  | .openHost n host port tls =>
    let (_, slots, bad) := tcpClientOpenHost w.slots host port tls (.other n)
    some { w with slots := slots, overrun := w.overrun || bad }
  | .openIp n ip port tls => some { w with
      slots := (tcpClientOpenIp w.slots ip port tls (.other n)).2 }
  | .send sid data dataLength =>
    let (_, h, slots) := tcpClientSend w.heap w.slots sid data dataLength
    some { w with heap := h, slots := slots }
  | .getRx sid limit request => some { w with
      slots := (tcpClientGetRx w.slots sid limit request).2 }
  | .close sid => some { w with slots := (tcpClientClose w.slots sid).2 }
  | .resetAll => some { w with
      heap := (tcpClientReset w.heap w.slots).1
      slots := (tcpClientReset w.heap w.slots).2 }

/-! ## Whose slot it is -/

/-- The slot of the client has its callback and its context. -/
def World.Owns (w : World) : Prop := w.socket.cb = some .ws

/-- **An established client has a connection of its own.** -/
def World.Tied (w : World) : Prop :=
  w.ws.state = .connectionEstablished → w.socket.state = .connectionStablished ∧ w.Owns

/-- The client may call `tcp_client_send`, `tcp_client_get_rx`, `tcp_client_peek_rx` or
`tcp_client_close`, all of them on `curSocketId`. -/
def operates (w : World) : Event → Bool
  | .wsTask _ =>
    match w.ws.state with
    | .initHandshake | .waitHandshakeResponse | .waitHandshakeResponseParse
    | .connectionEstablished | .error => true
    | _ => false
  | .wsSend _ | .wsClose => true
  | _ => false

/-- **What the client calls is on its own slot.** -/
def UsesOwn (w : World) : SharedEvent → Prop
  | .system e => operates w e = true → w.Owns
  | _ => True

/-- No slot was opened for the client. -/
def World.Unopened (w : World) : Prop := ∀ i, (w.slots i).cb ≠ some .ws

/-- The answer of the server is in `recv_buf`, or it was accepted. -/
def World.Answered (w : World) : Prop :=
  w.ws.state = .waitHandshakeResponseParse ∨ w.ws.state = .connectionEstablished

/-- The slot that `curSocketId` names is the first that is opened for the client, and nobody else
opens it. The application sends and closes after that; and from the answer of the server on nobody
but the network closes the slot. -/
def Respects (w : World) : SharedEvent → Prop
  | .system (.wsTask _) =>
    w.ws.state = .openConnection → w.Unopened → firstIdle w.slots = some w.ws.curSocketId
  | .system (.wsSend _) => ¬ w.Unopened
  | .system .wsClose => ¬ w.Unopened ∧ ¬ w.Answered
  | .openHost _ _ _ _ | .openIp _ _ _ _ => firstIdle w.slots ≠ some w.ws.curSocketId
  | .close sid => w.Answered → sid ≠ w.ws.curSocketId
  | .resetAll => ¬ w.Answered
  | _ => True

/-! ## What the operations leave of a slot -/

section Slots

variable {w : World} {libs : Libs}

/-- The callbacks of the slots, and which of them is the client's. -/
structure SameOwners (w w' : World) : Prop where
  curSocketId : w'.ws.curSocketId = w.ws.curSocketId
  cb : ∀ i, (w'.slots i).cb = (w.slots i).cb

variable {w₁ w' : World}

theorem SameOwners.of_slots (hc : w'.ws.curSocketId = w.ws.curSocketId) (hs : w'.slots = w.slots) :
    SameOwners w w' := ⟨hc, fun i => by rw [hs]⟩

theorem SameOwners.owns (h : SameOwners w w') (ho : w.Owns) : w'.Owns := by
  unfold World.Owns World.socket at ho ⊢
  rw [h.curSocketId, h.cb]
  exact ho

theorem SameOwners.unopened (h : SameOwners w w') (hun : w.Unopened) : w'.Unopened := fun i => by
  rw [h.cb]
  exact hun i

theorem cb_tcpClientClose (slots : Slots) (sid : Nat) (i : Fin tcpClientMaxSockets) :
    ((tcpClientClose slots sid).2 i).cb = (slots i).cb := by
  unfold tcpClientClose
  split
  · rename_i hs
    split
    · dsimp only
      by_cases hi : i = ⟨sid, hs⟩
      · rw [hi, Function.update_self]
      · rw [Function.update_of_ne hi]
    · rfl
  · rfl

theorem Spares.sameOwners {b : Bool} (h : Spares b w w') : SameOwners w w' :=
  ⟨h.curSocketId, fun i => (h.slots i).2⟩

theorem sameOwners_initHandshake (w : World) (url : UrlData) :
    SameOwners w (initHandshake w url) := by
  unfold initHandshake
  dsimp only [World.closeSocket, World.setState]
  split
  · exact ⟨rfl, cb_tcpClientClose _ _⟩
  · split
    · exact ⟨rfl, fun i => (slots_tcpClientSend _ _ _ _ _ i).2⟩
    · refine ⟨rfl, fun i => ?_⟩
      dsimp only
      rw [cb_tcpClientClose]
      exact (slots_tcpClientSend _ _ _ _ _ i).2

theorem sameOwners_waitHandshakeResponse (io : WsIo) (w : World) :
    SameOwners w (waitHandshakeResponse io w) := by
  unfold waitHandshakeResponse
  dsimp only
  split
  · split
    · exact .of_slots rfl rfl
    · exact ⟨rfl, fun i => (slots_tcpClientGetRx _ _ _ _ i).2⟩
  · exact .of_slots rfl rfl

theorem sameOwners_parseHandshakeResponse (io : WsIo) (w : World) :
    SameOwners w (parseHandshakeResponse libs io w) := by
  unfold parseHandshakeResponse
  dsimp only
  split
  · exact .of_slots rfl rfl
  · exact ⟨rfl, cb_tcpClientClose _ _⟩

end Slots

/-! ## The invariant -/

/-- The client is idle, or on its way to `tcp_client_open_host`. -/
def WsState.Early (q : WsState) : Prop :=
  q = .init ∨ q = .idle ∨ q = .manageUrl ∨ q = .openConnection ∨ q = .halt ∨ q = .null

instance (q : WsState) : Decidable q.Early := inferInstanceAs (Decidable (_ ∨ _))

/-- **The invariant**: the slot is the client's, or none ever was and the client has no use for one
yet; from the answer on the slot has its connection. -/
structure SharedInv (w : World) : Prop where
  owned : w.Owns ∨ w.ws.state.Early ∧ w.Unopened
  answered : w.Answered → w.socket.state = .connectionStablished

section Invariant

variable {w w' : World} {libs : Libs}

theorem SharedInv.owns (hI : SharedInv w) (h : ¬ w.ws.state.Early) : w.Owns :=
  hI.owned.resolve_right fun hearly => h hearly.1

theorem SharedInv.opened (hI : SharedInv w) (h : ¬ w.Unopened) : w.Owns :=
  hI.owned.resolve_right fun hearly => h hearly.2

theorem World.Answered.not_early (h : w.Answered) : ¬ w.ws.state.Early := by
  rcases h with h | h <;> rw [h] <;> decide

theorem SharedInv.tied (hI : SharedInv w) : w.Tied := fun hst =>
  ⟨hI.answered (.inr hst), hI.owns (World.Answered.not_early (.inr hst))⟩

theorem SharedInv.usesOwn {e : SharedEvent} (hI : SharedInv w) (hC : Respects w e) :
    UsesOwn w e := by
  cases e with
  | system e =>
    intro hop
    cases e with
    | wsTask io =>
      refine hI.owns fun hearly => ?_
      rcases hearly with h | h | h | h | h | h <;> rw [operates, h] at hop <;> cases hop
    | wsSend s => exact hI.opened hC
    | wsClose => exact hI.opened hC.1
    | _ => cases hop
  | _ => trivial

/-- The owners stay, and the client is not past the answer. -/
theorem SharedInv.unanswered (hI : SharedInv w) (h : SameOwners w w')
    (hearly : w.ws.state.Early → w'.ws.state.Early) (hnot : ¬ w'.Answered) : SharedInv w' := by
  refine ⟨?_, fun ha => absurd ha hnot⟩
  rcases hI.owned with ho | ⟨hf, hun⟩
  · exact .inl (h.owns ho)
  · exact .inr ⟨hearly hf, h.unopened hun⟩

/-- The owners and the states stay, of the slots and of the client. -/
theorem SharedInv.same (hI : SharedInv w) (h : SameOwners w w')
    (hst : w'.ws.state = w.ws.state)
    (hs : w.Answered → w'.socket.state = w.socket.state) : SharedInv w' := by
  have hans : w'.Answered → w.Answered := by
    unfold World.Answered
    rw [hst]
    exact id
  refine ⟨?_, fun ha => (hs (hans ha)).trans (hI.answered (hans ha))⟩
  rcases hI.owned with ho | ⟨hf, hun⟩
  · exact .inl (h.owns ho)
  · exact .inr ⟨by rwa [hst], h.unopened hun⟩

theorem Spares.sharedInv {b : Bool} (h : Spares b w w') (hI : SharedInv w) (ho : w.Owns) :
    SharedInv w' := by
  rcases h.state with hst | hst
  · refine hI.same h.sameOwners hst fun _ => ?_
    unfold World.socket
    rw [h.curSocketId]
    exact (h.slots _).1
  · refine ⟨.inl (h.sameOwners.owns ho), fun ha => ?_⟩
    rcases ha with ha | ha <;> cases hst.symm.trans ha

/-! ### The TCP task -/

/-- Only a slot of the client becomes the client's socket. -/
theorem owns_tcpClientTask (io : Fin tcpClientMaxSockets → NetIo) (h : w.Owns) :
    (tcpClientTask io w).Owns := by
  have hcb : ∀ i, ((tcpClientTask io w).slots i).cb = (w.slots i).cb := fun i =>
    (@moves_tcpClientTask w io i).cb
  have hone : ∀ (i : Fin tcpClientMaxSockets) (es : List ClientEvent) (c : Client),
      (w.slots i).cb = some .ws → (w.slots c.curSocketId).cb = some .ws →
      (w.slots (es.foldl (sockCb i) c).curSocketId).cb = some .ws := by
    intro i es
    induction es with
    | nil => exact fun c _ hc => hc
    | cons e es ih =>
      intro c hi hc
      rw [List.foldl_cons]
      refine ih _ hi ?_
      cases e with
      | connected => exact hi
      | _ => exact hc
  have hall : ∀ (sids : List (Fin tcpClientMaxSockets)) (c : Client),
      (w.slots c.curSocketId).cb = some .ws →
      (w.slots (sids.foldl (fun c sid => (w.reports io sid).foldl (sockCb sid) c)
        c).curSocketId).cb = some .ws := by
    intro sids
    induction sids with
    | nil => exact fun c hc => hc
    | cons sid sids ih =>
      intro c hc
      rw [List.foldl_cons]
      refine ih _ ?_
      unfold World.reports
      split
      · rename_i hws
        exact hone sid _ c hws hc
      · exact hc
  unfold World.Owns World.socket
  rw [hcb, ws_tcpClientTask]
  exact hall _ _ h

/-- Nothing is reported to a client without a slot. -/
theorem ws_of_unopened (io : Fin tcpClientMaxSockets → NetIo) (h : w.Unopened) :
    (tcpClientTask io w).ws = w.ws := by
  have hnone : ∀ i, w.reports io i = [] := fun i => if_neg (h i)
  rw [ws_tcpClientTask]
  simp [hnone]

theorem sharedInv_tcpClientTask (io : Fin tcpClientMaxSockets → NetIo) (hI : SharedInv w) :
    SharedInv (tcpClientTask io w) := by
  constructor
  · rcases hI.owned with ho | ⟨hf, hun⟩
    · exact .inl (owns_tcpClientTask io ho)
    · refine .inr ⟨by rwa [ws_of_unopened io hun], fun i => ?_⟩
      rw [(@moves_tcpClientTask w io i).cb]
      exact hun i
  · intro ha
    have hnot : ¬ (tcpClientTask io w).ws.state.Reported := by
      rintro (h | h | h) <;> rcases ha with ha | ha <;> cases h.symm.trans ha
    obtain ⟨hws, htraffic⟩ := tcpClientTask_traffic hnot
    have hans : w.Answered := by
      unfold World.Answered at ha ⊢
      rwa [hws] at ha
    have howns : (w.slots w.ws.curSocketId).cb = some .ws := hI.owns hans.not_early
    unfold World.socket
    rw [hws]
    -- a connection that is lost is reported
    rcases (@moves_tcpClientTask w io w.ws.curSocketId).left (hI.answered hans) with h | h
    · exact h
    · have hmem : .disconnected ∈ w.reports io w.ws.curSocketId := by
        unfold World.reports
        rwa [if_pos howns]
      rcases htraffic _ _ hmem with h | h <;> cases h

/-! ### The client's task -/

/-- What `tcp_client_open_host` leaves of the owners. -/
theorem cb_tcpClientOpenHost (slots : Slots) (host : Bytes) (port : UInt16) (tls : Bool)
    (o : Owner) (i : Fin tcpClientMaxSockets) :
    if firstIdle slots = some i then
      ((tcpClientOpenHost slots host port tls o).2.1 i).cb = some o
    else (tcpClientOpenHost slots host port tls o).2.1 i = slots i := by
  unfold tcpClientOpenHost
  cases hidle : firstIdle slots with
  | none => exact rfl
  | some j =>
    dsimp only
    split
    · rename_i hj
      obtain rfl := Option.some.inj hj
      split
      · dsimp only
        rw [Function.update_self]
      · dsimp only
        rw [Function.update_self]
    · rename_i hj
      have hne : i ≠ j := fun h => hj (by rw [h])
      split <;> exact Function.update_of_ne hne _ _

theorem owns_openConnection (hI : SharedInv w)
    (hC : w.Unopened → firstIdle w.slots = some w.ws.curSocketId) (url : UrlData) :
    ((tcpClientOpenHost w.slots url.host w.ws.nPort w.ws.flags.clientIsSsl .ws).2.1
      w.ws.curSocketId).cb = some .ws := by
  have hopen := cb_tcpClientOpenHost w.slots url.host w.ws.nPort w.ws.flags.clientIsSsl .ws
    w.ws.curSocketId
  split at hopen
  · exact hopen
  · rename_i hnot
    rw [hopen]
    exact hI.opened fun hun => hnot (hC hun)

/-- The answer is only read from a connection. -/
theorem answered_waitHandshakeResponse {io : WsIo} (hst : w.ws.state = .waitHandshakeResponse)
    (ha : (waitHandshakeResponse io w).Answered) :
    (waitHandshakeResponse io w).socket.state = .connectionStablished := by
  have hnot : ∀ {w' : World}, w'.ws.state = .waitHandshakeResponse → ¬ w'.Answered := by
    rintro w' h (h' | h') <;> cases h.symm.trans h'
  unfold waitHandshakeResponse at ha ⊢
  dsimp only at ha ⊢
  split at ha
  · rename_i hlen
    rw [if_pos hlen]
    have hup : (w.slots w.ws.curSocketId).state = .connectionStablished := by
      by_contra hdown
      rw [tcpClientPeekRx, if_neg hdown] at hlen
      exact absurd hlen (Nat.not_lt_zero 4)
    split at ha
    · exact absurd ha (hnot hst)
    · exact (slots_tcpClientGetRx _ _ _ _ _).1.trans hup
  · exact absurd ha (hnot hst)

theorem sharedInv_wsClientTask (io : WsIo) (hI : SharedInv w)
    (hC : Respects w (.system (.wsTask io))) : SharedInv (wsClientTask libs io w) := by
  have hin : ∀ {w' : World} {q : WsState}, w'.ws.state = q → q ≠ .waitHandshakeResponseParse →
      q ≠ .connectionEstablished → ¬ w'.Answered := by
    rintro w' q rfl h₁ h₂ (h | h)
    · exact h₁ h
    · exact h₂ h
  -- the client is past its early states
  have hpast : ∀ {w' : World} {q : WsState}, w.ws.state = q → ¬ q.Early → SameOwners w w' →
      ¬ w'.Answered → SharedInv w' := by
    rintro w' q rfl hq h hnot
    exact hI.unanswered h (fun hf => absurd hf hq) hnot
  unfold wsClientTask
  split
  · exact hI.unanswered (.of_slots rfl rfl) (fun _ => .inr (.inl rfl))
      (hin rfl (by rintro ⟨⟩) (by rintro ⟨⟩))
  · exact hI
  · exact hI
  · exact hI
  · split
    · exact hI.same (.of_slots rfl rfl) rfl fun _ => rfl
    · rename_i url _
      have hq : (manageUrl w.ws url).state = .openConnection ∨
          (manageUrl w.ws url).state = .halt := by
        unfold manageUrl
        dsimp only
        split
        · exact .inl rfl
        · split
          · exact .inl rfl
          · exact .inr rfl
      have hc : (manageUrl w.ws url).curSocketId = w.ws.curSocketId := by
        unfold manageUrl
        dsimp only
        split
        · rfl
        · split <;> rfl
      refine hI.unanswered (.of_slots hc rfl) (fun _ => ?_) ?_
      · rcases hq with hq | hq
        · exact .inr (.inr (.inr (.inl hq)))
        · exact .inr (.inr (.inr (.inr (.inl hq))))
      · rcases hq with hq | hq
        · exact hin hq (by rintro ⟨⟩) (by rintro ⟨⟩)
        · exact hin hq (by rintro ⟨⟩) (by rintro ⟨⟩)
  · rename_i hst
    split
    · exact hI.same (.of_slots rfl rfl) rfl fun _ => rfl
    · rename_i url _
      have howns := owns_openConnection hI (hC hst) url
      split
      · rename_i heq
        rw [heq] at howns
        exact ⟨.inl howns, fun ha => absurd ha (hin rfl (by rintro ⟨⟩) (by rintro ⟨⟩))⟩
      · rename_i heq
        rw [heq] at howns
        exact ⟨.inl howns, fun ha => absurd ha (hin rfl (by rintro ⟨⟩) (by rintro ⟨⟩))⟩
  · rename_i hst
    split
    · exact hI.same (.of_slots rfl rfl) rfl fun _ => rfl
    · rename_i url _
      refine hpast hst (by decide) (sameOwners_initHandshake w url) ?_
      obtain ⟨key, buf, q, hws, hq⟩ := initHandshake_ws w url
      have hq' : (initHandshake w url).ws.state = q := by rw [hws]
      rcases hq with rfl | rfl <;> exact hin hq' (by rintro ⟨⟩) (by rintro ⟨⟩)
  · rename_i hst
    have hown := hI.owns (by rw [hst]; decide)
    exact ⟨.inl ((sameOwners_waitHandshakeResponse io w).owns hown),
      answered_waitHandshakeResponse hst⟩
  · rename_i hst
    have hown := hI.owns (by rw [hst]; decide)
    refine ⟨.inl ((sameOwners_parseHandshakeResponse io w).owns hown), fun ha => ?_⟩
    unfold parseHandshakeResponse at ha ⊢
    dsimp only at ha ⊢
    split at ha
    · rename_i hvalid
      rw [if_pos hvalid]
      exact hI.answered (.inl hst)
    · exact absurd ha (hin rfl (by rintro ⟨⟩) (by rintro ⟨⟩))
  · rename_i hst
    exact (spares_established io hst).sharedInv hI (hI.owns (by rw [hst]; decide))
  · rename_i hst
    exact hpast hst (by decide) ⟨rfl, cb_tcpClientClose _ _⟩
      (hin rfl (by rintro ⟨⟩) (by rintro ⟨⟩))
  · rename_i hst
    dsimp only
    split
    · exact hpast hst (by decide) (.of_slots rfl rfl) (hin rfl (by rintro ⟨⟩) (by rintro ⟨⟩))
    · exact hpast hst (by decide) (.of_slots rfl rfl) (hin rfl (by rintro ⟨⟩) (by rintro ⟨⟩))
  · split
    · exact hI.unanswered (.of_slots rfl rfl) (fun _ => .inr (.inr (.inl rfl)))
        (hin rfl (by rintro ⟨⟩) (by rintro ⟨⟩))
    · exact hI
  · exact hI.unanswered (.of_slots rfl rfl) (fun _ => .inl rfl)
      (hin rfl (by rintro ⟨⟩) (by rintro ⟨⟩))

/-! ### The run -/

theorem sharedInv_of_step {e : Event} (hI : SharedInv w) (hC : Respects w (.system e))
    (hs : step libs w e = some w') : SharedInv w' := by
  cases e with
  | tcpTask io =>
    obtain rfl := Option.some.inj hs
    exact sharedInv_tcpClientTask io hI
  | wsTask io =>
    obtain rfl := Option.some.inj hs
    exact sharedInv_wsClientTask io hI hC
  | receive sid bs =>
    obtain rfl := Option.some.inj hs
    have hsame := @slots_update w.slots sid ((w.slots sid).receive bs) rfl rfl
    exact hI.same ⟨rfl, fun i => (hsame i).2⟩ rfl fun _ => (hsame _).1
  | wsOpen url cbs =>
    obtain rfl := Option.some.inj hs
    unfold wsClientOpen
    split
    · split
      · exact hI.same (.of_slots rfl rfl) rfl fun _ => rfl
      · refine hI.unanswered (.of_slots rfl rfl) (fun _ => .inr (.inr (.inl rfl))) ?_
        rintro (h | h) <;> cases h
    · exact hI
  | wsSend s =>
    obtain rfl := Option.some.inj hs
    exact (spares_wsClientSend w s).sharedInv hI (hI.opened hC)
  | wsSetPing strPing pingInterval =>
    obtain rfl := Option.some.inj hs
    exact hI.same (.of_slots rfl rfl) rfl fun _ => rfl
  | wsClose =>
    obtain rfl := Option.some.inj hs
    refine hI.same ⟨rfl, cb_tcpClientClose _ _⟩ rfl fun ha => absurd ha hC.2

/-- A slot that somebody else opens is not the client's. -/
theorem SharedInv.othersOpen {slots : Slots} {b : Bool} (hI : SharedInv w)
    (hnot : firstIdle w.slots ≠ some w.ws.curSocketId)
    (h : ∀ i, if firstIdle w.slots = some i then ∃ n, (slots i).cb = some (.other n)
      else slots i = w.slots i) : SharedInv { w with slots := slots, overrun := b } := by
  have hsock : slots w.ws.curSocketId = w.slots w.ws.curSocketId := by
    have := h w.ws.curSocketId
    rwa [if_neg hnot] at this
  refine ⟨?_, fun ha => ?_⟩
  · rcases hI.owned with ho | ⟨hf, hun⟩
    · refine .inl ?_
      show (slots w.ws.curSocketId).cb = some .ws
      rw [hsock]
      exact ho
    · refine .inr ⟨hf, fun i => ?_⟩
      have hi := h i
      dsimp only
      split at hi
      · obtain ⟨n, hn⟩ := hi
        rw [hn]
        rintro ⟨⟩
      · rw [hi]
        exact hun i
  · show (slots w.ws.curSocketId).state = .connectionStablished
    rw [hsock]
    exact hI.answered ha

theorem sharedInv_of_sharedStep {e : SharedEvent} (hI : SharedInv w) (hC : Respects w e)
    (hs : sharedStep libs w e = some w') : SharedInv w' := by
  cases e with
  | system e => exact sharedInv_of_step hI hC hs
  | openHost n host port tls =>
    obtain rfl := Option.some.inj hs
    refine hI.othersOpen hC fun i => ?_
    have hopen := cb_tcpClientOpenHost w.slots host port tls (.other n) i
    split at hopen
    · rename_i hi
      rw [if_pos hi]
      exact ⟨n, hopen⟩
    · rename_i hi
      rw [if_neg hi]
      exact hopen
  | openIp n ip port tls =>
    obtain rfl := Option.some.inj hs
    refine @SharedInv.othersOpen w _ w.overrun hI hC fun i => ?_
    unfold tcpClientOpenIp
    cases hidle : firstIdle w.slots with
    | none => exact rfl
    | some j =>
      dsimp only
      split
      · rename_i hj
        obtain rfl := Option.some.inj hj
        exact ⟨n, by rw [Function.update_self]⟩
      · rename_i hj
        exact Function.update_of_ne (fun h => hj (by rw [h])) _ _
  | send sid data dataLength =>
    obtain rfl := Option.some.inj hs
    have hslots : ∀ i, ((tcpClientSend w.heap w.slots sid data dataLength).2.2 i).state =
        (w.slots i).state ∧
        ((tcpClientSend w.heap w.slots sid data dataLength).2.2 i).cb = (w.slots i).cb := by
      by_cases hsid : sid < tcpClientMaxSockets
      · exact slots_tcpClientSend w.heap w.slots ⟨sid, hsid⟩ data dataLength
      · unfold tcpClientSend
        rw [dif_neg hsid]
        exact fun _ => ⟨rfl, rfl⟩
    exact hI.same ⟨rfl, fun i => (hslots i).2⟩ rfl fun _ => (hslots _).1
  | getRx sid limit request =>
    obtain rfl := Option.some.inj hs
    have hslots := slots_tcpClientGetRx w.slots sid limit request
    exact hI.same ⟨rfl, fun i => (hslots i).2⟩ rfl fun _ => (hslots _).1
  | close sid =>
    obtain rfl := Option.some.inj hs
    refine hI.same ⟨rfl, cb_tcpClientClose _ _⟩ rfl fun ha => ?_
    have hne := hC ha
    show ((tcpClientClose w.slots sid).2 w.ws.curSocketId).state = w.socket.state
    unfold tcpClientClose
    split
    · rename_i hsid
      split
      · exact congrArg Slot.state
          (Function.update_of_ne (fun h => hne (congrArg Fin.val h).symm) _ _)
      · rfl
    · rfl
  | resetAll =>
    obtain rfl := Option.some.inj hs
    have hcb : ∀ i, ((tcpClientReset w.heap w.slots).2 i).cb = (w.slots i).cb := by
      intro i
      show (w.slots i).reset.cb = _
      unfold Slot.reset
      split <;> rfl
    exact hI.same ⟨rfl, hcb⟩ rfl fun ha => absurd ha hC

end Invariant

/-- **In a run that respects the client's slot**, the client calls on its own slot only, and it is
never established without a connection of its own. -/
theorem tied_run (libs : Libs) (grants : Nat → Bool) (rand : Nat → UInt32) {es : List SharedEvent}
    (hC : Along (sharedStep libs) Respects (worldInit grants rand) es) :
    Along (sharedStep libs) UsesOwn (worldInit grants rand) es ∧
      ∀ w, run (sharedStep libs) (worldInit grants rand) es = some w → w.Tied := by
  have hstep : ∀ w e w', SharedInv w → Respects w e → sharedStep libs w e = some w' →
      SharedInv w' := fun _ _ _ hI hC hs => sharedInv_of_sharedStep hI hC hs
  have hinit : SharedInv (worldInit grants rand) := by
    refine ⟨.inr ⟨.inl rfl, fun i => ?_⟩, ?_⟩
    · rintro ⟨⟩
    · rintro (h | h) <;> cases h
  refine ⟨along_of_inv hstep (fun _ _ hI hC => hI.usesOwn hC) hinit hC, fun w hr => ?_⟩
  exact (inv_of_run hstep hinit hC hr).tied

/-! ## Two runs -/

instance (w : World) : Decidable w.Unopened := inferInstanceAs (Decidable (∀ _, _))

instance (w : World) : Decidable w.Answered := inferInstanceAs (Decidable (_ ∨ _))

instance (w : World) : (e : SharedEvent) → Decidable (Respects w e)
  | .system (.wsTask _) => inferInstanceAs (Decidable (_ → _ → _))
  | .system (.wsSend _) => inferInstanceAs (Decidable (¬ _))
  | .system .wsClose => inferInstanceAs (Decidable (_ ∧ _))
  | .openHost _ _ _ _ | .openIp _ _ _ _ => inferInstanceAs (Decidable (_ ≠ _))
  | .close _ => inferInstanceAs (Decidable (_ → _))
  | .resetAll => inferInstanceAs (Decidable (¬ _))
  | .system (.tcpTask _) | .system (.receive _ _) | .system (.wsOpen _ _)
  | .system (.wsSetPing _ _) | .send _ _ _ | .getRx _ _ _ => .isTrue trivial

/-- Somebody else connects, sends and closes beside an established client. -/
def besideRun : List SharedEvent :=
  let pass : SharedEvent := .system (.tcpTask fun _ => readyIo)
  accepted.map .system ++ [.openHost 7 (ascii "10.0.0.2") 23 false, pass, pass, pass,
    .send 1 (ascii "hi") 2, .system (.wsSend (some (ascii "hello"))), .getRx 1 2047 2047, .close 1,
    pass]

theorem tied_run_beside :
    Along (sharedStep (answering (ascii "upgrade"))) UsesOwn
        (worldInit (fun _ => true) sampleRand) besideRun ∧
      ∀ w, run (sharedStep (answering (ascii "upgrade"))) (worldInit (fun _ => true) sampleRand)
        besideRun = some w → w.Tied :=
  tied_run _ _ _ (by decide +kernel)

/-- `ws_client_close` leaves the client established while its slot is closed, and before a slot was
opened for the client it closes slot 0, whoever has that. -/
theorem not_tied_run :
    (¬ ∀ es w, run (sharedStep (answering (ascii "upgrade")))
      (worldInit (fun _ => true) sampleRand) es = some w → w.Tied) ∧
    ¬ ∀ es, Along (sharedStep (answering (ascii "upgrade"))) UsesOwn
      (worldInit (fun _ => true) sampleRand) es := by
  constructor
  · intro hall
    have hclosed : (run (sharedStep (answering (ascii "upgrade")))
        (worldInit (fun _ => true) sampleRand)
        (accepted.map .system ++ [.system .wsClose])).map
        (fun w => (w.ws.state, w.socket.state)) =
        some (.connectionEstablished, .connectionClose) := by decide +kernel
    obtain ⟨w, hr, hw⟩ := Option.map_eq_some_iff.mp hclosed
    obtain ⟨hst, hsock⟩ := Prod.mk.inj hw
    cases hsock.symm.trans (hall _ w hr hst).1
  · intro hall
    have hrun := hall [.openHost 7 (ascii "10.0.0.2") 23 false, .system .wsClose]
    have hown := (hrun.2 _ rfl).1 rfl
    revert hown
    unfold World.Owns
    decide +kernel

end Rastreo.Net
