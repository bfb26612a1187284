import Rastreo.Net.Completions
import Rastreo.Net.Accepting

/-!
# The sessions of a web socket client

A session runs from one accepted `ws_client_open` to the next. What belongs to it is its URL, and
whether it is to end (`Session`). The program keeps both as bits of `flags`, which are set and never
cleared: a session inherits them.

* `OpensOwn`, `RetriesOwn`: a connection is asked for with the session's own scheme and port, and
  after a disconnection the client retries unless this session was closed.
* `FreshTls`, `FreshClose`: `ws_client_open` finds the bits clear.
* **`sessions_apart`**: in a run of fresh opens the sessions do not influence each other.
-/

namespace Rastreo.Net

open Rastreo.Lib

/-! ## The session -/

/-- What `ws_client_open` was given last, and whether the session was closed since: by the
application, by a Close frame or by a masked frame. -/
structure Session where
  url : Option UrlData
  ended : Bool
  deriving DecidableEq, Repr

/-- The bytes a pass in `WS_STATE_CONNECTION_ESTABLISHED` reads, and the world then. -/
def World.read (io : WsIo) (w : World) : Bytes × World :=
  let r := tcpClientGetRx w.slots w.ws.curSocketId io.limit (wsReceiveBuffer - 1)
  (r.1, { w with slots := r.2, ws := { w.ws.received r.1 with ts := io.now } })

/-- The pass reads a byte that ends the session. -/
def readsEnd (io : WsIo) (w : World) : Bool :=
  decide (w.ws.state = .connectionEstablished) && anyByte endsSession (w.read io).2 (w.read io).1

/-- The session after an event. -/
def Session.after (w : World) : Event → Session → Session
  | .wsOpen (some url) _, s => if w.ws.state = .idle then ⟨some url, false⟩ else s
  | .wsClose, s => { s with ended := true }
  | .wsTask io, s => { s with ended := s.ended || readsEnd io w }
  | _, s => s

/-! ## What a session asks for -/

/-- The scheme is "wss". -/
def UrlData.IsWss (u : UrlData) : Prop := strcmp u.scheme (ascii "wss") = 0

instance decidableIsWss (u : UrlData) : Decidable u.IsWss :=
  inferInstanceAs (Decidable (strcmp _ _ = 0))

/-- The port of a URL: a decimal number up to 65535, or that of the scheme. -/
structure IsPort (u : UrlData) (n : UInt16) : Prop where
  given : ∀ p ∈ u.port, p ≠ [] → (∀ c ∈ p, isDigit c = true) → decVal p ≤ 65535 →
    n.toNat = decVal p
  byScheme : u.port = none → n = if u.IsWss then 443 else 80

/-- The call of `tcp_client_open_host`, and what follows. -/
def World.openHost (w : World) (host : Bytes) (port : UInt16) (tls : Bool) : World :=
  match tcpClientOpenHost w.slots host port tls .ws with
  | (.success, slots, bad) =>
    { w with slots := slots, overrun := w.overrun || bad }.setState .waitTcpSocketConnection
  | (_, slots, bad) => { w with slots := slots, overrun := w.overrun || bad }.setState .error

/-- **A connection is asked for with the scheme and the port of the session.** -/
def OpensOwn (libs : Libs) (p : World × Session) (e : Event) : Prop :=
  ∀ io, e = .wsTask io → p.1.ws.state = .openConnection → ∃ url port,
    p.2.url = some url ∧ IsPort url port ∧
    wsClientTask libs io p.1 = p.1.openHost url.host port (decide url.IsWss)

/-- **A disconnection leads to a retry** unless the session was closed. -/
def RetriesOwn (libs : Libs) (p : World × Session) (e : Event) : Prop :=
  (∀ sid, (sockCb sid p.1.ws .disconnected).state = .close) ∧
  ∀ io, e = .wsTask io → p.1.ws.state = .close →
    ((wsClientTask libs io p.1).ws.state = .retry ↔ p.2.ended = false)

/-- A `ws_client_open` that is accepted, of a "ws" URL, finds `CLIENT_IS_SSL` clear. -/
def FreshTls (p : World × Session) : Event → Prop
  | .wsOpen (some url) _ =>
    p.1.ws.state = .idle → url.IsWss ∨ p.1.ws.flags.clientIsSsl = false
  | _ => True

/-- One that is accepted finds `CLIENT_SHOULD_CLOSE` clear. -/
def FreshClose (p : World × Session) : Event → Prop
  | .wsOpen (some _) _ => p.1.ws.state = .idle → p.1.ws.flags.clientShouldClose = false
  | _ => True

/-- Before the first session. -/
def sessionInit (grants : Nat → Bool) (rand : Nat → UInt32) : World × Session :=
  (worldInit grants rand, ⟨none, false⟩)

/-! ## What the callbacks and the task leave -/

section Leaves

variable {w w' : World} {libs : Libs}

/-- The callbacks set the socket and the state. -/
structure Reported (w w' : World) : Prop where
  ws : ∃ sid q, w'.ws = { w.ws with curSocketId := sid, state := q } ∧
    (q = w.ws.state ∨ q = .initHandshake ∨ q = .close ∨ q = .error)
  calls : w'.calls = w.calls

theorem Reported.trans {w₁ : World} (h₁ : Reported w w₁) (h₂ : Reported w₁ w') :
    Reported w w' := by
  obtain ⟨sid₁, q₁, hws₁, hq₁⟩ := h₁.ws
  obtain ⟨sid₂, q₂, hws₂, hq₂⟩ := h₂.ws
  refine ⟨⟨sid₂, q₂, by rw [hws₂, hws₁], ?_⟩, h₂.calls.trans h₁.calls⟩
  rw [hws₁] at hq₂
  rcases hq₂ with rfl | hq₂
  · exact hq₁
  · exact .inr hq₂

theorem sockCb_ws (sid : Fin tcpClientMaxSockets) (es : List ClientEvent) (c : Client) :
    ∃ sid' q, es.foldl (sockCb sid) c = { c with curSocketId := sid', state := q } ∧
      (q = c.state ∨ q = .initHandshake ∨ q = .close ∨ q = .error) := by
  induction es generalizing c with
  | nil => exact ⟨c.curSocketId, c.state, rfl, .inl rfl⟩
  | cons e es ih =>
    obtain ⟨sid', q, heq, hq⟩ := ih (sockCb sid c e)
    refine ⟨sid', q, ?_, ?_⟩
    · rw [List.foldl_cons, heq]
      cases e <;> rfl
    · rcases hq with rfl | hq
      · cases e with
        | connected => exact .inr (.inl rfl)
        | tx => exact .inl rfl
        | rx => exact .inl rfl
        | disconnected => exact .inr (.inr (.inl rfl))
        | _ => exact .inr (.inr (.inr rfl))
      · exact .inr hq

theorem reported_tcpTaskSlot (io : NetIo) (w : World) (sid : Fin tcpClientMaxSockets) :
    Reported w (tcpTaskSlot io w sid) := by
  refine ⟨?_, rfl⟩
  unfold tcpTaskSlot
  dsimp only
  split
  · exact sockCb_ws sid _ w.ws
  · exact ⟨_, _, rfl, .inl rfl⟩

theorem reported_tcpClientTask (io : Fin tcpClientMaxSockets → NetIo) (w : World) :
    Reported w (tcpClientTask io w) := by
  have hfold : ∀ (sids : List (Fin tcpClientMaxSockets)) (w : World),
      Reported w (sids.foldl (fun w sid => tcpTaskSlot (io sid) w sid) w) := by
    intro sids
    induction sids with
    | nil => exact fun w => ⟨⟨_, _, rfl, .inl rfl⟩, rfl⟩
    | cons sid sids ih => exact fun w => (reported_tcpTaskSlot _ w sid).trans (ih _)
  exact hfold _ w

/-- The handshake sets the bits of the response only. -/
theorem flags_handshakeResponseParse (stack key response : Bytes) (flags : Flags) :
    (handshakeResponseParse libs stack key response flags).clientIsSsl = flags.clientIsSsl ∧
      (handshakeResponseParse libs stack key response flags).clientShouldClose =
        flags.clientShouldClose ∧
      (handshakeResponseParse libs stack key response flags).clientConnecting =
        flags.clientConnecting ∧
      (handshakeResponseParse libs stack key response flags).clientSentCloseFrame =
        flags.clientSentCloseFrame := by
  have hone : ∀ (expected : Bytes) (flags : Flags) (h : Bytes × Bytes),
      (headerFlags expected flags h).clientIsSsl = flags.clientIsSsl ∧
        (headerFlags expected flags h).clientShouldClose = flags.clientShouldClose ∧
        (headerFlags expected flags h).clientConnecting = flags.clientConnecting ∧
        (headerFlags expected flags h).clientSentCloseFrame = flags.clientSentCloseFrame := by
    intro expected flags h
    unfold headerFlags
    split
    · split <;> exact ⟨rfl, rfl, rfl, rfl⟩
    · split
      · split <;> exact ⟨rfl, rfl, rfl, rfl⟩
      · split
        · split <;> exact ⟨rfl, rfl, rfl, rfl⟩
        · exact ⟨rfl, rfl, rfl, rfl⟩
  have hfold : ∀ (expected : Bytes) (hs : List (Bytes × Bytes)) (flags : Flags),
      (hs.foldl (headerFlags expected) flags).clientIsSsl = flags.clientIsSsl ∧
        (hs.foldl (headerFlags expected) flags).clientShouldClose = flags.clientShouldClose ∧
        (hs.foldl (headerFlags expected) flags).clientConnecting = flags.clientConnecting ∧
        (hs.foldl (headerFlags expected) flags).clientSentCloseFrame =
          flags.clientSentCloseFrame := by
    intro expected hs
    induction hs with
    | nil => exact fun flags => ⟨rfl, rfl, rfl, rfl⟩
    | cons h hs ih =>
      intro flags
      obtain ⟨h₁, h₂, h₃, h₄⟩ := hone expected flags h
      rw [List.foldl_cons, ← h₁, ← h₂, ← h₃, ← h₄]
      exact ih _
  unfold handshakeResponseParse
  split
  · exact ⟨rfl, rfl, rfl, rfl⟩
  · split
    · exact hfold _ _ _
    · exact ⟨rfl, rfl, rfl, rfl⟩

theorem established_read {io : WsIo} (hne : (w.read io).1 ≠ []) : established io w =
    (w.read io).1.foldl (fun w c => (inData w c).1) (w.read io).2 := if_pos hne

theorem established_idle {io : WsIo} (hnil : (w.read io).1 = []) : established io w =
    if 0 < w.ws.activityTimeout ∧ w.ws.activityTimeout < elapsedS io.now w.ws.ts then
      (wsClientSend (w.read io).2 (some w.ws.pingStr.text)).2
    else { (w.read io).2 with ws := w.ws.received [] } := by
  have hread : (tcpClientGetRx w.slots w.ws.curSocketId io.limit (wsReceiveBuffer - 1)).1 = [] :=
    hnil
  unfold established World.read
  dsimp only
  rw [hread, if_neg (by simp)]
  rfl

theorem slots_tcpClientGetRx (slots : Slots) (sid : Fin tcpClientMaxSockets) (limit request : Nat)
    (i : Fin tcpClientMaxSockets) :
    ((tcpClientGetRx slots sid limit request).2 i).state = (slots i).state ∧
      ((tcpClientGetRx slots sid limit request).2 i).cb = (slots i).cb := by
  unfold tcpClientGetRx
  split
  · exact slots_update (by rfl) (by rfl) i
  · exact ⟨rfl, rfl⟩

theorem spares_read (io : WsIo) (w : World) : Spares false w (w.read io).2 :=
  ⟨rfl, rfl, rfl, by rw [Bool.or_false]; rfl, rfl, .inl rfl, slots_tcpClientGetRx _ _ _ _⟩

/-- **A pass on an established connection** ends the session when it reads so. -/
theorem spares_established (io : WsIo) (hst : w.ws.state = .connectionEstablished) :
    Spares (readsEnd io w) w (established io w) := by
  unfold readsEnd
  rw [decide_eq_true hst, Bool.true_and]
  have hread := spares_read io w
  by_cases hne : (w.read io).1 = []
  · rw [established_idle hne, hne]
    split
    · exact hread.quiet (spares_wsClientSend _ _)
    · exact hread.quiet ⟨rfl, rfl, rfl, by rw [Bool.or_false]; rfl, rfl, .inl rfl,
        fun _ => ⟨rfl, rfl⟩⟩
  · rw [established_read hne]
    exact hread.trans (spares_foldl_inData _ _)

/-- What a pass of the task leaves of the client when it is not on a connection. -/
structure Apart (io : WsIo) (w w' : World) : Prop where
  frames : w'.ws.frames = w.ws.frames
  onMessage : w'.ws.onMessage = w.ws.onMessage
  curSocketId : w'.ws.curSocketId = w.ws.curSocketId
  shouldClose : w'.ws.flags.clientShouldClose = w.ws.flags.clientShouldClose
  connecting : w'.ws.flags.clientConnecting = w.ws.flags.clientConnecting ∨
    w.ws.state = .waitHandshakeResponseParse ∧ w'.ws.state = .connectionEstablished
  ts : w'.ws.ts = if w.ws.state = .close then io.now else w.ws.ts

theorem apart_wsClientTask (io : WsIo) (hest : w.ws.state ≠ .connectionEstablished) :
    Apart io w (wsClientTask libs io w) := by
  -- outside of `WS_STATE_CLOSE` the time stamp stays
  have hkept : ∀ {w' : World} {q : WsState}, w.ws.state = q → q ≠ .close →
      w'.ws.frames = w.ws.frames → w'.ws.onMessage = w.ws.onMessage →
      w'.ws.curSocketId = w.ws.curSocketId →
      w'.ws.flags.clientShouldClose = w.ws.flags.clientShouldClose →
      w'.ws.flags.clientConnecting = w.ws.flags.clientConnecting →
      w'.ws.ts = w.ws.ts → Apart io w w' := by
    rintro w' q rfl hq hf hm hc hs hconn hts
    exact ⟨hf, hm, hc, hs, .inl hconn, by rw [if_neg hq, hts]⟩
  unfold wsClientTask
  cases hst : w.ws.state with
  | connectionEstablished => exact absurd hst hest
  | close =>
    have hnow : io.now = if w.ws.state = .close then io.now else w.ws.ts := by rw [if_pos hst]
    dsimp only
    split
    · exact ⟨rfl, rfl, rfl, rfl, .inl rfl, hnow⟩
    · exact ⟨rfl, rfl, rfl, rfl, .inl rfl, hnow⟩
  | manageUrl =>
    dsimp only
    split
    · exact hkept hst (by rintro ⟨⟩) rfl rfl rfl rfl rfl rfl
    · unfold manageUrl
      dsimp only
      split
      · exact hkept hst (by rintro ⟨⟩) rfl rfl rfl rfl rfl rfl
      · split <;> exact hkept hst (by rintro ⟨⟩) rfl rfl rfl rfl rfl rfl
  | openConnection =>
    dsimp only
    split
    · exact hkept hst (by rintro ⟨⟩) rfl rfl rfl rfl rfl rfl
    · split <;> exact hkept hst (by rintro ⟨⟩) rfl rfl rfl rfl rfl rfl
  | initHandshake =>
    dsimp only
    split
    · exact hkept hst (by rintro ⟨⟩) rfl rfl rfl rfl rfl rfl
    · rename_i url _
      obtain ⟨key, buf, q, hws, -⟩ := initHandshake_ws w url
      refine hkept hst (by rintro ⟨⟩) ?_ ?_ ?_ ?_ ?_ ?_ <;> rw [hws]
  | waitHandshakeResponse =>
    unfold waitHandshakeResponse
    dsimp only
    split
    · split <;> exact hkept hst (by rintro ⟨⟩) rfl rfl rfl rfl rfl rfl
    · exact hkept hst (by rintro ⟨⟩) rfl rfl rfl rfl rfl rfl
  | waitHandshakeResponseParse =>
    obtain ⟨-, hclose, hconn, -⟩ := @flags_handshakeResponseParse libs io.stack
      w.ws.webSocketKey.text w.ws.recvBuf.text w.ws.flags
    have hts : w.ws.ts = if w.ws.state = .close then io.now else w.ws.ts :=
      (if_neg (by rw [hst]; rintro ⟨⟩)).symm
    unfold parseHandshakeResponse
    dsimp only
    split
    · exact ⟨rfl, rfl, rfl, hclose, .inr ⟨hst, rfl⟩, hts⟩
    · exact ⟨rfl, rfl, rfl, hclose, .inl hconn, hts⟩
  | retry =>
    dsimp only
    split <;> exact hkept hst (by rintro ⟨⟩) rfl rfl rfl rfl rfl rfl
  | _ => exact hkept hst (by rintro ⟨⟩) rfl rfl rfl rfl rfl rfl

end Leaves

/-! ## Closing -/

section Closing

variable {w w' : World} {libs : Libs}

/-- What `CLIENT_SHOULD_CLOSE` is after a pass of the task. -/
theorem shouldClose_wsClientTask (io : WsIo) : (wsClientTask libs io w).ws.flags.clientShouldClose =
    (w.ws.flags.clientShouldClose || readsEnd io w) := by
  by_cases hst : w.ws.state = .connectionEstablished
  · have htask : wsClientTask libs io w = established io w :=
      wsClientTask_of_established hst
    rw [htask, (spares_established io hst).flags]
  · have hnone : readsEnd io w = false := by
      unfold readsEnd
      rw [decide_eq_false hst, Bool.false_and]
    rw [hnone, Bool.or_false]
    exact (apart_wsClientTask io hst).shouldClose

theorem shouldClose_of_step {s : Session} {e : Event} (hI : w.ws.flags.clientShouldClose = s.ended)
    (hC : FreshClose (w, s) e) (hs : step libs w e = some w') :
    w'.ws.flags.clientShouldClose = (s.after w e).ended := by
  cases e with
  | tcpTask io =>
    obtain rfl := Option.some.inj hs
    obtain ⟨⟨sid, q, hws, -⟩, -⟩ := reported_tcpClientTask io w
    rw [hws]
    exact hI
  | wsTask io =>
    obtain rfl := Option.some.inj hs
    rw [shouldClose_wsClientTask, hI]
    rfl
  | receive sid bs =>
    obtain rfl := Option.some.inj hs
    exact hI
  | wsOpen url cbs =>
    obtain rfl := Option.some.inj hs
    unfold wsClientOpen
    cases url with
    | none =>
      split
      · exact hI
      · exact hI
    | some url =>
      unfold Session.after
      split
      · rename_i hidle
        exact hC hidle
      · exact hI
  | wsSend strdata =>
    obtain rfl := Option.some.inj hs
    show (wsClientSend w strdata).2.ws.flags.clientShouldClose = s.ended
    rw [(spares_wsClientSend w strdata).flags, Bool.or_false]
    exact hI
  | wsSetPing strPing pingInterval =>
    obtain rfl := Option.some.inj hs
    exact hI
  | wsClose =>
    obtain rfl := Option.some.inj hs
    rfl

theorem retriesOwn_of_inv {s : Session} {e : Event}
    (hI : w.ws.flags.clientShouldClose = s.ended) : RetriesOwn libs (w, s) e := by
  refine ⟨fun _ => rfl, ?_⟩
  rintro io rfl hst
  dsimp only at hst ⊢
  unfold wsClientTask
  rw [hst, ← hI]
  dsimp only
  split
  · rename_i hclose
    rw [hclose]
    constructor <;> rintro ⟨⟩
  · rename_i hclose
    rw [Bool.not_eq_true] at hclose
    rw [hclose]
    exact ⟨fun _ => rfl, fun _ => rfl⟩

end Closing

/-! ## Scheme and port -/

/-- The port `WS_STATE_MANAGE_URL` stores. -/
def UrlData.portNumber (u : UrlData) : UInt16 :=
  match u.port with
  | some p => UInt16.ofInt (atoi p)
  | none => if u.IsWss then 443 else 80

theorem isPort_portNumber (u : UrlData) : IsPort u u.portNumber := by
  refine ⟨fun p hp hne hdigits hle => ?_, fun hnone => ?_⟩
  · unfold UrlData.portNumber
    rw [Option.mem_def.mp hp]
    have hatoi := @atoi_digits p [] hne hdigits rfl (by omega)
    rw [List.append_nil] at hatoi
    dsimp only
    rw [hatoi]
    show (UInt16.ofNat ((decVal p : Int) % 2 ^ 16).toNat).toNat = decVal p
    rw [UInt16.toNat_ofNat']
    omega
  · unfold UrlData.portNumber
    rw [hnone]

/-- **The invariant of the session's URL.** -/
structure UrlInv (p : World × Session) : Prop where
  url : ∀ u ∈ p.1.ws.urlData, p.2.url = some u
  ssl : ∀ u ∈ p.1.ws.urlData, p.1.ws.flags.clientIsSsl = true → u.IsWss
  asked : p.1.ws.state = .openConnection → ∃ u, p.1.ws.urlData = some u ∧
    p.1.ws.flags.clientIsSsl = decide u.IsWss ∧ p.1.ws.nPort = u.portNumber

/-- Nothing changes of what a connection is asked for with. -/
structure Aloof (w w' : World) : Prop where
  urlData : w'.ws.urlData = w.ws.urlData
  nPort : w'.ws.nPort = w.ws.nPort
  ssl : w'.ws.flags.clientIsSsl = w.ws.flags.clientIsSsl
  state : w'.ws.state = .openConnection → w.ws.state = .openConnection

section Urls

variable {w w' : World} {libs : Libs} {s s' : Session}

theorem UrlInv.aloof (h : UrlInv (w, s)) (ha : Aloof w w') (hs : s'.url = s.url) :
    UrlInv (w', s') := by
  refine ⟨fun u hu => ?_, fun u hu => ?_, fun hst => ?_⟩
  · rw [hs]
    exact h.url u (ha.urlData ▸ hu)
  · rw [ha.ssl]
    exact h.ssl u (ha.urlData ▸ hu)
  · rw [ha.urlData, ha.ssl, ha.nPort]
    exact h.asked (ha.state hst)

theorem Spares.aloof {b : Bool} (h : Spares b w w') : Aloof w w' := by
  refine ⟨h.urlData, h.nPort, by rw [h.flags], fun hst => ?_⟩
  rcases h.state with hs | hs
  · exact hs.symm.trans hst
  · cases hs.symm.trans hst

theorem Reported.aloof (h : Reported w w') : Aloof w w' := by
  obtain ⟨⟨sid, q, hws, hq⟩, -⟩ := h
  refine ⟨by rw [hws], by rw [hws], by rw [hws], fun hst => ?_⟩
  rw [hws] at hst
  rcases hq with rfl | rfl | rfl | rfl
  · exact hst
  · cases hst
  · cases hst
  · cases hst

/-- Outside of two states a pass of the task asks for nothing new, or ends the session. -/
theorem aloof_wsClientTask (io : WsIo) (hm : w.ws.state ≠ .manageUrl) :
    Aloof w (wsClientTask libs io w) ∨
      (wsClientTask libs io w).ws.urlData = none ∧
        (wsClientTask libs io w).ws.state ≠ .openConnection := by
  have hstate : ∀ {w' : World} {q : WsState}, w'.ws.urlData = w.ws.urlData →
      w'.ws.nPort = w.ws.nPort → w'.ws.flags.clientIsSsl = w.ws.flags.clientIsSsl →
      w'.ws.state = q → q ≠ .openConnection → Aloof w w' := fun hu hp hs hq hne =>
    ⟨hu, hp, hs, fun h => absurd (hq.symm.trans h) hne⟩
  unfold wsClientTask
  cases hst : w.ws.state with
  | init => exact .inl (hstate rfl rfl rfl rfl (by rintro ⟨⟩))
  | idle => exact .inl ⟨rfl, rfl, rfl, id⟩
  | waitTcpSocketConnection => exact .inl ⟨rfl, rfl, rfl, id⟩
  | halt => exact .inl ⟨rfl, rfl, rfl, id⟩
  | manageUrl => exact absurd hst hm
  | openConnection =>
    left
    dsimp only
    split
    · exact ⟨rfl, rfl, rfl, id⟩
    · split
      · exact hstate rfl rfl rfl rfl (by rintro ⟨⟩)
      · exact hstate rfl rfl rfl rfl (by rintro ⟨⟩)
  | initHandshake =>
    left
    dsimp only
    split
    · exact ⟨rfl, rfl, rfl, id⟩
    · rename_i url _
      obtain ⟨key, buf, q, hws, hq⟩ := initHandshake_ws w url
      refine ⟨by rw [hws], by rw [hws], by rw [hws], fun h => ?_⟩
      rw [hws] at h
      rcases hq with rfl | rfl <;> cases h
  | waitHandshakeResponse =>
    left
    dsimp only
    unfold waitHandshakeResponse
    dsimp only
    split
    · split
      · exact ⟨rfl, rfl, rfl, id⟩
      · exact hstate rfl rfl rfl rfl (by rintro ⟨⟩)
    · exact ⟨rfl, rfl, rfl, id⟩
  | waitHandshakeResponseParse =>
    left
    dsimp only
    unfold parseHandshakeResponse
    dsimp only
    have hflags := (@flags_handshakeResponseParse libs io.stack
      w.ws.webSocketKey.text w.ws.recvBuf.text w.ws.flags).1
    split
    · exact hstate rfl rfl hflags rfl (by rintro ⟨⟩)
    · exact hstate rfl rfl hflags rfl (by rintro ⟨⟩)
  | connectionEstablished => exact .inl (spares_established io hst).aloof
  | error => exact .inl (hstate rfl rfl rfl rfl (by rintro ⟨⟩))
  | close =>
    dsimp only
    split
    · exact .inr ⟨rfl, by rintro ⟨⟩⟩
    · exact .inl (hstate rfl rfl rfl rfl (by rintro ⟨⟩))
  | retry =>
    left
    dsimp only
    split
    · exact hstate rfl rfl rfl rfl (by rintro ⟨⟩)
    · exact ⟨rfl, rfl, rfl, id⟩
  | null => exact .inl (hstate rfl rfl rfl rfl (by rintro ⟨⟩))

theorem urlInv_manageUrl (h : UrlInv (w, s)) {u : UrlData} (hu : w.ws.urlData = some u) :
    UrlInv ({ w with ws := manageUrl w.ws u }, s) := by
  have hurl := h.url u hu
  have hssl := h.ssl u hu
  have hother : ∀ u' ∈ w.ws.urlData, u' = u := fun u' hu' => Option.some.inj (hu'.symm.trans hu)
  by_cases hwss : u.IsWss
  · have hscheme : strcmp u.scheme (ascii "wss") = 0 := hwss
    have heq : manageUrl w.ws u = { w.ws with
        state := .openConnection
        nPort := u.portNumber
        flags := { w.ws.flags with clientIsSsl := true } } := by
      cases hport : u.port with
      | none => simp only [manageUrl, UrlData.portNumber, hport, if_pos hscheme, if_pos hwss]
      | some p => simp only [manageUrl, UrlData.portNumber, hport, if_pos hscheme]
    rw [heq]
    refine ⟨h.url, fun u' hu' _ => ?_, fun _ => ⟨u, hu, (decide_eq_true hwss).symm, rfl⟩⟩
    rw [hother u' hu']
    exact hwss
  · have hscheme : ¬ strcmp u.scheme (ascii "wss") = 0 := hwss
    by_cases hws : strcmp u.scheme (ascii "ws") = 0
    · have heq : manageUrl w.ws u = { w.ws with
          state := .openConnection
          nPort := u.portNumber } := by
        cases hport : u.port with
        | none =>
          simp only [manageUrl, UrlData.portNumber, hport, if_neg hscheme, if_pos hws, if_neg hwss]
        | some p => simp only [manageUrl, UrlData.portNumber, hport, if_neg hscheme, if_pos hws]
      rw [heq]
      have hclear : w.ws.flags.clientIsSsl = false :=
        Bool.eq_false_iff.mpr fun hset => hwss (hssl hset)
      exact ⟨h.url, h.ssl, fun _ => ⟨u, hu, hclear.trans (decide_eq_false hwss).symm, rfl⟩⟩
    · have heq : manageUrl w.ws u = { w.ws with state := .halt } := by
        unfold manageUrl
        dsimp only
        rw [if_neg hscheme, if_neg hws]
      rw [heq]
      exact ⟨h.url, h.ssl, by rintro ⟨⟩⟩

theorem urlInv_of_step {e : Event} (h : UrlInv (w, s)) (hC : FreshTls (w, s) e)
    (hs : step libs w e = some w') : UrlInv (w', s.after w e) := by
  cases e with
  | tcpTask io =>
    obtain rfl := Option.some.inj hs
    exact h.aloof (reported_tcpClientTask io w).aloof rfl
  | wsTask io =>
    obtain rfl := Option.some.inj hs
    by_cases hm : w.ws.state = .manageUrl
    · unfold wsClientTask
      rw [hm]
      dsimp only
      split
      · exact h.aloof ⟨rfl, rfl, rfl, id⟩ rfl
      · rename_i u hu
        have hmanage := urlInv_manageUrl h hu
        exact hmanage.aloof ⟨rfl, rfl, rfl, id⟩ rfl
    · rcases @aloof_wsClientTask w libs io hm with ha | ⟨hnone, hst⟩
      · exact h.aloof ha rfl
      · refine ⟨fun u hu => ?_, fun u hu => ?_, fun h => absurd h hst⟩
        · cases hnone.symm.trans hu
        · cases hnone.symm.trans hu
  | receive sid bs =>
    obtain rfl := Option.some.inj hs
    exact h.aloof ⟨rfl, rfl, rfl, id⟩ rfl
  | wsOpen url cbs =>
    obtain rfl := Option.some.inj hs
    unfold wsClientOpen
    cases url with
    | none =>
      split
      · rename_i hidle
        refine ⟨?_, ?_, fun h => ?_⟩
        · rintro _ ⟨⟩
        · rintro _ ⟨⟩
        · cases hidle.symm.trans h
      · exact h.aloof ⟨rfl, rfl, rfl, id⟩ rfl
    | some url =>
      unfold Session.after
      split
      · rename_i hidle
        refine ⟨fun u hu => hu, fun u hu hset => ?_, by rintro ⟨⟩⟩
        obtain rfl := Option.some.inj hu
        exact (hC hidle).resolve_right fun hclear => by cases hclear.symm.trans hset
      · exact h.aloof ⟨rfl, rfl, rfl, id⟩ rfl
  | wsSend strdata =>
    obtain rfl := Option.some.inj hs
    exact h.aloof (spares_wsClientSend w strdata).aloof rfl
  | wsSetPing strPing pingInterval =>
    obtain rfl := Option.some.inj hs
    exact h.aloof ⟨rfl, rfl, rfl, id⟩ rfl
  | wsClose =>
    obtain rfl := Option.some.inj hs
    exact h.aloof ⟨rfl, rfl, rfl, id⟩ rfl

theorem opensOwn_of_inv {e : Event} (h : UrlInv (w, s)) : OpensOwn libs (w, s) e := by
  rintro io rfl hst
  obtain ⟨u, hu, hssl, hport⟩ := h.asked hst
  refine ⟨u, u.portNumber, h.url u hu, isPort_portNumber u, ?_⟩
  dsimp only at hu hst hssl hport ⊢
  cases hopen : tcpClientOpenHost w.slots u.host u.portNumber (decide u.IsWss) .ws with
  | mk res rest =>
    obtain ⟨slots, bad⟩ := rest
    cases res <;> simp only [wsClientTask, World.openHost, hst, hu, hssl, hport, hopen]

end Urls

/-- **The sessions of a client do not influence each other**, while each finds the bits of its
predecessors clear. -/
theorem sessions_apart (libs : Libs) (grants : Nat → Bool) (rand : Nat → UInt32) (es : List Event) :
    (Along (watch (step libs) Session.after) FreshTls (sessionInit grants rand) es →
      Along (watch (step libs) Session.after) (OpensOwn libs) (sessionInit grants rand) es) ∧
    (Along (watch (step libs) Session.after) FreshClose (sessionInit grants rand) es →
      Along (watch (step libs) Session.after) (RetriesOwn libs) (sessionInit grants rand) es) := by
  constructor
  · intro hC
    refine @along_of_inv _ _ _ _ _ UrlInv (fun p e q hI hC hs => ?_)
      (fun p e hI _ => opensOwn_of_inv hI) _ _ ?_ hC
    · obtain ⟨hs, hg⟩ := watch_eq_some.mp hs
      have hinv := urlInv_of_step hI hC hs
      rwa [← hg] at hinv
    · refine ⟨?_, ?_, ?_⟩
      · rintro _ ⟨⟩
      · rintro _ ⟨⟩
      · rintro ⟨⟩
  · intro hC
    refine @along_of_inv _ _ _ _ _
      (fun p : World × Session => p.1.ws.flags.clientShouldClose = p.2.ended)
      (fun p e q hI hC hs => ?_) (fun p e hI _ => retriesOwn_of_inv hI) _ _ rfl hC
    obtain ⟨hs, hg⟩ := watch_eq_some.mp hs
    rw [hg]
    exact shouldClose_of_step hI hC hs

/-! ## Two sessions -/

instance (p : World × Session) : (e : Event) → Decidable (FreshTls p e)
  | .wsOpen (some _) _ => inferInstanceAs (Decidable (_ → _))
  | .wsOpen none _ | .tcpTask _ | .wsTask _ | .receive _ _ | .wsSend _ | .wsSetPing _ _
  | .wsClose => .isTrue trivial

instance (p : World × Session) : (e : Event) → Decidable (FreshClose p e)
  | .wsOpen (some _) _ => inferInstanceAs (Decidable (_ → _))
  | .wsOpen none _ | .tcpTask _ | .wsTask _ | .receive _ _ | .wsSend _ | .wsSetPing _ _
  | .wsClose => .isTrue trivial

/-- The network stack when the connection is lost. -/
def lostIo : NetIo := { readyIo with wasReset := true }

/-- A client asks for a connection with a host of a scheme. -/
def openWith (scheme : Bytes) : Event :=
  .wsOpen (some ⟨scheme, ascii "10.0.0.1", none, none⟩) ⟨false, false, false, false⟩

/-- A session is opened and the socket connects; with the connection lost it is closed again. -/
def shortSession (scheme : Bytes) : List Event :=
  let look : Event := .wsTask ⟨0, 2047, []⟩
  let pass : Event := .tcpTask fun _ => readyIo
  [openWith scheme, look, look, pass, pass, pass, pass, .tcpTask fun _ => lostIo]

/-- A "ws" session that is lost and closed by the application, then a "wss" session. -/
def plainThenTls : List Event :=
  let look : Event := .wsTask ⟨0, 2047, []⟩
  [look] ++ shortSession (ascii "ws") ++ [.wsClose, look, look, openWith (ascii "wss"), look, look]

theorem sessions_apart_plainThenTls :
    Along (watch (step noLibs) Session.after) (OpensOwn noLibs)
      (sessionInit (fun _ => true) sampleRand) plainThenTls ∧
    Along (watch (step noLibs) Session.after) (RetriesOwn noLibs)
      (sessionInit (fun _ => true) sampleRand)
      (.wsTask ⟨0, 2047, []⟩ :: shortSession (ascii "ws") ++ [.wsTask ⟨0, 2047, []⟩]) :=
  ⟨(sessions_apart _ _ _ _).1 (by decide +kernel), (sessions_apart _ _ _ _).2 (by decide +kernel)⟩

/-- The other way around. -/
def tlsThenPlain : List Event :=
  let look : Event := .wsTask ⟨0, 2047, []⟩
  [look] ++ shortSession (ascii "wss") ++ [.wsClose, look, look, openWith (ascii "ws"), look]

/-- A connection without TLS sets no slot to TLS. -/
theorem tls_openHost {w : World} {i : Fin tcpClientMaxSockets} (host : Bytes) (port : UInt16)
    (h : (w.slots i).tls = false) : ((w.openHost host port false).slots i).tls = false := by
  have hupdate : ∀ (sid : Fin tcpClientMaxSockets) (s : Slot), s.tls = false →
      (Function.update w.slots sid s i).tls = false := by
    intro sid s hs
    by_cases hi : i = sid
    · rw [hi, Function.update_self]
      exact hs
    · rw [Function.update_of_ne hi]
      exact h
  unfold World.openHost tcpClientOpenHost
  cases firstIdle w.slots with
  | none => exact h
  | some sid =>
    dsimp only
    cases (w.slots sid).hostName.sprintf host with
    | none => exact hupdate sid _ rfl
    | some name => exact hupdate sid _ rfl

/-- The plain session asks for a connection with TLS. -/
theorem not_sessions_apart :
    ¬ Along (watch (step noLibs) Session.after) (OpensOwn noLibs)
      (sessionInit (fun _ => true) sampleRand) (tlsThenPlain ++ [.wsTask ⟨0, 2047, []⟩]) := by
  intro hall
  have hasked : (run (watch (step noLibs) Session.after) (sessionInit (fun _ => true) sampleRand)
      tlsThenPlain).map (fun p => (p.1.ws.state, p.2.url.map UrlData.scheme, (p.1.slots 1).tls,
        ((wsClientTask noLibs ⟨0, 2047, []⟩ p.1).slots 1).tls)) =
          some (.openConnection, some (ascii "ws"), false, true) := by decide +kernel
  obtain ⟨p, hr, hp⟩ := Option.map_eq_some_iff.mp hasked
  obtain ⟨hst, hp⟩ := Prod.mk.inj hp
  obtain ⟨hurl, hp⟩ := Prod.mk.inj hp
  obtain ⟨hbefore, hafter⟩ := Prod.mk.inj hp
  obtain ⟨url, port, hu, -, htask⟩ := (along_of_append hall hr).1 _ rfl hst
  rw [hu] at hurl
  have hscheme : url.scheme = ascii "ws" := Option.some.inj hurl
  have hplain : decide url.IsWss = false := by
    refine decide_eq_false ?_
    unfold UrlData.IsWss
    rw [hscheme]
    decide
  rw [htask, hplain] at hafter
  cases hafter.symm.trans (tls_openHost url.host port hbefore)

end Rastreo.Net
