import Rastreo.Net.Upgrade
import Rastreo.Net.Receiving

/-!
# The opening handshake

What stands when in a handshake, over whole runs of the system.

* `Aside`: what sending a message and receiving frames leave of the handshake.
* `Phase`: what the handshake has done so far, by the state of the client. While the answer is
  waited for, nothing was read off the socket, and `recv_buf` holds the start of what arrived.
* `handshakeInv_of_step`: every event keeps the invariant `HandshakeInv`.
* `waitHandshakeResponse_spec`: one look for the answer.
-/

namespace Rastreo.Net

open Rastreo.Lib

/-! ## What sending and receiving leave of the handshake -/

/-- The key, the buffer and what the sockets hold stay; the client may be put in error. -/
structure Aside (w w' : World) : Prop where
  key : w'.ws.webSocketKey = w.ws.webSocketKey
  recvBuf : w'.ws.recvBuf = w.ws.recvBuf
  curSocketId : w'.ws.curSocketId = w.ws.curSocketId
  state : w'.ws.state = w.ws.state ∨ w'.ws.state = .error
  slots : ∀ i, (w'.slots i).state = (w.slots i).state ∧ (w'.slots i).rx = (w.slots i).rx ∧
    (w'.slots i).arrived = (w.slots i).arrived

section Aside

variable {w w₁ w' : World}

protected theorem Aside.refl : Aside w w := ⟨rfl, rfl, rfl, .inl rfl, fun _ => ⟨rfl, rfl, rfl⟩⟩

theorem Aside.trans (h₁ : Aside w w₁) (h₂ : Aside w₁ w') : Aside w w' := by
  refine ⟨h₂.key.trans h₁.key, h₂.recvBuf.trans h₁.recvBuf, h₂.curSocketId.trans h₁.curSocketId,
    ?_, fun i => ?_⟩
  · rcases h₂.state with hs | hs
    · rw [hs]
      exact h₁.state
    · exact .inr hs
  · obtain ⟨hs, hrx, harr⟩ := h₂.slots i
    rw [hs, hrx, harr]
    exact h₁.slots i

theorem Aside.of_same (hk : w'.ws.webSocketKey = w.ws.webSocketKey)
    (hb : w'.ws.recvBuf = w.ws.recvBuf) (hc : w'.ws.curSocketId = w.ws.curSocketId)
    (hst : w'.ws.state = w.ws.state) (hs : w'.slots = w.slots) : Aside w w' :=
  ⟨hk, hb, hc, .inl hst, fun _ => by rw [hs]; exact ⟨rfl, rfl, rfl⟩⟩

theorem aside_sendError (w : World) (c : Int) : Aside w (w.sendError c) := by
  unfold World.sendError World.callOnError World.setState
  split <;> exact ⟨rfl, rfl, rfl, .inr rfl, fun _ => ⟨rfl, rfl, rfl⟩⟩

theorem aside_tcpClientSend (h : Heap) (slots : Slots) (sid : Fin tcpClientMaxSockets)
    (data : Bytes) (n : Nat) (i : Fin tcpClientMaxSockets) :
    ((tcpClientSend h slots sid data n).2.2 i).state = (slots i).state ∧
      ((tcpClientSend h slots sid data n).2.2 i).rx = (slots i).rx ∧
      ((tcpClientSend h slots sid data n).2.2 i).arrived = (slots i).arrived := by
  rcases (tcpClientSend_appends h slots sid data n).2 with hs | ⟨node, -, hs⟩
  · rw [hs]
    exact ⟨rfl, rfl, rfl⟩
  · rw [hs]
    by_cases hi : i = sid
    · subst hi
      rw [Function.update_self]
      exact ⟨rfl, rfl, rfl⟩
    · rw [Function.update_of_ne hi]
      exact ⟨rfl, rfl, rfl⟩

theorem aside_sendData {n : Nat} (w : World) (block : Block) (built : Option (Buf n)) :
    Aside w (sendData w block built).2 := by
  have hslots := aside_tcpClientSend w.heap w.slots w.ws.curSocketId (built.getD .clear).bytes n
  unfold sendData
  generalize tcpClientSend w.heap w.slots w.ws.curSocketId (built.getD .clear).bytes n = r
    at hslots ⊢
  dsimp only
  split
  · exact ⟨rfl, rfl, rfl, .inl rfl, hslots⟩
  · refine Aside.trans (.trans ?_ (aside_sendError _ 4)) (.of_same rfl rfl rfl rfl rfl)
    exact ⟨rfl, rfl, rfl, .inl rfl, hslots⟩

theorem aside_wsClientSend (w : World) (s : Option Bytes) : Aside w (wsClientSend w s).2 := by
  unfold wsClientSend
  split
  · exact aside_sendError w 0
  · split
    · exact aside_sendError w 1
    · split
      · exact aside_sendError w 2
      · dsimp only [World.drawMask]
        split
        · refine Aside.trans ?_ (aside_sendError _ 4)
          exact .of_same rfl rfl rfl rfl rfl
        · refine Aside.trans ?_ (aside_sendData _ _ _)
          exact .of_same rfl rfl rfl rfl rfl

theorem aside_dispatchMessage (w : World) (frames : List WsFrame) :
    Aside w (dispatchMessage w frames).1 := by
  unfold dispatchMessage
  split
  · unfold World.callOnError World.setState
    split <;> exact ⟨rfl, rfl, rfl, .inr rfl, fun _ => ⟨rfl, rfl, rfl⟩⟩
  · dsimp only
    split
    · exact .of_same rfl rfl rfl rfl rfl
    · split <;> exact .of_same rfl rfl rfl rfl rfl

theorem aside_handleOpcode (w : World) (ctl : WsFrame) (mask : Bytes) :
    Aside w (handleOpcode w ctl mask) := by
  unfold handleOpcode
  split
  · dsimp only
    split
    · exact .of_same rfl rfl rfl rfl rfl
    · exact ⟨rfl, rfl, rfl, .inl rfl, aside_tcpClientSend _ _ _ _ _⟩
  · exact .refl

theorem aside_resetFrame (w : World) (ctl : WsFrame) (prev : List WsFrame) :
    Aside w (resetFrame w ctl prev).1 := by
  unfold resetFrame
  split <;> exact .of_same rfl rfl rfl rfl rfl

theorem aside_frameDone (w : World) (cur : WsFrame) (prev : List WsFrame) :
    Aside w (frameDone w cur prev).1 := by
  unfold frameDone
  split
  · split
    · refine Aside.trans (.trans ?_ (aside_handleOpcode w.drawMask.2 cur w.drawMask.1))
        (aside_resetFrame _ cur prev)
      exact .of_same rfl rfl rfl rfl rfl
    · exact (aside_dispatchMessage w (cur :: prev)).trans (.of_same rfl rfl rfl rfl rfl)
  · unfold newFragment
    split
    · exact .of_same rfl rfl rfl rfl rfl
    · split <;> exact .of_same rfl rfl rfl rfl rfl

theorem aside_storeByte (w : World) (c : UInt8) (cur : WsFrame) (prev : List WsFrame) :
    Aside w (storeByte w c cur prev).1 := by
  unfold storeByte
  split
  · exact .refl
  · dsimp only
    split
    · exact .of_same rfl rfl rfl rfl rfl
    · exact .of_same rfl rfl rfl rfl rfl
    · refine Aside.trans ?_ (aside_frameDone _ _ _)
      exact .of_same rfl rfl rfl rfl rfl

theorem aside_openFrame (w : World) : Aside w (openFrame w).1 := by
  unfold openFrame
  split
  · exact .refl
  · split
    · exact .of_same rfl rfl rfl rfl rfl
    · split <;> exact .of_same rfl rfl rfl rfl rfl

theorem aside_extendFrame (w : World) (cur : WsFrame) (prev : List WsFrame) :
    Aside w (extendFrame w cur prev).1 := by
  unfold extendFrame
  split
  · dsimp only
    split <;> exact .of_same rfl rfl rfl rfl rfl
  · exact .refl

theorem aside_inData (w : World) (c : UInt8) : Aside w (inData w c).1 := by
  have hopen := aside_openFrame w
  unfold inData
  split
  · rename_i h
    rwa [h] at hopen
  · rename_i w₁ h
    rw [h] at hopen
    split
    · exact hopen
    · rename_i cur prev _
      have hext := aside_extendFrame w₁ cur prev
      unfold fillFrame
      split
      · rename_i h'
        rw [h'] at hext
        exact hopen.trans hext
      · rename_i h'
        rw [h'] at hext
        exact (hopen.trans hext).trans (aside_storeByte _ _ _ _)

theorem aside_foldl_inData (bs : Bytes) (w : World) :
    Aside w (bs.foldl (fun w c => (inData w c).1) w) := by
  induction bs generalizing w with
  | nil => exact .refl
  | cons c bs ih => exact (aside_inData w c).trans (ih _)

end Aside

/-! ## Where a handshake stands -/

/-- The socket is being opened. -/
def Slot.Opening (s : Slot) : Prop :=
  s.state = .connectionWaitingFor ∨ s.state = .connectionSslNegotiationWait

/-- `recv_buf` holds the start of what arrived, and zeros behind it. -/
def Peeked (w : World) : Prop :=
  ∃ m, m < wsReceiveBuffer ∧ m ≤ w.socket.arrived.length ∧
    w.ws.recvBuf.bytes = w.socket.arrived.take m ++ List.replicate (wsReceiveBuffer - m) 0

/-- What a handshake has done so far, by the state. -/
def Phase (w : World) : WsState → Prop
  | .initHandshake => w.socket.Settled ∧ w.socket.rx = w.socket.arrived
  | .waitHandshakeResponse => w.socket.Settled ∧ w.socket.rx = w.socket.arrived ∧ Peeked w
  | .waitHandshakeResponseParse =>
    w.socket.Settled ∧ Peeked w ∧ ∃ n, headEnd? w.ws.recvBuf.text = some n
  | _ => True

/-- **The invariant of the handshakes.** -/
structure HandshakeInv (w : World) : Prop where
  opening : ∀ i, (w.slots i).Opening → (w.slots i).rx = (w.slots i).arrived
  key : w.ws.webSocketKey.bytes.drop 24 = List.replicate 232 0
  phase : Phase w w.ws.state

section Invariant

variable {w w' : World}

/-- The phase is about the socket and the buffer. -/
theorem phase_congr (hb : w'.ws.recvBuf = w.ws.recvBuf)
    (hs : w.socket.Settled → w'.socket.Settled ∧ w'.socket.rx = w.socket.rx ∧
      w'.socket.arrived = w.socket.arrived) {q : WsState} (h : Phase w q) : Phase w' q := by
  have hpeeked : w'.socket.arrived = w.socket.arrived → Peeked w → Peeked w' := fun harr hp => by
    unfold Peeked
    rw [hb, harr]
    exact hp
  cases q with
  | initHandshake =>
    obtain ⟨hset, hrx, harr⟩ := hs h.1
    exact ⟨hset, by rw [hrx, harr]; exact h.2⟩
  | waitHandshakeResponse =>
    obtain ⟨hset, hrx, harr⟩ := hs h.1
    exact ⟨hset, by rw [hrx, harr]; exact h.2.1, hpeeked harr h.2.2⟩
  | waitHandshakeResponseParse =>
    obtain ⟨hset, hrx, harr⟩ := hs h.1
    exact ⟨hset, hpeeked harr h.2.1, by rw [hb]; exact h.2.2⟩
  | _ => trivial

theorem opening_congr
    (hs : ∀ i, (w'.slots i).state = (w.slots i).state ∧ (w'.slots i).rx = (w.slots i).rx ∧
      (w'.slots i).arrived = (w.slots i).arrived)
    (h : ∀ i, (w.slots i).Opening → (w.slots i).rx = (w.slots i).arrived) :
    ∀ i, (w'.slots i).Opening → (w'.slots i).rx = (w'.slots i).arrived := by
  intro i hi
  obtain ⟨hst, hrx, harr⟩ := hs i
  rw [Slot.Opening, hst] at hi
  rw [hrx, harr]
  exact h i hi

theorem HandshakeInv.of_aside (hI : HandshakeInv w) (ha : Aside w w') : HandshakeInv w' := by
  refine ⟨opening_congr ha.slots hI.opening, by rw [ha.key]; exact hI.key, ?_⟩
  rcases ha.state with hst | hst
  · obtain ⟨hs, hrx, harr⟩ := ha.slots w.ws.curSocketId
    rw [hst]
    refine phase_congr ha.recvBuf (fun hset => ?_) hI.phase
    unfold World.socket Slot.Settled
    rw [ha.curSocketId, hs]
    exact ⟨hset, hrx, harr⟩
  · rw [hst]
    trivial

/-! ### The buffer -/

theorem take_over {a : Bytes} {k m n : Nat} (hm : m ≤ a.length) :
    a.take k ++ (a.take m ++ List.replicate (n - m) 0).drop (a.take k).length =
      a.take (max (min k a.length) m) ++
        List.replicate (n - max (min k a.length) m) (0 : UInt8) := by
  have htake : a.take k = a.take (min k a.length) := by
    rw [← List.take_take, List.take_length]
  have hlen : (a.take k).length = min k a.length := List.length_take
  rw [hlen, htake]
  generalize hj : min k a.length = j
  have hjle : j ≤ a.length := by omega
  have hmlen : (a.take m).length = m := by rw [List.length_take]; omega
  by_cases hle : j ≤ m
  · rw [Nat.max_eq_right hle, List.drop_append_of_le_length (by omega), ← List.append_assoc]
    congr 1
    have : a.take j = (a.take m).take j := by rw [List.take_take, Nat.min_eq_left hle]
    rw [this, List.take_append_drop]
  · rw [Nat.max_eq_left (by omega), List.drop_append, List.drop_eq_nil_of_le (by omega),
      List.nil_append, hmlen, List.drop_replicate]
    congr 2
    omega

/-- A read of what the socket has keeps the buffer. -/
theorem peeked_received {k : Nat} (h : Peeked w) (hk : k < wsReceiveBuffer) :
    Peeked { w with ws := w.ws.received (w.socket.arrived.take k) } := by
  obtain ⟨m, hm, hle, hbytes⟩ := h
  have hfit : 0 + (w.socket.arrived.take k).length ≤ wsReceiveBuffer := by
    rw [List.length_take]
    omega
  obtain ⟨b, hb⟩ := @Buf.store_isSome _ w.ws.recvBuf 0 _ hfit
  have hbuf : (w.ws.received (w.socket.arrived.take k)).recvBuf = b := by
    show (w.ws.recvBuf.store 0 _).getD _ = b
    rw [hb]
    rfl
  refine ⟨max (min k w.socket.arrived.length) m, ?_, ?_, ?_⟩
  · omega
  · show max (min k w.socket.arrived.length) m ≤ w.socket.arrived.length
    omega
  · show (w.ws.received (w.socket.arrived.take k)).recvBuf.bytes = _
    rw [hbuf, Buf.text_of_store_zero hb, hbytes]
    exact take_over hle

/-- Bytes that are there already change nothing. -/
theorem received_present {c : Client} {bs : Bytes} (h : bs <+: c.recvBuf.bytes) :
    c.received bs = c := by
  obtain ⟨t, ht⟩ := h
  have hlen := c.recvBuf.length_eq
  rw [← ht, List.length_append] at hlen
  obtain ⟨b, hb⟩ := @Buf.store_isSome _ c.recvBuf 0 bs (by omega)
  have hbytes := Buf.text_of_store_zero hb
  rw [← ht, List.drop_left, ht] at hbytes
  have heq : b = c.recvBuf := by
    cases b
    cases hc : c.recvBuf
    rw [hc] at hbytes
    cases hbytes
    rfl
  unfold Client.received
  rw [hb, heq]
  rfl

/-- The text in the buffer is the start of what arrived. -/
theorem text_peeked {m : Nat}
    (hbytes : w.ws.recvBuf.bytes =
      w.socket.arrived.take m ++ List.replicate (wsReceiveBuffer - m) 0) :
    w.ws.recvBuf.text = cstr (w.socket.arrived.take m) := by
  rw [Buf.text, hbytes, Buf.cstr_append_replicate]

theorem text_arrived (h : Peeked w) : w.ws.recvBuf.text <+: w.socket.arrived := by
  obtain ⟨m, -, -, hbytes⟩ := h
  rw [text_peeked hbytes]
  exact (List.takeWhile_prefix _).trans (List.take_prefix m _)

/-! ### The TCP task -/

/-- What a pass does to a socket's stream, and whether it reports a connection. -/
inductive Passes (s s' : Slot) (es : List ClientEvent) : Prop
  | keeps (hes : .connected ∉ es) (hrx : s'.rx = s.rx) (harr : s'.arrived = s.arrived)
      (hop : s'.Opening → s.Opening)
  | opens (hes : .connected ∉ es) (hrx : s'.rx = []) (harr : s'.arrived = [])
  | connects (hes : es = [.connected]) (hop : s.Opening) (hst : s'.state = .connectionStablished)
      (hrx : s'.rx = s.rx) (harr : s'.arrived = s.arrived)

theorem txTask_events (io : NetIo) (h : Heap) (s : Slot) : .connected ∉ (s.txTask io h).2.2 := by
  unfold Slot.txTask
  split
  · split <;> exact List.not_mem_nil
  · split
    · exact List.not_mem_nil
    · dsimp only
      split
      · split
        · exact List.not_mem_nil
        · exact fun hm => by cases List.mem_singleton.mp hm
      · exact List.not_mem_nil
  · exact fun hm => by cases List.mem_singleton.mp hm
  · exact fun hm => by cases List.mem_singleton.mp hm

theorem task_passes (io : NetIo) (h : Heap) (s : Slot) :
    Passes s (s.task io h).1 (s.task io h).2.2 := by
  have hnone : ∀ {s' : Slot} {es : List ClientEvent}, es = [] ∨ es = [.timeout] ∨ es = [.error] ∨
      es = [.disconnected] → s'.rx = s.rx → s'.arrived = s.arrived →
      (s'.Opening → s.Opening) → Passes s s' es := by
    rintro s' es (rfl | rfl | rfl | rfl) hrx harr hop <;>
      exact .keeps (by decide) hrx harr hop
  have hclosed : ∀ {s' : Slot} {q : TcpState}, s'.state = q → q ≠ .connectionWaitingFor →
      q ≠ .connectionSslNegotiationWait → s'.Opening → s.Opening := by
    rintro s' q rfl h₁ h₂ (h | h)
    · exact absurd h h₁
    · exact absurd h h₂
  unfold Slot.task
  cases hst : s.state with
  | connectionInit =>
    dsimp only
    split
    · exact hnone (.inr (.inr (.inl rfl))) rfl rfl (hclosed rfl (by rintro ⟨⟩) (by rintro ⟨⟩))
    · exact .opens List.not_mem_nil rfl rfl
  | connectionWaitingFor =>
    have hop : s.Opening := .inl hst
    dsimp only
    split
    · split
      · split <;> exact hnone (.inl rfl) rfl rfl fun _ => hop
      · exact .connects rfl hop rfl rfl rfl
    · split <;> exact hnone (.inl rfl) rfl rfl fun _ => hop
  | connectionSslNegotiationWait =>
    have hop : s.Opening := .inr hst
    dsimp only
    split
    · split <;> exact hnone (.inl rfl) rfl rfl fun _ => hop
    · split
      · exact .connects rfl hop rfl rfl rfl
      · exact hnone (.inl rfl) rfl rfl fun _ => hop
  | connectionStablished =>
    obtain ⟨hkeep, hrx, harr⟩ := txTask_keeps io h s
    have htx := txTask_events io h s
    dsimp only
    split
    · exact hnone (.inr (.inr (.inr rfl))) rfl rfl (hclosed rfl (by rintro ⟨⟩) (by rintro ⟨⟩))
    · refine .keeps ?_ hrx harr (hclosed (hkeep.trans hst) (by rintro ⟨⟩) (by rintro ⟨⟩))
      split
      · intro hm
        rcases List.mem_append.mp hm with hm | hm
        · exact htx hm
        · cases List.mem_singleton.mp hm
      · exact htx
  | idle => exact hnone (.inl rfl) rfl rfl id
  | dnsResolveHostAddress =>
    dsimp only
    split
    · exact hnone (.inl rfl) rfl rfl (hclosed rfl (by rintro ⟨⟩) (by rintro ⟨⟩))
    · split <;> exact hnone (.inl rfl) rfl rfl (hclosed rfl (by rintro ⟨⟩) (by rintro ⟨⟩))
  | dnsWait =>
    dsimp only
    split
    · exact hnone (.inl rfl) rfl rfl (hclosed rfl (by rintro ⟨⟩) (by rintro ⟨⟩))
    · split
      · exact hnone (.inl rfl) rfl rfl (hclosed rfl (by rintro ⟨⟩) (by rintro ⟨⟩))
      · split <;> exact hnone (.inl rfl) rfl rfl (hclosed rfl (by rintro ⟨⟩) (by rintro ⟨⟩))
  | dnsTimeout => exact hnone (.inr (.inl rfl)) rfl rfl (hclosed rfl (by rintro ⟨⟩) (by rintro ⟨⟩))
  | dnsError => exact hnone (.inr (.inr (.inl rfl))) rfl rfl (hclosed rfl (by rintro ⟨⟩) (by rintro ⟨⟩))
  | connectionTimeout => exact hnone (.inr (.inl rfl)) rfl rfl (hclosed rfl (by rintro ⟨⟩) (by rintro ⟨⟩))
  | connectionError => exact hnone (.inr (.inr (.inl rfl))) rfl rfl (hclosed rfl (by rintro ⟨⟩) (by rintro ⟨⟩))
  | connectionClose => exact hnone (.inl rfl) rfl rfl (hclosed rfl (by rintro ⟨⟩) (by rintro ⟨⟩))
  | waitForRetry =>
    dsimp only
    split
    · exact hnone (.inl rfl) rfl rfl (hclosed rfl (by rintro ⟨⟩) (by rintro ⟨⟩))
    · exact hnone (.inl rfl) rfl rfl (hclosed hst (by rintro ⟨⟩) (by rintro ⟨⟩))

theorem sockCb_keeps (sid : Fin tcpClientMaxSockets) (es : List ClientEvent) (c : Client) :
    (es.foldl (sockCb sid) c).webSocketKey = c.webSocketKey := by
  induction es generalizing c with
  | nil => rfl
  | cons e es ih =>
    rw [List.foldl_cons, ih]
    cases e <;> rfl

/-- Without a connection the callback leaves the client alone or ends its work. -/
theorem sockCb_unconnected (sid : Fin tcpClientMaxSockets) {es : List ClientEvent} {c : Client}
    (h : .connected ∉ es) : es.foldl (sockCb sid) c = c ∨
      (es.foldl (sockCb sid) c).state = .close ∨ (es.foldl (sockCb sid) c).state = .error := by
  have hone : ∀ (c : Client) (e : ClientEvent), e ≠ .connected →
      sockCb sid c e = c ∨ (sockCb sid c e).state = .close ∨ (sockCb sid c e).state = .error := by
    intro c e he
    cases e with
    | connected => exact absurd rfl he
    | tx => exact .inl rfl
    | rx => exact .inl rfl
    | disconnected => exact .inr (.inl rfl)
    | _ => exact .inr (.inr rfl)
  induction es generalizing c with
  | nil => exact .inl rfl
  | cons e es ih =>
    rw [List.mem_cons, not_or] at h
    rw [List.foldl_cons]
    rcases ih (c := sockCb sid c e) h.2 with hs | hs
    · rw [hs]
      exact hone c e (Ne.symm h.1)
    · exact .inr hs

theorem handshakeInv_tcpTaskSlot (io : NetIo) (sid : Fin tcpClientMaxSockets)
    (hI : HandshakeInv w) : HandshakeInv (tcpTaskSlot io w sid) := by
  have hpass := task_passes io w.heap (w.slots sid)
  have hself : (tcpTaskSlot io w sid).slots sid = ((w.slots sid).task io w.heap).1 :=
    Function.update_self _ _ _
  have hother : ∀ i, i ≠ sid → (tcpTaskSlot io w sid).slots i = w.slots i := fun i hi =>
    Function.update_of_ne hi _ _
  -- the client, when the callback leaves it alone
  have hsame : (tcpTaskSlot io w sid).ws = w.ws →
      Phase (tcpTaskSlot io w sid) (tcpTaskSlot io w sid).ws.state := by
    intro hws
    rw [hws]
    refine phase_congr (by rw [hws]) (fun hset => ?_) hI.phase
    rw [World.socket, hws]
    by_cases hi : w.ws.curSocketId = sid
    · rw [hi, hself]
      rw [World.socket, hi] at hset ⊢
      exact task_settled io w.heap hset
    · rw [hother _ hi]
      exact ⟨hset, rfl, rfl⟩
  have hws : (tcpTaskSlot io w sid).ws = w.ws ∨ (tcpTaskSlot io w sid).ws =
      (((w.slots sid).task io w.heap).2.2).foldl (sockCb sid) w.ws := by
    show (if (w.slots sid).cb = some .ws then _ else w.ws) = w.ws ∨
      (if (w.slots sid).cb = some .ws then _ else w.ws) = _
    split
    · exact .inr rfl
    · exact .inl rfl
  refine ⟨fun i => ?_, ?_, ?_⟩
  · by_cases hi : i = sid
    · subst hi
      rw [hself]
      intro hop
      cases hpass with
      | keeps _ hrx harr hop' => rw [hrx, harr]; exact hI.opening i (hop' hop)
      | opens _ hrx harr => rw [hrx, harr]
      | connects _ hop' _ hrx harr => rw [hrx, harr]; exact hI.opening i hop'
    · rw [hother i hi]
      exact hI.opening i
  · rcases hws with hws | hws
    · rw [hws]
      exact hI.key
    · rw [hws, sockCb_keeps]
      exact hI.key
  · rcases hws with hws | hws
    · exact hsame hws
    have hidle : .connected ∉ ((w.slots sid).task io w.heap).2.2 →
        Phase (tcpTaskSlot io w sid) (tcpTaskSlot io w sid).ws.state := fun hes => by
      rcases sockCb_unconnected sid hes (c := w.ws) with hs | hs | hs
      · exact hsame (hws.trans hs)
      · rw [hws, hs]
        trivial
      · rw [hws, hs]
        trivial
    cases hpass with
    | keeps hes => exact hidle hes
    | opens hes => exact hidle hes
    | connects hes hop hst hrx harr =>
      have hconn : (tcpTaskSlot io w sid).ws =
          { w.ws with curSocketId := sid, state := .initHandshake } := by
        rw [hws, hes]
        rfl
      have hsock : (tcpTaskSlot io w sid).socket = ((w.slots sid).task io w.heap).1 := by
        rw [World.socket, hconn]
        exact hself
      rw [hconn]
      show (tcpTaskSlot io w sid).socket.Settled ∧
        (tcpTaskSlot io w sid).socket.rx = (tcpTaskSlot io w sid).socket.arrived
      rw [hsock]
      exact ⟨.inl hst, by rw [hrx, harr]; exact hI.opening sid hop⟩

theorem handshakeInv_tcpClientTask (io : Fin tcpClientMaxSockets → NetIo) (hI : HandshakeInv w) :
    HandshakeInv (tcpClientTask io w) := by
  have hfold : ∀ (sids : List (Fin tcpClientMaxSockets)) (w : World), HandshakeInv w →
      HandshakeInv (sids.foldl (fun w sid => tcpTaskSlot (io sid) w sid) w) := by
    intro sids
    induction sids with
    | nil => intro w h; exact h
    | cons sid sids ih => intro w h; exact ih _ (handshakeInv_tcpTaskSlot _ sid h)
  exact hfold _ w hI

/-! ### The client's task -/

theorem length_base64Encode : ∀ bs : Bytes, (base64Encode bs).length = 4 * ((bs.length + 2) / 3)
  | [] => rfl
  | [_] => by simp [base64Encode]
  | [_, _] => by simp [base64Encode]
  | _ :: _ :: _ :: r => by
    rw [base64Encode, List.length_cons, List.length_cons, List.length_cons, List.length_cons,
      length_base64Encode r, List.length_cons, List.length_cons, List.length_cons]
    omega

/-- A new key has 24 characters. -/
theorem key_drawKey (h : w.ws.webSocketKey.bytes.drop 24 = List.replicate 232 0) :
    w.drawKey.ws.webSocketKey.bytes.drop 24 = List.replicate 232 0 := by
  have hlen : (base64Encode ((List.range 4).flatMap fun i =>
      leBytes (w.rand (w.draws + i)))).length = 24 := by
    rw [length_base64Encode, List.length_flatMap]
    simp [leBytes]
  obtain ⟨b, hb⟩ := @Buf.store_isSome _ w.ws.webSocketKey 0 (base64Encode ((List.range 4).flatMap
    fun i => leBytes (w.rand (w.draws + i)))) (by rw [hlen]; decide)
  have hbytes := Buf.text_of_store_zero hb
  rw [hlen, h] at hbytes
  unfold World.drawKey
  dsimp only
  rw [hb, Option.getD_some, hbytes, List.drop_left' hlen]

theorem opening_closeSocket
    (h : ∀ i, (w.slots i).Opening → (w.slots i).rx = (w.slots i).arrived) :
    ∀ i, (w.closeSocket.slots i).Opening → (w.closeSocket.slots i).rx =
      (w.closeSocket.slots i).arrived := by
  intro i
  rcases closeSocket_cases w with hs | hs
  · rw [hs]
    exact h i
  · rw [hs]
    by_cases hi : i = w.ws.curSocketId
    · subst hi
      rw [Function.update_self]
      rintro (hop | hop) <;> cases hop
    · rw [Function.update_of_ne hi]
      exact h i

/-- The socket is closed, and the client no longer in a handshake. -/
theorem handshakeInv_closed {q : WsState} (hI : HandshakeInv w) (hq : ∀ w', Phase w' q) :
    HandshakeInv (w.closeSocket.setState q) :=
  ⟨opening_closeSocket hI.opening, hI.key, hq _⟩

theorem handshakeInv_initHandshake (url : UrlData) (hI : HandshakeInv w)
    (hst : w.ws.state = .initHandshake) : HandshakeInv (initHandshake w url) := by
  have hphase := hI.phase
  rw [hst] at hphase
  have hkey := key_drawKey hI.key
  unfold initHandshake
  dsimp only
  split
  · exact ⟨opening_closeSocket hI.opening, hkey, trivial⟩
  · generalize httpRequestAddGeneric _ _ (ascii "13") = r
    rename_i h _
    have hslots := aside_tcpClientSend h w.slots w.ws.curSocketId r.raw.bytes r.length
    have hop := @opening_congr w { w with
      slots := (tcpClientSend h w.slots w.ws.curSocketId r.raw.bytes r.length).2.2 } hslots
      hI.opening
    split
    · refine ⟨hop, hkey, ?_⟩
      obtain ⟨hs, hrx, harr⟩ := hslots w.ws.curSocketId
      refine ⟨?_, ?_, 0, by decide, Nat.zero_le _, rfl⟩
      · show ((tcpClientSend h w.slots w.ws.curSocketId r.raw.bytes r.length).2.2
          w.ws.curSocketId).Settled
        unfold Slot.Settled
        rw [hs]
        exact hphase.1
      · exact hrx.trans (hphase.2.trans harr.symm)
    · exact ⟨opening_closeSocket hop, hkey, trivial⟩

/-- How many bytes a look may get. -/
def World.peeks (w : World) (limit : Nat) : Nat :=
  if w.socket.state = .connectionStablished then min limit (wsReceiveBuffer - 1) else 0

theorem peeks_lt (w : World) (limit : Nat) : w.peeks limit < wsReceiveBuffer := by
  unfold World.peeks
  split
  · exact Nat.lt_of_le_of_lt (Nat.min_le_right _ _) (by decide)
  · decide

/-- What the task peeks at is the start of what arrived. -/
theorem peek_eq (h : w.socket.rx = w.socket.arrived) (limit : Nat) :
    tcpClientPeekRx w.slots w.ws.curSocketId limit (wsReceiveBuffer - 1) =
      w.socket.arrived.take (w.peeks limit) := by
  rw [← h]
  unfold tcpClientPeekRx World.peeks World.socket
  by_cases hst : (w.slots w.ws.curSocketId).state = .connectionStablished
  · rw [if_pos hst, if_pos hst]
  · rw [if_neg hst, if_neg hst]
    rfl

/-- Reading leaves the state of every socket, what arrived on it, and all of one being opened. -/
theorem getRx_keeps (limit request : Nat) :
    (∀ i, ((tcpClientGetRx w.slots w.ws.curSocketId limit request).2 i).state = (w.slots i).state ∧
      ((tcpClientGetRx w.slots w.ws.curSocketId limit request).2 i).arrived = (w.slots i).arrived ∧
      ((w.slots i).Opening →
        ((tcpClientGetRx w.slots w.ws.curSocketId limit request).2 i).rx = (w.slots i).rx)) ∧
    ∃ k ≤ request, (tcpClientGetRx w.slots w.ws.curSocketId limit request).1 =
      w.socket.rx.take k := by
  unfold tcpClientGetRx
  split
  · rename_i hst
    refine ⟨fun i => ?_, min limit request, Nat.min_le_right _ _, rfl⟩
    dsimp only
    by_cases hi : i = w.ws.curSocketId
    · subst hi
      rw [Function.update_self]
      refine ⟨rfl, rfl, ?_⟩
      rintro (hop | hop) <;> cases hst.symm.trans hop
    · rw [Function.update_of_ne hi]
      exact ⟨rfl, rfl, fun _ => rfl⟩
  · exact ⟨fun i => ⟨rfl, rfl, fun _ => rfl⟩, 0, Nat.zero_le _, List.take_zero.symm⟩

theorem opening_getRx (limit request : Nat)
    (h : ∀ i, (w.slots i).Opening → (w.slots i).rx = (w.slots i).arrived) (i) :
    ((tcpClientGetRx w.slots w.ws.curSocketId limit request).2 i).Opening →
      ((tcpClientGetRx w.slots w.ws.curSocketId limit request).2 i).rx =
        ((tcpClientGetRx w.slots w.ws.curSocketId limit request).2 i).arrived := by
  obtain ⟨hs, harr, hrx⟩ := (@getRx_keeps w limit request).1 i
  intro hop
  unfold Slot.Opening at hop
  rw [hs] at hop
  rw [hrx hop, harr]
  exact h i hop

theorem waitHandshakeResponse_none {io : WsIo} {bs : Bytes}
    (hbs : tcpClientPeekRx w.slots w.ws.curSocketId io.limit (wsReceiveBuffer - 1) = bs)
    (h : bs.length ≤ 4 ∨ headEnd? (w.ws.received bs).recvBuf.text = none) :
    waitHandshakeResponse io w = { w with ws := w.ws.received bs } := by
  subst hbs
  unfold waitHandshakeResponse
  dsimp only
  split
  · rename_i hlen
    rcases h with h | h
    · omega
    · rw [h]
  · rfl

theorem waitHandshakeResponse_some {io : WsIo} {bs : Bytes} {n : Nat}
    (hbs : tcpClientPeekRx w.slots w.ws.curSocketId io.limit (wsReceiveBuffer - 1) = bs)
    (hlen : 4 < bs.length) (hend : headEnd? (w.ws.received bs).recvBuf.text = some n) :
    waitHandshakeResponse io w = { w with
      slots := (tcpClientGetRx w.slots w.ws.curSocketId io.limit n).2
      ws := (w.ws.received bs).received
        (tcpClientGetRx w.slots w.ws.curSocketId io.limit n).1 }.setState
      .waitHandshakeResponseParse := by
  subst hbs
  unfold waitHandshakeResponse
  dsimp only
  rw [if_pos hlen, hend]
  rfl

/-- **One look for the answer**: the buffer takes what arrived, and with a whole head in it the
client goes on to judge it. -/
theorem waitHandshakeResponse_spec (io : WsIo) (hunread : w.socket.rx = w.socket.arrived)
    (hpeek : Peeked w) : ∃ w₁ bs, bs = w.socket.arrived.take (w.peeks io.limit) ∧
      w₁ = { w with ws := w.ws.received bs } ∧ Peeked w₁ ∧
      ((waitHandshakeResponse io w = w₁ ∧ (bs.length ≤ 4 ∨ headEnd? w₁.ws.recvBuf.text = none)) ∨
        ∃ n, 4 < bs.length ∧ headEnd? w₁.ws.recvBuf.text = some n ∧ waitHandshakeResponse io w =
          { w₁ with slots := (tcpClientGetRx w₁.slots w₁.ws.curSocketId io.limit n).2 }.setState
            .waitHandshakeResponseParse) := by
  have hbs := peek_eq hunread io.limit
  have hpeek₁ := peeked_received hpeek (peeks_lt w io.limit)
  generalize w.peeks io.limit = k at hbs hpeek₁ ⊢
  refine ⟨_, _, rfl, rfl, hpeek₁, ?_⟩
  by_cases hlen : 4 < (w.socket.arrived.take k).length
  · cases hend : headEnd? (w.ws.received (w.socket.arrived.take k)).recvBuf.text with
    | none => exact .inl ⟨waitHandshakeResponse_none hbs (.inr hend), .inr rfl⟩
    | some n =>
      refine .inr ⟨n, hlen, rfl, (waitHandshakeResponse_some hbs hlen hend).trans ?_⟩
      -- the bytes read are in the buffer already
      obtain ⟨-, j, hj, hget⟩ := @getRx_keeps w io.limit n
      obtain ⟨m, hm, hle, hbytes⟩ := hpeek₁
      have hn := (headEnd?_le hend).2
      have htext : (w.ws.received (w.socket.arrived.take k)).recvBuf.text.length ≤ m := by
        have htext := text_peeked hbytes
        dsimp only at htext
        rw [htext]
        refine (List.takeWhile_sublist _).length_le.trans ?_
        rw [List.length_take]
        exact Nat.min_le_left _ _
      have hsame : (w.ws.received (w.socket.arrived.take k)).received
          (tcpClientGetRx w.slots w.ws.curSocketId io.limit n).1 =
          w.ws.received (w.socket.arrived.take k) := by
        refine received_present ?_
        rw [hget, hunread, hbytes]
        refine List.IsPrefix.trans ?_ (List.prefix_append _ _)
        exact List.take_prefix_take_left (by omega)
      rw [hsame]
      rfl
  · exact .inl ⟨waitHandshakeResponse_none hbs (.inl (Nat.not_lt.mp hlen)),
      .inl (Nat.not_lt.mp hlen)⟩

theorem handshakeInv_waitHandshakeResponse (io : WsIo) (hI : HandshakeInv w)
    (hst : w.ws.state = .waitHandshakeResponse) :
    HandshakeInv (waitHandshakeResponse io w) := by
  have hphase := hI.phase
  rw [hst] at hphase
  obtain ⟨hset, hunread, hpeek⟩ := hphase
  obtain ⟨w₁, bs, -, rfl, hpeek₁, ⟨heq, -⟩ | ⟨n, -, hend, heq⟩⟩ :=
    waitHandshakeResponse_spec io hunread hpeek
  · rw [heq]
    refine ⟨hI.opening, hI.key, ?_⟩
    show Phase _ w.ws.state
    rw [hst]
    exact ⟨hset, hunread, hpeek₁⟩
  · rw [heq]
    generalize hw₁ : ({ w with ws := w.ws.received bs } : World) = w₁
      at hpeek₁ hend ⊢
    have hcur : w₁.ws.curSocketId = w.ws.curSocketId := by rw [← hw₁]; rfl
    have hslots : w₁.slots = w.slots := by rw [← hw₁]
    have hkey : w₁.ws.webSocketKey = w.ws.webSocketKey := by rw [← hw₁]; rfl
    obtain ⟨hkeep, -⟩ := @getRx_keeps w₁ io.limit n
    refine ⟨opening_getRx io.limit n (by rw [hslots]; exact hI.opening), ?_, ?_⟩
    · show w₁.ws.webSocketKey.bytes.drop 24 = _
      rw [hkey]
      exact hI.key
    · obtain ⟨hs, harr, -⟩ := hkeep w₁.ws.curSocketId
      obtain ⟨m, hm, hle, hbytes⟩ := hpeek₁
      refine ⟨?_, ⟨m, hm, ?_, ?_⟩, n, hend⟩
      · show ((tcpClientGetRx w₁.slots w₁.ws.curSocketId io.limit n).2 w₁.ws.curSocketId).Settled
        unfold Slot.Settled
        rw [hs, hslots, hcur]
        exact hset
      · exact hle.trans (Nat.le_of_eq (congrArg List.length harr.symm))
      · refine hbytes.trans ?_
        rw [World.socket, ← harr]
        rfl

theorem handshakeInv_established (io : WsIo) (hI : HandshakeInv w)
    (hst : w.ws.state = .connectionEstablished) : HandshakeInv (established io w) := by
  have hop := @opening_getRx w io.limit (wsReceiveBuffer - 1) hI.opening
  unfold established
  generalize tcpClientGetRx w.slots w.ws.curSocketId io.limit (wsReceiveBuffer - 1) = r at hop ⊢
  obtain ⟨bs, slots⟩ := r
  have hread : ∀ c : Client, c.webSocketKey = w.ws.webSocketKey → c.state = w.ws.state →
      HandshakeInv { w with slots := slots, ws := c } := by
    intro c hkey hstate
    refine ⟨hop, ?_, ?_⟩
    · show c.webSocketKey.bytes.drop 24 = _
      rw [hkey]
      exact hI.key
    · show Phase _ c.state
      rw [hstate, hst]
      trivial
  dsimp only
  split
  · exact (hread { w.ws.received bs with ts := io.now } rfl rfl).of_aside (aside_foldl_inData _ _)
  · split
    · exact (hread { w.ws.received bs with ts := io.now } rfl rfl).of_aside
        (aside_wsClientSend _ _)
    · exact hread (w.ws.received bs) rfl rfl

/-- Outside a handshake the phase asks nothing. -/
theorem HandshakeInv.of_client {q : WsState} (hI : HandshakeInv w) (hs : w'.slots = w.slots)
    (hkey : w'.ws.webSocketKey = w.ws.webSocketKey) (hst : w'.ws.state = q)
    (hq : ∀ w', Phase w' q) : HandshakeInv w' :=
  ⟨by rw [hs]; exact hI.opening, by rw [hkey]; exact hI.key, by rw [hst]; exact hq _⟩

theorem opening_openHost (host : Bytes) (port : UInt16) (tls : Bool) (cb : Owner)
    (h : ∀ i, (w.slots i).Opening → (w.slots i).rx = (w.slots i).arrived) :
    ∀ i, ((tcpClientOpenHost w.slots host port tls cb).2.1 i).Opening →
      ((tcpClientOpenHost w.slots host port tls cb).2.1 i).rx =
        ((tcpClientOpenHost w.slots host port tls cb).2.1 i).arrived := by
  have hset : ∀ (j) (s : Slot), s.state = .dnsResolveHostAddress →
      ∀ i, (Function.update w.slots j s i).Opening →
        (Function.update w.slots j s i).rx = (Function.update w.slots j s i).arrived := by
    intro j s hs i
    by_cases hi : i = j
    · subst hi
      rw [Function.update_self]
      rintro (hop | hop) <;> cases hs.symm.trans hop
    · rw [Function.update_of_ne hi]
      exact h i
  unfold tcpClientOpenHost
  cases firstIdle w.slots with
  | none => exact h
  | some j =>
    dsimp only
    split
    · exact hset j _ rfl
    · exact hset j _ rfl

theorem handshakeInv_wsClientTask (libs : Libs) (io : WsIo) (hI : HandshakeInv w) :
    HandshakeInv (wsClientTask libs io w) := by
  unfold wsClientTask
  split
  · exact hI.of_client rfl rfl rfl fun _ => trivial
  · exact hI
  · exact hI
  · exact hI
  · rename_i hst
    split
    · exact hI.of_client rfl rfl hst fun _ => trivial
    · rename_i url _
      have hmanage : (manageUrl w.ws url).webSocketKey = w.ws.webSocketKey ∧
          ((manageUrl w.ws url).state = .openConnection ∨
            (manageUrl w.ws url).state = .halt) := by
        unfold manageUrl
        dsimp only
        split
        · exact ⟨rfl, .inl rfl⟩
        · split
          · exact ⟨rfl, .inl rfl⟩
          · exact ⟨rfl, .inr rfl⟩
      obtain ⟨hkey, hq | hq⟩ := hmanage
      · exact hI.of_client rfl hkey hq fun _ => trivial
      · exact hI.of_client rfl hkey hq fun _ => trivial
  · rename_i hst
    split
    · exact hI.of_client rfl rfl hst fun _ => trivial
    · rename_i url _
      have hop := opening_openHost url.host w.ws.nPort w.ws.flags.clientIsSsl .ws hI.opening
      generalize tcpClientOpenHost w.slots url.host w.ws.nPort w.ws.flags.clientIsSsl .ws = r at hop ⊢
      obtain ⟨res, slots, bad⟩ := r
      cases res with
      | success => exact ⟨hop, hI.key, trivial⟩
      | _ => exact ⟨hop, hI.key, trivial⟩
  · rename_i hst
    split
    · refine ⟨hI.opening, hI.key, ?_⟩
      exact hI.phase
    · exact handshakeInv_initHandshake _ hI hst
  · rename_i hst
    exact handshakeInv_waitHandshakeResponse io hI hst
  · unfold parseHandshakeResponse
    dsimp only
    split
    · exact hI.of_client rfl rfl rfl fun _ => trivial
    · exact ⟨opening_closeSocket hI.opening, hI.key, trivial⟩
  · rename_i hst
    exact handshakeInv_established io hI hst
  · exact handshakeInv_closed hI fun _ => trivial
  · dsimp only
    split
    · exact hI.of_client rfl rfl rfl fun _ => trivial
    · exact hI.of_client rfl rfl rfl fun _ => trivial
  · rename_i hst
    split
    · exact hI.of_client rfl rfl rfl fun _ => trivial
    · exact hI
  · exact hI.of_client rfl rfl rfl fun _ => trivial

/-! ### The events -/

theorem handshakeInv_receive (sid : Fin tcpClientMaxSockets) (bs : Bytes) (hI : HandshakeInv w) :
    HandshakeInv { w with slots := Function.update w.slots sid ((w.slots sid).receive bs) } := by
  have hslot : ∀ i, ∃ b, Function.update w.slots sid ((w.slots sid).receive bs) i =
      (w.slots i).receive b := by
    intro i
    by_cases hi : i = sid
    · subst hi
      exact ⟨bs, Function.update_self _ _ _⟩
    · rw [Function.update_of_ne hi]
      refine ⟨[], ?_⟩
      unfold Slot.receive
      rw [List.append_nil, List.append_nil]
  refine ⟨fun i => ?_, hI.key, ?_⟩
  · obtain ⟨b, hb⟩ := hslot i
    show (Function.update w.slots sid _ i).Opening → (Function.update w.slots sid _ i).rx =
      (Function.update w.slots sid _ i).arrived
    rw [hb]
    intro hop
    exact congrArg (· ++ b) (hI.opening i hop)
  · obtain ⟨b, hb⟩ := hslot w.ws.curSocketId
    have hpeeked : Peeked w → Peeked { w with
        slots := Function.update w.slots sid ((w.slots sid).receive bs) } := by
      rintro ⟨m, hm, hle, hbytes⟩
      refine ⟨m, hm, ?_, ?_⟩
      · show m ≤ (Function.update w.slots sid _ w.ws.curSocketId).arrived.length
        rw [hb]
        exact hle.trans (List.length_append.symm ▸ Nat.le_add_right _ _)
      · show w.ws.recvBuf.bytes =
          (Function.update w.slots sid _ w.ws.curSocketId).arrived.take m ++ _
        rw [hb, hbytes]
        exact congrArg (· ++ _) (List.take_append_of_le_length hle).symm
    have hset : w.socket.Settled → (Function.update w.slots sid ((w.slots sid).receive bs)
        w.ws.curSocketId).Settled := by
      rw [hb]
      exact id
    have hrx : w.socket.rx = w.socket.arrived → (Function.update w.slots sid
        ((w.slots sid).receive bs) w.ws.curSocketId).rx = (Function.update w.slots sid
        ((w.slots sid).receive bs) w.ws.curSocketId).arrived := by
      rw [hb]
      exact congrArg (· ++ b)
    have hphase := hI.phase
    show Phase _ w.ws.state
    revert hphase
    cases w.ws.state with
    | initHandshake => exact fun h => ⟨hset h.1, hrx h.2⟩
    | waitHandshakeResponse => exact fun h => ⟨hset h.1, hrx h.2.1, hpeeked h.2.2⟩
    | waitHandshakeResponseParse => exact fun h => ⟨hset h.1, hpeeked h.2.1, h.2.2⟩
    | _ => exact fun _ => trivial

theorem handshakeInv_wsClientClose (hI : HandshakeInv w) : HandshakeInv (wsClientClose w) := by
  refine ⟨opening_closeSocket hI.opening, hI.key, ?_⟩
  show Phase (wsClientClose w) w.ws.state
  refine @phase_congr w (wsClientClose w) rfl (fun hset => ?_) _ hI.phase
  show (w.closeSocket.slots w.ws.curSocketId).Settled ∧
    (w.closeSocket.slots w.ws.curSocketId).rx = w.socket.rx ∧
    (w.closeSocket.slots w.ws.curSocketId).arrived = w.socket.arrived
  rcases closeSocket_cases w with hs | hs
  · rw [hs]
    exact ⟨hset, rfl, rfl⟩
  · rw [hs, Function.update_self]
    exact ⟨by unfold Slot.Settled; simp, rfl, rfl⟩

theorem handshakeInv_of_step {libs : Libs} {e : Event} (hI : HandshakeInv w)
    (hs : step libs w e = some w') : HandshakeInv w' := by
  cases e with
  | tcpTask io =>
    obtain rfl := Option.some.inj hs
    exact handshakeInv_tcpClientTask io hI
  | wsTask io =>
    obtain rfl := Option.some.inj hs
    exact handshakeInv_wsClientTask libs io hI
  | receive sid bs =>
    obtain rfl := Option.some.inj hs
    exact handshakeInv_receive sid bs hI
  | wsOpen url cbs =>
    obtain rfl := Option.some.inj hs
    unfold wsClientOpen
    split
    · rename_i hst
      split
      · exact hI.of_client rfl rfl hst fun _ => trivial
      · exact hI.of_client rfl rfl rfl fun _ => trivial
    · exact hI
  | wsSend s =>
    obtain rfl := Option.some.inj hs
    exact hI.of_aside (aside_wsClientSend w s)
  | wsSetPing strPing pingInterval =>
    obtain rfl := Option.some.inj hs
    exact hI.of_aside (.of_same rfl rfl rfl rfl rfl)
  | wsClose =>
    obtain rfl := Option.some.inj hs
    exact handshakeInv_wsClientClose hI

theorem handshakeInv_worldInit (grants : Nat → Bool) (rand : Nat → UInt32) :
    HandshakeInv (worldInit grants rand) := by
  refine ⟨fun i => ?_, ?_, trivial⟩
  · rintro (hop | hop) <;> cases hop
  · show (Buf.clear : Buf 256).bytes.drop 24 = _
    decide +kernel

end Invariant

end Rastreo.Net
