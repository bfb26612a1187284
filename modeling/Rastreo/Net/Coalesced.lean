import Rastreo.Net.AfterClose

/-!
# The head of the answer, and what comes behind it

While the answer is waited for `tcp_client_peek_rx` leaves all of it on the socket. Then
`tcp_client_get_rx` takes the head off, and on the connection all that is behind it goes to
`in_data`, whether it came with the head or later.

* `givenAfter`: what was given to `in_data` on the current connection.
* `Divides`: a step takes the head off the socket, and gives all behind it to `in_data`.
* **`divides_run`**: so does every step of every run. The client does not look for a head in four
  bytes, so that a blank line alone stays on the socket (`not_divides`).
-/

namespace Rastreo.Net

open Rastreo.Lib

/-! ## What is given to `in_data` -/

/-- The loop of `WS_STATE_CONNECTION_ESTABLISHED`, with what was given to `in_data`. -/
def feed (w : World) (given : Bytes) : Bytes → World × Bytes
  | [] => (w, given)
  | c :: bs => feed (inData w c).1 (given ++ [c]) bs

/-- What was given to `in_data` on the current connection, after an event. -/
def givenAfter (w : World) (e : Event) (given : Bytes) : Bytes :=
  if reconnects w e then []
  else
    match reads w e with
    | some (v, bs) => (feed v given bs).2
    | none => given

/-- What arrived is the head, what was given to `in_data` and what the socket holds. -/
def Divided (s : Slot) (given : Bytes) : Prop :=
  ∃ n, headEnd? s.arrived = some n ∧ s.arrived = s.arrived.take n ++ given ++ s.rx

/-- **The head is taken off the socket** and nothing else, and all behind it is given to `in_data`,
once and in order. -/
structure Divides (libs : Libs) (p : World × Bytes) (e : Event) : Prop where
  unread : p.1.ws.state = .initHandshake ∨ p.1.ws.state = .waitHandshakeResponse →
    p.1.socket.rx = p.1.socket.arrived
  removed : p.1.ws.state = .waitHandshakeResponseParse → Divided p.1.socket []
  passed : p.1.ws.state = .connectionEstablished → Divided p.1.socket p.2
  /-- A look that gets all of the head finds it. -/
  found : ∀ io n, e = .wsTask io → p.1.ws.state = .waitHandshakeResponse →
    p.1.socket.state = .connectionStablished → headEnd? p.1.socket.arrived = some n →
    n < wsReceiveBuffer → 0 ∉ p.1.socket.arrived.take n → n ≤ io.limit → 4 < io.limit →
    4 < p.1.socket.arrived.length →
    ∃ w', step libs p.1 e = some w' ∧ w'.ws.state = .waitHandshakeResponseParse
  /-- A pass on the connection gives all it gets to `in_data`. -/
  fed : ∀ io, e = .wsTask io → p.1.ws.state = .connectionEstablished →
    p.1.socket.state = .connectionStablished →
    givenAfter p.1 e p.2 = p.2 ++ p.1.socket.rx.take (min io.limit (wsReceiveBuffer - 1))
  looped : ∀ v bs, reads p.1 e = some (v, bs) → bs ≠ [] →
    step libs p.1 e = some (feed v p.2 bs).1

section Feed

theorem feed_eq (w : World) (given bs : Bytes) :
    feed w given bs = (bs.foldl (fun w c => (inData w c).1) w, given ++ bs) := by
  induction bs generalizing w given with
  | nil => rw [feed, List.append_nil, List.foldl_nil]
  | cons c bs ih => rw [feed, ih, List.append_assoc, List.foldl_cons, List.singleton_append]

theorem reads_eq_some {w v : World} {e : Event} {bs : Bytes} (h : reads w e = some (v, bs)) :
    ∃ io, e = .wsTask io ∧ w.ws.state = .connectionEstablished ∧ w.read io = (bs, v) := by
  unfold reads at h
  split at h
  · rename_i io
    split at h
    · rename_i hst
      obtain ⟨rfl, rfl⟩ := Prod.mk.inj (Option.some.inj h)
      exact ⟨io, rfl, hst, rfl⟩
    · cases h
  · cases h

theorem givenAfter_wsTask (w : World) (io : WsIo) (given : Bytes) :
    givenAfter w (.wsTask io) given =
      if w.ws.state = .connectionEstablished then given ++ (w.read io).1 else given := by
  unfold givenAfter reads
  rw [if_neg (by rintro ⟨⟩)]
  dsimp only
  by_cases hst : w.ws.state = .connectionEstablished
  · rw [if_pos hst, if_pos hst]
    dsimp only
    rw [feed_eq]
  · rw [if_neg hst, if_neg hst]

end Feed

/-! ## Where the stream stands -/

/-- What was given so far, by the state. In the buffer is no head the client did not look at. -/
def Stand (w : World) (given : Bytes) : WsState → Prop
  | .initHandshake => given = []
  | .waitHandshakeResponse =>
    given = [] ∧ ∀ n ∈ headEnd? w.ws.recvBuf.text, w.ws.recvBuf.text.length ≤ 4
  | .waitHandshakeResponseParse => given = [] ∧ w.socket.Settled ∧ Divided w.socket given
  | .connectionEstablished => w.socket.Settled ∧ Divided w.socket given
  | _ => True

section Stand

variable {w w' : World} {given : Bytes} {s s' : Slot}

/-- More arrives. -/
theorem Divided.arrives {b : Bytes} (h : Divided s given) (hrx : s'.rx = s.rx ++ b)
    (harr : s'.arrived = s.arrived ++ b) : Divided s' given := by
  obtain ⟨n, hend, heq⟩ := h
  refine ⟨n, ?_, ?_⟩
  · rw [harr]
    exact headEnd?_longer (List.prefix_append _ _) hend
  · rw [hrx, harr, List.take_append_of_le_length (headEnd?_le hend).2, ← List.append_assoc, ← heq]

/-- Some of what the socket holds is given to `in_data`. -/
theorem Divided.gives {bs : Bytes} (h : Divided s given) (hrx : s.rx = bs ++ s'.rx)
    (harr : s'.arrived = s.arrived) : Divided s' (given ++ bs) := by
  obtain ⟨n, hend, heq⟩ := h
  refine ⟨n, by rw [harr]; exact hend, ?_⟩
  rw [harr, ← List.append_assoc, List.append_assoc, ← hrx]
  exact heq

/-- The client stays, and more arrives on its socket. -/
theorem stand_kept {b : Bytes} (hbuf : w'.ws.recvBuf = w.ws.recvBuf)
    (hs : w.socket.Settled → w'.socket.Settled ∧ w'.socket.rx = w.socket.rx ++ b ∧
      w'.socket.arrived = w.socket.arrived ++ b) {q : WsState} (h : Stand w given q) :
    Stand w' given q := by
  cases q with
  | initHandshake => exact h
  | waitHandshakeResponse => exact ⟨h.1, by rw [hbuf]; exact h.2⟩
  | waitHandshakeResponseParse =>
    obtain ⟨hnil, hset, hdiv⟩ := h
    obtain ⟨hset', hrx, harr⟩ := hs hset
    exact ⟨hnil, hset', hdiv.arrives hrx harr⟩
  | connectionEstablished =>
    obtain ⟨hset, hdiv⟩ := h
    obtain ⟨hset', hrx, harr⟩ := hs hset
    exact ⟨hset', hdiv.arrives hrx harr⟩
  | _ => trivial

theorem Aside.stand (ha : Aside w w') (h : Stand w given w.ws.state) :
    Stand w' given w'.ws.state := by
  rcases ha.state with hst | hst
  · obtain ⟨hs, hrx, harr⟩ := ha.slots w.ws.curSocketId
    rw [hst]
    refine @stand_kept w w' given [] ha.recvBuf (fun hset => ?_) _ h
    rw [List.append_nil, List.append_nil]
    unfold World.socket Slot.Settled
    rw [ha.curSocketId, hs]
    exact ⟨hset, hrx, harr⟩
  · rw [hst]
    trivial

/-! ### The answer -/

/-- After a look the buffer is as before, or it holds the text that was there to see. -/
theorem text_received (hpeek : Peeked w) {k : Nat} (hk : k < wsReceiveBuffer) :
    (w.ws.received (w.socket.arrived.take k)).recvBuf.text = w.ws.recvBuf.text ∨
      (w.ws.received (w.socket.arrived.take k)).recvBuf.text = cstr (w.socket.arrived.take k) := by
  obtain ⟨m, hm, hle, hbytes⟩ := hpeek
  by_cases hkm : k ≤ m
  · refine .inl (congrArg (fun c : Client => c.recvBuf.text) (received_present ?_))
    rw [hbytes]
    exact (List.take_prefix_take_left hkm).trans (List.prefix_append _ _)
  · right
    obtain ⟨b, hb⟩ := @Buf.store_isSome _ w.ws.recvBuf 0 (w.socket.arrived.take k)
      (by rw [List.length_take, Nat.zero_add]; exact (Nat.min_le_left _ _).trans hk.le)
    have hbuf : (w.ws.received (w.socket.arrived.take k)).recvBuf = b := by
      unfold Client.received
      rw [hb]
      rfl
    by_cases hall : m < w.socket.arrived.length
    · have hlen : m ≤ (w.socket.arrived.take k).length := by
        rw [List.length_take]
        omega
      have htake : (w.socket.arrived.take m).length = m := by
        rw [List.length_take]
        omega
      rw [hbuf, Buf.text, Buf.text_of_store_zero hb, hbytes, List.drop_append,
        List.drop_eq_nil_of_le (by rw [htake]; exact hlen), List.nil_append, List.drop_replicate,
        Buf.cstr_append_replicate]
    · have hsame : w.socket.arrived.take k = w.socket.arrived.take m := by
        rw [List.take_of_length_le (by omega), List.take_of_length_le (by omega)]
      rw [hsame, received_present (by rw [hbytes]; exact List.prefix_append _ _),
        text_peeked hbytes]

theorem stand_waitHandshakeResponse (io : WsIo) (hI : HandshakeInv w)
    (hst : w.ws.state = .waitHandshakeResponse) (h : Stand w given w.ws.state) :
    Stand (waitHandshakeResponse io w) given (waitHandshakeResponse io w).ws.state := by
  have hphase := hI.phase
  rw [hst] at hphase h
  obtain ⟨hset, hunread, hpeek⟩ := hphase
  obtain ⟨hnil, hseen⟩ := h
  have htext := text_received hpeek (peeks_lt w io.limit)
  obtain ⟨w₁, bs, hbs, rfl, hpeek₁, hcases⟩ := waitHandshakeResponse_spec io hunread hpeek
  rw [← hbs] at htext
  -- a head that was there before is not longer than four bytes
  have hlong : ∀ n ∈ headEnd? (w.ws.received bs).recvBuf.text,
      (w.ws.received bs).recvBuf.text.length ≤ max 4 bs.length := by
    intro n hn
    rcases htext with htext | htext
    · rw [htext] at hn ⊢
      exact (hseen n hn).trans (Nat.le_max_left _ _)
    · rw [htext]
      exact (List.takeWhile_sublist _).length_le.trans (Nat.le_max_right _ _)
  rcases hcases with ⟨heq, hnone⟩ | ⟨n, hfour, hend, heq⟩
  · rw [heq]
    show Stand _ given w.ws.state
    rw [hst]
    refine ⟨hnil, fun n hn => ?_⟩
    rcases hnone with hshort | hnone
    · exact (hlong n hn).trans (by omega)
    · cases hn.symm.trans hnone
  · have hn : n ≤ bs.length := by
      have hle := (headEnd?_le hend).2.trans (hlong n hend)
      omega
    have hpeeks : bs.length ≤ w.peeks io.limit := by
      rw [hbs]
      exact List.length_take_le _ _
    have hsock : w.socket.state = .connectionStablished := by
      by_contra hnot
      rw [World.peeks, if_neg hnot] at hpeeks
      omega
    have hlimit : n ≤ io.limit := by
      rw [World.peeks, if_pos hsock] at hpeeks
      omega
    rw [heq]
    have harr := headEnd?_longer (text_arrived hpeek₁) hend
    have hget : tcpClientGetRx w.slots w.ws.curSocketId io.limit n =
        (w.socket.rx.take n, Function.update w.slots w.ws.curSocketId
          { w.socket with rx := w.socket.rx.drop n }) := by
      unfold tcpClientGetRx
      rw [if_pos (show (w.slots w.ws.curSocketId).state = _ from hsock), Nat.min_eq_right hlimit]
      rfl
    refine ⟨hnil, ?_⟩
    show ((tcpClientGetRx w.slots w.ws.curSocketId io.limit n).2 w.ws.curSocketId).Settled ∧
      Divided ((tcpClientGetRx w.slots w.ws.curSocketId io.limit n).2 w.ws.curSocketId) given
    rw [hget]
    dsimp only
    rw [Function.update_self, hnil]
    refine ⟨hset, n, harr, ?_⟩
    rw [List.append_nil, hunread]
    exact (List.take_append_drop n _).symm

/-! ### The connection -/

theorem read_settled (io : WsIo) (hset : w.socket.Settled) : (w.read io).2.socket.Settled ∧
    w.socket.rx = (w.read io).1 ++ (w.read io).2.socket.rx ∧
    (w.read io).2.socket.arrived = w.socket.arrived := by
  show ((tcpClientGetRx w.slots w.ws.curSocketId io.limit (wsReceiveBuffer - 1)).2
      w.ws.curSocketId).Settled ∧
    w.socket.rx = (tcpClientGetRx w.slots w.ws.curSocketId io.limit (wsReceiveBuffer - 1)).1 ++
      ((tcpClientGetRx w.slots w.ws.curSocketId io.limit (wsReceiveBuffer - 1)).2
        w.ws.curSocketId).rx ∧
    ((tcpClientGetRx w.slots w.ws.curSocketId io.limit (wsReceiveBuffer - 1)).2
      w.ws.curSocketId).arrived = w.socket.arrived
  unfold tcpClientGetRx
  split
  · dsimp only
    rw [Function.update_self]
    exact ⟨hset, (List.take_append_drop _ _).symm, rfl⟩
  · exact ⟨hset, rfl, rfl⟩

/-- What the pass does behind its read. -/
theorem aside_established (io : WsIo) (w : World) : Aside (w.read io).2 (established io w) := by
  by_cases hne : (w.read io).1 = []
  · rw [established_idle hne]
    split
    · exact aside_wsClientSend _ _
    · refine .of_same rfl ?_ rfl rfl rfl
      show (w.ws.received []).recvBuf = (w.ws.received (w.read io).1).recvBuf
      rw [hne]
  · rw [established_read hne]
    exact aside_foldl_inData _ _

theorem stand_established (io : WsIo) (hst : w.ws.state = .connectionEstablished)
    (h : Stand w given w.ws.state) :
    Stand (established io w) (given ++ (w.read io).1) (established io w).ws.state := by
  rw [hst] at h
  obtain ⟨hset, hrx, harr⟩ := read_settled io h.1
  refine (aside_established io w).stand ?_
  show Stand _ _ w.ws.state
  rw [hst]
  exact ⟨hset, h.2.gives hrx harr⟩

end Stand

/-! ## The run -/

/-- **The invariant.** -/
structure StandInv (p : World × Bytes) : Prop where
  handshake : HandshakeInv p.1
  stand : Stand p.1 p.2 p.1.ws.state

section Run

variable {w w' : World} {given : Bytes} {libs : Libs}

theorem stand_tcpClientTask (io : Fin tcpClientMaxSockets → NetIo)
    (h : Stand w given w.ws.state) : Stand (tcpClientTask io w)
      (givenAfter w (.tcpTask io) given) (tcpClientTask io w).ws.state := by
  cases hconn : connects io w with
  | true =>
    have hgiven : givenAfter w (.tcpTask io) given = [] := if_pos hconn
    rw [hgiven]
    by_cases hrep : (tcpClientTask io w).ws.state.Reported
    · rcases hrep with hst | hst | hst
      · rw [hst]
        exact rfl
      · rw [hst]
        trivial
      · rw [hst]
        trivial
    · obtain ⟨i, -, hi⟩ := List.any_eq_true.mp hconn
      rcases (tcpClientTask_traffic hrep).2 i _ (of_decide_eq_true hi) with h | h <;> cases h
  | false =>
    have hgiven : givenAfter w (.tcpTask io) given = given := if_neg (by
      show ¬ connects io w = true
      rw [hconn]
      rintro ⟨⟩)
    rw [hgiven]
    rcases tcpClientTask_unconnected hconn with hws | hst | hst
    · rw [hws]
      refine @stand_kept w _ given [] (by rw [hws]) (fun hset => ?_) _ h
      have hslot : (tcpClientTask io w).socket = (w.passed io w.ws.curSocketId).1 := by
        unfold World.socket
        rw [hws]
        exact slots_tcpClientTask w.ws.curSocketId
      rw [hslot, List.append_nil, List.append_nil]
      exact task_settled (io w.ws.curSocketId) w.heap hset
    · rw [hst]
      trivial
    · rw [hst]
      trivial

theorem stand_initHandshake (url : UrlData) (hst : w.ws.state = .initHandshake)
    (h : Stand w given w.ws.state) :
    Stand (initHandshake w url) given (initHandshake w url).ws.state := by
  rw [hst] at h
  unfold initHandshake
  dsimp only
  split
  · trivial
  · split
    · refine ⟨h, fun n hn => ?_⟩
      show (Buf.clear : Buf wsReceiveBuffer).text.length ≤ 4
      rw [Buf.text_clear]
      exact Nat.zero_le 4
    · trivial

theorem stand_wsClientTask (io : WsIo) (hI : StandInv (w, given)) :
    Stand (wsClientTask libs io w) (givenAfter w (.wsTask io) given)
      (wsClientTask libs io w).ws.state := by
  obtain ⟨hH, h⟩ := hI
  dsimp only at hH h
  rw [givenAfter_wsTask]
  by_cases hest : w.ws.state = .connectionEstablished
  · rw [if_pos hest]
    have htask : wsClientTask libs io w = established io w :=
      wsClientTask_of_established hest
    rw [htask]
    exact stand_established io hest h
  rw [if_neg hest]
  unfold wsClientTask
  split
  · trivial
  · exact h
  · exact h
  · exact h
  · rename_i hst
    split
    · exact h
    · unfold manageUrl
      dsimp only
      split
      · trivial
      · split <;> trivial
  · split
    · exact h
    · split <;> trivial
  · rename_i hst
    split
    · exact h
    · exact stand_initHandshake _ hst h
  · rename_i hst
    exact stand_waitHandshakeResponse io hH hst h
  · rename_i hst
    rw [hst] at h
    unfold parseHandshakeResponse
    dsimp only
    split
    · exact h.2
    · trivial
  · rename_i hst
    exact absurd hst hest
  · trivial
  · dsimp only
    split <;> trivial
  · split
    · trivial
    · exact h
  · trivial

theorem stand_receive (sid : Fin tcpClientMaxSockets) (bs : Bytes) {q : WsState}
    (h : Stand w given q) : Stand { w with
      slots := Function.update w.slots sid ((w.slots sid).receive bs) } given q := by
  have hslot : ∃ b, Function.update w.slots sid ((w.slots sid).receive bs) w.ws.curSocketId =
      w.socket.receive b := by
    by_cases hi : w.ws.curSocketId = sid
    · refine ⟨bs, ?_⟩
      rw [World.socket, hi, Function.update_self]
    · refine ⟨[], ?_⟩
      rw [Function.update_of_ne hi, Slot.receive, List.append_nil, List.append_nil]
      rfl
  obtain ⟨b, hb⟩ := hslot
  refine @stand_kept w { w with
    slots := Function.update w.slots sid ((w.slots sid).receive bs) } given b rfl (fun hset => ?_) q h
  show (Function.update w.slots sid ((w.slots sid).receive bs) w.ws.curSocketId).Settled ∧
    (Function.update w.slots sid ((w.slots sid).receive bs) w.ws.curSocketId).rx = _ ∧
    (Function.update w.slots sid ((w.slots sid).receive bs) w.ws.curSocketId).arrived = _
  rw [hb]
  exact ⟨hset, rfl, rfl⟩

theorem stand_wsClientClose {q : WsState} (h : Stand w given q) :
    Stand (wsClientClose w) given q := by
  refine @stand_kept w (wsClientClose w) given [] rfl (fun hset => ?_) q h
  show (w.closeSocket.slots w.ws.curSocketId).Settled ∧
    (w.closeSocket.slots w.ws.curSocketId).rx = w.socket.rx ++ [] ∧
    (w.closeSocket.slots w.ws.curSocketId).arrived = w.socket.arrived ++ []
  rw [List.append_nil, List.append_nil]
  rcases closeSocket_cases w with hs | hs
  · rw [hs]
    exact ⟨hset, rfl, rfl⟩
  · rw [hs, Function.update_self]
    exact ⟨.inr (.inl rfl), rfl, rfl⟩

/-- **One event** keeps it. -/
theorem standInv_of_step {e : Event} (hI : StandInv (w, given)) (hs : step libs w e = some w') :
    StandInv (w', givenAfter w e given) := by
  refine ⟨handshakeInv_of_step hI.handshake hs, ?_⟩
  have h := hI.stand
  dsimp only at h ⊢
  cases e with
  | tcpTask io =>
    obtain rfl := Option.some.inj hs
    exact stand_tcpClientTask io h
  | wsTask io =>
    obtain rfl := Option.some.inj hs
    exact stand_wsClientTask io hI
  | receive sid bs =>
    obtain rfl := Option.some.inj hs
    exact stand_receive sid bs h
  | wsOpen url cbs =>
    obtain rfl := Option.some.inj hs
    show Stand (wsClientOpen w url cbs).2 given (wsClientOpen w url cbs).2.ws.state
    unfold wsClientOpen
    split
    · rename_i hst
      split
      · dsimp only
        rw [hst]
        trivial
      · trivial
    · exact h
  | wsSend s =>
    obtain rfl := Option.some.inj hs
    exact (aside_wsClientSend w s).stand h
  | wsSetPing strPing pingInterval =>
    obtain rfl := Option.some.inj hs
    exact @Aside.stand w (wsClientSetPing w strPing pingInterval) given
      (.of_same rfl rfl rfl rfl rfl) h
  | wsClose =>
    obtain rfl := Option.some.inj hs
    exact stand_wsClientClose h

theorem divides_of_inv {e : Event} (hI : StandInv (w, given)) : Divides libs (w, given) e := by
  obtain ⟨hH, hstand⟩ := hI
  dsimp only at hH hstand
  have hphase := hH.phase
  refine ⟨?_, fun hst => ?_, fun hst => ?_, ?_, ?_, ?_⟩
  · rintro (hst | hst)
    · rw [show w.ws.state = _ from hst] at hphase
      exact hphase.2
    · rw [show w.ws.state = _ from hst] at hphase
      exact hphase.2.1
  · rw [show w.ws.state = _ from hst] at hstand
    obtain ⟨hnil, -, hdiv⟩ := hstand
    rwa [hnil] at hdiv
  · rw [show w.ws.state = _ from hst] at hstand
    exact hstand.2
  · rintro io n rfl hst hsock hend hn hnul hlimit hfour hmore
    refine ⟨_, rfl, ?_⟩
    have htask : wsClientTask libs io w = waitHandshakeResponse io w :=
      wsClientTask_of_waiting hst
    rw [htask]
    exact found_of_head hH hst hsock hend hn hnul hlimit hfour hmore
  · rintro io rfl hst hsock
    have hread : (w.read io).1 = w.socket.rx.take (min io.limit (wsReceiveBuffer - 1)) := by
      unfold World.read tcpClientGetRx
      rw [if_pos (show (w.slots w.ws.curSocketId).state = _ from hsock)]
      rfl
    rw [givenAfter_wsTask, if_pos hst, hread]
  · intro v bs hreads hne
    obtain ⟨io, rfl, hst, hread⟩ := reads_eq_some hreads
    have htask : wsClientTask libs io w = established io w :=
      wsClientTask_of_established hst
    have hne' : (w.read io).1 ≠ [] := by
      rw [show w.read io = _ from hread]
      exact hne
    show some (wsClientTask libs io w) = _
    rw [htask, established_read hne', feed_eq, show w.read io = _ from hread]

end Run

/-- **In every run** the handshake takes exactly the head off the socket, and all that comes behind
it is given to `in_data`. -/
theorem divides_run (libs : Libs) (grants : Nat → Bool) (rand : Nat → UInt32) (es : List Event) :
    Along (watch (step libs) givenAfter) (Divides libs) (worldInit grants rand, []) es := by
  refine @along_of_inv _ _ _ (fun _ _ => True) _ StandInv (fun p e q hI _ hs => ?_)
    (fun p e hI _ => divides_of_inv hI) _ _ ⟨handshakeInv_worldInit grants rand, trivial⟩ along_true
  obtain ⟨hs, hg⟩ := watch_eq_some.mp hs
  have hI' := standInv_of_step hI hs
  rwa [← hg] at hI'

/-! ## A blank line alone -/

/-- The look that gets all there is. -/
def fullLook : Event := .wsTask ⟨0, 2047, []⟩

/-- The connection is there, and a blank line arrives. -/
def blankLine : List Event :=
  let pass : Event := .tcpTask fun _ => readyIo
  [fullLook, .wsOpen (some ⟨ascii "ws", ascii "10.0.0.1", none, none⟩) ⟨false, false, false, false⟩,
    fullLook, fullLook, pass, pass, pass, fullLook, .receive 0 [13, 10, 13, 10]]

/-- Four bytes are never looked at. -/
theorem waits_of_short {libs : Libs} {w : World} (hst : w.ws.state = .waitHandshakeResponse)
    (hshort : w.socket.rx.length ≤ 4) (k : Nat) :
    ∃ w', run (step libs) w (List.replicate k fullLook) = some w' ∧
      w'.ws.state = .waitHandshakeResponse := by
  induction k generalizing w with
  | zero => exact ⟨w, rfl, hst⟩
  | succ k ih =>
    have hpeek : (tcpClientPeekRx w.slots w.ws.curSocketId 2047 (wsReceiveBuffer - 1)).length ≤ 4 := by
      unfold tcpClientPeekRx
      split
      · exact (List.length_take_le' _ _).trans hshort
      · exact Nat.zero_le _
    have hlook := @waitHandshakeResponse_none w ⟨0, 2047, []⟩ _ rfl (.inl hpeek)
    have htask : step libs w fullLook = some (waitHandshakeResponse ⟨0, 2047, []⟩ w) := by
      show some (wsClientTask libs _ w) = _
      rw [wsClientTask_of_waiting hst]
    obtain ⟨w', hr, hw'⟩ := @ih (waitHandshakeResponse ⟨0, 2047, []⟩ w)
      (by rw [hlook]; exact hst) (by rw [hlook]; exact hshort)
    exact ⟨w', run_cons.mpr ⟨_, htask, hr⟩, hw'⟩

/-- The stream is a blank line: however often the client looks, nothing is taken. -/
theorem not_divides : ¬ ∀ (es : List Event) (w : World) (n : Nat),
    run (step noLibs) (worldInit (fun _ => true) sampleRand) es = some w →
    w.ws.state = .waitHandshakeResponse → w.socket.state = .connectionStablished →
    headEnd? w.socket.arrived = some n → n < wsReceiveBuffer → 0 ∉ w.socket.arrived.take n →
    ∃ k w', run (step noLibs) w (List.replicate k fullLook) = some w' ∧
      w'.ws.state ≠ .waitHandshakeResponse := by
  intro hall
  have hrun : (run (step noLibs) (worldInit (fun _ => true) sampleRand) blankLine).map
      (fun w => (w.ws.state, w.socket.state, w.socket.arrived, w.socket.rx)) =
      some (.waitHandshakeResponse, .connectionStablished, [13, 10, 13, 10], [13, 10, 13, 10]) := by
    decide +kernel
  obtain ⟨w, hr, hw⟩ := Option.map_eq_some_iff.mp hrun
  obtain ⟨hst, hw⟩ := Prod.mk.inj hw
  obtain ⟨hsock, hw⟩ := Prod.mk.inj hw
  obtain ⟨harr, hrx⟩ := Prod.mk.inj hw
  obtain ⟨k, w', hr', hne⟩ := hall blankLine w 4 hr hst hsock (by rw [harr]; decide) (by decide)
    (by rw [harr]; decide)
  obtain ⟨v, hv, hwait⟩ := @waits_of_short noLibs w hst (by rw [hrx]; decide) k
  obtain rfl := Option.some.inj (hr'.symm.trans hv)
  exact hne hwait

end Rastreo.Net
