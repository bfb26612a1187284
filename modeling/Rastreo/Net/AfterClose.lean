import Rastreo.Net.Guarding

/-!
# After a Close frame

`CLIENT_SENT_CLOSE_FRAME` is tested by `handle_control_frame` and by `ws_client_send` and set by
neither. `CLIENT_SHOULD_CLOSE`, which a Close frame sets, is looked at in `WS_STATE_CLOSE` only. So
the client goes on reading, answering and sending until the connection is lost.

* `Aftermath`: what was queued and delivered on the current connection.
* `Done`: one Close frame at most, and nothing of the application's after it was received.
* **`done_of_silent`**: so it is in a run where nothing comes after the Close frame that the client
  would answer, deliver or send.
-/

namespace Rastreo.Net

open Rastreo.Lib

/-! ## What is counted -/

/-- The byte completes the last frame of a message. -/
def completesMessage (w : World) (c : UInt8) : Bool :=
  match completionOf w c with
  | some (.complete, f) => f.fin && decide (f.opcode &&& 8 ≠ 8)
  | _ => false

/-- The call is one of `onMessage`. -/
def Call.isMessage : Call → Bool
  | .onMessage _ _ _ => true
  | .onOpen | .onClose | .onError _ _ => false

/-- How often `onMessage` was called. -/
def World.messages (w : World) : Nat := w.calls.countP Call.isMessage

/-- How many frames more are queued on the socket of the client. -/
def World.queues (w w' : World) : Nat := w'.socket.datNode.length - w.socket.datNode.length

/-- The current connection: whether a Close frame was received on it, how many were queued, and
since one was received the frames of `ws_client_send` and the calls of `onMessage`. -/
structure Aftermath where
  closed : Bool
  closes : Nat
  sent : Nat
  delivered : Nat
  deriving DecidableEq, Repr

namespace Aftermath

/-- A connection just reported. -/
def fresh : Aftermath := ⟨false, 0, 0, 0⟩

/-- After a byte. -/
def byte (w : World) (c : UInt8) (g : Aftermath) : Aftermath where
  closed := g.closed || completesClose w c
  closes := g.closes + w.queues (inData w c).1
  sent := g.sent
  delivered := if g.closed then g.delivered + ((inData w c).1.messages - w.messages) else g.delivered

/-- After the bytes of a read. -/
def bytes : World → Bytes → Aftermath → Aftermath
  | _, [], g => g
  | w, c :: bs, g => bytes (inData w c).1 bs (g.byte w c)

/-- After a call of `ws_client_send`. -/
def send (w : World) (s : Option Bytes) (g : Aftermath) : Aftermath :=
  if g.closed then { g with sent := g.sent + w.queues (wsClientSend w s).2 } else g

end Aftermath

/-- The world and the bytes of a pass that reads the connection. -/
def reads (w : World) : Event → Option (World × Bytes)
  | .wsTask io =>
    if w.ws.state = .connectionEstablished then some ((w.read io).2, (w.read io).1) else none
  | _ => none

/-- The task reports a new connection. -/
def reconnects (w : World) : Event → Bool
  | .tcpTask io => connects io w
  | _ => false

/-- The connection after an event. -/
def Aftermath.after (w : World) (e : Event) (g : Aftermath) : Aftermath :=
  if reconnects w e then .fresh
  else
    match sends w e with
    | some (v, s) => g.send v s
    | none =>
      match reads w e with
      | some (v, bs) => g.bytes v bs
      | none => g

/-- Before the first connection. -/
def aftermathInit (grants : Nat → Bool) (rand : Nat → UInt32) : World × Aftermath :=
  (worldInit grants rand, .fresh)

/-- **After a Close frame** no second one is queued, nothing is sent and nothing delivered. -/
structure Aftermath.Done (g : Aftermath) : Prop where
  closes : g.closes ≤ 1
  sent : g.sent = 0
  delivered : g.delivered = 0

/-! ## When nothing comes after it -/

/-- One byte, as a machine. -/
def readByte (w : World) (c : UInt8) : Option World := some (inData w c).1

/-- After the Close frame the byte completes neither another one that would be answered, with one
answer queued, nor a message that somebody listens to. -/
def Harmless (p : World × Aftermath) (c : UInt8) : Prop :=
  p.2.closed = true →
    (completesClose p.1 c = true → p.2.closes = 0 ∨ p.1.socket.state ≠ .connectionStablished) ∧
    (completesMessage p.1 c = true → p.1.ws.onMessage = false)

/-- After the Close frame nothing is sent, but what `ws_client_send` refuses for another reason. -/
def Withholds (p : World × Aftermath) (e : Event) : Prop :=
  p.2.closed = true → ∀ x ∈ sends p.1 e, x.2 = none ∨ x.1.ws.flags.clientConnecting = true ∨
    x.1.socket.state ≠ .connectionStablished

/-- Every byte of the read is harmless. -/
def ReadsHarmless (p : World × Aftermath) (e : Event) : Prop :=
  ∀ x ∈ reads p.1 e, Along (watch readByte Aftermath.byte) Harmless (x.1, p.2) x.2

/-- **Nothing comes after the Close frame** that the client would answer, deliver or send. -/
def Silent (p : World × Aftermath) (e : Event) : Prop := Withholds p e ∧ ReadsHarmless p e

instance (p : World × Aftermath) (c : UInt8) : Decidable (Harmless p c) :=
  inferInstanceAs (Decidable (_ → _ ∧ _))

instance (p : World × Aftermath) (e : Event) : Decidable (Silent p e) :=
  inferInstanceAs (Decidable ((_ → ∀ x ∈ sends p.1 e, _) ∧ ∀ x ∈ reads p.1 e, _))

/-! ## A byte -/

section Byte

variable {w w₁ w' : World} {c : UInt8} {g : Aftermath}

theorem queues_same (h : w'.socket.datNode = w.socket.datNode) : w.queues w' = 0 := by
  unfold World.queues
  rw [h, Nat.sub_self]

/-- `tcp_client_send` queues one node at most, and none without a connection. -/
theorem length_tcpClientSend (h : Heap) (slots : Slots) (sid : Fin tcpClientMaxSockets)
    (data : Bytes) (n : Nat) :
    ((tcpClientSend h slots sid data n).2.2 sid).datNode.length ≤ (slots sid).datNode.length + 1 ∧
      ((slots sid).state ≠ .connectionStablished →
        ((tcpClientSend h slots sid data n).2.2 sid).datNode = (slots sid).datNode) := by
  refine ⟨?_, fun hclosed => by rw [tcpClientSend_closed hclosed]⟩
  rcases (tcpClientSend_appends h slots sid data n).2 with heq | ⟨node, -, heq⟩
  · rw [heq]
    exact Nat.le_succ _
  · rw [heq, Function.update_self, List.length_append]
    exact le_rfl

/-- `handle_control_frame` answers a Close frame only. -/
theorem queues_handleOpcode (w : World) (ctl : WsFrame) (mask : Bytes) :
    (handleOpcode w ctl mask).socket.datNode.length ≤ w.socket.datNode.length + 1 ∧
      (ctl.opcode ≠ 8 ∨ w.socket.state ≠ .connectionStablished →
        (handleOpcode w ctl mask).socket.datNode = w.socket.datNode) := by
  unfold handleOpcode
  split
  · rename_i hop
    dsimp only
    split
    · exact ⟨Nat.le_succ _, fun _ => rfl⟩
    · refine ⟨(length_tcpClientSend _ _ _ _ _).1, fun h => ?_⟩
      exact (length_tcpClientSend _ _ _ _ _).2 (h.resolve_left fun hne => hne hop)
  · exact ⟨Nat.le_succ _, fun _ => rfl⟩

theorem calls_handleOpcode (w : World) (ctl : WsFrame) (mask : Bytes) :
    (handleOpcode w ctl mask).calls = w.calls := by
  unfold handleOpcode
  split
  · dsimp only
    split <;> rfl
  · rfl

theorem socket_resetFrame (ctl : WsFrame) (prev : List WsFrame) :
    (resetFrame w ctl prev).1.socket = w.socket ∧
      (resetFrame w ctl prev).1.calls = w.calls := by
  unfold resetFrame
  split <;> exact ⟨rfl, rfl⟩

theorem messages_callOnError (w : World) (code extraCode : Int) :
    (w.callOnError code extraCode).messages = w.messages := by
  unfold World.callOnError World.messages
  split
  · exact List.countP_append.trans (Nat.add_zero _)
  · rfl

/-- `dispatch_message` queues nothing, and calls nobody when nobody listens. -/
theorem dispatchMessage_quiet (w : World) (frames : List WsFrame) :
    (dispatchMessage w frames).1.socket = w.socket ∧
      (w.ws.onMessage = false → (dispatchMessage w frames).1.messages = w.messages) := by
  unfold dispatchMessage
  split
  · refine ⟨?_, fun _ => messages_callOnError w 0 0⟩
    unfold World.callOnError World.setState
    split <;> rfl
  · dsimp only
    split
    · exact ⟨rfl, fun _ => rfl⟩
    · split
      · exact ⟨rfl, fun _ => rfl⟩
      · refine ⟨rfl, fun hnobody => ?_⟩
        unfold World.messages
        dsimp only
        rw [hnobody]
        rfl

theorem newFragment_quiet (w : World) :
    (newFragment w).1.socket = w.socket ∧ (newFragment w).1.calls = w.calls := by
  unfold newFragment
  split
  · exact ⟨rfl, rfl⟩
  · split <;> exact ⟨rfl, rfl⟩

/-- What a whole frame adds to the queue: one answer, to a Close frame on a connection. -/
theorem queues_frameDone (w : World) (cur : WsFrame) (prev : List WsFrame) :
    w.queues (frameDone w cur prev).1 ≤ 1 ∧
      ((cur.fin && decide (cur.opcode = 8)) = false ∨ w.socket.state ≠ .connectionStablished →
        w.queues (frameDone w cur prev).1 = 0) := by
  unfold frameDone
  split
  · rename_i hfin
    split
    · obtain ⟨hle, hsame⟩ := queues_handleOpcode w.drawMask.2 cur w.drawMask.1
      have heq : (handleControlFrame w cur prev).1.socket =
          (handleOpcode w.drawMask.2 cur w.drawMask.1).socket := (socket_resetFrame cur prev).1
      refine ⟨?_, fun h => queues_same ?_⟩
      · unfold World.queues
        rw [heq]
        exact Nat.sub_le_of_le_add (Nat.add_comm _ 1 ▸ hle)
      · rw [heq]
        refine hsame (h.imp_left fun hnot => ?_)
        rw [hfin, Bool.true_and] at hnot
        exact of_decide_eq_false hnot
    · have hzero : w.queues { (dispatchMessage w (cur :: prev)).1 with
          ws := { (dispatchMessage w (cur :: prev)).1.ws with frames := [] } } = 0 :=
        queues_same (congrArg Slot.datNode (dispatchMessage_quiet w (cur :: prev)).1)
      exact ⟨hzero.trans_le (Nat.zero_le 1), fun _ => hzero⟩
  · have hzero := queues_same (congrArg Slot.datNode (newFragment_quiet w).1)
    exact ⟨hzero.trans_le (Nat.zero_le 1), fun _ => hzero⟩

/-- What a whole frame is to the application: a message, when it is the last frame of one. -/
theorem messages_frameDone (cur : WsFrame) (prev : List WsFrame)
    (h : (cur.fin && decide (cur.opcode &&& 8 ≠ 8)) = true → w.ws.onMessage = false) :
    (frameDone w cur prev).1.messages = w.messages := by
  unfold frameDone
  split
  · rename_i hfin
    split
    · unfold World.messages
      rw [show (handleControlFrame w cur prev).1.calls = w.calls from
        (socket_resetFrame cur prev).2.trans (calls_handleOpcode w.drawMask.2 cur w.drawMask.1)]
    · rename_i hdata
      refine (dispatchMessage_quiet w (cur :: prev)).2 (h ?_)
      rw [hfin, Bool.true_and, decide_eq_true hdata]
  · unfold World.messages
    rw [(newFragment_quiet w).2]

theorem SameButFrames.socket_eq (h : SameButFrames w w') : w'.socket = w.socket := by
  obtain ⟨fs, hws⟩ := h.ws
  unfold World.socket
  rw [h.slots, hws]

theorem SameButFrames.messages_eq (h : SameButFrames w w') : w'.messages = w.messages := by
  unfold World.messages
  rw [h.calls]

/-- **What a byte adds to the queue**: one answer, when it completes a Close frame. -/
theorem queues_inData (w : World) (c : UInt8) :
    w.queues (inData w c).1 ≤ 1 ∧
      (completesClose w c = false ∨ w.socket.state ≠ .connectionStablished →
        w.queues (inData w c).1 = 0) := by
  have hstep := inData_cases w c
  unfold completesClose
  cases hstep with
  | kept hnot hsame =>
    have hzero := queues_same (congrArg Slot.datNode hsame.socket_eq)
    exact ⟨hzero.trans_le (Nat.zero_le 1), fun _ => hzero⟩
  | masked f hread w₁ hsame heq =>
    have hzero : w.queues (inData w c).1 = 0 := by
      rw [heq]
      exact queues_same (congrArg Slot.datNode hsame.socket_eq)
    exact ⟨hzero.trans_le (Nat.zero_le 1), fun _ => hzero⟩
  | complete f prev hread w₁ hsame heq =>
    have hqueues : w.queues (inData w c).1 = w₁.queues (frameDone w₁ f prev).1 := by
      unfold World.queues
      rw [heq, hsame.socket_eq]
    rw [hread, hqueues]
    rw [← hsame.socket_eq]
    exact queues_frameDone w₁ f prev

/-- **A byte calls `onMessage`** only when it completes a message. -/
theorem messages_inData (h : completesMessage w c = true → w.ws.onMessage = false) :
    (inData w c).1.messages = w.messages := by
  have hstep := inData_cases w c
  unfold completesMessage at h
  cases hstep with
  | kept hnot hsame => exact hsame.messages_eq
  | masked f hread w₁ hsame heq =>
    rw [heq]
    exact hsame.messages_eq
  | complete f prev hread w₁ hsame heq =>
    rw [hread] at h
    rw [heq]
    refine (messages_frameDone f prev fun hlast => ?_).trans hsame.messages_eq
    rw [hsame.spares.onMessage]
    exact h hlast

end Byte

/-! ## The run -/

/-- **The invariant**: the connection is done as it should be, and before the Close frame nothing
was answered. -/
structure AfterInv (g : Aftermath) : Prop where
  unanswered : g.closed = false → g.closes = 0
  done : g.Done

section Run

variable {w w' : World} {g : Aftermath}

theorem afterInv_fresh : AfterInv .fresh := ⟨fun _ => rfl, Nat.zero_le 1, rfl, rfl⟩

theorem AfterInv.byte {c : UInt8} (hI : AfterInv g) (hC : Harmless (w, g) c) :
    AfterInv (g.byte w c) := by
  obtain ⟨hle, hnone⟩ := queues_inData w c
  have hcloses : (g.byte w c).closes ≤ 1 := by
    show g.closes + w.queues (inData w c).1 ≤ 1
    by_cases hzero : g.closes = 0
    · rw [hzero, Nat.zero_add]
      exact hle
    · have hclosed : g.closed = true := by
        cases hg : g.closed with
        | true => rfl
        | false => exact absurd (hI.unanswered hg) hzero
      have hquiet : w.queues (inData w c).1 = 0 := by
        cases hclose : completesClose w c with
        | false => exact hnone (.inl hclose)
        | true => exact hnone (.inr (((hC hclosed).1 hclose).resolve_left hzero))
      rw [hquiet]
      exact hI.done.closes
  refine ⟨fun hopen => ?_, hcloses, hI.done.sent, ?_⟩
  · obtain ⟨hbefore, hno⟩ := Bool.or_eq_false_iff.mp hopen
    show g.closes + w.queues (inData w c).1 = 0
    rw [hI.unanswered hbefore, hnone (.inl hno)]
  · show (if g.closed then g.delivered + ((inData w c).1.messages - w.messages)
      else g.delivered) = 0
    split
    · rename_i hclosed
      rw [hI.done.delivered, messages_inData (hC hclosed).2, Nat.sub_self]
    · exact hI.done.delivered

theorem AfterInv.bytes {bs : Bytes} (hI : AfterInv g)
    (hC : Along (watch readByte Aftermath.byte) Harmless (w, g) bs) : AfterInv (g.bytes w bs) := by
  induction bs generalizing w g with
  | nil => exact hI
  | cons c bs ih => exact ih (hI.byte hC.1) (hC.2 _ rfl)

theorem AfterInv.send {s : Option Bytes} (hI : AfterInv g)
    (hC : g.closed = true → s = none ∨ w.ws.flags.clientConnecting = true ∨
      w.socket.state ≠ .connectionStablished) : AfterInv (g.send w s) := by
  unfold Aftermath.send
  split
  · rename_i hclosed
    have hrefused : Refuses w s := by
      rcases hC hclosed with rfl | hconn | hdown
      · exact refuses_null
      · exact refuses_connecting hconn s
      · exact refuses_closed hdown s
    have hquiet : w.queues (wsClientSend w s).2 = 0 := by
      refine queues_same ?_
      unfold World.socket
      rw [hrefused.2, (spares_wsClientSend w s).curSocketId]
    rw [hquiet]
    exact hI
  · exact hI

theorem AfterInv.after {e : Event} (hI : AfterInv g) (hC : Silent (w, g) e) :
    AfterInv (g.after w e) := by
  unfold Aftermath.after
  split
  · exact afterInv_fresh
  · split
    · rename_i hsend
      exact hI.send fun hclosed => hC.1 hclosed _ hsend
    · split
      · rename_i hread
        exact hI.bytes (hC.2 _ hread)
      · exact hI

end Run

/-- **After a Close frame**, in a run where nothing comes after it that the client would answer,
deliver or send, the connection is done. -/
theorem done_of_silent (libs : Libs) (grants : Nat → Bool) (rand : Nat → UInt32) {es : List Event}
    {p : World × Aftermath}
    (hC : Along (watch (step libs) Aftermath.after) Silent (aftermathInit grants rand) es)
    (hr : run (watch (step libs) Aftermath.after) (aftermathInit grants rand) es = some p) :
    p.2.Done := by
  have hI : AfterInv p.2 := by
    refine @inv_of_run _ _ _ Silent (fun p => AfterInv p.2) (fun p e q hI hC hs => ?_) _ _ _
      afterInv_fresh hC hr
    rw [(watch_eq_some.mp hs).2]
    exact hI.after hC
  exact hI.done

/-! ## Two runs -/

/-- Somebody listens, the answer is accepted and these bytes arrive. -/
def heard (bs : Bytes) : List Event :=
  let look : Event := .wsTask ⟨0, 2047, []⟩
  let pass : Event := .tcpTask fun _ => readyIo
  [look, .wsOpen (some ⟨ascii "ws", ascii "10.0.0.1", none, none⟩) ⟨false, false, true, false⟩,
    look, look, pass, pass, pass, look, .receive 0 (answerHead (ascii "upgrade")), look, look,
    .receive 0 bs, look]

/-- A Close frame. -/
def closeBytes : Bytes := [0x88, 2, 3, 232]

/-- The message "hi". -/
def hiBytes : Bytes := [0x81, 2, 104, 105]

/-- A message, the Close frame and a Ping; then the application closes, and sends in vain. -/
def silentRun : List Event :=
  heard (hiBytes ++ closeBytes ++ [0x89, 0]) ++ [.wsClose, .wsSend (some (ascii "hi"))]

theorem done_of_silent_closed : ∃ p, run (watch (step (answering (ascii "upgrade")))
      Aftermath.after) (aftermathInit (fun _ => true) sampleRand) silentRun = some p ∧
    p.2.closed = true ∧ p.2.closes = 1 ∧ p.2.Done := by
  have hrun : (run (watch (step (answering (ascii "upgrade"))) Aftermath.after)
      (aftermathInit (fun _ => true) sampleRand) silentRun).map
        (fun p => (p.2.closed, p.2.closes)) = some (true, 1) := by decide +kernel
  obtain ⟨p, hr, hp⟩ := Option.map_eq_some_iff.mp hrun
  obtain ⟨hclosed, hcloses⟩ := Prod.mk.inj hp
  exact ⟨p, hr, hclosed, hcloses, done_of_silent _ _ _ (by decide +kernel) hr⟩

/-- Two Close frames and a message, and the application sends: both Close frames are answered, and
the message is delivered and another one queued. -/
theorem not_done : ¬ ∀ (es : List Event) (p : World × Aftermath),
    run (watch (step (answering (ascii "upgrade"))) Aftermath.after)
      (aftermathInit (fun _ => true) sampleRand) es = some p → p.2.closed = true → p.2.Done := by
  intro hall
  have hrun : (run (watch (step (answering (ascii "upgrade"))) Aftermath.after)
      (aftermathInit (fun _ => true) sampleRand)
      (heard (closeBytes ++ closeBytes ++ hiBytes) ++ [.wsSend (some (ascii "hi"))])).map
        (fun p => p.2) = some ⟨true, 2, 1, 1⟩ := by decide +kernel
  obtain ⟨p, hr, hp⟩ := Option.map_eq_some_iff.mp hrun
  have hdone := hall _ p hr (by rw [hp])
  have hsent := hdone.sent
  rw [hp] at hsent
  cases hsent

end Rastreo.Net
