import Rastreo.Net.TcpServer

/-!
# The queue of a server slot

While a slot is sending, its queue is there and its index inside the first message
(`ServerSlot.InBounds`). The pass that aborts or closes a connection empties the queue and leaves
the stream as it is: on a slot that is sending nothing is left to send.

* `TxInv`: what `tx_task` relies on. Each operation on a slot keeps it, `deleteQueue` on a slot
  that is not sending only.
* **`bounded_iff`**: a run keeps all slots in bounds exactly when it aborts none in the middle of a
  message.
-/

namespace Rastreo.Net

open Rastreo.Lib

/-- **A slot that is sending has a message**, and its index is inside. -/
def ServerSlot.InBounds (s : ServerSlot) : Prop :=
  s.out.state = .sending → ∃ n rest, s.out.queueData = n :: rest ∧ s.out.dataIndex < n.dataLength

/-- No connection is aborted or closed in the middle of a message. -/
def AbortsIdle (y : ServerSys) : ServerStep → Prop
  | .pass i _ => (y.servers i).state = .aborting ∨ (y.servers i).state = .close →
      (y.servers i).out.state ≠ .sending
  | _ => True

instance (y : ServerSys) : (e : ServerStep) → Decidable (AbortsIdle y e)
  | .pass _ _ => inferInstanceAs (Decidable (_ → _))
  | .signal _ _ _ _ | .config _ _ _ | .call _ | .reset => .isTrue trivial

/-- After the step every slot is in bounds, and was not read out of them. -/
def Bounded (y : ServerSys) (e : ServerStep) : Prop :=
  ∀ y', serverStep y e = some y' → ∀ i, (y'.servers i).InBounds ∧ (y'.servers i).fault = false

/-- What `tx_task` relies on. -/
structure ServerSlot.TxInv (s : ServerSlot) : Prop where
  inBounds : s.InBounds
  lengths : ∀ n ∈ s.out.queueData, 0 < n.dataLength
  noFault : s.fault = false

section Slots

variable {s s' : ServerSlot}

theorem ServerSlot.TxInv.of_same (h : s.TxInv) (ho : s'.out = s.out) (hf : s'.fault = s.fault) :
    s'.TxInv := by
  refine ⟨?_, ?_, hf.trans h.noFault⟩
  · unfold ServerSlot.InBounds
    rw [ho]
    exact h.inBounds
  · rw [ho]
    exact h.lengths

/-- Not sending, only the messages matter. -/
theorem txInv_of_not_sending (hst : s.out.state ≠ .sending)
    (hlen : ∀ n ∈ s.out.queueData, 0 < n.dataLength) (hf : s.fault = false) : s.TxInv :=
  ⟨fun h => absurd h hst, hlen, hf⟩

theorem emitEvent_keeps (s : ServerSlot) (e : ServerEvent) :
    (s.emitEvent e).out = s.out ∧ (s.emitEvent e).fault = s.fault ∧
      (s.emitEvent e).state = s.state ∧ (s.emitEvent e).put = s.put ∧
      (s.emitEvent e).passed = s.passed := by
  unfold ServerSlot.emitEvent
  split <;> exact ⟨rfl, rfl, rfl, rfl, rfl⟩

theorem ServerSlot.TxInv.emitEvent (h : s.TxInv) (e : ServerEvent) : (s.emitEvent e).TxInv :=
  h.of_same (emitEvent_keeps s e).1 (emitEvent_keeps s e).2.1

theorem ServerSlot.TxInv.tcpEventCallback (h : s.TxInv) (address : UInt32) (port : UInt16)
    (sig : TcpSignal) : (s.tcpEventCallback address port sig).TxInv := by
  cases sig with
  | established =>
    show (ServerSlot.emitEvent _ _).TxInv
    refine ServerSlot.TxInv.emitEvent ?_ _
    exact h.of_same rfl rfl
  | rxFin => exact h.of_same rfl rfl
  | rxRst => exact h.of_same rfl rfl
  | other => exact h

theorem ServerSlot.TxInv.txTask (hI : s.TxInv) (putIsReady : Nat) (h : Heap) :
    (s.txTask putIsReady h).1.TxInv := by
  unfold ServerSlot.txTask
  have htail : ∀ n ∈ s.out.queueData.tail, 0 < n.dataLength := fun n hn =>
    hI.lengths n (List.mem_of_mem_tail hn)
  cases hst : s.out.state with
  | idle =>
    dsimp only
    split
    · rename_i hne
      refine ⟨fun _ => ?_, hI.lengths, hI.noFault⟩
      obtain ⟨n, rest, hq⟩ := List.exists_cons_of_ne_nil hne
      exact ⟨n, rest, hq, hI.lengths n (by rw [hq]; exact List.mem_cons_self)⟩
    · exact hI
  | sending =>
    obtain ⟨n, rest, hq, hlt⟩ := hI.inBounds hst
    dsimp only
    split
    · rw [hq]
      dsimp only
      split
      · rename_i hleft
        refine ⟨fun _ => ⟨n, rest, hq, ?_⟩, hI.lengths, hI.noFault⟩
        show s.out.dataIndex + putIsReady % 65536 < n.dataLength
        omega
      · rename_i hleft
        refine txInv_of_not_sending (by rintro ⟨⟩) ?_ ?_
        · show ∀ n ∈ (ServerSlot.emitEvent _ _).out.queueData, 0 < n.dataLength
          rw [(emitEvent_keeps _ _).1]
          exact htail
        · show (ServerSlot.emitEvent _ _).fault = false
          rw [(emitEvent_keeps _ _).2.1]
          show (s.fault || decide _) = false
          rw [hI.noFault, Bool.false_or, decide_eq_false_iff_not]
          omega
    · exact hI
  | error => exact txInv_of_not_sending (by rintro ⟨⟩) htail hI.noFault

theorem ServerSlot.TxInv.deleteQueue (hI : s.TxInv) (hst : s.out.state ≠ .sending) (h : Heap) :
    (s.deleteQueue h).1.TxInv :=
  txInv_of_not_sending hst (by rintro _ ⟨⟩) hI.noFault

theorem ServerSlot.TxInv.clearStream (hI : s.TxInv) (h : Heap) : (s.clearStream h).1.TxInv := by
  unfold ServerSlot.clearStream
  split
  · exact txInv_of_not_sending (by rintro ⟨⟩) (by rintro _ ⟨⟩) hI.noFault
  · exact hI

theorem ServerSlot.TxInv.reset (hI : s.TxInv) (h : Heap) : (s.reset h).1.TxInv := by
  unfold ServerSlot.reset
  split
  · exact (hI.clearStream h).of_same rfl rfl
  · exact hI.of_same rfl rfl

theorem ServerSlot.TxInv.send (hI : s.TxInv) (h : Heap) (data : Packet) :
    (s.send h data).1.TxInv := by
  unfold ServerSlot.send
  dsimp only
  split
  · cases hnew : listNewNode h data.bytes data.bytes.length with
    | mk node h' =>
      cases node with
      | none => exact hI.of_same rfl rfl
      | some n =>
        have hpos : 0 < n.dataLength := by
          obtain ⟨hpos, hlen, -⟩ := listNewNode_data hnew
          rwa [hlen, Nat.mod_eq_of_lt data.fits]
        refine ⟨fun hst => ?_, fun m hm => ?_, hI.noFault⟩
        · obtain ⟨k, rest, hq, hlt⟩ := hI.inBounds hst
          refine ⟨k, rest ++ [n], ?_, hlt⟩
          show s.out.queueData ++ [n] = _
          rw [hq]
          rfl
        · rcases List.mem_append.mp hm with hm | hm
          · exact hI.lengths m hm
          · obtain rfl := List.mem_singleton.mp hm
            exact hpos
  · exact hI.of_same rfl rfl

end Slots

section System

variable {y y' : ServerSys}

theorem txInv_call (c : ServerCall) (hI : ∀ i, (y.servers i).TxInv) :
    ∀ i, ((y.call c).servers i).TxInv := by
  cases c with
  | send i data => exact ServerSys.forall_put hI ((hI i).send y.heap data)
  | forceDisconnect i => exact ServerSys.forall_put hI ((hI i).of_same rfl rfl)

theorem txInv_calls (cs : List ServerCall) (hI : ∀ i, (y.servers i).TxInv) :
    ∀ i, ((cs.foldl ServerSys.call y).servers i).TxInv := by
  induction cs generalizing y with
  | nil => exact hI
  | cons c cs ih => exact ih (txInv_call c hI)

theorem txInv_pass (io : ServerIo) (i : Fin tcpServerMaxSockets) (hI : ∀ i, (y.servers i).TxInv)
    (hC : (y.servers i).state = .aborting ∨ (y.servers i).state = .close →
      (y.servers i).out.state ≠ .sending) : ∀ j, ((serverPass io y i).servers j).TxInv := by
  unfold serverPass
  dsimp only
  cases hst : (y.servers i).state with
  | init => exact ServerSys.forall_put hI ((hI i).of_same rfl rfl)
  | openSocket =>
    refine ServerSys.forall_put hI ?_
    dsimp only
    split
    · exact (hI i).of_same rfl rfl
    · exact (hI i).of_same rfl rfl
  | waitForConnection => exact hI
  | disable => exact hI
  | connectionStablished =>
    have hrx : ∀ j, ((if (y.servers i).rxP then io.rx.foldl ServerSys.call y
        else y.put i ((y.servers i).called (.discard (y.servers i).hSocket), y.heap)).servers
          j).TxInv := by
      split
      · exact txInv_calls io.rx hI
      · exact ServerSys.forall_put hI ((hI i).of_same rfl rfl)
    exact ServerSys.forall_put hrx ((hrx i).txTask _ _)
  | disconnecting =>
    dsimp only
    split
    · have hrx := txInv_calls io.rx hI
      split
      · exact ServerSys.forall_put hrx ((hrx i).of_same rfl rfl)
      · exact hrx
    · exact ServerSys.forall_put hI ((hI i).of_same rfl rfl)
  | waitDisconnect =>
    dsimp only
    split
    · exact ServerSys.forall_put hI (((hI i).emitEvent _).of_same rfl rfl)
    · exact hI
  | waitAbort =>
    dsimp only
    split
    · exact ServerSys.forall_put hI (((hI i).emitEvent _).of_same rfl rfl)
    · exact hI
  | aborting =>
    have hdel := (hI i).deleteQueue (hC (.inl hst)) y.heap
    exact ServerSys.forall_put hI (hdel.of_same rfl rfl)
  | close =>
    have hdel := (hI i).deleteQueue (hC (.inr hst)) y.heap
    exact ServerSys.forall_put hI (hdel.of_same rfl rfl)
  | waitClose => exact ServerSys.forall_put hI (((hI i).emitEvent .close).of_same rfl rfl)

theorem txInv_of_step {e : ServerStep} (hI : ∀ i, (y.servers i).TxInv) (hC : AbortsIdle y e)
    (hs : serverStep y e = some y') : ∀ i, (y'.servers i).TxInv := by
  cases e with
  | signal i address port sig =>
    obtain rfl := Option.some.inj hs
    exact ServerSys.forall_put hI ((hI i).tcpEventCallback address port sig)
  | pass i io =>
    obtain rfl := Option.some.inj hs
    exact txInv_pass io i hI hC
  | config listenPort rxP cb =>
    obtain rfl := Option.some.inj hs
    unfold tcpServerConfig
    split
    · exact hI
    · exact ServerSys.forall_put hI ((hI _).of_same rfl rfl)
  | call c =>
    obtain rfl := Option.some.inj hs
    exact txInv_call c hI
  | reset =>
    obtain rfl := Option.some.inj hs
    have hfold : ∀ (is : List (Fin tcpServerMaxSockets)) (y : ServerSys),
        (∀ i, (y.servers i).TxInv) → ∀ i, ((is.foldl
          (fun y i => y.put i ((y.servers i).reset y.heap)) y).servers i).TxInv := by
      intro is
      induction is with
      | nil => intro y hI; exact hI
      | cons i is ih =>
        intro y hI
        exact ih _ (ServerSys.forall_put hI ((hI i).reset y.heap))
    exact hfold _ y hI

theorem txInv_serverInit (grants : Nat → Bool) (i : Fin tcpServerMaxSockets) :
    ((serverInit grants).servers i).TxInv :=
  txInv_of_not_sending (by rintro ⟨⟩) (by rintro _ ⟨⟩) rfl

/-- An abort in the middle of a message leaves nothing to send. -/
theorem abortsIdle_of_bounded {e : ServerStep} (h : Bounded y e) : AbortsIdle y e := by
  cases e with
  | pass i io =>
    rintro hst hsending
    have hempty : ((serverPass io y i).servers i).out =
        { (y.servers i).out with queueData := [] } := by
      unfold serverPass
      dsimp only
      rcases hst with hst | hst
      · rw [hst]
        exact congrArg ServerSlot.out (ServerSys.servers_put _ _)
      · rw [hst]
        exact congrArg ServerSlot.out (ServerSys.servers_put _ _)
    have hin := (h _ rfl i).1
    unfold ServerSlot.InBounds at hin
    rw [hempty] at hin
    obtain ⟨n, rest, hq, -⟩ := hin hsending
    cases hq
  | _ => trivial

/-- **A run keeps every slot in bounds** exactly when it aborts none in the middle of a message. -/
theorem bounded_iff (grants : Nat → Bool) (es : List ServerStep) :
    Along serverStep Bounded (serverInit grants) es ↔
      Along serverStep AbortsIdle (serverInit grants) es := by
  constructor
  · exact along_mono fun _ _ => abortsIdle_of_bounded
  · intro hC
    refine @along_of_inv _ _ _ _ _ (fun y : ServerSys => ∀ i, (y.servers i).TxInv)
      (fun _ _ _ hI hC hs => txInv_of_step hI hC hs) (fun y e hI hC y' hs i => ?_) _ _
      (txInv_serverInit grants) hC
    have hI' := txInv_of_step hI hC hs i
    exact ⟨hI'.inBounds, hI'.noFault⟩

end System

/-! ## Two runs -/

/-- What the stack answers in a pass; no receive processor. -/
def serverIo (putIsReady : Nat) : ServerIo where
  serverOpen := 1
  rx := []
  rxPending := 0
  putIsReady := putIsReady
  wasDisconnected := true

/-- The message of the runs. -/
def loginPrompt : Packet := ⟨ascii "login: ", by decide⟩

/-- Slot 0 is opened, a client connects, and a message is given to it. -/
def connectAndSend : List ServerStep :=
  [.config 23 false true, .pass 0 (serverIo 0), .pass 0 (serverIo 0),
    .signal 0 0 0 .established, .call (.send 0 loginPrompt)]

/-- The client resets the connection before anything is sent, and another one connects. -/
def resetBefore : List ServerStep :=
  connectAndSend ++ [.signal 0 0 0 .rxRst, .pass 0 (serverIo 0), .pass 0 (serverIo 0),
    .signal 0 0 0 .established, .pass 0 (serverIo 10)]

theorem bounded_resetBefore : Along serverStep Bounded (serverInit fun _ => true) resetBefore :=
  (bounded_iff _ _).mpr (by decide +kernel)

/-- The client resets it while the message is being sent. -/
def resetWhile : List ServerStep :=
  connectAndSend ++ [.pass 0 (serverIo 10), .signal 0 0 0 .rxRst, .pass 0 (serverIo 10),
    .pass 0 (serverIo 10), .signal 0 0 0 .established, .pass 0 (serverIo 10)]

/-- The slot is left sending with an empty queue, and on the next connection the NULL pointer is
used. -/
theorem not_bounded : ¬ Along serverStep Bounded (serverInit fun _ => true) resetWhile := by
  intro hall
  have hfault : (run serverStep (serverInit fun _ => true) resetWhile).map
      (fun y => (y.servers 0).fault) = some true := by decide +kernel
  obtain ⟨y, hr, hy⟩ := Option.map_eq_some_iff.mp hfault
  obtain ⟨y₀, -, hs, hb⟩ := @along_last _ _ _ _ _ _ (connectAndSend ++ [.pass 0 (serverIo 10),
    .signal 0 0 0 .rxRst, .pass 0 (serverIo 10), .pass 0 (serverIo 10),
    .signal 0 0 0 .established]) (.pass 0 (serverIo 10)) hall hr
  cases (hb y hs 0).2.symm.trans hy

end Rastreo.Net
