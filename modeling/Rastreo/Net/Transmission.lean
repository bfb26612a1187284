import Rastreo.Net.TcpClient
import Rastreo.Lib.Outbox
import Rastreo.Lib.Run

/-!
# What a TCP client puts on a connection

`TcpSys` is the TCP client with, for each slot, the `Ledger` of its connection: the messages
`tcp_client_send` accepted, and how many `CLIENT_EVENT_TX` were reported. Anybody may call the
interface at any moment between two passes of the task.

A slot's queue, offset and stream state stand for an `Outbox` of its ledger (`Slot.Sends`).

* `task_streams`: the pass of the task over a slot, by its state.
* `streams_of_step`: every step keeps the invariant `Slot.Streams`.
* **`transmits`**: in every state of every run the bytes on each connection are a prefix of the
  messages accepted on it, one `CLIENT_EVENT_TX` stands for each message written whole, and no
  NULL pointer was used.
-/

namespace Rastreo.Net

open Rastreo.Lib

/-! ## The system -/

/-- A message that `tcp_client_send` can be given. -/
structure Packet where
  bytes : Bytes
  fits : bytes.length < 65536

/-- What happened on a slot's connection. -/
structure Ledger where
  accepted : List Bytes
  completed : Nat
  deriving DecidableEq, Repr

/-- The TCP client with a ledger for each slot. -/
structure TcpSys where
  heap : Heap
  slots : Slots
  ledgers : Fin tcpClientMaxSockets → Ledger

/-- The ledger after a pass over the slot: a new one with a new socket. -/
def Ledger.after (l : Ledger) (s s' : Slot) (es : List ClientEvent) : Ledger :=
  if s.state = .connectionInit ∧ s'.state = .connectionWaitingFor then ⟨[], 0⟩
  else { l with completed := l.completed + es.count .tx }

/-- A pass of the task, bytes from the peer, or a call by the program. -/
inductive TcpEvent
  | task (io : Fin tcpClientMaxSockets → NetIo)
  | receive (sid : Fin tcpClientMaxSockets) (bs : Bytes)
  | openHost (host : Bytes) (port : UInt16) (tls : Bool) (cb : Owner)
  | openIp (ip : UInt32) (port : UInt16) (tls : Bool) (cb : Owner)
  | send (sid : Fin tcpClientMaxSockets) (data : Packet)
  | getRx (sid : Fin tcpClientMaxSockets) (limit request : Nat)
  | close (sid : Fin tcpClientMaxSockets)
  | reset

/-- The pass of `tcp_client_task` over one slot. -/
def TcpSys.taskSlot (io : NetIo) (y : TcpSys) (sid : Fin tcpClientMaxSockets) : TcpSys :=
  let (s, h, es) := (y.slots sid).task io y.heap
  { heap := h
    slots := Function.update y.slots sid s
    ledgers := Function.update y.ledgers sid ((y.ledgers sid).after (y.slots sid) s es) }

/-- `tcp_client_send`, noted when it accepts data. -/
def TcpSys.send (y : TcpSys) (sid : Fin tcpClientMaxSockets) (data : Packet) : TcpSys :=
  let (res, h, slots) := tcpClientSend y.heap y.slots sid data.bytes data.bytes.length
  { heap := h
    slots := slots
    ledgers :=
      if res = .success ∧ data.bytes ≠ [] then
        Function.update y.ledgers sid
          { y.ledgers sid with accepted := (y.ledgers sid).accepted ++ [data.bytes] }
      else y.ledgers }

/-- **One event of the TCP client.** -/
def tcpStep (y : TcpSys) : TcpEvent → Option TcpSys
  | .task io => some ((List.finRange tcpClientMaxSockets).foldl
      (fun y sid => y.taskSlot (io sid) sid) y)
  | .receive sid bs => some { y with
      slots := Function.update y.slots sid ((y.slots sid).receive bs) }
  | .openHost host port tls cb => some { y with
      slots := (tcpClientOpenHost y.slots host port tls cb).2.1 }
  | .openIp ip port tls cb => some { y with slots := (tcpClientOpenIp y.slots ip port tls cb).2 }
  | .send sid data => some (y.send sid data)
  | .getRx sid limit request => some { y with
      slots := (tcpClientGetRx y.slots sid limit request).2 }
  | .close sid => some { y with slots := (tcpClientClose y.slots sid).2 }
  | .reset => some { y with
      heap := (tcpClientReset y.heap y.slots).1
      slots := (tcpClientReset y.heap y.slots).2 }

/-- After `tcp_client_init`. -/
def tcpInit (grants : Nat → Bool) : TcpSys where
  heap := .empty grants
  slots := fun _ => .zero
  ledgers := fun _ => ⟨[], 0⟩

/-- **The connection is served in order**: the bytes on it are a prefix of the messages accepted,
the messages reported are those that are written whole, and no NULL pointer was used. -/
structure Slot.Transmits (s : Slot) (l : Ledger) : Prop where
  ordered : s.written <+: l.accepted.flatten
  reported : ∃ rest, s.written = (l.accepted.take l.completed).flatten ++ rest ∧
    (rest = [] ∨ ∃ m ∈ l.accepted[l.completed]?, rest <+: m ∧ rest.length < m.length)
  noFault : s.fault = false

/-! ## The invariant -/

/-- The bytes on the connection are those of an outbox of the ledger. -/
structure Slot.Wrote (s : Slot) (l : Ledger) (o : Outbox UInt8) : Prop where
  accepted : o.accepted = l.accepted
  sent : o.sent = l.completed
  sound : o.Sound
  written : s.written = o.written

/-- The queue, the offset and the stream state are those of an outbox of the ledger. -/
structure Slot.Sends (s : Slot) (o : Outbox UInt8) : Prop where
  queue : s.datNode.map (fun n => n.data.2) = o.queue
  lengths : ∀ n ∈ s.datNode, n.dataLength = n.data.2.length ∧ 0 < n.dataLength ∧ n.dataLength < 65536
  stream : s.stx = .idle ∧ o.offset = 0 ∨
    s.stx = .sending ∧ s.datNode ≠ [] ∧ s.curDataOffset = o.offset

/-- The slot has a socket. -/
def Slot.HasSocket (s : Slot) : Prop :=
  s.state = .connectionWaitingFor ∨ s.state = .connectionSslNegotiationWait ∨
    s.state = .connectionStablished

/-- **The invariant of a slot.** -/
structure Slot.Streams (s : Slot) (l : Ledger) : Prop where
  wrote : ∃ o : Outbox UInt8, s.Wrote l o ∧ (s.state = .connectionStablished → s.Sends o)
  /-- A socket that is being opened has nothing to send. -/
  fresh : s.state = .connectionWaitingFor ∨ s.state = .connectionSslNegotiationWait →
    l = ⟨[], 0⟩ ∧ s.written = [] ∧ (s.state = .connectionSslNegotiationWait → s.stx = .idle)
  /-- Only an established or closing slot has a queue. -/
  drained : s.state ≠ .connectionStablished → s.state ≠ .connectionClose → s.datNode = []
  socket : s.HasSocket ∨ s.datNode ≠ [] → s.hSocket ≠ invalidSocket
  noFault : s.fault = false

section Slots

variable {s s' : Slot} {l : Ledger} {o : Outbox UInt8}

theorem Ledger.after_eq {es : List ClientEvent} (hst : s.state ≠ .connectionInit) :
    l.after s s' es = { l with completed := l.completed + es.count .tx } :=
  if_neg fun h => hst h.1

theorem Ledger.after_quiet {es : List ClientEvent} (hst : s'.state ≠ .connectionWaitingFor)
    (hes : es.count .tx = 0) : l.after s s' es = l := by
  unfold Ledger.after
  rw [if_neg fun h => hst h.2, hes]
  rfl

theorem Slot.Wrote.congr (h : s.Wrote l o) (hw : s'.written = s.written) : s'.Wrote l o :=
  ⟨h.accepted, h.sent, h.sound, hw.trans h.written⟩

/-- A slot without a socket keeps what its last connection was. -/
theorem Slot.Streams.rest (h : s.Streams l) (hw : s'.written = s.written)
    (hf : s'.fault = s.fault) (hns : ¬ s'.HasSocket)
    (hq : s'.datNode = [] ∨ s'.state = .connectionClose ∧ s'.datNode = s.datNode ∧
      s'.hSocket = s.hSocket) : s'.Streams l := by
  obtain ⟨o, hwrote, -⟩ := h.wrote
  refine ⟨⟨o, hwrote.congr hw, fun hst => ?_⟩, fun hst => ?_, fun _ hst => ?_, fun hst => ?_,
    hf.trans h.noFault⟩
  · exact absurd (.inr (.inr hst)) hns
  · exact absurd (hst.imp_right .inl) hns
  · exact hq.resolve_right fun hq => hst hq.1
  · have hne := hst.resolve_left hns
    obtain ⟨-, hdat, hsock⟩ := hq.resolve_left hne
    rw [hsock]
    exact h.socket (.inr (hdat ▸ hne))

/-- A new socket has no past. -/
theorem streams_fresh (hidle : s.state ≠ .connectionWaitingFor → s.stx = .idle)
    (hw : s.written = []) (hq : s.datNode = []) (hsock : s.hSocket ≠ invalidSocket)
    (hf : s.fault = false) : s.Streams ⟨[], 0⟩ := by
  refine ⟨⟨.empty, ⟨rfl, rfl, Outbox.sound_empty, hw⟩, fun hest => ⟨?_, ?_, ?_⟩⟩,
    fun _ => ⟨rfl, hw, fun h => hidle (by rw [h]; rintro ⟨⟩)⟩, fun _ _ => hq, fun _ => hsock, hf⟩
  · rw [hq]
    rfl
  · rw [hq]
    rintro _ ⟨⟩
  · exact .inl ⟨hidle (by rw [hest]; rintro ⟨⟩), rfl⟩

/-! ## The stream of an established connection -/

/-- **`tx_task`** writes what the outbox does, and reports a message when it is over. -/
theorem txTask_sends (io : NetIo) (h : Heap) (hw : s.Wrote l o) (hs : s.Sends o)
    (hf : s.fault = false) : ∃ o', (s.txTask io h).1.Wrote
        { l with completed := l.completed + (s.txTask io h).2.2.count .tx } o' ∧
      (s.txTask io h).1.Sends o' ∧ (s.txTask io h).1.fault = false ∧
      (s.txTask io h).1.state = s.state ∧ (s.txTask io h).1.hSocket = s.hSocket := by
  unfold Slot.txTask
  rcases hs.stream with ⟨hidle, h0⟩ | ⟨hsending, hne, hoff⟩
  · rw [hidle]
    dsimp only
    split
    · rename_i hne
      exact ⟨o, ⟨hw.accepted, hw.sent, hw.sound, hw.written⟩,
        ⟨hs.queue, hs.lengths, .inr ⟨rfl, hne, h0.symm⟩⟩, hf, rfl, rfl⟩
    · exact ⟨o, ⟨hw.accepted, hw.sent, hw.sound, hw.written⟩, hs, hf, rfl, rfl⟩
  · rw [hsending]
    dsimp only
    cases hq : s.datNode with
    | nil => exact absurd hq hne
    | cons n rest =>
      obtain ⟨hlen, hpos, hmax⟩ := hs.lengths n (by rw [hq]; exact List.mem_cons_self)
      have hqueue : o.queue = n.data.2 :: rest.map (fun n => n.data.2) := by
        rw [← hs.queue, hq]
        rfl
      have hlt : o.offset < n.data.2.length := by
        rcases hw.sound.offset_lt with h0 | hlt
        · omega
        · rwa [hqueue] at hlt
      dsimp only
      split
      · split
        · rename_i hcap hpart
          -- a piece of the message
          rw [hoff, hlen] at hpart
          refine ⟨o.put (io.writeIsReady % 65536), ⟨hw.accepted, hw.sent,
            hw.sound.put hqueue (by omega), ?_⟩, ⟨?_, ?_, ?_⟩, hf, rfl, rfl⟩
          · rw [Outbox.written_put hqueue, ← hw.written, ← hoff]
          · exact hqueue.symm
          · show ∀ m ∈ n :: rest, _
            rw [← hq]
            exact hs.lengths
          · refine .inr ⟨rfl, List.cons_ne_nil _ _, ?_⟩
            show (s.curDataOffset + io.writeIsReady % 65536) % 65536 = o.offset + _
            rw [hoff, Nat.mod_eq_of_lt (by omega)]
        · -- the rest of it
          refine ⟨o.finish, ⟨hw.accepted, ?_, .finish hqueue, ?_⟩, ⟨?_, ?_, ?_⟩, hf, rfl, rfl⟩
          · exact congrArg (· + 1) hw.sent
          · rw [Outbox.written_finish hqueue, ← hw.written, ← hoff]
            refine congrArg _ (List.take_of_length_le ?_)
            rw [List.length_drop, hlen]
          · exact (Outbox.queue_finish hqueue).symm
          · exact fun m hm => hs.lengths m (by rw [hq]; exact List.mem_cons_of_mem _ hm)
          · exact .inl ⟨rfl, rfl⟩
      · exact ⟨o, ⟨hw.accepted, hw.sent, hw.sound, hw.written⟩, hs, hf, rfl, rfl⟩

/-- **A pass of the task** over a slot keeps the invariant. -/
theorem task_streams (io : NetIo) (h : Heap) (hI : s.Streams l) :
    (s.task io h).1.Streams (l.after s (s.task io h).1 (s.task io h).2.2) := by
  -- a state without a socket comes next
  have hrest : ∀ {s' : Slot} {es : List ClientEvent}, es.count .tx = 0 →
      s'.written = s.written → s'.fault = s.fault → ¬ s'.HasSocket →
      (s'.datNode = [] ∨ s'.state = .connectionClose ∧ s'.datNode = s.datNode ∧
        s'.hSocket = s.hSocket) → s'.Streams (l.after s s' es) := by
    intro s' es hes hw hf hns hq
    rw [Ledger.after_quiet (fun hst => hns (.inl hst)) hes]
    exact hI.rest hw hf hns hq
  have hdrained : ∀ {q : TcpState}, s.state = q → q ≠ .connectionStablished →
      q ≠ .connectionClose → s.datNode = [] := by
    rintro q rfl h₁ h₂
    exact hI.drained h₁ h₂
  -- nothing happened
  have hsame : s.state ≠ .connectionInit → s.Streams (l.after s s []) := by
    intro hst
    rw [Ledger.after_eq hst]
    exact hI
  unfold Slot.task
  cases hst : s.state with
  | idle => exact hsame (by rw [hst]; rintro ⟨⟩)
  | dnsResolveHostAddress =>
    have hq := hdrained hst (by rintro ⟨⟩) (by rintro ⟨⟩)
    dsimp only
    split
    · exact hrest rfl rfl rfl (by rintro (h | h | h) <;> cases h) (.inl hq)
    · split
      · exact hrest rfl rfl rfl (by rintro (h | h | h) <;> cases h) (.inl hq)
      · exact hrest rfl rfl rfl (by rintro (h | h | h) <;> cases h) (.inl hq)
  | dnsWait =>
    have hq := hdrained hst (by rintro ⟨⟩) (by rintro ⟨⟩)
    dsimp only
    split
    · exact hrest rfl rfl rfl (by rintro (h | h | h) <;> cases h) (.inl hq)
    · split
      · exact hrest rfl rfl rfl (by rintro (h | h | h) <;> cases h) (.inl hq)
      · split
        · exact hrest rfl rfl rfl (by rintro (h | h | h) <;> cases h) (.inl hq)
        · exact hrest rfl rfl rfl (by rintro (h | h | h) <;> cases h) (.inl hq)
  | dnsTimeout =>
    exact hrest rfl rfl rfl (by rintro (h | h | h) <;> cases h)
      (.inl (hdrained hst (by rintro ⟨⟩) (by rintro ⟨⟩)))
  | dnsError =>
    exact hrest rfl rfl rfl (by rintro (h | h | h) <;> cases h)
      (.inl (hdrained hst (by rintro ⟨⟩) (by rintro ⟨⟩)))
  | connectionInit =>
    have hq := hdrained hst (by rintro ⟨⟩) (by rintro ⟨⟩)
    dsimp only
    split
    · exact hrest rfl rfl rfl (by rintro (h | h | h) <;> cases h) (.inl hq)
    · rename_i hsock
      rw [Ledger.after, if_pos ⟨hst, rfl⟩]
      exact streams_fresh (fun h => absurd rfl h) rfl hq hsock hI.noFault
  | connectionWaitingFor =>
    have hq := hdrained hst (by rintro ⟨⟩) (by rintro ⟨⟩)
    have hsock := hI.socket (.inl (.inl hst))
    obtain ⟨rfl, hw, -⟩ := hI.fresh (.inl hst)
    have hafter : ∀ (s' : Slot) {es : List ClientEvent}, es.count .tx = 0 →
        Ledger.after ⟨[], 0⟩ s s' es = ⟨[], 0⟩ := by
      intro s' es hes
      rw [Ledger.after_eq (by rw [hst]; rintro ⟨⟩), hes]
    dsimp only
    split
    · split
      · split
        · rw [hafter _ rfl]
          exact streams_fresh (fun _ => rfl) hw hq hsock hI.noFault
        · exact hrest rfl rfl rfl (by rintro (h | h | h) <;> cases h) (.inl hq)
      · rw [hafter _ rfl]
        exact streams_fresh (fun _ => rfl) hw hq hsock hI.noFault
    · split
      · exact hrest rfl rfl rfl (by rintro (h | h | h) <;> cases h) (.inl hq)
      · exact hsame (by rw [hst]; rintro ⟨⟩)
  | connectionSslNegotiationWait =>
    have hq := hdrained hst (by rintro ⟨⟩) (by rintro ⟨⟩)
    have hsock := hI.socket (.inl (.inr (.inl hst)))
    obtain ⟨rfl, hw, hidle⟩ := hI.fresh (.inr hst)
    dsimp only
    split
    · split
      · exact hrest rfl rfl rfl (by rintro (h | h | h) <;> cases h) (.inl hq)
      · exact hsame (by rw [hst]; rintro ⟨⟩)
    · split
      · rw [Ledger.after_eq (by rw [hst]; rintro ⟨⟩)]
        exact streams_fresh (fun _ => hidle hst) hw hq hsock hI.noFault
      · exact hrest rfl rfl rfl (by rintro (h | h | h) <;> cases h) (.inl hq)
  | connectionStablished =>
    obtain ⟨o, hwrote, hsends⟩ := hI.wrote
    obtain ⟨o', hw', hs', hf', hst', hsock'⟩ := txTask_sends io h hwrote (hsends hst) hI.noFault
    have hsock := hI.socket (.inl (.inr (.inr hst)))
    dsimp only
    split
    · exact hrest rfl rfl rfl (by rintro (h | h | h) <;> cases h) (.inr ⟨rfl, rfl, rfl⟩)
    · rw [Ledger.after_eq (by rw [hst]; rintro ⟨⟩)]
      have hcount : ∀ es : List ClientEvent,
          (if (s.txTask io h).1.rx ≠ [] then es ++ [.rx] else es).count .tx = es.count .tx := by
        intro es
        split
        · rw [List.count_append]
          rfl
        · rfl
      rw [hcount]
      have hest : (s.txTask io h).1.state = .connectionStablished := hst'.trans hst
      refine ⟨⟨o', hw', fun _ => hs'⟩, ?_, fun h => absurd hest h, fun _ => ?_, hf'⟩
      · rintro (h | h) <;> cases hest.symm.trans h
      · rwa [hsock']
  | connectionTimeout =>
    exact hrest rfl rfl rfl (by rintro (h | h | h) <;> cases h) (.inr ⟨rfl, rfl, rfl⟩)
  | connectionError =>
    exact hrest rfl rfl rfl (by rintro (h | h | h) <;> cases h) (.inr ⟨rfl, rfl, rfl⟩)
  | connectionClose =>
    exact hrest rfl rfl rfl (by rintro (h | h | h) <;> cases h) (.inl rfl)
  | waitForRetry =>
    have hq := hdrained hst (by rintro ⟨⟩) (by rintro ⟨⟩)
    dsimp only
    split
    · exact hrest rfl rfl rfl (by rintro (h | h | h) <;> cases h) (.inl hq)
    · exact hsame (by rw [hst]; rintro ⟨⟩)

/-! ## The interface -/

/-- What the invariant reads of a slot is not changed. -/
theorem Slot.Streams.of_same (h : s.Streams l) (hst : s'.state = s.state)
    (hw : s'.written = s.written) (hq : s'.datNode = s.datNode) (hstx : s'.stx = s.stx)
    (hoff : s'.curDataOffset = s.curDataOffset) (hsock : s'.hSocket = s.hSocket)
    (hf : s'.fault = s.fault) : s'.Streams l := by
  obtain ⟨o, hwrote, hsends⟩ := h.wrote
  refine ⟨⟨o, hwrote.congr hw, ?_⟩, ?_, ?_, ?_, ?_⟩
  · rw [hst]
    intro hest
    obtain ⟨hqueue, hlen, hstream⟩ := hsends hest
    refine ⟨?_, ?_, ?_⟩
    · rwa [hq]
    · rwa [hq]
    · rwa [hstx, hoff, hq]
  · rw [hst, hw, hstx]
    exact h.fresh
  · rw [hst, hq]
    exact h.drained
  · unfold Slot.HasSocket
    rw [hst, hq, hsock]
    exact h.socket
  · rw [hf]
    exact h.noFault

/-- A message is accepted. -/
theorem Slot.Streams.push (h : s.Streams l) (hst : s.state = .connectionStablished) {n : Node}
    {m : Bytes} (hm : m ≠ []) (hfits : m.length < 65536) (hdata : n.data.2 = m)
    (hlen : n.dataLength = m.length) : Slot.Streams { s with
      datNode := listPushNode s.datNode n } { l with accepted := l.accepted ++ [m] } := by
  obtain ⟨o, hwrote, hsends⟩ := h.wrote
  obtain ⟨hqueue, hlens, hstream⟩ := hsends hst
  refine ⟨⟨o.accept m, ⟨?_, hwrote.sent, hwrote.sound.accept, ?_⟩, fun _ => ⟨?_, ?_, ?_⟩⟩, ?_, ?_,
    ?_, h.noFault⟩
  · exact congrArg (· ++ [m]) hwrote.accepted
  · rw [Outbox.written_accept hwrote.sound]
    exact hwrote.written
  · rw [Outbox.queue_accept hwrote.sound, ← hqueue, listPushNode, List.map_append, ← hdata]
    rfl
  · intro k hk
    rcases List.mem_append.mp hk with hk | hk
    · exact hlens k hk
    · obtain rfl := List.mem_singleton.mp hk
      have hpos := List.length_pos_of_ne_nil hm
      rw [hlen, hdata]
      exact ⟨rfl, hpos, hfits⟩
  · rcases hstream with ⟨hidle, h0⟩ | ⟨hsending, hne, hoff⟩
    · exact .inl ⟨hidle, h0⟩
    · exact .inr ⟨hsending, List.append_ne_nil_of_left_ne_nil hne _, hoff⟩
  · rintro (h | h) <;> cases hst.symm.trans h
  · exact fun h => absurd hst h
  · exact fun _ => h.socket (.inl (.inr (.inr hst)))

theorem Slot.Streams.opened (h : s.Streams l) (hst : s.state = .idle) (hw : s'.written = s.written)
    (hf : s'.fault = s.fault) (hq : s'.datNode = s.datNode)
    (hst' : s'.state = .dnsResolveHostAddress ∨ s'.state = .connectionInit) : s'.Streams l := by
  refine h.rest hw hf ?_ (.inl ?_)
  · rcases hst' with hst' | hst' <;> rintro (h | h | h) <;> cases hst'.symm.trans h
  · rw [hq]
    exact h.drained (by rw [hst]; rintro ⟨⟩) (by rw [hst]; rintro ⟨⟩)

theorem Slot.Streams.reset (h : s.Streams l) : s.reset.Streams l := by
  unfold Slot.reset
  split
  · exact h.rest rfl rfl (by rintro (h | h | h) <;> cases h) (.inl rfl)
  · rename_i hsock
    refine h.rest rfl rfl (by rintro (h | h | h) <;> cases h) (.inl ?_)
    by_contra hne
    exact hsock (h.socket (.inr hne))

end Slots

/-! ## The system -/

section System

variable {y y' : TcpSys}

/-- Every slot keeps to its ledger. -/
def TcpSys.Streams (y : TcpSys) : Prop := ∀ sid, (y.slots sid).Streams (y.ledgers sid)

theorem streams_update {h : Heap} {slots : Slots} {ledgers : Fin tcpClientMaxSockets → Ledger}
    {sid : Fin tcpClientMaxSockets} {s : Slot} {l : Ledger}
    (hI : ∀ i, (slots i).Streams (ledgers i)) (hs : s.Streams l) :
    TcpSys.Streams ⟨h, Function.update slots sid s, Function.update ledgers sid l⟩ := by
  intro i
  by_cases hi : i = sid
  · subst hi
    show (Function.update slots i s i).Streams (Function.update ledgers i l i)
    rwa [Function.update_self, Function.update_self]
  · show (Function.update slots sid s i).Streams (Function.update ledgers sid l i)
    rw [Function.update_of_ne hi, Function.update_of_ne hi]
    exact hI i

/-- The same, when the ledgers stay. -/
theorem streams_slot {h : Heap} {slots : Slots} {ledgers : Fin tcpClientMaxSockets → Ledger}
    {sid : Fin tcpClientMaxSockets} {s : Slot} (hI : ∀ i, (slots i).Streams (ledgers i))
    (hs : s.Streams (ledgers sid)) :
    TcpSys.Streams ⟨h, Function.update slots sid s, ledgers⟩ := by
  have hup := @streams_update h slots ledgers sid s _ hI hs
  rwa [Function.update_eq_self] at hup

/-- `tcp_client_send` accepts a message on an established slot, or changes no slot. -/
theorem tcpClientSend_cases (h : Heap) (slots : Slots) (sid : Fin tcpClientMaxSockets)
    (data : Packet) :
    (∃ res h', tcpClientSend h slots sid data.bytes data.bytes.length = (res, h', slots) ∧
      (res = .success → data.bytes = [])) ∨
    (slots sid).state = .connectionStablished ∧ data.bytes ≠ [] ∧ ∃ (h' : Heap) (n : Node),
      n.data.2 = data.bytes ∧ n.dataLength = data.bytes.length ∧
      tcpClientSend h slots sid data.bytes data.bytes.length =
        (.success, h', Function.update slots sid
          { slots sid with datNode := listPushNode (slots sid).datNode n }) := by
  have hsid : (⟨sid, sid.isLt⟩ : Fin tcpClientMaxSockets) = sid := rfl
  unfold tcpClientSend
  rw [dif_pos sid.isLt, hsid, Nat.mod_eq_of_lt data.fits]
  split
  · rename_i hst
    dsimp only
    split
    · rename_i hpos
      cases hnew : listNewNode h data.bytes data.bytes.length with
      | mk node h' =>
        cases node with
        | none => exact .inl ⟨_, _, rfl, by rintro ⟨⟩⟩
        | some n =>
          obtain ⟨-, hlen, hdata⟩ := listNewNode_data hnew
          refine .inr ⟨hst, List.ne_nil_of_length_pos hpos, h', n, ?_, ?_, rfl⟩
          · rw [hdata, List.take_length]
          · rw [hlen, Nat.mod_eq_of_lt data.fits]
    · rename_i hpos
      exact .inl ⟨_, _, rfl, fun _ => List.eq_nil_of_length_eq_zero (Nat.eq_zero_of_not_pos hpos)⟩
  · exact .inl ⟨_, _, rfl, by rintro ⟨⟩⟩

theorem firstIdle_idle {slots : Slots} {i : Fin tcpClientMaxSockets}
    (h : firstIdle slots = some i) : (slots i).state = .idle := by
  have hfound := List.find?_some h
  exact of_decide_eq_true hfound

theorem streams_of_step {e : TcpEvent} (hI : y.Streams) (hs : tcpStep y e = some y') :
    y'.Streams := by
  cases e with
  | task io =>
    obtain rfl := Option.some.inj hs
    have hfold : ∀ (sids : List (Fin tcpClientMaxSockets)) (y : TcpSys), y.Streams →
        (sids.foldl (fun y sid => y.taskSlot (io sid) sid) y).Streams := by
      intro sids
      induction sids with
      | nil => intro y hI; exact hI
      | cons sid sids ih =>
        intro y hI
        exact ih _ (streams_update hI (task_streams (io sid) y.heap (hI sid)))
    exact hfold _ y hI
  | receive sid bs =>
    obtain rfl := Option.some.inj hs
    exact streams_slot hI ((hI sid).of_same rfl rfl rfl rfl rfl rfl rfl)
  | openHost host port tls cb =>
    obtain rfl := Option.some.inj hs
    unfold tcpClientOpenHost
    cases hidle : firstIdle y.slots with
    | none => exact hI
    | some i =>
      dsimp only
      have hst := firstIdle_idle hidle
      split
      · exact streams_slot hI ((hI i).opened hst rfl rfl rfl (.inl rfl))
      · exact streams_slot hI ((hI i).opened hst rfl rfl rfl (.inl rfl))
  | openIp ip port tls cb =>
    obtain rfl := Option.some.inj hs
    unfold tcpClientOpenIp
    cases hidle : firstIdle y.slots with
    | none => exact hI
    | some i => exact streams_slot hI ((hI i).opened (firstIdle_idle hidle) rfl rfl rfl (.inr rfl))
  | send sid data =>
    obtain rfl := Option.some.inj hs
    unfold TcpSys.send
    rcases tcpClientSend_cases y.heap y.slots sid data with ⟨res, h', heq, hres⟩ |
      ⟨hst, hne, h', n, hdata, hlen, heq⟩
    · rw [heq]
      dsimp only
      rw [if_neg fun h => h.2 (hres h.1)]
      exact hI
    · rw [heq]
      dsimp only
      rw [if_pos ⟨rfl, hne⟩]
      exact streams_update hI ((hI sid).push hst hne data.fits hdata hlen)
  | getRx sid limit request =>
    obtain rfl := Option.some.inj hs
    unfold tcpClientGetRx
    split
    · exact streams_slot hI ((hI sid).of_same rfl rfl rfl rfl rfl rfl rfl)
    · exact hI
  | close sid =>
    obtain rfl := Option.some.inj hs
    unfold tcpClientClose
    rw [dif_pos sid.isLt]
    split
    · exact streams_slot hI ((hI sid).rest rfl rfl (by rintro (h | h | h) <;> cases h)
        (.inr ⟨rfl, rfl, rfl⟩))
    · exact hI
  | reset =>
    obtain rfl := Option.some.inj hs
    exact fun sid => (hI sid).reset

theorem streams_tcpInit (grants : Nat → Bool) : (tcpInit grants).Streams := by
  intro sid
  refine ⟨⟨.empty, ⟨rfl, rfl, Outbox.sound_empty, rfl⟩, ?_⟩, ?_, fun _ _ => rfl, ?_, rfl⟩
  · intro h
    cases h
  · rintro (h | h) <;> cases h
  · rintro ((h | h | h) | h)
    · cases h
    · cases h
    · cases h
    · exact absurd rfl h

theorem Slot.Streams.served {s : Slot} {l : Ledger} (h : s.Streams l) : s.Transmits l := by
  obtain ⟨o, ⟨hacc, hsent, hsound, hw⟩, -⟩ := h.wrote
  refine ⟨?_, ⟨(o.queue.headD []).take o.offset, ?_, ?_⟩, h.noFault⟩
  · rw [hw, ← hacc]
    exact Outbox.written_isPrefix
  · rw [hw, ← hacc, ← hsent]
    rfl
  · rcases hsound.offset_lt with h0 | hlt
    · left
      rw [h0, List.take_zero]
    · right
      cases hq : o.queue with
      | nil =>
        rw [hq] at hlt
        exact absurd hlt (Nat.not_lt_zero _)
      | cons m q =>
        rw [hq] at hlt
        refine ⟨m, ?_, List.take_prefix _ _, ?_⟩
        · rw [← hacc, ← hsent]
          exact Outbox.getElem_sent hq
        · show (m.take o.offset).length < m.length
          rw [List.length_take]
          exact (Nat.min_le_left _ _).trans_lt hlt

/-- **Every connection of a TCP client is served in order.** -/
theorem transmits {grants : Nat → Bool} {es : List TcpEvent}
    (hr : run tcpStep (tcpInit grants) es = some y) (sid : Fin tcpClientMaxSockets) :
    (y.slots sid).Transmits (y.ledgers sid) := by
  have hI := inv_of_run (I := TcpSys.Streams) (fun _ _ _ hI _ hs => streams_of_step hI hs)
    (streams_tcpInit grants) along_true hr
  exact (hI sid).served

end System

/-! ## A run -/

/-- What the network stack answers to a slot that connects at once. -/
def connectingIo (capacity : Nat) : NetIo where
  now := 0
  dnsResolve := 0
  dnsIsResolved := 0
  address := 0
  socketOpen := 1
  isConnected := true
  encryptSocket := true
  isNegotiating := false
  isSecure := true
  wasReset := false
  wasDisconnected := false
  writeIsReady := capacity

/-- Two messages on a connection: the first one in two pieces, then a bit of the second one. -/
def twoMessages : List TcpEvent :=
  [.openIp 0 80 false (.other 0), .task fun _ => connectingIo 0, .task fun _ => connectingIo 0,
    .send 0 ⟨ascii "hello", by decide⟩, .send 0 ⟨ascii "world", by decide⟩,
    .task fun _ => connectingIo 3, .task fun _ => connectingIo 3, .task fun _ => connectingIo 3,
    .task fun _ => connectingIo 3, .task fun _ => connectingIo 3]

theorem transmits_twoMessages : ∃ y, run tcpStep (tcpInit fun _ => true) twoMessages = some y ∧
    (y.slots 0).written = ascii "hellowor" ∧ (y.slots 0).Transmits (y.ledgers 0) := by
  have hwritten : (run tcpStep (tcpInit fun _ => true) twoMessages).map
      (fun y => (y.slots 0).written) = some (ascii "hellowor") := by decide +kernel
  obtain ⟨y, hr, hy⟩ := Option.map_eq_some_iff.mp hwritten
  exact ⟨y, hr, hy, transmits hr 0⟩

end Rastreo.Net
