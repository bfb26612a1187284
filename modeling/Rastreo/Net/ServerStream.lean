import Rastreo.Net.ServerSessions

/-!
# What a server slot puts on a connection

A slot has one queue and one stream for all the connections it will ever have. Only an abort, a
close and a reset empty the queue, and only a reset sets the stream back: after a FIN or a forced
disconnect what was not sent waits for the next connection.

* `Holds`: what a slot put is what an outbox wrote, of messages it was given on this connection,
  and while its stream can run its queue is what the outbox has left.
* `holds_send`, `holds_txTask`: `tcp_server_send` and `tx_task` on the outbox.
* `Abreast`: two slots that differ in what their last connections left, and in nothing else.
* **`separates`**: in a run where each connection finds the queue empty and the stream idle, a
  connection gets a prefix of the messages that were passed on it, and what it gets does not
  depend on what was queued before it.
-/

namespace Rastreo.Net

open Rastreo.Lib

/-! ## The condition -/

/-- A new connection finds nothing to send, and no memory is denied. -/
def Separate (y : ServerSys) (e : ServerStep) : Prop :=
  (∀ y' ∈ serverStep y e, y'.heap.denied = false) ∧
    match e with
    | .signal i _ _ .established =>
      (y.servers i).out.queueData = [] ∧ (y.servers i).out.state = .idle
    | _ => True

/-- **After the step every slot has put messages of its connection**, in order. -/
def PutsPassed (y : ServerSys) (e : ServerStep) : Prop :=
  ∀ y', serverStep y e = some y' → ∀ i,
    (y'.servers i).put <+: (y'.servers i).passed.flatten

/-- Two slots that differ in what was queued and sent. -/
structure SameButQueued (s t : ServerSlot) : Prop where
  inUse : s.inUse = t.inUse
  hSocket : s.hSocket = t.hSocket
  state : s.state = t.state
  rxP : s.rxP = t.rxP
  cb : s.cb = t.cb

/-! ## The outbox of a slot -/

/-- What the slot has put is what an outbox wrote. -/
structure ServerSlot.Puts (s : ServerSlot) (o : Outbox UInt8) : Prop where
  sound : o.Sound
  put : s.put = o.written
  accepted : o.accepted <+: s.passed.filter (· ≠ [])
  /-- An established slot queues all it is given. -/
  all : s.state = .connectionStablished → o.accepted = s.passed.filter (· ≠ [])

/-- The queue and the stream are those of the outbox. -/
structure ServerSlot.Carries (s : ServerSlot) (o : Outbox UInt8) : Prop where
  queue : s.out.queueData.map (fun n => n.data.2) = o.queue
  lengths : ∀ n ∈ s.out.queueData,
    n.dataLength = n.data.2.length ∧ 0 < n.dataLength ∧ n.dataLength < 65536
  stream : s.out.state = .idle ∧ o.offset = 0 ∨
    s.out.state = .sending ∧ s.out.queueData ≠ [] ∧ s.out.dataIndex = o.offset

/-- **The invariant of a slot**, with `b` for whether its stream can run: it can while it is
established, and for the rest of a pass that found it so. -/
structure ServerSlot.Holds (b : Prop) (s : ServerSlot) : Prop where
  runs : s.state = .connectionStablished → b
  outbox : ∃ o : Outbox UInt8, s.Puts o ∧ (b → s.Carries o)

section Slots

variable {b : Prop} {s s' : ServerSlot} {o : Outbox UInt8}

theorem ServerSlot.Holds.now (h : s.Holds b) : s.Holds (s.state = .connectionStablished) :=
  ⟨id, h.outbox.imp fun _ ho => ⟨ho.1, fun hst => ho.2 (h.runs hst)⟩⟩

theorem ServerSlot.Carries.of_out (h : s.Carries o) (ho : s'.out = s.out) : s'.Carries o := by
  obtain ⟨hq, hl, hs⟩ := h
  refine ⟨?_, ?_, ?_⟩ <;> rwa [ho]

/-- A slot whose stream cannot run needs no more than what it put. -/
theorem ServerSlot.Holds.leave (h : s.Holds b) (hst : s'.state ≠ .connectionStablished)
    (hp : s'.put = s.put) (hm : s'.passed = s.passed) :
    s'.Holds (s'.state = .connectionStablished) := by
  obtain ⟨o, hputs, -⟩ := h.outbox
  refine ⟨id, o, ⟨hputs.sound, hp.trans hputs.put, ?_, fun h => absurd h hst⟩,
    fun h => absurd h hst⟩
  rw [hm]
  exact hputs.accepted

/-- Any other change, of neither the state nor the stream. -/
theorem ServerSlot.Holds.of_same (h : s.Holds b) (hst : s'.state = s.state) (ho : s'.out = s.out)
    (hp : s'.put = s.put) (hm : s'.passed = s.passed) : s'.Holds b := by
  obtain ⟨o, hputs, hcarries⟩ := h.outbox
  refine ⟨fun h' => h.runs (hst.symm.trans h'), o, ⟨hputs.sound, hp.trans hputs.put, ?_, ?_⟩,
    fun hb => (hcarries hb).of_out ho⟩
  · rw [hm]
    exact hputs.accepted
  · rw [hm, hst]
    exact hputs.all

/-- A new connection on a slot with nothing left. -/
theorem holds_established (address : UInt32) (port : UInt16) (hq : s.out.queueData = [])
    (hst : s.out.state = .idle) :
    (s.tcpEventCallback address port .established).Holds
      ((s.tcpEventCallback address port .established).state = .connectionStablished) := by
  unfold ServerSlot.tcpEventCallback
  dsimp only
  rw [emitEvent_eq]
  refine ⟨id, .empty, ⟨Outbox.sound_empty, rfl, List.nil_prefix, fun _ => rfl⟩,
    fun _ => ⟨?_, ?_, .inl ⟨hst, rfl⟩⟩⟩
  · show s.out.queueData.map _ = []
    rw [hq]
    rfl
  · show ∀ n ∈ s.out.queueData, _
    rw [hq]
    rintro _ ⟨⟩

/-- What `tcp_server_send` does when it gets the memory it asks for. -/
theorem send_eq {hp : Heap} {data : Packet} (hd : (s.send hp data).2.denied = false) :
    (s.state = .connectionStablished → data.bytes = []) ∧
      (s.send hp data).1 = { s with passed := s.passed ++ [data.bytes] } ∨
    s.state = .connectionStablished ∧ data.bytes ≠ [] ∧ ∃ n : Node,
      n.data.2 = data.bytes ∧ n.dataLength = data.bytes.length ∧
      (s.send hp data).1 = { s with
        passed := s.passed ++ [data.bytes]
        out := { s.out with queueData := s.out.queueData ++ [n] } } := by
  unfold ServerSlot.send at hd ⊢
  dsimp only at hd ⊢
  by_cases hst : s.state = .connectionStablished
  · rw [if_pos hst] at hd ⊢
    by_cases hm : data.bytes = []
    · -- an empty message makes no node
      have hnone : listNewNode hp data.bytes data.bytes.length = (none, hp) := by
        rw [hm]
        rfl
      rw [hnone]
      exact .inl ⟨fun _ => hm, rfl⟩
    · have hd' : (listNewNode hp data.bytes data.bytes.length).2.denied = false := by
        cases hnew : listNewNode hp data.bytes data.bytes.length with
        | mk node hp' =>
          rw [hnew] at hd
          cases node with
          | none => exact hd
          | some n => exact hd
      obtain ⟨n, hp', hnew⟩ := listNewNode_granted (List.length_pos_of_ne_nil hm) hd'
      obtain ⟨-, hlen, hdata⟩ := listNewNode_data hnew
      rw [hnew]
      refine .inr ⟨hst, hm, n, ?_, ?_, rfl⟩
      · rw [hdata, List.take_length]
      · rw [hlen, Nat.mod_eq_of_lt data.fits]
  · rw [if_neg hst]
    exact .inl ⟨fun h => absurd h hst, rfl⟩

/-- **`tcp_server_send`** accepts a message on an established slot. -/
theorem holds_send (h : s.Holds b) {hp : Heap} {data : Packet}
    (hd : (s.send hp data).2.denied = false) : (s.send hp data).1.Holds b := by
  obtain ⟨o, hputs, hcarries⟩ := h.outbox
  have hpassed : (s.passed ++ [data.bytes]).filter (· ≠ []) =
      s.passed.filter (· ≠ []) ++ [data.bytes].filter (· ≠ []) := List.filter_append _ _
  rcases send_eq hd with ⟨hst, heq⟩ | ⟨hst, hm, n, hdata, hlen, heq⟩
  · rw [heq]
    refine ⟨h.runs, o, ⟨hputs.sound, hputs.put, ?_, fun hest => ?_⟩, fun hb =>
      (hcarries hb).of_out rfl⟩
    · rw [hpassed]
      exact hputs.accepted.trans (List.prefix_append _ _)
    · rw [hpassed, hst hest, List.filter_cons_of_neg (by simp), List.filter_nil, List.append_nil]
      exact hputs.all hest
  · rw [heq]
    rw [List.filter_cons_of_pos (by simpa using hm), List.filter_nil] at hpassed
    obtain ⟨hqueue, hlens, hstream⟩ := hcarries (h.runs hst)
    refine ⟨h.runs, o.accept data.bytes, ⟨hputs.sound.accept, ?_, ?_, fun _ => ?_⟩,
      fun _ => ⟨?_, ?_, ?_⟩⟩
    · rw [Outbox.written_accept hputs.sound]
      exact hputs.put
    · show o.accepted ++ [data.bytes] <+: _
      rw [hpassed, hputs.all hst]
    · show o.accepted ++ [data.bytes] = _
      rw [hpassed, hputs.all hst]
    · rw [Outbox.queue_accept hputs.sound, ← hqueue, List.map_append, ← hdata]
      rfl
    · intro k hk
      rcases List.mem_append.mp hk with hk | hk
      · exact hlens k hk
      · obtain rfl := List.mem_singleton.mp hk
        rw [hlen, hdata]
        exact ⟨rfl, List.length_pos_of_ne_nil hm, data.fits⟩
    · rcases hstream with ⟨hidle, h0⟩ | ⟨hsending, hne, hoff⟩
      · exact .inl ⟨hidle, h0⟩
      · exact .inr ⟨hsending, List.append_ne_nil_of_left_ne_nil hne _, hoff⟩

/-- **`tx_task`** writes what the outbox does. -/
theorem holds_txTask (h : s.Holds b) (hb : b) (putIsReady : Nat) (hp : Heap) :
    (s.txTask putIsReady hp).1.Holds b := by
  obtain ⟨o, hputs, hcarries⟩ := h.outbox
  obtain ⟨hqueue, hlens, hstream⟩ := hcarries hb
  unfold ServerSlot.txTask
  rcases hstream with ⟨hidle, h0⟩ | ⟨hsending, hne, hoff⟩
  · rw [hidle]
    dsimp only
    split
    · rename_i hne
      exact ⟨h.runs, o, ⟨hputs.sound, hputs.put, hputs.accepted, hputs.all⟩,
        fun _ => ⟨hqueue, hlens, .inr ⟨rfl, hne, h0.symm⟩⟩⟩
    · exact h
  · rw [hsending]
    dsimp only
    split
    · cases hq : s.out.queueData with
      | nil => exact absurd hq hne
      | cons n rest =>
        obtain ⟨hlen, hpos, hmax⟩ := hlens n (by rw [hq]; exact List.mem_cons_self)
        have hoq : o.queue = n.data.2 :: rest.map (fun n => n.data.2) := by
          rw [← hqueue, hq]
          rfl
        have hlt : o.offset < n.data.2.length := by
          rcases hputs.sound.offset_lt with h0 | hlt
          · omega
          · rwa [hoq] at hlt
        dsimp only
        split
        · rename_i hleft
          refine ⟨h.runs, o.put (putIsReady % 65536), ⟨hputs.sound.put hoq (by omega), ?_,
            hputs.accepted, hputs.all⟩, fun _ => ⟨?_, ?_, .inr ⟨hsending, ?_, ?_⟩⟩⟩
          · rw [Outbox.written_put hoq, ← hputs.put, ← hoff]
            rfl
          · exact hqueue
          · exact hlens
          · exact hne
          · exact congrArg (· + _) hoff
        · have hleft : ((n.dataLength - s.out.dataIndex : Int) % 65536).toNat =
              n.data.2.length - o.offset := by omega
          rw [emitEvent_eq]
          refine ⟨h.runs, o.finish, ⟨.finish hoq, ?_, hputs.accepted, hputs.all⟩,
            fun _ => ⟨?_, ?_, .inl ⟨rfl, rfl⟩⟩⟩
          · rw [Outbox.written_finish hoq, ← hputs.put, hleft, hoff]
            refine congrArg (s.put ++ ·) (List.take_of_length_le ?_)
            rw [List.length_drop]
          · show (s.out.queueData.tail).map _ = _
            rw [Outbox.queue_finish hoq, hq]
            rfl
          · intro m hm
            exact hlens m (List.mem_of_mem_tail hm)
    · exact h

end Slots

/-! ## The steps -/

section System

variable {y y' : ServerSys}

/-- Every slot keeps to its connection. -/
def ServerSys.Holds (y : ServerSys) : Prop :=
  ∀ i, (y.servers i).Holds ((y.servers i).state = .connectionStablished)

/-- Nothing a slot does takes back that memory was denied. -/
theorem undenied_send {s : ServerSlot} {hp : Heap} {data : Packet}
    (hd : (s.send hp data).2.denied = false) : hp.denied = false := by
  refine @Heap.Keeps.undenied (fun _ => False) _ _ ?_ hd
  unfold ServerSlot.send
  dsimp only
  split
  · have hk := (listNewNode_spec hp data.bytes data.bytes.length).1
    cases hnew : listNewNode hp data.bytes data.bytes.length with
    | mk node hp' =>
      rw [hnew] at hk
      cases node with
      | none => exact hk.mono fun _ => False.elim
      | some n => exact hk.mono fun _ => False.elim
  · exact .refl

theorem undenied_txTask {s : ServerSlot} {putIsReady : Nat} {hp : Heap}
    (hd : (s.txTask putIsReady hp).2.denied = false) : hp.denied = false := by
  refine @Heap.Keeps.undenied (fun _ => False) _ _ ?_ hd
  unfold ServerSlot.txTask
  split
  · split
    · exact .refl
    · exact .refl
  · dsimp only
    split
    · split
      · exact .refl
      · split
        · exact .refl
        · exact keeps_listDeleteNode fun _ _ _ _ => id
    · exact .refl
  · exact keeps_listDeleteNode fun _ _ _ _ => id

theorem undenied_call {c : ServerCall} (hd : (y.call c).heap.denied = false) :
    y.heap.denied = false := by
  cases c with
  | send i data => exact undenied_send hd
  | forceDisconnect i => exact hd

theorem undenied_calls {cs : List ServerCall}
    (hd : (cs.foldl ServerSys.call y).heap.denied = false) : y.heap.denied = false := by
  induction cs generalizing y with
  | nil => exact hd
  | cons c cs ih => exact undenied_call (ih hd)

/-- A call, with the slots whose streams can run. -/
theorem holds_call {b : Fin tcpServerMaxSockets → Prop} {c : ServerCall}
    (hI : ∀ i, (y.servers i).Holds (b i)) (hd : (y.call c).heap.denied = false) :
    ∀ i, ((y.call c).servers i).Holds (b i) := by
  cases c with
  | send i data => exact ServerSys.forall_put_at hI (holds_send (hI i) hd)
  | forceDisconnect i =>
    refine ServerSys.forall_put_at hI ?_
    obtain ⟨o, hputs, hcarries⟩ := (hI i).outbox
    exact ⟨by rintro ⟨⟩, o, ⟨hputs.sound, hputs.put, hputs.accepted, by rintro ⟨⟩⟩,
      fun hb => (hcarries hb).of_out rfl⟩

theorem holds_calls {b : Fin tcpServerMaxSockets → Prop} {cs : List ServerCall}
    (hI : ∀ i, (y.servers i).Holds (b i))
    (hd : (cs.foldl ServerSys.call y).heap.denied = false) :
    ∀ i, ((cs.foldl ServerSys.call y).servers i).Holds (b i) := by
  induction cs generalizing y with
  | nil => exact hI
  | cons c cs ih => exact ih (holds_call hI (undenied_calls hd)) hd

theorem holds_pass (io : ServerIo) (i : Fin tcpServerMaxSockets) (hI : y.Holds)
    (hd : (serverPass io y i).heap.denied = false) : (serverPass io y i).Holds := by
  have hother : ∀ {z : ServerSys} {s : ServerSlot} {hp : Heap}, z.Holds →
      s.Holds (s.state = .connectionStablished) → (z.put i (s, hp)).Holds :=
    fun hz hs => @ServerSys.forall_put (fun s => s.Holds (s.state = .connectionStablished))
      _ _ _ hz hs
  unfold serverPass at hd ⊢
  dsimp only at hd ⊢
  cases hst : (y.servers i).state with
  | init =>
    refine hother hI ((hI i).leave ?_ rfl rfl)
    show (if _ then _ else _) ≠ _
    split <;> rintro ⟨⟩
  | openSocket =>
    refine hother hI ?_
    split
    · exact (hI i).leave (by rintro ⟨⟩) rfl rfl
    · exact (hI i).leave (by rintro ⟨⟩) rfl rfl
  | waitForConnection => exact hI
  | disable => exact hI
  | connectionStablished =>
    rw [hst] at hd
    have hd' := undenied_txTask hd
    have hrx : ∀ j, ((if (y.servers i).rxP then io.rx.foldl ServerSys.call y
        else y.put i ((y.servers i).called (.discard (y.servers i).hSocket), y.heap)).servers
          j).Holds ((y.servers j).state = .connectionStablished) := by
      split
      · rename_i hrxP
        rw [if_pos hrxP] at hd'
        exact holds_calls hI hd'
      · exact ServerSys.forall_put_at hI ((hI i).of_same rfl rfl rfl rfl)
    exact hother (fun j => (hrx j).now) (holds_txTask (hrx i) hst _ _).now
  | disconnecting =>
    rw [hst] at hd
    dsimp only at hd ⊢
    split
    · rename_i hrxP
      rw [if_pos hrxP] at hd
      have hrx : (io.rx.foldl ServerSys.call y).Holds := by
        refine fun j => (holds_calls hI ?_ j).now
        split at hd
        · exact hd
        · exact hd
      split
      · exact hother hrx ((hrx i).leave (by rintro ⟨⟩) rfl rfl)
      · exact hrx
    · exact hother hI ((hI i).leave (by rintro ⟨⟩) rfl rfl)
  | waitDisconnect =>
    dsimp only
    split
    · exact hother hI ((hI i).leave (by rintro ⟨⟩) (emitEvent_keeps _ _).2.2.2.1
        (emitEvent_keeps _ _).2.2.2.2)
    · exact hI
  | waitAbort =>
    dsimp only
    split
    · exact hother hI ((hI i).leave (by rintro ⟨⟩) (emitEvent_keeps _ _).2.2.2.1
        (emitEvent_keeps _ _).2.2.2.2)
    · exact hI
  | aborting => exact hother hI ((hI i).leave (by rintro ⟨⟩) rfl rfl)
  | close => exact hother hI ((hI i).leave (by rintro ⟨⟩) rfl rfl)
  | waitClose =>
    exact hother hI ((hI i).leave (by rintro ⟨⟩) (emitEvent_keeps _ _).2.2.2.1
      (emitEvent_keeps _ _).2.2.2.2)

theorem reset_keeps (s : ServerSlot) (hp : Heap) : (s.reset hp).1.state = .init ∧
    (s.reset hp).1.put = s.put ∧ (s.reset hp).1.passed = s.passed := by
  unfold ServerSlot.reset
  split
  · unfold ServerSlot.clearStream
    split <;> exact ⟨rfl, rfl, rfl⟩
  · exact ⟨rfl, rfl, rfl⟩

theorem holds_of_step {e : ServerStep} (hI : y.Holds) (hC : Separate y e)
    (hs : serverStep y e = some y') : y'.Holds := by
  obtain ⟨hd, hC⟩ := hC
  have hput : ∀ {i : Fin tcpServerMaxSockets} {s : ServerSlot} {hp : Heap},
      s.Holds (s.state = .connectionStablished) → (y.put i (s, hp)).Holds :=
    fun hs => @ServerSys.forall_put (fun s => s.Holds (s.state = .connectionStablished))
      _ _ _ hI hs
  cases e with
  | signal i address port sig =>
    obtain rfl := Option.some.inj hs
    cases sig with
    | established => exact hput (holds_established address port hC.1 hC.2)
    | rxFin => exact hput ((hI i).leave (by rintro ⟨⟩) rfl rfl)
    | rxRst => exact hput ((hI i).leave (by rintro ⟨⟩) rfl rfl)
    | other => exact hput (hI i)
  | pass i io =>
    have hd := hd y' hs
    obtain rfl := Option.some.inj hs
    exact holds_pass io i hI hd
  | config listenPort rxP cb =>
    obtain rfl := Option.some.inj hs
    show (tcpServerConfig y listenPort rxP cb).2.Holds
    unfold tcpServerConfig
    split
    · exact hI
    · exact hput ((hI _).leave (by rintro ⟨⟩) rfl rfl)
  | call c =>
    have hd := hd y' hs
    obtain rfl := Option.some.inj hs
    exact fun j => (holds_call hI hd j).now
  | reset =>
    obtain rfl := Option.some.inj hs
    have hfold : ∀ (is : List (Fin tcpServerMaxSockets)) (y : ServerSys), y.Holds →
        (is.foldl (fun y i => y.put i ((y.servers i).reset y.heap)) y).Holds := by
      intro is
      induction is with
      | nil => exact fun _ hy => hy
      | cons i is ih =>
        intro y hy
        refine ih _ (@ServerSys.forall_put (fun s => s.Holds (s.state = .connectionStablished))
          _ _ _ hy ((hy i).leave ?_ ?_ ?_))
        · rw [(reset_keeps _ _).1]
          rintro ⟨⟩
        · exact (reset_keeps _ _).2.1
        · exact (reset_keeps _ _).2.2
    exact hfold _ y hI

theorem holds_serverInit (grants : Nat → Bool) : (serverInit grants).Holds := by
  intro i
  refine ⟨id, .empty, ⟨Outbox.sound_empty, rfl, List.nil_prefix, fun _ => rfl⟩, fun _ => ⟨rfl, ?_,
    .inl ⟨rfl, rfl⟩⟩⟩
  rintro _ ⟨⟩

theorem ServerSlot.Holds.isPrefix {b : Prop} {s : ServerSlot} (h : s.Holds b) :
    s.put <+: s.passed.flatten := by
  obtain ⟨o, hputs, -⟩ := h.outbox
  obtain ⟨rest, hrest⟩ := hputs.accepted
  rw [hputs.put, ← List.flatten_filter_ne_nil, ← hrest, List.flatten_append]
  exact Outbox.written_isPrefix.trans (List.prefix_append _ _)

end System

/-! ## Two histories -/

/-- What there is to send in a queue. -/
def contents (q : List Node) : List (Nat × Bytes) := q.map fun n => (n.dataLength, n.data.2)

/-- The streams of two slots do the same from now on. -/
structure SameStream (s t : ServerSlot) : Prop where
  put : s.put = t.put
  state : s.out.state = t.out.state
  queue : contents s.out.queueData = contents t.out.queueData
  /-- An idle stream starts from 0. -/
  dataIndex : s.out.state = .sending → s.out.dataIndex = t.out.dataIndex

/-- Two slots that differ in what was queued and sent; where `b`, not even in that. -/
structure Abreast (b : Prop) (s t : ServerSlot) : Prop where
  control : SameButQueued s t
  stream : b → SameStream s t

section Abreast

variable {b : Prop} {s t s' t' : ServerSlot}

/-- The same change of everything but the stream. -/
theorem Abreast.of_same (h : Abreast b s t) (hc : SameButQueued s' t') (hps : s'.put = s.put)
    (hpt : t'.put = t.put) (hos : s'.out = s.out) (hot : t'.out = t.out) : Abreast b s' t' := by
  refine ⟨hc, fun hb => ?_⟩
  obtain ⟨hp, hst, hq, hi⟩ := h.stream hb
  refine ⟨?_, ?_, ?_, ?_⟩
  · rw [hps, hpt, hp]
  · rw [hos, hot, hst]
  · rw [hos, hot, hq]
  · rw [hos, hot]
    exact hi

theorem SameButQueued.setState (h : SameButQueued s t) (q : ServerState) :
    SameButQueued (s.setState q) (t.setState q) :=
  ⟨h.inUse, h.hSocket, rfl, h.rxP, h.cb⟩

theorem Abreast.setState (h : Abreast b s t) (q : ServerState) :
    Abreast b (s.setState q) (t.setState q) :=
  h.of_same (h.control.setState q) rfl rfl rfl rfl

theorem Abreast.emitEvent (h : Abreast b s t) (e : ServerEvent) :
    Abreast b (s.emitEvent e) (t.emitEvent e) := by
  obtain ⟨hu, hsock, hst, hrx, hcb⟩ := h.control
  rw [emitEvent_eq, emitEvent_eq]
  exact h.of_same ⟨hu, hsock, hst, hrx, hcb⟩ rfl rfl rfl rfl

theorem Abreast.called (h : Abreast b s t) {c c' : StackCall} :
    Abreast b (s.called c) (t.called c') := by
  obtain ⟨hu, hsock, hst, hrx, hcb⟩ := h.control
  exact h.of_same ⟨hu, hsock, hst, hrx, hcb⟩ rfl rfl rfl rfl

/-- A new connection on two slots with streams that do the same. -/
theorem abreast_established (hc : SameButQueued s t)
    (hst : b → s.out.state = t.out.state)
    (hq : b → contents s.out.queueData = contents t.out.queueData)
    (hi : b → s.out.state = .sending → s.out.dataIndex = t.out.dataIndex)
    (address : UInt32) (port : UInt16) :
    Abreast b (s.tcpEventCallback address port .established)
      (t.tcpEventCallback address port .established) := by
  refine Abreast.emitEvent ?_ _
  exact ⟨⟨hc.inUse, hc.hSocket, rfl, hc.rxP, hc.cb⟩, fun hb => ⟨rfl, hst hb, hq hb, hi hb⟩⟩

theorem Abreast.send (h : Abreast b s t) {hp hp' : Heap} {data : Packet}
    (hd : (s.send hp data).2.denied = false) (hd' : (t.send hp' data).2.denied = false) :
    Abreast b (s.send hp data).1 (t.send hp' data).1 := by
  obtain ⟨hu, hsock, hst, hrx, hcb⟩ := h.control
  rcases send_eq hd with ⟨hs, heq⟩ | ⟨hs, hm, n, hdata, hlen, heq⟩
  · rcases send_eq hd' with ⟨-, heq'⟩ | ⟨hs', hm', -⟩
    · rw [heq, heq']
      exact h.of_same ⟨hu, hsock, hst, hrx, hcb⟩ rfl rfl rfl rfl
    · exact absurd (hs (hst.trans hs')) hm'
  · rcases send_eq hd' with ⟨hs', -⟩ | ⟨-, -, n', hdata', hlen', heq'⟩
    · exact absurd (hs' (hst.symm.trans hs)) hm
    · rw [heq, heq']
      refine ⟨⟨hu, hsock, hst, hrx, hcb⟩, fun hb => ?_⟩
      obtain ⟨hp, hstate, hq, hi⟩ := h.stream hb
      refine ⟨hp, hstate, ?_, hi⟩
      show contents (s.out.queueData ++ [n]) = contents (t.out.queueData ++ [n'])
      unfold contents at hq ⊢
      rw [List.map_append, List.map_append, hq, List.map_singleton, List.map_singleton, hdata,
        hdata', hlen, hlen']

/-- `tx_task` changes no more than the stream. -/
theorem txTask_control (s : ServerSlot) (putIsReady : Nat) (hp : Heap) :
    SameButQueued s (s.txTask putIsReady hp).1 := by
  unfold ServerSlot.txTask
  split
  · split <;> exact ⟨rfl, rfl, rfl, rfl, rfl⟩
  · dsimp only
    split
    · split
      · exact ⟨rfl, rfl, rfl, rfl, rfl⟩
      · split
        · exact ⟨rfl, rfl, rfl, rfl, rfl⟩
        · rw [emitEvent_eq]
          exact ⟨rfl, rfl, rfl, rfl, rfl⟩
    · exact ⟨rfl, rfl, rfl, rfl, rfl⟩
  · exact ⟨rfl, rfl, rfl, rfl, rfl⟩

theorem contents_cases {q r : List Node} (h : contents q = contents r) :
    q = [] ∧ r = [] ∨ ∃ n q' m r', q = n :: q' ∧ r = m :: r' ∧ n.dataLength = m.dataLength ∧
      n.data.2 = m.data.2 ∧ contents q' = contents r' := by
  cases q with
  | nil =>
    cases r with
    | nil => exact .inl ⟨rfl, rfl⟩
    | cons m r' => cases h
  | cons n q' =>
    cases r with
    | nil => cases h
    | cons m r' =>
      obtain ⟨hhead, htail⟩ := List.cons.inj h
      obtain ⟨hlen, hdata⟩ := Prod.mk.inj hhead
      exact .inr ⟨n, q', m, r', rfl, rfl, hlen, hdata, htail⟩

/-- **`tx_task`** does the same on streams that do. -/
theorem SameStream.txTask (h : SameStream s t) (putIsReady : Nat) (hp hp' : Heap) :
    SameStream (s.txTask putIsReady hp).1 (t.txTask putIsReady hp').1 := by
  obtain ⟨hput, hst, hq, hi⟩ := h
  unfold ServerSlot.txTask
  rw [← hst]
  cases hstate : s.out.state with
  | idle =>
    rcases contents_cases hq with ⟨hs, ht⟩ | ⟨n, q, m, r, hs, ht, -⟩
    · rw [hs, ht]
      exact ⟨hput, hst, hq, hi⟩
    · dsimp only
      rw [if_pos (by rw [hs]; exact List.cons_ne_nil _ _),
        if_pos (by rw [ht]; exact List.cons_ne_nil _ _)]
      exact ⟨hput, rfl, hq, fun _ => rfl⟩
  | sending =>
    have hindex := hi hstate
    dsimp only
    split
    · rcases contents_cases hq with ⟨hs, ht⟩ | ⟨n, q, m, r, hs, ht, hlen, hdata, hrest⟩
      · rw [hs, ht]
        exact ⟨hput, hst, hq, hi⟩
      · rw [hs, ht]
        dsimp only
        rw [← hlen, ← hdata, ← hindex]
        split
        · exact ⟨congrArg (· ++ _) hput, hst, hq, fun _ => congrArg (· + _) hindex⟩
        · rw [emitEvent_eq, emitEvent_eq]
          refine ⟨congrArg (· ++ _) hput, rfl, ?_, by rintro ⟨⟩⟩
          show contents s.out.queueData.tail = contents t.out.queueData.tail
          rw [hs, ht]
          exact hrest
    · exact ⟨hput, hst, hq, hi⟩
  | error =>
    refine ⟨hput, rfl, ?_, by rintro ⟨⟩⟩
    show contents s.out.queueData.tail = contents t.out.queueData.tail
    unfold contents at hq ⊢
    rw [List.map_tail, List.map_tail, hq]

theorem SameButQueued.symm (h : SameButQueued s t) : SameButQueued t s :=
  ⟨h.inUse.symm, h.hSocket.symm, h.state.symm, h.rxP.symm, h.cb.symm⟩

theorem SameButQueued.trans {u : ServerSlot} (h : SameButQueued s t) (h' : SameButQueued t u) :
    SameButQueued s u :=
  ⟨h.inUse.trans h'.inUse, h.hSocket.trans h'.hSocket, h.state.trans h'.state,
    h.rxP.trans h'.rxP, h.cb.trans h'.cb⟩

theorem Abreast.txTask (h : Abreast b s t) (putIsReady : Nat) (hp hp' : Heap) :
    Abreast b (s.txTask putIsReady hp).1 (t.txTask putIsReady hp').1 :=
  ⟨((txTask_control s putIsReady hp).symm.trans h.control).trans (txTask_control t putIsReady hp'),
    fun hb => (h.stream hb).txTask putIsReady hp hp'⟩

/-- The queue is emptied. -/
theorem Abreast.deleteQueue (h : Abreast b s t) (hp hp' : Heap) :
    Abreast b (s.deleteQueue hp).1 (t.deleteQueue hp').1 := by
  obtain ⟨hu, hsock, hst, hrx, hcb⟩ := h.control
  refine ⟨⟨hu, hsock, hst, hrx, hcb⟩, fun hb => ?_⟩
  obtain ⟨hput, hstate, -, hi⟩ := h.stream hb
  exact ⟨hput, hstate, rfl, hi⟩

theorem Abreast.clearStream (h : Abreast b s t) (hp hp' : Heap) :
    Abreast b (s.clearStream hp).1 (t.clearStream hp').1 := by
  obtain ⟨hu, hsock, hst, hrx, hcb⟩ := h.control
  have hc : ∀ u : ServerSlot, ∀ hu : Heap, SameButQueued u (u.clearStream hu).1 := by
    intro u hu
    unfold ServerSlot.clearStream
    split <;> exact ⟨rfl, rfl, rfl, rfl, rfl⟩
  refine ⟨((hc s hp).symm.trans h.control).trans (hc t hp'), fun hb => ?_⟩
  obtain ⟨hput, hstate, hq, hi⟩ := h.stream hb
  unfold ServerSlot.clearStream
  rcases contents_cases hq with ⟨hs, ht⟩ | ⟨n, q, m, r, hs, ht, -⟩
  · rw [if_neg (by simp [hs]), if_neg (by simp [ht])]
    exact ⟨hput, hstate, hq, hi⟩
  · rw [if_pos (by simp [hs]), if_pos (by simp [ht])]
    exact ⟨hput, rfl, rfl, by rintro ⟨⟩⟩

theorem Abreast.reset (h : Abreast b s t) (hp hp' : Heap) :
    Abreast b (s.reset hp).1 (t.reset hp').1 := by
  unfold ServerSlot.reset
  rw [← h.control.hSocket]
  split
  · refine Abreast.setState (Abreast.called ?_) .init
    have hclear := h.clearStream hp hp'
    obtain ⟨hu, hsock, hst, hrx, hcb⟩ := hclear.control
    exact hclear.of_same ⟨hu, rfl, hst, hrx, hcb⟩ rfl rfl rfl rfl
  · exact h.setState .init

end Abreast

section Histories

variable {i : Fin tcpServerMaxSockets} {y z y' z' : ServerSys}

/-- Two servers after different histories; slot `i` does the same from now on. -/
def Beside (i : Fin tcpServerMaxSockets) (y z : ServerSys) : Prop :=
  ∀ j, Abreast (j = i) (y.servers j) (z.servers j)

theorem Beside.put (h : Beside i y z) {j : Fin tcpServerMaxSockets} {r q : ServerSlot × Heap}
    (hr : Abreast (j = i) r.1 q.1) : Beside i (y.put j r) (z.put j q) := by
  intro k
  by_cases hk : k = j
  · subst hk
    rwa [ServerSys.servers_put, ServerSys.servers_put]
  · rw [ServerSys.servers_put_ne hk, ServerSys.servers_put_ne hk]
    exact h k

theorem Beside.call (h : Beside i y z) {c : ServerCall} (hd : (y.call c).heap.denied = false)
    (hd' : (z.call c).heap.denied = false) : Beside i (y.call c) (z.call c) := by
  cases c with
  | send j data => exact h.put ((h j).send hd hd')
  | forceDisconnect j => exact h.put ((h j).setState _)

theorem Beside.calls {cs : List ServerCall} (h : Beside i y z)
    (hd : (cs.foldl ServerSys.call y).heap.denied = false)
    (hd' : (cs.foldl ServerSys.call z).heap.denied = false) :
    Beside i (cs.foldl ServerSys.call y) (cs.foldl ServerSys.call z) := by
  induction cs generalizing y z with
  | nil => exact h
  | cons c cs ih => exact ih (h.call (undenied_calls hd) (undenied_calls hd')) hd hd'

/-- The end of a connection on two slots. -/
theorem Abreast.ended {b : Prop} {s t : ServerSlot} (h : Abreast b s t) :
    Abreast b s.ended t.ended :=
  (h.emitEvent .disconnected).setState .waitForConnection

theorem Beside.pass (h : Beside i y z) (io : ServerIo) (j : Fin tcpServerMaxSockets)
    (hd : (serverPass io y j).heap.denied = false)
    (hd' : (serverPass io z j).heap.denied = false) :
    Beside i (serverPass io y j) (serverPass io z j) := by
  have hj := h j
  obtain ⟨hu, hsock, hst', hrx, hcb⟩ := hj.control
  unfold serverPass at hd hd' ⊢
  dsimp only at hd hd' ⊢
  rw [← hst'] at hd' ⊢
  cases hst : (y.servers j).state with
  | init =>
    rw [← hu]
    exact h.put (hj.setState _)
  | openSocket =>
    refine h.put ?_
    have hopen : Abreast (j = i)
        ({ y.servers j with hSocket := io.serverOpen, state := .openSocket }.called
          (.serverOpen io.serverOpen))
        ({ z.servers j with hSocket := io.serverOpen, state := .openSocket }.called
          (.serverOpen io.serverOpen)) :=
      hj.of_same ⟨hu, rfl, rfl, hrx, hcb⟩ rfl rfl rfl rfl
    show Abreast (j = i) (if io.serverOpen = invalidSocket then _ else _)
      (if io.serverOpen = invalidSocket then _ else _)
    split
    · exact hopen
    · exact hopen.setState _
  | waitForConnection => exact h
  | disable => exact h
  | connectionStablished =>
    rw [hst] at hd hd'
    rw [← hrx] at hd' ⊢
    dsimp only at hd hd' ⊢
    by_cases hrxP : (y.servers j).rxP = true
    · rw [if_pos hrxP] at hd hd'
      rw [if_pos hrxP, if_pos hrxP]
      have hcalls := h.calls (undenied_txTask hd) (undenied_txTask hd')
      exact hcalls.put ((hcalls j).txTask _ _ _)
    · rw [if_neg hrxP, if_neg hrxP]
      have hdiscard : Beside i (y.put j ((y.servers j).called (.discard (y.servers j).hSocket),
          y.heap)) (z.put j ((z.servers j).called (.discard (z.servers j).hSocket), z.heap)) :=
        h.put hj.called
      exact hdiscard.put ((hdiscard j).txTask _ _ _)
  | disconnecting =>
    rw [hst] at hd hd'
    rw [← hrx] at hd' ⊢
    dsimp only at hd hd' ⊢
    by_cases hrxP : (y.servers j).rxP = true
    · rw [if_pos hrxP] at hd hd'
      rw [if_pos hrxP, if_pos hrxP]
      by_cases hpending : io.rxPending = 0
      · rw [if_pos hpending] at hd hd'
        rw [if_pos hpending, if_pos hpending]
        have hcalls := h.calls hd hd'
        exact hcalls.put ((hcalls j).called.setState _)
      · rw [if_neg hpending] at hd hd'
        rw [if_neg hpending, if_neg hpending]
        exact h.calls hd hd'
    · rw [if_neg hrxP, if_neg hrxP]
      exact h.put (hj.called.setState _)
  | waitDisconnect =>
    dsimp only
    split
    · exact h.put hj.ended
    · exact h
  | waitAbort =>
    dsimp only
    split
    · exact h.put hj.ended
    · exact h
  | aborting => exact h.put ((hj.deleteQueue _ _).called.setState _)
  | close => exact h.put ((hj.deleteQueue _ _).called.setState _)
  | waitClose =>
    have hclose := hj.emitEvent .close
    obtain ⟨hu, -, -, hrx, hcb⟩ := hclose.control
    exact h.put (hclose.of_same ⟨hu, rfl, rfl, hrx, hcb⟩ rfl rfl rfl rfl)

theorem beside_of_step {e : ServerStep} (h : Beside i y z) (hC : Separate y e) (hC' : Separate z e)
    (hs : serverStep y e = some y') (hs' : serverStep z e = some z') : Beside i y' z' := by
  have hd := hC.1 y' hs
  have hd' := hC'.1 z' hs'
  cases e with
  | signal j address port sig =>
    obtain rfl := Option.some.inj hs
    obtain rfl := Option.some.inj hs'
    have hj := h j
    cases sig with
    | established =>
      exact h.put (abreast_established hj.control (fun hb => (hj.stream hb).state)
        (fun hb => (hj.stream hb).queue) (fun hb => (hj.stream hb).dataIndex) address port)
    | rxFin => exact h.put (hj.setState _)
    | rxRst => exact h.put (hj.setState _)
    | other => exact h.put hj
  | pass j io =>
    obtain rfl := Option.some.inj hs
    obtain rfl := Option.some.inj hs'
    exact h.pass io j hd hd'
  | config listenPort rxP cb =>
    obtain rfl := Option.some.inj hs
    obtain rfl := Option.some.inj hs'
    -- the same slot is free in both
    have hfree : (fun j => !(y.servers j).inUse) = fun j => !(z.servers j).inUse := by
      funext j
      rw [(h j).control.inUse]
    show Beside i (tcpServerConfig y listenPort rxP cb).2 (tcpServerConfig z listenPort rxP cb).2
    unfold tcpServerConfig
    rw [hfree]
    split
    · exact h
    · rename_i j _
      obtain ⟨-, hsock, -, -, -⟩ := (h j).control
      exact h.put ((h j).of_same ⟨rfl, hsock, rfl, rfl, rfl⟩ rfl rfl rfl rfl)
  | call c =>
    obtain rfl := Option.some.inj hs
    obtain rfl := Option.some.inj hs'
    exact h.call hd hd'
  | reset =>
    obtain rfl := Option.some.inj hs
    obtain rfl := Option.some.inj hs'
    have hfold : ∀ (is : List (Fin tcpServerMaxSockets)) (y z : ServerSys), Beside i y z →
        Beside i (is.foldl (fun y i => y.put i ((y.servers i).reset y.heap)) y)
          (is.foldl (fun y i => y.put i ((y.servers i).reset y.heap)) z) := by
      intro is
      induction is with
      | nil => exact fun _ _ h => h
      | cons j is ih => exact fun y z h => ih _ _ (h.put ((h j).reset _ _))
    exact hfold _ y z h

theorem beside_of_runs {es : List ServerStep} (h : Beside i y z) (hC : Along serverStep Separate y es)
    (hC' : Along serverStep Separate z es) (hr : run serverStep y es = some y')
    (hr' : run serverStep z es = some z') : Beside i y' z' := by
  induction es generalizing y z with
  | nil =>
    obtain rfl := Option.some.inj hr
    obtain rfl := Option.some.inj hr'
    exact h
  | cons e es ih =>
    obtain ⟨y₁, hs, hr⟩ := run_cons.mp hr
    obtain ⟨z₁, hs', hr'⟩ := run_cons.mp hr'
    exact ih (beside_of_step h hC.1 hC'.1 hs hs') (hC.2 _ hs) (hC'.2 _ hs') hr hr'

/-- A connection on a slot, after histories that differ in what was queued: the slot does the same
from now on. -/
theorem beside_established {address : UInt32} {port : UInt16}
    (h : ∀ j, SameButQueued (y.servers j) (z.servers j))
    (hC : Separate y (.signal i address port .established))
    (hC' : Separate z (.signal i address port .established))
    (hs : serverStep y (.signal i address port .established) = some y')
    (hs' : serverStep z (.signal i address port .established) = some z') : Beside i y' z' := by
  obtain rfl := Option.some.inj hs
  obtain rfl := Option.some.inj hs'
  obtain ⟨hq, hidle⟩ := hC.2
  obtain ⟨hq', hidle'⟩ := hC'.2
  intro j
  by_cases hj : j = i
  · subst hj
    rw [ServerSys.servers_put, ServerSys.servers_put]
    refine abreast_established (h j) (fun _ => hidle.trans hidle'.symm) (fun _ => ?_)
      (fun _ hst => ?_) address port
    · rw [hq, hq']
    · cases hidle.symm.trans hst
  · rw [ServerSys.servers_put_ne hj, ServerSys.servers_put_ne hj]
    exact ⟨h j, fun hb => absurd hb hj⟩

/-- **Each connection of a server gets its own messages**, and what it gets does not depend on what
was queued before it. -/
theorem separates (grants : Nat → Bool) (es : List ServerStep)
    (hC : Along serverStep Separate (serverInit grants) es) :
    Along serverStep PutsPassed (serverInit grants) es ∧
    ∀ (before later : List ServerStep) (i : Fin tcpServerMaxSockets) (address : UInt32)
      (port : UInt16) (grants' : Nat → Bool) (before' : List ServerStep) (y y' z z' : ServerSys),
      es = before ++ .signal i address port .established :: later →
      Along serverStep Separate (serverInit grants')
        (before' ++ .signal i address port .established :: later) →
      run serverStep (serverInit grants) before = some y →
      run serverStep (serverInit grants') before' = some y' →
      (∀ j, SameButQueued (y.servers j) (y'.servers j)) →
      run serverStep y (.signal i address port .established :: later) = some z →
      run serverStep y' (.signal i address port .established :: later) = some z' →
      (z.servers i).put = (z'.servers i).put := by
  refine ⟨?_, ?_⟩
  · refine @along_of_inv _ _ _ _ _ ServerSys.Holds
      (fun _ _ _ hI hC hs => holds_of_step hI hC hs) (fun y e hI hC y' hs i => ?_) _ _
      (holds_serverInit grants) hC
    exact (holds_of_step hI hC hs i).isPrefix
  · rintro before later i address port grants' before' y y' z z' rfl hC' hy hy' hsame hz hz'
    have hlater := along_of_append hC hy
    have hlater' := along_of_append hC' hy'
    obtain ⟨y₁, hs, hz⟩ := run_cons.mp hz
    obtain ⟨y₁', hs', hz'⟩ := run_cons.mp hz'
    have hbeside := beside_established hsame hlater.1 hlater'.1 hs hs'
    have hend := beside_of_runs hbeside (hlater.2 _ hs) (hlater'.2 _ hs') hz hz'
    exact ((hend i).stream rfl).put

end Histories

/-! ## Runs of two clients -/

instance (s t : ServerSlot) : Decidable (SameButQueued s t) :=
  decidable_of_iff (s.inUse = t.inUse ∧ s.hSocket = t.hSocket ∧ s.state = t.state ∧
    s.rxP = t.rxP ∧ s.cb = t.cb)
    ⟨fun h => ⟨h.1, h.2.1, h.2.2.1, h.2.2.2.1, h.2.2.2.2⟩,
     fun h => ⟨h.inUse, h.hSocket, h.state, h.rxP, h.cb⟩⟩

instance (y : ServerSys) : (e : ServerStep) → Decidable (Separate y e)
  | .signal _ _ _ .established => inferInstanceAs (Decidable (_ ∧ _ ∧ _))
  | .signal _ _ _ .rxFin | .signal _ _ _ .rxRst | .signal _ _ _ .other | .pass _ _ | .config _ _ _
  | .call _ | .reset => inferInstanceAs (Decidable (_ ∧ True))

/-- The server is opened on slot 0. -/
def openServer : List ServerStep :=
  [.config 23 false true, .pass 0 (serverIo 0), .pass 0 (serverIo 0)]

/-- A client connects, a message is given to it, and after some passes it closes the connection. -/
def firstClient (passes : List ServerIo) : List ServerStep :=
  openServer ++ .signal 0 0 0 .established :: .call (.send 0 ⟨ascii "secret", by decide⟩) ::
    (passes.map (ServerStep.pass 0) ++
      [.signal 0 0 0 .rxFin, .pass 0 (serverIo 0), .pass 0 (serverIo 0)])

/-- Another one connects, and a message is given to it. -/
def nextClient : List ServerStep :=
  [.signal 0 0 0 .established, .call (.send 0 loginPrompt),
    .pass 0 (serverIo 10), .pass 0 (serverIo 10)]

theorem run_nextClient {es : List ServerStep} {put : Bytes}
    (h : (run serverStep (serverInit fun _ => true) (es ++ nextClient)).map
      (fun y => (y.servers 0).put) = some put) :
    ∃ y z, run serverStep (serverInit fun _ => true) es = some y ∧
      run serverStep y nextClient = some z ∧ (z.servers 0).put = put := by
  obtain ⟨z, hz, hput⟩ := Option.map_eq_some_iff.mp h
  rw [run_append, Option.bind_eq_some_iff] at hz
  obtain ⟨y, hy, hz⟩ := hz
  exact ⟨y, z, hy, hz, hput⟩

theorem separates_nextClient :
    ∃ y z y' z', run serverStep (serverInit fun _ => true)
        (firstClient [serverIo 10, serverIo 10]) = some y ∧ run serverStep y nextClient = some z ∧
      run serverStep (serverInit fun _ => true) openServer = some y' ∧
      run serverStep y' nextClient = some z' ∧ (z.servers 0).put = ascii "login: " ∧
      (z.servers 0).put = (z'.servers 0).put := by
  obtain ⟨y, z, hy, hz, hput⟩ := @run_nextClient (firstClient [serverIo 10, serverIo 10])
    (ascii "login: ") (by decide +kernel)
  obtain ⟨y', z', hy', hz', -⟩ := @run_nextClient openServer (ascii "login: ") (by decide +kernel)
  have hsame : ∀ j, SameButQueued (y.servers j) (y'.servers j) := by
    have hall : (run serverStep (serverInit fun _ => true)
        (firstClient [serverIo 10, serverIo 10])).all (fun y =>
          (run serverStep (serverInit fun _ => true) openServer).all fun y' =>
            decide (∀ j, SameButQueued (y.servers j) (y'.servers j))) = true := by decide +kernel
    rw [hy, hy'] at hall
    exact of_decide_eq_true hall
  refine ⟨y, z, y', z', hy, hz, hy', hz', hput, ?_⟩
  exact (separates (fun _ => true) (firstClient [serverIo 10, serverIo 10] ++ nextClient)
    (by decide +kernel)).2 _ _ 0 0 0 _ openServer y y' z z' rfl (by decide +kernel) hy hy' hsame
      hz hz'

/-- Before anything is sent the first client closes the connection: the next one gets its
message. -/
theorem not_separates : ¬ Along serverStep PutsPassed (serverInit fun _ => true)
    (firstClient [] ++ nextClient) := by
  intro hall
  have hput : (run serverStep (serverInit fun _ => true) (firstClient [] ++ nextClient)).map
      (fun y => ((y.servers 0).put, (y.servers 0).passed)) =
        some (ascii "secret", [ascii "login: "]) := by decide +kernel
  obtain ⟨y, hr, hy⟩ := Option.map_eq_some_iff.mp hput
  obtain ⟨y₀, -, hs, hputs⟩ := @along_last _ _ _ _ _ _ (firstClient [] ++ nextClient.take 3)
    (.pass 0 (serverIo 10)) hall hr
  have hprefix := hputs y hs 0
  obtain ⟨hput, hpassed⟩ := Prod.mk.inj hy
  rw [hput, hpassed] at hprefix
  exact absurd hprefix (by decide)

end Rastreo.Net
