import Rastreo.Net.Messages
import Rastreo.Net.Sending

/-!
# The messages a web socket client receives

The bytes that arrive on an established connection are the frames of a sequence of messages, cut
into reads in any way, while the rest of the system goes on: the TCP task runs, the application
sends, pings are sent. `dispatch_message` adds up the lengths of the fragments from the last one
back, and counts the last one twice and the first one not at all.

* `Stage`: how far the client is in the stream, after any bytes of it.
* `stage_inData`: a byte; `inv_of_step`: an event.
* `Delivers`: every message was handed to the application, once and in order, and no copy went past
  its block.
* `delivers_iff`: that is so exactly when in no message the first fragment is more than a byte
  longer than the last one.
* `not_delivers`: a message of two fragments that is written past its block.
-/

namespace Rastreo.Net

open Rastreo.Lib

/-! ## The stream -/

/-- `p` is the start of the first of the frames to come. -/
def Starts (p : Bytes) : List Wire → Prop
  | [] => p = []
  | x :: _ => p.length < x.bytes.length

theorem starts_nil (xs : List Wire) : Starts [] xs := by
  cases xs with
  | nil => rfl
  | cons x xs => exact List.length_pos_iff.mpr x.bytes_ne_nil

/-- What was done for the messages `done`, from the calls `calls` on. -/
structure Told (calls : List Call) (w : World) (done : List (List Frame)) : Prop where
  whole : (∀ d ∈ done, Roomy (d.map Frame.payload)) →
    w.calls = calls ++ done.map callOf ∧ w.overrun = false
  broken : (∃ d ∈ done, ¬ Roomy (d.map Frame.payload)) → w.overrun = true

/-- Of the messages `all` the bytes `rest` are to come. -/
structure Stage (calls : List Call) (all : List (List Frame)) (w : World) (rest : Bytes) :
    Prop where
  owned : Owned w
  callback : w.ws.onMessage = true
  reading : ∃ acc p xs done, At w acc p ∧ Starts p xs ∧ (∀ x ∈ xs, x.Plain) ∧
    p ++ rest = xs.flatMap Wire.bytes ∧ done ++ reassemble acc (xs.map Wire.frame) = all ∧
    Told calls w done

section Stage

variable {calls : List Call} {all done : List (List Frame)} {w w' : World} {rest : Bytes}

theorem Told.of_same (h : Told calls w done) (hc : w'.calls = w.calls)
    (ho : w'.overrun = w.overrun) : Told calls w' done :=
  ⟨fun hr => by rw [hc, ho]; exact h.whole hr, fun hr => by rw [ho]; exact h.broken hr⟩

/-- One more message. -/
theorem Told.last {fs : List Frame} (h : Told calls w done)
    (hroomy : Roomy (fs.map Frame.payload) →
      w'.calls = w.calls ++ [callOf fs] ∧ w'.overrun = w.overrun)
    (hnot : ¬ Roomy (fs.map Frame.payload) → w'.overrun = true) :
    Told calls w' (done ++ [fs]) := by
  constructor
  · intro hr
    obtain ⟨hcalls, hover⟩ := h.whole fun d hd => hr d (List.mem_append_left _ hd)
    obtain ⟨hcalls', hover'⟩ := hroomy (hr fs (List.mem_append_right _ (List.mem_singleton_self fs)))
    rw [hcalls', hover', hcalls, hover, List.map_append, List.map_singleton, List.append_assoc]
    exact ⟨rfl, rfl⟩
  · rintro ⟨d, hd, hr⟩
    by_cases hfs : Roomy (fs.map Frame.payload)
    · rw [(hroomy hfs).2]
      rcases List.mem_append.mp hd with hd | hd
      · exact h.broken ⟨d, hd, hr⟩
      · obtain rfl := List.mem_singleton.mp hd
        exact absurd hfs hr
    · exact hnot hfs

/-- **A byte of the stream.** -/
theorem stage_inData {c : UInt8} (hst : Stage calls all w (c :: rest))
    (hd : (inData w c).1.heap.denied = false) :
    Stage calls all (inData w c).1 rest ∧ Steady w (inData w c).1 := by
  obtain ⟨acc, p, xs, done, hat, hstart, hplain, hbytes, hall, htold⟩ := hst.reading
  cases xs with
  | nil =>
    have := congrArg List.length hbytes
    rw [List.length_append, List.length_cons] at this
    exact absurd this (Nat.succ_ne_zero _)
  | cons x xs =>
    rw [List.flatMap_cons] at hbytes
    have hstart : p.length < x.bytes.length := hstart
    have hstream : p ++ [c] <+: x.bytes ++ xs.flatMap Wire.bytes :=
      ⟨rest, by rw [List.append_assoc, List.singleton_append, hbytes]⟩
    have hpre : p ++ [c] <+: x.bytes := List.prefix_of_prefix_length_le hstream
      (List.prefix_append _ _) (by rwa [List.length_append, List.length_singleton])
    have hplain' : ∀ y ∈ xs, y.Plain := fun y hy => hplain y (List.mem_cons_of_mem _ hy)
    obtain ⟨ho, hsteady, htakes⟩ := inData_takes hat hst.owned hst.callback
      (hplain x List.mem_cons_self) hpre hd
    have hcb : (inData w c).1.ws.onMessage = true := by rw [hsteady.ws]; exact hst.callback
    refine ⟨⟨ho, hcb, ?_⟩, hsteady⟩
    rw [List.map_cons] at hall
    -- the bytes after the frame
    have hnext : p ++ [c] = x.bytes → [] ++ rest = xs.flatMap Wire.bytes := fun heq => by
      rw [List.append_cons, heq] at hbytes
      exact List.append_cancel_left hbytes
    cases htakes with
    | more hne hat' hs =>
      refine ⟨acc, p ++ [c], x :: xs, done, hat', ?_, hplain, ?_, hall,
        htold.of_same hs.calls hs.overrun⟩
      · exact Nat.lt_of_le_of_ne hpre.length_le fun hlen => hne (hpre.eq_of_length hlen)
      · rw [List.append_assoc, List.singleton_append, hbytes, List.flatMap_cons]
    | control heq hop hat' hs =>
      rw [reassemble_control hop] at hall
      exact ⟨acc, [], xs, done, hat', starts_nil xs, hplain', hnext heq, hall,
        htold.of_same hs.calls hs.overrun⟩
    | fragment heq hop hfin hat' hs =>
      rw [reassemble_more hop hfin] at hall
      exact ⟨x.frame :: acc, [], xs, done, hat', starts_nil xs, hplain', hnext heq, hall,
        htold.of_same hs.calls hs.overrun⟩
    | last heq hop hfin hat' hroomy hnot =>
      rw [reassemble_last hop hfin, ← List.reverse_cons, List.append_cons] at hall
      exact ⟨[], [], xs, done ++ [(x.frame :: acc).reverse], hat', starts_nil xs, hplain',
        hnext heq, hall, htold.last hroomy hnot⟩

/-- **A read of the stream**, of any length. -/
theorem stage_foldl {bs : Bytes} (hst : Stage calls all w (bs ++ rest))
    (hd : (bs.foldl (fun w c => (inData w c).1) w).heap.denied = false) :
    Stage calls all (bs.foldl (fun w c => (inData w c).1) w) rest ∧
      Steady w (bs.foldl (fun w c => (inData w c).1) w) := by
  induction bs generalizing w with
  | nil => exact ⟨hst, ⟨rfl, rfl⟩⟩
  | cons c bs ih =>
    rw [List.foldl_cons] at hd ⊢
    obtain ⟨hst', hs⟩ := stage_inData hst ((later_foldl_inData bs _).heap.undenied hd)
    obtain ⟨hst'', hs'⟩ := ih hst' hd
    exact ⟨hst'', hs.trans hs'⟩

/-- At the end of the stream every message is done. -/
theorem Stage.told (hst : Stage calls all w []) : Told calls w all := by
  obtain ⟨acc, p, xs, done, -, hstart, -, hbytes, hall, htold⟩ := hst.reading
  cases xs with
  | nil =>
    rw [List.map_nil, reassemble, List.append_nil] at hall
    rwa [← hall]
  | cons x xs =>
    have hlen := congrArg List.length hbytes
    rw [List.append_nil, List.flatMap_cons, List.length_append] at hlen
    have hstart : p.length < x.bytes.length := hstart
    omega

/-- At its start none is. -/
theorem stage_start (ms : List Message) (hf : w.ws.frames = []) (hk : w.Known)
    (hcb : w.ws.onMessage = true) (ho : w.overrun = false) :
    Stage w.calls (ms.map Message.parts) w ((ms.flatMap Message.wires).flatMap Wire.bytes) := by
  have hblocks : w.frameBlocks = [] := by rw [World.frameBlocks, hf]; rfl
  refine ⟨⟨by rw [hblocks]; exact .nil, hk, fun _ _ _ _ _ => by rw [hblocks]; rintro ⟨⟩⟩, hcb, [], [],
    ms.flatMap Message.wires, [], .inl ⟨hf, rfl, rfl⟩, starts_nil _,
    fun x hx => plain_of_mem_wires hx, rfl, reassemble_wires ms, ?_⟩
  refine ⟨fun _ => ⟨by rw [List.map_nil, List.append_nil], ho⟩, ?_⟩
  rintro ⟨_, ⟨⟩, _⟩

end Stage

/-! ## The rest of the system -/

/-- The client is established, and so is its socket. -/
structure Connected (w : World) : Prop where
  state : w.ws.state = .connectionEstablished
  socket : (w.slots w.ws.curSocketId).state = .connectionStablished

/-- The slot of the client. -/
def World.socket (w : World) : Slot := w.slots w.ws.curSocketId

/-- What leaves the frames alone, while the bytes `taken` go off the socket and `more` arrive. -/
structure Quiet (w w' : World) (taken more : Bytes) : Prop where
  frames : w'.ws.frames = w.ws.frames
  curSocketId : w'.ws.curSocketId = w.ws.curSocketId
  callback : w'.ws.onMessage = w.ws.onMessage
  calls : w'.calls = w.calls
  overrun : w'.overrun = w.overrun
  rx : w.socket.rx ++ more = taken ++ w'.socket.rx
  owned : Owned w → Owned w'

section Quiet

variable {w w₁ w' : World} {taken more : Bytes}

theorem Quiet.stage {calls : List Call} {all : List (List Frame)} {rest : Bytes}
    (hq : Quiet w w' taken more) (hst : Stage calls all w rest) : Stage calls all w' rest := by
  obtain ⟨acc, p, xs, done, hat, hstart, hplain, hbytes, hall, htold⟩ := hst.reading
  refine ⟨hq.owned hst.owned, hq.callback.trans hst.callback, acc, p, xs, done, ?_, hstart, hplain,
    hbytes, hall, htold.of_same hq.calls hq.overrun⟩
  unfold At
  rw [hq.frames]
  exact hat

theorem Owned.of_subset (ho : Owned w) (hl : World.Later w w')
    (hk : Heap.Keeps (· ∈ w.frameBlocks) w.heap w'.heap) (hf : w'.ws.frames = w.ws.frames)
    (hs : ∀ sid, (w'.slots sid).datNode ⊆ (w.slots sid).datNode) : Owned w' := by
  have hblocks : w'.frameBlocks = w.frameBlocks := by
    rw [World.frameBlocks, World.frameBlocks, hf]
  refine ⟨?_, hl.known ho.known, fun sid n hn => ?_⟩
  · rw [hblocks]
    exact ho.held.keeps hk
  · rw [hblocks]
    exact ho.apart sid n (hs sid hn)

/-- A node of new blocks in a queue. -/
theorem Owned.of_appends {sid : Fin tcpClientMaxSockets} (ho : Owned w)
    (hk : Heap.Keeps (fun b => b.name < w.heap.next) w.heap w'.heap)
    (ha : Appends w.heap.next w'.heap.next sid w.slots w'.slots)
    (hf : w'.ws.frames = w.ws.frames) : Owned w' := by
  have hblocks : w'.frameBlocks = w.frameBlocks := by
    rw [World.frameBlocks, World.frameBlocks, hf]
  have hold : ∀ b ∈ w.frameBlocks, b.name < w.heap.next := fun b hb =>
    w.heap.named b (ho.held.live b hb)
  refine ⟨?_, ha.known ho.known hk.next, fun i n hn b hb hmem => ?_⟩
  · rw [hblocks]
    exact ho.held.keeps (hk.mono hold)
  · rw [hblocks] at hmem
    rcases ha with hs | ⟨node, hnode, hs⟩
    · rw [hs] at hn
      exact ho.apart i n hn b hb hmem
    · rw [hs] at hn
      by_cases hi : i = sid
      · subst hi
        rw [Function.update_self] at hn
        rcases List.mem_append.mp hn with hn | hn
        · exact ho.apart i n hn b hb hmem
        · obtain rfl := List.mem_singleton.mp hn
          exact Nat.not_lt.mpr (hnode b hb).1 (hold b hmem)
      · rw [Function.update_of_ne hi] at hn
        exact ho.apart i n hn b hb hmem

/-- Slots that keep their queues, and the rest of the heap as it was. -/
theorem Owned.of_slots (ho : Owned w) (hh : w'.heap = w.heap) (hf : w'.ws.frames = w.ws.frames)
    (hs : ∀ sid, (w'.slots sid).datNode = (w.slots sid).datNode) : Owned w' := by
  have hsub : ∀ sid, (w'.slots sid).datNode ⊆ (w.slots sid).datNode := fun sid n hn => by
    rwa [← hs sid]
  exact ho.of_subset (.of_subset (hh ▸ .refl) hsub) (hh ▸ .refl) hf hsub

theorem datNode_update {slots : Slots} {sid : Fin tcpClientMaxSockets} {s : Slot}
    (hs : s.datNode = (slots sid).datNode) (i : Fin tcpClientMaxSockets) :
    (Function.update slots sid s i).datNode = (slots i).datNode := by
  by_cases hi : i = sid
  · subst hi
    rw [Function.update_self, hs]
  · rw [Function.update_of_ne hi]

/-! ### The TCP task -/

/-- No pass from here opens the socket anew. -/
def Slot.Settled (s : Slot) : Prop :=
  s.state = .connectionStablished ∨ s.state = .connectionClose ∨ s.state = .waitForRetry ∨
    s.state = .idle

theorem txTask_keeps (io : NetIo) (h : Heap) (s : Slot) :
    (s.txTask io h).1.state = s.state ∧ (s.txTask io h).1.rx = s.rx ∧
      (s.txTask io h).1.arrived = s.arrived := by
  unfold Slot.txTask
  split
  · split <;> exact ⟨rfl, rfl, rfl⟩
  · split
    · exact ⟨rfl, rfl, rfl⟩
    · dsimp only
      split
      · split <;> exact ⟨rfl, rfl, rfl⟩
      · exact ⟨rfl, rfl, rfl⟩
  · exact ⟨rfl, rfl, rfl⟩
  · exact ⟨rfl, rfl, rfl⟩

theorem task_settled (io : NetIo) (h : Heap) {s : Slot} (hs : s.Settled) :
    (s.task io h).1.Settled ∧ (s.task io h).1.rx = s.rx ∧ (s.task io h).1.arrived = s.arrived := by
  have htx := txTask_keeps io h s
  unfold Slot.task
  rcases hs with hs | hs | hs | hs
  · rw [hs]
    dsimp only
    split
    · exact ⟨.inr (.inl rfl), rfl, rfl⟩
    · exact ⟨.inl (htx.1.trans hs), htx.2⟩
  · rw [hs]
    exact ⟨.inr (.inr (.inl rfl)), rfl, rfl⟩
  · rw [hs]
    dsimp only
    split
    · exact ⟨.inr (.inr (.inr rfl)), rfl, rfl⟩
    · exact ⟨.inr (.inr (.inl hs)), rfl, rfl⟩
  · rw [hs]
    exact ⟨.inr (.inr (.inr hs)), rfl, rfl⟩

/-- The callback leaves the client as it is, or takes it out of its connection. -/
theorem sockCb_cases (sid : Fin tcpClientMaxSockets) (c : Client) (e : ClientEvent) :
    sockCb sid c e = c ∨ (sockCb sid c e).state ≠ .connectionEstablished := by
  cases e with
  | tx => exact .inl rfl
  | rx => exact .inl rfl
  | _ => exact .inr (by rintro ⟨⟩)

theorem sockCb_foldl (sid : Fin tcpClientMaxSockets) (es : List ClientEvent) (c : Client) :
    (es.foldl (sockCb sid) c).frames = c.frames ∧
      (es.foldl (sockCb sid) c = c ∨
        (es.foldl (sockCb sid) c).state ≠ .connectionEstablished) := by
  have hframes : ∀ (c : Client) (e : ClientEvent), (sockCb sid c e).frames = c.frames :=
    fun c e => by cases e <;> rfl
  have hleft : ∀ (c : Client) (e : ClientEvent), c.state ≠ .connectionEstablished →
      (sockCb sid c e).state ≠ .connectionEstablished := fun c e hc => by
    rcases sockCb_cases sid c e with h | h
    · rwa [h]
    · exact h
  have hlefts : ∀ (es : List ClientEvent) (c : Client), c.state ≠ .connectionEstablished →
      (es.foldl (sockCb sid) c).state ≠ .connectionEstablished := by
    intro es
    induction es with
    | nil => intro c hc; exact hc
    | cons e es ih => intro c hc; exact ih _ (hleft c e hc)
  induction es generalizing c with
  | nil => exact ⟨rfl, .inl rfl⟩
  | cons e es ih =>
    refine ⟨(ih _).1.trans (hframes c e), ?_⟩
    rcases sockCb_cases sid c e with h | h
    · rw [List.foldl_cons, h]
      exact (ih c).2
    · exact .inr (hlefts es _ h)

/-- After some passes: the client was taken out of its connection, or nothing it reads changed. -/
def Passed (w w' : World) : Prop :=
  w'.ws.state ≠ .connectionEstablished ∨ (w'.ws = w.ws ∧ w'.socket.Settled ∧ Quiet w w' [] [])

theorem owned_tcpTaskSlot (io : NetIo) (sid : Fin tcpClientMaxSockets) (ho : Owned w) :
    Owned (tcpTaskSlot io w sid) := by
  obtain ⟨hkeeps, hsub⟩ := @Slot.task_queue (· ∈ w.frameBlocks) w.heap (w.slots sid) io
    fun n hn b hb hmem => ho.apart sid n hn b hb hmem
  refine ho.of_subset (later_tcpTaskSlot io w sid) hkeeps ?_ fun i => ?_
  · show (if (w.slots sid).cb = some .ws then _ else w.ws).frames = w.ws.frames
    split
    · exact (sockCb_foldl sid _ w.ws).1
    · rfl
  · show (Function.update w.slots sid _ i).datNode ⊆ _
    by_cases hi : i = sid
    · subst hi
      rw [Function.update_self]
      exact hsub
    · rw [Function.update_of_ne hi]
      exact List.Subset.refl _

theorem Passed.tcpTaskSlot {io : NetIo} {sid : Fin tcpClientMaxSockets} (h : Passed w w₁) :
    Passed w (tcpTaskSlot io w₁ sid) := by
  have hws : (Rastreo.Net.tcpTaskSlot io w₁ sid).ws = w₁.ws ∨
      (Rastreo.Net.tcpTaskSlot io w₁ sid).ws.state ≠ .connectionEstablished := by
    show (if (w₁.slots sid).cb = some .ws then _ else w₁.ws) = w₁.ws ∨
      (if (w₁.slots sid).cb = some .ws then _ else w₁.ws).state ≠ _
    split
    · exact (sockCb_foldl sid _ w₁.ws).2
    · exact .inl rfl
  rcases h with hleft | ⟨heq, hset, hq⟩
  · rcases hws with hws | hws
    · exact .inl (by rw [hws]; exact hleft)
    · exact .inl hws
  · rcases hws with hws | hws
    · refine .inr ⟨hws.trans heq, ?_⟩
      have hslot : (Rastreo.Net.tcpTaskSlot io w₁ sid).socket.Settled ∧
          (Rastreo.Net.tcpTaskSlot io w₁ sid).socket.rx = w₁.socket.rx := by
        rw [World.socket, hws]
        show (Function.update w₁.slots sid _ w₁.ws.curSocketId).Settled ∧
          (Function.update w₁.slots sid _ w₁.ws.curSocketId).rx = _
        by_cases hi : w₁.ws.curSocketId = sid
        · rw [hi, Function.update_self]
          rw [World.socket, hi] at hset
          rw [World.socket, hi]
          exact ⟨(task_settled io w₁.heap hset).1, (task_settled io w₁.heap hset).2.1⟩
        · rw [Function.update_of_ne hi]
          exact ⟨hset, rfl⟩
      refine ⟨hslot.1, by rw [hws]; exact hq.frames, by rw [hws]; exact hq.curSocketId,
        by rw [hws]; exact hq.callback, hq.calls, hq.overrun, hq.rx.trans hslot.2.symm,
        fun ho => owned_tcpTaskSlot io sid (hq.owned ho)⟩
    · exact .inl hws

protected theorem Quiet.refl : Quiet w w [] [] :=
  ⟨rfl, rfl, rfl, rfl, rfl, List.append_nil _, id⟩

theorem quiet_tcpClientTask {io : Fin tcpClientMaxSockets → NetIo} (hw : Connected w)
    (hw' : (tcpClientTask io w).ws.state = .connectionEstablished) :
    Quiet w (tcpClientTask io w) [] [] := by
  have hfold : ∀ (sids : List (Fin tcpClientMaxSockets)) (w₁ : World), Passed w w₁ →
      Passed w (sids.foldl (fun w sid => tcpTaskSlot (io sid) w sid) w₁) := by
    intro sids
    induction sids with
    | nil => intro w₁ h; exact h
    | cons sid sids ih => intro w₁ h; exact ih _ h.tcpTaskSlot
  rcases hfold _ w (.inr ⟨rfl, .inl hw.socket, .refl⟩) with h | ⟨-, -, hq⟩
  · exact absurd hw' h
  · exact hq

/-! ### Sending -/

theorem Appends.stream {lo hi : Nat} {sid : Fin tcpClientMaxSockets} {slots slots' : Slots}
    (h : Appends lo hi sid slots slots') (i : Fin tcpClientMaxSockets) :
    (slots' i).rx = (slots i).rx := by
  rcases h with hs | ⟨node, -, hs⟩
  · rw [hs]
  · rw [hs]
    by_cases hi : i = sid
    · subst hi
      rw [Function.update_self]
    · rw [Function.update_of_ne hi]

theorem Appends.mono {lo lo' hi : Nat} {sid : Fin tcpClientMaxSockets} {slots slots' : Slots}
    (h : Appends lo hi sid slots slots') (hle : lo' ≤ lo) : Appends lo' hi sid slots slots' := by
  rcases h with hs | ⟨node, hnode, hs⟩
  · exact .inl hs
  · exact .inr ⟨node, fun b hb => ⟨hle.trans (hnode b hb).1, (hnode b hb).2⟩, hs⟩

theorem state_sendError (w : World) (c : Int) : (w.sendError c).ws.state = .error := rfl

/-- A frame handed to the TCP client without an error. -/
theorem sendData_quiet {n lo : Nat} {block : Block} {built : Option (Buf n)}
    (hlo : lo ≤ w.heap.next) (hblock : lo ≤ block.name) (hbuilt : built.isNone = false)
    (hst : (sendData w block built).2.ws.state ≠ .error) :
    (sendData w block built).2.ws = w.ws ∧ (sendData w block built).2.calls = w.calls ∧
    (sendData w block built).2.overrun = w.overrun ∧
    Heap.Keeps (fun b => b.name < lo) w.heap (sendData w block built).2.heap ∧
    Appends lo (sendData w block built).2.heap.next w.ws.curSocketId w.slots
      (sendData w block built).2.slots := by
  obtain ⟨hkeeps, happ⟩ := tcpClientSend_appends w.heap w.slots w.ws.curSocketId
    (built.getD .clear).bytes n
  unfold sendData at hst ⊢
  generalize tcpClientSend w.heap w.slots w.ws.curSocketId (built.getD .clear).bytes n = r
    at hkeeps happ hst ⊢
  dsimp only at hst ⊢
  by_cases hr : r.1 = .success
  · rw [if_pos hr, hbuilt, Bool.or_false]
    refine ⟨rfl, rfl, rfl, (hkeeps.mono fun b hb => Nat.lt_of_lt_of_le hb hlo).trans
      (Heap.Keeps.release fun b hb hlt => ?_), ?_⟩
    · obtain rfl := Option.some.inj hb
      exact Nat.not_lt.mpr hblock hlt
    · dsimp only
      rw [next_dmemRelease]
      exact happ.mono hlo
  · rw [if_neg hr] at hst
    exact absurd (state_sendError _ 4) hst

/-- A frame a 32-bit size can count. -/
def Sendable (s : Bytes) : Prop := s.length + 14 < 4294967296

theorem quiet_wsClientSend {s : Option Bytes} (hs : ∀ t ∈ s, Sendable t)
    (hst : (wsClientSend w s).2.ws.state ≠ .error) : Quiet w (wsClientSend w s).2 [] [] := by
  unfold wsClientSend at hst ⊢
  by_cases hclose : w.ws.flags.clientSentCloseFrame
  · rw [if_pos hclose] at hst
    exact absurd (state_sendError w 0) hst
  rw [if_neg hclose] at hst ⊢
  by_cases hconn : w.ws.flags.clientConnecting
  · rw [if_pos hconn] at hst
    exact absurd (state_sendError w 1) hst
  rw [if_neg hconn] at hst ⊢
  cases s with
  | none => exact absurd (state_sendError w 2) hst
  | some t =>
    have hsmall : t.length + 14 < 4294967296 := hs t rfl
    have hn : (frameLayout t.length).1 % 4294967296 = (frameLayout t.length).1 := by
      refine Nat.mod_eq_of_lt ?_
      unfold frameLayout
      split
      · dsimp only
        omega
      · split <;> dsimp only <;> omega
    dsimp only [World.drawMask] at hst ⊢
    rw [hn] at hst ⊢
    by_cases ha : w.heap.Allows (frameLayout t.length).1
    · have hc : dmemCreate w.heap (frameLayout t.length).1 =
          (some ⟨w.heap.next, (frameLayout t.length).1⟩, w.heap.grant _ ha) := dif_pos ha
      rw [hc] at hst ⊢
      dsimp only at hst ⊢
      obtain ⟨b, hbuilt, -⟩ := built_frame w.maskKey rfl (s := t)
      have hbuilt' : (buildFrame (frameLayout t.length).1 (frameLayout t.length).2.1
          (frameLayout t.length).2.2 (leBytes (w.rand w.draws)) t).isNone = false := by
        rw [show leBytes (w.rand w.draws) = w.maskKey.bytes from rfl, hbuilt]
        rfl
      obtain ⟨hws, hcalls, hover, hkeeps, happ⟩ :=
        sendData_quiet (Nat.le_succ w.heap.next) (Nat.le_refl _) hbuilt' hst
      refine ⟨by rw [hws], by rw [hws], by rw [hws], hcalls, hover, ?_, fun ho =>
        ho.of_appends ((Heap.Keeps.grant ha).trans hkeeps) happ (by rw [hws])⟩
      rw [World.socket, World.socket, hws, happ.stream, List.append_nil]
      rfl
    · have hc : dmemCreate w.heap (frameLayout t.length).1 = (none, w.heap.deny) := dif_neg ha
      rw [hc] at hst
      exact absurd (state_sendError _ 4) hst

/-! ### The events -/

/-- Bytes taken off the socket. -/
theorem quiet_getRx (hw : (w.slots w.ws.curSocketId).state = .connectionStablished)
    (limit request : Nat) {slots : Slots}
    (hget : tcpClientGetRx w.slots w.ws.curSocketId limit request = (taken, slots))
    (hws : w'.ws.frames = w.ws.frames ∧ w'.ws.curSocketId = w.ws.curSocketId ∧
      w'.ws.onMessage = w.ws.onMessage)
    (hh : w'.heap = w.heap) (hs : w'.slots = slots) (hc : w'.calls = w.calls)
    (ho : w'.overrun = w.overrun) : Quiet w w' taken [] := by
  unfold tcpClientGetRx at hget
  rw [if_pos hw] at hget
  obtain ⟨rfl, rfl⟩ := Prod.mk.inj hget
  refine ⟨hws.1, hws.2.1, hws.2.2, hc, ho, ?_, fun howned =>
    howned.of_slots hh hws.1 fun i => ?_⟩
  · rw [World.socket, World.socket, hs, hws.2.1, Function.update_self, List.append_nil]
    exact (List.take_append_drop _ _).symm
  · rw [hs]
    refine datNode_update ?_ i
    rfl

theorem Quiet.trans (h₁ : Quiet w w₁ taken []) (h₂ : Quiet w₁ w' [] []) :
    Quiet w w' taken [] := by
  refine ⟨h₂.frames.trans h₁.frames, h₂.curSocketId.trans h₁.curSocketId,
    h₂.callback.trans h₁.callback, h₂.calls.trans h₁.calls, h₂.overrun.trans h₁.overrun, ?_,
    fun ho => h₂.owned (h₁.owned ho)⟩
  have hrx := h₂.rx
  rw [List.append_nil] at hrx
  rw [h₁.rx, hrx]
  rfl

/-- The text of the ping fits its buffer. -/
theorem sendable_text {n : Nat} (b : Buf n) (hn : n + 14 < 4294967296) : Sendable b.text :=
  Nat.lt_of_le_of_lt (Nat.add_le_add_right b.length_text_le 14) hn

/-- **The task on a connection**: it reads, and gives what it read to `in_data`. -/
theorem established_reads (io : WsIo) (hw : Connected w)
    (hst : (established io w).ws.state = .connectionEstablished) :
    ∃ w₁ bs, Quiet w w₁ bs [] ∧ established io w = bs.foldl (fun w c => (inData w c).1) w₁ := by
  unfold established at hst ⊢
  cases hget : tcpClientGetRx w.slots w.ws.curSocketId io.limit (wsReceiveBuffer - 1) with
  | mk bs slots =>
    rw [hget] at hst
    dsimp only at hst ⊢
    by_cases hbs : bs ≠ []
    · rw [if_pos hbs]
      refine ⟨_, bs, ?_, rfl⟩
      exact quiet_getRx hw.socket _ _ hget ⟨rfl, rfl, rfl⟩ rfl rfl rfl rfl
    · rw [if_neg hbs] at hst ⊢
      rw [not_not] at hbs
      subst hbs
      split at hst
      · rename_i hping
        rw [if_pos hping]
        have hsmall : ∀ t ∈ some (w.ws.received []).pingStr.text, Sendable t := fun t ht => by
          obtain rfl := Option.some.inj ht
          exact sendable_text _ (by decide)
        have hsend := quiet_wsClientSend hsmall (by rw [hst]; rintro ⟨⟩)
        refine ⟨_, [], Quiet.trans ?_ hsend, rfl⟩
        exact quiet_getRx hw.socket _ _ hget ⟨rfl, rfl, rfl⟩ rfl rfl rfl rfl
      · rename_i hping
        rw [if_neg hping]
        refine ⟨_, [], ?_, rfl⟩
        exact quiet_getRx hw.socket _ _ hget ⟨rfl, rfl, rfl⟩ rfl rfl rfl rfl

/-- A call of `ws_client_send` is for a frame a 32-bit size can count. -/
def Event.Sane : Event → Prop
  | .wsSend s => ∀ t ∈ s, Sendable t
  | _ => True

/-- The event keeps the connection. -/
structure Stays (libs : Libs) (w : World) (e : Event) : Prop where
  before : Connected w
  after : ∀ w', step libs w e = some w' → Connected w'
  sane : e.Sane

/-- The bytes that arrive on a socket. -/
def Event.arrivals (sid : Fin tcpClientMaxSockets) : Event → Bytes
  | .receive i bs => if sid = i then bs else []
  | _ => []

/-- **Every event on a connection**: some bytes arrive, and some are read and given to `in_data`. -/
theorem step_connected {libs : Libs} {e : Event} (hs : step libs w e = some w')
    (hc : Stays libs w e) :
    ∃ w₁ taken, Quiet w w₁ taken (e.arrivals w.ws.curSocketId) ∧
      w' = taken.foldl (fun w c => (inData w c).1) w₁ := by
  have hw := hc.before
  have hw' := hc.after w' hs
  cases e with
  | tcpTask io =>
    obtain rfl := Option.some.inj hs
    exact ⟨_, [], quiet_tcpClientTask hw hw'.state, rfl⟩
  | wsTask io =>
    obtain rfl := Option.some.inj hs
    have htask : wsClientTask libs io w = established io w :=
      wsClientTask_of_established hw.state
    have hst := hw'.state
    rw [htask] at hst
    obtain ⟨w₁, bs, hq, heq⟩ := established_reads io hw hst
    exact ⟨w₁, bs, hq, htask.trans heq⟩
  | receive sid bs =>
    obtain rfl := Option.some.inj hs
    refine ⟨_, [], ?_, rfl⟩
    refine ⟨rfl, rfl, rfl, rfl, rfl, ?_, fun ho => ho.of_slots rfl rfl fun i => ?_⟩
    · show w.socket.rx ++ (if w.ws.curSocketId = sid then bs else []) =
        (Function.update w.slots sid _ w.ws.curSocketId).rx
      by_cases hi : w.ws.curSocketId = sid
      · rw [if_pos hi, World.socket, hi, Function.update_self]
        rfl
      · rw [if_neg hi, Function.update_of_ne hi, List.append_nil]
        rfl
    · refine datNode_update ?_ i
      rfl
  | wsOpen url cbs =>
    obtain rfl := Option.some.inj hs
    have hidle : ¬ w.ws.state = .idle := by rw [hw.state]; rintro ⟨⟩
    have hopen : (wsClientOpen w url cbs).2 = w := by
      unfold wsClientOpen
      rw [if_neg hidle]
    exact ⟨w, [], .refl, hopen⟩
  | wsSend s =>
    obtain rfl := Option.some.inj hs
    exact ⟨_, [], quiet_wsClientSend hc.sane (by rw [hw'.state]; rintro ⟨⟩), rfl⟩
  | wsSetPing strPing pingInterval =>
    obtain rfl := Option.some.inj hs
    refine ⟨_, [], ?_, rfl⟩
    exact ⟨rfl, rfl, rfl, rfl, rfl, List.append_nil _, fun ho => ho.of_slots rfl rfl fun _ => rfl⟩
  | wsClose =>
    obtain rfl := Option.some.inj hs
    refine ⟨_, [], ?_, rfl⟩
    have hslot : ∀ i, ((wsClientClose w).slots i).rx = (w.slots i).rx ∧
        ((wsClientClose w).slots i).datNode = (w.slots i).datNode := by
      intro i
      show (w.closeSocket.slots i).rx = _ ∧ (w.closeSocket.slots i).datNode = _
      rcases closeSocket_cases w with h | h
      · rw [h]
        exact ⟨rfl, rfl⟩
      · rw [h]
        by_cases hi : i = w.ws.curSocketId
        · subst hi
          rw [Function.update_self]
          exact ⟨rfl, rfl⟩
        · rw [Function.update_of_ne hi]
          exact ⟨rfl, rfl⟩
    exact ⟨rfl, rfl, rfl, rfl, rfl, (List.append_nil _).trans (hslot w.ws.curSocketId).1.symm,
      fun ho => ho.of_slots rfl rfl fun i => (hslot i).2⟩

end Quiet

/-! ## The run -/

/-- On a connection the bytes of the messages `ms` arrive, all are read and nothing is denied. -/
structure Receives (libs : Libs) (w : World) (es : List Event) (w' : World) (ms : List Message) :
    Prop where
  noFrame : w.ws.frames = []
  callback : w.ws.onMessage = true
  known : w.Known
  sound : w.overrun = false
  runs : run (step libs) w es = some w'
  stays : Along (step libs) (Stays libs) w es
  granted : w'.heap.denied = false
  stream : w.socket.rx ++ es.flatMap (Event.arrivals w.ws.curSocketId) =
    (ms.flatMap Message.wires).flatMap Wire.bytes
  read : w'.socket.rx = []

/-- The call for a message. -/
def messageCall (m : Message) : Call :=
  .onMessage m.opcode m.payloads.flatten m.payloads.flatten.length

/-- **Every message is handed over**, once and in order, and no copy goes past its block. -/
def Delivers (w w' : World) (ms : List Message) : Prop :=
  w'.calls = w.calls ++ ms.map messageCall ∧ w'.overrun = false

theorem callOf_parts (m : Message) : callOf m.parts = messageCall m := by
  obtain ⟨fin, fs, hparts⟩ := m.head_parts
  have hpay := m.payload_parts
  have hop : (m.parts.head?.map fun f => f.opcode.val).getD 0 = m.opcode := by
    rw [hparts]
    rfl
  rw [callOf, payloadOf, hop, hpay]
  rfl

section Run

variable {libs : Libs} {w w' : World} {ms : List Message} {es : List Event}

/-- **A run on a connection** takes the reading to the end of what was read. -/
theorem stage_of_run {calls : List Call} {all : List (List Frame)}
    {sid : Fin tcpClientMaxSockets} (hsid : w.ws.curSocketId = sid)
    (hst : Stage calls all w (w.socket.rx ++ es.flatMap (Event.arrivals sid)))
    (hC : Along (step libs) (Stays libs) w es) (hr : run (step libs) w es = some w')
    (hd : w'.heap.denied = false) : Stage calls all w' w'.socket.rx := by
  induction es generalizing w with
  | nil =>
    obtain rfl := Option.some.inj hr
    rwa [List.flatMap_nil, List.append_nil] at hst
  | cons e es ih =>
    obtain ⟨w₂, hs, hr⟩ := run_cons.mp hr
    obtain ⟨w₁, taken, hq, rfl⟩ := step_connected hs hC.1
    rw [List.flatMap_cons, ← List.append_assoc, ← hsid, hq.rx, List.append_assoc] at hst
    obtain ⟨hst₂, hsteady⟩ := stage_foldl (hq.stage hst) ((later_of_run hr).heap.undenied hd)
    have hsocket : (taken.foldl (fun w c => (inData w c).1) w₁).socket = w₁.socket := by
      rw [World.socket, World.socket, hsteady.slots, hsteady.ws]
    refine ih ?_ ?_ (hC.2 _ hs) hr
    · rw [hsteady.ws]
      exact hq.curSocketId.trans hsid
    · rwa [hsocket, ← hsid]

theorem told_of_receives (h : Receives libs w es w' ms) :
    Told w.calls w' (ms.map Message.parts) := by
  have hst := stage_start ms h.noFrame h.known h.callback h.sound
  rw [← h.stream] at hst
  have hst' := stage_of_run rfl hst h.stays h.runs h.granted
  rw [h.read] at hst'
  exact hst'.told

/-- **The messages are delivered** exactly when in each the first fragment is at most a byte longer
than the last. -/
theorem delivers_iff (h : Receives libs w es w' ms) :
    Delivers w w' ms ↔ ∀ m ∈ ms, Roomy m.payloads := by
  have htold := told_of_receives h
  have hroomy : (∀ d ∈ ms.map Message.parts, Roomy (d.map Frame.payload)) ↔
      ∀ m ∈ ms, Roomy m.payloads := by
    rw [List.forall_mem_map]
    exact forall₂_congr fun m _ => by rw [m.payload_parts]
  constructor
  · intro hdel
    rw [← hroomy]
    intro d hd
    by_contra hnot
    cases (htold.broken ⟨d, hd, hnot⟩).symm.trans hdel.2
  · intro hall
    obtain ⟨hcalls, hover⟩ := htold.whole (hroomy.mpr hall)
    refine ⟨?_, hover⟩
    rw [hcalls, List.map_map]
    exact congrArg _ (List.map_congr_left fun m _ => callOf_parts m)

end Run

/-! ## Two streams -/

/-- A fragment in the short form, with nothing before it. -/
def shortFragment (payload : Bytes) (h : payload.length < 126) : Fragment := ⟨[], .short, payload, h⟩

/-- A parser that takes no response. -/
def noLibs : Libs := ⟨fun _ => none, fun _ => []⟩

/-- The bytes of the messages arrive on a fresh connection, and the task reads them at once. -/
def oneRead (ms : List Message) : List Event :=
  [.receive 0 ((ms.flatMap Message.wires).flatMap Wire.bytes), .wsTask ⟨0, 2047, []⟩]

/-- The world after that. -/
def afterRead (ms : List Message) : World :=
  established ⟨0, 2047, []⟩ { connectedWorld with
    slots := Function.update connectedWorld.slots 0
      ((connectedWorld.slots 0).receive ((ms.flatMap Message.wires).flatMap Wire.bytes)) }

theorem receives_oneRead {ms : List Message} (hw : Connected (afterRead ms))
    (hd : (afterRead ms).heap.denied = false) (hrx : (afterRead ms).socket.rx = []) :
    Receives noLibs connectedWorld (oneRead ms) (afterRead ms) ms where
  noFrame := rfl
  callback := rfl
  known := fun _ _ hn => absurd hn List.not_mem_nil
  sound := rfl
  runs := rfl
  stays := by
    have hconn : ∀ bs, Connected { connectedWorld with
        slots := Function.update connectedWorld.slots 0 ((connectedWorld.slots 0).receive bs) } :=
      fun bs => ⟨rfl, rfl⟩
    refine ⟨⟨⟨rfl, rfl⟩, fun w' hs => ?_, trivial⟩, fun w' hs => ?_⟩
    · obtain rfl := Option.some.inj hs
      exact hconn _
    · obtain rfl := Option.some.inj hs
      refine ⟨⟨hconn _, fun w' hs => ?_, trivial⟩, fun _ _ => trivial⟩
      obtain rfl := Option.some.inj hs
      exact hw
  granted := hd
  stream := List.append_nil _
  read := hrx

/-- "hello" in two fragments with a Ping between them, and then "!". -/
def greeting : List Message :=
  [⟨1, by decide, shortFragment (ascii "hel") (by decide),
      [⟨[⟨.short, 9, [], by decide, by decide⟩], .short, ascii "lo", by decide⟩]⟩,
    ⟨1, by decide, shortFragment (ascii "!") (by decide), []⟩]

theorem delivers_greeting : Delivers connectedWorld (afterRead greeting) greeting :=
  (delivers_iff (receives_oneRead ⟨by decide +kernel, by decide +kernel⟩ (by decide +kernel)
    (by decide +kernel))).mpr (by unfold Roomy; decide)

/-- "ab" in two fragments, the second one empty. -/
def shrinking : List Message :=
  [⟨1, by decide, shortFragment (ascii "ab") (by decide), [shortFragment [] (by decide)]⟩]

/-- One byte is allocated for it, and two are copied. -/
theorem not_delivers : Receives noLibs connectedWorld (oneRead shrinking) (afterRead shrinking)
    shrinking ∧ ¬ Delivers connectedWorld (afterRead shrinking) shrinking := by
  constructor
  · exact receives_oneRead ⟨by decide +kernel, by decide +kernel⟩ (by decide +kernel)
      (by decide +kernel)
  · rintro ⟨-, hover⟩
    revert hover
    decide +kernel

end Rastreo.Net
