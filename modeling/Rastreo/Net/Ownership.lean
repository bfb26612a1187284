import Rastreo.Net.WsClient
import Rastreo.Lib.Run

/-!
# Which blocks the transmit queues hold

A block's name is never used again, so a block that is not named yet is in no queue. `Known` says
that of every node in a queue; it is an invariant of the system.

* `World.Later`: what any code that runs leaves of the heap, and of `Known`.
* `later_of_step`: every event does.
* `known_of_run`: every reachable world is `Known`.
-/

namespace Rastreo.Net

open Rastreo.Lib

/-- The nodes in the queues are of blocks already named. -/
def World.Known (w : World) : Prop :=
  ∀ sid, ∀ n ∈ (w.slots sid).datNode, ∀ b ∈ n.blocks, b.name < w.heap.next

theorem later_dmemRelease (h : Heap) (b : Option Block) :
    Heap.Keeps (fun _ => False) h (dmemRelease h b) := Heap.Keeps.release fun _ _ => id

/-- Names only grow, what was denied stays denied, and the queues stay known. -/
structure World.Later (w w' : World) : Prop where
  heap : Heap.Keeps (fun _ => False) w.heap w'.heap
  known : w.Known → w'.Known

namespace World.Later

variable {w w₁ w' : World}

protected theorem refl : World.Later w w := ⟨.refl, id⟩

theorem trans (h₁ : World.Later w w₁) (h₂ : World.Later w₁ w') : World.Later w w' :=
  ⟨h₁.heap.trans h₂.heap, fun hk => h₂.known (h₁.known hk)⟩

theorem of_slots (heap : Heap.Keeps (fun _ => False) w.heap w'.heap) (hs : w'.slots = w.slots) :
    World.Later w w' := by
  refine ⟨heap, fun hk sid n hn b hb => ?_⟩
  rw [hs] at hn
  exact Nat.lt_of_lt_of_le (hk sid n hn b hb) heap.next

theorem of_same (heap : w'.heap = w.heap) (hs : w'.slots = w.slots) : World.Later w w' :=
  of_slots (heap ▸ .refl) hs

theorem release (w : World) (b : Option Block) :
    World.Later w { w with heap := dmemRelease w.heap b } :=
  of_slots (later_dmemRelease _ _) rfl

/-- Queues only lose nodes. -/
theorem of_subset (heap : Heap.Keeps (fun _ => False) w.heap w'.heap)
    (hs : ∀ sid, (w'.slots sid).datNode ⊆ (w.slots sid).datNode) : World.Later w w' :=
  ⟨heap, fun hk sid n hn b hb => Nat.lt_of_lt_of_le (hk sid n (hs sid hn) b hb) heap.next⟩

/-- The same, for a change of one slot. -/
theorem of_update {sid : Fin tcpClientMaxSockets} {s : Slot}
    (heap : Heap.Keeps (fun _ => False) w.heap w'.heap)
    (hs : w'.slots = Function.update w.slots sid s) (hsub : s.datNode ⊆ (w.slots sid).datNode) :
    World.Later w w' := by
  refine of_subset heap fun i => ?_
  rw [hs]
  by_cases hi : i = sid
  · subst hi
    rwa [Function.update_self]
  · rw [Function.update_of_ne hi]
    exact List.Subset.refl _

theorem setState (w : World) (q : WsState) : World.Later w (w.setState q) := of_same rfl rfl

end World.Later

/-! ## Sending -/

/-- At most one node, of blocks named from `lo` on and before `hi`, was put in the queue. -/
def Appends (lo hi : Nat) (sid : Fin tcpClientMaxSockets) (slots slots' : Slots) : Prop :=
  slots' = slots ∨ ∃ node : Node, (∀ b ∈ node.blocks, lo ≤ b.name ∧ b.name < hi) ∧
    slots' = Function.update slots sid
      { slots sid with datNode := (slots sid).datNode ++ [node] }

theorem Appends.known {w w' : World} {sid : Fin tcpClientMaxSockets} {lo : Nat}
    (h : Appends lo w'.heap.next sid w.slots w'.slots) (hk : w.Known)
    (hle : w.heap.next ≤ w'.heap.next) : w'.Known := by
  intro i n hn b hb
  rcases h with hs | ⟨node, hnode, hs⟩
  · rw [hs] at hn
    exact Nat.lt_of_lt_of_le (hk i n hn b hb) hle
  · rw [hs] at hn
    by_cases hi : i = sid
    · subst hi
      rw [Function.update_self] at hn
      rcases List.mem_append.mp hn with hn | hn
      · exact Nat.lt_of_lt_of_le (hk i n hn b hb) hle
      · obtain rfl := List.mem_singleton.mp hn
        exact (hnode b hb).2
    · rw [Function.update_of_ne hi] at hn
      exact Nat.lt_of_lt_of_le (hk i n hn b hb) hle

/-- `tcp_client_send` leaves the blocks that were live and puts at most one node in the queue. -/
theorem tcpClientSend_appends (h : Heap) (slots : Slots) (sid : Fin tcpClientMaxSockets)
    (data : Bytes) (n : Nat) :
    Heap.Keeps (fun b => b.name < h.next) h (tcpClientSend h slots sid data n).2.1 ∧
      Appends h.next (tcpClientSend h slots sid data n).2.1.next sid slots
        (tcpClientSend h slots sid data n).2.2 := by
  have hsid : (⟨sid, sid.isLt⟩ : Fin tcpClientMaxSockets) = sid := rfl
  unfold tcpClientSend
  rw [dif_pos sid.isLt, hsid]
  split
  · dsimp only
    split
    · have hspec := listNewNode_spec h data (n % 65536)
      cases hnew : listNewNode h data (n % 65536) with
      | mk res h' =>
        rw [hnew] at hspec
        cases res with
        | none => exact ⟨hspec.1, .inl rfl⟩
        | some node => exact ⟨hspec.1, .inr ⟨node, hspec.2 node rfl, rfl⟩⟩
    · exact ⟨.refl, .inl rfl⟩
  · exact ⟨.refl, .inl rfl⟩

theorem World.Later.of_send {w w' : World} {data : Bytes} {n : Nat}
    (hh : w'.heap = (tcpClientSend w.heap w.slots w.ws.curSocketId data n).2.1)
    (hs : w'.slots = (tcpClientSend w.heap w.slots w.ws.curSocketId data n).2.2) :
    World.Later w w' := by
  obtain ⟨hkeeps, happ⟩ := tcpClientSend_appends w.heap w.slots w.ws.curSocketId data n
  rw [← hh] at hkeeps
  rw [← hh, ← hs] at happ
  exact ⟨hkeeps.mono fun _ => False.elim, fun hk => happ.known hk hkeeps.next⟩

theorem later_sendError (w : World) (c : Int) : World.Later w (w.sendError c) := by
  unfold World.sendError World.callOnError World.setState
  split <;> exact .of_same rfl rfl

theorem later_sendData {n : Nat} (w : World) (block : Block) (built : Option (Buf n)) :
    World.Later w (sendData w block built).2 := by
  unfold sendData
  have hsend := @World.Later.of_send w
    { w with
        heap := (tcpClientSend w.heap w.slots w.ws.curSocketId (built.getD .clear).bytes n).2.1
        slots := (tcpClientSend w.heap w.slots w.ws.curSocketId (built.getD .clear).bytes n).2.2
        overrun := w.overrun || built.isNone }
    (built.getD .clear).bytes n rfl rfl
  dsimp only
  split
  · exact hsend.trans (World.Later.release _ _)
  · exact (hsend.trans (later_sendError _ 4)).trans (World.Later.release _ _)

theorem later_wsClientSend (w : World) (s : Option Bytes) :
    World.Later w (wsClientSend w s).2 := by
  unfold wsClientSend
  split
  · exact later_sendError w 0
  · split
    · exact later_sendError w 1
    · split
      · exact later_sendError w 2
      · dsimp only [World.drawMask]
        split
        · rename_i hc
          refine World.Later.trans ?_ (later_sendError _ 4)
          exact .of_slots (.of_create hc) rfl
        · rename_i hc
          refine World.Later.trans ?_ (later_sendData _ _ _)
          exact .of_slots (.of_create hc) rfl

/-! ## Receiving -/

theorem later_cleanupFrames (h : Heap) (frames : List WsFrame) :
    Heap.Keeps (fun _ => False) h (cleanupFrames h frames) := by
  unfold cleanupFrames
  induction frames generalizing h with
  | nil => exact .refl
  | cons f frames ih =>
    exact ((later_dmemRelease _ _).trans (later_dmemRelease _ _)).trans (ih _)

theorem later_dispatchMessage (w : World) (frames : List WsFrame) :
    World.Later w (dispatchMessage w frames).1 := by
  unfold dispatchMessage
  split
  · unfold World.callOnError World.setState
    split <;> exact .of_same rfl rfl
  · dsimp only
    split
    · rename_i hc
      exact .of_slots (.of_create hc) rfl
    · rename_i current prev _ _ _ hc
      have hclean := (Heap.Keeps.of_create hc).trans
        (later_cleanupFrames _ (current :: prev).reverse)
      split
      · rename_i hc'
        refine .of_slots ?_ rfl
        dsimp only
        exact (hclean.trans (.of_create hc')).trans (later_dmemRelease _ _)
      · rename_i hc'
        refine .of_slots ?_ rfl
        dsimp only
        exact ((hclean.trans (.of_create hc')).trans (later_dmemRelease _ _)).trans
          (later_dmemRelease _ _)

theorem later_openFrame (w : World) : World.Later w (openFrame w).1 := by
  unfold openFrame
  split
  · exact .refl
  · split
    · rename_i hc
      exact .of_slots (.of_create hc) rfl
    · rename_i hc
      split
      · rename_i hc'
        refine .of_slots ?_ rfl
        dsimp only
        exact ((Heap.Keeps.of_create hc).trans (.of_create hc')).trans
          (later_dmemRelease _ _)
      · rename_i hc'
        refine .of_slots ?_ rfl
        dsimp only
        exact (Heap.Keeps.of_create hc).trans (.of_create hc')

theorem later_extendFrame (w : World) (cur : WsFrame) (prev : List WsFrame) :
    World.Later w (extendFrame w cur prev).1 := by
  have hext : ∀ {size r h'}, dmemExtend w.heap (cur.rawdata.map (·.1)) size = (r, h') →
      Heap.Keeps (fun _ => False) w.heap h' := fun {size r h'} hc => by
    have hk := @Heap.Keeps.extend (fun _ => False) w.heap size (cur.rawdata.map (·.1))
      fun _ _ => id
    rwa [hc] at hk
  unfold extendFrame
  split
  · dsimp only
    split
    · rename_i hc
      refine .of_slots ?_ rfl
      dsimp only
      exact ((hext hc).trans (later_dmemRelease _ _)).trans
        (later_dmemRelease _ _)
    · rename_i hc
      exact .of_slots (hext hc) rfl
  · exact .refl

theorem later_newFragment (w : World) : World.Later w (newFragment w).1 := by
  unfold newFragment
  split
  · rename_i hc
    exact .of_slots (.of_create hc) rfl
  · rename_i hc
    split
    · rename_i hc'
      exact .of_slots ((Heap.Keeps.of_create hc).trans (.of_create hc')) rfl
    · rename_i hc'
      exact .of_slots ((Heap.Keeps.of_create hc).trans (.of_create hc')) rfl

theorem later_handleOpcode (w : World) (ctl : WsFrame) (mask : Bytes) :
    World.Later w (handleOpcode w ctl mask) := by
  unfold handleOpcode
  split
  · dsimp only
    split
    · exact .of_same rfl rfl
    · exact .of_send rfl rfl
  · exact .refl

theorem later_resetFrame (w : World) (ctl : WsFrame) (prev : List WsFrame) :
    World.Later w (resetFrame w ctl prev).1 := by
  unfold resetFrame
  split
  · rename_i hc
    exact .of_slots ((later_dmemRelease _ _).trans (.of_create hc)) rfl
  · rename_i hc
    exact .of_slots ((later_dmemRelease _ _).trans (.of_create hc)) rfl

theorem later_handleControlFrame (w : World) (ctl : WsFrame) (prev : List WsFrame) :
    World.Later w (handleControlFrame w ctl prev).1 := by
  refine .trans (.trans ?_ (later_handleOpcode w.drawMask.2 ctl w.drawMask.1))
    (later_resetFrame _ ctl prev)
  exact .of_same rfl rfl

theorem later_frameDone (w : World) (cur : WsFrame) (prev : List WsFrame) :
    World.Later w (frameDone w cur prev).1 := by
  unfold frameDone
  split
  · split
    · exact later_handleControlFrame w cur prev
    · exact (later_dispatchMessage w (cur :: prev)).trans (.of_same rfl rfl)
  · exact later_newFragment w

theorem later_storeByte (w : World) (c : UInt8) (cur : WsFrame) (prev : List WsFrame) :
    World.Later w (storeByte w c cur prev).1 := by
  unfold storeByte
  split
  · exact .refl
  · dsimp only
    split
    · exact .of_same rfl rfl
    · exact .of_same rfl rfl
    · refine .trans ?_ (later_frameDone _ _ _)
      exact .of_same rfl rfl

/-- `in_data` with a current frame. -/
theorem later_fillFrame (w : World) (c : UInt8) (cur : WsFrame) (prev : List WsFrame) :
    World.Later w (fillFrame w c cur prev).1 := by
  have hext := later_extendFrame w cur prev
  unfold fillFrame
  split
  · rename_i h
    rwa [h] at hext
  · rename_i h
    rw [h] at hext
    exact hext.trans (later_storeByte _ _ _ _)

theorem later_inData_open (w : World) (c : UInt8) :
    World.Later (openFrame w).1 (inData w c).1 := by
  unfold inData
  split
  · rename_i h
    rw [h]
    exact .refl
  · rename_i w₁ h
    rw [h]
    split
    · exact .refl
    · exact later_fillFrame w₁ c _ _

theorem later_inData (w : World) (c : UInt8) : World.Later w (inData w c).1 :=
  (later_openFrame w).trans (later_inData_open w c)

/-! ## The tasks -/

namespace Slot

variable {K : Block → Prop} {h : Heap} {s : Slot}

theorem txTask_queue (io : NetIo) (hK : ∀ n ∈ s.datNode, ∀ b ∈ n.blocks, ¬ K b) :
    Heap.Keeps K h (s.txTask io h).2.1 ∧ (s.txTask io h).1.datNode ⊆ s.datNode := by
  have hpull : Heap.Keeps K h (listDeleteNode h (listPullNode s.datNode).1) :=
    keeps_listDeleteNode fun n hn => hK n (List.mem_of_mem_head? hn)
  unfold txTask
  split
  · split <;> exact ⟨.refl, List.Subset.refl _⟩
  · split
    · exact ⟨.refl, List.Subset.refl _⟩
    · dsimp only
      split
      · split
        · exact ⟨.refl, List.Subset.refl _⟩
        · exact ⟨hpull, (List.tail_sublist _).subset⟩
      · exact ⟨.refl, List.Subset.refl _⟩
  · exact ⟨hpull, (List.tail_sublist _).subset⟩
  · exact ⟨hpull, (List.tail_sublist _).subset⟩

/-- A pass releases blocks of the queue only, and the queue only loses nodes. -/
theorem task_queue (io : NetIo) (hK : ∀ n ∈ s.datNode, ∀ b ∈ n.blocks, ¬ K b) :
    Heap.Keeps K h (s.task io h).2.1 ∧ (s.task io h).1.datNode ⊆ s.datNode := by
  have htx := @txTask_queue K h s io hK
  unfold task
  split
  all_goals try exact ⟨.refl, List.Subset.refl _⟩
  · dsimp only
    split
    · exact ⟨.refl, List.Subset.refl _⟩
    · split <;> exact ⟨.refl, List.Subset.refl _⟩
  · dsimp only
    split
    · exact ⟨.refl, List.Subset.refl _⟩
    · split
      · exact ⟨.refl, List.Subset.refl _⟩
      · split <;> exact ⟨.refl, List.Subset.refl _⟩
  · dsimp only
    split <;> exact ⟨.refl, List.Subset.refl _⟩
  · split
    · dsimp only
      split
      · split <;> exact ⟨.refl, List.Subset.refl _⟩
      · exact ⟨.refl, List.Subset.refl _⟩
    · split <;> exact ⟨.refl, List.Subset.refl _⟩
  · split
    · split <;> exact ⟨.refl, List.Subset.refl _⟩
    · split <;> exact ⟨.refl, List.Subset.refl _⟩
  · split
    · exact ⟨.refl, List.Subset.refl _⟩
    · exact htx
  · exact ⟨keeps_listDelete hK, List.nil_subset _⟩
  · split <;> exact ⟨.refl, List.Subset.refl _⟩

end Slot

theorem later_tcpTaskSlot (io : NetIo) (w : World) (sid : Fin tcpClientMaxSockets) :
    World.Later w (tcpTaskSlot io w sid) := by
  obtain ⟨hkeeps, hsub⟩ := @Slot.task_queue (fun _ => False) w.heap (w.slots sid) io
    fun _ _ _ _ => id
  exact .of_update hkeeps rfl hsub

theorem later_tcpClientTask (io : Fin tcpClientMaxSockets → NetIo) (w : World) :
    World.Later w (tcpClientTask io w) := by
  have hfold : ∀ (sids : List (Fin tcpClientMaxSockets)) (w : World),
      World.Later w (sids.foldl (fun w sid => tcpTaskSlot (io sid) w sid) w) := by
    intro sids
    induction sids with
    | nil => intro w; exact .refl
    | cons sid sids ih => intro w; exact (later_tcpTaskSlot _ w sid).trans (ih _)
  exact hfold _ w

theorem later_httpRequestInit (h : Heap) (method : HttpMethod) (host : Bytes) (port : Int32)
    (path : Option Bytes) :
    Heap.Keeps (fun _ => False) h (httpRequestInit h method host port path).2 := by
  have hcreate : Heap.Keeps (fun _ => False) h (createRequestHandle h).2 := by
    unfold createRequestHandle
    split
    · rename_i hc
      exact .of_create hc
    · rename_i hc
      split
      · rename_i hc'
        dsimp only
        exact ((Heap.Keeps.of_create hc).trans (.of_create hc')).trans (later_dmemRelease _ _)
      · rename_i hc'
        exact (Heap.Keeps.of_create hc).trans (.of_create hc')
  unfold httpRequestInit
  split
  · rename_i hc
    rwa [hc] at hcreate
  · rename_i hc
    rw [hc] at hcreate
    exact hcreate

theorem later_httpRequestDelete (w : World) (r : HttpRequest) :
    World.Later w { w with heap := httpRequestDelete w.heap r } :=
  (World.Later.release w (some r.block)).trans (World.Later.release _ (some r.handle))

theorem closeSocket_cases (w : World) : w.closeSocket.slots = w.slots ∨
    w.closeSocket.slots = Function.update w.slots w.ws.curSocketId
      { w.slots w.ws.curSocketId with state := .connectionClose } := by
  unfold World.closeSocket tcpClientClose
  rw [dif_pos w.ws.curSocketId.isLt]
  dsimp only
  split
  · exact .inr rfl
  · exact .inl rfl

theorem later_closeSocket (w : World) : World.Later w w.closeSocket := by
  rcases closeSocket_cases w with hs | hs
  · exact .of_slots .refl hs
  · exact .of_update .refl hs (List.Subset.refl _)

theorem later_initHandshake (w : World) (url : UrlData) :
    World.Later w (initHandshake w url) := by
  have hkey : World.Later w w.drawKey := .of_same rfl rfl
  have hinit := later_httpRequestInit w.drawKey.heap .get url.host (intPort w.drawKey.ws.nPort)
    url.path
  unfold initHandshake
  dsimp only
  split
  · rename_i h hc
    rw [hc] at hinit
    have hfail : World.Later w { w.drawKey with heap := h } := hkey.trans (.of_slots hinit rfl)
    exact (hfail.trans (later_closeSocket _)).trans (World.Later.setState _ _)
  · rename_i r h hc
    rw [hc] at hinit
    generalize httpRequestAddGeneric _ _ (ascii "13") = r
    have hreq : World.Later w { w.drawKey with heap := h } := hkey.trans (.of_slots hinit rfl)
    have hsent := hreq.trans (@World.Later.of_send { w.drawKey with heap := h }
      { w.drawKey with
        heap := (tcpClientSend h w.drawKey.slots w.drawKey.ws.curSocketId r.raw.bytes r.length).2.1
        slots := (tcpClientSend h w.drawKey.slots w.drawKey.ws.curSocketId r.raw.bytes
          r.length).2.2 } r.raw.bytes r.length rfl rfl)
    have hdel := hsent.trans (later_httpRequestDelete _ r)
    split
    · exact hdel.trans (.of_same rfl rfl)
    · refine .trans (.trans ?_ (later_closeSocket _)) (World.Later.setState _ _)
      exact hdel.trans (.of_same rfl rfl)

theorem later_getRx (w : World) (limit request : Nat) :
    World.Later w { w with slots := (tcpClientGetRx w.slots w.ws.curSocketId limit request).2 } := by
  have hget : (tcpClientGetRx w.slots w.ws.curSocketId limit request).2 = w.slots ∨
      (tcpClientGetRx w.slots w.ws.curSocketId limit request).2 =
        Function.update w.slots w.ws.curSocketId { w.slots w.ws.curSocketId with
          rx := (w.slots w.ws.curSocketId).rx.drop (min limit request) } := by
    unfold tcpClientGetRx
    split
    · exact .inr rfl
    · exact .inl rfl
  rcases hget with hs | hs
  · exact .of_slots .refl hs
  · exact .of_update .refl hs (List.Subset.refl _)

theorem later_waitHandshakeResponse (io : WsIo) (w : World) :
    World.Later w (waitHandshakeResponse io w) := by
  unfold waitHandshakeResponse
  dsimp only
  split
  · split
    · exact .of_same rfl rfl
    · rename_i t _
      exact (later_getRx w io.limit t).trans (.of_same rfl rfl)
  · exact .of_same rfl rfl

theorem later_foldl_inData (bs : Bytes) (w : World) :
    World.Later w (bs.foldl (fun w c => (inData w c).1) w) := by
  induction bs generalizing w with
  | nil => exact .refl
  | cons c bs ih => exact (later_inData w c).trans (ih _)

theorem later_established (io : WsIo) (w : World) : World.Later w (established io w) := by
  have hget := later_getRx w io.limit (wsReceiveBuffer - 1)
  unfold established
  dsimp only
  split
  · refine hget.trans (.trans ?_ (later_foldl_inData _ _))
    exact .of_same rfl rfl
  · split
    · refine hget.trans (.trans ?_ (later_wsClientSend _ _))
      exact .of_same rfl rfl
    · exact hget.trans (.of_same rfl rfl)

theorem later_openHost (w : World) (url : UrlData) :
    World.Later w { w with slots := (tcpClientOpenHost w.slots url.host w.ws.nPort
      w.ws.flags.clientIsSsl .ws).2.1 } := by
  unfold tcpClientOpenHost
  split
  · exact .of_slots .refl rfl
  · dsimp only
    split
    · exact .of_update .refl rfl (List.Subset.refl _)
    · exact .of_update .refl rfl (List.Subset.refl _)

theorem later_wsClientTask (libs : Libs) (io : WsIo) (w : World) :
    World.Later w (wsClientTask libs io w) := by
  unfold wsClientTask
  split
  all_goals try exact .of_same rfl rfl
  · split <;> exact .of_same rfl rfl
  · split
    · exact .of_same rfl rfl
    · rename_i url _
      have hopen := later_openHost w url
      split
      · rename_i hc
        rw [hc] at hopen
        exact hopen.trans (.of_same rfl rfl)
      · rename_i hc
        rw [hc] at hopen
        exact hopen.trans (.of_same rfl rfl)
  · split
    · exact .of_same rfl rfl
    · exact later_initHandshake w _
  · exact later_waitHandshakeResponse io w
  · unfold parseHandshakeResponse
    dsimp only
    split
    · exact .of_same rfl rfl
    · refine .trans (.trans ?_ (later_closeSocket _)) (World.Later.setState _ _)
      exact .of_same rfl rfl
  · exact later_established io w
  · exact (later_closeSocket w).trans (World.Later.setState _ _)
  · dsimp only
    split <;> exact .of_same rfl rfl
  · split <;> exact .of_same rfl rfl

/-! ## The system -/

/-- **Every event** leaves what `Later` says. -/
theorem later_of_step {libs : Libs} {w w' : World} {e : Event} (hs : step libs w e = some w') :
    World.Later w w' := by
  cases e with
  | tcpTask io => obtain rfl := Option.some.inj hs; exact later_tcpClientTask io w
  | wsTask io => obtain rfl := Option.some.inj hs; exact later_wsClientTask libs io w
  | receive sid bs =>
    obtain rfl := Option.some.inj hs
    exact .of_update .refl rfl (List.Subset.refl _)
  | wsOpen url cbs =>
    obtain rfl := Option.some.inj hs
    unfold wsClientOpen
    split
    · split <;> exact .of_same rfl rfl
    · exact .refl
  | wsSend strdata => obtain rfl := Option.some.inj hs; exact later_wsClientSend w strdata
  | wsSetPing strPing pingInterval => obtain rfl := Option.some.inj hs; exact .of_same rfl rfl
  | wsClose =>
    obtain rfl := Option.some.inj hs
    exact (later_closeSocket w).trans (.of_same rfl rfl)

theorem later_of_run {libs : Libs} {w w' : World} {es : List Event}
    (hr : run (step libs) w es = some w') : World.Later w w' := by
  induction es generalizing w with
  | nil => exact Option.some.inj hr ▸ .refl
  | cons e es ih =>
    obtain ⟨w₁, hs, hr⟩ := run_cons.mp hr
    exact (later_of_step hs).trans (ih hr)

theorem known_worldInit (grants : Nat → Bool) (rand : Nat → UInt32) :
    (worldInit grants rand).Known := fun _ _ hn => absurd hn List.not_mem_nil

/-- **Every reachable world** is `Known`. -/
theorem known_of_run {libs : Libs} {grants : Nat → Bool} {rand : Nat → UInt32} {w : World}
    {es : List Event} (hr : run (step libs) (worldInit grants rand) es = some w) : w.Known :=
  @inv_of_run _ _ (step libs) (fun _ _ => True) World.Known
    (fun _ _ _ hk _ hs => (later_of_step hs).known hk) _ _ _ (known_worldInit grants rand)
    along_true hr

end Rastreo.Net
