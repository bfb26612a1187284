import Rastreo.Net.AfterClose
import Rastreo.Net.HeapLedger

/-!
# The blocks of the frames

`in_data` and what it calls request a block at nine places, and every request can be denied. Three
of the ways out forget blocks: `dispatch_message` without memory for the payload leaves all frames
of the message, `in_data` without more room for the current frame releases that one only, and
without raw data for the next fragment it leaves the record of it.

* `touched`: the blocks that are read or written for a byte, each with the heap at that time;
  `threads_touched` says that these are the heaps `in_data` goes through.
* `Accounted`: every live block is reachable from `current_frame`, queued or somebody else's.
* `leaks`: a denied request makes the byte take one of the three ways.
* **`ledger_iff`**: no block is touched or released when it is dead, and all blocks are accounted
  for as long as no byte leaks.
-/

namespace Rastreo.Net

open Rastreo.Lib

/-! ## What is touched -/

/-- The raw data of a frame. -/
def WsFrame.raw (f : WsFrame) : Option Block := f.rawdata.map (·.1)

/-- A use of all blocks of a frame. -/
def WsFrame.uses (h : Heap) (f : WsFrame) : List (Heap × Block) := f.blocks.map fun b => (h, b)

/-- `sizeof (t_WS_FRAME)` and the first chunk are requested: what is touched, with `more` when
both are there. -/
def frameUses (h : Heap) (more : Heap → List (Heap × Block)) : List (Heap × Block) :=
  match dmemCreate h sizeofFrame with
  | (none, _) => []
  | (some b, h) =>
    match dmemCreate h frameChunkLength with
    | (none, h') => [(h, b), (h', b)]
    | (some d, h') => (h, b) :: (h', b) :: (h', d) :: more h'

/-- `openFrame` -/
def openUses (w : World) : List (Heap × Block) :=
  match w.ws.frames with
  | _ :: _ => []
  | [] => frameUses w.heap fun _ => []

/-- `extendFrame` -/
def extendUses (w : World) (current : WsFrame) : List (Heap × Block) :=
  (w.heap, current.block) ::
    if current.rawdataSz ≤ current.rawdataIdx then
      match dmemExtend w.heap current.raw
          ((current.rawdataSz + frameChunkLength) % 4294967296) with
      | (none, h) => [(h, current.block), (dmemRelease h current.raw, current.block)]
      | (some b, h) => [(h, current.block), (h, b)]
    else []

/-- `handleControlFrame` -/
def controlUses (w : World) (ctl : WsFrame) : List (Heap × Block) :=
  let h₁ := (handleOpcode w.drawMask.2 ctl w.drawMask.1).heap
  let h₂ := dmemRelease h₁ ctl.raw
  ctl.uses w.heap ++ (h₁, ctl.block) :: (h₂, ctl.block) ::
    match dmemCreate h₂ frameChunkLength with
    | (none, h) => [(h, ctl.block)]
    | (some d, h) => [(h, ctl.block), (h, d)]

/-- `cleanupFrames` -/
def cleanupUses : Heap → List WsFrame → List (Heap × Block)
  | _, [] => []
  | h, f :: fs =>
    (h, f.block) :: cleanupUses (dmemRelease (dmemRelease h f.raw) (some f.block)) fs

/-- What `dispatch_message` requests for the payload. -/
def messageRequest (frames : List WsFrame) : Nat :=
  (((frames.head?.map WsFrame.payloadLen).getD 0 + backwardsLen frames) %
    18446744073709551616 + 1) % 4294967296

/-- `dispatchMessage` -/
def dispatchUses (w : World) (frames : List WsFrame) : List (Heap × Block) :=
  frames.map (fun f => (w.heap, f.block)) ++
    match dmemCreate w.heap (messageRequest frames) with
    | (none, _) => []
    | (some payload, h) =>
      (h, payload) :: frames.reverse.flatMap (WsFrame.uses h) ++ cleanupUses h frames.reverse ++
        match dmemCreate (cleanupFrames h frames.reverse) sizeofMessage with
        | (none, _) => []
        | (some msg, h) => [(h, msg), (h, payload)]

/-- `frameDone` -/
def doneUses (w : World) (current : WsFrame) (prev : List WsFrame) : List (Heap × Block) :=
  if current.fin then
    if current.opcode &&& 8 = 8 then controlUses w current
    else dispatchUses w (current :: prev)
  else frameUses w.heap fun h => [(h, current.block)]

/-- A frame with room for the byte: the current one, or a new one. -/
def seekRoom (w : World) : World × Option (WsFrame × List WsFrame) :=
  match openFrame w with
  | (w, false) => (w, none)
  | (w, true) =>
    match w.ws.frames with
    | [] => (w, none)
    | current :: prev =>
      match extendFrame w current prev with
      | (w, none) => (w, none)
      | (w, some current) => (w, some (current, prev))

/-- What is touched until there is room. -/
def roomUses (w : World) : List (Heap × Block) :=
  openUses w ++
    match openFrame w with
    | (_, false) => []
    | (w, true) =>
      match w.ws.frames with
      | [] => []
      | current :: _ => extendUses w current

/-- **What `in_data` touches**, each block with the heap at that time. -/
def touched (w : World) (c : UInt8) : List (Heap × Block) :=
  roomUses w ++
    match seekRoom w with
    | (_, none) => []
    | (w₁, some (current, prev)) =>
      current.uses w₁.heap ++
        match completionOf w c with
        | some (.complete, f) => doneUses { w₁ with ws := { w₁.ws with frames := f :: prev } } f prev
        | _ => []

/-! ## The ledger -/

/-- The blocks in the queues of the slots. -/
def queuedBlocks (slots : Slots) : Multiset Block := ∑ i, queueBlocks (slots i).datNode

/-- **Every live block** is reachable from `current_frame`, queued or one of the others, and no dead
block was released. -/
def Accounted (others : Multiset Block) (w : World) : Prop :=
  w.heap.Exactly false (↑w.frameBlocks + queuedBlocks w.slots + others)

/-- The current frame is full, more room is denied, and earlier fragments are behind it. -/
def dropsFragments (w : World) : Bool :=
  match w.ws.frames with
  | current :: _ :: _ => decide (current.rawdataSz ≤ current.rawdataIdx) &&
      (dmemExtend w.heap current.raw
        ((current.rawdataSz + frameChunkLength) % 4294967296)).1.isNone
  | _ => false

/-- The frame is complete, and the memory is denied: for the payload of the message, or for the raw
data of the next fragment after its record was granted. -/
def dropsFrame (h : Heap) (current : WsFrame) (prev : List WsFrame) : Bool :=
  if current.fin then
    decide (current.opcode &&& 8 ≠ 8) &&
      (dmemCreate h (messageRequest (current :: prev))).1.isNone
  else
    match dmemCreate h sizeofFrame with
    | (none, _) => false
    | (some _, h) => (dmemCreate h frameChunkLength).1.isNone

/-- **A denied request** makes `in_data` forget blocks. -/
def leaks (w : World) (c : UInt8) : Bool :=
  dropsFragments w ||
    match seekRoom w, completionOf w c with
    | (w₁, some (_, prev)), some (.complete, f) => dropsFrame w₁.heap f prev
    | _, _ => false

/-- **Only live blocks** are read, written and released. -/
structure Careful (w : World) (c : UInt8) : Prop where
  touched : ∀ u ∈ touched w c, u.2 ∈ u.1.live
  misuse : (inData w c).1.heap.misuse = w.heap.misuse

/-! ## Each step -/

/-- The blocks of some frames. -/
def blocksOf (frames : List WsFrame) : Multiset Block := ↑(frames.flatMap WsFrame.blocks)

/-- Every block is live when it is touched. -/
def AllLive (us : List (Heap × Block)) : Prop := ∀ u ∈ us, u.2 ∈ u.1.live

section Steps

variable {m : Bool} {h : Heap} {S others : Multiset Block} {w : World} {f current : WsFrame}
  {prev frames : List WsFrame} {us vs : List (Heap × Block)}

theorem AllLive.append (hu : AllLive us) (hv : AllLive vs) : AllLive (us ++ vs) := fun u hmem =>
  (List.mem_append.mp hmem).elim (hu u) (hv u)

theorem AllLive.cons {b : Block} (hb : b ∈ h.live) (hv : AllLive vs) : AllLive ((h, b) :: vs) :=
  List.forall_mem_cons.mpr ⟨hb, hv⟩

theorem allLive_nil : AllLive [] := List.forall_mem_nil _

theorem coe_frame (f : WsFrame) : (f.blocks : Multiset Block) = Block.opt f.raw + {f.block} := by
  unfold WsFrame.blocks WsFrame.raw Block.opt
  rw [← Multiset.coe_add]
  rfl

theorem blocksOf_cons (f : WsFrame) (fs : List WsFrame) :
    blocksOf (f :: fs) = Block.opt f.raw + {f.block} + blocksOf fs := by
  unfold blocksOf
  rw [List.flatMap_cons, ← Multiset.coe_add, coe_frame]

theorem blocksOf_reverse (fs : List WsFrame) : blocksOf fs.reverse = blocksOf fs := by
  induction fs with
  | nil => rfl
  | cons f fs ih =>
    have hlast : blocksOf (fs.reverse ++ [f]) = blocksOf fs.reverse + blocksOf [f] := by
      unfold blocksOf
      rw [List.flatMap_append, Multiset.coe_add]
    rw [List.reverse_cons, hlast, ih, blocksOf_cons, blocksOf_cons]
    show _ + (_ + 0) = _
    rw [add_zero, add_comm]

theorem allLive_uses (hx : h.Exactly m (Block.opt f.raw + {f.block} + S)) :
    AllLive (f.uses h) := by
  intro u hu
  obtain ⟨b, hb, rfl⟩ := List.mem_map.mp hu
  refine hx.mem (Multiset.mem_add.mpr (.inl ?_))
  rw [← coe_frame]
  exact Multiset.mem_coe.mpr hb

/-- The record and the raw data of a new frame. -/
theorem allLive_frameUses {more : Heap → List (Heap × Block)} (hx : h.Exactly m S)
    (hmore : ∀ h' b d, h'.Exactly m ({d} + ({b} + S)) → AllLive (more h')) :
    AllLive (frameUses h more) := by
  unfold frameUses
  rcases hx.create_cases sizeofFrame with ⟨h₁, hc, hx₁⟩ | ⟨b, h₁, hc, hx₁⟩
  · rw [hc]
    exact allLive_nil
  · rw [hc]
    dsimp only
    have hb : b ∈ h₁.live := hx₁.mem (by simp)
    rcases hx₁.create_cases frameChunkLength with ⟨h₂, hc₂, hx₂⟩ | ⟨d, h₂, hc₂, hx₂⟩
    · rw [hc₂]
      exact .cons hb (.cons (hx₂.mem (by simp)) allLive_nil)
    · rw [hc₂]
      exact .cons hb (.cons (hx₂.mem (by simp)) (.cons (hx₂.mem (by simp)) (hmore _ _ _ hx₂)))

/-! ### Room for the byte -/

theorem Accounted.exactly {fs : List WsFrame} (hA : Accounted others w) (hf : w.ws.frames = fs) :
    w.heap.Exactly false (blocksOf fs + queuedBlocks w.slots + others) := hf ▸ hA

theorem Accounted.of {slots : Slots} {fs : List WsFrame}
    (hx : h.Exactly false (blocksOf fs + queuedBlocks slots + others)) (hh : w.heap = h)
    (hs : w.slots = slots) (hf : w.ws.frames = fs) : Accounted others w := by
  subst hh hs hf
  exact hx

/-- A frame with raw data. -/
theorem blocksOf_data {b d : Block} (hraw : f.raw = some d) (hb : f.block = b) :
    blocksOf (f :: frames) = {d} + {b} + blocksOf frames := by
  rw [blocksOf_cons, hraw, hb, Block.opt_some]

theorem openFrame_ledger (hA : Accounted others w) :
    Accounted others (openFrame w).1 ∧ AllLive (openUses w) := by
  unfold openFrame openUses
  cases hf : w.ws.frames with
  | cons f fs => exact ⟨hA, allLive_nil⟩
  | nil =>
    have hx := hA.exactly hf
    refine ⟨?_, allLive_frameUses hx fun _ _ _ _ => allLive_nil⟩
    rcases hx.create_cases sizeofFrame with ⟨h₁, hc, hx₁⟩ | ⟨b, h₁, hc, hx₁⟩
    · rw [hc]
      exact .of hx₁ rfl rfl hf
    · rw [hc]
      dsimp only
      rcases hx₁.create_cases frameChunkLength with ⟨h₂, hc₂, hx₂⟩ | ⟨d, h₂, hc₂, hx₂⟩
      · rw [hc₂]
        exact .of hx₂.release rfl rfl hf
      · rw [hc₂]
        refine .of (hx₂.congr ?_) rfl rfl rfl
        rw [blocksOf_data rfl rfl]
        show {d} + ({b} + (blocksOf [] + _ + _)) = {d} + {b} + blocksOf [] + _ + _
        abel

/-- More room for the current frame, or the frame is given up with all that is behind it. -/
theorem extendFrame_ledger (hf : w.ws.frames = current :: prev) (hA : Accounted others w) :
    AllLive (extendUses w current) ∧
      ((extendFrame w current prev).2 = none →
        (extendFrame w current prev).1.ws.frames = [] ∧
          Accounted (blocksOf prev + others) (extendFrame w current prev).1) ∧
      ∀ f ∈ (extendFrame w current prev).2,
        (extendFrame w current prev).1.ws.frames = f :: prev ∧
          Accounted others (extendFrame w current prev).1 := by
  have hx := hA.exactly hf
  rw [blocksOf_cons] at hx
  have hblock : current.block ∈ w.heap.live := hx.mem (by simp)
  unfold extendFrame extendUses
  split
  · have hx' : w.heap.Exactly false (Block.opt current.raw +
        ({current.block} + (blocksOf prev + queuedBlocks w.slots + others))) := hx.congr (by abel)
    rw [show current.rawdata.map (·.1) = current.raw from rfl]
    rcases hx'.extend_cases ((current.rawdataSz + frameChunkLength) % 4294967296) with
      ⟨h₁, hc, hx₁⟩ | ⟨b, h₁, hc, hx₁⟩
    · dsimp only
      rw [hc]
      have hx₂ := hx₁.releaseOpt
      refine ⟨.cons hblock (.cons (hx₁.mem (by simp)) (.cons (hx₂.mem (by simp)) allLive_nil)),
        fun _ => ⟨rfl, .of (hx₂.release.congr ?_) rfl rfl rfl⟩, by rintro f ⟨⟩⟩
      show blocksOf prev + _ + _ = 0 + _ + (blocksOf prev + _)
      abel
    · dsimp only
      rw [hc]
      refine ⟨.cons hblock (.cons (hx₁.mem (by simp)) (.cons (hx₁.mem (by simp)) allLive_nil)),
        by rintro ⟨⟩, fun f hmem => ?_⟩
      obtain rfl := Option.some.inj hmem
      refine ⟨rfl, .of (hx₁.congr ?_) rfl rfl rfl⟩
      rw [blocksOf_data rfl rfl]
      show {b} + ({current.block} + (_ + _ + _)) = {b} + {current.block} + _ + _ + _
      abel
  · refine ⟨.cons hblock allLive_nil, by rintro ⟨⟩, fun f hmem => ?_⟩
    obtain rfl := Option.some.inj hmem
    exact ⟨hf, hA⟩

/-! ### A whole frame -/

theorem queuedBlocks_push (slots : Slots) (sid : Fin tcpClientMaxSockets) (node : Node) :
    queuedBlocks (Function.update slots sid
      { slots sid with datNode := listPushNode (slots sid).datNode node }) =
      ↑node.blocks + queuedBlocks slots := by
  unfold queuedBlocks
  have hcomp : ∀ i, queueBlocks (Function.update slots sid
      { slots sid with datNode := listPushNode (slots sid).datNode node } i).datNode =
      Function.update (fun i => queueBlocks (slots i).datNode) sid
        (↑node.blocks + queueBlocks (slots sid).datNode) i := by
    intro i
    by_cases hi : i = sid
    · subst hi
      rw [Function.update_self, Function.update_self]
      exact queueBlocks_concat _ _
    · rw [Function.update_of_ne hi, Function.update_of_ne hi]
  rw [Finset.sum_congr rfl fun i _ => hcomp i, Finset.sum_update_of_mem (Finset.mem_univ sid),
    add_assoc, Finset.sum_eq_add_sum_sdiff_singleton_of_mem (Finset.mem_univ sid) fun i =>
      queueBlocks (slots i).datNode]

theorem tcpClientSend_ledger {slots : Slots} (hx : h.Exactly m (queuedBlocks slots + S)) (sid : Nat)
    (data : Bytes) (n : Nat) : (tcpClientSend h slots sid data n).2.1.Exactly m
      (queuedBlocks (tcpClientSend h slots sid data n).2.2 + S) := by
  unfold tcpClientSend
  split
  · split
    · dsimp only
      split
      · rcases hx.listNewNode data (n % 65536) with ⟨h₁, hc, hx₁⟩ | ⟨node, h₁, hc, hx₁⟩
        · rw [hc]
          exact hx₁
        · rw [hc]
          refine hx₁.congr ?_
          rw [queuedBlocks_push, add_assoc]
      · exact hx
    · exact hx
  · exact hx

theorem handleOpcode_ledger (ctl : WsFrame) (mask : Bytes) (hA : Accounted others w) :
    Accounted others (handleOpcode w ctl mask) ∧
      (handleOpcode w ctl mask).ws.frames = w.ws.frames := by
  have hx : w.heap.Exactly false (queuedBlocks w.slots + (↑w.frameBlocks + others)) :=
    Heap.Exactly.congr hA (by abel)
  unfold handleOpcode
  split
  · dsimp only
    split
    · exact ⟨hA, rfl⟩
    · refine ⟨.of ((tcpClientSend_ledger hx _ _ _).congr ?_) rfl rfl rfl, rfl⟩
      show _ + (blocksOf w.ws.frames + _) = blocksOf w.ws.frames + _ + _
      abel
  · exact ⟨hA, rfl⟩

/-- **A control frame** leaves the current frame, with raw data or without. -/
theorem handleControlFrame_ledger (hf : w.ws.frames = f :: prev) (hA : Accounted others w) :
    Accounted others (handleControlFrame w f prev).1 ∧ AllLive (controlUses w f) := by
  have hdraw : Accounted others w.drawMask.2 := hA
  obtain ⟨hop, hframes⟩ := handleOpcode_ledger f w.drawMask.1 hdraw
  have hx := hA.exactly hf
  have hx₁ := hop.exactly (hframes.trans hf)
  rw [blocksOf_cons] at hx hx₁
  unfold handleControlFrame controlUses
  dsimp only
  generalize handleOpcode w.drawMask.2 f w.drawMask.1 = w₁ at hx₁ ⊢
  have hx₂ : (dmemRelease w₁.heap f.raw).Exactly false
      ({f.block} + (blocksOf prev + queuedBlocks w₁.slots + others)) :=
    Heap.Exactly.releaseOpt (hx₁.congr (by abel))
  have huses : AllLive (f.uses w.heap) := allLive_uses (hx.congr (add_assoc _ _ _ |>.trans
    (add_assoc _ _ _)))
  have hctl : f.block ∈ w₁.heap.live := hx₁.mem (by simp)
  have hctl₂ : f.block ∈ (dmemRelease w₁.heap f.raw).live := hx₂.mem (by simp)
  unfold resetFrame
  rw [show f.rawdata.map (·.1) = f.raw from rfl]
  rcases hx₂.create_cases frameChunkLength with ⟨h₃, hc, hx₃⟩ | ⟨d, h₃, hc, hx₃⟩
  · rw [hc]
    refine ⟨.of (hx₃.congr ?_) rfl rfl rfl, huses.append (.cons hctl (.cons hctl₂
      (.cons (hx₃.mem (by simp)) allLive_nil)))⟩
    rw [blocksOf_cons]
    show {f.block} + (_ + _ + _) = (0 : Multiset Block) + {f.block} + _ + _ + _
    abel
  · rw [hc]
    refine ⟨.of (hx₃.congr ?_) rfl rfl rfl, huses.append (.cons hctl (.cons hctl₂
      (.cons (hx₃.mem (by simp)) (.cons (hx₃.mem (by simp)) allLive_nil))))⟩
    rw [blocksOf_data rfl rfl]
    show {d} + ({f.block} + (_ + _ + _)) = {d} + {f.block} + _ + _ + _
    abel

/-- `cleanup_frames` releases all blocks of the frames. -/
theorem cleanupFrames_ledger (hx : h.Exactly m (blocksOf frames + S)) :
    (cleanupFrames h frames).Exactly m S ∧ AllLive (cleanupUses h frames) := by
  induction frames generalizing h with
  | nil => exact ⟨hx.congr (zero_add S), allLive_nil⟩
  | cons f fs ih =>
    rw [blocksOf_cons] at hx
    have hx₁ : (dmemRelease h f.raw).Exactly m ({f.block} + (blocksOf fs + S)) :=
      Heap.Exactly.releaseOpt (hx.congr (by abel))
    obtain ⟨hrest, huses⟩ := ih hx₁.release
    exact ⟨hrest, .cons (hx.mem (by simp)) huses⟩

theorem allLive_records (hx : h.Exactly m (blocksOf frames + S)) :
    AllLive (frames.map fun f => (h, f.block)) := by
  intro u hu
  obtain ⟨f, hf, rfl⟩ := List.mem_map.mp hu
  refine hx.mem (Multiset.mem_add.mpr (.inl (Multiset.mem_coe.mpr ?_)))
  exact List.mem_flatMap.mpr ⟨f, hf, List.mem_append_right _ (List.mem_singleton_self _)⟩

theorem allLive_frames (hx : h.Exactly m (blocksOf frames + S)) :
    AllLive (frames.flatMap (WsFrame.uses h)) := by
  intro u hu
  obtain ⟨f, hf, hu⟩ := List.mem_flatMap.mp hu
  obtain ⟨b, hb, rfl⟩ := List.mem_map.mp hu
  refine hx.mem (Multiset.mem_add.mpr (.inl (Multiset.mem_coe.mpr ?_)))
  exact List.mem_flatMap.mpr ⟨f, hf, hb⟩

/-- **A message** releases its frames, or loses them when there is no memory for the payload. -/
theorem dispatchMessage_ledger (hf : w.ws.frames = f :: prev) (hA : Accounted others w) :
    AllLive (dispatchUses w (f :: prev)) ∧
      (dispatchMessage w (f :: prev)).1.heap.Exactly false
        ((if (dmemCreate w.heap (messageRequest (f :: prev))).1.isNone then blocksOf (f :: prev)
          else 0) + queuedBlocks (dispatchMessage w (f :: prev)).1.slots + others) := by
  have hx := hA.exactly hf
  rw [add_assoc] at hx
  have hwalk := allLive_records hx
  unfold dispatchUses dispatchMessage
  dsimp only
  rw [show ((f.payloadLen + backwardsLen (f :: prev)) % 18446744073709551616 + 1) % 4294967296 =
    messageRequest (f :: prev) from rfl]
  rcases hx.create_cases (messageRequest (f :: prev)) with ⟨h₁, hc, hx₁⟩ | ⟨p, h₁, hc, hx₁⟩
  · rw [hc]
    refine ⟨hwalk.append allLive_nil, hx₁.congr ?_⟩
    show _ = blocksOf (f :: prev) + _ + _
    abel
  · rw [hc]
    dsimp only
    have hall : h₁.Exactly false (blocksOf (f :: prev).reverse +
        ({p} + (queuedBlocks w.slots + others))) :=
      hx₁.congr (by rw [blocksOf_reverse]; abel)
    obtain ⟨hx₂, hclean⟩ := cleanupFrames_ledger hall
    have hp : p ∈ h₁.live := hx₁.mem (by simp)
    have huses := (AllLive.cons hp (allLive_frames hall)).append hclean
    rcases hx₂.create_cases sizeofMessage with ⟨h₃, hc₃, hx₃⟩ | ⟨msg, h₃, hc₃, hx₃⟩
    · rw [hc₃]
      refine ⟨hwalk.append (huses.append allLive_nil), hx₃.release.congr ?_⟩
      show _ = 0 + _ + _
      abel
    · rw [hc₃]
      refine ⟨hwalk.append (huses.append (.cons (hx₃.mem (by simp))
        (.cons (hx₃.mem (by simp)) allLive_nil))), hx₃.release.release.congr ?_⟩
      show _ = 0 + _ + _
      abel

/-- **A fragment** gets a frame, or loses the record of one when its raw data is denied. -/
theorem newFragment_ledger (hf : w.ws.frames = f :: prev) (hA : Accounted others w) :
    AllLive (frameUses w.heap fun h => [(h, f.block)]) ∧
      ∃ lost, Accounted (lost + others) (newFragment w).1 ∧
        (lost = 0 ↔ (match dmemCreate w.heap sizeofFrame with
          | (none, _) => false
          | (some _, h) => (dmemCreate h frameChunkLength).1.isNone) = false) := by
  have hx := hA.exactly hf
  refine ⟨allLive_frameUses hx fun h' b d hx' => .cons (hx'.mem ?_) allLive_nil, ?_⟩
  · rw [blocksOf_cons]
    simp
  unfold newFragment
  rcases hx.create_cases sizeofFrame with ⟨h₁, hc, hx₁⟩ | ⟨b, h₁, hc, hx₁⟩
  · rw [hc]
    refine ⟨0, .of (hx₁.congr ?_) rfl rfl hf, ⟨fun _ => rfl, fun _ => rfl⟩⟩
    rw [zero_add]
  · rw [hc]
    dsimp only
    rcases hx₁.create_cases frameChunkLength with ⟨h₂, hc₂, hx₂⟩ | ⟨d, h₂, hc₂, hx₂⟩
    · rw [hc₂]
      refine ⟨{b}, .of (hx₂.congr ?_) rfl rfl hf, ⟨fun h => ?_, by rintro ⟨⟩⟩⟩
      · abel
      · cases Multiset.singleton_ne_zero b h
    · rw [hc₂]
      refine ⟨0, .of (hx₂.congr ?_) rfl rfl rfl, ⟨fun _ => rfl, fun _ => rfl⟩⟩
      conv_rhs => rw [blocksOf_data rfl rfl, hf]
      show ({d} : Multiset Block) + ({b} + (_ + _ + _)) = {d} + {b} + _ + _ + (0 + _)
      abel

theorem blocksOf_ne_zero (f : WsFrame) (fs : List WsFrame) : blocksOf (f :: fs) ≠ 0 := by
  rw [blocksOf_cons]
  simp

/-- **A whole frame** loses blocks exactly when `dropsFrame` says so. -/
theorem frameDone_ledger (hf : w.ws.frames = f :: prev) (hA : Accounted others w) :
    AllLive (doneUses w f prev) ∧ ∃ lost, Accounted (lost + others) (frameDone w f prev).1 ∧
      (lost = 0 ↔ dropsFrame w.heap f prev = false) := by
  unfold doneUses frameDone dropsFrame
  split
  · split
    · rename_i hcontrol
      obtain ⟨hA', huses⟩ := handleControlFrame_ledger hf hA
      refine ⟨huses, 0, by rwa [zero_add], ⟨fun _ => ?_, fun _ => rfl⟩⟩
      rw [decide_eq_false (not_not.mpr hcontrol), Bool.false_and]
    · rename_i hcontrol
      obtain ⟨huses, hx⟩ := dispatchMessage_ledger hf hA
      rw [decide_eq_true hcontrol, Bool.true_and]
      refine ⟨huses, if (dmemCreate w.heap (messageRequest (f :: prev))).1.isNone then
        blocksOf (f :: prev) else 0, .of (hx.congr ?_) rfl rfl rfl, ?_⟩
      · show _ + queuedBlocks (dispatchMessage w (f :: prev)).1.slots + others =
          0 + queuedBlocks (dispatchMessage w (f :: prev)).1.slots + (_ + others)
        abel
      · split
        · rename_i hnone
          rw [hnone]
          exact ⟨fun h => absurd h (blocksOf_ne_zero f prev), by rintro ⟨⟩⟩
        · rename_i hsome
          exact ⟨fun _ => Bool.eq_false_iff.mpr hsome, fun _ => rfl⟩
  · exact newFragment_ledger hf hA

end Steps

/-! ## A byte -/

section Byte

variable {others : Multiset Block} {w w₁ : World} {c : UInt8} {f current : WsFrame}
  {prev : List WsFrame}

theorem inData_seekRoom (w : World) (c : UInt8) : (inData w c).1 =
    match seekRoom w with
    | (w₁, none) => w₁
    | (w₁, some (current, prev)) => (storeByte w₁ c current prev).1 := by
  unfold inData seekRoom
  cases openFrame w with
  | mk w₁ ok =>
    cases ok with
    | false => rfl
    | true =>
      dsimp only
      cases w₁.ws.frames with
      | nil => rfl
      | cons current prev =>
        dsimp only
        unfold fillFrame
        cases extendFrame w₁ current prev with
        | mk w₂ room => cases room <;> rfl

theorem completionOf_seekRoom (w : World) (c : UInt8) : completionOf w c =
    (seekRoom w).2.bind fun p => p.1.rawdata.map fun r =>
      completeFrame { p.1 with
        rawdataIdx := (p.1.rawdataIdx + 1) % 4294967296
        rawdata := some (r.1, r.2.set p.1.rawdataIdx c) } (r.2.set p.1.rawdataIdx c) := by
  unfold completionOf seekRoom
  cases openFrame w with
  | mk w₁ ok =>
    cases ok with
    | false => rfl
    | true =>
      dsimp only
      cases w₁.ws.frames with
      | nil => rfl
      | cons current prev =>
        dsimp only
        cases extendFrame w₁ current prev with
        | mk w₂ room => cases room <;> rfl

theorem extendFrame_none : (extendFrame w current prev).2 = none ↔
    current.rawdataSz ≤ current.rawdataIdx ∧ (dmemExtend w.heap current.raw
      ((current.rawdataSz + frameChunkLength) % 4294967296)).1.isNone = true := by
  unfold extendFrame
  rw [show current.rawdata.map (·.1) = current.raw from rfl]
  split
  · rename_i hfull
    dsimp only
    cases dmemExtend w.heap current.raw
        ((current.rawdataSz + frameChunkLength) % 4294967296) with
    | mk o h =>
      cases o with
      | none => exact ⟨fun _ => ⟨hfull, rfl⟩, fun _ => rfl⟩
      | some b => exact ⟨by rintro ⟨⟩, by rintro ⟨-, ⟨⟩⟩⟩
  · rename_i hroom
    exact ⟨by rintro ⟨⟩, fun h => absurd h.1 hroom⟩

/-- Up to the room for the byte. -/
theorem seekRoom_ledger (hA : Accounted others w) :
    AllLive (roomUses w) ∧
      ((seekRoom w).2 = none → ∃ lost, Accounted (lost + others) (seekRoom w).1 ∧
        (lost = 0 ↔ dropsFragments w = false)) ∧
      ∀ current prev, (seekRoom w).2 = some (current, prev) →
        (seekRoom w).1.ws.frames = current :: prev ∧ Accounted others (seekRoom w).1 ∧
          dropsFragments w = false := by
  obtain ⟨hopen, huses⟩ := openFrame_ledger hA
  unfold roomUses seekRoom dropsFragments
  cases hf : w.ws.frames with
  | nil =>
    cases hof : openFrame w with
    | mk w₁ ok =>
      rw [hof] at hopen
      cases ok with
      | false =>
        exact ⟨huses.append allLive_nil,
          fun _ => ⟨0, by rwa [zero_add], ⟨fun _ => rfl, fun _ => rfl⟩⟩, by rintro f fs ⟨⟩⟩
      | true =>
        dsimp only at hopen ⊢
        cases hf₁ : w₁.ws.frames with
        | nil =>
          exact ⟨huses.append allLive_nil,
            fun _ => ⟨0, by rwa [zero_add], ⟨fun _ => rfl, fun _ => rfl⟩⟩, by rintro f fs ⟨⟩⟩
        | cons current prev =>
          have hprev : prev = [] := by
            unfold openFrame at hof
            rw [hf] at hof
            dsimp only at hof
            split at hof
            · cases hof
            · split at hof
              · cases hof
              · obtain rfl := (Prod.mk.inj hof).1
                exact (List.cons.inj hf₁).2.symm
          subst hprev
          obtain ⟨hext, hnone, hsome⟩ := extendFrame_ledger hf₁ hopen
          dsimp only
          cases hef : extendFrame w₁ current [] with
          | mk w₂ room =>
            rw [hef] at hnone hsome
            cases room with
            | none =>
              exact ⟨huses.append hext, fun _ => ⟨0, (hnone rfl).2, ⟨fun _ => rfl, fun _ => rfl⟩⟩,
                by rintro f fs ⟨⟩⟩
            | some f =>
              refine ⟨huses.append hext, by rintro ⟨⟩, fun f' fs h => ?_⟩
              obtain ⟨rfl, rfl⟩ := Prod.mk.inj (Option.some.inj h)
              obtain ⟨hframes, hA'⟩ := hsome _ rfl
              exact ⟨hframes, hA', rfl⟩
  | cons current prev =>
    have hof : openFrame w = (w, true) := by
      unfold openFrame
      rw [hf]
    obtain ⟨hext, hnone, hsome⟩ := extendFrame_ledger hf hA
    have hiff := @extendFrame_none w current prev
    rw [hof]
    dsimp only
    rw [hf]
    dsimp only
    cases hef : extendFrame w current prev with
    | mk w₂ room =>
      rw [hef] at hnone hsome hiff
      cases room with
      | none =>
        obtain ⟨hfull, hdenied⟩ := hiff.mp rfl
        refine ⟨huses.append hext, fun _ => ⟨_, (hnone rfl).2, ?_⟩, by rintro f fs ⟨⟩⟩
        cases prev with
        | nil => exact ⟨fun _ => rfl, fun _ => rfl⟩
        | cons p ps =>
          dsimp only
          rw [decide_eq_true hfull, hdenied]
          exact ⟨fun h => absurd h (blocksOf_ne_zero p ps), by rintro ⟨⟩⟩
      | some f =>
        refine ⟨huses.append hext, by rintro ⟨⟩, fun f' fs h => ?_⟩
        obtain ⟨rfl, rfl⟩ := Prod.mk.inj (Option.some.inj h)
        obtain ⟨hframes, hA'⟩ := hsome _ rfl
        refine ⟨hframes, hA', ?_⟩
        cases prev with
        | nil => rfl
        | cons p ps =>
          dsimp only
          by_contra hdrops
          rw [Bool.not_eq_false, Bool.and_eq_true] at hdrops
          cases hiff.mpr ⟨of_decide_eq_true hdrops.1, hdrops.2⟩

/-- `complete_frame` writes the four fields of the header. -/
theorem completeFrame_fields (f : WsFrame) (raw : Bytes) : ∃ fin opcode offset len,
    (completeFrame f raw).2 = { f with
      fin := fin
      opcode := opcode
      payloadOffset := offset
      payloadLen := len } := by
  unfold completeFrame
  split
  · exact ⟨_, _, _, _, rfl⟩
  · dsimp only
    split
    · exact ⟨_, _, _, _, rfl⟩
    · split
      · split
        · exact ⟨_, _, _, _, rfl⟩
        · split <;> exact ⟨_, _, _, _, rfl⟩
      · split
        · split
          · exact ⟨_, _, _, _, rfl⟩
          · split <;> exact ⟨_, _, _, _, rfl⟩
        · split <;> exact ⟨_, _, _, _, rfl⟩

/-- `complete_frame` leaves the blocks of the frame. -/
theorem completeFrame_blocks (f : WsFrame) (raw : Bytes) :
    (completeFrame f raw).2.block = f.block ∧ (completeFrame f raw).2.rawdata = f.rawdata := by
  obtain ⟨fin, opcode, offset, len, heq⟩ := completeFrame_fields f raw
  rw [heq]
  exact ⟨rfl, rfl⟩

/-- **A byte**: nothing dead is touched or released, and blocks are lost exactly when it leaks. -/
theorem inData_ledger (hA : Accounted others w) (c : UInt8) :
    AllLive (touched w c) ∧ ∃ lost, Accounted (lost + others) (inData w c).1 ∧
      (lost = 0 ↔ leaks w c = false) := by
  obtain ⟨huses, hnone, hsome⟩ := seekRoom_ledger hA
  unfold touched leaks
  rw [inData_seekRoom, completionOf_seekRoom]
  cases hseek : seekRoom w with
  | mk w₁ room =>
    rw [hseek] at hnone hsome
    cases room with
    | none =>
      obtain ⟨lost, hA', hlost⟩ := hnone rfl
      refine ⟨huses.append allLive_nil, lost, hA', ?_⟩
      rw [Bool.or_false]
      exact hlost
    | some p =>
      obtain ⟨current, prev⟩ := p
      obtain ⟨hf, hA₁, hkept⟩ := hsome current prev rfl
      dsimp only at hf hA₁ ⊢
      have hx := hA₁.exactly hf
      rw [blocksOf_cons, add_assoc, add_assoc] at hx
      have hcur := allLive_uses hx
      rw [hkept, Bool.false_or, Option.bind_some]
      unfold storeByte
      cases hraw : current.rawdata with
      | none =>
        exact ⟨huses.append (hcur.append allLive_nil), 0, by rwa [zero_add],
          ⟨fun _ => rfl, fun _ => rfl⟩⟩
      | some r =>
        obtain ⟨b, raw⟩ := r
        dsimp only [Option.map_some]
        have hblocks := completeFrame_blocks { current with
          rawdataIdx := (current.rawdataIdx + 1) % 4294967296
          rawdata := some (b, raw.set current.rawdataIdx c) } (raw.set current.rawdataIdx c)
        cases hcomp : completeFrame { current with
            rawdataIdx := (current.rawdataIdx + 1) % 4294967296
            rawdata := some (b, raw.set current.rawdataIdx c) } (raw.set current.rawdataIdx c) with
        | mk r f =>
          rw [hcomp] at hblocks
          have hsame : blocksOf (current :: prev) = blocksOf (f :: prev) := by
            rw [blocksOf_cons, blocksOf_cons, hblocks.1]
            unfold WsFrame.raw
            rw [hblocks.2, hraw]
            rfl
          have hstored : ∀ w₂ : World, w₂.heap = w₁.heap → w₂.slots = w₁.slots →
              w₂.ws.frames = f :: prev → Accounted others w₂ := fun w₂ hh hs hframes =>
            .of ((hA₁.exactly hf).congr (by rw [hsame])) hh hs hframes
          cases r with
          | more =>
            exact ⟨huses.append (hcur.append allLive_nil), 0,
              by rw [zero_add]; exact hstored _ rfl rfl rfl, ⟨fun _ => rfl, fun _ => rfl⟩⟩
          | masked =>
            exact ⟨huses.append (hcur.append allLive_nil), 0,
              by rw [zero_add]; exact hstored _ rfl rfl rfl, ⟨fun _ => rfl, fun _ => rfl⟩⟩
          | complete =>
            obtain ⟨hdone, -⟩ := @frameDone_ledger others
              { w₁ with ws := { w₁.ws with frames := f :: prev } } f prev rfl
              (hstored _ rfl rfl rfl)
            obtain ⟨-, hlost⟩ := @frameDone_ledger others { w₁ with
              overrun := w₁.overrun || decide (raw.length ≤ current.rawdataIdx)
              ws := { w₁.ws with frames := f :: prev } } f prev rfl (hstored _ rfl rfl rfl)
            exact ⟨huses.append (hcur.append hdone), hlost⟩

end Byte

/-! ## The uses are those of the step -/

/-- One call of the allocator. -/
inductive HeapCall : Heap → Heap → Prop
  | create (h : Heap) (n : Nat) : HeapCall h (dmemCreate h n).2
  | extend (h : Heap) (b : Option Block) (n : Nat) : HeapCall h (dmemExtend h b n).2
  | release (h : Heap) (b : Option Block) : HeapCall h (dmemRelease h b)

/-- Some calls of the allocator, one after another. -/
abbrev HeapCalls : Heap → Heap → Prop := Relation.ReflTransGen HeapCall

/-- The heaps of the uses stand between the calls from the first heap to the last, in order. -/
def Threads : Heap → List (Heap × Block) → Heap → Prop
  | h, [], h' => HeapCalls h h'
  | h, u :: us, h' => HeapCalls h u.1 ∧ Threads u.1 us h'

section Threads

variable {h h₁ h' : Heap} {w : World} {f : WsFrame} {prev frames : List WsFrame}
  {us vs : List (Heap × Block)}

theorem calls_create {n : Nat} {o : Option Block} (hc : dmemCreate h n = (o, h')) :
    HeapCalls h h' := by
  have hcall := HeapCall.create h n
  rw [hc] at hcall
  exact .single hcall

theorem calls_extend {n : Nat} {b o : Option Block} (hc : dmemExtend h b n = (o, h')) :
    HeapCalls h h' := by
  have hcall := HeapCall.extend h b n
  rw [hc] at hcall
  exact .single hcall

theorem calls_release (h : Heap) (b : Option Block) : HeapCalls h (dmemRelease h b) :=
  .single (.release h b)

theorem Threads.before (hpre : HeapCalls h h₁) (ht : Threads h₁ us h') : Threads h us h' := by
  cases us with
  | nil => exact hpre.trans ht
  | cons u us => exact ⟨hpre.trans ht.1, ht.2⟩

theorem Threads.append (hu : Threads h us h₁) (hv : Threads h₁ vs h') : Threads h (us ++ vs) h' := by
  induction us generalizing h with
  | nil => exact hv.before hu
  | cons u us ih => exact ⟨hu.1, ih hu.2⟩

/-- Uses with no call between them. -/
theorem Threads.still (hus : ∀ u ∈ us, u.1 = h) : Threads h us h := by
  induction us with
  | nil => exact .refl
  | cons u us ih =>
    obtain ⟨rfl, hrest⟩ := List.forall_mem_cons.mp hus
    exact ⟨.refl, ih hrest⟩

theorem threads_uses (h : Heap) (f : WsFrame) : Threads h (f.uses h) h := by
  refine .still fun u hu => ?_
  obtain ⟨b, -, rfl⟩ := List.mem_map.mp hu
  rfl

/-- A new frame: its record and raw data, then what follows. -/
theorem threads_frameUses {more : Heap → List (Heap × Block)}
    (hnone : ∀ h₁, dmemCreate h sizeofFrame = (none, h₁) → HeapCalls h₁ h')
    (hrecord : ∀ b h₁ h₂, dmemCreate h sizeofFrame = (some b, h₁) →
      dmemCreate h₁ frameChunkLength = (none, h₂) → HeapCalls h₂ h')
    (hall : ∀ b d h₁ h₂, dmemCreate h sizeofFrame = (some b, h₁) →
      dmemCreate h₁ frameChunkLength = (some d, h₂) → Threads h₂ (more h₂) h') :
    Threads h (frameUses h more) h' := by
  unfold frameUses
  cases hc : dmemCreate h sizeofFrame with
  | mk o h₁ =>
    cases o with
    | none => exact (calls_create hc).trans (hnone h₁ hc)
    | some b =>
      dsimp only
      cases hc₂ : dmemCreate h₁ frameChunkLength with
      | mk o h₂ =>
        cases o with
        | none => exact ⟨calls_create hc, calls_create hc₂, hrecord b h₁ h₂ hc hc₂⟩
        | some d => exact ⟨calls_create hc, calls_create hc₂, .refl, hall b d h₁ h₂ hc hc₂⟩

theorem threads_openUses (w : World) : Threads w.heap (openUses w) (openFrame w).1.heap := by
  unfold openUses openFrame
  cases w.ws.frames with
  | cons f fs => exact .refl
  | nil =>
    refine threads_frameUses (fun h₁ hc => ?_) (fun b h₁ h₂ hc hc₂ => ?_)
      (fun b d h₁ h₂ hc hc₂ => ?_)
    · rw [hc]
    · rw [hc]
      dsimp only
      rw [hc₂]
      exact calls_release h₂ (some b)
    · rw [hc]
      dsimp only
      rw [hc₂]
      exact .refl

theorem threads_extendUses (w : World) (f : WsFrame) (prev : List WsFrame) :
    Threads w.heap (extendUses w f) (extendFrame w f prev).1.heap := by
  unfold extendUses extendFrame
  refine ⟨.refl, ?_⟩
  split
  · rw [show f.rawdata.map (·.1) = f.raw from rfl]
    dsimp only
    cases hc : dmemExtend w.heap f.raw ((f.rawdataSz + frameChunkLength) % 4294967296) with
    | mk o h₁ =>
      cases o with
      | none =>
        exact ⟨calls_extend hc, calls_release h₁ f.raw,
          calls_release (dmemRelease h₁ f.raw) (some f.block)⟩
      | some b => exact ⟨calls_extend hc, .refl, .refl⟩
  · exact .refl

theorem threads_roomUses (w : World) : Threads w.heap (roomUses w) (seekRoom w).1.heap := by
  unfold roomUses seekRoom
  refine (threads_openUses w).append ?_
  cases openFrame w with
  | mk w₁ ok =>
    cases ok with
    | false => exact .refl
    | true =>
      dsimp only
      cases w₁.ws.frames with
      | nil => exact .refl
      | cons f prev =>
        have hext := threads_extendUses w₁ f prev
        dsimp only
        cases hef : extendFrame w₁ f prev with
        | mk w₂ room =>
          rw [hef] at hext
          cases room <;> exact hext

theorem calls_tcpClientSend (h : Heap) (slots : Slots) (sid : Nat) (data : Bytes) (n : Nat) :
    HeapCalls h (tcpClientSend h slots sid data n).2.1 := by
  have hnode : HeapCalls h (listNewNode h data (n % 65536)).2 := by
    unfold listNewNode
    split
    · split
      · rename_i hc
        exact calls_create hc
      · rename_i hc
        split
        · rename_i hc₂
          dsimp only
          exact ((calls_create hc).trans (calls_create hc₂)).trans (calls_release _ _)
        · rename_i hc₂
          exact (calls_create hc).trans (calls_create hc₂)
    · exact .refl
  unfold tcpClientSend
  split
  · split
    · dsimp only
      split
      · split
        · rename_i hn
          rwa [hn] at hnode
        · rename_i hn
          rwa [hn] at hnode
      · exact .refl
    · exact .refl
  · exact .refl

theorem threads_controlUses (w : World) (f : WsFrame) (prev : List WsFrame) :
    Threads w.heap (controlUses w f) (handleControlFrame w f prev).1.heap := by
  have hop : HeapCalls w.heap (handleOpcode w.drawMask.2 f w.drawMask.1).heap := by
    unfold handleOpcode
    split
    · dsimp only
      split
      · exact .refl
      · exact calls_tcpClientSend _ _ _ _ _
    · exact .refl
  unfold controlUses handleControlFrame resetFrame
  refine (threads_uses w.heap f).append ⟨hop, calls_release _ _, ?_⟩
  rw [show f.rawdata.map (·.1) = f.raw from rfl]
  dsimp only
  cases hc : dmemCreate (dmemRelease (handleOpcode w.drawMask.2 f w.drawMask.1).heap f.raw)
      frameChunkLength with
  | mk o h₃ =>
    cases o with
    | none => exact ⟨calls_create hc, .refl⟩
    | some d => exact ⟨calls_create hc, .refl, .refl⟩

theorem threads_cleanupUses (h : Heap) (frames : List WsFrame) :
    Threads h (cleanupUses h frames) (cleanupFrames h frames) := by
  induction frames generalizing h with
  | nil => exact .refl
  | cons f fs ih =>
    exact ⟨.refl, (ih _).before ((calls_release h f.raw).trans (calls_release _ _))⟩

theorem threads_dispatchUses (w : World) (f : WsFrame) (prev : List WsFrame) :
    Threads w.heap (dispatchUses w (f :: prev)) (dispatchMessage w (f :: prev)).1.heap := by
  have hwalk : Threads w.heap ((f :: prev).map fun f => (w.heap, f.block)) w.heap := by
    refine .still fun u hu => ?_
    obtain ⟨g, -, rfl⟩ := List.mem_map.mp hu
    rfl
  unfold dispatchUses dispatchMessage
  refine hwalk.append ?_
  dsimp only
  rw [show ((f.payloadLen + backwardsLen (f :: prev)) % 18446744073709551616 + 1) % 4294967296 =
    messageRequest (f :: prev) from rfl]
  cases hc : dmemCreate w.heap (messageRequest (f :: prev)) with
  | mk o h₁ =>
    cases o with
    | none => exact calls_create hc
    | some p =>
      dsimp only
      have hread : Threads h₁ ((f :: prev).reverse.flatMap (WsFrame.uses h₁)) h₁ := by
        refine .still fun u hu => ?_
        obtain ⟨g, -, hu⟩ := List.mem_flatMap.mp hu
        obtain ⟨b, -, rfl⟩ := List.mem_map.mp hu
        rfl
      have hbuilt : Threads w.heap ((h₁, p) :: (f :: prev).reverse.flatMap (WsFrame.uses h₁)) h₁ :=
        ⟨calls_create hc, hread⟩
      refine .append (hbuilt.append (threads_cleanupUses h₁ _)) ?_
      cases hc₂ : dmemCreate (cleanupFrames h₁ (f :: prev).reverse) sizeofMessage with
      | mk o h₂ =>
        cases o with
        | none => exact (calls_create hc₂).trans (calls_release h₂ (some p))
        | some msg =>
          exact ⟨calls_create hc₂, .refl,
            (calls_release h₂ (some msg)).trans
              (calls_release (dmemRelease h₂ (some msg)) (some p))⟩

theorem threads_doneUses (w : World) (f : WsFrame) (prev : List WsFrame) :
    Threads w.heap (doneUses w f prev) (frameDone w f prev).1.heap := by
  unfold doneUses frameDone
  split
  · split
    · exact threads_controlUses w f prev
    · exact threads_dispatchUses w f prev
  · unfold newFragment
    refine threads_frameUses (fun h₁ hc => ?_) (fun b h₁ h₂ hc hc₂ => ?_)
      (fun b d h₁ h₂ hc hc₂ => ?_)
    · rw [hc]
    · rw [hc]
      dsimp only
      rw [hc₂]
    · rw [hc]
      dsimp only
      rw [hc₂]
      exact ⟨.refl, .refl⟩

/-- `overrun` makes no difference to the uses. -/
theorem doneUses_overrun (w : World) (b : Bool) (f : WsFrame) (prev : List WsFrame) :
    doneUses { w with overrun := b } f prev = doneUses w f prev := by
  have hop : (handleOpcode ({ w with overrun := b } : World).drawMask.2 f
      ({ w with overrun := b } : World).drawMask.1).heap =
        (handleOpcode w.drawMask.2 f w.drawMask.1).heap := by
    unfold handleOpcode World.drawMask
    dsimp only
    split
    · split <;> rfl
    · rfl
  unfold doneUses controlUses
  dsimp only
  rw [hop]
  rfl

/-- **The heaps of the uses** are those that `in_data` goes through, in the order of the uses. -/
theorem threads_touched (w : World) (c : UInt8) :
    Threads w.heap (touched w c) (inData w c).1.heap := by
  have hroom := threads_roomUses w
  unfold touched
  rw [inData_seekRoom, completionOf_seekRoom]
  refine hroom.append ?_
  cases seekRoom w with
  | mk w₁ room =>
    cases room with
    | none => exact .refl
    | some p =>
      obtain ⟨current, prev⟩ := p
      dsimp only
      refine (threads_uses w₁.heap current).append ?_
      rw [Option.bind_some]
      unfold storeByte
      cases hraw : current.rawdata with
      | none => exact .refl
      | some r =>
        obtain ⟨b, raw⟩ := r
        dsimp only [Option.map_some]
        cases completeFrame { current with
            rawdataIdx := (current.rawdataIdx + 1) % 4294967296
            rawdata := some (b, raw.set current.rawdataIdx c) } (raw.set current.rawdataIdx c) with
        | mk r f =>
          cases r with
          | more => exact .refl
          | masked => exact .refl
          | complete =>
            dsimp only
            have huses := doneUses_overrun { w₁ with ws := { w₁.ws with frames := f :: prev } }
              (w₁.overrun || decide (raw.length ≤ current.rawdataIdx)) f prev
            have hdone := threads_doneUses { w₁ with
              overrun := w₁.overrun || decide (raw.length ≤ current.rawdataIdx)
              ws := { w₁.ws with frames := f :: prev } } f prev
            rwa [huses] at hdone

end Threads

/-! ## The bytes -/

section Bytes

variable {others : Multiset Block} {w : World} {bs : Bytes}

theorem run_readByte (w : World) (bs : Bytes) :
    run readByte w bs = some (bs.foldl (fun w c => (inData w c).1) w) := by
  induction bs generalizing w with
  | nil => rfl
  | cons c bs ih => exact run_cons.mpr ⟨_, rfl, ih _⟩

end Bytes

/-! ## A message and no memory -/

theorem queuedBlocks_empty {slots : Slots} (h : ∀ i, (slots i).datNode = []) :
    queuedBlocks slots = 0 :=
  Finset.sum_eq_zero fun i _ => by
    rw [h i]
    rfl

theorem accounted_init (grants : Nat → Bool) (rand : Nat → UInt32) :
    Accounted 0 (worldInit grants rand) :=
  .of (Heap.Exactly.mk (by rw [queuedBlocks_empty fun _ => rfl]; rfl) rfl) rfl rfl rfl

/-- The message "hi" in two fragments. -/
def hiFragments : Bytes := [0x01, 1, 104, 0x80, 1, 105]

end Rastreo.Net
