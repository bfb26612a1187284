import Rastreo.Net.AfterClose

/-!
# What the bytes of a connection say

`in_data` with the allocator left out: the frames without their blocks, every request granted.

* `takeByte`, `takeBytes`: the frames after a byte and after many, and the messages on the way.
* **`inData_granted`**: `in_data` does this when no request it makes is denied.
-/

namespace Rastreo.Net

open Rastreo.Lib

/-! ## Frames without blocks -/

/-- Whatever block it is. -/
def anyBlock : Block := ⟨0, 0⟩

/-- Raw data just created. -/
def blankChunk : Block × Bytes := (anyBlock, List.replicate frameChunkLength 0)

/-- The frame, its blocks forgotten. -/
def WsFrame.anon (f : WsFrame) : WsFrame :=
  { f with block := anyBlock, rawdata := f.rawdata.map fun r => (anyBlock, r.2) }

/-- There is a current frame. -/
def openedFrames : List WsFrame → List WsFrame
  | [] => [{ WsFrame.zero anyBlock with
      payloadLen := minusOne
      rawdataSz := frameChunkLength
      rawdata := some blankChunk }]
  | f :: fs => f :: fs

/-- There is room in it for one more byte. -/
def roomyFrame (current : WsFrame) : WsFrame :=
  if current.rawdataSz ≤ current.rawdataIdx then
    let sz := (current.rawdataSz + frameChunkLength) % 4294967296
    { current with
      rawdataSz := sz
      rawdata := some (anyBlock, ((current.rawdata.map (·.2)).getD []).take current.rawdataIdx ++
        List.replicate (sz - current.rawdataIdx) 0) }
  else current

/-- The message of the frames, newest first, in the bytes that are made for it. -/
def messageOf (current : WsFrame) (prev : List WsFrame) : Call :=
  let frames := current :: prev
  let messagePayloadLen := (current.payloadLen + backwardsLen frames) % 18446744073709551616
  let copied := copyPayloads (n := (messagePayloadLen + 1) % 4294967296) frames.reverse
  .onMessage ((frames.getLast?.map WsFrame.opcode).getD 0) (copied.1.bytes.take copied.2.1)
    copied.2.1

/-- After a whole frame. -/
def frameTaken (current : WsFrame) (prev : List WsFrame) : List WsFrame × List Call :=
  if current.fin then
    if current.opcode &&& 8 = 8 then
      ({ WsFrame.zero anyBlock with rawdata := some blankChunk } :: prev, [])
    else ([], [messageOf current prev])
  else
    ({ WsFrame.zero anyBlock with payloadLen := minusOne, rawdata := some blankChunk } ::
      current :: prev, [])

/-- After a byte that has room. -/
def byteStored (c : UInt8) (current : WsFrame) (prev : List WsFrame) : List WsFrame × List Call :=
  match current.rawdata with
  | none => (current :: prev, [])
  | some (b, raw) =>
    let raw := raw.set current.rawdataIdx c
    match completeFrame { current with
        rawdataIdx := (current.rawdataIdx + 1) % 4294967296
        rawdata := some (b, raw) } raw with
    | (.more, current) | (.masked, current) => (current :: prev, [])
    | (.complete, current) => frameTaken current prev

/-- A current frame with room. Its length is computed before it is read, and left out. -/
def readyFrames (frames : List WsFrame) : List WsFrame :=
  match openedFrames frames with
  | [] => []
  | current :: prev => { roomyFrame current with payloadLen := 0 } :: prev

/-- **One byte**: the frames after it, and the messages it completes. -/
def takeByte (frames : List WsFrame) (c : UInt8) : List WsFrame × List Call :=
  match frames with
  | [] => ([], [])
  | current :: prev => (readyFrames (byteStored c current prev).1, (byteStored c current prev).2)

/-- The bytes of a connection. -/
def takeBytes (frames : List WsFrame) : Bytes → List WsFrame × List Call
  | [] => (frames, [])
  | c :: bs =>
    ((takeBytes (takeByte frames c).1 bs).1,
      (takeByte frames c).2 ++ (takeBytes (takeByte frames c).1 bs).2)

/-- One byte more. -/
theorem takeBytes_concat (frames : List WsFrame) (bs : Bytes) (c : UInt8) :
    takeBytes frames (bs ++ [c]) =
      ((takeByte (takeBytes frames bs).1 c).1,
        (takeBytes frames bs).2 ++ (takeByte (takeBytes frames bs).1 c).2) := by
  induction bs generalizing frames with
  | nil => simp [takeBytes]
  | cons b bs ih => simp [takeBytes, ih]

/-! ## The blocks do not matter -/

section Anon

variable {f : WsFrame} {fs : List WsFrame}

theorem payload_anon (f : WsFrame) : f.anon.payload? = f.payload? := by
  unfold WsFrame.payload? WsFrame.anon
  cases f.rawdata <;> rfl

theorem backwardsLen_anon (fs : List WsFrame) : backwardsLen (fs.map WsFrame.anon) = backwardsLen fs := by
  induction fs with
  | nil => rfl
  | cons f fs ih =>
    cases fs with
    | nil => rfl
    | cons g gs => exact congrArg (f.payloadLen + ·) ih

theorem copyPayloads_anon {n : Nat} (fs : List WsFrame) :
    copyPayloads (n := n) (fs.map WsFrame.anon) = copyPayloads fs := by
  have hcopy : (fun acc f => copyPayload (n := n) acc (WsFrame.anon f)) = copyPayload := by
    funext acc f
    unfold copyPayload
    rw [payload_anon]
    rfl
  unfold copyPayloads
  rw [List.foldl_map, hcopy]

theorem messageOf_anon (cur : WsFrame) (prev : List WsFrame) :
    messageOf cur.anon (prev.map WsFrame.anon) = messageOf cur prev := by
  have hmap : cur.anon :: prev.map WsFrame.anon = (cur :: prev).map WsFrame.anon := rfl
  have hopcode : WsFrame.opcode ∘ WsFrame.anon = WsFrame.opcode := rfl
  unfold messageOf
  dsimp only
  rw [hmap, backwardsLen_anon, ← List.map_reverse, copyPayloads_anon, List.getLast?_map,
    Option.map_map, hopcode]
  rfl

/-- `complete_frame` reads the bytes it is given and the length so far. -/
theorem completeFrame_anon (f : WsFrame) (raw : Bytes) :
    completeFrame f.anon raw = ((completeFrame f raw).1, (completeFrame f raw).2.anon) := by
  have hidx : f.anon.rawdataIdx = f.rawdataIdx := rfl
  unfold completeFrame
  dsimp only
  rw [hidx]
  split
  · rfl
  · split
    · rfl
    · split
      · split
        · rfl
        · split <;> rfl
      · split
        · split
          · rfl
          · split <;> rfl
        · split <;> rfl

/-- Nor does it read the length that it was given. -/
theorem completeFrame_payloadLen (f : WsFrame) (len : Nat) (raw : Bytes) :
    (completeFrame { f with payloadLen := len } raw).1 = (completeFrame f raw).1 ∧
      ((completeFrame f raw).1 = .complete →
        (completeFrame { f with payloadLen := len } raw).2 = (completeFrame f raw).2) ∧
      { (completeFrame { f with payloadLen := len } raw).2 with payloadLen := 0 } =
        { (completeFrame f raw).2 with payloadLen := 0 } := by
  unfold completeFrame
  dsimp only
  split
  · exact ⟨rfl, by rintro ⟨⟩, rfl⟩
  · split
    · exact ⟨rfl, by rintro ⟨⟩, rfl⟩
    · split
      · split
        · exact ⟨rfl, by rintro ⟨⟩, rfl⟩
        · exact ⟨rfl, fun _ => rfl, rfl⟩
      · split
        · split
          · exact ⟨rfl, by rintro ⟨⟩, rfl⟩
          · exact ⟨rfl, fun _ => rfl, rfl⟩
        · exact ⟨rfl, fun _ => rfl, rfl⟩

theorem readyFrames_payloadLen {cur cur' : WsFrame} (prev : List WsFrame)
    (h : { cur' with payloadLen := 0 } = { cur with payloadLen := 0 }) :
    readyFrames (cur' :: prev) = readyFrames (cur :: prev) := by
  have hroomy : ∀ f : WsFrame, { roomyFrame f with payloadLen := 0 } =
      { roomyFrame { f with payloadLen := 0 } with payloadLen := 0 } := by
    intro f
    unfold roomyFrame
    dsimp only
    split <;> rfl
  show { roomyFrame cur' with payloadLen := 0 } :: prev =
    { roomyFrame cur with payloadLen := 0 } :: prev
  rw [hroomy cur', hroomy cur, h]

/-- A byte does the same whatever the length it finds. -/
theorem byteStored_payloadLen (c : UInt8) (cur : WsFrame) (len : Nat) (prev : List WsFrame) :
    readyFrames (byteStored c { cur with payloadLen := len } prev).1 =
        readyFrames (byteStored c cur prev).1 ∧
      (byteStored c { cur with payloadLen := len } prev).2 = (byteStored c cur prev).2 := by
  unfold byteStored
  dsimp only
  cases hraw : cur.rawdata with
  | none => exact ⟨readyFrames_payloadLen prev (by rw [hraw]), rfl⟩
  | some r =>
    dsimp only
    obtain ⟨hdone, hsame, hzero⟩ := completeFrame_payloadLen { cur with
      rawdataIdx := (cur.rawdataIdx + 1) % 4294967296
      rawdata := some (r.1, r.2.set cur.rawdataIdx c) } len (r.2.set cur.rawdataIdx c)
    revert hdone hsame hzero
    generalize completeFrame { cur with
      payloadLen := len
      rawdataIdx := (cur.rawdataIdx + 1) % 4294967296
      rawdata := some (r.1, r.2.set cur.rawdataIdx c) } (r.2.set cur.rawdataIdx c) = x
    generalize completeFrame { cur with
      rawdataIdx := (cur.rawdataIdx + 1) % 4294967296
      rawdata := some (r.1, r.2.set cur.rawdataIdx c) } (r.2.set cur.rawdataIdx c) = y
    obtain ⟨done, f⟩ := x
    obtain ⟨done', g⟩ := y
    dsimp only
    rintro rfl hsame hzero
    cases done with
    | complete => rw [hsame rfl]; exact ⟨rfl, rfl⟩
    | more => exact ⟨readyFrames_payloadLen prev hzero, rfl⟩
    | masked => exact ⟨readyFrames_payloadLen prev hzero, rfl⟩

end Anon

/-! ## `in_data`, when every request is granted -/

/-- The frames and the calls of the application are these. -/
structure Stores (w w' : World) (r : List WsFrame × List Call) : Prop where
  frames : w'.ws.frames.map WsFrame.anon = r.1
  calls : w'.calls = w.calls ++ if w.ws.onMessage then r.2 else []

/-- The frames, made ready for a byte. -/
def World.readied (w : World) : List WsFrame := readyFrames (w.ws.frames.map WsFrame.anon)

/-- **The byte is taken** as `takeByte` has it. -/
structure Follows (c : UInt8) (w w' : World) : Prop where
  frames : w'.readied = (takeByte w.readied c).1
  calls : w'.calls = w.calls ++ if w.ws.onMessage then (takeByte w.readied c).2 else []

section Granted

variable {w w₁ : World} {cur : WsFrame} {prev : List WsFrame}

theorem block_of_granted {h h' : Heap} {size : Nat} {r : Option Block}
    (hc : dmemCreate h size = (r, h')) (hd : h'.denied = false) : r = some ⟨h.next, size⟩ := by
  obtain ⟨_, heq⟩ := @dmemCreate_granted h size (by rw [hc]; exact hd)
  exact (Prod.mk.inj (hc.symm.trans heq)).1

theorem Stores.nothing {w' : World} {fs : List WsFrame} (hf : w'.ws.frames.map WsFrame.anon = fs)
    (hc : w'.calls = w.calls) : Stores w w' (fs, []) := by
  refine ⟨hf, ?_⟩
  rw [hc, ite_self, List.append_nil]

theorem openedFrames_ne_nil (fs : List WsFrame) : openedFrames fs ≠ [] := by
  cases fs <;> exact List.cons_ne_nil _ _

theorem openFrame_anon (hd : (openFrame w).1.heap.denied = false) :
    (openFrame w).2 = true ∧
      (openFrame w).1.ws.frames.map WsFrame.anon = openedFrames (w.ws.frames.map WsFrame.anon) := by
  unfold openFrame at hd ⊢
  cases hf : w.ws.frames with
  | cons f fs =>
    refine ⟨rfl, ?_⟩
    show w.ws.frames.map WsFrame.anon = _
    rw [hf]
    rfl
  | nil =>
    rw [hf] at hd
    dsimp only at hd ⊢
    split at hd
    · rename_i hc
      cases block_of_granted hc hd
    · split at hd
      · rename_i hc'
        cases block_of_granted hc' ((later_dmemRelease _ _).undenied hd)
      · rename_i hc'
        obtain rfl := Option.some.inj (block_of_granted hc' hd)
        exact ⟨rfl, rfl⟩

theorem extendFrame_anon (hf : w.ws.frames = cur :: prev)
    (hd : (extendFrame w cur prev).1.heap.denied = false) :
    ∃ w₁ cur₁, extendFrame w cur prev = (w₁, some cur₁) ∧ cur₁.anon = roomyFrame cur.anon ∧
      w₁.ws.frames = cur₁ :: prev := by
  unfold extendFrame at hd ⊢
  by_cases hfull : cur.rawdataSz ≤ cur.rawdataIdx
  · rw [if_pos hfull] at hd ⊢
    dsimp only at hd ⊢
    split at hd
    · rename_i hc
      have hextend := ((later_dmemRelease _ _).trans (later_dmemRelease _ _)).undenied hd
      obtain ⟨_, heq⟩ := dmemExtend_granted (by rw [hc]; exact hextend)
      cases hc.symm.trans heq
    · refine ⟨_, _, rfl, ?_, rfl⟩
      unfold roomyFrame
      rw [if_pos (show cur.anon.rawdataSz ≤ cur.anon.rawdataIdx from hfull)]
      unfold WsFrame.anon
      cases cur.rawdata <;> rfl
  · rw [if_neg hfull]
    refine ⟨w, cur, rfl, ?_, hf⟩
    exact (if_neg hfull : roomyFrame cur.anon = cur.anon).symm

theorem dispatchMessage_calls
    (hd : (dispatchMessage w (cur :: prev)).1.heap.denied = false) :
    (dispatchMessage w (cur :: prev)).1.calls =
      w.calls ++ if w.ws.onMessage then [messageOf cur prev] else [] := by
  unfold dispatchMessage at hd ⊢
  dsimp only at hd ⊢
  split at hd
  · rename_i hc
    cases block_of_granted hc hd
  · rename_i b h hc
    split at hd
    · rename_i hc'
      cases block_of_granted hc' ((later_dmemRelease _ _).undenied hd)
    · rename_i hc'
      have hpayload := ((Heap.Keeps.of_create (K := fun _ => False) hc').trans
        ((later_dmemRelease _ _).trans (later_dmemRelease _ _))).undenied hd
      have hcreated := (later_cleanupFrames _ _).undenied hpayload
      obtain rfl := Option.some.inj (block_of_granted hc hcreated)
      dsimp only
      split
      · rfl
      · rw [List.append_nil]

theorem frameDone_stores (hf : w.ws.frames = cur :: prev)
    (hd : (frameDone w cur prev).1.heap.denied = false) :
    Stores w (frameDone w cur prev).1 (frameTaken cur.anon (prev.map WsFrame.anon)) := by
  unfold frameDone at hd ⊢
  unfold frameTaken
  have hfin : cur.anon.fin = cur.fin := rfl
  have hop : cur.anon.opcode = cur.opcode := rfl
  rw [hfin, hop]
  split
  · rename_i h
    rw [if_pos h] at hd
    split
    · rename_i hcontrol
      rw [if_pos hcontrol] at hd
      refine .nothing ?_ ((socket_resetFrame cur prev).2.trans
        (calls_handleOpcode w.drawMask.2 cur w.drawMask.1))
      unfold handleControlFrame resetFrame at hd ⊢
      dsimp only at hd ⊢
      split at hd
      · rename_i hc
        cases block_of_granted hc hd
      · rename_i hc
        obtain rfl := Option.some.inj (block_of_granted hc hd)
        rfl
    · rename_i hcontrol
      rw [if_neg hcontrol] at hd
      refine ⟨rfl, (dispatchMessage_calls hd).trans ?_⟩
      rw [messageOf_anon]
  · rename_i h
    rw [if_neg h] at hd
    refine .nothing ?_ (newFragment_quiet w).2
    unfold newFragment at hd ⊢
    split at hd
    · rename_i hc
      cases block_of_granted hc hd
    · split at hd
      · rename_i hc'
        cases block_of_granted hc' hd
      · rename_i hc'
        obtain rfl := Option.some.inj (block_of_granted hc' hd)
        dsimp only
        rw [hf]
        rfl

theorem storeByte_stores (hf : w.ws.frames = cur :: prev) {c : UInt8}
    (hd : (storeByte w c cur prev).1.heap.denied = false) :
    Stores w (storeByte w c cur prev).1 (byteStored c cur.anon (prev.map WsFrame.anon)) := by
  unfold storeByte at hd ⊢
  cases hraw : cur.rawdata with
  | none =>
    have hanon : cur.anon.rawdata = none := by
      unfold WsFrame.anon
      rw [hraw]
      rfl
    unfold byteStored
    rw [hanon]
    refine .nothing ?_ rfl
    show w.ws.frames.map WsFrame.anon = _
    rw [hf]
    rfl
  | some r =>
    obtain ⟨b, raw⟩ := r
    rw [hraw] at hd
    have hanon : cur.anon.rawdata = some (anyBlock, raw) := by
      unfold WsFrame.anon
      rw [hraw]
      rfl
    have hcomplete : completeFrame { cur.anon with
          rawdataIdx := (cur.anon.rawdataIdx + 1) % 4294967296
          rawdata := some (anyBlock, raw.set cur.rawdataIdx c) } (raw.set cur.rawdataIdx c) = _ :=
      completeFrame_anon { cur with
        rawdataIdx := (cur.rawdataIdx + 1) % 4294967296
        rawdata := some (b, raw.set cur.rawdataIdx c) } (raw.set cur.rawdataIdx c)
    have hidx : cur.anon.rawdataIdx = cur.rawdataIdx := rfl
    unfold byteStored
    rw [hanon]
    dsimp only at hd ⊢
    rw [hidx] at hcomplete ⊢
    rw [hcomplete]
    cases hcf : completeFrame { cur with
        rawdataIdx := (cur.rawdataIdx + 1) % 4294967296
        rawdata := some (b, raw.set cur.rawdataIdx c) } (raw.set cur.rawdataIdx c) with
    | mk r f =>
      rw [hcf] at hd
      cases r with
      | more => exact .nothing rfl rfl
      | masked => exact .nothing rfl rfl
      | complete =>
        have hdone := frameDone_stores (w := { w with
          overrun := w.overrun || decide (raw.length ≤ cur.rawdataIdx)
          ws := { w.ws with frames := f :: prev } }) rfl hd
        exact ⟨hdone.frames, hdone.calls⟩

/-- `in_data` with no request denied. -/
theorem inData_follows {c : UInt8} (hd : (inData w c).1.heap.denied = false) :
    Follows c w (inData w c).1 := by
  have hopened := (later_inData_open w c).heap.undenied hd
  obtain ⟨hok, hframes⟩ := openFrame_anon hopened
  have hsame := same_openFrame w
  cases hof : openFrame w with
  | mk w₁ ok =>
    rw [hof] at hok hsame hframes
    obtain rfl : ok = true := hok
    unfold inData at hd ⊢
    rw [hof] at hd ⊢
    dsimp only at hd ⊢
    cases hfs : w₁.ws.frames with
    | nil =>
      rw [hfs] at hframes
      exact absurd hframes.symm (openedFrames_ne_nil _)
    | cons cur prev =>
      rw [hfs] at hd hframes
      dsimp only at hd ⊢
      have hroom : (extendFrame w₁ cur prev).1.heap.denied = false := by
        unfold fillFrame at hd
        split at hd
        · rename_i hef
          rw [hef]
          exact hd
        · rename_i hef
          rw [hef]
          exact (later_storeByte _ _ _ _).heap.undenied hd
      obtain ⟨w₂, cur₂, hef, hcur₂, hfs₂⟩ := extendFrame_anon hfs hroom
      have hext := same_extendFrame w₁ cur prev
      unfold fillFrame at hd ⊢
      rw [hef] at hd hext ⊢
      dsimp only at hd ⊢
      have hstore := storeByte_stores hfs₂ hd
      obtain ⟨hready, hcalls⟩ := byteStored_payloadLen c cur₂.anon 0 (prev.map WsFrame.anon)
      have hreadied : w.readied = { cur₂.anon with payloadLen := 0 } :: prev.map WsFrame.anon := by
        unfold World.readied readyFrames
        rw [← hframes, hcur₂]
        rfl
      refine ⟨?_, ?_⟩
      · rw [hreadied]
        exact (congrArg readyFrames hstore.frames).trans hready.symm
      · rw [hreadied]
        show (storeByte w₂ c cur₂ prev).1.calls = w.calls ++
          if w.ws.onMessage then (byteStored c { cur₂.anon with payloadLen := 0 } _).2 else []
        rw [hcalls, hstore.calls, hext.calls, hsame.calls, hext.spares.onMessage,
          hsame.spares.onMessage]

end Granted

/-! ## The mark of a denial -/

/-- The same heap, with the mark `b`. -/
def Heap.marked (b : Bool) (h : Heap) : Heap := { h with denied := b }

/-- The same world, with that mark in its heap. -/
def World.marked (b : Bool) (w : World) : World := { w with heap := w.heap.marked b }

/-- **No request that is made for the byte is denied.** -/
def Granted (w : World) (c : UInt8) : Prop := (inData (w.marked false) c).1.heap.denied = false

instance (w : World) (c : UInt8) : Decidable (Granted w c) :=
  inferInstanceAs (Decidable (_ = _))

section Marked

variable (b : Bool) (h : Heap) (w : World)

/-! Nothing reads the mark. -/

theorem dmemCreate_marked (size : Nat) : ∃ b', dmemCreate (h.marked b) size =
    ((dmemCreate h size).1, (dmemCreate h size).2.marked b') := by
  unfold dmemCreate
  by_cases ha : h.Allows size
  · rw [dif_pos ha, dif_pos (show (h.marked b).Allows size from ha)]
    exact ⟨b, rfl⟩
  · rw [dif_neg ha, dif_neg (show ¬ (h.marked b).Allows size from ha)]
    exact ⟨true, rfl⟩

theorem dmemRelease_marked (block : Option Block) :
    dmemRelease (h.marked b) block = (dmemRelease h block).marked b := by
  cases block with
  | none => rfl
  | some block =>
    unfold dmemRelease
    dsimp only
    by_cases hlive : block ∈ h.live
    · rw [if_pos hlive, if_pos (show block ∈ (h.marked b).live from hlive)]
      rfl
    · rw [if_neg hlive, if_neg (show block ∉ (h.marked b).live from hlive)]
      rfl

theorem dmemExtend_marked (block : Option Block) (size : Nat) :
    ∃ b', dmemExtend (h.marked b) block size =
      ((dmemExtend h block size).1, (dmemExtend h block size).2.marked b') := by
  unfold dmemExtend
  rw [dmemRelease_marked]
  by_cases ha : (dmemRelease h block).Allows size
  · rw [dif_pos ha, dif_pos (show ((dmemRelease h block).marked b).Allows size from ha)]
    exact ⟨b, rfl⟩
  · rw [dif_neg ha, dif_neg (show ¬ ((dmemRelease h block).marked b).Allows size from ha)]
    exact ⟨true, rfl⟩

theorem listNewNode_marked (data : Bytes) (n : Nat) : ∃ b', listNewNode (h.marked b) data n =
    ((listNewNode h data n).1, (listNewNode h data n).2.marked b') := by
  unfold listNewNode
  split
  · obtain ⟨b₁, hc⟩ := dmemCreate_marked b h sizeofNode
    rw [hc]
    cases dmemCreate h sizeofNode with
    | mk r h₁ =>
      cases r with
      | none => exact ⟨b₁, rfl⟩
      | some block =>
        obtain ⟨b₂, hc'⟩ := dmemCreate_marked b₁ h₁ n
        dsimp only
        rw [hc']
        cases dmemCreate h₁ n with
        | mk r h₂ =>
          cases r with
          | none => exact ⟨b₂, by dsimp only; rw [dmemRelease_marked]⟩
          | some d => exact ⟨b₂, rfl⟩
  · exact ⟨b, rfl⟩

theorem tcpClientSend_marked (slots : Slots) (sid : Nat) (data : Bytes) (n : Nat) :
    ∃ b', tcpClientSend (h.marked b) slots sid data n =
      ((tcpClientSend h slots sid data n).1, (tcpClientSend h slots sid data n).2.1.marked b',
        (tcpClientSend h slots sid data n).2.2) := by
  unfold tcpClientSend
  split
  · split
    · dsimp only
      split
      · obtain ⟨b', hnew⟩ := listNewNode_marked b h data (n % 65536)
        rw [hnew]
        cases listNewNode h data (n % 65536) with
        | mk r h₁ => cases r <;> exact ⟨b', rfl⟩
      · exact ⟨b, rfl⟩
    · exact ⟨b, rfl⟩
  · exact ⟨b, rfl⟩

theorem openFrame_marked : ∃ b', openFrame (w.marked b) =
    ((openFrame w).1.marked b', (openFrame w).2) := by
  have hfs : (w.marked b).ws.frames = w.ws.frames := rfl
  have hheap : (w.marked b).heap = w.heap.marked b := rfl
  unfold openFrame
  rw [hfs, hheap]
  cases w.ws.frames with
  | cons f fs => exact ⟨b, rfl⟩
  | nil =>
    obtain ⟨b₁, hc⟩ := dmemCreate_marked b w.heap sizeofFrame
    dsimp only
    rw [hc]
    cases dmemCreate w.heap sizeofFrame with
    | mk r h₁ =>
      cases r with
      | none => exact ⟨b₁, rfl⟩
      | some block =>
        obtain ⟨b₂, hc'⟩ := dmemCreate_marked b₁ h₁ frameChunkLength
        dsimp only
        rw [hc']
        cases dmemCreate h₁ frameChunkLength with
        | mk r h₂ =>
          cases r with
          | none => exact ⟨b₂, by dsimp only; rw [dmemRelease_marked]; rfl⟩
          | some d => exact ⟨b₂, rfl⟩

theorem extendFrame_marked (cur : WsFrame) (prev : List WsFrame) :
    ∃ b', extendFrame (w.marked b) cur prev =
      ((extendFrame w cur prev).1.marked b', (extendFrame w cur prev).2) := by
  have hheap : (w.marked b).heap = w.heap.marked b := rfl
  unfold extendFrame
  rw [hheap]
  split
  · obtain ⟨b₁, hc⟩ := dmemExtend_marked b w.heap (cur.rawdata.map (·.1))
      ((cur.rawdataSz + frameChunkLength) % 4294967296)
    dsimp only
    rw [hc]
    cases dmemExtend w.heap (cur.rawdata.map (·.1))
        ((cur.rawdataSz + frameChunkLength) % 4294967296) with
    | mk r h₁ =>
      cases r with
      | none => exact ⟨b₁, by dsimp only; rw [dmemRelease_marked, dmemRelease_marked]; rfl⟩
      | some d => exact ⟨b₁, rfl⟩
  · exact ⟨b, rfl⟩

theorem newFragment_marked : ∃ b', newFragment (w.marked b) =
    ((newFragment w).1.marked b', (newFragment w).2) := by
  have hheap : (w.marked b).heap = w.heap.marked b := rfl
  unfold newFragment
  rw [hheap]
  obtain ⟨b₁, hc⟩ := dmemCreate_marked b w.heap sizeofFrame
  rw [hc]
  cases dmemCreate w.heap sizeofFrame with
  | mk r h₁ =>
    cases r with
    | none => exact ⟨b₁, rfl⟩
    | some block =>
      obtain ⟨b₂, hc'⟩ := dmemCreate_marked b₁ h₁ frameChunkLength
      dsimp only
      rw [hc']
      cases dmemCreate h₁ frameChunkLength with
      | mk r h₂ => cases r <;> exact ⟨b₂, rfl⟩

theorem handleOpcode_marked (ctl : WsFrame) (mask : Bytes) :
    ∃ b', handleOpcode (w.marked b) ctl mask = (handleOpcode w ctl mask).marked b' := by
  unfold handleOpcode
  split
  · dsimp only
    by_cases hsent : w.ws.flags.clientSentCloseFrame = true
    · rw [if_pos hsent, if_pos (show (w.marked b).ws.flags.clientSentCloseFrame = true from hsent)]
      exact ⟨b, rfl⟩
    · rw [if_neg hsent, if_neg (show ¬ (w.marked b).ws.flags.clientSentCloseFrame = true from hsent)]
      obtain ⟨b', hsend⟩ := tcpClientSend_marked b w.heap w.slots w.ws.curSocketId _
        (ctl.payloadOffset + ctl.payloadLen)
      refine ⟨b', ?_⟩
      rw [show (w.marked b).heap = w.heap.marked b from rfl,
        show (w.marked b).slots = w.slots from rfl, show (w.marked b).ws = w.ws from rfl, hsend]
      rfl
  · exact ⟨b, rfl⟩

theorem resetFrame_marked (ctl : WsFrame) (prev : List WsFrame) :
    ∃ b', resetFrame (w.marked b) ctl prev =
      ((resetFrame w ctl prev).1.marked b', (resetFrame w ctl prev).2) := by
  have hheap : (w.marked b).heap = w.heap.marked b := rfl
  unfold resetFrame
  rw [hheap, dmemRelease_marked]
  obtain ⟨b₁, hc⟩ := dmemCreate_marked b (dmemRelease w.heap (ctl.rawdata.map (·.1)))
    frameChunkLength
  rw [hc]
  cases dmemCreate (dmemRelease w.heap (ctl.rawdata.map (·.1))) frameChunkLength with
  | mk r h₁ => cases r <;> exact ⟨b₁, rfl⟩

theorem cleanupFrames_marked (fs : List WsFrame) :
    cleanupFrames (h.marked b) fs = (cleanupFrames h fs).marked b := by
  unfold cleanupFrames
  induction fs generalizing h with
  | nil => rfl
  | cons f fs ih =>
    rw [List.foldl_cons, List.foldl_cons, dmemRelease_marked, dmemRelease_marked]
    exact ih _

theorem dispatchMessage_marked (fs : List WsFrame) :
    ∃ b', dispatchMessage (w.marked b) fs =
      ((dispatchMessage w fs).1.marked b', (dispatchMessage w fs).2) := by
  have hheap : (w.marked b).heap = w.heap.marked b := rfl
  cases fs with
  | nil =>
    refine ⟨b, ?_⟩
    unfold dispatchMessage World.callOnError
    by_cases hon : w.ws.onError = true
    · rw [if_pos hon, if_pos (show (w.marked b).ws.onError = true from hon)]
      rfl
    · rw [if_neg hon, if_neg (show ¬ (w.marked b).ws.onError = true from hon)]
      rfl
  | cons cur prev =>
    unfold dispatchMessage
    dsimp only
    rw [hheap]
    obtain ⟨b₁, hc⟩ := dmemCreate_marked b w.heap
      (((cur.payloadLen + backwardsLen (cur :: prev)) % 18446744073709551616 + 1) % 4294967296)
    rw [hc]
    cases dmemCreate w.heap (((cur.payloadLen + backwardsLen (cur :: prev)) %
        18446744073709551616 + 1) % 4294967296) with
    | mk r h₁ =>
      cases r with
      | none => exact ⟨b₁, rfl⟩
      | some block =>
        dsimp only
        rw [cleanupFrames_marked]
        obtain ⟨b₂, hc'⟩ := dmemCreate_marked b₁ (cleanupFrames h₁ (cur :: prev).reverse)
          sizeofMessage
        rw [hc']
        cases dmemCreate (cleanupFrames h₁ (cur :: prev).reverse) sizeofMessage with
        | mk r h₂ =>
          cases r with
          | none => exact ⟨b₂, by dsimp only; rw [dmemRelease_marked]; rfl⟩
          | some d =>
            exact ⟨b₂, by dsimp only; rw [dmemRelease_marked, dmemRelease_marked]; rfl⟩

theorem frameDone_marked (cur : WsFrame) (prev : List WsFrame) :
    ∃ b', (frameDone (w.marked b) cur prev).1 = (frameDone w cur prev).1.marked b' := by
  unfold frameDone
  split
  · split
    · obtain ⟨b₁, hop⟩ := handleOpcode_marked b w.drawMask.2 cur w.drawMask.1
      obtain ⟨b₂, hreset⟩ := resetFrame_marked b₁ (handleOpcode w.drawMask.2 cur w.drawMask.1)
        cur prev
      refine ⟨b₂, ?_⟩
      show (resetFrame (handleOpcode (w.drawMask.2.marked b) cur w.drawMask.1) cur prev).1 = _
      rw [hop, hreset]
      rfl
    · obtain ⟨b', hsend⟩ := dispatchMessage_marked b w (cur :: prev)
      rw [hsend]
      exact ⟨b', rfl⟩
  · obtain ⟨b', hnew⟩ := newFragment_marked b w
    rw [hnew]
    exact ⟨b', rfl⟩

theorem storeByte_marked (c : UInt8) (cur : WsFrame) (prev : List WsFrame) :
    ∃ b', (storeByte (w.marked b) c cur prev).1 = (storeByte w c cur prev).1.marked b' := by
  unfold storeByte
  cases cur.rawdata with
  | none => exact ⟨b, rfl⟩
  | some r =>
    dsimp only
    cases completeFrame { cur with
        rawdataIdx := (cur.rawdataIdx + 1) % 4294967296
        rawdata := some (r.1, r.2.set cur.rawdataIdx c) } (r.2.set cur.rawdataIdx c) with
    | mk done f =>
      cases done with
      | more => exact ⟨b, rfl⟩
      | masked => exact ⟨b, rfl⟩
      | complete =>
        exact frameDone_marked b { w with
          overrun := w.overrun || decide (r.2.length ≤ cur.rawdataIdx)
          ws := { w.ws with frames := f :: prev } } f prev

/-- **A byte does the same** whatever the mark. -/
theorem inData_marked (c : UInt8) :
    ∃ b', (inData (w.marked b) c).1 = (inData w c).1.marked b' := by
  unfold inData
  obtain ⟨b₁, hopen⟩ := openFrame_marked b w
  rw [hopen]
  cases openFrame w with
  | mk w₁ ok =>
    cases ok with
    | false => exact ⟨b₁, rfl⟩
    | true =>
      have hfs : (w₁.marked b₁).ws.frames = w₁.ws.frames := rfl
      dsimp only
      rw [hfs]
      cases w₁.ws.frames with
      | nil => exact ⟨b₁, rfl⟩
      | cons cur prev =>
        unfold fillFrame
        obtain ⟨b₂, hext⟩ := extendFrame_marked b₁ w₁ cur prev
        dsimp only
        rw [hext]
        cases extendFrame w₁ cur prev with
        | mk w₂ room =>
          cases room with
          | none => exact ⟨b₂, rfl⟩
          | some cur => exact storeByte_marked b₂ w₂ c cur prev

end Marked

/-- **A byte for which every request is granted.** -/
theorem inData_granted {w : World} {c : UInt8} (hgranted : Granted w c) :
    Follows c w (inData w c).1 := by
  obtain ⟨b, heq⟩ := inData_marked false w c
  have hfollows := inData_follows hgranted
  rw [heq] at hfollows
  exact ⟨hfollows.frames, hfollows.calls⟩

end Rastreo.Net
