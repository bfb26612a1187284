import Rastreo.Net.FrameLedger
import Rastreo.Net.Splicing

/-!
# The room of the current frame

A frame is made with `rawdata_sz` 512 and 512 bytes of raw data, or with `rawdata_sz` 0 and 512
bytes (the next fragment, and what is left of a control frame), or with 0 and NULL (a control frame
after which the memory was denied). `in_data` compares `rawdata_idx` with `rawdata_sz` only, asks
for 512 bytes more than `rawdata_sz` and stores the byte at `rawdata_idx`.

Between two bytes anything but the frames may change: the memory, the slots, the rest of the client.

* `framesOf`: the frames after some bytes, each read in a world of its own.
* `WsFrame.Fits`: the index is at most `rawdata_sz`, and that at most the size of the raw data. A
  block has at most the size of the data memory, so that no size wraps around.
* **`stored_inside`**: every byte is stored inside the raw data.
* `framesOf_of_run`: the frames of the client, in every run, are those of the bytes read in it.
-/

namespace Rastreo.Net

open Rastreo.Lib

/-! ## The frames and the rest -/

/-- The world with other frames. -/
def World.withFrames (v : World) (frames : List WsFrame) : World :=
  { v with ws := { v.ws with frames := frames } }

/-- The frames after a byte, read in a world. -/
def framesAfter (frames : List WsFrame) (e : World × UInt8) : List WsFrame :=
  (inData (e.1.withFrames frames) e.2).1.ws.frames

/-- **The frames after some bytes**, each read in a world of its own. -/
def framesOf (es : List (World × UInt8)) : List WsFrame := es.foldl framesAfter []

/-- The raw data in which the next byte is stored, and the index; `none` when it is not stored. -/
def storedAt (w : World) : Option (Block × Nat) :=
  (seekRoom w).2.bind fun p => p.1.raw.map fun b => (b, p.1.rawdataIdx)

/-- `rawdata_sz` of the current frame is at most the size of its raw data. -/
def SizeAllocated (frames : List WsFrame) : Prop :=
  ∀ f ∈ frames.head?, ∀ b ∈ f.raw, f.rawdataSz ≤ b.size

/-- The next byte is stored inside the raw data. -/
def StoresInside (w : World) : Prop := ∀ s ∈ storedAt w, s.2 < s.1.size

/-! ## A frame with room -/

/-- The size of the raw data; 0 when it is NULL. -/
def WsFrame.room (f : WsFrame) : Nat := (f.raw.map Block.size).getD 0

/-- **The invariant** of a frame. -/
structure WsFrame.Fits (f : WsFrame) : Prop where
  idx : f.rawdataIdx ≤ f.rawdataSz
  sz : f.rawdataSz ≤ f.room
  raw : ∀ r ∈ f.rawdata, r.2.length = r.1.size ∧ r.1.size ≤ dataMemory

/-- The current frame, if there is one, fits. -/
def Fitting (frames : List WsFrame) : Prop := ∀ f ∈ frames.head?, f.Fits

section Room

variable {h h' : Heap} {b : Block} {o : Option Block} {size : Nat} {raw : Bytes} {w w₁ : World}
  {c : UInt8} {f current : WsFrame} {prev frames : List WsFrame}

theorem size_of_create (hc : dmemCreate h size = (some b, h')) :
    b.size = size ∧ size ≤ dataMemory := by
  unfold dmemCreate at hc
  split at hc
  · rename_i ha
    obtain rfl := Option.some.inj (Prod.mk.inj hc).1
    exact ⟨rfl, (Nat.le_add_right _ _).trans ha.2⟩
  · cases (Prod.mk.inj hc).1

theorem size_of_extend (hc : dmemExtend h o size = (some b, h')) :
    b.size = size ∧ size ≤ dataMemory := by
  unfold dmemExtend at hc
  split at hc
  · rename_i ha
    obtain rfl := Option.some.inj (Prod.mk.inj hc).1
    exact ⟨rfl, (Nat.le_add_right _ _).trans ha.2⟩
  · cases (Prod.mk.inj hc).1

theorem fitting_nil : Fitting [] := by
  rintro f ⟨⟩

theorem fitting_cons (hf : f.Fits) : Fitting (f :: frames) := fun _ hmem =>
  Option.some.inj hmem ▸ hf

theorem Fitting.head (hF : Fitting (f :: frames)) : f.Fits := hF f rfl

theorem room_some (hraw : f.rawdata = some (b, raw)) : f.room = b.size := by
  unfold WsFrame.room WsFrame.raw
  rw [hraw]
  rfl

/-- A frame that is empty fits when `rawdata_sz` does. -/
theorem fits_zeroed (hraw : f.rawdata = some (zeroed b)) (hidx : f.rawdataIdx = 0)
    (hsz : f.rawdataSz ≤ b.size) (hb : b.size ≤ dataMemory) : f.Fits := by
  refine ⟨by omega, ?_, fun r hr => ?_⟩
  · rwa [room_some hraw]
  · obtain rfl := Option.some.inj (hraw.symm.trans hr)
    exact ⟨List.length_replicate, hb⟩

/-- A frame without raw data fits when it has no size. -/
theorem fits_zero (b : Block) : (WsFrame.zero b).Fits :=
  ⟨Nat.le_refl 0, Nat.le_refl 0, by rintro r ⟨⟩⟩

/-- The bytes there are fill the room. -/
theorem WsFrame.Fits.length (hF : f.Fits) : ((f.rawdata.map (·.2)).getD []).length = f.room := by
  unfold WsFrame.room WsFrame.raw
  cases hraw : f.rawdata with
  | none => rfl
  | some r => exact (hF.raw r hraw).1

theorem WsFrame.Fits.sz_le (hF : f.Fits) : f.rawdataSz ≤ dataMemory := by
  refine hF.sz.trans ?_
  cases hraw : f.rawdata with
  | none =>
    unfold WsFrame.room WsFrame.raw
    rw [hraw]
    exact Nat.zero_le _
  | some r =>
    rw [room_some hraw]
    exact (hF.raw r hraw).2

/-- A frame whose index is below `rawdata_sz` has raw data. -/
theorem WsFrame.Fits.rawdata_ne (hF : f.Fits) (hlt : f.rawdataIdx < f.rawdataSz) :
    f.rawdata ≠ none := by
  intro hraw
  have hsz := hF.sz
  unfold WsFrame.room WsFrame.raw at hsz
  rw [hraw] at hsz
  exact Nat.not_lt_zero _ (hlt.trans_le hsz)

/-! ### Room for the byte -/

theorem openFrame_fitting (hF : Fitting w.ws.frames) : Fitting (openFrame w).1.ws.frames := by
  unfold openFrame
  cases hf : w.ws.frames with
  | cons f fs =>
    rw [hf] at hF
    dsimp only
    rwa [hf]
  | nil =>
    dsimp only
    split
    · dsimp only
      rw [hf]
      exact fitting_nil
    · split
      · dsimp only
        rw [hf]
        exact fitting_nil
      · rename_i hc
        obtain ⟨hsize, hle⟩ := size_of_create hc
        refine fitting_cons (fits_zeroed rfl rfl ?_ ?_)
        · exact hsize.ge
        · rwa [hsize]

/-- **More room**: the index is then below `rawdata_sz`; without it there is no current frame. -/
theorem extendFrame_fits (hF : current.Fits) :
    ((extendFrame w current prev).2 = none → (extendFrame w current prev).1.ws.frames = []) ∧
      ∀ f ∈ (extendFrame w current prev).2, f.Fits ∧ f.rawdataIdx < f.rawdataSz := by
  unfold extendFrame
  split
  · dsimp only
    split
    · exact ⟨fun _ => rfl, by rintro f ⟨⟩⟩
    · rename_i b h' hc
      refine ⟨by rintro ⟨⟩, fun f hmem => ?_⟩
      obtain rfl := Option.some.inj hmem
      obtain ⟨hsize, hle⟩ := size_of_extend hc
      -- the sum is far from 2^32
      have hidx := hF.idx
      have hsum : (current.rawdataSz + frameChunkLength) % 4294967296 = current.rawdataSz + 512 := by
        have hmem := hF.sz_le
        rw [dataMemory] at hmem
        rw [frameChunkLength]
        omega
      have hlength := hF.length
      have hroom := hF.sz
      rw [hsum] at hsize hle ⊢
      refine ⟨⟨by dsimp only; omega, ?_, fun r hr => ?_⟩, by dsimp only; omega⟩
      · rw [room_some rfl, hsize]
      · obtain rfl := Option.some.inj hr
        refine ⟨?_, by rwa [hsize]⟩
        rw [List.length_append, List.length_take, List.length_replicate, hsize, hlength]
        omega
  · rename_i hroom
    refine ⟨by rintro ⟨⟩, fun f hmem => ?_⟩
    obtain rfl := Option.some.inj hmem
    exact ⟨hF, Nat.not_le.mp hroom⟩

/-- **A frame with room for the byte**, or what is left fits. -/
theorem seekRoom_fits (hF : Fitting w.ws.frames) :
    ((seekRoom w).2 = none → Fitting (seekRoom w).1.ws.frames) ∧
      ∀ p ∈ (seekRoom w).2, p.1.Fits ∧ p.1.rawdataIdx < p.1.rawdataSz := by
  have hopen := openFrame_fitting hF
  unfold seekRoom
  cases hof : openFrame w with
  | mk w₁ ok =>
    rw [hof] at hopen
    cases ok with
    | false => exact ⟨fun _ => hopen, by rintro p ⟨⟩⟩
    | true =>
      dsimp only at hopen ⊢
      cases hfs : w₁.ws.frames with
      | nil => exact ⟨fun _ => hopen, by rintro p ⟨⟩⟩
      | cons current prev =>
        rw [hfs] at hopen
        obtain ⟨hnone, hsome⟩ := @extendFrame_fits w₁ current prev hopen.head
        dsimp only
        cases hef : extendFrame w₁ current prev with
        | mk w₂ room =>
          rw [hef] at hnone hsome
          cases room with
          | none =>
            refine ⟨fun _ => ?_, by rintro p ⟨⟩⟩
            have hgone : w₂.ws.frames = [] := hnone rfl
            dsimp only
            rw [hgone]
            exact fitting_nil
          | some f =>
            refine ⟨by rintro ⟨⟩, fun p hmem => ?_⟩
            obtain rfl := Option.some.inj hmem
            exact hsome f rfl

/-! ### The byte -/

theorem completeFrame_fits (hF : f.Fits) (raw : Bytes) : (completeFrame f raw).2.Fits := by
  obtain ⟨fin, opcode, offset, len, heq⟩ := completeFrame_fields f raw
  rw [heq]
  exact ⟨hF.idx, hF.sz, hF.raw⟩

/-- The frame with one byte more. -/
theorem stored_fits {raw : Bytes} (hF : f.Fits) (hlt : f.rawdataIdx < f.rawdataSz)
    (hraw : f.rawdata = some (b, raw)) (c : UInt8) : WsFrame.Fits { f with
      rawdataIdx := (f.rawdataIdx + 1) % 4294967296
      rawdata := some (b, raw.set f.rawdataIdx c) } := by
  have hsz := hF.sz_le
  rw [dataMemory] at hsz
  have hroom := hF.sz
  rw [room_some hraw] at hroom
  refine ⟨?_, ?_, fun r hr => ?_⟩
  · dsimp only
    omega
  · rwa [room_some rfl]
  · obtain rfl := Option.some.inj hr
    rw [List.length_set]
    exact hF.raw (b, raw) hraw

/-! ### A whole frame -/

theorem newFragment_fitting (hF : Fitting w.ws.frames) : Fitting (newFragment w).1.ws.frames := by
  unfold newFragment
  split
  · exact hF
  · split
    · exact hF
    · rename_i hc
      obtain ⟨hsize, hle⟩ := size_of_create hc
      exact fitting_cons (fits_zeroed rfl rfl (Nat.zero_le _) (by rwa [hsize]))

/-- A control frame leaves an empty frame, with raw data or without. -/
theorem resetFrame_fitting (w : World) (f : WsFrame) (prev : List WsFrame) :
    Fitting (resetFrame w f prev).1.ws.frames := by
  unfold resetFrame
  split
  · exact fitting_cons (fits_zero _)
  · rename_i hc
    obtain ⟨hsize, hle⟩ := size_of_create hc
    exact fitting_cons (fits_zeroed rfl rfl (Nat.zero_le _) (by rwa [hsize]))

theorem frameDone_fitting (hF : Fitting w.ws.frames) :
    Fitting (frameDone w f prev).1.ws.frames := by
  unfold frameDone
  split
  · split
    · exact resetFrame_fitting _ f prev
    · exact fitting_nil
  · exact newFragment_fitting hF

theorem storeByte_fitting (hF : current.Fits) (hlt : current.rawdataIdx < current.rawdataSz)
    (c : UInt8) :
    Fitting (storeByte w c current prev).1.ws.frames := by
  unfold storeByte
  cases hraw : current.rawdata with
  | none => exact absurd hraw (hF.rawdata_ne hlt)
  | some r =>
    have hdone := completeFrame_fits (stored_fits hF hlt hraw c) (r.2.set current.rawdataIdx c)
    dsimp only
    cases hcf : completeFrame { current with
        rawdataIdx := (current.rawdataIdx + 1) % 4294967296
        rawdata := some (r.1, r.2.set current.rawdataIdx c) } (r.2.set current.rawdataIdx c) with
    | mk done f =>
      rw [hcf] at hdone
      cases done with
      | more => exact fitting_cons hdone
      | masked => exact fitting_cons hdone
      | complete => exact frameDone_fitting (fitting_cons hdone)

theorem inData_fitting (hF : Fitting w.ws.frames) (c : UInt8) :
    Fitting (inData w c).1.ws.frames := by
  obtain ⟨hnone, hsome⟩ := seekRoom_fits hF
  rw [inData_seekRoom]
  cases hseek : seekRoom w with
  | mk w₁ room =>
    rw [hseek] at hnone hsome
    cases room with
    | none => exact hnone rfl
    | some p =>
      obtain ⟨hfits, hlt⟩ := hsome p rfl
      exact storeByte_fitting hfits hlt c

/-! ### The mark of an overrun -/

theorem overrun_handleControlFrame (w : World) (f : WsFrame) (prev : List WsFrame) :
    (handleControlFrame w f prev).1.overrun = w.overrun := by
  have hop : (handleOpcode w.drawMask.2 f w.drawMask.1).overrun = w.overrun := by
    unfold handleOpcode
    split
    · dsimp only
      split <;> rfl
    · rfl
  unfold handleControlFrame resetFrame
  dsimp only
  split <;> exact hop

theorem overrun_newFragment (w : World) : (newFragment w).1.overrun = w.overrun := by
  unfold newFragment
  split
  · rfl
  · split <;> rfl

theorem overrun_openFrame (w : World) : (openFrame w).1.overrun = w.overrun := by
  unfold openFrame
  split
  · rfl
  · split
    · rfl
    · split <;> rfl

theorem overrun_extendFrame (w : World) (current : WsFrame) (prev : List WsFrame) :
    (extendFrame w current prev).1.overrun = w.overrun := by
  unfold extendFrame
  split
  · dsimp only
    split <;> rfl
  · rfl

theorem overrun_seekRoom (w : World) : (seekRoom w).1.overrun = w.overrun := by
  have hopen := overrun_openFrame w
  unfold seekRoom
  cases hof : openFrame w with
  | mk w₁ ok =>
    rw [hof] at hopen
    cases ok with
    | false => exact hopen
    | true =>
      dsimp only at hopen ⊢
      cases w₁.ws.frames with
      | nil => exact hopen
      | cons current prev =>
        have hext := overrun_extendFrame w₁ current prev
        dsimp only
        cases hef : extendFrame w₁ current prev with
        | mk w₂ room =>
          rw [hef] at hext
          cases room <;> exact hext.trans hopen

/-- **The store marks no overrun**; the payloads copied for a message may. -/
theorem overrun_inData (hF : Fitting w.ws.frames) (c : UInt8)
    (hmessage : completesMessage w c = false) : (inData w c).1.overrun = w.overrun := by
  have hroom := overrun_seekRoom w
  obtain ⟨-, hsome⟩ := seekRoom_fits hF
  unfold completesMessage at hmessage
  rw [completionOf_seekRoom] at hmessage
  rw [inData_seekRoom]
  cases hseek : seekRoom w with
  | mk w₁ room =>
    rw [hseek] at hroom hsome hmessage
    cases room with
    | none => exact hroom
    | some p =>
      obtain ⟨current, prev⟩ := p
      obtain ⟨hfits, hlt⟩ := hsome (current, prev) rfl
      dsimp only [Option.bind_some] at hroom hmessage ⊢
      unfold storeByte
      cases hraw : current.rawdata with
      | none => exact absurd hraw (hfits.rawdata_ne hlt)
      | some r =>
        obtain ⟨b, raw⟩ := r
        -- the index is inside the bytes
        have hinside : current.rawdataIdx < raw.length := by
          have hsz := hfits.sz
          rw [room_some hraw] at hsz
          rw [(hfits.raw _ hraw).1]
          exact hlt.trans_le hsz
        rw [hraw, Option.map_some] at hmessage
        dsimp only at hmessage ⊢
        rw [decide_eq_false (Nat.not_le.mpr hinside), Bool.or_false]
        cases hcf : completeFrame { current with
            rawdataIdx := (current.rawdataIdx + 1) % 4294967296
            rawdata := some (b, raw.set current.rawdataIdx c) } (raw.set current.rawdataIdx c) with
        | mk done f =>
          rw [hcf] at hmessage
          cases done with
          | more => exact hroom
          | masked => exact hroom
          | complete =>
            refine Eq.trans ?_ hroom
            dsimp only at hmessage ⊢
            unfold frameDone
            cases hfin : f.fin with
            | false => exact overrun_newFragment _
            | true =>
              rw [hfin, Bool.true_and] at hmessage
              rw [if_pos rfl, if_pos (not_not.mp (of_decide_eq_false hmessage))]
              exact overrun_handleControlFrame _ f prev

end Room

/-! ## The bytes -/

section Bytes

variable {w w' : World} {libs : Libs} {grants : Nat → Bool} {rand : Nat → UInt32}

theorem fitting_framesOf (es : List (World × UInt8)) : Fitting (framesOf es) := by
  refine List.foldlRecOn es framesAfter fitting_nil fun frames hF e _ => ?_
  exact inData_fitting (w := e.1.withFrames frames) hF e.2

/-- **Every byte is stored inside the raw data**: after whatever bytes, each read with whatever
memory, `rawdata_sz` is at most what was allocated, and so is the index of the next byte. -/
theorem stored_inside (es : List (World × UInt8)) :
    SizeAllocated (framesOf es) ∧ ∀ v : World, StoresInside (v.withFrames (framesOf es)) := by
  have hF := fitting_framesOf es
  refine ⟨fun f hf b hb => ?_, fun v s hs => ?_⟩
  · have hsz := (hF f hf).sz
    unfold WsFrame.room at hsz
    rwa [hb] at hsz
  · obtain ⟨p, hp, hs⟩ := Option.bind_eq_some_iff.mp hs
    obtain ⟨b, hb, rfl⟩ := Option.map_eq_some_iff.mp hs
    obtain ⟨hfits, hlt⟩ := (seekRoom_fits (w := v.withFrames (framesOf es)) hF).2 p hp
    have hsz := hfits.sz
    unfold WsFrame.room at hsz
    rw [hb] at hsz
    exact hlt.trans_le hsz

/-- A ping is done with; the first byte after it is stored at the start of 512 bytes. -/
example : (storedAt (([0x89, 0] : Bytes).foldl (fun w c => (inData w c).1)
    (worldInit (fun _ => true) sampleRand))).map (fun s => (s.1.size, s.2)) = some (512, 0) := by
  decide +kernel

/-! ### The frames of the client -/

/-- The frames after a read are those after its bytes, each in the world it is read in. -/
theorem framesOf_foldl (bs : Bytes) : ∀ (w : World) (es : List (World × UInt8)),
    w.ws.frames = framesOf es →
      ∃ es', (bs.foldl (fun w c => (inData w c).1) w).ws.frames = framesOf es' := by
  induction bs with
  | nil => exact fun w es hes => ⟨es, hes⟩
  | cons c bs ih =>
    intro w es hes
    refine ih (inData w c).1 (es ++ [(w, c)]) ?_
    unfold framesOf
    rw [List.foldl_concat]
    show _ = framesAfter (framesOf es) (w, c)
    rw [← hes]
    rfl

/-- The frames come from bytes. -/
def FromBytes (w : World) : Prop := ∃ es, w.ws.frames = framesOf es

theorem KeepsFrames.fromBytes (h : KeepsFrames w w') (hw : FromBytes w) : FromBytes w' := by
  obtain ⟨es, hes⟩ := hw
  exact ⟨es, h.frames.trans hes⟩

theorem fromBytes_wsClientTask (io : WsIo) (hw : FromBytes w) :
    FromBytes (wsClientTask libs io w) := by
  by_cases hst : w.ws.state = .connectionEstablished
  · rw [wsClientTask_of_established hst]
    by_cases hne : (w.read io).1 = []
    · rw [established_idle hne]
      split
      · exact (keepsFrames_wsClientSend (w.read io).2 _).fromBytes hw
      · exact hw
    · rw [established_read hne]
      obtain ⟨es, hes⟩ := hw
      exact framesOf_foldl _ (w.read io).2 es hes
  · exact (keepsFrames_wsClientTask hst).fromBytes hw

theorem fromBytes_of_step {e : Event} (hw : FromBytes w) (hs : step libs w e = some w') :
    FromBytes w' := by
  cases e with
  | wsTask io =>
    obtain rfl := Option.some.inj hs
    exact fromBytes_wsClientTask io hw
  | tcpTask io =>
    obtain rfl := Option.some.inj hs
    exact (keepsFrames_tcpClientTask io w).fromBytes hw
  | wsOpen url cbs =>
    obtain rfl := Option.some.inj hs
    unfold wsClientOpen
    split
    · split <;> exact hw
    · exact hw
  | wsSend s =>
    obtain rfl := Option.some.inj hs
    exact (keepsFrames_wsClientSend w s).fromBytes hw
  | _ =>
    obtain rfl := Option.some.inj hs
    exact hw

/-- **In every run of the client** its frames come from the bytes read in it. -/
theorem framesOf_of_run {es : List Event}
    (hr : run (step libs) (worldInit grants rand) es = some w) : FromBytes w :=
  @inv_of_run _ _ (step libs) (fun _ _ => True) FromBytes (fun _ _ _ hw _ hs =>
    fromBytes_of_step hw hs) _ _ _ ⟨[], rfl⟩ along_true hr

/-- So no byte of a run marks an overrun, but where it completes a message. -/
theorem overrun_of_run {es : List Event}
    (hr : run (step libs) (worldInit grants rand) es = some w) (c : UInt8)
    (hmessage : completesMessage w c = false) : (inData w c).1.overrun = w.overrun := by
  obtain ⟨bytes, hbytes⟩ := framesOf_of_run hr
  refine overrun_inData ?_ c hmessage
  rw [hbytes]
  exact fitting_framesOf bytes

end Bytes

end Rastreo.Net
