import Rastreo.Net.Ownership
import Rastreo.Lib.Fragments

/-!
# What `in_data` does with the bytes of a frame
-/

namespace Rastreo.Net

open Rastreo.Lib

/-! ## `complete_frame` -/

theorem and_mask_bit {b : UInt8} (h : b.toNat < 128) :
    b &&& 0x80 = 0 ∧ (b &&& 0x7f).toNat = b.toNat := by
  have hall : ∀ n < 128, UInt8.ofNat n &&& 0x80 = 0 ∧ (UInt8.ofNat n &&& 0x7f).toNat = n := by
    decide
  have hb := hall b.toNat h
  rwa [UInt8.ofNat_toNat] at hb

/-- The bits of a frame's first byte. -/
theorem first_bits (f : Frame) :
    (f.first &&& 0x80 == 0x80) = f.fin ∧ (f.first &&& 0x0f).toNat = f.opcode := by
  have hall : ∀ n : Fin 16, ((UInt8.ofNat (128 + n) &&& 0x80 == 0x80) = true ∧
      (UInt8.ofNat (128 + n) &&& 0x0f).toNat = n) ∧
      ((UInt8.ofNat (0 + n) &&& 0x80 == 0x80) = false ∧
        (UInt8.ofNat (0 + n) &&& 0x0f).toNat = n) := by decide
  rw [Frame.first]
  cases f.fin with
  | true => exact (hall f.opcode).1
  | false => exact (hall f.opcode).2

theorem take_header {q t z ext payload : Bytes} (h : q ++ t = ext ++ payload)
    (hlen : ext.length ≤ q.length) : (q ++ z).take ext.length = ext := by
  have := congrArg (List.take ext.length) h
  rw [List.take_append_of_le_length hlen, List.take_left] at this
  rw [List.take_append_of_le_length hlen, this]

/-- The end of `complete_frame`, once the length is known. -/
theorem ends_eq (cur : WsFrame) {fin : Bool} {op off len n : Nat} (hoff : off ≤ 10)
    (hlen : len < 9223372036854775808) (hle : cur.rawdataIdx ≤ off + len) (hn : n = off + len) :
    (if cur.rawdataIdx < (off + len) % 18446744073709551616 then
      (Completion.more, { cur with fin := fin, opcode := op, payloadOffset := off, payloadLen := len })
    else (.complete, { cur with fin := fin, opcode := op, payloadOffset := off, payloadLen := len })) =
      (if cur.rawdataIdx = n then .complete else .more,
        { cur with fin := fin, opcode := op, payloadOffset := off, payloadLen := len }) := by
  rw [Nat.mod_eq_of_lt (by omega), hn]
  by_cases h : cur.rawdataIdx = off + len
  · rw [if_neg (by omega), if_pos h]
  · rw [if_pos (by omega), if_neg h]

/-- **`complete_frame` on the first bytes of an unmasked frame** is complete at its end, and has
read it then. -/
theorem completeFrame_read {cur : WsFrame} {p z : Bytes} {x : Wire}
    (hidx : cur.rawdataIdx = p.length) (hmask : x.frame.mask = none) (hpre : p <+: x.bytes) :
    ∃ fin op off len, completeFrame cur (p ++ z) =
        (if p.length = x.bytes.length then .complete else .more,
          { cur with fin := fin, opcode := op, payloadOffset := off, payloadLen := len }) ∧
      (p.length = x.bytes.length → fin = x.frame.fin ∧ op = x.frame.opcode ∧
        off + len = p.length ∧ len = x.frame.payload.length) := by
  obtain ⟨form, f, hfits⟩ := x
  dsimp only at hmask hfits
  obtain ⟨t, ht⟩ := hpre
  have hsecond : (f.second form).toNat = form.code f.payload.length := by
    rw [f.second_toNat hfits, hmask]
    exact Nat.zero_add _
  have hbytes : Wire.bytes ⟨form, f, hfits⟩ =
      f.first :: f.second form :: (be form.extra f.payload.length ++ f.payload) := by
    rw [Wire.bytes, Frame.encode, Frame.header, Frame.body, hmask]
    rfl
  have hlen : (Wire.bytes ⟨form, f, hfits⟩).length = 2 + form.extra + f.payload.length := by
    rw [hbytes, List.length_cons, List.length_cons, List.length_append, length_be]
    omega
  rw [hlen]
  rw [hbytes] at ht
  unfold completeFrame
  rcases p with _ | ⟨a, _ | ⟨b, q⟩⟩
  · rw [if_pos (by rw [hidx, List.length_nil]; omega), if_neg (by rw [List.length_nil]; omega)]
    exact ⟨cur.fin, cur.opcode, cur.payloadOffset, cur.payloadLen, rfl,
      fun h => by rw [List.length_nil] at h; omega⟩
  · rw [if_pos (by rw [hidx, List.length_singleton]; omega),
      if_neg (by rw [List.length_singleton]; omega)]
    exact ⟨cur.fin, cur.opcode, cur.payloadOffset, cur.payloadLen, rfl,
      fun h => by rw [List.length_singleton] at h; omega⟩
  · obtain ⟨ha, htail⟩ := List.cons.inj ht
    obtain ⟨hb, hrest⟩ := List.cons.inj htail
    subst ha hb
    have hq : q.length + t.length = form.extra + f.payload.length := by
      have := congrArg List.length hrest
      rwa [List.append_eq, List.length_append, List.length_append, length_be] at this
    have hcode := form.code_lt hfits
    rw [← hsecond] at hcode
    obtain ⟨hbit, hshort⟩ := and_mask_bit hcode
    rw [hsecond] at hshort
    rw [List.length_cons, List.length_cons] at hidx ⊢
    obtain ⟨hfin, hop⟩ := first_bits f
    rw [if_neg (by omega)]
    simp only [List.cons_append, List.getD_cons_zero, List.getD_cons_succ, hfin, hop, hbit,
      ne_eq, not_true_eq_false, if_false, hshort, List.drop_succ_cons, List.drop_zero]
    cases form with
    | short =>
      have hlt : f.payload.length < 126 := hfits
      rw [LengthForm.code, LengthForm.extra] at *
      rw [if_neg (by omega), if_neg (by omega), ← hidx]
      exact ⟨f.fin, f.opcode, 2, f.payload.length,
        ends_eq cur (by omega) (by omega) (by omega) (by omega), fun h => ⟨rfl, rfl, by omega, rfl⟩⟩
    | ext16 =>
      have hlt : f.payload.length < 65536 := hfits
      rw [LengthForm.code, LengthForm.extra] at *
      rw [if_pos rfl, ← hidx]
      by_cases h4 : cur.rawdataIdx < 4
      · rw [if_pos h4, if_neg (by omega)]
        exact ⟨f.fin, f.opcode, 2, cur.payloadLen, rfl, fun h => by omega⟩
      · have htake := take_header (z := z) hrest (by rw [length_be]; omega)
        rw [length_be] at htake
        rw [if_neg h4, htake, beVal_be_of_lt (by omega)]
        exact ⟨f.fin, f.opcode, 4, f.payload.length,
          ends_eq cur (by omega) (by omega) (by omega) (by omega), fun h => ⟨rfl, rfl, by omega, rfl⟩⟩
    | ext64 =>
      have hlt : f.payload.length < 9223372036854775808 := hfits
      rw [LengthForm.code, LengthForm.extra] at *
      rw [if_neg (by decide), if_pos rfl, ← hidx]
      by_cases h10 : cur.rawdataIdx < 10
      · rw [if_pos h10, if_neg (by omega)]
        exact ⟨f.fin, f.opcode, 2, cur.payloadLen, rfl, fun h => by omega⟩
      · have htake := take_header (z := z) hrest (by rw [length_be]; omega)
        rw [length_be] at htake
        rw [if_neg h10, htake, beVal_be_of_lt (by omega)]
        exact ⟨f.fin, f.opcode, 10, f.payload.length,
          ends_eq cur (by omega) (by omega) (by omega) (by omega), fun h => ⟨rfl, rfl, by omega, rfl⟩⟩

/-! ## The frames of the client -/

/-- The blocks of a frame. -/
def WsFrame.blocks (f : WsFrame) : List Block := (f.rawdata.map (·.1)).toList ++ [f.block]

/-- The blocks of the frames of the client. -/
def World.frameBlocks (w : World) : List Block := w.ws.frames.flatMap WsFrame.blocks

/-- The blocks of the frames are live, each once, and none of them is in a queue. -/
structure Owned (w : World) : Prop where
  held : w.heap.Holds w.frameBlocks
  known : w.Known
  apart : ∀ sid, ∀ n ∈ (w.slots sid).datNode, ∀ b ∈ n.blocks, b ∉ w.frameBlocks

/-- The frame holds the bytes `p` and counts them, in a block that counts no more than it has. -/
structure Partial (cur : WsFrame) (p : Bytes) : Prop where
  data : ∃ b z, cur.rawdata = some (b, p ++ z) ∧ p.length + z.length = b.size ∧
    cur.rawdataSz ≤ b.size
  idx : cur.rawdataIdx = p.length
  le : p.length ≤ cur.rawdataSz

/-- The frame holds all of `f`. -/
structure Carries (cur : WsFrame) (f : Frame) : Prop where
  opcode : cur.opcode = f.opcode
  len : cur.payloadLen = f.payload.length
  payload : cur.payload? = some f.payload
  data : ∃ b raw, cur.rawdata = some (b, raw) ∧ raw.length = b.size

/-- The bytes `p` of a frame are in, behind the data frames `acc` of the message, newest first. -/
def At (w : World) (acc : List Frame) (p : Bytes) : Prop :=
  (w.ws.frames = [] ∧ acc = [] ∧ p = []) ∨
    ∃ cur prev, w.ws.frames = cur :: prev ∧ Partial cur p ∧ List.Forall₂ Carries prev acc

/-- What the bytes of a frame leave alone. -/
structure Steady (w w' : World) : Prop where
  ws : w'.ws = { w.ws with frames := w'.ws.frames }
  slots : w'.slots = w.slots

/-- The same, and nothing is said to the application and no access goes wrong. -/
structure Still (w w' : World) : Prop extends Steady w w' where
  calls : w'.calls = w.calls
  overrun : w'.overrun = w.overrun

theorem Steady.trans {w w₁ w' : World} (h₁ : Steady w w₁) (h₂ : Steady w₁ w') : Steady w w' :=
  ⟨by rw [h₂.ws, h₁.ws], h₂.slots.trans h₁.slots⟩

protected theorem Still.refl {w : World} : Still w w := ⟨⟨rfl, rfl⟩, rfl, rfl⟩

theorem Still.trans {w w₁ w' : World} (h₁ : Still w w₁) (h₂ : Still w₁ w') : Still w w' :=
  ⟨h₁.toSteady.trans h₂.toSteady, h₂.calls.trans h₁.calls, h₂.overrun.trans h₁.overrun⟩

section Owned

variable {w w' : World} {acc : List Frame} {p : Bytes} {cur : WsFrame} {prev : List WsFrame}

theorem Owned.of_same (ho : Owned w) (hh : w'.heap = w.heap) (hs : w'.slots = w.slots)
    (hf : w'.frameBlocks = w.frameBlocks) : Owned w' := by
  refine ⟨?_, ?_, ?_⟩
  · rw [hh, hf]
    exact ho.held
  · unfold World.Known
    rw [hs, hh]
    exact ho.known
  · rw [hs, hf]
    exact ho.apart

/-- Blocks not named before are in no queue. -/
theorem Owned.of_new (ho : Owned w) (hl : World.Later w w') (hs : w'.slots = w.slots)
    (hheld : w'.heap.Holds w'.frameBlocks)
    (hnew : ∀ b ∈ w'.frameBlocks, b ∈ w.frameBlocks ∨ w.heap.next ≤ b.name) : Owned w' := by
  refine ⟨hheld, hl.known ho.known, fun sid n hn b hb hmem => ?_⟩
  rw [hs] at hn
  rcases hnew b hmem with hmem | hle
  · exact ho.apart sid n hn b hb hmem
  · exact Nat.not_lt.mpr hle (ho.known sid n hn b hb)

theorem frameBlocks_cons {b : Block} {raw : Bytes} (hf : w.ws.frames = cur :: prev)
    (hd : cur.rawdata = some (b, raw)) :
    w.frameBlocks = b :: cur.block :: prev.flatMap WsFrame.blocks := by
  rw [World.frameBlocks, hf, List.flatMap_cons, WsFrame.blocks, hd]
  rfl

theorem carries_size {f : Frame} (hc : Carries cur f) :
    f.payload.length ≤ bytesOf cur.blocks := by
  obtain ⟨b, raw, hraw, hsize⟩ := hc.data
  have hpay := hc.payload
  rw [WsFrame.payload?, hraw] at hpay
  dsimp only at hpay
  split at hpay
  · have hle : cur.payloadOffset + cur.payloadLen ≤ raw.length := by assumption
    have hlen := hc.len
    rw [WsFrame.blocks, hraw]
    show _ ≤ bytesOf (b :: [cur.block])
    rw [bytesOf_cons]
    omega
  · cases hpay

/-- A frame just made or reset. -/
theorem partial_zeroed {b : Block} (hraw : cur.rawdata = some (zeroed b)) (hidx : cur.rawdataIdx = 0)
    (hsz : cur.rawdataSz ≤ b.size) : Partial cur [] :=
  ⟨⟨b, List.replicate b.size 0, hraw, by rw [List.length_nil, Nat.zero_add, List.length_replicate],
    hsz⟩, hidx, Nat.zero_le _⟩

/-! ## Room for a byte -/

/-- The requests for a frame: both are granted, the first is denied, or the second is. -/
theorem create_frame_cases (h : Heap) :
    (∃ (ha : h.Allows sizeofFrame) (ha' : (h.grant sizeofFrame ha).Allows frameChunkLength),
      dmemCreate h sizeofFrame = (some ⟨h.next, sizeofFrame⟩, h.grant sizeofFrame ha) ∧
      dmemCreate (h.grant sizeofFrame ha) frameChunkLength =
        (some ⟨h.next + 1, frameChunkLength⟩,
          (h.grant sizeofFrame ha).grant frameChunkLength ha')) ∨
    dmemCreate h sizeofFrame = (none, h.deny) ∨
    ∃ ha : h.Allows sizeofFrame,
      dmemCreate h sizeofFrame = (some ⟨h.next, sizeofFrame⟩, h.grant sizeofFrame ha) ∧
      dmemCreate (h.grant sizeofFrame ha) frameChunkLength =
        (none, (h.grant sizeofFrame ha).deny) := by
  by_cases ha : h.Allows sizeofFrame
  · by_cases ha' : (h.grant sizeofFrame ha).Allows frameChunkLength
    · exact .inl ⟨ha, ha', dif_pos ha, dif_pos ha'⟩
    · exact .inr (.inr ⟨ha, dif_pos ha, dif_neg ha'⟩)
  · exact .inr (.inl (dif_neg ha))

/-- The first two steps of `in_data`: a current frame with room for one more byte. -/
theorem openFrame_spec (hat : At w acc p) (ho : Owned w)
    (hd : (openFrame w).1.heap.denied = false) :
    ∃ w₁ cur prev, openFrame w = (w₁, true) ∧ w₁.ws.frames = cur :: prev ∧ Partial cur p ∧
      List.Forall₂ Carries prev acc ∧ Owned w₁ ∧ Still w w₁ := by
  rcases hat with ⟨hnil, rfl, rfl⟩ | ⟨cur, prev, hcons, hpart, hprev⟩
  · have hlater := later_openFrame w
    have hblocks : w.frameBlocks = [] := by rw [World.frameBlocks, hnil]; rfl
    have hheld := ho.held
    rw [hblocks] at hheld
    unfold openFrame at hd hlater ⊢
    rw [hnil] at hd hlater ⊢
    dsimp only at hd hlater ⊢
    rcases create_frame_cases w.heap with ⟨ha, ha', hc, hc'⟩ | hc | ⟨ha, hc, hc'⟩
    · rw [hc] at hd hlater ⊢
      dsimp only at hd hlater ⊢
      rw [hc'] at hd hlater ⊢
      refine ⟨_, _, [], rfl, rfl, partial_zeroed rfl rfl (Nat.le_refl _), .nil,
        ho.of_new hlater rfl ((hheld.grant ha).grant ha') fun b hb => .inr ?_,
        ⟨⟨rfl, rfl⟩, rfl, rfl⟩⟩
      rcases List.mem_cons.mp hb with rfl | hb
      · exact Nat.le_succ _
      · obtain rfl := List.mem_singleton.mp hb
        exact Nat.le_refl _
    · rw [hc] at hd
      cases hd
    · rw [hc] at hd
      dsimp only at hd
      rw [hc'] at hd
      have hd' := (later_dmemRelease _ _).undenied hd
      cases hd'
  · have hopen : openFrame w = (w, true) := by
      unfold openFrame
      rw [hcons]
    exact ⟨w, cur, prev, hopen, hcons, hpart, hprev, ho, .refl⟩

theorem extendFrame_spec (hf : w.ws.frames = cur :: prev) (hpart : Partial cur p) (ho : Owned w)
    (hd : (extendFrame w cur prev).1.heap.denied = false) :
    ∃ w₁ cur₁, extendFrame w cur prev = (w₁, some cur₁) ∧ w₁.ws.frames = cur₁ :: prev ∧
      Partial cur₁ p ∧ p.length < cur₁.rawdataSz ∧ Owned w₁ ∧ Still w w₁ := by
  obtain ⟨b, z, hraw, hsize, hsz⟩ := hpart.data
  have hidx := hpart.idx
  have hle := hpart.le
  have hblocks := frameBlocks_cons hf hraw
  have hheld := ho.held
  rw [hblocks] at hheld
  have hmem := hheld.size_le List.mem_cons_self
  by_cases hfull : cur.rawdataSz ≤ cur.rawdataIdx
  · have hlater := later_extendFrame w cur prev
    unfold extendFrame at hd hlater ⊢
    rw [if_pos hfull] at hd hlater ⊢
    have hmod : (cur.rawdataSz + frameChunkLength) % 4294967296 =
        cur.rawdataSz + frameChunkLength := Nat.mod_eq_of_lt (by
      rw [frameChunkLength]; rw [dataMemory] at hmem; omega)
    rw [hmod, hraw] at hd hlater ⊢
    dsimp only [Option.map_some] at hd hlater ⊢
    have hrel := hheld.release
    by_cases ha : (dmemRelease w.heap (some b)).Allows (cur.rawdataSz + frameChunkLength)
    · have hc : dmemExtend w.heap (some b) (cur.rawdataSz + frameChunkLength) =
          (some ⟨(dmemRelease w.heap (some b)).next, cur.rawdataSz + frameChunkLength⟩,
            (dmemRelease w.heap (some b)).grant _ ha) := dif_pos ha
      rw [hc] at hd hlater ⊢
      have htake : (p ++ z).take cur.rawdataIdx = p := by rw [hidx, List.take_left]
      dsimp only [Option.getD_some] at hlater ⊢
      rw [htake] at hlater ⊢
      refine ⟨_, _, rfl, rfl, ⟨⟨_, _, rfl, ?_, Nat.le_refl _⟩, hidx, ?_⟩, ?_,
        ho.of_new hlater rfl (hrel.grant ha) fun b' hb' => ?_,
        ⟨⟨rfl, rfl⟩, rfl, rfl⟩⟩
      · rw [List.length_replicate]
        dsimp only
        omega
      · exact hle.trans (Nat.le_add_right _ _)
      · exact Nat.lt_of_le_of_lt hle (Nat.lt_add_of_pos_right (by decide))
      · rw [hblocks]
        rcases List.mem_cons.mp hb' with rfl | hb'
        · exact .inr (Nat.le_of_eq next_dmemRelease.symm)
        · exact .inl (List.mem_cons_of_mem _ hb')
    · have hc : dmemExtend w.heap (some b) (cur.rawdataSz + frameChunkLength) =
          (none, w.heap.deny) := dif_neg ha
      rw [hc] at hd
      have hd' := ((later_dmemRelease _ _).trans (later_dmemRelease _ _)).undenied hd
      cases hd'
  · have hext : extendFrame w cur prev = (w, some cur) := if_neg hfull
    exact ⟨w, cur, hext, hf, hpart, by omega, ho, .refl⟩

/-! ## A byte -/

/-- The byte is stored behind `p`. -/
theorem storeByte_spec {c : UInt8} {x : Wire} (hf : w.ws.frames = cur :: prev)
    (hpart : Partial cur p) (hroom : p.length < cur.rawdataSz) (ho : Owned w)
    (hmask : x.frame.mask = none) (hpre : p ++ [c] <+: x.bytes) :
    ∃ w₁ cur₁, w₁.ws.frames = cur₁ :: prev ∧ Owned w₁ ∧ Still w w₁ ∧
      ((p ++ [c] ≠ x.bytes ∧ storeByte w c cur prev = (w₁, 0) ∧ Partial cur₁ (p ++ [c])) ∨
        (p ++ [c] = x.bytes ∧ storeByte w c cur prev = frameDone w₁ cur₁ prev ∧
          Carries cur₁ x.frame ∧ cur₁.fin = x.frame.fin)) := by
  obtain ⟨b, z, hraw, hsize, hsz⟩ := hpart.data
  have hidx := hpart.idx
  have hblocks := frameBlocks_cons hf hraw
  have hmem := (hblocks ▸ ho.held).size_le List.mem_cons_self
  rw [dataMemory] at hmem
  obtain ⟨z₀, z', rfl⟩ : ∃ z₀ z', z = z₀ :: z' :=
    List.exists_cons_of_length_pos (by omega)
  have hset : (p ++ z₀ :: z').set cur.rawdataIdx c = (p ++ [c]) ++ z' := by
    rw [hidx, List.set_append_right _ _ (Nat.le_refl _), Nat.sub_self, List.set_cons_zero,
      List.append_assoc, List.singleton_append]
  have hbad : decide ((p ++ z₀ :: z').length ≤ cur.rawdataIdx) = false := by
    rw [decide_eq_false_iff_not, hidx, List.length_append, List.length_cons]
    omega
  have hnext : (cur.rawdataIdx + 1) % 4294967296 = (p ++ [c]).length := by
    rw [hidx, List.length_append, List.length_singleton, Nat.mod_eq_of_lt (by omega)]
  obtain ⟨fin, op, off, len, hcf, hdone⟩ := @completeFrame_read
    { cur with
      rawdataIdx := (p ++ [c]).length
      rawdata := some (b, p ++ [c] ++ z') } (p ++ [c]) z' x rfl hmask hpre
  have hlen : (p ++ [c]).length + z'.length = b.size := by
    rw [List.length_append, List.length_singleton]
    rw [List.length_cons] at hsize
    omega
  -- the current frame afterwards
  generalize hcur₁ : ({ cur with
    rawdataIdx := (p ++ [c]).length
    rawdata := some (b, p ++ [c] ++ z')
    fin := fin
    opcode := op
    payloadOffset := off
    payloadLen := len } : WsFrame) = cur₁ at hcf
  refine ⟨{ w with ws := { w.ws with frames := cur₁ :: prev } }, cur₁, rfl,
    ho.of_same rfl rfl ?_, ⟨⟨rfl, rfl⟩, rfl, rfl⟩, ?_⟩
  · rw [hblocks, ← hcur₁]
    rfl
  unfold storeByte
  rw [hraw]
  dsimp only
  rw [hset, hbad, hnext, Bool.or_false, hcf]
  by_cases hend : (p ++ [c]).length = x.bytes.length
  · have heq : p ++ [c] = x.bytes := hpre.eq_of_length hend
    obtain ⟨hfin, hop, hoff, hpay⟩ := hdone hend
    rw [if_pos hend]
    refine .inr ⟨heq, rfl, ?_, by rw [← hcur₁]; exact hfin⟩
    rw [← hcur₁]
    refine ⟨hop, hpay, ?_, b, p ++ [c] ++ z', rfl, by rw [List.length_append, hlen]⟩
    have hhead : (x.frame.header x.form).length = off := by
      have := congrArg List.length heq
      rw [Wire.bytes, Frame.encode, Frame.body, hmask, @List.length_append _ (x.frame.header _)]
        at this
      dsimp only at this
      omega
    rw [WsFrame.payload?]
    dsimp only
    rw [if_pos (by rw [hoff, @List.length_append _ (p ++ [c])]; omega), heq, Wire.bytes,
      Frame.encode, Frame.body, hmask, List.append_assoc, List.drop_left' hhead,
      List.take_left' hpay.symm]
  · rw [if_neg hend]
    refine .inl ⟨fun heq => hend (congrArg List.length heq), rfl, ?_⟩
    rw [← hcur₁]
    exact ⟨⟨b, z', rfl, hlen, hsz⟩, rfl, by
      rw [List.length_append, List.length_singleton]; exact hroom⟩

/-! ## The end of a frame -/

/-- A control frame is dropped, and the fragments before it stay. -/
theorem frameDone_control (hf : w.ws.frames = cur :: prev) (ho : Owned w)
    (hraw : ∃ b raw, cur.rawdata = some (b, raw)) (hprev : List.Forall₂ Carries prev acc)
    (hfin : cur.fin = true) (hop : cur.opcode &&& 8 = 8) (hclose : cur.opcode ≠ 8)
    (hd : (frameDone w cur prev).1.heap.denied = false) :
    At (frameDone w cur prev).1 acc [] ∧ Owned (frameDone w cur prev).1 ∧
      Still w (frameDone w cur prev).1 := by
  obtain ⟨b, raw, hraw⟩ := hraw
  have hblocks := frameBlocks_cons hf hraw
  have hheld := ho.held
  rw [hblocks] at hheld
  have hlater := later_frameDone w cur prev
  unfold frameDone handleControlFrame handleOpcode resetFrame World.drawMask at hd hlater ⊢
  rw [if_pos hfin, if_pos hop] at hd hlater ⊢
  dsimp only at hd hlater ⊢
  rw [if_neg hclose, hraw] at hd hlater ⊢
  dsimp only [Option.map_some] at hd hlater ⊢
  have hrel := hheld.release
  by_cases ha : (dmemRelease w.heap (some b)).Allows frameChunkLength
  · have hc : dmemCreate (dmemRelease w.heap (some b)) frameChunkLength =
        (some ⟨(dmemRelease w.heap (some b)).next, frameChunkLength⟩,
          (dmemRelease w.heap (some b)).grant _ ha) := dif_pos ha
    rw [hc] at hlater ⊢
    refine ⟨.inr ⟨_, prev, rfl, partial_zeroed rfl rfl (Nat.zero_le _), hprev⟩,
      ho.of_new hlater rfl (hrel.grant ha) fun b' hb' => ?_, ⟨⟨rfl, rfl⟩, rfl, rfl⟩⟩
    rw [hblocks]
    rcases List.mem_cons.mp hb' with rfl | hb'
    · exact .inr (Nat.le_of_eq next_dmemRelease.symm)
    · exact .inl (List.mem_cons_of_mem _ hb')
  · have hc : dmemCreate (dmemRelease w.heap (some b)) frameChunkLength =
        (none, (dmemRelease w.heap (some b)).deny) := dif_neg ha
    rw [hc] at hd
    cases hd

/-- A fragment that is not the last stays, and a frame for the next one is opened. -/
theorem frameDone_more {f : Frame} (hf : w.ws.frames = cur :: prev) (ho : Owned w)
    (hcur : Carries cur f) (hprev : List.Forall₂ Carries prev acc) (hfin : cur.fin = false)
    (hd : (frameDone w cur prev).1.heap.denied = false) :
    At (frameDone w cur prev).1 (f :: acc) [] ∧ Owned (frameDone w cur prev).1 ∧
      Still w (frameDone w cur prev).1 := by
  have hlater := later_frameDone w cur prev
  have hnot : ¬ cur.fin = true := by rw [hfin]; exact Bool.false_ne_true
  unfold frameDone newFragment at hd hlater ⊢
  rw [if_neg hnot] at hd hlater ⊢
  rcases create_frame_cases w.heap with ⟨ha, ha', hc, hc'⟩ | hc | ⟨ha, hc, hc'⟩
  · rw [hc] at hlater ⊢
    dsimp only at hlater ⊢
    rw [hc'] at hlater ⊢
    refine ⟨.inr ⟨_, cur :: prev, by rw [← hf], partial_zeroed rfl rfl (Nat.zero_le _),
      .cons hcur hprev⟩, ho.of_new hlater rfl ((ho.held.grant ha).grant ha') fun b hb => ?_,
      ⟨⟨rfl, rfl⟩, rfl, rfl⟩⟩
    rcases List.mem_cons.mp hb with rfl | hb
    · exact .inr (Nat.le_succ _)
    · rcases List.mem_cons.mp hb with rfl | hb
      · exact .inr (Nat.le_refl _)
      · exact .inl hb
  · rw [hc] at hd
    cases hd
  · rw [hc] at hd
    dsimp only at hd
    rw [hc'] at hd
    cases hd

end Owned

/-! ## `dispatch_message` -/

/-- The first payload is at most one byte longer than the last. -/
def Roomy (payloads : List Bytes) : Prop :=
  ∀ a ∈ payloads.head?, ∀ z ∈ payloads.getLast?, a.length ≤ z.length + 1

/-- The payload of the frames, one after another. -/
def payloadOf (fs : List Frame) : Bytes := (fs.map Frame.payload).flatten

/-- The call for a message of these frames. -/
def callOf (fs : List Frame) : Call :=
  .onMessage ((fs.head?.map fun f => f.opcode.val).getD 0) (payloadOf fs) (payloadOf fs).length

@[simp] theorem payloadOf_nil : payloadOf [] = [] := rfl

@[simp] theorem payloadOf_cons (f : Frame) (fs : List Frame) :
    payloadOf (f :: fs) = f.payload ++ payloadOf fs := rfl

theorem length_payloadOf_concat (fs : List Frame) (f : Frame) :
    (payloadOf (fs ++ [f])).length = f.payload.length + (payloadOf fs).length := by
  rw [payloadOf, List.map_append, List.flatten_append, List.length_append, Nat.add_comm]
  congr 1
  exact congrArg List.length (List.append_nil _)

section Dispatch

variable {n : Nat} {frames : List WsFrame} {fs : List Frame}

/-- The copies fit while all the payloads do. -/
theorem copyPayload_foldl (h : List.Forall₂ Carries frames fs) :
    ∀ {buf : Buf n} {p z : Bytes}, buf.bytes = p ++ z → (payloadOf fs).length ≤ z.length →
      ∃ buf' : Buf n, frames.foldl copyPayload (buf, p.length, false) =
          (buf', (p ++ payloadOf fs).length, false) ∧
        buf'.bytes = p ++ payloadOf fs ++ z.drop (payloadOf fs).length := by
  induction h with
  | nil =>
    intro buf p z hbuf _
    exact ⟨buf, by rw [payloadOf_nil, List.append_nil]; rfl, by
      rw [payloadOf_nil, List.append_nil, List.length_nil, List.drop_zero, hbuf]⟩
  | @cons f g frames fs hfg _ ih =>
    intro buf p z hbuf hz
    rw [payloadOf_cons, List.length_append] at hz
    obtain ⟨buf₁, hstore, hbytes⟩ := @Buf.store_append n buf p z g.payload p.length hbuf rfl
      (by omega)
    have hcopy : copyPayload (buf, p.length, false) f =
        (buf₁, (p ++ g.payload).length, false) := by
      rw [copyPayload, hfg.payload, Option.bind_some, hstore, hfg.len, List.length_append]
    obtain ⟨buf', hfold, hbytes'⟩ := ih hbytes (by rw [List.length_drop]; omega)
    refine ⟨buf', ?_, ?_⟩
    · rw [List.foldl_cons, hcopy, hfold, payloadOf_cons, List.append_assoc]
    · rw [hbytes', payloadOf_cons, List.append_assoc p, List.drop_drop, List.length_append]

theorem copyPayloads_fits (h : List.Forall₂ Carries frames fs) (hn : (payloadOf fs).length ≤ n) :
    ∃ buf : Buf n, copyPayloads frames = (buf, (payloadOf fs).length, false) ∧
      buf.bytes.take (payloadOf fs).length = payloadOf fs := by
  obtain ⟨buf, hfold, hbytes⟩ := @copyPayload_foldl n frames fs h .clear [] (List.replicate n 0) rfl
    (by rwa [List.length_replicate])
  rw [List.nil_append] at hfold hbytes
  exact ⟨buf, hfold, by rw [hbytes, List.take_left]⟩

/-- A copy out of bounds is not taken back. -/
theorem copyPayload_bad (frames : List WsFrame) (buf : Buf n) (off : Nat) :
    (frames.foldl copyPayload (buf, off, true)).2.2 = true := by
  induction frames generalizing buf off with
  | nil => rfl
  | cons f frames ih =>
    rw [List.foldl_cons, copyPayload]
    split
    · exact ih _ _
    · exact ih _ _

theorem copyPayload_overflows (h : List.Forall₂ Carries frames fs) :
    ∀ {buf : Buf n} {off : Nat}, off ≤ n → n < off + (payloadOf fs).length →
      (frames.foldl copyPayload (buf, off, false)).2.2 = true := by
  induction h with
  | nil =>
    intro buf off hle hlt
    rw [payloadOf_nil, List.length_nil] at hlt
    omega
  | @cons f g frames fs hfg _ ih =>
    intro buf off hle hlt
    rw [payloadOf_cons, List.length_append] at hlt
    rw [List.foldl_cons, copyPayload, hfg.payload, Option.bind_some, hfg.len]
    by_cases hfit : off + g.payload.length ≤ n
    · obtain ⟨buf₁, hstore⟩ := @Buf.store_isSome n buf off g.payload hfit
      rw [hstore]
      dsimp only
      exact ih hfit (by omega)
    · have hstore : buf.store off g.payload = none := dif_neg hfit
      rw [hstore]
      exact copyPayload_bad _ _ _

/-- The way back leaves out the first fragment. -/
theorem backwardsLen_add {cur : WsFrame} {prev : List WsFrame} {f : Frame} {acc : List Frame}
    (h : List.Forall₂ Carries (cur :: prev) (f :: acc)) :
    backwardsLen (cur :: prev) + ((f :: acc).getLast (List.cons_ne_nil f acc)).payload.length =
      (payloadOf (f :: acc).reverse).length := by
  induction prev generalizing cur f acc with
  | nil =>
    cases h with
    | cons _ htail =>
      cases htail with
      | nil => exact (Nat.zero_add _).trans (congrArg List.length (List.append_nil _).symm)
  | cons g prev ih =>
    cases h with
    | cons hfg htail =>
      cases htail with
      | @cons _ g' _ acc hg hprev =>
        rw [backwardsLen, List.getLast_cons_cons, Nat.add_assoc, ih (.cons hg hprev),
          @List.reverse_cons _ _ (g' :: acc), length_payloadOf_concat, hfg.len]

theorem payloads_le (h : List.Forall₂ Carries frames fs) :
    (payloadOf fs.reverse).length ≤ bytesOf (frames.flatMap WsFrame.blocks) := by
  induction h with
  | nil => exact Nat.zero_le _
  | @cons f g frames fs hfg _ ih =>
    rw [List.reverse_cons, length_payloadOf_concat, List.flatMap_cons, bytesOf, List.map_append,
      List.sum_append]
    exact Nat.add_le_add (carries_size hfg) ih

theorem roomy_reverse (f : Frame) (acc : List Frame) :
    Roomy ((f :: acc).reverse.map Frame.payload) ↔
      ((f :: acc).getLast (List.cons_ne_nil f acc)).payload.length ≤ f.payload.length + 1 := by
  rw [Roomy, List.head?_map, List.head?_reverse, List.getLast?_map, List.getLast?_reverse,
    List.getLast?_eq_some_getLast (List.cons_ne_nil f acc)]
  simp

/-- The block `dispatch_message` asks for, and when the message fits it. -/
theorem fits_iff_roomy {cur : WsFrame} {prev : List WsFrame} {f : Frame} {acc : List Frame}
    (h : List.Forall₂ Carries (cur :: prev) (f :: acc))
    (hle : bytesOf ((cur :: prev).flatMap WsFrame.blocks) ≤ dataMemory) :
    (payloadOf (f :: acc).reverse).length ≤
        ((cur.payloadLen + backwardsLen (cur :: prev)) % 18446744073709551616 + 1) % 4294967296 ↔
      Roomy ((f :: acc).reverse.map Frame.payload) := by
  have hsum := backwardsLen_add h
  have htotal := (payloads_le h).trans hle
  have hcur : cur.payloadLen = f.payload.length := by
    cases h with
    | cons hfg _ => exact hfg.len
  have hcurle : f.payload.length ≤ (payloadOf (f :: acc).reverse).length := by
    rw [List.reverse_cons, length_payloadOf_concat]
    exact Nat.le_add_right _ _
  rw [dataMemory] at htotal
  rw [roomy_reverse, hcur]
  generalize (payloadOf (f :: acc).reverse).length = total at *
  omega

theorem opcode_carries (h : List.Forall₂ Carries frames fs) :
    (frames.getLast?.map WsFrame.opcode).getD 0 =
      (fs.reverse.head?.map fun f => f.opcode.val).getD 0 := by
  have hmap : frames.map WsFrame.opcode = fs.map fun f => f.opcode.val := by
    induction h with
    | nil => rfl
    | cons hfg _ ih => rw [List.map_cons, List.map_cons, hfg.opcode, ih]
  rw [List.head?_reverse, ← List.getLast?_map, ← List.getLast?_map, hmap]

/-- **`dispatch_message`** hands the message over whole when it fits the block asked for, and else
writes past the block. -/
theorem dispatchMessage_spec {w : World} {cur : WsFrame} {prev : List WsFrame} {f : Frame}
    {acc : List Frame} (hf : w.ws.frames = cur :: prev) (ho : Owned w)
    (h : List.Forall₂ Carries (cur :: prev) (f :: acc)) (hcb : w.ws.onMessage = true)
    (hd : (dispatchMessage w (cur :: prev)).1.heap.denied = false) :
    (dispatchMessage w (cur :: prev)).1.ws = w.ws ∧
    (dispatchMessage w (cur :: prev)).1.slots = w.slots ∧
    (Roomy ((f :: acc).reverse.map Frame.payload) →
      (dispatchMessage w (cur :: prev)).1.calls = w.calls ++ [callOf (f :: acc).reverse] ∧
      (dispatchMessage w (cur :: prev)).1.overrun = w.overrun) ∧
    (¬ Roomy ((f :: acc).reverse.map Frame.payload) →
      (dispatchMessage w (cur :: prev)).1.overrun = true) := by
  have hheld := ho.held.bytesOf_le
  rw [World.frameBlocks, hf] at hheld
  have hfits := fits_iff_roomy h hheld
  have hop := opcode_carries h
  have hrev := List.rel_reverse h
  unfold dispatchMessage at hd ⊢
  dsimp only at hd ⊢
  generalize ((cur.payloadLen + backwardsLen (cur :: prev)) % 18446744073709551616 + 1) %
    4294967296 = n at hd hfits ⊢
  by_cases ha : w.heap.Allows n
  · have hc : dmemCreate w.heap n = (some ⟨w.heap.next, n⟩, w.heap.grant n ha) := dif_pos ha
    rw [hc] at hd ⊢
    dsimp only at hd ⊢
    generalize cleanupFrames (w.heap.grant n ha) (cur :: prev).reverse = h₁ at hd ⊢
    by_cases ha' : h₁.Allows sizeofMessage
    · have hc' : dmemCreate h₁ sizeofMessage =
          (some ⟨h₁.next, sizeofMessage⟩, h₁.grant sizeofMessage ha') := dif_pos ha'
      rw [hc', hcb, hop]
      refine ⟨rfl, rfl, fun hr => ?_, fun hr => ?_⟩
      · obtain ⟨buf, hcopy, hbytes⟩ := copyPayloads_fits hrev (hfits.mpr hr)
        dsimp only
        rw [hcopy]
        dsimp only
        rw [hbytes, Bool.or_false]
        exact ⟨rfl, rfl⟩
      · have hbad : (copyPayloads (n := n) (cur :: prev).reverse).2.2 = true :=
          copyPayload_overflows hrev (Nat.zero_le _) (by
            rw [Nat.zero_add]
            exact Nat.lt_of_not_le fun hle => hr (hfits.mp hle))
        dsimp only
        rw [hbad, Bool.or_true]
    · have hc' : dmemCreate h₁ sizeofMessage = (none, h₁.deny) := dif_neg ha'
      rw [hc'] at hd
      have hd' := (later_dmemRelease _ _).undenied hd
      cases hd'
  · have hc : dmemCreate w.heap n = (none, w.heap.deny) := dif_neg ha
    rw [hc] at hd
    cases hd

/-- The last frame of a message. -/
theorem frameDone_last {w : World} {cur : WsFrame} {prev : List WsFrame} {f : Frame}
    {acc : List Frame} (hf : w.ws.frames = cur :: prev) (ho : Owned w)
    (h : List.Forall₂ Carries (cur :: prev) (f :: acc)) (hcb : w.ws.onMessage = true)
    (hfin : cur.fin = true) (hop : cur.opcode &&& 8 ≠ 8)
    (hd : (frameDone w cur prev).1.heap.denied = false) :
    At (frameDone w cur prev).1 [] [] ∧ Owned (frameDone w cur prev).1 ∧
    Steady w (frameDone w cur prev).1 ∧
    (Roomy ((f :: acc).reverse.map Frame.payload) →
      (frameDone w cur prev).1.calls = w.calls ++ [callOf (f :: acc).reverse] ∧
      (frameDone w cur prev).1.overrun = w.overrun) ∧
    (¬ Roomy ((f :: acc).reverse.map Frame.payload) →
      (frameDone w cur prev).1.overrun = true) := by
  have hlater := later_frameDone w cur prev
  unfold frameDone at hd hlater ⊢
  rw [if_pos hfin, if_neg hop] at hd hlater ⊢
  dsimp only at hd hlater ⊢
  obtain ⟨hws, hslots, hroomy, hnot⟩ := dispatchMessage_spec hf ho h hcb hd
  refine ⟨.inl ⟨rfl, rfl, rfl⟩, ⟨Heap.Holds.nil, hlater.known ho.known, fun _ _ _ _ _ => (by rintro ⟨⟩)⟩,
    ⟨?_, hslots⟩, hroomy, hnot⟩
  rw [hws]

end Dispatch

/-! ## `in_data` -/

theorem and_eight {n : Nat} (h : n < 16) : n &&& 8 = 8 ↔ 8 ≤ n := by
  revert n
  decide

/-- **`in_data` makes room for the byte**, and stores it. -/
theorem inData_room {w : World} {acc : List Frame} {p : Bytes} {c : UInt8} (hat : At w acc p)
    (ho : Owned w) (hd : (inData w c).1.heap.denied = false) :
    ∃ w₁ cur prev, inData w c = storeByte w₁ c cur prev ∧ w₁.ws.frames = cur :: prev ∧
      Partial cur p ∧ p.length < cur.rawdataSz ∧ List.Forall₂ Carries prev acc ∧ Owned w₁ ∧
      Still w w₁ := by
  obtain ⟨w₁, cur, prev, hopen, hf, hpart, hprev, ho₁, hs₁⟩ :=
    openFrame_spec hat ho ((later_inData_open w c).heap.undenied hd)
  have hin : inData w c = fillFrame w₁ c cur prev := by
    unfold inData
    rw [hopen]
    dsimp only
    rw [hf]
  rw [hin] at hd
  have hdext : (extendFrame w₁ cur prev).1.heap.denied = false := by
    unfold fillFrame at hd
    cases hext : extendFrame w₁ cur prev with
    | mk w₂ r =>
      rw [hext] at hd
      cases r with
      | none => exact hd
      | some cur₂ => exact (later_storeByte w₂ c cur₂ prev).heap.undenied hd
  obtain ⟨w₂, cur₂, hext, hf₂, hpart₂, hroom, ho₂, hs₂⟩ := extendFrame_spec hf hpart ho₁ hdext
  refine ⟨w₂, cur₂, prev, ?_, hf₂, hpart₂, hroom, hprev, ho₂, hs₁.trans hs₂⟩
  rw [hin, fillFrame, hext]

/-- What the next byte of a frame of `x` does, behind `acc` and the bytes `p`. -/
inductive Takes (w w' : World) (acc : List Frame) (p : Bytes) (x : Wire) : Prop
  | more (hne : p ≠ x.bytes) (hat : At w' acc p) (hs : Still w w')
  | control (heq : p = x.bytes) (hop : 8 ≤ x.frame.opcode.val) (hat : At w' acc [])
      (hs : Still w w')
  | fragment (heq : p = x.bytes) (hop : x.frame.opcode.val < 8) (hfin : x.frame.fin = false)
      (hat : At w' (x.frame :: acc) []) (hs : Still w w')
  | last (heq : p = x.bytes) (hop : x.frame.opcode.val < 8) (hfin : x.frame.fin = true)
      (hat : At w' [] [])
      (hroomy : Roomy ((x.frame :: acc).reverse.map Frame.payload) →
        w'.calls = w.calls ++ [callOf (x.frame :: acc).reverse] ∧ w'.overrun = w.overrun)
      (hnot : ¬ Roomy ((x.frame :: acc).reverse.map Frame.payload) → w'.overrun = true)

/-- **`in_data` on the next byte of a frame.** -/
theorem inData_takes {w : World} {acc : List Frame} {p : Bytes} {c : UInt8} {x : Wire}
    (hat : At w acc p) (ho : Owned w) (hcb : w.ws.onMessage = true) (hx : x.Plain)
    (hpre : p ++ [c] <+: x.bytes) (hd : (inData w c).1.heap.denied = false) :
    Owned (inData w c).1 ∧ Steady w (inData w c).1 ∧
      Takes w (inData w c).1 acc (p ++ [c]) x := by
  obtain ⟨w₁, cur₁, prev, hin, hf₁, hpart, hroom, hprev, ho₁, hs₁⟩ := inData_room hat ho hd
  obtain ⟨w₂, cur₂, hf₂, ho₂, hs₂, ⟨hne, hstore, hpart₂⟩ | ⟨heq, hstore, hcur, hfin⟩⟩ :=
    storeByte_spec hf₁ hpart hroom ho₁ hx.unmasked hpre
  · rw [hin, hstore]
    have hs := hs₁.trans hs₂
    exact ⟨ho₂, hs.toSteady, .more hne (.inr ⟨cur₂, prev, hf₂, hpart₂, hprev⟩) hs⟩
  have hs := hs₁.trans hs₂
  rw [hin, hstore] at hd ⊢
  have height := and_eight x.frame.opcode.isLt
  rw [← hcur.opcode] at height
  by_cases hop : 8 ≤ x.frame.opcode.val
  · -- a control frame
    obtain ⟨b, raw, hraw, -⟩ := hcur.data
    obtain ⟨hat', ho', hs'⟩ := frameDone_control hf₂ ho₂ ⟨b, raw, hraw⟩ hprev
      (hfin.trans (hx.whole hop)) (height.mpr (hcur.opcode ▸ hop))
      (hcur.opcode ▸ hx.notClose) hd
    exact ⟨ho', (hs.trans hs').toSteady, .control heq hop hat' (hs.trans hs')⟩
  · have hop : x.frame.opcode.val < 8 := Nat.lt_of_not_le hop
    cases hx' : x.frame.fin with
    | false =>
      obtain ⟨hat', ho', hs'⟩ := frameDone_more hf₂ ho₂ hcur hprev (hfin.trans hx') hd
      exact ⟨ho', (hs.trans hs').toSteady, .fragment heq hop hx' hat' (hs.trans hs')⟩
    | true =>
      have hcb₂ : w₂.ws.onMessage = true := by rw [hs.ws]; exact hcb
      have hnot : cur₂.opcode &&& 8 ≠ 8 := fun h8 =>
        Nat.not_le.mpr hop (hcur.opcode ▸ height.mp h8)
      obtain ⟨hat', ho', hst, hroomy, hbad⟩ := frameDone_last hf₂ ho₂ (.cons hcur hprev) hcb₂
        (hfin.trans hx') hnot hd
      rw [hs.calls, hs.overrun] at hroomy
      exact ⟨ho', hs.toSteady.trans hst, .last heq hop hx' hat' hroomy hbad⟩

end Rastreo.Net
