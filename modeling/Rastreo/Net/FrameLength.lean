import Rastreo.Net.WsFrames

/-!
# When a frame is complete

`complete_frame` adds the length of the payload to its offset in 64 bits. A length next to `2 ^ 64`,
which the long form can hold, makes the sum wrap, and the ten bytes of the header are taken for all
of the frame.

* `Buffered`: complete means that all of the frame is there, with the length of its header.
* **`buffered_iff`**: so it is unless the sum wraps.
-/

namespace Rastreo.Net

open Rastreo.Lib

/-! ## What the header says -/

/-- The low seven bits of the second byte. -/
def shortLength (raw : Bytes) : Nat := (raw.getD 1 0 &&& 0x7f).toNat

/-- The payload length that the header encodes, in network byte order. -/
def headerLength (raw : Bytes) : Nat :=
  if shortLength raw = 126 then beVal ((raw.drop 2).take 2)
  else if shortLength raw = 127 then beVal ((raw.drop 2).take 8)
  else shortLength raw

/-- **All of the frame is there** when it is complete, and its length is that of the header. -/
def Buffered (f : WsFrame) (raw : Bytes) : Prop :=
  (completeFrame f raw).1 = .complete →
    (completeFrame f raw).2.payloadOffset + (completeFrame f raw).2.payloadLen ≤ f.rawdataIdx ∧
      (completeFrame f raw).2.payloadLen = headerLength raw

/-- The header is there and not masked, the long form does not fit 64 bits together with the
header, and some of the frame is still to come. -/
structure Wraps (f : WsFrame) (raw : Bytes) : Prop where
  header : 10 ≤ f.rawdataIdx
  unmasked : raw.getD 1 0 &&& 0x80 = 0
  long : shortLength raw = 127
  wraps : 18446744073709551616 ≤ 10 + headerLength raw
  partly : f.rawdataIdx < 10 + headerLength raw

/-! ## `complete_frame` -/

section Complete

variable {f : WsFrame} {raw : Bytes}

theorem beVal_lt (bs : Bytes) : beVal bs < 256 ^ bs.length := by
  induction bs using List.reverseRecOn with
  | nil => exact Nat.one_pos
  | append_singleton bs b ih =>
    have hb : b.toNat < 256 := b.toNat_lt
    rw [beVal_concat, List.length_append, List.length_singleton, Nat.pow_succ']
    omega

theorem beVal_take_lt (bs : Bytes) (k : Nat) : beVal (bs.take k) < 256 ^ k :=
  (beVal_lt (bs.take k)).trans_le
    (Nat.pow_le_pow_right (by decide) (List.length_take_le k bs))

/-- The comparison at the end of `complete_frame`. -/
theorem ends_complete {idx n : Nat} {g : WsFrame}
    (h : (if idx < n then (Completion.more, g) else (.complete, g)).1 = .complete) :
    n ≤ idx ∧ (if idx < n then (Completion.more, g) else (.complete, g)).2 = g := by
  split at h
  · cases h
  · rename_i hle
    rw [if_neg hle]
    exact ⟨Nat.not_lt.mp hle, rfl⟩

/-- **A complete frame**: its offset, its length, and the comparison that was made. -/
theorem completeFrame_complete (h : (completeFrame f raw).1 = .complete) :
    raw.getD 1 0 &&& 0x80 = 0 ∧
      (completeFrame f raw).2.payloadLen = headerLength raw ∧
      ((completeFrame f raw).2.payloadOffset + headerLength raw) % 18446744073709551616 ≤
        f.rawdataIdx ∧
      ((shortLength raw = 127 ∧ (completeFrame f raw).2.payloadOffset = 10 ∧ 10 ≤ f.rawdataIdx) ∨
        (completeFrame f raw).2.payloadOffset + headerLength raw < 18446744073709551616) := by
  unfold completeFrame at h ⊢
  split at h
  · cases h
  · rename_i h2
    rw [if_neg h2]
    dsimp only at h ⊢
    split at h
    · cases h
    · rename_i hmask
      rw [if_neg hmask]
      refine ⟨not_not.mp hmask, ?_⟩
      have hlow : shortLength raw < 128 := by
        have hle : raw.getD 1 0 &&& 0x7f ≤ 0x7f := UInt8.and_le_right
        exact Nat.lt_succ_of_le hle
      unfold headerLength shortLength at *
      split at h
      · rename_i h126
        rw [if_pos h126, if_pos h126]
        split at h
        · cases h
        · rename_i h4
          rw [if_neg h4]
          obtain ⟨hle, hsame⟩ := ends_complete h
          have hlt := beVal_take_lt (raw.drop 2) 2
          rw [hsame]
          exact ⟨rfl, hle, .inr (by dsimp only; omega)⟩
      · rename_i h126
        rw [if_neg h126, if_neg h126]
        split at h
        · rename_i h127
          rw [if_pos h127, if_pos h127]
          split at h
          · cases h
          · rename_i h10
            rw [if_neg h10]
            obtain ⟨hle, hsame⟩ := ends_complete h
            rw [hsame]
            exact ⟨rfl, hle, .inl ⟨h127, rfl, Nat.not_lt.mp h10⟩⟩
        · rename_i h127
          rw [if_neg h127, if_neg h127]
          obtain ⟨hle, hsame⟩ := ends_complete h
          rw [hsame]
          exact ⟨rfl, hle, .inr (by dsimp only; omega)⟩

/-- Where the sum wraps the header is all that is waited for. -/
theorem complete_of_wraps (h : Wraps f raw) : (completeFrame f raw).1 = .complete ∧
    (completeFrame f raw).2.payloadOffset = 10 := by
  have hheader := h.header
  have hlong := h.long
  have hlt := beVal_take_lt (raw.drop 2) 8
  have hwraps := h.wraps
  unfold headerLength at hwraps
  rw [if_neg (by rw [hlong]; decide), if_pos hlong] at hwraps
  unfold shortLength at hlong
  unfold completeFrame
  rw [if_neg (by omega)]
  dsimp only
  rw [if_neg (not_not.mpr h.unmasked), if_neg (by rw [hlong]; decide), if_pos hlong,
    if_neg (by omega), if_neg (by omega)]
  exact ⟨rfl, rfl⟩

end Complete

/-- **A complete frame is all there** exactly when the sum of offset and length does not wrap. -/
theorem buffered_iff (f : WsFrame) (raw : Bytes) : Buffered f raw ↔ ¬ Wraps f raw := by
  constructor
  · intro hbuffered hwraps
    obtain ⟨hdone, hoff⟩ := complete_of_wraps hwraps
    obtain ⟨hle, hlen⟩ := hbuffered hdone
    rw [hoff, hlen] at hle
    exact Nat.not_le.mpr hwraps.partly hle
  · intro hnot hdone
    obtain ⟨hmask, hlen, hle, hoff⟩ := completeFrame_complete hdone
    refine ⟨?_, hlen⟩
    rw [hlen]
    rcases hoff with ⟨hlong, hten, hheader⟩ | hlt
    · rw [hten] at hle ⊢
      by_contra hpart
      refine hnot ⟨hheader, hmask, hlong, ?_, Nat.not_le.mp hpart⟩
      by_contra hfits
      rw [Nat.mod_eq_of_lt (Nat.not_le.mp hfits)] at hle
      exact hpart hle
    · rwa [Nat.mod_eq_of_lt hlt] at hle

/-- The header 81 7F and eight times FF. -/
def hugeHeader : Bytes := [0x81, 0x7f, 0xff, 0xff, 0xff, 0xff, 0xff, 0xff, 0xff, 0xff]

/-- Ten bytes are taken for a whole frame of `2 ^ 64 - 1` bytes. -/
theorem not_buffered : ¬ ∀ (f : WsFrame) (raw : Bytes), Buffered f raw := by
  intro hall
  have hdone : (completeFrame { WsFrame.zero ⟨0, sizeofFrame⟩ with rawdataIdx := 10 } hugeHeader).1 =
      .complete := by decide +kernel
  have hlen := (hall { WsFrame.zero ⟨0, sizeofFrame⟩ with rawdataIdx := 10 } hugeHeader hdone).1
  have hbig : ¬ (completeFrame { WsFrame.zero ⟨0, sizeofFrame⟩ with rawdataIdx := 10 }
        hugeHeader).2.payloadOffset + (completeFrame { WsFrame.zero ⟨0, sizeofFrame⟩ with
          rawdataIdx := 10 } hugeHeader).2.payloadLen ≤ 10 := by decide +kernel
  exact hbig hlen

end Rastreo.Net
