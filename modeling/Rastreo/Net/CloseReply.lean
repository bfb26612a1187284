import Rastreo.Net.Messages
import Rastreo.Net.Sending

/-!
# The answer to a Close frame

`handle_control_frame` makes its answer in the received frame: it masks the payload where it stands
and sets the mask bit. A masked frame has four bytes of key before the payload, and for these there
is no room: what is queued is four bytes too short to be a frame.

* `RepliesClose`: one frame is queued, the Close with the payload that was received.
* **`not_repliesClose`**: whatever the payload and the form of its length, it never is.
-/

namespace Rastreo.Net

open Rastreo.Lib

/-- A Close frame of the server, whole and not masked. -/
structure IsClose (x : Wire) : Prop where
  opcode : x.frame.opcode = 8
  fin : x.frame.fin = true
  unmasked : x.frame.mask = none
  length_le : x.frame.payload.length ≤ 125

/-- **The answer is one Close frame**, masked, with the payload that was received. -/
def RepliesClose (w : World) (ctl : WsFrame) (prev : List WsFrame) (payload : Bytes) : Prop :=
  ∃ node form key,
    ((handleControlFrame w ctl prev).1.slots w.ws.curSocketId).datNode =
      (w.slots w.ws.curSocketId).datNode ++ [node] ∧
    decode node.data.2 = some (⟨true, 8, some key, payload⟩, form, [])

section Reply

variable {w : World} {ctl : WsFrame} {prev : List WsFrame}

@[simp] theorem slots_resetFrame : (resetFrame w ctl prev).1.slots = w.slots := by
  unfold resetFrame
  split <;> rfl

/-- What is queued has the length of the received frame. -/
theorem handleOpcode_queues {mask raw : Bytes} {b : Block} (hraw : ctl.rawdata = some (b, raw))
    (hle : ctl.payloadOffset + ctl.payloadLen ≤ raw.length)
    (hfits : ctl.payloadOffset + ctl.payloadLen < 65536) {node : Node}
    (hq : ((handleOpcode w ctl mask).slots w.ws.curSocketId).datNode =
      (w.slots w.ws.curSocketId).datNode ++ [node]) :
    node.data.2.length = ctl.payloadOffset + ctl.payloadLen := by
  have hsame : (w.slots w.ws.curSocketId).datNode ≠
      (w.slots w.ws.curSocketId).datNode ++ [node] := fun h =>
    List.cons_ne_nil _ _ (List.self_eq_append_right.mp h)
  have hsend : ∀ data : Bytes, data.length = raw.length →
      ((tcpClientSend w.heap w.slots w.ws.curSocketId data
        (ctl.payloadOffset + ctl.payloadLen)).2.2 w.ws.curSocketId).datNode =
          (w.slots w.ws.curSocketId).datNode ++ [node] →
      node.data.2.length = ctl.payloadOffset + ctl.payloadLen := by
    intro data hdata hq
    by_cases hst : (w.slots w.ws.curSocketId).state = .connectionStablished
    · rcases @tcpClientSend_eq w.heap w.slots _ hst data (ctl.payloadOffset + ctl.payloadLen) with
        ⟨-, heq⟩ | ⟨-, -, h', heq⟩ | ⟨-, -, h', n, -, hn, heq⟩
      · rw [heq] at hq
        exact absurd hq hsame
      · rw [heq] at hq
        exact absurd hq hsame
      · rw [heq] at hq
        dsimp only at hq
        rw [Function.update_self] at hq
        obtain rfl := List.singleton_inj.mp (List.append_cancel_left hq)
        rw [hn, Nat.mod_eq_of_lt hfits, List.length_take, hdata]
        exact Nat.min_eq_left hle
    · unfold tcpClientSend at hq
      rw [dif_pos w.ws.curSocketId.isLt, if_neg hst] at hq
      exact absurd hq hsame
  unfold handleOpcode at hq
  split at hq
  · split at hq
    · exact absurd hq hsame
    · rw [hraw] at hq
      refine hsend _ ?_ hq
      rw [List.length_modify, List.length_mapIdx]
  · exact absurd hq hsame

/-- **The answer is never a frame.** -/
theorem not_repliesClose {cur : WsFrame} {x : Wire} {b : Block} {z : Bytes}
    (hcur : cur.rawdata = some (b, x.bytes ++ z)) (hidx : cur.rawdataIdx = x.bytes.length)
    (hx : IsClose x) :
    (completeFrame cur (x.bytes ++ z)).1 = .complete ∧
      ¬ RepliesClose w (completeFrame cur (x.bytes ++ z)).2 prev x.frame.payload := by
  have hmask := hx.unmasked
  have hlen := hx.length_le
  have hbytes : x.bytes.length = 2 + x.form.extra + x.frame.payload.length := by
    rw [Wire.bytes, Frame.encode, Frame.header, Frame.body, hmask, List.length_append,
      List.length_cons, List.length_cons, length_be]
    dsimp only
    omega
  obtain ⟨fin, op, off, len, heq, hread⟩ := completeFrame_read hidx hmask (List.prefix_refl _)
    (z := z)
  rw [if_pos rfl] at heq
  obtain ⟨-, -, hend, -⟩ := hread rfl
  rw [heq]
  refine ⟨rfl, ?_⟩
  rintro ⟨node, form, key, hq, hdecode⟩
  unfold handleControlFrame at hq
  dsimp only at hq
  rw [slots_resetFrame] at hq
  have hextra : ∀ form : LengthForm, form.extra ≤ 8 := by
    intro form
    cases form <;> exact Nat.le_of_ble_eq_true rfl
  have hform := hextra x.form
  have hshort := @handleOpcode_queues w.drawMask.2
    { cur with fin := fin, opcode := op, payloadOffset := off, payloadLen := len } w.drawMask.1
    (x.bytes ++ z) b hcur (by dsimp only; rw [List.length_append]; omega)
    (by dsimp only; omega) node hq
  have hlong := length_of_decode hdecode rfl
  dsimp only at hshort hlong
  rw [hshort, hend, hbytes, List.length_nil] at hlong
  -- no two forms of the length are four bytes apart
  cases hx' : x.form <;> cases hf : form <;> rw [hx', hf] at hlong <;>
    simp only [LengthForm.extra] at hlong <;> omega

end Reply

/-! ## A Close with a status -/

/-- Status 1000. -/
def closeNormal : Wire := ⟨.short, ⟨true, 8, none, [3, 232]⟩, by decide⟩

theorem isClose_closeNormal : IsClose closeNormal := ⟨rfl, rfl, rfl, by decide⟩

/-- The current frame when the Close is there. -/
def closeFrame : WsFrame :=
  { WsFrame.zero ⟨0, sizeofFrame⟩ with
    rawdataIdx := 4
    rawdataSz := frameChunkLength
    rawdata := some (⟨1, frameChunkLength⟩, closeNormal.bytes ++ List.replicate 508 0) }

theorem not_repliesClose_normal :
    ¬ RepliesClose connectedWorld
      (completeFrame closeFrame (closeNormal.bytes ++ List.replicate 508 0)).2 [] [3, 232] :=
  (not_repliesClose (b := ⟨1, frameChunkLength⟩) rfl rfl isClose_closeNormal).2

/-- Four bytes are queued for it, and no frame can be read from them. -/
theorem repliesClose_short :
    ¬ ∀ (w : World) (cur : WsFrame) (prev : List WsFrame) (x : Wire) (b : Block) (z : Bytes),
      cur.rawdata = some (b, x.bytes ++ z) → cur.rawdataIdx = x.bytes.length → IsClose x →
      w.ws.flags.clientSentCloseFrame = false →
      RepliesClose w (completeFrame cur (x.bytes ++ z)).2 prev x.frame.payload := by
  intro hall
  obtain ⟨node, form, key, hq, hdecode⟩ := hall connectedWorld closeFrame [] closeNormal
    ⟨1, frameChunkLength⟩ (List.replicate 508 0) rfl rfl isClose_closeNormal rfl
  have hqueue : ((handleControlFrame connectedWorld
      (completeFrame closeFrame (closeNormal.bytes ++ List.replicate 508 0)).2 []).1.slots
        connectedWorld.ws.curSocketId).datNode.map (fun n => n.data.2) =
          [[0x88, 0x82, 3 ^^^ 1, 232 ^^^ 2]] := by decide +kernel
  rw [hq] at hqueue
  have hdata : node.data.2 = [0x88, 0x82, 3 ^^^ 1, 232 ^^^ 2] := (List.cons.inj hqueue).1
  have hnone : decode [0x88, 0x82, 3 ^^^ 1, 232 ^^^ 2] = none := by decide +kernel
  rw [hdata, hnone] at hdecode
  cases hdecode

end Rastreo.Net
