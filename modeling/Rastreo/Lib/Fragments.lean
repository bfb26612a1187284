import Rastreo.Lib.Rfc6455

/-!
# Fragmented messages (RFC 6455, section 5.4)

A server sends a message as one or more unmasked frames: the first has the message's opcode, the
others opcode 0, the last one the FIN bit. Control frames may stand before each of them.

* `Message.wires`: the frames of a message as they are sent.
* `reassemble`: the data frames of each message, read off the frames in order.
* `reassemble_wires`: reassembling undoes fragmenting.
-/

namespace Rastreo.Lib

/-! ## What is sent -/

/-- A frame in a form that holds its length. -/
structure Wire where
  form : LengthForm
  frame : Frame
  fits : form.Fits frame.payload.length
  deriving DecidableEq, Repr

/-- The bytes on the wire. -/
def Wire.bytes (x : Wire) : Bytes := x.frame.encode x.form

theorem Wire.bytes_ne_nil (x : Wire) : x.bytes ≠ [] := List.cons_ne_nil _ _

/-- A control frame, not a Close. -/
structure Control where
  form : LengthForm
  opcode : Fin 16
  payload : Bytes
  fits : form.Fits payload.length
  control : 8 < opcode.val
  deriving DecidableEq, Repr

/-- The control frame on the wire. -/
def Control.wire (c : Control) : Wire := ⟨c.form, ⟨true, c.opcode, none, c.payload⟩, c.fits⟩

/-- A fragment, with the control frames before it. -/
structure Fragment where
  controls : List Control
  form : LengthForm
  payload : Bytes
  fits : form.Fits payload.length
  deriving DecidableEq, Repr

namespace Fragment

/-- Its data frame. -/
def data (opcode : Fin 16) (fin : Bool) (f : Fragment) : Frame := ⟨fin, opcode, none, f.payload⟩

/-- The control frames and the data frame, in order. -/
def wires (opcode : Fin 16) (fin : Bool) (f : Fragment) : List Wire :=
  f.controls.map Control.wire ++ [⟨f.form, f.data opcode fin, f.fits⟩]

theorem frame_wires (opcode : Fin 16) (fin : Bool) (f : Fragment) :
    (f.wires opcode fin).map Wire.frame =
      (f.controls.map Control.wire).map Wire.frame ++ [f.data opcode fin] := by
  rw [wires, List.map_append, List.map_singleton]

end Fragment

/-- A fragment and those after it, the FIN bit in the last. -/
def wiresFrom (opcode : Fin 16) (f : Fragment) : List Fragment → List Wire
  | [] => f.wires opcode true
  | g :: gs => f.wires opcode false ++ wiresFrom 0 g gs

/-- Their data frames. -/
def dataFrom (opcode : Fin 16) (f : Fragment) : List Fragment → List Frame
  | [] => [f.data opcode true]
  | g :: gs => f.data opcode false :: dataFrom 0 g gs

/-- A message of data: at least one fragment. -/
structure Message where
  opcode : Fin 16
  data : opcode.val < 8
  first : Fragment
  more : List Fragment
  deriving DecidableEq, Repr

namespace Message

/-- **The frames of a message**, in order. -/
def wires (m : Message) : List Wire := wiresFrom m.opcode m.first m.more

/-- The ones that carry it. -/
def parts (m : Message) : List Frame := dataFrom m.opcode m.first m.more

/-- The payloads of the fragments. -/
def payloads (m : Message) : List Bytes := m.first.payload :: m.more.map Fragment.payload

theorem payload_parts (m : Message) : m.parts.map Frame.payload = m.payloads := by
  have h : ∀ (gs : List Fragment) (opcode : Fin 16) (f : Fragment),
      (dataFrom opcode f gs).map Frame.payload = f.payload :: gs.map Fragment.payload := by
    intro gs
    induction gs with
    | nil => intro opcode f; rfl
    | cons g gs ih => intro opcode f; rw [dataFrom, List.map_cons, ih, List.map_cons]; rfl
  exact h m.more m.opcode m.first

/-- The first frame has the opcode. -/
theorem head_parts (m : Message) : ∃ fin fs, m.parts = m.first.data m.opcode fin :: fs := by
  rw [parts]
  cases m.more with
  | nil => exact ⟨true, [], rfl⟩
  | cons g gs => exact ⟨false, _, rfl⟩

end Message

/-! ## What is read -/

/-- The data frames of each message, in order; `acc` are those of the current one, newest
first. -/
def reassemble (acc : List Frame) : List Frame → List (List Frame)
  | [] => []
  | f :: fs =>
    if 8 ≤ f.opcode.val then reassemble acc fs
    else if f.fin then (acc.reverse ++ [f]) :: reassemble [] fs
    else reassemble (f :: acc) fs

section Reassemble

variable {acc fs : List Frame} {f : Frame}

theorem reassemble_control (h : 8 ≤ f.opcode.val) :
    reassemble acc (f :: fs) = reassemble acc fs := if_pos h

theorem reassemble_last (h : f.opcode.val < 8) (hf : f.fin = true) :
    reassemble acc (f :: fs) = (acc.reverse ++ [f]) :: reassemble [] fs := by
  rw [reassemble, if_neg (Nat.not_le.mpr h), if_pos hf]

theorem reassemble_more (h : f.opcode.val < 8) (hf : f.fin = false) :
    reassemble acc (f :: fs) = reassemble (f :: acc) fs := by
  rw [reassemble, if_neg (Nat.not_le.mpr h), if_neg (by rw [hf]; decide)]

theorem reassemble_controls (cs : List Control) :
    reassemble acc ((cs.map Control.wire).map Wire.frame ++ fs) = reassemble acc fs := by
  induction cs with
  | nil => rfl
  | cons c cs ih =>
    have hc : 8 ≤ c.wire.frame.opcode.val := Nat.le_of_lt c.control
    rw [List.map_cons, List.map_cons, List.cons_append, reassemble_control hc, ih]

theorem reassemble_wiresFrom (gs : List Fragment) :
    ∀ (acc : List Frame) (opcode : Fin 16) (f : Fragment), opcode.val < 8 →
      reassemble acc ((wiresFrom opcode f gs).map Wire.frame ++ fs) =
        (acc.reverse ++ dataFrom opcode f gs) :: reassemble [] fs := by
  induction gs with
  | nil =>
    intro acc opcode f h
    rw [wiresFrom, Fragment.frame_wires, List.append_assoc, reassemble_controls]
    exact reassemble_last h rfl
  | cons g gs ih =>
    intro acc opcode f h
    rw [wiresFrom, List.map_append, Fragment.frame_wires, List.append_assoc, List.append_assoc,
      reassemble_controls, List.singleton_append, reassemble_more h rfl, ih _ 0 g (by decide),
      dataFrom, List.reverse_cons, List.append_assoc, List.singleton_append]

end Reassemble

/-- **Reassembling undoes fragmenting.** -/
theorem reassemble_wires (ms : List Message) :
    reassemble [] ((ms.flatMap Message.wires).map Wire.frame) = ms.map Message.parts := by
  induction ms with
  | nil => rfl
  | cons m ms ih =>
    rw [List.flatMap_cons, List.map_append, List.map_cons, Message.wires,
      reassemble_wiresFrom m.more [] m.opcode m.first m.data, ih]
    rfl

/-- An unmasked frame, not a Close, and whole when it is a control frame. -/
structure Wire.Plain (x : Wire) : Prop where
  notClose : x.frame.opcode.val ≠ 8
  unmasked : x.frame.mask = none
  whole : 8 ≤ x.frame.opcode.val → x.frame.fin = true

theorem plain_of_mem_fragment {opcode : Fin 16} {fin : Bool} {f : Fragment} {x : Wire}
    (h : opcode.val < 8) (hx : x ∈ f.wires opcode fin) : x.Plain := by
  rcases List.mem_append.mp hx with hx | hx
  · obtain ⟨c, -, rfl⟩ := List.mem_map.mp hx
    exact ⟨(Nat.ne_of_lt c.control).symm, rfl, fun _ => rfl⟩
  · obtain rfl := List.mem_singleton.mp hx
    exact ⟨Nat.ne_of_lt h, rfl, fun h' => absurd h (Nat.not_lt.mpr h')⟩

theorem plain_of_mem_wiresFrom {gs : List Fragment} {opcode : Fin 16} {f : Fragment} {x : Wire}
    (h : opcode.val < 8) (hx : x ∈ wiresFrom opcode f gs) : x.Plain := by
  induction gs generalizing opcode f with
  | nil => exact plain_of_mem_fragment h hx
  | cons g gs ih =>
    rcases List.mem_append.mp hx with hx | hx
    · exact plain_of_mem_fragment h hx
    · exact ih (by decide) hx

theorem plain_of_mem_wires {ms : List Message} {x : Wire} (hx : x ∈ ms.flatMap Message.wires) :
    x.Plain := by
  obtain ⟨m, -, hm⟩ := List.mem_flatMap.mp hx
  exact plain_of_mem_wiresFrom m.data hm

end Rastreo.Lib
