import Rastreo.Net.Handshake

/-!
# One byte at a time

`in_data` makes room for the byte, stores it and asks `complete_frame`. What follows is one of three
things, and depends on the answer alone.

* `completionOf`: the answer of `complete_frame` for the next byte.
* `inData_cases`: what `in_data` does, by that answer.
* `Spares`: what a byte and a message leave of the client. Only the bytes of a Close frame and of a
  masked frame set `CLIENT_SHOULD_CLOSE` (`spares_inData`).
-/

namespace Rastreo.Net

open Rastreo.Lib

/-! ## The answer of `complete_frame` -/

/-- What `complete_frame` says after the byte; `none` when there is no room for it. -/
def completionOf (w : World) (c : UInt8) : Option (Completion × WsFrame) :=
  match openFrame w with
  | (_, false) => none
  | (w, true) =>
    match w.ws.frames with
    | [] => none
    | current :: prev =>
      match extendFrame w current prev with
      | (_, none) => none
      | (_, some current) => current.rawdata.map fun r =>
          completeFrame { current with
            rawdataIdx := (current.rawdataIdx + 1) % 4294967296
            rawdata := some (r.1, r.2.set current.rawdataIdx c) } (r.2.set current.rawdataIdx c)

/-- The byte completes a Close frame. -/
def completesClose (w : World) (c : UInt8) : Bool :=
  match completionOf w c with
  | some (.complete, f) => f.fin && decide (f.opcode = 8)
  | _ => false

/-- The byte is the second one of a masked frame. -/
def showsMask (w : World) (c : UInt8) : Bool :=
  match completionOf w c with
  | some (.masked, _) => true
  | _ => false

/-- The byte ends the session: the server closes, or masks. -/
def endsSession (w : World) (c : UInt8) : Bool := completesClose w c || showsMask w c

/-- Some byte of those read does. -/
def anyByte (p : World → UInt8 → Bool) : World → Bytes → Bool
  | _, [] => false
  | w, c :: bs => p w c || anyByte p (inData w c).1 bs

/-! ## What `in_data` does -/

/-- Only memory, the frames and the mark of an overrun differ. -/
structure SameButFrames (w w' : World) : Prop where
  slots : w'.slots = w.slots
  calls : w'.calls = w.calls
  ws : ∃ frames, w'.ws = { w.ws with frames := frames }

/-- What `in_data` does with a byte, by the answer of `complete_frame`. -/
inductive ByteStep (w : World) (c : UInt8) : Prop
  | kept (hnot : ∀ r f, completionOf w c = some (r, f) → r = .more)
      (hsame : SameButFrames w (inData w c).1)
  | masked (f : WsFrame) (hread : completionOf w c = some (.masked, f)) (w₁ : World)
      (hsame : SameButFrames w w₁) (heq : (inData w c).1 = { w₁ with
        ws := { w₁.ws with flags := { w₁.ws.flags with clientShouldClose := true } } })
  | complete (f : WsFrame) (prev : List WsFrame) (hread : completionOf w c = some (.complete, f))
      (w₁ : World) (hsame : SameButFrames w w₁) (heq : (inData w c).1 = (frameDone w₁ f prev).1)

section InData

variable {w w₁ w' : World}

protected theorem SameButFrames.refl : SameButFrames w w := ⟨rfl, rfl, _, rfl⟩

theorem SameButFrames.trans (h₁ : SameButFrames w w₁) (h₂ : SameButFrames w₁ w') :
    SameButFrames w w' := by
  obtain ⟨fs₁, hws₁⟩ := h₁.ws
  obtain ⟨fs₂, hws₂⟩ := h₂.ws
  refine ⟨h₂.slots.trans h₁.slots, h₂.calls.trans h₁.calls, fs₂, ?_⟩
  rw [hws₂, hws₁]

theorem same_openFrame (w : World) : SameButFrames w (openFrame w).1 := by
  unfold openFrame
  split
  · exact .refl
  · split
    · exact ⟨rfl, rfl, _, rfl⟩
    · split
      · exact ⟨rfl, rfl, _, rfl⟩
      · exact ⟨rfl, rfl, _, rfl⟩

theorem same_extendFrame (w : World) (cur : WsFrame) (prev : List WsFrame) :
    SameButFrames w (extendFrame w cur prev).1 := by
  unfold extendFrame
  split
  · dsimp only
    split
    · exact ⟨rfl, rfl, _, rfl⟩
    · exact ⟨rfl, rfl, _, rfl⟩
  · exact .refl

theorem byteStep_storeByte {c : UInt8} {cur : WsFrame} {prev : List WsFrame}
    (hcomp : completionOf w c = cur.rawdata.map fun r =>
      completeFrame { cur with
        rawdataIdx := (cur.rawdataIdx + 1) % 4294967296
        rawdata := some (r.1, r.2.set cur.rawdataIdx c) } (r.2.set cur.rawdataIdx c))
    (hin : inData w c = storeByte w₁ c cur prev) (hsame : SameButFrames w w₁) : ByteStep w c := by
  unfold storeByte at hin
  cases hraw : cur.rawdata with
  | none =>
    rw [hraw] at hcomp hin
    refine .kept (fun r f h => ?_) ?_
    · cases hcomp.symm.trans h
    · rw [hin]
      exact hsame
  | some raw =>
    obtain ⟨b, raw⟩ := raw
    rw [hraw, Option.map_some] at hcomp
    rw [hraw] at hin
    dsimp only at hcomp hin
    cases hcf : completeFrame { cur with
        rawdataIdx := (cur.rawdataIdx + 1) % 4294967296
        rawdata := some (b, raw.set cur.rawdataIdx c) } (raw.set cur.rawdataIdx c) with
    | mk r f =>
      rw [hcf] at hcomp hin
      have hframes : ∀ fs, SameButFrames w { w₁ with
          overrun := w₁.overrun || decide (raw.length ≤ cur.rawdataIdx)
          ws := { w₁.ws with frames := fs } } := fun fs =>
        hsame.trans ⟨rfl, rfl, fs, rfl⟩
      cases r with
      | more =>
        refine .kept (fun r f' h => ?_) ?_
        · cases hcomp.symm.trans h
          rfl
        · rw [hin]
          exact hframes _
      | masked =>
        refine .masked f hcomp _ (hframes (f :: prev)) ?_
        rw [hin]
      | complete =>
        refine .complete f prev hcomp _ (hframes (f :: prev)) ?_
        rw [hin]

/-- **`in_data`**, by the answer of `complete_frame`. -/
theorem inData_cases (w : World) (c : UInt8) : ByteStep w c := by
  have hopen := same_openFrame w
  cases hof : openFrame w with
  | mk w₁ ok =>
    rw [hof] at hopen
    cases ok with
    | false =>
      refine .kept (fun r f h => ?_) ?_
      · unfold completionOf at h
        rw [hof] at h
        cases h
      · unfold inData
        rw [hof]
        exact hopen
    | true =>
      cases hfs : w₁.ws.frames with
      | nil =>
        refine .kept (fun r f h => ?_) ?_
        · unfold completionOf at h
          rw [hof] at h
          dsimp only at h
          rw [hfs] at h
          cases h
        · unfold inData
          rw [hof]
          dsimp only
          rw [hfs]
          exact hopen
      | cons cur prev =>
        have hext := same_extendFrame w₁ cur prev
        have hin : inData w c = fillFrame w₁ c cur prev := by
          unfold inData
          rw [hof]
          dsimp only
          rw [hfs]
        cases hef : extendFrame w₁ cur prev with
        | mk w₂ room =>
          rw [hef] at hext
          have hw₂ := hopen.trans hext
          cases room with
          | none =>
            refine .kept (fun r f h => ?_) ?_
            · unfold completionOf at h
              rw [hof] at h
              dsimp only at h
              rw [hfs] at h
              dsimp only at h
              rw [hef] at h
              cases h
            · rw [hin]
              unfold fillFrame
              rw [hef]
              exact hw₂
          | some cur' =>
            have hcomp : completionOf w c = cur'.rawdata.map fun r =>
                completeFrame { cur' with
                  rawdataIdx := (cur'.rawdataIdx + 1) % 4294967296
                  rawdata := some (r.1, r.2.set cur'.rawdataIdx c) }
                  (r.2.set cur'.rawdataIdx c) := by
              unfold completionOf
              rw [hof]
              dsimp only
              rw [hfs]
              dsimp only
              rw [hef]
            have hstore : inData w c = storeByte w₂ c cur' prev := by
              rw [hin]
              unfold fillFrame
              rw [hef]
            exact byteStep_storeByte hcomp hstore hw₂

/-! ## What a byte and a message leave -/

/-- The client but for its frames, its random numbers and what it was told; `b` is whether
`CLIENT_SHOULD_CLOSE` is set. -/
structure Spares (b : Bool) (w w' : World) : Prop where
  urlData : w'.ws.urlData = w.ws.urlData
  nPort : w'.ws.nPort = w.ws.nPort
  curSocketId : w'.ws.curSocketId = w.ws.curSocketId
  flags : w'.ws.flags =
    { w.ws.flags with clientShouldClose := w.ws.flags.clientShouldClose || b }
  onMessage : w'.ws.onMessage = w.ws.onMessage
  state : w'.ws.state = w.ws.state ∨ w'.ws.state = .error
  slots : ∀ i, (w'.slots i).state = (w.slots i).state ∧ (w'.slots i).cb = (w.slots i).cb

theorem Spares.of_same (hs : w'.slots = w.slots) (hws : ∃ frames, w'.ws = { w.ws with
    frames := frames }) : Spares false w w' := by
  obtain ⟨frames, hws⟩ := hws
  refine ⟨?_, ?_, ?_, ?_, ?_, .inl ?_, fun i => by rw [hs]; exact ⟨rfl, rfl⟩⟩
  · rw [hws]
  · rw [hws]
  · rw [hws]
  · rw [hws, Bool.or_false]
  · rw [hws]
  · rw [hws]

protected theorem Spares.refl : Spares false w w := .of_same rfl ⟨_, rfl⟩

theorem Spares.trans {b b' : Bool} (h₁ : Spares b w w₁) (h₂ : Spares b' w₁ w') :
    Spares (b || b') w w' := by
  refine ⟨h₂.urlData.trans h₁.urlData, h₂.nPort.trans h₁.nPort,
    h₂.curSocketId.trans h₁.curSocketId, ?_, h₂.onMessage.trans h₁.onMessage, ?_, fun i => ?_⟩
  · rw [h₂.flags, h₁.flags, Bool.or_assoc]
  · rcases h₂.state with hs | hs
    · rw [hs]
      exact h₁.state
    · exact .inr hs
  · exact ⟨(h₂.slots i).1.trans (h₁.slots i).1, (h₂.slots i).2.trans (h₁.slots i).2⟩

theorem Spares.quiet {b : Bool} (h₁ : Spares b w w₁) (h₂ : Spares false w₁ w') : Spares b w w' := by
  have h := h₁.trans h₂
  rwa [Bool.or_false] at h

theorem SameButFrames.spares (h : SameButFrames w w') : Spares false w w' := .of_same h.slots h.ws

theorem spares_sendError (w : World) (c : Int) : Spares false w (w.sendError c) := by
  unfold World.sendError World.callOnError World.setState
  split <;> exact ⟨rfl, rfl, rfl, by rw [Bool.or_false], rfl, .inr rfl, fun _ => ⟨rfl, rfl⟩⟩

/-- A slot gets other contents, in its state and with its callback. -/
theorem slots_update {slots : Slots} {sid : Fin tcpClientMaxSockets} {s : Slot}
    (hst : s.state = (slots sid).state) (hcb : s.cb = (slots sid).cb)
    (i : Fin tcpClientMaxSockets) :
    (Function.update slots sid s i).state = (slots i).state ∧
      (Function.update slots sid s i).cb = (slots i).cb := by
  by_cases hi : i = sid
  · rw [hi, Function.update_self]
    exact ⟨hst, hcb⟩
  · rw [Function.update_of_ne hi]
    exact ⟨rfl, rfl⟩

theorem slots_tcpClientSend (h : Heap) (slots : Slots) (sid : Fin tcpClientMaxSockets)
    (data : Bytes) (n : Nat) (i : Fin tcpClientMaxSockets) :
    ((tcpClientSend h slots sid data n).2.2 i).state = (slots i).state ∧
      ((tcpClientSend h slots sid data n).2.2 i).cb = (slots i).cb := by
  rcases (tcpClientSend_appends h slots sid data n).2 with hs | ⟨node, -, hs⟩
  · rw [hs]
    exact ⟨rfl, rfl⟩
  · rw [hs]
    exact slots_update (by rfl) (by rfl) i

theorem spares_sendData {n : Nat} (w : World) (block : Block) (built : Option (Buf n)) :
    Spares false w (sendData w block built).2 := by
  have hslots := slots_tcpClientSend w.heap w.slots w.ws.curSocketId (built.getD .clear).bytes n
  unfold sendData
  generalize tcpClientSend w.heap w.slots w.ws.curSocketId (built.getD .clear).bytes n = r
    at hslots ⊢
  dsimp only
  split
  · exact ⟨rfl, rfl, rfl, by rw [Bool.or_false], rfl, .inl rfl, hslots⟩
  · refine Spares.quiet (.quiet ?_ (spares_sendError _ 4)) (.of_same rfl ⟨_, rfl⟩)
    exact ⟨rfl, rfl, rfl, by rw [Bool.or_false], rfl, .inl rfl, hslots⟩

theorem spares_wsClientSend (w : World) (s : Option Bytes) :
    Spares false w (wsClientSend w s).2 := by
  unfold wsClientSend
  split
  · exact spares_sendError w 0
  · split
    · exact spares_sendError w 1
    · split
      · exact spares_sendError w 2
      · dsimp only [World.drawMask]
        split
        · refine Spares.quiet ?_ (spares_sendError _ 4)
          exact .of_same rfl ⟨_, rfl⟩
        · refine Spares.quiet ?_ (spares_sendData _ _ _)
          exact .of_same rfl ⟨_, rfl⟩

theorem spares_dispatchMessage (w : World) (frames : List WsFrame) :
    Spares false w (dispatchMessage w frames).1 := by
  unfold dispatchMessage
  split
  · unfold World.callOnError World.setState
    split <;> exact ⟨rfl, rfl, rfl, by rw [Bool.or_false], rfl, .inr rfl, fun _ => ⟨rfl, rfl⟩⟩
  · dsimp only
    split
    · exact .of_same rfl ⟨_, rfl⟩
    · split
      · exact .of_same rfl ⟨_, rfl⟩
      · exact .of_same rfl ⟨_, rfl⟩

theorem spares_handleOpcode (w : World) (ctl : WsFrame) (mask : Bytes) :
    Spares (decide (ctl.opcode = 8)) w (handleOpcode w ctl mask) := by
  unfold handleOpcode
  split
  · rename_i hop
    rw [decide_eq_true hop]
    dsimp only
    split
    · exact ⟨rfl, rfl, rfl, by rw [Bool.or_true], rfl, .inl rfl, fun _ => ⟨rfl, rfl⟩⟩
    · exact ⟨rfl, rfl, rfl, by rw [Bool.or_true], rfl, .inl rfl,
        slots_tcpClientSend _ _ _ _ _⟩
  · rename_i hop
    rw [decide_eq_false hop]
    exact .refl

theorem spares_resetFrame (w : World) (ctl : WsFrame) (prev : List WsFrame) :
    Spares false w (resetFrame w ctl prev).1 := by
  unfold resetFrame
  split
  · exact .of_same rfl ⟨_, rfl⟩
  · exact .of_same rfl ⟨_, rfl⟩

theorem spares_frameDone (w : World) (cur : WsFrame) (prev : List WsFrame) :
    Spares (cur.fin && decide (cur.opcode = 8)) w (frameDone w cur prev).1 := by
  unfold frameDone
  split
  · rename_i hfin
    rw [hfin, Bool.true_and]
    split
    · refine Spares.quiet ?_ (spares_resetFrame _ cur prev)
      have hdraw : Spares false w w.drawMask.2 := .of_same rfl ⟨_, rfl⟩
      exact hdraw.trans (spares_handleOpcode w.drawMask.2 cur w.drawMask.1)
    · rename_i hcontrol
      have hnot : cur.opcode ≠ 8 := by
        intro h8
        rw [h8] at hcontrol
        exact hcontrol rfl
      rw [decide_eq_false hnot]
      exact (spares_dispatchMessage w (cur :: prev)).quiet (.of_same rfl ⟨_, rfl⟩)
  · rename_i hfin
    rw [Bool.eq_false_iff.mpr hfin, Bool.false_and]
    unfold newFragment
    split
    · exact .of_same rfl ⟨_, rfl⟩
    · split
      · exact .of_same rfl ⟨_, rfl⟩
      · exact .of_same rfl ⟨_, rfl⟩

/-- **A byte** sets `CLIENT_SHOULD_CLOSE` when it ends the session, and leaves the rest. -/
theorem spares_inData (w : World) (c : UInt8) : Spares (endsSession w c) w (inData w c).1 := by
  have hstep := inData_cases w c
  unfold endsSession completesClose showsMask
  cases hstep with
  | kept hnot hsame =>
    cases hread : completionOf w c with
    | none => exact hsame.spares
    | some r =>
      obtain ⟨r, f⟩ := r
      obtain rfl := hnot r f hread
      exact hsame.spares
  | masked f hread w₁ hsame heq =>
    rw [hread, heq]
    have h := hsame.spares
    refine ⟨h.urlData, h.nPort, h.curSocketId, ?_, h.onMessage, h.state, h.slots⟩
    show { w₁.ws.flags with clientShouldClose := true } = _
    rw [h.flags, Bool.false_or, Bool.or_true]
  | complete f prev hread w₁ hsame heq =>
    rw [hread, heq, Bool.or_false]
    exact hsame.spares.trans (spares_frameDone w₁ f prev)

theorem spares_foldl_inData (bs : Bytes) (w : World) :
    Spares (anyByte endsSession w bs) w (bs.foldl (fun w c => (inData w c).1) w) := by
  induction bs generalizing w with
  | nil => exact .refl
  | cons c bs ih => exact (spares_inData w c).trans (ih _)

end InData

end Rastreo.Net
