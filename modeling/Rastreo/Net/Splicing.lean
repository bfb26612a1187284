import Rastreo.Net.Receiver

/-!
# One connection after another

The frame that is being received is kept in the client, and no way out of
`WS_STATE_CONNECTION_ESTABLISHED` gives it up: the bytes of the next connection continue it.

* `Stream`: the bytes read on the current connection, and the messages delivered on it.
* `Clean`: when a handshake is accepted no frame is left over, and no byte is lost for want of
  memory.
* **`told_of_bytes`**: in clean runs the messages are a function of the bytes.
-/

namespace Rastreo.Net

open Rastreo.Lib

/-! ## What a connection delivers -/

/-- The calls of `onMessage` on the way. -/
def World.tells (w w' : World) : List Call := (w'.calls.drop w.calls.length).filter Call.isMessage

/-- Since the last handshake that was accepted: whether somebody listens, the bytes that were read
and the messages that were delivered. -/
structure Stream where
  listens : Bool
  bytes : Bytes
  told : List Call
  deriving DecidableEq, Repr

namespace Stream

/-- After a byte. -/
def byte (w : World) (c : UInt8) (g : Stream) : Stream :=
  { g with bytes := g.bytes ++ [c], told := g.told ++ w.tells (inData w c).1 }

/-- After the bytes of a read. -/
def read : World → Bytes → Stream → Stream
  | _, [], g => g
  | w, c :: bs, g => read (inData w c).1 bs (g.byte w c)

end Stream

/-- A handshake is accepted. -/
def greets (libs : Libs) (w : World) : Event → Bool
  | .wsTask io => accepts libs io w
  | _ => false

/-- The connection after an event. -/
def Stream.after (libs : Libs) (w : World) (e : Event) (g : Stream) : Stream :=
  if greets libs w e then ⟨w.ws.onMessage, [], []⟩
  else
    match reads w e with
    | some (v, bs) => g.read v bs
    | none => g

/-- Before the first connection. -/
def streamInit (grants : Nat → Bool) (rand : Nat → UInt32) : World × Stream :=
  (worldInit grants rand, ⟨false, [], []⟩)

/-- No byte of a frame and no fragment: there is no frame, or one that was emptied after a control
frame. -/
def NoneLeft (frames : List WsFrame) : Prop :=
  frames.length ≤ 1 ∧ ∀ f ∈ frames, f = { WsFrame.zero f.block with rawdata := f.rawdata }

/-- **Nothing is left over** when a handshake is accepted, and every byte gets its memory. -/
def Clean (libs : Libs) (p : World × Stream) (e : Event) : Prop :=
  (greets libs p.1 e = true → NoneLeft p.1.ws.frames) ∧
    ∀ x ∈ reads p.1 e, Along readByte Granted x.1 x.2

instance (frames : List WsFrame) : Decidable (NoneLeft frames) :=
  inferInstanceAs (Decidable (_ ∧ ∀ f ∈ frames, _))

instance (libs : Libs) (p : World × Stream) (e : Event) : Decidable (Clean libs p e) :=
  inferInstanceAs (Decidable ((_ → _) ∧ ∀ x ∈ reads p.1 e, _))

/-! ## A byte -/

/-- It makes no difference whether there is a frame. -/
theorem readyFrames_noneLeft {fs : List WsFrame} (h : NoneLeft fs) :
    readyFrames (fs.map WsFrame.anon) = readyFrames [] := by
  obtain ⟨hlen, hzero⟩ := h
  cases fs with
  | nil => rfl
  | cons f fs =>
    obtain rfl : fs = [] := List.length_eq_zero_iff.mp (Nat.le_zero.mp (Nat.le_of_succ_le_succ hlen))
    have hsz : frameChunkLength % 4294967296 = frameChunkLength := rfl
    have hroom : ¬ frameChunkLength ≤ 0 := by decide
    rw [hzero f List.mem_cons_self]
    simp [readyFrames, openedFrames, roomyFrame, WsFrame.anon, WsFrame.zero, blankChunk, hsz, hroom]

/-- The frames and the messages are those of the bytes. -/
structure Matches (w : World) (g : Stream) : Prop where
  frames : w.readied = (takeBytes (readyFrames []) g.bytes).1
  told : g.told = if g.listens then (takeBytes (readyFrames []) g.bytes).2 else []

section Byte

variable {w w' : World} {g : Stream} {libs : Libs}

theorem isMessage_takeByte (fs : List WsFrame) (c : UInt8) :
    ∀ x ∈ (takeByte fs c).2, x.isMessage = true := by
  have hdone : ∀ (cur : WsFrame) (prev : List WsFrame),
      ∀ x ∈ (frameTaken cur prev).2, x.isMessage = true := by
    intro cur prev x hx
    unfold frameTaken at hx
    split at hx
    · split at hx
      · cases hx
      · obtain rfl := List.mem_singleton.mp hx
        rfl
    · cases hx
  intro x hx
  unfold takeByte byteStored at hx
  split at hx
  · cases hx
  · dsimp only at hx
    split at hx
    · cases hx
    · split at hx
      · cases hx
      · cases hx
      · exact hdone _ _ x hx

/-- What a byte tells the application. -/
theorem tells_inData {c : UInt8} (hgranted : Granted w c) : w.tells (inData w c).1 =
    if w.ws.onMessage then (takeByte w.readied c).2 else [] := by
  unfold World.tells
  rw [(inData_granted hgranted).calls, List.drop_left]
  split
  · exact List.filter_eq_self.mpr (isMessage_takeByte _ c)
  · rfl

theorem Matches.byte {c : UInt8} (hM : Matches w g) (hlistens : w.ws.onMessage = g.listens)
    (hgranted : Granted w c) : Matches (inData w c).1 (g.byte w c) := by
  have hframes := (inData_granted hgranted).frames
  have htells := tells_inData hgranted
  rw [hM.frames] at hframes htells
  rw [hlistens] at htells
  refine ⟨?_, ?_⟩
  · show _ = (takeBytes (readyFrames []) (g.bytes ++ [c])).1
    rw [takeBytes_concat]
    exact hframes
  · show g.told ++ w.tells (inData w c).1 =
      if g.listens then (takeBytes (readyFrames []) (g.bytes ++ [c])).2 else []
    rw [takeBytes_concat, htells, hM.told]
    cases g.listens <;> rfl

theorem Matches.read {bs : Bytes} (hM : Matches w g) (hlistens : w.ws.onMessage = g.listens)
    (hgranted : Along readByte Granted w bs) :
    Matches (bs.foldl (fun w c => (inData w c).1) w) (g.read w bs) ∧
      (g.read w bs).listens = g.listens := by
  induction bs generalizing w g with
  | nil => exact ⟨hM, rfl⟩
  | cons c bs ih =>
    have hstill := (spares_inData w c).onMessage.trans hlistens
    exact ih (hM.byte hlistens hgranted.1) hstill (hgranted.2 _ rfl)

end Byte

/-! ## The rest of the client leaves the frames alone -/

/-- Neither the frames nor the callback change. -/
structure KeepsFrames (w w' : World) : Prop where
  frames : w'.ws.frames = w.ws.frames
  onMessage : w'.ws.onMessage = w.ws.onMessage

section Frames

variable {w w' : World} {g : Stream} {libs : Libs}

theorem keepsFrames_sendError (w : World) (c : Int) : KeepsFrames w (w.sendError c) := by
  unfold World.sendError World.callOnError World.setState
  split <;> exact ⟨rfl, rfl⟩

theorem keepsFrames_wsClientSend (w : World) (s : Option Bytes) :
    KeepsFrames w (wsClientSend w s).2 := by
  unfold wsClientSend
  split
  · exact keepsFrames_sendError w 0
  · split
    · exact keepsFrames_sendError w 1
    · split
      · exact keepsFrames_sendError w 2
      · dsimp only [World.drawMask]
        split
        · obtain ⟨hframes, hon⟩ := keepsFrames_sendError { w with draws := w.draws + 1, heap := _ } 4
          exact ⟨hframes, hon⟩
        · unfold sendData
          dsimp only
          split
          · exact ⟨rfl, rfl⟩
          · obtain ⟨hframes, hon⟩ := keepsFrames_sendError
              { w with draws := w.draws + 1, heap := _, slots := _, overrun := _ } 4
            exact ⟨hframes, hon⟩

theorem keepsFrames_wsClientTask {io : WsIo} (hst : w.ws.state ≠ .connectionEstablished) :
    KeepsFrames w (wsClientTask libs io w) :=
  ⟨(apart_wsClientTask io hst).frames, (apart_wsClientTask io hst).onMessage⟩

theorem keepsFrames_tcpClientTask (io : Fin tcpClientMaxSockets → NetIo) (w : World) :
    KeepsFrames w (tcpClientTask io w) := by
  obtain ⟨sid, q, hws, -⟩ := (reported_tcpClientTask io w).ws
  exact ⟨by rw [hws], by rw [hws]⟩

theorem KeepsFrames.matches (h : KeepsFrames w w') (hM : Matches w g) : Matches w' g := by
  refine ⟨?_, hM.told⟩
  unfold World.readied
  rw [h.frames]
  exact hM.frames

end Frames

/-! ## The run -/

/-- **The invariant**: on a connection nobody changes who listens. -/
structure StreamInv (p : World × Stream) : Prop where
  same : Matches p.1 p.2
  listens : p.1.ws.state = .connectionEstablished → p.1.ws.onMessage = p.2.listens

section Run

variable {w w' : World} {g : Stream} {libs : Libs}

theorem StreamInv.keeps (hI : StreamInv (w, g)) (h : KeepsFrames w w')
    (hst : w'.ws.state = .connectionEstablished → w.ws.state = .connectionEstablished) :
    StreamInv (w', g) :=
  ⟨h.matches hI.same, fun hest => h.onMessage.trans (hI.listens (hst hest))⟩

/-- A pass that reads the connection. -/
theorem streamInv_established {io : WsIo} (hI : StreamInv (w, g))
    (hst : w.ws.state = .connectionEstablished)
    (hgranted : Along readByte Granted (w.read io).2 (w.read io).1) :
    StreamInv (established io w, g.read (w.read io).2 (w.read io).1) := by
  have hlistens := hI.listens hst
  have hread : KeepsFrames w (w.read io).2 := ⟨rfl, rfl⟩
  have hon : ((w.read io).2).ws.onMessage = g.listens := hlistens
  by_cases hne : (w.read io).1 = []
  · rw [established_idle hne, hne]
    split
    · have hsend := keepsFrames_wsClientSend (w.read io).2 (some w.ws.pingStr.text)
      exact ⟨hsend.matches (hread.matches hI.same), fun _ => hsend.onMessage.trans hlistens⟩
    · exact ⟨⟨hI.same.frames, hI.same.told⟩, fun _ => hlistens⟩
  · rw [established_read hne]
    obtain ⟨hsame, hstill⟩ := (hread.matches hI.same).read hon hgranted
    refine ⟨hsame, fun _ => ?_⟩
    rw [(spares_foldl_inData (w.read io).1 (w.read io).2).onMessage, hstill]
    exact hlistens

theorem streamInv_wsClientTask (io : WsIo) (hI : StreamInv (w, g))
    (hC : Clean libs (w, g) (.wsTask io)) :
    StreamInv (wsClientTask libs io w, g.after libs w (.wsTask io)) := by
  unfold Stream.after
  cases hacc : greets libs w (.wsTask io) with
  | true =>
    rw [if_pos rfl]
    have hparse := (of_decide_eq_true hacc).1
    have hnot : w.ws.state ≠ .connectionEstablished := by
      rw [hparse]
      rintro ⟨⟩
    have hkeeps := @keepsFrames_wsClientTask w libs io hnot
    refine ⟨⟨?_, ?_⟩, fun _ => hkeeps.onMessage⟩
    · unfold World.readied
      rw [hkeeps.frames]
      exact readyFrames_noneLeft (hC.1 hacc)
    · show [] = if w.ws.onMessage then _ else _
      exact (ite_self []).symm
  | false =>
    rw [if_neg Bool.false_ne_true]
    by_cases hst : w.ws.state = .connectionEstablished
    · have hreads : reads w (.wsTask io) = some ((w.read io).2, (w.read io).1) := if_pos hst
      have htask : wsClientTask libs io w = established io w :=
        wsClientTask_of_established hst
      rw [hreads, htask]
      exact streamInv_established hI hst (hC.2 _ hreads)
    · have hreads : reads w (.wsTask io) = none := if_neg hst
      rw [hreads]
      refine hI.keeps (keepsFrames_wsClientTask hst) fun hest => ?_
      rcases wsClientTask_established hest with h | h
      · exact h
      · exact absurd ⟨h, hest⟩ (of_decide_eq_false hacc)

theorem streamInv_of_step {e : Event} (hI : StreamInv (w, g)) (hC : Clean libs (w, g) e)
    (hs : step libs w e = some w') : StreamInv (w', g.after libs w e) := by
  cases e with
  | wsTask io =>
    obtain rfl := Option.some.inj hs
    exact streamInv_wsClientTask io hI hC
  | tcpTask io =>
    obtain rfl := Option.some.inj hs
    exact hI.keeps (keepsFrames_tcpClientTask io w) (tcpClientTask_established io)
  | wsOpen url cbs =>
    obtain rfl := Option.some.inj hs
    unfold wsClientOpen
    split
    · split
      · exact hI.keeps ⟨rfl, rfl⟩ id
      · exact ⟨⟨hI.same.frames, hI.same.told⟩, by rintro ⟨⟩⟩
    · exact hI
  | wsSend s =>
    obtain rfl := Option.some.inj hs
    refine hI.keeps (keepsFrames_wsClientSend w s) fun hest => ?_
    rcases (spares_wsClientSend w s).state with h | h
    · exact h.symm.trans hest
    · cases h.symm.trans hest
  | _ =>
    obtain rfl := Option.some.inj hs
    exact hI.keeps ⟨rfl, rfl⟩ id

theorem streamInv_of_run {grants : Nat → Bool} {rand : Nat → UInt32} {es : List Event}
    {p : World × Stream}
    (hC : Along (watch (step libs) (Stream.after libs)) (Clean libs) (streamInit grants rand) es)
    (hr : run (watch (step libs) (Stream.after libs)) (streamInit grants rand) es = some p) :
    StreamInv p := by
  refine @inv_of_run _ _ _ (Clean libs) StreamInv (fun p e q hI hC hs => ?_) _ _ _ ?_ hC hr
  · obtain ⟨hs, hg⟩ := watch_eq_some.mp hs
    have hinv := streamInv_of_step hI hC hs
    rwa [← hg] at hinv
  · exact ⟨⟨rfl, rfl⟩, by rintro ⟨⟩⟩

end Run

/-- **Whatever came before**, the bytes of a connection deliver the same messages. -/
theorem told_of_bytes {libs₁ libs₂ : Libs} {grants₁ grants₂ : Nat → Bool}
    {rand₁ rand₂ : Nat → UInt32} {es₁ es₂ : List Event} {p₁ p₂ : World × Stream}
    (hC₁ : Along (watch (step libs₁) (Stream.after libs₁)) (Clean libs₁)
      (streamInit grants₁ rand₁) es₁)
    (hr₁ : run (watch (step libs₁) (Stream.after libs₁)) (streamInit grants₁ rand₁) es₁ = some p₁)
    (hC₂ : Along (watch (step libs₂) (Stream.after libs₂)) (Clean libs₂)
      (streamInit grants₂ rand₂) es₂)
    (hr₂ : run (watch (step libs₂) (Stream.after libs₂)) (streamInit grants₂ rand₂) es₂ = some p₂)
    (hlistens : p₁.2.listens = p₂.2.listens) (hbytes : p₁.2.bytes = p₂.2.bytes) :
    p₁.2.told = p₂.2.told := by
  rw [(streamInv_of_run hC₁ hr₁).same.told, (streamInv_of_run hC₂ hr₂).same.told, hlistens, hbytes]


/-! ## Two histories -/

/-- `rand ()` gives the sample nonce each time. -/
def steadyRand (n : Nat) : UInt32 := sampleRand (n % 4)

/-- The connection is lost, and after half a minute another one is established. -/
def reestablished : List Event :=
  let look : Event := .wsTask ⟨0, 2047, []⟩
  let pass : Event := .tcpTask fun _ => readyIo
  [.tcpTask fun _ => lostIo, look, .wsTask ⟨3100000000, 2047, []⟩, look, look, pass, pass, pass,
    look, .receive 1 (answerHead (ascii "upgrade")), look, look]

/-- The bytes of the second connection, behind some of the first. -/
def twice (before bytes : Bytes) : List Event :=
  heard before ++ reestablished ++ [.receive 1 bytes, .wsTask ⟨0, 2047, []⟩]

/-- A history ends with this on the connection. -/
def Ends (es : List Event) (g : Stream) : Prop :=
  ∃ p, run (watch (step (answering (ascii "upgrade"))) (Stream.after (answering (ascii "upgrade"))))
    (streamInit (fun _ => true) steadyRand) es = some p ∧ p.2 = g

theorem ends_heard : Ends (heard hiBytes) ⟨true, hiBytes, [.onMessage 1 (ascii "hi") 2]⟩ :=
  Option.map_eq_some_iff.mp (by decide +kernel)

/-- "hi" on the first connection, and on a second one after a whole message. -/
theorem told_of_bytes_hi : ∃ p₁ p₂ : World × Stream,
    run (watch (step (answering (ascii "upgrade"))) (Stream.after (answering (ascii "upgrade"))))
      (streamInit (fun _ => true) steadyRand) (heard hiBytes) = some p₁ ∧
    run (watch (step (answering (ascii "upgrade"))) (Stream.after (answering (ascii "upgrade"))))
      (streamInit (fun _ => true) steadyRand) (twice hiBytes hiBytes) = some p₂ ∧
    p₁.2.told = p₂.2.told := by
  obtain ⟨p₁, hr₁, hp₁⟩ := ends_heard
  have hends : Ends (twice hiBytes hiBytes) ⟨true, hiBytes, [.onMessage 1 (ascii "hi") 2]⟩ :=
    Option.map_eq_some_iff.mp (by decide +kernel)
  obtain ⟨p₂, hr₂, hp₂⟩ := hends
  exact ⟨p₁, p₂, hr₁, hr₂, told_of_bytes (by decide +kernel) hr₁ (by decide +kernel) hr₂
    (by rw [hp₁, hp₂]) (by rw [hp₁, hp₂])⟩

/-- The first connection ends in the middle of a frame, and "hi" is taken for the rest of it. -/
theorem not_told_of_bytes : ¬ ∀ (es₁ es₂ : List Event) (p₁ p₂ : World × Stream),
    run (watch (step (answering (ascii "upgrade"))) (Stream.after (answering (ascii "upgrade"))))
      (streamInit (fun _ => true) steadyRand) es₁ = some p₁ →
    run (watch (step (answering (ascii "upgrade"))) (Stream.after (answering (ascii "upgrade"))))
      (streamInit (fun _ => true) steadyRand) es₂ = some p₂ →
    p₁.2.listens = p₂.2.listens → p₁.2.bytes = p₂.2.bytes → p₁.2.told = p₂.2.told := by
  intro hall
  obtain ⟨p₁, hr₁, hp₁⟩ := ends_heard
  have hends : Ends (twice [0x81, 5, 104] hiBytes)
      ⟨true, hiBytes, [.onMessage 1 ([104] ++ hiBytes) 5]⟩ :=
    Option.map_eq_some_iff.mp (by decide +kernel)
  obtain ⟨p₂, hr₂, hp₂⟩ := hends
  have htold := hall _ _ p₁ p₂ hr₁ hr₂ (by rw [hp₁, hp₂]) (by rw [hp₁, hp₂])
  rw [hp₁, hp₂] at htold
  revert htold
  decide

end Rastreo.Net
