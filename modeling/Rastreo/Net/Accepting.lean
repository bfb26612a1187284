import Rastreo.Net.Handshake

/-!
# When a connection is established

`Valid`: the response on the connection accepts the handshake, as RFC 6455 has it. `Handshakes` says
of a step that it enters `WS_STATE_CONNECTION_ESTABLISHED` with a valid response only, and that
with one it goes on. `Legible` is when a step does: the marks set on an earlier connection are shown
on this one too, every header is taken for what it is, and the head fits in `recv_buf`.

* **`handshakes_of_legible`**: every run whose steps are legible keeps to the rule.
-/

namespace Rastreo.Net

open Rastreo.Lib

/-- What the client relies on: the parser reads no further than the end of the head, a blank line
is no response, and a hash has 20 bytes. -/
structure Libs.Correct (libs : Libs) : Prop where
  head : ∀ text n, headEnd? text = some n →
    libs.phrParseResponse text = libs.phrParseResponse (text.take n)
  blank : libs.phrParseResponse [13, 10, 13, 10] = none
  sha1_length : ∀ t, (libs.sha1 t).length = 20

/-- The response on the connection. -/
def World.response? (libs : Libs) (w : World) : Option HttpResponse :=
  (headEnd? w.socket.arrived).bind fun n => libs.phrParseResponse (w.socket.arrived.take n)

/-- The key the response must show. -/
def World.accepting (libs : Libs) (w : World) : Bytes := acceptKey libs w.ws.webSocketKey.text

/-- **The response on the connection accepts the handshake.** -/
def Valid (libs : Libs) (w : World) : Prop := ∃ r ∈ w.response? libs, r.Accepts (w.accepting libs)

instance (libs : Libs) (w : World) : Decidable (Valid libs w) := by
  unfold Valid
  infer_instance

/-- The step keeps to the rule: established with a valid response, and only then. -/
structure Handshakes (libs : Libs) (w : World) (e : Event) : Prop where
  entered : ∀ w', step libs w e = some w' → w'.ws.state = .connectionEstablished →
    w.ws.state = .connectionEstablished ∨
      w.ws.state = .waitHandshakeResponseParse ∧ Valid libs w
  found : ∀ io, e = .wsTask io → w.ws.state = .waitHandshakeResponse →
    w.socket.state = .connectionStablished → Valid libs w →
    (∀ n ∈ headEnd? w.socket.arrived, n ≤ io.limit) →
    ∃ w', step libs w e = some w' ∧ w'.ws.state = .waitHandshakeResponseParse
  admitted : ∀ io, e = .wsTask io → w.ws.state = .waitHandshakeResponseParse → Valid libs w →
    ∃ w', step libs w e = some w' ∧ w'.ws.state = .connectionEstablished

/-- The head is where the client looks for it: in `recv_buf`, and with no NUL before its end. -/
def Fits (w : World) : Prop :=
  ∀ n ∈ headEnd? w.socket.arrived, n < wsReceiveBuffer ∧ 0 ∉ w.socket.arrived.take n

instance (w : World) : Decidable (Fits w) := by
  unfold Fits
  infer_instance

/-- The marks that are set are shown on this connection. -/
def Earned (libs : Libs) (w : World) : Prop :=
  ∀ m, w.ws.flags.mark m = true → ∃ r ∈ w.response? libs, r.Shows (w.accepting libs) m

instance (libs : Libs) (w : World) : Decidable (Earned libs w) := by
  unfold Earned
  infer_instance

/-- Every header of a response with status 101 is taken for what it is. -/
def Plain (libs : Libs) (stack : Bytes) (w : World) : Prop :=
  ∀ r ∈ w.response? libs, r.status = 101 → ∀ h ∈ r.headers, ∀ m : Mark,
    m.Takes (w.accepting libs ++ stack) h ↔ m.Has (w.accepting libs) h

instance (libs : Libs) (stack : Bytes) (w : World) : Decidable (Plain libs stack w) := by
  unfold Plain
  infer_instance

/-- The client can read the response. -/
def Legible (libs : Libs) (w : World) : Event → Prop
  | .wsTask io =>
    (w.ws.state = .waitHandshakeResponse → Valid libs w → Fits w) ∧
      (w.ws.state = .waitHandshakeResponseParse → Earned libs w ∧ Plain libs io.stack w)
  | _ => True

instance (libs : Libs) (w : World) : (e : Event) → Decidable (Legible libs w e)
  | .wsTask io => by unfold Legible; infer_instance
  | .tcpTask _ | .receive _ _ | .wsOpen _ _ | .wsSend _ | .wsSetPing _ _ | .wsClose => .isTrue trivial

section Legible

variable {libs : Libs} {w w' : World}

/-! ## Judging the response -/

theorem length_key (hI : HandshakeInv w) : w.ws.webSocketKey.text.length ≤ 219 := by
  have htext : w.ws.webSocketKey.text = cstr (w.ws.webSocketKey.bytes.take 24) := by
    have hbytes := List.take_append_drop 24 w.ws.webSocketKey.bytes
    rw [hI.key] at hbytes
    rw [Buf.text, ← hbytes, Buf.cstr_append_replicate, hbytes]
  rw [htext]
  calc (cstr (w.ws.webSocketKey.bytes.take 24)).length
    _ ≤ (w.ws.webSocketKey.bytes.take 24).length := (List.takeWhile_sublist _).length_le
    _ ≤ 24 := by rw [List.length_take]; omega
    _ ≤ 219 := by omega

/-- What is judged is the response on the connection. -/
theorem response_judged (hlibs : libs.Correct) (hI : HandshakeInv w)
    (hst : w.ws.state = .waitHandshakeResponseParse) :
    w.response? libs = libs.phrParseResponse w.ws.recvBuf.text := by
  have hphase := hI.phase
  rw [hst] at hphase
  obtain ⟨-, hpeek, n, hend⟩ := hphase
  have hpre := text_arrived hpeek
  have harr := headEnd?_longer hpre hend
  have htake : w.socket.arrived.take n = w.ws.recvBuf.text.take n := by
    obtain ⟨u, hu⟩ := hpre
    rw [← hu, List.take_append_of_le_length (headEnd?_le hend).2]
  rw [World.response?, harr, Option.bind_some, htake, ← hlibs.head _ _ hend]

theorem parse_established (io : WsIo) :
    (parseHandshakeResponse libs io w).ws.state = .connectionEstablished ↔
      ∀ m, (handshakeResponseParse libs io.stack w.ws.webSocketKey.text w.ws.recvBuf.text
        w.ws.flags).mark m = true := by
  unfold parseHandshakeResponse
  generalize handshakeResponseParse libs io.stack w.ws.webSocketKey.text w.ws.recvBuf.text
    w.ws.flags = flags
  dsimp only
  constructor
  · intro h
    split at h
    · rename_i hall
      rw [Bool.and_eq_true, Bool.and_eq_true] at hall
      intro m
      cases m with
      | upgrade => exact hall.1.1
      | connection => exact hall.1.2
      | accept => exact hall.2
    · cases h
  · intro h
    have hall : (flags.requestHasUpgrade && flags.requestHasConnection &&
        flags.requestValidAccept) = true := by
      rw [Bool.and_eq_true, Bool.and_eq_true]
      exact ⟨⟨h .upgrade, h .connection⟩, h .accept⟩
    rw [if_pos hall]

/-- **The judgement** of a response that can be read. -/
theorem established_iff_valid (hlibs : libs.Correct) (hI : HandshakeInv w)
    (hst : w.ws.state = .waitHandshakeResponseParse) {io : WsIo} (hearned : Earned libs w)
    (hplain : Plain libs io.stack w) :
    (parseHandshakeResponse libs io w).ws.state = .connectionEstablished ↔ Valid libs w := by
  have hkey : perfomExpectedKey libs w.ws.webSocketKey.text = w.accepting libs :=
    perfomExpectedKey_eq hlibs.sha1_length (length_key hI)
  rw [parse_established]
  have hmark : ∀ m, (handshakeResponseParse libs io.stack w.ws.webSocketKey.text
      w.ws.recvBuf.text w.ws.flags).mark m = true ↔
      ∃ r ∈ w.response? libs, r.Shows (w.accepting libs) m := by
    intro m
    rw [mark_handshakeResponseParse, hkey, ← response_judged hlibs hI hst]
    constructor
    · rintro (hold | ⟨r, hr, hstatus, h, hh, htakes⟩)
      · exact hearned m hold
      · exact ⟨r, hr, hstatus, h, hh, (hplain r hr hstatus h hh m).mp htakes⟩
    · rintro ⟨r, hr, hstatus, h, hh, hhas⟩
      exact .inr ⟨r, hr, hstatus, h, hh, (hplain r hr hstatus h hh m).mpr hhas⟩
  constructor
  · intro h
    obtain ⟨r, hr, -⟩ := (hmark .upgrade).mp (h .upgrade)
    refine ⟨r, hr, fun m => ?_⟩
    obtain ⟨r', hr', hshows⟩ := (hmark m).mp (h m)
    obtain rfl := Option.mem_unique hr hr'
    exact hshows
  · rintro ⟨r, hr, hacc⟩ m
    exact (hmark m).mpr ⟨r, hr, hacc m⟩

/-! ## Finding it -/

theorem received_starts (c : Client) {bs : Bytes} (h : bs.length ≤ wsReceiveBuffer) :
    bs <+: (c.received bs).recvBuf.bytes := by
  obtain ⟨b, hb⟩ := @Buf.store_isSome _ c.recvBuf 0 bs ((Nat.zero_add _).trans_le h)
  have hbuf : (c.received bs).recvBuf = b := by
    unfold Client.received
    rw [hb]
    rfl
  rw [hbuf, Buf.text_of_store_zero hb]
  exact List.prefix_append _ _

/-- **A head that fits is found** by the first look that gets all of it, and a fifth byte. -/
theorem found_of_head (hI : HandshakeInv w) (hst : w.ws.state = .waitHandshakeResponse)
    (hsock : w.socket.state = .connectionStablished) {n : Nat}
    (hend : headEnd? w.socket.arrived = some n) (hn : n < wsReceiveBuffer)
    (hnul : 0 ∉ w.socket.arrived.take n) {io : WsIo} (hlimit : n ≤ io.limit) (hfour : 4 < io.limit)
    (hmore : 4 < w.socket.arrived.length) :
    (waitHandshakeResponse io w).ws.state = .waitHandshakeResponseParse := by
  have hphase := hI.phase
  rw [hst] at hphase
  obtain ⟨-, hunread, hpeek⟩ := hphase
  have hnle := headEnd?_le hend
  have hpeeks : w.peeks io.limit = min io.limit (wsReceiveBuffer - 1) := if_pos hsock
  obtain ⟨w₁, bs, hbs, hw₁, -, hcases⟩ := waitHandshakeResponse_spec io hunread hpeek
  rw [hpeeks] at hbs
  have hhead : headEnd? (w.socket.arrived.take n) = some n :=
    headEnd?_shorter (List.take_prefix _ _) (by rw [List.length_take]; omega) hend
  have hlen : bs.length = min (min io.limit (wsReceiveBuffer - 1)) w.socket.arrived.length := by
    rw [hbs, List.length_take]
  have htext : w.socket.arrived.take n <+: w₁.ws.recvBuf.text := by
    obtain ⟨t, ht⟩ := @received_starts w.ws bs (by omega)
    obtain ⟨u, hu⟩ : w.socket.arrived.take n <+: bs := by
      rw [hbs]
      exact List.take_prefix_take_left (by omega)
    rw [hw₁]
    show _ <+: cstr (w.ws.received _).recvBuf.bytes
    rw [← ht, ← hu, List.append_assoc, cstr, List.takeWhile_append_of_pos]
    · exact List.prefix_append _ _
    · intro b hb
      exact decide_eq_true fun h => hnul (h ▸ hb)
  have hfound := headEnd?_longer htext hhead
  rcases hcases with ⟨-, hshort | hnone⟩ | ⟨n', -, -, heq⟩
  · exact absurd hshort (by rw [hlen]; show ¬ min (min io.limit 2047) _ ≤ 4; omega)
  · cases hnone.symm.trans hfound
  · rw [heq]
    rfl

/-- **A valid response that fits is found** by the first look that gets all of its head. -/
theorem found_of_fits (hlibs : libs.Correct) (hI : HandshakeInv w)
    (hst : w.ws.state = .waitHandshakeResponse) (hsock : w.socket.state = .connectionStablished)
    (hvalid : Valid libs w) (hfits : Fits w) {io : WsIo}
    (hlimit : ∀ n ∈ headEnd? w.socket.arrived, n ≤ io.limit) :
    (waitHandshakeResponse io w).ws.state = .waitHandshakeResponseParse := by
  obtain ⟨r, hr, -⟩ := hvalid
  obtain ⟨n, hend, hparse⟩ := Option.bind_eq_some_iff.mp hr
  obtain ⟨hn, hnul⟩ := hfits n hend
  have hnlimit := hlimit n hend
  have hnle := headEnd?_le hend
  -- a blank line alone is no response
  have hfour : 4 < n := by
    rcases Nat.lt_or_eq_of_le hnle.1 with h | rfl
    · exact h
    · obtain ⟨i, hi, hends, -⟩ := headEnd?_eq_some.mp hend
      obtain rfl : i = 0 := by omega
      have hblank : w.socket.arrived.take 4 = [13, 10, 13, 10] := hends
      rw [hblank, hlibs.blank] at hparse
      cases hparse
  exact found_of_head hI hst hsock hend hn hnul hnlimit (by omega) (by omega)

/-! ## Entering and leaving -/

theorem sockCb_established (sid : Fin tcpClientMaxSockets) (es : List ClientEvent) {c : Client}
    (h : (es.foldl (sockCb sid) c).state = .connectionEstablished) :
    c.state = .connectionEstablished := by
  induction es generalizing c with
  | nil => exact h
  | cons e es ih =>
    have hstep := ih h
    cases e with
    | tx => exact hstep
    | rx => exact hstep
    | _ => cases hstep

theorem tcpClientTask_established (io : Fin tcpClientMaxSockets → NetIo)
    (h : (tcpClientTask io w).ws.state = .connectionEstablished) :
    w.ws.state = .connectionEstablished := by
  have hfold : ∀ (sids : List (Fin tcpClientMaxSockets)) (w : World),
      (sids.foldl (fun w sid => tcpTaskSlot (io sid) w sid) w).ws.state = .connectionEstablished →
      w.ws.state = .connectionEstablished := by
    intro sids
    induction sids with
    | nil => intro w h; exact h
    | cons sid sids ih =>
      intro w h
      have hone := ih _ h
      unfold tcpTaskSlot at hone
      dsimp only at hone
      split at hone
      · exact sockCb_established _ _ hone
      · exact hone
  exact hfold _ w h

/-- Only a judgement establishes a connection. -/
theorem wsClientTask_established {io : WsIo}
    (h : (wsClientTask libs io w).ws.state = .connectionEstablished) :
    w.ws.state = .connectionEstablished ∨ w.ws.state = .waitHandshakeResponseParse := by
  unfold wsClientTask at h
  split at h
  · cases h
  · exact .inl h
  · exact .inl h
  · exact .inl h
  · split at h
    · exact .inl h
    · unfold manageUrl at h
      dsimp only at h
      split at h
      · cases h
      · split at h <;> cases h
  · split at h
    · exact .inl h
    · split at h <;> cases h
  · split at h
    · exact .inl h
    · rename_i url _
      obtain ⟨key, buf, q, hws, hq⟩ := initHandshake_ws w url
      rw [hws] at h
      rcases hq with rfl | rfl <;> cases h
  · rename_i hst
    unfold waitHandshakeResponse at h
    dsimp only at h
    split at h
    · split at h
      · cases hst.symm.trans h
      · cases h
    · cases hst.symm.trans h
  · rename_i hst
    exact .inr hst
  · rename_i hst
    exact .inl hst
  · cases h
  · dsimp only at h
    split at h <;> cases h
  · rename_i hst
    split at h
    · cases h
    · exact .inl h
  · cases h

theorem Aside.established (ha : Aside w w') (h : w'.ws.state = .connectionEstablished) :
    w.ws.state = .connectionEstablished := by
  rcases ha.state with hst | hst
  · exact hst.symm.trans h
  · cases hst.symm.trans h

theorem handshakes_of_inv (hlibs : libs.Correct) {e : Event} (hI : HandshakeInv w)
    (hlegible : Legible libs w e) : Handshakes libs w e := by
  refine ⟨fun w' hs hest => ?_, ?_, ?_⟩
  · cases e with
    | tcpTask io =>
      obtain rfl := Option.some.inj hs
      exact .inl (tcpClientTask_established io hest)
    | wsTask io =>
      obtain rfl := Option.some.inj hs
      rcases wsClientTask_established hest with hst | hst
      · exact .inl hst
      · obtain ⟨hearned, hplain⟩ := hlegible.2 hst
        have htask : wsClientTask libs io w = parseHandshakeResponse libs io w :=
          wsClientTask_of_parsing hst
        rw [htask] at hest
        exact .inr ⟨hst, (established_iff_valid hlibs hI hst hearned hplain).mp hest⟩
    | receive sid bs =>
      obtain rfl := Option.some.inj hs
      exact .inl hest
    | wsOpen url cbs =>
      obtain rfl := Option.some.inj hs
      unfold wsClientOpen at hest
      split at hest
      · split at hest
        · exact .inl hest
        · cases hest
      · exact .inl hest
    | wsSend s =>
      obtain rfl := Option.some.inj hs
      exact .inl ((aside_wsClientSend w s).established hest)
    | wsSetPing strPing pingInterval =>
      obtain rfl := Option.some.inj hs
      exact .inl hest
    | wsClose =>
      obtain rfl := Option.some.inj hs
      exact .inl hest
  · rintro io rfl hst hsock hvalid hlimit
    refine ⟨_, rfl, ?_⟩
    have htask : wsClientTask libs io w = waitHandshakeResponse io w :=
      wsClientTask_of_waiting hst
    rw [htask]
    exact found_of_fits hlibs hI hst hsock hvalid (hlegible.1 hst hvalid) hlimit
  · rintro io rfl hst hvalid
    refine ⟨_, rfl, ?_⟩
    have htask : wsClientTask libs io w = parseHandshakeResponse libs io w :=
      wsClientTask_of_parsing hst
    obtain ⟨hearned, hplain⟩ := hlegible.2 hst
    rw [htask]
    exact (established_iff_valid hlibs hI hst hearned hplain).mpr hvalid

/-- **Every connection of a legible run** is established exactly by a valid response. -/
theorem handshakes_of_legible (hlibs : libs.Correct) (grants : Nat → Bool) (rand : Nat → UInt32)
    {es : List Event} (h : Along (step libs) (Legible libs) (worldInit grants rand) es) :
    Along (step libs) (Handshakes libs) (worldInit grants rand) es :=
  along_of_inv (fun _ _ _ hI _ hs => handshakeInv_of_step hI hs)
    (fun _ _ hI hlegible => handshakes_of_inv hlibs hI hlegible)
    (handshakeInv_worldInit grants rand) h

end Legible

/-! ## Two answers -/

/-- A parser that knows one head, and a hash that knows the text of RFC 6455. -/
def knowing (head : Bytes) (r : HttpResponse) : Libs where
  phrParseResponse text :=
    (headEnd? text).bind fun n => if text.take n = head then some r else none
  sha1 t :=
    if t = ascii "dGhlIHNhbXBsZSBub25jZQ==258EAFA5-E914-47DA-95CA-C5AB0DC85B11" then
      [0xb3, 0x7a, 0x4f, 0x2c, 0xc0, 0x62, 0x4f, 0x16, 0x90, 0xf6, 0x46, 0x06, 0xcf, 0x38, 0x59,
        0x45, 0xb2, 0xbe, 0xc4, 0xea]
    else List.replicate 20 0

theorem correct_knowing (head : Bytes) (r : HttpResponse) (hhead : head ≠ [13, 10, 13, 10]) :
    (knowing head r).Correct where
  head text n hend := by
    have hle := headEnd?_le hend
    have hshort : headEnd? (text.take n) = some n :=
      headEnd?_shorter (List.take_prefix _ _) (by rw [List.length_take]; omega) hend
    show (headEnd? text).bind _ = (headEnd? (text.take n)).bind _
    rw [hend, hshort, Option.bind_some, Option.bind_some, List.take_take, Nat.min_self]
  blank := by
    have hend : headEnd? [13, 10, 13, 10] = some 4 := by decide
    unfold knowing
    dsimp only
    rw [hend, Option.bind_some]
    exact if_neg (Ne.symm hhead)
  sha1_length t := by
    show (if _ then _ else _ : Bytes).length = 20
    split <;> rfl

/-- `rand ()` gives "the sample nonce". -/
def sampleRand : Nat → UInt32
  | 0 => 0x20656874
  | 1 => 0x706d6173
  | 2 => 0x6e20656c
  | _ => 0x65636e6f

/-- An answer whose `Connection` header is `value`. -/
def answer (value : Bytes) : HttpResponse :=
  ⟨101, [(ascii "Upgrade", ascii "websocket"), (ascii "Connection", value),
    (ascii "Sec-WebSocket-Accept", ascii "s3pPLMBiTxaQ9kYGzzhZRbK+xOo=")]⟩

/-- Its head. -/
def answerHead (value : Bytes) : Bytes :=
  ascii "HTTP/1.1 101 Switching Protocols\r\n" ++
    ((answer value).headers.flatMap fun h => h.1 ++ ascii ": " ++ h.2 ++ ascii "\r\n") ++
    ascii "\r\n"

/-- The parser knows it. -/
def answering (value : Bytes) : Libs := knowing (answerHead value) (answer value)

/-- The network stack when the host is an address, and connects at once. -/
def readyIo : NetIo := ⟨0, dnsResNameIsIpaddress, 0, 0, 1, true, true, false, true, false, false, 0⟩

/-- From the start to the answer in `recv_buf`. -/
def opening (value : Bytes) : List Event :=
  let look : Event := .wsTask ⟨0, 2047, []⟩
  let pass : Event := .tcpTask fun _ => readyIo
  [look, .wsOpen (some ⟨ascii "ws", ascii "10.0.0.1", none, none⟩) ⟨false, false, false, false⟩,
    look, look, pass, pass, pass, look, .receive 0 (answerHead value), look]

theorem handshakes_lowercase : Along (step (answering (ascii "upgrade")))
    (Handshakes (answering (ascii "upgrade"))) (worldInit (fun _ => true) sampleRand)
    (opening (ascii "upgrade") ++ [.wsTask ⟨0, 2047, []⟩]) :=
  handshakes_of_legible (correct_knowing _ _ (by decide +kernel)) _ _ (by decide +kernel)

/-- A response that says `Connection: Upgrade` is valid, and refused. -/
theorem not_handshakes_capital : (answering (ascii "Upgrade")).Correct ∧
    ¬ Along (step (answering (ascii "Upgrade"))) (Handshakes (answering (ascii "Upgrade")))
      (worldInit (fun _ => true) sampleRand)
      (opening (ascii "Upgrade") ++ [.wsTask ⟨0, 2047, []⟩]) := by
  refine ⟨correct_knowing _ _ (by decide +kernel), fun hall => ?_⟩
  have hjudged : (run (step (answering (ascii "Upgrade"))) (worldInit (fun _ => true) sampleRand)
      (opening (ascii "Upgrade"))).map (fun w => (w.ws.state,
        decide (Valid (answering (ascii "Upgrade")) w),
        (wsClientTask (answering (ascii "Upgrade")) ⟨0, 2047, []⟩ w).ws.state)) =
      some (.waitHandshakeResponseParse, true, .error) := by decide +kernel
  obtain ⟨w, hrun, hw⟩ := Option.map_eq_some_iff.mp hjudged
  rw [Prod.mk.injEq, Prod.mk.injEq] at hw
  obtain ⟨hst, hvalid, hnext⟩ := hw
  obtain ⟨w', hs, hest⟩ := (along_of_append hall hrun).1.admitted _ rfl hst
    (of_decide_eq_true hvalid)
  obtain rfl := Option.some.inj hs
  cases hnext.symm.trans hest

end Rastreo.Net
