import Rastreo.Net.WsClient

/-!
# What `ws_client_send` puts in the transmit queue

`ws_client_send` builds a whole frame, also the form with a 64-bit length, and hands it to
`tcp_client_send`, whose length parameter has 16 bits. A frame of 65536 bytes or more reaches the
queue cut to its length modulo 65536, or not at all when that is zero, and the call still returns 0.

* `built_frame`: the frame it builds is the RFC 6455 text frame of the string, for every length.
* `Queues`: after a call that returns 0 exactly that frame was appended to the queue.
* `queues_iff`: that is so exactly for strings of at most 65527 bytes, or when memory is denied.
* `not_queues`: a string of 65528 bytes is accepted and nothing is queued.
-/

namespace Rastreo.Net

open Rastreo.Lib

/-! ## The frame -/

/-- The key of the next call. -/
def World.maskKey (w : World) : MaskKey :=
  ⟨leBytes (w.rand w.draws), by rw [leBytes, List.length_reverse, length_be]⟩

/-- The FIN text frame of a string. -/
def textFrame (key : MaskKey) (s : Bytes) : Frame := ⟨true, 1, some key, s⟩

/-- The bytes `ws_client_send` is to send. -/
def textBytes (key : MaskKey) (s : Bytes) : Bytes :=
  (textFrame key s).encode (.minimal s.length)

theorem length_textBytes (key : MaskKey) (s : Bytes) :
    (textBytes key s).length = (frameLayout s.length).1 := by
  have hlen : ∀ form, ((textFrame key s).encode form).length = 6 + form.extra + s.length :=
    fun form => by
      rw [Frame.encode, Frame.header, Frame.body, textFrame, List.length_append,
        List.length_cons, List.length_cons, length_be, List.length_append, length_applyMask,
        key.length_eq]
      dsimp only
      omega
  rw [textBytes, hlen, frameLayout, LengthForm.minimal]
  by_cases h₁ : s.length < 126
  · rw [if_pos h₁, if_pos (show s.length ≤ 125 by omega), LengthForm.extra]
  · rw [if_neg h₁, if_neg (show ¬ s.length ≤ 125 by omega)]
    by_cases h₂ : s.length < 65536
    · rw [if_pos h₂, if_pos (show s.length ≤ 65535 by omega), LengthForm.extra]
    · rw [if_neg h₂, if_neg (show ¬ s.length ≤ 65535 by omega), LengthForm.extra]

theorem or_mask_bit {n : Nat} (h : n < 128) : n ||| 0x80 = 128 + n := by
  revert n
  decide

/-- The stores of `ws_client_send`, for a header with `ext` bytes of length. -/
theorem buildFrame_eq {n small : Nat} {ext s : Bytes} {key : MaskKey}
    (hsmall : small < 128) (hn : n = 2 + ext.length + 4 + s.length)
    (hext : ∀ d : Buf n, storeLength d small s.length =
      if ext = [] then some d else d.store 2 ext) :
    ∃ b, buildFrame n small (6 + ext.length) key.bytes s = some b ∧
      b.bytes = 0x81 :: UInt8.ofNat (128 + small) :: ext ++ key.bytes ++ applyMask key s := by
  have hkey := key.length_eq
  obtain ⟨b₁, h₁, e₁⟩ := @Buf.store_append n .clear [] (List.replicate n 0) [0x81] 0
    rfl rfl (by rw [List.length_replicate, List.length_singleton]; omega)
  obtain ⟨b₂, h₂, e₂⟩ := @Buf.store_append n b₁ [0x81] (List.replicate (n - 1) 0)
    [UInt8.ofNat (small ||| 0x80)] 1 (by rw [e₁, List.drop_replicate]; rfl) rfl
    (by rw [List.length_replicate, List.length_singleton]; omega)
  rw [List.drop_replicate, or_mask_bit hsmall] at e₂
  -- the extended length
  obtain ⟨b₃, h₃, e₃⟩ : ∃ b₃, (if ext = [] then some b₂ else b₂.store 2 ext) = some b₃ ∧
      b₃.bytes = [0x81] ++ [UInt8.ofNat (128 + small)] ++ ext ++
        List.replicate (4 + s.length) 0 := by
    by_cases hnil : ext = []
    · refine ⟨b₂, if_pos hnil, ?_⟩
      subst hnil
      rw [e₂, List.append_nil, hn, List.length_nil, List.length_singleton]
      congr 2
      omega
    · obtain ⟨b₃, h₃, e₃⟩ := @Buf.store_append n b₂ _ _ ext 2 e₂ rfl
        (by rw [List.length_replicate, List.length_singleton]; omega)
      refine ⟨b₃, (if_neg hnil).trans h₃, ?_⟩
      rw [e₃, List.drop_replicate, hn, List.length_singleton]
      congr 2
      omega
  obtain ⟨b₄, h₄, e₄⟩ := @Buf.store_append n b₃ _ _ key.bytes (2 + ext.length) e₃
    (by simp only [List.length_append, List.length_singleton])
    (by rw [List.length_replicate]; omega)
  rw [List.drop_replicate, hkey, Nat.add_sub_cancel_left] at e₄
  obtain ⟨b₅, h₅, e₅⟩ := @Buf.store_append n b₄ _ _ s (6 + ext.length) e₄
    (by simp only [List.length_append, List.length_singleton, hkey]; omega)
    (by rw [List.length_replicate])
  rw [List.drop_replicate, Nat.sub_self, List.replicate_zero, List.append_nil] at e₅
  -- the payload masked in place
  have hpay : (b₅.bytes.drop (6 + ext.length)).take s.length = s := by
    rw [e₅, List.drop_left' (by simp only [List.length_append, List.length_singleton, hkey]; omega),
      List.take_length]
  obtain ⟨b₆, h₆, e₆⟩ := @Buf.store_append n b₅ _ _ (applyMask key s) (6 + ext.length) e₅
    (by simp only [List.length_append, List.length_singleton, hkey]; omega)
    (by rw [length_applyMask])
  rw [length_applyMask, List.drop_length, List.append_nil] at e₆
  refine ⟨b₆, ?_, e₆⟩
  have hoff : 6 + ext.length - 4 = 2 + ext.length := by omega
  simp only [buildFrame, bind, Option.bind]
  rw [h₁]
  dsimp only
  rw [h₂]
  dsimp only
  rw [hext, h₃]
  dsimp only
  rw [hoff, h₄]
  dsimp only
  rw [h₅]
  dsimp only
  rw [hpay]
  exact h₆

/-- **The frame `ws_client_send` builds**, while its size fits 32 bits. -/
theorem built_frame (key : MaskKey) {s : Bytes} {n : Nat} (hn : n = (frameLayout s.length).1) :
    ∃ b, buildFrame n (frameLayout s.length).2.1 (frameLayout s.length).2.2 key.bytes s = some b ∧
      b.bytes = textBytes key s := by
  subst hn
  by_cases h₁ : s.length < 126
  · have hlay : frameLayout s.length = (6 + s.length, s.length, 6) := if_pos (by omega)
    have hmin : LengthForm.minimal s.length = .short := if_pos h₁
    rw [hlay, textBytes, hmin]
    exact @buildFrame_eq (6 + s.length) s.length [] s key (by omega)
      (by rw [List.length_nil]) fun d => by
        rw [storeLength, if_neg (by omega), if_neg (by omega), if_pos rfl]
  · by_cases h₂ : s.length < 65536
    · have hlay : frameLayout s.length = (8 + s.length, 126, 8) := by
        rw [frameLayout, if_neg (by omega), if_pos (by omega)]
      have hmin : LengthForm.minimal s.length = .ext16 := by
        rw [LengthForm.minimal, if_neg h₁, if_pos h₂]
      rw [hlay, textBytes, hmin]
      exact @buildFrame_eq (8 + s.length) 126 (be 2 s.length) s key (by decide)
        (by rw [length_be]) fun d => by
          rw [storeLength, if_pos rfl, if_neg (be_ne_nil 2 _ (by decide)), Nat.mod_eq_of_lt h₂]
    · have hlay : frameLayout s.length = (14 + s.length, 127, 14) := by
        rw [frameLayout, if_neg (by omega), if_neg (by omega)]
      have hmin : LengthForm.minimal s.length = .ext64 := by
        rw [LengthForm.minimal, if_neg h₁, if_neg h₂]
      rw [hlay, textBytes, hmin]
      exact @buildFrame_eq (14 + s.length) 127 (be 8 (s.length)) s key (by decide)
        (by rw [length_be]) fun d => by
          have hmod : be 8 (s.length % 18446744073709551616) = be 8 s.length := be_mod 8 s.length
          rw [storeLength, if_neg (by decide), if_pos rfl, if_neg (be_ne_nil 8 _ (by decide)), hmod]

/-- It reads back as the string. -/
theorem decode_textBytes (key : MaskKey) {s : Bytes} (h : s.length < 9223372036854775808) :
    decode (textBytes key s) = some (textFrame key s, .minimal s.length, []) := by
  have := @decode_encode (.minimal s.length) (textFrame key s) (LengthForm.fits_minimal h) []
  rwa [List.append_nil] at this

/-! ## The queue -/

/-- The client's handshake is done, and its socket established. -/
structure CanSend (w : World) : Prop where
  established : (w.slots w.ws.curSocketId).state = .connectionStablished
  connecting : w.ws.flags.clientConnecting = false
  sentClose : w.ws.flags.clientSentCloseFrame = false

/-- **Success means the frame is in the queue**, whole, once and last, and the other sockets are
left alone. -/
def Queues (w : World) (s : Bytes) : Prop :=
  (wsClientSend w (some s)).1 = 0 →
    (wsClientSend w (some s)).2.overrun = w.overrun ∧
    ∃ node, (wsClientSend w (some s)).2.slots = Function.update w.slots w.ws.curSocketId
        { w.slots w.ws.curSocketId with
          datNode := (w.slots w.ws.curSocketId).datNode ++ [node] } ∧
      node.data.2 = textBytes w.maskKey s ∧ node.dataLength = node.data.2.length ∧
      decode node.data.2 = some (textFrame w.maskKey s, .minimal s.length, [])

/-- The memory for a frame of `n` bytes, or for its copy in the queue, is denied. -/
def World.Denies (w : World) (n : Nat) : Prop :=
  ¬ w.heap.Allows n ∨
    (0 < n % 65536 ∧ (listNewNode (dmemCreate w.heap n).2 [] (n % 65536)).1 = none)

/-- The frame has fewer than 65536 bytes, or there is no memory for it. -/
def Queueable (w : World) (s : Bytes) : Prop :=
  s.length ≤ 65527 ∨ w.Denies ((frameLayout s.length).1 % 4294967296)

section Queue

variable {w : World} {s : Bytes} {h : Heap} {slots : Slots} {sid : Fin tcpClientMaxSockets}

/-- The copy in a node. -/
theorem listNewNode_eq (h : Heap) (data : Bytes) {n : Nat} (hn : 0 < n) :
    ((listNewNode h [] n).1 = none ∧ (listNewNode h data n).1 = none) ∨
      ∃ node : Node, (listNewNode h [] n).1 ≠ none ∧ (listNewNode h data n).1 = some node ∧
        node.dataLength = n % 65536 ∧ node.data.2 = data.take n := by
  unfold listNewNode
  rw [if_pos hn, if_pos hn]
  split
  · exact .inl ⟨rfl, rfl⟩
  · split
    · exact .inl ⟨rfl, rfl⟩
    · exact .inr ⟨_, (by rintro ⟨⟩), rfl, rfl, rfl⟩

/-- `tcp_client_send` on an established socket: what its 16-bit length leaves of the data. -/
theorem tcpClientSend_eq (hst : (slots sid).state = .connectionStablished) (data : Bytes) (n : Nat) :
    (n % 65536 = 0 ∧ tcpClientSend h slots sid data n = (.success, h, slots)) ∨
    (0 < n % 65536 ∧ (listNewNode h [] (n % 65536)).1 = none ∧
      ∃ h', tcpClientSend h slots sid data n = (.error, h', slots)) ∨
    (0 < n % 65536 ∧ (listNewNode h [] (n % 65536)).1 ≠ none ∧ ∃ h' node,
      node.dataLength = n % 65536 ∧ node.data.2 = data.take (n % 65536) ∧
      tcpClientSend h slots sid data n = (.success, h', Function.update slots sid
        { slots sid with datNode := (slots sid).datNode ++ [node] })) := by
  have hsid : (⟨sid, sid.isLt⟩ : Fin tcpClientMaxSockets) = sid := rfl
  unfold tcpClientSend
  rw [dif_pos sid.isLt, hsid, if_pos hst]
  by_cases hn : 0 < n % 65536
  · rw [if_pos hn]
    rcases listNewNode_eq h data hn with ⟨h₁, h₂⟩ | ⟨node, h₁, h₂, hlen, hdata⟩
    · refine .inr (.inl ⟨hn, h₁, ?_⟩)
      cases hnew : listNewNode h data (n % 65536) with
      | mk res h' =>
        rw [hnew] at h₂
        subst h₂
        exact ⟨h', rfl⟩
    · refine .inr (.inr ⟨hn, h₁, ?_⟩)
      cases hnew : listNewNode h data (n % 65536) with
      | mk res h' =>
        rw [hnew] at h₂
        subst h₂
        exact ⟨h', node, by rw [hlen, Nat.mod_mod], hdata, rfl⟩
  · rw [if_neg hn]
    exact .inl ⟨by omega, rfl⟩

/-- The call without memory for the frame. -/
theorem wsClientSend_denied (hw : CanSend w)
    (hn : ¬ w.heap.Allows ((frameLayout s.length).1 % 4294967296)) :
    (wsClientSend w (some s)).1 = -1 := by
  have hcreate : dmemCreate w.drawMask.2.heap ((frameLayout s.length).1 % 4294967296) =
      (none, w.heap.deny) := dif_neg hn
  unfold wsClientSend
  rw [hw.sentClose, hw.connecting]
  simp only [Bool.false_eq_true, if_false]
  rw [hcreate]

theorem sendData_spec {n : Nat} (w : World) (block : Block) (built : Option (Buf n)) :
    ∃ r, r = tcpClientSend w.heap w.slots w.ws.curSocketId (built.getD .clear).bytes n ∧
      (sendData w block built).1 = (if r.1 = .success then 0 else -1) ∧
      (sendData w block built).2.slots = r.2.2 ∧
      (sendData w block built).2.overrun = (w.overrun || built.isNone) := by
  refine ⟨_, rfl, ?_⟩
  unfold sendData
  generalize tcpClientSend w.heap w.slots w.ws.curSocketId (built.getD .clear).bytes n = r
  dsimp only
  by_cases hr : r.1 = .success
  · rw [if_pos hr, if_pos hr]
    exact ⟨rfl, rfl, rfl⟩
  · rw [if_neg hr, if_neg hr]
    refine ⟨rfl, ?_, ?_⟩ <;>
      · unfold World.sendError World.setState World.callOnError
        dsimp only
        split <;> rfl

/-- The call with memory for the frame. -/
theorem wsClientSend_granted (hw : CanSend w)
    (ha : w.heap.Allows ((frameLayout s.length).1 % 4294967296)) :
    ∃ built r, built = @buildFrame ((frameLayout s.length).1 % 4294967296)
        (frameLayout s.length).2.1 (frameLayout s.length).2.2 w.maskKey.bytes s ∧
      r = tcpClientSend (w.heap.grant _ ha) w.slots w.ws.curSocketId (built.getD .clear).bytes
        ((frameLayout s.length).1 % 4294967296) ∧
      (wsClientSend w (some s)).1 = (if r.1 = .success then 0 else -1) ∧
      (wsClientSend w (some s)).2.slots = r.2.2 ∧
      (wsClientSend w (some s)).2.overrun = (w.overrun || built.isNone) := by
  have hcreate : dmemCreate w.drawMask.2.heap ((frameLayout s.length).1 % 4294967296) =
      (some ⟨w.heap.next, (frameLayout s.length).1 % 4294967296⟩, w.heap.grant _ ha) := dif_pos ha
  unfold wsClientSend
  rw [hw.sentClose, hw.connecting]
  simp only [Bool.false_eq_true, if_false]
  rw [hcreate]
  obtain ⟨r, hr, hspec⟩ := sendData_spec
    { w.drawMask.2 with heap := w.heap.grant _ ha }
    ⟨w.heap.next, (frameLayout s.length).1 % 4294967296⟩
    (buildFrame ((frameLayout s.length).1 % 4294967296) (frameLayout s.length).2.1
      (frameLayout s.length).2.2 w.maskKey.bytes s)
  exact ⟨_, r, rfl, hr, hspec⟩

/-- The frame of a string of at most 65527 bytes fits 16 bits, and no other. -/
theorem frameLayout_le_iff {n : Nat} : (frameLayout n).1 ≤ 65535 ↔ n ≤ 65527 := by
  unfold frameLayout
  split
  · dsimp only; omega
  · split <;> dsimp only <;> omega

/-- When nothing is denied the call returns 0, with what 16 bits of length leave of the frame. -/
theorem wsClientSend_undenied (hw : CanSend w)
    (hden : ¬ w.Denies ((frameLayout s.length).1 % 4294967296)) :
    (wsClientSend w (some s)).1 = 0 ∧
    ((wsClientSend w (some s)).2.slots = w.slots ∨
      ∃ node : Node, node.data.2.length ≤ 65535 ∧ (wsClientSend w (some s)).2.slots =
        Function.update w.slots w.ws.curSocketId
          { w.slots w.ws.curSocketId with
            datNode := (w.slots w.ws.curSocketId).datNode ++ [node] }) := by
  simp only [World.Denies, not_or, not_and, not_not] at hden
  obtain ⟨ha, hnode⟩ := hden
  obtain ⟨built, r, -, hr, hret, hslots, -⟩ := wsClientSend_granted hw ha
  rw [show (dmemCreate w.heap ((frameLayout s.length).1 % 4294967296)).2 = w.heap.grant _ ha by
    rw [dmemCreate, dif_pos ha]] at hnode
  rcases @tcpClientSend_eq (w.heap.grant _ ha) w.slots _ hw.established (built.getD .clear).bytes
      ((frameLayout s.length).1 % 4294967296) with ⟨-, heq⟩ | ⟨h0, hnone, -⟩ |
    ⟨-, -, h', node, -, hdata, heq⟩
  · rw [hr, heq] at hret hslots
    exact ⟨hret, .inl hslots⟩
  · exact absurd hnone (hnode h0)
  · rw [hr, heq] at hret hslots
    refine ⟨hret, .inr ⟨node, ?_, hslots⟩⟩
    have := Nat.mod_lt ((frameLayout s.length).1 % 4294967296) (show 0 < 65536 by decide)
    rw [hdata, List.length_take]
    omega

/-- A frame of fewer than 65536 bytes is queued when the call returns 0. -/
theorem queues_of_le (hw : CanSend w) (hs : s.length ≤ 65527) : Queues w s := by
  intro hret₀
  have hle := frameLayout_le_iff.mpr hs
  have hpos : 0 < (frameLayout s.length).1 := by
    unfold frameLayout
    split
    · dsimp only; omega
    · split <;> dsimp only <;> omega
  have hn : (frameLayout s.length).1 % 4294967296 = (frameLayout s.length).1 :=
    Nat.mod_eq_of_lt (by omega)
  have hn' : (frameLayout s.length).1 % 65536 = (frameLayout s.length).1 :=
    Nat.mod_eq_of_lt (by omega)
  by_cases ha : w.heap.Allows ((frameLayout s.length).1 % 4294967296)
  · obtain ⟨built, r, hbuilt, hr, hret, hslots, hover⟩ := wsClientSend_granted hw ha
    obtain ⟨b, hb, hbytes⟩ := built_frame w.maskKey hn
    rw [hb] at hbuilt
    subst hbuilt
    rcases @tcpClientSend_eq (w.heap.grant _ ha) w.slots _ hw.established b.bytes
        ((frameLayout s.length).1 % 4294967296) with ⟨h0, -⟩ | ⟨-, -, h', heq⟩ |
      ⟨-, -, h', node, hnlen, hdata, heq⟩
    · omega
    · rw [hr, Option.getD_some, heq] at hret
      rw [hret] at hret₀
      cases hret₀
    · have hdata' : node.data.2 = textBytes w.maskKey s := by
        rw [hdata, hbytes, hn, hn', ← length_textBytes w.maskKey s, List.take_length]
      refine ⟨?_, node, ?_, hdata', ?_, ?_⟩
      · rw [hover, Option.isNone_some, Bool.or_false]
      · rw [hslots, hr, Option.getD_some, heq]
      · rw [hnlen, hdata', length_textBytes, hn, hn']
      · rw [hdata']
        exact decode_textBytes _ (by omega)
  · rw [wsClientSend_denied hw ha] at hret₀
    exact absurd hret₀ (by decide)

/-- Without memory for the frame or its copy the call does not return 0. -/
theorem wsClientSend_of_denies (hw : CanSend w)
    (hden : w.Denies ((frameLayout s.length).1 % 4294967296)) : (wsClientSend w (some s)).1 ≠ 0 := by
  rw [World.Denies] at hden
  by_cases ha : w.heap.Allows ((frameLayout s.length).1 % 4294967296)
  · obtain ⟨hpos, hnone⟩ := hden.resolve_left (not_not.mpr ha)
    obtain ⟨built, r, -, hr, hret, -, -⟩ := wsClientSend_granted hw ha
    rw [show (dmemCreate w.heap ((frameLayout s.length).1 % 4294967296)).2 = w.heap.grant _ ha by
      rw [dmemCreate, dif_pos ha]] at hnone
    rcases @tcpClientSend_eq (w.heap.grant _ ha) w.slots _ hw.established
        (built.getD .clear).bytes ((frameLayout s.length).1 % 4294967296) with ⟨h0, -⟩ |
      ⟨-, -, h', heq⟩ | ⟨-, hsome, -⟩
    · omega
    · rw [hret, hr, heq]
      rintro ⟨⟩
    · exact absurd hnone hsome
  · rw [wsClientSend_denied hw ha]
    decide

/-- A longer frame is cut, although the call returns 0. -/
theorem queueable_of_queues (hw : CanSend w) (hq : Queues w s) : Queueable w s := by
  by_contra hc
  rw [Queueable, not_or] at hc
  obtain ⟨hs, hden⟩ := hc
  obtain ⟨hret, hslots⟩ := wsClientSend_undenied hw hden
  obtain ⟨-, node, hupd, hbytes, -⟩ := hq hret
  rcases hslots with hsame | ⟨node', hlen, hupd'⟩
  · -- nothing is queued
    have := congrArg (fun slots => (slots w.ws.curSocketId).datNode.length) (hsame.symm.trans hupd)
    simp only [Function.update_self, List.length_append, List.length_singleton] at this
    omega
  · -- the frame is cut
    have hsame := congrArg (fun slots => (slots w.ws.curSocketId).datNode) (hupd'.symm.trans hupd)
    simp only [Function.update_self, List.append_cancel_left_eq, List.cons.injEq, and_true] at hsame
    rw [hsame, hbytes, length_textBytes] at hlen
    exact hs (frameLayout_le_iff.mp hlen)

/-- **`ws_client_send` queues its frame** exactly for strings whose frame has fewer than 65536
bytes, or when there is no memory. -/
theorem queues_iff (hw : CanSend w) : Queues w s ↔ Queueable w s := by
  constructor
  · exact queueable_of_queues hw
  · rintro (hs | hden)
    · exact queues_of_le hw hs
    · exact fun hret => absurd hret (wsClientSend_of_denies hw hden)

end Queue

/-- A client established on slot 0, with all memory free. -/
def connectedWorld : World :=
  { worldInit (fun _ => true) (fun _ => 0x04030201) with
    slots := fun _ => { Slot.zero with
      state := .connectionStablished
      hSocket := 1
      cb := some .ws }
    ws := { wsClientInit with
      state := .connectionEstablished
      onMessage := true } }

theorem canSend_connectedWorld : CanSend connectedWorld := ⟨rfl, rfl, rfl⟩

/-- A short string is queued. -/
theorem queues_hello : Queues connectedWorld (ascii "hello") :=
  (queues_iff canSend_connectedWorld).mpr (.inl (by decide))

/-- A string of 65528 bytes is accepted, and nothing is queued. -/
theorem not_queues : ¬ Queues connectedWorld (List.replicate 65528 97) := by
  intro hq
  have hq := queueable_of_queues canSend_connectedWorld hq
  rw [Queueable, World.Denies, List.length_replicate] at hq
  revert hq
  decide

end Rastreo.Net
