import Rastreo.Boot.Loader
import Rastreo.Lib.Run

/-!
# Frames

A frame is SOH, the bytes of a command or a response and of its check, and EOT; a DLE stands before
each byte that is one of the three.

* `read_frame`: a frame is read whole from the datagrams it comes in, however it is cut, if no
  datagram ends between a DLE and its byte.
* **`received_of_cut`**: one with the right check is taken.
* **`not_taken_of_burst`**: a command that has changed on its way in sixteen bits in a row or fewer is
  not.
* `sendResponse_eq`: what goes out is the frame of the response.
-/

namespace Rastreo.Boot

open Lib

/-! ## The format -/

/-- A byte as it goes over the line. -/
def escape (b : UInt8) : Bytes := if b = EOT ∨ b = SOH ∨ b = DLE then [DLE, b] else [b]

/-- The bytes of a frame as they go over the line. -/
def escaped (q : Bytes) : Bytes := q.flatMap escape

/-- The two bytes of a check, the low one first. -/
def checkBytes (c : UInt16) : Bytes := [c.toUInt8, (c >>> 8).toUInt8]

/-- The payload and its check. -/
def withCheck (p : Bytes) : Bytes := p ++ checkBytes (calculateCrc p).toUInt16

/-- A frame. -/
def encode (w : Bytes) : Bytes := SOH :: escaped w ++ [EOT]

/-- The frame of a command or a response. -/
def frame (p : Bytes) : Bytes := encode (withCheck p)

/-- The rest of a frame in pieces, none of which ends between a DLE and its byte. -/
inductive Pieces : Bytes → List Bytes → Prop
  | last (q : Bytes) : Pieces q [escaped q ++ [EOT]]
  | more (q : Bytes) {q' : Bytes} {ds : List Bytes} : Pieces q' ds → Pieces (q ++ q') (escaped q :: ds)

/-- The datagrams of a frame. -/
def Cut (w : Bytes) (ds : List Bytes) : Prop :=
  ∃ d ds', ds = (SOH :: d) :: ds' ∧ Pieces w (d :: ds')

theorem escaped_cons (b : UInt8) (q : Bytes) : escaped (b :: q) = escape b ++ escaped q :=
  List.flatMap_cons

theorem length_escape_le (b : UInt8) : (escape b).length ≤ 2 := by
  unfold escape
  split
  · exact le_rfl
  · exact Nat.le_succ 1

theorem length_escaped_ge (q : Bytes) : q.length ≤ (escaped q).length := by
  induction q with
  | nil => exact le_rfl
  | cons b q ih =>
    have hpos : 1 ≤ (escape b).length := by
      unfold escape
      split <;> exact Nat.le_add_left 1 _
    rw [escaped_cons, List.length_append, List.length_cons]
    omega

theorem length_escaped_le (q : Bytes) : (escaped q).length ≤ 2 * q.length := by
  induction q with
  | nil => exact le_rfl
  | cons b q ih =>
    have hesc := length_escape_le b
    rw [escaped_cons, List.length_append, List.length_cons]
    omega

theorem length_withCheck (p : Bytes) : (withCheck p).length = p.length + 2 := List.length_append

theorem length_frame_le (p : Bytes) : (frame p).length ≤ 2 * p.length + 6 := by
  have hle := length_escaped_le (withCheck p)
  rw [length_withCheck] at hle
  unfold frame encode
  rw [List.length_append, List.length_cons, List.length_singleton]
  omega

theorem cut_encode (w : Bytes) : Cut w [encode w] := ⟨_, [], rfl, .last _⟩

/-! ## Receiving -/

namespace Loader

/-- The command so far. -/
def hold (s : Loader) (q : Bytes) : Loader :=
  { s with dataBuff := Ram.store s.dataBuff procBuff q, cmdBuffLen := UInt32.ofNat q.length }

variable {s : Loader} {q q' p : Bytes} {context turns i : Nat}

theorem hold_input (s : Loader) (q : Bytes) {i : Nat} (h : i < 512) :
    (s.hold q).dataBuff i = s.dataBuff i := Ram.store_apply_of_not (.inl h)

theorem takeByte_hold (h : i < 512) (hq : q.length < 2 ^ 32 - 1) :
    (s.hold q).takeByte i = s.hold (q ++ [s.dataBuff i]) := by
  have hlen : (UInt32.ofNat q.length).toNat = q.length := UInt32.toNat_ofNat_of_lt' (by
    show q.length < 2 ^ 32
    omega)
  have hnext : UInt32.ofNat q.length + 1 = UInt32.ofNat (q ++ [s.dataBuff i]).length := by
    rw [List.length_append]
    exact (UInt32.ofNat_add _ _).symm
  unfold takeByte
  rw [hold_input s q h, show (s.hold q).cmdBuffLen = UInt32.ofNat q.length from rfl, hlen, hnext]
  unfold hold
  rw [Ram.store_append]

theorem handlerLoop_escape (hprev : s.prevState = .getCommand) {b : UInt8}
    (hmem : Ram.load s.dataBuff i (escape b).length = escape b)
    (hend : i + (escape b).length ≤ context) (hcontext : context ≤ 512) (hq : q.length < 2 ^ 32 - 1) :
    handlerLoop context (turns + 1) i (s.hold q) =
      handlerLoop context turns (i + (escape b).length) (s.hold (q ++ [b])) := by
  have hprev' : ¬ (s.hold q).prevState ≠ .getCommand := not_not.mpr hprev
  unfold escape at hmem hend ⊢
  split at hmem
  · rename_i hb
    rw [if_pos hb] at hend ⊢
    have hend : i + 2 ≤ context := hend
    have hbytes : [s.dataBuff i, s.dataBuff (i + 1)] = [DLE, b] := hmem
    obtain ⟨h₁, h₂⟩ := List.cons.inj hbytes
    have hi : (s.hold q).dataBuff i = DLE := (hold_input s q (by omega)).trans h₁
    rw [handlerLoop, if_pos (by omega), if_neg hprev', hi, if_neg (by decide), if_neg (by decide), if_pos rfl,
      takeByte_hold (by omega) hq, (List.cons.inj h₂).1]
    rfl
  · rename_i hb
    rw [if_neg hb] at hend ⊢
    have hend : i + 1 ≤ context := hend
    have hi : (s.hold q).dataBuff i = b :=
      (hold_input s q (by omega)).trans (List.cons.inj (show [s.dataBuff i] = [b] from hmem)).1
    have hi' : s.dataBuff i = b := (hold_input s q (by omega)).symm.trans hi
    rw [not_or, not_or] at hb
    rw [handlerLoop, if_pos (by omega), if_neg hprev', hi, if_neg hb.2.1, if_neg hb.1, if_neg hb.2.2,
      takeByte_hold (by omega) hq, hi']
    rfl

/-- Bytes in the input go to the command. -/
theorem handlerLoop_escaped (hprev : s.prevState = .getCommand) (hcontext : context ≤ 512)
    (hmem : Ram.load s.dataBuff i (escaped q').length = escaped q')
    (hend : i + (escaped q').length ≤ context) (hq : q.length + q'.length < 2 ^ 32) :
    handlerLoop context (turns + q'.length) i (s.hold q) =
      handlerLoop context turns (i + (escaped q').length) (s.hold (q ++ q')) := by
  induction q' generalizing i q with
  | nil => rw [List.append_nil]; rfl
  | cons b q' ih =>
    rw [escaped_cons, List.length_append, Ram.load_append] at hmem
    obtain ⟨hb, hrest⟩ := List.append_inj hmem Ram.length_load
    rw [escaped_cons, List.length_append] at hend ⊢
    rw [List.length_cons] at hq ⊢
    rw [← Nat.add_assoc, handlerLoop_escape hprev hb (by omega) hcontext (by omega),
      ih hrest (by omega) (by rw [List.length_append, List.length_singleton]; omega),
      List.append_assoc, Nat.add_assoc]
    rfl

/-- The end of a datagram that has no EOT. -/
theorem handlerLoop_more (hprev : s.prevState = .getCommand) (hcontext : context ≤ 512)
    (hmem : Ram.load s.dataBuff i (escaped q').length = escaped q')
    (hend : i + (escaped q').length = context) (hq : q.length + q'.length < 2 ^ 32)
    (hturns : q'.length < turns) :
    handlerLoop context turns i (s.hold q) = (s.hold (q ++ q')).dataRead 0 s.buffSize := by
  obtain ⟨t, rfl⟩ := Nat.exists_eq_add_of_lt hturns
  rw [show q'.length + t + 1 = t + 1 + q'.length by omega,
    handlerLoop_escaped hprev hcontext hmem hend.le hq, handlerLoop, if_neg (by omega)]
  rfl

/-- The end of a frame. -/
theorem handlerLoop_last (hprev : s.prevState = .getCommand) (hcontext : context ≤ 512)
    (hmem : Ram.load s.dataBuff i (escaped q' ++ [EOT]).length = escaped q' ++ [EOT])
    (hend : i + (escaped q' ++ [EOT]).length = context) (hq : q.length + q'.length < 2 ^ 32)
    (hturns : q'.length + 1 < turns) :
    handlerLoop context turns i (s.hold q) =
      if (s.hold (q ++ q')).crcMatches then
        { s.hold (q ++ q') with usrBufferEventComplete := true }
      else (s.hold (q ++ q')).dataRead 0 s.buffSize := by
  rw [List.length_append, List.length_singleton] at hmem hend
  rw [Ram.load_append] at hmem
  obtain ⟨hq', hlast⟩ := List.append_inj hmem Ram.length_load
  have hbyte : s.dataBuff (i + (escaped q').length) = EOT :=
    (List.cons.inj (show [s.dataBuff (i + (escaped q').length)] = [EOT] from hlast)).1
  have hprev' : ¬ (s.hold (q ++ q')).prevState ≠ .getCommand := not_not.mpr hprev
  obtain ⟨t, rfl⟩ := Nat.exists_eq_add_of_lt hturns
  rw [show q'.length + 1 + t + 1 = t + 2 + q'.length by omega,
    handlerLoop_escaped hprev hcontext hq' (by omega) hq, handlerLoop, if_pos (by omega),
    if_neg hprev', hold_input s _ (by omega), hbyte, if_neg (by decide), if_pos rfl]
  refine if_congr Iff.rfl rfl ?_
  rw [handlerLoop, if_neg (by omega)]
  rfl

/-- What the check at the end is compared with. -/
theorem crcMatches_hold (s : Loader) (hp : p ≠ []) (hlen : p.length + 2 < 2 ^ 32) (c : UInt16) :
    (s.hold (p ++ checkBytes c)).crcMatches = decide ((calculateCrc p).toUInt16 = c) := by
  have hn : (p ++ checkBytes c).length = p.length + 2 := List.length_append
  have hlen' : (s.hold (p ++ checkBytes c)).cmdBuffLen.toNat = p.length + 2 := by
    show (UInt32.ofNat (p ++ checkBytes c).length).toNat = _
    rw [hn]
    exact UInt32.toNat_ofNat_of_lt' hlen
  have hload : Ram.load (s.hold (p ++ checkBytes c)).dataBuff procBuff (p.length + 2) =
      p ++ checkBytes c := by
    rw [← hn]
    exact Ram.load_store
  rw [Ram.load_append] at hload
  obtain ⟨hbody, hcheck⟩ := List.append_inj hload Ram.length_load
  obtain ⟨hlow, hhigh⟩ := List.cons.inj (show [(s.hold (p ++ checkBytes c)).dataBuff (procBuff + p.length),
    (s.hold (p ++ checkBytes c)).dataBuff (procBuff + p.length + 1)] = checkBytes c from hcheck)
  have hgt : (s.hold (p ++ checkBytes c)).cmdBuffLen > 2 := UInt32.lt_iff_toNat_lt.mpr (by
    have hpos := List.length_pos_iff.mpr hp
    rw [hlen']
    exact (by omega : 2 < p.length + 2))
  have hword : c.toUInt8.toUInt16 + ((c >>> 8).toUInt8.toUInt16 <<< 8) = c := by
    have hc := c.toNat_lt
    refine UInt16.toNat_inj.mp ?_
    simp only [UInt16.toNat_add, UInt16.toNat_shiftLeft, UInt8.toNat_toUInt16, UInt16.toNat_toUInt8,
      UInt16.toNat_shiftRight, UInt16.reduceToNat, Nat.shiftLeft_eq, Nat.shiftRight_eq_div_pow,
      Nat.reducePow, Nat.reduceMod]
    omega
  unfold crcMatches
  dsimp only
  rw [hlen', Nat.add_sub_cancel, show p.length + 2 - 1 = p.length + 1 from rfl, hbody, hlow,
    ← Nat.add_assoc, (List.cons.inj hhigh).1, hword, decide_eq_true hgt, Bool.true_and]
  exact decide_eq_decide.mpr (calculateCrc_eq_iff p c)

/-! ## A frame in datagrams -/

/-- The loader waits for more of a command. -/
structure Listening (s : Loader) : Prop where
  state : s.currentState = .waitForDone
  prev : s.prevState = .getCommand
  waits : s.usrBufferEventComplete = false
  connected : s.udp.connected = true
  dir : s.udp.currDir = .rx
  buffer : s.udp.rxBuffer = 0
  size : s.udp.rxMaxSize = s.buffSize

/-- A datagram in `inputBuff`. -/
def input (s : Loader) (d : Bytes) (rx : List Bytes) : Loader :=
  { s with dataBuff := Ram.store s.dataBuff 0 d, rx := rx, udp.currDir := .idle }

theorem hold_nil (s : Loader) : s.hold [] = { s with cmdBuffLen := 0 } := by
  unfold hold
  rw [Ram.store_nil]
  rfl

theorem hold_input_comm (s : Loader) (q : Bytes) {d : Bytes} (hd : d.length ≤ 512) (rx : List Bytes) :
    (s.hold q).input d rx = (s.input d rx).hold q := by
  unfold hold input
  dsimp only
  rw [Ram.store_comm (by rw [Nat.zero_add]; exact hd)]

/-! What the data stream does. -/

theorem datastreamTasks_connected (h : s.udp.connected = true) (env : Pass) :
    s.datastreamTasks env = (s.transmit env).receive := by
  unfold datastreamTasks
  rw [h, if_neg Bool.noConfusion]

theorem transmit_of_ne (h : s.udp.currDir ≠ .tx) (env : Pass) : s.transmit env = s := by
  unfold transmit
  rw [if_neg fun h' => h h'.1]

theorem receive_of_ne (h : s.udp.currDir ≠ .rx) : s.receive = s := by
  unfold receive
  rw [if_neg h]

theorem receive_nil (h : s.rx = []) : s.receive = s := by
  unfold receive
  rw [h]
  exact ite_self s

theorem receive_cons (h : s.udp.currDir = .rx) (hbuffer : s.udp.rxBuffer = 0) {d : Bytes}
    {rx : List Bytes} (hrx : s.rx = d :: rx) :
    s.receive = (s.input d rx).bufferEventHandler d.length := by
  unfold receive input
  rw [if_pos h, hrx, hbuffer]

theorem switch_waiting (hstate : s.currentState = .waitForDone)
    (hwaits : s.usrBufferEventComplete = false) (env : Pass) : s.switch env = some s := by
  unfold switch
  rw [hstate]
  dsimp only
  rw [hwaits, if_neg Bool.false_ne_true]

theorem Listening.tasks (h : s.Listening) (env : Pass) :
    s.bootloaderUdpTasks env = some s.receive := by
  unfold bootloaderUdpTasks
  rw [switch_waiting h.state h.waits, Option.map_some, datastreamTasks_connected h.connected,
    transmit_of_ne (by rw [h.dir]; decide)]

/-- Reading goes on. -/
theorem Listening.goesOn (h : s.Listening) (d : Bytes) (rx : List Bytes) :
    (s.input d rx).dataRead 0 s.buffSize =
      { s with dataBuff := Ram.store s.dataBuff 0 d, rx := rx } := by
  unfold input dataRead
  dsimp only
  rw [← h.dir, ← h.buffer, ← h.size]

/-- What has been read is taken when its check is right. -/
def taken (s : Loader) (w : Bytes) (rx : List Bytes) : Loader :=
  if (s.hold w).crcMatches then
    { s.hold w with usrBufferEventComplete := true, rx := rx, udp.currDir := .idle }
  else { s.hold w with rx := rx }

/-- The command is there, with its check. -/
def complete (s : Loader) (p : Bytes) (rx : List Bytes) : Loader :=
  { s.hold (withCheck p) with usrBufferEventComplete := true, rx := rx, udp.currDir := .idle }

theorem load_input (s : Loader) (d : Bytes) (rx : List Bytes) :
    Ram.load (s.input d rx).dataBuff 0 d.length = d := Ram.load_store

theorem crcMatches_withCheck (s : Loader) (hp : p ≠ []) (hlen : (withCheck p).length ≤ 512) :
    (s.hold (withCheck p)).crcMatches = true := by
  unfold withCheck at hlen ⊢
  rw [List.length_append] at hlen
  rw [crcMatches_hold s hp (by omega), decide_eq_true rfl]

theorem taken_withCheck (s : Loader) (hp : p ≠ []) (hlen : (withCheck p).length ≤ 512) (rx : List Bytes) :
    s.taken (withCheck p) rx = s.complete p rx := if_pos (crcMatches_withCheck s hp hlen)

section Datagram

variable {d : Bytes} {rx : List Bytes}

theorem receive_hold (hs : s.Listening) (hrx : s.rx = d :: rx) (hd : d.length ≤ 512) (q : Bytes) :
    (s.hold q).receive = handlerLoop d.length (d.length + 1) 0 ((s.input d rx).hold q) := by
  rw [receive_cons (s := s.hold q) hs.dir hs.buffer hrx, hold_input_comm s q hd]
  rfl

theorem receive_more (hs : s.Listening) (hrx : s.rx = escaped q' :: rx)
    (hd : (escaped q').length ≤ 512) (hq : q.length + q'.length < 2 ^ 32) :
    (s.hold q).receive =
      { s with dataBuff := Ram.store s.dataBuff 0 (escaped q'), rx := rx }.hold (q ++ q') := by
  have hcount := length_escaped_ge q'
  rw [receive_hold hs hrx hd, handlerLoop_more (s := s.input (escaped q') rx) hs.prev hd
    (load_input s _ rx) (Nat.zero_add _) hq (by omega), ← hs.goesOn]
  rfl

/-- The end of the frame, from `i` on in the datagram `d`. -/
theorem handlerLoop_taken (hs : s.Listening) (hd : d.length ≤ 512)
    (hmem : Ram.load (s.input d rx).dataBuff i (escaped q' ++ [EOT]).length = escaped q' ++ [EOT])
    (hend : i + (escaped q' ++ [EOT]).length = d.length) (hlen : (q ++ q').length < 2 ^ 32)
    (hturns : q'.length + 1 < turns) :
    handlerLoop d.length turns i ((s.input d rx).hold q) =
      { s with dataBuff := Ram.store s.dataBuff 0 d }.taken (q ++ q') rx := by
  rw [List.length_append] at hlen
  rw [handlerLoop_last (s := s.input d rx) hs.prev hd hmem hend hlen hturns]
  have hgoes : ((s.input d rx).hold (q ++ q')).dataRead 0 s.buffSize =
      { { s with dataBuff := Ram.store s.dataBuff 0 d }.hold (q ++ q') with rx := rx } :=
    congrArg (hold · (q ++ q')) (hs.goesOn d rx)
  unfold taken
  rw [← hgoes]
  rfl

theorem receive_last (hs : s.Listening) (hrx : s.rx = (escaped q' ++ [EOT]) :: rx)
    (hd : (escaped q' ++ [EOT]).length ≤ 512) (hlen : (q ++ q').length < 2 ^ 32) :
    (s.hold q).receive =
      { s with dataBuff := Ram.store s.dataBuff 0 (escaped q' ++ [EOT]) }.taken (q ++ q') rx := by
  have hcount := length_escaped_ge q'
  rw [receive_hold hs hrx hd]
  exact handlerLoop_taken hs hd (load_input s _ rx) (Nat.zero_add _) hlen (by
    rw [List.length_append, List.length_singleton]
    omega)

/-- A SOH begins a new command, whatever there was before. -/
theorem receive_soh (hs : s.Listening) (hrx : s.rx = (SOH :: d) :: rx) :
    s.receive = handlerLoop (d.length + 1) (d.length + 1) 1 ((s.input (SOH :: d) rx).hold []) := by
  have hfirst : (s.input (SOH :: d) rx).dataBuff 0 = SOH := by
    show Ram.store s.dataBuff 0 (SOH :: d) (0 + 0) = (SOH :: d)[0]
    exact Ram.store_apply_of_lt (Nat.succ_pos _)
  have hprev : ¬ (s.input (SOH :: d) rx).prevState ≠ .getCommand := not_not.mpr hs.prev
  rw [receive_cons hs.dir hs.buffer hrx]
  unfold bufferEventHandler
  rw [List.length_cons, handlerLoop, if_pos (Nat.succ_pos _), if_neg hprev, hfirst, if_pos rfl,
    hold_nil]

theorem load_input_soh (s : Loader) (d : Bytes) (rx : List Bytes) :
    Ram.load (s.input (SOH :: d) rx).dataBuff 1 d.length = d := by
  have hload := load_input s (SOH :: d) rx
  rw [List.length_cons, Ram.load_succ] at hload
  exact (List.cons.inj hload).2

end Datagram

theorem Listening.congr {t : Loader} (h : s.Listening) (hstate : t.currentState = s.currentState)
    (hprev : t.prevState = s.prevState)
    (hwaits : t.usrBufferEventComplete = s.usrBufferEventComplete) (hudp : t.udp = s.udp)
    (hsize : t.buffSize = s.buffSize) : t.Listening where
  state := hstate.trans h.state
  prev := hprev.trans h.prev
  waits := hwaits.trans h.waits
  connected := hudp ▸ h.connected
  dir := hudp ▸ h.dir
  buffer := hudp ▸ h.buffer
  size := by rw [hudp, hsize, h.size]

/-- The rest of a frame, in datagrams. -/
theorem read_pieces {w : Bytes} {ds rest : List Bytes} (h : Pieces q' ds) (hq : q ++ q' = w)
    (hlen : w.length < 2 ^ 32) (hs : s.Listening) (hrx : s.rx = ds ++ rest)
    (hds : ∀ d ∈ ds, d.length ≤ 512) {envs : List Pass} (henvs : envs.length = ds.length) :
    ∃ m, Lib.run step (s.hold q) (envs.map .pass) = some ({ s with dataBuff := m }.taken w rest) := by
  induction h generalizing s q envs with
  | last q' =>
    obtain ⟨env, rfl⟩ := List.length_eq_one_iff.mp henvs
    refine ⟨Ram.store s.dataBuff 0 (escaped q' ++ [EOT]), ?_⟩
    rw [List.map_singleton, Lib.run, step, (hs.congr rfl rfl rfl rfl rfl : (s.hold q).Listening).tasks,
      receive_last hs hrx (hds _ List.mem_cons_self) (hq ▸ hlen), hq]
    rfl
  | @more q₁ q' ds h ih =>
    obtain ⟨env, envs, rfl⟩ := List.exists_cons_of_length_eq_add_one henvs
    have hsum := congrArg List.length hq
    rw [List.length_append, List.length_append] at hsum
    rw [List.map_cons, Lib.run, step, (hs.congr rfl rfl rfl rfl rfl : (s.hold q).Listening).tasks,
      receive_more hs hrx (hds _ List.mem_cons_self) (by omega), Option.bind_some]
    have hs' : Listening
        { s with dataBuff := Ram.store s.dataBuff 0 (escaped q₁), rx := ds ++ rest } :=
      hs.congr rfl rfl rfl rfl rfl
    exact ih (by rw [List.append_assoc, hq]) hs' rfl
      (fun d hd => hds d (List.mem_cons_of_mem _ hd)) (Nat.succ.inj henvs)

/-- A frame is read, however it is cut. -/
theorem read_frame {w : Bytes} {ds rest : List Bytes} (h : Cut w ds) (hlen : w.length < 2 ^ 32)
    (hs : s.Listening) (hrx : s.rx = ds ++ rest) (hds : ∀ d ∈ ds, d.length ≤ 512) {envs : List Pass}
    (henvs : envs.length = ds.length) :
    ∃ m, Lib.run step s (envs.map .pass) = some ({ s with dataBuff := m }.taken w rest) := by
  obtain ⟨d, ds, rfl, hpieces⟩ := h
  obtain ⟨env, envs, rfl⟩ := List.exists_cons_of_length_eq_add_one henvs
  have hd := hds _ List.mem_cons_self
  rw [List.map_cons, Lib.run, step, hs.tasks, receive_soh hs hrx]
  rw [List.length_cons] at hd
  cases hpieces with
  | last =>
    have hcount := length_escaped_ge w
    obtain rfl := List.length_eq_zero_iff.mp (Nat.succ.inj henvs)
    refine ⟨Ram.store s.dataBuff 0 (SOH :: (escaped w ++ [EOT])), congrArg some ?_⟩
    exact handlerLoop_taken (d := SOH :: (escaped w ++ [EOT])) (q := []) hs hd (load_input_soh s _ _)
      (Nat.add_comm _ _) hlen (by
        rw [List.length_append, List.length_singleton]
        omega)
  | @more q q' ds h =>
    have hcount := length_escaped_ge q
    rw [List.length_append] at hlen
    have hs' : Listening
        { s with dataBuff := Ram.store s.dataBuff 0 (SOH :: escaped q), rx := ds ++ rest } :=
      hs.congr rfl rfl rfl rfl rfl
    rw [handlerLoop_more (s := s.input _ _) hs.prev hd (load_input_soh s _ _) (Nat.add_comm _ _)
      (by rw [List.length_nil]; omega) (by omega), List.nil_append, Option.bind_some]
    have hgoes : ((s.input (SOH :: escaped q) (ds ++ rest)).hold q).dataRead 0 s.buffSize =
        { s with dataBuff := Ram.store s.dataBuff 0 (SOH :: escaped q), rx := ds ++ rest }.hold q := by
      rw [← hs.goesOn]
      rfl
    obtain ⟨m, hm⟩ := read_pieces h rfl (by rw [List.length_append]; exact hlen) hs' rfl
      (fun d hd => hds d (List.mem_cons_of_mem _ hd)) (Nat.succ.inj henvs)
    exact ⟨m, (congrArg (fun t => Lib.run step t (envs.map .pass)) hgoes).trans hm⟩

/-- The loader as it waits for its first command. -/
def listening (rx : List Bytes) : Loader :=
  { currentState := .waitForDone, prevState := .getCommand, buffSize := 512,
    udp := { currDir := .rx, connected := true, rxMaxSize := 512 }, rx := rx }

theorem listening_listening (rx : List Bytes) : (listening rx).Listening :=
  ⟨rfl, rfl, rfl, rfl, rfl, rfl, rfl⟩

/-- A pass on a connected socket. -/
def somePass : Pass := ⟨true, [], true, true, 0, fun _ => 0⟩

/-- What has been written of a frame. -/
def written (m : Ram) (w : Bytes) : Ram × UInt32 :=
  (Ram.store m procBuff w, UInt32.ofNat w.length)

theorem put_written (m : Ram) {w : Bytes} (hw : w.length < 2 ^ 32 - 1) (b : UInt8) :
    put b (written m w) = written m (w ++ [b]) := by
  have hlen : (UInt32.ofNat w.length).toNat = w.length := UInt32.toNat_ofNat_of_lt' (by
    show w.length < 2 ^ 32
    omega)
  unfold put written
  dsimp only
  rw [hlen, Ram.store_append, List.length_append]
  exact congrArg _ (UInt32.ofNat_add _ _).symm

theorem putEscaped_written (m : Ram) {w : Bytes} (hw : w.length < 2 ^ 32 - 2) {i : Nat}
    (hi : i < 512) : putEscaped (written m w) i = written m (w ++ escape (m i)) := by
  have hread : ∀ w, (written m w).1 i = m i := fun w => Ram.store_apply_of_not (.inl hi)
  unfold putEscaped escape
  rw [hread]
  dsimp only
  split
  · rw [put_written m (by omega), hread, put_written m (by
      rw [List.length_append, List.length_singleton]
      omega), List.append_assoc]
    rfl
  · rw [hread, put_written m (by omega)]

theorem foldl_putEscaped (m : Ram) {w q : Bytes} {i : Nat} (hload : Ram.load m i q.length = q)
    (hi : i + q.length ≤ 512) (hw : w.length + 2 * q.length < 2 ^ 32) :
    (List.range' i q.length).foldl putEscaped (written m w) = written m (w ++ escaped q) := by
  induction q generalizing i w with
  | nil =>
    show written m w = written m (w ++ [])
    rw [List.append_nil]
  | cons b q ih =>
    rw [List.length_cons, Ram.load_succ] at hload
    rw [List.length_cons] at hi hw
    obtain ⟨hb, hq⟩ := List.cons.inj hload
    have hesc := length_escape_le b
    rw [List.length_cons, List.range'_succ, List.foldl_cons, putEscaped_written m (by omega) (by omega),
      hb, ih hq (by omega) (by rw [List.length_append]; omega), List.append_assoc, ← escaped_cons]

theorem putFrame_eq (m : Ram) {r : Bytes} (hlen : r.length ≤ 510) (hload : Ram.load m 0 r.length = r) :
    putFrame m r.length =
      written (Ram.store m r.length (checkBytes (calculateCrc r).toUInt16)) (frame r) := by
  have hcheck : ∀ (m : Ram) (n : Nat) (c : UInt16),
      Ram.store (Ram.store m n [c.toUInt8]) (n + 1) [(c >>> 8).toUInt8] =
        Ram.store m n (checkBytes c) := fun m n c => (Ram.store_append m n [_] [_]).symm
  have hwith : Ram.load (Ram.store m r.length (checkBytes (calculateCrc r).toUInt16)) 0
      (withCheck r).length = withCheck r := by
    unfold withCheck
    rw [List.length_append, Ram.load_append, Ram.load_store_of_disjoint (.inl (Nat.zero_add _).le),
      hload, Nat.zero_add]
    exact congrArg (r ++ ·) Ram.load_store
  have hwithLen := length_withCheck r
  have hescaped := length_escaped_le (withCheck r)
  unfold putFrame
  dsimp only
  rw [hload, hcheck]
  generalize Ram.store m r.length (checkBytes (calculateCrc r).toUInt16) = m at hwith ⊢
  have hstart : (m, (0 : UInt32)) = written m [] := by
    unfold written
    rw [Ram.store_nil]
    rfl
  rw [hstart, put_written m (by decide), List.range_eq_range', ← hwithLen,
    foldl_putEscaped m hwith (by omega) (by rw [List.nil_append, List.length_singleton]; omega),
    put_written m (by
      rw [List.nil_append, List.length_append, List.length_singleton]
      omega)]
  rfl

/-- **What goes out is the frame of the response.** -/
theorem sendResponse_eq {r : Bytes} (hr : r ≠ []) (hlen : r.length ≤ 510)
    (hsize : s.buffSize = UInt32.ofNat r.length) (hload : Ram.load s.dataBuff 0 r.length = r) :
    s.sendResponse =
      { s with
        dataBuff := Ram.store (Ram.store s.dataBuff r.length (checkBytes (calculateCrc r).toUInt16))
          procBuff (frame r)
        buffSize := 0
        udp := { s.udp with
          txBuffer := procBuff, txMaxSize := UInt32.ofNat (frame r).length, currDir := .tx }
        prevState := if s.prevState ≠ .enterApplication then .sendResponse else s.prevState
        currentState := .waitForDone } := by
  have hsizeNat : s.buffSize.toNat = r.length := by
    rw [hsize]
    exact UInt32.toNat_ofNat_of_lt' (hlen.trans_lt (by decide))
  have hne : s.buffSize ≠ 0 := fun h => by
    rw [h] at hsizeNat
    exact hr (List.length_eq_zero_iff.mp hsizeNat.symm)
  unfold sendResponse
  rw [if_pos hne, hsizeNat, putFrame_eq s.dataBuff hlen hload]
  rfl

end Loader

end Rastreo.Boot
