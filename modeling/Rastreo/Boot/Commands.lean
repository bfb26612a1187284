import Rastreo.Boot.Framing
import Rastreo.Boot.HexFile

/-!
# Commands and their answers

What the loader is there for: a host asks for one thing at a time, and gets an answer.

* **`processBuffer_eq`**: a command that is in `procBuff` is carried out, and its answer is in
  `inputBuff`.
-/

namespace Rastreo.Boot

open Lib

/-- What a host asks for. -/
inductive Command
  | readBootInfo
  | eraseFlash
  | programFlash (records : List HexRecord)
  | readCrc (address length : UInt32)
  | jmpToApp
  deriving DecidableEq

/-- Four bytes, the lowest first. -/
def bytes32 (a : UInt32) : Bytes :=
  [a.toUInt8, (a >>> 8).toUInt8, (a >>> 16).toUInt8, (a >>> 24).toUInt8]

namespace Command

/-- The bytes of the command, without the check. -/
def payload : Command → Bytes
  | readBootInfo => [1]
  | eraseFlash => [2]
  | programFlash rs => 3 :: recordsBytes rs
  | readCrc a n => 4 :: bytes32 a ++ bytes32 n
  | jmpToApp => [5]

/-- The command is well formed, and its frame fits the buffer. -/
def Fits (c : Command) : Prop :=
  (frame c.payload).length ≤ 512 ∧
    match c with
    | programFlash rs => rs ≠ [] ∧ ∀ r ∈ rs, r.Fits
    | _ => True

instance : DecidablePred Fits := fun c => by
  unfold Fits
  cases c <;> infer_instance

/-- What it does to the flash. -/
def effect : Command → Nvm → Nvm
  | eraseFlash, s => s.nvmAppErase appStartAddress flashEndAddress
  | programFlash rs, s => rs.foldl HexRecord.apply s.prepared
  | _, s => s

/-- What it is answered with. -/
def Answer : Command → Bytes → Prop
  | readBootInfo, r => r = [1, 3, 7]
  | eraseFlash, r => r = [2]
  | programFlash _, r => r = [3]
  | readCrc a n, r => ∃ memory, r = 4 :: checkBytes (calculateCrc (Ram.load memory a.toNat n.toNat)).toUInt16
  | jmpToApp, r => r = [5]

theorem payload_ne_nil (c : Command) : c.payload ≠ [] := by
  cases c <;> exact List.cons_ne_nil _ _

theorem Fits.length {c : Command} (h : c.Fits) : c.payload.length + 4 ≤ 512 := by
  have hframe := h.1
  have hge := length_escaped_ge (withCheck c.payload)
  unfold frame encode at hframe
  unfold withCheck at hge
  rw [List.length_append, List.length_singleton, List.length_cons] at hframe
  rw [List.length_append] at hge
  have hcheck : (checkBytes (calculateCrc c.payload).toUInt16).length = 2 := rfl
  unfold withCheck at hframe
  omega

end Command

/-- A number of four bytes in memory. -/
theorem word32_bytes32 {m : Ram} {a : Nat} {n : UInt32} (h : Ram.load m a 4 = bytes32 n) :
    Loader.word32 m a = n := by
  obtain ⟨h₀, h⟩ := List.cons.inj (show [m a, m (a + 1), m (a + 2), m (a + 3)] = bytes32 n from h)
  obtain ⟨h₁, h⟩ := List.cons.inj h
  obtain ⟨h₂, h⟩ := List.cons.inj h
  unfold Loader.word32
  rw [h₀, h₁, h₂, (List.cons.inj h).1]
  have hn := n.toNat_lt
  refine UInt32.toNat_inj.mp ?_
  simp only [UInt32.toNat_add, UInt32.toNat_shiftLeft, UInt8.toNat_toUInt32, UInt32.toNat_toUInt8,
    UInt32.toNat_shiftRight, UInt32.reduceToNat, Nat.shiftLeft_eq, Nat.shiftRight_eq_div_pow,
    Nat.reducePow, Nat.reduceMod]
  omega

namespace Loader

variable {s : Loader} {c : Command}

/-- The command is in `procBuff`, with its check. -/
structure Holds (s : Loader) (p : Bytes) : Prop where
  len : s.cmdBuffLen.toNat = p.length + 2
  load : Ram.load s.dataBuff procBuff p.length = p

/-- The answer is in `inputBuff`, and nothing else has changed but what the command does. -/
structure Answered (s t : Loader) (c : Command) : Prop where
  state : t.currentState = .sendResponse
  prev : t.prevState = s.prevState ∨ t.prevState = .enterApplication
  waits : t.usrBufferEventComplete = s.usrBufferEventComplete
  udp : t.udp = s.udp
  nvm : t.nvm = c.effect s.nvm
  rx : t.rx = s.rx
  sent : t.sent = s.sent
  answer : ∃ r, c.Answer r ∧ r ≠ [] ∧ r.length ≤ 3 ∧ t.buffSize = UInt32.ofNat r.length ∧
    Ram.load t.dataBuff 0 r.length = r

/-- **A command is carried out and answered.** -/
theorem processBuffer_eq (hfits : c.Fits) (h : s.Holds c.payload) (env : Pass) :
    ∃ t, s.processBuffer env = some t ∧ s.Answered t c := by
  have hlen := hfits.length
  have hload := h.load
  -- the first byte of the response does not reach `procBuff`
  have hproc : ∀ (x : UInt8) (k n : Nat), Ram.load (Ram.store s.dataBuff 0 [x]) (procBuff + k) n =
      Ram.load s.dataBuff (procBuff + k) n := fun x k n =>
    Ram.load_store_of_disjoint (.inr (by
      rw [List.length_singleton]
      show 0 + 1 ≤ 512 + k
      omega))
  have hrespond : ∀ (t : Loader) (r : Bytes), r.length ≤ 3 → r ≠ [] → c.Answer r →
      (t.prevState = s.prevState ∨ t.prevState = .enterApplication) →
      t.usrBufferEventComplete = s.usrBufferEventComplete → t.udp = s.udp →
      t.nvm = c.effect s.nvm → t.rx = s.rx → t.sent = s.sent → s.Answered (t.respond r) c := by
    intro t r hr hne hanswer hprev hwaits hudp hnvm hrx hsent
    exact ⟨rfl, hprev, hwaits, hudp, hnvm, hrx, hsent, r, hanswer, hne, hr, rfl, Ram.load_store⟩
  unfold processBuffer
  dsimp only
  cases c with
  | readBootInfo =>
    have hcmd : s.dataBuff procBuff = 1 := (List.cons.inj hload).1
    rw [hcmd, if_pos rfl]
    exact ⟨_, rfl, hrespond _ _ (by decide) (List.cons_ne_nil _ _) rfl (.inl rfl) rfl rfl rfl rfl rfl⟩
  | eraseFlash =>
    have hcmd : s.dataBuff procBuff = 2 := (List.cons.inj hload).1
    rw [hcmd, if_neg (by decide), if_pos rfl]
    exact ⟨_, rfl, hrespond _ _ (by decide) (List.cons_ne_nil _ _) rfl (.inl rfl) rfl rfl rfl rfl rfl⟩
  | programFlash rs =>
    have hbytes : s.dataBuff procBuff :: Ram.load s.dataBuff (procBuff + 1) (recordsBytes rs).length =
        3 :: recordsBytes rs := (Ram.load_succ s.dataBuff procBuff _).symm.trans hload
    obtain ⟨hcmd, hrecords⟩ := List.cons.inj hbytes
    have hcount : (s.cmdBuffLen - 3).toNat = (recordsBytes rs).length := by
      have hfull : s.cmdBuffLen.toNat = (recordsBytes rs).length + 1 + 2 := h.len
      rw [UInt32.toNat_sub_of_le _ _ (UInt32.le_iff_toNat_le.mpr (by
        show 3 ≤ s.cmdBuffLen.toNat
        omega)), hfull]
      rfl
    rw [hcmd, if_neg (by decide), if_neg (by decide), if_pos rfl,
      nvmProgramHexRecord_bytes hfits.2.2 hfits.2.1 ((hproc 3 1 _).trans hrecords) hcount]
    exact ⟨_, rfl, hrespond _ _ (by decide) (List.cons_ne_nil _ _) rfl (.inl rfl) rfl rfl rfl rfl rfl⟩
  | readCrc a n =>
    have hparts : Ram.load s.dataBuff procBuff 1 ++ Ram.load s.dataBuff (procBuff + 1) 4 ++
        Ram.load s.dataBuff (procBuff + 5) 4 = [4] ++ bytes32 a ++ bytes32 n := by
      rw [← Ram.load_append, ← Ram.load_append s.dataBuff procBuff 5 4]
      exact hload
    obtain ⟨hfront, hn⟩ := List.append_inj hparts rfl
    obtain ⟨hcmd, ha⟩ := List.append_inj hfront rfl
    have hcmd : s.dataBuff procBuff = 4 := (List.cons.inj hcmd).1
    rw [hcmd, if_neg (by decide), if_neg (by decide), if_neg (by decide), if_pos rfl,
      word32_bytes32 ((hproc 4 1 4).trans ha), word32_bytes32 ((hproc 4 5 4).trans hn)]
    exact ⟨_, rfl, hrespond _ _ le_rfl (List.cons_ne_nil _ _) ⟨env.memory, rfl⟩
      (.inl rfl) rfl rfl rfl rfl rfl⟩
  | jmpToApp =>
    have hcmd : s.dataBuff procBuff = 5 := (List.cons.inj hload).1
    rw [hcmd, if_neg (by decide), if_neg (by decide), if_neg (by decide), if_neg (by decide), if_pos rfl]
    exact ⟨_, rfl, hrespond _ _ (by decide) (List.cons_ne_nil _ _) rfl (.inr rfl) rfl rfl rfl rfl rfl⟩

end Loader

end Rastreo.Boot
