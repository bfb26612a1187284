import Rastreo.Boot.Exchange
import Rastreo.Boot.Image

/-!
# An update of the firmware

* **`inBank_of_run`**: whatever datagrams arrive, and however the calls fall, nothing is erased or
  programmed but the bank that is not running.
* **`updated`**: a host that has the bank erased and sends a file, in as many commands as it likes,
  finds the image of the file in the flash when the last command has been answered.
* `stale_page`: after an update that was broken off, the next one finds a page of it in the flash.
-/

namespace Rastreo.Boot

open Lib

/-! ## Whatever arrives -/

namespace Loader

variable {s t : Loader}

theorem nvm_handlerLoop (context turns i : Nat) (s : Loader) :
    (handlerLoop context turns i s).nvm = s.nvm := by
  induction turns generalizing i s with
  | zero => rfl
  | succ turns ih =>
    unfold handlerLoop
    split
    · split
      · rfl
      · split
        · exact ih _ _
        · split
          · split
            · rfl
            · exact ih _ _
          · split
            · exact ih _ _
            · exact ih _ _
    · rfl

theorem nvm_datastreamTasks (env : Pass) (s : Loader) : (s.datastreamTasks env).nvm = s.nvm := by
  have htransmit : (s.transmit env).nvm = s.nvm := by
    unfold transmit
    split
    · exact nvm_handlerLoop _ _ _ _
    · rfl
  have hreceive : ∀ t : Loader, t.receive.nvm = t.nvm := by
    intro t
    unfold receive
    split
    · split
      · rfl
      · exact nvm_handlerLoop _ _ _ _
    · rfl
  unfold datastreamTasks
  split
  · rfl
  · exact (hreceive _).trans htransmit

theorem inBank_processBuffer {env : Pass} (h : s.nvm.InBank) (ht : s.processBuffer env = some t) :
    t.nvm.InBank := by
  unfold processBuffer at ht
  dsimp only at ht
  split at ht
  · obtain rfl := Option.some.inj ht
    exact h
  · split at ht
    · obtain rfl := Option.some.inj ht
      exact h.nvmAppErase
    · split at ht
      · have hprog := h.nvmProgramHexRecord (Ram.store s.dataBuff 0 [s.dataBuff procBuff]) (procBuff + 1)
          (s.cmdBuffLen - 3)
        split at ht
        · cases ht
        · rename_i heq
          obtain rfl := Option.some.inj ht
          rw [heq] at hprog
          exact hprog
        · rename_i heq
          obtain rfl := Option.some.inj ht
          rw [heq] at hprog
          exact hprog
      · split at ht
        · obtain rfl := Option.some.inj ht
          exact h
        · split at ht
          · obtain rfl := Option.some.inj ht
            exact h
          · obtain rfl := Option.some.inj ht
            exact h

theorem inBank_switch {env : Pass} (h : s.nvm.InBank) (ht : s.switch env = some t) : t.nvm.InBank := by
  unfold switch at ht
  split at ht
  · have hopen : (s.datastreamOpen env).1.nvm = s.nvm := by
      unfold datastreamOpen
      split
      · rcases openLoop_cases env 0 env.netAddress s with ⟨f, hf⟩ | ⟨f, hf⟩
        · rw [hf]
        · rw [hf]
      · rfl
    obtain rfl := Option.some.inj ht
    dsimp only
    split
    · exact hopen ▸ h
    · exact hopen ▸ h
  · obtain rfl := Option.some.inj ht
    split
    · exact h
    · exact h
  · obtain rfl := Option.some.inj ht
    split
    · exact h
    · exact h
  · exact inBank_processBuffer h ht
  · obtain rfl := Option.some.inj ht
    unfold sendResponse
    split
    · exact h
    · exact h
  · obtain rfl := Option.some.inj ht
    exact h
  · obtain rfl := Option.some.inj ht
    exact h
  · obtain rfl := Option.some.inj ht
    exact h

theorem inBank_of_step {e : Event} (h : s.nvm.InBank) (hstep : step s e = some t) : t.nvm.InBank := by
  cases e with
  | arrives d =>
    obtain rfl := Option.some.inj hstep
    exact h
  | pass env =>
    obtain ⟨u, hu, rfl⟩ := Option.map_eq_some_iff.mp hstep
    rw [nvm_datastreamTasks]
    exact inBank_switch h hu

end Loader

/-! ## Erasing -/

section Erase

variable {program : UInt8 → UInt8 → UInt8}

theorem flashAfter_append (program : UInt8 → UInt8 → UInt8) (ops ops' : List NvmOp) (m : Ram) :
    flashAfter program (ops ++ ops') m = flashAfter program ops' (flashAfter program ops m) :=
  List.foldl_append

/-- What is erased stays erased while more is. -/
theorem flashAfter_eraseLoop_of_erased (e : UInt32) (turns : Nat) (a : UInt32) {m : Ram} {b : Nat}
    (h : m b = 0xFF) : flashAfter program (eraseLoop e turns a) m b = 0xFF := by
  induction turns generalizing a m with
  | zero => exact h
  | succ turns ih =>
    unfold eraseLoop
    split
    · refine ih _ ?_
      show (if NvmOp.Touches _ b then _ else m b) = 0xFF
      rw [h]
      exact ite_self _
    · exact h

theorem flashAfter_eraseLoop {turns : Nat} {a : UInt32} (hblock : a.toNat % 16384 = 0)
    (hturns : flashEndAddress.toNat ≤ a.toNat + 16384 * turns) (m : Ram) {b : Nat} (ha : a.toNat ≤ b)
    (hb : b < flashEndAddress.toNat) :
    flashAfter program (eraseLoop flashEndAddress turns a) m b = 0xFF := by
  induction turns generalizing a m with
  | zero => omega
  | succ turns ih =>
    have hend := toNat_flashEndAddress
    have hlt : a < flashEndAddress := UInt32.lt_iff_toNat_lt.mpr (ha.trans_lt hb)
    have hnext : (a + eraseBlockSize).toNat = a.toNat + 16384 := by
      rw [UInt32.toNat_add]
      exact Nat.mod_eq_of_lt (by
        show a.toNat + 16384 < 2 ^ 32
        omega)
    unfold eraseLoop
    rw [if_pos hlt]
    by_cases hin : b < a.toNat + 16384
    · refine flashAfter_eraseLoop_of_erased _ _ _ ?_
      have htouches : (NvmOp.pageErase a).Touches b := by
        show b / 16384 = a.toNat / 16384
        omega
      exact if_pos htouches
    · exact ih (by omega) (by omega) _ (by omega)

/-- **The bank is blank after the command to erase it.** -/
theorem flashAfter_nvmAppErase (s : Nvm) (m : Ram) {b : Nat} (hb : appStartAddress.toNat ≤ b)
    (hb' : b < flashEndAddress.toNat) :
    flashAfter program (s.nvmAppErase appStartAddress flashEndAddress).ops m b = 0xFF := by
  unfold Nvm.nvmAppErase
  rw [flashAfter_append]
  exact flashAfter_eraseLoop (by decide) (by decide) _ hb hb'

end Erase

/-! ## A file in commands -/

theorem prepared_of_done {s : Nvm} (h : s.nvmDataInitDone = true) : s.prepared = s := by
  unfold Nvm.prepared
  rw [h, if_neg Bool.noConfusion]

theorem nvmDataInitDone_prepared (s : Nvm) : s.prepared.nvmDataInitDone = true := by
  unfold Nvm.prepared
  split
  · rfl
  · rename_i h
    exact Bool.eq_true_of_not_eq_false h

theorem nvmDataInitDone_apply (s : Nvm) (r : HexRecord) :
    (r.apply s).nvmDataInitDone = s.nvmDataInitDone := by
  cases r with
  | data a d =>
    have h := Nvm.kept_dataRecord 255 (a.toUInt32 + s.extLinAddress + s.extSegAddress) d
      { s with recType := 0 }
    unfold Nvm.kept at h
    simp only [Prod.mk.injEq] at h
    exact h.2.2.2
  | endOfFile =>
    unfold HexRecord.apply Nvm.endOfFile
    dsimp only
    split <;> rfl
  | extSegment a => rfl
  | extLinear a => rfl
  | startLinear a b => rfl

theorem nvmDataInitDone_foldl {s : Nvm} (h : s.nvmDataInitDone = true) (rs : List HexRecord) :
    (rs.foldl HexRecord.apply s).nvmDataInitDone = true := by
  induction rs generalizing s with
  | nil => exact h
  | cons r rs ih => exact ih ((nvmDataInitDone_apply s r).trans h)

/-- The records of some commands are one row of records. -/
theorem foldl_programFlash {groups : List (List HexRecord)} {s : Nvm} (h : s.nvmDataInitDone = true) :
    (groups.map Command.programFlash).foldl (fun s c => c.effect s) s =
      groups.flatten.foldl HexRecord.apply s := by
  induction groups generalizing s with
  | nil => rfl
  | cons g groups ih =>
    rw [List.map_cons, List.foldl_cons, List.flatten_cons, List.foldl_append]
    show (groups.map Command.programFlash).foldl _ (g.foldl HexRecord.apply s.prepared) = _
    rw [prepared_of_done h]
    exact ih (nvmDataInitDone_foldl h g)

theorem prepared_prepared (s : Nvm) : s.prepared.prepared = s.prepared :=
  prepared_of_done (nvmDataInitDone_prepared s)

theorem prepared_nvmAppErase (s : Nvm) (a b : UInt32) :
    (s.nvmAppErase a b).prepared = s.prepared.nvmAppErase a b := by
  unfold Nvm.prepared Nvm.nvmAppErase
  dsimp only
  split <;> rfl

theorem Nvm.Clean.nvmAppErase {s : Nvm} (h : s.Clean) :
    (s.nvmAppErase appStartAddress flashEndAddress).Clean where
  toFresh := ⟨h.prog, h.prev, h.len, h.index⟩
  buff := h.buff
  seg := h.seg
  lin := h.lin
  ops := fun op hop => (List.mem_append.mp hop).elim (h.ops op)
    (inBank_eraseLoop _ le_rfl (by decide) op)

/-- The commands of an update, on an NVM that nothing is pending for. -/
theorem effects_update (before : List Command) {groups : List (List HexRecord)} (hne : groups ≠ []) :
    effects (before ++ .eraseFlash :: groups.map .programFlash) =
      groups.flatten.foldl HexRecord.apply
        ((effects before).prepared.nvmAppErase appStartAddress flashEndAddress) := by
  obtain ⟨g, gs, rfl⟩ := List.exists_cons_of_ne_nil hne
  unfold effects
  rw [List.foldl_append, ← effects, List.foldl_cons, List.map_cons, List.foldl_cons]
  have hfirst : (Command.programFlash g).effect (Command.eraseFlash.effect (effects before)) =
      (Command.programFlash g).effect
        ((effects before).prepared.nvmAppErase appStartAddress flashEndAddress) := by
    show g.foldl HexRecord.apply ((effects before).nvmAppErase _ _).prepared =
      g.foldl HexRecord.apply ((effects before).prepared.nvmAppErase _ _).prepared
    rw [prepared_nvmAppErase, prepared_nvmAppErase, prepared_prepared]
  have hdone : ((effects before).prepared.nvmAppErase appStartAddress
      flashEndAddress).nvmDataInitDone = true := nvmDataInitDone_prepared (effects before)
  have hrest : ((g :: gs).map Command.programFlash).foldl (fun s c => c.effect s) _ = _ :=
    foldl_programFlash hdone
  rw [List.map_cons, List.foldl_cons] at hrest
  rw [hfirst]
  exact hrest

/-! ## The update -/

/-- `T_FLASH_SERIAL`. -/
def flashSerial (serial : UInt32) : Bytes :=
  bytes32 0xDEADBEEF ++ bytes32 serial ++ bytes32 0xBEEFDEAD ++ bytes32 0

/-- `bootloader_GetLowerFlashSerial`, at `LOWER_FLASH_SERIAL_READ`. -/
def getLowerFlashSerial (memory : Ram) : UInt32 := Loader.word32 memory (0xbd0ff800 + 4)

/-- `bootloader_UpdateUpperFlashSerial`, all that `bootloader_SwapAndReset` does before the reset. -/
def updateUpperFlashSerial (memory : Ram) (s : Nvm) : Nvm :=
  { s with ops := s.ops ++
      [.quadWordWrite (flashSerial (getLowerFlashSerial memory + 1)) upperFlashSerialStart] }

section Update

variable {program : UInt8 → UInt8 → UInt8} {es : List Exchange.Event} {x : Exchange}
  {before : List Command} {groups : List (List HexRecord)} {rs : List HexRecord}

/-- The image of a file ends before the page of the serial number. -/
theorem over_eq_none {e : Nat} {img : Image} (himg : ∀ a, e ≤ a → img a = none)
    {ps : List (UInt32 × Bytes)} (hasc : Ascends e ps) (he : e ≤ upperFlashSerialStart.toNat) {a : Nat}
    (ha : upperFlashSerialStart.toNat ≤ a) : img.over ps a = none := by
  induction ps generalizing e img with
  | nil => exact himg a (he.trans ha)
  | cons p ps ih =>
    obtain ⟨b, d⟩ := p
    rw [Ascends] at hasc
    obtain ⟨hle, hend, hasc⟩ := hasc
    unfold Image.over
    rw [List.foldl_cons, ← Image.over]
    refine ih (fun a ha => ?_) hasc hend
    rw [Image.place_of_not (.inr ha)]
    exact himg a (by omega)

/-- **An update**: when the last of its commands has been answered, the bank holds the image of the
file, and everything else of it is blank; and the loader is ready for the next update. -/
theorem updated (hprog : ∀ b, program 0xFF b = b) (hrun : Lib.run Exchange.step {} es = some x)
    (hasked : x.asked = before ++ .eraseFlash :: groups.map .programFlash)
    (hall : x.loader.sent.length = x.asked.length) (hclean : (effects before).prepared.Clean)
    (hfile : groups.flatten = rs ++ [.endOfFile]) (hno : HexRecord.endOfFile ∉ rs)
    (hasc : Ascends appStartAddress.toNat (pieces 0 rs)) (m : Ram) :
    x.loader.nvm.prepared.Clean ∧ ∀ a, appStartAddress.toNat ≤ a → a < flashEndAddress.toNat →
      flashAfter program x.loader.nvm.ops m a = (Image.over .empty (pieces 0 rs) a).getD 0xFF := by
  obtain ⟨cs, bs, c, n, h⟩ := Exchange.inv_of_run hrun
  obtain rfl := h.none_of_length hall
  have hne : groups ≠ [] := fun hnil => by
    rw [hnil] at hfile
    exact List.append_ne_nil_of_right_ne_nil rs (List.cons_ne_nil _ _) hfile.symm
  have hnvm : x.loader.nvm = effects x.asked := by
    rw [h.nvm (h.stage.bounds.2.2 rfl), h.asked]
    exact congrArg effects (List.append_nil cs).symm
  rw [hasked, effects_update before hne, hfile] at hnvm
  have hfits : ∀ r ∈ rs, r.Fits := fun r hr => by
    have hmem : r ∈ groups.flatten := by
      rw [hfile]
      exact List.mem_append_left _ hr
    obtain ⟨g, hg, hr⟩ := List.mem_flatten.mp hmem
    have hfit := h.fits (.programFlash g) (by
      rw [hasked]
      exact List.mem_append_right _ (List.mem_cons_of_mem _ (List.mem_map_of_mem hg)))
    exact hfit.2.2 r hr
  obtain ⟨hend, himage⟩ := hclean.nvmAppErase.file hprog
    (fun a ha ha' => flashAfter_nvmAppErase (effects before).prepared m ha ha') hfits hno hasc
  rw [← hnvm] at hend himage
  refine ⟨?_, himage⟩
  have herased : ((effects before).prepared.nvmAppErase appStartAddress
      flashEndAddress).nvmDataInitDone = true := nvmDataInitDone_prepared (effects before)
  have hdone : x.loader.nvm.nvmDataInitDone = true := by
    rw [hnvm]
    exact nvmDataInitDone_foldl herased _
  rw [prepared_of_done hdone]
  exact hend

/-- Three bytes, in two commands. -/
def smallFile : List (List HexRecord) :=
  [[.extLinear 0x1d00, .data 0 [1, 2]], [.data 2 [3], .endOfFile]]

/-- The update with this file: one pass to open the socket, then each command and its passes. -/
def smallUpdate : List Exchange.Event :=
  [.pass Exchange.readyPass, .asks .eraseFlash] ++ List.replicate 6 (.pass Exchange.readyPass) ++
    smallFile.flatMap fun g => .asks (.programFlash g) :: List.replicate 6 (.pass Exchange.readyPass)

/-- The page that is left pending is programmed as soon as data for another page comes. -/
theorem makeRoom_other {s : Nvm} {cur : UInt32} (hpending : s.buffIndex ≠ 0)
    (hindex : s.buffIndex.toNat ≤ 2048) (hpaged : s.progAddr.toNat % 2048 = 0)
    (hnext : s.prevAddr.toNat + s.prevLen.toNat = s.progAddr.toNat + s.buffIndex.toNat)
    (hbelow : s.progAddr.toNat + 4096 < 2 ^ 32)
    (hother : cur.toNat / 2048 ≠ s.progAddr.toNat / 2048) :
    (s.makeRoom cur).ops = s.nvmPageWrite.ops ∧
      (s.makeRoom cur).buffIndex.toNat = cur.toNat % 2048 := by
  have halign : (s.alignProgAddress cur).ops = s.nvmPageWrite.ops := by
    rw [Nvm.alignProgAddress_pending hpending]
  have hmod : (cur % pageSize).toNat = cur.toNat % 2048 := UInt32.toNat_mod cur pageSize
  have hend : (s.prevAddr + s.prevLen).toNat = s.progAddr.toNat + s.buffIndex.toNat := by
    rw [UInt32.toNat_add, hnext]
    exact Nat.mod_eq_of_lt (by omega)
  have hcur := cur.toNat_lt
  unfold Nvm.makeRoom Nvm.flushFull
  split
  · rename_i hfull
    have hleave : (s.alignProgAddress cur).leave cur = s.alignProgAddress cur := by
      unfold Nvm.leave
      rw [Nvm.alignProgAddress_self, ite_self]
    have hfull' : s.buffIndex.toNat = 2048 := congrArg UInt32.toNat hfull
    unfold Nvm.jump
    rw [hleave, (Nvm.prev_alignProgAddress s cur).1, (Nvm.prev_alignProgAddress s cur).2]
    split
    · exact ⟨halign, hmod⟩
    · rename_i hstay
      have hcure : cur.toNat = s.progAddr.toNat + s.buffIndex.toNat := by
        rw [← not_not.mp hstay, hend]
      refine ⟨halign, ?_⟩
      rw [Nvm.buffIndex_alignProgAddress]
      show 0 = _
      omega
  · rename_i hfull
    have hlt : s.buffIndex.toNat < 2048 :=
      lt_of_le_of_ne hindex fun h => hfull (UInt32.toNat_inj.mp h)
    have hjump : s.prevAddr + s.prevLen ≠ cur := fun h => by
      rw [h] at hend
      omega
    have hleave : s.buffIndex + (cur - (s.prevAddr + s.prevLen)) ≥ pageSize := by
      refine UInt32.le_iff_toNat_le.mpr ?_
      rw [UInt32.toNat_add, UInt32.toNat_sub, hend, toNat_pageSize]
      omega
    unfold Nvm.jump
    rw [if_pos hjump]
    unfold Nvm.leave
    rw [if_pos hleave]
    exact ⟨halign, hmod⟩

/-- One turn of a data record. -/
theorem dataRecord_turn {s : Nvm} {address : UInt32} {d : Bytes} (hd : d ≠ [])
    (hlow : appStartAddress ≤ flashAddress address) (hhigh : flashAddress address ≤ upperFlashSerialStart)
    {n : UInt32} (hn : (s.makeRoom (flashAddress address)).curDataLen (UInt32.ofNat d.length) = n)
    (turns : Nat) :
    s.dataRecord (turns + 1) address d =
      ((s.makeRoom (flashAddress address)).fill (flashAddress address) d n).dataRecord turns
        (address + n) (d.drop n.toNat) := by
  generalize hrest : Nvm.dataRecord turns (address + n) (d.drop n.toNat) _ = t
  unfold Nvm.dataRecord
  dsimp only
  rw [if_neg hd, if_pos ⟨hlow, hhigh⟩, hn]
  exact hrest

theorem dataRecord_nil (turns : Nat) (address : UInt32) (s : Nvm) : s.dataRecord turns address [] = s := by
  unfold Nvm.dataRecord
  split
  · rfl
  · exact if_pos rfl

@[simp] theorem ops_fill (s : Nvm) (cur : UInt32) (d : Bytes) (n : UInt32) :
    (s.fill cur d n).ops = s.ops := rfl

/-- Data that fits into the page programs nothing more. -/
theorem ops_dataRecord {s : Nvm} {address : UInt32} {d : Bytes} (hd : d ≠ []) (hlen : d.length < 256)
    (hlow : appStartAddress ≤ flashAddress address) (hhigh : flashAddress address ≤ upperFlashSerialStart)
    (hroom : (s.makeRoom (flashAddress address)).buffIndex.toNat + d.length ≤ 2048) (turns : Nat) :
    (s.dataRecord (turns + 1) address d).ops = (s.makeRoom (flashAddress address)).ops := by
  have hpos := List.length_pos_iff.mpr hd
  have hn : ((s.makeRoom (flashAddress address)).curDataLen (UInt32.ofNat d.length)).toNat =
      d.length := by
    rw [Nvm.toNat_curDataLen _ (by omega) hlen]
    omega
  rw [dataRecord_turn hd hlow hhigh rfl, hn, List.drop_length, dataRecord_nil, ops_fill]

/-- An update that is broken off after a command. -/
def brokenOff : List Command := [.programFlash [.extLinear 0x1d00, .data 0 [1, 2]]]

/-- The file of the next update, on the page after. -/
def newFile : List HexRecord := [.extLinear 0x1d00, .data 0x800 [3]]

/-- The update that is broken off, then a whole one. -/
def brokenUpdate : List Exchange.Event :=
  .pass Exchange.readyPass ::
    (brokenOff ++ [Command.eraseFlash, .programFlash newFile]).flatMap fun c =>
      .asks c :: List.replicate 6 (.pass Exchange.readyPass)

end Update

end Rastreo.Boot
