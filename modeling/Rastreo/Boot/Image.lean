import Rastreo.Boot.HexFile

/-!
# The image in the flash

What the flash holds after the records of a file, when the data of the file comes in ascending order
and the bank has been erased.

`program` is what the controller makes of a byte of the flash when it programs one. Of that nothing is
used but that an erased byte takes what is programmed.
-/

namespace Rastreo.Boot

open Lib

/-! ## The flash -/

section Flash

variable (program : UInt8 → UInt8 → UInt8)

/-- An operation on the flash. -/
def NvmOp.on (op : NvmOp) (m : Ram) : Ram := fun a =>
  if op.Touches a then
    match op with
    | .pageErase _ => 0xFF
    | .rowWrite data _ => program (m a) (data.getD (a % 2048) 0)
    | .quadWordWrite data _ => program (m a) (data.getD (a % 16) 0)
  else m a

/-- The flash after some operations. -/
def flashAfter (ops : List NvmOp) (m : Ram) : Ram := ops.foldl (fun m op => op.on program m) m

end Flash

/-! ## Images -/

/-- What is given of the flash, by address. -/
abbrev Image := Nat → Option UInt8

namespace Image

/-- Nothing is given. -/
abbrev empty : Image := fun _ => none

/-- The image and a piece of data from `a` on. -/
def place (img : Image) (a : Nat) (d : Bytes) : Image := fun b =>
  if a ≤ b ∧ b < a + d.length then some (d.getD (b - a) 0) else img b

variable {img : Image} {a b : Nat} {d : Bytes}

theorem place_of_not (h : b < a ∨ a + d.length ≤ b) : img.place a d b = img b := by
  unfold place
  rw [if_neg]
  omega

theorem place_apply {i : Nat} (h : i < d.length) : img.place a d (a + i) = some d[i] := by
  unfold place
  rw [if_pos ⟨Nat.le_add_right a i, Nat.add_lt_add_left h a⟩, Nat.add_sub_cancel_left,
    List.getD_eq_getElem _ _ h]

theorem place_append (img : Image) (a : Nat) (d d' : Bytes) :
    (img.place a d).place (a + d.length) d' = img.place a (d ++ d') := by
  funext b
  unfold place
  rw [List.length_append]
  by_cases h : a + d.length ≤ b ∧ b < a + d.length + d'.length
  · rw [if_pos h, if_pos (by omega), List.getD_append_right _ _ _ _ (by omega), Nat.sub_add_eq]
  · rw [if_neg h]
    by_cases h' : a ≤ b ∧ b < a + d.length
    · rw [if_pos h', if_pos (by omega), List.getD_append _ _ _ _ (by omega)]
    · rw [if_neg h', if_neg (by omega)]

end Image

/-! ## The page that is being filled -/

/-- The image `img` reaches up to `e`: its last page is in memory, the others are in the flash. -/
structure Nvm.Paged (program : UInt8 → UInt8 → UInt8) (m : Ram) (s : Nvm) (img : Image) (e : Nat) :
    Prop where
  bank : s.InBank
  next : s.progAddr.toNat + s.buffIndex.toNat = e
  behind : ∀ a, e ≤ a → img a = none
  buff : ∀ i < 2048, s.buff i = (img (s.progAddr.toNat + i)).getD 0xFF
  flash : ∀ a, appStartAddress.toNat ≤ a → a < flashEndAddress.toNat →
    flashAfter program s.ops m a =
      if a < s.progAddr.toNat then (img a).getD 0xFF else 0xFF

section Paged

variable {program : UInt8 → UInt8 → UInt8} {m : Ram} {s : Nvm} {img : Image} {e : Nat}
  {cur : UInt32}

namespace Nvm

theorem flashAfter_nvmPageWrite (s : Nvm) (a : Nat) :
    flashAfter program s.nvmPageWrite.ops m a =
      if a / 2048 = s.progAddr.toNat / 2048 then
        program (flashAfter program s.ops m a) (s.buff (a % 2048))
      else flashAfter program s.ops m a := by
  have hbyte : (Ram.load s.buff 0 pageSize.toNat).getD (a % 2048) 0 = s.buff (a % 2048) := by
    rw [toNat_pageSize, Ram.getD_load (Nat.mod_lt a (by decide)), Nat.zero_add]
  unfold nvmPageWrite flashAfter
  rw [List.foldl_append, List.foldl_cons, List.foldl_nil, ← hbyte]
  rfl

/-- With the page programmed, the flash has the image. -/
theorem Paged.flash_nvmPageWrite (hprog : ∀ b, program 0xFF b = b) (h : s.Paged program m img e)
    {a : Nat} (hlow : appStartAddress.toNat ≤ a) (hhigh : a < flashEndAddress.toNat) :
    flashAfter program s.nvmPageWrite.ops m a = (img a).getD 0xFF := by
  have hpaged := h.bank.paged
  have hindex := h.bank.index
  have hnext := h.next
  rw [flashAfter_nvmPageWrite, h.flash a hlow hhigh]
  by_cases hpage : a / 2048 = s.progAddr.toNat / 2048
  · rw [if_pos hpage, if_neg (by omega), hprog, h.buff _ (Nat.mod_lt a (by decide)),
      show s.progAddr.toNat + a % 2048 = a by omega]
  · rw [if_neg hpage]
    split
    · rfl
    · rw [h.behind a (by omega)]
      rfl

theorem alignProgAddress_blank (h : s.buffIndex = 0) (cur : UInt32) :
    s.alignProgAddress cur = { s with progAddr := cur - cur % pageSize } := by
  unfold alignProgAddress
  dsimp only
  rw [if_neg (not_not.mpr h)]

theorem alignProgAddress_pending (h : s.buffIndex ≠ 0) (cur : UInt32) :
    s.alignProgAddress cur =
      { s with
        progAddr := cur - cur % pageSize
        buffIndex := 0
        buff := blank
        ops := s.nvmPageWrite.ops } := by
  unfold alignProgAddress
  dsimp only
  rw [if_pos h]
  rfl

/-- The page is left for a later one. -/
theorem Paged.alignProgAddress (hprog : ∀ b, program 0xFF b = b) (h : s.Paged program m img e)
    (hlow : appStartAddress ≤ cur) (hhigh : cur ≤ upperFlashSerialStart)
    (hpage : s.progAddr.toNat + 2048 ≤ cur.toNat) :
    (s.alignProgAddress cur).Paged program m img (cur.toNat - cur.toNat % 2048) := by
  have hbank := h.bank.alignProgAddress hlow hhigh
  have hpaged := h.bank.paged
  have hindex := h.bank.index
  have hnext := h.next
  have hbehind : ∀ a, cur.toNat - cur.toNat % 2048 ≤ a → img a = none := fun a ha =>
    h.behind a (by omega)
  by_cases hzero : s.buffIndex = 0
  · rw [alignProgAddress_blank hzero] at hbank ⊢
    have he : s.progAddr.toNat = e := by
      rw [hzero] at hnext
      exact hnext
    refine ⟨hbank, ?_, hbehind, fun i hi => ?_, fun a ha ha' => ?_⟩
    · show (cur - cur % pageSize).toNat + s.buffIndex.toNat = _
      rw [toNat_pageOf, hzero]
      rfl
    · show s.buff i = (img ((cur - cur % pageSize).toNat + i)).getD 0xFF
      rw [toNat_pageOf, h.buff i hi, h.behind _ (by omega), hbehind _ (by omega)]
    · show flashAfter program s.ops m a = if a < (cur - cur % pageSize).toNat then _ else _
      rw [toNat_pageOf, h.flash a ha ha']
      split
      · rw [if_pos (by omega)]
      · split
        · rw [h.behind a (by omega)]
          rfl
        · rfl
  · rw [alignProgAddress_pending hzero] at hbank ⊢
    refine ⟨hbank, ?_, hbehind, fun i hi => ?_, fun a ha ha' => ?_⟩
    · show (cur - cur % pageSize).toNat + 0 = _
      rw [toNat_pageOf]
      rfl
    · show (0xFF : UInt8) = (img ((cur - cur % pageSize).toNat + i)).getD 0xFF
      rw [toNat_pageOf, hbehind _ (by omega)]
      rfl
    · show flashAfter program s.nvmPageWrite.ops m a =
        if a < (cur - cur % pageSize).toNat then _ else _
      rw [toNat_pageOf, h.flash_nvmPageWrite hprog ha ha']
      split
      · rfl
      · rw [hbehind a (by omega)]
        rfl

@[simp] theorem progAddr_alignProgAddress (s : Nvm) (cur : UInt32) :
    (s.alignProgAddress cur).progAddr = cur - cur % pageSize := rfl

theorem buffIndex_alignProgAddress (s : Nvm) (cur : UInt32) :
    (s.alignProgAddress cur).buffIndex = 0 := by
  by_cases hzero : s.buffIndex = 0
  · rw [alignProgAddress_blank hzero]
    exact hzero
  · rw [alignProgAddress_pending hzero]

theorem prev_alignProgAddress (s : Nvm) (cur : UInt32) :
    (s.alignProgAddress cur).prevAddr = s.prevAddr ∧ (s.alignProgAddress cur).prevLen = s.prevLen := by
  by_cases hzero : s.buffIndex = 0
  · rw [alignProgAddress_blank hzero]
    exact ⟨rfl, rfl⟩
  · rw [alignProgAddress_pending hzero]
    exact ⟨rfl, rfl⟩

/-- To leave for the page one is in changes nothing. -/
theorem alignProgAddress_self (s : Nvm) (cur : UInt32) :
    (s.alignProgAddress cur).alignProgAddress cur = s.alignProgAddress cur :=
  alignProgAddress_blank (buffIndex_alignProgAddress s cur) cur

/-- The next byte goes further behind in the page. -/
theorem Paged.move (h : s.Paged program m img e) (he : e ≤ cur.toNat)
    (hpage : s.progAddr.toNat = cur.toNat - cur.toNat % 2048) :
    Nvm.Paged program m { s with buffIndex := cur % pageSize } img cur.toNat := by
  have hmod : (cur % pageSize).toNat = cur.toNat % 2048 := UInt32.toNat_mod cur pageSize
  refine ⟨h.bank.congr rfl ?_ rfl, ?_, fun a ha => h.behind a (he.trans ha), h.buff, h.flash⟩
  · rw [hmod]
    exact (Nat.mod_lt _ (by decide)).le
  · show s.progAddr.toNat + (cur % pageSize).toNat = cur.toNat
    rw [hmod, hpage]
    exact Nat.sub_add_cancel (Nat.mod_le _ _)

/-- **The page is the right one**, and has room, wherever the next byte belongs. -/
theorem Paged.makeRoom (hprog : ∀ b, program 0xFF b = b) (h : s.Paged program m img e)
    (hprev : s.prevAddr.toNat + s.prevLen.toNat = e) (he : e ≤ cur.toNat)
    (hlow : appStartAddress ≤ cur) (hhigh : cur ≤ upperFlashSerialStart) :
    (s.makeRoom cur).Paged program m img cur.toNat := by
  have hpaged := h.bank.paged
  have hindex := h.bank.index
  have hnext := h.next
  have hcur := cur.toNat_lt
  have hend : (s.prevAddr + s.prevLen).toNat = e := by
    rw [UInt32.toNat_add, hprev]
    exact Nat.mod_eq_of_lt (he.trans_lt hcur)
  unfold Nvm.makeRoom flushFull
  split
  · -- the page is full: the next one has room
    rename_i hfull
    rw [hfull] at hnext
    have hpage : s.progAddr.toNat + 2048 ≤ cur.toNat := hnext.trans_le he
    have ht := h.alignProgAddress hprog hlow hhigh hpage
    have hstay : (s.alignProgAddress cur).leave cur = s.alignProgAddress cur := by
      unfold leave
      rw [alignProgAddress_self, ite_self]
    unfold jump
    rw [hstay, (prev_alignProgAddress s cur).1, (prev_alignProgAddress s cur).2]
    split
    · exact ht.move (Nat.sub_le _ _) (toNat_pageOf cur)
    · rename_i heq
      have hcure : cur.toNat = e := by rw [← not_not.mp heq, hend]
      rw [show cur.toNat - cur.toNat % 2048 = cur.toNat by
        rw [toNat_pageSize] at hnext
        omega] at ht
      exact ht
  · unfold jump
    split
    · have hgap : (cur - (s.prevAddr + s.prevLen)).toNat = cur.toNat - e := by
        rw [UInt32.toNat_sub_of_le _ _ (UInt32.le_iff_toNat_le.mpr (hend.trans_le he)), hend]
      have hsum : (s.buffIndex + (cur - (s.prevAddr + s.prevLen))).toNat =
          s.buffIndex.toNat + (cur.toNat - e) := by
        rw [UInt32.toNat_add, hgap]
        exact Nat.mod_eq_of_lt (by omega)
      unfold leave
      split
      · rename_i hge
        have hge' := UInt32.le_iff_toNat_le.mp hge
        rw [hsum, toNat_pageSize] at hge'
        exact (h.alignProgAddress hprog hlow hhigh (by omega)).move (Nat.sub_le _ _) (toNat_pageOf cur)
      · rename_i hlt
        have hlt' := UInt32.lt_iff_toNat_lt.mp (UInt32.not_le.mp hlt)
        rw [hsum, toNat_pageSize] at hlt'
        exact h.move he (by omega)
    · rename_i heq
      have hcure : cur.toNat = e := by rw [← not_not.mp heq, hend]
      rw [hcure]
      exact h

/-- Nothing is being written. -/
structure Fresh (s : Nvm) : Prop where
  prog : s.progAddr = appStartAddress
  prev : s.prevAddr = appStartAddress
  len : s.prevLen = 0
  index : s.buffIndex = 0

/-- Between two pieces of data. -/
structure Writing (program : UInt8 → UInt8 → UInt8) (m : Ram) (s : Nvm) (img : Image) (e : Nat) :
    Prop extends s.Paged program m img e where
  prev : s.prevAddr.toNat + s.prevLen.toNat = e
  fresh : s.buffIndex = 0 → s.Fresh ∧ img = .empty

theorem toNat_curDataLen (s : Nvm) (hroom : s.buffIndex.toNat < 2048) {k : Nat} (hk : k < 256) :
    (s.curDataLen (UInt32.ofNat k)).toNat = min k (2048 - s.buffIndex.toNat) := by
  have hofNat : (UInt32.ofNat k).toNat = k := UInt32.toNat_ofNat_of_lt' (hk.trans (by decide))
  have hsum : (s.buffIndex + UInt32.ofNat k).toNat = s.buffIndex.toNat + k := by
    rw [UInt32.toNat_add, hofNat]
    exact Nat.mod_eq_of_lt (by omega)
  unfold curDataLen
  split
  · rename_i hgt
    have hgt' := UInt32.lt_iff_toNat_lt.mp hgt
    rw [hsum, toNat_pageSize] at hgt'
    rw [UInt32.toNat_sub_of_le _ _ (UInt32.le_iff_toNat_le.mpr hroom.le), toNat_pageSize]
    omega
  · rename_i hle
    have hle' := UInt32.le_iff_toNat_le.mp (UInt32.not_lt.mp hle)
    rw [hsum, toNat_pageSize] at hle'
    rw [hofNat]
    omega

/-- What fits of the data goes into the page. -/
theorem Paged.fill (h : s.Paged program m img cur.toNat) {d : Bytes} {n : UInt32}
    (hpos : 0 < n.toNat) (hlen : n.toNat ≤ d.length) (hroom : s.buffIndex.toNat + n.toNat ≤ 2048) :
    (s.fill cur d n).Writing program m (img.place cur.toNat (d.take n.toNat))
      (cur.toNat + n.toNat) := by
  have hnext := h.next
  have htake : (d.take n.toNat).length = n.toNat := by
    rw [List.length_take]
    omega
  have hindex : (s.buffIndex + n).toNat = s.buffIndex.toNat + n.toNat := by
    rw [UInt32.toNat_add]
    exact Nat.mod_eq_of_lt (by omega)
  have hbank : (s.fill cur d n).InBank := h.bank.congr rfl (hindex.trans_le hroom) rfl
  refine ⟨⟨hbank, ?_, fun a ha => ?_, fun i hi => ?_, fun a ha ha' => ?_⟩, rfl, fun hzero => ?_⟩
  · show s.progAddr.toNat + (s.buffIndex + n).toNat = _
    omega
  · rw [Image.place_of_not (.inr (by omega))]
    exact h.behind a (by omega)
  · show Ram.store s.buff s.buffIndex.toNat (d.take n.toNat) i =
      (img.place cur.toNat (d.take n.toNat) (s.progAddr.toNat + i)).getD 0xFF
    by_cases hin : s.buffIndex.toNat ≤ i ∧ i < s.buffIndex.toNat + n.toNat
    · obtain ⟨j, rfl⟩ := Nat.exists_eq_add_of_le hin.1
      have hj : j < (d.take n.toNat).length := by omega
      rw [Ram.store_apply_of_lt hj, ← Nat.add_assoc, hnext, Image.place_apply hj]
      rfl
    · rw [Ram.store_apply_of_not (by omega), Image.place_of_not (by omega)]
      exact h.buff i hi
  · show flashAfter program s.ops m a = if a < s.progAddr.toNat then _ else _
    rw [h.flash a ha ha']
    split
    · rw [Image.place_of_not (.inl (by omega))]
    · rfl
  · have hzero' : (s.buffIndex + n).toNat = 0 := congrArg UInt32.toNat hzero
    omega

end Nvm

/-! ## A file -/

theorem toNat_flashAddress (a : UInt32) :
    (flashAddress a).toNat = (2 ^ 31 + a.toNat % 2 ^ 31 + 2 ^ 20) % 2 ^ 32 := by
  have ha := a.toNat_lt
  have hor : (a ||| 0x80000000).toNat = 2 ^ 31 + a.toNat % 2 ^ 31 := by
    rw [UInt32.toNat_or]
    show a.toNat ||| 2 ^ 31 = _
    have hlow : ∀ r < 2 ^ 31, 2 ^ 31 ||| r = 2 ^ 31 + r := fun r hr =>
      (Nat.two_pow_add_eq_or_of_lt hr 1).symm
    rcases Nat.lt_or_ge a.toNat (2 ^ 31) with h | h
    · rw [Nat.mod_eq_of_lt h, Nat.or_comm, hlow _ h]
    · obtain ⟨r, hr⟩ := Nat.exists_eq_add_of_le h
      have hr' : r < 2 ^ 31 := by omega
      rw [hr, Nat.add_mod_left, Nat.mod_eq_of_lt hr', ← hlow r hr', Nat.or_comm, ← Nat.or_assoc,
        Nat.or_self]
  unfold flashAddress
  rw [UInt32.toNat_add, hor]
  rfl

theorem flashAddress_add {a n : UInt32} (h : appStartAddress ≤ flashAddress a)
    (hn : (flashAddress a).toNat + n.toNat ≤ upperFlashSerialStart.toNat) :
    flashAddress (a + n) = flashAddress a + n := by
  have hlow := UInt32.le_iff_toNat_le.mp h
  refine UInt32.toNat_inj.mp ?_
  rw [toNat_upperFlashSerialStart] at hn
  rw [toNat_appStartAddress] at hlow
  rw [UInt32.toNat_add (flashAddress a)]
  rw [toNat_flashAddress] at hlow hn ⊢
  rw [toNat_flashAddress, UInt32.toNat_add]
  omega

/-- **A data record goes into the image.** -/
theorem Nvm.Writing.dataRecord (hprog : ∀ b, program 0xFF b = b) {turns : Nat} {address : UInt32}
    {d : Bytes} (hturns : d.length ≤ turns) (hlen : d.length < 256)
    (h : s.Writing program m img e) (he : e ≤ (flashAddress address).toNat)
    (hlow : appStartAddress ≤ flashAddress address)
    (hend : (flashAddress address).toNat + d.length ≤ upperFlashSerialStart.toNat) :
    ∃ e' ≤ (flashAddress address).toNat + d.length, (s.dataRecord turns address d).Writing program m
      (img.place (flashAddress address).toNat d) e' := by
  have hnil : ∀ (img : Image) (a : Nat), img.place a [] = img := fun img a =>
    funext fun b => Image.place_of_not (by rw [List.length_nil]; omega)
  induction turns generalizing s address d img e with
  | zero =>
    obtain rfl := List.length_eq_zero_iff.mp (Nat.le_zero.mp hturns)
    rw [hnil]
    exact ⟨e, he.trans (Nat.le_add_right _ _), h⟩
  | succ turns ih =>
    unfold Nvm.dataRecord
    dsimp only
    split
    · rename_i hd
      rw [hd, hnil]
      exact ⟨e, he.trans (Nat.le_add_right _ _), h⟩
    · rename_i hd
      have hhigh : flashAddress address ≤ upperFlashSerialStart :=
        UInt32.le_iff_toNat_le.mpr ((Nat.le_add_right _ _).trans hend)
      rw [if_pos ⟨hlow, hhigh⟩]
      have hroom := h.makeRoom hprog h.prev he hlow hhigh
      have hlt := (h.bank.makeRoom hlow hhigh).2
      have hn := toNat_curDataLen (s.makeRoom (flashAddress address)) hlt hlen
      have hdpos := List.length_pos_iff.mpr hd
      generalize (s.makeRoom (flashAddress address)).curDataLen (UInt32.ofNat d.length) = n at hn ⊢
      have hfill := hroom.fill (d := d) (n := n) (by omega) (by omega) (by omega)
      have hnext := flashAddress_add hlow (by omega : (flashAddress address).toNat + n.toNat ≤ _)
      have hnextNat : (flashAddress (address + n)).toNat = (flashAddress address).toNat + n.toNat := by
        rw [hnext, UInt32.toNat_add]
        exact Nat.mod_eq_of_lt (by
          rw [toNat_upperFlashSerialStart] at hend
          omega)
      have hdrop : (d.drop n.toNat).length = d.length - n.toNat := List.length_drop
      obtain ⟨e', he', hw⟩ := ih (by omega : (d.drop n.toNat).length ≤ turns) (by omega)
        hfill hnextNat.ge (UInt32.le_iff_toNat_le.mpr (by
          have := UInt32.le_iff_toNat_le.mp hlow
          omega)) (by omega)
      refine ⟨e', by omega, ?_⟩
      have htake : (d.take n.toNat).length = n.toNat := by
        rw [List.length_take]
        omega
      have hplace := Image.place_append img (flashAddress address).toNat (d.take n.toNat)
        (d.drop n.toNat)
      rw [htake, List.take_append_drop] at hplace
      rw [hnextNat, hplace] at hw
      exact hw

/-- The base address after a record. -/
def HexRecord.base (b : UInt32) : HexRecord → UInt32
  | data .. => b
  | extSegment a => a.toUInt32 <<< 4
  | extLinear a => a.toUInt32 <<< 16
  | endOfFile | startLinear .. => 0

/-- The data of some records, with its addresses in the flash. -/
def pieces : UInt32 → List HexRecord → List (UInt32 × Bytes)
  | _, [] => []
  | b, .data a d :: rs => (flashAddress (b + a.toUInt32), d) :: pieces b rs
  | b, r :: rs => pieces (r.base b) rs

/-- The pieces follow each other from `e` on, before the page of the serial number. -/
def Ascends : Nat → List (UInt32 × Bytes) → Prop
  | _, [] => True
  | e, (a, d) :: ps => e ≤ a.toNat ∧ a.toNat + d.length ≤ upperFlashSerialStart.toNat ∧
      Ascends (a.toNat + d.length) ps

instance Ascends.decidable : ∀ (e : Nat) (ps : List (UInt32 × Bytes)), Decidable (Ascends e ps)
  | _, [] => .isTrue trivial
  | _, (a, d) :: ps =>
    have := Ascends.decidable (a.toNat + d.length) ps
    inferInstanceAs (Decidable (_ ∧ _ ∧ _))

/-- The image and pieces of data, one after another. -/
def Image.over (img : Image) (ps : List (UInt32 × Bytes)) : Image :=
  ps.foldl (fun img p => img.place p.1.toNat p.2) img

namespace Nvm

/-- Nothing else matters. -/
theorem Writing.congr {t : Nvm} (h : s.Writing program m img e) (hprog : t.progAddr = s.progAddr)
    (hprev : t.prevAddr = s.prevAddr) (hlen : t.prevLen = s.prevLen)
    (hindex : t.buffIndex = s.buffIndex) (hbuff : t.buff = s.buff) (hops : t.ops = s.ops) :
    t.Writing program m img e where
  bank := h.bank.congr hprog (hindex ▸ h.bank.index) hops
  next := by rw [hprog, hindex, h.next]
  behind := h.behind
  buff := by rw [hprog, hbuff]; exact h.buff
  flash := by rw [hprog, hops]; exact h.flash
  prev := by rw [hprev, hlen, h.prev]
  fresh := fun hzero => by
    obtain ⟨hfresh, himg⟩ := h.fresh (hindex ▸ hzero)
    exact ⟨⟨hprog.trans hfresh.prog, hprev.trans hfresh.prev, hlen.trans hfresh.len,
      hindex.trans hfresh.index⟩, himg⟩

/-- The records of a file go into the image. -/
theorem Writing.records (hprog : ∀ b, program 0xFF b = b) {rs : List HexRecord} {b : UInt32} {u : Nat}
    (hfits : ∀ r ∈ rs, r.Fits) (hno : .endOfFile ∉ rs) (h : s.Writing program m img e)
    (hb : s.extLinAddress + s.extSegAddress = b) (hu : e ≤ u) (hlow : appStartAddress.toNat ≤ u)
    (hasc : Ascends u (pieces b rs)) :
    ∃ e', (rs.foldl HexRecord.apply s).Writing program m (img.over (pieces b rs)) e' := by
  induction rs generalizing s b u e img with
  | nil => exact ⟨e, h⟩
  | cons r rs ih =>
    rw [List.mem_cons, not_or] at hno
    rw [List.forall_mem_cons] at hfits
    obtain ⟨hfit, hfits⟩ := hfits
    rw [List.foldl_cons]
    cases r with
    | data a d =>
      rw [pieces, Ascends] at hasc
      obtain ⟨hle, hend, hasc⟩ := hasc
      rw [pieces, Image.over, List.foldl_cons, ← Image.over]
      have haddr : a.toUInt32 + s.extLinAddress + s.extSegAddress = b + a.toUInt32 := by
        rw [← hb, UInt32.add_assoc, UInt32.add_comm]
      have htype : Nvm.Writing program m { s with recType := 0 } img e :=
        h.congr rfl rfl rfl rfl rfl rfl
      have hfit : d.length < 256 := hfit
      obtain ⟨e', he', hw⟩ := Nvm.Writing.dataRecord hprog (Nat.lt_succ_iff.mp hfit) hfit htype
        (hu.trans hle) (UInt32.le_iff_toNat_le.mpr (hlow.trans hle))
        hend
      have happly : (HexRecord.data a d).apply s =
          Nvm.dataRecord 255 (b + a.toUInt32) d { s with recType := 0 } := by
        rw [← haddr]
        rfl
      obtain ⟨hseg, hlin⟩ := ext_dataRecord 255 (b + a.toUInt32) d { s with recType := 0 }
      rw [← happly] at hw hseg hlin
      have hbase : ((HexRecord.data a d).apply s).extLinAddress +
          ((HexRecord.data a d).apply s).extSegAddress = b :=
        (congrArg₂ (· + ·) hlin hseg).trans hb
      generalize (HexRecord.data a d).apply s = t at hw hbase ⊢
      exact ih hfits hno.2 hw hbase he' (hlow.trans (hle.trans (Nat.le_add_right _ _))) hasc
    | endOfFile => exact absurd rfl hno.1
    | extSegment a =>
      exact ih hfits hno.2 (h.congr rfl rfl rfl rfl rfl rfl) (UInt32.zero_add _) hu hlow hasc
    | extLinear a =>
      exact ih hfits hno.2 (h.congr rfl rfl rfl rfl rfl rfl) (UInt32.add_zero _) hu hlow hasc
    | startLinear a a' =>
      exact ih hfits hno.2 (h.congr rfl rfl rfl rfl rfl rfl) (UInt32.add_zero _) hu hlow hasc

/-- Between two files. -/
structure Clean (s : Nvm) : Prop extends s.Fresh where
  buff : ∀ i < 2048, s.buff i = 0xFF
  seg : s.extSegAddress = 0
  lin : s.extLinAddress = 0
  ops : ∀ op ∈ s.ops, op.InBank

theorem Clean.writing (h : s.Clean) (herased : ∀ a, appStartAddress.toNat ≤ a →
    a < flashEndAddress.toNat → flashAfter program s.ops m a = 0xFF) :
    s.Writing program m .empty appStartAddress.toNat := by
  refine ⟨⟨⟨?_, ?_, ?_, ?_, h.ops⟩, ?_, fun _ _ => rfl, h.buff, fun a ha ha' => ?_⟩, ?_,
    fun _ => ⟨h.toFresh, rfl⟩⟩
  · rw [h.prog]
    decide
  · rw [h.prog]
  · rw [h.prog]
    decide
  · rw [h.index]
    decide
  · rw [h.prog, h.index]
    rfl
  · rw [herased a ha ha']
    exact (ite_self _).symm
  · rw [h.prev, h.len]
    rfl

/-- **The end of a file**: the flash has the image. -/
theorem Writing.endOfFile (hprog : ∀ b, program 0xFF b = b) (h : s.Writing program m img e) :
    s.endOfFile.Clean ∧ ∀ a, appStartAddress.toNat ≤ a → a < flashEndAddress.toNat →
      flashAfter program s.endOfFile.ops m a = (img a).getD 0xFF := by
  have hrow := h.bank.nvmPageWrite.ops
  by_cases hpos : s.buffIndex > 0
  · have heof : s.endOfFile =
        { s with
          buffIndex := 0
          prevLen := 0
          progAddr := appStartAddress
          prevAddr := appStartAddress
          buff := blank
          extSegAddress := 0
          extLinAddress := 0
          ops := s.nvmPageWrite.ops } := by
      unfold Nvm.endOfFile
      rw [if_pos hpos]
      rfl
    rw [heof]
    exact ⟨⟨⟨rfl, rfl, rfl, rfl⟩, fun _ _ => rfl, rfl, rfl, hrow⟩, fun a ha ha' =>
      h.flash_nvmPageWrite hprog ha ha'⟩
  · have hzero : s.buffIndex = 0 := UInt32.toNat_inj.mp (Nat.le_zero.mp (by
      have := UInt32.le_iff_toNat_le.mp (UInt32.not_lt.mp hpos)
      exact this))
    obtain ⟨hfresh, himg⟩ := h.fresh hzero
    have heof : s.endOfFile = { s with extSegAddress := 0, extLinAddress := 0 } := by
      unfold Nvm.endOfFile
      rw [if_neg hpos]
    rw [heof]
    refine ⟨⟨⟨hfresh.prog, hfresh.prev, hfresh.len, hfresh.index⟩, fun i hi => ?_, rfl, rfl,
      h.bank.ops⟩, fun a ha ha' => ?_⟩
    · rw [h.buff i hi, himg]
      rfl
    · rw [h.flash a ha ha', himg]
      exact ite_self _

/-- **A whole file**: with the bank erased, the flash has the image of the file and nothing else. -/
theorem Clean.file (hprog : ∀ b, program 0xFF b = b) (h : s.Clean)
    (herased : ∀ a, appStartAddress.toNat ≤ a → a < flashEndAddress.toNat →
      flashAfter program s.ops m a = 0xFF)
    {rs : List HexRecord} (hfits : ∀ r ∈ rs, r.Fits) (hno : HexRecord.endOfFile ∉ rs)
    (hasc : Ascends appStartAddress.toNat (pieces 0 rs)) :
    ((rs ++ [HexRecord.endOfFile]).foldl HexRecord.apply s).Clean ∧
      ∀ a, appStartAddress.toNat ≤ a → a < flashEndAddress.toNat →
        flashAfter program ((rs ++ [HexRecord.endOfFile]).foldl HexRecord.apply s).ops m a =
          (Image.over .empty (pieces 0 rs) a).getD 0xFF := by
  have hb : s.extLinAddress + s.extSegAddress = 0 := by
    rw [h.lin, h.seg]
    rfl
  obtain ⟨e, hw⟩ := (h.writing herased).records hprog hfits hno hb le_rfl le_rfl hasc
  rw [List.foldl_append, List.foldl_cons, List.foldl_nil]
  exact (hw.congr (t := { rs.foldl HexRecord.apply s with recType := 1 }) rfl rfl rfl rfl rfl
    rfl).endOfFile hprog

end Nvm

end Paged

end Rastreo.Boot
