import Rastreo.Drv.Sst26Read

/-!
# Where a transfer writes (`drv_sst26.c`)

The peripheral writes what it receives to `bd_bufaddr`, as many bytes as `bd_ctrl` says. The
identification goes into `jedecID` and `securityID`, the status register into the one byte of
`statusRegVal`, and the data of a read into the caller's buffer.

* `Inside`: a descriptor writes inside the object that the operation reads into.
* `Contained`: the receiving descriptors that a step starts do, and ask for as many bytes as the
  caller was promised.
* `Sized` is the condition on a step: the handle that is opened has not lost its chip select, which
  is part of the same word, the status is asked for with a length of one byte at most, and a read is
  not longer than its descriptors.
* **`contained_iff`**: the steps of a run are contained exactly when they are sized.
-/

namespace Rastreo.Drv

open Rastreo.Lib

/-! ## The property and the condition -/

/-- `JEDEC_ID_SIZE`. -/
def jedecIdSize : ℕ := 4

/-- `SECURITY_ID_SIZE`. -/
def securityIdSize : ℕ := 8

/-- The descriptor writes inside the object that the operation reads into. -/
def Inside : SstEvent → SqiDesc → Prop
  | .openIndex _ _, x =>
    x.bdBufaddr = some .jedecID ∧ x.bdCtrl.length ≤ jedecIdSize ∨
      x.bdBufaddr = some .securityID ∧ x.bdCtrl.length ≤ securityIdSize
  | .readStatus _ _, x => x.bdBufaddr = some .statusRegVal ∧ x.bdCtrl.length ≤ 1
  | .read _ rxData n _, x => ∃ a, x.bdBufaddr = some (.caller a) ∧ rxData ≤ a ∧
      a + x.bdCtrl.length ≤ rxData + n.toNat
  | _, _ => True

/-- The bytes for which a call returns `true`. -/
def promised (d : Sst26) : SstEvent → Option ℕ
  | .readStatus h n => if (drvSst26ReadStatus h n d).1 then some n.toNat else none
  | .read h rxData n address =>
    if (drvSst26Read h rxData n address d).1 then some n.toNat else none
  | _ => none

/-- The chains started between the two states. -/
def newly (d d' : Sst26) : List Started :=
  d'.started.take (d'.started.length - d.started.length)

/-- What the step receives stays where it belongs, and is as much as was promised. -/
def Contained (d : Sst26) (e : SstEvent) : Prop := ∀ d', sstStep d e = some d' →
  (∀ s ∈ newly d d', ∀ x ∈ s.descs, x.bdCtrl.receives = true → Inside e x) ∧
    ∀ n, promised d e = some n → ((newly d d').map fun s => received s.descs).sum = n

/-- The lengths fit. -/
def Sized (d : Sst26) : SstEvent → Prop
  | .openIndex index _ =>
    d.status = .ready → index < maxHandles → (d.handle index).cs ≠ sqiInvalidCsValue
  | .readStatus h n => checkHandle d h = true → n.toNat ≤ 1
  | .read h _ n _ => checkHandle d h = true → n.toNat ≤ sst26PageSize * buffDescNumber
  | _ => True

instance (d : Sst26) : ∀ e, Decidable (Sized d e)
  | .openIndex index _ => inferInstanceAs (Decidable
      (d.status = .ready → index < maxHandles → (d.handle index).cs ≠ sqiInvalidCsValue))
  | .readStatus h n => inferInstanceAs (Decidable (checkHandle d h = true → n.toNat ≤ 1))
  | .read h _ n _ => inferInstanceAs (Decidable
      (checkHandle d h = true → n.toNat ≤ sst26PageSize * buffDescNumber))
  | .init | .close _ | .unlock _ | .pageWrite _ _ _ | .sectorErase _ _ | .bulkErase _ _
  | .chipErase _ | .completed => .isTrue trivial

/-! ## Descriptors -/

section Descriptors

variable {cs : UInt32} {x : SqiDesc}

/-- A command is sent. -/
theorem Command.sends (hcs : KnownCs cs) (hc : Command cs x) : x.bdCtrl.receives = false := by
  obtain rfl | rfl | rfl := hcs
  all_goals
    cases hc with
    | single => decide
    | wren => decide
    | data n hn =>
      obtain rfl | rfl := hn
      · decide
      · decide

/-- With the chip select of a memory, the identification is received into its two objects. -/
theorem Identifies.inside {index : ℕ} {jedec : Jedec} (hcs : KnownCs cs)
    (hvalid : cs ≠ sqiInvalidCsValue) (hx : Identifies cs x) (hr : x.bdCtrl.receives = true) :
    Inside (.openIndex index jedec) x := by
  cases hx with
  | command hc =>
    rw [hc.sends hcs] at hr
    cases hr
  | unlock =>
    obtain rfl | rfl | rfl := hcs
    · cases hr
    · cases hr
    · cases hr
  | jedec =>
    refine .inl ⟨rfl, ?_⟩
    obtain rfl | rfl | rfl := hcs
    · decide
    · decide
    · exact absurd rfl hvalid
  | security =>
    refine .inr ⟨rfl, ?_⟩
    obtain rfl | rfl | rfl := hcs
    · decide
    · decide
    · exact absurd rfl hvalid

theorem receives_statusDesc (n cs : UInt32) : (statusDesc n cs).bdCtrl.receives = true := by
  have hdir : (sqiEnd ||| sqiLaneMode ||| sqiDirRead) &&& sqiDirRead = sqiDirRead := by decide
  unfold BdCtrl.receives BdCtrl.word statusDesc
  dsimp only
  rw [or_and_mask, or_and_mask, hdir]
  simp only [ne_eq, UInt32.or_eq_zero_iff, decide_not, Bool.not_eq_true', decide_eq_false_iff_not]
  intro h
  exact absurd h.1.2 (by decide)

theorem length_statusDesc (n : UInt32) (hcs : cs &&& bufflenMask = 0) :
    (statusDesc n cs).bdCtrl.length = n.toNat % 65536 := by
  have hflags : (sqiEnd ||| sqiLaneMode ||| sqiDirRead) &&& bufflenMask = 0 := by decide
  unfold BdCtrl.length BdCtrl.word statusDesc
  dsimp only
  rw [or_and_mask, or_and_mask, hflags, hcs, UInt32.or_zero, UInt32.or_zero, UInt32.toNat_and]
  exact Nat.and_two_pow_sub_one_eq_mod n.toNat 16

/-- The chip selects of the memories have no bit of a length or of a direction. -/
theorem KnownCs.masks (hcs : KnownCs cs) (hvalid : cs ≠ sqiInvalidCsValue) :
    cs &&& bufflenMask = 0 ∧ cs &&& sqiDirRead = 0 := by
  obtain rfl | rfl | rfl := hcs
  · decide
  · decide
  · exact absurd rfl hvalid

theorem newly_eq {d d' : Sst26} {new : List Started} (h : d'.started = new ++ d.started) :
    newly d d' = new := by
  unfold newly
  rw [h, List.length_append, Nat.add_sub_cancel, List.take_left]

theorem newly_self (d : Sst26) : newly d d = [] := newly_eq (List.nil_append _).symm

end Descriptors

/-! ## What is left in the first descriptor -/

section Links

variable (h : ℕ) (d : Sst26)

theorem next_unlockFlash : ((unlockFlash h d).desc (.cmd 0)).bdNxtptr = some (.cmd 1) := rfl

theorem next_erase (n : UInt32) : ((erase h n d).desc (.cmd 0)).bdNxtptr = some (.cmd 1) := rfl

theorem next_readSecurityId :
    ((readSecurityId h d).desc (.cmd 0)).bdNxtptr = some (.buf 0) := rfl

theorem next_identify (jedec : Jedec) :
    ((identify h jedec d).desc (.cmd 0)).bdNxtptr = some (.buf 0) := rfl

end Links

/-- `sqiCmdDesc[0]` leads to another descriptor. -/
def Linked (d : Sst26) : Prop := (d.desc (.cmd 0)).bdNxtptr ≠ none

/-- An open handle has a chip select, and what has opened it has left a command that leads to
another descriptor. -/
structure ReceiveInv (d : Sst26) : Prop where
  leftover : Leftover d
  opened : ∀ h, (d.handle h).opened = true → (d.handle h).cs ≠ sqiInvalidCsValue ∧ Linked d

section Steps

variable {d d' : Sst26} {h : ℕ} {P : SqiDesc → Prop}

theorem linked_open {i : ℕ} (jedec : Jedec) (ha : d.status = .ready ∧ i < maxHandles) :
    Linked (drvSst26Open i jedec d).2 := by
  have hid : Linked (identify i jedec d) := by
    unfold Linked
    rw [next_identify]
    simp
  unfold drvSst26Open
  rw [if_neg (by simp [ha.1]), if_neg (Nat.not_le.mpr ha.2)]
  dsimp only
  split
  · split
    · split
      · show ((readSecurityId i _).desc (.cmd 0)).bdNxtptr ≠ none
        rw [next_readSecurityId]
        simp
      · exact hid
    · exact hid
  · exact hid

/-- A call on a handle that is not turned away leaves such a command where there was one. -/
theorem linked_of_step {e : SstEvent} (hl : Linked d) (hs : sstStep d e = some d') :
    Linked d' := by
  have herase : ∀ (h : ℕ) (instruction : Bytes), Linked (eraseWith h instruction d).2 := by
    intro h instruction
    unfold eraseWith
    split
    · unfold Linked
      rw [next_erase]
      simp
    · exact hl
  cases e with
  | init =>
    obtain rfl := Option.some.inj hs
    unfold drvSst26Initialize
    split
    · exact hl
    · exact hl
  | openIndex i jedec =>
    obtain rfl := Option.some.inj hs
    by_cases ha : d.status = .ready ∧ i < maxHandles
    · exact linked_open jedec ha
    · rw [open_refused jedec ha]
      exact hl
  | close h =>
    obtain rfl := Option.some.inj hs
    unfold drvSst26Close
    split
    · exact hl
    · exact hl
  | unlock h =>
    obtain rfl := Option.some.inj hs
    unfold drvSst26UnlockFlash
    split
    · unfold Linked
      rw [next_unlockFlash]
      simp
    · exact hl
  | readStatus h n =>
    obtain rfl := Option.some.inj hs
    unfold drvSst26ReadStatus
    split
    · exact fun hnone => by cases hnone
    · exact hl
  | read h rx n a =>
    obtain rfl := Option.some.inj hs
    unfold drvSst26Read
    split
    · rw [if_pos (by omega)]
      obtain ⟨-, hsame, -⟩ := readDescs_spec h rx n (putCmd (readCmd a) (startTransfer d))
      show ((readDescs h rx n (putCmd (readCmd a) (startTransfer d))).desc (.cmd 0)).bdNxtptr ≠ none
      rw [hsame]
      exact hl
    · exact hl
  | pageWrite h tx a =>
    obtain rfl := Option.some.inj hs
    unfold drvSst26PageWrite
    split
    · exact fun hnone => by cases hnone
    · exact hl
  | sectorErase h a =>
    obtain rfl := Option.some.inj hs
    exact herase h _
  | bulkErase h a =>
    obtain rfl := Option.some.inj hs
    exact herase h _
  | chipErase h =>
    obtain rfl := Option.some.inj hs
    exact herase h _
  | completed =>
    unfold sstStep at hs
    obtain ⟨-, hs⟩ := Option.ite_none_right_eq_some.mp hs
    obtain rfl := Option.some.inj hs
    exact hl

theorem receiveInv_of_step (e : SstEvent) (hI : ReceiveInv d) (hsz : Sized d e)
    (hs : sstStep d e = some d') : ReceiveInv d' := by
  refine ⟨leftover_of_step e hI.leftover hs, fun i ho => ?_⟩
  -- a handle that was open before
  have hkept : (d.handle i).opened = true → (d'.handle i).cs = (d.handle i).cs →
      (d'.handle i).cs ≠ sqiInvalidCsValue ∧ Linked d' := by
    intro ho hcs
    rw [hcs]
    exact ⟨(hI.opened i ho).1, linked_of_step (hI.opened i ho).2 hs⟩
  have hblocks : ∀ {h : ℕ} {P : SqiDesc → Prop}, checkHandle d h = true → Blocks h P d d' →
      (d'.handle i).cs ≠ sqiInvalidCsValue ∧ Linked d' := by
    intro h P hc hb
    refine hkept ?_ (hb.cs i)
    by_cases hih : i = h
    · rw [hih]
      exact (checkHandle_iff.mp hc).2.2.2
    · rw [← hb.opened i hih]
      exact ho
  have hstarts : ∀ {h : ℕ} {l : List SqiDesc}, Starts h l d d' →
      (d'.handle i).cs ≠ sqiInvalidCsValue ∧ Linked d' := by
    intro h l hstart
    refine hkept ?_ (by rw [hstart.handle])
    rw [← hstart.handle]
    exact ho
  cases effect_of_step hI.leftover.links hs with
  | refused => exact hI.opened i ho
  | init h =>
    obtain ⟨h₀, h₁, hother⟩ := handle_init h
    by_cases hi : maxHandles ≤ i
    · rw [hother i hi] at ho
      exact hkept ho (by rw [hother i hi])
    · unfold maxHandles at hi
      have hlt : i < 2 := Nat.not_le.mp hi
      interval_cases i
      · rw [h₀] at ho
        cases ho
      · rw [h₁] at ho
        cases ho
  | openIndex j jedec _ ha hb =>
    by_cases hij : i = j
    · subst hij
      rw [hb.cs i]
      refine ⟨hsz ha.1 ha.2, ?_⟩
      rw [← Option.some.inj hs]
      exact linked_open jedec ha
    · rw [hb.opened i hij] at ho
      exact hkept ho (hb.cs i)
  | close h hc =>
    by_cases hih : i = h
    · subst hih
      simp [putHandle, initHandleData] at ho
    · simp only [putHandle, Function.update_of_ne hih] at ho
      exact hkept ho (by simp only [putHandle, Function.update_of_ne hih])
  | unlock h _ hc hb => exact hblocks hc hb
  | readStatus h n d₁ x hc hx hstart hcmd =>
    have hb : Blocks h (fun _ => True) d (awaitTransfer d₁) :=
      hstart.await (List.cons_ne_nil _ _) (fun _ _ => trivial) hcmd
    exact hblocks hc hb
  | writes _ h l _ _ hc hu hstart => exact hstarts hstart
  | read h rx n a l _ hc hu hstart => exact hstarts hstart
  | completed => exact hkept ho rfl

theorem receiveInv_zero : ReceiveInv sst26Zero where
  leftover := ⟨fun _ => .inl rfl, .inl rfl⟩
  opened _ ho := by cases ho

/-! ## The steps -/

/-- The chains that `DRV_SST26_Open` starts last receive an ID. -/
theorem head_open {i : ℕ} (jedec : Jedec) (ha : d.status = .ready ∧ i < maxHandles) :
    ∃ s rest, (drvSst26Open i jedec d).2.started = s :: rest ∧
      (jedecDesc (d.handle i).cs ∈ s.descs ∨ securityDesc (d.handle i).cs ∈ s.descs) := by
  have hid : ∃ s rest, (identify i jedec d).started = s :: rest ∧
      jedecDesc (d.handle i).cs ∈ s.descs := by
    let d₀ := putHandle i { d.handle i with opened := false } d
    have hb : Blocks i (Identifies (d₀.handle i).cs) d₀
        (unlockFlash i (enableQuadIo i (resetFlash i d₀))) :=
      ((blocks_resetFlash i _).andThen (blocks_enableQuadIo i _)).andThen (blocks_unlockFlash i _)
    have hcs : ((unlockFlash i (enableQuadIo i (resetFlash i d₀))).handle i).cs =
        (d.handle i).cs :=
      (hb.cs i).trans (@cs_putHandle i d { d.handle i with opened := false } rfl i)
    obtain ⟨bs, hstarted⟩ := (starts_answered i [0xAF, 0xFF] (.inl rfl) (jedecDesc
      ((unlockFlash i (enableQuadIo i (resetFlash i d₀))).handle i).cs) _ rfl).started
    refine ⟨_, _, hstarted, ?_⟩
    rw [← hcs]
    simp
  unfold drvSst26Open
  rw [if_neg (by simp [ha.1]), if_neg (Nat.not_le.mpr ha.2)]
  dsimp only
  obtain ⟨s, rest, hstarted, hs⟩ := hid
  have hjedec : ∃ s rest, (identify i jedec d).started = s :: rest ∧
      (jedecDesc (d.handle i).cs ∈ s.descs ∨ securityDesc (d.handle i).cs ∈ s.descs) :=
    ⟨s, rest, hstarted, .inl hs⟩
  split
  · split
    · split
      · obtain ⟨bs, hsec⟩ := (starts_answered i [0x88, 0, 0, 0xFF, 0xFF, 0xFF] (.inr rfl)
          (securityDesc ((identify i jedec d).handle i).cs) (identify i jedec d) rfl).started
        refine ⟨_, _, hsec, .inr ?_⟩
        rw [← (blocks_identify i jedec d).cs i]
        simp
      · exact hjedec
    · exact hjedec
  · exact hjedec

/-- A call that is turned away starts nothing. -/
theorem contained_refused {e : SstEvent} (hs : sstStep d e = some d) (hp : promised d e = none) :
    Contained d e := by
  intro d' hs'
  obtain rfl := Option.some.inj (hs.symm.trans hs')
  rw [newly_self, hp]
  exact ⟨fun s hs => (List.not_mem_nil hs).elim, fun n hn => by cases hn⟩

/-- A call that starts one chain is contained when that chain is. -/
theorem contained_started {e : SstEvent} {s : Started} {n : ℕ} (hs : sstStep d e = some d')
    (hnew : newly d d' = [s]) (hp : promised d e = some n) : Contained d e ↔
      (∀ x ∈ s.descs, x.bdCtrl.receives = true → Inside e x) ∧ received s.descs = n := by
  constructor
  · intro hc
    obtain ⟨hin, hex⟩ := hc d' hs
    have hsum := hex n hp
    rw [hnew] at hin hsum
    refine ⟨hin s List.mem_cons_self, ?_⟩
    rwa [List.map_singleton, List.sum_singleton] at hsum
  · rintro ⟨hin, hex⟩ d₁ hs₁
    obtain rfl := Option.some.inj (hs.symm.trans hs₁)
    rw [hnew]
    refine ⟨fun t ht => ?_, fun k hk => ?_⟩
    · obtain rfl := List.mem_singleton.mp ht
      exact hin
    · rw [List.map_singleton, List.sum_singleton, hex]
      exact Option.some.inj (hp.symm.trans hk)

/-- **An open that has lost its chip select overruns the buffer of an ID.** -/
theorem contained_open (hI : ReceiveInv d) (i : ℕ) (jedec : Jedec) :
    Contained d (.openIndex i jedec) ↔ Sized d (.openIndex i jedec) := by
  by_cases ha : d.status = .ready ∧ i < maxHandles
  · obtain ⟨new, hne, hstarted, hown⟩ := (blocks_open jedec ha).started
    have hnew := newly_eq hstarted
    constructor
    · intro hc hready hi hinvalid
      obtain ⟨hin, -⟩ := hc _ rfl
      obtain ⟨s, rest, hhead, hx⟩ := head_open jedec ha
      rw [hinvalid] at hx
      have hs : s ∈ newly d (drvSst26Open i jedec d).2 := by
        rw [hnew]
        obtain ⟨t, new', rfl⟩ := List.exists_cons_of_ne_nil hne
        rw [hhead] at hstarted
        rw [(List.cons.inj hstarted).1]
        exact List.mem_cons_self
      have hnot : ∀ x : SqiDesc, x ∈ s.descs → x.bdCtrl.receives = true →
          8 < x.bdCtrl.length → False := by
        intro x hx hr hlen
        obtain ⟨-, hle⟩ | ⟨-, hle⟩ := hin s hs x hx hr
        · unfold jedecIdSize at hle
          omega
        · unfold securityIdSize at hle
          omega
      obtain hx | hx := hx
      · exact hnot _ hx (by decide) (by decide)
      · exact hnot _ hx (by decide) (by decide)
    · intro hsz d' hs
      obtain rfl := Option.some.inj hs
      rw [hnew]
      refine ⟨fun s hs x hx hr => ?_, fun n hn => by cases hn⟩
      exact ((hown s hs).2.2.2 x hx).inside (hI.leftover.cs i) (hsz ha.1 ha.2) hr
  · constructor
    · intro _ hready hi
      exact absurd ⟨hready, hi⟩ ha
    · intro _
      refine contained_refused ?_ rfl
      show some (drvSst26Open i jedec d).2 = some d
      rw [open_refused jedec ha]

/-- **The status register has one byte.** -/
theorem contained_readStatus (hI : ReceiveInv d) (h : ℕ) (n : UInt32) :
    Contained d (.readStatus h n) ↔ Sized d (.readStatus h n) := by
  by_cases hc : checkHandle d h = true
  · obtain ⟨-, -, -, ho⟩ := checkHandle_iff.mp hc
    have hknown := hI.leftover.cs h
    obtain ⟨hlen, -⟩ := hknown.masks (hI.opened h ho).1
    obtain ⟨bs, hstarted⟩ := (starts_answered h [0x05, 0xFF] (.inl rfl)
      (statusDesc n (d.handle h).cs) d rfl).started
    have hnew : newly d (drvSst26ReadStatus h n d).2 = [⟨h, d.inFlight,
        [cmdDesc 2 (sqiLaneMode ||| sqiDescEn) (d.handle h).cs (some (.buf 0)),
          statusDesc n (d.handle h).cs], bs⟩] := by
      refine newly_eq ?_
      unfold drvSst26ReadStatus
      rw [if_pos hc]
      exact (started_awaitTransfer _).trans hstarted
    have hpromised : promised d (.readStatus h n) = some n.toNat := by
      show (if (drvSst26ReadStatus h n d).1 then some n.toNat else none) = _
      unfold drvSst26ReadStatus
      rw [if_pos hc]
      rfl
    have hsends := (Command.data 2 (.inl rfl) : Command (d.handle h).cs _).sends hknown
    have hreceives := receives_statusDesc n (d.handle h).cs
    have hreceived : received [cmdDesc 2 (sqiLaneMode ||| sqiDescEn) (d.handle h).cs (some (.buf 0)),
        statusDesc n (d.handle h).cs] = n.toNat % 65536 := by
      rw [received_cons_sends hsends, received_cons hreceives, length_statusDesc n hlen]
      rfl
    refine (contained_started rfl hnew hpromised).trans ?_
    rw [hreceived]
    constructor
    · rintro ⟨hin, hex⟩ _
      have hone := (hin _ (by simp) hreceives).2
      rw [length_statusDesc n hlen] at hone
      omega
    · intro hsz
      have hone := hsz hc
      refine ⟨fun x hx hr => ?_, by omega⟩
      obtain rfl | hx := List.mem_cons.mp hx
      · rw [hsends] at hr
        cases hr
      · obtain rfl := List.mem_singleton.mp hx
        refine ⟨rfl, ?_⟩
        rw [length_statusDesc n hlen]
        omega
  · have hsame : drvSst26ReadStatus h n d = (false, d) := by
      unfold drvSst26ReadStatus
      rw [if_neg hc]
    constructor
    · intro _ hc'
      exact absurd hc' hc
    · intro _
      refine contained_refused ?_ ?_
      · show some (drvSst26ReadStatus h n d).2 = some d
        rw [hsame]
      · show (if (drvSst26ReadStatus h n d).1 then some n.toNat else none) = none
        rw [hsame]
        rfl

/-- **A read has as many bytes as it has descriptors for.** -/
theorem contained_read (hI : ReceiveInv d) (h rxData : ℕ) (n address : UInt32) :
    Contained d (.read h rxData n address) ↔ Sized d (.read h rxData n address) := by
  by_cases hc : checkHandle d h = true
  · obtain ⟨-, -, -, ho⟩ := checkHandle_iff.mp hc
    have hknown := hI.leftover.cs h
    obtain ⟨hlen, hdir⟩ := hknown.masks (hI.opened h ho).1
    have hread : drvSst26Read h rxData n address d = (true, dmaTransfer h (.cmd 0)
        (readDescs h rxData n (putCmd (readCmd address) (startTransfer d)))) := by
      unfold drvSst26Read
      rw [if_pos hc, if_pos (by omega)]
    obtain ⟨data, l, -, hcover, hl, hstart⟩ :=
      starts_read_data hI.leftover.links h rxData n (readCmd address)
    have hcover := hcover hlen hdir
    -- the first descriptor leads on, so that the data descriptors are reached
    have hl : l = readCmdDesc (d.handle h).cs :: data ∨ l = data := by
      obtain ⟨hnone, -⟩ | hl := hl
      · exact absurd hnone (hI.opened h ho).2
      · exact hl
    obtain ⟨bs, hstarted⟩ := hstart.started
    have hnew : newly d (drvSst26Read h rxData n address d).2 =
        [⟨h, d.inFlight, d.desc (.cmd 0) :: l, bs⟩] := by
      rw [hread]
      exact newly_eq hstarted
    have hpromised : promised d (.read h rxData n address) = some n.toNat := by
      show (if (drvSst26Read h rxData n address d).1 then some n.toNat else none) = _
      rw [hread]
      rfl
    have hfirst : (d.desc (.cmd 0)).bdCtrl.receives = false := by
      obtain hz | ⟨cs, hcs, hcmd⟩ := hI.leftover.command
      · rw [hz]
        decide
      · exact hcmd.sends hcs
    have hsecond : (readCmdDesc (d.handle h).cs).bdCtrl.receives = false := by
      obtain hcs | hcs | hcs := hknown
      all_goals
        rw [hcs]
        decide
    have hreceived : received (d.desc (.cmd 0) :: l) =
        min n.toNat (sst26PageSize * buffDescNumber) := by
      rw [received_cons_sends hfirst]
      obtain rfl | rfl := hl
      · rw [received_cons_sends hsecond, received_of_covers hcover]
      · exact received_of_covers hcover
    refine (contained_started rfl hnew hpromised).trans ?_
    rw [hreceived]
    constructor
    · rintro ⟨-, hex⟩ _
      omega
    · intro hsz
      have hle := hsz hc
      refine ⟨fun x hx hr => ?_, by omega⟩
      have hx : x ∈ data := by
        obtain rfl | hx := List.mem_cons.mp hx
        · rw [hfirst] at hr
          cases hr
        · obtain rfl | rfl := hl
          · obtain rfl | hx := List.mem_cons.mp hx
            · rw [hsecond] at hr
              cases hr
            · exact hx
          · exact hx
      obtain ⟨a, haddr, hfrom, hto⟩ := inside_of_covers hcover x hx
      exact ⟨a, haddr, hfrom, by omega⟩
  · have hsame : drvSst26Read h rxData n address d = (false, d) := by
      unfold drvSst26Read
      rw [if_neg hc]
    constructor
    · intro _ hc'
      exact absurd hc' hc
    · intro _
      refine contained_refused ?_ ?_
      · show some (drvSst26Read h rxData n address d).2 = some d
        rw [hsame]
      · show (if (drvSst26Read h rxData n address d).1 then some n.toNat else none) = none
        rw [hsame]
        rfl

theorem contained_iff_sized (hI : ReceiveInv d) (e : SstEvent) : Contained d e ↔ Sized d e := by
  cases e with
  | openIndex i jedec => exact contained_open hI i jedec
  | readStatus h n => exact contained_readStatus hI h n
  | read h rx n a => exact contained_read hI h rx n a
  | _ => exact ⟨fun _ => trivial, fun _ _ _ => ⟨fun _ _ _ _ _ => trivial, fun n hn => by cases hn⟩⟩

/-- **Every transfer of a run receives into its own object**, as much as was promised, exactly when
every step is sized. -/
theorem contained_iff {es : List SstEvent} :
    Along sstStep Contained sst26Zero es ↔ Along sstStep Sized sst26Zero es := by
  constructor
  · exact along_of_inv (fun s e s' hI hc hs => receiveInv_of_step e hI
      ((contained_iff_sized hI e).mp hc) hs) (fun s e hI hc => (contained_iff_sized hI e).mp hc)
      receiveInv_zero
  · exact along_of_inv (fun s e s' hI hsz hs => receiveInv_of_step e hI hsz hs)
      (fun s e hI hsz => (contained_iff_sized hI e).mpr hsz) receiveInv_zero

end Steps

/-! ## A run -/

/-- A memory of 64 Mbit is opened. -/
def opened64Mbit : List SstEvent := [.init, .openIndex 0 ⟨0xBF, 0x26, 0x43, 0⟩]

/-- Four bytes of its status are asked for. -/
theorem not_contained_status : ¬ ∀ es : List SstEvent, Along sstStep Contained sst26Zero es := by
  intro hall
  have hrun : (run sstStep sst26Zero opened64Mbit).map (fun d => checkHandle d 0) = some true := by
    decide +kernel
  obtain ⟨d, hd, hc⟩ := Option.map_eq_some_iff.mp hrun
  have hsized : Along sstStep Sized sst26Zero opened64Mbit := by decide +kernel
  have hI : ReceiveInv d :=
    inv_of_run (fun _ e _ => receiveInv_of_step e) receiveInv_zero hsized hd
  have hstatus : Contained d (.readStatus 0 4) :=
    (along_of_append (hall (opened64Mbit ++ [.readStatus 0 4])) hd).1
  exact absurd ((contained_readStatus hI 0 4).mp hstatus hc) (by decide)

end Rastreo.Drv
