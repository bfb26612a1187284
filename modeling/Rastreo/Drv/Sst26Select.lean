import Rastreo.Drv.Sst26Chains

/-!
# The chip select of a device (`drv_sst26.c`)

`DRV_SST26_Initialize` gives each handle its chip select, and every operation takes it from there.
`DRV_SST26_Close` puts `SQI_INVALID_CS_VALUE` in its place, and no operation puts it back.

* `Carries`: the chip select is the operand of the control word and what the peripheral reads.
* `AllSelected`: every chain started for a device carries the configured chip select throughout.
* `Selects` is the condition on a step: an open finds the configured chip select in the handle, a
  read finds it in the `sqiCmdDesc[0]` that was left over, and the length given to a status read has
  no bit of another.
* `selected_iff`: a run selects the right device all along exactly when its steps meet it.
-/

namespace Rastreo.Drv

open Rastreo.Lib

/-- The chip select that `DRV_SST26_Initialize` gives to a device. -/
def configured : ℕ → UInt32
  | 0 => sqiCs0
  | 1 => sqiCs1
  | _ => sqiInvalidCsValue

/-- The control word has the chip select, and the peripheral reads it there. -/
def Carries (c : BdCtrl) (cs : UInt32) : Prop := c.cs = cs ∧ c.sqics = cs

instance (c : BdCtrl) (cs : UInt32) : Decidable (Carries c cs) := by
  unfold Carries
  infer_instance

/-- Every chain carries the chip select of its device throughout. -/
def AllSelected (d : Sst26) : Prop :=
  ∀ s ∈ d.started, ∀ x ∈ s.descs, Carries x.bdCtrl (configured s.device)

instance (d : Sst26) : Decidable (AllSelected d) := by unfold AllSelected; infer_instance

/-- The step finds the chip select where it takes it from. -/
def Selects (d : Sst26) : SstEvent → Prop
  | .openIndex index _ => d.status = .ready → index < maxHandles →
      (d.handle index).cs = configured index
  | .read h _ _ _ => checkHandle d h = true → Carries (d.desc (.cmd 0)).bdCtrl (configured h)
  | .readStatus h n => checkHandle d h = true →
      (n &&& sqicsMask) ||| configured h = configured h
  | _ => True

instance (d : Sst26) : ∀ e, Decidable (Selects d e)
  | .openIndex index _ => inferInstanceAs (Decidable
      (d.status = .ready → index < maxHandles → (d.handle index).cs = configured index))
  | .read h _ _ _ => inferInstanceAs (Decidable
      (checkHandle d h = true → Carries (d.desc (.cmd 0)).bdCtrl (configured h)))
  | .readStatus h n => inferInstanceAs (Decidable
      (checkHandle d h = true → (n &&& sqicsMask) ||| configured h = configured h))
  | .init | .close _ | .unlock _ | .pageWrite _ _ _ | .sectorErase _ _ | .bulkErase _ _
  | .chipErase _ | .completed => .isTrue trivial

/-- What is known of the handles. -/
structure SelectInv (d : Sst26) : Prop where
  links : Links d
  opened : ∀ h, h < maxHandles → (d.handle h).opened = true → (d.handle h).cs = configured h
  started : AllSelected d

section Words

variable {cs : UInt32} {x : SqiDesc} {h : ℕ}

theorem configured_masked (hh : h < maxHandles) : configured h &&& sqicsMask = configured h := by
  unfold maxHandles at hh
  interval_cases h
  · decide
  · decide

/-- A descriptor that uses a chip select carries it. -/
theorem Uses.carries (hu : Uses cs x) (hcs : cs &&& sqicsMask = cs) : Carries x.bdCtrl cs := by
  obtain ⟨hx, hrest⟩ := hu
  refine ⟨hx, ?_⟩
  unfold BdCtrl.sqics BdCtrl.word
  rw [or_and_mask, hrest, hx, hcs, UInt32.zero_or]

/-- A length given to `DRV_SST26_ReadStatus` is in the word as it is. -/
theorem carries_statusDesc_iff (n : UInt32) (hcs : cs &&& sqicsMask = cs) :
    Carries (statusDesc n cs).bdCtrl cs ↔ (n &&& sqicsMask) ||| cs = cs := by
  have hflags : (sqiEnd ||| sqiLaneMode ||| sqiDirRead) &&& sqicsMask = 0 := by decide
  have hword : (statusDesc n cs).bdCtrl.sqics = (n &&& sqicsMask) ||| cs := by
    unfold BdCtrl.sqics BdCtrl.word statusDesc
    dsimp only
    rw [or_and_mask, or_and_mask, hflags, hcs, UInt32.or_zero]
  unfold Carries
  rw [hword]
  exact and_iff_right rfl

end Words

section Steps

variable {d d' : Sst26} {h : ℕ} {l : List SqiDesc}

/-- The handle of a call that is not turned away. -/
theorem SelectInv.cs_of_checked (hI : SelectInv d) (hc : checkHandle d h = true) :
    h < maxHandles ∧ (d.handle h).cs = configured h := by
  obtain ⟨-, -, hh, ho⟩ := checkHandle_iff.mp hc
  exact ⟨hh, hI.opened h hh ho⟩

theorem SelectInv.starts (hI : SelectInv d) (hl : Links d') (hs : Starts h l d d')
    (hsel : ∀ x ∈ l, Carries x.bdCtrl (configured h)) : SelectInv d' where
  links := hl
  opened i hi ho := by
    rw [hs.handle] at ho ⊢
    exact hI.opened i hi ho
  started := by
    obtain ⟨bs, hstarted⟩ := hs.started
    unfold AllSelected
    rw [hstarted]
    exact List.forall_mem_cons.mpr ⟨hsel, hI.started⟩

theorem SelectInv.blocks (hI : SelectInv d) (hl : Links d')
    (hcs : (d.handle h).cs = configured h)
    (hb : Blocks h (fun x => Carries x.bdCtrl (configured h)) d d') : SelectInv d' where
  links := hl
  opened i hi ho := by
    rw [hb.cs i]
    by_cases hih : i = h
    · rw [hih]
      exact hcs
    · rw [hb.opened i hih] at ho
      exact hI.opened i hi ho
  started := by
    obtain ⟨new, -, hstarted, hown⟩ := hb.started
    unfold AllSelected
    rw [hstarted]
    intro s hs
    obtain hs | hs := List.mem_append.mp hs
    · obtain ⟨hdev, -, -, hsel⟩ := hown s hs
      rw [hdev]
      exact hsel
    · exact hI.started s hs

theorem selectInv_of_step (e : SstEvent) (hI : SelectInv d) (hsel : Selects d e)
    (hs : sstStep d e = some d') : SelectInv d' := by
  have he := effect_of_step hI.links hs
  have hl : Links d' := hI.links.effect he
  -- the configured chip select is all that these descriptors need
  have huses : ∀ {h : ℕ} {x : SqiDesc}, h < maxHandles → (d.handle h).cs = configured h →
      Uses (d.handle h).cs x → Carries x.bdCtrl (configured h) := by
    intro h x hh hcs hu
    rw [hcs] at hu
    exact hu.carries (configured_masked hh)
  cases he with
  | refused => exact hI
  | init h =>
    refine ⟨hl, fun i hi ho => ?_, ?_⟩
    · obtain ⟨h₀, h₁, -⟩ := handle_init h
      unfold maxHandles at hi
      interval_cases i
      · rw [h₀] at ho
        cases ho
      · rw [h₁] at ho
        cases ho
    · rw [init_eq h]
      exact hI.started
  | openIndex i jedec _ ha hb =>
    have hcs := hsel ha.1 ha.2
    exact hI.blocks hl hcs (hb.mono fun _ => huses ha.2 hcs)
  | close h hc =>
    refine ⟨hl, fun i hi ho => ?_, hI.started⟩
    by_cases hih : i = h
    · subst hih
      simp [putHandle, initHandleData] at ho
    · simp only [putHandle, Function.update_of_ne hih] at ho ⊢
      exact hI.opened i hi ho
  | unlock h _ hc hb =>
    obtain ⟨hh, hcs⟩ := hI.cs_of_checked hc
    exact hI.blocks hl hcs (hb.mono fun _ => huses hh hcs)
  | readStatus h n d₁ x hc hx hstart hcmd =>
    obtain ⟨hh, hcs⟩ := hI.cs_of_checked hc
    refine hI.blocks hl hcs (hstart.await (List.cons_ne_nil _ _) ?_ hcmd)
    refine forall_pair (huses hh hcs hx) ?_
    rw [hcs]
    exact (carries_statusDesc_iff n (configured_masked hh)).mpr (hsel hc)
  | writes _ h l _ hw hc hu hstart =>
    obtain ⟨hh, hcs⟩ := hI.cs_of_checked hc
    exact hI.starts hl hstart fun x hx => huses hh hcs (hu x hx)
  | read h rx n a l _ hc hu hstart =>
    obtain ⟨hh, hcs⟩ := hI.cs_of_checked hc
    exact hI.starts hl hstart
      (List.forall_mem_cons.mpr ⟨hsel hc, fun x hx => huses hh hcs (hu x hx)⟩)
  | completed => exact ⟨hl, hI.opened, hI.started⟩

/-- A wrong chip select is seen in what has been started. -/
theorem selects_of_selected (e : SstEvent) (hI : SelectInv d) (hs : sstStep d e = some d')
    (hx : AllSelected d') : Selects d e := by
  cases e with
  | openIndex i jedec =>
    intro hready hi
    cases effect_of_step hI.links hs with
    | refused _ h => exact absurd ⟨hready, hi⟩ h
    | writes _ _ _ _ he => cases he
    | openIndex _ _ _ _ hb =>
      obtain ⟨new, hne, hstarted, hown⟩ := hb.started
      obtain ⟨s, hs⟩ := List.exists_mem_of_ne_nil new hne
      obtain ⟨hdev, -, hdescs, huses⟩ := hown s hs
      obtain ⟨x, hmem⟩ := List.exists_mem_of_ne_nil s.descs hdescs
      have hc := hx s (by rw [hstarted]; exact List.mem_append_left _ hs) x hmem
      rw [hdev] at hc
      exact (huses x hmem).1.symm.trans hc.1
  | read h rx n a =>
    intro hc
    cases effect_of_step hI.links hs with
    | refused _ h => exact absurd hc h
    | writes _ _ _ _ he => cases he
    | read _ _ _ _ l _ _ _ hstart =>
      obtain ⟨bs, hstarted⟩ := hstart.started
      exact hx _ (by rw [hstarted]; exact List.mem_cons_self) _ List.mem_cons_self
  | readStatus h n =>
    intro hc
    obtain ⟨hh, hcs⟩ := hI.cs_of_checked hc
    cases effect_of_step hI.links hs with
    | refused _ h => exact absurd hc h
    | writes _ _ _ _ he => cases he
    | readStatus _ _ d₁ x _ _ hstart =>
      obtain ⟨bs, hstarted⟩ := hstart.started
      have hmem : ⟨h, d.inFlight, [x, statusDesc n (d.handle h).cs], bs⟩ ∈
          (awaitTransfer d₁).started := by
        rw [started_awaitTransfer, hstarted]
        exact List.mem_cons_self
      have hc := hx _ hmem (statusDesc n (d.handle h).cs) (by simp)
      rw [hcs] at hc
      exact (carries_statusDesc_iff n (configured_masked hh)).mp hc
  | _ => trivial

end Steps

theorem selectInv_zero : SelectInv sst26Zero where
  links := .inl rfl
  opened _ _ ho := by cases ho
  started s hs := by cases hs

/-- **The configured chip select is carried** by every descriptor of every chain of a run exactly
when every step finds it where it takes it from. -/
theorem selected_iff {es : List SstEvent} {d : Sst26} (hr : run sstStep sst26Zero es = some d) :
    Along sstStep Selects sst26Zero es ↔
      ∀ es₁ es₂ d₁, es = es₁ ++ es₂ → run sstStep sst26Zero es₁ = some d₁ → AllSelected d₁ :=
  along_iff_of_inv (fun _ e _ => selectInv_of_step e) (fun _ => SelectInv.started)
    (fun _ e _ => selects_of_selected e) selectInv_zero hr

/-- What a memory of 32 Mbit answers. -/
def jedec32Mbit : Jedec := ⟨0xBF, 0x26, 0x42, 0⟩

/-- The second memory is opened, written to and asked for its status. -/
def writtenOnce : List SstEvent :=
  [.init, .openIndex 1 jedec32Mbit, .pageWrite 1 0x1000 0, .completed, .readStatus 1 1]

theorem selected_writtenOnce : Along sstStep Selects sst26Zero writtenOnce ↔
    ∀ es₁ es₂ d₁, writtenOnce = es₁ ++ es₂ → run sstStep sst26Zero es₁ = some d₁ →
      AllSelected d₁ := by
  have hrun : (run sstStep sst26Zero writtenOnce).isSome = true := by decide +kernel
  obtain ⟨d, hd⟩ := Option.isSome_iff_exists.mp hrun
  exact selected_iff hd

/-- The second memory is closed and opened again: its chains select the first. -/
theorem not_selected_reopened :
    ∃ d, run sstStep sst26Zero [.init, .openIndex 1 jedec32Mbit, .close 1,
      .openIndex 1 jedec32Mbit] = some d ∧ ¬ AllSelected d := by
  have hrun : (run sstStep sst26Zero [.init, .openIndex 1 jedec32Mbit, .close 1,
      .openIndex 1 jedec32Mbit]).map (fun d => decide (AllSelected d)) = some false := by
    decide +kernel
  obtain ⟨d, hd, hx⟩ := Option.map_eq_some_iff.mp hrun
  exact ⟨d, hd, of_decide_eq_false hx⟩

/-- A command of a memory opened again: the first memory is selected, and 171 bytes are sent. -/
example : (cmdDesc 1 sqiEnd sqiInvalidCsValue none).bdCtrl.sqics = sqiCs0 ∧
    (cmdDesc 1 sqiEnd sqiInvalidCsValue none).bdCtrl.length = 171 := by decide

end Rastreo.Drv
