import Rastreo.Drv.Sst26Flight

/-!
# The status of a transfer (`drv_sst26.c`)

Reads, writes and erases go on after the call has returned, and the caller asks
`DRV_SST26_TransferStatusGet` for their end. It goes through `check_handle` like the operations do,
and `check_handle` turns a call away while a transfer goes on: the answer is
`DRV_SST26_TRANSFER_ERROR_UNKNOWN` where `DRV_SST26_TRANSFER_BUSY` is due.

* `Pending`: a transfer of the handle has not completed; transfers complete in their order.
* `TellsStatus`: the answer is the right one.
* **`tellsStatus_iff`**: so it is when no transfer goes on, and never else.
-/

namespace Rastreo.Drv

open Rastreo.Lib

/-- `DRV_SST26_TRANSFER_STATUS`. -/
inductive TransferStatus
  | busy
  | completed
  | errorUnknown
  deriving DecidableEq, Repr

/-- `DRV_SST26_TransferStatusGet`. -/
def drvSst26TransferStatusGet (handle : ℕ) (d : Sst26) : TransferStatus :=
  if checkHandle d handle then if d.isTransferDone then .completed else .busy
  else .errorUnknown

/-- A transfer of the handle has not completed. -/
def Pending (d : Sst26) (h : ℕ) : Prop := ∃ s ∈ d.started.take d.inFlight, s.device = h

instance (d : Sst26) (h : ℕ) : Decidable (Pending d h) := by unfold Pending; infer_instance

/-- Busy exactly while a transfer of the handle goes on, and then completed. -/
structure TellsStatus (d : Sst26) (h : ℕ) : Prop where
  busy : drvSst26TransferStatusGet h d = .busy ↔ Pending d h
  completed : ¬ Pending d h → drvSst26TransferStatusGet h d = .completed

/-- An open handle is one of a driver that is ready. -/
structure OpenInv (d : Sst26) : Prop where
  links : Links d
  opened : ∀ h, (d.handle h).opened = true → d.status = .ready ∧ h < maxHandles

section Steps

variable {d d' : Sst26} {h : ℕ} {l : List SqiDesc} {P : SqiDesc → Prop}

theorem OpenInv.starts (hI : OpenInv d) (hl : Links d') (hs : Starts h l d d') : OpenInv d' where
  links := hl
  opened i ho := by
    rw [hs.handle] at ho
    rw [hs.status]
    exact hI.opened i ho

theorem OpenInv.blocks (hI : OpenInv d) (hl : Links d') (hready : d.status = .ready)
    (hh : h < maxHandles) (hb : Blocks h P d d') : OpenInv d' where
  links := hl
  opened i ho := by
    rw [hb.status]
    by_cases hih : i = h
    · rw [hih]
      exact ⟨hready, hh⟩
    · rw [hb.opened i hih] at ho
      exact hI.opened i ho

theorem openInv_of_step (e : SstEvent) (hI : OpenInv d) (hs : sstStep d e = some d') :
    OpenInv d' := by
  have he := effect_of_step hI.links hs
  have hl : Links d' := hI.links.effect he
  cases he with
  | refused => exact hI
  | init h =>
    refine ⟨hl, fun i ho => ?_⟩
    obtain ⟨h₀, h₁, hother⟩ := handle_init h
    refine ⟨by rw [init_eq h], ?_⟩
    by_contra hi
    rw [hother i (Nat.not_lt.mp hi)] at ho
    exact hi (hI.opened i ho).2
  | openIndex i jedec _ ha hb => exact hI.blocks hl ha.1 ha.2 hb
  | close h hc =>
    refine ⟨hl, fun i ho => ?_⟩
    by_cases hih : i = h
    · subst hih
      simp [putHandle, initHandleData] at ho
    · simp only [putHandle, Function.update_of_ne hih] at ho ⊢
      exact hI.opened i ho
  | unlock h _ hc hb =>
    obtain ⟨hready, -, hh, -⟩ := checkHandle_iff.mp hc
    exact hI.blocks hl hready hh hb
  | readStatus h n d₁ x hc hx hstart hcmd =>
    obtain ⟨hready, -, hh, -⟩ := checkHandle_iff.mp hc
    have hb : Blocks h (fun _ => True) d (awaitTransfer d₁) :=
      hstart.await (List.cons_ne_nil _ _) (fun _ _ => trivial) hcmd
    exact hI.blocks hl hready hh hb
  | writes _ h l _ _ hc hu hstart => exact hI.starts hl hstart
  | read h rx n a l _ hc hu hstart => exact hI.starts hl hstart
  | completed => exact ⟨hl, hI.opened⟩

theorem openInv_zero : OpenInv sst26Zero where
  links := .inl rfl
  opened h ho := by cases ho

/-- **The handles that are open**, in every state of a run. -/
theorem opened_of_run {es : List SstEvent} (hr : run sstStep sst26Zero es = some d)
    (ho : (d.handle h).opened = true) : d.status = .ready ∧ h < maxHandles :=
  (inv_of_run (C := fun _ _ => True) (fun _ e _ hI _ hs => openInv_of_step e hI hs) openInv_zero
    along_true hr).opened h ho

end Steps

/-! ## The answers -/

section Answers

variable {d : Sst26} {h : ℕ}

/-- **`DRV_SST26_TRANSFER_BUSY` is never answered.** -/
theorem transferStatusGet_ne_busy (h : ℕ) (d : Sst26) :
    drvSst26TransferStatusGet h d ≠ .busy := by
  unfold drvSst26TransferStatusGet
  split
  · rename_i hc
    rw [(checkHandle_iff.mp hc).2.1]
    decide
  · decide

/-- What an open handle is answered. -/
theorem transferStatusGet_eq (hready : d.status = .ready) (hh : h < maxHandles)
    (ho : (d.handle h).opened = true) : drvSst26TransferStatusGet h d =
      if d.isTransferDone = true then .completed else .errorUnknown := by
  unfold drvSst26TransferStatusGet
  by_cases hd : d.isTransferDone = true
  · rw [if_pos (checkHandle_iff.mpr ⟨hready, hd, hh, ho⟩), if_pos hd, if_pos hd]
  · rw [if_neg (mt checkHandle_iff.mp fun hc => hd hc.2.1), if_neg hd]

/-- **The answer is right exactly when no transfer goes on**: none that the driver waits for, and
none of the handle. -/
theorem tellsStatus_iff {es : List SstEvent} (hr : run sstStep sst26Zero es = some d)
    (ho : (d.handle h).opened = true) :
    TellsStatus d h ↔ d.isTransferDone = true ∧ ¬ Pending d h := by
  obtain ⟨hready, hh⟩ := opened_of_run hr ho
  have hstatus := transferStatusGet_eq hready hh ho
  constructor
  · intro ht
    have hidle : ¬ Pending d h := fun hp => transferStatusGet_ne_busy h d (ht.busy.mpr hp)
    refine ⟨?_, hidle⟩
    by_contra hd
    have hdone := ht.completed hidle
    rw [hstatus, if_neg hd] at hdone
    cases hdone
  · rintro ⟨hd, hidle⟩
    constructor
    · exact ⟨fun hb => absurd hb (transferStatusGet_ne_busy h d), fun hp => absurd hp hidle⟩
    · intro _
      rw [hstatus, if_pos hd]

/-- Where every open waits for the transfer before it, the two are one condition. -/
theorem idle_iff {es : List SstEvent} (hr : run sstStep sst26Zero es = some d)
    (hw : Along sstStep Waits sst26Zero es) (hi : d.initialized = true) :
    d.isTransferDone = true ∧ ¬ Pending d h ↔ d.inFlight = 0 := by
  have hI : FlightInv d := inv_of_run (fun _ e _ => flightInv_of_step e) flightInv_zero hw hr
  constructor
  · rintro ⟨hd, -⟩
    exact hI.done hd
  · intro hnone
    constructor
    · by_contra hd
      have hone := hI.busy hi (by simpa using hd)
      omega
    · rintro ⟨s, hs, -⟩
      rw [hnone, List.take_zero] at hs
      cases hs

end Answers

/-! ## Some runs -/

/-- The first memory is opened, and a sector of it erased. -/
def erased : List SstEvent := [.init, .openIndex 0 jedec16Mbit, .sectorErase 0 0, .completed]

theorem tellsStatus_erased : ∃ d, run sstStep sst26Zero erased = some d ∧ TellsStatus d 0 := by
  have hrun : (run sstStep sst26Zero erased).map (fun d =>
      ((d.handle 0).opened, d.isTransferDone, decide (Pending d 0))) = some (true, true, false) := by
    decide +kernel
  obtain ⟨d, hd, hstate⟩ := Option.map_eq_some_iff.mp hrun
  simp only [Prod.mk.injEq] at hstate
  exact ⟨d, hd, (tellsStatus_iff hd hstate.1).mpr ⟨hstate.2.1, of_decide_eq_false hstate.2.2⟩⟩

/-- While the sector is erased the answer is an error. -/
theorem not_tellsStatus_erasing : ¬ ∀ (es : List SstEvent) (d : Sst26) (h : ℕ),
    run sstStep sst26Zero es = some d → (d.handle h).opened = true → TellsStatus d h := by
  intro hall
  have hrun : (run sstStep sst26Zero [.init, .openIndex 0 jedec16Mbit, .sectorErase 0 0]).map
      (fun d => ((d.handle 0).opened, decide (Pending d 0))) = some (true, true) := by
    decide +kernel
  obtain ⟨d, hd, hstate⟩ := Option.map_eq_some_iff.mp hrun
  simp only [Prod.mk.injEq] at hstate
  have ht := hall _ d 0 hd hstate.1
  exact transferStatusGet_ne_busy 0 d (ht.busy.mpr (of_decide_eq_true hstate.2))

end Rastreo.Drv
