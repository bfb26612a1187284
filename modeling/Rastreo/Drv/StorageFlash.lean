import Rastreo.Drv.Sst26Chains

/-!
# Opening the flash memories (`storage/storage_flash.c`)

`storage_flash_task` opens the memories one after the other, one in each tick, and puts their handles
into `appData.handle`, which has `MEM_NUM` elements. Whether the last memory has been opened is
tested before the index is advanced, with `mmm < DRV_SST26_MEM_IC_MAX`, which holds of the last one
as well.

* A tick finds what the memory would answer; the driver below is that of `drv_sst26.c`.
* `accesses` are the indices `appData.handle` has been used with.
* `Works`: no index is out of bounds, the task goes to its error state only after a memory that could
  not be opened, and gets to its idle state when all of them could.
* `Phase` is where the task can be after some ticks.
* **`works_iff`**: the task works when a memory cannot be opened.
-/

namespace Rastreo.Drv

open Rastreo.Lib

/-! ## The task -/

/-- `MEM_NUM`. -/
def memNum : ℕ := 2

/-- `DRV_SST26_MEM_IC_MAX`. -/
def memIcMax : ℕ := 2

/-- `APP_STATES`. -/
inductive FlashState
  | init
  | openDriver
  | error
  | idle
  deriving DecidableEq, Repr

/-- The part of `APP_DATA` that is used, the static `mmm` and the driver. -/
structure StorageFlash where
  state : FlashState
  /-- `none` is `DRV_HANDLE_INVALID`. -/
  handle : ℕ → Option ℕ
  mmm : ℕ
  drv : Sst26
  /-- The indices `handle` has been used with, latest first. -/
  accesses : List ℕ

/-- The static variables at reset. -/
def flashZero : StorageFlash := ⟨.init, fun _ => some 0, 0, sst26Zero, []⟩

/-- `storage_flash_init`. -/
def storageFlashInit (a : StorageFlash) : StorageFlash :=
  { a with
    drv := drvSst26Initialize a.drv
    handle := Function.update (Function.update a.handle 0 none) 1 none
    state := .init
    accesses := 1 :: 0 :: a.accesses }

/-- `storage_flash_task`, with what a memory that is opened answers. -/
def storageFlashTask (jedec : Jedec) (a : StorageFlash) : StorageFlash :=
  match a.state with
  | .init => { a with state := if a.drv.status = .ready then .openDriver else .error }
  | .openDriver =>
    let r := drvSst26Open a.mmm jedec a.drv
    let a := { a with
      drv := r.2
      handle := Function.update a.handle a.mmm r.1
      accesses := a.mmm :: a.accesses }
    if a.handle a.mmm ≠ none then
      if a.mmm < memIcMax then { a with mmm := a.mmm + 1, state := .openDriver }
      else { a with state := .idle }
    else { a with state := .error }
  | .idle => a
  | .error => a

/-- The task after some ticks. -/
def flashTicks (js : ℕ → Jedec) : ℕ → StorageFlash
  | 0 => storageFlashInit flashZero
  | n + 1 => storageFlashTask (js n) (flashTicks js n)

/-! ## The memories -/

/-- The size of the memory is known. -/
def Opens (jedec : Jedec) : Prop := getFlashSize jedec.majorRevisionNumber ≠ 0

instance (jedec : Jedec) : Decidable (Opens jedec) := inferInstanceAs (Decidable (_ ≠ _))

/-- A memory does not open; the memory `i` is opened in the tick `i + 1`. -/
def Failed (js : ℕ → Jedec) : Prop := ∃ i, i < memNum ∧ ¬ Opens (js (i + 1))

/-- What the task is for. -/
structure Works (js : ℕ → Jedec) : Prop where
  inBounds : ∀ n, ∀ i ∈ (flashTicks js n).accesses, i < memNum
  error : ∀ n, (flashTicks js n).state = .error → Failed js
  idle : ¬ Failed js → ∃ n, (flashTicks js n).state = .idle ∧
    ∀ i, i < memNum → (flashTicks js n).handle i ≠ none

section Open

variable {d : Sst26} {i : ℕ}

/-- Every memory of the table is larger than what is erased at once. -/
theorem flashSize_ge {deviceId : UInt8} (h : getFlashSize deviceId ≠ 0) :
    sst26EraseBufferSize ≤ getFlashSize deviceId := by
  have hall : ∀ row ∈ sstFlashIdSizeTable, sst26EraseBufferSize ≤ row.2 := by decide
  unfold getFlashSize at h ⊢
  cases hrow : sstFlashIdSizeTable.find? fun row => deviceId = row.1 with
  | none =>
    rw [hrow] at h
    exact absurd rfl h
  | some row => exact hall row (List.mem_of_find?_eq_some hrow)

/-- **An open succeeds** when the size of the memory is known. -/
theorem open_eq (jedec : Jedec) (hready : d.status = .ready) :
    (drvSst26Open i jedec d).1 = if i < maxHandles ∧ Opens jedec then some i else none := by
  have hjedec : ((identify i jedec d).handle i).jedecId = jedec := by
    simp [identify, readJedecId, putHandle]
  unfold drvSst26Open
  rw [if_neg (by simp [hready])]
  by_cases hi : i < maxHandles
  · rw [if_neg (Nat.not_le.mpr hi)]
    dsimp only
    rw [hjedec]
    by_cases ho : Opens jedec
    · have hsize := flashSize_ge ho
      have hpos : 0 < sst26EraseBufferSize := by decide
      rw [if_pos (by omega), if_pos (by unfold sst26StartAddress; omega),
        if_pos (by unfold sst26StartAddress; omega), if_pos ⟨hi, ho⟩]
    · rw [if_neg fun h => ho (Nat.ne_of_gt h), if_neg fun h => ho h.2]
  · rw [if_pos (Nat.not_lt.mp hi), if_neg fun h => hi h.1]

theorem status_open (jedec : Jedec) (hready : d.status = .ready) :
    (drvSst26Open i jedec d).2.status = .ready := by
  by_cases hi : i < maxHandles
  · exact (blocks_open jedec ⟨hready, hi⟩).status.trans hready
  · rw [open_refused jedec fun h => hi h.2]
    exact hready

end Open

/-! ## Ticks -/

/-- Where the task can be after `n` ticks: `mmm` memories have been opened. -/
structure Phase (js : ℕ → Jedec) (n : ℕ) (a : StorageFlash) : Prop where
  ready : a.drv.status = .ready
  opened : ∀ i, i < a.mmm → Opens (js (i + 1)) ∧ a.handle i = some i
  bound : a.mmm ≤ memNum
  accesses : ∀ i ∈ a.accesses, i < memNum ∨ a.mmm = memNum
  state : a.state = .init ∧ n = 0 ∧ a.mmm = 0 ∨ a.state = .openDriver ∧ n = a.mmm + 1 ∨
    a.state = .error

section Ticks

variable {js : ℕ → Jedec} {n : ℕ} {a : StorageFlash}

theorem phase_init (js : ℕ → Jedec) : Phase js 0 (storageFlashInit flashZero) where
  ready := rfl
  opened i hi := absurd hi (Nat.not_lt_zero i)
  bound := Nat.zero_le _
  accesses := by decide
  state := .inl ⟨rfl, rfl, rfl⟩

/-- The task that opens a memory. -/
theorem task_opening (jedec : Jedec) (hs : a.state = .openDriver) (hready : a.drv.status = .ready) :
    storageFlashTask jedec a = { a with
      drv := (drvSst26Open a.mmm jedec a.drv).2
      handle := Function.update a.handle a.mmm
        (if a.mmm < maxHandles ∧ Opens jedec then some a.mmm else none)
      accesses := a.mmm :: a.accesses
      mmm := if a.mmm < maxHandles ∧ Opens jedec then a.mmm + 1 else a.mmm
      state := if a.mmm < maxHandles ∧ Opens jedec then .openDriver else .error } := by
  unfold storageFlashTask
  rw [hs]
  simp only [Function.update_self, open_eq jedec hready]
  by_cases h : a.mmm < maxHandles ∧ Opens jedec
  · simp only [if_pos h]
    rw [if_pos (Option.some_ne_none _), if_pos (show a.mmm < memIcMax from h.1)]
  · simp only [if_neg h]
    rfl

/-- **One tick.** -/
theorem Phase.tick (h : Phase js n a) : Phase js (n + 1) (storageFlashTask (js n) a) := by
  obtain ⟨hs, rfl, hmmm⟩ | ⟨hs, hn⟩ | hs := h.state
  · have htask : storageFlashTask (js 0) a = { a with state := .openDriver } := by
      unfold storageFlashTask
      rw [hs]
      dsimp only
      rw [if_pos h.ready]
    rw [htask]
    exact { h with state := .inr (.inl ⟨rfl, by rw [hmmm]⟩) }
  · rw [task_opening (js n) hs h.ready, hn]
    by_cases hopen : a.mmm < maxHandles ∧ Opens (js (a.mmm + 1))
    · simp only [if_pos hopen]
      refine ⟨status_open _ h.ready, fun i hi => ?_, hopen.1, ?_, .inr (.inl ⟨rfl, rfl⟩)⟩
      · dsimp only at hi ⊢
        obtain hlt | rfl := Nat.lt_succ_iff_lt_or_eq.mp hi
        · rw [Function.update_of_ne (Nat.ne_of_lt hlt)]
          exact h.opened i hlt
        · rw [Function.update_self]
          exact ⟨hopen.2, rfl⟩
      · refine List.forall_mem_cons.mpr ⟨.inl hopen.1, fun i hi => ?_⟩
        obtain hlt | hall := h.accesses i hi
        · exact .inl hlt
        · exact absurd hall (Nat.ne_of_lt hopen.1)
    · simp only [if_neg hopen]
      refine ⟨status_open _ h.ready, fun i hi => ?_, h.bound, ?_, .inr (.inr rfl)⟩
      · dsimp only at hi ⊢
        rw [Function.update_of_ne (Nat.ne_of_lt hi)]
        exact h.opened i hi
      · refine List.forall_mem_cons.mpr ⟨?_, h.accesses⟩
        exact Nat.lt_or_eq_of_le h.bound
  · have htask : storageFlashTask (js n) a = a := by
      unfold storageFlashTask
      rw [hs]
    rw [htask]
    exact { h with state := .inr (.inr hs) }

theorem phase_ticks (js : ℕ → Jedec) (n : ℕ) : Phase js n (flashTicks js n) := by
  induction n with
  | zero => exact phase_init js
  | succ n ih => exact ih.tick

/-- When both memories open, the task goes on to a third. -/
theorem ticks_opening (hall : ¬ Failed js) {k : ℕ} (hk : k ≤ memNum) :
    (flashTicks js (k + 1)).state = .openDriver ∧ (flashTicks js (k + 1)).mmm = k := by
  induction k with
  | zero => exact ⟨rfl, rfl⟩
  | succ k ih =>
    obtain ⟨hs, hmmm⟩ := ih (Nat.le_of_succ_le hk)
    have hopen : k < maxHandles ∧ Opens (js (k + 1)) := by
      refine ⟨hk, ?_⟩
      by_contra ho
      exact hall ⟨k, hk, ho⟩
    rw [flashTicks, task_opening _ hs (phase_ticks js (k + 1)).ready]
    simp [hmmm, hopen]

/-- **The task works exactly when a memory does not open.** When both do, it uses `appData.handle`
behind its end and goes to its error state. -/
theorem works_iff (js : ℕ → Jedec) : Works js ↔ Failed js := by
  constructor
  · intro hw
    by_contra hall
    obtain ⟨hs, hmmm⟩ := ticks_opening hall (Nat.le_refl memNum)
    have hmem : memNum ∈ (flashTicks js (memNum + 1 + 1)).accesses := by
      rw [flashTicks, task_opening _ hs (phase_ticks js (memNum + 1)).ready, hmmm]
      exact List.mem_cons_self
    exact absurd (hw.inBounds _ _ hmem) (Nat.lt_irrefl memNum)
  · rintro ⟨i, hi, hfails⟩
    refine ⟨fun n k hk => ?_, fun _ _ => ⟨i, hi, hfails⟩, fun hall => absurd ⟨i, hi, hfails⟩ hall⟩
    have hphase := phase_ticks js n
    obtain hlt | hall := hphase.accesses k hk
    · exact hlt
    · exact absurd (hphase.opened i (hall ▸ hi)).1 hfails

end Ticks

/-- Two memories of 64 Mbit. -/
theorem not_works_opened : ¬ ∀ js, Works js := by
  intro hall
  have hin := (hall fun _ => ⟨0xBF, 0x26, 0x43, 0⟩).inBounds 4 2
  have hmem : 2 ∈ (flashTicks (fun _ => ⟨0xBF, 0x26, 0x43, 0⟩) 4).accesses := by decide +kernel
  exact absurd (hin hmem) (by decide)

end Rastreo.Drv
