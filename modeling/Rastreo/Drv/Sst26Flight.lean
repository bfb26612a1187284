import Rastreo.Drv.Sst26Chains

/-!
# One transfer at a time (`drv_sst26.c`)

Both memories share the peripheral, the descriptors and `isTransferDone`. Every operation on a
handle goes through `check_handle`, which turns it away while a transfer goes on; `DRV_SST26_Open`
looks at `status` and at the index only.

* `Exclusive`: at most one transfer is in flight, and none was started over another.
* `Waits`: `DRV_SST26_Open` is called while no transfer goes on.
* `FlightInv` ties `isTransferDone` to the peripheral.
* `exclusive_iff`: a run is exclusive all along exactly when every open waits.
-/

namespace Rastreo.Drv

open Rastreo.Lib

/-- At most one transfer is in flight, and none was started over another. -/
def Exclusive (d : Sst26) : Prop := d.inFlight ≤ 1 ∧ ∀ s ∈ d.started, s.pending = 0

instance (d : Sst26) : Decidable (Exclusive d) := by unfold Exclusive; infer_instance

/-- An open that is not turned away finds no transfer going on. -/
def Waits (d : Sst26) : SstEvent → Prop
  | .openIndex index _ => d.status = .ready → index < maxHandles → d.isTransferDone = true
  | _ => True

instance (d : Sst26) (e : SstEvent) : Decidable (Waits d e) := by
  cases e <;> unfold Waits <;> infer_instance

/-- The flag of the driver and the peripheral. -/
structure FlightInv (d : Sst26) : Prop where
  links : Links d
  initialized : d.status = .ready → d.initialized = true
  unused : d.initialized = false → d.inFlight = 0
  done : d.isTransferDone = true → d.inFlight = 0
  busy : d.initialized = true → d.isTransferDone = false → d.inFlight = 1
  started : ∀ s ∈ d.started, s.pending = 0

section Steps

variable {d d' : Sst26} {h : ℕ} {l : List SqiDesc} {P : SqiDesc → Prop}

theorem FlightInv.exclusive (hI : FlightInv d) : Exclusive d := by
  refine ⟨?_, hI.started⟩
  cases hi : d.initialized with
  | false => exact (hI.unused hi).trans_le (Nat.zero_le 1)
  | true =>
    cases hd : d.isTransferDone with
    | true => exact (hI.done hd).trans_le (Nat.zero_le 1)
    | false => exact Nat.le_of_eq (hI.busy hi hd)

/-- A transfer started while none goes on. -/
theorem FlightInv.starts (hI : FlightInv d) (hi : d.initialized = true) (hd : d.inFlight = 0)
    (hl : Links d') (hs : Starts h l d d') : FlightInv d' where
  links := hl
  initialized _ := hs.initialized.trans hi
  unused hn := by
    rw [hs.initialized, hi] at hn
    cases hn
  done ht := by
    rw [hs.isTransferDone] at ht
    cases ht
  busy _ _ := by rw [hs.inFlight, hd]
  started := by
    obtain ⟨bs, hstarted⟩ := hs.started
    rw [hstarted]
    exact List.forall_mem_cons.mpr ⟨hd, hI.started⟩

/-- Transfers started while none goes on, and awaited. -/
theorem FlightInv.blocks (hI : FlightInv d) (hi : d.initialized = true) (hd : d.inFlight = 0)
    (hl : Links d') (hb : Blocks h P d d') : FlightInv d' where
  links := hl
  initialized _ := hb.initialized.trans hi
  unused hn := by
    rw [hb.initialized, hi] at hn
    cases hn
  done _ := hb.inFlight.trans hd
  busy _ ht := by
    rw [hb.isTransferDone] at ht
    cases ht
  started := by
    obtain ⟨new, -, hstarted, hown⟩ := hb.started
    rw [hstarted]
    intro s hs
    obtain hs | hs := List.mem_append.mp hs
    · exact (hown s hs).2.1.trans hd
    · exact hI.started s hs

theorem flightInv_of_step (e : SstEvent) (hI : FlightInv d) (hw : Waits d e)
    (hs : sstStep d e = some d') : FlightInv d' := by
  have he := effect_of_step hI.links hs
  have hl : Links d' := hI.links.effect he
  have hchecked : ∀ {h : ℕ}, checkHandle d h = true → d.initialized = true ∧ d.inFlight = 0 := by
    intro h hc
    obtain ⟨hready, hdone, -⟩ := checkHandle_iff.mp hc
    exact ⟨hI.initialized hready, hI.done hdone⟩
  cases he with
  | refused => exact hI
  | init h =>
    rw [init_eq h]
    exact {
      links := hI.links
      initialized := fun _ => rfl
      unused := fun _ => hI.unused h
      done := fun _ => hI.unused h
      busy := fun _ ht => by cases ht
      started := hI.started }
  | openIndex i jedec _ ha hb =>
    exact hI.blocks (hI.initialized ha.1) (hI.done (hw ha.1 ha.2)) hl hb
  | close => exact { hI with links := hl }
  | unlock h _ hc hb => exact hI.blocks (hchecked hc).1 (hchecked hc).2 hl hb
  | readStatus h n d₁ x hc hx hstart hcmd =>
    have hb : Blocks h (fun _ => True) d (awaitTransfer d₁) :=
      hstart.await (List.cons_ne_nil _ _) (fun _ _ => trivial) hcmd
    exact hI.blocks (hchecked hc).1 (hchecked hc).2 hl hb
  | writes _ h l _ _ hc hu hs => exact hI.starts (hchecked hc).1 (hchecked hc).2 hl hs
  | read h rx n a l _ hc hu hs => exact hI.starts (hchecked hc).1 (hchecked hc).2 hl hs
  | completed hpos =>
    have hone : d.inFlight - 1 = 0 := Nat.sub_eq_zero_of_le hI.exclusive.1
    exact {
      links := hl
      initialized := hI.initialized
      unused := fun _ => hone
      done := fun _ => hone
      busy := fun _ ht => by cases ht
      started := hI.started }

/-- An open over a transfer is seen in what it has started. -/
theorem waits_of_exclusive (e : SstEvent) (hI : FlightInv d) (hs : sstStep d e = some d')
    (hx : Exclusive d') : Waits d e := by
  cases e with
  | openIndex i jedec =>
    intro hready hi
    cases effect_of_step hI.links hs with
    | refused _ h => exact absurd ⟨hready, hi⟩ h
    | writes _ _ _ _ he => cases he
    | openIndex _ _ _ _ hb =>
      obtain ⟨new, hne, hstarted, hown⟩ := hb.started
      obtain ⟨s, hs⟩ := List.exists_mem_of_ne_nil new hne
      have hzero : s.pending = 0 := hx.2 s (by rw [hstarted]; exact List.mem_append_left _ hs)
      rw [(hown s hs).2.1] at hzero
      by_contra hbusy
      have := hI.busy (hI.initialized hready) (by simpa using hbusy)
      omega
  | _ => trivial

end Steps

theorem flightInv_zero : FlightInv sst26Zero where
  links := .inl rfl
  initialized h := by cases h
  unused _ := rfl
  done h := by cases h
  busy h _ := by cases h
  started s hs := by cases hs

/-- **One transfer at a time**, in every state of a run, exactly when every open waits for the
transfer before it. -/
theorem exclusive_iff {es : List SstEvent} {d : Sst26} (hr : run sstStep sst26Zero es = some d) :
    Along sstStep Waits sst26Zero es ↔
      ∀ es₁ es₂ d₁, es = es₁ ++ es₂ → run sstStep sst26Zero es₁ = some d₁ → Exclusive d₁ :=
  along_iff_of_inv (fun _ e _ => flightInv_of_step e) (fun _ => FlightInv.exclusive)
    (fun _ e _ => waits_of_exclusive e) flightInv_zero hr

/-- What a memory of 16 Mbit answers. -/
def jedec16Mbit : Jedec := ⟨0xBF, 0x26, 0x41, 0⟩

/-- The second memory is opened after the erase of the first has completed. -/
def openedAfterErase : List SstEvent :=
  [.init, .openIndex 0 jedec16Mbit, .sectorErase 0 0, .completed, .openIndex 1 jedec16Mbit]

theorem exclusive_openedAfterErase : Along sstStep Waits sst26Zero openedAfterErase ↔
    ∀ es₁ es₂ d₁, openedAfterErase = es₁ ++ es₂ → run sstStep sst26Zero es₁ = some d₁ →
      Exclusive d₁ := by
  have hrun : (run sstStep sst26Zero openedAfterErase).isSome = true := by decide +kernel
  obtain ⟨d, hd⟩ := Option.isSome_iff_exists.mp hrun
  exact exclusive_iff hd

/-- The second memory is opened during the erase of the first. -/
theorem not_exclusive_duringErase :
    ∃ d, run sstStep sst26Zero [.init, .openIndex 0 jedec16Mbit, .sectorErase 0 0,
      .openIndex 1 jedec16Mbit] = some d ∧ ¬ Exclusive d := by
  have hrun : (run sstStep sst26Zero [.init, .openIndex 0 jedec16Mbit, .sectorErase 0 0,
      .openIndex 1 jedec16Mbit]).map (fun d => decide (Exclusive d)) = some false := by
    decide +kernel
  obtain ⟨d, hd, hx⟩ := Option.map_eq_some_iff.mp hrun
  exact ⟨d, hd, of_decide_eq_false hx⟩

end Rastreo.Drv
