import Rastreo.Usb.Ready

/-!
# What the event handler is called with

`simcomEventHandler` copies the record `eventData` points to before it looks at the event.
`F_USB_HOST_SIMCOM_InterfaceEventHandler` always passes one; `F_USB_HOST_SIMCOM_DeviceRelease` tells
of the detach with NULL. `nonNull_iff_unheard`: so no call of a run has NULL exactly when no
device is released while the handler is registered.
-/

namespace Rastreo.Usb

open Rastreo.Lib Rastreo.Simcom

/-- Every call of the handler so far had a record to read. -/
def NonNull (u : Bus) : Prop := ∀ c ∈ u.calls, c.2 ≠ none

/-- No device is released while the handler is registered. -/
def Unheard (u : Bus) : UsbStep → Prop
  | .deviceDenumerate _ => u.host.deviceClientDriver = true → u.driver.eventHandler = none
  | _ => True

instance (u : Bus) : Decidable (NonNull u) :=
  inferInstanceAs (Decidable (∀ c ∈ u.calls, c.2 ≠ none))

instance (u : Bus) : ∀ e : UsbStep, Decidable (Unheard u e)
  | .deviceDenumerate _ =>
    inferInstanceAs (Decidable (u.host.deviceClientDriver = true → u.driver.eventHandler = none))
  | .deviceEnumerate | .deviceAssign _ | .deviceTasks _ | .deviceEvent _ | .interfaceAssign _ _
  | .transferComplete _ _ | .interfaceEvent _ | .transfer _ _ _ | .simcomTasks _ | .tick =>
    .isTrue trivial

section Calls

variable {u u' : Bus}

theorem nonNull_callHandler (ev : UsbEvent) (data : Option ℕ) :
    NonNull (callHandler ev data u) ↔
      NonNull u ∧ (u.driver.eventHandler ≠ none → data ≠ none) := by
  unfold NonNull
  rw [callHandler_calls]
  split
  · next h => simp [h]
  · next h =>
    rw [List.forall_mem_append, List.forall_mem_singleton]
    simp [h]

theorem nonNull_congr (h : u'.calls = u.calls) : NonNull u' ↔ NonNull u := by
  unfold NonNull
  rw [h]

/-- The transfers a release aborts complete with their records. -/
theorem nonNull_aborted (aborted : List (UsbEvent × ℕ)) :
    (NonNull (aborted.foldl (fun u c => interfaceEventHandler (.transferComplete c.2) c.1 u) u) ↔
        NonNull u) ∧
      (aborted.foldl (fun u c => interfaceEventHandler (.transferComplete c.2) c.1 u) u).driver =
        u.driver := by
  induction aborted generalizing u with
  | nil => exact ⟨.rfl, rfl⟩
  | cons c cs ih =>
    obtain ⟨hnull, hdriver⟩ := ih (u := callHandler c.1 (some c.2) u)
    rw [List.foldl_cons]
    refine ⟨hnull.trans ?_, hdriver.trans (callHandler_driver ..)⟩
    rw [nonNull_callHandler]
    simp

/-- Closing a pipe calls and registers nothing. -/
theorem closePipe_frame (p : PipeId) :
    (closePipe u p).calls = u.calls ∧
      (closePipe u p).driver.eventHandler = u.driver.eventHandler := by
  unfold closePipe
  split <;> exact ⟨rfl, rfl⟩

theorem closePipes_frame (ps : List PipeId) :
    (ps.foldl closePipe u).calls = u.calls ∧
      (ps.foldl closePipe u).driver.eventHandler = u.driver.eventHandler := by
  induction ps generalizing u with
  | nil => exact ⟨rfl, rfl⟩
  | cons p ps ih =>
    rw [List.foldl_cons]
    exact ⟨ih.1.trans (closePipe_frame p).1, ih.2.trans (closePipe_frame p).2⟩

/-- **A release reads NULL** exactly when a handler is there to hear of it. -/
theorem nonNull_deviceRelease (aborted : List (UsbEvent × ℕ)) :
    NonNull (deviceRelease aborted u) ↔ NonNull u ∧ u.driver.eventHandler = none := by
  obtain ⟨hnull, hdriver⟩ := nonNull_aborted (u := u) aborted
  set v := aborted.foldl (fun u c => interfaceEventHandler (.transferComplete c.2) c.1 u) u with hv
  obtain ⟨hcalls, hhandler⟩ := closePipes_frame (u := v) PipeId.all
  have hrel : (deviceRelease aborted u).calls =
      (callHandler .deviceDetached none (PipeId.all.foldl closePipe v)).calls := by
    unfold deviceRelease
    rw [hv]
  rw [nonNull_congr hrel, nonNull_callHandler, nonNull_congr hcalls, hhandler, hdriver, hnull]
  simp

theorem calls_openPipes {setup : ℕ → Bool} (os : List (PipeId × Option EndpointDescriptor)) :
    (os.foldl (openPipe setup) u).calls = u.calls := by
  induction os generalizing u with
  | nil => rfl
  | cons o os ih =>
    rw [List.foldl_cons, ih]
    unfold openPipe
    split <;> rfl

/-- **Step lemma**: of all steps only such a release passes NULL. -/
theorem nonNull_of_step (e : UsbStep) (hs : usbStep u e = some u') :
    NonNull u' ↔ NonNull u ∧ Unheard u e := by
  cases e with
  | deviceEnumerate =>
    simp only [usbStep] at hs
    split at hs
    · cases hs
    · cases hs
      exact (and_iff_left trivial).symm
  | deviceAssign n =>
    simp only [usbStep] at hs
    split at hs
    · cases hs
      refine (nonNull_congr ?_).trans (and_iff_left trivial).symm
      unfold deviceAssign
      dsimp only
      split <;> rfl
    · cases hs
  | deviceTasks set =>
    simp only [usbStep] at hs
    split at hs
    · cases hs
      exact (and_iff_left trivial).symm
    · cases hs
  | deviceEvent e =>
    simp only [usbStep] at hs
    split at hs
    · cases hs
      exact (and_iff_left trivial).symm
    · cases hs
  | interfaceAssign a setup =>
    simp only [usbStep] at hs
    split at hs
    · cases hs
      exact (nonNull_congr (calls_openPipes a.openings)).trans (and_iff_left trivial).symm
    · cases hs
  | transferComplete context chunk =>
    simp only [usbStep, Option.map_eq_some_iff] at hs
    obtain ⟨app, -, rfl⟩ := hs
    simp only [interfaceEventHandler, nonNull_callHandler]
    refine and_congr .rfl ?_
    simp [Unheard]
  | interfaceEvent context =>
    cases hs
    exact (and_iff_left trivial).symm
  | transfer p dataIsNull size =>
    cases hs
    exact (and_iff_left trivial).symm
  | deviceDenumerate aborted =>
    simp only [usbStep] at hs
    split at hs
    · cases hs
      by_cases hown : u.host.deviceClientDriver = true
      · have hcalls : (deviceDenumerate aborted u).calls = (deviceRelease aborted u).calls := by
          unfold deviceDenumerate
          rw [if_pos hown]
        rw [nonNull_congr hcalls, nonNull_deviceRelease]
        simp [Unheard, hown]
      · have hcalls : (deviceDenumerate aborted u).calls = u.calls := by
          unfold deviceDenumerate
          rw [if_neg hown]
        rw [nonNull_congr hcalls]
        simp [Unheard, hown]
    · cases hs
  | simcomTasks io =>
    cases hs
    exact (and_iff_left trivial).symm
  | tick =>
    cases hs
    exact (and_iff_left trivial).symm

end Calls

theorem nonNull_iff_of_run {u u' : Bus} {es : List UsbStep} (hr : run usbStep u es = some u') :
    NonNull u' ↔ NonNull u ∧ Along usbStep Unheard u es := by
  induction es generalizing u with
  | nil =>
    obtain rfl := Option.some.inj hr
    exact (and_iff_left trivial).symm
  | cons e es ih =>
    obtain ⟨v, hv, hr⟩ := run_cons.mp hr
    rw [ih hr, nonNull_of_step e hv, and_assoc, Along]
    refine and_congr .rfl (and_congr .rfl ⟨fun h w hw => ?_, fun h => h v hv⟩)
    obtain rfl := Option.some.inj (hv.symm.trans hw)
    exact h

/-- **The handler always had a record to read exactly when it was never registered at a
detach.** -/
theorem nonNull_iff_unheard (es : List UsbStep) (u : Bus) (hr : run usbStep usbInit es = some u) :
    NonNull u ↔ Along usbStep Unheard usbInit es := by
  rw [nonNull_iff_of_run hr]
  exact and_iff_right (by simp [NonNull, usbInit])

theorem nonNull_plugIn : ∃ u,
    run usbStep usbInit (plugIn ++ [.transferComplete .atReadComplete [0x0D]]) = some u ∧
      NonNull u ∧ u.calls = [(.atReadComplete, some 1)] := by
  have h : (run usbStep usbInit (plugIn ++ [.transferComplete .atReadComplete [0x0D]])).map
      Bus.calls = some [(.atReadComplete, some 1)] := by decide +kernel
  obtain ⟨u, hu, hcalls⟩ := Option.map_eq_some_iff.mp h
  exact ⟨u, hu, (nonNull_iff_unheard _ u hu).mpr (by decide +kernel), hcalls⟩

/-- The modem unplugged in use: the handler is told with NULL. -/
theorem not_nonNull_unplugged :
    ¬ ∀ (es : List UsbStep) (u : Bus), run usbStep usbInit es = some u → NonNull u := by
  have h : (run usbStep usbInit (plugIn ++ [.deviceDenumerate []])).map Bus.calls =
      some [(.deviceDetached, none)] := by decide +kernel
  obtain ⟨u, hu, hcalls⟩ := Option.map_eq_some_iff.mp h
  intro hall
  refine hall _ u hu (.deviceDetached, none) ?_ rfl
  rw [hcalls]
  exact List.mem_singleton_self _

end Rastreo.Usb
