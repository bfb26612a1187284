import Rastreo.Drv.McpRequests
import Rastreo.Drv.RtcImage

/-!
# A chip that does not answer (`drv_mcp7940x.c`)

A transfer that ends with a NAK puts its sub-task back into its first state, to ask again. The
state of the transfer stays `BUSI2C_STATE_NAK`, though, and `i2c_rw` takes a transfer in
`BUSI2C_STATE_IDLE` only: the second time the sub-task asks it ends with an error.

* `attempt` follows a sub-task to its end, in front of a chip that gives some NAKs first.
* `Retries`: it ends with OK and the data.
* `retries_zero`, `not_retries_succ`: so it does without a NAK, and never after one.
-/

namespace Rastreo.Drv

open Rastreo.Lib

/-! ## A sub-task to its end -/

/-- A transfer ends in this pass. -/
def transferEnds (m : Mcp) (io : McpIo) : Bool :=
  !io.isBusy && (m.i2cData.state == .inProgressTx || m.i2cData.state == .inProgressRx)

/-- One pass, as long as there is a sub-task. The chip answers `naks` transfers with a NAK and then
does what it is asked; `p.2` transfers have ended. -/
def attempt (naks : Nat) (io : McpIo) (p : Mcp × Nat) : Mcp × Nat :=
  if p.1.subtaskData.subTask = none then p
  else (drvMcp7940xTasks { io with error := if p.2 < naks then .nack else .none } p.1,
    if transferEnds p.1 io then p.2 + 1 else p.2)

/-- The driver with the data of the transfer moved. -/
def transferred (m : Mcp) : SubTask → Mcp
  | .readRegisters =>
    { m with
      sys := m.sys.load (readChip m.chip m.rwParams.startAddress.toNat m.rwParams.length) }
  | .writeRegisters =>
    { m with
      chip := writeChip m.chip m.rwParams.startAddress.toNat (m.sys.s.take m.rwParams.length) }
  | .wait => m

/-- The sub-task has ended with OK, and its data is where it belongs. -/
structure EndsOk (m m' : Mcp) (k : SubTask) (ok : McpState) : Prop where
  subTask : m'.subtaskData.subTask = none
  smCurrentState : m'.smCurrentState = ok
  sys : m'.sys = (transferred m k).sys
  chip : m'.chip = (transferred m k).chip

/-- A sub-task started here ends with OK after so many NAKs, when enough passes find the bus
ready. -/
def Retries (m : Mcp) (k : SubTask) (ok err : McpState) (naks : Nat) : Prop :=
  ∃ n, ∀ ios : List McpIo, (∀ io ∈ ios, io.accepts = true) → n ≤ ios.countP ready →
    EndsOk m (passes (attempt naks) (subTaskInit m k ok err, 0) ios).1 k ok

section Attempts

variable {m : Mcp} {k : SubTask} {ok err : McpState} {naks j : Nat} {io : McpIo}

theorem attempt_ended (hk : m.subtaskData.subTask = none) : attempt naks io (m, j) = (m, j) :=
  if_pos hk

theorem attempt_pending (hk : m.subtaskData.subTask = some k) :
    attempt naks io (m, j) =
      (drvMcp7940xTasks { io with error := if j < naks then .nack else .none } m,
        if transferEnds m io then j + 1 else j) := by
  unfold attempt
  rw [if_neg (by simp [hk])]

/-- The first pass asks for the transfer. -/
theorem attempt_asking (hne : k ≠ .wait) (hbus : m.i2cData.state = .idle) :
    attempt naks io (subTaskInit m k ok err, j) = (moving m k ok err (request m k), j) := by
  have hends : transferEnds (subTaskInit m k ok err) io = false := by
    simp [transferEnds, subTaskInit, hbus]
  rw [attempt_pending rfl, hends, @tasks_asking (subTaskInit m k ok err) k _ rfl hne rfl hbus]
  cases k <;> rfl

/-- The bus takes the transfer. -/
theorem attempt_starting (hne : k ≠ .wait) (ha : io.accepts = true) :
    attempt naks io (moving m k ok err (request m k), j) =
        (moving m k ok err (underWay m k), j) ∨
      (ready io = false ∧ attempt naks io (moving m k ok err (request m k), j) =
        (moving m k ok err (request m k), j)) := by
  have hends : transferEnds (moving m k ok err (request m k)) io = false := by
    cases k <;> simp [transferEnds, moving, request]
  obtain ⟨bs, htx⟩ : ∃ bs, (request m k).tx = some bs := by
    cases k <;> exact ⟨_, rfl⟩
  have hlen : (request m k).txLength ≠ 0 := by
    cases k <;> simp [request]
  have hinit : (request m k).state = .init := by
    cases k <;> rfl
  have hpass := @starts m ok err k (request m k)
    { io with error := if j < naks then .nack else .none } bs hne htx hlen hinit ha
  rw [attempt_pending rfl, hends]
  rcases hpass with hpass | ⟨hbusy, hpass⟩
  · rw [hpass]
    exact .inl rfl
  · rw [hpass]
    exact .inr ⟨hbusy, rfl⟩

/-- All of the data is moved. -/
theorem moveData_underWay (hne : k ≠ .wait) :
    moveData (moving m k ok err (underWay m k)) (max (underWay m k).txLength (underWay m k).rxLength) =
      moving (transferred m k) k ok err (underWay m k) := by
  cases k with
  | wait => exact absurd rfl hne
  | readRegisters =>
    have hall : min (max 1 m.rwParams.length) m.rwParams.length = m.rwParams.length := by omega
    unfold moveData
    simp only [moving, underWay, request, if_true, hall]
    rfl
  | writeRegisters =>
    have hall : ((m.sys.s.take m.rwParams.length).take (m.rwParams.length + 1 - 1)).take
        (max (m.rwParams.length + 1) 0) = m.sys.s.take m.rwParams.length := by
      rw [List.take_take, List.take_take]
      congr 1
      omega
    unfold moveData
    simp only [moving, underWay, request, Bool.false_eq_true, if_false, hall]
    rfl

theorem state_underWay (hne : k ≠ .wait) :
    (underWay m k).state = .inProgressRx ∨ (underWay m k).state = .inProgressTx := by
  cases k with
  | wait => exact absurd rfl hne
  | readRegisters => exact .inl rfl
  | writeRegisters => exact .inr rfl

theorem transferEnds_underWay (hne : k ≠ .wait) :
    transferEnds (moving m k ok err (underWay m k)) io = !io.isBusy := by
  rcases state_underWay (m := m) hne with h | h <;> simp [transferEnds, moving, h]

/-- A transfer that is not answered with a NAK ends the sub-task. -/
theorem attempt_finishing (hne : k ≠ .wait) :
    attempt 0 io (moving m k ok err (underWay m k), 0) = (ended (transferred m k) ok err, 1) ∨
      (ready io = false ∧ attempt 0 io (moving m k ok err (underWay m k), 0) =
        (moving m k ok err (underWay m k), 0)) := by
  have hbusy : ∀ io' : McpIo, io'.isBusy = true →
      drvMcp7940xTasks io' (moving m k ok err (underWay m k)) = moving m k ok err (underWay m k) := by
    intro io' hb
    rw [tasks_polling io' rfl hne rfl, i2cTask_busy _ hb]
    exact subTaskPoll_pending (.inr (state_underWay hne))
  rw [attempt_pending rfl, transferEnds_underWay hne]
  cases hb : io.isBusy with
  | true =>
    rw [hbusy _ rfl]
    exact .inr ⟨by simp [ready, hb], rfl⟩
  | false =>
    have hpass := @finishes m ok err k (underWay m k)
      { io with error := if 0 < 0 then .nack else .none } _ hne (state_underWay hne) rfl
      (moveData_underWay hne)
    rcases hpass with hpass | ⟨hb', -⟩
    · rw [hb] at hpass
      rw [hpass]
      exact .inl rfl
    · simp [ready, hb] at hb'

/-- **Without a NAK**: three ready passes lead to the end. -/
theorem retries_zero (hbus : m.i2cData.state = .idle) (hne : k ≠ .wait) : Retries m k ok err 0 := by
  have hleads : Leads (attempt 0) (fun io => io.accepts = true) ready 3
      (subTaskInit m k ok err, 0) (ended (transferred m k) ok err, 1) := by
    refine (Leads.step fun io _ => attempt_asking hne hbus).trans (m := 1) (n := 2) ?_
    refine (Leads.wait fun io ha => attempt_starting hne ha).trans (m := 1) (n := 1) ?_
    exact Leads.wait fun io _ => attempt_finishing hne
  refine ⟨3, fun ios ha hn => ?_⟩
  rw [hleads.rest (fun io _ => attempt_ended rfl) ha hn]
  exact ⟨rfl, rfl, rfl, rfl⟩

/-! ## After a NAK -/

/-- A NAK takes the sub-task back, and leaves the bus with it. -/
theorem tasks_nack (hk : m.subtaskData.subTask = some k) (hne : k ≠ .wait)
    (h1 : m.subtaskData.state = 1)
    (hbus : m.i2cData.state = .inProgressRx ∨ m.i2cData.state = .inProgressTx)
    (hb : io.isBusy = false) (he : io.error = .nack) :
    (drvMcp7940xTasks io m).i2cData.state = .nak ∧
      (drvMcp7940xTasks io m).subtaskData = { m.subtaskData with state := 0 } := by
  have hnak : (i2cTask io m).i2cData.state = .nak := by
    unfold i2cTask
    rcases hbus with hbus | hbus <;> simp only [hbus, hb, he] <;> rfl
  have hpass : drvMcp7940xTasks io m = (i2cTask io m).setSubState 0 := by
    rw [tasks_polling io hk hne h1]
    unfold subTaskPoll
    rw [hnak]
  rw [hpass]
  refine ⟨hnak, ?_⟩
  show { (i2cTask io m).subtaskData with state := 0 } = _
  rw [(i2cTask_frame io m).1]

/-- **The second time the sub-task asks** the bus is not idle, and it ends with an error. -/
theorem tasks_asking_nak (hk : m.subtaskData.subTask = some k) (hne : k ≠ .wait)
    (h0 : m.subtaskData.state = 0) (hnak : m.i2cData.state = .nak) :
    drvMcp7940xTasks io m = subTaskEnd m false := by
  have hbus : i2cTask io m = m := by
    unfold i2cTask
    rw [hnak]
  unfold drvMcp7940xTasks
  rw [hk]
  cases k with
  | wait => exact absurd rfl hne
  | readRegisters =>
    show subTaskReadRegisters io m = _
    unfold subTaskReadRegisters i2cRw
    simp [hbus, h0, hnak]
  | writeRegisters =>
    show subTaskWriteRegisters io m = _
    unfold subTaskWriteRegisters i2cRw
    simp [hbus, h0, hnak]

/-- **One NAK, and the sub-task ends with an error**, whatever follows. -/
theorem attempt_nack (hbus : m.i2cData.state = .idle) (hne : k ≠ .wait) (hn : 0 < naks) (n : Nat) :
    (passes (attempt naks) (subTaskInit m k ok err, 0)
      (List.replicate (n + 4) nackPass)).1.smCurrentState = err := by
  have hstart : attempt naks nackPass (moving m k ok err (request m k), 0) =
      (moving m k ok err (underWay m k), 0) := by
    rcases @attempt_starting m k ok err naks 0 nackPass hne rfl with h | ⟨h, -⟩
    · exact h
    · cases h
  have herror : ({ nackPass with error := if 0 < naks then .nack else .none } : McpIo) = nackPass := by
    rw [if_pos hn]
    rfl
  obtain ⟨hnak, hsub⟩ := @tasks_nack (moving m k ok err (underWay m k)) k nackPass rfl hne rfl
    (state_underWay hne) rfl rfl
  have hrefused : attempt naks nackPass (moving m k ok err (underWay m k), 0) =
      (drvMcp7940xTasks nackPass (moving m k ok err (underWay m k)), 1) := by
    rw [attempt_pending rfl, transferEnds_underWay hne, herror]
    rfl
  have hlast : attempt naks nackPass (drvMcp7940xTasks nackPass (moving m k ok err (underWay m k)), 1) =
      (subTaskEnd (drvMcp7940xTasks nackPass (moving m k ok err (underWay m k))) false, 1) := by
    have hends : transferEnds (drvMcp7940xTasks nackPass (moving m k ok err (underWay m k)))
        nackPass = false := by
      simp [transferEnds, hnak]
    rw [attempt_pending (by rw [hsub]; rfl), hends,
      tasks_asking_nak (by rw [hsub]; rfl) hne (by rw [hsub]) hnak]
    rfl
  rw [show n + 4 = n.succ.succ.succ.succ from rfl]
  simp only [List.replicate_succ, passes_cons]
  rw [attempt_asking hne hbus, hstart, hrefused, hlast,
    passes_rest (P := fun _ => True) (fun io _ => attempt_ended rfl) fun _ _ => trivial]
  show (drvMcp7940xTasks nackPass _).subtaskData.stateOnError = err
  rw [hsub]
  rfl

theorem not_retries_succ (hbus : m.i2cData.state = .idle) (hne : k ≠ .wait) (hoe : ok ≠ err)
    (hn : 0 < naks) : ¬ Retries m k ok err naks := by
  rintro ⟨n, h⟩
  have hready : n ≤ (List.replicate (n + 4) nackPass).countP ready := by
    rw [List.countP_eq_length.mpr (by
      intro io hio
      rw [List.eq_of_mem_replicate hio]
      rfl), List.length_replicate]
    omega
  have hacc : ∀ io ∈ List.replicate (n + 4) nackPass, io.accepts = true := by
    intro io hio
    rw [List.eq_of_mem_replicate hio]
    rfl
  have hok := (h _ hacc hready).smCurrentState
  rw [attempt_nack hbus hne hn] at hok
  exact hoe hok.symm

/-- **A sub-task survives no NAK.** -/
theorem retries_iff (hbus : m.i2cData.state = .idle) (hne : k ≠ .wait) (hoe : ok ≠ err)
    (naks : Nat) : Retries m k ok err naks ↔ naks = 0 := by
  constructor
  · intro h
    by_contra hn
    exact not_retries_succ hbus hne hoe (Nat.pos_of_ne_zero hn) h
  · rintro rfl
    exact retries_zero hbus hne

end Attempts

/-! ## A read of the clock -/

/-- The driver in `MCP7940X_STATE_REFRESH_DATA`, before its first read. -/
def refreshing : Mcp := passes drvMcp7940xTasks (mcpInit fun _ => 0) (List.replicate 3 goodPass)

theorem retries_refreshing : Retries refreshing .readRegisters .checkOn .error 0 :=
  (retries_iff rfl (by decide) (by decide) 0).mpr rfl

theorem not_retries_refreshing : ¬ ∀ naks, Retries refreshing .readRegisters .checkOn .error naks :=
  fun h => not_retries_succ rfl (by decide) (by decide) Nat.one_pos (h 1)

end Rastreo.Drv
