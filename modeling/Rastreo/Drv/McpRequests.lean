import Rastreo.Drv.Mcp7940x

/-!
# What becomes of a request to the external clock (`drv_mcp7940x.c`)

`mcp7940x_get_ts` and `mcp7940x_set_ts` are accepted by the idle driver only, and each leads through
its own states back to `MCP7940X_STATE_IDLE`. An error of the bus leads to `MCP7940X_STATE_ERROR`
instead, and from there through `MCP7940X_STATE_INIT`, which puts `init_cb` in the place of the
caller's callback and knows nothing of a date that was to be set.

* `Ledger` is what has been accepted and, for each update that came to its end, what the chip then
  held; `record` keeps it beside the driver.
* `Accounts`: the callbacks made are those asked for, and the dates written those set.
* `Books` is the invariant: what was accepted is what is still owed and what has been done.
* `sub_pass`, `steady_pass`: what one pass of a sub-task does, in any case and without an error.
* `single_run`: at most one request is in progress.
* `accounts_of_kept`: the idle driver owes nothing, in every run in which no transfer fails while
  something is owed.
-/

namespace Rastreo.Drv

open Rastreo.Lib

/-! ## The ledger -/

/-- What was asked of the driver, and what it wrote. -/
structure Ledger where
  /-- The callbacks given to the accepted `mcp7940x_get_ts`, latest first. -/
  asked : List ℕ
  /-- The dates given to the accepted `mcp7940x_set_ts`, latest first. -/
  sets : List Tm
  /-- The time registers of the chip at the end of each update, latest first. -/
  written : List Bytes

/-- Nothing asked, nothing written. -/
def Ledger.empty : Ledger := ⟨[], [], []⟩

/-- What the ledger remembers of an event. -/
def record (m : Mcp) (e : McpEvent) (g : Ledger) : Ledger :=
  match e with
  | .getTs (some cb) =>
    if (mcp7940xGetTs m (some cb)).1 = 0 then { g with asked := cb :: g.asked } else g
  | .setTs ts => if (mcp7940xSetTs m ts).1 = 0 then { g with sets := ts :: g.sets } else g
  | .tasks io =>
    if m.smCurrentState = .updating ∧ (drvMcp7940xTasks io m).smCurrentState = .idle then
      { g with written := readChip (drvMcp7940xTasks io m).chip 0 7 :: g.written }
    else g
  | .getTs none | .clock _ => g

/-- The callbacks of callers made so far, latest first. -/
def userCalls (m : Mcp) : List ℕ := m.calls.filterMap fun c =>
  match c.1 with
  | .init => none
  | .user name => some name

/-- The registers hold the date. -/
def Holds (regs : Bytes) (t : Tm) : Prop := ∃ r, regs = (updating r t).s.take 7

/-- Each accepted request has been dealt with once. -/
structure Accounts (m : Mcp) (g : Ledger) : Prop where
  answered : userCalls m = g.asked
  written : List.Forall₂ Holds g.written g.sets

/-- The caller behind a callback. -/
def caller : Option McpCallback → List ℕ
  | some (.user name) => [name]
  | _ => []

/-- The callback still to be made. -/
def owedGet (m : Mcp) : List ℕ :=
  match m.smCurrentState with
  | .refreshData | .checkOn => caller m.cb
  | _ => []

/-- The date still to be written. -/
def owedSet (m : Mcp) : List Tm :=
  match m.smCurrentState with
  | .refreshForUpdate | .updating => [m.tsLocal]
  | _ => []

/-- The transfer on the bus fails in this pass: it is not taken, or ends with an error. -/
def Fails (m : Mcp) (io : McpIo) : Prop :=
  io.isBusy = false ∧
    ((m.i2cData.state = .init ∧ io.accepts = false) ∨
      ((m.i2cData.state = .inProgressTx ∨ m.i2cData.state = .inProgressRx) ∧ io.error ≠ .none))

instance (m : Mcp) (io : McpIo) : Decidable (Fails m io) := by unfold Fails; infer_instance

/-- No transfer fails while something is owed. -/
def Kept (m : Mcp) : McpEvent → Prop
  | .tasks io => owedGet m ≠ [] ∨ owedSet m ≠ [] → ¬ Fails m io
  | _ => True

/-! ## One pass of a sub-task -/

/-- What a sub-task has nothing to do with. -/
structure Same (m m' : Mcp) : Prop where
  cb : m'.cb = m.cb
  calls : m'.calls = m.calls
  tsLocal : m'.tsLocal = m.tsLocal

section SubTasks

variable {m : Mcp} {io : McpIo}

theorem same_moveData (m : Mcp) (n : Nat) : Same m (moveData m n) := by
  unfold moveData
  split
  · split <;> exact ⟨rfl, rfl, rfl⟩
  · exact ⟨rfl, rfl, rfl⟩

theorem same_i2cTask (io : McpIo) (m : Mcp) : Same m (i2cTask io m) := by
  have hmove : ∀ n (i : I2cData), Same m { moveData m n with i2cData := i } := by
    intro n i
    obtain ⟨h1, h2, h3⟩ := same_moveData m n
    exact ⟨h1, h2, h3⟩
  unfold i2cTask
  split
  · split <;> exact ⟨rfl, rfl, rfl⟩
  · split
    · exact ⟨rfl, rfl, rfl⟩
    · cases io.error <;> exact hmove _ _
  · split
    · exact ⟨rfl, rfl, rfl⟩
    · cases io.error <;> exact hmove _ _
  · exact ⟨rfl, rfl, rfl⟩

/-- The sub-task goes on, or has ended in one of its two states. -/
structure Passes (m m' : Mcp) : Prop where
  same : Same m m'
  goes : (m'.smCurrentState = m.smCurrentState ∧
      m'.subtaskData.subTask = m.subtaskData.subTask ∧
      m'.subtaskData.stateOnSuccessful = m.subtaskData.stateOnSuccessful ∧
      m'.subtaskData.stateOnError = m.subtaskData.stateOnError) ∨
    (m'.subtaskData.subTask = none ∧
      (m'.smCurrentState = m.subtaskData.stateOnSuccessful ∨
        m'.smCurrentState = m.subtaskData.stateOnError))

theorem passes_refl (m : Mcp) : Passes m m := ⟨⟨rfl, rfl, rfl⟩, .inl ⟨rfl, rfl, rfl, rfl⟩⟩

theorem passes_setSubState (m : Mcp) (n : Nat) : Passes m (m.setSubState n) :=
  ⟨⟨rfl, rfl, rfl⟩, .inl ⟨rfl, rfl, rfl, rfl⟩⟩

theorem passes_subTaskEnd (m : Mcp) (ok : Bool) : Passes m (subTaskEnd m ok) := by
  refine ⟨⟨rfl, rfl, rfl⟩, .inr ⟨rfl, ?_⟩⟩
  cases ok
  · exact .inr rfl
  · exact .inl rfl

/-- What the bus does first changes nothing of it. -/
theorem Passes.of_i2cTask {m' : Mcp} (h : Passes (i2cTask io m) m') : Passes m m' := by
  obtain ⟨hsub, hsm⟩ := i2cTask_frame io m
  obtain ⟨h1, h2, h3⟩ := same_i2cTask io m
  obtain ⟨⟨g1, g2, g3⟩, hgoes⟩ := h
  refine ⟨⟨g1.trans h1, g2.trans h2, g3.trans h3⟩, ?_⟩
  rw [hsub, hsm] at hgoes
  exact hgoes

theorem passes_subTaskPoll (m : Mcp) : Passes m (subTaskPoll m) := by
  unfold subTaskPoll
  split
  · exact passes_setSubState m 0
  · exact passes_subTaskEnd m true
  · exact passes_subTaskEnd m false
  · exact passes_subTaskEnd m false
  · exact passes_refl m

theorem passes_i2cRw (m : Mcp) (tx : Bytes) (n : Nat) (rx : Bool) (k : Nat) :
    Passes m (match i2cRw m tx n rx k with
      | (true, m) => m.setSubState 1
      | (false, m) => subTaskEnd m false) := by
  rcases i2cRw_cases m tx n rx k with h | h
  · rw [h]
    exact passes_subTaskEnd m false
  · rw [h]
    exact ⟨⟨rfl, rfl, rfl⟩, .inl ⟨rfl, rfl, rfl, rfl⟩⟩

/-- **One pass of a sub-task.** -/
theorem sub_pass (io : McpIo) {k : SubTask} (hk : m.subtaskData.subTask = some k) :
    Passes m (drvMcp7940xTasks io m) := by
  unfold drvMcp7940xTasks
  rw [hk]
  cases k with
  | wait =>
    show Passes m (subTaskWait io m)
    unfold subTaskWait
    split
    · split
      · exact passes_setSubState m 1
      · exact passes_subTaskEnd m false
    · split
      · exact passes_subTaskEnd m true
      · exact passes_refl m
    · exact passes_refl m
  | readRegisters =>
    apply @Passes.of_i2cTask m io
    show Passes _ (subTaskReadRegisters io m)
    unfold subTaskReadRegisters
    dsimp only
    split
    · exact passes_i2cRw _ _ _ _ _
    · exact passes_subTaskPoll _
    · exact passes_refl _
  | writeRegisters =>
    apply @Passes.of_i2cTask m io
    show Passes _ (subTaskWriteRegisters io m)
    unfold subTaskWriteRegisters
    dsimp only
    split
    · exact passes_i2cRw _ _ _ _ _
    · exact passes_subTaskPoll _
    · exact passes_refl _

/-- The transfer once the bus has taken it. -/
def underWay (m : Mcp) (k : SubTask) : I2cData :=
  { request m k with state := if (request m k).rx then .inProgressRx else .inProgressTx }

/-- Nothing has gone wrong so far: the sub-task has not asked, or its transfer waits or is under
way. -/
def Steady (m : Mcp) (k : SubTask) : Prop :=
  (m.subtaskData.state = 0 ∧ m.i2cData.state = .idle) ∨
    (m.subtaskData.state = 1 ∧ (m.i2cData = request m k ∨ m.i2cData = underWay m k))

/-- The sub-task goes on with the registers it has. -/
structure GoesOn (m m' : Mcp) (k : SubTask) : Prop where
  subTask : m'.subtaskData.subTask = some k
  smCurrentState : m'.smCurrentState = m.smCurrentState
  rwParams : m'.rwParams = m.rwParams
  sys : m'.sys = m.sys
  steady : Steady m' k

/-- The sub-task has ended well; a write has put its registers into the chip. -/
structure EndsWell (m m' : Mcp) (k : SubTask) : Prop where
  subTask : m'.subtaskData.subTask = none
  smCurrentState : m'.smCurrentState = m.subtaskData.stateOnSuccessful
  chip : k = .writeRegisters →
    m'.chip = writeChip m.chip m.rwParams.startAddress.toNat (m.sys.s.take m.rwParams.length)

/-- A busy bus does nothing. -/
theorem i2cTask_busy (m : Mcp) (hb : io.isBusy = true) : i2cTask io m = m := by
  unfold i2cTask
  split
  · rw [if_pos hb]
  · rw [if_pos hb]
  · rw [if_pos hb]
  · rfl

/-- There is nothing to poll before the transfer has ended. -/
theorem subTaskPoll_pending
    (h : m.i2cData.state = .init ∨ m.i2cData.state = .inProgressRx ∨ m.i2cData.state = .inProgressTx) :
    subTaskPoll m = m := by
  unfold subTaskPoll
  rcases h with h | h | h <;> rw [h]

/-- The bus takes the transfer. -/
theorem i2cTask_request {k : SubTask} (hbus : m.i2cData = request m k) (hb : io.isBusy = false)
    (ha : io.accepts = true) : i2cTask io m = { m with i2cData := underWay m k } := by
  have hstate : m.i2cData.state = .init := by
    rw [hbus]
    cases k <;> rfl
  unfold i2cTask
  rw [hstate]
  simp only [hb, ha, Bool.false_eq_true, if_false, hbus]
  cases k <;> simp [request, underWay]

/-- The transfer ends. -/
theorem i2cTask_underWay {k : SubTask} (hbus : m.i2cData = underWay m k) (hb : io.isBusy = false)
    (he : io.error = .none) : i2cTask io m =
      { moveData m (max (underWay m k).txLength (underWay m k).rxLength) with
        i2cData := { (moveData m (max (underWay m k).txLength (underWay m k).rxLength)).i2cData with
          state := .completed } } := by
  have hstate : m.i2cData.state = .inProgressRx ∨ m.i2cData.state = .inProgressTx := by
    rw [hbus]
    cases k
    · exact .inr rfl
    · exact .inl rfl
    · exact .inr rfl
  unfold i2cTask
  rcases hstate with hstate | hstate
  · rw [hstate]
    simp only [hb, he, Bool.false_eq_true, if_false, ← hbus]
    rfl
  · rw [hstate]
    simp only [hb, he, Bool.false_eq_true, if_false, ← hbus]
    rfl

/-- A write moves all of its registers. -/
theorem chip_moveData (hbus : m.i2cData = underWay m .writeRegisters) :
    (moveData m (max (underWay m .writeRegisters).txLength
      (underWay m .writeRegisters).rxLength)).chip =
      writeChip m.chip m.rwParams.startAddress.toNat (m.sys.s.take m.rwParams.length) := by
  have hall : ((m.sys.s.take m.rwParams.length).take (m.rwParams.length + 1 - 1)).take
      (max (m.rwParams.length + 1) 0) = m.sys.s.take m.rwParams.length := by
    rw [List.take_take, List.take_take]
    congr 1
    omega
  unfold moveData
  rw [hbus]
  simp only [underWay, request, Bool.false_eq_true, if_false, hall]

/-- **One pass without an error.** -/
theorem steady_pass {k : SubTask} (hk : m.subtaskData.subTask = some k) (hne : k ≠ .wait)
    (h : Steady m k) (hf : ¬ Fails m io) :
    GoesOn m (drvMcp7940xTasks io m) k ∨ EndsWell m (drvMcp7940xTasks io m) k := by
  rcases h with ⟨h0, hidle⟩ | ⟨h1, hbus⟩
  · rw [tasks_asking io hk hne h0 hidle]
    refine .inl ⟨hk, rfl, rfl, rfl, .inr ⟨rfl, .inl ?_⟩⟩
    cases k <;> rfl
  · have hstate : (m.i2cData = request m k → m.i2cData.state = .init) ∧
        (m.i2cData = underWay m k →
          m.i2cData.state = .inProgressRx ∨ m.i2cData.state = .inProgressTx) := by
      constructor
      · intro hb
        rw [hb]
        cases k <;> rfl
      · intro hb
        rw [hb]
        cases k
        · exact .inr rfl
        · exact .inl rfl
        · exact .inr rfl
    rw [tasks_polling io hk hne h1]
    by_cases hb : io.isBusy = true
    · -- the bus is busy: nothing changes
      rw [i2cTask_busy m hb, subTaskPoll_pending (hbus.imp hstate.1 hstate.2)]
      exact .inl ⟨hk, rfl, rfl, rfl, .inr ⟨h1, hbus⟩⟩
    · rw [Bool.not_eq_true] at hb
      rcases hbus with hbus | hbus
      · have ha : io.accepts = true := by
          by_contra ha
          exact hf ⟨hb, .inl ⟨hstate.1 hbus, by simpa using ha⟩⟩
        rw [i2cTask_request hbus hb ha, subTaskPoll_pending]
        · refine .inl ⟨hk, rfl, rfl, rfl, .inr ⟨h1, .inr ?_⟩⟩
          cases k <;> rfl
        · cases k
          · exact .inr (.inr rfl)
          · exact .inr (.inl rfl)
          · exact .inr (.inr rfl)
      · have he : io.error = .none := by
          by_contra he
          exact hf ⟨hb, .inr ⟨(hstate.2 hbus).symm, he⟩⟩
        have hframe := (i2cTask_frame io m).1
        rw [i2cTask_underWay hbus hb he] at hframe ⊢
        refine .inr ⟨rfl, congrArg SubTaskData.stateOnSuccessful hframe, ?_⟩
        rintro rfl
        exact chip_moveData hbus

end SubTasks

/-! ## The books -/

/-- Where a sub-task may have been started, and where it leads. -/
def Goes : McpState → SubTask → McpState → Prop
  | .init, .wait, .init | .error, .wait, .init => True
  | .refreshData, .readRegisters, .checkOn | .refreshForUpdate, .readRegisters, .updating => True
  | .turnOn, .writeRegisters, .idle | .updating, .writeRegisters, .idle => True
  | _, _, _ => False

/-- The driver, and what has been accepted. -/
structure Books (m : Mcp) (g : Ledger) : Prop where
  settled : m.Settled
  asked : g.asked = owedGet m ++ userCalls m
  sets : ∃ done, g.sets = owedSet m ++ done ∧ List.Forall₂ Holds g.written done
  phase : ∀ k, m.subtaskData.subTask = some k → m.subtaskData.stateOnError = .error ∧
    Goes m.smCurrentState k m.subtaskData.stateOnSuccessful
  steady : owedGet m ≠ [] ∨ owedSet m ≠ [] →
    ∀ k, m.subtaskData.subTask = some k → Steady m k
  image : m.smCurrentState = .updating → m.subtaskData.subTask ≠ none →
    m.rwParams = ⟨0, 7⟩ ∧ ∃ r, m.sys = updating r m.tsLocal

section Books

variable {m : Mcp} {g : Ledger}

theorem books_mcpInit (chip : Nat → UInt8) : Books (mcpInit chip) .empty where
  settled := settled_mcpInit chip
  asked := rfl
  sets := ⟨[], rfl, .nil⟩
  phase := by
    intro k hk
    obtain rfl := Option.some.inj hk
    exact ⟨rfl, trivial⟩
  steady := by
    intro h
    rcases h with h | h
    · exact absurd rfl h
    · exact absurd rfl h
  image := by
    intro h
    cases h

/-- **The idle driver owes nothing.** -/
theorem Books.accounts (h : Books m g) (hidle : m.smCurrentState = .idle) : Accounts m g := by
  have hget : owedGet m = [] := by
    unfold owedGet
    rw [hidle]
  have hset : owedSet m = [] := by
    unfold owedSet
    rw [hidle]
  obtain ⟨done, hsets, hdone⟩ := h.sets
  rw [hset, List.nil_append] at hsets
  constructor
  · rw [h.asked, hget, List.nil_append]
  · rw [hsets]
    exact hdone

theorem owedGet_congr {m' : Mcp} (hs : m'.smCurrentState = m.smCurrentState) (hcb : m'.cb = m.cb) :
    owedGet m' = owedGet m := by
  unfold owedGet
  rw [hs, hcb]

theorem owedSet_congr {m' : Mcp} (hs : m'.smCurrentState = m.smCurrentState)
    (hts : m'.tsLocal = m.tsLocal) : owedSet m' = owedSet m := by
  unfold owedSet
  rw [hs, hts]

theorem userCalls_congr {m' : Mcp} (hcalls : m'.calls = m.calls) : userCalls m' = userCalls m := by
  unfold userCalls
  rw [hcalls]

/-- The ledger is left alone unless an update ends. -/
theorem record_tasks_of_ne {io : McpIo} (h : m.smCurrentState ≠ .updating ∨
    (drvMcp7940xTasks io m).smCurrentState ≠ .idle) : record m (.tasks io) g = g := by
  have hn : ¬ (m.smCurrentState = .updating ∧
      (drvMcp7940xTasks io m).smCurrentState = .idle) := by tauto
  dsimp only [record]
  rw [if_neg hn]

/-- The sub-tasks that are started, and where. -/
theorem goes_cases {s ok : McpState} {k : SubTask} (h : Goes s k ok) :
    (k = .wait ∧ (s = .init ∨ s = .error) ∧ ok = .init) ∨
    (k = .readRegisters ∧ (s = .refreshData ∧ ok = .checkOn ∨
      s = .refreshForUpdate ∧ ok = .updating)) ∨
    (k = .writeRegisters ∧ (s = .turnOn ∨ s = .updating) ∧ ok = .idle) := by
  cases s <;> cases k <;> cases ok <;> simp [Goes] at h ⊢

/-- What is owed is owed in one of three states. -/
theorem state_of_owed (h : owedGet m ≠ [] ∨ owedSet m ≠ []) :
    m.smCurrentState = .refreshData ∨ m.smCurrentState = .checkOn ∨
      m.smCurrentState = .refreshForUpdate ∨ m.smCurrentState = .updating := by
  unfold owedGet owedSet at h
  cases hs : m.smCurrentState <;> simp [hs] at h ⊢

/-- A pass in which the sub-task goes on. -/
theorem Books.goesOn {io : McpIo} {k : SubTask} (h : Books m g)
    (hk : m.subtaskData.subTask = some k) (hkept : Kept m (.tasks io))
    (hs : (drvMcp7940xTasks io m).smCurrentState = m.smCurrentState)
    (hsub : (drvMcp7940xTasks io m).subtaskData.subTask = some k)
    (hok : (drvMcp7940xTasks io m).subtaskData.stateOnSuccessful = m.subtaskData.stateOnSuccessful)
    (herr : (drvMcp7940xTasks io m).subtaskData.stateOnError = m.subtaskData.stateOnError) :
    Books (drvMcp7940xTasks io m) (record m (.tasks io) g) := by
  obtain ⟨hcb, hcalls, hts⟩ := (sub_pass io hk).same
  have hget := owedGet_congr hs hcb
  have hset := owedSet_congr hs hts
  have hrec : record m (.tasks io) g = g := by
    refine record_tasks_of_ne ?_
    by_cases hu : m.smCurrentState = .updating
    · exact .inr (by rw [hs, hu]; decide)
    · exact .inl hu
  have hgoes := (h.phase k hk).2
  -- with something owed the pass is one without an error
  have hon : owedGet m ≠ [] ∨ owedSet m ≠ [] → GoesOn m (drvMcp7940xTasks io m) k := by
    intro howed
    have hne : k ≠ .wait := by
      rintro rfl
      rcases state_of_owed howed with hw | hw | hw | hw <;> rw [hw] at hgoes <;> exact hgoes
    rcases steady_pass hk hne (h.steady howed k hk) (hkept howed) with hon | hend
    · exact hon
    · rw [hend.subTask] at hsub
      cases hsub
  rw [hrec]
  refine ⟨settled_tasks h.settled, ?_, ?_, ?_, ?_, ?_⟩
  · rw [hget, userCalls_congr hcalls]
    exact h.asked
  · rw [hset]
    exact h.sets
  · intro k' hk'
    rw [hsub] at hk'
    obtain rfl := Option.some.inj hk'
    rw [herr, hs, hok]
    exact h.phase k hk
  · intro howed k' hk'
    rw [hsub] at hk'
    obtain rfl := Option.some.inj hk'
    rw [hget, hset] at howed
    exact (hon howed).steady
  · intro hu _
    rw [hs] at hu
    have hgo := hon (.inr (by unfold owedSet; rw [hu]; simp))
    obtain ⟨hrw, r, hr⟩ := h.image hu (by rw [hk]; simp)
    exact ⟨hgo.rwParams.trans hrw, r, by rw [hgo.sys, hts]; exact hr⟩

/-- What the end of a sub-task leaves to show: without a sub-task the last three clauses hold. -/
theorem Books.of_ended {m' : Mcp} {g' : Ledger} (hm : m'.Settled)
    (hsub : m'.subtaskData.subTask = none) (hasked : g'.asked = owedGet m' ++ userCalls m')
    (hsets : ∃ done, g'.sets = owedSet m' ++ done ∧ List.Forall₂ Holds g'.written done) :
    Books m' g' := by
  refine ⟨hm, hasked, hsets, ?_, ?_, ?_⟩
  · intro k hk
    rw [hsub] at hk
    cases hk
  · intro _ k hk
    rw [hsub] at hk
    cases hk
  · intro _ hne
    exact absurd hsub hne

/-- The registers at the end of an update. -/
theorem holds_of_endsWell {m' : Mcp} (h : EndsWell m m' .writeRegisters)
    (hrw : m.rwParams = ⟨0, 7⟩) {r : McpRegs} {t : Tm} (hsys : m.sys = updating r t) :
    Holds (readChip m'.chip 0 7) t := by
  refine ⟨r, ?_⟩
  rw [h.chip rfl, hrw, hsys]
  rfl

/-- A pass in which the sub-task ends. -/
theorem Books.ends {io : McpIo} {k : SubTask} (h : Books m g)
    (hk : m.subtaskData.subTask = some k) (hkept : Kept m (.tasks io))
    (hsub : (drvMcp7940xTasks io m).subtaskData.subTask = none)
    (hs : (drvMcp7940xTasks io m).smCurrentState = m.subtaskData.stateOnSuccessful ∨
      (drvMcp7940xTasks io m).smCurrentState = m.subtaskData.stateOnError) :
    Books (drvMcp7940xTasks io m) (record m (.tasks io) g) := by
  obtain ⟨hcb, hcalls, hts⟩ := (sub_pass io hk).same
  have hcallsU := userCalls_congr hcalls
  obtain ⟨herr, hgoes⟩ := h.phase k hk
  have hm := @settled_tasks m io h.settled
  have hasked := h.asked
  obtain ⟨done, hsets, hdone⟩ := h.sets
  by_cases howed : owedGet m ≠ [] ∨ owedSet m ≠ []
  · -- something is owed: the sub-task has ended well
    have hend : k ≠ .wait → EndsWell m (drvMcp7940xTasks io m) k := by
      intro hne
      rcases steady_pass hk hne (h.steady howed k hk) (hkept howed) with hon | hend
      · rw [hon.subTask] at hsub
        cases hsub
      · exact hend
    rcases goes_cases hgoes with ⟨-, hw, -⟩ | ⟨rfl, ⟨hw, hok⟩ | ⟨hw, hok⟩⟩ | ⟨rfl, hw, hok⟩
    · rcases state_of_owed howed with hw' | hw' | hw' | hw' <;> rw [hw'] at hw <;> simp at hw
    · -- the registers have been read for `mcp7940x_get_ts`
      have hstate := (hend (by decide)).smCurrentState.trans hok
      rw [record_tasks_of_ne (.inl (by rw [hw]; decide))]
      refine .of_ended hm hsub ?_ ⟨done, ?_, hdone⟩
      · unfold owedGet at hasked ⊢
        rw [hw] at hasked
        rw [hstate, hcb, hcallsU]
        exact hasked
      · unfold owedSet at hsets ⊢
        rw [hw] at hsets
        rw [hstate]
        exact hsets
    · -- they have been read for `mcp7940x_set_ts`
      have hstate := (hend (by decide)).smCurrentState.trans hok
      rw [record_tasks_of_ne (.inl (by rw [hw]; decide))]
      refine .of_ended hm hsub ?_ ⟨done, ?_, hdone⟩
      · unfold owedGet at hasked ⊢
        rw [hw] at hasked
        rw [hstate, hcallsU]
        exact hasked
      · unfold owedSet at hsets ⊢
        rw [hw] at hsets
        rw [hstate, hts]
        exact hsets
    · -- the update has been written
      have hu : m.smCurrentState = .updating := by
        rcases state_of_owed howed with hw' | hw' | hw' | hw' <;> rw [hw'] at hw <;> simp_all
      have hwell := hend (by decide)
      have hstate := hwell.smCurrentState.trans hok
      obtain ⟨hrw, r, hsys⟩ := h.image hu (by rw [hk]; simp)
      have hrec : record m (.tasks io) g =
          { g with written := readChip (drvMcp7940xTasks io m).chip 0 7 :: g.written } := by
        dsimp only [record]
        rw [if_pos ⟨hu, hstate⟩]
      rw [hrec]
      refine .of_ended hm hsub ?_ ⟨m.tsLocal :: done, ?_, ?_⟩
      · unfold owedGet at hasked ⊢
        rw [hu] at hasked
        rw [hstate, hcallsU]
        exact hasked
      · unfold owedSet at hsets ⊢
        rw [hu] at hsets
        rw [hstate]
        exact hsets
      · exact .cons (holds_of_endsWell hwell hrw hsys) hdone
  · -- nothing is owed, and nothing comes to be
    rw [not_or, not_not, not_not] at howed
    obtain ⟨hget, hset⟩ := howed
    have hnu : m.smCurrentState ≠ .updating := by
      intro hu
      unfold owedSet at hset
      rw [hu] at hset
      simp at hset
    have hnr : m.smCurrentState ≠ .refreshForUpdate := by
      intro hu
      unfold owedSet at hset
      rw [hu] at hset
      simp at hset
    rw [record_tasks_of_ne (.inl hnu)]
    have hstate : ((drvMcp7940xTasks io m).smCurrentState = .checkOn ∧
          m.smCurrentState = .refreshData) ∨
        (drvMcp7940xTasks io m).smCurrentState = .init ∨
        (drvMcp7940xTasks io m).smCurrentState = .idle ∨
        (drvMcp7940xTasks io m).smCurrentState = .error := by
      rcases hs with hs | hs
      · rcases goes_cases hgoes with ⟨-, -, hok⟩ | ⟨-, ⟨hw, hok⟩ | ⟨hw, -⟩⟩ | ⟨-, -, hok⟩
        · exact .inr (.inl (hs.trans hok))
        · exact .inl ⟨hs.trans hok, hw⟩
        · exact absurd hw hnr
        · exact .inr (.inr (.inl (hs.trans hok)))
      · exact .inr (.inr (.inr (hs.trans herr)))
    have hgetE : owedGet (drvMcp7940xTasks io m) = [] := by
      rcases hstate with ⟨hs', hw⟩ | hs' | hs' | hs'
      · unfold owedGet at hget ⊢
        rw [hw] at hget
        rw [hs', hcb]
        exact hget
      all_goals
        unfold owedGet
        rw [hs']
    have hsetE : owedSet (drvMcp7940xTasks io m) = [] := by
      unfold owedSet
      rcases hstate with ⟨hs', -⟩ | hs' | hs' | hs' <;> rw [hs']
    refine .of_ended hm hsub ?_ ⟨done, ?_, hdone⟩
    · rw [hgetE, hcallsU, ← hget]
      exact hasked
    · rw [hsetE, ← hset]
      exact hsets

/-- A sub-task is started, in the state of the driver as it is. -/
theorem Books.starts {m₁ : Mcp} {k : SubTask} {ok : McpState} (h : Books m g)
    (hk : m.subtaskData.subTask = none) (hs : m₁.smCurrentState = m.smCurrentState)
    (hsame : Same m m₁) (hbus : m₁.i2cData = m.i2cData) (hgo : Goes m.smCurrentState k ok)
    (himage : m.smCurrentState = .updating →
      m₁.rwParams = ⟨0, 7⟩ ∧ ∃ r, m₁.sys = updating r m₁.tsLocal) :
    Books (subTaskInit m₁ k ok .error) g := by
  have hni : m.smCurrentState ≠ .idle := by
    intro hidle
    rw [hidle] at hgo
    cases k <;> cases ok <;> exact hgo
  have hget : owedGet (subTaskInit m₁ k ok .error) = owedGet m := owedGet_congr hs hsame.cb
  have hset : owedSet (subTaskInit m₁ k ok .error) = owedSet m := owedSet_congr hs hsame.tsLocal
  have hcalls : userCalls (subTaskInit m₁ k ok .error) = userCalls m := userCalls_congr hsame.calls
  refine ⟨settled_subTaskInit (by rw [hs]; exact hni), ?_, ?_, ?_, ?_, ?_⟩
  · rw [hget, hcalls]
    exact h.asked
  · rw [hset]
    exact h.sets
  · intro k' hk'
    obtain rfl := Option.some.inj hk'
    refine ⟨rfl, ?_⟩
    show Goes m₁.smCurrentState k ok
    rw [hs]
    exact hgo
  · intro _ k' _
    refine .inl ⟨rfl, ?_⟩
    show m₁.i2cData.state = .idle
    rw [hbus]
    exact h.settled.quiet hk
  · intro hu _
    exact himage (hs.symm.trans hu)

/-- `MCP7940X_STATE_CHECK_ON` makes the callback. -/
theorem userCalls_callBack (m : Mcp) (ctx : McpContext) :
    userCalls (m.callBack ctx) = caller m.cb ++ userCalls m := by
  unfold Mcp.callBack userCalls
  cases hcb : m.cb with
  | none => rfl
  | some cb =>
    cases cb with
    | init => rfl
    | user name => rfl

/-- After `MCP7940X_STATE_CHECK_ON` nothing is owed that was. -/
theorem Books.checkOn (h : Books m g) (hk : m.subtaskData.subTask = none)
    (hs : m.smCurrentState = .checkOn) (hm : m.checkOn.Settled) : Books m.checkOn g := by
  have hasked := h.asked
  obtain ⟨done, hsets, hdone⟩ := h.sets
  unfold owedGet at hasked
  unfold owedSet at hsets
  rw [hs] at hasked hsets
  have hstate : m.checkOn.smCurrentState = .idle ∨ m.checkOn.smCurrentState = .turnOn := by
    unfold Mcp.checkOn
    dsimp only
    split
    · exact .inl (callBack_smCurrentState _ _)
    · exact .inr (callBack_smCurrentState _ _)
  have hsub : m.checkOn.subtaskData = m.subtaskData := by
    unfold Mcp.checkOn
    dsimp only
    split <;> exact callBack_subtaskData _ _
  have hcalls : userCalls m.checkOn = caller m.cb ++ userCalls m := by
    unfold Mcp.checkOn
    dsimp only
    split <;> exact userCalls_callBack _ _
  refine .of_ended hm (by rw [hsub]; exact hk) ?_ ⟨done, ?_, hdone⟩
  · unfold owedGet
    rw [hcalls]
    rcases hstate with hs' | hs' <;> rw [hs'] <;> exact hasked
  · unfold owedSet
    rcases hstate with hs' | hs' <;> rw [hs'] <;> exact hsets

/-- A pass between the sub-tasks. -/
theorem Books.between {io : McpIo} (h : Books m g) (hk : m.subtaskData.subTask = none) :
    Books (drvMcp7940xTasks io m) (record m (.tasks io) g) := by
  have hquiet := h.settled.quiet hk
  have hm := @settled_tasks m io h.settled
  have hrec : record m (.tasks io) g = g := by
    refine record_tasks_of_ne ?_
    by_cases hu : m.smCurrentState = .updating
    · refine .inr ?_
      unfold drvMcp7940xTasks
      simp [hk, hu, hquiet, subTaskInit]
    · exact .inl hu
  rw [hrec]
  cases hs : m.smCurrentState with
  | init =>
    have htask : drvMcp7940xTasks io m =
        { m with rwParams := ⟨0, 9⟩, cb := some .init, smCurrentState := .refreshData } := by
      unfold drvMcp7940xTasks
      simp only [hk, hs]
    have hasked := h.asked
    obtain ⟨done, hsets, hdone⟩ := h.sets
    unfold owedGet at hasked
    unfold owedSet at hsets
    rw [hs] at hasked hsets
    rw [htask] at hm ⊢
    exact .of_ended hm hk hasked ⟨done, hsets, hdone⟩
  | idle =>
    have htask : drvMcp7940xTasks io m = m := by
      unfold drvMcp7940xTasks
      simp only [hk, hs]
    rw [htask]
    exact h
  | checkOn =>
    have htask : drvMcp7940xTasks io m = m.checkOn := by
      unfold drvMcp7940xTasks
      simp only [hk, hs]
    rw [htask] at hm ⊢
    exact h.checkOn hk hs hm
  | refreshData =>
    have htask : drvMcp7940xTasks io m = subTaskInit m .readRegisters .checkOn .error := by
      unfold drvMcp7940xTasks
      simp only [hk, hs, hquiet, if_true]
    rw [htask]
    exact h.starts hk rfl ⟨rfl, rfl, rfl⟩ rfl (by rw [hs]; trivial) (by rw [hs]; intro hu; cases hu)
  | refreshForUpdate =>
    have htask : drvMcp7940xTasks io m = subTaskInit m .readRegisters .updating .error := by
      unfold drvMcp7940xTasks
      simp only [hk, hs, hquiet, if_true]
    rw [htask]
    exact h.starts hk rfl ⟨rfl, rfl, rfl⟩ rfl (by rw [hs]; trivial) (by rw [hs]; intro hu; cases hu)
  | turnOn =>
    have htask : drvMcp7940xTasks io m =
        subTaskInit { m with rwParams := ⟨0, 8⟩, sys := turnOn m.sys }
          .writeRegisters .idle .error := by
      unfold drvMcp7940xTasks
      simp only [hk, hs, hquiet, if_true]
    rw [htask]
    exact h.starts hk rfl ⟨rfl, rfl, rfl⟩ rfl (by rw [hs]; trivial) (by rw [hs]; intro hu; cases hu)
  | updating =>
    have htask : drvMcp7940xTasks io m =
        subTaskInit { m with rwParams := ⟨0, 7⟩, sys := updating m.sys m.tsLocal }
          .writeRegisters .idle .error := by
      unfold drvMcp7940xTasks
      simp only [hk, hs, hquiet, if_true]
    rw [htask]
    exact h.starts hk rfl ⟨rfl, rfl, rfl⟩ rfl (by rw [hs]; trivial) fun _ => ⟨rfl, m.sys, rfl⟩
  | error =>
    have htask : drvMcp7940xTasks io m =
        subTaskInit { m with timeDelayms := 5000 } .wait .init .error := by
      unfold drvMcp7940xTasks
      simp only [hk, hs]
    rw [htask]
    exact h.starts hk rfl ⟨rfl, rfl, rfl⟩ rfl (by rw [hs]; trivial) (by rw [hs]; intro hu; cases hu)

/-- `mcp7940x_get_ts`. -/
theorem Books.getTs (h : Books m g) (cb : Option Nat) (hm : (mcp7940xGetTs m cb).2.Settled) :
    Books (mcp7940xGetTs m cb).2 (record m (.getTs cb) g) := by
  by_cases hidle : m.smCurrentState = .idle
  · have hget : mcp7940xGetTs m cb =
        (0, { m with rwParams := ⟨0, 9⟩, cb := cb.map .user, smCurrentState := .refreshData }) := by
      unfold mcp7940xGetTs
      rw [if_neg (not_not.mpr hidle)]
    have hasked := h.asked
    obtain ⟨done, hsets, hdone⟩ := h.sets
    unfold owedGet at hasked
    unfold owedSet at hsets
    rw [hidle] at hasked hsets
    have hsub := h.settled.resting hidle
    cases cb with
    | none =>
      rw [hget] at hm ⊢
      exact .of_ended hm hsub hasked ⟨done, hsets, hdone⟩
    | some name =>
      have hrec : record m (.getTs (some name)) g = { g with asked := name :: g.asked } := by
        dsimp only [record]
        rw [hget, if_pos rfl]
      rw [hrec]
      rw [hget] at hm ⊢
      exact .of_ended hm hsub (congrArg (name :: ·) hasked) ⟨done, hsets, hdone⟩
  · have hget : mcp7940xGetTs m cb = (-1, m) := by
      unfold mcp7940xGetTs
      rw [if_pos hidle]
    have hrec : record m (.getTs cb) g = g := by
      cases cb with
      | none => rfl
      | some name =>
        dsimp only [record]
        rw [hget, if_neg (show ¬ (-1 : Int) = 0 by decide)]
    rw [hrec, hget]
    exact h

/-- `mcp7940x_set_ts`. -/
theorem Books.setTs (h : Books m g) (ts : Tm) (hm : (mcp7940xSetTs m ts).2.Settled) :
    Books (mcp7940xSetTs m ts).2 (record m (.setTs ts) g) := by
  by_cases hidle : m.smCurrentState = .idle
  · have hset : mcp7940xSetTs m ts =
        (0, { m with tsLocal := ts, rwParams := ⟨0, 7⟩, smCurrentState := .refreshForUpdate }) := by
      unfold mcp7940xSetTs
      rw [if_neg (not_not.mpr hidle)]
    have hrec : record m (.setTs ts) g = { g with sets := ts :: g.sets } := by
      dsimp only [record]
      rw [hset, if_pos rfl]
    have hasked := h.asked
    obtain ⟨done, hsets, hdone⟩ := h.sets
    unfold owedGet at hasked
    unfold owedSet at hsets
    rw [hidle] at hasked hsets
    rw [hrec]
    rw [hset] at hm ⊢
    exact .of_ended hm (h.settled.resting hidle) hasked ⟨done, congrArg (ts :: ·) hsets, hdone⟩
  · have hset : mcp7940xSetTs m ts = (-1, m) := by
      unfold mcp7940xSetTs
      rw [if_pos hidle]
    have hrec : record m (.setTs ts) g = g := by
      dsimp only [record]
      rw [hset, if_neg (show ¬ (-1 : Int) = 0 by decide)]
    rw [hrec, hset]
    exact h

/-- **One event** in which no transfer fails while something is owed. -/
theorem Books.step {e : McpEvent} {m' : Mcp} (h : Books m g) (hkept : Kept m e)
    (hstep : mcpStep m e = some m') : Books m' (record m e g) := by
  have hm := settled_of_step h.settled hstep
  cases e with
  | tasks io =>
    obtain rfl := Option.some.inj hstep
    show Books (drvMcp7940xTasks io m) _
    cases hk : m.subtaskData.subTask with
    | none => exact h.between hk
    | some k =>
      rcases (sub_pass io hk).goes with ⟨hs, hsub, hok, herr⟩ | ⟨hsub, hs⟩
      · exact h.goesOn hk hkept hs (hsub.trans hk) hok herr
      · exact h.ends hk hkept hsub hs
  | getTs cb =>
    obtain rfl := Option.some.inj hstep
    exact h.getTs cb hm
  | setTs ts =>
    obtain rfl := Option.some.inj hstep
    exact h.setTs ts hm
  | clock chip =>
    obtain rfl := Option.some.inj hstep
    exact ⟨hm, h.asked, h.sets, h.phase, h.steady, h.image⟩

/-- **The idle driver has dealt with every request it accepted**, in every run in which no transfer
fails while something is owed. -/
theorem accounts_of_kept {chip : Nat → UInt8} {es : List McpEvent}
    (hr : run (watch mcpStep record) (mcpInit chip, .empty) es = some (m, g))
    (hC : Along (watch mcpStep record) (fun p e => Kept p.1 e) (mcpInit chip, .empty) es)
    (hidle : m.smCurrentState = .idle) : Accounts m g := by
  have hbooks : Books (m, g).1 (m, g).2 := by
    refine inv_of_run (I := fun p => Books p.1 p.2) ?_ (books_mcpInit chip) hC hr
    intro p e q hp hkept hstep
    obtain ⟨hs, hg⟩ := watch_eq_some.mp hstep
    rw [hg]
    exact hp.step hkept hs
  exact hbooks.accounts hidle

end Books

/-! ## One request at a time -/

/-- The two requests. -/
inductive McpRequest
  | getTs
  | setTs
  deriving DecidableEq, Repr

/-- The requests in progress: accepted, and the driver not back in `MCP7940X_STATE_IDLE`. -/
def inProgress (m : Mcp) (e : McpEvent) (g : List McpRequest) : List McpRequest :=
  match e with
  | .getTs cb => if (mcp7940xGetTs m cb).1 = 0 then .getTs :: g else g
  | .setTs ts => if (mcp7940xSetTs m ts).1 = 0 then .setTs :: g else g
  | .tasks io => if (drvMcp7940xTasks io m).smCurrentState = .idle then [] else g
  | .clock _ => g

/-- The idle driver has none in progress, and no driver more than one. -/
structure Single (m : Mcp) (g : List McpRequest) : Prop where
  settled : m.Settled
  atMostOne : g.length ≤ 1
  resting : m.smCurrentState = .idle → g = []

section Single

variable {m : Mcp} {g : List McpRequest}

/-- **Only the idle driver accepts a read.** -/
theorem getTs_accepted (m : Mcp) (cb : Option Nat) :
    (mcp7940xGetTs m cb).1 = 0 ↔ m.smCurrentState = .idle := by
  unfold mcp7940xGetTs
  split
  · rename_i h
    exact ⟨fun h0 => absurd (show (-1 : Int) = 0 from h0) (by decide), fun hidle => absurd hidle h⟩
  · rename_i h
    exact ⟨fun _ => not_not.mp h, fun _ => rfl⟩

/-- **Only the idle driver accepts an update.** -/
theorem setTs_accepted (m : Mcp) (ts : Tm) :
    (mcp7940xSetTs m ts).1 = 0 ↔ m.smCurrentState = .idle := by
  unfold mcp7940xSetTs
  split
  · rename_i h
    exact ⟨fun h0 => absurd (show (-1 : Int) = 0 from h0) (by decide), fun hidle => absurd hidle h⟩
  · rename_i h
    exact ⟨fun _ => not_not.mp h, fun _ => rfl⟩

/-- An accepted request is the only one. -/
theorem Single.accepted {m' : Mcp} (h : Single m g) (hm : m'.Settled) (r : McpRequest)
    (hidle : m.smCurrentState = .idle) (hbusy : m'.smCurrentState ≠ .idle) : Single m' (r :: g) := by
  refine ⟨hm, ?_, fun hidle' => absurd hidle' hbusy⟩
  rw [h.resting hidle]
  rfl

theorem Single.step {e : McpEvent} {m' : Mcp} (h : Single m g) (hstep : mcpStep m e = some m') :
    Single m' (inProgress m e g) := by
  have hm := settled_of_step h.settled hstep
  cases e with
  | tasks io =>
    obtain rfl := Option.some.inj hstep
    dsimp only [inProgress]
    split
    · exact ⟨hm, Nat.zero_le 1, fun _ => rfl⟩
    · rename_i hbusy
      exact ⟨hm, h.atMostOne, fun hidle => absurd hidle hbusy⟩
  | getTs cb =>
    obtain rfl := Option.some.inj hstep
    dsimp only [inProgress]
    split
    · rename_i h0
      have hidle := (getTs_accepted m cb).mp h0
      refine h.accepted hm .getTs hidle ?_
      unfold mcp7940xGetTs
      rw [if_neg (not_not.mpr hidle)]
      exact show McpState.refreshData ≠ .idle by decide
    · rename_i h0
      have hbusy := mt (getTs_accepted m cb).mpr h0
      unfold mcp7940xGetTs
      rw [if_pos hbusy]
      exact h
  | setTs ts =>
    obtain rfl := Option.some.inj hstep
    dsimp only [inProgress]
    split
    · rename_i h0
      have hidle := (setTs_accepted m ts).mp h0
      refine h.accepted hm .setTs hidle ?_
      unfold mcp7940xSetTs
      rw [if_neg (not_not.mpr hidle)]
      exact show McpState.refreshForUpdate ≠ .idle by decide
    · rename_i h0
      have hbusy := mt (setTs_accepted m ts).mpr h0
      unfold mcp7940xSetTs
      rw [if_pos hbusy]
      exact h
  | clock chip =>
    obtain rfl := Option.some.inj hstep
    exact ⟨hm, h.atMostOne, h.resting⟩

/-- **In every run** the bus is idle without a sub-task, and at most one request is in progress: the
driver accepts one in `MCP7940X_STATE_IDLE` only, where none is. -/
theorem single_run {chip : Nat → UInt8} {es : List McpEvent}
    (hr : run (watch mcpStep inProgress) (mcpInit chip, []) es = some (m, g)) :
    (m.subtaskData.subTask = none → m.i2cData.state = .idle) ∧ g.length ≤ 1 ∧
      (∀ cb, (mcp7940xGetTs m cb).1 = 0 ↔ m.smCurrentState = .idle) ∧
      (∀ ts, (mcp7940xSetTs m ts).1 = 0 ↔ m.smCurrentState = .idle) ∧
      (m.smCurrentState = .idle → g = []) := by
  have hstart : Single (mcpInit chip) [] :=
    ⟨settled_mcpInit chip, Nat.zero_le 1, fun _ => rfl⟩
  have hsingle : Single (m, g).1 (m, g).2 := by
    refine inv_of_run (I := fun p => Single p.1 p.2) (C := fun _ _ => True) ?_ hstart along_true hr
    intro p e q hp _ hstep
    obtain ⟨hs, hg⟩ := watch_eq_some.mp hstep
    rw [hg]
    exact hp.step hs
  exact ⟨hsingle.settled.quiet, hsingle.atMostOne, getTs_accepted m, setTs_accepted m,
    hsingle.resting⟩

end Single

/-! ## Some runs -/

/-- A pass in which the chip does not answer. -/
def nackPass : McpIo := ⟨false, true, .nack, 0, true, true⟩

instance (m : Mcp) (e : McpEvent) : Decidable (Kept m e) :=
  match e with
  | .tasks io => inferInstanceAs (Decidable (owedGet m ≠ [] ∨ owedSet m ≠ [] → ¬ Fails m io))
  | .getTs _ | .setTs _ | .clock _ => .isTrue trivial

/-- The start, a read and an update. -/
def servedRun : List McpEvent :=
  List.replicate 12 (.tasks goodPass) ++ .getTs (some 7) :: List.replicate 10 (.tasks goodPass) ++
    .setTs ⟨1, 2, 3, 4, 5, 106, 0, 0, 0⟩ :: List.replicate 10 (.tasks goodPass)

/-- The same read, with an error of the bus in it. -/
def droppedRun : List McpEvent :=
  List.replicate 12 (.tasks goodPass) ++ .getTs (some 7) :: List.replicate 3 (.tasks goodPass) ++
    List.replicate 2 (.tasks nackPass) ++ List.replicate 20 (.tasks goodPass)

/-- A read has been accepted, and then an update asked for. -/
theorem single_asked : ∃ m,
    run (watch mcpStep inProgress) (mcpInit fun _ => 0, [])
        (List.replicate 12 (.tasks goodPass) ++
          [.getTs (some 7), .setTs ⟨1, 2, 3, 4, 5, 106, 0, 0, 0⟩]) = some (m, [.getTs]) ∧
      m.i2cData.state = .idle := by
  have hend : (run (watch mcpStep inProgress) (mcpInit fun _ => 0, [])
      (List.replicate 12 (.tasks goodPass) ++
        [.getTs (some 7), .setTs ⟨1, 2, 3, 4, 5, 106, 0, 0, 0⟩])).map
        (fun p => (p.1.subtaskData.subTask, p.2)) = some (none, [.getTs]) := by decide +kernel
  obtain ⟨⟨m, g⟩, hr, hmg⟩ := Option.map_eq_some_iff.mp hend
  obtain ⟨hsub, rfl⟩ := Prod.mk.inj hmg
  exact ⟨m, hr, (single_run hr).1 hsub⟩

theorem accounts_served : ∃ m g,
    run (watch mcpStep record) (mcpInit fun _ => 0, .empty) servedRun = some (m, g) ∧
      g.asked = [7] ∧ g.sets = [⟨1, 2, 3, 4, 5, 106, 0, 0, 0⟩] ∧ Accounts m g := by
  have hend : (run (watch mcpStep record) (mcpInit fun _ => 0, .empty) servedRun).map
      (fun p => (p.1.smCurrentState, p.2.asked, p.2.sets)) =
        some (.idle, [7], [⟨1, 2, 3, 4, 5, 106, 0, 0, 0⟩]) := by decide +kernel
  obtain ⟨⟨m, g⟩, hr, hmg⟩ := Option.map_eq_some_iff.mp hend
  simp only [Prod.mk.injEq] at hmg
  exact ⟨m, g, hr, hmg.2.1, hmg.2.2, accounts_of_kept hr (by decide +kernel) hmg.1⟩

/-- **A caller is never called back**: its callback has been replaced by `init_cb`. -/
theorem not_accounts_dropped : ∃ m g,
    run (watch mcpStep record) (mcpInit fun _ => 0, .empty) droppedRun = some (m, g) ∧
      m.smCurrentState = .idle ∧ ¬ Accounts m g := by
  have hend : (run (watch mcpStep record) (mcpInit fun _ => 0, .empty) droppedRun).map
      (fun p => (p.1.smCurrentState, userCalls p.1, p.2.asked)) = some (.idle, [], [7]) := by
    decide +kernel
  obtain ⟨⟨m, g⟩, hr, hmg⟩ := Option.map_eq_some_iff.mp hend
  simp only [Prod.mk.injEq] at hmg
  refine ⟨m, g, hr, hmg.1, fun h => ?_⟩
  have hcalls := h.answered
  rw [hmg.2.1, hmg.2.2] at hcalls
  cases hcalls

end Rastreo.Drv
