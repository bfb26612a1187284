import Rastreo.Simcom.Interleaved

/-!
# The waits of the modem task

`timer` is one variable for two waits: 15 s after the modem's start message, and 10 s between two
uploads. The task loads it, the 1 ms callback counts it down to 1 and leaves it there, and the two
states that wait go on when it is 1. The callback can run between any two statements.

`Waits` counts the ticks since each of the two loads. What is left in the timer and what has been
counted make up at least what was loaded (`Waiting`), so a wait ends no earlier than that
(`waits_full`).
-/

namespace Rastreo.Simcom

open Rastreo.Lib

/-! ## Counting ticks -/

/-- The ticks since the OK that left `SIMCOM_STATE_HTTP_STOP_SERVICE`, and since the last start
message. -/
structure Waits where
  stopService : Option Nat
  atReady : Option Nat
  deriving DecidableEq, Repr

/-- The next statement takes the modem's start message. -/
def Machine.hearsAtReady (m : Machine) : Bool :=
  match m.pc with
  | .replying .atReady _ =>
    atCommandParse m.sys.buffRecv.bytes && strcmp m.sys.buffRecv.bytes atReadyText == 0
  | _ => false

/-- The statement leaves `SIMCOM_STATE_HTTP_STOP_SERVICE` for `SIMCOM_STATE_READY`. -/
def Machine.stopsService (m : Machine) (io : Io) : Bool :=
  m.sys.state == .httpStopService && (execStatement io m).sys.state == .ready

/-- The waits after an event. -/
def Waits.after (m : Machine) (e : MicroEvent) (w : Waits) : Waits :=
  match e with
  | .step io =>
    ⟨if m.stopsService io then some 0 else w.stopService,
      if m.hearsAtReady then some 0 else w.atReady⟩
  | .tick => ⟨w.stopService.map (· + 1), w.atReady.map (· + 1)⟩
  | _ => w

/-- What the waiting states know of the timer. -/
structure Waiting (m : Machine) (w : Waits) : Prop where
  fits : m.pc.Fits m.sys.state
  unloaded : w.atReady = none → m.sys.state = .waitingDriverReady ∨ m.sys.state = .notReady →
    m.sys.timer = 0
  fresh : m.sys.state = .waitingDriverReady → w.atReady = none
  listening : m.sys.state = .notReady → ∀ n, w.atReady = some n →
    1 ≤ m.sys.timer.toNat ∧ 15000 ≤ m.sys.timer.toNat + n
  ready : m.sys.state = .ready →
    ∃ n, w.stopService = some n ∧ 1 ≤ m.sys.timer.toNat ∧ 10000 ≤ m.sys.timer.toNat + n

/-! ## What a statement does to the timer -/

/-- The states whose `case` waits or is waited for. -/
def Waits.Of (q : State) : Prop := q = .waitingDriverReady ∨ q = .notReady ∨ q = .ready

instance (q : State) : Decidable (Waits.Of q) :=
  inferInstanceAs (Decidable (q = .waitingDriverReady ∨ q = .notReady ∨ q = .ready))

/-- The replies of a `case`: those that load the timer have one each, and no other leads to a
state that waits. -/
theorem reply_of_suffix {q : State} {r : Reply} {bs : List Block}
    (h : .parse r :: bs <:+ (script q).blocks) :
    (r = .atReady ∧ q = .notReady) ∨ (r = .stopService ∧ q = .httpStopService) ∨
      (r ≠ .atReady ∧ r ≠ .stopService ∧ ¬ Waits.Of q ∧
        ∀ next err, r = .result next err → ¬ Waits.Of next ∧ ¬ Waits.Of err) := by
  cases q <;>
    simp only [script, Script.blocks, List.suffix_cons_iff, List.suffix_nil, List.cons.injEq,
      reduceCtorEq, false_and, false_or, or_false, Block.parse.injEq] at h
  all_goals
    obtain ⟨rfl, -⟩ := h
    simp [Waits.Of]

theorem timer_replyTo {io : Io} {s : Sys} {r : Reply} (h : r ≠ .atReady) (h' : r ≠ .stopService) :
    (replyTo io s r).timer = s.timer := by
  cases r with
  | atReady => exact absurd rfl h
  | stopService => exact absurd rfl h'
  | gps =>
    obtain heq | ⟨g, body, heq⟩ := replyTo_gps io s
    · rw [heq]
    · rw [heq]
      rfl
  | postData =>
    simp only [replyTo]
    split
    · split <;> rfl
    · split
      · rfl
      · split <;> rfl
  | pdpAddress =>
    simp only [replyTo]
    split
    · rfl
    · split
      · split <;> rfl
      · split <;> rfl
  | result next err | postResponse | readResponse =>
    simp only [replyTo]
    split
    · rfl
    · split <;> rfl

/-- A reply that does not load the timer leads to no state that waits. -/
theorem state_replyTo {io : Io} {s : Sys} {r : Reply} (h : r ≠ .atReady) (h' : r ≠ .stopService)
    (hres : ∀ next err, r = .result next err → ¬ Waits.Of next ∧ ¬ Waits.Of err) :
    (replyTo io s r).state = s.state ∨ ¬ Waits.Of (replyTo io s r).state := by
  by_cases hgps : r = .gps
  · subst hgps
    rcases replyTo_gps io s with heq | ⟨g, body, heq⟩ <;> rw [heq]
    · exact .inl rfl
    · exact .inr (by simp [Waits.Of, Sys.goto])
  · rcases replyTo_cases io s hgps with ⟨q, timer, hq, heq⟩ | ⟨-, -, -, heq⟩ |
      ⟨-, -, timer, ip, fault, heq⟩
    · refine .inr ?_
      rw [heq]
      show ¬ Waits.Of q
      unfold Reply.next? at hq
      cases r with
      | atReady => exact absurd rfl h
      | stopService => exact absurd rfl h'
      | gps => exact absurd rfl hgps
      | result next err =>
        simp only at hq
        split at hq
        · exact Option.some.inj hq ▸ (hres next err rfl).1
        · split at hq
          · exact Option.some.inj hq ▸ (hres next err rfl).2
          · cases hq
      | pdpAddress =>
        simp only at hq
        split at hq
        · exact Option.some.inj hq ▸ by decide
        · split at hq
          · cases hq
          · split at hq
            · exact Option.some.inj hq ▸ by decide
            · cases hq
      | postData =>
        simp only at hq
        split at hq
        · cases hq
        · split at hq
          · exact Option.some.inj hq ▸ by decide
          · split at hq
            · exact Option.some.inj hq ▸ by decide
            · cases hq
      | postResponse | readResponse =>
        simp only at hq
        split at hq
        · exact Option.some.inj hq ▸ by decide
        · split at hq
          · exact Option.some.inj hq ▸ by decide
          · cases hq
    · left
      rw [heq]
      simp only
      split <;> rfl
    · exact .inl (by rw [heq]; rfl)

/-- **What a statement does to the timer and to the waiting states.** -/
inductive Machine.Waited (m : Machine) (s' : Sys) : Prop
  /-- It touches neither. -/
  | same (hh : m.hearsAtReady = false) (hs : s'.state = m.sys.state) (ht : s'.timer = m.sys.timer)
  /-- The start message loads the timer. -/
  | heard (hh : m.hearsAtReady = true) (hs : m.sys.state = .notReady) (hs' : s'.state = .notReady)
    (ht : s'.timer = 15000)
  /-- The driver is ready. -/
  | driver (hh : m.hearsAtReady = false) (hs : m.sys.state = .waitingDriverReady)
    (hs' : s'.state = .notReady) (ht : s'.timer = m.sys.timer)
  /-- The OK of the last command loads the timer. -/
  | stopped (hh : m.hearsAtReady = false) (hs : m.sys.state = .httpStopService)
    (hs' : s'.state = .ready) (ht : s'.timer = 10000)
  /-- Another state is entered: from a waiting one, when the timer is 1. -/
  | moved (hh : m.hearsAtReady = false) (hs' : ¬ Waits.Of s'.state)
    (ht : Waits.Of m.sys.state → m.sys.timer = 1)

theorem waited_timer {io : Io} {s : Sys} {bs : List Block} {c : Buf 20} {next : State}
    (hn : next = .disablingEco ∨ next = .httpsInit) :
    Machine.Waited ⟨s, .run (.timer next :: bs), c⟩ (execBlock io s (.timer next)) := by
  simp only [execBlock]
  split
  · rename_i h1
    refine .moved rfl ?_ fun _ => h1
    rcases hn with rfl | rfl <;> simp [Waits.Of, Sys.goto]
  · exact .same rfl rfl rfl

theorem waited_execStatement (io : Io) {m : Machine} (h : m.pc.Fits m.sys.state) :
    m.Waited (execStatement io m).sys := by
  obtain ⟨s, pc, c⟩ := m
  cases pc with
  | idle => exact .same rfl rfl rfl
  | run bs =>
    cases bs with
    | nil => exact .same rfl rfl rfl
    | cons b bs =>
      cases b with
      | driver =>
        rcases h with h | h
        · cases follows_of_suffix h with
          | driver hw =>
            have hs : s.state = .waitingDriverReady := by
              revert hw
              cases s.state <;> simp [script]
            simp only [execStatement, enterBlock, execBlock]
            split
            · exact .driver rfl hs rfl rfl
            · exact .same rfl rfl rfl
        · rcases h _ List.mem_cons_self with h | h <;> cases h
      | write cmd =>
        simp only [execStatement, enterBlock]
        split <;> exact .same rfl rfl rfl
      | writePostCmd => exact .same rfl rfl rfl
      | read =>
        simp only [execStatement, enterBlock]
        split <;> exact .same rfl rfl rfl
      | sentence => exact .same rfl rfl rfl
      | parse r =>
        simp only [execStatement, enterBlock]
        split <;> exact .same rfl rfl rfl
      | timer next =>
        have hn : next = .disablingEco ∨ next = .httpsInit := by
          rcases h with h | h
          · cases follows_of_suffix h with
            | timer _ hn => exact hn
          · rcases h _ List.mem_cons_self with h | h
            · exact .inl (Block.timer.inj h)
            · exact .inr (Block.timer.inj h)
        exact @waited_timer io s bs c next hn
  | issuedWrite bs => exact .same rfl rfl rfl
  | clearedPostCmd bs =>
    simp only [execStatement]
    split <;> exact .same rfl rfl rfl
  | formattedPostCmd bs =>
    simp only [execStatement]
    split <;> exact .same rfl rfl rfl
  | issuedRead bs => exact .same rfl rfl rfl
  | clearedPostData bs =>
    simp only [execStatement]
    split <;> exact .same rfl rfl rfl
  | madeSentence bs => exact .same rfl rfl rfl
  | replying r bs =>
    simp only [execStatement]
    rcases reply_of_suffix h with ⟨rfl, hq⟩ | ⟨rfl, hq⟩ | ⟨hr, hr', hq, hres⟩
    · have htake : s.takesPrompt io .atReady = false := rfl
      split
      · rename_i hp
        simp only [htake, Bool.false_eq_true, if_false, replyTo]
        split
        · rename_i hheard
          exact .heard (by simp [Machine.hearsAtReady, hp, hheard]) hq hq rfl
        · rename_i hheard
          exact .same (by simp [Machine.hearsAtReady, hheard]) rfl rfl
      · rename_i hp
        exact .same (by simp [Machine.hearsAtReady, hp]) rfl rfl
    · have htake : s.takesPrompt io .stopService = false := rfl
      split
      · simp only [htake, Bool.false_eq_true, if_false, replyTo]
        split
        · exact .stopped rfl hq rfl rfl
        · split
          · refine .moved rfl (by simp [Waits.Of, Sys.accept, Sys.goto]) fun hw => ?_
            have hst : s.state = .httpStopService := hq
            simp [Waits.Of, hst] at hw
          · exact .same rfl rfl rfl
      · exact .same rfl rfl rfl
    · have hheard : Machine.hearsAtReady ⟨s, .replying r bs, c⟩ = false := by
        unfold Machine.hearsAtReady
        split
        · rename_i heq
          exact absurd (Pc.replying.inj heq).1 hr
        · rfl
      split
      · split
        · exact .same hheard rfl rfl
        · rcases @state_replyTo io s _ hr hr' hres with hs | hs
          · exact .same hheard hs (timer_replyTo hr hr')
          · exact .moved hheard hs fun hw => absurd hw hq
      · exact .same hheard rfl rfl
  | issuedPayload bs => exact .same rfl rfl rfl
  | clearing bs => exact .same rfl rfl rfl
  | resetting bs => exact .same rfl rfl rfl

/-! ## Runs -/

theorem waiting_init : Waiting machineInit ⟨none, none⟩ where
  fits := trivial
  unloaded := fun _ _ => rfl
  fresh := fun _ => rfl
  listening := fun h => (by cases h)
  ready := fun h => (by cases h)

/-- A state that does not wait. -/
theorem waiting_of_not {m : Machine} {w : Waits} (hf : m.pc.Fits m.sys.state)
    (h : ¬ Waits.Of m.sys.state) : Waiting m w where
  fits := hf
  unloaded := fun _ hs => absurd (hs.imp id Or.inl) h
  fresh := fun hs => absurd (.inl hs) h
  listening := fun hs => absurd (.inr (.inl hs)) h
  ready := fun hs => absurd (.inr (.inr hs)) h

/-- What an event that touches neither the timer nor the state keeps. -/
theorem Waiting.congr {m m' : Machine} {w w' : Waits} (h : Waiting m w)
    (hf : m'.pc.Fits m'.sys.state) (hs : m'.sys.state = m.sys.state)
    (ht : m'.sys.timer = m.sys.timer) (hr : w'.atReady = w.atReady)
    (hok : m.sys.state = .ready → w'.stopService = w.stopService) : Waiting m' w' where
  fits := hf
  unloaded := by
    rw [hs, ht, hr]
    exact h.unloaded
  fresh := by
    rw [hs, hr]
    exact h.fresh
  listening := by
    rw [hs, ht, hr]
    exact h.listening
  ready := by
    rw [hs, ht]
    intro hready
    rw [hok hready]
    exact h.ready hready

/-- The 1 ms callback: what it takes off the timer is counted. -/
theorem toNat_resendATCommandCB (s : Sys) :
    (resendATCommandCB s).state = s.state ∧
      s.timer.toNat ≤ (resendATCommandCB s).timer.toNat + 1 ∧
      (1 ≤ s.timer.toNat → 1 ≤ (resendATCommandCB s).timer.toNat) ∧
      (s.timer = 0 → (resendATCommandCB s).timer = 0) := by
  unfold resendATCommandCB
  split
  · rename_i h
    have hle : (1 : UInt32) ≤ s.timer := UInt32.le_of_lt h
    have hlt : 1 < s.timer.toNat := UInt32.lt_iff_toNat_lt.mp h
    have hsub : (s.timer - 1).toNat = s.timer.toNat - 1 := UInt32.toNat_sub_of_le _ _ hle
    refine ⟨rfl, ?_, fun _ => ?_, fun h0 => ?_⟩
    · show s.timer.toNat ≤ (s.timer - 1).toNat + 1
      omega
    · show 1 ≤ (s.timer - 1).toNat
      omega
    · rw [h0] at hlt
      exact absurd hlt (by decide)
  · exact ⟨rfl, Nat.le_succ _, id, id⟩

theorem waiting_tick {m m' : Machine} {w : Waits} (h : Waiting m w)
    (hs : microStep m .tick = some m') : Waiting m' (w.after m .tick) := by
  have hf := fits_of_step h.fits hs
  obtain rfl := Option.some.inj hs
  obtain ⟨hst, hle, hpos, hzero⟩ := toNat_resendATCommandCB m.sys
  refine ⟨hf, ?_, ?_, ?_, ?_⟩
  · intro hn hw
    rw [Waits.after, Option.map_eq_none_iff] at hn
    exact hzero (h.unloaded hn (by rwa [hst] at hw))
  · intro hw
    rw [hst] at hw
    rw [Waits.after, h.fresh hw, Option.map_none]
  · intro hw n hn
    rw [hst] at hw
    obtain ⟨k, hk, rfl⟩ := Option.map_eq_some_iff.mp hn
    obtain ⟨h1, h2⟩ := h.listening hw k hk
    have := hpos h1
    exact ⟨this, by show 15000 ≤ (resendATCommandCB m.sys).timer.toNat + (k + 1); omega⟩
  · intro hw
    rw [hst] at hw
    obtain ⟨k, hk, h1, h2⟩ := h.ready hw
    have := hpos h1
    refine ⟨k + 1, by rw [Waits.after, hk, Option.map_some], this, ?_⟩
    show 10000 ≤ (resendATCommandCB m.sys).timer.toNat + (k + 1)
    omega

theorem waiting_statement {m : Machine} {w : Waits} (io : Io) (h : Waiting m w) :
    Waiting (execStatement io m) (w.after m (.step io)) := by
  have hf := fits_execStatement io h.fits
  have hno : m.hearsAtReady = false → (w.after m (.step io)).atReady = w.atReady := by
    intro hh
    simp [Waits.after, hh]
  cases waited_execStatement io h.fits with
  | same hh hs ht =>
    refine h.congr hf hs ht (hno hh) fun hready => ?_
    simp [Waits.after, Machine.stopsService, hready]
  | heard hh hs hs' ht =>
    have hload : (w.after m (.step io)).atReady = some 0 := by simp [Waits.after, hh]
    refine ⟨hf, ?_, ?_, ?_, ?_⟩
    · intro hn
      rw [hload] at hn
      cases hn
    · intro hw
      rw [hs'] at hw
      cases hw
    · intro _ n hn
      rw [hload] at hn
      obtain rfl := Option.some.inj hn
      rw [ht]
      decide
    · intro hw
      rw [hs'] at hw
      cases hw
  | driver hh hs hs' ht =>
    have hnone : (w.after m (.step io)).atReady = none := by rw [hno hh, h.fresh hs]
    refine ⟨hf, ?_, ?_, ?_, ?_⟩
    · intro _ _
      rw [ht]
      exact h.unloaded (h.fresh hs) (.inl hs)
    · intro _
      exact hnone
    · intro _ n hn
      rw [hnone] at hn
      cases hn
    · intro hw
      rw [hs'] at hw
      cases hw
  | stopped hh hs hs' ht =>
    refine ⟨hf, ?_, ?_, ?_, ?_⟩
    · intro _ hw
      rw [hs'] at hw
      rcases hw with hw | hw <;> cases hw
    · intro hw
      rw [hs'] at hw
      cases hw
    · intro hw
      rw [hs'] at hw
      cases hw
    · intro _
      refine ⟨0, by simp [Waits.after, Machine.stopsService, hs, hs'], ?_⟩
      rw [ht]
      decide
  | moved hh hs' _ => exact waiting_of_not hf hs'

/-- **Step lemma.** -/
theorem waiting_step {m m' : Machine} {w : Waits} {e : MicroEvent} (h : Waiting m w)
    (hs : microStep m e = some m') : Waiting m' (w.after m e) := by
  have hf := fits_of_step h.fits hs
  cases e with
  | step io =>
    obtain rfl := Option.some.inj hs
    exact waiting_statement io h
  | tick => exact waiting_tick h hs
  | atWriteComplete =>
    simp only [microStep] at hs
    split at hs
    · cases hs
    · obtain rfl := Option.some.inj hs
      exact h.congr hf rfl rfl rfl fun _ => rfl
  | store off bs =>
    simp only [microStep] at hs
    split at hs
    · cases hs
    · obtain ⟨buff, -, rfl⟩ := Option.map_eq_some_iff.mp hs
      exact h.congr hf rfl rfl rfl fun _ => rfl
  | atReadComplete length =>
    simp only [microStep] at hs
    split at hs
    · cases hs
    · obtain rfl := Option.some.inj hs
      exact h.congr hf rfl rfl rfl fun _ => rfl

/-- A step that changes the state of the task is a statement. -/
theorem step_of_state_ne {m m' : Machine} {e : MicroEvent} (hs : microStep m e = some m')
    (hne : m'.sys.state ≠ m.sys.state) : ∃ io, e = .step io := by
  by_contra hno
  rw [not_exists] at hno
  exact hne (microStep_other hno hs).2.2.1

/-- A waiting state is left when the timer is 1. -/
theorem timer_of_left {m m' : Machine} {w : Waits} {e : MicroEvent} (h : Waiting m w)
    (hs : microStep m e = some m') (hst : m.sys.state = .notReady ∨ m.sys.state = .ready)
    (hne : m'.sys.state ≠ m.sys.state) : m.sys.timer.toNat = 1 := by
  obtain ⟨io, rfl⟩ := step_of_state_ne hs hne
  obtain rfl := Option.some.inj hs
  cases waited_execStatement io h.fits with
  | same _ hs' _ => exact absurd hs' hne
  | heard _ hst' hs' _ => exact absurd (hs'.trans hst'.symm) hne
  | driver _ hst' _ _ => rcases hst with hst | hst <;> rw [hst] at hst' <;> cases hst'
  | stopped _ hst' _ _ => rcases hst with hst | hst <;> rw [hst] at hst' <;> cases hst'
  | moved _ _ ht =>
    rw [ht (.inr hst)]
    rfl

/-- **The waits are full**, for every interleaving: while the task is ready the timer is at least
1, the next upload starts 9999 ticks or more after the OK of the last one, and the first command
is due 14999 ticks or more after the last start message. -/
theorem waits_full {es : List MicroEvent} {m : Machine} {w : Waits}
    (hr : run (watch microStep Waits.after) (machineInit, ⟨none, none⟩) es = some (m, w)) :
    (m.sys.state = .ready → 1 ≤ m.sys.timer) ∧
      ∀ e m', microStep m e = some m' →
        (m.sys.state = .ready → m'.sys.state = .httpsInit →
          ∃ n, w.stopService = some n ∧ 9999 ≤ n) ∧
        (m.sys.state = .notReady → m'.sys.state = .disablingEco →
          ∃ n, w.atReady = some n ∧ 14999 ≤ n) := by
  have hI : Waiting m w := by
    refine inv_of_run (C := fun _ _ => True) (I := fun p : Machine × Waits => Waiting p.1 p.2)
      ?_ waiting_init along_true hr
    rintro ⟨m, w⟩ e ⟨m', w'⟩ hI _ hs
    obtain ⟨hstep, rfl⟩ := watch_eq_some.mp hs
    exact waiting_step hI hstep
  refine ⟨fun hst => ?_, fun e m' hs => ⟨fun hst hst' => ?_, fun hst hst' => ?_⟩⟩
  · obtain ⟨_, -, h1, -⟩ := hI.ready hst
    exact UInt32.le_iff_toNat_le.mpr h1
  · have h1 := timer_of_left hI hs (.inr hst) (by rw [hst, hst']; decide)
    obtain ⟨n, hn, -, hsum⟩ := hI.ready hst
    exact ⟨n, hn, by omega⟩
  · have h1 := timer_of_left hI hs (.inl hst) (by rw [hst, hst']; decide)
    cases hw : w.atReady with
    | none =>
      rw [hI.unloaded hw (.inr hst)] at h1
      exact absurd h1 (by decide)
    | some n =>
      have hsum := (hI.listening hst n hw).2
      exact ⟨n, rfl, by omega⟩

/-- A driver that is ready and takes every transfer. -/
def willing : Io := ⟨true, .success, .success, .success, 0, 0, 0, 0⟩

/-- The driver becomes ready, the start message is read and taken, and two milliseconds pass. -/
def startHeard : List MicroEvent :=
  List.replicate 6 (.step willing) ++ [.store 0 atReadyText, .atReadComplete 16] ++
    List.replicate 2 (.step willing) ++ [.tick, .tick]

/-- Two milliseconds after the start message the first command is not due. -/
theorem waits_full_startHeard :
    ∃ m w, run (watch microStep Waits.after) (machineInit, ⟨none, none⟩) startHeard = some (m, w) ∧
      m.sys.state = .notReady ∧ m.sys.timer = 14998 ∧ w.atReady = some 2 ∧
      ∀ e m', microStep m e = some m' → m'.sys.state ≠ .disablingEco := by
  have hrun : (run (watch microStep Waits.after) (machineInit, ⟨none, none⟩) startHeard).map
      (fun p => (p.1.sys.state, p.1.sys.timer, p.2.atReady)) =
        some (.notReady, 14998, some 2) := by
    decide +kernel
  obtain ⟨⟨m, w⟩, hr, heq⟩ := Option.map_eq_some_iff.mp hrun
  obtain ⟨hst, heq⟩ := Prod.mk.inj heq
  obtain ⟨ht, hw⟩ := Prod.mk.inj heq
  refine ⟨m, w, hr, hst, ht, hw, fun e m' hs hst' => ?_⟩
  obtain ⟨n, hn, hle⟩ := ((waits_full hr).2 e m' hs).2 hst hst'
  simp only at hw
  rw [hw] at hn
  obtain rfl := Option.some.inj hn
  omega

end Rastreo.Simcom
