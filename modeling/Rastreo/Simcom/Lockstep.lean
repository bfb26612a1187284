import Rastreo.Simcom.Session

/-!
# Commands and responses in lock-step

A command-sending state is in lock-step when `pendingResponse` is clear until its own command has
been accepted, and the state is left only after that. `simcom_tasks` does not ensure it: the flag
is set by the write-complete event, which may come after the response that moved the machine on.

* `InTime`: the order of events that avoids this. A response that leaves a command-sending state
  for another finds the command's write-complete processed; one that leads to the error state, or
  from the POST request to the wait for its result, finds at least the command accepted; the
  result of the POST finds no write in flight; the payload goes out after its command.
* `InStep`: the invariant. `inStep_of_step`: every step in time preserves it.
* `lockstep`: a run in time is in lock-step at every step.
* `not_lockstep`: without the condition a stale flag keeps the next command from being sent.
-/

namespace Rastreo.Simcom

open Rastreo.Lib

/-! ## The property -/

/-- The command of the state, as it would be written now. -/
def Sys.ownCommand (s : Sys) : Option Transfer :=
  match script s.state with
  | .command cmd _ => some ⟨.literal cmd, cmd⟩
  | .post => some ⟨.postCmd, postCmd s⟩
  | _ => none

/-- The action is entering a state. -/
def Action.isEntered : Action → Bool
  | .entered _ => true
  | _ => false

/-- What was done since the state was entered, newest first. -/
def since (trace : List Action) : List Action := trace.takeWhile fun a => !a.isEntered

/-- The state's own command was accepted since the state was entered. -/
def Sys.Sent (s : Sys) : Prop := ∃ t, s.ownCommand = some t ∧ .wrote t ∈ since s.trace

instance (s : Sys) : Decidable s.Sent :=
  decidable_of_iff (s.ownCommand.any fun t => decide (.wrote t ∈ since s.trace) = true)
    (by simp [Sys.Sent, Option.any_eq_true])

/-- No stale response flag: it is clear until the state's own command is accepted. -/
def Fresh (s : Sys) : Prop := s.ownCommand.isSome → ¬ s.Sent → s.pendingResponse = false

/-- The state is left only after its own command was accepted. -/
def LeavesAfterCommand (s s' : Sys) : Prop :=
  s'.state ≠ s.state → ∀ t, s.ownCommand = some t →
    ∃ q rest, s'.trace = .entered q :: rest ∧ .wrote t ∈ since rest

/-- **Lock-step** at one step. -/
def Lockstep (s : Sys) (e : Event) : Prop :=
  ∀ s', step s e = some s' → Fresh s' ∧ LeavesAfterCommand s s'

/-! ## The condition -/

/-- The state the response in the buffer takes the machine to. -/
def Sys.leaves? (s : Sys) : Option State :=
  match script s.state with
  | .command _ r => s.next? r
  | .post => s.next? .postData
  | .response => s.next? .postResponse
  | _ => none

/-- The state's command was accepted before the call, or is accepted in it. -/
def Sys.CommandOut (s : Sys) (io : Io) : Prop :=
  s.pendingResponse = true ∨ s.flags.ATwrite = false ∨ io.writes = true

/-- The order of events that keeps the machine in lock-step. -/
def InTime (s : Sys) : Event → Prop
  | .task io =>
    (∀ q, s.leaves? = some q → s.ownCommand.isSome → s.CommandOut io) ∧
    (∀ q, s.leaves? = some q → q ≠ .error → q ≠ .httpWaitPostResponse →
      s.flags.ATwrite = true ∧ (s.ownCommand.isSome → s.pendingResponse = true)) ∧
    (script s.state = .post → s.prompted = true → s.flags.ATwrite = true →
      io.writesPayload = true → s.CommandOut io)
  | _ => True

/-! ## The invariant -/

/-- What lock-step depends on. -/
def Sys.link (s : Sys) : Bool × Bool × State × List Transfer × List Action × Buf 64 :=
  (s.flags.ATwrite, s.pendingResponse, s.state, s.writes, s.trace, s.postData)

/-- A transfer is in flight exactly while `ATwrite` is clear, and a command that was not sent is not
waited for. -/
structure InStep (s : Sys) : Prop where
  free : (s.flags.ATwrite = true ∧ s.writes = []) ∨ (s.flags.ATwrite = false ∧ ∃ t, s.writes = [t])
  unsent : s.ownCommand.isSome → ¬ s.Sent → s.pendingResponse = false ∧ s.writes = []
  idle : Idle s.state → s.pendingResponse = false ∧ s.writes = []

section Link

variable {s s' : Sys}

theorem ownCommand_congr (h : s'.link = s.link) : s'.ownCommand = s.ownCommand := by
  simp only [Sys.link, Prod.mk.injEq] at h
  unfold Sys.ownCommand postCmd
  rw [h.2.2.1, h.2.2.2.2.2]

theorem sent_congr (h : s'.link = s.link) : s'.Sent ↔ s.Sent := by
  unfold Sys.Sent
  rw [ownCommand_congr h]
  simp only [Sys.link, Prod.mk.injEq] at h
  rw [h.2.2.2.2.1]

theorem InStep.congr (hI : InStep s) (h : s'.link = s.link) : InStep s' := by
  have hown := ownCommand_congr h
  have hsent := sent_congr h
  simp only [Sys.link, Prod.mk.injEq] at h
  obtain ⟨hat, hpr, hst, hw, -, -⟩ := h
  refine ⟨?_, ?_, ?_⟩
  · rw [hat, hw]; exact hI.free
  · rw [hown, hsent, hpr, hw]; exact hI.unsent
  · rw [hst, hpr, hw]; exact hI.idle

@[simp] theorem link_readResponse (io : Io) : (s.readResponse io).link = s.link := by
  unfold Sys.readResponse
  split <;> rfl

@[simp] theorem link_noted (timer ip : UInt32) (f : Bool) : (s.noted timer ip f).link = s.link := rfl

@[simp] theorem link_heard (p : Bool) (b : Buf 512) : (s.heard p b).link = s.link := rfl

@[simp] theorem link_endParse : s.endParse.link = s.link := rfl

theorem next?_readResponse (io : Io) (r : Reply) : (s.readResponse io).next? r = s.next? r := by
  unfold Sys.readResponse
  split <;> rfl

theorem next?_writeCommand (io : Io) (t : Transfer) (r : Reply) :
    (s.writeCommand io t).next? r = s.next? r := by
  unfold Sys.writeCommand
  split <;> rfl

theorem prompted_readResponse (io : Io) : (s.readResponse io).prompted = s.prompted := by
  unfold Sys.readResponse
  split <;> rfl

theorem prompted_writeCommand (io : Io) (t : Transfer) :
    (s.writeCommand io t).prompted = s.prompted := by
  unfold Sys.writeCommand
  split <;> rfl

theorem InStep.sent_of_pendingResponse (hI : InStep s) (hown : s.ownCommand.isSome)
    (h : s.pendingResponse = true) : s.Sent := by
  by_contra hn
  rw [(hI.unsent hown hn).1] at h
  exact absurd h (by simp)

theorem InStep.sent_of_busy (hI : InStep s) (hown : s.ownCommand.isSome)
    (h : s.flags.ATwrite = false) : s.Sent := by
  by_contra hn
  rcases hI.free with hf | ⟨-, t, ht⟩
  · rw [hf.1] at h
    exact absurd h (by simp)
  · rw [(hI.unsent hown hn).2] at ht
    exact absurd ht (by simp)

end Link

/-! ## One block -/

section Blocks

variable {s : Sys} {io : Io}

/-- A state entered with no write in flight and the flag clear is in step. -/
theorem inStep_of_quiet {s : Sys} (hat : s.flags.ATwrite = true) (hw : s.writes = [])
    (hpr : s.pendingResponse = false) : InStep s :=
  ⟨.inl ⟨hat, hw⟩, fun _ _ => ⟨hpr, hw⟩, fun _ => ⟨hpr, hw⟩⟩

/-- An idle state has no command. -/
theorem not_idle_of_ownCommand {t : Transfer} (ht : s.ownCommand = some t) : ¬ Idle s.state := by
  intro hid
  unfold Sys.ownCommand at ht
  rcases hid with h | h | h | h <;> rw [h] at ht <;> exact absurd ht (by simp)

/-- The state's own command goes out. -/
theorem InStep.writeCommand (hI : InStep s) {t : Transfer} (ht : s.ownCommand = some t) :
    InStep (s.writeCommand io t) := by
  unfold Sys.writeCommand
  split
  · rename_i hsend
    have hat : s.flags.ATwrite = true := by
      simp only [Sys.sendsCommand, Bool.and_eq_true] at hsend
      exact hsend.1.1
    have hw : s.writes = [] := by
      rcases hI.free with h | ⟨h, -⟩
      · exact h.2
      · rw [hat] at h; exact absurd h (by simp)
    refine ⟨.inr ⟨rfl, t, ?_⟩, fun _ hn => ?_, fun hid => ?_⟩
    · show s.writes ++ [t] = [t]
      rw [hw]; rfl
    · exact absurd ⟨t, ht, List.mem_cons_self⟩ hn
    · exact absurd hid (not_idle_of_ownCommand ht)
  · exact hI

theorem InStep.readResponse (hI : InStep s) : InStep (s.readResponse io) :=
  hI.congr (link_readResponse io)

/-- A response moves the machine on, or the prompt sends the payload. -/
theorem InStep.parse (hI : InStep s) {r : Reply} (hr : r ≠ .gps)
    (hq : ∀ q, s.next? r = some q → q ≠ .error → q ≠ .httpWaitPostResponse →
      s.flags.ATwrite = true)
    (hpost : r = .postData → script s.state = .post)
    (hprompt : r = .postData → s.prompted = true → s.flags.ATwrite = true →
      io.writesPayload = true → s.Sent) :
    InStep (execBlock io s (.parse r)) := by
  rcases parse_cases io s hr with ⟨q, timer, hnext, heq⟩ | ⟨hrp, hp, -, heq⟩ |
    ⟨-, -, timer, ip, f, p, b, heq⟩
  · -- the response leads to `q`
    rw [heq]
    by_cases hend : q = .error ∨ q = .httpWaitPostResponse
    · refine ⟨hI.free, fun hown => ?_, fun hid => ?_⟩
      · rcases hend with rfl | rfl <;> exact absurd hown (by simp [Sys.ownCommand, script,
          Sys.endParse, Sys.accept, Sys.goto])
      · rcases hend with rfl | rfl <;> rcases hid with h | h | h | h <;> cases h
    · rw [not_or] at hend
      have hat := hq q hnext hend.1 hend.2
      refine inStep_of_quiet hat ?_ rfl
      rcases hI.free with h | ⟨h, -⟩
      · exact h.2
      · rw [hat] at h; exact absurd h (by simp)
  · rw [heq]
    have hscript := hpost hrp
    have hnotidle : ¬ Idle s.state := by
      rintro (h | h | h | h) <;> rw [hscript] at h <;> cases h
    simp only
    split
    · -- the payload goes out after its command
      rename_i hsend
      have hsend' : s.flags.ATwrite = true ∧ io.writesPayload = true := by
        simpa only [Sys.sendsPayload, Bool.and_eq_true] using hsend
      obtain ⟨t, ht, hmem⟩ := hprompt hrp hp hsend'.1 hsend'.2
      have hw : s.writes = [] := by
        rcases hI.free with h | ⟨h, -⟩
        · exact h.2
        · rw [hsend'.1] at h; exact absurd h (by simp)
      refine ⟨.inr ⟨rfl, s.payload, ?_⟩, fun _ hn => absurd ⟨t, ht, ?_⟩ hn,
        fun hid => absurd hid hnotidle⟩
      · show s.writes ++ [s.payload] = [s.payload]
        rw [hw]; rfl
      · exact List.mem_cons_of_mem _ (List.mem_cons_of_mem _ hmem)
    · refine ⟨hI.free, fun hown hn => hI.unsent hown fun hs => hn ?_, fun hid => absurd hid hnotidle⟩
      obtain ⟨t, ht, hmem⟩ := hs
      exact ⟨t, ht, List.mem_cons_of_mem _ hmem⟩
  · rw [heq]
    exact hI.congr (by simp)

/-- What a call may leave alone of the link to the modem. -/
def SameTraffic (s s' : Sys) : Prop :=
  s'.flags.ATwrite = s.flags.ATwrite ∧ s'.pendingResponse = s.pendingResponse ∧ s'.writes = s.writes

theorem sameTraffic_makeSentence (s : Sys) (io : Io) : SameTraffic s (s.makeSentence io) := by
  unfold Sys.makeSentence
  split <;> exact ⟨rfl, rfl, rfl⟩

theorem sameTraffic_parse_gps (s : Sys) (io : Io) :
    SameTraffic s (execBlock io s (.parse .gps)) := by
  simp only [execBlock]
  split
  · split
    · rcases replyTo_gps io s with heq | ⟨g, body, heq⟩ <;> rw [heq] <;> exact ⟨rfl, rfl, rfl⟩
    · exact ⟨rfl, rfl, rfl⟩
  · exact ⟨rfl, rfl, rfl⟩

theorem InStep.of_sameTraffic {s s' : Sys} (hI : InStep s) (hid : Idle s.state)
    (h : SameTraffic s s') : InStep s' := by
  obtain ⟨hpr, hw⟩ := hI.idle hid
  rcases hI.free with hf | ⟨-, t, ht⟩
  · exact inStep_of_quiet (h.1.trans hf.1) (h.2.2.trans hw) (h.2.1.trans hpr)
  · rw [hw] at ht; exact absurd ht (by simp)

/-- The timer moves an idle state on. -/
theorem InStep.timer (hI : InStep s) (hid : Idle s.state) (next : State) :
    InStep (execBlock io s (.timer next)) := by
  simp only [execBlock]
  split
  · exact hI.of_sameTraffic hid ⟨rfl, rfl, rfl⟩
  · exact hI

end Blocks

/-! ## One step -/

section Steps

variable {s s' : Sys} {io : Io}

/-- The command is out when the state is left. -/
theorem InStep.sent_writeCommand (hI : InStep s) {t : Transfer} (ht : s.ownCommand = some t)
    (hout : s.CommandOut io) : (s.writeCommand io t).Sent := by
  have hown : s.ownCommand.isSome := by rw [ht]; rfl
  have hold : s.Sent → (s.writeCommand io t).Sent := by
    rintro ⟨u, hu, hmem⟩
    unfold Sys.writeCommand
    split
    · exact ⟨u, hu, List.mem_cons_of_mem _ hmem⟩
    · exact ⟨u, hu, hmem⟩
  by_cases hsend : s.sendsCommand io = true
  · unfold Sys.writeCommand
    rw [if_pos hsend]
    exact ⟨t, ht, List.mem_cons_self⟩
  · refine hold ?_
    rcases hout with h | h | h
    · exact hI.sent_of_pendingResponse hown h
    · exact hI.sent_of_busy hown h
    · -- accepted by the driver, but not asked for: the flag or a write in flight forbids it
      simp only [Sys.sendsCommand, h, Bool.and_true, Bool.and_eq_true, Bool.not_eq_true',
        not_and_or, Bool.not_eq_true, Bool.not_eq_false] at hsend
      rcases hsend with h | h
      · exact hI.sent_of_busy hown h
      · exact hI.sent_of_pendingResponse hown h

/-- A call in a command-sending state. -/
theorem InStep.command (hI : InStep s) {t : Transfer} {r : Reply} (ht : s.ownCommand = some t)
    (hr : r ≠ .gps) (hleave : s.leaves? = s.next? r)
    (hpost : r = .postData → script s.state = .post) (hC : InTime s (.task io)) :
    InStep (execBlock io ((s.writeCommand io t).readResponse io) (.parse r)) := by
  have hown : s.ownCommand.isSome := by rw [ht]; rfl
  refine ((hI.writeCommand ht).readResponse).parse hr (fun q hq hne hnw => ?_) (fun h => ?_)
    fun hrp hp hat hpay => ?_
  · rw [next?_readResponse, next?_writeCommand, ← hleave] at hq
    have h := hC.2.1 q hq hne hnw
    have hat := h.1
    rw [writeCommand_of_pendingResponse (h.2 hown)]
    unfold Sys.readResponse
    split <;> exact hat
  · have hst : ((s.writeCommand io t).readResponse io).state = s.state := by
      unfold Sys.readResponse Sys.writeCommand
      split <;> split <;> rfl
    rw [hst]
    exact hpost h
  · rw [prompted_readResponse, prompted_writeCommand] at hp
    rw [sent_congr (link_readResponse io)]
    have hat' : (s.writeCommand io t).flags.ATwrite = true := by
      have h := congrArg Prod.fst (@link_readResponse (s.writeCommand io t) io)
      exact h.symm.trans hat
    have hsend : s.sendsCommand io = false := by
      by_contra hsend
      rw [Bool.not_eq_false] at hsend
      rw [Sys.writeCommand, if_pos hsend] at hat'
      exact absurd hat' (by simp [Sys.clearATwrite])
    rw [Sys.writeCommand, hsend] at hat'
    exact hI.sent_writeCommand ht (hC.2.2 (hpost hrp) hp hat' hpay)

theorem ownCommand_command {cmd : Bytes} {r : Reply} (h : script s.state = .command cmd r) :
    s.ownCommand = some ⟨.literal cmd, cmd⟩ ∧ s.leaves? = s.next? r := by
  simp only [Sys.ownCommand, Sys.leaves?, h, and_self]

theorem ownCommand_post (h : script s.state = .post) :
    s.ownCommand = some ⟨.postCmd, postCmd s⟩ ∧ s.leaves? = s.next? .postData := by
  simp only [Sys.ownCommand, Sys.leaves?, h, and_self]

/-- **A call in time keeps the machine in step.** -/
theorem InStep.simcomTasks (hI : InStep s) (hC : InTime s (.task io)) :
    InStep (simcomTasks io s) := by
  cases h : script s.state with
  | waiting =>
    simp only [Simcom.simcomTasks, h, Script.blocks, List.foldl_cons, List.foldl_nil, execBlock]
    split
    · exact hI.of_sameTraffic (.inl h) ⟨rfl, rfl, rfl⟩
    · exact hI
  | listen =>
    rw [simcomTasks_listen h]
    have hidle : Idle s.state := .inr (.inl h)
    have hstate := (@state_parse_atReady io (s.readResponse io)).trans state_readResponse
    refine InStep.timer ?_ (by rw [hstate]; exact hidle) _
    exact (hI.readResponse).parse (by rintro ⟨⟩)
      (fun q hq => absurd hq (by unfold Sys.next? Reply.next?; simp)) (by rintro ⟨⟩) (by rintro ⟨⟩)
  | command cmd r =>
    rw [simcomTasks_command h]
    have hr := script_command h
    exact hI.command (ownCommand_command h).1 hr.1 (ownCommand_command h).2
      (fun hp => absurd hp hr.2) hC
  | request =>
    rw [simcomTasks_request h]
    have h₁ := sameTraffic_makeSentence s io
    have h₂ := sameTraffic_parse_gps (s.makeSentence io) io
    exact hI.of_sameTraffic (.inr (.inr (.inl h)))
      ⟨h₂.1.trans h₁.1, h₂.2.1.trans h₁.2.1, h₂.2.2.trans h₁.2.2⟩
  | post =>
    rw [simcomTasks_post h]
    exact hI.command (ownCommand_post h).1 (by rintro ⟨⟩) (ownCommand_post h).2 (fun _ => h) hC
  | response =>
    rw [simcomTasks_response h]
    refine (hI.readResponse).parse (by rintro ⟨⟩) (fun q hq hne hnw => ?_) (by rintro ⟨⟩) (by rintro ⟨⟩)
    rw [next?_readResponse] at hq
    have hl : s.leaves? = s.next? .postResponse := by simp only [Sys.leaves?, h]
    have := (hC.2.1 q (hl.trans hq) hne hnw).1
    unfold Sys.readResponse
    split <;> exact this
  | ready =>
    simp only [Simcom.simcomTasks, h, Script.blocks, List.foldl_cons, List.foldl_nil]
    exact hI.timer (.inr (.inr (.inr h))) _
  | none =>
    simp only [Simcom.simcomTasks, h, Script.blocks, List.foldl_nil]
    exact hI

/-- **Step lemma.** -/
theorem inStep_of_step {e : Event} (hI : InStep s) (hC : InTime s e) (hs : step s e = some s') :
    InStep s' := by
  cases e with
  | task io =>
    obtain rfl := Option.some.inj hs
    exact hI.simcomTasks hC
  | tick =>
    obtain rfl := Option.some.inj hs
    refine hI.congr ?_
    unfold resendATCommandCB
    split <;> rfl
  | atWriteComplete =>
    simp only [step] at hs
    split at hs
    · exact absurd hs (by simp)
    · -- a write was in flight, so the state's command is out
      rename_i t ts hw
      obtain rfl := Option.some.inj hs
      have hts : ts = [] := by
        rcases hI.free with h | ⟨-, u, h⟩ <;> rw [hw] at h
        · exact absurd h.2 (by simp)
        · exact (List.cons.inj h).2
      subst hts
      have hbusy : s.writes ≠ [] := by rw [hw]; simp
      refine ⟨.inl ⟨rfl, rfl⟩, fun hown hn => ?_, fun hid => ?_⟩
      · exact absurd (hI.unsent hown hn).2 hbusy
      · exact absurd (hI.idle hid).2 hbusy
  | atReadComplete chunk =>
    simp only [step] at hs
    split at hs
    · exact absurd hs (by simp)
    · obtain ⟨buff, -, rfl⟩ := Option.map_eq_some_iff.mp hs
      exact hI.congr rfl

/-- The state is left by the response to a command that went out. -/
theorem InStep.leaves (hI : InStep s) {t : Transfer} {r : Reply} (ht : s.ownCommand = some t)
    (hr : r ≠ .gps) (hleave : s.leaves? = s.next? r) (hC : InTime s (.task io)) :
    let s' := execBlock io ((s.writeCommand io t).readResponse io) (.parse r)
    s'.state ≠ s.state → ∃ q rest, s'.trace = .entered q :: rest ∧ .wrote t ∈ since rest := by
  intro s' hne
  have hown : s.ownCommand.isSome := by rw [ht]; rfl
  have hlink := @link_readResponse (s.writeCommand io t) io
  have hlink' := hlink
  simp only [Sys.link, Prod.mk.injEq] at hlink'
  have hstate : (s.writeCommand io t).state = s.state := by
    unfold Sys.writeCommand
    split <;> rfl
  rcases parse_cases io ((s.writeCommand io t).readResponse io) hr with ⟨q, timer, hnext, heq⟩ |
    ⟨-, -, -, heq⟩ | ⟨-, -, timer, ip, f, p, b, heq⟩
  · rw [next?_readResponse, next?_writeCommand, ← hleave] at hnext
    obtain ⟨u, hu, hmem⟩ := hI.sent_writeCommand ht (hC.1 q hnext hown)
    have hut : u = t := by
      have : (s.writeCommand io t).ownCommand = s.ownCommand := by
        unfold Sys.writeCommand
        split <;> rfl
      rw [this, ht] at hu
      exact (Option.some.inj hu).symm
    refine ⟨q, (s.writeCommand io t).trace, ?_, hut ▸ hmem⟩
    show (execBlock io _ _).trace = _
    rw [heq, ← hlink'.2.2.2.2.1]
    rfl
  · refine absurd ?_ hne
    show (execBlock io _ _).state = _
    rw [heq]
    simp only
    split <;> exact hlink'.2.2.1.trans hstate
  · refine absurd ?_ hne
    show (execBlock io _ _).state = _
    rw [heq]
    exact hlink'.2.2.1.trans hstate

theorem InStep.paired {e : Event} (hI : InStep s) (hC : InTime s e) : Lockstep s e := by
  intro s' hs
  refine ⟨fun hown hn => ((inStep_of_step hI hC hs).unsent hown hn).1, fun hne t ht => ?_⟩
  cases e with
  | task io =>
    obtain rfl := Option.some.inj hs
    cases h : script s.state with
    | command cmd r =>
      rw [(ownCommand_command h).1] at ht
      obtain rfl := Option.some.inj ht
      rw [simcomTasks_command h] at hne ⊢
      exact hI.leaves (ownCommand_command h).1 (script_command h).1 (ownCommand_command h).2 hC hne
    | post =>
      rw [(ownCommand_post h).1] at ht
      obtain rfl := Option.some.inj ht
      rw [simcomTasks_post h] at hne ⊢
      exact hI.leaves (ownCommand_post h).1 (by rintro ⟨⟩) (ownCommand_post h).2 hC hne
    | _ =>
      unfold Sys.ownCommand at ht
      rw [h] at ht
      exact absurd ht (by simp)
  | tick =>
    obtain rfl := Option.some.inj hs
    refine absurd ?_ hne
    unfold resendATCommandCB
    split <;> rfl
  | atWriteComplete =>
    simp only [step] at hs
    split at hs
    · exact absurd hs (by simp)
    · obtain rfl := Option.some.inj hs
      exact absurd rfl hne
  | atReadComplete chunk =>
    simp only [step] at hs
    split at hs
    · exact absurd hs (by simp)
    · obtain ⟨buff, -, rfl⟩ := Option.map_eq_some_iff.mp hs
      exact absurd rfl hne

end Steps

theorem inStep_init : InStep simcomInit := inStep_of_quiet rfl rfl rfl

/-- **Lock-step of runs in time.** -/
theorem lockstep {es : List Event} (hC : Along step InTime simcomInit es) :
    Along step Lockstep simcomInit es :=
  along_of_inv (fun _ _ _ hI hC hs => inStep_of_step hI hC hs) (fun _ _ hI hC => hI.paired hC)
    inStep_init hC

theorem tolerant_inTime : Tolerant InTime where
  other s e h := by
    cases e with
    | task io => exact absurd h (by simp [Event.isTask])
    | _ => trivial
  silent s io h := by
    have hn : s.leaves? = none := by
      unfold Sys.leaves? Sys.next?
      simp only [h, Bool.false_eq_true, if_false]
      split <;> rfl
    have hp : s.prompted = false := by rw [Sys.prompted, h, Bool.false_and]
    exact ⟨fun q hq => absurd hq (by simp [hn]), fun q hq => absurd hq (by simp [hn]),
      fun _ hq => absurd hq (by simp [hp])⟩
  idle s io h := by
    have hn : s.leaves? = none := by
      unfold Sys.leaves?
      rcases h with h | h | h | h <;> rw [h]
    refine ⟨fun q hq => absurd hq (by simp [hn]), fun q hq => absurd hq (by simp [hn]), fun hs => ?_⟩
    rcases h with h | h | h | h <;> rw [h] at hs <;> cases hs
  done s io h hpr hat := by
    obtain ⟨cmd, r, h⟩ := h
    exact ⟨fun _ _ _ => .inl hpr, fun _ _ _ _ => ⟨hat, fun _ => hpr⟩,
      fun hs => absurd (h.symm.trans hs) (by rintro ⟨⟩)⟩

/-- The session up to the first POST is in lock-step. -/
theorem lockstep_toPost : Along step Lockstep simcomInit toPost :=
  lockstep (toPost_drives tolerant_inTime).choose_spec.1.2

/-- The answer to the first command is read before its write completes: the response flag is then
up in the second command's state, which has not written its command. -/
theorem not_lockstep : ¬ Along step Lockstep simcomInit
    (startup ++ [.task io₀, .atReadComplete okText, .task io₀, .atWriteComplete]) := by
  intro h
  have h := along_of_append h (startup_drives tolerant_true).1
  have hlast : (run step started
      ([.task io₀, .atReadComplete okText, .task io₀] ++ [.atWriteComplete])).map
      (fun s => (s.state, s.pendingResponse, since s.trace)) =
      some (.settingFullFunctionality, true, []) := by
    decide +kernel
  obtain ⟨s, hs, heq⟩ := Option.map_eq_some_iff.mp hlast
  simp only [Prod.mk.injEq] at heq
  obtain ⟨hst, hpr, htr⟩ := heq
  obtain ⟨s₀, -, hs₀, hlock⟩ := along_last (by simpa using h) hs
  have hown : s.ownCommand = some ⟨.literal atSetFullFunctionality, atSetFullFunctionality⟩ := by
    simp only [Sys.ownCommand, hst, script]
  have hfresh := (hlock s hs₀).1 (by rw [hown]; rfl) ?_
  · rw [hpr] at hfresh
    exact absurd hfresh (by simp)
  · rintro ⟨t, -, hmem⟩
    rw [htr] at hmem
    exact absurd hmem List.not_mem_nil

end Rastreo.Simcom
