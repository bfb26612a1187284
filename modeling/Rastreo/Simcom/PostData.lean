import Rastreo.Simcom.Lockstep

/-!
# The payload of the POST

In `SIMCOM_STATE_HTTP_POST_DATA` the task announces the length of `postData`, and writes the
payload in the one call that parses the modem's `DOWNLOAD` prompt. If `AT_Write` refuses it then,
it is not tried again, and any `OK` moves the machine on to the POST request.

* `Delivered`: what the claim asks of the actions since the state was entered: the command with the
  length of the body, the prompt, and the body once.
* `InOrder`: one prompt, after the command, whose payload write is accepted, and no `OK` before it.
* `posts`: along runs in order the POST request is reached with the payload delivered.
* `not_posts`: a payload write refused once is a POST without its body.
-/

namespace Rastreo.Simcom

open Rastreo.Lib

/-- The command announcing the length of a body. -/
def announce (body : Bytes) : Transfer :=
  ⟨.postCmd, atHttpInputPostData ++ fmtD 0 body.length ++ ascii ",10\r"⟩

/-- No payload was accepted. -/
def NoPayload (seg : List Action) : Prop := ∀ t, .wrote t ∈ seg → t.src ≠ .postData

/-- The command, then the prompt, then the body, and the body once (newest first). -/
def Delivered (body : Bytes) (seg : List Action) : Prop :=
  ∃ a b c, seg = a ++ .wrote ⟨.postData, body⟩ :: (b ++ .prompt :: c) ∧
    .wrote (announce body) ∈ c ∧ NoPayload a ∧ NoPayload b ∧ NoPayload c

/-- **The step to the POST request** is taken with the current body delivered since the state was
entered. -/
def Posts (s : Sys) (e : Event) : Prop :=
  ∀ s', step s e = some s' → s.state = .httpPostData → s'.state = .httpSendPostRequest →
    ∃ q rest, s'.trace = .entered q :: rest ∧ Delivered s.postData.text (since rest)

/-- The order of prompt, payload and `OK` that delivers the body. -/
def InOrder (s : Sys) : Event → Prop
  | .task io => s.state = .httpPostData →
    (s.prompted = true → s.Sent ∧ s.flags.ATwrite = true ∧ io.writesPayload = true ∧
      .prompt ∉ since s.trace) ∧
    (s.next? .postData = some .httpSendPostRequest → .prompt ∈ since s.trace)
  | _ => True

instance (s : Sys) : (e : Event) → Decidable (InOrder s e)
  | .task _ => inferInstanceAs (Decidable (_ → _ ∧ _))
  | .tick | .atWriteComplete | .atReadComplete _ => .isTrue trivial

/-! ## The invariant -/

/-- In `SIMCOM_STATE_HTTP_POST_DATA` nothing is delivered before the prompt, and the body after it. -/
structure PostInv (s : Sys) : Prop where
  answered : s.state = .httpPostData → s.Sent → s.pendingResponse = true ∨ s.flags.ATwrite = false
  before : s.state = .httpPostData → .prompt ∉ since s.trace → NoPayload (since s.trace)
  after : s.state = .httpPostData → .prompt ∈ since s.trace →
    Delivered s.postData.text (since s.trace)

section Invariant

variable {s s' : Sys} {io : Io}

theorem PostInv.congr (hI : PostInv s) (h : s'.link = s.link) : PostInv s' := by
  have hsent := sent_congr h
  simp only [Sys.link, Prod.mk.injEq] at h
  obtain ⟨hat, hpr, hst, -, htr, hbody⟩ := h
  refine ⟨?_, ?_, ?_⟩
  · rw [hst, hsent, hpr, hat]; exact hI.answered
  · rw [hst, htr]; exact hI.before
  · rw [hst, htr, hbody]; exact hI.after

/-- Outside the state, and on entering it, there is nothing to know. -/
theorem postInv_of_entered (h : s.state = .httpPostData → since s.trace = []) : PostInv s := by
  refine ⟨fun hs hsent => ?_, fun hs _ t ht => ?_, fun hs hp => ?_⟩
  · obtain ⟨t, -, ht⟩ := hsent
    rw [h hs] at ht
    exact absurd ht List.not_mem_nil
  · rw [h hs] at ht
    exact absurd ht List.not_mem_nil
  · rw [h hs] at hp
    exact absurd hp List.not_mem_nil

theorem noPayload_cons {t : Transfer} {seg : List Action} (ht : t.src ≠ .postData)
    (h : NoPayload seg) : NoPayload (.wrote t :: seg) := by
  intro u hu
  rcases List.mem_cons.mp hu with hu | hu
  · rw [Action.wrote.inj hu]; exact ht
  · exact h u hu

/-- Another write of the command changes nothing. -/
theorem Delivered.cons {body : Bytes} {seg : List Action} {t : Transfer} (ht : t.src ≠ .postData)
    (h : Delivered body seg) : Delivered body (.wrote t :: seg) := by
  obtain ⟨a, b, c, rfl, hc, ha, hb, hcc⟩ := h
  exact ⟨.wrote t :: a, b, c, rfl, hc, noPayload_cons ht ha, hb, hcc⟩

theorem PostInv.writeCommand (hI : PostInv s) {t : Transfer} (ht : t.src ≠ .postData) :
    PostInv (s.writeCommand io t) := by
  unfold Sys.writeCommand
  split
  · refine ⟨fun _ _ => .inr rfl, fun hs hp => noPayload_cons ht (hI.before hs fun h => ?_),
      fun hs hp => (hI.after hs ?_).cons ht⟩
    · exact hp (List.mem_cons_of_mem _ h)
    · rcases List.mem_cons.mp hp with h | h
      · cases h
      · exact h
  · exact hI

/-- The prompt takes the body, the `OK` the machine on. -/
theorem PostInv.parse (hI : PostInv s) (hs : s.state = .httpPostData)
    (hprompt : s.prompted = true → s.Sent ∧ s.sendsPayload io = true ∧ .prompt ∉ since s.trace) :
    PostInv (execBlock io s (.parse .postData)) := by
  rcases parse_cases io s (r := .postData) (by rintro ⟨⟩) with ⟨q, timer, hnext, heq⟩ | ⟨-, hp, -, heq⟩ |
    ⟨-, -, timer, ip, f, p, b, heq⟩
  · rw [heq]
    exact postInv_of_entered fun _ => rfl
  · obtain ⟨⟨t, ht, hmem⟩, hsend, hno⟩ := hprompt hp
    have hsend' : ({ s with trace := .prompt :: s.trace } : Sys).sendsPayload io = true := hsend
    rw [heq]
    simp only [hsend', if_true]
    have hown : t = announce s.postData.text := by
      simp only [Sys.ownCommand, hs, script, Option.some.injEq] at ht
      exact ht.symm
    refine ⟨fun _ _ => .inr rfl, fun _ hn => absurd ?_ hn, fun _ _ => ?_⟩
    · exact List.mem_cons_of_mem _ List.mem_cons_self
    · exact ⟨[], [], since s.trace, rfl, hown ▸ hmem, (by rintro _ ⟨⟩), (by rintro _ ⟨⟩), hI.before hs hno⟩
  · rw [heq]
    exact hI.congr (by simp)

/-! ## Calls outside the state -/

/-- A block keeps the state, or its entry is the last thing recorded. -/
def Enters (s s' : Sys) : Prop := s'.state = s.state ∨ since s'.trace = []

theorem enters_parse {r : Reply} : Enters s (execBlock io s (.parse r)) := by
  by_cases hr : r = .gps
  · subst hr
    simp only [execBlock]
    split
    · split
      · rcases replyTo_gps io s with heq | ⟨g, body, heq⟩ <;> rw [heq]
        · exact .inl rfl
        · exact .inr rfl
      · exact .inl rfl
    · exact .inl rfl
  · rcases parse_cases io s hr with ⟨q, timer, -, heq⟩ | ⟨-, -, -, heq⟩ |
      ⟨-, -, timer, ip, f, p, b, heq⟩ <;> rw [heq]
    · exact .inr rfl
    · simp only
      split <;> exact .inl rfl
    · exact .inl rfl

theorem enters_timer {next : State} : Enters s (execBlock io s (.timer next)) := by
  simp only [execBlock]
  split
  · exact .inr rfl
  · exact .inl rfl

/-- **A call keeps the state, or ends by entering another.** -/
theorem simcomTasks_enters : Enters s (simcomTasks io s) := by
  cases h : script s.state with
  | waiting =>
    simp only [simcomTasks, h, Script.blocks, List.foldl_cons, List.foldl_nil, execBlock]
    split
    · exact .inr rfl
    · exact .inl rfl
  | listen =>
    rw [simcomTasks_listen h]
    refine (enters_timer).imp (fun h => h.trans ?_) id
    rw [state_parse_atReady, state_readResponse]
  | command cmd r =>
    rw [simcomTasks_command h]
    refine (enters_parse).imp (fun h => h.trans ?_) id
    rw [state_readResponse, state_writeCommand]
  | request =>
    rw [simcomTasks_request h]
    refine (enters_parse).imp (fun h => h.trans ?_) id
    unfold Sys.makeSentence
    split <;> rfl
  | post =>
    rw [simcomTasks_post h]
    refine (enters_parse).imp (fun h => h.trans ?_) id
    rw [state_readResponse, state_writeCommand]
  | response =>
    rw [simcomTasks_response h]
    exact (enters_parse).imp (fun h => h.trans state_readResponse) id
  | ready =>
    simp only [simcomTasks, h, Script.blocks, List.foldl_cons, List.foldl_nil]
    exact enters_timer
  | none =>
    simp only [simcomTasks, h, Script.blocks, List.foldl_nil]
    exact .inl rfl

/-! ## One step -/

/-- In the state, the payload of an ordered prompt is written. -/
theorem PostInv.sendsPayload (hI : PostInv s) (hs : s.state = .httpPostData)
    (hC : InOrder s (.task io)) {t : Transfer} (hp : s.prompted = true) :
    s.writeCommand io t = s ∧ ∀ s₁ : Sys, s₁.flags.ATwrite = s.flags.ATwrite → s₁.sendsPayload io = true := by
  obtain ⟨hsent, hat, hpay, -⟩ := (hC hs).1 hp
  have hpr : s.pendingResponse = true := by
    rcases hI.answered hs hsent with h | h
    · exact h
    · rw [hat] at h; exact absurd h (by simp)
  refine ⟨writeCommand_of_pendingResponse hpr, fun s₁ h₁ => ?_⟩
  simp only [Sys.sendsPayload, h₁, hat, hpay, Bool.and_self]

theorem PostInv.task (hI : PostInv s) (hC : InOrder s (.task io)) :
    PostInv (simcomTasks io s) := by
  by_cases hs : s.state = .httpPostData
  · have hsc : script s.state = .post := by rw [hs]; rfl
    rw [simcomTasks_post hsc]
    have hI₁ := @PostInv.writeCommand s io hI ⟨.postCmd, postCmd s⟩ (by rintro ⟨⟩)
    have hI₂ := hI₁.congr (link_readResponse io)
    refine hI₂.parse ?_ fun hp => ?_
    · rw [state_readResponse, state_writeCommand, hs]
    · rw [prompted_readResponse, prompted_writeCommand] at hp
      obtain ⟨hw, hpay⟩ := hI.sendsPayload hs hC (t := ⟨.postCmd, postCmd s⟩) hp
      obtain ⟨hsent, -, -, hno⟩ := (hC hs).1 hp
      have hlink := @link_readResponse s io
      rw [hw, sent_congr hlink]
      simp only [Sys.link, Prod.mk.injEq] at hlink
      rw [hlink.2.2.2.2.1]
      exact ⟨hsent, hpay _ hlink.1, hno⟩
  · refine postInv_of_entered fun hs' => ?_
    rcases @simcomTasks_enters s io with h | h
    · exact absurd (h.symm.trans hs') hs
    · exact h

/-- **Step lemma.** -/
theorem postInv_of_step {e : Event} (hI : PostInv s) (hC : InOrder s e) (hs : step s e = some s') :
    PostInv s' := by
  cases e with
  | task io =>
    obtain rfl := Option.some.inj hs
    exact hI.task hC
  | tick =>
    obtain rfl := Option.some.inj hs
    refine hI.congr ?_
    unfold resendATCommandCB
    split <;> rfl
  | atWriteComplete =>
    simp only [step] at hs
    split at hs
    · exact absurd hs (by simp)
    · obtain rfl := Option.some.inj hs
      exact ⟨fun _ _ => .inl rfl, hI.before, hI.after⟩
  | atReadComplete chunk =>
    simp only [step] at hs
    split at hs
    · exact absurd hs (by simp)
    · obtain ⟨buff, -, rfl⟩ := Option.map_eq_some_iff.mp hs
      exact hI.congr rfl

/-- The `OK` finds the body delivered. -/
theorem PostInv.onePost {e : Event} (hI : PostInv s) (hC : InOrder s e) : Posts s e := by
  intro s' hs hst hst'
  cases e with
  | task io =>
    obtain rfl := Option.some.inj hs
    have hsc : script s.state = .post := by rw [hst]; rfl
    rw [simcomTasks_post hsc] at hst' ⊢
    have hlink := @link_readResponse (s.writeCommand io ⟨.postCmd, postCmd s⟩) io
    simp only [Sys.link, Prod.mk.injEq] at hlink
    rcases parse_cases io ((s.writeCommand io ⟨.postCmd, postCmd s⟩).readResponse io)
      (r := .postData) (by rintro ⟨⟩) with ⟨q, timer, hnext, heq⟩ | ⟨-, -, -, heq⟩ |
      ⟨-, -, timer, ip, f, p, b, heq⟩
    · rw [heq] at hst' ⊢
      obtain rfl : q = .httpSendPostRequest := hst'
      rw [next?_readResponse, next?_writeCommand] at hnext
      have hprompt := (hC hst).2 hnext
      refine ⟨_, _, rfl, ?_⟩
      show Delivered _ (since (Sys.readResponse _ io).trace)
      rw [hlink.2.2.2.2.1]
      have hbody : (s.writeCommand io ⟨.postCmd, postCmd s⟩).postData = s.postData := by
        unfold Sys.writeCommand
        split <;> rfl
      rw [← hbody]
      refine (hI.writeCommand (t := ⟨.postCmd, postCmd s⟩) (by rintro ⟨⟩)).after
        (state_writeCommand.trans hst) ?_
      unfold Sys.writeCommand
      split
      · exact List.mem_cons_of_mem _ hprompt
      · exact hprompt
    · -- the prompt and anything else leave the state as it is
      rw [heq] at hst'
      simp only at hst'
      have : s.state = .httpSendPostRequest := by
        rw [← @state_writeCommand io s, ← hlink.2.2.1]
        split at hst' <;> exact hst'
      rw [hst] at this
      cases this
    · rw [heq] at hst'
      have : s.state = .httpSendPostRequest := by
        rw [← @state_writeCommand io s, ← hlink.2.2.1]
        exact hst'
      rw [hst] at this
      cases this
  | tick =>
    obtain rfl := Option.some.inj hs
    have : (resendATCommandCB s).state = s.state := by
      unfold resendATCommandCB
      split <;> rfl
    rw [this, hst] at hst'
    cases hst'
  | atWriteComplete =>
    simp only [step] at hs
    split at hs
    · exact absurd hs (by simp)
    · obtain rfl := Option.some.inj hs
      cases hst.symm.trans hst'
  | atReadComplete chunk =>
    simp only [step] at hs
    split at hs
    · exact absurd hs (by simp)
    · obtain ⟨buff, -, rfl⟩ := Option.map_eq_some_iff.mp hs
      cases hst.symm.trans hst'

end Invariant

theorem postInv_init : PostInv simcomInit := postInv_of_entered (by rintro ⟨⟩)

/-- **The POST request is reached with its body delivered**, in every run in order. -/
theorem posts {es : List Event} (hC : Along step InOrder simcomInit es) :
    Along step Posts simcomInit es :=
  along_of_inv (fun _ _ _ hI hC hs => postInv_of_step hI hC hs) (fun _ _ hI hC => hI.onePost hC)
    postInv_init hC

/-- The exchange the state is written for. -/
def delivery : List Event :=
  [.task io₀, .atWriteComplete, .atReadComplete downloadText, .task io₀, .atWriteComplete,
   .atReadComplete okText, .task io₀]

theorem tolerant_inOrder : Tolerant InOrder where
  other s e h := by
    cases e with
    | task io => exact absurd h (by simp [Event.isTask])
    | _ => trivial
  silent s io h _ := by
    have hn : s.next? .postData = none := by
      unfold Sys.next?
      simp [h]
    have hp : s.prompted = false := by rw [Sys.prompted, h, Bool.false_and]
    exact ⟨fun hq => absurd hq (by simp [hp]), fun hq => absurd hq (by simp [hn])⟩
  idle s io h hs := by
    rw [hs] at h
    rcases h with h | h | h | h <;> cases h
  done s io h _ _ hs := by
    obtain ⟨cmd, r, h⟩ := h
    rw [hs] at h
    cases h

/-- The first position is posted with its body. -/
theorem posts_delivery : Along step Posts simcomInit (startup ++ (setupEvents ++ delivery)) :=
  posts (along_append (startup_drives tolerant_inOrder).2 (startup_drives tolerant_inOrder).1
    (by decide +kernel))

/-- The driver is busy when the prompt is parsed, and then accepts everything again. -/
def busyDelivery : List Event :=
  [.task io₀, .atWriteComplete, .atReadComplete downloadText,
   .task { io₀ with payload := .requestBusy }, .atReadComplete okText]

/-- A payload refused once is a POST without its body. -/
theorem not_posts : ¬ Along step Posts simcomInit
    (startup ++ (setupEvents ++ busyDelivery ++ [.task io₀])) := by
  intro h
  have h := along_of_append h (startup_drives tolerant_true).1
  have hlast : (run step started (setupEvents ++ busyDelivery ++ [.task io₀])).map
      (fun s => (s.state, since s.trace.tail)) =
      some (.httpSendPostRequest, [.prompt, .wrote (announce (gpsInfoToString fix₀))]) := by
    decide +kernel
  have hbefore : (run step started (setupEvents ++ busyDelivery)).map Sys.state =
      some .httpPostData := by
    decide +kernel
  obtain ⟨s, hs, heq⟩ := Option.map_eq_some_iff.mp hlast
  obtain ⟨hst, htr⟩ := Prod.mk.inj heq
  obtain ⟨s₀, hs₀, hstep, hposts⟩ := along_last h hs
  rw [hs₀, Option.map_some, Option.some_inj] at hbefore
  obtain ⟨q, rest, htrace, a, b, c, hseg, -⟩ := hposts s hstep hbefore hst
  rw [htrace, List.tail_cons] at htr
  have hmem : Action.wrote ⟨.postData, s₀.postData.text⟩ ∈ since rest := by
    rw [hseg]
    exact List.mem_append_right _ List.mem_cons_self
  rw [htr] at hmem
  simp [announce] at hmem

end Rastreo.Simcom
