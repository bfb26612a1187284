import Rastreo.Simcom.Tasks

/-!
# The modem task, statement by statement

The driver's events can fall between any two statements of `simcom_tasks`. `Machine` adds to the
state of the task where its call is (`Pc`) and the automatic buffer `postCmd`; `microStep` executes
one statement, or lets the driver store bytes of a read in flight, complete a transfer, or the
timer tick.

* `call_refines`: executed without an event in between, the statements are `simcomTasks`, and
  `run_refines`: a run of whole calls is a run of statements.
* `fits_of_step`: the statements still to execute are those of the state's `case`, or, once the
  response is parsed, no more than its timer test.
-/

namespace Rastreo.Simcom

open Rastreo.Lib

/-- Where a call is: before a block, or inside one. -/
inductive Pc
  /-- No call is running. -/
  | idle
  /-- These blocks are left. -/
  | run (bs : List Block)
  /-- A command write was accepted, `flags.ATwrite` is still set. -/
  | issuedWrite (bs : List Block)
  /-- `postCmd` is cleared. -/
  | clearedPostCmd (bs : List Block)
  /-- `postCmd` is formatted. -/
  | formattedPostCmd (bs : List Block)
  /-- A read was accepted, `flags.ATread` is still set. -/
  | issuedRead (bs : List Block)
  /-- `postData` is cleared. -/
  | clearedPostData (bs : List Block)
  /-- The sentence is in `buffRecv`. -/
  | madeSentence (bs : List Block)
  /-- A response is about to be parsed. -/
  | replying (r : Reply) (bs : List Block)
  /-- The payload write was accepted, `flags.ATwrite` is still set. -/
  | issuedPayload (bs : List Block)
  /-- The response is parsed. -/
  | clearing (bs : List Block)
  /-- `buffRecv` is cleared. -/
  | resetting (bs : List Block)
  deriving DecidableEq

/-- The system in the middle of a call: where it is, and `postCmd`, which lives as long as the call. -/
structure Machine where
  sys : Sys
  pc : Pc
  postCmd : Buf 20
  deriving DecidableEq

/-- A statement of the task, or what the USB driver and the timer do between two of them. -/
inductive MicroEvent
  /-- The next statement of the task. -/
  | step (io : Io)
  | tick
  | atWriteComplete
  /-- A read in flight stores bytes. -/
  | store (off : Nat) (bs : Bytes)
  | atReadComplete (length : Nat)

/-- The prompt is in the buffer and the payload write is accepted. -/
def Sys.takesPrompt (s : Sys) (io : Io) (r : Reply) : Bool :=
  r == .postData && strcmp s.buffRecv.bytes downloadText == 0 && s.sendsPayload io

/-- The payload write after the prompt. -/
def Sys.startPayload (s : Sys) : Sys :=
  { s with trace := .prompt :: s.trace }.startWrite s.payload

/-- The first statement of a block. -/
def enterBlock (io : Io) (m : Machine) (bs : List Block) : Block → Machine
  | .driver => { m with sys := execBlock io m.sys .driver, pc := .run bs }
  | .write cmd =>
    if m.sys.sendsCommand io then
      { m with sys := m.sys.startWrite ⟨.literal cmd, cmd⟩, pc := .issuedWrite bs }
    else { m with pc := .run bs }
  | .writePostCmd => { m with postCmd := .clear, pc := .clearedPostCmd bs }
  | .read =>
    if m.sys.startsRead io then { m with sys := m.sys.startRead, pc := .issuedRead bs }
    else { m with pc := .run bs }
  | .sentence => { m with sys := { m.sys with postData := .clear }, pc := .clearedPostData bs }
  | .parse r =>
    if m.sys.pendingATCommandParse then { m with pc := .replying r bs } else { m with pc := .run bs }
  | .timer next => { m with sys := execBlock io m.sys (.timer next), pc := .run bs }

/-- The next statement. -/
def execStatement (io : Io) (m : Machine) : Machine :=
  match m.pc with
  | .idle => { m with pc := .run (script m.sys.state).blocks }
  | .run [] => { m with pc := .idle }
  | .run (b :: bs) => enterBlock io m bs b
  | .issuedWrite bs => { m with sys := m.sys.clearATwrite, pc := .run bs }
  | .clearedPostCmd bs =>
    match m.postCmd.sprintf (postCmd m.sys) with
    | none => { m with sys := { m.sys with fault := true }, pc := .formattedPostCmd bs }
    | some cmd => { m with postCmd := cmd, pc := .formattedPostCmd bs }
  | .formattedPostCmd bs =>
    if m.sys.sendsCommand io then
      { m with sys := m.sys.startWrite ⟨.postCmd, m.postCmd.text⟩, pc := .issuedWrite bs }
    else { m with pc := .run bs }
  | .issuedRead bs => { m with sys := m.sys.clearATread, pc := .run bs }
  | .clearedPostData bs =>
    match m.sys.buffRecv.sprintf (sentenceText io.rand) with
    | none => { m with sys := { m.sys with fault := true }, pc := .madeSentence bs }
    | some buff => { m with sys := { m.sys with buffRecv := buff }, pc := .madeSentence bs }
  | .madeSentence bs =>
    { m with sys := { m.sys with pendingATCommandParse := true }, pc := .run bs }
  | .replying r bs =>
    if atCommandParse m.sys.buffRecv.bytes then
      if m.sys.takesPrompt io r then { m with sys := m.sys.startPayload, pc := .issuedPayload bs }
      else { m with sys := replyTo io m.sys r, pc := .clearing bs }
    else { m with pc := .clearing bs }
  | .issuedPayload bs => { m with sys := m.sys.clearATwrite, pc := .clearing bs }
  | .clearing bs => { m with sys := { m.sys with buffRecv := .clear }, pc := .resetting bs }
  | .resetting bs =>
    { m with sys := { m.sys with pendingATCommandParse := false }, pc := .run bs }

/-- **One micro-step.** -/
def microStep (m : Machine) : MicroEvent → Option Machine
  | .step io => some (execStatement io m)
  | .tick => some { m with sys := resendATCommandCB m.sys }
  | .atWriteComplete =>
    match m.sys.writes with
    | [] => none
    | t :: ts => some { m with
        sys := simcomEventHandler .atWriteComplete (some t.bytes.length) { m.sys with writes := ts } }
  | .store off bs =>
    if m.sys.reads = 0 then none
    else (m.sys.buffRecv.store off bs).map fun buff =>
      { m with sys := { m.sys with buffRecv := buff } }
  | .atReadComplete length =>
    if m.sys.reads = 0 then none
    else some { m with
      sys := simcomEventHandler .atReadComplete (some length)
        { m.sys with reads := m.sys.reads - 1 } }

/-- After `simcom_init`, no call running. -/
def machineInit : Machine := ⟨simcomInit, .idle, .clear⟩

/-! ## Whole calls -/

/-- Some number of statements of the task, all with the same answers from outside. -/
def Executes (io : Io) (m m' : Machine) : Prop :=
  ∃ k, run microStep m (List.replicate k (.step io)) = some m'

section Calls

variable {io : Io} {m m' m'' : Machine}

theorem Executes.refl : Executes io m m := ⟨0, rfl⟩

theorem Executes.cons (h : Executes io (execStatement io m) m') : Executes io m m' := by
  obtain ⟨k, hk⟩ := h
  exact ⟨k + 1, hk⟩

theorem Executes.trans (h : Executes io m m') (h' : Executes io m' m'') : Executes io m m'' := by
  obtain ⟨k, hk⟩ := h
  obtain ⟨l, hl⟩ := h'
  exact ⟨k + l, by rw [List.replicate_add, run_append, hk, Option.bind_some, hl]⟩

/-- The command fits its buffer. -/
theorem length_postCmd (s : Sys) : (postCmd s).length < 20 := by
  have h1 := s.postData.length_text_le
  have h2 := (@dec_length_le_iff s.postData.text.length 2 (by omega)).mpr (by omega)
  have h3 : atHttpInputPostData.length = 12 ∧ (ascii ",10\r").length = 4 := by decide
  simp only [postCmd, List.length_append, h3, fmtD_length]
  omega

theorem zero_notMem_postCmd (s : Sys) : (0 : UInt8) ∉ postCmd s := by
  have h : (0 : UInt8) ∉ atHttpInputPostData ∧ (0 : UInt8) ∉ ascii ",10\r" := by decide
  simp only [postCmd, List.mem_append, not_or, h, zero_notMem_fmtD, not_false_eq_true, and_self]

/-- `sprintf(postCmd, …)`. -/
theorem sprintf_postCmd (b : Buf 20) (s : Sys) : ∃ cmd : Buf 20, b.sprintf (postCmd s) = some cmd ∧
    cmd.text = postCmd s := by
  have hlen := length_postCmd s
  obtain ⟨cmd, hcmd⟩ := @Buf.store_isSome 20 b 0 (postCmd s ++ [0])
    (by rw [List.length_append, List.length_singleton]; omega)
  exact ⟨cmd, hcmd, Buf.text_sprintf hcmd (zero_notMem_postCmd s)⟩

theorem executes_write {s : Sys} {t : Transfer} {bs : List Block} {c : Buf 20}
    (h : execStatement io m = if s.sendsCommand io then ⟨s.startWrite t, .issuedWrite bs, c⟩
      else ⟨s, .run bs, c⟩) : Executes io m ⟨s.writeCommand io t, .run bs, c⟩ := by
  refine .cons ?_
  rw [h]
  unfold Sys.writeCommand
  split
  · exact .cons .refl
  · exact .refl

/-- **One block**, statement by statement. -/
theorem block_refines (s : Sys) (c : Buf 20) (b : Block) (bs : List Block) :
    ∃ c', Executes io ⟨s, .run (b :: bs), c⟩ ⟨execBlock io s b, .run bs, c'⟩ := by
  cases b with
  | driver => exact ⟨c, .cons .refl⟩
  | write cmd => exact ⟨c, executes_write rfl⟩
  | writePostCmd =>
    obtain ⟨cmd, hcmd, htext⟩ := sprintf_postCmd .clear s
    refine ⟨cmd, .cons (.cons ?_)⟩
    have h : execStatement io (execStatement io ⟨s, .run (.writePostCmd :: bs), c⟩) =
        ⟨s, .formattedPostCmd bs, cmd⟩ := by
      simp only [execStatement, enterBlock, hcmd]
    rw [h, execBlock_writePostCmd, ← htext]
    exact executes_write rfl
  | read =>
    refine ⟨c, .cons ?_⟩
    rw [execBlock_read]
    simp only [execStatement, enterBlock, Sys.readResponse]
    split
    · exact .cons .refl
    · exact .refl
  | sentence =>
    obtain ⟨buff, hbuff⟩ : ∃ buff, s.buffRecv.sprintf (sentenceText io.rand) = some buff := by
      have hlen := length_sentenceText io.rand
      exact Buf.store_isSome (by rw [List.length_append, List.length_singleton]; omega)
    refine ⟨c, .cons (.cons (.cons ?_))⟩
    rw [execBlock_sentence]
    simp only [execStatement, enterBlock, Sys.makeSentence, hbuff]
    exact .refl
  | parse r =>
    refine ⟨c, .cons ?_⟩
    simp only [execStatement, enterBlock, execBlock]
    split
    · refine .cons ?_
      simp only [execStatement]
      split
      · split
        · rename_i htake
          simp only [Sys.takesPrompt, Bool.and_eq_true, beq_iff_eq] at htake
          obtain ⟨⟨rfl, hd⟩, hsend⟩ := htake
          refine .cons (.cons (.cons ?_))
          have hsend' : ({ s with trace := .prompt :: s.trace } : Sys).sendsPayload io = true := hsend
          simp only [replyTo, if_pos hd, hsend', if_true]
          exact .refl
        · exact .cons (.cons .refl)
      · exact .cons (.cons .refl)
    · exact .refl
  | timer next => exact ⟨c, .cons .refl⟩

theorem blocks_refine (bs : List Block) : ∀ (s : Sys) (c : Buf 20),
    ∃ c', Executes io ⟨s, .run bs, c⟩ ⟨bs.foldl (execBlock io) s, .run [], c'⟩ := by
  induction bs with
  | nil => exact fun s c => ⟨c, .refl⟩
  | cons b bs ih =>
    intro s c
    obtain ⟨c₁, h₁⟩ := @block_refines io s c b bs
    obtain ⟨c₂, h₂⟩ := ih (execBlock io s b) c₁
    exact ⟨c₂, h₁.trans h₂⟩

/-- **A call**, statement by statement, is `simcomTasks`. -/
theorem call_refines (s : Sys) (c : Buf 20) :
    ∃ c', Executes io ⟨s, .idle, c⟩ ⟨simcomTasks io s, .idle, c'⟩ := by
  obtain ⟨c', h⟩ := @blocks_refine io (script s.state).blocks s c
  exact ⟨c', .cons (h.trans (.cons .refl))⟩

end Calls

/-- One event of the system of whole calls. -/
theorem step_refines {s s' : Sys} {e : Event} (h : step s e = some s') (c : Buf 20) :
    ∃ es c', run microStep ⟨s, .idle, c⟩ es = some ⟨s', .idle, c'⟩ := by
  cases e with
  | task io =>
    obtain rfl := Option.some.inj h
    obtain ⟨c', k, hk⟩ := @call_refines io s c
    exact ⟨_, c', hk⟩
  | tick =>
    obtain rfl := Option.some.inj h
    exact ⟨[.tick], c, rfl⟩
  | atWriteComplete =>
    simp only [step] at h
    split at h
    · cases h
    · rename_i t ts hw
      obtain rfl := Option.some.inj h
      exact ⟨[.atWriteComplete], c, by simp only [run, microStep, hw]; rfl⟩
  | atReadComplete chunk =>
    simp only [step] at h
    split at h
    · cases h
    · rename_i hr
      obtain ⟨buff, hbuff, rfl⟩ := Option.map_eq_some_iff.mp h
      refine ⟨[.store 0 chunk, .atReadComplete chunk.length], c, ?_⟩
      simp only [run, microStep, if_neg hr, hbuff, Option.map_some, Option.bind_some]

/-- **A run of whole calls** is a run of statements. -/
theorem run_refines {es : List Event} : ∀ {s s' : Sys} (c : Buf 20), run step s es = some s' →
    ∃ es' c', run microStep ⟨s, .idle, c⟩ es' = some ⟨s', .idle, c'⟩ := by
  induction es with
  | nil =>
    intro s s' c h
    obtain rfl := Option.some.inj h
    exact ⟨[], c, rfl⟩
  | cons e es ih =>
    intro s s' c h
    obtain ⟨s₁, h₁, h₂⟩ := run_cons.mp h
    obtain ⟨es₁, c₁, hr₁⟩ := step_refines h₁ c
    obtain ⟨es₂, c₂, hr₂⟩ := ih c₁ h₂
    exact ⟨es₁ ++ es₂, c₂, by rw [run_append, hr₁, Option.bind_some, hr₂]⟩

/-! ## The shape of a call -/

/-- Only timer tests are left. -/
def Timers (bs : List Block) : Prop :=
  ∀ b ∈ bs, b = .timer .disablingEco ∨ b = .timer .httpsInit

/-- The place in the call belongs to the `case` of state `q`. -/
def Pc.Fits (q : State) : Pc → Prop
  | .idle => True
  | .run bs => bs <:+ (script q).blocks ∨ Timers bs
  | .issuedWrite bs => (∃ cmd, .write cmd :: bs <:+ (script q).blocks) ∨
      .writePostCmd :: bs <:+ (script q).blocks
  | .clearedPostCmd bs | .formattedPostCmd bs => .writePostCmd :: bs <:+ (script q).blocks
  | .issuedRead bs => .read :: bs <:+ (script q).blocks
  | .clearedPostData bs | .madeSentence bs => .sentence :: bs <:+ (script q).blocks
  | .replying r bs => .parse r :: bs <:+ (script q).blocks
  | .issuedPayload bs | .clearing bs | .resetting bs => Timers bs

section Shape

variable {q : State} {bs : List Block}

theorem suffix_of_cons {b : Block} {l : List Block} (h : b :: bs <:+ l) : bs <:+ l :=
  (List.suffix_cons b bs).trans h

/-- What follows a block of the `case` of `q`. -/
inductive Follows (q : State) : Block → List Block → Prop
  | driver (h : script q = .waiting) : Follows q .driver []
  | write (cmd : Bytes) (r : Reply) (h : r ≠ .gps) : Follows q (.write cmd) [.read, .parse r]
  | writePostCmd : Follows q .writePostCmd [.read, .parse .postData]
  | read (r : Reply) (ts : List Block) (h : r ≠ .gps) (ht : Timers ts) (hw : script q ≠ .waiting)
      (hr : script q ≠ .request) : Follows q .read (.parse r :: ts)
  | sentence (h : script q = .request) : Follows q .sentence [.parse .gps]
  | parse (r : Reply) (ts : List Block) (h : r = .gps → script q = .request) (ht : Timers ts) :
      Follows q (.parse r) ts
  | timer (next : State) (h : next = .disablingEco ∨ next = .httpsInit) :
      Follows q (.timer next) []

theorem timers_nil : Timers [] := by rintro _ ⟨⟩

theorem timers_disablingEco : Timers [.timer .disablingEco] :=
  fun _ hb => .inl (List.mem_singleton.mp hb)

theorem follows_of_suffix {b : Block} (h : b :: bs <:+ (script q).blocks) : Follows q b bs := by
  cases hsc : script q with
  | waiting =>
    rw [hsc] at h
    simp only [Script.blocks, List.suffix_cons_iff, List.suffix_nil, List.cons.injEq] at h
    rcases h with ⟨rfl, rfl⟩ | h
    · exact .driver hsc
    · cases h
  | listen =>
    have hne : script q ≠ .waiting ∧ script q ≠ .request := by rw [hsc]; exact ⟨(by rintro ⟨⟩), by rintro ⟨⟩⟩
    rw [hsc] at h
    simp only [Script.blocks, List.suffix_cons_iff, List.suffix_nil, List.cons.injEq] at h
    rcases h with ⟨rfl, rfl⟩ | ⟨rfl, rfl⟩ | ⟨rfl, rfl⟩ | h
    · exact .read .atReady _ (by rintro ⟨⟩) timers_disablingEco hne.1 hne.2
    · exact .parse .atReady _ (by rintro ⟨⟩) timers_disablingEco
    · exact .timer _ (.inl rfl)
    · cases h
  | command cmd r =>
    have hr := script_command hsc
    have hne : script q ≠ .waiting ∧ script q ≠ .request := by rw [hsc]; exact ⟨(by rintro ⟨⟩), by rintro ⟨⟩⟩
    rw [hsc] at h
    simp only [Script.blocks, List.suffix_cons_iff, List.suffix_nil, List.cons.injEq] at h
    rcases h with ⟨rfl, rfl⟩ | ⟨rfl, rfl⟩ | ⟨rfl, rfl⟩ | h
    · exact .write cmd r hr.1
    · exact .read r _ hr.1 timers_nil hne.1 hne.2
    · exact .parse r _ (fun h => absurd h hr.1) timers_nil
    · cases h
  | request =>
    rw [hsc] at h
    simp only [Script.blocks, List.suffix_cons_iff, List.suffix_nil, List.cons.injEq] at h
    rcases h with ⟨rfl, rfl⟩ | ⟨rfl, rfl⟩ | h
    · exact .sentence hsc
    · exact .parse .gps _ (fun _ => hsc) timers_nil
    · cases h
  | post =>
    have hne : script q ≠ .waiting ∧ script q ≠ .request := by rw [hsc]; exact ⟨(by rintro ⟨⟩), by rintro ⟨⟩⟩
    rw [hsc] at h
    simp only [Script.blocks, List.suffix_cons_iff, List.suffix_nil, List.cons.injEq] at h
    rcases h with ⟨rfl, rfl⟩ | ⟨rfl, rfl⟩ | ⟨rfl, rfl⟩ | h
    · exact .writePostCmd
    · exact .read .postData _ (by rintro ⟨⟩) timers_nil hne.1 hne.2
    · exact .parse .postData _ (by rintro ⟨⟩) timers_nil
    · cases h
  | response =>
    have hne : script q ≠ .waiting ∧ script q ≠ .request := by rw [hsc]; exact ⟨(by rintro ⟨⟩), by rintro ⟨⟩⟩
    rw [hsc] at h
    simp only [Script.blocks, List.suffix_cons_iff, List.suffix_nil, List.cons.injEq] at h
    rcases h with ⟨rfl, rfl⟩ | ⟨rfl, rfl⟩ | h
    · exact .read .postResponse _ (by rintro ⟨⟩) timers_nil hne.1 hne.2
    · exact .parse .postResponse _ (by rintro ⟨⟩) timers_nil
    · cases h
  | ready =>
    rw [hsc] at h
    simp only [Script.blocks, List.suffix_cons_iff, List.suffix_nil, List.cons.injEq] at h
    rcases h with ⟨rfl, rfl⟩ | h
    · exact .timer _ (.inr rfl)
    · cases h
  | none =>
    rw [hsc] at h
    cases List.suffix_nil.mp h

/-- A statement keeps the place in the call within the state's `case`. -/
theorem fits_execStatement (io : Io) {m : Machine} (h : m.pc.Fits m.sys.state) :
    (execStatement io m).pc.Fits (execStatement io m).sys.state := by
  obtain ⟨s, pc, c⟩ := m
  cases pc with
  | idle => exact .inl List.suffix_rfl
  | run bs =>
    cases bs with
    | nil => trivial
    | cons b bs =>
      rcases h with h | h
      · have htail := suffix_of_cons h
        cases b with
        | driver =>
          cases follows_of_suffix h
          exact .inr timers_nil
        | write cmd =>
          simp only [execStatement, enterBlock]
          split
          · exact .inl ⟨cmd, h⟩
          · exact .inl htail
        | writePostCmd => exact h
        | read =>
          simp only [execStatement, enterBlock]
          split
          · exact h
          · exact .inl htail
        | sentence => exact h
        | parse r =>
          simp only [execStatement, enterBlock]
          split
          · exact h
          · exact .inl htail
        | timer next =>
          cases follows_of_suffix h
          exact .inr timers_nil
      · have ht : Timers bs := fun b' hb' => h b' (List.mem_cons_of_mem _ hb')
        rcases h b List.mem_cons_self with rfl | rfl <;> exact .inr ht
  | issuedWrite bs =>
    rcases h with ⟨cmd, h⟩ | h
    · exact .inl (suffix_of_cons h)
    · exact .inl (suffix_of_cons h)
  | clearedPostCmd bs =>
    simp only [execStatement]
    split <;> exact h
  | formattedPostCmd bs =>
    simp only [execStatement]
    split
    · exact .inr h
    · exact .inl (suffix_of_cons h)
  | issuedRead bs => exact .inl (suffix_of_cons h)
  | clearedPostData bs =>
    simp only [execStatement]
    split <;> exact h
  | madeSentence bs => exact .inl (suffix_of_cons h)
  | replying r bs =>
    have ht : Timers bs := by
      cases follows_of_suffix h with
      | parse r ts _ ht => exact ht
    simp only [execStatement]
    split
    · split <;> exact ht
    · exact ht
  | issuedPayload bs => exact h
  | clearing bs => exact h
  | resetting bs => exact .inr h

/-- The other events leave the task where it is. -/
theorem microStep_other {m m' : Machine} {e : MicroEvent} (he : ∀ io, e ≠ .step io)
    (hs : microStep m e = some m') : m'.pc = m.pc ∧ m'.postCmd = m.postCmd ∧
      m'.sys.state = m.sys.state ∧ m'.sys.postData = m.sys.postData := by
  cases e with
  | step io => exact absurd rfl (he io)
  | tick =>
    obtain rfl := Option.some.inj hs
    refine ⟨rfl, rfl, ?_⟩
    show (resendATCommandCB m.sys).state = _ ∧ (resendATCommandCB m.sys).postData = _
    unfold resendATCommandCB
    split <;> exact ⟨rfl, rfl⟩
  | atWriteComplete =>
    simp only [microStep] at hs
    split at hs
    · cases hs
    · obtain rfl := Option.some.inj hs
      exact ⟨rfl, rfl, rfl, rfl⟩
  | store off bs =>
    simp only [microStep] at hs
    split at hs
    · cases hs
    · obtain ⟨buff, -, rfl⟩ := Option.map_eq_some_iff.mp hs
      exact ⟨rfl, rfl, rfl, rfl⟩
  | atReadComplete length =>
    simp only [microStep] at hs
    split at hs
    · cases hs
    · obtain rfl := Option.some.inj hs
      exact ⟨rfl, rfl, rfl, rfl⟩

/-- **Step lemma**: the place in the call keeps belonging to the state's `case`. -/
theorem fits_of_step {m m' : Machine} {e : MicroEvent} (h : m.pc.Fits m.sys.state)
    (hs : microStep m e = some m') : m'.pc.Fits m'.sys.state := by
  by_cases he : ∀ io, e ≠ .step io
  · obtain ⟨hpc, -, hst, -⟩ := microStep_other he hs
    rw [hpc, hst]
    exact h
  · rw [not_forall] at he
    obtain ⟨io, he⟩ := he
    obtain rfl := not_not.mp he
    obtain rfl := Option.some.inj hs
    exact fits_execStatement io h

end Shape

end Rastreo.Simcom
