import Rastreo.Simcom.Tasks

/-!
# A session of the modem

The run the task is written for: the modem announces itself, the task waits 15 seconds, then each
command is accepted, its write completes, its `OK` is read, and the task moves on.

`Poised q` are the states between two such exchanges, with a read in flight and nothing else.
`handshake_drives` is one exchange and `startup_drives` the beginning; `toPost_drives` composes them
up to the POST of the first position. They hold along every `Tolerant` condition.
-/

namespace Rastreo.Simcom

open Rastreo.Lib

/-- A driver that accepts everything. -/
def io₀ : Io := ⟨true, .success, .success, .success, (0, 0, 0, 0)⟩

/-- A command, its completion, and its `OK`. -/
def handshake : List Event := [.task io₀, .atWriteComplete, .atReadComplete okText, .task io₀]

/-- From `simcom_init` to the first command. -/
def startup : List Event :=
  [.task io₀, .task io₀, .atReadComplete atReadyText, .task io₀] ++
    List.replicate 14999 .tick ++ [.task io₀]

/-- A read is in flight, no write is, and no response is pending. -/
structure Poised (q : State) (s : Sys) : Prop where
  state : s.state = q
  ATread : s.flags.ATread = false
  ATwrite : s.flags.ATwrite = true
  parse : s.pendingATCommandParse = false
  response : s.pendingResponse = false
  buff : s.buffRecv = .clear
  reads : s.reads = 1
  writes : s.writes = []

/-! ## Reading a response -/

/-- `ATCommandParse` depends on the text only. -/
theorem atCommandParse_cstr (b : Bytes) : atCommandParse (cstr b) = atCommandParse b := by
  have hsplit : cstr b ++ b.dropWhile (· ≠ 0) = b := List.takeWhile_append_dropWhile
  have hcc : cstr (cstr b) = cstr b := cstr_of_notMem (zero_notMem_cstr b)
  -- the byte after the text is its NUL
  have hrest : ∀ c ∈ (b.dropWhile (· ≠ 0)).head?, c = 0 := by
    intro c hc
    have := List.head?_dropWhile_not (· ≠ (0 : UInt8)) b
    rw [hc] at this
    simpa using this
  unfold atCommandParse
  rw [hcc]
  generalize cstr b = t at *
  generalize b.dropWhile (· ≠ 0) = rest at *
  subst hsplit
  match t with
  | [] => rfl
  | [c] =>
    have : rest[0]? ≠ some 10 := fun h => by
      have := hrest 10 (by rw [List.head?_eq_getElem?]; exact h)
      exact absurd this (by decide)
    simp [this]
  | c :: d :: t =>
    have h₁ : ∀ k < (c :: d :: t).length, (c :: d :: t ++ rest)[k]? = (c :: d :: t)[k]? :=
      fun k hk => List.getElem?_append_left hk
    simp only [h₁ 0 (by simp), h₁ 1 (by simp),
      h₁ ((c :: d :: t).length - 2) (Nat.sub_lt (Nat.succ_pos _) Nat.two_pos),
      h₁ ((c :: d :: t).length - 1) (by simp)]

/-- A completed read leaves its text in the buffer. -/
theorem step_atReadComplete {s : Sys} {chunk : Bytes} (hr : s.reads ≠ 0) (hb : s.buffRecv = .clear)
    (hlen : chunk.length ≤ 512) :
    ∃ buff : Buf 512, buff.text = cstr chunk ∧ step s (.atReadComplete chunk) = some
      (simcomEventHandler .atReadComplete (some chunk.length)
        { s with buffRecv := buff, reads := s.reads - 1 }) := by
  obtain ⟨buff, hbuff⟩ := @Buf.store_isSome 512 Buf.clear 0 chunk (by omega)
  refine ⟨buff, Buf.text_store_clear hbuff, ?_⟩
  simp only [step, if_neg hr, hb, hbuff, Option.map_some]

/-- The response moves the machine on. -/
theorem parse_of_next? {io : Io} {s : Sys} {r : Reply} {q : State} (hr : r ≠ .gps)
    (h : s.next? r = some q) : ∃ timer, execBlock io s (.parse r) =
      ((s.noted timer s.assignedIP s.fault).accept q).endParse := by
  rcases parse_cases io s hr with ⟨q', timer, hq, heq⟩ | ⟨-, -, hn, -⟩ | ⟨hn, -⟩
  · obtain rfl := Option.some.inj (h.symm.trans hq)
    exact ⟨timer, heq⟩
  · rw [h] at hn; exact absurd hn (by simp)
  · rw [h] at hn; exact absurd hn (by simp)

theorem strcmp_cstr (b t : Bytes) : strcmp (cstr b) t = 0 ↔ strcmp b t = 0 := by
  rw [strcmp_eq_zero_iff, strcmp_eq_zero_iff, cstr_of_notMem (zero_notMem_cstr b)]

theorem strncmp_cstr (n : Nat) (b t : Bytes) : strncmp n (cstr b) t = 0 ↔ strncmp n b t = 0 := by
  rw [strncmp_eq_zero_iff, strncmp_eq_zero_iff, cstr_of_notMem (zero_notMem_cstr b)]

/-- So does the state it leads to. -/
theorem next?_cstr (r : Reply) (b : Bytes) : r.next? (cstr b) = r.next? b := by
  cases r <;> simp only [Reply.next?, strcmp_cstr, strncmp_cstr]

/-! ## Runs along a condition -/

/-- The events lead from `s` to `s'`, every step meeting `C`. -/
def Drives (C : Sys → Event → Prop) (s : Sys) (es : List Event) (s' : Sys) : Prop :=
  run step s es = some s' ∧ Along step C s es

/-- What the exchange below needs of a condition: it constrains calls of the task only, and none
that finds nothing to parse, is in an idle state, or finds the state's own command completed. -/
structure Tolerant (C : Sys → Event → Prop) : Prop where
  other : ∀ s e, e.isTask = false → C s e
  silent : ∀ s io, s.answered = false → C s (.task io)
  idle : ∀ s io, Idle s.state → C s (.task io)
  done : ∀ s io, (∃ cmd r, script s.state = .command cmd r) → s.pendingResponse = true →
    s.flags.ATwrite = true → C s (.task io)

variable {C : Sys → Event → Prop} {s s' s'' : Sys}

theorem Drives.nil : Drives C s [] s := ⟨rfl, trivial⟩

theorem Drives.append {es₁ es₂ : List Event} (h₁ : Drives C s es₁ s') (h₂ : Drives C s' es₂ s'') :
    Drives C s (es₁ ++ es₂) s'' :=
  ⟨by rw [run_append, h₁.1, Option.bind_some, h₂.1], along_append h₁.2 h₁.1 h₂.2⟩

theorem Drives.single {e : Event} (hC : C s e) (h : step s e = some s') : Drives C s [e] s' :=
  ⟨run_cons.mpr ⟨s', h, rfl⟩, hC, fun _ _ => trivial⟩

theorem Drives.cons {e : Event} {es : List Event} (hC : C s e) (h : step s e = some s')
    (h' : Drives C s' es s'') : Drives C s (e :: es) s'' := (Drives.single hC h).append h'

/-! ## One exchange -/

/-- The state `OK` leads to. -/
def okNext (q : State) : Option State :=
  match script q with
  | .command _ r => r.next? okText
  | _ => none

/-- **One exchange** moves a command-sending state on. -/
theorem handshake_drives (hC : Tolerant C) {q q' : State} (hp : Poised q s)
    (hq : okNext q = some q') : ∃ s', Drives C s handshake s' ∧ Poised q' s' := by
  obtain ⟨cmd, r, hscript, hnext⟩ : ∃ cmd r, script q = .command cmd r ∧
      r.next? okText = some q' := by
    unfold okNext at hq
    split at hq
    · exact ⟨_, _, ‹_›, hq⟩
    · exact absurd hq (by simp)
  have hsc : script s.state = .command cmd r := by rw [hp.state, hscript]
  have hr := script_command hscript
  -- the command goes out
  obtain ⟨s₁, hs₁, hw₁⟩ : ∃ s₁, simcomTasks io₀ s = s₁ ∧
      s₁ = (s.startWrite ⟨.literal cmd, cmd⟩).clearATwrite := by
    refine ⟨_, rfl, ?_⟩
    rw [simcomTasks_command hsc]
    have hsend : s.sendsCommand io₀ = true := by
      simp only [Sys.sendsCommand, hp.ATwrite, hp.response]; rfl
    have hread : (s.startWrite ⟨.literal cmd, cmd⟩).clearATwrite.startsRead io₀ = false := by
      simp only [Sys.startsRead, Sys.startWrite, Sys.clearATwrite, hp.ATread, Bool.false_and]
    have hparse : (s.startWrite ⟨.literal cmd, cmd⟩).clearATwrite.pendingATCommandParse = false :=
      hp.parse
    rw [Sys.writeCommand, if_pos hsend, Sys.readResponse, hread]
    simp only [execBlock, hparse, Bool.false_eq_true, if_false]
  -- its write completes
  obtain ⟨s₂, hs₂, hw₂⟩ : ∃ s₂, step s₁ .atWriteComplete = some s₂ ∧
      s₂ = simcomEventHandler .atWriteComplete (some cmd.length) { s₁ with writes := [] } := by
    refine ⟨_, ?_, rfl⟩
    have : s₁.writes = [⟨.literal cmd, cmd⟩] := by
      rw [hw₁]
      simp [Sys.startWrite, Sys.clearATwrite, hp.writes]
    simp only [step, this]
  -- its `OK` is read
  have hreads : s₂.reads ≠ 0 := by
    rw [hw₂, hw₁]
    simp [simcomEventHandler, Sys.startWrite, Sys.clearATwrite, hp.reads]
  have hbuff : s₂.buffRecv = .clear := by
    rw [hw₂, hw₁]
    exact hp.buff
  obtain ⟨buff, htext, hs₃⟩ := @step_atReadComplete s₂ okText hreads hbuff (by decide)
  generalize hw₃ : simcomEventHandler .atReadComplete (some okText.length)
    { s₂ with buffRecv := buff, reads := s₂.reads - 1 } = s₃ at hs₃
  have hstate : s₃.state = q := by rw [← hw₃, hw₂, hw₁]; exact hp.state
  have hresp : s₃.pendingResponse = true := by rw [← hw₃, hw₂]; rfl
  have hat : s₃.flags.ATwrite = true := by rw [← hw₃, hw₂]; rfl
  have hwrites : s₃.writes = [] := by rw [← hw₃, hw₂]; rfl
  have hread : s₃.startsRead io₀ = true := by rw [← hw₃]; rfl
  have hreads₃ : s₃.reads = 0 := by
    rw [← hw₃, hw₂, hw₁]
    simp [simcomEventHandler, Sys.startWrite, Sys.clearATwrite, hp.reads]
  have hans : s₃.answered = true ∧ s₃.buffRecv = buff := by
    rw [← hw₃]
    refine ⟨?_, rfl⟩
    show (true && atCommandParse buff.bytes) = true
    rw [← atCommandParse_cstr, ← Buf.text, htext]
    decide
  -- and the task moves on
  have hsc₃ : script s₃.state = .command cmd r := by rw [hstate, hscript]
  have hn : (s₃.startRead.clearATread).next? r = some q' := by
    have : (s₃.startRead.clearATread).next? r = s₃.next? r := rfl
    rw [this, Sys.next?, if_pos hans.1, hans.2, ← next?_cstr, ← Buf.text, htext, next?_cstr, hnext]
  obtain ⟨timer, heq⟩ := @parse_of_next? io₀ _ _ _ hr.1 hn
  refine ⟨simcomTasks io₀ s₃, ?_, ?_⟩
  · refine .cons (hC.silent s io₀ ?_) (congrArg some hs₁) (.cons (hC.other _ _ rfl) hs₂
      (.cons (hC.other _ _ rfl) hs₃ (.single (hC.done _ _ ⟨cmd, r, hsc₃⟩ hresp hat) rfl)))
    simp [Sys.answered, hp.parse]
  · rw [simcomTasks_command hsc₃, writeCommand_of_pendingResponse hresp, Sys.readResponse,
      if_pos hread, heq]
    exact ⟨rfl, rfl, hat, rfl, rfl, rfl, by
      show s₃.reads + 1 = 1
      rw [hreads₃], hwrites⟩

/-- Along states each of which `OK` leads to the next of, one exchange for each. -/
theorem poised_chain (hC : Tolerant C) : ∀ {q : State} {qs : List State} {s : Sys}, Poised q s →
    List.IsChain (fun q q' => okNext q = some q') (q :: qs) →
    ∃ s', Drives C s (qs.flatMap fun _ => handshake) s' ∧ Poised ((q :: qs).getLast (by rintro ⟨⟩)) s'
  | q, [], s, hp, _ => ⟨s, .nil, hp⟩
  | q, q' :: qs, s, hp, hch => by
    rw [List.isChain_cons_cons] at hch
    obtain ⟨s₁, hd, hp₁⟩ := handshake_drives hC hp hch.1
    obtain ⟨s₂, hd', hp₂⟩ := poised_chain hC hp₁ hch.2
    exact ⟨s₂, hd.append hd', hp₂⟩

/-! ## The beginning -/

theorem ticks_run (hC : Tolerant C) : ∀ {n k : Nat} {s : Sys}, s.timer.toNat = n + k → 1 ≤ k →
    Drives C s (List.replicate n .tick) { s with timer := UInt32.ofNat k }
  | 0, k, s, h, _ => by
    have : UInt32.ofNat k = s.timer := by rw [← Nat.zero_add k, ← h, UInt32.ofNat_toNat]
    rw [this]
    exact .nil
  | n + 1, k, s, h, hk => by
    have hlt : (1 : UInt32) < s.timer := by
      rw [UInt32.lt_iff_toNat_lt]
      have : (1 : UInt32).toNat = 1 := rfl
      omega
    have htick : step s .tick = some { s with timer := s.timer - 1 } := by
      simp only [step, resendATCommandCB, if_pos hlt]
    refine .cons (hC.other _ _ rfl) htick
      (ticks_run hC (s := { s with timer := s.timer - 1 }) ?_ hk)
    show (s.timer - 1).toNat = n + k
    rw [UInt32.toNat_sub_of_le _ _ (by rw [UInt32.le_iff_toNat_le]; have : (1 : UInt32).toNat = 1 := rfl; omega)]
    have : (1 : UInt32).toNat = 1 := rfl
    omega

/-- The driver is ready. -/
def notReady₀ : Sys := { simcomInit with state := .notReady, trace := [.entered .notReady] }

/-- A read is in flight. -/
def notReady₁ : Sys := { notReady₀ with flags := { notReady₀.flags with ATread := false }, reads := 1 }

/-- The modem's start message has set the timer. -/
def listening : Sys := { notReady₁ with timer := 15000 }

theorem listening_drives (hC : Tolerant C) : Drives C simcomInit
    [.task io₀, .task io₀, .atReadComplete atReadyText, .task io₀] listening := by
  have h₁ : step simcomInit (.task io₀) = some notReady₀ := by decide +kernel
  have h₂ : step notReady₀ (.task io₀) = some notReady₁ := by decide +kernel
  obtain ⟨s₃, h₃⟩ : ∃ s₃, step notReady₁ (.atReadComplete atReadyText) = some s₃ :=
    Option.isSome_iff_exists.mp (by decide +kernel)
  have h₄ : (step notReady₁ (.atReadComplete atReadyText)).map (fun s => (s.state, simcomTasks io₀ s)) =
      some (.notReady, listening) := by decide +kernel
  rw [h₃, Option.map_some, Option.some_inj, Prod.mk.injEq] at h₄
  have hidle : Idle s₃.state := .inr (.inl (by rw [h₄.1]; rfl))
  exact .cons (hC.idle _ _ (.inl rfl)) h₁ (.cons (hC.idle _ _ (.inr (.inl rfl))) h₂
    (.cons (hC.other _ _ rfl) h₃ (.single (hC.idle _ _ hidle) (congrArg some h₄.2))))

/-- The state 15 seconds later, where the first command is due. -/
def started : Sys := { listening with timer := 1 }.goto .disablingEco

theorem startup_drives (hC : Tolerant C) : Drives C simcomInit startup started := by
  have hticks := @ticks_run C hC 14999 1 listening (by decide) (by decide)
  have hrun : simcomTasks io₀ { listening with timer := UInt32.ofNat 1 } = started := by
    decide +kernel
  exact ((listening_drives hC).append hticks).append
    (.single (hC.idle _ _ (.inr (.inl rfl))) (congrArg some hrun))

theorem poised_started : Poised .disablingEco started := ⟨rfl, rfl, rfl, rfl, rfl, rfl, rfl, rfl⟩

/-! ## Up to the first POST -/

/-- The states up to the first position, in the order the modem's `OK`s lead through them. -/
def setup : List State :=
  [.settingFullFunctionality, .gettingSimPinStatus, .gettingMobileNetworkStatus,
   .gettingGprsNetworkStatus, .gettingEpsNetworkStatus, .definingPdpContext,
   .activatingPdpContext, .verifyPdpAddress, .httpsInit, .httpsSetUrl, .httpsSetJsonFormat,
   .requestGpsInfo]

/-- One exchange for each of them, and the made-up sentence. -/
def setupEvents : List Event := (setup.flatMap fun _ => handshake) ++ [.task io₀]

/-- From `simcom_init` to the state the first position is posted in. -/
def toPost : List Event := startup ++ setupEvents

/-- The position of the made-up sentence for `io₀`. -/
def fix₀ : GpsInfo := ⟨31130000, 121210000, 0, 3⟩

/-- The made-up sentence is taken. -/
theorem request_drives (hC : Tolerant C) (hp : Poised .requestGpsInfo s) :
    ∃ s', Drives C s [.task io₀] s' ∧ Poised .httpPostData s' ∧
      s'.postData.text = gpsInfoToString fix₀ := by
  have hsc : script s.state = .request := by rw [hp.state]; rfl
  obtain ⟨buff, htext, hmake⟩ := makeSentence_eq s io₀
  have hnul : (0 : UInt8) ∉ gpsInfoToString fix₀ := by decide +kernel
  obtain ⟨body, hbody⟩ := @Buf.store_isSome 64 .clear 0 (gpsInfoToString fix₀ ++ [0])
    (by decide +kernel)
  have hg : updateGPSInfo (sentenceText io₀.rand) = some fix₀ := by decide +kernel
  have hans : atCommandParse buff.bytes = true := by
    rw [← atCommandParse_cstr, ← Buf.text, htext]
    decide +kernel
  refine ⟨simcomTasks io₀ s, .single (hC.idle _ _ (.inr (.inr (.inl hsc)))) rfl, ?_⟩
  rw [simcomTasks_request hsc, hmake]
  simp only [execBlock, hans, if_true, replyTo, htext, hg, Buf.sprintf, hbody]
  exact ⟨⟨rfl, hp.ATread, hp.ATwrite, rfl, hp.response, rfl, hp.reads, hp.writes⟩,
    Buf.text_sprintf hbody hnul⟩

/-- **Up to the first POST.** -/
theorem toPost_drives (hC : Tolerant C) : ∃ s, Drives C simcomInit toPost s ∧
    Poised .httpPostData s ∧ s.postData.text = gpsInfoToString fix₀ := by
  obtain ⟨s₂, hd₂, hp₂⟩ := @poised_chain _ hC _ setup _ poised_started (by decide +kernel)
  obtain ⟨s₃, hd₃, hp₃, hbody⟩ := request_drives hC hp₂
  exact ⟨s₃, (startup_drives hC).append (hd₂.append hd₃), hp₃, hbody⟩

theorem tolerant_true : Tolerant fun _ _ => True :=
  ⟨fun _ _ _ => trivial, fun _ _ _ => trivial, fun _ _ _ => trivial, fun _ _ _ _ _ => trivial⟩

end Rastreo.Simcom
