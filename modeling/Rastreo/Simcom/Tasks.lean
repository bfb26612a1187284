import Rastreo.Simcom.State
import Rastreo.Lib.Run

/-!
# The modem task: `simcom_tasks` (`A7672E.c`)

Every `case` of the `switch` of `simcom_tasks` is a sequence of a few kinds of statements
(`Block`): write the state's command, start a read, parse the pending response, test the timer.
`script` gives each state its kind of `case` with its own command, responses and successors, and
`blocks` the statements of each kind, in the order of the source. `simcomTasks` executes them.

`replyTo` is the body of `if (ATCommandParse(…))` of each kind; `Reply.next?` is the state it moves
to, as a function of the received text alone.

`step` is the system: calls of the task, the 1 ms timer and the two completions, each completion of
a transfer the driver accepted. `Reachable` states are those a run from `simcom_init` ends in.
-/

namespace Rastreo.Simcom

open Rastreo.Lib

/-! ## Parsing -/

/-- `ATCommandParse`, on the array of `size` bytes at `command`: `i` ends at the first NUL, or at
`size`. -/
def atCommandParse (command : Bytes) : Bool :=
  let i := (cstr command).length
  i ≠ 0 && (command[0]? = some 13 && command[1]? = some 10 && command[i - 2]? = some 13 &&
    command[i - 1]? = some 10)

/-- `IPStringToInt`; `none` is a NULL token handed to `atoi`. -/
def ipStringToInt (ip : Bytes) (size : Nat) : Option UInt32 :=
  if size < 7 ∨ size > 15 then some 0
  else do
    let (num, r) ← strtok (ascii ".") ip
    let b0 := UInt8.ofInt (atoi num)
    let (num, r) ← strtok (ascii ".") r
    let b1 := UInt8.ofInt (atoi num)
    let (num, r) ← strtok (ascii ".") r
    let b2 := UInt8.ofInt (atoi num)
    let (num, _) ← strtok (ascii "\r") r
    let b3 := UInt8.ofInt (atoi num)
    return (b0 ||| b1 ||| b2 ||| b3).toUInt32

/-- The address of a `+CGPADDR` line: the second token, without its last two bytes (`size_t`
arithmetic). `none` is a NULL token, or a line without a NUL in the buffer. -/
def pdpAddress (buff : Buf 512) : Option UInt32 := do
  if buff.text.length = 512 then none
  let (_, r) ← strtok (ascii ",") buff.text
  let (tok, _) ← strtok (ascii ",") r
  ipStringToInt tok ((tok.length + 4294967294) % 4294967296)

/-! ## The statements of the cases -/

/-- What a case does with a response. -/
inductive Reply
  /-- The modem's start message starts the timer. -/
  | atReady
  /-- `OK` and `ERROR` each lead to a state. -/
  | result (next err : State)
  /-- `OK`, an address line or `ERROR`. -/
  | pdpAddress
  /-- The GPS sentence. -/
  | gps
  /-- The prompt, `OK` or `ERROR`. -/
  | postData
  /-- The result of the POST, or `ERROR`. -/
  | postResponse
  /-- The end of the body, or `ERROR`. -/
  | readResponse
  /-- `OK` starts the timer; `ERROR`. -/
  | stopService
  deriving DecidableEq, Repr

/-- What a `case` of `simcom_tasks` is made of. -/
inductive Block
  /-- Wait for the driver. -/
  | driver
  /-- `if (flags.ATwrite && !pendingResponse && AT_Write(cmd) == SUCCESS) flags.ATwrite = false`. -/
  | write (cmd : Bytes)
  /-- The same for the command formatted into `postCmd`. -/
  | writePostCmd
  /-- `if (flags.ATread && AT_Read(buffRecv) == SUCCESS) flags.ATread = false`. -/
  | read
  /-- `CLEAR_BUFF(postData)` and the GPS sentence of a module without GPS. -/
  | sentence
  /-- `if (pendingATCommandParse) { if (ATCommandParse(…)) …; CLEAR_BUFF; … }`. -/
  | parse (r : Reply)
  /-- `if (TIMER_COMPLETE(timer)) state = next`. -/
  | timer (next : State)
  deriving DecidableEq, Repr

/-- The kinds of `case`. -/
inductive Script
  | waiting
  | listen
  | command (cmd : Bytes) (r : Reply)
  | request
  | post
  | response
  | ready
  | none
  deriving DecidableEq, Repr

/-- The `case` of each state; `none` for those without one. -/
def script : State → Script
  | .waitingDriverReady => .waiting
  | .notReady => .listen
  | .disablingEco => .command atDisableEco (.result .settingFullFunctionality .error)
  | .settingFullFunctionality =>
    .command atSetFullFunctionality (.result .gettingSimPinStatus .error)
  | .gettingSimPinStatus => .command atSimPinStatus (.result .gettingMobileNetworkStatus .error)
  | .gettingMobileNetworkStatus =>
    .command atMobileNetworkStatus (.result .gettingGprsNetworkStatus .error)
  | .gettingGprsNetworkStatus =>
    .command atGprsNetworkStatus (.result .gettingEpsNetworkStatus .error)
  -- being attached to the EPS network is not strictly necessary
  | .gettingEpsNetworkStatus =>
    .command atEpsNetworkStatus (.result .definingPdpContext .definingPdpContext)
  | .definingPdpContext => .command atDefinePdpContext (.result .activatingPdpContext .error)
  | .activatingPdpContext => .command atActivatePdpContext (.result .verifyPdpAddress .error)
  | .verifyPdpAddress => .command atVerifyPdpAddress .pdpAddress
  | .httpsInit => .command atHttpsInit (.result .httpsSetUrl .error)
  | .httpsSetUrl => .command atHttpsSetUrl (.result .httpsSetJsonFormat .error)
  | .httpsSetJsonFormat => .command atHttpSetJsonFormat (.result .requestGpsInfo .error)
  | .requestGpsInfo => .request
  | .httpPostData => .post
  | .httpSendPostRequest => .command atHttpSendPostRequest (.result .httpWaitPostResponse .error)
  | .httpWaitPostResponse => .response
  | .httpReadHeader => .command atHttpReadHeader (.result .httpReadResponse .error)
  | .httpReadResponse => .command atHttpReadResponse .readResponse
  | .httpStopService => .command atHttpStopService .stopService
  | .ready => .ready
  | .error | .enablingGnss | .setGpsMode | .coldStartGps | .startGpsTestMode
  | .httpSendGetRequest | .httpWaitGetResponse => .none

/-- The statements of a kind of `case`, in order. -/
def Script.blocks : Script → List Block
  | .waiting => [.driver]
  | .listen => [.read, .parse .atReady, .timer .disablingEco]
  | .command cmd r => [.write cmd, .read, .parse r]
  | .request => [.sentence, .parse .gps]
  | .post => [.writePostCmd, .read, .parse .postData]
  | .response => [.read, .parse .postResponse]
  | .ready => [.timer .httpsInit]
  | .none => []

/-! ## Execution -/

/-- `simcomObj.state = q`. -/
def Sys.goto (s : Sys) (q : State) : Sys := { s with state := q, trace := .entered q :: s.trace }

/-- `pendingResponse = false; simcomObj.state = q`. -/
def Sys.accept (s : Sys) (q : State) : Sys := { s with pendingResponse := false }.goto q

/-- `AT_Write` returned `SUCCESS`. -/
def Sys.startWrite (s : Sys) (t : Transfer) : Sys :=
  { s with writes := s.writes ++ [t], trace := .wrote t :: s.trace }

/-- `flags.ATwrite = false`. -/
def Sys.clearATwrite (s : Sys) : Sys := { s with flags := { s.flags with ATwrite := false } }

/-- `AT_Read` returned `SUCCESS`. -/
def Sys.startRead (s : Sys) : Sys := { s with reads := s.reads + 1 }

/-- `flags.ATread = false`. -/
def Sys.clearATread (s : Sys) : Sys := { s with flags := { s.flags with ATread := false } }

/-- `sprintf(postCmd, AT_HTTP_INPUT_POST_DATA"%d,10\r", strlen(postData))`. -/
def postCmd (s : Sys) : Bytes :=
  atHttpInputPostData ++ fmtD 0 s.postData.text.length ++ ascii ",10\r"

/-- The text of the sentence a module without GPS makes up. -/
def sentenceText : Nat × Nat × Nat × Nat → Bytes
  | (r1, r2, r3, r4) =>
    ascii "\r\n+CGPSINFO:3113." ++ fmtD 0 (r1 % 10000 : Nat) ++ ascii "86,N,12121." ++
      fmtD 0 (r2 % 10000 : Nat) ++ ascii "64,E,250311,072809.3,44.1," ++ fmtD 0 (r3 % 20 : Nat) ++
      ascii ".3," ++ fmtD 0 (r4 % 360 : Nat) ++ ascii "\r\n"

/-- The guard of a command write, and the driver's answer. -/
def Sys.sendsCommand (s : Sys) (io : Io) : Bool :=
  s.flags.ATwrite && !s.pendingResponse && io.writes

/-- The guard of a read, and the driver's answer. -/
def Sys.startsRead (s : Sys) (io : Io) : Bool := s.flags.ATread && io.reads

/-- The guard of the payload write, and the driver's answer. -/
def Sys.sendsPayload (s : Sys) (io : Io) : Bool := s.flags.ATwrite && io.writesPayload

/-- A command write, and the flag. -/
def Sys.writeCommand (s : Sys) (io : Io) (t : Transfer) : Sys :=
  if s.sendsCommand io then (s.startWrite t).clearATwrite else s

/-- A read, and the flag. -/
def Sys.readResponse (s : Sys) (io : Io) : Sys :=
  if s.startsRead io then s.startRead.clearATread else s

/-- The payload transfer. -/
def Sys.payload (s : Sys) : Transfer := ⟨.postData, s.postData.text⟩

/-- The body of `if (ATCommandParse(buffRecv, …))`. -/
def replyTo (io : Io) (s : Sys) : Reply → Sys
  | .atReady => if strcmp s.buffRecv.bytes atReadyText = 0 then { s with timer := 15000 } else s
  | .result next err =>
    if strcmp s.buffRecv.bytes okText = 0 then s.accept next
    else if strcmp s.buffRecv.bytes errorText = 0 then s.accept err
    else s
  | .pdpAddress =>
    if strcmp s.buffRecv.bytes okText = 0 then s.accept .httpsInit
    else if strncmp 11 s.buffRecv.bytes cgpaddrText = 0 then
      match pdpAddress s.buffRecv with
      | some ip => { s with assignedIP := ip }
      | none => { s with fault := true }
    else if strcmp s.buffRecv.bytes errorText = 0 then s.accept .error
    else s
  | .gps =>
    match updateGPSInfo s.buffRecv.text with
    | none => { s with fault := true }
    | some g =>
      match s.postData.sprintf (gpsInfoToString g) with
      | none => { s with fault := true }
      | some body => { s with gpsInfo := g, postData := body }.goto .httpPostData
  | .postData =>
    if strcmp s.buffRecv.bytes downloadText = 0 then
      let s := { s with trace := .prompt :: s.trace }
      if s.sendsPayload io then (s.startWrite s.payload).clearATwrite else s
    else if strcmp s.buffRecv.bytes okText = 0 then s.accept .httpSendPostRequest
    else if strcmp s.buffRecv.bytes errorText = 0 then s.accept .error
    else s
  | .postResponse =>
    if strncmp 16 s.buffRecv.bytes httpActionText = 0 then s.accept .httpStopService
    else if strcmp s.buffRecv.bytes errorText = 0 then s.accept .error
    else s
  | .readResponse =>
    if strcmp s.buffRecv.bytes httpReadText = 0 then s.accept .httpStopService
    else if strcmp s.buffRecv.bytes errorText = 0 then s.accept .error
    else s
  | .stopService =>
    if strcmp s.buffRecv.bytes okText = 0 then { s with timer := 10000 }.accept .ready
    else if strcmp s.buffRecv.bytes errorText = 0 then s.accept .error
    else s

/-- `CLEAR_BUFF(postData); sprintf(buffRecv, …); pendingATCommandParse = true`. -/
def Sys.makeSentence (s : Sys) (io : Io) : Sys :=
  match s.buffRecv.sprintf (sentenceText io.rand) with
  | none => { s with postData := .clear, fault := true }
  | some buff => { s with postData := .clear, buffRecv := buff, pendingATCommandParse := true }

/-- `CLEAR_BUFF(buffRecv); pendingATCommandParse = false`. -/
def Sys.endParse (s : Sys) : Sys := { s with buffRecv := .clear, pendingATCommandParse := false }

/-- One block of a `case`. -/
def execBlock (io : Io) (s : Sys) : Block → Sys
  | .driver => if io.driverReady then { s with buffRecv := .clear }.goto .notReady else s
  | .write cmd => s.writeCommand io ⟨.literal cmd, cmd⟩
  | .writePostCmd => s.writeCommand io ⟨.postCmd, postCmd s⟩
  | .read => s.readResponse io
  | .sentence => s.makeSentence io
  | .parse r =>
    if s.pendingATCommandParse then
      (if atCommandParse s.buffRecv.bytes then replyTo io s r else s).endParse
    else s
  | .timer next => if s.timer = 1 then s.goto next else s

/-- **`simcom_tasks`.** -/
def simcomTasks (io : Io) (s : Sys) : Sys := (script s.state).blocks.foldl (execBlock io) s

/-! ## The system -/

/-- A call of the task, the timer, or a completion the driver reports. -/
inductive Event
  /-- A call of `simcom_tasks`. -/
  | task (io : Io)
  /-- The 1 ms timer. -/
  | tick
  /-- The oldest write in flight completes. -/
  | atWriteComplete
  /-- A read in flight completes with these bytes. -/
  | atReadComplete (chunk : Bytes)

/-- The event is a call of the task. -/
def Event.isTask : Event → Bool
  | .task _ => true
  | _ => false

/-- One event; `none` when the driver has not accepted the transfer it would complete, or the
bytes exceed the buffer. -/
def step (s : Sys) : Event → Option Sys
  | .task io => some (simcomTasks io s)
  | .tick => some (resendATCommandCB s)
  | .atWriteComplete =>
    match s.writes with
    | [] => none
    | t :: ts =>
      some (simcomEventHandler .atWriteComplete (some t.bytes.length) { s with writes := ts })
  | .atReadComplete chunk =>
    if s.reads = 0 then none
    else (s.buffRecv.store 0 chunk).map fun buff =>
      simcomEventHandler .atReadComplete (some chunk.length)
        { s with buffRecv := buff, reads := s.reads - 1 }

/-! ## What a reply does -/

/-- The state a response leads to, as a function of the received bytes. -/
def Reply.next? (r : Reply) (buff : Bytes) : Option State :=
  match r with
  | .atReady | .gps => none
  | .result next err =>
    if strcmp buff okText = 0 then some next
    else if strcmp buff errorText = 0 then some err
    else none
  | .pdpAddress =>
    if strcmp buff okText = 0 then some .httpsInit
    else if strncmp 11 buff cgpaddrText = 0 then none
    else if strcmp buff errorText = 0 then some .error
    else none
  | .postData =>
    if strcmp buff downloadText = 0 then none
    else if strcmp buff okText = 0 then some .httpSendPostRequest
    else if strcmp buff errorText = 0 then some .error
    else none
  | .postResponse =>
    if strncmp 16 buff httpActionText = 0 then some .httpStopService
    else if strcmp buff errorText = 0 then some .error
    else none
  | .readResponse =>
    if strcmp buff httpReadText = 0 then some .httpStopService
    else if strcmp buff errorText = 0 then some .error
    else none
  | .stopService =>
    if strcmp buff okText = 0 then some .ready
    else if strcmp buff errorText = 0 then some .error
    else none

/-- What a reply other than the prompt leaves alone. -/
def Sys.noted (s : Sys) (timer : UInt32) (ip : UInt32) (fault : Bool) : Sys :=
  { s with timer := timer, assignedIP := ip, fault := fault }

/-- **What a reply does**: it moves on, it takes the prompt, or it leaves all but the timer, the
address and the fault mark alone. -/
theorem replyTo_cases (io : Io) (s : Sys) {r : Reply} (hr : r ≠ .gps) :
    (∃ q timer, r.next? s.buffRecv.bytes = some q ∧
      replyTo io s r = (s.noted timer s.assignedIP s.fault).accept q) ∨
    (r = .postData ∧ strcmp s.buffRecv.bytes downloadText = 0 ∧
      r.next? s.buffRecv.bytes = none ∧ replyTo io s r =
        let s := { s with trace := .prompt :: s.trace }
        if s.sendsPayload io then (s.startWrite s.payload).clearATwrite else s) ∨
    (r.next? s.buffRecv.bytes = none ∧ ¬ (r = .postData ∧ strcmp s.buffRecv.bytes downloadText = 0) ∧
      ∃ timer ip fault, replyTo io s r = s.noted timer ip fault) := by
  have hid : s = s.noted s.timer s.assignedIP s.fault := rfl
  cases r with
  | gps => exact absurd rfl hr
  | atReady =>
    refine .inr (.inr ⟨rfl, by simp, ?_⟩)
    simp only [replyTo]
    split
    · exact ⟨_, _, _, rfl⟩
    · exact ⟨_, _, _, hid⟩
  | postData =>
    simp only [replyTo, Reply.next?]
    by_cases hd : strcmp s.buffRecv.bytes downloadText = 0
    · exact .inr (.inl (by simp [hd]))
    · rw [if_neg hd, if_neg hd]
      split
      · exact .inl ⟨_, s.timer, rfl, rfl⟩
      · split
        · exact .inl ⟨_, s.timer, rfl, rfl⟩
        · exact .inr (.inr ⟨rfl, by simp [hd], _, _, _, hid⟩)
  | pdpAddress =>
    simp only [replyTo, Reply.next?]
    split
    · exact .inl ⟨_, s.timer, rfl, rfl⟩
    · split
      · refine .inr (.inr ⟨rfl, by simp, ?_⟩)
        split
        · exact ⟨s.timer, _, s.fault, rfl⟩
        · exact ⟨s.timer, s.assignedIP, _, rfl⟩
      · split
        · exact .inl ⟨_, s.timer, rfl, rfl⟩
        · exact .inr (.inr ⟨rfl, by simp, _, _, _, hid⟩)
  | result next err | postResponse | readResponse | stopService =>
    simp only [replyTo, Reply.next?]
    split
    · exact .inl ⟨_, _, rfl, rfl⟩
    · split
      · exact .inl ⟨_, s.timer, rfl, rfl⟩
      · exact .inr (.inr ⟨rfl, by simp, _, _, _, hid⟩)

/-- The made-up sentence is taken, or the behaviour is undefined. -/
theorem replyTo_gps (io : Io) (s : Sys) :
    replyTo io s .gps = { s with fault := true } ∨
    ∃ g body, replyTo io s .gps = { s with gpsInfo := g, postData := body }.goto .httpPostData := by
  simp only [replyTo]
  split
  · exact .inl rfl
  · split
    · exact .inl rfl
    · exact .inr ⟨_, _, rfl⟩

/-! ## What a call does -/

/-- An unparsed response that `ATCommandParse` accepts is in the buffer. -/
def Sys.answered (s : Sys) : Bool := s.pendingATCommandParse && atCommandParse s.buffRecv.bytes

/-- The state the response in the buffer leads to. -/
def Sys.next? (s : Sys) (r : Reply) : Option State :=
  if s.answered then r.next? s.buffRecv.bytes else none

/-- The response in the buffer is the prompt. -/
def Sys.prompted (s : Sys) : Bool := s.answered && strcmp s.buffRecv.bytes downloadText == 0

/-- The receive buffer after a block. -/
def Sys.heard (s : Sys) (pending : Bool) (buff : Buf 512) : Sys :=
  { s with pendingATCommandParse := pending, buffRecv := buff }

/-- **What a parse does**: `replyTo_cases`, with nothing to parse as a further way of leaving the
rest alone. -/
theorem parse_cases (io : Io) (s : Sys) {r : Reply} (hr : r ≠ .gps) :
    (∃ q timer, s.next? r = some q ∧
      execBlock io s (.parse r) = ((s.noted timer s.assignedIP s.fault).accept q).endParse) ∨
    (r = .postData ∧ s.prompted = true ∧ s.next? r = none ∧ execBlock io s (.parse r) =
      let s := { s with trace := .prompt :: s.trace }
      (if s.sendsPayload io then (s.startWrite s.payload).clearATwrite else s).endParse) ∨
    (s.next? r = none ∧ ¬ (r = .postData ∧ s.prompted = true) ∧
      ∃ timer ip fault pending buff, execBlock io s (.parse r) =
        (s.noted timer ip fault).heard pending buff) := by
  by_cases hp : s.pendingATCommandParse = true
  · by_cases ha : atCommandParse s.buffRecv.bytes = true
    · have hn : s.next? r = r.next? s.buffRecv.bytes := by
        simp [Sys.next?, Sys.answered, hp, ha]
      have hprompt : s.prompted = true ↔ strcmp s.buffRecv.bytes downloadText = 0 := by
        simp [Sys.prompted, Sys.answered, hp, ha]
      simp only [execBlock, if_pos hp, if_pos ha, hn, hprompt]
      rcases replyTo_cases io s hr with ⟨q, timer, h, heq⟩ | ⟨h1, h2, h3, heq⟩ |
        ⟨h1, h2, timer, ip, fault, heq⟩
      · exact .inl ⟨q, timer, h, by rw [heq]⟩
      · exact .inr (.inl ⟨h1, h2, h3, by rw [heq]⟩)
      · exact .inr (.inr ⟨h1, h2, timer, ip, fault, _, _, by rw [heq]; rfl⟩)
    · refine .inr (.inr ⟨by simp [Sys.next?, Sys.answered, ha],
        by simp [Sys.prompted, Sys.answered, ha], s.timer, s.assignedIP, s.fault, false, .clear, ?_⟩)
      simp only [execBlock, if_pos hp, if_neg ha]
      rfl
  · refine .inr (.inr ⟨by simp [Sys.next?, Sys.answered, hp],
      by simp [Sys.prompted, Sys.answered, hp], s.timer, s.assignedIP, s.fault,
      s.pendingATCommandParse, s.buffRecv, ?_⟩)
    simp only [execBlock, if_neg hp]
    rfl

/-- The states that neither send a command nor wait for the result of one. -/
def Idle (q : State) : Prop :=
  script q = .waiting ∨ script q = .listen ∨ script q = .request ∨ script q = .ready

theorem script_command {q : State} {cmd : Bytes} {r : Reply} (h : script q = .command cmd r) :
    r ≠ .gps ∧ r ≠ .postData := by
  cases q <;> cases h <;> exact ⟨(by rintro ⟨⟩), by rintro ⟨⟩⟩

/-! ## The made-up sentence -/

theorem zero_notMem_fmtD (w n : Nat) : (0 : UInt8) ∉ fmtD w n :=
  fun h => absurd (isDigit_of_mem_fmtD h) (by decide)

theorem zero_notMem_sentenceText (r : Nat × Nat × Nat × Nat) : (0 : UInt8) ∉ sentenceText r := by
  obtain ⟨r1, r2, r3, r4⟩ := r
  have hlit : ∀ t ∈ [ascii "\r\n+CGPSINFO:3113.", ascii "86,N,12121.",
      ascii "64,E,250311,072809.3,44.1,", ascii ".3,", ascii "\r\n"], (0 : UInt8) ∉ t := by decide
  simp only [List.forall_mem_cons] at hlit
  simp only [sentenceText, List.mem_append, not_or, hlit, zero_notMem_fmtD, not_false_eq_true,
    and_self]

theorem length_sentenceText (r : Nat × Nat × Nat × Nat) : (sentenceText r).length < 512 := by
  obtain ⟨r1, r2, r3, r4⟩ := r
  have hlen : ∀ n k : Nat, 0 < k → n < 10 ^ k → (fmtD 0 (n : Int)).length ≤ k := fun n k hk hn => by
    rw [fmtD_length]
    have := (dec_length_le_iff hk).mpr hn
    omega
  have hlit : (ascii "\r\n+CGPSINFO:3113.").length = 17 ∧ (ascii "86,N,12121.").length = 11 ∧
      (ascii "64,E,250311,072809.3,44.1,").length = 26 ∧ (ascii ".3,").length = 3 ∧
      (ascii "\r\n").length = 2 := by decide
  have h1 := hlen (r1 % 10000) 4 (by omega) (by omega)
  have h2 := hlen (r2 % 10000) 4 (by omega) (by omega)
  have h3 := hlen (r3 % 20) 2 (by omega) (by omega)
  have h4 := hlen (r4 % 360) 3 (by omega) (by omega)
  simp only [sentenceText, List.length_append, hlit]
  omega

/-- The sentence fits the receive buffer, and is what the buffer then reads as. -/
theorem makeSentence_eq (s : Sys) (io : Io) : ∃ buff : Buf 512, buff.text = sentenceText io.rand ∧
    s.makeSentence io =
      { s with postData := .clear, buffRecv := buff, pendingATCommandParse := true } := by
  have hlen := length_sentenceText io.rand
  obtain ⟨buff, hbuff⟩ := @Buf.store_isSome 512 s.buffRecv 0 (sentenceText io.rand ++ [0])
    (by rw [List.length_append, List.length_singleton]; omega)
  refine ⟨buff, Buf.text_sprintf hbuff (zero_notMem_sentenceText _), ?_⟩
  unfold Sys.makeSentence Buf.sprintf
  rw [hbuff]

section Calls

variable {io : Io} {s : Sys}

theorem state_writeCommand {t : Transfer} : (s.writeCommand io t).state = s.state := by
  unfold Sys.writeCommand
  split <;> rfl

theorem state_readResponse : (s.readResponse io).state = s.state := by
  unfold Sys.readResponse
  split <;> rfl

/-- The start message moves nothing on. -/
theorem state_parse_atReady : (execBlock io s (.parse .atReady)).state = s.state := by
  have hn : s.next? .atReady = none := by
    unfold Sys.next? Reply.next?
    simp
  rcases parse_cases io s (r := .atReady) (by rintro ⟨⟩) with ⟨q, _, h, -⟩ | ⟨h, -⟩ | ⟨-, -, _, _, _, _, _, heq⟩
  · rw [hn] at h; cases h
  · cases h
  · rw [heq]; rfl

/-- With the response flag set nothing is written. -/
theorem writeCommand_of_pendingResponse {t : Transfer} (h : s.pendingResponse = true) :
    s.writeCommand io t = s := by
  unfold Sys.writeCommand
  rw [if_neg]
  simp [Sys.sendsCommand, h]

theorem execBlock_write (cmd : Bytes) :
    execBlock io s (.write cmd) = s.writeCommand io ⟨.literal cmd, cmd⟩ := rfl

theorem execBlock_writePostCmd :
    execBlock io s .writePostCmd = s.writeCommand io ⟨.postCmd, postCmd s⟩ := by
  simp only [execBlock]

theorem execBlock_read : execBlock io s .read = s.readResponse io := rfl

theorem execBlock_sentence : execBlock io s .sentence = s.makeSentence io := rfl

theorem simcomTasks_command {cmd : Bytes} {r : Reply} (h : script s.state = .command cmd r) :
    simcomTasks io s =
      execBlock io ((s.writeCommand io ⟨.literal cmd, cmd⟩).readResponse io) (.parse r) := by
  rw [simcomTasks, h, Script.blocks, List.foldl_cons, List.foldl_cons, List.foldl_cons,
    List.foldl_nil, execBlock_write, execBlock_read]

theorem simcomTasks_post (h : script s.state = .post) :
    simcomTasks io s =
      execBlock io ((s.writeCommand io ⟨.postCmd, postCmd s⟩).readResponse io) (.parse .postData) := by
  rw [simcomTasks, h, Script.blocks, List.foldl_cons, List.foldl_cons, List.foldl_cons,
    List.foldl_nil, execBlock_writePostCmd, execBlock_read]

theorem simcomTasks_response (h : script s.state = .response) :
    simcomTasks io s = execBlock io (s.readResponse io) (.parse .postResponse) := by
  rw [simcomTasks, h, Script.blocks, List.foldl_cons, List.foldl_cons, List.foldl_nil,
    execBlock_read]

theorem simcomTasks_listen (h : script s.state = .listen) :
    simcomTasks io s =
      execBlock io (execBlock io (s.readResponse io) (.parse .atReady)) (.timer .disablingEco) := by
  rw [simcomTasks, h, Script.blocks, List.foldl_cons, List.foldl_cons, List.foldl_cons,
    List.foldl_nil, execBlock_read]

theorem simcomTasks_request (h : script s.state = .request) :
    simcomTasks io s = execBlock io (s.makeSentence io) (.parse .gps) := by
  rw [simcomTasks, h, Script.blocks, List.foldl_cons, List.foldl_cons, List.foldl_nil,
    execBlock_sentence]

end Calls

end Rastreo.Simcom
