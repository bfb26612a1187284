import Rastreo.Boot.Commands

/-!
# A host and the loader

The host sends a command when the one before has been answered; the calls of the tasks come in between
as they may, and find the stack and the socket as they may.

* **`answered_of_run`**: in every run each call returns, the answers are those of the commands, one
  each and in their order, and the flash has seen what the commands do and nothing else.
* **`answers_of_ready`**: a command that has been asked is answered, at the latest by the sixth call that finds
  the socket ready.
-/

namespace Rastreo.Boot

open Lib

/-- The loader, and what it has been asked. -/
structure Exchange where
  loader : Loader := {}
  asked : List Command := []

namespace Exchange

/-- What happens: the host asks, or `bootloader_UDP_Tasks` is called. -/
inductive Event
  | asks (c : Command)
  | pass (env : Pass)

/-- The host asks when it has every answer; then a pass answers, or goes on. -/
def step (x : Exchange) : Event → Option Exchange
  | .asks c =>
    if c.Fits ∧ x.loader.sent.length = x.asked.length then
      some ⟨{ x.loader with rx := x.loader.rx ++ [frame c.payload] }, x.asked ++ [c]⟩
    else none
  | .pass env => (x.loader.bootloaderUdpTasks env).map fun s => ⟨s, x.asked⟩

end Exchange

/-- What the commands do, one after the other. -/
def effects (cs : List Command) : Nvm := cs.foldl (fun s c => c.effect s) {}

/-! ## Where the loader can be -/

/-- The socket is open and nothing is under way. -/
structure UdpData.Rests (u : UdpData) : Prop where
  connected : u.connected = true
  dir : u.currDir = .idle

namespace Loader

/-- What waits in the socket. -/
def queue (c : Option Command) : List Bytes := c.toList.map fun c => frame c.payload

/-- Where the loader is, with the command that has not been answered yet, and how many calls that find
the socket ready are left for it. -/
inductive Stage (s : Loader) : Option Command → Nat → Prop
  | opening {c} (hstate : s.currentState = .openDatastream) (hconn : s.udp.connected = false)
      (hdir : s.udp.currDir = .idle) (hwaits : s.usrBufferEventComplete = false)
      (hrx : s.rx = queue c) : Stage s c 6
  | sent {c} (hstate : s.currentState = .waitForDone) (hrest : s.udp.Rests)
      (hwaits : s.usrBufferEventComplete = true)
      (hprev : s.prevState = .sendResponse ∨ s.prevState = .enterApplication)
      (hrx : s.rx = queue c) : Stage s c 6
  | entering {c} (hstate : s.currentState = .enterApplication) (hrest : s.udp.Rests)
      (hwaits : s.usrBufferEventComplete = false) (hrx : s.rx = queue c) : Stage s c 5
  | getting {c} (hstate : s.currentState = .getCommand) (hrest : s.udp.Rests)
      (hwaits : s.usrBufferEventComplete = false) (hrx : s.rx = queue c) : Stage s c 4
  | listening {c} (h : s.Listening) (hrx : s.rx = queue c) : Stage s c 4
  | complete {c} (hstate : s.currentState = .waitForDone) (hrest : s.udp.Rests)
      (hwaits : s.usrBufferEventComplete = true) (hprev : s.prevState = .getCommand) (hrx : s.rx = [])
      (h : s.Holds c.payload) : Stage s (some c) 3
  | processing {c} (hstate : s.currentState = .processCommand) (hrest : s.udp.Rests)
      (hwaits : s.usrBufferEventComplete = false) (hprev : s.prevState = .getCommand) (hrx : s.rx = [])
      (h : s.Holds c.payload) : Stage s (some c) 2
  | responding {c} (r : Bytes) (hstate : s.currentState = .sendResponse) (hrest : s.udp.Rests)
      (hwaits : s.usrBufferEventComplete = false)
      (hprev : s.prevState = .getCommand ∨ s.prevState = .enterApplication) (hrx : s.rx = [])
      (hanswer : c.Answer r) (hne : r ≠ []) (hlen : r.length ≤ 3)
      (hsize : s.buffSize = UInt32.ofNat r.length) (hload : Ram.load s.dataBuff 0 r.length = r) :
      Stage s (some c) 1
  | sending {c} (r : Bytes) (hstate : s.currentState = .waitForDone)
      (hconn : s.udp.connected = true) (hdir : s.udp.currDir = .tx)
      (hwaits : s.usrBufferEventComplete = false)
      (hprev : s.prevState = .sendResponse ∨ s.prevState = .enterApplication) (hrx : s.rx = [])
      (hanswer : c.Answer r) (hr : r.length ≤ 3) (hlen : s.udp.txMaxSize.toNat = (frame r).length)
      (hload : Ram.load s.dataBuff s.udp.txBuffer (frame r).length = frame r) : Stage s (some c) 1

/-- What the flash will have seen when the command is done. -/
def due (s : Loader) (c : Option Command) (n : Nat) : Nvm :=
  if 2 ≤ n then c.elim s.nvm fun c => c.effect s.nvm else s.nvm

/-- A call that finds the socket connected, and with room for an answer. -/
def Ready (env : Pass) : Prop :=
  env.isConnected = true ∧ 12 ≤ env.putIsReady.toNat

instance : DecidablePred Ready := fun _ => inferInstanceAs (Decidable (_ ∧ _))

/-- A call that brings the command on. -/
structure Advances (s t : Loader) (c : Option Command) (n n' : Nat) (env : Pass) : Prop where
  stage : Stage t c n'
  le : n' ≤ n
  lt : s.udp.connected = true → c.isSome → Ready env → n' < n
  connected : s.udp.connected = true → t.udp.connected = true
  sent : t.sent = s.sent
  due : t.due c n' = s.due c n
  nvm : 2 ≤ n' → t.nvm = s.nvm

/-- A call that answers it. -/
structure Answers (s t : Loader) (c : Command) (n : Nat) (r : Bytes) : Prop where
  stage : Stage t none 6
  answer : c.Answer r
  connected : t.udp.connected = true
  sent : t.sent = s.sent ++ [frame r]
  nvm : t.nvm = s.due (some c) n

/-- A pass goes one stage further, or answers. -/
def Goes (s : Loader) (c : Option Command) (n : Nat) (env : Pass) : Prop :=
  ∃ t, s.bootloaderUdpTasks env = some t ∧
    ((∃ n', s.Advances t c n n' env) ∨ ∃ c' r, c = some c' ∧ s.Answers t c' n r)

variable {s : Loader} {c : Option Command} {n : Nat}

/-- A command that comes in one datagram. -/
theorem receive_frame (hs : s.Listening) {c : Command} (hfits : c.Fits)
    (hrx : s.rx = [frame c.payload]) :
    ∃ m, s.receive = { s with dataBuff := m }.complete c.payload [] := by
  have hlen := hfits.length
  let env : Pass := ⟨true, [], true, true, 0, fun _ => 0⟩
  have hwith := length_withCheck c.payload
  obtain ⟨m, hm⟩ := read_frame (cut_encode (withCheck c.payload))
    (hwith.trans_lt ((Nat.le_add_right _ 2).trans_lt (hlen.trans_lt (by decide)))) hs
    (hrx.trans (List.append_nil _).symm)
    (fun d hd => by
      rw [List.mem_singleton.mp hd]
      exact hfits.1) (rfl : [env].length = [frame c.payload].length)
  rw [List.map_singleton, Lib.run, step, hs.tasks,
    taken_withCheck _ c.payload_ne_nil (by rw [hwith]; omega)] at hm
  exact ⟨m, Option.some.inj hm⟩

theorem holds_complete (s : Loader) {p : Bytes} (hlen : p.length + 2 ≤ 512) (rx : List Bytes) :
    (s.complete p rx).Holds p where
  len := by
    show (UInt32.ofNat (withCheck p).length).toNat = _
    rw [length_withCheck]
    exact UInt32.toNat_ofNat_of_lt' (hlen.trans_lt (by decide))
  load := by
    have hload : Ram.load (s.complete p rx).dataBuff procBuff (withCheck p).length = withCheck p :=
      Ram.load_store
    rw [length_withCheck, Ram.load_append] at hload
    exact (List.append_inj hload Ram.length_load).1

/-- A call with nothing to send or to take. -/
theorem tasks_of_idle {t : Loader} {env : Pass} (hswitch : s.switch env = some t)
    (hdir : t.udp.currDir = .idle) : s.bootloaderUdpTasks env = some t := by
  unfold bootloaderUdpTasks datastreamTasks
  rw [hswitch, Option.map_some]
  split
  · rfl
  · rw [transmit_of_ne (by rw [hdir]; decide), receive_of_ne (by rw [hdir]; decide)]

/-! ## A call in each stage -/

theorem openLoop_cases (env : Pass) (i : Nat) (nets : List UInt32) (s : Loader) :
    (∃ f, s.openLoop env i nets = ({ s with udp.dwLastIP := f }, false)) ∨
    ∃ f, s.openLoop env i nets = ({ s with udp.dwLastIP := f, udp.connected := true }, true) := by
  induction nets generalizing s i with
  | nil => exact .inl ⟨s.udp.dwLastIP, rfl⟩
  | cons ip nets ih =>
    unfold openLoop
    dsimp only
    split
    · split
      · split
        · exact .inr ⟨_, rfl⟩
        · exact .inl ⟨_, rfl⟩
      · exact ih (i + 1) _
    · exact ih (i + 1) s

theorem goes_opening (hstate : s.currentState = .openDatastream) (hconn : s.udp.connected = false)
    (hdir : s.udp.currDir = .idle) (hwaits : s.usrBufferEventComplete = false)
    (hrx : s.rx = queue c) (env : Pass) : s.Goes c 6 env := by
  have hno : s.udp.connected ≠ true := by
    rw [hconn]
    exact Bool.false_ne_true
  have hopen : (∃ f, s.datastreamOpen env = ({ s with udp.dwLastIP := f }, false)) ∨
      ∃ f, s.datastreamOpen env = ({ s with udp.dwLastIP := f, udp.connected := true }, true) := by
    unfold datastreamOpen
    split
    · exact openLoop_cases env 0 _ s
    · exact .inl ⟨s.udp.dwLastIP, rfl⟩
  rcases hopen with ⟨f, hf⟩ | ⟨f, hf⟩
  · have hswitch : s.switch env = some { s with udp.dwLastIP := f } := by
      unfold switch
      rw [hstate]
      dsimp only
      rw [hf, if_neg Bool.false_ne_true, ← hstate]
    refine ⟨_, tasks_of_idle hswitch hdir, .inl ⟨6, ⟨.opening hstate hconn hdir hwaits hrx, le_rfl,
      fun h => absurd h hno, fun h => absurd h hno, rfl, rfl, fun _ => rfl⟩⟩⟩
  · have hswitch : s.switch env = some { s with
        udp.dwLastIP := f, udp.connected := true, currentState := .getCommand } := by
      unfold switch
      rw [hstate]
      dsimp only
      rw [hf, if_pos rfl]
    refine ⟨_, tasks_of_idle hswitch hdir, .inl ⟨4, ⟨.getting rfl ⟨rfl, hdir⟩ hwaits hrx, by decide,
      fun h => absurd h hno, fun h => absurd h hno, rfl, rfl, fun _ => rfl⟩⟩⟩

theorem goes_sent (hstate : s.currentState = .waitForDone) (hrest : s.udp.Rests)
    (hwaits : s.usrBufferEventComplete = true)
    (hprev : s.prevState = .sendResponse ∨ s.prevState = .enterApplication)
    (hrx : s.rx = queue c) (env : Pass) : s.Goes c 6 env := by
  have hswitch : ∀ b, (if s.prevState = .getCommand then BootloaderState.processCommand
      else if s.prevState = .enterApplication then .enterApplication else .getCommand) = b →
      s.switch env = some { s with usrBufferEventComplete := false, currentState := b } := by
    rintro b rfl
    unfold switch
    rw [hstate]
    dsimp only
    rw [if_pos hwaits]
  rcases hprev with hprev | hprev
  · refine ⟨_, tasks_of_idle (hswitch .getCommand (by rw [hprev]; rfl)) hrest.dir, .inl ⟨4, ?_⟩⟩
    exact ⟨.getting rfl hrest rfl hrx, by decide, fun _ _ _ => by decide, id, rfl, rfl, fun _ => rfl⟩
  · refine ⟨_, tasks_of_idle (hswitch .enterApplication (by rw [hprev]; rfl)) hrest.dir, .inl ⟨5, ?_⟩⟩
    exact ⟨.entering rfl hrest rfl hrx, by decide, fun _ _ _ => by decide, id, rfl, rfl, fun _ => rfl⟩

theorem goes_entering (hstate : s.currentState = .enterApplication) (hrest : s.udp.Rests)
    (hwaits : s.usrBufferEventComplete = false) (hrx : s.rx = queue c) (env : Pass) :
    s.Goes c 5 env := by
  have hswitch : s.switch env = some { s with currentState := .getCommand } := by
    unfold switch
    rw [hstate]
  refine ⟨_, tasks_of_idle hswitch hrest.dir, .inl ⟨4, ?_⟩⟩
  exact ⟨.getting rfl hrest hwaits hrx, by decide, fun _ _ _ => by decide, id, rfl, rfl, fun _ => rfl⟩

/-- What a listening loader finds in the socket. -/
theorem receive_queue (h : s.Listening) (hrx : s.rx = queue c) (hfits : ∀ c' ∈ c, c'.Fits) :
    (c = none ∧ s.receive = s) ∨ ∃ c' m, c = some c' ∧ Stage s.receive c 3 ∧
      s.receive = { s with dataBuff := m }.complete c'.payload [] := by
  cases c with
  | none => exact .inl ⟨rfl, receive_nil hrx⟩
  | some c =>
    have hfits := hfits c rfl
    obtain ⟨m, hm⟩ := receive_frame h hfits hrx
    refine .inr ⟨c, m, rfl, ?_, hm⟩
    rw [hm]
    exact .complete h.state ⟨h.connected, rfl⟩ rfl h.prev rfl
      (holds_complete _ (by have := hfits.length; omega) _)

theorem goes_listening (h : s.Listening) (hrx : s.rx = queue c) (hfits : ∀ c' ∈ c, c'.Fits)
    (env : Pass) : s.Goes c 4 env := by
  refine ⟨s.receive, h.tasks env, .inl ?_⟩
  rcases receive_queue h hrx hfits with ⟨rfl, hr⟩ | ⟨c', m, rfl, hstage, hr⟩
  · rw [hr]
    exact ⟨4, .listening h hrx, le_rfl, fun _ h => absurd h Bool.false_ne_true, id, rfl, rfl, fun _ => rfl⟩
  · refine ⟨3, hstage, by decide, fun _ _ _ => by decide, ?_, ?_, ?_, ?_⟩
    all_goals rw [hr]
    · exact id
    · rfl
    · rfl
    · exact fun _ => rfl

theorem goes_getting (hstate : s.currentState = .getCommand) (hrest : s.udp.Rests)
    (hwaits : s.usrBufferEventComplete = false) (hrx : s.rx = queue c)
    (hfits : ∀ c' ∈ c, c'.Fits) (env : Pass) : s.Goes c 4 env := by
  by_cases hready : env.isConnected = true
  · -- the reading begins, and a datagram that waits is taken at once
    generalize ht : { ({ s with buffSize := bootloaderBufferSize }.dataRead 0 bootloaderBufferSize) with
        prevState := .getCommand
        currentState := .waitForDone } = t
    have hswitch : s.switch env = some t := by
      unfold switch
      rw [hstate]
      dsimp only
      rw [if_pos hready, ← ht]
      rfl
    have hlisten : t.Listening := by
      rw [← ht]
      exact ⟨rfl, rfl, hwaits, hrest.connected, rfl, rfl, rfl⟩
    have htasks : s.bootloaderUdpTasks env = some t.receive := by
      unfold bootloaderUdpTasks
      rw [hswitch, Option.map_some, datastreamTasks_connected hlisten.connected,
        transmit_of_ne (by rw [hlisten.dir]; decide)]
    have htrx : t.rx = queue c := by
      rw [← ht]
      exact hrx
    have hsent : t.sent = s.sent := by rw [← ht]; rfl
    have hnvm : t.nvm = s.nvm := by rw [← ht]; rfl
    refine ⟨t.receive, htasks, .inl ?_⟩
    rcases receive_queue hlisten htrx hfits with ⟨rfl, hr⟩ | ⟨c', m, rfl, hstage, hr⟩
    · rw [hr]
      exact ⟨4, .listening hlisten htrx, le_rfl, fun _ h => absurd h Bool.false_ne_true,
        fun _ => hlisten.connected, hsent, hnvm, fun _ => hnvm⟩
    · refine ⟨3, hstage, by decide, fun _ _ _ => by decide, ?_, ?_, ?_, ?_⟩
      all_goals rw [hr]
      · exact fun _ => hlisten.connected
      · exact hsent
      · exact congrArg c'.effect hnvm
      · exact fun _ => hnvm
  · have hswitch : s.switch env = some s := by
      unfold switch
      rw [hstate]
      dsimp only
      rw [if_neg hready]
    refine ⟨s, tasks_of_idle hswitch hrest.dir, .inl ⟨4, .getting hstate hrest hwaits hrx, le_rfl,
      fun _ _ h => absurd h.1 hready, id, rfl, rfl, fun _ => rfl⟩⟩

section Command

variable {c : Command}

theorem goes_complete (hstate : s.currentState = .waitForDone) (hrest : s.udp.Rests)
    (hwaits : s.usrBufferEventComplete = true) (hprev : s.prevState = .getCommand) (hrx : s.rx = [])
    (h : s.Holds c.payload) (env : Pass) : s.Goes (some c) 3 env := by
  have hswitch : s.switch env =
      some { s with usrBufferEventComplete := false, currentState := .processCommand } := by
    unfold switch
    rw [hstate]
    dsimp only
    rw [if_pos hwaits, if_pos hprev]
  refine ⟨_, tasks_of_idle hswitch hrest.dir, .inl ⟨2, ?_⟩⟩
  exact ⟨.processing rfl hrest rfl hprev hrx ⟨h.len, h.load⟩, by decide, fun _ _ _ => by decide, id, rfl,
    rfl, fun _ => rfl⟩

theorem goes_processing (hstate : s.currentState = .processCommand) (hrest : s.udp.Rests)
    (hwaits : s.usrBufferEventComplete = false) (hprev : s.prevState = .getCommand) (hrx : s.rx = [])
    (hfits : c.Fits) (h : s.Holds c.payload) (env : Pass) : s.Goes (some c) 2 env := by
  obtain ⟨t, ht, hanswered⟩ := processBuffer_eq hfits h env
  have hswitch : s.switch env = some t := by
    unfold switch
    rw [hstate]
    exact ht
  have hudp : t.udp.Rests := hanswered.udp ▸ hrest
  obtain ⟨r, hr, hne, hlen, hsize, hload⟩ := hanswered.answer
  refine ⟨t, tasks_of_idle hswitch hudp.dir, .inl ⟨1, ?_, by decide, fun _ _ _ => by decide,
    fun _ => hudp.connected, hanswered.sent, hanswered.nvm, fun h => absurd h (by decide)⟩⟩
  exact .responding r hanswered.state hudp (hanswered.waits.trans hwaits)
    (hprev ▸ hanswered.prev) (hanswered.rx.trans hrx) hr hne hlen hsize hload

/-- The answer goes out. -/
theorem answers_transmit {r : Bytes} (hstate : s.currentState = .waitForDone)
    (hconn : s.udp.connected = true) (hdir : s.udp.currDir = .tx)
    (hprev : s.prevState = .sendResponse ∨ s.prevState = .enterApplication) (hrx : s.rx = [])
    (hanswer : c.Answer r) (hlen : s.udp.txMaxSize.toNat = (frame r).length)
    (hload : Ram.load s.dataBuff s.udp.txBuffer (frame r).length = frame r) {env : Pass}
    (hroom : env.putIsReady.toNat ≥ s.udp.txMaxSize.toNat) :
    s.Answers (s.transmit env).receive c 1 r := by
  have hne : s.prevState ≠ .getCommand := by
    rcases hprev with h | h <;> rw [h] <;> decide
  have htransmit : s.transmit env =
      { s with
        sent := s.sent ++ [frame r]
        udp.currDir := .idle
        usrBufferEventComplete := true } := by
    unfold transmit
    rw [if_pos ⟨hdir, hroom⟩, hlen, hload]
    unfold bufferEventHandler
    rw [handlerLoop, if_pos (by
      unfold frame encode
      rw [List.length_append, List.length_cons]
      omega), if_pos hne]
  rw [htransmit, receive_of_ne (by
    show Dir.idle ≠ .rx
    decide)]
  exact ⟨.sent hstate ⟨hconn, rfl⟩ rfl hprev hrx, hanswer, hconn, rfl, rfl⟩

/-- The answer goes out when there is room for it. -/
theorem sends {r : Bytes} (hstate : s.currentState = .waitForDone)
    (hconn : s.udp.connected = true) (hdir : s.udp.currDir = .tx)
    (hwaits : s.usrBufferEventComplete = false)
    (hprev : s.prevState = .sendResponse ∨ s.prevState = .enterApplication) (hrx : s.rx = [])
    (hanswer : c.Answer r) (hr : r.length ≤ 3) (hlen : s.udp.txMaxSize.toNat = (frame r).length)
    (hload : Ram.load s.dataBuff s.udp.txBuffer (frame r).length = frame r) (env : Pass) :
    (¬ Ready env ∧ (s.transmit env).receive = s ∧ Stage s (some c) 1) ∨
      s.Answers (s.transmit env).receive c 1 r := by
  by_cases hroom : env.putIsReady.toNat ≥ s.udp.txMaxSize.toNat
  · exact .inr (answers_transmit hstate hconn hdir hprev hrx hanswer hlen hload hroom)
  · have hstays : s.transmit env = s := by
      unfold transmit
      rw [if_neg fun h => hroom h.2]
    have hframe := length_frame_le r
    refine .inl ⟨fun h => hroom ?_, ?_, .sending r hstate hconn hdir hwaits hprev hrx hanswer hr hlen hload⟩
    · have := h.2
      omega
    · rw [hstays, receive_of_ne (by rw [hdir]; decide)]

theorem goes_sending {r : Bytes} (hstate : s.currentState = .waitForDone)
    (hconn : s.udp.connected = true) (hdir : s.udp.currDir = .tx)
    (hwaits : s.usrBufferEventComplete = false)
    (hprev : s.prevState = .sendResponse ∨ s.prevState = .enterApplication) (hrx : s.rx = [])
    (hanswer : c.Answer r) (hr : r.length ≤ 3) (hlen : s.udp.txMaxSize.toNat = (frame r).length)
    (hload : Ram.load s.dataBuff s.udp.txBuffer (frame r).length = frame r) (env : Pass) :
    s.Goes (some c) 1 env := by
  refine ⟨(s.transmit env).receive, ?_, ?_⟩
  · unfold bootloaderUdpTasks
    rw [switch_waiting hstate hwaits, Option.map_some, datastreamTasks_connected hconn]
  · rcases sends hstate hconn hdir hwaits hprev hrx hanswer hr hlen hload env with
      ⟨hready, hstays, hstage⟩ | hanswers
    · rw [hstays]
      exact .inl ⟨1, hstage, le_rfl, fun _ _ h => absurd h hready, id, rfl, rfl, fun _ => rfl⟩
    · exact .inr ⟨c, r, rfl, hanswers⟩

theorem goes_responding {r : Bytes} (hstate : s.currentState = .sendResponse) (hrest : s.udp.Rests)
    (hwaits : s.usrBufferEventComplete = false)
    (hprev : s.prevState = .getCommand ∨ s.prevState = .enterApplication) (hrx : s.rx = [])
    (hanswer : c.Answer r) (hne : r ≠ []) (hr : r.length ≤ 3)
    (hsize : s.buffSize = UInt32.ofNat r.length) (hload : Ram.load s.dataBuff 0 r.length = r)
    (env : Pass) : s.Goes (some c) 1 env := by
  have hframe := length_frame_le r
  have hsend := sendResponse_eq hne (hr.trans (by decide)) hsize hload
  have htx : s.sendResponse.udp.txMaxSize.toNat = (frame r).length := by
    rw [hsend]
    exact UInt32.toNat_ofNat_of_lt' (by
      show _ < 2 ^ 32
      omega)
  have hprev' : s.sendResponse.prevState = .sendResponse ∨
      s.sendResponse.prevState = .enterApplication := by
    rw [hsend]
    rcases hprev with h | h
    · exact .inl (by rw [h]; rfl)
    · exact .inr (by rw [h]; rfl)
  have hout : Ram.load s.sendResponse.dataBuff s.sendResponse.udp.txBuffer (frame r).length =
      frame r := by
    rw [hsend]
    exact Ram.load_store
  have hsent : s.sendResponse.sent = s.sent := by rw [hsend]
  have hnvm : s.sendResponse.nvm = s.nvm := by rw [hsend]
  have hconn : s.sendResponse.udp.connected = true := by rw [hsend]; exact hrest.connected
  have htasks : s.bootloaderUdpTasks env = some (s.sendResponse.transmit env).receive := by
    unfold bootloaderUdpTasks switch
    rw [hstate]
    dsimp only
    rw [Option.map_some, datastreamTasks_connected hconn]
  refine ⟨_, htasks, ?_⟩
  rcases sends (by rw [hsend]) hconn (by rw [hsend]) (by rw [hsend]; exact hwaits) hprev'
    (by rw [hsend]; exact hrx) hanswer hr htx hout env with ⟨hready, hstays, hstage⟩ | hanswers
  · rw [hstays]
    exact .inl ⟨1, hstage, le_rfl, fun _ _ h => absurd h hready, fun _ => hconn, hsent, hnvm,
      fun h => absurd h (by decide)⟩
  · exact .inr ⟨c, r, rfl, hanswers.stage, hanswer, hanswers.connected, hanswers.sent.trans (by rw [hsent]),
      hanswers.nvm.trans hnvm⟩

end Command

/-- **A call, wherever the loader is.** -/
theorem Stage.goes (h : s.Stage c n) (hfits : ∀ c' ∈ c, c'.Fits) (env : Pass) : s.Goes c n env := by
  cases h with
  | opening hstate hconn hdir hwaits hrx => exact goes_opening hstate hconn hdir hwaits hrx env
  | sent hstate hrest hwaits hprev hrx => exact goes_sent hstate hrest hwaits hprev hrx env
  | entering hstate hrest hwaits hrx => exact goes_entering hstate hrest hwaits hrx env
  | getting hstate hrest hwaits hrx => exact goes_getting hstate hrest hwaits hrx hfits env
  | listening h hrx => exact goes_listening h hrx hfits env
  | complete hstate hrest hwaits hprev hrx h => exact goes_complete hstate hrest hwaits hprev hrx h env
  | processing hstate hrest hwaits hprev hrx h =>
    exact goes_processing hstate hrest hwaits hprev hrx (hfits _ rfl) h env
  | responding r hstate hrest hwaits hprev hrx hanswer hne hlen hsize hload =>
    exact goes_responding hstate hrest hwaits hprev hrx hanswer hne hlen hsize hload env
  | sending r hstate hconn hdir hwaits hprev hrx hanswer hr hlen hload =>
    exact goes_sending hstate hconn hdir hwaits hprev hrx hanswer hr hlen hload env

theorem Stage.asks (h : s.Stage none n) (c : Command) :
    Stage { s with rx := s.rx ++ [frame c.payload] } (some c) n := by
  have hqueue : ∀ rx, rx = queue none → rx ++ [frame c.payload] = queue (some c) := by
    rintro rx rfl
    rfl
  cases h with
  | opening hstate hconn hdir hwaits hrx => exact .opening hstate hconn hdir hwaits (hqueue _ hrx)
  | sent hstate hrest hwaits hprev hrx => exact .sent hstate hrest hwaits hprev (hqueue _ hrx)
  | entering hstate hrest hwaits hrx => exact .entering hstate hrest hwaits (hqueue _ hrx)
  | getting hstate hrest hwaits hrx => exact .getting hstate hrest hwaits (hqueue _ hrx)
  | listening h hrx => exact .listening (h.congr rfl rfl rfl rfl rfl) (hqueue _ hrx)

theorem Stage.bounds (h : s.Stage c n) : n ≤ 6 ∧ 1 ≤ n ∧ (c = none → 2 ≤ n) := by
  cases h <;> simp

end Loader

/-! ## Runs -/

namespace Exchange

/-- What has been answered, and what has not. -/
structure Inv (x : Exchange) (cs : List Command) (rs : List Bytes) (c : Option Command) (n : Nat) :
    Prop where
  asked : x.asked = cs ++ c.toList
  fits : ∀ c ∈ x.asked, c.Fits
  sent : x.loader.sent = rs.map frame
  answers : List.Forall₂ Command.Answer cs rs
  stage : x.loader.Stage c n
  due : x.loader.due c n = effects x.asked
  nvm : 2 ≤ n → x.loader.nvm = effects cs

variable {x y : Exchange} {cs : List Command} {rs : List Bytes} {c : Option Command} {n : Nat}

theorem inv_init : Inv {} [] [] none 6 where
  asked := rfl
  fits := fun _ h => absurd h List.not_mem_nil
  sent := rfl
  answers := .nil
  stage := .opening rfl rfl rfl rfl rfl
  due := rfl
  nvm := fun _ => rfl

/-- The host waits for nothing when as many answers have come as it has asked. -/
theorem Inv.none_of_length (h : x.Inv cs rs c n) (hlen : x.loader.sent.length = x.asked.length) :
    c = none := by
  rw [h.sent, h.asked, List.length_map, List.length_append, h.answers.length_eq] at hlen
  cases c with
  | none => rfl
  | some c =>
    rw [Option.toList_some, List.length_singleton] at hlen
    omega

theorem Inv.length_eq (h : x.Inv cs rs none n) : x.loader.sent.length = x.asked.length := by
  rw [h.sent, h.asked, List.length_map, List.length_append, h.answers.length_eq]
  rfl

theorem Inv.asks {c' : Command} (h : x.Inv cs rs c n) (hstep : step x (.asks c') = some y) :
    y.Inv cs rs (some c') n := by
  unfold step at hstep
  dsimp only at hstep
  split at hstep
  · rename_i hask
    obtain rfl := Option.some.inj hstep
    obtain rfl := h.none_of_length hask.2
    have hn := h.stage.bounds.2.2 rfl
    have hasked : x.asked = cs := h.asked.trans (List.append_nil _)
    refine ⟨by rw [hasked]; rfl, fun c hc => ?_, h.sent, h.answers, h.stage.asks c', ?_, h.nvm⟩
    · rcases List.mem_append.mp hc with hc | hc
      · exact h.fits c hc
      · rw [List.mem_singleton.mp hc]
        exact hask.1
    · unfold Loader.due effects
      rw [if_pos hn, List.foldl_append, hasked, ← effects, ← h.nvm hn]
      rfl
  · cases hstep

/-- **A call of the tasks returns**, and brings the command on or answers it. -/
theorem Inv.pass (h : x.Inv cs rs c n) (env : Pass) : ∃ y, step x (.pass env) = some y ∧
    y.asked = x.asked ∧ (x.loader.udp.connected = true → y.loader.udp.connected = true) ∧
    ((∃ n' ≤ n, y.Inv cs rs c n' ∧
        (x.loader.udp.connected = true → c.isSome → Loader.Ready env → n' < n)) ∨
      ∃ c' r, c = some c' ∧ y.Inv (cs ++ [c']) (rs ++ [r]) none 6) := by
  have hfits : ∀ c' ∈ c, c'.Fits := fun c' hc' => h.fits c' (by
    rw [h.asked]
    exact List.mem_append_right _ (Option.mem_toList.mpr hc'))
  obtain ⟨t, ht, hgoes⟩ := h.stage.goes hfits env
  refine ⟨⟨t, x.asked⟩, ?_, rfl, ?_⟩
  · unfold step
    dsimp only
    rw [ht, Option.map_some]
  · rcases hgoes with ⟨n', ha⟩ | ⟨c', r, rfl, ha⟩
    · refine ⟨ha.connected, .inl ⟨n', ha.le, ⟨h.asked, h.fits, ha.sent.trans h.sent, h.answers, ha.stage,
        ha.due.trans h.due, fun hn => ?_⟩, ha.lt⟩⟩
      rw [ha.nvm hn]
      exact h.nvm (hn.trans ha.le)
    · refine ⟨fun _ => ha.connected, .inr ⟨c', r, rfl, ?_, h.fits, ?_, ?_, ha.stage, ?_, fun _ => ?_⟩⟩
      · rw [Option.toList_none, List.append_nil]
        exact h.asked
      · rw [ha.sent, h.sent, List.map_append]
        rfl
      · exact List.rel_append h.answers (.cons ha.answer .nil)
      · exact ha.nvm.trans h.due
      · exact (ha.nvm.trans h.due).trans (congrArg effects h.asked)

theorem Inv.step {e : Event} (h : x.Inv cs rs c n) (hstep : Exchange.step x e = some y) :
    ∃ cs rs c n, y.Inv cs rs c n := by
  cases e with
  | asks c' => exact ⟨cs, rs, some c', n, h.asks hstep⟩
  | pass env =>
    obtain ⟨y', hy, -, -, hgoes⟩ := h.pass env
    obtain rfl := Option.some.inj (hy.symm.trans hstep)
    rcases hgoes with ⟨n', -, hinv, -⟩ | ⟨c', r, -, hinv⟩
    · exact ⟨cs, rs, c, n', hinv⟩
    · exact ⟨_, _, none, 6, hinv⟩

theorem inv_of_run {es : List Event} (hrun : Lib.run Exchange.step {} es = some x) :
    ∃ cs rs c n, x.Inv cs rs c n :=
  Lib.inv_of_run (I := fun x => ∃ cs rs c n, Inv x cs rs c n) (C := fun _ _ => True)
    (fun _ _ _ ⟨_, _, _, _, h⟩ _ hstep => h.step hstep) ⟨_, _, _, _, inv_init⟩ Lib.along_true hrun

/-- A command waits for no more calls than `n` that find the socket ready. -/
theorem Inv.answered (h : x.Inv cs rs c n) (hconn : x.loader.udp.connected = true) {envs : List Pass}
    (hn : n ≤ envs.countP fun env => Loader.Ready env) :
    ∃ front back y, envs = front ++ back ∧
      Lib.run Exchange.step x (front.map .pass) = some y ∧ y.asked = x.asked ∧
      y.loader.sent.length = y.asked.length := by
  induction envs generalizing x n with
  | nil =>
    have := h.stage.bounds
    rw [List.countP_nil] at hn
    omega
  | cons env envs ih =>
    cases c with
    | none => exact ⟨[], _, x, rfl, rfl, rfl, h.length_eq⟩
    | some c =>
      obtain ⟨y, hy, hasked, hconn', hgoes⟩ := h.pass env
      rcases hgoes with ⟨n', hle, hinv, hlt⟩ | ⟨c', r, -, hinv⟩
      · have hn' : n' ≤ envs.countP fun env => Loader.Ready env := by
          rw [List.countP_cons] at hn
          by_cases hready : Loader.Ready env
          · have := hlt hconn rfl hready
            rw [decide_eq_true hready, if_pos rfl] at hn
            omega
          · rw [decide_eq_false hready, if_neg Bool.false_ne_true] at hn
            omega
        obtain ⟨front, back, z, rfl, hrun, hz, hlen⟩ := ih hinv (hconn' hconn) hn'
        refine ⟨env :: front, back, z, rfl, ?_, hz.trans hasked, hlen⟩
        rw [List.map_cons, Lib.run, hy, Option.bind_some, hrun]
      · refine ⟨[env], envs, y, rfl, ?_, hasked, hinv.length_eq⟩
        rw [List.map_singleton, Lib.run, hy]
        rfl

/-- A call that finds the network up, at `10.0.0.2`, and the socket ready. -/
def readyPass : Pass where
  stackReady := true
  netAddress := [0x0200000a]
  serverOpens := true
  isConnected := true
  putIsReady := 512
  memory := fun _ => 0xFF

/-- The loader has opened its socket, and a host asks for its version. -/
def bootInfoAsked : Exchange where
  loader :=
    { currentState := .getCommand
      udp := { connected := true, dwLastIP := Function.update (fun _ => 0xFFFFFFFF) 0 0x0200000a }
      rx := [frame [1]] }
  asked := [.readBootInfo]

end Exchange

end Rastreo.Boot
