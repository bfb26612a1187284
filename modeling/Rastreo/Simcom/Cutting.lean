import Rastreo.Simcom.Session
import Mathlib

/-!
# How the modem's bytes are cut into reads

Each read completion is compared as a whole with the responses the task knows: there is no line
buffer. `Acted` are the texts some state acts on; a completion with any other text is `Inert`.

* `news`: what a state still has to react to, and `core`: all but the receive side.
* `Tidy`: between calls a read is in flight only into a cleared buffer.
* `recut`: two schedules that differ only in inert completions give the same run, so where the
  recognised responses arrive as completions of their own the cutting does not matter.
* `not_recut`: a line and its final `OK` in one completion are not recognised.
-/

namespace Rastreo.Simcom

open Rastreo.Lib

/-! ## Schedules -/

/-- A call with the completion delivered just before it, if any; the timer; a write completion. -/
inductive Slot
  | poll (chunk : Option Bytes) (io : Io)
  | tick
  | atWriteComplete

/-- The events of a slot, in order. -/
def Slot.events : Slot → List Event
  | .poll none io => [.task io]
  | .poll (some chunk) io => [.atReadComplete chunk, .task io]
  | .tick => [.tick]
  | .atWriteComplete => [.atWriteComplete]

/-- One slot of a schedule. -/
def slotStep (s : Sys) (x : Slot) : Option Sys := run step s x.events

/-- The bytes a schedule delivers. -/
def stream (xs : List Slot) : Bytes :=
  xs.flatMap fun x => match x with
    | .poll (some chunk) _ => chunk
    | _ => []

/-- Some state acts on the text. -/
def Acted (text : Bytes) : Prop :=
  atCommandParse text = true ∧
    (text = okText ∨ text = errorText ∨ text = atReadyText ∨ text = downloadText ∨
      text = httpReadText ∨ text.take 16 = httpActionText ∨ text.take 11 = cgpaddrText)

instance (text : Bytes) : Decidable (Acted text) := by unfold Acted; infer_instance

/-- No completion, or one no state acts on. -/
def Inert (chunk : Option Bytes) : Prop := ∀ c ∈ chunk, ¬ Acted (cstr c)

/-- The same event but for inert completions. -/
inductive SameSlot : Slot → Slot → Prop
  | poll (chunk : Option Bytes) (io : Io) : SameSlot (.poll chunk io) (.poll chunk io)
  | inert {c d : Option Bytes} (io : Io) (hc : Inert c) (hd : Inert d) :
      SameSlot (.poll c io) (.poll d io)
  | tick : SameSlot .tick .tick
  | atWriteComplete : SameSlot .atWriteComplete .atWriteComplete

/-- The same event whatever is delivered. -/
inductive SameCall : Slot → Slot → Prop
  | poll (c d : Option Bytes) (io : Io) : SameCall (.poll c io) (.poll d io)
  | tick : SameCall .tick .tick
  | atWriteComplete : SameCall .atWriteComplete .atWriteComplete

/-! ## What the receive side holds -/

/-- All but the receive side. -/
def Sys.core (s : Sys) : Sys :=
  { s with
    flags := { s.flags with ATread := true }
    reads := 0
    buffRecv := .clear
    pendingATCommandParse := false }

/-- The pending text, when some state acts on it. -/
def Sys.news (s : Sys) : Option Bytes :=
  if s.pendingATCommandParse = true ∧ Acted s.buffRecv.text then some s.buffRecv.text else none

/-- The receive side between calls. -/
structure Tidy (s : Sys) : Prop where
  one : s.flags.ATread = true → s.reads = 0
  le : s.reads ≤ 1
  parsed : s.reads ≠ 0 → s.pendingATCommandParse = false
  clear : s.pendingATCommandParse = false → s.buffRecv = .clear

/-- Two states that have the same still to do. -/
def Alike (a b : Sys) : Prop := a.core = b.core ∧ a.news = b.news

section Alike

variable {a b s : Sys} {io : Io}

/-- States with one core differ by their receive sides. -/
theorem core_eq_iff : a.core = b.core ↔ ∃ (f : Bool) (n : Nat) (buff : Buf 512) (p : Bool),
    b = { a with
      flags := { a.flags with ATread := f }
      reads := n
      buffRecv := buff
      pendingATCommandParse := p } := by
  constructor
  · intro h
    refine ⟨b.flags.ATread, b.reads, b.buffRecv, b.pendingATCommandParse, ?_⟩
    obtain ⟨⟨⟩, _, _, _, _, _, _, _, _, _, _, _, _⟩ := a
    obtain ⟨⟨⟩, _, _, _, _, _, _, _, _, _, _, _, _⟩ := b
    simp only [Sys.core, Sys.mk.injEq, TransferFlags.mk.injEq] at h ⊢
    simp_all
  · rintro ⟨f, n, buff, p, rfl⟩
    rfl

theorem acted_iff (b : Bytes) : Acted (cstr b) ↔ atCommandParse b = true ∧
    (strcmp b okText = 0 ∨ strcmp b errorText = 0 ∨ strcmp b atReadyText = 0 ∨
      strcmp b downloadText = 0 ∨ strcmp b httpReadText = 0 ∨ strncmp 16 b httpActionText = 0 ∨
      strncmp 11 b cgpaddrText = 0) := by
  have hcstr : ∀ t ∈ [okText, errorText, atReadyText, downloadText, httpReadText], cstr t = t := by
    decide
  have htake : cstr httpActionText = httpActionText.take 16 ∧
      httpActionText.take 16 = httpActionText ∧ cstr cgpaddrText = cgpaddrText.take 11 ∧
      cgpaddrText.take 11 = cgpaddrText := by decide
  simp only [List.forall_mem_cons] at hcstr
  obtain ⟨h1, h2, h3, h4, h5, -⟩ := hcstr
  unfold Acted
  rw [atCommandParse_cstr]
  simp only [strcmp_eq_zero_iff, strncmp_eq_zero_iff, h1, h2, h3, h4, h5, htake]

/-- An inert text is parsed to no effect. -/
theorem replyTo_inert {r : Reply} (hr : r ≠ .gps) (hp : atCommandParse s.buffRecv.bytes = true)
    (h : ¬ Acted s.buffRecv.text) : replyTo io s r = s := by
  rw [Buf.text, acted_iff] at h
  simp only [hp, true_and, not_or] at h
  cases r <;> simp_all [replyTo]

/-! ## One block -/

/-- A reply depends on the text and the core only. -/
theorem replyTo_congr {r : Reply} (h : a.core = b.core) (ht : a.buffRecv.text = b.buffRecv.text) :
    (replyTo io a r).core = (replyTo io b r).core := by
  obtain ⟨f, n, buff, p, rfl⟩ := core_eq_iff.mp h
  replace ht : cstr a.buffRecv.bytes = cstr buff.bytes := ht
  have hcmp : ∀ t, strcmp a.buffRecv.bytes t = 0 ↔ strcmp buff.bytes t = 0 := fun t => by
    rw [← strcmp_cstr, ht, strcmp_cstr]
  have hncmp : ∀ k t, strncmp k a.buffRecv.bytes t = 0 ↔ strncmp k buff.bytes t = 0 := fun k t => by
    rw [← strncmp_cstr, ht, strncmp_cstr]
  cases r with
  | gps =>
    simp only [replyTo, Buf.text, ht]
    split
    · rfl
    · split <;> rfl
  | pdpAddress =>
    have haddr : pdpAddress a.buffRecv = pdpAddress buff := by
      unfold pdpAddress
      rw [show a.buffRecv.text = buff.text from ht]
    simp only [replyTo, hcmp, hncmp, haddr]
    split
    · rfl
    · split
      · split <;> rfl
      · split <;> rfl
  | postData =>
    simp only [replyTo, hcmp]
    split
    · have hsend : ({ a with
          flags := { a.flags with ATread := f }
          reads := n
          buffRecv := buff
          pendingATCommandParse := p
          trace := .prompt :: a.trace } : Sys).sendsPayload io =
          ({ a with trace := .prompt :: a.trace } : Sys).sendsPayload io := rfl
      rw [hsend]
      split <;> rfl
    · split
      · rfl
      · split <;> rfl
  | atReady =>
    simp only [replyTo, hcmp]
    split <;> rfl
  | result next err | postResponse | readResponse | stopService =>
    simp only [replyTo, hcmp, hncmp]
    split
    · rfl
    · split <;> rfl

/-- Parsing the same text, whatever it is. -/
theorem parse_congr {r : Reply} (h : a.core = b.core) (ha : a.pendingATCommandParse = true)
    (hb : b.pendingATCommandParse = true) (ht : a.buffRecv.text = b.buffRecv.text) :
    Alike (execBlock io a (.parse r)) (execBlock io b (.parse r)) := by
  have hp : atCommandParse a.buffRecv.bytes = atCommandParse b.buffRecv.bytes := by
    rw [← atCommandParse_cstr, ← atCommandParse_cstr b.buffRecv.bytes]
    exact congrArg _ ht
  have hend : ∀ s : Sys, s.endParse.news = none := fun s => rfl
  have hcore : ∀ s : Sys, s.endParse.core = s.core := fun s => rfl
  simp only [execBlock, if_pos ha, if_pos hb, hp]
  refine ⟨?_, by rw [hend, hend]⟩
  rw [hcore, hcore]
  split
  · exact replyTo_congr h ht
  · exact h

/-- Parsing without news leaves the core alone. -/
theorem parse_of_news_none {r : Reply} (hr : r ≠ .gps) (h : s.news = none) :
    (execBlock io s (.parse r)).core = s.core ∧ (execBlock io s (.parse r)).news = none := by
  simp only [execBlock]
  split
  · rename_i hp
    have hact : ¬ Acted s.buffRecv.text := fun ha => by simp [Sys.news, hp, ha] at h
    split
    · rename_i ha
      rw [replyTo_inert hr ha hact]
      exact ⟨rfl, rfl⟩
    · exact ⟨rfl, rfl⟩
  · exact ⟨rfl, h⟩

theorem news_eq_some {t : Bytes} (h : s.news = some t) :
    s.pendingATCommandParse = true ∧ s.buffRecv.text = t := by
  unfold Sys.news at h
  split at h
  · rename_i hp
    exact ⟨hp.1, Option.some.inj h⟩
  · cases h

theorem Alike.parse {r : Reply} (hr : r ≠ .gps) (h : Alike a b) :
    Alike (execBlock io a (.parse r)) (execBlock io b (.parse r)) := by
  cases hn : a.news with
  | none =>
    obtain ⟨h₁, h₂⟩ := @parse_of_news_none a io r hr hn
    obtain ⟨h₃, h₄⟩ := @parse_of_news_none b io r hr (h.2 ▸ hn)
    exact ⟨by rw [h₁, h₃, h.1], by rw [h₂, h₄]⟩
  | some t =>
    obtain ⟨ha, hta⟩ := news_eq_some hn
    obtain ⟨hb, htb⟩ := news_eq_some (h.2 ▸ hn)
    exact parse_congr h.1 ha hb (hta.trans htb.symm)

/-- The read block touches the receive side only. -/
theorem core_readResponse : (s.readResponse io).core = s.core ∧ (s.readResponse io).news = s.news := by
  unfold Sys.readResponse
  split <;> exact ⟨rfl, rfl⟩

theorem Alike.readResponse (h : Alike a b) : Alike (a.readResponse io) (b.readResponse io) :=
  ⟨by rw [core_readResponse.1, core_readResponse.1, h.1],
   by rw [core_readResponse.2, core_readResponse.2, h.2]⟩

theorem news_writeCommand {t : Transfer} : (s.writeCommand io t).news = s.news := by
  unfold Sys.writeCommand
  split <;> rfl

theorem Alike.writeCommand (h : Alike a b) {t : Transfer} :
    Alike (a.writeCommand io t) (b.writeCommand io t) := by
  refine ⟨?_, by rw [news_writeCommand, news_writeCommand, h.2]⟩
  obtain ⟨f, n, buff, p, rfl⟩ := core_eq_iff.mp h.1
  unfold Sys.writeCommand
  have hsend : ({ a with
      flags := { a.flags with ATread := f }
      reads := n
      buffRecv := buff
      pendingATCommandParse := p } : Sys).sendsCommand io = a.sendsCommand io := rfl
  rw [hsend]
  split <;> rfl

theorem Alike.timer (h : Alike a b) {next : State} :
    Alike (execBlock io a (.timer next)) (execBlock io b (.timer next)) := by
  obtain ⟨f, n, buff, p, rfl⟩ := core_eq_iff.mp h.1
  simp only [execBlock]
  split
  · exact ⟨rfl, h.2⟩
  · exact h

theorem news_clear {s : Sys} (h : s.buffRecv = .clear) : s.news = none := by
  have hn : ¬ Acted (Buf.clear : Buf 512).text := by
    rw [Buf.text_clear]
    decide
  unfold Sys.news
  rw [h, if_neg fun hp => hn hp.2]

theorem Alike.driver (h : Alike a b) : Alike (execBlock io a .driver) (execBlock io b .driver) := by
  obtain ⟨f, n, buff, p, rfl⟩ := core_eq_iff.mp h.1
  simp only [execBlock]
  split
  · exact ⟨rfl, (news_clear rfl).trans (news_clear rfl).symm⟩
  · exact h

/-- The made-up sentence overwrites what was pending. -/
theorem Alike.request (h : Alike a b) :
    Alike (execBlock io (a.makeSentence io) (.parse .gps))
      (execBlock io (b.makeSentence io) (.parse .gps)) := by
  obtain ⟨buff, ht, ha⟩ := makeSentence_eq a io
  obtain ⟨buff', ht', hb⟩ := makeSentence_eq b io
  obtain ⟨f, n, old, p, rfl⟩ := core_eq_iff.mp h.1
  rw [ha, hb]
  exact parse_congr rfl rfl rfl (ht.trans ht'.symm)

/-! ## One call -/

/-- **A call on alike states.** -/
theorem Alike.simcomTasks (h : Alike a b) : Alike (simcomTasks io a) (simcomTasks io b) := by
  have hst : b.state = a.state := by
    obtain ⟨f, n, buff, p, rfl⟩ := core_eq_iff.mp h.1
    rfl
  cases hsc : script a.state with
  | waiting =>
    rw [Simcom.simcomTasks, Simcom.simcomTasks, hst, hsc]
    exact h.driver
  | listen =>
    rw [simcomTasks_listen hsc, simcomTasks_listen (hst ▸ hsc)]
    exact (Alike.parse (r := .atReady) (by rintro ⟨⟩) h.readResponse).timer
  | command cmd r =>
    rw [simcomTasks_command hsc, simcomTasks_command (hst ▸ hsc)]
    exact h.writeCommand.readResponse.parse (script_command hsc).1
  | request =>
    rw [simcomTasks_request hsc, simcomTasks_request (hst ▸ hsc)]
    exact h.request
  | post =>
    have hcmd : postCmd b = postCmd a := by
      obtain ⟨f, n, buff, p, rfl⟩ := core_eq_iff.mp h.1
      rfl
    rw [simcomTasks_post hsc, simcomTasks_post (hst ▸ hsc), hcmd]
    exact h.writeCommand.readResponse.parse (by rintro ⟨⟩)
  | response =>
    rw [simcomTasks_response hsc, simcomTasks_response (hst ▸ hsc)]
    exact h.readResponse.parse (by rintro ⟨⟩)
  | ready =>
    rw [Simcom.simcomTasks, Simcom.simcomTasks, hst, hsc]
    exact @Alike.timer a b io h _
  | none =>
    rw [Simcom.simcomTasks, Simcom.simcomTasks, hst, hsc]
    exact h

/-! ## Between calls -/

/-- A parse ends with nothing pending and the buffer cleared. -/
theorem parse_quiet {r : Reply} (h : s.pendingATCommandParse = false → s.buffRecv = .clear) :
    (execBlock io s (.parse r)).pendingATCommandParse = false ∧
      (execBlock io s (.parse r)).buffRecv = .clear := by
  simp only [execBlock]
  split
  · exact ⟨rfl, rfl⟩
  · rename_i hp
    rw [Bool.not_eq_true] at hp
    exact ⟨hp, h hp⟩

/-- A parse starts no read. -/
theorem parse_reads {r : Reply} : (execBlock io s (.parse r)).reads = s.reads ∧
    (execBlock io s (.parse r)).flags.ATread = s.flags.ATread := by
  by_cases hr : r = .gps
  · subst hr
    simp only [execBlock]
    split
    · split
      · rcases replyTo_gps io s with heq | ⟨g, body, heq⟩ <;> rw [heq] <;> exact ⟨rfl, rfl⟩
      · exact ⟨rfl, rfl⟩
    · exact ⟨rfl, rfl⟩
  · rcases parse_cases io s hr with ⟨q, timer, -, heq⟩ | ⟨-, -, -, heq⟩ |
      ⟨-, -, timer, ip, f, p, b, heq⟩ <;> rw [heq]
    · exact ⟨rfl, rfl⟩
    · simp only
      split <;> exact ⟨rfl, rfl⟩
    · exact ⟨rfl, rfl⟩

/-- What `Tidy` says of the transfer alone. -/
def OneRead (s : Sys) : Prop := (s.flags.ATread = true → s.reads = 0) ∧ s.reads ≤ 1

theorem OneRead.readResponse (h : OneRead s) : OneRead (s.readResponse io) := by
  unfold Sys.readResponse
  split
  · rename_i hr
    simp only [Sys.startsRead, Bool.and_eq_true] at hr
    have h0 := h.1 hr.1
    refine ⟨(by rintro ⟨⟩), ?_⟩
    show s.reads + 1 ≤ 1
    omega
  · exact h

/-- A parse after which nothing is in the buffer. -/
theorem tidy_parse {r : Reply} (h : OneRead s)
    (hc : s.pendingATCommandParse = false → s.buffRecv = .clear) :
    Tidy (execBlock io s (.parse r)) := by
  obtain ⟨hp, hb⟩ := @parse_quiet s io r hc
  obtain ⟨hr, hf⟩ := @parse_reads s io r
  exact ⟨by rw [hr, hf]; exact h.1, by rw [hr]; exact h.2, fun _ => hp, fun _ => hb⟩

theorem clear_readResponse (h : s.pendingATCommandParse = false → s.buffRecv = .clear) :
    (s.readResponse io).pendingATCommandParse = false → (s.readResponse io).buffRecv = .clear := by
  unfold Sys.readResponse
  split <;> exact h

theorem Tidy.oneRead (h : Tidy s) : OneRead s := ⟨h.one, h.le⟩

theorem Tidy.timer (h : Tidy s) {next : State} : Tidy (execBlock io s (.timer next)) := by
  simp only [execBlock]
  split
  · exact ⟨h.one, h.le, h.parsed, h.clear⟩
  · exact h

/-- **A call leaves the receive side tidy.** -/
theorem Tidy.simcomTasks (h : Tidy s) : Tidy (simcomTasks io s) := by
  have hread : ∀ r, Tidy (execBlock io (s.readResponse io) (.parse r)) := fun r =>
    tidy_parse h.oneRead.readResponse (clear_readResponse h.clear)
  have hwrite : ∀ t r, Tidy (execBlock io ((s.writeCommand io t).readResponse io) (.parse r)) := by
    intro t r
    have hw : OneRead (s.writeCommand io t) ∧
        ((s.writeCommand io t).pendingATCommandParse = false →
          (s.writeCommand io t).buffRecv = .clear) := by
      unfold Sys.writeCommand
      split <;> exact ⟨h.oneRead, h.clear⟩
    exact tidy_parse hw.1.readResponse (clear_readResponse hw.2)
  cases hsc : script s.state with
  | waiting =>
    rw [Simcom.simcomTasks, hsc]
    simp only [Script.blocks, List.foldl_cons, List.foldl_nil, execBlock]
    split
    · exact ⟨h.one, h.le, h.parsed, fun _ => rfl⟩
    · exact h
  | listen => rw [simcomTasks_listen hsc]; exact (hread _).timer
  | command cmd r => rw [simcomTasks_command hsc]; exact hwrite _ _
  | request =>
    rw [simcomTasks_request hsc]
    obtain ⟨buff, -, hm⟩ := makeSentence_eq s io
    rw [hm]
    exact tidy_parse ⟨h.one, h.le⟩ (by rintro ⟨⟩)
  | post => rw [simcomTasks_post hsc]; exact hwrite _ _
  | response => rw [simcomTasks_response hsc]; exact hread _
  | ready =>
    rw [Simcom.simcomTasks, hsc]
    exact @Tidy.timer s io h _
  | none =>
    rw [Simcom.simcomTasks, hsc]
    exact h

/-- A completion falls into a cleared buffer. -/
theorem Tidy.atReadComplete {s' : Sys} {chunk : Bytes} (h : Tidy s)
    (hs : step s (.atReadComplete chunk) = some s') :
    Tidy s' ∧ s'.core = s.core ∧ s.news = none ∧
      s'.news = if Acted (cstr chunk) then some (cstr chunk) else none := by
  simp only [step] at hs
  split at hs
  · cases hs
  · rename_i hr
    obtain ⟨buff, hbuff, rfl⟩ := Option.map_eq_some_iff.mp hs
    have hp := h.parsed hr
    rw [h.clear hp] at hbuff
    have htext := Buf.text_store_clear hbuff
    have hle := h.le
    refine ⟨⟨fun _ => ?_, ?_, fun h0 => absurd ?_ h0, by rintro ⟨⟩⟩, rfl, news_clear (h.clear hp), ?_⟩
    · show s.reads - 1 = 0
      omega
    · show s.reads - 1 ≤ 1
      omega
    · show s.reads - 1 = 0
      omega
    · simp only [Sys.news, simcomEventHandler, reduceCtorEq, if_false, true_and, htext]

end Alike

/-! ## Schedules that differ in inert completions -/

/-- **One slot.** -/
theorem alike_of_slot {a b a' b' : Sys} {x y : Slot} (h : Alike a b ∧ Tidy a ∧ Tidy b)
    (hxy : SameSlot x y) (ha : slotStep a x = some a') (hb : slotStep b y = some b') :
    Alike a' b' ∧ Tidy a' ∧ Tidy b' := by
  obtain ⟨hab, hta, htb⟩ := h
  have hpoll : ∀ {s s' : Sys} {c : Option Bytes} {io : Io}, Tidy s →
      slotStep s (.poll c io) = some s' → ∃ s₁, Tidy s₁ ∧ s₁.core = s.core ∧
        (Inert c → s₁.news = s.news) ∧ (∀ chunk, c = some chunk →
          s₁.news = if Acted (cstr chunk) then some (cstr chunk) else none) ∧
        (c = none → s₁.news = s.news) ∧ s' = simcomTasks io s₁ := by
    intro s s' c io ht hs
    cases c with
    | none =>
      obtain rfl : simcomTasks io s = s' := Option.some.inj hs
      exact ⟨s, ht, rfl, fun _ => rfl, (by rintro _ ⟨⟩), fun _ => rfl, rfl⟩
    | some chunk =>
      obtain ⟨s₁, hs₁, hs₂⟩ := run_cons.mp hs
      obtain rfl : simcomTasks io s₁ = s' := Option.some.inj hs₂
      obtain ⟨h₁, h₂, h₃, h₄⟩ := ht.atReadComplete hs₁
      refine ⟨s₁, h₁, h₂, fun hi => ?_, fun c' hc => ?_, (by rintro ⟨⟩), rfl⟩
      · rw [h₃, h₄, if_neg (hi chunk rfl)]
      · rw [← Option.some.inj hc, h₄]
  cases hxy with
  | poll c io =>
    obtain ⟨a₁, h₁, h₂, -, h₃, h₄, rfl⟩ := hpoll hta ha
    obtain ⟨b₁, k₁, k₂, -, k₃, k₄, rfl⟩ := hpoll htb hb
    have hnews : a₁.news = b₁.news := by
      cases c with
      | none => rw [h₄ rfl, k₄ rfl, hab.2]
      | some chunk => rw [h₃ chunk rfl, k₃ chunk rfl]
    exact ⟨Alike.simcomTasks ⟨by rw [h₂, k₂, hab.1], hnews⟩, h₁.simcomTasks, k₁.simcomTasks⟩
  | inert io hc hd =>
    obtain ⟨a₁, h₁, h₂, h₃, -, -, rfl⟩ := hpoll hta ha
    obtain ⟨b₁, k₁, k₂, k₃, -, -, rfl⟩ := hpoll htb hb
    exact ⟨Alike.simcomTasks ⟨by rw [h₂, k₂, hab.1], by rw [h₃ hc, k₃ hd, hab.2]⟩,
      h₁.simcomTasks, k₁.simcomTasks⟩
  | tick =>
    obtain rfl : resendATCommandCB a = a' := Option.some.inj ha
    obtain rfl : resendATCommandCB b = b' := Option.some.inj hb
    obtain ⟨f, n, buff, p, rfl⟩ := core_eq_iff.mp hab.1
    unfold resendATCommandCB
    split
    · exact ⟨⟨rfl, hab.2⟩, ⟨hta.one, hta.le, hta.parsed, hta.clear⟩,
        ⟨htb.one, htb.le, htb.parsed, htb.clear⟩⟩
    · exact ⟨hab, hta, htb⟩
  | atWriteComplete =>
    obtain ⟨f, n, buff, p, rfl⟩ := core_eq_iff.mp hab.1
    simp only [slotStep, Slot.events, run, step] at ha hb
    cases hw : a.writes with
    | nil => rw [hw] at ha; cases ha
    | cons t ts =>
      rw [hw] at ha hb
      obtain rfl := Option.some.inj ha
      obtain rfl := Option.some.inj hb
      exact ⟨⟨rfl, hab.2⟩, ⟨hta.one, hta.le, hta.parsed, hta.clear⟩,
        ⟨htb.one, htb.le, htb.parsed, htb.clear⟩⟩

theorem tidy_init : Tidy simcomInit := ⟨fun _ => rfl, by decide, fun h => (h rfl).elim, fun _ => rfl⟩

/-- **The cutting does not matter where the recognised responses arrive alone**: two schedules
that differ in inert completions enter the same states and write the same commands. -/
theorem recut {as bs : List Slot} {a b : Sys} (h : List.Forall₂ SameSlot as bs)
    (ha : run slotStep simcomInit as = some a) (hb : run slotStep simcomInit bs = some b) :
    a.state = b.state ∧ a.trace = b.trace := by
  have hstep : ∀ s t x y s' t', (Alike s t ∧ Tidy s ∧ Tidy t) → SameSlot x y →
      slotStep s x = some s' → slotStep t y = some t' → Alike s' t' ∧ Tidy s' ∧ Tidy t' :=
    fun _ _ _ _ _ _ hR hE hs ht => alike_of_slot hR hE hs ht
  have hR := rel_of_runs hstep ⟨⟨rfl, rfl⟩, tidy_init, tidy_init⟩ h ha hb
  obtain ⟨f, n, buff, p, rfl⟩ := core_eq_iff.mp hR.1.1
  exact ⟨rfl, rfl⟩

/-! ## A line, and its `OK` -/

theorem run_slots (s : Sys) (xs : List Slot) :
    run slotStep s xs = run step s (xs.flatMap Slot.events) := by
  induction xs generalizing s with
  | nil => rfl
  | cons x xs ih =>
    rw [List.flatMap_cons, run_append, run]
    exact Option.bind_congr fun s' _ => ih s'

/-- `startup` as slots. -/
def startupSlots : List Slot :=
  [.poll none io₀, .poll none io₀, .poll (some atReadyText) io₀] ++
    List.replicate 14999 .tick ++ [.poll none io₀]

theorem run_startupSlots : run slotStep simcomInit startupSlots = some started := by
  have hticks : ∀ n : Nat, (List.replicate n Slot.tick).flatMap Slot.events =
      List.replicate n Event.tick := by
    intro n
    induction n with
    | zero => rfl
    | succ n ih => rw [List.replicate_succ, List.flatMap_cons, ih]; rfl
  rw [run_slots, startupSlots, List.flatMap_append, List.flatMap_append, hticks]
  exact (startup_drives tolerant_true).1

/-- Up to the question for the PIN status, and its write. -/
def toPin : List Slot :=
  startupSlots ++
  [.poll none io₀, .atWriteComplete, .poll (some okText) io₀,
   .poll none io₀, .atWriteComplete, .poll (some okText) io₀,
   .poll none io₀, .atWriteComplete]

/-- The modem's answer. -/
def cpinText := ascii "\r\n+CPIN: READY\r\n"

/-- A further schedule from there, from where the run is concrete. -/
theorem run_toPin (xs : List Slot) : run slotStep simcomInit (toPin ++ xs) = run slotStep started
    ([.poll none io₀, .atWriteComplete, .poll (some okText) io₀,
      .poll none io₀, .atWriteComplete, .poll (some okText) io₀,
      .poll none io₀, .atWriteComplete] ++ xs) := by
  rw [toPin, List.append_assoc, run_append, run_startupSlots, Option.bind_some]

/-- The answer may come whole or in two, as long as its `OK` comes alone. -/
theorem recut_pin : ∃ a b,
    run slotStep simcomInit (toPin ++ [.poll (some cpinText) io₀, .poll none io₀,
      .poll (some okText) io₀]) = some a ∧
    run slotStep simcomInit (toPin ++ [.poll (some (cpinText.take 7)) io₀,
      .poll (some (cpinText.drop 7)) io₀, .poll (some okText) io₀]) = some b ∧
    a.state = b.state ∧ a.trace = b.trace := by
  obtain ⟨a, ha⟩ := Option.isSome_iff_exists.mp (by rw [run_toPin]; decide +kernel :
    (run slotStep simcomInit (toPin ++ [.poll (some cpinText) io₀, .poll none io₀,
      .poll (some okText) io₀])).isSome = true)
  obtain ⟨b, hb⟩ := Option.isSome_iff_exists.mp (by rw [run_toPin]; decide +kernel :
    (run slotStep simcomInit (toPin ++ [.poll (some (cpinText.take 7)) io₀,
      .poll (some (cpinText.drop 7)) io₀, .poll (some okText) io₀])).isSome = true)
  have hinert : ∀ c, ¬ Acted (cstr c) → Inert (some c) := fun c h d hd => by
    rw [← Option.some.inj hd]; exact h
  refine ⟨a, b, ha, hb, recut (List.rel_append (List.forall₂_same.mpr fun x _ => ?_) ?_) ha hb⟩
  · cases x with
    | poll c io => exact .poll c io
    | tick => exact .tick
    | atWriteComplete => exact .atWriteComplete
  · exact .cons (.inert _ (hinert _ (by decide)) (hinert _ (by decide)))
      (.cons (.inert _ (by rintro _ ⟨⟩) (hinert _ (by decide))) (.cons (.poll _ _) .nil))

/-- **Merging the line with its `OK` stops the machine**, with the same bytes at the same calls. -/
theorem not_recut : ∃ (as bs : List Slot) (a b : Sys), List.Forall₂ SameCall as bs ∧
    stream as = stream bs ∧ run slotStep simcomInit as = some a ∧
    run slotStep simcomInit bs = some b ∧
    a.state = .gettingSimPinStatus ∧ b.state = .gettingMobileNetworkStatus := by
  have ha : (run slotStep simcomInit (toPin ++ [.poll (some (cpinText ++ okText)) io₀,
      .poll none io₀])).map Sys.state = some .gettingSimPinStatus := by
    rw [run_toPin]
    decide +kernel
  have hb : (run slotStep simcomInit (toPin ++ [.poll (some cpinText) io₀,
      .poll (some okText) io₀])).map Sys.state = some .gettingMobileNetworkStatus := by
    rw [run_toPin]
    decide +kernel
  obtain ⟨a, hra, hsa⟩ := Option.map_eq_some_iff.mp ha
  obtain ⟨b, hrb, hsb⟩ := Option.map_eq_some_iff.mp hb
  refine ⟨_, _, a, b, List.rel_append (List.forall₂_same.mpr fun x _ => ?_)
    (.cons (.poll _ _ _) (.cons (.poll _ _ _) .nil)), ?_, hra, hrb, hsa, hsb⟩
  · cases x with
    | poll c io => exact .poll c c io
    | tick => exact .tick
    | atWriteComplete => exact .atWriteComplete
  · simp [stream]

end Rastreo.Simcom
