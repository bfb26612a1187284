import Rastreo.Simcom.Interleaved
import Rastreo.Simcom.Session

/-!
# The receive buffer

`buffRecv` is shared by the reads in flight and the parser. A response is safe when the buffer is
parsed, cleared or overwritten with no read in flight, and no read is started over a response that
is not parsed yet.

Every state starts its next read before it parses the last one, and the read-complete event sets
`flags.ATread` and `pendingATCommandParse` together; so a completion between two calls, or before
the `AT_Read` of one, is met by a new read. The window in which a completion does no harm lies
inside a call, after its `AT_Read` and before its test of `pendingATCommandParse`.

* `Pc.InWindow`, `CompletesInWindow`: that window, and read completions that fall in it.
* `RecvInv`, `recvInv_of_step`: the invariant that gives; no response is left unparsed outside the
  window and the branch that parses it.
* `recvSafe`: in such runs the buffer is safe at every statement.
* `not_recvSafe`: the modem's first message, delivered between two calls, is read over.
-/

namespace Rastreo.Simcom

open Rastreo.Lib

/-- **The buffer is safe at a step.** -/
def RecvSafe (m : Machine) : MicroEvent → Prop
  | .step io =>
    match m.pc with
    -- `CLEAR_BUFF(buffRecv)`
    | .run (.driver :: _) => io.driverReady = true → m.sys.reads = 0
    -- `AT_Read`
    | .run (.read :: _) => m.sys.startsRead io = true → m.sys.pendingATCommandParse = false
    -- `sprintf(buffRecv, …)`
    | .clearedPostData _ => m.sys.reads = 0
    -- `ATCommandParse(buffRecv, …)` and what follows it
    | .replying _ _ => m.sys.reads = 0
    -- `CLEAR_BUFF(buffRecv)`
    | .clearing _ => m.sys.reads = 0
    | _ => True
  | _ => True

/-- The window of a call: past its `AT_Read`, with `if (pendingATCommandParse)` still to come. -/
def Pc.InWindow : Pc → Prop
  | .issuedRead _ => True
  | .run (.parse _ :: _) => True
  | _ => False

/-- A read that completes does so in the window of a call. -/
def CompletesInWindow (m : Machine) : MicroEvent → Prop
  | .atReadComplete _ => m.pc.InWindow
  | _ => True

instance (m : Machine) (e : MicroEvent) : Decidable (RecvSafe m e) := by
  unfold RecvSafe
  split
  · split <;> infer_instance
  · infer_instance

instance (pc : Pc) : Decidable pc.InWindow := by
  unfold Pc.InWindow
  split <;> infer_instance

instance (m : Machine) (e : MicroEvent) : Decidable (CompletesInWindow m e) := by
  unfold CompletesInWindow
  split <;> infer_instance

/-! ## The invariant -/

/-- Inside `if (pendingATCommandParse)`. -/
def Pc.InBranch : Pc → Prop
  | .replying _ _ | .issuedPayload _ | .clearing _ | .resetting _ => True
  | _ => False

/-- Between the acceptance of a read and `flags.ATread = false`. -/
def Pc.IssuedRead : Pc → Prop
  | .issuedRead _ => True
  | _ => False

/-- **The invariant.** At most one read is in flight, and none while `flags.ATread` lets the next
one start, while a response is unparsed, or in a state that starts none; a response is unparsed
throughout the branch that parses it, and nowhere outside that branch and the window before it. -/
structure RecvInv (m : Machine) : Prop where
  le : m.sys.reads ≤ 1
  free : m.sys.flags.ATread = true → ¬ m.pc.IssuedRead → m.sys.reads = 0
  parsed : m.sys.pendingATCommandParse = true → m.sys.reads = 0
  quiet : script m.sys.state = .waiting ∨ script m.sys.state = .request → m.sys.reads = 0
  branch : m.pc.InBranch → m.sys.pendingATCommandParse = true
  window : m.sys.pendingATCommandParse = true → m.pc.InWindow ∨ m.pc.InBranch

section Invariant

variable {s s' : Sys} {pc pc' : Pc} {c c' : Buf 20} {m m' : Machine} {io : Io}

/-- What a reply leaves alone. -/
theorem replyTo_recv (s : Sys) (r : Reply) : (replyTo io s r).reads = s.reads ∧
    (replyTo io s r).flags.ATread = s.flags.ATread ∧
    (replyTo io s r).pendingATCommandParse = s.pendingATCommandParse := by
  by_cases hr : r = .gps
  · subst hr
    rcases replyTo_gps io s with heq | ⟨g, body, heq⟩ <;> rw [heq] <;> exact ⟨rfl, rfl, rfl⟩
  · rcases replyTo_cases io s hr with ⟨q, timer, -, heq⟩ | ⟨-, -, -, heq⟩ |
      ⟨-, -, timer, ip, f, heq⟩ <;> rw [heq]
    · exact ⟨rfl, rfl, rfl⟩
    · simp only
      split <;> exact ⟨rfl, rfl, rfl⟩
    · exact ⟨rfl, rfl, rfl⟩

/-- Outside the window and the branch no response is unparsed. -/
theorem RecvInv.not_pending (hI : RecvInv m) (hw : ¬ m.pc.InWindow) (hb : ¬ m.pc.InBranch) :
    m.sys.pendingATCommandParse = false := by
  by_contra hp
  rw [Bool.not_eq_false] at hp
  exact (hI.window hp).elim hw hb

theorem Pc.IssuedRead.inWindow (h : pc.IssuedRead) : pc.InWindow := by
  cases pc <;> first | exact trivial | cases h

/-- A statement outside both that touches neither the transfer nor the pending flag. -/
theorem RecvInv.of_outside (hI : RecvInv ⟨s, pc, c⟩) (hw : ¬ pc.InWindow) (hb : ¬ pc.InBranch)
    (hr : s'.reads = s.reads) (hf : s'.flags.ATread = s.flags.ATread)
    (hp : s'.pendingATCommandParse = s.pendingATCommandParse)
    (hq : script s'.state = .waiting ∨ script s'.state = .request → s.reads = 0)
    (hb' : ¬ pc'.InBranch) : RecvInv ⟨s', pc', c'⟩ := by
  have hnot : s'.pendingATCommandParse = false := hp.trans (hI.not_pending hw hb)
  exact {
    le := hr ▸ hI.le
    free := fun h _ => hr.trans (hI.free (hf ▸ h) fun hi => hw hi.inWindow)
    parsed := fun h => absurd h (by simp [hnot])
    quiet := fun h => hr.trans (hq h)
    branch := fun h => absurd h hb'
    window := fun h => absurd h (by simp [hnot]) }

/-- Nothing is in flight while a response is parsed. -/
theorem RecvInv.reads_of_branch (hI : RecvInv m) (h : m.pc.InBranch) : m.sys.reads = 0 :=
  hI.parsed (hI.branch h)

/-- A statement within the branch. -/
theorem RecvInv.of_branch (hI : RecvInv ⟨s, pc, c⟩) (h : pc.InBranch) (h' : pc'.InBranch)
    (hr : s'.reads = s.reads) (hp : s'.pendingATCommandParse = s.pendingATCommandParse) :
    RecvInv ⟨s', pc', c'⟩ := by
  have h0 : s'.reads = 0 := hr.trans (hI.reads_of_branch h)
  exact {
    le := by simp [h0]
    free := fun _ _ => h0
    parsed := fun _ => h0
    quiet := fun _ => h0
    branch := fun _ => hp.trans (hI.branch h)
    window := fun _ => .inr h' }

/-- The first statement of a block. -/
theorem recvInv_enterBlock {b : Block} {bs : List Block} (hfits : Pc.Fits s.state (.run (b :: bs)))
    (hI : RecvInv ⟨s, .run (b :: bs), c⟩) :
    RecvInv (enterBlock io ⟨s, .run (b :: bs), c⟩ bs b) := by
  cases b with
  | driver =>
    simp only [enterBlock, execBlock]
    split
    · refine hI.of_outside (by rintro ⟨⟩) (by rintro ⟨⟩) rfl rfl rfl (fun h => ?_) (by rintro ⟨⟩)
      rcases h with h | h <;> exact absurd h (by rintro ⟨⟩)
    · exact hI.of_outside (by rintro ⟨⟩) (by rintro ⟨⟩) rfl rfl rfl hI.quiet (by rintro ⟨⟩)
  | write cmd =>
    simp only [enterBlock]
    split <;> exact hI.of_outside (by rintro ⟨⟩) (by rintro ⟨⟩) rfl rfl rfl hI.quiet (by rintro ⟨⟩)
  | writePostCmd =>
    exact hI.of_outside (by rintro ⟨⟩) (by rintro ⟨⟩) rfl rfl rfl hI.quiet (by rintro ⟨⟩)
  | read =>
    simp only [enterBlock]
    split
    · rename_i hread
      simp only [Sys.startsRead, Bool.and_eq_true] at hread
      have h0 : s.reads = 0 := hI.free hread.1 (by rintro ⟨⟩)
      have hnot : s.pendingATCommandParse = false := hI.not_pending (by rintro ⟨⟩) (by rintro ⟨⟩)
      have hne : script s.state ≠ .waiting ∧ script s.state ≠ .request := by
        rcases hfits with h | h
        · cases follows_of_suffix h with
          | read r ts _ _ hw hr => exact ⟨hw, hr⟩
        · rcases h _ List.mem_cons_self with h | h <;> cases h
      refine ⟨?_, fun _ h => absurd trivial h, fun hp => ?_, fun h => ?_, (by rintro ⟨⟩),
        fun _ => .inl trivial⟩
      · show s.reads + 1 ≤ 1
        omega
      · exact absurd (hnot.symm.trans hp) (by decide)
      · rcases h with h | h
        · exact absurd h hne.1
        · exact absurd h hne.2
    · exact hI.of_outside (by rintro ⟨⟩) (by rintro ⟨⟩) rfl rfl rfl hI.quiet (by rintro ⟨⟩)
  | sentence => exact hI.of_outside (by rintro ⟨⟩) (by rintro ⟨⟩) rfl rfl rfl hI.quiet (by rintro ⟨⟩)
  | parse r =>
    have hfree : s.flags.ATread = true → s.reads = 0 := fun h => hI.free h (by rintro ⟨⟩)
    simp only [enterBlock]
    split
    · rename_i hp
      exact ⟨hI.le, fun h _ => hfree h, hI.parsed, hI.quiet, fun _ => hp, fun _ => .inr trivial⟩
    · rename_i hp
      exact ⟨hI.le, fun h _ => hfree h, hI.parsed, hI.quiet, (by rintro ⟨⟩), fun h => absurd h hp⟩
  | timer next =>
    have hnext : next = .disablingEco ∨ next = .httpsInit := by
      rcases hfits with h | h
      · cases follows_of_suffix h
        assumption
      · rcases h _ List.mem_cons_self with h | h <;> cases h
        · exact .inl rfl
        · exact .inr rfl
    simp only [enterBlock, execBlock]
    split
    · refine hI.of_outside (by rintro ⟨⟩) (by rintro ⟨⟩) rfl rfl rfl (fun h => ?_) (by rintro ⟨⟩)
      rcases hnext with rfl | rfl <;> rcases h with h | h <;> cases h
    · exact hI.of_outside (by rintro ⟨⟩) (by rintro ⟨⟩) rfl rfl rfl hI.quiet (by rintro ⟨⟩)

/-- One statement. -/
theorem recvInv_execStatement (hfits : pc.Fits s.state) (hI : RecvInv ⟨s, pc, c⟩) :
    RecvInv (execStatement io ⟨s, pc, c⟩) := by
  cases pc with
  | idle => exact hI.of_outside (by rintro ⟨⟩) (by rintro ⟨⟩) rfl rfl rfl hI.quiet (by rintro ⟨⟩)
  | run bs =>
    cases bs with
    | nil => exact hI.of_outside (by rintro ⟨⟩) (by rintro ⟨⟩) rfl rfl rfl hI.quiet (by rintro ⟨⟩)
    | cons b bs => exact recvInv_enterBlock hfits hI
  | issuedWrite bs => exact hI.of_outside (by rintro ⟨⟩) (by rintro ⟨⟩) rfl rfl rfl hI.quiet (by rintro ⟨⟩)
  | clearedPostCmd bs =>
    simp only [execStatement]
    split <;> exact hI.of_outside (by rintro ⟨⟩) (by rintro ⟨⟩) rfl rfl rfl hI.quiet (by rintro ⟨⟩)
  | formattedPostCmd bs =>
    simp only [execStatement]
    split <;> exact hI.of_outside (by rintro ⟨⟩) (by rintro ⟨⟩) rfl rfl rfl hI.quiet (by rintro ⟨⟩)
  | issuedRead bs =>
    -- the parse follows the read in every `case`
    obtain ⟨r, ts, rfl⟩ : ∃ r ts, bs = .parse r :: ts := by
      cases follows_of_suffix hfits with
      | read r ts => exact ⟨r, ts, rfl⟩
    exact ⟨hI.le, (by rintro ⟨⟩), hI.parsed, hI.quiet, (by rintro ⟨⟩), fun _ => .inl trivial⟩
  | clearedPostData bs =>
    simp only [execStatement]
    split <;> exact hI.of_outside (by rintro ⟨⟩) (by rintro ⟨⟩) rfl rfl rfl hI.quiet (by rintro ⟨⟩)
  | madeSentence bs =>
    -- the state that makes the sentence up starts no read
    cases follows_of_suffix hfits with
    | sentence hreq =>
      have h0 := hI.quiet (.inr hreq)
      exact ⟨hI.le, fun _ _ => h0, fun _ => h0, fun _ => h0, (by rintro ⟨⟩), fun _ => .inl trivial⟩
  | replying r bs =>
    simp only [execStatement]
    split
    · split
      · exact hI.of_branch trivial trivial rfl rfl
      · obtain ⟨hreads, -, hpending⟩ := @replyTo_recv io s r
        exact hI.of_branch trivial trivial hreads hpending
    · exact hI.of_branch trivial trivial rfl rfl
  | issuedPayload bs => exact hI.of_branch trivial trivial rfl rfl
  | clearing bs => exact hI.of_branch trivial trivial rfl rfl
  | resetting bs =>
    have h0 := hI.reads_of_branch trivial
    exact ⟨hI.le, fun _ _ => h0, (by rintro ⟨⟩), fun _ => h0, (by rintro ⟨⟩), by rintro ⟨⟩⟩

/-- **Step lemma.** -/
theorem recvInv_of_step {e : MicroEvent} (hI : m.pc.Fits m.sys.state ∧ RecvInv m)
    (hC : CompletesInWindow m e) (hs : microStep m e = some m') :
    m'.pc.Fits m'.sys.state ∧ RecvInv m' := by
  refine ⟨fits_of_step hI.1 hs, ?_⟩
  obtain ⟨s, pc, c⟩ := m
  obtain ⟨hfits, hI⟩ := hI
  cases e with
  | step io =>
    obtain rfl := Option.some.inj hs
    exact recvInv_execStatement hfits hI
  | tick =>
    obtain rfl := Option.some.inj hs
    have hsame : ∀ s : Sys, (resendATCommandCB s).reads = s.reads ∧
        (resendATCommandCB s).flags = s.flags ∧
        (resendATCommandCB s).pendingATCommandParse = s.pendingATCommandParse ∧
        (resendATCommandCB s).state = s.state := fun s => by
      unfold resendATCommandCB
      split <;> exact ⟨rfl, rfl, rfl, rfl⟩
    obtain ⟨h1, h2, h3, h4⟩ := hsame s
    refine ⟨h1 ▸ hI.le, fun h hi => h1.trans (hI.free (h2 ▸ h) hi),
      fun h => h1.trans (hI.parsed (h3 ▸ h)), fun h => h1.trans (hI.quiet ?_),
      fun h => h3.trans (hI.branch h), fun h => hI.window (h3 ▸ h)⟩
    simpa only [h4] using h
  | atWriteComplete =>
    simp only [microStep] at hs
    split at hs
    · cases hs
    · obtain rfl := Option.some.inj hs
      exact ⟨hI.le, hI.free, hI.parsed, hI.quiet, hI.branch, hI.window⟩
  | store off bs =>
    simp only [microStep] at hs
    split at hs
    · cases hs
    · obtain ⟨buff, -, rfl⟩ := Option.map_eq_some_iff.mp hs
      exact ⟨hI.le, hI.free, hI.parsed, hI.quiet, hI.branch, hI.window⟩
  | atReadComplete length =>
    simp only [microStep] at hs
    split at hs
    · cases hs
    · obtain rfl := Option.some.inj hs
      have hle : s.reads ≤ 1 := hI.le
      have h0 : s.reads - 1 = 0 := by omega
      refine ⟨?_, fun _ _ => h0, fun _ => h0, fun _ => h0, fun _ => rfl, fun _ => .inl hC⟩
      show s.reads - 1 ≤ 1
      omega

/-- With the invariant every step is safe. -/
theorem RecvInv.safe (hfits : m.pc.Fits m.sys.state) (hI : RecvInv m) (e : MicroEvent) :
    RecvSafe m e := by
  obtain ⟨s, pc, c⟩ := m
  cases e with
  | step io =>
    cases pc with
    | run bs =>
      cases bs with
      | nil => trivial
      | cons b bs =>
        cases b with
        | driver =>
          intro _
          rcases hfits with h | h
          · cases follows_of_suffix h with
            | driver hw => exact hI.quiet (.inl hw)
          · rcases h _ List.mem_cons_self with h | h <;> cases h
        | read =>
          intro _
          exact hI.not_pending (by rintro ⟨⟩) (by rintro ⟨⟩)
        | _ => trivial
    | clearedPostData bs =>
      cases follows_of_suffix hfits with
      | sentence hr => exact hI.quiet (.inr hr)
    | replying r bs => exact hI.reads_of_branch trivial
    | clearing bs => exact hI.reads_of_branch trivial
    | _ => trivial
  | _ => trivial

end Invariant

theorem recvInv_init : machineInit.pc.Fits machineInit.sys.state ∧ RecvInv machineInit :=
  ⟨trivial, ⟨by decide, fun _ _ => rfl, (by rintro ⟨⟩), fun _ => rfl, (by rintro ⟨⟩), by rintro ⟨⟩⟩⟩

/-- **No response is lost to buffer reuse** in runs whose reads complete in the window of a call. -/
theorem recvSafe {es : List MicroEvent}
    (hC : Along microStep CompletesInWindow machineInit es) :
    Along microStep RecvSafe machineInit es :=
  along_of_inv (fun _ _ _ hI hC hs => recvInv_of_step hI hC hs)
    (fun _ e hI _ => RecvInv.safe hI.1 hI.2 e) recvInv_init hC

/-- Up to the first read: `WAITING_DRIVER_READY`, then the `AT_Read` of `NOT_READY`. -/
def toFirstRead : List MicroEvent := List.replicate 6 (.step io₀)

/-- The start message is delivered after that call's `AT_Read` and before its parse. -/
theorem recvSafe_window : Along microStep RecvSafe machineInit
    (toFirstRead ++ [.store 0 atReadyText, .atReadComplete 15] ++ List.replicate 6 (.step io₀)) :=
  recvSafe (by decide +kernel)

/-- The start message is delivered between two calls: the second starts a read over it. -/
theorem not_recvSafe : ¬ Along microStep RecvSafe machineInit
    (toFirstRead ++ List.replicate 3 (.step io₀) ++ [.store 0 atReadyText, .atReadComplete 15] ++
      List.replicate 2 (.step io₀)) := by
  decide +kernel

end Rastreo.Simcom
