import Rastreo.Simcom.Interleaved
import Rastreo.Simcom.Session

/-!
# The send buffers

`USB_HOST_SIMCOM_AT_Write` keeps the caller's buffer until the write-complete event. The task passes
it string literals, the static `postData`, and `postCmd`, which ends with the call. A transfer is
intact as long as its buffer still begins with the bytes it held at the call.

Of the statements that change a buffer only two can meet a transfer of it in flight: the end of a
call, for `postCmd`, and the `CLEAR_BUFF(postData)` of the next position. The statements after these
two find the buffer free.

* `Completed`: at those two statements the transfer of the buffer has completed.
* `SendInv`, `sendInv_of_step`: the invariant that gives.
* `sendSafe`: in such runs every transfer in flight is intact after every statement.
* `not_sendSafe`: `AT+HTTPDATA` is written, and the call ends before the write completes.
-/

namespace Rastreo.Simcom

open Rastreo.Lib

/-- What a buffer holds; `none` when it does not exist. -/
def Machine.contents (m : Machine) : Source → Option Bytes
  | .literal cmd => some cmd
  | .postCmd =>
    match m.pc with
    | .idle => none
    | _ => some m.postCmd.bytes
  | .postData => some m.sys.postData.bytes

/-- The buffer of `t` begins with the bytes given to `AT_Write`. -/
def Machine.Intact (m : Machine) (t : Transfer) : Prop :=
  ∃ b, m.contents t.src = some b ∧ t.bytes <+: b

/-- **The step is safe**: it modifies no buffer in flight, and what is in flight after it is what
was given to `AT_Write`. -/
def SendSafe (m : Machine) (e : MicroEvent) : Prop :=
  ∀ m', microStep m e = some m' → ∀ t ∈ m'.sys.writes,
    (t ∈ m.sys.writes → m'.contents t.src = m.contents t.src) ∧ m'.Intact t

/-- The write of `postCmd` has completed when its call ends, and the one of `postData` when the
next position is requested. -/
def Completed (m : Machine) : MicroEvent → Prop
  | .step _ =>
    match m.pc with
    | .run [] => ∀ t ∈ m.sys.writes, t.src ≠ .postCmd
    | .run (.sentence :: _) => ∀ t ∈ m.sys.writes, t.src ≠ .postData
    | _ => True
  | _ => True

/-- The end of a call. -/
def Pc.ends : Pc → Bool
  | .run [] => true
  | _ => false

/-- At the request of a position. -/
def Pc.requests : Pc → Bool
  | .run (.sentence :: _) => true
  | _ => false

theorem completed_step {m : Machine} {io : Io} : Completed m (.step io) ↔
    (m.pc.ends = true → ∀ t ∈ m.sys.writes, t.src ≠ .postCmd) ∧
      (m.pc.requests = true → ∀ t ∈ m.sys.writes, t.src ≠ .postData) := by
  obtain ⟨s, pc, c⟩ := m
  unfold Completed
  cases pc with
  | run bs =>
    cases bs with
    | nil => simp [Pc.ends, Pc.requests]
    | cons b bs => cases b <;> simp [Pc.ends, Pc.requests]
  | _ => simp [Pc.ends, Pc.requests]

instance (m : Machine) : (e : MicroEvent) → Decidable (Completed m e)
  | .step _ => decidable_of_iff _ completed_step.symm
  | .tick | .atWriteComplete | .store _ _ | .atReadComplete _ => .isTrue trivial

/-! ## The invariant -/

/-- No transfer of `postCmd` is in flight here. -/
def Pc.SparesPostCmd : Pc → Prop
  | .idle | .clearedPostCmd _ | .formattedPostCmd _ => True
  | .run bs => .writePostCmd ∈ bs
  | _ => False

/-- No transfer of `postData` is in flight here. -/
def Pc.SparesPostData : Pc → Prop
  | .clearedPostData _ | .madeSentence _ | .replying .gps _ => True
  | .run bs => bs.head? = some (.parse .gps)
  | _ => False

/-- What is in flight is in its buffer, and no statement that writes a buffer finds it in flight. -/
structure SendInv (m : Machine) : Prop where
  intact : ∀ t ∈ m.sys.writes, m.Intact t
  postCmd : m.pc.SparesPostCmd → ∀ t ∈ m.sys.writes, t.src ≠ .postCmd
  postData : m.pc.SparesPostData → ∀ t ∈ m.sys.writes, t.src ≠ .postData

/-- What one step does to the buffers in flight. -/
structure Keeps (m m' : Machine) : Prop where
  frame : ∀ t ∈ m.sys.writes, t ∈ m'.sys.writes → m'.contents t.src = m.contents t.src
  new : ∀ t ∈ m'.sys.writes, t ∉ m.sys.writes → m'.Intact t

section Invariant

variable {s s' : Sys} {pc pc' : Pc} {c c' : Buf 20} {m m' : Machine} {io : Io} {q : State}
  {bs : List Block}

theorem Keeps.intact (h : Keeps m m') (hI : SendInv m) : ∀ t ∈ m'.sys.writes, m'.Intact t := by
  intro t ht
  by_cases hm : t ∈ m.sys.writes
  · obtain ⟨b, hb, hpre⟩ := hI.intact t hm
    exact ⟨b, (h.frame t hm ht).trans hb, hpre⟩
  · exact h.new t ht hm

/-- A buffer that no statement touched holds what it held. -/
theorem contents_congr {src : Source} (hc : src = .postCmd → c' = c ∧ pc ≠ .idle ∧ pc' ≠ .idle)
    (hd : src = .postData → s'.postData = s.postData) :
    (Machine.mk s' pc' c').contents src = (Machine.mk s pc c).contents src := by
  cases src with
  | literal cmd => rfl
  | postCmd =>
    obtain ⟨rfl, h, h'⟩ := hc rfl
    cases pc <;> cases pc' <;> first | rfl | exact absurd rfl h | exact absurd rfl h'
  | postData => exact congrArg (fun b : Buf 64 => some b.bytes) (hd rfl)

/-- A statement that starts no transfer. -/
theorem Keeps.of_frame (hw : s'.writes = s.writes)
    (hc : c' = c ∧ pc ≠ .idle ∧ pc' ≠ .idle ∨ ∀ t ∈ s.writes, t.src ≠ .postCmd)
    (hd : s'.postData = s.postData ∨ ∀ t ∈ s.writes, t.src ≠ .postData) :
    Keeps ⟨s, pc, c⟩ ⟨s', pc', c'⟩ where
  frame t ht _ := contents_congr
    (fun hsrc => hc.resolve_right fun h => h t ht hsrc)
    (fun hsrc => hd.resolve_right fun h => h t ht hsrc)
  new _ ht hn := absurd (hw ▸ ht) hn

/-- The first bytes of an array are the string in it. -/
theorem text_prefix {n : Nat} (b : Buf n) : b.text <+: b.bytes := List.takeWhile_prefix _

/-- A statement that starts a transfer of a buffer as it is. -/
theorem Keeps.of_startWrite {t : Transfer} (h₁ : pc ≠ .idle) (h₂ : pc' ≠ .idle)
    (hd : s'.postData = s.postData) (hw : s'.writes = s.writes ++ [t])
    (ht : (Machine.mk s' pc' c).Intact t) : Keeps ⟨s, pc, c⟩ ⟨s', pc', c⟩ where
  frame _ _ _ := contents_congr (fun _ => ⟨rfl, h₁, h₂⟩) fun _ => hd
  new t' ht' hn := by
    rw [hw, List.mem_append, List.mem_singleton] at ht'
    rcases ht' with ht' | rfl
    · exact absurd ht' hn
    · exact ht

/-- The blocks after one of the state's `case` neither write `postCmd` nor, but after the sentence
is made up, parse it. -/
theorem rest_of_suffix {b : Block} (h : b :: bs <:+ (script q).blocks) :
    .writePostCmd ∉ bs ∧ (b ≠ .sentence → bs.head? ≠ some (.parse .gps)) := by
  have htimers : ∀ {ts : List Block}, Timers ts → .writePostCmd ∉ ts := fun ht hm => by
    rcases ht _ hm with h | h <;> cases h
  cases follows_of_suffix h with
  | driver | timer => exact ⟨(by rintro ⟨⟩), fun _ => (by rintro ⟨⟩)⟩
  | write cmd r hr => exact ⟨by simp, fun _ => (by rintro ⟨⟩)⟩
  | writePostCmd => exact ⟨by simp, fun _ => (by rintro ⟨⟩)⟩
  | read r ts hr ht =>
    refine ⟨?_, fun _ => ?_⟩
    · rw [List.mem_cons, not_or]
      exact ⟨(by rintro ⟨⟩), htimers ht⟩
    · simpa using hr
  | sentence => exact ⟨by simp, fun h => absurd rfl h⟩
  | parse r ts _ ht =>
    refine ⟨htimers ht, fun _ hh => ?_⟩
    rcases ht _ (List.mem_of_mem_head? hh) with h | h <;> cases h

theorem rest_of_timers (h : Timers bs) :
    .writePostCmd ∉ bs ∧ bs.head? ≠ some (.parse .gps) := by
  refine ⟨fun hm => ?_, fun hh => ?_⟩
  · rcases h _ hm with h | h <;> cases h
  · rcases h _ (List.mem_of_mem_head? hh) with h | h <;> cases h

/-- A statement inside a call that touches no buffer and leads where nothing is promised. -/
theorem SendInv.of_same (hI : SendInv ⟨s, pc, c⟩) (hw : s'.writes = s.writes)
    (hd : s'.postData = s.postData) (hpc : pc ≠ .idle) (hpc' : pc' ≠ .idle)
    (h₁ : ¬ pc'.SparesPostCmd) (h₂ : pc'.SparesPostData → pc.SparesPostData) :
    Keeps ⟨s, pc, c⟩ ⟨s', pc', c⟩ ∧ SendInv ⟨s', pc', c⟩ := by
  have hk : Keeps ⟨s, pc, c⟩ ⟨s', pc', c⟩ := .of_frame hw (.inl ⟨rfl, hpc, hpc'⟩) (.inl hd)
  refine ⟨hk, hk.intact hI, fun h => absurd h h₁, fun h t ht => ?_⟩
  exact hI.postData (h₂ h) t (hw ▸ ht)

/-- A statement inside a call that starts a transfer and leads where nothing is promised. -/
theorem SendInv.of_startWrite {t : Transfer} (hI : SendInv ⟨s, pc, c⟩) (hpc : pc ≠ .idle)
    (hpc' : pc' ≠ .idle) (hd : s'.postData = s.postData) (hw : s'.writes = s.writes ++ [t])
    (ht : (Machine.mk s' pc' c).Intact t) (h₁ : ¬ pc'.SparesPostCmd) (h₂ : ¬ pc'.SparesPostData) :
    Keeps ⟨s, pc, c⟩ ⟨s', pc', c⟩ ∧ SendInv ⟨s', pc', c⟩ := by
  have hk : Keeps ⟨s, pc, c⟩ ⟨s', pc', c⟩ := .of_startWrite hpc hpc' hd hw ht
  exact ⟨hk, hk.intact hI, fun h => absurd h h₁, fun h => absurd h h₂⟩

/-- What a reply other than the payload write does to the buffers. -/
theorem replyTo_send {r : Reply} (h : s.takesPrompt io r = false) :
    (replyTo io s r).writes = s.writes ∧ (r ≠ .gps → (replyTo io s r).postData = s.postData) := by
  by_cases hr : r = .gps
  · subst hr
    rcases replyTo_gps io s with heq | ⟨g, body, heq⟩ <;> rw [heq] <;>
      exact ⟨rfl, fun h => absurd rfl h⟩
  · rcases replyTo_cases io s hr with ⟨q, timer, -, heq⟩ | ⟨rfl, hd, -, heq⟩ |
      ⟨-, -, timer, ip, f, heq⟩
    · rw [heq]
      exact ⟨rfl, fun _ => rfl⟩
    · have hsend : ¬ s.sendsPayload io = true := by
        rw [Bool.not_eq_true]
        simpa only [Sys.takesPrompt, beq_self_eq_true, hd, Bool.true_and] using h
      -- the guard does not read the trace
      have hprompt : replyTo io s .postData = { s with trace := .prompt :: s.trace } :=
        heq.trans (if_neg hsend)
      rw [hprompt]
      exact ⟨rfl, fun _ => rfl⟩
    · rw [heq]
      exact ⟨rfl, fun _ => rfl⟩

/-- The first statement of a block. -/
theorem keeps_enterBlock {b : Block} (hfits : Pc.Fits s.state (.run (b :: bs)))
    (hI : SendInv ⟨s, .run (b :: bs), c⟩) (hC : Completed ⟨s, .run (b :: bs), c⟩ (.step io)) :
    Keeps ⟨s, .run (b :: bs), c⟩ (enterBlock io ⟨s, .run (b :: bs), c⟩ bs b) ∧
      SendInv (enterBlock io ⟨s, .run (b :: bs), c⟩ bs b) := by
  have hrest : .writePostCmd ∉ bs ∧ (b ≠ .sentence → bs.head? ≠ some (.parse .gps)) := by
    rcases hfits with h | h
    · exact rest_of_suffix h
    · have := @rest_of_timers bs fun b' hb' => h b' (List.mem_cons_of_mem _ hb')
      exact ⟨this.1, fun _ => this.2⟩
  -- statements that go on to the next block
  have hnext : ∀ {s'}, s'.writes = s.writes → s'.postData = s.postData → b ≠ .sentence →
      Keeps ⟨s, .run (b :: bs), c⟩ ⟨s', .run bs, c⟩ ∧ SendInv ⟨s', .run bs, c⟩ :=
    fun hw hd hb => hI.of_same hw hd (by rintro ⟨⟩) (by rintro ⟨⟩) hrest.1 fun h => absurd h (hrest.2 hb)
  cases b with
  | driver =>
    simp only [enterBlock, execBlock]
    split
    · exact hnext rfl rfl (by rintro ⟨⟩)
    · exact hnext rfl rfl (by rintro ⟨⟩)
  | write cmd =>
    simp only [enterBlock]
    split
    · exact hI.of_startWrite (by rintro ⟨⟩) (by rintro ⟨⟩) rfl rfl ⟨cmd, rfl, List.prefix_rfl⟩ (by rintro ⟨⟩) (by rintro ⟨⟩)
    · exact hnext rfl rfl (by rintro ⟨⟩)
  | writePostCmd =>
    have hfree : ∀ t ∈ s.writes, t.src ≠ .postCmd := hI.postCmd List.mem_cons_self
    have hk : Keeps ⟨s, .run (.writePostCmd :: bs), c⟩ ⟨s, .clearedPostCmd bs, .clear⟩ :=
      .of_frame rfl (.inr hfree) (.inl rfl)
    exact ⟨hk, hk.intact hI, fun _ => hfree, by rintro ⟨⟩⟩
  | read =>
    simp only [enterBlock]
    split
    · exact hI.of_same rfl rfl (by rintro ⟨⟩) (by rintro ⟨⟩) (by rintro ⟨⟩) (by rintro ⟨⟩)
    · exact hnext rfl rfl (by rintro ⟨⟩)
  | sentence =>
    -- `CLEAR_BUFF(postData)`: its transfer has completed
    have hfree : ∀ t ∈ s.writes, t.src ≠ .postData := hC
    have hk : Keeps ⟨s, .run (.sentence :: bs), c⟩
        ⟨{ s with postData := .clear }, .clearedPostData bs, c⟩ :=
      .of_frame rfl (.inl ⟨rfl, (by rintro ⟨⟩), by rintro ⟨⟩⟩) (.inr hfree)
    exact ⟨hk, hk.intact hI, (by rintro ⟨⟩), fun _ => hfree⟩
  | parse r =>
    simp only [enterBlock]
    split
    · refine hI.of_same rfl rfl (by rintro ⟨⟩) (by rintro ⟨⟩) (by rintro ⟨⟩) fun h => ?_
      cases r <;> first | rfl | cases h
    · exact hnext rfl rfl (by rintro ⟨⟩)
  | timer next =>
    simp only [enterBlock, execBlock]
    split
    · exact hnext rfl rfl (by rintro ⟨⟩)
    · exact hnext rfl rfl (by rintro ⟨⟩)

/-- One statement. -/
theorem keeps_execStatement (hfits : pc.Fits s.state) (hI : SendInv ⟨s, pc, c⟩)
    (hC : Completed ⟨s, pc, c⟩ (.step io)) :
    Keeps ⟨s, pc, c⟩ (execStatement io ⟨s, pc, c⟩) ∧ SendInv (execStatement io ⟨s, pc, c⟩) := by
  cases pc with
  | idle =>
    -- `postCmd` comes into being
    have hfree : ∀ t ∈ s.writes, t.src ≠ .postCmd := hI.postCmd trivial
    have hk : Keeps ⟨s, .idle, c⟩ ⟨s, .run (script s.state).blocks, c⟩ :=
      .of_frame rfl (.inr hfree) (.inl rfl)
    refine ⟨hk, hk.intact hI, fun _ => hfree, fun h => ?_⟩
    have h : (script s.state).blocks.head? = some (.parse .gps) := h
    cases hsc : script s.state <;> rw [hsc] at h <;> cases h
  | run bs =>
    cases bs with
    | nil =>
      -- `postCmd` ends: its transfer has completed
      have hfree : ∀ t ∈ s.writes, t.src ≠ .postCmd := hC
      have hk : Keeps ⟨s, .run [], c⟩ ⟨s, .idle, c⟩ := .of_frame rfl (.inr hfree) (.inl rfl)
      exact ⟨hk, hk.intact hI, fun _ => hfree, by rintro ⟨⟩⟩
    | cons b bs => exact keeps_enterBlock hfits hI hC
  | issuedWrite bs =>
    have hrest : .writePostCmd ∉ bs ∧ bs.head? ≠ some (.parse .gps) := by
      rcases hfits with ⟨cmd, h⟩ | h
      · exact ⟨(rest_of_suffix h).1, (rest_of_suffix h).2 (by rintro ⟨⟩)⟩
      · exact ⟨(rest_of_suffix h).1, (rest_of_suffix h).2 (by rintro ⟨⟩)⟩
    exact hI.of_same rfl rfl (by rintro ⟨⟩) (by rintro ⟨⟩) hrest.1 fun h => absurd h hrest.2
  | clearedPostCmd bs =>
    have hfree : ∀ t ∈ s.writes, t.src ≠ .postCmd := hI.postCmd trivial
    have hk : ∀ {s' c'}, s'.writes = s.writes → s'.postData = s.postData →
        Keeps ⟨s, .clearedPostCmd bs, c⟩ ⟨s', .formattedPostCmd bs, c'⟩ ∧
          SendInv ⟨s', .formattedPostCmd bs, c'⟩ := fun {s' c'} hw hd => by
      have hk : Keeps ⟨s, .clearedPostCmd bs, c⟩ ⟨s', .formattedPostCmd bs, c'⟩ :=
        .of_frame hw (.inr hfree) (.inl hd)
      exact ⟨hk, hk.intact hI, fun _ t ht => hfree t (hw ▸ ht), by rintro ⟨⟩⟩
    simp only [execStatement]
    split
    · exact hk rfl rfl
    · exact hk rfl rfl
  | formattedPostCmd bs =>
    have hrest := rest_of_suffix hfits
    simp only [execStatement]
    split
    · exact hI.of_startWrite (by rintro ⟨⟩) (by rintro ⟨⟩) rfl rfl ⟨c.bytes, rfl, text_prefix c⟩ (by rintro ⟨⟩) (by rintro ⟨⟩)
    · exact hI.of_same rfl rfl (by rintro ⟨⟩) (by rintro ⟨⟩) hrest.1 fun h => absurd h (hrest.2 (by rintro ⟨⟩))
  | issuedRead bs =>
    have hrest := rest_of_suffix hfits
    exact hI.of_same rfl rfl (by rintro ⟨⟩) (by rintro ⟨⟩) hrest.1 fun h => absurd h (hrest.2 (by rintro ⟨⟩))
  | clearedPostData bs =>
    simp only [execStatement]
    split
    · exact hI.of_same rfl rfl (by rintro ⟨⟩) (by rintro ⟨⟩) (by rintro ⟨⟩) fun _ => trivial
    · exact hI.of_same rfl rfl (by rintro ⟨⟩) (by rintro ⟨⟩) (by rintro ⟨⟩) fun _ => trivial
  | madeSentence bs =>
    exact hI.of_same rfl rfl (by rintro ⟨⟩) (by rintro ⟨⟩) (rest_of_suffix hfits).1 fun _ => trivial
  | replying r bs =>
    simp only [execStatement]
    split
    · split
      · exact hI.of_startWrite (by rintro ⟨⟩) (by rintro ⟨⟩) rfl rfl
          ⟨s.postData.bytes, rfl, text_prefix s.postData⟩ (by rintro ⟨⟩) (by rintro ⟨⟩)
      · rename_i htake
        obtain ⟨hw, hd⟩ := replyTo_send (Bool.eq_false_iff.mpr htake)
        by_cases hr : r = .gps
        · -- `GPSInfoToString(postData)`
          subst hr
          have hfree : ∀ t ∈ s.writes, t.src ≠ .postData := hI.postData trivial
          have hk : Keeps ⟨s, .replying .gps bs, c⟩ ⟨replyTo io s .gps, .clearing bs, c⟩ :=
            .of_frame hw (.inl ⟨rfl, (by rintro ⟨⟩), by rintro ⟨⟩⟩) (.inr hfree)
          exact ⟨hk, hk.intact hI, (by rintro ⟨⟩), by rintro ⟨⟩⟩
        · exact hI.of_same hw (hd hr) (by rintro ⟨⟩) (by rintro ⟨⟩) (by rintro ⟨⟩) (by rintro ⟨⟩)
    · exact hI.of_same rfl rfl (by rintro ⟨⟩) (by rintro ⟨⟩) (by rintro ⟨⟩) (by rintro ⟨⟩)
  | issuedPayload bs => exact hI.of_same rfl rfl (by rintro ⟨⟩) (by rintro ⟨⟩) (by rintro ⟨⟩) (by rintro ⟨⟩)
  | clearing bs => exact hI.of_same rfl rfl (by rintro ⟨⟩) (by rintro ⟨⟩) (by rintro ⟨⟩) (by rintro ⟨⟩)
  | resetting bs =>
    have hrest := rest_of_timers hfits
    exact hI.of_same rfl rfl (by rintro ⟨⟩) (by rintro ⟨⟩) hrest.1 fun h => absurd h hrest.2

/-- The driver's events leave the buffers alone. -/
theorem keeps_other {e : MicroEvent} (he : ∀ io, e ≠ .step io) (hI : SendInv m)
    (hs : microStep m e = some m') : Keeps m m' ∧ SendInv m' := by
  obtain ⟨hpc, hc, -, hd⟩ := microStep_other he hs
  have hsub : m'.sys.writes ⊆ m.sys.writes := by
    cases e with
    | step io => exact absurd rfl (he io)
    | tick =>
      obtain rfl := Option.some.inj hs
      show (resendATCommandCB m.sys).writes ⊆ _
      unfold resendATCommandCB
      split <;> exact List.Subset.refl _
    | atWriteComplete =>
      simp only [microStep] at hs
      split at hs
      · cases hs
      · rename_i t ts hw
        obtain rfl := Option.some.inj hs
        rw [hw]
        exact List.subset_cons_self t ts
    | store off bs =>
      simp only [microStep] at hs
      split at hs
      · cases hs
      · obtain ⟨buff, -, rfl⟩ := Option.map_eq_some_iff.mp hs
        exact List.Subset.refl _
    | atReadComplete length =>
      simp only [microStep] at hs
      split at hs
      · cases hs
      · obtain rfl := Option.some.inj hs
        exact List.Subset.refl _
  have hcont : ∀ src, m'.contents src = m.contents src := fun src => by
    unfold Machine.contents
    rw [hpc, hc, hd]
  have hk : Keeps m m' := ⟨fun t _ _ => hcont t.src, fun t ht hn => absurd (hsub ht) hn⟩
  exact ⟨hk, hk.intact hI, fun h t ht => hI.postCmd (hpc ▸ h) t (hsub ht),
    fun h t ht => hI.postData (hpc ▸ h) t (hsub ht)⟩

/-- **Step lemma.** -/
theorem sendInv_of_step {e : MicroEvent} (hI : m.pc.Fits m.sys.state ∧ SendInv m)
    (hC : Completed m e) (hs : microStep m e = some m') :
    Keeps m m' ∧ m'.pc.Fits m'.sys.state ∧ SendInv m' := by
  have hfits := fits_of_step hI.1 hs
  by_cases he : ∀ io, e ≠ .step io
  · obtain ⟨hk, hI'⟩ := keeps_other he hI.2 hs
    exact ⟨hk, hfits, hI'⟩
  · rw [not_forall] at he
    obtain ⟨io, he⟩ := he
    obtain rfl := not_not.mp he
    obtain rfl := Option.some.inj hs
    obtain ⟨hk, hI'⟩ := keeps_execStatement hI.1 hI.2 hC
    exact ⟨hk, hfits, hI'⟩

/-- With the invariant, a step that meets the condition is safe. -/
theorem SendInv.inBounds {e : MicroEvent} (hI : m.pc.Fits m.sys.state ∧ SendInv m)
    (hC : Completed m e) : SendSafe m e := by
  intro m' hs t ht
  obtain ⟨hk, -, hI'⟩ := sendInv_of_step hI hC hs
  exact ⟨fun hm => hk.frame t hm ht, hI'.intact t ht⟩

end Invariant

theorem sendInv_init : machineInit.pc.Fits machineInit.sys.state ∧ SendInv machineInit :=
  ⟨trivial, ⟨(by rintro _ ⟨⟩), fun _ => (by rintro _ ⟨⟩), fun _ => (by rintro _ ⟨⟩)⟩⟩

/-- **Outgoing buffers stay intact until sent** in runs in which the two writes complete before
the call ends and before the next position. -/
theorem sendSafe {es : List MicroEvent} (hC : Along microStep Completed machineInit es) :
    Along microStep SendSafe machineInit es :=
  along_of_inv (fun _ _ _ hI hC hs => (sendInv_of_step hI hC hs).2)
    (fun _ _ hI hC => SendInv.inBounds hI hC) sendInv_init hC

/-! ## A session, statement by statement -/

/-- `n` statements, with a driver that accepts everything. -/
def statements (n : Nat) : List MicroEvent := List.replicate n (.step io₀)

/-- The bytes of a read in flight, and its completion. -/
def receives (text : Bytes) : List MicroEvent := [.store 0 text, .atReadComplete text.length]

/-- `startup`, up to the first tick. -/
def startStatements : List MicroEvent :=
  statements 3 ++ statements 6 ++ receives atReadyText ++ statements 9

/-- `setupEvents`, with the last tick's call before them. -/
def setupStatements : List MicroEvent :=
  statements 5 ++ (setup.flatMap fun _ =>
    statements 6 ++ [.atWriteComplete] ++ receives okText ++ statements 9) ++ statements 9

/-- `toPost`. -/
def toPostStatements : List MicroEvent :=
  startStatements ++ List.replicate 14999 .tick ++ setupStatements

/-- The timer does not see where the task is. -/
theorem run_ticks {pc : Pc} {c : Buf 20} : ∀ {n : Nat} {s s' : Sys},
    run step s (List.replicate n .tick) = some s' →
    run microStep ⟨s, pc, c⟩ (List.replicate n .tick) = some ⟨s', pc, c⟩
  | 0, _, _, h => by
    obtain rfl := Option.some.inj h
    rfl
  | n + 1, s, s', h => by
    rw [List.replicate_succ] at h ⊢
    obtain ⟨s₁, hs, h⟩ := run_cons.mp h
    obtain rfl := Option.some.inj hs
    exact run_cons.mpr ⟨_, rfl, run_ticks h⟩

/-- The timer is done, no call is running. -/
def machineListening : Machine := ⟨{ listening with timer := 1 }, .idle, .clear⟩

theorem run_startStatements :
    run microStep machineInit (startStatements ++ List.replicate 14999 .tick) =
      some machineListening := by
  have hstart : run microStep machineInit startStatements = some ⟨listening, .idle, .clear⟩ := by
    decide +kernel
  have hticks := @ticks_run _ tolerant_true 14999 1 listening (by decide) (by decide)
  rw [run_append, hstart, Option.bind_some]
  exact run_ticks hticks.1

/-- The command write and the payload write of the first POST complete in time. -/
theorem sendSafe_post : Along microStep SendSafe machineInit
    (toPostStatements ++ (statements 7 ++ [.atWriteComplete] ++ statements 1 ++
      receives downloadText ++ statements 8 ++ [.atWriteComplete] ++ statements 5)) := by
  refine sendSafe ?_
  rw [toPostStatements, List.append_assoc]
  refine along_append ?_ run_startStatements (by decide +kernel)
  refine along_append (by decide +kernel) (by decide +kernel : _ = some ⟨listening, .idle, .clear⟩)
    (along_of_mem fun e he s => ?_)
  rw [List.eq_of_mem_replicate he]
  trivial

/-- The call that writes `AT+HTTPDATA` ends before the write completes. -/
theorem not_sendSafe : ¬ Along microStep SendSafe machineInit (toPostStatements ++ statements 8) := by
  intro h
  have h8 : statements 8 = statements 7 ++ [.step io₀] := rfl
  rw [toPostStatements, List.append_assoc, h8] at h
  have h := along_of_append h run_startStatements
  have hrun : (run microStep machineListening ((setupStatements ++ statements 7) ++ [.step io₀])).map
      (fun m => (m.pc, m.sys.writes.map (·.src))) = some (.idle, [.postCmd]) := by
    decide +kernel
  obtain ⟨m, hm, heq⟩ := Option.map_eq_some_iff.mp hrun
  simp only [Prod.mk.injEq] at heq
  obtain ⟨hpc, hw⟩ := heq
  obtain ⟨m₀, -, hs, hsafe⟩ := along_last (List.append_assoc .. ▸ h) hm
  obtain ⟨t, ht, hsrc⟩ := List.mem_map.mp (hw ▸ List.mem_singleton_self Source.postCmd)
  obtain ⟨-, b, hb, -⟩ := hsafe m hs t ht
  -- there is no `postCmd` any more
  rw [hsrc, Machine.contents, hpc] at hb
  cases hb

end Rastreo.Simcom
