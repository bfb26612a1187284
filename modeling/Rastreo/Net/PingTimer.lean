import Rastreo.Net.Guarding

/-!
# The ping of a silent connection

`WS_STATE_CONNECTION_ESTABLISHED` pings when more than `activityTimeout` seconds have passed since
`ts`, by a counter of 32 bits that runs at 100 MHz: it comes round after 42.9 s. `ts` is written by
`WS_STATE_CLOSE`, by data and by a ping, and not when a connection is established.

* `clockStep`: the system, with the time that passes before each event.
* `Stamps`: when `ts` was written, when the client was last polled, and when the silence began.
* `PingsOnTime`: a poll that finds no data pings after more than the interval of silence.
* **`pingsOnTime_of_timely`**: so it is in a run where the counter does not come round, and where
  `ts` does not count silence from before the connection.
* `timely_of_modest`: with polls a second apart and intervals up to 40 s the counter does not.
-/

namespace Rastreo.Net

open Rastreo.Lib

/-! ## The clock -/

/-- The system, and how often the core timer ticked. -/
structure Clocked where
  world : World
  time : Nat

/-- Everybody who reads the core timer in this event gets the low 32 bits of this time. -/
def Event.at (t : Nat) : Event → Event
  | .wsTask io => .wsTask { io with now := UInt32.ofNat t }
  | .tcpTask io => .tcpTask fun sid => { io sid with now := UInt32.ofNat t }
  | e => e

/-- Some time passes, then something happens. -/
def clockStep (libs : Libs) (c : Clocked) (e : Nat × Event) : Option Clocked :=
  (step libs c.world (e.2.at (c.time + e.1))).map fun w => ⟨w, c.time + e.1⟩

/-- `CORE_TIMER_FREQUENCY`. -/
abbrev coreTimerFrequency : Nat := 100000000

/-- What the run has seen of the client's clock. -/
structure Stamps where
  /-- When `ts` was written. -/
  written : Nat
  /-- When the client was last polled. -/
  polled : Nat
  /-- When the last data came, the last ping was sent or the connection was established. -/
  last : Nat
  deriving DecidableEq, Repr

/-- The pass gets data. -/
def hears (io : WsIo) (w : World) : Bool :=
  decide (w.ws.state = .connectionEstablished ∧ (w.read io).1 ≠ [])

/-- The stamps after an event at a time. -/
def Stamps.note (libs : Libs) (t : Nat) (w : World) (g : Stamps) : Event → Stamps
  | .wsTask io =>
    { written := if w.ws.state = .close ∨ hears io w ∨ pingDue io w then t else g.written
      polled := t
      last := if accepts libs io w ∨ hears io w ∨ pingDue io w then t else g.last }
  | _ => g

/-- The stamps after an event of the clocked system. -/
def Stamps.after (libs : Libs) (c : Clocked) (e : Nat × Event) (g : Stamps) : Stamps :=
  g.note libs (c.time + e.1) c.world (e.2.at (c.time + e.1))

/-- Power on. -/
def clockInit (grants : Nat → Bool) (rand : Nat → UInt32) : Clocked × Stamps :=
  (⟨worldInit grants rand, 0⟩, ⟨0, 0, 0⟩)

/-- A poll of an established client that finds no data, with an interval set. -/
def idles (w : World) : Event → Bool
  | .wsTask io => decide (w.ws.state = .connectionEstablished ∧ (w.read io).1 = [] ∧
      0 < w.ws.activityTimeout)
  | _ => false

/-- **A poll that finds no data** sends the ping exactly when more than the interval of whole
seconds has passed. -/
def PingsOnTime (p : Clocked × Stamps) (e : Nat × Event) : Prop :=
  idles p.1.world (e.2.at (p.1.time + e.1)) = true →
    ((sends p.1.world (e.2.at (p.1.time + e.1))).map Prod.snd =
        some (some p.1.world.ws.pingStr.text) ↔
      p.1.world.ws.activityTimeout.toNat < (p.1.time + e.1 - p.2.last) / coreTimerFrequency)

/-- The ticks after which a ping is due. -/
def World.due (w : World) : Nat := (w.ws.activityTimeout.toNat + 1) * coreTimerFrequency

/-- The time since `ts` was written is not past the interval, or the time since the silence began
is too. -/
def Current (p : Clocked × Stamps) (e : Nat × Event) : Prop :=
  p.1.world.due ≤ p.1.time + e.1 - p.2.written → p.1.world.due ≤ p.1.time + e.1 - p.2.last

/-- **A poll that finds no data** comes before the counter is back where `ts` was written, or
before the interval is over, and `ts` counts nothing from before the connection. -/
def Timely (p : Clocked × Stamps) (e : Nat × Event) : Prop :=
  idles p.1.world (e.2.at (p.1.time + e.1)) = true →
    (p.1.time + e.1 - p.2.written < 4294967296 ∨ p.1.time + e.1 - p.2.written < p.1.world.due) ∧
      Current p e

instance (p : Clocked × Stamps) (e : Nat × Event) : Decidable (PingsOnTime p e) :=
  inferInstanceAs (Decidable (_ → (_ ↔ _)))

instance (p : Clocked × Stamps) (e : Nat × Event) : Decidable (Timely p e) :=
  inferInstanceAs (Decidable (_ → _ ∧ (_ → _)))

/-! ## Who writes `ts` -/

section Ts

variable {w w' : World} {libs : Libs}

theorem ts_sendError (w : World) (c : Int) : (w.sendError c).ws.ts = w.ws.ts := by
  unfold World.sendError World.callOnError World.setState
  split <;> rfl

theorem ts_sendData {n : Nat} (w : World) (block : Block) (built : Option (Buf n)) :
    (sendData w block built).2.ws.ts = w.ws.ts := by
  unfold sendData
  dsimp only
  split
  · rfl
  · exact ts_sendError _ 4

theorem ts_wsClientSend (w : World) (s : Option Bytes) : (wsClientSend w s).2.ws.ts = w.ws.ts := by
  unfold wsClientSend
  split
  · exact ts_sendError w 0
  · split
    · exact ts_sendError w 1
    · split
      · exact ts_sendError w 2
      · dsimp only [World.drawMask]
        split
        · exact ts_sendError _ 4
        · exact ts_sendData _ _ _

theorem ts_dispatchMessage (w : World) (frames : List WsFrame) :
    (dispatchMessage w frames).1.ws.ts = w.ws.ts := by
  unfold dispatchMessage
  split
  · unfold World.callOnError World.setState
    split <;> rfl
  · dsimp only
    split
    · rfl
    · split <;> rfl

theorem ts_frameDone (w : World) (cur : WsFrame) (prev : List WsFrame) :
    (frameDone w cur prev).1.ws.ts = w.ws.ts := by
  unfold frameDone
  split
  · split
    · unfold handleControlFrame resetFrame
      have hop : (handleOpcode w.drawMask.2 cur w.drawMask.1).ws.ts = w.ws.ts := by
        unfold handleOpcode
        split
        · dsimp only
          split <;> rfl
        · rfl
      dsimp only
      split <;> exact hop
    · exact ts_dispatchMessage w (cur :: prev)
  · unfold newFragment
    split
    · rfl
    · split <;> rfl

theorem SameButFrames.ts_eq (h : SameButFrames w w') : w'.ws.ts = w.ws.ts := by
  obtain ⟨fs, hws⟩ := h.ws
  rw [hws]

theorem ts_inData (w : World) (c : UInt8) : (inData w c).1.ws.ts = w.ws.ts := by
  have hstep := inData_cases w c
  cases hstep with
  | kept hnot hsame => exact hsame.ts_eq
  | masked f hread w₁ hsame heq =>
    rw [heq]
    exact hsame.ts_eq
  | complete f prev hread w₁ hsame heq =>
    rw [heq, ts_frameDone]
    exact hsame.ts_eq

theorem ts_foldl_inData (bs : Bytes) (w : World) :
    (bs.foldl (fun w c => (inData w c).1) w).ws.ts = w.ws.ts := by
  induction bs generalizing w with
  | nil => rfl
  | cons c bs ih => exact (ih _).trans (ts_inData w c)

/-- A pass on a connection writes `ts` when it gets data or pings. -/
theorem ts_established (io : WsIo) (hst : w.ws.state = .connectionEstablished) :
    (established io w).ws.ts =
      if hears io w ∨ pingDue io w then io.now else w.ws.ts := by
  cases hping : pingDue io w with
  | true =>
    rw [established_ping hping, ts_wsClientSend, if_pos (.inr rfl)]
    rfl
  | false =>
    rw [established_quiet hst hping]
    by_cases hnil : (w.read io).1 = []
    · have hdeaf : hears io w = false := decide_eq_false fun h => h.2 hnil
      rw [if_pos hnil, hdeaf, if_neg (by simp)]
      rfl
    · have hears : hears io w = true := decide_eq_true ⟨hst, hnil⟩
      rw [if_neg hnil, ts_foldl_inData, if_pos (.inl hears)]
      rfl

theorem ts_wsClientTask (io : WsIo) : (wsClientTask libs io w).ws.ts =
    if w.ws.state = .close ∨ hears io w ∨ pingDue io w then io.now else w.ws.ts := by
  by_cases hst : w.ws.state = .connectionEstablished
  · have htask : wsClientTask libs io w = established io w :=
      wsClientTask_of_established hst
    have hopen : w.ws.state ≠ .close := by
      rw [hst]
      rintro ⟨⟩
    rw [htask, ts_established io hst]
    exact if_congr ⟨.inr, fun h => h.resolve_left hopen⟩ rfl rfl
  · have hdeaf : hears io w = false := decide_eq_false fun h => hst h.1
    have hping : pingDue io w = false := decide_eq_false fun h => hst h.1
    rw [hdeaf, hping, (apart_wsClientTask io hst).ts]
    exact if_congr (by simp) rfl rfl

end Ts

/-! ## The counter -/

section Counter

/-- The difference of two readings is the time between them, up to a turn of the counter. -/
theorem toNat_elapsedS {s t : Nat} (h : s ≤ t) :
    (elapsedS (UInt32.ofNat t) (UInt32.ofNat s)).toNat = (t - s) % 4294967296 / 100000000 := by
  unfold elapsedS
  rw [← UInt32.ofNat_sub h, UInt32.toNat_div, UInt32.toNat_ofNat']
  rfl

/-- **The reading is right** until the counter comes round, and before the interval is over. -/
theorem lt_turn_iff {p d : Nat} (h : d < 4294967296 ∨ d < (p + 1) * 100000000) :
    p < d % 4294967296 / 100000000 ↔ (p + 1) * 100000000 ≤ d := by
  rw [← Nat.succ_le_iff, Nat.le_div_iff_mul_le (by decide)]
  rcases h with h | h
  · rw [Nat.mod_eq_of_lt h]
  · have hle := Nat.mod_le d 4294967296
    exact ⟨fun hd => hd.trans hle, fun hd => absurd h (Nat.not_lt.mpr hd)⟩

end Counter

/-! ## The run -/

/-- **The invariant**: `ts` shows when it was written, and on a connection that was no later than
the silence began. -/
structure StampInv (p : Clocked × Stamps) : Prop where
  ts : p.1.world.ws.ts = UInt32.ofNat p.2.written
  written : p.2.written ≤ p.1.time
  polled : p.2.polled ≤ p.1.time
  last : p.2.last ≤ p.1.time
  since : p.1.world.ws.state = .connectionEstablished → p.2.written ≤ p.2.last

section Run

variable {libs : Libs} {c c' : Clocked} {g : Stamps} {e : Nat × Event}

/-- Nobody but the task writes `ts` or enters the connection. -/
theorem quiet_of_step {w w' : World} {ev : Event} (hev : ∀ io, ev ≠ .wsTask io)
    (hs : step libs w ev = some w') : w'.ws.ts = w.ws.ts ∧
      (w'.ws.state = .connectionEstablished → w.ws.state = .connectionEstablished) := by
  cases ev with
  | tcpTask io =>
    obtain rfl := Option.some.inj hs
    obtain ⟨sid, q, hws, -⟩ := (reported_tcpClientTask io w).ws
    exact ⟨by rw [hws], tcpClientTask_established io⟩
  | wsTask io => exact absurd rfl (hev io)
  | receive sid bs =>
    obtain rfl := Option.some.inj hs
    exact ⟨rfl, id⟩
  | wsOpen url cbs =>
    obtain rfl := Option.some.inj hs
    unfold wsClientOpen
    split
    · split
      · exact ⟨rfl, id⟩
      · exact ⟨rfl, by rintro ⟨⟩⟩
    · exact ⟨rfl, id⟩
  | wsSend s =>
    obtain rfl := Option.some.inj hs
    exact ⟨ts_wsClientSend w s, (aside_wsClientSend w s).established⟩
  | wsSetPing strPing pingInterval =>
    obtain rfl := Option.some.inj hs
    exact ⟨rfl, id⟩
  | wsClose =>
    obtain rfl := Option.some.inj hs
    exact ⟨rfl, id⟩

theorem Event.at_wsTask {t : Nat} {ev : Event} {io : WsIo} (h : ev.at t = .wsTask io) :
    io.now = UInt32.ofNat t := by
  cases ev with
  | wsTask io' =>
    obtain rfl := Event.wsTask.inj h
    rfl
  | _ => cases h

theorem stampInv_of_step (hI : StampInv (c, g)) (hs : clockStep libs c e = some c') :
    StampInv (c', g.after libs c e) := by
  obtain ⟨w', hw, rfl⟩ := Option.map_eq_some_iff.mp hs
  obtain ⟨hts, hwritten, hpolled, hlast, hsince⟩ := hI
  dsimp only at hts hwritten hpolled hlast hsince
  unfold Stamps.after
  have hnow := @Event.at_wsTask (c.time + e.1) e.2
  generalize e.2.at (c.time + e.1) = ev at hw hnow ⊢
  have hlater : c.time ≤ c.time + e.1 := Nat.le_add_right _ _
  generalize c.time + e.1 = t at hnow hlater ⊢
  by_cases htask : ∃ io, ev = .wsTask io
  · obtain ⟨io, rfl⟩ := htask
    obtain rfl := Option.some.inj hw
    refine ⟨?_, ?_, le_rfl, ?_, fun hest => ?_⟩
    · show (wsClientTask libs io c.world).ws.ts = UInt32.ofNat (if _ then t else g.written)
      rw [ts_wsClientTask, hnow rfl, hts]
      split <;> rfl
    · show (if _ then t else g.written) ≤ t
      split
      · exact le_rfl
      · exact hwritten.trans hlater
    · show (if _ then t else g.last) ≤ t
      split
      · exact le_rfl
      · exact hlast.trans hlater
    · show (if _ then t else g.written) ≤ (if _ then t else g.last)
      rcases wsClientTask_established hest with hst | hst
      · have hopen : c.world.ws.state ≠ .close := by
          rw [hst]
          rintro ⟨⟩
        by_cases hnew : hears io c.world = true ∨ pingDue io c.world = true
        · rw [if_pos (.inr hnew), if_pos (.inr hnew)]
        · rw [if_neg fun h => h.elim hopen hnew]
          split
          · exact hwritten.trans hlater
          · exact hsince hst
      · have hacc : accepts libs io c.world = true := decide_eq_true ⟨hst, hest⟩
        have hnew : (if accepts libs io c.world ∨ hears io c.world ∨ pingDue io c.world then t
            else g.last) = t := if_pos (.inl hacc)
        rw [hnew]
        split
        · exact le_rfl
        · exact hwritten.trans hlater
  · have hev : ∀ io, ev ≠ .wsTask io := fun io h => htask ⟨io, h⟩
    have hnote : g.note libs t c.world ev = g := by
      cases ev with
      | wsTask io => exact absurd rfl (hev io)
      | _ => rfl
    obtain ⟨hts', hest'⟩ := quiet_of_step hev hw
    rw [hnote]
    exact ⟨hts'.trans hts, hwritten.trans hlater, hpolled.trans hlater, hlast.trans hlater,
      fun hest => hsince (hest' hest)⟩

theorem idles_wsTask {w : World} {ev : Event} (h : idles w ev = true) :
    ∃ io, ev = .wsTask io ∧ w.ws.state = .connectionEstablished ∧ (w.read io).1 = [] ∧
      0 < w.ws.activityTimeout := by
  cases ev with
  | wsTask io => exact ⟨io, rfl, of_decide_eq_true h⟩
  | _ => cases h

/-- The ping of a poll that finds no data. -/
theorem sends_idle {w : World} {io : WsIo} (hst : w.ws.state = .connectionEstablished)
    (hnil : (w.read io).1 = []) (hset : 0 < w.ws.activityTimeout) :
    (sends w (.wsTask io)).map Prod.snd = some (some w.ws.pingStr.text) ↔
      w.ws.activityTimeout.toNat < (elapsedS io.now w.ws.ts).toNat := by
  unfold sends
  dsimp only
  constructor
  · intro h
    split at h
    · rename_i hdue
      exact UInt32.lt_iff_toNat_lt.mp (of_decide_eq_true hdue).2.2.2
    · cases h
  · intro h
    have hdue : pingDue io w = true :=
      decide_eq_true ⟨hst, hnil, hset, UInt32.lt_iff_toNat_lt.mpr h⟩
    rw [if_pos hdue]
    rfl

theorem pingsOnTime_of_inv (hI : StampInv (c, g)) (hC : Timely (c, g) e) :
    PingsOnTime (c, g) e := by
  intro hidle
  obtain ⟨hturn, hcurrent⟩ := hC hidle
  obtain ⟨io, hev, hst, hnil, hset⟩ := idles_wsTask hidle
  obtain ⟨hts, hwritten, -, -, hsince⟩ := hI
  dsimp only at hev hst hnil hset hturn hts hwritten hsince
  have hle : g.written ≤ c.time + e.1 := hwritten.trans (Nat.le_add_right _ _)
  have hlast := hsince hst
  unfold Current at hcurrent
  dsimp only at hcurrent ⊢
  rw [hev, sends_idle hst hnil hset, Event.at_wsTask hev, hts, toNat_elapsedS hle,
    lt_turn_iff hturn, ← Nat.succ_le_iff, Nat.le_div_iff_mul_le (by decide)]
  refine ⟨hcurrent, fun hdue => hdue.trans ?_⟩
  exact Nat.sub_le_sub_left hlast _

end Run

theorem stampInv_init (grants : Nat → Bool) (rand : Nat → UInt32) :
    StampInv (clockInit grants rand) :=
  ⟨rfl, le_rfl, le_rfl, le_rfl, by rintro ⟨⟩⟩

/-- **A silent connection is pinged on time** in a run where every poll that finds no data is
timely. -/
theorem pingsOnTime_of_timely (libs : Libs) (grants : Nat → Bool) (rand : Nat → UInt32)
    {es : List (Nat × Event)}
    (h : Along (watch (clockStep libs) (Stamps.after libs)) Timely (clockInit grants rand) es) :
    Along (watch (clockStep libs) (Stamps.after libs)) PingsOnTime (clockInit grants rand) es := by
  refine @along_of_inv _ _ _ Timely PingsOnTime StampInv (fun p e q hI _ hs => ?_)
    (fun p e hI hC => pingsOnTime_of_inv hI hC) _ _ (stampInv_init grants rand) h
  obtain ⟨hs, hg⟩ := watch_eq_some.mp hs
  have hI' := stampInv_of_step hI hs
  rwa [← hg] at hI'

/-! ## Short intervals -/

/-- A pass of the task. -/
def Event.polls : Event → Bool
  | .wsTask _ => true
  | _ => false

/-- The client is polled within a second of the last poll. -/
def Prompt (p : Clocked × Stamps) (e : Nat × Event) : Prop :=
  (e.2.at (p.1.time + e.1)).polls = true → p.1.time + e.1 ≤ p.2.polled + coreTimerFrequency

/-- On a connection it is polled with an interval up to 40 s. -/
def Modest (p : Clocked × Stamps) (e : Nat × Event) : Prop :=
  (e.2.at (p.1.time + e.1)).polls = true → p.1.world.ws.state = .connectionEstablished →
    p.1.world.ws.activityTimeout.toNat ∈ Set.Icc 1 40 ∧ Current p e

instance (p : Clocked × Stamps) (e : Nat × Event) : Decidable (Prompt p e) :=
  inferInstanceAs (Decidable (_ → _))

/-- On a connection the last poll was within 41 s of `ts`, or before the silence. -/
def Near (p : Clocked × Stamps) : Prop :=
  p.1.world.ws.state = .connectionEstablished →
    p.2.polled ≤ p.2.last ∨ p.2.polled < p.2.written + 4100000000

section Modest

variable {libs : Libs} {p q : Clocked × Stamps} {e : Nat × Event}

/-- A poll that is not past the interval, or comes soon after one that was not. -/
theorem near_turn (hN : Near p) (hpoll : p.1.time + e.1 ≤ p.2.polled + coreTimerFrequency)
    (hst : p.1.world.ws.state = .connectionEstablished)
    (hC : p.1.world.ws.activityTimeout.toNat ∈ Set.Icc 1 40 ∧ Current p e) :
    p.1.time + e.1 - p.2.written < 4294967296 := by
  obtain ⟨⟨hone, hforty⟩, hcurrent⟩ := hC
  have hdue : 200000000 ≤ p.1.world.due ∧ p.1.world.due ≤ 4100000000 := by
    unfold World.due coreTimerFrequency
    omega
  unfold coreTimerFrequency at hpoll
  rcases hN hst with hbefore | hnear
  · by_contra hturn
    have hlate := hcurrent (by omega)
    omega
  · omega

theorem timely_of_near (hN : Near p) (hP : Prompt p e) (hC : Modest p e) : Timely p e := by
  intro hidle
  obtain ⟨io, hev, hst, -, -⟩ := idles_wsTask hidle
  have hpolls : (e.2.at (p.1.time + e.1)).polls = true := by rw [hev, Event.polls]
  exact ⟨.inl (near_turn hN (hP hpolls) hst (hC hpolls hst)), (hC hpolls hst).2⟩

/-- A timely poll that finds no data and does not ping is not past the interval. -/
theorem lt_due_of_silent {c : Clocked} {g : Stamps} {io : WsIo} {e : Nat × Event}
    (hI : StampInv (c, g)) (hC : Timely (c, g) e)
    (hev : e.2.at (c.time + e.1) = .wsTask io) (hidle : idles c.world (.wsTask io) = true)
    (hquiet : pingDue io c.world = false) :
    c.time + e.1 - g.written < c.world.due := by
  rw [← hev] at hidle
  have honTime := pingsOnTime_of_inv hI hC hidle
  obtain ⟨-, hcurrent⟩ := hC hidle
  by_contra hlate
  have hdue : (c.world.ws.activityTimeout.toNat + 1) * coreTimerFrequency ≤
      c.time + e.1 - g.last := hcurrent (Nat.not_lt.mp hlate)
  have hping := honTime.mpr ((Nat.le_div_iff_mul_le (by decide)).mpr hdue)
  dsimp only at hping
  rw [hev, sends, hquiet] at hping
  cases hping

theorem near_of_step {c c' : Clocked} {g : Stamps} (hI : StampInv (c, g)) (hN : Near (c, g))
    (hP : Prompt (c, g) e) (hC : Modest (c, g) e) (hs : clockStep libs c e = some c') :
    Near (c', g.after libs c e) := by
  obtain ⟨w', hw, rfl⟩ := Option.map_eq_some_iff.mp hs
  intro hest
  have hsilent := @lt_due_of_silent c g
  unfold Stamps.after
  dsimp only at hest ⊢
  by_cases htask : ∃ io, e.2.at (c.time + e.1) = .wsTask io
  · obtain ⟨io, hev⟩ := htask
    have hpolls : (e.2.at (c.time + e.1)).polls = true := by rw [hev, Event.polls]
    rw [hev] at hw ⊢
    obtain rfl := Option.some.inj hw
    show c.time + e.1 ≤ (if _ then c.time + e.1 else g.last) ∨
      c.time + e.1 < (if _ then c.time + e.1 else g.written) + 4100000000
    by_cases hnew : hears io c.world = true ∨ pingDue io c.world = true
    · exact .inl (by rw [if_pos (.inr hnew)])
    · rcases wsClientTask_established hest with hst | hst
      · obtain ⟨⟨hone, hforty⟩, -⟩ := hC hpolls hst
        dsimp only at hone hforty
        have hset : 0 < c.world.ws.activityTimeout := UInt32.lt_iff_toNat_lt.mpr hone
        have hnil : (c.world.read io).1 = [] := by
          by_contra hne
          exact hnew (.inl (decide_eq_true ⟨hst, hne⟩))
        have hquiet : pingDue io c.world = false := by
          cases hping : pingDue io c.world with
          | false => rfl
          | true => exact absurd (.inr hping) hnew
        have hlt := hsilent hI (timely_of_near hN hP hC) hev (decide_eq_true ⟨hst, hnil, hset⟩)
          hquiet
        have hopen : c.world.ws.state ≠ .close := by
          rw [hst]
          rintro ⟨⟩
        right
        rw [if_neg fun h => h.elim hopen hnew]
        have hdue : c.world.due ≤ 4100000000 := by
          unfold World.due coreTimerFrequency
          omega
        omega
      · have hacc : accepts libs io c.world = true := decide_eq_true ⟨hst, hest⟩
        exact .inl (by rw [if_pos (.inl hacc)])
  · have hev : ∀ io, e.2.at (c.time + e.1) ≠ .wsTask io := fun io h => htask ⟨io, h⟩
    have hnote : g.note libs (c.time + e.1) c.world (e.2.at (c.time + e.1)) = g := by
      generalize e.2.at (c.time + e.1) = ev at hev
      cases ev with
      | wsTask io => exact absurd rfl (hev io)
      | _ => rfl
    rw [hnote]
    exact hN ((quiet_of_step hev hw).2 hest)

end Modest

/-- **With polls a second apart and intervals up to 40 s** the counter does not come round. -/
theorem timely_of_modest (libs : Libs) (grants : Nat → Bool) (rand : Nat → UInt32)
    {es : List (Nat × Event)}
    (h : Along (watch (clockStep libs) (Stamps.after libs)) (fun p e => Prompt p e ∧ Modest p e)
      (clockInit grants rand) es) :
    Along (watch (clockStep libs) (Stamps.after libs)) Timely (clockInit grants rand) es := by
  refine @along_of_inv _ _ _ (fun p e => Prompt p e ∧ Modest p e) Timely
    (fun p => StampInv p ∧ Near p) (fun p e q hI hC hs => ?_)
    (fun p e hI hC => timely_of_near hI.2 hC.1 hC.2) _ _
    ⟨stampInv_init grants rand, by rintro ⟨⟩⟩ h
  obtain ⟨hs, hg⟩ := watch_eq_some.mp hs
  have hI' := stampInv_of_step hI.1 hs
  have hN' := near_of_step hI.1 hI.2 hC.1 hC.2 hs
  rw [← hg] at hI' hN'
  exact ⟨hI', hN'⟩

/-! ## Two silences -/

/-- A second later the client is polled. -/
def secondPoll : Nat × Event := (100000000, .wsTask ⟨0, 2047, []⟩)

/-- The connection is established and pinged after so many seconds; then nothing comes. -/
def silence (interval : UInt32) (seconds : Nat) : List (Nat × Event) :=
  accepted.map (fun e => (0, e)) ++
    (0, .wsSetPing (ascii "ping") interval) :: List.replicate seconds secondPoll

theorem pingsOnTime_five : Along (watch (clockStep (answering (ascii "upgrade")))
      (Stamps.after (answering (ascii "upgrade")))) PingsOnTime
    (clockInit (fun _ => true) sampleRand) (silence 5 7) :=
  pingsOnTime_of_timely _ _ _ (by decide +kernel)

/-- With an interval of 50 s nothing is sent after 51 s. -/
theorem not_pingsOnTime : ¬ ∀ (es : List (Nat × Event)),
    Along (watch (clockStep (answering (ascii "upgrade")))
      (Stamps.after (answering (ascii "upgrade")))) Prompt
      (clockInit (fun _ => true) sampleRand) es →
    Along (watch (clockStep (answering (ascii "upgrade")))
      (Stamps.after (answering (ascii "upgrade")))) PingsOnTime
      (clockInit (fun _ => true) sampleRand) es := by
  intro hall
  have hprompt : Along (watch (clockStep (answering (ascii "upgrade")))
      (Stamps.after (answering (ascii "upgrade")))) Prompt
      (clockInit (fun _ => true) sampleRand) (silence 50 51) := by decide +kernel
  have hwrong : ¬ Along (watch (clockStep (answering (ascii "upgrade")))
      (Stamps.after (answering (ascii "upgrade")))) PingsOnTime
      (clockInit (fun _ => true) sampleRand) (silence 50 51) := by decide +kernel
  exact hwrong (hall _ hprompt)

end Rastreo.Net
