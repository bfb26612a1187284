import Rastreo.Lib.Run
import Rastreo.Simcom.Position

/-!
# The server and the page (`server.py`, `index.html`)

The server keeps the last position it was sent. The page asks for it every five seconds; an answer is
taken when it comes, also behind a later one. The marker is then moved in twenty steps, each from a
timer of the one before, so that an answer may come while it is still being moved.

Numbers are exact here, where Python and JavaScript round.

* **`shown_of_run`**: however answers and timers come, what the page shows is what the server starts
  with, or a record that was posted; but no record that has a coordinate with two signs.
* **`moved_short`**: `animateMarkerTo` ends a twentieth of the way before the position.
* **`marker_of_run`**: so, while each move ends before the next answer comes and no position is
  further than `d` from the one before, the marker is at most `d / 19` away.
-/

namespace Rastreo.Web

open Rastreo.Lib Rastreo.Simcom

/-! ## The page -/

/-- A position on the map. -/
@[ext] structure Pos where
  lat : ℚ
  lng : ℚ
  deriving DecidableEq

/-- What `getCustomIcon` returns. -/
inductive Icon
  | arrow (strokeColor : String) (rotation : Int)
  | circle
  deriving DecidableEq

/-- `getCustomIcon`. -/
def getCustomIcon (heading : Int) (speed : ℚ) : Icon :=
  if speed > 1 then .arrow (if speed > 6 then "#dc3545" else "#ffc107") heading else .circle

/-- The closure `move` of `animateMarkerTo`, which waits for its timer. -/
structure Move where
  startPos : Pos
  delta : Pos
  step : Nat

/-- `steps` of `animateMarkerTo`. -/
def steps : Nat := 20

/-- What the page shows, and what it remembers. -/
structure Page where
  /-- `marker.getPosition()`. -/
  marker : Pos := ⟨0, 0⟩
  icon : Icon := getCustomIcon 0 0
  center : Pos := ⟨0, 0⟩
  lastPosition : Option Pos := none
  /-- The numbers in `info-posicion`. -/
  info : Option Posicion := none
  /-- The moves whose timers run. -/
  moves : List Move := []

namespace Page

/-- `move`, of which nothing waits any more. -/
def move (p : Page) (m : Move) : Page :=
  if m.step ≥ steps then p
  else
    { p with
      marker := ⟨m.startPos.lat + m.delta.lat * m.step, m.startPos.lng + m.delta.lng * m.step⟩
      moves := p.moves ++ [{ m with step := m.step + 1 }] }

/-- `animateMarkerTo`. -/
def animateMarkerTo (p : Page) (newPosition : Pos) : Page :=
  p.move
    { startPos := p.marker
      delta := ⟨(newPosition.lat - p.marker.lat) / steps, (newPosition.lng - p.marker.lng) / steps⟩
      step := 0 }

/-- `fetchAndUpdate`, when the answer has come. -/
def update (p : Page) (data : Posicion) : Page :=
  let newPos : Pos := ⟨data.lat, data.lon⟩
  let p := { p with info := some data }
  if p.lastPosition ≠ some newPos then
    { ({ p with center := newPos }.animateMarkerTo newPos) with
      icon := getCustomIcon data.dir data.vel
      lastPosition := some newPos }
  else p

end Page

/-! ## The server and the page -/

/-- The server, the answers that are under way, and the page. -/
structure System where
  /-- `posicion_actual`. -/
  server : Posicion := ⟨0, 0, 0, 0⟩
  answers : List Posicion := []
  page : Page := {}

/-- What happens: the tracker posts a record, the page asks for the position, the `i`-th answer under
way is there, the `i`-th timer ends. -/
inductive Event
  | post (g : GpsInfo)
  | fetch
  | answer (i : Nat)
  | timer (i : Nat)

/-- The answer, or the timer, must be one that is waited for. -/
def step (s : System) : Event → Option System
  -- a body that is refused changes nothing
  | .post g => some { s with server := (posicion (gpsInfoToString g)).getD s.server }
  | .fetch => some { s with answers := s.answers ++ [s.server] }
  | .answer i => s.answers[i]?.map fun data =>
      { s with answers := s.answers.eraseIdx i, page := s.page.update data }
  | .timer i => s.page.moves[i]?.map fun m =>
      { s with page := { s.page with moves := s.page.moves.eraseIdx i }.move m }

variable {s t : System} {es : List Event} {d : ℚ}

/-! ## What is shown was posted -/

/-- Nothing but these positions is anywhere. -/
structure System.From (ps : Posicion → Prop) (s : System) : Prop where
  server : ps s.server
  answers : ∀ data ∈ s.answers, ps data
  info : ∀ data ∈ s.page.info, ps data
  last : ∀ pos ∈ s.page.lastPosition, ∃ data, ps data ∧ pos = ⟨data.lat, data.lon⟩

@[simp] theorem Page.info_move (p : Page) (m : Move) : (p.move m).info = p.info := by
  unfold Page.move
  split <;> rfl

@[simp] theorem Page.lastPosition_move (p : Page) (m : Move) :
    (p.move m).lastPosition = p.lastPosition := by
  unfold Page.move
  split <;> rfl

theorem Page.info_update (p : Page) (data : Posicion) : (p.update data).info = some data := by
  unfold Page.update
  dsimp only
  split
  · exact Page.info_move _ _
  · rfl

theorem Page.lastPosition_update (p : Page) (data : Posicion) :
    (p.update data).lastPosition = some ⟨data.lat, data.lon⟩ := by
  unfold Page.update
  dsimp only
  split
  · rfl
  · rename_i h
    exact not_not.mp h

theorem System.From.step {ps : Posicion → Prop} {e : Event} (h : s.From ps)
    (hpost : ∀ g, e = .post g → ∀ data ∈ posicion (gpsInfoToString g), ps data)
    (hstep : step s e = some t) : t.From ps := by
  cases e with
  | post g =>
    have hdata := hpost g rfl
    unfold Web.step at hstep
    dsimp only at hstep
    generalize posicion (gpsInfoToString g) = body at hdata hstep
    obtain rfl := Option.some.inj hstep
    refine ⟨?_, h.answers, h.info, h.last⟩
    cases body with
    | none => exact h.server
    | some data => exact hdata data rfl
  | fetch =>
    obtain rfl := Option.some.inj hstep
    refine { h with answers := fun data hdata => ?_ }
    rcases List.mem_append.mp hdata with hdata | hdata
    · exact h.answers data hdata
    · rw [List.mem_singleton.mp hdata]
      exact h.server
  | answer i =>
    obtain ⟨data, hdata, rfl⟩ := Option.map_eq_some_iff.mp hstep
    have hmem := h.answers data (List.mem_of_getElem? hdata)
    refine ⟨h.server, fun x hx => h.answers x (List.mem_of_mem_eraseIdx hx), fun x hx => ?_, fun pos hpos => ?_⟩
    · rw [Page.info_update] at hx
      rwa [← Option.some.inj hx]
    · rw [Page.lastPosition_update] at hpos
      exact ⟨data, hmem, (Option.some.inj hpos).symm⟩
  | timer i =>
    obtain ⟨m, -, rfl⟩ := Option.map_eq_some_iff.mp hstep
    refine ⟨h.server, h.answers, fun x hx => h.info x ?_, fun pos hpos => h.last pos ?_⟩
    · rwa [Page.info_move] at hx
    · rwa [Page.lastPosition_move] at hpos

/-- Read from the text of this record, or what the server starts with. -/
def Posted (es : List Event) (data : Posicion) : Prop :=
  data = ⟨0, 0, 0, 0⟩ ∨ ∃ g, .post g ∈ es ∧ ¬ SignTwice g.lat.toInt ∧ ¬ SignTwice g.lon.toInt ∧
    data = ⟨coordVal g.lat.toInt, coordVal g.lon.toInt, g.speed.toNat / 10, g.course.toNat⟩

/-- **What the page shows was posted.** -/
theorem shown_of_run (hrun : run step {} es = some t) :
    (∀ data ∈ t.page.info, Posted es data) ∧
      ∀ pos ∈ t.page.lastPosition, ∃ data, Posted es data ∧ pos = ⟨data.lat, data.lon⟩ := by
  have hinit : System.From (Posted es) {} := ⟨.inl rfl, by simp, by simp, by simp⟩
  have hposts : Along step (fun _ e => ∀ g, e = .post g →
      ∀ data ∈ posicion (gpsInfoToString g), Posted es data) {} es := by
    refine along_of_mem fun e he _ g hg data hdata => ?_
    rw [posicion_gpsInfoToString] at hdata
    split at hdata
    · cases hdata
    · rename_i hsigns
      rw [not_or] at hsigns
      exact .inr ⟨g, hg ▸ he, hsigns.1, hsigns.2, (Option.some.inj hdata).symm⟩
  have hfrom := inv_of_run (fun _ _ _ h hpost hstep => h.step hpost hstep) hinit hposts hrun
  exact ⟨hfrom.info, hfrom.last⟩

/-- A record on the equator is posted, asked for and shown. -/
def drive : List Event :=
  [.post ⟨0, 10000000, 90, 5⟩, .fetch, .answer 0] ++ List.replicate 20 (.timer 0)

theorem shown_of_drive : ∃ t, run step {} drive = some t ∧ t.page.lastPosition = some ⟨0, 10⟩ ∧
    ∀ data ∈ t.page.info, Posted drive data := by
  have hends : (run step {} drive).map (fun t => t.page.lastPosition) = some (some ⟨0, 10⟩) := by
    decide +kernel
  obtain ⟨t, ht, hlast⟩ := Option.map_eq_some_iff.mp hends
  exact ⟨t, ht, hlast, (shown_of_run ht).1⟩

/-! ## Where the marker ends -/

/-- Neither coordinate is further away than `d`. -/
def Pos.Within (d : ℚ) (p q : Pos) : Prop := |p.lat - q.lat| ≤ d ∧ |p.lng - q.lng| ≤ d

instance (d : ℚ) (p q : Pos) : Decidable (Pos.Within d p q) := inferInstanceAs (Decidable (_ ∧ _))

/-- Where the marker is to be. -/
def Page.target (p : Page) : Pos := p.lastPosition.getD ⟨0, 0⟩

/-- A move on its way to `q`, with the marker at `p`; `d` bounds a step. -/
structure Move.Leads (d : ℚ) (p q : Pos) (m : Move) : Prop where
  begun : 1 ≤ m.step
  left : m.step ≤ steps
  marker : p = ⟨m.startPos.lat + m.delta.lat * (m.step - 1 : ℕ),
    m.startPos.lng + m.delta.lng * (m.step - 1 : ℕ)⟩
  target : q = ⟨m.startPos.lat + m.delta.lat * steps, m.startPos.lng + m.delta.lng * steps⟩
  short : |m.delta.lat| ≤ d ∧ |m.delta.lng| ≤ d

/-- The move to `q`, when its first step has been made. -/
def begun (p : Page) (q : Pos) : Move where
  startPos := p.marker
  delta := ⟨(q.lat - p.marker.lat) / steps, (q.lng - p.marker.lng) / steps⟩
  step := 1

/-- The first step leaves the marker where it is. -/
theorem animateMarkerTo_eq (p : Page) (q : Pos) :
    p.animateMarkerTo q = { p with moves := p.moves ++ [begun p q] } := by
  have hstart : (⟨p.marker.lat + (q.lat - p.marker.lat) / steps * (0 : ℕ),
      p.marker.lng + (q.lng - p.marker.lng) / steps * (0 : ℕ)⟩ : Pos) = p.marker := by
    simp
  have hfirst : ¬ 0 ≥ steps := by decide
  unfold Page.animateMarkerTo Page.move
  dsimp only
  rw [if_neg hfirst, hstart]
  rfl

/-- Of a new position. -/
theorem update_new {p : Page} {data : Posicion} (hnew : p.lastPosition ≠ some ⟨data.lat, data.lon⟩) :
    p.update data =
      { p with
        icon := getCustomIcon data.dir data.vel
        center := ⟨data.lat, data.lon⟩
        lastPosition := some ⟨data.lat, data.lon⟩
        info := some data
        moves := p.moves ++ [begun p ⟨data.lat, data.lon⟩] } := by
  unfold Page.update
  dsimp only
  rw [if_pos hnew, animateMarkerTo_eq]
  rfl

theorem step_timer {m : Move} (hmoves : s.page.moves = [m]) :
    step s (.timer 0) = some { s with page := { s.page with moves := [] }.move m } := by
  unfold step
  rw [hmoves]
  rfl

/-- The timers of a move. -/
theorem run_timers {m : Move} (k : Nat) (hk : m.step + k = steps) (hmoves : s.page.moves = [m])
    (hmarker : s.page.marker = ⟨m.startPos.lat + m.delta.lat * (m.step - 1 : ℕ),
      m.startPos.lng + m.delta.lng * (m.step - 1 : ℕ)⟩) :
    run step s (List.replicate (k + 1) (.timer 0)) =
      some { s with
        page := { s.page with
          marker := ⟨m.startPos.lat + m.delta.lat * (steps - 1 : ℕ),
            m.startPos.lng + m.delta.lng * (steps - 1 : ℕ)⟩
          moves := [] } } := by
  induction k generalizing s m with
  | zero =>
    have hend : m.step ≥ steps := hk.ge
    rw [Nat.add_zero] at hk
    rw [List.replicate_one, run, step_timer hmoves, Page.move, if_pos hend, ← hk, ← hmarker]
    rfl
  | succ k ih =>
    have hnext : m.step + 1 + k = steps := by omega
    rw [List.replicate_succ, run, step_timer hmoves, Page.move, if_neg (by omega), Option.bind_some]
    exact ih (m := { m with step := m.step + 1 }) hnext rfl (by rw [Nat.add_sub_cancel])

/-- **A move ends a twentieth of the way before the position**, and the page takes the position for the
marker's: it does not move it again while the position stays. -/
theorem moved_short {i : Nat} {data : Posicion} (hmoves : s.page.moves = [])
    (hdata : s.answers[i]? = some data) (hnew : s.page.lastPosition ≠ some ⟨data.lat, data.lon⟩) :
    ∃ t, run step s (.answer i :: List.replicate 20 (.timer 0)) = some t ∧ t.page.moves = [] ∧
      t.page.lastPosition = some ⟨data.lat, data.lon⟩ ∧
      t.page.marker = ⟨data.lat - (data.lat - s.page.marker.lat) / 20,
        data.lon - (data.lon - s.page.marker.lng) / 20⟩ := by
  have hanswer : step s (.answer i) =
      some { s with answers := s.answers.eraseIdx i, page := s.page.update data } := by
    unfold step
    dsimp only
    rw [hdata, Option.map_some]
  have hmoves' : (s.page.update data).moves = [begun s.page ⟨data.lat, data.lon⟩] := by
    rw [update_new hnew, hmoves]
    rfl
  have hmarker : (s.page.update data).marker = s.page.marker := by rw [update_new hnew]
  have hend : ∀ x z : ℚ, z + (x - z) / (steps : ℚ) * ((steps - 1 : ℕ) : ℚ) = x - (x - z) / 20 := by
    intro x z
    show z + (x - z) / ((20 : ℕ) : ℚ) * ((19 : ℕ) : ℚ) = _
    push_cast
    ring
  have htimers := run_timers (s := { s with answers := s.answers.eraseIdx i, page := s.page.update data })
    19 rfl hmoves' (by simp [hmarker, begun])
  rw [run, hanswer, Option.bind_some]
  refine ⟨_, htimers, rfl, Page.lastPosition_update _ _, ?_⟩
  dsimp only [begun]
  rw [hend, hend]

theorem moved_short_tenDegrees :
    ∃ t, run step { answers := [⟨0, 10, 1 / 2, 90⟩] } (.answer 0 :: List.replicate 20 (.timer 0)) = some t ∧
      t.page.moves = [] ∧ t.page.lastPosition = some ⟨0, 10⟩ ∧
      t.page.marker = ⟨0 - (0 - 0) / 20, 10 - (10 - 0) / 20⟩ := by
  have hdata : ({ answers := [⟨0, 10, 1 / 2, 90⟩] } : System).answers[0]? = some ⟨0, 10, 1 / 2, 90⟩ := rfl
  exact moved_short rfl hdata (by decide)

/-- The marker has been moved, or one move leads it. -/
def Page.Follows (d : ℚ) (p : Page) : Prop :=
  p.moves = [] ∧ Pos.Within d p.marker p.target ∨ ∃ m, p.moves = [m] ∧ m.Leads d p.marker p.target

/-- A twentieth of the way is left at the end. -/
theorem Move.Leads.within {p q : Pos} {m : Move} (h : m.Leads d p q) (hend : m.step = steps) :
    Pos.Within d p q := by
  have hlat : p.lat - q.lat = -m.delta.lat := by
    rw [h.marker, h.target, hend]
    show _ + _ * ((19 : ℕ) : ℚ) - (_ + _ * ((20 : ℕ) : ℚ)) = _
    push_cast
    ring
  have hlng : p.lng - q.lng = -m.delta.lng := by
    rw [h.marker, h.target, hend]
    show _ + _ * ((19 : ℕ) : ℚ) - (_ + _ * ((20 : ℕ) : ℚ)) = _
    push_cast
    ring
  unfold Pos.Within
  rw [hlat, hlng, abs_neg, abs_neg]
  exact h.short

/-- A timer of the only move. -/
theorem Page.Follows.timer {p : Page} {m : Move} (h : m.Leads d p.marker p.target) : ({ p with moves := [] }.move m).Follows d := by
  unfold Page.move
  split
  · rename_i hend
    exact .inl ⟨rfl, h.within (le_antisymm h.left hend)⟩
  · rename_i hstep
    refine .inr ⟨_, rfl, Nat.le_add_left 1 _, Nat.lt_of_not_le hstep, ?_, h.target, h.short⟩
    rw [Nat.add_sub_cancel]

/-- One coordinate of a new position, of the marker and of the position before. -/
theorem abs_step_le {x y z : ℚ} (hmarker : |z - y| ≤ d / 19) (hnew : |x - y| ≤ d) :
    |(x - z) / (steps : ℚ)| ≤ d / 19 := by
  have hsum : |x - z| ≤ d + d / 19 := by
    calc |x - z| = |(x - y) - (z - y)| := by ring_nf
      _ ≤ |x - y| + |z - y| := abs_sub _ _
      _ ≤ d + d / 19 := add_le_add hnew hmarker
  have hsteps : (steps : ℚ) = 20 := rfl
  rw [hsteps, abs_div, abs_of_pos (by norm_num : (0 : ℚ) < 20), div_le_iff₀ (by norm_num)]
  linarith

/-- A new position, no further than `d` from the one before. -/
theorem Page.Follows.update {p : Page} (hmoves : p.moves = []) (h : Pos.Within (d / 19) p.marker p.target)
    {data : Posicion} (hnear : Pos.Within d ⟨data.lat, data.lon⟩ p.target) :
    (p.update data).Follows (d / 19) := by
  by_cases hnew : p.lastPosition ≠ some ⟨data.lat, data.lon⟩
  · have hcancel : ∀ x z : ℚ, z + (x - z) / (steps : ℚ) * steps = x := by
      intro x z
      show z + (x - z) / ((20 : ℕ) : ℚ) * ((20 : ℕ) : ℚ) = x
      push_cast
      ring
    rw [update_new hnew]
    refine .inr ⟨_, congrArg (· ++ [_]) hmoves, le_rfl, (show 1 ≤ 20 by decide), by simp [begun], ?_,
      abs_step_le h.1 hnear.1, abs_step_le h.2 hnear.2⟩
    ext
    · exact (hcancel _ _).symm
    · exact (hcancel _ _).symm
  · unfold Page.update
    dsimp only
    rw [if_neg hnew]
    exact .inl ⟨hmoves, h⟩

/-- The page takes an answer when no timer runs, of a position no further than `d` from the one
before. -/
def Calm (d : ℚ) (s : System) : Event → Prop
  | .answer i => s.page.moves = [] ∧
      ∀ data ∈ s.answers[i]?, Pos.Within d ⟨data.lat, data.lon⟩ s.page.target
  | _ => True

instance (d : ℚ) (s : System) : ∀ e, Decidable (Calm d s e)
  | .answer i =>
    match h : s.answers[i]? with
    | none => decidable_of_iff (s.page.moves = []) (by simp [Calm, h])
    | some data => decidable_of_iff (s.page.moves = [] ∧ Pos.Within d ⟨data.lat, data.lon⟩ s.page.target)
        (by simp [Calm, h])
  | .post _ | .fetch | .timer _ => .isTrue trivial

theorem Page.Follows.step {e : Event} (h : s.page.Follows (d / 19)) (hcalm : Calm d s e)
    (hstep : step s e = some t) : t.page.Follows (d / 19) := by
  cases e with
  | post g =>
    unfold Web.step at hstep
    obtain rfl := Option.some.inj hstep
    exact h
  | fetch =>
    obtain rfl := Option.some.inj hstep
    exact h
  | answer i =>
    obtain ⟨data, hdata, rfl⟩ := Option.map_eq_some_iff.mp hstep
    obtain ⟨hmoves, hnear⟩ := hcalm
    rcases h with ⟨-, hwithin⟩ | ⟨m, hm, -⟩
    · exact .update hmoves hwithin (hnear data hdata)
    · rw [hmoves] at hm
      cases hm
  | timer i =>
    obtain ⟨m, hm, rfl⟩ := Option.map_eq_some_iff.mp hstep
    rcases h with ⟨hmoves, -⟩ | ⟨m', hmoves, hleads⟩
    · rw [hmoves] at hm
      cases hm
    · rw [hmoves, List.getElem?_singleton] at hm
      split at hm
      · rename_i hi
        obtain rfl := Option.some.inj hm
        rw [hmoves, hi]
        exact .timer hleads
      · cases hm

/-- **How far the marker is from the position**, once it has been moved. -/
theorem marker_of_run (hd : 0 ≤ d) (hcalm : Along step (Calm d) {} es) (hrun : run step {} es = some t)
    (hmoved : t.page.moves = []) : Pos.Within (d / 19) t.page.marker t.page.target := by
  have hinit : Page.Follows (d / 19) ({} : Page) := by
    refine .inl ⟨rfl, ?_⟩
    show |(0 : ℚ) - 0| ≤ d / 19 ∧ |(0 : ℚ) - 0| ≤ d / 19
    rw [sub_zero, abs_zero]
    exact ⟨by positivity, by positivity⟩
  have hfollows := inv_of_run (I := fun s : System => s.page.Follows (d / 19))
    (fun _ _ _ h hcalm hstep => h.step hcalm hstep) hinit hcalm hrun
  rcases hfollows with ⟨-, hwithin⟩ | ⟨m, hm, -⟩
  · exact hwithin
  · rw [hmoved] at hm
    cases hm

/-- The marker has stopped at nine and a half degrees. -/
theorem marker_of_drive : ∃ t, run step {} drive = some t ∧ t.page.marker = ⟨0, 19 / 2⟩ ∧
    Pos.Within (10 / 19) t.page.marker t.page.target := by
  have hends : (run step {} drive).map (fun t => (t.page.marker, t.page.moves.length)) =
      some (⟨0, 19 / 2⟩, 0) := by
    decide +kernel
  obtain ⟨t, ht, hpage⟩ := Option.map_eq_some_iff.mp hends
  obtain ⟨hmarker, hmoves⟩ := Prod.mk.inj hpage
  exact ⟨t, ht, hmarker,
    marker_of_run (by norm_num) (by decide +kernel) ht (List.length_eq_zero_iff.mp hmoves)⟩

end Rastreo.Web
