import Mathlib

/-!
# Runs of a labelled step

A machine here is a partial step `σ → ε → Option σ` over events `ε`: `none` when the event cannot
happen in that state. `run` follows a list of events, and `Along C` says that every step of the
run satisfies `C`, a condition on the state before the step and its event.

Rules:
* `inv_of_run`: an invariant that every step meeting `C` preserves holds at the end of every run
  along `C`; `along_of_inv` turns it into a property `P` of every step of the run.
* `along_iff_of_inv`: a condition that every sound step must meet, and that keeps an invariant
  with which states are sound, is met along a run exactly when the run passes only sound states.
* `rel_of_runs`: a relation two machines preserve event by event holds at the ends of two runs
  whose events are pairwise related (`List.Forall₂`).
* `run_append`, `along_append`: runs compose.
* `watch`: the machine with a history variable, which changes no run (`run_watch`).
-/

namespace Rastreo.Lib

variable {σ τ ε δ γ : Type*}

/-- The events of the list in order; `none` as soon as one cannot happen. -/
def run (step : σ → ε → Option σ) : σ → List ε → Option σ
  | s, [] => some s
  | s, e :: es => (step s e).bind fun s' => run step s' es

/-- Every step of the run from `s` satisfies `C`. -/
def Along (step : σ → ε → Option σ) (C : σ → ε → Prop) : σ → List ε → Prop
  | _, [] => True
  | s, e :: es => C s e ∧ ∀ s', step s e = some s' → Along step C s' es

/-- A condition that can be tested can be tested along a run. -/
instance Along.decidable {step : σ → ε → Option σ} {C : σ → ε → Prop} [∀ s e, Decidable (C s e)] :
    ∀ (s : σ) (es : List ε), Decidable (Along step C s es)
  | _, [] => .isTrue trivial
  | s, e :: es =>
    match h : step s e with
    | none => decidable_of_iff (C s e) ⟨fun hC => ⟨hC, by simp [h]⟩, And.left⟩
    | some s' =>
      have := @Along.decidable step C _ s' es
      decidable_of_iff (C s e ∧ Along step C s' es)
        ⟨fun hC => ⟨hC.1, fun s₁ hs => Option.some.inj (h.symm.trans hs) ▸ hC.2⟩,
         fun hC => ⟨hC.1, hC.2 s' h⟩⟩

section Rules

variable {step : σ → ε → Option σ} {C P : σ → ε → Prop} {I : σ → Prop}

@[simp] theorem run_nil (s : σ) : run step s [] = some s := rfl

theorem run_cons {s s' : σ} {e : ε} {es : List ε} :
    run step s (e :: es) = some s' ↔ ∃ s₁, step s e = some s₁ ∧ run step s₁ es = some s' := by
  rw [run, Option.bind_eq_some_iff]

theorem run_append {s : σ} {es₁ es₂ : List ε} :
    run step s (es₁ ++ es₂) = (run step s es₁).bind fun s' => run step s' es₂ := by
  induction es₁ generalizing s with
  | nil => rfl
  | cons e es ih =>
    rw [List.cons_append, run, run, Option.bind_assoc]
    exact Option.bind_congr fun s' _ => ih

theorem along_append {s s' : σ} {es₁ es₂ : List ε} (h₁ : Along step C s es₁)
    (hr : run step s es₁ = some s') (h₂ : Along step C s' es₂) :
    Along step C s (es₁ ++ es₂) := by
  induction es₁ generalizing s with
  | nil => obtain rfl := Option.some.inj hr; exact h₂
  | cons e es ih =>
    obtain ⟨s₁, hs, hr⟩ := run_cons.mp hr
    refine ⟨h₁.1, fun s₂ hs₂ => ?_⟩
    obtain rfl := Option.some.inj (hs.symm.trans hs₂)
    exact ih (h₁.2 _ hs) hr

theorem along_of_append {s s' : σ} {es₁ es₂ : List ε} (h : Along step C s (es₁ ++ es₂))
    (hr : run step s es₁ = some s') : Along step C s' es₂ := by
  induction es₁ generalizing s with
  | nil => obtain rfl := Option.some.inj hr; exact h
  | cons e es ih =>
    obtain ⟨s₁, hs, hr⟩ := run_cons.mp hr
    exact ih (h.2 _ hs) hr

/-- The last step of a run. -/
theorem along_last {s s' : σ} {es : List ε} {e : ε} (h : Along step C s (es ++ [e]))
    (hr : run step s (es ++ [e]) = some s') :
    ∃ s₀, run step s es = some s₀ ∧ step s₀ e = some s' ∧ C s₀ e := by
  rw [run_append, Option.bind_eq_some_iff] at hr
  obtain ⟨s₀, hr₀, hr⟩ := hr
  obtain ⟨s₁, hs, hr⟩ := run_cons.mp hr
  obtain rfl := Option.some.inj hr
  exact ⟨s₀, hr₀, hs, (along_of_append h hr₀).1⟩

theorem along_mono (hCP : ∀ s e, C s e → P s e) :
    ∀ {s : σ} {es : List ε}, Along step C s es → Along step P s es
  | _, [], _ => trivial
  | _, _ :: _, h => ⟨hCP _ _ h.1, fun s' hs => along_mono hCP (h.2 s' hs)⟩

theorem along_true : ∀ {s : σ} {es : List ε}, Along step (fun _ _ => True) s es
  | _, [] => trivial
  | _, _ :: _ => ⟨trivial, fun _ _ => along_true⟩

theorem along_of_mem : ∀ {s : σ} {es : List ε}, (∀ e ∈ es, ∀ s, C s e) → Along step C s es
  | _, [], _ => trivial
  | s, e :: _, h => ⟨h e List.mem_cons_self s, fun _ _ => along_of_mem fun e' he' =>
      h e' (List.mem_cons_of_mem e he')⟩

/-- **Invariant rule**: what every step meeting `C` preserves holds at the end of a run along
`C`. -/
theorem inv_of_run (hstep : ∀ s e s', I s → C s e → step s e = some s' → I s') {s s' : σ}
    {es : List ε} (hI : I s) (hC : Along step C s es) (hr : run step s es = some s') : I s' := by
  induction es generalizing s with
  | nil => exact Option.some.inj hr ▸ hI
  | cons e es ih =>
    obtain ⟨s₁, hs, hr⟩ := run_cons.mp hr
    exact ih (hstep s e s₁ hI hC.1 hs) (hC.2 s₁ hs) hr

/-- **Step rule**: with an invariant, a condition met along the run gives a property of every
step of the run. -/
theorem along_of_inv (hstep : ∀ s e s', I s → C s e → step s e = some s' → I s')
    (hP : ∀ s e, I s → C s e → P s e) :
    ∀ {s : σ} {es : List ε}, I s → Along step C s es → Along step P s es
  | _, [], _, _ => trivial
  | s, e :: _, hI, h =>
    ⟨hP s e hI h.1, fun s' hs => along_of_inv hstep hP (hstep s e s' hI h.1 hs) (h.2 s' hs)⟩

/-- **Exact condition rule**: along a run that happens, the steps all meet `C` exactly when the
states it passes are all in `Q`, where `C` keeps an invariant that gives `Q`, and no step that
ends in `Q` goes against `C`. -/
theorem along_iff_of_inv {Q : σ → Prop} (hstep : ∀ s e s', I s → C s e → step s e = some s' → I s')
    (hQ : ∀ s, I s → Q s) (hC : ∀ s e s', I s → step s e = some s' → Q s' → C s e) {s s' : σ}
    {es : List ε} (hI : I s) (hr : run step s es = some s') :
    Along step C s es ↔
      ∀ es₁ es₂ s₁, es = es₁ ++ es₂ → run step s es₁ = some s₁ → Q s₁ := by
  induction es generalizing s with
  | nil =>
    refine ⟨fun _ es₁ es₂ s₁ hes hs₁ => ?_, fun _ => trivial⟩
    obtain ⟨rfl, -⟩ := List.append_eq_nil_iff.mp hes.symm
    obtain rfl := Option.some.inj hs₁
    exact hQ s hI
  | cons e es ih =>
    obtain ⟨t, ht, hr⟩ := run_cons.mp hr
    constructor
    · intro h es₁ es₂ s₁ hes hs₁
      cases es₁ with
      | nil =>
        obtain rfl := Option.some.inj hs₁
        exact hQ s hI
      | cons d ds =>
        obtain ⟨rfl, rfl⟩ := List.cons.inj hes
        obtain ⟨t', ht', hs₁⟩ := run_cons.mp hs₁
        obtain rfl := Option.some.inj (ht.symm.trans ht')
        exact (ih (hstep s e t hI h.1 ht) hr).mp (h.2 t ht) ds es₂ s₁ rfl hs₁
    · intro h
      have hCe : C s e := hC s e t hI ht (h [e] es t rfl (by rw [run, ht]; rfl))
      refine ⟨hCe, fun t' ht' => ?_⟩
      obtain rfl := Option.some.inj (ht.symm.trans ht')
      refine (ih (hstep s e t hI hCe ht) hr).mpr fun es₁ es₂ s₁ hes hs₁ => ?_
      exact h (e :: es₁) es₂ s₁ (by rw [hes, List.cons_append]) (run_cons.mpr ⟨t, ht, hs₁⟩)

end Rules

/-- **Lock-step rule**: two machines whose related events preserve `R` end related runs in
related states. -/
theorem rel_of_runs {step₁ : σ → ε → Option σ} {step₂ : τ → δ → Option τ} {E : ε → δ → Prop}
    {R : σ → τ → Prop}
    (hstep : ∀ s t e d s' t', R s t → E e d → step₁ s e = some s' → step₂ t d = some t' → R s' t')
    {s s' : σ} {t t' : τ} {es : List ε} {ds : List δ} (hR : R s t) (hE : List.Forall₂ E es ds)
    (hs : run step₁ s es = some s') (ht : run step₂ t ds = some t') : R s' t' := by
  induction hE generalizing s t with
  | nil => exact Option.some.inj hs ▸ Option.some.inj ht ▸ hR
  | cons hed _ ih =>
    obtain ⟨s₁, hs₁, hs⟩ := run_cons.mp hs
    obtain ⟨t₁, ht₁, ht⟩ := run_cons.mp ht
    exact ih (hstep _ _ _ _ _ _ hR hed hs₁ ht₁) hs ht

/-! ## History variables -/

/-- The machine, and what `after` remembers of its run. -/
def watch (step : σ → ε → Option σ) (after : σ → ε → γ → γ) : σ × γ → ε → Option (σ × γ) :=
  fun p e => (step p.1 e).map fun s' => (s', after p.1 e p.2)

section Watch

variable {step : σ → ε → Option σ} {after : σ → ε → γ → γ}

theorem watch_eq_some {p q : σ × γ} {e : ε} :
    watch step after p e = some q ↔ step p.1 e = some q.1 ∧ q.2 = after p.1 e p.2 := by
  obtain ⟨s', g'⟩ := q
  unfold watch
  rw [Option.map_eq_some_iff]
  constructor
  · rintro ⟨s₁, hs, hq⟩
    obtain ⟨rfl, rfl⟩ := Prod.mk.inj hq
    exact ⟨hs, rfl⟩
  · rintro ⟨hs, rfl⟩
    exact ⟨s', hs, rfl⟩

/-- **A history variable changes no run.** -/
theorem run_watch (s : σ) (g : γ) (es : List ε) :
    (run (watch step after) (s, g) es).map Prod.fst = run step s es := by
  induction es generalizing s g with
  | nil => rfl
  | cons e es ih =>
    rw [run, run, watch, Option.bind_map]
    cases hs : step s e with
    | none => rfl
    | some s' => exact ih s' _

end Watch

end Rastreo.Lib
