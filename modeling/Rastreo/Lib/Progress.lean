import Mathlib.Data.List.Basic

/-!
# Passes that make progress

A system is run by passes that each find some input. Some passes are ready: there a step that waits
is done. `Leads n s s'`: every list of passes with `n` ready ones comes from `s` through `s'`, and
uses up at most `n` ready passes for it.

* `Leads.step`: a step that no pass holds up.
* `Leads.wait`: a step that a pass which is not ready holds up.
* `Leads.trans`: one after the other.
* `Leads.rest`: where every pass leaves the state alone, the state stays.
-/

namespace Rastreo.Lib

variable {σ ι : Type*}

/-- The passes in order. -/
def passes (f : ι → σ → σ) (s : σ) (xs : List ι) : σ := xs.foldl (fun s x => f x s) s

theorem passes_append (f : ι → σ → σ) (s : σ) (xs ys : List ι) :
    passes f s (xs ++ ys) = passes f (passes f s xs) ys := List.foldl_append

theorem passes_cons (f : ι → σ → σ) (s : σ) (x : ι) (xs : List ι) :
    passes f s (x :: xs) = passes f (f x s) xs := rfl

/-- `n` ready passes lead from `s` through `s'`. -/
def Leads (f : ι → σ → σ) (P : ι → Prop) (ready : ι → Bool) (n : Nat) (s s' : σ) : Prop :=
  ∀ xs : List ι, (∀ x ∈ xs, P x) → n ≤ xs.countP ready →
    ∃ as bs, xs = as ++ bs ∧ passes f s as = s' ∧ xs.countP ready ≤ n + bs.countP ready

section Rules

variable {f : ι → σ → σ} {P : ι → Prop} {ready : ι → Bool} {m n : Nat} {s s' s'' : σ}

theorem Leads.wait (h : ∀ x, P x → f x s = s' ∨ (ready x = false ∧ f x s = s)) :
    Leads f P ready 1 s s' := by
  intro xs hxs hn
  induction xs with
  | nil => cases hn
  | cons x xs ih =>
    rcases h x (hxs x List.mem_cons_self) with hx | ⟨hbusy, hx⟩
    · refine ⟨[x], xs, rfl, hx, ?_⟩
      rw [List.countP_cons]
      split <;> omega
    · rw [List.countP_cons_of_neg (by simp [hbusy])] at hn
      obtain ⟨as, bs, rfl, has, hcount⟩ := ih (fun y hy => hxs y (List.mem_cons_of_mem _ hy)) hn
      refine ⟨x :: as, bs, rfl, ?_, ?_⟩
      · rw [passes_cons, hx, has]
      · rw [List.countP_cons_of_neg (by simp [hbusy])]
        exact hcount

theorem Leads.step (h : ∀ x, P x → f x s = s') : Leads f P ready 1 s s' :=
  .wait fun x hx => .inl (h x hx)

theorem Leads.trans (h : Leads f P ready m s s') (h' : Leads f P ready n s' s'') :
    Leads f P ready (m + n) s s'' := by
  intro xs hxs hn
  obtain ⟨as, bs, rfl, has, hcount⟩ := h xs hxs (by omega)
  obtain ⟨cs, ds, rfl, hcs, hcount'⟩ :=
    h' bs (fun x hx => hxs x (List.mem_append_right _ hx)) (by omega)
  refine ⟨as ++ cs, ds, (List.append_assoc _ _ _).symm, ?_, by omega⟩
  rw [passes_append, has, hcs]

theorem passes_rest (h : ∀ x, P x → f x s = s) {xs : List ι} (hxs : ∀ x ∈ xs, P x) :
    passes f s xs = s := by
  induction xs with
  | nil => rfl
  | cons x xs ih =>
    rw [passes_cons, h x (hxs x List.mem_cons_self)]
    exact ih fun y hy => hxs y (List.mem_cons_of_mem _ hy)

/-- **The end of the way**: enough ready passes lead there, and no pass leads on. -/
theorem Leads.rest (h : Leads f P ready n s s') (hrest : ∀ x, P x → f x s' = s') {xs : List ι}
    (hxs : ∀ x ∈ xs, P x) (hn : n ≤ xs.countP ready) : passes f s xs = s' := by
  obtain ⟨as, bs, rfl, has, -⟩ := h xs hxs hn
  rw [passes_append, has]
  exact passes_rest hrest fun x hx => hxs x (List.mem_append_right _ hx)

end Rules

end Rastreo.Lib
