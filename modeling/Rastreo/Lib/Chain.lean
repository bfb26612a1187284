import Mathlib

/-!
# Chains of linked records

Records `δ` stand at references `ρ`, and each names the record behind it, if there is one (`next`).

* `follow` reads the records from a reference on, at most `n` of them.
* `Chain next mem r l`: the records from `r` to the last one are those of `l`.
* `follow_of_chain`: what is read of a chain that ends in time is the chain.
* `Chain.last`, `Chain.link`: a chain is built from its last record on.
-/

namespace Rastreo.Lib

variable {ρ δ : Type*}

/-- The records from a reference on, at most `n` of them. -/
def follow (next : δ → Option ρ) (mem : ρ → δ) : ℕ → Option ρ → List δ
  | 0, _ => []
  | _ + 1, none => []
  | n + 1, some r => mem r :: follow next mem n (next (mem r))

/-- The records from a reference to the last one. -/
inductive Chain (next : δ → Option ρ) (mem : ρ → δ) : Option ρ → List δ → Prop
  | nil : Chain next mem none []
  | cons (r : ρ) {l : List δ} (h : Chain next mem (next (mem r)) l) :
      Chain next mem (some r) (mem r :: l)

section Rules

variable {next : δ → Option ρ} {mem mem' : ρ → δ} {r r' : ρ} {l : List δ}

theorem Chain.last {x : δ} (hx : mem r = x) (hn : next x = none) :
    Chain next mem (some r) [x] := by
  subst hx
  apply Chain.cons
  rw [hn]
  exact Chain.nil

theorem Chain.link {x : δ} (hx : mem r = x) (hn : next x = some r')
    (hl : Chain next mem (some r') l) : Chain next mem (some r) (x :: l) := by
  subst hx
  apply Chain.cons
  rw [hn]
  exact hl

theorem follow_of_chain {o : Option ρ} {n : ℕ} (h : Chain next mem o l) (hn : l.length ≤ n) :
    follow next mem n o = l := by
  induction h generalizing n with
  | nil => cases n <;> rfl
  | cons r h ih =>
    cases n with
    | zero => simp at hn
    | succ n => rw [follow, ih (Nat.le_of_succ_le_succ hn)]

end Rules

end Rastreo.Lib
