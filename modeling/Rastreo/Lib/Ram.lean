import Rastreo.Lib.CString

/-!
# Memory by address

A byte at every address; `load` reads a stretch and `store` writes one.

* `load_store`: what was written is read back.
* `load_store_of_disjoint`: a stretch apart from it reads as before.
* `load_append`, `store_append`: stretches one behind the other.
* `store_comm`: stretches apart are written in any order.
-/

namespace Rastreo.Lib

/-- A memory of bytes, by address. -/
abbrev Ram := Nat → UInt8

namespace Ram

/-- The `n` bytes from `a` on. -/
def load (m : Ram) (a n : Nat) : Bytes := (List.range n).map fun i => m (a + i)

/-- `memcpy (a, bs, …)`. -/
def store (m : Ram) (a : Nat) (bs : Bytes) : Ram := fun i =>
  if a ≤ i ∧ i < a + bs.length then bs.getD (i - a) 0 else m i

variable {m m' : Ram} {a b n k : Nat} {bs cs : Bytes}

@[simp] theorem length_load : (load m a n).length = n := by
  unfold load
  rw [List.length_map, List.length_range]

theorem getElem_load {i : Nat} (h : i < (load m a n).length) : (load m a n)[i] = m (a + i) := by
  simp only [load, List.getElem_map, List.getElem_range]

theorem getD_load {i : Nat} (h : i < n) : (load m a n).getD i 0 = m (a + i) := by
  rw [List.getD_eq_getElem _ _ (length_load.symm ▸ h), getElem_load]

theorem load_congr (h : ∀ i < n, m (a + i) = m' (b + i)) : load m a n = load m' b n := by
  unfold load
  exact List.map_congr_left fun i hi => h i (List.mem_range.mp hi)

theorem load_append (m : Ram) (a n k : Nat) : load m a (n + k) = load m a n ++ load m (a + n) k := by
  unfold load
  rw [List.range_add, List.map_append, List.map_map]
  exact congrArg _ (List.map_congr_left fun i _ => congrArg m (Nat.add_assoc a n i).symm)

theorem load_succ (m : Ram) (a n : Nat) : load m a (n + 1) = m a :: load m (a + 1) n := by
  rw [Nat.add_comm, load_append]
  rfl

theorem store_apply_of_lt {i : Nat} (h : i < bs.length) : store m a bs (a + i) = bs[i] := by
  unfold store
  rw [if_pos ⟨Nat.le_add_right a i, Nat.add_lt_add_left h a⟩, Nat.add_sub_cancel_left,
    List.getD_eq_getElem _ _ h]

theorem store_apply_of_not {i : Nat} (h : i < a ∨ a + bs.length ≤ i) : store m a bs i = m i := by
  unfold store
  rw [if_neg]
  rintro ⟨h₁, h₂⟩
  omega

@[simp] theorem store_nil (m : Ram) (a : Nat) : store m a [] = m := by
  funext i
  exact store_apply_of_not (by rw [List.length_nil]; omega)

/-- **What was written is read back.** -/
theorem load_store : load (store m a bs) a bs.length = bs := by
  refine List.ext_getElem length_load fun i hi hi' => ?_
  rw [getElem_load, store_apply_of_lt hi']

theorem load_store_of_disjoint (h : a + n ≤ b ∨ b + bs.length ≤ a) :
    load (store m b bs) a n = load m a n := by
  refine load_congr fun i hi => store_apply_of_not ?_
  omega

theorem store_comm (h : a + bs.length ≤ b) :
    store (store m b cs) a bs = store (store m a bs) b cs := by
  funext i
  by_cases hi : a ≤ i ∧ i < a + bs.length
  · obtain ⟨j, rfl⟩ := Nat.exists_eq_add_of_le hi.1
    rw [store_apply_of_lt (by omega), store_apply_of_not (.inl (by omega)),
      store_apply_of_lt (by omega)]
  · rw [store_apply_of_not (by omega)]
    unfold store
    rw [if_neg hi]

theorem store_append (m : Ram) (a : Nat) (bs cs : Bytes) :
    store m a (bs ++ cs) = store (store m a bs) (a + bs.length) cs := by
  funext i
  rcases Nat.lt_or_ge i a with h | h
  · rw [store_apply_of_not (.inl h), store_apply_of_not (.inl (by omega)),
      store_apply_of_not (.inl h)]
  · obtain ⟨j, rfl⟩ := Nat.exists_eq_add_of_le h
    rcases Nat.lt_or_ge j bs.length with hj | hj
    · rw [store_apply_of_lt (by rw [List.length_append]; omega), store_apply_of_not (.inl (by omega)),
        store_apply_of_lt hj, List.getElem_append_left hj]
    · obtain ⟨l, rfl⟩ := Nat.exists_eq_add_of_le hj
      rcases Nat.lt_or_ge l cs.length with hl | hl
      · rw [store_apply_of_lt (by rw [List.length_append]; omega), ← Nat.add_assoc,
          store_apply_of_lt hl, List.getElem_append_right (Nat.le_add_right _ _)]
        simp only [Nat.add_sub_cancel_left]
      · rw [store_apply_of_not (.inr (by rw [List.length_append]; omega)),
          store_apply_of_not (.inr (by omega)), store_apply_of_not (.inr (by omega))]

end Ram

end Rastreo.Lib
