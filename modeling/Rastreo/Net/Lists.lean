import Rastreo.Lib.CString
import Mathlib

/-!
# Dynamic memory and message lists (`drv_dmem.c`, `lists.c`)

`Heap` is what the program can tell of the allocator: which blocks are live, how many bytes they
take of the data memory, whether a request was denied and whether a dead block was released. The
allocator's own choice to deny a request is `grants`, by the number of the request; it cannot give
out more than the data memory holds.

A list of nodes is a Lean list, the head pointer its first node. `list_pull_node` takes the first
node off, `list_push_node` puts one at the end.
-/

namespace Rastreo.Net

open Rastreo.Lib

/-! ## `drv_dmem.c` -/

/-- The length of `kseg0_data_mem` in the linker script. -/
def dataMemory : Nat := 524288

/-- A live block: its name, never used again, and its size. -/
structure Block where
  name : Nat
  size : Nat
  deriving DecidableEq, Repr

/-- The bytes of some blocks. -/
def bytesOf (bs : List Block) : Nat := (bs.map Block.size).sum

@[simp] theorem bytesOf_cons (b : Block) (bs : List Block) :
    bytesOf (b :: bs) = b.size + bytesOf bs := by
  rw [bytesOf, List.map_cons, List.sum_cons, bytesOf]

theorem bytesOf_le_of_subperm {as bs : List Block} (h : as.Subperm bs) :
    bytesOf as ≤ bytesOf bs := by
  obtain ⟨cs, hperm, hsub⟩ := h
  rw [bytesOf, ← (hperm.map Block.size).sum_eq]
  exact (hsub.map Block.size).sum_le_sum fun _ _ => Nat.zero_le _

/-- The memory of `dmem`: an oracle for the requests, and the blocks that are live. -/
structure Heap where
  grants : Nat → Bool
  /-- The number of requests made. -/
  next : Nat
  live : List Block
  denied : Bool
  /-- A block that was not live was released. -/
  misuse : Bool
  fits : bytesOf live ≤ dataMemory
  named : ∀ b ∈ live, b.name < next

theorem fits_nil : bytesOf [] ≤ dataMemory := Nat.zero_le _

theorem named_nil : ∀ b ∈ ([] : List Block), b.name < 0 := by
  rintro _ ⟨⟩

/-- Before the first request. -/
def Heap.empty (grants : Nat → Bool) : Heap := ⟨grants, 0, [], false, false, fits_nil, named_nil⟩

/-- The allocator grants `size` more bytes. -/
def Heap.Allows (h : Heap) (size : Nat) : Prop :=
  h.grants h.next = true ∧ size + bytesOf h.live ≤ dataMemory

instance (h : Heap) (size : Nat) : Decidable (h.Allows size) := by
  unfold Heap.Allows
  infer_instance

/-- The request is granted. -/
def Heap.grant (h : Heap) (size : Nat) (ha : h.Allows size) : Heap :=
  { h with
    next := h.next + 1
    live := ⟨h.next, size⟩ :: h.live
    fits := by rw [bytesOf_cons]; exact ha.2
    named := List.forall_mem_cons.mpr
      ⟨Nat.lt_succ_self _, fun b hb => Nat.lt_succ_of_lt (h.named b hb)⟩ }

/-- The request is denied. -/
def Heap.deny (h : Heap) : Heap :=
  { h with
    next := h.next + 1
    denied := true
    named := fun b hb => Nat.lt_succ_of_lt (h.named b hb) }

/-- `dmem_create`; `none` is NULL. -/
def dmemCreate (h : Heap) (size : Nat) : Option Block × Heap :=
  if ha : h.Allows size then (some ⟨h.next, size⟩, h.grant size ha) else (none, h.deny)

/-- `dmem_release`; a NULL pointer is left alone. -/
def dmemRelease (h : Heap) : Option Block → Heap
  | none => h
  | some b =>
    if b ∈ h.live then
      { h with
        live := h.live.erase b
        fits := (bytesOf_le_of_subperm (List.erase_subperm b h.live)).trans h.fits
        named := fun _ hb => h.named _ (List.mem_of_mem_erase hb) }
    else { h with misuse := true }

/-- `dmem_extend`: on success the old block is gone, else it stays. -/
def dmemExtend (h : Heap) (b : Option Block) (size : Nat) : Option Block × Heap :=
  if ha : (dmemRelease h b).Allows size then
    (some ⟨(dmemRelease h b).next, size⟩, (dmemRelease h b).grant size ha)
  else (none, h.deny)

/-- What a use of the allocator leaves of the heap: the live blocks with `K` are live, names are
not used again, and what was denied stays denied. -/
structure Heap.Keeps (K : Block → Prop) (h h' : Heap) : Prop where
  live : ∀ b, K b → b ∈ h.live → b ∈ h'.live
  next : h.next ≤ h'.next
  denied : h.denied = true → h'.denied = true

namespace Heap.Keeps

variable {K K' : Block → Prop} {h h₁ h' : Heap} {size : Nat}

protected theorem refl : Heap.Keeps K h h := ⟨fun _ _ => id, Nat.le_refl _, id⟩

theorem trans (h₁₂ : Heap.Keeps K h h₁) (h₂₃ : Heap.Keeps K h₁ h') : Heap.Keeps K h h' :=
  ⟨fun b hK hb => h₂₃.live b hK (h₁₂.live b hK hb), h₁₂.next.trans h₂₃.next,
    fun hd => h₂₃.denied (h₁₂.denied hd)⟩

theorem mono (hk : Heap.Keeps K h h') (hK : ∀ b, K' b → K b) : Heap.Keeps K' h h' :=
  ⟨fun b hb => hk.live b (hK b hb), hk.next, hk.denied⟩

/-- Where nothing has been denied afterwards, nothing had been. -/
theorem undenied (hk : Heap.Keeps K h h') (hd : h'.denied = false) : h.denied = false := by
  cases hh : h.denied with
  | false => rfl
  | true => cases (hk.denied hh).symm.trans hd

theorem grant (ha : h.Allows size) : Heap.Keeps K h (h.grant size ha) :=
  ⟨fun _ _ hb => List.mem_cons_of_mem _ hb, Nat.le_succ _, id⟩

theorem deny : Heap.Keeps K h h.deny := ⟨fun _ _ => id, Nat.le_succ _, fun _ => rfl⟩

theorem create : Heap.Keeps K h (dmemCreate h size).2 := by
  unfold dmemCreate
  split
  · rename_i ha
    exact grant ha
  · exact deny

theorem of_create {r : Option Block} (hc : dmemCreate h size = (r, h')) : Heap.Keeps K h h' := by
  have hk := @create K h size
  rwa [hc] at hk

theorem release {b : Option Block} (hb : ∀ b' ∈ b, ¬ K b') : Heap.Keeps K h (dmemRelease h b) := by
  unfold dmemRelease
  split
  · exact Heap.Keeps.refl
  · rename_i b₀
    split
    · refine ⟨fun b' hK hb' => (List.mem_erase_of_ne ?_).mpr hb', Nat.le_refl _, id⟩
      rintro rfl
      exact hb b' rfl hK
    · exact ⟨fun _ _ => id, Nat.le_refl _, id⟩

theorem extend {b : Option Block} (hb : ∀ b' ∈ b, ¬ K b') :
    Heap.Keeps K h (dmemExtend h b size).2 := by
  unfold dmemExtend
  split
  · rename_i ha
    exact (release hb).trans (grant ha)
  · exact deny

end Heap.Keeps

section Heap

variable {h h' : Heap} {b : Option Block} {size : Nat}

/-- A request after which nothing has been denied was granted. -/
theorem dmemCreate_granted (hd : (dmemCreate h size).2.denied = false) :
    ∃ ha : h.Allows size, dmemCreate h size = (some ⟨h.next, size⟩, h.grant size ha) := by
  unfold dmemCreate at hd ⊢
  split
  · rename_i ha
    exact ⟨ha, rfl⟩
  · rename_i ha
    rw [dif_neg ha] at hd
    cases hd

theorem dmemExtend_granted (hd : (dmemExtend h b size).2.denied = false) :
    ∃ ha : (dmemRelease h b).Allows size, dmemExtend h b size =
      (some ⟨(dmemRelease h b).next, size⟩, (dmemRelease h b).grant size ha) := by
  unfold dmemExtend at hd ⊢
  split
  · rename_i ha
    exact ⟨ha, rfl⟩
  · rename_i ha
    rw [dif_neg ha] at hd
    cases hd

@[simp] theorem next_dmemRelease : (dmemRelease h b).next = h.next := by
  unfold dmemRelease
  split
  · rfl
  · split <;> rfl

/-- The blocks are live, each once. -/
structure Heap.Holds (h : Heap) (bs : List Block) : Prop where
  nodup : bs.Nodup
  live : ∀ b ∈ bs, b ∈ h.live

namespace Heap.Holds

variable {bs bs' : List Block} {b : Block}

theorem nil : h.Holds [] := ⟨List.nodup_nil, by rintro _ ⟨⟩⟩

theorem keeps (hh : h.Holds bs) (hk : Heap.Keeps (· ∈ bs) h h') : h'.Holds bs :=
  ⟨hh.nodup, fun b hb => hk.live b hb (hh.live b hb)⟩

/-- A block just granted is none of those held. -/
theorem grant (hh : h.Holds bs) (ha : h.Allows size) :
    (h.grant size ha).Holds (⟨h.next, size⟩ :: bs) := by
  refine ⟨List.nodup_cons.mpr ⟨fun hmem => ?_, hh.nodup⟩, List.forall_mem_cons.mpr
    ⟨List.mem_cons_self, fun b hb => List.mem_cons_of_mem _ (hh.live b hb)⟩⟩
  exact Nat.lt_irrefl _ (h.named _ (hh.live _ hmem))

theorem release (hh : h.Holds (b :: bs)) : (dmemRelease h (some b)).Holds bs := by
  obtain ⟨hnot, hnodup⟩ := List.nodup_cons.mp hh.nodup
  refine Heap.Holds.keeps ⟨hnodup, fun b' hb' => hh.live b' (List.mem_cons_of_mem _ hb')⟩
    (Heap.Keeps.release ?_)
  rintro b' hb' hmem
  obtain rfl := Option.some.inj hb'
  exact hnot hmem

/-- Together they fit the memory. -/
theorem bytesOf_le (hh : h.Holds bs) : bytesOf bs ≤ dataMemory :=
  (bytesOf_le_of_subperm (hh.nodup.subperm hh.live)).trans h.fits

theorem size_le (hh : h.Holds bs) (hb : b ∈ bs) : b.size ≤ dataMemory :=
  ((List.single_le_sum (fun _ _ => Nat.zero_le _) _ (List.mem_map_of_mem hb)).trans
    hh.bytesOf_le)

end Heap.Holds

end Heap

/-! ## `lists.c` -/

/-- `t_LIST_NODE`, its links apart. -/
structure Node where
  block : Block
  dataLength : Nat
  data : Block × Bytes
  deriving DecidableEq, Repr

/-- `sizeof (t_LIST_NODE)`. -/
def sizeofNode : Nat := 12

/-- `list_new_node` for data that is not NULL; `dataLength` is stored in 16 bits. -/
def listNewNode (h : Heap) (data : Bytes) (dataLength : Nat) : Option Node × Heap :=
  if 0 < dataLength then
    match dmemCreate h sizeofNode with
    | (none, h) => (none, h)
    | (some n, h) =>
      -- `dmem_create_w_data`
      match dmemCreate h dataLength with
      | (none, h) => (none, dmemRelease h (some n))
      | (some d, h) => (some ⟨n, dataLength % 65536, d, data.take dataLength⟩, h)
  else (none, h)

/-- `list_push_node`. -/
def listPushNode (list : List Node) (node : Node) : List Node := list ++ [node]

/-- `list_pull_node`. -/
def listPullNode (list : List Node) : Option Node × List Node := (list.head?, list.tail)

/-- `list_delete_node`. -/
def listDeleteNode (h : Heap) : Option Node → Heap
  | none => h
  | some n => dmemRelease (dmemRelease h (some n.data.1)) (some n.block)

/-- `list_delete`. -/
def listDelete (h : Heap) (list : List Node) : Heap :=
  list.foldl (fun h n => listDeleteNode h (some n)) h

/-- The blocks of a node. -/
def Node.blocks (n : Node) : List Block := [n.data.1, n.block]

section Lists

variable {K : Block → Prop} {h : Heap}

theorem keeps_listDeleteNode {n : Option Node} (hn : ∀ m ∈ n, ∀ b ∈ m.blocks, ¬ K b) :
    Heap.Keeps K h (listDeleteNode h n) := by
  cases n with
  | none => exact .refl
  | some n =>
    have hn := hn n rfl
    rw [listDeleteNode]
    refine (Heap.Keeps.release fun b hb => ?_).trans (Heap.Keeps.release fun b hb => ?_)
    · obtain rfl := Option.some.inj hb
      exact hn _ List.mem_cons_self
    · obtain rfl := Option.some.inj hb
      exact hn _ (List.mem_cons_of_mem _ List.mem_cons_self)

theorem keeps_listDelete {list : List Node} (hl : ∀ n ∈ list, ∀ b ∈ n.blocks, ¬ K b) :
    Heap.Keeps K h (listDelete h list) := by
  induction list generalizing h with
  | nil => exact .refl
  | cons n list ih =>
    refine (keeps_listDeleteNode fun m hm => ?_).trans
      (ih fun m hm => hl m (List.mem_cons_of_mem _ hm))
    obtain rfl := Option.some.inj hm
    exact hl _ List.mem_cons_self

/-- A new node's blocks are new. -/
theorem listNewNode_spec (h : Heap) (data : Bytes) (n : Nat) :
    Heap.Keeps (fun b => b.name < h.next) h (listNewNode h data n).2 ∧
      ∀ node ∈ (listNewNode h data n).1, ∀ b ∈ node.blocks,
        h.next ≤ b.name ∧ b.name < (listNewNode h data n).2.next := by
  unfold listNewNode
  split
  · by_cases ha : h.Allows sizeofNode
    · have hc : dmemCreate h sizeofNode = (some ⟨h.next, sizeofNode⟩, h.grant sizeofNode ha) :=
        dif_pos ha
      rw [hc]
      dsimp only
      by_cases ha' : (h.grant sizeofNode ha).Allows n
      · have hc' : dmemCreate (h.grant sizeofNode ha) n =
            (some ⟨h.next + 1, n⟩, (h.grant sizeofNode ha).grant n ha') := dif_pos ha'
        rw [hc']
        refine ⟨(Heap.Keeps.grant ha).trans (Heap.Keeps.grant ha'), fun node hnode b hb => ?_⟩
        obtain rfl := Option.some.inj hnode
        rcases List.mem_cons.mp hb with rfl | hb
        · exact ⟨Nat.le_succ _, Nat.lt_succ_self _⟩
        · obtain rfl := List.mem_singleton.mp hb
          exact ⟨Nat.le_refl _, Nat.lt_succ_of_lt (Nat.lt_succ_self _)⟩
      · have hc' : dmemCreate (h.grant sizeofNode ha) n = (none, (h.grant sizeofNode ha).deny) :=
          dif_neg ha'
        rw [hc']
        dsimp only
        refine ⟨((Heap.Keeps.grant ha).trans Heap.Keeps.deny).trans
          (Heap.Keeps.release fun b hb => ?_), by rintro _ ⟨⟩⟩
        obtain rfl := Option.some.inj hb
        exact Nat.lt_irrefl _
    · have hc : dmemCreate h sizeofNode = (none, h.deny) := dif_neg ha
      rw [hc]
      exact ⟨Heap.Keeps.deny, by rintro _ ⟨⟩⟩
  · exact ⟨.refl, by rintro _ ⟨⟩⟩

/-- And its data is what it was made for. -/
theorem listNewNode_data {h h' : Heap} {data : Bytes} {n : Nat} {node : Node}
    (hn : listNewNode h data n = (some node, h')) :
    0 < n ∧ node.dataLength = n % 65536 ∧ node.data.2 = data.take n := by
  unfold listNewNode at hn
  split at hn
  · rename_i hpos
    split at hn
    · cases hn
    · split at hn
      · cases hn
      · cases hn
        exact ⟨hpos, rfl, rfl⟩
  · cases hn

/-- A node that was not denied is there. -/
theorem listNewNode_granted {data : Bytes} {n : Nat} (hn : 0 < n)
    (hd : (listNewNode h data n).2.denied = false) :
    ∃ node h', listNewNode h data n = (some node, h') := by
  unfold listNewNode at hd ⊢
  rw [if_pos hn] at hd ⊢
  by_cases ha : h.Allows sizeofNode
  · have hc : dmemCreate h sizeofNode = (some ⟨h.next, sizeofNode⟩, h.grant sizeofNode ha) :=
      dif_pos ha
    rw [hc] at hd ⊢
    dsimp only at hd ⊢
    by_cases ha' : (h.grant sizeofNode ha).Allows n
    · have hc' : dmemCreate (h.grant sizeofNode ha) n =
          (some ⟨h.next + 1, n⟩, (h.grant sizeofNode ha).grant n ha') := dif_pos ha'
      rw [hc']
      exact ⟨_, _, rfl⟩
    · have hc' : dmemCreate (h.grant sizeofNode ha) n = (none, (h.grant sizeofNode ha).deny) :=
        dif_neg ha'
      rw [hc'] at hd
      have hk : Heap.Keeps (fun _ => False) (h.grant sizeofNode ha).deny
          (dmemRelease (h.grant sizeofNode ha).deny (some ⟨h.next, sizeofNode⟩)) :=
        .release fun _ _ => id
      cases (hk.denied rfl).symm.trans hd
  · have hc : dmemCreate h sizeofNode = (none, h.deny) := dif_neg ha
    rw [hc] at hd
    cases hd

end Lists

end Rastreo.Net
