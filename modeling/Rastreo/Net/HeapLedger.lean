import Rastreo.Net.Lists

/-!
# The ledger of the heap

Which blocks are live, as a multiset: a request granted adds one and a release takes one out, so
that the live blocks can be added up by who owns them.

* `Heap.Exactly`: these blocks are live and no others, and so many releases went wrong as before.
* `create_cases`, `extend_cases`: what a request does to the ledger.
* `release`: what is released has to be in it.
-/

namespace Rastreo.Net

open Rastreo.Lib

/-- A block that may be there. -/
def Block.opt (o : Option Block) : Multiset Block := ↑o.toList

@[simp] theorem Block.opt_none : Block.opt none = 0 := rfl

@[simp] theorem Block.opt_some (b : Block) : Block.opt (some b) = {b} := rfl

/-- **The live blocks**, and whether a dead one was released. -/
structure Heap.Exactly (m : Bool) (h : Heap) (S : Multiset Block) : Prop where
  live : (h.live : Multiset Block) = S
  misuse : h.misuse = m

namespace Heap.Exactly

variable {m : Bool} {h h' : Heap} {S : Multiset Block} {b : Block} {o : Option Block} {size : Nat}

theorem mem (hx : h.Exactly m S) (hb : b ∈ S) : b ∈ h.live := by
  rw [← hx.live] at hb
  exact Multiset.mem_coe.mp hb

theorem congr (hx : h.Exactly m S) {S' : Multiset Block} (hS : S = S') : h.Exactly m S' := hS ▸ hx

theorem grant (hx : h.Exactly m S) (ha : h.Allows size) :
    (h.grant size ha).Exactly m ({⟨h.next, size⟩} + S) := by
  refine ⟨?_, hx.misuse⟩
  rw [← hx.live, Multiset.singleton_add, Multiset.cons_coe]
  rfl

theorem deny (hx : h.Exactly m S) : h.deny.Exactly m S := ⟨hx.live, hx.misuse⟩

/-- A live block is released once. -/
theorem release (hx : h.Exactly m ({b} + S)) : (dmemRelease h (some b)).Exactly m S := by
  have hb : b ∈ h.live := hx.mem (Multiset.mem_add.mpr (.inl (Multiset.mem_singleton_self b)))
  have hrel : dmemRelease h (some b) = _ := if_pos hb
  rw [hrel]
  refine ⟨?_, hx.misuse⟩
  dsimp only
  rw [← Multiset.coe_erase, hx.live, Multiset.singleton_add, Multiset.erase_cons_head]

theorem releaseOpt (hx : h.Exactly m (Block.opt o + S)) : (dmemRelease h o).Exactly m S := by
  cases o with
  | none =>
    rw [Block.opt_none, zero_add] at hx
    exact hx
  | some b => exact hx.release

/-- **A request** gives a new block, or changes nothing. -/
theorem create_cases (hx : h.Exactly m S) (size : Nat) :
    (∃ h', dmemCreate h size = (none, h') ∧ h'.Exactly m S) ∨
      ∃ b h', dmemCreate h size = (some b, h') ∧ h'.Exactly m ({b} + S) := by
  unfold dmemCreate
  by_cases ha : h.Allows size
  · rw [dif_pos ha]
    exact .inr ⟨_, _, rfl, hx.grant ha⟩
  · rw [dif_neg ha]
    exact .inl ⟨_, rfl, hx.deny⟩

/-- **A request for more** gives a new block for the old one, or changes nothing. -/
theorem extend_cases (hx : h.Exactly m (Block.opt o + S)) (size : Nat) :
    (∃ h', dmemExtend h o size = (none, h') ∧ h'.Exactly m (Block.opt o + S)) ∨
      ∃ b h', dmemExtend h o size = (some b, h') ∧ h'.Exactly m ({b} + S) := by
  unfold dmemExtend
  by_cases ha : (dmemRelease h o).Allows size
  · rw [dif_pos ha]
    exact .inr ⟨_, _, rfl, hx.releaseOpt.grant ha⟩
  · rw [dif_neg ha]
    exact .inl ⟨_, rfl, hx.deny⟩

end Heap.Exactly

/-! ## Nodes -/

/-- The blocks of a queue. -/
def queueBlocks (list : List Node) : Multiset Block := ↑(list.flatMap Node.blocks)

section Nodes

variable {m : Bool} {h : Heap} {S : Multiset Block}

theorem coe_blocks (n : Node) : (n.blocks : Multiset Block) = {n.data.1} + {n.block} := rfl

theorem queueBlocks_concat (list : List Node) (n : Node) :
    queueBlocks (list ++ [n]) = ↑n.blocks + queueBlocks list := by
  unfold queueBlocks
  rw [List.flatMap_append, List.flatMap_singleton, ← Multiset.coe_add, add_comm]

/-- **A new node** takes two blocks, and nothing stays without one. -/
theorem Heap.Exactly.listNewNode (hx : h.Exactly m S) (data : Bytes) (n : Nat) :
    (∃ h', listNewNode h data n = (none, h') ∧ h'.Exactly m S) ∨
      ∃ node h', listNewNode h data n = (some node, h') ∧ h'.Exactly m (↑node.blocks + S) := by
  unfold Rastreo.Net.listNewNode
  split
  · rcases hx.create_cases sizeofNode with ⟨h₁, hc, hx₁⟩ | ⟨b, h₁, hc, hx₁⟩
    · rw [hc]
      exact .inl ⟨_, rfl, hx₁⟩
    · rw [hc]
      dsimp only
      rcases hx₁.create_cases n with ⟨h₂, hc₂, hx₂⟩ | ⟨d, h₂, hc₂, hx₂⟩
      · rw [hc₂]
        exact .inl ⟨_, rfl, hx₂.release⟩
      · rw [hc₂]
        refine .inr ⟨_, _, rfl, ?_⟩
        rwa [coe_blocks, add_assoc]
  · exact .inl ⟨_, rfl, hx⟩

end Nodes

end Rastreo.Net
