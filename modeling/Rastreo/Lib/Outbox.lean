import Mathlib

/-!
# Messages written in pieces

An `Outbox` is what is known of one connection: the messages accepted so far, how many of them are
written whole, and how far the next one is written. `queue` is what waits, `written` the bytes on
the connection. Whoever sends accepts messages at one end (`accept`) and writes at the other, a
piece of the first message (`put`) or the rest of it (`finish`).

* `written_accept`, `written_put`, `written_finish`: what each does to the bytes.
* `queue_accept`, `queue_finish`: and to what waits.
* `Outbox.Sound`: nothing is written of a message that is not there. Each operation keeps it.
* `written_isPrefix`: the bytes are a prefix of the messages accepted, one after another.
-/

namespace Rastreo.Lib

variable {α : Type*}

/-- The messages accepted, and how far they are written. -/
structure Outbox (α : Type*) where
  accepted : List (List α)
  /-- How many messages are written whole. -/
  sent : Nat
  /-- How much of the next one is written. -/
  offset : Nat

namespace Outbox

/-- Nothing accepted yet. -/
def empty : Outbox α := ⟨[], 0, 0⟩

/-- The messages that are not written whole. -/
def queue (o : Outbox α) : List (List α) := o.accepted.drop o.sent

/-- The bytes written. -/
def written (o : Outbox α) : List α :=
  (o.accepted.take o.sent).flatten ++ (o.queue.headD []).take o.offset

/-- A message is accepted. -/
def accept (o : Outbox α) (m : List α) : Outbox α := { o with accepted := o.accepted ++ [m] }

/-- `n` more bytes of the first message are written. -/
def put (o : Outbox α) (n : Nat) : Outbox α := { o with offset := o.offset + n }

/-- The rest of the first message is written. -/
def finish (o : Outbox α) : Outbox α := { o with sent := o.sent + 1, offset := 0 }

/-- What is written was accepted, and the message that is being written is not over. -/
structure Sound (o : Outbox α) : Prop where
  sent_le : o.sent ≤ o.accepted.length
  offset_lt : o.offset = 0 ∨ o.offset < (o.queue.headD []).length

variable {o : Outbox α} {m : List α} {q : List (List α)}

@[simp] theorem queue_empty : (empty : Outbox α).queue = [] := rfl

@[simp] theorem written_empty : (empty : Outbox α).written = [] := rfl

theorem sound_empty : (empty : Outbox α).Sound := ⟨Nat.le_refl _, .inl rfl⟩

/-! ## Accepting -/

theorem queue_accept (h : o.Sound) : (o.accept m).queue = o.queue ++ [m] :=
  List.drop_append_of_le_length h.sent_le

theorem head_accept (h : o.Sound) (hm : o.offset ≠ 0) :
    (o.accept m).queue.headD [] = o.queue.headD [] := by
  rw [queue_accept h]
  cases hq : o.queue with
  | nil =>
    have hlt := h.offset_lt.resolve_left hm
    rw [hq] at hlt
    exact absurd hlt (Nat.not_lt_zero _)
  | cons _ _ => rfl

theorem written_accept (h : o.Sound) : (o.accept m).written = o.written := by
  have htake : (o.accept m).accepted.take (o.accept m).sent = o.accepted.take o.sent :=
    List.take_append_of_le_length h.sent_le
  unfold written
  rw [htake]
  by_cases h0 : o.offset = 0
  · show _ ++ List.take o.offset _ = _
    rw [h0, List.take_zero, List.take_zero]
  · rw [head_accept h h0]
    rfl

theorem Sound.accept (h : o.Sound) : (o.accept m).Sound := by
  refine ⟨?_, ?_⟩
  · show o.sent ≤ (o.accepted ++ [m]).length
    rw [List.length_append]
    exact Nat.le_add_right_of_le h.sent_le
  · by_cases h0 : o.offset = 0
    · exact .inl h0
    · rw [head_accept h h0]
      exact h.offset_lt

/-! ## Writing -/

theorem written_put (hq : o.queue = m :: q) {n : Nat} :
    (o.put n).written = o.written ++ (m.drop o.offset).take n := by
  have hhead : (o.put n).queue.headD [] = m := by
    show o.queue.headD [] = m
    rw [hq]
    rfl
  unfold written
  rw [hhead, hq, List.append_assoc]
  show _ ++ m.take (o.offset + n) = _
  rw [List.take_add]
  rfl

theorem Sound.put (h : o.Sound) (hq : o.queue = m :: q) {n : Nat} (hn : o.offset + n < m.length) :
    (o.put n).Sound := by
  refine ⟨h.sent_le, .inr ?_⟩
  show o.offset + n < (o.queue.headD []).length
  rw [hq]
  exact hn

theorem sent_lt (hq : o.queue = m :: q) : o.sent < o.accepted.length := by
  have hlen := congrArg List.length hq
  rw [queue, List.length_drop, List.length_cons] at hlen
  omega

theorem queue_finish (hq : o.queue = m :: q) : o.finish.queue = q := by
  show o.accepted.drop (o.sent + 1) = q
  rw [← List.tail_drop]
  exact congrArg List.tail hq

theorem getElem_sent (hq : o.queue = m :: q) : o.accepted[o.sent]? = some m := by
  have hhead := congrArg List.head? hq
  rwa [queue, List.head?_drop] at hhead

theorem written_finish (hq : o.queue = m :: q) :
    o.finish.written = o.written ++ m.drop o.offset := by
  have htake : o.accepted.take (o.sent + 1) = o.accepted.take o.sent ++ [m] := by
    rw [List.take_add_one, getElem_sent hq]
    rfl
  unfold written
  show (o.accepted.take (o.sent + 1)).flatten ++ List.take 0 _ = _
  rw [htake, hq, List.take_zero, List.append_nil, List.flatten_append, List.append_assoc]
  show _ ++ [m].flatten = _ ++ (m.take o.offset ++ m.drop o.offset)
  rw [List.take_append_drop, List.flatten_singleton]

theorem Sound.finish (hq : o.queue = m :: q) : o.finish.Sound :=
  ⟨sent_lt hq, .inl rfl⟩

/-! ## The order of the bytes -/

/-- **The bytes are a prefix of what was accepted.** -/
theorem written_isPrefix : o.written <+: o.accepted.flatten := by
  have hsplit : o.accepted.flatten = (o.accepted.take o.sent).flatten ++ o.queue.flatten := by
    rw [queue, ← List.flatten_append, List.take_append_drop]
  rw [written, hsplit]
  refine (List.prefix_append_right_inj _).mpr ?_
  cases o.queue with
  | nil =>
    rw [List.headD_nil, List.take_nil]
    exact List.nil_prefix
  | cons m q => exact (List.take_prefix _ m).trans (List.prefix_append _ _)

end Outbox

end Rastreo.Lib
