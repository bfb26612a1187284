import Rastreo.Net.Sessions

/-!
# A pass of the TCP task, slot by slot

`tcp_client_task` passes over the slots one after another. What a pass makes of a slot, and what it
reports, depends on that slot alone: the heap is only released to. So a pass of the task is one
pass of each slot (`slots_tcpClientTask`), and its reports reach the client in order
(`ws_tcpClientTask`).

* `Slot.Moves`: how a pass takes a slot in and out of its connection.
* `connects`: the task reports a connection to the client.
-/

namespace Rastreo.Net

open Rastreo.Lib

/-! ## One slot -/

namespace Slot

/-- The slot has a connection, or is on the way to one. -/
def Underway (s : Slot) : Prop :=
  ¬ (s.state = .idle ∨ s.state = .connectionClose ∨ s.state = .waitForRetry)

/-- How a pass takes a slot in and out of its connection; its queue only gets shorter. -/
structure Moves (s s' : Slot) (es : List ClientEvent) : Prop where
  cb : s'.cb = s.cb
  underway : s'.Underway → s.Underway
  entered : s'.state = .connectionStablished →
    s.state = .connectionStablished ∨ .connected ∈ es ∧ s.Underway
  left : s.state = .connectionStablished → s'.state = .connectionStablished ∨ .disconnected ∈ es
  queue : s'.datNode <:+ s.datNode

variable {s s' : Slot}

theorem txTask_rest (io : NetIo) (h : Heap) (s : Slot) :
    (s.txTask io h).1.cb = s.cb ∧ (s.txTask io h).1.datNode <:+ s.datNode := by
  unfold txTask
  split
  · split <;> exact ⟨rfl, List.suffix_refl _⟩
  · split
    · exact ⟨rfl, List.suffix_refl _⟩
    · dsimp only
      split
      · split
        · exact ⟨rfl, List.suffix_refl _⟩
        · exact ⟨rfl, List.tail_suffix _⟩
      · exact ⟨rfl, List.suffix_refl _⟩
  · exact ⟨rfl, List.tail_suffix _⟩
  · exact ⟨rfl, List.tail_suffix _⟩

theorem task_moves (io : NetIo) (h : Heap) (s : Slot) :
    Moves s (s.task io h).1 (s.task io h).2.2 := by
  -- neither side of the pass is a connection
  have hout : ∀ {s' : Slot} {es : List ClientEvent} {q : TcpState}, s'.state = q →
      q ≠ .connectionStablished → s.state ≠ .connectionStablished ∧ s.Underway →
      s'.cb = s.cb → s'.datNode = s.datNode → Moves s s' es := by
    rintro s' es q hq hnot ⟨hst, hway⟩ hcb hqueue
    exact ⟨hcb, fun _ => hway, fun h => absurd (hq.symm.trans h) hnot, fun h => absurd h hst,
      by rw [hqueue]⟩
  -- it is one afterwards
  have hin : ∀ {s' : Slot}, s'.state = .connectionStablished → s.Underway →
      s'.cb = s.cb → s'.datNode = s.datNode → Moves s s' [.connected] := by
    intro s' hst hway hcb hqueue
    exact ⟨hcb, fun _ => hway, fun _ => .inr ⟨List.mem_singleton_self _, hway⟩, fun _ => .inl hst,
      by rw [hqueue]⟩
  obtain ⟨hcb, hqueue⟩ := txTask_rest io h s
  have hkeep := (txTask_keeps io h s).1
  unfold Underway at hout hin
  unfold task
  cases hst : s.state with
  | idle =>
    exact ⟨rfl, id, fun h => .inl h, fun h => .inl h, List.suffix_refl _⟩
  | dnsResolveHostAddress =>
    rw [hst] at hout
    dsimp only
    split
    · exact hout rfl (by rintro ⟨⟩) (by decide) rfl rfl
    · split
      · exact hout rfl (by rintro ⟨⟩) (by decide) rfl rfl
      · exact hout rfl (by rintro ⟨⟩) (by decide) rfl rfl
  | dnsWait =>
    rw [hst] at hout
    dsimp only
    split
    · exact hout rfl (by rintro ⟨⟩) (by decide) rfl rfl
    · split
      · exact hout rfl (by rintro ⟨⟩) (by decide) rfl rfl
      · split
        · exact hout rfl (by rintro ⟨⟩) (by decide) rfl rfl
        · exact hout rfl (by rintro ⟨⟩) (by decide) rfl rfl
  | connectionInit =>
    rw [hst] at hout
    dsimp only
    split
    · exact hout rfl (by rintro ⟨⟩) (by decide) rfl rfl
    · exact hout rfl (by rintro ⟨⟩) (by decide) rfl rfl
  | connectionWaitingFor =>
    rw [hst] at hout hin
    dsimp only
    split
    · split
      · split
        · exact hout rfl (by rintro ⟨⟩) (by decide) rfl rfl
        · exact hout rfl (by rintro ⟨⟩) (by decide) rfl rfl
      · exact hin rfl (by decide) rfl rfl
    · split
      · exact hout rfl (by rintro ⟨⟩) (by decide) rfl rfl
      · exact hout hst (by rintro ⟨⟩) (by decide) rfl rfl
  | connectionSslNegotiationWait =>
    rw [hst] at hout hin
    dsimp only
    split
    · split
      · exact hout rfl (by rintro ⟨⟩) (by decide) rfl rfl
      · exact hout hst (by rintro ⟨⟩) (by decide) rfl rfl
    · split
      · exact hin rfl (by decide) rfl rfl
      · exact hout rfl (by rintro ⟨⟩) (by decide) rfl rfl
  | connectionStablished =>
    have hway : s.Underway := by
      unfold Underway
      rw [hst]
      decide
    dsimp only
    split
    · exact ⟨rfl, fun _ => hway, fun _ => .inl hst, fun _ => .inr (List.mem_singleton_self _),
        List.suffix_refl _⟩
    · exact ⟨hcb, fun _ => hway, fun _ => .inl hst, fun _ => .inl (hkeep.trans hst), hqueue⟩
  | connectionClose =>
    have hnot : s.state ≠ .connectionStablished := by rw [hst]; rintro ⟨⟩
    exact ⟨rfl, fun h => absurd (.inr (.inr rfl)) h, fun h => (by cases h), fun h => absurd h hnot,
      List.nil_suffix⟩
  | waitForRetry =>
    have hnot : s.state ≠ .connectionStablished := by rw [hst]; rintro ⟨⟩
    dsimp only
    split
    · exact ⟨rfl, fun h => absurd (.inl rfl) h, fun h => (by cases h), fun h => absurd h hnot,
        List.suffix_refl _⟩
    · exact ⟨rfl, id, fun h => absurd h hnot, fun h => absurd h hnot, List.suffix_refl _⟩
  | _ =>
    rw [hst] at hout
    exact hout rfl (by rintro ⟨⟩) (by decide) rfl rfl

/-- A pass is the same whatever the heap. -/
theorem task_heap (io : NetIo) (h h' : Heap) (s : Slot) :
    (s.task io h).1 = (s.task io h').1 ∧ (s.task io h).2.2 = (s.task io h').2.2 := by
  have htx : (s.txTask io h).1 = (s.txTask io h').1 ∧
      (s.txTask io h).2.2 = (s.txTask io h').2.2 := by
    unfold txTask
    split
    · split <;> exact ⟨rfl, rfl⟩
    · split
      · exact ⟨rfl, rfl⟩
      · dsimp only
        split
        · split <;> exact ⟨rfl, rfl⟩
        · exact ⟨rfl, rfl⟩
    · exact ⟨rfl, rfl⟩
    · exact ⟨rfl, rfl⟩
  unfold task
  cases s.state with
  | dnsResolveHostAddress =>
    dsimp only
    split
    · exact ⟨rfl, rfl⟩
    · split <;> exact ⟨rfl, rfl⟩
  | dnsWait =>
    dsimp only
    split
    · exact ⟨rfl, rfl⟩
    · split
      · exact ⟨rfl, rfl⟩
      · split <;> exact ⟨rfl, rfl⟩
  | connectionInit =>
    dsimp only
    split <;> exact ⟨rfl, rfl⟩
  | connectionWaitingFor =>
    dsimp only
    split
    · split
      · split <;> exact ⟨rfl, rfl⟩
      · exact ⟨rfl, rfl⟩
    · split <;> exact ⟨rfl, rfl⟩
  | connectionSslNegotiationWait =>
    dsimp only
    split
    · split <;> exact ⟨rfl, rfl⟩
    · split <;> exact ⟨rfl, rfl⟩
  | connectionStablished =>
    dsimp only
    split
    · exact ⟨rfl, rfl⟩
    · dsimp only
      rw [htx.1, htx.2]
      exact ⟨rfl, rfl⟩
  | waitForRetry =>
    dsimp only
    split <;> exact ⟨rfl, rfl⟩
  | _ => exact ⟨rfl, rfl⟩

end Slot

/-! ## The task -/

/-- What a pass over a slot makes of it, and what it reports. -/
def World.passed (io : Fin tcpClientMaxSockets → NetIo) (w : World)
    (sid : Fin tcpClientMaxSockets) : Slot × List ClientEvent :=
  (((w.slots sid).task (io sid) w.heap).1, ((w.slots sid).task (io sid) w.heap).2.2)

/-- What a pass over a slot reports to the client. -/
def World.reports (io : Fin tcpClientMaxSockets → NetIo) (w : World)
    (sid : Fin tcpClientMaxSockets) : List ClientEvent :=
  if (w.slots sid).cb = some .ws then (w.passed io sid).2 else []

/-- The task reports a connection to the client. -/
def connects (io : Fin tcpClientMaxSockets → NetIo) (w : World) : Bool :=
  (List.finRange tcpClientMaxSockets).any fun sid => decide (.connected ∈ w.reports io sid)

section Task

variable {w : World} {io : Fin tcpClientMaxSockets → NetIo}

theorem tcpTaskSlot_eq {w₁ : World} {sid : Fin tcpClientMaxSockets}
    (h : w₁.slots sid = w.slots sid) :
    (tcpTaskSlot (io sid) w₁ sid).slots = Function.update w₁.slots sid (w.passed io sid).1 ∧
      (tcpTaskSlot (io sid) w₁ sid).ws = (w.reports io sid).foldl (sockCb sid) w₁.ws := by
  obtain ⟨hslot, hes⟩ := Slot.task_heap (io sid) w₁.heap w.heap (w.slots sid)
  unfold tcpTaskSlot World.reports World.passed
  dsimp only
  rw [h, hslot, hes]
  refine ⟨rfl, ?_⟩
  split <;> rfl

theorem tcpTask_fold {sids : List (Fin tcpClientMaxSockets)} (hsids : sids.Nodup) {w₁ : World}
    (h : ∀ i ∈ sids, w₁.slots i = w.slots i) :
    (∀ i, (sids.foldl (fun w sid => tcpTaskSlot (io sid) w sid) w₁).slots i =
      if i ∈ sids then (w.passed io i).1 else w₁.slots i) ∧
    (sids.foldl (fun w sid => tcpTaskSlot (io sid) w sid) w₁).ws =
      sids.foldl (fun c sid => (w.reports io sid).foldl (sockCb sid) c) w₁.ws := by
  induction sids generalizing w₁ with
  | nil => exact ⟨fun i => rfl, rfl⟩
  | cons sid sids ih =>
    obtain ⟨hnot, hsids⟩ := List.nodup_cons.mp hsids
    obtain ⟨hslots, hws⟩ := @tcpTaskSlot_eq w io _ _ (h sid List.mem_cons_self)
    have hrest : ∀ i ∈ sids, (tcpTaskSlot (io sid) w₁ sid).slots i = w.slots i := by
      intro i hi
      have hne : i ≠ sid := fun heq => hnot (heq ▸ hi)
      rw [hslots, Function.update_of_ne hne]
      exact h i (List.mem_cons_of_mem sid hi)
    obtain ⟨ihslots, ihws⟩ := ih hsids hrest
    rw [List.foldl_cons, List.foldl_cons]
    refine ⟨fun i => ?_, by rw [ihws, hws]⟩
    rw [ihslots i, hslots]
    by_cases hi : i ∈ sids
    · rw [if_pos hi, if_pos (List.mem_cons_of_mem sid hi)]
    · rw [if_neg hi]
      by_cases hsid : i = sid
      · rw [hsid, Function.update_self, if_pos List.mem_cons_self]
      · rw [Function.update_of_ne hsid, if_neg (by simp [hsid, hi])]

/-- **A pass of the task is one pass of each slot.** -/
theorem slots_tcpClientTask (i : Fin tcpClientMaxSockets) :
    (tcpClientTask io w).slots i = (w.passed io i).1 := by
  have hfold := (@tcpTask_fold w io _ (List.nodup_finRange _) w fun _ _ => rfl).1 i
  rwa [if_pos (List.mem_finRange i)] at hfold

/-- **Its reports reach the client in order.** -/
theorem ws_tcpClientTask : (tcpClientTask io w).ws =
    (List.finRange tcpClientMaxSockets).foldl
      (fun c sid => (w.reports io sid).foldl (sockCb sid) c) w.ws :=
  (tcpTask_fold (List.nodup_finRange _) fun _ _ => rfl).2

theorem moves_tcpClientTask (i : Fin tcpClientMaxSockets) :
    Slot.Moves (w.slots i) ((tcpClientTask io w).slots i) (w.passed io i).2 := by
  rw [slots_tcpClientTask]
  exact Slot.task_moves (io i) w.heap (w.slots i)

theorem connects_of_mem {i : Fin tcpClientMaxSockets} (h : .connected ∈ w.reports io i) :
    connects io w = true :=
  List.any_eq_true.mpr ⟨i, List.mem_finRange i, decide_eq_true h⟩

/-- Only a report takes the client to one of these states. -/
def WsState.Reported (q : WsState) : Prop := q = .initHandshake ∨ q = .close ∨ q = .error

/-- Reports leave the client in one of those states, or they were nothing but traffic. -/
theorem sockCb_traffic (sid : Fin tcpClientMaxSockets) {es : List ClientEvent} {c : Client}
    (h : ¬ (es.foldl (sockCb sid) c).state.Reported) :
    es.foldl (sockCb sid) c = c ∧ ∀ e ∈ es, e = .tx ∨ e = .rx := by
  have hkept : ∀ (es : List ClientEvent) (c : Client), c.state.Reported →
      (es.foldl (sockCb sid) c).state.Reported := by
    intro es
    induction es with
    | nil => exact fun c hc => hc
    | cons e es ih =>
      intro c hc
      rw [List.foldl_cons]
      refine ih _ ?_
      cases e with
      | tx => exact hc
      | rx => exact hc
      | connected => exact .inl rfl
      | disconnected => exact .inr (.inl rfl)
      | _ => exact .inr (.inr rfl)
  induction es generalizing c with
  | nil => exact ⟨rfl, List.forall_mem_nil _⟩
  | cons e es ih =>
    rw [List.foldl_cons] at h
    rw [List.foldl_cons, List.forall_mem_cons]
    cases e with
    | tx => exact ⟨(ih h).1, .inl rfl, (ih h).2⟩
    | rx => exact ⟨(ih h).1, .inr rfl, (ih h).2⟩
    | connected => exact absurd (hkept es _ (.inl rfl)) h
    | disconnected => exact absurd (hkept es _ (.inr (.inl rfl))) h
    | _ => exact absurd (hkept es _ (.inr (.inr rfl))) h

theorem tcpClientTask_traffic (h : ¬ (tcpClientTask io w).ws.state.Reported) :
    (tcpClientTask io w).ws = w.ws ∧ ∀ i, ∀ e ∈ w.reports io i, e = .tx ∨ e = .rx := by
  have hfold : ∀ (sids : List (Fin tcpClientMaxSockets)) (c : Client),
      ¬ (sids.foldl (fun c sid => (w.reports io sid).foldl (sockCb sid) c) c).state.Reported →
      sids.foldl (fun c sid => (w.reports io sid).foldl (sockCb sid) c) c = c ∧
        ∀ i ∈ sids, ∀ e ∈ w.reports io i, e = .tx ∨ e = .rx := by
    intro sids
    induction sids with
    | nil => exact fun c _ => ⟨rfl, List.forall_mem_nil _⟩
    | cons sid sids ih =>
      intro c h
      rw [List.foldl_cons] at h ⊢
      obtain ⟨heq, hes⟩ := ih _ h
      rw [heq] at h ⊢
      obtain ⟨hone, hsid⟩ := sockCb_traffic sid h
      exact ⟨hone, List.forall_mem_cons.mpr ⟨hsid, hes⟩⟩
  rw [ws_tcpClientTask] at h ⊢
  obtain ⟨heq, hes⟩ := hfold _ _ h
  exact ⟨heq, fun i => hes i (List.mem_finRange i)⟩

/-- When no connection is reported the client stays as it is, or is taken out of its work. -/
theorem tcpClientTask_unconnected (h : connects io w = false) :
    (tcpClientTask io w).ws = w.ws ∨ (tcpClientTask io w).ws.state = .close ∨
      (tcpClientTask io w).ws.state = .error := by
  have hnot : ∀ i, .connected ∉ w.reports io i := fun i hi => by
    rw [connects_of_mem hi] at h
    cases h
  have hfold : ∀ (sids : List (Fin tcpClientMaxSockets)) (c : Client),
      sids.foldl (fun c sid => (w.reports io sid).foldl (sockCb sid) c) c = c ∨
        (sids.foldl (fun c sid => (w.reports io sid).foldl (sockCb sid) c) c).state = .close ∨
        (sids.foldl (fun c sid => (w.reports io sid).foldl (sockCb sid) c) c).state = .error := by
    intro sids
    induction sids with
    | nil => exact fun c => .inl rfl
    | cons sid sids ih =>
      intro c
      rw [List.foldl_cons]
      rcases ih ((w.reports io sid).foldl (sockCb sid) c) with heq | hst
      · rw [heq]
        exact sockCb_unconnected sid (hnot sid)
      · exact .inr hst
  rw [ws_tcpClientTask]
  exact hfold _ _

end Task

end Rastreo.Net
