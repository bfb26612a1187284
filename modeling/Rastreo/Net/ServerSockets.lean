import Rastreo.Net.ServerSessions

/-!
# The sockets of the server slots

`tcp_server_init` fills the slots with zeros, and 0 is a socket of the stack. `tcp_server_reset`
closes the socket of every slot whose `hSocket` is not `INVALID_SOCKET`, and
`tcp_server_force_disconnect` sets a state in which the task uses the socket.

* `ownSocket`: the socket a slot has been given by `TCPIP_TCP_ServerOpen` and has not closed since,
  read off the calls it has made.
* `Own`: each call was on that socket.
* `SocketInv`: a slot has a socket of its own in the states in which the task uses it
  (`ServerSlot.bound`), and it is `hSocket`.
* `Kept` is the condition on a step.
* **`sockets_own`**: in a run of kept steps every call of every slot is on its own socket, and no two
  slots have the same one.
-/

namespace Rastreo.Net

open Rastreo.Lib

/-! ## The calls of a slot -/

/-- The socket that a call needs. -/
def StackCall.socket? : StackCall → Option Int
  | .serverOpen _ => none
  | .close k | .disconnect k | .abort k | .discard k => some k
  | .arrayPut k _ => some k

/-- The socket a slot has after a call. -/
def socketAfter (o : Option Int) : StackCall → Option Int
  | .serverOpen k => if k = invalidSocket then o else some k
  | .close k => if o = some k then none else o
  | .disconnect _ | .abort _ | .discard _ | .arrayPut _ _ => o

/-- The socket a slot has been given and has not closed since. -/
def ownSocket (cs : List StackCall) : Option Int := cs.foldl socketAfter none

/-- The call needs no socket, or the one there is. -/
def OnOwn (o : Option Int) (c : StackCall) : Prop := c.socket? = none ∨ c.socket? = o

/-- Each call is on the socket there is then. -/
def Own : Option Int → List StackCall → Prop
  | _, [] => True
  | o, c :: cs => OnOwn o c ∧ Own (socketAfter o c) cs

instance (o : Option Int) (c : StackCall) : Decidable (OnOwn o c) :=
  inferInstanceAs (Decidable (_ ∨ _))

instance Own.decidable : ∀ (o : Option Int) (cs : List StackCall), Decidable (Own o cs)
  | _, [] => .isTrue trivial
  | o, c :: cs =>
    have := Own.decidable (socketAfter o c) cs
    inferInstanceAs (Decidable (_ ∧ _))

theorem own_concat {o : Option Int} {cs : List StackCall} {c : StackCall} :
    Own o (cs ++ [c]) ↔ Own o cs ∧ OnOwn (cs.foldl socketAfter o) c := by
  induction cs generalizing o with
  | nil =>
    constructor
    · intro h
      exact ⟨trivial, h.1⟩
    · intro h
      exact ⟨h.2, trivial⟩
  | cons d cs ih =>
    rw [List.cons_append, Own, Own, ih, List.foldl_cons, and_assoc]

theorem ownSocket_concat (cs : List StackCall) (c : StackCall) :
    ownSocket (cs ++ [c]) = socketAfter (ownSocket cs) c := by
  unfold ownSocket
  rw [List.foldl_append]
  rfl

/-- The socket of the slot. -/
def ServerSlot.held (s : ServerSlot) : Option Int := ownSocket s.calls

/-- The states in which the slot has a socket. -/
def ServerSlot.bound (s : ServerSlot) : Bool :=
  match s.state with
  | .waitForConnection | .connectionStablished | .disconnecting | .waitDisconnect | .aborting
  | .waitAbort => true
  | .init | .openSocket | .disable | .close | .waitClose => false

/-- **A slot has a socket of its own in the states in which it uses it.** -/
structure SocketInv (s : ServerSlot) : Prop where
  own : Own none s.calls
  socket : ∀ k, s.held = some k → s.hSocket = k ∧ k ≠ invalidSocket
  bound : s.held.isSome = s.bound
  neverCloses : s.state ≠ .close ∧ s.state ≠ .waitClose
  used : s.bound = true ∨ s.state = .openSocket → s.inUse = true

/-- What an operation does that opens no socket. -/
def ServerSlot.Retains (s s' : ServerSlot) : Prop :=
  SocketInv s → SocketInv s' ∧ ∀ k, s'.held = some k → s.held = some k

section Slots

variable {s s' s₁ : ServerSlot}

theorem ServerSlot.Retains.refl (s : ServerSlot) : s.Retains s := fun h => ⟨h, fun _ hk => hk⟩

theorem ServerSlot.Retains.trans (h₁ : s.Retains s₁) (h₂ : s₁.Retains s') : s.Retains s' := by
  intro hI
  obtain ⟨hI₁, hk₁⟩ := h₁ hI
  obtain ⟨hI₂, hk₂⟩ := h₂ hI₁
  exact ⟨hI₂, fun k hk => hk₁ k (hk₂ k hk)⟩

/-- The socket is the one in `hSocket`. -/
theorem SocketInv.held_eq (h : SocketInv s) (hb : s.bound = true) : s.held = some s.hSocket := by
  have hsome : s.held.isSome = true := h.bound.trans hb
  obtain ⟨k, hk⟩ := Option.isSome_iff_exists.mp hsome
  rw [hk, (h.socket k hk).1]

/-- A slot without a socket. -/
theorem socketInv_of_none (ho : Own none s.calls) (hn : s.held = none)
    (hq : s.state = .init ∨ s.state = .disable ∨ s.state = .openSocket ∧ s.inUse = true) :
    SocketInv s := by
  have hbound : s.bound = false ∧ (s.state ≠ .close ∧ s.state ≠ .waitClose) ∧
      (s.state = .openSocket → s.inUse = true) := by
    unfold ServerSlot.bound
    obtain hq | hq | ⟨hq, hu⟩ := hq
    · rw [hq]
      exact ⟨rfl, by decide, fun h => by cases h⟩
    · rw [hq]
      exact ⟨rfl, by decide, fun h => by cases h⟩
    · rw [hq]
      exact ⟨rfl, by decide, fun _ => hu⟩
  obtain ⟨hb, hcloses, hused⟩ := hbound
  refine ⟨ho, fun k hk => ?_, ?_, hcloses, ?_⟩
  · rw [hn] at hk
    cases hk
  · rw [hn, hb]
    rfl
  · rw [hb]
    exact fun h => h.elim (fun h => by cases h) hused

/-- A slot that is not bound has no socket. -/
theorem SocketInv.held_none (h : SocketInv s) (hb : s.bound = false) : s.held = none :=
  Option.not_isSome_iff_eq_none.mp (by rw [h.bound, hb]; exact Bool.false_ne_true)

/-- Neither the socket nor the state is touched. -/
theorem retains_of_same (hc : s'.calls = s.calls) (hs : s'.hSocket = s.hSocket)
    (hq : s'.state = s.state) (hu : s'.inUse = s.inUse) : s.Retains s' := by
  have hheld : s'.held = s.held := congrArg ownSocket hc
  have hbound : s'.bound = s.bound := by
    unfold ServerSlot.bound
    rw [hq]
  intro hI
  refine ⟨⟨?_, ?_, ?_, ?_, ?_⟩, fun k hk => hheld ▸ hk⟩
  · rw [hc]
    exact hI.own
  · rw [hheld, hs]
    exact hI.socket
  · rw [hheld, hbound]
    exact hI.bound
  · rw [hq]
    exact hI.neverCloses
  · rw [hbound, hq, hu]
    exact hI.used

/-- From a state with a socket to another. -/
theorem retains_setState (hb : s.bound = true) {q : ServerState}
    (hq : (s.setState q).bound = true) : s.Retains (s.setState q) := by
  intro hI
  refine ⟨⟨hI.own, hI.socket, ?_, ?_, fun _ => hI.used (.inl hb)⟩, fun _ hk => hk⟩
  · rw [hq]
    exact hI.bound.trans hb
  · constructor
    · rintro rfl
      cases hq
    · rintro rfl
      cases hq

/-- The states with a socket are not those of a closing. -/
theorem neverCloses_of_bound (hb : s.bound = true) : s.state ≠ .close ∧ s.state ≠ .waitClose := by
  unfold ServerSlot.bound at hb
  constructor
  · intro hq
    rw [hq] at hb
    cases hb
  · intro hq
    rw [hq] at hb
    cases hb

/-- A call on `hSocket` that does not close it, and perhaps another state. -/
theorem retains_of_call (hb : s.bound = true) {c : StackCall} (hc : s'.calls = s.calls ++ [c])
    (hsock : c.socket? = some s.hSocket) (ho : ∀ o, socketAfter o c = o)
    (hs : s'.hSocket = s.hSocket) (hb' : s'.bound = true) (hu : s'.inUse = s.inUse) :
    s.Retains s' := by
  have hheld : s'.held = s.held := by
    unfold ServerSlot.held
    rw [hc, ownSocket_concat, ho]
  intro hI
  refine ⟨⟨?_, ?_, ?_, neverCloses_of_bound hb', fun _ => ?_⟩, fun k hk => hheld ▸ hk⟩
  · rw [hc]
    refine own_concat.mpr ⟨hI.own, .inr ?_⟩
    rw [hsock]
    exact (hI.held_eq hb).symm
  · rw [hheld, hs]
    exact hI.socket
  · rw [hheld, hb', hI.bound, hb]
  · rw [hu]
    exact hI.used (.inl hb)

theorem retains_tcpEventCallback (hb : s.bound = true) (address : UInt32) (port : UInt16)
    (sig : TcpSignal) : s.Retains (s.tcpEventCallback address port sig) := by
  cases sig with
  | established =>
    unfold ServerSlot.tcpEventCallback
    dsimp only
    rw [emitEvent_eq]
    exact (retains_setState (q := .connectionStablished) hb rfl).trans
      (retains_of_same rfl rfl rfl rfl)
  | rxFin => exact retains_setState hb rfl
  | rxRst => exact retains_setState hb rfl
  | other => exact .refl s

theorem retains_send (s : ServerSlot) (h : Heap) (data : Packet) :
    s.Retains (s.send h data).1 := by
  unfold ServerSlot.send
  dsimp only
  split
  · cases listNewNode h data.bytes data.bytes.length with
    | mk node h' =>
      cases node with
      | none => exact retains_of_same rfl rfl rfl rfl
      | some n => exact retains_of_same rfl rfl rfl rfl
  · exact retains_of_same rfl rfl rfl rfl

theorem retains_txTask (hb : s.bound = true) (putIsReady : Nat) (h : Heap) :
    s.Retains (s.txTask putIsReady h).1 := by
  unfold ServerSlot.txTask
  cases s.out.state with
  | idle =>
    dsimp only
    split
    · exact retains_of_same rfl rfl rfl rfl
    · exact .refl s
  | sending =>
    dsimp only
    split
    · cases s.out.queueData with
      | nil => exact retains_of_same rfl rfl rfl rfl
      | cons n rest =>
        dsimp only
        split
        · exact retains_of_call hb rfl rfl (fun _ => rfl) rfl hb rfl
        · rw [emitEvent_eq]
          exact retains_of_call hb rfl rfl (fun _ => rfl) rfl hb rfl
    · exact .refl s
  | error => exact retains_of_same rfl rfl rfl rfl

theorem retains_ended (hb : s.bound = true) : s.Retains s.ended := by
  unfold ServerSlot.ended
  rw [emitEvent_eq]
  exact (retains_setState (q := .waitForConnection) hb rfl).trans
    (retains_of_same rfl rfl rfl rfl)

/-- The socket is closed, and the slot starts again. -/
theorem retains_closed (hheld : s.held = some s.hSocket)
    (hc : s'.calls = s.calls ++ [.close s.hSocket]) (hq : s'.state = .init) : s.Retains s' := by
  have hnone : s'.held = none := by
    unfold ServerSlot.held at hheld ⊢
    rw [hc, ownSocket_concat, hheld]
    exact if_pos rfl
  intro hI
  refine ⟨socketInv_of_none ?_ hnone (.inl hq), fun k hk => ?_⟩
  · rw [hc]
    exact own_concat.mpr ⟨hI.own, .inr hheld.symm⟩
  · rw [hnone] at hk
    cases hk

/-- A slot is reset that has a socket of its own, or no valid one. -/
theorem retains_reset (hs : s.held.isSome = true ∨ s.hSocket = invalidSocket) (h : Heap) :
    s.Retains (s.reset h).1 := by
  intro hI
  unfold ServerSlot.reset
  split
  · rename_i hvalid
    have hheld := hI.held_eq (hI.bound.symm.trans (hs.resolve_right hvalid))
    unfold ServerSlot.clearStream
    split
    · exact retains_closed hheld rfl rfl hI
    · exact retains_closed hheld rfl rfl hI
  · rename_i hinvalid
    have hnone : s.held = none := by
      cases hheld : s.held with
      | none => rfl
      | some k =>
        obtain ⟨hk, hne⟩ := hI.socket k hheld
        exact absurd (hk.trans_ne hne) hinvalid
    exact ⟨socketInv_of_none hI.own hnone (.inl rfl), fun _ hk => hk⟩

end Slots

/-! ## The steps -/

/-- No two slots have the same socket. -/
def Distinct (y : ServerSys) : Prop :=
  ∀ i j k, (y.servers i).held = some k → (y.servers j).held = some k → i = j

/-- **Every call of every slot was on its own socket**, and no two slots have the same one. -/
def OwnSockets (y : ServerSys) : Prop := (∀ i, Own none (y.servers i).calls) ∧ Distinct y

/-- The slot to be disconnected has a socket. -/
def ServerCall.Bound (y : ServerSys) : ServerCall → Prop
  | .send _ _ => True
  | .forceDisconnect i => (y.servers i).held.isSome = true

/-- The stack gives no socket, or one that no slot has. -/
def Fresh (y : ServerSys) (k : Int) : Prop :=
  k = invalidSocket ∨ ∀ i, (y.servers i).held ≠ some k

/-- Signals and disconnects are for slots with a socket, sockets are given out once, and the server
is reset when `hSocket` is invalid in the slots without one. -/
def Kept (y : ServerSys) : ServerStep → Prop
  | .signal _ _ _ .other | .config _ _ _ => True
  | .signal i _ _ _ => (y.servers i).held.isSome = true
  -- the receive processor runs in two of the states
  | .pass i io => ((y.servers i).state = .openSocket → Fresh y io.serverOpen) ∧
      ((y.servers i).rxP = true → (y.servers i).state = .connectionStablished ∨
        (y.servers i).state = .disconnecting → ∀ c ∈ io.rx, c.Bound y)
  | .call c => c.Bound y
  | .reset => ∀ i, (y.servers i).held.isSome = true ∨ (y.servers i).hSocket = invalidSocket

instance (y : ServerSys) : (c : ServerCall) → Decidable (c.Bound y)
  | .send _ _ => .isTrue trivial
  | .forceDisconnect _ => inferInstanceAs (Decidable (_ = _))

instance (y : ServerSys) (k : Int) : Decidable (Fresh y k) :=
  inferInstanceAs (Decidable (_ ∨ ∀ _, _))

instance (y : ServerSys) : (e : ServerStep) → Decidable (Kept y e)
  | .signal _ _ _ .other | .config _ _ _ => .isTrue trivial
  | .signal _ _ _ .established | .signal _ _ _ .rxFin | .signal _ _ _ .rxRst =>
    inferInstanceAs (Decidable (_ = _))
  | .pass _ io => inferInstanceAs (Decidable
      ((_ → Fresh y io.serverOpen) ∧ (_ → _ → ∀ c ∈ _, ServerCall.Bound y c)))
  | .call c => inferInstanceAs (Decidable (c.Bound y))
  | .reset => inferInstanceAs (Decidable (∀ _, _ ∨ _))

/-- Each slot has its socket or none, and no two have one. -/
structure SocketsInv (y : ServerSys) : Prop where
  slots : ∀ i, SocketInv (y.servers i)
  distinct : Distinct y

section System

variable {y y' : ServerSys}

theorem SocketsInv.ownSockets (h : SocketsInv y) : OwnSockets y :=
  ⟨fun i => (h.slots i).own, h.distinct⟩

theorem SocketsInv.retains (h : SocketsInv y)
    (hr : ∀ i, (y.servers i).Retains (y'.servers i)) : SocketsInv y' where
  slots i := (hr i (h.slots i)).1
  distinct i j k hi hj := h.distinct i j k ((hr i (h.slots i)).2 k hi) ((hr j (h.slots j)).2 k hj)

theorem SocketsInv.put (h : SocketsInv y) {i : Fin tcpServerMaxSockets} {r : ServerSlot × Heap}
    (hr : (y.servers i).Retains r.1) : SocketsInv (y.put i r) :=
  h.retains (ServerSys.rel_put ServerSlot.Retains.refl hr)

theorem SocketsInv.bound (h : SocketsInv y) {i : Fin tcpServerMaxSockets}
    (hi : (y.servers i).held.isSome = true) : (y.servers i).bound = true :=
  (h.slots i).bound.symm.trans hi

/-- A call of the interface makes no call of the stack. -/
theorem held_call (y : ServerSys) (c : ServerCall) (i : Fin tcpServerMaxSockets) :
    ((y.call c).servers i).held = (y.servers i).held := by
  have hsend : ∀ (s : ServerSlot) (h : Heap) (data : Packet),
      (s.send h data).1.held = s.held := by
    intro s h data
    unfold ServerSlot.send
    dsimp only
    split
    · cases listNewNode h data.bytes data.bytes.length with
      | mk node h' =>
        cases node with
        | none => rfl
        | some n => rfl
    · rfl
  cases c with
  | send j data =>
    exact @ServerSys.rel_put _ (fun s s' => s'.held = s.held) _ _ (fun _ => rfl) (hsend _ _ _) i
  | forceDisconnect j =>
    exact @ServerSys.rel_put _ (fun s s' => s'.held = s.held) _ _ (fun _ => rfl) rfl i

theorem SocketsInv.call (h : SocketsInv y) {c : ServerCall} (hC : c.Bound y) :
    SocketsInv (y.call c) := by
  cases c with
  | send i data => exact h.put (retains_send _ _ _)
  | forceDisconnect i => exact h.put (retains_setState (h.bound hC) rfl)

theorem ServerCall.Bound.call {c c' : ServerCall} (h : c.Bound y) : c.Bound (y.call c') := by
  cases c with
  | send _ _ => trivial
  | forceDisconnect i =>
    exact (congrArg Option.isSome (held_call y c' i)).trans h

/-- The calls of a receive processor. -/
theorem SocketsInv.calls (cs : List ServerCall) (h : SocketsInv y) (hC : ∀ c ∈ cs, c.Bound y) :
    SocketsInv (cs.foldl ServerSys.call y) ∧
      ∀ i, ((cs.foldl ServerSys.call y).servers i).held = (y.servers i).held := by
  induction cs generalizing y with
  | nil => exact ⟨h, fun _ => rfl⟩
  | cons c cs ih =>
    obtain ⟨hI, hheld⟩ := ih (h.call (hC c List.mem_cons_self)) fun c' hc' =>
      (hC c' (List.mem_cons_of_mem c hc')).call
    exact ⟨hI, fun i => (hheld i).trans (held_call y c i)⟩

/-- A socket is given to a slot without one. -/
theorem SocketsInv.opened (h : SocketsInv y) {i : Fin tcpServerMaxSockets} {k : Int}
    (hstate : (y.servers i).state = .openSocket) (hk : k ≠ invalidSocket)
    (hfresh : ∀ j, (y.servers j).held ≠ some k) (hp : Heap) :
    SocketsInv (y.put i (({ y.servers i with hSocket := k }.called (.serverOpen k)).setState
      .waitForConnection, hp)) := by
  have hbound : (y.servers i).bound = false := by
    unfold ServerSlot.bound
    rw [hstate]
  have hnone := (h.slots i).held_none hbound
  have hheld : (({ y.servers i with hSocket := k }.called (.serverOpen k)).setState
      .waitForConnection).held = some k :=
    (ownSocket_concat (y.servers i).calls _).trans (if_neg hk)
  refine ⟨ServerSys.forall_put h.slots ⟨?_, fun k' hk' => ?_, ?_, ⟨by rintro ⟨⟩, by rintro ⟨⟩⟩,
    fun _ => (h.slots i).used (.inr hstate)⟩, ?_⟩
  · exact own_concat.mpr ⟨(h.slots i).own, .inl rfl⟩
  · obtain rfl := Option.some.inj (hheld.symm.trans hk')
    exact ⟨rfl, hk⟩
  · show Option.isSome (ServerSlot.held _) = true
    rw [hheld]
    rfl
  · intro j₁ j₂ k' h₁ h₂
    by_cases hj₁ : j₁ = i
    · by_cases hj₂ : j₂ = i
      · rw [hj₁, hj₂]
      · subst hj₁
        rw [ServerSys.servers_put, hheld] at h₁
        rw [ServerSys.servers_put_ne hj₂] at h₂
        obtain rfl := Option.some.inj h₁
        exact absurd h₂ (hfresh j₂)
    · rw [ServerSys.servers_put_ne hj₁] at h₁
      by_cases hj₂ : j₂ = i
      · subst hj₂
        rw [ServerSys.servers_put, hheld] at h₂
        obtain rfl := Option.some.inj h₂
        exact absurd h₁ (hfresh j₁)
      · rw [ServerSys.servers_put_ne hj₂] at h₂
        exact h.distinct j₁ j₂ k' h₁ h₂

theorem socketsInv_pass (io : ServerIo) (i : Fin tcpServerMaxSockets) (h : SocketsInv y)
    (hC : Kept y (.pass i io)) : SocketsInv (serverPass io y i) := by
  have hbound : ∀ {q : ServerState}, (y.servers i).state = q →
      (y.servers i).bound = ((y.servers i).setState q).bound := by
    rintro q rfl
    rfl
  obtain ⟨hfresh, hrx⟩ := hC
  unfold serverPass
  dsimp only
  cases hst : (y.servers i).state with
  | init =>
    refine h.put fun hI => ⟨socketInv_of_none hI.own (hI.held_none (hbound hst)) ?_, fun _ hk => hk⟩
    cases hu : (y.servers i).inUse with
    | true => exact .inr (.inr ⟨rfl, hu⟩)
    | false => exact .inr (.inl rfl)
  | openSocket =>
    dsimp only
    split
    case isTrue hk =>
      -- the stack has no socket, and the slot asks again in the next pass
      refine h.put fun hI => ?_
      have hnone := hI.held_none (hbound hst)
      have hheld : ({ y.servers i with hSocket := io.serverOpen }.called
          (.serverOpen io.serverOpen)).held = none := by
        refine (ownSocket_concat (y.servers i).calls _).trans ?_
        exact (if_pos hk).trans hnone
      refine ⟨socketInv_of_none (own_concat.mpr ⟨hI.own, .inl rfl⟩) hheld
        (.inr (.inr ⟨rfl, hI.used (.inr hst)⟩)), fun k hk' => ?_⟩
      cases hheld.symm.trans hk'
    case isFalse hk => exact h.opened hst hk ((hfresh hst).resolve_left hk) y.heap
  | waitForConnection => exact h
  | disable => exact h
  | connectionStablished =>
    have hrx : SocketsInv (if (y.servers i).rxP then io.rx.foldl ServerSys.call y
        else y.put i ((y.servers i).called (.discard (y.servers i).hSocket), y.heap)) ∧
        ((if (y.servers i).rxP then io.rx.foldl ServerSys.call y
          else y.put i ((y.servers i).called (.discard (y.servers i).hSocket),
            y.heap)).servers i).bound = true := by
      split
      · rename_i hrxP
        obtain ⟨hI, hheld⟩ := h.calls io.rx (hrx hrxP (.inl hst))
        refine ⟨hI, hI.bound ?_⟩
        rw [hheld, (h.slots i).bound]
        exact hbound hst
      · refine ⟨h.put (retains_of_call (hbound hst) rfl rfl (fun _ => rfl) rfl (hbound hst) rfl), ?_⟩
        rw [ServerSys.servers_put]
        exact hbound hst
    exact hrx.1.put (retains_txTask hrx.2 _ _)
  | disconnecting =>
    dsimp only
    split
    · rename_i hrxP
      obtain ⟨hI, hheld⟩ := h.calls io.rx (hrx hrxP (.inr hst))
      split
      · have hb : ((io.rx.foldl ServerSys.call y).servers i).bound = true := by
          refine hI.bound ?_
          rw [hheld, (h.slots i).bound]
          exact hbound hst
        exact hI.put (retains_of_call hb rfl rfl (fun _ => rfl) rfl rfl rfl)
      · exact hI
    · exact h.put (retains_of_call (hbound hst) rfl rfl (fun _ => rfl) rfl rfl rfl)
  | waitDisconnect =>
    dsimp only
    split
    · exact h.put (retains_ended (hbound hst))
    · exact h
  | waitAbort =>
    dsimp only
    split
    · exact h.put (retains_ended (hbound hst))
    · exact h
  | aborting => exact h.put (retains_of_call (hbound hst) rfl rfl (fun _ => rfl) rfl rfl rfl)
  | close => exact absurd hst (h.slots i).neverCloses.1
  | waitClose => exact absurd hst (h.slots i).neverCloses.2

theorem SocketsInv.config (h : SocketsInv y) (listenPort : UInt16) (rxP cb : Bool) :
    SocketsInv (tcpServerConfig y listenPort rxP cb).2 := by
  unfold tcpServerConfig
  split
  · exact h
  · rename_i i hfind
    have hfree : (y.servers i).inUse = false := by
      have := List.find?_some hfind
      rwa [Bool.not_eq_true'] at this
    refine h.put fun hI => ?_
    have hnone : (y.servers i).held = none := by
      refine hI.held_none (Bool.eq_false_iff.mpr fun hb => ?_)
      rw [hI.used (.inl hb)] at hfree
      cases hfree
    exact ⟨socketInv_of_none hI.own hnone (.inl rfl), fun _ hk => hk⟩

theorem SocketsInv.reset (h : SocketsInv y) (hC : Kept y .reset) :
    SocketsInv (tcpServerReset y) := by
  -- a slot that has been reset has no valid socket left
  have hinvalid : ∀ (s : ServerSlot) (hp : Heap), (s.reset hp).1.hSocket = invalidSocket := by
    intro s hp
    unfold ServerSlot.reset
    split
    · rfl
    · rename_i hs
      exact not_ne_iff.mp hs
  have hfold : ∀ (is : List (Fin tcpServerMaxSockets)) (y : ServerSys), SocketsInv y →
      (∀ i, (y.servers i).held.isSome = true ∨ (y.servers i).hSocket = invalidSocket) →
      SocketsInv (is.foldl (fun y i => y.put i ((y.servers i).reset y.heap)) y) := by
    intro is
    induction is with
    | nil => exact fun y hy _ => hy
    | cons j is ih =>
      intro y hy hC
      exact ih _ (hy.put (retains_reset (hC j) y.heap)) (@ServerSys.forall_put
        (fun s => s.held.isSome = true ∨ s.hSocket = invalidSocket) _ _ _ hC
        (.inr (hinvalid _ _)))
  exact hfold _ y h hC

theorem socketsInv_of_step (e : ServerStep) (h : SocketsInv y) (hC : Kept y e)
    (hs : serverStep y e = some y') : SocketsInv y' := by
  cases e with
  | signal i address port sig =>
    obtain rfl := Option.some.inj hs
    refine h.put ?_
    cases sig with
    | other => exact .refl _
    | established => exact retains_tcpEventCallback (h.bound hC) address port .established
    | rxFin => exact retains_tcpEventCallback (h.bound hC) address port .rxFin
    | rxRst => exact retains_tcpEventCallback (h.bound hC) address port .rxRst
  | pass i io =>
    obtain rfl := Option.some.inj hs
    exact socketsInv_pass io i h hC
  | config listenPort rxP cb =>
    obtain rfl := Option.some.inj hs
    exact h.config listenPort rxP cb
  | call c =>
    obtain rfl := Option.some.inj hs
    exact h.call hC
  | reset =>
    obtain rfl := Option.some.inj hs
    exact h.reset hC

theorem socketsInv_serverInit (grants : Nat → Bool) : SocketsInv (serverInit grants) where
  slots _ := socketInv_of_none trivial rfl (.inl rfl)
  distinct _ _ _ hi := by cases hi

/-- **In a run of kept steps every call is on a socket of the slot's own.** -/
theorem sockets_own (grants : Nat → Bool) {es : List ServerStep} {y : ServerSys}
    (hC : Along serverStep Kept (serverInit grants) es)
    (hr : run serverStep (serverInit grants) es = some y) : OwnSockets y :=
  (inv_of_run (fun _ e _ h hC hs => socketsInv_of_step e h hC hs) (socketsInv_serverInit grants) hC
    hr).ownSockets

end System

/-! ## Two runs -/

/-- The stack gives a socket. -/
def gives (k : Int) : ServerIo := { serverIo 10 with serverOpen := k }

/-- All slots listen, a client connects to one of them, and the network changes. -/
def allListen : List ServerStep :=
  [.config 23 false true, .config 80 false true, .config 81 false true,
    .pass 0 (gives 0), .pass 1 (gives 1), .pass 2 (gives 2),
    .pass 0 (gives 0), .pass 1 (gives 1), .pass 2 (gives 2),
    .signal 1 0 0 .established, .pass 1 (gives 0), .reset]

theorem sockets_own_allListen :
    ∃ y, run serverStep (serverInit fun _ => true) allListen = some y ∧ OwnSockets y := by
  have hrun : (run serverStep (serverInit fun _ => true) allListen).isSome = true := by
    decide +kernel
  obtain ⟨y, hy⟩ := Option.isSome_iff_exists.mp hrun
  exact ⟨y, hy, sockets_own _ (by decide +kernel) hy⟩

/-- One slot listens on socket 0 and the servers are reset: the next slot, which never had a socket,
closes socket 0 as well. -/
theorem not_sockets_own :
    ∃ y, run serverStep (serverInit fun _ => true)
      [.config 23 false true, .pass 0 (gives 0), .pass 0 (gives 0), .reset] = some y ∧
      ¬ OwnSockets y := by
  have hrun : (run serverStep (serverInit fun _ => true)
      [.config 23 false true, .pass 0 (gives 0), .pass 0 (gives 0), .reset]).map
        (fun y => (y.servers 1).calls) = some [.close 0] := by decide +kernel
  obtain ⟨y, hy, hcalls⟩ := Option.map_eq_some_iff.mp hrun
  refine ⟨y, hy, fun h => ?_⟩
  have hown := h.1 1
  rw [hcalls] at hown
  exact absurd hown (by decide)

end Rastreo.Net
