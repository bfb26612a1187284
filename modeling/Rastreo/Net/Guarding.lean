import Rastreo.Net.Passes

/-!
# When a web socket client may send

`ws_client_send` is guarded by `CLIENT_CONNECTING`, which `ws_client_open` sets and the acceptance
of the handshake clears. A retry goes through the handshake again with the flag clear.

* `Greeting`: how far the handshake on the current connection is.
* `sends`: the calls of `ws_client_send`, the ping of a silent connection among them; `step_of_sends`
  and `wsClientTask_eq` say that they are the calls of the step.
* `Guards`: a call queues on a connection whose handshake was accepted, or is refused.
* **`guards_sends`**: so it is in a run where nothing is sent on a connection that was reported with
  the flag clear before its handshake is accepted.
-/

namespace Rastreo.Net

open Rastreo.Lib

/-! ## The handshake on the current connection -/

/-- How far the handshake on the current connection is. -/
inductive Greeting
  /-- No connection was reported. -/
  | none
  /-- One was reported, and `CLIENT_CONNECTING` was as given. -/
  | begun (connecting : Bool)
  | accepted
  deriving DecidableEq, Repr

/-- The pass of the task accepts the handshake. -/
def accepts (libs : Libs) (io : WsIo) (w : World) : Bool :=
  decide (w.ws.state = .waitHandshakeResponseParse ∧
    (wsClientTask libs io w).ws.state = .connectionEstablished)

/-- The handshake after an event. -/
def Greeting.after (libs : Libs) (w : World) : Event → Greeting → Greeting
  | .tcpTask io, g => if connects io w then .begun w.ws.flags.clientConnecting else g
  | .wsTask io, g => if accepts libs io w then .accepted else g
  | _, g => g

/-- The ping of a connection that was silent for too long. -/
def pingDue (io : WsIo) (w : World) : Bool :=
  decide (w.ws.state = .connectionEstablished ∧ (w.read io).1 = [] ∧
    0 < w.ws.activityTimeout ∧ w.ws.activityTimeout < elapsedS io.now w.ws.ts)

/-- The calls of `ws_client_send`: the world and the text. -/
def sends (w : World) : Event → Option (World × Option Bytes)
  | .wsSend s => some (w, s)
  | .wsTask io => if pingDue io w then some ((w.read io).2, some w.ws.pingStr.text) else none
  | _ => none

/-- An error is returned, and nothing is queued on any socket. -/
def Refuses (w : World) (s : Option Bytes) : Prop :=
  (wsClientSend w s).1 = -1 ∧ (wsClientSend w s).2.slots = w.slots

/-- **What is sent is queued only on a connection whose handshake was accepted**, and is refused
otherwise. -/
def Guards (p : World × Greeting) (e : Event) : Prop :=
  ∀ v s, (v, s) ∈ sends p.1 e →
    (p.2 = .accepted ∧ v.socket.state = .connectionStablished) ∨ Refuses v s

/-- Nothing is sent on a connection that was reported with `CLIENT_CONNECTING` clear before its
handshake is accepted. -/
def Patient (p : World × Greeting) : Event → Prop
  | .wsSend (some _) => p.2 = .begun false → p.1.socket.state ≠ .connectionStablished
  | _ => True

/-- Before the first connection. -/
def greetingInit (grants : Nat → Bool) (rand : Nat → UInt32) : World × Greeting :=
  (worldInit grants rand, .none)

/-! ## The calls are those of the step -/

section Calls

variable {w : World} {libs : Libs} {io : WsIo}

theorem established_ping (h : pingDue io w = true) :
    established io w = (wsClientSend (w.read io).2 (some w.ws.pingStr.text)).2 := by
  obtain ⟨-, hnil, hdue⟩ := of_decide_eq_true h
  rw [established_idle hnil, if_pos hdue]

/-- A pass without a ping hands the data on, if there is any. -/
theorem established_quiet (hst : w.ws.state = .connectionEstablished) (h : pingDue io w = false) :
    established io w =
      if (w.read io).1 = [] then { (w.read io).2 with ws := w.ws.received [] }
      else (w.read io).1.foldl (fun w c => (inData w c).1) (w.read io).2 := by
  split
  · rename_i hnil
    rw [established_idle hnil, if_neg fun hdue => of_decide_eq_false h ⟨hst, hnil, hdue⟩]
  · rename_i hne
    exact established_read hne

/-- **An event that sends** does what its call does. -/
theorem step_of_sends {e : Event} {v : World} {s : Option Bytes} (h : (v, s) ∈ sends w e) :
    step libs w e = some (wsClientSend v s).2 := by
  cases e with
  | wsSend t =>
    obtain ⟨rfl, rfl⟩ := Prod.mk.inj (Option.some.inj h)
    rfl
  | wsTask io =>
    unfold sends at h
    dsimp only at h
    split at h
    · rename_i hdue
      obtain ⟨rfl, rfl⟩ := Prod.mk.inj (Option.some.inj h)
      have htask : wsClientTask libs io w = established io w :=
        wsClientTask_of_established (of_decide_eq_true hdue).1
      rw [← established_ping hdue, ← htask]
      rfl
    · cases h
  | _ => cases h

/-- **A pass of the task on a connection** is its call, or hands the data on. -/
theorem wsClientTask_eq (hst : w.ws.state = .connectionEstablished) :
    wsClientTask libs io w =
      match sends w (.wsTask io) with
      | some (v, s) => (wsClientSend v s).2
      | none =>
        if (w.read io).1 = [] then { (w.read io).2 with ws := w.ws.received [] }
        else (w.read io).1.foldl (fun w c => (inData w c).1) (w.read io).2 := by
  rw [wsClientTask_of_established hst]
  unfold sends
  dsimp only
  cases hdue : pingDue io w with
  | true => exact established_ping hdue
  | false => exact established_quiet hst hdue

end Calls

/-! ## Refusals -/

section Refusals

variable {w : World}

theorem slots_sendError (w : World) (c : Int) : (w.sendError c).slots = w.slots := by
  unfold World.sendError World.callOnError World.setState
  split <;> rfl

theorem refuses_connecting (h : w.ws.flags.clientConnecting = true) (s : Option Bytes) :
    Refuses w s := by
  unfold Refuses wsClientSend
  split
  · exact ⟨rfl, slots_sendError w 0⟩
  · exact ⟨rfl, slots_sendError w 1⟩

theorem refuses_null : Refuses w none := by
  unfold Refuses wsClientSend
  split
  · exact ⟨rfl, slots_sendError w 0⟩
  · split
    · exact ⟨rfl, slots_sendError w 1⟩
    · exact ⟨rfl, slots_sendError w 2⟩

theorem tcpClientSend_closed {h : Heap} {slots : Slots} {sid : Fin tcpClientMaxSockets}
    (hclosed : (slots sid).state ≠ .connectionStablished) (data : Bytes) (n : Nat) :
    tcpClientSend h slots sid data n = (.worngIdClient, h, slots) := by
  unfold tcpClientSend
  rw [dif_pos sid.isLt, if_neg hclosed]

theorem refuses_closed (h : w.socket.state ≠ .connectionStablished) (s : Option Bytes) :
    Refuses w s := by
  unfold Refuses wsClientSend
  split
  · exact ⟨rfl, slots_sendError w 0⟩
  · split
    · exact ⟨rfl, slots_sendError w 1⟩
    · split
      · exact ⟨rfl, slots_sendError w 2⟩
      · dsimp only [World.drawMask]
        split
        · exact ⟨rfl, slots_sendError _ 4⟩
        · unfold sendData
          dsimp only
          rw [tcpClientSend_closed h]
          exact ⟨rfl, slots_sendError _ 4⟩

end Refusals

/-! ## The slots of the client -/

/-- What the client does to the slots: one that gets underway gets its callback, and none gets a
connection. -/
def Calm (slots slots' : Slots) : Prop :=
  ∀ i, ((slots' i).Underway → (slots' i).cb = some .ws ∨
      (slots i).Underway ∧ (slots' i).cb = (slots i).cb) ∧
    ((slots' i).state = .connectionStablished → (slots i).state = .connectionStablished)

section Slots

variable {slots slots₁ slots' : Slots} {w : World} {libs : Libs}

theorem Calm.of_same
    (h : ∀ i, (slots' i).state = (slots i).state ∧ (slots' i).cb = (slots i).cb) :
    Calm slots slots' := by
  intro i
  obtain ⟨hst, hcb⟩ := h i
  unfold Slot.Underway
  rw [hst]
  exact ⟨fun hway => .inr ⟨hway, hcb⟩, id⟩

protected theorem Calm.refl : Calm slots slots := .of_same fun _ => ⟨rfl, rfl⟩

theorem Calm.trans (h₁ : Calm slots slots₁) (h₂ : Calm slots₁ slots') : Calm slots slots' := by
  intro i
  refine ⟨fun hway => ?_, fun hst => (h₁ i).2 ((h₂ i).2 hst)⟩
  rcases (h₂ i).1 hway with hcb | ⟨hway₁, hcb⟩
  · exact .inl hcb
  · rw [hcb]
    exact (h₁ i).1 hway₁

theorem Calm.update {sid : Fin tcpClientMaxSockets} {s : Slot}
    (hway : s.Underway → s.cb = some .ws) (hst : s.state ≠ .connectionStablished) :
    Calm slots (Function.update slots sid s) := by
  intro i
  by_cases hi : i = sid
  · rw [hi, Function.update_self]
    exact ⟨fun h => .inl (hway h), fun h => absurd h hst⟩
  · rw [Function.update_of_ne hi]
    exact ⟨fun h => .inr ⟨h, rfl⟩, id⟩

theorem calm_tcpClientClose (slots : Slots) (sid : Fin tcpClientMaxSockets) :
    Calm slots (tcpClientClose slots sid).2 := by
  unfold tcpClientClose
  rw [dif_pos sid.isLt]
  split
  · exact .update (fun h => absurd (.inr (.inl rfl)) h) (by rintro ⟨⟩)
  · exact .refl

theorem calm_tcpClientOpenHost (slots : Slots) (host : Bytes) (port : UInt16) (tls : Bool) :
    Calm slots (tcpClientOpenHost slots host port tls .ws).2.1 := by
  unfold tcpClientOpenHost
  split
  · exact .refl
  · dsimp only
    split
    · exact .update (fun _ => rfl) (by rintro ⟨⟩)
    · exact .update (fun _ => rfl) (by rintro ⟨⟩)

theorem calm_initHandshake (w : World) (url : UrlData) :
    Calm w.slots (initHandshake w url).slots := by
  unfold initHandshake
  dsimp only [World.closeSocket, World.setState]
  split
  · exact calm_tcpClientClose _ _
  · split
    · exact .of_same (slots_tcpClientSend _ _ _ _ _)
    · exact (Calm.of_same (slots_tcpClientSend _ _ _ _ _)).trans (calm_tcpClientClose _ _)

theorem calm_wsClientTask (io : WsIo) : Calm w.slots (wsClientTask libs io w).slots := by
  unfold wsClientTask
  split
  · exact .refl
  · exact .refl
  · exact .refl
  · exact .refl
  · split <;> exact .refl
  · split
    · exact .refl
    · rename_i url _
      have hopen := calm_tcpClientOpenHost w.slots url.host w.ws.nPort w.ws.flags.clientIsSsl
      split
      · rename_i heq
        rw [heq] at hopen
        exact hopen
      · rename_i heq
        rw [heq] at hopen
        exact hopen
  · split
    · exact .refl
    · exact calm_initHandshake w _
  · unfold waitHandshakeResponse
    dsimp only
    split
    · split
      · exact .refl
      · exact .of_same (slots_tcpClientGetRx _ _ _ _)
    · exact .refl
  · unfold parseHandshakeResponse
    dsimp only
    split
    · exact .refl
    · exact calm_tcpClientClose _ _
  · rename_i hst
    exact .of_same (spares_established io hst).slots
  · exact calm_tcpClientClose _ _
  · dsimp only
    split <;> exact .refl
  · split <;> exact .refl
  · exact .refl

/-- `CLIENT_CONNECTING` stays set until a handshake is accepted. -/
theorem connecting_wsClientTask {io : WsIo} (hacc : accepts libs io w = false)
    (h : w.ws.flags.clientConnecting = true) :
    (wsClientTask libs io w).ws.flags.clientConnecting = true := by
  by_cases hst : w.ws.state = .connectionEstablished
  · rw [wsClientTask_of_established hst, (spares_established io hst).flags]
    exact h
  · rcases (@apart_wsClientTask w libs io hst).connecting with hconn | hearned
    · exact hconn.trans h
    · exact absurd hearned (of_decide_eq_false hacc)

end Slots

/-! ## The run -/

/-- **The invariant**: a slot underway is the client's, one with a connection was reported, and the
flag stays as it was reported. -/
structure GreetInv (p : World × Greeting) : Prop where
  owned : ∀ i, (p.1.slots i).Underway → (p.1.slots i).cb = some .ws
  reported : ∀ i, (p.1.slots i).state = .connectionStablished → p.2 ≠ .none
  guarded : p.2 = .begun true → p.1.ws.flags.clientConnecting = true
  established : p.1.ws.state = .connectionEstablished → p.2 = .accepted

section Run

variable {w w' : World} {libs : Libs} {g : Greeting}

theorem GreetInv.calm (h : GreetInv (w, g)) (hslots : Calm w.slots w'.slots)
    (hflag : w.ws.flags.clientConnecting = true → w'.ws.flags.clientConnecting = true)
    (hst : w'.ws.state = .connectionEstablished → w.ws.state = .connectionEstablished) :
    GreetInv (w', g) := by
  refine ⟨fun i hway => ?_, fun i hi => h.reported i ((hslots i).2 hi),
    fun hg => hflag (h.guarded hg), fun hi => h.established (hst hi)⟩
  rcases (hslots i).1 hway with hcb | ⟨hbefore, hcb⟩
  · exact hcb
  · exact hcb.trans (h.owned i hbefore)

theorem Spares.greetInv {b : Bool} (h : Spares b w w') (hI : GreetInv (w, g)) :
    GreetInv (w', g) := by
  refine hI.calm (.of_same h.slots) (fun hflag => ?_) fun hst => ?_
  · rw [h.flags]
    exact hflag
  · rcases h.state with hs | hs
    · exact hs.symm.trans hst
    · cases hs.symm.trans hst

theorem greetInv_tcpClientTask (io : Fin tcpClientMaxSockets → NetIo) (hI : GreetInv (w, g)) :
    GreetInv (tcpClientTask io w, g.after libs w (.tcpTask io)) := by
  have hflags : (tcpClientTask io w).ws.flags = w.ws.flags := by
    obtain ⟨⟨sid, q, hws, -⟩, -⟩ := reported_tcpClientTask io w
    rw [hws]
  have howned : ∀ i, ((tcpClientTask io w).slots i).Underway →
      ((tcpClientTask io w).slots i).cb = some .ws := by
    intro i hway
    have hmoves := @moves_tcpClientTask w io i
    rw [hmoves.cb]
    exact hI.owned i (hmoves.underway hway)
  -- a slot that gets a connection reports it
  have hentered : ∀ i, ((tcpClientTask io w).slots i).state = .connectionStablished →
      (w.slots i).state = .connectionStablished ∨ connects io w = true := by
    intro i hst
    rcases (@moves_tcpClientTask w io i).entered hst with h | ⟨hmem, hway⟩
    · exact .inl h
    · refine .inr (@connects_of_mem w io i ?_)
      unfold World.reports
      rwa [if_pos (hI.owned i hway)]
  cases hconn : connects io w with
  | true =>
    have hafter : g.after libs w (.tcpTask io) = .begun w.ws.flags.clientConnecting := if_pos hconn
    rw [hafter]
    refine ⟨howned, fun i _ => ?_, fun hg => ?_, fun hst => ?_⟩
    · rintro ⟨⟩
    · rw [hflags]
      exact Greeting.begun.inj hg
    · obtain ⟨i, -, hi⟩ := List.any_eq_true.mp hconn
      have hnot : ¬ (tcpClientTask io w).ws.state.Reported := by
        rw [hst]
        rintro (h | h | h) <;> cases h
      rcases (tcpClientTask_traffic hnot).2 i _ (of_decide_eq_true hi) with h | h <;> cases h
  | false =>
    have hafter : g.after libs w (.tcpTask io) = g := if_neg (by rw [hconn]; rintro ⟨⟩)
    rw [hafter]
    refine ⟨howned, fun i hst => ?_, fun hg => ?_, fun hst => ?_⟩
    · rcases hentered i hst with h | h
      · exact hI.reported i h
      · cases hconn.symm.trans h
    · rw [hflags]
      exact hI.guarded hg
    · exact hI.established (tcpClientTask_established io hst)

theorem greetInv_wsClientTask (io : WsIo) (hI : GreetInv (w, g)) :
    GreetInv (wsClientTask libs io w, g.after libs w (.wsTask io)) := by
  have hcalm := @calm_wsClientTask w libs io
  cases hacc : accepts libs io w with
  | true =>
    have hafter : g.after libs w (.wsTask io) = .accepted := if_pos hacc
    rw [hafter]
    refine ⟨fun i hway => ?_, fun i _ => ?_, ?_, fun _ => rfl⟩
    · rcases (hcalm i).1 hway with hcb | ⟨hbefore, hcb⟩
      · exact hcb
      · exact hcb.trans (hI.owned i hbefore)
    · rintro ⟨⟩
    · rintro ⟨⟩
  | false =>
    have hafter : g.after libs w (.wsTask io) = g := if_neg (by rw [hacc]; rintro ⟨⟩)
    rw [hafter]
    refine hI.calm hcalm (connecting_wsClientTask hacc) fun hst => ?_
    rcases wsClientTask_established hst with h | h
    · exact h
    · exact absurd ⟨h, hst⟩ (of_decide_eq_false hacc)

theorem greetInv_of_step {e : Event} (hI : GreetInv (w, g)) (hs : step libs w e = some w') :
    GreetInv (w', g.after libs w e) := by
  cases e with
  | tcpTask io =>
    obtain rfl := Option.some.inj hs
    exact greetInv_tcpClientTask io hI
  | wsTask io =>
    obtain rfl := Option.some.inj hs
    exact greetInv_wsClientTask io hI
  | receive sid bs =>
    obtain rfl := Option.some.inj hs
    exact hI.calm (.of_same (slots_update (by rfl) (by rfl))) id id
  | wsOpen url cbs =>
    obtain rfl := Option.some.inj hs
    unfold wsClientOpen
    split
    · split
      · exact hI.calm .refl id id
      · exact hI.calm .refl (fun _ => rfl) (by rintro ⟨⟩)
    · exact hI
  | wsSend s =>
    obtain rfl := Option.some.inj hs
    exact (spares_wsClientSend w s).greetInv hI
  | wsSetPing strPing pingInterval =>
    obtain rfl := Option.some.inj hs
    exact hI.calm .refl id id
  | wsClose =>
    obtain rfl := Option.some.inj hs
    exact hI.calm (calm_tcpClientClose _ _) id id

theorem guards_of_inv {e : Event} (hI : GreetInv (w, g)) (hC : Patient (w, g) e) :
    Guards (w, g) e := by
  intro v s hsend
  by_cases hup : v.socket.state = .connectionStablished
  · cases e with
    | wsSend t =>
      obtain ⟨hv, hs⟩ := Prod.mk.inj (Option.some.inj hsend)
      subst hv hs
      cases g with
      | none => exact absurd rfl (hI.reported _ hup)
      | accepted => exact .inl ⟨rfl, hup⟩
      | begun connecting =>
        cases connecting with
        | true => exact .inr (refuses_connecting (hI.guarded rfl) t)
        | false =>
          cases t with
          | none => exact .inr refuses_null
          | some t => exact absurd hup (hC rfl)
    | wsTask io =>
      unfold sends at hsend
      dsimp only at hsend
      split at hsend
      · rename_i hdue
        exact .inl ⟨hI.established (of_decide_eq_true hdue).1, hup⟩
      · cases hsend
    | _ => cases hsend
  · exact .inr (refuses_closed hup s)

end Run

/-- **In a patient run** nothing is queued by `ws_client_send` but on a connection whose handshake
was accepted. -/
theorem guards_sends (libs : Libs) (grants : Nat → Bool) (rand : Nat → UInt32) {es : List Event}
    (hC : Along (watch (step libs) (Greeting.after libs)) Patient (greetingInit grants rand) es) :
    Along (watch (step libs) (Greeting.after libs)) Guards (greetingInit grants rand) es := by
  refine @along_of_inv _ _ _ _ _ GreetInv (fun p e q hI _ hs => ?_)
    (fun p e hI hC => guards_of_inv hI hC) _ _ ?_ hC
  · obtain ⟨hs, hg⟩ := watch_eq_some.mp hs
    have hinv := greetInv_of_step hI hs
    rwa [← hg] at hinv
  · refine ⟨fun i hway => absurd (.inl rfl) hway, fun i h => ?_, ?_, ?_⟩
    · cases h
    · rintro ⟨⟩
    · rintro ⟨⟩

/-! ## Two runs -/

instance (p : World × Greeting) : (e : Event) → Decidable (Patient p e)
  | .wsSend (some _) => inferInstanceAs (Decidable (_ → _))
  | .wsSend none | .tcpTask _ | .wsTask _ | .receive _ _ | .wsOpen _ _ | .wsSetPing _ _
  | .wsClose => .isTrue trivial

/-- The answer is accepted. -/
def accepted : List Event := opening (ascii "upgrade") ++ [.wsTask ⟨0, 2047, []⟩]

theorem guards_sends_accepted :
    Along (watch (step (answering (ascii "upgrade"))) (Greeting.after (answering (ascii "upgrade"))))
      Guards (greetingInit (fun _ => true) sampleRand)
      (accepted ++ [.wsSend (some (ascii "hello"))]) :=
  guards_sends _ _ _ (by decide +kernel)

/-- The connection is lost, and after half a minute the client retries. -/
def retried : List Event :=
  let look : Event := .wsTask ⟨0, 2047, []⟩
  let pass : Event := .tcpTask fun _ => readyIo
  accepted ++ [.tcpTask fun _ => lostIo, look, .wsTask ⟨3100000000, 2047, []⟩, look, look, pass,
    pass, pass]

/-- The handshake is still to come, and a frame is queued. -/
theorem not_guards_sends :
    ¬ Along (watch (step (answering (ascii "upgrade")))
        (Greeting.after (answering (ascii "upgrade")))) Guards
      (greetingInit (fun _ => true) sampleRand)
      (retried ++ [.wsSend (some (ascii "hello"))]) := by
  intro hall
  have hsent : (run (watch (step (answering (ascii "upgrade")))
      (Greeting.after (answering (ascii "upgrade")))) (greetingInit (fun _ => true) sampleRand)
      retried).map (fun p => (p.1.ws.state, p.2, (wsClientSend p.1 (some (ascii "hello"))).1)) =
        some (.initHandshake, .begun false, 0) := by decide +kernel
  obtain ⟨p, hr, hp⟩ := Option.map_eq_some_iff.mp hsent
  obtain ⟨-, hp⟩ := Prod.mk.inj hp
  obtain ⟨hbegun, hret⟩ := Prod.mk.inj hp
  rcases (along_of_append hall hr).1 _ _ rfl with ⟨hacc, -⟩ | ⟨hrefused, -⟩
  · cases hacc.symm.trans hbegun
  · cases hrefused.symm.trans hret

end Rastreo.Net
