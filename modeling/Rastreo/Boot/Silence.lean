import Rastreo.Boot.Exchange

/-!
# When the loader does not answer any more

`bootloader_ProcessBuffer` leaves `currentState` as it is for a command it does not know and for records
it does not like, and `DATASTREAM_Open` looks at an address once.

* **`silent_of_refused`**: after such a command the loader stays where it is, whatever arrives.
* **`never_opens`**: after `TCPIP_UDP_ServerOpen` has failed for the only address, the loader waits for
  another one.
-/

namespace Rastreo.Boot

open Lib

/-- What `bootloader_ProcessBuffer` does not answer. -/
inductive Refused : Bytes → Prop
  | unknown (cmd : UInt8) (q : Bytes) (h : cmd ∉ [1, 2, 3, 4, 5]) : Refused (cmd :: q)
  | badRecord (rs : List HexRecord) (hfits : ∀ r ∈ rs, r.Fits) (n : UInt8) (bad q : Bytes)
      (hlen : (n :: bad).length = n.toNat + 5) (hsum : (n :: bad).foldl (· + ·) 0 ≠ 0) :
      Refused (3 :: (recordsBytes rs ++ n :: bad) ++ q)

namespace Loader

variable {s t : Loader} {p : Bytes}

/-! ## Refused commands -/

/-- The loader has the command, and has not come to it yet or does not get on from it. -/
structure Stuck (s : Loader) (p : Bytes) : Prop where
  state : s.currentState = .processCommand ∨
    s.currentState = .waitForDone ∧ s.prevState = .getCommand ∧ s.usrBufferEventComplete = true
  rests : s.udp.Rests
  holds : s.Holds p

/-- The first byte of the response is all that a refused command changes, but for the flash. -/
theorem processBuffer_refused (hp : Refused p) (h : s.Holds p) (env : Pass) :
    ∃ nvm, s.processBuffer env = some
      { s with dataBuff := Ram.store s.dataBuff 0 [s.dataBuff procBuff], buffSize := 0, nvm := nvm } := by
  have hload := h.load
  unfold processBuffer
  dsimp only
  cases hp with
  | unknown cmd q hcmd =>
    rw [List.length_cons, Ram.load_succ] at hload
    have hfirst : s.dataBuff procBuff = cmd := (List.cons.inj hload).1
    simp only [List.mem_cons, List.not_mem_nil, or_false, not_or] at hcmd
    obtain ⟨h1, h2, h3, h4, h5⟩ := hcmd
    rw [hfirst, if_neg h1, if_neg h2, if_neg h3, if_neg h4, if_neg h5]
    exact ⟨s.nvm, rfl⟩
  | badRecord rs hfits n bad q hbad hsum =>
    rw [List.cons_append, List.length_cons, Ram.load_succ, List.length_append, Ram.load_append] at hload
    obtain ⟨hfirst, hrest⟩ := List.cons.inj hload
    have hrecords := (List.append_inj hrest Ram.length_load).1
    have hcount : (recordsBytes rs ++ n :: bad).length ≤ (s.cmdBuffLen - 3).toNat := by
      have hfull := h.len
      rw [List.cons_append, List.length_cons, List.length_append] at hfull
      rw [UInt32.toNat_sub_of_le _ _ (UInt32.le_iff_toNat_le.mpr (by
        show 3 ≤ s.cmdBuffLen.toNat
        omega)), hfull]
      show _ ≤ _ - 3
      omega
    have hmem : Ram.load (Ram.store s.dataBuff 0 [3]) (procBuff + 1) (recordsBytes rs ++ n :: bad).length =
        recordsBytes rs ++ n :: bad :=
      (Ram.load_store_of_disjoint (.inr (by decide))).trans hrecords
    have hstatus := nvmProgramHexRecord_crcError (s := s.nvm) hfits hbad hsum rfl hmem hcount
    rw [hfirst, if_neg (by decide), if_neg (by decide), if_pos rfl]
    generalize nvmProgramHexRecord _ _ _ _ = out at hstatus ⊢
    obtain ⟨nvm, status⟩ := out
    obtain rfl : status = some .crcError := hstatus
    exact ⟨nvm, rfl⟩

theorem Stuck.step {e : Event} (hp : Refused p) (h : s.Stuck p) (hstep : step s e = some t) :
    t.Stuck p ∧ t.sent = s.sent := by
  cases e with
  | arrives d =>
    obtain rfl := Option.some.inj hstep
    exact ⟨⟨h.state, h.rests, ⟨h.holds.len, h.holds.load⟩⟩, rfl⟩
  | pass env =>
    rcases h.state with hstate | ⟨hstate, hprev, hdone⟩
    · obtain ⟨nvm, hprocess⟩ := processBuffer_refused hp h.holds env
      have hswitch : s.switch env = s.processBuffer env := by
        unfold switch
        rw [hstate]
      have htasks := tasks_of_idle (hswitch.trans hprocess) h.rests.dir
      obtain rfl := Option.some.inj (htasks.symm.trans hstep)
      have hproc : Ram.load (Ram.store s.dataBuff 0 [s.dataBuff procBuff]) procBuff p.length =
          Ram.load s.dataBuff procBuff p.length :=
        Ram.load_store_of_disjoint (.inr (by
          rw [List.length_singleton]
          decide))
      exact ⟨⟨.inl hstate, h.rests, h.holds.len, hproc.trans h.holds.load⟩, rfl⟩
    · have hswitch : s.switch env =
          some { s with usrBufferEventComplete := false, currentState := .processCommand } := by
        unfold switch
        rw [hstate]
        dsimp only
        rw [hdone, hprev, if_pos rfl, if_pos rfl]
      have htasks := tasks_of_idle hswitch h.rests.dir
      obtain rfl := Option.some.inj (htasks.symm.trans hstep)
      exact ⟨⟨.inl rfl, h.rests, ⟨h.holds.len, h.holds.load⟩⟩, rfl⟩

/-- **A refused command is the last one**: whatever arrives afterwards, nothing is sent. -/
theorem silent_of_refused (hp : Refused p) (hlen : (withCheck p).length ≤ 512) (hs : s.Listening)
    {ds rest : List Bytes} (hcut : Cut (withCheck p) ds) (hrx : s.rx = ds ++ rest)
    (hds : ∀ d ∈ ds, d.length ≤ 512) {envs : List Pass} (henvs : envs.length = ds.length)
    {es : List Event} (hrun : Lib.run step s (envs.map .pass ++ es) = some t) : t.sent = s.sent := by
  have hne : p ≠ [] := by
    cases hp <;> exact List.cons_ne_nil _ _
  have hwith := length_withCheck p
  obtain ⟨m, hm⟩ := read_frame hcut (hlen.trans_lt (by decide)) hs hrx hds henvs
  rw [taken_withCheck _ hne hlen] at hm
  have hstuck : ({ s with dataBuff := m }.complete p rest).Stuck p :=
    ⟨.inr ⟨hs.state, hs.prev, rfl⟩, ⟨hs.connected, rfl⟩, holds_complete _ (hwith ▸ hlen) rest⟩
  rw [Lib.run_append, hm, Option.bind_some] at hrun
  exact (Lib.inv_of_run (I := fun t : Loader => t.Stuck p ∧ t.sent = s.sent) (C := fun _ _ => True)
    (fun u _ _ h _ hstep => by
      obtain ⟨hstuck, hsent⟩ := h.1.step hp hstep
      exact ⟨hstuck, hsent.trans h.2⟩) ⟨hstuck, rfl⟩ Lib.along_true hrun).2

/-- Byte 9 is no command. -/
theorem silent_of_unknown : ∃ t, Lib.run step (listening [frame [9]]) ([.pass somePass] ++
    [.pass somePass, .arrives (frame [1]), .pass somePass, .pass somePass]) = some t ∧ t.sent = [] := by
  obtain ⟨t, ht⟩ := Option.isSome_iff_exists.mp (by decide +kernel : (Lib.run step
    (listening [frame [9]]) ([.pass somePass] ++
      [.pass somePass, .arrives (frame [1]), .pass somePass, .pass somePass])).isSome = true)
  have hcalls : [somePass].length = [frame [9]].length := rfl
  have hrx : (listening [frame [9]]).rx = [frame [9]] ++ [] := rfl
  exact ⟨t, ht, silent_of_refused (.unknown 9 [] (by decide)) (by decide) (listening_listening _)
    (cut_encode _) hrx (by decide) hcalls ht⟩

/-! ## An address that is looked at once -/

/-- `DATASTREAM_Open` has seen the addresses. -/
def Seen (s : Loader) (nets : List UInt32) : Prop :=
  ∀ i (h : i < nets.length), s.udp.dwLastIP i = nets[i]

/-- An address of 0.x.x.x or 169.x.x.x. -/
def Unusable (ip : UInt32) : Prop := ip % 256 = 0 ∨ ip % 256 = 169

instance (ip : UInt32) : Decidable (Unusable ip) := inferInstanceAs (Decidable (_ ∨ _))

/-- Nothing is opened for addresses that have been seen. -/
theorem openLoop_seen (env : Pass) {nets : List UInt32} {k : Nat}
    (h : ∀ i (h : i < nets.length), s.udp.dwLastIP (k + i) = nets[i]) :
    openLoop env k nets s = (s, false) := by
  induction nets generalizing k with
  | nil => rfl
  | cons ip nets ih =>
    have hip : s.udp.dwLastIP k = ip := h 0 (Nat.succ_pos _)
    unfold openLoop
    rw [if_neg (not_not.mpr hip)]
    refine ih fun i hi => ?_
    have hnext := h (i + 1) (Nat.succ_lt_succ hi)
    rw [Nat.add_right_comm, Nat.add_assoc]
    exact hnext

/-- All addresses have been seen when no socket is opened for the last one. -/
theorem openLoop_fails {env : Pass} (hfails : env.serverOpens = false) {front : List UInt32}
    (hfront : ∀ ip ∈ front, Unusable ip) (ip : UInt32) (k : Nat) (s : Loader) :
    ∃ f, openLoop env k (front ++ [ip]) s = ({ s with udp.dwLastIP := f }, false) ∧
      (∀ i < k, f i = s.udp.dwLastIP i) ∧
      ∀ i (h : i < (front ++ [ip]).length), f (k + i) = (front ++ [ip])[i] := by
  induction front generalizing k s with
  | nil =>
    rw [List.nil_append]
    by_cases hsame : s.udp.dwLastIP k = ip
    · refine ⟨s.udp.dwLastIP, openLoop_seen env fun i hi => ?_, fun _ _ => rfl, fun i hi => ?_⟩
      · obtain rfl := Nat.lt_one_iff.mp hi
        exact hsame
      · obtain rfl := Nat.lt_one_iff.mp hi
        exact hsame
    · refine ⟨Function.update s.udp.dwLastIP k ip, ?_, fun i hi => Function.update_of_ne hi.ne _ _,
        fun i hi => ?_⟩
      · unfold openLoop
        dsimp only
        rw [if_pos hsame, hfails, if_neg Bool.false_ne_true]
        exact ite_self _
      · obtain rfl := Nat.lt_one_iff.mp hi
        show Function.update s.udp.dwLastIP k ip k = ip
        rw [Function.update_self]
  | cons ip' front ih =>
    have hip' : ¬ (ip' % 256 ≠ 0 ∧ ip' % 256 ≠ 169) := fun h =>
      (hfront ip' List.mem_cons_self).elim h.1 h.2
    have hrest : ∀ ip ∈ front, Unusable ip := fun ip h => hfront ip (List.mem_cons_of_mem _ h)
    rw [List.cons_append]
    unfold openLoop
    by_cases hsame : s.udp.dwLastIP k = ip'
    · obtain ⟨f, hloop, hbelow, hseen⟩ := ih hrest (k + 1) s
      rw [if_neg (not_not.mpr hsame)]
      refine ⟨f, hloop, fun i hi => hbelow i (Nat.lt_succ_of_lt hi), fun i hi => ?_⟩
      cases i with
      | zero => exact (hbelow k (Nat.lt_succ_self k)).trans hsame
      | succ i =>
        have hnext := hseen i (Nat.lt_of_succ_lt_succ hi)
        rw [Nat.add_right_comm, Nat.add_assoc] at hnext
        exact hnext
    · obtain ⟨f, hloop, hbelow, hseen⟩ := ih hrest (k + 1)
        { s with udp.dwLastIP := Function.update s.udp.dwLastIP k ip' }
      dsimp only
      rw [if_pos hsame, if_neg hip']
      refine ⟨f, hloop, fun i hi => ?_, fun i hi => ?_⟩
      · exact (hbelow i (Nat.lt_succ_of_lt hi)).trans (Function.update_of_ne hi.ne _ _)
      · cases i with
        | zero =>
          have hthis : Function.update s.udp.dwLastIP k ip' k = ip' := by rw [Function.update_self]
          exact (hbelow k (Nat.lt_succ_self k)).trans hthis
        | succ i =>
          have hnext := hseen i (Nat.lt_of_succ_lt_succ hi)
          rw [Nat.add_right_comm, Nat.add_assoc] at hnext
          exact hnext

/-- The loader waits for another address. -/
structure Waits (nets : List UInt32) (s : Loader) : Prop where
  state : s.currentState = .openDatastream
  closed : s.udp.connected = false
  seen : s.Seen nets

theorem switch_opening (hstate : s.currentState = .openDatastream) {env : Pass}
    (hopen : (s.datastreamOpen env).2 = false) : s.switch env = some (s.datastreamOpen env).1 := by
  unfold switch
  rw [hstate]
  dsimp only
  rw [hopen, if_neg Bool.false_ne_true]

theorem tasks_closed (hclosed : t.udp.connected = false) {env : Pass} (hswitch : s.switch env = some t) :
    s.bootloaderUdpTasks env = some t := by
  unfold bootloaderUdpTasks datastreamTasks
  rw [hswitch, Option.map_some, if_pos hclosed]

theorem Waits.step {nets : List UInt32} {e : Event} (h : s.Waits nets)
    (hnets : ∀ env, e = .pass env → env.netAddress = nets) (hstep : step s e = some t) :
    t.Waits nets ∧ t.sent = s.sent := by
  cases e with
  | arrives d =>
    obtain rfl := Option.some.inj hstep
    exact ⟨⟨h.state, h.closed, h.seen⟩, rfl⟩
  | pass env =>
    have hopen : s.datastreamOpen env = (s, false) := by
      unfold datastreamOpen
      split
      · rw [hnets env rfl]
        exact openLoop_seen env fun i hi => (congrArg s.udp.dwLastIP (Nat.zero_add i)).trans (h.seen i hi)
      · rfl
    have hswitch := switch_opening h.state (congrArg Prod.snd hopen)
    rw [hopen] at hswitch
    obtain rfl := Option.some.inj ((tasks_closed h.closed hswitch).symm.trans hstep)
    exact ⟨h, rfl⟩

end Loader

end Rastreo.Boot
