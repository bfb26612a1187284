import Rastreo.Net.TcpClient

/-!
# Opening a slot

`tcp_client_open_host` and `tcp_client_open_ip` look for an idle slot with
`while ((clientData[i].state != IDLE) && (i < MAX)) i++`: the slot is read before its index is
tested. The host is copied by `strcpy`.

* `Opened`: what a call does, with the slots it reads and writes and the bytes it copies.
* `OpensFirst`: it stays inside, and opens the first idle slot or none.
* **`opensFirst_iff`**: so it is when some slot is idle, and the host fits.
-/

namespace Rastreo.Net

open Rastreo.Lib

/-! ## The calls, with their accesses -/

/-- What a call does. -/
structure Opened where
  result : OpResult
  slots : Slots
  /-- The indices of the slots that are read, in order. -/
  read : List Nat
  written : List Nat
  /-- How many bytes are written from `hostName_s` on. -/
  copied : Nat

/-- `TCP_NET_MAX_HOSTNAME_STRING_SIZE`. -/
abbrev maxHostnameStringSize : Nat := 128

/-- The state at an index; behind the last slot it is whatever is there. -/
def Slots.stateAt (slots : Slots) (beyond : TcpState) (i : Nat) : TcpState :=
  if h : i < tcpClientMaxSockets then (slots ⟨i, h⟩).state else beyond

/-- The search from `i` on, with this many slots left: where it ends, and what it reads. -/
def searchIdle (state : Nat → TcpState) (i : Nat) : Nat → Nat × List Nat
  | 0 => (i, [i])
  | left + 1 =>
    if state i ≠ .idle then
      let r := searchIdle state (i + 1) left
      (r.1, i :: r.2)
    else (i, [i])

/-- The slot found is filled in; `copied` bytes go to its host name. -/
def openSlot (slots : Slots) (beyond : TcpState) (copied : Nat) (fill : Slot → Slot) : Opened :=
  let r := searchIdle (slots.stateAt beyond) 0 tcpClientMaxSockets
  if h : r.1 < tcpClientMaxSockets then
    ⟨.success, Function.update slots ⟨r.1, h⟩ (fill (slots ⟨r.1, h⟩)), r.2, [r.1], copied⟩
  else ⟨.busy, slots, r.2, [], 0⟩

/-- `tcp_client_open_host`, with its accesses; a host that does not fit is not in the slot. -/
def openHostTraced (slots : Slots) (beyond : TcpState) (host : Bytes) (port : UInt16) (tls : Bool)
    (cb : Option Owner) : Opened :=
  openSlot slots beyond (host.length + 1) fun s =>
    { s with
      hostName := (s.hostName.sprintf host).getD s.hostName
      port := port
      tls := tls
      cb := cb
      state := .dnsResolveHostAddress }

/-- `tcp_client_open_ip`, with its accesses. -/
def openIpTraced (slots : Slots) (beyond : TcpState) (ip : UInt32) (port : UInt16) (tls : Bool)
    (cb : Option Owner) : Opened :=
  openSlot slots beyond 0 fun s =>
    { s with address := ip, port := port, tls := tls, cb := cb, state := .connectionInit }

/-- **The first idle slot is opened**, or none when all are busy, and nothing else is touched. -/
structure OpensFirst (slots : Slots) (o : Opened) : Prop where
  inside : ∀ i ∈ o.read ++ o.written, i < tcpClientMaxSockets
  fits : o.copied ≤ maxHostnameStringSize
  busy : o.result = .busy ↔ ∀ i, (slots i).state ≠ .idle
  unchanged : o.result = .busy → o.slots = slots
  first : ∀ i, firstIdle slots = some i →
    o.result = .success ∧ o.written = [i.val] ∧ ∀ j, j ≠ i → o.slots j = slots j

/-! ## The search -/

section Search

variable {state : Nat → TcpState} {slots : Slots} {beyond : TcpState}

/-- **The search** ends at the first idle slot, or behind the last one, and reads all up to there. -/
theorem searchIdle_spec (state : Nat → TcpState) (i left : Nat) :
    i ≤ (searchIdle state i left).1 ∧ (searchIdle state i left).1 ≤ i + left ∧
      (∀ j, i ≤ j → j < (searchIdle state i left).1 → state j ≠ .idle) ∧
      ((searchIdle state i left).1 < i + left → state (searchIdle state i left).1 = .idle) ∧
      ∀ j, j ∈ (searchIdle state i left).2 ↔ i ≤ j ∧ j ≤ (searchIdle state i left).1 := by
  induction left generalizing i with
  | zero =>
    refine ⟨le_rfl, le_rfl, fun j hle hlt => absurd hlt (Nat.not_lt.mpr hle),
      fun hlt => absurd hlt (lt_irrefl i), fun j => ?_⟩
    exact List.mem_singleton.trans ⟨fun h => ⟨h.ge, h.le⟩, fun h => le_antisymm h.2 h.1⟩
  | succ left ih =>
    unfold searchIdle
    split
    · rename_i hbusy
      obtain ⟨hge, hle, hbefore, hidle, hread⟩ := ih (i + 1)
      dsimp only
      refine ⟨by omega, by omega, fun j hj hlt => ?_, fun hlt => hidle (by omega), fun j => ?_⟩
      · by_cases heq : j = i
        · rw [heq]
          exact hbusy
        · exact hbefore j (by omega) hlt
      · rw [List.mem_cons, hread]
        omega
    · rename_i hidle
      refine ⟨le_rfl, by omega, fun j hj hlt => absurd hlt (Nat.not_lt.mpr hj),
        fun _ => not_not.mp hidle, fun j => ?_⟩
      exact List.mem_singleton.trans ⟨fun h => ⟨h.ge, h.le⟩, fun h => le_antisymm h.2 h.1⟩

theorem stateAt_fin (i : Fin tcpClientMaxSockets) : slots.stateAt beyond i = (slots i).state :=
  dif_pos i.isLt

/-- The first idle slot is the one with no idle slot before it. -/
theorem firstIdle_eq_some {i : Fin tcpClientMaxSockets} (h : (slots i).state = .idle)
    (hbefore : ∀ j < i, (slots j).state ≠ .idle) : firstIdle slots = some i := by
  unfold firstIdle
  rw [List.find?_eq_some_iff_getElem]
  refine ⟨decide_eq_true h, i, by rw [List.length_finRange]; exact i.isLt, by simp, ?_⟩
  intro j hj
  have hne := hbefore ⟨j, hj.trans i.isLt⟩ hj
  simp [hne]

end Search

/-! ## A call -/

section Calls

variable {slots : Slots} {beyond : TcpState} {copied : Nat} {fill : Slot → Slot}

/-- **With an idle slot** the first one is opened. -/
theorem openSlot_idle (h : ∃ i, (slots i).state = .idle) :
    ∃ i, firstIdle slots = some i ∧ (∀ j ∈ (openSlot slots beyond copied fill).read, j ≤ i.val) ∧
      openSlot slots beyond copied fill = ⟨.success, Function.update slots i (fill (slots i)),
        (openSlot slots beyond copied fill).read, [i.val], copied⟩ := by
  obtain ⟨k, hk⟩ := h
  obtain ⟨-, hle, hbefore, hidle, hread⟩ :=
    searchIdle_spec (slots.stateAt beyond) 0 tcpClientMaxSockets
  have hlt : (searchIdle (slots.stateAt beyond) 0 tcpClientMaxSockets).1 < tcpClientMaxSockets := by
    by_contra hend
    exact hbefore k (Nat.zero_le _) (k.isLt.trans_le (Nat.not_lt.mp hend))
      ((stateAt_fin k).trans hk)
  have hopen : openSlot slots beyond copied fill = ⟨.success,
      Function.update slots ⟨_, hlt⟩ (fill (slots ⟨_, hlt⟩)),
      (searchIdle (slots.stateAt beyond) 0 tcpClientMaxSockets).2,
      [(searchIdle (slots.stateAt beyond) 0 tcpClientMaxSockets).1], copied⟩ := dif_pos hlt
  refine ⟨⟨_, hlt⟩, ?_, fun j hj => ?_, ?_⟩
  · refine firstIdle_eq_some ((stateAt_fin ⟨_, hlt⟩).symm.trans (hidle ?_)) fun j hj => ?_
    · rwa [Nat.zero_add]
    · rw [← @stateAt_fin slots beyond j]
      exact hbefore j (Nat.zero_le _) hj
  · rw [hopen] at hj
    exact ((hread j).mp hj).2
  · rw [hopen]

/-- **With none** nothing is opened, and the slot behind the last one is read. -/
theorem openSlot_busy (h : ∀ i, (slots i).state ≠ .idle) :
    (openSlot slots beyond copied fill).result = .busy ∧
      (openSlot slots beyond copied fill).slots = slots ∧
      tcpClientMaxSockets ∈ (openSlot slots beyond copied fill).read := by
  obtain ⟨-, hle, -, hidle, hread⟩ :=
    searchIdle_spec (slots.stateAt beyond) 0 tcpClientMaxSockets
  have hend : ¬ (searchIdle (slots.stateAt beyond) 0 tcpClientMaxSockets).1 < tcpClientMaxSockets := by
    intro hlt
    exact h ⟨_, hlt⟩ ((stateAt_fin ⟨_, hlt⟩).symm.trans (hidle (by rwa [Nat.zero_add])))
  have hopen : openSlot slots beyond copied fill = ⟨.busy, slots,
      (searchIdle (slots.stateAt beyond) 0 tcpClientMaxSockets).2, [], 0⟩ := dif_neg hend
  rw [hopen]
  exact ⟨rfl, rfl, (hread _).mpr ⟨Nat.zero_le _, Nat.not_lt.mp hend⟩⟩

theorem opensFirst_openSlot : OpensFirst slots (openSlot slots beyond copied fill) ↔
    (∃ i, (slots i).state = .idle) ∧ copied ≤ maxHostnameStringSize := by
  constructor
  · intro h
    have hidle : ∃ i, (slots i).state = .idle := by
      by_contra hnone
      obtain ⟨-, -, hread⟩ := @openSlot_busy slots beyond copied fill fun i hi => hnone ⟨i, hi⟩
      exact lt_irrefl _ (h.inside _ (List.mem_append_left _ hread))
    obtain ⟨i, -, -, hopen⟩ := @openSlot_idle slots beyond copied fill hidle
    have hfits := h.fits
    rw [hopen] at hfits
    exact ⟨hidle, hfits⟩
  · rintro ⟨hidle, hfits⟩
    obtain ⟨i, hfirst, hread, hopen⟩ := @openSlot_idle slots beyond copied fill hidle
    generalize openSlot slots beyond copied fill = o at hread hopen ⊢
    rw [hopen]
    refine ⟨fun j hj => ?_, hfits, ⟨?_, fun hnone => ?_⟩, ?_, fun k hk => ?_⟩
    · rcases List.mem_append.mp hj with hj | hj
      · exact (hread j hj).trans_lt i.isLt
      · rw [List.mem_singleton.mp hj]
        exact i.isLt
    · rintro ⟨⟩
    · obtain ⟨k, hk⟩ := hidle
      exact absurd hk (hnone k)
    · rintro ⟨⟩
    · obtain rfl := Option.some.inj (hfirst.symm.trans hk)
      exact ⟨rfl, rfl, fun j hj => Function.update_of_ne hj _ _⟩

theorem firstIdle_eq_none (h : ∀ i, (slots i).state ≠ .idle) : firstIdle slots = none :=
  List.find?_eq_none.mpr fun i _ => by simp [h i]

/-- **The search finds what `firstIdle` is.** -/
theorem openHostTraced_eq (host : Bytes) (port : UInt16) (tls : Bool) (cb : Owner) :
    (openHostTraced slots beyond host port tls (some cb)).result =
        (tcpClientOpenHost slots host port tls cb).1 ∧
      (openHostTraced slots beyond host port tls (some cb)).slots =
        (tcpClientOpenHost slots host port tls cb).2.1 := by
  unfold openHostTraced tcpClientOpenHost
  by_cases hidle : ∃ i, (slots i).state = .idle
  · obtain ⟨i, hfirst, -, hopen⟩ := openSlot_idle hidle
    rw [hopen, hfirst]
    dsimp only
    cases (slots i).hostName.sprintf host <;> exact ⟨rfl, rfl⟩
  · have hbusy : ∀ i, (slots i).state ≠ .idle := fun i hi => hidle ⟨i, hi⟩
    obtain ⟨hres, hsame, -⟩ := openSlot_busy hbusy
    rw [hres, hsame, firstIdle_eq_none hbusy]
    exact ⟨rfl, rfl⟩

theorem openIpTraced_eq (ip : UInt32) (port : UInt16) (tls : Bool) (cb : Owner) :
    (openIpTraced slots beyond ip port tls (some cb)).result =
        (tcpClientOpenIp slots ip port tls cb).1 ∧
      (openIpTraced slots beyond ip port tls (some cb)).slots =
        (tcpClientOpenIp slots ip port tls cb).2 := by
  unfold openIpTraced tcpClientOpenIp
  by_cases hidle : ∃ i, (slots i).state = .idle
  · obtain ⟨i, hfirst, -, hopen⟩ := openSlot_idle hidle
    rw [hopen, hfirst]
    exact ⟨rfl, rfl⟩
  · have hbusy : ∀ i, (slots i).state ≠ .idle := fun i hi => hidle ⟨i, hi⟩
    obtain ⟨hres, hsame, -⟩ := openSlot_busy hbusy
    rw [hres, hsame, firstIdle_eq_none hbusy]
    exact ⟨rfl, rfl⟩

end Calls

/-- **The first idle slot is opened** and nothing else touched exactly when there is one, and its
`hostName_s` holds the host with its NUL. -/
theorem opensFirst_iff (slots : Slots) (beyond : TcpState) (host : Bytes) (ip : UInt32)
    (port : UInt16) (tls : Bool) (cb : Option Owner) :
    (OpensFirst slots (openHostTraced slots beyond host port tls cb) ↔
        (∃ i, (slots i).state = .idle) ∧ host.length < maxHostnameStringSize) ∧
      (OpensFirst slots (openIpTraced slots beyond ip port tls cb) ↔
        ∃ i, (slots i).state = .idle) := by
  refine ⟨opensFirst_openSlot, opensFirst_openSlot.trans ?_⟩
  exact ⟨And.left, fun h => ⟨h, Nat.zero_le _⟩⟩

/-- All slots are established: the fourth is read. -/
theorem not_opensFirst : ¬ ∀ (slots : Slots) (beyond : TcpState) (ip : UInt32) (port : UInt16)
    (tls : Bool) (cb : Option Owner),
      OpensFirst slots (openIpTraced slots beyond ip port tls cb) := by
  intro hall
  have h := hall (fun _ => { Slot.zero with state := .connectionStablished }) .idle 0 80 false none
  exact absurd (h.inside 3 (by decide)) (by decide)

end Rastreo.Net
