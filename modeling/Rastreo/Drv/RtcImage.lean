import Rastreo.Lib.Fields
import Rastreo.Lib.Progress
import Rastreo.Drv.Mcp7940x

/-!
# The time registers of the external clock

`MCP7940X_STATE_UPDATING` writes a date into registers that share their bytes with control bits,
`MCP7940X_STATE_CHECK_ON` reads it back.

* `checkOn_updating`, `updating_keeps`: what is read is what was written, and the other bits stay.
* `leads_set`, `leads_get`: the passes of the driver from a request to the end of its transfers,
  when these succeed.
* **`reads_back`**: a date set by `mcp7940x_set_ts` is what the next `mcp7940x_get_ts` reads.
-/

namespace Rastreo.Drv

open Rastreo.Lib

/-! ## The registers -/

/-- The dates that the registers can hold. -/
def InCentury (t : Tm) : Prop := 100 ≤ t.tmYear ∧ t.tmYear ≤ 199

/-- The bits that are not of the date. -/
structure KeepsControl (r r' : McpRegs) : Prop where
  seconds : r'.seconds00h &&& 0x80 = r.seconds00h &&& 0x80
  minutes : r'.minutes01h &&& 0x80 = r.minutes01h &&& 0x80
  hours : r'.hours02h &&& 0xC0 = r.hours02h &&& 0xC0
  day : r'.day03h &&& 0xF8 = r.day03h &&& 0xF8
  date : r'.date04h &&& 0xC0 = r.date04h &&& 0xC0
  month : r'.month05h &&& 0xC0 = r.month05h &&& 0xC0
  control : r'.controlReg07h = r.controlReg07h
  calibration : r'.calibration08h = r.calibration08h

section Digits

variable {z : Int}

/-- A number of two digits, as a case of the finite check below. -/
theorem exists_digits {n : Nat} (h : 0 ≤ z) (h' : z < n) : ∃ d : Fin n, z = (d : Nat) :=
  ⟨⟨z.toNat, by omega⟩, (Int.toNat_of_nonneg h).symm⟩

theorem bcd2dec_dec2bcd (h : 0 ≤ z) (h' : z < 100) : (bcd2dec (dec2bcd (uint8 z))).toNat = z := by
  have hall : ∀ d : Fin 100, ((bcd2dec (dec2bcd (uint8 (d : Nat)))).toNat : Int) = (d : Nat) := by
    decide +kernel
  obtain ⟨d, rfl⟩ := exists_digits (n := 100) h h'
  exact hall d

/-- The digits fit into seven bits. -/
theorem dec2bcd_seven (h : 0 ≤ z) (h' : z < 80) : dec2bcd (uint8 z) &&& 0x7F = dec2bcd (uint8 z) := by
  have hall : ∀ d : Fin 80, dec2bcd (uint8 (d : Nat)) &&& 0x7F = dec2bcd (uint8 (d : Nat)) := by
    decide +kernel
  obtain ⟨d, rfl⟩ := exists_digits (n := 80) h h'
  exact hall d

theorem dec2bcd_six (h : 0 ≤ z) (h' : z < 40) : dec2bcd (uint8 z) &&& 0x3F = dec2bcd (uint8 z) := by
  have hall : ∀ d : Fin 40, dec2bcd (uint8 (d : Nat)) &&& 0x3F = dec2bcd (uint8 (d : Nat)) := by
    decide +kernel
  obtain ⟨d, rfl⟩ := exists_digits (n := 40) h h'
  exact hall d

theorem dec2bcd_five (h : 0 ≤ z) (h' : z < 20) : dec2bcd (uint8 z) &&& 0x1F = dec2bcd (uint8 z) := by
  have hall : ∀ d : Fin 20, dec2bcd (uint8 (d : Nat)) &&& 0x1F = dec2bcd (uint8 (d : Nat)) := by
    decide +kernel
  obtain ⟨d, rfl⟩ := exists_digits (n := 20) h h'
  exact hall d

theorem uint8_day (h : 0 ≤ z) (h' : z < 7) :
    ((uint8 (z + 1) &&& 0x07).toNat : Int) - 1 = z := by
  have hall : ∀ d : Fin 7, ((uint8 ((d : Nat) + 1) &&& 0x07).toNat : Int) - 1 = (d : Nat) := by
    decide +kernel
  obtain ⟨d, rfl⟩ := exists_digits (n := 7) h h'
  exact hall d

end Digits

section Registers

variable {t : Tm}

/-- **The date that was written is read.** -/
theorem checkOn_updating (r : McpRegs) (u : Tm) (ht : t.Valid) (hy : InCentury t) :
    (checkOn (updating r t) u).Same t := by
  obtain ⟨⟨hs0, hs1⟩, ⟨hm0, hm1⟩, ⟨hh0, hh1⟩, ⟨hmon0, hmon1⟩, ⟨hd0, hd1⟩, hw⟩ := ht
  obtain ⟨hy0, hy1⟩ := hy
  have hd31 : t.tmMday ≤ 31 := by
    have hle := monthDays_le ((t.tmYear + 1900) % 400).toNat t.tmMon.toNat
    omega
  have hkeep7 : (0x80 : UInt8) &&& 0x7F = 0 := by decide
  have hkeep6 : (0xC0 : UInt8) &&& 0x3F = 0 := by decide
  have hkeep5 : (0xC0 : UInt8) &&& 0x1F = 0 := by decide
  have hkeep3 : (0xF8 : UInt8) &&& 0x07 = 0 := by decide
  constructor
  · show ((bcd2dec (((r.seconds00h &&& 0x80) ||| dec2bcd (uint8 t.tmSec)) &&& 0x7F)).toNat : Int) = _
    rw [field_read hkeep7 (dec2bcd_seven hs0 (by omega)), bcd2dec_dec2bcd hs0 (by omega)]
  · show ((bcd2dec (((r.minutes01h &&& 0x80) ||| dec2bcd (uint8 t.tmMin)) &&& 0x7F)).toNat : Int) = _
    rw [field_read hkeep7 (dec2bcd_seven hm0 (by omega)), bcd2dec_dec2bcd hm0 (by omega)]
  · show ((bcd2dec (((r.hours02h &&& 0xC0) ||| dec2bcd (uint8 t.tmHour)) &&& 0x3F)).toNat : Int) = _
    rw [field_read hkeep6 (dec2bcd_six hh0 (by omega)), bcd2dec_dec2bcd hh0 (by omega)]
  · show ((bcd2dec (((r.date04h &&& 0xC0) ||| dec2bcd (uint8 t.tmMday)) &&& 0x3F)).toNat : Int) = _
    rw [field_read hkeep6 (dec2bcd_six (by omega) (by omega)), bcd2dec_dec2bcd (by omega) (by omega)]
  · show ((bcd2dec (((r.month05h &&& 0xC0) ||| dec2bcd (uint8 (t.tmMon + 1))) &&& 0x1F)).toNat : Int)
      - 1 = _
    rw [field_read hkeep5 (dec2bcd_five (by omega) (by omega)), bcd2dec_dec2bcd (by omega) (by omega)]
    omega
  · show ((bcd2dec (dec2bcd (uint8 (t.tmYear.tmod 100)))).toNat : Int) + 100 = _
    rw [Int.tmod_eq_emod_of_nonneg (by omega), bcd2dec_dec2bcd (by omega) (by omega)]
    omega
  · show ((((r.day03h &&& 0xF8) ||| (uint8 (t.tmWday + 1) &&& 0x07)) &&& 0x07).toNat : Int) - 1 = _
    rw [field_read hkeep3 (by rw [UInt8.and_assoc, UInt8.and_self]), uint8_day (by omega) (by omega)]

/-- **The bits of the registers that are not of the date stay.** -/
theorem updating_keeps (r : McpRegs) (ht : t.Valid) : KeepsControl r (updating r t) := by
  obtain ⟨⟨hs0, hs1⟩, ⟨hm0, hm1⟩, ⟨hh0, hh1⟩, ⟨hmon0, hmon1⟩, ⟨hd0, hd1⟩, hw⟩ := ht
  have hd31 : t.tmMday ≤ 31 := by
    have hle := monthDays_le ((t.tmYear + 1900) % 400).toNat t.tmMon.toNat
    omega
  have hkeep7 : (0x80 : UInt8) &&& 0x7F = 0 := by decide
  have hkeep6 : (0xC0 : UInt8) &&& 0x3F = 0 := by decide
  have hkeep3 : (0xF8 : UInt8) &&& 0x07 = 0 := by decide
  constructor
  · exact field_keep hkeep7 (dec2bcd_seven hs0 (by omega))
  · exact field_keep hkeep7 (dec2bcd_seven hm0 (by omega))
  · exact field_keep hkeep6 (dec2bcd_six hh0 (by omega))
  · exact field_keep hkeep3 (by rw [UInt8.and_assoc, UInt8.and_self])
  · exact field_keep hkeep6 (dec2bcd_six (by omega) (by omega))
  · exact field_keep hkeep6 (dec2bcd_six (by omega) (by omega))
  · rfl
  · rfl

end Registers

/-! ## The transfers -/

/-- A pass that finds the bus to succeed. -/
def Succeeds (io : McpIo) : Prop := io.accepts = true ∧ io.error = .none

/-- A pass that finds the bus ready. -/
def ready (io : McpIo) : Bool := !io.isBusy

/-- The bus with nothing asked of it. -/
def busIdle : I2cData := ⟨none, 0, false, 0, .idle⟩

/-- A sub-task that has ended well. -/
def ended (m : Mcp) (ok err : McpState) : Mcp :=
  { m with subtaskData := ⟨ok, err, none, 1⟩, i2cData := busIdle, smCurrentState := ok }

/-- The driver with a transfer in the state given, in the second state of the sub-task. -/
def moving (m : Mcp) (k : SubTask) (ok err : McpState) (i : I2cData) : Mcp :=
  { m with subtaskData := ⟨ok, err, some k, 1⟩, i2cData := i }

section Transfers

variable {m : Mcp} {ok err : McpState}

/-- A transfer that has been asked for is started when the bus is ready. -/
theorem starts {k : SubTask} {i : I2cData} {io : McpIo} {bs : Bytes} (hk : k ≠ .wait)
    (htx : i.tx = some bs) (hlen : i.txLength ≠ 0) (hi : i.state = .init)
    (ha : io.accepts = true) :
    drvMcp7940xTasks io (moving m k ok err i) =
        moving m k ok err { i with state := if i.rx then .inProgressRx else .inProgressTx } ∨
      (ready io = false ∧ drvMcp7940xTasks io (moving m k ok err i) = moving m k ok err i) := by
  have hpoll : ∀ j : I2cData, j.state = .init ∨ j.state = .inProgressRx ∨ j.state = .inProgressTx →
      subTaskPoll (moving m k ok err j) = moving m k ok err j := by
    intro j hj
    unfold subTaskPoll moving
    rcases hj with hj | hj | hj <;> simp only [hj]
  have hbus : i2cTask io (moving m k ok err i) = if io.isBusy then moving m k ok err i
      else moving m k ok err { i with state := if i.rx then .inProgressRx else .inProgressTx } := by
    unfold i2cTask moving
    simp only [hi, htx, ha]
    cases i.rx <;> simp [hlen]
  rw [tasks_polling io rfl hk rfl, hbus]
  cases hb : io.isBusy with
  | true =>
    refine .inr ⟨by simp [ready, hb], ?_⟩
    rw [if_pos rfl]
    exact hpoll i (.inl hi)
  | false =>
    refine .inl ?_
    rw [if_neg (by decide)]
    refine hpoll _ ?_
    cases i.rx
    · exact .inr (.inr rfl)
    · exact .inr (.inl rfl)

/-- A transfer under way ends when the bus is ready. -/
theorem finishes {k : SubTask} {i : I2cData} {io : McpIo} {m' : Mcp} (hk : k ≠ .wait)
    (hi : i.state = .inProgressRx ∨ i.state = .inProgressTx) (he : io.error = .none)
    (hm : moveData (moving m k ok err i) (max i.txLength i.rxLength) = moving m' k ok err i) :
    drvMcp7940xTasks io (moving m k ok err i) = ended m' ok err ∨
      (ready io = false ∧ drvMcp7940xTasks io (moving m k ok err i) = moving m k ok err i) := by
  have hwait : subTaskPoll (moving m k ok err i) = moving m k ok err i := by
    unfold subTaskPoll moving
    rcases hi with hi | hi <;> simp only [hi]
  have hbus : i2cTask io (moving m k ok err i) = if io.isBusy then moving m k ok err i
      else moving m' k ok err { i with state := .completed } := by
    unfold i2cTask
    have hstate : (moving m k ok err i).i2cData = i := rfl
    rw [hstate]
    rcases hi with hi | hi <;> simp only [hi, he, hm] <;> rfl
  rw [tasks_polling io rfl hk rfl, hbus]
  cases hb : io.isBusy with
  | true => exact .inr ⟨by simp [ready, hb], hwait⟩
  | false => exact .inl rfl

/-- **A transfer**: it is asked for, started and ended. -/
theorem leads_transfer {k : SubTask} {i : I2cData} {bs : Bytes} {m₀ m' : Mcp} (hk : k ≠ .wait)
    (hasked : ∀ io, Succeeds io → drvMcp7940xTasks io m₀ = moving m k ok err i)
    (htx : i.tx = some bs) (hlen : i.txLength ≠ 0) (hi : i.state = .init)
    (hmove : moveData (moving m k ok err { i with
        state := if i.rx then .inProgressRx else .inProgressTx }) (max i.txLength i.rxLength) =
      moving m' k ok err { i with state := if i.rx then .inProgressRx else .inProgressTx }) :
    Leads drvMcp7940xTasks Succeeds ready 3 m₀ (ended m' ok err) := by
  have hunder : ({ i with state := if i.rx then .inProgressRx else .inProgressTx } : I2cData).state =
      .inProgressRx ∨
      ({ i with state := if i.rx then .inProgressRx else .inProgressTx } : I2cData).state =
        .inProgressTx := by
    cases i.rx
    · exact .inr rfl
    · exact .inl rfl
  refine (Leads.step hasked).trans (m := 1) (n := 2) ?_
  refine (Leads.wait fun io hio => starts hk htx hlen hi hio.1).trans (m := 1) (n := 1) ?_
  exact Leads.wait fun io hio => finishes hk hunder hio.2 hmove

/-- **A read of the first registers**, from the start of its sub-task. -/
theorem leads_read {n : Nat} (hbus : m.i2cData.state = .idle) (hrw : m.rwParams = ⟨0, n⟩) :
    Leads drvMcp7940xTasks Succeeds ready 3 (subTaskInit m .readRegisters ok err)
      (ended { m with sys := m.sys.load (readChip m.chip 0 n) } ok err) := by
  have hasked : ∀ io, Succeeds io → drvMcp7940xTasks io (subTaskInit m .readRegisters ok err) =
      moving m .readRegisters ok err ⟨some [0], 1, true, n, .init⟩ := by
    intro io _
    rw [@tasks_asking (subTaskInit m .readRegisters ok err) .readRegisters io rfl (by decide) rfl
      hbus]
    simp only [request, subTaskInit, hrw]
    rw [← hrw]
    rfl
  have hmove : moveData (moving m .readRegisters ok err ⟨some [0], 1, true, n, .inProgressRx⟩)
      (max 1 n) = moving { m with sys := m.sys.load (readChip m.chip 0 n) } .readRegisters ok err
        ⟨some [0], 1, true, n, .inProgressRx⟩ := by
    have hall : min (max 1 n) n = n := by omega
    unfold moveData moving
    simp only [hall]
    rfl
  exact leads_transfer (by decide) hasked rfl Nat.one_ne_zero rfl hmove

/-- **A write of the first registers**, from the start of its sub-task. -/
theorem leads_write {n : Nat} (hbus : m.i2cData.state = .idle) (hrw : m.rwParams = ⟨0, n⟩) (hn : n ≤ 9) :
    Leads drvMcp7940xTasks Succeeds ready 3 (subTaskInit m .writeRegisters ok err)
      (ended { m with chip := writeChip m.chip 0 (m.sys.s.take n) } ok err) := by
  have hasked : ∀ io, Succeeds io → drvMcp7940xTasks io (subTaskInit m .writeRegisters ok err) =
      moving m .writeRegisters ok err ⟨some (0 :: m.sys.s.take n), n + 1, false, 0, .init⟩ := by
    intro io _
    rw [@tasks_asking (subTaskInit m .writeRegisters ok err) .writeRegisters io rfl (by decide) rfl
      hbus]
    simp only [request, subTaskInit, hrw]
    rw [← hrw]
    rfl
  have hmove : moveData (moving m .writeRegisters ok err
      ⟨some (0 :: m.sys.s.take n), n + 1, false, 0, .inProgressTx⟩) (max (n + 1) 0) =
        moving { m with chip := writeChip m.chip 0 (m.sys.s.take n) } .writeRegisters ok err
          ⟨some (0 :: m.sys.s.take n), n + 1, false, 0, .inProgressTx⟩ := by
    have hall : ((m.sys.s.take n).take (n + 1 - 1)).take (max (n + 1) 0) = m.sys.s.take n := by
      rw [List.take_take, List.take_take]
      congr 1
      omega
    unfold moveData moving
    simp only [hall]
    rfl
  exact leads_transfer (by decide) hasked rfl (Nat.succ_ne_zero n) rfl hmove

end Transfers

/-! ## The requests -/

/-- The time registers of a chip. -/
def imageOf (chip : Nat → UInt8) : McpRegs :=
  ⟨chip 0, chip 1, chip 2, chip 3, chip 4, chip 5, chip 6, chip 7, chip 8⟩

/-- The chip after an update. -/
def dated (m : Mcp) (t : Tm) : Nat → UInt8 :=
  writeChip m.chip 0 ((updating (m.sys.load (readChip m.chip 0 7)) t).s.take 7)

/-- The registers behind the date are not written. -/
theorem dated_behind (m : Mcp) (t : Tm) {a : Nat} (ha : 7 ≤ a) : dated m t a = m.chip a := by
  unfold dated writeChip
  rw [if_pos (Nat.zero_le a)]
  refine (List.getD_eq_default _ _ ?_)
  rw [List.length_take]
  omega

section Requests

variable {m : Mcp}

/-- **The update**, from its request to the idle driver. -/
theorem leads_set (hsub : m.subtaskData.subTask = none) (hbus : m.i2cData.state = .idle)
    (hs : m.smCurrentState = .refreshForUpdate) (hrw : m.rwParams = ⟨0, 7⟩) :
    Leads drvMcp7940xTasks Succeeds ready 8 m
      (ended { m with
        sys := updating (m.sys.load (readChip m.chip 0 7)) m.tsLocal
        chip := dated m m.tsLocal } .idle .error) := by
  have hfirst : ∀ io, Succeeds io →
      drvMcp7940xTasks io m = subTaskInit m .readRegisters .updating .error := by
    intro io _
    unfold drvMcp7940xTasks
    simp only [hsub, hs, hbus, if_true]
  have hread := @leads_read m .updating .error 7 hbus hrw
  have hnext : ∀ io, Succeeds io →
      drvMcp7940xTasks io
          (ended { m with sys := m.sys.load (readChip m.chip 0 7) } .updating .error) =
        subTaskInit (ended { m with
          sys := updating (m.sys.load (readChip m.chip 0 7)) m.tsLocal } .updating .error)
          .writeRegisters .idle .error := by
    intro io _
    show subTaskInit { m with
      rwParams := ⟨0, 7⟩
      sys := updating (m.sys.load (readChip m.chip 0 7)) m.tsLocal
      subtaskData := ⟨.updating, .error, none, 1⟩
      i2cData := busIdle
      smCurrentState := .updating } .writeRegisters .idle .error = _
    rw [← hrw]
    rfl
  have hwrite := @leads_write (ended { m with
    sys := updating (m.sys.load (readChip m.chip 0 7)) m.tsLocal } .updating .error)
    .idle .error 7 rfl hrw (by decide)
  exact (((Leads.step hfirst).trans hread).trans (Leads.step hnext)).trans hwrite

/-- **The read**, from its request to `MCP7940X_STATE_CHECK_ON`. -/
theorem leads_get (hsub : m.subtaskData.subTask = none) (hbus : m.i2cData.state = .idle)
    (hs : m.smCurrentState = .refreshData) (hrw : m.rwParams = ⟨0, 9⟩) :
    Leads drvMcp7940xTasks Succeeds ready 4 m
      (ended { m with sys := imageOf m.chip } .checkOn .error) := by
  have hfirst : ∀ io, Succeeds io →
      drvMcp7940xTasks io m = subTaskInit m .readRegisters .checkOn .error := by
    intro io _
    unfold drvMcp7940xTasks
    simp only [hsub, hs, hbus, if_true]
  exact (Leads.step hfirst).trans (leads_read hbus hrw)

/-- An idle driver stays idle. -/
theorem tasks_idle (hsub : m.subtaskData.subTask = none) (hs : m.smCurrentState = .idle) (io : McpIo) :
    drvMcp7940xTasks io m = m := by
  unfold drvMcp7940xTasks
  simp only [hsub, hs]

end Requests

/-! ## Set and read -/

/-- The driver some passes after `mcp7940x_set_ts`. -/
def afterSet (m : Mcp) (t : Tm) (ios : List McpIo) : Mcp :=
  passes drvMcp7940xTasks (mcp7940xSetTs m t).2 ios

/-- The driver some passes after `mcp7940x_get_ts`. -/
def afterGet (m : Mcp) (cb : Option Nat) (ios : List McpIo) : Mcp :=
  passes drvMcp7940xTasks (mcp7940xGetTs m cb).2 ios

/-- A date is set, and then read. -/
structure RoundTrip (m : Mcp) (t : Tm) (cb : Option Nat) (ios ios' : List McpIo) : Prop where
  accepted : (mcp7940xSetTs m t).1 = 0
  keeps : KeepsControl (imageOf m.chip) (imageOf (afterSet m t ios).chip)
  behind : ∀ a, 7 ≤ a → (afterSet m t ios).chip a = m.chip a
  asked : (mcp7940xGetTs (afterSet m t ios) cb).1 = 0
  read : ∃ as io bs, ios' = as ++ io :: bs ∧
    (afterGet (afterSet m t ios) cb as).smCurrentState = .checkOn ∧
    (afterGet (afterSet m t ios) cb (as ++ [io])).tsLocal.Same t

section RoundTrip

variable {m : Mcp} {t : Tm} {cb : Option Nat} {ios ios' : List McpIo}

/-- The idle driver with the date in the chip. -/
theorem afterSet_eq (hm : m.Settled) (hidle : m.smCurrentState = .idle)
    (hs : ∀ io ∈ ios, Succeeds io) (hn : 8 ≤ ios.countP ready) :
    afterSet m t ios = ended { m with
      tsLocal := t
      rwParams := ⟨0, 7⟩
      sys := updating (m.sys.load (readChip m.chip 0 7)) t
      chip := dated m t } .idle .error := by
  have hset : (mcp7940xSetTs m t).2 =
      { m with tsLocal := t, rwParams := ⟨0, 7⟩, smCurrentState := .refreshForUpdate } := by
    unfold mcp7940xSetTs
    rw [if_neg (not_not.mpr hidle)]
  have hsub := hm.resting hidle
  have hleads := leads_set (m := (mcp7940xSetTs m t).2) (by rw [hset]; exact hsub)
    (by rw [hset]; exact hm.quiet hsub) (by rw [hset]) (by rw [hset])
  rw [hset] at hleads
  unfold afterSet
  rw [hset]
  exact hleads.rest (fun io _ => tasks_idle rfl rfl io) hs hn

/-- What `MCP7940X_STATE_CHECK_ON` leaves in `ts_local`. -/
theorem same_checkOn (ht : t.Valid) (h : (checkOn m.sys m.tsLocal).Same t) :
    m.checkOn.tsLocal.Same t := by
  unfold Mcp.checkOn
  dsimp only
  split
  · rw [callBack_tsLocal, h.mktime_eq]
    exact gmtime_mktime ht
  · rw [callBack_tsLocal]
    exact h

/-- **A read comes to `MCP7940X_STATE_CHECK_ON`**, with the registers of the chip. -/
theorem reaches_checkOn (hsub : m.subtaskData.subTask = none) (hbus : m.i2cData.state = .idle)
    (hidle : m.smCurrentState = .idle) (hs : ∀ io ∈ ios, Succeeds io) (hn : 5 ≤ ios.countP ready) :
    ∃ as io bs, ios = as ++ io :: bs ∧
      afterGet m cb as = ended { m with
        rwParams := ⟨0, 9⟩
        cb := cb.map .user
        sys := imageOf m.chip } .checkOn .error := by
  have hget : (mcp7940xGetTs m cb).2 =
      { m with rwParams := ⟨0, 9⟩, cb := cb.map .user, smCurrentState := .refreshData } := by
    unfold mcp7940xGetTs
    rw [if_neg (not_not.mpr hidle)]
  have hleads := leads_get (m := (mcp7940xGetTs m cb).2) (by rw [hget]; exact hsub)
    (by rw [hget]; exact hbus) (by rw [hget]) (by rw [hget])
  obtain ⟨as, bs, rfl, has, hcount⟩ := hleads ios hs (by omega)
  cases bs with
  | nil =>
    rw [List.countP_nil] at hcount
    omega
  | cons io bs =>
    refine ⟨as, io, bs, rfl, ?_⟩
    unfold afterGet
    rw [has, hget]
    rfl

/-- **A date set is the date read**, and nothing else in the chip changes. -/
theorem reads_back {chip : Nat → UInt8} {es : List McpEvent}
    (hr : run mcpStep (mcpInit chip) es = some m) (hidle : m.smCurrentState = .idle)
    (ht : t.Valid) (hy : InCentury t) (cb : Option Nat) (hs : ∀ io ∈ ios, Succeeds io)
    (hn : 8 ≤ ios.countP ready) (hs' : ∀ io ∈ ios', Succeeds io) (hn' : 5 ≤ ios'.countP ready) :
    RoundTrip m t cb ios ios' := by
  have hm := settled_of_run hr
  have hset := afterSet_eq (t := t) hm hidle hs hn
  constructor
  · unfold mcp7940xSetTs
    rw [if_neg (not_not.mpr hidle)]
  · rw [hset]
    exact updating_keeps (imageOf m.chip) ht
  · intro a ha
    rw [hset]
    exact dated_behind m t ha
  · rw [hset]
    rfl
  · obtain ⟨as, io, bs, heq, hcheck⟩ :=
      @reaches_checkOn (afterSet m t ios) cb ios' (by rw [hset]; rfl) (by rw [hset]; rfl)
        (by rw [hset]; rfl) hs' hn'
    refine ⟨as, io, bs, heq, by rw [hcheck]; rfl, ?_⟩
    have hpass : afterGet (afterSet m t ios) cb (as ++ [io]) =
        drvMcp7940xTasks io (afterGet (afterSet m t ios) cb as) := passes_append _ _ _ _
    rw [hpass, hcheck]
    refine same_checkOn ht ?_
    rw [hset]
    exact checkOn_updating (imageOf m.chip) t ht hy

end RoundTrip

/-- The start of the driver, with the chip turned on, and then its registers changed. -/
def startedBefore (chip : Nat → UInt8) : List McpEvent :=
  List.replicate 12 (.tasks goodPass) ++ [.clock chip]

theorem idle_startedBefore (chip : Nat → UInt8) :
    ∃ m, run mcpStep (mcpInit fun _ => 0) (startedBefore chip) = some m ∧
      m.smCurrentState = .idle ∧ m.chip = chip := by
  have hstart : (run mcpStep (mcpInit fun _ => 0) (List.replicate 12 (.tasks goodPass))).map
      Mcp.smCurrentState = some .idle := by decide +kernel
  obtain ⟨m, hm, hidle⟩ := Option.map_eq_some_iff.mp hstart
  refine ⟨{ m with chip := chip }, ?_, hidle, rfl⟩
  rw [startedBefore, run_append, hm]
  rfl

/-- The leap day of 2024, on a chip with every bit set. -/
theorem reads_back_leapDay :
    ∃ m, run mcpStep (mcpInit fun _ => 0) (startedBefore fun _ => 0xFF) = some m ∧
      RoundTrip m (gmtime 1709210096) (some 0) (List.replicate 8 goodPass)
        (List.replicate 5 goodPass) := by
  obtain ⟨m, hr, hidle, -⟩ := idle_startedBefore fun _ => 0xFF
  have hs : ∀ n, ∀ io ∈ List.replicate n goodPass, Succeeds io := by
    intro n io hio
    rw [List.eq_of_mem_replicate hio]
    exact ⟨rfl, rfl⟩
  exact ⟨m, hr, reads_back hr hidle (valid_gmtime _) (year_gmtime (by decide) (by decide)) (some 0)
    (hs 8) (by decide) (hs 5) (by decide)⟩

end Rastreo.Drv
