import Rastreo.Drv.RtcImage

/-!
# System time (`pmz_time.c`, `plib_rtcc.c`)

The time is kept by the clock of the processor, in BCD fields of two registers; `pmz_time_set` sets
it and hands what it then reads from it to the external clock.

* The masks and positions of the fields come from the header of the device (`RtccHeader`).
* The waits for the synchronization of the registers are left out.
* `timeGet_timeSet`: the registers give back the date that was set.
* **`clocks_agree`**: after `pmz_time_set` both clocks report the time that was set.
-/

namespace Rastreo.Drv

open Rastreo.Lib

/-! ## The clock of the processor -/

/-- `_…_MASK` and `_…_POSITION` of a field. -/
structure RtccField where
  mask : UInt32
  position : UInt32
  deriving DecidableEq, Repr

/-- The fields of `RTCTIME` and `RTCDATE`. -/
structure RtccHeader where
  hr10 : RtccField
  hr01 : RtccField
  min10 : RtccField
  min01 : RtccField
  sec10 : RtccField
  sec01 : RtccField
  year10 : RtccField
  year01 : RtccField
  month10 : RtccField
  month01 : RtccField
  day10 : RtccField
  day01 : RtccField
  wday01 : RtccField
  deriving DecidableEq, Repr

/-- The digits that the fields are documented to select. -/
structure RtccHeader.Documented (d : RtccHeader) : Prop where
  hr10 : d.hr10 = ⟨0x30000000, 28⟩
  hr01 : d.hr01 = ⟨0x0F000000, 24⟩
  min10 : d.min10 = ⟨0x00700000, 20⟩
  min01 : d.min01 = ⟨0x000F0000, 16⟩
  sec10 : d.sec10 = ⟨0x00007000, 12⟩
  sec01 : d.sec01 = ⟨0x00000F00, 8⟩
  year10 : d.year10 = ⟨0xF0000000, 28⟩
  year01 : d.year01 = ⟨0x0F000000, 24⟩
  month10 : d.month10 = ⟨0x00100000, 20⟩
  month01 : d.month01 = ⟨0x000F0000, 16⟩
  day10 : d.day10 = ⟨0x00003000, 12⟩
  day01 : d.day01 = ⟨0x00000F00, 8⟩
  wday01 : d.wday01 = ⟨0x00000007, 0⟩

/-- `RTCTIME`, `RTCDATE` and the ON bit of `RTCCON`. -/
structure Rtcc where
  rtctime : UInt32
  rtcdate : UInt32
  on : Bool
  deriving DecidableEq, Repr

/-- `decimaltobcd`. -/
def decimaltobcd (aDecValue : UInt32) : UInt32 :=
  ((aDecValue / 10) <<< 4) + (aDecValue - aDecValue / 10 * 10)

/-- `bcdtodecimal`. -/
def bcdtodecimal (aBcdValue : UInt32) : UInt32 :=
  (10 : UInt32) * ((aBcdValue &&& 0xF0) >>> 4) + (aBcdValue &&& 0x0F)

/-- `(uint32_t)` of an `int`, and back. -/
def uint32 (z : Int) : UInt32 := UInt32.ofInt z

/-- The `int` with the bits of a `uint32_t`. -/
def int32 (u : UInt32) : Int := u.toBitVec.toInt

/-- `RTCC_TimeSet`. -/
def rtccTimeSet (d : RtccHeader) (time : Tm) : Rtcc where
  rtctime :=
    ((decimaltobcd (uint32 time.tmHour) <<< d.hr01.position) &&& (d.hr10.mask ||| d.hr01.mask)) |||
    ((decimaltobcd (uint32 time.tmMin) <<< d.min01.position) &&& (d.min10.mask ||| d.min01.mask)) |||
    ((decimaltobcd (uint32 time.tmSec) <<< d.sec01.position) &&& (d.sec10.mask ||| d.sec01.mask))
  rtcdate :=
    ((decimaltobcd (uint32 time.tmYear % 100) <<< d.year01.position) &&&
      (d.year01.mask ||| d.year10.mask)) |||
    ((decimaltobcd (uint32 time.tmMon + 1) <<< d.month01.position) &&&
      (d.month01.mask ||| d.month10.mask)) |||
    ((decimaltobcd (uint32 time.tmMday) <<< d.day01.position) &&& (d.day01.mask ||| d.day10.mask)) |||
    (decimaltobcd (uint32 time.tmWday) &&& d.wday01.mask)
  on := true

/-- The number in two fields of a register. -/
def twoDigits (data : UInt32) (tens ones : RtccField) : UInt32 :=
  10 * bcdtodecimal ((data &&& tens.mask) >>> tens.position) +
    bcdtodecimal ((data &&& ones.mask) >>> ones.position)

/-- `RTCC_TimeGet`; `tm_yday` and `tm_isdst` are set to 0. -/
def rtccTimeGet (d : RtccHeader) (r : Rtcc) : Tm where
  tmHour := int32 (twoDigits r.rtctime d.hr10 d.hr01)
  tmMin := int32 (twoDigits r.rtctime d.min10 d.min01)
  tmSec := int32 (twoDigits r.rtctime d.sec10 d.sec01)
  tmYear := int32 (twoDigits r.rtcdate d.year10 d.year01 + 100)
  tmMon := int32 (twoDigits r.rtcdate d.month10 d.month01 - 1)
  tmMday := int32 (twoDigits r.rtcdate d.day10 d.day01)
  tmWday := int32 (bcdtodecimal ((r.rtcdate &&& d.wday01.mask) >>> d.wday01.position))
  tmYday := 0
  tmIsdst := 0

/-! ## System time -/

/-- The statics of `pmz_time.c` and the two clocks. -/
structure PmzTime where
  utcT : Tm
  utcTs : Int
  sysTimeIsReliable : Bool
  rtcc : Rtcc
  mcp : Mcp

section Functions

variable (d : RtccHeader) (s : PmzTime)

/-- `pmz_time_get_s`: the result is `utc_t`. -/
def pmzTimeGetS : PmzTime := { s with utcT := rtccTimeGet d s.rtcc }

/-- `pmz_time_get`: the result is `utc_ts`. -/
def pmzTimeGet : PmzTime :=
  let ts := mktime (rtccTimeGet d s.rtcc)
  { s with utcT := gmtime ts, utcTs := ts }

/-- `update_external_rtcc`, with what `mcp7940x_set_ts` returns. -/
def updateExternalRtcc : Int × PmzTime :=
  let s := pmzTimeGetS d s
  ((mcp7940xSetTs s.mcp s.utcT).1, { s with mcp := (mcp7940xSetTs s.mcp s.utcT).2 })

/-- `pmz_time_set_s`. -/
def pmzTimeSetS (t : Tm) : PmzTime := (updateExternalRtcc d { s with rtcc := rtccTimeSet d t }).2

/-- `pmz_time_set`; the first line of its log reads the time. -/
def pmzTimeSet (ts : Int) (updateExternalRTCC : Bool) : PmzTime :=
  let s := pmzTimeGet d s
  let s := { s with utcT := gmtime ts, rtcc := rtccTimeSet d (gmtime ts) }
  let s := if updateExternalRTCC then (updateExternalRtcc d s).2 else s
  { s with sysTimeIsReliable := true }

end Functions

/-! ## The registers give the date back -/

/-- A number put into its two fields. -/
def placed (u : UInt32) (tens ones : RtccField) : UInt32 :=
  (decimaltobcd u <<< ones.position) &&& (tens.mask ||| ones.mask)

/-- The pairs of fields: hours, minutes, seconds, years, months, days; each with the number of
values it can hold. -/
def fieldPairs : List (RtccField × RtccField × Nat) :=
  [(⟨0x30000000, 28⟩, ⟨0x0F000000, 24⟩, 24), (⟨0x00700000, 20⟩, ⟨0x000F0000, 16⟩, 60),
    (⟨0x00007000, 12⟩, ⟨0x00000F00, 8⟩, 60), (⟨0xF0000000, 28⟩, ⟨0x0F000000, 24⟩, 100),
    (⟨0x00100000, 20⟩, ⟨0x000F0000, 16⟩, 13), (⟨0x00003000, 12⟩, ⟨0x00000F00, 8⟩, 32)]

section Digits

variable {z : Int}

/-- The two digits of a number come back. -/
theorem twoDigits_placed {tens ones : RtccField} {n : Nat} (hmem : (tens, ones, n) ∈ fieldPairs)
    (h : 0 ≤ z) (h' : z < n) : twoDigits (placed (uint32 z) tens ones) tens ones = uint32 z := by
  have hall : ∀ p ∈ fieldPairs, ∀ k : Fin p.2.2,
      twoDigits (placed (uint32 (k : Nat)) p.1 p.2.1) p.1 p.2.1 = uint32 (k : Nat) := by
    decide +kernel
  obtain ⟨k, rfl⟩ := exists_digits h h'
  exact hall _ hmem k

theorem wday_placed (h : 0 ≤ z) (h' : z < 7) :
    bcdtodecimal (((decimaltobcd (uint32 z) &&& 7) &&& 7) >>> 0) = uint32 z := by
  have hall : ∀ k : Fin 7, bcdtodecimal (((decimaltobcd (uint32 (k : Nat)) &&& 7) &&& 7) >>> 0) =
      uint32 (k : Nat) := by decide +kernel
  obtain ⟨k, rfl⟩ := exists_digits (n := 7) h h'
  exact hall k

theorem int32_uint32 (h : 0 ≤ z) (h' : z < 100) : int32 (uint32 z) = z := by
  have hall : ∀ k : Fin 100, int32 (uint32 (k : Nat)) = (k : Nat) := by decide +kernel
  obtain ⟨k, rfl⟩ := exists_digits (n := 100) h h'
  exact hall k

/-- The month, counted from 1 in the register. -/
theorem uint32_month (h : 0 ≤ z) (h' : z < 12) :
    uint32 z + 1 = uint32 (z + 1) ∧ int32 (uint32 (z + 1) - 1) = z := by
  have hall : ∀ k : Fin 12, uint32 (k : Nat) + 1 = uint32 ((k : Nat) + 1) ∧
      int32 (uint32 ((k : Nat) + 1) - 1) = (k : Nat) := by decide +kernel
  obtain ⟨k, rfl⟩ := exists_digits (n := 12) h h'
  exact hall k

/-- The year, counted from 2000 in the register. -/
theorem uint32_year (h : 100 ≤ z) (h' : z ≤ 199) :
    uint32 z % 100 = uint32 (z - 100) ∧ int32 (uint32 (z - 100) + 100) = z := by
  have hall : ∀ k : Fin 100, uint32 ((k : Nat) + 100) % 100 = uint32 (k : Nat) ∧
      int32 (uint32 (k : Nat) + 100) = (k : Nat) + 100 := by decide +kernel
  obtain ⟨k, hk⟩ := exists_digits (z := z - 100) (n := 100) (by omega) (by omega)
  obtain rfl : z = (k : Nat) + 100 := by omega
  rw [hk]
  exact hall k

end Digits

/-- Where a register has the fields of a number, it has the number. -/
theorem twoDigits_of_and {data u : UInt32} {tens ones : RtccField}
    (ht : data &&& tens.mask = placed u tens ones &&& tens.mask)
    (ho : data &&& ones.mask = placed u tens ones &&& ones.mask) :
    twoDigits data tens ones = twoDigits (placed u tens ones) tens ones := by
  unfold twoDigits
  rw [ht, ho]

section Registers

variable {d : RtccHeader} {t : Tm}

theorem rtctime_eq (hd : d.Documented) (t : Tm) : (rtccTimeSet d t).rtctime =
    placed (uint32 t.tmHour) ⟨0x30000000, 28⟩ ⟨0x0F000000, 24⟩ |||
      placed (uint32 t.tmMin) ⟨0x00700000, 20⟩ ⟨0x000F0000, 16⟩ |||
      placed (uint32 t.tmSec) ⟨0x00007000, 12⟩ ⟨0x00000F00, 8⟩ := by
  unfold rtccTimeSet placed
  simp only [hd.hr10, hd.hr01, hd.min10, hd.min01, hd.sec10, hd.sec01]

theorem rtcdate_eq (hd : d.Documented) (t : Tm) : (rtccTimeSet d t).rtcdate =
    placed (uint32 t.tmYear % 100) ⟨0xF0000000, 28⟩ ⟨0x0F000000, 24⟩ |||
      placed (uint32 t.tmMon + 1) ⟨0x00100000, 20⟩ ⟨0x000F0000, 16⟩ |||
      placed (uint32 t.tmMday) ⟨0x00003000, 12⟩ ⟨0x00000F00, 8⟩ |||
      (decimaltobcd (uint32 t.tmWday) &&& 7) := by
  unfold rtccTimeSet placed
  simp only [hd.year10, hd.year01, hd.month10, hd.month01, hd.day10, hd.day01, hd.wday01]
  rw [UInt32.or_comm 0x0F000000 0xF0000000, UInt32.or_comm 0x000F0000 0x00100000,
    UInt32.or_comm 0x00000F00 0x00003000]

/-- The hours, minutes and seconds in `RTCTIME`. -/
theorem time_selected (hd : d.Documented) (t : Tm) :
    twoDigits (rtccTimeSet d t).rtctime ⟨0x30000000, 28⟩ ⟨0x0F000000, 24⟩ =
        twoDigits (placed (uint32 t.tmHour) ⟨0x30000000, 28⟩ ⟨0x0F000000, 24⟩)
          ⟨0x30000000, 28⟩ ⟨0x0F000000, 24⟩ ∧
      twoDigits (rtccTimeSet d t).rtctime ⟨0x00700000, 20⟩ ⟨0x000F0000, 16⟩ =
        twoDigits (placed (uint32 t.tmMin) ⟨0x00700000, 20⟩ ⟨0x000F0000, 16⟩)
          ⟨0x00700000, 20⟩ ⟨0x000F0000, 16⟩ ∧
      twoDigits (rtccTimeSet d t).rtctime ⟨0x00007000, 12⟩ ⟨0x00000F00, 8⟩ =
        twoDigits (placed (uint32 t.tmSec) ⟨0x00007000, 12⟩ ⟨0x00000F00, 8⟩)
          ⟨0x00007000, 12⟩ ⟨0x00000F00, 8⟩ := by
  rw [rtctime_eq hd]
  refine ⟨?_, ?_, ?_⟩
  all_goals
    refine twoDigits_of_and ?_ ?_ <;>
      simp (disch := decide) only [placed, field_or, field_other, UInt32.or_zero, UInt32.zero_or]

/-- The years, months, days and days of the week in `RTCDATE`. -/
theorem date_selected (hd : d.Documented) (t : Tm) :
    twoDigits (rtccTimeSet d t).rtcdate ⟨0xF0000000, 28⟩ ⟨0x0F000000, 24⟩ =
        twoDigits (placed (uint32 t.tmYear % 100) ⟨0xF0000000, 28⟩ ⟨0x0F000000, 24⟩)
          ⟨0xF0000000, 28⟩ ⟨0x0F000000, 24⟩ ∧
      twoDigits (rtccTimeSet d t).rtcdate ⟨0x00100000, 20⟩ ⟨0x000F0000, 16⟩ =
        twoDigits (placed (uint32 t.tmMon + 1) ⟨0x00100000, 20⟩ ⟨0x000F0000, 16⟩)
          ⟨0x00100000, 20⟩ ⟨0x000F0000, 16⟩ ∧
      twoDigits (rtccTimeSet d t).rtcdate ⟨0x00003000, 12⟩ ⟨0x00000F00, 8⟩ =
        twoDigits (placed (uint32 t.tmMday) ⟨0x00003000, 12⟩ ⟨0x00000F00, 8⟩)
          ⟨0x00003000, 12⟩ ⟨0x00000F00, 8⟩ ∧
      (rtccTimeSet d t).rtcdate &&& 7 = (decimaltobcd (uint32 t.tmWday) &&& 7) &&& 7 := by
  rw [rtcdate_eq hd]
  refine ⟨?_, ?_, ?_, ?_⟩
  iterate 3
    refine twoDigits_of_and ?_ ?_ <;>
      simp (disch := decide) only [placed, field_or, field_other, UInt32.or_zero, UInt32.zero_or]
  simp (disch := decide) only [placed, field_or, field_other, UInt32.or_zero, UInt32.zero_or]

/-- **The registers give the date back.** -/
theorem timeGet_timeSet (hd : d.Documented) (ht : t.Valid) (hy : InCentury t) :
    (rtccTimeGet d (rtccTimeSet d t)).Same t := by
  obtain ⟨⟨hs0, hs1⟩, ⟨hm0, hm1⟩, ⟨hh0, hh1⟩, ⟨hmon0, hmon1⟩, ⟨hd0, hd1⟩, hw⟩ := ht
  obtain ⟨hy0, hy1⟩ := hy
  have hd31 : t.tmMday ≤ 31 := by
    have hle := monthDays_le ((t.tmYear + 1900) % 400).toNat t.tmMon.toNat
    omega
  obtain ⟨hmonth, hmonth'⟩ := uint32_month hmon0 (by omega)
  obtain ⟨hyear, hyear'⟩ := uint32_year hy0 hy1
  obtain ⟨hhour, hmin, hsec⟩ := time_selected hd t
  obtain ⟨hyr, hmon, hday, hwday⟩ := date_selected hd t
  rw [hyear] at hyr
  rw [hmonth] at hmon
  constructor
  · show int32 (twoDigits _ d.sec10 d.sec01) = _
    rw [hd.sec10, hd.sec01, hsec, twoDigits_placed (n := 60) (by decide) hs0 (by omega),
      int32_uint32 hs0 (by omega)]
  · show int32 (twoDigits _ d.min10 d.min01) = _
    rw [hd.min10, hd.min01, hmin, twoDigits_placed (n := 60) (by decide) hm0 (by omega),
      int32_uint32 hm0 (by omega)]
  · show int32 (twoDigits _ d.hr10 d.hr01) = _
    rw [hd.hr10, hd.hr01, hhour, twoDigits_placed (n := 24) (by decide) hh0 (by omega),
      int32_uint32 hh0 (by omega)]
  · show int32 (twoDigits _ d.day10 d.day01) = _
    rw [hd.day10, hd.day01, hday, twoDigits_placed (n := 32) (by decide) (by omega) (by omega),
      int32_uint32 (by omega) (by omega)]
  · show int32 (twoDigits _ d.month10 d.month01 - 1) = _
    rw [hd.month10, hd.month01, hmon, twoDigits_placed (n := 13) (by decide) (by omega) (by omega),
      hmonth']
  · show int32 (twoDigits _ d.year10 d.year01 + 100) = _
    rw [hd.year10, hd.year01, hyr, twoDigits_placed (n := 100) (by decide) (by omega) (by omega),
      hyear']
  · show int32 (bcdtodecimal ((_ &&& d.wday01.mask) >>> d.wday01.position)) = _
    rw [hd.wday01, hwday, wday_placed (by omega) (by omega), int32_uint32 (by omega) (by omega)]

end Registers

/-! ## Both clocks -/

/-- The chip runs and has its battery enabled. -/
def Running (chip : Nat → UInt8) : Prop := (imageOf chip).st = true ∧ (imageOf chip).vbaten = true

/-- Both clocks report `ts`: the one of the processor through `pmz_time_get`, the external one
through the callback of `mcp7940x_get_ts`, and nothing else is called back. -/
structure Reports (d : RtccHeader) (s : PmzTime) (ts : Int) (cb : Nat) (ios ios' : List McpIo) :
    Prop where
  rtcc : (pmzTimeGet d s).utcTs = ts
  asked : (mcp7940xGetTs (passes drvMcp7940xTasks s.mcp ios) (some cb)).1 = 0
  external : (afterGet (passes drvMcp7940xTasks s.mcp ios) (some cb) ios').calls =
    (.user cb, ⟨true, ts, true⟩) :: s.mcp.calls

section Clocks

variable {d : RtccHeader} {s : PmzTime} {ts : Int}

theorem Valid.of_same {t u : Tm} (h : u.Valid) (hs : t.Same u) : t.Valid := by
  constructor
  · rw [hs.sec]
    exact h.sec
  · rw [hs.min]
    exact h.min
  · rw [hs.hour]
    exact h.hour
  · rw [hs.mon]
    exact h.mon
  · rw [hs.mday, hs.year, hs.mon]
    exact h.mday
  · rw [hs.wday, hs.year, hs.mon, hs.mday]
    exact h.wday

/-- What `pmz_time_set` leaves: the date in the registers, and the request to the driver. -/
theorem pmzTimeSet_eq (d : RtccHeader) (s : PmzTime) (ts : Int) :
    (pmzTimeSet d s ts true).rtcc = rtccTimeSet d (gmtime ts) ∧
      (pmzTimeSet d s ts true).mcp =
        (mcp7940xSetTs s.mcp (rtccTimeGet d (rtccTimeSet d (gmtime ts)))).2 := ⟨rfl, rfl⟩

/-- The chip runs on with the date in it. -/
theorem running_updating {m : Mcp} {t : Tm} (ht : t.Valid) (h : Running m.chip) :
    (updating (imageOf m.chip) t).st = true ∧ (updating (imageOf m.chip) t).vbaten = true := by
  obtain ⟨hst, hvbaten⟩ := h
  have hkeep := updating_keeps (imageOf m.chip) ht
  have hbit : ∀ r : McpRegs, r.vbaten = decide ((r.day03h &&& 0xF8) &&& 0x08 ≠ 0) := by
    intro r
    rw [UInt8.and_assoc]
    rfl
  constructor
  · unfold McpRegs.st at hst ⊢
    rw [hkeep.seconds]
    exact hst
  · rw [hbit] at hvbaten ⊢
    rw [hkeep.day]
    exact hvbaten

/-- `MCP7940X_STATE_CHECK_ON` on a chip that runs. -/
theorem checkOn_running {m : Mcp} {cb : Nat} (hst : m.sys.st = true) (hvbaten : m.sys.vbaten = true)
    (hcb : m.cb = some (.user cb)) :
    m.checkOn.calls = (.user cb, ⟨true, mktime (checkOn m.sys m.tsLocal), true⟩) :: m.calls ∧
      m.checkOn.smCurrentState = .idle ∧ m.checkOn.subtaskData = m.subtaskData := by
  unfold Mcp.checkOn
  dsimp only
  rw [hst, hvbaten, Bool.and_self, if_pos rfl]
  refine ⟨?_, by rw [callBack_smCurrentState], by rw [callBack_subtaskData]⟩
  unfold Mcp.callBack
  simp only [hcb]

/-- **After `pmz_time_set` both clocks report the time that was set.** -/
theorem clocks_agree (hd : d.Documented) {chip : Nat → UInt8} {es : List McpEvent}
    (hr : run mcpStep (mcpInit chip) es = some s.mcp) (hidle : s.mcp.smCurrentState = .idle)
    (hrun : Running s.mcp.chip) (h : 946684800 ≤ ts) (h' : ts < 4102444800) (cb : Nat)
    {ios ios' : List McpIo} (hs : ∀ io ∈ ios, Succeeds io) (hn : 8 ≤ ios.countP ready)
    (hs' : ∀ io ∈ ios', Succeeds io) (hn' : 5 ≤ ios'.countP ready) :
    Reports d (pmzTimeSet d s ts true) ts cb ios ios' := by
  obtain ⟨hrtcc, hmcp⟩ := pmzTimeSet_eq d s ts
  have hcentury : InCentury (gmtime ts) := year_gmtime h h'
  have hsame := timeGet_timeSet hd (valid_gmtime ts) hcentury
  generalize hu : rtccTimeGet d (rtccTimeSet d (gmtime ts)) = u at hsame hmcp
  have huv : u.Valid := Valid.of_same (valid_gmtime ts) hsame
  have huc : InCentury u := by
    unfold InCentury
    rw [hsame.year]
    exact hcentury
  have hts : mktime u = ts := hsame.mktime_eq.trans (mktime_gmtime ts)
  have hset := afterSet_eq (t := u) (settled_of_run hr) hidle hs hn
  have hm₁ : passes drvMcp7940xTasks (pmzTimeSet d s ts true).mcp ios = afterSet s.mcp u ios := by
    rw [hmcp]
    rfl
  constructor
  · show mktime (rtccTimeGet d (pmzTimeSet d s ts true).rtcc) = ts
    rw [hrtcc, hu]
    exact hts
  · rw [hm₁, hset]
    rfl
  · have hcalls : (pmzTimeSet d s ts true).mcp.calls = s.mcp.calls := by
      rw [hmcp]
      unfold mcp7940xSetTs
      split <;> rfl
    rw [hm₁, hcalls]
    obtain ⟨as, io, bs, heq, hcheck⟩ :=
      @reaches_checkOn (afterSet s.mcp u ios) (some cb) ios' (by rw [hset]; rfl) (by rw [hset]; rfl)
        (by rw [hset]; rfl) hs' hn'
    have hpass : afterGet (afterSet s.mcp u ios) (some cb) ios' =
        passes drvMcp7940xTasks
          (drvMcp7940xTasks io (afterGet (afterSet s.mcp u ios) (some cb) as)) bs := by
      rw [heq]
      exact passes_append _ _ _ _
    rw [hpass, hcheck]
    obtain ⟨hst, hvbaten⟩ := running_updating huv hrun
    have hread := checkOn_updating (imageOf s.mcp.chip) u huv huc
    obtain ⟨hcall, hback, hsub⟩ := @checkOn_running (ended { afterSet s.mcp u ios with
      rwParams := ⟨0, 9⟩
      cb := some (.user cb)
      sys := imageOf (afterSet s.mcp u ios).chip } .checkOn .error) cb
        (by rw [hset]; exact hst) (by rw [hset]; exact hvbaten) rfl
    have hstays := passes_rest (P := Succeeds) (fun io' _ => tasks_idle (by rw [hsub]; rfl) hback io')
      fun x hx => hs' x (heq ▸ List.mem_append_right _ (List.mem_cons_of_mem _ hx))
    have htime : mktime (checkOn (imageOf (afterSet s.mcp u ios).chip) (afterSet s.mcp u ios).tsLocal) =
        ts := by
      rw [hset]
      exact hread.mktime_eq.trans hts
    have hold : (afterSet s.mcp u ios).calls = s.mcp.calls := by rw [hset]; rfl
    rw [← htime, ← hold]
    exact (congrArg Mcp.calls hstays).trans hcall

end Clocks

/-- The header with the documented digits. -/
def documentedHeader : RtccHeader where
  hr10 := ⟨0x30000000, 28⟩
  hr01 := ⟨0x0F000000, 24⟩
  min10 := ⟨0x00700000, 20⟩
  min01 := ⟨0x000F0000, 16⟩
  sec10 := ⟨0x00007000, 12⟩
  sec01 := ⟨0x00000F00, 8⟩
  year10 := ⟨0xF0000000, 28⟩
  year01 := ⟨0x0F000000, 24⟩
  month10 := ⟨0x00100000, 20⟩
  month01 := ⟨0x000F0000, 16⟩
  day10 := ⟨0x00003000, 12⟩
  day01 := ⟨0x00000F00, 8⟩
  wday01 := ⟨0x00000007, 0⟩

/-- The last second of 2024. -/
theorem clocks_agree_newYear :
    ∃ s : PmzTime, run mcpStep (mcpInit fun _ => 0) (startedBefore fun _ => 0xFF) = some s.mcp ∧
      Reports documentedHeader (pmzTimeSet documentedHeader s 1735689599 true) 1735689599 0
        (List.replicate 8 goodPass) (List.replicate 5 goodPass) := by
  obtain ⟨m, hr, hidle, hchip⟩ := idle_startedBefore fun _ => 0xFF
  have hs : ∀ n, ∀ io ∈ List.replicate n goodPass, Succeeds io := by
    intro n io hio
    rw [List.eq_of_mem_replicate hio]
    exact ⟨rfl, rfl⟩
  have hrun : Running m.chip := by
    rw [hchip]
    exact ⟨by decide, by decide⟩
  have hd : documentedHeader.Documented :=
    ⟨rfl, rfl, rfl, rfl, rfl, rfl, rfl, rfl, rfl, rfl, rfl, rfl, rfl⟩
  refine ⟨⟨gmtime 0, 0, false, ⟨0, 0, true⟩, m⟩, hr, ?_⟩
  exact clocks_agree hd hr hidle hrun (by decide) (by decide) 0 (hs 8) (by decide) (hs 5) (by decide)

end Rastreo.Drv
