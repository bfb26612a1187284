import Rastreo.Drv.Sst26Chains

/-!
# What a read sends (`DRV_SST26_Read` of `drv_sst26.c`)

`DRV_SST26_Read` builds its command in `sqiCmdDesc[1]`, as `DRV_SST26_PageWrite` does behind the
write enable command in `sqiCmdDesc[0]`, and hands `sqiCmdDesc[0]` to the peripheral, as
`DRV_SST26_PageWrite` does. But it writes nothing there.

* `Started.Reads`: a chain is the high-speed-read command and the descriptors that receive the bytes.
* `Leftover`: what stands in `sqiCmdDesc[0]` after any run; it never sends seven bytes.
* `reads_iff`: no read that is accepted starts the chain it should.
* `built_reads_iff`: the chain from `sqiCmdDesc[1]` would be the right one up to 8192 bytes, the
  limit that the test of the length does not enforce.
-/

namespace Rastreo.Drv

open Rastreo.Lib

/-- The chain sends the high-speed-read command with the address, and receives the bytes. -/
def Started.Reads (s : Started) (rxData n : ℕ) (address : UInt32) : Prop :=
  match s.descs with
  | [] => False
  | c :: data => c.bdCtrl.receives = false ∧ c.bdCtrl.length = 7 ∧ c.bdBufaddr = some .sqiCmd ∧
      s.sqiCmd.take 7 = ([0x0B, (address >>> 16).toUInt8, (address >>> 8).toUInt8, address.toUInt8,
        0xFF, 0xFF, 0xFF] : Bytes) ∧ Covers data rxData n

/-- The length of the first descriptor. -/
def Started.firstLength (s : Started) : Option ℕ := s.descs.head?.map fun c => c.bdCtrl.length

theorem Started.Reads.firstLength {s : Started} {rxData n : ℕ} {address : UInt32}
    (h : s.Reads rxData n address) : s.firstLength = some 7 := by
  obtain ⟨device, pending, descs, bs⟩ := s
  cases descs with
  | nil => exact h.elim
  | cons c data => exact congrArg some h.2.1

/-- The chip selects there are. -/
def KnownCs (cs : UInt32) : Prop := cs = sqiCs0 ∨ cs = sqiCs1 ∨ cs = sqiInvalidCsValue

/-- What can stand in `sqiCmdDesc[0]`, and in the handles. -/
structure Leftover (d : Sst26) : Prop where
  cs : ∀ h, KnownCs (d.handle h).cs
  command : d.desc (.cmd 0) = ⟨⟨0, 0, 0⟩, none, none⟩ ∨
    ∃ cs, KnownCs cs ∧ Command cs (d.desc (.cmd 0))

section Leftovers

variable {d d' : Sst26} {h : ℕ} {l : List SqiDesc} {P : SqiDesc → Prop}

theorem Leftover.links (hI : Leftover d) : Links d := by
  obtain hz | ⟨cs, -, hc⟩ := hI.command
  · unfold Links
    rw [hz]
    exact .inl rfl
  · exact hc.next

/-- A command that is left over has one byte, two or six, or more than 160. -/
theorem Leftover.length_ne (hI : Leftover d) : (d.desc (.cmd 0)).bdCtrl.length ≠ 7 := by
  obtain hz | ⟨cs, hcs, hc⟩ := hI.command
  · rw [hz]
    decide
  · have hforms : ∀ n flags : UInt32, n = 1 ∨ n = 2 ∨ n = 6 → flags &&& bufflenMask = 0 →
        (⟨n, flags, cs⟩ : BdCtrl).length ≠ 7 := by
      intro n flags hn hf
      unfold BdCtrl.length BdCtrl.word
      dsimp only
      rw [or_and_mask, or_and_mask, hf, UInt32.or_zero]
      obtain rfl | rfl | rfl := hcs
      all_goals
        obtain rfl | rfl | rfl := hn
        all_goals decide
    generalize d.desc (.cmd 0) = x at hc
    cases hc with
    | single => exact hforms 1 _ (.inl rfl) (by decide)
    | wren => exact hforms 1 _ (.inl rfl) (by decide)
    | data n hn => exact hforms n _ (.inr hn) (by decide)

theorem Leftover.starts (hI : Leftover d) (hs : Starts h l d d') : Leftover d' where
  cs i := by
    rw [hs.handle]
    exact hI.cs i
  command := by
    obtain hsame | hc := hs.command
    · rw [hsame]
      exact hI.command
    · exact .inr ⟨_, hI.cs h, hc⟩

theorem Leftover.blocks (hI : Leftover d) (hb : Blocks h P d d') : Leftover d' where
  cs i := by
    rw [hb.cs i]
    exact hI.cs i
  command := .inr ⟨_, hI.cs h, hb.command⟩

theorem leftover_of_step (e : SstEvent) (hI : Leftover d) (hs : sstStep d e = some d') :
    Leftover d' := by
  cases effect_of_step hI.links hs with
  | refused => exact hI
  | init h =>
    refine ⟨fun i => ?_, ?_⟩
    · obtain ⟨h₀, h₁, hother⟩ := handle_init h
      by_cases hi : maxHandles ≤ i
      · rw [hother i hi]
        exact hI.cs i
      · unfold maxHandles at hi
        have hlt : i < 2 := Nat.not_le.mp hi
        interval_cases i
        · rw [h₀]
          exact .inl rfl
        · rw [h₁]
          exact .inr (.inl rfl)
    · rw [init_eq h]
      exact hI.command
  | openIndex i jedec _ ha hb => exact hI.blocks hb
  | close h hc =>
    refine ⟨fun i => ?_, hI.command⟩
    by_cases hih : i = h
    · subst hih
      simp [putHandle, initHandleData, KnownCs]
    · simp only [putHandle, Function.update_of_ne hih]
      exact hI.cs i
  | unlock h _ hc hb => exact hI.blocks hb
  | readStatus h n d₁ x hc hx hstart hcmd =>
    have hb : Blocks h (fun _ => True) d (awaitTransfer d₁) :=
      hstart.await (List.cons_ne_nil _ _) (fun _ _ => trivial) hcmd
    exact hI.blocks hb
  | writes _ h l _ _ hc hu hstart => exact hI.starts hstart
  | read h rx n a l _ hc hu hstart => exact hI.starts hstart
  | completed => exact ⟨hI.cs, hI.command⟩

theorem leftover_of_run {es : List SstEvent} (hr : run sstStep sst26Zero es = some d) :
    Leftover d :=
  inv_of_run (C := fun _ _ => True) (fun _ e _ hI _ hs => leftover_of_step e hI hs)
    ⟨fun _ => .inl rfl, .inl rfl⟩ along_true hr

end Leftovers

/-- **A read never starts the chain it should**: a call that returns `true` has started another, and
only the calls that are turned away return `false`. -/
theorem reads_iff {es : List SstEvent} {d : Sst26} (hr : run sstStep sst26Zero es = some d)
    (h rxData : ℕ) (n address : UInt32) :
    ((drvSst26Read h rxData n address d).1 = true →
      ∃ s, (drvSst26Read h rxData n address d).2.started = s :: d.started ∧
        s.Reads rxData n.toNat address) ↔ checkHandle d h = false := by
  have hI := leftover_of_run hr
  constructor
  · intro hreads
    by_contra hc
    have hc : checkHandle d h = true := by simpa using hc
    have htrue : (drvSst26Read h rxData n address d).1 = true := by
      unfold drvSst26Read
      rw [if_pos hc, if_pos (by omega)]
    obtain ⟨s, hs, hread⟩ := hreads htrue
    obtain ⟨l, -, hstart⟩ : ∃ l, (∀ x ∈ l, Uses (d.handle h).cs x) ∧
        Starts h (d.desc (.cmd 0) :: l) d (drvSst26Read h rxData n address d).2 := by
      unfold drvSst26Read
      rw [if_pos hc, if_pos (by omega)]
      exact starts_read hI.links h rxData n (readCmd address)
    -- the chain begins with the descriptor that was left over
    obtain ⟨bs, hstarted⟩ := hstart.started
    obtain ⟨rfl, -⟩ := List.cons.inj (hs.symm.trans hstarted)
    exact hI.length_ne (Option.some.inj hread.firstLength)
  · intro hc htrue
    unfold drvSst26Read at htrue
    rw [if_neg (by simp [hc])] at htrue
    cases htrue

/-- With the chip select of one of the two memories, the chain from `sqiCmdDesc[1]` is the right one
as long as there are descriptors for the bytes. -/
theorem built_reads_iff {d : Sst26} {h : ℕ}
    (hcs : (d.handle h).cs = sqiCs0 ∨ (d.handle h).cs = sqiCs1) (rxData : ℕ)
    (n address : UInt32) :
    ∃ s, (dmaTransfer h (.cmd 1)
        (readDescs h rxData n (putCmd (readCmd address) (startTransfer d)))).started =
          s :: d.started ∧
      (s.Reads rxData n.toNat address ↔ n.toNat ≤ sst26PageSize * buffDescNumber) := by
  obtain ⟨hd, -, h₁, l, hl, hlen, -, hc⟩ :=
    readDescs_spec h rxData n (putCmd (readCmd address) (startTransfer d))
  have hdescs := follow_of_chain (Chain.link h₁ rfl hl)
    (show (readCmdDesc (d.handle h).cs :: l).length ≤ cmdDescNumber + buffDescNumber by
      rw [List.length_cons]
      have : buffDescNumber + 1 ≤ cmdDescNumber + buffDescNumber := by decide
      omega)
  have hmasks : (d.handle h).cs &&& bufflenMask = 0 ∧ (d.handle h).cs &&& sqiDirRead = 0 ∧
      (readCmdDesc (d.handle h).cs).bdCtrl.receives = false ∧
      (readCmdDesc (d.handle h).cs).bdCtrl.length = 7 := by
    obtain hcs | hcs := hcs
    · rw [hcs]
      decide
    · rw [hcs]
      decide
  obtain ⟨hlow, hdir, hsends, hseven⟩ := hmasks
  refine ⟨⟨h, d.inFlight, readCmdDesc (d.handle h).cs :: l,
    readCmd address ++ d.sqiCmd.drop (readCmd address).length⟩, ?_, ?_⟩
  · unfold dmaTransfer
    dsimp only
    rw [hdescs, hd]
    rfl
  · have hcover := hc hlow hdir
    unfold Started.Reads
    dsimp only
    constructor
    · rintro ⟨-, -, -, -, hall⟩
      have hmin := (received_of_covers hall).symm.trans (received_of_covers hcover)
      omega
    · intro hle
      rw [Nat.min_eq_left hle] at hcover
      exact ⟨hsends, hseven, rfl, rfl, hcover⟩

/-- The read of the test program, after the memory has been opened. -/
theorem reads_opened : ∃ d, run sstStep sst26Zero [.init, .openIndex 0 ⟨0xBF, 0x26, 0x43, 0⟩] =
      some d ∧
    (((drvSst26Read 0 0x1000 8192 0 d).1 = true →
      ∃ s, (drvSst26Read 0 0x1000 8192 0 d).2.started = s :: d.started ∧
        s.Reads 0x1000 (8192 : UInt32).toNat 0) ↔ checkHandle d 0 = false) := by
  have hrun : (run sstStep sst26Zero [.init, .openIndex 0 ⟨0xBF, 0x26, 0x43, 0⟩]).isSome = true := by
    decide +kernel
  obtain ⟨d, hd⟩ := Option.isSome_iff_exists.mp hrun
  exact ⟨d, hd, reads_iff hd 0 0x1000 8192 0⟩

/-- The first descriptor of that read is the command of six bytes that the open has left. -/
theorem not_reads_opened :
    ∃ d, run sstStep sst26Zero [.init, .openIndex 0 ⟨0xBF, 0x26, 0x43, 0⟩] = some d ∧
      (drvSst26Read 0 0x1000 8192 0 d).1 = true ∧
      ¬ ∃ s, (drvSst26Read 0 0x1000 8192 0 d).2.started = s :: d.started ∧
        s.Reads 0x1000 8192 0 := by
  have hrun : (run sstStep sst26Zero [.init, .openIndex 0 ⟨0xBF, 0x26, 0x43, 0⟩]).map (fun d =>
      ((drvSst26Read 0 0x1000 8192 0 d).1,
        (drvSst26Read 0 0x1000 8192 0 d).2.started.head?.map Started.firstLength)) =
      some (true, some (some 6)) := by decide +kernel
  obtain ⟨d, hd, hread⟩ := Option.map_eq_some_iff.mp hrun
  obtain ⟨htrue, hlast⟩ := Prod.mk.inj hread
  refine ⟨d, hd, htrue, fun ⟨s, hs, hreads⟩ => ?_⟩
  rw [hs] at hlast
  have hsix : s.firstLength = some 6 := Option.some.inj hlast
  rw [hreads.firstLength] at hsix
  cases hsix

end Rastreo.Drv
