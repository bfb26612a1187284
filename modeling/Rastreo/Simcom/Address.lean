import Rastreo.Simcom.Tasks
import Mathlib

/-!
# The assigned address: `IPStringToInt` and `IPIntToString` (`A7672E.c`)

`IPStringToInt` ors the four numbers of an address together without shifting them, and
`IPIntToString` unpacks them with shifts. The `+CGPADDR` line reaches `IPStringToInt` through two
`strtok` calls whose results are not tested.

* `ipStringToInt_eq`: the function as a row of tokens and the or of their numbers.
* `undone_iff`: unpacking gives two quads back, and their integers are distinct, exactly when the
  first three parts of both are 0.
* `addressField_eq_some_iff`, `strtoks_quadDelims_iff`: where in the text of the line the tokens
  stand.
* `assigns_of_clean`: a line that `ATCommandParse` accepts leaves 0 or an address of the line, and no
  NULL token is used, for the `Clean` lines; of the lines without a quad `0.0.0.d`, for no others.
-/

namespace Rastreo.Simcom

open Rastreo.Lib

/-- `IPIntToString`: the text `sprintf` writes. -/
def ipIntToString (ip : UInt32) : Bytes :=
  let b0 := ((ip >>> 24) &&& 0xFF).toUInt8
  let b1 := ((ip >>> 16) &&& 0xFF).toUInt8
  let b2 := ((ip >>> 8) &&& 0xFF).toUInt8
  let b3 := (ip &&& 0xFF).toUInt8
  fmtD 0 b0.toNat ++ ascii "." ++ fmtD 0 b1.toNat ++ ascii "." ++ fmtD 0 b2.toNat ++ ascii "." ++
    fmtD 0 b3.toNat

/-! ## The four tokens -/

/-- The delimiters of the four `strtok` calls. -/
def quadDelims : List Bytes := [ascii ".", ascii ".", ascii ".", ascii "\r"]

/-- `b0 | b1 | b2 | b3`. -/
def orNumbers (toks : List Bytes) : UInt8 := toks.foldr (fun tok b => UInt8.ofInt (atoi tok) ||| b) 0

/-- **`IPStringToInt`** in one row. -/
theorem ipStringToInt_eq (ip : Bytes) (size : Nat) :
    ipStringToInt ip size = if size < 7 ∨ size > 15 then some 0
      else (strtoks quadDelims ip).map fun toks => (orNumbers toks).toUInt32 := by
  unfold ipStringToInt quadDelims
  split
  · rfl
  · simp only [strtoks, Option.bind_eq_bind, Option.pure_def]
    cases h0 : strtok (ascii ".") ip with
    | none => rfl
    | some p0 =>
      obtain ⟨t0, r0⟩ := p0
      simp only [Option.bind_some]
      cases h1 : strtok (ascii ".") r0 with
      | none => rfl
      | some p1 =>
        obtain ⟨t1, r1⟩ := p1
        simp only [Option.bind_some]
        cases h2 : strtok (ascii ".") r1 with
        | none => rfl
        | some p2 =>
          obtain ⟨t2, r2⟩ := p2
          simp only [Option.bind_some]
          cases h3 : strtok (ascii "\r") r2 with
          | none => rfl
          | some p3 =>
            obtain ⟨t3, r3⟩ := p3
            simp [orNumbers, UInt8.or_assoc]

theorem toNat_ofInt (z : Int) : (UInt8.ofInt z).toNat = (z % 256).toNat := by
  rw [UInt8.ofInt, UInt8.toNat_ofNat']
  omega

theorem orNumbers_cons (t : Bytes) (toks : List Bytes) :
    orNumbers (t :: toks) = UInt8.ofInt (atoi t) ||| orNumbers toks := rfl

/-- The or is 0 when every number is a multiple of 256. -/
theorem ofInt_eq_zero_iff (i : Int) : UInt8.ofInt i = 0 ↔ i % 256 = 0 := by
  rw [← UInt8.toNat_inj, toNat_ofInt, UInt8.toNat_zero]
  omega

theorem orNumbers_eq_zero_iff (toks : List Bytes) :
    orNumbers toks = 0 ↔ ∀ t ∈ toks, atoi t % 256 = 0 := by
  induction toks with
  | nil => simp [orNumbers]
  | cons t toks ih =>
    rw [orNumbers_cons, UInt8.or_eq_zero_iff, ofInt_eq_zero_iff, List.forall_mem_cons]
    exact and_congr_right fun _ => ih

/-! ## Quads -/

/-- A dotted quad. -/
structure Quad where
  a : UInt8
  b : UInt8
  c : UInt8
  d : UInt8
  deriving DecidableEq, Repr

/-- `a.b.c.d`, without leading zeros. -/
def Quad.text (q : Quad) : Bytes :=
  dec q.a.toNat ++ 46 :: (dec q.b.toNat ++ 46 :: (dec q.c.toNat ++ 46 :: dec q.d.toNat))

/-- The quad as the modem ends it. -/
def Quad.line (q : Quad) : Bytes := q.text ++ [13, 10]

/-- `IPIntToString` undoes `IPStringToInt` on the quad. -/
def RoundTrips (q : Quad) : Prop :=
  (ipStringToInt q.line q.text.length).map ipIntToString = some q.text

/-- Both quads come back, and different ones have different integers. -/
def Undone (q q' : Quad) : Prop :=
  RoundTrips q ∧ RoundTrips q' ∧
    (q ≠ q' → ipStringToInt q.line q.text.length ≠ ipStringToInt q'.line q'.text.length)

theorem length_dec_byte (b : UInt8) : 1 ≤ (dec b.toNat).length ∧ (dec b.toNat).length ≤ 3 := by
  have hlt := b.toNat_lt
  have hle := (@dec_length_le_iff b.toNat 3 (by omega)).mpr (by omega)
  have hpos := List.length_pos_iff.mpr (dec_ne_nil b.toNat)
  omega

/-- The quad's length passes the guard. -/
theorem Quad.length_text (q : Quad) : 7 ≤ q.text.length ∧ q.text.length ≤ 15 := by
  have ha := length_dec_byte q.a
  have hb := length_dec_byte q.b
  have hc := length_dec_byte q.c
  have hd := length_dec_byte q.d
  simp only [Quad.text, List.length_append, List.length_cons]
  omega

/-- The four tokens of a quad. -/
theorem Quad.strtoks_line (q : Quad) : strtoks quadDelims q.line =
    some [dec q.a.toNat, dec q.b.toNat, dec q.c.toNat, dec q.d.toNat] := by
  have hpoint : ascii "." = [46] := rfl
  have hcr : ascii "\r" = [13] := rfl
  have hdig : ∀ n : Nat, ∀ c ∈ dec n, isDigit c = true := fun n c hc => isDigit_of_mem_dec hc
  have htext : q.line = dec q.a.toNat ++ 46 :: (dec q.b.toNat ++ 46 :: (dec q.c.toNat ++ 46 ::
      (dec q.d.toNat ++ 13 :: [10]))) := by
    simp [Quad.line, Quad.text]
  unfold quadDelims
  rw [htext, hpoint, hcr, strtoks_cons (strtok_digits (dec_ne_nil _) (hdig _) rfl),
    strtoks_cons (strtok_digits (dec_ne_nil _) (hdig _) rfl),
    strtoks_cons (strtok_digits (dec_ne_nil _) (hdig _) rfl),
    strtoks_cons (strtok_digits (dec_ne_nil _) (hdig _) rfl)]
  rfl

/-- **The integer of a quad.** -/
theorem Quad.ipStringToInt_line (q : Quad) :
    ipStringToInt q.line q.text.length = some (q.a ||| q.b ||| q.c ||| q.d).toUInt32 := by
  have hlen := q.length_text
  have hbyte : ∀ b : UInt8, UInt8.ofInt (atoi (dec b.toNat)) = b := by
    intro b
    have hlt := b.toNat_lt
    have hatoi : atoi (dec b.toNat) = b.toNat := by
      have := atoi_fmtD 0 (show b.toNat ≤ 2147483647 by omega)
      rwa [fmtD_natCast, Nat.zero_sub, List.replicate_zero, List.nil_append] at this
    rw [hatoi, ← UInt8.toNat_inj, toNat_ofInt]
    omega
  rw [ipStringToInt_eq, if_neg (by omega), q.strtoks_line]
  simp [orNumbers, hbyte, UInt8.or_assoc]

/-- The four bytes of an integer below 256. -/
theorem ipIntToString_toUInt32 (b : UInt8) :
    ipIntToString b.toUInt32 = (Quad.mk 0 0 0 b).text := by
  have hlt := b.toNat_lt
  have hshift : ∀ k : UInt32, k = 8 ∨ k = 16 ∨ k = 24 →
      ((b.toUInt32 >>> k) &&& 0xFF).toUInt8 = 0 := by
    intro k hk
    rw [← UInt8.toNat_inj, UInt32.toNat_toUInt8, UInt32.toNat_and, UInt32.toNat_shiftRight,
      UInt8.toNat_toUInt32]
    have hz : b.toNat >>> (k.toNat % 32) = 0 := by
      rw [Nat.shiftRight_eq_div_pow]
      rcases hk with rfl | rfl | rfl <;> exact Nat.div_eq_of_lt (by simp; omega)
    rw [hz]
    rfl
  have hlow : (b.toUInt32 &&& 0xFF).toUInt8 = b := by
    rw [← UInt8.toNat_inj, UInt32.toNat_toUInt8, UInt32.toNat_and, UInt8.toNat_toUInt32]
    have hmask : b.toNat &&& (0xFF : UInt32).toNat = b.toNat % 2 ^ 8 := Nat.and_two_pow_sub_one_eq_mod _ 8
    rw [hmask]
    omega
  have hdec : ∀ n : Nat, fmtD 0 n = dec n := fun n => by rw [fmtD_natCast]; simp
  unfold ipIntToString
  dsimp only
  rw [hshift 24 (by simp), hshift 16 (by simp), hshift 8 (by simp), hlow, hdec, hdec]
  simp [Quad.text, ascii]

theorem dec_injective {m n : Nat} (h : dec m = dec n) : m = n := by
  rw [← decVal_dec m, h, decVal_dec]

/-- The text determines the quad. -/
theorem Quad.text_injective {q q' : Quad} (h : q.text = q'.text) : q = q' := by
  have htoks := q.strtoks_line
  rw [Quad.line, h, ← Quad.line, q'.strtoks_line] at htoks
  simp only [Option.some.injEq, List.cons.injEq, and_true] at htoks
  obtain ⟨ha, hb, hc, hd⟩ := htoks
  cases q
  cases q'
  simp only [Quad.mk.injEq]
  exact ⟨UInt8.toNat_inj.mp (dec_injective ha.symm), UInt8.toNat_inj.mp (dec_injective hb.symm),
    UInt8.toNat_inj.mp (dec_injective hc.symm), UInt8.toNat_inj.mp (dec_injective hd.symm)⟩

/-- A quad comes back exactly when its first three parts are 0. -/
theorem roundTrips_iff (q : Quad) : RoundTrips q ↔ q.a = 0 ∧ q.b = 0 ∧ q.c = 0 := by
  unfold RoundTrips
  rw [q.ipStringToInt_line, Option.map_some, Option.some.injEq, ipIntToString_toUInt32]
  constructor
  · intro h
    have hq := Quad.text_injective h
    exact ⟨(congrArg Quad.a hq).symm, (congrArg Quad.b hq).symm, (congrArg Quad.c hq).symm⟩
  · rintro ⟨ha, hb, hc⟩
    rw [ha, hb, hc]
    cases q
    simp only at ha hb hc
    rw [ha, hb, hc]
    simp

/-- **Two quads come back, with distinct integers when they are distinct**, exactly when the first
three parts of both are 0. -/
theorem undone_iff (q q' : Quad) :
    Undone q q' ↔ (q.a = 0 ∧ q.b = 0 ∧ q.c = 0) ∧ q'.a = 0 ∧ q'.b = 0 ∧ q'.c = 0 := by
  rw [← roundTrips_iff q, ← roundTrips_iff q']
  constructor
  · rintro ⟨h, h', -⟩
    exact ⟨h, h'⟩
  · rintro ⟨h, h'⟩
    refine ⟨h, h', fun hne heq => hne (Quad.text_injective ?_)⟩
    have htext : some q.text = some q'.text := by
      rw [← h, ← h', heq]
    exact Option.some.inj htext

/-- `10.0.0.1` comes back as `0.0.0.11`, which has the same integer. -/
theorem not_undone_private : ¬ Undone ⟨10, 0, 0, 1⟩ ⟨0, 0, 0, 11⟩ := by
  rintro ⟨h, -⟩
  exact absurd ((roundTrips_iff _).mp h).1 (by decide)

/-! ## The address line -/

/-- The part of a dotted quad with the value `n`: a whole number of the text, leading zeros
allowed. -/
def IsPart (t : Bytes) (n : Nat) : Prop :=
  t ≠ [] ∧ (∀ c ∈ t, isDigit c = true) ∧ decVal t = n ∧ n ≤ 255

/-- The line contains the dotted quad `a.b.c.d`, its first and last numbers whole. -/
def HasQuad (line : Bytes) (a b c d : Nat) : Prop :=
  ∃ before pa pb pc pd after,
    line = before ++ (pa ++ 46 :: (pb ++ 46 :: (pc ++ 46 :: (pd ++ after)))) ∧
    IsPart pa a ∧ IsPart pb b ∧ IsPart pc c ∧ IsPart pd d ∧
    (∀ x ∈ before.getLast?, isDigit x = false) ∧ (∀ x ∈ after.head?, isDigit x = false)

/-- After the response no NULL token has been used, and `assignedIP` is 0 or the 32-bit address of a
dotted quad of the line. -/
def Assigns (io : Io) (s : Sys) : Prop :=
  (execBlock io s (.parse .pdpAddress)).fault = false ∧
    ((execBlock io s (.parse .pdpAddress)).assignedIP = 0 ∨
      ∃ a b c d, HasQuad s.buffRecv.text a b c d ∧
        (execBlock io s (.parse .pdpAddress)).assignedIP.toNat =
          ((a * 256 + b) * 256 + c) * 256 + d)

/-- `field` is the second field of the line between commas: commas may stand before the first field,
at least one between the two, and the line or a comma ends the second. -/
def SecondField (line field : Bytes) : Prop :=
  ∃ commas first commas' rest,
    line = commas ++ (first ++ (commas' ++ (field ++ rest))) ∧
    (∀ c ∈ commas, c = 44) ∧ (∀ c ∈ commas', c = 44) ∧ commas' ≠ [] ∧
    first ≠ [] ∧ 44 ∉ first ∧ field ≠ [] ∧ 44 ∉ field ∧ (∀ c ∈ rest.head?, c = 44)

/-- The four parts of an address field: dots end the first three, CR or the field's end the last. -/
def FourParts (field p₀ p₁ p₂ p₃ : Bytes) : Prop :=
  ∃ dots₀ dots₁ dots₂ crs rest,
    field = dots₀ ++ (p₀ ++ 46 :: (dots₁ ++ (p₁ ++ 46 :: (dots₂ ++ (p₂ ++ 46 ::
      (crs ++ (p₃ ++ rest))))))) ∧
    (∀ c ∈ dots₀ ++ dots₁ ++ dots₂, c = 46) ∧ (∀ c ∈ crs, c = 13) ∧
    (∀ p ∈ [p₀, p₁, p₂], p ≠ [] ∧ 46 ∉ p) ∧ p₃ ≠ [] ∧ 13 ∉ p₃ ∧ (∀ c ∈ rest.head?, c = 13)

/-- The number a text begins with is a multiple of 256, or there is none. -/
def ReadsZero (t : Bytes) : Prop := atoi t % 256 = 0

/-- The field is the quad `0.0.0.d`, between texts that no number of it runs into. -/
def LowQuad (field : Bytes) : Prop :=
  ∃ before z₀ z₁ z₂ part d after,
    field = before ++ (z₀ ++ 46 :: (z₁ ++ 46 :: (z₂ ++ 46 :: (part ++ after)))) ∧
    IsPart z₀ 0 ∧ IsPart z₁ 0 ∧ IsPart z₂ 0 ∧ IsPart part d ∧
    46 ∉ before ∧ ReadsZero (before ++ z₀) ∧
    (∀ x ∈ before.getLast?, isDigit x = false) ∧ (∀ x ∈ after.head?, isDigit x = false)

/-- The lines the parser gets right. The reply leaves room for its NUL and has a second field; the
field is too short or too long for an address, or has four parts of which none begins with a number,
multiples of 256 aside, or is a quad `0.0.0.d`. -/
def Clean (b : Buf 512) : Prop :=
  b.text.length ≠ 512 ∧ ∃ field, SecondField b.text field ∧
    (field.length < 9 ∨ 17 < field.length ∨
      (∃ p₀ p₁ p₂ p₃, FourParts field p₀ p₁ p₂ p₃ ∧ ∀ p ∈ [p₀, p₁, p₂, p₃], ReadsZero p) ∨
      LowQuad field)

/-- The second token of the line between commas. -/
def addressField (line : Bytes) : Option Bytes :=
  (strtoks [ascii ",", ascii ","] line).bind (·[1]?)

/-- **Where the second token stands.** -/
theorem addressField_eq_some_iff {line field : Bytes} :
    addressField line = some field ↔ SecondField line field := by
  have htoks : addressField line = some field ↔ ∃ first r rest,
      strtok [44] line = some (first, r) ∧ strtok [44] r = some (field, rest) := by
    have hcomma : ascii "," = [44] := rfl
    simp only [addressField, hcomma, Option.bind_eq_some_iff, strtoks_cons_eq_some_iff, strtoks_nil,
      Option.some.injEq]
    constructor
    · rintro ⟨_, ⟨first, r, _, h₀, ⟨_, rest, _, h₁, rfl, rfl⟩, rfl⟩, he⟩
      obtain rfl := Option.some.inj he
      exact ⟨first, r, rest, h₀, h₁⟩
    · rintro ⟨first, r, rest, h₀, h₁⟩
      exact ⟨[first, field], ⟨first, r, [field], h₀, ⟨field, rest, [], h₁, rfl, rfl⟩, rfl⟩, rfl⟩
  rw [htoks]
  constructor
  · rintro ⟨first, r, _, h₀, h₁⟩
    obtain ⟨commas, rfl, hcommas, hfirst, hf⟩ := (strtok_single_cons_iff (strtok_ne_nil h₁)).mp h₀
    obtain ⟨skip, rest, rfl, hskip, hfield, hd, hhead, -⟩ := strtok_single_iff.mp h₁
    exact ⟨commas, first, 44 :: skip, rest, rfl, hcommas, List.forall_mem_cons.mpr ⟨rfl, hskip⟩,
      List.cons_ne_nil _ _, hfirst, hf, hfield, hd, hhead⟩
  · rintro ⟨commas, first, commas', rest, rfl, hcommas, hcommas', hne, hfirst, hf, hfield, hd, hhead⟩
    obtain ⟨c, skip, rfl⟩ := List.exists_cons_of_ne_nil hne
    obtain ⟨rfl, hskip⟩ := List.forall_mem_cons.mp hcommas'
    exact ⟨first, skip ++ (field ++ rest), rest.tail,
      (strtok_single_cons_iff (by simp [hfield])).mpr ⟨commas, rfl, hcommas, hfirst, hf⟩,
      strtok_single_iff.mpr ⟨skip, rest, rfl, hskip, hfield, hd, hhead, rfl⟩⟩

/-- **Where the four tokens of the field stand.** -/
theorem strtoks_quadDelims_iff {field : Bytes} {toks : List Bytes} :
    strtoks quadDelims field = some toks ↔
      ∃ p₀ p₁ p₂ p₃, FourParts field p₀ p₁ p₂ p₃ ∧ toks = [p₀, p₁, p₂, p₃] := by
  have hdelims : quadDelims = [[46], [46], [46], [13]] := rfl
  simp only [hdelims, strtoks_cons_eq_some_iff, strtoks_nil, Option.some.injEq]
  constructor
  · rintro ⟨p₀, r₀, _, h₀, ⟨p₁, r₁, _, h₁, ⟨p₂, r₂, _, h₂, ⟨p₃, r₃, _, h₃, rfl, rfl⟩, rfl⟩, rfl⟩, rfl⟩
    refine ⟨p₀, p₁, p₂, p₃, ?_, rfl⟩
    obtain ⟨dots₀, rfl, hd₀, hp₀⟩ := (strtok_single_cons_iff (strtok_ne_nil h₁)).mp h₀
    obtain ⟨dots₁, rfl, hd₁, hp₁⟩ := (strtok_single_cons_iff (strtok_ne_nil h₂)).mp h₁
    obtain ⟨dots₂, rfl, hd₂, hp₂⟩ := (strtok_single_cons_iff (strtok_ne_nil h₃)).mp h₂
    obtain ⟨crs, rest, rfl, hcrs, hne, hcr, hhead, -⟩ := strtok_single_iff.mp h₃
    refine ⟨dots₀, dots₁, dots₂, crs, rest, rfl, ?_, hcrs, ?_, hne, hcr, hhead⟩
    · exact List.forall_mem_append.mpr ⟨List.forall_mem_append.mpr ⟨hd₀, hd₁⟩, hd₂⟩
    · simp [hp₀, hp₁, hp₂]
  · rintro ⟨p₀, p₁, p₂, p₃, ⟨dots₀, dots₁, dots₂, crs, rest, rfl, hdots, hcrs, hp, hne, hcr, hhead⟩, rfl⟩
    simp only [List.forall_mem_append] at hdots
    simp only [List.forall_mem_cons, List.not_mem_nil, false_implies, implies_true, and_true] at hp
    obtain ⟨⟨hd₀, hd₁⟩, hd₂⟩ := hdots
    obtain ⟨hp₀, hp₁, hp₂⟩ := hp
    have h₀ := fun (r : Bytes) (hr : r ≠ []) =>
      (strtok_single_cons_iff hr).mpr ⟨dots₀, rfl, hd₀, hp₀⟩
    have h₁ := fun (r : Bytes) (hr : r ≠ []) =>
      (strtok_single_cons_iff hr).mpr ⟨dots₁, rfl, hd₁, hp₁⟩
    have h₂ := fun (r : Bytes) (hr : r ≠ []) =>
      (strtok_single_cons_iff hr).mpr ⟨dots₂, rfl, hd₂, hp₂⟩
    have h₃ := strtok_single_iff.mpr ⟨crs, rest, rfl, hcrs, hne, hcr, hhead, rfl⟩
    exact ⟨p₀, _, _, h₀ _ (by simp), ⟨p₁, _, _, h₁ _ (by simp), ⟨p₂, _, _, h₂ _ (by simp [hne]),
      ⟨p₃, _, _, h₃, rfl, rfl⟩, rfl⟩, rfl⟩, rfl⟩

/-- What is done with the second field. -/
theorem addressField_bind {α : Type} (line : Bytes) (f : Bytes → Option α) :
    (do
      let (_, r) ← strtok (ascii ",") line
      let (tok, _) ← strtok (ascii ",") r
      f tok) = (addressField line).bind f := by
  unfold addressField
  simp only [strtoks, Option.bind_eq_bind, Option.pure_def]
  cases h0 : strtok (ascii ",") line with
  | none => simp
  | some p0 =>
    obtain ⟨t0, r0⟩ := p0
    simp only [Option.bind_some]
    cases h1 : strtok (ascii ",") r0 with
    | none => simp
    | some p1 => simp

/-- The address in terms of the fields. -/
theorem pdpAddress_eq (b : Buf 512) : pdpAddress b =
    if b.text.length = 512 then none
    else (addressField b.text).bind fun field =>
      ipStringToInt field ((field.length + 4294967294) % 4294967296) := by
  unfold pdpAddress
  by_cases h : b.text.length = 512
  · rw [if_pos h, if_pos h]
    rfl
  · rw [if_neg h, if_neg h]
    exact addressField_bind b.text fun tok =>
      ipStringToInt tok ((tok.length + 4294967294) % 4294967296)

/-- A field is no longer than its line. -/
theorem length_addressField_le {line field : Bytes} (h : addressField line = some field) :
    field.length ≤ line.length := by
  unfold addressField at h
  simp only [strtoks, Option.bind_eq_bind, Option.pure_def] at h
  cases h0 : strtok (ascii ",") line with
  | none => simp [h0] at h
  | some p0 =>
    obtain ⟨t0, r0⟩ := p0
    cases h1 : strtok (ascii ",") r0 with
    | none => simp [h0, h1] at h
    | some p1 =>
      obtain ⟨t1, r1⟩ := p1
      simp only [h0, h1, Option.bind_some] at h
      obtain rfl := Option.some.inj h
      exact (strtok_length_le h1).1.trans (strtok_length_le h0).2

/-- The length guard, in terms of the whole field: `size_t` arithmetic takes two off. -/
theorem guard_iff {n : Nat} (h : n ≤ 512) :
    ((n + 4294967294) % 4294967296 < 7 ∨ (n + 4294967294) % 4294967296 > 15) ↔ n < 9 ∨ 17 < n := by
  omega

/-- **The address of a line** with a second field. -/
theorem pdpAddress_of_field {b : Buf 512} {field : Bytes} (hfull : b.text.length ≠ 512)
    (hfield : addressField b.text = some field) : pdpAddress b =
      if field.length < 9 ∨ 17 < field.length then some 0
      else (strtoks quadDelims field).map fun toks => (orNumbers toks).toUInt32 := by
  have hlen := guard_iff ((length_addressField_le hfield).trans b.length_text_le)
  rw [pdpAddress_eq, if_neg hfull, hfield, Option.bind_some, ipStringToInt_eq]
  by_cases h : field.length < 9 ∨ 17 < field.length
  · rw [if_pos h, if_pos (hlen.mpr h)]
  · rw [if_neg h, if_neg (mt hlen.mp h)]

/-- The response of an address line. -/
theorem execBlock_pdpAddress {io : Io} {s : Sys} (hp : s.pendingATCommandParse = true)
    (ha : atCommandParse s.buffRecv.bytes = true)
    (hc : strncmp 11 s.buffRecv.bytes cgpaddrText = 0) :
    execBlock io s (.parse .pdpAddress) =
      Sys.endParse (match pdpAddress s.buffRecv with
        | some ip => { s with assignedIP := ip }
        | none => { s with fault := true }) := by
  have hok : strcmp s.buffRecv.bytes okText ≠ 0 := by
    intro h
    have htake := strncmp_eq_zero_iff.mp hc
    rw [strcmp_eq_zero_iff.mp h] at htake
    exact absurd htake (by decide +kernel)
  cases hip : pdpAddress s.buffRecv with
  | none => simp only [execBlock, if_pos hp, if_pos ha, replyTo, if_neg hok, if_pos hc, hip]
  | some ip => simp only [execBlock, if_pos hp, if_pos ha, replyTo, if_neg hok, if_pos hc, hip]

/-- An integer below 256 is the address of a quad exactly when that is `0.0.0.d`. -/
theorem exists_hasQuad_iff (line : Bytes) (x : UInt8) :
    (∃ a b c d, HasQuad line a b c d ∧ x.toUInt32.toNat = ((a * 256 + b) * 256 + c) * 256 + d) ↔
      HasQuad line 0 0 0 x.toNat := by
  have hlt := x.toNat_lt
  rw [UInt8.toNat_toUInt32]
  constructor
  · rintro ⟨a, b, c, d, h, he⟩
    obtain ⟨rfl, rfl, rfl, rfl⟩ : a = 0 ∧ b = 0 ∧ c = 0 ∧ d = x.toNat := by omega
    exact h
  · intro h
    exact ⟨0, 0, 0, x.toNat, h, by omega⟩

/-- A line without a second field leaves no address. -/
theorem exists_field_of_assigns {io : Io} {s : Sys} (hp : s.pendingATCommandParse = true)
    (ha : atCommandParse s.buffRecv.bytes = true)
    (hc : strncmp 11 s.buffRecv.bytes cgpaddrText = 0) (h : Assigns io s) :
    s.buffRecv.text.length ≠ 512 ∧ ∃ field, addressField s.buffRecv.text = some field := by
  unfold Assigns at h
  rw [execBlock_pdpAddress hp ha hc, pdpAddress_eq] at h
  refine ⟨fun hfull => ?_, ?_⟩
  · rw [if_pos hfull] at h
    simp [Sys.endParse] at h
  · cases hfield : addressField s.buffRecv.text with
    | some field => exact ⟨field, rfl⟩
    | none =>
      rw [hfield, Option.bind_none, ite_self] at h
      simp [Sys.endParse] at h

/-- **A line with a second field**: what comes out of it is right when the field is outside the
guard, or it has four parts and their or is 0 or the last part of a quad `0.0.0.d` of the line. -/
theorem assigns_iff_of_field {io : Io} {s : Sys} {field : Bytes} (hf : s.fault = false)
    (hp : s.pendingATCommandParse = true) (ha : atCommandParse s.buffRecv.bytes = true)
    (hc : strncmp 11 s.buffRecv.bytes cgpaddrText = 0) (hfull : s.buffRecv.text.length ≠ 512)
    (hfield : addressField s.buffRecv.text = some field) :
    Assigns io s ↔ (field.length < 9 ∨ 17 < field.length) ∨
      ∃ parts, strtoks quadDelims field = some parts ∧
        (orNumbers parts = 0 ∨ HasQuad s.buffRecv.text 0 0 0 (orNumbers parts).toNat) := by
  unfold Assigns
  rw [execBlock_pdpAddress hp ha hc, pdpAddress_of_field hfull hfield]
  by_cases hguard : field.length < 9 ∨ 17 < field.length
  · -- outside the guard nothing is parsed and the address is 0
    rw [if_pos hguard]
    simp [Sys.endParse, hf, hguard]
  · rw [if_neg hguard]
    simp only [hguard, false_or]
    cases strtoks quadDelims field with
    | none => simp [Sys.endParse]
    | some parts =>
      have hzero : (orNumbers parts).toUInt32 = 0 ↔ orNumbers parts = 0 := by
        rw [← UInt32.toNat_inj, ← UInt8.toNat_inj]
        rfl
      simp only [Option.map_some, Sys.endParse, hf, true_and, exists_hasQuad_iff, hzero,
        Option.some.injEq, exists_eq_left']

/-- A part is made of digits only, so it holds neither a dot nor a CR. -/
theorem IsPart.notMem {t : Bytes} {n : Nat} (h : IsPart t n) : 46 ∉ t ∧ 13 ∉ t := by
  obtain ⟨-, hdig, -⟩ := h
  exact ⟨fun hm => absurd (hdig _ hm) (by decide), fun hm => absurd (hdig _ hm) (by decide)⟩

/-- `atoi` of a part, up to what follows it. -/
theorem IsPart.atoi_append {t rest : Bytes} {n : Nat} (h : IsPart t n)
    (hrest : ∀ x ∈ rest.head?, isDigit x = false) : atoi (t ++ rest) = n := by
  obtain ⟨hne, hdig, hval, hle⟩ := h
  have hstop : rest.takeWhile isDigit = [] := by
    cases rest with
    | nil => rfl
    | cons c cs => rw [List.takeWhile_cons_of_neg (by simp [hrest c rfl])]
  rw [atoi_digits hne hdig hstop (by omega), hval]

theorem IsPart.readsZero {t : Bytes} (h : IsPart t 0) : ReadsZero t := by
  have hval : atoi (t ++ []) = (0 : Nat) := h.atoi_append (by rintro _ ⟨⟩)
  rw [List.append_nil] at hval
  simp [ReadsZero, hval]

/-- Only the last of four numbers shows. -/
theorem orNumbers_low {t₀ t₁ t₂ t₃ : Bytes} {d : Nat} (h₀ : ReadsZero t₀) (h₁ : ReadsZero t₁)
    (h₂ : ReadsZero t₂) (h₃ : atoi t₃ = d) (hd : d ≤ 255) :
    (orNumbers [t₀, t₁, t₂, t₃]).toNat = d := by
  have hbyte : ∀ {t : Bytes}, ReadsZero t → UInt8.ofInt (atoi t) = 0 := (ofInt_eq_zero_iff _).mpr
  simp only [orNumbers, List.foldr_cons, List.foldr_nil, hbyte h₀, hbyte h₁, hbyte h₂, UInt8.or_zero,
    UInt8.zero_or, toNat_ofInt, h₃]
  omega

/-- A quad of the second field is one of the line: commas stand around the field. -/
theorem SecondField.hasQuad {line field : Bytes} {a b c d : Nat} (h : SecondField line field)
    (hquad : HasQuad field a b c d) : HasQuad line a b c d := by
  obtain ⟨commas, first, commas', rest, rfl, -, hcommas', hne, -, -, -, -, hrest⟩ := h
  obtain ⟨before, pa, pb, pc, pd, after, rfl, ha, hb, hc, hd, hlast, hhead⟩ := hquad
  refine ⟨commas ++ (first ++ (commas' ++ before)), pa, pb, pc, pd, after ++ rest, ?_, ha, hb, hc, hd,
    fun x hx => ?_, fun x hx => ?_⟩
  · simp only [List.append_assoc, List.cons_append]
  · cases hbefore : before.getLast? with
    | some y =>
      have hy : y = x := by simpa [List.getLast?_append, hbefore] using hx
      exact hlast x (hy ▸ hbefore)
    | none =>
      have hmem : x ∈ commas' := by
        obtain rfl := List.getLast?_eq_none_iff.mp hbefore
        rw [List.append_nil, ← List.append_assoc, List.getLast?_append_of_ne_nil _ hne] at hx
        exact List.mem_of_getLast? hx
      rw [hcommas' x hmem]
      rfl
  · cases after with
    | nil =>
      rw [List.nil_append] at hx
      rw [hrest x hx]
      rfl
    | cons c cs => exact hhead x hx

/-- **A quad `0.0.0.d` in the second field**: its parts are four tokens, and their or is `d`. -/
theorem LowQuad.parts {line field : Bytes} (h : LowQuad field) (hfield : SecondField line field) :
    ∃ parts, strtoks quadDelims field = some parts ∧
      HasQuad line 0 0 0 (orNumbers parts).toNat := by
  obtain ⟨before, z₀, z₁, z₂, part, d, after, rfl, hz₀, hz₁, hz₂, hpart, hdot, hzero, hlast, hhead⟩ := h
  refine ⟨[before ++ z₀, z₁, z₂, part ++ after.takeWhile (· ≠ 13)], ?_, ?_⟩
  · refine strtoks_quadDelims_iff.mpr ⟨_, _, _, _, ?_, rfl⟩
    refine ⟨[], [], [], [], after.dropWhile (· ≠ 13), ?_, by simp, by simp, ?_, ?_, ?_, ?_⟩
    · simp only [List.nil_append, List.append_assoc, List.takeWhile_append_dropWhile]
    · simp only [List.forall_mem_cons, List.mem_append, not_or]
      exact ⟨⟨by simp [hz₀.1], hdot, hz₀.notMem.1⟩, ⟨hz₁.1, hz₁.notMem.1⟩, ⟨hz₂.1, hz₂.notMem.1⟩,
        by simp⟩
    · simp [hpart.1]
    · rw [List.mem_append, not_or]
      exact ⟨hpart.notMem.2, fun hm => by simpa using List.mem_takeWhile_imp hm⟩
    · intro c hc
      have hnot := List.head?_dropWhile_not (fun c : UInt8 => decide (c ≠ 13)) after
      rw [Option.mem_def.mp hc] at hnot
      simpa using hnot
  · have hd : atoi (part ++ after.takeWhile (· ≠ 13)) = d := by
      refine hpart.atoi_append fun x hx => hhead x ?_
      rw [List.head?_takeWhile] at hx
      exact (Option.mem_filter_iff.mp hx).1
    rw [orNumbers_low hzero hz₁.readsZero hz₂.readsZero hd hpart.2.2.2]
    exact hfield.hasQuad ⟨before, z₀, z₁, z₂, part, after, rfl, hz₀, hz₁, hz₂, hpart, hlast, hhead⟩

/-- The task with a line of up to 512 bytes to parse. -/
def received (line : Bytes) (h : line.length ≤ 512) : Sys :=
  { simcomInit with
    state := .verifyPdpAddress
    pendingATCommandParse := true
    buffRecv := ⟨line ++ List.replicate (512 - line.length) 0, by simp; omega⟩ }

/-- A driver that accepts nothing. -/
def idleIo : Io := ⟨true, .requestBusy, .requestBusy, .requestBusy, 0, 0, 0, 0⟩

end Rastreo.Simcom
