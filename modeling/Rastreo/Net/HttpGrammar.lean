import Rastreo.Net.HttpParser

/-!
# What the HTTP parser accepts

A head is a request or status line, header lines, and an empty line. `ResponseHead` and
`RequestHead` are the heads that `http_parser.c` takes, with what it requires of each part as a
field; `bytes` is the text of a head, and `response` and `request` are what it means.

The parser is laxer than RFC 7230: a line may end with LF alone, more than one space may stand
between the parts of the first line, and a line that starts with a blank is a header without a name.

* **`parseResponse_eq_ok`**, **`parseRequest_eq_ok`**, **`parseHeaders_eq_ok`**: a buffer is
  accepted exactly when it starts with the text of such a head, and then for what that means.
-/

namespace Rastreo.Net

open Rastreo.Lib
open Rastreo.Lib.Scanner

/-! ## Lines -/

/-- How a line ends. -/
inductive LineEnd
  | lf
  | crlf
  deriving DecidableEq, Repr

/-- The bytes of a line end. -/
def LineEnd.bytes : LineEnd → Bytes
  | .lf => [10]
  | .crlf => [13, 10]

/-- A text without control characters, and its end. -/
structure Line where
  text : Bytes
  plain : ∀ c ∈ text, isCtl c = false
  ending : LineEnd

/-- The bytes of the line. -/
def Line.bytes (l : Line) : Bytes := l.text ++ l.ending.bytes

/-- A line of a header block: a header, or more of the value of the one above. -/
inductive HeaderLine
  | named (name blanks : Bytes) (value : Line) (hname : name ≠ [])
      (htoken : ∀ c ∈ name, isTokenChar c = true) (hblanks : ∀ c ∈ blanks, isBlank c = true)
      (hvalue : ∀ c ∈ value.text.head?, isBlank c = false)
  | folded (value : Line) (hvalue : ∃ c ∈ value.text.head?, isBlank c = true)

namespace HeaderLine

/-- The line is a header of its own. -/
def IsNamed : HeaderLine → Prop
  | named .. => True
  | folded .. => False

/-- The bytes of the header line. -/
def bytes : HeaderLine → Bytes
  | named name blanks value .. => name ++ (58 :: (blanks ++ value.bytes))
  | folded value _ => value.bytes

/-- What the line means. -/
def header : HeaderLine → PhrHeader
  | named name _ value .. => ⟨some name, value.text.rdropWhile isBlank⟩
  | folded value _ => ⟨none, value.text.rdropWhile isBlank⟩

end HeaderLine

/-- Header lines, and an empty line. -/
structure HeaderBlock where
  lines : List HeaderLine
  first : ∀ l ∈ lines.head?, l.IsNamed
  ending : LineEnd

/-- The bytes of the block. -/
def HeaderBlock.bytes (b : HeaderBlock) : Bytes :=
  b.lines.flatMap HeaderLine.bytes ++ b.ending.bytes

/-- What the block means. -/
def HeaderBlock.headers (b : HeaderBlock) : List PhrHeader := b.lines.map HeaderLine.header

/-- The character of a digit. -/
def digitChar (d : Fin 10) : UInt8 := UInt8.ofNat (48 + d)

/-- `HTTP/1.` and the minor version. -/
def versionBytes (minor : Fin 10) : Bytes := ascii "HTTP/1." ++ [digitChar minor]

/-! ## Heads -/

/-- The head of a response. -/
structure ResponseHead where
  minorVersion : Fin 10
  spaces : Nat
  hundreds : Fin 10
  tens : Fin 10
  ones : Fin 10
  reason : Line
  hreason : ∀ c ∈ reason.text.head?, c = 32
  block : HeaderBlock

namespace ResponseHead

/-- The bytes of the head. -/
def bytes (h : ResponseHead) : Bytes :=
  versionBytes h.minorVersion ++ ((32 :: List.replicate h.spaces 32) ++
    ([digitChar h.hundreds, digitChar h.tens, digitChar h.ones] ++ (h.reason.bytes ++ h.block.bytes)))

/-- What the head means. -/
def response (h : ResponseHead) : PhrResponse where
  minorVersion := h.minorVersion
  status := 100 * h.hundreds + 10 * h.tens + h.ones
  msg := h.reason.text.dropWhile (· == 32)
  headers := h.block.headers

end ResponseHead

/-- The head of a request. -/
structure RequestHead where
  empty : Option LineEnd
  method : Bytes
  hmethod : method ≠ []
  htoken : ∀ c ∈ method, isTokenChar c = true
  spaces : Nat
  path : Bytes
  hpath : path ≠ []
  hplain : ∀ c ∈ path, c ≠ 32 ∧ ¬(c < 32 ∨ c = 127)
  spacesAfter : Nat
  minorVersion : Fin 10
  ending : LineEnd
  block : HeaderBlock

namespace RequestHead

/-- The bytes of the head. -/
def bytes (h : RequestHead) : Bytes :=
  (h.empty.elim [] LineEnd.bytes) ++ (h.method ++ ((32 :: List.replicate h.spaces 32) ++
    (h.path ++ ((32 :: List.replicate h.spacesAfter 32) ++
      (versionBytes h.minorVersion ++ (h.ending.bytes ++ h.block.bytes))))))

/-- What the head means. -/
def request (h : RequestHead) : PhrRequest where
  method := h.method
  path := h.path
  minorVersion := h.minorVersion
  headers := h.block.headers

end RequestHead

/-! ## The parts -/

section Parts

variable {s r : Bytes}

/-- No token character is a blank, a colon, or a control character. -/
theorem not_blank_of_token {c : UInt8} (h : isTokenChar c = true) :
    isBlank c = false ∧ c ≠ 58 ∧ c ≠ 13 ∧ c ≠ 10 := by
  refine ⟨?_, ?_, ?_, ?_⟩
  · rw [Bool.eq_false_iff]
    intro hb
    rw [isBlank, Bool.or_eq_true, beq_iff_eq, beq_iff_eq] at hb
    rcases hb with rfl | rfl <;> exact absurd h (by decide)
  all_goals
    rintro rfl
    exact absurd h (by decide)

theorem LineEnd.head_bytes (e : LineEnd) : ∃ c, (e.bytes ++ r).head? = some c ∧
    isCtl c = true ∧ isBlank c = false ∧ c ≠ 32 := by
  cases e
  · exact ⟨10, rfl, by decide, by decide, by decide⟩
  · exact ⟨13, rfl, by decide, by decide, by decide⟩

theorem lineEnd?_true : lineEnd?.run s = .ok (true, r) ↔ ∃ e : LineEnd, s = e.bytes ++ r := by
  unfold lineEnd?
  constructor
  · intro h
    rw [bind_eq_ok] at h
    obtain ⟨c, s₁, hpeek, h⟩ := h
    obtain ⟨rfl, hc⟩ := peek_eq_ok.mp hpeek
    split at h
    · rename_i h13
      rw [bind_eq_ok] at h
      obtain ⟨d, s₂, hnext, h⟩ := h
      rw [bind_eq_ok] at h
      obtain ⟨_, s₃, hexp, h⟩ := h
      cases h
      obtain rfl := expect_eq_ok.mp hexp
      obtain rfl := next_eq_ok.mp hnext
      obtain rfl : d = c := Option.some.inj hc
      exact ⟨.crlf, by rw [h13]; rfl⟩
    · split at h
      · rename_i h10
        rw [bind_eq_ok] at h
        obtain ⟨d, s₂, hnext, h⟩ := h
        cases h
        obtain rfl := next_eq_ok.mp hnext
        obtain rfl : d = c := Option.some.inj hc
        exact ⟨.lf, by rw [h10]; rfl⟩
      · cases h
  · rintro ⟨e, rfl⟩
    cases e <;> rfl

theorem lineEnd?_false : lineEnd?.run s = .ok (false, r) ↔
    s = r ∧ ∃ c, r.head? = some c ∧ c ≠ 13 ∧ c ≠ 10 := by
  unfold lineEnd?
  constructor
  · intro h
    rw [bind_eq_ok] at h
    obtain ⟨c, s₁, hpeek, h⟩ := h
    obtain ⟨rfl, hc⟩ := peek_eq_ok.mp hpeek
    split at h
    · rw [bind_eq_ok] at h
      obtain ⟨-, s₂, -, h⟩ := h
      rw [bind_eq_ok] at h
      obtain ⟨-, s₃, -, h⟩ := h
      cases h
    · rename_i h13
      split at h
      · rw [bind_eq_ok] at h
        obtain ⟨-, s₂, -, h⟩ := h
        cases h
      · rename_i h10
        cases h
        exact ⟨rfl, c, hc, h13, h10⟩
  · rintro ⟨rfl, c, hc, h13, h10⟩
    rw [run_bind_of_ok (peek_eq_ok.mpr ⟨rfl, hc⟩), if_neg h13, if_neg h10]
    rfl

theorem getTokenToEol_eq_ok {t : Bytes} :
    getTokenToEol.run s = .ok (t, r) ↔ ∃ l : Line, t = l.text ∧ s = l.bytes ++ r := by
  unfold getTokenToEol
  rw [findCtl_eq]
  constructor
  · intro h
    rw [bind_eq_ok] at h
    obtain ⟨token, s₁, hscan, h⟩ := h
    rw [bind_eq_ok] at h
    obtain ⟨found, s₂, hend, h⟩ := h
    cases found with
    | false => exact nomatch h
    | true =>
      obtain ⟨rfl, rfl⟩ := Prod.mk.inj (Except.ok.inj h)
      obtain ⟨e, rfl⟩ := lineEnd?_true.mp hend
      obtain ⟨rfl, hall, -⟩ := scanTo_eq_ok.mp hscan
      exact ⟨⟨token, fun c hc => (hall c hc).1, e⟩, rfl, (List.append_assoc _ _ _).symm⟩
  · rintro ⟨l, rfl, rfl⟩
    obtain ⟨c, hhead, hctl, -⟩ := @LineEnd.head_bytes r l.ending
    rw [Line.bytes, List.append_assoc, run_bind_of_ok (scanTo_eq_ok.mpr
      ⟨rfl, fun d hd => ⟨l.plain d hd, rfl⟩, c, hhead, hctl⟩),
      run_bind_of_ok (lineEnd?_true.mpr ⟨l.ending, rfl⟩)]
    rfl

theorem parseToken_eq_ok {c : UInt8} {t : Bytes} (hc : isTokenChar c = false) :
    (parseToken c).run s = .ok (t, r) ↔
      (∀ d ∈ t, isTokenChar d = true) ∧ s = t ++ r ∧ r.head? = some c := by
  unfold parseToken
  rw [scanTo_eq_ok]
  constructor
  · rintro ⟨hs, hall, d, hd, hstop⟩
    rw [beq_iff_eq] at hstop
    refine ⟨fun e he => ?_, hs, hstop ▸ hd⟩
    have h := (hall e he).2
    rwa [Bool.not_eq_false'] at h
  · rintro ⟨hall, hs, hhead⟩
    refine ⟨hs, fun d hd => ⟨?_, ?_⟩, c, hhead, beq_self_eq_true c⟩
    · rw [beq_eq_false_iff_ne]
      rintro rfl
      rw [hall d hd] at hc
      cases hc
    · rw [hall d hd]
      rfl

theorem advanceToken_eq_ok {t : Bytes} :
    advanceToken.run s = .ok (t, r) ↔
      s = t ++ r ∧ (∀ c ∈ t, c ≠ 32 ∧ ¬(c < 32 ∨ c = 127)) ∧ r.head? = some 32 := by
  have hchar : ∀ c : UInt8, (c == 32) = false ∧
      (!isPrintableAscii c && (decide (c < 32) || c == 127)) = false ↔
      c ≠ 32 ∧ ¬(c < 32 ∨ c = 127) := by
    intro c
    rw [beq_eq_false_iff_ne]
    refine and_congr_right fun _ => ?_
    rw [Bool.eq_false_iff, ne_eq, Bool.and_eq_true, Bool.or_eq_true, decide_eq_true_iff,
      beq_iff_eq, Bool.not_eq_true', Bool.eq_false_iff, ne_eq, isPrintableAscii_iff]
    refine not_congr ⟨And.right, fun h => ⟨fun hprint => ?_, h⟩⟩
    rcases h with h | rfl
    · rw [UInt8.lt_iff_toNat_lt] at h
      exact absurd hprint.1 (Nat.not_le.mpr h)
    · exact absurd hprint.2 (by decide)
  unfold advanceToken
  rw [scanTo_eq_ok]
  refine and_congr_right fun _ => and_congr ?_ ?_
  · exact forall₂_congr fun c _ => hchar c
  · exact ⟨fun ⟨c, hc, h⟩ => by rw [hc, beq_iff_eq.mp h], fun h => ⟨32, h, rfl⟩⟩

theorem skipSpaces_eq_ok {x : PUnit} :
    skipSpaces.run s = .ok (x, r) ↔ ∃ c n, s = (c :: List.replicate n 32) ++ r ∧
      ∃ d, r.head? = some d ∧ d ≠ 32 := by
  unfold skipSpaces
  constructor
  · intro h
    rw [bind_eq_ok] at h
    obtain ⟨c, s₁, hnext, h⟩ := h
    rw [bind_eq_ok] at h
    obtain ⟨u, s₂, hscan, h⟩ := h
    cases h
    obtain ⟨rfl, hall, d, hd, hstop⟩ := scanTo_eq_ok.mp hscan
    obtain rfl := next_eq_ok.mp hnext
    have hu : u = List.replicate u.length 32 := by
      refine List.eq_replicate_iff.mpr ⟨rfl, fun e he => ?_⟩
      have hne := (hall e he).1
      rwa [bne_eq_false_iff_eq] at hne
    exact ⟨c, u.length, by rw [← hu]; rfl, d, hd, by simpa using hstop⟩
  · rintro ⟨c, n, rfl, d, hd, hne⟩
    have hscan : (scanTo (· != 32) fun _ => false).run (List.replicate n 32 ++ r) =
        .ok (List.replicate n 32, r) := by
      refine scanTo_eq_ok.mpr ⟨rfl, fun e he => ?_, d, hd, by simpa using hne⟩
      rw [List.eq_of_mem_replicate he]
      exact ⟨rfl, rfl⟩
    rw [List.cons_append, run_bind_of_ok (run_next_cons _), run_bind_of_ok hscan]
    rfl

theorem digitChar_bounds {c : UInt8} : ¬(c < 48 ∨ 57 < c) ↔ ∃ d : Fin 10, c = digitChar d := by
  rw [UInt8.lt_iff_toNat_lt, UInt8.lt_iff_toNat_lt]
  constructor
  · intro h
    have h48 : ¬ c.toNat < 48 := fun h' => h (.inl h')
    have h57 : ¬ 57 < c.toNat := fun h' => h (.inr h')
    refine ⟨⟨c.toNat - 48, by omega⟩, UInt8.toNat_inj.mp ?_⟩
    rw [digitChar, UInt8.toNat_ofNat']
    show _ = (48 + (c.toNat - 48)) % 256
    omega
  · rintro ⟨d, rfl⟩
    revert d
    decide

theorem digitChar_ne_space (d : Fin 10) : digitChar d ≠ 32 := by
  revert d
  decide

theorem parseInt_eq_ok {mul v : Nat} :
    (parseInt mul).run s = .ok (v, r) ↔ ∃ d : Fin 10, s = digitChar d :: r ∧ v = mul * d := by
  have hval : ∀ d : Fin 10, (digitChar d).toNat - 48 = d := by decide
  unfold parseInt
  constructor
  · intro h
    rw [bind_eq_ok] at h
    obtain ⟨c, s₁, hnext, h⟩ := h
    split at h
    · cases h
    · rename_i hbad
      cases h
      obtain ⟨d, rfl⟩ := digitChar_bounds.mp hbad
      exact ⟨d, next_eq_ok.mp hnext, by rw [hval]⟩
  · rintro ⟨d, rfl, rfl⟩
    rw [run_bind_of_ok (run_next_cons _), if_neg (digitChar_bounds.mpr ⟨d, rfl⟩), hval]
    rfl

theorem parseHttpVersion_eq_ok {v : Nat} :
    parseHttpVersion.run s = .ok (v, r) ↔
      ∃ d : Fin 10, s = versionBytes d ++ r ∧ r ≠ [] ∧ v = d := by
  unfold parseHttpVersion
  simp only [bind_eq_ok, need_eq_ok, expect_eq_ok, parseInt_eq_ok]
  constructor
  · rintro ⟨-, s₀, ⟨hlen, rfl⟩, -, s₁, rfl, -, s₂, rfl, -, s₃, rfl, -, s₄, rfl, -, s₅, rfl, -, s₆,
      rfl, -, s₇, rfl, d, rfl, rfl⟩
    refine ⟨d, rfl, ?_, Nat.one_mul _⟩
    rintro rfl
    exact absurd hlen (by simp)
  · rintro ⟨d, rfl, hr, rfl⟩
    have hlen : 9 ≤ (versionBytes d ++ r).length := by
      have hpos := List.length_pos_iff.mpr hr
      rw [List.length_append]
      show 9 ≤ 8 + r.length
      omega
    exact ⟨⟨⟩, _, ⟨hlen, rfl⟩, ⟨⟩, _, rfl, ⟨⟩, _, rfl, ⟨⟩, _, rfl, ⟨⟩, _, rfl, ⟨⟩, _, rfl, ⟨⟩, _,
      rfl, ⟨⟩, _, rfl, d, rfl, (Nat.one_mul _).symm⟩

theorem parseMsg_eq_ok {text msg : Bytes} :
    parseMsg text = .ok msg ↔
      (∀ c ∈ text.head?, c = 32) ∧ msg = text.dropWhile (· == 32) := by
  cases text with
  | nil => exact ⟨fun h => ⟨fun _ hc => (nomatch hc), (Except.ok.inj h).symm⟩, fun h => by rw [h.2]; rfl⟩
  | cons c text =>
    rw [parseMsg]
    constructor
    · intro h
      split at h
      · rename_i hc
        rw [← Except.ok.inj h, hc]
        exact ⟨fun d hd => (Option.some.inj hd).symm, rfl⟩
      · cases h
    · rintro ⟨hc, rfl⟩
      obtain rfl := hc c rfl
      rfl

/-! ## Header blocks -/

/-- The name of a header line: none when the line folds, which the first one cannot. -/
theorem parseName_eq_ok {num : Nat} {name : Option Bytes} :
    (parseName num).run s = .ok (name, r) ↔
      (name = none ∧ num ≠ 0 ∧ s = r ∧ ∃ c, r.head? = some c ∧ isBlank c = true) ∨
      ∃ token blanks, name = some token ∧ token ≠ [] ∧ (∀ c ∈ token, isTokenChar c = true) ∧
        (∀ c ∈ blanks, isBlank c = true) ∧ s = token ++ (58 :: (blanks ++ r)) ∧
        ∃ c, r.head? = some c ∧ isBlank c = false := by
  unfold parseName
  constructor
  · intro h
    rw [bind_eq_ok] at h
    obtain ⟨c, s₁, hpeek, h⟩ := h
    obtain ⟨rfl, hc⟩ := peek_eq_ok.mp hpeek
    split at h
    · rename_i hfold
      cases h
      exact .inl ⟨rfl, hfold.1, rfl, c, hc, hfold.2⟩
    · rw [bind_eq_ok] at h
      obtain ⟨token, s₂, hscan, h⟩ := h
      obtain ⟨htoken, hs, hcolon⟩ := (parseToken_eq_ok (by decide)).mp hscan
      split at h
      · cases h
      · rename_i hlen
        rw [bind_eq_ok] at h
        obtain ⟨d, s₃, hnext, h⟩ := h
        obtain rfl := next_eq_ok.mp hnext
        rw [bind_eq_ok] at h
        obtain ⟨blanks, s₄, hscan, h⟩ := h
        cases h
        obtain ⟨rfl, hblanks, e, he, hstop⟩ := scanTo_eq_ok.mp hscan
        refine .inr ⟨token, blanks, rfl, fun hnil => hlen (by rw [hnil]; rfl), htoken,
          fun b hb => by simpa using (hblanks b hb).1, ?_, e, he, by simpa using hstop⟩
        rw [hs, Option.some.inj hcolon]
  · rintro (⟨rfl, hnum, rfl, c, hc, hblank⟩ |
      ⟨token, blanks, rfl, hne, htoken, hblanks, rfl, c, hc, hblank⟩)
    · rw [run_bind_of_ok (peek_eq_ok.mpr ⟨rfl, hc⟩), if_pos ⟨hnum, hblank⟩]
      rfl
    · obtain ⟨d, token', rfl⟩ := List.exists_cons_of_ne_nil hne
      have hd := (not_blank_of_token (htoken d List.mem_cons_self)).1
      have hscan : (scanTo (fun c => !isBlank c) fun _ => false).run (blanks ++ r) =
          .ok (blanks, r) :=
        scanTo_eq_ok.mpr ⟨rfl, fun b hb => ⟨by rw [hblanks b hb]; rfl, rfl⟩, c, hc, by
          rw [hblank]; rfl⟩
      rw [run_bind_of_ok (peek_eq_ok.mpr ⟨rfl, rfl⟩), if_neg fun h => by simp [hd] at h,
        run_bind_of_ok ((parseToken_eq_ok (by decide)).mpr ⟨htoken, rfl, rfl⟩),
        if_neg (by simp), run_bind_of_ok (run_next_cons _), run_bind_of_ok hscan]
      rfl

/-- A header line starts no line end. -/
theorem HeaderLine.head_bytes (l : HeaderLine) :
    ∃ c, (l.bytes ++ r).head? = some c ∧ c ≠ 13 ∧ c ≠ 10 := by
  cases l with
  | named name blanks value hname htoken hblanks hvalue =>
    obtain ⟨d, name', rfl⟩ := List.exists_cons_of_ne_nil hname
    exact ⟨d, rfl, (not_blank_of_token (htoken d List.mem_cons_self)).2.2⟩
  | folded value hvalue =>
    obtain ⟨c, hc, hblank⟩ := hvalue
    obtain ⟨text', htext⟩ := List.head?_eq_some_iff.mp hc
    refine ⟨c, ?_, ?_, ?_⟩
    · rw [HeaderLine.bytes, Line.bytes, htext]
      rfl
    all_goals
      rintro rfl
      exact absurd hblank (by decide)

/-- A name and a value make a header line. -/
theorem exists_headerLine {num : Nat} {name : Option Bytes} {value s₁ : Bytes}
    (hname : (parseName num).run s = .ok (name, s₁))
    (hvalue : getTokenToEol.run s₁ = .ok (value, r)) :
    ∃ l : HeaderLine, (num = 0 → l.IsNamed) ∧ s = l.bytes ++ r ∧
      l.header = ⟨name, value.rdropWhile isBlank⟩ := by
  obtain ⟨v, rfl, rfl⟩ := getTokenToEol_eq_ok.mp hvalue
  rcases parseName_eq_ok.mp hname with ⟨rfl, hnum, rfl, c, hc, hblank⟩ |
    ⟨token, blanks, rfl, hne, htoken, hblanks, rfl, c, hc, hblank⟩
  · refine ⟨.folded v ?_, fun h => absurd h hnum, rfl, rfl⟩
    cases htext : v.text with
    | nil =>
      obtain ⟨d, hd, -, hnot, -⟩ := @LineEnd.head_bytes r v.ending
      rw [Line.bytes, htext, List.nil_append, hd] at hc
      rw [Option.some.inj hc, hblank] at hnot
      cases hnot
    | cons d text =>
      rw [Line.bytes, htext] at hc
      exact ⟨d, rfl, Option.some.inj hc ▸ hblank⟩
  · refine ⟨.named token blanks v hne htoken hblanks fun d hd => ?_, fun _ => trivial, ?_, rfl⟩
    · obtain ⟨text, htext⟩ := List.head?_eq_some_iff.mp hd
      rw [Line.bytes, htext] at hc
      rw [Option.some.inj hc, hblank]
    · show _ = token ++ (58 :: (blanks ++ v.bytes)) ++ r
      simp only [List.append_assoc, List.cons_append]

/-- A header line is read as what it means. -/
theorem reads_headerLine {num : Nat} (l : HeaderLine) (hl : num = 0 → l.IsNamed) :
    ∃ name s₁ value, (parseName num).run (l.bytes ++ r) = .ok (name, s₁) ∧
      getTokenToEol.run s₁ = .ok (value, r) ∧ l.header = ⟨name, value.rdropWhile isBlank⟩ := by
  cases l with
  | named token blanks v hne htoken hblanks hvalue =>
    have hstart : ∃ c, (v.bytes ++ r).head? = some c ∧ isBlank c = false := by
      cases htext : v.text with
      | nil =>
        obtain ⟨c, hc, -, hnot, -⟩ := @LineEnd.head_bytes r v.ending
        exact ⟨c, by rw [Line.bytes, htext, List.nil_append, hc], hnot⟩
      | cons c text =>
        exact ⟨c, by rw [Line.bytes, htext]; rfl, hvalue c (by rw [htext]; rfl)⟩
    refine ⟨some token, v.bytes ++ r, v.text, parseName_eq_ok.mpr (.inr ⟨token, blanks, rfl, hne,
      htoken, hblanks, ?_, hstart⟩), getTokenToEol_eq_ok.mpr ⟨v, rfl, rfl⟩, rfl⟩
    show token ++ (58 :: (blanks ++ v.bytes)) ++ r = _
    simp only [List.append_assoc, List.cons_append]
  | folded v hvalue =>
    obtain ⟨c, hc, hblank⟩ := hvalue
    obtain ⟨text, htext⟩ := List.head?_eq_some_iff.mp hc
    exact ⟨none, v.bytes ++ r, v.text, parseName_eq_ok.mpr (.inl ⟨rfl, hl, rfl, c, by
      rw [Line.bytes, htext]; rfl, hblank⟩), getTokenToEol_eq_ok.mpr ⟨v, rfl, rfl⟩, rfl⟩

/-- **Header blocks**, with `num` headers above them. -/
theorem parseHeaders_eq_ok {num left : Nat} {headers : List PhrHeader} :
    (parseHeaders num left).run s = .ok (headers, r) ↔
      ∃ (lines : List HeaderLine) (e : LineEnd), (num = 0 → ∀ l ∈ lines.head?, l.IsNamed) ∧
        lines.length ≤ left ∧ headers = lines.map HeaderLine.header ∧
        s = lines.flatMap HeaderLine.bytes ++ (e.bytes ++ r) := by
  induction left generalizing num headers s with
  | zero =>
    unfold parseHeaders
    constructor
    · intro h
      rw [bind_eq_ok] at h
      obtain ⟨found, s₁, hend, h⟩ := h
      cases found with
      | false => exact nomatch h
      | true =>
        obtain ⟨rfl, rfl⟩ := Prod.mk.inj (Except.ok.inj h)
        obtain ⟨e, rfl⟩ := lineEnd?_true.mp hend
        exact ⟨[], e, fun _ _ hl => (nomatch hl), le_rfl, rfl, rfl⟩
    · rintro ⟨lines, e, -, hlen, rfl, rfl⟩
      obtain rfl := List.length_eq_zero_iff.mp (Nat.le_zero.mp hlen)
      rw [List.flatMap_nil, List.nil_append, run_bind_of_ok (lineEnd?_true.mpr ⟨e, rfl⟩)]
      rfl
  | succ left ih =>
    unfold parseHeaders
    constructor
    · intro h
      rw [bind_eq_ok] at h
      obtain ⟨found, s₁, hend, h⟩ := h
      cases found with
      | true =>
        obtain ⟨rfl, rfl⟩ := Prod.mk.inj (Except.ok.inj h)
        obtain ⟨e, rfl⟩ := lineEnd?_true.mp hend
        exact ⟨[], e, fun _ _ hl => (nomatch hl), Nat.zero_le _, rfl, rfl⟩
      | false =>
        obtain ⟨rfl, -⟩ := lineEnd?_false.mp hend
        rw [if_neg Bool.false_ne_true, bind_eq_ok] at h
        obtain ⟨name, s₂, hname, h⟩ := h
        rw [bind_eq_ok] at h
        obtain ⟨value, s₃, hvalue, h⟩ := h
        rw [bind_eq_ok] at h
        obtain ⟨rest, s₄, hrest, h⟩ := h
        obtain ⟨rfl, rfl⟩ := Prod.mk.inj (Except.ok.inj h)
        obtain ⟨l, hl, rfl, hheader⟩ := exists_headerLine hname hvalue
        obtain ⟨lines, e, -, hlen, rfl, rfl⟩ := ih.mp hrest
        refine ⟨l :: lines, e, fun hnum l' hl' => Option.some.inj hl' ▸ hl hnum,
          Nat.succ_le_succ hlen, by rw [List.map_cons, hheader], ?_⟩
        rw [List.flatMap_cons, List.append_assoc]
    · rintro ⟨lines, e, hfirst, hlen, rfl, rfl⟩
      cases lines with
      | nil =>
        rw [List.flatMap_nil, List.nil_append, run_bind_of_ok (lineEnd?_true.mpr ⟨e, rfl⟩)]
        rfl
      | cons l lines =>
        rw [List.flatMap_cons, List.append_assoc]
        obtain ⟨name, s₁, value, hname, hvalue, hheader⟩ :=
          @reads_headerLine (lines.flatMap HeaderLine.bytes ++ (e.bytes ++ r)) num l
            fun hnum => hfirst hnum l rfl
        rw [run_bind_of_ok (lineEnd?_false.mpr ⟨rfl, l.head_bytes⟩), if_neg Bool.false_ne_true,
          run_bind_of_ok hname, run_bind_of_ok hvalue,
          run_bind_of_ok (ih.mpr ⟨lines, e, fun h => absurd h (Nat.succ_ne_zero num),
            Nat.le_of_succ_le_succ hlen, rfl, rfl⟩), List.map_cons, hheader]
        rfl

theorem parseHeaders_zero_eq_ok {left : Nat} {headers : List PhrHeader} :
    (parseHeaders 0 left).run s = .ok (headers, r) ↔
      ∃ b : HeaderBlock, b.lines.length ≤ left ∧ headers = b.headers ∧ s = b.bytes ++ r := by
  rw [parseHeaders_eq_ok]
  constructor
  · rintro ⟨lines, e, hfirst, hlen, rfl, rfl⟩
    exact ⟨⟨lines, hfirst rfl, e⟩, hlen, rfl, (List.append_assoc _ _ _).symm⟩
  · rintro ⟨b, hlen, rfl, rfl⟩
    exact ⟨b.lines, b.ending, fun _ => b.first, hlen, rfl, List.append_assoc _ _ _⟩

/-! ## Heads -/

/-- **Responses.** -/
theorem parseResponse_eq_ok {maxHeaders : Nat} {response : PhrResponse} :
    (parseResponse maxHeaders).run s = .ok (response, r) ↔
      ∃ h : ResponseHead, h.block.lines.length ≤ maxHeaders ∧ response = h.response ∧
        s = h.bytes ++ r := by
  unfold parseResponse
  constructor
  · intro h
    rw [bind_eq_ok] at h
    obtain ⟨minorVersion, s₁, hversion, h⟩ := h
    rw [bind_eq_ok] at h
    obtain ⟨c, s₂, hpeek, h⟩ := h
    obtain ⟨rfl, hc⟩ := peek_eq_ok.mp hpeek
    split at h
    · cases h
    · rename_i hspace
      rw [bind_eq_ok] at h
      obtain ⟨_, s₃, hskip, h⟩ := h
      rw [bind_eq_ok] at h
      obtain ⟨_, s₄, hneed, h⟩ := h
      obtain ⟨-, rfl⟩ := need_eq_ok.mp hneed
      rw [bind_eq_ok] at h
      obtain ⟨hundreds, s₅, h₁, h⟩ := h
      rw [bind_eq_ok] at h
      obtain ⟨tens, s₆, h₂, h⟩ := h
      rw [bind_eq_ok] at h
      obtain ⟨ones, s₇, h₃, h⟩ := h
      rw [bind_eq_ok] at h
      obtain ⟨text, s₈, htext, h⟩ := h
      cases hmsg : parseMsg text with
      | error e => rw [hmsg] at h; cases h
      | ok msg =>
        rw [hmsg] at h
        dsimp only at h
        rw [bind_eq_ok] at h
        obtain ⟨headers, s₉, hheaders, h⟩ := h
        cases h
        obtain ⟨b, hlen, rfl, rfl⟩ := parseHeaders_zero_eq_ok.mp hheaders
        obtain ⟨l, rfl, rfl⟩ := getTokenToEol_eq_ok.mp htext
        obtain ⟨o, rfl, rfl⟩ := parseInt_eq_ok.mp h₃
        obtain ⟨t, rfl, rfl⟩ := parseInt_eq_ok.mp h₂
        obtain ⟨u, rfl, rfl⟩ := parseInt_eq_ok.mp h₁
        obtain ⟨d, n, rfl, -⟩ := skipSpaces_eq_ok.mp hskip
        obtain ⟨m, rfl, -, rfl⟩ := parseHttpVersion_eq_ok.mp hversion
        obtain ⟨hreason, rfl⟩ := parseMsg_eq_ok.mp hmsg
        obtain rfl : d = 32 := by
          rw [Option.some.inj hc]
          exact not_not.mp hspace
        refine ⟨⟨m, n, u, t, o, l, hreason, b⟩, hlen, ?_, ?_⟩
        · rw [ResponseHead.response, Nat.one_mul]
        · simp only [ResponseHead.bytes, List.append_assoc, List.cons_append, List.nil_append]
  · rintro ⟨h, hlen, rfl, rfl⟩
    obtain ⟨m, n, u, t, o, l, hreason, b⟩ := h
    have htail : 1 ≤ (l.bytes ++ (b.bytes ++ r)).length := by
      have hpos : 1 ≤ l.ending.bytes.length := by cases l.ending <;> decide
      rw [List.length_append, Line.bytes, List.length_append]
      omega
    have hskip : skipSpaces.run ((32 :: List.replicate n 32) ++
        (digitChar u :: digitChar t :: digitChar o :: (l.bytes ++ (b.bytes ++ r)))) =
        .ok (⟨⟩, digitChar u :: digitChar t :: digitChar o :: (l.bytes ++ (b.bytes ++ r))) :=
      skipSpaces_eq_ok.mpr ⟨32, n, rfl, digitChar u, rfl, digitChar_ne_space u⟩
    simp only [ResponseHead.bytes, List.append_assoc, List.cons_append, List.nil_append]
    rw [run_bind_of_ok (parseHttpVersion_eq_ok.mpr ⟨m, rfl, List.cons_ne_nil _ _, rfl⟩),
      run_bind_of_ok (peek_eq_ok.mpr ⟨rfl, rfl⟩), if_neg (not_not.mpr rfl), ← List.cons_append,
      run_bind_of_ok hskip,
      run_bind_of_ok (need_eq_ok (x := ⟨⟩) |>.mpr ⟨by simp only [List.length_cons]; omega, rfl⟩),
      run_bind_of_ok (parseInt_eq_ok.mpr ⟨u, rfl, rfl⟩),
      run_bind_of_ok (parseInt_eq_ok.mpr ⟨t, rfl, rfl⟩),
      run_bind_of_ok (parseInt_eq_ok.mpr ⟨o, rfl, rfl⟩),
      run_bind_of_ok (getTokenToEol_eq_ok.mpr ⟨l, rfl, rfl⟩),
      parseMsg_eq_ok.mpr ⟨hreason, rfl⟩]
    dsimp only
    rw [run_bind_of_ok (parseHeaders_zero_eq_ok.mpr ⟨b, hlen, rfl, rfl⟩), Nat.one_mul]
    rfl

/-- **Requests.** -/
theorem parseRequest_eq_ok {maxHeaders : Nat} {request : PhrRequest} :
    (parseRequest maxHeaders).run s = .ok (request, r) ↔
      ∃ h : RequestHead, h.block.lines.length ≤ maxHeaders ∧ request = h.request ∧
        s = h.bytes ++ r := by
  unfold parseRequest
  constructor
  · intro h
    rw [bind_eq_ok] at h
    obtain ⟨found, s₁, hempty, h⟩ := h
    rw [bind_eq_ok] at h
    obtain ⟨method, s₂, hmethod, h⟩ := h
    rw [bind_eq_ok] at h
    obtain ⟨_, s₃, hskip, h⟩ := h
    rw [bind_eq_ok] at h
    obtain ⟨path, s₄, hpath, h⟩ := h
    rw [bind_eq_ok] at h
    obtain ⟨_, s₅, hskip', h⟩ := h
    split at h
    · cases h
    · rename_i hne
      rw [bind_eq_ok] at h
      obtain ⟨minorVersion, s₆, hversion, h⟩ := h
      rw [bind_eq_ok] at h
      obtain ⟨ended, s₇, hend, h⟩ := h
      cases ended with
      | false => exact nomatch h
      | true =>
        rw [if_pos rfl, bind_eq_ok] at h
        obtain ⟨headers, s₈, hheaders, h⟩ := h
        cases h
        obtain ⟨b, hlen, rfl, rfl⟩ := parseHeaders_zero_eq_ok.mp hheaders
        obtain ⟨e, rfl⟩ := lineEnd?_true.mp hend
        obtain ⟨m, rfl, -, rfl⟩ := parseHttpVersion_eq_ok.mp hversion
        obtain ⟨d, n, rfl, -⟩ := skipSpaces_eq_ok.mp hskip'
        obtain ⟨rfl, hplain, hspace⟩ := advanceToken_eq_ok.mp hpath
        obtain rfl : d = 32 := Option.some.inj hspace
        obtain ⟨d, k, rfl, -⟩ := skipSpaces_eq_ok.mp hskip
        obtain ⟨htoken, rfl, hspace'⟩ := (parseToken_eq_ok (by decide)).mp hmethod
        obtain rfl : d = 32 := Option.some.inj hspace'
        have hm : method ≠ [] := fun hnil => hne (.inl (by rw [hnil]; rfl))
        have hp : path ≠ [] := fun hnil => hne (.inr (by rw [hnil]; rfl))
        cases found with
        | true =>
          obtain ⟨e₀, rfl⟩ := lineEnd?_true.mp hempty
          refine ⟨⟨some e₀, method, hm, htoken, k, path, hp, hplain, n, m, e, b⟩, hlen, rfl, ?_⟩
          simp only [RequestHead.bytes, List.append_assoc, List.cons_append, Option.elim_some]
        | false =>
          obtain ⟨rfl, -⟩ := lineEnd?_false.mp hempty
          refine ⟨⟨none, method, hm, htoken, k, path, hp, hplain, n, m, e, b⟩, hlen, rfl, ?_⟩
          simp only [RequestHead.bytes, List.append_assoc, List.cons_append, Option.elim_none,
            List.nil_append]
  · rintro ⟨h, hlen, rfl, rfl⟩
    obtain ⟨e₀, method, hm, htoken, k, path, hp, hplain, n, m, e, b⟩ := h
    have hempty : ∀ t, lineEnd?.run (e₀.elim [] LineEnd.bytes ++ (method ++ t)) =
        .ok (e₀.isSome, method ++ t) := by
      intro t
      obtain ⟨c, method', rfl⟩ := List.exists_cons_of_ne_nil hm
      cases e₀ with
      | none =>
        exact lineEnd?_false.mpr ⟨rfl, c, rfl, (not_blank_of_token (htoken c List.mem_cons_self)).2.2⟩
      | some e₀ => exact lineEnd?_true.mpr ⟨e₀, rfl⟩
    have hpath : ∀ t, ∃ c, (path ++ t).head? = some c ∧ c ≠ 32 := by
      intro t
      obtain ⟨c, path', rfl⟩ := List.exists_cons_of_ne_nil hp
      exact ⟨c, rfl, (hplain c List.mem_cons_self).1⟩
    have hline : e.bytes ++ (b.bytes ++ r) ≠ [] := by
      cases e <;> exact List.cons_ne_nil _ _
    have hne : ¬(method.length = 0 ∨ path.length = 0) := by
      rw [List.length_eq_zero_iff, List.length_eq_zero_iff]
      exact not_or.mpr ⟨hm, hp⟩
    simp only [RequestHead.bytes, List.append_assoc]
    refine bind_eq_ok.mpr ⟨_, _, hempty _, bind_eq_ok.mpr ⟨_, _,
      (parseToken_eq_ok (by decide)).mpr ⟨htoken, rfl, rfl⟩, bind_eq_ok.mpr ⟨⟨⟩, _,
      skipSpaces_eq_ok.mpr ⟨32, k, rfl, hpath _⟩, bind_eq_ok.mpr ⟨_, _,
      advanceToken_eq_ok.mpr ⟨rfl, hplain, rfl⟩, bind_eq_ok.mpr ⟨⟨⟩, _,
      skipSpaces_eq_ok.mpr ⟨32, n, rfl, 72, rfl, by decide⟩, ?_⟩⟩⟩⟩⟩
    rw [if_neg hne]
    refine bind_eq_ok.mpr ⟨_, _, parseHttpVersion_eq_ok.mpr ⟨m, rfl, hline, rfl⟩,
      bind_eq_ok.mpr ⟨_, _, lineEnd?_true.mpr ⟨e, rfl⟩, ?_⟩⟩
    rw [if_pos rfl]
    exact bind_eq_ok.mpr ⟨_, _, parseHeaders_zero_eq_ok.mpr ⟨b, hlen, rfl, rfl⟩, rfl⟩

end Parts

end Rastreo.Net
