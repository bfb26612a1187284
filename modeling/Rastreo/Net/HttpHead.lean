import Rastreo.Net.HttpGrammar

/-!
# Where a head ends, and reading it in pieces

`is_complete` looks for two line ends in a row, from three bytes before the end of the last attempt.
What a head has for it: each CR has its LF behind it (`Paired`), and the head ends with two line ends
(`Framed`).

* `Framed.phrParse_of_short`: on a buffer that an attempt has found short, giving the length of that
  attempt changes no accepted answer.
* **`phrFeed_response`**, **`phrFeed_request`**: a caller that tries again with each piece, and gives
  the length of the attempt before, accepts what the whole buffer is accepted for.
* `findEmptyLine_response`: the first two line ends in a row are the end of a response head.
* **`phrParseResponse_eq_ok`**, **`phrParseRequest_eq_ok`**: what is accepted of a whole buffer is a
  head of the grammar at its start, and the number returned is how long that is.
-/

namespace Rastreo.Net

open Rastreo.Lib
open Rastreo.Lib.Scanner (Final)

/-! ## Every CR with its LF -/

/-- Each CR has an LF behind it. -/
def Paired : Bytes → Prop
  | [] => True
  | c :: s => (c = 13 → s.head? = some 10) ∧ Paired s

theorem Paired.append {u v : Bytes} (hu : Paired u) (hv : Paired v) : Paired (u ++ v) := by
  induction u with
  | nil => exact hv
  | cons c u ih =>
    refine ⟨fun hc => ?_, ih hu.2⟩
    show (u ++ v).head? = some 10
    rw [List.head?_append, hu.1 hc]
    rfl

theorem Paired.of_append {u v : Bytes} (h : Paired (u ++ v)) : Paired v := by
  induction u with
  | nil => exact h
  | cons c u ih => exact ih h.2

theorem paired_of_notMem {u : Bytes} (h : (13 : UInt8) ∉ u) : Paired u := by
  induction u with
  | nil => trivial
  | cons c u ih =>
    rw [List.mem_cons, not_or] at h
    exact ⟨fun hc => absurd hc.symm h.1, ih h.2⟩

theorem LineEnd.paired_bytes (e : LineEnd) : Paired e.bytes := by
  cases e <;> simp [LineEnd.bytes, Paired]

theorem Line.notMem_text (l : Line) : (13 : UInt8) ∉ l.text ∧ (10 : UInt8) ∉ l.text := by
  constructor
  all_goals
    intro h
    exact absurd (l.plain _ h) (by decide)

theorem Line.paired_bytes (l : Line) : Paired l.bytes :=
  (paired_of_notMem l.notMem_text.1).append l.ending.paired_bytes

theorem notMem_of_token {name : Bytes} (h : ∀ c ∈ name, isTokenChar c = true) :
    (13 : UInt8) ∉ name ∧ (10 : UInt8) ∉ name :=
  ⟨fun hc => (not_blank_of_token (h _ hc)).2.2.1 rfl,
    fun hc => (not_blank_of_token (h _ hc)).2.2.2 rfl⟩

theorem notMem_of_blank {blanks : Bytes} (h : ∀ c ∈ blanks, isBlank c = true) :
    (13 : UInt8) ∉ blanks ∧ (10 : UInt8) ∉ blanks :=
  ⟨fun hc => absurd (h _ hc) (by decide), fun hc => absurd (h _ hc) (by decide)⟩

/-- A header line is a text with no line end in it that starts with no line end, and a line end. -/
theorem HeaderLine.exists_text (l : HeaderLine) : ∃ (c : UInt8) (u : Bytes) (e : LineEnd),
    l.bytes = (c :: u) ++ e.bytes ∧ (13 : UInt8) ∉ c :: u ∧ (10 : UInt8) ∉ c :: u := by
  cases l with
  | named name blanks value hname htoken hblanks hvalue =>
    obtain ⟨c, name', rfl⟩ := List.exists_cons_of_ne_nil hname
    have h₁ := notMem_of_token htoken
    have h₂ := notMem_of_blank hblanks
    have h₃ := value.notMem_text
    refine ⟨c, name' ++ (58 :: (blanks ++ value.text)), value.ending, ?_, ?_, ?_⟩
    · simp only [bytes, Line.bytes, List.append_assoc, List.cons_append]
    · simpa [h₂.1, h₃.1] using h₁.1
    · simpa [h₂.2, h₃.2] using h₁.2
  | folded value hvalue =>
    obtain ⟨c, hc, -⟩ := hvalue
    obtain ⟨u, htext⟩ := List.head?_eq_some_iff.mp hc
    have h := value.notMem_text
    rw [htext] at h
    exact ⟨c, u, value.ending, by rw [bytes, Line.bytes, htext], h⟩

theorem HeaderLine.paired_bytes (l : HeaderLine) : Paired l.bytes := by
  obtain ⟨c, u, e, hbytes, h13, -⟩ := l.exists_text
  rw [hbytes]
  exact (paired_of_notMem h13).append e.paired_bytes

theorem paired_flatMap (lines : List HeaderLine) : Paired (lines.flatMap HeaderLine.bytes) := by
  induction lines with
  | nil => trivial
  | cons l lines ih =>
    rw [List.flatMap_cons]
    exact l.paired_bytes.append ih

theorem HeaderBlock.paired_bytes (b : HeaderBlock) : Paired b.bytes :=
  (paired_flatMap b.lines).append b.ending.paired_bytes

theorem paired_versionBytes (d : Fin 10) : Paired (versionBytes d) := by
  refine paired_of_notMem ?_
  revert d
  decide

theorem paired_spaces (n : Nat) : Paired (32 :: List.replicate n 32) := by
  refine paired_of_notMem fun h => ?_
  rw [← List.replicate_succ, List.mem_replicate] at h
  exact absurd h.2 (by decide)

theorem ResponseHead.paired_bytes (h : ResponseHead) : Paired h.bytes := by
  have hdigits : ∀ u t o : Fin 10, (13 : UInt8) ∉ [digitChar u, digitChar t, digitChar o] := by decide
  exact (paired_versionBytes _).append <| (paired_spaces _).append <|
    (paired_of_notMem (hdigits _ _ _)).append <| h.reason.paired_bytes.append h.block.paired_bytes

theorem RequestHead.paired_bytes (h : RequestHead) : Paired h.bytes := by
  have hempty : Paired (h.empty.elim [] LineEnd.bytes) := by
    cases h.empty with
    | none => trivial
    | some e => exact e.paired_bytes
  have hpath : (13 : UInt8) ∉ h.path := fun hc => (h.hplain _ hc).2 (.inl (by decide))
  exact hempty.append <| (paired_of_notMem (notMem_of_token h.htoken).1).append <|
    (paired_spaces _).append <| (paired_of_notMem hpath).append <| (paired_spaces _).append <|
      (paired_versionBytes _).append <| h.ending.paired_bytes.append h.block.paired_bytes

/-! ## Two line ends -/

theorem LineEnd.exists_lf (e : LineEnd) : ∃ u, e.bytes = u ++ [10] := by
  cases e
  · exact ⟨[], rfl⟩
  · exact ⟨[13], rfl⟩

/-- A block behind a line end ends with two. -/
theorem HeaderBlock.exists_ends (b : HeaderBlock) (e : LineEnd) :
    ∃ u, e.bytes ++ b.bytes = u ++ (10 :: b.ending.bytes) := by
  obtain ⟨lines, hfirst, ending⟩ := b
  show ∃ u, e.bytes ++ (lines.flatMap HeaderLine.bytes ++ ending.bytes) = _
  rcases List.eq_nil_or_concat lines with rfl | ⟨front, l, rfl⟩
  · obtain ⟨u, hu⟩ := e.exists_lf
    exact ⟨u, by rw [hu]; simp⟩
  · obtain ⟨c, v, e', hbytes, -⟩ := l.exists_text
    obtain ⟨u, hu⟩ := e'.exists_lf
    refine ⟨e.bytes ++ (front.flatMap HeaderLine.bytes ++ ((c :: v) ++ u)), ?_⟩
    simp [hbytes, hu, List.flatMap_append]

theorem ResponseHead.exists_ends (h : ResponseHead) :
    ∃ u, h.bytes = u ++ (10 :: h.block.ending.bytes) := by
  obtain ⟨u, hu⟩ := h.block.exists_ends h.reason.ending
  refine ⟨versionBytes h.minorVersion ++ ((32 :: List.replicate h.spaces 32) ++
    ([digitChar h.hundreds, digitChar h.tens, digitChar h.ones] ++ (h.reason.text ++ u))), ?_⟩
  simp only [ResponseHead.bytes, Line.bytes, List.append_assoc, List.cons_append, hu]

theorem RequestHead.exists_ends (h : RequestHead) :
    ∃ u, h.bytes = u ++ (10 :: h.block.ending.bytes) := by
  obtain ⟨u, hu⟩ := h.block.exists_ends h.ending
  refine ⟨(h.empty.elim [] LineEnd.bytes) ++ (h.method ++ ((32 :: List.replicate h.spaces 32) ++
    (h.path ++ ((32 :: List.replicate h.spacesAfter 32) ++ (versionBytes h.minorVersion ++ u))))),
    ?_⟩
  simp only [RequestHead.bytes, List.append_assoc, List.cons_append, hu]

/-! ## `is_complete` -/

theorem findEmptyLine_crlf {n : Nat} {s : Bytes} :
    findEmptyLine n (13 :: 10 :: s) = if n + 1 = 2 then .ok s else findEmptyLine (n + 1) s := by
  rw [findEmptyLine.eq_def]
  rfl

theorem findEmptyLine_lf {n : Nat} {s : Bytes} :
    findEmptyLine n (10 :: s) = if n + 1 = 2 then .ok s else findEmptyLine (n + 1) s := by
  rw [findEmptyLine.eq_def]
  rfl

theorem findEmptyLine_other {n : Nat} {c : UInt8} {s : Bytes} (h13 : c ≠ 13) (h10 : c ≠ 10) :
    findEmptyLine n (c :: s) = findEmptyLine 0 s := by
  rw [findEmptyLine.eq_def]
  exact (if_neg h13).trans (if_neg h10)

theorem findEmptyLine_lineEnd {n : Nat} {s : Bytes} (e : LineEnd) :
    findEmptyLine n (e.bytes ++ s) = if n + 1 = 2 then .ok s else findEmptyLine (n + 1) s := by
  cases e
  · exact findEmptyLine_lf
  · exact findEmptyLine_crlf

/-- Where each CR has its LF, the search goes wrong nowhere. -/
theorem findEmptyLine_ne_malformed {n : Nat} {s t : Bytes} (h : Paired (s ++ t)) :
    findEmptyLine n s ≠ .error .malformed := by
  fun_induction findEmptyLine n s with
  | case1 => exact fun h' => (nomatch h')
  | case2 => exact fun h' => (nomatch h')
  | case3 n d s hne => exact absurd (Option.some.inj (h.1 rfl)) hne
  | case4 => exact fun h' => (nomatch h')
  | case5 n d s _ _ ih => exact ih h.2.2
  | case6 => exact fun h' => (nomatch h')
  | case7 n s _ _ ih => exact ih h.2
  | case8 n c s _ _ ih => exact ih h.2

/-- Two line ends in a row are found. -/
theorem findEmptyLine_found {n : Nat} (hn : n ≤ 1) (e : LineEnd) {u r : Bytes}
    (h : Paired (u ++ (10 :: e.bytes))) :
    ∃ r', findEmptyLine n (u ++ ((10 :: e.bytes) ++ r)) = .ok r' := by
  have hend : ∀ n ≤ 1, ∃ r', findEmptyLine n ((10 :: e.bytes) ++ r) = .ok r' := by
    intro n hn
    rw [List.cons_append, findEmptyLine_lf]
    split
    · exact ⟨_, rfl⟩
    · rename_i hne
      rw [findEmptyLine_lineEnd, if_pos (by omega)]
      exact ⟨_, rfl⟩
  induction hlen : u.length using Nat.strong_induction_on generalizing n u with
  | _ len ih =>
    cases u with
    | nil => exact hend n hn
    | cons c u =>
      subst hlen
      by_cases h13 : c = 13
      · -- the LF of this CR is the next byte of the text, or the one of the end
        subst h13
        cases u with
        | nil =>
          rw [List.cons_append, List.nil_append, List.cons_append, findEmptyLine_crlf]
          split
          · exact ⟨_, rfl⟩
          · rename_i hne
            rw [findEmptyLine_lineEnd, if_pos (by omega)]
            exact ⟨_, rfl⟩
        | cons d u =>
          obtain rfl : d = 10 := Option.some.inj (h.1 rfl)
          rw [List.cons_append, List.cons_append, findEmptyLine_crlf]
          split
          · exact ⟨_, rfl⟩
          · exact ih u.length (by simp only [List.length_cons]; omega) (by omega) h.2.2 rfl
      · by_cases h10 : c = 10
        · subst h10
          rw [List.cons_append, findEmptyLine_lf]
          split
          · exact ⟨_, rfl⟩
          · exact ih u.length (by simp only [List.length_cons]; omega) (by omega) h.2 rfl
        · rw [List.cons_append, findEmptyLine_other h13 h10]
          exact ih u.length (by simp only [List.length_cons]; omega) (Nat.zero_le 1) h.2 rfl

/-! ## Reading in pieces -/

section Framed

variable {α : Type} {parse : Scanner UInt8 α} {buf got t : Bytes} {a : α} {n lastLen : Nat}

/-- Answers stay, and what is accepted is a text that ends with two line ends, whatever follows. -/
structure Framed (parse : Scanner UInt8 α) : Prop where
  final : Final parse
  paired : ∀ {s a r}, parse.run s = .ok (a, r) → ∃ u, ∃ e : LineEnd,
    Paired (u ++ (10 :: e.bytes)) ∧ s = (u ++ (10 :: e.bytes)) ++ r ∧
      ∀ t, parse.run ((u ++ (10 :: e.bytes)) ++ t) = .ok (a, t)

theorem framed_response (maxHeaders : Nat) : Framed (parseResponse maxHeaders) where
  final := final_parseResponse maxHeaders
  paired h := by
    obtain ⟨head, hlen, rfl, rfl⟩ := parseResponse_eq_ok.mp h
    obtain ⟨u, hu⟩ := head.exists_ends
    refine ⟨u, head.block.ending, hu ▸ head.paired_bytes, by rw [hu], fun t => ?_⟩
    rw [← hu]
    exact parseResponse_eq_ok.mpr ⟨head, hlen, rfl, rfl⟩

theorem framed_request (maxHeaders : Nat) : Framed (parseRequest maxHeaders) where
  final := final_parseRequest maxHeaders
  paired h := by
    obtain ⟨head, hlen, rfl, rfl⟩ := parseRequest_eq_ok.mp h
    obtain ⟨u, hu⟩ := head.exists_ends
    refine ⟨u, head.block.ending, hu ▸ head.paired_bytes, by rw [hu], fun t => ?_⟩
    rw [← hu]
    exact parseRequest_eq_ok.mpr ⟨head, hlen, rfl, rfl⟩

theorem phrParse_eq_ok : phrParse parse buf lastLen = .ok (a, n) ↔
    (lastLen ≠ 0 → ∃ r, isComplete buf lastLen = .ok r) ∧
      ∃ r, parse.run buf = .ok (a, r) ∧ n = buf.length - r.length := by
  unfold phrParse
  constructor
  · intro h
    split at h
    · cases h
    · rename_i r₀ hcomplete
      split at h
      · cases h
      · rename_i b r hparse
        cases h
        refine ⟨fun hlast => ?_, r, hparse, rfl⟩
        rw [if_pos hlast] at hcomplete
        exact ⟨r₀, hcomplete⟩
  · rintro ⟨hcomplete, r, hparse, rfl⟩
    rw [hparse]
    by_cases hlast : lastLen = 0
    · rw [if_neg (not_not.mpr hlast)]
    · obtain ⟨r₀, hr₀⟩ := hcomplete hlast
      rw [if_pos hlast, hr₀]

/-- The attempt before was short. -/
def Attempted (parse : Scanner UInt8 α) (buf : Bytes) (lastLen : Nat) : Prop :=
  lastLen = 0 ∨ lastLen ≤ buf.length ∧ parse.run (buf.take lastLen) = .error .short

/-- The attempt before did not get to the end of what is accepted. -/
theorem Attempted.lt {u r : Bytes} (hlast : Attempted parse buf lastLen)
    (hbuf : buf = u ++ r) (hu : ∀ t, parse.run (u ++ t) = .ok (a, t)) (hne : lastLen ≠ 0) :
    lastLen < u.length := by
  obtain ⟨-, hshort⟩ := hlast.resolve_left hne
  by_contra hge
  rw [hbuf, List.take_append, List.take_of_length_le (Nat.not_lt.mp hge), hu] at hshort
  cases hshort

/-- **A longer attempt** gives what one from the start gives, when that is a value. -/
theorem Framed.phrParse_of_short (hp : Framed parse) (hlast : Attempted parse buf lastLen) :
    phrParse parse buf lastLen = .ok (a, n) ↔ phrParse parse buf 0 = .ok (a, n) := by
  rw [phrParse_eq_ok, phrParse_eq_ok]
  refine ⟨fun h => ⟨fun h0 => absurd rfl h0, h.2⟩, fun h => ⟨fun hne => ?_, h.2⟩⟩
  obtain ⟨-, r, hparse, -⟩ := h
  obtain ⟨u, e, hpaired, hbuf, hu⟩ := hp.paired hparse
  have hlt := hlast.lt hbuf hu hne
  -- the last line end but one is still in front of where the search starts
  have hk : lastLen - 3 ≤ u.length := by
    have he : e.bytes.length ≤ 2 := by cases e <;> decide
    rw [List.length_append, List.length_cons] at hlt
    omega
  have hstart : (if lastLen < 3 then buf else buf.drop (lastLen - 3)) = buf.drop (lastLen - 3) := by
    split
    · rename_i hlt3
      rw [Nat.sub_eq_zero_of_le hlt3.le, List.drop_zero]
    · rfl
  rw [isComplete, hstart, hbuf, List.append_assoc, List.drop_append_of_le_length hk]
  refine findEmptyLine_found (Nat.zero_le 1) e (Paired.of_append (u := u.take (lastLen - 3)) ?_)
  rw [← List.append_assoc, List.take_append_drop]
  exact hpaired

/-- In front of what is accepted, an attempt is short or accepts it. -/
theorem Framed.phrParse_front (hp : Framed parse) (hlast : Attempted parse got lastLen)
    {r : Bytes} (h : parse.run (got ++ t) = .ok (a, r)) :
    parse.run got = .error .short ∧ phrParse parse got lastLen = .error .short ∨
      phrParse parse got lastLen = .ok (a, (got ++ t).length - r.length) := by
  rcases hp.final.of_append h with hshort | ⟨r', hgot, rfl⟩
  · left
    refine ⟨hshort, ?_⟩
    obtain ⟨u, e, hpaired, hbuf, hu⟩ := hp.paired h
    -- all of `got` lies in the head, where each CR has its LF
    obtain ⟨x, hx⟩ : ∃ x, u ++ (10 :: e.bytes) = got ++ x := by
      rcases List.append_eq_append_iff.mp hbuf with ⟨x, hx, -⟩ | ⟨x, hx, -⟩
      · exact ⟨x, hx⟩
      · rw [hx, hu] at hshort
        cases hshort
    have hdrop : ∀ k, Paired (got.drop k ++ x) := by
      intro k
      refine Paired.of_append (u := got.take k) ?_
      rw [← List.append_assoc, List.take_append_drop, ← hx]
      exact hpaired
    have hcomplete : isComplete got lastLen ≠ .error .malformed := by
      unfold isComplete
      split
      · exact findEmptyLine_ne_malformed (hdrop 0)
      · exact findEmptyLine_ne_malformed (hdrop _)
    unfold phrParse
    rw [hshort]
    split
    · rename_i e' he'
      split at he'
      · cases e' with
        | short => rfl
        | malformed => exact absurd he' hcomplete
      · cases he'
    · rfl
  · right
    refine (hp.phrParse_of_short hlast).mpr (phrParse_eq_ok.mpr ⟨fun h0 => absurd rfl h0, r', hgot,
      ?_⟩)
    rw [List.length_append, List.length_append]
    omega

/-! ## A caller -/

/-- A caller that has got `got`, and tries again with each piece, giving the length of the attempt
before. -/
def phrFeed (parse : Scanner UInt8 α) (got : Bytes) (lastLen : Nat) :
    List Bytes → Except Stop (α × Nat)
  | [] => phrParse parse got lastLen
  | c :: cs =>
    match phrParse parse got lastLen with
    | .error .short => phrFeed parse (got ++ c) got.length cs
    | x => x

/-- An accepted buffer is accepted with more behind it. -/
theorem Framed.phrParse_append (hp : Framed parse)
    (h : phrParse parse got lastLen = .ok (a, n)) : phrParse parse (got ++ t) 0 = .ok (a, n) := by
  obtain ⟨-, r, hparse, rfl⟩ := phrParse_eq_ok.mp h
  refine phrParse_eq_ok.mpr ⟨fun h0 => absurd rfl h0, r ++ t, hp.final.ok hparse t, ?_⟩
  rw [List.length_append, List.length_append]
  omega

/-- What the caller accepts is accepted all at once. -/
theorem Framed.phrParse_of_phrFeed (hp : Framed parse) (cs : List Bytes)
    (h : phrFeed parse got lastLen cs = .ok (a, n)) :
    phrParse parse (got ++ cs.flatten) 0 = .ok (a, n) := by
  induction cs generalizing got lastLen with
  | nil => exact hp.phrParse_append h
  | cons c cs ih =>
    rw [phrFeed] at h
    split at h
    · rw [List.flatten_cons, ← List.append_assoc]
      exact ih h
    · exact hp.phrParse_append h

/-- And the other way round. -/
theorem Framed.phrFeed_of_phrParse (hp : Framed parse) (hlast : Attempted parse got lastLen)
    (cs : List Bytes) (h : phrParse parse (got ++ cs.flatten) 0 = .ok (a, n)) :
    phrFeed parse got lastLen cs = .ok (a, n) := by
  induction cs generalizing got lastLen with
  | nil =>
    rw [List.flatten_nil, List.append_nil] at h
    exact (hp.phrParse_of_short hlast).mpr h
  | cons c cs ih =>
    obtain ⟨-, r, hparse, hn⟩ := phrParse_eq_ok.mp h
    rw [phrFeed]
    rcases hp.phrParse_front hlast hparse with ⟨hshort, hfront⟩ | hfront
    · rw [hfront]
      refine ih (.inr ⟨by rw [List.length_append]; omega, by rwa [List.take_left]⟩) ?_
      rw [List.append_assoc, ← List.flatten_cons]
      exact h
    · rw [hfront, hn]

/-- **However a response is cut**, the caller accepts what is accepted all at once. -/
theorem phrFeed_response {maxHeaders : Nat} {response : PhrResponse} (cs : List Bytes) :
    phrFeed (parseResponse maxHeaders) [] 0 cs = .ok (response, n) ↔
      phrParseResponse cs.flatten maxHeaders 0 = .ok (response, n) :=
  ⟨fun h => (framed_response maxHeaders).phrParse_of_phrFeed cs h,
    fun h => (framed_response maxHeaders).phrFeed_of_phrParse (.inl rfl : Attempted _ [] 0) cs h⟩

theorem phrFeed_request {maxHeaders : Nat} {request : PhrRequest} (cs : List Bytes) :
    phrFeed (parseRequest maxHeaders) [] 0 cs = .ok (request, n) ↔
      phrParseRequest cs.flatten maxHeaders 0 = .ok (request, n) :=
  ⟨fun h => (framed_request maxHeaders).phrParse_of_phrFeed cs h,
    fun h => (framed_request maxHeaders).phrFeed_of_phrParse (.inl rfl : Attempted _ [] 0) cs h⟩

/-- **What is taken for a response, and how long it is.** -/
theorem phrParseResponse_eq_ok (buf : Bytes) (maxHeaders : Nat) (response : PhrResponse) :
    phrParseResponse buf maxHeaders 0 = .ok (response, n) ↔
      ∃ h : ResponseHead, h.block.lines.length ≤ maxHeaders ∧ response = h.response ∧
        h.bytes <+: buf ∧ n = h.bytes.length := by
  unfold phrParseResponse
  rw [phrParse_eq_ok]
  constructor
  · rintro ⟨-, rest, hparse, rfl⟩
    obtain ⟨h, hlen, hresponse, rfl⟩ := parseResponse_eq_ok.mp hparse
    refine ⟨h, hlen, hresponse, List.prefix_append _ _, ?_⟩
    rw [List.length_append, Nat.add_sub_cancel]
  · rintro ⟨h, hlen, hresponse, ⟨rest, rfl⟩, rfl⟩
    refine ⟨fun h0 => absurd rfl h0, rest, parseResponse_eq_ok.mpr ⟨h, hlen, hresponse, rfl⟩, ?_⟩
    rw [List.length_append, Nat.add_sub_cancel]

theorem phrParseRequest_eq_ok (buf : Bytes) (maxHeaders : Nat) (request : PhrRequest) :
    phrParseRequest buf maxHeaders 0 = .ok (request, n) ↔
      ∃ h : RequestHead, h.block.lines.length ≤ maxHeaders ∧ request = h.request ∧
        h.bytes <+: buf ∧ n = h.bytes.length := by
  unfold phrParseRequest
  rw [phrParse_eq_ok]
  constructor
  · rintro ⟨-, rest, hparse, rfl⟩
    obtain ⟨h, hlen, hrequest, rfl⟩ := parseRequest_eq_ok.mp hparse
    refine ⟨h, hlen, hrequest, List.prefix_append _ _, ?_⟩
    rw [List.length_append, Nat.add_sub_cancel]
  · rintro ⟨h, hlen, hrequest, ⟨rest, rfl⟩, rfl⟩
    refine ⟨fun h0 => absurd rfl h0, rest, parseRequest_eq_ok.mpr ⟨h, hlen, hrequest, rfl⟩, ?_⟩
    rw [List.length_append, Nat.add_sub_cancel]

end Framed

/-! ## The first two line ends in a row -/

theorem findEmptyLine_text {n : Nat} {c : UInt8} {u s : Bytes} (h13 : (13 : UInt8) ∉ c :: u)
    (h10 : (10 : UInt8) ∉ c :: u) : findEmptyLine n (c :: u ++ s) = findEmptyLine 0 s := by
  rw [List.mem_cons, not_or] at h13 h10
  rw [List.cons_append, findEmptyLine_other (Ne.symm h13.1) (Ne.symm h10.1)]
  have hu13 := h13.2
  have hu10 := h10.2
  clear h13 h10
  induction u with
  | nil => rfl
  | cons d u ih =>
    rw [List.mem_cons, not_or] at hu13 hu10
    rw [List.cons_append, findEmptyLine_other (Ne.symm hu13.1) (Ne.symm hu10.1)]
    exact ih hu13.2 hu10.2

theorem findEmptyLine_lines (lines : List HeaderLine) (e : LineEnd) (r : Bytes) :
    findEmptyLine 1 (lines.flatMap HeaderLine.bytes ++ (e.bytes ++ r)) = .ok r := by
  induction lines with
  | nil =>
    rw [List.flatMap_nil, List.nil_append, findEmptyLine_lineEnd]
    rfl
  | cons l lines ih =>
    obtain ⟨c, u, e', hbytes, h13, h10⟩ := l.exists_text
    rw [List.flatMap_cons, hbytes, List.append_assoc, List.append_assoc,
      findEmptyLine_text h13 h10, findEmptyLine_lineEnd, if_neg (by decide)]
    exact ih

/-- **They are the end of the head.** -/
theorem findEmptyLine_response (h : ResponseHead) (r : Bytes) :
    findEmptyLine 0 (h.bytes ++ r) = .ok r := by
  have hnot : ∀ x : UInt8, x = 13 ∨ x = 10 → x ∉ versionBytes h.minorVersion ++
      ((32 :: List.replicate h.spaces 32) ++
        ([digitChar h.hundreds, digitChar h.tens, digitChar h.ones] ++ h.reason.text)) := by
    have hversion : ∀ d, (13 : UInt8) ∉ versionBytes d ∧ (10 : UInt8) ∉ versionBytes d := by decide
    have hdigits : ∀ u t o : Fin 10, (13 : UInt8) ∉ [digitChar u, digitChar t, digitChar o] ∧
        (10 : UInt8) ∉ [digitChar u, digitChar t, digitChar o] := by decide
    have hspaces : ∀ x : UInt8, x ∈ 32 :: List.replicate h.spaces 32 → x = 32 := by
      intro x hx
      rw [← List.replicate_succ] at hx
      exact List.eq_of_mem_replicate hx
    have h₁ := hversion h.minorVersion
    have h₂ := hdigits h.hundreds h.tens h.ones
    have h₃ := h.reason.notMem_text
    rintro x (rfl | rfl)
    all_goals
      simp only [List.mem_append, not_or]
    · exact ⟨h₁.1, fun hx => absurd (hspaces _ hx) (by decide), h₂.1, h₃.1⟩
    · exact ⟨h₁.2, fun hx => absurd (hspaces _ hx) (by decide), h₂.2, h₃.2⟩
  obtain ⟨c, u, hfirst⟩ := List.exists_cons_of_ne_nil (l := versionBytes h.minorVersion ++
    ((32 :: List.replicate h.spaces 32) ++
      ([digitChar h.hundreds, digitChar h.tens, digitChar h.ones] ++ h.reason.text)))
    (List.append_ne_nil_of_right_ne_nil _ (List.cons_ne_nil _ _))
  rw [hfirst] at hnot
  have hsplit : h.bytes ++ r = (c :: u) ++ (h.reason.ending.bytes ++
      (h.block.lines.flatMap HeaderLine.bytes ++ (h.block.ending.bytes ++ r))) := by
    rw [← hfirst]
    simp only [ResponseHead.bytes, Line.bytes, HeaderBlock.bytes, List.append_assoc,
      List.cons_append]
  rw [hsplit, findEmptyLine_text (hnot 13 (.inl rfl)) (hnot 10 (.inr rfl)), findEmptyLine_lineEnd,
    if_neg (by decide)]
  exact findEmptyLine_lines _ _ _

end Rastreo.Net
