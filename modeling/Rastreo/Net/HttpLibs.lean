import Rastreo.Net.HttpHead
import Rastreo.Net.Accepting

/-!
# The handshake with the parser of the repository

`phrLibs`: the client with `http_parser.c` for its parser.

* **`correct_phrLibs`**: the parser is what the client relies on. It reads no further than the first
  CRLF CRLF: where a head goes on behind one, what is in front of it is no head.
* `valid_phrLibs_iff`: a response is valid exactly when the text in front of the blank line starts
  with a head of status 101 that has the three headers.
* **`admits_of_legible`**: in every run whose steps are legible, the connection is established on such
  a head, and on no other text.
-/

namespace Rastreo.Net

open Rastreo.Lib

/-! ## No further than the blank line -/

theorem findEmptyLine_append {n : Nat} {s t : Bytes} :
    ∀ r, findEmptyLine n s = .ok r → findEmptyLine n (s ++ t) = .ok (r ++ t) := by
  fun_induction findEmptyLine n s with
  | case1 =>
    intro r h
    cases h
  | case2 =>
    intro r h
    cases h
  | case3 =>
    intro r h
    cases h
  | case4 n d s hd hn =>
    intro r h
    obtain rfl := not_not.mp hd
    obtain rfl := Except.ok.inj h
    rw [List.cons_append, List.cons_append, findEmptyLine_crlf, if_pos hn]
  | case5 n d s hd hn ih =>
    intro r h
    obtain rfl := not_not.mp hd
    rw [List.cons_append, List.cons_append, findEmptyLine_crlf, if_neg hn]
    exact ih r h
  | case6 n s hn _ =>
    intro r h
    obtain rfl := Except.ok.inj h
    rw [List.cons_append, findEmptyLine_lf, if_pos hn]
  | case7 n s hn _ ih =>
    intro r h
    rw [List.cons_append, findEmptyLine_lf, if_neg hn]
    exact ih r h
  | case8 n c s h13 h10 ih =>
    intro r h
    rw [List.cons_append, findEmptyLine_other h13 h10]
    exact ih r h

/-- Up to a CRLF CRLF there is an answer. -/
theorem findEmptyLine_blank {n : Nat} (hn : n ≤ 1) (a : Bytes) :
    findEmptyLine n (a ++ [13, 10, 13, 10]) = .error .malformed ∨
      ∃ r, findEmptyLine n (a ++ [13, 10, 13, 10]) = .ok r := by
  induction hlen : a.length using Nat.strong_induction_on generalizing n a with
  | _ len ih =>
    subst hlen
    match a with
    | [] =>
      rw [List.nil_append, findEmptyLine_crlf]
      split
      · exact .inr ⟨_, rfl⟩
      · rw [findEmptyLine_crlf, if_pos (by omega)]
        exact .inr ⟨_, rfl⟩
    | [c] =>
      by_cases h13 : c = 13
      · subst h13
        exact .inl rfl
      · by_cases h10 : c = 10
        · subst h10
          rw [List.cons_append, findEmptyLine_lf]
          split
          · exact .inr ⟨_, rfl⟩
          · exact ih 0 (by simp) (by omega) [] rfl
        · rw [List.cons_append, findEmptyLine_other h13 h10]
          exact ih 0 (by simp) (Nat.zero_le 1) [] rfl
    | c :: d :: a =>
      by_cases h13 : c = 13
      · subst h13
        by_cases hd : d = 10
        · subst hd
          rw [List.cons_append, List.cons_append, findEmptyLine_crlf]
          split
          · exact .inr ⟨_, rfl⟩
          · exact ih a.length (by simp only [List.length_cons]; omega) (by omega) a rfl
        · left
          rw [List.cons_append, List.cons_append, findEmptyLine.eq_def]
          exact (if_pos rfl).trans (if_pos hd)
      · by_cases h10 : c = 10
        · subst h10
          rw [List.cons_append, findEmptyLine_lf]
          split
          · exact .inr ⟨_, rfl⟩
          · exact ih (d :: a).length (by simp only [List.length_cons]; omega) (by omega) (d :: a) rfl
        · rw [List.cons_append, findEmptyLine_other h13 h10]
          exact ih (d :: a).length (by simp only [List.length_cons]; omega) (Nat.zero_le 1) (d :: a)
            rfl

/-- A head that starts a text ends at its first CRLF CRLF, or before. -/
theorem ResponseHead.length_le_headEnd (h : ResponseHead) {text r : Bytes} {n : Nat}
    (htext : text = h.bytes ++ r) (hend : headEnd? text = some n) : h.bytes.length ≤ n := by
  by_contra hlt
  obtain ⟨i, rfl, hends, -⟩ := headEnd?_eq_some.mp hend
  have hsplit : text = (text.take i ++ [13, 10, 13, 10]) ++ text.drop (i + 4) := by
    rw [← hends, List.append_assoc, ← List.drop_drop, List.take_append_drop, List.take_append_drop]
  have hfound : findEmptyLine 0 text = .ok r := by
    rw [htext]
    exact findEmptyLine_response h r
  rcases findEmptyLine_blank (Nat.zero_le 1) (text.take i) with hbad | ⟨r', hr'⟩
  · -- it lies in the head, where each CR has its LF
    obtain ⟨x, hx⟩ : ∃ x, h.bytes = (text.take i ++ [13, 10, 13, 10]) ++ x := by
      rcases List.append_eq_append_iff.mp (htext.symm.trans hsplit) with ⟨x, hx, -⟩ | ⟨x, hx, -⟩
      · have hlen := congrArg List.length hx
        simp only [List.length_append, List.length_take, List.length_cons, List.length_nil] at hlen
        obtain rfl : x = [] := List.length_eq_zero_iff.mp (by omega)
        exact ⟨[], by rw [hx, List.append_nil, List.append_nil]⟩
      · exact ⟨x, hx⟩
    exact findEmptyLine_ne_malformed (hx ▸ h.paired_bytes) hbad
  · have hlong := findEmptyLine_append (t := text.drop (i + 4)) r' hr'
    rw [← hsplit, hfound, Except.ok.injEq] at hlong
    have hlen := congrArg List.length htext
    have hle := hends.le
    rw [hlong, List.length_append, List.length_append, List.length_drop] at hlen
    omega

/-! ## The parser of the client -/

/-- What `handshake_response_parse` takes from the parser's answer. -/
def PhrResponse.http (r : PhrResponse) : HttpResponse :=
  ⟨r.status, r.headers.map fun h => (h.name.getD [], h.value)⟩

/-- `HTTP_MAX_RESPONSE_HEADERS`. -/
abbrev httpMaxResponseHeaders : Nat := 10

/-- The code outside the client: `phr_parse_response`, and a hash. -/
def phrLibs (sha1 : Bytes → Bytes) : Libs where
  phrParseResponse text :=
    match phrParseResponse text httpMaxResponseHeaders 0 with
    | .ok (r, _) => some r.http
    | .error _ => none
  sha1 := sha1

section PhrLibs

variable {sha1 : Bytes → Bytes} {text : Bytes}

theorem phrLibs_eq_some {x : HttpResponse} :
    (phrLibs sha1).phrParseResponse text = some x ↔
      ∃ h : ResponseHead, h.block.lines.length ≤ httpMaxResponseHeaders ∧ x = h.response.http ∧
        h.bytes <+: text := by
  have hval : (phrLibs sha1).phrParseResponse text = some x ↔
      ∃ r n, phrParseResponse text httpMaxResponseHeaders 0 = .ok (r, n) ∧ x = r.http := by
    show (match phrParseResponse text httpMaxResponseHeaders 0 with
      | .ok (r, _) => some r.http
      | .error _ => none) = some x ↔ _
    cases phrParseResponse text httpMaxResponseHeaders 0 with
    | error e => exact ⟨fun h => (nomatch h), fun ⟨_, _, h, _⟩ => (nomatch h)⟩
    | ok y =>
      refine ⟨fun h => ⟨y.1, y.2, rfl, (Option.some.inj h).symm⟩, ?_⟩
      rintro ⟨r, n, h, rfl⟩
      rw [Except.ok.inj h]
  rw [hval]
  constructor
  · rintro ⟨r, n, h, rfl⟩
    obtain ⟨-, rest, hparse, -⟩ := phrParse_eq_ok.mp h
    obtain ⟨head, hlen, rfl, rfl⟩ := parseResponse_eq_ok.mp hparse
    exact ⟨head, hlen, rfl, List.prefix_append _ _⟩
  · rintro ⟨head, hlen, rfl, rest, rfl⟩
    exact ⟨head.response, _, phrParse_eq_ok.mpr ⟨fun h0 => absurd rfl h0, rest,
      parseResponse_eq_ok.mpr ⟨head, hlen, rfl, rfl⟩, rfl⟩, rfl⟩

/-- **The parser is what the client relies on.** -/
theorem correct_phrLibs (hsha : ∀ t, (sha1 t).length = 20) : (phrLibs sha1).Correct where
  head text n hend := by
    ext x
    rw [phrLibs_eq_some, phrLibs_eq_some]
    refine exists_congr fun h => and_congr_right fun _ => and_congr_right fun _ => ?_
    constructor
    · rintro ⟨r, htext⟩
      exact List.prefix_take_iff.mpr ⟨⟨r, htext⟩, h.length_le_headEnd htext.symm hend⟩
    · exact fun hpre => hpre.trans (List.take_prefix _ _)
  blank := rfl
  sha1_length := hsha

/-! ## Runs -/

/-- The text starts with a head of status 101 that has the three headers. -/
def StartsAccepting (key text : Bytes) : Prop :=
  ∃ h : ResponseHead, h.bytes <+: text ∧ h.block.lines.length ≤ httpMaxResponseHeaders ∧
    100 * (h.hundreds : Nat) + 10 * h.tens + h.ones = 101 ∧
      ∀ m : Mark, ∃ l ∈ h.block.lines, m.Has key (l.header.name.getD [], l.header.value)

theorem accepts_http_iff {key : Bytes} {h : ResponseHead} :
    h.response.http.Accepts key ↔ 100 * (h.hundreds : Nat) + 10 * h.tens + h.ones = 101 ∧
      ∀ m : Mark, ∃ l ∈ h.block.lines, m.Has key (l.header.name.getD [], l.header.value) := by
  have hmem : ∀ m : Mark, (∃ x ∈ h.response.http.headers, m.Has key x) ↔
      ∃ l ∈ h.block.lines, m.Has key (l.header.name.getD [], l.header.value) := by
    intro m
    show (∃ x ∈ (h.block.lines.map HeaderLine.header).map _, _) ↔ _
    simp only [List.map_map, List.mem_map, Function.comp_apply, exists_exists_and_eq_and]
  unfold HttpResponse.Accepts HttpResponse.Shows
  simp only [hmem]
  exact ⟨fun hall => ⟨(hall .upgrade).1, fun m => (hall m).2⟩, fun hall m => ⟨hall.1, hall.2 m⟩⟩

/-- **What a valid response is**, in the bytes on the connection. -/
theorem valid_phrLibs_iff {w : World} :
    Valid (phrLibs sha1) w ↔ ∃ n, headEnd? w.socket.arrived = some n ∧
      StartsAccepting (w.accepting (phrLibs sha1)) (w.socket.arrived.take n) := by
  unfold Valid World.response? StartsAccepting
  simp only [Option.mem_def, Option.bind_eq_some_iff, phrLibs_eq_some]
  constructor
  · rintro ⟨x, ⟨n, hend, h, hlen, rfl, hpre⟩, hacc⟩
    exact ⟨n, hend, h, hpre, hlen, accepts_http_iff.mp hacc⟩
  · rintro ⟨n, hend, h, hpre, hlen, hacc⟩
    exact ⟨h.response.http, ⟨n, hend, h, hlen, rfl, hpre⟩, accepts_http_iff.mpr hacc⟩

/-- The step establishes a connection only on the text of an accepting head, and then it does. -/
structure Admits (sha1 : Bytes → Bytes) (w : World) (e : Event) : Prop where
  entered : ∀ w', step (phrLibs sha1) w e = some w' → w'.ws.state = .connectionEstablished →
    w.ws.state ≠ .connectionEstablished → ∃ n, headEnd? w.socket.arrived = some n ∧
      StartsAccepting (w.accepting (phrLibs sha1)) (w.socket.arrived.take n)
  admitted : ∀ io n, e = .wsTask io → w.ws.state = .waitHandshakeResponseParse →
    headEnd? w.socket.arrived = some n →
    StartsAccepting (w.accepting (phrLibs sha1)) (w.socket.arrived.take n) →
    ∃ w', step (phrLibs sha1) w e = some w' ∧ w'.ws.state = .connectionEstablished

/-- **Every legible run** with the parser of the repository. -/
theorem admits_of_legible (hsha : ∀ t, (sha1 t).length = 20) (grants : Nat → Bool)
    (rand : Nat → UInt32) {es : List Event}
    (h : Along (step (phrLibs sha1)) (Legible (phrLibs sha1)) (worldInit grants rand) es) :
    Along (step (phrLibs sha1)) (Admits sha1) (worldInit grants rand) es := by
  refine along_of_inv (fun _ _ _ hI _ hs => handshakeInv_of_step hI hs)
    (fun w e hI hlegible => ?_) (handshakeInv_worldInit grants rand) h
  have hkeeps := handshakes_of_inv (correct_phrLibs hsha) hI hlegible
  constructor
  · intro w' hs hest hnot
    exact valid_phrLibs_iff.mp ((hkeeps.entered w' hs hest).resolve_left hnot).2
  · intro io n he hst hend hstarts
    exact hkeeps.admitted io he hst (valid_phrLibs_iff.mpr ⟨n, hend, hstarts⟩)

/-- A run up to the answer that says `Connection: upgrade`, and its judgement. -/
theorem admits_lowercase :
    (∀ t, ((answering (ascii "upgrade")).sha1 t).length = 20) ∧
      Along (step (phrLibs (answering (ascii "upgrade")).sha1))
        (Admits (answering (ascii "upgrade")).sha1) (worldInit (fun _ => true) sampleRand)
        (opening (ascii "upgrade") ++ [.wsTask ⟨0, 2047, []⟩]) := by
  have hsha := (correct_knowing (answerHead (ascii "upgrade")) (answer (ascii "upgrade"))
    (by decide +kernel)).sha1_length
  exact ⟨hsha, admits_of_legible hsha _ _ (by decide +kernel)⟩

end PhrLibs

end Rastreo.Net
