import Rastreo.Lib.Scanner
import Rastreo.Lib.CString

/-!
# `http_parser.c`: the request, response and header parsers

`buf` is the rest of the buffer, `*ret` is `Stop`: `-1` is `malformed`, `-2` is `short`. The number
`phr_parse_…` returns otherwise is how many bytes it has read.

* `findCtl` is the scan of `get_token_to_eol` with its loop of eight bytes at a time, and
  `findCtl_eq` says that it is the plain one.
* `isComplete` is what a caller gets who gives the length of the last attempt.
* **`final_parseResponse`**, **`final_parseRequest`**, **`final_parseHeaders`**: an answer stays
  when more arrives.
-/

namespace Rastreo.Net

open Rastreo.Lib
open Rastreo.Lib.Scanner (fail peek next need expect scanTo Final)

/-! ## Characters -/

/-- `IS_PRINTABLE_ASCII`. -/
def isPrintableAscii (c : UInt8) : Bool := c.toUInt32 - 32 < 95

/-- `token_char_map`. -/
def tokenCharMap : List UInt8 :=
  List.replicate 32 0 ++
  [0, 1, 0, 1, 1, 1, 1, 1, 0, 0, 1, 1, 0, 1, 1, 0, 1, 1, 1, 1, 1, 1, 1, 1, 1, 1, 0, 0, 0, 0, 0, 0] ++
  [0, 1, 1, 1, 1, 1, 1, 1, 1, 1, 1, 1, 1, 1, 1, 1, 1, 1, 1, 1, 1, 1, 1, 1, 1, 1, 1, 0, 0, 0, 1, 1] ++
  [1, 1, 1, 1, 1, 1, 1, 1, 1, 1, 1, 1, 1, 1, 1, 1, 1, 1, 1, 1, 1, 1, 1, 1, 1, 1, 1, 0, 1, 0, 1, 0] ++
  List.replicate 128 0

/-- The character may stand in a token. -/
def isTokenChar (c : UInt8) : Bool := tokenCharMap.getD c.toNat 0 != 0

/-- What ends the scan of `get_token_to_eol`: a control character that is no TAB, or DEL. -/
def isCtl (c : UInt8) : Bool := (c < 32 && c != 9) || c == 127

/-- SP or TAB. -/
def isBlank (c : UInt8) : Bool := c == 32 || c == 9

/-! ## Tokens -/

/-- The slow loop of `get_token_to_eol`. -/
def findCtlSlow : Scanner UInt8 Bytes
  | [] => .error .short
  | c :: s =>
    if !isPrintableAscii c && isCtl c then .ok ([], c :: s)
    else match findCtlSlow s with
      | .ok (u, r) => .ok (c :: u, r)
      | .error e => .error e

/-- The loop of `get_token_to_eol` with `DOIT` written out eight times; `left` of them are still to
come in this round, which was begun with eight bytes in the buffer. -/
def findCtl (left : Nat) : Scanner UInt8 Bytes
  | [] => .error .short
  | c :: s =>
    if left = 0 ∧ (c :: s).length < 8 then findCtlSlow (c :: s)
    else if isPrintableAscii c then
      match findCtl (if left = 0 then 7 else left - 1) s with
      | .ok (u, r) => .ok (c :: u, r)
      | .error e => .error e
    else if isCtl c then .ok ([], c :: s)
    else match findCtl 0 s with
      | .ok (u, r) => .ok (c :: u, r)
      | .error e => .error e

/-- A line end, CRLF or LF, if one is here. -/
def lineEnd? : Scanner UInt8 Bool := do
  let c ← peek
  if c = 13 then do
    let _ ← next
    expect 10
    return true
  else if c = 10 then do
    let _ ← next
    return true
  else return false

/-- `get_token_to_eol`. -/
def getTokenToEol : Scanner UInt8 Bytes := do
  let token ← findCtl 0
  if ← lineEnd? then return token else fail .malformed

/-- `parse_token`. -/
def parseToken (nextChar : UInt8) : Scanner UInt8 Bytes :=
  scanTo (· == nextChar) fun c => !isTokenChar c

/-- `ADVANCE_TOKEN`. -/
def advanceToken : Scanner UInt8 Bytes :=
  scanTo (· == 32) fun c => !isPrintableAscii c && (c < 32 || c == 127)

/-- `do { ++buf; CHECK_EOF (); } while (*buf == ' ')`. -/
def skipSpaces : Scanner UInt8 PUnit := do
  let _ ← next
  let _ ← scanTo (· != 32) fun _ => false

/-- `PARSE_INT`. -/
def parseInt (mul : Nat) : Scanner UInt8 Nat := do
  let c ← next
  if c < 48 ∨ 57 < c then fail .malformed else return mul * (c.toNat - 48)

/-- `parse_http_version`: the minor version. -/
def parseHttpVersion : Scanner UInt8 Nat := do
  need 9
  expect 72
  expect 84
  expect 84
  expect 80
  expect 47
  expect 49
  expect 46
  parseInt 1

/-! ## Headers -/

/-- `struct phr_header`: a line that continues the one above has no name. -/
structure PhrHeader where
  name : Option Bytes
  value : Bytes
  deriving DecidableEq, Repr

/-- The name of a header, and the blanks before its value; `num` is `*num_headers`. -/
def parseName (num : Nat) : Scanner UInt8 (Option Bytes) := do
  let c ← peek
  if num ≠ 0 ∧ isBlank c then return none
  else do
    let name ← parseToken 58
    if name.length = 0 then fail .malformed
    else do
      let _ ← next
      let _ ← scanTo (fun c => !isBlank c) fun _ => false
      return some name

/-- `parse_headers`: `num` headers are there, and `left` more may come. -/
def parseHeaders (num : Nat) : Nat → Scanner UInt8 (List PhrHeader)
  | 0 => do
    if ← lineEnd? then return [] else fail .malformed
  | left + 1 => do
    if ← lineEnd? then return []
    else do
      let name ← parseName num
      let value ← getTokenToEol
      let headers ← parseHeaders (num + 1) left
      return ⟨name, value.rdropWhile isBlank⟩ :: headers

/-! ## Requests and responses -/

/-- What `phr_parse_request` gives. -/
structure PhrRequest where
  method : Bytes
  path : Bytes
  minorVersion : Nat
  headers : List PhrHeader
  deriving DecidableEq, Repr

/-- `parse_request`. After the version there is one more byte, which `parse_http_version` has
asked for. -/
def parseRequest (maxHeaders : Nat) : Scanner UInt8 PhrRequest := do
  let _ ← lineEnd?
  let method ← parseToken 32
  skipSpaces
  let path ← advanceToken
  skipSpaces
  if method.length = 0 ∨ path.length = 0 then fail .malformed
  else do
    let minorVersion ← parseHttpVersion
    if ← lineEnd? then do
      let headers ← parseHeaders 0 maxHeaders
      return ⟨method, path, minorVersion, headers⟩
    else fail .malformed

/-- What `phr_parse_response` gives. -/
structure PhrResponse where
  minorVersion : Nat
  status : Nat
  msg : Bytes
  headers : List PhrHeader
  deriving DecidableEq, Repr

/-- The message behind the status: without the spaces before it, of which there must be one. -/
def parseMsg : Bytes → Except Stop Bytes
  | [] => .ok []
  | c :: msg => if c = 32 then .ok (msg.dropWhile (· == 32)) else .error .malformed

/-- `parse_response`. -/
def parseResponse (maxHeaders : Nat) : Scanner UInt8 PhrResponse := do
  let minorVersion ← parseHttpVersion
  let c ← peek
  if c ≠ 32 then fail .malformed
  else do
    skipSpaces
    need 4
    let hundreds ← parseInt 100
    let tens ← parseInt 10
    let ones ← parseInt 1
    let text ← getTokenToEol
    match parseMsg text with
    | .error e => fail e
    | .ok msg => do
      let headers ← parseHeaders 0 maxHeaders
      return ⟨minorVersion, hundreds + tens + ones, msg, headers⟩

/-! ## The interface -/

/-- The loop of `is_complete`, with `retCnt` line ends in a row so far. -/
def findEmptyLine (retCnt : Nat) : Bytes → Except Stop Bytes
  | [] => .error .short
  | c :: s =>
    if c = 13 then
      match s with
      | [] => .error .short
      | d :: s =>
        if d ≠ 10 then .error .malformed
        else if retCnt + 1 = 2 then .ok s
        else findEmptyLine (retCnt + 1) s
    else if c = 10 then
      if retCnt + 1 = 2 then .ok s else findEmptyLine (retCnt + 1) s
    else findEmptyLine 0 s

/-- `is_complete`, which looks from three bytes before the end of the last attempt. -/
def isComplete (buf : Bytes) (lastLen : Nat) : Except Stop Bytes :=
  findEmptyLine 0 (if lastLen < 3 then buf else buf.drop (lastLen - 3))

/-- The rest of a `phr_parse_…` function: the value, and how many bytes were read. -/
def phrParse {α : Type} (parse : Scanner UInt8 α) (buf : Bytes) (lastLen : Nat) :
    Except Stop (α × Nat) :=
  match if lastLen ≠ 0 then isComplete buf lastLen else .ok buf with
  | .error e => .error e
  | .ok _ =>
    match parse.run buf with
    | .error e => .error e
    | .ok (a, rest) => .ok (a, buf.length - rest.length)

/-- `phr_parse_request`. -/
def phrParseRequest (buf : Bytes) (maxHeaders lastLen : Nat) : Except Stop (PhrRequest × Nat) :=
  phrParse (parseRequest maxHeaders) buf lastLen

/-- `phr_parse_response`. -/
def phrParseResponse (buf : Bytes) (maxHeaders lastLen : Nat) : Except Stop (PhrResponse × Nat) :=
  phrParse (parseResponse maxHeaders) buf lastLen

/-! ## Eight bytes at a time -/

theorem isPrintableAscii_iff {c : UInt8} :
    isPrintableAscii c = true ↔ 32 ≤ c.toNat ∧ c.toNat < 127 := by
  unfold isPrintableAscii
  rw [decide_eq_true_iff, UInt32.lt_iff_toNat_lt, UInt32.toNat_sub, UInt8.toNat_toUInt32]
  have hc := c.toNat_lt
  show (4294967296 - 32 + c.toNat) % 4294967296 < 95 ↔ _
  omega

theorem isCtl_iff {c : UInt8} :
    isCtl c = true ↔ (c.toNat < 32 ∧ c ≠ 9) ∨ c.toNat = 127 := by
  unfold isCtl
  rw [Bool.or_eq_true, Bool.and_eq_true, decide_eq_true_iff, bne_iff_ne, beq_iff_eq,
    UInt8.lt_iff_toNat_lt, ← UInt8.toNat_inj (b := 127)]
  rfl

/-- A control character is not printable. -/
theorem not_isPrintableAscii_of_isCtl {c : UInt8} (h : isCtl c = true) :
    isPrintableAscii c = false := by
  rw [Bool.eq_false_iff, ne_eq, isPrintableAscii_iff]
  have hctl := isCtl_iff.mp h
  omega

theorem findCtlSlow_eq : findCtlSlow = scanTo isCtl fun _ => false := by
  funext s
  induction s with
  | nil => rfl
  | cons c s ih =>
    unfold findCtlSlow scanTo
    rw [ih]
    cases hctl : isCtl c with
    | true => simp [not_isPrintableAscii_of_isCtl hctl]
    | false =>
      simp only [Bool.and_false, Bool.false_eq_true, if_false]
      cases scanTo isCtl (fun _ => false) s <;> rfl

/-- **The loop of eight is the plain one**, from every place in it. -/
theorem findCtl_eq (left : Nat) : findCtl left = scanTo isCtl fun _ => false := by
  funext s
  induction s generalizing left with
  | nil => rfl
  | cons c s ih =>
    unfold findCtl
    split
    · rw [findCtlSlow_eq]
    · unfold scanTo
      rw [ih, ih]
      cases hctl : isCtl c with
      | true => simp [not_isPrintableAscii_of_isCtl hctl]
      | false =>
        simp only [Bool.false_eq_true, if_false]
        cases scanTo isCtl (fun _ => false) s <;> simp

/-! ## Answers stay -/

theorem final_lineEnd? : Final lineEnd? :=
  Scanner.final_peek.bind fun _ =>
    .ite (Scanner.final_next.bind fun _ => (Scanner.final_expect _).bind fun _ => .pure _)
      (.ite (Scanner.final_next.bind fun _ => .pure _) (.pure _))

theorem final_getTokenToEol : Final getTokenToEol := by
  unfold getTokenToEol
  rw [findCtl_eq]
  exact (Scanner.final_scanTo _ _).bind fun _ =>
    final_lineEnd?.bind fun _ => .ite (.pure _) .fail

theorem final_skipSpaces : Final skipSpaces :=
  Scanner.final_next.bind fun _ => (Scanner.final_scanTo _ _).bind fun _ => .pure _

theorem final_parseInt (mul : Nat) : Final (parseInt mul) :=
  Scanner.final_next.bind fun _ => .ite .fail (.pure _)

theorem final_parseHttpVersion : Final parseHttpVersion :=
  (Scanner.final_need _).bind fun _ => (Scanner.final_expect _).bind fun _ =>
    (Scanner.final_expect _).bind fun _ => (Scanner.final_expect _).bind fun _ =>
      (Scanner.final_expect _).bind fun _ => (Scanner.final_expect _).bind fun _ =>
        (Scanner.final_expect _).bind fun _ => (Scanner.final_expect _).bind fun _ =>
          final_parseInt _

theorem final_parseName (num : Nat) : Final (parseName num) :=
  Scanner.final_peek.bind fun _ => .ite (.pure _) <|
    (Scanner.final_scanTo _ _).bind fun _ => .ite .fail <|
      Scanner.final_next.bind fun _ => (Scanner.final_scanTo _ _).bind fun _ => .pure _

theorem final_parseHeaders (num left : Nat) : Final (parseHeaders num left) := by
  induction left generalizing num with
  | zero => exact final_lineEnd?.bind fun _ => .ite (.pure _) .fail
  | succ left ih =>
    exact final_lineEnd?.bind fun _ => .ite (.pure _) <|
      (final_parseName num).bind fun _ => final_getTokenToEol.bind fun _ =>
        (ih (num + 1)).bind fun _ => .pure _

theorem final_parseRequest (maxHeaders : Nat) : Final (parseRequest maxHeaders) :=
  final_lineEnd?.bind fun _ => (Scanner.final_scanTo _ _).bind fun _ =>
    final_skipSpaces.bind fun _ => (Scanner.final_scanTo _ _).bind fun _ =>
      final_skipSpaces.bind fun _ => .ite .fail <|
        final_parseHttpVersion.bind fun _ => final_lineEnd?.bind fun _ =>
          .ite ((final_parseHeaders 0 maxHeaders).bind fun _ => .pure _) .fail

theorem parseMsg_eq_error {text : Bytes} {e : Stop} (h : parseMsg text = .error e) :
    e = .malformed := by
  cases text with
  | nil => cases h
  | cons c msg =>
    rw [parseMsg] at h
    split at h
    · cases h
    · exact (Except.error.inj h).symm

theorem final_parseResponse (maxHeaders : Nat) : Final (parseResponse maxHeaders) := by
  refine final_parseHttpVersion.bind fun minorVersion => Scanner.final_peek.bind fun c =>
    .ite .fail <| final_skipSpaces.bind fun _ => (Scanner.final_need 4).bind fun _ =>
      (final_parseInt 100).bind fun hundreds => (final_parseInt 10).bind fun tens =>
        (final_parseInt 1).bind fun ones => final_getTokenToEol.bind fun text => ?_
  cases hmsg : parseMsg text with
  | ok msg => exact (final_parseHeaders 0 maxHeaders).bind fun _ => .pure _
  | error e =>
    obtain rfl := parseMsg_eq_error hmsg
    exact .fail

end Rastreo.Net
