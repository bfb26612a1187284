import Rastreo.Net.WsClient

/-!
# The server's answer to the handshake

What RFC 6455 asks of the answer (`Accepts`), and what `handshake_response_parse` looks for: it
compares names and values with `strncmp` over the length received, so that a shorter text is taken
for the whole, and letter case counts.

* `Mark`: the three headers that must be there. `Mark.Has`: a header is one. `Mark.Takes`: the code
  takes it for one.
* `mark_handshakeResponseParse`: the flags after the call, which keeps those set before.
* `headEnd?_longer`, `headEnd?_shorter`: the head of a longer text.
-/

namespace Rastreo.Net

open Rastreo.Lib

/-! ## Texts -/

/-- An ASCII letter in lower case. -/
def lower (c : UInt8) : UInt8 := if 65 ≤ c ∧ c ≤ 90 then c + 32 else c

/-- Equal but for the case of letters. -/
def SameText (a b : Bytes) : Prop := a.map lower = b.map lower

instance (a b : Bytes) : Decidable (SameText a b) := by
  unfold SameText
  infer_instance

/-- A space or a tab. -/
def isBlankByte (c : UInt8) : Bool := c = 32 ∨ c = 9

/-- Without the blanks around. -/
def trim (v : Bytes) : Bytes :=
  ((v.dropWhile isBlankByte).reverse.dropWhile isBlankByte).reverse

/-- The elements of a list separated by commas. -/
def elements : Bytes → List Bytes
  | [] => [[]]
  | c :: v =>
    match elements v with
    | [] => [[c]]
    | e :: es => if c = 44 then [] :: e :: es else (c :: e) :: es

/-! ## The head of a response -/

/-- The empty line that ends a head stands at `i`. -/
def EndsAt (text : Bytes) (i : Nat) : Prop := (text.drop i).take 4 = [13, 10, 13, 10]

instance (text : Bytes) (i : Nat) : Decidable (EndsAt text i) := by
  unfold EndsAt
  infer_instance

theorem EndsAt.le {text : Bytes} {i : Nat} (h : EndsAt text i) : i + 4 ≤ text.length := by
  have := congrArg List.length h
  simp only [List.length_take, List.length_drop, List.length_cons, List.length_nil] at this
  omega

theorem endsAt_append {t u : Bytes} {i : Nat} (h : i + 4 ≤ t.length) :
    EndsAt (t ++ u) i ↔ EndsAt t i := by
  unfold EndsAt
  rw [List.drop_append_of_le_length (by omega),
    List.take_append_of_le_length (by rw [List.length_drop]; omega)]

theorem headEnd?_eq_some {text : Bytes} {n : Nat} :
    headEnd? text = some n ↔ ∃ i, n = i + 4 ∧ EndsAt text i ∧ ∀ j < i, ¬ EndsAt text j := by
  unfold headEnd?
  rw [Option.map_eq_some_iff]
  constructor
  · rintro ⟨i, hi, rfl⟩
    rw [List.find?_range_eq_some] at hi
    exact ⟨i, rfl, of_decide_eq_true hi.1, fun j hj hends => by
      have htrue : decide ((text.drop j).take 4 = [13, 10, 13, 10]) = true := decide_eq_true hends
      have hnot := hi.2.2 j hj
      rw [htrue] at hnot
      exact absurd hnot (by rintro ⟨⟩)⟩
  · rintro ⟨i, rfl, hends, hnot⟩
    have hle := hends.le
    refine ⟨i, List.find?_range_eq_some.mpr ⟨decide_eq_true hends,
      List.mem_range.mpr (by omega), fun j hj => ?_⟩, rfl⟩
    have hfalse : decide ((text.drop j).take 4 = [13, 10, 13, 10]) = false :=
      decide_eq_false (hnot j hj)
    rw [hfalse]
    rfl

theorem headEnd?_le {text : Bytes} {n : Nat} (h : headEnd? text = some n) :
    4 ≤ n ∧ n ≤ text.length := by
  obtain ⟨i, rfl, hends, -⟩ := headEnd?_eq_some.mp h
  exact ⟨Nat.le_add_left _ _, hends.le⟩

/-- The head of a text is that of any longer one. -/
theorem headEnd?_longer {t s : Bytes} {n : Nat} (hpre : t <+: s) (h : headEnd? t = some n) :
    headEnd? s = some n := by
  obtain ⟨u, rfl⟩ := hpre
  obtain ⟨i, rfl, hends, hnot⟩ := headEnd?_eq_some.mp h
  have hle := hends.le
  refine headEnd?_eq_some.mpr ⟨i, rfl, (endsAt_append hle).mpr hends, fun j hj hends' => ?_⟩
  exact hnot j hj ((endsAt_append (by omega)).mp hends')

/-- And of any shorter one that has it all. -/
theorem headEnd?_shorter {t s : Bytes} {n : Nat} (hpre : t <+: s) (hn : n ≤ t.length)
    (h : headEnd? s = some n) : headEnd? t = some n := by
  obtain ⟨u, rfl⟩ := hpre
  obtain ⟨i, rfl, hends, hnot⟩ := headEnd?_eq_some.mp h
  refine headEnd?_eq_some.mpr ⟨i, rfl, (endsAt_append hn).mp hends, fun j hj hends' => ?_⟩
  exact hnot j hj ((endsAt_append (by omega)).mpr hends')

/-! ## What is asked -/

/-- A header that the answer must have. -/
inductive Mark
  | upgrade
  | connection
  | accept
  deriving DecidableEq, Repr

instance Mark.decidableForall {P : Mark → Prop} [∀ m, Decidable (P m)] : Decidable (∀ m, P m) :=
  decidable_of_iff (P .upgrade ∧ P .connection ∧ P .accept)
    ⟨fun ⟨hu, hc, ha⟩ m => by
      cases m with
      | upgrade => exact hu
      | connection => exact hc
      | accept => exact ha, fun h => ⟨h _, h _, h _⟩⟩

/-- The header is the one asked; `key` is the accepting key. -/
def Mark.Has (key : Bytes) (h : Bytes × Bytes) : Mark → Prop
  | .upgrade => SameText h.1 (ascii "Upgrade") ∧ SameText h.2 (ascii "websocket")
  | .connection => SameText h.1 (ascii "Connection") ∧
      ∃ e ∈ elements h.2, SameText (trim e) (ascii "upgrade")
  | .accept => SameText h.1 (ascii "Sec-WebSocket-Accept") ∧ h.2 = key

instance (key : Bytes) (h : Bytes × Bytes) (m : Mark) : Decidable (m.Has key h) := by
  cases m <;> unfold Mark.Has <;> infer_instance

/-- `Base64 (SHA1 (key ++ UUID))`. -/
def acceptKey (libs : Libs) (key : Bytes) : Bytes := base64Encode (libs.sha1 (key ++ uuid))

/-- The response has status 101 and a header for the mark. -/
def HttpResponse.Shows (key : Bytes) (r : HttpResponse) (m : Mark) : Prop :=
  r.status = 101 ∧ ∃ h ∈ r.headers, m.Has key h

instance (key : Bytes) (r : HttpResponse) (m : Mark) : Decidable (r.Shows key m) := by
  unfold HttpResponse.Shows
  infer_instance

/-- **The response accepts the handshake.** -/
def HttpResponse.Accepts (key : Bytes) (r : HttpResponse) : Prop := ∀ m, r.Shows key m

instance (key : Bytes) (r : HttpResponse) : Decidable (r.Accepts key) := by
  unfold HttpResponse.Accepts
  infer_instance

/-! ## What is looked for -/

/-- `headerFlags` takes the header for the mark. -/
def Mark.Takes (expectedBase64 : Bytes) (h : Bytes × Bytes) : Mark → Prop
  | .upgrade => strncmp h.1.length (ascii "Upgrade") h.1 = 0 ∧
      strncmp h.2.length (ascii "websocket") h.2 = 0
  | .connection => strncmp h.1.length (ascii "Upgrade") h.1 ≠ 0 ∧
      strncmp h.1.length (ascii "Connection") h.1 = 0 ∧
      strncmp h.2.length (ascii "upgrade") h.2 = 0
  | .accept => strncmp h.1.length (ascii "Upgrade") h.1 ≠ 0 ∧
      strncmp h.1.length (ascii "Connection") h.1 ≠ 0 ∧
      strncmp h.1.length (ascii "Sec-WebSocket-Accept") h.1 = 0 ∧
      strncmp h.2.length expectedBase64 h.2 = 0

instance (expectedBase64 : Bytes) (h : Bytes × Bytes) (m : Mark) :
    Decidable (m.Takes expectedBase64 h) := by
  cases m <;> unfold Mark.Takes <;> infer_instance

/-- The flag for the mark. -/
def Flags.mark (flags : Flags) : Mark → Bool
  | .upgrade => flags.requestHasUpgrade
  | .connection => flags.requestHasConnection
  | .accept => flags.requestValidAccept

theorem mark_headerFlags (expectedBase64 : Bytes) (flags : Flags) (h : Bytes × Bytes) (m : Mark) :
    (headerFlags expectedBase64 flags h).mark m = true ↔
      flags.mark m = true ∨ m.Takes expectedBase64 h := by
  unfold headerFlags
  by_cases h₁ : strncmp h.1.length (ascii "Upgrade") h.1 = 0
  · rw [if_pos h₁]
    by_cases hv : strncmp h.2.length (ascii "websocket") h.2 = 0
    · rw [if_pos hv]
      cases m <;> simp [Flags.mark, Mark.Takes, h₁, hv]
    · rw [if_neg hv]
      cases m <;> simp [Flags.mark, Mark.Takes, h₁, hv]
  rw [if_neg h₁]
  by_cases h₂ : strncmp h.1.length (ascii "Connection") h.1 = 0
  · rw [if_pos h₂]
    by_cases hv : strncmp h.2.length (ascii "upgrade") h.2 = 0
    · rw [if_pos hv]
      cases m <;> simp [Flags.mark, Mark.Takes, h₁, h₂, hv]
    · rw [if_neg hv]
      cases m <;> simp [Flags.mark, Mark.Takes, h₁, h₂, hv]
  rw [if_neg h₂]
  by_cases h₃ : strncmp h.1.length (ascii "Sec-WebSocket-Accept") h.1 = 0
  · rw [if_pos h₃]
    by_cases hv : strncmp h.2.length expectedBase64 h.2 = 0
    · rw [if_pos hv]
      cases m <;> simp [Flags.mark, Mark.Takes, h₁, h₂, h₃, hv]
    · rw [if_neg hv]
      cases m <;> simp [Flags.mark, Mark.Takes, h₁, h₂, h₃, hv]
  · rw [if_neg h₃]
    cases m <;> simp [Flags.mark, Mark.Takes, h₁, h₂, h₃]

theorem mark_foldl (expectedBase64 : Bytes) (headers : List (Bytes × Bytes)) (flags : Flags)
    (m : Mark) : (headers.foldl (headerFlags expectedBase64) flags).mark m = true ↔
      flags.mark m = true ∨ ∃ h ∈ headers, m.Takes expectedBase64 h := by
  induction headers generalizing flags with
  | nil => simp
  | cons h headers ih =>
    rw [List.foldl_cons, ih, mark_headerFlags, List.exists_mem_cons_iff, or_assoc]

/-- **The flags after `handshake_response_parse`**: those set before stay. -/
theorem mark_handshakeResponseParse (libs : Libs) (stack key response : Bytes) (flags : Flags)
    (m : Mark) : (handshakeResponseParse libs stack key response flags).mark m = true ↔
      flags.mark m = true ∨ ∃ r, libs.phrParseResponse response = some r ∧ r.status = 101 ∧
        ∃ h ∈ r.headers, m.Takes (perfomExpectedKey libs key ++ stack) h := by
  unfold handshakeResponseParse
  cases hr : libs.phrParseResponse response with
  | none => simp
  | some r =>
    dsimp only
    by_cases hst : r.status = 101
    · rw [if_pos hst, mark_foldl]
      have hsame : ({ flags with requestValidStatus := true } : Flags).mark m = flags.mark m := by
        cases m <;> rfl
      rw [hsame]
      simp [hst]
    · rw [if_neg hst]
      simp [hst]

/-- The key the code expects, for a key that leaves room for the UUID. -/
theorem perfomExpectedKey_eq {libs : Libs} (hsha : ∀ t, (libs.sha1 t).length = 20) {key : Bytes}
    (hkey : key.length ≤ 219) : perfomExpectedKey libs key = acceptKey libs key := by
  have huuid : uuid.length = 36 := by decide
  have htake : (key ++ uuid).take 255 = key ++ uuid :=
    List.take_of_length_le (by rw [List.length_append, huuid]; omega)
  rw [perfomExpectedKey, htake, List.take_of_length_le (by rw [hsha]), acceptKey]

end Rastreo.Net
