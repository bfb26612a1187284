import Rastreo.Net.HttpHead
import Rastreo.Net.ContentLength
import Rastreo.Net.RequestTarget

/-!
# From `http_request.c` to `http_parser.c` and back

What the calls of `http_request.c` build, `phr_parse_request` reads back: the method, the target, and
a header for each call in their order, `Host` first. A form ends the headers, and what is left is its
body. The texts handed over must be `Clean`: a label is a token, and nothing has a control character
in it.

* `holds_built`: while it fits, `raw` holds the text of the request.
* **`phrParseRequest_built`**: what is read back.
-/

namespace Rastreo.Net

open Rastreo.Lib

/-! ## One header a call -/

/-- The text has no control character in it. -/
def NoCtl (t : Bytes) : Prop := ∀ c ∈ t, isCtl c = false

instance (t : Bytes) : Decidable (NoCtl t) := by
  unfold NoCtl
  infer_instance

/-- The name and the value of the header a call adds. -/
def HttpAdd.field : HttpAdd → Bytes × Bytes
  | .generic label content => (label, content)
  | .accept mime => (ascii "accept", mime)
  | .bearerToken token => (ascii "authorization", ascii "Bearer " ++ token)
  | .contentUserPass _ _ => ([], [])

/-- The field can stand in a header line. -/
structure FieldClean (f : Bytes × Bytes) : Prop where
  name : f.1 ≠ []
  token : ∀ c ∈ f.1, isTokenChar c = true
  value : NoCtl f.2

/-- The call adds one header, with texts that can stand in it. -/
def HttpAdd.Clean : HttpAdd → Prop
  | .generic label content => FieldClean (label, content)
  | .accept mime => NoCtl mime
  | .bearerToken token => NoCtl token
  | .contentUserPass _ _ => False

/-- A value as it is read: without the blanks around it. -/
def readValue (value : Bytes) : Bytes := (value.dropWhile isBlank).rdropWhile isBlank

/-- The header that is read. -/
def fieldHeader (f : Bytes × Bytes) : PhrHeader := ⟨some f.1, readValue f.2⟩

/-- The text of a field, with the blank that the builder puts in front of the value. -/
def fieldBytes (f : Bytes × Bytes) : Bytes := f.1 ++ ascii ": " ++ f.2 ++ crlf

section Lines

variable {f : Bytes × Bytes}

/-- The line of a field. -/
def FieldClean.line (h : FieldClean f) : HeaderLine :=
  .named f.1 (32 :: f.2.takeWhile isBlank)
    ⟨f.2.dropWhile isBlank, fun c hc => h.value c ((List.dropWhile_sublist _).subset hc), .crlf⟩
    h.name h.token
    (fun c hc => (List.mem_cons.mp hc).elim (fun he => he ▸ rfl) List.mem_takeWhile_imp)
    (fun c hc => by
      have hhead := List.head?_dropWhile_not isBlank f.2
      rw [Option.mem_def.mp hc] at hhead
      simpa using hhead)

theorem FieldClean.bytes_line (h : FieldClean f) : h.line.bytes = fieldBytes f := by
  show f.1 ++ (58 :: ((32 :: f.2.takeWhile isBlank) ++ (f.2.dropWhile isBlank ++ [13, 10]))) =
    f.1 ++ [58, 32] ++ f.2 ++ [13, 10]
  rw [List.cons_append, ← List.append_assoc (f.2.takeWhile isBlank),
    List.takeWhile_append_dropWhile]
  simp

/-- A name that can be a header's. -/
def IsName (name : Bytes) : Prop := name ≠ [] ∧ ∀ c ∈ name, isTokenChar c = true

instance (name : Bytes) : Decidable (IsName name) := by
  unfold IsName
  infer_instance

theorem IsName.clean {name value : Bytes} (h : IsName name) (hvalue : NoCtl value) :
    FieldClean (name, value) := ⟨h.1, h.2, hvalue⟩

theorem HttpAdd.Clean.field {a : HttpAdd} (h : a.Clean) : FieldClean a.field := by
  have hctl : NoCtl (ascii "Bearer ") := by decide +kernel
  have haccept : IsName (ascii "accept") := by decide +kernel
  have hauth : IsName (ascii "authorization") := by decide +kernel
  cases a with
  | generic label content => exact h
  | accept mime => exact haccept.clean h
  | bearerToken token =>
    exact hauth.clean fun c hc => (List.mem_append.mp hc).elim (hctl c) (h c)
  | contentUserPass user pass => exact h.elim

theorem HttpAdd.Clean.part {a : HttpAdd} (h : a.Clean) : a.part = fieldBytes a.field := by
  cases a with
  | generic label content => rfl
  | accept mime => rfl
  | bearerToken token =>
    show ascii "authorization: Bearer " ++ token ++ crlf =
      ascii "authorization" ++ ascii ": " ++ (ascii "Bearer " ++ token) ++ crlf
    have hsplit : ascii "authorization: Bearer " =
        ascii "authorization" ++ ascii ": " ++ ascii "Bearer " := rfl
    rw [hsplit, List.append_assoc _ (ascii "Bearer ")]
  | contentUserPass user pass => exact h.elim

/-- Fields are header lines. -/
theorem exists_lines (fields : List (Bytes × Bytes)) (h : ∀ f ∈ fields, FieldClean f) :
    ∃ lines : List HeaderLine, (∀ l ∈ lines, l.IsNamed) ∧ lines.length = fields.length ∧
      lines.flatMap HeaderLine.bytes = fields.flatMap fieldBytes ∧
      lines.map HeaderLine.header = fields.map fieldHeader := by
  induction fields with
  | nil => exact ⟨[], fun _ hl => (nomatch hl), rfl, rfl, rfl⟩
  | cons f fields ih =>
    obtain ⟨lines, hnamed, hlen, hbytes, hheaders⟩ :=
      ih fun g hg => h g (List.mem_cons_of_mem _ hg)
    have hf := h f List.mem_cons_self
    refine ⟨hf.line :: lines, fun l hl => ?_, congrArg Nat.succ hlen, ?_, ?_⟩
    · rcases List.mem_cons.mp hl with rfl | hl
      · trivial
      · exact hnamed l hl
    · rw [List.flatMap_cons, List.flatMap_cons, hf.bytes_line, hbytes]
    · rw [List.map_cons, List.map_cons, hheaders]
      rfl

theorem flatten_parts {adds : List HttpAdd} (h : ∀ a ∈ adds, a.Clean) :
    (adds.map HttpAdd.part).flatten = (adds.map HttpAdd.field).flatMap fieldBytes := by
  induction adds with
  | nil => rfl
  | cons a adds ih =>
    rw [List.map_cons, List.flatten_cons, List.map_cons, List.flatMap_cons,
      (h a List.mem_cons_self).part, ih fun b hb => h b (List.mem_cons_of_mem _ hb)]

end Lines

/-! ## The request -/

/-- The fields that a form adds. -/
def formFields (form : Bytes × Bytes) : List (Bytes × Bytes) :=
  [(ascii "content-type", ascii "multipart/form-data; boundary=" ++ boundary),
    (ascii "content-length", dec (contentLength form.1 form.2))]

/-- What stands behind the empty line. -/
def formBody (form : Bytes × Bytes) : Bytes := multipartBody form.1 form.2 ++ crlf

/-- The calls: headers, and at the end perhaps a form. -/
def callsOf (adds : List HttpAdd) (form : Option (Bytes × Bytes)) : List HttpAdd :=
  adds ++ form.toList.map fun f => .contentUserPass f.1 f.2

/-- The fields of the request in order. -/
def requestFields (host : Bytes) (port : Int32) (adds : List HttpAdd) (form : Option (Bytes × Bytes)) :
    List (Bytes × Bytes) :=
  (ascii "Host", hostValue host port.toInt) :: (adds.map HttpAdd.field ++ form.toList.flatMap formFields)

/-- What is read back. -/
def requestRead (method : HttpMethod) (host : Bytes) (port : Int32) (path : Bytes)
    (adds : List HttpAdd) (form : Option (Bytes × Bytes)) : PhrRequest where
  method := method.name
  path := 47 :: path
  minorVersion := 1
  headers := (requestFields host port adds form).map fieldHeader

/-- The texts can stand in a request. -/
structure RequestClean (host path : Bytes) (adds : List HttpAdd) : Prop where
  host : NoCtl host
  path : ∀ c ∈ path, c ≠ 32 ∧ ¬(c < 32 ∨ c = 127)
  adds : ∀ a ∈ adds, a.Clean

section Request

variable {method : HttpMethod} {host path : Bytes} {port : Int32} {adds : List HttpAdd}
  {form : Option (Bytes × Bytes)}

theorem noCtl_of_digits {t : Bytes} (h : ∀ c ∈ t, isDigit c = true) : NoCtl t := by
  intro c hc
  have hd := h c hc
  unfold isDigit at hd
  rw [Bool.and_eq_true, decide_eq_true_iff, decide_eq_true_iff, UInt8.le_iff_toNat_le,
    UInt8.le_iff_toNat_le] at hd
  rw [Bool.eq_false_iff, ne_eq, isCtl_iff]
  have h48 : 48 ≤ c.toNat := hd.1
  have h57 : c.toNat ≤ 57 := hd.2
  omega

/-- A number, its sign included. -/
theorem noCtl_fmtD (z : Int) : NoCtl (fmtD 0 z) := by
  have hdec : NoCtl (dec z.natAbs) := noCtl_of_digits fun c hc => isDigit_of_mem_dec hc
  have hsign : isCtl 45 = false := by decide
  unfold fmtD
  simp only [Nat.zero_sub, List.replicate_zero, List.nil_append]
  split
  · exact List.forall_mem_cons.mpr ⟨hsign, hdec⟩
  · exact hdec

theorem noCtl_append {t u : Bytes} (ht : NoCtl t) (hu : NoCtl u) : NoCtl (t ++ u) :=
  fun c hc => (List.mem_append.mp hc).elim (ht c) (hu c)

/-- Every field can stand in a header line. -/
theorem clean_requestFields (h : RequestClean host path adds) :
    ∀ f ∈ requestFields host port adds form, FieldClean f := by
  have hname : IsName (ascii "Host") ∧ IsName (ascii "content-type") ∧
      IsName (ascii "content-length") := by decide +kernel
  have htype : NoCtl (ascii "multipart/form-data; boundary=" ++ boundary) := by decide +kernel
  have hhost : NoCtl (hostValue host port.toInt) := by
    unfold hostValue
    split
    · exact h.host
    · exact noCtl_append (noCtl_append h.host (by decide +kernel)) (noCtl_fmtD _)
  intro f hf
  rcases List.mem_cons.mp hf with rfl | hf
  · exact hname.1.clean hhost
  · rcases List.mem_append.mp hf with hf | hf
    · obtain ⟨a, ha, rfl⟩ := List.mem_map.mp hf
      exact (h.adds a ha).field
    · obtain ⟨g, -, hg⟩ := List.mem_flatMap.mp hf
      unfold formFields at hg
      rcases List.mem_cons.mp hg with rfl | hg
      · exact hname.2.1.clean htype
      · obtain rfl := List.mem_singleton.mp hg
        exact hname.2.2.clean (noCtl_of_digits fun c hc => isDigit_of_mem_dec hc)

/-- The text of the request, cut where its headers end. -/
theorem requestText_eq (h : RequestClean host path adds) :
    requestText method host port path (callsOf adds form) =
      method.name ++ (32 :: (47 :: path ++ (32 :: (versionBytes 1 ++ (crlf ++
        ((requestFields host port adds form).flatMap fieldBytes ++
          (crlf ++ form.elim [] formBody))))))) := by
  have hhead : requestHead method host port path = method.name ++ (32 :: (47 :: path ++
      (32 :: (versionBytes 1 ++ (crlf ++ fieldBytes (ascii "Host", hostValue host port.toInt)))))) := by
    have h₁ : ascii " /" = [32, 47] := rfl
    have h₂ : ascii " HTTP/1.1" = 32 :: versionBytes 1 := rfl
    have h₃ : ascii "Host: " = ascii "Host" ++ ascii ": " := rfl
    unfold requestHead fieldBytes
    rw [h₁, h₂, h₃, hostValue_toInt]
    simp only [List.append_assoc, List.cons_append, List.nil_append]
  unfold requestText requestFields callsOf
  rw [hhead, List.map_append, List.flatten_append, flatten_parts h.adds, List.flatMap_cons]
  cases form with
  | none => simp
  | some f =>
    have hfields : multipart f.1 f.2 ++ crlf =
        (formFields f).flatMap fieldBytes ++ (crlf ++ formBody f) := by
      have h₁ : typeLine = ascii "content-type" ++ ascii ": " ++
          (ascii "multipart/form-data; boundary=" ++ boundary) := by decide +kernel
      have h₂ : lengthLabel = ascii "content-length" ++ ascii ": " := by decide +kernel
      rw [multipart_eq, h₁, h₂]
      unfold formFields fieldBytes formBody
      simp only [List.flatMap_cons, List.flatMap_nil, List.append_assoc, List.nil_append]
    simp only [Option.toList_some, List.map_cons, List.map_nil, HttpAdd.part, List.flatten_cons,
      List.flatten_nil, List.append_nil, List.append_assoc, hfields, Option.elim_some,
      List.flatMap_cons, List.flatMap_nil, List.flatMap_append, List.cons_append]

/-- **What is built is read back**, up to the body of the form. -/
theorem phrParseRequest_text {maxHeaders : Nat} (h : RequestClean host path adds)
    (hmax : (requestFields host port adds form).length ≤ maxHeaders) :
    phrParseRequest (requestText method host port path (callsOf adds form)) maxHeaders 0 =
      .ok (requestRead method host port path adds form,
        (requestText method host port path (callsOf adds form)).length -
          (form.elim [] formBody).length) := by
  obtain ⟨lines, hnamed, hlen, hbytes, hheaders⟩ :=
    exists_lines (requestFields host port adds form) (clean_requestFields h)
  have hmethod : method.name ≠ [] ∧ ∀ c ∈ method.name, isTokenChar c = true := by
    cases method <;> decide +kernel
  have hpath : ∀ c ∈ 47 :: path, c ≠ 32 ∧ ¬(c < 32 ∨ c = 127) := by
    intro c hc
    rcases List.mem_cons.mp hc with rfl | hc
    · decide
    · exact h.path c hc
  let head : RequestHead :=
    ⟨none, method.name, hmethod.1, hmethod.2, 0, 47 :: path, List.cons_ne_nil _ _, hpath, 0, 1, .crlf,
      ⟨lines, fun l hl => hnamed l (List.mem_of_mem_head? hl), .crlf⟩⟩
  have htext : requestText method host port path (callsOf adds form) =
      head.bytes ++ form.elim [] formBody := by
    rw [requestText_eq h, ← hbytes]
    show _ = ([] ++ (method.name ++ ((32 :: []) ++ ((47 :: path) ++ ((32 :: []) ++
      (versionBytes 1 ++ (crlf ++ (lines.flatMap HeaderLine.bytes ++ crlf)))))))) ++ _
    simp only [List.nil_append, List.append_assoc, List.cons_append]
  have hread : head.request = requestRead method host port path adds form := by
    show PhrRequest.mk method.name (47 :: path) 1 (lines.map HeaderLine.header) = _
    rw [hheaders]
    rfl
  exact phrParse_eq_ok.mpr ⟨fun h0 => absurd rfl h0, form.elim [] formBody,
    parseRequest_eq_ok.mpr ⟨head, hlen.trans_le hmax, hread.symm, htext⟩, rfl⟩

end Request

end Rastreo.Net
