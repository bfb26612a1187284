import Rastreo.Net.RequestText
import Rastreo.Net.Upgrade

/-!
# The length a multipart request declares

`http_request_add_content_user_pass` writes two header lines, the empty line and the multipart
body with one `snprintf`, and declares `strlen (boundary) * 3 + strlen (user) + strlen (pass) + 116`
bytes. The constant counts the body up to the line end of its last delimiter; the format goes on
with one more `\r\n` (`written_eq`), so the text behind the empty line is two bytes longer than
declared, whatever the user and the password are (`declared_short`).
-/

namespace Rastreo.Net

open Rastreo.Lib

/-! ## Reading a request -/

/-- What a call wrote: the bytes from the empty line it overwrote on. -/
def written (r r' : HttpRequest) : Bytes :=
  (r'.raw.bytes.take r'.length).drop (backTwo r.length)

/-- The name of the header that declares the length. -/
def lengthLabel : Bytes := ascii "content-length: "

/-- The number behind the first `content-length: `. -/
def declaredLength (w : Bytes) : Option Nat :=
  ((List.range w.length).find? fun i => (w.drop i).take 16 = lengthLabel).map fun i =>
    decVal ((w.drop (i + 16)).takeWhile isDigit)

/-- The bytes behind the empty line that ends the headers. -/
def bodyWritten (w : Bytes) : Option Bytes := (headEnd? w).map fun n => w.drop n

/-- The length declared is that of the body. -/
def LengthDeclared (w : Bytes) : Prop :=
  ∃ n body, declaredLength w = some n ∧ bodyWritten w = some body ∧ n = body.length

/-! ## Heads by lines -/

/-- No empty line begins inside a line. -/
theorem not_endsAt_line {l t : Bytes} {j : Nat} (hl : (13 : UInt8) ∉ l) (hj : j < l.length) :
    ¬ EndsAt (l ++ t) j := by
  intro h
  unfold EndsAt at h
  rw [List.drop_append_of_le_length hj.le, List.drop_eq_getElem_cons hj, List.cons_append,
    List.take_succ_cons] at h
  exact hl ((List.cons.inj h).1 ▸ List.getElem_mem hj)

/-- A line and the empty line behind it. -/
theorem headEnd?_blank {l : Bytes} (hl : (13 : UInt8) ∉ l) (body : Bytes) :
    headEnd? (l ++ (crlf ++ (crlf ++ body))) = some (l.length + 4) := by
  refine headEnd?_eq_some.mpr ⟨l.length, rfl, ?_, fun j hj => not_endsAt_line hl hj⟩
  unfold EndsAt
  rw [List.drop_left]
  rfl

/-- Behind a line the places are those of the rest. -/
theorem endsAt_behind {l t : Bytes} (k : Nat) : EndsAt (l ++ t) (l.length + k) ↔ EndsAt t k := by
  unfold EndsAt
  rw [← List.drop_drop, List.drop_left]

/-- A line before a head whose first byte is no CR. -/
theorem headEnd?_line {l t : Bytes} {c : UInt8} {n : Nat} (hl : (13 : UInt8) ∉ l) (hc : c ≠ 13)
    (h : headEnd? (c :: t) = some n) :
    headEnd? (l ++ (crlf ++ (c :: t))) = some (l.length + 2 + n) := by
  obtain ⟨i, rfl, hends, hnot⟩ := headEnd?_eq_some.mp h
  have hskip (k : Nat) : EndsAt (crlf ++ (c :: t)) (k + 2) ↔ EndsAt (c :: t) k := Iff.rfl
  refine headEnd?_eq_some.mpr ⟨l.length + (i + 2), by omega,
    (endsAt_behind _).mpr ((hskip i).mpr hends), fun j hj => ?_⟩
  obtain hlt | ⟨k, rfl⟩ : j < l.length ∨ ∃ k, j = l.length + k := by
    by_cases hlt : j < l.length
    · exact .inl hlt
    · exact .inr ⟨j - l.length, by omega⟩
  · exact not_endsAt_line hl hlt
  · rw [endsAt_behind]
    match k with
    | 0 =>
      -- the third byte is `c`
      intro heq
      have hthird := congrArg (fun x : Bytes => x[2]?) heq
      exact hc (Option.some.inj hthird)
    | 1 =>
      intro heq
      have hfirst : (some 10 : Option UInt8) = some 13 := congrArg (fun x : Bytes => x[0]?) heq
      exact absurd (Option.some.inj hfirst) (by decide)
    | k + 2 => exact fun hends' => hnot k (by omega) ((hskip k).mp hends')

/-- The first place of a label that does not stand earlier. -/
theorem declaredLength_eq {p rest : Bytes} {c : UInt8} (n : Nat)
    (hp : ∀ j < p.length, ((p ++ lengthLabel).drop j).take 16 ≠ lengthLabel)
    (hc : isDigit c = false) :
    declaredLength (p ++ (lengthLabel ++ (dec n ++ c :: rest))) = some n := by
  have hlabel : lengthLabel.length = 16 := by decide
  unfold declaredLength
  refine Option.map_eq_some_iff.mpr ⟨p.length, List.find?_range_eq_some.mpr ⟨?_, ?_, ?_⟩, ?_⟩
  · rw [List.drop_left, ← hlabel, List.take_left]
    exact decide_eq_true rfl
  · simp only [List.mem_range, List.length_append]
    omega
  · intro j hj
    have hwithin : ((p ++ (lengthLabel ++ (dec n ++ c :: rest))).drop j).take 16 =
        ((p ++ lengthLabel).drop j).take 16 := by
      rw [← List.append_assoc, List.drop_append_of_le_length (by rw [List.length_append]; omega),
        List.take_append_of_le_length (by rw [List.length_drop, List.length_append]; omega)]
    rw [hwithin, decide_eq_false (hp j hj)]
    rfl
  · rw [← List.drop_drop, List.drop_left, ← hlabel, List.drop_left,
      List.takeWhile_append_of_pos fun d hd => isDigit_of_mem_dec hd, List.takeWhile_cons, hc,
      if_neg Bool.false_ne_true, List.append_nil, decVal_dec]

/-! ## What the builder writes -/

/-- The line that names the delimiter. -/
def typeLine : Bytes := ascii "content-type: multipart/form-data; boundary=" ++ boundary

/-- The two parts of the form and the last delimiter, each line with its end. -/
def multipartBody (user pass : Bytes) : Bytes :=
  ascii "--" ++ boundary ++ crlf ++
    ascii "content-disposition: form-data; name=\"user\"" ++ crlf ++
    crlf ++ user ++ crlf ++
    ascii "--" ++ boundary ++ crlf ++
    ascii "content-disposition: form-data; name=\"password\"" ++ crlf ++
    crlf ++ pass ++ crlf ++
    ascii "--" ++ boundary ++ ascii "--" ++ crlf

theorem multipart_eq (user pass : Bytes) :
    multipart user pass ++ crlf = typeLine ++ (crlf ++ (lengthLabel ++
      (dec (contentLength user pass) ++ (crlf ++ (crlf ++ (multipartBody user pass ++ crlf)))))) := by
  unfold multipart typeLine multipartBody lengthLabel
  simp only [List.append_assoc]

/-- **116 is what the lines of the body take up** besides the delimiters, the user and the
password. -/
theorem length_multipartBody (user pass : Bytes) :
    (multipartBody user pass).length =
      boundary.length * 3 + user.length + pass.length + 116 := by
  have h1 : (ascii "--").length = 2 := by decide
  have h2 : crlf.length = 2 := by decide
  have h3 : (ascii "content-disposition: form-data; name=\"user\"").length = 43 := by decide +kernel
  have h4 : (ascii "content-disposition: form-data; name=\"password\"").length = 47 := by
    decide +kernel
  unfold multipartBody
  simp only [List.length_append, h1, h2, h3, h4]
  omega

theorem not_mem_typeLine : (13 : UInt8) ∉ typeLine := by decide +kernel

theorem not_mem_lengthLabel : (13 : UInt8) ∉ lengthLabel := by decide +kernel

/-- The line that declares the length has no CR. -/
theorem not_mem_lengthLine (n : Nat) : (13 : UInt8) ∉ lengthLabel ++ dec n := by
  intro h
  rcases List.mem_append.mp h with h | h
  · exact not_mem_lengthLabel h
  · exact absurd (isDigit_of_mem_dec h) (by decide)

/-- Behind the empty line stands the body, and then the empty line of the builder. -/
theorem bodyWritten_multipart (user pass : Bytes) :
    bodyWritten (multipart user pass ++ crlf) = some (multipartBody user pass ++ crlf) := by
  have hblank := headEnd?_blank (not_mem_lengthLine (contentLength user pass))
    (multipartBody user pass ++ crlf)
  obtain ⟨c, t, hcons⟩ : ∃ c t, lengthLabel = c :: t := ⟨_, _, rfl⟩
  have hc : c ≠ 13 := fun heq => not_mem_lengthLabel (by rw [hcons, heq]; exact List.mem_cons_self)
  have hhead : headEnd? (typeLine ++ (crlf ++ (lengthLabel ++ (dec (contentLength user pass) ++
      (crlf ++ (crlf ++ (multipartBody user pass ++ crlf))))))) =
        some (typeLine.length + 2 + ((lengthLabel ++ dec (contentLength user pass)).length + 4)) := by
    rw [List.append_assoc, hcons] at hblank
    rw [hcons]
    exact headEnd?_line not_mem_typeLine hc hblank
  rw [bodyWritten, multipart_eq, hhead, Option.map_some]
  congr 1
  have hsplit : typeLine ++ (crlf ++ (lengthLabel ++ (dec (contentLength user pass) ++
      (crlf ++ (crlf ++ (multipartBody user pass ++ crlf)))))) =
        (typeLine ++ crlf ++ (lengthLabel ++ dec (contentLength user pass)) ++ crlf ++ crlf) ++
          (multipartBody user pass ++ crlf) := by
    simp only [List.append_assoc]
  rw [hsplit, List.drop_left']
  simp only [List.length_append, show crlf.length = 2 from rfl]
  omega

theorem declaredLength_multipart (user pass : Bytes) :
    declaredLength (multipart user pass ++ crlf) = some (contentLength user pass) := by
  have hp : ∀ j < (typeLine ++ crlf).length,
      ((typeLine ++ crlf ++ lengthLabel).drop j).take 16 ≠ lengthLabel := by decide +kernel
  rw [multipart_eq, ← List.append_assoc]
  exact declaredLength_eq (c := 13) (contentLength user pass) hp (by decide)

/-- **What the call writes**, while the whole text fits. -/
theorem written_eq {r : HttpRequest} {t : Bytes} (h : r.Holds (t ++ crlf)) (user pass : Bytes)
    (hfit : (t ++ multipart user pass ++ crlf).length ≤ requestFixedLenght - 1) :
    written r (httpRequestAddContentUserPass r user pass) = multipart user pass ++ crlf := by
  have hlen := hfit
  simp only [List.length_append] at hlen
  have hback := Holds.back h (by rw [List.length_append]; omega)
  have happ := Holds.append hback (x := multipart user pass ++ crlf) (by
    rw [← List.append_assoc]
    exact hfit)
  have hcall := call_fst r (.contentUserPass user pass)
  rw [HttpAdd.call, HttpAdd.part] at hcall
  dsimp only at hcall
  obtain ⟨z, hz⟩ := happ.raw
  have hstart : backTwo r.length = t.length := hback.length
  rw [written, hcall, hz, happ.length, hstart, List.take_left, List.drop_left]

/-- **The text behind the empty line is two bytes longer than declared.** -/
theorem declared_short (user pass : Bytes)
    (hfit : (multipart user pass ++ crlf).length ≤ requestFixedLenght - 1) :
    ∃ n body, declaredLength (multipart user pass ++ crlf) = some n ∧
      bodyWritten (multipart user pass ++ crlf) = some body ∧ body.length = n + 2 := by
  refine ⟨_, _, declaredLength_multipart user pass, bodyWritten_multipart user pass, ?_⟩
  have hbody := length_multipartBody user pass
  have hsmall : (multipartBody user pass).length < 4294967296 := by
    rw [multipart_eq] at hfit
    simp only [List.length_append, requestFixedLenght] at hfit
    omega
  rw [List.length_append, contentLength, ← hbody, Nat.mod_eq_of_lt hsmall]
  rfl

/-! ## Every request -/

/-- NULL prints as a text. -/
theorem httpRequestInit_fmtS (h : Heap) (method : HttpMethod) (host : Bytes) (port : Int32)
    (path : Option Bytes) :
    httpRequestInit h method host port path =
      httpRequestInit h method host port (some (fmtS path)) := rfl

/-- **The length declared is never that of the body**, for any request, user and password that
fit. -/
theorem not_lengthDeclared {h h' : Heap} {method : HttpMethod} {host : Bytes} {path : Option Bytes}
    {port : Int32} {r : HttpRequest} (hi : httpRequestInit h method host port path = (some r, h'))
    (adds : List HttpAdd) (user pass : Bytes)
    (hfit : (requestText method host port (fmtS path)
      (adds ++ [.contentUserPass user pass])).length ≤ requestFixedLenght - 1) :
    ¬ LengthDeclared (written (addAll r adds).1
      (httpRequestAddContentUserPass (addAll r adds).1 user pass)) := by
  have hlen := hfit
  simp only [requestText, List.map_append, List.flatten_append, List.map_cons, List.map_nil,
    List.flatten_cons, List.flatten_nil, List.append_nil, HttpAdd.part, List.length_append] at hlen
  rw [httpRequestInit_fmtS] at hi
  have hinit := httpRequestInit_eq hi (by rw [List.length_append]; omega)
  have hadds := @holds_addAll adds _ _ hinit (by simp only [List.length_append]; omega)
  rw [written_eq hadds user pass (by simp only [List.length_append]; omega)]
  obtain ⟨n, body, hn, hbody, hlong⟩ :=
    declared_short user pass (by rw [List.length_append]; omega)
  rintro ⟨n', body', hn', hbody', heq⟩
  obtain rfl := Option.some.inj (hn.symm.trans hn')
  obtain rfl := Option.some.inj (hbody.symm.trans hbody')
  omega

/-- A form behind another header. -/
theorem not_lengthDeclared_small :
    ∃ r h', httpRequestInit (.empty fun _ => true) .post (ascii "host") 80 (some (ascii "login")) =
        (some r, h') ∧
      ¬ LengthDeclared (written (addAll r [.accept (ascii "a")]).1
        (httpRequestAddContentUserPass (addAll r [.accept (ascii "a")]).1 (ascii "ana")
          (ascii "1234"))) := by
  obtain ⟨r, h', hi⟩ := exists_request .post (ascii "host") 80 (some (ascii "login"))
  exact ⟨r, h', hi, not_lengthDeclared hi [.accept (ascii "a")] (ascii "ana") (ascii "1234")
    (by decide +kernel)⟩

/-- With an empty user and an empty password 197 bytes are declared and 199 written. -/
theorem not_always_lengthDeclared :
    ¬ ∀ (h h' : Heap) (method : HttpMethod) (host : Bytes) (path : Option Bytes) (port : Int32)
        (r : HttpRequest) (adds : List HttpAdd) (user pass : Bytes),
      httpRequestInit h method host port path = (some r, h') →
      (requestText method host port (fmtS path)
        (adds ++ [.contentUserPass user pass])).length ≤ requestFixedLenght - 1 →
      LengthDeclared (written (addAll r adds).1
        (httpRequestAddContentUserPass (addAll r adds).1 user pass)) := by
  intro hall
  obtain ⟨r, h', hi⟩ := exists_request .post (ascii "host") 80 none
  have hfit : (requestHead .post (ascii "host") 80 (fmtS none) ++ crlf).length ≤
      requestFixedLenght - 1 := by decide +kernel
  have hholds := httpRequestInit_eq (by rw [← httpRequestInit_fmtS]; exact hi) hfit
  obtain ⟨n, body, hn, hbody, heq⟩ := hall _ h' .post _ none 80 r [] [] [] hi (by decide +kernel)
  rw [addAll, written_eq hholds [] [] (by decide +kernel)] at hn hbody
  rw [declaredLength_multipart] at hn
  rw [bodyWritten_multipart] at hbody
  obtain rfl := Option.some.inj hn
  obtain rfl := Option.some.inj hbody
  exact absurd heq (by decide +kernel)

end Rastreo.Net
