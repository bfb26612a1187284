import Rastreo.Net.HttpRequest

/-!
# The text of a request

`snprintf` gives the length the text would have had, not the length written, and the calls add it
up unchecked. While everything fits, `raw` holds the text and `length` is its length
(`HttpRequest.Holds`). The calls report nothing: `http_request_add_*` returns 0 in any case, so a
text that does not fit is neither kept out of `raw` nor reported (`built_iff`).
-/

namespace Rastreo.Net

open Rastreo.Lib

/-! ## Calls and texts -/

/-- A call of one of `http_request_add_*`. -/
inductive HttpAdd
  | generic (label content : Bytes)
  | accept (mime : Bytes)
  | bearerToken (token : Bytes)
  | contentUserPass (user pass : Bytes)
  deriving DecidableEq, Repr

/-- The call, with what it returns. -/
def HttpAdd.call (r : HttpRequest) : HttpAdd → HttpRequest × Int
  | .generic label content => (httpRequestAddGeneric r label content, 0)
  | .accept mime => (httpRequestAddAccept r mime, 0)
  | .bearerToken token => (httpRequestAddBearerToken r token, 0)
  | .contentUserPass user pass => (httpRequestAddContentUserPass r user pass, 0)

/-- The calls in order, and what each returns. -/
def addAll (r : HttpRequest) : List HttpAdd → HttpRequest × List Int
  | [] => (r, [])
  | a :: as => ((addAll (a.call r).1 as).1, (a.call r).2 :: (addAll (a.call r).1 as).2)

/-- The line end. -/
def crlf : Bytes := ascii "\r\n"

/-- The two header lines and the body of `http_request_add_content_user_pass`. -/
def multipart (user pass : Bytes) : Bytes :=
  ascii "content-type: multipart/form-data; boundary=" ++ boundary ++ crlf ++
    ascii "content-length: " ++ dec (contentLength user pass) ++ crlf ++
    crlf ++ ascii "--" ++ boundary ++ crlf ++
    ascii "content-disposition: form-data; name=\"user\"" ++ crlf ++
    crlf ++ user ++ crlf ++
    ascii "--" ++ boundary ++ crlf ++
    ascii "content-disposition: form-data; name=\"password\"" ++ crlf ++
    crlf ++ pass ++ crlf ++
    ascii "--" ++ boundary ++ ascii "--" ++ crlf

/-- What a call adds before the empty line. -/
def HttpAdd.part : HttpAdd → Bytes
  | .generic label content => label ++ ascii ": " ++ content ++ crlf
  | .accept mime => ascii "accept: " ++ mime ++ crlf
  | .bearerToken token => ascii "authorization: Bearer " ++ token ++ crlf
  | .contentUserPass user pass => multipart user pass

/-- The method at the start of the request line. -/
def HttpMethod.name : HttpMethod → Bytes
  | .post => ascii "POST"
  | .get => ascii "GET"

/-- The request line and the Host header. -/
def requestHead (method : HttpMethod) (host : Bytes) (port : Int32) (path : Bytes) : Bytes :=
  method.name ++ ascii " /" ++ path ++ ascii " HTTP/1.1" ++ crlf ++
    ascii "Host: " ++ (if port = 80 then host else host ++ ascii ":" ++ fmtD 0 port.toInt) ++ crlf

/-- The whole text: the head, the parts in the order of the calls, the empty line. -/
def requestText (method : HttpMethod) (host : Bytes) (port : Int32) (path : Bytes)
    (adds : List HttpAdd) : Bytes :=
  requestHead method host port path ++ (adds.map HttpAdd.part).flatten ++ crlf

/-- A request is built right: it stays inside `raw`; it is the text where that fits, and where it
does not fit a call has said so. -/
structure Built (text : Bytes) (r : HttpRequest) (returned : List Int) : Prop where
  bounded : r.length ≤ requestFixedLenght - 1
  inside : r.overrun = false
  exact : text.length ≤ requestFixedLenght - 1 → r.raw.bytes.take r.length = text
  reported : ¬ text.length ≤ requestFixedLenght - 1 → ∃ code ∈ returned, code ≠ 0

/-! ## While it fits -/

/-- `raw` holds the text `t`. -/
structure HttpRequest.Holds (r : HttpRequest) (t : Bytes) : Prop where
  length : r.length = t.length
  raw : ∃ z, r.raw.bytes = t ++ z
  inside : r.overrun = false

/-- **`snprintf` of a text that fits.** -/
theorem Holds.append {r : HttpRequest} {t x : Bytes} (h : r.Holds t)
    (hfit : (t ++ x).length ≤ requestFixedLenght - 1) : (r.append x).Holds (t ++ x) := by
  obtain ⟨z, hz⟩ := h.raw
  rw [List.length_append] at hfit
  simp only [requestFixedLenght] at hfit
  have hlen := r.raw.length_eq
  rw [hz, List.length_append] at hlen
  have hsize : (requestFixedLenght + 4294967296 - r.length) % 4294967296 = 2048 - t.length := by
    rw [h.length]
    simp only [requestFixedLenght]
    omega
  have hnext : (r.length + x.length) % 4294967296 = (t ++ x).length := by
    rw [h.length, List.length_append]
    omega
  have htake : x.take (2048 - t.length - 1) = x := List.take_of_length_le (by omega)
  have hroom : (x ++ [0]).length ≤ z.length := by
    rw [List.length_append, List.length_singleton]
    simp only [requestFixedLenght] at hlen
    omega
  obtain ⟨raw, hstore, hraw⟩ := Buf.store_append hz h.length.symm hroom
  have happ : r.append x = { r with raw := raw, length := (t ++ x).length } := by
    unfold HttpRequest.append
    simp only [hsize, hnext, htake]
    rw [if_neg (by omega), hstore]
  rw [happ]
  refine ⟨rfl, ⟨[0] ++ z.drop (x ++ [0]).length, ?_⟩, h.inside⟩
  show raw.bytes = _
  rw [hraw]
  simp only [List.append_assoc]

/-- The request with another length. -/
def HttpRequest.at (r : HttpRequest) (n : Nat) : HttpRequest := { r with length := n }

theorem at_raw (r : HttpRequest) (n : Nat) : (r.at n).raw = r.raw := rfl

theorem at_overrun (r : HttpRequest) (n : Nat) : (r.at n).overrun = r.overrun := rfl

theorem at_length (r : HttpRequest) (n : Nat) : (r.at n).length = n := rfl

/-- `length - 2` in 32-bit arithmetic. -/
def backTwo (n : Nat) : Nat := (n + 4294967294) % 4294967296

theorem sub_two {n k : Nat} (h : n = k + 2) (hn : n < 4294967296) :
    backTwo n = k := by
  unfold backTwo
  omega

/-- The text without the empty line at its end, to be overwritten. -/
theorem Holds.back {r : HttpRequest} {t : Bytes} (h : r.Holds (t ++ crlf))
    (hfit : (t ++ crlf).length ≤ requestFixedLenght - 1) : (r.at (backTwo r.length)).Holds t := by
  obtain ⟨z, hz⟩ := h.raw
  have hcrlf : crlf.length = 2 := by decide
  have hlen : r.length = t.length + 2 := by rw [h.length, List.length_append, hcrlf]
  have hsmall : r.length < 4294967296 := by
    rw [h.length]
    exact hfit.trans_lt (by decide)
  refine ⟨(at_length r _).trans (sub_two hlen hsmall), ⟨crlf ++ z, ?_⟩,
    (at_overrun r _).trans h.inside⟩
  rw [at_raw, hz, List.append_assoc]

/-- The two line ends that close a part. -/
theorem crlf_crlf : ascii "\r\n\r\n" = crlf ++ crlf := rfl

/-- The lines of the multipart body, as the format string has them. -/
theorem multipart_text (user pass : Bytes) :
    multipart user pass ++ crlf =
      ascii "content-type: multipart/form-data; boundary=" ++ boundary ++ ascii "\r\n" ++
        ascii "content-length: " ++ dec (contentLength user pass) ++ ascii "\r\n" ++
        ascii "\r\n--" ++ boundary ++ ascii "\r\n" ++
        ascii "content-disposition: form-data; name=\"user\"\r\n" ++
        ascii "\r\n" ++ user ++ ascii "\r\n" ++
        ascii "--" ++ boundary ++ ascii "\r\n" ++
        ascii "content-disposition: form-data; name=\"password\"\r\n" ++
        ascii "\r\n" ++ pass ++ ascii "\r\n" ++
        ascii "--" ++ boundary ++ ascii "--\r\n\r\n" := by
  have h1 : ascii "\r\n--" = crlf ++ ascii "--" := by decide +kernel
  have h2 : ascii "content-disposition: form-data; name=\"user\"\r\n" =
    ascii "content-disposition: form-data; name=\"user\"" ++ crlf := by decide +kernel
  have h3 : ascii "content-disposition: form-data; name=\"password\"\r\n" =
    ascii "content-disposition: form-data; name=\"password\"" ++ crlf := by decide +kernel
  have h4 : ascii "--\r\n\r\n" = ascii "--" ++ (crlf ++ crlf) := by decide +kernel
  have h5 : ascii "\r\n" = crlf := by decide +kernel
  unfold multipart
  rw [h1, h2, h3, h4, h5]
  simp only [List.append_assoc]

/-- Every call overwrites the empty line with its part and a new one. -/
theorem call_fst (r : HttpRequest) (a : HttpAdd) :
    (a.call r).1 = (r.at (backTwo r.length)).append (a.part ++ crlf) := by
  cases a with
  | generic label content =>
    rw [HttpAdd.call, httpRequestAddGeneric, HttpRequest.at, backTwo, HttpAdd.part, crlf_crlf,
      List.append_assoc _ crlf crlf]
  | accept mime =>
    rw [HttpAdd.call, httpRequestAddAccept, HttpRequest.at, backTwo, HttpAdd.part, crlf_crlf,
      List.append_assoc _ crlf crlf]
  | bearerToken token =>
    rw [HttpAdd.call, httpRequestAddBearerToken, HttpRequest.at, backTwo, HttpAdd.part, crlf_crlf,
      List.append_assoc _ crlf crlf]
  | contentUserPass user pass =>
    rw [HttpAdd.call, httpRequestAddContentUserPass, HttpRequest.at, backTwo, HttpAdd.part,
      multipart_text]

theorem call_snd (r : HttpRequest) (a : HttpAdd) : (a.call r).2 = 0 := by
  cases a <;> rfl

/-- The calls, while the whole text fits. -/
theorem holds_addAll {as : List HttpAdd} {r : HttpRequest} {t : Bytes} (h : r.Holds (t ++ crlf))
    (hfit : (t ++ (as.map HttpAdd.part).flatten ++ crlf).length ≤ requestFixedLenght - 1) :
    (addAll r as).1.Holds (t ++ (as.map HttpAdd.part).flatten ++ crlf) := by
  induction as generalizing r t with
  | nil => simpa [addAll] using h
  | cons a as ih =>
    have hassoc : t ++ ((a :: as).map HttpAdd.part).flatten ++ crlf =
        t ++ a.part ++ (as.map HttpAdd.part).flatten ++ crlf := by
      rw [List.map_cons, List.flatten_cons, List.append_assoc t a.part]
    rw [hassoc] at hfit ⊢
    have hlen := hfit
    simp only [List.length_append] at hlen
    have hback := Holds.back h (by rw [List.length_append]; omega)
    have happ := Holds.append hback (x := a.part ++ crlf) (by
      rw [List.length_append, List.length_append]
      omega)
    rw [← List.append_assoc] at happ
    rw [addAll, call_fst]
    exact ih happ hfit

/-- A new request holds nothing. -/
theorem holds_createRequestHandle {h h' : Heap} {r : HttpRequest}
    (hc : createRequestHandle h = (some r, h')) : r.Holds [] := by
  unfold createRequestHandle at hc
  split at hc
  · cases hc
  · split at hc
    · cases hc
    · obtain ⟨hr, -⟩ := Prod.mk.inj hc
      obtain rfl := Option.some.inj hr
      exact ⟨rfl, ⟨_, rfl⟩, rfl⟩

/-- The request line and the Host header. -/
theorem httpRequestInit_eq {h h' : Heap} {method : HttpMethod} {host path : Bytes} {port : Int32}
    {r : HttpRequest} (hi : httpRequestInit h method host port (some path) = (some r, h'))
    (hfit : (requestHead method host port path ++ crlf).length ≤ requestFixedLenght - 1) :
    r.Holds (requestHead method host port path ++ crlf) := by
  unfold httpRequestInit at hi
  split at hi
  · cases hi
  · rename_i r₀ h₀ hc
    obtain ⟨hr, -⟩ := Prod.mk.inj hi
    have hname := Holds.append (holds_createRequestHandle hc) (x := method.name) (by
      cases method <;> decide)
    have hhead : requestHead method host port path ++ crlf = [] ++ method.name ++
        (ascii " /" ++ fmtS (some path) ++ ascii " HTTP/1.1\r\nHost: " ++
          (if port = 80 then host else host ++ ascii ":" ++ fmtD 0 port.toInt) ++ ascii "\r\n\r\n") := by
      have hline : ascii " HTTP/1.1\r\nHost: " = ascii " HTTP/1.1" ++ crlf ++ ascii "Host: " := rfl
      rw [requestHead, crlf_crlf, hline, fmtS, Option.getD_some]
      simp only [List.append_assoc, List.nil_append]
    rw [hhead] at hfit ⊢
    have hall := Holds.append hname hfit
    obtain rfl := Option.some.inj hr
    cases method <;> exact hall

/-! ## What is reported -/

theorem returned_zero (as : List HttpAdd) (r : HttpRequest) : ∀ code ∈ (addAll r as).2, code = 0 := by
  induction as generalizing r with
  | nil => simp [addAll]
  | cons a as ih =>
    rw [addAll]
    intro code hcode
    rcases List.mem_cons.mp hcode with rfl | hcode
    · exact call_snd r a
    · exact ih _ code hcode

/-- A text that does not fit is not reported. -/
theorem not_built_of_long {text : Bytes} {as : List HttpAdd} {r : HttpRequest}
    (h : ¬ text.length ≤ requestFixedLenght - 1) :
    ¬ Built text (addAll r as).1 (addAll r as).2 := by
  intro hb
  obtain ⟨code, hmem, hne⟩ := hb.reported h
  exact hne (returned_zero as r code hmem)

/-- **A request is built right exactly when its whole text fits** into `raw` with a NUL. -/
theorem built_iff {h h' : Heap} {method : HttpMethod} {host path : Bytes} {port : Int32}
    {r : HttpRequest} (hi : httpRequestInit h method host port (some path) = (some r, h'))
    (adds : List HttpAdd) :
    Built (requestText method host port path adds) (addAll r adds).1 (addAll r adds).2 ↔
      (requestText method host port path adds).length ≤ requestFixedLenght - 1 := by
  constructor
  · intro hb
    by_contra hlong
    exact not_built_of_long hlong hb
  · intro hfit
    have hhead : (requestHead method host port path ++ crlf).length ≤ requestFixedLenght - 1 := by
      simp only [requestText, List.length_append] at hfit ⊢
      omega
    have hall := holds_addAll (httpRequestInit_eq hi hhead) hfit
    obtain ⟨z, hz⟩ := hall.raw
    refine ⟨?_, hall.inside, fun _ => ?_, fun hlong => absurd hfit hlong⟩
    · rw [hall.length]
      exact hfit
    · rw [hz, hall.length, List.take_left]
      rfl

/-- A request is granted by a heap that grants everything. -/
theorem exists_request (method : HttpMethod) (host : Bytes) (port : Int32) (path : Option Bytes) :
    ∃ r h', httpRequestInit (.empty fun _ => true) method host port path = (some r, h') := by
  have hc : (createRequestHandle (.empty fun _ => true)).1.isSome = true := by decide +kernel
  obtain ⟨r, hr⟩ := Option.isSome_iff_exists.mp hc
  unfold httpRequestInit
  split
  · rename_i heq
    rw [heq] at hr
    cases hr
  · exact ⟨_, _, rfl⟩

/-- A small request with two headers. -/
theorem built_small :
    ∃ r h', httpRequestInit (.empty fun _ => true) .get (ascii "host") 8080 (some (ascii "p")) =
        (some r, h') ∧
      Built (ascii "GET /p HTTP/1.1\r\nHost: host:8080\r\naccept: a\r\nX: y\r\n\r\n")
        (addAll r [.accept (ascii "a"), .generic (ascii "X") (ascii "y")]).1
        (addAll r [.accept (ascii "a"), .generic (ascii "X") (ascii "y")]).2 := by
  obtain ⟨r, h', hi⟩ := exists_request .get (ascii "host") 8080 (some (ascii "p"))
  refine ⟨r, h', hi, ?_⟩
  have htext : requestText .get (ascii "host") 8080 (ascii "p")
      [.accept (ascii "a"), .generic (ascii "X") (ascii "y")] =
        ascii "GET /p HTTP/1.1\r\nHost: host:8080\r\naccept: a\r\nX: y\r\n\r\n" := by decide +kernel
  rw [← htext]
  exact (built_iff hi [.accept (ascii "a"), .generic (ascii "X") (ascii "y")]).mpr (by decide +kernel)

/-- A path of 2048 bytes: the request is cut, and no call says so. -/
theorem not_built :
    ¬ ∀ (h h' : Heap) (method : HttpMethod) (host path : Bytes) (port : Int32) (r : HttpRequest)
        (adds : List HttpAdd),
      httpRequestInit h method host port (some path) = (some r, h') →
      Built (requestText method host port path adds) (addAll r adds).1 (addAll r adds).2 := by
  intro hall
  obtain ⟨r, h', hi⟩ :=
    exists_request .get (ascii "host") 80 (some (List.replicate 2048 (97 : UInt8)))
  refine not_built_of_long ?_ (hall _ h' .get _ _ 80 r [.accept (ascii "a")] hi)
  simp only [requestText, requestHead, List.length_append, List.length_replicate,
    requestFixedLenght]
  omega

end Rastreo.Net
