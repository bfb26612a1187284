import Rastreo.Net.Lists
import Rastreo.Lib.Buffer

/-!
# HTTP requests (`http_request.c`)

A request is built in one block of `REQUEST_FIXED_LENGHT` bytes: `length` is where the next
`snprintf` writes, and grows by what `snprintf` would have written.
-/

namespace Rastreo.Net

open Rastreo.Lib

/-- `REQUEST_FIXED_LENGHT`. -/
abbrev requestFixedLenght : Nat := 2048

/-- `t_HTTP_REQUEST_HANDLE`. -/
structure HttpRequest where
  handle : Block
  block : Block
  raw : Buf requestFixedLenght
  length : Nat
  /-- A write went past `raw`. -/
  overrun : Bool
  deriving DecidableEq, Repr

/-- `t_HTTP_METHODS`. -/
inductive HttpMethod
  | post
  | get
  deriving DecidableEq, Repr

/-- `length += snprintf (raw + length, REQUEST_FIXED_LENGHT - length, …)` in 32-bit arithmetic. -/
def HttpRequest.append (r : HttpRequest) (text : Bytes) : HttpRequest :=
  let size := (requestFixedLenght + 4294967296 - r.length) % 4294967296
  let length := (r.length + text.length) % 4294967296
  match r.raw.store r.length (if size = 0 then [] else text.take (size - 1) ++ [0]) with
  | some raw => { r with raw := raw, length := length }
  | none => { r with overrun := true, length := length }

/-- `sizeof (t_HTTP_REQUEST_HANDLE)`. -/
def sizeofHttpRequest : Nat := 8

/-- `create_request_handle`. -/
def createRequestHandle (h : Heap) : Option HttpRequest × Heap :=
  match dmemCreate h sizeofHttpRequest with
  | (none, h) => (none, h)
  | (some hReq, h) =>
    match dmemCreate h requestFixedLenght with
    | (none, h) => (none, dmemRelease h (some hReq))
    | (some raw, h) => (some ⟨hReq, raw, .clear, 0, false⟩, h)

/-- What `%s` prints, also for a NULL pointer. -/
def fmtS (s : Option Bytes) : Bytes := s.getD (ascii "(null)")

/-- A `uint16_t` port as the argument `int port`. -/
def intPort (port : UInt16) : Int32 := .ofNat port.toNat

theorem toInt_intPort (port : UInt16) : (intPort port).toInt = port.toNat :=
  Int32.toInt_ofNat_of_lt (port.toNat_lt.trans (by decide))

/-- `http_request_init`; its parameter `query` is not used. -/
def httpRequestInit (h : Heap) (method : HttpMethod) (host : Bytes) (port : Int32)
    (path : Option Bytes) : Option HttpRequest × Heap :=
  match createRequestHandle h with
  | (none, h) => (none, h)
  | (some r, h) =>
    let name := match method with
      | .post => ascii "POST"
      | .get => ascii "GET"
    let hostPort := if port = 80 then host else host ++ ascii ":" ++ fmtD 0 port.toInt
    (some ((r.append name).append (ascii " /" ++ fmtS path ++ ascii " HTTP/1.1\r\nHost: " ++
      hostPort ++ ascii "\r\n\r\n")), h)

/-- `http_request_add_generic`: the empty line at the end is overwritten. -/
def httpRequestAddGeneric (r : HttpRequest) (label content : Bytes) : HttpRequest :=
  { r with length := (r.length + 4294967294) % 4294967296 }.append
    (label ++ ascii ": " ++ content ++ ascii "\r\n\r\n")

/-- `http_request_add_accept`. -/
def httpRequestAddAccept (r : HttpRequest) (accept : Bytes) : HttpRequest :=
  { r with length := (r.length + 4294967294) % 4294967296 }.append
    (ascii "accept: " ++ accept ++ ascii "\r\n\r\n")

/-- `http_request_add_bearer_token`. -/
def httpRequestAddBearerToken (r : HttpRequest) (token : Bytes) : HttpRequest :=
  { r with length := (r.length + 4294967294) % 4294967296 }.append
    (ascii "authorization: Bearer " ++ token ++ ascii "\r\n\r\n")

/-- `boundary`. -/
def boundary : Bytes := ascii "---011000010111000001101001"

/-- `contentLength` of `http_request_add_content_user_pass`. -/
def contentLength (user pass : Bytes) : Nat :=
  (boundary.length * 3 + user.length + pass.length + 116) % 4294967296

/-- `http_request_add_content_user_pass`. -/
def httpRequestAddContentUserPass (r : HttpRequest) (user pass : Bytes) : HttpRequest :=
  { r with length := (r.length + 4294967294) % 4294967296 }.append
    (ascii "content-type: multipart/form-data; boundary=" ++ boundary ++ ascii "\r\n" ++
      ascii "content-length: " ++ dec (contentLength user pass) ++ ascii "\r\n" ++
      ascii "\r\n--" ++ boundary ++ ascii "\r\n" ++
      ascii "content-disposition: form-data; name=\"user\"\r\n" ++
      ascii "\r\n" ++ user ++ ascii "\r\n" ++
      ascii "--" ++ boundary ++ ascii "\r\n" ++
      ascii "content-disposition: form-data; name=\"password\"\r\n" ++
      ascii "\r\n" ++ pass ++ ascii "\r\n" ++
      ascii "--" ++ boundary ++ ascii "--\r\n\r\n")

/-- `http_request_delete`. -/
def httpRequestDelete (h : Heap) (r : HttpRequest) : Heap :=
  dmemRelease (dmemRelease h (some r.block)) (some r.handle)

end Rastreo.Net
