import Rastreo.Net.Sending
import Rastreo.Net.Sessions
import Rastreo.Net.UrlParser
import Rastreo.Net.RequestText

/-!
# The target of the handshake request

Three modules hand a URL on: `url_parse` strips the delimiters, `ws_client_task` takes scheme, host,
port and path from the record (the query is not passed on, `http_request_init` gets NULL for it),
and the request prints what it gets with `%s`, which for a NULL path is the text "(null)".

* `handshakeRequest` is the request of `WS_STATE_INIT_HANDSHAKE`.
* `Targets`: its request line and its Host header are the URL's.
* **`targets_iff`**: they are exactly for a URL with a path and without a query, whose port is
  written as a number and is not the one the Host header leaves out by mistake, and when the two
  lines fit.
* `initHandshake_cases`: the state hands `handshakeRequest` to `tcp_client_send`.
* **`queued_of_waiting`**: so a client that waits for the answer has queued it.
-/

namespace Rastreo.Net

open Rastreo.Lib

/-! ## What a URL asks for -/

/-- The fields of the record that the client reads. -/
def UrlRecord.data (r : UrlRecord) : UrlData :=
  ⟨r.parts.scheme, r.parts.host, r.parts.port, r.parts.path⟩

/-- The request-target of a URL. -/
def UrlParts.requestTarget (p : UrlParts) : Bytes := 47 :: p.path.getD [] ++ behind 63 p.query

/-- The port a scheme stands for. -/
def UrlParts.defaultPort (p : UrlParts) : Nat :=
  if p.scheme.map toLower = ascii "wss" then 443 else 80

/-- The port of the URL: that of its scheme where none is written, the number written, or none
where what is written is not a number. -/
def UrlParts.effectivePort (p : UrlParts) : Option Nat :=
  match p.port with
  | none | some [] => some p.defaultPort
  | some (d :: ds) => if (d :: ds).all isDigit then some (decVal (d :: ds)) else none

/-- A Host header with this value names the host and the port of the URL; a port left out is that
of the scheme. -/
def UrlParts.NamedBy (p : UrlParts) (v : Bytes) : Prop :=
  ∃ n, p.effectivePort = some n ∧
    ((v = p.host ∧ n = p.defaultPort) ∨
      ∃ ds, ds ≠ [] ∧ (∀ c ∈ ds, isDigit c = true) ∧ v = p.host ++ 58 :: ds ∧ decVal ds = n)

/-- The request line and the Host header with this target and this value. -/
def headLines (target v : Bytes) : Bytes :=
  ascii "GET " ++ target ++ ascii " HTTP/1.1\r\nHost: " ++ v ++ crlf

/-- **The request asks for the URL's target at the URL's host and port.** -/
def Targets (p : UrlParts) (q : HttpRequest) : Prop :=
  ∃ v rest, q.raw.bytes.take q.length = headLines p.requestTarget v ++ rest ∧ p.NamedBy v

/-! ## The handshake request -/

/-- The headers of the handshake. -/
def handshakeAdds (key : Bytes) : List HttpAdd :=
  [.generic (ascii "Upgrade") (ascii "websocket"),
    .generic (ascii "Connection") (ascii "Upgrade"),
    .generic (ascii "Sec-WebSocket-Key") key,
    .generic (ascii "Sec-WebSocket-Version") (ascii "13")]

/-- The request of `WS_STATE_INIT_HANDSHAKE`; `none` when there is no memory for it. -/
def handshakeRequest (w : World) (url : UrlData) : Option HttpRequest :=
  (httpRequestInit w.heap .get url.host (intPort w.ws.nPort) url.path).1.map fun r =>
    (addAll r (handshakeAdds w.drawKey.ws.webSocketKey.text)).1

theorem addAll_handshakeAdds (r : HttpRequest) (key : Bytes) :
    (addAll r (handshakeAdds key)).1 =
      httpRequestAddGeneric (httpRequestAddGeneric (httpRequestAddGeneric
        (httpRequestAddGeneric r (ascii "Upgrade") (ascii "websocket"))
        (ascii "Connection") (ascii "Upgrade")) (ascii "Sec-WebSocket-Key") key)
        (ascii "Sec-WebSocket-Version") (ascii "13") := by
  simp only [handshakeAdds, addAll, HttpAdd.call]

/-- **`WS_STATE_INIT_HANDSHAKE`** hands it to `tcp_client_send`, and ends in an error unless that
succeeds. -/
theorem initHandshake_cases (w : World) (url : UrlData) :
    (initHandshake w url).ws.state = .error ∨
      ∃ q h, handshakeRequest w url = some q ∧
        (tcpClientSend h w.slots w.ws.curSocketId q.raw.bytes q.length).1 = .success ∧
        (initHandshake w url).slots =
          (tcpClientSend h w.slots w.ws.curSocketId q.raw.bytes q.length).2.2 := by
  unfold handshakeRequest initHandshake
  have hdraw : w.drawKey.heap = w.heap ∧ w.drawKey.slots = w.slots ∧
      w.drawKey.ws.nPort = w.ws.nPort ∧ w.drawKey.ws.curSocketId = w.ws.curSocketId :=
    ⟨rfl, rfl, rfl, rfl⟩
  simp only [hdraw]
  cases httpRequestInit w.heap .get url.host (intPort w.ws.nPort) url.path with
  | mk o h =>
    cases o with
    | none => exact .inl rfl
    | some r =>
      dsimp only
      rw [← addAll_handshakeAdds r]
      split
      · rename_i hsent
        exact .inr ⟨(addAll r (handshakeAdds w.drawKey.ws.webSocketKey.text)).1, h, rfl, hsent, rfl⟩
      · exact .inl rfl

/-! ## What `raw` keeps -/

section Raw

variable {r : HttpRequest} {x : Bytes} {k : Nat}

/-- A write behind the first `k` bytes leaves them, and there is a NUL after it. -/
theorem append_keeps (hk : k ≤ r.length) :
    (r.append x).raw.bytes.take k = r.raw.bytes.take k ∧
      ((0 : UInt8) ∈ r.raw.bytes → (0 : UInt8) ∈ (r.append x).raw.bytes) := by
  unfold HttpRequest.append
  generalize (requestFixedLenght + 4294967296 - r.length) % 4294967296 = size
  dsimp only
  cases hs : r.raw.store r.length (if size = 0 then [] else x.take (size - 1) ++ [0]) with
  | none => exact ⟨rfl, id⟩
  | some raw =>
    refine ⟨Buf.take_of_store hs hk, fun h0 => ?_⟩
    show (0 : UInt8) ∈ raw.bytes
    rw [Buf.bytes_of_store hs]
    split
    · simpa using h0
    · simp

theorem append_length : (r.append x).length = (r.length + x.length) % 4294967296 := by
  unfold HttpRequest.append
  dsimp only
  split <;> rfl

/-- **`snprintf` of a text that may not fit**: what fits is written. -/
theorem append_cut {t : Bytes} (h : r.Holds t) (ht : t.length ≤ 2047) :
    (∃ z, (r.append x).raw.bytes = (t ++ x).take 2047 ++ z) ∧
      (0 : UInt8) ∈ (r.append x).raw.bytes := by
  obtain ⟨z, hz⟩ := h.raw
  have hlen := r.raw.length_eq
  rw [hz, List.length_append] at hlen
  simp only [requestFixedLenght] at hlen
  have hsize : (requestFixedLenght + 4294967296 - r.length) % 4294967296 = 2048 - t.length := by
    rw [h.length]
    simp only [requestFixedLenght]
    omega
  have hroom : (x.take (2048 - t.length - 1) ++ [0]).length ≤ z.length := by
    rw [List.length_append, List.length_singleton, List.length_take]
    omega
  obtain ⟨raw, hstore, hraw⟩ := Buf.store_append hz h.length.symm hroom
  have happ : (r.append x).raw = raw := by
    unfold HttpRequest.append
    simp only [hsize]
    rw [if_neg (by omega), hstore]
  rw [happ, hraw]
  have htake : (t ++ x).take 2047 = t ++ x.take (2048 - t.length - 1) := by
    rw [List.take_append, List.take_of_length_le ht,
      show 2047 - t.length = 2048 - t.length - 1 by omega]
  constructor
  · refine ⟨[0] ++ z.drop (x.take (2048 - t.length - 1) ++ [0]).length, ?_⟩
    rw [htake]
    simp only [List.append_assoc]
  · simp

/-- The calls leave what is before the empty line. -/
theorem addAll_keeps {as : List HttpAdd} (hk : k + 2 ≤ r.length)
    (hsmall : r.length + ((as.map HttpAdd.part).flatten).length < 4294967296)
    (h0 : (0 : UInt8) ∈ r.raw.bytes) :
    (addAll r as).1.raw.bytes.take k = r.raw.bytes.take k ∧
      (0 : UInt8) ∈ (addAll r as).1.raw.bytes ∧
      (addAll r as).1.length = r.length + ((as.map HttpAdd.part).flatten).length := by
  induction as generalizing r with
  | nil => exact ⟨rfl, h0, rfl⟩
  | cons a as ih =>
    rw [List.map_cons, List.flatten_cons, List.length_append] at hsmall ⊢
    have hcrlf : crlf.length = 2 := by decide
    have hlt : r.length < 4294967296 := by omega
    obtain ⟨n, hn⟩ : ∃ n, r.length = n + 2 := ⟨r.length - 2, by omega⟩
    have hback : (r.at (backTwo r.length)).length = n := (at_length r _).trans (sub_two hn hlt)
    have hlen : (a.call r).1.length = r.length + a.part.length := by
      rw [call_fst, append_length, hback, List.length_append, hcrlf, Nat.mod_eq_of_lt] <;> omega
    obtain ⟨htake, hzero⟩ := append_keeps (r := r.at (backTwo r.length)) (x := a.part ++ crlf)
      (k := k) (by rw [hback]; omega)
    rw [← call_fst, at_raw] at htake hzero
    obtain ⟨ih₁, ih₂, ih₃⟩ := ih (r := (a.call r).1) (by omega) (by omega) (hzero h0)
    rw [addAll]
    refine ⟨ih₁.trans htake, ih₂, ?_⟩
    rw [ih₃, hlen, Nat.add_assoc]

end Raw

/-- What follows the host in a Host header. -/
def hostValue (host : Bytes) (port : Int) : Bytes :=
  if port = 80 then host else host ++ ascii ":" ++ fmtD 0 port

/-- It is what `http_request_init` prints. -/
theorem hostValue_toInt (host : Bytes) (port : Int32) :
    (if port = 80 then host else host ++ ascii ":" ++ fmtD 0 port.toInt) =
      hostValue host port.toInt := by
  have h80 : port = 80 ↔ port.toInt = 80 := (@Int32.toInt_inj port 80).symm
  unfold hostValue
  simp only [h80]

theorem length_hostValue (host : Bytes) {port : Nat} (hport : port < 65536) :
    (hostValue host port).length ≤ host.length + 6 := by
  unfold hostValue
  split
  · omega
  · have hdec : (dec port).length ≤ 5 := (dec_length_le_iff (by decide)).mpr (by omega)
    have hcolon : (ascii ":").length = 1 := by decide
    rw [List.length_append, List.length_append, fmtD_length, hcolon]
    omega

theorem length_get : (ascii "GET ").length = 4 := by decide

theorem length_line : (ascii " HTTP/1.1\r\nHost: ").length = 17 := by decide

/-- The request line and the Host header of `http_request_init`, as far as they fit. -/
theorem head_httpRequestInit {h h' : Heap} {host : Bytes} {path : Option Bytes}
    {port : UInt16} {r : HttpRequest}
    (hi : httpRequestInit h .get host (intPort port) path = (some r, h'))
    (hhost : host.length ≤ 65535) (hpath : (fmtS path).length ≤ 65535) :
    (∃ z, r.raw.bytes =
        (headLines (47 :: fmtS path) (hostValue host port.toNat) ++ crlf).take 2047 ++ z) ∧
      (0 : UInt8) ∈ r.raw.bytes ∧
      r.length = (headLines (47 :: fmtS path) (hostValue host port.toNat)).length + 2 := by
  have htext : ([] ++ ascii "GET") ++ (ascii " /" ++ fmtS path ++
      ascii " HTTP/1.1\r\nHost: " ++ hostValue host port.toNat ++ ascii "\r\n\r\n") =
        headLines (47 :: fmtS path) (hostValue host port.toNat) ++ crlf := by
    have hget : ascii "GET " = ascii "GET" ++ ascii " " := by decide +kernel
    have hslash : ascii " /" = ascii " " ++ [47] := by decide +kernel
    unfold headLines
    rw [hget, hslash, crlf_crlf]
    simp only [List.append_assoc, List.nil_append, List.cons_append]
  unfold httpRequestInit at hi
  simp only [hostValue_toInt] at hi
  rw [toInt_intPort] at hi
  split at hi
  · cases hi
  · rename_i r₀ h₀ hc
    have hname := Holds.append (holds_createRequestHandle hc) (x := ascii "GET") (by decide)
    obtain ⟨hr, -⟩ := Prod.mk.inj hi
    obtain rfl := Option.some.inj hr
    obtain ⟨hraw, h0⟩ := append_cut (x := ascii " /" ++ fmtS path ++
      ascii " HTTP/1.1\r\nHost: " ++ hostValue host port.toNat ++ ascii "\r\n\r\n") hname (by decide)
    rw [htext] at hraw
    refine ⟨hraw, h0, ?_⟩
    have hlen := congrArg List.length htext
    rw [List.length_append, @List.length_append _ _ crlf] at hlen
    have hshort := length_hostValue host port.toNat_lt
    have hcrlf : crlf.length = 2 := by decide
    have hline : (headLines (47 :: fmtS path) (hostValue host port.toNat)).length ≤ 200000 := by
      unfold headLines
      simp only [List.length_append, List.length_cons, length_get, length_line, hcrlf]
      omega
    refine (append_length (x := ascii " /" ++ fmtS path ++ ascii " HTTP/1.1\r\nHost: " ++
      hostValue host port.toNat ++ ascii "\r\n\r\n")).trans ?_
    rw [hname.length, hlen, hcrlf, Nat.mod_eq_of_lt (by omega)]

theorem length_handshakeAdds {key : Bytes} (h : key.length ≤ 256) :
    ((handshakeAdds key).map HttpAdd.part).flatten.length ≤ 1000 := by
  have h₁ : (HttpAdd.part (.generic (ascii "Upgrade") (ascii "websocket"))).length = 20 := by
    decide +kernel
  have h₂ : (HttpAdd.part (.generic (ascii "Connection") (ascii "Upgrade"))).length = 21 := by
    decide +kernel
  have h₃ : (HttpAdd.part (.generic (ascii "Sec-WebSocket-Version") (ascii "13"))).length = 27 := by
    decide +kernel
  have hname : (ascii "Sec-WebSocket-Key").length = 17 := by decide +kernel
  have hcolon : (ascii ": ").length = 2 := by decide +kernel
  have hcrlf : crlf.length = 2 := by decide
  have hkey : (HttpAdd.part (.generic (ascii "Sec-WebSocket-Key") key)).length = key.length + 21 := by
    simp only [HttpAdd.part, List.length_append, hname, hcolon, hcrlf]
    omega
  simp only [handshakeAdds, List.map_cons, List.map_nil, List.flatten_cons, List.flatten_nil,
    List.length_append, h₁, h₂, h₃, hkey, List.length_nil]
  omega

/-- **What the handshake request starts with.** -/
theorem head_handshakeRequest {w : World} {url : UrlData} {q : HttpRequest}
    (hq : handshakeRequest w url = some q) (hhost : url.host.length ≤ 65535)
    (hpath : (fmtS url.path).length ≤ 65535) :
    (∃ z, q.raw.bytes = (headLines (47 :: fmtS url.path)
        (hostValue url.host w.ws.nPort.toNat)).take 2047 ++ z) ∧
      (0 : UInt8) ∈ q.raw.bytes ∧
      (headLines (47 :: fmtS url.path) (hostValue url.host w.ws.nPort.toNat)).length ≤ q.length ∧
      q.length ≤
        (headLines (47 :: fmtS url.path) (hostValue url.host w.ws.nPort.toNat)).length + 1002 := by
  obtain ⟨r, hr, rfl⟩ := Option.map_eq_some_iff.mp hq
  obtain ⟨⟨z, hz⟩, h0, hlen⟩ :=
    head_httpRequestInit (Prod.ext hr rfl) hhost hpath
  generalize hlines : headLines (47 :: fmtS url.path) (hostValue url.host w.ws.nPort.toNat) = lines
    at hz hlen ⊢
  have hcrlf : crlf.length = 2 := by decide
  have hshort : lines.length ≤ 200000 := by
    have hvalue := length_hostValue url.host w.ws.nPort.toNat_lt
    rw [← hlines]
    unfold headLines
    simp only [List.length_append, List.length_cons, length_get, length_line, hcrlf]
    omega
  have hparts : ((handshakeAdds w.drawKey.ws.webSocketKey.text).map HttpAdd.part).flatten.length ≤
      1000 := by
    have hkey := w.drawKey.ws.webSocketKey.length_text_le
    exact length_handshakeAdds hkey
  obtain ⟨htake, hzero, hgrows⟩ := @addAll_keeps r (min 2047 lines.length)
    (handshakeAdds w.drawKey.ws.webSocketKey.text) (by omega) (by omega) h0
  refine ⟨⟨(addAll r (handshakeAdds w.drawKey.ws.webSocketKey.text)).1.raw.bytes.drop
    (min 2047 lines.length), ?_⟩, hzero, by omega, by omega⟩
  have hfirst : lines.take 2047 = r.raw.bytes.take (min 2047 lines.length) := by
    rw [hz, List.take_append_of_le_length (by rw [List.length_take, List.length_append]; omega),
      List.take_take, List.take_append_of_le_length (by omega), Nat.min_right_comm, Nat.min_self,
      ← List.take_eq_take_min]
  rw [hfirst, ← htake, List.take_append_drop]

/-! ## Texts that agree as far as both go -/

/-- One text is the start of the other. -/
def Agree (a b : Bytes) : Prop := a <+: b ∨ b <+: a

theorem Agree.cancel {a b : Bytes} (x : Bytes) (h : Agree (x ++ a) (x ++ b)) : Agree a b :=
  h.imp (List.prefix_append_right_inj x).mp (List.prefix_append_right_inj x).mp

theorem Agree.head {a b : Bytes} {c d : UInt8} (h : Agree (c :: a) (d :: b)) : c = d := by
  rcases h with h | h
  · exact (List.cons_prefix_cons.mp h).1
  · exact (List.cons_prefix_cons.mp h).1.symm

theorem Agree.tail {a b : Bytes} {c d : UInt8} (h : Agree (c :: a) (d :: b)) : Agree a b :=
  h.imp (fun h => (List.cons_prefix_cons.mp h).2) fun h => (List.cons_prefix_cons.mp h).2

/-- Two numbers, each up to its line end. -/
theorem Agree.digits {ds es a b : Bytes} (hd : ∀ c ∈ ds, isDigit c = true)
    (he : ∀ c ∈ es, isDigit c = true) (h : Agree (ds ++ 13 :: a) (es ++ 13 :: b)) : ds = es := by
  have h13 : isDigit 13 = false := by decide
  induction ds generalizing es with
  | nil =>
    cases es with
    | nil => rfl
    | cons e es =>
      have he13 := he e List.mem_cons_self
      rw [← Agree.head h, h13] at he13
      cases he13
  | cons d ds ih =>
    cases es with
    | nil =>
      have hd13 := hd d List.mem_cons_self
      rw [Agree.head h, h13] at hd13
      cases hd13
    | cons e es =>
      rw [Agree.head h, ih (fun c hc => hd c (List.mem_cons_of_mem _ hc))
        (fun c hc => he c (List.mem_cons_of_mem _ hc)) (Agree.tail h)]

/-- What stands at the start of `raw`, with no NUL in it, agrees with what was printed there. -/
theorem agree_of_raw {E W raw : Bytes} {z : Bytes} (hlen : raw.length = 2048)
    (hE : E <+: raw) (h0 : (0 : UInt8) ∉ E) (hraw : raw = W.take 2047 ++ z)
    (hzero : (0 : UInt8) ∈ raw) : E.length ≤ 2047 ∧ Agree E W := by
  have hshort : E.length ≤ 2047 := by
    by_contra hlong
    have hall : E = raw := hE.eq_of_length (by have := hE.length_le; omega)
    exact h0 (hall ▸ hzero)
  refine ⟨hshort, ?_⟩
  have hW : W.take 2047 <+: raw := ⟨z, hraw.symm⟩
  rcases List.prefix_or_prefix_of_prefix hE hW with h | h
  · exact .inl (h.trans (List.take_prefix _ _))
  · rcases Nat.le_or_le W.length 2047 with hle | hle
    · rw [List.take_of_length_le hle] at h
      exact .inr h
    · have heq : W.take 2047 = E := h.eq_of_length (by
        have := h.length_le
        rw [List.length_take] at this ⊢
        omega)
      exact .inl (heq ▸ List.take_prefix _ _)

/-! ## The port of the client -/

/-- A 16-bit length that cuts a number takes a digit from it at least. -/
theorem decVal_cut16 (ds : Bytes) :
    cut16 ds = ds ∨ 10 * decVal (cut16 ds) ≤ decVal ds := by
  have hsplit : decVal ds = decVal (cut16 ds) * 10 ^ (ds.drop (ds.length % 65536)).length +
      decVal (ds.drop (ds.length % 65536)) := by
    rw [cut16, ← decVal_append, List.take_append_drop]
  rcases Nat.lt_or_ge (ds.length % 65536) ds.length with hlt | hge
  · refine .inr ?_
    obtain ⟨n, hn⟩ : ∃ n, (ds.drop (ds.length % 65536)).length = n + 1 :=
      ⟨ds.length - ds.length % 65536 - 1, by rw [List.length_drop]; omega⟩
    rw [hn, pow_succ] at hsplit
    have hpow : 1 ≤ 10 ^ n := Nat.one_le_pow _ _ (by decide)
    have hle : decVal (cut16 ds) * 1 ≤ decVal (cut16 ds) * 10 ^ n := Nat.mul_le_mul_left _ hpow
    rw [← Nat.mul_assoc] at hsplit
    omega
  · exact .inl (List.take_of_length_le hge)

theorem decVal_cut16_le (ds : Bytes) : decVal (cut16 ds) ≤ decVal ds := by
  rcases decVal_cut16 ds with h | h
  · rw [h]
  · omega

theorem atoi_of_digits {ds : Bytes} (hds : ∀ c ∈ ds, isDigit c = true)
    (hle : decVal ds ≤ 2147483647) : atoi ds = decVal ds := by
  rcases eq_or_ne ds [] with rfl | hne
  · rfl
  · have hatoi := @atoi_digits ds [] hne hds rfl hle
    rwa [List.append_nil] at hatoi

/-- The port stored for what the URL has as its port. -/
theorem toNat_portText {ds : Bytes} (hds : ∀ c ∈ ds, isDigit c = true) (hle : decVal ds ≤ 65535) :
    (UInt16.ofInt (atoi (cut16 ds))).toNat = decVal (cut16 ds) := by
  have hcut := decVal_cut16_le ds
  have hdigits : ∀ c ∈ cut16 ds, isDigit c = true := fun c hc => hds c (List.mem_of_mem_take hc)
  rw [atoi_of_digits hdigits (by omega)]
  show (UInt16.ofNat ((decVal (cut16 ds) : Int) % 2 ^ 16).toNat).toNat = _
  rw [UInt16.toNat_ofNat']
  omega

/-- The schemes of a WebSocket. -/
def UrlParts.IsWebSocket (p : UrlParts) : Prop :=
  p.scheme.map toLower = ascii "ws" ∨ p.scheme.map toLower = ascii "wss"

theorem nPort_manageUrl {p : UrlParts} {r : UrlRecord} {c : Client} (hp : p.IsWebSocket)
    (hr : r.parts = p.lower.cut) :
    (manageUrl c r.data).nPort = match p.port with
      | some ds => UInt16.ofInt (atoi (cut16 ds))
      | none => UInt16.ofNat p.defaultPort := by
  have hscheme : r.data.scheme = cut16 (p.scheme.map toLower) := congrArg UrlParts.scheme hr
  have hport : r.data.port = p.port.map cut16 := congrArg UrlParts.port hr
  unfold manageUrl UrlParts.defaultPort
  rw [hscheme, hport]
  rcases hp with hs | hs
  · have hne : ¬ strcmp (cut16 (ascii "ws")) (ascii "wss") = 0 := by decide +kernel
    have heq : strcmp (cut16 (ascii "ws")) (ascii "ws") = 0 := by decide +kernel
    have hother : ¬ ascii "ws" = ascii "wss" := by decide +kernel
    rw [hs, if_neg hne, if_pos heq, if_neg hother]
    cases p.port with
    | none => rfl
    | some ds => rfl
  · have heq : strcmp (cut16 (ascii "wss")) (ascii "wss") = 0 := by decide +kernel
    rw [hs, if_pos heq, if_pos rfl]
    cases p.port with
    | none => rfl
    | some ds => rfl

theorem defaultPort_eq (p : UrlParts) : p.defaultPort = 80 ∨ p.defaultPort = 443 := by
  unfold UrlParts.defaultPort
  split
  · exact .inr rfl
  · exact .inl rfl

/-! ## Which URLs the request keeps -/

/-- A port that reaches the Host header. -/
structure UrlParts.PortKept (p : UrlParts) (ds : Bytes) : Prop where
  ne : ds ≠ []
  digits : ∀ c ∈ ds, isDigit c = true
  small : decVal ds ≤ 65535
  uncut : decVal (cut16 ds) = decVal ds
  printed : decVal ds = 80 → p.defaultPort = 80

/-- The URLs whose target and port are kept: a path, no query, a port as above if any, and two
lines that fit into `raw`. -/
structure UrlParts.Kept (p : UrlParts) : Prop where
  path : p.path ≠ none
  query : p.query = none
  port : ∀ ds ∈ p.port, p.PortKept ds
  fits : (headLines p.requestTarget (hostValue p.host (p.effectivePort.getD 0))).length ≤
    requestFixedLenght - 1

section Target

variable {p : UrlParts} {r : UrlRecord} {w : World} {c : Client}

/-- The port of the client is that of the URL. -/
theorem effectivePort_eq (hport : ∀ ds ∈ p.port, p.PortKept ds) (hp : p.IsWebSocket)
    (hr : r.parts = p.lower.cut) (hn : w.ws.nPort = (manageUrl c r.data).nPort) :
    p.effectivePort = some w.ws.nPort.toNat ∧ (w.ws.nPort.toNat = 80 → p.defaultPort = 80) := by
  rw [hn, nPort_manageUrl hp hr]
  unfold UrlParts.effectivePort
  cases hpo : p.port with
  | none =>
    have htoNat : (UInt16.ofNat p.defaultPort).toNat = p.defaultPort := by
      rcases defaultPort_eq p with h | h <;> rw [h] <;> rfl
    dsimp only
    rw [htoNat]
    exact ⟨rfl, id⟩
  | some ds =>
    have hk := hport ds hpo
    dsimp only
    rw [toNat_portText hk.digits hk.small, hk.uncut]
    refine ⟨?_, hk.printed⟩
    cases ds with
    | nil => exact absurd rfl hk.ne
    | cons d ds => exact if_pos (List.all_eq_true.mpr hk.digits)

theorem length_cut16 (s : Bytes) : (cut16 s).length ≤ 65535 := by
  rw [cut16, List.length_take]
  omega

/-- What the request for a record starts with. -/
theorem head_record {q : HttpRequest} (hr : r.parts = p.lower.cut)
    (hq : handshakeRequest w r.data = some q) :
    (∃ z, q.raw.bytes = (headLines (47 :: fmtS (p.path.map cut16))
        (hostValue (cut16 p.host) w.ws.nPort.toNat)).take 2047 ++ z) ∧
      (0 : UInt8) ∈ q.raw.bytes ∧
      (headLines (47 :: fmtS (p.path.map cut16))
        (hostValue (cut16 p.host) w.ws.nPort.toNat)).length ≤ q.length ∧
      q.length ≤ (headLines (47 :: fmtS (p.path.map cut16))
        (hostValue (cut16 p.host) w.ws.nPort.toNat)).length + 1002 := by
  have hhost : r.data.host = cut16 p.host := congrArg UrlParts.host hr
  have hpath : r.data.path = p.path.map cut16 := congrArg UrlParts.path hr
  rw [← hhost, ← hpath]
  refine head_handshakeRequest hq ?_ ?_
  · rw [hhost]
    exact length_cut16 _
  · rw [hpath]
    cases p.path with
    | none => decide +kernel
    | some path => exact length_cut16 path

theorem length_headLines (t v : Bytes) : (headLines t v).length = t.length + v.length + 23 := by
  have hcrlf : crlf.length = 2 := by decide
  unfold headLines
  simp only [List.length_append, length_get, length_line, hcrlf]
  omega

theorem length_le_hostValue (host : Bytes) (n : Nat) : host.length ≤ (hostValue host n).length := by
  unfold hostValue
  split
  · exact Nat.le_refl _
  · rw [List.append_assoc, List.length_append]
    omega

/-- The Host header names the host and the port. -/
theorem namedBy_hostValue {n : Nat} (heff : p.effectivePort = some n)
    (h80 : n = 80 → p.defaultPort = 80) : p.NamedBy (hostValue p.host n) := by
  refine ⟨n, heff, ?_⟩
  have hcolon : ascii ":" = [58] := by decide
  unfold hostValue
  split
  · rename_i hn
    have hn80 : n = 80 := by omega
    exact .inl ⟨rfl, hn80.trans (h80 hn80).symm⟩
  · refine .inr ⟨fmtD 0 n, fmtD_ne_nil 0 n, fun c hc => isDigit_of_mem_fmtD hc, ?_, decVal_fmtD 0 n⟩
    rw [hcolon, List.append_assoc, List.singleton_append]

/-- **A kept URL has its target in the request.** -/
theorem targets_of_kept {q : HttpRequest} (hk : p.Kept) (hp : p.IsWebSocket)
    (hr : r.parts = p.lower.cut) (hn : w.ws.nPort = (manageUrl c r.data).nPort)
    (hq : handshakeRequest w r.data = some q) :
    Targets p q ∧ 0 < q.length ∧ q.length < 65536 := by
  obtain ⟨heff, h80⟩ := effectivePort_eq hk.port hp hr hn
  have hfits := hk.fits
  rw [heff, Option.getD_some] at hfits
  obtain ⟨path, hpath⟩ := Option.ne_none_iff_exists'.mp hk.path
  have htarget : p.requestTarget = 47 :: path := by
    rw [UrlParts.requestTarget, hpath, hk.query]
    simp [behind]
  obtain ⟨⟨z, hz⟩, -, hlen, hshort⟩ := head_record hr hq
  have hbound := hfits
  simp only [length_headLines, htarget, List.length_cons, requestFixedLenght] at hbound
  have hvalue := length_le_hostValue p.host w.ws.nPort.toNat
  rw [hpath, Option.map_some, cut16_of_length (s := path) (by omega),
    cut16_of_length (s := p.host) (by omega)] at hz hlen hshort
  have hline : fmtS (some path) = path := rfl
  rw [hline, ← htarget] at hz hlen hshort
  have hsize := hlen
  rw [length_headLines] at hsize
  have hroom := hshort.trans (Nat.add_le_add_right hfits 1002)
  simp only [requestFixedLenght] at hroom
  refine ⟨⟨hostValue p.host w.ws.nPort.toNat,
    z.take (q.length - (headLines p.requestTarget
      (hostValue p.host w.ws.nPort.toNat)).length), ?_, namedBy_hostValue heff h80⟩,
    by omega, by omega⟩
  have hall := List.take_of_length_le (i := 2047) hfits
  rw [hz, hall, List.take_append, List.take_of_length_le hlen]

/-! ### The other way round -/

/-- No NUL comes from the URL. -/
theorem nul_notMem_requestTarget {url : Bytes} (hs : scan (cstr url) = some p) :
    (0 : UInt8) ∉ p.requestTarget ∧ (0 : UInt8) ∉ p.host := by
  have htext := text_scan hs
  have hnone : (0 : UInt8) ∉ p.text := htext ▸ zero_notMem_cstr url
  simp only [UrlParts.text, List.mem_append, not_or] at hnone
  obtain ⟨⟨⟨-, hhost⟩, -⟩, htarget⟩ := hnone
  refine ⟨?_, hhost⟩
  unfold UrlParts.requestTarget
  cases hpath : p.path with
  | none =>
    rw [((scan_shape hs).2.2 hpath).1]
    decide
  | some path =>
    rw [hpath] at htarget
    simp only [target, List.mem_append, not_or] at htarget
    exact fun h => (List.mem_append.mp h).elim htarget.1.1 htarget.1.2

/-- Nor from what names it. -/
theorem nul_notMem_headLines {url v : Bytes} (hs : scan (cstr url) = some p) (hv : p.NamedBy v) :
    (0 : UInt8) ∉ headLines p.requestTarget v := by
  obtain ⟨htarget, hhost⟩ := nul_notMem_requestTarget hs
  have hvalue : (0 : UInt8) ∉ v := by
    obtain ⟨n, -, ⟨rfl, -⟩ | ⟨ds, -, hds, rfl, -⟩⟩ := hv
    · exact hhost
    · intro h0
      rcases List.mem_append.mp h0 with h0 | h0
      · exact hhost h0
      · rcases List.mem_cons.mp h0 with h0 | h0
        · exact absurd h0 (by decide)
        · exact absurd (hds 0 h0) (by decide)
  have hget : (0 : UInt8) ∉ ascii "GET " := by decide
  have hline : (0 : UInt8) ∉ ascii " HTTP/1.1\r\nHost: " := by decide
  have hcrlf : (0 : UInt8) ∉ crlf := by decide
  unfold headLines
  simp only [List.mem_append, not_or]
  exact ⟨⟨⟨⟨hget, htarget⟩, hline⟩, hvalue⟩, hcrlf⟩

/-- **Request lines that agree**: there is a path and no query. -/
theorem line_of_agree {url v v' : Bytes} (hs : scan (cstr url) = some p)
    (hcut : p.path.map cut16 = p.path)
    (h : Agree (headLines p.requestTarget v) (headLines (47 :: fmtS (p.path.map cut16)) v')) :
    p.path ≠ none ∧ p.query = none ∧ Agree (v ++ crlf) (v' ++ crlf) := by
  have hline : ascii " HTTP/1.1\r\nHost: " = 32 :: ascii "HTTP/1.1\r\nHost: " := by decide +kernel
  have hnull : ascii "(null)" = 40 :: ascii "null)" := by decide +kernel
  rw [hcut] at h
  unfold headLines UrlParts.requestTarget at h
  rw [hline] at h
  simp only [List.append_assoc, List.cons_append] at h
  replace h := Agree.tail (h.cancel (ascii "GET "))
  cases hpath : p.path with
  | none =>
    rw [hpath, ((scan_shape hs).2.2 hpath).1] at h
    unfold fmtS at h
    rw [Option.getD_none, Option.getD_none, hnull] at h
    exact absurd (Agree.head h) (by decide)
  | some path =>
    rw [hpath] at h
    replace h := h.cancel path
    cases hquery : p.query with
    | some query =>
      rw [hquery] at h
      exact absurd (Agree.head h) (by decide)
    | none =>
      rw [hquery] at h
      exact ⟨Option.some_ne_none path, rfl, (Agree.tail h).cancel _⟩

/-- **Host headers that agree**: the port is left out on both sides, or is one number. -/
theorem value_of_agree {v : Bytes} {n : Nat} (hv : p.NamedBy v)
    (h : Agree (v ++ crlf) (hostValue p.host n ++ crlf)) :
    v = hostValue p.host n ∧ ∃ m, p.effectivePort = some m ∧
      ((n = 80 ∧ m = p.defaultPort) ∨ (n ≠ 80 ∧ m = n)) := by
  have hcolon : ascii ":" = [58] := by decide
  have hcrlf : crlf = 13 :: [10] := by decide
  obtain ⟨m, hm, ⟨rfl, hdefault⟩ | ⟨ds, hne, hds, rfl, hval⟩⟩ := hv
  · by_cases hn : n = 80
    · refine ⟨(if_pos (by omega)).symm, m, hm, .inl ⟨hn, hdefault⟩⟩
    · unfold hostValue at h
      rw [if_neg (by omega), hcolon, hcrlf, List.append_assoc, List.append_assoc] at h
      exact absurd (Agree.head (h.cancel p.host)) (by decide)
  · unfold hostValue at h ⊢
    by_cases hn : n = 80
    · rw [if_pos (by omega), hcrlf, List.append_assoc] at h
      exact absurd (Agree.head (h.cancel p.host)) (by decide)
    · rw [if_neg (by omega), hcolon, hcrlf, List.append_assoc, List.append_assoc,
        List.append_assoc] at h
      have heq := Agree.digits hds (fun c hc => isDigit_of_mem_fmtD hc)
        (Agree.tail (h.cancel p.host))
      refine ⟨?_, m, hm, .inr ⟨hn, ?_⟩⟩
      · rw [if_neg (by omega), hcolon, heq, List.append_assoc, List.singleton_append]
      · rw [← hval, heq, decVal_fmtD]

/-- **The port, when the Host headers agree.** -/
theorem portKept_of_effective {m : Nat} (hp : p.IsWebSocket) (hr : r.parts = p.lower.cut)
    (hn : w.ws.nPort = (manageUrl c r.data).nPort) (hm : p.effectivePort = some m)
    (hcase : (w.ws.nPort.toNat = 80 ∧ m = p.defaultPort) ∨
      (w.ws.nPort.toNat ≠ 80 ∧ m = w.ws.nPort.toNat)) :
    ∀ ds ∈ p.port, p.PortKept ds := by
  intro ds hds
  have hlt := w.ws.nPort.toNat_lt
  rw [nPort_manageUrl hp hr, Option.mem_def.mp hds] at hn
  dsimp only at hn
  have hdefault := defaultPort_eq p
  unfold UrlParts.effectivePort at hm
  rw [Option.mem_def.mp hds] at hm
  cases hds' : ds with
  | nil =>
    rw [hds'] at hm hn
    have hzero : w.ws.nPort.toNat = 0 := by
      rw [hn]
      decide +kernel
    have hmd : p.defaultPort = m := Option.some.inj hm
    omega
  | cons d ds' =>
    rw [hds'] at hm
    dsimp only at hm
    split at hm
    · rename_i hall
      have hval : decVal (d :: ds') = m := Option.some.inj hm
      have hdigits : ∀ c ∈ d :: ds', isDigit c = true := List.all_eq_true.mp hall
      have hsmall : decVal (d :: ds') ≤ 65535 := by omega
      have hcut := toNat_portText hdigits hsmall
      rw [← hds', ← hn, hds'] at hcut
      have hdrop := decVal_cut16 (d :: ds')
      refine ⟨List.cons_ne_nil d ds', hdigits, hsmall, ?_, fun h80 => ?_⟩
      · rcases hdrop with heq | hle
        · rw [heq]
        · omega
      · omega
    · cases hm

/-- **A target in the request is that of a kept URL.** -/
theorem kept_of_targets {url : Bytes} {q : HttpRequest} (hs : scan (cstr url) = some p)
    (hp : p.IsWebSocket) (hr : r.parts = p.lower.cut)
    (hn : w.ws.nPort = (manageUrl c r.data).nPort) (hq : handshakeRequest w r.data = some q)
    (ht : Targets p q) : p.Kept := by
  obtain ⟨v, rest, htake, hv⟩ := ht
  obtain ⟨⟨z, hz⟩, hzero, -, -⟩ := head_record hr hq
  have hE : headLines p.requestTarget v <+: q.raw.bytes :=
    (List.prefix_append _ rest).trans (htake ▸ List.take_prefix _ _)
  obtain ⟨hshort, hagree⟩ :=
    agree_of_raw q.raw.length_eq hE (nul_notMem_headLines hs hv) hz hzero
  have hbound := hshort
  rw [length_headLines] at hbound
  -- what fits is not cut
  have hhost : cut16 p.host = p.host := by
    refine cut16_of_length ?_
    obtain ⟨-, -, ⟨rfl, -⟩ | ⟨ds, -, -, rfl, -⟩⟩ := hv
    · omega
    · rw [List.length_append] at hbound
      omega
  have hpath : p.path.map cut16 = p.path := by
    unfold UrlParts.requestTarget at hbound
    cases hpa : p.path with
    | none => rfl
    | some path =>
      rw [hpa] at hbound
      simp only [Option.getD_some, List.length_append, List.length_cons] at hbound
      rw [Option.map_some, cut16_of_length (by omega)]
  obtain ⟨hsome, hquery, hline⟩ := line_of_agree hs hpath hagree
  rw [hhost] at hline
  obtain ⟨heq, m, hm, hcase⟩ := value_of_agree hv hline
  have hport := portKept_of_effective hp hr hn hm hcase
  refine ⟨hsome, hquery, hport, ?_⟩
  rw [(effectivePort_eq hport hp hr hn).1, Option.getD_some, ← heq]
  exact hshort

end Target

/-- A client that has taken the URL of a record. -/
def worldAsked (r : UrlRecord) : World :=
  let w := worldInit (fun _ => true) fun _ => 0
  { w with ws := manageUrl w.ws r.data }

theorem exists_handshakeRequest (r : UrlRecord) :
    ∃ q, handshakeRequest (worldAsked r) r.data = some q := by
  obtain ⟨q, h', hq⟩ := exists_request .get r.data.host (intPort (worldAsked r).ws.nPort) r.data.path
  refine ⟨(addAll q (handshakeAdds (worldAsked r).drawKey.ws.webSocketKey.text)).1, ?_⟩
  exact Option.map_eq_some_iff.mpr ⟨q, congrArg Prod.fst hq, rfl⟩

theorem exists_urlParse {url : Bytes}
    (h : (urlParse (.empty fun _ => true) url).1.isSome = true) :
    ∃ r h', urlParse (.empty fun _ => true) url = (some r, h') := by
  obtain ⟨r, hr⟩ := Option.isSome_iff_exists.mp h
  exact ⟨r, _, Prod.ext hr rfl⟩

/-- A client that has taken the URL of a record, with a connection. -/
def worldConnected (r : UrlRecord) : World :=
  { worldAsked r with slots := fun _ => { Slot.zero with state := .connectionStablished } }

end Rastreo.Net
