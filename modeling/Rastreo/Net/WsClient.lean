import Rastreo.Net.WsFrames
import Rastreo.Net.HttpRequest

/-!
# The web socket client: sending, the handshake and the task (`ws_client.c`)

* `wsClientSend`, `wsClientOpen`, `wsClientClose`, `wsClientSetPing`: what the application calls.
* `wsClientTask`: one pass of the task. The HTTP response parser and SHA-1 are those of `Libs`.
* `sockCb`: the callback of the TCP client.
* `step`: the system, of the client, the TCP client and the network.
-/

namespace Rastreo.Net

open Rastreo.Lib

/-! ## `ws_client_send` -/

/-- An error of `ws_client_send`: the callback, then `WS_STATE_ERROR`. -/
def World.sendError (w : World) (extraCode : Int) : World := (w.callOnError 1 extraCode).setState .error

/-- The extended length: byte `len_size - i - 1` of it goes to `2 + i`. -/
def storeLength {n : Nat} (data : Buf n) (payloadLenSmall payloadLen : Nat) : Option (Buf n) :=
  if payloadLenSmall = 126 then data.store 2 (be 2 (payloadLen % 65536))
  else if payloadLenSmall = 127 then data.store 2 (be 8 (payloadLen % 18446744073709551616))
  else some data

/-- The frame of `ws_client_send` in its `n` bytes; `none` when a write is out of bounds. -/
def buildFrame (n payloadLenSmall payloadOffset : Nat) (mask strdata : Bytes) : Option (Buf n) := do
  let data : Buf n ← Buf.clear.store 0 [0x81]
  let data ← data.store 1 [UInt8.ofNat (payloadLenSmall ||| 0x80)]
  let data ← storeLength data payloadLenSmall strdata.length
  let data ← data.store (payloadOffset - 4) mask
  let data ← data.store payloadOffset strdata
  data.store payloadOffset (((data.bytes.drop payloadOffset).take strdata.length).mapIdx
    fun i b => b ^^^ mask.getD (i % 4) 0)

/-- The frame size before it is cut to 32 bits, the seven bits of the length, and the offset of
the payload. -/
def frameLayout (payloadLen : Nat) : Nat × Nat × Nat :=
  if payloadLen ≤ 125 then (6 + payloadLen, payloadLen, 6)
  else if payloadLen ≤ 65535 then (8 + payloadLen, 126, 8)
  else (14 + payloadLen, 127, 14)

/-- The frame built in `data` is handed to `tcp_client_send`, and `data` released. -/
def sendData {n : Nat} (w : World) (block : Block) (built : Option (Buf n)) : Int × World :=
  let (res, h, slots) := tcpClientSend w.heap w.slots w.ws.curSocketId (built.getD .clear).bytes n
  let w := { w with heap := h, slots := slots, overrun := w.overrun || built.isNone }
  let (ret, w) := if res = .success then (0, w) else (-1, w.sendError 4)
  (ret, { w with heap := dmemRelease w.heap (some block) })

/-- **`ws_client_send`**; `none` is a NULL pointer. -/
def wsClientSend (w : World) (strdata : Option Bytes) : Int × World :=
  if w.ws.flags.clientSentCloseFrame then (-1, w.sendError 0)
  else if w.ws.flags.clientConnecting then (-1, w.sendError 1)
  else
    match strdata with
    | none => (-1, w.sendError 2)
    | some strdata =>
      let (mask, w) := w.drawMask
      let (size, payloadLenSmall, payloadOffset) := frameLayout strdata.length
      let frameSize := size % 4294967296
      match dmemCreate w.heap frameSize with
      | (none, h) => (-1, { w with heap := h }.sendError 4)
      | (some block, h) =>
        sendData { w with heap := h } block
          (buildFrame frameSize payloadLenSmall payloadOffset mask strdata)

/-! ## The handshake -/

/-- What `phr_parse_response` gives: the status and the headers in order. -/
structure HttpResponse where
  status : Nat
  headers : List (Bytes × Bytes)
  deriving DecidableEq, Repr

/-- What the client uses of other code: `phr_parse_response` on at most `HTTP_MAX_RESPONSE_HEADERS`
headers (`none` is a negative result), and SHA-1. -/
structure Libs where
  phrParseResponse : Bytes → Option HttpResponse
  sha1 : Bytes → Bytes

/-- The character of a hextet. -/
def hextetChar (n : Nat) : UInt8 :=
  if n ≤ 25 then UInt8.ofNat (n + 65)
  else if n ≤ 51 then UInt8.ofNat (n - 26 + 97)
  else if n ≤ 61 then UInt8.ofNat (n - 52 + 48)
  else if n = 62 then 43
  else if n = 63 then 47
  else 61

/-- `TCPIP_Helper_Base64Encode`, into a destination that is long enough. -/
def base64Encode : Bytes → Bytes
  | [] => []
  | [a] => [hextetChar (a.toNat / 4), hextetChar (a.toNat % 4 * 16), 61, 61]
  | [a, b] =>
    [hextetChar (a.toNat / 4), hextetChar (a.toNat % 4 * 16 + b.toNat / 16),
      hextetChar (b.toNat % 16 * 4), 61]
  | a :: b :: c :: r =>
    hextetChar (a.toNat / 4) :: hextetChar (a.toNat % 4 * 16 + b.toNat / 16) ::
      hextetChar (b.toNat % 16 * 4 + c.toNat / 64) :: hextetChar (c.toNat % 64) :: base64Encode r

/-- `UUID`. -/
def uuid : Bytes := ascii "258EAFA5-E914-47DA-95CA-C5AB0DC85B11"

/-- `perfom_expected_key`: `snprintf` keeps 255 bytes, SHA-1 gives 20. -/
def perfomExpectedKey (libs : Libs) (key : Bytes) : Bytes :=
  base64Encode ((libs.sha1 ((key ++ uuid).take 255)).take 20)

/-- One header; `expectedBase64` is an array that was not initialised, so that after the expected
key it holds what was on the stack. -/
def headerFlags (expectedBase64 : Bytes) (flags : Flags) (h : Bytes × Bytes) : Flags :=
  if strncmp h.1.length (ascii "Upgrade") h.1 = 0 then
    if strncmp h.2.length (ascii "websocket") h.2 = 0 then { flags with requestHasUpgrade := true }
    else flags
  else if strncmp h.1.length (ascii "Connection") h.1 = 0 then
    if strncmp h.2.length (ascii "upgrade") h.2 = 0 then { flags with requestHasConnection := true }
    else flags
  else if strncmp h.1.length (ascii "Sec-WebSocket-Accept") h.1 = 0 then
    if strncmp h.2.length expectedBase64 h.2 = 0 then { flags with requestValidAccept := true }
    else flags
  else flags

/-- `handshake_response_parse`. -/
def handshakeResponseParse (libs : Libs) (stack : Bytes) (key response : Bytes) (flags : Flags) :
    Flags :=
  match libs.phrParseResponse response with
  | none => flags
  | some r =>
    if r.status = 101 then
      r.headers.foldl (headerFlags (perfomExpectedKey libs key ++ stack))
        { flags with requestValidStatus := true }
    else flags

/-- `strstr (buf, "\r\n\r\n")`: the length of the text up to and including it. -/
def headEnd? (text : Bytes) : Option Nat :=
  ((List.range text.length).find? fun i => (text.drop i).take 4 = [13, 10, 13, 10]).map (· + 4)

/-! ## The task -/

/-- What one pass of the task gets from outside: the core timer, how much the stack hands over, and
what is on the stack of `handshake_response_parse`. -/
structure WsIo where
  now : UInt32
  limit : Nat
  stack : Bytes
  deriving DecidableEq, Repr

/-- `WS_RECEIVE_BUFFER`. -/
abbrev wsReceiveBuffer : Nat := 2048

/-- The bytes a read stores at the start of `recv_buf`. -/
def Client.received (c : Client) (bs : Bytes) : Client :=
  { c with recvBuf := (c.recvBuf.store 0 bs).getD c.recvBuf }

/-- `perform_web_socket_key`. -/
def World.drawKey (w : World) : World :=
  let nonce := (List.range 4).flatMap fun i => leBytes (w.rand (w.draws + i))
  { w with
    draws := w.draws + 4
    ws := { w.ws with
      webSocketKey := (w.ws.webSocketKey.store 0 (base64Encode nonce)).getD w.ws.webSocketKey } }

/-- `url_parse_free` and the other fields of the record apart, `WS_STATE_MANAGE_URL`. -/
def manageUrl (c : Client) (url : UrlData) : Client :=
  let port (default : UInt16) : UInt16 := match url.port with
    | some p => UInt16.ofInt (atoi p)
    | none => default
  if strcmp url.scheme (ascii "wss") = 0 then
    { c with
      state := .openConnection
      nPort := port 443
      flags := { c.flags with clientIsSsl := true } }
  else if strcmp url.scheme (ascii "ws") = 0 then
    { c with state := .openConnection, nPort := port 80 }
  else { c with state := .halt }

/-- `tcp_client_close (curSocketId)`. -/
def World.closeSocket (w : World) : World :=
  { w with slots := (tcpClientClose w.slots w.ws.curSocketId).2 }

/-- `WS_STATE_INIT_HANDSHAKE`. -/
def initHandshake (w : World) (url : UrlData) : World :=
  let w := w.drawKey
  match httpRequestInit w.heap .get url.host (intPort w.ws.nPort) url.path with
  | (none, h) => { w with heap := h }.closeSocket.setState .error
  | (some r, h) =>
    let r := httpRequestAddGeneric r (ascii "Upgrade") (ascii "websocket")
    let r := httpRequestAddGeneric r (ascii "Connection") (ascii "Upgrade")
    let r := httpRequestAddGeneric r (ascii "Sec-WebSocket-Key") w.ws.webSocketKey.text
    let r := httpRequestAddGeneric r (ascii "Sec-WebSocket-Version") (ascii "13")
    let (res, h, slots) := tcpClientSend h w.slots w.ws.curSocketId r.raw.bytes r.length
    let w := { w with
      heap := httpRequestDelete h r
      slots := slots
      overrun := w.overrun || r.overrun || decide (requestFixedLenght < r.length % 65536) }
    if res = .success then
      { w with ws := { w.ws with recvBuf := .clear, state := .waitHandshakeResponse } }
    else w.closeSocket.setState .error

/-- `WS_STATE_WAIT_HANDSHAKE_RESPONSE`. -/
def waitHandshakeResponse (io : WsIo) (w : World) : World :=
  let bs := tcpClientPeekRx w.slots w.ws.curSocketId io.limit (wsReceiveBuffer - 1)
  let w := { w with ws := w.ws.received bs }
  if 4 < bs.length then
    match headEnd? w.ws.recvBuf.text with
    | none => w
    | some t =>
      let (bs, slots) := tcpClientGetRx w.slots w.ws.curSocketId io.limit t
      { w with slots := slots, ws := w.ws.received bs }.setState .waitHandshakeResponseParse
  else w

/-- `WS_STATE_WAIT_HANDSHAKE_RESPONSE_PARSE`. -/
def parseHandshakeResponse (libs : Libs) (io : WsIo) (w : World) : World :=
  let flags := handshakeResponseParse libs io.stack w.ws.webSocketKey.text w.ws.recvBuf.text w.ws.flags
  if flags.requestHasUpgrade && flags.requestHasConnection && flags.requestValidAccept then
    { w with
      ws := { w.ws with
        flags := { flags with clientConnecting := false }
        state := .connectionEstablished }
      calls := if w.ws.onOpen then w.calls ++ [.onOpen] else w.calls }
  else { w with ws := { w.ws with flags := flags } }.closeSocket.setState .error

/-- `WS_STATE_CONNECTION_ESTABLISHED`. -/
def established (io : WsIo) (w : World) : World :=
  let (bs, slots) := tcpClientGetRx w.slots w.ws.curSocketId io.limit (wsReceiveBuffer - 1)
  let w := { w with slots := slots, ws := w.ws.received bs }
  if bs ≠ [] then
    bs.foldl (fun w c => (inData w c).1) { w with ws := { w.ws with ts := io.now } }
  else if 0 < w.ws.activityTimeout ∧ w.ws.activityTimeout < elapsedS io.now w.ws.ts then
    (wsClientSend { w with ws := { w.ws with ts := io.now } } (some w.ws.pingStr.text)).2
  else w

/-- **`ws_client_task`.** -/
def wsClientTask (libs : Libs) (io : WsIo) (w : World) : World :=
  match w.ws.state with
  | .init => w.setState .idle
  | .idle | .waitTcpSocketConnection | .halt => w
  | .manageUrl =>
    match w.ws.urlData with
    | none => { w with overrun := true }
    | some url => { w with ws := manageUrl w.ws url }
  | .openConnection =>
    match w.ws.urlData with
    | none => { w with overrun := true }
    | some url =>
      match tcpClientOpenHost w.slots url.host w.ws.nPort w.ws.flags.clientIsSsl .ws with
      | (.success, slots, bad) =>
        { w with slots := slots, overrun := w.overrun || bad }.setState .waitTcpSocketConnection
      | (_, slots, bad) => { w with slots := slots, overrun := w.overrun || bad }.setState .error
  | .initHandshake =>
    match w.ws.urlData with
    | none => { w with overrun := true }
    | some url => initHandshake w url
  | .waitHandshakeResponse => waitHandshakeResponse io w
  | .waitHandshakeResponseParse => parseHandshakeResponse libs io w
  | .connectionEstablished => established io w
  | .error => w.closeSocket.setState .close
  | .close =>
    let w : World := { w with
      ws := { w.ws with ts := io.now }
      calls := if w.ws.onClose then w.calls ++ [.onClose] else w.calls }
    if w.ws.flags.clientShouldClose then
      { w with ws := { w.ws with urlData := none } }.setState .init
    else w.setState .retry
  | .retry => if 30 < elapsedS io.now w.ws.ts then w.setState .manageUrl else w
  | .null => w.setState .init

section Passes

variable {libs : Libs} {io : WsIo} {w : World}

/-- What `WS_STATE_INIT_HANDSHAKE` makes of the client. -/
theorem initHandshake_ws (w : World) (url : UrlData) : ∃ key buf q,
    (initHandshake w url).ws =
      { w.ws with webSocketKey := key, recvBuf := buf, state := q } ∧
    (q = .waitHandshakeResponse ∨ q = .error) := by
  unfold initHandshake
  dsimp only [World.closeSocket, World.setState]
  split
  · exact ⟨_, _, _, rfl, .inr rfl⟩
  · split
    · exact ⟨_, _, _, rfl, .inl rfl⟩
    · exact ⟨_, _, _, rfl, .inr rfl⟩

theorem wsClientTask_of_waiting (hst : w.ws.state = .waitHandshakeResponse) :
    wsClientTask libs io w = waitHandshakeResponse io w := by
  unfold wsClientTask
  rw [hst]

theorem wsClientTask_of_parsing (hst : w.ws.state = .waitHandshakeResponseParse) :
    wsClientTask libs io w = parseHandshakeResponse libs io w := by
  unfold wsClientTask
  rw [hst]

theorem wsClientTask_of_established (hst : w.ws.state = .connectionEstablished) :
    wsClientTask libs io w = established io w := by
  unfold wsClientTask
  rw [hst]

end Passes

/-! ## The interface -/

/-- `ws_client_init`. -/
def wsClientInit : Client where
  urlData := none
  nPort := 0
  curSocketId := 0
  state := .init
  flags := ⟨false, false, false, false, false, false, false, false⟩
  onOpen := false
  onClose := false
  onMessage := false
  onError := false
  frames := []
  webSocketKey := .clear
  recvBuf := .clear
  ts := 0
  activityTimeout := 0
  pingStr := .clear

/-- Which callbacks `ws_client_open` registers. -/
structure Callbacks where
  onOpen : Bool
  onClose : Bool
  onMessage : Bool
  onError : Bool
  deriving DecidableEq, Repr

/-- `ws_client_open`, by what `url_parse` returns; the result is the handler, `-1` for none. -/
def wsClientOpen (w : World) (url : Option UrlData) (cbs : Callbacks) : Int × World :=
  if w.ws.state = .idle then
    match url with
    | none => (-1, { w with ws := { w.ws with urlData := none } })
    | some url =>
      (0, { w with ws := { w.ws with
        urlData := some url
        flags := { w.ws.flags with clientConnecting := true }
        onOpen := cbs.onOpen
        onClose := cbs.onClose
        onMessage := cbs.onMessage
        onError := cbs.onError
        state := .manageUrl } })
  else (-1, w)

/-- `ws_client_set_ping`: `snprintf` keeps 127 bytes. -/
def wsClientSetPing (w : World) (strPing : Bytes) (pingInterval : UInt32) : World :=
  { w with ws := { w.ws with
    activityTimeout := pingInterval
    pingStr := (w.ws.pingStr.sprintf (strPing.take 127)).getD w.ws.pingStr } }

/-- `ws_client_close`. -/
def wsClientClose (w : World) : World :=
  let w := w.closeSocket
  { w with ws := { w.ws with flags := { w.ws.flags with clientShouldClose := true } } }

/-! ## The system -/

/-- `sock_cb`. -/
def sockCb (sid : Fin tcpClientMaxSockets) (c : Client) : ClientEvent → Client
  | .connected => { c with curSocketId := sid, state := .initHandshake }
  | .tx | .rx => c
  | .disconnected => { c with state := .close }
  | .timeout | .error | .nothing => { c with state := .error }

/-- The pass of `tcp_client_task` over one slot, with the callbacks. -/
def tcpTaskSlot (io : NetIo) (w : World) (sid : Fin tcpClientMaxSockets) : World :=
  let (s, h, es) := (w.slots sid).task io w.heap
  { w with
    slots := Function.update w.slots sid s
    heap := h
    ws := if (w.slots sid).cb = some .ws then es.foldl (sockCb sid) w.ws else w.ws }

/-- `tcp_client_task`. -/
def tcpClientTask (io : Fin tcpClientMaxSockets → NetIo) (w : World) : World :=
  (List.finRange tcpClientMaxSockets).foldl (fun w sid => tcpTaskSlot (io sid) w sid) w

/-- A pass of a task, bytes from the peer, or a call by the application. -/
inductive Event
  | tcpTask (io : Fin tcpClientMaxSockets → NetIo)
  | wsTask (io : WsIo)
  /-- Bytes arrive on the socket of a slot. -/
  | receive (sid : Fin tcpClientMaxSockets) (bs : Bytes)
  | wsOpen (url : Option UrlData) (cbs : Callbacks)
  | wsSend (strdata : Option Bytes)
  | wsSetPing (strPing : Bytes) (pingInterval : UInt32)
  | wsClose

/-- **One event of the system.** -/
def step (libs : Libs) (w : World) : Event → Option World
  | .tcpTask io => some (tcpClientTask io w)
  | .wsTask io => some (wsClientTask libs io w)
  | .receive sid bs => some { w with
      slots := Function.update w.slots sid ((w.slots sid).receive bs) }
  | .wsOpen url cbs => some (wsClientOpen w url cbs).2
  | .wsSend strdata => some (wsClientSend w strdata).2
  | .wsSetPing strPing pingInterval => some (wsClientSetPing w strPing pingInterval)
  | .wsClose => some (wsClientClose w)

/-- After `tcp_client_init` and `ws_client_init`. -/
def worldInit (grants : Nat → Bool) (rand : Nat → UInt32) : World where
  heap := ⟨grants, 0, [], false, false, Nat.zero_le _, nofun⟩
  slots := fun _ => .zero
  ws := wsClientInit
  rand := rand
  draws := 0
  calls := []
  overrun := false

end Rastreo.Net
