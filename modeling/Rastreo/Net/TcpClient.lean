import Rastreo.Net.Lists
import Rastreo.Lib.Buffer

/-!
# The TCP client (`tcp_client.c`)

Three slots, each with its connection's state, its transmit queue and, from the network's side, the
bytes that arrived on its socket and the ones the socket still holds. `NetIo` is what the network
stack answers in one pass over a slot.

* `Slot.task`: the pass of `tcp_client_task` over one slot, with the events it reports to the
  callback. `Slot.txTask` is `tx_task`.
* `tcpClientOpenHost`, `tcpClientOpenIp`, `tcpClientSend`, `tcpClientPeekRx`, `tcpClientGetRx`,
  `tcpClientClose`, `tcpClientReset`: the interface.

A socket's `written` bytes are those `NET_PRES_SocketWrite` took, which is all of them as it is
given no more than the capacity just reported.
-/

namespace Rastreo.Net

open Rastreo.Lib

/-- `TCP_CLIENT_MAX_SOCKETS`. -/
abbrev tcpClientMaxSockets : Nat := 3

instance neZero_sockets : NeZero tcpClientMaxSockets := ⟨Nat.succ_ne_zero 2⟩

/-- `TCP_CLIENT_OP_…`. -/
inductive OpResult
  | success
  | error
  | busy
  | worngParameters
  | worngIdClient
  deriving DecidableEq, Repr

/-- `t_CLIENT_EVENTS`. -/
inductive ClientEvent
  | nothing
  | connected
  | tx
  | rx
  | disconnected
  | timeout
  | error
  deriving DecidableEq, Repr

/-- `t_TCP_CLIENT_STATES`. -/
inductive TcpState
  | idle
  | dnsResolveHostAddress
  | dnsWait
  | dnsTimeout
  | dnsError
  | connectionInit
  | connectionWaitingFor
  | connectionSslNegotiationWait
  | connectionStablished
  | connectionTimeout
  | connectionError
  | connectionClose
  | waitForRetry
  deriving DecidableEq, Repr

/-- `t_STREAMS_STATES`. -/
inductive StreamState
  | idle
  | receiving
  | sending
  | error
  deriving DecidableEq, Repr

/-- Whose callback a slot has: `sock_cb` with the web socket client, or somebody else's. -/
inductive Owner
  | ws
  | other (n : Nat)
  deriving DecidableEq, Repr

/-- `t_TCP_CLIENT_DATA`, and the socket. -/
structure Slot where
  timeout : UInt32
  hostName : Buf 128
  dnsResult : Int
  address : UInt32
  port : UInt16
  hSocket : Int
  tls : Bool
  state : TcpState
  stx : StreamState
  datNode : List Node
  curDataOffset : Nat
  cb : Option Owner
  /-- What the socket holds and nobody has read. -/
  rx : Bytes
  /-- All that arrived on the socket since it was opened. -/
  arrived : Bytes
  /-- All that was written to it. -/
  written : Bytes
  /-- A NULL pointer was used. -/
  fault : Bool
  deriving DecidableEq, Repr

/-- A slot as the program loads it. -/
def Slot.zero : Slot where
  timeout := 0
  hostName := .clear
  dnsResult := 0
  address := 0
  port := 0
  hSocket := 0
  tls := false
  state := .idle
  stx := .idle
  datNode := []
  curDataOffset := 0
  cb := none
  rx := []
  arrived := []
  written := []
  fault := false

/-- What the network stack and the core timer answer in one pass over a slot. -/
structure NetIo where
  now : UInt32
  dnsResolve : Int
  dnsIsResolved : Int
  address : UInt32
  socketOpen : Int
  isConnected : Bool
  encryptSocket : Bool
  isNegotiating : Bool
  isSecure : Bool
  wasReset : Bool
  wasDisconnected : Bool
  writeIsReady : Nat
  deriving DecidableEq, Repr

/-- `TCPIP_DNS_RES_…`, those the code names. -/
def dnsResOk : Int := 0
/-- `TCPIP_DNS_RES_PENDING`. -/
def dnsResPending : Int := 1
/-- `TCPIP_DNS_RES_NAME_IS_IPADDRESS`. -/
def dnsResNameIsIpaddress : Int := 2
/-- `TCPIP_DNS_RES_SERVER_TMO`. -/
def dnsResServerTmo : Int := -5

/-- `INVALID_SOCKET`. -/
def invalidSocket : Int := -1

/-- `ELAPSED_MS`. -/
def elapsedMs (now ts : UInt32) : UInt32 := (now - ts) / 100000

/-- `ELAPSED_S`. -/
def elapsedS (now ts : UInt32) : UInt32 := (now - ts) / 100000000

/-! ## The task -/

namespace Slot

/-- `tx_task`, with the events reported. -/
def txTask (io : NetIo) (h : Heap) (s : Slot) : Slot × Heap × List ClientEvent :=
  match s.stx with
  | .idle =>
    if s.datNode ≠ [] then ({ s with curDataOffset := 0, stx := .sending }, h, []) else (s, h, [])
  | .sending =>
    match s.datNode with
    | [] => ({ s with fault := true }, h, [])
    | n :: _ =>
      let capacity := io.writeIsReady % 65536
      let left := n.dataLength - s.curDataOffset
      if 0 < capacity then
        if capacity < left then
          ({ s with
              written := s.written ++ (n.data.2.drop s.curDataOffset).take capacity
              curDataOffset := (s.curDataOffset + capacity) % 65536 }, h, [])
        else
          ({ s with
              written := s.written ++ (n.data.2.drop s.curDataOffset).take left
              datNode := (listPullNode s.datNode).2
              stx := .idle }, listDeleteNode h (listPullNode s.datNode).1, [.tx])
      else (s, h, [])
  | .receiving | .error =>
    ({ s with datNode := (listPullNode s.datNode).2, stx := .idle },
      listDeleteNode h (listPullNode s.datNode).1, [.error])

/-- The pass of `tcp_client_task` over a slot, with the events reported. -/
def task (io : NetIo) (h : Heap) (s : Slot) : Slot × Heap × List ClientEvent :=
  match s.state with
  | .idle => (s, h, [])
  | .dnsResolveHostAddress =>
    let s : Slot := { s with dnsResult := io.dnsResolve }
    if s.dnsResult < 0 then ({ s with state := .dnsError }, h, [])
    else if s.dnsResult = dnsResNameIsIpaddress then
      ({ s with address := io.address, state := .connectionInit }, h, [])
    else ({ s with state := .dnsWait }, h, [])
  | .dnsWait =>
    let s : Slot := { s with dnsResult := io.dnsIsResolved }
    if s.dnsResult = dnsResOk then
      ({ s with address := io.address, state := .connectionInit }, h, [])
    else if s.dnsResult = dnsResPending then (s, h, [])
    else if s.dnsResult = dnsResServerTmo then ({ s with state := .dnsTimeout }, h, [])
    else ({ s with state := .dnsError }, h, [])
  | .dnsTimeout => ({ s with timeout := io.now, state := .waitForRetry }, h, [.timeout])
  | .dnsError => ({ s with timeout := io.now, state := .waitForRetry }, h, [.error])
  | .connectionInit =>
    let s : Slot := { s with hSocket := io.socketOpen }
    if s.hSocket = invalidSocket then
      ({ s with timeout := io.now, state := .waitForRetry }, h, [.error])
    else
      -- a new socket
      ({ s with
          rx := []
          arrived := []
          written := []
          timeout := io.now
          state := .connectionWaitingFor }, h, [])
  | .connectionWaitingFor =>
    if io.isConnected then
      let s : Slot := { s with stx := .idle }
      if s.tls then
        if io.encryptSocket then
          ({ s with timeout := io.now, state := .connectionSslNegotiationWait }, h, [])
        else ({ s with state := .connectionError }, h, [])
      else ({ s with state := .connectionStablished }, h, [.connected])
    else if 20000 < elapsedMs io.now s.timeout then ({ s with state := .connectionTimeout }, h, [])
    else (s, h, [])
  | .connectionSslNegotiationWait =>
    if io.isNegotiating then
      if 20000 < elapsedMs io.now s.timeout then ({ s with state := .connectionTimeout }, h, [])
      else (s, h, [])
    else if io.isSecure then ({ s with state := .connectionStablished }, h, [.connected])
    else ({ s with state := .connectionError }, h, [])
  | .connectionStablished =>
    if io.wasReset || io.wasDisconnected then
      ({ s with state := .connectionClose }, h, [.disconnected])
    else
      let (s, h, es) := s.txTask io h
      (s, h, if s.rx ≠ [] then es ++ [.rx] else es)
  | .connectionTimeout => ({ s with state := .connectionClose }, h, [.timeout])
  | .connectionError => ({ s with state := .connectionClose }, h, [.error])
  | .connectionClose =>
    ({ s with
        hSocket := invalidSocket
        datNode := []
        timeout := io.now
        state := .waitForRetry }, listDelete h s.datNode, [])
  | .waitForRetry =>
    if 5000 < elapsedMs io.now s.timeout then ({ s with state := .idle }, h, []) else (s, h, [])

/-- Bytes arrive on the socket. -/
def receive (bs : Bytes) (s : Slot) : Slot := { s with rx := s.rx ++ bs, arrived := s.arrived ++ bs }

end Slot

/-! ## The interface -/

/-- `clientData`. -/
abbrev Slots := Fin tcpClientMaxSockets → Slot

/-- The first idle slot. -/
def firstIdle (slots : Slots) : Option (Fin tcpClientMaxSockets) :=
  (List.finRange tcpClientMaxSockets).find? fun i => (slots i).state = .idle

/-- `tcp_client_open_host`; the `Bool` is set when the host name does not fit. -/
def tcpClientOpenHost (slots : Slots) (host : Bytes) (port : UInt16) (tls : Bool) (cb : Owner) :
    OpResult × Slots × Bool :=
  match firstIdle slots with
  | none => (.busy, slots, false)
  | some i =>
    let s := { slots i with
      port := port
      tls := tls
      cb := some cb
      state := .dnsResolveHostAddress }
    match (slots i).hostName.sprintf host with
    | none => (.success, Function.update slots i s, true)
    | some name => (.success, Function.update slots i { s with hostName := name }, false)

/-- `tcp_client_open_ip`. -/
def tcpClientOpenIp (slots : Slots) (ip : UInt32) (port : UInt16) (tls : Bool) (cb : Owner) :
    OpResult × Slots :=
  match firstIdle slots with
  | none => (.busy, slots)
  | some i => (.success, Function.update slots i { slots i with
      address := ip
      port := port
      tls := tls
      cb := some cb
      state := .connectionInit })

/-- `tcp_client_send`; the parameter `dataLength` has 16 bits. -/
def tcpClientSend (h : Heap) (slots : Slots) (sid : Nat) (data : Bytes) (dataLength : Nat) :
    OpResult × Heap × Slots :=
  if hs : sid < tcpClientMaxSockets then
    if (slots ⟨sid, hs⟩).state = .connectionStablished then
      let dataLength := dataLength % 65536
      if 0 < dataLength then
        match listNewNode h data dataLength with
        | (none, h) => (.error, h, slots)
        | (some node, h) => (.success, h, Function.update slots ⟨sid, hs⟩
            { slots ⟨sid, hs⟩ with datNode := listPushNode (slots ⟨sid, hs⟩).datNode node })
      else (.success, h, slots)
    else (.worngIdClient, h, slots)
  else (.worngParameters, h, slots)

/-- `tcp_client_peek_rx`: the bytes stored, of which the stack hands over at most `limit`. -/
def tcpClientPeekRx (slots : Slots) (sid : Fin tcpClientMaxSockets) (limit request : Nat) : Bytes :=
  if (slots sid).state = .connectionStablished then (slots sid).rx.take (min limit request) else []

/-- `tcp_client_get_rx`: the same, taken off the socket. -/
def tcpClientGetRx (slots : Slots) (sid : Fin tcpClientMaxSockets) (limit request : Nat) :
    Bytes × Slots :=
  if (slots sid).state = .connectionStablished then
    ((slots sid).rx.take (min limit request),
      Function.update slots sid
        { slots sid with rx := (slots sid).rx.drop (min limit request) })
  else ([], slots)

/-- `tcp_client_close`. -/
def tcpClientClose (slots : Slots) (sid : Nat) : OpResult × Slots :=
  if hs : sid < tcpClientMaxSockets then
    if (slots ⟨sid, hs⟩).hSocket ≠ invalidSocket then
      (.success, Function.update slots ⟨sid, hs⟩
        { slots ⟨sid, hs⟩ with state := .connectionClose })
    else (.worngIdClient, slots)
  else (.worngParameters, slots)

/-- What `tcp_client_reset` makes of one slot. -/
def Slot.reset (s : Slot) : Slot :=
  if s.hSocket ≠ invalidSocket then
    { s with
      datNode := []
      stx := if s.datNode ≠ [] then .idle else s.stx
      hSocket := invalidSocket
      state := .idle }
  else { s with state := .idle }

/-- `tcp_client_reset`, slot after slot. -/
def tcpClientReset (h : Heap) (slots : Slots) : Heap × Slots :=
  ((List.finRange tcpClientMaxSockets).foldl (fun h i =>
      if (slots i).hSocket ≠ invalidSocket then listDelete h (slots i).datNode else h) h,
    fun i => (slots i).reset)

end Rastreo.Net
