import Rastreo.Net.Transmission

/-!
# The TCP server (`tcp_server.c`)

Three slots. The stack reports to a slot through `tcpEventCallback` at any moment, also between the
passes of `tcp_server_task` over two slots, and a slot reports to its user through `emitEvent`.

* `ServerSlot.txTask`: `tx_task`.
* `serverPass`: the pass of `tcp_server_task` over one slot. `tcp_server_task` is one over each.
* `ServerCall`: what the rest of the program calls, the receive processor of a slot included.
* `serverStep`: the system.

Of a connection a slot holds what `tcp_server_send` was given since the stack reported it
(`passed`) and the bytes put on it (`put`).
-/

namespace Rastreo.Net

open Rastreo.Lib

/-! ## Data -/

/-- `TCP_SERVER_MAX_SOCKETS`. -/
abbrev tcpServerMaxSockets : Nat := 3

/-- `t_TX_STATES`. -/
inductive TxState
  | idle
  | sending
  | error
  deriving DecidableEq, Repr

/-- `t_OUT_TX`. -/
structure OutTx where
  state : TxState
  queueData : List Node
  dataIndex : Nat
  deriving DecidableEq, Repr

/-- `t_TCP_SERVER_SM_STATES`. -/
inductive ServerState
  | init
  | openSocket
  | waitForConnection
  | connectionStablished
  | disconnecting
  | waitDisconnect
  | aborting
  | waitAbort
  | close
  | waitClose
  | disable
  deriving DecidableEq, Repr

/-- `t_SERVER_EVENTS`, those that are emitted. -/
inductive ServerEvent
  | connectionStablished
  | messageSent
  | disconnected
  | close
  deriving DecidableEq, Repr

/-- `TCPIP_TCP_SIGNAL_TYPE`: the signals that are handled, and all others. -/
inductive TcpSignal
  | established
  | rxFin
  | rxRst
  | other
  deriving DecidableEq, Repr

/-- A call of the stack, on a socket. -/
inductive StackCall
  | serverOpen (socket : Int)
  | close (socket : Int)
  | disconnect (socket : Int)
  | abort (socket : Int)
  | discard (socket : Int)
  | arrayPut (socket : Int) (data : Bytes)
  deriving DecidableEq, Repr

/-- `t_TCP_SERVER_DATA`; of the receive processor and of the callback whether there is one. -/
structure ServerSlot where
  inUse : Bool
  listenPort : UInt16
  hSocket : Int
  state : ServerState
  remoteAddress : UInt32
  remotePort : UInt16
  out : OutTx
  rxP : Bool
  cb : Bool
  /-- The messages given to `tcp_server_send` on this connection. -/
  passed : List Bytes
  /-- The bytes put on it. -/
  put : Bytes
  events : List ServerEvent
  calls : List StackCall
  /-- A NULL pointer was used, or a message read past its end. -/
  fault : Bool
  deriving DecidableEq, Repr

/-- The slots of the TCP server, and the heap. -/
structure ServerSys where
  heap : Heap
  servers : Fin tcpServerMaxSockets → ServerSlot

/-! ## One slot -/

namespace ServerSlot

/-- `emit_event`. -/
def emitEvent (s : ServerSlot) (e : ServerEvent) : ServerSlot :=
  if s.cb then { s with events := s.events ++ [e] } else s

/-- The slot has made a call to the stack. -/
def called (s : ServerSlot) (c : StackCall) : ServerSlot := { s with calls := s.calls ++ [c] }

/-- `SET_TCP_SERVER_STATE`. -/
def setState (s : ServerSlot) (q : ServerState) : ServerSlot := { s with state := q }

/-- `tcp_event_callback`, with the remote end of the socket. -/
def tcpEventCallback (s : ServerSlot) (address : UInt32) (port : UInt16) : TcpSignal → ServerSlot
  | .established => { s with
      remoteAddress := address
      remotePort := port
      state := .connectionStablished
      -- a new connection
      passed := []
      put := [] }.emitEvent .connectionStablished
  | .rxFin => s.setState .disconnecting
  | .rxRst => s.setState .aborting
  | .other => s

/-- `TCPIP_TCP_ArrayPut`, which takes all it is given. -/
def arrayPut (s : ServerSlot) (data : Bytes) : ServerSlot :=
  { s with put := s.put ++ data }.called (.arrayPut s.hSocket data)

/-- The first message is taken off the queue. -/
def pullMessage (s : ServerSlot) (h : Heap) : ServerSlot × Heap :=
  ({ s with out := { s.out with queueData := (listPullNode s.out.queueData).2 } },
    listDeleteNode h (listPullNode s.out.queueData).1)

/-- `tx_task`; lengths are subtracted as integers, and `ArrayPut` takes 16 bits of the result. -/
def txTask (putIsReady : Nat) (h : Heap) (s : ServerSlot) : ServerSlot × Heap :=
  match s.out.state with
  | .idle =>
    if s.out.queueData ≠ [] then
      ({ s with out := { s.out with dataIndex := 0, state := .sending } }, h)
    else (s, h)
  | .sending =>
    let capacity := putIsReady % 65536
    if 0 < capacity then
      match s.out.queueData with
      | [] => ({ s with fault := true }, h)
      | n :: _ =>
        let left : Int := n.dataLength - s.out.dataIndex
        if capacity < left then
          let s := s.arrayPut ((n.data.2.drop s.out.dataIndex).take capacity)
          ({ s with out := { s.out with dataIndex := s.out.dataIndex + capacity } }, h)
        else
          let s := { s with fault := s.fault || decide (left < 0) }.arrayPut
            ((n.data.2.drop s.out.dataIndex).take (left % 65536).toNat)
          let (s, h) := s.pullMessage h
          let s := s.emitEvent .messageSent
          ({ s with out := { s.out with state := .idle } }, h)
    else (s, h)
  | .error =>
    let (s, h) := s.pullMessage h
    ({ s with out := { s.out with state := .idle } }, h)

/-- `list_delete (&serverData[i].out.queueData)`. -/
def deleteQueue (s : ServerSlot) (h : Heap) : ServerSlot × Heap :=
  ({ s with out := { s.out with queueData := [] } }, listDelete h s.out.queueData)

/-- The queue emptied and the stream idle, when there is a queue. -/
def clearStream (s : ServerSlot) (h : Heap) : ServerSlot × Heap :=
  if s.out.queueData ≠ [] then
    ({ s with out := { s.out with queueData := [], state := .idle } }, listDelete h s.out.queueData)
  else (s, h)

/-- What `tcp_server_reset` does to one slot. -/
def reset (s : ServerSlot) (h : Heap) : ServerSlot × Heap :=
  if s.hSocket ≠ invalidSocket then
    (({ (s.clearStream h).1 with hSocket := invalidSocket }.called (.close s.hSocket)).setState
      .init, (s.clearStream h).2)
  else (s.setState .init, h)

/-- `tcp_server_send` on the slot. -/
def send (s : ServerSlot) (h : Heap) (data : Packet) : ServerSlot × Heap :=
  let s := { s with passed := s.passed ++ [data.bytes] }
  if s.state = .connectionStablished then
    match listNewNode h data.bytes data.bytes.length with
    | (some node, h) =>
      ({ s with out := { s.out with queueData := listPushNode s.out.queueData node } }, h)
    | (none, h) => (s, h)
  else (s, h)

end ServerSlot

/-! ## The task -/

/-- A call of the interface that a receive processor may also make. -/
inductive ServerCall
  | send (i : Fin tcpServerMaxSockets) (data : Packet)
  | forceDisconnect (i : Fin tcpServerMaxSockets)

/-- The slot becomes `r.1` and the heap `r.2`. -/
def ServerSys.put (y : ServerSys) (i : Fin tcpServerMaxSockets) (r : ServerSlot × Heap) : ServerSys :=
  { heap := r.2, servers := Function.update y.servers i r.1 }

/-- `tcp_server_send` and `tcp_server_force_disconnect`. -/
def ServerSys.call (y : ServerSys) : ServerCall → ServerSys
  | .send i data => y.put i ((y.servers i).send y.heap data)
  | .forceDisconnect i => y.put i ((y.servers i).setState .disconnecting, y.heap)

/-- What the stack and the receive processor answer in one pass over a slot. -/
structure ServerIo where
  serverOpen : Int
  /-- The calls of the receive processor, and its result. -/
  rx : List ServerCall
  rxPending : Nat
  putIsReady : Nat
  wasDisconnected : Bool

/-- `TCPIP_TCP_Disconnect`. -/
def ServerSlot.disconnect (s : ServerSlot) : ServerSlot :=
  s.called (.disconnect s.hSocket) |>.setState .waitDisconnect

/-- The socket is disconnected. -/
def ServerSlot.ended (s : ServerSlot) : ServerSlot :=
  (s.emitEvent .disconnected).setState .waitForConnection

/-- The pass of `tcp_server_task` over a slot. -/
def serverPass (io : ServerIo) (y : ServerSys) (i : Fin tcpServerMaxSockets) : ServerSys :=
  let s := y.servers i
  match s.state with
  | .init => y.put i (s.setState (if s.inUse then .openSocket else .disable), y.heap)
  | .openSocket =>
    let s := { s with hSocket := io.serverOpen }.called (.serverOpen io.serverOpen)
    y.put i (if s.hSocket = invalidSocket then s else s.setState .waitForConnection, y.heap)
  | .waitForConnection | .disable => y
  | .connectionStablished =>
    let y :=
      if s.rxP then io.rx.foldl ServerSys.call y
      else y.put i (s.called (.discard s.hSocket), y.heap)
    y.put i ((y.servers i).txTask io.putIsReady y.heap)
  | .disconnecting =>
    if s.rxP then
      let y := io.rx.foldl ServerSys.call y
      if io.rxPending = 0 then y.put i ((y.servers i).disconnect, y.heap) else y
    else y.put i (s.disconnect, y.heap)
  | .waitDisconnect | .waitAbort => if io.wasDisconnected then y.put i (s.ended, y.heap) else y
  | .aborting =>
    let (s, h) := s.deleteQueue y.heap
    y.put i (s.called (.abort s.hSocket) |>.setState .waitAbort, h)
  | .close =>
    let (s, h) := s.deleteQueue y.heap
    y.put i (s.called (.close s.hSocket) |>.setState .waitClose, h)
  | .waitClose =>
    y.put i ({ s.emitEvent .close with hSocket := invalidSocket, state := .init }, y.heap)

/-! ## The interface -/

/-- `tcp_server_config`: the index, `TCP_SERVER_OP_ERROR` for none. -/
def tcpServerConfig (y : ServerSys) (listenPort : UInt16) (rxP cb : Bool) : Int × ServerSys :=
  match (List.finRange tcpServerMaxSockets).find? fun i => !(y.servers i).inUse with
  | none => (-1, y)
  | some i => ((i : Nat), y.put i ({ y.servers i with
      listenPort := listenPort
      rxP := rxP
      cb := cb
      inUse := true
      state := .init }, y.heap))

/-- `tcp_server_reset`. -/
def tcpServerReset (y : ServerSys) : ServerSys :=
  (List.finRange tcpServerMaxSockets).foldl (fun y i => y.put i ((y.servers i).reset y.heap)) y

/-! ## The system -/

/-- A signal of the stack, a pass over a slot, or a call by the program. -/
inductive ServerStep
  | signal (i : Fin tcpServerMaxSockets) (address : UInt32) (port : UInt16) (sig : TcpSignal)
  | pass (i : Fin tcpServerMaxSockets) (io : ServerIo)
  | config (listenPort : UInt16) (rxP cb : Bool)
  | call (c : ServerCall)
  | reset

/-- **One event of the TCP server.** -/
def serverStep (y : ServerSys) : ServerStep → Option ServerSys
  | .signal i address port sig =>
    some (y.put i ((y.servers i).tcpEventCallback address port sig, y.heap))
  | .pass i io => some (serverPass io y i)
  | .config listenPort rxP cb => some (tcpServerConfig y listenPort rxP cb).2
  | .call c => some (y.call c)
  | .reset => some (tcpServerReset y)

/-- A slot after `tcp_server_init`. -/
def ServerSlot.zero : ServerSlot where
  inUse := false
  listenPort := 0
  hSocket := 0
  state := .init
  remoteAddress := 0
  remotePort := 0
  out := ⟨.idle, [], 0⟩
  rxP := false
  cb := false
  passed := []
  put := []
  events := []
  calls := []
  fault := false

/-- After `tcp_server_init`. -/
def serverInit (grants : Nat → Bool) : ServerSys where
  heap := .empty grants
  servers := fun _ => .zero

/-! ## One slot at a time -/

section Lift

variable {P : ServerSlot → Prop} {y : ServerSys}

@[simp] theorem ServerSys.servers_put (i : Fin tcpServerMaxSockets) (r : ServerSlot × Heap) :
    (y.put i r).servers i = r.1 := Function.update_self _ _ _

theorem ServerSys.servers_put_ne {i j : Fin tcpServerMaxSockets} (h : j ≠ i)
    (r : ServerSlot × Heap) : (y.put i r).servers j = y.servers j := Function.update_of_ne h _ _

/-- Every slot has its property when the one that changed has. -/
theorem ServerSys.forall_put_at {Q : Fin tcpServerMaxSockets → ServerSlot → Prop}
    {i : Fin tcpServerMaxSockets} {r : ServerSlot × Heap} (hy : ∀ j, Q j (y.servers j))
    (hr : Q i r.1) : ∀ j, Q j ((y.put i r).servers j) := by
  intro j
  by_cases hj : j = i
  · subst hj
    rwa [ServerSys.servers_put]
  · rw [ServerSys.servers_put_ne hj]
    exact hy j

/-- The same, for one property. -/
theorem ServerSys.forall_put {i : Fin tcpServerMaxSockets} {r : ServerSlot × Heap}
    (hy : ∀ j, P (y.servers j)) (hr : P r.1) : ∀ j, P ((y.put i r).servers j) :=
  @ServerSys.forall_put_at _ (fun _ => P) _ _ hy hr

/-- All slots are related to what they were when the one that changed is. -/
theorem ServerSys.rel_put {R : ServerSlot → ServerSlot → Prop} {i : Fin tcpServerMaxSockets}
    {r : ServerSlot × Heap} (hR : ∀ s, R s s) (hr : R (y.servers i) r.1) :
    ∀ j, R (y.servers j) ((y.put i r).servers j) :=
  @ServerSys.forall_put_at _ (fun j => R (y.servers j)) _ _ (fun _ => hR _) hr

end Lift

end Rastreo.Net
