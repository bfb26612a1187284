import Rastreo.Net.TcpClient
import Rastreo.Lib.Rfc6455

/-!
# The web socket client: receiving (`ws_client.c`)

`current_frame` is the head of `frames` and the frames before it in the message follow through
their `prev_frame` links; `next_frame` is the inverse link, NULL in the head. `inData` takes one
byte: it makes room in the current frame, stores the byte and looks whether the frame is complete.

`World` is the client, the slots, the heap and what the application was told. `overrun` is set by
an access outside a block.
-/

namespace Rastreo.Net

open Rastreo.Lib

/-! ## Data -/

/-- `t_WS_STATES`. -/
inductive WsState
  | init
  | idle
  | manageUrl
  | openConnection
  | waitTcpSocketConnection
  | initHandshake
  | waitHandshakeResponse
  | waitHandshakeResponseParse
  | connectionEstablished
  | close
  | error
  | retry
  | halt
  | null
  deriving DecidableEq, Repr

/-- The bits of `flags`. -/
structure Flags where
  clientIsSsl : Bool
  clientConnecting : Bool
  clientShouldClose : Bool
  clientSentCloseFrame : Bool
  requestHasConnection : Bool
  requestHasUpgrade : Bool
  requestValidStatus : Bool
  requestValidAccept : Bool
  deriving DecidableEq, Repr

/-- `t_WS_FRAME`, its links apart. -/
structure WsFrame where
  block : Block
  fin : Bool
  opcode : Nat
  payloadOffset : Nat
  rawdataIdx : Nat
  rawdataSz : Nat
  payloadLen : Nat
  rawdata : Option (Block × Bytes)
  deriving DecidableEq, Repr

/-- `t_URL_DATA`, the fields the client reads. -/
structure UrlData where
  scheme : Bytes
  host : Bytes
  port : Option Bytes
  path : Option Bytes
  deriving DecidableEq, Repr

/-- `t_WS_CLIENT_DATA`; of a callback only whether it is registered. -/
structure Client where
  urlData : Option UrlData
  nPort : UInt16
  curSocketId : Fin tcpClientMaxSockets
  state : WsState
  flags : Flags
  onOpen : Bool
  onClose : Bool
  onMessage : Bool
  onError : Bool
  frames : List WsFrame
  webSocketKey : Buf 256
  recvBuf : Buf 2048
  ts : UInt32
  activityTimeout : UInt32
  pingStr : Buf 128
  deriving DecidableEq, Repr

/-- A call of the application. -/
inductive Call
  | onOpen
  | onClose
  /-- The first `payload_len` bytes at `payload`. -/
  | onMessage (opcode : Nat) (payload : Bytes) (payloadLen : Nat)
  | onError (code extraCode : Int)
  deriving DecidableEq, Repr

/-- The heap, the slots of `tcp_client`, the web socket client, and what it has called. `overrun` is set
by a write past a buffer or a NULL pointer. -/
structure World where
  heap : Heap
  slots : Slots
  ws : Client
  /-- The values of `rand ()`, and how many were drawn. -/
  rand : Nat → UInt32
  draws : Nat
  calls : List Call
  overrun : Bool

/-- The four bytes of an integer in memory. -/
def leBytes (x : UInt32) : Bytes := (be 4 x.toNat).reverse

/-- `srand (time (NULL)); mask_int = rand (); memcpy (mask, &mask_int, 4)`. -/
def World.drawMask (w : World) : Bytes × World :=
  (leBytes (w.rand w.draws), { w with draws := w.draws + 1 })

/-- The callback, when it is registered. -/
def World.callOnError (w : World) (code extraCode : Int) : World :=
  if w.ws.onError then { w with calls := w.calls ++ [.onError code extraCode] } else w

/-- `SET_WS_CLIENT_STATE`. -/
def World.setState (w : World) (q : WsState) : World := { w with ws := { w.ws with state := q } }

/-! ## `complete_frame` -/

/-- What `complete_frame` returns. -/
inductive Completion
  /-- 0 -/
  | more
  /-- -1 -/
  | masked
  /-- 1 -/
  | complete
  deriving DecidableEq, Repr

/-- `complete_frame`, on the bytes of `rawdata`. -/
def completeFrame (f : WsFrame) (raw : Bytes) : Completion × WsFrame :=
  if f.rawdataIdx < 2 then (.more, f)
  else
    let f := { f with
      fin := raw.getD 0 0 &&& 0x80 == 0x80
      opcode := (raw.getD 0 0 &&& 0x0f).toNat
      payloadOffset := 2 }
    if raw.getD 1 0 &&& 0x80 ≠ 0 then (.masked, f)
    else
      let payloadLenShort := (raw.getD 1 0 &&& 0x7f).toNat
      let ends (f : WsFrame) : Completion × WsFrame :=
        if f.rawdataIdx < (f.payloadOffset + f.payloadLen) % 18446744073709551616 then (.more, f)
        else (.complete, f)
      if payloadLenShort = 126 then
        if f.rawdataIdx < 4 then (.more, f)
        else ends { f with payloadOffset := 4, payloadLen := beVal ((raw.drop 2).take 2) }
      else if payloadLenShort = 127 then
        if f.rawdataIdx < 10 then (.more, f)
        else ends { f with payloadOffset := 10, payloadLen := beVal ((raw.drop 2).take 8) }
      else ends { f with payloadLen := payloadLenShort }

/-! ## Frames -/

/-- `FRAME_CHUNK_LENGTH`. -/
def frameChunkLength : Nat := 512

/-- `sizeof (t_WS_FRAME)`. -/
def sizeofFrame : Nat := 48

/-- `sizeof (t_WS_MESSAGE)`. -/
def sizeofMessage : Nat := 24

/-- `memset (…, 0, sizeof (t_WS_FRAME))`. -/
def WsFrame.zero (b : Block) : WsFrame := ⟨b, false, 0, 0, 0, 0, 0, none⟩

/-- The block of the raw data and its bytes, zero. -/
def zeroed (b : Block) : Block × Bytes := (b, List.replicate b.size 0)

/-- `-1` in `payload_len`. -/
def minusOne : Nat := 18446744073709551615

/-- What `handle_control_frame` does for the opcode. -/
def handleOpcode (w : World) (ctl : WsFrame) (mask : Bytes) : World :=
  if ctl.opcode = 8 then
    let w :=
      if w.ws.flags.clientSentCloseFrame then w
      else
        -- the payload masked, the mask bit set
        let raw := match ctl.rawdata with
          | none => []
          | some (_, raw) =>
            (raw.mapIdx fun i b =>
              if ctl.payloadOffset ≤ i ∧ i < ctl.payloadOffset + ctl.payloadLen then
                b ^^^ mask.getD ((i - ctl.payloadOffset) % 4) 0
              else b).modify 1 (· ||| 0x80)
        let (_, h, slots) := tcpClientSend w.heap w.slots w.ws.curSocketId raw
          (ctl.payloadOffset + ctl.payloadLen)
        { w with heap := h, slots := slots }
    { w with ws := { w.ws with flags := { w.ws.flags with clientShouldClose := true } } }
  else w

/-- The current frame emptied, with new raw data. -/
def resetFrame (w : World) (ctl : WsFrame) (prev : List WsFrame) : World × Int :=
  match dmemCreate (dmemRelease w.heap (ctl.rawdata.map (·.1))) frameChunkLength with
  | (none, h) => ({ w with heap := h, ws := { w.ws with frames := .zero ctl.block :: prev } }, -1)
  | (some d, h) =>
    ({ w with
        heap := h
        ws := { w.ws with
          frames := { WsFrame.zero ctl.block with rawdata := some (zeroed d) } :: prev } }, 0)

/-- `handle_control_frame` on the current frame. -/
def handleControlFrame (w : World) (ctl : WsFrame) (prev : List WsFrame) : World × Int :=
  let (mask, w) := w.drawMask
  resetFrame (handleOpcode w ctl mask) ctl prev

/-- `cleanup_frames`, from the first frame on. -/
def cleanupFrames (h : Heap) (frames : List WsFrame) : Heap :=
  frames.foldl (fun h f => dmemRelease (dmemRelease h (f.rawdata.map (·.1))) (some f.block)) h

/-- The payload lengths added up on the way back to the first frame. -/
def backwardsLen : List WsFrame → Nat
  | f :: g :: fs => f.payloadLen + backwardsLen (g :: fs)
  | _ => 0

/-- What `memcpy` reads of a frame; `none` when that is not all in `rawdata`. -/
def WsFrame.payload? (f : WsFrame) : Option Bytes :=
  match f.rawdata with
  | some (_, raw) =>
    if f.payloadOffset + f.payloadLen ≤ raw.length then
      some ((raw.drop f.payloadOffset).take f.payloadLen)
    else none
  | none => none

/-- A payload copied: the bytes, the offset after it, and whether some copy went out of bounds. -/
def copyPayload {n : Nat} (acc : Buf n × Nat × Bool) (f : WsFrame) : Buf n × Nat × Bool :=
  match f.payload?.bind (acc.1.store acc.2.1) with
  | some buf => (buf, acc.2.1 + f.payloadLen, acc.2.2)
  | none => (acc.1, acc.2.1 + f.payloadLen, true)

/-- The frames copied one after another into `n` bytes. -/
def copyPayloads {n : Nat} (frames : List WsFrame) : Buf n × Nat × Bool :=
  frames.foldl copyPayload (.clear, 0, false)

/-- `dispatch_message` on the current frame. -/
def dispatchMessage (w : World) : List WsFrame → World × Int
  | [] => ((w.callOnError 0 0).setState .error, -1)
  | current :: prev =>
    let frames := current :: prev
    let messagePayloadLen := (current.payloadLen + backwardsLen frames) % 18446744073709551616
    let messageOpcode := ((frames.getLast?.map WsFrame.opcode).getD 0)
    -- the parameter of `dmem_create` has 32 bits
    match dmemCreate w.heap ((messagePayloadLen + 1) % 4294967296) with
    | (none, h) => ({ w with heap := h }, -1)
    | (some messagePayload, h) =>
      let (buf, messageOffset, bad) := copyPayloads (n := messagePayload.size) frames.reverse
      let w := { w with heap := cleanupFrames h frames.reverse, overrun := w.overrun || bad }
      match dmemCreate w.heap sizeofMessage with
      | (none, h) => ({ w with heap := dmemRelease h (some messagePayload) }, 0)
      | (some msg, h) =>
        ({ w with
            heap := dmemRelease (dmemRelease h (some msg)) (some messagePayload)
            calls :=
              if w.ws.onMessage then
                w.calls ++ [.onMessage messageOpcode (buf.bytes.take messageOffset) messageOffset]
              else w.calls }, 0)

/-! ## `in_data` -/

/-- There is a current frame afterwards, or the allocation failed. -/
def openFrame (w : World) : World × Bool :=
  match w.ws.frames with
  | _ :: _ => (w, true)
  | [] =>
    match dmemCreate w.heap sizeofFrame with
    | (none, h) => ({ w with heap := h }, false)
    | (some b, h) =>
      match dmemCreate h frameChunkLength with
      | (none, h) => ({ w with heap := dmemRelease h (some b) }, false)
      | (some d, h) =>
        ({ w with
            heap := h
            ws := { w.ws with
              frames := [{ WsFrame.zero b with
                payloadLen := minusOne
                rawdataSz := frameChunkLength
                rawdata := some (zeroed d) }] } }, true)

/-- Room for one more byte in the current frame; without it the frame is given up. -/
def extendFrame (w : World) (current : WsFrame) (prev : List WsFrame) : World × Option WsFrame :=
  if current.rawdataSz ≤ current.rawdataIdx then
    let sz := (current.rawdataSz + frameChunkLength) % 4294967296
    match dmemExtend w.heap (current.rawdata.map (·.1)) sz with
    | (none, h) =>
      ({ w with
          heap := dmemRelease (dmemRelease h (current.rawdata.map (·.1))) (some current.block)
          ws := { w.ws with frames := [] } }, none)
    | (some b, h) =>
      let old := (current.rawdata.map (·.2)).getD []
      let current := { current with
        rawdataSz := sz
        rawdata := some (b, old.take current.rawdataIdx ++
          List.replicate (sz - current.rawdataIdx) 0) }
      ({ w with heap := h, ws := { w.ws with frames := current :: prev } }, some current)
  else (w, some current)

/-- A frame for the next fragment. -/
def newFragment (w : World) : World × Int :=
  match dmemCreate w.heap sizeofFrame with
  | (none, h) => ({ w with heap := h }, -1)
  | (some b, h) =>
    match dmemCreate h frameChunkLength with
    | (none, h) => ({ w with heap := h }, -1)
    | (some d, h) =>
      ({ w with
          heap := h
          ws := { w.ws with
            frames := { WsFrame.zero b with
              payloadLen := minusOne
              rawdata := some (zeroed d) } :: w.ws.frames } }, 0)

/-- What follows the byte that completes a frame. -/
def frameDone (w : World) (current : WsFrame) (prev : List WsFrame) : World × Int :=
  if current.fin then
    if current.opcode &&& 8 = 8 then handleControlFrame w current prev
    else
      let (w, _) := dispatchMessage w (current :: prev)
      ({ w with ws := { w.ws with frames := [] } }, 0)
  else newFragment w

/-- A byte is stored in the current frame. -/
def storeByte (w : World) (c : UInt8) (current : WsFrame) (prev : List WsFrame) : World × Int :=
  match current.rawdata with
  | none => (w, -1)
  | some (b, raw) =>
    let w := { w with overrun := w.overrun || decide (raw.length ≤ current.rawdataIdx) }
    let raw := raw.set current.rawdataIdx c
    let current := { current with
      rawdataIdx := (current.rawdataIdx + 1) % 4294967296
      rawdata := some (b, raw) }
    match completeFrame current raw with
    | (.more, current) => ({ w with ws := { w.ws with frames := current :: prev } }, 0)
    | (.masked, current) =>
      ({ w with
          ws := { w.ws with
            frames := current :: prev
            flags := { w.ws.flags with clientShouldClose := true } } }, 0)
    | (.complete, current) =>
      frameDone { w with ws := { w.ws with frames := current :: prev } } current prev

/-- `in_data` once there is a current frame. -/
def fillFrame (w : World) (c : UInt8) (current : WsFrame) (prev : List WsFrame) : World × Int :=
  match extendFrame w current prev with
  | (w, none) => (w, -1)
  | (w, some current) => storeByte w c current prev

/-- **`in_data`.** -/
def inData (w : World) (c : UInt8) : World × Int :=
  match openFrame w with
  | (w, false) => (w, -1)
  | (w, true) =>
    match w.ws.frames with
    | [] => (w, -1)
    | current :: prev => fillFrame w c current prev

end Rastreo.Net
