import Rastreo.Boot.Crc
import Rastreo.Boot.HexRecord

/-!
# `bootloader_udp.c` and `datastream_udp.c`: the loader

The state machine that takes commands as datagrams and answers them. `Loader` is `btlData`, `dataBuff`,
`udpData` and what the NVM functions keep; the host's datagrams wait in `rx`, and what the loader has
sent is `sent`. A `Pass` is what one call of `bootloader_UDP_Tasks` finds outside.

`dataBuff` is memory from address 0 on: `inputBuff` its first 512 bytes, `procBuff` the next 512. What
lies behind is the memory that follows it.
-/

namespace Rastreo.Boot

open Lib

/-! ## The state -/

/-- `SOH`, which starts a frame. -/
abbrev SOH : UInt8 := 1
/-- `EOT`, which ends it. -/
abbrev EOT : UInt8 := 4
/-- `DLE`, before a byte that is one of the three. -/
abbrev DLE : UInt8 := 16

/-- `BOOTLOADER_BUFFER_SIZE`. -/
abbrev bootloaderBufferSize : UInt32 := 512

/-- Where `procBuff` begins. -/
abbrev procBuff : Nat := 512

/-- `BOOTLOADER_STATES`. -/
inductive BootloaderState
  | openDatastream | getCommand | processCommand | sendResponse | waitForDone | closeDatastream
  | enterApplication | error
  deriving DecidableEq

/-- `eDIR`. -/
inductive Dir
  | idle | rx | tx
  deriving DecidableEq

/-- `udpData`, and the addresses `DATASTREAM_Open` has seen. -/
structure UdpData where
  currDir : Dir := .idle
  connected : Bool := false
  rxBuffer : Nat := 0
  rxMaxSize : UInt32 := 0
  txBuffer : Nat := 0
  txMaxSize : UInt32 := 0
  dwLastIP : Nat → UInt32 := fun _ => 0xFFFFFFFF

/-- `btlData`, `udpData` and `nvm_data`, and the datagrams on both sides of the socket. -/
structure Loader where
  currentState : BootloaderState := .openDatastream
  prevState : BootloaderState := .openDatastream
  buffSize : UInt32 := 0
  cmdBuffLen : UInt32 := 0
  usrBufferEventComplete : Bool := false
  dataBuff : Ram := fun _ => 0
  udp : UdpData := {}
  nvm : Nvm := {}
  /-- The datagrams that wait in the socket. -/
  rx : List Bytes := []
  /-- The datagrams sent. -/
  sent : List Bytes := []

/-- What a pass finds outside the loader. -/
structure Pass where
  /-- The stack is up: `TCPIP_STACK_Status`. -/
  stackReady : Bool
  /-- The addresses of its interfaces. -/
  netAddress : List UInt32
  /-- `TCPIP_UDP_ServerOpen` gives a socket. -/
  serverOpens : Bool
  /-- `TCPIP_UDP_IsConnected`. -/
  isConnected : Bool
  /-- `TCPIP_UDP_PutIsReady`. -/
  putIsReady : UInt16
  /-- The memory of the device, for `READ_CRC`. -/
  memory : Ram

namespace Loader

variable (env : Pass) (s : Loader)

/-! ## The data stream -/

/-- `DATASTREAM_Data_Read`. -/
def dataRead (buffer : Nat) (rxSize : UInt32) : Loader :=
  { s with udp := { s.udp with rxBuffer := buffer, rxMaxSize := rxSize, currDir := .rx } }

/-- `DATASTREAM_Data_Write`. -/
def dataWrite (buffer : Nat) (txSize : UInt32) : Loader :=
  { s with udp := { s.udp with txBuffer := buffer, txMaxSize := txSize, currDir := .tx } }

/-- The interfaces from `i` on; whether a socket was opened. -/
def openLoop : Nat → List UInt32 → Loader → Loader × Bool
  | _, [], s => (s, false)
  | i, ipAddr :: nets, s =>
    if s.udp.dwLastIP i ≠ ipAddr then
      let s := { s with udp.dwLastIP := Function.update s.udp.dwLastIP i ipAddr }
      -- wait for a valid address: not 0.x.x.x, not 169.x.x.x
      if ipAddr % 256 ≠ 0 ∧ ipAddr % 256 ≠ 169 then
        if env.serverOpens then ({ s with udp.connected := true }, true) else (s, false)
      else openLoop (i + 1) nets s
    else openLoop (i + 1) nets s

/-- `DATASTREAM_Open`; whether the handle is valid. -/
def datastreamOpen : Loader × Bool :=
  if env.stackReady then openLoop env 0 env.netAddress s else (s, false)

/-! ## Datagrams -/

/-- A byte of the command. -/
def takeByte (i : Nat) : Loader :=
  { s with
    dataBuff := Ram.store s.dataBuff (procBuff + s.cmdBuffLen.toNat) [s.dataBuff i]
    cmdBuffLen := s.cmdBuffLen + 1 }

/-- The command in `procBuff` ends in its check. -/
def crcMatches : Bool :=
  let n := s.cmdBuffLen.toNat
  let crc : UInt16 := (s.dataBuff (procBuff + (n - 2))).toUInt16 +
    ((s.dataBuff (procBuff + (n - 1))).toUInt16 <<< 8)
  s.cmdBuffLen > 2 && calculateCrc (Ram.load s.dataBuff procBuff (n - 2)) = crc.toUInt32

/-- The loop of `bootloader_BufferEventHandler`. -/
def handlerLoop (context : Nat) : Nat → Nat → Loader → Loader
  | 0, _, s => s.dataRead 0 s.buffSize
  | turns + 1, i, s =>
    if i < context then
      if s.prevState ≠ .getCommand then { s with usrBufferEventComplete := true }
      else if s.dataBuff i = SOH then handlerLoop context turns (i + 1) { s with cmdBuffLen := 0 }
      else if s.dataBuff i = EOT then
        if s.crcMatches then { s with usrBufferEventComplete := true }
        else handlerLoop context turns (i + 1) s
      else if s.dataBuff i = DLE then handlerLoop context turns (i + 2) (s.takeByte (i + 1))
      else handlerLoop context turns (i + 1) (s.takeByte i)
    else s.dataRead 0 s.buffSize

/-- `bootloader_BufferEventHandler`, for a transfer of `context` bytes that has ended. -/
def bufferEventHandler (context : Nat) : Loader := handlerLoop context (context + 1) 0 s

/-- What waits to be sent goes out when there is room for it. -/
def transmit : Loader :=
  if s.udp.currDir = .tx ∧ env.putIsReady.toNat ≥ s.udp.txMaxSize.toNat then
    bufferEventHandler
      { s with
        sent := s.sent ++ [Ram.load s.dataBuff s.udp.txBuffer s.udp.txMaxSize.toNat]
        udp.currDir := .idle }
      s.udp.txMaxSize.toNat
  else s

/-- A datagram is taken, all of it. -/
def receive : Loader :=
  if s.udp.currDir = .rx then
    match s.rx with
    | [] => s
    | d :: rx =>
      bufferEventHandler
        { s with
          dataBuff := Ram.store s.dataBuff s.udp.rxBuffer d
          rx := rx
          udp.currDir := .idle }
        d.length
  else s

/-- `DATASTREAM_Tasks`. -/
def datastreamTasks : Loader :=
  if s.udp.connected = false then s else (s.transmit env).receive

/-! ## Commands -/

/-- `bootloader_GetVersion`. -/
def getVersion : UInt16 := (((3 : UInt16) &&& 0xFF) <<< 8) ||| (7 &&& 0xFF)

/-- Four bytes in memory, the lowest first. -/
def word32 (m : Ram) (a : Nat) : UInt32 :=
  (m a).toUInt32 + ((m (a + 1)).toUInt32 <<< 8) + ((m (a + 2)).toUInt32 <<< 16) +
    ((m (a + 3)).toUInt32 <<< 24)

/-- The response so far goes to `inputBuff`. -/
def respond (response : Bytes) : Loader :=
  { s with
    dataBuff := Ram.store s.dataBuff 0 response
    buffSize := UInt32.ofNat response.length
    currentState := .sendResponse }

/-- `bootloader_ProcessBuffer`; `none` when it does not come back. -/
def processBuffer : Option Loader :=
  let cmd := s.dataBuff procBuff
  let s := { s with dataBuff := Ram.store s.dataBuff 0 [cmd], buffSize := 0 }
  if cmd = 1 then
    some (s.respond [cmd, (getVersion >>> 8).toUInt8, (getVersion &&& 0xFF).toUInt8])
  else if cmd = 2 then
    some ({ s with nvm := s.nvm.nvmAppErase appStartAddress flashEndAddress }.respond [cmd])
  else if cmd = 3 then
    match nvmProgramHexRecord s.dataBuff (procBuff + 1) (s.cmdBuffLen - 3) s.nvm with
    | (_, none) => none
    | (nvm, some .normal) => some ({ s with nvm := nvm }.respond [cmd])
    | (nvm, some _) => some { s with nvm := nvm }
  else if cmd = 4 then
    let address := word32 s.dataBuff (procBuff + 1)
    let length := word32 s.dataBuff (procBuff + 5)
    let crc := (calculateCrc (Ram.load env.memory address.toNat length.toNat)).toUInt16
    some (s.respond [cmd, crc.toUInt8, (crc >>> 8).toUInt8])
  else if cmd = 5 then some ({ s with prevState := .enterApplication }.respond [cmd])
  else some s

/-! ## Responses -/

/-- `procBuff[BuffLen++] = b`. -/
def put (b : UInt8) (p : Ram × UInt32) : Ram × UInt32 :=
  (Ram.store p.1 (procBuff + p.2.toNat) [b], p.2 + 1)

/-- A byte of the response, behind a DLE where it would be read as the beginning or the end. -/
def putEscaped (p : Ram × UInt32) (i : Nat) : Ram × UInt32 :=
  let p := if p.1 i = EOT ∨ p.1 i = SOH ∨ p.1 i = DLE then put DLE p else p
  put (p.1 i) p

/-- The check behind the `n` bytes of the response, and their frame in `procBuff`; how long it is. -/
def putFrame (m : Ram) (n : Nat) : Ram × UInt32 :=
  let crc := (calculateCrc (Ram.load m 0 n)).toUInt16
  let m := Ram.store (Ram.store m n [crc.toUInt8]) (n + 1) [(crc >>> 8).toUInt8]
  put EOT ((List.range (n + 2)).foldl putEscaped (put SOH (m, 0)))

/-- `BOOTLOADER_SEND_RESPONSE`. -/
def sendResponse : Loader :=
  if s.buffSize ≠ 0 then
    let p := putFrame s.dataBuff s.buffSize.toNat
    { ({ s with dataBuff := p.1, buffSize := 0 }.dataWrite procBuff p.2) with
      prevState := if s.prevState ≠ .enterApplication then .sendResponse else s.prevState
      currentState := .waitForDone }
  else s

/-! ## The state machine -/

/-- The `switch` of `bootloader_UDP_Tasks`. -/
def switch : Option Loader :=
  match s.currentState with
  | .openDatastream =>
    let (s, valid) := s.datastreamOpen env
    some (if valid then { s with currentState := .getCommand } else s)
  | .getCommand =>
    some (if env.isConnected then
      { ({ s with buffSize := bootloaderBufferSize }.dataRead 0 bootloaderBufferSize) with
        prevState := .getCommand
        currentState := .waitForDone }
    else s)
  | .waitForDone =>
    some (if s.usrBufferEventComplete then
      { s with
        usrBufferEventComplete := false
        currentState :=
          if s.prevState = .getCommand then .processCommand
          else if s.prevState = .enterApplication then .enterApplication
          else .getCommand }
    else s)
  | .processCommand => s.processBuffer env
  | .sendResponse => some s.sendResponse
  | .enterApplication => some { s with currentState := .getCommand }
  | .closeDatastream | .error => some { s with currentState := .error }

/-- `bootloader_UDP_Tasks`. -/
def bootloaderUdpTasks : Option Loader := (s.switch env).map fun s => s.datastreamTasks env

/-- What happens: the host's datagrams arrive, and the tasks are called. -/
inductive Event
  | arrives (d : Bytes)
  | pass (env : Pass)

/-- **One event of the loader.** -/
def step (s : Loader) : Event → Option Loader
  | .arrives d => some { s with rx := s.rx ++ [d] }
  | .pass env => s.bootloaderUdpTasks env

end Loader

end Rastreo.Boot
