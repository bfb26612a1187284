import Rastreo.Simcom.Gps
import Rastreo.Lib.Buffer

/-!
# The state of the modem task (`A7672E.h`, `A7672E.c`, `usb_A7672E.c`)

`Sys` holds the file-scope variables of `A7672E.c`, the two static buffers of `simcom_tasks` and,
beside them, what the USB driver has accepted: the number of reads in flight into `buffRecv` and
the writes in flight, oldest first. `trace` is a record of what the task did, newest first; no
definition of the code reads it. `fault` is set where the C code's behaviour is undefined.

`resendATCommand` is left out (`simcom_init` writes it and nothing reads it), and so is the timer
handle.
-/

namespace Rastreo.Simcom

open Rastreo.Lib

/-- `SIMCOM_STATE`. -/
inductive State
  | error
  | waitingDriverReady
  | notReady
  | disablingEco
  | settingFullFunctionality
  | gettingSimPinStatus
  | gettingMobileNetworkStatus
  | gettingGprsNetworkStatus
  | gettingEpsNetworkStatus
  | definingPdpContext
  | activatingPdpContext
  | verifyPdpAddress
  | enablingGnss
  | setGpsMode
  | coldStartGps
  | startGpsTestMode
  | httpsInit
  | httpsSetUrl
  | httpsSetJsonFormat
  | requestGpsInfo
  | httpPostData
  | httpSendGetRequest
  | httpWaitGetResponse
  | httpSendPostRequest
  | httpWaitPostResponse
  | httpReadHeader
  | httpReadResponse
  | httpStopService
  | ready
  deriving DecidableEq, Repr

/-! ## Commands and responses -/

/-- `AT_DISABLE_ECO`. -/
def atDisableEco := ascii "ATE0\r"
/-- `AT_SET_FULL_FUNCTIONALITY`. -/
def atSetFullFunctionality := ascii "AT+CFUN=1\r"
/-- `AT_SIM_PIN_STATUS`. -/
def atSimPinStatus := ascii "AT+CPIN?\r"
/-- `AT_MOBILE_NETWORK_STATUS`. -/
def atMobileNetworkStatus := ascii "AT+CREG?\r"
/-- `AT_GPRS_NETWORK_STATUS`. -/
def atGprsNetworkStatus := ascii "AT+CGREG?\r"
/-- `AT_EPS_NETWORK_STATUS`. -/
def atEpsNetworkStatus := ascii "AT+CEREG?\r"
/-- `AT_DEFINE_PDP_CONTEXT`. -/
def atDefinePdpContext := ascii "AT+CGDCONT=1,\"IP\",\"orangeworld\"\r"
/-- `AT_ACTIVATE_PDP_CONTEXT`. -/
def atActivatePdpContext := ascii "AT+CGACT=1,1\r"
/-- `AT_VERIFY_PDP_ADDRESS`. -/
def atVerifyPdpAddress := ascii "AT+CGPADDR=1\r"
/-- `AT_HTTPS_INIT`. -/
def atHttpsInit := ascii "AT+HTTPINIT\r"
/-- `AT_HTTPS_SET_URL`. -/
def atHttpsSetUrl := ascii "AT+HTTPPARA=\"URL\",\"http://simcomtest.serveo.net/posicion\"\r"
/-- `AT_HTTP_SET_JSON_FORMAT`. -/
def atHttpSetJsonFormat := ascii "AT+HTTPPARA=\"CONTENT\",\"application/json\"\r"
/-- `AT_HTTP_SEND_POST_REQUEST`. -/
def atHttpSendPostRequest := ascii "AT+HTTPACTION=1\r"
/-- `AT_HTTP_READ_HEADER`. -/
def atHttpReadHeader := ascii "AT+HTTPHEAD\r"
/-- `AT_HTTP_READ_RESPONSE`. -/
def atHttpReadResponse := ascii "AT+HTTPREAD=0,500\r"
/-- `AT_HTTP_INPUT_POST_DATA`, to be completed. -/
def atHttpInputPostData := ascii "AT+HTTPDATA="
/-- `AT_HTTP_STOP_SERVICE`. -/
def atHttpStopService := ascii "AT+HTTPTERM\r"

/-- `"\r\nOK\r\n"`. -/
def okText := ascii "\r\nOK\r\n"

/-- `"\r\nERROR\r\n"`. -/
def errorText := ascii "\r\nERROR\r\n"

/-- `"\r\n*ATREADY: 1\r\n"`. -/
def atReadyText := ascii "\r\n*ATREADY: 1\r\n"

/-- `"\r\nDOWNLOAD\r\n"`. -/
def downloadText := ascii "\r\nDOWNLOAD\r\n"

/-- `"\r\n+HTTPREAD: 0\r\n"`. -/
def httpReadText := ascii "\r\n+HTTPREAD: 0\r\n"

/-- `"\r\n+HTTPACTION: 1"`, compared over 16 bytes. -/
def httpActionText := ascii "\r\n+HTTPACTION: 1"

/-- `"\r\n+CGPADDR:"`, compared over 11 bytes. -/
def cgpaddrText := ascii "\r\n+CGPADDR:"

/-! ## The driver's side -/

/-- `USB_HOST_RESULT`, as far as the driver tells its values apart; `other` is the `default`. -/
inductive HostResult
  | success
  | failure
  | parameterInvalid
  | pipeHandleInvalid
  | requestBusy
  | requestStalled
  | transferAborted
  | other
  deriving DecidableEq, Repr

/-- `USB_HOST_SIMCOM_RESULT`. -/
inductive SimcomResult
  | failure
  | requestStalled
  | invalidParameter
  | busy
  | aborted
  | handleInvalid
  | success
  deriving DecidableEq, Repr

/-- `F_USB_HOST_SIMCOM_HostResutlToSIMCOMResultMap`. -/
def hostResultToSimcomResultMap : HostResult → SimcomResult
  | .success => .success
  | .failure | .parameterInvalid | .pipeHandleInvalid => .failure
  | .requestBusy => .busy
  | .requestStalled => .requestStalled
  | .transferAborted => .aborted
  | .other => .failure

/-- What one call of the task gets from outside: whether the driver is in its ready state, what
`USB_HOST_DeviceTransfer` answers to the command write, to the payload write and to the read, and
four values of `rand()`. -/
structure Io where
  driverReady : Bool
  write : HostResult
  payload : HostResult
  read : HostResult
  rand : Nat × Nat × Nat × Nat

/-- `USB_HOST_SIMCOM_AT_Write` and `USB_HOST_SIMCOM_AT_Read` for a buffer that is not NULL, by what
`USB_HOST_DeviceTransfer` answers. -/
def atTransfer (driverReady : Bool) (host : HostResult) : SimcomResult :=
  if driverReady then hostResultToSimcomResultMap host else .busy

/-- The command write is accepted. -/
def Io.writes (io : Io) : Bool := atTransfer io.driverReady io.write == .success

/-- The payload write is accepted. -/
def Io.writesPayload (io : Io) : Bool := atTransfer io.driverReady io.payload == .success

/-- The read is accepted. -/
def Io.reads (io : Io) : Bool := atTransfer io.driverReady io.read == .success

/-- The buffer given to `USB_HOST_SIMCOM_AT_Write`. -/
inductive Source
  | literal (cmd : Bytes)
  | postCmd
  | postData
  deriving DecidableEq, Repr

/-- A write transfer: its buffer, and the bytes it held at the call. -/
structure Transfer where
  src : Source
  bytes : Bytes
  deriving DecidableEq, Repr

/-! ## The task's side -/

/-- What the task does to the outside, for the record. -/
inductive Action
  /-- `AT_Write` accepted a transfer. -/
  | wrote (t : Transfer)
  /-- The prompt `DOWNLOAD` was recognised in the receive buffer. -/
  | prompt
  /-- `simcomObj.state` was assigned. -/
  | entered (q : State)
  deriving DecidableEq, Repr

/-- `SIMCOM_TRANSFER_FLAGS`. -/
structure TransferFlags where
  ATread : Bool
  ATwrite : Bool
  ATserial : Bool
  RNDISread : Bool
  RNDISwrite : Bool
  RNDISserial : Bool
  ECMread : Bool
  ECMwrite : Bool
  ECMserial : Bool
  DIAGread : Bool
  DIAGwrite : Bool
  deriving DecidableEq, Repr

/-- `simcomObj` and the static buffers, the transfers in flight, and what the task did. -/
structure Sys where
  flags : TransferFlags
  gpsInfo : GpsInfo
  assignedIP : UInt32
  state : State
  timer : UInt32
  pendingATCommandParse : Bool
  pendingResponse : Bool
  buffRecv : Buf 512
  postData : Buf 64
  fault : Bool
  reads : Nat
  writes : List Transfer
  trace : List Action
  deriving DecidableEq, Repr

/-- `simcom_init`, with the static buffers zero as the program loads them. -/
def simcomInit : Sys where
  flags :=
    { ATread := true, ATwrite := true, ATserial := true
      RNDISread := true, RNDISwrite := true, RNDISserial := true
      ECMread := true, ECMwrite := true, ECMserial := true
      DIAGread := true, DIAGwrite := true }
  gpsInfo := ⟨0, 0, 0, 0⟩
  assignedIP := 0
  state := .waitingDriverReady
  timer := 0
  pendingATCommandParse := false
  pendingResponse := false
  buffRecv := .clear
  postData := .clear
  fault := false
  reads := 0
  writes := []
  trace := []

/-- The events the driver raises. -/
inductive UsbEvent
  | atReadComplete
  | atWriteComplete
  | atSerialStateNotificationReceived
  | rndisReadComplete
  | rndisWriteComplete
  | rndisSerialStateNotificationReceived
  | ecmReadComplete
  | ecmWriteComplete
  | ecmSerialStateNotificationReceived
  | diagReadComplete
  | diagWriteComplete
  | deviceDetached
  deriving DecidableEq, Repr

/-- `simcomEventHandler`; `eventData` is `none` when the driver passes NULL, which the handler
dereferences all the same. -/
def simcomEventHandler (event : UsbEvent) (eventData : Option Nat) (s : Sys) : Sys :=
  let s := if eventData = none then { s with fault := true } else s
  match event with
  | .atReadComplete =>
    { s with pendingATCommandParse := true, flags := { s.flags with ATread := true } }
  | .atWriteComplete =>
    { s with pendingResponse := true, flags := { s.flags with ATwrite := true } }
  | .atSerialStateNotificationReceived => { s with flags := { s.flags with ATserial := true } }
  | .rndisReadComplete => { s with flags := { s.flags with RNDISread := true } }
  | .rndisWriteComplete => { s with flags := { s.flags with RNDISwrite := true } }
  | .rndisSerialStateNotificationReceived =>
    { s with flags := { s.flags with RNDISserial := true } }
  | .ecmReadComplete => { s with flags := { s.flags with ECMread := true } }
  | .ecmWriteComplete => { s with flags := { s.flags with ECMwrite := true } }
  | .ecmSerialStateNotificationReceived => { s with flags := { s.flags with ECMserial := true } }
  | .diagReadComplete => { s with flags := { s.flags with DIAGread := true } }
  | .diagWriteComplete => { s with flags := { s.flags with DIAGwrite := true } }
  | .deviceDetached => s

/-- `resendATCommandCB`. -/
def resendATCommandCB (s : Sys) : Sys := if 1 < s.timer then { s with timer := s.timer - 1 } else s

end Rastreo.Simcom
