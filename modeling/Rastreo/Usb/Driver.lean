import Rastreo.Simcom.Tasks
import Rastreo.Lib.Run

/-!
# The USB client driver of the modem (`usb_A7672E.c`)

The driver between the host layer that calls it and the task that uses it.

* `Host`: the one entry of the device list (`USB_HOST_DEVICES_NUMBER` is 1) and the pool of pipe
  objects, with the functions of `usb_host.c` the driver calls.
* `Driver`: `gUSBHostSIMCOMObj`. Its eleven pipe handles are one function of `PipeId`. The
  interface handles and numbers and the control pipe are left out: nothing reads them.
* `Bus`: both, the application (`Simcom.Sys`) and the calls its event handler has got.

`usbStep` takes one call of the host layer or of the application at a time. A call the host layer
does not make in that state (a device level call for a device no driver owns) is no step.
-/

namespace Rastreo.Usb

open Rastreo.Lib Rastreo.Simcom

/-! ## The host layer -/

/-- A `USB_HOST_PIPE_HANDLE` other than `USB_HOST_PIPE_HANDLE_INVALID`: the number of its object
in `gUSBHostPipeObj` (`USB_HOST_PIPES_NUMBER` is 16). -/
abbrev PipeHandle := Fin 16

/-- What the host layer has of a device: its entry, and the pipe objects. -/
structure Host where
  /-- `deviceIdentifier`, another one for each device that is enumerated. -/
  deviceIdentifier : ℕ
  inUse : Bool
  /-- `deviceClientDriver != NULL`. -/
  deviceClientDriver : Bool
  /-- The device each pipe object in use belongs to. -/
  pipeObj : PipeHandle → Option ℕ

/-- The pipe is open, and one of the attached device. -/
def Host.Open (h : Host) (i : PipeHandle) : Prop :=
  h.inUse = true ∧ h.pipeObj i = some h.deviceIdentifier

/-- The pipe objects not in use. -/
def Host.free (h : Host) : Finset PipeHandle := Finset.univ.filter fun i => h.pipeObj i = none

/-- `USB_HOST_DeviceEnumerate`, into a free entry. -/
def Host.deviceEnumerate (h : Host) : Host :=
  { h with deviceIdentifier := h.deviceIdentifier + 1, inUse := true, deviceClientDriver := false }

/-- `USB_HOST_DevicePipeOpen` for an interface of the device; `setup` is whether the controller
sets the pipe up. -/
def Host.devicePipeOpen (h : Host) (device : ℕ) (setup : Bool) : Option PipeHandle × Host :=
  if h.inUse ∧ device = h.deviceIdentifier then
    match (List.finRange 16).find? fun i => (h.pipeObj i).isNone with
    | some i =>
      if setup then (some i, { h with pipeObj := Function.update h.pipeObj i (some device) })
      else (none, h)
    | none => (none, h)
  else (none, h)

/-- `USB_HOST_DevicePipeClose`. -/
def Host.devicePipeClose (h : Host) (i : PipeHandle) : Host :=
  if h.pipeObj i = some h.deviceIdentifier then
    { h with pipeObj := Function.update h.pipeObj i none }
  else h

/-- `USB_HOST_DeviceRelease`. -/
def Host.deviceRelease (h : Host) : Host :=
  if h.inUse then { h with deviceClientDriver := false } else h

/-! ## The driver's data -/

/-- The pipe handles of the four interfaces. -/
inductive PipeId
  | rndisBulkIn
  | rndisBulkOut
  | rndisInterrupt
  | diagBulkIn
  | diagBulkOut
  | atBulkIn
  | atBulkOut
  | atInterrupt
  | ecmBulkIn
  | ecmBulkOut
  | ecmInterrupt
  deriving DecidableEq, Repr

/-- In the order `F_USB_HOST_SIMCOM_DeviceRelease` closes them. -/
def PipeId.all : List PipeId :=
  [.rndisBulkIn, .rndisBulkOut, .rndisInterrupt, .diagBulkIn, .diagBulkOut, .atBulkIn, .atBulkOut,
    .atInterrupt, .ecmBulkIn, .ecmBulkOut, .ecmInterrupt]

/-- `USB_HOST_SIMCOM_STATE`. -/
inductive DriverState
  | error
  | notReady
  | setConfiguration
  | waitForConfigurationSet
  | waitForInterfaces
  | ready
  deriving DecidableEq, Repr

/-- What `USB_HOST_SIMCOM_EventHandlerSet` is called with: one function in the whole program. -/
inductive Handler
  | simcomEventHandler
  deriving DecidableEq, Repr

/-- `USB_HOST_SIMCOM_INSTANCE_OBJ`; an invalid handle and a NULL handler are `none`. -/
structure Driver where
  deviceClientHandle : Option ℕ
  deviceObjHandle : Option ℕ
  pipe : PipeId → Option PipeHandle
  hostRequestDone : Bool
  hostRequestResult : HostResult
  eventHandler : Option Handler
  state : DriverState

/-- The host layer, the driver and the application. -/
structure Bus where
  host : Host
  driver : Driver
  app : Sys
  /-- The calls of `simcomEventHandler`: the event, and the length in the record `eventData`
  points to, `none` for NULL. -/
  calls : List (UsbEvent × Option ℕ)

/-- After `F_USB_HOST_SIMCOM_Initialize`, `usb_simcom_init` and `simcom_init`. -/
def usbInit : Bus where
  host := ⟨0, false, false, fun _ => none⟩
  driver := ⟨none, none, fun _ => none, false, .other, none, .notReady⟩
  app := simcomInit
  calls := []

/-! ## Descriptors -/

/-- `USB_TRANSFER_TYPE`. -/
inductive TransferType
  | control
  | isochronous
  | bulk
  | interrupt
  deriving DecidableEq, Repr

/-- `USB_DATA_DIRECTION`. -/
inductive Direction
  | hostToDevice
  | deviceToHost
  deriving DecidableEq, Repr

/-- `USB_ENDPOINT_DESCRIPTOR`, what the query reads. -/
structure EndpointDescriptor where
  bEndpointAddress : ℕ
  transferType : TransferType
  direction : Direction
  deriving DecidableEq, Repr

/-- `USB_INTERFACE_DESCRIPTOR`, with its endpoints. -/
structure InterfaceDescriptor where
  bInterfaceNumber : ℕ
  bInterfaceClass : ℕ
  bInterfaceSubClass : ℕ
  bInterfaceProtocol : ℕ
  endpoints : List EndpointDescriptor
  deriving DecidableEq, Repr

/-- The endpoint a pipe is opened to. -/
def PipeId.endpoint : PipeId → TransferType × Direction
  | .rndisBulkIn | .diagBulkIn | .atBulkIn | .ecmBulkIn => (.bulk, .deviceToHost)
  | .rndisBulkOut | .diagBulkOut | .atBulkOut | .ecmBulkOut => (.bulk, .hostToDevice)
  | .rndisInterrupt | .atInterrupt | .ecmInterrupt => (.interrupt, .deviceToHost)

/-- `USB_HOST_DeviceEndpointDescriptorQuery` by transfer type and direction. -/
def InterfaceDescriptor.query (d : InterfaceDescriptor) (p : PipeId) : Option EndpointDescriptor :=
  d.endpoints.find? fun e => (e.transferType, e.direction) = p.endpoint

/-- The pipes of an interface that comes alone. All but those three are released. -/
def InterfaceDescriptor.pipes (d : InterfaceDescriptor) : List PipeId :=
  if d.bInterfaceClass = 0xFF then
    match d.bInterfaceNumber with
    | 0x02 => [.diagBulkIn, .diagBulkOut]
    | 0x04 => [.atInterrupt, .atBulkIn, .atBulkOut]
    | 0x05 => [.ecmInterrupt, .ecmBulkIn, .ecmBulkOut]
    | _ => []
  else []

/-- The pipes of an interface of an association, which is taken to be the RNDIS modem. -/
def InterfaceDescriptor.associationPipes (d : InterfaceDescriptor) : List PipeId :=
  if d.bInterfaceClass = 0xE0 ∧ d.bInterfaceSubClass = 0x01 ∧ d.bInterfaceProtocol = 0x03 then
    [.rndisInterrupt]
  else if d.bInterfaceClass = 0x0A then [.rndisBulkIn, .rndisBulkOut]
  else []

/-- What the host layer assigns at once. -/
inductive Assigned
  | interface (d : InterfaceDescriptor)
  /-- An association: what the two interface queries find. -/
  | association (d₁ d₂ : Option InterfaceDescriptor)

/-- The pipes to open, in order, each with its endpoint if the interface has it. -/
def Assigned.openings : Assigned → List (PipeId × Option EndpointDescriptor)
  | .interface d => d.pipes.map fun p => (p, d.query p)
  | .association d₁ d₂ =>
    (d₁.toList ++ d₂.toList).flatMap fun d => d.associationPipes.map fun p => (p, d.query p)

/-! ## The functions of the driver -/

/-- `F_USB_HOST_SIMCOM_DeviceAssign`, which releases a device without configurations. -/
def deviceAssign (bNumConfigurations : ℕ) (u : Bus) : Bus :=
  let d := { u.driver with
    deviceClientHandle := some u.host.deviceIdentifier
    deviceObjHandle := some u.host.deviceIdentifier }
  if 0 < bNumConfigurations then { u with driver := { d with state := .setConfiguration } }
  else { u with driver := { d with state := .error }, host := u.host.deviceRelease }

/-- `if (handle != INVALID) { USB_HOST_DevicePipeClose(handle); handle = INVALID; }`. -/
def closePipe (u : Bus) (p : PipeId) : Bus :=
  match u.driver.pipe p with
  | some i =>
    { u with
      host := u.host.devicePipeClose i
      driver := { u.driver with pipe := Function.update u.driver.pipe p none } }
  | none => u

/-- `if (eventHandler != NULL) eventHandler(event, eventData, context);`. -/
def callHandler (event : UsbEvent) (eventData : Option ℕ) (u : Bus) : Bus :=
  match u.driver.eventHandler with
  | some .simcomEventHandler =>
    { u with
      app := Simcom.simcomEventHandler event eventData u.app
      calls := u.calls ++ [(event, eventData)] }
  | none => u

/-- `USB_HOST_DEVICE_INTERFACE_EVENT`; a completed transfer with its length. -/
inductive InterfaceEvent
  | transferComplete (length : ℕ)
  | other

/-- `F_USB_HOST_SIMCOM_InterfaceEventHandler`: `context` is the event the transfer was started
for. -/
def interfaceEventHandler (e : InterfaceEvent) (context : UsbEvent) (u : Bus) : Bus :=
  match e with
  | .transferComplete length => callHandler context (some length) u
  | .other => u

/-- `F_USB_HOST_SIMCOM_DeviceRelease`. Closing a pipe completes the transfers `aborted` on it. -/
def deviceRelease (aborted : List (UsbEvent × ℕ)) (u : Bus) : Bus :=
  let u := aborted.foldl (fun u c => interfaceEventHandler (.transferComplete c.2) c.1 u) u
  let u := PipeId.all.foldl closePipe u
  let u := callHandler .deviceDetached none u
  { u with driver :=
      { u.driver with eventHandler := none, deviceObjHandle := none, deviceClientHandle := none } }

/-- The pipe's handle is what `USB_HOST_DevicePipeOpen` answers, and invalid if the interface has
no such endpoint. -/
def openPipe (setup : ℕ → Bool) (u : Bus) (o : PipeId × Option EndpointDescriptor) : Bus :=
  match o.2 with
  | some e =>
    let r := u.host.devicePipeOpen u.host.deviceIdentifier (setup e.bEndpointAddress)
    { u with
      host := r.2
      driver := { u.driver with pipe := Function.update u.driver.pipe o.1 r.1 } }
  | none => { u with driver := { u.driver with pipe := Function.update u.driver.pipe o.1 none } }

/-- `F_USB_HOST_SIMCOM_InterfaceAssign`; `setup` answers for the controller, by endpoint. -/
def interfaceAssign (a : Assigned) (setup : ℕ → Bool) (u : Bus) : Bus :=
  a.openings.foldl (openPipe setup) u

/-- `USB_HOST_DEVICE_EVENT`, as far as the driver tells its values apart. -/
inductive DeviceEvent
  | configurationSet (result : HostResult)
  | configurationDescriptorGetComplete
  | other

/-- `F_USB_HOST_SIMCOM_DeviceEventHandler`. -/
def deviceEventHandler (e : DeviceEvent) (d : Driver) : Driver :=
  match e with
  | .configurationSet result => { d with hostRequestResult := result, hostRequestDone := true }
  | .configurationDescriptorGetComplete => d
  | .other => d

/-- `F_USB_HOST_SIMCOM_DeviceTasks`; `set` is what `USB_HOST_DeviceConfigurationSet` answers. -/
def deviceTasks (set : HostResult) (d : Driver) : Driver :=
  match d.state with
  | .notReady => d
  | .setConfiguration =>
    let d := { d with hostRequestDone := false }
    if set = .success then { d with state := .waitForConfigurationSet } else d
  | .waitForConfigurationSet =>
    if d.hostRequestDone then
      if d.hostRequestResult = .success then { d with state := .waitForInterfaces }
      else { d with state := .error }
    else d
  | .waitForInterfaces =>
    if PipeId.all.all fun p => (d.pipe p).isSome then { d with state := .ready } else d
  | .ready => d
  | .error => d

/-- `USB_HOST_SIMCOM_EventHandlerSet`. -/
def eventHandlerSet (h : Handler) (d : Driver) : Driver := { d with eventHandler := some h }

/-- `USB_HOST_SIMCOM_IsInReadyState`. -/
def isInReadyState (d : Driver) : Bool := d.state = .ready

/-! ## The transfer functions -/

/-- What `USB_HOST_DeviceTransfer` is called with. -/
structure Request where
  pipeHandle : Option PipeHandle
  context : UsbEvent
  deriving DecidableEq, Repr

/-- What the eleven functions have in common: the answer of the driver itself, or the request it
makes. -/
def request (p : PipeId) (context : UsbEvent) (d : Driver) (dataIsNull : Bool) (size : ℕ) :
    Except SimcomResult Request :=
  if d.state ≠ .ready then .error .busy
  else if size ≠ 0 ∧ dataIsNull then .error .invalidParameter
  else .ok ⟨d.pipe p, context⟩

/-- `USB_HOST_SIMCOM_AT_Write`. -/
def atWrite := request .atBulkOut .atWriteComplete
/-- `USB_HOST_SIMCOM_AT_Read`. -/
def atRead := request .atBulkIn .atReadComplete
/-- `USB_HOST_SIMCOM_AT_SerialStateNotificationGet`. -/
def atSerialStateNotificationGet := request .atInterrupt .atSerialStateNotificationReceived
/-- `USB_HOST_SIMCOM_RNDIS_Write`. -/
def rndisWrite := request .rndisBulkOut .rndisWriteComplete
/-- `USB_HOST_SIMCOM_RNDIS_Read`. -/
def rndisRead := request .rndisBulkIn .rndisReadComplete
/-- `USB_HOST_SIMCOM_RNDIS_SerialStateNotificationGet`. -/
def rndisSerialStateNotificationGet :=
  request .rndisInterrupt .rndisSerialStateNotificationReceived
/-- `USB_HOST_SIMCOM_ECM_Write`. -/
def ecmWrite := request .ecmBulkOut .ecmWriteComplete
/-- `USB_HOST_SIMCOM_ECM_Read`. -/
def ecmRead := request .ecmBulkIn .ecmReadComplete
/-- `USB_HOST_SIMCOM_ECM_SerialStateNotificationGet`. -/
def ecmSerialStateNotificationGet := request .ecmInterrupt .ecmSerialStateNotificationReceived
/-- `USB_HOST_SIMCOM_DIAG_Write`. -/
def diagWrite := request .diagBulkOut .diagWriteComplete
/-- `USB_HOST_SIMCOM_DIAG_Read`. -/
def diagRead := request .diagBulkIn .diagReadComplete

/-- The event of the function that uses the pipe. -/
def PipeId.event : PipeId → UsbEvent
  | .rndisBulkIn => .rndisReadComplete
  | .rndisBulkOut => .rndisWriteComplete
  | .rndisInterrupt => .rndisSerialStateNotificationReceived
  | .diagBulkIn => .diagReadComplete
  | .diagBulkOut => .diagWriteComplete
  | .atBulkIn => .atReadComplete
  | .atBulkOut => .atWriteComplete
  | .atInterrupt => .atSerialStateNotificationReceived
  | .ecmBulkIn => .ecmReadComplete
  | .ecmBulkOut => .ecmWriteComplete
  | .ecmInterrupt => .ecmSerialStateNotificationReceived

/-- The function that uses the pipe. -/
def PipeId.transfer : PipeId → Driver → Bool → ℕ → Except SimcomResult Request
  | .rndisBulkIn => rndisRead
  | .rndisBulkOut => rndisWrite
  | .rndisInterrupt => rndisSerialStateNotificationGet
  | .diagBulkIn => diagRead
  | .diagBulkOut => diagWrite
  | .atBulkIn => atRead
  | .atBulkOut => atWrite
  | .atInterrupt => atSerialStateNotificationGet
  | .ecmBulkIn => ecmRead
  | .ecmBulkOut => ecmWrite
  | .ecmInterrupt => ecmSerialStateNotificationGet

/-- `USB_HOST_DeviceTransfer`: an invalid handle is refused, else the host layer answers. -/
def deviceTransfer (answer : HostResult) (pipeHandle : Option PipeHandle) : HostResult :=
  if pipeHandle = none then .pipeHandleInvalid else answer

/-! ## Steps -/

/-- `USB_HOST_DeviceDenumerate`. -/
def deviceDenumerate (aborted : List (UsbEvent × ℕ)) (u : Bus) : Bus :=
  let u := if u.host.deviceClientDriver then deviceRelease aborted u else u
  { u with host := { u.host with inUse := false, deviceClientDriver := false } }

/-- What the completed transfer leaves with the application before it is told. -/
def received (event : UsbEvent) (chunk : Bytes) (s : Sys) : Option Sys :=
  match event with
  | .atReadComplete =>
    (s.buffRecv.store 0 chunk).map fun buff => { s with buffRecv := buff, reads := s.reads - 1 }
  | .atWriteComplete => some { s with writes := s.writes.tail }
  | _ => some s

/-- A call of `simcom_tasks`: the driver's two answers, and the handler set on leaving the wait
for it. `io` is asked for what lies beyond the driver. -/
def appTasks (io : Io) (u : Bus) : Bus :=
  let io := { io with
    driverReady := isInReadyState u.driver
    write := deviceTransfer io.write (u.driver.pipe .atBulkOut)
    payload := deviceTransfer io.payload (u.driver.pipe .atBulkOut)
    read := deviceTransfer io.read (u.driver.pipe .atBulkIn) }
  { u with
    driver :=
      if u.app.state = .waitingDriverReady ∧ isInReadyState u.driver then
        eventHandlerSet .simcomEventHandler u.driver
      else u.driver
    app := simcomTasks io u.app }

/-- A call into the driver or the application, by the host layer or the main loop. -/
inductive UsbStep
  /-- A device is plugged in and enumerated. -/
  | deviceEnumerate
  | deviceAssign (bNumConfigurations : ℕ)
  | deviceTasks (set : HostResult)
  | deviceEvent (e : DeviceEvent)
  | interfaceAssign (a : Assigned) (setup : ℕ → Bool)
  /-- A transfer completes with these bytes. -/
  | transferComplete (context : UsbEvent) (chunk : Bytes)
  /-- Another interface event. -/
  | interfaceEvent (context : UsbEvent)
  /-- A call of a transfer function. It changes only the host layer's own transfer objects. -/
  | transfer (p : PipeId) (dataIsNull : Bool) (size : ℕ)
  /-- The device is unplugged. -/
  | deviceDenumerate (aborted : List (UsbEvent × ℕ))
  | simcomTasks (io : Io)
  /-- The 1 ms timer. -/
  | tick

/-- One call; `none` when the host layer does not make it. -/
def usbStep (u : Bus) : UsbStep → Option Bus
  | .deviceEnumerate =>
    if u.host.inUse then none else some { u with host := u.host.deviceEnumerate }
  | .deviceAssign n =>
    if u.host.inUse ∧ ¬ u.host.deviceClientDriver then
      some (deviceAssign n { u with host := { u.host with deviceClientDriver := true } })
    else none
  | .deviceTasks set =>
    if u.host.deviceClientDriver then some { u with driver := deviceTasks set u.driver } else none
  | .deviceEvent e =>
    if u.host.deviceClientDriver then some { u with driver := deviceEventHandler e u.driver }
    else none
  | .interfaceAssign a setup =>
    if u.host.deviceClientDriver then some (interfaceAssign a setup u) else none
  | .transferComplete context chunk =>
    (received context chunk u.app).map fun app =>
      interfaceEventHandler (.transferComplete chunk.length) context { u with app := app }
  | .interfaceEvent context => some (interfaceEventHandler .other context u)
  | .transfer _ _ _ => some u
  | .deviceDenumerate aborted =>
    if u.host.inUse then some (deviceDenumerate aborted u) else none
  | .simcomTasks io => some (appTasks io u)
  | .tick => some { u with app := resendATCommandCB u.app }

/-! ## What the functions leave alone -/

section Frame

variable {u : Bus}

theorem mem_all (p : PipeId) : p ∈ PipeId.all := by
  cases p <;> decide

/-- The eleven functions are one but for their pipe and event. -/
theorem transfer_eq (p : PipeId) : p.transfer = request p p.event := by
  cases p <;> rfl

/-- The request of each function is on its pipe. -/
theorem transfer_eq_ok {p : PipeId} {d : Driver} {dataIsNull : Bool} {size : ℕ} {r : Request}
    (h : p.transfer d dataIsNull size = .ok r) : d.state = .ready ∧ r.pipeHandle = d.pipe p := by
  rw [transfer_eq, request] at h
  split at h
  · cases h
  · next hs =>
    split at h
    · cases h
    · cases h
      exact ⟨not_not.mp hs, rfl⟩

/-- A ready driver makes the request of an empty transfer. -/
theorem transfer_of_ready {p : PipeId} {d : Driver} (h : d.state = .ready) :
    p.transfer d false 0 = .ok ⟨d.pipe p, p.event⟩ := by
  rw [transfer_eq, request, if_neg (not_not.mpr h), if_neg fun hc => hc.1 rfl]

@[simp] theorem callHandler_host (ev : UsbEvent) (data : Option ℕ) :
    (callHandler ev data u).host = u.host := by
  unfold callHandler
  split <;> rfl

@[simp] theorem callHandler_driver (ev : UsbEvent) (data : Option ℕ) :
    (callHandler ev data u).driver = u.driver := by
  unfold callHandler
  split <;> rfl

theorem callHandler_calls (ev : UsbEvent) (data : Option ℕ) :
    (callHandler ev data u).calls =
      if u.driver.eventHandler = none then u.calls else u.calls ++ [(ev, data)] := by
  unfold callHandler
  split
  · next h => rw [if_neg (by rw [h]; simp)]
  · next h => rw [if_pos h]

end Frame

end Rastreo.Usb
