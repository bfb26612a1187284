import Rastreo.Lib.Run

/-!
# Counting the devices: `usb_simcom_tasks` (`usb_A7672E.c`)

`USBHost0Data` holds what the host layer reports about up to `MAX_NUM_DEVICES` devices. The task
asks for the first with `USB_HOST_DeviceGetFirst(0, &info[0])` and for the others with
`USB_HOST_DeviceGetNext(&info[i])`, which continues from the device that the element it is given
describes.

* `HostBus` is what the two functions of `usb_host.c` read: the entries of `gUSBHostDeviceList` and
  the list behind each. Entry 0 is the root hub, whose handle carries the identifier 1.
* `BusData.element` and `BusData.setElement` are `info[i]`, also for `i = MAX_NUM_DEVICES`: the
  element behind the array lies over `state`, `n_devices` and the byte after it.
* `Untouched`: the elements from 1 on are still zero, in every state before the devices are counted.
* `deviceGetNext_fresh`: from a zero element the host layer finds no device.
* `enumerates_iff`: however many devices the host layer is built for, the count is right exactly
  for at most one attached device.
* `enumerates`: the host layer is built for one device, and the count is always right.
-/

namespace Rastreo.Usb

open Rastreo.Lib

/-- `MAX_NUM_DEVICES`. -/
def maxNumDevices : ℕ := 5

/-- `USB_HOST_DEVICES_NUMBER` (`configuration.h`). -/
def usbHostDevicesNumber : ℕ := 1

/-! ## The host layer -/

/-- `USB_HOST_DEVICE_INFO`. -/
structure DeviceInfo where
  deviceObjHandle : UInt32
  deviceAddress : UInt8
  bus : UInt8
  deriving DecidableEq, Repr

/-- The results of the two functions. -/
inductive GetResult
  | success
  | busNotEnabled
  | endOfDeviceList
  | deviceUnknown
  deriving DecidableEq, Repr

/-- `USB_HOST_DEVICE_INDEX`. -/
def deviceIndex (handle : UInt32) : UInt32 := handle &&& 0xFF

/-- `USB_HOST_BUS_NUMBER`. -/
def busNumber (handle : UInt32) : UInt32 := (handle &&& 0xFF00) >>> 8

/-- `USB_HOST_PNP_IDENTIFIER`. -/
def pnpIdentifier (handle : UInt32) : UInt32 := (handle &&& 0xFFFF0000) >>> 16

/-- `M_USB_HOST_DeviceObjHandleGet`. -/
def deviceObjHandleGet (pnp busNumber deviceIndex : UInt32) : UInt32 :=
  (pnp <<< 16) ||| (busNumber <<< 8) ||| deviceIndex

/-- `USB_HOST_DEVICE_OBJ`. -/
structure DeviceObj where
  deviceIdentifier : UInt32
  deviceAddress : UInt8
  /-- `deviceState == USB_HOST_DEVICE_STATE_READY`. -/
  ready : Bool
  deriving DecidableEq, Repr

/-- The device list of the one bus. -/
structure HostBus where
  /-- The devices the host layer is built for: `usbHostDevicesNumber` in this program. -/
  devicesNumber : ℕ
  /-- The bus has reached `USB_HOST_BUS_STATE_ENABLED`. -/
  enabled : Bool
  gUSBHostDeviceList : ℕ → DeviceObj
  /-- The objects linked from an entry's `nextDeviceObj` on. -/
  nextDeviceObj : ℕ → List DeviceObj
  /-- `pnpIdentifier` is 0 when the root hub, the first device of all, increments it. -/
  rootHub : (gUSBHostDeviceList 0).deviceIdentifier = deviceObjHandleGet 1 0 0
  /-- A new device takes an entry that is not in use. -/
  length_le : (nextDeviceObj 0).length ≤ devicesNumber

/-- The devices the bus has to report. -/
def HostBus.attached (b : HostBus) : List DeviceObj :=
  if b.enabled then (b.nextDeviceObj 0).filter (·.ready) else []

/-- What is reported about a device. -/
def DeviceObj.info (o : DeviceObj) : DeviceInfo :=
  ⟨o.deviceIdentifier, o.deviceAddress, (busNumber o.deviceIdentifier).toUInt8⟩

/-- `USB_HOST_DeviceGetFirst` for bus 0. -/
def HostBus.deviceGetFirst (b : HostBus) (deviceInfo : DeviceInfo) : GetResult × DeviceInfo :=
  if b.enabled then
    match (b.nextDeviceObj 0).find? (·.ready) with
    | some o => (.success, o.info)
    | none => (.endOfDeviceList, { deviceInfo with deviceObjHandle := 0xFFFFFFFF })
  else (.busNotEnabled, { deviceInfo with deviceObjHandle := 0xFFFFFFFF })

/-- `USB_HOST_DeviceGetNext`. -/
def HostBus.deviceGetNext (b : HostBus) (deviceInfo : DeviceInfo) : GetResult × DeviceInfo :=
  let index := (deviceIndex deviceInfo.deviceObjHandle).toNat
  if b.devicesNumber ≤ index then (.deviceUnknown, deviceInfo)
  else if pnpIdentifier deviceInfo.deviceObjHandle ≠
      pnpIdentifier (b.gUSBHostDeviceList index).deviceIdentifier then (.deviceUnknown, deviceInfo)
  else
    match (b.nextDeviceObj index).find? (·.ready) with
    | some o => (.success, o.info)
    | none => (.endOfDeviceList, deviceInfo)

/-! ## The task's data -/

/-- `USB_HOST_STATE`; `other` is a value no constant has. -/
inductive HostState
  | error
  | init
  | enablingBus
  | gettingDevices
  | ready
  | other (w : UInt32)
  deriving DecidableEq, Repr

/-- The 32 bits of the state. -/
def HostState.word : HostState → UInt32
  | .error => 0xFFFFFFFF
  | .init => 0
  | .enablingBus => 1
  | .gettingDevices => 2
  | .ready => 3
  | .other w => w

/-- The state with these bits. -/
def HostState.ofWord (w : UInt32) : HostState :=
  if w = 0xFFFFFFFF then .error
  else if w = 0 then .init
  else if w = 1 then .enablingBus
  else if w = 2 then .gettingDevices
  else if w = 3 then .ready
  else .other w

/-- `USB_HOST_BUS_DATA`, with the byte behind `n_devices`. -/
structure BusData where
  info : Fin maxNumDevices → DeviceInfo
  state : HostState
  nDevices : UInt8
  padding : UInt8

/-- `USBHost0Data` as the program loads it, after `F_USB_HOST_HostDataInit`. -/
def hostDataInit : BusData := ⟨fun _ => ⟨0, 0, 0⟩, .init, 0, 0⟩

/-- `info[i]`. -/
def BusData.element (d : BusData) (i : ℕ) : DeviceInfo :=
  if h : i < maxNumDevices then d.info ⟨i, h⟩ else ⟨d.state.word, d.nDevices, d.padding⟩

/-- `info[i] = x`. -/
def BusData.setElement (d : BusData) (i : ℕ) (x : DeviceInfo) : BusData :=
  if h : i < maxNumDevices then { d with info := Function.update d.info ⟨i, h⟩ x }
  else
    { d with
      state := .ofWord x.deviceObjHandle
      nDevices := x.deviceAddress
      padding := x.bus }

/-- `while (USB_HOST_DeviceGetNext(&info[i]) == SUCCESS && i < MAX_NUM_DEVICES) { i++;
n_devices++; }`. -/
def getNextLoop (b : HostBus) (d : BusData) (i : ℕ) : BusData :=
  let (r, x) := b.deviceGetNext (d.element i)
  let d := d.setElement i x
  if r = .success ∧ i < maxNumDevices then
    getNextLoop b { d with nDevices := d.nDevices + 1 } (i + 1)
  else d
termination_by maxNumDevices - i

/-- The `case` of `USB_HOST_STATE_GETTING_DEVICES`, up to the assignment of the state: whether a
device was found. -/
def getDevices (b : HostBus) (d : BusData) : Bool × BusData :=
  let (r, x) := b.deviceGetFirst (d.element 0)
  let d := d.setElement 0 x
  if r = .success then (true, getNextLoop b { d with nDevices := d.nDevices + 1 } 1) else (false, d)

/-- What one call of the task finds: `USB_HOST_Status`, and the bus. -/
structure View where
  ready : Bool
  bus : HostBus

/-- **`usb_simcom_tasks`.** -/
def usbSimcomTasks (v : View) (d : BusData) : BusData :=
  match d.state with
  | .init => if v.ready then { d with state := .enablingBus } else d
  | .enablingBus => if v.bus.enabled then { d with state := .gettingDevices } else d
  | .gettingDevices =>
    let (found, d) := getDevices v.bus d
    { d with state := if found then .ready else .error }
  | .error | .ready | .other _ => d

/-- One call of the task. -/
def busDataStep (d : BusData) (v : View) : Option BusData := some (usbSimcomTasks v d)

/-! ## What the enumeration should do -/

/-- The enumeration writes nothing outside `info` and `n_devices`, and counts the attached devices,
as many as `info` has room for. -/
structure Enumerates (b : HostBus) (d : BusData) : Prop where
  state : (getDevices b d).2.state = d.state
  padding : (getDevices b d).2.padding = d.padding
  nDevices : (getDevices b d).2.nDevices.toNat = min b.attached.length maxNumDevices

/-! ## A fresh element -/

/-- The root hub's identifier is not the 0 of a fresh element. -/
theorem deviceGetNext_fresh (b : HostBus) {x : DeviceInfo} (hx : x.deviceObjHandle = 0) :
    b.deviceGetNext x = (.deviceUnknown, x) := by
  have hindex : (deviceIndex x.deviceObjHandle).toNat = 0 := by
    rw [hx]
    decide
  have hpnp : pnpIdentifier x.deviceObjHandle ≠
      pnpIdentifier (b.gUSBHostDeviceList 0).deviceIdentifier := by
    rw [hx, b.rootHub]
    decide
  unfold HostBus.deviceGetNext
  dsimp only
  rw [hindex, if_pos hpnp, ite_self]

/-- Writing an element back changes nothing. -/
theorem setElement_element (d : BusData) {i : ℕ} (h : i < maxNumDevices) :
    d.setElement i (d.element i) = d := by
  unfold BusData.setElement BusData.element
  rw [dif_pos h, dif_pos h, Function.update_eq_self]

/-- The loop stops at a fresh element, and leaves everything as it is. -/
theorem getNextLoop_fresh (b : HostBus) {d : BusData} {i : ℕ} (h : i < maxNumDevices)
    (hx : (d.element i).deviceObjHandle = 0) : getNextLoop b d i = d := by
  rw [getNextLoop, deviceGetNext_fresh b hx]
  dsimp only
  rw [setElement_element d h, if_neg (by simp)]

theorem element_one_setElement_zero (d : BusData) (x : DeviceInfo) :
    (d.setElement 0 x).element 1 = d.element 1 := by
  have hne : (⟨1, by decide⟩ : Fin maxNumDevices) ≠ ⟨0, by decide⟩ := by decide
  unfold BusData.setElement BusData.element
  rw [dif_pos (by decide), dif_pos (by decide), dif_pos (by decide)]
  exact Function.update_of_ne hne x d.info

/-- **The enumeration** while the second element is fresh: the first device, if there is one, is
reported and counted, and nothing is found behind it. -/
theorem getDevices_fresh (b : HostBus) {d : BusData} (hx : (d.element 1).deviceObjHandle = 0) :
    ∃ x, (getDevices b d).2 =
      { d.setElement 0 x with
        nDevices := if b.attached = [] then d.nDevices else d.nDevices + 1 } := by
  unfold getDevices HostBus.deviceGetFirst HostBus.attached
  by_cases he : b.enabled = true
  · rw [if_pos he, if_pos he]
    cases hfind : (b.nextDeviceObj 0).find? (·.ready) with
    | none =>
      have hnil : (b.nextDeviceObj 0).filter (·.ready) = [] := by
        rw [List.filter_eq_nil_iff]
        exact fun o ho => List.find?_eq_none.mp hfind o ho
      dsimp only
      rw [if_neg (by decide), if_pos hnil]
      exact ⟨_, rfl⟩
    | some o =>
      have hcons : (b.nextDeviceObj 0).filter (·.ready) ≠ [] := by
        intro hnil
        exact List.filter_eq_nil_iff.mp hnil o (List.mem_of_find?_eq_some hfind)
          (List.find?_some hfind)
      dsimp only
      rw [if_pos rfl, if_neg hcons, getNextLoop_fresh b (by decide)]
      · exact ⟨_, rfl⟩
      · exact (congrArg DeviceInfo.deviceObjHandle (element_one_setElement_zero d o.info)).trans hx
  · rw [if_neg he, if_neg he]
    dsimp only
    rw [if_neg (by decide), if_pos rfl]
    exact ⟨_, rfl⟩

/-! ## Runs -/

/-- Before the devices are counted the count is 0, and the second element is never written. -/
structure Untouched (d : BusData) : Prop where
  element : (d.element 1).deviceObjHandle = 0
  nDevices : d.state = .init ∨ d.state = .enablingBus ∨ d.state = .gettingDevices →
    d.nDevices = 0

theorem untouched_init : Untouched hostDataInit where
  element := rfl
  nDevices := fun _ => rfl

/-- One call of the task. -/
theorem Untouched.usbSimcomTasks {d : BusData} (h : Untouched d) (v : View) :
    Untouched (usbSimcomTasks v d) := by
  unfold Usb.usbSimcomTasks
  cases hs : d.state with
  | init =>
    have h0 := h.nDevices (.inl hs)
    dsimp only
    split
    · exact ⟨h.element, fun _ => h0⟩
    · exact h
  | enablingBus =>
    have h0 := h.nDevices (.inr (.inl hs))
    dsimp only
    split
    · exact ⟨h.element, fun _ => h0⟩
    · exact h
  | gettingDevices =>
    obtain ⟨x, hx⟩ := getDevices_fresh v.bus h.element
    constructor
    · dsimp only
      rw [hx]
      exact (congrArg DeviceInfo.deviceObjHandle (element_one_setElement_zero d x)).trans h.element
    · dsimp only
      split <;> simp
  | error | ready | other w => exact h

/-- Every state the task gets into. -/
theorem untouched_of_run {vs : List View} {d : BusData}
    (hr : run busDataStep hostDataInit vs = some d) : Untouched d := by
  refine inv_of_run ?_ untouched_init along_true hr
  intro d v d' hd _ hstep
  obtain rfl := Option.some.inj hstep
  exact hd.usbSimcomTasks v

/-- For a host layer built for any number of devices the count is right exactly when at most one is
attached. -/
theorem enumerates_iff {vs : List View} {d : BusData}
    (hr : run busDataStep hostDataInit vs = some d) (hs : d.state = .gettingDevices)
    (b : HostBus) : Enumerates b d ↔ b.attached.length ≤ 1 := by
  have hd := untouched_of_run hr
  obtain ⟨x, hx⟩ := getDevices_fresh b hd.element
  have hn := hd.nDevices (.inr (.inr hs))
  have hcount : (getDevices b d).2.nDevices.toNat = if b.attached = [] then 0 else 1 := by
    rw [hx, hn]
    dsimp only
    split <;> rfl
  constructor
  · intro h
    have hmin := h.nDevices
    rw [hcount] at hmin
    unfold maxNumDevices at hmin
    split at hmin <;> omega
  · intro h
    refine ⟨by rw [hx]; rfl, by rw [hx]; rfl, ?_⟩
    rw [hcount]
    unfold maxNumDevices
    split
    · rename_i hnil
      rw [hnil]
      rfl
    · rename_i hne
      have := List.length_pos_iff.mpr hne
      omega

/-- No more devices are attached than the host layer is built for. -/
theorem length_attached_le (b : HostBus) : b.attached.length ≤ b.devicesNumber := by
  have hle := b.length_le
  unfold HostBus.attached
  split
  · exact (List.length_filter_le _ _).trans hle
  · simp

/-- **The enumeration** keeps to `info` and `n_devices` and counts the attached devices. -/
theorem enumerates {vs : List View} {d : BusData}
    (hr : run busDataStep hostDataInit vs = some d) (hs : d.state = .gettingDevices)
    (b : HostBus) (hb : b.devicesNumber = usbHostDevicesNumber) : Enumerates b d :=
  (enumerates_iff hr hs b).mpr ((length_attached_le b).trans_eq hb)

/-- A bus with the given devices behind its root hub. -/
def busOf (devices : List DeviceObj) : HostBus where
  devicesNumber := devices.length
  enabled := true
  gUSBHostDeviceList := fun i =>
    if i = 0 then ⟨deviceObjHandleGet 1 0 0, 1, true⟩ else devices.getD (i - 1) ⟨0, 0, false⟩
  nextDeviceObj := fun i => devices.drop i
  rootHub := rfl
  length_le := le_rfl

/-- The modem alone on the bus. -/
def modemBus : HostBus := busOf [⟨deviceObjHandleGet 2 0 1, 2, true⟩]

theorem run_to_gettingDevices (b : HostBus) (he : b.enabled = true) :
    run busDataStep hostDataInit [⟨true, b⟩, ⟨true, b⟩] =
      some { hostDataInit with state := .gettingDevices } := by
  simp [run, busDataStep, usbSimcomTasks, hostDataInit, he]

theorem enumerates_modem : Enumerates modemBus { hostDataInit with state := .gettingDevices } :=
  enumerates (run_to_gettingDevices modemBus rfl) rfl modemBus rfl

end Rastreo.Usb
