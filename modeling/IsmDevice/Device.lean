import IsmDevice.Camera
import IsmDevice.Lib.Machine
import IsmDevice.Lib.Printf

/-!
# The device

`Device.cpp` as far as a C2D message or a capture notification reaches: the state
machine with its three states, the dispatch of a message, and the settings
update.  A handler returns the disposition of the message, the device after it,
and what it set going in other threads, in order.

The machine at the end takes one message or one notification at a time.
-/

namespace IsmDevice

namespace EventType

def C2D_COMMAND : String := "C2D_Command"
def D2C_COMMAND : String := "D2C_Command"

end EventType

namespace CommandType

def START : String := "Start"
def STOP : String := "Stop"
def START_PREVIEW : String := "StartPreview"
def STOP_PREVIEW : String := "StopPreview"
def GET_DEVICE_SETTINGS : String := "GetDeviceSettings"
def SET_DEVICE_SETTINGS : String := "SetDeviceSettings"
def CAPTURE_UPLOADED : String := "CaptureUploaded"
def UPDATE_DASHBOARD_CONTROLS : String := "UpdateDashboardControls"
def FIRMWARE_UPDATE_STATUS : String := "FirmwareUpdateStatus"

end CommandType

/-- `IOTHUBMESSAGE_DISPOSITION_RESULT`, as far as the device returns it. -/
inductive Disposition where
  | accepted
  | rejected
deriving DecidableEq, Repr

inductive DeviceState where
  | ready
  | run
  | preview
deriving DecidableEq, Repr

def DeviceState.getStateName : DeviceState → String
  | .ready => "ReadyState"
  | .run => "RunState"
  | .preview => "PreviewState"

inductive Backend where
  | camera (c : Camera)
  | dirCamera (c : DirCamera)

structure Device where
  state : DeviceState
  settings : DeviceSettings
  backend : Backend

inductive Effect where
  | cameraStart
  | cameraStop
  | sendDeviceSettings (cmdType : String)
deriving DecidableEq, Repr

structure Handled where
  result : Disposition
  device : Device
  effects : List Effect

inductive Command where
  | start
  | stop
  | startPreview
  | stopPreview
  | setDeviceSettings (msgbody : Text)
  | getDeviceSettings
deriving DecidableEq, Repr

namespace Device

/-! ### What the states call back -/

def changeState (s : DeviceState) (d : Device) : Device :=
  { d with state := s, settings := { d.settings with stateName := s.getStateName } }

def startCamera (d : Device) : Device :=
  match d.backend with
  | .camera c => { d with backend := .camera (setCameraPruValues d.settings c).start }
  | .dirCamera c =>
      { d with backend := .dirCamera (c.setCapturePeriod d.settings.capturePeriod).start }

def stopCamera (d : Device) : Device :=
  match d.backend with
  | .camera c => { d with backend := .camera c.stop }
  | .dirCamera c => { d with backend := .dirCamera c.stop }

/-- `UpdateSettings`: the settings and the PRU words are written first, and a
    failing setter returns without putting them back. -/
def updateSettings (lib : JsonLibrary) (io : DriverReply) (msgbody : Text) (d : Device) :
    Bool × Device :=
  let settings := d.settings.deserialize lib msgbody
  match d.backend with
  | .camera c =>
      let c := setCameraPruValues settings c
      match c.setGain io.gainOk settings.gain.toUInt32 with
      | (false, c) => (false, { d with settings := settings, backend := .camera c })
      | (true, c) =>
          match c.setExposure io.exposureOk settings.exposure with
          | (ok, c) => (ok, { d with settings := settings, backend := .camera c })
  | .dirCamera c =>
      (true, { d with
        settings := settings
        backend := .dirCamera (c.setCapturePeriod settings.capturePeriod) })

def accept (d : Device) (effects : List Effect) : Handled := ⟨.accepted, d, effects⟩

def reject (d : Device) : Handled := ⟨.rejected, d, []⟩

/-- The body shared by `ReadyState::SetDeviceSettings` and `PreviewState::SetDeviceSettings`. -/
def handleUpdate (lib : JsonLibrary) (io : DriverReply) (msgbody : Text) (d : Device) : Handled :=
  match d.updateSettings lib io msgbody with
  | (true, d) => d.accept []
  | (false, d) => d.reject

end Device

/-! ### The states -/

section Handlers

variable (lib : JsonLibrary) (io : DriverReply)

def ReadyState.handle (d : Device) : Command → Handled
  | .start => (d.startCamera.changeState .run).accept [.cameraStart]
  | .stop => d.reject
  | .startPreview => (d.startCamera.changeState .preview).accept [.cameraStart]
  | .stopPreview => d.reject
  | .setDeviceSettings msgbody => d.handleUpdate lib io msgbody
  | .getDeviceSettings => d.accept [.sendDeviceSettings CommandType.UPDATE_DASHBOARD_CONTROLS]

def RunState.handle (d : Device) : Command → Handled
  | .start => d.reject
  | .stop => (d.stopCamera.changeState .ready).accept [.cameraStop]
  | .startPreview => d.reject
  | .stopPreview => d.reject
  | .setDeviceSettings _ => d.reject
  | .getDeviceSettings => d.accept [.sendDeviceSettings CommandType.UPDATE_DASHBOARD_CONTROLS]

def PreviewState.handle (d : Device) : Command → Handled
  | .start => d.reject
  | .stop => d.reject
  | .startPreview => d.reject
  | .stopPreview => (d.stopCamera.changeState .ready).accept [.cameraStop]
  | .setDeviceSettings msgbody => d.handleUpdate lib io msgbody
  | .getDeviceSettings => d.accept [.sendDeviceSettings CommandType.UPDATE_DASHBOARD_CONTROLS]

/-- `Device::Start` to `Device::GetDeviceSettings`: dispatch on `_state`. -/
def Device.handle (d : Device) (cmd : Command) : Handled :=
  match d.state with
  | .ready => ReadyState.handle lib io d cmd
  | .run => RunState.handle d cmd
  | .preview => PreviewState.handle lib io d cmd

/-! ### Messages -/

/-- A C2D message: its properties, unless the map cannot be had, and the body,
    unless it cannot be fetched. -/
structure Message where
  properties : Option (List (String × String))
  body : Option Text

/-- `std::string{buffer, 0, size}`: `buffer` becomes a string first, and that
    ends at the first NUL of the body. -/
def messageBody (buffer : Text) : Text := Printf.cString buffer

def Device.receiveProperties (body : Option Text) (d : Device) : List (String × String) → Handled
  | [] => d.reject
  | (key, value) :: rest =>
      if key = EventType.C2D_COMMAND then
        match body with
        | some buffer =>
            let msgbody := messageBody buffer
            if value = CommandType.START then d.handle lib io .start
            else if value = CommandType.STOP then d.handle lib io .stop
            else if value = CommandType.START_PREVIEW then d.handle lib io .startPreview
            else if value = CommandType.STOP_PREVIEW then d.handle lib io .stopPreview
            else if value = CommandType.SET_DEVICE_SETTINGS then
              d.handle lib io (.setDeviceSettings msgbody)
            else if value = CommandType.GET_DEVICE_SETTINGS then d.handle lib io .getDeviceSettings
            else d.receiveProperties body rest
        | none => d.receiveProperties body rest
      else d.receiveProperties body rest

def Device.receiveMessageCallback (m : Message) (d : Device) : Handled :=
  match m.properties with
  | some properties => d.receiveProperties lib io m.body properties
  | none => d.reject

def Device.onNotification (blobname : String) (d : Device) : Handled :=
  ({ d with settings := { d.settings with currentCaptureName := blobname } }).accept
    [.sendDeviceSettings CommandType.CAPTURE_UPLOADED]

end Handlers

/-! ### Construction and runs -/

/-- What the constructor finds: the gain and exposure of the driver in camera
    mode, the listed capture paths in directory mode. -/
inductive Hardware where
  | camera (gain : UInt32) (exposure : Float)
  | directory (captures : List String)

def Device.init (deviceId : String) (hardware : Hardware) : Device :=
  let settings (cameraGain : Int32) (cameraExposure : Float) : DeviceSettings :=
    { deviceId := deviceId, stateName := DeviceState.ready.getStateName
      capturePeriod := 5000, currentCaptureName := ""
      varianceThreshold := 0.0025, distanceMapThreshold := 8.5, rgThreshold := 3.75
      restrictedFillingThreshold := 4, dilateValue := 16
      gain := cameraGain, exposure := cameraExposure
      pulseWidth := 4, current := 0, predelay := 1000 }
  match hardware with
  | .camera gain exposure =>
      { state := .ready
        settings := settings gain.toInt32 exposure
        backend := .camera (Camera.init gain exposure) }
  | .directory captures =>
      { state := .ready
        settings := settings 0 0.0
        backend := .dirCamera (DirCamera.init captures) }

inductive Event where
  | message (m : Message) (io : DriverReply)
  | notification (blobname : String)

def Device.next (lib : JsonLibrary) (d : Device) : Event → Handled
  | .message m io => d.receiveMessageCallback lib io m
  | .notification blobname => d.onNotification blobname

/-- The device as a machine: every event can be taken in every state. -/
def Device.machine (lib : JsonLibrary) : Transition.Machine Device Event where
  step d e := some (d.next lib e).device

end IsmDevice
