import IsmDevice.Settings
import IsmDevice.Lib.CppString

/-!
# The two camera back ends

`Camera` drives the IDS camera and the PRU program that triggers it; `DirCamera`
serves the files of a directory instead.  Of the driver only the hardware gain
and the exposure are state.  Whether a driver call succeeds is decided outside
the program and is an argument.
-/

namespace IsmDevice

/-- The four words of PRU data RAM that `pulse.p` reads: trigger, pulse and pause
    duration, and the flag that keeps its loop going. -/
structure PruDataMem where
  word0 : UInt32
  word1 : UInt32
  word2 : UInt32
  word3 : UInt32
deriving DecidableEq, Repr

def PruDataMem.durations (m : PruDataMem) : UInt32 × UInt32 × UInt32 :=
  (m.word0, m.word1, m.word2)

/-- The outcomes of the driver calls a command may make: `is_SetHardwareGain` in
    `setGain` and `is_Exposure` in `setExposure` return `IS_SUCCESS`. -/
structure DriverReply where
  gainOk : Bool
  exposureOk : Bool
deriving DecidableEq, Repr

/-! ### Camera -/

structure Camera where
  triggerduration : UInt32
  pulseduration : UInt32
  pauseduration : UInt32
  pruDataMem : PruDataMem
  hardwareGain : UInt32
  hardwareExposure : Float

namespace Camera

/-- `InitPRU`, with whatever gain and exposure the driver holds after `InitCamera`. -/
def init (hardwareGain : UInt32) (hardwareExposure : Float) : Camera where
  triggerduration := 0x00000190
  pulseduration := 0x00002710
  pauseduration := 0x05F5E100
  pruDataMem := ⟨0x00000190, 0x00002710, 0x05F5E100, 0x00000000⟩
  hardwareGain := hardwareGain
  hardwareExposure := hardwareExposure

def setTriggerduration (v : UInt32) (c : Camera) : Camera :=
  { c with triggerduration := v, pruDataMem := { c.pruDataMem with word0 := v } }

def setPulseduration (v : UInt32) (c : Camera) : Camera :=
  { c with pulseduration := v, pruDataMem := { c.pruDataMem with word1 := v } }

def setPauseduration (v : UInt32) (c : Camera) : Camera :=
  { c with pauseduration := v, pruDataMem := { c.pruDataMem with word2 := v } }

/-- `setGain`: a call that fails leaves the driver's gain alone. -/
def setGain (ok : Bool) (v : UInt32) (c : Camera) : Bool × Camera :=
  if ok then (true, { c with hardwareGain := v }) else (false, c)

def setExposure (ok : Bool) (v : Float) (c : Camera) : Bool × Camera :=
  if ok then (true, { c with hardwareExposure := v }) else (false, c)

/-- `Start`: turn the loop of the PRU program on.  The capture worker it also
    starts is a thread of its own. -/
def start (c : Camera) : Camera :=
  { c with pruDataMem := { c.pruDataMem with word3 := 1 } }

def stop (c : Camera) : Camera :=
  { c with pruDataMem := { c.pruDataMem with word3 := 0 } }

def captureFilename (time : Int) : String := "capture" ++ toString time ++ ".jpg"

/-- The blob name computed in `UploadCaptureToBlobStorage`; `none` where `substr` throws. -/
def blobname (filename : String) : Option String :=
  let f := filename.toList
  let slash := CppString.findLastOf '/' f
  (CppString.substr f slash (CppString.size f - slash)).map String.ofList

end Camera

/-! ### DirCamera -/

structure DirCamera where
  capturePeriod : Int32
  captures : List String
  running : Bool

namespace DirCamera

def init (captures : List String) : DirCamera where
  capturePeriod := 10
  captures := captures
  running := false

def setCapturePeriod (period : Int32) (c : DirCamera) : DirCamera :=
  { c with capturePeriod := period }

/-- `Start`: set `running`.  The capture worker it also starts is a thread of its own. -/
def start (c : DirCamera) : DirCamera := { c with running := true }

def stop (c : DirCamera) : DirCamera := { c with running := false }

/-- The blob name computed in `UploadCaptureToBlobStorage`; `none` where `substr` throws. -/
def blobname (filename : String) : Option String :=
  let f := filename.toList
  let slash := CppString.findLastOf '/' f
  (CppString.substr f (slash + 1) (CppString.size f - slash)).map String.ofList

end DirCamera

/-! ### The PRU words for given settings -/

/-- `Device::SetCameraPruValues`, in the 32-bit arithmetic of the source. -/
def setCameraPruValues (settings : DeviceSettings) (camera : Camera) : Camera :=
  -- DeviceSettings.PulseWidth -> Camera.pulseduration
  let pulseduration := settings.pulseWidth.toUInt32
  let pulseduration := pulseduration * 200
  let pulseduration := pulseduration / 2
  let camera := camera.setPulseduration pulseduration
  -- DeviceSettings.Predelay -> Camera.triggerduration
  let triggerduration := settings.predelay.toUInt32
  let triggerduration := triggerduration * 200
  let triggerduration := triggerduration / 2
  let camera := camera.setTriggerduration triggerduration
  -- DeviceSettings.CapturePeriod -> Camera.pauseduration
  let pauseduration := settings.capturePeriod.toUInt32
  let pauseduration := pauseduration * 1000
  let pauseduration := pauseduration * 200
  let pauseduration := pauseduration / 2
  let pauseduration := pauseduration - camera.triggerduration
  let pauseduration := pauseduration - camera.pulseduration
  camera.setPauseduration pauseduration

def pruDurations (settings : DeviceSettings) : UInt32 × UInt32 × UInt32 :=
  let trigger := settings.predelay.toUInt32 * 200 / 2
  let pulse := settings.pulseWidth.toUInt32 * 200 / 2
  (trigger, pulse, settings.capturePeriod.toUInt32 * 1000 * 200 / 2 - trigger - pulse)

end IsmDevice
