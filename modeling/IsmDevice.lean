import IsmDevice.Lib.Machine
import IsmDevice.Lib.Pool
import IsmDevice.Lib.Deferred
import IsmDevice.Lib.Pru
import IsmDevice.Lib.PruCode
import IsmDevice.Lib.Printf
import IsmDevice.Lib.CppString
import IsmDevice.Lib.TryBlock
import IsmDevice.Lib.LongestMatch
import IsmDevice.Lib.Utf8
import IsmDevice.Json
import IsmDevice.JsonScanner
import IsmDevice.JsonTokens
import IsmDevice.JsonStrings
import IsmDevice.JsonNumbers
import IsmDevice.JsonParser
import IsmDevice.JsonAccepted
import IsmDevice.JsonValues
import IsmDevice.JsonStream
import IsmDevice.JsonRoundTrip
import IsmDevice.JsonCanonical
import IsmDevice.Settings
import IsmDevice.Deserialize
import IsmDevice.Camera
import IsmDevice.BlobName
import IsmDevice.ConnectionString
import IsmDevice.Device
import IsmDevice.Protocol
import IsmDevice.Dispatch
import IsmDevice.StateName
import IsmDevice.PruTiming
import IsmDevice.Pulse
import IsmDevice.PruRun
import IsmDevice.PulseImage
import IsmDevice.PreviewTiming
import IsmDevice.SettingsUpdate
import IsmDevice.CameraControl
import IsmDevice.UpdateAccepted
import IsmDevice.Telemetry
import IsmDevice.SettingsText
import IsmDevice.StatusText
import IsmDevice.Constructor
import IsmDevice.OwnedFacts
import IsmDevice.System
import IsmDevice.DirectoryListing
import IsmDevice.CaptureWorkers
import IsmDevice.CaptureTags
import IsmDevice.CaptureNames
import IsmDevice.Publisher
import IsmDevice.Reports
import IsmDevice.Outbox
import IsmDevice.Firmware
import IsmDevice.DirectMethod
import IsmDevice.FirmwareInstall
import IsmDevice.FirmwareOutcome
