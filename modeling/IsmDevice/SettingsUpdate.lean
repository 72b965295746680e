import IsmDevice.Protocol
import IsmDevice.PruTiming

/-!
# Settings updates

`UpdateSettings` works in steps that are not undone: the settings are read from
the body, the PRU words are written, then the driver is asked for the gain and
the exposure.  A driver call that fails turns the message down.  A body that
cannot be read does not.

The first section says what all steps together do.  From it follow, for a
message that carries a settings body: which settings give exact PRU words, when
a rejected message leaves everything as it was, and when an accepted one has
been carried out.
-/

namespace IsmDevice

open Transition

/-! ### The whole update -/

/-- The camera after an update to settings `s`, as far as the driver lets it get. -/
def Camera.updated (io : DriverReply) (s : DeviceSettings) (c : Camera) : Camera :=
  { setCameraPruValues s c with
    hardwareGain := if io.gainOk then s.gain.toUInt32 else c.hardwareGain
    hardwareExposure := if io.gainOk && io.exposureOk then s.exposure else c.hardwareExposure }

section Update

variable (lib : JsonLibrary) (io : DriverReply) (msgbody : Text) (d : Device)

theorem Device.updateSettings_camera {c : Camera} (h : d.backend = .camera c) :
    d.updateSettings lib io msgbody =
      (io.gainOk && io.exposureOk,
        { d with
          settings := d.settings.deserialize lib msgbody
          backend := .camera (c.updated io (d.settings.deserialize lib msgbody)) }) := by
  unfold Device.updateSettings Camera.setGain Camera.setExposure Camera.updated
  rw [h]
  cases io.gainOk <;> cases io.exposureOk <;> rfl

theorem Device.updateSettings_dirCamera {c : DirCamera} (h : d.backend = .dirCamera c) :
    d.updateSettings lib io msgbody =
      (true,
        { d with
          settings := d.settings.deserialize lib msgbody
          backend := .dirCamera
            (c.setCapturePeriod (d.settings.deserialize lib msgbody).capturePeriod) }) := by
  unfold Device.updateSettings
  rw [h]

@[simp] theorem Camera.durations_updated (s : DeviceSettings) (c : Camera) :
    (c.updated io s).pruDataMem.durations = pruDurations s := rfl

theorem receiveMessageCallback_update {m : Message}
    (hcmd : m.command? = some (.setDeviceSettings msgbody)) (hstate : d.state ≠ .run) :
    d.receiveMessageCallback lib io m = d.handleUpdate lib io msgbody := by
  rw [receiveMessageCallback_some lib io d hcmd, Device.handle]
  cases hs : d.state with
  | ready => rfl
  | run => exact absurd hs hstate
  | preview => rfl

theorem Device.accepted_camera_iff {c : Camera} (h : d.backend = .camera c) :
    (d.handleUpdate lib io msgbody).result = .accepted ↔
      io.gainOk = true ∧ io.exposureOk = true := by
  rw [Device.result_handleUpdate, Device.updateSettings_camera lib io msgbody d h]
  exact Bool.and_eq_true_iff

theorem Device.accepted_dirCamera {c : DirCamera} (h : d.backend = .dirCamera c) :
    (d.handleUpdate lib io msgbody).result = .accepted := by
  rw [Device.result_handleUpdate, Device.updateSettings_dirCamera lib io msgbody d h]

end Update

/-- **Exact PRU words after an accepted update.**  In camera mode the words are
    the exact positive loop counts of the settings that the body installed
    exactly if these settings are in range. -/
theorem accepted_pruWordsExact_iff {lib : JsonLibrary} {io : DriverReply} {d : Device}
    {m : Message} {msgbody : Text} {c : Camera} (hcamera : d.backend = .camera c)
    (hcmd : m.command? = some (.setDeviceSettings msgbody))
    (haccepted : (d.receiveMessageCallback lib io m).result = .accepted) :
    ∃ c', (d.receiveMessageCallback lib io m).device.backend = .camera c' ∧
      (d.receiveMessageCallback lib io m).device.settings =
        d.settings.deserialize lib msgbody ∧
      (PruWordsExact c'.pruDataMem (d.settings.deserialize lib msgbody) ↔
        TimingInRange (d.settings.deserialize lib msgbody)) := by
  have hstate : d.state ≠ .run := by
    intro hs
    rw [receiveMessageCallback_some lib io d hcmd, Device.handle, hs] at haccepted
    exact absurd haccepted (by simp [RunState.handle, Device.reject])
  rw [receiveMessageCallback_update lib io msgbody d hcmd hstate, Device.device_handleUpdate,
    Device.updateSettings_camera lib io msgbody d hcamera]
  exact ⟨_, rfl, rfl, pruWordsExact_iff _ c⟩

def sampleBody (period : String) : Text :=
  ("\x7b\"DeviceId\":\"d1\",\"StateName\":\"ReadyState\",\"CapturePeriod\":" ++ period ++
    ",\"CurrentCaptureName\":\"\",\"VarianceThreshold\":0.0025,\"DistanceMapThreshold\":8.5," ++
    "\"RGThreshold\":3.75,\"RestrictedFillingThreshold\":4.0,\"DilateValue\":16.0," ++
    "\"Gain\":30,\"Exposure\":200.0,\"PulseWidth\":4,\"Current\":0,\"Predelay\":1000\x7d").toList

def sampleValues (period : UInt64) : Json :=
  .object
    [("CapturePeriod", .numberUnsigned period), ("Current", .numberUnsigned 0),
     ("CurrentCaptureName", .string ""), ("DeviceId", .string "d1"),
     ("DilateValue", .numberFloat 16.0), ("DistanceMapThreshold", .numberFloat 8.5),
     ("Exposure", .numberFloat 200.0), ("Gain", .numberUnsigned 30),
     ("Predelay", .numberUnsigned 1000), ("PulseWidth", .numberUnsigned 4),
     ("RGThreshold", .numberFloat 3.75), ("RestrictedFillingThreshold", .numberFloat 4.0),
     ("StateName", .string "ReadyState"), ("VarianceThreshold", .numberFloat 0.0025)]

def sampleLibrary (period : String) (value : UInt64) : JsonLibrary :=
  .ofTable [(messageBody (sampleBody period), sampleValues value)]

def sampleDevice : Device := Device.init "d1" (.camera 30 200.0)

def sampleHandled (period : String) (value : UInt64) (io : DriverReply) : Handled :=
  sampleDevice.receiveMessageCallback (sampleLibrary period value) io
    (Message.setDeviceSettings (sampleBody period))

theorem sampleHandled_eq (period : String) (value : UInt64) (io : DriverReply) :
    sampleHandled period value io =
      sampleDevice.handleUpdate (sampleLibrary period value) io
        (messageBody (sampleBody period)) :=
  receiveMessageCallback_update _ _ _ _ (Message.command?_setDeviceSettings _) (by decide)

theorem deserialize_sample (period : String) (value : UInt64) (s : DeviceSettings) :
    s.deserialize (sampleLibrary period value) (messageBody (sampleBody period)) =
      DeviceSettings.runAssignments (sampleValues value) DeviceSettings.assignments s :=
  DeviceSettings.deserialize_some (JsonLibrary.parse_ofTable _ _ _) s

theorem accepted_pruWordsExact_iff_sample :
    ∃ c', (sampleHandled "5000" 5000 ⟨true, true⟩).device.backend = .camera c' ∧
      (sampleHandled "5000" 5000 ⟨true, true⟩).device.settings =
        sampleDevice.settings.deserialize (sampleLibrary "5000" 5000)
          (messageBody (sampleBody "5000")) ∧
      (PruWordsExact c'.pruDataMem
          (sampleDevice.settings.deserialize (sampleLibrary "5000" 5000)
            (messageBody (sampleBody "5000"))) ↔
        TimingInRange (sampleDevice.settings.deserialize (sampleLibrary "5000" 5000)
          (messageBody (sampleBody "5000")))) :=
  accepted_pruWordsExact_iff rfl (Message.command?_setDeviceSettings _) <|
    (congrArg Handled.result (sampleHandled_eq "5000" 5000 ⟨true, true⟩)).trans
      ((Device.accepted_camera_iff _ _ _ _ rfl).mpr ⟨rfl, rfl⟩)

/-- A capture period of 30 s is accepted and wraps. -/
theorem accepted_pruWords_wrap :
    (sampleHandled "30000" 30000 ⟨true, true⟩).result = .accepted ∧
      ∀ c, (sampleHandled "30000" 30000 ⟨true, true⟩).device.backend = .camera c →
        ¬ PruWordsExact c.pruDataMem (sampleHandled "30000" 30000 ⟨true, true⟩).device.settings := by
  rw [sampleHandled_eq, Device.device_handleUpdate,
    Device.updateSettings_camera _ _ _ _ rfl, deserialize_sample]
  constructor
  · exact (Device.accepted_camera_iff _ _ _ _ rfl).mpr ⟨rfl, rfl⟩
  intro c hc hexact
  obtain rfl := Backend.camera.inj hc
  have hrange := (pruWordsExact_iff _ _).mp hexact
  have hperiod : (DeviceSettings.runAssignments (sampleValues 30000) DeviceSettings.assignments
      sampleDevice.settings).capturePeriod.toInt = 30000 := by decide
  have := hrange.period
  omega

/-! ### Rejected messages -/

/-- The back end as far as a rejected message must leave it: PRU durations and
    the driver's gain and exposure in camera mode, everything in directory mode. -/
def Backend.Unchanged : Backend → Backend → Prop
  | .camera c, .camera c' =>
      c'.pruDataMem.durations = c.pruDataMem.durations ∧ c'.hardwareGain = c.hardwareGain ∧
        c'.hardwareExposure = c.hardwareExposure
  | .dirCamera c, .dirCamera c' => c' = c
  | _, _ => False

structure Device.Unchanged (d d' : Device) : Prop where
  state : d'.state = d.state
  settings : d'.settings = d.settings
  backend : d.backend.Unchanged d'.backend

theorem Device.Unchanged.refl (d : Device) : d.Unchanged d :=
  ⟨rfl, rfl, by cases h : d.backend <;> simp [Backend.Unchanged]⟩

/-- A message that cannot be turned down half way: where it is a settings body
    taken in camera mode and a driver call fails, the body changes no field, the
    PRU words are those of the settings already, and so is the driver's gain if
    it was the exposure that failed. -/
def Message.HarmlessRefusal (lib : JsonLibrary) (io : DriverReply) (d : Device) (m : Message) :
    Prop :=
  ∀ msgbody c, m.command? = some (.setDeviceSettings msgbody) → d.state ≠ .run →
    d.backend = .camera c → (io.gainOk = true ∧ io.exposureOk = true) ∨
      (d.settings.deserialize lib msgbody = d.settings ∧
        c.pruDataMem.durations = pruDurations d.settings ∧
        (io.gainOk = true → c.hardwareGain = d.settings.gain.toUInt32))

section Rejected

variable (lib : JsonLibrary) (io : DriverReply) (d : Device)

theorem Device.unchanged_refused_iff (msgbody : Text) {c : Camera} (hcamera : d.backend = .camera c)
    (hfail : ¬ (io.gainOk = true ∧ io.exposureOk = true)) :
    d.Unchanged (d.handleUpdate lib io msgbody).device ↔
      d.settings.deserialize lib msgbody = d.settings ∧
        c.pruDataMem.durations = pruDurations d.settings ∧
        (io.gainOk = true → c.hardwareGain = d.settings.gain.toUInt32) := by
  have hand : (io.gainOk && io.exposureOk) = false := by
    rw [← Bool.not_eq_true, Bool.and_eq_true]; exact hfail
  rw [Device.device_handleUpdate, Device.updateSettings_camera lib io msgbody d hcamera]
  constructor
  · rintro ⟨-, hsettings, hbackend⟩
    simp only at hsettings
    rw [hcamera, hsettings] at hbackend
    obtain ⟨hdurations, hgain, -⟩ := hbackend
    refine ⟨hsettings, ?_, ?_⟩
    · rw [← hdurations, Camera.durations_updated]
    · intro hok
      rw [← hgain, Camera.updated, hok]
      rfl
  · rintro ⟨hsettings, hdurations, hgain⟩
    refine ⟨rfl, hsettings, ?_⟩
    rw [hcamera, hsettings]
    refine ⟨?_, ?_, ?_⟩
    · rw [Camera.durations_updated, hdurations]
    · cases hok : io.gainOk with
      | false => simp [Camera.updated, hok]
      | true => simp [Camera.updated, hok, hgain hok]
    · simp [Camera.updated, hand]

/-- For every device and message: the device is left alone by a rejection exactly
    if the message is not a settings update that fails half way with an effect. -/
theorem Device.unchanged_of_rejected_iff (m : Message) :
    ((d.receiveMessageCallback lib io m).result = .rejected →
        d.Unchanged (d.receiveMessageCallback lib io m).device) ↔
      m.HarmlessRefusal lib io d := by
  rcases receiveMessageCallback_cases lib io d m with ⟨msgbody, hcmd, hstate, heq⟩ | ⟨hnot, heq⟩
  · rw [heq]
    have hsame : ∀ {msgbody'}, m.command? = some (.setDeviceSettings msgbody') →
        msgbody = msgbody' := by
      intro msgbody' hcmd'
      exact Command.setDeviceSettings.inj (Option.some.inj (hcmd.symm.trans hcmd'))
    cases hbackend : d.backend with
    | dirCamera c =>
      have hacc := Device.accepted_dirCamera lib io msgbody d hbackend
      apply iff_of_true
      · intro hrej
        rw [hacc] at hrej
        exact Disposition.noConfusion hrej
      · intro msgbody' c' _ _ hc'
        rw [hbackend] at hc'
        exact Backend.noConfusion hc'
    | camera c =>
      have hacc := Device.accepted_camera_iff lib io msgbody d hbackend
      by_cases hok : io.gainOk = true ∧ io.exposureOk = true
      · apply iff_of_true
        · intro hrej
          rw [hacc.mpr hok] at hrej
          exact Disposition.noConfusion hrej
        · intro msgbody' c' _ _ _
          exact Or.inl hok
      · have hrej : (d.handleUpdate lib io msgbody).result = .rejected := by
          cases h : (d.handleUpdate lib io msgbody).result with
          | rejected => rfl
          | accepted => exact absurd (hacc.mp h) hok
        have hunchanged := Device.unchanged_refused_iff lib io d msgbody hbackend hok
        constructor
        · intro h msgbody' c' hcmd' _ hc'
          rw [hbackend] at hc'
          obtain rfl := hsame hcmd'
          obtain rfl := Backend.camera.inj hc'
          exact Or.inr (hunchanged.mp (h hrej))
        · intro h _
          rcases h msgbody c hcmd hstate hbackend with hboth | hharmless
          · exact absurd hboth hok
          · exact hunchanged.mpr hharmless
  · -- whatever else is rejected is rejected unread
    apply iff_of_true
    · intro hrej
      rcases heq with heq | ⟨effects, heq⟩ | ⟨d', s, effects, -, heq⟩
      · rw [heq]
        exact Device.Unchanged.refl d
      · rw [heq] at hrej
        exact Disposition.noConfusion hrej
      · rw [heq] at hrej
        exact Disposition.noConfusion hrej
    · intro msgbody c hcmd hstate
      exact absurd (hnot msgbody hcmd) hstate

def Event.RejectedUnchanged (lib : JsonLibrary) (d : Device) : Event → Prop
  | .message m io => (d.receiveMessageCallback lib io m).result = .rejected →
      d.Unchanged (d.receiveMessageCallback lib io m).device
  | .notification _ => True

def Event.HarmlessRefusal (lib : JsonLibrary) (d : Device) : Event → Prop
  | .message m io => m.HarmlessRefusal lib io d
  | .notification _ => True

/-- **When rejected messages change nothing**: along every run, from the
    constructor or from any other device, exactly if no step of it is a settings
    update that fails half way with an effect. -/
theorem rejected_unchanged_iff (events : List Event) :
    (Device.machine lib).AllSteps (fun d e => e.RejectedUnchanged lib d) d events ↔
      (Device.machine lib).AllSteps (fun d e => e.HarmlessRefusal lib d) d events := by
  apply Machine.allSteps_congr
  intro d e _ _
  cases e with
  | message m io => exact d.unchanged_of_rejected_iff lib io m
  | notification blobname => exact Iff.rfl

end Rejected

/-- The driver refuses the gain: the message is rejected and its period stays. -/
theorem rejected_message_changes :
    (sampleHandled "1000" 1000 ⟨false, true⟩).result = .rejected ∧
      ¬ sampleDevice.Unchanged (sampleHandled "1000" 1000 ⟨false, true⟩).device := by
  rw [sampleHandled_eq, Device.device_handleUpdate, Device.updateSettings_camera _ _ _ _ rfl,
    deserialize_sample]
  refine ⟨rfl, ?_⟩
  intro h
  have hperiod := congrArg (fun s => s.capturePeriod.toInt) h.settings
  exact absurd (show (1000 : Int) = 5000 from hperiod) (by decide)

end IsmDevice
