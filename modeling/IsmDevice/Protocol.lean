import IsmDevice.Device

/-!
# The command protocol

What the state machine is for, apart from settings and hardware: six commands
move a device between ready, run and preview.  The dispatch of a message is
reduced to the command it selects, the handlers to the five things a command can
do, and the state of the device is shown to follow the protocol whatever the
message bodies contain and the driver replies.
-/

namespace IsmDevice

open Transition

/-! ### The command a message selects -/

def Command.ofName? (value : String) (msgbody : Text) : Option Command :=
  if value = CommandType.START then some .start
  else if value = CommandType.STOP then some .stop
  else if value = CommandType.START_PREVIEW then some .startPreview
  else if value = CommandType.STOP_PREVIEW then some .stopPreview
  else if value = CommandType.SET_DEVICE_SETTINGS then some (.setDeviceSettings msgbody)
  else if value = CommandType.GET_DEVICE_SETTINGS then some .getDeviceSettings
  else none

/-- The command of the first property that has the right key and names one. -/
def Command.first? (msgbody : Text) (properties : List (String × String)) : Option Command :=
  properties.findSome? fun p =>
    if p.1 = EventType.C2D_COMMAND then Command.ofName? p.2 msgbody else none

/-- The command a message selects; none without properties or without a body. -/
def Message.command? (m : Message) : Option Command :=
  m.properties.bind fun properties =>
    m.body.bind fun buffer => Command.first? (messageBody buffer) properties

def Message.setDeviceSettings (body : Text) : Message :=
  ⟨some [(EventType.C2D_COMMAND, CommandType.SET_DEVICE_SETTINGS)], some body⟩

def Message.named (command : String) : Message := ⟨some [(EventType.C2D_COMMAND, command)], some []⟩

theorem Message.command?_setDeviceSettings (body : Text) :
    (Message.setDeviceSettings body).command? = some (.setDeviceSettings (messageBody body)) := rfl

theorem messageBody_eq_self {body : Text} (h : '\x00' ∉ body) : messageBody body = body :=
  Printf.cString_eq_self h

section Dispatch

variable (lib : JsonLibrary) (io : DriverReply) (d : Device)

theorem receiveProperties_none (properties : List (String × String)) :
    d.receiveProperties lib io none properties = d.reject := by
  induction properties with
  | nil => rfl
  | cons p rest ih =>
    obtain ⟨key, value⟩ := p
    rw [Device.receiveProperties]
    split <;> exact ih

theorem receiveProperties_some (buffer : Text) (properties : List (String × String)) :
    d.receiveProperties lib io (some buffer) properties =
      match Command.first? (messageBody buffer) properties with
      | some cmd => d.handle lib io cmd
      | none => d.reject := by
  induction properties with
  | nil => rfl
  | cons p rest ih =>
    obtain ⟨key, value⟩ := p
    rw [Device.receiveProperties, Command.first?, List.findSome?_cons]
    by_cases hkey : key = EventType.C2D_COMMAND
    · simp only [if_pos hkey, Command.ofName?]
      split_ifs <;> first | rfl | exact ih
    · simp only [if_neg hkey]
      exact ih

/-- **Dispatch.**  A message that selects a command runs the handler of that command. -/
theorem receiveMessageCallback_some {m : Message} {cmd : Command} (h : m.command? = some cmd) :
    d.receiveMessageCallback lib io m = d.handle lib io cmd := by
  obtain ⟨properties, hproperties, h⟩ := Option.bind_eq_some_iff.mp h
  obtain ⟨buffer, hbody, h⟩ := Option.bind_eq_some_iff.mp h
  rw [Device.receiveMessageCallback, hproperties, hbody]
  simp only [receiveProperties_some, h]

theorem receiveMessageCallback_none {m : Message} (h : m.command? = none) :
    d.receiveMessageCallback lib io m = d.reject := by
  rw [Device.receiveMessageCallback]
  cases hproperties : m.properties with
  | none => rfl
  | some properties =>
    cases hbody : m.body with
    | none => exact receiveProperties_none lib io d properties
    | some buffer =>
      rw [Message.command?, hproperties, hbody] at h
      have hfirst : Command.first? (messageBody buffer) properties = none := h
      simp only [receiveProperties_some, hfirst]

end Dispatch

/-! ### The protocol -/

/-- The state that a command brings a capture up in, where it begins one. -/
def DeviceState.begins : DeviceState → Command → Option DeviceState
  | .ready, .start => some .run
  | .ready, .startPreview => some .preview
  | _, _ => none

def DeviceState.finishes : DeviceState → Command → Bool
  | .run, .stop => true
  | .preview, .stopPreview => true
  | _, _ => false

def DeviceState.next (s : DeviceState) (cmd : Command) : DeviceState :=
  match s.begins cmd with
  | some target => target
  | none => if s.finishes cmd then .ready else s

def protocol : Machine DeviceState Command where
  step s cmd := some (s.next cmd)

/-- The files that `DirCamera` serves. -/
def Backend.captures? : Backend → Option (List String)
  | .camera _ => none
  | .dirCamera c => some c.captures

theorem Backend.eq_camera_of_captures? {b : Backend} (h : b.captures? = none) :
    ∃ c, b = .camera c := by
  cases b with
  | camera c => exact ⟨c, rfl⟩
  | dirCamera c => simp [captures?] at h

theorem Backend.eq_dirCamera_of_captures? {b : Backend} {captures : List String}
    (h : b.captures? = some captures) : ∃ c, b = .dirCamera c ∧ c.captures = captures := by
  cases b with
  | camera c => simp [captures?] at h
  | dirCamera c => exact ⟨c, rfl, Option.some.inj h⟩

/-- The five things a handler does: begin a capture, end it, update the settings,
    report them, or refuse. -/
inductive Device.Handles (lib : JsonLibrary) (io : DriverReply) (d : Device) :
    Command → Handled → Prop where
  | begin {cmd : Command} {target : DeviceState} (h : d.state.begins cmd = some target) :
      Handles lib io d cmd ((d.startCamera.changeState target).accept [.cameraStart])
  | finish {cmd : Command} (hnone : d.state.begins cmd = none) (h : d.state.finishes cmd = true) :
      Handles lib io d cmd ((d.stopCamera.changeState .ready).accept [.cameraStop])
  | update {msgbody : Text} (h : d.state ≠ .run) :
      Handles lib io d (.setDeviceSettings msgbody) (d.handleUpdate lib io msgbody)
  | report : Handles lib io d .getDeviceSettings
      (d.accept [.sendDeviceSettings CommandType.UPDATE_DASHBOARD_CONTROLS])
  | refuse {cmd : Command} (hbegin : d.state.begins cmd = none)
      (hfinish : d.state.finishes cmd = false)
      (hupdate : ∀ msgbody, cmd = .setDeviceSettings msgbody → d.state = .run) :
      Handles lib io d cmd d.reject

section Handlers

variable (lib : JsonLibrary) (io : DriverReply) (d : Device)

/-- **What a command can do**, with the state it needs for that. -/
theorem Device.handles (cmd : Command) : d.Handles lib io cmd (d.handle lib io cmd) := by
  obtain ⟨state, settings, backend⟩ := d
  cases state with
  | ready =>
    cases cmd with
    | start => exact .begin rfl
    | stop => exact .refuse rfl rfl (by simp)
    | startPreview => exact .begin rfl
    | stopPreview => exact .refuse rfl rfl (by simp)
    | setDeviceSettings msgbody => exact .update (by simp)
    | getDeviceSettings => exact .report
  | run =>
    cases cmd with
    | start => exact .refuse rfl rfl (by simp)
    | stop => exact .finish rfl rfl
    | startPreview => exact .refuse rfl rfl (by simp)
    | stopPreview => exact .refuse rfl rfl (by simp)
    | setDeviceSettings msgbody => exact .refuse rfl rfl (by simp)
    | getDeviceSettings => exact .report
  | preview =>
    cases cmd with
    | start => exact .refuse rfl rfl (by simp)
    | stop => exact .refuse rfl rfl (by simp)
    | startPreview => exact .refuse rfl rfl (by simp)
    | stopPreview => exact .finish rfl rfl
    | setDeviceSettings msgbody => exact .update (by simp)
    | getDeviceSettings => exact .report

/-! A command that updates or reports neither begins nor ends a capture. -/

@[simp] theorem DeviceState.begins_setDeviceSettings (s : DeviceState) (msgbody : Text) :
    s.begins (.setDeviceSettings msgbody) = none := by cases s <;> rfl

@[simp] theorem DeviceState.finishes_setDeviceSettings (s : DeviceState) (msgbody : Text) :
    s.finishes (.setDeviceSettings msgbody) = false := by cases s <;> rfl

theorem DeviceState.next_setDeviceSettings (s : DeviceState) (msgbody : Text) :
    s.next (.setDeviceSettings msgbody) = s := by cases s <;> rfl

theorem DeviceState.next_getDeviceSettings (s : DeviceState) :
    s.next .getDeviceSettings = s := by cases s <;> rfl

theorem Device.settings_startCamera : d.startCamera.settings = d.settings := by
  unfold Device.startCamera
  cases d.backend <;> rfl

theorem Device.settings_stopCamera : d.stopCamera.settings = d.settings := by
  unfold Device.stopCamera
  cases d.backend <;> rfl

/-- `UpdateSettings` replaces the settings before anything can fail. -/
theorem Device.settings_updateSettings (msgbody : Text) :
    (d.updateSettings lib io msgbody).2.settings = d.settings.deserialize lib msgbody := by
  unfold Device.updateSettings Camera.setGain Camera.setExposure
  cases d.backend with
  | dirCamera c => rfl
  | camera c => cases io.gainOk <;> cases io.exposureOk <;> rfl

theorem Device.state_updateSettings (msgbody : Text) :
    (d.updateSettings lib io msgbody).2.state = d.state := by
  unfold Device.updateSettings Camera.setGain Camera.setExposure
  cases d.backend with
  | dirCamera c => rfl
  | camera c => cases io.gainOk <;> cases io.exposureOk <;> rfl

theorem Device.device_handleUpdate (msgbody : Text) :
    (d.handleUpdate lib io msgbody).device = (d.updateSettings lib io msgbody).2 := by
  unfold Device.handleUpdate
  rcases d.updateSettings lib io msgbody with ⟨_ | _, d'⟩ <;> rfl

theorem Device.result_handleUpdate (msgbody : Text) :
    (d.handleUpdate lib io msgbody).result = .accepted ↔
      (d.updateSettings lib io msgbody).1 = true := by
  unfold Device.handleUpdate
  rcases d.updateSettings lib io msgbody with ⟨_ | _, d'⟩ <;> simp [Device.accept, Device.reject]

theorem Device.state_handle (cmd : Command) :
    (d.handle lib io cmd).device.state = d.state.next cmd := by
  have hcase := d.handles lib io cmd
  generalize d.handle lib io cmd = r at hcase ⊢
  cases hcase with
  | begin h => rw [DeviceState.next, h]; rfl
  | finish hnone h => rw [DeviceState.next, hnone, h]; rfl
  | update h =>
    rw [Device.device_handleUpdate, Device.state_updateSettings, DeviceState.next_setDeviceSettings]
  | report => exact (DeviceState.next_getDeviceSettings _).symm
  | refuse hbegin hfinish _ => rw [DeviceState.next, hbegin, hfinish]; rfl

/-- **What a message can do to the settings.**  Either it carries a settings body
    that is taken, and is handled by the update; or it is refused, reports, or
    changes the state. -/
theorem receiveMessageCallback_cases (m : Message) :
    (∃ msgbody, m.command? = some (.setDeviceSettings msgbody) ∧ d.state ≠ .run ∧
        d.receiveMessageCallback lib io m = d.handleUpdate lib io msgbody) ∨
      (∀ msgbody, m.command? = some (.setDeviceSettings msgbody) → d.state = .run) ∧
        (d.receiveMessageCallback lib io m = d.reject ∨
          (∃ effects, d.receiveMessageCallback lib io m = d.accept effects) ∨
          ∃ d' s effects, d'.settings = d.settings ∧
            d.receiveMessageCallback lib io m = (Device.changeState s d').accept effects) := by
  cases hcmd : m.command? with
  | none =>
    right
    constructor
    · intro msgbody h
      simp at h
    · left
      exact receiveMessageCallback_none lib io d hcmd
  | some cmd =>
    rw [receiveMessageCallback_some lib io d hcmd]
    have hcase := d.handles lib io cmd
    generalize d.handle lib io cmd = r at hcase ⊢
    simp only [Option.some.injEq]
    cases hcase with
    | begin h =>
      right
      constructor
      · rintro msgbody rfl
        simp at h
      · exact Or.inr (Or.inr ⟨_, _, _, d.settings_startCamera, rfl⟩)
    | finish hnone h =>
      right
      constructor
      · rintro msgbody rfl
        simp at h
      · exact Or.inr (Or.inr ⟨_, _, _, d.settings_stopCamera, rfl⟩)
    | update h => exact Or.inl ⟨_, rfl, h, rfl⟩
    | report =>
      right
      constructor
      · intro msgbody h
        simp at h
      · exact Or.inr (Or.inl ⟨_, rfl⟩)
    | refuse hbegin hfinish hupdate => exact Or.inr ⟨hupdate, Or.inl rfl⟩

/-- The state follows the command a message selects, if it selects one. -/
theorem Device.state_receiveMessageCallback (m : Message) :
    (d.receiveMessageCallback lib io m).device.state =
      m.command?.toList.foldl DeviceState.next d.state := by
  cases hcmd : m.command? with
  | none =>
    rw [receiveMessageCallback_none lib io d hcmd]
    rfl
  | some cmd =>
    rw [receiveMessageCallback_some lib io d hcmd]
    exact d.state_handle lib io cmd

theorem Device.effects_handleUpdate (msgbody : Text) :
    (d.handleUpdate lib io msgbody).effects = [] := by
  unfold Device.handleUpdate
  rcases d.updateSettings lib io msgbody with ⟨_ | _, d'⟩ <;> rfl

/-! No handler changes which back end there is, or the files of a directory. -/

theorem Device.captures?_startCamera :
    d.startCamera.backend.captures? = d.backend.captures? := by
  unfold Device.startCamera
  cases h : d.backend with
  | camera c => rfl
  | dirCamera c => rfl

theorem Device.captures?_stopCamera : d.stopCamera.backend.captures? = d.backend.captures? := by
  unfold Device.stopCamera
  cases h : d.backend with
  | camera c => rfl
  | dirCamera c => rfl

theorem Device.captures?_updateSettings (msgbody : Text) :
    (d.updateSettings lib io msgbody).2.backend.captures? = d.backend.captures? := by
  unfold Device.updateSettings Camera.setGain Camera.setExposure
  cases d.backend with
  | dirCamera c => rfl
  | camera c => cases io.gainOk <;> cases io.exposureOk <;> rfl

theorem Device.captures?_handle (cmd : Command) :
    (d.handle lib io cmd).device.backend.captures? = d.backend.captures? := by
  have hcase := d.handles lib io cmd
  generalize d.handle lib io cmd = r at hcase ⊢
  cases hcase with
  | begin h => exact d.captures?_startCamera
  | finish hnone h => exact d.captures?_stopCamera
  | @update msgbody h =>
    rw [Device.device_handleUpdate]
    exact d.captures?_updateSettings lib io msgbody
  | report => rfl
  | refuse hbegin hfinish hupdate => rfl

theorem Device.captures?_receiveMessageCallback (m : Message) :
    (d.receiveMessageCallback lib io m).device.backend.captures? = d.backend.captures? := by
  cases hcmd : m.command? with
  | none => rw [receiveMessageCallback_none lib io d hcmd]; rfl
  | some cmd =>
    rw [receiveMessageCallback_some lib io d hcmd]
    exact d.captures?_handle lib io cmd

theorem Device.captures?_next (e : Event) :
    (d.next lib e).device.backend.captures? = d.backend.captures? := by
  cases e with
  | message m io => exact d.captures?_receiveMessageCallback lib io m
  | notification blobname => rfl

/-- A message is answered, if at all, with a message to the dashboard. -/
theorem Device.sends_receiveMessageCallback (m : Message) {cmdType : String}
    (h : .sendDeviceSettings cmdType ∈ (d.receiveMessageCallback lib io m).effects) :
    cmdType = CommandType.UPDATE_DASHBOARD_CONTROLS := by
  cases hcmd : m.command? with
  | none =>
    rw [receiveMessageCallback_none lib io d hcmd] at h
    simp [Device.reject] at h
  | some cmd =>
    rw [receiveMessageCallback_some lib io d hcmd] at h
    have hcase := d.handles lib io cmd
    generalize d.handle lib io cmd = r at hcase h
    cases hcase with
    | begin hbegin => simp [Device.accept] at h
    | finish hnone hfinish => simp [Device.accept] at h
    | update hstate => simp [Device.effects_handleUpdate] at h
    | report => simpa [Device.accept] using h
    | refuse hbegin hfinish hupdate => simp [Device.reject] at h

end Handlers

def Event.command? : Event → Option Command
  | .message m _ => m.command?
  | .notification _ => none

/-- **The device follows the protocol**: its state is that of the protocol
    machine fed with the commands the messages select. -/
theorem Device.refines_protocol (lib : JsonLibrary) :
    (Device.machine lib).Refines protocol Device.state (fun _ e => e.command?) := by
  constructor
  · intro d e d' cmd hstep hcmd
    cases e with
    | notification blobname => simp [Event.command?] at hcmd
    | message m io =>
      injection hstep with heq
      subst heq
      rw [Device.next, receiveMessageCallback_some lib io d hcmd, Device.state_handle lib io d cmd]
      rfl
  · intro d e d' hstep hnone
    cases e with
    | notification blobname =>
      injection hstep with heq
      subst heq
      rfl
    | message m io =>
      injection hstep with heq
      subst heq
      rw [Device.next, receiveMessageCallback_none lib io d hnone]
      rfl

/-- Whatever a device is put through, its state moves along the protocol. -/
theorem Device.reaches_protocol {lib : JsonLibrary} {d d' : Device}
    (h : (Device.machine lib).Reaches d d') : protocol.Reaches d.state d'.state :=
  (Device.refines_protocol lib).reaches h

end IsmDevice
