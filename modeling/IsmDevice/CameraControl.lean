import Mathlib.Data.List.Chain
import IsmDevice.SettingsUpdate

/-!
# Camera and device states

What the hardware does is set by the handlers: `Start` and `StartPreview` bring
the capture loop up, `Stop` and `StopPreview` take it down, and both `StartCamera`
and `UpdateSettings` load the timing.  The first section follows these calls over
whole histories.  The second says what a run, once entered, leaves alone until it
is stopped.
-/

namespace IsmDevice

open Transition

/-! ### State and hardware -/

inductive CameraCall where
  | start
  | stop
deriving DecidableEq, Repr

def Effect.cameraCall? : Effect → Option CameraCall
  | .cameraStart => some .start
  | .cameraStop => some .stop
  | .sendDeviceSettings _ => none

/-- The flag that keeps the capture loop going: word 3 of the PRU data RAM, or `running`. -/
def Backend.RunFlag : Backend → Prop
  | .camera c => c.pruDataMem.word3 = 1
  | .dirCamera c => c.running = true

/-- The timing in use is the one for the settings: the three words of the PRU, or the
    capture period. -/
def Backend.TunedTo (s : DeviceSettings) : Backend → Prop
  | .camera c => c.pruDataMem.durations = pruDurations s
  | .dirCamera c => c.capturePeriod = s.capturePeriod

/-- State and hardware agree. -/
structure Device.InStep (d : Device) : Prop where
  flag : d.backend.RunFlag ↔ d.state = .run ∨ d.state = .preview
  tuned : d.backend.RunFlag → d.backend.TunedTo d.settings

/-- The calls of the camera's `Start` and `Stop` along a history. -/
def Device.cameraCalls (lib : JsonLibrary) (d : Device) (events : List Event) : List CameraCall :=
  (Device.machine lib).observe (fun d e => (d.next lib e).effects.filterMap Effect.cameraCall?) d
    events

section

variable (lib : JsonLibrary)

theorem Backend.tunedTo_startCamera (d : Device) : d.startCamera.backend.TunedTo d.settings := by
  unfold Device.startCamera
  cases d.backend with
  | camera c => rfl
  | dirCamera c => rfl

theorem Backend.runFlag_startCamera (d : Device) : d.startCamera.backend.RunFlag := by
  unfold Device.startCamera
  cases d.backend with
  | camera c => rfl
  | dirCamera c => rfl

theorem Backend.not_runFlag_stopCamera (d : Device) : ¬ d.stopCamera.backend.RunFlag := by
  unfold Device.stopCamera
  cases d.backend with
  | camera c => simp [Backend.RunFlag, Camera.stop]
  | dirCamera c => simp [Backend.RunFlag, DirCamera.stop]

/-- The timing depends on the numbers in the settings only, not on the strings. -/
theorem Backend.TunedTo.congr {b : Backend} {s t : DeviceSettings} (h : b.TunedTo s)
    (hpredelay : t.predelay = s.predelay) (hwidth : t.pulseWidth = s.pulseWidth)
    (hperiod : t.capturePeriod = s.capturePeriod) : b.TunedTo t := by
  cases b with
  | camera c =>
    have hsame : pruDurations t = pruDurations s := by
      rw [pruDurations, hpredelay, hwidth, hperiod]
      rfl
    exact h.trans hsame.symm
  | dirCamera c => exact h.trans hperiod.symm

theorem Device.tunedTo_updateSettings (io : DriverReply) (msgbody : Text) (d : Device) :
    (d.updateSettings lib io msgbody).2.backend.TunedTo
      (d.updateSettings lib io msgbody).2.settings := by
  cases hbackend : d.backend with
  | camera c =>
    rw [Device.updateSettings_camera lib io msgbody d hbackend]
    rfl
  | dirCamera c =>
    rw [Device.updateSettings_dirCamera lib io msgbody d hbackend]
    rfl

theorem Device.runFlag_updateSettings (io : DriverReply) (msgbody : Text) (d : Device) :
    (d.updateSettings lib io msgbody).2.backend.RunFlag ↔ d.backend.RunFlag := by
  cases hbackend : d.backend with
  | camera c =>
    rw [Device.updateSettings_camera lib io msgbody d hbackend]
    exact Iff.rfl
  | dirCamera c =>
    rw [Device.updateSettings_dirCamera lib io msgbody d hbackend]
    exact Iff.rfl

theorem Device.inStep_init (deviceId : String) (hardware : Hardware) :
    (Device.init deviceId hardware).InStep := by
  have hoff : ¬ (Device.init deviceId hardware).backend.RunFlag := by
    cases hardware with
    | camera gain exposure => simp [Device.init, Backend.RunFlag, Camera.init]
    | directory captures => simp [Device.init, Backend.RunFlag, DirCamera.init]
  constructor
  · apply iff_of_false hoff
    cases hardware <;> simp [Device.init]
  · intro hflag
    exact absurd hflag hoff

theorem DeviceState.begins_ne_ready {s target : DeviceState} {cmd : Command}
    (h : s.begins cmd = some target) : target = .run ∨ target = .preview := by
  revert h
  cases s <;> cases cmd <;> simp +contextual [DeviceState.begins, eq_comm]

/-- One command keeps state and hardware in step, whatever the driver answers. -/
theorem Device.InStep.handle {d : Device} (h : d.InStep) (io : DriverReply) (cmd : Command) :
    (d.handle lib io cmd).device.InStep := by
  have hcase := d.handles lib io cmd
  generalize d.handle lib io cmd = r at hcase ⊢
  cases hcase with
  | begin hbegins =>
    constructor
    · apply iff_of_true
      · exact Backend.runFlag_startCamera d
      · exact DeviceState.begins_ne_ready hbegins
    · intro _
      apply (Backend.tunedTo_startCamera d).congr <;>
        simp only [Device.accept, Device.changeState, d.settings_startCamera]
  | finish hnone hfinishes =>
    have hoff := Backend.not_runFlag_stopCamera d
    constructor
    · apply iff_of_false hoff
      simp [Device.accept, Device.changeState]
    · intro hflag
      exact absurd hflag hoff
  | @update msgbody hstate =>
    -- the timing is loaded before the driver can refuse anything
    rw [Device.device_handleUpdate]
    constructor
    · rw [Device.runFlag_updateSettings, Device.state_updateSettings]
      exact h.flag
    · intro _
      exact Device.tunedTo_updateSettings lib io msgbody d
  | report => exact h
  | refuse hbegin hfinish hupdate => exact h

theorem Device.InStep.next {d : Device} (h : d.InStep) (e : Event) :
    (d.next lib e).device.InStep := by
  cases e with
  | notification blobname =>
    constructor
    · exact h.flag
    · intro hflag
      exact (h.tuned hflag).congr rfl rfl rfl
  | message m io =>
    rw [Device.next]
    cases hcmd : m.command? with
    | none =>
      rw [receiveMessageCallback_none lib io d hcmd]
      exact h
    | some cmd =>
      rw [receiveMessageCallback_some lib io d hcmd]
      exact h.handle lib io cmd

/-- The call that was made last, as the state shows it. -/
def Device.lastCall (d : Device) : CameraCall :=
  match d.state with
  | .ready => .stop
  | .run => .start
  | .preview => .start

theorem Device.cameraCalls_handle (io : DriverReply) (d : Device) (cmd : Command) :
    ((d.handle lib io cmd).effects.filterMap Effect.cameraCall? = [] ∧
        (d.handle lib io cmd).device.lastCall = d.lastCall) ∨
      ((d.handle lib io cmd).effects.filterMap Effect.cameraCall? =
          [(d.handle lib io cmd).device.lastCall] ∧
        d.lastCall ≠ (d.handle lib io cmd).device.lastCall) := by
  have hcase := d.handles lib io cmd
  generalize d.handle lib io cmd = r at hcase ⊢
  cases hcase with
  | @begin cmd target hbegins =>
    right
    obtain ⟨state, settings, backend⟩ := d
    revert hbegins
    cases state <;> cases cmd <;>
      simp [DeviceState.begins, Device.lastCall, Device.accept, Device.changeState,
        Effect.cameraCall?, eq_comm]
    all_goals
      rintro rfl
      simp
  | @finish cmd hnone hfinishes =>
    right
    obtain ⟨state, settings, backend⟩ := d
    revert hfinishes
    cases state <;> cases cmd <;>
      simp [DeviceState.finishes, Device.lastCall, Device.accept, Device.changeState,
        Effect.cameraCall?]
  | @update msgbody hstate =>
    left
    constructor
    · unfold Device.handleUpdate
      rcases d.updateSettings lib io msgbody with ⟨_ | _, d'⟩ <;> rfl
    · rw [Device.lastCall, Device.device_handleUpdate, Device.state_updateSettings]
      rfl
  | report => exact Or.inl ⟨rfl, rfl⟩
  | refuse hbegin hfinish hupdate => exact Or.inl ⟨rfl, rfl⟩

theorem Device.cameraCalls_next (d : Device) (e : Event) :
    ((d.next lib e).effects.filterMap Effect.cameraCall? = [] ∧
        (d.next lib e).device.lastCall = d.lastCall) ∨
      ((d.next lib e).effects.filterMap Effect.cameraCall? = [(d.next lib e).device.lastCall] ∧
        d.lastCall ≠ (d.next lib e).device.lastCall) := by
  cases e with
  | notification blobname => exact Or.inl ⟨rfl, rfl⟩
  | message m io =>
    rw [Device.next]
    cases hcmd : m.command? with
    | none =>
      rw [receiveMessageCallback_none lib io d hcmd]
      exact Or.inl ⟨rfl, rfl⟩
    | some cmd =>
      rw [receiveMessageCallback_some lib io d hcmd]
      exact d.cameraCalls_handle lib io cmd

/-- From any device on, every call differs from the one before it. -/
theorem Device.isChain_cameraCalls (d : Device) (events : List Event) :
    List.IsChain (· ≠ ·) (d.lastCall :: d.cameraCalls lib events) := by
  induction events generalizing d with
  | nil => exact List.isChain_singleton _
  | cons e rest ih =>
    have hrest := ih (d.next lib e).device
    have hcalls : d.cameraCalls lib (e :: rest) =
        (d.next lib e).effects.filterMap Effect.cameraCall? ++
          (d.next lib e).device.cameraCalls lib rest := rfl
    rw [hcalls]
    rcases d.cameraCalls_next lib e with ⟨hnil, hsame⟩ | ⟨hone, hne⟩
    · rw [hnil, ← hsame]
      exact hrest
    · rw [hone]
      exact List.isChain_cons_cons.mpr ⟨hne, hrest⟩

/-- **State and hardware agree over whole histories.**  The run flag is set exactly
    in the run and preview states, the timing is then that of the settings, and
    the camera's `Start` and `Stop` are called in turn, `Start` first. -/
theorem inStep_of_history (deviceId : String) (hardware : Hardware) (events : List Event) :
    (Device.machine lib).AllStates Device.InStep (Device.init deviceId hardware) events ∧
      List.IsChain (· ≠ ·)
        (CameraCall.stop :: (Device.init deviceId hardware).cameraCalls lib events) := by
  constructor
  · apply Machine.allStates_of_invariant _ _ (Device.inStep_init deviceId hardware)
    intro d e d' hd hstep
    injection hstep with heq
    subst heq
    exact hd.next lib e
  · have hlast : (Device.init deviceId hardware).lastCall = .stop := by
      cases hardware <;> rfl
    rw [← hlast]
    exact Device.isChain_cameraCalls lib _ events

/-! ### A run is left alone -/

def Command.RefusedInRun : Command → Prop
  | .start => True
  | .startPreview => True
  | .stopPreview => True
  | .setDeviceSettings _ => True
  | .stop => False
  | .getDeviceSettings => False

def Event.Refused (d : Device) : Event → Prop
  | .message m io => ∀ cmd, m.command? = some cmd → cmd.RefusedInRun →
      (d.receiveMessageCallback lib io m).result = .rejected
  | .notification _ => True

/-- `d` is in a run and has everything as `entry` has it, the name of the last
    capture excepted. -/
structure Device.FrozenSince (entry d : Device) : Prop where
  state : d.state = .run
  settings : { d.settings with currentCaptureName := entry.settings.currentCaptureName } =
    entry.settings
  backend : d.backend = entry.backend

theorem Device.FrozenSince.refl {d : Device} (h : d.state = .run) : Device.FrozenSince d d :=
  ⟨h, rfl, rfl⟩

theorem Device.FrozenSince.trans {entry d d' : Device} (h : Device.FrozenSince entry d)
    (h' : Device.FrozenSince d d') : Device.FrozenSince entry d' where
  state := h'.state
  settings := by
    rw [← h.settings, ← h'.settings]
  backend := h'.backend.trans h.backend

/-- One event of a run that is not a `Stop`. -/
theorem Device.frozen_next {d : Device} (hrun : d.state = .run) (e : Event)
    (hstop : e.command? ≠ some .stop) :
    Device.FrozenSince d (d.next lib e).device ∧ e.Refused lib d := by
  cases e with
  | notification blobname => exact ⟨⟨hrun, rfl, rfl⟩, trivial⟩
  | message m io =>
    simp only [Device.next, Event.Refused]
    cases hcmd : m.command? with
    | none =>
      rw [receiveMessageCallback_none lib io d hcmd]
      refine ⟨Device.FrozenSince.refl hrun, ?_⟩
      intro cmd h
      simp at h
    | some cmd =>
      have hhandle : d.handle lib io cmd = RunState.handle d cmd := by
        rw [Device.handle, hrun]
      rw [receiveMessageCallback_some lib io d hcmd, hhandle]
      have hne : cmd ≠ .stop := by
        rintro rfl
        exact hstop hcmd
      constructor
      · cases cmd with
        | stop => exact absurd rfl hne
        | _ => exact ⟨hrun, rfl, rfl⟩
      · intro cmd' h hrefused
        injection h with heq
        subst heq
        cases cmd with
        | stop => exact absurd rfl hne
        | getDeviceSettings => exact hrefused.elim
        | _ => rfl

/-- A device that is in a run has entered it by a `Start` in its ready state, and
    has not been sent a `Stop` since. -/
theorem Device.exists_entry (deviceId : String) (hardware : Hardware) {history : List Event}
    {d : Device} (h : (Device.machine lib).exec (Device.init deviceId hardware) history = some d)
    (hrun : d.state = .run) :
    ∃ before start since ready, history = before ++ start :: since ∧
      (Device.machine lib).exec (Device.init deviceId hardware) before = some ready ∧
      ready.state = .ready ∧ start.command? = some .start ∧
      (∀ e ∈ since, e.command? ≠ some .stop) ∧
      (Device.machine lib).exec (ready.next lib start).device since = some d := by
  induction history using List.reverseRecOn generalizing d with
  | nil =>
    injection h with heq
    subst heq
    cases hardware <;> exact absurd hrun (by simp [Device.init])
  | append_singleton history e ih =>
    rw [Machine.exec_append] at h
    obtain ⟨d₀, hd₀, hlast⟩ := Option.bind_eq_some_iff.mp h
    injection hlast with heq
    subst heq
    -- the protocol says which states and commands lead to a run
    have hstep : (d₀.state = .run ∧ e.command? ≠ some .stop) ∨
        (d₀.state = .ready ∧ e.command? = some .start) := by
      cases hcmd : e.command? with
      | none =>
        have hsame := (Device.refines_protocol lib).stutter d₀ e _ rfl hcmd
        exact Or.inl ⟨hsame ▸ hrun, by simp⟩
      | some cmd =>
        have hnext := (Device.refines_protocol lib).step d₀ e _ cmd rfl hcmd
        injection hnext with hnext
        rw [hrun] at hnext
        revert hnext
        cases d₀.state <;> cases cmd <;>
          simp [DeviceState.next, DeviceState.begins, DeviceState.finishes]
    rcases hstep with ⟨hrun₀, hstop⟩ | ⟨hready, hstart⟩
    · obtain ⟨before, start, since, ready, rfl, hbefore, hready, hstart, hsince, hexec⟩ :=
        ih hd₀ hrun₀
      refine ⟨before, start, since ++ [e], ready, by simp, hbefore, hready, hstart, ?_, ?_⟩
      · intro e' he'
        rcases List.mem_append.mp he' with he' | he'
        · exact hsince e' he'
        · rw [List.mem_singleton.mp he']
          exact hstop
      · rw [Machine.exec_append, hexec]
        rfl
    · refine ⟨history, e, [], d₀, rfl, hd₀, hready, hstart, ?_, rfl⟩
      intro e' he'
      exact absurd he' List.not_mem_nil

theorem Device.frozen_run {d : Device} (hrun : d.state = .run) {events : List Event}
    (hstop : ∀ e ∈ events, e.command? ≠ some .stop) {entry : Device}
    (hentry : Device.FrozenSince entry d) :
    (Device.machine lib).AllStates (Device.FrozenSince entry) d events ∧
      (Device.machine lib).AllSteps (Event.Refused lib) d events := by
  induction events generalizing d with
  | nil => exact ⟨hentry, trivial⟩
  | cons e rest ih =>
    obtain ⟨hfrozen, hrefused⟩ := Device.frozen_next lib hrun e (hstop e List.mem_cons_self)
    obtain ⟨hstates, hsteps⟩ := ih hfrozen.state
      (fun e' he' => hstop e' (List.mem_cons_of_mem e he')) (hentry.trans hfrozen)
    constructor
    · refine ⟨hentry, ?_⟩
      intro t ht
      injection ht with heq
      subst heq
      exact hstates
    · exact Machine.AllSteps.cons rfl hrefused hsteps

/-- **A run freezes its parameters.**  Once in a run, and whatever is received short
    of a `Stop`, the device stays in it, refuses every command that would configure
    or start something, and keeps all as it was when the run was entered, by the last
    `Start` of its history with no `Stop` after it. -/
theorem run_frozen (deviceId : String) (hardware : Hardware) {history : List Event} {d : Device}
    (hreach : (Device.machine lib).exec (Device.init deviceId hardware) history = some d)
    (hrun : d.state = .run) {events : List Event}
    (hstop : ∀ e ∈ events, e.command? ≠ some .stop) :
    ∃ before start since ready, history = before ++ start :: since ∧
      (Device.machine lib).exec (Device.init deviceId hardware) before = some ready ∧
      ready.state = .ready ∧ start.command? = some .start ∧
      (∀ e ∈ since, e.command? ≠ some .stop) ∧
      (Device.machine lib).AllStates (Device.FrozenSince (ready.next lib start).device) d events ∧
      (Device.machine lib).AllSteps (Event.Refused lib) d events := by
  obtain ⟨before, start, since, ready, hhistory, hbefore, hready, hstart, hsince, hexec⟩ :=
    Device.exists_entry lib deviceId hardware hreach hrun
  refine ⟨before, start, since, ready, hhistory, hbefore, hready, hstart, hsince, ?_⟩
  have hentered : (ready.next lib start).device.state = .run := by
    have hnext := (Device.refines_protocol lib).step ready start _ .start rfl hstart
    injection hnext with hnext
    rw [← hnext, hready]
    rfl
  have hsinceFrozen := (Device.frozen_run lib hentered hsince (.refl hentered)).1.final hexec
  exact Device.frozen_run lib hrun hstop hsinceFrozen

end

def startedDevice : Device :=
  ((Device.init "d1" (.camera 30 200.0)).next (.ofTable [])
    (.message (Message.named CommandType.START) ⟨true, true⟩)).device

/-- A device just started, which then reports a capture and is sent another `Start`. -/
theorem run_frozen_started :
    let startMessage := Message.named CommandType.START
    ∃ before start since ready,
      [Event.message startMessage ⟨true, true⟩] = before ++ start :: since ∧
      (Device.machine (.ofTable [])).exec (Device.init "d1" (.camera 30 200.0)) before =
        some ready ∧
      ready.state = .ready ∧ start.command? = some .start ∧
      (∀ e ∈ since, e.command? ≠ some .stop) ∧
      (Device.machine (.ofTable [])).AllStates
        (Device.FrozenSince (ready.next (.ofTable []) start).device) startedDevice
        [.notification "a.jpg", .message startMessage ⟨true, true⟩] ∧
      (Device.machine (.ofTable [])).AllSteps (Event.Refused (.ofTable [])) startedDevice
        [.notification "a.jpg", .message startMessage ⟨true, true⟩] := by
  apply run_frozen (.ofTable []) "d1" (.camera 30 200.0)
  · rfl
  · rfl
  · intro e he
    simp only [List.mem_cons, List.not_mem_nil, or_false] at he
    rcases he with rfl | rfl <;> decide

end IsmDevice
