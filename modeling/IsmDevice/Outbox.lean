import IsmDevice.Protocol
import IsmDevice.System
import IsmDevice.Lib.Deferred

/-!
# The order of what is sent

A call of `SendD2C_DeviceSettings` is meant to send the settings as they are.  It
starts a thread that reads them, builds the message and enqueues it, all in its
own time, so that the settings may have changed by then and another call's
message may have gone first.

The senders are deferred jobs on the settings (`refines_deferred`), and what is
known of such jobs is known of the messages.
-/

namespace IsmDevice

open Transition

/-- A call of `SendD2C_DeviceSettings`, with its command type and the settings at
    that time. -/
abbrev SettingsCall := Deferred.Call DeviceSettings String

def Effect.cmdType? : Effect → Option String
  | .sendDeviceSettings cmdType => some cmdType
  | _ => none

def Handled.cmdTypes (h : Handled) : List String := h.effects.filterMap Effect.cmdType?

/-- The calls of a handler, which come after what it does to the settings. -/
def Handled.calls (h : Handled) : List SettingsCall :=
  h.cmdTypes.map fun cmdType => ⟨cmdType, h.device.settings⟩

def Sender.job : Sender → Deferred.Job String D2CMessage
  | .serialize cmdType => .waiting cmdType
  | .sendEventAsync message => .made message
  | .finished => .delivered

namespace System

def calls (lib : JsonLibrary) (s : System) (a : Action) : List SettingsCall :=
  match s.event? a with
  | some e => (s.device.next lib e).calls
  | none => []

/-- The system, and the calls made so far. -/
def calling (lib : JsonLibrary) : Machine (System × List SettingsCall) Action :=
  (machine lib).record fun s a _ made => made ++ s.calls lib a

/-- Once all threads have finished, what was enqueued are the messages the calls
    ask for, in the order of the calls. -/
def SentInOrder (lib : JsonLibrary) (s : System × List SettingsCall) : Prop :=
  s.1.running = true → (∀ p ∈ s.1.senders, p = .finished) →
    List.Forall₂ (Deferred.Call.Answered (sendD2C_DeviceSettings lib)) s.2 s.1.outbox

/-- The settings do not change while a message is still to be built, and a message
    is enqueued only after those of all earlier calls. -/
structure Orderly (lib : JsonLibrary) (s : System) (a : Action) : Prop where
  settings : ∀ e, s.event? a = some e →
    (s.device.next lib e).device.settings = s.device.settings ∨
      ∀ cmdType, .serialize cmdType ∉ s.senders
  order : ∀ k, a = .sendEventAsync k → ∀ j : Nat, j < k → s.senders[j]? = some .finished

/-! ### The senders as deferred jobs -/

def desk (s : System × List SettingsCall) : Deferred.Desk DeviceSettings String D2CMessage where
  isOpen := s.1.running
  value := s.1.device.settings
  calls := s.2
  jobs := s.1.senders.map Sender.job
  delivered := s.1.outbox

def act (lib : JsonLibrary) (s : System × List SettingsCall) (a : Action) :
    Option (Deferred.Act DeviceSettings String (Text → Text)) :=
  match a with
  | .serialize k undefined => some (.make k undefined)
  | .sendEventAsync k => some (.deliver k)
  | a =>
      match s.1.event? a with
      | some e =>
          some (.call (s.1.device.next lib e).device.settings (s.1.device.next lib e).cmdTypes)
      | none =>
          match (machine lib).step s.1 a with
          | some t => if t.running then none else some .close -- a worker may end the process
          | none => none

section Refinement

variable {lib : JsonLibrary} {s t : System} {made : List SettingsCall} {a : Action}

theorem map_job_started (effects : List Effect) :
    (effects.filterMap Effect.sender?).map Sender.job =
      (effects.filterMap Effect.cmdType?).map .waiting := by
  rw [List.map_filterMap, List.map_filterMap]
  congr 1
  funext e
  cases e <;> rfl

/-- What a handler sends going, the desk is called for. -/
theorem desk_called {h : Handled} (hrunning : t.running = s.running) (hdevice : t.device = h.device)
    (hsenders : t.senders = s.senders ++ h.effects.filterMap Effect.sender?)
    (houtbox : t.outbox = s.outbox) :
    (Deferred.machine (sendD2C_DeviceSettings lib)).step (desk (s, made))
      (.call h.device.settings h.cmdTypes) = some (desk (t, made ++ h.calls)) := by
  simp only [Deferred.machine, desk, hrunning, hdevice, hsenders, houtbox, List.map_append,
    map_job_started, Handled.calls, Handled.cmdTypes]

theorem calls_of_event {e : Event} (h : s.event? a = some e) :
    s.calls lib a = (s.device.next lib e).calls := by
  rw [calls, h]

theorem calls_of_none (h : s.event? a = none) : s.calls lib a = [] := by
  rw [calls, h]

/-- A worker leaves the desk alone, ends the process, or calls. -/
theorem desk_workerMove {i : Nat} {p : Phase} (hi : s.workers[i]? = some p)
    (hmove : s.WorkerMove i p a t) (hstep : (machine lib).step s a = some t) :
    match act lib (s, made) a with
    | some b => (Deferred.machine (sendD2C_DeviceSettings lib)).step (desk (s, made)) b =
        some (desk (t, made ++ s.calls lib a))
    | none => desk (t, made ++ s.calls lib a) = desk (s, made) := by
  have hrunning := running_of_step hstep
  cases hmove with
  | @onNotification blobname stale notification =>
    have hevent := event?_onNotification stale hi
    simp only [act, hevent]
    rw [calls_of_event hevent]
    exact desk_called rfl rfl rfl rfl
  | notSaved =>
    have hact : act lib (s, made) (.imageFile i false) = some .close := by
      simp only [act, event?, hstep]
      rfl
    rw [hact]
    simp [Deferred.machine, desk, exit, calls, event?]
  | @noFiles c rand hbackend hfile =>
    have hact : act lib (s, made) (.pickFile i rand) = some .close := by
      simp only [act, event?, hstep]
      rfl
    rw [hact]
    simp [Deferred.machine, desk, exit, calls, event?]
  | _ =>
    simp only [act, event?, hstep, setWorker, hrunning, if_true]
    simp [desk, calls, event?, hrunning]

/-- **The senders are deferred jobs**: each step of the system is one of the desk, or
    leaves it alone. -/
theorem refines_deferred (lib : JsonLibrary) :
    (calling lib).Refines (Deferred.machine (sendD2C_DeviceSettings lib)) desk (act lib) := by
  have hstep : ∀ s a t, (calling lib).step s a = some t →
      match act lib s a with
      | some b => (Deferred.machine (sendD2C_DeviceSettings lib)).step (desk s) b = some (desk t)
      | none => desk t = desk s := by
    rintro ⟨s, made⟩ a ⟨t, made'⟩ hstep
    obtain ⟨hnext, hupdate⟩ := Machine.record_step hstep
    dsimp only at hnext hupdate
    rw [hupdate]
    rcases step_cases hnext with ⟨m, io, rfl, rfl⟩ | ⟨i, p, hi, hmove⟩ | ⟨k, p, hk, hmove⟩
    · apply desk_called
      · rw [handled_eq]
      · rw [handled_eq]
        rfl
      · rw [handled_eq]
        rfl
      · rw [handled_eq]
    · exact desk_workerMove hi hmove hnext
    · rw [calls_of_none (device_senderMove hmove).1, List.append_nil]
      cases hmove <;> simp [act, Deferred.machine, desk, setSender, hk, Sender.job, List.map_set]
  constructor
  · intro s a t b h hact
    have hdesk := hstep s a t h
    rw [hact] at hdesk
    exact hdesk
  · intro s a t h hact
    have hdesk := hstep s a t h
    rw [hact] at hdesk
    exact hdesk

theorem waiting_mem_jobs {cmdType : String} (h : .waiting cmdType ∈ (desk (s, made)).jobs) :
    .serialize cmdType ∈ s.senders := by
  obtain ⟨p, hp, hjob⟩ := List.mem_map.mp h
  cases p with
  | serialize cmdType' =>
    obtain rfl := Deferred.Job.waiting.inj hjob
    exact hp
  | sendEventAsync message => simp [Sender.job] at hjob
  | finished => simp [Sender.job] at hjob

/-- What is asked of the steps of the system is what is asked of those of the desk. -/
theorem orderly_desk {b : Deferred.Act DeviceSettings String (Text → Text)}
    (h : s.Orderly lib a) (hact : act lib (s, made) a = some b) : (desk (s, made)).Orderly b := by
  simp only [act] at hact
  split at hact
  case h_1 k undefined =>
    obtain rfl := Option.some.inj hact
    trivial
  case h_2 k =>
    obtain rfl := Option.some.inj hact
    intro j hj
    have hfinished := h.order k rfl j hj
    rw [desk, List.getElem?_map, hfinished]
    rfl
  case h_3 =>
    split at hact
    case h_1 e hevent =>
      obtain rfl := Option.some.inj hact
      rcases h.settings e hevent with hsame | hnone
      · exact Or.inl hsame
      · right
        intro cmdType hmem
        exact hnone cmdType (waiting_mem_jobs hmem)
    case h_2 =>
      split at hact
      case h_1 t _ =>
        split at hact
        · exact absurd hact (by simp)
        · obtain rfl := Option.some.inj hact
          trivial
      case h_2 => exact absurd hact (by simp)

end Refinement

/-- **When messages are ordered snapshots.**  In every run in which the settings
    change only while no message waits to be built, and each message is enqueued only
    after those of the earlier calls, what is enqueued once all threads have finished
    is, call by call and in the order of the calls, the message with the settings as
    they were at the call. -/
theorem sentInOrder_of_orderly (lib : JsonLibrary) (deviceId : String) (hardware : Hardware)
    (actions : List Action)
    (horderly : (calling lib).AllSteps (fun s a => s.1.Orderly lib a)
      (init deviceId hardware, []) actions) :
    (calling lib).AllStates (SentInOrder lib) (init deviceId hardware, []) actions := by
  have hinit : Deferred.InOrder (sendD2C_DeviceSettings lib)
      (desk (init deviceId hardware, [])) := by
    constructor <;> simp [desk, init]
  have horder := (refines_deferred lib).allStates_of_guard
    (fun _ _ _ hs hb hstep => Deferred.inOrder_step hs hb hstep)
    (fun _ _ _ ha hact => orderly_desk ha hact) (fun _ => hinit) horderly
  apply horder.mono
  intro s hs hrunning hdone
  apply (hs hrunning).forall₂
  intro job hjob
  obtain ⟨p, hp, rfl⟩ := List.mem_map.mp hjob
  rw [hdone p hp]
  rfl

end System

/-- A report of the settings, a start, and a second report. -/
def reportedTwice : List Action :=
  [.message (Message.named CommandType.GET_DEVICE_SETTINGS) ⟨true, true⟩, .serialize 0 id,
   .message (Message.named CommandType.START) ⟨true, true⟩,
   .message (Message.named CommandType.GET_DEVICE_SETTINGS) ⟨true, true⟩, .sendEventAsync 0,
   .serialize 1 id, .sendEventAsync 1]

/-- A capture is announced after the settings were reported, and overtakes the report. -/
def overtaken : List Action :=
  [.message (Message.named CommandType.START) ⟨true, true⟩, .testRunning 0, .pickFile 0 0,
   .upload 0 true, .setNotification 0, .notify 0,
   .message (Message.named CommandType.GET_DEVICE_SETTINGS) ⟨true, true⟩, .serialize 0 id,
   .onNotification 0 "", .serialize 1 id, .sendEventAsync 1, .sendEventAsync 0]

namespace System

theorem sentInOrder_reportedTwice :
    (calling (.ofTable [])).AllStates (SentInOrder (.ofTable []))
      (init "d1" (.camera 30 200.0), []) reportedTwice := by
  apply sentInOrder_of_orderly
  refine .cons rfl ⟨?_, by simp⟩ (.cons rfl ⟨by simp [event?], by simp⟩
    (.cons rfl ⟨?_, by simp⟩ (.cons rfl ⟨?_, by simp⟩ (.cons rfl ⟨by simp [event?], ?_⟩
    (.cons rfl ⟨by simp [event?], by simp⟩ (.cons rfl ⟨by simp [event?], ?_⟩ trivial))))))
  · rintro e ⟨⟩
    exact Or.inl rfl
  · rintro e ⟨⟩
    right
    intro cmdType hmem
    cases hmem with
    | tail _ hmem => cases hmem
  · rintro e ⟨⟩
    exact Or.inl rfl
  · rintro k ⟨⟩ j hj
    simp at hj
  · rintro k ⟨⟩ j hj
    obtain rfl : j = 0 := by omega
    rfl

/-- What is enqueued first is not the message of the first call. -/
theorem sentInOrder_overtaken :
    ¬ (calling (.ofTable [])).AllStates (SentInOrder (.ofTable []))
      (init "d1" (.directory ["captures/a.jpg"]), []) overtaken := by
  intro h
  have hlast := h.final rfl rfl (by
    show ∀ p ∈ [Sender.finished, Sender.finished], p = .finished
    simp)
  cases hlast with
  | cons hfirst _ =>
    have hcmdType : [(EventType.D2C_COMMAND, CommandType.CAPTURE_UPLOADED)] =
        [(EventType.D2C_COMMAND, CommandType.UPDATE_DASHBOARD_CONTROLS)] := by
      obtain ⟨undefined, heq⟩ := hfirst
      exact congrArg D2CMessage.properties heq
    exact absurd hcmdType (by decide)

end System

end IsmDevice
