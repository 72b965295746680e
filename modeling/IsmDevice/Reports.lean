import IsmDevice.CaptureNames
import IsmDevice.Publisher
import IsmDevice.SettingsText
import IsmDevice.SettingsUpdate

/-!
# What the back end is told

A message about the settings was built by a thread of its own from the settings as that
thread found them, and may be enqueued long after.  Whatever the interleaving it is the
report of one state of the run, and can be read back to the settings of that state where
these survive the text they are written as.  So the back end reads what it has written,
until it writes again.

From a `Camera` no capture is ever announced: the upload of a file without a path ends
before there is a blob, so that all it reports are answers.
-/

namespace IsmDevice

open Transition Json

namespace System

section Messages

variable {lib : JsonLibrary} {s t : System} {a : Action} {message : D2CMessage}

end Messages

section Runs

variable {strtod : Text → Float} {lib : JsonLibrary} {s t : System} {actions : List Action}

end Runs

end System

/-! ### A run -/

namespace System

end System

/-! ### What is set is what is reported -/

/-- The settings differ, if at all, in what the device writes itself. -/
def DeviceSettings.SameTuning (s t : DeviceSettings) : Prop :=
  { s with stateName := t.stateName, currentCaptureName := t.currentCaptureName } = t

theorem DeviceSettings.SameTuning.trans {s t u : DeviceSettings} (hst : s.SameTuning t)
    (htu : t.SameTuning u) : s.SameTuning u := by
  have h : { { s with stateName := t.stateName, currentCaptureName := t.currentCaptureName } with
      stateName := u.stateName, currentCaptureName := u.currentCaptureName } = u := by
    rw [show _ = t from hst]
    exact htu
  exact h

namespace System

section Set

variable {strtod : Text → Float} {lib : JsonLibrary} {s t u : System} {a : Action}
  {settings : DeviceSettings}

end Set

end System

/-! ### A camera announces nothing -/

/-- The answer to a `GetDeviceSettings`, before it is built and after. -/
def D2CMessage.Answers (message : D2CMessage) : Prop :=
  message.properties = [(EventType.D2C_COMMAND, CommandType.UPDATE_DASHBOARD_CONTROLS)]

def Sender.Answers : Sender → Prop
  | .serialize cmdType => cmdType = CommandType.UPDATE_DASHBOARD_CONTROLS
  | .sendEventAsync message => message.Answers
  | .finished => True

namespace System

/-- A `Camera` whose workers are at files named after the clock and have none to announce,
    and whose messages are answers. -/
structure Silent (s : System) : Prop where
  camera : s.device.backend.captures? = none
  files : ∀ filename, s.AtFile filename →
    ∃ clock : Int64, filename = Camera.captureFilename clock.toInt
  workers : ∀ (i : Nat) p, s.workers[i]? = some p → p.pending? = none
  notification : s.notification = none
  senders : ∀ p ∈ s.senders, p.Answers
  outbox : ∀ message ∈ s.outbox, message.Answers

section Silent

variable {lib : JsonLibrary} {s t : System} {a : Action}

theorem pending_firstPhase (b : Backend) : b.firstPhase.pending? = none := by
  cases b <;> rfl

theorem silent_init (deviceId : String) (gain : UInt32) (exposure : Float) :
    Silent (init deviceId (.camera gain exposure)) := by
  constructor
  · rfl
  · rintro filename ⟨i, p, hi, -⟩
    cases hi
  · intro i p hi
    cases hi
  · rfl
  · exact fun p hp => absurd hp List.not_mem_nil
  · exact fun message hmessage => absurd hmessage List.not_mem_nil

/-- The upload of a worker ends before there is a blob. -/
theorem Silent.blobname (hs : Silent s) {i : Nat} {filename : String}
    (hi : s.workers[i]? = some (.upload filename)) : s.device.backend.blobname filename = none := by
  obtain ⟨c, hc⟩ := Backend.eq_camera_of_captures? hs.camera
  obtain ⟨clock, rfl⟩ := hs.files filename ⟨i, _, hi, rfl⟩
  rw [hc]
  exact camera_blobname_of_notMem (fits_captureFilename clock) (notMem_captureFilename _)

theorem Silent.files_step (hs : Silent s) (ha : a.ClockFits)
    (hstep : (machine lib).step s a = some t) {filename : String} (ht : t.AtFile filename) :
    ∃ clock : Int64, filename = Camera.captureFilename clock.toInt := by
  rcases atFile_step hstep ht with (⟨i, time, rfl, -, rfl⟩ | ⟨c, hc, -⟩) | hold
  · obtain ⟨clock, rfl⟩ := ha i time rfl
    exact ⟨clock, rfl⟩
  · have hcamera := hs.camera
    rw [hc] at hcamera
    cases hcamera
  · exact hs.files filename hold

/-- A worker that goes on has no capture to announce either. -/
theorem Silent.workerMove (hs : Silent s) {i : Nat} {p : Phase} (hi : s.workers[i]? = some p)
    (h : s.WorkerMove i p a t) :
    (∀ (j : Nat) q, t.workers[j]? = some q → q.pending? = none) ∧ t.notification = none ∧
      (t.senders = s.senders ∨ t.senders = []) ∧ t.outbox = s.outbox := by
  -- it is in no phase in which there is one
  have hnone := hs.workers i p hi
  have hset : ∀ p' : Phase, p'.pending? = none →
      ∀ (j : Nat) q, (s.workers.set i p')[j]? = some q → q.pending? = none := by
    intro p' hp' j q hj
    rcases Pool.set_cases hj with ⟨-, rfl⟩ | ⟨-, hold⟩
    · exact hp'
    · exact hs.workers j q hold
  cases h with
  | uploaded hblob =>
    rw [hs.blobname hi] at hblob
    cases hblob
  | setNotification => cases hnone
  | notify => cases hnone
  | onNotification => cases hnone
  | notSaved => exact ⟨fun j q hj => absurd hj (by simp [exit]), hs.notification, Or.inr rfl, rfl⟩
  | noFiles _ _ =>
    exact ⟨fun j q hj => absurd hj (by simp [exit]), hs.notification, Or.inr rfl, rfl⟩
  | notUploaded _ => exact ⟨hset _ (afterUpload_pending _), hs.notification, Or.inl rfl, rfl⟩
  | stayTest _ => exact ⟨hs.workers, hs.notification, Or.inl rfl, rfl⟩
  | stayPick _ => exact ⟨hs.workers, hs.notification, Or.inl rfl, rfl⟩
  | _ => exact ⟨hset _ rfl, hs.notification, Or.inl rfl, rfl⟩

theorem Silent.step (hs : Silent s) (ha : a.ClockFits)
    (hstep : (machine lib).step s a = some t) : Silent t := by
  have hcamera := (captures?_step hstep).trans hs.camera
  have hfiles : ∀ filename, t.AtFile filename → _ := fun _ ht => hs.files_step ha hstep ht
  rcases step_cases hstep with ⟨m, io, rfl, rfl⟩ | ⟨i, p, hi, hmove⟩ | ⟨k, p, hk, hmove⟩
  · refine ⟨hcamera, hfiles, ?_, ?_, ?_, ?_⟩
    · intro i p hi
      rcases worker_handled hi with hold | ⟨b, -, rfl⟩
      · exact hs.workers i p hold
      · exact pending_firstPhase b
    · rw [handled_eq]
      exact hs.notification
    · rw [handled_eq]
      intro p hp
      rcases List.mem_append.mp hp with hold | hnew
      · exact hs.senders p hold
      · obtain ⟨e, he, hsender⟩ := List.mem_filterMap.mp hnew
        cases e with
        | sendDeviceSettings cmdType =>
          obtain rfl := Option.some.inj hsender
          exact s.device.sends_receiveMessageCallback lib io m he
        | _ => cases hsender
    · rw [handled_eq]
      exact hs.outbox
  · obtain ⟨hworkers, hnotification, hsenders, houtbox⟩ := hs.workerMove hi hmove
    refine ⟨hcamera, hfiles, hworkers, hnotification, ?_, houtbox ▸ hs.outbox⟩
    rcases hsenders with hsame | hnone
    · exact hsame ▸ hs.senders
    · rw [hnone]
      exact fun p hp => absurd hp List.not_mem_nil
  · have hp := hs.senders p (List.mem_of_getElem? hk)
    cases hmove with
    | serialize =>
      refine ⟨hcamera, hfiles, hs.workers, hs.notification, ?_, hs.outbox⟩
      intro q hq
      rcases List.mem_or_eq_of_mem_set hq with hold | rfl
      · exact hs.senders q hold
      · rw [show _ = _ from hp]
        rfl
    | sendEventAsync =>
      refine ⟨hcamera, hfiles, hs.workers, hs.notification, ?_, ?_⟩
      · intro q hq
        rcases List.mem_or_eq_of_mem_set hq with hold | rfl
        · exact hs.senders q hold
        · trivial
      · intro message hmessage
        rcases List.mem_append.mp hmessage with hold | hnew
        · exact hs.outbox message hold
        · rw [List.mem_singleton.mp hnew]
          exact hp

/-- **A camera announces nothing.**  In camera mode, whatever messages arrive and however the
    workers and the senders go on, no upload gets as far as its notification, and every
    message about the settings that is enqueued is the answer to a `GetDeviceSettings`. -/
theorem camera_silent (lib : JsonLibrary) (deviceId : String) (gain : UInt32) (exposure : Float)
    {actions : List Action} (hclock : ∀ a ∈ actions, a.ClockFits) :
    (machine lib).AllStates (fun s =>
        (∀ (i : Nat) p, s.workers[i]? = some p → p.pending? = none) ∧
        s.notification = none ∧ ∀ message ∈ s.outbox, message.Answers)
      (init deviceId (.camera gain exposure)) actions := by
  have hsilent : (machine lib).AllStates Silent (init deviceId (.camera gain exposure)) actions :=
    (machine lib).allStates_of_guard (fun _ _ _ hs ha hstep => hs.step ha hstep)
      (silent_init deviceId gain exposure) ((machine lib).allSteps_of_actions hclock _)
  apply hsilent.mono
  intro s hs
  exact ⟨hs.workers, hs.notification, hs.outbox⟩

/-- A run in which two frames are saved and uploaded, and a report is sent. -/
theorem camera_silent_filmed :
    (machine (.ofTable [])).AllStates (fun s =>
        (∀ (i : Nat) p, s.workers[i]? = some p → p.pending? = none) ∧
        s.notification = none ∧ ∀ message ∈ s.outbox, message.Answers)
      (init "d1" (.camera 30 200.0))
      [.message (Message.named CommandType.START) ⟨true, true⟩, .frameEvent 0 1483228800,
       .imageFile 0 true, .upload 0 true,
       .message (Message.named CommandType.GET_DEVICE_SETTINGS) ⟨true, true⟩,
       .frameEvent 0 1483228805, .serialize 0 id, .imageFile 0 true, .sendEventAsync 0,
       .upload 0 true] := by
  apply camera_silent
  simp only [List.forall_mem_cons, List.not_mem_nil, false_imp_iff, implies_true, and_true,
    Action.ClockFits]
  refine ⟨?_, ?_, ?_, ?_, ?_, ?_, ?_, ?_, ?_, ?_⟩
  all_goals rintro i time ⟨⟩
  -- the two frames
  · exact ⟨1483228800, rfl⟩
  · exact ⟨1483228805, rfl⟩

end Silent

end System

end IsmDevice
