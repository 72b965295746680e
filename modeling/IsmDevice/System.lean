import IsmDevice.Protocol
import IsmDevice.Telemetry
import IsmDevice.Lib.Pool

/-!
# The whole program as interleaving threads

Three kinds of threads share the device.  The IoT Hub client runs the message
callback.  `Camera::Start` and `DirCamera::Start` start a detached worker each,
which takes captures, uploads them and notifies the device.  Each D2C message is
built and sent by a detached thread of its own.

The phase of a thread is the place where it is about to go on.  An action names
the thread that goes on from there, and carries what the world outside answers:
the clock, the outcome of a save or an upload, a random number.  The workers stand
in the order in which they were started, and likewise the senders.

Whatever the interleaving, the device itself only takes messages and
notifications, so that what holds of its runs holds here (`refines_device`).
-/

namespace IsmDevice

open Transition

/-- Where a worker is about to go on. -/
inductive Phase where
  | waitEvent -- `Camera`: at `is_WaitEvent`
  | imageFile (filename : String) -- `Camera`: at `is_ImageFile`, to save the frame under this name
  | testRunning -- `DirCamera`: at the test of `running`
  | pickFile -- `DirCamera`: past the test, about to pick a file
  | upload (filename : String) -- at `UploadCaptureToBlobStorage`
  /-- At `SetNotification`, with its `CaptureNotification` on the stack. -/
  | setNotification (blobname : String)
  | notify (blobname : String) -- at `Notify`, with its `CaptureNotification` on the stack
  /-- In `OnNotification`, with the pointer that `GetNotification` has returned, and its
      own `CaptureNotification` still on the stack. -/
  | onNotification (blobname : String) (notification : Option Nat)
  | sleep -- `DirCamera`: in `sleep_for(capturePeriod)`
  | exited -- `DirCamera`: past the loop
deriving DecidableEq, Repr

inductive Sender where
  | serialize (cmdType : String)
  | sendEventAsync (message : D2CMessage)
  | finished

structure System where
  running : Bool -- the process has not ended
  device : Device
  workers : List Phase
  /-- The `notification` pointer of the publisher: the worker on whose stack the
      object was made. -/
  notification : Option Nat
  senders : List Sender
  outbox : List D2CMessage -- what `IoTHubClient_SendEventAsync` has been given, in order

/-- The file that a worker is about to save or to upload. -/
def Phase.filename? : Phase → Option String
  | .imageFile filename => some filename
  | .upload filename => some filename
  | _ => none

def Backend.firstPhase : Backend → Phase
  | .camera _ => .waitEvent
  | .dirCamera _ => .testRunning

def Backend.afterUpload : Backend → Phase
  | .camera _ => .waitEvent
  | .dirCamera _ => .sleep

def Backend.blobname : Backend → String → Option String
  | .camera _ => Camera.blobname
  | .dirCamera _ => DirCamera.blobname

namespace System

def init (deviceId : String) (hardware : Hardware) : System where
  running := true
  device := Device.init deviceId hardware
  workers := []
  notification := none
  senders := []
  outbox := []

def setWorker (i : Nat) (p : Phase) (s : System) : System :=
  { s with workers := s.workers.set i p }

def setSender (k : Nat) (p : Sender) (s : System) : System :=
  { s with senders := s.senders.set k p }

def exit (s : System) : System := { s with running := false, workers := [], senders := [] }

def spawn (s : System) : Effect → System
  | .cameraStart => { s with workers := s.workers ++ [s.device.backend.firstPhase] }
  | .cameraStop => s
  | .sendDeviceSettings cmdType => { s with senders := s.senders ++ [.serialize cmdType] }

/-- After a handler: its device, and the threads it started. -/
def handled (h : Handled) (s : System) : System :=
  h.effects.foldl spawn { s with device := h.device }

/-- The name read through a pointer of the publisher.  Where the worker it belongs
    to has left `UploadCaptureToBlobStorage`, the object is gone, and `stale` is
    whatever stands in its place. -/
def notified (notification : Option Nat) (stale : String) (s : System) : String :=
  match notification.bind fun j => s.workers[j]? with
  | some (.notify blobname) => blobname
  | some (.onNotification blobname _) => blobname
  | _ => stale

end System

/-- The thread that goes on next, and what the world answers. -/
inductive Action where
  | message (m : Message) (io : DriverReply)
  | frameEvent (worker : Nat) (time : Int)
  | imageFile (worker : Nat) (ok : Bool)
  | testRunning (worker : Nat)
  | pickFile (worker : Nat) (rand : Nat)
  | upload (worker : Nat) (ok : Bool)
  | setNotification (worker : Nat)
  | notify (worker : Nat)
  | onNotification (worker : Nat) (stale : String)
  | wake (worker : Nat)
  | serialize (sender : Nat) (undefined : Text → Text)
  | sendEventAsync (sender : Nat)

namespace System

/-! ### The steps of a worker -/

def testRunning (i : Nat) (s : System) : System :=
  match s.device.backend with
  | .dirCamera c => s.setWorker i (if c.running then .pickFile else .exited)
  | .camera _ => s

/-- The pick of a file.  Without files the remainder by `captures.size()` has no
    value and the process ends. -/
def pickFile (i rand : Nat) (s : System) : System :=
  match s.device.backend with
  | .dirCamera c =>
      match c.captures[rand % c.captures.length]? with
      | some file => s.setWorker i (.upload file)
      | none => s.exit
  | .camera _ => s

/-- `UploadCaptureToBlobStorage` up to its `CaptureNotification`; what throws in
    it is caught, and the worker goes on. -/
def upload (i : Nat) (filename : String) (ok : Bool) (s : System) : System :=
  match s.device.backend.blobname filename with
  | some blobname =>
      if ok then s.setWorker i (.setNotification blobname)
      else s.setWorker i s.device.backend.afterUpload
  | none => s.setWorker i s.device.backend.afterUpload

/-- `OnNotification` from the pointer on, and the return to the loop. -/
def onNotification (i : Nat) (notification : Option Nat) (stale : String) (s : System) : System :=
  (s.handled (s.device.onNotification (s.notified notification stale))).setWorker i
    s.device.backend.afterUpload

/-- A worker goes on from the phase it is in, where the action fits. -/
def stepWorker (s : System) (i : Nat) : Phase → Action → Option System
  | .waitEvent, .frameEvent _ time =>
      some (s.setWorker i (.imageFile (Camera.captureFilename time)))
  | .imageFile filename, .imageFile _ ok =>
      some (if ok then s.setWorker i (.upload filename) else s.exit)
  | .testRunning, .testRunning _ => some (s.testRunning i)
  | .pickFile, .pickFile _ rand => some (s.pickFile i rand)
  | .upload filename, .upload _ ok => some (s.upload i filename ok)
  | .setNotification blobname, .setNotification _ =>
      some { s.setWorker i (.notify blobname) with notification := some i }
  -- `Notify` calls `OnNotification`, which begins with `GetNotification`
  | .notify blobname, .notify _ => some (s.setWorker i (.onNotification blobname s.notification))
  | .onNotification _ notification, .onNotification _ stale =>
      some (s.onNotification i notification stale)
  | .sleep, .wake _ => some (s.setWorker i .testRunning)
  | _, _ => none

def stepSender (lib : JsonLibrary) (s : System) (k : Nat) : Sender → Action → Option System
  | .serialize cmdType, .serialize _ undefined =>
      some (s.setSender k
        (.sendEventAsync (sendD2C_DeviceSettings lib undefined s.device.settings cmdType)))
  | .sendEventAsync message, .sendEventAsync _ =>
      some { s.setSender k .finished with outbox := s.outbox ++ [message] }
  | _, _ => none

end System

def Action.worker? : Action → Option Nat
  | .frameEvent i _ => some i
  | .imageFile i _ => some i
  | .testRunning i => some i
  | .pickFile i _ => some i
  | .upload i _ => some i
  | .setNotification i => some i
  | .notify i => some i
  | .onNotification i _ => some i
  | .wake i => some i
  | _ => none

def Action.sender? : Action → Option Nat
  | .serialize k _ => some k
  | .sendEventAsync k => some k
  | _ => none

def System.stepRunning (lib : JsonLibrary) (s : System) (a : Action) : Option System :=
  match a with
  | .message m io => some (s.handled (s.device.receiveMessageCallback lib io m))
  | a =>
      match a.worker? with
      | some i => s.workers[i]?.bind fun p => s.stepWorker i p a
      | none =>
          match a.sender? with
          | some k => s.senders[k]?.bind fun p => s.stepSender lib k p a
          | none => none

def System.machine (lib : JsonLibrary) : Machine System Action where
  step s a := if s.running then s.stepRunning lib a else none

namespace System

/-- **What a worker can do** from its phase. -/
inductive WorkerMove (s : System) (i : Nat) : Phase → Action → System → Prop where
  | frameEvent {time : Int} : WorkerMove s i .waitEvent (.frameEvent i time)
      (s.setWorker i (.imageFile (Camera.captureFilename time)))
  | saved {filename : String} :
      WorkerMove s i (.imageFile filename) (.imageFile i true) (s.setWorker i (.upload filename))
  | notSaved {filename : String} : WorkerMove s i (.imageFile filename) (.imageFile i false) s.exit
  | running {c : DirCamera} (h : s.device.backend = .dirCamera c) (hrunning : c.running = true) :
      WorkerMove s i .testRunning (.testRunning i) (s.setWorker i .pickFile)
  | stopped {c : DirCamera} (h : s.device.backend = .dirCamera c) (hrunning : c.running = false) :
      WorkerMove s i .testRunning (.testRunning i) (s.setWorker i .exited)
  | picked {c : DirCamera} {rand : Nat} {file : String} (h : s.device.backend = .dirCamera c)
      (hfile : c.captures[rand % c.captures.length]? = some file) :
      WorkerMove s i .pickFile (.pickFile i rand) (s.setWorker i (.upload file))
  | noFiles {c : DirCamera} {rand : Nat} (h : s.device.backend = .dirCamera c)
      (hfile : c.captures[rand % c.captures.length]? = none) :
      WorkerMove s i .pickFile (.pickFile i rand) s.exit
  | uploaded {filename blobname : String} (h : s.device.backend.blobname filename = some blobname) :
      WorkerMove s i (.upload filename) (.upload i true) (s.setWorker i (.setNotification blobname))
  | notUploaded {filename : String} {ok : Bool}
      (h : ok = true → s.device.backend.blobname filename = none) :
      WorkerMove s i (.upload filename) (.upload i ok) (s.setWorker i s.device.backend.afterUpload)
  | setNotification {blobname : String} :
      WorkerMove s i (.setNotification blobname) (.setNotification i)
        { s.setWorker i (.notify blobname) with notification := some i }
  | notify {blobname : String} : WorkerMove s i (.notify blobname) (.notify i)
      (s.setWorker i (.onNotification blobname s.notification))
  | onNotification {blobname stale : String} {notification : Option Nat} :
      WorkerMove s i (.onNotification blobname notification) (.onNotification i stale)
        (s.onNotification i notification stale)
  | wake : WorkerMove s i .sleep (.wake i) (s.setWorker i .testRunning)
  -- a `Camera` has no worker in these two phases
  | stayTest {c : Camera} (h : s.device.backend = .camera c) :
      WorkerMove s i .testRunning (.testRunning i) s
  | stayPick {c : Camera} {rand : Nat} (h : s.device.backend = .camera c) :
      WorkerMove s i .pickFile (.pickFile i rand) s

theorem testRunning_move (s : System) (i : Nat) :
    s.WorkerMove i .testRunning (.testRunning i) (s.testRunning i) := by
  unfold testRunning
  cases h : s.device.backend with
  | camera c => exact .stayTest h
  | dirCamera c =>
    by_cases hrunning : c.running = true
    · simp only [hrunning, if_true]
      exact .running h hrunning
    · rw [Bool.not_eq_true] at hrunning
      simp only [hrunning, Bool.false_eq_true, if_false]
      exact .stopped h hrunning

theorem pickFile_move (s : System) (i rand : Nat) :
    s.WorkerMove i .pickFile (.pickFile i rand) (s.pickFile i rand) := by
  unfold pickFile
  cases h : s.device.backend with
  | camera c => exact .stayPick h
  | dirCamera c =>
    cases hfile : c.captures[rand % c.captures.length]? with
    | some file =>
      simp only [hfile]
      exact .picked h hfile
    | none =>
      simp only [hfile]
      exact .noFiles h hfile

theorem upload_move (s : System) (i : Nat) (filename : String) (ok : Bool) :
    s.WorkerMove i (.upload filename) (.upload i ok) (s.upload i filename ok) := by
  unfold upload
  cases h : s.device.backend.blobname filename with
  | none =>
    apply WorkerMove.notUploaded
    intro _
    exact h
  | some blobname =>
    cases ok with
    | true => exact .uploaded h
    | false => exact .notUploaded (by simp)

theorem stepWorker_cases {s t : System} {i : Nat} {p : Phase} {a : Action}
    (hworker : a.worker? = some i) (h : s.stepWorker i p a = some t) : s.WorkerMove i p a t := by
  unfold stepWorker at h
  split at h
  case h_10 => exact absurd h (by simp)
  all_goals
    obtain rfl := Option.some.inj hworker
    obtain rfl := Option.some.inj h
  · exact .frameEvent
  · next ok =>
    cases ok with
    | true => exact .saved
    | false => exact .notSaved
  · exact testRunning_move s _
  · exact pickFile_move s _ _
  · exact upload_move s _ _ _
  · exact .setNotification
  · exact .notify
  · exact .onNotification
  · exact .wake

/-- **What a sender can do.** -/
inductive SenderMove (lib : JsonLibrary) (s : System) (k : Nat) :
    Sender → Action → System → Prop where
  | serialize {cmdType : String} {undefined : Text → Text} :
      SenderMove lib s k (.serialize cmdType) (.serialize k undefined) (s.setSender k
        (.sendEventAsync (sendD2C_DeviceSettings lib undefined s.device.settings cmdType)))
  | sendEventAsync {message : D2CMessage} :
      SenderMove lib s k (.sendEventAsync message) (.sendEventAsync k)
        { s.setSender k .finished with outbox := s.outbox ++ [message] }

theorem stepSender_cases {lib : JsonLibrary} {s t : System} {k : Nat} {p : Sender} {a : Action}
    (hsender : a.sender? = some k) (h : s.stepSender lib k p a = some t) :
    s.SenderMove lib k p a t := by
  unfold stepSender at h
  split at h
  case h_3 => exact absurd h (by simp)
  all_goals
    obtain rfl := Option.some.inj hsender
    obtain rfl := Option.some.inj h
  · exact .serialize
  · exact .sendEventAsync

end System

theorem System.running_of_step {lib : JsonLibrary} {s t : System} {a : Action}
    (h : (System.machine lib).step s a = some t) : s.running = true := by
  simp only [System.machine] at h
  split at h
  · next hrunning => exact hrunning
  · exact absurd h (by simp)

/-- **What a step is**: a message is handled, a worker goes on, or a sender does. -/
theorem System.step_cases {lib : JsonLibrary} {s t : System} {a : Action}
    (h : (System.machine lib).step s a = some t) :
    (∃ m io, a = .message m io ∧ t = s.handled (s.device.receiveMessageCallback lib io m)) ∨
    (∃ i p, s.workers[i]? = some p ∧ s.WorkerMove i p a t) ∨
    (∃ k p, s.senders[k]? = some p ∧ s.SenderMove lib k p a t) := by
  have hrunning : s.stepRunning lib a = some t := by
    simp only [System.machine] at h
    split at h
    · exact h
    · exact absurd h (by simp)
  unfold System.stepRunning at hrunning
  split at hrunning
  case h_1 m io => exact Or.inl ⟨m, io, rfl, (Option.some.inj hrunning).symm⟩
  case h_2 =>
    refine Or.inr ?_
    cases hworker : a.worker? with
    | some i =>
      rw [hworker] at hrunning
      obtain ⟨p, hi, hstep⟩ := Option.bind_eq_some_iff.mp hrunning
      exact Or.inl ⟨i, p, hi, stepWorker_cases hworker hstep⟩
    | none =>
      rw [hworker] at hrunning
      cases hsender : a.sender? with
      | some k =>
        simp only [hsender] at hrunning
        obtain ⟨p, hk, hstep⟩ := Option.bind_eq_some_iff.mp hrunning
        exact Or.inr ⟨k, p, hk, stepSender_cases hsender hstep⟩
      | none => simp [hsender] at hrunning

/-! ### The device under the threads -/

def Effect.worker? (b : Backend) : Effect → Option Phase
  | .cameraStart => some b.firstPhase
  | _ => none

def Effect.sender? : Effect → Option Sender
  | .sendDeviceSettings cmdType => some (.serialize cmdType)
  | _ => none

/-- What an action does to the device: a message is received, or a notification
    arrives with the name that is read through the publisher's pointer. -/
def System.event? (s : System) : Action → Option Event
  | .message m io => some (.message m io)
  | .onNotification i stale =>
      match s.workers[i]? with
      | some (.onNotification _ notification) =>
          some (.notification (s.notified notification stale))
      | _ => none
  | _ => none

namespace System

theorem event?_onNotification {s : System} {i : Nat} {blobname : String}
    {notification : Option Nat} (stale : String)
    (hi : s.workers[i]? = some (.onNotification blobname notification)) :
    s.event? (.onNotification i stale) = some (.notification (s.notified notification stale)) := by
  simp only [event?, hi]

theorem getElem?_setWorker_ne {s : System} {i j : Nat} (p' : Phase) (hji : j ≠ i) :
    (s.setWorker i p').workers[j]? = s.workers[j]? :=
  List.getElem?_set_ne (Ne.symm hji)

theorem phase_setWorker {s : System} {i : Nat} {p p' : Phase}
    (h : (s.setWorker i p').workers[i]? = some p) : p = p' := by
  obtain ⟨hlt, hget⟩ := List.getElem?_eq_some_iff.mp h
  rw [← hget]
  exact List.getElem_set_self hlt

theorem foldl_spawn (effects : List Effect) (s : System) :
    effects.foldl spawn s =
      { s with
        workers := s.workers ++ effects.filterMap (Effect.worker? s.device.backend)
        senders := s.senders ++ effects.filterMap Effect.sender? } := by
  induction effects generalizing s with
  | nil => simp
  | cons e rest ih =>
    rw [List.foldl_cons, ih]
    cases e <;> simp [spawn, List.filterMap_cons, Effect.worker?, Effect.sender?]

/-- **What a handler does to the threads**: it adds to them. -/
theorem handled_eq (h : Handled) (s : System) :
    s.handled h =
      { s with
        device := h.device
        workers := s.workers ++ h.effects.filterMap (Effect.worker? h.device.backend)
        senders := s.senders ++ h.effects.filterMap Effect.sender? } :=
  foldl_spawn h.effects _

@[simp] theorem device_handled (h : Handled) (s : System) : (s.handled h).device = h.device := by
  rw [handled_eq]

theorem started_firstPhase {effects : List Effect} {b : Backend} {p : Phase}
    (h : p ∈ effects.filterMap (Effect.worker? b)) : p = b.firstPhase := by
  obtain ⟨e, -, he⟩ := List.mem_filterMap.mp h
  cases e with
  | cameraStart => exact (Option.some.inj he).symm
  | cameraStop => simp [Effect.worker?] at he
  | sendDeviceSettings cmdType => simp [Effect.worker?] at he

/-- A worker after a handler was there before it, or has just been started. -/
theorem worker_handled {h : Handled} {s : System} {i : Nat} {p : Phase}
    (hi : (s.handled h).workers[i]? = some p) :
    s.workers[i]? = some p ∨ ∃ b, b = h.device.backend ∧ p = b.firstPhase := by
  rw [handled_eq] at hi
  rcases Pool.spawn_cases hi with hold | ⟨j, -, hnew⟩
  · exact Or.inl hold
  · exact Or.inr ⟨_, rfl, started_firstPhase (List.mem_of_getElem? hnew)⟩

theorem onNotification_eq (i : Nat) (notification : Option Nat) (stale : String) (s : System) :
    s.onNotification i notification stale =
      { s with
        device := (s.device.onNotification (s.notified notification stale)).device
        workers := s.workers.set i s.device.backend.afterUpload
        senders := s.senders ++ [.serialize CommandType.CAPTURE_UPLOADED] } := rfl

theorem device_senderMove {lib : JsonLibrary} {s t : System} {k : Nat} {p : Sender} {a : Action}
    (h : s.SenderMove lib k p a t) : s.event? a = none ∧ t.device = s.device := by
  cases h <;> exact ⟨rfl, rfl⟩

theorem device_workerMove {s t : System} {i : Nat} {p : Phase} {a : Action}
    (h : s.WorkerMove i p a t) (hi : s.workers[i]? = some p) (lib : JsonLibrary) :
    match s.event? a with
    | some e => t.device = (s.device.next lib e).device
    | none => t.device = s.device := by
  cases h with
  | onNotification =>
    simp only [event?, hi]
    exact device_handled _ s
  | _ => rfl

/-- **The threads leave the device to its events**: under every interleaving the
    device goes on by the messages it receives and the notifications it gets, and
    by nothing else. -/
theorem refines_device (lib : JsonLibrary) :
    (machine lib).Refines (Device.machine lib) System.device event? := by
  constructor
  · intro s a t e hstep hevent
    rcases step_cases hstep with ⟨m, io, rfl, rfl⟩ | ⟨i, p, hi, hmove⟩ | ⟨k, p, -, hmove⟩
    · injection hevent with heq
      subst heq
      rw [device_handled]
      rfl
    · have hdevice := device_workerMove hmove hi lib
      rw [hevent] at hdevice
      rw [hdevice]
      rfl
    · exact absurd ((device_senderMove hmove).1.symm.trans hevent) (by simp)
  · intro s a t hstep hevent
    rcases step_cases hstep with ⟨m, io, rfl, rfl⟩ | ⟨i, p, hi, hmove⟩ | ⟨k, p, -, hmove⟩
    · simp [event?] at hevent
    · have hdevice := device_workerMove hmove hi lib
      rw [hevent] at hdevice
      exact hdevice
    · exact (device_senderMove hmove).2

/-! ### The files the workers are at -/

/-- The blob that worker `i` uploads from where it is. -/
def uploading? (s : System) (i : Nat) : Option String :=
  match s.workers[i]? with
  | some (.upload filename) => s.device.backend.blobname filename
  | _ => none

/-- Some worker is about to save or to upload this file. -/
def AtFile (s : System) (filename : String) : Prop :=
  ∃ (i : Nat) (p : Phase), s.workers[i]? = some p ∧ p.filename? = some filename

/-- Where the file that a worker comes to is from: a frame, or a pick. -/
def NewFile (s : System) (a : Action) (filename : String) : Prop :=
  (∃ i time, a = .frameEvent i time ∧ s.workers[i]? = some .waitEvent ∧
      filename = Camera.captureFilename time) ∨
    ∃ c, s.device.backend = .dirCamera c ∧ filename ∈ c.captures

theorem atFile_of_set {s t : System} {i : Nat} {p' : Phase} {filename : String}
    (ht : t.workers = s.workers.set i p') (h : t.AtFile filename) :
    p'.filename? = some filename ∨ s.AtFile filename := by
  obtain ⟨j, q, hj, hq⟩ := h
  rw [ht] at hj
  rcases Pool.set_cases hj with ⟨-, rfl⟩ | ⟨-, hold⟩
  · exact Or.inl hq
  · exact Or.inr ⟨j, q, hold, hq⟩

theorem not_atFile_exit (s : System) (filename : String) : ¬ s.exit.AtFile filename := by
  rintro ⟨j, q, hj, -⟩
  simp [exit] at hj

theorem filename_afterUpload (b : Backend) : b.afterUpload.filename? = none := by
  cases b <;> rfl

theorem atFile_workerMove {s t : System} {i : Nat} {p : Phase} {a : Action} {filename : String}
    (hi : s.workers[i]? = some p) (h : s.WorkerMove i p a t) (ht : t.AtFile filename) :
    s.NewFile a filename ∨ s.AtFile filename := by
  -- a worker that goes on to no file leaves the others where they are
  have hother : ∀ p' : Phase, p'.filename? = none → t.workers = s.workers.set i p' →
      s.AtFile filename := by
    intro p' hnone hset
    apply (atFile_of_set hset ht).resolve_left
    simp [hnone]
  cases h with
  | @frameEvent time =>
    rcases atFile_of_set rfl ht with hnew | hold
    · exact Or.inl (Or.inl ⟨i, time, rfl, hi, (Option.some.inj hnew).symm⟩)
    · exact Or.inr hold
  | saved =>
    rcases atFile_of_set rfl ht with hnew | hold
    · exact Or.inr ⟨i, _, hi, hnew⟩
    · exact Or.inr hold
  | picked hbackend hfile =>
    rcases atFile_of_set rfl ht with hnew | hold
    · obtain rfl := Option.some.inj hnew
      exact Or.inl (Or.inr ⟨_, hbackend, List.mem_of_getElem? hfile⟩)
    · exact Or.inr hold
  | notSaved => exact absurd ht (not_atFile_exit s filename)
  | noFiles hbackend hfile => exact absurd ht (not_atFile_exit s filename)
  | running hbackend hrunning => exact Or.inr (hother _ rfl rfl)
  | stopped hbackend hrunning => exact Or.inr (hother _ rfl rfl)
  | uploaded hname => exact Or.inr (hother _ rfl rfl)
  | notUploaded hname => exact Or.inr (hother _ (filename_afterUpload _) rfl)
  | setNotification => exact Or.inr (hother _ rfl rfl)
  | notify => exact Or.inr (hother _ rfl rfl)
  | onNotification => exact Or.inr (hother _ (filename_afterUpload _) rfl)
  | wake => exact Or.inr (hother _ rfl rfl)
  | stayTest hbackend => exact Or.inr ht
  | stayPick hbackend => exact Or.inr ht

/-- **Where files come from.**  A worker is at a file that one was at before, or
    that the step has named or picked. -/
theorem atFile_step {lib : JsonLibrary} {s t : System} {a : Action} {filename : String}
    (h : (machine lib).step s a = some t) (ht : t.AtFile filename) :
    s.NewFile a filename ∨ s.AtFile filename := by
  rcases step_cases h with ⟨m, io, rfl, rfl⟩ | ⟨i, p, hi, hmove⟩ | ⟨k, p, -, hmove⟩
  · obtain ⟨j, q, hj, hq⟩ := ht
    rcases worker_handled hj with hold | ⟨b, -, rfl⟩
    · exact Or.inr ⟨j, q, hold, hq⟩
    · cases b <;> simp [Backend.firstPhase, Phase.filename?] at hq
  · exact atFile_workerMove hi hmove ht
  · right
    cases hmove <;> exact ht

theorem captures?_step {lib : JsonLibrary} {s t : System} {a : Action}
    (h : (machine lib).step s a = some t) :
    t.device.backend.captures? = s.device.backend.captures? := by
  cases hevent : s.event? a with
  | none => rw [(refines_device lib).stutter s a t h hevent]
  | some e =>
    have hdevice := (refines_device lib).step s a t e h hevent
    injection hdevice with heq
    rw [← heq]
    exact s.device.captures?_next lib e

theorem reaches_device {lib : JsonLibrary} {s t : System} (h : (machine lib).Reaches s t) :
    (Device.machine lib).Reaches s.device t.device :=
  (refines_device lib).reaches h

end System

end IsmDevice
