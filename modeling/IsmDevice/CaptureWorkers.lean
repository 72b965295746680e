import IsmDevice.Protocol
import IsmDevice.System
import IsmDevice.Lib.Pool

/-!
# Capture workers

An accepted `Start` or `StartPreview` starts a worker and keeps no handle of it.
The worker of a `Camera` loops for ever; that of a `DirCamera` looks at `running`
once in each iteration.  So how many there are depends on the commands of the
whole history and, in directory mode, on where the workers stand when they come.
-/

namespace IsmDevice

open Transition

def Phase.ended : Phase → Bool
  | .exited => true
  | _ => false

namespace System

def liveWorkers (s : System) : Nat := Pool.live Phase.ended s.workers

/-- The action is a message whose command begins a capture: an accepted `Start`
    or `StartPreview`. -/
def Starts (s : System) (a : Action) : Prop :=
  ∃ m io cmd target, a = .message m io ∧ m.command? = some cmd ∧
    s.device.state.begins cmd = some target

end System

/-- Worker `i` takes a frame, or picks a file. -/
def Action.TakesCapture (i : Nat) : Action → Prop
  | .frameEvent j _ => j = i
  | .pickFile j _ => j = i
  | _ => False

def System.NewestTakesCaptures (s : System) (a : Action) : Prop :=
  ∀ i, a.TakesCapture i → i + 1 = s.workers.length

/-! ### What messages do to the workers -/

def Backend.isCamera : Backend → Bool
  | .camera _ => true
  | .dirCamera _ => false

theorem Backend.isCamera_eq (b : Backend) : b.isCamera = b.captures?.isNone := by
  cases b <;> rfl

section Messages

variable (lib : JsonLibrary) (io : DriverReply) (d : Device)

/-- A command starts the camera exactly if it begins a capture, and then does
    nothing else that takes a thread. -/
theorem Device.effects_handle (cmd : Command) :
    (∃ target, d.state.begins cmd = some target) ∧
        (d.handle lib io cmd).effects = [.cameraStart] ∨
      d.state.begins cmd = none ∧ Effect.cameraStart ∉ (d.handle lib io cmd).effects := by
  have hcase := d.handles lib io cmd
  generalize d.handle lib io cmd = r at hcase ⊢
  cases hcase with
  | begin h => exact Or.inl ⟨⟨_, h⟩, rfl⟩
  | finish hnone h => exact Or.inr ⟨hnone, by simp [Device.accept]⟩
  | update h =>
    exact Or.inr ⟨DeviceState.begins_setDeviceSettings _ _, by simp [Device.effects_handleUpdate]⟩
  | report => exact Or.inr ⟨by cases d.state <;> rfl, by simp [Device.accept]⟩
  | refuse hbegin hfinish hupdate => exact Or.inr ⟨hbegin, by simp [Device.reject]⟩

end Messages

namespace System

theorem workers_handled {h : Handled} (hstart : Effect.cameraStart ∉ h.effects) (s : System) :
    (s.handled h).workers = s.workers := by
  have hnone : h.effects.filterMap (Effect.worker? h.device.backend) = [] := by
    rw [List.filterMap_eq_nil_iff]
    intro e he
    cases e with
    | cameraStart => exact absurd he hstart
    | cameraStop => rfl
    | sendDeviceSettings cmdType => rfl
  rw [handled_eq]
  dsimp only
  rw [hnone, List.append_nil]

theorem ended_firstPhase (b : Backend) : b.firstPhase.ended = false := by
  cases b <;> rfl

theorem workers_message (lib : JsonLibrary) (m : Message) (io : DriverReply) (s : System) :
    (s.Starts (.message m io) ∧ ∃ p, p.ended = false ∧
        (s.handled (s.device.receiveMessageCallback lib io m)).workers = s.workers ++ [p]) ∨
      ¬ s.Starts (.message m io) ∧
        (s.handled (s.device.receiveMessageCallback lib io m)).workers = s.workers := by
  cases hcmd : m.command? with
  | none =>
    refine Or.inr ⟨?_, ?_⟩
    · rintro ⟨m', io', cmd, target, heq, hcmd', -⟩
      obtain ⟨rfl, rfl⟩ := Action.message.inj heq
      exact absurd (hcmd.symm.trans hcmd') (by simp)
    · rw [receiveMessageCallback_none lib io s.device hcmd]
      exact workers_handled (by simp [Device.reject]) s
  | some cmd =>
    rw [receiveMessageCallback_some lib io s.device hcmd]
    rcases s.device.effects_handle lib io cmd with ⟨⟨target, hbegin⟩, heffects⟩ | ⟨hnone, hstart⟩
    · refine Or.inl ⟨⟨m, io, cmd, target, rfl, hcmd, hbegin⟩, ?_⟩
      refine ⟨_, ended_firstPhase (s.device.handle lib io cmd).device.backend, ?_⟩
      rw [handled, heffects]
      rfl
    · refine Or.inr ⟨?_, workers_handled hstart s⟩
      rintro ⟨m', io', cmd', target, heq, hcmd', hbegin⟩
      obtain ⟨rfl, rfl⟩ := Action.message.inj heq
      obtain rfl := Option.some.inj (hcmd.symm.trans hcmd')
      exact absurd (hnone.symm.trans hbegin) (by simp)

/-! ### What the steps of the threads do to the workers -/

/-- Worker `i` is in another phase, unless the process has ended.  In camera mode
    it has not left its loop. -/
def WorkerStep (s : System) (i : Nat) (t : System) : Prop :=
  t.workers = [] ∨ ∃ p', t.workers = s.workers.set i p' ∧
    (s.device.backend.isCamera = true → p'.ended = false)

theorem workerStep_setWorker (s : System) (i : Nat) {p' : Phase} (h : p'.ended = false) :
    s.WorkerStep i (s.setWorker i p') := by
  refine Or.inr ⟨p', rfl, ?_⟩
  intro _
  exact h

theorem workerStep_exit (s : System) (i : Nat) : s.WorkerStep i s.exit := Or.inl rfl

theorem ended_afterUpload (b : Backend) : b.afterUpload.ended = false := by
  cases b <;> rfl

/-- A worker of a `Camera` is not in a phase of the other back end and stays in its place. -/
theorem workerStep_self {s : System} {i : Nat} {p : Phase} (hi : s.workers[i]? = some p)
    (h : p.ended = false) : s.WorkerStep i s := by
  obtain ⟨hlt, hget⟩ := List.getElem?_eq_some_iff.mp hi
  refine Or.inr ⟨p, ?_, ?_⟩
  · rw [← hget, List.set_getElem_self]
  · intro _
    exact h

theorem workerStep_onNotification (s : System) (i : Nat) (notification : Option Nat)
    (stale : String) : s.WorkerStep i (s.onNotification i notification stale) := by
  refine Or.inr ⟨s.device.backend.afterUpload, ?_, ?_⟩
  · rw [onNotification_eq]
  · intro _
    exact ended_afterUpload _

theorem workerStep_of_move {s t : System} {i : Nat} {p : Phase} {a : Action}
    (hi : s.workers[i]? = some p) (h : s.WorkerMove i p a t) :
    p.ended = false ∧ s.WorkerStep i t := by
  cases h with
  | frameEvent => exact ⟨rfl, workerStep_setWorker s i rfl⟩
  | saved => exact ⟨rfl, workerStep_setWorker s i rfl⟩
  | notSaved => exact ⟨rfl, workerStep_exit s i⟩
  | running hbackend hrunning => exact ⟨rfl, workerStep_setWorker s i rfl⟩
  | stopped hbackend hrunning =>
    -- the only way out of the loop
    refine ⟨rfl, Or.inr ⟨.exited, rfl, ?_⟩⟩
    intro hcamera
    rw [hbackend] at hcamera
    exact Bool.noConfusion hcamera
  | picked hbackend hfile => exact ⟨rfl, workerStep_setWorker s i rfl⟩
  | noFiles hbackend hfile => exact ⟨rfl, workerStep_exit s i⟩
  | uploaded hname => exact ⟨rfl, workerStep_setWorker s i rfl⟩
  | notUploaded hname => exact ⟨rfl, workerStep_setWorker s i (ended_afterUpload _)⟩
  | setNotification =>
    refine ⟨rfl, Or.inr ⟨.notify _, rfl, ?_⟩⟩
    intro _
    rfl
  | notify => exact ⟨rfl, workerStep_setWorker s i rfl⟩
  | onNotification => exact ⟨rfl, workerStep_onNotification s i _ _⟩
  | wake => exact ⟨rfl, workerStep_setWorker s i rfl⟩
  | stayTest hbackend => exact ⟨rfl, workerStep_self hi rfl⟩
  | stayPick hbackend => exact ⟨rfl, workerStep_self hi rfl⟩

theorem not_starts {s : System} {a : Action} (h : ∀ m io, a ≠ .message m io) : ¬ s.Starts a := by
  rintro ⟨m, io, cmd, target, rfl, -⟩
  exact h m io rfl

section Steps

variable (lib : JsonLibrary)

/-- **What a step does to the workers.**  It starts one where the action begins a
    capture, and otherwise lets one that is in its loop go on. -/
theorem workers_step {s t : System} {a : Action} (h : (machine lib).step s a = some t) :
    (s.Starts a ∧ ∃ p, p.ended = false ∧ t.workers = s.workers ++ [p]) ∨
      ¬ s.Starts a ∧
        (t.workers = s.workers ∨
          ∃ i p, s.workers[i]? = some p ∧ p.ended = false ∧ s.WorkerStep i t) := by
  rcases step_cases h with ⟨m, io, rfl, rfl⟩ | ⟨i, p, hi, hmove⟩ | ⟨k, p, hk, hmove⟩
  · rcases workers_message lib m io s with hstart | ⟨hnot, hsame⟩
    · exact Or.inl hstart
    · exact Or.inr ⟨hnot, Or.inl hsame⟩
  · have hnot : ¬ s.Starts a := by
      apply not_starts
      rintro m io rfl
      cases hmove
    obtain ⟨hended, hmoved⟩ := workerStep_of_move hi hmove
    exact Or.inr ⟨hnot, Or.inr ⟨i, p, hi, hended, hmoved⟩⟩
  · have hnot : ¬ s.Starts a := by
      apply not_starts
      rintro m io rfl
      cases hmove
    refine Or.inr ⟨hnot, Or.inl ?_⟩
    cases hmove <;> rfl

theorem isCamera_step {s t : System} {a : Action} (h : (machine lib).step s a = some t) :
    t.device.backend.isCamera = s.device.backend.isCamera := by
  rw [Backend.isCamera_eq, Backend.isCamera_eq, captures?_step h]

/-- The workers are a pool that only accepted starts add to. -/
theorem workers_pool : Pool.Runs Phase.ended (machine lib) workers Starts where
  start s a t hstep hstart := by
    rcases workers_step lib hstep with ⟨-, hadded⟩ | ⟨hnot, -⟩
    · exact hadded
    · exact absurd hstart hnot
  move s a t hstep hnot := by
    rcases workers_step lib hstep with ⟨hstart, -⟩ | ⟨-, hsame | ⟨i, p, hi, hended, hmoved⟩⟩
    · exact absurd hstart hnot
    · rw [hsame]; exact .keep
    · rcases hmoved with hnil | ⟨p', hset, -⟩
      · rw [hnil]
        exact .clear
      · rw [hset]
        exact .move p' hi hended

theorem takesCapture_live {s t : System} {a : Action} {i : Nat}
    (h : (machine lib).step s a = some t) (htakes : a.TakesCapture i) :
    ∃ p, s.workers[i]? = some p ∧ p.ended = false := by
  rcases step_cases h with ⟨m, io, rfl, -⟩ | ⟨j, p, hj, hmove⟩ | ⟨k, p, -, hmove⟩
  · exact htakes.elim
  · have hsame : j = i := by
      cases hmove with
      | frameEvent => exact htakes
      | picked hbackend hfile => exact htakes
      | noFiles hbackend hfile => exact htakes
      | stayPick hbackend => exact htakes
      | _ => exact htakes.elim
    rw [← hsame]
    exact ⟨p, hj, (workerStep_of_move hj hmove).1⟩
  · cases hmove <;> exact htakes.elim

/-- **At most one worker, and only the newest takes captures**, along every run
    exactly if every accepted start finds that no worker is left in its loop. -/
theorem oneWorker_iff (deviceId : String) (hardware : Hardware) (actions : List Action) :
    (machine lib).AllStates (fun s => s.liveWorkers ≤ 1) (init deviceId hardware) actions ∧
        (machine lib).AllSteps NewestTakesCaptures (init deviceId hardware) actions ↔
      (machine lib).AllSteps (fun s a => s.Starts a → s.liveWorkers = 0)
        (init deviceId hardware) actions := by
  have hiff := (workers_pool lib).live_le_one_iff (s := init deviceId hardware)
    (Nat.zero_le 1) actions
  constructor
  · rintro ⟨hlive, -⟩
    exact hiff.mp hlive
  · intro hguard
    refine ⟨hiff.mpr hguard, ?_⟩
    apply Machine.allSteps_of_guard (machine lib)
      (I := fun s => Pool.OnlyNewest Phase.ended s.workers) _ _ Pool.OnlyNewest.nil hguard
    · intro s a t hnewest hstart hstep
      exact (workers_pool lib).onlyNewest hnewest hstart hstep
    · intro s a t hnewest hstart hstep i htakes
      obtain ⟨p, hi, hended⟩ := takesCapture_live lib hstep htakes
      exact hnewest i p hi hended

/-! ### Camera mode -/

/-- In camera mode no worker ever leaves its loop. -/
def CamerasLoop (s : System) : Prop :=
  s.device.backend.isCamera = true ∧ ∀ p ∈ s.workers, p.ended = false

theorem camerasLoop_step {s t : System} {a : Action} (h : s.CamerasLoop)
    (hstep : (machine lib).step s a = some t) : t.CamerasLoop := by
  obtain ⟨hcamera, hloop⟩ := h
  refine ⟨(isCamera_step lib hstep).trans hcamera, ?_⟩
  rcases workers_step lib hstep with
    ⟨-, p, hp, hadded⟩ | ⟨-, hsame | ⟨i, p, hi, hended, hmoved⟩⟩
  · intro q hq
    rw [hadded, List.mem_append, List.mem_singleton] at hq
    rcases hq with hq | rfl
    · exact hloop q hq
    · exact hp
  · rw [hsame]; exact hloop
  · rcases hmoved with hnil | ⟨p', hset, hp'⟩
    · intro q hq
      rw [hnil] at hq
      exact absurd hq List.not_mem_nil
    · intro q hq
      rw [hset] at hq
      rcases List.mem_or_eq_of_mem_set hq with hq | rfl
      · exact hloop q hq
      · exact hp' hcamera

theorem liveWorkers_eq_zero_iff {s : System} (h : s.CamerasLoop) :
    s.liveWorkers = 0 ↔ s.workers = [] := by
  rw [liveWorkers, Pool.live_eq_zero_iff, List.eq_nil_iff_forall_not_mem]
  apply forall_congr'
  intro p
  constructor
  · intro hall hp
    exact absurd ((hall hp).symm.trans (h.2 p hp)) (by decide)
  · intro hnone hp
    exact absurd hp hnone

/-- **When a camera has one worker.**  In camera mode at most one worker is live,
    and an older one takes no frame, exactly if no start is accepted after one
    that has started a worker. -/
theorem camera_oneWorker_iff (deviceId : String) (gain : UInt32) (exposure : Float)
    (actions : List Action) :
    (machine lib).AllStates (fun s => s.liveWorkers ≤ 1)
          (init deviceId (.camera gain exposure)) actions ∧
        (machine lib).AllSteps NewestTakesCaptures
          (init deviceId (.camera gain exposure)) actions ↔
      (machine lib).AllSteps (fun s a => s.Starts a → s.workers = [])
        (init deviceId (.camera gain exposure)) actions := by
  apply (oneWorker_iff lib deviceId _ actions).trans
  apply Machine.allSteps_congr_of_invariant _ (J := CamerasLoop)
  · intro s a t h hstep
    exact camerasLoop_step lib h hstep
  · intro s a t hloop _
    rw [liveWorkers_eq_zero_iff hloop]
  · exact ⟨rfl, by simp [init]⟩

end Steps

end System

def restart : List Action :=
  [.message (Message.named CommandType.START) ⟨true, true⟩,
   .message (Message.named CommandType.STOP) ⟨true, true⟩,
   .message (Message.named CommandType.START) ⟨true, true⟩]

namespace System

/-- A camera that is started, stopped and started again has two workers. -/
theorem camera_twoWorkers :
    ¬ (machine (.ofTable [])).AllStates (fun s => s.liveWorkers ≤ 1)
      (init "d1" (.camera 30 200.0)) restart := by
  rintro ⟨-, h⟩
  have hlast := ((h _ rfl).2 _ rfl).2 _ rfl
  exact absurd (show 2 ≤ 1 from hlast) (by decide)

/-! ### Directory mode -/

/-- **When a directory has one worker.**  In directory mode at most one worker is
    live, and an older one takes no file, exactly if each start is accepted only
    after all workers started before it have found `running` unset and left their
    loop. -/
theorem directory_oneWorker_iff (lib : JsonLibrary) (deviceId : String) (captures : List String)
    (actions : List Action) :
    (machine lib).AllStates (fun s => s.liveWorkers ≤ 1)
          (init deviceId (.directory captures)) actions ∧
        (machine lib).AllSteps NewestTakesCaptures (init deviceId (.directory captures)) actions ↔
      (machine lib).AllSteps (fun s a => s.Starts a → ∀ p ∈ s.workers, p = .exited)
        (init deviceId (.directory captures)) actions := by
  apply (oneWorker_iff lib deviceId _ actions).trans
  apply Machine.allSteps_congr
  intro s a t _
  apply imp_congr_right
  intro _
  rw [liveWorkers, Pool.live_eq_zero_iff]
  apply forall₂_congr
  intro p _
  cases p <;> simp [Phase.ended]

/-- A directory camera restarted before its worker came back to the test of
    `running` has two workers. -/
theorem directory_twoWorkers :
    ¬ (machine (.ofTable [])).AllStates (fun s => s.liveWorkers ≤ 1)
      (init "d1" (.directory ["captures/a.jpg"])) restart := by
  rintro ⟨-, h⟩
  have hlast := ((h _ rfl).2 _ rfl).2 _ rfl
  exact absurd (show 2 ≤ 1 from hlast) (by decide)

end System

end IsmDevice
