import IsmDevice.Protocol
import IsmDevice.System
import IsmDevice.Lib.Pool

/-!
# What the publisher delivers

`CaptureNotificationPublisher` holds one pointer for all workers.  A worker sets
it to a notification on its own stack and then calls `Notify`; the device reads
the name of the capture through whatever the pointer is by then.  Nothing keeps
a second worker from setting it in between.
-/

namespace IsmDevice

open Transition

/-- The names of the captures that were uploaded, and those the device has read. -/
structure Published where
  uploaded : List String
  read : List String

/-- The name of a capture that is uploaded and that the device is still to read. -/
def Phase.pending? : Phase → Option String
  | .setNotification blobname => some blobname
  | .notify blobname => some blobname
  | .onNotification blobname _ => some blobname
  | _ => none

namespace System

/-- A successful upload, and the name it is announced under. -/
def uploaded? (s : System) : Action → Option String
  | .upload i true =>
      match s.workers[i]? with
      | some (.upload filename) => s.device.backend.blobname filename
      | _ => none
  | _ => none

def read? (s : System) (a : Action) : Option String :=
  match s.event? a with
  | some (.notification blobname) => some blobname
  | _ => none

def publishing (lib : JsonLibrary) : Machine (System × Published) Action :=
  (machine lib).record fun s a _ h =>
    ⟨h.uploaded ++ (s.uploaded? a).toList, h.read ++ (s.read? a).toList⟩

/-- While no upload waits to be announced, the device has read each of their names
    as often as it was uploaded. -/
def Delivered (s : System × Published) : Prop :=
  s.1.running = true → (∀ p ∈ s.1.workers, p.pending? = none) → s.2.read.Perm s.2.uploaded

/-- The device reads the name of the worker that notifies it, through the pointer to
    the notification of that worker, which has not returned. -/
def ReadsOwn (s : System) (a : Action) : Prop :=
  ∀ i stale, a = .onNotification i stale →
    ∃ blobname, s.workers[i]? = some (.onNotification blobname (some i)) ∧
      s.read? a = some blobname

/-- A worker calls `SetNotification` only while no other stands between its own call
    and the `GetNotification` of the device. -/
def SetsAlone (s : System) (a : Action) : Prop :=
  ∀ i, a = .setNotification i → ∀ j blobname, j ≠ i → s.workers[j]? ≠ some (.notify blobname)

/-- What a worker is about to read, or has got, is the pointer to its own notification. -/
structure OwnsPointer (s : System) : Prop where
  notify : ∀ (i : Nat) blobname, s.workers[i]? = some (.notify blobname) → s.notification = some i
  onNotification : ∀ (i : Nat) blobname notification,
    s.workers[i]? = some (.onNotification blobname notification) → notification = some i

section Publisher

variable {s t : System}

theorem ownsPointer_setWorker {i : Nat} (p' : Phase) (h : OwnsPointer s)
    (hnotify : ∀ blobname, p' = .notify blobname → s.notification = some i)
    (honNotification : ∀ blobname notification, p' = .onNotification blobname notification →
      notification = some i) : OwnsPointer (s.setWorker i p') := by
  constructor
  · intro j blobname hj
    rcases Pool.set_cases hj with ⟨rfl, hp⟩ | ⟨-, hold⟩
    · exact hnotify blobname hp.symm
    · exact h.notify j blobname hold
  · intro j blobname notification hj
    rcases Pool.set_cases hj with ⟨rfl, hp⟩ | ⟨-, hold⟩
    · exact honNotification blobname notification hp.symm
    · exact h.onNotification j blobname notification hold

theorem ownsPointer_handled (h : Handled) (hs : OwnsPointer s) : OwnsPointer (s.handled h) := by
  have hnotification : (s.handled h).notification = s.notification := by rw [handled_eq]
  constructor
  · intro j blobname hj
    rw [hnotification]
    rcases worker_handled hj with hold | ⟨b, -, hb⟩
    · exact hs.notify j blobname hold
    · cases b <;> simp [Backend.firstPhase] at hb
  · intro j blobname notification hj
    rcases worker_handled hj with hold | ⟨b, -, hb⟩
    · exact hs.onNotification j blobname notification hold
    · cases b <;> simp [Backend.firstPhase] at hb

theorem ownsPointer_exit : OwnsPointer s.exit := by
  constructor <;> simp [exit]

theorem afterUpload_pending (b : Backend) : b.afterUpload.pending? = none := by
  cases b <;> rfl

/-- No other worker waits for the pointer that is replaced. -/
theorem ownsPointer_setNotification {i : Nat} (blobname : String) (h : OwnsPointer s)
    (halone : s.SetsAlone (.setNotification i)) :
    OwnsPointer { s.setWorker i (.notify blobname) with notification := some i } := by
  constructor
  · intro j blobname' hj
    rcases Pool.set_cases hj with ⟨rfl, -⟩ | ⟨hji, hold⟩
    · rfl
    · exact absurd hold (halone i rfl j blobname' hji)
  · intro j blobname' notification hj
    rcases Pool.set_cases hj with ⟨rfl, hp⟩ | ⟨-, hold⟩
    · exact absurd hp (by simp)
    · exact h.onNotification j blobname' notification hold

theorem ownsPointer_workerMove {i : Nat} {p : Phase} {a : Action} (hs : OwnsPointer s)
    (halone : s.SetsAlone a) (hi : s.workers[i]? = some p) (h : s.WorkerMove i p a t) :
    OwnsPointer t := by
  have hset : ∀ p' : Phase, (∀ blobname, p' ≠ .notify blobname) →
      (∀ blobname notification, p' ≠ .onNotification blobname notification) →
      OwnsPointer (s.setWorker i p') := by
    intro p' hnotify honNotification
    apply ownsPointer_setWorker p' hs
    · intro blobname hp'
      exact absurd hp' (hnotify blobname)
    · intro blobname notification hp'
      exact absurd hp' (honNotification blobname notification)
  have hafter : OwnsPointer (s.setWorker i s.device.backend.afterUpload) := by
    apply hset
    · intro blobname
      cases s.device.backend <;> simp [Backend.afterUpload]
    · intro blobname notification
      cases s.device.backend <;> simp [Backend.afterUpload]
  cases h with
  | frameEvent => exact hset _ (by simp) (by simp)
  | saved => exact hset _ (by simp) (by simp)
  | notSaved => exact ownsPointer_exit
  | running hbackend hrunning => exact hset _ (by simp) (by simp)
  | stopped hbackend hrunning => exact hset _ (by simp) (by simp)
  | picked hbackend hfile => exact hset _ (by simp) (by simp)
  | noFiles hbackend hfile => exact ownsPointer_exit
  | uploaded hname => exact hset _ (by simp) (by simp)
  | notUploaded hname => exact hafter
  | @setNotification blobname => exact ownsPointer_setNotification blobname hs halone
  | @notify blobname =>
    -- `GetNotification` returns the pointer the worker has set
    apply ownsPointer_setWorker _ hs
    · intro blobname' hp'
      simp at hp'
    · intro blobname' notification hp'
      obtain ⟨-, rfl⟩ := Phase.onNotification.inj hp'
      exact hs.notify i blobname hi
  | onNotification =>
    obtain ⟨hnotify, honNotification⟩ := hafter
    rw [onNotification_eq]
    exact ⟨hnotify, honNotification⟩
  | wake => exact hset _ (by simp) (by simp)
  | stayTest hbackend => exact hs
  | stayPick hbackend => exact hs

theorem ownsPointer_step {lib : JsonLibrary} {a : Action} (hs : OwnsPointer s)
    (halone : s.SetsAlone a) (hstep : (machine lib).step s a = some t) : OwnsPointer t := by
  rcases step_cases hstep with ⟨m, io, rfl, rfl⟩ | ⟨i, p, hi, hmove⟩ | ⟨k, p, -, hmove⟩
  · exact ownsPointer_handled _ hs
  · exact ownsPointer_workerMove hs halone hi hmove
  · cases hmove <;> exact ⟨hs.notify, hs.onNotification⟩

theorem read?_onNotification {i : Nat} {blobname : String} {notification : Option Nat}
    (stale : String) (hi : s.workers[i]? = some (.onNotification blobname notification)) :
    s.read? (.onNotification i stale) = some (s.notified notification stale) := by
  simp only [read?, event?_onNotification stale hi]

theorem readsOwn_step {lib : JsonLibrary} {a : Action} (hs : OwnsPointer s)
    (hstep : (machine lib).step s a = some t) : s.ReadsOwn a := by
  rintro i stale rfl
  rcases step_cases hstep with ⟨m, io, ha, -⟩ | ⟨j, p, hj, hmove⟩ | ⟨k, p, -, hmove⟩
  · simp at ha
  · cases hmove with
    | @onNotification blobname stale notification =>
      obtain rfl := hs.onNotification i blobname notification hj
      refine ⟨blobname, hj, ?_⟩
      rw [read?_onNotification stale hj]
      simp [notified, hj]
  · cases hmove

end Publisher

/-! ### Counting -/

/-- Each name that was uploaded has been read, or a worker is still to announce it. -/
def Counted (s : System × Published) : Prop :=
  ∀ name, s.2.uploaded.count name =
    s.2.read.count name + (Pool.held Phase.pending? s.1.workers).count name

section Counting

variable {s t : System} {h : Published} {uploaded read : List String}

theorem counted_init (deviceId : String) (hardware : Hardware) :
    Counted (init deviceId hardware, ⟨[], []⟩) := by
  intro name
  rfl

/-- Worker `i` announces what it gains, and the device reads what it loses. -/
theorem counted_set {i : Nat} {p : Phase} (p' : Phase) (hs : Counted (s, h))
    (hi : s.workers[i]? = some p) (hworkers : t.workers = s.workers.set i p')
    (hmoved : ∀ name, uploaded.count name + p.pending?.toList.count name =
      read.count name + p'.pending?.toList.count name) :
    Counted (t, ⟨h.uploaded ++ uploaded, h.read ++ read⟩) := by
  intro name
  have hold := hs name
  have hheld := Pool.count_held_set Phase.pending? p' hi name
  have hdiff := hmoved name
  dsimp only at hold ⊢
  rw [hworkers, List.count_append, List.count_append]
  omega

theorem counted_same (hs : Counted (s, h))
    (hheld : Pool.held Phase.pending? t.workers = Pool.held Phase.pending? s.workers) :
    Counted (t, ⟨h.uploaded ++ [], h.read ++ []⟩) := by
  intro name
  dsimp only
  rw [List.append_nil, List.append_nil, hheld]
  exact hs name

theorem held_handled (r : Handled) :
    Pool.held Phase.pending? (s.handled r).workers = Pool.held Phase.pending? s.workers := by
  have hnone : Pool.held Phase.pending?
      (r.effects.filterMap (Effect.worker? r.device.backend)) = [] := by
    rw [Pool.held_eq_nil_iff]
    intro p hp
    rw [started_firstPhase hp]
    cases r.device.backend <;> rfl
  rw [handled_eq]
  dsimp only
  rw [Pool.held_append, hnone, List.append_nil]

theorem counted_workerMove {i : Nat} {p : Phase} {a : Action} (hs : Counted (s, h))
    (howns : OwnsPointer s) (hi : s.workers[i]? = some p) (hmove : s.WorkerMove i p a t)
    (hrunning : t.running = true) :
    Counted (t, ⟨h.uploaded ++ (s.uploaded? a).toList, h.read ++ (s.read? a).toList⟩) := by
  cases hmove with
  | frameEvent => exact counted_set _ hs hi rfl (fun _ => rfl)
  | saved => exact counted_set _ hs hi rfl (fun _ => rfl)
  | notSaved => exact Bool.noConfusion hrunning
  | running hbackend hon => exact counted_set _ hs hi rfl (fun _ => rfl)
  | stopped hbackend hoff => exact counted_set _ hs hi rfl (fun _ => rfl)
  | picked hbackend hfile => exact counted_set _ hs hi rfl (fun _ => rfl)
  | noFiles hbackend hfile => exact Bool.noConfusion hrunning
  | @uploaded filename blobname hname =>
    have huploaded : s.uploaded? (.upload i true) = some blobname := by
      simp only [uploaded?, hi, hname]
    apply counted_set _ hs hi rfl
    intro name
    rw [huploaded]
    exact Nat.add_comm _ _
  | @notUploaded filename ok hname =>
    have huploaded : s.uploaded? (.upload i ok) = none := by
      cases ok with
      | true => simp only [uploaded?, hi, hname rfl]
      | false => rfl
    apply counted_set _ hs hi rfl
    intro name
    rw [huploaded, afterUpload_pending]
    rfl
  | setNotification => exact counted_set _ hs hi rfl (fun _ => rfl)
  | notify => exact counted_set _ hs hi rfl (fun _ => rfl)
  | @onNotification blobname stale notification =>
    -- its own name is read
    obtain rfl := howns.onNotification i blobname notification hi
    have hread : s.read? (.onNotification i stale) = some blobname := by
      rw [read?_onNotification stale hi]
      simp [notified, hi]
    apply counted_set s.device.backend.afterUpload hs hi
    · rw [onNotification_eq]
    · intro name
      rw [hread, afterUpload_pending]
      exact Nat.add_comm _ _
  | wake => exact counted_set _ hs hi rfl (fun _ => rfl)
  | stayTest hbackend => exact counted_same hs rfl
  | stayPick hbackend => exact counted_same hs rfl

theorem counted_step {lib : JsonLibrary} {a : Action} (hs : Counted (s, h)) (howns : OwnsPointer s)
    (hstep : (machine lib).step s a = some t) (hrunning : t.running = true) :
    Counted (t, ⟨h.uploaded ++ (s.uploaded? a).toList, h.read ++ (s.read? a).toList⟩) := by
  rcases step_cases hstep with ⟨m, io, rfl, rfl⟩ | ⟨i, p, hi, hmove⟩ | ⟨k, p, -, hmove⟩
  · exact counted_same hs (held_handled _)
  · exact counted_workerMove hs howns hi hmove hrunning
  · cases hmove <;> exact counted_same hs rfl

theorem delivered_of_counted {s : System × Published} (hs : s.1.running = true → Counted s) :
    Delivered s := by
  intro hrunning hquiet
  rw [List.perm_iff_count]
  intro name
  have hcount := hs hrunning name
  rw [(Pool.held_eq_nil_iff _).mpr hquiet, List.count_nil] at hcount
  exact hcount.symm

end Counting

theorem ownsPointer_init (deviceId : String) (hardware : Hardware) :
    OwnsPointer (init deviceId hardware) := by
  constructor <;> simp [init]

/-- **When every upload is announced once, under its own name.**  In every run in which
    a worker calls `SetNotification` only while no other stands between its own call and
    `GetNotification`, whatever the number of workers, the device reads the names of the
    successful uploads, each as often as it was uploaded, and always through the
    notification of the worker that notifies it. -/
theorem delivered_of_setsAlone (lib : JsonLibrary) (deviceId : String) (hardware : Hardware)
    (actions : List Action)
    (halone : (publishing lib).AllSteps (fun s a => s.1.SetsAlone a)
      (init deviceId hardware, ⟨[], []⟩) actions) :
    (publishing lib).AllStates Delivered (init deviceId hardware, ⟨[], []⟩) actions ∧
      (publishing lib).AllSteps (fun s a => s.1.ReadsOwn a)
        (init deviceId hardware, ⟨[], []⟩) actions := by
  have hkeep : ∀ (s : System × Published) (a : Action) (t : System × Published),
      OwnsPointer s.1 ∧ (s.1.running = true → Counted s) → s.1.SetsAlone a →
      (publishing lib).step s a = some t →
      OwnsPointer t.1 ∧ (t.1.running = true → Counted t) := by
    rintro ⟨s, h⟩ a ⟨t, h'⟩ ⟨howns, hcounted⟩ ha hstep
    obtain ⟨hnext, hupdate⟩ := Machine.record_step hstep
    dsimp only at hnext hupdate howns hcounted ha ⊢
    refine ⟨ownsPointer_step howns ha hnext, ?_⟩
    intro hrunning
    rw [hupdate]
    exact counted_step (hcounted (running_of_step hnext)) howns hnext hrunning
  have hinit : OwnsPointer (init deviceId hardware) ∧
      (true = true → Counted (init deviceId hardware, ⟨[], []⟩)) := by
    refine ⟨ownsPointer_init deviceId hardware, ?_⟩
    intro _
    exact counted_init deviceId hardware
  constructor
  · apply (Machine.allStates_of_guard _ hkeep hinit halone).mono
    rintro s ⟨-, hcounted⟩
    exact delivered_of_counted hcounted
  · apply Machine.allSteps_of_guard _ hkeep _ hinit halone
    rintro s a t ⟨howns, -⟩ - hstep
    exact readsOwn_step howns (Machine.record_step hstep).1

end System

/-- Two workers have uploaded a capture each: the device was stopped and started
    again while the first was about to upload. -/
def twoUploads : List Action :=
  [.message (Message.named CommandType.START) ⟨true, true⟩, .testRunning 0, .pickFile 0 0,
   .message (Message.named CommandType.STOP) ⟨true, true⟩,
   .message (Message.named CommandType.START) ⟨true, true⟩, .testRunning 1, .pickFile 1 1,
   .upload 0 true, .upload 1 true]

/-- The second sets the pointer once the device has it from the first. -/
def announcedInTurn : List Action :=
  twoUploads ++ [.setNotification 0, .notify 0, .setNotification 1, .onNotification 0 "",
    .notify 1, .onNotification 1 ""]

def setTwice : List Action :=
  twoUploads ++ [.setNotification 0, .setNotification 1, .notify 0, .onNotification 0 "",
    .notify 1, .onNotification 1 ""]

namespace System

theorem delivered_announcedInTurn :
    (publishing (.ofTable [])).AllStates Delivered
        (init "d1" (.directory ["captures/a.jpg", "captures/b.jpg"]), ⟨[], []⟩) announcedInTurn ∧
      (publishing (.ofTable [])).AllSteps (fun s a => s.1.ReadsOwn a)
        (init "d1" (.directory ["captures/a.jpg", "captures/b.jpg"]), ⟨[], []⟩) announcedInTurn := by
  apply delivered_of_setsAlone
  refine .cons rfl nofun (.cons rfl nofun (.cons rfl nofun (.cons rfl nofun (.cons rfl nofun
    (.cons rfl nofun (.cons rfl nofun (.cons rfl nofun (.cons rfl nofun (.cons rfl ?_
    (.cons rfl nofun (.cons rfl ?_ (.cons rfl nofun (.cons rfl nofun
    (.cons rfl nofun trivial))))))))))))))
  · rintro i ⟨⟩ (_ | _ | j) blobname hji hj
    · exact hji rfl
    · cases hj
    · cases hj
  · rintro i ⟨⟩ (_ | _ | j) blobname hji hj
    · cases hj
    · exact hji rfl
    · cases hj

/-- A pointer set twice before it is read announces one capture twice and the other never. -/
theorem delivered_setTwice :
    ¬ (publishing (.ofTable [])).AllStates Delivered
      (init "d1" (.directory ["captures/a.jpg", "captures/b.jpg"]), ⟨[], []⟩) setTwice := by
  intro h
  have hperm : ["b.jpg", "b.jpg"].Perm ["a.jpg", "b.jpg"] := h.final rfl rfl (by
    show ∀ p ∈ [Phase.sleep, Phase.sleep], p.pending? = none
    decide)
  exact absurd hperm (by decide)

end System

end IsmDevice
