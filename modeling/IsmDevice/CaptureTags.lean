import IsmDevice.StateName
import IsmDevice.System

/-!
# The state a capture was taken in

A capture of a run and one of a preview differ, for the back end, in the
`StateName` of the message that announces them.  The message is built from the
settings long after the capture was taken: an upload, the notification and the
start of a thread lie in between, and commands are received all the while.

Nor does a message say by itself which capture it announces.  `OnNotification`
takes the name from whatever notification the publisher points to, and the thread
that it starts takes it from the settings.

The history kept beside the system remembers for each capture on its way the file
it is in, the state it was taken in, and the commands received since.
-/

namespace IsmDevice

open Transition

/-- A capture on its way to the back end. -/
structure Capture where
  file : String
  state : DeviceState -- in which it was taken
  since : List Command -- what was received from then on

/-- Where the commands since then have brought the device. -/
def Capture.current (c : Capture) : DeviceState := c.since.foldl DeviceState.next c.state

def Capture.receive (m : Message) (c : Capture) : Capture :=
  { c with since := c.since ++ m.command?.toList }

/-- The captures that the workers hold and that the senders announce. -/
structure Captures where
  taken : Nat → Option Capture
  announced : Nat → Option Capture

/-- The file that worker `i` has come to. -/
def System.file? (s : System) (i : Nat) : Option String := s.workers[i]?.bind Phase.filename?

/-- The worker whose notification the device reads when worker `i` notifies it; none
    where that worker has returned. -/
def System.owner? (s : System) (i : Nat) : Option Nat :=
  match s.workers[i]? with
  | some (.onNotification _ (some j)) =>
      match s.workers[j]? with
      | some (.notify _) => some j
      | some (.onNotification _ _) => some j
      | _ => none
  | _ => none

namespace Captures

def none : Captures := ⟨fun _ => .none, fun _ => .none⟩

def receive (m : Message) (h : Captures) : Captures where
  taken i := (h.taken i).map (Capture.receive m)
  announced k := (h.announced k).map (Capture.receive m)

def take (i : Nat) (file : Option String) (state : DeviceState) (h : Captures) : Captures :=
  { h with taken := Function.update h.taken i (file.map fun file => ⟨file, state, []⟩) }

def announce (owner : Option Nat) (k : Nat) (h : Captures) : Captures :=
  { h with announced := Function.update h.announced k (owner.bind h.taken) }

@[simp] theorem taken_take (i : Nat) (file : String) (state : DeviceState) (h : Captures) :
    (h.take i (some file) state).taken i = some ⟨file, state, []⟩ := Function.update_self _ _ _

theorem taken_take_ne {i j : Nat} (hji : j ≠ i) (file : Option String) (state : DeviceState)
    (h : Captures) : (h.take i file state).taken j = h.taken j := Function.update_of_ne hji _ _

@[simp] theorem announced_announce (owner : Option Nat) (k : Nat) (h : Captures) :
    (h.announce owner k).announced k = owner.bind h.taken := Function.update_self _ _ _

theorem announced_announce_ne {j k : Nat} (hjk : j ≠ k) (owner : Option Nat) (h : Captures) :
    (h.announce owner k).announced j = h.announced j := Function.update_of_ne hjk _ _

/-- A frame event or the pick of a file takes a capture, and the sender that
    `OnNotification` starts announces the one whose notification it has read. -/
def update (s : System) (a : Action) (t : System) (h : Captures) : Captures :=
  match a with
  | .message m _ => h.receive m
  | .frameEvent i _ => h.take i (t.file? i) s.device.state
  | .pickFile i _ => h.take i (t.file? i) s.device.state
  | .onNotification i _ => h.announce (s.owner? i) s.senders.length
  | _ => h

end Captures

namespace System

def tagging (lib : JsonLibrary) : Machine (System × Captures) Action :=
  (machine lib).record Captures.update

/-- Sender `k` goes on to build the message of a capture. -/
def Announces (s : System) (a : Action) (k : Nat) (undefined : Text → Text) : Prop :=
  a = .serialize k undefined ∧ s.senders[k]? = some (.serialize CommandType.CAPTURE_UPLOADED)

/-- What it builds is the text of settings that name the capture it announces, and carry the
    state that this capture was taken in. -/
def Tagged (lib : JsonLibrary) (s : System × Captures) (a : Action) : Prop :=
  ∀ k undefined, s.1.Announces a k undefined →
    ∃ c blobname, s.2.announced k = some c ∧ c.state ≠ .ready ∧
      s.1.device.backend.blobname c.file = some blobname ∧
      (sendD2C_DeviceSettings lib undefined s.1.device.settings
        CommandType.CAPTURE_UPLOADED).payload =
          (Json.ofPairs s.1.device.settings.members).dump lib ∧
      ("CurrentCaptureName", Json.string blobname) ∈ s.1.device.settings.members ∧
      ("StateName", Json.string c.state.getStateName) ∈ s.1.device.settings.members

/-- The capture was taken in a run or a preview, and the commands received since
    have brought the device back to that state, or have not moved it. -/
def Returned (s : System × Captures) (a : Action) : Prop :=
  ∀ k undefined, s.1.Announces a k undefined → ∀ c, s.2.announced k = some c →
    c.state ≠ .ready ∧ c.current = c.state

/-- What is asked of the steps beside it. -/
structure Undisturbed (lib : JsonLibrary) (s : System × Captures) (a : Action) : Prop where
  /-- No settings body that is taken names another state. -/
  stateName : ∀ e, s.1.event? a = some e → e.KeepsStateName lib s.1.device
  /-- The notification that the device reads is of a worker that has not returned. -/
  owner : ∀ i stale, a = .onNotification i stale → (s.1.owner? i).isSome
  /-- The settings name another capture only while no message of a capture is to be built. -/
  captureName : ∀ e, s.1.event? a = some e →
    (s.1.device.next lib e).device.settings.currentCaptureName =
        s.1.device.settings.currentCaptureName ∨
      .serialize CommandType.CAPTURE_UPLOADED ∉ s.1.senders
  /-- What is built arrives as it is. -/
  printable : ∀ k undefined, s.1.Announces a k undefined → s.1.device.settings.Printable lib

end System

/-- The worker holds a capture. -/
def Phase.hasCapture : Phase → Bool
  | .imageFile _ => true
  | .upload _ => true
  | .setNotification _ => true
  | .notify _ => true
  | .onNotification _ _ => true
  | _ => false

/-- And it is this one. -/
def Phase.Handles (b : Backend) (c : Capture) : Phase → Prop
  | .imageFile filename => filename = c.file
  | .upload filename => filename = c.file
  | .setNotification blobname => b.blobname c.file = some blobname
  | .notify blobname => b.blobname c.file = some blobname
  | .onNotification blobname _ => b.blobname c.file = some blobname
  | _ => False

theorem Backend.blobname_congr {b b' : Backend} (h : b'.captures? = b.captures?) :
    b'.blobname = b.blobname := by
  cases b with
  | camera c =>
    obtain ⟨c', rfl⟩ := Backend.eq_camera_of_captures? h
    rfl
  | dirCamera c =>
    obtain ⟨c', rfl, -⟩ := Backend.eq_dirCamera_of_captures? h
    rfl

theorem Phase.Handles.congr {b b' : Backend} {c c' : Capture} {p : Phase} (h : p.Handles b c)
    (hblobname : b'.blobname = b.blobname) (hfile : c'.file = c.file) : p.Handles b' c' := by
  have hsame : p.Handles b' c' ↔ p.Handles b c := by
    cases p <;> simp only [Phase.Handles, hblobname, hfile]
  exact hsame.mpr h

theorem Phase.handles_of_filename {p : Phase} {c : Capture} (b : Backend)
    (h : p.filename? = some c.file) : p.Handles b c := by
  cases p with
  | imageFile filename => exact Option.some.inj h
  | upload filename => exact Option.some.inj h
  | _ => cases h

namespace System

/-- The settings name the state of the device.  Each capture on its way is one whose
    commands have led there, and each that is announced is the one the settings name. -/
structure Follows (s : System × Captures) : Prop where
  agrees : s.1.device.StateNameAgrees
  taken : ∀ i p, s.1.workers[i]? = some p → p.hasCapture = true →
    ∃ c, s.2.taken i = some c ∧ c.current = s.1.device.state ∧ p.Handles s.1.device.backend c
  announced : ∀ k, s.1.senders[k]? = some (.serialize CommandType.CAPTURE_UPLOADED) →
    ∃ c, s.2.announced k = some c ∧ c.current = s.1.device.state ∧
      s.1.device.backend.blobname c.file = some s.1.device.settings.currentCaptureName

theorem follows_init (deviceId : String) (hardware : Hardware) :
    Follows (init deviceId hardware, Captures.none) := by
  constructor
  · exact Device.stateNameAgrees_init deviceId hardware
  · intro i p hi
    simp [init] at hi
  · intro k hk
    simp [init] at hk

theorem hasCapture_firstPhase (b : Backend) : b.firstPhase.hasCapture = false := by
  cases b <;> rfl

theorem hasCapture_afterUpload (b : Backend) : b.afterUpload.hasCapture = false := by
  cases b <;> rfl

theorem current_receive (m : Message) (c : Capture) :
    (c.receive m).current = m.command?.toList.foldl DeviceState.next c.current :=
  List.foldl_append

theorem current_taken (file : String) (state : DeviceState) :
    Capture.current ⟨file, state, []⟩ = state := rfl

/-! ### What a step does to the captures -/

section Steps

variable {s t : System} {h h' : Captures}

/-- A new thread holds no capture, and a message starts none that announces one. -/
theorem follows_message (lib : JsonLibrary) (m : Message) (io : DriverReply)
    (hs : Follows (s, h))
    (hagrees : (s.device.receiveMessageCallback lib io m).device.StateNameAgrees)
    (hname : (s.device.receiveMessageCallback lib io m).device.settings.currentCaptureName =
        s.device.settings.currentCaptureName ∨
      .serialize CommandType.CAPTURE_UPLOADED ∉ s.senders) :
    Follows (s.handled (s.device.receiveMessageCallback lib io m), h.receive m) := by
  have hstate := s.device.state_receiveMessageCallback lib io m
  have hblobname := Backend.blobname_congr (s.device.captures?_receiveMessageCallback lib io m)
  have hreceive : ∀ {c : Capture}, c.current = s.device.state →
      (c.receive m).current = (s.device.receiveMessageCallback lib io m).device.state := by
    intro c hc
    rw [current_receive, hc, hstate]
  constructor
  · rw [device_handled]
    exact hagrees
  · intro i p hi hp
    rw [device_handled]
    rcases worker_handled hi with hold | ⟨b, -, rfl⟩
    · obtain ⟨c, hc, hcurrent, hhandles⟩ := hs.taken i p hold hp
      exact ⟨c.receive m, congrArg (Option.map (Capture.receive m)) hc, hreceive hcurrent,
        hhandles.congr hblobname rfl⟩
    · rw [hasCapture_firstPhase] at hp
      exact Bool.noConfusion hp
  · intro k hk
    rw [device_handled]
    rw [handled_eq] at hk
    rcases Pool.spawn_cases hk with hold | ⟨j, -, hnew⟩
    · obtain ⟨c, hc, hcurrent, hnamed⟩ := hs.announced k hold
      refine ⟨c.receive m, congrArg (Option.map (Capture.receive m)) hc, hreceive hcurrent, ?_⟩
      rw [hname.resolve_right (not_not.mpr (List.mem_of_getElem? hold)), hblobname]
      exact hnamed
    · obtain ⟨e, hmem, he⟩ := List.mem_filterMap.mp (List.mem_of_getElem? hnew)
      cases e with
      | cameraStart => simp [Effect.sender?] at he
      | cameraStop => simp [Effect.sender?] at he
      | sendDeviceSettings cmdType =>
        have hdashboard := s.device.sends_receiveMessageCallback lib io m hmem
        obtain rfl := Sender.serialize.inj (Option.some.inj he)
        exact absurd hdashboard (by decide)

/-- Only worker `i` and what it holds are different. -/
theorem follows_worker {i : Nat} (hs : Follows (s, h)) (hdevice : t.device = s.device)
    (hsenders : t.senders = s.senders) (hannounced : h'.announced = h.announced)
    (hothers : ∀ j, j ≠ i → t.workers[j]? = s.workers[j]? ∧ h'.taken j = h.taken j)
    (hi : ∀ p, t.workers[i]? = some p → p.hasCapture = true →
      ∃ c, h'.taken i = some c ∧ c.current = s.device.state ∧ p.Handles s.device.backend c) :
    Follows (t, h') := by
  constructor
  · dsimp only
    rw [hdevice]
    exact hs.agrees
  · intro j p hj hp
    dsimp only at hj ⊢
    rw [hdevice]
    by_cases hji : j = i
    · rw [hji] at hj ⊢
      exact hi p hj hp
    · obtain ⟨hworker, htaken⟩ := hothers j hji
      rw [htaken]
      exact hs.taken j p (hworker ▸ hj) hp
  · intro k hk
    dsimp only at hk ⊢
    rw [hsenders] at hk
    rw [hdevice, hannounced]
    exact hs.announced k hk

/-- A worker that goes on holds what it held. -/
theorem follows_setWorker {i : Nat} {p : Phase} (p' : Phase) (hs : Follows (s, h))
    (hi : s.workers[i]? = some p) (hp' : p'.hasCapture = true → p.hasCapture = true ∧
      ∀ c, p.Handles s.device.backend c → p'.Handles s.device.backend c) :
    Follows (s.setWorker i p', h) := by
  apply follows_worker (i := i) hs
  · rfl
  · rfl
  · rfl
  · intro j hji
    exact ⟨getElem?_setWorker_ne p' hji, rfl⟩
  · intro q hq hcapture
    rw [phase_setWorker hq] at hcapture ⊢
    obtain ⟨hp, hhandles⟩ := hp' hcapture
    obtain ⟨c, hc, hcurrent, hholds⟩ := hs.taken i p hi hp
    exact ⟨c, hc, hcurrent, hhandles c hholds⟩

theorem file?_setWorker {i : Nat} {p : Phase} (p' : Phase) (hi : s.workers[i]? = some p) :
    (s.setWorker i p').file? i = p'.filename? := by
  obtain ⟨hlt, -⟩ := List.getElem?_eq_some_iff.mp hi
  rw [file?, setWorker, List.getElem?_set_self hlt, Option.bind_some]

/-- A worker comes to a file, and so takes a capture. -/
theorem follows_take {i : Nat} {p p' : Phase} {file : String} (hs : Follows (s, h))
    (hi : s.workers[i]? = some p) (hfile : p'.filename? = some file) :
    Follows (s.setWorker i p', h.take i ((s.setWorker i p').file? i) s.device.state) := by
  rw [file?_setWorker p' hi, hfile]
  apply follows_worker (i := i) hs
  · rfl
  · rfl
  · rfl
  · intro j hji
    exact ⟨getElem?_setWorker_ne p' hji, Captures.taken_take_ne hji _ _ h⟩
  · intro q hq _
    rw [phase_setWorker hq]
    exact ⟨⟨file, s.device.state, []⟩, Captures.taken_take i _ _ h, current_taken _ _,
      Phase.handles_of_filename _ hfile⟩

theorem follows_exit (hs : Follows (s, h)) (h' : Captures) : Follows (s.exit, h') := by
  constructor
  · exact hs.agrees
  · intro i p hi
    simp [exit] at hi
  · intro k hk
    simp [exit] at hk

/-- The pick of a file by a worker of a `Camera`, which there is not. -/
theorem follows_stayPick {i : Nat} (file : Option String) (hs : Follows (s, h))
    (hi : s.workers[i]? = some .pickFile) : Follows (s, h.take i file s.device.state) := by
  apply follows_worker (i := i) hs
  · rfl
  · rfl
  · rfl
  · intro j hji
    exact ⟨rfl, Captures.taken_take_ne hji _ _ h⟩
  · intro q hq hcapture
    rw [hi] at hq
    injection hq with hq
    rw [← hq] at hcapture
    exact Bool.noConfusion hcapture

/-- What the device reads is the name of the capture that the owner of the notification holds. -/
theorem notified_of_owner {i j : Nat} {blobname : String} {notification : Option Nat}
    (stale : String) (hi : s.workers[i]? = some (.onNotification blobname notification))
    (hj : s.owner? i = some j) :
    ∃ p, s.workers[j]? = some p ∧ p.hasCapture = true ∧ ∀ c, p.Handles s.device.backend c →
      s.device.backend.blobname c.file = some (s.notified notification stale) := by
  cases notification with
  | none => simp [owner?, hi] at hj
  | some k =>
    simp only [owner?, hi] at hj
    split at hj
    · next name hk =>
      obtain rfl := Option.some.inj hj
      have hname : s.notified (some k) stale = name := by simp only [notified, Option.bind_some, hk]
      rw [hname]
      exact ⟨_, hk, rfl, fun _ hc => hc⟩
    · next name pointer hk =>
      obtain rfl := Option.some.inj hj
      have hname : s.notified (some k) stale = name := by simp only [notified, Option.bind_some, hk]
      rw [hname]
      exact ⟨_, hk, rfl, fun _ hc => hc⟩
    · cases hj

/-- The sender that is started announces the capture whose notification is read. -/
theorem follows_onNotification {i : Nat} {blobname : String} {notification : Option Nat}
    (stale : String) (hs : Follows (s, h))
    (hi : s.workers[i]? = some (.onNotification blobname notification))
    (howner : (s.owner? i).isSome)
    (hname : s.notified notification stale = s.device.settings.currentCaptureName ∨
      .serialize CommandType.CAPTURE_UPLOADED ∉ s.senders) :
    Follows (s.onNotification i notification stale,
      h.announce (s.owner? i) s.senders.length) := by
  rw [onNotification_eq]
  constructor
  · exact hs.agrees
  · intro j p hj hp
    dsimp only at hj ⊢
    rcases Pool.set_cases hj with ⟨-, rfl⟩ | ⟨-, hold⟩
    · rw [hasCapture_afterUpload] at hp
      exact Bool.noConfusion hp
    · exact hs.taken j p hold hp
  · intro k hk
    dsimp only at hk ⊢
    by_cases hlast : k = s.senders.length
    · obtain ⟨j, hj⟩ := Option.isSome_iff_exists.mp howner
      obtain ⟨p, hworker, hp, hread⟩ := notified_of_owner stale hi hj
      obtain ⟨c, hc, hcurrent, hhandles⟩ := hs.taken j p hworker hp
      rw [hlast, Captures.announced_announce, hj]
      exact ⟨c, hc, hcurrent, hread c hhandles⟩
    · rw [Captures.announced_announce_ne hlast]
      by_cases hlt : k < s.senders.length
      · rw [List.getElem?_append_left hlt] at hk
        obtain ⟨c, hc, hcurrent, hnamed⟩ := hs.announced k hk
        refine ⟨c, hc, hcurrent, ?_⟩
        have hsame := hname.resolve_right (not_not.mpr (List.mem_of_getElem? hk))
        exact hnamed.trans (congrArg some hsame.symm)
      · rw [List.getElem?_eq_none (by rw [List.length_append, List.length_singleton]; omega)] at hk
        simp at hk

theorem follows_workerMove {lib : JsonLibrary} {i : Nat} {p : Phase} {a : Action}
    (hs : Follows (s, h)) (ha : Undisturbed lib (s, h) a) (hi : s.workers[i]? = some p)
    (hmove : s.WorkerMove i p a t) : Follows (t, h.update s a t) := by
  have hnone : ∀ p' : Phase, p'.hasCapture = false → Follows (s.setWorker i p', h) := by
    intro p' hp'
    apply follows_setWorker p' hs hi
    intro hcapture
    exact absurd (hcapture.symm.trans hp') (by decide)
  cases hmove with
  | frameEvent => exact follows_take hs hi rfl
  | saved => exact follows_setWorker _ hs hi (fun _ => ⟨rfl, fun _ hc => hc⟩)
  | notSaved => exact follows_exit hs _
  | running hbackend hrunning => exact hnone _ rfl
  | stopped hbackend hrunning => exact hnone _ rfl
  | picked hbackend hfile => exact follows_take hs hi rfl
  | noFiles hbackend hfile => exact follows_exit hs _
  | uploaded hname =>
    apply follows_setWorker _ hs hi
    intro _
    refine ⟨rfl, ?_⟩
    rintro c rfl
    exact hname
  | notUploaded hname => exact hnone _ (hasCapture_afterUpload _)
  | @setNotification blobname =>
    obtain ⟨hagrees, htaken, hannounced⟩ :=
      follows_setWorker (.notify blobname) hs hi (fun _ => ⟨rfl, fun _ hc => hc⟩)
    exact ⟨hagrees, htaken, hannounced⟩
  | notify => exact follows_setWorker _ hs hi (fun _ => ⟨rfl, fun _ hc => hc⟩)
  | @onNotification blobname stale notification =>
    exact follows_onNotification stale hs hi (ha.owner i stale rfl)
      (ha.captureName _ (event?_onNotification stale hi))
  | wake => exact hnone _ rfl
  | stayTest hbackend => exact hs
  | stayPick hbackend => exact follows_stayPick _ hs hi

theorem follows_senderMove {lib : JsonLibrary} {k : Nat} {p : Sender} {a : Action}
    (hs : Follows (s, h)) (hmove : s.SenderMove lib k p a t) : Follows (t, h.update s a t) := by
  have hothers : ∀ p', (∀ cmdType, p' ≠ .serialize cmdType) → Follows (s.setSender k p', h) := by
    intro p' hp'
    constructor
    · exact hs.agrees
    · exact hs.taken
    · intro j hj
      by_cases hjk : j = k
      · obtain ⟨hlt, hget⟩ := List.getElem?_eq_some_iff.mp hj
        subst hjk
        exact absurd ((List.getElem_set_self hlt).symm.trans hget) (hp' _)
      · exact hs.announced j ((List.getElem?_set_ne (Ne.symm hjk)).symm.trans hj)
  cases hmove with
  | serialize =>
    apply hothers
    simp
  | sendEventAsync =>
    obtain ⟨hagrees, htaken, hannounced⟩ := hothers .finished (by simp)
    exact ⟨hagrees, htaken, hannounced⟩

end Steps

theorem follows_step {lib : JsonLibrary} {s t : System × Captures} {a : Action} (hs : Follows s)
    (ha : Undisturbed lib s a) (hstep : (tagging lib).step s a = some t) : Follows t := by
  obtain ⟨s, h⟩ := s
  obtain ⟨t, h'⟩ := t
  obtain ⟨hnext, hupdate⟩ := Machine.record_step hstep
  dsimp only at hnext hupdate
  rw [hupdate]
  rcases step_cases hnext with ⟨m, io, rfl, rfl⟩ | ⟨i, p, hi, hmove⟩ | ⟨k, p, -, hmove⟩
  · apply follows_message lib m io hs
    · exact (Device.stateNameAgrees_next lib hs.agrees (.message m io)).mpr (ha.stateName _ rfl)
    · exact ha.captureName _ rfl
  · exact follows_workerMove hs ha hi hmove
  · exact follows_senderMove hs hmove

theorem getStateName_inj {s t : DeviceState} (h : s.getStateName = t.getStateName) : s = t := by
  revert h
  cases s <;> cases t <;> decide

theorem stateName_mem_members (settings : DeviceSettings) (name : String) :
    ("StateName", Json.string name) ∈ settings.members ↔ settings.stateName = name := by
  simp [DeviceSettings.members, eq_comm]

theorem captureName_mem_members (settings : DeviceSettings) :
    ("CurrentCaptureName", Json.string settings.currentCaptureName) ∈ settings.members := by
  simp [DeviceSettings.members]

/-- The message built from the settings carries the state the device is in. -/
theorem tagged_iff {lib : JsonLibrary} {s : System × Captures} {a : Action} (hs : Follows s)
    (ha : Undisturbed lib s a) : Tagged lib s a ↔ Returned s a := by
  have hagrees := hs.agrees
  constructor
  · intro htagged k undefined hk c hc
    obtain ⟨c', -, hc', hstate, -, -, -, hname⟩ := htagged k undefined hk
    obtain ⟨d, hd, hcurrent, -⟩ := hs.announced k hk.2
    obtain rfl := Option.some.inj (hc.symm.trans hc')
    obtain rfl := Option.some.inj (hc.symm.trans hd)
    rw [stateName_mem_members, hagrees] at hname
    exact ⟨hstate, hcurrent.trans (getStateName_inj hname)⟩
  · intro hreturned k undefined hk
    obtain ⟨c, hc, hcurrent, hnamed⟩ := hs.announced k hk.2
    obtain ⟨hstate, hback⟩ := hreturned k undefined hk c hc
    refine ⟨c, _, hc, hstate, hnamed, ?_, captureName_mem_members _, ?_⟩
    · exact payload_of_printable lib (ha.printable k undefined hk) undefined _
    · rw [stateName_mem_members, hagrees, ← hcurrent, hback]

/-- **When captures are tagged with the state they were taken in.**  Along every run
    whose steps are undisturbed, each message about a capture names the one it announces
    and carries the state that one was taken in, a run or a preview, exactly if it was
    taken in one and the device is back in that state when the message is built. -/
theorem tagged_iff_returned (lib : JsonLibrary) (deviceId : String) (hardware : Hardware)
    (actions : List Action) :
    (tagging lib).AllSteps (fun s a => Undisturbed lib s a ∧ Tagged lib s a)
        (init deviceId hardware, Captures.none) actions ↔
      (tagging lib).AllSteps (fun s a => Undisturbed lib s a ∧ Returned s a)
        (init deviceId hardware, Captures.none) actions := by
  apply Machine.allSteps_congr_of_guard _ (I := Follows)
  · intro s a t hs ha hstep
    exact follows_step hs ha hstep
  · intro s a t hs ha _
    exact tagged_iff hs ha
  · exact follows_init deviceId hardware

end System

/-- A run that is stopped while its capture is uploaded. -/
def stoppedInUpload : List Action :=
  [.message (Message.named CommandType.START) ⟨true, true⟩,
   .testRunning 0, .pickFile 0 0,
   .message (Message.named CommandType.STOP) ⟨true, true⟩,
   .upload 0 true, .setNotification 0, .notify 0, .onNotification 0 "", .serialize 0 id]

namespace System

/-- Its capture is announced as one of a device that is ready. -/
theorem tagged_ready :
    ¬ (tagging (.ofTable [])).AllSteps (Tagged (.ofTable []))
      (init "d1" (.directory ["captures/a.jpg"]), Captures.none) stoppedInUpload := by
  intro h
  have hmessage := (h _ rfl).2 _ rfl |>.2 _ rfl |>.2 _ rfl |>.2 _ rfl |>.2 _ rfl |>.2 _ rfl
    |>.2 _ rfl |>.2 _ rfl |>.1
  obtain ⟨c, -, hc, hstate, -, -, -, hname⟩ := hmessage 0 id ⟨rfl, rfl⟩
  rw [stateName_mem_members] at hname
  exact hstate (getStateName_inj (hname.symm.trans rfl))

end System

end IsmDevice
