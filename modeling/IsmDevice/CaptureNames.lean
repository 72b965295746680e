import Mathlib.Data.List.Nodup
import IsmDevice.BlobName
import IsmDevice.SettingsUpdate
import IsmDevice.System

/-!
# The names of captures

`Camera::HandleCaptures` names a capture after the second in which its frame came.
The period of the frames is a setting in milliseconds, and several workers can wait
for frames, so nothing keeps two frames out of one second.  The second of them
replaces the file of the first.
-/

namespace IsmDevice

open Transition

/-- What the workers of a run have filmed. -/
structure Filmed where
  times : List Int -- the clock at each frame event
  names : List String -- the files they are saved to
  blobs : List String -- the blobs that are uploaded

def Filmed.nothing : Filmed := ⟨[], [], []⟩

namespace System

/-- The file that worker `i` is about to save. -/
def saving? (s : System) (i : Nat) : Option String :=
  match s.workers[i]? with
  | some (.imageFile filename) => some filename
  | _ => none

end System

def Filmed.update (s : System) (a : Action) (t : System) (h : Filmed) : Filmed :=
  match a with
  | .frameEvent i time =>
      { h with times := h.times ++ [time], names := h.names ++ (t.saving? i).toList }
  | .upload i true => { h with blobs := h.blobs ++ (s.uploading? i).toList }
  | _ => h

/-- `time(0)` is a `time_t`. -/
def Action.ClockFits (a : Action) : Prop :=
  ∀ i time, a = .frameEvent i time → ∃ clock : Int64, time = clock.toInt

namespace System

def filming (lib : JsonLibrary) : Machine (System × Filmed) Action :=
  (machine lib).record fun s a t h => h.update s a t

/-- No capture has the file or the blob of an earlier one. -/
def DistinctNames (s : System × Filmed) : Prop := s.2.names.Nodup ∧ s.2.blobs.Nodup

/-- No earlier frame came in the same second. -/
def FreshSecond (s : System × Filmed) (a : Action) : Prop :=
  ∀ i time, a = .frameEvent i time → time ∉ s.2.times

end System

/-! ### Decimal numbers -/

theorem repr_inj {m n : Nat} (h : (Nat.repr m).toList = (Nat.repr n).toList) : m = n := by
  rw [Nat.toList_repr, Nat.toList_repr] at h
  rw [← Nat.ofDigitChars_ten_toDigits (n := m), h, Nat.ofDigitChars_ten_toDigits]

theorem minus_notMem_repr (n : Nat) : '-' ∉ (Nat.repr n).toList := by
  rw [Nat.toList_repr]
  intro h
  exact absurd (Nat.isDigit_of_mem_toDigits (by decide) (by decide) h) (by decide)

theorem toList_toString_inj {m n : Int} (h : (toString m).toList = (toString n).toList) :
    m = n := by
  have hneg : ∀ k : Nat, (toString (Int.negSucc k)).toList = '-' :: (Nat.repr (k + 1)).toList := by
    intro k
    show ("-" ++ Nat.repr (k + 1)).toList = _
    rw [String.toList_append]
    rfl
  have hpos : ∀ k : Nat, (toString (Int.ofNat k)).toList = (Nat.repr k).toList := fun _ => rfl
  cases m with
  | ofNat m =>
    cases n with
    | ofNat n => exact congrArg Int.ofNat (repr_inj h)
    | negSucc n =>
      rw [hneg, hpos] at h
      exact absurd (h ▸ List.mem_cons_self) (minus_notMem_repr m)
  | negSucc m =>
    cases n with
    | ofNat n =>
      rw [hneg, hpos] at h
      exact absurd (h ▸ List.mem_cons_self) (minus_notMem_repr n)
    | negSucc n =>
      rw [hneg, hneg] at h
      have hsucc := repr_inj (List.cons.inj h).2
      rw [Nat.succ.inj hsucc]

theorem captureFilename_inj {time time' : Int}
    (h : Camera.captureFilename time = Camera.captureFilename time') : time = time' := by
  have hlist := congrArg String.toList h
  unfold Camera.captureFilename at hlist
  rw [String.toList_append, String.toList_append, String.toList_append, String.toList_append,
    List.append_left_inj, List.append_right_inj] at hlist
  exact toList_toString_inj hlist

/-! ### What a run films -/

namespace System

/-- A `Camera` names its files after the clock, and has uploaded nothing. -/
structure Films (s : System × Filmed) : Prop where
  camera : s.1.device.backend.captures? = none
  names : s.2.names = s.2.times.map Camera.captureFilename
  blobs : s.2.blobs = []
  files : ∀ filename, s.1.AtFile filename →
    ∃ clock : Int64, filename = Camera.captureFilename clock.toInt

section Films

variable {lib : JsonLibrary} {s t : System} {h : Filmed} {a : Action}

theorem saving?_frameEvent {i : Nat} {time : Int}
    (hstep : (machine lib).step s (.frameEvent i time) = some t) :
    t.saving? i = some (Camera.captureFilename time) := by
  rcases step_cases hstep with ⟨m, io, hmessage, -⟩ | ⟨j, p, hj, hmove⟩ | ⟨k, p, -, hmove⟩
  · exact absurd hmessage (by simp)
  · cases hmove
    obtain ⟨hlt, -⟩ := List.getElem?_eq_some_iff.mp hj
    have hi : (s.workers.set i (.imageFile (Camera.captureFilename time)))[i]? =
        some (.imageFile (Camera.captureFilename time)) := List.getElem?_set_self hlt
    rw [saving?, setWorker, hi]
  · cases hmove

/-- The upload of a `Camera` ends before there is a blob. -/
theorem uploading?_eq_none (hs : Films (s, h)) (i : Nat) : s.uploading? i = none := by
  unfold uploading?
  split
  case h_2 => rfl
  case h_1 filename hi =>
    obtain ⟨c, hc⟩ := Backend.eq_camera_of_captures? hs.camera
    obtain ⟨clock, rfl⟩ := hs.files filename ⟨i, _, hi, rfl⟩
    rw [hc]
    exact camera_blobname_of_notMem (fits_captureFilename clock) (notMem_captureFilename _)

theorem films_update (hs : Films (s, h)) (hstep : (machine lib).step s a = some t) :
    (h.update s a t).names = (h.update s a t).times.map Camera.captureFilename ∧
      (h.update s a t).blobs = [] := by
  unfold Filmed.update
  split
  case h_1 i time =>
    dsimp only
    rw [saving?_frameEvent hstep, hs.names, List.map_append]
    exact ⟨rfl, hs.blobs⟩
  case h_2 i =>
    dsimp only
    rw [uploading?_eq_none hs, hs.blobs]
    exact ⟨hs.names, rfl⟩
  case h_3 => exact ⟨hs.names, hs.blobs⟩

theorem films_step (hs : Films (s, h)) (ha : a.ClockFits)
    (hstep : (machine lib).step s a = some t) : Films (t, h.update s a t) := by
  obtain ⟨hnames, hblobs⟩ := films_update hs hstep
  refine ⟨(captures?_step hstep).trans hs.camera, hnames, hblobs, ?_⟩
  intro filename ht
  rcases atFile_step hstep ht with (⟨i, time, rfl, -, rfl⟩ | ⟨c, hc, -⟩) | hold
  · obtain ⟨clock, rfl⟩ := ha i time rfl
    exact ⟨clock, rfl⟩
  · have hcamera : s.device.backend.captures? = none := hs.camera
    rw [hc] at hcamera
    simp [Backend.captures?] at hcamera
  · exact hs.files filename hold

/-- A step keeps the names apart exactly if its frame, if it is one, is the first
    in its second. -/
theorem distinctNames_step_iff (hs : Films (s, h)) (hdistinct : DistinctNames (s, h))
    (hstep : (machine lib).step s a = some t) :
    DistinctNames (t, h.update s a t) ↔ FreshSecond (s, h) a := by
  obtain ⟨hnames, hblobs⟩ := films_update hs hstep
  have hnodup : (h.times.map Camera.captureFilename).Nodup := by
    rw [← hs.names]
    exact hdistinct.1
  rw [DistinctNames, hnames, hblobs]
  cases a with
  | frameEvent i time =>
    show ((h.times ++ [time]).map Camera.captureFilename).Nodup ∧ _ ↔ _
    have hmem : Camera.captureFilename time ∉ h.times.map Camera.captureFilename ↔
        time ∉ h.times := by
      apply not_congr
      rw [List.mem_map]
      constructor
      · rintro ⟨time', hmem, heq⟩
        rw [← captureFilename_inj heq]
        exact hmem
      · intro hmem
        exact ⟨time, hmem, rfl⟩
    rw [List.map_append, List.map_singleton, ← List.concat_eq_append, List.nodup_concat,
      and_iff_left hnodup, hmem, and_iff_left List.nodup_nil]
    constructor
    · rintro hfresh i' time' heq
      obtain ⟨-, rfl⟩ := Action.frameEvent.inj heq
      exact hfresh
    · intro hfresh
      exact hfresh i time rfl
  | upload i ok =>
    apply iff_of_true
    · cases ok <;> exact ⟨hnodup, List.nodup_nil⟩
    · rintro i' time ⟨⟩
  | _ =>
    apply iff_of_true
    · exact ⟨hnodup, List.nodup_nil⟩
    · rintro i' time ⟨⟩

end Films

/-- **When captures keep apart.**  In camera mode no capture of a run has the file
    or the blob of an earlier one, exactly if no two frames came in the same
    second. -/
theorem distinctNames_iff_freshSecond (lib : JsonLibrary) (deviceId : String) (gain : UInt32)
    (exposure : Float) (actions : List Action) (hclock : ∀ a ∈ actions, a.ClockFits) :
    (filming lib).AllStates DistinctNames
        (init deviceId (.camera gain exposure), .nothing) actions ↔
      (filming lib).AllSteps FreshSecond
        (init deviceId (.camera gain exposure), .nothing) actions := by
  apply Machine.allStates_iff_allSteps_of_actions _ (J := Films) (P := Action.ClockFits)
  · rintro ⟨s, h⟩ a ⟨t, h'⟩ hs ha hstep
    obtain ⟨hnext, hupdate⟩ := Machine.record_step hstep
    dsimp only at hnext hupdate
    rw [hupdate]
    exact films_step hs ha hnext
  · rintro ⟨s, h⟩ a ⟨t, h'⟩ hs _ hdistinct hstep
    obtain ⟨hnext, hupdate⟩ := Machine.record_step hstep
    dsimp only at hnext hupdate
    rw [hupdate]
    exact distinctNames_step_iff hs hdistinct hnext
  · exact ⟨List.nodup_nil, List.nodup_nil⟩
  · refine ⟨rfl, rfl, rfl, ?_⟩
    rintro filename ⟨i, p, hi, -⟩
    simp [init] at hi
  · exact hclock

end System

/-- Two frames of one worker, in seconds that follow each other. -/
def filmedTwice : List Action :=
  [.message (Message.named CommandType.START) ⟨true, true⟩, .frameEvent 0 1483228800,
   .imageFile 0 true, .upload 0 true, .frameEvent 0 1483228801]

/-- A capture period of 500 ms is accepted, and two frames come in one second. -/
def filmedInOneSecond : List Action :=
  [.message (Message.setDeviceSettings (sampleBody "500")) ⟨true, true⟩,
   .message (Message.named CommandType.START) ⟨true, true⟩, .frameEvent 0 1483228800,
   .imageFile 0 true, .upload 0 true, .frameEvent 0 1483228800]

namespace System

theorem distinctNames_filmedTwice :
    (filming (.ofTable [])).AllStates DistinctNames
        (init "d1" (.camera 30 200.0), .nothing) filmedTwice ↔
      (filming (.ofTable [])).AllSteps FreshSecond
        (init "d1" (.camera 30 200.0), .nothing) filmedTwice := by
  apply distinctNames_iff_freshSecond
  intro a ha i time heq
  subst heq
  simp only [filmedTwice, List.mem_cons, List.not_mem_nil, reduceCtorEq, false_or, or_false,
    Action.frameEvent.injEq] at ha
  rcases ha with ⟨-, rfl⟩ | ⟨-, rfl⟩
  · exact ⟨1483228800, by decide⟩
  · exact ⟨1483228801, by decide⟩

/-- The second frame has the name of the first. -/
theorem distinctNames_filmedInOneSecond :
    ¬ (filming (sampleLibrary "500" 500)).AllStates DistinctNames
      (init "d1" (.camera 30 200.0), .nothing) filmedInOneSecond := by
  intro h
  have hnames := (h.final rfl).1
  exact absurd hnames (by decide)

end System

end IsmDevice
