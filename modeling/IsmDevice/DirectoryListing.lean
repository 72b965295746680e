import IsmDevice.BlobName
import IsmDevice.System

/-!
# The directory of a `DirCamera`

`DirCamera::InitCamera` lists the directory once, when the device is made, and keeps
the paths of the entries with `.jpg` in their name.  The workers, which a command
starts at any time later, pick from that list without looking at its length.
-/

namespace IsmDevice

open Transition

/-- A name that `readdir` gives.  There is no `/` in it, and the program can put it
    behind the path of the directory. -/
structure DirEntry (directory : String) where
  d_name : String
  plain : '/' ∉ d_name.toList
  fits : CppString.Fits (directory ++ "/" ++ d_name).toList

variable {directory : String}

namespace DirEntry

def path (e : DirEntry directory) : String := directory ++ "/" ++ e.d_name

/-- `fn.find(".jpg") != std::string::npos`. -/
def accepted (e : DirEntry directory) : Bool :=
  CppString.find ".jpg".toList e.d_name.toList 0 != CppString.npos

def EndsInJpg (e : DirEntry directory) : Prop := ".jpg".toList <:+ e.d_name.toList

end DirEntry

/-- `InitCamera`, for the entries of the directory; none of them where `opendir`
    fails.  There `InitCamera` prints an error and calls `readdir` and `closedir`
    all the same, with a null pointer, which have no result. -/
def DirCamera.initCamera (listing : Option (List (DirEntry directory))) : Option (List String) :=
  listing.map fun entries => (entries.filter DirEntry.accepted).map DirEntry.path

/-- The file that is picked is one of the captures, and the blob that is uploaded is
    named after an entry of the directory that ends in `.jpg`. -/
structure System.Serves (entries : List (DirEntry directory)) (s : System) (a : Action) :
    Prop where
  pick : ∀ i rand c, a = .pickFile i rand → s.device.backend = .dirCamera c →
    c.captures.length ≠ 0 ∧ rand % c.captures.length < c.captures.length
  upload : ∀ i blob, a = .upload i true → s.uploading? i = some blob →
    ∃ e ∈ entries, e.EndsInJpg ∧ blob = e.d_name

/-- The device comes up with a directory of this listing, and serves it in every run. -/
def Served (lib : JsonLibrary) (listing : Option (List (DirEntry directory))) : Prop :=
  ∃ entries captures, listing = some entries ∧ DirCamera.initCamera listing = some captures ∧
    ∀ deviceId actions, (System.machine lib).AllSteps (System.Serves entries)
      (System.init deviceId (.directory captures)) actions

/-! ### The entries -/

namespace DirEntry

theorem accepted_iff (e : DirEntry directory) :
    e.accepted = true ↔ ".jpg".toList <:+: e.d_name.toList := by
  have hfits : CppString.Fits e.d_name.toList := by
    have hpath := e.fits
    rw [CppString.Fits, String.toList_append, List.length_append] at hpath
    exact Nat.lt_of_le_of_lt (Nat.le_add_left _ _) hpath
  rw [accepted, bne_iff_ne]
  exact CppString.find_ne_npos_iff hfits

/-- The blob is named after the entry. -/
theorem blobname_path (e : DirEntry directory) : DirCamera.blobname e.path = some e.d_name := by
  have hfits : CppString.Fits e.path.toList := e.fits
  have hbase : basename e.path = e.d_name.toList := by
    rw [basename, path, String.toList_append, String.toList_append, List.append_assoc]
    exact CppString.rtakeWhile_append_cons e.plain _
  rw [dirCamera_blobname hfits, hbase, String.ofList_toList]

theorem mem_captures {entries : List (DirEntry directory)} {filename : String} :
    filename ∈ (entries.filter accepted).map path ↔
      ∃ e ∈ entries, ".jpg".toList <:+: e.d_name.toList ∧ e.path = filename := by
  simp only [List.mem_map, List.mem_filter, accepted_iff, and_assoc]

end DirEntry

/-! ### Runs over a directory -/

namespace System

/-- The workers of a `DirCamera`: none waits for a frame, and the files they are at
    are of the list. -/
structure ServesFrom (captures : List String) (s : System) : Prop where
  backend : s.device.backend.captures? = some captures
  phases : .waitEvent ∉ s.workers
  files : ∀ filename, s.AtFile filename → filename ∈ captures

section Runs

variable {lib : JsonLibrary} {s t : System} {a : Action} {captures : List String}

theorem servesFrom_init (deviceId : String) (captures : List String) :
    ServesFrom captures (init deviceId (.directory captures)) where
  backend := rfl
  phases := List.not_mem_nil
  files := by
    rintro filename ⟨i, p, hi, -⟩
    simp [init] at hi

/-- No worker comes to wait for a frame. -/
theorem waitEvent_notMem_step (hs : ServesFrom captures s)
    (hstep : (machine lib).step s a = some t) : .waitEvent ∉ t.workers := by
  obtain ⟨c, hc, -⟩ := Backend.eq_dirCamera_of_captures? hs.backend
  have hset : ∀ i p', t.workers = s.workers.set i p' → p' ≠ .waitEvent →
      .waitEvent ∉ t.workers := by
    intro i p' ht hp' hmem
    rw [ht] at hmem
    rcases List.mem_or_eq_of_mem_set hmem with hold | heq
    · exact hs.phases hold
    · exact hp' heq.symm
  have hafter : s.device.backend.afterUpload ≠ .waitEvent := by
    rw [hc]
    simp [Backend.afterUpload]
  rcases step_cases hstep with ⟨m, io, rfl, rfl⟩ | ⟨i, p, hi, hmove⟩ | ⟨k, p, -, hmove⟩
  · intro hmem
    obtain ⟨j, hj⟩ := List.mem_iff_getElem?.mp hmem
    rcases worker_handled hj with hold | ⟨b, rfl, hb⟩
    · exact hs.phases (List.mem_of_getElem? hold)
    · have hcaptures := s.device.captures?_receiveMessageCallback lib io m
      rw [hs.backend] at hcaptures
      obtain ⟨c', hc', -⟩ := Backend.eq_dirCamera_of_captures? hcaptures
      rw [hc'] at hb
      simp [Backend.firstPhase] at hb
  · cases hmove with
    | frameEvent => exact absurd (List.mem_of_getElem? hi) hs.phases
    | saved => exact hset i _ rfl (by simp)
    | notSaved => exact List.not_mem_nil
    | running hbackend hrunning => exact hset i _ rfl (by simp)
    | stopped hbackend hrunning => exact hset i _ rfl (by simp)
    | picked hbackend hfile => exact hset i _ rfl (by simp)
    | noFiles hbackend hfile => exact List.not_mem_nil
    | uploaded hname => exact hset i _ rfl (by simp)
    | notUploaded hname => exact hset i _ rfl hafter
    | setNotification => exact hset i (.notify _) rfl (by simp)
    | notify => exact hset i _ rfl (by simp)
    | onNotification => exact hset i _ rfl hafter
    | wake => exact hset i _ rfl (by simp)
    | stayTest hbackend => exact hs.phases
    | stayPick hbackend => exact hs.phases
  · cases hmove <;> exact hs.phases

theorem servesFrom_step (hs : ServesFrom captures s) (hstep : (machine lib).step s a = some t) :
    ServesFrom captures t := by
  refine ⟨(captures?_step hstep).trans hs.backend, waitEvent_notMem_step hs hstep, ?_⟩
  intro filename ht
  rcases atFile_step hstep ht with (⟨i, time, -, hi, -⟩ | ⟨c, hc, hmem⟩) | hold
  · exact absurd (List.mem_of_getElem? hi) hs.phases
  · have hcaptures := hs.backend
    rw [hc] at hcaptures
    rw [← Option.some.inj hcaptures]
    exact hmem
  · exact hs.files filename hold

/-- What is picked and uploaded from a list of captures, each of which is an entry
    that ends in `.jpg`. -/
theorem serves_of_servesFrom {entries : List (DirEntry directory)} (hs : ServesFrom captures s)
    (hne : captures ≠ [])
    (hfiles : ∀ filename ∈ captures, ∃ e ∈ entries, e.EndsInJpg ∧ e.path = filename) :
    s.Serves entries a where
  pick := by
    intro i rand c _ hc
    have hcaptures := hs.backend
    rw [hc] at hcaptures
    obtain rfl := Option.some.inj hcaptures
    have hlength : 0 < c.captures.length := List.length_pos_iff.mpr hne
    exact ⟨Nat.ne_of_gt hlength, Nat.mod_lt rand hlength⟩
  upload := by
    intro i blob _ hblob
    unfold uploading? at hblob
    split at hblob
    case h_2 => exact absurd hblob (by simp)
    case h_1 filename hi =>
      obtain ⟨e, he, hjpg, rfl⟩ := hfiles filename (hs.files filename ⟨i, _, hi, rfl⟩)
      obtain ⟨c, hc, -⟩ := Backend.eq_dirCamera_of_captures? hs.backend
      rw [hc] at hblob
      have hname : some e.d_name = some blob := e.blobname_path.symm.trans hblob
      exact ⟨e, he, hjpg, (Option.some.inj hname).symm⟩

/-- A run that takes a started worker to its first pick. -/
def toFirstPick : List Action :=
  [.message (Message.named CommandType.START) ⟨true, true⟩, .testRunning 0]

/-- A worker of a `DirCamera`, about to pick its first file. -/
theorem exec_toFirstPick (lib : JsonLibrary) (deviceId : String) (captures : List String) :
    ∃ s c, (machine lib).exec (init deviceId (.directory captures)) toFirstPick = some s ∧
      s.running = true ∧ s.workers = [.pickFile] ∧ s.device.backend = .dirCamera c ∧
      c.captures = captures :=
  ⟨_, _, rfl, rfl, rfl, rfl, rfl⟩

theorem step_pickFile {rand : Nat} (hrunning : s.running = true)
    (hworkers : s.workers = [.pickFile]) :
    (machine lib).step s (.pickFile 0 rand) = some (s.pickFile 0 rand) := by
  simp only [machine, hrunning, if_true, stepRunning, Action.worker?, hworkers]
  rfl

theorem pickFile_eq {c : DirCamera} {rand : Nat} {file : String}
    (hc : s.device.backend = .dirCamera c)
    (hfile : c.captures[rand % c.captures.length]? = some file) :
    s.pickFile 0 rand = s.setWorker 0 (.upload file) := by
  unfold pickFile
  rw [hc]
  dsimp only
  rw [hfile]

theorem step_upload {filename : String} (hrunning : s.running = true)
    (hworkers : s.workers = [.upload filename]) :
    (machine lib).step s (.upload 0 true) = some (s.upload 0 filename true) := by
  simp only [machine, hrunning, if_true, stepRunning, Action.worker?, hworkers]
  rfl

end Runs

section Served

variable {lib : JsonLibrary} {deviceId : String} {entries : List (DirEntry directory)}
variable {captures : List String}

/-- Where every run is served, there is something to pick. -/
theorem captures_ne_nil_of_served (h : ∀ actions, (machine lib).AllSteps (Serves entries)
    (init deviceId (.directory captures)) actions) : captures ≠ [] := by
  obtain ⟨s, c, hexec, hrunning, hworkers, hc, rfl⟩ := exec_toFirstPick lib deviceId captures
  have hrun := (h (toFirstPick ++ [.pickFile 0 0])).after hexec
  have hserves := (hrun _ (step_pickFile hrunning hworkers)).1
  exact List.length_pos_iff.mp (Nat.pos_of_ne_zero (hserves.pick 0 0 c rfl hc).1)

/-- Where every run is served, each capture that can be uploaded ends in `.jpg`:
    some run picks it first. -/
theorem endsInJpg_of_served {e : DirEntry directory} (he : e.path ∈ captures)
    (h : ∀ actions, (machine lib).AllSteps (Serves entries)
      (init deviceId (.directory captures)) actions) : e.EndsInJpg := by
  obtain ⟨s, c, hexec, hrunning, hworkers, hc, rfl⟩ := exec_toFirstPick lib deviceId captures
  obtain ⟨k, hk⟩ := List.mem_iff_getElem?.mp he
  obtain ⟨hlt, -⟩ := List.getElem?_eq_some_iff.mp hk
  have hrun := (h (toFirstPick ++ [.pickFile 0 k, .upload 0 true])).after hexec
  have hpicked := (hrun _ (step_pickFile hrunning hworkers)).2
  have hfile : c.captures[k % c.captures.length]? = some e.path := by
    rw [Nat.mod_eq_of_lt hlt]
    exact hk
  rw [pickFile_eq hc hfile] at hpicked
  have hupload : (s.setWorker 0 (.upload e.path)).workers = [.upload e.path] := by
    rw [setWorker, hworkers]
    rfl
  have hserves := (hpicked _ (step_upload hrunning hupload)).1
  have hblob : (s.setWorker 0 (.upload e.path)).uploading? 0 = some e.d_name := by
    unfold uploading?
    rw [hupload]
    show s.device.backend.blobname e.path = some e.d_name
    rw [hc]
    exact e.blobname_path
  obtain ⟨e', -, hjpg, hname⟩ := hserves.upload 0 e.d_name rfl hblob
  rw [DirEntry.EndsInJpg, hname]
  exact hjpg

end Served

end System

/-- **When a directory is served**: it can be opened, it has an entry with `.jpg` in
    its name, and every such entry ends in `.jpg`. -/
theorem served_iff (lib : JsonLibrary) (listing : Option (List (DirEntry directory))) :
    Served lib listing ↔
      ∃ entries, listing = some entries ∧
        (∃ e ∈ entries, ".jpg".toList <:+: e.d_name.toList) ∧
        ∀ e ∈ entries, ".jpg".toList <:+: e.d_name.toList → e.EndsInJpg := by
  constructor
  · rintro ⟨entries, captures, rfl, hcaptures, hruns⟩
    obtain rfl := Option.some.inj hcaptures
    refine ⟨entries, rfl, ?_, ?_⟩
    · obtain ⟨filename, hmem⟩ := List.exists_mem_of_ne_nil _
        (System.captures_ne_nil_of_served (hruns ""))
      obtain ⟨e, he, hjpg, -⟩ := DirEntry.mem_captures.mp hmem
      exact ⟨e, he, hjpg⟩
    · intro e he hjpg
      have hmem := DirEntry.mem_captures.mpr ⟨e, he, hjpg, rfl⟩
      exact System.endsInJpg_of_served hmem (hruns "")
  · rintro ⟨entries, rfl, ⟨e, he, hjpg⟩, hends⟩
    refine ⟨entries, _, rfl, rfl, ?_⟩
    intro deviceId actions
    have hmem := DirEntry.mem_captures.mpr ⟨e, he, hjpg, rfl⟩
    have hfiles : ∀ filename ∈ (entries.filter DirEntry.accepted).map DirEntry.path,
        ∃ e ∈ entries, e.EndsInJpg ∧ e.path = filename := by
      intro filename hfilename
      obtain ⟨e, he, hjpg, hpath⟩ := DirEntry.mem_captures.mp hfilename
      exact ⟨e, he, hends e he hjpg, hpath⟩
    apply Machine.allSteps_of_invariant _ _ _ (System.servesFrom_init deviceId _)
    · intro s a t hs hstep
      exact System.servesFrom_step hs hstep
    · intro s a t hs _
      exact System.serves_of_servesFrom hs (List.ne_nil_of_mem hmem) hfiles

/-- An empty directory has the entries for itself and for its parent. -/
def emptyDirectory : List (DirEntry "captures") :=
  [⟨".", by decide, by decide⟩, ⟨"..", by decide, by decide⟩]

/-- There is no file to pick. -/
theorem not_served_emptyDirectory : ¬ Served (.ofTable []) (some emptyDirectory) := by
  rintro ⟨entries, captures, -, hcaptures, hruns⟩
  have hnone : captures = [] := by
    rw [← Option.some.inj hcaptures]
    decide
  exact System.captures_ne_nil_of_served (hruns "d1") hnone

end IsmDevice
