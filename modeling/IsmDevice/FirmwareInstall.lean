import IsmDevice.Firmware
import IsmDevice.Lib.Pool

/-!
# Concurrent updates

Nothing keeps two update threads apart.  A thread that downloads replaces the
archive that another one has just verified; a thread that extracts replaces the
image for which another one is about to write the version.  This module states
the exclusion that the program would need, step by step, and shows that it is
enough: along every run whose steps respect it, only verified archives are
extracted, and `apply.sh` is launched under the right version.
-/

namespace IsmDevice

open Transition

def Stage.installing : Stage → Bool
  | .openVersion => true
  | .writeVersion => true
  | .launch => true
  | _ => false

/-! ### What is installed at `.fwtmp` -/

def Node.image? : Node → Option Archive
  | .directory d => d.image
  | _ => none

def Node.swVersion? : Node → Option String
  | .directory d => d.swVersion
  | _ => none

@[simp] theorem Node.image?_mkdir (node : Node) : node.mkdir.image? = node.image? := by
  cases node <;> rfl

@[simp] theorem Node.swVersion?_mkdir (node : Node) : node.mkdir.swVersion? = node.swVersion? := by
  cases node <;> rfl

@[simp] theorem Node.image?_modify_error (f : FwTmp → Option String) (node : Node) :
    (node.modify fun d => { d with error := f d }).image? = node.image? := by
  cases node <;> rfl

@[simp] theorem Node.swVersion?_modify_error (f : FwTmp → Option String) (node : Node) :
    (node.modify fun d => { d with error := f d }).swVersion? = node.swVersion? := by
  cases node <;> rfl

@[simp] theorem Node.image?_modify_version (f : FwTmp → Option String) (node : Node) :
    (node.modify fun d => { d with swVersion := f d }).image? = node.image? := by
  cases node <;> rfl

theorem Node.swVersion?_opened {node : Node} {archive : Archive} (h : node.image? = some archive) :
    (node.modify fun d => { d with swVersion := some "" }).swVersion? = some "" := by
  cases node with
  | directory d => rfl
  | absent => exact absurd h (by simp [Node.image?])
  | file => exact absurd h (by simp [Node.image?])

theorem Node.swVersion?_written (version : String) (node : Node) :
    (node.modify fun d => { d with swVersion := d.swVersion.map fun _ => version }).swVersion? =
      node.swVersion?.map fun _ => version := by
  cases node <;> rfl

theorem Node.removed_eq_or (ok : Bool) (node : Node) :
    node.removed ok = node ∨ (node.removed ok).image? = none := by
  cases node with
  | absent => exact Or.inl rfl
  | file => exact Or.inl rfl
  | directory d =>
    cases ok with
    | false => exact Or.inl rfl
    | true => exact Or.inr rfl

/-- A successful extraction leaves the archive that it has read, or no image. -/
theorem Answers.image?_extracted {answers : Answers} (h : answers.extractOk = true)
    {archive : Option Archive} {image : Archive}
    (himage : (answers.extracted archive).image? = some image) : archive = some image := by
  rw [Answers.extracted, if_pos h] at himage
  cases hleft : answers.left with
  | directory d => rw [hleft] at himage; exact himage
  | absent => rw [hleft] at himage; exact absurd himage (by simp [Node.modify, Node.image?])
  | file => rw [hleft] at himage; exact absurd himage (by simp [Node.modify, Node.image?])

namespace UpdateSystem

/-! ### Property and condition -/

/-- A thread that extracts finds the content that its verification accepted, and
    a thread that launches `apply.sh` finds the version of the image. -/
def InstallsVerified (s : UpdateSystem) : UpdateAction → Prop
  | .step i _ => ∀ th, s.threads[i]? = some th →
      (th.stage = .extract → ∃ archive accepted, s.files.archive = some archive ∧
        th.accepted = some accepted ∧ archive.content = accepted.content) ∧
      (th.stage = .launch → ∀ image, s.files.fwtmp.image? = some image →
        s.files.fwtmp.swVersion? = some image.request.version)
  | _ => True

/-- The exclusion that the steps need: no download while another thread has
    verified and not yet extracted; no successful verification of an archive that
    belongs to another version; no extraction while another thread is installing. -/
def Excludes (s : UpdateSystem) : UpdateAction → Prop
  | .step i answers => ∀ th, s.threads[i]? = some th →
      (th.stage = .download → ∀ j other, j ≠ i → s.threads[j]? = some other →
        other.stage ≠ .extract) ∧
      (th.stage = .verify → answers.verifyOk = true → ∃ archive, s.files.archive = some archive ∧
        archive.request.version = th.request.version) ∧
      (th.stage = .extract → ∀ j other, j ≠ i → s.threads[j]? = some other →
        other.stage.installing = false)
  | _ => True

/-- What is true of a thread and the shared files, by the stage of the thread. -/
structure ThreadOk (files : Files) (th : UpdateThread) : Prop where
  verified : th.stage = .extract → files.archive = th.accepted ∧
    ∃ archive, th.accepted = some archive ∧ archive.request.version = th.request.version
  image : th.stage.installing = true → ∀ image, files.fwtmp.image? = some image →
    image.request.version = th.request.version
  opened : th.stage = .writeVersion → ∀ image, files.fwtmp.image? = some image →
    files.fwtmp.swVersion? ≠ none
  written : th.stage = .launch → ∀ image, files.fwtmp.image? = some image →
    files.fwtmp.swVersion? = some th.request.version

/-- The invariant: every thread is right about the files, and at most one is installing. -/
structure Inv (s : UpdateSystem) : Prop where
  threads : ∀ (i : Nat) th, s.threads[i]? = some th → ThreadOk s.files th
  alone : ∀ (i j : Nat) th other, s.threads[i]? = some th → s.threads[j]? = some other →
    th.stage.installing = true → other.stage.installing = true → i = j

/-! ### The steps -/

/-- **What a step does**: it starts a thread, ends the process or starts it again
    without threads, removes `.fwtmp`, or takes one thread to its next stage. -/
theorem step_cases {s t : UpdateSystem} {a : UpdateAction} (h : machine.step s a = some t) :
    (∃ request, a = .firmwareUpdate request ∧ t.files = s.files ∧
        t.threads = s.threads ++ [⟨request, .download, none⟩]) ∨
    t.threads = [] ∨
    (∃ removed, t.files = { s.files with fwtmp := s.files.fwtmp.removed removed } ∧
        t.threads = s.threads) ∨
    (∃ i answers th stage files, a = .step i answers ∧ s.threads[i]? = some th ∧
      handleFirmwareUpdate th.request answers th.stage s.files = some (stage, files) ∧
      t.files = files ∧
      t.threads = s.threads.set i
        { th with
          stage := stage
          accepted := if stage = .extract then files.archive else th.accepted }) := by
  cases a with
  | firmwareUpdate request =>
    simp only [machine] at h
    split at h
    · injection h with heq
      subst heq
      exact Or.inl ⟨request, rfl, rfl, rfl⟩
    · exact absurd h (by simp)
  | crash =>
    simp only [machine] at h
    split at h
    · injection h with heq
      subst heq
      exact Or.inr (Or.inl rfl)
    · exact absurd h (by simp)
  | restart =>
    simp only [machine] at h
    split at h
    · exact absurd h (by simp)
    · injection h with heq
      subst heq
      exact Or.inr (Or.inl rfl)
  | startupCheck removed =>
    simp only [machine] at h
    split at h
    · injection h with heq
      subst heq
      exact Or.inr (Or.inr (Or.inl ⟨removed, rfl, rfl⟩))
    · exact absurd h (by simp)
  | step i answers =>
    obtain ⟨th, hi, hstep⟩ := Option.bind_eq_some_iff.mp h
    obtain ⟨⟨stage, files⟩, hhandle, rfl⟩ := Option.map_eq_some_iff.mp hstep
    have hthread : ∀ stage, (∀ k, stage ≠ .exited k) → stage ≠ .terminated →
        s.advance i th stage files =
          { s with
            files := files
            threads := s.threads.set i
              { th with
                stage := stage
                accepted := if stage = .extract then files.archive else th.accepted } } := by
      intro stage hexited hterminated
      unfold advance
      split
      · exact absurd rfl (hexited _)
      · exact absurd rfl hterminated
      · rfl
    by_cases hend : (∃ k, stage = .exited k) ∨ stage = .terminated
    · refine Or.inr (Or.inl ?_)
      rcases hend with ⟨k, rfl⟩ | rfl <;> rfl
    · obtain ⟨hexited, hterminated⟩ := not_or.mp hend
      refine Or.inr (Or.inr (Or.inr ⟨i, answers, th, stage, files, rfl, hi, hhandle, ?_⟩))
      dsimp only
      rw [hthread stage ?_ hterminated]
      · exact ⟨rfl, rfl⟩
      · intro k hk
        exact hexited ⟨k, hk⟩

theorem threadOk_of_idle {files : Files} {th : UpdateThread} (hextract : th.stage ≠ .extract)
    (hinstalling : th.stage.installing = false) : ThreadOk files th where
  verified h := absurd h hextract
  image h := absurd (hinstalling.symm.trans h) Bool.false_ne_true
  opened h := absurd (hinstalling.symm.trans (by rw [h]; rfl)) Bool.false_ne_true
  written h := absurd (hinstalling.symm.trans (by rw [h]; rfl)) Bool.false_ne_true

/-- **The steps of one thread**: the stage it is in and what comes of it.  All that
    is said about a step below is read off from these cases. -/
inductive HandlerStep (request : UpdateRequest) (answers : Answers) (files : Files) :
    Stage → Stage → Files → Prop where
  | downloads {content : Text} (h : answers.download = some content) :
      HandlerStep request answers files .download .verify
        { files with archive := some ⟨content, request⟩ }
  | verifies (h : answers.verifyOk = true) :
      HandlerStep request answers files .verify .extract files
  | extracts (h : answers.extractOk = true) :
      HandlerStep request answers files .extract .openVersion
        { files with fwtmp := answers.extracted files.archive }
  | opens : HandlerStep request answers files .openVersion .writeVersion
      { files with fwtmp := files.fwtmp.modify fun d => { d with swVersion := some "" } }
  | writes : HandlerStep request answers files .writeVersion .launch
      { files with
        fwtmp := files.fwtmp.modify fun d =>
          { d with swVersion := d.swVersion.map fun _ => request.version } }
  | fails {error : String} (h : answers.extractOk = false) :
      HandlerStep request answers files .extract (.openError error)
        { files with fwtmp := answers.extracted files.archive }
  /-- Every other step ends the process or is on the way to it, and leaves the
      archive, the image and its version alone. -/
  | other {st stage : Stage} {fwtmp : Node} (hst : st ≠ .extract) (hinst : stage.installing = false)
      (hstage : stage ≠ .extract) (himage : fwtmp.image? = files.fwtmp.image?)
      (hversion : fwtmp.swVersion? = files.fwtmp.swVersion?) :
      HandlerStep request answers files st stage { files with fwtmp := fwtmp }

theorem handlerStep_of_handle {request : UpdateRequest} {answers : Answers} {st stage : Stage}
    {files files' : Files}
    (h : handleFirmwareUpdate request answers st files = some (stage, files')) :
    HandlerStep request answers files st stage files' := by
  cases st with
  | download =>
    cases hdownload : answers.download with
    | none =>
      simp only [handleFirmwareUpdate, hdownload] at h
      cases h
      exact .other (by simp) rfl (by simp) rfl rfl
    | some content =>
      simp only [handleFirmwareUpdate, hdownload] at h
      cases h
      exact .downloads hdownload
  | verify =>
    cases hverify : answers.verifyOk with
    | false =>
      simp only [handleFirmwareUpdate, hverify] at h
      cases h
      exact .other (by simp) rfl (by simp) rfl rfl
    | true =>
      simp only [handleFirmwareUpdate, hverify] at h
      cases h
      exact .verifies hverify
  | extract =>
    cases hextract : answers.extractOk with
    | false =>
      simp only [handleFirmwareUpdate, hextract] at h
      cases h
      exact .fails hextract
    | true =>
      simp only [handleFirmwareUpdate, hextract] at h
      cases h
      exact .extracts hextract
  | mkdir => cases h; exact .other (by simp) rfl (by simp) (by simp) (by simp)
  | openError error => cases h; exact .other (by simp) rfl (by simp) (by simp) (by simp)
  | writeError error => cases h; exact .other (by simp) rfl (by simp) (by simp) (by simp)
  | openVersion => cases h; exact .opens
  | writeVersion => cases h; exact .writes
  | launch => cases h; exact .other (by simp) rfl (by simp) rfl rfl
  | exited status => cases h
  | terminated => cases h

section Steps

variable {request : UpdateRequest} {answers : Answers} {st stage : Stage} {files files' : Files}

/-- Only a download changes the archive; only extraction and the version file
    change what is installed. -/
theorem HandlerStep.frame (h : HandlerStep request answers files st stage files') :
    (st ≠ .download → files'.archive = files.archive) ∧
      (st ≠ .extract → st.installing = false →
        files'.fwtmp.image? = files.fwtmp.image? ∧
          files'.fwtmp.swVersion? = files.fwtmp.swVersion?) := by
  constructor
  · intro hdownload
    cases h with
    | downloads h => exact absurd rfl hdownload
    | _ => rfl
  · intro hextract hidle
    cases h with
    | downloads h => exact ⟨rfl, rfl⟩
    | verifies h => exact ⟨rfl, rfl⟩
    | extracts h => exact absurd rfl hextract
    | fails h => exact absurd rfl hextract
    | opens => exact Bool.noConfusion hidle
    | writes => exact Bool.noConfusion hidle
    | other hst hinst hstage himage hversion => exact ⟨himage, hversion⟩

theorem HandlerStep.installing (h : HandlerStep request answers files st stage files')
    (hinstalling : stage.installing = true) : st = .extract ∨ st.installing = true := by
  cases h with
  | extracts h => exact Or.inl rfl
  | opens => exact Or.inr rfl
  | writes => exact Or.inr rfl
  | downloads h => exact Bool.noConfusion hinstalling
  | verifies h => exact Bool.noConfusion hinstalling
  | fails h => exact Bool.noConfusion hinstalling
  | other hst hinst hstage himage hversion =>
    rw [hinst] at hinstalling
    exact Bool.noConfusion hinstalling

/-- What the thread that goes on is right about in its next stage. -/
theorem ThreadOk.step {accepted : Option Archive} (h : ThreadOk files ⟨request, st, accepted⟩)
    (hstep : HandlerStep request answers files st stage files')
    (hverify : st = .verify → answers.verifyOk = true → ∃ archive, files.archive = some archive ∧
      archive.request.version = request.version) :
    ThreadOk files' ⟨request, stage, if stage = .extract then files'.archive else accepted⟩ := by
  cases hstep with
  | downloads h => exact threadOk_of_idle (by simp) rfl
  | fails h => exact threadOk_of_idle (by simp) rfl
  | other hst hinst hstage himage hversion => exact threadOk_of_idle hstage hinst
  | verifies hok =>
    obtain ⟨archive, harchive, hversion⟩ := hverify rfl hok
    constructor
    · intro _
      exact ⟨rfl, archive, harchive, hversion⟩
    all_goals
      intro hs
      cases hs
  | extracts hok =>
    obtain ⟨hsame, archive, haccepted, hversion⟩ := h.verified rfl
    constructor
    case image =>
      intro _ image himage
      have hread := Answers.image?_extracted hok himage
      obtain rfl := Option.some.inj (hread.symm.trans (hsame.trans haccepted))
      exact hversion
    all_goals
      intro hs
      cases hs
  | opens =>
    constructor
    case image =>
      intro _ image himage
      rw [Node.image?_modify_version] at himage
      exact h.image rfl image himage
    case opened =>
      intro _ image himage
      rw [Node.image?_modify_version] at himage
      rw [Node.swVersion?_opened himage]
      simp
    all_goals
      intro hs
      cases hs
  | writes =>
    constructor
    case image =>
      intro _ image himage
      rw [Node.image?_modify_version] at himage
      exact h.image rfl image himage
    case written =>
      intro _ image himage
      rw [Node.image?_modify_version] at himage
      obtain ⟨old, hold⟩ := Option.ne_none_iff_exists'.mp (h.opened rfl image himage)
      rw [Node.swVersion?_written, hold]
      rfl
    all_goals
      intro hs
      cases hs

/-- What another thread is right about stays right. -/
theorem ThreadOk.frame {other : UpdateThread} (h : ThreadOk files other)
    (hstep : HandlerStep request answers files st stage files')
    (hdownload : st = .download → other.stage ≠ .extract)
    (hinstall : st = .extract ∨ st.installing = true → other.stage.installing = false) :
    ThreadOk files' other := by
  obtain ⟨harchive, hnode⟩ := hstep.frame
  by_cases hidle : other.stage.installing = false
  · by_cases hextract : other.stage = .extract
    · have hsame : files'.archive = files.archive := by
        apply harchive
        intro hst
        exact hdownload hst hextract
      constructor
      · intro hs
        rw [hsame]
        exact h.verified hs
      · intro hi
        exact absurd (hidle.symm.trans hi) Bool.false_ne_true
      all_goals
        intro hs
        exact absurd (hextract.symm.trans hs) (by simp)
    · exact threadOk_of_idle hextract hidle
  · -- the other thread is installing, so this one neither extracts nor installs
    have hne : st ≠ .extract := by
      intro hst
      exact hidle (hinstall (Or.inl hst))
    have hst : st.installing = false := by
      rw [← Bool.not_eq_true]
      intro hi
      exact hidle (hinstall (Or.inr hi))
    obtain ⟨himage, hversion⟩ := hnode hne hst
    constructor
    · intro hs
      exact absurd (by rw [hs]; rfl) hidle
    · rw [himage]; exact h.image
    · rw [himage, hversion]; exact h.opened
    · rw [himage, hversion]; exact h.written

end Steps

/-! ### Runs -/

theorem inv_of_threads_nil {s : UpdateSystem} (h : s.threads = []) : Inv s where
  threads i th hi := by rw [h] at hi; simp at hi
  alone i j th other hi := by rw [h] at hi; simp at hi

theorem Inv.spawn {s t : UpdateSystem} {request : UpdateRequest} (h : Inv s)
    (hfiles : t.files = s.files) (hthreads : t.threads = s.threads ++ [⟨request, .download, none⟩]) :
    Inv t := by
  have hcases : ∀ (i : Nat) th, t.threads[i]? = some th →
      s.threads[i]? = some th ∨ th = ⟨request, .download, none⟩ := by
    intro i th hi
    rw [hthreads] at hi
    rcases Pool.spawn_cases hi with hold | ⟨j, -, hnew⟩
    · exact Or.inl hold
    · exact Or.inr (List.mem_singleton.mp (List.mem_of_getElem? hnew))
  constructor
  · intro i th hi
    rw [hfiles]
    rcases hcases i th hi with hi | rfl
    · exact h.threads i th hi
    · exact threadOk_of_idle (by simp) rfl
  · intro i j th other hi hj hth hother
    rcases hcases i th hi with hi | rfl
    · rcases hcases j other hj with hj | rfl
      · exact h.alone i j th other hi hj hth hother
      · exact Bool.noConfusion hother
    · exact Bool.noConfusion hth

theorem Inv.advance {s t : UpdateSystem} {i : Nat} {answers : Answers} {th : UpdateThread}
    {stage : Stage} {files : Files} (h : Inv s) (hguard : s.Excludes (.step i answers))
    (hi : s.threads[i]? = some th)
    (hhandle : handleFirmwareUpdate th.request answers th.stage s.files = some (stage, files))
    (hfiles : t.files = files)
    (hthreads : t.threads = s.threads.set i
      { th with
        stage := stage
        accepted := if stage = .extract then files.archive else th.accepted }) : Inv t := by
  obtain ⟨hdownload, hverify, hextract⟩ := hguard th hi
  have hstep := handlerStep_of_handle hhandle
  -- no other thread is installing if this one extracts or installs
  have hothers : th.stage = .extract ∨ th.stage.installing = true →
      ∀ (j : Nat) other, j ≠ i → s.threads[j]? = some other → other.stage.installing = false := by
    rintro (hst | hst) j other hne hj
    · exact hextract hst j other hne hj
    · rw [← Bool.not_eq_true]
      intro hother
      apply hne
      exact h.alone j i other th hj hi hother hst
  have hother : ∀ (j : Nat) other, j ≠ i → t.threads[j]? = some other →
      s.threads[j]? = some other := by
    intro j other hne hj
    rw [hthreads, List.getElem?_set_ne (Ne.symm hne)] at hj
    exact hj
  have hown : ∀ other, t.threads[i]? = some other → other = { th with
      stage := stage
      accepted := if stage = .extract then files.archive else th.accepted } := by
    intro other hj
    rw [hthreads, List.getElem?_set_self (List.getElem?_eq_some_iff.mp hi).1] at hj
    exact (Option.some.inj hj).symm
  constructor
  · intro j other hj
    rw [hfiles]
    by_cases hne : j = i
    · subst hne
      obtain rfl := hown other hj
      exact (h.threads j th hi).step hstep hverify
    · have hj' := hother j other hne hj
      apply (h.threads j other hj').frame hstep
      · intro hst
        exact hdownload hst j other hne hj'
      · intro hst
        exact hothers hst j other hne hj'
  · intro j k other other' hj hk hinst hinst'
    by_cases hj' : j = i <;> by_cases hk' : k = i
    · exact hj'.trans hk'.symm
    · subst hj'
      obtain rfl := hown other hj
      have hnone := hothers (hstep.installing hinst) k other' hk' (hother k other' hk' hk)
      exact absurd (hnone.symm.trans hinst') Bool.false_ne_true
    · subst hk'
      obtain rfl := hown other' hk
      have hnone := hothers (hstep.installing hinst') j other hj' (hother j other hj' hj)
      exact absurd (hnone.symm.trans hinst) Bool.false_ne_true
    · exact h.alone j k other other' (hother j other hj' hj) (hother k other' hk' hk) hinst hinst'

/-- A directory that is removed takes its image with it. -/
theorem Inv.removed {s t : UpdateSystem} {removed : Bool} (h : Inv s)
    (hfiles : t.files = { s.files with fwtmp := s.files.fwtmp.removed removed })
    (hthreads : t.threads = s.threads) : Inv t := by
  constructor
  · intro i th hi
    rw [hthreads] at hi
    have hth := h.threads i th hi
    rw [hfiles]
    rcases s.files.fwtmp.removed_eq_or removed with hsame | hnone
    · rw [hsame]
      exact hth
    · constructor
      · exact hth.verified
      all_goals
        intro _ image himage
        rw [hnone] at himage
        simp at himage
  · rw [hthreads]
    exact h.alone

theorem Inv.step {s t : UpdateSystem} {a : UpdateAction} (h : Inv s) (hguard : s.Excludes a)
    (hstep : machine.step s a = some t) : Inv t := by
  rcases step_cases hstep with ⟨request, rfl, hfiles, hthreads⟩ | hnil |
    ⟨removed, hfiles, hthreads⟩ | ⟨i, answers, th, stage, files, rfl, hi, hhandle, hfiles, hthreads⟩
  · exact h.spawn hfiles hthreads
  · exact inv_of_threads_nil hnil
  · exact h.removed hfiles hthreads
  · exact h.advance hguard hi hhandle hfiles hthreads

theorem Inv.installsVerified {s : UpdateSystem} (h : Inv s) (a : UpdateAction) :
    s.InstallsVerified a := by
  cases a with
  | step i answers =>
    intro th hi
    have hth := h.threads i th hi
    constructor
    · intro hst
      obtain ⟨hsame, archive, haccepted, -⟩ := hth.verified hst
      exact ⟨archive, archive, hsame.trans haccepted, haccepted, rfl⟩
    · intro hst image himage
      have hinstalling : th.stage.installing = true := by rw [hst]; rfl
      rw [hth.image hinstalling image himage]
      exact hth.written hst image himage
  | firmwareUpdate request => trivial
  | crash => trivial
  | restart => trivial
  | startupCheck removed => trivial

/-- **Exclusion is enough.**  Along every run, with any number of updates, starts
    and ends of the process, whose steps respect the exclusion, every extraction is
    of the verified content and every launch under the version of its image. -/
theorem installsVerified_of_excludes (files : Files) (actions : List UpdateAction)
    (h : machine.AllSteps Excludes (init files) actions) :
    machine.AllSteps InstallsVerified (init files) actions := by
  apply Machine.allSteps_of_guard machine (I := Inv) (C := Excludes)
  · intro s a t hinv hguard hstep
    exact hinv.step hguard hstep
  · intro s a t hinv _ _
    exact hinv.installsVerified a
  · exact inv_of_threads_nil rfl
  · exact h

/-- A thread that is alone has nobody to exclude. -/
theorem excludes_of_single {s : UpdateSystem} {th : UpdateThread} (h : s.threads = [th])
    {answers : Answers}
    (hverify : th.stage = .verify → ∃ archive, s.files.archive = some archive ∧
      archive.request.version = th.request.version) : s.Excludes (.step 0 answers) := by
  intro th' hth'
  have hsame : th = th' := by rw [h] at hth'; exact Option.some.inj hth'
  subst hsame
  have hnone : ∀ (j : Nat) other, j ≠ 0 → s.threads[j]? = some other → False := by
    intro j other hne hj
    obtain ⟨k, rfl⟩ := Nat.exists_eq_succ_of_ne_zero hne
    rw [h] at hj
    simp at hj
  refine ⟨?_, ?_, ?_⟩
  · intro _ j other hne hj
    exact (hnone j other hne hj).elim
  · intro hst _
    exact hverify hst
  · intro _ j other hne hj
    exact (hnone j other hne hj).elim

def goodAnswers (content : Text) : Answers :=
  ⟨some content, true, true, .directory ⟨none, none, none⟩⟩

def oneUpdate : List UpdateAction :=
  .startupCheck true :: .firmwareUpdate ⟨"https://store/fw", "fw.tar.gz", "1.1"⟩ ::
    List.replicate 6 (.step 0 (goodAnswers ['a']))

theorem installsVerified_oneUpdate :
    machine.AllSteps InstallsVerified (init ⟨none, .absent⟩) oneUpdate := by
  apply installsVerified_of_excludes
  apply Machine.AllSteps.cons rfl trivial
  apply Machine.AllSteps.cons rfl trivial
  apply Machine.AllSteps.cons rfl
  · exact excludes_of_single rfl (fun h => Stage.noConfusion h)
  apply Machine.AllSteps.cons rfl
  · -- it verifies what it has downloaded
    exact excludes_of_single rfl (fun _ => ⟨_, rfl, rfl⟩)
  apply Machine.AllSteps.cons rfl
  · exact excludes_of_single rfl (fun h => Stage.noConfusion h)
  apply Machine.AllSteps.cons rfl
  · exact excludes_of_single rfl (fun h => Stage.noConfusion h)
  apply Machine.AllSteps.cons rfl
  · exact excludes_of_single rfl (fun h => Stage.noConfusion h)
  apply Machine.AllSteps.cons rfl
  · exact excludes_of_single rfl (fun h => Stage.noConfusion h)
  trivial

/-- Two updates: the second download comes between verification and extraction
    of the first. -/
def twoUpdates : List UpdateAction :=
  [.startupCheck true, .firmwareUpdate ⟨"https://store/fw", "fw1.tar.gz", "1.1"⟩,
   .firmwareUpdate ⟨"https://store/fw", "fw2.tar.gz", "1.2"⟩,
   .step 0 (goodAnswers ['a']), .step 0 (goodAnswers ['a']),
   .step 1 (goodAnswers ['b']), .step 0 (goodAnswers ['a'])]

/-- The first thread extracts what it has not verified. -/
theorem extracts_unverified :
    ¬ machine.AllSteps InstallsVerified (init ⟨none, .absent⟩) twoUpdates := by
  intro h
  have hlast := (((((((h _ rfl).2 _ rfl).2 _ rfl).2 _ rfl).2 _ rfl).2 _ rfl).2 _ rfl).1
  obtain ⟨archive, accepted, harchive, haccepted, hsame⟩ := (hlast _ rfl).1 rfl
  injection harchive with heq
  subst heq
  injection haccepted with heq
  subst heq
  exact absurd hsame (by decide)

end UpdateSystem

end IsmDevice
