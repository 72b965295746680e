import IsmDevice.Firmware

/-!
# How the outcome of an update is reported

Across the end of the process the outcome of an update is carried by two things:
`.fwtmp` is a directory, and there is a file `error` in it.  This module says
after which attempts the next start concludes the right thing from them, for
every answer of the download and the scripts, every node found at `.fwtmp` and
every point at which the process is stopped.
-/

namespace IsmDevice

open Transition

def Node.LooksCompleted (node : Node) : Prop := ∃ d, node = .directory d ∧ d.error = none

/-- The start tells the back end that an update has completed, or changes the
    software version. -/
def Startup.ReportsCompletion (s : Startup) : Prop :=
  s.softwareversion ≠ none ∨ ∃ message, (UPDATE_COMPLETED, message) ∈ s.statusCalls

theorem reportsCompletion_iff (node : Node) :
    (startup node).ReportsCompletion ↔ node.LooksCompleted := by
  have hne : UPDATE_COMPLETED ≠ UPDATE_ERROR := by decide
  cases node with
  | absent => simp [startup, Startup.ReportsCompletion, Node.LooksCompleted]
  | file => simp [startup, Startup.ReportsCompletion, Node.LooksCompleted]
  | directory d =>
    cases herror : d.error with
    | none => simp [startup, Startup.ReportsCompletion, Node.LooksCompleted, herror]
    | some error => simp [startup, Startup.ReportsCompletion, Node.LooksCompleted, herror, hne]

theorem looksCompleted_modify_iff (change : FwTmp → FwTmp)
    (h : ∀ d, (change d).error = d.error) (node : Node) :
    (node.modify change).LooksCompleted ↔ node.LooksCompleted := by
  cases node with
  | absent => simp [Node.modify]
  | file => simp [Node.modify]
  | directory d => simp [Node.modify, Node.LooksCompleted, h]

theorem not_looksCompleted_modify (change : FwTmp → FwTmp)
    (h : ∀ d, (change d).error ≠ none) (node : Node) :
    ¬ (node.modify change).LooksCompleted := by
  rintro ⟨d, hd, herror⟩
  cases node with
  | absent => exact Node.noConfusion hd
  | file => exact Node.noConfusion hd
  | directory d' =>
    obtain rfl := Node.directory.inj hd
    exact h d' herror

theorem looksCompleted_extracted_iff (answers : Answers) (archive : Option Archive) :
    (answers.extracted archive).LooksCompleted ↔ answers.left.LooksCompleted := by
  unfold Answers.extracted
  split
  · exact looksCompleted_modify_iff (fun d => { d with image := archive }) (fun _ => rfl) _
  · exact Iff.rfl

/-! ### No false success -/

section Attempt

variable (request : UpdateRequest) (answers : Answers) (files : Files)

theorem attempt_of_ended {h : Stage × Files}
    (hend : handleFirmwareUpdate request answers h.1 h.2 = none) (n : Nat) :
    attempt request answers n h = h := by
  cases n with
  | zero => rfl
  | succ n => rw [attempt, hend]

theorem attempt_of_step {h h' : Stage × Files}
    (hstep : handleFirmwareUpdate request answers h.1 h.2 = some h') (n : Nat) :
    attempt request answers (n + 1) h = attempt request answers n h' := by
  rw [attempt, hstep]

theorem exec_attempt (checking : Bool) (accepted : Option Archive) (n : Nat) (stage : Stage)
    (files : Files) :
    ∃ actions t, UpdateSystem.machine.exec
        ⟨true, checking, files, [⟨request, stage, accepted⟩]⟩ actions = some t ∧
      t.running = false ∧ t.files = (attempt request answers n (stage, files)).2 := by
  induction n generalizing accepted stage files with
  | zero => exact ⟨[.crash], _, rfl, rfl, rfl⟩
  | succ n ih =>
    cases hnext : handleFirmwareUpdate request answers stage files with
    | none =>
      rw [attempt_of_ended request answers hnext]
      exact ⟨[.crash], _, rfl, rfl, rfl⟩
    | some h' =>
      obtain ⟨stage', files'⟩ := h'
      rw [attempt_of_step request answers hnext]
      have hstep : UpdateSystem.machine.step
          ⟨true, checking, files, [⟨request, stage, accepted⟩]⟩ (.step 0 answers) =
            some (UpdateSystem.advance 0 ⟨request, stage, accepted⟩ stage' files'
              ⟨true, checking, files, [⟨request, stage, accepted⟩]⟩) := by
        simp [UpdateSystem.machine, UpdateSystem.stepThread, hnext]
      -- the last step ends the process; after any other the thread goes on
      cases stage' with
      | exited status =>
        rw [attempt_of_ended request answers rfl]
        refine ⟨[.step 0 answers], ⟨false, false, files', []⟩, ?_, rfl, rfl⟩
        rw [Machine.exec_cons, hstep]
        rfl
      | terminated =>
        rw [attempt_of_ended request answers rfl]
        refine ⟨[.step 0 answers], ⟨false, false, files', []⟩, ?_, rfl, rfl⟩
        rw [Machine.exec_cons, hstep]
        rfl
      | _ =>
        obtain ⟨actions, t, hrun, hstopped, hfiles⟩ := ih _ _ files'
        refine ⟨.step 0 answers :: actions, t, ?_, hstopped, hfiles⟩
        rw [Machine.exec_cons, hstep]
        exact hrun

/-- **Attempts are runs.**  What an attempt that is stopped after `n` steps leaves
    is what some run of the program leaves at its end, for the next start to find. -/
theorem attempt_stopped (n : Nat) :
    ∃ t, UpdateSystem.machine.Reaches (UpdateSystem.init files) t ∧ t.running = false ∧
      t.files = (attemptFrom request answers files n).2 := by
  obtain ⟨actions, t, hrun, hstopped, hfiles⟩ :=
    exec_attempt request answers true none n .download files
  exact ⟨t, ⟨.firmwareUpdate request :: actions, hrun⟩, hstopped, hfiles⟩

/-- The attempt has passed verification and extraction, has written the version
    and launched `apply.sh`. -/
structure Applied (h : Stage × Files) : Prop where
  downloaded : answers.download ≠ none
  verified : answers.verifyOk = true
  extracted : answers.extractOk = true
  versionWritten : ∃ d, h.2.fwtmp = .directory d ∧ d.swVersion = some request.version
  launched : h.1 = .exited 0

/-- If the program is started again now, it reports completion only of an attempt
    that has been applied. -/
def NoFalseSuccess (h : Stage × Files) : Prop :=
  (startup h.2.fwtmp).ReportsCompletion → Applied request answers h

theorem noFalseSuccess_iff_of_stage {h : Stage × Files} (hstage : h.1 ≠ .exited 0) :
    NoFalseSuccess request answers h ↔ ¬ h.2.fwtmp.LooksCompleted := by
  rw [NoFalseSuccess, reportsCompletion_iff]
  constructor
  · intro himp hlooks
    apply hstage
    exact (himp hlooks).launched
  · intro hnot hlooks
    exact absurd hlooks hnot

/-- The points at which the process can be stopped, counted in steps of the
    attempt.  Up to the scripts `.fwtmp` is as it was found; after a failed
    verification it has been made, but holds no error yet; after `xfwupdate.sh`
    it is as that leaves it, until the error is written or `apply.sh` launched. -/
def Answers.SafeToStop (fwtmp : Node) (n : Nat) : Prop :=
  if n ≤ 2 ∨ answers.download = none then ¬ fwtmp.LooksCompleted
  else if answers.verifyOk = false then n = 3 → ¬ fwtmp.mkdir.LooksCompleted
  else if answers.extractOk = false then n = 3 → ¬ answers.left.LooksCompleted
  else n ≤ 5 → ¬ answers.left.LooksCompleted

/-! The attempt up to the scripts, and how it goes on after them. -/

theorem attemptFrom_early {n : Nat} (h : n ≤ 2 ∨ answers.download = none) :
    (attemptFrom request answers files n).2.fwtmp = files.fwtmp ∧
      (attemptFrom request answers files n).1 ≠ .exited 0 := by
  cases hdownload : answers.download with
  | none =>
    cases n with
    | zero => exact ⟨rfl, by simp [attemptFrom, attempt]⟩
    | succ n =>
      have hstep : handleFirmwareUpdate request answers .download files =
          some (.terminated, files) := by
        simp [handleFirmwareUpdate, hdownload]
      rw [attemptFrom, attempt_of_step _ _ hstep, attempt_of_ended _ _ rfl]
      exact ⟨rfl, by simp⟩
  | some content =>
    have hn : n ≤ 2 := h.resolve_right (by simp [hdownload])
    rcases n with _ | _ | _ | n
    · exact ⟨rfl, by simp [attemptFrom, attempt]⟩
    · simp [attemptFrom, attempt, handleFirmwareUpdate, hdownload]
    · cases hverify : answers.verifyOk <;>
        simp [attemptFrom, attempt, handleFirmwareUpdate, hdownload, hverify]
    · omega

section Downloaded

variable {request answers} {content : Text} (hdownload : answers.download = some content)
include hdownload

theorem attemptFrom_unverified (hverify : answers.verifyOk = false) (n : Nat) :
    attemptFrom request answers files (n + 3) =
      attempt request answers n
        (.openError VERIFICATION_ERROR, ⟨some ⟨content, request⟩, files.fwtmp.mkdir⟩) := by
  simp [attemptFrom, attempt, handleFirmwareUpdate, hdownload, hverify]

theorem attemptFrom_unextracted (hverify : answers.verifyOk = true)
    (hextract : answers.extractOk = false) (n : Nat) :
    attemptFrom request answers files (n + 3) =
      attempt request answers n (.openError EXTRACTION_ERROR,
        ⟨some ⟨content, request⟩, answers.extracted (some ⟨content, request⟩)⟩) := by
  simp [attemptFrom, attempt, handleFirmwareUpdate, hdownload, hverify, hextract]

theorem attemptFrom_extracted (hverify : answers.verifyOk = true)
    (hextract : answers.extractOk = true) (n : Nat) :
    attemptFrom request answers files (n + 3) =
      attempt request answers n (.openVersion,
        ⟨some ⟨content, request⟩, answers.extracted (some ⟨content, request⟩)⟩) := by
  simp [attemptFrom, attempt, handleFirmwareUpdate, hdownload, hverify, hextract]

end Downloaded

/-- From the failure on: nothing is reported once the error file is open. -/
theorem noFalseSuccess_openError_iff (error : String) (n : Nat) :
    NoFalseSuccess request answers (attempt request answers n (.openError error, files)) ↔
      (n = 0 → ¬ files.fwtmp.LooksCompleted) := by
  have hopened := not_looksCompleted_modify (fun d => { d with error := some "" })
    (by simp) files.fwtmp
  rcases n with _ | _ | n
  · rw [attempt, noFalseSuccess_iff_of_stage _ _ (by simp), forall_prop_of_true rfl]
  · apply iff_of_true
    · rw [attempt_of_step _ _ rfl, attempt, noFalseSuccess_iff_of_stage _ _ (by simp)]
      exact hopened
    · simp
  · apply iff_of_true
    · rw [attempt_of_step _ _ rfl, attempt_of_step _ _ rfl, attempt_of_ended _ _ rfl,
        noFalseSuccess_iff_of_stage _ _ (by simp)]
      intro hlooks
      cases hnode : files.fwtmp with
      | directory d =>
        rw [hnode] at hlooks
        obtain ⟨d', hd, herror⟩ := hlooks
        injection hd with hd
        subst hd
        simp at herror
      | _ =>
        rw [hnode] at hlooks
        obtain ⟨d, hd, -⟩ := hlooks
        exact Node.noConfusion hd
    · simp

/-- From a successful extraction on: completion is reported rightly only after
    the launch. -/
theorem noFalseSuccess_openVersion_iff (hdownload : answers.download ≠ none)
    (hverify : answers.verifyOk = true) (hextract : answers.extractOk = true) (n : Nat) :
    NoFalseSuccess request answers (attempt request answers n (.openVersion, files)) ↔
      (n ≤ 2 → ¬ files.fwtmp.LooksCompleted) := by
  have hopened := looksCompleted_modify_iff (fun d => { d with swVersion := some "" })
    (fun _ => rfl) files.fwtmp
  have hwritten := (looksCompleted_modify_iff
    (fun d => { d with swVersion := d.swVersion.map fun _ => request.version })
    (fun _ => rfl) _).trans hopened
  rcases n with _ | _ | _ | n
  · rw [attempt, noFalseSuccess_iff_of_stage _ _ (by simp), forall_prop_of_true (by simp)]
  · rw [attempt_of_step _ _ rfl, attempt, noFalseSuccess_iff_of_stage _ _ (by simp), hopened,
      forall_prop_of_true (by simp)]
  · rw [attempt_of_step _ _ rfl, attempt_of_step _ _ rfl, attempt,
      noFalseSuccess_iff_of_stage _ _ (by simp), hwritten, forall_prop_of_true (by simp)]
  · apply iff_of_true
    · rw [attempt_of_step _ _ rfl, attempt_of_step _ _ rfl, attempt_of_step _ _ rfl,
        attempt_of_ended _ _ rfl]
      intro hreports
      have hlooks := (reportsCompletion_iff _).mp hreports
      obtain ⟨d, hd, -⟩ := hwritten.mp hlooks
      constructor
      · exact hdownload
      · exact hverify
      · exact hextract
      · exact ⟨_, by rw [hd]; rfl, rfl⟩
      · rfl
    · omega

/-- **When a stopped update is not taken for a success**: for every attempt and
    every number of steps after which the process is stopped. -/
theorem noFalseSuccess_iff (n : Nat) :
    NoFalseSuccess request answers (attemptFrom request answers files n) ↔
      answers.SafeToStop files.fwtmp n := by
  by_cases hearly : n ≤ 2 ∨ answers.download = none
  · obtain ⟨hnode, hstage⟩ := attemptFrom_early request answers files hearly
    rw [noFalseSuccess_iff_of_stage _ _ hstage, hnode, Answers.SafeToStop, if_pos hearly]
  · obtain ⟨hn, hdownload⟩ := not_or.mp hearly
    obtain ⟨content, hcontent⟩ := Option.ne_none_iff_exists'.mp hdownload
    obtain ⟨n, rfl⟩ : ∃ k, n = k + 3 := ⟨n - 3, by omega⟩
    rw [Answers.SafeToStop, if_neg hearly]
    cases hverify : answers.verifyOk with
    | false =>
      rw [attemptFrom_unverified files hcontent hverify, noFalseSuccess_openError_iff]
      simp
    | true =>
      cases hextract : answers.extractOk with
      | false =>
        rw [attemptFrom_unextracted files hcontent hverify hextract, noFalseSuccess_openError_iff,
          looksCompleted_extracted_iff]
        simp
      | true =>
        rw [attemptFrom_extracted files hcontent hverify hextract,
          noFalseSuccess_openVersion_iff _ _ _ hdownload hverify hextract,
          looksCompleted_extracted_iff]
        simp

end Attempt

def sampleRequest : UpdateRequest := ⟨"https://store/fw", "fw.tar.gz", "1.1"⟩

/-- The verification fails and the process is stopped before it opens the error
    file: the next start reports a completed update. -/
theorem falseSuccess_after_mkdir :
    ¬ NoFalseSuccess sampleRequest ⟨some ['x'], false, true, .absent⟩
      (attemptFrom sampleRequest ⟨some ['x'], false, true, .absent⟩ ⟨none, .absent⟩ 3) := by
  rw [noFalseSuccess_iff_of_stage _ _ (by decide)]
  intro hnot
  apply hnot
  exact ⟨⟨none, none, none⟩, rfl, rfl⟩

/-! ### Failures are reported -/

def Answers.Fails (answers : Answers) : Prop :=
  answers.download = none ∨ answers.verifyOk = false ∨ answers.extractOk = false

/-- The text of the error that the attempt has to report; an exception has none. -/
def Answers.error? (answers : Answers) : Option String :=
  if answers.download = none then none
  else if answers.verifyOk = false then some VERIFICATION_ERROR
  else if answers.extractOk = false then some EXTRACTION_ERROR
  else none

/-- The error of a failed attempt gets into `.fwtmp`: it was not the download
    that failed, and there is a directory for the error file.  After a failed
    verification it is made unless a plain file is in the way; after a failed
    extraction it is there only if `xfwupdate.sh` has left one. -/
def Answers.Recorded (answers : Answers) (fwtmp : Node) : Prop :=
  answers.download ≠ none ∧
    if answers.verifyOk = false then fwtmp ≠ .file else ∃ d, answers.left = .directory d

section Report

variable (lib : JsonLibrary) (status : StatusFiles) (deviceId : String)

/-- The next start sends one message, a firmware status, and its payload is the text that
    gives the status of a failed update with the error of this attempt. -/
def Reported (answers : Answers) (node : Node) : Prop :=
  ∃ error text, answers.error? = some error ∧
    fwUpdateStatusText lib status deviceId UPDATE_ERROR error = some text ∧
    ∀ undefined, (startup node).sent lib undefined status deviceId =
      [((UPDATE_ERROR, error),
        ⟨text, [(EventType.D2C_COMMAND, CommandType.FIRMWARE_UPDATE_STATUS)]⟩)]

/-- `config.json` can be read, and what is sent with this error arrives as it is: there is
    no `%` in the device id, the log and the version, and the text fits the buffer. -/
def StatusFiles.Carry (error : String) : Prop :=
  ∃ version, status.softwareVersion lib = some version ∧
    (PercentFree deviceId ∧ '%' ∉ status.fwUpdateLog ∧ ∀ s ∈ version.strings, PercentFree s) ∧
    ((Json.ofPairs
        (fwUpdateStatusMembers status deviceId UPDATE_ERROR error version)).dump lib).length <
      MAX_SEND_BUFFER_SIZE

theorem sendText_eq_iff (undefined : Text → Text) (text : Text) (cmdType : String) :
    sendText undefined text cmdType = ⟨text, [(EventType.D2C_COMMAND, cmdType)]⟩ ↔
      (sendText undefined text cmdType).payload = text := by
  simp [sendText]

theorem percentFree_UPDATE_ERROR : PercentFree UPDATE_ERROR := by
  unfold PercentFree
  decide

/-- The errors are lines, and `sprintf_s` copies them. -/
theorem error_plain {answers : Answers} {error : String} (h : answers.error? = some error) :
    firstLine error = error ∧ PercentFree error := by
  unfold Answers.error? at h
  split_ifs at h
  · obtain rfl := Option.some.inj h
    exact ⟨by decide, by unfold PercentFree; decide⟩
  · obtain rfl := Option.some.inj h
    exact ⟨by decide, by unfold PercentFree; decide⟩

/-- The error that is found is sent, and arrives, exactly if the files carry it. -/
theorem sent_error_iff {d : FwTmp} {error : String} (herror : d.error = some error)
    (hline : firstLine error = error) (hfree : PercentFree error) :
    (∃ text, fwUpdateStatusText lib status deviceId UPDATE_ERROR error = some text ∧
      ∀ undefined, (startup (.directory d)).sent lib undefined status deviceId =
        [((UPDATE_ERROR, error),
          ⟨text, [(EventType.D2C_COMMAND, CommandType.FIRMWARE_UPDATE_STATUS)]⟩)]) ↔
      status.Carry lib deviceId error := by
  have hstartup : startup (.directory d) = ⟨[(UPDATE_ERROR, error)], none⟩ := by
    rw [startup, herror]
    simp only [hline]
  rw [hstartup, StatusFiles.Carry]
  cases hversion : status.softwareVersion lib with
  | none => simp [fwUpdateStatusText, hversion]
  | some version =>
    have hpayload := payload_dump_iff lib
      (Json.ofPairs (fwUpdateStatusMembers status deviceId UPDATE_ERROR error version))
      CommandType.FIRMWARE_UPDATE_STATUS
    rw [percentFree_status_iff, and_iff_right percentFree_UPDATE_ERROR,
      and_iff_right hfree] at hpayload
    simp only [Startup.sent, sendD2C_FwUpdateStatus, fwUpdateStatusText, hversion,
      Option.map_some, Option.some.injEq, exists_eq_left', List.filterMap_cons, List.filterMap_nil,
      List.cons.injEq, and_true, Prod.mk.injEq, true_and, sendText_eq_iff]
    exact hpayload

theorem not_reported_of_startup_nil {answers : Answers} {node : Node}
    (h : (startup node).statusCalls = []) : ¬ Reported lib status deviceId answers node := by
  rintro ⟨error, text, -, -, hsent⟩
  have hone := hsent id
  rw [Startup.sent, h] at hone
  simp at hone

variable (request : UpdateRequest) (answers : Answers) (files : Files)

/-- An attempt ends within six steps. -/
theorem attempt_ends :
    handleFirmwareUpdate request answers (attemptFrom request answers files 6).1
      (attemptFrom request answers files 6).2 = none := by
  cases hdownload : answers.download with
  | none => simp [attemptFrom, attempt, handleFirmwareUpdate, hdownload]
  | some content =>
    cases hverify : answers.verifyOk with
    | false =>
      rw [attemptFrom_unverified files hdownload hverify]
      simp [attempt, handleFirmwareUpdate]
    | true =>
      cases hextract : answers.extractOk with
      | false =>
        rw [attemptFrom_unextracted files hdownload hverify hextract]
        simp [attempt, handleFirmwareUpdate]
      | true =>
        rw [attemptFrom_extracted files hdownload hverify hextract]
        simp [attempt, handleFirmwareUpdate]

theorem fwtmp_openError (error : String) (n : Nat) :
    (attempt request answers (n + 2) (.openError error, files)).2.fwtmp =
      files.fwtmp.modify fun d => { d with error := some error } := by
  rw [attempt_of_step _ _ rfl, attempt_of_step _ _ rfl, attempt_of_ended _ _ rfl]
  cases files.fwtmp <;> rfl

theorem reported_modify_iff {error : String} (herror : answers.error? = some error) (node : Node) :
    Reported lib status deviceId answers (node.modify fun d => { d with error := some error }) ↔
      (∃ d, node = .directory d) ∧ status.Carry lib deviceId error := by
  cases node with
  | absent =>
    apply iff_of_false
    · exact not_reported_of_startup_nil lib status deviceId rfl
    · rintro ⟨⟨d, hd⟩, -⟩
      exact Node.noConfusion hd
  | file =>
    apply iff_of_false
    · exact not_reported_of_startup_nil lib status deviceId rfl
    · rintro ⟨⟨d, hd⟩, -⟩
      exact Node.noConfusion hd
  | directory d =>
    obtain ⟨hline, hfree⟩ := error_plain herror
    rw [and_iff_right ⟨d, rfl⟩, Node.modify, Reported, herror]
    rw [← sent_error_iff lib status deviceId (d := { d with error := some error }) rfl hline hfree]
    constructor
    · rintro ⟨error', text, heq, hsent⟩
      injection heq with heq
      subst heq
      exact ⟨text, hsent⟩
    · rintro ⟨text, hsent⟩
      exact ⟨error, text, rfl, hsent⟩

/-- **When a failed update is reported**: for every attempt that fails, exactly if
    its error gets into `.fwtmp` and the files of the status carry it to the back end. -/
theorem failed_reported_iff :
    (answers.Fails → Reported lib status deviceId answers
        (attemptFrom request answers files 6).2.fwtmp) ↔
      (answers.Fails → answers.Recorded files.fwtmp ∧
        ∀ error, answers.error? = some error → status.Carry lib deviceId error) := by
  apply imp_congr_right
  intro hfails
  cases hdownload : answers.download with
  | none =>
    -- an exception leaves the thread: no error text, no file
    apply iff_of_false
    · rintro ⟨error, text, herror, -⟩
      simp [Answers.error?, hdownload] at herror
    · intro h
      exact h.1.1 hdownload
  | some content =>
    cases hverify : answers.verifyOk with
    | false =>
      have hmade : (∃ d, files.fwtmp.mkdir = .directory d) ↔ files.fwtmp ≠ .file := by
        cases files.fwtmp <;> simp [Node.mkdir]
      have herror : answers.error? = some VERIFICATION_ERROR := by
        simp [Answers.error?, hdownload, hverify]
      rw [attemptFrom_unverified files hdownload hverify, fwtmp_openError,
        reported_modify_iff lib status deviceId answers herror, hmade, herror]
      simp [Answers.Recorded, hdownload, hverify]
    | true =>
      cases hextract : answers.extractOk with
      | false =>
        have herror : answers.error? = some EXTRACTION_ERROR := by
          simp [Answers.error?, hdownload, hverify, hextract]
        rw [attemptFrom_unextracted files hdownload hverify hextract, fwtmp_openError,
          reported_modify_iff lib status deviceId answers herror, herror]
        simp [Answers.Recorded, Answers.extracted, hdownload, hverify, hextract]
      | true => simp [Answers.Fails, hdownload, hverify, hextract] at hfails

end Report

/-- Extraction fails before it has made `.fwtmp`: the error file cannot be opened,
    and the next start, which could read `config.json`, reports nothing. -/
theorem failed_extraction_unreported :
    (⟨some ['x'], true, false, .absent⟩ : Answers).Fails ∧
      ¬ Reported (.ofTable [(['{', '}'], .object [])]) ⟨['{', '}'], []⟩ "d1"
        ⟨some ['x'], true, false, .absent⟩
        (attemptFrom sampleRequest ⟨some ['x'], true, false, .absent⟩ ⟨none, .absent⟩ 6).2.fwtmp :=
  ⟨Or.inr (Or.inr rfl), not_reported_of_startup_nil _ _ _ (by decide)⟩

end IsmDevice
