import IsmDevice.Telemetry
import IsmDevice.Lib.Machine

/-!
# Firmware updates

`FirmwareUpdateHandler::HandleFirmwareUpdate` runs in a detached thread for each
`firmwareUpdate` call.  Its steps share one archive and one directory, `.fwtmp`,
and it ends the process.  The next start of the program looks at `.fwtmp` and
reports what it takes to be the outcome.

The blob download and the two scripts are outside of the repository; what they
answer is an argument.  Files are written where their directory exists.
-/

namespace IsmDevice

open Transition

structure UpdateRequest where
  blobUrl : String
  fileName : String
  version : String
deriving DecidableEq, Repr

/-- What `/home/debian/fwupdate.tar.gz` contains, with the request whose download
    wrote it.  The request is kept for the statements only. -/
structure Archive where
  content : Text
  request : UpdateRequest
deriving DecidableEq, Repr

/-- The directory `/home/debian/.fwtmp`: the two files that the program writes
    there, and the archive that was extracted there last. -/
structure FwTmp where
  error : Option String
  swVersion : Option String
  image : Option Archive
deriving DecidableEq, Repr

inductive Node where
  | absent
  | file
  | directory (d : FwTmp)
deriving DecidableEq, Repr

/-- `mkdir`: whatever is there already stays. -/
def Node.mkdir : Node → Node
  | .absent => .directory ⟨none, none, none⟩
  | node => node

/-- A change to a file in the directory; without the directory it is lost. -/
def Node.modify (change : FwTmp → FwTmp) : Node → Node
  | .directory d => .directory (change d)
  | node => node

structure Files where
  archive : Option Archive
  fwtmp : Node
deriving DecidableEq, Repr

structure Answers where
  download : Option Text -- what `download_to_file` writes; `none` where it throws
  verifyOk : Bool -- `verify.sh` returns 0
  extractOk : Bool -- `xfwupdate.sh` returns 0
  left : Node -- what `xfwupdate.sh` leaves at `.fwtmp`
deriving DecidableEq, Repr

/-- `.fwtmp` after `xfwupdate.sh`: where it succeeds it has extracted the archive. -/
def Answers.extracted (answers : Answers) (archive : Option Archive) : Node :=
  if answers.extractOk then answers.left.modify fun d => { d with image := archive }
  else answers.left

def VERIFICATION_ERROR : String := "Error during verification of firmware update."
def EXTRACTION_ERROR : String := "Error during firmware update extraction."

/-- Where a thread in `HandleFirmwareUpdate` is about to go on. -/
inductive Stage where
  | download
  | verify
  | mkdir
  | extract
  | openError (error : String) -- `HandleFirmwareUpdateError`: open the file, then write it and exit
  | writeError (error : String)
  | openVersion
  | writeVersion
  | launch -- at `system("setsid .../apply.sh ...")`
  | exited (status : Nat)
  | terminated -- an exception has left the thread
deriving DecidableEq, Repr

/-- The next step of `HandleFirmwareUpdate`; none after the end of the process.
    What a download that throws leaves of the archive is not read by anyone. -/
def handleFirmwareUpdate (request : UpdateRequest) (answers : Answers) :
    Stage → Files → Option (Stage × Files)
  | .download, files =>
      match answers.download with
      | some content => some (.verify, { files with archive := some ⟨content, request⟩ })
      | none => some (.terminated, files)
  | .verify, files => some (if answers.verifyOk then .extract else .mkdir, files)
  | .mkdir, files =>
      some (.openError VERIFICATION_ERROR, { files with fwtmp := files.fwtmp.mkdir })
  | .extract, files =>
      some (if answers.extractOk then .openVersion else .openError EXTRACTION_ERROR,
        { files with fwtmp := answers.extracted files.archive })
  | .openError error, files =>
      some (.writeError error,
        { files with fwtmp := files.fwtmp.modify fun d => { d with error := some "" } })
  | .writeError error, files =>
      some (.exited 1, { files with
        fwtmp := files.fwtmp.modify fun d => { d with error := d.error.map fun _ => error } })
  | .openVersion, files =>
      some (.writeVersion,
        { files with fwtmp := files.fwtmp.modify fun d => { d with swVersion := some "" } })
  | .writeVersion, files =>
      some (.launch, { files with
        fwtmp := files.fwtmp.modify fun d =>
          { d with swVersion := d.swVersion.map fun _ => request.version } })
  | .launch, files => some (.exited 0, files)
  | .exited _, _ => none
  | .terminated, _ => none

/-! ### The next start -/

/-- What the constructor does about a firmware update: the arguments of its calls
    of `SendD2C_FwUpdateStatus` (status and message), and the version that
    `setsetting softwareversion` is given. -/
structure Startup where
  statusCalls : List (String × String)
  softwareversion : Option String
deriving DecidableEq, Repr

def UPDATE_ERROR : String := "Error during Firmware Update"
def UPDATE_COMPLETED : String := "Firmware Update completed"

/-- What `getline` reads of a file. -/
def firstLine (s : String) : String := String.ofList (s.toList.takeWhile (· ≠ '\n'))

/-- `"$(cat file)"` in a shell: newlines at the end are dropped. -/
def shellOutput (s : String) : String :=
  String.ofList (s.toList.reverse.dropWhile (· = '\n')).reverse

def startup : Node → Startup
  | .directory d =>
      match d.error with
      | some error => ⟨[(UPDATE_ERROR, firstLine error)], none⟩
      | none => ⟨[(UPDATE_COMPLETED, "Success")], some (shellOutput (d.swVersion.getD ""))⟩
  | .absent => ⟨[], none⟩
  | .file => ⟨[], none⟩

/-- `rm -rf /home/debian/.fwtmp` at the end of the check. -/
def Node.removed (ok : Bool) : Node → Node
  | .directory d => if ok then .absent else .directory d
  | node => node

/-- The messages that a start sends, each with the status call it comes from. -/
def Startup.sent (lib : JsonLibrary) (undefined : Text → Text) (files : StatusFiles)
    (deviceId : String) (s : Startup) : List ((String × String) × D2CMessage) :=
  s.statusCalls.filterMap fun call =>
    (sendD2C_FwUpdateStatus lib undefined files deviceId CommandType.FIRMWARE_UPDATE_STATUS
      call.1 call.2).map fun message => (call, message)

/-! ### One attempt -/

def attempt (request : UpdateRequest) (answers : Answers) : Nat → Stage × Files → Stage × Files
  | 0, h => h
  | n + 1, h =>
      match handleFirmwareUpdate request answers h.1 h.2 with
      | some h' => attempt request answers n h'
      | none => h

def attemptFrom (request : UpdateRequest) (answers : Answers) (files : Files) (n : Nat) :
    Stage × Files :=
  attempt request answers n (.download, files)

/-! ### Concurrent attempts -/

/-- A thread in `HandleFirmwareUpdate`, with the archive that its verification
    has accepted, kept for the statements only. -/
structure UpdateThread where
  request : UpdateRequest
  stage : Stage
  accepted : Option Archive
deriving DecidableEq, Repr

structure UpdateSystem where
  running : Bool
  checking : Bool -- the constructor, which has registered the callback, is yet to remove `.fwtmp`
  files : Files
  threads : List UpdateThread
deriving DecidableEq, Repr

inductive UpdateAction where
  | firmwareUpdate (request : UpdateRequest) -- the direct method is called, and starts a thread
  | step (thread : Nat) (answers : Answers) -- a thread goes on
  | crash -- the process ends for a reason of its own
  | restart -- the program is started again
  | startupCheck (removed : Bool) -- what the check ends with; `removed` tells whether `rm -rf` works
deriving DecidableEq, Repr

namespace UpdateSystem

def init (files : Files) : UpdateSystem := ⟨true, true, files, []⟩

/-- Thread `i` has gone on to `stage`.  With its end the process ends. -/
def advance (i : Nat) (th : UpdateThread) (stage : Stage) (files : Files) (s : UpdateSystem) :
    UpdateSystem :=
  match stage with
  | .exited _ => ⟨false, false, files, []⟩
  | .terminated => ⟨false, false, files, []⟩
  | stage =>
      { s with
        files := files
        threads := s.threads.set i
          { th with
            stage := stage
            accepted := if stage = .extract then files.archive else th.accepted } }

def stepThread (i : Nat) (answers : Answers) (s : UpdateSystem) : Option UpdateSystem :=
  s.threads[i]?.bind fun th =>
    (handleFirmwareUpdate th.request answers th.stage s.files).map fun (stage, files) =>
      s.advance i th stage files

def machine : Machine UpdateSystem UpdateAction where
  step s
    | .firmwareUpdate request =>
        if s.running then
          some { s with threads := s.threads ++ [⟨request, .download, none⟩] }
        else none
    | .step i answers => s.stepThread i answers
    | .crash => if s.running then some ⟨false, false, s.files, []⟩ else none
    | .restart => if s.running then none else some ⟨true, true, s.files, []⟩
    | .startupCheck removed =>
        -- the callback is registered before, so that update threads may be on their way
        if s.running && s.checking then
          some { s with
            checking := false
            files := { s.files with fwtmp := s.files.fwtmp.removed removed } }
        else none

end UpdateSystem

end IsmDevice
