import IsmDevice.Json
import IsmDevice.Lib.TryBlock

/-!
# Device settings

`DeviceSettings` of `Device.h` with its serialization.  `Deserialize` is a
sequence of fourteen assignments inside one `try` block: an assignment whose
conversion throws ends the sequence, and the members assigned before it keep
their new values.
-/

namespace IsmDevice

open TryBlock

structure DeviceSettings where
  deviceId : String
  stateName : String
  capturePeriod : Int32
  currentCaptureName : String
  varianceThreshold : Float
  distanceMapThreshold : Float
  rgThreshold : Float
  restrictedFillingThreshold : Float
  dilateValue : Float
  gain : Int32
  exposure : Float
  pulseWidth : Int32
  current : Int32
  predelay : Int32

namespace Json

def ofInt (n : Int32) : Json := .numberInteger n.toInt64

/-- A `double` as a JSON number; what is not finite becomes null. -/
def ofDouble (x : Float) : Json := if x.isFinite then .numberFloat x else .null

/-! `values[key]` converted to the type of the member it is assigned to. -/

def stringAt (values : Json) (key : String) : Option String :=
  (values.index key).bind getString

def intAt (values : Json) (key : String) : Option Int32 :=
  (values.index key).bind getInt

def doubleAt (values : Json) (key : String) : Option Float :=
  (values.index key).bind getDouble

/-- A string is there only in an object. -/
theorem exists_object_of_stringAt {values : Json} {key s : String}
    (h : values.stringAt key = some s) : ∃ members, values = .object members := by
  obtain ⟨v, hindex, hstring⟩ := Option.bind_eq_some_iff.mp h
  cases values with
  | object members => exact ⟨members, rfl⟩
  | null =>
    obtain rfl := Option.some.inj hindex
    cases hstring
  | _ => cases hindex

theorem stringAt_object_iff {members : List (String × Json)} {key s : String} :
    (Json.object members).stringAt key = some s ↔ members.lookup key = some (.string s) := by
  rw [stringAt, index, Option.bind_some]
  cases members.lookup key with
  | none => simp [getString]
  | some v => cases v <;> simp [getString]

end Json

namespace DeviceSettings

/-! ### Serialize -/

def members (s : DeviceSettings) : List (String × Json) :=
  [("DeviceId", .string s.deviceId),
   ("StateName", .string s.stateName),
   ("CapturePeriod", .ofInt s.capturePeriod),
   ("CurrentCaptureName", .string s.currentCaptureName),
   ("VarianceThreshold", .ofDouble s.varianceThreshold),
   ("DistanceMapThreshold", .ofDouble s.distanceMapThreshold),
   ("RGThreshold", .ofDouble s.rgThreshold),
   ("RestrictedFillingThreshold", .ofDouble s.restrictedFillingThreshold),
   ("DilateValue", .ofDouble s.dilateValue),
   ("Gain", .ofInt s.gain),
   ("Exposure", .ofDouble s.exposure),
   ("PulseWidth", .ofInt s.pulseWidth),
   ("Current", .ofInt s.current),
   ("Predelay", .ofInt s.predelay)]

def serialize (lib : JsonLibrary) (s : DeviceSettings) : Text :=
  (Json.ofPairs s.members).dump lib

/-! ### Deserialize -/

/-- One assignment from the parsed object; `none` is the exception. -/
abbrev Assignment := Json → DeviceSettings → Option DeviceSettings

def assign {α : Type} (read : Json → String → Option α) (key : String)
    (set : DeviceSettings → α → DeviceSettings) : Assignment :=
  fun values s => (read values key).map (set s)

def laterAssignments : List Assignment :=
  [assign Json.stringAt "CurrentCaptureName" fun s v => { s with currentCaptureName := v },
   assign Json.doubleAt "VarianceThreshold" fun s v => { s with varianceThreshold := v },
   assign Json.doubleAt "DistanceMapThreshold" fun s v => { s with distanceMapThreshold := v },
   assign Json.doubleAt "RGThreshold" fun s v => { s with rgThreshold := v },
   assign Json.doubleAt "RestrictedFillingThreshold" fun s v => { s with restrictedFillingThreshold := v },
   assign Json.doubleAt "DilateValue" fun s v => { s with dilateValue := v },
   assign Json.intAt "Gain" fun s v => { s with gain := v },
   assign Json.doubleAt "Exposure" fun s v => { s with exposure := v },
   assign Json.intAt "PulseWidth" fun s v => { s with pulseWidth := v },
   assign Json.intAt "Current" fun s v => { s with current := v },
   assign Json.intAt "Predelay" fun s v => { s with predelay := v }]

def assignments : List Assignment :=
  assign Json.stringAt "DeviceId" (fun s v => { s with deviceId := v }) ::
  assign Json.stringAt "StateName" (fun s v => { s with stateName := v }) ::
  assign Json.intAt "CapturePeriod" (fun s v => { s with capturePeriod := v }) ::
  laterAssignments

/-- Assignments in order, up to the first that throws. -/
def runAssignments (values : Json) : List Assignment → DeviceSettings → DeviceSettings
  | [], s => s
  | assign :: rest, s =>
      match assign values s with
      | some s' => runAssignments values rest s'
      | none => s

/-- `Deserialize`: whatever throws, the parser included, is caught and logged. -/
def deserialize (lib : JsonLibrary) (jsonStr : Text) (s : DeviceSettings) : DeviceSettings :=
  match lib.parse jsonStr with
  | some values => runAssignments values assignments s
  | none => s

theorem deserialize_none {lib : JsonLibrary} {jsonStr : Text} (h : lib.parse jsonStr = none)
    (s : DeviceSettings) : s.deserialize lib jsonStr = s := by
  rw [deserialize, h]

theorem deserialize_some {lib : JsonLibrary} {jsonStr : Text} {values : Json}
    (h : lib.parse jsonStr = some values) (s : DeviceSettings) :
    s.deserialize lib jsonStr = runAssignments values assignments s := by
  rw [deserialize, h]

/-! ### The assignments as writes of fourteen fields -/

def write {α : Type} (read : Json → String → Option α) (key : String) (get : DeviceSettings → α)
    (set : DeviceSettings → α → DeviceSettings) (get_set : ∀ s v, get (set s v) = v := by
      intros; rfl) (set_get : ∀ s, set s (get s) = s := by intros; rfl) :
    Write Json DeviceSettings where
  Value := α
  read values := read values key
  get := get
  set := set
  get_set := get_set
  set_get := set_get

def writes : List (Write Json DeviceSettings) :=
  [write Json.stringAt "DeviceId" deviceId fun s v => { s with deviceId := v },
   write Json.stringAt "StateName" stateName fun s v => { s with stateName := v },
   write Json.intAt "CapturePeriod" capturePeriod fun s v => { s with capturePeriod := v },
   write Json.stringAt "CurrentCaptureName" currentCaptureName
    fun s v => { s with currentCaptureName := v },
   write Json.doubleAt "VarianceThreshold" varianceThreshold
    fun s v => { s with varianceThreshold := v },
   write Json.doubleAt "DistanceMapThreshold" distanceMapThreshold
    fun s v => { s with distanceMapThreshold := v },
   write Json.doubleAt "RGThreshold" rgThreshold fun s v => { s with rgThreshold := v },
   write Json.doubleAt "RestrictedFillingThreshold" restrictedFillingThreshold
    fun s v => { s with restrictedFillingThreshold := v },
   write Json.doubleAt "DilateValue" dilateValue fun s v => { s with dilateValue := v },
   write Json.intAt "Gain" gain fun s v => { s with gain := v },
   write Json.doubleAt "Exposure" exposure fun s v => { s with exposure := v },
   write Json.intAt "PulseWidth" pulseWidth fun s v => { s with pulseWidth := v },
   write Json.intAt "Current" current fun s v => { s with current := v },
   write Json.intAt "Predelay" predelay fun s v => { s with predelay := v }]

theorem pairwise_writes : writes.Pairwise Independent := by
  simp only [writes, List.pairwise_cons, List.forall_mem_cons, List.not_mem_nil,
    IsEmpty.forall_iff, implies_true, and_true, List.Pairwise.nil]
  repeat' apply And.intro
  -- each pair of two different members
  all_goals exact ⟨fun _ _ => rfl, fun _ _ => rfl⟩

/-- A list of writes as assignments. -/
def toAssignments (l : List (Write Json DeviceSettings)) : List Assignment :=
  l.map fun w values s => (w.read values).map (w.set s)

theorem runAssignments_toAssignments (values : Json) (l : List (Write Json DeviceSettings))
    (s : DeviceSettings) : runAssignments values (toAssignments l) s = run values l s := by
  induction l generalizing s with
  | nil => rfl
  | cons w rest ih =>
    rw [toAssignments, List.map_cons, runAssignments, run]
    cases w.read values with
    | none => rfl
    | some v => exact ih (w.set s v)

/-- The assignments of `Deserialize` are these writes. -/
theorem runAssignments_assignments (values : Json) (s : DeviceSettings) :
    runAssignments values assignments s = run values writes s :=
  runAssignments_toAssignments values writes s

theorem deviceId_runAssignments (values : Json) (s : DeviceSettings) :
    (runAssignments values assignments s).deviceId =
      (values.stringAt "DeviceId").getD s.deviceId := by
  rw [runAssignments_assignments]
  exact get_run_getElem pairwise_writes 0 (by decide) s

/-- **What a body does to `StateName`.**  It is overwritten exactly if the two
    strings that are read first are there. -/
theorem stateName_runAssignments (values : Json) (s : DeviceSettings) :
    (runAssignments values assignments s).stateName =
      match values.stringAt "DeviceId", values.stringAt "StateName" with
      | some _, some name => name
      | _, _ => s.stateName := by
  have hget : (run values writes s).stateName =
      if (values.stringAt "DeviceId").isSome && true then
        (values.stringAt "StateName").getD s.stateName
      else s.stateName := get_run_getElem pairwise_writes 1 (by decide) s
  rw [runAssignments_assignments, hget]
  cases values.stringAt "DeviceId" <;> cases values.stringAt "StateName" <;> rfl

/-- The name that is assigned to `CurrentCaptureName`, where that is reached. -/
def givenCaptureName (values : Json) : Option String :=
  match values.stringAt "DeviceId", values.stringAt "StateName", values.intAt "CapturePeriod" with
  | some _, some _, some _ => values.stringAt "CurrentCaptureName"
  | _, _, _ => none

theorem currentCaptureName_runAssignments (values : Json) (s : DeviceSettings) :
    (runAssignments values assignments s).currentCaptureName =
      (givenCaptureName values).getD s.currentCaptureName := by
  have hget : (run values writes s).currentCaptureName =
      if (values.stringAt "DeviceId").isSome && ((values.stringAt "StateName").isSome &&
          ((values.intAt "CapturePeriod").isSome && true)) then
        (values.stringAt "CurrentCaptureName").getD s.currentCaptureName
      else s.currentCaptureName := get_run_getElem pairwise_writes 3 (by decide) s
  rw [runAssignments_assignments, hget, givenCaptureName]
  cases values.stringAt "DeviceId" <;> cases values.stringAt "StateName" <;>
    cases values.intAt "CapturePeriod" <;> rfl

end DeviceSettings

end IsmDevice
