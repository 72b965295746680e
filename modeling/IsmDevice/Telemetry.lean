import IsmDevice.Device

/-!
# Messages to the back end

`SendD2C_DeviceSettings` and `SendD2C_FwUpdateStatus` build a JSON text, write it
to a buffer with `sprintf_s`, and send the C string that is then in the buffer.
The text stands in the place of the format, so what arrives is the text only if
formatting copies it.
-/

namespace IsmDevice

def MAX_SEND_BUFFER_SIZE : Nat := 262144

structure D2CMessage where
  payload : Text
  properties : List (String × String)

/-- The files that `SendD2C_FwUpdateStatus` reads; a file that cannot be opened is empty. -/
structure StatusFiles where
  config : Text
  fwUpdateLog : Text

section Sending

variable (lib : JsonLibrary) (undefined : Text → Text)

/-- From the JSON text on, both senders do the same. -/
def sendText (text : Text) (cmdType : String) : D2CMessage where
  payload := Printf.boundedFormat undefined MAX_SEND_BUFFER_SIZE text
  properties := [(EventType.D2C_COMMAND, cmdType)]

def sendD2C_DeviceSettings (settings : DeviceSettings) (cmdType : String) : D2CMessage :=
  sendText undefined (settings.serialize lib) cmdType

/-- `config["softwareversion"]`; `none` where parsing or indexing throws. -/
def StatusFiles.softwareVersion (files : StatusFiles) : Option Json :=
  (lib.parse files.config).bind fun config => config.index "softwareversion"

def fwUpdateStatusMembers (files : StatusFiles) (deviceId status message : String)
    (version : Json) : List (String × Json) :=
  [("DeviceId", .string deviceId),
   ("FwUpdateStatus", .string status),
   ("Message", .string message),
   ("Log", .string (String.ofList files.fwUpdateLog)),
   ("Version", version)]

/-- The text `obj.dump()`; `none` where an exception ends the thread before it. -/
def fwUpdateStatusText (files : StatusFiles) (deviceId status message : String) : Option Text :=
  (files.softwareVersion lib).map fun version =>
    (Json.ofPairs (fwUpdateStatusMembers files deviceId status message version)).dump lib

def sendD2C_FwUpdateStatus (files : StatusFiles) (deviceId cmdType status message : String) :
    Option D2CMessage :=
  (fwUpdateStatusText lib files deviceId status message).map fun text =>
    sendText undefined text cmdType

end Sending

/-! ### Fidelity -/

def PercentFree (s : String) : Prop := '%' ∉ s.toList

section Fidelity

variable (lib : JsonLibrary)

/-- A serialized value is sent as it is exactly if none of its strings contains a
    `%` and it fits the buffer. -/
theorem payload_dump_iff (j : Json) (cmdType : String) :
    (∀ undefined, (sendText undefined (j.dump lib) cmdType).payload = j.dump lib) ↔
      (∀ s ∈ j.strings, PercentFree s) ∧ (j.dump lib).length < MAX_SEND_BUFFER_SIZE := by
  refine (Printf.boundedFormat_eq_self_iff (by decide) (Json.nul_notMem_dump lib j)).trans ?_
  rw [Json.percent_mem_dump]
  simp only [PercentFree, not_exists, not_and]

theorem Json.strings_ofInt (n : Int32) : (Json.ofInt n).strings = [] := by
  rw [Json.ofInt, Json.strings]

theorem Json.strings_ofDouble (x : Float) : (Json.ofDouble x).strings = [] := by
  unfold Json.ofDouble
  split <;> rw [Json.strings]

theorem percentFree_ofPairs_iff {pairs : List (String × Json)}
    (hpairs : (pairs.map Prod.fst).Nodup) (hkeys : ∀ key ∈ pairs.map Prod.fst, PercentFree key) :
    (∀ s ∈ (Json.ofPairs pairs).strings, PercentFree s) ↔
      ∀ p ∈ pairs, ∀ s ∈ p.2.strings, PercentFree s := by
  constructor
  · intro h p hp s hs
    exact h s ((Json.mem_strings_ofPairs hpairs).mpr ⟨p, hp, Or.inr hs⟩)
  · intro h s hs
    obtain ⟨p, hp, rfl | hs⟩ := (Json.mem_strings_ofPairs hpairs).mp hs
    · exact hkeys _ (List.mem_map_of_mem hp)
    · exact h p hp s hs

/-- Only the three string fields can bring a `%` into serialized settings. -/
theorem percentFree_settings_iff (settings : DeviceSettings) :
    (∀ s ∈ (Json.ofPairs settings.members).strings, PercentFree s) ↔
      PercentFree settings.deviceId ∧ PercentFree settings.stateName ∧
        PercentFree settings.currentCaptureName := by
  have hkeys : ∀ key ∈ settings.members.map Prod.fst, PercentFree key := by
    simp only [DeviceSettings.members, List.map_cons, List.map_nil, PercentFree]
    decide
  rw [percentFree_ofPairs_iff (by simp [DeviceSettings.members]) hkeys]
  simp only [DeviceSettings.members, List.forall_mem_cons, Json.strings, Json.strings_ofInt,
    Json.strings_ofDouble, List.not_mem_nil, false_imp_iff, implies_true, and_true, true_and]

theorem percentFree_status_iff (files : StatusFiles) (deviceId status message : String)
    (version : Json) :
    (∀ s ∈ (Json.ofPairs (fwUpdateStatusMembers files deviceId status message version)).strings,
        PercentFree s) ↔
      PercentFree deviceId ∧ PercentFree status ∧ PercentFree message ∧
        '%' ∉ files.fwUpdateLog ∧ ∀ s ∈ version.strings, PercentFree s := by
  have hkeys : ∀ key ∈ (fwUpdateStatusMembers files deviceId status message version).map Prod.fst,
      PercentFree key := by
    simp only [fwUpdateStatusMembers, List.map_cons, List.map_nil, PercentFree]
    decide
  have hlog : PercentFree (String.ofList files.fwUpdateLog) ↔ '%' ∉ files.fwUpdateLog := by
    rw [PercentFree, String.toList_ofList]
  rw [percentFree_ofPairs_iff (by simp [fwUpdateStatusMembers]) hkeys]
  simp only [fwUpdateStatusMembers, List.forall_mem_cons, Json.strings, List.not_mem_nil,
    false_imp_iff, implies_true, and_true, hlog]

/-- The text of these settings arrives as it is. -/
structure DeviceSettings.Printable (settings : DeviceSettings) : Prop where
  percentFree : PercentFree settings.deviceId ∧ PercentFree settings.stateName ∧
    PercentFree settings.currentCaptureName
  fits : (settings.serialize lib).length < MAX_SEND_BUFFER_SIZE

theorem payload_of_printable {settings : DeviceSettings} (h : settings.Printable lib)
    (undefined : Text → Text) (cmdType : String) :
    (sendD2C_DeviceSettings lib undefined settings cmdType).payload = settings.serialize lib := by
  have hpayload := payload_dump_iff lib (Json.ofPairs settings.members) cmdType
  exact hpayload.mpr ⟨(percentFree_settings_iff settings).mpr h.percentFree, h.fits⟩ undefined

/-- **When D2C payloads are the JSON text.**  Whatever `sprintf_s` does on an
    undefined conversion, both senders send the text of the object they built
    exactly if no string in it contains a `%` and it is shorter than the buffer. -/
theorem payload_eq_text_iff :
    (∀ (settings : DeviceSettings) (cmdType : String),
      (∀ undefined, (sendD2C_DeviceSettings lib undefined settings cmdType).payload =
          settings.serialize lib) ↔
        (PercentFree settings.deviceId ∧ PercentFree settings.stateName ∧
          PercentFree settings.currentCaptureName) ∧
        (settings.serialize lib).length < MAX_SEND_BUFFER_SIZE) ∧
    ∀ (files : StatusFiles) (deviceId cmdType status message : String),
      (∀ undefined,
        (sendD2C_FwUpdateStatus lib undefined files deviceId cmdType status message).map
            D2CMessage.payload =
          fwUpdateStatusText lib files deviceId status message) ↔
        ∀ version, files.softwareVersion lib = some version →
          (PercentFree deviceId ∧ PercentFree status ∧ PercentFree message ∧
            '%' ∉ files.fwUpdateLog ∧ ∀ s ∈ version.strings, PercentFree s) ∧
          ((Json.ofPairs
              (fwUpdateStatusMembers files deviceId status message version)).dump lib).length <
            MAX_SEND_BUFFER_SIZE := by
  constructor
  · intro settings cmdType
    rw [← percentFree_settings_iff settings]
    exact payload_dump_iff lib (Json.ofPairs settings.members) cmdType
  · intro files deviceId cmdType status message
    unfold sendD2C_FwUpdateStatus fwUpdateStatusText
    cases hversion : files.softwareVersion lib with
    | none => simp
    | some version =>
      simp only [Option.map_some, Option.some.injEq, forall_eq']
      rw [← percentFree_status_iff files deviceId status message version]
      exact payload_dump_iff lib _ cmdType

end Fidelity

def percentSettings : DeviceSettings := (Device.init "50%s" (.directory [])).settings

/-- They do not arrive as they are. -/
theorem payload_differs :
    ¬ ∀ undefined, (sendD2C_DeviceSettings (.ofTable []) undefined percentSettings
        CommandType.CAPTURE_UPLOADED).payload = percentSettings.serialize (.ofTable []) := by
  intro h
  have hfree := ((payload_dump_iff _ _ _).mp h).1
  exact absurd ((percentFree_settings_iff _).mp hfree).1 (by unfold PercentFree; decide)

end IsmDevice
