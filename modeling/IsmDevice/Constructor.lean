import IsmDevice.ConnectionString
import IsmDevice.JsonStream
import IsmDevice.SettingsText

/-!
# The constructor of the device

`Device::Device` reads its configuration from a file, or from the settings that the TPM
has decrypted, takes six strings from it and cuts the device id out of one of them.  An
exception on the way ends the program.

The id is cut out by bytes.  Behind `DeviceId=` it is UTF-8 as all of the configuration is,
but where that is missing it begins at the ninth byte of the connection string, which may
be in the middle of a character.  Then no report of this device can ever be read.
-/

namespace IsmDevice

open Json

/-! ### The configuration -/

/-- Where the configuration is: in the file that is named after `-f`, or in the C string
    that `DeviceCrypto_Decrypt` has made. -/
inductive ConfigSource where
  | file (content : Text)
  | decrypted (jsonString : Text)

/-- The strings that the constructor takes from the configuration. -/
structure DeviceConfig where
  connectionString : String
  storageConnectionString : String
  storageAccount : String
  storageContainer : String
  fwUpdateContainer : String
  publicKeyUrl : String
deriving DecidableEq, Repr

section Constructor

variable (strtod : Text → Float)

def ConfigSource.devSettings : ConfigSource → Except Json.Failure Json
  | .file content => parseStream strtod content
  | .decrypted jsonString => parse strtod (Printf.cString jsonString)

/-- The conversions stand in this order; `none` is the exception of the first that fails. -/
def DeviceConfig.ofJson (devSettings : Json) : Option DeviceConfig := do
  let connectionString ← devSettings.stringAt "ConnectionString"
  let storageConnectionString ← devSettings.stringAt "StorageConnectionString"
  let storageAccount ← devSettings.stringAt "StorageAccount"
  let storageContainer ← devSettings.stringAt "StorageContainer"
  let fwUpdateContainer ← devSettings.stringAt "FwUpdateContainer"
  let publicKeyUrl ← devSettings.stringAt "PublicKeyUrl"
  return ⟨connectionString, storageConnectionString, storageAccount, storageContainer,
    fwUpdateContainer, publicKeyUrl⟩

def ConfigSource.config (source : ConfigSource) : Option DeviceConfig :=
  (source.devSettings strtod).toOption.bind DeviceConfig.ofJson

/-- `Device::Device`, but for its check for a firmware update; `none` is an exception. -/
def Device.construct (source : ConfigSource) (hardware : Hardware) : Option Device := do
  let config ← source.config strtod
  let deviceId ← Device.getDeviceId config.connectionString.toList
  return Device.init (String.ofList deviceId) hardware

end Constructor

/-! ### When there is a configuration -/

def DeviceConfig.keys : List String :=
  ["ConnectionString", "StorageConnectionString", "StorageAccount", "StorageContainer",
   "FwUpdateContainer", "PublicKeyUrl"]

/-- What the scanner gets to see. -/
def ConfigSource.text : ConfigSource → Text
  | .file content => Printf.cString (withoutMark content)
  | .decrypted jsonString => Printf.cString jsonString

section Config

variable {strtod : Text → Float} {source : ConfigSource} {config : DeviceConfig}

theorem devSettings_eq_ok {j : Json} :
    source.devSettings strtod = .ok j ↔ Derives strtod (.element j) source.text := by
  cases source with
  | file content =>
    rw [ConfigSource.devSettings, parseStream_iff, parse_eq_ok, ConfigSource.text]
  | decrypted jsonString =>
    rw [ConfigSource.devSettings, parse_eq_ok, ConfigSource.text,
      Printf.cString_eq_self (nul_notMem_cString jsonString)]

theorem ofJson_eq_some {devSettings : Json} :
    DeviceConfig.ofJson devSettings = some config ↔
      devSettings.stringAt "ConnectionString" = some config.connectionString ∧
      devSettings.stringAt "StorageConnectionString" = some config.storageConnectionString ∧
      devSettings.stringAt "StorageAccount" = some config.storageAccount ∧
      devSettings.stringAt "StorageContainer" = some config.storageContainer ∧
      devSettings.stringAt "FwUpdateContainer" = some config.fwUpdateContainer ∧
      devSettings.stringAt "PublicKeyUrl" = some config.publicKeyUrl := by
  obtain ⟨a, b, c, d, e, f⟩ := config
  simp only [DeviceConfig.ofJson, Option.bind_eq_bind, Option.bind_eq_some_iff, Option.pure_def,
    Option.some.injEq, DeviceConfig.mk.injEq]
  constructor
  · rintro ⟨_, ha, _, hb, _, hc, _, hd, _, he, _, hf, rfl, rfl, rfl, rfl, rfl, rfl⟩
    exact ⟨ha, hb, hc, hd, he, hf⟩
  · rintro ⟨ha, hb, hc, hd, he, hf⟩
    exact ⟨_, ha, _, hb, _, hc, _, hd, _, he, _, hf, rfl, rfl, rfl, rfl, rfl, rfl⟩

theorem config_eq_some :
    source.config strtod = some config ↔
      ∃ j, Derives strtod (.element j) source.text ∧ DeviceConfig.ofJson j = some config := by
  simp only [ConfigSource.config, Option.bind_eq_some_iff, toOption_eq_some, devSettings_eq_ok]

/-- What the constructor takes are the strings under the six names. -/
theorem config_iff_lookup :
    source.config strtod = some config ↔
      ∃ members, Derives strtod (.element (.object members)) source.text ∧
        members.lookup "ConnectionString" = some (.string config.connectionString) ∧
        members.lookup "StorageConnectionString" = some (.string config.storageConnectionString) ∧
        members.lookup "StorageAccount" = some (.string config.storageAccount) ∧
        members.lookup "StorageContainer" = some (.string config.storageContainer) ∧
        members.lookup "FwUpdateContainer" = some (.string config.fwUpdateContainer) ∧
        members.lookup "PublicKeyUrl" = some (.string config.publicKeyUrl) := by
  rw [config_eq_some]
  constructor
  · rintro ⟨j, hderives, hj⟩
    have hstrings := ofJson_eq_some.mp hj
    obtain ⟨members, rfl⟩ := exists_object_of_stringAt hstrings.1
    simp only [stringAt_object_iff] at hstrings
    exact ⟨members, hderives, hstrings⟩
  · rintro ⟨members, hderives, hstrings⟩
    refine ⟨.object members, hderives, ofJson_eq_some.mpr ?_⟩
    simp only [stringAt_object_iff]
    exact hstrings

theorem utf8_connectionString (h : source.config strtod = some config) :
    Utf8String config.connectionString := by
  obtain ⟨j, hderives, hj⟩ := config_eq_some.mp h
  exact DeviceSettings.utf8_of_stringAt (wellFormed_of_derives hderives) (ofJson_eq_some.mp hj).1

end Config

/-! ### Where the id is cut out -/

section DeviceId

variable {text id : Text}

theorem eight_le_of_occurs (h : searchPattern <:+: text) : 8 ≤ text.length := by
  have hlength : searchPattern.length = 9 := rfl
  have hle := h.length_le
  omega

theorem exists_deviceId_iff (hfits : CppString.Fits text) :
    (∃ id, Device.getDeviceId text = some id) ↔ 8 ≤ text.length := by
  rw [getDeviceId_eq hfits]
  cases hafter : CppString.after searchPattern text with
  | some w =>
    refine iff_of_true ⟨_, rfl⟩ (eight_le_of_occurs ?_)
    obtain ⟨front, rfl⟩ := CppString.exists_of_after hafter
    exact ⟨front, w, List.append_assoc _ _ _⟩
  | none =>
    dsimp only
    split_ifs with hlength
    · exact iff_of_true ⟨_, rfl⟩ hlength
    · exact iff_of_false (by simp) hlength

theorem encoded_upTo (h : Utf8.Encoded (codes text)) :
    Utf8.Encoded (codes (CppString.upTo ';' text)) := by
  obtain ⟨rest, heq, hrest⟩ := CppString.exists_upTo ';' text
  have hsplit := congrArg codes heq
  rw [Lexer.codes_append] at hsplit
  rw [hsplit] at h
  rcases hrest with rfl | ⟨more, rfl⟩
  · rwa [codes, codes, List.map_nil, List.append_nil] at h
  · exact ((Utf8.encoded_append_ascii (by decide)).mp h).1

/-- A cut at the ninth byte is UTF-8 if a character begins there. -/
theorem encoded_upTo_drop_iff (h : Utf8.Encoded (codes text)) (n : Nat) :
    Utf8.Encoded (codes (CppString.upTo ';' (text.drop n))) ↔
      ∀ c, text[n]? = some c → ¬ Utf8.Tail c.toNat := by
  constructor
  · intro hid c hc
    obtain ⟨hn, rfl⟩ := List.getElem?_eq_some_iff.mp hc
    rw [List.drop_eq_getElem_cons hn, CppString.upTo] at hid
    exact Utf8.not_tail_of_encoded hid
  · intro hcut
    apply encoded_upTo
    rw [codes, List.map_drop]
    refine (Utf8.encoded_drop_iff h n).mpr ?_
    intro b hb
    rw [codes, List.getElem?_map] at hb
    obtain ⟨c, hc, rfl⟩ := Option.map_eq_some_iff.mp hb
    exact hcut c hc

/-- A character begins where the id does. -/
def CutsClean (text : Text) : Prop :=
  searchPattern <:+: text ∨ ∀ c, text[8]? = some c → ¬ Utf8.Tail c.toNat

theorem encoded_deviceId_iff (hfits : CppString.Fits text) (h : Utf8.Encoded (codes text))
    (hid : Device.getDeviceId text = some id) : Utf8.Encoded (codes id) ↔ CutsClean text := by
  rw [getDeviceId_eq hfits] at hid
  cases hafter : CppString.after searchPattern text with
  | some w =>
    rw [hafter] at hid
    obtain rfl := Option.some.inj hid
    obtain ⟨front, rfl⟩ := CppString.exists_of_after hafter
    have hpattern : ∀ x ∈ codes searchPattern, x ≤ 0x7F := by decide
    rw [Lexer.codes_append, Lexer.codes_append,
      Utf8.encoded_append_ascii_append (by decide) hpattern] at h
    exact iff_of_true (encoded_upTo h.2) (Or.inl ⟨front, w, List.append_assoc _ _ _⟩)
  | none =>
    rw [hafter] at hid
    dsimp only at hid
    split_ifs at hid
    obtain rfl := Option.some.inj hid
    rw [encoded_upTo_drop_iff h, CutsClean,
      or_iff_right (CppString.after_eq_none_iff.mp hafter)]

end DeviceId

/-! ### The device -/

/-- **When the program starts.**  The constructor ends exactly if the configuration is an
    object in which the last member of each of the six names is a string, and the
    connection string has eight bytes. -/
theorem construct_iff (strtod : Text → Float) (source : ConfigSource) (hardware : Hardware)
    (hfits : ∀ config, source.config strtod = some config →
      CppString.Fits config.connectionString.toList) :
    (∃ d, Device.construct strtod source hardware = some d) ↔
      ∃ members, Derives strtod (.element (.object members)) source.text ∧
        (∀ key ∈ DeviceConfig.keys, ∃ s, members.lookup key = some (.string s)) ∧
        ∀ s, members.lookup "ConnectionString" = some (.string s) → 8 ≤ s.toList.length := by
  have hconstruct : (∃ d, Device.construct strtod source hardware = some d) ↔
      ∃ config, source.config strtod = some config ∧ 8 ≤ config.connectionString.toList.length := by
    simp only [Device.construct, Option.bind_eq_bind, Option.bind_eq_some_iff, Option.pure_def]
    constructor
    · rintro ⟨_, config, hconfig, id, hid, -⟩
      exact ⟨config, hconfig, (exists_deviceId_iff (hfits config hconfig)).mp ⟨id, hid⟩⟩
    · rintro ⟨config, hconfig, hlength⟩
      obtain ⟨id, hid⟩ := (exists_deviceId_iff (hfits config hconfig)).mpr hlength
      exact ⟨_, config, hconfig, id, hid, rfl⟩
  simp only [hconstruct, config_iff_lookup, DeviceConfig.keys, List.forall_mem_cons,
    List.not_mem_nil, false_imp_iff, implies_true, and_true]
  constructor
  · rintro ⟨config, ⟨members, hderives, ha, hb, hc, hd, he, hf⟩, hlength⟩
    refine ⟨members, hderives, ⟨⟨_, ha⟩, ⟨_, hb⟩, ⟨_, hc⟩, ⟨_, hd⟩, ⟨_, he⟩, ⟨_, hf⟩⟩, ?_⟩
    intro s hs
    rw [ha] at hs
    obtain rfl := Json.string.inj (Option.some.inj hs)
    exact hlength
  · rintro ⟨members, hderives, ⟨⟨a, ha⟩, ⟨b, hb⟩, ⟨c, hc⟩, ⟨d, hd⟩, ⟨e, he⟩, ⟨f, hf⟩⟩, hlength⟩
    exact ⟨⟨a, b, c, d, e, f⟩, ⟨members, hderives, ha, hb, hc, hd, he, hf⟩, hlength a ha⟩

/-! A configuration with a byte order mark. -/

def sampleSource : ConfigSource := .file
  ("\xEF\xBB\xBF\x7b\"ConnectionString\":\"HostName=h;DeviceId=d1\",\"StorageAccount\":\"a\"," ++
    "\"StorageConnectionString\":\"s\",\"StorageContainer\":\"c\",\"FwUpdateContainer\":\"f\"," ++
    "\"PublicKeyUrl\":\"u\"\x7d").toList

def sampleConfig : DeviceConfig := ⟨"HostName=h;DeviceId=d1", "s", "a", "c", "f", "u"⟩

theorem config_sample : sampleSource.config (fun _ => 0) = some sampleConfig := by
  decide +kernel

theorem construct_iff_sample :
    (∃ d, Device.construct (fun _ => 0) sampleSource (.directory []) = some d) ↔
      ∃ members, Derives (fun _ => 0) (.element (.object members)) sampleSource.text ∧
        (∀ key ∈ DeviceConfig.keys, ∃ s, members.lookup key = some (.string s)) ∧
        ∀ s, members.lookup "ConnectionString" = some (.string s) → 8 ≤ s.toList.length := by
  apply construct_iff
  intro config hconfig
  rw [config_sample] at hconfig
  obtain rfl := Option.some.inj hconfig
  decide

/-- **What the back end can read of a device depends on its configuration.**  In every run
    of a device that was constructed, whatever bodies it is sent, its settings can be read
    in every state exactly if the device id is cut out of the connection string where a
    character begins and the names of all captures are UTF-8. -/
theorem constructed_readable (strtod : Text → Float) (lib : JsonLibrary)
    (hnumber : ∀ x : Float, x.isFinite = true → lib.printDouble x ∈ Grammar.number)
    {source : ConfigSource} {config : DeviceConfig} {hardware : Hardware} {d : Device}
    (hconfig : source.config strtod = some config)
    (hfits : CppString.Fits config.connectionString.toList)
    (hd : Device.construct strtod source hardware = some d) (events : List Event) :
    (Device.machine (lib.withParser strtod)).AllStates
        (fun d => ∃ values,
          parse strtod (d.settings.serialize (lib.withParser strtod)) = .ok values)
        d events ↔
      CutsClean config.connectionString.toList ∧
        ∀ blobname, Event.notification blobname ∈ events → Utf8String blobname := by
  simp only [Device.construct, hconfig, Option.bind_eq_bind, Option.bind_some,
    Option.bind_eq_some_iff, Option.pure_def, Option.some.injEq] at hd
  obtain ⟨id, hid, rfl⟩ := hd
  have hdeviceId : Utf8String (String.ofList id) ↔ CutsClean config.connectionString.toList := by
    rw [Utf8String, String.toList_ofList]
    exact encoded_deviceId_iff hfits (utf8_connectionString hconfig) hid
  rw [Device.allStates_readable_iff hnumber, Device.utf8_init_iff, hdeviceId]

theorem constructed_readable_sample :
    (Device.machine ((JsonLibrary.ofTable []).withParser fun _ => 0)).AllStates
        (fun d => ∃ values, parse (fun _ => 0)
          (d.settings.serialize ((JsonLibrary.ofTable []).withParser fun _ => 0)) = .ok values)
        (Device.init "d1" (.directory [])) [.notification "captures/c1.png"] ↔
      CutsClean sampleConfig.connectionString.toList ∧
        ∀ blobname, Event.notification blobname ∈ [Event.notification "captures/c1.png"] →
          Utf8String blobname :=
  constructed_readable (fun _ => 0) (.ofTable []) (fun _ _ => zero_mem_number) config_sample
    (by decide) (by rw [Device.construct, config_sample]; rfl) [.notification "captures/c1.png"]

end IsmDevice
