import IsmDevice.JsonCanonical
import IsmDevice.JsonStream
import IsmDevice.SettingsText

/-!
# The text of a firmware status

`SendD2C_FwUpdateStatus` reads `config.json` with the stream parser, and puts the version
that it finds there into its message as it is.  Nothing that the parser lets through keeps
the message from being read: this depends on the texts alone, the log among them, which
nobody has parsed.
-/

namespace IsmDevice

open Json

namespace JsonLibrary

/-- The library whose parser reads streams. -/
def withStreamParser (strtod : Text → Float) (lib : JsonLibrary) : JsonLibrary :=
  { lib with parse := fun text => (Json.parseStream strtod text).toOption }

theorem parse_withStreamParser_eq_some {strtod : Text → Float} {lib : JsonLibrary} {text : Text}
    {j : Json} :
    (lib.withStreamParser strtod).parse text = some j ↔ Json.parseStream strtod text = .ok j :=
  toOption_eq_some

end JsonLibrary

/-! ### Members of parsed values -/

namespace Json

theorem index_cases {values value : Json} {key : String} (h : values.index key = some value) :
    value = .null ∨ ∃ members, values = .object members ∧ (key, value) ∈ members := by
  cases values with
  | object members =>
    obtain rfl := Option.some.inj h
    cases hlookup : members.lookup key with
    | none => exact Or.inl rfl
    | some v =>
      obtain ⟨before, after, rfl, -⟩ := List.lookup_eq_some_iff.mp hlookup
      exact Or.inr ⟨_, rfl, List.mem_append_right _ List.mem_cons_self⟩
  | null => exact Or.inl (Option.some.inj h).symm
  | _ => cases h

theorem WellFormed.index {values value : Json} {key : String} (hvalues : values.WellFormed)
    (h : values.index key = some value) : value.WellFormed := by
  rcases index_cases h with rfl | ⟨members, rfl, hmem⟩
  · exact @wellFormed_of_derives (fun _ => 0) _ _ .null
  · exact ((wellFormed_object_iff.mp hvalues).2 _ hmem).2

theorem FiniteDoubles.index {values value : Json} {key : String} (hvalues : values.FiniteDoubles)
    (h : values.index key = some value) : value.FiniteDoubles := by
  rcases index_cases h with rfl | ⟨members, rfl, hmem⟩
  · exact finiteDoubles_of_nil (by rw [doubles])
  · exact finiteDoubles_object_iff.mp hvalues _ hmem

end Json

/-! ### The status -/

/-- The texts of a status are UTF-8. -/
structure StatusFiles.Utf8Texts (files : StatusFiles) (deviceId status message : String) :
    Prop where
  deviceId : Utf8String deviceId
  status : Utf8String status
  message : Utf8String message
  fwUpdateLog : Utf8String (String.ofList files.fwUpdateLog)

section Status

variable {strtod : Text → Float} {lib : JsonLibrary} {files : StatusFiles}
  {deviceId status message : String} {version : Json}

theorem nodup_statusKeys :
    ((fwUpdateStatusMembers files deviceId status message version).map Prod.fst).Nodup := by
  simp [fwUpdateStatusMembers]

theorem utf8_statusKeys :
    ∀ key ∈ (fwUpdateStatusMembers files deviceId status message version).map Prod.fst,
      Utf8String key := by
  have hascii : ∀ key ∈ (fwUpdateStatusMembers files deviceId status message version).map Prod.fst,
      (key.toList.all fun c => c.toNat ≤ 0x7F) = true := by
    simp only [fwUpdateStatusMembers, List.map_cons, List.map_nil]
    decide
  intro key hkey
  exact utf8String_of_ascii (hascii key hkey)

theorem utf8_status_iff (hversion : version.WellFormed) :
    (∀ s ∈ (ofPairs (fwUpdateStatusMembers files deviceId status message version)).strings,
        Utf8String s) ↔ files.Utf8Texts deviceId status message := by
  rw [forall_strings_ofPairs_iff nodup_statusKeys utf8_statusKeys]
  simp only [fwUpdateStatusMembers, List.forall_mem_cons, strings, List.not_mem_nil,
    false_imp_iff, implies_true, and_true]
  constructor
  · rintro ⟨hid, hstatus, hmessage, hlog, -⟩
    exact ⟨hid, hstatus, hmessage, hlog⟩
  · intro h
    exact ⟨h.deviceId, h.status, h.message, h.fwUpdateLog, hversion.utf8⟩

/-- The doubles of a status are those of its version. -/
theorem doubles_status {x : Float}
    (hx : x ∈ (ofPairs (fwUpdateStatusMembers files deviceId status message version)).doubles) :
    x ∈ version.doubles := by
  obtain ⟨p, hp, hx⟩ := (mem_doubles_ofPairs nodup_statusKeys).mp hx
  have hall : ∀ p ∈ fwUpdateStatusMembers files deviceId status message version,
      x ∈ p.2.doubles → x ∈ version.doubles := by
    simp [fwUpdateStatusMembers, doubles]
  exact hall p hp hx

/-- The version has been parsed. -/
theorem softwareVersion_parsed
    (h : files.softwareVersion (lib.withStreamParser strtod) = some version) :
    version.WellFormed ∧ version.FiniteDoubles := by
  obtain ⟨config, hparse, hindex⟩ := Option.bind_eq_some_iff.mp h
  have hconfig := JsonLibrary.parse_withStreamParser_eq_some.mp hparse
  constructor
  · exact (wellFormed_of_parse hconfig).index hindex
  · exact (finiteDoubles_of_derives (parse_eq_ok.mp hconfig)).index hindex

end Status

/-- **What a status says.**  Whatever is in `config.json` and in the log, the text of a
    status gives back its five members if the device id, the status, the message and the
    log are UTF-8, and is not read at all if one of them is not. -/
theorem fwUpdateStatusText_decides (strtod : Text → Float) (lib : JsonLibrary)
    (hnumber : ∀ x : Float, x.isFinite = true → lib.printDouble x ∈ Grammar.number)
    (files : StatusFiles) (deviceId status message : String) {text : Text}
    (htext : fwUpdateStatusText (lib.withStreamParser strtod) files deviceId status message =
      some text) :
    (files.Utf8Texts deviceId status message → ∃ values version, parse strtod text = .ok values ∧
      values.stringAt "DeviceId" = some deviceId ∧
      values.stringAt "FwUpdateStatus" = some status ∧
      values.stringAt "Message" = some message ∧
      values.stringAt "Log" = some (String.ofList files.fwUpdateLog) ∧
      files.softwareVersion (lib.withStreamParser strtod) = some version ∧
      values.index "Version" = some (version.readBack strtod (lib.withStreamParser strtod))) ∧
    (¬ files.Utf8Texts deviceId status message →
      ∃ what, parse strtod text = .error (.invalidArgument what)) := by
  obtain ⟨version, hversion, rfl⟩ := Option.map_eq_some_iff.mp htext
  obtain ⟨hwell, hfinite⟩ := softwareVersion_parsed hversion
  have hnumerals : Numerals (lib.withStreamParser strtod)
      (ofPairs (fwUpdateStatusMembers files deviceId status message version)).doubles :=
    fun x hx => hnumber x (hfinite x (doubles_status hx))
  constructor
  · intro hutf8
    have hparse := @parse_dump_utf8 strtod _ _ ((utf8_status_iff hwell).mpr hutf8) hnumerals
    obtain ⟨ms, hobject, hlookup⟩ := @readBack_ofPairs strtod (lib.withStreamParser strtod) _
      (@nodup_statusKeys files deviceId status message version)
    rw [hobject] at hparse
    simp only [fwUpdateStatusMembers, List.forall_mem_cons] at hlookup
    obtain ⟨hid, hstatus, hmessage, hlog, hlast, -⟩ := hlookup
    refine ⟨_, version, hparse, DeviceSettings.stringAt_of_lookup hid,
      DeviceSettings.stringAt_of_lookup hstatus, DeviceSettings.stringAt_of_lookup hmessage,
      DeviceSettings.stringAt_of_lookup hlog, hversion, ?_⟩
    rw [index, hlast, Option.getD_some]
  · intro hnot
    rw [← utf8_status_iff hwell] at hnot
    simp only [not_forall] at hnot
    obtain ⟨u, hu, hnot⟩ := hnot
    exact parse_dump_not_utf8 ⟨u, hu, hnot⟩ hnumerals

theorem fwUpdateStatusText_decides_completed :
    let lib := (JsonLibrary.ofTable []).withStreamParser fun _ => 0
    let files : StatusFiles := ⟨"\x7b\"softwareversion\":\"1.2\"\x7d".toList, "done\n".toList⟩
    ∃ text values version, fwUpdateStatusText lib files "d1" "Firmware Update completed" "Success" =
        some text ∧
      parse (fun _ => 0) text = .ok values ∧
      values.stringAt "DeviceId" = some "d1" ∧
      values.stringAt "FwUpdateStatus" = some "Firmware Update completed" ∧
      values.stringAt "Message" = some "Success" ∧
      values.stringAt "Log" = some (String.ofList files.fwUpdateLog) ∧
      files.softwareVersion lib = some version ∧
      values.index "Version" = some (version.readBack (fun _ => 0) lib) := by
  intro lib files
  have htext : fwUpdateStatusText lib files "d1" "Firmware Update completed" "Success" =
      some ((ofPairs (fwUpdateStatusMembers files "d1" "Firmware Update completed" "Success"
        (.string "1.2"))).dump lib) := rfl
  have hlog : Utf8String (String.ofList files.fwUpdateLog) := by
    rw [Utf8String, String.toList_ofList]
    exact utf8String_of_ascii rfl
  obtain ⟨values, version, h⟩ := (fwUpdateStatusText_decides (fun _ => 0) (.ofTable [])
    (fun _ _ => zero_mem_number) files "d1" "Firmware Update completed" "Success" htext).1
    ⟨utf8String_of_ascii rfl, utf8String_of_ascii rfl, utf8String_of_ascii rfl, hlog⟩
  exact ⟨_, values, version, htext, h⟩

end IsmDevice
