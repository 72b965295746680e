import IsmDevice.Deserialize
import IsmDevice.JsonRoundTrip
import IsmDevice.Protocol
import IsmDevice.Telemetry

/-!
# Settings through the parser

What the round trip of JSON values says of the settings, with the parser of the source
in the place of the library's: the text of settings gives them back if their strings are
UTF-8, and otherwise it changes nothing.

A device gets no such string from a message, since the parser gives none.  It gets them
from the names of captures, which are the names of files.
-/

namespace IsmDevice

open Transition Json

/-! ### Objects of distinct keys -/

namespace Json

/-- `emplace` keeps a key that is there, and otherwise assigns to it. -/
theorem emplace_cases (key : String) (value : Json) (members : List (String × Json)) :
    emplace key value members = members ∨ emplace key value members = assign key value members := by
  induction members with
  | nil => exact Or.inr rfl
  | cons head rest ih =>
    obtain ⟨k, v⟩ := head
    rw [emplace, assign]
    split_ifs with heq hlt
    · exact Or.inl rfl
    · exact Or.inr rfl
    · exact ih.imp (congrArg ((k, v) :: ·)) (congrArg ((k, v) :: ·))

theorem sortedKeys_emplace {key : String} {value : Json} {members : List (String × Json)}
    (h : SortedKeys members) : SortedKeys (emplace key value members) := by
  rcases emplace_cases key value members with heq | heq
  · rwa [heq]
  · rw [heq]
    exact sortedKeys_assign h

theorem sortedKeys_foldl_emplace {pairs members : List (String × Json)} (h : SortedKeys members) :
    SortedKeys (pairs.foldl (fun members pair => emplace pair.1 pair.2 members) members) := by
  induction pairs generalizing members with
  | nil => exact h
  | cons pair rest ih => exact ih (sortedKeys_emplace h)

theorem lookup_readBackMembers {strtod : Text → Float} {lib : JsonLibrary} (key : String)
    (members : List (String × Json)) :
    (readBackMembers strtod lib members).lookup key =
      (members.lookup key).map (readBack strtod lib) := by
  induction members with
  | nil => rfl
  | cons m rest ih =>
    obtain ⟨k, v⟩ := m
    rw [readBackMembers, List.lookup_cons, List.lookup_cons, ih]
    cases key == k <;> rfl

/-- The members of an object that was built from pairs, as they are read back. -/
theorem readBack_ofPairs {strtod : Text → Float} {lib : JsonLibrary} {pairs : List (String × Json)}
    (hpairs : (pairs.map Prod.fst).Nodup) :
    ∃ members, (ofPairs pairs).readBack strtod lib = .object members ∧
      ∀ p ∈ pairs, members.lookup p.1 = some (p.2.readBack strtod lib) := by
  obtain ⟨members, hobject, hlookup⟩ := lookup_ofPairs hpairs
  have hsorted : SortedKeys members := by
    rw [ofPairs] at hobject
    rw [← Json.object.inj hobject]
    exact sortedKeys_foldl_emplace List.Pairwise.nil
  refine ⟨readBackMembers strtod lib members, ?_, ?_⟩
  · rw [hobject, readBack, assignAll_of_sorted (sortedKeys_readBackMembers hsorted)]
  · intro p hp
    rw [lookup_readBackMembers, hlookup p hp, Option.map_some]

/-- What the keys are, all strings are if those of the values are. -/
theorem forall_strings_ofPairs_iff {P : String → Prop} {pairs : List (String × Json)}
    (hpairs : (pairs.map Prod.fst).Nodup) (hkeys : ∀ key ∈ pairs.map Prod.fst, P key) :
    (∀ s ∈ (ofPairs pairs).strings, P s) ↔ ∀ p ∈ pairs, ∀ s ∈ p.2.strings, P s := by
  constructor
  · intro h p hp s hs
    exact h s ((mem_strings_ofPairs hpairs).mpr ⟨p, hp, Or.inr hs⟩)
  · intro h s hs
    obtain ⟨p, hp, rfl | hs⟩ := (mem_strings_ofPairs hpairs).mp hs
    · exact hkeys _ (List.mem_map_of_mem hp)
    · exact h p hp s hs

theorem mem_doubles_ofPairs {pairs : List (String × Json)} (hpairs : (pairs.map Prod.fst).Nodup)
    {x : Float} : x ∈ (ofPairs pairs).doubles ↔ ∃ p ∈ pairs, x ∈ p.2.doubles := by
  have hmem := @mem_foldl_emplace pairs [] hpairs (fun _ _ _ hm => absurd hm List.not_mem_nil)
  rw [ofPairs, doubles, mem_doublesOfMembers]
  simp only [hmem, List.not_mem_nil, or_false]

end Json

namespace DeviceSettings

/-! ### The text of settings -/

/-- The three strings of settings are UTF-8. -/
structure Utf8Strings (s : DeviceSettings) : Prop where
  deviceId : Utf8String s.deviceId
  stateName : Utf8String s.stateName
  currentCaptureName : Utf8String s.currentCaptureName

def doubles (s : DeviceSettings) : List Float :=
  [s.varianceThreshold, s.distanceMapThreshold, s.rgThreshold, s.restrictedFillingThreshold,
    s.dilateValue, s.exposure]

theorem nodup_keys (s : DeviceSettings) : (s.members.map Prod.fst).Nodup := by
  simp only [members, List.map_cons, List.map_nil]
  decide

theorem utf8_keys (s : DeviceSettings) : ∀ key ∈ s.members.map Prod.fst, Utf8String key := by
  have hascii : ∀ key ∈ s.members.map Prod.fst,
      (key.toList.all fun c => c.toNat ≤ 0x7F) = true := by
    simp only [members, List.map_cons, List.map_nil]
    decide
  intro key hkey
  exact utf8String_of_ascii (hascii key hkey)

theorem utf8_strings_iff (s : DeviceSettings) :
    (∀ t ∈ (ofPairs s.members).strings, Utf8String t) ↔ s.Utf8Strings := by
  rw [forall_strings_ofPairs_iff s.nodup_keys s.utf8_keys]
  simp only [members, List.forall_mem_cons, strings, strings_ofInt, strings_ofDouble,
    List.not_mem_nil, false_imp_iff, implies_true, and_true, true_and]
  constructor
  · rintro ⟨hid, hname, hcapture⟩
    exact ⟨hid, hname, hcapture⟩
  · intro h
    exact ⟨h.deviceId, h.stateName, h.currentCaptureName⟩

theorem doubles_ofDouble {x y : Float} (h : y ∈ (ofDouble x).doubles) :
    y = x ∧ x.isFinite = true := by
  rw [ofDouble] at h
  split_ifs at h with hfinite
  · rw [Json.doubles, List.mem_singleton] at h
    exact ⟨h, hfinite⟩
  · rw [Json.doubles] at h
    cases h

theorem doubles_ofInt (n : Int32) : (ofInt n).doubles = [] := by
  rw [ofInt, Json.doubles]

/-- The doubles in the text are the finite ones of the settings. -/
theorem mem_doubles_members {s : DeviceSettings} {x : Float}
    (h : x ∈ (ofPairs s.members).doubles) : x ∈ s.doubles ∧ x.isFinite = true := by
  have hall : ∀ p ∈ s.members, ∀ y ∈ p.2.doubles, y ∈ s.doubles ∧ y.isFinite = true := by
    simp only [members, List.forall_mem_cons, Json.doubles, doubles_ofInt, List.not_mem_nil,
      false_imp_iff, implies_true, and_true, true_and]
    refine ⟨?_, ?_, ?_, ?_, ?_, ?_⟩
    all_goals
      intro y hy
      obtain ⟨rfl, hfinite⟩ := doubles_ofDouble hy
      exact ⟨by simp [doubles], hfinite⟩
  obtain ⟨p, hp, hx⟩ := (mem_doubles_ofPairs s.nodup_keys).mp h
  exact hall p hp x hx

section ReadBack

variable {strtod : Text → Float} {lib : JsonLibrary} {ms : List (String × Json)} {key : String}

theorem getInt_readBack (n : Int32) : ((ofInt n).readBack strtod lib).getInt = some n := by
  have hnormal : (ofInt n).readBack strtod lib = (ofInt n).normal := by
    rw [ofInt, readBack, normal]
  rw [hnormal, getInt_normal, ofInt, getInt, Int32.toInt32_toInt64]

theorem stringAt_of_lookup {x : String}
    (h : ms.lookup key = some ((Json.string x).readBack strtod lib)) :
    (Json.object ms).stringAt key = some x := by
  rw [stringAt_object_iff, h, readBack]

theorem intAt_of_lookup {n : Int32} (h : ms.lookup key = some ((ofInt n).readBack strtod lib)) :
    (Json.object ms).intAt key = some n := by
  rw [intAt, index, h, Option.getD_some, Option.bind_some, getInt_readBack]

variable (strtod lib) in
/-- The double is a number in the text, and that number as a `double` is the same. -/
structure ReadsBack (x : Float) : Prop where
  finite : x.isFinite = true
  number : lib.printDouble x ∈ Grammar.number
  value : (Lexer.getNumber strtod (lib.printDouble x)).getDouble = some x

theorem doubleAt_of_lookup {x : Float} (hx : ReadsBack strtod lib x)
    (h : ms.lookup key = some ((ofDouble x).readBack strtod lib)) :
    (Json.object ms).doubleAt key = some x := by
  rw [ofDouble, if_pos hx.finite, readBack] at h
  rw [doubleAt, index, h, Option.getD_some, Option.bind_some, hx.value]

/-- The text gives all fourteen members. -/
theorem gives_readBack {s : DeviceSettings} (hdoubles : ∀ x ∈ s.doubles, ReadsBack strtod lib x) :
    TryBlock.Gives ((ofPairs s.members).readBack strtod lib) writes s := by
  obtain ⟨ms, hobject, hlookup⟩ := @readBack_ofPairs strtod lib _ s.nodup_keys
  rw [hobject]
  simp only [doubles, List.forall_mem_cons, List.not_mem_nil, false_imp_iff, implies_true,
    and_true] at hdoubles
  obtain ⟨h₁, h₂, h₃, h₄, h₅, h₆⟩ := hdoubles
  simp only [members, List.forall_mem_cons] at hlookup
  obtain ⟨a₁, a₂, a₃, a₄, a₅, a₆, a₇, a₈, a₉, a₁₀, a₁₁, a₁₂, a₁₃, a₁₄, -⟩ := hlookup
  simp only [TryBlock.Gives, writes, List.forall_mem_cons]
  refine ⟨stringAt_of_lookup a₁, stringAt_of_lookup a₂, intAt_of_lookup a₃,
    stringAt_of_lookup a₄, doubleAt_of_lookup h₁ a₅, doubleAt_of_lookup h₂ a₆,
    doubleAt_of_lookup h₃ a₇, doubleAt_of_lookup h₄ a₈, doubleAt_of_lookup h₅ a₉,
    intAt_of_lookup a₁₀, doubleAt_of_lookup h₆ a₁₁, intAt_of_lookup a₁₂,
    intAt_of_lookup a₁₃, intAt_of_lookup a₁₄, ?_⟩
  simp

end ReadBack

/-- The text of settings that are UTF-8 gives them back. -/
theorem deserialize_of_utf8 {strtod : Text → Float} {lib : JsonLibrary} {s : DeviceSettings}
    (hdoubles : ∀ x ∈ s.doubles, ReadsBack strtod lib x) (hutf8 : s.Utf8Strings)
    (t : DeviceSettings) :
    t.deserialize (lib.withParser strtod) (s.serialize (lib.withParser strtod)) = s := by
  have hnumber : Numerals (lib.withParser strtod) (ofPairs s.members).doubles :=
    fun x hx => (hdoubles x (mem_doubles_members hx).1).number
  have hback : ∀ x ∈ s.doubles, ReadsBack strtod (lib.withParser strtod) x :=
    fun x hx => ⟨(hdoubles x hx).finite, (hdoubles x hx).number, (hdoubles x hx).value⟩
  have hparse := @parse_dump_utf8 strtod _ _ (s.utf8_strings_iff.mpr hutf8) hnumber
  have hdescribes : Describes (lib.withParser strtod) (s.serialize (lib.withParser strtod)) s :=
    ⟨_, JsonLibrary.parse_withParser_eq_some.mpr hparse, gives_readBack hback⟩
  exact deserialize_of_describes hdescribes t

/-- **The round trip of settings.**  Deserialized into whatever settings, the text of
    settings whose doubles read back replaces them by its own, if its strings are UTF-8,
    and leaves them as they were if one is not. -/
theorem deserialize_text (strtod : Text → Float) (lib : JsonLibrary) (s t : DeviceSettings)
    (hdoubles : ∀ x ∈ s.doubles, ReadsBack strtod lib x) :
    (s.Utf8Strings →
      t.deserialize (lib.withParser strtod) (s.serialize (lib.withParser strtod)) = s) ∧
    (¬ s.Utf8Strings →
      t.deserialize (lib.withParser strtod) (s.serialize (lib.withParser strtod)) = t) := by
  constructor
  · intro hutf8
    exact deserialize_of_utf8 hdoubles hutf8 t
  · intro hnot
    have hnumber : Numerals (lib.withParser strtod) (ofPairs s.members).doubles :=
      fun x hx => (hdoubles x (mem_doubles_members hx).1).number
    rw [← utf8_strings_iff] at hnot
    simp only [not_forall] at hnot
    obtain ⟨u, hu, hnot⟩ := hnot
    obtain ⟨what, hparse⟩ := @parse_dump_not_utf8 strtod _ _ ⟨u, hu, hnot⟩ hnumber
    exact deserialize_none (JsonLibrary.parse_withParser_eq_none hparse) t

theorem deserialize_text_sample :
    let lib := JsonLibrary.ofTable []
    let t : DeviceSettings := { sample with deviceId := "d2", current := 0 }
    t.deserialize (lib.withParser fun _ => 0.0) (sample.serialize (lib.withParser fun _ => 0.0)) =
      sample := by
  intro lib t
  have hzero : ReadsBack (fun _ => 0.0) lib 0.0 := by
    have hfinite : (0.0 : Float).isFinite = true := by decide +kernel
    have hread : Lexer.getNumber (fun _ => 0.0) ['0', '.', '0'] =
        Lexer.readDouble (fun _ => 0.0) ['0', '.', '0'] := rfl
    refine ⟨hfinite, zero_mem_number, ?_⟩
    rw [show lib.printDouble 0.0 = ['0', '.', '0'] from rfl, hread, Lexer.readDouble,
      if_pos hfinite, getDouble]
  have hdoubles : ∀ x ∈ sample.doubles, ReadsBack (fun _ => 0.0) lib x := by
    intro x hx
    have heq : x = 0.0 := by simpa [doubles, sample] using hx
    exact heq ▸ hzero
  apply (deserialize_text (fun _ => 0.0) lib sample t hdoubles).1
  exact ⟨utf8String_of_ascii rfl, utf8String_of_ascii rfl, Utf8.encoded_nil⟩

/-! ### Runs -/

section Runs

variable {strtod : Text → Float} {lib : JsonLibrary}

theorem utf8_of_stringAt {values : Json} {key x : String} (h : values.WellFormed)
    (hx : values.stringAt key = some x) : Utf8String x := by
  obtain ⟨ms, rfl⟩ := exists_object_of_stringAt hx
  obtain ⟨before, after, rfl, _⟩ := List.lookup_eq_some_iff.mp (stringAt_object_iff.mp hx)
  have hmember := (wellFormed_object_iff.mp h).2 (key, .string x)
    (List.mem_append_right _ List.mem_cons_self)
  exact wellFormed_string_iff.mp hmember.2

theorem utf8_of_givenCaptureName {values : Json} {name : String} (h : values.WellFormed)
    (hname : givenCaptureName values = some name) : Utf8String name := by
  rw [givenCaptureName] at hname
  split at hname
  · exact utf8_of_stringAt h hname
  · cases hname

/-- **No body brings in a string that is not UTF-8.** -/
theorem utf8_deserialize {s : DeviceSettings} (h : s.Utf8Strings) (msgbody : Text) :
    (s.deserialize (lib.withParser strtod) msgbody).Utf8Strings := by
  cases hparse : (lib.withParser strtod).parse msgbody with
  | none => rwa [deserialize_none hparse]
  | some values =>
    have hvalues := wellFormed_of_parse (JsonLibrary.parse_withParser_eq_some.mp hparse)
    rw [deserialize_some hparse]
    refine ⟨?_, ?_, ?_⟩
    · rw [deviceId_runAssignments]
      cases hid : values.stringAt "DeviceId" with
      | none => exact h.deviceId
      | some id => exact utf8_of_stringAt hvalues hid
    · rw [stateName_runAssignments]
      split
      · rename_i hname
        exact utf8_of_stringAt hvalues hname
      · exact h.stateName
    · rw [currentCaptureName_runAssignments]
      cases hname : givenCaptureName values with
      | none => exact h.currentCaptureName
      | some name => exact utf8_of_givenCaptureName hvalues hname

theorem readable_iff
    (hnumber : ∀ x : Float, x.isFinite = true → lib.printDouble x ∈ Grammar.number)
    (s : DeviceSettings) :
    (∃ values, parse strtod (s.serialize (lib.withParser strtod)) = .ok values) ↔
      s.Utf8Strings := by
  have hnumerals : Numerals (lib.withParser strtod) (ofPairs s.members).doubles :=
    fun x hx => hnumber x (mem_doubles_members hx).2
  constructor
  · rintro ⟨values, hparse⟩
    by_contra hnot
    rw [← utf8_strings_iff] at hnot
    simp only [not_forall] at hnot
    obtain ⟨u, hu, hnot⟩ := hnot
    obtain ⟨what, herror⟩ := @parse_dump_not_utf8 strtod _ _ ⟨u, hu, hnot⟩ hnumerals
    rw [serialize, herror] at hparse
    cases hparse
  · intro hutf8
    exact ⟨_, parse_dump_utf8 (s.utf8_strings_iff.mpr hutf8) hnumerals⟩

end Runs

end DeviceSettings

/-- The name in a notification is UTF-8. -/
def Event.Utf8Name (e : Event) : Prop :=
  ∀ blobname, e = .notification blobname → Utf8String blobname

namespace Device

variable {strtod : Text → Float} {lib : JsonLibrary}

theorem utf8_getStateName (s : DeviceState) : Utf8String s.getStateName := by
  have hascii : (s.getStateName.toList.all fun c => c.toNat ≤ 0x7F) = true := by cases s <;> rfl
  exact utf8String_of_ascii hascii

theorem utf8_init_iff (deviceId : String) (hardware : Hardware) :
    (Device.init deviceId hardware).settings.Utf8Strings ↔ Utf8String deviceId := by
  constructor
  · intro h
    cases hardware <;> exact h.deviceId
  · intro h
    have hempty : Utf8String "" := Utf8.encoded_nil
    cases hardware <;> exact ⟨h, utf8_getStateName .ready, hempty⟩

/-- One event: the strings stay UTF-8 exactly if a name that is notified is. -/
theorem utf8_next {d : Device} (h : d.settings.Utf8Strings) (e : Event) :
    (d.next (lib.withParser strtod) e).device.settings.Utf8Strings ↔ e.Utf8Name := by
  cases e with
  | notification blobname =>
    constructor
    · intro hnext name hname
      rw [← Event.notification.inj hname]
      exact hnext.currentCaptureName
    · intro hname
      exact ⟨h.deviceId, h.stateName, hname blobname rfl⟩
  | message m io =>
    refine iff_of_true ?_ nofun
    rw [Device.next]
    rcases receiveMessageCallback_cases (lib.withParser strtod) io d m with
      ⟨msgbody, _, _, heq⟩ | ⟨_, heq | ⟨effects, heq⟩ | ⟨d', s, effects, hsettings, heq⟩⟩
    · rw [heq, Device.device_handleUpdate, Device.settings_updateSettings]
      exact DeviceSettings.utf8_deserialize h msgbody
    · rwa [heq]
    · rwa [heq]
    · rw [heq]
      simp only [Device.accept, Device.changeState, hsettings]
      exact ⟨h.deviceId, utf8_getStateName s, h.currentCaptureName⟩

theorem allStates_utf8_iff {d : Device} (hd : d.settings.Utf8Strings) (events : List Event) :
    (Device.machine (lib.withParser strtod)).AllStates (fun d => d.settings.Utf8Strings) d events ↔
      ∀ e ∈ events, e.Utf8Name := by
  have htotal : ∀ d e, ∃ t, (Device.machine (lib.withParser strtod)).step d e = some t :=
    fun d e => ⟨_, rfl⟩
  rw [← Machine.allSteps_actions_iff _ htotal d events]
  refine Machine.allStates_iff_allSteps (I := fun d : Device => d.settings.Utf8Strings) _ ?_ hd
    events
  rintro d e _ hd ⟨rfl⟩
  exact utf8_next hd e

theorem allStates_readable_iff
    (hnumber : ∀ x : Float, x.isFinite = true → lib.printDouble x ∈ Grammar.number)
    (d : Device) (events : List Event) :
    (Device.machine (lib.withParser strtod)).AllStates
        (fun d => ∃ values,
          parse strtod (d.settings.serialize (lib.withParser strtod)) = .ok values)
        d events ↔
      d.settings.Utf8Strings ∧
        ∀ blobname, Event.notification blobname ∈ events → Utf8String blobname := by
  have hnames : (∀ e ∈ events, e.Utf8Name) ↔
      ∀ blobname, Event.notification blobname ∈ events → Utf8String blobname := by
    constructor
    · intro h blobname hmem
      exact h _ hmem blobname rfl
    · rintro h e he blobname rfl
      exact h blobname he
  simp only [DeviceSettings.readable_iff hnumber]
  rw [← hnames]
  constructor
  · intro h
    exact ⟨h.head, (allStates_utf8_iff h.head events).mp h⟩
  · rintro ⟨hinit, h⟩
    exact (allStates_utf8_iff hinit events).mpr h

/-- **When the device can read what it reports.**  In every state of a run the text of the
    settings parses exactly if the device id and the names of all captures it was
    notified of are UTF-8, whatever bodies it was sent. -/
theorem readable_iff_utf8Names (strtod : Text → Float) (lib : JsonLibrary)
    (hnumber : ∀ x : Float, x.isFinite = true → lib.printDouble x ∈ Grammar.number)
    (deviceId : String) (hardware : Hardware) (events : List Event) :
    (Device.machine (lib.withParser strtod)).AllStates
        (fun d => ∃ values,
          parse strtod (d.settings.serialize (lib.withParser strtod)) = .ok values)
        (Device.init deviceId hardware) events ↔
      Utf8String deviceId ∧
        ∀ blobname, Event.notification blobname ∈ events → Utf8String blobname := by
  rw [allStates_readable_iff hnumber, utf8_init_iff]

theorem readable_iff_utf8Names_capture :
    (Device.machine ((JsonLibrary.ofTable []).withParser fun _ => 0)).AllStates
        (fun d => ∃ values, parse (fun _ => 0)
          (d.settings.serialize ((JsonLibrary.ofTable []).withParser fun _ => 0)) = .ok values)
        (Device.init "d1" (.camera 30 200.0)) [.notification "captures/20170101/c1.png"] := by
  apply (readable_iff_utf8Names (fun _ => 0) (.ofTable []) (fun _ _ => zero_mem_number) "d1"
    (.camera 30 200.0) [.notification "captures/20170101/c1.png"]).mpr
  constructor
  · exact utf8String_of_ascii rfl
  · intro blobname hmem
    obtain rfl := Event.notification.inj (List.mem_singleton.mp hmem)
    exact utf8String_of_ascii rfl

end Device

end IsmDevice
