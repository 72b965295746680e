import IsmDevice.Settings

/-!
# The text of the settings

`Serialize` and `Deserialize` are two lists of the same fourteen keys.  A text that
gives every one of them its type replaces the settings by those it describes, so
that the text of settings gives them back.

A text that does not is reported as an error, but the members that stand before the
first unreadable one have been overwritten by then.
-/

namespace IsmDevice

open TryBlock

namespace DeviceSettings

/-- The text parses to an object that gives all fourteen members of these settings. -/
def Describes (lib : JsonLibrary) (text : Text) (s : DeviceSettings) : Prop :=
  ∃ values, lib.parse text = some values ∧ Gives values writes s

/-- A text that describes settings replaces the old ones by them, and any other text
    leaves the old ones as they were. -/
structure AllOrNothing (lib : JsonLibrary) (text : Text) (s : DeviceSettings) : Prop where
  all : ∀ t, Describes lib text t → s.deserialize lib text = t
  nothing : (∀ t, ¬ Describes lib text t) → s.deserialize lib text = s

def Finite (s : DeviceSettings) : Prop :=
  s.varianceThreshold.isFinite = true ∧ s.distanceMapThreshold.isFinite = true ∧
    s.rgThreshold.isFinite = true ∧ s.restrictedFillingThreshold.isFinite = true ∧
    s.dilateValue.isFinite = true ∧ s.exposure.isFinite = true

def sample : DeviceSettings where
  deviceId := "d1"
  stateName := "ReadyState"
  capturePeriod := 5000
  currentCaptureName := ""
  varianceThreshold := 0.0
  distanceMapThreshold := 0.0
  rgThreshold := 0.0
  restrictedFillingThreshold := 0.0
  dilateValue := 0.0
  gain := 30
  exposure := 0.0
  pulseWidth := 4
  current := -1
  predelay := 1000

/-! ### All or nothing -/

theorem eq_of_writes (s t : DeviceSettings) (h : ∀ w ∈ writes, w.get s = w.get t) : s = t := by
  cases s
  cases t
  simp only [writes, List.forall_mem_cons, List.not_mem_nil, IsEmpty.forall_iff, implies_true,
    and_true] at h
  rw [DeviceSettings.mk.injEq]
  exact h

theorem deserialize_of_describes {lib : JsonLibrary} {text : Text} {t : DeviceSettings}
    (h : Describes lib text t) (s : DeviceSettings) : s.deserialize lib text = t := by
  obtain ⟨values, hparse, hgives⟩ := h
  rw [deserialize_some hparse, runAssignments_assignments]
  exact run_eq_of_gives pairwise_writes eq_of_writes hgives

/-- **When all or nothing is assigned**: the text describes settings, or it is not
    JSON, or what it gives before the first unreadable member is what the settings
    hold. -/
theorem allOrNothing_iff (lib : JsonLibrary) (text : Text) (s : DeviceSettings) :
    AllOrNothing lib text s ↔
      (∃ t, Describes lib text t) ∨
        ∀ values, lib.parse text = some values → Repeats values writes s := by
  constructor
  · intro h
    by_cases hdescribes : ∃ t, Describes lib text t
    · exact Or.inl hdescribes
    · right
      intro values hparse
      have hkept := h.nothing (not_exists.mp hdescribes)
      rw [deserialize_some hparse, runAssignments_assignments] at hkept
      exact (run_eq_self_iff pairwise_writes).mp hkept
  · intro h
    refine ⟨fun t ht => deserialize_of_describes ht s, ?_⟩
    intro hnone
    have hrepeats := h.resolve_left (not_exists.mpr hnone)
    cases hparse : lib.parse text with
    | none => exact deserialize_none hparse s
    | some values =>
      rw [deserialize_some hparse, runAssignments_assignments]
      exact (run_eq_self_iff pairwise_writes).mpr (hrepeats values hparse)

def deviceIdOnly : Text := "\x7b\"DeviceId\":\"d2\"\x7d".toList

/-- The device has a new id, and an error is logged for the state name. -/
theorem allOrNothing_deviceIdOnly :
    ¬ AllOrNothing (.ofTable [(deviceIdOnly, .object [("DeviceId", .string "d2")])]) deviceIdOnly
      sample := by
  intro h
  have hkept := h.nothing (by
    rintro t ⟨values, hparse, hgives⟩
    rw [JsonLibrary.parse_ofTable] at hparse
    obtain rfl := Option.some.inj hparse
    have hname : none = some t.stateName :=
      hgives _ (List.mem_cons_of_mem _ List.mem_cons_self)
    cases hname)
  rw [deserialize_some (JsonLibrary.parse_ofTable _ _ _)] at hkept
  exact absurd (congrArg deviceId hkept) (by decide)

/-! ### The round trip -/

/-- The object has the fourteen members that `Serialize` writes. -/
def Agrees (members : List (String × Json)) (s : DeviceSettings) : Prop :=
  ∀ p ∈ s.members, ∃ v, members.lookup p.1 = some v ∧ v.Same p.2

theorem agrees_ofPairs (s : DeviceSettings) :
    ∃ members, Json.ofPairs s.members = .object members ∧ Agrees members s := by
  have hkeys : (s.members.map Prod.fst).Nodup := by
    simp only [members, List.map_cons, List.map_nil]
    decide
  obtain ⟨members, hobject, hlookup⟩ := Json.lookup_ofPairs hkeys
  exact ⟨members, hobject, fun p hp => ⟨p.2, hlookup p hp, rfl⟩⟩

section Reads

variable {w : Json} {members : List (String × Json)} {key : String}

theorem stringAt_of_same {x : String} (h : w.Same (.object members))
    (hkey : ∃ v, members.lookup key = some v ∧ v.Same (.string x)) : w.stringAt key = some x := by
  obtain ⟨v, hlookup, hv⟩ := hkey
  obtain ⟨v', hindex, hv'⟩ := Json.index_of_same h hlookup
  rw [Json.stringAt, hindex]
  exact Json.getString_of_same (hv'.trans hv)

theorem intAt_of_same {n : Int32} (h : w.Same (.object members))
    (hkey : ∃ v, members.lookup key = some v ∧ v.Same (.ofInt n)) : w.intAt key = some n := by
  obtain ⟨v, hlookup, hv⟩ := hkey
  obtain ⟨v', hindex, hv'⟩ := Json.index_of_same h hlookup
  have hint := Json.getInt_of_same (hv'.trans hv)
  rw [Json.intAt, hindex, Option.bind_some, hint, Json.ofInt, Json.getInt, Int32.toInt32_toInt64]

theorem doubleAt_of_same {x : Float} (hx : x.isFinite = true) (h : w.Same (.object members))
    (hkey : ∃ v, members.lookup key = some v ∧ v.Same (.ofDouble x)) :
    w.doubleAt key = some x := by
  obtain ⟨v, hlookup, hv⟩ := hkey
  obtain ⟨v', hindex, hv'⟩ := Json.index_of_same h hlookup
  rw [Json.ofDouble, if_pos hx] at hv
  rw [Json.doubleAt, hindex, Option.bind_some, Json.eq_numberFloat_of_same (hv'.trans hv),
    Json.getDouble]

end Reads

/-- An object that agrees with settings on their members gives them. -/
theorem gives_of_agrees {w : Json} {members : List (String × Json)} {s : DeviceSettings}
    (hfinite : s.Finite) (h : w.Same (.object members)) (hagrees : Agrees members s) :
    Gives w writes s := by
  obtain ⟨h₁, h₂, h₃, h₄, h₅, h₆⟩ := hfinite
  simp only [Agrees, DeviceSettings.members, List.forall_mem_cons] at hagrees
  obtain ⟨a₁, a₂, a₃, a₄, a₅, a₆, a₇, a₈, a₉, a₁₀, a₁₁, a₁₂, a₁₃, a₁₄, -⟩ := hagrees
  simp only [Gives, writes, List.forall_mem_cons]
  refine ⟨stringAt_of_same h a₁, stringAt_of_same h a₂, intAt_of_same h a₃,
    stringAt_of_same h a₄, doubleAt_of_same h₁ h a₅, doubleAt_of_same h₂ h a₆,
    doubleAt_of_same h₃ h a₇, doubleAt_of_same h₄ h a₈, doubleAt_of_same h₅ h a₉,
    intAt_of_same h a₁₀, doubleAt_of_same h₆ h a₁₁, intAt_of_same h a₁₂,
    intAt_of_same h a₁₃, intAt_of_same h a₁₄, ?_⟩
  simp

/-- **Round trip.**  Settings come back from their text, into whatever is deserialized
    to, and from the text of every object that agrees with them on their members. -/
theorem deserialize_serialize (lib : JsonLibrary) (s t : DeviceSettings) (hfinite : s.Finite) :
    (lib.Reads ((Json.ofPairs s.members).dump lib) (Json.ofPairs s.members) →
      t.deserialize lib (s.serialize lib) = s) ∧
    ∀ text members, lib.Reads text (.object members) → Agrees members s →
      t.deserialize lib text = s := by
  have hagrees : ∀ text members, lib.Reads text (.object members) → Agrees members s →
      t.deserialize lib text = s := by
    rintro text members ⟨w, hparse, hsame⟩ hagrees
    exact deserialize_of_describes ⟨w, hparse, gives_of_agrees hfinite hsame hagrees⟩ t
  refine ⟨?_, hagrees⟩
  intro hreads
  obtain ⟨members, hobject, hmembers⟩ := agrees_ofPairs s
  rw [serialize, hobject]
  rw [hobject] at hreads
  exact hagrees _ members hreads hmembers

/-- The members of the sample, and one more in front of them. -/
def commented : List (String × Json) := ("Comment", .null) :: sample.members

/-- A library that knows the text of the sample, and one that has the comment and the
    members in the order of the source. -/
def sampleTexts : JsonLibrary :=
  .ofTable [(sample.serialize (.ofTable []), (Json.ofPairs sample.members).normal),
    ((Json.object commented).dump (.ofTable []), (Json.ofPairs commented).normal)]

theorem parse_commented : sampleTexts.parse ((Json.object commented).dump (.ofTable [])) =
    some (Json.ofPairs commented).normal := by
  have hother : (Json.object commented).dump (.ofTable []) ≠ sample.serialize (.ofTable []) := by
    decide +kernel
  rw [sampleTexts, JsonLibrary.parse_ofTable_of_ne hother, JsonLibrary.parse_ofTable]

theorem deserialize_serialize_sample :
    let t : DeviceSettings := { sample with deviceId := "d2", current := 0 }
    t.deserialize sampleTexts (sample.serialize sampleTexts) = sample ∧
      t.deserialize sampleTexts ((Json.object commented).dump sampleTexts) = sample := by
  intro t
  have hfinite : sample.Finite := by
    unfold Finite
    decide +kernel
  obtain ⟨hown, hother⟩ := deserialize_serialize sampleTexts sample t hfinite
  constructor
  · apply hown
    exact ⟨_, JsonLibrary.parse_ofTable _ _ _, rfl⟩
  · have hkeys : (commented.map Prod.fst).Nodup := by
      simp only [commented, members, List.map_cons, List.map_nil]
      decide
    obtain ⟨members, hobject, hlookup⟩ := Json.lookup_ofPairs hkeys
    apply hother _ members
    · rw [← hobject]
      exact ⟨_, parse_commented, rfl⟩
    · intro p hp
      exact ⟨p.2, hlookup p (List.mem_cons_of_mem _ hp), rfl⟩

end DeviceSettings

end IsmDevice
