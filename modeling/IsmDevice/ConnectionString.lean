import IsmDevice.Json
import IsmDevice.Lib.CppString

/-!
# The device id in the connection string

`Device::getDeviceId` takes the text between the first `DeviceId=` and the next
`;`.  It works on positions of the whole string, so that it does not see where a
segment begins, looks for the `;` only from the second character of the value on,
and takes a position that was not found for one.
-/

namespace IsmDevice

def searchPattern : Text := "DeviceId=".toList

/-- `Device::getDeviceId`; `none` is the `out_of_range` of `substr`. -/
def Device.getDeviceId (connectionString : Text) : Option Text :=
  let posBegin := CppString.find searchPattern connectionString 0 + CppString.size searchPattern
  let posEnd := CppString.find [';'] connectionString (posBegin + 1)
  CppString.substr connectionString posBegin (posEnd - posBegin)

/-! ### Connection strings -/

structure Segment where
  name : Text
  value : Text
  name_plain : '=' ∉ name ∧ ';' ∉ name
  value_plain : ';' ∉ value

def Segment.text (s : Segment) : Text := s.name ++ '=' :: s.value

/-- The segments, with a `;` after each that may be missing after the last. -/
def joinSegments (trailing : Bool) : List Segment → Text
  | [] => []
  | s :: rest =>
      s.text ++ if rest.isEmpty && !trailing then [] else ';' :: joinSegments trailing rest

structure ConnectionString where
  segments : List Segment
  trailing : Bool
  fits : CppString.Fits (joinSegments trailing segments)

namespace ConnectionString

def text (c : ConnectionString) : Text := joinSegments c.trailing c.segments

/-- The value of the first segment with this name. -/
def deviceId? (c : ConnectionString) : Option Text :=
  (c.segments.find? fun s => s.name = "DeviceId".toList).map Segment.value

/-- `getDeviceId` gives the device id, and nothing where there is none. -/
def Extracted (c : ConnectionString) : Prop :=
  match c.deviceId? with
  | some value => Device.getDeviceId c.text = some value
  | none => Device.getDeviceId c.text = none ∨ Device.getDeviceId c.text = some []

end ConnectionString

/-- What follows `DeviceId=` in the first segment that contains it, and whether the
    string ends with that segment. -/
def firstHit (trailing : Bool) : List Segment → Option (Text × Bool)
  | [] => none
  | s :: rest =>
      match CppString.after searchPattern s.text with
      | some w => some (w, rest.isEmpty && !trailing)
      | none => firstHit trailing rest

/-- The first segment with `DeviceId=` in it gives the device id, which is not empty
    unless it ends the string; without a device id nothing follows there, or the
    string has no more than eight characters. -/
def ConnectionString.Clear (c : ConnectionString) : Prop :=
  match c.deviceId?, firstHit c.trailing c.segments with
  | some value, some (w, last) => w = value ∧ (value ≠ [] ∨ last = true)
  | none, some (w, last) => w = [] ∧ last = true
  | some _, none => False
  | none, none => c.text.length ≤ 8

/-! ### From positions to segments -/

section Positions

variable {s : Segment} {segments : List Segment} {trailing : Bool}

theorem getDeviceId_eq {text : Text} (hfits : CppString.Fits text) :
    Device.getDeviceId text = match CppString.after searchPattern text with
      | some w => some (CppString.upTo ';' w)
      | none => if 8 ≤ text.length then some (CppString.upTo ';' (text.drop 8)) else none := by
  have hlength : text.length < 4294967295 := hfits
  unfold Device.getDeviceId CppString.after
  dsimp only
  rw [CppString.find_zero]
  cases hindex : CppString.indexOf searchPattern text with
  | some i =>
    obtain ⟨hle, hstarts⟩ := CppString.prefix_of_indexOf hindex
    have hpattern := hstarts.length_le
    rw [List.length_drop, show searchPattern.length = 9 from rfl] at hpattern
    have hpos : (UInt32.ofNat i + CppString.size searchPattern).toNat = i + 9 := by
      rw [UInt32.toNat_add, UInt32.toNat_ofNat',
        show (CppString.size searchPattern).toNat = 9 from rfl]
      omega
    dsimp only [Option.map_some]
    rw [CppString.substr_find hfits (by omega), hpos]
    rfl
  | none =>
    -- `npos + 9` is 8
    have hpos : (CppString.npos + CppString.size searchPattern).toNat = 8 := by decide
    dsimp only [Option.map_none]
    split
    case isTrue hle => rw [CppString.substr_find hfits (by omega), hpos]
    case isFalse hlt => exact CppString.substr_of_lt (by omega)

theorem semicolon_notMem_text : ';' ∉ s.text := by
  rw [Segment.text, List.mem_append, List.mem_cons]
  rintro (hname | heq | hvalue)
  · exact s.name_plain.2 hname
  · exact absurd heq (by decide)
  · exact s.value_plain hvalue

theorem semicolon_notMem_after {w : Text} (h : CppString.after searchPattern s.text = some w) :
    ';' ∉ w := by
  obtain ⟨i, -, rfl⟩ := Option.map_eq_some_iff.mp h
  intro hmem
  exact semicolon_notMem_text (List.mem_of_mem_drop hmem)

/-- The first occurrence in the string is the one in the first segment that has one. -/
theorem after_joinSegments (trailing : Bool) (segments : List Segment) :
    match firstHit trailing segments with
    | some (w, last) => ';' ∉ w ∧ ∃ r, (if last then r = [] else ∃ r', r = ';' :: r') ∧
        CppString.after searchPattern (joinSegments trailing segments) = some (w ++ r)
    | none => CppString.after searchPattern (joinSegments trailing segments) = none := by
  induction segments with
  | nil => rfl
  | cons s rest ih =>
    rw [firstHit, joinSegments]
    cases hlast : rest.isEmpty && !trailing with
    | true =>
      have hrest : rest = [] := by
        rw [Bool.and_eq_true, List.isEmpty_iff] at hlast
        exact hlast.1
      rw [if_pos rfl, List.append_nil, hrest]
      cases hafter : CppString.after searchPattern s.text with
      | some w => exact ⟨semicolon_notMem_after hafter, [], rfl, by simp⟩
      | none => rfl
    | false =>
      rw [if_neg (by decide), CppString.after_append_cons (by decide) (by decide)]
      cases hafter : CppString.after searchPattern s.text with
      | some w => exact ⟨semicolon_notMem_after hafter, _, ⟨_, rfl⟩, rfl⟩
      | none => exact ih

theorem firstHit_eq_none (h : firstHit trailing segments = none) :
    ∀ s ∈ segments, CppString.after searchPattern s.text = none := by
  induction segments with
  | nil =>
    intro s hs
    exact absurd hs List.not_mem_nil
  | cons s rest ih =>
    rw [firstHit] at h
    cases hafter : CppString.after searchPattern s.text with
    | some w =>
      rw [hafter] at h
      exact absurd h (by simp)
    | none =>
      rw [hafter] at h
      exact List.forall_mem_cons.mpr ⟨hafter, ih h⟩

/-- A segment with the name has the pattern in it. -/
theorem firstHit_ne_none {c : ConnectionString} {value : Text} (h : c.deviceId? = some value) :
    firstHit c.trailing c.segments ≠ none := by
  intro hnone
  obtain ⟨s, hfind, -⟩ := Option.map_eq_some_iff.mp h
  have hname := List.find?_some hfind
  simp only [decide_eq_true_eq] at hname
  have hafter := firstHit_eq_none hnone s (List.mem_of_find?_eq_some hfind)
  rw [CppString.after, Option.map_eq_none_iff, CppString.indexOf_eq_none_iff] at hafter
  apply hafter
  rw [Segment.text, hname]
  exact ⟨[], s.value, rfl⟩

theorem semicolon_notMem_deviceId {c : ConnectionString} {value : Text}
    (h : c.deviceId? = some value) : ';' ∉ value := by
  obtain ⟨s, -, rfl⟩ := Option.map_eq_some_iff.mp h
  exact s.value_plain

theorem upTo_append {w r : Text} {last : Bool} (hw : ';' ∉ w)
    (hr : if last then r = [] else ∃ r', r = ';' :: r') (hne : w ≠ []) :
    CppString.upTo ';' (w ++ r) = w := by
  cases w with
  | nil => exact absurd rfl hne
  | cons x rest =>
    have hrest : ';' ∉ rest := fun h => hw (List.mem_cons_of_mem _ h)
    have hall : ∀ y ∈ rest, decide (y ≠ ';') = true := by
      intro y hy
      rw [decide_eq_true_eq]
      rintro rfl
      exact hrest hy
    have hend : r.takeWhile (· ≠ ';') = [] := by
      cases last with
      | true =>
        obtain rfl : r = [] := hr
        rfl
      | false =>
        obtain ⟨r', rfl⟩ : ∃ r', r = ';' :: r' := hr
        rfl
    rw [List.cons_append, CppString.upTo, List.takeWhile_append_of_pos hall, hend,
      List.append_nil]

/-- Where nothing follows in the segment, what is taken is empty at the end of the
    string and otherwise reaches into the next segment. -/
theorem upTo_nil_append {r : Text} {last : Bool}
    (hr : if last then r = [] else ∃ r', r = ';' :: r') :
    if last then CppString.upTo ';' r = [] else ';' ∈ CppString.upTo ';' r := by
  cases last with
  | true =>
    obtain rfl : r = [] := hr
    rfl
  | false =>
    obtain ⟨r', rfl⟩ : ∃ r', r = ';' :: r' := hr
    exact List.mem_cons_self

end Positions

theorem extracted_iff_of_deviceId {c : ConnectionString} {value w : Text} {last : Bool}
    (hvalue : c.deviceId? = some value) (hhit : firstHit c.trailing c.segments = some (w, last)) :
    Device.getDeviceId c.text = some value ↔ w = value ∧ (value ≠ [] ∨ last = true) := by
  have hafter := after_joinSegments c.trailing c.segments
  rw [hhit] at hafter
  obtain ⟨hw, r, hr, hafter⟩ := hafter
  rw [ConnectionString.text, getDeviceId_eq c.fits, hafter]
  dsimp only
  rw [Option.some.injEq]
  by_cases hne : w = []
  · subst hne
    have htaken := upTo_nil_append hr
    cases last with
    | true =>
      have hnil : CppString.upTo ';' r = [] := htaken
      simp [hnil]
    | false =>
      have hmem : ';' ∈ CppString.upTo ';' r := htaken
      apply iff_of_false
      · rintro rfl
        exact semicolon_notMem_deviceId hvalue hmem
      · rintro ⟨rfl, hvalue⟩
        simp at hvalue
  · rw [upTo_append hw hr hne]
    constructor
    · rintro rfl
      exact ⟨rfl, Or.inl hne⟩
    · rintro ⟨rfl, -⟩
      rfl

/-- **When the device id is found.**  `getDeviceId` gives the value of the first
    segment named `DeviceId`, or nothing where there is none, exactly if the first
    `DeviceId=` in the string is one that gives it. -/
theorem extracted_iff_clear (c : ConnectionString) : c.Extracted ↔ c.Clear := by
  have hafter := after_joinSegments c.trailing c.segments
  unfold ConnectionString.Extracted ConnectionString.Clear
  cases hvalue : c.deviceId? with
  | some value =>
    cases hhit : firstHit c.trailing c.segments with
    | none => exact absurd hhit (firstHit_ne_none hvalue)
    | some hit => exact extracted_iff_of_deviceId hvalue hhit
  | none =>
    cases hhit : firstHit c.trailing c.segments with
    | some hit =>
      obtain ⟨w, last⟩ := hit
      rw [hhit] at hafter
      obtain ⟨hw, r, hr, hafter⟩ := hafter
      dsimp only
      rw [ConnectionString.text, getDeviceId_eq c.fits, hafter]
      dsimp only
      by_cases hne : w = []
      · subst hne
        have htaken := upTo_nil_append hr
        cases last with
        | true =>
          have hnil : CppString.upTo ';' r = [] := htaken
          simp [hnil]
        | false =>
          have hmem : ';' ∈ CppString.upTo ';' r := htaken
          simp [List.ne_nil_of_mem hmem]
      · rw [upTo_append hw hr hne]
        simp [hne]
    | none =>
      -- what is taken begins at the ninth character
      rw [hhit] at hafter
      dsimp only at hafter ⊢
      rw [ConnectionString.text, getDeviceId_eq c.fits, hafter]
      dsimp only
      rcases Nat.lt_trichotomy (joinSegments c.trailing c.segments).length 8 with hlt | heq | hgt
      · rw [if_neg (Nat.not_le_of_lt hlt)]
        simp [Nat.le_of_lt hlt]
      · rw [if_pos (Nat.le_of_eq heq.symm), List.drop_eq_nil_of_le (Nat.le_of_eq heq)]
        simp [CppString.upTo, heq]
      · rw [if_pos (Nat.le_of_lt hgt), List.drop_eq_getElem_cons hgt]
        simp [CppString.upTo, hgt]

/-- A device id that is empty, before the key. -/
def emptyDeviceId : ConnectionString where
  segments :=
    [⟨"HostName".toList, "hub".toList, by decide, by decide⟩,
     ⟨"DeviceId".toList, [], by decide, by decide⟩,
     ⟨"SharedAccessKey".toList, "c2VjcmV0".toList, by decide, by decide⟩]
  trailing := false
  fits := by decide

/-- The key becomes the device id. -/
theorem extracted_emptyDeviceId :
    ¬ emptyDeviceId.Extracted ∧
      Device.getDeviceId emptyDeviceId.text = some ";SharedAccessKey=c2VjcmV0".toList := by
  constructor
  · intro h
    exact absurd (show Device.getDeviceId emptyDeviceId.text = some [] from h) (by decide)
  · decide

end IsmDevice
