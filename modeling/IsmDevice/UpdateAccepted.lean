import IsmDevice.SettingsUpdate

/-!
# What an accepted update has done

The reply to a settings body is decided by the camera alone.  `Deserialize`
catches what the parser and the conversions throw, so a body that cannot be read
is accepted with whatever part of it was read before.  This module says when an
accepted body has been carried out: it is one JSON object, it gives the eleven
operator fields as numbers, and the settings hold these numbers afterwards.

Three of the assignments are not of operator fields.  Where one of them throws,
the operator fields after it keep their values, and the body is carried out all
the same if these are the values it gives.
-/

namespace IsmDevice

open Transition

namespace DeviceSettings

def intFields : List (String × (DeviceSettings → Int32)) :=
  [("CapturePeriod", capturePeriod), ("Gain", gain), ("PulseWidth", pulseWidth),
   ("Current", current), ("Predelay", predelay)]

def doubleFields : List (String × (DeviceSettings → Float)) :=
  [("VarianceThreshold", varianceThreshold), ("DistanceMapThreshold", distanceMapThreshold),
   ("RGThreshold", rgThreshold), ("RestrictedFillingThreshold", restrictedFillingThreshold),
   ("DilateValue", dilateValue), ("Exposure", exposure)]

/-- `values` gives a number for every operator field and `s` holds exactly these numbers. -/
structure HoldsNumbers (values : Json) (s : DeviceSettings) : Prop where
  ints : ∀ f ∈ intFields, ∃ j, values.index f.1 = some j ∧ j.IsInt (f.2 s)
  doubles : ∀ f ∈ doubleFields, values.doubleAt f.1 = some (f.2 s)

end DeviceSettings

/-- Gain and exposure, or the capture period in directory mode, are those of the settings. -/
def Backend.Follows (s : DeviceSettings) : Backend → Prop
  | .camera c => c.hardwareGain = s.gain.toUInt32 ∧ c.hardwareExposure = s.exposure
  | .dirCamera c => c.capturePeriod = s.capturePeriod

def Device.UpdateApplied (lib : JsonLibrary) (body : Text) (d : Device) : Prop :=
  (∃ members, JsonText lib body (.object members) ∧
    DeviceSettings.HoldsNumbers (.object members) d.settings) ∧
  d.backend.Follows d.settings

/-- The strings read before an operator field are there, so that its assignment is reached. -/
def Json.reaches (values : Json) (key : String) : Bool :=
  (values.stringAt "DeviceId").isSome && (values.stringAt "StateName").isSome &&
    (key == "CapturePeriod" || (values.stringAt "CurrentCaptureName").isSome)

/-- A body that an update of settings `s` carries out: every operator field is
    given as a number; an `int` field that is assigned is given exactly; a field
    whose assignment is not reached already holds the number given. -/
structure Json.GivesNumbers (values : Json) (s : DeviceSettings) : Prop where
  ints : ∀ f ∈ DeviceSettings.intFields, ∃ j i, values.index f.1 = some j ∧ j.getInt = some i ∧
    j.IsInt (if values.reaches f.1 then i else f.2 s)
  doubles : ∀ f ∈ DeviceSettings.doubleFields, ∃ x, values.doubleAt f.1 = some x ∧
    (values.reaches f.1 = false → f.2 s = x)

namespace DeviceSettings

structure Readable (values : Json) : Prop where
  ints : ∀ f ∈ intFields, (values.intAt f.1).isSome
  doubles : ∀ f ∈ doubleFields, (values.doubleAt f.1).isSome

section Reading

variable {values : Json}

/-- `field` of the updated settings is what the body gives for `key`, or was not reached. -/
def FieldUpdated {α : Type} (values : Json) (read : Json → String → Option α) (s t : DeviceSettings)
    (f : String × (DeviceSettings → α)) : Prop :=
  (values.reaches f.1 = true ∧ read values f.1 = some (f.2 t)) ∨
    (values.reaches f.1 = false ∧ f.2 t = f.2 s)

theorem fieldUpdated_of_get {α : Type} {read : Json → String → Option α} {s t : DeviceSettings}
    {f : String × (DeviceSettings → α)} {before : Bool} (hread : (read values f.1).isSome)
    (hget : f.2 t = if before then (read values f.1).getD (f.2 s) else f.2 s)
    (hreaches : values.reaches f.1 = before) : FieldUpdated values read s t f := by
  obtain ⟨x, hx⟩ := Option.isSome_iff_exists.mp hread
  cases before with
  | true =>
    rw [if_pos rfl, hx, Option.getD_some] at hget
    exact Or.inl ⟨hreaches, by rw [hx, hget]⟩
  | false => exact Or.inr ⟨hreaches, hget⟩

/-- With readable numbers, the assignments from `CurrentCaptureName` on are reached
    exactly if the strings are there. -/
theorem reaches_eq_all_take (h : Readable values) {key : String} (hkey : key ≠ "CapturePeriod")
    {n : Nat} (hn : 4 ≤ n) :
    values.reaches key = (writes.take n).all fun w => (w.read values).isSome := by
  have hnumbers : ∀ w ∈ writes.drop 4, (w.read values).isSome = true := by
    have hints := h.ints
    have hdoubles := h.doubles
    simp only [intFields, doubleFields, List.forall_mem_cons] at hints hdoubles
    obtain ⟨-, hgain, hwidth, hcurrent, hpredelay, -⟩ := hints
    obtain ⟨hvt, hdt, hrg, hrf, hdv, hexposure, -⟩ := hdoubles
    simp only [writes, List.drop_succ_cons, List.drop_zero, List.forall_mem_cons]
    exact ⟨hvt, hdt, hrg, hrf, hdv, hgain, hexposure, hwidth, hcurrent, hpredelay, by simp⟩
  have hrest : ((writes.drop 4).take (n - 4)).all (fun w => (w.read values).isSome) = true :=
    List.all_eq_true.mpr fun w hw => hnumbers w (List.mem_of_mem_take hw)
  have hperiod := h.ints ("CapturePeriod", capturePeriod) List.mem_cons_self
  obtain ⟨k, rfl⟩ := Nat.exists_eq_add_of_le hn
  rw [Nat.add_sub_cancel_left] at hrest
  rw [List.take_add, List.all_append, hrest, Bool.and_true]
  show _ = ((values.stringAt "DeviceId").isSome && ((values.stringAt "StateName").isSome &&
    ((values.intAt "CapturePeriod").isSome &&
      ((values.stringAt "CurrentCaptureName").isSome && true))))
  rw [hperiod, Json.reaches, beq_false_of_ne hkey]
  simp [Bool.and_assoc]

/-- **What a readable body does** to each operator field. -/
theorem fieldUpdated_runAssignments (h : Readable values) (s : DeviceSettings) :
    (∀ f ∈ intFields,
      FieldUpdated values Json.intAt s (runAssignments values assignments s) f) ∧
    ∀ f ∈ doubleFields,
      FieldUpdated values Json.doubleAt s (runAssignments values assignments s) f := by
  have hints := h.ints
  have hdoubles := h.doubles
  have hwritten := @TryBlock.get_run_getElem Json DeviceSettings values writes pairwise_writes
  rw [runAssignments_assignments]
  simp only [intFields, doubleFields, List.forall_mem_cons] at hints hdoubles ⊢
  obtain ⟨hperiod, hgain, hwidth, hcurrent, hpredelay, -⟩ := hints
  obtain ⟨hvt, hdt, hrg, hrf, hdv, hexposure, -⟩ := hdoubles
  have hlater : ∀ {key : String} {n : Nat}, key ≠ "CapturePeriod" → 4 ≤ n →
      values.reaches key = (writes.take n).all fun w => (w.read values).isSome :=
    fun hkey hn => reaches_eq_all_take h hkey hn
  constructor
  · refine ⟨fieldUpdated_of_get hperiod (hwritten 2 (by decide) s) ?_,
      fieldUpdated_of_get hgain (hwritten 9 (by decide) s) (hlater (by decide) (by decide)),
      fieldUpdated_of_get hwidth (hwritten 11 (by decide) s) (hlater (by decide) (by decide)),
      fieldUpdated_of_get hcurrent (hwritten 12 (by decide) s) (hlater (by decide) (by decide)),
      fieldUpdated_of_get hpredelay (hwritten 13 (by decide) s) (hlater (by decide) (by decide)),
      by simp⟩
    -- `CapturePeriod` is assigned before `CurrentCaptureName` can throw
    show _ = ((values.stringAt "DeviceId").isSome && ((values.stringAt "StateName").isSome && true))
    simp [Json.reaches]
  · exact ⟨fieldUpdated_of_get hvt (hwritten 4 (by decide) s) (hlater (by decide) (by decide)),
      fieldUpdated_of_get hdt (hwritten 5 (by decide) s) (hlater (by decide) (by decide)),
      fieldUpdated_of_get hrg (hwritten 6 (by decide) s) (hlater (by decide) (by decide)),
      fieldUpdated_of_get hrf (hwritten 7 (by decide) s) (hlater (by decide) (by decide)),
      fieldUpdated_of_get hdv (hwritten 8 (by decide) s) (hlater (by decide) (by decide)),
      fieldUpdated_of_get hexposure (hwritten 10 (by decide) s) (hlater (by decide) (by decide)),
      by simp⟩

/-! ### The numbers a body gives and the numbers held after it -/

theorem exists_getInt {j : Json} {i : Int32} (h : j.IsInt i) : ∃ k, j.getInt = some k := by
  cases j with
  | numberInteger n => exact ⟨_, rfl⟩
  | numberUnsigned n => exact ⟨_, rfl⟩
  | numberFloat x => exact ⟨_, rfl⟩
  | null => exact h.elim
  | boolean b => exact h.elim
  | string s => exact h.elim
  | array elements => exact h.elim
  | object members => exact h.elim

theorem intAt_eq_some {key : String} {i : Int32} :
    values.intAt key = some i ↔ ∃ j, values.index key = some j ∧ j.getInt = some i :=
  Option.bind_eq_some_iff

theorem HoldsNumbers.readable {t : DeviceSettings} (h : HoldsNumbers values t) :
    Readable values where
  ints f hf := by
    obtain ⟨j, hj, hint⟩ := h.ints f hf
    obtain ⟨i, hi⟩ := exists_getInt hint
    exact Option.isSome_iff_exists.mpr ⟨i, intAt_eq_some.mpr ⟨j, hj, hi⟩⟩
  doubles f hf := Option.isSome_iff_exists.mpr ⟨_, h.doubles f hf⟩

theorem readable_of_givesNumbers {s : DeviceSettings} (h : values.GivesNumbers s) :
    Readable values where
  ints f hf := by
    obtain ⟨j, i, hj, hi, -⟩ := h.ints f hf
    exact Option.isSome_iff_exists.mpr ⟨i, intAt_eq_some.mpr ⟨j, hj, hi⟩⟩
  doubles f hf := by
    obtain ⟨x, hx, -⟩ := h.doubles f hf
    exact Option.isSome_iff_exists.mpr ⟨x, hx⟩

/-- **The numbers are held afterwards exactly if the body gives them**, for a body
    whose value is `values` and settings `s` before it. -/
theorem holdsNumbers_runAssignments_iff (s : DeviceSettings) :
    HoldsNumbers values (runAssignments values assignments s) ↔ values.GivesNumbers s := by
  by_cases hreadable : Readable values
  · obtain ⟨hints, hdoubles⟩ := fieldUpdated_runAssignments hreadable s
    generalize runAssignments values assignments s = t at hints hdoubles
    constructor
    · rintro ⟨hholdi, hholdd⟩
      constructor
      · intro f hf
        obtain ⟨j, hj, hint⟩ := hholdi f hf
        rcases hints f hf with ⟨hreached, hread⟩ | ⟨hmissed, hsame⟩
        · obtain ⟨j', hj', hi⟩ := intAt_eq_some.mp hread
          obtain rfl := Option.some.inj (hj.symm.trans hj')
          exact ⟨j, f.2 t, hj, hi, by rw [if_pos hreached]; exact hint⟩
        · obtain ⟨i, hi⟩ := exists_getInt hint
          exact ⟨j, i, hj, hi, by rw [hmissed, if_neg Bool.false_ne_true, ← hsame]; exact hint⟩
      · intro f hf
        refine ⟨f.2 t, hholdd f hf, ?_⟩
        intro hmissed
        rcases hdoubles f hf with ⟨hreached, -⟩ | ⟨-, hsame⟩
        · exact absurd (hreached.symm.trans hmissed) (by decide)
        · exact hsame.symm
    · rintro ⟨hgivei, hgived⟩
      constructor
      · intro f hf
        obtain ⟨j, i, hj, hi, hint⟩ := hgivei f hf
        refine ⟨j, hj, ?_⟩
        rcases hints f hf with ⟨hreached, hread⟩ | ⟨hmissed, hsame⟩
        · obtain ⟨j', hj', hi'⟩ := intAt_eq_some.mp hread
          obtain rfl := Option.some.inj (hj.symm.trans hj')
          obtain rfl := Option.some.inj (hi.symm.trans hi')
          rw [if_pos hreached] at hint
          exact hint
        · rw [hmissed, if_neg Bool.false_ne_true, ← hsame] at hint
          exact hint
      · intro f hf
        obtain ⟨x, hx, hmiss⟩ := hgived f hf
        rcases hdoubles f hf with ⟨-, hread⟩ | ⟨hmissed, hsame⟩
        · exact hread
        · rw [hx, hsame, hmiss hmissed]
  · apply iff_of_false
    · intro h
      exact hreadable h.readable
    · intro h
      exact hreadable (readable_of_givesNumbers h)

end Reading

end DeviceSettings

/-! ### Accepted messages -/

section Accepted

variable (lib : JsonLibrary) (io : DriverReply) (d : Device)

theorem Device.follows_of_accepted {msgbody : Text}
    (h : (d.handleUpdate lib io msgbody).result = .accepted) :
    (d.handleUpdate lib io msgbody).device.backend.Follows
      (d.settings.deserialize lib msgbody) := by
  rw [Device.device_handleUpdate]
  cases hbackend : d.backend with
  | camera c =>
    obtain ⟨hgain, hexposure⟩ := (Device.accepted_camera_iff lib io msgbody d hbackend).mp h
    rw [Device.updateSettings_camera lib io msgbody d hbackend]
    simp [Backend.Follows, Camera.updated, hgain, hexposure]
  | dirCamera c =>
    rw [Device.updateSettings_dirCamera lib io msgbody d hbackend]
    rfl

theorem Device.updateApplied_iff {buffer : Text}
    (h : (d.handleUpdate lib io (messageBody buffer)).result = .accepted) :
    (d.handleUpdate lib io (messageBody buffer)).device.UpdateApplied lib buffer ↔
      ∃ members, JsonText lib buffer (.object members) ∧
        (Json.object members).GivesNumbers d.settings := by
  have hfollows := d.follows_of_accepted lib io h
  have hsettings : (d.handleUpdate lib io (messageBody buffer)).device.settings =
      d.settings.deserialize lib (messageBody buffer) := by
    rw [Device.device_handleUpdate, Device.settings_updateSettings]
  rw [Device.UpdateApplied, hsettings, and_iff_left hfollows]
  apply exists_congr
  intro members
  apply and_congr_right
  intro htext
  rw [messageBody_eq_self htext.1, DeviceSettings.deserialize_some htext.2]
  exact DeviceSettings.holdsNumbers_runAssignments_iff d.settings

end Accepted

def Event.AppliedIfAccepted (lib : JsonLibrary) (d : Device) : Event → Prop
  | .message m io => ∀ buffer, m.body = some buffer →
      m.command? = some (.setDeviceSettings (messageBody buffer)) → d.state ≠ .run →
      (d.receiveMessageCallback lib io m).result = .accepted →
      (d.receiveMessageCallback lib io m).device.UpdateApplied lib buffer
  | .notification _ => True

/-- The driver turns the settings message down, or its whole body gives the numbers. -/
def Event.CarriesNumbers (lib : JsonLibrary) (d : Device) : Event → Prop
  | .message m io => ∀ buffer, m.body = some buffer →
      m.command? = some (.setDeviceSettings (messageBody buffer)) → d.state ≠ .run →
      (∃ c, d.backend = .camera c ∧ ¬ (io.gainOk = true ∧ io.exposureOk = true)) ∨
        ∃ members, JsonText lib buffer (.object members) ∧
          (Json.object members).GivesNumbers d.settings
  | .notification _ => True

section Accepted

variable (lib : JsonLibrary)

theorem Event.appliedIfAccepted_iff (d : Device) (e : Event) :
    e.AppliedIfAccepted lib d ↔ e.CarriesNumbers lib d := by
  cases e with
  | notification blobname => exact Iff.rfl
  | message m io =>
    apply forall₄_congr
    intro buffer _ hcmd hstate
    rw [receiveMessageCallback_update lib io _ d hcmd hstate]
    by_cases hfail : ∃ c, d.backend = .camera c ∧ ¬ (io.gainOk = true ∧ io.exposureOk = true)
    · obtain ⟨c, hbackend, hnot⟩ := hfail
      apply iff_of_true
      · intro haccepted
        exact absurd ((Device.accepted_camera_iff lib io _ d hbackend).mp haccepted) hnot
      · exact Or.inl ⟨c, hbackend, hnot⟩
    · have haccepted : (d.handleUpdate lib io (messageBody buffer)).result = .accepted := by
        cases hbackend : d.backend with
        | camera c =>
          apply (Device.accepted_camera_iff lib io _ d hbackend).mpr
          by_contra hnot
          apply hfail
          exact ⟨c, hbackend, hnot⟩
        | dirCamera c => exact Device.accepted_dirCamera lib io _ d hbackend
      rw [or_iff_right hfail, forall_prop_of_true haccepted]
      exact d.updateApplied_iff lib io haccepted

/-- **When accepted updates are carried out**: along every run, from the
    constructor or from any other device, exactly if every settings message taken
    either is turned down by the driver or gives, with its whole body, the numbers. -/
theorem accepted_applied_iff (d : Device) (events : List Event) :
    (Device.machine lib).AllSteps (fun d e => e.AppliedIfAccepted lib d) d events ↔
      (Device.machine lib).AllSteps (fun d e => e.CarriesNumbers lib d) d events := by
  apply Machine.allSteps_congr
  intro d e _ _
  exact e.appliedIfAccepted_iff lib d

end Accepted

/-- A body that is no JSON text is accepted. -/
theorem accepted_unreadable :
    ¬ (Device.machine (.ofTable [])).AllSteps
      (fun d e => e.AppliedIfAccepted (.ofTable []) d) sampleDevice
      [.message (Message.setDeviceSettings ['x']) ⟨true, true⟩] := by
  intro h
  obtain ⟨happlied, -⟩ := h _ rfl
  obtain ⟨⟨members, ⟨-, hparse⟩, -⟩, -⟩ :=
    happlied ['x'] rfl (Message.command?_setDeviceSettings _) (by decide) rfl
  exact absurd hparse (by simp [JsonLibrary.ofTable])

end IsmDevice
