import Mathlib.Data.List.Forall2
import IsmDevice.Protocol
import IsmDevice.Telemetry

/-!
# What the device knows for itself

Two of the fourteen settings are not the operator's: `DeviceId` comes from the
connection string, and `CurrentCaptureName` from the captures that were uploaded.
They stand in the same object as the others, and `Deserialize` reads all fourteen
back from a body.
-/

namespace IsmDevice

open Transition

/-- A settings body that is taken gives the two fields as they are, where it gives them. -/
def Event.KeepsOwned (lib : JsonLibrary) (d : Device) (e : Event) : Prop :=
  ∀ msgbody values, e.command? = some (.setDeviceSettings msgbody) → d.state ≠ .run →
    lib.parse msgbody = some values →
      (∀ id, values.stringAt "DeviceId" = some id → id = d.settings.deviceId) ∧
      ∀ name, DeviceSettings.givenCaptureName values = some name →
        name = d.settings.currentCaptureName

/-- Two events that differ, if at all, in the `DeviceId` and the `CurrentCaptureName`
    of a settings body. -/
def Event.SameButOwned (lib : JsonLibrary) : Event → Event → Prop
  | .notification blobname, .notification blobname' => blobname = blobname'
  | .message m io, .message m' io' => io = io' ∧ (m = m' ∨ ∃ msgbody msgbody' values values',
      m.command? = some (.setDeviceSettings msgbody) ∧
      m'.command? = some (.setDeviceSettings msgbody') ∧
      lib.parse msgbody = some values ∧ lib.parse msgbody' = some values' ∧
      ∀ key, key ≠ "DeviceId" → key ≠ "CurrentCaptureName" →
        values.index key = values'.index key)
  | _, _ => False

def Event.notified (last : Option String) : Event → Option String
  | .message _ _ => last
  | .notification blobname => some blobname

namespace Device

/-- The device, and the name of the last capture it was notified of. -/
def notifying (lib : JsonLibrary) : Machine (Device × Option String) Event :=
  (Device.machine lib).record fun _ e _ last => e.notified last

/-- The two fields are the device's own, and what it sends says who it is. -/
structure OwnsFacts (id : String) (s : Device × Option String) : Prop where
  deviceId : s.1.settings.deviceId = id
  captureName : s.1.settings.currentCaptureName = s.2.getD ""
  settingsMessage : ("DeviceId", Json.string id) ∈ s.1.settings.members
  statusMessage : ∀ files status message version, ("DeviceId", Json.string id) ∈
    fwUpdateStatusMembers files s.1.settings.deviceId status message version

theorem ownsFacts_iff {id : String} {s : Device × Option String} :
    OwnsFacts id s ↔
      s.1.settings.deviceId = id ∧ s.1.settings.currentCaptureName = s.2.getD "" := by
  constructor
  · intro h
    exact ⟨h.deviceId, h.captureName⟩
  · rintro ⟨hid, hname⟩
    refine ⟨hid, hname, ?_, ?_⟩
    · rw [← hid]
      exact List.mem_cons_self
    · intro files status message version
      rw [← hid]
      exact List.mem_cons_self

variable (lib : JsonLibrary)

theorem ownsFacts_init (deviceId : String) (hardware : Hardware) :
    OwnsFacts deviceId (Device.init deviceId hardware, none) := by
  rw [ownsFacts_iff]
  cases hardware <;> exact ⟨rfl, rfl⟩

/-- What an update does to the two fields. -/
theorem owned_updateSettings (io : DriverReply) (msgbody : Text) (d : Device) :
    ((d.updateSettings lib io msgbody).2.settings.deviceId = d.settings.deviceId ∧
      (d.updateSettings lib io msgbody).2.settings.currentCaptureName =
        d.settings.currentCaptureName) ↔
    ∀ values, lib.parse msgbody = some values →
      (∀ id, values.stringAt "DeviceId" = some id → id = d.settings.deviceId) ∧
      ∀ name, DeviceSettings.givenCaptureName values = some name →
        name = d.settings.currentCaptureName := by
  rw [Device.settings_updateSettings]
  cases hparse : lib.parse msgbody with
  | none =>
    rw [DeviceSettings.deserialize_none hparse]
    apply iff_of_true
    · exact ⟨rfl, rfl⟩
    · intro values hvalues
      simp at hvalues
  | some values =>
    rw [DeviceSettings.deserialize_some hparse, DeviceSettings.deviceId_runAssignments,
      DeviceSettings.currentCaptureName_runAssignments]
    simp only [Option.some.injEq, forall_eq']
    apply and_congr
    · cases values.stringAt "DeviceId" <;> simp
    · cases DeviceSettings.givenCaptureName values <;> simp

/-- One event: the two fields stay the device's own exactly if it keeps them. -/
theorem ownsFacts_step {id : String} {s t : Device × Option String} {e : Event}
    (h : OwnsFacts id s) (hstep : (notifying lib).step s e = some t) :
    OwnsFacts id t ↔ e.KeepsOwned lib s.1 := by
  obtain ⟨d, last⟩ := s
  obtain ⟨d', last'⟩ := t
  obtain ⟨hnext, hlast⟩ := Machine.record_step hstep
  injection hnext with hnext
  dsimp only at hlast hnext
  subst hnext hlast
  obtain ⟨hid, hname⟩ := ownsFacts_iff.mp h
  dsimp only at hid hname
  rw [ownsFacts_iff]
  cases e with
  | notification blobname =>
    apply iff_of_true
    · exact ⟨hid, rfl⟩
    · intro msgbody values hcmd
      simp [Event.command?] at hcmd
  | message m io =>
    simp only [Device.next, Event.notified]
    rcases receiveMessageCallback_cases lib io d m with ⟨msgbody, hcmd, hstate, heq⟩ | ⟨hnot, heq⟩
    · rw [heq, Device.device_handleUpdate, ← hid, ← hname, owned_updateSettings]
      constructor
      · intro hbody msgbody' values hcmd' _
        obtain rfl := Command.setDeviceSettings.inj (Option.some.inj (hcmd.symm.trans hcmd'))
        exact hbody values
      · intro hkeeps values
        exact hkeeps msgbody values hcmd hstate
    · -- no body is read
      apply iff_of_true
      · rcases heq with heq | ⟨effects, heq⟩ | ⟨d', s, effects, hsettings, heq⟩
        · rw [heq]
          exact ⟨hid, hname⟩
        · rw [heq]
          exact ⟨hid, hname⟩
        · rw [heq]
          simp only [Device.accept, Device.changeState, hsettings]
          exact ⟨hid, hname⟩
      · intro msgbody values hcmd hstate
        exact absurd (hnot msgbody hcmd) hstate

theorem sameButOwned_notified {e e' : Event} (h : e.SameButOwned lib e') (last : Option String) :
    e.notified last = e'.notified last := by
  cases e with
  | message m io =>
    cases e' with
    | message m' io' => rfl
    | notification blobname => exact h.elim
  | notification blobname =>
    cases e' with
    | message m' io' => exact h.elim
    | notification blobname' => exact congrArg some h

/-- Two such runs have been notified of the same captures. -/
theorem notified_sameButOwned {events events' : List Event}
    (h : List.Forall₂ (Event.SameButOwned lib) events events') {d d' : Device}
    {last : Option String} {s s' : Device × Option String}
    (hs : (notifying lib).exec (d, last) events = some s)
    (hs' : (notifying lib).exec (d', last) events' = some s') : s.2 = s'.2 := by
  induction h generalizing d d' last with
  | nil =>
    injection hs with hs
    injection hs' with hs'
    rw [← hs, ← hs']
  | @cons e e' rest rest' he _ ih =>
    obtain ⟨t, ht, hrest⟩ := Option.bind_eq_some_iff.mp hs
    obtain ⟨t', ht', hrest'⟩ := Option.bind_eq_some_iff.mp hs'
    injection ht with ht
    injection ht' with ht'
    subst ht ht'
    dsimp only at hrest hrest'
    rw [← sameButOwned_notified lib he last] at hrest'
    exact ih hrest hrest'

/-- **When the cloud cannot overwrite the device's own facts.**  In every state of a
    run they are what they were made of exactly if no settings body that is taken
    gives others; and two such runs whose bodies differ in these fields only agree
    on them. -/
theorem ownsFacts_iff_keepsOwned (deviceId : String) (hardware : Hardware) :
    (∀ events, (notifying lib).AllStates (OwnsFacts deviceId)
        (Device.init deviceId hardware, none) events ↔
      (notifying lib).AllSteps (fun s e => e.KeepsOwned lib s.1)
        (Device.init deviceId hardware, none) events) ∧
    ∀ events events' s s', List.Forall₂ (Event.SameButOwned lib) events events' →
      (notifying lib).AllSteps (fun s e => e.KeepsOwned lib s.1)
        (Device.init deviceId hardware, none) events →
      (notifying lib).AllSteps (fun s e => e.KeepsOwned lib s.1)
        (Device.init deviceId hardware, none) events' →
      (notifying lib).exec (Device.init deviceId hardware, none) events = some s →
      (notifying lib).exec (Device.init deviceId hardware, none) events' = some s' →
        s.1.settings.deviceId = s'.1.settings.deviceId ∧
        s.1.settings.currentCaptureName = s'.1.settings.currentCaptureName := by
  have hiff : ∀ events, (notifying lib).AllStates (OwnsFacts deviceId)
        (Device.init deviceId hardware, none) events ↔
      (notifying lib).AllSteps (fun s e => e.KeepsOwned lib s.1)
        (Device.init deviceId hardware, none) events := by
    intro events
    apply Machine.allStates_iff_allSteps _ _ (ownsFacts_init deviceId hardware)
    intro s e t hs hstep
    exact ownsFacts_step lib hs hstep
  refine ⟨hiff, ?_⟩
  intro events events' s s' hsame hkeeps hkeeps' hexec hexec'
  have howns := ((hiff events).mpr hkeeps).final hexec
  have howns' := ((hiff events').mpr hkeeps').final hexec'
  constructor
  · rw [howns.deviceId, howns'.deviceId]
  · rw [howns.captureName, howns'.captureName, notified_sameButOwned lib hsame hexec hexec']

def foreignIdBody : Text := "\x7b\"DeviceId\":\"d2\"\x7d".toList

/-- A body that gives another `DeviceId` is taken for the device's own. -/
theorem ownsFacts_overwritten :
    ¬ (notifying (.ofTable [(foreignIdBody, .object [("DeviceId", .string "d2")])])).AllStates
      (OwnsFacts "d1") (Device.init "d1" (.camera 30 200.0), none)
      [.message (Message.setDeviceSettings foreignIdBody) ⟨true, true⟩] := by
  rintro ⟨-, h⟩
  have hlast := (h _ rfl).deviceId
  exact absurd (show "d2" = "d1" from hlast) (by decide)

end Device

end IsmDevice
