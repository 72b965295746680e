import IsmDevice.Protocol

/-!
# The state name in the settings

The state is kept twice: `_state` is the current state object, and the settings
carry its name, by which the back end tells a run from a preview.  `ChangeState`
writes both.  `Deserialize` writes the second alone, from the body of a message.
-/

namespace IsmDevice

open Transition

def Device.StateNameAgrees (d : Device) : Prop :=
  d.settings.stateName = d.state.getStateName

/-- A settings body that is taken and from which `StateName` is read carries the
    name of the state the device is in. -/
def Event.KeepsStateName (lib : JsonLibrary) (d : Device) (e : Event) : Prop :=
  ∀ msgbody values id name, e.command? = some (.setDeviceSettings msgbody) → d.state ≠ .run →
    lib.parse msgbody = some values → values.stringAt "DeviceId" = some id →
    values.stringAt "StateName" = some name → name = d.state.getStateName

section

variable (lib : JsonLibrary)

theorem Device.stateNameAgrees_init (deviceId : String) (hardware : Hardware) :
    (Device.init deviceId hardware).StateNameAgrees := by
  cases hardware <;> rfl

theorem Device.stateNameAgrees_changeState (s : DeviceState) (d : Device) :
    (d.changeState s).StateNameAgrees := rfl

theorem Device.stateNameAgrees_updateSettings (io : DriverReply) (msgbody : Text) {d : Device}
    (h : d.StateNameAgrees) :
    (d.updateSettings lib io msgbody).2.StateNameAgrees ↔
      ∀ values id name, lib.parse msgbody = some values → values.stringAt "DeviceId" = some id →
        values.stringAt "StateName" = some name → name = d.state.getStateName := by
  unfold Device.StateNameAgrees at h ⊢
  rw [Device.settings_updateSettings, Device.state_updateSettings]
  cases hparse : lib.parse msgbody with
  | none =>
    rw [DeviceSettings.deserialize_none hparse]
    apply iff_of_true
    · exact h
    · intro values id name hvalues
      simp at hvalues
  | some values =>
    rw [DeviceSettings.deserialize_some hparse, DeviceSettings.stateName_runAssignments]
    constructor
    · rintro heq values' id name hvalues hid hname
      injection hvalues with heq
      subst heq
      rw [hid, hname] at heq
      exact heq
    · intro hbody
      cases hid : values.stringAt "DeviceId" with
      | none => exact h
      | some id =>
        cases hname : values.stringAt "StateName" with
        | none => exact h
        | some name => exact hbody values id name rfl hid hname

/-- One step: the name still agrees exactly if the event keeps it. -/
theorem Device.stateNameAgrees_next {d : Device} (h : d.StateNameAgrees) (e : Event) :
    (d.next lib e).device.StateNameAgrees ↔ e.KeepsStateName lib d := by
  cases e with
  | notification blobname =>
    apply iff_of_true h
    intro msgbody values id name hcmd
    simp [Event.command?] at hcmd
  | message m io =>
    rw [Device.next]
    rcases receiveMessageCallback_cases lib io d m with ⟨msgbody, hcmd, hstate, heq⟩ | ⟨hnot, heq⟩
    · rw [heq, Device.device_handleUpdate, Device.stateNameAgrees_updateSettings lib io msgbody h]
      constructor
      · intro hbody msgbody' values id name hcmd' _
        obtain rfl := Command.setDeviceSettings.inj (Option.some.inj (hcmd.symm.trans hcmd'))
        exact hbody values id name
      · intro hkeeps values id name
        exact hkeeps msgbody values id name hcmd hstate
    · -- no body is read, and the name is the old one or written together with the state
      have hagrees : (d.receiveMessageCallback lib io m).device.StateNameAgrees := by
        rcases heq with heq | ⟨effects, heq⟩ | ⟨d', s, effects, -, heq⟩
        · rw [heq]; exact h
        · rw [heq]; exact h
        · rw [heq]; exact Device.stateNameAgrees_changeState s d'
      apply iff_of_true hagrees
      intro msgbody values id name hcmd hstate
      exact absurd (hnot msgbody hcmd) hstate

/-- **When the state name stays right.**  Over every history of a device, the
    settings name its state after every event exactly if no settings body that
    the device takes names another state. -/
theorem stateName_agrees_iff (deviceId : String) (hardware : Hardware) (events : List Event) :
    (Device.machine lib).AllStates Device.StateNameAgrees (Device.init deviceId hardware) events ↔
      (Device.machine lib).AllSteps (fun d e => e.KeepsStateName lib d)
        (Device.init deviceId hardware) events := by
  apply Machine.allStates_iff_allSteps _ _ (Device.stateNameAgrees_init deviceId hardware)
  intro d e d' hd hstep
  injection hstep with heq
  subst heq
  exact Device.stateNameAgrees_next lib hd e

end

def foreignStateBody : Text := "\x7b\"DeviceId\":\"d1\",\"StateName\":\"RunState\"\x7d".toList

def foreignStateLibrary : JsonLibrary :=
  .ofTable [(foreignStateBody,
    .object [("DeviceId", .string "d1"), ("StateName", .string "RunState")])]

/-- A ready device that accepts such a body calls itself running. -/
theorem stateName_disagrees :
    ¬ (Device.machine foreignStateLibrary).AllStates Device.StateNameAgrees
      (Device.init "d1" (.camera 30 200.0))
      [.message (Message.setDeviceSettings foreignStateBody) ⟨true, true⟩] := by
  rintro ⟨-, h⟩
  have hlast := h _ rfl
  exact absurd (show "RunState" = "ReadyState" from hlast) (by decide)

end IsmDevice
