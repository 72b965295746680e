import IsmDevice.Protocol

/-!
# Dispatch of messages

What `ReceiveMessageCallback` is for, said without its loop: of the entries of a
message, the first whose key is `C2D_Command` and whose value names a command
decides which handler runs, and all other entries are as if they were not there.
-/

namespace IsmDevice

def commandNames (msgbody : Text) : List (String × Command) :=
  [(CommandType.START, .start),
   (CommandType.STOP, .stop),
   (CommandType.START_PREVIEW, .startPreview),
   (CommandType.STOP_PREVIEW, .stopPreview),
   (CommandType.SET_DEVICE_SETTINGS, .setDeviceSettings msgbody),
   (CommandType.GET_DEVICE_SETTINGS, .getDeviceSettings)]

/-- The entry has the right key and, as its value, exactly the name of a command. -/
def Command.NamedBy (cmd : Command) (msgbody : Text) (entry : String × String) : Prop :=
  entry.1 = EventType.C2D_COMMAND ∧ (entry.2, cmd) ∈ commandNames msgbody

theorem Command.ofName?_eq_some_iff (value : String) (msgbody : Text) (cmd : Command) :
    Command.ofName? value msgbody = some cmd ↔ (value, cmd) ∈ commandNames msgbody := by
  unfold Command.ofName? commandNames
  simp only [List.mem_cons, List.not_mem_nil, or_false, Prod.mk.injEq]
  constructor
  · intro h
    split_ifs at h with h1 h2 h3 h4 h5 h6
    all_goals
      injection h with heq
      subst heq
      simp [*]
  · rintro (⟨rfl, rfl⟩ | ⟨rfl, rfl⟩ | ⟨rfl, rfl⟩ | ⟨rfl, rfl⟩ | ⟨rfl, rfl⟩ | ⟨rfl, rfl⟩) <;> rfl

theorem Command.namedBy_iff (cmd : Command) (msgbody : Text) (entry : String × String) :
    cmd.NamedBy msgbody entry ↔
      (if entry.1 = EventType.C2D_COMMAND then Command.ofName? entry.2 msgbody else none) =
        some cmd := by
  unfold Command.NamedBy
  by_cases hkey : entry.1 = EventType.C2D_COMMAND
  · rw [if_pos hkey, Command.ofName?_eq_some_iff, and_iff_right hkey]
  · rw [if_neg hkey]
    simp [hkey]

/-- Entries before the first that names a command, and entries after it, do not
    matter to which command is selected. -/
theorem Command.first?_append_cons {cmd : Command} {msgbody : Text} {entry : String × String}
    {before after : List (String × String)}
    (hbefore : ∀ other ∈ before, ∀ c : Command, ¬ c.NamedBy msgbody other)
    (hentry : cmd.NamedBy msgbody entry) :
    Command.first? msgbody (before ++ entry :: after) = some cmd := by
  have hskip : before.findSome? (fun p =>
      if p.1 = EventType.C2D_COMMAND then Command.ofName? p.2 msgbody else none) = none := by
    apply List.findSome?_eq_none_iff.mpr
    intro other hmem
    apply Option.eq_none_iff_forall_ne_some.mpr
    intro c hc
    exact hbefore other hmem c ((c.namedBy_iff msgbody other).mpr hc)
  unfold Command.first?
  rw [List.findSome?_append, hskip, Option.none_or, List.findSome?_cons,
    (cmd.namedBy_iff msgbody entry).mp hentry]

theorem Command.first?_eq_none {msgbody : Text} {entries : List (String × String)}
    (h : ∀ entry ∈ entries, ∀ cmd : Command, ¬ cmd.NamedBy msgbody entry) :
    Command.first? msgbody entries = none := by
  apply List.findSome?_eq_none_iff.mpr
  intro entry hmem
  apply Option.eq_none_iff_forall_ne_some.mpr
  intro cmd hcmd
  exact h entry hmem cmd ((cmd.namedBy_iff msgbody entry).mpr hcmd)

/-- What a state does with a command. -/
def DeviceState.handler (lib : JsonLibrary) (io : DriverReply) :
    DeviceState → Device → Command → Handled
  | .ready => ReadyState.handle lib io
  | .run => RunState.handle
  | .preview => PreviewState.handle lib io

theorem Device.handle_eq_handler (lib : JsonLibrary) (io : DriverReply) (d : Device)
    (cmd : Command) : d.handle lib io cmd = d.state.handler lib io d cmd := by
  rw [Device.handle]
  cases d.state <;> rfl

/-- **Dispatch meets its specification.**  With a body, the first entry that names
    a command makes the callback exactly what the current state does with that command,
    whatever stands before and after it; with no such entry or no body, the message is
    rejected and nothing else happens. -/
theorem dispatch_spec (lib : JsonLibrary) (io : DriverReply) (d : Device)
    (properties : List (String × String)) (body : Option Text) :
    (∀ buffer before entry after cmd, body = some buffer → properties = before ++ entry :: after →
      (∀ other ∈ before, ∀ c : Command, ¬ c.NamedBy (messageBody buffer) other) →
      cmd.NamedBy (messageBody buffer) entry →
        d.receiveMessageCallback lib io ⟨some properties, body⟩ = d.state.handler lib io d cmd) ∧
    ((body = none ∨ ∀ buffer, body = some buffer →
        ∀ entry ∈ properties, ∀ cmd : Command, ¬ cmd.NamedBy (messageBody buffer) entry) →
      d.receiveMessageCallback lib io ⟨some properties, body⟩ = ⟨.rejected, d, []⟩) := by
  constructor
  · rintro buffer before entry after cmd rfl rfl hbefore hentry
    rw [← d.handle_eq_handler]
    apply receiveMessageCallback_some
    exact Command.first?_append_cons hbefore hentry
  · intro h
    apply receiveMessageCallback_none
    cases body with
    | none => rfl
    | some buffer =>
      rcases h with h | h
      · simp at h
      · exact Command.first?_eq_none (h buffer rfl)

end IsmDevice
