import Mathlib.Data.List.Basic
import IsmDevice.Device
import IsmDevice.PruRun

/-!
# New timing for a running PRU

In the preview state settings are taken while the PRU program runs.
`SetCameraPruValues` writes the pulse word, then the trigger, then the pause; the
program reads the trigger, then the pulse, then the pause, at most one of them at
a time and many instructions apart.  Whether the three words of a pass come from
one call depends on where the writes fall.
-/

namespace IsmDevice

open Transition

/-- What `SetCameraPruValues` writes, in its order. -/
def pruWrites (settings : DeviceSettings) : List HostWrite :=
  let (trigger, pulse, pause) := pruDurations settings
  [.setPulseduration pulse, .setTriggerduration trigger, .setPauseduration pause]

theorem foldl_pruWrites (settings : DeviceSettings) (camera : Camera) :
    (pruWrites settings).foldl (fun camera w => w.apply camera) camera =
      setCameraPruValues settings camera := rfl

/-- A camera in preview: the PRU at work, and the writes that a call of
    `SetCameraPruValues` has still to make. -/
structure Preview where
  host : PruHost
  pending : List HostWrite

inductive PreviewAction where
  | instruction
  | setCameraPruValues (settings : DeviceSettings)
  | write

namespace Preview

/-- `StartCamera`, and the program at `START` with both pins low. -/
def init (settings : DeviceSettings) (camera : Camera) (reg : Register → UInt32) : Preview where
  host := ⟨(setCameraPruValues settings camera).start, Pulse.START, reg, fun _ => false, []⟩
  pending := []

/-- Messages are handled one after the other: a call is made when the one before it
    has returned. -/
def step (s : Preview) : PreviewAction → Option Preview
  | .instruction => (s.host.step .instruction).map fun host => { s with host := host }
  | .setCameraPruValues settings =>
      if s.pending = [] then some { s with pending := pruWrites settings } else none
  | .write =>
      match s.pending with
      | w :: rest => (s.host.step (.write w)).map fun host => ⟨host, rest⟩
      | [] => none

def machine : Machine Preview PreviewAction where
  step := step

/-! ### What a pass has read -/

/-- The calls so far, numbered from 0, and the one that wrote each word last. -/
structure Writes where
  calls : List (UInt32 × UInt32 × UInt32) -- trigger, pulse and pause
  trigger : Nat
  pulse : Nat
  pause : Nat
deriving DecidableEq, Repr

/-- The pass that the program is in. -/
structure Pass where
  reads : List (Nat × UInt32) -- words it has read, with the calls that wrote them
  elapsed : Nat -- instructions since `START`
  left : Nat -- writes the call in progress had left when the trigger was read
  pulseWrites : Nat -- pulse words written since then
  pauseWrites : Nat
deriving DecidableEq, Repr

structure History where
  writes : Writes
  pass : Pass
deriving DecidableEq, Repr

def History.init (settings : DeviceSettings) : History :=
  ⟨⟨[pruDurations settings], 0, 0, 0⟩, ⟨[], 0, 0, 0, 0⟩⟩

def Writes.written (h : Writes) : HostWrite → Writes
  | .setTriggerduration _ => { h with trigger := h.calls.length - 1 }
  | .setPulseduration _ => { h with pulse := h.calls.length - 1 }
  | .setPauseduration _ => { h with pause := h.calls.length - 1 }
  | .start => h
  | .stop => h

def Pass.written (h : Pass) : HostWrite → Pass
  | .setPulseduration _ => { h with pulseWrites := h.pulseWrites + 1 }
  | .setPauseduration _ => { h with pauseWrites := h.pauseWrites + 1 }
  | _ => h

def Pass.executed (s : Preview) (writes : Writes) (h : Pass) : Pass :=
  let words := s.host.camera.pruDataMem
  match s.host.cpu.pc with
  | 1 => ⟨[(writes.trigger, words.word0)], h.elapsed + 1, s.pending.length, 0, 0⟩
  | 7 => { h with
      reads := h.reads ++ [(writes.pulse, words.word1)], elapsed := h.elapsed + 1 }
  | 13 => { h with
      reads := h.reads ++ [(writes.pause, words.word2)], elapsed := h.elapsed + 1 }
  | 18 => { h with reads := [], elapsed := 0 } -- the test of word 3
  | _ => { h with elapsed := h.elapsed + 1 }

def History.update (s : Preview) (a : PreviewAction) (_ : Preview) (h : History) : History :=
  match a with
  | .instruction => { h with pass := h.pass.executed s h.writes }
  | .setCameraPruValues settings =>
      { h with writes := { h.writes with calls := h.writes.calls ++ [pruDurations settings] } }
  | .write =>
      match s.pending with
      | w :: _ => ⟨h.writes.written w, h.pass.written w⟩
      | [] => h

def recorded : Machine (Preview × History) PreviewAction := machine.record History.update

/-- The words the pass has read are those of one call, and at the test of word 3 it
    has read all three and has taken as long as that call meant it to. -/
def OneCall (s : Preview × History) : Prop :=
  ∃ k t p q, s.2.writes.calls[k]? = some (t, p, q) ∧
    s.2.pass.reads <+: [(k, t), (k, p), (k, q)] ∧
    (s.1.host.cpu.pc = 18 → s.2.pass.reads = [(k, t), (k, p), (k, q)] ∧
      s.2.pass.elapsed + 1 = Pulse.cycleLength t p q)

/-- Reading its pulse, the pass had not read the trigger between a call's pulse and
    trigger, and no pulse was written since; reading its pause, no pause was written
    since it read the trigger but the one a call had then still to write. -/
def Unsplit (s : Preview × History) : PreviewAction → Prop
  | .instruction =>
      (s.1.host.cpu.pc = 7 → s.2.pass.left ≠ 2 ∧ s.2.pass.pulseWrites = 0) ∧
      (s.1.host.cpu.pc = 13 → s.2.pass.pauseWrites = if s.2.pass.left = 1 then 1 else 0)
  | .setCameraPruValues _ => True
  | .write => True

/-! ### What always holds -/

/-- Each word is that of the call that wrote it. -/
structure Written (m : PruDataMem) (h : Writes) : Prop where
  trigger : ∃ p q, h.calls[h.trigger]? = some (m.word0, p, q)
  pulse : ∃ t q, h.calls[h.pulse]? = some (t, m.word1, q)
  pause : ∃ t p, h.calls[h.pause]? = some (t, p, m.word2)

/-- How far the last call has come with its writes. -/
inductive Progress (h : Writes) : List HostWrite → Prop where
  | returned (htrigger : h.trigger + 1 = h.calls.length) (hpulse : h.pulse + 1 = h.calls.length)
      (hpause : h.pause + 1 = h.calls.length) : Progress h []
  | begun {t p q : UInt32} (hcall : h.calls[h.calls.length - 1]? = some (t, p, q))
      (htrigger : h.trigger + 2 = h.calls.length) (hpulse : h.pulse + 2 = h.calls.length)
      (hpause : h.pause + 2 = h.calls.length) :
      Progress h [.setPulseduration p, .setTriggerduration t, .setPauseduration q]
  | pulse {t p q : UInt32} (hcall : h.calls[h.calls.length - 1]? = some (t, p, q))
      (htrigger : h.trigger + 2 = h.calls.length) (hpulse : h.pulse + 1 = h.calls.length)
      (hpause : h.pause + 2 = h.calls.length) :
      Progress h [.setTriggerduration t, .setPauseduration q]
  | trigger {t p q : UInt32} (hcall : h.calls[h.calls.length - 1]? = some (t, p, q))
      (htrigger : h.trigger + 1 = h.calls.length) (hpulse : h.pulse + 1 = h.calls.length)
      (hpause : h.pause + 2 = h.calls.length) :
      Progress h [.setPauseduration q]

/-- The reads of the pass are as many as its address says, and its instructions add up. -/
structure Counted (cpu : PruCpu) (h : Pass) : Prop where
  length : cpu.pc ≤ 18 → h.reads.length + Pulse.unread cpu.pc = 3
  elapsed : cpu.pc ≤ 18 → h.elapsed + Pulse.loopLeft cpu =
    Pulse.place cpu.pc + 2 * (h.reads.map fun r => Pru.loopCount r.2).sum

/-- The calls of the pulse and pause words, from the call `k` of the trigger read. -/
structure Since (k : Nat) (writes : Writes) (h : Pass) : Prop where
  pulse : writes.pulse = k + h.pulseWrites + if h.left = 2 then 1 else 0
  pause : (writes.pause + if h.left = 1 then 1 else 0) = k + h.pauseWrites

structure Consistent (s : Preview × History) : Prop where
  cpu : Pulse.Inv s.1.host.cpu
  written : Written s.1.host.camera.pruDataMem s.2.writes
  progress : Progress s.2.writes s.1.pending
  counted : Counted s.1.host.cpu s.2.pass
  since : ∀ r ∈ s.2.pass.reads.head?, Since r.1 s.2.writes s.2.pass

theorem consistent_init (settings : DeviceSettings) (camera : Camera) (reg : Register → UInt32) :
    Consistent (init settings camera reg, History.init settings) where
  cpu := .start rfl rfl rfl
  written := ⟨⟨_, _, rfl⟩, ⟨_, _, rfl⟩, ⟨_, _, rfl⟩⟩
  progress := .returned rfl rfl rfl
  counted := ⟨fun _ => rfl, fun _ => rfl⟩
  since r hr := by simp [History.init] at hr

theorem Written.call {m : PruDataMem} {h : Writes} (hw : Written m h)
    (call : UInt32 × UInt32 × UInt32) : Written m { h with calls := h.calls ++ [call] } := by
  obtain ⟨⟨p, q, htrigger⟩, ⟨t, q', hpulse⟩, ⟨t', p', hpause⟩⟩ := hw
  constructor
  · exact ⟨p, q, Machine.getElem?_append_some htrigger _⟩
  · exact ⟨t, q', Machine.getElem?_append_some hpulse _⟩
  · exact ⟨t', p', Machine.getElem?_append_some hpause _⟩

theorem Progress.call {h : Writes} (hp : Progress h []) (settings : DeviceSettings) :
    Progress { h with calls := h.calls ++ [pruDurations settings] } (pruWrites settings) := by
  cases hp with
  | returned htrigger hpulse hpause =>
    have hlen : (h.calls ++ [pruDurations settings]).length = h.calls.length + 1 := by simp
    apply Progress.begun
    · simp only [hlen, Nat.add_sub_cancel, List.getElem?_concat_length]
      rfl
    · rw [hlen]
      exact congrArg (· + 1) htrigger
    · rw [hlen]
      exact congrArg (· + 1) hpulse
    · rw [hlen]
      exact congrArg (· + 1) hpause

/-- One write of a call moves all that depends on it together. -/
theorem Consistent.write {s : Preview} {h : History} (hs : Consistent (s, h)) {w : HostWrite}
    {rest : List HostWrite} (hpending : s.pending = w :: rest) :
    Consistent (⟨{ s.host with camera := w.apply s.host.camera }, rest⟩,
      ⟨h.writes.written w, h.pass.written w⟩) := by
  obtain ⟨hcpu, hwritten, hprogress, hcounted, hsince⟩ := hs
  obtain ⟨htword, hpword, hqword⟩ := hwritten
  simp only [hpending] at hprogress hsince
  cases hprogress with
  | begun hcall htrigger hpulse hpause =>
    constructor
    · exact hcpu
    · exact ⟨htword, ⟨_, _, hcall⟩, hqword⟩
    · exact .pulse hcall htrigger (by simp only [Writes.written]; omega) hpause
    · exact ⟨hcounted.length, hcounted.elapsed⟩
    · intro r hr
      obtain ⟨hsp, hsq⟩ := hsince r hr
      refine ⟨?_, hsq⟩
      show h.writes.calls.length - 1 =
        r.1 + (h.pass.pulseWrites + 1) + if h.pass.left = 2 then 1 else 0
      omega
  | pulse hcall htrigger hpulse hpause =>
    constructor
    · exact hcpu
    · exact ⟨⟨_, _, hcall⟩, hpword, hqword⟩
    · exact .trigger hcall (by simp only [Writes.written]; omega) hpulse hpause
    · exact hcounted
    · intro r hr
      obtain ⟨hsp, hsq⟩ := hsince r hr
      exact ⟨hsp, hsq⟩
  | trigger hcall htrigger hpulse hpause =>
    constructor
    · exact hcpu
    · exact ⟨htword, hpword, ⟨_, _, hcall⟩⟩
    · exact .returned htrigger hpulse (by simp only [Writes.written]; omega)
    · exact ⟨hcounted.length, hcounted.elapsed⟩
    · intro r hr
      obtain ⟨hsp, hsq⟩ := hsince r hr
      refine ⟨hsp, ?_⟩
      show (h.writes.calls.length - 1 + if h.pass.left = 1 then 1 else 0) =
        r.1 + (h.pass.pauseWrites + 1)
      omega

/-- Away from the fetches and the test of word 3 an instruction is only counted. -/
theorem executed_of_ne {s : Preview} (h1 : s.host.cpu.pc ≠ 1) (h7 : s.host.cpu.pc ≠ 7)
    (h13 : s.host.cpu.pc ≠ 13) (h18 : s.host.cpu.pc ≠ 18) (writes : Writes) (h : Pass) :
    h.executed s writes = { h with elapsed := h.elapsed + 1 } := by
  unfold Pass.executed
  dsimp only
  split
  · exact absurd ‹_› h1
  · exact absurd ‹_› h7
  · exact absurd ‹_› h13
  · exact absurd ‹_› h18
  · rfl

theorem executed_fetch {s : Preview} {h : Pass} (hc : Counted s.host.cpu h) (writes : Writes) :
    (s.host.cpu.pc = 1 → (h.executed s writes).reads =
      h.reads ++ [(writes.trigger, s.host.camera.pruDataMem.word0)]) ∧
    (s.host.cpu.pc = 7 → (h.executed s writes).reads =
      h.reads ++ [(writes.pulse, s.host.camera.pruDataMem.word1)]) ∧
    (s.host.cpu.pc = 13 → (h.executed s writes).reads =
      h.reads ++ [(writes.pause, s.host.camera.pruDataMem.word2)]) := by
  have hlength := hc.length
  refine ⟨?_, ?_, ?_⟩
  · intro hpc
    -- nothing has been read before
    have hnil : h.reads = [] := by
      simpa [hpc, Pulse.unread] using hlength
    simp only [Pass.executed, hpc, hnil, List.nil_append]
  · intro hpc
    simp only [Pass.executed, hpc]
  · intro hpc
    simp only [Pass.executed, hpc]

theorem elapsed_executed {s : Preview} (h18 : s.host.cpu.pc ≠ 18) (writes : Writes) (h : Pass) :
    (h.executed s writes).elapsed = h.elapsed + 1 := by
  unfold Pass.executed
  dsimp only
  split
  case h_4 hpc => exact absurd hpc h18
  all_goals rfl

/-- A fetch adds the word to what has been read, and its loop to what is to come. -/
theorem Counted.fetch {c d : PruCpu} {ram : UInt32 → UInt32} {h h' : Pass} (hc : Counted c h)
    (hfetch : c.pc = 1 ∨ c.pc = 7 ∨ c.pc = 13) (hstep : Pulse.machine.step c ram = some d)
    {r : Nat × UInt32} (hr0 : d.reg .r0 = r.2) (hreads : h'.reads = h.reads ++ [r])
    (helapsed : h'.elapsed = h.elapsed + 1) : Counted d h' := by
  have hne : c.pc ≠ 18 := by omega
  have hplace := Pulse.place_step hne hstep
  have hunread := Pulse.unread_step hne hstep
  rw [Pulse.fetched, if_pos hfetch, hr0] at hplace
  rw [if_pos hfetch] at hunread
  constructor
  · intro _
    have hlength := hc.length (by omega)
    rw [hreads, List.length_append, List.length_singleton]
    omega
  · intro _
    have hbefore := hc.elapsed (by omega)
    rw [helapsed, hreads, List.map_append, List.sum_append, List.map_singleton, List.sum_singleton]
    omega

theorem Counted.executed {s : Preview} {h : Pass} (hcpu : Pulse.Inv s.host.cpu)
    (hc : Counted s.host.cpu h) {d : PruCpu}
    (hstep : Pulse.machine.step s.host.cpu s.host.camera.pruDataMem.load = some d)
    (writes : Writes) : Counted d (h.executed s writes) := by
  have hpc := Pulse.pc_step hstep
  obtain ⟨hreg0, hreg1, hreg2⟩ := Pulse.reg_fetch hcpu hstep
  obtain ⟨hreads0, hreads1, hreads2⟩ := executed_fetch hc writes
  by_cases h18 : s.host.cpu.pc = 18
  · -- a new pass, or none
    have hexec : h.executed s writes = { h with reads := [], elapsed := 0 } := by
      simp only [Pass.executed, h18]
    rw [hexec]
    rcases hpc with ⟨hnext, -⟩ | ⟨hnext, hat⟩ | ⟨hnext, -, -⟩
    · constructor <;> omega
    · omega
    · constructor
      · intro _
        rw [hnext]
        rfl
      · intro _
        rw [Pulse.loopLeft_between (Or.inl hnext), hnext]
        rfl
  · have helapsed := elapsed_executed h18 writes h
    by_cases h1 : s.host.cpu.pc = 1
    · exact hc.fetch (Or.inl h1) hstep (hreg0 h1) (hreads0 h1) helapsed
    · by_cases h7 : s.host.cpu.pc = 7
      · exact hc.fetch (Or.inr (Or.inl h7)) hstep (hreg1 h7) (hreads1 h7) helapsed
      · by_cases h13 : s.host.cpu.pc = 13
        · exact hc.fetch (Or.inr (Or.inr h13)) hstep (hreg2 h13) (hreads2 h13) helapsed
        · have hnone : ¬ (s.host.cpu.pc = 1 ∨ s.host.cpu.pc = 7 ∨ s.host.cpu.pc = 13) := by omega
          have hplace := Pulse.place_step h18 hstep
          have hunread := Pulse.unread_step h18 hstep
          rw [Pulse.fetched, if_neg hnone] at hplace
          rw [if_neg hnone] at hunread
          rw [executed_of_ne h1 h7 h13 h18]
          constructor
          · intro hle
            have hlength := hc.length (by omega)
            dsimp only
            omega
          · intro hle
            have hbefore := hc.elapsed (by omega)
            dsimp only
            omega

/-- The trigger read starts the count of the writes since. -/
theorem Progress.since {writes : Writes} {pending : List HostWrite}
    (h : Progress writes pending) (reads : List (Nat × UInt32)) (elapsed : Nat) :
    Since writes.trigger writes ⟨reads, elapsed, pending.length, 0, 0⟩ := by
  cases h <;> constructor <;> simp <;> omega

theorem Since.executed {s : Preview} {writes : Writes} {h : Pass} (hc : Counted s.host.cpu h)
    (hprogress : Progress writes s.pending)
    (hsince : ∀ r ∈ h.reads.head?, Since r.1 writes h) :
    ∀ r ∈ (h.executed s writes).reads.head?, Since r.1 writes (h.executed s writes) := by
  have hlength := hc.length
  intro r hr
  unfold Pass.executed at hr ⊢
  dsimp only at hr ⊢
  split at hr
  case h_1 hpc =>
    obtain rfl := Option.some.inj hr
    exact hprogress.since _ _
  case h_4 hpc => simp at hr
  case h_5 h1 h7 h13 h18 => exact ⟨(hsince r hr).pulse, (hsince r hr).pause⟩
  all_goals
    next hpc =>
      -- the trigger has been read before, and stays the first
      have hold : r ∈ h.reads.head? := by
        cases hreads : h.reads with
        | nil => simp [hpc, hreads, Pulse.unread] at hlength
        | cons first rest =>
          rw [hreads] at hr
          exact hr
      exact ⟨(hsince r hold).pulse, (hsince r hold).pause⟩

theorem Consistent.executed {s : Preview} {h : History} (hs : Consistent (s, h)) {d : PruCpu}
    (hstep : Pulse.machine.step s.host.cpu s.host.camera.pruDataMem.load = some d) :
    Consistent ({ s with host := { s.host with cpu := d } },
      { h with pass := h.pass.executed s h.writes }) where
  cpu := hs.cpu.step hstep
  written := hs.written
  progress := hs.progress
  counted := hs.counted.executed hs.cpu hstep h.writes
  since := Since.executed hs.counted hs.progress hs.since

theorem consistent_step {s t : Preview × History} {a : PreviewAction} (hs : Consistent s)
    (hstep : recorded.step s a = some t) : Consistent t := by
  obtain ⟨s, h⟩ := s
  obtain ⟨t, h'⟩ := t
  obtain ⟨hmove, hhistory⟩ := Machine.record_step hstep
  dsimp only at hmove hhistory
  subst hhistory
  cases a with
  | instruction =>
    obtain ⟨host, hhost, rfl⟩ := Option.map_eq_some_iff.mp hmove
    obtain ⟨d, hd, rfl⟩ := Option.map_eq_some_iff.mp hhost
    exact hs.executed hd
  | setCameraPruValues settings =>
    simp only [machine, step] at hmove
    split at hmove
    case isTrue hidle =>
      obtain rfl := Option.some.inj hmove
      have hprogress : Progress h.writes s.pending := hs.progress
      rw [hidle] at hprogress
      refine ⟨hs.cpu, hs.written.call _, hprogress.call settings, hs.counted, ?_⟩
      intro r hr
      exact ⟨(hs.since r hr).pulse, (hs.since r hr).pause⟩
    case isFalse hbusy => exact absurd hmove (by simp)
  | write =>
    simp only [machine, step] at hmove
    split at hmove
    case h_1 w rest hpending =>
      obtain rfl := Option.some.inj hmove
      simp only [History.update, hpending]
      exact hs.write hpending
    case h_2 hpending => exact absurd hmove (by simp)

/-! ### When a pass is of one piece -/

/-- Where the reads come from one call, the length of the pass follows. -/
theorem oneCall_iff {s : Preview × History} (hs : Consistent s) :
    OneCall s ↔ ∃ k t p q, s.2.writes.calls[k]? = some (t, p, q) ∧
      s.2.pass.reads <+: [(k, t), (k, p), (k, q)] := by
  constructor
  · rintro ⟨k, t, p, q, hcall, hreads, -⟩
    exact ⟨k, t, p, q, hcall, hreads⟩
  · rintro ⟨k, t, p, q, hcall, hreads⟩
    refine ⟨k, t, p, q, hcall, hreads, ?_⟩
    intro hpc
    have hlength := hs.counted.length (Nat.le_of_eq hpc)
    have helapsed := hs.counted.elapsed (Nat.le_of_eq hpc)
    have hall : s.2.pass.reads = [(k, t), (k, p), (k, q)] := by
      apply hreads.eq_of_length
      rw [hpc] at hlength
      exact hlength
    refine ⟨hall, ?_⟩
    rw [Pulse.loopLeft_between (Or.inr (Or.inl hpc)), hpc, hall] at helapsed
    simp only [Pulse.place, List.map_cons, List.map_nil, List.sum_cons, List.sum_nil] at helapsed
    unfold Pulse.cycleLength
    omega

theorem Consistent.reads_one {s : Preview × History} (hs : Consistent s)
    (hpc : s.1.host.cpu.pc = 7) : ∃ r, s.2.pass.reads = [r] := by
  have hlength := hs.counted.length (by omega)
  rw [hpc] at hlength
  exact List.length_eq_one_iff.mp (Nat.add_right_cancel (m := 2) hlength)

theorem Consistent.reads_two {s : Preview × History} (hs : Consistent s)
    (hpc : s.1.host.cpu.pc = 13) : ∃ r r', s.2.pass.reads = [r, r'] := by
  have hlength := hs.counted.length (by omega)
  rw [hpc] at hlength
  exact List.length_eq_two.mp (Nat.add_right_cancel (m := 1) hlength)

/-- One instruction: what has been read still comes from one call exactly if the
    fetch, where it is one, does not split the calls. -/
theorem oneCall_executed {s : Preview} {h : History} (hs : Consistent (s, h))
    (hone : OneCall (s, h)) :
    (∃ k t p q, h.writes.calls[k]? = some (t, p, q) ∧
        (h.pass.executed s h.writes).reads <+: [(k, t), (k, p), (k, q)]) ↔
      Unsplit (s, h) .instruction := by
  obtain ⟨k, t, p, q, hcall, hreads, -⟩ := hone
  obtain ⟨hreads0, hreads1, hreads2⟩ := executed_fetch hs.counted h.writes
  obtain ⟨⟨tp, tq, htrigger⟩, ⟨pt, pq, hpulse⟩, ⟨qt, qp, hpause⟩⟩ := hs.written
  simp only at hcall hreads htrigger hpulse hpause
  unfold Unsplit
  dsimp only
  by_cases h7 : s.host.cpu.pc = 7
  · obtain ⟨r, hr⟩ : ∃ r, h.pass.reads = [r] := hs.reads_one h7
    have hsince : Since r.1 h.writes h.pass := hs.since r (by simp [hr])
    have hpulseSince := hsince.pulse
    rw [hreads1 h7, hr]
    rw [hr, List.cons_prefix_cons] at hreads
    obtain ⟨rfl, -⟩ := hreads
    constructor
    · rintro ⟨k', t', p', q', hcall', hprefix⟩
      simp only [List.cons_append, List.nil_append, List.cons_prefix_cons, Prod.mk.injEq] at hprefix
      obtain ⟨⟨hk, -⟩, ⟨hk', -⟩, -⟩ := hprefix
      refine ⟨?_, by omega⟩
      intro _
      split at hpulseSince <;> omega
    · rintro ⟨hunsplit, -⟩
      obtain ⟨hleft, hwrites⟩ := hunsplit h7
      have hsame : h.writes.pulse = k := by
        rw [if_neg hleft, hwrites] at hpulseSince
        exact hpulseSince
      rw [hsame, hcall] at hpulse
      simp only [Option.some.injEq, Prod.mk.injEq] at hpulse
      obtain ⟨-, rfl, -⟩ := hpulse
      exact ⟨k, t, _, q, hcall, by simp [hsame]⟩
  · by_cases h13 : s.host.cpu.pc = 13
    · obtain ⟨r, r', hr⟩ : ∃ r r', h.pass.reads = [r, r'] := hs.reads_two h13
      have hsince : Since r.1 h.writes h.pass := hs.since r (by simp [hr])
      have hpauseSince := hsince.pause
      rw [hreads2 h13, hr]
      rw [hr, List.cons_prefix_cons, List.cons_prefix_cons] at hreads
      obtain ⟨rfl, rfl, -⟩ := hreads
      constructor
      · rintro ⟨k', t', p', q', hcall', hprefix⟩
        simp only [List.cons_append, List.nil_append, List.cons_prefix_cons, Prod.mk.injEq]
          at hprefix
        obtain ⟨⟨hk, -⟩, -, ⟨hk', -⟩, -⟩ := hprefix
        refine ⟨by omega, ?_⟩
        intro _
        omega
      · rintro ⟨-, hunsplit⟩
        have hwrites := hunsplit h13
        have hsame : h.writes.pause = k := by
          rw [hwrites] at hpauseSince
          omega
        rw [hsame, hcall] at hpause
        simp only [Option.some.injEq, Prod.mk.injEq] at hpause
        obtain ⟨-, -, rfl⟩ := hpause
        exact ⟨k, t, p, _, hcall, by simp [hsame]⟩
    · apply iff_of_true
      · by_cases h1 : s.host.cpu.pc = 1
        · refine ⟨_, _, _, _, htrigger, ?_⟩
          have hnil : h.pass.reads = [] := by
            simpa [h1, Pulse.unread] using hs.counted.length
          rw [hreads0 h1, hnil]
          simp
        · by_cases h18 : s.host.cpu.pc = 18
          · refine ⟨k, t, p, q, hcall, ?_⟩
            simp [Pass.executed, h18]
          · refine ⟨k, t, p, q, hcall, ?_⟩
            rw [executed_of_ne h1 h7 h13 h18]
            exact hreads
      · constructor <;> intro hpc <;> contradiction

theorem oneCall_step {s t : Preview × History} {a : PreviewAction} (hs : Consistent s)
    (hone : OneCall s) (hstep : recorded.step s a = some t) : OneCall t ↔ Unsplit s a := by
  rw [oneCall_iff (consistent_step hs hstep)]
  obtain ⟨s, h⟩ := s
  obtain ⟨t, h'⟩ := t
  obtain ⟨hmove, hhistory⟩ := Machine.record_step hstep
  dsimp only at hmove hhistory
  subst hhistory
  cases a with
  | instruction => exact oneCall_executed hs hone
  | setCameraPruValues settings =>
    obtain ⟨k, t, p, q, hcall, hreads, -⟩ := hone
    exact iff_of_true ⟨k, t, p, q, Machine.getElem?_append_some hcall _, hreads⟩ trivial
  | write =>
    obtain ⟨k, t, p, q, hcall, hreads, -⟩ := hone
    refine iff_of_true ⟨k, t, p, q, ?_, ?_⟩ trivial
    · simp only [History.update]
      cases s.pending with
      | nil => exact hcall
      | cons w rest => cases w <;> exact hcall
    · simp only [History.update]
      cases s.pending with
      | nil => exact hreads
      | cons w rest => cases w <;> exact hreads

/-- **When no pass is torn.**  However the writes of the calls and the instructions
    interleave, every pass uses the words of one call, and so lasts as long as that
    call meant, exactly if no fetch splits the calls. -/
theorem oneCall_iff_unsplit (settings : DeviceSettings) (camera : Camera)
    (reg : Register → UInt32) (actions : List PreviewAction) :
    recorded.AllStates OneCall (init settings camera reg, History.init settings) actions ↔
      recorded.AllSteps Unsplit (init settings camera reg, History.init settings) actions := by
  have hinit := consistent_init settings camera reg
  apply recorded.allStates_iff_allSteps_of_invariant (J := Consistent) _ _ _ hinit
  · intro s a t hs hstep
    exact consistent_step hs hstep
  · intro s a t hs hone hstep
    exact oneCall_step hs hone hstep
  · apply (oneCall_iff hinit).mpr
    exact ⟨0, _, _, _, rfl, List.nil_prefix⟩

def oldSettings : DeviceSettings :=
  { (Device.init "d1" (.camera 30 200.0)).settings with predelay := 1 }

def newSettings : DeviceSettings := { oldSettings with predelay := 2, pulseWidth := 5 }

/-- New settings come while the trigger loop of a pass is running. -/
def split : List PreviewAction :=
  List.replicate 2 .instruction ++ [.setCameraPruValues newSettings, .write] ++
    List.replicate 204 .instruction

/-- The pass has read the trigger of the old settings and the pulse of the new ones. -/
theorem torn :
    ¬ recorded.AllStates
      (fun s => ∃ call ∈ s.2.writes.calls,
        s.2.pass.reads.map Prod.snd <+: [call.1, call.2.1, call.2.2])
      (init oldSettings (Camera.init 30 200.0) (fun _ => 0), History.init oldSettings) split := by
  intro hall
  have hrun : (recorded.exec (init oldSettings (Camera.init 30 200.0) (fun _ => 0),
      History.init oldSettings) split).map
        (fun s => (s.2.writes.calls, s.2.pass.reads.map Prod.snd)) =
      some ([(100, 400, 499999500), (200, 500, 499999300)], [100, 500]) := by
    decide +kernel
  obtain ⟨t, hexec, hreads⟩ := Option.map_eq_some_iff.mp hrun
  simp only [Prod.mk.injEq] at hreads
  obtain ⟨call, hcall, hprefix⟩ := hall.final hexec
  rw [hreads.1] at hcall
  rw [hreads.2] at hprefix
  revert hprefix
  simp only [List.mem_cons, List.not_mem_nil, or_false] at hcall
  rcases hcall with rfl | rfl <;> decide

end Preview

end IsmDevice
