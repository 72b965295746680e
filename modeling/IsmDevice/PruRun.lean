import Mathlib.Tactic.IntervalCases
import IsmDevice.Pulse

/-!
# The PRU program beside its host

The host and the program share the data RAM without any handshake: the setters of
the durations, `Start` and `Stop` may write between any two instructions.  What
holds at each address of the program whatever it has read, how its instructions
add up, and how it comes to its end, are stated for one instruction first.
-/

namespace IsmDevice

open Transition

namespace Pulse

/-! ### What an instruction does -/

/-- One instruction of the program, by what it does and where it stands. -/
inductive Executed (ram : UInt32 → UInt32) (c : PruCpu) : PruCpu → Prop where
  | mov (address : UInt32)
      (h : c.pc = 0 ∧ address = 0x00000000 ∨ c.pc = 6 ∧ address = 0x00000004 ∨
        c.pc = 12 ∧ address = 0x00000008 ∨ c.pc = 16 ∧ address = 0x0000000C) :
      Executed ram c { c with pc := c.pc + 1, reg := Function.update c.reg .r3 address }
  | lbbo (h : c.pc = 1 ∨ c.pc = 7 ∨ c.pc = 13 ∨ c.pc = 17) :
      Executed ram c { c with pc := c.pc + 1, reg := Function.update c.reg .r0 (ram (c.reg .r3 + 0)) }
  | set (pin : Pin) (h : c.pc = 2 ∧ pin = .t1 ∨ c.pc = 8 ∧ pin = .t5) :
      Executed ram c { c with pc := c.pc + 1, pin := Function.update c.pin pin true }
  | sub (h : c.pc = 3 ∨ c.pc = 9 ∨ c.pc = 14) :
      Executed ram c { c with pc := c.pc + 1, reg := Function.update c.reg .r0 (c.reg .r0 - 1) }
  | again (h : c.pc = 4 ∨ c.pc = 10 ∨ c.pc = 15) (hr0 : c.reg .r0 ≠ 0) :
      Executed ram c { c with pc := c.pc - 1 }
  | done (h : c.pc = 4 ∨ c.pc = 10 ∨ c.pc = 15) (hr0 : c.reg .r0 = 0) :
      Executed ram c { c with pc := c.pc + 1 }
  | clr (pin : Pin) (h : c.pc = 5 ∧ pin = .t1 ∨ c.pc = 11 ∧ pin = .t5) :
      Executed ram c { c with pc := c.pc + 1, pin := Function.update c.pin pin false }
  | restart (h : c.pc = 18) (hr0 : c.reg .r0 ≠ 0) : Executed ram c { c with pc := 0 }
  | finish (h : c.pc = 18) (hr0 : c.reg .r0 = 0) : Executed ram c { c with pc := 19 }
  | event (h : c.pc = 19) :
      Executed ram c
        { c with pc := 20, events := c.events ++ [PRU0_R31_VEC_VALID ||| PRU_EVTOUT_0] }

theorem step_cases {c d : PruCpu} {ram : UInt32 → UInt32} (hstep : machine.step c ram = some d) :
    Executed ram c d := by
  obtain ⟨i, hi, hexec⟩ := Option.bind_eq_some_iff.mp hstep
  have hpc := (List.getElem?_eq_some_iff.mp hi).1
  obtain ⟨pc, reg, pin, events⟩ := c
  have hlt : pc < 21 := hpc
  interval_cases pc <;> (injection hi with heq; subst heq)
  case «20» => injection hexec
  all_goals
    injection hexec with heq
    subst heq
  case «0» => exact .mov 0x00000000 (by simp)
  case «6» => exact .mov 0x00000004 (by simp)
  case «12» => exact .mov 0x00000008 (by simp)
  case «16» => exact .mov 0x0000000C (by simp)
  case «1» | «7» | «13» | «17» => exact .lbbo (by simp)
  case «2» => exact .set .t1 (by simp)
  case «8» => exact .set .t5 (by simp)
  case «3» | «9» | «14» => exact .sub (by simp)
  case «5» => exact .clr .t1 (by simp)
  case «11» => exact .clr .t5 (by simp)
  case «4» | «10» | «15» =>
    dsimp only
    split
    case isTrue hr0 => exact .done (by simp) hr0
    case isFalse hr0 => exact .again (by simp) hr0
  case «18» =>
    dsimp only
    split
    case isTrue hr0 => exact .finish rfl hr0
    case isFalse hr0 => exact .restart rfl hr0
  case «19» => exact .event rfl

theorem step_defined {c : PruCpu} (h : c.pc < HALT) (ram : UInt32 → UInt32) :
    ∃ d, machine.step c ram = some d := by
  obtain ⟨pc, reg, pin, events⟩ := c
  have hlt : pc < 20 := h
  interval_cases pc <;> exact ⟨_, rfl⟩

/-! ### Pins and addresses -/

/-- Where which pin is up, and which address is about to be read. -/
structure Inv (c : PruCpu) : Prop where
  pc : c.pc ≤ 20
  trigger : c.pin .t1 = true ↔ 3 ≤ c.pc ∧ c.pc ≤ 5
  light : c.pin .t5 = true ↔ 9 ≤ c.pc ∧ c.pc ≤ 11
  fetch0 : c.pc = 1 → c.reg .r3 = 0x00000000
  fetch1 : c.pc = 7 → c.reg .r3 = 0x00000004
  fetch2 : c.pc = 13 → c.reg .r3 = 0x00000008
  fetch3 : c.pc = 17 → c.reg .r3 = 0x0000000C

theorem Inv.start {c : PruCpu} (hpc : c.pc = START) (ht1 : c.pin .t1 = false)
    (ht5 : c.pin .t5 = false) : Inv c := by
  constructor <;> simp [hpc, ht1, ht5, START]

/-- An instruction that changes no pin and does not come to a fetch. -/
theorem Inv.moved {c : PruCpu} (h : Inv c) {pc : Nat} (reg : Register → UInt32)
    (events : List UInt8) (hpc : pc ≤ 20)
    (htrigger : 3 ≤ c.pc ∧ c.pc ≤ 5 ↔ 3 ≤ pc ∧ pc ≤ 5)
    (hlight : 9 ≤ c.pc ∧ c.pc ≤ 11 ↔ 9 ≤ pc ∧ pc ≤ 11)
    (hfetch : pc ≠ 1 ∧ pc ≠ 7 ∧ pc ≠ 13 ∧ pc ≠ 17) : Inv ⟨pc, reg, c.pin, events⟩ where
  pc := hpc
  trigger := h.trigger.trans htrigger
  light := h.light.trans hlight
  fetch0 heq := absurd heq hfetch.1
  fetch1 heq := absurd heq hfetch.2.1
  fetch2 heq := absurd heq hfetch.2.2.1
  fetch3 heq := absurd heq hfetch.2.2.2

theorem Inv.step {c d : PruCpu} {ram : UInt32 → UInt32} (h : Inv c)
    (hstep : machine.step c ram = some d) : Inv d := by
  have hexec := step_cases hstep
  have ht := h.trigger
  have hl := h.light
  cases hexec with
  | mov address hat =>
    constructor
    · dsimp only
      omega
    · exact ht.trans (by dsimp only; omega)
    · exact hl.trans (by dsimp only; omega)
    all_goals
      dsimp only
      intro hpc
      rcases hat with ⟨hat, rfl⟩ | ⟨hat, rfl⟩ | ⟨hat, rfl⟩ | ⟨hat, rfl⟩
      all_goals first | rfl | omega
  | lbbo hat => exact h.moved _ _ (by omega) (by omega) (by omega) (by omega)
  | set pin hat =>
    rcases hat with ⟨hat, rfl⟩ | ⟨hat, rfl⟩
    · constructor <;> simp [hat] at ht hl ⊢
      exact hl
    · constructor <;> simp [hat] at ht hl ⊢
      exact ht
  | sub hat => exact h.moved _ _ (by omega) (by omega) (by omega) (by omega)
  | again hat hr0 => exact h.moved _ _ (by omega) (by omega) (by omega) (by omega)
  | done hat hr0 => exact h.moved _ _ (by omega) (by omega) (by omega) (by omega)
  | clr pin hat =>
    rcases hat with ⟨hat, rfl⟩ | ⟨hat, rfl⟩
    · constructor <;> simp [hat] at ht hl ⊢
      exact hl
    · constructor <;> simp [hat] at ht hl ⊢
      exact ht
  | restart hat hr0 => exact h.moved _ _ (by omega) (by omega) (by omega) (by omega)
  | finish hat hr0 => exact h.moved _ _ (by omega) (by omega) (by omega) (by omega)
  | event hat => exact h.moved _ _ (by omega) (by omega) (by omega) (by omega)

/-! ### Counting instructions -/

/-- What is left of the delay loop that the register is loaded for. -/
def loopLeft (c : PruCpu) : Nat :=
  match c.pc with
  | 2 | 3 | 8 | 9 | 14 => 2 * Pru.loopCount (c.reg .r0)
  | 4 | 10 | 15 => 2 * (c.reg .r0).toNat + 1
  | _ => 0

theorem loopLeft_between {c : PruCpu} (h : c.pc = START ∨ c.pc = 18 ∨ c.pc = END) :
    loopLeft c = 0 := by
  obtain ⟨pc, reg, pin, events⟩ := c
  rcases h with rfl | rfl | rfl <;> rfl

/-- How many instructions of a pass come before an address, delay loops not counted. -/
def place : Nat → Nat
  | 0 => 0
  | 1 => 1
  | 2 => 2
  | 3 | 4 | 5 => 3
  | 6 => 4
  | 7 => 5
  | 8 => 6
  | 9 | 10 | 11 => 7
  | 12 => 8
  | 13 => 9
  | 14 | 15 | 16 => 10
  | 17 => 11
  | 18 => 12
  | 19 => 13
  | _ => 14

/-- How many of the three durations a pass has still to fetch. -/
def unread (pc : Nat) : Nat :=
  if pc ≤ 1 then 3 else if pc ≤ 7 then 2 else if pc ≤ 13 then 1 else 0

/-- The loop instructions for a duration that is just being fetched. -/
def fetched (c d : PruCpu) : Nat :=
  if c.pc = 1 ∨ c.pc = 7 ∨ c.pc = 13 then 2 * Pru.loopCount (d.reg .r0) else 0

/-- **One instruction counts as one**, inside and outside the delay loops. -/
theorem place_step {c d : PruCpu} {ram : UInt32 → UInt32} (hpc : c.pc ≠ 18)
    (hstep : machine.step c ram = some d) :
    place d.pc + fetched c d + loopLeft c = place c.pc + loopLeft d + 1 := by
  have hexec := step_cases hstep
  obtain ⟨pc, reg, pin, events⟩ := c
  cases hexec with
  | mov address hat =>
    rcases hat with ⟨rfl, -⟩ | ⟨rfl, -⟩ | ⟨rfl, -⟩ | ⟨rfl, -⟩
    all_goals rfl
  | lbbo hat =>
    rcases hat with rfl | rfl | rfl | rfl
    case inr.inr.inr => rfl
    all_goals
      simp only [place, fetched, loopLeft, Function.update_self, true_or, or_true, if_true]
      omega
  | set pin hat =>
    rcases hat with ⟨rfl, -⟩ | ⟨rfl, -⟩
    all_goals
      simp only [place, fetched, loopLeft, Nat.reduceEqDiff, or_self, if_false]
      omega
  | sub hat =>
    have hcount := Pru.loopCount_eq (reg .r0)
    rcases hat with rfl | rfl | rfl
    all_goals
      simp only [place, fetched, loopLeft, Nat.reduceEqDiff, or_self, if_false,
        Function.update_self]
      omega
  | again hat hr0 =>
    have hcount : Pru.loopCount (reg .r0) = (reg .r0).toNat := Pru.loopCount_of_ne hr0
    rcases hat with rfl | rfl | rfl
    all_goals
      simp only [place, fetched, loopLeft, Nat.reduceEqDiff, Nat.reduceSub, or_self, if_false]
      omega
  | done hat hr0 =>
    have hzero : (reg .r0).toNat = 0 := congrArg UInt32.toNat (show reg .r0 = 0 from hr0)
    rcases hat with rfl | rfl | rfl
    all_goals
      simp only [place, fetched, loopLeft, Nat.reduceEqDiff, or_self, if_false, hzero]
  | clr pin hat =>
    rcases hat with ⟨rfl, -⟩ | ⟨rfl, -⟩
    all_goals rfl
  | restart hat hr0 => exact absurd hat hpc
  | finish hat hr0 => exact absurd hat hpc
  | event hat =>
    obtain rfl := hat
    rfl

/-- Where the program goes from an address. -/
theorem pc_step {c d : PruCpu} {ram : UInt32 → UInt32} (hstep : machine.step c ram = some d) :
    d.pc = c.pc + 1 ∧ (c.pc = 18 → c.reg .r0 = 0) ∨
      d.pc + 1 = c.pc ∧ (d.pc = 3 ∨ d.pc = 9 ∨ d.pc = 14) ∨
      d.pc = 0 ∧ c.pc = 18 ∧ c.reg .r0 ≠ 0 := by
  have hexec := step_cases hstep
  cases hexec with
  | again hat hr0 =>
    right
    left
    dsimp only
    omega
  | restart hat hr0 => exact Or.inr (Or.inr ⟨rfl, hat, hr0⟩)
  | finish hat hr0 => exact Or.inl ⟨by dsimp only; omega, fun _ => hr0⟩
  | event hat => exact Or.inl ⟨by dsimp only; omega, by omega⟩
  | _ => exact Or.inl ⟨rfl, by omega⟩

theorem unread_step {c d : PruCpu} {ram : UInt32 → UInt32} (hpc : c.pc ≠ 18)
    (hstep : machine.step c ram = some d) :
    unread c.pc = unread d.pc + if c.pc = 1 ∨ c.pc = 7 ∨ c.pc = 13 then 1 else 0 := by
  have hnext := pc_step hstep
  unfold unread
  split_ifs <;> omega

/-! ### Instructions left -/

/-- Instructions to `HALT`, at most, where word 3 is zero.  A test that has loaded
    word 3 before it was cleared still sends the program round once. -/
def remaining (c : PruCpu) : Nat :=
  if c.pc = 18 ∧ c.reg .r0 ≠ 0 then 3 * 2 ^ 33 + 15
  else 14 - place c.pc + 2 ^ 33 * unread c.pc + loopLeft c

/-- The words that are fetched are the four of the data RAM. -/
theorem reg_fetch {c d : PruCpu} {ram : UInt32 → UInt32} (h : Inv c)
    (hstep : machine.step c ram = some d) :
    (c.pc = 1 → d.reg .r0 = ram 0x00000000) ∧ (c.pc = 7 → d.reg .r0 = ram 0x00000004) ∧
      (c.pc = 13 → d.reg .r0 = ram 0x00000008) := by
  have hexec := step_cases hstep
  cases hexec with
  | lbbo hat =>
    dsimp only
    rw [Function.update_self]
    refine ⟨?_, ?_, ?_⟩
    · intro hpc
      rw [h.fetch0 hpc]
      rfl
    · intro hpc
      rw [h.fetch1 hpc]
      rfl
    · intro hpc
      rw [h.fetch2 hpc]
      rfl
  | _ => refine ⟨?_, ?_, ?_⟩ <;> omega

/-- Once word 3 is zero the test finds it so. -/
theorem loaded_step {c d : PruCpu} {ram : UInt32 → UInt32} (h : Inv c)
    (hram : ram 0x0000000C = 0) (hstep : machine.step c ram = some d) (hpc : d.pc = 18) :
    d.reg .r0 = 0 := by
  have hexec := step_cases hstep
  cases hexec with
  | lbbo hat =>
    dsimp only at hpc ⊢
    rw [Function.update_self, h.fetch3 (by omega)]
    exact hram
  | _ =>
    dsimp only at hpc
    omega

theorem remaining_of_ne {c : PruCpu} (h : c.pc = 18 → c.reg .r0 = 0) :
    remaining c = 14 - place c.pc + 2 ^ 33 * unread c.pc + loopLeft c := by
  unfold remaining
  rw [if_neg]
  rintro ⟨hpc, hne⟩
  exact hne (h hpc)

theorem place_lt {pc : Nat} (h : pc < HALT) : place pc < 14 := by
  have hlt : pc < 20 := h
  interval_cases pc <;> decide

theorem place_le (pc : Nat) : place pc ≤ 14 := by
  unfold place
  split <;> omega

theorem fetched_le (c d : PruCpu) :
    fetched c d ≤ 2 ^ 33 * if c.pc = 1 ∨ c.pc = 7 ∨ c.pc = 13 then 1 else 0 := by
  have hle := Pru.loopCount_le (d.reg .r0)
  unfold fetched
  split <;> omega

theorem remaining_step {c d : PruCpu} {ram : UInt32 → UInt32} (h : Inv c)
    (hram : ram 0x0000000C = 0) (hstep : machine.step c ram = some d) :
    remaining d + 1 ≤ remaining c := by
  rw [remaining_of_ne (loaded_step h hram hstep)]
  by_cases hpc : c.pc = 18
  · have hunread : unread 0 = 3 ∧ unread 18 = 0 ∧ unread 19 = 0 := by decide
    rcases pc_step hstep with ⟨hnext, hr0⟩ | ⟨hnext, hat⟩ | ⟨hnext, -, hr0⟩
    · have hend : d.pc = 19 := by omega
      have hleft := loopLeft_between (Or.inr (Or.inr hend))
      rw [remaining_of_ne hr0, hleft, hend, hpc, hunread.2.1, hunread.2.2]
      simp only [place]
      omega
    · omega
    · have hleft := loopLeft_between (Or.inl hnext)
      rw [remaining, if_pos ⟨hpc, hr0⟩, hleft, hnext, hunread.1]
      simp only [place]
      omega
  · rw [remaining_of_ne (fun hat => absurd hat hpc)]
    have hplace := place_step hpc hstep
    have hunread := unread_step hpc hstep
    have hfetched := fetched_le c d
    have hc := place_le c.pc
    have hd := place_le d.pc
    rw [hunread]
    omega

theorem halt_of_remaining {c : PruCpu} (h : Inv c) (hzero : remaining c = 0) : c.pc = HALT := by
  rcases Nat.lt_or_ge c.pc HALT with hlt | hge
  · have hplace := place_lt hlt
    unfold remaining at hzero
    split at hzero <;> omega
  · exact Nat.le_antisymm h.pc hge

/-- The trigger may still rise: it has not in this pass, or another pass is due. -/
def edgesLeft (c : PruCpu) : Nat :=
  if c.pc ≤ 2 ∨ c.pc = 18 ∧ c.reg .r0 ≠ 0 then 1 else 0

theorem edgesLeft_le_one (c : PruCpu) : edgesLeft c ≤ 1 := by
  unfold edgesLeft
  split <;> omega

theorem edgesLeft_step {c d : PruCpu} {ram : UInt32 → UInt32} (h : Inv c)
    (hram : ram 0x0000000C = 0) (hstep : machine.step c ram = some d) :
    (if c.pin .t1 = false ∧ d.pin .t1 = true then 1 else 0) + edgesLeft d ≤ edgesLeft c := by
  have hpc := pc_step hstep
  have hloaded := loaded_step h hram hstep
  have hd := (h.step hstep).trigger
  have hc := h.trigger
  unfold edgesLeft
  by_cases hrise : c.pin .t1 = false ∧ d.pin .t1 = true
  · obtain ⟨hlow, hhigh⟩ := hrise
    have hat : 3 ≤ d.pc ∧ d.pc ≤ 5 := hd.mp hhigh
    have hnot : ¬ (3 ≤ c.pc ∧ c.pc ≤ 5) := by
      rw [← hc, hlow]
      exact Bool.false_ne_true
    have hbefore : c.pc ≤ 2 := by omega
    have hafter : ¬ (d.pc ≤ 2 ∨ d.pc = 18 ∧ d.reg .r0 ≠ 0) := by omega
    rw [if_pos ⟨hlow, hhigh⟩, if_neg hafter, if_pos (Or.inl hbefore)]
  · rw [if_neg hrise, Nat.zero_add]
    by_cases hahead : d.pc ≤ 2 ∨ d.pc = 18 ∧ d.reg .r0 ≠ 0
    · have hagain : c.pc ≤ 2 ∨ c.pc = 18 ∧ c.reg .r0 ≠ 0 := by
        rcases hahead with hlow | ⟨hat, hne⟩
        · rcases hpc with ⟨heq, -⟩ | ⟨heq, hat⟩ | ⟨-, hrestart⟩
          · left
            omega
          · left
            omega
          · exact Or.inr hrestart
        · exact absurd (hloaded hat) hne
      rw [if_pos hahead, if_pos hagain]
    · rw [if_neg hahead]
      exact Nat.zero_le _

end Pulse

/-! ### The host beside it -/

/-- What the host writes to the data RAM, and from where. -/
inductive HostWrite where
  | setTriggerduration (v : UInt32)
  | setPulseduration (v : UInt32)
  | setPauseduration (v : UInt32)
  | start
  | stop
deriving DecidableEq, Repr

def HostWrite.apply : HostWrite → Camera → Camera
  | .setTriggerduration v => Camera.setTriggerduration v
  | .setPulseduration v => Camera.setPulseduration v
  | .setPauseduration v => Camera.setPauseduration v
  | .start => Camera.start
  | .stop => Camera.stop

structure PruHost where
  camera : Camera
  cpu : PruCpu

inductive PruAction where
  | instruction
  | write (w : HostWrite)
deriving DecidableEq, Repr

namespace PruHost

def step (s : PruHost) : PruAction → Option PruHost
  | .instruction =>
      (Pulse.machine.step s.cpu s.camera.pruDataMem.load).map fun cpu => { s with cpu := cpu }
  | .write w => some { s with camera := w.apply s.camera }

/-- The host may write between any two instructions. -/
def machine : Machine PruHost PruAction where
  step := step

theorem refines_pulse :
    machine.Refines Pulse.machine cpu (fun s a =>
      match a with
      | .instruction => some s.camera.pruDataMem.load
      | .write _ => none) := by
  constructor
  · intro s a t ram hstep hlabel
    cases a with
    | write w => simp at hlabel
    | instruction =>
      injection hlabel with heq
      subst heq
      obtain ⟨d, hd, rfl⟩ := Option.map_eq_some_iff.mp hstep
      exact hd
  · intro s a t hstep hlabel
    cases a with
    | instruction => simp at hlabel
    | write w =>
      injection hstep with heq
      subst heq
      rfl

def risingEdges (s : PruHost) : PruAction → List Pin
  | .instruction =>
      match s.step .instruction with
      | some t => if s.cpu.pin .t1 = false ∧ t.cpu.pin .t1 = true then [.t1] else []
      | none => []
  | .write _ => []

theorem inv_step {s t : PruHost} {a : PruAction} (h : Pulse.Inv s.cpu)
    (hstep : machine.step s a = some t) : Pulse.Inv t.cpu := by
  cases a with
  | write w =>
    injection hstep with heq
    subst heq
    exact h
  | instruction =>
    obtain ⟨d, hd, rfl⟩ := Option.map_eq_some_iff.mp hstep
    exact h.step hd

/-- The program has been told to stop. -/
structure Stopping (s : PruHost) : Prop where
  inv : Pulse.Inv s.cpu
  flag : s.camera.pruDataMem.word3 = 0

theorem Stopping.step {s t : PruHost} {a : PruAction} (h : s.Stopping) (ha : a ≠ .write .start)
    (hstep : machine.step s a = some t) : t.Stopping := by
  refine ⟨inv_step h.inv hstep, ?_⟩
  cases a with
  | instruction =>
    obtain ⟨d, hd, rfl⟩ := Option.map_eq_some_iff.mp hstep
    exact h.flag
  | write w =>
    injection hstep with heq
    subst heq
    cases w with
    | start => exact absurd rfl ha
    | stop => rfl
    | _ => exact h.flag

theorem Stopping.load {s : PruHost} (h : s.Stopping) :
    s.camera.pruDataMem.load 0x0000000C = 0 := h.flag

theorem length_risingEdges_step {s t : PruHost} {a : PruAction} (h : s.Stopping)
    (hstep : machine.step s a = some t) :
    (s.risingEdges a).length + Pulse.edgesLeft t.cpu ≤ Pulse.edgesLeft s.cpu := by
  cases a with
  | write w =>
    injection hstep with heq
    subst heq
    simp [risingEdges]
  | instruction =>
    have hnext : s.step .instruction = some t := hstep
    obtain ⟨d, hd, rfl⟩ := Option.map_eq_some_iff.mp hstep
    have hedges := Pulse.edgesLeft_step h.inv h.load hd
    simp only [risingEdges, hnext]
    split at hedges
    case isTrue hrise =>
      rw [if_pos hrise]
      exact hedges
    case isFalse hrise =>
      rw [if_neg hrise]
      exact hedges

/-- Until `HALT` every action can be taken, and an instruction brings it nearer. -/
theorem remaining_step {s : PruHost} {a : PruAction} (h : s.Stopping)
    (hgoal : s.cpu.pc ≠ Pulse.HALT) (ha : a ≠ .write .start) :
    ∃ t, machine.step s a = some t ∧ t.Stopping ∧
      Pulse.remaining t.cpu + (if a = .instruction then 1 else 0) ≤ Pulse.remaining s.cpu := by
  cases a with
  | write w => exact ⟨_, rfl, h.step ha rfl, Nat.le_refl _⟩
  | instruction =>
    have hlt : s.cpu.pc < Pulse.HALT := Nat.lt_of_le_of_ne h.inv.pc hgoal
    obtain ⟨d, hd⟩ := Pulse.step_defined hlt s.camera.pruDataMem.load
    have hstep : machine.step s .instruction = some { s with cpu := d } := by
      simp only [machine, step, hd, Option.map_some]
    exact ⟨_, hstep, h.step ha hstep, Pulse.remaining_step h.inv h.load hd⟩

/-- **Stopping is prompt and safe.**  From `START` with both pins low, whatever the
    RAM holds and the host writes in between, the pins are never high together and
    both low at `HALT`; and once word 3 is zero and nothing starts the loop again,
    the trigger rises at most once more, and `HALT` is reached within a number of
    instructions. -/
theorem stop_prompt_and_safe (camera : Camera) (reg : Register → UInt32) (events : List UInt8)
    (before : List PruAction) :
    machine.AllStates (fun s => ¬ (s.cpu.pin .t1 = true ∧ s.cpu.pin .t5 = true) ∧
        (s.cpu.pc = Pulse.HALT → s.cpu.pin .t1 = false ∧ s.cpu.pin .t5 = false))
      ⟨camera, Pulse.START, reg, fun _ => false, events⟩ before ∧
    ∀ s, machine.exec ⟨camera, Pulse.START, reg, fun _ => false, events⟩ before = some s →
      s.camera.pruDataMem.word3 = 0 →
      (∀ after, (∀ a ∈ after, a ≠ .write .start) →
        (machine.observe risingEdges s after).length ≤ 1) ∧
      ∃ n, ∀ after, (∀ a ∈ after, a ≠ .write .start) → n ≤ after.count .instruction →
        ∃ first rest t, after = first ++ rest ∧ machine.exec s first = some t ∧
          t.cpu.pc = Pulse.HALT := by
  have hinit : Pulse.Inv ⟨Pulse.START, reg, fun _ => false, events⟩ := .start rfl rfl rfl
  have hinv : ∀ as, machine.AllStates (fun s => Pulse.Inv s.cpu)
      ⟨camera, Pulse.START, reg, fun _ => false, events⟩ as :=
    refines_pulse.allStates (fun _ _ _ h hstep => h.step hstep) hinit
  constructor
  · apply (hinv before).mono
    intro s h
    constructor
    · rw [h.trigger, h.light]
      omega
    · intro hhalt
      rw [← Bool.not_eq_true, ← Bool.not_eq_true, h.trigger, h.light, hhalt]
      decide
  · intro s hexec hflag
    have hstopping : s.Stopping := ⟨(hinv before).final hexec, hflag⟩
    constructor
    · intro after hafter
      apply Nat.le_trans _ (Pulse.edgesLeft_le_one s.cpu)
      apply machine.length_observe_le (fun s => Pulse.edgesLeft s.cpu) _ hstopping hafter
      intro s a t h ha hstep
      exact ⟨h.step ha hstep, length_risingEdges_step h hstep⟩
    · refine ⟨Pulse.remaining s.cpu, ?_⟩
      intro after hafter henough
      apply machine.exists_prefix_of_measure (· == .instruction) (fun s => Pulse.remaining s.cpu)
        _ _ hstopping hafter henough
      · intro s h hzero
        exact Pulse.halt_of_remaining h.inv hzero
      · intro s a h hgoal ha
        obtain ⟨t, hstep, ht, hle⟩ := remaining_step h hgoal ha
        refine ⟨t, hstep, ht, ?_⟩
        simpa using hle

end PruHost

end IsmDevice
