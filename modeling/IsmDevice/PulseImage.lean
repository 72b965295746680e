import IsmDevice.Lib.PruCode
import IsmDevice.PruRun

/-!
# The PRU image

What `Camera::Start` loads is not `pulse.p` but the file `pulse.bin`.  Its bytes are
the program as it is assembled, so that what was shown of the program beside its
host holds of the core that fetches and decodes the file; and on the core it can be
said what the program cannot say, that all other registers and all other pins are
left alone.
-/

namespace IsmDevice

open Transition

namespace Pulse

/-- `pulse.bin`, a word to the line. -/
def image : List (BitVec 8) :=
  [0xE3, 0x00, 0x00, 0x24,
   0x80, 0x23, 0x00, 0xF1,
   0xFE, 0xFE, 0x01, 0x1F,
   0xE0, 0xE0, 0x01, 0x05,
   0xFF, 0xE0, 0x00, 0x6F,
   0xFE, 0xFE, 0x01, 0x1D,
   0xE3, 0x04, 0x00, 0x24,
   0x80, 0x23, 0x00, 0xF1,
   0xFE, 0xFE, 0x05, 0x1F,
   0xE0, 0xE0, 0x01, 0x05,
   0xFF, 0xE0, 0x00, 0x6F,
   0xFE, 0xFE, 0x05, 0x1D,
   0xE3, 0x08, 0x00, 0x24,
   0x80, 0x23, 0x00, 0xF1,
   0xE0, 0xE0, 0x01, 0x05,
   0xFF, 0xE0, 0x00, 0x6F,
   0xE3, 0x0C, 0x00, 0x24,
   0x80, 0x23, 0x00, 0xF1,
   0xEE, 0xE0, 0x00, 0x6F,
   0x1F, 0x23, 0x00, 0x24,
   0x00, 0x00, 0x00, 0x2A]

/-- `r0`, `r3`, `r30.t1` and `r30.t5`. -/
def numbering : Pru.Numbering Register Pin where
  reg
    | .r0 => 0
    | .r3 => 3
  pin
    | .t1 => 1
    | .t5 => 5
  reg_injective r q h := by cases r <;> cases q <;> first | rfl | exact absurd h (by decide)
  pin_injective p q h := by cases p <;> cases q <;> first | rfl | exact absurd h (by decide)
  reg_ne_r30 r := by cases r <;> decide
  reg_ne_r31 r := by cases r <;> decide

theorem assemble_program : numbering.assemble program = some image := by decide

theorem mirrors_image : (Pru.codeMachine image).Mirrors machine numbering.abs :=
  Pru.Numbering.mirrors assemble_program

/-! ### The pulse train -/

/-- What is seen of a core: the address, and the bits of the trigger and the light. -/
def codeSignal (c : Pru.Core) (_ : UInt32 → UInt32) : List (Nat × Bool × Bool) :=
  [(c.pc.toNat, (c.reg 30).toBitVec.getLsbD 1, (c.reg 30).toBitVec.getLsbD 5)]

theorem during_const {α : Type*} (x : α) (k n : Nat) :
    Pru.during (fun _ => x) k n = List.replicate n x := by
  rw [Pru.during, List.map_const', List.length_range']

/-- One pass after the other, as long as the loop is on. -/
theorem traces_train {t p q word3 : UInt32} (hword3 : word3 ≠ 0) (n : Nat) {c : PruCpu}
    (hpc : c.pc = START) (hpin : c.pin = pins false false) :
    ∃ d, (d.pc = START ∧ d.pin = pins false false) ∧
      machine.Traces (Pru.watch signal) c
        (List.replicate (n * cycleLength t p q) (PruDataMem.load ⟨t, p, q, word3⟩))
        (List.replicate n (cycleSignals t p q false false)).flatten d := by
  induction n generalizing c with
  | zero =>
    refine ⟨c, ⟨hpc, hpin⟩, ?_⟩
    rw [Nat.zero_mul]
    exact Machine.Traces.nil _ _ _
  | succ n ih =>
    have hpass := @timed_cycle (fun _ => PruDataMem.load ⟨t, p, q, word3⟩) t p q
      (fun _ => rfl) (fun _ => rfl) (fun _ => rfl) false false
    obtain ⟨d, ⟨hd, hdpin⟩, htrace⟩ := hpass c ⟨hpc, hpin⟩
    have htest : PruDataMem.load ⟨t, p, q, word3⟩ 0x0000000C = word3 := rfl
    rw [htest, if_neg hword3] at hd
    obtain ⟨e, he, hrest⟩ := ih hd hdpin
    refine ⟨e, he, ?_⟩
    rw [during_const] at htrace
    rw [Nat.succ_mul, Nat.add_comm, List.replicate_add, List.replicate_succ, List.flatten_cons]
    exact htrace.append hrest

/-- For settings in range, the length of a pass and of its two pulses. -/
theorem cycleLength_of_range {settings : DeviceSettings} (hrange : TimingInRange settings)
    (camera : Camera) :
    let m := (setCameraPruValues settings camera).pruDataMem
    (2 * Pru.loopCount m.word0 : Int) = 200 * settings.predelay.toInt ∧
      (2 * Pru.loopCount m.word1 : Int) = 200 * settings.pulseWidth.toInt ∧
      (cycleLength m.word0 m.word1 m.word2 : Int) =
        200000 * settings.capturePeriod.toInt + 13 := by
  have hexact := (pruWordsExact_iff settings camera).mpr hrange
  have htrigger := two_mul_loopCount hexact.trigger hexact.trigger_pos
  have hpulse := two_mul_loopCount hexact.pulse hexact.pulse_pos
  have hpause : (2 * Pru.loopCount (setCameraPruValues settings camera).pruDataMem.word2 : Int) =
      200 * (1000 * settings.capturePeriod.toInt - settings.predelay.toInt -
        settings.pulseWidth.toInt) :=
    two_mul_loopCount (by rw [hexact.pause]; omega) hexact.pause_pos
  refine ⟨htrigger, hpulse, ?_⟩
  unfold cycleLength
  push_cast
  omega

/-- **The pulse train.**  A core at the first word of `pulse.bin`, with the two pins low and
    the words of settings in range, comes back there every `200000 * CapturePeriod + 13`
    instructions for as long as it runs; each time the trigger was up for
    `200 * Predelay` loop instructions and then the light for `200 * PulseWidth`.  The core
    keeps every register but `r0`, `r3` and `r30`, and every bit of `r30` but 1 and 5. -/
theorem image_train {settings : DeviceSettings} (hrange : TimingInRange settings)
    (camera : Camera) {c : Pru.Core} (hpc : c.pc = 0)
    (htrigger : (c.reg 30).toBitVec.getLsbD 1 = false)
    (hlight : (c.reg 30).toBitVec.getLsbD 5 = false) (n : Nat) :
    let m := (setCameraPruValues settings camera).start.pruDataMem
    ∃ d, d.pc = 0 ∧ numbering.Kept c d ∧
      (Pru.codeMachine image).Traces codeSignal c
        (List.replicate (n * (200000 * settings.capturePeriod.toInt + 13).toNat) m.load)
        (List.replicate n (cycleSignals m.word0 m.word1 m.word2 false false)).flatten d ∧
      (2 * Pru.loopCount m.word0 : Int) = 200 * settings.predelay.toInt ∧
      (2 * Pru.loopCount m.word1 : Int) = 200 * settings.pulseWidth.toInt := by
  intro m
  obtain ⟨hword0, hword1, hlength⟩ := cycleLength_of_range hrange camera
  have hpins : (numbering.abs c).pin = pins false false := by
    funext p
    cases p with
    | t1 => exact htrigger
    | t5 => exact hlight
  have hstart : (numbering.abs c).pc = START := by
    rw [Pru.Numbering.abs, hpc]
    rfl
  obtain ⟨e, ⟨he, -⟩, htrain⟩ :=
    @traces_train m.word0 m.word1 m.word2 1 (by decide) n _ hstart hpins
  obtain ⟨d, rfl, htrace⟩ := mirrors_image.traces htrain
  refine ⟨d, BitVec.eq_of_toNat_eq he, ?_, ?_, hword0, hword1⟩
  · exact Pru.Numbering.kept_of_reaches assemble_program ⟨_, htrace.exec⟩
  · have hperiod : cycleLength m.word0 m.word1 m.word2 =
        (200000 * settings.capturePeriod.toInt + 13).toNat :=
      (Int.toNat_natCast _).symm.trans (congrArg Int.toNat hlength)
    rw [← hperiod]
    exact htrace

/-- Two periods of the settings of a device as it is made. -/
theorem image_train_init :
    let settings := (Device.init "d1" (.camera 30 200.0)).settings
    let m := (setCameraPruValues settings (Camera.init 30 200.0)).start.pruDataMem
    ∃ d, d.pc = 0 ∧ numbering.Kept ⟨0, fun _ => 0, []⟩ d ∧
      (Pru.codeMachine image).Traces codeSignal ⟨0, fun _ => 0, []⟩
        (List.replicate (2 * (200000 * settings.capturePeriod.toInt + 13).toNat) m.load)
        (List.replicate 2 (cycleSignals m.word0 m.word1 m.word2 false false)).flatten d ∧
      (2 * Pru.loopCount m.word0 : Int) = 200 * settings.predelay.toInt ∧
      (2 * Pru.loopCount m.word1 : Int) = 200 * settings.pulseWidth.toInt := by
  have hrange : TimingInRange (Device.init "d1" (.camera 30 200.0)).settings := by
    constructor <;> decide
  exact image_train hrange (Camera.init 30 200.0) rfl rfl rfl 2

end Pulse

/-! ### The core beside its host -/

/-- The camera, and the PRU core that has been given `pulse.bin`. -/
structure PruBoard where
  camera : Camera
  core : Pru.Core

namespace PruBoard

def step (s : PruBoard) : PruAction → Option PruBoard
  | .instruction =>
      ((Pru.codeMachine Pulse.image).step s.core s.camera.pruDataMem.load).map fun core =>
        { s with core := core }
  | .write w => some { s with camera := w.apply s.camera }

def machine : Machine PruBoard PruAction where
  step := step

def host (s : PruBoard) : PruHost := ⟨s.camera, Pulse.numbering.abs s.core⟩

theorem mirrors_host : machine.Mirrors PruHost.machine host := by
  intro s a
  cases a with
  | write w => rfl
  | instruction =>
    have hcore := Pulse.mirrors_image s.core s.camera.pruDataMem.load
    simp only [machine, step, PruHost.machine, PruHost.step, host, ← hcore, Option.map_map]
    rfl

/-- The core of a board runs as `pulse.bin` does alone. -/
theorem refines_code :
    machine.Refines (Pru.codeMachine Pulse.image) core (fun s a =>
      match a with
      | .instruction => some s.camera.pruDataMem.load
      | .write _ => none) := by
  constructor
  · intro s a t ram hstep hlabel
    cases a with
    | write w => cases hlabel
    | instruction =>
      obtain rfl := Option.some.inj hlabel
      obtain ⟨d, hd, rfl⟩ := Option.map_eq_some_iff.mp hstep
      exact hd
  · intro s a t hstep hlabel
    cases a with
    | instruction => cases hlabel
    | write w =>
      obtain rfl := Option.some.inj hstep
      rfl

/-- **The image does what the program does.**  From any state of the core, under every
    interleaving with the host, a board that runs `pulse.bin` goes on as `pulse.p` does and
    stops where it stops; and the core keeps every register but `r0`, `r3` and `r30`, and
    every bit of `r30` but 1 and 5. -/
theorem image_runs (s : PruBoard) (as : List PruAction) :
    (machine.exec s as).map host = PruHost.machine.exec s.host as ∧
      ∀ t, machine.exec s as = some t →
        (∀ k, k ≠ 0 → k ≠ 3 → k ≠ 30 → t.core.reg k = s.core.reg k) ∧
        ∀ i, i ≠ 1 → i ≠ 5 →
          (t.core.reg 30).toBitVec.getLsbD i = (s.core.reg 30).toBitVec.getLsbD i := by
  refine ⟨mirrors_host.exec s as, ?_⟩
  intro t hexec
  have hkept := Pru.Numbering.kept_of_reaches Pulse.assemble_program
    (refines_code.reaches ⟨as, hexec⟩)
  constructor
  · intro k h0 h3 h30
    apply hkept.reg k h30
    rintro (_ | _)
    · exact h0.symm
    · exact h3.symm
  · intro i h1 h5
    apply hkept.bit i
    rintro (_ | _)
    · exact h1.symm
    · exact h5.symm

/-- The core goes on until it is at `HALT`. -/
theorem step_instruction {s : PruBoard} (h : Pulse.Inv s.host.cpu) :
    if s.core.pc = 20 then machine.step s .instruction = none
      else ∃ t, machine.step s .instruction = some t := by
  have hstep := mirrors_host s .instruction
  split
  · rename_i hhalt
    have hnone : PruHost.machine.step s.host .instruction = none := by
      have hat : s.host.cpu.pc = 20 := congrArg BitVec.toNat hhalt
      simp only [PruHost.machine, PruHost.step, Pulse.machine, Pru.machine, hat]
      rfl
    rw [hnone] at hstep
    exact Option.map_eq_none_iff.mp hstep
  · rename_i hhalt
    have hlt : s.host.cpu.pc < Pulse.HALT := by
      refine Nat.lt_of_le_of_ne h.pc ?_
      intro hat
      exact hhalt (BitVec.eq_of_toNat_eq hat)
    obtain ⟨d, hd⟩ := Pulse.step_defined hlt s.camera.pruDataMem.load
    have hsome : PruHost.machine.step s.host .instruction = some { s.host with cpu := d } := by
      simp only [PruHost.machine, PruHost.step]
      exact congrArg (Option.map _) hd
    rw [hsome] at hstep
    obtain ⟨t, ht, -⟩ := Option.map_eq_some_iff.mp hstep
    exact ⟨t, ht⟩

/-- **The image is safe to run.**  From its first word with both pins low, whatever the host
    writes in between, the core finds an instruction in every word up to `HALT` and none
    behind it, and the trigger and the light are never up together. -/
theorem image_safe (camera : Camera) {c : Pru.Core} (hpc : c.pc = 0)
    (htrigger : (c.reg 30).toBitVec.getLsbD 1 = false)
    (hlight : (c.reg 30).toBitVec.getLsbD 5 = false) (as : List PruAction) :
    machine.AllStates (fun s =>
      (if s.core.pc = 20 then machine.step s .instruction = none
        else ∃ t, machine.step s .instruction = some t) ∧
      ¬ ((s.core.reg 30).toBitVec.getLsbD 1 = true ∧ (s.core.reg 30).toBitVec.getLsbD 5 = true))
      ⟨camera, c⟩ as := by
  have hinit : Pulse.Inv (Pulse.numbering.abs c) := by
    apply Pulse.Inv.start
    · rw [Pru.Numbering.abs, hpc]
      rfl
    · exact htrigger
    · exact hlight
  have hinv : machine.AllStates (fun s => Pulse.Inv s.host.cpu) ⟨camera, c⟩ as := by
    apply machine.allStates_of_invariant _ hinit as
    intro s a t hs hstep
    exact PruHost.inv_step hs (mirrors_host.step hstep)
  apply hinv.mono
  intro s h
  refine ⟨step_instruction h, ?_⟩
  rintro ⟨hup1, hup5⟩
  have ht := h.trigger.mp hup1
  have hl := h.light.mp hup5
  omega

theorem image_safe_init :
    machine.AllStates (fun s =>
      (if s.core.pc = 20 then machine.step s .instruction = none
        else ∃ t, machine.step s .instruction = some t) ∧
      ¬ ((s.core.reg 30).toBitVec.getLsbD 1 = true ∧ (s.core.reg 30).toBitVec.getLsbD 5 = true))
      ⟨Camera.init 30 200.0, ⟨0, fun _ => 0, []⟩⟩
      [.instruction, .write .start, .instruction, .write (.setPulseduration 0), .instruction] :=
  image_safe (Camera.init 30 200.0) rfl rfl rfl _

end PruBoard

end IsmDevice
