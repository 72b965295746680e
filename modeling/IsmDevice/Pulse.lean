import IsmDevice.Device
import IsmDevice.Lib.Pru
import IsmDevice.PruTiming

/-!
# The PRU program

`pulse.p` raises the trigger of the camera for as long as word 0 of the data RAM
says, then the light for word 1, then waits for word 2, and begins again unless
word 3 is zero.  This module follows one pass and counts its instructions, and
joins the count to the settings the words come from.
-/

namespace IsmDevice

open Transition

inductive Register where
  | r0
  | r3
deriving DecidableEq, Repr

/-- The pins of `r30` that are driven: `t1` is the trigger (P9_29), `t5` the light (P9_27). -/
inductive Pin where
  | t1
  | t5
deriving DecidableEq, Repr

abbrev PruCpu := Pru.Cpu Register Pin

namespace Pulse

def PRU0_R31_VEC_VALID : UInt8 := 32
def PRU_EVTOUT_0 : UInt8 := 3

/-! The labels, as instruction addresses. -/

def START : Nat := 0
def TRIGGERDURATION : Nat := 3
def PULSEDURATION : Nat := 9
def PAUSEDURATION : Nat := 14
def END : Nat := 19
def HALT : Nat := 20

def program : List (Pru.Instr Register Pin) :=
  [ -- START
   .mov .r3 0x00000000,
   .lbbo .r0 .r3 0,
   .set .t1,
   -- TRIGGERDURATION
   .sub .r0 .r0 1,
   .qbne TRIGGERDURATION .r0 0,
   .clr .t1,
   -- pulse duration
   .mov .r3 0x00000004,
   .lbbo .r0 .r3 0,
   .set .t5,
   -- PULSEDURATION
   .sub .r0 .r0 1,
   .qbne PULSEDURATION .r0 0,
   .clr .t5,
   -- pause duration
   .mov .r3 0x00000008,
   .lbbo .r0 .r3 0,
   -- PAUSEDURATION
   .sub .r0 .r0 1,
   .qbne PAUSEDURATION .r0 0,
   -- terminate?
   .mov .r3 0x0000000C,
   .lbbo .r0 .r3 0,
   .qbne START .r0 0,
   -- END
   .event (PRU0_R31_VEC_VALID ||| PRU_EVTOUT_0),
   .halt]

end Pulse

/-- The word at an address of the data RAM. -/
def PruDataMem.load (m : PruDataMem) (address : UInt32) : UInt32 :=
  if address = 0x00000000 then m.word0
  else if address = 0x00000004 then m.word1
  else if address = 0x00000008 then m.word2
  else if address = 0x0000000C then m.word3
  else 0

namespace Pulse

/-- `pulse.p` in one state of the data RAM after the other. -/
def machine : Machine PruCpu (UInt32 → UInt32) := Pru.machine program

/-! ### One pass -/

def cycleLength (t p q : UInt32) : Nat :=
  2 * (Pru.loopCount t + Pru.loopCount p + Pru.loopCount q) + 13

/-- What is seen of an instruction: its address, the trigger and the light. -/
def signal (address : Nat) (pin : Pin → Bool) : Nat × Bool × Bool :=
  (address, pin .t1, pin .t5)

/-- The two instructions of a delay loop, over and over. -/
def loopSignals (address : Nat) (n : UInt32) (trigger light : Bool) : List (Nat × Bool × Bool) :=
  (List.replicate (Pru.loopCount n) [(address, trigger, light), (address + 1, trigger, light)]).flatten

/-- One pass from `START`, entered with the trigger at `t1` and the light at `t5`. -/
def cycleSignals (t p q : UInt32) (t1 t5 : Bool) : List (Nat × Bool × Bool) :=
  [(0, t1, t5), (1, t1, t5), (2, t1, t5)] ++
  (loopSignals TRIGGERDURATION t true t5 ++
  ([(5, true, t5), (6, false, t5), (7, false, t5), (8, false, t5)] ++
  (loopSignals PULSEDURATION p false true ++
  ([(11, false, true), (12, false, false), (13, false, false)] ++
  (loopSignals PAUSEDURATION q false false ++
  [(16, false, false), (17, false, false), (18, false, false)])))))

def pins (t1 t5 : Bool) : Pin → Bool
  | .t1 => t1
  | .t5 => t5

@[simp] theorem update_pins_t1 (t1 t5 b : Bool) :
    Function.update (pins t1 t5) .t1 b = pins b t5 := by
  funext p
  cases p <;> rfl

@[simp] theorem update_pins_t5 (t1 t5 b : Bool) :
    Function.update (pins t1 t5) .t5 b = pins t1 b := by
  funext p
  cases p <;> rfl

section Pass

variable {ram : Nat → UInt32 → UInt32} {k i : Nat} {n : UInt32}

/-- The two instructions that fetch a word. -/
theorem timed_fetch {address : UInt32} (hmov : program[i]? = some (.mov .r3 address))
    (hlbbo : program[i + 1]? = some (.lbbo .r0 .r3 0)) (hram : ram (k + 1) (address + 0) = n)
    (pin : Pin → Bool) :
    Pru.Timed program signal ram k (Pru.At i pin) 2 [signal i pin, signal (i + 1) pin]
      (Pru.Holding (i + 2) pin .r0 n) := by
  subst hram
  exact (Pru.Timed.mov hmov).seq (Pru.Timed.lbbo hlbbo)

/-- A word counted down while a pin is up. -/
theorem timed_pulse (ram : Nat → UInt32 → UInt32) (k : Nat) (n : UInt32) {p : Pin}
    (hset : program[i]? = some (.set p))
    (hsub : program[i + 1]? = some (.sub .r0 .r0 1))
    (hqbne : program[i + 2]? = some (.qbne (i + 1) .r0 0))
    (hclr : program[i + 3]? = some (.clr p)) (pin : Pin → Bool) :
    Pru.Timed program signal ram k (Pru.Holding i pin .r0 n) (1 + (2 * Pru.loopCount n + 1))
      ([signal i pin] ++
        (Pru.loopViews signal (Function.update pin p true) (i + 1) (Pru.loopCount n) ++
          [signal (i + 3) (Function.update pin p true)]))
      (Pru.At (i + 4) (Function.update (Function.update pin p true) p false)) :=
  (Pru.Timed.set hset).seq ((Pru.Timed.delay hsub hqbne).seq (Pru.Timed.clr hclr))

theorem timed_trigger (hram : ram (k + 1) 0x00000000 = n) (t1 t5 : Bool) :
    Pru.Timed program signal ram k (Pru.At START (pins t1 t5)) (2 * Pru.loopCount n + 4)
      ([(0, t1, t5), (1, t1, t5), (2, t1, t5)] ++
        (loopSignals TRIGGERDURATION n true t5 ++ [(5, true, t5)]))
      (Pru.At 6 (pins false t5)) := by
  have hup := timed_pulse ram (k + 2) n (i := 2) (p := .t1) rfl rfl rfl rfl (pins t1 t5)
  rw [update_pins_t1, update_pins_t1] at hup
  have hfetch := timed_fetch (i := START) rfl rfl hram (pins t1 t5)
  exact (hfetch.seq hup).congr (by omega) rfl

theorem timed_light (hram : ram (k + 1) 0x00000004 = n) (t1 t5 : Bool) :
    Pru.Timed program signal ram k (Pru.At 6 (pins t1 t5)) (2 * Pru.loopCount n + 4)
      ([(6, t1, t5), (7, t1, t5), (8, t1, t5)] ++
        (loopSignals PULSEDURATION n t1 true ++ [(11, t1, true)]))
      (Pru.At 12 (pins t1 false)) := by
  have hup := timed_pulse ram (k + 2) n (i := 8) (p := .t5) rfl rfl rfl rfl (pins t1 t5)
  rw [update_pins_t5, update_pins_t5] at hup
  have hfetch := timed_fetch (i := 6) rfl rfl hram (pins t1 t5)
  exact (hfetch.seq hup).congr (by omega) rfl

theorem timed_pause (hram : ram (k + 1) 0x00000008 = n) (t1 t5 : Bool) :
    Pru.Timed program signal ram k (Pru.At 12 (pins t1 t5)) (2 * Pru.loopCount n + 2)
      ([(12, t1, t5), (13, t1, t5)] ++ loopSignals PAUSEDURATION n t1 t5)
      (Pru.At 16 (pins t1 t5)) := by
  have hfetch := timed_fetch (i := 12) rfl rfl hram (pins t1 t5)
  have hdelay := hfetch.seq (Pru.Timed.delay rfl rfl)
  exact hdelay.congr (by omega) rfl

/-- The test of word 3. -/
theorem timed_test (hram : ram (k + 1) 0x0000000C = n) (t1 t5 : Bool) :
    Pru.Timed program signal ram k (Pru.At 16 (pins t1 t5)) 3
      [(16, t1, t5), (17, t1, t5), (18, t1, t5)]
      (Pru.At (if n = 0 then END else START) (pins t1 t5)) := by
  have hfetch := timed_fetch (i := 16) rfl rfl hram (pins t1 t5)
  exact hfetch.seq (Pru.Timed.qbne rfl)

/-- A pass, with words 0 to 2 left as they are and word 3 read at its test. -/
theorem timed_cycle {t p q : UInt32} (h0 : ∀ k, ram k 0x00000000 = t)
    (h1 : ∀ k, ram k 0x00000004 = p) (h2 : ∀ k, ram k 0x00000008 = q) (t1 t5 : Bool) :
    Pru.Timed program signal ram 0 (Pru.At START (pins t1 t5)) (cycleLength t p q)
      (cycleSignals t p q t1 t5)
      (Pru.At (if ram (cycleLength t p q - 2) 0x0000000C = 0 then END else START)
        (pins false false)) := by
  have hlen : cycleLength t p q = 2 * Pru.loopCount t + 4 +
      (2 * Pru.loopCount p + 4 + (2 * Pru.loopCount q + 2 + 3)) := by
    unfold cycleLength
    omega
  have hpass := (timed_trigger (h0 1) t1 t5).seq ((timed_light (h1 _) false t5).seq
    ((timed_pause (h2 _) false false).seq (timed_test rfl false false)))
  have htest : 0 + (2 * Pru.loopCount t + 4) + (2 * Pru.loopCount p + 4) +
      (2 * Pru.loopCount q + 2) + 1 = cycleLength t p q - 2 := by
    omega
  rw [htest] at hpass
  apply hpass.congr hlen.symm
  simp [cycleSignals]

end Pass

/-! ### From the settings to the pins -/

theorem two_mul_loopCount {n : UInt32} {us : Int} (hn : (n.toNat : Int) = 100 * us)
    (hpos : 1 ≤ n.toNat) : (2 * Pru.loopCount n : Int) = 200 * us := by
  have hne : n ≠ 0 := by
    rintro rfl
    simp at hpos
  rw [Pru.loopCount_of_ne hne]
  omega

/-- **Settings to pulses.**  A pass over words that are left alone shows the trigger
    up for `2 * t'` loop instructions, the light for `2 * p'`, then neither for
    `2 * q'`, and takes `2 * (t' + p' + q') + 13` in all; for settings in range,
    at 200 instructions to the microsecond, these are the predelay, the pulse width
    and, but for the 13, the capture period. -/
theorem timing :
    (∀ (t p q : UInt32) (word3 : Nat → UInt32) (c : PruCpu), c.pc = START →
      ∃ d, machine.Traces (Pru.watch signal) c
          (Pru.during (fun k => PruDataMem.load ⟨t, p, q, word3 k⟩) 0 (cycleLength t p q))
          (cycleSignals t p q (c.pin .t1) (c.pin .t5)) d ∧
        d.pc = if word3 (cycleLength t p q - 2) = 0 then END else START) ∧
    ∀ (s : DeviceSettings) (camera : Camera), 1 ≤ s.pulseWidth.toInt → 1 ≤ s.predelay.toInt →
      s.predelay.toInt + s.pulseWidth.toInt < 1000 * s.capturePeriod.toInt →
      s.capturePeriod.toInt ≤ 21474 →
        let m := (setCameraPruValues s camera).pruDataMem
        (2 * Pru.loopCount m.word0 : Int) = 200 * s.predelay.toInt ∧
        (2 * Pru.loopCount m.word1 : Int) = 200 * s.pulseWidth.toInt ∧
        (cycleLength m.word0 m.word1 m.word2 : Int) = 200000 * s.capturePeriod.toInt + 13 := by
  constructor
  · intro t p q word3 c hc
    have hpins : c.pin = pins (c.pin .t1) (c.pin .t5) := by
      funext pin
      cases pin <;> rfl
    have hpass : Pru.Timed program signal (fun k => PruDataMem.load ⟨t, p, q, word3 k⟩) 0 _ _ _ _ :=
      timed_cycle (fun _ => rfl) (fun _ => rfl) (fun _ => rfl) (c.pin .t1) (c.pin .t5)
    obtain ⟨d, ⟨hpc, -⟩, htrace⟩ := hpass c ⟨hc, hpins⟩
    exact ⟨d, htrace, hpc⟩
  · intro s camera hwidth hpredelay hsum hperiod m
    have hrange : TimingInRange s := by
      constructor
      · exact ⟨hpredelay, by omega⟩
      · exact ⟨hwidth, by omega⟩
      · exact hsum
      · exact Or.inl hperiod
    have hexact := (pruWordsExact_iff s camera).mpr hrange
    have htrigger : (2 * Pru.loopCount m.word0 : Int) = 200 * s.predelay.toInt :=
      two_mul_loopCount hexact.trigger hexact.trigger_pos
    have hpulse : (2 * Pru.loopCount m.word1 : Int) = 200 * s.pulseWidth.toInt :=
      two_mul_loopCount hexact.pulse hexact.pulse_pos
    have hpause : (2 * Pru.loopCount m.word2 : Int) = 200 * (1000 * s.capturePeriod.toInt -
        s.predelay.toInt - s.pulseWidth.toInt) :=
      two_mul_loopCount (by rw [hexact.pause]; omega) hexact.pause_pos
    refine ⟨htrigger, hpulse, ?_⟩
    unfold cycleLength
    push_cast
    omega

/-- A pass over the smallest words, and the words of a device as it is made. -/
theorem timing_init :
    (∃ d, machine.Traces (Pru.watch signal) ⟨START, fun _ => 0, fun _ => false, []⟩
        (Pru.during (fun _ => PruDataMem.load ⟨1, 1, 1, 0⟩) 0 19) (cycleSignals 1 1 1 false false) d ∧
      d.pc = END) ∧
    let m := (setCameraPruValues (Device.init "d1" (.camera 30 200.0)).settings
      (Camera.init 30 200.0)).pruDataMem
    (2 * Pru.loopCount m.word0 : Int) = 200 * 1000 ∧ (2 * Pru.loopCount m.word1 : Int) = 200 * 4 ∧
      (cycleLength m.word0 m.word1 m.word2 : Int) = 200000 * 5000 + 13 := by
  constructor
  · exact timing.1 1 1 1 (fun _ => 0) ⟨START, fun _ => 0, fun _ => false, []⟩ rfl
  · exact timing.2 (Device.init "d1" (.camera 30 200.0)).settings (Camera.init 30 200.0)
      (by decide) (by decide) (by decide) (by decide)

end Pulse

end IsmDevice
