import Mathlib.Algebra.Ring.Int.Defs
import IsmDevice.Camera

/-!
# The PRU words against the settings

`SetCameraPruValues` turns the pulse width and the predelay (µs) and the capture
period (ms) into loop counts of 10 ns, a hundred to the microsecond.  It computes
in 32-bit words and nothing checks the values.  This module states the counts as
integers and finds the settings for which the words are those integers.

Two ranges come out, not one.  The product for the pause is taken modulo `2^32`
before it is halved, so the halved value is exact modulo `2^31` only; a period
above 42949 ms loses an even multiple of `2^31`, and the two subtractions that
follow can wrap it back into place.
-/

namespace IsmDevice

/-- The words 0 to 2 are the exact loop counts for the settings, and none is zero
    (a delay loop that starts from zero runs `2^32` times). -/
structure PruWordsExact (m : PruDataMem) (s : DeviceSettings) : Prop where
  trigger : (m.word0.toNat : Int) = 100 * s.predelay.toInt
  pulse : (m.word1.toNat : Int) = 100 * s.pulseWidth.toInt
  pause : (m.word2.toNat : Int) =
    100000 * s.capturePeriod.toInt - 100 * s.predelay.toInt - 100 * s.pulseWidth.toInt
  trigger_pos : 1 ≤ m.word0.toNat
  pulse_pos : 1 ≤ m.word1.toNat
  pause_pos : 1 ≤ m.word2.toNat

/-- The settings that the 32-bit computation serves: predelay and pulse width
    positive, their words not wrapping, a pause left over, and the period in one
    of the two ranges where the pause comes out right. -/
structure TimingInRange (s : DeviceSettings) : Prop where
  predelay : 1 ≤ s.predelay.toInt ∧ s.predelay.toInt ≤ 21474836
  pulseWidth : 1 ≤ s.pulseWidth.toInt ∧ s.pulseWidth.toInt ≤ 21474836
  pause : s.predelay.toInt + s.pulseWidth.toInt < 1000 * s.capturePeriod.toInt
  period : s.capturePeriod.toInt ≤ 21474 ∨
    42950 ≤ s.capturePeriod.toInt ∧ s.capturePeriod.toInt ≤ 64424 ∧
      1000 * s.capturePeriod.toInt - s.predelay.toInt - s.pulseWidth.toInt ≤ 42949672

/-! ### The arithmetic of the words -/

theorem toNat_toUInt32 (n : Int32) : (n.toUInt32.toNat : Int) = n.toInt % 2 ^ 32 := by
  have h : (n.toBitVec.toNat : Int) = n.toBitVec.toInt % 2 ^ 32 := by
    rw [BitVec.toInt_eq_toNat_bmod]
    have := n.toBitVec.isLt
    simp only [Int.bmod_def]
    split <;> omega
  exact h

theorem toNat_durationWord (n : Int32) :
    ((n.toUInt32 * 200 / 2).toNat : Int) = n.toInt % 2 ^ 32 * 200 % 2 ^ 32 / 2 := by
  rw [← toNat_toUInt32]
  simp

theorem durationWord_exact_iff (n : Int32) :
    (((n.toUInt32 * 200 / 2).toNat : Int) = 100 * n.toInt ∧ 1 ≤ (n.toUInt32 * 200 / 2).toNat) ↔
      1 ≤ n.toInt ∧ n.toInt ≤ 21474836 := by
  have hlo := n.le_toInt
  have hhi := n.toInt_lt
  have hw := toNat_durationWord n
  omega

/-- Before the subtractions the pause is exact modulo `2^31`. -/
theorem toNat_pauseBase (n : Int32) :
    ((n.toUInt32 * 1000 * 200 / 2).toNat : Int) = 100000 * n.toInt % 2 ^ 31 := by
  have h : ((n.toUInt32 * 1000 * 200 / 2).toNat : Int) =
      n.toInt % 2 ^ 32 * 1000 * 200 % 2 ^ 32 / 2 := by
    rw [← toNat_toUInt32]
    simp
  rw [h]
  omega

theorem toNat_word_sub (a b : UInt32) :
    ((a - b).toNat : Int) = ((a.toNat : Int) - b.toNat) % 2 ^ 32 := by
  have ha := a.toNat_lt
  have hb := b.toNat_lt
  rw [UInt32.toNat_sub]
  omega

/-- The pause for exact trigger and pulse words: it is the exact integer exactly
    if that integer is positive, below `2^32`, and an even multiple of `2^31`
    was lost from the product. -/
theorem pauseWord_exact_iff {period predelay pulse : Int} {w : Nat}
    (hpredelay : 1 ≤ predelay ∧ predelay ≤ 21474836) (hpulse : 1 ≤ pulse ∧ pulse ≤ 21474836)
    (hw : (w : Int) = ((100000 * period % 2 ^ 31 - 100 * predelay) % 2 ^ 32 - 100 * pulse) % 2 ^ 32) :
    ((w : Int) = 100000 * period - 100 * predelay - 100 * pulse ∧ 1 ≤ w) ↔
      predelay + pulse < 1000 * period ∧
        (period ≤ 21474 ∨
          42950 ≤ period ∧ period ≤ 64424 ∧ 1000 * period - predelay - pulse ≤ 42949672) := by
  rw [Int.emod_sub_emod] at hw
  have hlt : (w : Int) < 2 ^ 32 := by omega
  -- `k` is the multiple of `2^31` that the product loses
  obtain ⟨k, hk⟩ : ∃ k, 100000 * period / 2 ^ 31 = k := ⟨_, rfl⟩
  have hlost : 100000 * period % 2 ^ 31 = 100000 * period - 2 ^ 31 * k := by omega
  rw [hlost] at hw
  constructor
  · rintro ⟨heq, hpos⟩
    have hk0 : 0 ≤ k := by omega
    have hk3 : k ≤ 3 := by omega
    have hkeven : k = 0 ∨ k = 2 := by
      obtain rfl | rfl | rfl | rfl : k = 0 ∨ k = 1 ∨ k = 2 ∨ k = 3 := by omega
      · exact Or.inl rfl
      · omega
      · exact Or.inr rfl
      · omega
    rcases hkeven with rfl | rfl <;> omega
  · rintro ⟨hsum, hperiod | ⟨hlo, hhi, hcap⟩⟩
    · obtain rfl : k = 0 := by omega
      omega
    · obtain rfl : k = 2 := by omega
      omega

theorem toNat_pauseWord (s : DeviceSettings) (c : Camera)
    (hpredelay : 1 ≤ s.predelay.toInt ∧ s.predelay.toInt ≤ 21474836)
    (hpulse : 1 ≤ s.pulseWidth.toInt ∧ s.pulseWidth.toInt ≤ 21474836) :
    ((setCameraPruValues s c).pruDataMem.word2.toNat : Int) =
      ((100000 * s.capturePeriod.toInt % 2 ^ 31 - 100 * s.predelay.toInt) % 2 ^ 32 -
        100 * s.pulseWidth.toInt) % 2 ^ 32 := by
  have hword : (setCameraPruValues s c).pruDataMem.word2 =
      s.capturePeriod.toUInt32 * 1000 * 200 / 2 - s.predelay.toUInt32 * 200 / 2 -
        s.pulseWidth.toUInt32 * 200 / 2 := rfl
  rw [hword, toNat_word_sub, toNat_word_sub, toNat_pauseBase,
    ((durationWord_exact_iff s.predelay).mpr hpredelay).1,
    ((durationWord_exact_iff s.pulseWidth).mpr hpulse).1]

/-- **When the words are exact**, for any settings and any previous words. -/
theorem pruWordsExact_iff (s : DeviceSettings) (c : Camera) :
    PruWordsExact (setCameraPruValues s c).pruDataMem s ↔ TimingInRange s := by
  constructor
  · intro h
    have hpredelay := (durationWord_exact_iff s.predelay).mp ⟨h.trigger, h.trigger_pos⟩
    have hpulse := (durationWord_exact_iff s.pulseWidth).mp ⟨h.pulse, h.pulse_pos⟩
    obtain ⟨hsum, hperiod⟩ :=
      (pauseWord_exact_iff hpredelay hpulse (toNat_pauseWord s c hpredelay hpulse)).mp
        ⟨h.pause, h.pause_pos⟩
    exact ⟨hpredelay, hpulse, hsum, hperiod⟩
  · rintro ⟨hpredelay, hpulse, hsum, hperiod⟩
    obtain ⟨htrigger, htrigger_pos⟩ := (durationWord_exact_iff s.predelay).mpr hpredelay
    obtain ⟨hwidth, hwidth_pos⟩ := (durationWord_exact_iff s.pulseWidth).mpr hpulse
    obtain ⟨hpause, hpause_pos⟩ :=
      (pauseWord_exact_iff hpredelay hpulse (toNat_pauseWord s c hpredelay hpulse)).mpr
        ⟨hsum, hperiod⟩
    exact ⟨htrigger, hwidth, hpause, htrigger_pos, hwidth_pos, hpause_pos⟩

end IsmDevice
