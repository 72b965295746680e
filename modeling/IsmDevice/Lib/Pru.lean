import Mathlib.Algebra.Group.Nat.Defs
import Mathlib.Logic.Function.Basic
import IsmDevice.Lib.Machine

/-!
# PRU programs

A programmable real-time unit executes one instruction after the other from a
program of its own, and shares its data RAM with the host.  Embedded are the
instructions that load a word, count it down, branch on it, and drive output
pins.  Registers and pins are whatever types a program names them by.

The action of a step is the content of the data RAM that the instruction finds:
the host may write at any time, and what the program does under all interleavings
is what it does for all sequences of contents.

The delay loop, `SUB r, r, 1` followed by a branch back unless `r` is zero, ends
when the register comes down to zero.  From zero it goes all the way round first.
-/

namespace Pru

open Transition

universe u v w

variable {ρ : Type u} {π : Type v}

variable (ρ π) in
inductive Instr where
  | mov (r : ρ) (value : UInt32)
  | lbbo (r base : ρ) (offset : UInt32) -- four bytes from `base + offset`
  | sub (r source : ρ) (value : UInt32)
  | qbne (target : Nat) (r : ρ) (value : UInt32) -- branch to `target` unless `r` is `value`
  | set (pin : π)
  | clr (pin : π)
  | event (vector : UInt8) -- a byte moved to R31 notifies the host
  | halt

variable (ρ π) in
structure Cpu where
  pc : Nat
  reg : ρ → UInt32
  pin : π → Bool
  events : List UInt8

section Semantics

variable [DecidableEq ρ] [DecidableEq π]

def Instr.exec (ram : UInt32 → UInt32) (c : Cpu ρ π) : Instr ρ π → Option (Cpu ρ π)
  | .mov r value => some { c with pc := c.pc + 1, reg := Function.update c.reg r value }
  | .lbbo r base offset =>
      some { c with pc := c.pc + 1, reg := Function.update c.reg r (ram (c.reg base + offset)) }
  | .sub r source value =>
      some { c with pc := c.pc + 1, reg := Function.update c.reg r (c.reg source - value) }
  | .qbne target r value => some { c with pc := if c.reg r = value then c.pc + 1 else target }
  | .set pin => some { c with pc := c.pc + 1, pin := Function.update c.pin pin true }
  | .clr pin => some { c with pc := c.pc + 1, pin := Function.update c.pin pin false }
  | .event vector => some { c with pc := c.pc + 1, events := c.events ++ [vector] }
  | .halt => none

def machine (program : List (Instr ρ π)) : Machine (Cpu ρ π) (UInt32 → UInt32) where
  step c ram := program[c.pc]?.bind (Instr.exec ram c)

theorem step_of_getElem? {program : List (Instr ρ π)} {c : Cpu ρ π} {i : Instr ρ π}
    (h : program[c.pc]? = some i) (ram : UInt32 → UInt32) :
    (machine program).step c ram = i.exec ram c := by
  simp only [machine, h, Option.bind_some]

end Semantics

/-! ### Loop counts -/

/-- How often a delay loop runs from a register that holds `n`. -/
def loopCount (n : UInt32) : Nat := if n = 0 then 2 ^ 32 else n.toNat

theorem loopCount_of_ne {n : UInt32} (h : n ≠ 0) : loopCount n = n.toNat := if_neg h

/-- The count is one more than what the first decrement leaves, zero included. -/
theorem loopCount_eq (n : UInt32) : loopCount n = (n - 1).toNat + 1 := by
  unfold loopCount
  split
  case isTrue h =>
    rw [h]
    decide
  case isFalse h =>
    have hpos : n.toNat ≠ 0 := fun hzero => h (UInt32.toNat_inj.mp hzero)
    have hlt := n.toNat_lt
    rw [UInt32.toNat_sub, UInt32.toNat_one]
    omega

theorem loopCount_le (n : UInt32) : loopCount n ≤ 2 ^ 32 := by
  have hlt := (n - 1).toNat_lt
  rw [loopCount_eq]
  omega

/-! ### Timed runs -/

/-- What the data RAM holds for `n` instructions from time `k` on. -/
def during {α : Type*} (ram : Nat → α) (k n : Nat) : List α := (List.range' k n).map ram

theorem during_succ {α : Type*} (ram : Nat → α) (k n : Nat) :
    during ram k (n + 1) = ram k :: during ram (k + 1) n := by
  rw [during, List.range'_succ, List.map_cons]
  rfl

theorem during_add {α : Type*} (ram : Nat → α) (k m n : Nat) :
    during ram k (m + n) = during ram k m ++ during ram (k + m) n := by
  rw [during, ← List.range'_append_1, List.map_append]
  rfl

/-- Each instruction is seen with its address and the pins it finds. -/
def watch {γ : Type w} (view : Nat → (π → Bool) → γ) (c : Cpu ρ π) (_ : UInt32 → UInt32) :
    List γ :=
  [view c.pc c.pin]

/-- What is seen of a delay loop at `i`: its two instructions, over and over. -/
def loopViews {γ : Type w} (view : Nat → (π → Bool) → γ) (pin : π → Bool) (i count : Nat) : List γ :=
  (List.replicate count [view i pin, view (i + 1) pin]).flatten

section Rules

variable [DecidableEq ρ] [DecidableEq π] {program : List (Instr ρ π)} {γ : Type w}
  {view : Nat → (π → Bool) → γ} {ram : Nat → UInt32 → UInt32}

/-- The first of `n + 1` instructions, and then the others. -/
theorem traces_step {c c' d : Cpu ρ π} {i : Instr ρ π} {k n : Nat} {os : List γ}
    (hi : program[c.pc]? = some i) (hexec : i.exec (ram k) c = some c')
    (h : (machine program).Traces (watch view) c' (during ram (k + 1) n) os d) :
    (machine program).Traces (watch view) c (during ram k (n + 1)) (view c.pc c.pin :: os) d := by
  have hstep : (machine program).step c (ram k) = some c' := by
    rw [step_of_getElem? hi]
    exact hexec
  rw [during_succ]
  exact Machine.Traces.cons hstep h

/-- The delay loop, from any state of its register. -/
theorem traces_delay {c : Cpu ρ π} {r : ρ} (hsub : program[c.pc]? = some (.sub r r 1))
    (hqbne : program[c.pc + 1]? = some (.qbne c.pc r 0)) (k : Nat) :
    (machine program).Traces (watch view) c (during ram k (2 * loopCount (c.reg r)))
      (loopViews view c.pin c.pc (loopCount (c.reg r)))
      { c with pc := c.pc + 2, reg := Function.update c.reg r 0 } := by
  -- induction on the iterations still to come
  obtain ⟨count, hcount⟩ : ∃ count, loopCount (c.reg r) = count + 1 := ⟨_, loopCount_eq _⟩
  rw [hcount]
  induction count generalizing c k with
  | zero =>
    have hlast : c.reg r - 1 = 0 := by
      rw [loopCount_eq] at hcount
      apply UInt32.toNat_inj.mp
      rw [UInt32.toNat_zero]
      omega
    apply traces_step hsub rfl
    apply traces_step hqbne rfl
    simp only [Function.update_self, hlast, if_true]
    exact Machine.Traces.nil _ _ _
  | succ count ih =>
    have hmore : loopCount (c.reg r - 1) = count + 1 ∧ c.reg r - 1 ≠ 0 := by
      have hleft : (c.reg r - 1).toNat = count + 1 := by
        rw [loopCount_eq] at hcount
        omega
      have hne : c.reg r - 1 ≠ 0 := by
        intro hzero
        rw [hzero] at hleft
        simp at hleft
      exact ⟨(loopCount_of_ne hne).trans hleft, hne⟩
    have hback : (Instr.exec (ram (k + 1))
        { c with pc := c.pc + 1, reg := Function.update c.reg r (c.reg r - 1) }
        (.qbne c.pc r 0)) =
        some { c with reg := Function.update c.reg r (c.reg r - 1) } := by
      simp [Instr.exec, hmore.2]
    have hrest := ih (c := { c with reg := Function.update c.reg r (c.reg r - 1) }) hsub hqbne
      (k + 2) (by simpa using hmore.1)
    simp only [Function.update_idem] at hrest
    apply traces_step hsub rfl
    exact traces_step hqbne hback hrest

/-! ### Timed blocks -/

variable (program view ram) in
/-- From any state in `P` at time `k`, the next `n` instructions are seen as `os` and
    lead to a state in `Q`. -/
def Timed (k : Nat) (P : Cpu ρ π → Prop) (n : Nat) (os : List γ) (Q : Cpu ρ π → Prop) : Prop :=
  ∀ c, P c → ∃ d, Q d ∧ (machine program).Traces (watch view) c (during ram k n) os d

/-- About to execute the instruction at `i`, with these pins. -/
def At (i : Nat) (pin : π → Bool) (c : Cpu ρ π) : Prop := c.pc = i ∧ c.pin = pin

def Holding (i : Nat) (pin : π → Bool) (r : ρ) (n : UInt32) (c : Cpu ρ π) : Prop :=
  c.pc = i ∧ c.pin = pin ∧ c.reg r = n

theorem Timed.seq {k m n : Nat} {P Q R : Cpu ρ π → Prop} {os ps : List γ}
    (h : Timed program view ram k P m os Q) (h' : Timed program view ram (k + m) Q n ps R) :
    Timed program view ram k P (m + n) (os ++ ps) R := by
  intro c hc
  obtain ⟨d, hd, htrace⟩ := h c hc
  obtain ⟨e, he, htrace'⟩ := h' d hd
  refine ⟨e, he, ?_⟩
  rw [during_add]
  exact htrace.append htrace'

theorem Timed.congr {k m n : Nat} {P Q : Cpu ρ π → Prop} {os ps : List γ}
    (h : Timed program view ram k P m os Q) (hn : m = n) (hos : os = ps) :
    Timed program view ram k P n ps Q := by
  subst hn hos
  exact h

theorem Timed.step {k i : Nat} {pin : π → Bool} {P Q : Cpu ρ π → Prop} {instr : Instr ρ π}
    (hi : program[i]? = some instr) (hP : ∀ c, P c → c.pc = i ∧ c.pin = pin)
    (hexec : ∀ c, P c → ∃ d, instr.exec (ram k) c = some d ∧ Q d) :
    Timed program view ram k P 1 [view i pin] Q := by
  intro c hc
  obtain ⟨rfl, rfl⟩ := hP c hc
  obtain ⟨d, hd, hQ⟩ := hexec c hc
  exact ⟨d, hQ, traces_step hi hd (Machine.Traces.nil _ _ _)⟩

variable {k i : Nat} {pin : π → Bool}

theorem Timed.mov {r : ρ} {value : UInt32} (hi : program[i]? = some (.mov r value)) :
    Timed program view ram k (At i pin) 1 [view i pin] (Holding (i + 1) pin r value) := by
  apply Timed.step hi
  · intro c hc
    exact hc
  · rintro c ⟨rfl, rfl⟩
    exact ⟨_, rfl, rfl, rfl, Function.update_self _ _ _⟩

theorem Timed.lbbo {r base : ρ} {offset address : UInt32}
    (hi : program[i]? = some (.lbbo r base offset)) :
    Timed program view ram k (Holding i pin base address) 1 [view i pin]
      (Holding (i + 1) pin r (ram k (address + offset))) := by
  apply Timed.step hi
  · rintro c ⟨hpc, hpin, -⟩
    exact ⟨hpc, hpin⟩
  · rintro c ⟨rfl, rfl, rfl⟩
    exact ⟨_, rfl, rfl, rfl, Function.update_self _ _ _⟩

theorem Timed.set {p : π} {r : ρ} {n : UInt32} (hi : program[i]? = some (.set p)) :
    Timed program view ram k (Holding i pin r n) 1 [view i pin]
      (Holding (i + 1) (Function.update pin p true) r n) := by
  apply Timed.step hi
  · rintro c ⟨hpc, hpin, -⟩
    exact ⟨hpc, hpin⟩
  · rintro c ⟨rfl, rfl, rfl⟩
    exact ⟨_, rfl, rfl, rfl, rfl⟩

theorem Timed.clr {p : π} (hi : program[i]? = some (.clr p)) :
    Timed program view ram k (At i pin) 1 [view i pin]
      (At (i + 1) (Function.update pin p false)) := by
  apply Timed.step hi
  · intro c hc
    exact hc
  · rintro c ⟨rfl, rfl⟩
    exact ⟨_, rfl, rfl, rfl⟩

theorem Timed.qbne {target : Nat} {r : ρ} {n value : UInt32}
    (hi : program[i]? = some (.qbne target r value)) :
    Timed program view ram k (Holding i pin r n) 1 [view i pin]
      (At (if n = value then i + 1 else target) pin) := by
  apply Timed.step hi
  · rintro c ⟨hpc, hpin, -⟩
    exact ⟨hpc, hpin⟩
  · rintro c ⟨rfl, rfl, rfl⟩
    exact ⟨_, rfl, rfl, rfl⟩

/-- **The delay loop.**  From `n` it takes exactly `2 * loopCount n` instructions,
    during which no pin changes. -/
theorem Timed.delay {r : ρ} {n : UInt32} (hsub : program[i]? = some (.sub r r 1))
    (hqbne : program[i + 1]? = some (.qbne i r 0)) :
    Timed program view ram k (Holding i pin r n) (2 * loopCount n)
      (loopViews view pin i (loopCount n)) (At (i + 2) pin) := by
  rintro c ⟨rfl, rfl, rfl⟩
  exact ⟨{ c with pc := c.pc + 2, reg := Function.update c.reg r 0 }, ⟨rfl, rfl⟩,
    traces_delay hsub hqbne k⟩

end Rules

end Pru
