import IsmDevice.Lib.Pru

/-!
# PRU machine code

What the PRU fetches are words of four bytes, and a symbolic program is such words
only after it has been assembled.  Embedded are the instruction formats that the
symbolic instructions assemble to, a core that executes them on its thirty-two
registers, and the assembler for a numbering of the symbolic registers and pins.

The output pins are the bits of `r30`.  A write to `r31` is no write but a
notification of the host; what is read from it are the input pins, which no program
assembled here reads.

An assembled program does on the core what the symbolic one does (`mirrors`), and
touches no register and no pin that it does not name (`kept_exec`).
-/

namespace Pru

open Transition

universe u v

/-! ### Instructions -/

/-- A register, or a byte or half of one: `sel` is 0 to 3 for the bytes, 4 to 6 for the
    halves at each byte, and 7 for the whole. -/
structure Field where
  sel : BitVec 3
  reg : BitVec 5
deriving DecidableEq

inductive Operand where
  | reg (field : Field)
  | imm (value : BitVec 8)
deriving DecidableEq

inductive AluOp where
  | sub
  | clr
  | set
deriving DecidableEq

inductive Code where
  | alu (op : AluOp) (rd rs1 : Field) (op2 : Operand)
  | ldi (rd : Field) (value : BitVec 16)
  | lbbo (rx rb : BitVec 5) (offset : Operand) -- a burst of four bytes
  | qbne (offset : BitVec 10) (rs1 : Field) (op2 : Operand)
  | halt
deriving DecidableEq

/-! ### Execution -/

structure Core where
  pc : BitVec 16
  reg : BitVec 5 → UInt32
  events : List UInt8

namespace Field

def whole (reg : BitVec 5) : Field := ⟨7, reg⟩

def low (f : Field) : UInt32 :=
  if f.sel < 4 then 8 * (f.sel.setWidth 32).toNat.toUInt32
  else if f.sel < 7 then 8 * ((f.sel - 4).setWidth 32).toNat.toUInt32
  else 0

def mask (f : Field) : UInt32 :=
  if f.sel < 4 then 0xFF else if f.sel < 7 then 0xFFFF else 0xFFFFFFFF

def extract (f : Field) (v : UInt32) : UInt32 := (v >>> f.low) &&& f.mask

def insert (f : Field) (v x : UInt32) : UInt32 :=
  (v &&& ~~~(f.mask <<< f.low)) ||| ((x &&& f.mask) <<< f.low)

end Field

namespace Core

def read (c : Core) (f : Field) : UInt32 := f.extract (c.reg f.reg)

def put (c : Core) (reg : BitVec 5) (x : UInt32) : Core :=
  { c with reg := Function.update c.reg reg x }

def write (c : Core) (f : Field) (x : UInt32) : Core :=
  if f.reg = 31 then { c with events := c.events ++ [(f.insert 0 x).toUInt8] }
  else c.put f.reg (f.insert (c.reg f.reg) x)

def next (c : Core) : Core := { c with pc := c.pc + 1 }

end Core

def Operand.value (c : Core) : Operand → UInt32
  | .reg field => c.read field
  | .imm value => UInt32.ofBitVec (value.setWidth 32)

/-- `set` and `clr` take the bit number modulo 32, as shifts do. -/
def AluOp.apply (v x : UInt32) : AluOp → UInt32
  | .sub => v - x
  | .clr => v &&& ~~~((1 : UInt32) <<< x)
  | .set => v ||| ((1 : UInt32) <<< x)

def Code.exec (ram : UInt32 → UInt32) (c : Core) : Code → Option Core
  | .alu op rd rs1 op2 => some (c.next.write rd (op.apply (c.read rs1) (op2.value c)))
  | .ldi rd value => some (c.next.write rd (UInt32.ofBitVec (value.setWidth 32)))
  | .lbbo rx rb offset => some (c.next.write (.whole rx) (ram (c.reg rb + offset.value c)))
  | .qbne offset rs1 op2 =>
      some { c with
        pc := if c.read rs1 = op2.value c then c.pc + 1 else c.pc + offset.signExtend 16 }
  | .halt => none

section Whole

variable {c : Core} {reg : BitVec 5} {v x : UInt32}

@[simp] theorem Core.reg_put_self : (c.put reg x).reg reg = x := Function.update_self _ _ _

theorem Core.reg_put_of_ne {k : BitVec 5} (h : k ≠ reg) : (c.put reg x).reg k = c.reg k :=
  Function.update_of_ne h _ _

theorem Field.extract_whole : (Field.whole reg).extract v = v := by
  have hlow : (Field.whole reg).low = 0 := rfl
  have hmask : (Field.whole reg).mask = -1 := rfl
  rw [Field.extract, hlow, hmask]
  simp

theorem Field.insert_whole : (Field.whole reg).insert v x = x := by
  have hlow : (Field.whole reg).low = 0 := rfl
  have hmask : (Field.whole reg).mask = -1 := rfl
  rw [Field.insert, hlow, hmask]
  simp

theorem Core.read_whole : c.read (.whole reg) = c.reg reg := Field.extract_whole

theorem Core.write_whole (h : reg ≠ 31) :
    c.write (.whole reg) x = c.put reg x := by
  have hreg : (Field.whole reg).reg ≠ 31 := h
  rw [Core.write, if_neg hreg, Field.insert_whole]
  rfl

end Whole

/-! ### Words -/

namespace Field

def toByte (f : Field) : BitVec 8 := f.sel ++ f.reg

def ofByte (b : BitVec 8) : Field := ⟨b.extractLsb' 5 3, b.extractLsb' 0 5⟩

theorem ofByte_toByte (f : Field) : ofByte f.toByte = f := by
  simp only [ofByte, toByte, BitVec.extractLsb'_append_eq_left, BitVec.extractLsb'_append_eq_right]

end Field

namespace Operand

/-- The `IO` bit: whether the byte is a value. -/
def io : Operand → BitVec 1
  | .reg _ => 0
  | .imm _ => 1

def toByte : Operand → BitVec 8
  | .reg field => field.toByte
  | .imm value => value

def ofByte (io : BitVec 1) (b : BitVec 8) : Operand := if io = 1 then .imm b else .reg (.ofByte b)

theorem ofByte_toByte (o : Operand) : ofByte o.io o.toByte = o := by
  cases o with
  | reg field => simp [ofByte, io, toByte, Field.ofByte_toByte]
  | imm value => simp [ofByte, io, toByte]

end Operand

namespace AluOp

def code : AluOp → BitVec 4
  | .sub => 0b0010
  | .clr => 0b1110
  | .set => 0b1111

def ofCode (b : BitVec 4) : Option AluOp :=
  if b = 0b0010 then some .sub
  else if b = 0b1110 then some .clr
  else if b = 0b1111 then some .set
  else none

theorem ofCode_code (op : AluOp) : ofCode op.code = some op := by
  cases op <;> rfl

end AluOp

/-- The four bytes of a word, the lowest first. -/
def Code.bytes : Code → List (BitVec 8)
  | .alu op rd rs1 op2 => [rd.toByte, rs1.toByte, op2.toByte, (0b000#3 ++ op.code) ++ op2.io]
  | .ldi rd value => [rd.toByte, value.extractLsb' 0 8, value.extractLsb' 8 8, 0x24]
  | .lbbo rx rb offset =>
      [0b100#3 ++ rx, 0b001#3 ++ rb, offset.toByte, 0b1111000#7 ++ offset.io]
  | .qbne offset rs1 op2 =>
      [offset.extractLsb' 0 8, rs1.toByte, op2.toByte,
        (0b01101#5 ++ offset.extractLsb' 8 2) ++ op2.io]
  | .halt => [0, 0, 0, 0x2A]

def decode (b₀ b₁ b₂ b₃ : BitVec 8) : Option Code :=
  let op2 := Operand.ofByte (b₃.extractLsb' 0 1) b₂
  if b₃.extractLsb' 5 3 = 0b000 then
    (AluOp.ofCode (b₃.extractLsb' 1 4)).map fun op => .alu op (.ofByte b₀) (.ofByte b₁) op2
  else if b₃ = 0x24 then some (.ldi (.ofByte b₀) (b₂ ++ b₁))
  else if b₃ = 0x2A then if b₀ = 0 ∧ b₁ = 0 ∧ b₂ = 0 then some .halt else none
  else if b₃.extractLsb' 3 5 = 0b01101 then
    some (.qbne (b₃.extractLsb' 1 2 ++ b₀) (.ofByte b₁) op2)
  else if b₃.extractLsb' 1 7 = 0b1111000 ∧ b₁.extractLsb' 5 3 = 0b001 ∧
      b₀.extractLsb' 5 3 = 0b100 then
    some (.lbbo (b₀.extractLsb' 0 5) (b₁.extractLsb' 0 5) op2)
  else none

/-- The word at an address of the instruction RAM. -/
def fetch (image : List (BitVec 8)) (address : Nat) : Option Code :=
  match image.drop (4 * address) with
  | b₀ :: b₁ :: b₂ :: b₃ :: _ => decode b₀ b₁ b₂ b₃
  | _ => none

def codeMachine (image : List (BitVec 8)) : Machine Core (UInt32 → UInt32) where
  step c ram := (fetch image c.pc.toNat).bind (Code.exec ram c)

section RoundTrip

/-- Bytes of different formats differ. -/
theorem ne_of_format {b c : BitVec 8} {format : BitVec 3} (h : b.extractLsb' 5 3 = format)
    (hne : c.extractLsb' 5 3 ≠ format) : b ≠ c := by
  rintro rfl
  exact hne h

/-- **A word is decoded to the instruction it encodes.** -/
theorem decode_bytes (i : Code) :
    ∃ b₀ b₁ b₂ b₃, i.bytes = [b₀, b₁, b₂, b₃] ∧ decode b₀ b₁ b₂ b₃ = some i := by
  cases i with
  | alu op rd rs1 op2 =>
    refine ⟨_, _, _, _, rfl, ?_⟩
    have hio : ((0b000#3 ++ op.code) ++ op2.io).extractLsb' 0 1 = op2.io :=
      BitVec.extractLsb'_append_eq_right
    have hformat : ((0b000#3 ++ op.code) ++ op2.io).extractLsb' 5 3 = 0b000 := by
      rw [BitVec.extractLsb'_append_eq_of_le (by decide)]
      exact BitVec.extractLsb'_append_eq_left
    have hop : ((0b000#3 ++ op.code) ++ op2.io).extractLsb' 1 4 = op.code := by
      rw [BitVec.extractLsb'_append_eq_of_le (by decide)]
      exact BitVec.extractLsb'_append_eq_right
    simp only [decode, hio, hformat, hop, if_true, AluOp.ofCode_code, Option.map_some,
      Field.ofByte_toByte, Operand.ofByte_toByte]
  | ldi rd value =>
    refine ⟨_, _, _, _, rfl, ?_⟩
    have hvalue : value.extractLsb' 8 8 ++ value.extractLsb' 0 8 = value := by
      rw [BitVec.extractLsb'_append_extractLsb'_eq_extractLsb' (show 8 = 0 + 8 from rfl)]
      exact BitVec.extractLsb'_eq_self
    rw [decode, if_neg (by decide), if_pos rfl, hvalue, Field.ofByte_toByte]
  | lbbo rx rb offset =>
    refine ⟨_, _, _, _, rfl, ?_⟩
    have hio : (0b1111000#7 ++ offset.io).extractLsb' 0 1 = offset.io :=
      BitVec.extractLsb'_append_eq_right
    have hformat : (0b1111000#7 ++ offset.io).extractLsb' 5 3 = 0b111 := by
      rw [BitVec.extractLsb'_append_eq_of_le (by decide)]
      decide
    have hload : (0b1111000#7 ++ offset.io).extractLsb' 1 7 = 0b1111000 :=
      BitVec.extractLsb'_append_eq_left
    have hbranch : (0b1111000#7 ++ offset.io).extractLsb' 3 5 = 0b11110 := by
      rw [BitVec.extractLsb'_append_eq_of_le (by decide)]
      decide
    have hrx : (0b100#3 ++ rx).extractLsb' 5 3 = 0b100 ∧ (0b100#3 ++ rx).extractLsb' 0 5 = rx :=
      ⟨BitVec.extractLsb'_append_eq_left, BitVec.extractLsb'_append_eq_right⟩
    have hrb : (0b001#3 ++ rb).extractLsb' 5 3 = 0b001 ∧ (0b001#3 ++ rb).extractLsb' 0 5 = rb :=
      ⟨BitVec.extractLsb'_append_eq_left, BitVec.extractLsb'_append_eq_right⟩
    rw [decode, hio, hformat, hbranch, hload, hrx.1, hrb.1, hrx.2, hrb.2, if_neg (by decide),
      if_neg (ne_of_format hformat (by decide)), if_neg (ne_of_format hformat (by decide)),
      if_neg (by decide), if_pos ⟨rfl, rfl, rfl⟩, Operand.ofByte_toByte]
  | qbne offset rs1 op2 =>
    refine ⟨_, _, _, _, rfl, ?_⟩
    have hio : ((0b01101#5 ++ offset.extractLsb' 8 2) ++ op2.io).extractLsb' 0 1 = op2.io :=
      BitVec.extractLsb'_append_eq_right
    have hformat : ((0b01101#5 ++ offset.extractLsb' 8 2) ++ op2.io).extractLsb' 5 3 = 0b011 := by
      rw [BitVec.extractLsb'_append_eq_of_le (by decide),
        BitVec.extractLsb'_append_eq_of_le (by decide)]
      decide
    have hbranch : ((0b01101#5 ++ offset.extractLsb' 8 2) ++ op2.io).extractLsb' 3 5 =
        0b01101 := by
      rw [BitVec.extractLsb'_append_eq_of_le (by decide)]
      exact BitVec.extractLsb'_append_eq_left
    have hhigh : ((0b01101#5 ++ offset.extractLsb' 8 2) ++ op2.io).extractLsb' 1 2 =
        offset.extractLsb' 8 2 := by
      rw [BitVec.extractLsb'_append_eq_of_le (by decide)]
      exact BitVec.extractLsb'_append_eq_right
    have hoffset : offset.extractLsb' 8 2 ++ offset.extractLsb' 0 8 = offset := by
      rw [BitVec.extractLsb'_append_extractLsb'_eq_extractLsb' (show 8 = 0 + 8 from rfl)]
      exact BitVec.extractLsb'_eq_self
    rw [decode, hio, hformat, hbranch, hhigh, hoffset, if_neg (by decide),
      if_neg (ne_of_format hformat (by decide)), if_neg (ne_of_format hformat (by decide)),
      if_pos rfl, Field.ofByte_toByte, Operand.ofByte_toByte]
  | halt => exact ⟨_, _, _, _, rfl, rfl⟩

end RoundTrip

/-! ### The assembler -/

/-- Which registers and which bits of `r30` the symbolic names stand for. -/
structure Numbering (ρ : Type u) (π : Type v) where
  reg : ρ → BitVec 5
  pin : π → BitVec 5
  reg_injective : Function.Injective reg
  pin_injective : Function.Injective pin
  reg_ne_r30 : ∀ r, reg r ≠ 30
  reg_ne_r31 : ∀ r, reg r ≠ 31

namespace Numbering

variable {ρ : Type u} {π : Type v} (num : Numbering ρ π)

/-- The instruction at an address, unless a value or a distance is too large for it. -/
def code (address : Nat) : Instr ρ π → Option Code
  | .mov r value =>
      if value < 65536 then some (.ldi (.whole (num.reg r)) (value.toBitVec.setWidth 16)) else none
  | .lbbo r base offset =>
      if offset < 256 then
        some (.lbbo (num.reg r) (num.reg base) (.imm (offset.toBitVec.setWidth 8)))
      else none
  | .sub r source value =>
      if value < 256 then
        some (.alu .sub (.whole (num.reg r)) (.whole (num.reg source))
          (.imm (value.toBitVec.setWidth 8)))
      else none
  | .qbne target r value =>
      if value < 256 ∧ target < 65536 ∧ address ≤ target + 512 ∧ target < address + 512 then
        some (.qbne (BitVec.ofInt 10 (target - address)) (.whole (num.reg r))
          (.imm (value.toBitVec.setWidth 8)))
      else none
  | .set pin => some (.alu .set (.whole 30) (.whole 30) (.imm ((num.pin pin).setWidth 8)))
  | .clr pin => some (.alu .clr (.whole 30) (.whole 30) (.imm ((num.pin pin).setWidth 8)))
  | .event vector => some (.ldi ⟨0, 31⟩ (vector.toBitVec.setWidth 16))
  | .halt => some .halt

def assembleFrom : Nat → List (Instr ρ π) → Option (List (BitVec 8))
  | _, [] => some []
  | address, i :: rest =>
      match num.code address i, assembleFrom (address + 1) rest with
      | some code, some bytes => some (code.bytes ++ bytes)
      | _, _ => none

/-- The instruction RAM has room for 2048 words. -/
def assemble (program : List (Instr ρ π)) : Option (List (BitVec 8)) :=
  if program.length ≤ 2048 then num.assembleFrom 0 program else none

/-- What is seen of a core by the symbolic names. -/
def abs (c : Core) : Cpu ρ π where
  pc := c.pc.toNat
  reg r := c.reg (num.reg r)
  pin p := (c.reg 30).toBitVec.getLsbD (num.pin p).toNat
  events := c.events

/-! ### What is fetched -/

theorem fetch_assembleFrom {program : List (Instr ρ π)} {address : Nat} {image : List (BitVec 8)}
    (h : num.assembleFrom address program = some image) (k : Nat) :
    fetch image k = program[k]?.bind (num.code (address + k)) := by
  induction program generalizing address image k with
  | nil =>
    obtain rfl := Option.some.inj h
    simp [fetch]
  | cons i rest ih =>
    rw [assembleFrom] at h
    split at h
    · rename_i code bytes hcode hrest
      obtain rfl := Option.some.inj h
      obtain ⟨b₀, b₁, b₂, b₃, hbytes, hdecode⟩ := decode_bytes code
      rw [hbytes]
      cases k with
      | zero => exact hdecode.trans hcode.symm
      | succ k =>
        have hnext := ih hrest k
        rw [show address + 1 + k = address + (k + 1) by omega] at hnext
        rw [List.getElem?_cons_succ, ← hnext]
        rfl
    · cases h

theorem code_assembleFrom {program : List (Instr ρ π)} {address : Nat} {image : List (BitVec 8)}
    (h : num.assembleFrom address program = some image) {k : Nat} {i : Instr ρ π}
    (hi : program[k]? = some i) : ∃ code, num.code (address + k) i = some code := by
  induction program generalizing address image k with
  | nil => cases hi
  | cons j rest ih =>
    rw [assembleFrom] at h
    split at h
    · rename_i code bytes hcode hrest
      cases k with
      | zero =>
        obtain rfl := Option.some.inj hi
        exact ⟨code, hcode⟩
      | succ k =>
        obtain ⟨code', hcode'⟩ := ih hrest hi
        refine ⟨code', ?_⟩
        rw [← hcode']
        congr 1
        omega
    · cases h

variable {num} in
/-- **What the core fetches** from an assembled program. -/
theorem fetch_assemble {program : List (Instr ρ π)} {image : List (BitVec 8)}
    (h : num.assemble program = some image) (k : Nat) :
    match program[k]? with
    | some i => k < 2048 ∧ ∃ code, num.code k i = some code ∧ fetch image k = some code
    | none => fetch image k = none := by
  rw [assemble] at h
  split at h
  · rename_i hlength
    have hfetch := num.fetch_assembleFrom h k
    cases hi : program[k]? with
    | none => rw [hfetch, hi, Option.bind_none]
    | some i =>
      obtain ⟨code, hcode⟩ := num.code_assembleFrom h hi
      rw [Nat.zero_add] at hcode hfetch
      have hlt := (List.getElem?_eq_some_iff.mp hi).1
      refine ⟨by omega, code, hcode, ?_⟩
      rw [hfetch, hi, Option.bind_some, hcode]
  · cases h

/-! ### What is executed -/

section Exec

variable {num : Numbering ρ π} {c d : Core}

/-- The number of an output pin, as an instruction gives it. -/
def pinNumber (p : BitVec 5) : UInt32 := UInt32.ofBitVec ((p.setWidth 8).setWidth 32)

variable (num) in
/-- What the instruction does on the core. -/
def exec (ram : UInt32 → UInt32) (c : Core) : Instr ρ π → Option Core
  | .mov r value => some (c.next.put (num.reg r) value)
  | .lbbo r base offset =>
      some (c.next.put (num.reg r) (ram (c.reg (num.reg base) + offset)))
  | .sub r source value => some (c.next.put (num.reg r) (c.reg (num.reg source) - value))
  | .qbne target r value =>
      some { c with
        pc := if c.reg (num.reg r) = value then c.pc + 1 else BitVec.ofNat 16 target }
  | .set pin => some (c.next.put 30 (AluOp.set.apply (c.reg 30) (pinNumber (num.pin pin))))
  | .clr pin => some (c.next.put 30 (AluOp.clr.apply (c.reg 30) (pinNumber (num.pin pin))))
  | .event vector => some { c.next with events := c.events ++ [vector] }
  | .halt => none

theorem value_small {value : UInt32} (h : value < 256) :
    (Operand.imm (value.toBitVec.setWidth 8)).value c = value := by
  have hlt : value.toNat < 256 := UInt32.lt_iff_toNat_lt.mp h
  apply UInt32.toNat_inj.mp
  simp [Operand.value]
  omega

theorem value_half {value : UInt32} (h : value < 65536) :
    UInt32.ofBitVec ((value.toBitVec.setWidth 16).setWidth 32) = value := by
  have hlt : value.toNat < 65536 := UInt32.lt_iff_toNat_lt.mp h
  apply UInt32.toNat_inj.mp
  simp
  omega

/-- The byte that is moved to `r31`. -/
theorem insert_event (vector : UInt8) :
    ((⟨0, 31⟩ : Field).insert 0
      (UInt32.ofBitVec ((vector.toBitVec.setWidth 16).setWidth 32))).toUInt8 = vector := by
  have hlow : (⟨0, 31⟩ : Field).low = 0 := rfl
  have hmask : (⟨0, 31⟩ : Field).mask = 0xFF := rfl
  rw [Field.insert, hlow, hmask]
  apply UInt8.toNat_inj.mp
  have hlt : vector.toNat < 256 := vector.toNat_lt
  have hbyte : vector.toNat &&& 255 = vector.toNat := by
    rw [Nat.and_two_pow_sub_one_eq_mod vector.toNat 8]
    omega
  simp [hbyte]

theorem branch_eq {target : Nat} (hback : c.pc.toNat ≤ target + 512)
    (hforth : target < c.pc.toNat + 512) :
    c.pc + (BitVec.ofInt 10 (target - c.pc.toNat)).signExtend 16 = BitVec.ofNat 16 target := by
  have hoffset : (BitVec.ofInt 10 (target - c.pc.toNat)).toInt = target - c.pc.toNat := by
    rw [BitVec.toInt_ofInt]
    apply Int.bmod_eq_of_le <;> omega
  apply BitVec.eq_of_toNat_eq
  rw [BitVec.signExtend, hoffset, BitVec.toNat_add, BitVec.toNat_ofInt, BitVec.toNat_ofNat]
  omega

/-- The bytes of an instruction do on the core what the instruction does. -/
theorem exec_code {i : Instr ρ π} {code : Code} (hcode : num.code c.pc.toNat i = some code)
    (ram : UInt32 → UInt32) : code.exec ram c = num.exec ram c i := by
  cases i with
  | mov r value =>
    rw [Numbering.code] at hcode
    split at hcode
    · rename_i hsmall
      obtain rfl := Option.some.inj hcode
      rw [Code.exec, Core.write_whole (num.reg_ne_r31 r), value_half hsmall]
      rfl
    · cases hcode
  | lbbo r base offset =>
    rw [Numbering.code] at hcode
    split at hcode
    · rename_i hsmall
      obtain rfl := Option.some.inj hcode
      rw [Code.exec, Core.write_whole (num.reg_ne_r31 r), value_small hsmall]
      rfl
    · cases hcode
  | sub r source value =>
    rw [Numbering.code] at hcode
    split at hcode
    · rename_i hsmall
      obtain rfl := Option.some.inj hcode
      rw [Code.exec, Core.write_whole (num.reg_ne_r31 r), value_small hsmall, Core.read_whole]
      rfl
    · cases hcode
  | qbne target r value =>
    rw [Numbering.code] at hcode
    split at hcode
    · rename_i hrange
      obtain rfl := Option.some.inj hcode
      obtain ⟨hvalue, -, hback, hforth⟩ := hrange
      rw [Code.exec, value_small hvalue, Core.read_whole, branch_eq hback hforth]
      rfl
    · cases hcode
  | set pin =>
    obtain rfl := Option.some.inj hcode
    rw [Code.exec, Core.write_whole (by decide), Core.read_whole]
    rfl
  | clr pin =>
    obtain rfl := Option.some.inj hcode
    rw [Code.exec, Core.write_whole (by decide), Core.read_whole]
    rfl
  | event vector =>
    obtain rfl := Option.some.inj hcode
    rw [Code.exec, Core.write, if_pos rfl, insert_event]
    rfl
  | halt =>
    obtain rfl := Option.some.inj hcode
    rfl

theorem toBitVec_pinNumber (p : BitVec 5) :
    ((1 : UInt32) <<< pinNumber p).toBitVec = BitVec.twoPow 32 p.toNat := by
  have hlt := p.isLt
  rw [BitVec.twoPow_eq, UInt32.toBitVec_shiftLeft, BitVec.shiftLeft_eq']
  congr 1
  simp [pinNumber]
  omega

theorem getLsbD_set (v : UInt32) (p : BitVec 5) (i : Nat) :
    (AluOp.set.apply v (pinNumber p)).toBitVec.getLsbD i =
      if i = p.toNat then true else v.toBitVec.getLsbD i := by
  have hlt : p.toNat < 32 := p.isLt
  rw [AluOp.apply, UInt32.toBitVec_or, toBitVec_pinNumber, BitVec.getLsbD_or,
    BitVec.getLsbD_twoPow]
  by_cases hi : i = p.toNat
  · simp [hi, hlt]
  · simp [hi, Ne.symm hi]

theorem getLsbD_clr (v : UInt32) (p : BitVec 5) (i : Nat) :
    (AluOp.clr.apply v (pinNumber p)).toBitVec.getLsbD i =
      if i = p.toNat then false else v.toBitVec.getLsbD i := by
  have hlt : p.toNat < 32 := p.isLt
  rw [AluOp.apply, UInt32.toBitVec_and, UInt32.toBitVec_not, toBitVec_pinNumber,
    BitVec.getLsbD_and, BitVec.getLsbD_not, BitVec.getLsbD_twoPow]
  by_cases hi : i = p.toNat
  · simp [hi, hlt]
  · have hbit : v.toBitVec.getLsbD i = true → i < 32 := BitVec.lt_of_getLsbD
    cases hv : v.toBitVec.getLsbD i <;> simp_all [Ne.symm hi]

/-! ### What is seen of it -/

variable {x : UInt32} {p : π} {b : Bool}

theorem abs_put [DecidableEq ρ] (r : ρ) (x : UInt32) :
    num.abs (c.put (num.reg r) x) =
      { num.abs c with reg := Function.update (num.abs c).reg r x } := by
  simp only [abs, Core.put, Cpu.mk.injEq, true_and, and_true]
  constructor
  · funext q
    exact congrFun (Function.update_comp_eq_of_injective c.reg num.reg_injective r x) q
  · funext p
    rw [Function.update_of_ne (num.reg_ne_r30 r).symm]

/-- A write to `r30` that leaves all bits but one as they were. -/
theorem abs_put_r30 [DecidableEq π]
    (hx : ∀ i, x.toBitVec.getLsbD i =
      if i = (num.pin p).toNat then b else (c.reg 30).toBitVec.getLsbD i) :
    num.abs (c.put 30 x) =
      { num.abs c with pin := Function.update (num.abs c).pin p b } := by
  simp only [abs, Core.put, Cpu.mk.injEq, true_and, and_true]
  constructor
  · funext q
    rw [Function.update_of_ne (num.reg_ne_r30 q)]
  · funext q
    rw [Function.update_self, hx]
    by_cases hq : q = p
    · rw [hq, if_pos rfl, Function.update_self]
    · have hne : (num.pin q).toNat ≠ (num.pin p).toNat := by
        intro h
        exact hq (num.pin_injective (BitVec.toNat_inj.mp h))
      rw [if_neg hne, Function.update_of_ne hq]

theorem pc_next (h : c.pc.toNat < 2048) : (c.pc + 1).toNat = c.pc.toNat + 1 := by
  rw [BitVec.toNat_add]
  simp
  omega

/-- **One instruction on the core** is one symbolic instruction. -/
theorem abs_exec [DecidableEq ρ] [DecidableEq π] {i : Instr ρ π} {code : Code}
    (hcode : num.code c.pc.toNat i = some code) (hpc : c.pc.toNat < 2048)
    (ram : UInt32 → UInt32) : (num.exec ram c i).map num.abs = i.exec ram (num.abs c) := by
  have hnext : num.abs c.next = { num.abs c with pc := (num.abs c).pc + 1 } := by
    simp only [abs, Core.next, pc_next hpc]
  have hreg : c.next.reg 30 = c.reg 30 := rfl
  cases i with
  | mov r value => rw [exec, Option.map_some, abs_put, hnext, Instr.exec]
  | lbbo r base offset =>
    rw [exec, Option.map_some, abs_put, hnext]
    rfl
  | sub r source value =>
    rw [exec, Option.map_some, abs_put, hnext]
    rfl
  | qbne target r value =>
    have htarget : target < 65536 := by
      rw [Numbering.code] at hcode
      split at hcode
      · rename_i hrange
        exact hrange.2.1
      · cases hcode
    rw [exec, Option.map_some, Instr.exec]
    congr 1
    by_cases htaken : c.reg (num.reg r) = value
    · simp only [abs, htaken, if_true, pc_next hpc]
    · simp only [abs, htaken, if_false, BitVec.toNat_ofNat, Nat.mod_eq_of_lt htarget]
  | set pin =>
    have hbit := getLsbD_set (c.next.reg 30) (num.pin pin)
    rw [exec, Option.map_some, ← hreg, abs_put_r30 hbit, hnext]
    rfl
  | clr pin =>
    have hbit := getLsbD_clr (c.next.reg 30) (num.pin pin)
    rw [exec, Option.map_some, ← hreg, abs_put_r30 hbit, hnext]
    rfl
  | event vector =>
    rw [exec, Option.map_some, Instr.exec]
    simp only [abs, Core.next, pc_next hpc]
  | halt => rfl

/-- **The assembler is right**: what it makes of a program does on the core, step for
    step and to its end, what the program does. -/
theorem mirrors [DecidableEq ρ] [DecidableEq π] {program : List (Instr ρ π)}
    {image : List (BitVec 8)} (h : num.assemble program = some image) :
    (codeMachine image).Mirrors (machine program) num.abs := by
  intro c ram
  have hfetch := fetch_assemble h c.pc.toNat
  have hpc : (num.abs c).pc = c.pc.toNat := rfl
  cases hi : program[c.pc.toNat]? with
  | none =>
    rw [hi] at hfetch
    simp only [codeMachine, machine, hpc, hi, hfetch, Option.bind_none, Option.map_none]
  | some i =>
    rw [hi] at hfetch
    obtain ⟨hlt, code, hcode, hfetch⟩ := hfetch
    simp only [codeMachine, machine, hpc, hi, hfetch, Option.bind_some, exec_code hcode]
    exact abs_exec hcode hlt ram

/-! ### What is left alone -/

variable (num) in
/-- No register and no bit of `r30` is touched that the numbering does not name. -/
structure Kept (c d : Core) : Prop where
  reg : ∀ k, k ≠ 30 → (∀ r, num.reg r ≠ k) → d.reg k = c.reg k
  bit : ∀ i, (∀ p, (num.pin p).toNat ≠ i) →
    (d.reg 30).toBitVec.getLsbD i = (c.reg 30).toBitVec.getLsbD i

theorem Kept.refl (c : Core) : num.Kept c c := ⟨fun _ _ _ => rfl, fun _ _ => rfl⟩

theorem Kept.trans {e : Core} (h : num.Kept c d) (h' : num.Kept d e) : num.Kept c e where
  reg k hk hnot := (h'.reg k hk hnot).trans (h.reg k hk hnot)
  bit i hnot := (h'.bit i hnot).trans (h.bit i hnot)

theorem kept_of_reg (h : d.reg = c.reg) : num.Kept c d := by
  constructor <;> simp [h]

theorem kept_put (r : ρ) (x : UInt32) : num.Kept c (c.next.put (num.reg r) x) where
  reg k _ hnot := Core.reg_put_of_ne (hnot r).symm
  bit i _ := by
    rw [Core.reg_put_of_ne (num.reg_ne_r30 r).symm]
    rfl

theorem kept_put_r30
    (hx : ∀ i, x.toBitVec.getLsbD i =
      if i = (num.pin p).toNat then b else (c.reg 30).toBitVec.getLsbD i) :
    num.Kept c (c.next.put 30 x) where
  reg k hk _ := Core.reg_put_of_ne hk
  bit i hnot := by
    rw [Core.reg_put_self, hx, if_neg (hnot p).symm]

theorem kept_exec {i : Instr ρ π} {ram : UInt32 → UInt32} (h : num.exec ram c i = some d) :
    num.Kept c d := by
  cases i with
  | halt => cases h
  | set pin =>
    obtain rfl := Option.some.inj h
    exact kept_put_r30 (getLsbD_set (c.reg 30) (num.pin pin))
  | clr pin =>
    obtain rfl := Option.some.inj h
    exact kept_put_r30 (getLsbD_clr (c.reg 30) (num.pin pin))
  | mov r _ | lbbo r _ _ | sub r _ _ =>
    obtain rfl := Option.some.inj h
    exact kept_put r _
  | qbne _ _ _ | event _ =>
    obtain rfl := Option.some.inj h
    exact kept_of_reg rfl

/-- **An assembled program leaves the rest of the core alone**, however long it runs. -/
theorem kept_of_reaches {program : List (Instr ρ π)} {image : List (BitVec 8)}
    (himage : num.assemble program = some image) (h : (codeMachine image).Reaches c d) :
    num.Kept c d := by
  refine Machine.Reaches.invariant ?_ (Kept.refl c) h
  intro d ram e hd hstep
  obtain ⟨code, hcode, hexec⟩ := Option.bind_eq_some_iff.mp hstep
  have hfetch := fetch_assemble himage d.pc.toNat
  cases hi : program[d.pc.toNat]? with
  | none =>
    rw [hi] at hfetch
    cases hcode.symm.trans hfetch
  | some i =>
    rw [hi] at hfetch
    obtain ⟨-, code', hcode', hfetch⟩ := hfetch
    obtain rfl := Option.some.inj (hcode.symm.trans hfetch)
    rw [exec_code hcode'] at hexec
    exact hd.trans (kept_exec hexec)

end Exec

end Numbering

end Pru
