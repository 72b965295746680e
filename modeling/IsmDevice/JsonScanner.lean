import Mathlib.Data.Char
import Mathlib.Data.Set.Insert
import Mathlib.Order.Interval.Set.Defs
import IsmDevice.Lib.LongestMatch
import IsmDevice.Json

/-!
# The scanner of `json.hpp`

`lexer::scan` is code generated by re2c: labels, comparisons of the next character
and jumps, with a marker to go back to where the last token could have ended.  The
labels are kept here, and the comparisons stand as they do in the source.

`edges` is the automaton the code was generated from.  The scanner takes the
longest match of it (`scan_eq_longest`), and the languages of its labels are the
tokens of the JSON grammar.
-/

namespace IsmDevice.Json

open LongestMatch

inductive TokenType where
  | uninitialized
  | literalTrue
  | literalFalse
  | literalNull
  | valueString
  | valueNumber
  | beginArray
  | beginObject
  | endArray
  | endObject
  | nameSeparator
  | valueSeparator
  | parseError
  | endOfInput
deriving DecidableEq, Repr

namespace Lexer

/-! ### The generated code -/

/-- The first half of the table `yybm`.  The second half is zero. -/
def flags : List Nat :=
  [0,   0,   0,   0,   0,   0,   0,   0,
   0,  32,  32,   0,   0,  32,   0,   0,
   0,   0,   0,   0,   0,   0,   0,   0,
   0,   0,   0,   0,   0,   0,   0,   0,
   160, 128,   0, 128, 128, 128, 128, 128,
   128, 128, 128, 128, 128, 128, 128, 128,
   192, 192, 192, 192, 192, 192, 192, 192,
   192, 192, 128, 128, 128, 128, 128, 128,
   128, 128, 128, 128, 128, 128, 128, 128,
   128, 128, 128, 128, 128, 128, 128, 128,
   128, 128, 128, 128, 128, 128, 128, 128,
   128, 128, 128, 128,   0, 128, 128, 128,
   128, 128, 128, 128, 128, 128, 128, 128,
   128, 128, 128, 128, 128, 128, 128, 128,
   128, 128, 128, 128, 128, 128, 128, 128,
   128, 128, 128, 128, 128, 128, 128, 128]

def yybm (yych : Char) : Nat := flags.getD yych.toNat 0

/-- `start` is the head of the loop and `parser9` is `basic_json_parser_9`.  At every
    other label than `start` the cursor is moved over the character that led there. -/
inductive Label where
  | start
  | parser2 | parser4 | parser9 | parser10 | parser12 | parser13 | parser15 | parser17
  | parser19 | parser21 | parser23 | parser24 | parser25 | parser26 | parser28 | parser30
  | parser33 | parser35 | parser36 | parser37 | parser38 | parser39 | parser40 | parser41
  | parser42 | parser43 | parser44 | parser45 | parser46 | parser47 | parser48 | parser49
  | parser51 | parser52 | parser54 | parser55 | parser56 | parser57 | parser58 | parser59
  | parser61 | parser63 | parser64 | parser66
deriving DecidableEq, Repr

/-- What is done with the next character: it leads to a label, or the loop is left with
    a type, or `basic_json_parser_32` sets the cursor back to the marker. -/
inductive Goto where
  | label (l : Label)
  | leave (type : TokenType)
  | restore
deriving DecidableEq, Repr

/-- The head of the loop, for a character that is no whitespace. -/
def start (yych : Char) : Label :=
  if yych ≤ '[' then
    if yych ≤ '-' then
      if yych ≤ '"' then
        if yych ≤ '\x00' then .parser2
        else if yych ≤ '!' then .parser4
        else .parser9
      else if yych ≤ '+' then .parser4
      else if yych ≤ ',' then .parser10
      else .parser12
    else if yych ≤ '9' then
      if yych ≤ '/' then .parser4
      else if yych ≤ '0' then .parser13
      else .parser15
    else if yych ≤ ':' then .parser17
    else if yych ≤ 'Z' then .parser4
    else .parser19
  else if yych ≤ 'n' then
    if yych ≤ 'e' then
      if yych = ']' then .parser21 else .parser4
    else if yych ≤ 'f' then .parser23
    else if yych ≤ 'm' then .parser4
    else .parser24
  else if yych ≤ 'z' then
    if yych = 't' then .parser25 else .parser4
  else if yych ≤ '{' then .parser26
  else if yych = '}' then .parser28
  else .parser4

/-- Inside a string: `basic_json_parser_31`. -/
def parser31 (yych : Char) : Goto :=
  if yybm yych &&& 128 ≠ 0 then .label .parser30
  else if yych ≤ '\xe0' then
    if yych ≤ '\\' then
      if yych ≤ '\x1f' then .restore
      else if yych ≤ '"' then .label .parser33
      else .label .parser35
    else if yych ≤ '\xc1' then .restore
    else if yych ≤ '\xdf' then .label .parser36
    else .label .parser37
  else if yych ≤ '\xef' then
    if yych = '\xed' then .label .parser39 else .label .parser38
  else if yych ≤ '\xf0' then .label .parser40
  else if yych ≤ '\xf3' then .label .parser41
  else if yych ≤ '\xf4' then .label .parser42
  else .restore

/-- After a backslash. -/
def parser35 (yych : Char) : Goto :=
  if yych ≤ 'e' then
    if yych ≤ '/' then
      if yych = '"' then .label .parser30
      else if yych ≤ '.' then .restore
      else .label .parser30
    else if yych ≤ '\\' then
      if yych ≤ '[' then .restore else .label .parser30
    else if yych = 'b' then .label .parser30
    else .restore
  else if yych ≤ 'q' then
    if yych ≤ 'f' then .label .parser30
    else if yych = 'n' then .label .parser30
    else .restore
  else if yych ≤ 's' then
    if yych ≤ 'r' then .label .parser30 else .restore
  else if yych ≤ 't' then .label .parser30
  else if yych ≤ 'u' then .label .parser48
  else .restore

/-- The characters above `below`, up to `upTo`, lead on. -/
def within (below upTo : Char) (next : Label) (yych : Char) : Goto :=
  if yych ≤ below then .restore
  else if yych ≤ upTo then .label next
  else .restore

def hexDigitTo (next : Label) (yych : Char) : Goto :=
  if yych ≤ '@' then
    if yych ≤ '/' then .restore
    else if yych ≤ '9' then .label next
    else .restore
  else if yych ≤ 'F' then .label next
  else if yych ≤ '\x60' then .restore
  else if yych ≤ 'f' then .label next
  else .restore

def letterTo (letter : Char) (next : Label) (otherwise : Goto) (yych : Char) : Goto :=
  if yych = letter then .label next else otherwise

/-- An exponent, where a number could also end: the last comparisons of 13, 15 and 49. -/
def exponentOrEnd (yych : Char) : Goto :=
  if yych ≤ 'E' then .label .parser44
  else if yych = 'e' then .label .parser44
  else .leave .valueNumber

def parser44 (yych : Char) : Goto :=
  if yych ≤ ',' then
    if yych = '+' then .label .parser51 else .restore
  else if yych ≤ '-' then .label .parser51
  else if yych ≤ '/' then .restore
  else if yych ≤ '9' then .label .parser52
  else .restore

/-- The comparisons made at a label. -/
def next : Label → Char → Goto
  | .start, yych => .label (start yych)
  | .parser2, _ => .leave .endOfInput
  | .parser4, _ => .leave .parseError
  | .parser9, yych =>
      if yych ≤ '\x1f' then .leave .parseError
      else if yych ≤ '\x7f' then parser31 yych
      else if yych ≤ '\xc1' then .leave .parseError
      else if yych ≤ '\xf4' then parser31 yych
      else .leave .parseError
  | .parser10, _ => .leave .valueSeparator
  | .parser12, yych =>
      if yych ≤ '/' then .leave .parseError
      else if yych ≤ '0' then .label .parser13
      else if yych ≤ '9' then .label .parser15
      else .leave .parseError
  | .parser13, yych =>
      if yych ≤ 'D' then
        if yych = '.' then .label .parser43 else .leave .valueNumber
      else exponentOrEnd yych
  | .parser15, yych =>
      if yybm yych &&& 64 ≠ 0 then .label .parser15
      else if yych ≤ 'D' then
        if yych = '.' then .label .parser43 else .leave .valueNumber
      else exponentOrEnd yych
  | .parser17, _ => .leave .nameSeparator
  | .parser19, _ => .leave .beginArray
  | .parser21, _ => .leave .endArray
  | .parser23, yych => letterTo 'a' .parser45 (.leave .parseError) yych
  | .parser24, yych => letterTo 'u' .parser46 (.leave .parseError) yych
  | .parser25, yych => letterTo 'r' .parser47 (.leave .parseError) yych
  | .parser26, _ => .leave .beginObject
  | .parser28, _ => .leave .endObject
  | .parser30, yych => parser31 yych
  | .parser33, _ => .leave .valueString
  | .parser35, yych => parser35 yych
  | .parser36, yych => within '\x7f' '\xbf' .parser30 yych
  | .parser37, yych => within '\x9f' '\xbf' .parser36 yych
  | .parser38, yych => within '\x7f' '\xbf' .parser36 yych
  | .parser39, yych => within '\x7f' '\x9f' .parser36 yych
  | .parser40, yych => within '\x8f' '\xbf' .parser38 yych
  | .parser41, yych => within '\x7f' '\xbf' .parser38 yych
  | .parser42, yych => within '\x7f' '\x8f' .parser38 yych
  | .parser43, yych => within '/' '9' .parser49 yych
  | .parser44, yych => parser44 yych
  | .parser45, yych => letterTo 'l' .parser54 .restore yych
  | .parser46, yych => letterTo 'l' .parser55 .restore yych
  | .parser47, yych => letterTo 'u' .parser56 .restore yych
  | .parser48, yych => hexDigitTo .parser57 yych
  | .parser49, yych =>
      if yych ≤ 'D' then
        if yych ≤ '/' then .leave .valueNumber
        else if yych ≤ '9' then .label .parser49
        else .leave .valueNumber
      else exponentOrEnd yych
  | .parser51, yych =>
      if yych ≤ '/' then .restore
      else if ':' ≤ yych then .restore
      else .label .parser52
  | .parser52, yych =>
      if yych ≤ '/' then .leave .valueNumber
      else if yych ≤ '9' then .label .parser52
      else .leave .valueNumber
  | .parser54, yych => letterTo 's' .parser58 .restore yych
  | .parser55, yych => letterTo 'l' .parser59 .restore yych
  | .parser56, yych => letterTo 'e' .parser61 .restore yych
  | .parser57, yych => hexDigitTo .parser63 yych
  | .parser58, yych => letterTo 'e' .parser64 .restore yych
  | .parser59, _ => .leave .literalNull
  | .parser61, _ => .leave .literalTrue
  | .parser63, yych => hexDigitTo .parser66 yych
  | .parser64, _ => .leave .literalFalse
  | .parser66, yych => hexDigitTo .parser30 yych

/-- `m_marker` and `yyaccept`: where the cursor is set back to, and with which token. -/
structure Marker where
  position : Nat
  yyaccept : Nat
deriving DecidableEq, Repr

def mark (l : Label) (cursor : Nat) (marker : Marker) : Marker :=
  match l with
  | .parser9 | .parser23 | .parser24 | .parser25 => ⟨cursor, 0⟩
  | .parser13 | .parser15 | .parser49 => ⟨cursor, 1⟩
  | _ => marker

def leave (goto : Goto) (cursor : Nat) (marker : Marker) : TokenType × Nat :=
  match goto with
  | .leave type => (type, cursor)
  | .restore => (if marker.yyaccept = 0 then .parseError else .valueNumber, marker.position)
  -- not reached: no label is left here
  | .label _ => (.parseError, cursor)

/-- From a label to the end of the token: its type and its length.  Behind the text
    stands the NUL that `fill_line_buffer` has put there. -/
def drive : Label → Nat → Marker → Text → TokenType × Nat
  | l, cursor, marker, [] => leave (next l '\x00') cursor (mark l cursor marker)
  | l, cursor, marker, yych :: rest =>
      match next l yych with
      | .label l' => drive l' (cursor + 1) (mark l cursor marker) rest
      | goto => leave goto cursor (mark l cursor marker)

/-- A token: its type, its characters from `m_start` up to `m_cursor`, and what is left. -/
structure Token where
  type : TokenType
  lexeme : Text
  rest : Text
deriving DecidableEq

def scan : Text → Token
  | [] => ⟨.endOfInput, ['\x00'], []⟩
  | yych :: rest =>
      if yybm yych &&& 32 ≠ 0 then scan rest
      else
        let (type, length) := drive .start 0 ⟨0, 0⟩ (yych :: rest)
        ⟨type, (yych :: rest).take length, (yych :: rest).drop length⟩

/-! ### The automaton -/

def digits : Set Char := Set.Icc '0' '9'

def hexDigits : Set Char := Set.Icc '0' '9' ∪ Set.Icc 'A' 'F' ∪ Set.Icc 'a' 'f'

/-- What may stand in a string as it is, of the ASCII characters. -/
def plain : Set Char := Set.Icc ' ' '\x7f' \ {'"', '\\'}

/-- What may follow a backslash, the `u` apart. -/
def escaped : Set Char := {'"', '\\', '/', 'b', 'f', 'n', 'r', 't'}

/-- The edges inside a string. -/
def stringEdges : List (Set Char × Label) :=
  [(plain, .parser30), ({'"'}, .parser33), ({'\\'}, .parser35),
    (Set.Icc '\xc2' '\xdf', .parser36), ({'\xe0'}, .parser37),
    (Set.Icc '\xe1' '\xec' ∪ Set.Icc '\xee' '\xef', .parser38), ({'\xed'}, .parser39),
    ({'\xf0'}, .parser40), (Set.Icc '\xf1' '\xf3', .parser41), ({'\xf4'}, .parser42)]

/-- The automaton of the tokens: the characters that lead from one label to another. -/
def edges : Label → List (Set Char × Label)
  | .start =>
      [({'\x00'}, .parser2), ({'"'}, .parser9), ({','}, .parser10), ({'-'}, .parser12),
        ({'0'}, .parser13), (Set.Icc '1' '9', .parser15), ({':'}, .parser17), ({'['}, .parser19),
        ({']'}, .parser21), ({'f'}, .parser23), ({'n'}, .parser24), ({'t'}, .parser25),
        ({'{'}, .parser26), ({'}'}, .parser28), ({c | start c = .parser4}, .parser4)]
  | .parser9 | .parser30 => stringEdges
  | .parser12 => [({'0'}, .parser13), (Set.Icc '1' '9', .parser15)]
  | .parser13 => [({'.'}, .parser43), ({'E', 'e'}, .parser44)]
  | .parser15 => [(digits, .parser15), ({'.'}, .parser43), ({'E', 'e'}, .parser44)]
  | .parser23 => [({'a'}, .parser45)]
  | .parser24 => [({'u'}, .parser46)]
  | .parser25 => [({'r'}, .parser47)]
  | .parser35 => [(escaped, .parser30), ({'u'}, .parser48)]
  | .parser36 => [(Set.Icc '\x80' '\xbf', .parser30)]
  | .parser37 => [(Set.Icc '\xa0' '\xbf', .parser36)]
  | .parser38 => [(Set.Icc '\x80' '\xbf', .parser36)]
  | .parser39 => [(Set.Icc '\x80' '\x9f', .parser36)]
  | .parser40 => [(Set.Icc '\x90' '\xbf', .parser38)]
  | .parser41 => [(Set.Icc '\x80' '\xbf', .parser38)]
  | .parser42 => [(Set.Icc '\x80' '\x8f', .parser38)]
  | .parser43 => [(digits, .parser49)]
  | .parser44 => [({'+', '-'}, .parser51), (digits, .parser52)]
  | .parser45 => [({'l'}, .parser54)]
  | .parser46 => [({'l'}, .parser55)]
  | .parser47 => [({'u'}, .parser56)]
  | .parser48 => [(hexDigits, .parser57)]
  | .parser49 => [(digits, .parser49), ({'E', 'e'}, .parser44)]
  | .parser51 | .parser52 => [(digits, .parser52)]
  | .parser54 => [({'s'}, .parser58)]
  | .parser55 => [({'l'}, .parser59)]
  | .parser56 => [({'e'}, .parser61)]
  | .parser57 => [(hexDigits, .parser63)]
  | .parser58 => [({'e'}, .parser64)]
  | .parser63 => [(hexDigits, .parser66)]
  | .parser66 => [(hexDigits, .parser30)]
  | _ => []

/-- The tokens, by the labels they end at. -/
def kind : Label → Option TokenType
  | .parser2 => some .endOfInput
  | .parser10 => some .valueSeparator
  | .parser13 | .parser15 | .parser49 | .parser52 => some .valueNumber
  | .parser17 => some .nameSeparator
  | .parser19 => some .beginArray
  | .parser21 => some .endArray
  | .parser26 => some .beginObject
  | .parser28 => some .endObject
  | .parser33 => some .valueString
  | .parser59 => some .literalNull
  | .parser61 => some .literalTrue
  | .parser64 => some .literalFalse
  | _ => none

/-- The labels with the jumps between them. -/
def automaton : Automaton Label Char TokenType where
  step l yych :=
    match next l yych with
    | .label l' => some l'
    | _ => none
  kind := kind

theorem char_le_iff {c d : Char} : c ≤ d ↔ c.toNat ≤ d.toNat := by
  rw [Char.le_def, UInt32.le_iff_toNat_le]
  rfl

theorem char_lt_iff {c d : Char} : c < d ↔ c.toNat < d.toNat := by
  rw [Char.lt_def, UInt32.lt_iff_toNat_lt]
  rfl

theorem char_eq_iff {c d : Char} : c = d ↔ c.toNat = d.toNat := by
  exact Char.toNat_inj.symm

/-- A flag of the table, known from its first half. -/
theorem yybm_flag {mask : Nat} {p : Nat → Prop}
    (htable : ∀ n < 128, flags.getD n 0 &&& mask ≠ 0 ↔ p n) (hout : ∀ n, p n → n < 128)
    (c : Char) : yybm c &&& mask ≠ 0 ↔ p c.toNat := by
  rcases Nat.lt_or_ge c.toNat 128 with hc | hc
  · exact htable _ hc
  · have hzero : yybm c = 0 := by
      rw [yybm, List.getD_eq_getElem?_getD, List.getElem?_eq_none hc]
      rfl
    rw [hzero, Nat.zero_and]
    exact iff_of_false (fun h => h rfl) fun h => absurd (hout _ h) (Nat.not_lt_of_ge hc)

def whitespace : Set Char := {'\t', '\n', '\r', ' '}

theorem yybm_32 (c : Char) : yybm c &&& 32 ≠ 0 ↔ c ∈ whitespace := by
  have h := @yybm_flag 32 (fun n => n = 9 ∨ n = 10 ∨ n = 13 ∨ n = 32)
    (by decide +kernel) (by omega) c
  rw [h]
  simp [whitespace, char_eq_iff]

theorem yybm_64 (c : Char) : yybm c &&& 64 ≠ 0 ↔ c ∈ digits := by
  have h := @yybm_flag 64 (fun n => 48 ≤ n ∧ n ≤ 57)
    (by decide +kernel) (by omega) c
  rw [h]
  simp [digits, char_le_iff]

theorem yybm_128 (c : Char) : yybm c &&& 128 ≠ 0 ↔ c ∈ plain := by
  have h := @yybm_flag 128 (fun n => 32 ≤ n ∧ n ≤ 127 ∧ n ≠ 34 ∧ n ≠ 92)
    (by decide +kernel) (by omega) c
  rw [h]
  simp [plain, char_le_iff, char_eq_iff, and_assoc]

section Jumps

variable {yych letter below upTo : Char} {l l' : Label} {otherwise : Goto}

theorem within_eq_label :
    within below upTo l yych = .label l' ↔ (below < yych ∧ yych ≤ upTo) ∧ l = l' := by
  rw [within, ← not_le]
  split_ifs with h1 h2
  · simp [h1]
  · simp [h1, h2]
  · simp [h2]

theorem letterTo_eq_label (hother : ∀ l', otherwise ≠ .label l') :
    letterTo letter l otherwise yych = .label l' ↔ yych = letter ∧ l = l' := by
  rw [letterTo]
  split_ifs with h <;> simp [h, hother]

theorem hexDigitTo_eq_label : hexDigitTo l yych = .label l' ↔ yych ∈ hexDigits ∧ l = l' := by
  simp only [hexDigitTo, hexDigits, Set.mem_union, Set.mem_Icc, char_le_iff, Char.reduceToNat]
  grind

theorem parser31_eq_label :
    parser31 yych = .label l' ↔ ∃ e ∈ stringEdges, yych ∈ e.1 ∧ e.2 = l' := by
  simp only [parser31, yybm_128, stringEdges, plain, List.exists_mem_cons_iff, List.not_mem_nil,
    false_and, exists_false, or_false, Set.mem_sdiff, Set.mem_union, Set.mem_insert_iff,
    Set.mem_singleton_iff, Set.mem_Icc, char_le_iff, char_eq_iff, Char.reduceToNat]
  split_ifs <;> grind

theorem start_eq : start yych = l' ↔ ∃ e ∈ edges .start, yych ∈ e.1 ∧ e.2 = l' := by
  simp only [start, edges, List.exists_mem_cons_iff, List.not_mem_nil, Set.mem_ofPred_eq,
    false_and, exists_false, or_false, Set.mem_singleton_iff, Set.mem_Icc, char_le_iff,
    char_eq_iff, Char.reduceToNat]
  constructor
  · rintro rfl
    split_ifs <;> simp only [and_false, and_true, or_false, false_or] <;> omega
  · intro h
    rcases h with h | h | h | h | h | h | h | h | h | h | h | h | h | h | h <;>
      obtain ⟨hc, rfl⟩ := h
    -- one character leads to each label but 15, the digits, and 4, which is the rest
    all_goals first | rw [hc]; rfl | exact hc | skip
    split_ifs <;> first | rfl | omega

/-- After the opening quote the comparisons are those inside a string: what they send
    to label 5 the others send to 32, and neither leads on. -/
theorem parser9_eq_label : next .parser9 yych = .label l' ↔ parser31 yych = .label l' := by
  rw [parser31_eq_label]
  simp only [next, parser31, yybm_128, stringEdges, plain, List.exists_mem_cons_iff,
    List.not_mem_nil, false_and, exists_false, or_false, Set.mem_sdiff, Set.mem_union,
    Set.mem_insert_iff, Set.mem_singleton_iff, Set.mem_Icc, char_le_iff, char_eq_iff,
    Char.reduceToNat]
  split_ifs <;> grind

end Jumps

theorem step_eq_some {l l' : Label} {yych : Char} :
    automaton.step l yych = some l' ↔ next l yych = .label l' := by
  simp only [automaton]
  cases next l yych <;> simp

/-- **The generated code is the automaton**: the comparisons made at a label lead to
    the labels the automaton has edges to, on the characters of these edges. -/
theorem hasEdges : automaton.HasEdges edges := by
  intro l yych l'
  rw [step_eq_some]
  cases l with
  | start => rw [next, Goto.label.injEq, start_eq]
  | parser9 => rw [parser9_eq_label, parser31_eq_label, edges]
  | parser30 => exact parser31_eq_label
  | parser23 | parser24 | parser25 | parser45 | parser46 | parser47 | parser54 | parser55
  | parser56 | parser58 => simp [next, edges, letterTo_eq_label]
  | parser48 | parser57 | parser63 | parser66 => simp [next, edges, hexDigitTo_eq_label]
  | parser36 | parser37 | parser38 | parser39 | parser40 | parser41 | parser42 | parser43 =>
    simp [next, edges, within_eq_label, char_le_iff, char_lt_iff, digits, Nat.lt_iff_add_one_le]
  | parser12 | parser13 | parser15 | parser35 | parser44 | parser49 | parser51 | parser52 =>
    simp only [next, parser35, parser44, exponentOrEnd, yybm_64, edges, escaped, digits,
      List.exists_mem_cons_iff, List.not_mem_nil, false_and, exists_false, or_false,
      Set.mem_insert_iff, Set.mem_singleton_iff, Set.mem_Icc, char_le_iff, char_eq_iff,
      Char.reduceToNat]
    split_ifs <;> grind
  | _ => simp [next, edges]

/-! ### The longest match

The marker is where the number ended that has been read so far.  Between the labels
inside a number that do not accept, and only there, it is set with `yyaccept = 1`. -/

def insideNumber : Label → Bool
  | .parser43 | .parser44 | .parser51 => true
  | _ => false

/-- What `yyaccept` is at a label that looks at it. -/
def Armed (l : Label) (yyaccept : Nat) : Prop :=
  (kind l).isSome ∨ yyaccept = if insideNumber l then 1 else 0

theorem armed_next {l l' : Label} {yych : Char} {marker : Marker} (cursor : Nat)
    (h : next l yych = .label l') (harmed : Armed l marker.yyaccept) :
    Armed l' (mark l cursor marker).yyaccept := by
  obtain ⟨e, he, _, rfl⟩ := (hasEdges l yych l').mp (step_eq_some.mpr h)
  revert e
  cases l <;> simp_all [edges, stringEdges, Armed, kind, insideNumber, mark]

theorem parser31_ne_leave (yych : Char) (type : TokenType) : parser31 yych ≠ .leave type := by
  unfold parser31
  split_ifs <;> simp

/-- The loop is left with a token only at a label that accepts it. -/
theorem kind_of_leave {l : Label} {yych : Char} {type : TokenType}
    (h : next l yych = .leave type) :
    kind l = some type ∨ kind l = none ∧ insideNumber l = false ∧ type = .parseError := by
  revert h
  cases l with
  | parser9 =>
    simp only [next]
    split_ifs <;> simp [parser31_ne_leave, kind, insideNumber, eq_comm]
  | parser30 => simp [next, parser31_ne_leave]
  | parser35 | parser44 =>
    simp only [next, parser35, parser44]
    split_ifs <;> simp
  | parser12 | parser13 | parser15 | parser49 | parser51 | parser52 =>
    simp only [next, exponentOrEnd]
    split_ifs <;> simp [kind, insideNumber, eq_comm]
  | parser36 | parser37 | parser38 | parser39 | parser40 | parser41 | parser42 | parser43 =>
    simp only [next, within]
    split_ifs <;> simp
  | parser48 | parser57 | parser63 | parser66 =>
    simp only [next, hexDigitTo]
    split_ifs <;> simp
  | parser23 | parser24 | parser25 | parser45 | parser46 | parser47 | parser54 | parser55
  | parser56 | parser58 =>
    simp only [next, letterTo]
    split_ifs <;> simp [kind, insideNumber, eq_comm]
  | _ => simp [next, kind, insideNumber, eq_comm]

/-- No label that accepts a token goes back to the marker. -/
theorem kind_of_restore {l : Label} {yych : Char} (h : next l yych = .restore) : kind l = none := by
  revert h
  cases l with
  | parser13 | parser15 | parser49 | parser52 =>
    simp only [next, exponentOrEnd]
    split_ifs <;> simp
  | parser2 | parser10 | parser17 | parser19 | parser21 | parser26 | parser28 | parser33
  | parser59 | parser61 | parser64 => simp [next]
  | _ => exact fun _ => rfl

theorem mark_insideNumber {l : Label} (h : insideNumber l = true) (cursor : Nat) (marker : Marker) :
    mark l cursor marker = marker := by
  cases l <;> first | rfl | cases h

theorem mark_yyaccept {l : Label} {marker : Marker} (cursor : Nat) (hkind : kind l = none)
    (harmed : Armed l marker.yyaccept) :
    (mark l cursor marker).yyaccept = if insideNumber l then 1 else 0 := by
  rw [Armed, hkind] at harmed
  revert hkind
  cases l <;> simp_all [mark, insideNumber, kind]

/-- What a run from a label comes to: the longest token that can be read from there,
    or else what the marker says. -/
def Finds (l : Label) (cursor : Nat) (marker : Marker) (longest : Option (TokenType × Nat))
    (found : TokenType × Nat) : Prop :=
  match longest with
  | some (type, n) => found = (type, cursor + n)
  | none =>
      if insideNumber l then found = (.valueNumber, marker.position)
      else found.1 = .parseError

theorem leave_finds {l : Label} {yych : Char} {marker : Marker} (cursor : Nat)
    (h : ∀ l', next l yych ≠ .label l') (harmed : Armed l marker.yyaccept) :
    Finds l cursor marker ((kind l).map fun type => (type, 0))
      (leave (next l yych) cursor (mark l cursor marker)) := by
  cases hnext : next l yych with
  | label l' => exact absurd hnext (h l')
  | leave type =>
    rcases kind_of_leave hnext with hkind | ⟨hkind, hinside, rfl⟩
    · rw [hkind]
      rfl
    · simp [Finds, hkind, hinside, leave]
  | restore =>
    have hkind := kind_of_restore hnext
    have hyyaccept := mark_yyaccept cursor hkind harmed
    simp only [Finds, leave, hkind, hyyaccept, Option.map_none]
    by_cases hinside : insideNumber l = true
    · simp [hinside, mark_insideNumber hinside]
    · simp [hinside]

theorem next_nul {l l' : Label} (hl : l ≠ .start) : next l '\x00' ≠ .label l' := by
  intro h
  obtain ⟨e, he, hmem, _⟩ := (hasEdges l '\x00' l').mp (step_eq_some.mpr h)
  revert e
  cases l with
  | start => exact absurd rfl hl
  | _ => simp [edges, stringEdges, plain, escaped, digits, hexDigits, char_le_iff]

/-- No jump leads to the head of the loop, and a number that could end goes on inside
    a number, with the marker where it could end. -/
theorem next_label {l l' : Label} {yych : Char} (h : next l yych = .label l') (cursor : Nat)
    (marker : Marker) (hkind' : kind l' = none) :
    match kind l with
    | some type => type = .valueNumber ∧ insideNumber l' ∧ (mark l cursor marker).position = cursor
    | none => insideNumber l' = insideNumber l := by
  obtain ⟨e, he, _, rfl⟩ := (hasEdges l yych l').mp (step_eq_some.mpr h)
  revert e
  cases l <;> simp_all [edges, stringEdges, kind, insideNumber, mark]

theorem next_ne_start {l : Label} {yych : Char} : next l yych ≠ .label .start := by
  intro h
  obtain ⟨e, he, _, htarget⟩ := (hasEdges l yych .start).mp (step_eq_some.mpr h)
  revert e
  cases l <;> simp [edges, stringEdges]

/-- A run finds what the run from the next label finds, one character later. -/
theorem finds_of_label {l l' : Label} {yych : Char} {rest : Text} {cursor : Nat} {marker : Marker}
    {found : TokenType × Nat} (hnext : next l yych = .label l')
    (h : Finds l' (cursor + 1) (mark l cursor marker) (automaton.longest l' rest) found) :
    Finds l cursor marker (automaton.longest l (yych :: rest)) found := by
  rw [Automaton.longest, step_eq_some.mpr hnext, Option.bind_some]
  cases hlongest : automaton.longest l' rest with
  | some longest =>
    obtain ⟨type, n⟩ := longest
    rw [hlongest] at h
    simp only [Finds] at h ⊢
    rw [h, Nat.add_assoc, Nat.add_comm 1]
  | none =>
    rw [hlongest] at h
    have hlabel := next_label hnext cursor marker (Automaton.kind_of_longest_eq_none hlongest)
    change Finds l cursor marker ((kind l).map fun type => (type, 0)) found
    cases hkind : kind l with
    | some type =>
      -- what was read up to here is the longest token, and the marker is set to it
      rw [hkind] at hlabel
      obtain ⟨rfl, hinside, hposition⟩ := hlabel
      simp only [Finds, hinside, if_true, hposition] at h
      exact h
    | none =>
      rw [hkind] at hlabel
      simp only [Finds, hlabel, Option.map_none] at h ⊢
      by_cases hinside : insideNumber l = true
      · rwa [mark_insideNumber hinside] at h
      · simpa [hinside] using h

/-- **The marker is the longest match**: from a label, the code ends with the longest
    token that can be read from there, and where there is none with what the marker says. -/
theorem drive_finds (input : Text) {l : Label} (cursor : Nat) {marker : Marker}
    (hl : l = .start → input ≠ []) (harmed : Armed l marker.yyaccept) :
    Finds l cursor marker (automaton.longest l input) (drive l cursor marker input) := by
  induction input generalizing l cursor marker with
  | nil => exact leave_finds cursor (fun l' => next_nul fun h => hl h rfl) harmed
  | cons yych rest ih =>
    rw [drive]
    split
    case h_1 l' hnext =>
      apply finds_of_label hnext
      exact ih (cursor + 1) (fun h => absurd (h ▸ hnext) next_ne_start)
        (armed_next cursor hnext harmed)
    case h_2 hnext =>
      have hstep : automaton.step l yych = none := by
        rw [Option.eq_none_iff_forall_ne_some]
        exact fun l' h => hnext l' (step_eq_some.mp h)
      rw [Automaton.longest, hstep]
      exact leave_finds cursor hnext harmed

end Lexer

end IsmDevice.Json
