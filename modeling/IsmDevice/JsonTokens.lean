import Mathlib.Tactic.Abel
import IsmDevice.Lib.Utf8
import IsmDevice.JsonScanner

/-!
# The tokens of JSON

The lexical grammar as languages, in the words of the RFC the scanner is written
after: numbers, strings whose characters beyond ASCII are UTF-8, literals and
structural characters.  The languages of the scanner's labels come out as these
(`language_start`), so the scanner reads the longest token its text begins with.
-/

namespace IsmDevice.Json

open LongestMatch Computability

/-- The bytes of a text. -/
def codes (text : Text) : List Nat := text.map Char.toNat

namespace Grammar

/-! ### The lexical grammar -/

def digit : Language Char := oneOf Lexer.digits

def integer : Language Char := oneOf {'0'} + oneOf (Set.Icc '1' '9') * digit∗

def fraction : Language Char := oneOf {'.'} * (digit * digit∗)

def exponent : Language Char := oneOf {'E', 'e'} * ((1 + oneOf {'+', '-'}) * (digit * digit∗))

def number : Language Char :=
  (1 + oneOf {'-'}) * (integer * ((1 + fraction) * (1 + exponent)))

/-- One scalar value beyond ASCII, as UTF-8. -/
def utf8 : Language Char :=
  {text | ∃ c : Char, 0x80 ≤ c.toNat ∧ codes text = Utf8.encode c}

def hex : Language Char := oneOf Lexer.hexDigits

def escape : Language Char :=
  oneOf {'\\'} *
    (oneOf Lexer.escaped + oneOf {'u'} * (hex * (hex * (hex * hex))))

def character : Language Char := oneOf Lexer.plain + utf8 + escape

def string : Language Char := oneOf {'"'} * (character∗ * oneOf {'"'})

/-- A given word. -/
def word : Text → Language Char
  | [] => 1
  | c :: rest => oneOf {c} * word rest

def lexeme : TokenType → Language Char
  | .uninitialized => 0
  | .literalTrue => word ['t', 'r', 'u', 'e']
  | .literalFalse => word ['f', 'a', 'l', 's', 'e']
  | .literalNull => word ['n', 'u', 'l', 'l']
  | .valueString => string
  | .valueNumber => number
  | .beginArray => word ['[']
  | .beginObject => word ['{']
  | .endArray => word [']']
  | .endObject => word ['}']
  | .nameSeparator => word [':']
  | .valueSeparator => word [',']
  | .parseError => 0
  | .endOfInput => word ['\x00']

@[simp]
theorem mem_word {text w : Text} : text ∈ word w ↔ text = w := by
  induction w generalizing text with
  | nil => exact Language.mem_one text
  | cons c rest ih =>
    cases text with
    | nil => simp [word]
    | cons a text => simp [word, ih]

end Grammar

namespace Lexer

open Grammar

/-! ### The languages of the labels -/

section Languages

variable (type : TokenType)

/-- The language of a label. -/
abbrev reads (l : Label) : Language Char := automaton.language type l

/-- The empty word, for the token of the type that is asked for. -/
def done (t : TokenType) : Language Char := if t = type then 1 else 0

theorem reads_eq (l : Label) :
    reads type l =
      ((edges l).map fun e => oneOf e.1 * reads type e.2).sum + (kind l).elim 0 (done type) := by
  rw [reads, Automaton.language_eq_sum hasEdges]
  congr 1
  change (if kind l = some type then 1 else 0) = _
  cases kind l with
  | none => rfl
  | some t => simp only [Option.some.injEq, Option.elim_some, done]

/-! Numbers: two loops, and what leads into them. -/

theorem reads_parser52 : reads type .parser52 = digit∗ * done type .valueNumber := by
  apply kstar_of_loop
  refine (reads_eq type _).trans ?_
  simp only [edges, kind, List.map_cons, List.map_nil, List.sum_cons, List.sum_nil, add_zero,
    Option.elim_some]

theorem exponent_mul :
    oneOf {'E', 'e'} * reads type .parser44 = exponent * done type .valueNumber := by
  have hdigits : reads type .parser51 = digit * digit∗ * done type .valueNumber := by
    rw [reads_eq]
    simp only [edges, kind, List.map_cons, List.map_nil, List.sum_cons, List.sum_nil, add_zero,
      Option.elim_none, reads_parser52, digit, mul_assoc]
  rw [reads_eq]
  simp only [edges, kind, List.map_cons, List.map_nil, List.sum_cons, List.sum_nil, add_zero,
    Option.elim_none, hdigits, reads_parser52]
  simp only [exponent, digit, add_mul, one_mul, mul_assoc, add_comm]

theorem fraction_mul :
    oneOf {'.'} * reads type .parser43 =
      fraction * ((1 + exponent) * done type .valueNumber) := by
  have hloop : reads type .parser49 = digit∗ * ((1 + exponent) * done type .valueNumber) := by
    apply kstar_of_loop
    refine (reads_eq type _).trans ?_
    simp only [edges, kind, List.map_cons, List.map_nil, List.sum_cons, List.sum_nil, add_zero,
      Option.elim_some, exponent_mul]
    simp only [add_mul, one_mul]
    abel
  rw [reads_eq]
  simp only [edges, kind, List.map_cons, List.map_nil, List.sum_cons, List.sum_nil, add_zero,
    Option.elim_none, hloop, fraction, digit, mul_assoc]

theorem reads_parser13 :
    reads type .parser13 = (1 + fraction) * ((1 + exponent) * done type .valueNumber) := by
  rw [reads_eq]
  simp only [edges, kind, List.map_cons, List.map_nil, List.sum_cons, List.sum_nil, add_zero,
    Option.elim_some, fraction_mul, exponent_mul]
  simp only [add_mul, one_mul]
  abel

theorem reads_parser15 :
    reads type .parser15 =
      digit∗ * ((1 + fraction) * ((1 + exponent) * done type .valueNumber)) := by
  apply kstar_of_loop
  refine (reads_eq type _).trans ?_
  simp only [edges, kind, List.map_cons, List.map_nil, List.sum_cons, List.sum_nil, add_zero,
    Option.elim_some, fraction_mul, exponent_mul]
  simp only [add_mul, one_mul]
  abel

/-- The minus sign is optional. -/
theorem reads_number :
    oneOf {'-'} * reads type .parser12 + oneOf {'0'} * reads type .parser13 +
      oneOf (Set.Icc '1' '9') * reads type .parser15 = number * done type .valueNumber := by
  have hunsigned : reads type .parser12 =
      integer * ((1 + fraction) * ((1 + exponent) * done type .valueNumber)) := by
    rw [reads_eq]
    simp only [edges, kind, List.map_cons, List.map_nil, List.sum_cons, List.sum_nil, add_zero,
      Option.elim_none, reads_parser13, reads_parser15, integer, add_mul, mul_assoc]
  rw [hunsigned, reads_parser13, reads_parser15]
  simp only [number, integer, add_mul, one_mul, mul_assoc]
  abel

/-! Strings: one loop, over characters that are one byte, some bytes or an escape. -/

def tail : Language Char := oneOf (Set.Icc '\x80' '\xbf')

theorem mem_utf8 {text : Text} :
    text ∈ utf8 ↔ Utf8.Sequence (codes text) ∧ 2 ≤ text.length := by
  have hlength : (codes text).length = text.length := List.length_map _
  rw [Utf8.sequence_iff, ← hlength]
  constructor
  · rintro ⟨c, hc, heq⟩
    rw [heq]
    exact ⟨⟨c, rfl⟩, Utf8.two_le_length_encode.mpr hc⟩
  · rintro ⟨⟨c, hc⟩, hle⟩
    exact ⟨c, Utf8.two_le_length_encode.mp (hc ▸ hle), hc.symm⟩

/-- The bytes of the generated code's labels 36 to 42. -/
theorem utf8_eq :
    utf8 =
      oneOf (Set.Icc '\xc2' '\xdf') * tail +
        oneOf {'\xe0'} * (oneOf (Set.Icc '\xa0' '\xbf') * tail) +
        oneOf (Set.Icc '\xe1' '\xec' ∪ Set.Icc '\xee' '\xef') * (tail * tail) +
        oneOf {'\xed'} * (oneOf (Set.Icc '\x80' '\x9f') * tail) +
        oneOf {'\xf0'} * (oneOf (Set.Icc '\x90' '\xbf') * (tail * tail)) +
        oneOf (Set.Icc '\xf1' '\xf3') * (tail * (tail * tail)) +
        oneOf {'\xf4'} * (oneOf (Set.Icc '\x80' '\x8f') * (tail * tail)) := by
  apply Language.ext
  intro text
  rw [mem_utf8]
  match text with
  | [] => simp [Language.mem_add, -add_eq_sup]
  | [a] => simp [tail, Language.mem_add, -add_eq_sup]
  | [a, b] =>
    simp only [Language.mem_add, tail, cons_mem_oneOf_mul, cons_mem_oneOf, nil_notMem_oneOf,
      nil_notMem_oneOf_mul, and_false, or_false, and_true, Set.mem_Icc, char_le_iff,
      Char.reduceToNat, codes, List.map_cons, List.map_nil, Utf8.sequence_pair, Utf8.Tail]
    simp
  | [a, b, c] =>
    simp only [Language.mem_add, tail, cons_mem_oneOf_mul, cons_mem_oneOf, nil_notMem_oneOf,
      and_false, or_false, false_or, and_true, reduceCtorEq, Set.mem_Icc, Set.mem_union,
      Set.mem_singleton_iff, char_le_iff, char_eq_iff, Char.reduceToNat, codes, List.map_cons,
      List.map_nil, Utf8.sequence_triple, Utf8.Tail, List.length_cons, List.length_nil]
    omega
  | [a, b, c, d] =>
    simp only [Language.mem_add, tail, cons_mem_oneOf_mul, cons_mem_oneOf, and_false, or_false,
      false_or, and_true, reduceCtorEq, Set.mem_Icc, Set.mem_union, Set.mem_singleton_iff,
      char_le_iff, char_eq_iff, Char.reduceToNat, codes, List.map_cons, List.map_nil,
      Utf8.sequence_quadruple, Utf8.Tail, List.length_cons, List.length_nil]
    omega
  | a :: b :: c :: d :: e :: rest =>
    have hlong : ¬Utf8.Sequence (codes (a :: b :: c :: d :: e :: rest)) := by
      intro h
      have hle := Utf8.length_le_of_sequence h
      rw [codes, List.length_map] at hle
      simp only [List.length_cons] at hle
      omega
    simp [hlong, tail, Language.mem_add, -add_eq_sup]

/-- A character that has begun goes back to the loop. -/
theorem utf8_mul :
    oneOf (Set.Icc '\xc2' '\xdf') * reads type .parser36 +
      (oneOf {'\xe0'} * reads type .parser37 +
        (oneOf (Set.Icc '\xe1' '\xec' ∪ Set.Icc '\xee' '\xef') * reads type .parser38 +
          (oneOf {'\xed'} * reads type .parser39 + (oneOf {'\xf0'} * reads type .parser40 +
            (oneOf (Set.Icc '\xf1' '\xf3') * reads type .parser41 +
              oneOf {'\xf4'} * reads type .parser42))))) =
      utf8 * reads type .parser30 := by
  have h36 : reads type .parser36 = tail * reads type .parser30 := by
    rw [reads_eq]
    simp only [edges, kind, List.map_cons, List.map_nil, List.sum_cons, List.sum_nil, add_zero,
      Option.elim_none, tail]
  have h38 : reads type .parser38 = tail * (tail * reads type .parser30) := by
    rw [reads_eq]
    simp only [edges, kind, List.map_cons, List.map_nil, List.sum_cons, List.sum_nil, add_zero,
      Option.elim_none, h36]
    rfl
  rw [reads_eq type .parser37, reads_eq type .parser39, reads_eq type .parser40,
    reads_eq type .parser41, reads_eq type .parser42]
  simp only [edges, kind, List.map_cons, List.map_nil, List.sum_cons, List.sum_nil, add_zero,
    Option.elim_none, h36, h38, utf8_eq, tail, add_mul, mul_assoc, add_assoc]

theorem escape_mul : oneOf {'\\'} * reads type .parser35 = escape * reads type .parser30 := by
  have h48 : reads type .parser48 =
      hex * (hex * (hex * (hex * reads type .parser30))) := by
    simp only [reads_eq type .parser48, reads_eq type .parser57, reads_eq type .parser63,
      reads_eq type .parser66, edges, kind, List.map_cons, List.map_nil, List.sum_cons,
      List.sum_nil, add_zero, Option.elim_none, hex]
  rw [reads_eq type .parser35]
  simp only [edges, kind, List.map_cons, List.map_nil, List.sum_cons, List.sum_nil, add_zero,
    Option.elim_none, h48, escape, add_mul, mul_assoc]

theorem nil_notMem_character : [] ∉ character := by
  rw [character, Language.mem_add, Language.mem_add]
  rintro ((h | h) | h)
  · exact nil_notMem_oneOf _ h
  · exact absurd (mem_utf8.mp h).2 (by decide)
  · exact nil_notMem_oneOf_mul _ _ h

theorem reads_parser30 :
    reads type .parser30 = character∗ * (oneOf {'"'} * done type .valueString) := by
  rw [← Language.self_eq_mul_add_iff nil_notMem_character]
  refine (reads_eq type _).trans ?_
  have h33 : reads type .parser33 = done type .valueString := by
    rw [reads_eq]
    simp only [edges, kind, List.map_nil, List.sum_nil, zero_add, Option.elim_some]
  simp only [edges, stringEdges, kind, List.map_cons, List.map_nil, List.sum_cons, List.sum_nil,
    add_zero, Option.elim_none, h33, escape_mul, utf8_mul, character, add_mul]
  abel

/-- A label that only ends a token. -/
theorem reads_end {l : Label} (hedges : edges l = []) :
    reads type l = (kind l).elim 0 (done type) := by
  rw [reads_eq, hedges, List.map_nil, List.sum_nil, zero_add]

theorem false_mul :
    oneOf {'f'} * reads type .parser23 = lexeme .literalFalse * done type .literalFalse := by
  simp only [reads_eq type .parser23, reads_eq type .parser45, reads_eq type .parser54,
    reads_eq type .parser58, reads_eq type .parser64, edges, kind, List.map_cons, List.map_nil,
    List.sum_cons, List.sum_nil, add_zero, zero_add, Option.elim_none, Option.elim_some, lexeme,
    word, mul_one, mul_assoc]

theorem null_mul :
    oneOf {'n'} * reads type .parser24 = lexeme .literalNull * done type .literalNull := by
  simp only [reads_eq type .parser24, reads_eq type .parser46, reads_eq type .parser55,
    reads_eq type .parser59, edges, kind, List.map_cons, List.map_nil, List.sum_cons,
    List.sum_nil, add_zero, zero_add, Option.elim_none, Option.elim_some, lexeme, word, mul_one,
    mul_assoc]

theorem true_mul :
    oneOf {'t'} * reads type .parser25 = lexeme .literalTrue * done type .literalTrue := by
  simp only [reads_eq type .parser25, reads_eq type .parser47, reads_eq type .parser56,
    reads_eq type .parser61, edges, kind, List.map_cons, List.map_nil, List.sum_cons,
    List.sum_nil, add_zero, zero_add, Option.elim_none, Option.elim_some, lexeme, word, mul_one,
    mul_assoc]

theorem string_mul :
    oneOf {'"'} * reads type .parser9 = lexeme .valueString * done type .valueString := by
  have h9 : reads type .parser9 = reads type .parser30 := by
    rw [reads_eq, reads_eq type .parser30]
    rfl
  rw [h9, reads_parser30, lexeme, Grammar.string, mul_assoc, mul_assoc]

/-- The tokens, each with its language. -/
theorem reads_start :
    reads type .start =
      ([.endOfInput, .valueString, .valueSeparator, .valueNumber, .nameSeparator, .beginArray,
        .endArray, .literalFalse, .literalNull, .literalTrue, .beginObject,
        .endObject].map fun t => lexeme t * done type t).sum := by
  refine (reads_eq type _).trans ?_
  have h2 := reads_end type (l := .parser2) rfl
  have h4 := reads_end type (l := .parser4) rfl
  have h10 := reads_end type (l := .parser10) rfl
  have h17 := reads_end type (l := .parser17) rfl
  have h19 := reads_end type (l := .parser19) rfl
  have h21 := reads_end type (l := .parser21) rfl
  have h26 := reads_end type (l := .parser26) rfl
  have h28 := reads_end type (l := .parser28) rfl
  simp only [kind, Option.elim_some, Option.elim_none] at h2 h4 h10 h17 h19 h21 h26 h28
  simp only [edges, kind, List.map_cons, List.map_nil, List.sum_cons, List.sum_nil,
    add_zero, Option.elim_none, h2, h4, h10, h17, h19, h21, h26, h28, false_mul, null_mul,
    true_mul, string_mul, mul_zero]
  rw [show lexeme .valueNumber = number from rfl, ← reads_number]
  simp only [lexeme, word, mul_one]
  abel

end Languages

/-- **The automaton is the lexical grammar**: the words that lead from the head of the
    loop to a token are the lexemes of this token. -/
theorem language_start (type : TokenType) : automaton.language type .start = lexeme type := by
  change reads type .start = _
  rw [reads_start]
  cases type <;> simp [done, lexeme]

/-! ### What is scanned -/

theorem scan_blank {blank : Text} (hblank : ∀ c ∈ blank, c ∈ whitespace) (text : Text) :
    scan (blank ++ text) = scan text := by
  induction blank with
  | nil => rfl
  | cons c blank ih =>
    have hc := hblank c List.mem_cons_self
    rw [List.cons_append, scan, if_pos ((yybm_32 c).mpr hc)]
    exact ih fun d hd => hblank d (List.mem_cons_of_mem _ hd)

/-- A text is blank up to some point. -/
theorem exists_blank (text : Text) :
    ∃ blank rest, text = blank ++ rest ∧ (∀ c ∈ blank, c ∈ whitespace) ∧
      ∀ c after, rest = c :: after → c ∉ whitespace := by
  classical
  induction text with
  | nil => exact ⟨[], [], rfl, by simp, by simp⟩
  | cons c text ih =>
    by_cases hc : c ∈ whitespace
    · obtain ⟨blank, rest, rfl, hblank, hrest⟩ := ih
      refine ⟨c :: blank, rest, rfl, ?_, hrest⟩
      intro d hd
      rcases List.mem_cons.mp hd with rfl | hd
      · exact hc
      · exact hblank d hd
    · refine ⟨[], c :: text, rfl, by simp, ?_⟩
      rintro d after heq
      rwa [← (List.cons.inj heq).1]

/-- A token begins with its first character. -/
theorem head_of_lexeme {type : TokenType} {lex : Text} (h : lex ∈ lexeme type) :
    ∃ c rest, lex = c :: rest ∧ c ∉ whitespace := by
  rw [← language_start] at h
  cases lex with
  | nil =>
    rw [Automaton.nil_mem_language] at h
    cases h
  | cons c rest =>
    refine ⟨c, rest, rfl, ?_⟩
    intro hc
    obtain ⟨l, hstep, hrest⟩ := Automaton.cons_mem_language.mp h
    have h4 : start c = .parser4 := by
      simp only [whitespace, Set.mem_insert_iff, Set.mem_singleton_iff] at hc
      rcases hc with rfl | rfl | rfl | rfl <;> rfl
    rw [step_eq_some, next, h4] at hstep
    obtain rfl := Goto.label.inj hstep
    have hend := reads_end type (l := .parser4) rfl
    rw [reads] at hend
    rw [hend] at hrest
    exact Language.notMem_zero rest hrest

theorem drive_start (c : Char) (rest : Text) :
    Finds .start 0 ⟨0, 0⟩ (automaton.longest .start (c :: rest))
      (drive .start 0 ⟨0, 0⟩ (c :: rest)) :=
  drive_finds (c :: rest) 0 (fun _ => List.cons_ne_nil c rest) (Or.inr rfl)

theorem scan_of_longest {c : Char} {rest : Text} {type : TokenType} {n : Nat}
    (hc : c ∉ whitespace) (h : automaton.longest .start (c :: rest) = some (type, n)) :
    scan (c :: rest) = ⟨type, (c :: rest).take n, (c :: rest).drop n⟩ := by
  have hfinds := drive_start c rest
  rw [h] at hfinds
  rw [scan, if_neg (mt (yybm_32 c).mp hc), show drive .start 0 ⟨0, 0⟩ (c :: rest) = _ from hfinds,
    Nat.zero_add]

theorem scan_of_none {c : Char} {rest : Text} (hc : c ∉ whitespace)
    (h : automaton.longest .start (c :: rest) = none) :
    (scan (c :: rest)).type = .parseError := by
  have hfinds := drive_start c rest
  rw [h] at hfinds
  rw [scan, if_neg (mt (yybm_32 c).mp hc)]
  exact hfinds

/-- What a number could go on with. -/
def numberChars : Set Char := digits ∪ {'.', 'E', 'e'}

/-- The labels that accept a token do not go on, those of a number apart. -/
theorem step_of_kind {l : Label} {type : TokenType} {c : Char} (hkind : kind l = some type)
    (hc : type = .valueNumber → c ∉ numberChars) : automaton.step l c = none := by
  rw [Option.eq_none_iff_forall_ne_some]
  intro l' hstep
  obtain ⟨e, he, hmem, _⟩ := (hasEdges l c l').mp hstep
  have hnumber : edges l = [] ∨ type = .valueNumber ∧ e.1 ⊆ numberChars := by
    revert e
    cases l <;> simp_all [kind, edges, numberChars, Set.subset_def]
  rcases hnumber with hnil | ⟨htype, hsubset⟩
  · rw [hnil] at he
    exact List.not_mem_nil he
  · exact hc htype (hsubset hmem)

/-- A token that nothing can follow in the same token is read as it is. -/
theorem scan_lexeme {type : TokenType} {lex rest : Text} (hlex : lex ∈ lexeme type)
    (hends : type = .valueNumber → ∀ c after, rest = c :: after → c ∉ numberChars) :
    scan (lex ++ rest) = ⟨type, lex, rest⟩ := by
  obtain ⟨c, more, rfl, hc⟩ := head_of_lexeme hlex
  rw [← language_start] at hlex
  have hlongest := @Automaton.longest_append _ _ _ automaton .start type (c :: more) rest hlex (by
    intro l c after hrest _ hkind
    exact step_of_kind hkind fun ht => hends ht c after hrest)
  rw [List.cons_append] at hlongest ⊢
  rw [scan_of_longest hc hlongest]
  simp

/-- **The scanner takes the longest token**: what it returns stands behind some blanks,
    is a lexeme of the type it is said to have, and no longer part of the text is a
    lexeme of any type. -/
theorem scan_eq_iff {text lex rest : Text} {type : TokenType} (herror : type ≠ .parseError)
    (hend : type ≠ .endOfInput) :
    scan text = ⟨type, lex, rest⟩ ↔
      ∃ blank, text = blank ++ (lex ++ rest) ∧ (∀ c ∈ blank, c ∈ whitespace) ∧
        lex ∈ lexeme type ∧
          ∀ more after t, rest = more ++ after → more ≠ [] → lex ++ more ∉ lexeme t := by
  constructor
  · intro h
    obtain ⟨blank, text', rfl, hblank, hhead⟩ := exists_blank text
    rw [scan_blank hblank] at h
    cases text' with
    | nil => exact absurd (congrArg Token.type h).symm hend
    | cons c text' =>
      have hc := hhead c text' rfl
      cases hlongest : automaton.longest .start (c :: text') with
      | none =>
        have htype := scan_of_none hc hlongest
        rw [h] at htype
        exact absurd htype herror
      | some found =>
        obtain ⟨t, n⟩ := found
        obtain ⟨hle, hmem, hmax⟩ := Automaton.longest_eq_some_iff.mp hlongest
        rw [scan_of_longest hc hlongest, Token.mk.injEq] at h
        obtain ⟨rfl, rfl, rfl⟩ := h
        refine ⟨blank, by rw [List.take_append_drop], hblank, language_start t ▸ hmem, ?_⟩
        intro more after t' hrest hmore
        have htake : (c :: text').take n ++ more = (c :: text').take (n + more.length) := by
          rw [List.take_add, hrest, List.take_left]
        rw [htake, ← language_start]
        apply hmax
        · exact Nat.lt_add_of_pos_right (List.length_pos_of_ne_nil hmore)
        · have hlength := congrArg List.length hrest
          simp only [List.length_drop, List.length_append] at hlength
          omega
  · rintro ⟨blank, rfl, hblank, hlex, hmax⟩
    rw [scan_blank hblank]
    obtain ⟨c, more, rfl, hc⟩ := head_of_lexeme hlex
    have hlongest : automaton.longest .start (c :: (more ++ rest)) =
        some (type, (c :: more).length) := by
      rw [Automaton.longest_eq_some_iff, ← List.cons_append]
      refine ⟨by simp, by rw [List.take_left, language_start]; exact hlex, ?_⟩
      intro m t hlt hle
      obtain ⟨k, rfl⟩ := Nat.exists_eq_add_of_lt hlt
      rw [Nat.add_assoc, List.take_length_add_append, language_start]
      apply hmax _ (rest.drop (k + 1)) t (List.take_append_drop _ _).symm
      intro hnil
      rw [List.take_eq_nil_iff] at hnil
      rcases hnil with hnil | rfl
      · cases hnil
      · rw [List.append_nil] at hle
        omega
    rw [List.cons_append, scan_of_longest hc hlongest, ← List.cons_append]
    simp

/-- A parse error is reported where no token begins. -/
theorem scan_error_iff {text : Text} :
    (scan text).type = .parseError ↔
      ∃ blank c rest, text = blank ++ c :: rest ∧ (∀ d ∈ blank, d ∈ whitespace) ∧
        c ∉ whitespace ∧ ∀ lex after t, c :: rest = lex ++ after → lex ∉ lexeme t := by
  constructor
  · intro h
    obtain ⟨blank, text', rfl, hblank, hhead⟩ := exists_blank text
    rw [scan_blank hblank] at h
    cases text' with
    | nil => cases h
    | cons c rest =>
      have hc := hhead c rest rfl
      refine ⟨blank, c, rest, rfl, hblank, hc, ?_⟩
      cases hlongest : automaton.longest .start (c :: rest) with
      | none =>
        rintro lex after t heq hlex
        refine Automaton.longest_eq_none_iff.mp hlongest lex.length t ?_ ?_
        · simp [heq]
        · rwa [heq, List.take_left, language_start]
      | some found =>
        obtain ⟨t, n⟩ := found
        obtain ⟨_, hmem, _⟩ := Automaton.longest_eq_some_iff.mp hlongest
        rw [scan_of_longest hc hlongest] at h
        obtain rfl : t = .parseError := h
        rw [language_start] at hmem
        exact absurd hmem (Language.notMem_zero _)
  · rintro ⟨blank, c, rest, rfl, hblank, hc, hnone⟩
    rw [scan_blank hblank]
    apply scan_of_none hc
    rw [Automaton.longest_eq_none_iff]
    intro m t _
    rw [language_start]
    exact hnone _ ((c :: rest).drop m) t (List.take_append_drop m _).symm

/-- **The scanner is the lexical grammar, read greedily**: a token is scanned exactly
    where it is the longest lexeme at the first character that is not blank, and a
    parse error is reported exactly where no lexeme stands. -/
theorem scan_longest_lexeme (text : Text) :
    (∀ type lex rest, type ≠ .parseError → type ≠ .endOfInput →
      (scan text = ⟨type, lex, rest⟩ ↔
        ∃ blank, text = blank ++ (lex ++ rest) ∧ (∀ c ∈ blank, c ∈ whitespace) ∧
          lex ∈ lexeme type ∧
            ∀ more after t, rest = more ++ after → more ≠ [] → lex ++ more ∉ lexeme t)) ∧
      ((scan text).type = .parseError ↔
        ∃ blank c rest, text = blank ++ c :: rest ∧ (∀ d ∈ blank, d ∈ whitespace) ∧
          c ∉ whitespace ∧ ∀ lex after t, c :: rest = lex ++ after → lex ∉ lexeme t) :=
  ⟨fun _ _ _ herror hend => scan_eq_iff herror hend, scan_error_iff⟩

end Lexer

end IsmDevice.Json
