import IsmDevice.JsonValues

/-!
# Parsing from a stream

The other lexer of `json.hpp` reads its text line by line from a `std::istream`: each
line gets its newline back, the last one too, and a byte order mark in front of the
first is overwritten with blanks.  The device reads its own files this way, and what
is sent to it from a buffer, where a byte order mark is no token.
-/

namespace IsmDevice.Json

open LongestMatch Computability Lexer

/-- The lines that `std::getline` gives until the end of the file is seen. -/
def getlines : Text → List Text
  | [] => [[]]
  | c :: rest =>
      if c = '\n' then [] :: getlines rest
      else
        match getlines rest with
        | [] => [[c]]
        | line :: lines => (c :: line) :: lines

def byteOrderMark : Text := ['\xEF', '\xBB', '\xBF']

/-- The constructor of the lexer, on the line it has read. -/
def skipByteOrderMark : Text → Text
  | '\xEF' :: '\xBB' :: '\xBF' :: rest => ' ' :: ' ' :: ' ' :: rest
  | line => line

/-- `fill_line_buffer`, as often as there is a line. -/
def fillLineBuffer (lines : List Text) : Text := lines.flatMap fun line => line ++ ['\n']

def streamText (text : Text) : Text :=
  match getlines text with
  | [] => []
  | line :: lines => skipByteOrderMark (line ++ ['\n']) ++ fillLineBuffer lines

def parseStream (strtod : Text → Float) (text : Text) : Except Failure Json :=
  parse strtod (streamText text)

/-! ### The text that is scanned -/

/-- The first line and the others, which are the text with a newline behind it. -/
theorem exists_lines (text : Text) :
    ∃ line lines, getlines text = line :: lines ∧
      text ++ ['\n'] = line ++ ['\n'] ++ fillLineBuffer lines := by
  induction text with
  | nil => exact ⟨[], [], rfl, rfl⟩
  | cons c rest ih =>
    obtain ⟨line, lines, hlines, heq⟩ := ih
    by_cases hc : c = '\n'
    · refine ⟨[], line :: lines, by rw [getlines, if_pos hc, hlines], ?_⟩
      rw [hc, List.cons_append, heq]
      rfl
    · refine ⟨c :: line, lines, by rw [getlines, if_neg hc, hlines], ?_⟩
      rw [List.cons_append, heq]
      rfl

theorem skipByteOrderMark_of_not {line : Text} (h : ¬ byteOrderMark <+: line) :
    skipByteOrderMark line = line := by
  unfold skipByteOrderMark
  split
  case h_1 rest => exact absurd ⟨rest, rfl⟩ h
  case h_2 => rfl

theorem streamText_of_not {text : Text} (h : ¬ byteOrderMark <+: text) :
    streamText text = text ++ ['\n'] := by
  obtain ⟨line, lines, hlines, heq⟩ := exists_lines text
  have hline : ¬ byteOrderMark <+: line ++ ['\n'] := by
    intro hmark
    have hmark' : byteOrderMark <+: text ++ ['\n'] := heq ▸ hmark.trans (List.prefix_append _ _)
    rcases List.prefix_concat_iff.mp hmark' with hwhole | hmark'
    · have hlast := congrArg List.getLast? hwhole
      rw [List.getLast?_concat] at hlast
      exact absurd hlast (by decide)
    · exact h hmark'
  rw [streamText, hlines, heq]
  dsimp only
  rw [skipByteOrderMark_of_not hline]

/-- A mark that stands at the beginning of the text stands in its first line. -/
theorem streamText_mark (text : Text) :
    streamText (byteOrderMark ++ text) = [' ', ' ', ' '] ++ (text ++ ['\n']) := by
  obtain ⟨line, lines, hlines, heq⟩ := exists_lines text
  have hmarked : getlines (byteOrderMark ++ text) = (byteOrderMark ++ line) :: lines := by
    simp only [byteOrderMark, List.cons_append, List.nil_append, getlines, hlines]
    rfl
  rw [streamText, hmarked, heq]
  rfl

/-! ### Blanks around a text -/

variable {strtod : Text → Float}

theorem value_head {j : Json} {t : Text} (h : Derives strtod (.value j) t) :
    ∃ c rest, t = c :: rest ∧ c ∉ whitespace ∧ Ascii c := by
  cases h with
  | number hnumber =>
    obtain ⟨c, rest, rfl, hc⟩ := @head_of_lexeme .valueNumber t hnumber
    exact ⟨c, rest, rfl, hc, ascii_number hnumber c List.mem_cons_self⟩
  | _ => exact ⟨_, _, rfl, by simp [whitespace], by decide, by decide⟩

theorem disjoint_numberLetters : Disjoint numberLetters whitespace := by
  rw [Set.disjoint_right]
  rintro c (rfl | rfl | rfl | rfl) <;> simp [numberLetters, numberChars, digits, char_le_iff]

theorem value_last {j : Json} {t : Text} (h : Derives strtod (.value j) t) :
    ∃ init c, t = init ++ [c] ∧ c ∉ whitespace := by
  cases h with
  | number hnumber =>
    obtain ⟨c, rest, rfl, _⟩ := @head_of_lexeme .valueNumber t hnumber
    refine ⟨_, _, (List.dropLast_append_getLast (List.cons_ne_nil c rest)).symm, ?_⟩
    intro hwhite
    have hletter := number_letters hnumber _ (List.getLast_mem (List.cons_ne_nil c rest))
    exact Set.disjoint_left.mp disjoint_numberLetters hletter hwhite
  | null => exact ⟨['n', 'u', 'l'], 'l', rfl, by simp [whitespace]⟩
  | literalTrue => exact ⟨['t', 'r', 'u'], 'e', rfl, by simp [whitespace]⟩
  | literalFalse => exact ⟨['f', 'a', 'l', 's'], 'e', rfl, by simp [whitespace]⟩
  | string => exact ⟨_ :: _, '"', rfl, by simp [whitespace]⟩
  | emptyArray => exact ⟨_ :: _, ']', rfl, by simp [whitespace]⟩
  | array => exact ⟨_ :: _, ']', rfl, by simp [whitespace]⟩
  | emptyObject => exact ⟨_ :: _, '}', rfl, by simp [whitespace]⟩
  | object => exact ⟨_ :: _, '}', rfl, by simp [whitespace]⟩

theorem derives_blank_append {j : Json} {blank t : Text} (hblank : Blank blank) :
    Derives strtod (.element j) (blank ++ t) ↔ Derives strtod (.element j) t := by
  constructor
  · intro h
    generalize htext : blank ++ t = text at h
    cases h with
    | @element _ before value after hbefore hafter h =>
      obtain ⟨c, rest, rfl, hc, _⟩ := value_head h
      rcases List.append_eq_append_iff.mp htext with ⟨more, rfl, rfl⟩ | ⟨more, rfl, heq⟩
      · exact .element (fun d hd => hbefore d (List.mem_append_right _ hd)) hafter h
      · cases more with
        | nil =>
          rw [List.nil_append] at heq
          rw [← heq]
          exact @Derives.element _ _ [] _ _ blank_nil hafter h
        | cons d more =>
          obtain ⟨rfl, _⟩ := List.cons.inj heq
          exact absurd (hblank c (List.mem_append_right _ List.mem_cons_self)) hc
  · intro h
    cases h with
    | @element _ before value after hbefore hafter h =>
      rw [← List.append_assoc]
      refine .element ?_ hafter h
      intro c hc
      rcases List.mem_append.mp hc with hc | hc
      · exact hblank c hc
      · exact hbefore c hc

theorem derives_append_newline {j : Json} {t : Text} :
    Derives strtod (.element j) (t ++ ['\n']) ↔ Derives strtod (.element j) t := by
  constructor
  · intro h
    generalize htext : t ++ ['\n'] = text at h
    cases h with
    | @element _ before value after hbefore hafter h =>
      obtain ⟨init, c, rfl, hc⟩ := value_last h
      rcases List.eq_nil_or_concat' after with rfl | ⟨after, d, rfl⟩
      · have hlast := congrArg List.getLast? htext
        simp only [List.append_nil, ← List.append_assoc, List.getLast?_concat] at hlast
        rw [← Option.some.inj hlast] at hc
        exact absurd (by simp [whitespace]) hc
      · rw [← List.append_assoc, ← List.append_assoc] at htext
        rw [(List.append_inj' htext rfl).1, List.append_assoc]
        exact .element hbefore (fun e he => hafter e (List.mem_append_left _ he)) h
  · intro h
    cases h with
    | @element _ before value after hbefore hafter h =>
      rw [List.append_assoc, List.append_assoc]
      refine .element hbefore ?_ h
      intro c hc
      rcases List.mem_append.mp hc with hc | hc
      · exact hafter c hc
      · rw [List.mem_singleton.mp hc]
        simp [whitespace]

/-! ### The two lexers -/

theorem nul_notMem_cString (text : Text) : '\x00' ∉ Printf.cString text := by
  intro h
  have hne := List.mem_takeWhile_imp h
  simp at hne

/-- The newline behind the last line changes nothing, nor do the blanks in the place of
    the mark. -/
theorem derives_streamed {j : Json} {blank text : Text} (hblank : Blank blank) :
    Derives strtod (.element j) (Printf.cString (blank ++ (text ++ ['\n']))) ↔
      Derives strtod (.element j) (Printf.cString text) := by
  obtain ⟨rest, heq, hrest⟩ := exists_ends text
  have hnul := (clean_blank hblank).nul
  have hfront : '\x00' ∉ blank ++ Printf.cString text := by
    rw [List.mem_append, not_or]
    exact ⟨hnul, nul_notMem_cString text⟩
  rcases hrest with rfl | ⟨after, rfl⟩
  · rw [List.append_nil] at heq
    have hwhole : '\x00' ∉ blank ++ (text ++ ['\n']) := by
      rw [heq, ← List.append_assoc, List.mem_append, not_or]
      exact ⟨hfront, by decide⟩
    rw [Printf.cString_eq_self hwhole, ← heq, derives_blank_append hblank, derives_append_newline]
  · conv_lhs =>
      rw [heq, List.append_assoc, ← List.append_assoc blank, List.cons_append,
        cString_of_ends hfront (Or.inr ⟨_, rfl⟩)]
    exact derives_blank_append hblank

theorem blank_spaces : Blank [' ', ' ', ' '] := by
  intro c hc
  simp only [List.mem_cons, List.not_mem_nil, or_false, or_self] at hc
  simp [hc, whitespace]

theorem parseStream_mark {text : Text} {j : Json} :
    parseStream strtod (byteOrderMark ++ text) = .ok j ↔ parse strtod text = .ok j := by
  rw [parseStream, streamText_mark, parse_eq_ok, parse_eq_ok, derives_streamed blank_spaces]

theorem parseStream_of_not {text : Text} {j : Json} (h : ¬ byteOrderMark <+: text) :
    parseStream strtod text = .ok j ↔ parse strtod text = .ok j := by
  rw [parseStream, streamText_of_not h, parse_eq_ok, parse_eq_ok,
    ← @derives_streamed strtod j [] text blank_nil, List.nil_append]

/-- No value begins with a mark. -/
theorem parse_mark_ne {text : Text} {j : Json} (h : byteOrderMark <+: text) :
    parse strtod text ≠ .ok j := by
  rintro hparse
  obtain ⟨rest, rfl⟩ := h
  have hderives := parse_eq_ok.mp hparse
  have htext : Printf.cString (byteOrderMark ++ rest) =
      '\xEF' :: '\xBB' :: '\xBF' :: Printf.cString rest := by
    simp [byteOrderMark, Printf.cString]
  generalize hstring : Printf.cString (byteOrderMark ++ rest) = t at hderives
  rw [htext] at hstring
  cases hderives with
  | @element _ before value after hbefore _ h =>
    cases before with
    | nil =>
      obtain ⟨c, more, rfl, _, hc⟩ := value_head h
      obtain ⟨rfl, _⟩ := List.cons.inj hstring
      exact absurd hc.2 (by decide)
    | cons c before =>
      obtain ⟨rfl, _⟩ := List.cons.inj hstring
      have hwhite := hbefore '\xEF' List.mem_cons_self
      simp [whitespace] at hwhite

/-- The text behind the mark, if there is one. -/
def withoutMark (text : Text) : Text :=
  if byteOrderMark <+: text then text.drop byteOrderMark.length else text

theorem parseStream_iff {text : Text} {j : Json} :
    parseStream strtod text = .ok j ↔ parse strtod (withoutMark text) = .ok j := by
  by_cases hmark : byteOrderMark <+: text
  · rw [withoutMark, if_pos hmark]
    obtain ⟨rest, rfl⟩ := hmark
    rw [List.drop_left, parseStream_mark]
  · rw [withoutMark, if_neg hmark, parseStream_of_not hmark]

/-- **A byte order mark is skipped in a file, and is an error in a buffer.**  But for it
    the two lexers read the same. -/
theorem parseStream_eq_ok_iff (strtod : Text → Float) (text : Text) (j : Json) :
    (parseStream strtod text = .ok j ↔ parse strtod (withoutMark text) = .ok j) ∧
      (parse strtod text = .ok j ↔
        ¬ byteOrderMark <+: text ∧ parseStream strtod text = .ok j) := by
  refine ⟨parseStream_iff, ?_⟩
  by_cases hmark : byteOrderMark <+: text
  · exact iff_of_false (parse_mark_ne hmark) fun h => h.1 hmark
  · rw [parseStream_of_not hmark]
    exact ⟨fun h => ⟨hmark, h⟩, And.right⟩

end IsmDevice.Json
