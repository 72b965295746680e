import IsmDevice.JsonNumbers
import IsmDevice.JsonStrings

/-!
# The parser of `json.hpp`

Recursive descent over the tokens, without a callback: `expect` and `unexpect` throw,
and a key that is read twice keeps its last value.  `Derives` is the grammar of JSON
texts with the values they stand for, written without the scanner.

The recursion is as deep as the text is nested, so the model takes fuel.  `parse` gives
it what a text of its length can need (`parse_ne_outOfFuel`).
-/

namespace IsmDevice.Json

open LongestMatch Computability Lexer

/-- `std::map::operator[]` with an assignment: the last value of a key stays. -/
def assign (key : String) (value : Json) : List (String × Json) → List (String × Json)
  | [] => [(key, value)]
  | (k, v) :: rest =>
      if key = k then (k, value) :: rest
      else if key < k then (key, value) :: (k, v) :: rest
      else (k, v) :: assign key value rest

def tokenTypeName : TokenType → String
  | .uninitialized => "<uninitialized>"
  | .literalTrue => "true literal"
  | .literalFalse => "false literal"
  | .literalNull => "null literal"
  | .valueString => "string literal"
  | .valueNumber => "number literal"
  | .beginArray => "'['"
  | .beginObject => "'\x7b'"
  | .endArray => "']'"
  | .endObject => "'\x7d'"
  | .nameSeparator => "':'"
  | .valueSeparator => "','"
  | .parseError => "<parse error>"
  | .endOfInput => "end of input"

/-- Why no value is returned: an exception, or a model that was given too little fuel. -/
inductive Failure where
  | invalidArgument (what : String)
  | outOfFuel
deriving DecidableEq, Repr

/-! ### Recursive descent

The state of the parser is the token read last, with the text behind it. -/

def getToken (last : Token) : Token := scan last.rest

def unexpected (last : Token) : String :=
  "parse error - unexpected " ++
    if last.type = .parseError then "'" ++ String.ofList last.lexeme ++ "'"
    else tokenTypeName last.type

def expect (t : TokenType) (last : Token) : Except Failure Unit :=
  if t ≠ last.type then
    .error (.invalidArgument (unexpected last ++ "; expected " ++ tokenTypeName t))
  else .ok ()

def unexpect (t : TokenType) (last : Token) : Except Failure Unit :=
  if t = last.type then .error (.invalidArgument (unexpected last)) else .ok ()

def stringOf (last : Token) : Except Failure String :=
  match Lexer.getString last.lexeme with
  | .ok s => .ok (String.ofList s)
  | .error what => .error (.invalidArgument what)

variable (strtod : Text → Float)

mutual

def parseInternal : Nat → Token → Except Failure (Json × Token)
  | 0, _ => .error .outOfFuel
  | fuel + 1, last =>
      match last.type with
      | .beginObject =>
          let last := getToken last
          if last.type = .endObject then .ok (.object [], getToken last)
          else do
            unexpect .valueSeparator last
            parsePairs fuel last []
      | .beginArray =>
          let last := getToken last
          if last.type = .endArray then .ok (.array [], getToken last)
          else do
            unexpect .valueSeparator last
            parseValues fuel last []
      | .literalNull => .ok (.null, getToken last)
      | .valueString => do
          let s ← stringOf last
          return (.string s, getToken last)
      | .literalTrue => .ok (.boolean true, getToken last)
      | .literalFalse => .ok (.boolean false, getToken last)
      | .valueNumber => .ok (getNumber strtod last.lexeme, getToken last)
      | _ => .error (.invalidArgument (unexpected last))

/-- The loop over the pairs of an object, up to its closing brace. -/
def parsePairs : Nat → Token → List (String × Json) → Except Failure (Json × Token)
  | 0, _, _ => .error .outOfFuel
  | fuel + 1, last, members => do
      let last := if last.type = .valueSeparator then getToken last else last
      expect .valueString last
      let key ← stringOf last
      let last := getToken last
      expect .nameSeparator last
      let (value, last) ← parseInternal fuel (getToken last)
      let members := assign key value members
      if last.type = .valueSeparator then parsePairs fuel last members
      else do
        expect .endObject last
        return (.object members, getToken last)

/-- The loop over the values of an array, up to its closing bracket. -/
def parseValues : Nat → Token → List Json → Except Failure (Json × Token)
  | 0, _, _ => .error .outOfFuel
  | fuel + 1, last, elements => do
      let last := if last.type = .valueSeparator then getToken last else last
      let (value, last) ← parseInternal fuel last
      let elements := elements ++ [value]
      if last.type = .valueSeparator then parseValues fuel last elements
      else do
        expect .endArray last
        return (.array elements, getToken last)

end

def parse (text : Text) : Except Failure Json := do
  let (result, last) ← parseInternal strtod (2 * text.length + 3) (scan text)
  expect .endOfInput last
  return result

/-! ### The grammar -/

/-- The parts of a JSON text, with what they stand for.  An `element` and a `member`
    have blanks around them. -/
inductive Phrase where
  | value (j : Json)
  | element (j : Json)
  | member (key : String) (j : Json)
  | elements (js : List Json)
  | members (ms : List (String × Json))

def Blank (text : Text) : Prop := ∀ c ∈ text, c ∈ whitespace

theorem blank_nil : Blank [] := fun _ hc => absurd hc List.not_mem_nil

/-- The members of an object whose pairs are these: of two with one key the later one. -/
def assignAll (pairs : List (String × Json)) : List (String × Json) :=
  pairs.foldl (fun members pair => assign pair.1 pair.2 members) []

inductive Derives : Phrase → Text → Prop where
  | null : Derives (.value .null) ['n', 'u', 'l', 'l']
  | literalTrue : Derives (.value (.boolean true)) ['t', 'r', 'u', 'e']
  | literalFalse : Derives (.value (.boolean false)) ['f', 'a', 'l', 's', 'e']
  | number {lexeme : Text} (h : lexeme ∈ Grammar.number) :
      Derives (.value (getNumber strtod lexeme)) lexeme
  | string {raw s : Text} (h : Spells raw s) :
      Derives (.value (.string (String.ofList s))) ('"' :: (raw ++ ['"']))
  | emptyArray {blank : Text} (h : Blank blank) :
      Derives (.value (.array [])) ('[' :: (blank ++ [']']))
  | array {js : List Json} {text : Text} (h : Derives (.elements js) text) :
      Derives (.value (.array js)) ('[' :: (text ++ [']']))
  | emptyObject {blank : Text} (h : Blank blank) :
      Derives (.value (.object [])) ('{' :: (blank ++ ['}']))
  | object {ms : List (String × Json)} {text : Text} (h : Derives (.members ms) text) :
      Derives (.value (.object (assignAll ms))) ('{' :: (text ++ ['}']))
  | element {j : Json} {before text after : Text} (hbefore : Blank before) (hafter : Blank after)
      (h : Derives (.value j) text) : Derives (.element j) (before ++ (text ++ after))
  | member {j : Json} {before raw key between text : Text} (hbefore : Blank before)
      (hbetween : Blank between) (hkey : Spells raw key) (h : Derives (.element j) text) :
      Derives (.member (String.ofList key) j)
        (before ++ ('"' :: (raw ++ '"' :: (between ++ ':' :: text))))
  | lastElement {j : Json} {text : Text} (h : Derives (.element j) text) :
      Derives (.elements [j]) text
  | moreElements {j : Json} {js : List Json} {text rest : Text} (h : Derives (.element j) text)
      (hrest : Derives (.elements js) rest) : Derives (.elements (j :: js)) (text ++ ',' :: rest)
  | lastMember {key : String} {j : Json} {text : Text} (h : Derives (.member key j) text) :
      Derives (.members [(key, j)]) text
  | moreMembers {key : String} {j : Json} {ms : List (String × Json)} {text rest : Text}
      (h : Derives (.member key j) text) (hrest : Derives (.members ms) rest) :
      Derives (.members ((key, j) :: ms)) (text ++ ',' :: rest)

/-- The end of the input, or a NUL inside it. -/
def Ends (rest : Text) : Prop := rest = [] ∨ ∃ after, rest = '\x00' :: after

/-- The text has a value in front of its end. -/
def Accepted (text : Text) (j : Json) : Prop :=
  ∃ t rest, text = t ++ rest ∧ Derives strtod (.element j) t ∧ Ends rest

/-! ### What is accepted is derived -/

section Tokens

variable {u : Text}

/-- A token that was scanned stands behind some blanks. -/
theorem token_split (herror : (scan u).type ≠ .parseError) (hend : (scan u).type ≠ .endOfInput) :
    ∃ blank rest, u = blank ++ ((scan u).lexeme ++ rest) ∧ Blank blank ∧
      (scan u).lexeme ∈ Grammar.lexeme (scan u).type ∧ getToken (scan u) = scan rest := by
  obtain ⟨blank, heq, hblank, hlexeme, _⟩ :=
    (@scan_eq_iff u (scan u).lexeme (scan u).rest (scan u).type herror hend).mp rfl
  exact ⟨blank, (scan u).rest, heq, hblank, hlexeme, rfl⟩

/-- A token that is always the same word. -/
theorem token_word {word : Text} {type : TokenType} (htype : (scan u).type = type)
    (herror : type ≠ .parseError) (hend : type ≠ .endOfInput)
    (hword : Grammar.lexeme type = Grammar.word word) :
    ∃ blank rest, u = blank ++ (word ++ rest) ∧ Blank blank ∧ getToken (scan u) = scan rest := by
  obtain ⟨blank, rest, heq, hblank, hlexeme, hnext⟩ :=
    token_split (htype ▸ herror) (htype ▸ hend)
  rw [htype, hword, Grammar.mem_word] at hlexeme
  rw [hlexeme] at heq
  exact ⟨blank, rest, heq, hblank, hnext⟩

theorem token_char {c : Char} {type : TokenType} (htype : (scan u).type = type)
    (herror : type ≠ .parseError) (hend : type ≠ .endOfInput)
    (hchar : Grammar.lexeme type = Grammar.word [c]) :
    ∃ blank rest, u = blank ++ c :: rest ∧ Blank blank ∧ getToken (scan u) = scan rest :=
  token_word htype herror hend hchar

/-- The separator that the loops skip. -/
theorem token_separator (u : Text) :
    ∃ v, (if (scan u).type = .valueSeparator then getToken (scan u) else scan u) = scan v ∧
      if (scan u).type = .valueSeparator then ∃ blank, Blank blank ∧ u = blank ++ ',' :: v
      else v = u := by
  by_cases htype : (scan u).type = .valueSeparator
  · obtain ⟨blank, v, heq, hblank, hnext⟩ := token_char htype (by decide) (by decide) rfl
    exact ⟨v, by rw [if_pos htype, hnext], by rw [if_pos htype]; exact ⟨blank, hblank, heq⟩⟩
  · exact ⟨u, by rw [if_neg htype], by rw [if_neg htype]⟩

theorem type_of_expect {t : TokenType} {last : Token} {r : Unit} (h : expect t last = .ok r) :
    last.type = t := by
  rw [expect] at h
  split_ifs at h with htype
  exact (not_not.mp htype).symm

/-- A string token that has a value. -/
theorem token_string {key : String} (htype : (scan u).type = .valueString)
    (h : stringOf (scan u) = .ok key) :
    ∃ blank raw s rest, u = blank ++ '"' :: (raw ++ '"' :: rest) ∧ Blank blank ∧ Spells raw s ∧
      key = String.ofList s ∧ getToken (scan u) = scan rest := by
  obtain ⟨blank, rest, heq, hblank, hlexeme, hnext⟩ :=
    token_split (by rw [htype]; decide) (by rw [htype]; decide)
  rw [htype] at hlexeme
  obtain ⟨_, ⟨c, hc, rfl⟩, _, hbody, hraw⟩ := Language.mem_mul.mp hlexeme
  obtain ⟨raw, hcharacters, _, ⟨d, hd, rfl⟩, rfl⟩ := Language.mem_mul.mp hbody
  obtain rfl := Set.mem_singleton_iff.mp hc
  obtain rfl := Set.mem_singleton_iff.mp hd
  rw [stringOf, ← hraw] at h
  split at h
  case h_2 => cases h
  case h_1 s hs =>
    refine ⟨blank, raw, s, rest, ?_, hblank, (getString_eq_ok_iff hcharacters).mp hs,
      (Except.ok.inj h).symm, hnext⟩
    rw [heq, ← hraw]
    simp

end Tokens

variable {strtod}

theorem parseInternal_leaf {fuel : Nat} {u : Text} {j : Json} {last : Token}
    (hobject : (scan u).type ≠ .beginObject) (harray : (scan u).type ≠ .beginArray)
    (h : parseInternal strtod (fuel + 1) (scan u) = .ok (j, last)) :
    ∃ blank t r, u = blank ++ (t ++ r) ∧ Blank blank ∧ Derives strtod (.value j) t ∧
      last = scan r := by
  rw [parseInternal] at h
  cases htype : (scan u).type with
  | beginObject => exact absurd htype hobject
  | beginArray => exact absurd htype harray
  | valueString =>
    rw [htype] at h
    obtain ⟨s, hs, h⟩ := bind_eq_ok h
    obtain ⟨rfl, rfl⟩ := Prod.mk.inj (Except.ok.inj h)
    obtain ⟨blank, raw, s', rest, heq, hblank, hspells, rfl, hnext⟩ := token_string htype hs
    refine ⟨blank, '"' :: (raw ++ ['"']), rest, ?_, hblank, .string hspells, hnext⟩
    rw [heq]
    simp
  | literalNull =>
    rw [htype] at h
    obtain ⟨rfl, rfl⟩ := Prod.mk.inj (Except.ok.inj h)
    obtain ⟨blank, rest, heq, hblank, hnext⟩ := token_word htype (by decide) (by decide) rfl
    exact ⟨blank, _, rest, heq, hblank, .null, hnext⟩
  | literalTrue =>
    rw [htype] at h
    obtain ⟨rfl, rfl⟩ := Prod.mk.inj (Except.ok.inj h)
    obtain ⟨blank, rest, heq, hblank, hnext⟩ := token_word htype (by decide) (by decide) rfl
    exact ⟨blank, _, rest, heq, hblank, .literalTrue, hnext⟩
  | literalFalse =>
    rw [htype] at h
    obtain ⟨rfl, rfl⟩ := Prod.mk.inj (Except.ok.inj h)
    obtain ⟨blank, rest, heq, hblank, hnext⟩ := token_word htype (by decide) (by decide) rfl
    exact ⟨blank, _, rest, heq, hblank, .literalFalse, hnext⟩
  | valueNumber =>
    rw [htype] at h
    obtain ⟨rfl, rfl⟩ := Prod.mk.inj (Except.ok.inj h)
    obtain ⟨blank, rest, heq, hblank, hlexeme, hnext⟩ :=
      token_split (by rw [htype]; decide) (by rw [htype]; decide)
    rw [htype] at hlexeme
    exact ⟨blank, _, rest, heq, hblank, .number hlexeme, hnext⟩
  | _ =>
    rw [htype] at h
    cases h

/-! The induction is on the fuel: what a call with less of it has taken from the text is
derived, and the next token is the first of what is left. -/

variable (strtod) in
def SoundInternal (fuel : Nat) : Prop :=
  ∀ u j last, parseInternal strtod fuel (scan u) = .ok (j, last) →
    ∃ blank t r, u = blank ++ (t ++ r) ∧ Blank blank ∧ Derives strtod (.value j) t ∧ last = scan r

/-- The separator that leads into the rest of a loop. -/
def Enters (u v : Text) : Prop :=
  if (scan u).type = .valueSeparator then ∃ blank, Blank blank ∧ u = blank ++ ',' :: v else v = u

variable (strtod) in
def SoundPairs (fuel : Nat) : Prop :=
  ∀ u members j last, parsePairs strtod fuel (scan u) members = .ok (j, last) →
    ∃ v t ms r, Enters u v ∧ v = t ++ '}' :: r ∧ Derives strtod (.members ms) t ∧
      j = .object (ms.foldl (fun members pair => assign pair.1 pair.2 members) members) ∧
        last = scan r

variable (strtod) in
def SoundValues (fuel : Nat) : Prop :=
  ∀ u elements j last, parseValues strtod fuel (scan u) elements = .ok (j, last) →
    ∃ v t js r, Enters u v ∧ v = t ++ ']' :: r ∧ Derives strtod (.elements js) t ∧
      j = .array (elements ++ js) ∧ last = scan r

theorem sound_values {fuel : Nat} (hinternal : SoundInternal strtod fuel)
    (hvalues : SoundValues strtod fuel) : SoundValues strtod (fuel + 1) := by
  intro u elements j last h
  obtain ⟨v, hv, henters⟩ := token_separator u
  rw [parseValues] at h
  simp only [hv] at h
  obtain ⟨⟨value, next⟩, hvalue, h⟩ := bind_eq_ok h
  obtain ⟨before, t, r, rfl, hbefore, hderives, rfl⟩ := hinternal v value next hvalue
  by_cases htype : (scan r).type = .valueSeparator
  · simp only [htype, if_true] at h
    obtain ⟨v', t', js, r', henters', rfl, hrest, rfl, rfl⟩ := hvalues _ _ _ _ h
    rw [Enters, if_pos htype] at henters'
    obtain ⟨after, hafter, rfl⟩ := henters'
    refine ⟨_, (before ++ (t ++ after)) ++ ',' :: t', value :: js, r', henters, ?_,
      .moreElements (.element hbefore hafter hderives) hrest, ?_, rfl⟩
    · simp
    · simp
  · simp only [htype, if_false] at h
    obtain ⟨_, hexpect, h⟩ := bind_eq_ok h
    obtain ⟨after, r', rfl, hafter, hnext⟩ :=
      token_char (type_of_expect hexpect) (by decide) (by decide) rfl
    obtain ⟨rfl, rfl⟩ := Prod.mk.inj (Except.ok.inj h)
    refine ⟨_, before ++ (t ++ after), [value], r', henters, ?_,
      .lastElement (.element hbefore hafter hderives), rfl, hnext⟩
    simp

theorem sound_pairs {fuel : Nat} (hinternal : SoundInternal strtod fuel)
    (hpairs : SoundPairs strtod fuel) : SoundPairs strtod (fuel + 1) := by
  intro u members j last h
  obtain ⟨v, hv, henters⟩ := token_separator u
  rw [parsePairs] at h
  simp only [hv] at h
  obtain ⟨_, hstring, h⟩ := bind_eq_ok h
  obtain ⟨key, hkey, h⟩ := bind_eq_ok h
  obtain ⟨before, raw, s, v₁, rfl, hbefore, hspells, rfl, hnext₁⟩ :=
    token_string (type_of_expect hstring) hkey
  rw [hnext₁] at h
  obtain ⟨_, hcolon, h⟩ := bind_eq_ok h
  obtain ⟨between, v₂, rfl, hbetween, hnext₂⟩ :=
    token_char (type_of_expect hcolon) (by decide) (by decide) rfl
  rw [hnext₂] at h
  obtain ⟨⟨value, next⟩, hvalue, h⟩ := bind_eq_ok h
  obtain ⟨before', t, r, rfl, hbefore', hderives, rfl⟩ := hinternal _ value next hvalue
  by_cases htype : (scan r).type = .valueSeparator
  · simp only [htype, if_true] at h
    obtain ⟨v', t', ms, r', henters', rfl, hrest, rfl, rfl⟩ := hpairs _ _ _ _ h
    rw [Enters, if_pos htype] at henters'
    obtain ⟨after, hafter, rfl⟩ := henters'
    refine ⟨_, _, _, r', henters, ?_, .moreMembers
      (.member hbefore hbetween hspells (.element hbefore' hafter hderives)) hrest, rfl, rfl⟩
    simp
  · simp only [htype, if_false] at h
    obtain ⟨_, hexpect, h⟩ := bind_eq_ok h
    obtain ⟨after, r', rfl, hafter, hnext⟩ :=
      token_char (type_of_expect hexpect) (by decide) (by decide) rfl
    obtain ⟨rfl, rfl⟩ := Prod.mk.inj (Except.ok.inj h)
    refine ⟨_, _, _, r', henters, ?_, .lastMember
      (.member hbefore hbetween hspells (.element hbefore' hafter hderives)), rfl, hnext⟩
    simp

theorem type_of_unexpect {t : TokenType} {last : Token} {r : Unit} (h : unexpect t last = .ok r) :
    last.type ≠ t := by
  rw [unexpect] at h
  split_ifs at h with htype
  exact fun heq => htype heq.symm

theorem sound_object {fuel : Nat} (hpairs : SoundPairs strtod fuel) {u : Text} {j : Json}
    {last : Token} (htype : (scan u).type = .beginObject)
    (h : parseInternal strtod (fuel + 1) (scan u) = .ok (j, last)) :
    ∃ blank t r, u = blank ++ (t ++ r) ∧ Blank blank ∧ Derives strtod (.value j) t ∧
      last = scan r := by
  obtain ⟨blank, w, rfl, hblank, hnext⟩ := token_char htype (by decide) (by decide) rfl
  simp only [parseInternal, htype, hnext] at h
  split_ifs at h with hempty
  · obtain ⟨rfl, rfl⟩ := Prod.mk.inj (Except.ok.inj h)
    obtain ⟨inside, r, rfl, hinside, hnext'⟩ := token_char hempty (by decide) (by decide) rfl
    refine ⟨blank, _, r, ?_, hblank, .emptyObject hinside, hnext'⟩
    simp
  · obtain ⟨_, hunexpect, h⟩ := bind_eq_ok h
    obtain ⟨v, t, ms, r, henters, rfl, hderives, rfl, rfl⟩ := hpairs _ _ _ _ h
    rw [Enters, if_neg (type_of_unexpect hunexpect)] at henters
    subst henters
    refine ⟨blank, _, r, ?_, hblank, .object hderives, rfl⟩
    simp

theorem sound_array {fuel : Nat} (hvalues : SoundValues strtod fuel) {u : Text} {j : Json}
    {last : Token} (htype : (scan u).type = .beginArray)
    (h : parseInternal strtod (fuel + 1) (scan u) = .ok (j, last)) :
    ∃ blank t r, u = blank ++ (t ++ r) ∧ Blank blank ∧ Derives strtod (.value j) t ∧
      last = scan r := by
  obtain ⟨blank, w, rfl, hblank, hnext⟩ := token_char htype (by decide) (by decide) rfl
  simp only [parseInternal, htype, hnext] at h
  split_ifs at h with hempty
  · obtain ⟨rfl, rfl⟩ := Prod.mk.inj (Except.ok.inj h)
    obtain ⟨inside, r, rfl, hinside, hnext'⟩ := token_char hempty (by decide) (by decide) rfl
    refine ⟨blank, _, r, ?_, hblank, .emptyArray hinside, hnext'⟩
    simp
  · obtain ⟨_, hunexpect, h⟩ := bind_eq_ok h
    obtain ⟨v, t, js, r, henters, rfl, hderives, rfl, rfl⟩ := hvalues _ _ _ _ h
    rw [Enters, if_neg (type_of_unexpect hunexpect)] at henters
    subst henters
    refine ⟨blank, _, r, ?_, hblank, .array hderives, rfl⟩
    simp

/-- **What the recursion has taken is derived**, in all three of its functions. -/
theorem sound (fuel : Nat) :
    SoundInternal strtod fuel ∧ SoundPairs strtod fuel ∧ SoundValues strtod fuel := by
  induction fuel with
  | zero =>
    refine ⟨?_, ?_, ?_⟩
    · intro u j last h; cases h
    · intro u members j last h; cases h
    · intro u elements j last h; cases h
  | succ fuel ih =>
    obtain ⟨hinternal, hpairs, hvalues⟩ := ih
    refine ⟨?_, sound_pairs hinternal hpairs, sound_values hinternal hvalues⟩
    intro u j last h
    by_cases hobject : (scan u).type = .beginObject
    · exact sound_object hpairs hobject h
    by_cases harray : (scan u).type = .beginArray
    · exact sound_array hvalues harray h
    exact parseInternal_leaf hobject harray h

theorem end_of_input {u : Text} (h : (scan u).type = .endOfInput) :
    ∃ blank rest, u = blank ++ rest ∧ Blank blank ∧ Ends rest := by
  obtain ⟨blank, rest, rfl, hblank, hhead⟩ := exists_blank u
  refine ⟨blank, rest, rfl, hblank, ?_⟩
  rw [scan_blank hblank] at h
  cases rest with
  | nil => exact Or.inl rfl
  | cons c rest =>
    have hc := hhead c rest rfl
    cases hlongest : automaton.longest .start (c :: rest) with
    | none =>
      rw [scan_of_none hc hlongest] at h
      cases h
    | some found =>
      obtain ⟨t, n⟩ := found
      obtain ⟨_, hmem, _⟩ := Automaton.longest_eq_some_iff.mp hlongest
      rw [scan_of_longest hc hlongest] at h
      obtain rfl : t = .endOfInput := h
      rw [language_start, Grammar.lexeme, Grammar.mem_word] at hmem
      cases n with
      | zero => cases hmem
      | succ n =>
        rw [List.take_succ_cons] at hmem
        exact Or.inr ⟨rest, by rw [(List.cons.inj hmem).1]⟩

theorem accepted_of_parse {text : Text} {j : Json} (h : parse strtod text = .ok j) :
    Accepted strtod text j := by
  obtain ⟨⟨result, last⟩, hresult, h⟩ := bind_eq_ok h
  obtain ⟨_, hexpect, h⟩ := bind_eq_ok h
  obtain rfl := Except.ok.inj h
  obtain ⟨before, t, r, rfl, hbefore, hderives, rfl⟩ := (sound _).1 _ _ _ hresult
  obtain ⟨after, rest, rfl, hafter, hrest⟩ := end_of_input (type_of_expect hexpect)
  refine ⟨before ++ (t ++ after), rest, ?_, .element hbefore hafter hderives, hrest⟩
  simp

end IsmDevice.Json
