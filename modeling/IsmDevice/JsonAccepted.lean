import IsmDevice.JsonParser

/-!
# Which texts the parser accepts

Every derived text is accepted, whatever stands behind its end, and no text takes more
fuel than `parse` gives.
-/

namespace IsmDevice.Json

open LongestMatch Computability Lexer

variable {strtod : Text → Float}

/-! ### What is derived is accepted -/

/-- What may stand behind a value: nothing that a number could go on with. -/
def Follows (rest : Text) : Prop := ∀ c after, rest = c :: after → c ∉ numberChars

theorem follows_char {c : Char} (hc : c ∉ numberChars) (after : Text) : Follows (c :: after) := by
  intro d rest heq
  rwa [← (List.cons.inj heq).1]

/-- The delimiters behind a value. -/
theorem follows_delimiter {c : Char} (hc : c ∈ [',', ']', '}']) (after : Text) :
    Follows (c :: after) := by
  apply follows_char
  simp only [List.mem_cons, List.not_mem_nil, or_false] at hc
  rcases hc with rfl | rfl | rfl <;> simp [numberChars, digits, char_le_iff]

theorem follows_blank {blank rest : Text} (hblank : Blank blank) (hrest : Follows rest) :
    Follows (blank ++ rest) := by
  cases blank with
  | nil => exact hrest
  | cons c blank =>
    apply follows_char
    have hc := hblank c List.mem_cons_self
    simp only [whitespace, Set.mem_insert_iff, Set.mem_singleton_iff] at hc
    rcases hc with rfl | rfl | rfl | rfl <;> simp [numberChars, digits, char_le_iff]

theorem scan_char {c : Char} {type : TokenType} (hchar : Grammar.lexeme type = Grammar.word [c])
    (htype : type ≠ .valueNumber) (rest : Text) : scan (c :: rest) = ⟨type, [c], rest⟩ := by
  have hlex : [c] ∈ Grammar.lexeme type := by rw [hchar, Grammar.mem_word]
  exact scan_lexeme hlex fun h => absurd h htype

/-- The tokens a value begins with. -/
def StartsValue (last : Token) : Prop :=
  last.type ≠ .valueSeparator ∧ last.type ≠ .endArray ∧ last.type ≠ .endObject

theorem startsValue {type : TokenType} {lexeme rest : Text}
    (h : type ≠ .valueSeparator ∧ type ≠ .endArray ∧ type ≠ .endObject) :
    StartsValue ⟨type, lexeme, rest⟩ := h

variable (strtod) in
/-- What the parser does with a derived text, whatever stands behind it. -/
def Complete : Phrase → Text → Prop
  | .value j, t => ∀ rest fuel, Follows rest → t.length ≤ fuel →
      StartsValue (scan (t ++ rest)) ∧
        parseInternal strtod fuel (scan (t ++ rest)) = .ok (j, scan rest)
  | .element j, t => ∀ rest fuel, Follows rest → t.length ≤ fuel →
      StartsValue (scan (t ++ rest)) ∧
        parseInternal strtod fuel (scan (t ++ rest)) = .ok (j, scan rest)
  | .member key j, t => ∀ rest fuel members, Follows rest → t.length ≤ fuel →
      StartsValue (scan (t ++ rest)) ∧
        parsePairs strtod (fuel + 1) (scan (t ++ rest)) members =
          if (scan rest).type = .valueSeparator then
            parsePairs strtod fuel (scan rest) (assign key j members)
          else do
            expect .endObject (scan rest)
            return (.object (assign key j members), getToken (scan rest))
  | .elements js, t => ∀ rest fuel elements, t.length < fuel →
      StartsValue (scan (t ++ ']' :: rest)) ∧
        parseValues strtod fuel (scan (t ++ ']' :: rest)) elements =
          .ok (.array (elements ++ js), scan rest)
  | .members ms, t => ∀ rest fuel members, t.length < fuel →
      StartsValue (scan (t ++ '}' :: rest)) ∧
        parsePairs strtod fuel (scan (t ++ '}' :: rest)) members =
          .ok (.object (ms.foldl (fun members pair => assign pair.1 pair.2 members) members),
            scan rest)

/-- A value that is one token. -/
theorem complete_leaf {type : TokenType} {lexeme rest : Text} {j : Json} {fuel : Nat}
    (hlexeme : lexeme ∈ Grammar.lexeme type) (hrest : Follows rest)
    (hfuel : lexeme.length ≤ fuel)
    (hstarts : type ≠ .valueSeparator ∧ type ≠ .endArray ∧ type ≠ .endObject)
    (h : ∀ fuel, parseInternal strtod (fuel + 1) ⟨type, lexeme, rest⟩ = .ok (j, scan rest)) :
    StartsValue (scan (lexeme ++ rest)) ∧
      parseInternal strtod fuel (scan (lexeme ++ rest)) = .ok (j, scan rest) := by
  obtain ⟨c, more, rfl, _⟩ := head_of_lexeme hlexeme
  obtain ⟨fuel, rfl⟩ : ∃ n, fuel = n + 1 := ⟨fuel - 1, by simp at hfuel; omega⟩
  rw [scan_lexeme hlexeme fun _ => hrest]
  exact ⟨startsValue hstarts, h fuel⟩

/-- The loops go on behind a separator as if it were not there. -/
theorem parseValues_separator {w : Text} (hw : StartsValue (scan w)) (fuel : Nat)
    (elements : List Json) :
    parseValues strtod fuel (scan (',' :: w)) elements =
      parseValues strtod fuel (scan w) elements := by
  have hscan := @scan_char ',' .valueSeparator rfl (by decide) w
  cases fuel with
  | zero => rfl
  | succ fuel =>
    rw [parseValues, parseValues]
    simp only [hscan, if_true, getToken, if_neg hw.1]

theorem parsePairs_separator {w : Text} (hw : StartsValue (scan w)) (fuel : Nat)
    (members : List (String × Json)) :
    parsePairs strtod fuel (scan (',' :: w)) members = parsePairs strtod fuel (scan w) members := by
  have hscan := @scan_char ',' .valueSeparator rfl (by decide) w
  cases fuel with
  | zero => rfl
  | succ fuel =>
    rw [parsePairs, parsePairs]
    simp only [hscan, if_true, getToken, if_neg hw.1]

theorem string_lexeme {raw s : Text} (h : Spells raw s) :
    '"' :: (raw ++ ['"']) ∈ Grammar.lexeme .valueString := by
  rw [Grammar.lexeme, Grammar.string, cons_mem_oneOf_mul, Language.mem_mul]
  exact ⟨rfl, raw, mem_character_of_spells h, ['"'], ⟨'"', rfl, rfl⟩, rfl⟩

theorem stringOf_of_spells {raw s : Text} (h : Spells raw s) (rest : Text) :
    stringOf ⟨.valueString, '"' :: (raw ++ ['"']), rest⟩ = .ok (String.ofList s) := by
  rw [stringOf, (getString_eq_ok_iff (mem_character_of_spells h)).mpr h]

theorem complete_string {raw s : Text} (h : Spells raw s) :
    Complete strtod (.value (.string (String.ofList s))) ('"' :: (raw ++ ['"'])) := by
  intro rest fuel hrest hfuel
  refine complete_leaf (string_lexeme h) hrest hfuel (by decide) ?_
  intro fuel
  rw [parseInternal]
  simp only [stringOf_of_spells h]
  rfl

theorem complete_emptyArray {blank : Text} (h : Blank blank) :
    Complete strtod (.value (.array [])) ('[' :: (blank ++ [']'])) := by
  intro rest fuel hrest hfuel
  obtain ⟨fuel, rfl⟩ : ∃ n, fuel = n + 1 := ⟨fuel - 1, by simp at hfuel; omega⟩
  have hopen := @scan_char '[' .beginArray rfl (by decide) (blank ++ ']' :: rest)
  have hclose := @scan_char ']' .endArray rfl (by decide) rest
  simp only [List.cons_append, List.append_assoc, List.nil_append, hopen]
  refine ⟨startsValue (by decide), ?_⟩
  simp only [parseInternal, getToken, scan_blank h, hclose, if_true]

theorem complete_emptyObject {blank : Text} (h : Blank blank) :
    Complete strtod (.value (.object [])) ('{' :: (blank ++ ['}'])) := by
  intro rest fuel hrest hfuel
  obtain ⟨fuel, rfl⟩ : ∃ n, fuel = n + 1 := ⟨fuel - 1, by simp at hfuel; omega⟩
  have hopen := @scan_char '{' .beginObject rfl (by decide) (blank ++ '}' :: rest)
  have hclose := @scan_char '}' .endObject rfl (by decide) rest
  simp only [List.cons_append, List.append_assoc, List.nil_append, hopen]
  refine ⟨startsValue (by decide), ?_⟩
  simp only [parseInternal, getToken, scan_blank h, hclose, if_true]

theorem expect_ok {t : TokenType} {last : Token} (h : last.type = t) : expect t last = .ok () := by
  rw [expect, if_neg (not_not.mpr h.symm)]

theorem unexpect_ok {t : TokenType} {last : Token} (h : last.type ≠ t) :
    unexpect t last = .ok () := by
  rw [unexpect, if_neg h.symm]

theorem complete_array {js : List Json} {t : Text} (ih : Complete strtod (.elements js) t) :
    Complete strtod (.value (.array js)) ('[' :: (t ++ [']'])) := by
  intro rest fuel hrest hfuel
  rw [List.length_cons, List.length_append, List.length_singleton] at hfuel
  obtain ⟨fuel, rfl⟩ : ∃ n, fuel = n + 1 := ⟨fuel - 1, by omega⟩
  have hopen := @scan_char '[' .beginArray rfl (by decide) (t ++ ']' :: rest)
  obtain ⟨hstarts, hvalues⟩ := ih rest fuel [] (by omega)
  simp only [List.cons_append, List.append_assoc, List.nil_append, hopen]
  refine ⟨startsValue (by decide), ?_⟩
  simp only [parseInternal, getToken, if_neg hstarts.2.1, unexpect_ok hstarts.1]
  exact hvalues

theorem complete_object {ms : List (String × Json)} {t : Text}
    (ih : Complete strtod (.members ms) t) :
    Complete strtod (.value (.object (assignAll ms))) ('{' :: (t ++ ['}'])) := by
  intro rest fuel hrest hfuel
  rw [List.length_cons, List.length_append, List.length_singleton] at hfuel
  obtain ⟨fuel, rfl⟩ : ∃ n, fuel = n + 1 := ⟨fuel - 1, by omega⟩
  have hopen := @scan_char '{' .beginObject rfl (by decide) (t ++ '}' :: rest)
  obtain ⟨hstarts, hpairs⟩ := ih rest fuel [] (by omega)
  simp only [List.cons_append, List.append_assoc, List.nil_append, hopen]
  refine ⟨startsValue (by decide), ?_⟩
  simp only [parseInternal, getToken, if_neg hstarts.2.2, unexpect_ok hstarts.1]
  exact hpairs

theorem complete_element {j : Json} {before t after : Text} (hbefore : Blank before)
    (hafter : Blank after) (ih : Complete strtod (.value j) t) :
    Complete strtod (.element j) (before ++ (t ++ after)) := by
  intro rest fuel hrest hfuel
  rw [List.length_append, List.length_append] at hfuel
  have hvalue := ih (after ++ rest) fuel (follows_blank hafter hrest) (by omega)
  rw [scan_blank hafter] at hvalue
  rwa [List.append_assoc, scan_blank hbefore, List.append_assoc]

theorem complete_member {j : Json} {before raw key between t : Text} (hbefore : Blank before)
    (hbetween : Blank between) (hkey : Spells raw key) (ih : Complete strtod (.element j) t) :
    Complete strtod (.member (String.ofList key) j)
      (before ++ ('"' :: (raw ++ '"' :: (between ++ ':' :: t)))) := by
  intro rest fuel members hrest hfuel
  have hvalue := (ih rest fuel hrest (by simp at hfuel; omega)).2
  have hscan : scan (before ++ ('"' :: (raw ++ '"' :: (between ++ ':' :: t))) ++ rest) =
      ⟨.valueString, '"' :: (raw ++ ['"']), between ++ ':' :: (t ++ rest)⟩ := by
    have hlexeme := @scan_lexeme _ _ (between ++ ':' :: (t ++ rest)) (string_lexeme hkey)
      (fun h => absurd h (by decide))
    rw [List.append_assoc, scan_blank hbefore, ← hlexeme]
    simp
  have hcolon := @scan_char ':' .nameSeparator rfl (by decide) (t ++ rest)
  rw [hscan]
  refine ⟨startsValue (by decide), ?_⟩
  have hstring : TokenType.valueString ≠ .valueSeparator := by decide
  rw [parsePairs]
  simp only [getToken, if_neg hstring, expect_ok, stringOf_of_spells hkey, scan_blank hbetween,
    hcolon, hvalue, bind, Except.bind]

/-- The loop over values ends behind the last one. -/
theorem complete_lastElement {j : Json} {t : Text} (ih : Complete strtod (.element j) t) :
    Complete strtod (.elements [j]) t := by
  intro rest fuel elements hfuel
  obtain ⟨fuel, rfl⟩ : ∃ n, fuel = n + 1 := ⟨fuel - 1, by omega⟩
  have hclose := @scan_char ']' .endArray rfl (by decide) rest
  obtain ⟨hstarts, hvalue⟩ := ih (']' :: rest) fuel (follows_delimiter (by decide) _) (by omega)
  refine ⟨hstarts, ?_⟩
  rw [parseValues]
  simp only [if_neg hstarts.1, hvalue, hclose]
  rfl

theorem complete_moreElements {j : Json} {js : List Json} {t t' : Text}
    (ih : Complete strtod (.element j) t) (ihrest : Complete strtod (.elements js) t') :
    Complete strtod (.elements (j :: js)) (t ++ ',' :: t') := by
  intro rest fuel elements hfuel
  rw [List.length_append, List.length_cons] at hfuel
  obtain ⟨fuel, rfl⟩ : ∃ n, fuel = n + 1 := ⟨fuel - 1, by omega⟩
  obtain ⟨hstarts', hvalues⟩ := ihrest rest fuel (elements ++ [j]) (by omega)
  have hcomma := @scan_char ',' .valueSeparator rfl (by decide) (t' ++ ']' :: rest)
  obtain ⟨hstarts, hvalue⟩ :=
    ih (',' :: (t' ++ ']' :: rest)) fuel (follows_delimiter (by decide) _) (by omega)
  rw [List.append_assoc, List.cons_append]
  refine ⟨hstarts, ?_⟩
  rw [parseValues]
  simp only [if_neg hstarts.1, hvalue]
  show (if (scan (',' :: (t' ++ ']' :: rest))).type = .valueSeparator then
    parseValues strtod fuel (scan (',' :: (t' ++ ']' :: rest))) (elements ++ [j]) else _) = _
  rw [if_pos (by rw [hcomma]), parseValues_separator hstarts', hvalues, List.append_assoc]
  rfl

theorem complete_lastMember {key : String} {j : Json} {t : Text}
    (ih : Complete strtod (.member key j) t) : Complete strtod (.members [(key, j)]) t := by
  intro rest fuel members hfuel
  obtain ⟨fuel, rfl⟩ : ∃ n, fuel = n + 1 := ⟨fuel - 1, by omega⟩
  have hclose := @scan_char '}' .endObject rfl (by decide) rest
  obtain ⟨hstarts, hpair⟩ :=
    ih ('}' :: rest) fuel members (follows_delimiter (by decide) _) (by omega)
  refine ⟨hstarts, ?_⟩
  rw [hpair, hclose]
  rfl

theorem complete_moreMembers {key : String} {j : Json} {ms : List (String × Json)} {t t' : Text}
    (ih : Complete strtod (.member key j) t) (ihrest : Complete strtod (.members ms) t') :
    Complete strtod (.members ((key, j) :: ms)) (t ++ ',' :: t') := by
  intro rest fuel members hfuel
  rw [List.length_append, List.length_cons] at hfuel
  obtain ⟨fuel, rfl⟩ : ∃ n, fuel = n + 1 := ⟨fuel - 1, by omega⟩
  obtain ⟨hstarts', hpairs⟩ := ihrest rest fuel (assign key j members) (by omega)
  have hcomma := @scan_char ',' .valueSeparator rfl (by decide) (t' ++ '}' :: rest)
  obtain ⟨hstarts, hpair⟩ :=
    ih (',' :: (t' ++ '}' :: rest)) fuel members (follows_delimiter (by decide) _) (by omega)
  rw [List.append_assoc, List.cons_append]
  refine ⟨hstarts, ?_⟩
  rw [hpair, if_pos (by rw [hcomma]), parsePairs_separator hstarts', hpairs]
  rfl

/-- **The parser reads every derived text**, and stops behind it. -/
theorem complete {φ : Phrase} {t : Text} (h : Derives strtod φ t) : Complete strtod φ t := by
  have hliteral : ∀ {type : TokenType} {word : Text} {j : Json},
      Grammar.lexeme type = Grammar.word word →
      type ≠ .valueSeparator ∧ type ≠ .endArray ∧ type ≠ .endObject →
      (∀ fuel rest, parseInternal strtod (fuel + 1) ⟨type, word, rest⟩ = .ok (j, scan rest)) →
        Complete strtod (.value j) word := by
    intro type word j hlexeme hstarts hparse rest fuel hrest hfuel
    exact complete_leaf (by rw [hlexeme, Grammar.mem_word]) hrest hfuel hstarts
      fun fuel => hparse fuel rest
  induction h with
  | null => exact @hliteral .literalNull _ _ rfl (by decide) fun _ _ => rfl
  | literalTrue => exact @hliteral .literalTrue _ _ rfl (by decide) fun _ _ => rfl
  | literalFalse => exact @hliteral .literalFalse _ _ rfl (by decide) fun _ _ => rfl
  | number hnumber =>
    intro rest fuel hrest hfuel
    exact @complete_leaf _ .valueNumber _ _ _ _ hnumber hrest hfuel (by decide) fun _ => rfl
  | string hspells => exact complete_string hspells
  | emptyArray hblank => exact complete_emptyArray hblank
  | array _ ih => exact complete_array ih
  | emptyObject hblank => exact complete_emptyObject hblank
  | object _ ih => exact complete_object ih
  | element hbefore hafter _ ih => exact complete_element hbefore hafter ih
  | member hbefore hbetween hkey _ ih => exact complete_member hbefore hbetween hkey ih
  | lastElement _ ih => exact complete_lastElement ih
  | moreElements _ _ ih ihrest => exact complete_moreElements ih ihrest
  | lastMember _ ih => exact complete_lastMember ih
  | moreMembers _ _ ih ihrest => exact complete_moreMembers ih ihrest

theorem parse_eq_ok_iff {text : Text} {j : Json} :
    parse strtod text = .ok j ↔ Accepted strtod text j := by
  constructor
  · exact accepted_of_parse
  · rintro ⟨t, rest, rfl, hderives, hrest⟩
    have hfollows : Follows rest := by
      rcases hrest with rfl | ⟨after, rfl⟩
      · exact fun c after h => nomatch h
      · exact follows_char (by simp [numberChars, digits, char_le_iff]) after
    have hend : (scan rest).type = .endOfInput := by
      rcases hrest with rfl | ⟨after, rfl⟩
      · rfl
      · rw [@scan_char '\x00' .endOfInput rfl (by decide)]
    obtain ⟨_, hparse⟩ := complete hderives rest (2 * (t ++ rest).length + 3) hfollows
      (by rw [List.length_append]; omega)
    rw [parse, hparse]
    simp only [bind, Except.bind, expect_ok hend]
    rfl

/-! ### The fuel is enough

Every call of `parseInternal` takes a token, and each round of a loop takes two calls. -/

theorem derives_ne_nil {j : Json} {t : Text} (h : Derives strtod (.value j) t) : t ≠ [] := by
  cases h with
  | number hnumber =>
    obtain ⟨c, rest, rfl, _⟩ := @head_of_lexeme .valueNumber t hnumber
    exact List.cons_ne_nil c rest
  | _ => exact List.cons_ne_nil _ _

theorem bind_eq_outOfFuel {α β : Type} {x : Except Failure α} {f : α → Except Failure β}
    (h : x >>= f = .error .outOfFuel) :
    x = .error .outOfFuel ∨ ∃ a, x = .ok a ∧ f a = .error .outOfFuel := by
  cases x with
  | error e => exact Or.inl (congrArg Except.error (Except.error.inj h))
  | ok a => exact Or.inr ⟨a, rfl, h⟩

theorem expect_ne_outOfFuel (t : TokenType) (last : Token) :
    expect t last ≠ .error .outOfFuel := by
  rw [expect]
  split_ifs <;> simp

theorem unexpect_ne_outOfFuel (t : TokenType) (last : Token) :
    unexpect t last ≠ .error .outOfFuel := by
  rw [unexpect]
  split_ifs <;> simp

theorem stringOf_ne_outOfFuel (last : Token) : stringOf last ≠ .error .outOfFuel := by
  rw [stringOf]
  split <;> simp

variable (strtod) in
/-- What is enough for each of the three. -/
def Enough (fuel : Nat) : Prop :=
  (∀ u : Text, 2 * u.length + 1 ≤ fuel →
    parseInternal strtod fuel (scan u) ≠ .error .outOfFuel) ∧
  (∀ (u : Text) members, 2 * u.length + 2 ≤ fuel →
    parsePairs strtod fuel (scan u) members ≠ .error .outOfFuel) ∧
  (∀ (u : Text) elements, 2 * u.length + 2 ≤ fuel →
    parseValues strtod fuel (scan u) elements ≠ .error .outOfFuel)

/-- A value leaves less of the text. -/
theorem length_of_internal {fuel : Nat} {u : Text} {j : Json} {last : Token}
    (h : parseInternal strtod fuel (scan u) = .ok (j, last)) :
    ∃ r, last = scan r ∧ r.length < u.length := by
  obtain ⟨before, t, r, rfl, _, hderives, rfl⟩ := (sound fuel).1 u j last h
  have hpos := List.length_pos_iff.mpr (derives_ne_nil hderives)
  refine ⟨r, rfl, ?_⟩
  rw [List.length_append, List.length_append]
  omega

theorem length_of_separator (u : Text) :
    ∃ v, (if (scan u).type = .valueSeparator then getToken (scan u) else scan u) = scan v ∧
      v.length ≤ u.length := by
  obtain ⟨v, hv, henters⟩ := token_separator u
  refine ⟨v, hv, ?_⟩
  split_ifs at henters
  · obtain ⟨blank, _, rfl⟩ := henters
    simp
    omega
  · rw [henters]

theorem enough_values {fuel : Nat} (ih : Enough strtod fuel) (u : Text) (elements : List Json)
    (hfuel : 2 * u.length + 2 ≤ fuel + 1) :
    parseValues strtod (fuel + 1) (scan u) elements ≠ .error .outOfFuel := by
  obtain ⟨v, hv, hlength⟩ := length_of_separator u
  intro h
  rw [parseValues] at h
  simp only [hv] at h
  rcases bind_eq_outOfFuel h with h | ⟨⟨value, last⟩, hvalue, h⟩
  · exact ih.1 v (by omega) h
  obtain ⟨r, rfl, hr⟩ := length_of_internal hvalue
  by_cases htype : (scan r).type = .valueSeparator
  · simp only [htype, if_true] at h
    exact ih.2.2 r _ (by omega) h
  · simp only [htype, if_false] at h
    rcases bind_eq_outOfFuel h with h | ⟨_, _, h⟩
    · exact expect_ne_outOfFuel _ _ h
    · cases h

theorem enough_pairs {fuel : Nat} (ih : Enough strtod fuel) (u : Text)
    (members : List (String × Json)) (hfuel : 2 * u.length + 2 ≤ fuel + 1) :
    parsePairs strtod (fuel + 1) (scan u) members ≠ .error .outOfFuel := by
  obtain ⟨v, hv, hlength⟩ := length_of_separator u
  intro h
  rw [parsePairs] at h
  simp only [hv] at h
  rcases bind_eq_outOfFuel h with h | ⟨_, hstring, h⟩
  · exact expect_ne_outOfFuel _ _ h
  rcases bind_eq_outOfFuel h with h | ⟨key, hkey, h⟩
  · exact stringOf_ne_outOfFuel _ h
  obtain ⟨before, raw, s, v₁, rfl, _, _, _, hnext₁⟩ := token_string (type_of_expect hstring) hkey
  rw [hnext₁] at h
  rcases bind_eq_outOfFuel h with h | ⟨_, hcolon, h⟩
  · exact expect_ne_outOfFuel _ _ h
  obtain ⟨between, v₂, rfl, _, hnext₂⟩ :=
    token_char (type_of_expect hcolon) (by decide) (by decide) rfl
  rw [hnext₂] at h
  have hshorter : v₂.length < u.length := by
    simp at hlength
    omega
  rcases bind_eq_outOfFuel h with h | ⟨⟨value, last⟩, hvalue, h⟩
  · exact ih.1 v₂ (by omega) h
  obtain ⟨r, rfl, hr⟩ := length_of_internal hvalue
  by_cases htype : (scan r).type = .valueSeparator
  · simp only [htype, if_true] at h
    exact ih.2.1 r _ (by omega) h
  · simp only [htype, if_false] at h
    rcases bind_eq_outOfFuel h with h | ⟨_, _, h⟩
    · exact expect_ne_outOfFuel _ _ h
    · cases h

theorem enough_internal {fuel : Nat} (ih : Enough strtod fuel) (u : Text)
    (hfuel : 2 * u.length + 1 ≤ fuel + 1) :
    parseInternal strtod (fuel + 1) (scan u) ≠ .error .outOfFuel := by
  intro h
  rw [parseInternal] at h
  have hopened : ∀ {c : Char} {type : TokenType}, (scan u).type = type → type ≠ .parseError →
      type ≠ .endOfInput → Grammar.lexeme type = Grammar.word [c] →
        ∃ w, getToken (scan u) = scan w ∧ w.length < u.length := by
    intro c type htype herror hend hchar
    obtain ⟨blank, w, rfl, _, hnext⟩ := token_char htype herror hend hchar
    exact ⟨w, hnext, by simp; omega⟩
  cases htype : (scan u).type with
  | beginObject =>
    obtain ⟨w, hnext, hw⟩ := hopened htype (by decide) (by decide) rfl
    rw [htype, hnext] at h
    dsimp only at h
    split_ifs at h
    rcases bind_eq_outOfFuel h with h | ⟨_, _, h⟩
    · exact unexpect_ne_outOfFuel _ _ h
    · exact ih.2.1 w _ (by omega) h
  | beginArray =>
    obtain ⟨w, hnext, hw⟩ := hopened htype (by decide) (by decide) rfl
    rw [htype, hnext] at h
    dsimp only at h
    split_ifs at h
    rcases bind_eq_outOfFuel h with h | ⟨_, _, h⟩
    · exact unexpect_ne_outOfFuel _ _ h
    · exact ih.2.2 w _ (by omega) h
  | valueString =>
    rw [htype] at h
    rcases bind_eq_outOfFuel h with h | ⟨_, _, h⟩
    · exact stringOf_ne_outOfFuel _ h
    · cases h
  | _ =>
    rw [htype] at h
    cases h

theorem enough (fuel : Nat) : Enough strtod fuel := by
  induction fuel with
  | zero =>
    refine ⟨?_, ?_, ?_⟩
    · intro u hfuel; omega
    · intro u members hfuel; omega
    · intro u elements hfuel; omega
  | succ fuel ih => exact ⟨enough_internal ih, enough_pairs ih, enough_values ih⟩

theorem parse_ne_outOfFuel (text : Text) : parse strtod text ≠ .error .outOfFuel := by
  intro h
  rcases bind_eq_outOfFuel h with h | ⟨⟨result, last⟩, _, h⟩
  · exact (enough _).1 text (by omega) h
  · rcases bind_eq_outOfFuel h with h | ⟨_, _, h⟩
    · exact expect_ne_outOfFuel _ _ h
    · cases h

end IsmDevice.Json
