import Mathlib.Data.String.Basic
import IsmDevice.JsonAccepted
import IsmDevice.Lib.Printf

/-!
# The values the parser returns

The members of an object that was parsed stand in the order of their keys, each key
once, and every string is UTF-8, as is the text itself up to the first NUL.  Behind a
NUL nothing is read, so that the text of a buffer and that of the C string in it have
the same value.
-/

namespace IsmDevice.Json

open LongestMatch Computability Lexer

/-! ### Ordered values -/

def SortedKeys (members : List (String × Json)) : Prop := members.Pairwise fun a b => a.1 < b.1

mutual

/-- The members of every object in a value stand in the order of a `std::map`. -/
def Ordered : Json → Prop
  | .array elements => OrderedElements elements
  | .object members => SortedKeys members ∧ OrderedMembers members
  | .null => True
  | .boolean _ => True
  | .numberInteger _ => True
  | .numberUnsigned _ => True
  | .numberFloat _ => True
  | .string _ => True

def OrderedElements : List Json → Prop
  | [] => True
  | e :: rest => Ordered e ∧ OrderedElements rest

def OrderedMembers : List (String × Json) → Prop
  | [] => True
  | (_, v) :: rest => Ordered v ∧ OrderedMembers rest

end

theorem orderedElements_iff {elements : List Json} :
    OrderedElements elements ↔ ∀ e ∈ elements, Ordered e := by
  induction elements with
  | nil => simp [OrderedElements]
  | cons e rest ih => rw [OrderedElements, ih, List.forall_mem_cons]

theorem orderedMembers_iff {members : List (String × Json)} :
    OrderedMembers members ↔ ∀ m ∈ members, Ordered m.2 := by
  induction members with
  | nil => simp [OrderedMembers]
  | cons m rest ih =>
    obtain ⟨k, v⟩ := m
    rw [OrderedMembers, ih, List.forall_mem_cons]

theorem mem_stringsOfElements {elements : List Json} {s : String} :
    s ∈ stringsOfElements elements ↔ ∃ e ∈ elements, s ∈ e.strings := by
  induction elements with
  | nil => simp [stringsOfElements]
  | cons e rest ih =>
    simp only [stringsOfElements, List.mem_append, ih, List.mem_cons, exists_eq_or_imp]

def Utf8String (s : String) : Prop := Utf8.Encoded (codes s.toList)

theorem utf8String_of_ascii {s : String} (h : (s.toList.all fun c => c.toNat ≤ 0x7F) = true) :
    Utf8String s :=
  encoded_of_ascii (ascii_of_all h)

/-- A value as the parser returns it. -/
structure WellFormed (j : Json) : Prop where
  ordered : j.Ordered
  utf8 : ∀ s ∈ j.strings, Utf8String s

theorem wellFormed_string_iff {s : String} : (Json.string s).WellFormed ↔ Utf8String s := by
  constructor
  · intro h
    exact h.utf8 s (by rw [strings]; exact List.mem_singleton_self s)
  · intro h
    refine ⟨by rw [Ordered]; trivial, ?_⟩
    intro t ht
    rw [strings, List.mem_singleton] at ht
    rwa [ht]

theorem wellFormed_array_iff {elements : List Json} :
    (Json.array elements).WellFormed ↔ ∀ e ∈ elements, e.WellFormed := by
  have hstrings : ∀ s, s ∈ (Json.array elements).strings ↔ ∃ e ∈ elements, s ∈ e.strings := by
    intro s
    rw [strings, mem_stringsOfElements]
  constructor
  · intro h e he
    have hordered := h.ordered
    rw [Ordered, orderedElements_iff] at hordered
    exact ⟨hordered e he, fun s hs => h.utf8 s ((hstrings s).mpr ⟨e, he, hs⟩)⟩
  · intro h
    refine ⟨?_, ?_⟩
    · rw [Ordered, orderedElements_iff]
      exact fun e he => (h e he).ordered
    · intro s hs
      obtain ⟨e, he, hse⟩ := (hstrings s).mp hs
      exact (h e he).utf8 s hse

theorem wellFormed_object_iff {members : List (String × Json)} :
    (Json.object members).WellFormed ↔
      SortedKeys members ∧ ∀ m ∈ members, Utf8String m.1 ∧ m.2.WellFormed := by
  have hstrings : ∀ s, s ∈ (Json.object members).strings ↔
      ∃ m ∈ members, s = m.1 ∨ s ∈ m.2.strings := by
    intro s
    rw [strings, mem_stringsOfMembers]
  constructor
  · intro h
    have hordered := h.ordered
    rw [Ordered, orderedMembers_iff] at hordered
    refine ⟨hordered.1, fun m hm => ⟨?_, hordered.2 m hm, ?_⟩⟩
    · exact h.utf8 _ ((hstrings _).mpr ⟨m, hm, Or.inl rfl⟩)
    · exact fun s hs => h.utf8 s ((hstrings s).mpr ⟨m, hm, Or.inr hs⟩)
  · rintro ⟨hsorted, hmembers⟩
    refine ⟨?_, ?_⟩
    · rw [Ordered, orderedMembers_iff]
      exact ⟨hsorted, fun m hm => (hmembers m hm).2.ordered⟩
    · intro s hs
      obtain ⟨m, hm, rfl | hsm⟩ := (hstrings s).mp hs
      · exact (hmembers m hm).1
      · exact (hmembers m hm).2.utf8 s hsm

/-! ### Assignment to a map -/

/-- What is in the map after an assignment. -/
theorem mem_assign {key : String} {value : Json} {members : List (String × Json)}
    {m : String × Json} (h : m ∈ assign key value members) : m = (key, value) ∨ m ∈ members := by
  induction members with
  | nil => exact Or.inl (List.mem_singleton.mp h)
  | cons head rest ih =>
    obtain ⟨k, v⟩ := head
    rw [assign] at h
    split_ifs at h with heq hlt
    · subst heq
      exact (List.mem_cons.mp h).imp_right (List.mem_cons_of_mem _)
    · exact List.mem_cons.mp h
    · rcases List.mem_cons.mp h with rfl | h
      · exact Or.inr List.mem_cons_self
      · exact (ih h).imp_right (List.mem_cons_of_mem _)

theorem sortedKeys_assign {key : String} {value : Json} {members : List (String × Json)}
    (h : SortedKeys members) : SortedKeys (assign key value members) := by
  induction members with
  | nil => exact List.pairwise_singleton _ _
  | cons head rest ih =>
    obtain ⟨k, v⟩ := head
    obtain ⟨hhead, hrest⟩ := List.pairwise_cons.mp h
    rw [assign]
    split_ifs with heq hlt
    · exact List.pairwise_cons.mpr ⟨hhead, hrest⟩
    · refine List.pairwise_cons.mpr ⟨?_, h⟩
      intro m hm
      rcases List.mem_cons.mp hm with rfl | hm
      · exact hlt
      · exact String.lt_trans hlt (hhead m hm)
    · refine List.pairwise_cons.mpr ⟨?_, ih hrest⟩
      intro m hm
      rcases mem_assign hm with rfl | hm
      · exact lt_of_le_of_ne (String.not_lt.mp hlt) (Ne.symm heq)
      · exact hhead m hm

theorem lookup_assign {key : String} {value : Json} {members : List (String × Json)} (k : String) :
    (assign key value members).lookup k = if k = key then some value else members.lookup k := by
  have hcons : ∀ (k' : String) (v : Json) (rest : List (String × Json)),
      ((k', v) :: rest).lookup k = if k = k' then some v else rest.lookup k := by
    intro k' v rest
    rw [List.lookup_cons]
    by_cases h : k = k'
    · simp [h]
    · rw [if_neg h, beq_false_of_ne h]
  induction members with
  | nil => exact hcons key value []
  | cons head rest ih =>
    obtain ⟨k', v⟩ := head
    rw [assign]
    by_cases heq : key = k'
    · rw [if_pos heq, hcons, hcons, heq]
      by_cases hk : k = k'
      · rw [if_pos hk, if_pos hk]
      · rw [if_neg hk, if_neg hk, if_neg hk]
    by_cases hlt : key < k'
    · rw [if_neg heq, if_pos hlt, hcons]
    rw [if_neg heq, if_neg hlt, hcons, hcons, ih]
    by_cases hk : k = k'
    · rw [if_pos hk, if_pos hk, if_neg (hk ▸ Ne.symm heq)]
    · rw [if_neg hk, if_neg hk]

/-- **Of two pairs with one key the later one stays.** -/
theorem lookup_assignAll (pairs : List (String × Json)) (key : String) :
    (assignAll pairs).lookup key = pairs.reverse.lookup key := by
  induction pairs using List.reverseRecOn with
  | nil => rfl
  | append_singleton pairs pair ih =>
    rw [assignAll, List.foldl_append, List.foldl_cons, List.foldl_nil, ← assignAll, lookup_assign,
      ih, List.reverse_append, List.reverse_singleton, List.singleton_append, List.lookup_cons]
    by_cases h : key = pair.1
    · rw [if_pos h, h, beq_self_eq_true]
    · rw [if_neg h, beq_false_of_ne h]

theorem sortedKeys_assignAll (pairs : List (String × Json)) : SortedKeys (assignAll pairs) := by
  induction pairs using List.reverseRecOn with
  | nil => exact List.Pairwise.nil
  | append_singleton pairs pair ih =>
    rw [assignAll, List.foldl_append]
    exact sortedKeys_assign ih

theorem mem_assignAll {pairs : List (String × Json)} {m : String × Json}
    (h : m ∈ assignAll pairs) : m ∈ pairs := by
  induction pairs using List.reverseRecOn with
  | nil => exact h
  | append_singleton pairs pair ih =>
    rw [assignAll, List.foldl_append] at h
    rw [List.mem_append, List.mem_singleton]
    rcases mem_assign h with rfl | h
    · exact Or.inr rfl
    · exact Or.inl (ih h)

/-! ### Derived texts -/

/-- A text without a NUL, in UTF-8. -/
structure Clean (text : Text) : Prop where
  nul : '\x00' ∉ text
  utf8 : Utf8.Encoded (codes text)

theorem Clean.append {a b : Text} (ha : Clean a) (hb : Clean b) : Clean (a ++ b) := by
  refine ⟨?_, ?_⟩
  · rw [List.mem_append, not_or]
    exact ⟨ha.nul, hb.nul⟩
  · rw [codes_append]
    exact ha.utf8.append hb.utf8

/-- The characters of which every token consists, but for strings. -/
def Ascii (c : Char) : Prop := 0 < c.toNat ∧ c.toNat ≤ 0x7F

theorem clean_of_ascii {text : Text} (h : ∀ c ∈ text, Ascii c) : Clean text := by
  refine ⟨?_, encoded_of_ascii fun c hc => (h c hc).2⟩
  intro hmem
  exact absurd (h _ hmem).1 (by decide)

theorem Clean.cons {c : Char} {text : Text} (hc : Ascii c) (h : Clean text) :
    Clean (c :: text) := by
  have hclean : Clean [c] := by
    apply clean_of_ascii
    intro d hd
    rwa [List.mem_singleton.mp hd]
  exact hclean.append h

def numberLetters : Set Char := numberChars ∪ {'+', '-'}

theorem number_letters {lexeme : Text} (h : lexeme ∈ Grammar.number) :
    ∀ c ∈ lexeme, c ∈ numberLetters := by
  have hdigit : Grammar.digit ≤ (oneOf numberLetters)∗ :=
    oneOf_le_kstar fun c hc => Or.inl (Or.inl hc)
  have hdigits : Grammar.digit∗ ≤ (oneOf numberLetters)∗ := by
    have hmono := kstar_mono hdigit
    rwa [kstar_idem] at hmono
  have hsome := mul_le_kstar_oneOf hdigit hdigits
  have hinteger : Grammar.integer ≤ (oneOf numberLetters)∗ := by
    refine add_le (oneOf_le_kstar ?_) (mul_le_kstar_oneOf (oneOf_le_kstar ?_) hdigits)
    · rintro c rfl
      simp [numberLetters, numberChars, digits, char_le_iff]
    · intro c hc
      exact Or.inl (Or.inl ⟨le_trans (by decide) hc.1, hc.2⟩)
  have hfraction : Grammar.fraction ≤ (oneOf numberLetters)∗ := by
    refine mul_le_kstar_oneOf (oneOf_le_kstar ?_) hsome
    rintro c rfl
    simp [numberLetters, numberChars]
  have hexponent : Grammar.exponent ≤ (oneOf numberLetters)∗ := by
    refine mul_le_kstar_oneOf (oneOf_le_kstar ?_)
      (mul_le_kstar_oneOf (add_le one_le_kstar (oneOf_le_kstar ?_)) hsome)
    · rintro c (rfl | rfl) <;> simp [numberLetters, numberChars]
    · rintro c (rfl | rfl) <;> simp [numberLetters]
  have hsign : (1 : Language Char) + oneOf {'-'} ≤ (oneOf numberLetters)∗ := by
    refine add_le one_le_kstar (oneOf_le_kstar ?_)
    rintro c rfl
    simp [numberLetters]
  have hnumber : Grammar.number ≤ (oneOf numberLetters)∗ :=
    mul_le_kstar_oneOf hsign (mul_le_kstar_oneOf hinteger (mul_le_kstar_oneOf
      (add_le one_le_kstar hfraction) (add_le one_le_kstar hexponent)))
  exact mem_kstar_oneOf.mp (hnumber h)

theorem ascii_number {lexeme : Text} (h : lexeme ∈ Grammar.number) : ∀ c ∈ lexeme, Ascii c := by
  intro c hc
  have hletter := number_letters h c hc
  simp only [numberLetters, numberChars, digits, Set.mem_union, Set.mem_insert_iff,
    Set.mem_singleton_iff, Set.mem_Icc, char_le_iff, Char.reduceToNat] at hletter
  rcases hletter with (hdigit | rfl | rfl | rfl) | rfl | rfl
  · exact ⟨by omega, by omega⟩
  all_goals exact ⟨by decide, by decide⟩

theorem clean_number {lexeme : Text} (h : lexeme ∈ Grammar.number) : Clean lexeme :=
  clean_of_ascii (ascii_number h)

theorem ascii_fourDigits {text : Text} (h : text ∈ fourDigits) : ∀ c ∈ text, Ascii c := by
  have hhex : Grammar.hex ≤ (oneOf hexDigits)∗ := oneOf_le_kstar fun c hc => hc
  have hle : fourDigits ≤ (oneOf hexDigits)∗ :=
    mul_le_kstar_oneOf hhex (mul_le_kstar_oneOf hhex (mul_le_kstar_oneOf hhex hhex))
  intro c hc
  have hdigit := mem_kstar_oneOf.mp (hle h) c hc
  simp only [hexDigits, Set.mem_union, Set.mem_Icc, char_le_iff, Char.reduceToNat] at hdigit
  exact ⟨by omega, by omega⟩

theorem clean_fourDigits {text : Text} (h : text ∈ fourDigits) : Clean text :=
  clean_of_ascii (ascii_fourDigits h)

theorem clean_unit {unit : Text} (h : unit ∈ oneOf plain + Grammar.utf8) : Clean unit := by
  refine ⟨?_, encoded_of_unit h⟩
  intro hnul
  rcases (Language.mem_add _ _ _).mp h with ⟨c, hc, rfl⟩ | ⟨c, hc, hcodes⟩
  · obtain rfl := List.mem_singleton.mp hnul
    simp [plain, char_le_iff] at hc
  · have hbyte : '\x00'.toNat ∈ Utf8.encode c := by
      rw [← hcodes]
      exact List.mem_map_of_mem hnul
    exact absurd (Utf8.le_of_mem_encode hc hbyte) (by decide)

theorem ascii_escape {e c : Char} (h : (e, c) ∈ escapes) : Ascii e := by
  have hall : ∀ p ∈ escapes, 0 < p.1.toNat ∧ p.1.toNat ≤ 0x7F := by decide
  exact hall _ h

theorem clean_spells {raw s : Text} (h : Spells raw s) : Clean raw := by
  have hunicode : ∀ {digits raw : Text}, digits ∈ fourDigits → Clean raw →
      Clean ('\\' :: 'u' :: (digits ++ raw)) := fun hdigits hraw =>
    .cons ⟨by decide, by decide⟩ (.cons ⟨by decide, by decide⟩
      ((clean_fourDigits hdigits).append hraw))
  induction h with
  | nil => exact ⟨List.not_mem_nil, Utf8.encoded_nil⟩
  | copied hunit _ ih => exact (clean_unit hunit).append ih
  | escaped he _ ih => exact .cons ⟨by decide, by decide⟩ (.cons (ascii_escape he) ih)
  | unicode hdigits _ _ ih => exact hunicode hdigits ih
  | surrogates hhigh hlow _ _ _ _ ih => exact hunicode hhigh (hunicode hlow ih)

theorem clean_blank {blank : Text} (h : Blank blank) : Clean blank := by
  apply clean_of_ascii
  intro c hc
  have hwhite := h c hc
  simp only [whitespace, Set.mem_insert_iff, Set.mem_singleton_iff] at hwhite
  rcases hwhite with rfl | rfl | rfl | rfl <;> exact ⟨by decide, by decide⟩

variable {strtod : Text → Float}

/-- **What is derived is UTF-8 without a NUL**, by induction on the derivation. -/
theorem clean_of_derives {φ : Phrase} {t : Text} (h : Derives strtod φ t) : Clean t := by
  have hquoted : ∀ {raw s rest : Text}, Spells raw s → Clean rest →
      Clean ('"' :: (raw ++ '"' :: rest)) := fun hspells hrest =>
    .cons ⟨by decide, by decide⟩
      ((clean_spells hspells).append (.cons ⟨by decide, by decide⟩ hrest))
  have hnil : Clean [] := ⟨List.not_mem_nil, Utf8.encoded_nil⟩
  induction h with
  | null | literalTrue | literalFalse =>
    repeat refine .cons ⟨by decide, by decide⟩ ?_
    exact hnil
  | number hnumber => exact clean_number hnumber
  | string hspells => exact hquoted hspells hnil
  | emptyArray hblank | emptyObject hblank =>
    exact .cons ⟨by decide, by decide⟩
      ((clean_blank hblank).append (.cons ⟨by decide, by decide⟩ hnil))
  | array _ ih | object _ ih =>
    exact .cons ⟨by decide, by decide⟩ (ih.append (.cons ⟨by decide, by decide⟩ hnil))
  | element hbefore hafter _ ih =>
    exact (clean_blank hbefore).append (ih.append (clean_blank hafter))
  | member hbefore hbetween hkey _ ih =>
    exact (clean_blank hbefore).append
      (hquoted hkey ((clean_blank hbetween).append (.cons ⟨by decide, by decide⟩ ih)))
  | lastElement _ ih | lastMember _ ih => exact ih
  | moreElements _ _ ih ihrest | moreMembers _ _ ih ihrest =>
    exact ih.append (.cons ⟨by decide, by decide⟩ ihrest)

/-- A property of the values in a part of a text, whose names are UTF-8. -/
def Phrase.Holds (P : Json → Prop) : Phrase → Prop
  | .value j => P j
  | .element j => P j
  | .member key j => Utf8String key ∧ P j
  | .elements js => ∀ j ∈ js, P j
  | .members ms => ∀ m ∈ ms, Utf8String m.1 ∧ P m.2

theorem utf8String_of_spells {raw s : Text} (h : Spells raw s) : Utf8String (String.ofList s) := by
  rw [Utf8String, String.toList_ofList]
  exact encoded_of_spells h

/-- What a number token can be read as. -/
theorem getNumber_cases {P : Json → Prop} (hnull : P .null)
    (hunsigned : ∀ n, P (.numberUnsigned n)) (hinteger : ∀ n, P (.numberInteger n))
    (hdouble : ∀ x : Float, x.isFinite = true → P (.numberFloat x)) (lexeme : Text) :
    P (getNumber strtod lexeme) := by
  have hread : P (readDouble strtod lexeme) := by
    rw [readDouble]
    split_ifs with hfinite
    · exact hdouble _ hfinite
    · exact hnull
  by_cases hhead : lexeme.head? = some '-'
  · simp only [getNumber, hhead, if_true]
    split
    · exact hunsigned _
    · exact hinteger _
    · exact hread
  · simp only [getNumber, hhead, if_false]
    split
    · exact hunsigned _
    · exact hinteger _
    · exact hread

/-- **Induction on values that are derived**: numbers are finite, strings and names are
    UTF-8, and the members of an object are in order. -/
theorem Derives.holds {P : Json → Prop} (hnull : P .null) (hboolean : ∀ b, P (.boolean b))
    (hunsigned : ∀ n, P (.numberUnsigned n)) (hinteger : ∀ n, P (.numberInteger n))
    (hdouble : ∀ x : Float, x.isFinite = true → P (.numberFloat x))
    (hstring : ∀ s, Utf8String s → P (.string s))
    (harray : ∀ elements, (∀ e ∈ elements, P e) → P (.array elements))
    (hobject : ∀ members, SortedKeys members → (∀ m ∈ members, Utf8String m.1 ∧ P m.2) →
      P (.object members)) {φ : Phrase} {t : Text} (h : Derives strtod φ t) : φ.Holds P := by
  induction h with
  | null => exact hnull
  | literalTrue => exact hboolean true
  | literalFalse => exact hboolean false
  | number _ => exact getNumber_cases hnull hunsigned hinteger hdouble _
  | string hspells => exact hstring _ (utf8String_of_spells hspells)
  | emptyArray _ => exact harray [] fun e he => absurd he List.not_mem_nil
  | array _ ih => exact harray _ ih
  | emptyObject _ => exact hobject [] List.Pairwise.nil fun m hm => absurd hm List.not_mem_nil
  | object _ ih => exact hobject _ (sortedKeys_assignAll _) fun m hm => ih m (mem_assignAll hm)
  | element _ _ _ ih => exact ih
  | member _ _ hkey _ ih => exact ⟨utf8String_of_spells hkey, ih⟩
  | lastElement _ ih =>
    intro j hj
    rw [List.mem_singleton.mp hj]
    exact ih
  | moreElements _ _ ih ihrest => exact List.forall_mem_cons.mpr ⟨ih, ihrest⟩
  | lastMember _ ih =>
    intro m hm
    rw [List.mem_singleton.mp hm]
    exact ih
  | moreMembers _ _ ih ihrest => exact List.forall_mem_cons.mpr ⟨ih, ihrest⟩

theorem wellFormed_of_leaf {j : Json} (hordered : j.Ordered) (hstrings : j.strings = []) :
    j.WellFormed := by
  refine ⟨hordered, ?_⟩
  intro s hs
  rw [hstrings] at hs
  cases hs

theorem wellFormed_of_derives {φ : Phrase} {t : Text} (h : Derives strtod φ t) :
    φ.Holds Json.WellFormed := by
  apply h.holds
  · exact wellFormed_of_leaf (by rw [Ordered]; trivial) (by rw [strings])
  · exact fun b => wellFormed_of_leaf (by rw [Ordered]; trivial) (by rw [strings])
  · exact fun n => wellFormed_of_leaf (by rw [Ordered]; trivial) (by rw [strings])
  · exact fun n => wellFormed_of_leaf (by rw [Ordered]; trivial) (by rw [strings])
  · exact fun x _ => wellFormed_of_leaf (by rw [Ordered]; trivial) (by rw [strings])
  · exact fun s hs => wellFormed_string_iff.mpr hs
  · exact fun elements h => wellFormed_array_iff.mpr h
  · exact fun members hsorted h => wellFormed_object_iff.mpr ⟨hsorted, h⟩

/-! ### The text up to its first NUL -/

theorem cString_of_ends {t rest : Text} (ht : '\x00' ∉ t) (hrest : Ends rest) :
    Printf.cString (t ++ rest) = t := by
  have hall : ∀ c ∈ t, decide (c ≠ '\x00') = true := by
    intro c hc
    exact decide_eq_true (fun h => ht (h ▸ hc))
  rcases hrest with rfl | ⟨after, rfl⟩
  · rw [List.append_nil]
    exact Printf.cString_eq_self ht
  · rw [Printf.cString, List.takeWhile_append_of_pos hall,
      List.takeWhile_cons_of_neg (by decide), List.append_nil]

theorem exists_ends (text : Text) : ∃ rest, text = Printf.cString text ++ rest ∧ Ends rest := by
  induction text with
  | nil => exact ⟨[], rfl, Or.inl rfl⟩
  | cons c text ih =>
    by_cases hc : c = '\x00'
    · subst hc
      exact ⟨_, rfl, Or.inr ⟨text, rfl⟩⟩
    · obtain ⟨rest, heq, hrest⟩ := ih
      refine ⟨rest, ?_, hrest⟩
      rw [Printf.cString, List.takeWhile_cons_of_pos (by simp [hc]), List.cons_append]
      exact congrArg (c :: ·) heq

/-- Nothing stands around a value. -/
theorem Derives.bare {j : Json} {t : Text} (h : Derives strtod (.value j) t) :
    Derives strtod (.element j) t := by
  have helement := @Derives.element strtod j [] t [] blank_nil blank_nil h
  rwa [List.nil_append, List.append_nil] at helement

theorem accepted_iff {text : Text} {j : Json} :
    Accepted strtod text j ↔ Derives strtod (.element j) (Printf.cString text) := by
  constructor
  · rintro ⟨t, rest, rfl, hderives, hrest⟩
    rwa [cString_of_ends (clean_of_derives hderives).nul hrest]
  · intro hderives
    obtain ⟨rest, heq, hrest⟩ := exists_ends text
    exact ⟨_, rest, heq, hderives, hrest⟩

theorem parse_eq_ok {text : Text} {j : Json} :
    parse strtod text = .ok j ↔ Derives strtod (.element j) (Printf.cString text) :=
  parse_eq_ok_iff.trans accepted_iff

/-- **The parser decides the grammar**: it returns the value of the text up to its first
    NUL, and where that has no value it throws. -/
theorem parse_decides (strtod : Text → Float) (text : Text) :
    (∀ j, parse strtod text = .ok j ↔ Derives strtod (.element j) (Printf.cString text)) ∧
      ((∃ what, parse strtod text = .error (.invalidArgument what)) ↔
        ∀ j, ¬ Derives strtod (.element j) (Printf.cString text)) := by
  refine ⟨fun j => parse_eq_ok, ?_, ?_⟩
  · rintro ⟨what, herror⟩ j hderives
    rw [parse_eq_ok.mpr hderives] at herror
    cases herror
  · intro hnone
    cases hparse : parse strtod text with
    | ok j => exact absurd (parse_eq_ok.mp hparse) (hnone j)
    | error failure =>
      cases failure with
      | invalidArgument what => exact ⟨what, rfl⟩
      | outOfFuel => exact absurd hparse (parse_ne_outOfFuel text)

theorem wellFormed_of_parse {text : Text} {j : Json} (h : parse strtod text = .ok j) :
    j.WellFormed :=
  wellFormed_of_derives (parse_eq_ok.mp h)

theorem encoded_of_parse {text : Text} {j : Json} (h : parse strtod text = .ok j) :
    Utf8.Encoded (codes (Printf.cString text)) :=
  (clean_of_derives (parse_eq_ok.mp h)).utf8

/-- **What is accepted is UTF-8**, and so is every string of its value, whose objects
    have each key once and in order. -/
theorem parse_wellFormed {text : Text} {j : Json} (h : parse strtod text = .ok j) :
    Utf8.Encoded (codes (Printf.cString text)) ∧ j.WellFormed :=
  ⟨encoded_of_parse h, wellFormed_of_parse h⟩

theorem parse_wellFormed_twice :
    let j := Json.object [("a", .array [.string "\t", .null]), ("b", .numberInteger (-2))]
    Utf8.Encoded (codes "\x7b\"b\":1, \"a\":[\"\\t\",null], \"b\":-2\x7d".toList) ∧ j.WellFormed := by
  exact @parse_wellFormed (fun _ => 0) "\x7b\"b\":1, \"a\":[\"\\t\",null], \"b\":-2\x7d".toList _ rfl

/-- **A key that is given twice has its last value**, whatever the members are. -/
theorem parse_members {text : Text} {pairs : List (String × Json)}
    (h : Derives strtod (.members pairs) text) :
    ∃ members, parse strtod ('{' :: (text ++ ['}'])) = .ok (.object members) ∧
      SortedKeys members ∧ ∀ key, members.lookup key = pairs.reverse.lookup key := by
  refine ⟨assignAll pairs, ?_, sortedKeys_assignAll pairs, lookup_assignAll pairs⟩
  have hobject := Derives.object h
  rw [parse_eq_ok, Printf.cString_eq_self (clean_of_derives hobject).nul]
  exact hobject.bare

theorem parse_members_twice :
    ∃ members, parse (fun _ => 0) "\x7b\"a\":null,\"a\":true\x7d".toList = .ok (.object members) ∧
      SortedKeys members ∧ ∀ key, members.lookup key =
        [("a", .boolean true), ("a", Json.null)].lookup key := by
  have hkey : Spells ['a'] ['a'] :=
    @Spells.copied ['a'] [] []
      (Or.inl (cons_mem_oneOf.mpr ⟨by simp [plain, char_le_iff], rfl⟩)) .nil
  have hmember : ∀ {j : Json} {t : Text}, Derives (fun _ => 0) (.value j) t →
      Derives (fun _ => 0) (.member "a" j) ("\"a\":".toList ++ t) := fun h =>
    @Derives.member _ _ [] ['a'] ['a'] [] _ blank_nil blank_nil hkey h.bare
  exact parse_members (.moreMembers (hmember .null) (.lastMember (hmember .literalTrue)))

end IsmDevice.Json
