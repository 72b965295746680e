import IsmDevice.JsonValues

/-!
# Dumped values are read back

`readBack` is the value that the text of a value has: an integer that is not negative
comes back as an unsigned one, a double as whatever its printed form reads as, and
everything else as it was.  The parser returns it if every string of the value is UTF-8.

Strings are not tested when they are dumped.  One that is not UTF-8 is written as it is,
and then the parser takes the whole text for an error.
-/

namespace IsmDevice.Json

open LongestMatch Computability Lexer

section ReadBack

variable (strtod : Text → Float) (lib : JsonLibrary)

mutual

def readBack : Json → Json
  | .numberInteger n => if 0 ≤ n.toInt then .numberUnsigned n.toUInt64 else .numberInteger n
  | .numberFloat x => getNumber strtod (lib.printDouble x)
  | .array elements => .array (readBackElements elements)
  | .object members => .object (assignAll (readBackMembers members))
  | .null => .null
  | .boolean b => .boolean b
  | .numberUnsigned n => .numberUnsigned n
  | .string s => .string s

def readBackElements : List Json → List Json
  | [] => []
  | e :: rest => readBack e :: readBackElements rest

def readBackMembers : List (String × Json) → List (String × Json)
  | [] => []
  | (k, v) :: rest => (k, readBack v) :: readBackMembers rest

end

end ReadBack

mutual

/-- The doubles in a value. -/
def doubles : Json → List Float
  | .numberFloat x => [x]
  | .array elements => doublesOfElements elements
  | .object members => doublesOfMembers members
  | .null => []
  | .boolean _ => []
  | .numberInteger _ => []
  | .numberUnsigned _ => []
  | .string _ => []

def doublesOfElements : List Json → List Float
  | [] => []
  | e :: rest => doubles e ++ doublesOfElements rest

def doublesOfMembers : List (String × Json) → List Float
  | [] => []
  | (_, v) :: rest => doubles v ++ doublesOfMembers rest

end

theorem mem_doublesOfElements {elements : List Json} {x : Float} :
    x ∈ doublesOfElements elements ↔ ∃ e ∈ elements, x ∈ e.doubles := by
  induction elements with
  | nil => simp [doublesOfElements]
  | cons e rest ih =>
    simp only [doublesOfElements, List.mem_append, ih, List.mem_cons, exists_eq_or_imp]

theorem mem_doublesOfMembers {members : List (String × Json)} {x : Float} :
    x ∈ doublesOfMembers members ↔ ∃ m ∈ members, x ∈ m.2.doubles := by
  induction members with
  | nil => simp [doublesOfMembers]
  | cons m rest ih =>
    obtain ⟨k, v⟩ := m
    simp only [doublesOfMembers, List.mem_append, ih, List.mem_cons, exists_eq_or_imp]

variable {strtod : Text → Float} {lib : JsonLibrary}

/-! ### The text of a value is derived -/

theorem toList_toString_nat (n : Nat) : (toString n).toList = Nat.toDigits 10 n := by
  rw [Nat.toString_eq_repr, Nat.repr, String.toList_ofList]

theorem toList_toString_neg {n : Int} (hn : n < 0) :
    (toString n).toList = '-' :: Nat.toDigits 10 n.natAbs := by
  cases n with
  | ofNat m => exact absurd hn (by simp)
  | negSucc m =>
    have htext : (toString (Int.negSucc m)).toList = ("-" ++ Nat.repr (m + 1)).toList := rfl
    rw [htext, String.toList_append, Nat.repr, Int.natAbs_negSucc]
    exact congrArg ('-' :: ·) String.toList_ofList

theorem derives_unsigned (n : UInt64) :
    Derives strtod (.value (.numberUnsigned n)) (Nat.toDigits 10 n.toNat) := by
  rw [← getNumber_toDigits strtod n]
  exact .number (number_of_integer (Or.inl rfl) (toDigits_mem_integer n.toNat))

theorem derives_integer (n : Int64) :
    Derives strtod (.value (readBack strtod lib (.numberInteger n))) (toString n.toInt).toList := by
  rw [readBack]
  split_ifs with hn
  · have hclamp : n.toUInt64.toNat = n.toInt.toNat :=
      Int64.toNat_toUInt64_of_le (Int64.le_iff_toInt_le.mpr hn)
    have htext : (toString n.toInt).toList = Nat.toDigits 10 n.toUInt64.toNat := by
      rw [hclamp, ← toList_toString_nat]
      conv_lhs => rw [← Int.toNat_of_nonneg hn]
      rfl
    rw [htext]
    exact derives_unsigned n.toUInt64
  · have hneg := not_le.mp hn
    rw [toList_toString_neg hneg, ← getNumber_minus_toDigits strtod hneg]
    exact .number (number_of_integer (Or.inr rfl) (toDigits_mem_integer _))

theorem spells_escapeString {s : String} (h : Utf8String s) : Spells (escapeString s) s.toList :=
  spells_escape h

theorem derives_quote {s : String} (h : Utf8String s) :
    Derives strtod (.value (.string s)) (quote s) := by
  have hstring := @Derives.string strtod _ _ (spells_escapeString h)
  rwa [String.ofList_toList] at hstring

theorem derives_member {key : String} {j : Json} {t : Text} (hkey : Utf8String key)
    (h : Derives strtod (.value j) t) : Derives strtod (.member key j) (quote key ++ ':' :: t) := by
  have hmember := @Derives.member strtod j [] _ _ [] t blank_nil blank_nil
    (spells_escapeString hkey) h.bare
  rw [String.ofList_toList] at hmember
  simpa only [quote, List.nil_append, List.cons_append, List.append_assoc] using hmember

variable (lib) in
/-- The doubles are printed as numbers. -/
def Numerals (doubles : List Float) : Prop := ∀ x ∈ doubles, lib.printDouble x ∈ Grammar.number

mutual

/-- **The text of a value is derived**, with the value that is read back, if its strings
    are UTF-8. -/
theorem derives_dump : ∀ j : Json, (∀ s ∈ j.strings, Utf8String s) → Numerals lib j.doubles →
    Derives strtod (.value (j.readBack strtod lib)) (j.dump lib)
  | .null, _, _ => by rw [dump, readBack]; exact .null
  | .boolean true, _, _ => by rw [dump, readBack]; exact .literalTrue
  | .boolean false, _, _ => by rw [dump, readBack]; exact .literalFalse
  | .numberInteger n, _, _ => by rw [dump]; exact derives_integer n
  | .numberUnsigned n, _, _ => by
    rw [dump, readBack, toList_toString_nat]
    exact derives_unsigned n
  | .numberFloat x, _, hnumber => by
    rw [doubles] at hnumber
    rw [dump, readBack]
    exact .number (hnumber x (List.mem_singleton_self x))
  | .string s, hutf8, _ => by
    rw [strings] at hutf8
    rw [dump, readBack]
    exact derives_quote (hutf8 s (List.mem_singleton_self s))
  | .array [], _, _ => by rw [dump, readBack]; exact @Derives.emptyArray _ [] blank_nil
  | .array (e :: rest), hutf8, hnumber => by
    rw [strings] at hutf8
    rw [doubles] at hnumber
    rw [dump, readBack]
    exact .array (derives_dumpElements (e :: rest) (List.cons_ne_nil _ _) hutf8 hnumber)
  | .object [], _, _ => by rw [dump, readBack]; exact @Derives.emptyObject _ [] blank_nil
  | .object (m :: rest), hutf8, hnumber => by
    rw [strings] at hutf8
    rw [doubles] at hnumber
    rw [dump, readBack]
    exact .object (derives_dumpMembers (m :: rest) (List.cons_ne_nil _ _) hutf8 hnumber)

theorem derives_dumpElements : ∀ elements : List Json, elements ≠ [] →
    (∀ s ∈ stringsOfElements elements, Utf8String s) →
      Numerals lib (doublesOfElements elements) →
        Derives strtod (.elements (readBackElements strtod lib elements))
          (dumpElements lib true elements)
  | [], hne, _, _ => absurd rfl hne
  | [e], _, hutf8, hnumber => by
    rw [stringsOfElements, List.forall_mem_append] at hutf8
    rw [doublesOfElements, Numerals, List.forall_mem_append] at hnumber
    rw [dumpElements, dumpElements, readBackElements, readBackElements, List.append_nil]
    exact .lastElement (derives_dump e hutf8.1 hnumber.1).bare
  | e :: e' :: rest, _, hutf8, hnumber => by
    rw [stringsOfElements, List.forall_mem_append] at hutf8
    rw [doublesOfElements, Numerals, List.forall_mem_append] at hnumber
    have hrest := derives_dumpElements (e' :: rest) (List.cons_ne_nil _ _) hutf8.2 hnumber.2
    rw [dumpElements] at hrest
    rw [dumpElements, dumpElements, readBackElements]
    exact .moreElements (derives_dump e hutf8.1 hnumber.1).bare hrest

theorem derives_dumpMembers : ∀ members : List (String × Json), members ≠ [] →
    (∀ s ∈ stringsOfMembers members, Utf8String s) →
      Numerals lib (doublesOfMembers members) →
        Derives strtod (.members (readBackMembers strtod lib members))
          (dumpMembers lib true members)
  | [], hne, _, _ => absurd rfl hne
  | [(k, v)], _, hutf8, hnumber => by
    rw [stringsOfMembers, List.forall_mem_cons, List.forall_mem_append] at hutf8
    rw [doublesOfMembers, Numerals, List.forall_mem_append] at hnumber
    rw [dumpMembers, dumpMembers, readBackMembers, readBackMembers, List.append_nil]
    exact .lastMember (derives_member hutf8.1 (derives_dump v hutf8.2.1 hnumber.1))
  | (k, v) :: (k', v') :: rest, _, hutf8, hnumber => by
    rw [stringsOfMembers, List.forall_mem_cons, List.forall_mem_append] at hutf8
    rw [doublesOfMembers, Numerals, List.forall_mem_append] at hnumber
    have hrest :=
      derives_dumpMembers ((k', v') :: rest) (List.cons_ne_nil _ _) hutf8.2.2 hnumber.2
    have hmember := derives_member hutf8.1 (derives_dump v hutf8.2.1 hnumber.1)
    rw [dumpMembers] at hrest
    rw [dumpMembers, dumpMembers, readBackMembers]
    simpa using Derives.moreMembers hmember hrest

end

/-! ### Text that is not UTF-8

ASCII separates the strings of a value from each other, and escaping touches nothing
else, so the text is UTF-8 exactly if every string is. -/

theorem codes_ascii {text : Text} (h : ∀ c ∈ text, c.toNat ≤ 0x7F) : ∀ x ∈ codes text, x ≤ 0x7F :=
  List.forall_mem_map.mpr h

theorem encoded_ascii_append {a : Text} (ha : ∀ c ∈ a, c.toNat ≤ 0x7F) (b : Text) :
    Utf8.Encoded (codes (a ++ b)) ↔ Utf8.Encoded (codes b) := by
  rw [codes_append]
  exact Utf8.encoded_ascii_append (codes_ascii ha) (codes b)

theorem escapeChar_ascii {c : Char} (hc : c.toNat ≤ 0x7F) :
    escapeChar c ≠ [] ∧ ∀ d ∈ escapeChar c, d.toNat ≤ 0x7F := by
  have hcons : ∀ {d : Char} {text : Text}, d.toNat ≤ 0x7F → (∀ e ∈ text, e.toNat ≤ 0x7F) →
      d :: text ≠ [] ∧ ∀ e ∈ d :: text, e.toNat ≤ 0x7F :=
    fun hd htext => ⟨List.cons_ne_nil _ _, List.forall_mem_cons.mpr ⟨hd, htext⟩⟩
  rcases escapeChar_cases c with ⟨e, he, heq⟩ | ⟨_, heq⟩ | ⟨_, heq⟩
  · rw [heq]
    exact hcons (by decide) (hcons (ascii_escape he).2 (by simp)).2
  · have hdigits := ascii_fourDigits (controlDigits_mem (c.toNat / 16) (c.toNat % 16))
    rw [heq]
    exact hcons (by decide) (hcons (by decide) fun d hd => (hdigits d hd).2).2
  · rw [heq]
    exact hcons hc (by simp)

/-- What stands in front is the beginning of a scalar value that is being written. -/
theorem encoded_escape (a s : Text) :
    Utf8.Encoded (codes (a ++ s.flatMap escapeChar)) ↔ Utf8.Encoded (codes (a ++ s)) := by
  induction s generalizing a with
  | nil => rw [List.flatMap_nil]
  | cons c s ih =>
    rw [List.flatMap_cons]
    by_cases hc : c.toNat ≤ 0x7F
    · obtain ⟨hne, hascii⟩ := escapeChar_ascii hc
      have hcodes : codes (escapeChar c) ≠ [] := mt List.map_eq_nil_iff.mp hne
      have hsingle : codes [c] ≠ [] := List.cons_ne_nil _ _
      have hcascii : ∀ x ∈ codes [c], x ≤ 0x7F := codes_ascii (by simpa using hc)
      have hrest := ih []
      rw [List.nil_append, List.nil_append] at hrest
      rw [← List.singleton_append, codes_append, codes_append, codes_append, codes_append,
        Utf8.encoded_append_ascii_append hcodes (codes_ascii hascii),
        Utf8.encoded_append_ascii_append hsingle hcascii, hrest]
    · rw [escapeChar_utf8 (by omega)]
      have hrest := ih (a ++ [c])
      rwa [List.append_assoc, List.append_assoc] at hrest

theorem encoded_quote (s : String) (b : Text) :
    Utf8.Encoded (codes (quote s ++ b)) ↔ Utf8String s ∧ Utf8.Encoded (codes b) := by
  have hopen := @encoded_ascii_append ['"'] (ascii_of_all rfl) (escapeString s ++ '"' :: b)
  have hclose := @Utf8.encoded_append_ascii (codes (escapeString s)) (codes b) '"'.toNat (by decide)
  have hbody := encoded_escape [] s.toList
  have htext : quote s ++ b = ['"'] ++ (escapeString s ++ '"' :: b) := by simp [quote]
  rw [List.nil_append, List.nil_append] at hbody
  rw [htext, hopen, codes_append]
  exact hclose.trans (and_congr hbody Iff.rfl)

theorem ascii_toString_int (n : Int) : ∀ c ∈ (toString n).toList, c.toNat ≤ 0x7F := by
  intro c hc
  rcases mem_toString_int hc with rfl | hdigit
  · decide
  · rw [Char.isDigit, Bool.and_eq_true, decide_eq_true_eq, decide_eq_true_eq] at hdigit
    exact Nat.le_trans (UInt32.le_iff_toNat_le.mp hdigit.2) (by decide)

mutual

theorem encoded_dump : ∀ (j : Json) (b : Text), Numerals lib j.doubles →
    (Utf8.Encoded (codes (j.dump lib ++ b)) ↔
      (∀ s ∈ j.strings, Utf8String s) ∧ Utf8.Encoded (codes b))
  | .null, b, _ => by
    rw [dump, strings, encoded_ascii_append (ascii_of_all (by decide))]
    simp
  | .boolean true, b, _ => by
    rw [dump, strings, encoded_ascii_append (ascii_of_all (by decide))]
    simp
  | .boolean false, b, _ => by
    rw [dump, strings, encoded_ascii_append (ascii_of_all (by decide))]
    simp
  | .numberInteger n, b, _ => by
    rw [dump, strings, encoded_ascii_append (ascii_toString_int n.toInt)]
    simp
  | .numberUnsigned n, b, _ => by
    have hascii : ∀ c ∈ (toString n.toNat).toList, c.toNat ≤ 0x7F := ascii_toString_int n.toNat
    rw [dump, strings, encoded_ascii_append hascii]
    simp
  | .numberFloat x, b, hnumber => by
    rw [doubles] at hnumber
    have hascii := ascii_number (hnumber x (List.mem_singleton_self x))
    rw [dump, strings, encoded_ascii_append fun c hc => (hascii c hc).2]
    simp
  | .string s, b, _ => by
    rw [dump, strings, encoded_quote]
    simp
  | .array elements, b, hnumber => by
    rw [doubles] at hnumber
    have hopen := @encoded_ascii_append ['['] (ascii_of_all rfl)
      (dumpElements lib true elements ++ ']' :: b)
    have hclose := @encoded_ascii_append [']'] (ascii_of_all rfl) b
    have helements := encoded_dumpElements true elements (']' :: b) hnumber
    have htext : '[' :: (dumpElements lib true elements ++ [']']) ++ b =
        ['['] ++ (dumpElements lib true elements ++ ']' :: b) := by simp
    rw [dump, strings, htext, hopen, helements]
    exact and_congr Iff.rfl hclose
  | .object members, b, hnumber => by
    rw [doubles] at hnumber
    have hopen := @encoded_ascii_append ['{'] (ascii_of_all rfl)
      (dumpMembers lib true members ++ '}' :: b)
    have hclose := @encoded_ascii_append ['}'] (ascii_of_all rfl) b
    have hmembers := encoded_dumpMembers true members ('}' :: b) hnumber
    have htext : '{' :: (dumpMembers lib true members ++ ['}']) ++ b =
        ['{'] ++ (dumpMembers lib true members ++ '}' :: b) := by simp
    rw [dump, strings, htext, hopen, hmembers]
    exact and_congr Iff.rfl hclose

theorem encoded_dumpElements (first : Bool) : ∀ (elements : List Json) (b : Text),
    Numerals lib (doublesOfElements elements) →
      (Utf8.Encoded (codes (dumpElements lib first elements ++ b)) ↔
        (∀ s ∈ stringsOfElements elements, Utf8String s) ∧ Utf8.Encoded (codes b))
  | [], b, _ => by simp [dumpElements, stringsOfElements]
  | e :: rest, b, hnumber => by
    rw [doublesOfElements, Numerals, List.forall_mem_append] at hnumber
    have hsep := @ascii_of_all (if first then [] else [',']) (by cases first <;> rfl)
    rw [dumpElements, stringsOfElements, List.append_assoc, List.append_assoc,
      encoded_ascii_append hsep, encoded_dump e _ hnumber.1,
      encoded_dumpElements false rest b hnumber.2, List.forall_mem_append, and_assoc]

theorem encoded_dumpMembers (first : Bool) : ∀ (members : List (String × Json)) (b : Text),
    Numerals lib (doublesOfMembers members) →
      (Utf8.Encoded (codes (dumpMembers lib first members ++ b)) ↔
        (∀ s ∈ stringsOfMembers members, Utf8String s) ∧ Utf8.Encoded (codes b))
  | [], b, _ => by simp [dumpMembers, stringsOfMembers]
  | (k, v) :: rest, b, hnumber => by
    rw [doublesOfMembers, Numerals, List.forall_mem_append] at hnumber
    have hsep := @ascii_of_all (if first then [] else [',']) (by cases first <;> rfl)
    have hcolon := @encoded_ascii_append [':'] (ascii_of_all rfl)
      (dump lib v ++ (dumpMembers lib false rest ++ b))
    rw [dumpMembers, stringsOfMembers, List.append_assoc, List.append_assoc,
      encoded_ascii_append hsep, encoded_quote, List.cons_append, List.append_assoc,
      ← List.singleton_append, hcolon, encoded_dump v _ hnumber.1,
      encoded_dumpMembers false rest b hnumber.2, List.forall_mem_cons, List.forall_mem_append,
      and_assoc, and_assoc]

end

/-! ### The round trip -/

theorem parse_dump_utf8 {j : Json} (hutf8 : ∀ s ∈ j.strings, Utf8String s)
    (hnumber : Numerals lib j.doubles) :
    parse strtod (j.dump lib) = .ok (j.readBack strtod lib) := by
  rw [parse_eq_ok, Printf.cString_eq_self (nul_notMem_dump lib j)]
  exact (derives_dump j hutf8 hnumber).bare

theorem parse_dump_not_utf8 {j : Json} (hnot : ∃ s ∈ j.strings, ¬ Utf8String s)
    (hnumber : Numerals lib j.doubles) :
    ∃ what, parse strtod (j.dump lib) = .error (.invalidArgument what) := by
  cases hparse : parse strtod (j.dump lib) with
  | ok value =>
    have hencoded := encoded_of_parse hparse
    rw [Printf.cString_eq_self (nul_notMem_dump lib j), ← List.append_nil (j.dump lib),
      encoded_dump j [] hnumber] at hencoded
    obtain ⟨s, hs, hnot⟩ := hnot
    exact absurd (hencoded.1 s hs) hnot
  | error failure =>
    cases failure with
    | invalidArgument what => exact ⟨what, rfl⟩
    | outOfFuel => exact absurd hparse (parse_ne_outOfFuel _)

/-- **Round trip.**  The text of a value is read back if every string in it is UTF-8,
    and otherwise it is not read at all. -/
theorem parse_dump (strtod : Text → Float) (lib : JsonLibrary) (j : Json)
    (hnumber : Numerals lib j.doubles) :
    ((∀ s ∈ j.strings, Utf8String s) →
      parse strtod (j.dump lib) = .ok (j.readBack strtod lib)) ∧
    ((∃ s ∈ j.strings, ¬ Utf8String s) →
      ∃ what, parse strtod (j.dump lib) = .error (.invalidArgument what)) :=
  ⟨fun hutf8 => parse_dump_utf8 hutf8 hnumber, fun hnot => parse_dump_not_utf8 hnot hnumber⟩

/-- A text that is scanned as one number is one. -/
theorem mem_number_of_scan {text : Text} (h : scan text = ⟨.valueNumber, text, []⟩) :
    text ∈ Grammar.number := by
  obtain ⟨_, _, _, hnumber, _⟩ := (scan_eq_iff (by decide) (by decide)).mp h
  exact hnumber

theorem zero_mem_number : ['0', '.', '0'] ∈ Grammar.number := mem_number_of_scan rfl

theorem parse_dump_mixed :
    let lib := JsonLibrary.ofTable []
    let j := Json.object
      [("a", .numberInteger 5), ("b", .array [.numberFloat 0, .string "\xc3\xa9"])]
    parse (fun _ => 0) (j.dump lib) = .ok (j.readBack (fun _ => 0) lib) := by
  intro lib j
  have hnumber : Numerals lib j.doubles := fun _ _ => zero_mem_number
  apply (parse_dump (fun _ => 0) lib j hnumber).1
  have haccent : Utf8String "\xc3\xa9" := ⟨['\u00e9'], by decide⟩
  have hkeys : Utf8String "a" ∧ Utf8String "b" := ⟨⟨['a'], by decide⟩, ⟨['b'], by decide⟩⟩
  intro s hs
  have hstrings : s ∈ ["a", "b", "\xc3\xa9"] := hs
  simp only [List.mem_cons, List.not_mem_nil, or_false] at hstrings
  rcases hstrings with rfl | rfl | rfl
  · exact hkeys.1
  · exact hkeys.2
  · exact haccent

/-! ### Values that come back as they were -/

theorem assign_of_lt {key : String} {value : Json} {members : List (String × Json)}
    (h : ∀ m ∈ members, m.1 < key) : assign key value members = members ++ [(key, value)] := by
  induction members with
  | nil => rfl
  | cons m rest ih =>
    obtain ⟨k, v⟩ := m
    obtain ⟨hk, hrest⟩ := List.forall_mem_cons.mp h
    rw [assign, if_neg (fun heq : key = k => String.lt_irrefl k (heq ▸ hk)),
      if_neg (String.lt_asymm hk), ih hrest]
    rfl

/-- The members of an object that was dumped are in order. -/
theorem assignAll_of_sorted {members : List (String × Json)} (h : SortedKeys members) :
    assignAll members = members := by
  induction members using List.reverseRecOn with
  | nil => rfl
  | append_singleton members m ih =>
    obtain ⟨hmembers, _, hlast⟩ := List.pairwise_append.mp h
    rw [assignAll, List.foldl_append, ← assignAll, ih hmembers]
    exact assign_of_lt fun m' hm' => hlast m' hm' m (List.mem_singleton_self m)

theorem map_fst_readBackMembers (members : List (String × Json)) :
    (readBackMembers strtod lib members).map Prod.fst = members.map Prod.fst := by
  induction members with
  | nil => rfl
  | cons m rest ih =>
    obtain ⟨k, v⟩ := m
    rw [readBackMembers, List.map_cons, List.map_cons, ih]

theorem sortedKeys_readBackMembers {members : List (String × Json)} (h : SortedKeys members) :
    SortedKeys (readBackMembers strtod lib members) := by
  have hkeys : (members.map Prod.fst).Pairwise (· < ·) := List.pairwise_map.mpr h
  rw [← @map_fst_readBackMembers strtod lib] at hkeys
  exact List.pairwise_map.mp hkeys

variable (strtod lib) in
/-- A double that is printed with all that makes it one. -/
def Survives (doubles : List Float) : Prop :=
  ∀ x ∈ doubles, getNumber strtod (lib.printDouble x) = .numberFloat x

mutual

theorem readBack_eq_normal : ∀ j : Json, j.Ordered → Survives strtod lib j.doubles →
    j.readBack strtod lib = j.normal
  | .null, _, _ => by rw [readBack, normal]
  | .boolean _, _, _ => by rw [readBack, normal]
  | .numberInteger _, _, _ => by rw [readBack, normal]
  | .numberUnsigned _, _, _ => by rw [readBack, normal]
  | .numberFloat x, _, hdoubles => by
    rw [doubles] at hdoubles
    rw [readBack, normal, hdoubles x (List.mem_singleton_self x)]
  | .string _, _, _ => by rw [readBack, normal]
  | .array elements, hordered, hdoubles => by
    rw [Ordered] at hordered
    rw [doubles] at hdoubles
    rw [readBack, normal, readBackElements_eq_normal elements hordered hdoubles]
  | .object members, hordered, hdoubles => by
    rw [Ordered] at hordered
    rw [doubles] at hdoubles
    rw [readBack, normal, assignAll_of_sorted (sortedKeys_readBackMembers hordered.1),
      readBackMembers_eq_normal members hordered.2 hdoubles]

theorem readBackElements_eq_normal : ∀ elements : List Json, OrderedElements elements →
    Survives strtod lib (doublesOfElements elements) →
      readBackElements strtod lib elements = normalElements elements
  | [], _, _ => by rw [readBackElements, normalElements]
  | e :: rest, hordered, hdoubles => by
    rw [OrderedElements] at hordered
    rw [doublesOfElements, Survives, List.forall_mem_append] at hdoubles
    rw [readBackElements, normalElements, readBack_eq_normal e hordered.1 hdoubles.1,
      readBackElements_eq_normal rest hordered.2 hdoubles.2]

theorem readBackMembers_eq_normal : ∀ members : List (String × Json), OrderedMembers members →
    Survives strtod lib (doublesOfMembers members) →
      readBackMembers strtod lib members = normalMembers members
  | [], _, _ => by rw [readBackMembers, normalMembers]
  | (k, v) :: rest, hordered, hdoubles => by
    rw [OrderedMembers] at hordered
    rw [doublesOfMembers, Survives, List.forall_mem_append] at hdoubles
    rw [readBackMembers, normalMembers, readBack_eq_normal v hordered.1 hdoubles.1,
      readBackMembers_eq_normal rest hordered.2 hdoubles.2]

end

mutual

theorem normal_normal : ∀ j : Json, j.normal.normal = j.normal
  | .null => by rw [normal, normal]
  | .boolean _ => by rw [normal, normal]
  | .numberInteger n => by
    rw [normal]
    split_ifs with hn
    · rw [normal]
    · rw [normal, if_neg hn]
  | .numberUnsigned _ => by rw [normal, normal]
  | .numberFloat _ => by rw [normal, normal]
  | .string _ => by rw [normal, normal]
  | .array elements => by rw [normal, normal, normalElements_normal elements]
  | .object members => by rw [normal, normal, normalMembers_normal members]

theorem normalElements_normal : ∀ elements : List Json,
    normalElements (normalElements elements) = normalElements elements
  | [] => by rw [normalElements, normalElements]
  | e :: rest => by
    rw [normalElements, normalElements, normal_normal e, normalElements_normal rest]

theorem normalMembers_normal : ∀ members : List (String × Json),
    normalMembers (normalMembers members) = normalMembers members
  | [] => by rw [normalMembers, normalMembers]
  | (k, v) :: rest => by
    rw [normalMembers, normalMembers, normal_normal v, normalMembers_normal rest]

end

theorem toOption_eq_some {x : Except Failure Json} {j : Json} :
    x.toOption = some j ↔ x = .ok j := by
  cases x with
  | error failure => exact iff_of_false nofun nofun
  | ok value =>
    exact ⟨fun h => congrArg _ (Option.some.inj h), fun h => congrArg _ (Except.ok.inj h)⟩

end IsmDevice.Json

namespace IsmDevice

namespace JsonLibrary

/-- The library with the parser of the source, which throws where it returns no value. -/
def withParser (strtod : Text → Float) (lib : JsonLibrary) : JsonLibrary :=
  { lib with parse := fun text => (Json.parse strtod text).toOption }

variable {strtod : Text → Float} {lib : JsonLibrary}

theorem parse_withParser_eq_some {text : Text} {j : Json} :
    (lib.withParser strtod).parse text = some j ↔ Json.parse strtod text = .ok j :=
  Json.toOption_eq_some

theorem parse_withParser_eq_none {text : Text} {failure : Json.Failure}
    (h : Json.parse strtod text = .error failure) : (lib.withParser strtod).parse text = none := by
  have hparse : (lib.withParser strtod).parse text = (Json.parse strtod text).toOption := rfl
  rw [hparse, h]
  rfl

/-- **A well-formed value is the one its text stands for**, if its doubles survive. -/
theorem reads_dump {j : Json} (hj : j.WellFormed) (hnumber : Json.Numerals lib j.doubles)
    (hdoubles : Json.Survives strtod lib j.doubles) :
    (lib.withParser strtod).Reads (j.dump lib) j := by
  refine ⟨_, parse_withParser_eq_some.mpr (Json.parse_dump_utf8 hj.utf8 hnumber), ?_⟩
  rw [Json.readBack_eq_normal j hj.ordered hdoubles]
  exact Json.normal_normal j

theorem reads_dump_numbers :
    ((JsonLibrary.ofTable []).withParser fun _ => 0.0).Reads
      ((Json.array [.numberInteger 5, .numberFloat 0.0]).dump (.ofTable []))
      (.array [.numberInteger 5, .numberFloat 0.0]) := by
  have hwell : (Json.array [.numberInteger 5, .numberFloat 0.0]).WellFormed := by
    refine ⟨?_, nofun⟩
    simp [Json.Ordered, Json.OrderedElements]
  have hfinite : (0.0 : Float).isFinite = true := by decide +kernel
  have hread : Json.Lexer.getNumber (fun _ => 0.0) ['0', '.', '0'] = .numberFloat 0.0 := by
    rw [show Json.Lexer.getNumber (fun _ => 0.0) ['0', '.', '0'] =
        Json.Lexer.readDouble (fun _ => 0.0) ['0', '.', '0'] from rfl,
      Json.Lexer.readDouble, if_pos hfinite]
  apply reads_dump hwell (fun _ _ => Json.zero_mem_number)
  intro x hx
  have hx' : x ∈ [(0.0 : Float)] := hx
  rw [List.mem_singleton.mp hx']
  exact hread

end JsonLibrary

end IsmDevice
