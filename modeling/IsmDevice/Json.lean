import Mathlib.Logic.Basic

/-!
# JSON values

The part of `json.hpp` that the device uses: values, the non-const `operator[]`,
the implicit conversions `get_impl`, objects built from an initializer list, and
`dump`.  The text of a `std::string` is a list of `Char`s, one for each byte.

Parsing and the printing of a `double` are the two operations of a `JsonLibrary`, and
what a result needs of them it assumes by name.  The parser itself is embedded apart
from this, and `JsonLibrary.withParser` puts it in.
-/

namespace IsmDevice

abbrev Text := List Char

/-- A `nlohmann::json` value.  The members of an object stand in the order of
    the `std::map` that holds them. -/
inductive Json where
  | null
  | boolean (b : Bool)
  | numberInteger (n : Int64)
  | numberUnsigned (n : UInt64)
  | numberFloat (x : Float)
  | string (s : String)
  | array (elements : List Json)
  | object (members : List (String × Json))

/-- What the values leave open: `parse` (`none` where it throws) and the text a stream
    gives for a `double`. -/
structure JsonLibrary where
  parse : Text → Option Json
  printDouble : Float → Text
  printDouble_plain : ∀ x c, c ∈ printDouble x → c ≠ '%' ∧ c ≠ '\x00'

/-- The whole text is the JSON text of a value.  JSON has no NUL in it, and on
    other texts the parser is taken to accept exactly JSON. -/
def JsonText (lib : JsonLibrary) (text : Text) (value : Json) : Prop :=
  '\x00' ∉ text ∧ lib.parse text = some value

/-- A library that knows the values of a list of texts, for runs on fixed input. -/
def JsonLibrary.ofTable (table : List (Text × Json)) : JsonLibrary where
  parse text := table.lookup text
  printDouble _ := "0.0".toList
  printDouble_plain x c hc := by
    revert hc; simp only [show "0.0".toList = ['0', '.', '0'] by decide]
    simp only [List.mem_cons, List.not_mem_nil, or_false]
    rintro (rfl | rfl | rfl) <;> decide

theorem JsonLibrary.parse_ofTable (text : Text) (value : Json) (rest : List (Text × Json)) :
    (JsonLibrary.ofTable ((text, value) :: rest)).parse text = some value := by
  exact List.lookup_cons_self

theorem JsonLibrary.parse_ofTable_of_ne {text other : Text} (h : text ≠ other) (value : Json)
    (rest : List (Text × Json)) :
    (JsonLibrary.ofTable ((other, value) :: rest)).parse text =
      (JsonLibrary.ofTable rest).parse text := by
  simp only [JsonLibrary.ofTable, List.lookup_cons, beq_false_of_ne h]

namespace Json

/-! ### Element access and conversion -/

/-- `values[key]` on a non-const value: a missing member is created as null, a
    null value becomes an object first, anything else throws. -/
def index (values : Json) (key : String) : Option Json :=
  match values with
  | .object members => some ((members.lookup key).getD .null)
  | .null => some .null
  | _ => none

def getString : Json → Option String
  | .string s => some s
  | _ => none

/-- Conversion to `int`: a `static_cast` of whichever number is stored. -/
def getInt : Json → Option Int32
  | .numberInteger n => some n.toInt32
  | .numberUnsigned n => some n.toUInt32.toInt32
  | .numberFloat x => some x.toInt32
  | _ => none

def getDouble : Json → Option Float
  | .numberInteger n => some n.toFloat
  | .numberUnsigned n => some n.toFloat
  | .numberFloat x => some x
  | _ => none

/-- The JSON number `j` is exactly the integer `i`. -/
def IsInt (j : Json) (i : Int32) : Prop :=
  match j with
  | .numberInteger n => i.toInt = n.toInt
  | .numberUnsigned n => i.toInt = n.toNat
  | .numberFloat x => i.toFloat == x
  | _ => False

/-! ### Objects from an initializer list -/

/-- `std::map::emplace`: a key that is already there keeps its value. -/
def emplace (key : String) (value : Json) : List (String × Json) → List (String × Json)
  | [] => [(key, value)]
  | (k, v) :: rest =>
      if key = k then (k, v) :: rest
      else if key < k then (key, value) :: (k, v) :: rest
      else (k, v) :: emplace key value rest

def ofPairs (pairs : List (String × Json)) : Json :=
  .object (pairs.foldl (fun members pair => emplace pair.1 pair.2 members) [])

/-! ### Serialization -/

def hexDigit (n : Nat) : Char := "0123456789abcdef".toList.getD n '0'

def escapeChar (c : Char) : Text :=
  match c with
  | '"' => ['\\', '"']
  | '\\' => ['\\', '\\']
  | '\x08' => ['\\', 'b']
  | '\x0c' => ['\\', 'f']
  | '\n' => ['\\', 'n']
  | '\r' => ['\\', 'r']
  | '\t' => ['\\', 't']
  | c =>
      if c.toNat ≤ 0x1f then
        ['\\', 'u', '0', '0', hexDigit (c.toNat / 16), hexDigit (c.toNat % 16)]
      else [c]

def escapeString (s : String) : Text := s.toList.flatMap escapeChar

def quote (s : String) : Text := '"' :: (escapeString s ++ ['"'])

mutual

def dump (lib : JsonLibrary) : Json → Text
  | .null => "null".toList
  | .boolean b => if b then "true".toList else "false".toList
  | .numberInteger n => (toString n.toInt).toList
  | .numberUnsigned n => (toString n.toNat).toList
  | .numberFloat x => lib.printDouble x
  | .string s => quote s
  | .array elements => '[' :: (dumpElements lib true elements ++ [']'])
  | .object members => '{' :: (dumpMembers lib true members ++ ['}'])

def dumpElements (lib : JsonLibrary) (first : Bool) : List Json → Text
  | [] => []
  | e :: rest => (if first then [] else [',']) ++ (dump lib e ++ dumpElements lib false rest)

def dumpMembers (lib : JsonLibrary) (first : Bool) : List (String × Json) → Text
  | [] => []
  | (k, v) :: rest =>
      (if first then [] else [',']) ++
        (quote k ++ ':' :: (dump lib v ++ dumpMembers lib false rest))

end

/-! ### Which characters a serialized value contains

`dump` never emits a NUL: control characters inside strings are escaped.  A `%`
is not escaped, so it occurs in the text exactly if it occurs in some string. -/

mutual

/-- The strings in a value, keys included. -/
def strings : Json → List String
  | .string s => [s]
  | .array elements => stringsOfElements elements
  | .object members => stringsOfMembers members
  | .null => []
  | .boolean _ => []
  | .numberInteger _ => []
  | .numberUnsigned _ => []
  | .numberFloat _ => []

def stringsOfElements : List Json → List String
  | [] => []
  | e :: rest => strings e ++ stringsOfElements rest

def stringsOfMembers : List (String × Json) → List String
  | [] => []
  | (k, v) :: rest => k :: (strings v ++ stringsOfMembers rest)

end

theorem hexDigit_mem (n : Nat) : hexDigit n ∈ "0123456789abcdef".toList := by
  unfold hexDigit
  rw [List.getD_eq_getElem?_getD]
  cases h : "0123456789abcdef".toList[n]? with
  | none => decide
  | some c => exact List.mem_of_getElem? h

theorem hexDigit_ne {c : Char} (hc : c ∉ "0123456789abcdef".toList) (n : Nat) :
    c ≠ hexDigit n :=
  fun h => hc (h ▸ hexDigit_mem n)

theorem percent_mem_escapeChar (c : Char) : '%' ∈ escapeChar c ↔ c = '%' := by
  have hhex := hexDigit_ne (c := '%') (by decide)
  unfold escapeChar
  split <;> try decide
  split
  case isTrue h =>
    simp only [List.mem_cons, hhex, List.not_mem_nil, or_false]
    constructor
    · intro h
      simp at h
    · rintro rfl
      exact absurd h (by decide)
  case isFalse => simp [eq_comm]

theorem nul_notMem_escapeChar (c : Char) : '\x00' ∉ escapeChar c := by
  have hhex := hexDigit_ne (c := '\x00') (by decide)
  unfold escapeChar
  split <;> try decide
  split
  case isTrue => simp [hhex]
  case isFalse h =>
    simp only [List.mem_singleton]
    rintro rfl
    exact h (by decide)

theorem percent_mem_quote (s : String) : '%' ∈ quote s ↔ '%' ∈ s.toList := by
  simp [quote, escapeString, percent_mem_escapeChar]

theorem nul_notMem_quote (s : String) : '\x00' ∉ quote s := by
  simp [quote, escapeString, nul_notMem_escapeChar]

theorem mem_toString_int {n : Int} {c : Char} (h : c ∈ (toString n).toList) :
    c = '-' ∨ c.isDigit := by
  have hrepr : ∀ m : Nat, c ∈ (Nat.repr m).toList → c.isDigit := by
    intro m hm
    rw [Nat.repr] at hm
    simp at hm
    exact Nat.isDigit_of_mem_toDigits (by decide) (by decide) hm
  cases n with
  | ofNat m => exact Or.inr (hrepr m h)
  | negSucc m =>
    have h' : c ∈ ("-" ++ Nat.repr (m + 1)).toList := h
    rw [String.toList_append, List.mem_append] at h'
    rcases h' with h' | h'
    · simp at h'; exact Or.inl h'
    · exact Or.inr (hrepr _ h')

theorem notMem_toString_int {n : Int} {c : Char} (hc : c ≠ '-') (hdigit : c.isDigit = false) :
    c ∉ (toString n).toList := by
  intro h
  rcases mem_toString_int h with h | h
  · exact hc h
  · rw [hdigit] at h; exact Bool.noConfusion h

variable (lib : JsonLibrary)

mutual

/-- **A `%` comes from a string**: the text of a value contains one exactly if
    one of its strings does. -/
theorem percent_mem_dump : ∀ j : Json, '%' ∈ j.dump lib ↔ ∃ s ∈ j.strings, '%' ∈ s.toList
  | .null => by rw [dump, strings]; decide
  | .boolean b => by rw [dump, strings]; cases b <;> decide
  | .numberInteger n => by
    rw [dump, strings]
    apply iff_of_false
    · exact notMem_toString_int (by decide) (by decide)
    · simp
  | .numberUnsigned n => by
    rw [dump, strings]
    apply iff_of_false
    · exact notMem_toString_int (n := (n.toNat : Int)) (by decide) (by decide)
    · simp
  | .numberFloat x => by
    rw [dump, strings]
    apply iff_of_false
    · intro h
      exact (lib.printDouble_plain x _ h).1 rfl
    · simp
  | .string s => by
    rw [dump, strings, percent_mem_quote]
    simp
  | .array elements => by
    rw [dump, strings, ← percent_mem_dumpElements true elements]
    simp
  | .object members => by
    rw [dump, strings, ← percent_mem_dumpMembers true members]
    simp

theorem percent_mem_dumpElements (first : Bool) : ∀ elements : List Json,
    '%' ∈ dumpElements lib first elements ↔
      ∃ s ∈ stringsOfElements elements, '%' ∈ s.toList
  | [] => by simp [dumpElements, stringsOfElements]
  | e :: rest => by
    have hsep : '%' ∉ (if first then [] else [',']) := by cases first <;> decide
    simp only [dumpElements, stringsOfElements, List.mem_append, hsep, percent_mem_dump e,
      percent_mem_dumpElements false rest, false_or, or_and_right, exists_or]

theorem percent_mem_dumpMembers (first : Bool) : ∀ members : List (String × Json),
    '%' ∈ dumpMembers lib first members ↔
      ∃ s ∈ stringsOfMembers members, '%' ∈ s.toList
  | [] => by simp [dumpMembers, stringsOfMembers]
  | (k, v) :: rest => by
    have hsep : '%' ∉ (if first then [] else [',']) := by cases first <;> decide
    have hcolon : '%' ≠ ':' := by decide
    simp only [dumpMembers, stringsOfMembers, List.mem_append, List.mem_cons, hsep, hcolon,
      percent_mem_quote, percent_mem_dump v, percent_mem_dumpMembers false rest, false_or,
      or_and_right, exists_or, exists_eq_left]

end

theorem mem_stringsOfMembers {members : List (String × Json)} {s : String} :
    s ∈ stringsOfMembers members ↔ ∃ m ∈ members, s = m.1 ∨ s ∈ m.2.strings := by
  induction members with
  | nil => simp [stringsOfMembers]
  | cons m rest ih =>
    obtain ⟨k, v⟩ := m
    simp only [stringsOfMembers, List.mem_cons, List.mem_append, ih, exists_eq_or_imp, or_assoc]

theorem mem_emplace {key : String} {value : Json} {members : List (String × Json)}
    (hfresh : ∀ m ∈ members, m.1 ≠ key) (m : String × Json) :
    m ∈ emplace key value members ↔ m = (key, value) ∨ m ∈ members := by
  induction members with
  | nil => simp [emplace]
  | cons head rest ih =>
    obtain ⟨k, v⟩ := head
    have hne : key ≠ k := fun h => hfresh (k, v) List.mem_cons_self h.symm
    rw [emplace, if_neg hne]
    split
    · simp
    · rw [List.mem_cons, ih fun m hm => hfresh m (List.mem_cons_of_mem _ hm), List.mem_cons]
      exact or_left_comm

/-- The keys that are still to come are not in the object yet. -/
theorem emplace_fresh {key : String} {value : Json} {members rest : List (String × Json)}
    (hfresh : ∀ m ∈ members, m.1 ≠ key) (hkey : key ∉ rest.map Prod.fst)
    (hmembers : ∀ p ∈ (key, value) :: rest, ∀ m ∈ members, m.1 ≠ p.1) :
    ∀ p ∈ rest, ∀ m ∈ emplace key value members, m.1 ≠ p.1 := by
  intro p hp m hm
  rcases (mem_emplace hfresh m).mp hm with rfl | hm
  · intro h
    apply hkey
    exact List.mem_map.mpr ⟨p, hp, h.symm⟩
  · exact hmembers p (List.mem_cons_of_mem _ hp) m hm

theorem mem_foldl_emplace {pairs members : List (String × Json)}
    (hpairs : (pairs.map Prod.fst).Nodup)
    (hmembers : ∀ p ∈ pairs, ∀ m ∈ members, m.1 ≠ p.1) (m : String × Json) :
    m ∈ pairs.foldl (fun members pair => emplace pair.1 pair.2 members) members ↔
      m ∈ pairs ∨ m ∈ members := by
  induction pairs generalizing members with
  | nil => simp
  | cons p rest ih =>
    obtain ⟨k, v⟩ := p
    rw [List.map_cons, List.nodup_cons] at hpairs
    have hfresh : ∀ m ∈ members, m.1 ≠ k := hmembers (k, v) List.mem_cons_self
    rw [List.foldl_cons, ih hpairs.2 (emplace_fresh hfresh hpairs.1 hmembers),
      mem_emplace hfresh, List.mem_cons]
    exact or_left_comm.trans or_assoc.symm

theorem mem_strings_ofPairs {pairs : List (String × Json)} (hpairs : (pairs.map Prod.fst).Nodup)
    {s : String} : s ∈ (ofPairs pairs).strings ↔ ∃ p ∈ pairs, s = p.1 ∨ s ∈ p.2.strings := by
  have hmem := @mem_foldl_emplace pairs [] hpairs (fun _ _ _ hm => absurd hm List.not_mem_nil)
  rw [ofPairs, strings, mem_stringsOfMembers]
  simp only [hmem, List.not_mem_nil, or_false]

theorem lookup_emplace {key : String} {value : Json} {members : List (String × Json)}
    (hfresh : ∀ m ∈ members, m.1 ≠ key) (k : String) :
    (emplace key value members).lookup k = if k = key then some value else members.lookup k := by
  have hhead : ∀ rest : List (String × Json),
      ((key, value) :: rest).lookup k = if k = key then some value else rest.lookup k := by
    intro rest
    rw [List.lookup_cons]
    by_cases h : k = key
    · simp [h]
    · rw [if_neg h, beq_false_of_ne h]
  induction members with
  | nil => exact hhead []
  | cons head rest ih =>
    obtain ⟨k', v⟩ := head
    have hne : key ≠ k' := fun h => hfresh (k', v) List.mem_cons_self h.symm
    rw [emplace, if_neg hne]
    split
    · exact hhead _
    · rw [List.lookup_cons, List.lookup_cons, ih fun m hm => hfresh m (List.mem_cons_of_mem _ hm)]
      by_cases h : k = k'
      · subst h
        simp only [beq_self_eq_true, if_neg hne.symm]
      · rw [beq_false_of_ne h]

/-- Each pair of the list is a member of the object. -/
theorem lookup_foldl_emplace {pairs members : List (String × Json)}
    (hpairs : (pairs.map Prod.fst).Nodup)
    (hmembers : ∀ p ∈ pairs, ∀ m ∈ members, m.1 ≠ p.1) (k : String) :
    (pairs.foldl (fun members pair => emplace pair.1 pair.2 members) members).lookup k =
      (pairs.lookup k).or (members.lookup k) := by
  induction pairs generalizing members with
  | nil => rfl
  | cons p rest ih =>
    obtain ⟨key, value⟩ := p
    rw [List.map_cons, List.nodup_cons] at hpairs
    have hfresh : ∀ m ∈ members, m.1 ≠ key := hmembers (key, value) List.mem_cons_self
    rw [List.foldl_cons, ih hpairs.2 (emplace_fresh hfresh hpairs.1 hmembers),
      lookup_emplace hfresh, List.lookup_cons]
    by_cases h : k = key
    · have hnone : rest.lookup k = none := by
        apply List.lookup_eq_none_iff.mpr
        intro p hp
        apply bne_iff_ne.mpr
        rintro rfl
        exact hpairs.1 (List.mem_map.mpr ⟨p, hp, h⟩)
      rw [hnone, if_pos h, h, beq_self_eq_true]
      rfl
    · rw [if_neg h, beq_false_of_ne h]

theorem lookup_of_mem {pairs : List (String × Json)} (hpairs : (pairs.map Prod.fst).Nodup)
    {p : String × Json} (hp : p ∈ pairs) : pairs.lookup p.1 = some p.2 := by
  induction pairs with
  | nil => exact absurd hp List.not_mem_nil
  | cons head rest ih =>
    obtain ⟨key, value⟩ := head
    rw [List.map_cons, List.nodup_cons] at hpairs
    rcases List.mem_cons.mp hp with rfl | hrest
    · exact List.lookup_cons_self
    · have hne : p.1 ≠ key := fun h => hpairs.1 (List.mem_map.mpr ⟨p, hrest, h⟩)
      rw [List.lookup_cons, beq_false_of_ne hne]
      exact ih hpairs.2 hrest

theorem lookup_ofPairs {pairs : List (String × Json)} (hpairs : (pairs.map Prod.fst).Nodup) :
    ∃ members, ofPairs pairs = .object members ∧
      ∀ p ∈ pairs, members.lookup p.1 = some p.2 := by
  refine ⟨_, rfl, ?_⟩
  intro p hp
  rw [lookup_foldl_emplace hpairs (fun _ _ _ hm => absurd hm List.not_mem_nil),
    lookup_of_mem hpairs hp]
  rfl

mutual

/-- **Serialized text is a C string**: no value is dumped with a NUL in it. -/
theorem nul_notMem_dump : ∀ j : Json, '\x00' ∉ j.dump lib
  | .null => by rw [dump]; decide
  | .boolean b => by rw [dump]; cases b <;> decide
  | .numberInteger n => by rw [dump]; exact notMem_toString_int (by decide) (by decide)
  | .numberUnsigned n => by
    rw [dump]
    exact notMem_toString_int (n := (n.toNat : Int)) (by decide) (by decide)
  | .numberFloat x => by
    rw [dump]
    intro h
    exact (lib.printDouble_plain x _ h).2 rfl
  | .string s => by rw [dump]; exact nul_notMem_quote s
  | .array elements => by
    rw [dump]
    simp [nul_notMem_dumpElements true elements]
  | .object members => by
    rw [dump]
    simp [nul_notMem_dumpMembers true members]

theorem nul_notMem_dumpElements (first : Bool) :
    ∀ elements : List Json, '\x00' ∉ dumpElements lib first elements
  | [] => by simp [dumpElements]
  | e :: rest => by
    have hsep : '\x00' ∉ (if first then [] else [',']) := by cases first <;> decide
    simp only [dumpElements, List.mem_append, hsep, nul_notMem_dump e,
      nul_notMem_dumpElements false rest, or_self, not_false_eq_true]

theorem nul_notMem_dumpMembers (first : Bool) :
    ∀ members : List (String × Json), '\x00' ∉ dumpMembers lib first members
  | [] => by simp [dumpMembers]
  | (k, v) :: rest => by
    have hsep : '\x00' ∉ (if first then [] else [',']) := by cases first <;> decide
    have hcolon : '\x00' ≠ ':' := by decide
    simp only [dumpMembers, List.mem_append, List.mem_cons, hsep, nul_notMem_quote, hcolon,
      nul_notMem_dump v, nul_notMem_dumpMembers false rest, or_self, not_false_eq_true]

end

/-! ### Values that are the same

The parser stores an integer that is not negative as an unsigned one, whichever way
it was stored before it was dumped. -/

mutual

/-- The value as the parser stores it. -/
def normal : Json → Json
  | .numberInteger n => if 0 ≤ n.toInt then .numberUnsigned n.toUInt64 else .numberInteger n
  | .array elements => .array (normalElements elements)
  | .object members => .object (normalMembers members)
  | .null => .null
  | .boolean b => .boolean b
  | .numberUnsigned n => .numberUnsigned n
  | .numberFloat x => .numberFloat x
  | .string s => .string s

def normalElements : List Json → List Json
  | [] => []
  | e :: rest => normal e :: normalElements rest

def normalMembers : List (String × Json) → List (String × Json)
  | [] => []
  | (k, v) :: rest => (k, normal v) :: normalMembers rest

end

def Same (v w : Json) : Prop := v.normal = w.normal

theorem getString_normal (v : Json) : v.normal.getString = v.getString := by
  cases v with
  | numberInteger n =>
    rw [normal]
    split <;> rfl
  | _ => rfl

theorem toInt32_toUInt64 (n : Int64) : n.toUInt64.toUInt32.toInt32 = n.toInt32 := by
  apply Int32.toBitVec_inj.mp
  rw [Int64.toBitVec_toInt32, BitVec.signExtend_eq_setWidth_of_le _ (by decide)]
  rfl

theorem getInt_normal (v : Json) : v.normal.getInt = v.getInt := by
  cases v with
  | numberInteger n =>
    rw [normal]
    split
    · exact congrArg some (toInt32_toUInt64 n)
    · rfl
  | _ => rfl

theorem getString_of_same {v w : Json} (h : v.Same w) : v.getString = w.getString := by
  rw [← getString_normal v, ← getString_normal w, h]

theorem getInt_of_same {v w : Json} (h : v.Same w) : v.getInt = w.getInt := by
  rw [← getInt_normal v, ← getInt_normal w, h]

/-- Nothing else is stored as a `double` is. -/
theorem eq_numberFloat_of_same {v : Json} {x : Float} (h : v.Same (.numberFloat x)) :
    v = .numberFloat x := by
  cases v with
  | numberInteger n =>
    rw [Same, normal] at h
    split at h <;> cases h
  | numberFloat y => exact h
  | _ => cases h

theorem lookup_normalMembers (key : String) (members : List (String × Json)) :
    (normalMembers members).lookup key = (members.lookup key).map normal := by
  induction members with
  | nil => rfl
  | cons m rest ih =>
    obtain ⟨k, v⟩ := m
    rw [normalMembers, List.lookup_cons, List.lookup_cons, ih]
    cases key == k <;> rfl

/-- A value that is the same as an object is one, with the same members. -/
theorem index_of_same {w v : Json} {members : List (String × Json)} {key : String}
    (h : w.Same (.object members)) (hkey : members.lookup key = some v) :
    ∃ v', w.index key = some v' ∧ v'.Same v := by
  cases w with
  | numberInteger n =>
    rw [Same, normal] at h
    split at h <;> cases h
  | object members' =>
    have hmembers : normalMembers members' = normalMembers members := Json.object.inj h
    have hlookup := lookup_normalMembers key members'
    rw [hmembers, lookup_normalMembers, hkey] at hlookup
    obtain ⟨v', hv', hsame⟩ := Option.map_eq_some_iff.mp hlookup.symm
    refine ⟨v', ?_, hsame⟩
    rw [index, hv', Option.getD_some]
  | _ => cases h

end Json

/-- The text is one of the value: it parses back to it. -/
def JsonLibrary.Reads (lib : JsonLibrary) (text : Text) (v : Json) : Prop :=
  ∃ w, lib.parse text = some w ∧ w.Same v

end IsmDevice
