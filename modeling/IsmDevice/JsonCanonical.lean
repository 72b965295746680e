import IsmDevice.JsonRoundTrip

/-!
# Texts that are written again

What has been parsed can be dumped and parsed again: its strings are UTF-8 and its doubles
are finite.  The value may be another one then, since a double without a fraction is
printed as an integer, but the text stays as it is.
-/

namespace IsmDevice.Json

open Lexer

variable {strtod : Text → Float} {lib : JsonLibrary}

/-! ### Parsed values have finite doubles -/

/-- No infinity and no NaN. -/
def FiniteDoubles (j : Json) : Prop := ∀ x ∈ j.doubles, x.isFinite = true

theorem finiteDoubles_of_nil {j : Json} (h : j.doubles = []) : j.FiniteDoubles := by
  intro x hx
  rw [h] at hx
  cases hx

theorem finiteDoubles_array_iff {elements : List Json} :
    (Json.array elements).FiniteDoubles ↔ ∀ e ∈ elements, e.FiniteDoubles := by
  simp only [Json.FiniteDoubles, doubles, mem_doublesOfElements]
  constructor
  · intro h e he x hx
    exact h x ⟨e, he, hx⟩
  · rintro h x ⟨e, he, hx⟩
    exact h e he x hx

theorem finiteDoubles_object_iff {members : List (String × Json)} :
    (Json.object members).FiniteDoubles ↔ ∀ m ∈ members, m.2.FiniteDoubles := by
  simp only [Json.FiniteDoubles, doubles, mem_doublesOfMembers]
  constructor
  · intro h m hm x hx
    exact h x ⟨m, hm, hx⟩
  · rintro h x ⟨m, hm, hx⟩
    exact h m hm x hx

theorem finiteDoubles_of_derives {φ : Phrase} {t : Text} (h : Derives strtod φ t) :
    φ.Holds Json.FiniteDoubles := by
  apply h.holds
  · exact finiteDoubles_of_nil (by rw [doubles])
  · exact fun b => finiteDoubles_of_nil (by rw [doubles])
  · exact fun n => finiteDoubles_of_nil (by rw [doubles])
  · exact fun n => finiteDoubles_of_nil (by rw [doubles])
  · intro x hfinite y hy
    rw [doubles, List.mem_singleton] at hy
    exact hy ▸ hfinite
  · exact fun s _ => finiteDoubles_of_nil (by rw [doubles])
  · exact fun elements h => finiteDoubles_array_iff.mpr h
  · exact fun members _ h => finiteDoubles_object_iff.mpr fun m hm => (h m hm).2

/-! ### The text stays -/

variable (strtod lib) in
/-- A double whose printed form is printed again when it has been read. -/
def Stable (doubles : List Float) : Prop :=
  ∀ x ∈ doubles, (getNumber strtod (lib.printDouble x)).dump lib = lib.printDouble x

mutual

theorem dump_readBack : ∀ j : Json, j.Ordered → Stable strtod lib j.doubles →
    (j.readBack strtod lib).dump lib = j.dump lib
  | .null, _, _ => by rw [readBack]
  | .boolean _, _, _ => by rw [readBack]
  | .numberInteger n, _, _ => by
    rw [readBack]
    split_ifs with hn
    · have hclamp : n.toUInt64.toNat = n.toInt.toNat :=
        Int64.toNat_toUInt64_of_le (Int64.le_iff_toInt_le.mpr hn)
      rw [dump, dump, hclamp]
      conv_rhs => rw [← Int.toNat_of_nonneg hn]
      rfl
    · rfl
  | .numberUnsigned _, _, _ => by rw [readBack]
  | .numberFloat x, _, hstable => by
    rw [doubles] at hstable
    rw [readBack, hstable x (List.mem_singleton_self x), dump]
  | .string _, _, _ => by rw [readBack]
  | .array elements, hordered, hstable => by
    rw [Ordered] at hordered
    rw [doubles] at hstable
    rw [readBack, dump, dump, dumpElements_readBack true elements hordered hstable]
  | .object members, hordered, hstable => by
    rw [Ordered] at hordered
    rw [doubles] at hstable
    rw [readBack, assignAll_of_sorted (sortedKeys_readBackMembers hordered.1), dump, dump,
      dumpMembers_readBack true members hordered.2 hstable]

theorem dumpElements_readBack (first : Bool) : ∀ elements : List Json, OrderedElements elements →
    Stable strtod lib (doublesOfElements elements) →
      dumpElements lib first (readBackElements strtod lib elements) =
        dumpElements lib first elements
  | [], _, _ => by rw [readBackElements]
  | e :: rest, hordered, hstable => by
    rw [OrderedElements] at hordered
    rw [doublesOfElements, Stable, List.forall_mem_append] at hstable
    rw [readBackElements, dumpElements, dumpElements, dump_readBack e hordered.1 hstable.1,
      dumpElements_readBack false rest hordered.2 hstable.2]

theorem dumpMembers_readBack (first : Bool) : ∀ members : List (String × Json),
    OrderedMembers members → Stable strtod lib (doublesOfMembers members) →
      dumpMembers lib first (readBackMembers strtod lib members) = dumpMembers lib first members
  | [], _, _ => by rw [readBackMembers]
  | (k, v) :: rest, hordered, hstable => by
    rw [OrderedMembers] at hordered
    rw [doublesOfMembers, Stable, List.forall_mem_append] at hstable
    rw [readBackMembers, dumpMembers, dumpMembers, dump_readBack v hordered.1 hstable.1,
      dumpMembers_readBack false rest hordered.2 hstable.2]

end

/-- What has been parsed can be dumped and parsed again. -/
theorem parse_dump_of_parse
    (hnumber : ∀ x : Float, x.isFinite = true → lib.printDouble x ∈ Grammar.number) {text : Text}
    {j : Json} (h : parse strtod text = .ok j) :
    parse strtod (j.dump lib) = .ok (j.readBack strtod lib) := by
  have hfinite : j.FiniteDoubles := finiteDoubles_of_derives (parse_eq_ok.mp h)
  exact parse_dump_utf8 (wellFormed_of_parse h).utf8 fun x hx => hnumber x (hfinite x hx)

/-- **A text is written again once.**  Whatever text is parsed, its value is dumped to a
    text that parses again, and if the doubles in it are printed again as they were, that
    text is the one its own value is dumped to. -/
theorem parse_dump_again (strtod : Text → Float) (lib : JsonLibrary)
    (hnumber : ∀ x : Float, x.isFinite = true → lib.printDouble x ∈ Grammar.number) {text : Text}
    {j : Json} (h : parse strtod text = .ok j) :
    ∃ again, parse strtod (j.dump lib) = .ok again ∧ again.WellFormed ∧
      (Stable strtod lib j.doubles → again.dump lib = j.dump lib) := by
  refine ⟨_, parse_dump_of_parse hnumber h, ?_, ?_⟩
  · exact wellFormed_of_parse (parse_dump_of_parse hnumber h)
  · exact dump_readBack j (wellFormed_of_parse h).ordered

theorem parse_dump_again_twice :
    let lib := JsonLibrary.ofTable []
    let j := Json.object [("a", .array [.string "\t", .null]), ("b", .numberInteger (-2))]
    ∃ again, parse (fun _ => 0) (j.dump lib) = .ok again ∧ again.WellFormed ∧
      (Stable (fun _ => 0) lib j.doubles → again.dump lib = j.dump lib) :=
  @parse_dump_again (fun _ => 0) (.ofTable []) (fun _ _ => zero_mem_number)
    "\x7b\"b\":1, \"a\":[\"\\t\",null], \"b\":-2\x7d".toList _ rfl

end IsmDevice.Json
