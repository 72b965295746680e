import Mathlib.Data.List.DropRight

/-!
# Positions in a `std::string`

`size_t` is 32 bits wide on the target, so positions wrap as a `UInt32` does,
and `npos` is its largest value.  Every string is shorter than `npos`.
-/

namespace CppString

def npos : UInt32 := 4294967295

def size (s : List Char) : UInt32 := UInt32.ofNat s.length

def lastIndexOf (c : Char) : List Char → Option Nat
  | [] => none
  | x :: rest =>
      match lastIndexOf c rest with
      | some i => some (i + 1)
      | none => if x = c then some 0 else none

def findLastOf (c : Char) (s : List Char) : UInt32 :=
  match lastIndexOf c s with
  | some i => UInt32.ofNat i
  | none => npos

/-- The first position at which the pattern stands. -/
def indexOf (pattern : List Char) : List Char → Option Nat
  | [] => if pattern.isEmpty then some 0 else none
  | x :: rest =>
      if pattern.isPrefixOf (x :: rest) then some 0 else (indexOf pattern rest).map (· + 1)

/-- `find`: the first position from `pos` on. -/
def find (pattern s : List Char) (pos : UInt32) : UInt32 :=
  if pos.toNat ≤ s.length then
    match indexOf pattern (s.drop pos.toNat) with
    | some i => pos + UInt32.ofNat i
    | none => npos
  else npos

/-- `substr`: at most `count` characters from `pos` on; `none` is the
    `out_of_range` thrown for a position past the end. -/
def substr (s : List Char) (pos count : UInt32) : Option (List Char) :=
  if pos.toNat ≤ s.length then some ((s.drop pos.toNat).take count.toNat) else none

/-- A string that there can be: `max_size()` is below `npos`. -/
def Fits (s : List Char) : Prop := s.length < npos.toNat

instance (s : List Char) : Decidable (Fits s) := inferInstanceAs (Decidable (_ < _))

section Substr

variable {s : List Char} {pos count : UInt32}

theorem substr_of_le (h : pos.toNat ≤ s.length) :
    substr s pos count = some ((s.drop pos.toNat).take count.toNat) := if_pos h

theorem substr_of_lt (h : s.length < pos.toNat) : substr s pos count = none :=
  if_neg (Nat.not_le_of_lt h)

/-- With a count that is large enough, the rest of the string. -/
theorem substr_rest (hpos : pos.toNat ≤ s.length) (hcount : s.length - pos.toNat ≤ count.toNat) :
    substr s pos count = some (s.drop pos.toNat) := by
  rw [substr_of_le hpos, List.take_of_length_le]
  rw [List.length_drop]
  exact hcount

theorem toNat_size : (size s).toNat = s.length % 4294967296 := UInt32.toNat_ofNat'

theorem toNat_npos : npos.toNat = 4294967295 := rfl

end Substr

/-! ### The last occurrence -/

section LastOf

variable {c : Char} {s : List Char}

theorem lastIndexOf_eq_none_iff : lastIndexOf c s = none ↔ c ∉ s := by
  induction s with
  | nil => simp [lastIndexOf]
  | cons x rest ih =>
    rw [lastIndexOf, List.mem_cons, not_or]
    cases h : lastIndexOf c rest with
    | some i =>
      rw [h] at ih
      simp [← ih]
    | none =>
      have hrest := ih.mp h
      by_cases hx : x = c
      · simp [hx]
      · simp [hx, Ne.symm hx, hrest]

theorem lastIndexOf_append {rest : List Char} (h : c ∉ rest) (pre : List Char) :
    lastIndexOf c (pre ++ c :: rest) = some pre.length := by
  induction pre with
  | nil =>
    rw [List.nil_append, lastIndexOf, lastIndexOf_eq_none_iff.mpr h]
    simp
  | cons x pre ih =>
    rw [List.cons_append, lastIndexOf, ih]
    rfl

/-- What follows the last `c`. -/
theorem exists_eq_append_rtakeWhile (h : c ∈ s) :
    ∃ pre, s = pre ++ c :: s.rtakeWhile (· ≠ c) := by
  induction s using List.reverseRecOn with
  | nil => exact absurd h List.not_mem_nil
  | append_singleton init x ih =>
    rw [List.rtakeWhile_concat]
    by_cases hx : x = c
    · refine ⟨init, ?_⟩
      simp [hx]
    · have hinit : c ∈ init := by
        rcases List.mem_append.mp h with hinit | hlast
        · exact hinit
        · exact absurd (List.mem_singleton.mp hlast).symm hx
      obtain ⟨pre, hpre⟩ := ih hinit
      refine ⟨pre, ?_⟩
      simp only [hx, ne_eq, not_false_eq_true, decide_true, if_true]
      rw [← List.cons_append, ← List.append_assoc, ← hpre]

theorem notMem_rtakeWhile : c ∉ s.rtakeWhile (· ≠ c) := by
  intro h
  simpa using List.mem_rtakeWhile_imp h

theorem rtakeWhile_of_notMem (h : c ∉ s) : s.rtakeWhile (· ≠ c) = s := by
  rw [List.rtakeWhile_eq_self_iff]
  intro x hx
  have hne : x ≠ c := by
    rintro rfl
    exact h hx
  simpa using hne

theorem rtakeWhile_append_cons {rest : List Char} (h : c ∉ rest) (pre : List Char) :
    (pre ++ c :: rest).rtakeWhile (· ≠ c) = rest := by
  have hall : ∀ x ∈ rest.reverse, decide (x ≠ c) = true := by
    intro x hx
    rw [decide_eq_true_eq]
    rintro rfl
    exact h (List.mem_reverse.mp hx)
  rw [List.rtakeWhile, List.reverse_append, List.reverse_cons, List.append_assoc,
    List.takeWhile_append_of_pos hall]
  simp

theorem findLastOf_of_notMem (h : c ∉ s) : findLastOf c s = npos := by
  rw [findLastOf, lastIndexOf_eq_none_iff.mpr h]

/-- The position of the last `c`, up to the width of a `size_t`. -/
theorem findLastOf_of_mem (h : c ∈ s) :
    ∃ pre, s = pre ++ c :: s.rtakeWhile (· ≠ c) ∧
      (findLastOf c s).toNat = pre.length % 4294967296 := by
  obtain ⟨pre, hpre⟩ := exists_eq_append_rtakeWhile h
  have hlast : lastIndexOf c s = some pre.length := by
    rw [hpre]
    exact lastIndexOf_append notMem_rtakeWhile pre
  refine ⟨pre, hpre, ?_⟩
  rw [findLastOf, hlast]
  exact UInt32.toNat_ofNat'

end LastOf

/-! ### The first occurrence -/

section First

variable {pattern s t r : List Char} {c : Char}

theorem prefix_of_indexOf {i : Nat} (h : indexOf pattern s = some i) :
    i ≤ s.length ∧ pattern <+: s.drop i := by
  induction s generalizing i with
  | nil =>
    rw [indexOf] at h
    split at h
    case isTrue hempty =>
      obtain rfl := Option.some.inj h
      rw [List.isEmpty_iff.mp hempty]
      exact ⟨Nat.le_refl _, List.nil_prefix⟩
    case isFalse => exact absurd h (by simp)
  | cons x rest ih =>
    rw [indexOf] at h
    split at h
    case isTrue hstarts =>
      obtain rfl := Option.some.inj h
      exact ⟨Nat.zero_le _, List.isPrefixOf_iff_prefix.mp hstarts⟩
    case isFalse =>
      obtain ⟨j, hj, rfl⟩ := Option.map_eq_some_iff.mp h
      obtain ⟨hle, hstarts⟩ := ih hj
      exact ⟨Nat.succ_le_succ hle, hstarts⟩

theorem indexOf_eq_none_iff : indexOf pattern s = none ↔ ¬ pattern <:+: s := by
  induction s with
  | nil =>
    rw [indexOf, List.infix_nil]
    cases pattern <;> simp
  | cons x rest ih =>
    rw [indexOf, List.infix_cons_iff, ← List.isPrefixOf_iff_prefix, not_or, ← ih]
    split
    case isTrue hstarts => simp [hstarts]
    case isFalse hstarts => simp [hstarts]

theorem find_zero : find pattern s 0 = match indexOf pattern s with
    | some i => UInt32.ofNat i
    | none => npos := by
  have hle : (0 : UInt32).toNat ≤ s.length := Nat.zero_le _
  rw [find, if_pos hle]
  cases h : indexOf pattern s with
  | none => simp [h]
  | some i => simp [h]

theorem find_ne_npos_iff (hfits : Fits s) : find pattern s 0 ≠ npos ↔ pattern <:+: s := by
  rw [find_zero]
  cases h : indexOf pattern s with
  | none => simpa using indexOf_eq_none_iff.mp h
  | some i =>
    have hlt : i < npos.toNat := Nat.lt_of_le_of_lt (prefix_of_indexOf h).1 hfits
    apply iff_of_true
    · intro heq
      have hi := congrArg UInt32.toNat heq
      rw [UInt32.toNat_ofNat', Nat.mod_eq_of_lt (Nat.lt_trans hlt (by decide))] at hi
      omega
    · by_contra hnot
      rw [indexOf_eq_none_iff.mpr hnot] at h
      simp at h

/-- What follows the first occurrence. -/
def after (pattern s : List Char) : Option (List Char) :=
  (indexOf pattern s).map fun i => s.drop (i + pattern.length)

theorem exists_of_after {w : List Char} (h : after pattern s = some w) :
    ∃ front, s = front ++ (pattern ++ w) := by
  obtain ⟨i, hindex, rfl⟩ := Option.map_eq_some_iff.mp h
  obtain ⟨more, hmore⟩ := (prefix_of_indexOf hindex).2
  refine ⟨s.take i, ?_⟩
  rw [← List.drop_drop, ← hmore, List.drop_left, hmore, List.take_append_drop]

theorem after_eq_none_iff : after pattern s = none ↔ ¬ pattern <:+: s :=
  Option.map_eq_none_iff.trans indexOf_eq_none_iff

/-- Nothing that has no separator in it reaches over one. -/
theorem prefix_append_cons_iff (hc : c ∉ pattern) : pattern <+: t ++ c :: r ↔ pattern <+: t := by
  constructor
  · intro h
    by_cases hle : pattern.length ≤ t.length
    · exact List.prefix_of_prefix_length_le h (List.prefix_append t _) hle
    · have hlonger : t ++ [c] <+: pattern := by
        apply List.prefix_of_prefix_length_le _ h
        · rw [List.length_append, List.length_singleton]
          omega
        · exact ⟨r, by simp⟩
      exact absurd (hlonger.subset (by simp)) hc
  · intro h
    exact h.trans (List.prefix_append t _)

theorem indexOf_append_cons (hc : c ∉ pattern) (hpattern : pattern ≠ []) :
    indexOf pattern (t ++ c :: r) = match indexOf pattern t with
      | some i => some i
      | none => (indexOf pattern r).map (· + (t.length + 1)) := by
  have hstarts : ∀ t, pattern.isPrefixOf (t ++ c :: r) = pattern.isPrefixOf t := by
    intro t
    rw [Bool.eq_iff_iff, List.isPrefixOf_iff_prefix, List.isPrefixOf_iff_prefix]
    exact prefix_append_cons_iff hc
  induction t with
  | nil =>
    have hfirst : pattern.isPrefixOf (c :: r) = false := by
      rw [← List.nil_append (c :: r), hstarts, ← Bool.not_eq_true, List.isPrefixOf_iff_prefix,
        List.prefix_nil]
      exact hpattern
    rw [List.nil_append, indexOf, indexOf, hfirst]
    simp [hpattern]
  | cons x t ih =>
    have hhead := hstarts (x :: t)
    rw [List.cons_append] at hhead ⊢
    rw [indexOf, indexOf, hhead, ih]
    by_cases hx : pattern.isPrefixOf (x :: t) = true
    · rw [if_pos hx, if_pos hx]
    · rw [if_neg hx, if_neg hx]
      cases indexOf pattern t with
      | some i => rfl
      | none =>
        rw [Option.map_map]
        rfl

theorem after_append_cons (hc : c ∉ pattern) (hpattern : pattern ≠ []) :
    after pattern (t ++ c :: r) = match after pattern t with
      | some w => some (w ++ c :: r)
      | none => after pattern r := by
  unfold after
  rw [indexOf_append_cons hc hpattern]
  cases h : indexOf pattern t with
  | some i =>
    obtain ⟨hle, hstarts⟩ := prefix_of_indexOf h
    have hlength := hstarts.length_le
    rw [List.length_drop] at hlength
    dsimp only [Option.map_some]
    rw [List.drop_append_of_le_length (by omega)]
  | none =>
    dsimp only [Option.map_none]
    rw [Option.map_map]
    congr 1
    funext i
    have hdrop : i + (t.length + 1) + pattern.length = t.length + (1 + (i + pattern.length)) := by
      omega
    rw [Function.comp_apply, hdrop, ← List.drop_drop, List.drop_left, ← List.drop_drop]
    rfl

end First

/-! ### Up to the next separator -/

section UpTo

variable {s : List Char} {c : Char} {pos : UInt32}

theorem indexOf_singleton (h : c ∈ s) : indexOf [c] s = some (s.takeWhile (· ≠ c)).length := by
  induction s with
  | nil => exact absurd h List.not_mem_nil
  | cons x rest ih =>
    rw [indexOf]
    by_cases hx : x = c
    · simp [hx]
    · have hrest : c ∈ rest := (List.mem_cons.mp h).resolve_left (Ne.symm hx)
      simp [hx, Ne.symm hx, ih hrest]

theorem indexOf_singleton_of_notMem (h : c ∉ s) : indexOf [c] s = none := by
  rw [indexOf_eq_none_iff]
  intro hoccurs
  exact h (hoccurs.subset (List.mem_singleton_self c))

/-- The text up to the next `c`, where a `c` at its very beginning does not count. -/
def upTo (c : Char) : List Char → List Char
  | [] => []
  | x :: rest => x :: rest.takeWhile (· ≠ c)

/-- It ends where the text does, or before a `c`. -/
theorem exists_upTo (c : Char) (s : List Char) :
    ∃ rest, s = upTo c s ++ rest ∧ (rest = [] ∨ ∃ more, rest = c :: more) := by
  cases s with
  | nil => exact ⟨[], rfl, Or.inl rfl⟩
  | cons x s =>
    refine ⟨s.dropWhile (· ≠ c), ?_, ?_⟩
    · rw [upTo, List.cons_append, List.takeWhile_append_dropWhile]
    · cases hrest : s.dropWhile (· ≠ c) with
      | nil => exact Or.inl rfl
      | cons y more =>
        have hnot := List.head?_dropWhile_not (· ≠ c) s
        rw [hrest] at hnot
        have hy : y = c := by simpa using hnot
        exact Or.inr ⟨more, by rw [hy]⟩

/-- What `substr` takes from `pos` to the `c` that `find` finds after it. -/
theorem substr_find (hfits : Fits s) (hpos : pos.toNat ≤ s.length) :
    substr s pos (find [c] s (pos + 1) - pos) = some (upTo c (s.drop pos.toNat)) := by
  have hlength : s.length < 4294967295 := hfits
  have hnext : (pos + 1).toNat = pos.toNat + 1 := by
    rw [UInt32.toNat_add, UInt32.toNat_one]
    omega
  rw [substr_of_le hpos, find, hnext]
  rcases Nat.lt_or_ge pos.toNat s.length with hlt | hge
  · rw [if_pos (Nat.succ_le_of_lt hlt), List.drop_eq_getElem_cons hlt, upTo]
    have hcount : (s.drop (pos.toNat + 1)).length < 4294967295 := by
      rw [List.length_drop]
      omega
    by_cases hc : c ∈ s.drop (pos.toNat + 1)
    · have hstarts := (List.takeWhile_prefix (· ≠ c) (l := s.drop (pos.toNat + 1)))
      have hle := hstarts.length_le
      have htake : (pos + 1 + UInt32.ofNat
          ((s.drop (pos.toNat + 1)).takeWhile (· ≠ c)).length - pos).toNat =
          ((s.drop (pos.toNat + 1)).takeWhile (· ≠ c)).length + 1 := by
        rw [List.length_drop] at hle
        rw [UInt32.toNat_sub, UInt32.toNat_add, hnext, UInt32.toNat_ofNat']
        omega
      rw [indexOf_singleton hc]
      dsimp only
      rw [htake, List.take_succ_cons, ← List.prefix_iff_eq_take.mp hstarts]
    · have htake : s.length - pos.toNat ≤ (npos - pos).toNat := by
        rw [UInt32.toNat_sub, toNat_npos]
        omega
      have hall : (s.drop (pos.toNat + 1)).takeWhile (· ≠ c) = s.drop (pos.toNat + 1) := by
        rw [List.takeWhile_eq_self_iff]
        intro x hx
        have hne : x ≠ c := by
          rintro rfl
          exact hc hx
        simpa using hne
      rw [indexOf_singleton_of_notMem hc, hall]
      dsimp only
      rw [List.take_of_length_le]
      rw [List.length_cons, List.length_drop]
      omega
  · rw [List.drop_eq_nil_of_le hge]
    simp [upTo]

end UpTo

end CppString
