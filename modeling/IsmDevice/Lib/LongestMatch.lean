import Mathlib.Computability.Language
import Mathlib.Order.CompletePartialOrder

/-!
# Longest match

A scanner generator turns the expressions for the tokens of a language into one
deterministic automaton, whose accepting states say which kind of token has been
read.  The scanner then takes the longest prefix of its input that leads to an
accepting state.

The languages of the states are `Language`s of Mathlib.  A state whose outgoing
edges are listed satisfies one linear equation, `language_eq_sum`, and a loop of
the automaton is solved by Arden's lemma.
-/

namespace LongestMatch

open Computability

universe u v w

variable {σ : Type u} {α : Type v} {τ : Type w}

/-! ### Classes of letters -/

/-- The words of one letter, out of a class of letters. -/
def oneOf (letters : Set α) : Language α := {word | ∃ a ∈ letters, word = [a]}

@[simp]
theorem cons_mem_oneOf {letters : Set α} {a : α} {word : List α} :
    a :: word ∈ oneOf letters ↔ a ∈ letters ∧ word = [] := by
  constructor
  · rintro ⟨b, hb, heq⟩
    obtain ⟨rfl, rfl⟩ := List.cons.inj heq
    exact ⟨hb, rfl⟩
  · rintro ⟨ha, rfl⟩
    exact ⟨a, ha, rfl⟩

@[simp]
theorem nil_notMem_oneOf (letters : Set α) : [] ∉ oneOf letters := by
  rintro ⟨a, _, heq⟩
  exact List.cons_ne_nil a [] heq.symm

@[simp]
theorem nil_notMem_oneOf_mul (letters : Set α) (l : Language α) : [] ∉ oneOf letters * l := by
  intro h
  obtain ⟨x, hx, y, _, heq⟩ := Language.mem_mul.mp h
  rw [List.append_eq_nil_iff] at heq
  exact nil_notMem_oneOf letters (heq.1 ▸ hx)

@[simp]
theorem cons_mem_oneOf_mul {letters : Set α} {l : Language α} {a : α} {word : List α} :
    a :: word ∈ oneOf letters * l ↔ a ∈ letters ∧ word ∈ l := by
  rw [Language.mem_mul]
  constructor
  · rintro ⟨x, ⟨b, hb, rfl⟩, y, hy, heq⟩
    obtain ⟨rfl, rfl⟩ := List.cons.inj heq
    exact ⟨hb, hy⟩
  · rintro ⟨ha, hword⟩
    exact ⟨[a], cons_mem_oneOf.mpr ⟨ha, rfl⟩, word, hword, rfl⟩

/-- The words over a class. -/
theorem mem_kstar_oneOf {letters : Set α} {word : List α} :
    word ∈ (oneOf letters)∗ ↔ ∀ a ∈ word, a ∈ letters := by
  induction word with
  | nil => simp [Language.nil_mem_kstar]
  | cons a rest ih =>
    rw [← Language.one_add_self_mul_kstar_eq_kstar, Language.mem_add, cons_mem_oneOf_mul, ih,
      List.forall_mem_cons]
    simp

theorem oneOf_le_kstar {letters more : Set α} (h : letters ⊆ more) :
    oneOf letters ≤ (oneOf more)∗ := by
  rintro _ ⟨a, ha, rfl⟩
  apply mem_kstar_oneOf.mpr
  intro b hb
  rw [List.mem_singleton.mp hb]
  exact h ha

theorem mul_le_kstar_oneOf {letters : Set α} {l m : Language α} (hl : l ≤ (oneOf letters)∗)
    (hm : m ≤ (oneOf letters)∗) : l * m ≤ (oneOf letters)∗ :=
  (mul_le_mul' hl hm).trans (kstar_mul_kstar _).le

/-! ### Automata -/

/-- `step` is `none` where a state has no edge for a letter, and `kind` says what
    a state accepts. -/
structure Automaton (σ : Type u) (α : Type v) (τ : Type w) where
  step : σ → α → Option σ
  kind : σ → Option τ

namespace Automaton

variable (A : Automaton σ α τ)

def run : σ → List α → Option σ
  | s, [] => some s
  | s, a :: input => (A.step s a).bind fun s' => run s' input

/-- The kind and the length of the longest prefix that leads from `s` to an
    accepting state. -/
def longest : σ → List α → Option (τ × Nat)
  | s, [] => (A.kind s).map fun t => (t, 0)
  | s, a :: input =>
      match (A.step s a).bind fun s' => longest s' input with
      | some (t, n) => some (t, n + 1)
      | none => (A.kind s).map fun t => (t, 0)

/-- The words that lead from `s` to a state that accepts `t`. -/
def language (t : τ) (s : σ) : Language α :=
  {word | ∃ s', A.run s word = some s' ∧ A.kind s' = some t}

variable {A}

@[simp]
theorem nil_mem_language {t : τ} {s : σ} : [] ∈ A.language t s ↔ A.kind s = some t := by
  constructor
  · rintro ⟨s', hrun, hkind⟩
    rwa [Option.some.inj hrun]
  · exact fun hkind => ⟨s, rfl, hkind⟩

@[simp]
theorem cons_mem_language {t : τ} {s : σ} {a : α} {word : List α} :
    a :: word ∈ A.language t s ↔ ∃ s', A.step s a = some s' ∧ word ∈ A.language t s' := by
  constructor
  · rintro ⟨s'', hrun, hkind⟩
    obtain ⟨s', hstep, hrest⟩ := Option.bind_eq_some_iff.mp hrun
    exact ⟨s', hstep, s'', hrest, hkind⟩
  · rintro ⟨s', hstep, s'', hrest, hkind⟩
    exact ⟨s'', Option.bind_eq_some_iff.mpr ⟨s', hstep, hrest⟩, hkind⟩

theorem append_mem_language {t : τ} {s : σ} {word more : List α} :
    word ++ more ∈ A.language t s ↔ ∃ s', A.run s word = some s' ∧ more ∈ A.language t s' := by
  induction word generalizing s with
  | nil =>
    constructor
    · exact fun h => ⟨s, rfl, h⟩
    · rintro ⟨s', hrun, h⟩
      rwa [Option.some.inj hrun]
  | cons a word ih =>
    simp only [List.cons_append, cons_mem_language, ih, run, Option.bind_eq_some_iff]
    constructor
    · rintro ⟨s₁, hstep, s', hrun, h⟩
      exact ⟨s', ⟨s₁, hstep, hrun⟩, h⟩
    · rintro ⟨s', ⟨s₁, hstep, hrun⟩, h⟩
      exact ⟨s₁, hstep, s', hrun, h⟩

/-- A word is of one kind only. -/
theorem kind_unique {s : σ} {t t' : τ} {word : List α} (h : word ∈ A.language t s)
    (h' : word ∈ A.language t' s) : t = t' := by
  obtain ⟨q, hrun, hkind⟩ := h
  obtain ⟨q', hrun', hkind'⟩ := h'
  obtain rfl : q = q' := Option.some.inj (hrun.symm.trans hrun')
  exact Option.some.inj (hkind.symm.trans hkind')

/-! ### The longest match -/

/-- No prefix of the input is a word of the state. -/
theorem longest_eq_none_iff {s : σ} {input : List α} :
    A.longest s input = none ↔ ∀ m t, m ≤ input.length → input.take m ∉ A.language t s := by
  induction input generalizing s with
  | nil =>
    rw [longest, Option.map_eq_none_iff, Option.eq_none_iff_forall_ne_some]
    constructor
    · intro h m t _
      rw [List.take_nil, nil_mem_language]
      exact h t
    · intro h t
      exact fun ht => h 0 t (Nat.zero_le _) (nil_mem_language.mpr ht)
  | cons a input ih =>
    rw [longest]
    constructor
    · intro h m t hm
      split at h
      case h_1 => cases h
      case h_2 hnone =>
        rw [Option.map_eq_none_iff] at h
        cases m with
        | zero => simp [h]
        | succ m =>
          rw [List.take_succ_cons, cons_mem_language]
          rintro ⟨s', hstep, hmem⟩
          rw [hstep, Option.bind_some] at hnone
          exact ih.mp hnone m t (Nat.le_of_succ_le_succ hm) hmem
    · intro h
      have hkind : A.kind s = none := by
        rw [Option.eq_none_iff_forall_ne_some]
        intro t ht
        exact h 0 t (Nat.zero_le _) (nil_mem_language.mpr ht)
      have hnone : ((A.step s a).bind fun s' => A.longest s' input) = none := by
        rw [Option.bind_eq_none_iff]
        intro s' hstep
        rw [ih]
        intro m t hm hmem
        exact h (m + 1) t (Nat.succ_le_succ hm) (cons_mem_language.mpr ⟨s', hstep, hmem⟩)
      rw [hnone, hkind]
      rfl

theorem kind_of_longest_eq_none {s : σ} {input : List α} (h : A.longest s input = none) :
    A.kind s = none := by
  rw [Option.eq_none_iff_forall_ne_some]
  intro t ht
  exact longest_eq_none_iff.mp h 0 t (Nat.zero_le _) (nil_mem_language.mpr ht)

theorem longest_mem {s : σ} {input : List α} {t : τ} {n : Nat}
    (h : A.longest s input = some (t, n)) :
    n ≤ input.length ∧ input.take n ∈ A.language t s ∧
      ∀ m t', n < m → m ≤ input.length → input.take m ∉ A.language t' s := by
  induction input generalizing s n with
  | nil =>
    obtain ⟨t', hkind, heq⟩ := Option.map_eq_some_iff.mp h
    obtain ⟨rfl, rfl⟩ := Prod.mk.inj heq
    refine ⟨Nat.le_refl 0, nil_mem_language.mpr hkind, ?_⟩
    intro m _ hlt hle
    exact absurd hle (Nat.not_le_of_gt hlt)
  | cons a input ih =>
    rw [longest] at h
    split at h
    case h_1 t₁ n₁ hnext =>
      obtain ⟨rfl, rfl⟩ := Prod.mk.inj (Option.some.inj h)
      obtain ⟨s', hstep, hrest⟩ := Option.bind_eq_some_iff.mp hnext
      obtain ⟨hle, hmem, hmax⟩ := ih hrest
      refine ⟨Nat.succ_le_succ hle, cons_mem_language.mpr ⟨s', hstep, hmem⟩, ?_⟩
      intro m t' hlt hle' hmem'
      obtain ⟨k, rfl⟩ := Nat.exists_eq_add_of_lt hlt
      obtain ⟨s'', hstep', hk⟩ := cons_mem_language.mp hmem'
      obtain rfl : s'' = s' := Option.some.inj (hstep'.symm.trans hstep)
      exact hmax _ t' (by omega) (Nat.le_of_succ_le_succ hle') hk
    case h_2 hnone =>
      obtain ⟨t', hkind, heq⟩ := Option.map_eq_some_iff.mp h
      obtain ⟨rfl, rfl⟩ := Prod.mk.inj heq
      refine ⟨Nat.zero_le _, nil_mem_language.mpr hkind, ?_⟩
      intro m t' hlt hle hmem
      obtain ⟨k, rfl⟩ := Nat.exists_eq_add_of_lt hlt
      obtain ⟨s', hstep, hk⟩ := cons_mem_language.mp hmem
      rw [hstep, Option.bind_some, longest_eq_none_iff] at hnone
      exact hnone _ t' (Nat.le_of_succ_le_succ hle) hk

/-- **The longest match**: the prefix is a word of the state, and no longer prefix
    is one of any kind. -/
theorem longest_eq_some_iff {s : σ} {input : List α} {t : τ} {n : Nat} :
    A.longest s input = some (t, n) ↔
      n ≤ input.length ∧ input.take n ∈ A.language t s ∧
        ∀ m t', n < m → m ≤ input.length → input.take m ∉ A.language t' s := by
  constructor
  · exact longest_mem
  · rintro ⟨hle, hmem, hmax⟩
    cases h : A.longest s input with
    | none => exact absurd hmem (longest_eq_none_iff.mp h n t hle)
    | some found =>
      obtain ⟨t₁, n₁⟩ := found
      obtain ⟨hle₁, hmem₁, hmax₁⟩ := longest_mem h
      rcases Nat.lt_trichotomy n n₁ with hlt | rfl | hgt
      · exact absurd hmem₁ (hmax n₁ t₁ hlt hle₁)
      · rw [kind_unique hmem hmem₁]
      · exact absurd hmem (hmax₁ n t hgt hle)

/-- A word is the longest match where its state has no edge for what follows it. -/
theorem longest_append {s : σ} {t : τ} {word rest : List α} (hword : word ∈ A.language t s)
    (hends : ∀ s' c after, rest = c :: after → A.run s word = some s' →
      A.kind s' = some t → A.step s' c = none) :
    A.longest s (word ++ rest) = some (t, word.length) := by
  rw [longest_eq_some_iff]
  refine ⟨by simp, by simpa using hword, ?_⟩
  intro m t' hlt hle hmem
  obtain ⟨k, rfl⟩ := Nat.exists_eq_add_of_lt hlt
  cases rest with
  | nil =>
    rw [List.append_nil] at hle
    exact absurd hle (Nat.not_le_of_gt hlt)
  | cons c after =>
    rw [Nat.add_assoc, List.take_length_add_append, List.take_succ_cons,
      append_mem_language] at hmem
    obtain ⟨s', hrun, hmem⟩ := hmem
    obtain ⟨s'', hstep, _⟩ := cons_mem_language.mp hmem
    obtain ⟨q, hq, hkind⟩ := hword
    obtain rfl : q = s' := Option.some.inj (hq.symm.trans hrun)
    rw [hends q c after rfl hrun hkind] at hstep
    cases hstep

/-! ### The equation of a state -/

/-- The edges of each state, as classes of letters with the states they lead to. -/
def HasEdges (A : Automaton σ α τ) (edges : σ → List (Set α × σ)) : Prop :=
  ∀ s a s', A.step s a = some s' ↔ ∃ e ∈ edges s, a ∈ e.1 ∧ e.2 = s'

theorem cons_mem_sum {edges : List (Set α × σ)} {l : σ → Language α} {a : α} {word : List α} :
    a :: word ∈ (edges.map fun e => oneOf e.1 * l e.2).sum ↔
      ∃ e ∈ edges, a ∈ e.1 ∧ word ∈ l e.2 := by
  induction edges with
  | nil => simp
  | cons e rest ih =>
    rw [List.map_cons, List.sum_cons, Language.mem_add, cons_mem_oneOf_mul, ih,
      List.exists_mem_cons_iff]

theorem nil_notMem_sum {edges : List (Set α × σ)} {l : σ → Language α} :
    [] ∉ (edges.map fun e => oneOf e.1 * l e.2).sum := by
  induction edges with
  | nil => simp
  | cons e rest ih =>
    rw [List.map_cons, List.sum_cons, Language.mem_add]
    rintro (h | h)
    · exact nil_notMem_oneOf_mul _ _ h
    · exact ih h

variable [DecidableEq τ]

/-- **The equation of a state**: a word of `s` is empty, if `s` accepts, or takes an
    edge and goes on with a word of the state it leads to. -/
theorem language_eq_sum {edges : σ → List (Set α × σ)} (hedges : A.HasEdges edges) (t : τ) (s : σ) :
    A.language t s =
      ((edges s).map fun e => oneOf e.1 * A.language t e.2).sum +
        if A.kind s = some t then 1 else 0 := by
  apply Language.ext
  intro word
  rw [Language.mem_add]
  cases word with
  | nil =>
    simp only [nil_notMem_sum, nil_mem_language, false_or]
    split <;> simp [*]
  | cons a word =>
    have heps : a :: word ∉ (if A.kind s = some t then 1 else 0 : Language α) := by
      split <;> simp
    simp only [cons_mem_language, cons_mem_sum, hedges s a, heps, or_false]
    constructor
    · rintro ⟨s', ⟨e, he, ha, rfl⟩, hword⟩
      exact ⟨e, he, ha, hword⟩
    · rintro ⟨e, he, ha, hword⟩
      exact ⟨e.2, ⟨e, he, ha, rfl⟩, hword⟩

end Automaton

/-- A state with a loop over a class of letters. -/
theorem kstar_of_loop {letters : Set α} {l m : Language α} (h : l = oneOf letters * l + m) :
    l = (oneOf letters)∗ * m :=
  (Language.self_eq_mul_add_iff (nil_notMem_oneOf letters)).mp h

end LongestMatch
