import Mathlib.Data.List.Basic

/-!
# Assignments in a `try` block

A list of assignments, each of a field of a state and each reading its value from
one input.  The first read that throws ends the list, and what was assigned before
it stays assigned.

Where the assignments write different fields, the block is followed exactly: if all
the values can be read, the state ends with all of them, and it ends as it was
exactly if every value that was assigned is the one the field already held.
-/

namespace TryBlock

universe u v

/-- The assignment of what is read from the input to a field of the state. -/
structure Write (ι : Type u) (σ : Type v) where
  Value : Type
  read : ι → Option Value
  get : σ → Value
  set : σ → Value → σ
  get_set : ∀ s x, get (set s x) = x
  set_get : ∀ s, set s (get s) = s

variable {ι : Type u} {σ : Type v}

/-- Two assignments of different fields. -/
structure Independent (earlier later : Write ι σ) : Prop where
  earlier_kept : ∀ s x, earlier.get (later.set s x) = earlier.get s
  later_kept : ∀ s x, later.get (earlier.set s x) = later.get s

/-- The assignments in order, up to the first whose read throws. -/
def run (input : ι) : List (Write ι σ) → σ → σ
  | [], s => s
  | w :: rest, s =>
      match w.read input with
      | some x => run input rest (w.set s x)
      | none => s

/-- The input gives all the fields of this state. -/
def Gives (input : ι) (writes : List (Write ι σ)) (s : σ) : Prop :=
  ∀ w ∈ writes, w.read input = some (w.get s)

/-- What is assigned before the first read that throws is what the fields hold. -/
def Repeats (input : ι) (writes : List (Write ι σ)) (s : σ) : Prop :=
  Gives input (writes.takeWhile fun w => (w.read input).isSome) s

variable {input : ι} {w : Write ι σ} {writes : List (Write ι σ)} {s t : σ}

theorem run_of_read_none (h : w.read input = none) : run input (w :: writes) s = s := by
  rw [run, h]

theorem run_of_read_some {x : w.Value} (h : w.read input = some x) :
    run input (w :: writes) s = run input writes (w.set s x) := by
  rw [run, h]

theorem gives_cons : Gives input (w :: writes) s ↔
    w.read input = some (w.get s) ∧ Gives input writes s :=
  List.forall_mem_cons

theorem repeats_of_read_none (h : w.read input = none) : Repeats input (w :: writes) s := by
  intro w' hw'
  rw [List.takeWhile_cons_of_neg (by simp [h])] at hw'
  exact absurd hw' List.not_mem_nil

theorem repeats_of_read_some {x : w.Value} (h : w.read input = some x) :
    Repeats input (w :: writes) s ↔ x = w.get s ∧ Repeats input writes s := by
  rw [Repeats, List.takeWhile_cons_of_pos (by simp [h]), gives_cons, h, Option.some.injEq]
  rfl

/-- Assignments that leave a field alone leave it as it was. -/
theorem get_run (h : ∀ later ∈ writes, Independent w later) :
    w.get (run input writes s) = w.get s := by
  induction writes generalizing s with
  | nil => rfl
  | cons later rest ih =>
    obtain ⟨hlater, hrest⟩ := List.forall_mem_cons.mp h
    cases hread : later.read input with
    | none => rw [run_of_read_none hread]
    | some x =>
      rw [run_of_read_some hread, ih hrest]
      exact hlater.earlier_kept s x

/-- What the block assigned first is there at its end. -/
theorem get_run_cons (h : ∀ later ∈ writes, Independent w later) {x : w.Value}
    (hread : w.read input = some x) : w.get (run input (w :: writes) s) = x := by
  rw [run_of_read_some hread, get_run h]
  exact w.get_set s x

/-- **One field.**  It is assigned exactly if the values before it can be read. -/
theorem get_run_getElem (hwrites : writes.Pairwise Independent) (n : Nat) (hn : n < writes.length)
    (s : σ) : writes[n].get (run input writes s) =
      if (writes.take n).all fun w => (w.read input).isSome then
        (writes[n].read input).getD (writes[n].get s)
      else writes[n].get s := by
  induction n generalizing writes s with
  | zero =>
    cases writes with
    | nil => exact absurd hn (Nat.not_lt_zero _)
    | cons w rest =>
      show w.get _ = (w.read input).getD (w.get s)
      cases hread : w.read input with
      | none => rw [run_of_read_none hread, Option.getD_none]
      | some x => rw [get_run_cons (List.pairwise_cons.mp hwrites).1 hread, Option.getD_some]
  | succ n ih =>
    cases writes with
    | nil => exact absurd hn (Nat.not_lt_zero _)
    | cons w rest =>
      obtain ⟨hfirst, hrest⟩ := List.pairwise_cons.mp hwrites
      have hlt : n < rest.length := Nat.lt_of_succ_lt_succ hn
      rw [List.getElem_cons_succ, List.take_succ_cons, List.all_cons]
      cases hread : w.read input with
      | none =>
        rw [run_of_read_none hread]
        rfl
      | some x =>
        have hkept := (hfirst _ (List.getElem_mem hlt)).later_kept s x
        rw [run_of_read_some hread, ih hrest hlt, hkept]
        rfl

/-- **All.**  The block assigns every value that the input gives. -/
theorem gives_run (hwrites : writes.Pairwise Independent) (h : Gives input writes t) :
    Gives input writes (run input writes s) := by
  induction writes generalizing s with
  | nil =>
    intro w hw
    exact absurd hw List.not_mem_nil
  | cons w rest ih =>
    obtain ⟨hfirst, hrest⟩ := List.pairwise_cons.mp hwrites
    obtain ⟨hread, hgives⟩ := gives_cons.mp h
    apply gives_cons.mpr
    rw [get_run_cons hfirst hread, run_of_read_some hread]
    exact ⟨hread, ih hrest hgives⟩

/-- Where the fields make up the state, the block ends in the state that the input
    gives. -/
theorem run_eq_of_gives (hwrites : writes.Pairwise Independent)
    (hext : ∀ s t : σ, (∀ w ∈ writes, w.get s = w.get t) → s = t)
    (h : Gives input writes t) : run input writes s = t := by
  apply hext
  intro w hw
  have hrun := gives_run (s := s) hwrites h w hw
  rw [h w hw] at hrun
  exact (Option.some.inj hrun).symm

/-- **Nothing.**  The block leaves the state as it was exactly if it repeats what
    the fields hold. -/
theorem run_eq_self_iff (hwrites : writes.Pairwise Independent) :
    run input writes s = s ↔ Repeats input writes s := by
  induction writes generalizing s with
  | nil =>
    apply iff_of_true
    · rfl
    · intro w hw
      exact absurd hw List.not_mem_nil
  | cons w rest ih =>
    obtain ⟨hfirst, hrest⟩ := List.pairwise_cons.mp hwrites
    cases hread : w.read input with
    | none => exact iff_of_true (run_of_read_none hread) (repeats_of_read_none hread)
    | some x =>
      rw [repeats_of_read_some hread]
      constructor
      · intro hrun
        have hx : x = w.get s := by
          rw [← get_run_cons (s := s) hfirst hread, hrun]
        rw [run_of_read_some hread, hx, w.set_get] at hrun
        exact ⟨hx, (ih hrest).mp hrun⟩
      · rintro ⟨rfl, hrepeats⟩
        rw [run_of_read_some hread, w.set_get]
        exact (ih hrest).mpr hrepeats

end TryBlock
