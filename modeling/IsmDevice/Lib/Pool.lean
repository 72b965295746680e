import Mathlib.Data.List.Perm.Basic
import Mathlib.Logic.Basic
import IsmDevice.Lib.Machine

/-!
# Pools of threads

A program that starts threads and keeps no handle of them has, as far as it can
be observed, a list of the phases its threads are in, in the order in which they
were started.  A step of the program starts a thread, or moves one that has not
ended to its next phase, or ends them all.  The number of threads that have not
ended then only grows where one is started, and so it stays below two exactly
if every start finds none left.
-/

namespace Pool

open Transition

universe u v w

variable {φ : Type u} (ended : φ → Bool)

def live (pool : List φ) : Nat := pool.countP fun p => !ended p

/-- At most the thread started last has not ended. -/
def OnlyNewest (pool : List φ) : Prop :=
  ∀ i p, pool[i]? = some p → ended p = false → i + 1 = pool.length

/-- What a step that starts no thread does to the pool. -/
inductive Moves (pool : List φ) : List φ → Prop where
  | keep : Moves pool pool
  | move {i : Nat} {p : φ} (p' : φ) (hi : pool[i]? = some p) (hp : ended p = false) :
      Moves pool (pool.set i p')
  | clear : Moves pool []

variable {ended}

theorem live_eq_zero_iff {pool : List φ} : live ended pool = 0 ↔ ∀ p ∈ pool, ended p = true := by
  simp [live, List.countP_eq_zero]

theorem live_spawn {pool : List φ} {p : φ} (hp : ended p = false) :
    live ended (pool ++ [p]) = live ended pool + 1 := by
  simp [live, List.countP_append, hp]

theorem live_set_le {pool : List φ} {i : Nat} {p : φ} (p' : φ) (hi : pool[i]? = some p)
    (hp : ended p = false) : live ended (pool.set i p') ≤ live ended pool := by
  induction pool generalizing i with
  | nil => simp at hi
  | cons q rest ih =>
    cases i with
    | zero =>
      obtain rfl : q = p := by simpa using hi
      simp only [List.set_cons_zero, live, List.countP_cons, hp]
      split <;> simp
    | succ i =>
      have hrest := ih (i := i) (by simpa using hi)
      simp only [List.set_cons_succ, live, List.countP_cons] at hrest ⊢
      omega

theorem Moves.live_le {pool pool' : List φ} (h : Moves ended pool pool') :
    live ended pool' ≤ live ended pool := by
  cases h with
  | keep => exact Nat.le_refl _
  | move p' hi hp => exact live_set_le p' hi hp
  | clear => exact Nat.zero_le _

/-- A thread after a start was there before it, or is one of the new ones. -/
theorem spawn_cases {pool new : List φ} {i : Nat} {p : φ} (h : (pool ++ new)[i]? = some p) :
    pool[i]? = some p ∨ ∃ j, i = pool.length + j ∧ new[j]? = some p := by
  rcases Nat.lt_or_ge i pool.length with hlt | hge
  · rw [List.getElem?_append_left hlt] at h
    exact Or.inl h
  · rw [List.getElem?_append_right hge] at h
    exact Or.inr ⟨i - pool.length, by omega, h⟩

theorem set_cases {pool : List φ} {i j : Nat} {p p' : φ} (h : (pool.set i p')[j]? = some p) :
    j = i ∧ p = p' ∨ j ≠ i ∧ pool[j]? = some p := by
  by_cases hji : j = i
  · obtain ⟨hlt, hget⟩ := List.getElem?_eq_some_iff.mp h
    subst hji
    exact Or.inl ⟨rfl, hget.symm.trans (List.getElem_set_self hlt)⟩
  · rw [List.getElem?_set_ne (Ne.symm hji)] at h
    exact Or.inr ⟨hji, h⟩

theorem OnlyNewest.nil : OnlyNewest ended ([] : List φ) := by
  intro i p hi
  simp at hi

theorem OnlyNewest.spawn {pool : List φ} (h : live ended pool = 0) (p : φ) :
    OnlyNewest ended (pool ++ [p]) := by
  intro i q hi hq
  have hall := live_eq_zero_iff.mp h
  rcases spawn_cases hi with hold | ⟨j, rfl, hnew⟩
  · rw [hall q (List.mem_of_getElem? hold)] at hq
    exact absurd hq (by decide)
  · obtain ⟨hlt, -⟩ := List.getElem?_eq_some_iff.mp hnew
    rw [List.length_singleton] at hlt
    rw [List.length_append, List.length_singleton]
    omega

theorem OnlyNewest.moves {pool pool' : List φ} (h : OnlyNewest ended pool)
    (hmoves : Moves ended pool pool') : OnlyNewest ended pool' := by
  cases hmoves with
  | keep => exact h
  | clear => exact OnlyNewest.nil
  | @move i p p' hi hp =>
    intro j q hj hq
    rw [List.length_set]
    rcases set_cases hj with ⟨rfl, -⟩ | ⟨-, hold⟩
    · exact h j p hi hp
    · exact h j q hold hq

/-! ### What the threads hold -/

section Held

variable {β : Type w} (holds : φ → Option β)

def held (pool : List φ) : List β := pool.filterMap holds

theorem held_append (pool pool' : List φ) :
    held holds (pool ++ pool') = held holds pool ++ held holds pool' := List.filterMap_append

theorem held_eq_nil_iff {pool : List φ} : held holds pool = [] ↔ ∀ p ∈ pool, holds p = none :=
  List.filterMap_eq_nil_iff

theorem held_perm {pool : List φ} {i : Nat} {p : φ} (hi : pool[i]? = some p) :
    (held holds pool).Perm ((holds p).toList ++ held holds (pool.eraseIdx i)) := by
  obtain ⟨hlt, rfl⟩ := List.getElem?_eq_some_iff.mp hi
  have hperm := (List.getElem_cons_eraseIdx_perm hlt).symm.filterMap holds
  rw [List.filterMap_cons] at hperm
  cases h : holds pool[i] with
  | none =>
    rw [h] at hperm
    exact hperm
  | some x =>
    rw [h] at hperm
    exact hperm

/-- A thread that moves changes what the pool holds by what it holds itself. -/
theorem count_held_set [BEq β] [LawfulBEq β] {pool : List φ} {i : Nat} {p : φ} (p' : φ)
    (hi : pool[i]? = some p) (x : β) :
    (held holds (pool.set i p')).count x + (holds p).toList.count x =
      (held holds pool).count x + (holds p').toList.count x := by
  obtain ⟨hlt, -⟩ := List.getElem?_eq_some_iff.mp hi
  have hi' : (pool.set i p')[i]? = some p' := List.getElem?_set_self hlt
  rw [(held_perm holds hi).count_eq, (held_perm holds hi').count_eq, List.eraseIdx_set_eq,
    List.count_append, List.count_append]
  omega

end Held

/-! ### Machines with a pool -/

section Machine

variable {σ : Type v} {α : Type w} {M : Machine σ α} {pool : σ → List φ} {starts : σ → α → Prop}

variable (ended M pool starts) in
/-- The machine starts a thread in the steps `starts` names, and in no other. -/
structure Runs : Prop where
  start : ∀ s a t, M.step s a = some t → starts s a → ∃ p, ended p = false ∧ pool t = pool s ++ [p]
  move : ∀ s a t, M.step s a = some t → ¬ starts s a → Moves ended (pool s) (pool t)

/-- **One thread at a time.**  Along a run at most one thread has not ended
    exactly if every start finds that all others have. -/
theorem Runs.live_le_one_iff (h : Runs ended M pool starts) {s : σ}
    (hs : live ended (pool s) ≤ 1) (as : List α) :
    M.AllStates (fun s => live ended (pool s) ≤ 1) s as ↔
      M.AllSteps (fun s a => starts s a → live ended (pool s) = 0) s as := by
  apply Machine.allStates_iff_allSteps M _ hs
  intro s a t hone hstep
  by_cases hstart : starts s a
  · obtain ⟨p, hp, hpool⟩ := h.start s a t hstep hstart
    rw [hpool, live_spawn hp, forall_prop_of_true hstart]
    omega
  · have hle := (h.move s a t hstep hstart).live_le
    apply iff_of_true
    · exact Nat.le_trans hle hone
    · intro hcontra
      exact absurd hcontra hstart

theorem Runs.onlyNewest (h : Runs ended M pool starts) {s t : σ} {a : α}
    (hs : OnlyNewest ended (pool s)) (hguard : starts s a → live ended (pool s) = 0)
    (hstep : M.step s a = some t) : OnlyNewest ended (pool t) := by
  by_cases hstart : starts s a
  · obtain ⟨p, -, hpool⟩ := h.start s a t hstep hstart
    rw [hpool]
    exact OnlyNewest.spawn (hguard hstart) p
  · exact hs.moves (h.move s a t hstep hstart)

end Machine

end Pool
