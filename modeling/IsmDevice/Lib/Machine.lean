import Mathlib.Logic.Basic

/-!
# Machines, their runs, and what holds along them

A machine is a partial step function: the action carries every choice made
outside the machine (a message, a scheduling decision, the outcome of a system
call), and the step is undefined where the action cannot be taken.  A run is a
list of actions, followed as long as they can be taken.

`AllStates` and `AllSteps` say that a property holds in every state, or of
every step, of one run.  The rules below reduce such a statement to what a
single step does: an invariant, an invariant kept only by the steps that meet a
guard, and the exact form in which the guard is also necessary.  `Refines`
relates a machine to a more abstract one, stuttering steps included.
-/

namespace Transition

universe u v

structure Machine (σ : Type u) (α : Type v) where
  step : σ → α → Option σ

variable {σ : Type u} {α : Type v}

namespace Machine

def exec (M : Machine σ α) : σ → List α → Option σ
  | s, [] => some s
  | s, a :: as => (M.step s a).bind fun t => M.exec t as

def Reaches (M : Machine σ α) (s t : σ) : Prop := ∃ as, M.exec s as = some t

def AllStates (M : Machine σ α) (I : σ → Prop) : σ → List α → Prop
  | s, [] => I s
  | s, a :: as => I s ∧ ∀ t, M.step s a = some t → M.AllStates I t as

def AllSteps (M : Machine σ α) (C : σ → α → Prop) : σ → List α → Prop
  | _, [] => True
  | s, a :: as => ∀ t, M.step s a = some t → C s a ∧ M.AllSteps C t as

/-- What is observed along a run, step by step. -/
def observe {β : Type*} (M : Machine σ α) (obs : σ → α → List β) : σ → List α → List β
  | _, [] => []
  | s, a :: as =>
      match M.step s a with
      | some t => obs s a ++ M.observe obs t as
      | none => []

variable (M : Machine σ α)

@[simp] theorem exec_nil (s : σ) : M.exec s [] = some s := rfl

theorem exec_cons (s : σ) (a : α) (as : List α) :
    M.exec s (a :: as) = (M.step s a).bind fun t => M.exec t as := rfl

theorem exec_append (s : σ) (as bs : List α) :
    M.exec s (as ++ bs) = (M.exec s as).bind fun t => M.exec t bs := by
  induction as generalizing s with
  | nil => rfl
  | cons a as ih =>
    simp only [List.cons_append, exec_cons]
    cases M.step s a with
    | none => rfl
    | some t => exact ih t

theorem Reaches.refl (s : σ) : M.Reaches s s := ⟨[], rfl⟩

theorem Reaches.trans {M : Machine σ α} {s t u : σ}
    (hst : M.Reaches s t) (htu : M.Reaches t u) : M.Reaches s u := by
  obtain ⟨as, has⟩ := hst
  obtain ⟨bs, hbs⟩ := htu
  exact ⟨as ++ bs, by rw [exec_append, has]; exact hbs⟩

theorem Reaches.of_step {M : Machine σ α} {s t : σ} {a : α}
    (h : M.step s a = some t) : M.Reaches s t :=
  ⟨[a], by simp [exec_cons, h]⟩

/-- **Invariant rule.**  What a step preserves holds of every reached state. -/
theorem Reaches.invariant {M : Machine σ α} {I : σ → Prop}
    (hstep : ∀ s a t, I s → M.step s a = some t → I t)
    {s t : σ} (hs : I s) (h : M.Reaches s t) : I t := by
  obtain ⟨as, has⟩ := h
  induction as generalizing s with
  | nil => simp only [exec_nil, Option.some.injEq] at has; exact has ▸ hs
  | cons a as ih =>
    rw [exec_cons] at has
    obtain ⟨u, hu, hrest⟩ := Option.bind_eq_some_iff.mp has
    exact ih (hstep s a u hs hu) hrest

theorem AllStates.head {M : Machine σ α} {I : σ → Prop} {s : σ} {as : List α}
    (h : M.AllStates I s as) : I s := by
  cases as with
  | nil => exact h
  | cons a as => exact h.1

theorem AllStates.final {M : Machine σ α} {I : σ → Prop} {s t : σ} {as : List α}
    (h : M.AllStates I s as) (hexec : M.exec s as = some t) : I t := by
  induction as generalizing s with
  | nil =>
    injection hexec with heq
    subst heq
    exact h
  | cons a as ih =>
    obtain ⟨u, hu, hrest⟩ := Option.bind_eq_some_iff.mp hexec
    exact ih (h.2 u hu) hrest

theorem AllStates.mono {M : Machine σ α} {I J : σ → Prop} {s : σ} {as : List α}
    (h : M.AllStates I s as) (hIJ : ∀ s, I s → J s) : M.AllStates J s as := by
  induction as generalizing s with
  | nil => exact hIJ s h
  | cons a as ih =>
    refine ⟨hIJ s h.1, ?_⟩
    intro t ht
    exact ih (h.2 t ht)

theorem allStates_of_invariant {I : σ → Prop}
    (hstep : ∀ s a t, I s → M.step s a = some t → I t) {s : σ} (hs : I s) (as : List α) :
    M.AllStates I s as := by
  induction as generalizing s with
  | nil => exact hs
  | cons a as ih =>
    refine ⟨hs, ?_⟩
    intro t ht
    exact ih (hstep s a t hs ht)

theorem AllSteps.cons {M : Machine σ α} {C : σ → α → Prop} {s t : σ} {a : α} {as : List α}
    (hstep : M.step s a = some t) (ha : C s a) (hrest : M.AllSteps C t as) :
    M.AllSteps C s (a :: as) := by
  intro u hu
  obtain rfl : t = u := Option.some.inj (hstep.symm.trans hu)
  exact ⟨ha, hrest⟩

theorem AllSteps.after {M : Machine σ α} {C : σ → α → Prop} {s t : σ} {as bs : List α}
    (h : M.AllSteps C s (as ++ bs)) (hexec : M.exec s as = some t) : M.AllSteps C t bs := by
  induction as generalizing s with
  | nil =>
    obtain rfl := Option.some.inj hexec
    exact h
  | cons a as ih =>
    obtain ⟨u, hu, hrest⟩ := Option.bind_eq_some_iff.mp hexec
    exact ih (h u hu).2 hrest

/-- Along a run whose steps meet the guard `C`, the invariant that such steps keep
    holds in every state. -/
theorem allStates_of_guard {I : σ → Prop} {C : σ → α → Prop}
    (hstep : ∀ s a t, I s → C s a → M.step s a = some t → I t)
    {s : σ} (hs : I s) {as : List α} (hC : M.AllSteps C s as) : M.AllStates I s as := by
  induction as generalizing s with
  | nil => exact hs
  | cons a as ih =>
    refine ⟨hs, ?_⟩
    intro t ht
    obtain ⟨hguard, hrest⟩ := hC t ht
    exact ih (hstep s a t hs hguard ht) hrest

/-- Along a run whose steps meet the guard `C`, what the invariant and the
    guard give of a single step holds of every step. -/
theorem allSteps_of_guard {I : σ → Prop} {C P : σ → α → Prop}
    (hstep : ∀ s a t, I s → C s a → M.step s a = some t → I t)
    (hP : ∀ s a t, I s → C s a → M.step s a = some t → P s a)
    {s : σ} (hs : I s) {as : List α} (hC : M.AllSteps C s as) : M.AllSteps P s as := by
  induction as generalizing s with
  | nil => trivial
  | cons a as ih =>
    intro t ht
    obtain ⟨hguard, hrest⟩ := hC t ht
    exact ⟨hP s a t hs hguard ht, ih (hstep s a t hs hguard ht) hrest⟩

/-- What the invariant gives of a single step holds of every step. -/
theorem allSteps_of_invariant {I : σ → Prop} {P : σ → α → Prop}
    (hstep : ∀ s a t, I s → M.step s a = some t → I t)
    (hP : ∀ s a t, I s → M.step s a = some t → P s a) {s : σ} (hs : I s) (as : List α) :
    M.AllSteps P s as := by
  induction as generalizing s with
  | nil => trivial
  | cons a as ih =>
    intro t ht
    exact ⟨hP s a t hs ht, ih (hstep s a t hs ht)⟩

/-- Two properties that agree on every step from a state in the invariant `J`
    agree on the runs that begin there. -/
theorem allSteps_congr_of_invariant {J : σ → Prop} {C D : σ → α → Prop}
    (hJ : ∀ s a t, J s → M.step s a = some t → J t)
    (h : ∀ s a t, J s → M.step s a = some t → (C s a ↔ D s a)) {s : σ} (hs : J s)
    (as : List α) : M.AllSteps C s as ↔ M.AllSteps D s as := by
  induction as generalizing s with
  | nil => exact Iff.rfl
  | cons a as ih =>
    apply forall₂_congr
    intro t ht
    exact and_congr (h s a t hs ht) (ih (hJ s a t hs ht))

theorem allSteps_congr {C D : σ → α → Prop}
    (h : ∀ s a t, M.step s a = some t → (C s a ↔ D s a)) (s : σ) (as : List α) :
    M.AllSteps C s as ↔ M.AllSteps D s as := by
  apply M.allSteps_congr_of_invariant (J := fun _ => True)
  · intro _ _ _ _ _
    trivial
  · intro s a t _ ht
    exact h s a t ht
  · trivial

/-- Under a guard that keeps the invariant, two properties that agree on every
    step it allows hold along the same runs. -/
theorem allSteps_congr_of_guard {I : σ → Prop} {C P Q : σ → α → Prop}
    (hstep : ∀ s a t, I s → C s a → M.step s a = some t → I t)
    (h : ∀ s a t, I s → C s a → M.step s a = some t → (P s a ↔ Q s a)) {s : σ} (hs : I s)
    (as : List α) :
    M.AllSteps (fun s a => C s a ∧ P s a) s as ↔ M.AllSteps (fun s a => C s a ∧ Q s a) s as := by
  induction as generalizing s with
  | nil => exact Iff.rfl
  | cons a as ih =>
    apply forall₂_congr
    intro t ht
    constructor
    · rintro ⟨⟨hguard, hp⟩, hrest⟩
      exact ⟨⟨hguard, (h s a t hs hguard ht).mp hp⟩, (ih (hstep s a t hs hguard ht)).mp hrest⟩
    · rintro ⟨⟨hguard, hq⟩, hrest⟩
      exact ⟨⟨hguard, (h s a t hs hguard ht).mpr hq⟩, (ih (hstep s a t hs hguard ht)).mpr hrest⟩

/-- **Exact guard.**  Where, among the states of the invariant `J` and for actions
    of the kind `P`, a step from a state in `I` stays in `I` exactly if it meets `C`,
    a run stays in `I` exactly if all its steps meet `C`. -/
theorem allStates_iff_allSteps_of_actions {I J : σ → Prop} {C : σ → α → Prop} {P : α → Prop}
    (hJ : ∀ s a t, J s → P a → M.step s a = some t → J t)
    (hstep : ∀ s a t, J s → P a → I s → M.step s a = some t → (I t ↔ C s a))
    {s : σ} (hs : I s) (hsJ : J s) {as : List α} (hP : ∀ a ∈ as, P a) :
    M.AllStates I s as ↔ M.AllSteps C s as := by
  induction as generalizing s with
  | nil =>
    apply iff_of_true
    · exact hs
    · trivial
  | cons a as ih =>
    obtain ⟨ha, hrest'⟩ := List.forall_mem_cons.mp hP
    constructor
    · rintro ⟨-, hrest⟩ t ht
      have hIt : I t := (hrest t ht).head
      exact ⟨(hstep s a t hsJ ha hs ht).mp hIt,
        (ih hIt (hJ s a t hsJ ha ht) hrest').mp (hrest t ht)⟩
    · intro hC
      refine ⟨hs, ?_⟩
      intro t ht
      obtain ⟨hguard, hrest⟩ := hC t ht
      have hIt : I t := (hstep s a t hsJ ha hs ht).mpr hguard
      exact (ih hIt (hJ s a t hsJ ha ht) hrest').mpr hrest

theorem allStates_iff_allSteps_of_invariant {I J : σ → Prop} {C : σ → α → Prop}
    (hJ : ∀ s a t, J s → M.step s a = some t → J t)
    (hstep : ∀ s a t, J s → I s → M.step s a = some t → (I t ↔ C s a))
    {s : σ} (hs : I s) (hsJ : J s) (as : List α) :
    M.AllStates I s as ↔ M.AllSteps C s as := by
  apply M.allStates_iff_allSteps_of_actions (J := J) (P := fun _ => True) _ _ hs hsJ
  · intro _ _
    trivial
  · intro s a t hs _ ht
    exact hJ s a t hs ht
  · intro s a t hsJ _ hs ht
    exact hstep s a t hsJ hs ht

theorem allStates_iff_allSteps {I : σ → Prop} {C : σ → α → Prop}
    (hstep : ∀ s a t, I s → M.step s a = some t → (I t ↔ C s a))
    {s : σ} (hs : I s) (as : List α) :
    M.AllStates I s as ↔ M.AllSteps C s as := by
  apply M.allStates_iff_allSteps_of_invariant (J := fun _ => True) _ _ hs trivial
  · intro _ _ _ _ _
    trivial
  · intro s a t _ hs ht
    exact hstep s a t hs ht

theorem allSteps_of_actions {P : α → Prop} {as : List α} (hP : ∀ a ∈ as, P a) (s : σ) :
    M.AllSteps (fun _ a => P a) s as := by
  induction as generalizing s with
  | nil => trivial
  | cons a as ih =>
    obtain ⟨ha, hrest⟩ := List.forall_mem_cons.mp hP
    intro t _
    exact ⟨ha, ih hrest t⟩

/-- A guard on the actions alone, where every action can be taken. -/
theorem allSteps_actions_iff {P : α → Prop} (htotal : ∀ s a, ∃ t, M.step s a = some t) (s : σ)
    (as : List α) : M.AllSteps (fun _ a => P a) s as ↔ ∀ a ∈ as, P a := by
  constructor
  · intro h
    induction as generalizing s with
    | nil => exact List.forall_mem_nil _
    | cons a as ih =>
      obtain ⟨t, ht⟩ := htotal s a
      exact List.forall_mem_cons.mpr ⟨(h t ht).1, ih t (h t ht).2⟩
  · intro h
    exact M.allSteps_of_actions h s

/-! ### Traces -/

/-- The actions `as` lead from `s` to `t`, and `os` is observed on the way. -/
structure Traces {β : Type*} (obs : σ → α → List β) (s : σ) (as : List α) (os : List β) (t : σ) :
    Prop where
  exec : M.exec s as = some t
  observe : M.observe obs s as = os

theorem Traces.nil {β : Type*} (obs : σ → α → List β) (s : σ) : M.Traces obs s [] [] s := ⟨rfl, rfl⟩

variable {M} in
theorem Traces.cons {β : Type*} {obs : σ → α → List β} {s t u : σ} {a : α} {as : List α}
    {os : List β} (hstep : M.step s a = some t) (h : M.Traces obs t as os u) :
    M.Traces obs s (a :: as) (obs s a ++ os) u where
  exec := by
    rw [exec_cons, hstep]
    exact h.exec
  observe := by
    rw [Machine.observe, hstep]
    exact congrArg _ h.observe

variable {M} in
theorem Traces.append {β : Type*} {obs : σ → α → List β} {s t u : σ} {as bs : List α}
    {os ps : List β} (h : M.Traces obs s as os t) (h' : M.Traces obs t bs ps u) :
    M.Traces obs s (as ++ bs) (os ++ ps) u := by
  induction as generalizing s os with
  | nil =>
    obtain ⟨hexec, rfl⟩ := h
    injection hexec with heq
    subst heq
    exact h'
  | cons a as ih =>
    obtain ⟨hexec, rfl⟩ := h
    obtain ⟨v, hv, hrest⟩ := Option.bind_eq_some_iff.mp hexec
    have htrace := Traces.cons hv (ih ⟨hrest, rfl⟩)
    rw [Machine.observe, hv, List.append_assoc]
    exact htrace

/-! ### Measures -/

/-- What is observed along a run is no more than a potential that pays for each
    observation. -/
theorem length_observe_le {β : Type*} {obs : σ → α → List β} {I : σ → Prop} {C : α → Prop}
    (potential : σ → Nat)
    (hstep : ∀ s a t, I s → C a → M.step s a = some t →
      I t ∧ (obs s a).length + potential t ≤ potential s)
    {s : σ} (hs : I s) {as : List α} (hC : ∀ a ∈ as, C a) :
    (M.observe obs s as).length ≤ potential s := by
  induction as generalizing s with
  | nil => exact Nat.zero_le _
  | cons a as ih =>
    obtain ⟨ha, hrest⟩ := List.forall_mem_cons.mp hC
    rw [Machine.observe]
    cases hnext : M.step s a with
    | none => exact Nat.zero_le _
    | some t =>
      obtain ⟨ht, hpays⟩ := hstep s a t hs ha hnext
      have htail := ih ht hrest
      rw [List.length_append]
      omega

/-- **Termination.**  Where a step can be taken until the goal is reached, and the
    steps that `tick` lower a measure that no step raises, a schedule with as many
    ticks as the measure says leads to the goal. -/
theorem exists_prefix_of_measure {I goal : σ → Prop} {C : α → Prop} (tick : α → Bool)
    (measure : σ → Nat) (hzero : ∀ s, I s → measure s = 0 → goal s)
    (hstep : ∀ s a, I s → ¬ goal s → C a → ∃ t, M.step s a = some t ∧ I t ∧
      measure t + (if tick a then 1 else 0) ≤ measure s)
    {s : σ} (hs : I s) {as : List α} (hC : ∀ a ∈ as, C a) (henough : measure s ≤ as.countP tick) :
    ∃ bs cs t, as = bs ++ cs ∧ M.exec s bs = some t ∧ goal t := by
  induction as generalizing s with
  | nil => exact ⟨[], [], s, rfl, rfl, hzero s hs (Nat.le_zero.mp henough)⟩
  | cons a as ih =>
    by_cases hgoal : goal s
    · exact ⟨[], a :: as, s, rfl, rfl, hgoal⟩
    · obtain ⟨ha, hrest⟩ := List.forall_mem_cons.mp hC
      obtain ⟨t, hnext, ht, hlower⟩ := hstep s a hs hgoal ha
      have hleft : measure t ≤ as.countP tick := by
        rw [List.countP_cons] at henough
        omega
      obtain ⟨bs, cs, u, rfl, hexec, hu⟩ := ih ht hrest hleft
      refine ⟨a :: bs, cs, u, rfl, ?_, hu⟩
      rw [exec_cons, hnext]
      exact hexec

/-! ### Refinement -/

universe w x

variable {τ : Type w} {β : Type x}

/-- `M` refines `N` along `abs`: each step of `M` is the step of `N` that
    `label` names, or leaves the abstract state alone where it names none. -/
structure Refines (M : Machine σ α) (N : Machine τ β) (abs : σ → τ)
    (label : σ → α → Option β) : Prop where
  step : ∀ s a t b, M.step s a = some t → label s a = some b →
    N.step (abs s) b = some (abs t)
  stutter : ∀ s a t, M.step s a = some t → label s a = none → abs t = abs s

theorem Refines.reaches {N : Machine τ β} {abs : σ → τ} {label : σ → α → Option β}
    {M : Machine σ α} (h : M.Refines N abs label) {s t : σ} (hst : M.Reaches s t) :
    N.Reaches (abs s) (abs t) := by
  apply Reaches.invariant (I := fun u => N.Reaches (abs s) (abs u)) _ (Reaches.refl N _) hst
  intro u a v hu hstep
  cases hl : label u a with
  | none =>
    rw [h.stutter u a v hstep hl]
    exact hu
  | some b =>
    have hnext := h.step u a v b hstep hl
    exact hu.trans (Reaches.of_step hnext)

/-- An invariant of the abstract machine holds along every run. -/
theorem Refines.allStates {N : Machine τ β} {abs : σ → τ} {label : σ → α → Option β}
    {M : Machine σ α} (h : M.Refines N abs label) {I : τ → Prop}
    (hI : ∀ s b t, I s → N.step s b = some t → I t) {s : σ} (hs : I (abs s)) (as : List α) :
    M.AllStates (fun s => I (abs s)) s as := by
  apply M.allStates_of_invariant _ hs
  intro u a v hu hstep
  cases hl : label u a with
  | none =>
    rw [h.stutter u a v hstep hl]
    exact hu
  | some b => exact hI _ b _ hu (h.step u a v b hstep hl)

/-- What the abstract machine keeps under a guard holds along every run whose steps
    meet the guard, as the abstract machine sees them. -/
theorem Refines.allStates_of_guard {N : Machine τ β} {abs : σ → τ} {label : σ → α → Option β}
    {M : Machine σ α} (h : M.Refines N abs label) {I : τ → Prop} {D : τ → β → Prop}
    (hI : ∀ s b t, I s → D s b → N.step s b = some t → I t) {C : σ → α → Prop}
    (hguard : ∀ s a b, C s a → label s a = some b → D (abs s) b) {s : σ} (hs : I (abs s))
    {as : List α} (hC : M.AllSteps C s as) : M.AllStates (fun s => I (abs s)) s as := by
  apply M.allStates_of_guard _ hs hC
  intro u a v hu ha hstep
  cases hl : label u a with
  | none =>
    rw [h.stutter u a v hstep hl]
    exact hu
  | some b => exact hI _ b _ hu (hguard u a b ha hl) (h.step u a v b hstep hl)

/-! ### Mirrors -/

/-- `abs` takes every step of `M` to the step of `N`, and where `M` has none `N` has none. -/
def Mirrors (M : Machine σ α) (N : Machine τ α) (abs : σ → τ) : Prop :=
  ∀ s a, (M.step s a).map abs = N.step (abs s) a

theorem Mirrors.step {M : Machine σ α} {N : Machine τ α} {abs : σ → τ} (h : M.Mirrors N abs)
    {s t : σ} {a : α} (hstep : M.step s a = some t) : N.step (abs s) a = some (abs t) := by
  rw [← h s a, hstep]
  rfl

theorem Mirrors.exec {M : Machine σ α} {N : Machine τ α} {abs : σ → τ} (h : M.Mirrors N abs)
    (s : σ) (as : List α) : (M.exec s as).map abs = N.exec (abs s) as := by
  induction as generalizing s with
  | nil => rfl
  | cons a as ih =>
    rw [exec_cons, exec_cons, ← h s a]
    cases M.step s a with
    | none => rfl
    | some t => exact ih t

theorem Mirrors.observe {β : Type*} {M : Machine σ α} {N : Machine τ α} {abs : σ → τ}
    (h : M.Mirrors N abs) (obs : τ → α → List β) (s : σ) (as : List α) :
    M.observe (fun s a => obs (abs s) a) s as = N.observe obs (abs s) as := by
  induction as generalizing s with
  | nil => rfl
  | cons a as ih =>
    rw [Machine.observe, Machine.observe, ← h s a]
    cases M.step s a with
    | none => rfl
    | some t => exact congrArg _ (ih t)

/-- What is true of a trace of `N` is true of `M`. -/
theorem Mirrors.traces {β : Type*} {M : Machine σ α} {N : Machine τ α} {abs : σ → τ}
    (h : M.Mirrors N abs) {obs : τ → α → List β} {s : σ} {as : List α} {os : List β} {d : τ}
    (htrace : N.Traces obs (abs s) as os d) :
    ∃ t, abs t = d ∧ M.Traces (fun s a => obs (abs s) a) s as os t := by
  have hexec := h.exec s as
  rw [htrace.exec] at hexec
  obtain ⟨t, ht, habs⟩ := Option.map_eq_some_iff.mp hexec
  exact ⟨t, habs, ht, (h.observe obs s as).trans htrace.observe⟩

/-! ### Histories -/

/-- The machine with a history kept beside it, which no step depends on. -/
def record {η : Type*} (M : Machine σ α) (update : σ → α → σ → η → η) : Machine (σ × η) α where
  step s a := (M.step s.1 a).map fun t => (t, update s.1 a t s.2)

theorem record_step {η : Type*} {M : Machine σ α} {update : σ → α → σ → η → η} {s t : σ × η} {a : α}
    (h : (M.record update).step s a = some t) :
    M.step s.1 a = some t.1 ∧ t.2 = update s.1 a t.1 s.2 := by
  obtain ⟨u, hu, rfl⟩ := Option.map_eq_some_iff.mp h
  exact ⟨hu, rfl⟩

/-- What a history holds stays where it is. -/
theorem getElem?_append_some {η : Type*} {history : List η} {i : Nat} {x : η}
    (h : history[i]? = some x) (new : List η) : (history ++ new)[i]? = some x := by
  obtain ⟨hlt, -⟩ := List.getElem?_eq_some_iff.mp h
  rw [List.getElem?_append_left hlt]
  exact h

end Machine

end Transition
