import Mathlib.Data.List.Forall2
import IsmDevice.Lib.Pool

/-!
# Deferred jobs

A caller hands a job to a thread of its own and goes on.  The thread reads a
shared value when it comes to that, makes a message of it, and delivers the
message when it comes to that.  What was asked for is the message of the value
at the time of the call, in the order of the calls.

It is also what is delivered where the value does not change while a job is
waiting to read it, and where a job delivers only after those before it.
-/

namespace Deferred

open Transition Pool

universe u v w x

variable {ν : Type u} {τ : Type v} {μ : Type w} {β : Type x}

inductive Job (τ : Type v) (μ : Type w) where
  | waiting (tag : τ) -- still to read the value
  | made (message : μ)
  | delivered

/-- A call, and the value at that time. -/
structure Call (ν : Type u) (τ : Type v) where
  tag : τ
  value : ν

structure Desk (ν : Type u) (τ : Type v) (μ : Type w) where
  isOpen : Bool
  value : ν
  calls : List (Call ν τ)
  jobs : List (Job τ μ)
  delivered : List μ

inductive Act (ν : Type u) (τ : Type v) (β : Type x) where
  | call (value : ν) (tags : List τ) -- the value is set, and then jobs are handed out
  | make (job : Nat) (choice : β)
  | deliver (job : Nat)
  | close

def machine (build : β → ν → τ → μ) : Machine (Desk ν τ μ) (Act ν τ β) where
  step s
    | .call value tags => some { s with
        value := value
        calls := s.calls ++ tags.map fun tag => ⟨tag, value⟩
        jobs := s.jobs ++ tags.map .waiting }
    | .make k choice =>
        match s.jobs[k]? with
        | some (.waiting tag) =>
            some { s with jobs := s.jobs.set k (.made (build choice s.value tag)) }
        | _ => none
    | .deliver k =>
        match s.jobs[k]? with
        | some (.made message) => some { s with
            jobs := s.jobs.set k .delivered
            delivered := s.delivered ++ [message] }
        | _ => none
    | .close => some { s with isOpen := false, jobs := [] }

/-- The message is one that the call asks for. -/
def Call.Answered (build : β → ν → τ → μ) (c : Call ν τ) (message : μ) : Prop :=
  ∃ choice, message = build choice c.value c.tag

/-- The value stays as it is while a job is waiting, and a job delivers only after
    all before it. -/
def Desk.Orderly (s : Desk ν τ μ) : Act ν τ β → Prop
  | .call value _ => value = s.value ∨ ∀ tag, .waiting tag ∉ s.jobs
  | .make _ _ => True
  | .deliver k => ∀ j : Nat, j < k → s.jobs[j]? = some .delivered
  | .close => True

/-- Each call has its job, and the first of them have delivered; a job that is
    waiting will find the value of its call. -/
structure InOrder (build : β → ν → τ → μ) (s : Desk ν τ μ) : Prop where
  length : s.jobs.length = s.calls.length
  finished : ∀ k : Nat, s.jobs[k]? = some .delivered ↔ k < s.delivered.length
  waiting : ∀ (k : Nat) tag, s.jobs[k]? = some (.waiting tag) → s.calls[k]? = some ⟨tag, s.value⟩
  made : ∀ (k : Nat) message, s.jobs[k]? = some (.made message) →
    ∃ c, s.calls[k]? = some c ∧ c.Answered build message
  delivered : ∀ (k : Nat) message, s.delivered[k]? = some message →
    ∃ c, s.calls[k]? = some c ∧ c.Answered build message

section Rules

variable {build : β → ν → τ → μ} {s : Desk ν τ μ}

theorem InOrder.delivered_le (h : InOrder build s) : s.delivered.length ≤ s.jobs.length := by
  by_contra hlt
  have hlast := (h.finished s.jobs.length).mpr (by omega)
  rw [List.getElem?_eq_none (Nat.le_refl _)] at hlast
  simp at hlast

/-- New calls come with their jobs, to be made of the value as it then is. -/
theorem InOrder.call (h : InOrder build s) {value : ν}
    (hvalue : value = s.value ∨ ∀ tag, .waiting tag ∉ s.jobs) (tags : List τ) :
    InOrder build { s with
      value := value
      calls := s.calls ++ tags.map fun tag => ⟨tag, value⟩
      jobs := s.jobs ++ tags.map .waiting } := by
  have hle := h.delivered_le
  -- a job after the call is that of an earlier call or of a new one
  have hjob : ∀ {k : Nat} {job}, (s.jobs ++ tags.map .waiting)[k]? = some job →
      s.jobs[k]? = some job ∨ ∃ tag, job = .waiting tag ∧
        (s.calls ++ tags.map fun tag => ⟨tag, value⟩)[k]? = some ⟨tag, value⟩ := by
    intro k job hk
    rcases spawn_cases hk with hold | ⟨j, rfl, hnew⟩
    · exact Or.inl hold
    · rw [List.getElem?_map] at hnew
      obtain ⟨tag, htag, rfl⟩ := Option.map_eq_some_iff.mp hnew
      refine Or.inr ⟨tag, rfl, ?_⟩
      rw [h.length, List.getElem?_append_right (Nat.le_add_right _ _), List.getElem?_map,
        Nat.add_sub_cancel_left, htag]
      rfl
  constructor
  · simp [h.length]
  · intro k
    constructor
    · intro hk
      rcases hjob hk with hold | ⟨tag, hnew, -⟩
      · exact (h.finished k).mp hold
      · simp at hnew
    · intro hk
      exact Machine.getElem?_append_some ((h.finished k).mpr hk) _
  · intro k tag hk
    rcases hjob hk with hold | ⟨tag', hnew, hcall⟩
    · rcases hvalue with rfl | hnone
      · exact Machine.getElem?_append_some (h.waiting k tag hold) _
      · exact absurd (List.mem_of_getElem? hold) (hnone tag)
    · obtain rfl := Job.waiting.inj hnew
      exact hcall
  · intro k message hk
    rcases hjob hk with hold | ⟨tag, hnew, -⟩
    · obtain ⟨c, hc, hanswered⟩ := h.made k message hold
      exact ⟨c, Machine.getElem?_append_some hc _, hanswered⟩
    · simp at hnew
  · intro k message hk
    obtain ⟨c, hc, hanswered⟩ := h.delivered k message hk
    exact ⟨c, Machine.getElem?_append_some hc _, hanswered⟩

theorem InOrder.make (h : InOrder build s) {k : Nat} {tag : τ}
    (hk : s.jobs[k]? = some (.waiting tag)) (choice : β) :
    InOrder build { s with jobs := s.jobs.set k (.made (build choice s.value tag)) } := by
  constructor
  · exact List.length_set.trans h.length
  · intro j
    constructor
    · intro hj
      rcases set_cases hj with ⟨-, hnew⟩ | ⟨-, hold⟩
      · simp at hnew
      · exact (h.finished j).mp hold
    · intro hj
      have hold := (h.finished j).mpr hj
      have hkj : k ≠ j := by
        rintro rfl
        rw [hk] at hold
        simp at hold
      exact (List.getElem?_set_ne hkj).trans hold
  · intro j tag' hj
    rcases set_cases hj with ⟨-, hnew⟩ | ⟨-, hold⟩
    · simp at hnew
    · exact h.waiting j tag' hold
  · intro j message hj
    rcases set_cases hj with ⟨rfl, hnew⟩ | ⟨-, hold⟩
    · exact ⟨_, h.waiting j tag hk, choice, Job.made.inj hnew⟩
    · exact h.made j message hold
  · exact h.delivered

/-- The job whose turn it is, is the first that has not delivered. -/
theorem InOrder.deliver (h : InOrder build s) {k : Nat} {message : μ}
    (hk : s.jobs[k]? = some (.made message))
    (hearlier : ∀ j : Nat, j < k → s.jobs[j]? = some .delivered) :
    InOrder build { s with
      jobs := s.jobs.set k .delivered
      delivered := s.delivered ++ [message] } := by
  have hnot : ¬ k < s.delivered.length := by
    intro hlt
    rw [(h.finished k).mpr hlt] at hk
    simp at hk
  have hnext : k = s.delivered.length := by
    by_contra hne
    have hfinished := (h.finished s.delivered.length).mp (hearlier _ (by omega))
    omega
  constructor
  · exact List.length_set.trans h.length
  · intro j
    dsimp only
    rw [List.length_append, List.length_singleton]
    constructor
    · intro hj
      rcases set_cases hj with ⟨rfl, -⟩ | ⟨-, hold⟩
      · omega
      · have hlt := (h.finished j).mp hold
        omega
    · intro hj
      obtain ⟨hlt, -⟩ := List.getElem?_eq_some_iff.mp hk
      by_cases hjk : j = k
      · rw [hjk]
        exact List.getElem?_set_self hlt
      · exact (List.getElem?_set_ne (Ne.symm hjk)).trans ((h.finished j).mpr (by omega))
  · intro j tag hj
    rcases set_cases hj with ⟨-, hnew⟩ | ⟨-, hold⟩
    · simp at hnew
    · exact h.waiting j tag hold
  · intro j message' hj
    rcases set_cases hj with ⟨-, hnew⟩ | ⟨-, hold⟩
    · simp at hnew
    · exact h.made j message' hold
  · intro j message' hj
    dsimp only at hj
    by_cases hlt : j < s.delivered.length
    · rw [List.getElem?_append_left hlt] at hj
      exact h.delivered j message' hj
    · obtain ⟨hbound, -⟩ := List.getElem?_eq_some_iff.mp hj
      rw [List.length_append, List.length_singleton] at hbound
      have hjk : j = s.delivered.length := by omega
      rw [hjk, List.getElem?_concat_length] at hj
      obtain rfl := Option.some.inj hj
      rw [hjk, ← hnext]
      exact h.made k message hk

/-- **Step rule.**  While the desk is open, an orderly step keeps the order. -/
theorem inOrder_step {t : Desk ν τ μ} {a : Act ν τ β} (hs : s.isOpen = true → InOrder build s)
    (horderly : s.Orderly a) (hstep : (machine build).step s a = some t) :
    t.isOpen = true → InOrder build t := by
  intro hopen
  cases a with
  | call value tags =>
    obtain rfl := Option.some.inj hstep
    exact (hs hopen).call horderly tags
  | make k choice =>
    simp only [machine] at hstep
    split at hstep
    case h_1 tag hk =>
      obtain rfl := Option.some.inj hstep
      exact (hs hopen).make hk choice
    case h_2 => exact absurd hstep (by simp)
  | deliver k =>
    simp only [machine] at hstep
    split at hstep
    case h_1 message hk =>
      obtain rfl := Option.some.inj hstep
      exact (hs hopen).deliver hk horderly
    case h_2 => exact absurd hstep (by simp)
  | close =>
    obtain rfl := Option.some.inj hstep
    exact Bool.noConfusion hopen

/-- Where all jobs have delivered, every call has been answered, in order. -/
theorem InOrder.forall₂ (h : InOrder build s) (hdone : ∀ job ∈ s.jobs, job = .delivered) :
    List.Forall₂ (Call.Answered build) s.calls s.delivered := by
  have hlength : s.calls.length = s.delivered.length := by
    rw [← h.length]
    apply Nat.le_antisymm _ h.delivered_le
    by_contra hlt
    have hlast : s.delivered.length < s.jobs.length := by omega
    have hjob := List.getElem?_eq_getElem hlast
    rw [hdone _ (List.getElem_mem hlast)] at hjob
    have hmore := (h.finished s.delivered.length).mp hjob
    omega
  rw [List.forall₂_iff_get]
  refine ⟨hlength, ?_⟩
  intro k hk hk'
  obtain ⟨c, hc, hanswered⟩ := h.delivered k _ (List.getElem?_eq_getElem hk')
  obtain ⟨hlt, hget⟩ := List.getElem?_eq_some_iff.mp hc
  subst hget
  exact hanswered

end Rules

end Deferred
