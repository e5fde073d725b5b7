/-!
# Transition systems

States, labelled steps, the states that runs reach, and the rule that an inductive property holds
in every one of them. A step is a partial function: `none` where the label is not enabled.
-/

namespace CcPof

structure TransitionSystem (σ α : Type) where
  init : σ
  step : σ → α → Option σ

namespace TransitionSystem

variable {σ α : Type} (T : TransitionSystem σ α)

inductive Reachable : σ → Prop
  | init : Reachable T.init
  | step {s s' : σ} {a : α} : Reachable s → T.step s a = some s' → Reachable s'

/-- Take the labels of a list one after the other. -/
def exec (s : σ) : List α → Option σ
  | [] => some s
  | a :: as => (T.step s a).bind (exec · as)

theorem exec_append (s : σ) (l l' : List α) :
    T.exec s (l ++ l') = (T.exec s l).bind (T.exec · l') := by
  induction l generalizing s with
  | nil => rfl
  | cons a l ih =>
    rw [List.cons_append, exec, exec]
    cases T.step s a with
    | none => rfl
    | some s' => exact ih s'

theorem Reachable.exec {s s' : σ} {l : List α} (h : T.Reachable s) (hs : T.exec s l = some s') :
    T.Reachable s' := by
  induction l generalizing s with
  | nil =>
    cases hs
    exact h
  | cons a l ih =>
    rw [TransitionSystem.exec, Option.bind_eq_some_iff] at hs
    obtain ⟨s₁, h₁, hs⟩ := hs
    exact ih (h.step h₁) hs

theorem reachable_of_exec {s : σ} {l : List α} (h : T.exec T.init l = some s) : T.Reachable s :=
  Reachable.exec T .init h

/-- `I` holds at the start and no step leaves it. -/
structure Invariant (I : σ → Prop) : Prop where
  init : I T.init
  step : ∀ {s s' : σ} {a : α}, I s → T.step s a = some s' → I s'

variable {T}

theorem Invariant.of_reachable {I : σ → Prop} (hI : T.Invariant I) {s : σ} (h : T.Reachable s) :
    I s := by
  induction h with
  | init => exact hI.init
  | step _ hs ih => exact hI.step ih hs

/-- An invariant may be used in the step of the next one. -/
theorem Invariant.and {I J : σ → Prop} (hI : T.Invariant I) (hinit : J T.init)
    (hstep : ∀ {s s' : σ} {a : α}, I s → J s → T.step s a = some s' → J s') :
    T.Invariant fun s => I s ∧ J s where
  init := ⟨hI.init, hinit⟩
  step h hs := ⟨hI.step h.1 hs, hstep h.1 h.2 hs⟩

/-- The system with only those steps that meet a condition. -/
def restrict (T : TransitionSystem σ α) (ok : σ → α → Prop) [∀ s a, Decidable (ok s a)] :
    TransitionSystem σ α where
  init := T.init
  step s a := if ok s a then T.step s a else none

variable {ok : σ → α → Prop} [∀ s a, Decidable (ok s a)]

theorem step_of_restrict {s s' : σ} {a : α} (h : (T.restrict ok).step s a = some s') :
    ok s a ∧ T.step s a = some s' := by
  unfold restrict at h
  dsimp only at h
  split at h
  · exact ⟨‹_›, h⟩
  · cases h

theorem exec_of_restrict {s s' : σ} {l : List α} (h : (T.restrict ok).exec s l = some s') :
    T.exec s l = some s' := by
  induction l generalizing s with
  | nil => exact h
  | cons a l ih =>
    rw [exec, Option.bind_eq_some_iff] at h
    obtain ⟨s₁, h₁, h⟩ := h
    rw [exec, (step_of_restrict h₁).2]
    exact ih h

theorem Reachable.of_restrict {s : σ} (h : (T.restrict ok).Reachable s) : T.Reachable s := by
  induction h with
  | init => exact .init
  | step _ hs ih => exact ih.step (step_of_restrict hs).2

/-- An invariant of the steps that meet the condition. -/
theorem Invariant.restrict {I : σ → Prop} (hinit : I T.init)
    (hstep : ∀ {s s' : σ} {a : α}, I s → ok s a → T.step s a = some s' → I s') :
    (T.restrict ok).Invariant I where
  init := hinit
  step hI hs := hstep hI (step_of_restrict hs).1 (step_of_restrict hs).2

end TransitionSystem

end CcPof
