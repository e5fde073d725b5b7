import CcPof.Lib.Transition

/-!
# What is seen of a run

Some steps of a system show an event, the others are silent. A second system follows the first one
when it takes each event that is shown, and nothing in between.
-/

namespace CcPof.TransitionSystem

variable {σ τ α ε : Type} {T : TransitionSystem σ α} {A : TransitionSystem τ ε}
  {see : σ → α → Option ε} {R : σ → τ → Prop} {s s' : σ} {t : τ} {l : List α}

/-- The events of the steps of a list, as far as they are enabled. -/
def seen (T : TransitionSystem σ α) (see : σ → α → Option ε) : σ → List α → List ε
  | _, [] => []
  | s, a :: as =>
      match T.step s a with
      | some s' => (see s a).toList ++ T.seen see s' as
      | none => []

/-- Related states stay related, `A` taking the event of the step if there is one. -/
structure Follows (A : TransitionSystem τ ε) (T : TransitionSystem σ α) (see : σ → α → Option ε)
    (R : σ → τ → Prop) : Prop where
  init : R T.init A.init
  step : ∀ {s s' : σ} {t : τ} {a : α}, R s t → T.step s a = some s' →
    ∃ t', A.exec t (see s a).toList = some t' ∧ R s' t'

theorem Follows.exec (h : A.Follows T see R) (hr : R s t) (hexec : T.exec s l = some s') :
    ∃ t', A.exec t (T.seen see s l) = some t' ∧ R s' t' := by
  induction l generalizing s t with
  | nil =>
    cases hexec
    exact ⟨t, rfl, hr⟩
  | cons a l ih =>
    rw [TransitionSystem.exec, Option.bind_eq_some_iff] at hexec
    obtain ⟨s₁, hs, hexec⟩ := hexec
    obtain ⟨t₁, ht, hr₁⟩ := h.step hr hs
    obtain ⟨t', ht', hr'⟩ := ih hr₁ hexec
    refine ⟨t', ?_, hr'⟩
    -- The events of the first step come before the others.
    rw [seen, hs]
    show A.exec t ((see s a).toList ++ T.seen see s₁ l) = some t'
    rw [exec_append, ht]
    exact ht'

end CcPof.TransitionSystem
