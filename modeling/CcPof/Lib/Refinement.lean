/-!
# Refinement

Systems whose steps are events that somebody sees, the traces that they show, and the rule that a
simulation of one by another carries the traces of the first to the second.
-/

namespace CcPof

/-- A step is known by its event; there may be several steps for one event. -/
structure EventSystem (σ ε : Type) where
  init : σ
  step : σ → ε → σ → Prop

namespace EventSystem

variable {σ τ ε : Type} {S : EventSystem σ ε} {T : EventSystem τ ε} {R : σ → τ → Prop}
  {s s' : σ} {t : τ} {l l' : List ε}

/-- A run from one state to another, with its events in order. -/
inductive Run (S : EventSystem σ ε) : σ → List ε → σ → Prop
  | nil (s : σ) : Run S s [] s
  | cons {s s₁ s' : σ} {e : ε} {l : List ε} : S.step s e s₁ → Run S s₁ l s' → Run S s (e :: l) s'

/-- The events of a run from the start. -/
def Trace (S : EventSystem σ ε) (l : List ε) : Prop := ∃ s, S.Run S.init l s

/-- What can be seen of `S` can be seen of `T`. -/
def Refines (S : EventSystem σ ε) (T : EventSystem τ ε) : Prop := ∀ l, S.Trace l → T.Trace l

section Calls

variable {α : Type} {call : σ → α → Option (ε × σ)} {c : List α}

/-- The system of a function that answers calls: an event is a call with its answer. -/
def ofCalls (init : σ) (call : σ → α → Option (ε × σ)) : EventSystem σ ε where
  init := init
  step s e s' := ∃ a, call s a = some (e, s')

/-- Make the calls of a list one after the other. -/
def answers (call : σ → α → Option (ε × σ)) : σ → List α → Option (List ε × σ)
  | s, [] => some ([], s)
  | s, a :: as => do
      let (e, s) ← call s a
      let (l, s) ← answers call s as
      some (e :: l, s)

theorem run_of_answers {init : σ} (h : answers call s c = some (l, s')) :
    (ofCalls init call).Run s l s' := by
  induction c generalizing s l with
  | nil =>
    cases h
    exact .nil _
  | cons a as ih =>
    simp only [answers, Option.bind_eq_bind, Option.bind_eq_some_iff] at h
    obtain ⟨⟨e, s₁⟩, hcall, ⟨l₁, s₂⟩, has, h⟩ := h
    cases h
    exact .cons ⟨a, hcall⟩ (ih has)

theorem trace_of_answers {init : σ} (h : (answers call init c).map Prod.fst = some l) :
    (ofCalls init call).Trace l := by
  obtain ⟨⟨l', s'⟩, h', rfl⟩ := Option.map_eq_some_iff.mp h
  exact ⟨s', run_of_answers h'⟩

end Calls

theorem run_singleton {e : ε} : S.Run s [e] s' ↔ S.step s e s' := by
  constructor
  · intro h
    cases h with
    | cons hstep hnil =>
      cases hnil
      exact hstep
  · intro h
    exact .cons h (.nil s')

theorem run_append : S.Run s (l ++ l') s' ↔ ∃ m, S.Run s l m ∧ S.Run m l' s' := by
  induction l generalizing s with
  | nil =>
    constructor
    · intro h
      exact ⟨s, .nil s, h⟩
    · intro ⟨m, hnil, h⟩
      cases hnil
      exact h
  | cons e l ih =>
    constructor
    · intro h
      cases h with
      | cons hstep hrun =>
        obtain ⟨m, hl, hl'⟩ := ih.mp hrun
        exact ⟨m, .cons hstep hl, hl'⟩
    · intro ⟨m, hl, hl'⟩
      cases hl with
      | cons hstep hrun => exact .cons hstep (ih.mpr ⟨m, hrun, hl'⟩)

/-- A property that every step keeps holds at the end of a run. -/
theorem Run.keeps {I : σ → Prop} (hstep : ∀ {s s' : σ} {e : ε}, e ∈ l → I s → S.step s e s' → I s')
    (hrun : S.Run s l s') (hs : I s) : I s' := by
  induction hrun with
  | nil s => exact hs
  | cons h _ ih =>
    -- The step may only use the events that are left.
    apply ih
    · intro s s' e he
      exact hstep (List.mem_cons_of_mem _ he)
    · exact hstep List.mem_cons_self hs h

/-- Related states stay related, `T` taking a step with the same event as `S`. -/
structure Simulation (S : EventSystem σ ε) (T : EventSystem τ ε) (R : σ → τ → Prop) : Prop where
  init : R S.init T.init
  step : ∀ {s s' : σ} {t : τ} {e : ε}, R s t → S.step s e s' → ∃ t', T.step t e t' ∧ R s' t'

theorem Simulation.run (h : S.Simulation T R) (hr : R s t) (hrun : S.Run s l s') :
    ∃ t', T.Run t l t' ∧ R s' t' := by
  induction hrun generalizing t with
  | nil s => exact ⟨t, .nil t, hr⟩
  | cons hstep _ ih =>
    obtain ⟨t₁, ht, hr₁⟩ := h.step hr hstep
    obtain ⟨t', hrun', hr'⟩ := ih hr₁
    exact ⟨t', .cons ht hrun', hr'⟩

theorem Simulation.refines (h : S.Simulation T R) : S.Refines T := by
  intro l ⟨s, hrun⟩
  obtain ⟨t, hrun', _⟩ := h.run h.init hrun
  exact ⟨t, hrun'⟩

end EventSystem

end CcPof
