import CcPof.Lib.Transition
import Mathlib.Algebra.GroupWithZero.Nat
import Mathlib.Algebra.Order.BigOperators.Group.List
import Mathlib.Algebra.Order.Group.Nat

/-!
# Steps that come to an end

Some labels of a transition system, taken in any order: when each of their steps lowers a rank, no
run of them is longer than the rank, and a run that cannot go on has come to rest. Where only the
steps of one party lower the rank and all others keep it, that party takes no more of them.
-/

namespace CcPof

/-- A rank that is the sum of what each thread has left: the step of one thread lowers its own part
and raises no other. -/
theorem sum_map_set_lt {α : Type} {f g : α → Nat} {l : List α} {i : Nat} {a b : α}
    (hi : l[i]? = some a) (hle : ∀ c ∈ l, g c ≤ f c) (hlt : g b < f a) :
    ((l.set i b).map g).sum < (l.map f).sum := by
  induction l generalizing i with
  | nil => cases hi
  | cons c l ih =>
    cases i with
    | zero =>
      cases hi
      -- The lower part is here; no part behind it has grown.
      have hrest : (l.map g).sum ≤ (l.map f).sum :=
        List.sum_le_sum fun c hc => hle c (List.mem_cons_of_mem _ hc)
      rw [List.set_cons_zero, List.map_cons, List.map_cons, List.sum_cons, List.sum_cons]
      omega
    | succ i =>
      have hrest := ih hi fun c hc => hle c (List.mem_cons_of_mem _ hc)
      have hhead := hle c List.mem_cons_self
      rw [List.set_cons_succ, List.map_cons, List.map_cons, List.sum_cons, List.sum_cons]
      omega

/-- One part of a sum is replaced. -/
theorem sum_map_set {α : Type} {f : α → Nat} {l : List α} {i : Nat} {a : α} (hi : l[i]? = some a)
    (b : α) : ((l.set i b).map f).sum + f a = (l.map f).sum + f b := by
  induction l generalizing i with
  | nil => cases hi
  | cons c l ih =>
    cases i with
    | zero =>
      cases hi
      rw [List.set_cons_zero, List.map_cons, List.map_cons, List.sum_cons, List.sum_cons]
      omega
    | succ i =>
      have hrest := ih hi
      rw [List.set_cons_succ, List.map_cons, List.map_cons, List.sum_cons, List.sum_cons]
      omega

namespace TransitionSystem

variable {σ α : Type} {T : TransitionSystem σ α} {labels : α → Prop} {I rest : σ → Prop}
  {rank : σ → Nat} {s s' : σ} {l : List α}

/-- Only the steps of `own` are paid for: a run takes no more of them than the rank. -/
theorem countP_le {own : α → Bool}
    (hstep : ∀ {s s' : σ} {a : α}, I s → labels a → T.step s a = some s' →
      I s' ∧ rank s' + (own a).toNat ≤ rank s)
    (hs : I s) (hl : ∀ a ∈ l, labels a) (hexec : T.exec s l = some s') :
    I s' ∧ l.countP own + rank s' ≤ rank s := by
  induction l generalizing s with
  | nil =>
    cases hexec
    exact ⟨hs, Nat.le_of_eq (Nat.zero_add _)⟩
  | cons a l ih =>
    rw [exec, Option.bind_eq_some_iff] at hexec
    obtain ⟨s₁, h₁, hexec⟩ := hexec
    obtain ⟨hs₁, hle₁⟩ := hstep hs (hl a List.mem_cons_self) h₁
    obtain ⟨hs', hle⟩ := ih hs₁ (fun b hb => hl b (List.mem_cons_of_mem a hb)) hexec
    refine ⟨hs', ?_⟩
    rw [List.countP_cons]
    -- A step of `own` pays one, another one nothing.
    by_cases hown : own a = true
    · rw [hown, Bool.toNat_true] at hle₁
      rw [if_pos hown]
      omega
    · rw [if_neg hown]
      omega

/-- What a step adds to `p` it also adds to `q`, or it is on its way between the two. -/
theorem countP_balance {p q : α → Bool} {pending : σ → Nat}
    (hstep : ∀ {s s' : σ} {a : α}, T.step s a = some s' →
      (p a).toNat + pending s = (q a).toNat + pending s')
    (hexec : T.exec s l = some s') : l.countP p + pending s = l.countP q + pending s' := by
  induction l generalizing s with
  | nil =>
    cases hexec
    rfl
  | cons a l ih =>
    rw [exec, Option.bind_eq_some_iff] at hexec
    obtain ⟨s₁, h₁, hexec⟩ := hexec
    have hfirst := hstep h₁
    have hrest := ih hexec
    have hcons (p : α → Bool) : (a :: l).countP p = l.countP p + (p a).toNat := by
      rw [List.countP_cons]
      cases p a <;> rfl
    rw [hcons p, hcons q]
    omega

/-- Within `I` the steps with `labels` lower the rank, and one of them is enabled unless `rest`
holds. -/
structure Settles (T : TransitionSystem σ α) (labels : α → Prop) (I rest : σ → Prop)
    (rank : σ → Nat) : Prop where
  step : ∀ {s s' : σ} {a : α}, I s → labels a → T.step s a = some s' → I s' ∧ rank s' < rank s
  rest : ∀ {s : σ}, I s → (∀ a, labels a → T.step s a = none) → rest s

/-- No schedule takes more steps than the rank. -/
theorem Settles.length_le (h : T.Settles labels I rest rank) (hs : I s) (hl : ∀ a ∈ l, labels a)
    (hexec : T.exec s l = some s') : I s' ∧ l.length + rank s' ≤ rank s := by
  have hall : I s' ∧ l.countP (fun _ => true) + rank s' ≤ rank s := countP_le h.step hs hl hexec
  rwa [List.countP_true] at hall

/-- Every schedule comes to rest, if it is not cut off. -/
theorem Settles.exists_rest (h : T.Settles labels I rest rank) (hs : I s) :
    ∃ l s', (∀ a ∈ l, labels a) ∧ T.exec s l = some s' ∧ I s' ∧ rest s' := by
  induction hrank : rank s using Nat.strongRecOn generalizing s with
  | ind k ih =>
    -- Take any enabled step as long as there is one: the rank bounds how often.
    by_cases hnone : ∀ a, labels a → T.step s a = none
    · exact ⟨[], s, nofun, rfl, hs, h.rest hs hnone⟩
    · simp only [Classical.not_forall] at hnone
      obtain ⟨a, ha, hsome⟩ := hnone
      obtain ⟨s₁, h₁⟩ := Option.ne_none_iff_exists'.mp hsome
      obtain ⟨hs₁, hlt⟩ := h.step hs ha h₁
      obtain ⟨l, s', hl, hexec, hs', hrest⟩ := ih (rank s₁) (hrank ▸ hlt) hs₁ rfl
      refine ⟨a :: l, s', ?_, ?_, hs', hrest⟩
      · intro b hb
        rcases List.mem_cons.mp hb with rfl | hb
        · exact ha
        · exact hl b hb
      · rw [exec, h₁]
        exact hexec

end TransitionSystem

end CcPof
