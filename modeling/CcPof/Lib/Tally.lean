import Mathlib.Data.List.Basic

/-!
# Counting threads

A shared counter is right when it agrees with the number of threads that are in certain places. A
step of one thread changes one entry of the list of threads, and a new thread comes at its end.
-/

namespace CcPof

variable {α : Type}

/-- How many threads are in a place. -/
def tally (p : α → Bool) (l : List α) : Int := l.countP p

theorem toInt_nonneg (b : Bool) : 0 ≤ b.toInt := by
  cases b <;> decide

variable {p q : α → Bool} {l : List α} {i : Nat} {a b : α}

@[simp] theorem tally_nil : tally p [] = 0 := rfl

theorem tally_cons : tally p (a :: l) = (p a).toInt + tally p l := by
  unfold tally
  rw [List.countP_cons]
  cases p a
  · rw [if_neg Bool.false_ne_true, Bool.toInt_false]
    omega
  · rw [if_pos rfl, Bool.toInt_true]
    omega

theorem tally_append_singleton : tally p (l ++ [a]) = tally p l + (p a).toInt := by
  induction l with
  | nil => rw [List.nil_append, tally_cons, tally_nil, Int.add_comm]
  | cons b l ih =>
    rw [List.cons_append, tally_cons, tally_cons, ih, Int.add_assoc]

theorem tally_set (h : l[i]? = some a) (b : α) :
    tally p (l.set i b) = tally p l - (p a).toInt + (p b).toInt := by
  induction l generalizing i with
  | nil => cases h
  | cons c l ih =>
    cases i with
    | zero =>
      have hc : c = a := Option.some.inj h
      rw [List.set_cons_zero, tally_cons, tally_cons, hc]
      omega
    | succ i =>
      rw [List.set_cons_succ, tally_cons, tally_cons, ih h]
      omega

/-- An entry of a list in which one entry was replaced -/
theorem getElem?_set_cases {j : Nat} {c : α} (h : (l.set i b)[j]? = some c) :
    j = i ∧ c = b ∨ j ≠ i ∧ l[j]? = some c := by
  rw [List.getElem?_set] at h
  split at h
  · rename_i hij
    split at h
    · exact .inl ⟨hij.symm, (Option.some.inj h).symm⟩
    · cases h
  · rename_i hij
    exact .inr ⟨Ne.symm hij, h⟩

/-- An entry of a list with a new one at its end -/
theorem getElem?_concat_cases {j : Nat} {c : α} (h : (l ++ [a])[j]? = some c) :
    l[j]? = some c ∨ c = a := by
  rcases Nat.lt_or_ge j l.length with hlt | hge
  · rw [List.getElem?_append_left hlt] at h
    exact .inl h
  · rw [List.getElem?_append_right hge, List.getElem?_singleton] at h
    split at h <;> cases h
    exact .inr rfl

theorem tally_nonneg : 0 ≤ tally p l := Int.natCast_nonneg _

theorem tally_le_tally (h : ∀ a ∈ l, p a = true → q a = true) : tally p l ≤ tally q l :=
  Int.ofNat_le.mpr (List.countP_mono_left h)

theorem tally_eq_zero_iff : tally p l = 0 ↔ ∀ a ∈ l, p a = false := by
  rw [tally, Int.natCast_eq_zero, List.countP_eq_zero]
  simp only [Bool.not_eq_true]

theorem tally_pos_iff : 0 < tally p l ↔ ∃ a ∈ l, p a = true := by
  rw [tally, Int.natCast_pos, List.countP_pos_iff]

end CcPof
