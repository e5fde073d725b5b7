import Mathlib.Logic.Function.Basic
import Mathlib.Data.List.Basic

/-!
# Singly linked lists

`Chain next p q`: from the pointer `p`, following `next` visits exactly the nodes of `q`, in this
order, and then ends. The list is determined by the pointers, and no node comes twice in it.
-/

namespace CcPof

def Chain {α : Type} (next : α → Option α) : Option α → List α → Prop
  | p, [] => p = none
  | p, a :: q => p = some a ∧ Chain next (next a) q

namespace Chain

variable {α : Type} {next next' : α → Option α} {p : Option α} {a m : α} {q q' : List α}

theorem none_iff : Chain next none q ↔ q = [] := by
  cases q with
  | nil => simp [Chain]
  | cons b q => simp [Chain]

theorem some_iff : Chain next (some a) q ↔ ∃ q', q = a :: q' ∧ Chain next (next a) q' := by
  cases q with
  | nil => simp [Chain]
  | cons b q =>
    simp only [Chain, Option.some.injEq, List.cons.injEq]
    constructor
    · rintro ⟨rfl, h⟩
      exact ⟨q, ⟨rfl, rfl⟩, h⟩
    · rintro ⟨q', ⟨rfl, rfl⟩, h⟩
      exact ⟨rfl, h⟩

theorem eq_none_iff (h : Chain next p q) : p = none ↔ q = [] := by
  cases q with
  | nil => simpa [Chain] using h
  | cons b q => simp [h.1]

theorem ne_none_iff (h : Chain next p q) : p ≠ none ↔ q ≠ [] := not_congr h.eq_none_iff

theorem unique (h : Chain next p q) (h' : Chain next p q') : q = q' := by
  induction q generalizing p q' with
  | nil => rw [h] at h'; exact (none_iff.mp h').symm
  | cons b q ih =>
    rw [h.1, some_iff] at h'
    obtain ⟨q'', rfl, h''⟩ := h'
    rw [ih h.2 h'']

/-- The part of a list from one of its nodes on. -/
theorem suffix {l : List α} (h : Chain next p (l ++ q)) : ∃ p', Chain next p' q := by
  induction l generalizing p with
  | nil => exact ⟨p, h⟩
  | cons b l ih => exact ih h.2

theorem nodup (h : Chain next p q) : q.Nodup := by
  induction q generalizing p with
  | nil => exact List.nodup_nil
  | cons b q ih =>
    refine List.nodup_cons.mpr ⟨fun hb => ?_, ih h.2⟩
    -- A second visit to `b` would start the same list again, with fewer nodes in it.
    obtain ⟨l, r, rfl⟩ := List.append_of_mem hb
    obtain ⟨p', h'⟩ := h.2.suffix
    have heq : l ++ b :: r = r := h.2.unique h'.2
    have hlen := congrArg List.length heq
    simp only [List.length_append, List.length_cons] at hlen
    omega

theorem congr (h : Chain next p q) (hq : ∀ b ∈ q, next' b = next b) : Chain next' p q := by
  induction q generalizing p with
  | nil => exact h
  | cons b q ih =>
    refine ⟨h.1, ?_⟩
    rw [hq b List.mem_cons_self]
    exact ih h.2 fun c hc => hq c (List.mem_cons_of_mem b hc)

/-- The node after a node of the list is in the list too. -/
theorem mem_of_next (h : Chain next p q) (hm : m ∈ q) (ha : next m = some a) : a ∈ q := by
  induction q generalizing p with
  | nil => cases hm
  | cons b q ih =>
    rcases List.mem_cons.mp hm with rfl | hm
    · have h₂ := h.2
      rw [ha, some_iff] at h₂
      obtain ⟨q', rfl, -⟩ := h₂
      exact List.mem_cons_of_mem _ List.mem_cons_self
    · exact List.mem_cons_of_mem _ (ih h.2 hm)

theorem head_eq (h : Chain next p q) : p = q.head? := by
  cases q with
  | nil => exact h
  | cons b q => exact h.1

/-- A node points to the node behind it. -/
theorem next_eq {l : List α} (h : Chain next p (l ++ a :: q)) : next a = q.head? := by
  induction l generalizing p with
  | nil => exact h.2.head_eq
  | cons b l ih => exact ih h.2

/-- Link a node in behind another one. -/
theorem insert_after {l : List α} (h : Chain next p (l ++ a :: q)) (ha : next' a = some m)
    (hm : next' m = next a) (hl : ∀ b ∈ l, next' b = next b) (hq : ∀ b ∈ q, next' b = next b) :
    Chain next' p (l ++ a :: m :: q) := by
  induction l generalizing p with
  | nil =>
    refine ⟨h.1, ha, ?_⟩
    rw [hm]
    exact h.2.congr hq
  | cons b l ih =>
    refine ⟨h.1, ?_⟩
    rw [hl b List.mem_cons_self]
    exact ih h.2 fun c hc => hl c (List.mem_cons_of_mem b hc)

/-- Take the node behind another one out. -/
theorem remove_after {l : List α} (h : Chain next p (l ++ a :: m :: q)) (ha : next' a = next m)
    (hl : ∀ b ∈ l, next' b = next b) (hq : ∀ b ∈ q, next' b = next b) :
    Chain next' p (l ++ a :: q) := by
  induction l generalizing p with
  | nil =>
    refine ⟨h.1, ?_⟩
    rw [ha]
    exact h.2.2.congr hq
  | cons b l ih =>
    refine ⟨h.1, ?_⟩
    rw [hl b List.mem_cons_self]
    exact ih h.2 fun c hc => hl c (List.mem_cons_of_mem b hc)

theorem singleton (ha : next a = none) : Chain next (some a) [a] := ⟨rfl, ha⟩

/-- Link a node behind the last one. -/
theorem append_last [DecidableEq α] (h : Chain next p q) (hm : m ∈ q) (hlast : next m = none)
    (ha : next a = none) (haq : a ∉ q) :
    Chain (Function.update next m (some a)) p (q ++ [a]) := by
  induction q generalizing p with
  | nil => cases hm
  | cons b q ih =>
    have hq : a ∉ q := fun hmem => haq (List.mem_cons_of_mem b hmem)
    have hab : a ≠ m := by
      rintro rfl
      exact haq hm
    refine ⟨h.1, ?_⟩
    by_cases hbm : b = m
    · subst hbm
      have hnil : q = [] := by
        have h₂ := h.2
        rwa [hlast, none_iff] at h₂
      subst hnil
      rw [Function.update_self]
      exact singleton (by rw [Function.update_of_ne hab, ha])
    · rw [Function.update_of_ne hbm]
      rcases List.mem_cons.mp hm with rfl | hm
      · exact absurd rfl hbm
      · exact ih h.2 hm hq

end Chain

end CcPof
