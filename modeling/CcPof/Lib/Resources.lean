import Mathlib.Data.List.Perm.Basic
import Mathlib.Data.List.Count
import Mathlib.Data.List.Nodup
import Mathlib.Logic.Function.Basic

/-!
# Resources

A record of what was acquired, what was given back, and what is live in between. While only live
resources are given back, every acquisition is either live or was given back once.
-/

namespace CcPof

variable {ρ : Type}

structure Resources (ρ : Type) where
  acquired : List ρ
  released : List ρ
  live : List ρ
  deriving DecidableEq, Repr

namespace Resources

variable {r : Resources ρ} {x y : ρ}

def empty : Resources ρ := ⟨[], [], []⟩

def acquire (r : Resources ρ) (x : ρ) : Resources ρ :=
  { r with acquired := x :: r.acquired, live := x :: r.live }

def release [DecidableEq ρ] (r : Resources ρ) (x : ρ) : Resources ρ :=
  { r with released := x :: r.released, live := r.live.erase x }

/-- Each acquisition is live or was given back. -/
def Balanced (r : Resources ρ) : Prop := r.acquired.Perm (r.released ++ r.live)

theorem balanced_empty : (empty : Resources ρ).Balanced := List.Perm.nil

theorem Balanced.acquire (h : r.Balanced) (x : ρ) : (r.acquire x).Balanced :=
  (h.cons x).trans List.perm_middle.symm

/-- All was given back once if and only if nothing is live. -/
theorem Balanced.released_iff (h : r.Balanced) : r.released.Perm r.acquired ↔ r.live = [] := by
  constructor
  · intro hall
    have hlength := (hall.trans h).length_eq
    rw [List.length_append] at hlength
    exact List.length_eq_zero_iff.mp (by omega)
  · intro hlive
    unfold Balanced at h
    rw [hlive, List.append_nil] at h
    exact h.symm

variable [DecidableEq ρ]

theorem Balanced.release (h : r.Balanced) (hx : x ∈ r.live) : (r.release x).Balanced := by
  have hlive : r.live.Perm (x :: r.live.erase x) := List.perm_cons_erase hx
  exact (h.trans (hlive.append_left r.released)).trans List.perm_middle

/-- A flag for each live resource, raised with an acquisition. -/
theorem mem_acquire_iff {flag : ρ → Bool} (h : ∀ y, y ∈ r.live ↔ flag y = true) (x y : ρ) :
    y ∈ (r.acquire x).live ↔ Function.update flag x true y = true := by
  show y ∈ x :: r.live ↔ _
  rw [List.mem_cons, h y]
  by_cases hy : y = x
  · rw [hy, Function.update_self]
    exact iff_of_true (Or.inl rfl) rfl
  · rw [Function.update_of_ne hy, or_iff_right hy]

theorem mem_release_iff {flag : ρ → Bool} (h : ∀ y, y ∈ r.live ↔ flag y = true)
    (honce : r.live.Nodup) (x y : ρ) :
    y ∈ (r.release x).live ↔ Function.update flag x false y = true := by
  show y ∈ r.live.erase x ↔ _
  rw [honce.mem_erase_iff, h y]
  by_cases hy : y = x
  · rw [hy, Function.update_self]
    exact iff_of_false (fun hmem => hmem.1 rfl) nofun
  · rw [Function.update_of_ne hy, and_iff_right hy]

theorem Balanced.count (h : r.Balanced) (x : ρ) :
    r.acquired.count x = r.released.count x + r.live.count x := by
  rw [h.count_eq x, List.count_append]

end Resources

end CcPof
