import Mathlib.Data.Finset.Card
import Mathlib.Data.Finset.Range
import Mathlib.Logic.Function.Basic

/-!
# Descriptor tables

The descriptors of a process, each with the open file that it refers to. A `fork` copies the table;
afterwards each process changes its own.
-/

namespace CcPof

/-- `none`: the descriptor is closed. -/
abbrev Descriptors (φ : Type) := Nat → Option φ

namespace Descriptors

variable {φ : Type} {t : Descriptors φ} {f : φ} {a b d n : Nat}

def install (t : Descriptors φ) (a : Nat) (f : φ) : Descriptors φ := Function.update t a (some f)

def close (t : Descriptors φ) (a : Nat) : Descriptors φ := Function.update t a none

/-- `b` is closed and becomes a copy of `a`; a closed `a` is an error. -/
def dup2 (t : Descriptors φ) (a b : Nat) : Descriptors φ :=
  match t a with
  | some f => t.install b f
  | none => t

def Holds (t : Descriptors φ) (f : φ) : Prop := ∃ d, t d = some f

/-- `a` is the one descriptor of `f`. -/
def Only (t : Descriptors φ) (a : Nat) (f : φ) : Prop := ∀ d, t d = some f ↔ d = a

theorem Only.refers (h : t.Only a f) : t a = some f := (h a).mpr rfl

theorem only_install (h : ¬ t.Holds f) : (t.install a f).Only a f := by
  intro d
  unfold install
  by_cases hd : d = a
  · rw [hd, Function.update_self]
    exact iff_of_true rfl rfl
  · rw [Function.update_of_ne hd]
    exact iff_of_false (fun hf => h ⟨d, hf⟩) hd

/-- The file is gone with its one descriptor. -/
theorem Only.not_holds_close (h : t.Only a f) : ¬ (t.close a).Holds f := by
  rintro ⟨d, hd⟩
  unfold close at hd
  by_cases hda : d = a
  · rw [hda, Function.update_self] at hd
    cases hd
  · rw [Function.update_of_ne hda] at hd
    exact hda ((h d).mp hd)

/-- The one descriptor of a file moves to another number. -/
theorem Only.dup2_close (h : t.Only a f) (hab : b ≠ a) : ((t.dup2 a b).close a).Only b f := by
  intro d
  unfold dup2 close
  rw [h.refers]
  dsimp only [install]
  by_cases hda : d = a
  · rw [hda, Function.update_self]
    exact iff_of_false nofun hab.symm
  · rw [Function.update_of_ne hda]
    by_cases hdb : d = b
    · rw [hdb, Function.update_self]
      exact iff_of_true rfl rfl
    · rw [Function.update_of_ne hdb, h d]
      exact iff_of_false hda hdb

theorem install_of_ne (h : d ≠ a) : t.install a f d = t d := Function.update_of_ne h ..

theorem install_of_open (ha : t a = none) (hd : t d ≠ none) : t.install a f d = t d :=
  install_of_ne fun heq => hd (heq ▸ ha)

theorem close_install (h : t a = none) : (t.install a f).close a = t := by
  rw [close, install, Function.update_idem, ← h, Function.update_eq_self]

/-- The numbers below `n` that are open -/
def used (t : Descriptors φ) (n : Nat) : Nat := ((Finset.range n).filter fun d => (t d).isSome).card

theorem used_le : t.used n ≤ n := by
  have hle := Finset.card_filter_le (Finset.range n) fun d => (t d).isSome
  rwa [Finset.card_range] at hle

theorem used_install (ha : a < n) (hclosed : t a = none) : (t.install a f).used n = t.used n + 1 := by
  have hnew : a ∉ (Finset.range n).filter fun d => (t d).isSome := by
    rw [Finset.mem_filter, hclosed]
    exact fun h => Bool.false_ne_true h.2
  rw [used, used, ← Finset.card_insert_of_notMem hnew]
  congr 1
  ext d
  rw [Finset.mem_insert, Finset.mem_filter, Finset.mem_filter]
  by_cases hd : d = a
  · rw [hd, install, Function.update_self]
    exact iff_of_true ⟨Finset.mem_range.mpr ha, rfl⟩ (Or.inl rfl)
  · rw [install_of_ne hd]
    exact (or_iff_right hd).symm

end Descriptors

end CcPof
