import Mathlib.Logic.Function.Basic

/-!
# Frames

A partial map that is put together from two maps without a common address. What an operation does to
one of them it does to the whole, and the other one, its frame, stays as it is.
-/

namespace CcPof

variable {α β : Type} {f g : α → Option β} {a : α} {b : β}

/-- No address is in both maps. -/
def Apart (f g : α → Option β) : Prop := ∀ a, f a = none ∨ g a = none

/-- The map `f` with the frame `g` -/
def framed (f g : α → Option β) (a : α) : Option β := (f a).or (g a)

/-- The map at the addresses with `p` -/
def within (p : α → Prop) [DecidablePred p] (f : α → Option β) (a : α) : Option β :=
  if p a then f a else none

theorem framed_of_some (h : f a = some b) : framed f g a = some b := by
  rw [framed, h]
  rfl

theorem framed_of_none (h : f a = none) : framed f g a = g a := by
  rw [framed, h]
  rfl

namespace Apart

theorem none_of_some (h : Apart f g) (ha : f a = some b) : g a = none := by
  apply (h a).resolve_left
  rw [ha]
  exact Option.some_ne_none b

theorem none_of_frame (h : Apart f g) (ha : g a = some b) : f a = none := by
  apply (h a).resolve_right
  rw [ha]
  exact Option.some_ne_none b

end Apart

section Update

variable [DecidableEq α]

theorem framed_update_some :
    framed (Function.update f a (some b)) g = Function.update (framed f g) a (some b) := by
  ext x
  by_cases hx : x = a
  · -- What is in the left map hides the frame.
    subst hx
    rw [framed, Function.update_self, Function.update_self]
    rfl
  · rw [framed, Function.update_of_ne hx, Function.update_of_ne hx]
    rfl

theorem framed_update_none (h : g a = none) :
    framed (Function.update f a none) g = Function.update (framed f g) a none := by
  ext x
  by_cases hx : x = a
  · -- A removed address would show the frame, which does not have it.
    subst hx
    rw [framed, Function.update_self, Function.update_self, h]
    rfl
  · rw [framed, Function.update_of_ne hx, Function.update_of_ne hx]
    rfl

theorem Apart.update {o : Option β} (h : Apart f g) (ha : g a = none) :
    Apart (Function.update f a o) g := by
  intro x
  by_cases hx : x = a
  · subst hx
    exact .inr ha
  · rw [Function.update_of_ne hx]
    exact h x

end Update

section Within

variable (p : α → Prop) [DecidablePred p] (f : α → Option β)

theorem within_of_pos {p : α → Prop} [DecidablePred p] (h : p a) : within p f a = f a := if_pos h

theorem within_of_neg {p : α → Prop} [DecidablePred p] (h : ¬ p a) : within p f a = none := if_neg h

theorem apart_within : Apart (within p f) (within (fun a => ¬ p a) f) := by
  intro a
  by_cases ha : p a
  · exact .inr (within_of_neg f (not_not_intro ha))
  · exact .inl (within_of_neg f ha)

theorem framed_within : framed (within p f) (within (fun a => ¬ p a) f) = f := by
  ext a
  by_cases ha : p a
  · rw [framed, within_of_pos f ha, within_of_neg (p := fun a => ¬ p a) f (not_not_intro ha),
      Option.or_none]
  · rw [framed_of_none (within_of_neg f ha), within_of_pos (p := fun a => ¬ p a) f ha]

end Within

end CcPof
