import CcPof.Lib.Chain

/-!
# Doubly linked lists

`DSeg ptr next pre before l after`: the nodes of `l` are linked in this order in both directions,
the first one back to `before` and the last one on to `after`. A pointer to the node `a` is `ptr a`,
so that a list may end with NULL, or with a header that is no node itself.
-/

namespace CcPof

variable {α β : Type} (ptr : α → β)

/-- A pointer to the first node of a list, or to what comes behind the list. -/
def frontPtr : List α → β → β
  | [], after => after
  | a :: _, _ => ptr a

/-- A pointer to the last node of a list, or to what comes in front of the list. -/
def backPtr : β → List α → β
  | before, [] => before
  | _, a :: l => backPtr (ptr a) l

def DSeg (next pre : α → β) : β → List α → β → Prop
  | _, [], _ => True
  | before, a :: l, after =>
      pre a = before ∧ next a = frontPtr ptr l after ∧ DSeg next pre (ptr a) l after

variable {ptr}

@[simp] theorem frontPtr_nil (after : β) : frontPtr ptr [] after = after := rfl

@[simp] theorem frontPtr_cons (a : α) (l : List α) (after : β) :
    frontPtr ptr (a :: l) after = ptr a := rfl

@[simp] theorem backPtr_nil (before : β) : backPtr ptr before [] = before := rfl

@[simp] theorem backPtr_cons (a : α) (l : List α) (before : β) :
    backPtr ptr before (a :: l) = backPtr ptr (ptr a) l := rfl

theorem frontPtr_append (l r : List α) (after : β) :
    frontPtr ptr (l ++ r) after = frontPtr ptr l (frontPtr ptr r after) := by
  cases l <;> rfl

@[simp] theorem backPtr_append (l r : List α) (before : β) :
    backPtr ptr before (l ++ r) = backPtr ptr (backPtr ptr before l) r := by
  induction l generalizing before with
  | nil => rfl
  | cons a l ih => exact ih (ptr a)

theorem frontPtr_none (l : List α) : frontPtr some l none = l.head? := by
  cases l <;> rfl

theorem backPtr_none (a : α) (l : List α) : backPtr some none (a :: l) = (a :: l).getLast? := by
  induction l generalizing a with
  | nil => rfl
  | cons b l ih =>
    rw [List.getLast?_cons_cons, ← ih b]
    rfl

namespace DSeg

variable {next pre next' pre' : α → β} {before after : β} {a : α} {l r : List α}

theorem append : DSeg ptr next pre before (l ++ r) after ↔
    DSeg ptr next pre before l (frontPtr ptr r after) ∧
      DSeg ptr next pre (backPtr ptr before l) r after := by
  induction l generalizing before with
  | nil => simp [DSeg]
  | cons b l ih =>
    simp only [List.cons_append, DSeg, backPtr_cons, ih, frontPtr_append, and_assoc]

theorem next_of (h : DSeg ptr next pre before (l ++ a :: r) after) :
    next a = frontPtr ptr r after := (append.mp h).2.2.1

theorem pre_of (h : DSeg ptr next pre before (l ++ a :: r) after) :
    pre a = backPtr ptr before l := (append.mp h).2.1

theorem congr (h : DSeg ptr next pre before l after)
    (hl : ∀ b ∈ l, next' b = next b ∧ pre' b = pre b) : DSeg ptr next' pre' before l after := by
  induction l generalizing before with
  | nil => trivial
  | cons b l ih =>
    have hb := hl b List.mem_cons_self
    refine ⟨?_, ?_, ih h.2.2 fun c hc => hl c (List.mem_cons_of_mem b hc)⟩
    · rw [hb.2, h.1]
    · rw [hb.1, h.2.1]

/-- Another predecessor for the first node. -/
theorem congr_front (h : DSeg ptr next pre before (a :: l) after) {before' : β}
    (ha : next' a = next a ∧ pre' a = before') (hl : ∀ b ∈ l, next' b = next b ∧ pre' b = pre b) :
    DSeg ptr next' pre' before' (a :: l) after :=
  ⟨ha.2, by rw [ha.1, h.2.1], h.2.2.congr hl⟩

/-- Another successor for the last node. -/
theorem congr_back (h : DSeg ptr next pre before (l ++ [a]) after) {after' : β}
    (ha : next' a = after' ∧ pre' a = pre a) (hl : ∀ b ∈ l, next' b = next b ∧ pre' b = pre b) :
    DSeg ptr next' pre' before (l ++ [a]) after' := by
  rw [append] at h ⊢
  exact ⟨h.1.congr hl, by rw [ha.2]; exact h.2.1, ha.1, trivial⟩

/-- A list that ends with NULL is a singly linked list too. -/
theorem chain {next pre : α → Option α} {before : Option α}
    (h : DSeg some next pre before l none) : Chain next l.head? l := by
  induction l generalizing before with
  | nil => rfl
  | cons b l ih =>
    refine ⟨rfl, ?_⟩
    rw [h.2.1, frontPtr_none]
    exact ih h.2.2

end DSeg

end CcPof
