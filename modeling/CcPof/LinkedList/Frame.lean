import CcPof.Lib.Frames
import CcPof.LinkedList.Exact

/-!
# Calls with a frame

A call on a list reaches the elements of the list and what `malloc` gives it, and nothing else: on a
heap with more elements it runs as it does on the elements of the list alone, and leaves the others
as they are.
-/

namespace CcPof.LinkedList

variable {D U : Type} {s s' : Heap D} {f : Addr → Option (ListElement D)} {n : Nat} {e : Addr}

def Heap.frame (s : Heap D) (f : Addr → Option (ListElement D)) : Heap D where
  nodes := framed s.nodes f
  head := s.head

theorem Heap.frame_head : (s.frame f).head = s.head := rfl

theorem Heap.frame_nodes {element : ListElement D} (h : s.nodes e = some element) :
    (s.frame f).nodes e = some element := framed_of_some h

theorem Heap.frame_write {element : ListElement D} :
    (s.write e element).frame f = (s.frame f).write e element := by
  rw [Heap.frame, Heap.write, Heap.write, framed_update_some]
  rfl

theorem Heap.frame_free (h : f e = none) : (s.free e).frame f = (s.frame f).free e := by
  rw [Heap.frame, Heap.free, Heap.free, framed_update_none h]
  rfl

/-- The call runs with the frame as it does without, and does not touch it. -/
def Framed {R : Type} (f : Addr → Option (ListElement D)) (result result' : Option (Heap D × R)) :
    Prop :=
  ∀ r, result = some r → result' = some (r.1.frame f, r.2) ∧ Apart r.1.nodes f

theorem Framed.of_some {R : Type} {ret : R} {result' : Option (Heap D × R)}
    (h : result' = some (s.frame f, ret)) (hapart : Apart s.nodes f) :
    Framed f (some (s, ret)) result' := by
  intro r hr
  cases hr
  exact ⟨h, hapart⟩

theorem Framed.of_none {R : Type} {result' : Option (Heap D × R)} :
    Framed f (none : Option (Heap D × R)) result' := nofun

theorem Framed.map {R R' : Type} {result result' : Option (Heap D × R)} (g : R → R')
    (h : Framed f result result') :
    Framed f (result.map fun r => (r.1, g r.2)) (result'.map fun r => (r.1, g r.2)) := by
  intro r hr
  rw [Option.map_eq_some_iff] at hr
  obtain ⟨r₁, hr₁, rfl⟩ := hr
  obtain ⟨h', hapart⟩ := h r₁ hr₁
  rw [h']
  exact ⟨rfl, hapart⟩

/-! ## 1. Loops that read -/

theorem lastElement_frame {x : Addr} (h : lastElement s n e = some x) :
    lastElement (s.frame f) n e = some x := by
  induction n generalizing e with
  | zero => cases h
  | succ n ih =>
    rw [lastElement, Option.bind_eq_bind, Option.bind_eq_some_iff] at h
    obtain ⟨⟨next, data⟩, hnode, h⟩ := h
    rw [lastElement, Heap.frame_nodes hnode]
    cases next with
    | none => exact h
    | some next => exact ih h

theorem listLengthLoop_frame {p : Option Addr} {length length' : BitVec 32}
    (h : listLengthLoop s n p length = some length') :
    listLengthLoop (s.frame f) n p length = some length' := by
  induction n generalizing p length with
  | zero => cases h
  | succ n ih =>
    cases p with
    | none => exact h
    | some e =>
      rw [listLengthLoop, Option.bind_eq_bind, Option.bind_eq_some_iff] at h
      obtain ⟨element, hnode, h⟩ := h
      rw [listLengthLoop, Heap.frame_nodes hnode]
      exact ih h

theorem iterateListLoop_frame {function : D → U → U} {p : Option Addr} {userData userData' : U}
    (h : iterateListLoop s function n p userData = some userData') :
    iterateListLoop (s.frame f) function n p userData = some userData' := by
  induction n generalizing p userData with
  | zero => cases h
  | succ n ih =>
    cases p with
    | none => exact h
    | some e =>
      rw [iterateListLoop, Option.bind_eq_bind, Option.bind_eq_some_iff] at h
      obtain ⟨element, hnode, h⟩ := h
      rw [iterateListLoop, Heap.frame_nodes hnode]
      exact ih h

theorem findListLoop_frame {null : D} {function : D → U → Bool × U} {p : Option Addr}
    {userData : U} {r : D × U} (h : findListLoop s null function n p userData = some r) :
    findListLoop (s.frame f) null function n p userData = some r := by
  induction n generalizing p userData with
  | zero => cases h
  | succ n ih =>
    cases p with
    | none => exact h
    | some e =>
      rw [findListLoop, Option.bind_eq_bind, Option.bind_eq_some_iff] at h
      obtain ⟨element, hnode, h⟩ := h
      rw [findListLoop, Heap.frame_nodes hnode]
      show (if _ then _ else _) = _
      split at h
      · rw [if_pos ‹_›]
        exact h
      · rw [if_neg ‹_›]
        exact ih h

/-! ## 2. Loops that link and unlink -/

section

variable [DecidableEq D]

theorem insertBeforeLoop_frame {sibling data : D} {malloc : Option Addr} (hapart : Apart s.nodes f)
    (hfresh : ∀ a ∈ malloc, f a = none) :
    Framed f (insertBeforeLoop s sibling data malloc n e)
      (insertBeforeLoop (s.frame f) sibling data malloc n e) := by
  induction n generalizing e with
  | zero => exact .of_none
  | succ n ih =>
    rw [insertBeforeLoop, insertBeforeLoop]
    cases hnode : s.nodes e with
    | none => exact .of_none
    | some element =>
      rw [Heap.frame_nodes hnode]
      obtain ⟨next, d⟩ := element
      cases next with
      -- The sibling is not in the list: nothing is written.
      | none => exact .of_some rfl hapart
      | some next =>
        show Framed f ((s.nodes next).bind _) (((s.frame f).nodes next).bind _)
        cases hnext : s.nodes next with
        | none => exact .of_none
        | some nextElement =>
          rw [Heap.frame_nodes hnext, Option.bind_some, Option.bind_some]
          split
          · cases malloc with
            | none => exact .of_none
            | some a =>
              -- The new element, and the link to it in the one before the sibling
              apply Framed.of_some
              · rw [Heap.frame_write, Heap.frame_write]
                rfl
              · exact (hapart.update (hfresh a rfl)).update (hapart.none_of_some hnode)
          · exact ih

theorem deleteElementLoop_frame {data : D} (hapart : Apart s.nodes f) :
    Framed f (deleteElementLoop s data n e) (deleteElementLoop (s.frame f) data n e) := by
  induction n generalizing e with
  | zero => exact .of_none
  | succ n ih =>
    rw [deleteElementLoop, deleteElementLoop]
    cases hnode : s.nodes e with
    | none => exact .of_none
    | some element =>
      rw [Heap.frame_nodes hnode]
      obtain ⟨next, d⟩ := element
      cases next with
      | none => exact .of_some rfl hapart
      | some next =>
        show Framed f ((s.nodes next).bind _) (((s.frame f).nodes next).bind _)
        cases hnext : s.nodes next with
        | none => exact .of_none
        | some nextElement =>
          rw [Heap.frame_nodes hnext, Option.bind_some, Option.bind_some]
          -- The element that is freed is one of the list.
          have hfree := hapart.none_of_some hnext
          split
          · apply Framed.of_some
            · rw [Heap.frame_free hfree, Heap.frame_write]
            · exact (hapart.update (hapart.none_of_some hnode)).update hfree
          · exact ih

end

theorem deleteListLoop_frame {p : Option Addr} (hapart : Apart s.nodes f)
    (h : deleteListLoop n s p = some s') :
    deleteListLoop n (s.frame f) p = some (s'.frame f) ∧ Apart s'.nodes f := by
  induction n generalizing s p with
  | zero => cases h
  | succ n ih =>
    cases p with
    | none =>
      cases h
      exact ⟨rfl, hapart⟩
    | some e =>
      rw [deleteListLoop, Option.bind_eq_bind, Option.bind_eq_some_iff] at h
      obtain ⟨element, hnode, h⟩ := h
      have hfree := hapart.none_of_some hnode
      rw [deleteListLoop, Heap.frame_nodes hnode, ← Heap.frame_free hfree]
      exact ih (hapart.update hfree) h

/-! ## 3. Calls -/

section

variable [DecidableEq D]

theorem call_frame {c : Call D} (hapart : Apart s.nodes f) (hfresh : ∀ a ∈ c.malloc, f a = none) :
    Framed f (call n s c) (call n (s.frame f) c) := by
  cases c with
  | insertInFront data malloc =>
    cases malloc with
    | none => exact .of_none
    | some a =>
      apply Framed.of_some
      · show some ({ (s.frame f).write a _ with head := some a }, _) = _
        rw [← Heap.frame_write]
        rfl
      · exact hapart.update (hfresh a rfl)
  | insertBefore sibling data malloc =>
    show Framed f (s.head.bind _) (s.head.bind _)
    cases s.head with
    | none => exact .of_none
    | some e => exact insertBeforeLoop_frame hapart hfresh
  | insertTail data malloc =>
    cases malloc with
    | none => exact .of_none
    | some a =>
      -- The element is written before the walk to the end.
      have hwrite := hapart.update (o := some ⟨none, data⟩) (hfresh a rfl)
      have hframe : (s.write a ⟨none, data⟩).frame f = (s.frame f).write a ⟨none, data⟩ :=
        Heap.frame_write
      show Framed f (insertTail s data (some a) n) (insertTail (s.frame f) data (some a) n)
      rw [insertTail, insertTail, Option.bind_eq_bind, Option.bind_some, Option.bind_eq_bind,
        Option.bind_some, ← hframe]
      dsimp only
      rw [Heap.frame_head]
      cases (s.write a ⟨none, data⟩).head with
      | none => exact .of_some rfl hwrite
      | some head =>
        dsimp only
        cases hlast : lastElement (s.write a ⟨none, data⟩) n head with
        | none => exact .of_none
        | some e =>
          rw [lastElement_frame hlast]
          simp only [Option.bind_some]
          cases hnode : (s.write a ⟨none, data⟩).nodes e with
          | none => exact .of_none
          | some element =>
            rw [Heap.frame_nodes hnode]
            apply Framed.of_some
            · show some (((s.write a _).frame f).write e _, _) = _
              rw [← Heap.frame_write]
            · exact hwrite.update (hwrite.none_of_some hnode)
  | listLengthOf =>
    -- A loop that reads changes no heap.
    intro r hr
    rw [call, Option.map_eq_some_iff] at hr
    obtain ⟨length, hlength, rfl⟩ := hr
    refine ⟨?_, hapart⟩
    rw [call, Option.map_eq_some_iff]
    refine ⟨length, ?_, rfl⟩
    unfold listLengthOf at hlength ⊢
    rw [Heap.frame_head]
    cases hhead : s.head with
    | none =>
      rw [hhead] at hlength
      exact hlength
    | some head =>
      rw [hhead] at hlength
      dsimp only at hlength ⊢
      rw [Option.bind_eq_bind, Option.bind_eq_some_iff] at hlength
      obtain ⟨element, hnode, hlength⟩ := hlength
      rw [Heap.frame_nodes hnode]
      exact listLengthLoop_frame hlength
  | deleteElement data =>
    show Framed f (s.head.bind _) (s.head.bind _)
    cases s.head with
    | none => exact .of_none
    | some e =>
      show Framed f ((s.nodes e).bind _) (((s.frame f).nodes e).bind _)
      cases hnode : s.nodes e with
      | none => exact .of_none
      | some element =>
        rw [Heap.frame_nodes hnode, Option.bind_some, Option.bind_some]
        -- The head has the datum.
        have hfree := hapart.none_of_some hnode
        split
        · apply Framed.of_some
          · rw [← Heap.frame_free hfree]
            rfl
          · exact hapart.update hfree
        · exact deleteElementLoop_frame hapart

end

theorem iterateList_frame {function : Option (D → U → U)} {userData userData' : U}
    (h : iterateList s function userData n = some userData') :
    iterateList (s.frame f) function userData n = some userData' := by
  unfold iterateList at h ⊢
  rw [Heap.frame_head]
  revert h
  cases s.head with
  | none => exact id
  | some head =>
    cases function with
    | none => exact id
    | some function => exact iterateListLoop_frame

theorem findListCustom_frame {null : D} {function : Option (D → U → Bool × U)} {userData : U}
    {r : D × U} (h : findListCustom s null function userData n = some r) :
    findListCustom (s.frame f) null function userData n = some r := by
  unfold findListCustom at h ⊢
  rw [Heap.frame_head]
  revert h
  cases s.head with
  | none => exact id
  | some head =>
    cases function with
    | none => exact id
    | some function => exact findListLoop_frame

theorem deleteList_frame (hapart : Apart s.nodes f) :
    Framed f (deleteList s n) (deleteList (s.frame f) n) := by
  intro r hr
  rw [deleteList, Option.bind_eq_bind, Option.bind_eq_some_iff] at hr
  obtain ⟨s', hs', hr⟩ := hr
  cases hr
  obtain ⟨hframe, hapart'⟩ := deleteListLoop_frame hapart hs'
  refine ⟨?_, hapart'⟩
  rw [deleteList, Option.bind_eq_bind]
  show (deleteListLoop n (s.frame f) s.head).bind _ = _
  rw [hframe]
  rfl

end CcPof.LinkedList
