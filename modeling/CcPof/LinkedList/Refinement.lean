import CcPof.LinkedList.Model

/-!
# The list as a sequence

The elements behind `*head` are a sequence of allocated elements with their data, and no other
element is allocated. `Call.apply` says what a call is for, in terms of the sequence alone.
-/

namespace CcPof.LinkedList

variable {D : Type}

/-- An element, by its address and its datum -/
abbrev Item (D : Type) := Addr × D

/-- The list behind `*head` is the sequence `q`. -/
structure Holds (s : Heap D) (q : List (Item D)) : Prop where
  chain : Chain s.next s.head (q.map Prod.fst)
  data : ∀ x ∈ q, (s.nodes x.1).map (·.data) = some x.2

/-- The heap holds the list of the sequence `q`, and nothing else. -/
structure Refines (s : Heap D) (q : List (Item D)) : Prop where
  chain : Chain s.next s.head (q.map Prod.fst)
  data : ∀ x ∈ q, (s.nodes x.1).map (·.data) = some x.2
  only : ∀ a, a ∉ q.map Prod.fst → s.nodes a = none

/-- What a call is to make of the sequence and to return; `none` where `malloc` does not give it the
element that it needs. -/
def Call.apply [DecidableEq D] (q : List (Item D)) : Call D → Option (List (Item D) × Int)
  | .insertInFront data malloc => malloc.map fun a => ((a, data) :: q, CC_NO_ERROR)
  | .insertTail data malloc => malloc.map fun a => (q ++ [(a, data)], CC_NO_ERROR)
  | .insertBefore sibling data malloc =>
      if q.any (·.2 = sibling) then
        malloc.map fun a => (q.insertIdx (q.findIdx (·.2 = sibling)) (a, data), CC_NO_ERROR)
      else some (q, CC_ERROR)
  | .listLengthOf => some (q, q.length)
  | .deleteElement data =>
      if q.any (·.2 = data) then some (q.eraseP (·.2 = data), CC_NO_ERROR) else some (q, CC_ERROR)

def applyAll [DecidableEq D] (q : List (Item D)) : List (Call D) → Option (List (Item D) × List Int)
  | [] => some (q, [])
  | c :: cs => do
    let (q, ret) ← c.apply q
    let (q, rets) ← applyAll q cs
    some (q, ret :: rets)

/-! ## Elements of the sequence -/

namespace Holds

variable {s : Heap D} {q l r : List (Item D)} {x : Item D}

theorem nodup (h : Holds s q) : (q.map Prod.fst).Nodup := h.chain.nodup

/-- The element behind the items of `l` -/
theorem node (h : Holds s (l ++ x :: r)) :
    s.nodes x.1 = some ⟨(r.map Prod.fst).head?, x.2⟩ := by
  have hdata := h.data x (List.mem_append_right l List.mem_cons_self)
  have hchain := h.chain
  rw [List.map_append, List.map_cons] at hchain
  have hnext := hchain.next_eq
  rw [Option.map_eq_some_iff] at hdata
  rcases hdata with ⟨⟨next, data⟩, hnode, rfl⟩
  rw [Heap.next, hnode] at hnext
  rw [hnode, ← hnext]
  rfl

theorem head (h : Holds s q) : s.head = (q.map Prod.fst).head? := h.chain.head_eq

/-- One item further -/
theorem shift (h : Holds s (l ++ x :: r)) : Holds s ((l ++ [x]) ++ r) := by
  rw [List.append_assoc, List.singleton_append]
  exact h

theorem ne (h : Holds s (l ++ x :: r)) : ∀ y ∈ l ++ r, y.1 ≠ x.1 := by
  have hnodup := h.nodup
  rw [List.map_append, List.map_cons, List.perm_middle.nodup_iff, List.nodup_cons,
    ← List.map_append] at hnodup
  intro y hy heq
  exact hnodup.1 (heq ▸ List.mem_map_of_mem hy)

theorem ne_of_none {a : Addr} (h : Holds s q) (ha : s.nodes a = none) : ∀ y ∈ q, y.1 ≠ a := by
  rintro y hy rfl
  have hdata := h.data y hy
  rw [ha] at hdata
  cases hdata

end Holds

namespace Refines

variable {s : Heap D} {q l r : List (Item D)} {x : Item D}

theorem holds (h : Refines s q) : Holds s q := ⟨h.chain, h.data⟩

theorem nodup (h : Refines s q) : (q.map Prod.fst).Nodup := h.chain.nodup

theorem node (h : Refines s (l ++ x :: r)) :
    s.nodes x.1 = some ⟨(r.map Prod.fst).head?, x.2⟩ := h.holds.node

theorem head (h : Refines s q) : s.head = (q.map Prod.fst).head? := h.chain.head_eq

theorem shift (h : Refines s (l ++ x :: r)) : Refines s ((l ++ [x]) ++ r) := by
  rw [List.append_assoc, List.singleton_append]
  exact h

theorem ne (h : Refines s (l ++ x :: r)) : ∀ y ∈ l ++ r, y.1 ≠ x.1 := h.holds.ne

theorem ne_of_none {a : Addr} (h : Refines s q) (ha : s.nodes a = none) : ∀ y ∈ q, y.1 ≠ a :=
  h.holds.ne_of_none ha

end Refines

namespace Heap

variable {s : Heap D} {a b : Addr} {element : ListElement D}

theorem nodes_write_self : (s.write a element).nodes a = some element := Function.update_self ..

theorem nodes_write_of_ne (h : b ≠ a) : (s.write a element).nodes b = s.nodes b :=
  Function.update_of_ne h ..

theorem nodes_free_self : (s.free a).nodes a = none := Function.update_self ..

theorem nodes_free_of_ne (h : b ≠ a) : (s.free a).nodes b = s.nodes b := Function.update_of_ne h ..

theorem next_congr {s' : Heap D} {q : List (Item D)}
    (h : ∀ y ∈ q, s'.nodes y.1 = s.nodes y.1) : ∀ b ∈ q.map Prod.fst, s'.next b = s.next b := by
  intro b hb
  rcases List.mem_map.mp hb with ⟨y, hy, rfl⟩
  rw [Heap.next, Heap.next, h y hy]

end Heap

section

variable {s s' : Heap D} {l r : List (Item D)} {x : Item D} {a : Addr} {d : D}

/-- Link an item in behind `x`. -/
theorem Holds.insert_after (h : Holds s (l ++ x :: r)) (ha : s.nodes a = none)
    (hhead : s'.head = s.head) (hx : s'.nodes x.1 = some ⟨some a, x.2⟩)
    (hnode : s'.nodes a = some ⟨(r.map Prod.fst).head?, d⟩)
    (hother : ∀ b, b ≠ a → b ≠ x.1 → s'.nodes b = s.nodes b) :
    Holds s' (l ++ x :: (a, d) :: r) := by
  -- All items but `x` and the new one are as before.
  have hold : ∀ y ∈ l ++ r, s'.nodes y.1 = s.nodes y.1 := by
    intro y hy
    refine hother y.1 (h.ne_of_none ha y ?_) (h.ne y hy)
    rcases List.mem_append.mp hy with hy | hy
    · exact List.mem_append_left _ hy
    · exact List.mem_append_right l (List.mem_cons_of_mem x hy)
  have hnext := Heap.next_congr hold
  constructor
  · have hchain := h.chain
    rw [List.map_append, List.map_cons] at hchain
    rw [List.map_append, List.map_cons, List.map_cons, hhead]
    rw [List.map_append] at hnext
    apply hchain.insert_after
    · rw [Heap.next, hx]
      rfl
    · rw [Heap.next, hnode, Heap.next, h.node]
      rfl
    · exact fun b hb => hnext b (List.mem_append_left _ hb)
    · exact fun b hb => hnext b (List.mem_append_right _ hb)
  · intro y hy
    rw [List.mem_append, List.mem_cons, List.mem_cons] at hy
    rcases hy with hy | rfl | rfl | hy
    · rw [hold y (List.mem_append_left _ hy)]
      exact h.data y (List.mem_append_left _ hy)
    · rw [hx]
      rfl
    · rw [hnode]
      rfl
    · rw [hold y (List.mem_append_right _ hy)]
      exact h.data y (List.mem_append_right _ (List.mem_cons_of_mem x hy))

end

namespace Refines

variable {s s' : Heap D} {q l r : List (Item D)} {x y : Item D} {a : Addr} {d : D}

/-- A list with an item in front of it -/
theorem cons (h : Refines s q) (ha : s.nodes a = none) (hhead : s'.head = some a)
    (hnode : s'.nodes a = some ⟨s.head, d⟩) (hother : ∀ b, b ≠ a → s'.nodes b = s.nodes b) :
    Refines s' ((a, d) :: q) := by
  have hne := h.ne_of_none ha
  constructor
  · refine ⟨hhead, ?_⟩
    have hnext : s'.next a = s.head := by
      rw [Heap.next, hnode]
      rfl
    rw [hnext]
    exact h.chain.congr (Heap.next_congr fun y hy => hother y.1 (hne y hy))
  · intro y hy
    rcases List.mem_cons.mp hy with rfl | hy
    · rw [hnode]
      rfl
    · rw [hother y.1 (hne y hy)]
      exact h.data y hy
  · intro b hb
    rw [List.map_cons, List.mem_cons, not_or] at hb
    rw [hother b hb.1]
    exact h.only b hb.2

/-- The list without its first item, which is freed -/
theorem tail (h : Refines s (x :: r)) (hhead : s'.head = (r.map Prod.fst).head?)
    (hx : s'.nodes x.1 = none) (hother : ∀ b, b ≠ x.1 → s'.nodes b = s.nodes b) :
    Refines s' r := by
  have hold : ∀ y ∈ r, s'.nodes y.1 = s.nodes y.1 :=
    fun y hy => hother y.1 (ne (l := []) h y hy)
  constructor
  · have hchain := h.chain.2
    rw [hhead, ← hchain.head_eq]
    exact hchain.congr (Heap.next_congr hold)
  · intro y hy
    rw [hold y hy]
    exact h.data y (List.mem_cons_of_mem x hy)
  · intro b hb
    by_cases hbx : b = x.1
    · rw [hbx, hx]
    · rw [hother b hbx]
      apply h.only
      rw [List.map_cons, List.mem_cons, not_or]
      exact ⟨hbx, hb⟩

/-- Link an item in behind `x`. -/
theorem insert_after (h : Refines s (l ++ x :: r)) (ha : s.nodes a = none)
    (hhead : s'.head = s.head) (hx : s'.nodes x.1 = some ⟨some a, x.2⟩)
    (hnode : s'.nodes a = some ⟨(r.map Prod.fst).head?, d⟩)
    (hother : ∀ b, b ≠ a → b ≠ x.1 → s'.nodes b = s.nodes b) :
    Refines s' (l ++ x :: (a, d) :: r) := by
  have hholds := h.holds.insert_after ha hhead hx hnode hother
  refine ⟨hholds.chain, hholds.data, fun b hb => ?_⟩
  rw [List.map_append, List.map_cons, List.map_cons, List.mem_append, List.mem_cons,
    List.mem_cons, not_or, not_or, not_or] at hb
  rw [hother b hb.2.2.1 hb.2.1]
  apply h.only
  rw [List.map_append, List.map_cons, List.mem_append, List.mem_cons, not_or, not_or]
  exact ⟨hb.1, hb.2.1, hb.2.2.2⟩

/-- Take the item behind `x` out, and free it. -/
theorem remove_after (h : Refines s (l ++ x :: y :: r)) (hhead : s'.head = s.head)
    (hx : s'.nodes x.1 = some ⟨(r.map Prod.fst).head?, x.2⟩) (hy : s'.nodes y.1 = none)
    (hother : ∀ b, b ≠ y.1 → b ≠ x.1 → s'.nodes b = s.nodes b) : Refines s' (l ++ x :: r) := by
  have hney := h.shift.ne
  -- All items but `x` and the one that goes are as before.
  have hold : ∀ z ∈ l ++ r, s'.nodes z.1 = s.nodes z.1 := by
    intro z hz
    apply hother z.1
    · apply hney z
      rcases List.mem_append.mp hz with hz | hz
      · exact List.mem_append_left _ (List.mem_append_left _ hz)
      · exact List.mem_append_right _ hz
    · apply h.ne z
      rcases List.mem_append.mp hz with hz | hz
      · exact List.mem_append_left _ hz
      · exact List.mem_append_right _ (List.mem_cons_of_mem y hz)
  have hnext := Heap.next_congr hold
  constructor
  · have hchain := h.chain
    rw [List.map_append, List.map_cons, List.map_cons] at hchain
    rw [List.map_append, List.map_cons, hhead]
    rw [List.map_append] at hnext
    apply hchain.remove_after
    · rw [Heap.next, hx, Heap.next, h.shift.node]
      rfl
    · exact fun b hb => hnext b (List.mem_append_left _ hb)
    · exact fun b hb => hnext b (List.mem_append_right _ hb)
  · intro z hz
    rw [List.mem_append, List.mem_cons] at hz
    rcases hz with hz | rfl | hz
    · rw [hold z (List.mem_append_left _ hz)]
      exact h.data z (List.mem_append_left _ hz)
    · rw [hx]
      rfl
    · rw [hold z (List.mem_append_right _ hz)]
      exact h.data z (List.mem_append_right _ (List.mem_cons_of_mem x (List.mem_cons_of_mem y hz)))
  · intro b hb
    rw [List.map_append, List.map_cons, List.mem_append, List.mem_cons, not_or, not_or] at hb
    by_cases hby : b = y.1
    · rw [hby, hy]
    · rw [hother b hby hb.2.1]
      apply h.only
      rw [List.map_append, List.map_cons, List.map_cons, List.mem_append, List.mem_cons,
        List.mem_cons, not_or, not_or, not_or]
      exact ⟨hb.1, hb.2.1, hby, hb.2.2⟩

end Refines

theorem refines_emptyList : Refines (emptyList : Heap D) [] :=
  ⟨rfl, nofun, fun _ _ => rfl⟩

end CcPof.LinkedList
