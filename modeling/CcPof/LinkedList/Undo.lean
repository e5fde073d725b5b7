import CcPof.LinkedList.Calls

/-!
# Deleting what was inserted

A datum that is not in the list is found by `delete_element` in the element that was just inserted,
and nowhere else. The two calls write the same link, so the heap is what it was.
-/

namespace CcPof.LinkedList

variable {D : Type} {s s' : Heap D} {q m r : List (Item D)} {y : Item D} {a : Addr} {x : D}
  {n : Nat}

/-! ## The two writes of a link -/

theorem Heap.free_relink {b : Addr} {e e' element : ListElement D} (hb : s.nodes b = some element)
    (ha : s.nodes a = none) : (((s.write a e).write b e').write b element).free a = s := by
  have hnodes : ((((s.write a e).write b e').write b element).free a).nodes = s.nodes := by
    funext c
    by_cases hca : c = a
    · rw [hca, Heap.nodes_free_self, ha]
    · rw [Heap.nodes_free_of_ne hca]
      by_cases hcb : c = b
      · rw [hcb, Heap.nodes_write_self, hb]
      · rw [Heap.nodes_write_of_ne hcb, Heap.nodes_write_of_ne hcb, Heap.nodes_write_of_ne hca]
  exact congrArg (fun nodes => { s with nodes := nodes }) hnodes

theorem Heap.free_write {e : ListElement D} (ha : s.nodes a = none) : (s.write a e).free a = s := by
  have hnodes : ((s.write a e).free a).nodes = s.nodes := by
    funext c
    by_cases hca : c = a
    · rw [hca, Heap.nodes_free_self, ha]
    · rw [Heap.nodes_free_of_ne hca, Heap.nodes_write_of_ne hca]
  exact congrArg (fun nodes => { s with nodes := nodes }) hnodes

/-- The element `a`, and no other, is allocated in `s'` and not in `s`. -/
def OnlyNew (s s' : Heap D) (a : Addr) : Prop :=
  ∀ b, (s'.nodes b).isSome ∧ s.nodes b = none ↔ b = a

theorem onlyNew_of (ha : s.nodes a = none) (hself : (s'.nodes a).isSome)
    (hother : ∀ b, b ≠ a → (s'.nodes b).isSome = (s.nodes b).isSome) : OnlyNew s s' a := by
  intro b
  constructor
  · rintro ⟨hsome, hnone⟩
    by_contra hba
    rw [hother b hba, hnone] at hsome
    cases hsome
  · rintro rfl
    exact ⟨hself, ha⟩

variable [DecidableEq D]

/-- The insertion works, and `delete_element` frees the new element and restores the heap. -/
def Undone (s : Heap D) (x : D) (a : Addr) (n : Nat) (inserted : Option (Heap D × Int)) : Prop :=
  ∃ s', inserted = some (s', CC_NO_ERROR) ∧ OnlyNew s s' a ∧
    deleteElement s' x n = some (s, CC_NO_ERROR)

/-! ## In front -/

theorem deleteElement_head {link : Option Addr} (hhead : s.head = some a)
    (hnode : s.nodes a = some ⟨link, x⟩) :
    deleteElement s x n = some ({ s.free a with head := link }, CC_NO_ERROR) := by
  rw [deleteElement, hhead]
  show (s.nodes a).bind _ = _
  rw [hnode]
  exact if_pos rfl

theorem undone_front (ha : s.nodes a = none) {inserted : Option (Heap D × Int)}
    (hinserted : inserted = some ({ s.write a ⟨s.head, x⟩ with head := some a }, CC_NO_ERROR)) :
    Undone s x a n inserted := by
  have hself : ({ s.write a ⟨s.head, x⟩ with head := some a } : Heap D).nodes a =
      some ⟨s.head, x⟩ := Heap.nodes_write_self
  refine ⟨_, hinserted, onlyNew_of ha ?_ ?_, ?_⟩
  · rw [hself]
    rfl
  · intro b hba
    exact congrArg Option.isSome (Heap.nodes_write_of_ne hba)
  · have hfree : (s.write a ⟨s.head, x⟩).free a = s := Heap.free_write ha
    rw [deleteElement_head rfl hself]
    exact congrArg (fun t => some ({ t with head := s.head }, CC_NO_ERROR)) hfree

/-! ## Behind another element -/

/-- The only element with the datum is the one behind `y`. -/
theorem deleteElement_linked (h : Holds s (m ++ y :: (a, x) :: r)) (hx : ∀ z ∈ m ++ y :: r, z.2 ≠ x)
    (hn : (m ++ y :: r).length < n) : deleteElement s x n =
      some ((s.write y.1 ⟨(r.map Prod.fst).head?, y.2⟩).free a, CC_NO_ERROR) := by
  obtain ⟨v, l, hv⟩ : ∃ v l, m ++ y :: (a, x) :: r = v :: l := by
    cases m with
    | nil => exact ⟨_, _, rfl⟩
    | cons w m => exact ⟨_, _, rfl⟩
  have hfirst : v.2 ≠ x := by
    cases m with
    | nil =>
      cases hv
      exact hx _ List.mem_cons_self
    | cons w m =>
      cases hv
      exact hx _ List.mem_cons_self
  have hmem : (a, x) ∈ l := by
    have hmem : (a, x) ∈ v :: l := by
      rw [← hv]
      exact List.mem_append_right m (List.mem_cons_of_mem y List.mem_cons_self)
    rcases List.mem_cons.mp hmem with heq | hmem
    · exact absurd (congrArg Prod.snd heq).symm hfirst
    · exact hmem
  have hlength : l.length < n := by
    have hlen := congrArg List.length hv
    simp only [List.length_append, List.length_cons] at hlen hn
    omega
  have hl : l.any (·.2 = x) = true := List.any_eq_true.mpr ⟨_, hmem, decide_eq_true rfl⟩
  rw [hv] at h
  have hhead : s.head = some v.1 := h.head
  have hnode : s.nodes v.1 = some ⟨(l.map Prod.fst).head?, v.2⟩ := Holds.node (l := []) h
  obtain ⟨m', y', z, r', hsplit, hz, -, hloop⟩ := deleteElementLoop_eq (l := []) h hlength hl
  rw [List.nil_append, ← hv] at hsplit
  -- What the loop has found can only be the one element with the datum.
  have hitems : ∀ w ∈ m ++ [y] ++ r, w.2 ≠ z.2 := by
    intro w hw
    rw [hz]
    rw [List.append_assoc, List.singleton_append] at hw
    exact hx w hw
  have hparts : (m ++ [y]) ++ (a, x) :: r = (m' ++ [y']) ++ z :: r' := by
    rw [List.append_assoc, List.append_assoc]
    exact hsplit
  rw [List.append_cons_inj_of_notMem
    (fun hmem => hitems z (List.mem_append_left r hmem) rfl)
    (fun hmem => hitems z (List.mem_append_right _ hmem) rfl)] at hparts
  obtain ⟨hfront, rfl, rfl⟩ := hparts
  obtain ⟨-, hlast⟩ := List.append_inj' hfront rfl
  cases hlast
  simp only [deleteElement, Option.bind_eq_bind, Option.bind_some, hhead, hnode, if_neg hfirst]
  exact hloop

theorem undone_linked (h : Holds s (m ++ y :: r)) (hx : ∀ z ∈ m ++ y :: r, z.2 ≠ x)
    (ha : s.nodes a = none) (hn : (m ++ y :: r).length < n) {inserted : Option (Heap D × Int)}
    (hinserted : inserted = some ((s.write a ⟨(r.map Prod.fst).head?, x⟩).write y.1
      ⟨some a, y.2⟩, CC_NO_ERROR)) : Undone s x a n inserted := by
  have hya := h.ne_of_none ha y (List.mem_append_right m List.mem_cons_self)
  have hnode := h.node
  -- With the two writes the new element stands behind `y`.
  have hlinked : Holds ((s.write a ⟨(r.map Prod.fst).head?, x⟩).write y.1 ⟨some a, y.2⟩)
      (m ++ y :: (a, x) :: r) := by
    refine h.insert_after ha rfl Heap.nodes_write_self ?_ ?_
    · rw [Heap.nodes_write_of_ne hya.symm]
      exact Heap.nodes_write_self
    · intro b hba hby
      rw [Heap.nodes_write_of_ne hby, Heap.nodes_write_of_ne hba]
  refine ⟨_, hinserted, onlyNew_of ha ?_ ?_, ?_⟩
  · rw [Heap.nodes_write_of_ne hya.symm, Heap.nodes_write_self]
    rfl
  · intro b hba
    by_cases hby : b = y.1
    · rw [hby, Heap.nodes_write_self, hnode]
      rfl
    · rw [Heap.nodes_write_of_ne hby, Heap.nodes_write_of_ne hba]
  · rw [deleteElement_linked hlinked hx hn, Heap.free_relink hnode ha]

/-! ## The three insertions -/

/-- **Deleting undoes inserting**, wherever the new element was put. -/
theorem deleteElement_undoes_insert (h : Holds s q) (hx : ∀ y ∈ q, y.2 ≠ x)
    (ha : s.nodes a = none) (hn : q.length < n) :
    Undone s x a n (insertInFront s x (some a)) ∧ Undone s x a n (insertTail s x (some a) n) ∧
      ∀ sibling, (∃ y ∈ q.tail, y.2 = sibling) →
        Undone s x a n (insertBefore s sibling x (some a) n) := by
  refine ⟨undone_front ha rfl, ?_, ?_⟩
  · cases q with
    | nil =>
      have hhead : s.head = none := h.head
      apply undone_front ha
      rw [insertTail_nil hhead, hhead]
    | cons v r =>
      obtain ⟨m, z, hm, htail⟩ := insertTail_eq x h (Nat.lt_of_succ_lt hn) ha
      rw [hm] at h hx hn
      exact undone_linked h hx ha hn htail
  · rintro sibling ⟨w, hw, hsibling⟩
    cases q with
    | nil => cases hw
    | cons v r =>
      have hany : r.any (·.2 = sibling) = true :=
        List.any_eq_true.mpr ⟨w, hw, decide_eq_true hsibling⟩
      have hhead : s.head = some v.1 := h.head
      obtain ⟨m, y, z, r', hm, -, hloop⟩ :=
        insertBeforeLoop_eq (l := []) (a := a) x h (Nat.lt_of_succ_lt hn) hany
      rw [List.nil_append] at hm
      rw [hm] at h hx hn
      apply undone_linked h hx ha hn
      simp only [insertBefore, Option.bind_eq_bind, Option.bind_some, hhead]
      exact hloop

/-- Two elements with the datum 7. -/
def twoSevens : Heap Nat where
  nodes := fun a => if a = 1 then some ⟨some 2, 7⟩ else if a = 2 then some ⟨none, 7⟩ else none
  head := some 1

theorem deleteElement_undoes_insert_twoSevens :
    Undone twoSevens 5 3 3 (insertTail twoSevens 5 (some 3) 3) ∧
      Undone twoSevens 5 3 3 (insertBefore twoSevens 7 5 (some 3) 3) := by
  have hholds : Holds twoSevens [(1, 7), (2, 7)] :=
    ⟨⟨rfl, rfl, rfl⟩, by decide⟩
  obtain ⟨-, htail, hbefore⟩ :=
    deleteElement_undoes_insert (x := 5) (a := 3) (n := 3) hholds (by decide) rfl (by decide)
  exact ⟨htail, hbefore 7 ⟨(2, 7), by decide, rfl⟩⟩

end CcPof.LinkedList
