import CcPof.LinkedList.Refinement

/-!
# What the calls do to the sequence

`insert_before` looks at the elements behind the first one only, and like `delete_element` it reads
the first element without a test for the empty list; `list_length_of` returns `CC_ERROR` for it.
-/

namespace CcPof.LinkedList

variable {D : Type} {s s' : Heap D} {q l r : List (Item D)} {x : Item D} {n : Nat}

/-! ## The loops

Each loop makes one round for each element, from `x` on. -/

/-- The new tail is allocated when the loop looks for the last element, but not linked. -/
theorem lastElement_eq (h : Holds s (l ++ x :: r))
    (hsame : ∀ z ∈ x :: r, s'.nodes z.1 = s.nodes z.1) (hn : r.length < n) :
    ∃ m z, l ++ x :: r = m ++ [z] ∧ lastElement s' n x.1 = some z.1 := by
  induction r generalizing l x n with
  | nil =>
    obtain ⟨n, rfl⟩ := Nat.exists_eq_succ_of_ne_zero (Nat.ne_zero_of_lt hn)
    refine ⟨l, x, rfl, ?_⟩
    rw [lastElement, hsame x List.mem_cons_self, h.node]
    rfl
  | cons y r ih =>
    obtain ⟨n, rfl⟩ := Nat.exists_eq_succ_of_ne_zero (Nat.ne_zero_of_lt hn)
    rcases ih h.shift (fun z hz => hsame z (List.mem_cons_of_mem x hz)) (Nat.lt_of_succ_lt_succ hn)
      with ⟨m, z, hm, hlast⟩
    refine ⟨m, z, ?_, ?_⟩
    · rw [← hm, List.append_assoc, List.singleton_append]
    · rw [lastElement, hsame x List.mem_cons_self, h.node]
      exact hlast

theorem listLengthLoop_eq (h : Refines s (l ++ r)) (hn : r.length < n) (length : BitVec 32) :
    listLengthLoop s n (r.map Prod.fst).head? length =
      some (length + BitVec.ofNat 32 r.length) := by
  induction r generalizing l n length with
  | nil =>
    obtain ⟨n, rfl⟩ := Nat.exists_eq_succ_of_ne_zero (Nat.ne_zero_of_lt hn)
    exact congrArg some (BitVec.add_zero length).symm
  | cons x r ih =>
    obtain ⟨n, rfl⟩ := Nat.exists_eq_succ_of_ne_zero (Nat.ne_zero_of_lt hn)
    show listLengthLoop s (n + 1) (some x.1) length = _
    rw [listLengthLoop, h.node]
    refine Eq.trans (ih h.shift (Nat.lt_of_succ_lt_succ hn) (length + 1)) (congrArg some ?_)
    rw [List.length_cons, BitVec.ofNat_add, BitVec.add_assoc, BitVec.add_comm 1]
    rfl

/-! ## The calls, where they work -/

section Insert

variable {data : D} {a : Addr}

theorem insertInFront_refines (h : Refines s q) (ha : s.nodes a = none) :
    ∃ s', insertInFront s data (some a) = some (s', CC_NO_ERROR) ∧ Refines s' ((a, data) :: q) :=
  ⟨_, rfl, h.cons ha rfl Heap.nodes_write_self fun _ => Heap.nodes_write_of_ne⟩

theorem insertTail_nil (hhead : s.head = none) :
    insertTail s data (some a) n =
      some ({ s.write a ⟨none, data⟩ with head := some a }, CC_NO_ERROR) := by
  have hwrite : (s.write a ⟨none, data⟩).head = none := hhead
  simp only [insertTail, Option.bind_eq_bind, Option.bind_some, hwrite]

/-- The new element is linked behind the last one. -/
theorem insertTail_eq (data : D) (h : Holds s (x :: r)) (hn : r.length < n)
    (ha : s.nodes a = none) :
    ∃ m z, x :: r = m ++ [z] ∧ insertTail s data (some a) n =
      some ((s.write a ⟨none, data⟩).write z.1 ⟨some a, z.2⟩, CC_NO_ERROR) := by
  have hhead : (s.write a ⟨none, data⟩).head = some x.1 := h.head
  have hne := h.ne_of_none ha
  have hsame : ∀ z ∈ x :: r, (s.write a ⟨none, data⟩).nodes z.1 = s.nodes z.1 :=
    fun z hz => Heap.nodes_write_of_ne (hne z hz)
  -- `new_tail` is allocated by now, but no item of the list.
  rcases lastElement_eq (l := []) h hsame hn with ⟨m, z, hm, hlast⟩
  rw [List.nil_append] at hm
  have hza := hne z (by rw [hm]; exact List.mem_append_right m List.mem_cons_self)
  rw [hm] at h
  have hnode : (s.write a ⟨none, data⟩).nodes z.1 = some ⟨none, z.2⟩ := by
    rw [Heap.nodes_write_of_ne hza, h.node]
    rfl
  refine ⟨m, z, hm, ?_⟩
  simp only [insertTail, Option.bind_eq_bind, Option.bind_some, hhead, hlast, hnode]

theorem insertTail_refines (h : Refines s q) (hn : q.length < n) (ha : s.nodes a = none) :
    ∃ s', insertTail s data (some a) n = some (s', CC_NO_ERROR) ∧
      Refines s' (q ++ [(a, data)]) := by
  cases q with
  | nil =>
    have hhead : s.head = none := h.head
    refine ⟨_, insertTail_nil hhead, h.cons ha rfl ?_ fun _ => Heap.nodes_write_of_ne⟩
    rw [hhead]
    exact Heap.nodes_write_self
  | cons x r =>
    rcases insertTail_eq data h.holds (Nat.lt_of_succ_lt hn) ha with ⟨m, z, hm, heq⟩
    have hza := h.ne_of_none ha z (by rw [hm]; exact List.mem_append_right m List.mem_cons_self)
    rw [hm] at h ⊢
    refine ⟨_, heq, ?_⟩
    rw [List.append_assoc, List.singleton_append]
    refine h.insert_after ha rfl Heap.nodes_write_self ?_ ?_
    · rw [Heap.nodes_write_of_ne hza.symm]
      exact Heap.nodes_write_self
    · intro b hba hbz
      rw [Heap.nodes_write_of_ne hbz, Heap.nodes_write_of_ne hba]

end Insert

theorem listLengthOf_eq (h : Refines s q) (hn : q.length < n) :
    listLengthOf s n = some (if q = [] then BitVec.ofInt 32 CC_ERROR
      else BitVec.ofNat 32 q.length) := by
  rw [listLengthOf, h.head]
  cases q with
  | nil => rfl
  | cons x r =>
    have hx : s.nodes x.1 = _ := Refines.node (l := []) h
    have hloop := listLengthLoop_eq (Refines.shift (l := []) h) (Nat.lt_of_succ_lt hn) 1
    show (s.nodes x.1).bind _ = _
    rw [hx]
    refine Eq.trans hloop (congrArg some ?_)
    rw [if_neg (List.cons_ne_nil x r), List.length_cons, BitVec.ofNat_add, BitVec.add_comm]
    rfl

variable [DecidableEq D]

theorem insertBeforeLoop_last (sibling data : D) (malloc : Option Addr) (n : Nat) {d : D} {e : Addr}
    (he : s.nodes e = some ⟨none, d⟩) :
    insertBeforeLoop s sibling data malloc (n + 1) e = some (s, CC_ERROR) := by
  rw [insertBeforeLoop, he]
  rfl

theorem insertBeforeLoop_next (sibling data : D) (malloc : Option Addr) (n : Nat) {d d' : D}
    {e next : Addr} {link : Option Addr} (he : s.nodes e = some ⟨some next, d⟩)
    (hnext : s.nodes next = some ⟨link, d'⟩) :
    insertBeforeLoop s sibling data malloc (n + 1) e =
      if d' = sibling then
        malloc.map fun a => ((s.write a ⟨some next, data⟩).write e ⟨some a, d⟩, CC_NO_ERROR)
      else insertBeforeLoop s sibling data malloc n next := by
  rw [insertBeforeLoop, he]
  simp only [Option.bind_eq_bind, Option.bind_some, hnext]
  split
  · cases malloc <;> rfl
  · rfl

section InsertBefore

variable {sibling data : D} {malloc : Option Addr} {a : Addr}

theorem insertBeforeLoop_absent (h : Refines s (l ++ x :: r)) (hn : r.length < n)
    (hr : r.any (·.2 = sibling) = false) :
    insertBeforeLoop s sibling data malloc n x.1 = some (s, CC_ERROR) := by
  induction r generalizing l x n with
  | nil =>
    obtain ⟨n, rfl⟩ := Nat.exists_eq_succ_of_ne_zero (Nat.ne_zero_of_lt hn)
    exact insertBeforeLoop_last sibling data malloc n h.node
  | cons y r ih =>
    obtain ⟨n, rfl⟩ := Nat.exists_eq_succ_of_ne_zero (Nat.ne_zero_of_lt hn)
    rw [List.any_cons, Bool.or_eq_false_iff] at hr
    rw [insertBeforeLoop_next sibling data malloc n h.node h.shift.node,
      if_neg (of_decide_eq_false hr.1)]
    exact ih h.shift (Nat.lt_of_succ_lt_succ hn) hr.2

/-- The loop stops at `y`, in front of the first element behind `x` that holds the sibling. -/
theorem insertBeforeLoop_eq (data : D) (h : Holds s (l ++ x :: r)) (hn : r.length < n)
    (hr : r.any (·.2 = sibling) = true) :
    ∃ m y z r', l ++ x :: r = m ++ y :: z :: r' ∧
      l ++ x :: r.insertIdx (r.findIdx (·.2 = sibling)) (a, data) =
        m ++ y :: (a, data) :: z :: r' ∧
      insertBeforeLoop s sibling data (some a) n x.1 =
        some ((s.write a ⟨some z.1, data⟩).write y.1 ⟨some a, y.2⟩, CC_NO_ERROR) := by
  induction r generalizing l x n with
  | nil => cases hr
  | cons y r ih =>
    obtain ⟨n, rfl⟩ := Nat.exists_eq_succ_of_ne_zero (Nat.ne_zero_of_lt hn)
    have hloop := insertBeforeLoop_next sibling data (some a) n h.node h.shift.node
    rw [List.any_cons, Bool.or_eq_true] at hr
    rw [List.findIdx_cons]
    by_cases hy : y.2 = sibling
    · rw [if_pos hy] at hloop
      rw [decide_eq_true hy]
      exact ⟨l, x, y, r, rfl, rfl, hloop⟩
    · have hrest := hr.resolve_left (by rw [decide_eq_false hy]; exact Bool.false_ne_true)
      rcases ih h.shift (Nat.lt_of_succ_lt_succ hn) hrest with ⟨m, v, z, r', hm, hinsert, heq⟩
      rw [if_neg hy, heq] at hloop
      rw [List.append_assoc, List.singleton_append] at hm hinsert
      rw [decide_eq_false hy]
      exact ⟨m, v, z, r', hm, hinsert, hloop⟩

/-- The element is put in front of the first one behind `x` that holds the sibling. -/
theorem insertBeforeLoop_present (data : D) (h : Refines s (l ++ x :: r)) (hn : r.length < n)
    (hr : r.any (·.2 = sibling) = true) (ha : s.nodes a = none) :
    ∃ s', insertBeforeLoop s sibling data (some a) n x.1 = some (s', CC_NO_ERROR) ∧
      Refines s' (l ++ x :: r.insertIdx (r.findIdx (·.2 = sibling)) (a, data)) := by
  rcases insertBeforeLoop_eq (a := a) data h.holds hn hr with ⟨m, y, z, r', hm, hinsert, heq⟩
  rw [hm] at h
  have hay := h.ne_of_none ha y (List.mem_append_right m List.mem_cons_self)
  refine ⟨_, heq, ?_⟩
  rw [hinsert]
  refine h.insert_after ha rfl Heap.nodes_write_self ?_ ?_
  · rw [Heap.nodes_write_of_ne hay.symm]
    exact Heap.nodes_write_self
  · intro b hba hby
    rw [Heap.nodes_write_of_ne hby, Heap.nodes_write_of_ne hba]

/-- Without memory the loop runs into the null pointer that `malloc` has returned. -/
theorem insertBeforeLoop_noMemory (h : Refines s (l ++ x :: r))
    (hr : r.any (·.2 = sibling) = true) :
    insertBeforeLoop s sibling data none n x.1 = none := by
  induction r generalizing l x n with
  | nil => cases hr
  | cons y r ih =>
    cases n with
    | zero => rfl
    | succ n =>
      rw [insertBeforeLoop_next sibling data none n h.node h.shift.node]
      split
      · rfl
      · rename_i hy
        rw [List.any_cons, decide_eq_false hy, Bool.false_or] at hr
        exact ih h.shift hr

end InsertBefore

theorem deleteElementLoop_last (data : D) (n : Nat) {d : D} {e : Addr}
    (he : s.nodes e = some ⟨none, d⟩) :
    deleteElementLoop s data (n + 1) e = some (s, CC_ERROR) := by
  rw [deleteElementLoop, he]
  rfl

theorem deleteElementLoop_next (data : D) (n : Nat) {d d' : D} {e next : Addr}
    {link : Option Addr} (he : s.nodes e = some ⟨some next, d⟩)
    (hnext : s.nodes next = some ⟨link, d'⟩) :
    deleteElementLoop s data (n + 1) e =
      if d' = data then some ((s.write e ⟨link, d⟩).free next, CC_NO_ERROR)
      else deleteElementLoop s data n next := by
  rw [deleteElementLoop, he]
  simp only [Option.bind_eq_bind, Option.bind_some, hnext]

section DeleteElement

variable {data : D}

theorem deleteElementLoop_absent (h : Refines s (l ++ x :: r)) (hn : r.length < n)
    (hr : r.any (·.2 = data) = false) :
    deleteElementLoop s data n x.1 = some (s, CC_ERROR) := by
  induction r generalizing l x n with
  | nil =>
    obtain ⟨n, rfl⟩ := Nat.exists_eq_succ_of_ne_zero (Nat.ne_zero_of_lt hn)
    exact deleteElementLoop_last data n h.node
  | cons y r ih =>
    obtain ⟨n, rfl⟩ := Nat.exists_eq_succ_of_ne_zero (Nat.ne_zero_of_lt hn)
    rw [List.any_cons, Bool.or_eq_false_iff] at hr
    rw [deleteElementLoop_next data n h.node h.shift.node, if_neg (of_decide_eq_false hr.1)]
    exact ih h.shift (Nat.lt_of_succ_lt_succ hn) hr.2

/-- The loop stops at `y`, in front of the first element behind `x` that holds the datum. -/
theorem deleteElementLoop_eq (h : Holds s (l ++ x :: r)) (hn : r.length < n)
    (hr : r.any (·.2 = data) = true) :
    ∃ m y z r', l ++ x :: r = m ++ y :: z :: r' ∧ z.2 = data ∧
      l ++ x :: r.eraseP (·.2 = data) = m ++ y :: r' ∧
      deleteElementLoop s data n x.1 =
        some ((s.write y.1 ⟨(r'.map Prod.fst).head?, y.2⟩).free z.1, CC_NO_ERROR) := by
  induction r generalizing l x n with
  | nil => cases hr
  | cons y r ih =>
    obtain ⟨n, rfl⟩ := Nat.exists_eq_succ_of_ne_zero (Nat.ne_zero_of_lt hn)
    have hloop := deleteElementLoop_next data n h.node h.shift.node
    rw [List.any_cons, Bool.or_eq_true] at hr
    by_cases hy : y.2 = data
    · rw [if_pos hy] at hloop
      rw [List.eraseP_cons, decide_eq_true hy]
      exact ⟨l, x, y, r, rfl, hy, rfl, hloop⟩
    · have hrest := hr.resolve_left (by rw [decide_eq_false hy]; exact Bool.false_ne_true)
      rcases ih h.shift (Nat.lt_of_succ_lt_succ hn) hrest with
        ⟨m, v, z, r', hm, hz, herase, heq⟩
      rw [if_neg hy, heq] at hloop
      rw [List.append_assoc, List.singleton_append] at hm herase
      rw [List.eraseP_cons, decide_eq_false hy]
      exact ⟨m, v, z, r', hm, hz, herase, hloop⟩

/-- The first element behind `x` that holds the datum is taken out. -/
theorem deleteElementLoop_present (h : Refines s (l ++ x :: r)) (hn : r.length < n)
    (hr : r.any (·.2 = data) = true) :
    ∃ s', deleteElementLoop s data n x.1 = some (s', CC_NO_ERROR) ∧
      Refines s' (l ++ x :: r.eraseP (·.2 = data)) := by
  rcases deleteElementLoop_eq h.holds hn hr with ⟨m, y, z, r', hm, -, herase, heq⟩
  rw [hm] at h
  have hzy : z.1 ≠ y.1 := h.ne z (List.mem_append_right m List.mem_cons_self)
  refine ⟨_, heq, ?_⟩
  rw [herase]
  refine h.remove_after rfl ?_ Heap.nodes_free_self ?_
  · rw [Heap.nodes_free_of_ne hzy.symm]
    exact Heap.nodes_write_self
  · intro b hbz hby
    rw [Heap.nodes_free_of_ne hbz, Heap.nodes_write_of_ne hby]

end DeleteElement

end CcPof.LinkedList
