import CcPof.LinkedList.Frame
import Mathlib.Data.Fintype.Basic

/-!
# Many lists on one heap

The lists of a program share the heap, and each has its head in a variable of its own. Whatever is
called on them in turn, each list is the sequence that its own calls make of it, and the heap holds
the elements of these sequences and no other. Behind a `delete_list` the variable dangles until the
program stores NULL in it.
-/

namespace CcPof.LinkedList

variable {ι D U : Type}

/-! ## 1. Calls on one list -/

inductive Op (D U : Type)
  | call (c : Call D)
  | iterateList (function : Option (D → U → U)) (userData : U)
  | findListCustom (function : Option (D → U → Bool × U)) (userData : U)
  | deleteList
  /-- `list = NULL`, by the caller -/
  | setNull

inductive Answer (D U : Type)
  | void
  | ret (ret : Int)
  | userData (userData : U)
  | found (data : D) (userData : U)
  deriving DecidableEq

variable [DecidableEq D]

def op (null : D) (n : Nat) (s : Heap D) : Op D U → Option (Heap D × Answer D U)
  | .call c => (call n s c).map fun r => (r.1, .ret r.2)
  | .iterateList function userData =>
      (iterateList s function userData n).map fun userData => (s, .userData userData)
  | .findListCustom function userData =>
      (findListCustom s null function userData n).map fun r => (s, .found r.1 r.2)
  | .deleteList => (deleteList s n).map fun r => (r.1, .ret r.2)
  | .setNull => some ({ s with head := none }, .void)

def Op.malloc : Op D U → Option Addr
  | call c => c.malloc
  | _ => none

def iterated (function : Option (D → U → U)) (ds : List D) (userData : U) : U :=
  match function with
  | some function => ds.foldl (fun userData d => function d userData) userData
  | none => userData

/-- The first datum that the function accepts, asked from the front on. -/
def firstFound (null : D) (function : D → U → Bool × U) : List D → U → D × U
  | [], userData => (null, userData)
  | d :: ds, userData =>
      if (function d userData).1 then (d, (function d userData).2)
      else firstFound null function ds (function d userData).2

def found (null : D) (function : Option (D → U → Bool × U)) (ds : List D) (userData : U) : D × U :=
  match function with
  | some function => firstFound null function ds userData
  | none => (null, userData)

/-- What a call is for. `none` stands for a list that is deleted, with its variable. -/
def Op.apply (null : D) : Option (List (Item D)) → Op D U →
    Option (Option (List (Item D)) × Answer D U)
  | some q, call c => (c.apply q).map fun r => (some r.1, .ret r.2)
  | some q, iterateList function userData =>
      some (some q, .userData (iterated function (q.map Prod.snd) userData))
  | some q, findListCustom function userData =>
      let r := LinkedList.found null function (q.map Prod.snd) userData
      some (some q, .found r.1 r.2)
  | some _, deleteList => some (none, .ret CC_NO_ERROR)
  | some [], setNull | none, setNull => some (some [], .void)
  | _, _ => none

/-- The call does not meet a case that the code leaves out, and no list is lost. -/
def OpOk : Option (List (Item D)) → Op D U → Prop
  | some q, .call c => CallOk q c
  | some _, .iterateList _ _ | some _, .findListCustom _ _ | some _, .deleteList => True
  | some [], .setNull | none, .setNull => True
  | _, _ => False

instance : ∀ (q : Option (List (Item D))) (o : Op D U), Decidable (OpOk q o)
  | some q, .call c => inferInstanceAs (Decidable (CallOk q c))
  | some _, .iterateList _ _ | some _, .findListCustom _ _ | some _, .deleteList => isTrue trivial
  | some [], .setNull | none, .setNull => isTrue trivial
  | some (_ :: _), .setNull | none, .call _ | none, .iterateList _ _ => isFalse id
  | none, .findListCustom _ _ | none, .deleteList => isFalse id

def addrs (q : Option (List (Item D))) : List Addr := (q.getD []).map Prod.fst

/-- The heap holds the list and nothing else; of a deleted one, nothing. -/
def Owns (s : Heap D) : Option (List (Item D)) → Prop
  | some q => Refines s q
  | none => ∀ a, s.nodes a = none

section

variable {s s' : Heap D} {q : Option (List (Item D))} {l r : List (Item D)} {n : Nat} {null : D}
  {o : Op D U}

omit [DecidableEq D] in
theorem iterateListLoop_eq {function : D → U → U} (h : Refines s (l ++ r)) (hn : r.length < n)
    (userData : U) : iterateListLoop s function n (r.map Prod.fst).head? userData =
      some (iterated (some function) (r.map Prod.snd) userData) := by
  induction r generalizing l n userData with
  | nil =>
    obtain ⟨n, rfl⟩ := Nat.exists_eq_succ_of_ne_zero (Nat.ne_zero_of_lt hn)
    rfl
  | cons x r ih =>
    obtain ⟨n, rfl⟩ := Nat.exists_eq_succ_of_ne_zero (Nat.ne_zero_of_lt hn)
    show iterateListLoop s function (n + 1) (some x.1) userData = _
    rw [iterateListLoop, h.node]
    exact ih h.shift (Nat.lt_of_succ_lt_succ hn) (function x.2 userData)

omit [DecidableEq D] in
theorem iterateList_eq (function : Option (D → U → U)) (h : Refines s l) (hn : l.length < n)
    (userData : U) : iterateList s function userData n =
      some (iterated function (l.map Prod.snd) userData) := by
  unfold iterateList
  rw [h.head]
  cases function with
  | none => cases l <;> rfl
  | some function =>
    cases l with
    | nil => rfl
    | cons x r => exact iterateListLoop_eq (l := []) h hn userData

omit [DecidableEq D] in
theorem findListLoop_eq {function : D → U → Bool × U} (h : Refines s (l ++ r)) (hn : r.length < n)
    (userData : U) : findListLoop s null function n (r.map Prod.fst).head? userData =
      some (firstFound null function (r.map Prod.snd) userData) := by
  induction r generalizing l n userData with
  | nil =>
    obtain ⟨n, rfl⟩ := Nat.exists_eq_succ_of_ne_zero (Nat.ne_zero_of_lt hn)
    rfl
  | cons x r ih =>
    obtain ⟨n, rfl⟩ := Nat.exists_eq_succ_of_ne_zero (Nat.ne_zero_of_lt hn)
    show findListLoop s null function (n + 1) (some x.1) userData = _
    rw [findListLoop, h.node, List.map_cons, firstFound]
    show (if (function x.2 userData).1 = true then _ else _) = _
    split
    · rfl
    · exact ih h.shift (Nat.lt_of_succ_lt_succ hn) (function x.2 userData).2

omit [DecidableEq D] in
theorem findListCustom_eq (function : Option (D → U → Bool × U)) (h : Refines s l)
    (hn : l.length < n) (userData : U) : findListCustom s null function userData n =
      some (found null function (l.map Prod.snd) userData) := by
  unfold findListCustom
  rw [h.head]
  cases function with
  | none => cases l <;> rfl
  | some function =>
    cases l with
    | nil => rfl
    | cons x r => exact findListLoop_eq (l := []) h hn userData

omit [DecidableEq D] in
/-- The head of the list that is left is the pointer of the loop; the caller's stays. -/
theorem deleteListLoop_eq {p : Option Addr} (h : Refines { s with head := p } r)
    (hn : r.length < n) :
    ∃ s', deleteListLoop n s p = some s' ∧ s'.head = s.head ∧ ∀ a, s'.nodes a = none := by
  induction r generalizing s p n with
  | nil =>
    obtain ⟨n, rfl⟩ := Nat.exists_eq_succ_of_ne_zero (Nat.ne_zero_of_lt hn)
    obtain rfl : p = none := h.head
    exact ⟨s, rfl, rfl, fun a => h.only a List.not_mem_nil⟩
  | cons x r ih =>
    obtain ⟨n, rfl⟩ := Nat.exists_eq_succ_of_ne_zero (Nat.ne_zero_of_lt hn)
    obtain rfl : p = some x.1 := h.head
    have hnode : s.nodes x.1 = some ⟨(r.map Prod.fst).head?, x.2⟩ :=
      Refines.node (s := { s with head := some x.1 }) (l := []) h
    -- The rest of the list is the list that the loop goes on with.
    have htail : Refines { s.free x.1 with head := (r.map Prod.fst).head? } r :=
      h.tail rfl Heap.nodes_free_self fun _ => Heap.nodes_free_of_ne
    rw [deleteListLoop, hnode]
    exact ih htail (Nat.lt_of_succ_lt_succ hn)

omit [DecidableEq D] in
theorem refines_setNull (h : ∀ a, s.nodes a = none) : Refines { s with head := none } [] :=
  ⟨rfl, nofun, fun a _ => h a⟩

theorem op_call (c : Call D) (h : Refines s l) (hok : CallOk l c) (hn : l.length < n)
    (hfresh : Fresh l c) : ∃ s' r, op null n s (.call c : Op D U) = some (s', r.2) ∧
      Op.apply null (some l) (.call c : Op D U) = some r ∧ Owns s' r.1 := by
  obtain ⟨s', l', ret, hs', hl', h'⟩ := (callMeets_iff_callOk h hn hfresh).mpr hok
  refine ⟨s', (some l', .ret ret), ?_, ?_, h'⟩
  · rw [op, hs']
    rfl
  · rw [Op.apply, hl']
    rfl

/-- A call on a heap that holds its list only does what it is for. -/
theorem op_owns (null : D) (h : Owns s q) (hok : OpOk q o) (hn : (addrs q).length < n)
    (hfresh : ∀ a ∈ o.malloc, a ∉ addrs q) :
    ∃ s' r, op null n s o = some (s', r.2) ∧ o.apply null q = some r ∧ Owns s' r.1 := by
  cases q with
  | none =>
    cases o with
    | setNull => exact ⟨_, (some [], .void), rfl, rfl, refines_setNull h⟩
    | _ => cases hok
  | some l =>
    have hlt : l.length < n := by
      rwa [addrs, List.length_map] at hn
    cases o with
    | call c => exact op_call c h hok hlt hfresh
    | iterateList function userData =>
      refine ⟨s, _, ?_, rfl, h⟩
      rw [op, iterateList_eq function h hlt]
      rfl
    | findListCustom function userData =>
      refine ⟨s, _, ?_, rfl, h⟩
      rw [op, findListCustom_eq function h hlt]
      rfl
    | deleteList =>
      -- The variable still has the head, but no element is left.
      obtain ⟨s', hs', -, hnone⟩ := deleteListLoop_eq (p := s.head) h hlt
      refine ⟨s', _, ?_, rfl, hnone⟩
      rw [op, deleteList, hs']
      rfl
    | setNull =>
      cases l with
      | nil => exact ⟨_, (some [], .void), rfl, rfl, refines_setNull fun a => h.only a List.not_mem_nil⟩
      | cons x l => cases hok

theorem op_frame {f : Addr → Option (ListElement D)} (hapart : Apart s.nodes f)
    (hfresh : ∀ a ∈ o.malloc, f a = none) : Framed f (op null n s o) (op null n (s.frame f) o) := by
  cases o with
  | call c => exact (call_frame hapart hfresh).map _
  | iterateList function userData =>
    intro r hr
    rw [op, Option.map_eq_some_iff] at hr
    obtain ⟨userData', h, rfl⟩ := hr
    refine ⟨?_, hapart⟩
    rw [op, iterateList_frame h]
    rfl
  | findListCustom function userData =>
    intro r hr
    rw [op, Option.map_eq_some_iff] at hr
    obtain ⟨found, h, rfl⟩ := hr
    refine ⟨?_, hapart⟩
    rw [op, findListCustom_frame h]
    rfl
  | deleteList => exact (deleteList_frame hapart).map _
  | setNull => exact .of_some rfl hapart

end

/-! ## 2. Lists on a heap -/

/-- The elements that are allocated, and the variables of the lists. -/
structure Lists (ι D : Type) where
  nodes : Addr → Option (ListElement D)
  heads : ι → Option Addr

def emptyLists : Lists ι D where
  nodes := fun _ => none
  heads := fun _ => none

def Lists.heap (s : Lists ι D) (i : ι) : Heap D := ⟨s.nodes, s.heads i⟩

/-- The heap holds the lists, which have no element in common, and no other element. -/
structure Represents (s : Lists ι D) (Q : ι → Option (List (Item D))) : Prop where
  holds : ∀ {i l}, Q i = some l → Holds (s.heap i) l
  apart : ∀ {i j}, i ≠ j → ∀ a ∈ addrs (Q i), a ∉ addrs (Q j)
  only : ∀ {a}, s.nodes a ≠ none → ∃ i, a ∈ addrs (Q i)

section

variable {s s' : Lists ι D} {h h' : Heap D} {Q : ι → Option (List (Item D))} {i : ι}
  {l : List (Item D)} {null : D} {n : Nat} {o : Op D U}

omit [DecidableEq D]

theorem Holds.isSome (hl : Holds h l) {a : Addr} (ha : a ∈ l.map Prod.fst) :
    ∃ element, h.nodes a = some element := by
  obtain ⟨x, hx, rfl⟩ := List.mem_map.mp ha
  obtain ⟨element, hnode, -⟩ := Option.map_eq_some_iff.mp (hl.data x hx)
  exact ⟨element, hnode⟩

/-- A list is where its elements are. -/
theorem Holds.congr (hl : Holds h l) (hhead : h'.head = h.head)
    (hnodes : ∀ a ∈ l.map Prod.fst, h'.nodes a = h.nodes a) : Holds h' l := by
  have hold : ∀ x ∈ l, h'.nodes x.1 = h.nodes x.1 := fun x hx => hnodes _ (List.mem_map_of_mem hx)
  constructor
  · rw [hhead]
    exact hl.chain.congr (Heap.next_congr hold)
  · intro x hx
    rw [hold x hx]
    exact hl.data x hx

theorem Represents.isSome (h : Represents s Q) {a : Addr} (ha : a ∈ addrs (Q i)) :
    ∃ element, s.nodes a = some element := by
  cases hQ : Q i with
  | none =>
    rw [hQ] at ha
    cases ha
  | some l =>
    rw [hQ] at ha
    exact (h.holds hQ).isSome ha

theorem Owns.isSome {q : Option (List (Item D))} (hown : Owns h q) {a : Addr} (ha : a ∈ addrs q) :
    ∃ element, h.nodes a = some element := by
  cases q with
  | none => cases ha
  | some l => exact Holds.isSome (Refines.holds hown) ha

theorem Owns.mem {q : Option (List (Item D))} (hown : Owns h q) {a : Addr} (ha : h.nodes a ≠ none) :
    a ∈ addrs q := by
  cases q with
  | none => exact absurd (hown a) ha
  | some l =>
    by_contra hmem
    exact ha (hown.only a hmem)

/-- The part of the heap that belongs to one list -/
theorem Represents.owns (h : Represents s Q) :
    Owns (⟨within (· ∈ addrs (Q i)) s.nodes, s.heads i⟩ : Heap D) (Q i) := by
  cases hQ : Q i with
  | none =>
    intro a
    exact within_of_neg (a := a) (p := (· ∈ addrs (none : Option (List (Item D))))) s.nodes
      List.not_mem_nil
  | some l =>
    have hl : Holds (⟨within (· ∈ addrs (some l)) s.nodes, s.heads i⟩ : Heap D) l :=
      (h.holds hQ).congr rfl fun a ha => within_of_pos _ ha
    exact ⟨hl.chain, hl.data, fun a ha => within_of_neg _ ha⟩

end

/-! ## 3. Calls on many lists -/

variable [DecidableEq ι]

def listOp (null : D) (n : Nat) (s : Lists ι D) (i : ι) (o : Op D U) :
    Option (Lists ι D × Answer D U) :=
  (op null n (s.heap i) o).map fun r => (⟨r.1.nodes, Function.update s.heads i r.1.head⟩, r.2)

/-- Calls on lists, with their answers -/
def listOps (null : D) (n : Nat) (s : Lists ι D) :
    List (ι × Op D U) → Option (Lists ι D × List (ι × Answer D U))
  | [] => some (s, [])
  | p :: ps => do
    let r ← listOp null n s p.1 p.2
    let r' ← listOps null n r.1 ps
    some (r'.1, (p.1, r.2) :: r'.2)

/-- What of a list of calls or answers is about the list `i`. -/
def own {α : Type} (i : ι) (l : List (ι × α)) : List α := (l.filter (·.1 = i)).map Prod.snd

omit [DecidableEq ι] in
/-- The calls on one list, on its sequence alone -/
def applyOps (null : D) (q : Option (List (Item D))) :
    List (Op D U) → Option (Option (List (Item D)) × List (Answer D U))
  | [] => some (q, [])
  | o :: os => do
    let r ← o.apply null q
    let r' ← applyOps null r.1 os
    some (r'.1, r.2 :: r'.2)

/-- Every call is all right on what the calls before it have left of its list, and `malloc` returns no
element of any list. -/
def OpsOk (null : D) (Q : ι → Option (List (Item D))) : List (ι × Op D U) → Prop
  | [] => True
  | p :: ps => (∀ a ∈ p.2.malloc, ∀ i, a ∉ addrs (Q i)) ∧ OpOk (Q p.1) p.2 ∧
      ∀ r ∈ p.2.apply null (Q p.1), OpsOk null (Function.update Q p.1 r.1) ps

section

variable {s : Lists ι D} {h : Heap D} {Q : ι → Option (List (Item D))} {i : ι} {null : D}
  {n : Nat} {o : Op D U}

omit [DecidableEq D] in
/-- The list `i` is replaced, and the frame is kept. -/
theorem Represents.replace (hs : Represents s Q) {q : Option (List (Item D))} (hown : Owns h q)
    (hapart : Apart h.nodes (within (· ∉ addrs (Q i)) s.nodes)) :
    Represents ⟨framed h.nodes (within (· ∉ addrs (Q i)) s.nodes),
      Function.update s.heads i h.head⟩ (Function.update Q i q) := by
  -- The elements of the other lists are in the frame and not in the new part.
  have hother : ∀ {j}, j ≠ i → ∀ a ∈ addrs (Q j),
      within (· ∉ addrs (Q i)) s.nodes a = s.nodes a ∧ h.nodes a = none := by
    intro j hj a ha
    have hframe : within (· ∉ addrs (Q i)) s.nodes a = s.nodes a := within_of_pos _ (hs.apart hj a ha)
    obtain ⟨element, hnode⟩ := hs.isSome ha
    rw [hframe]
    exact ⟨rfl, hapart.none_of_frame (hframe.trans hnode)⟩
  have hself : ∀ {j}, j ≠ i → ∀ a ∈ addrs q, a ∉ addrs (Q j) := by
    intro j hj a ha hj'
    obtain ⟨element, hnode⟩ := hown.isSome ha
    rw [(hother hj a hj').2] at hnode
    cases hnode
  constructor
  · -- Every list is where its elements are.
    intro j l hl
    by_cases hj : j = i
    · subst hj
      rw [Function.update_self] at hl
      subst hl
      apply Holds.congr (Refines.holds hown)
      · exact Function.update_self ..
      · intro a ha
        obtain ⟨element, hnode⟩ := hown.isSome ha
        exact (framed_of_some hnode).trans hnode.symm
    · rw [Function.update_of_ne hj] at hl
      apply (hs.holds hl).congr
      · exact Function.update_of_ne hj ..
      · intro a ha
        have hframe := hother hj a (by rw [hl]; exact ha)
        exact (framed_of_none hframe.2).trans hframe.1
  · -- No two lists have an element in common.
    intro j k hjk a ha
    by_cases hj : j = i
    · subst hj
      rw [Function.update_self] at ha
      rw [Function.update_of_ne (Ne.symm hjk)]
      exact hself (Ne.symm hjk) a ha
    · rw [Function.update_of_ne hj] at ha
      by_cases hk : k = i
      · subst hk
        rw [Function.update_self]
        exact fun ha' => hself hj a ha' ha
      · rw [Function.update_of_ne hk]
        exact hs.apart hjk a ha
  · -- Each element belongs to a list: to `i`, or to the one that had it before.
    intro a ha
    cases hnode : h.nodes a with
    | some element =>
      refine ⟨i, ?_⟩
      rw [Function.update_self]
      exact hown.mem (by rw [hnode]; exact Option.some_ne_none element)
    | none =>
      change framed h.nodes (within (· ∉ addrs (Q i)) s.nodes) a ≠ none at ha
      rw [framed_of_none hnode] at ha
      by_cases hi : a ∈ addrs (Q i)
      · exact absurd (within_of_neg (p := (· ∉ addrs (Q i))) _ (not_not_intro hi)) ha
      · rw [within_of_pos (p := (· ∉ addrs (Q i))) _ hi] at ha
        obtain ⟨j, hj⟩ := hs.only ha
        refine ⟨j, ?_⟩
        rw [Function.update_of_ne]
        · exact hj
        · rintro rfl
          exact hi hj

/-- A call on one of the lists -/
theorem Represents.op (null : D) (h : Represents s Q) (hok : OpOk (Q i) o) (hn : (addrs (Q i)).length < n)
    (hfresh : ∀ a ∈ o.malloc, ∀ j, a ∉ addrs (Q j)) :
    ∃ s' r, listOp null n s i o = some (s', r.2) ∧ o.apply null (Q i) = some r ∧
      Represents s' (Function.update Q i r.1) := by
  -- The heap without the elements of the list is the frame.
  let mine : Heap D := ⟨within (· ∈ addrs (Q i)) s.nodes, s.heads i⟩
  let others : Addr → Option (ListElement D) := within (· ∉ addrs (Q i)) s.nodes
  have hwhole : mine.frame others = s.heap i :=
    congrArg (Heap.mk · (s.heads i)) (framed_within (· ∈ addrs (Q i)) s.nodes)
  have hnew : ∀ a ∈ o.malloc, others a = none := by
    intro a ha
    -- What `malloc` returns is in no list, so it is not allocated.
    have hnone : s.nodes a = none := by
      by_contra hsome
      obtain ⟨j, hj⟩ := h.only hsome
      exact hfresh a ha j hj
    exact (within_of_pos (p := (· ∉ addrs (Q i))) _ (hfresh a ha i)).trans hnone
  obtain ⟨h', r, hop, happly, hown⟩ := op_owns null (h.owns (i := i)) hok hn
    fun a ha => hfresh a ha i
  obtain ⟨hframe, hapart⟩ := op_frame (apart_within (· ∈ addrs (Q i)) s.nodes) hnew _ hop
  refine ⟨_, r, ?_, happly, h.replace hown hapart⟩
  rw [listOp, ← hwhole, hframe]
  rfl

/-! ## 4. Runs -/

omit [DecidableEq ι] in
theorem length_addrs_apply {q : Option (List (Item D))} {r : Option (List (Item D)) × Answer D U}
    (h : o.apply null q = some r) : (addrs r.1).length ≤ (addrs q).length + 1 := by
  unfold Op.apply at h
  split at h
  case h_1 l c =>
    rw [Option.map_eq_some_iff] at h
    obtain ⟨⟨l', ret⟩, happly, rfl⟩ := h
    have hle := length_apply happly
    unfold addrs
    rw [List.length_map, List.length_map]
    exact hle
  case h_7 => cases h
  all_goals
    cases h
    first | exact Nat.le_succ _ | exact Nat.zero_le _

theorem own_cons {α : Type} (j : ι) (x : α) (l : List (ι × α)) :
    own i ((j, x) :: l) = if j = i then x :: own i l else own i l := by
  unfold own
  rw [List.filter_cons]
  by_cases hj : j = i
  · rw [if_pos (decide_eq_true hj), if_pos hj]
    rfl
  · rw [if_neg (by rw [decide_eq_false hj]; exact Bool.false_ne_true), if_neg hj]

theorem listOps_represents {ops : List (ι × Op D U)} (h : Represents s Q) (hok : OpsOk null Q ops)
    (hn : ∀ i, (addrs (Q i)).length + ops.length < n) :
    ∃ s' answers Q', listOps null n s ops = some (s', answers) ∧
      (∀ i, applyOps null (Q i) (own i ops) = some (Q' i, own i answers)) ∧ Represents s' Q' := by
  induction ops generalizing s Q with
  | nil => exact ⟨s, [], Q, rfl, fun _ => rfl, h⟩
  | cons p ops ih =>
    obtain ⟨j, o⟩ := p
    obtain ⟨hfresh, hokop, hrest⟩ := hok
    obtain ⟨s₁, r, hop, happly, h₁⟩ := h.op null hokop
      (Nat.lt_of_le_of_lt (Nat.le_add_right _ _) (hn j)) hfresh
    -- A call adds one element at most.
    have hn₁ : ∀ i, (addrs (Function.update Q j r.1 i)).length + ops.length < n := by
      intro i
      have hlt := hn i
      rw [List.length_cons] at hlt
      by_cases hi : i = j
      · subst hi
        have hle : (addrs r.1).length ≤ (addrs (Q i)).length + 1 := length_addrs_apply happly
        rw [Function.update_self]
        omega
      · rw [Function.update_of_ne hi]
        omega
    obtain ⟨s', answers, Q', hops, hQ', h'⟩ := ih h₁ (hrest r happly) hn₁
    refine ⟨s', (j, r.2) :: answers, Q', ?_, ?_, h'⟩
    · show (listOp null n s j o).bind _ = _
      rw [hop]
      show (listOps null n s₁ ops).bind _ = _
      rw [hops]
      rfl
    · -- The call is one of the list `j` only.
      intro i
      have hi := hQ' i
      rw [own_cons, own_cons]
      by_cases hj : j = i
      · subst hj
        rw [Function.update_self] at hi
        rw [if_pos rfl, if_pos rfl]
        show (o.apply null (Q j)).bind _ = _
        rw [happly]
        show (applyOps null r.1 (own j ops)).bind _ = _
        rw [hi]
        rfl
      · rw [Function.update_of_ne (Ne.symm hj)] at hi
        rw [if_neg hj, if_neg hj]
        exact hi

end

omit [DecidableEq D] [DecidableEq ι] in
theorem represents_emptyLists : Represents (emptyLists : Lists ι D) fun _ => some [] where
  holds hl := by
    cases hl
    exact ⟨rfl, nofun⟩
  apart _ := nofun
  only h := absurd rfl h

/-- **Lists do not interfere.** In a run of calls on any number of lists each one answers as its own
calls make it answer alone, and the heap ends up with the elements of the lists, each in one of them,
and no other element. -/
theorem lists_do_not_interfere (null : D) (n : Nat) (ops : List (ι × Op D U))
    (hok : OpsOk null (fun _ => some []) ops) (hn : ops.length < n) :
    ∃ s' answers Q, listOps null n emptyLists ops = some (s', answers) ∧
      (∀ i, applyOps null (some []) (own i ops) = some (Q i, own i answers)) ∧ Represents s' Q := by
  apply listOps_represents represents_emptyLists hok
  intro i
  rw [addrs, Option.getD_some, List.map_nil, List.length_nil, Nat.zero_add]
  exact hn

instance decidableOpsOk [Fintype ι] (null : D) (Q : ι → Option (List (Item D))) :
    ∀ ps : List (ι × Op D U), Decidable (OpsOk null Q ps)
  | [] => isTrue trivial
  | p :: ps =>
    have := fun r : Option (List (Item D)) × Answer D U =>
      decidableOpsOk null (Function.update Q p.1 r.1) ps
    inferInstanceAs (Decidable (_ ∧ _ ∧ ∀ r ∈ p.2.apply null (Q p.1), OpsOk null _ ps))

/-- Two lists in turn: one is searched and deleted, the other one added up. -/
def twoLists : List (Bool × Op Nat Nat) :=
  [(true, .call (.insertTail 70 (some 1))), (false, .call (.insertInFront 80 (some 2))),
    (true, .call (.insertInFront 90 (some 3))), (false, .call (.insertTail 60 (some 4))),
    (true, .findListCustom (some fun d asked => (d = 70, asked + 1)) 0), (true, .deleteList),
    (false, .iterateList (some (· + ·)) 0), (true, .setNull), (false, .call (.deleteElement 80))]

theorem lists_do_not_interfere_twoLists :
    (listOps 0 10 emptyLists twoLists).map (·.2.map (·.2)) =
        some [.ret 0, .ret 0, .ret 0, .ret 0, .found 70 2, .ret 0, .userData 140, .void, .ret 0] ∧
      ∃ s' answers Q, listOps 0 10 emptyLists twoLists = some (s', answers) ∧
        (∀ i, applyOps 0 (some []) (own i twoLists) = some (Q i, own i answers)) ∧
        Represents s' Q :=
  ⟨by decide +kernel, lists_do_not_interfere 0 10 twoLists (by decide +kernel) (by decide)⟩

end CcPof.LinkedList
