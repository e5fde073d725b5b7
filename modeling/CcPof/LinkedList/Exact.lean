import CcPof.LinkedList.Calls
import Mathlib.Algebra.Group.Nat.Defs

/-!
# Where the calls are right

A call does to the sequence what it is for exactly when it does not meet one of the cases that its
code leaves out. A run of calls that meets none of them refines the run on the sequence.
-/

namespace CcPof.LinkedList

variable {D : Type} {s s' : Heap D} {q q' : List (Item D)} {c : Call D} {n : Nat}

def Call.malloc : Call D → Option Addr
  | insertInFront _ malloc | insertBefore _ _ malloc | insertTail _ malloc => malloc
  | listLengthOf | deleteElement _ => none

/-- `malloc` does not return an element of the list. -/
def Fresh (q : List (Item D)) (c : Call D) : Prop := ∀ a ∈ c.malloc, a ∉ q.map Prod.fst

theorem Fresh.nodes {a : Addr} (hfresh : Fresh q c) (h : Refines s q) (hc : c.malloc = some a) :
    s.nodes a = none := h.only a (hfresh a hc)

instance : Decidable (Fresh q c) := inferInstanceAs (Decidable (∀ _ ∈ _, _))

variable [DecidableEq D]

/-- The call does not meet a case that its code leaves out: no memory where it needs some, the empty
list, a sibling in the first element, a length that is no `unsigned int`. -/
def CallOk (q : List (Item D)) : Call D → Prop
  | .insertInFront _ malloc | .insertTail _ malloc => malloc ≠ none
  | .insertBefore sibling _ malloc =>
      q.head?.any (·.2 ≠ sibling) = true ∧ (q.any (·.2 = sibling) = true → malloc ≠ none)
  | .listLengthOf => 0 < q.length ∧ q.length < 2 ^ 32
  | .deleteElement _ => q ≠ []

instance : ∀ c, Decidable (CallOk q c)
  | .insertInFront _ _ | .insertTail _ _ | .deleteElement _ => inferInstanceAs (Decidable (_ ≠ _))
  | .insertBefore _ _ _ => inferInstanceAs (Decidable (_ ∧ (_ → _)))
  | .listLengthOf => inferInstanceAs (Decidable (_ ∧ _))

/-- The call returns, and does to the sequence what it is for. -/
def CallMeets (n : Nat) (s : Heap D) (q : List (Item D)) (c : Call D) : Prop :=
  ∃ s' q' ret, call n s c = some (s', ret) ∧ c.apply q = some (q', ret) ∧ Refines s' q'

theorem callMeets_iff {ret ret' : Int} (hcall : call n s c = some (s', ret))
    (happly : c.apply q = some (q', ret')) : CallMeets n s q c ↔ ret = ret' ∧ Refines s' q' := by
  constructor
  · rintro ⟨s₁, q₁, ret₁, hs₁, hq₁, href⟩
    cases hcall.symm.trans hs₁
    cases happly.symm.trans hq₁
    exact ⟨rfl, href⟩
  · rintro ⟨rfl, href⟩
    exact ⟨s', q', ret, hcall, happly, href⟩

theorem not_callMeets (hcall : call n s c = none) : ¬ CallMeets n s q c := by
  rintro ⟨s', q', ret, hs', -⟩
  rw [hcall] at hs'
  cases hs'

theorem not_callMeets_of_apply (happly : c.apply q = none) : ¬ CallMeets n s q c := by
  rintro ⟨s', q', ret, -, hq', -⟩
  rw [happly] at hq'
  cases hq'

/-! ## One call -/

theorem callMeets_insertInFront {data : D} {malloc : Option Addr} (h : Refines s q)
    (hfresh : Fresh q (.insertInFront data malloc)) :
    CallMeets n s q (.insertInFront data malloc) ↔ malloc ≠ none := by
  cases malloc with
  | none => exact iff_of_false (not_callMeets rfl) (fun hne => hne rfl)
  | some a =>
    rcases insertInFront_refines h (hfresh.nodes h rfl) with ⟨s', hs', href⟩
    have hcall : call n s (.insertInFront data (some a)) = some (s', CC_NO_ERROR) := hs'
    rw [callMeets_iff hcall rfl]
    exact iff_of_true ⟨rfl, href⟩ (Option.some_ne_none a)

theorem callMeets_insertTail {data : D} {malloc : Option Addr} (h : Refines s q)
    (hn : q.length < n) (hfresh : Fresh q (.insertTail data malloc)) :
    CallMeets n s q (.insertTail data malloc) ↔ malloc ≠ none := by
  cases malloc with
  | none => exact iff_of_false (not_callMeets rfl) (fun hne => hne rfl)
  | some a =>
    rcases insertTail_refines h hn (hfresh.nodes h rfl) with ⟨s', hs', href⟩
    have hcall : call n s (.insertTail data (some a)) = some (s', CC_NO_ERROR) := hs'
    rw [callMeets_iff hcall rfl]
    exact iff_of_true ⟨rfl, href⟩ (Option.some_ne_none a)

theorem callMeets_listLengthOf (h : Refines s q) (hn : q.length < n) :
    CallMeets n s q .listLengthOf ↔ 0 < q.length ∧ q.length < 2 ^ 32 := by
  have hcall : call n s .listLengthOf = some (s, _) := congrArg (Option.map _) (listLengthOf_eq h hn)
  rw [callMeets_iff hcall rfl, and_iff_left h]
  cases q with
  | nil =>
    -- `CC_ERROR` as an `unsigned int` is no length.
    apply iff_of_false _ fun hpos => absurd hpos.1 (Nat.lt_irrefl 0)
    rw [if_pos rfl]
    show ((BitVec.ofInt 32 CC_ERROR).toNat : Int) ≠ (0 : Nat)
    decide
  | cons x r =>
    rw [if_neg (List.cons_ne_nil x r), BitVec.toNat_ofNat, Int.natCast_inj]
    have hpos : 0 < (x :: r).length := Nat.zero_lt_succ _
    constructor
    · intro heq
      exact ⟨hpos, by omega⟩
    · intro hlt
      exact Nat.mod_eq_of_lt hlt.2

section InsertBefore

variable {sibling data : D} {malloc : Option Addr} {x : Item D} {r : List (Item D)}

theorem call_insertBefore_cons (h : Refines s (x :: r)) :
    call n s (.insertBefore sibling data malloc) =
      insertBeforeLoop s sibling data malloc n x.1 := by
  rw [call, insertBefore, h.head]
  rfl

/-- The first element is the one that the loop never looks at. -/
theorem not_callMeets_insertBefore_first (h : Refines s (x :: r)) (hn : r.length < n)
    (hfresh : Fresh (x :: r) (.insertBefore sibling data malloc)) (hhead : x.2 = sibling) :
    ¬ CallMeets n s (x :: r) (.insertBefore sibling data malloc) := by
  have hcall : call n s (.insertBefore sibling data malloc) = _ := call_insertBefore_cons h
  have hx : Refines s ([] ++ x :: r) := h
  have hany : (x :: r).any (·.2 = sibling) = true := by
    rw [List.any_cons, decide_eq_true hhead, Bool.true_or]
  have hidx : (x :: r).findIdx (·.2 = sibling) = 0 := by
    rw [List.findIdx_cons, decide_eq_true hhead]
    rfl
  have happly : Call.apply (x :: r) (.insertBefore sibling data malloc) =
      malloc.map fun a => ((a, data) :: x :: r, CC_NO_ERROR) := by
    rw [Call.apply, if_pos hany, hidx]
    rfl
  cases malloc with
  | none => exact not_callMeets_of_apply happly
  | some a =>
    cases hrest : r.any (·.2 = sibling) with
    | false =>
      -- The loop does not find it, and returns an error.
      rw [insertBeforeLoop_absent hx hn hrest] at hcall
      rw [callMeets_iff hcall happly]
      exact fun hmeets => absurd hmeets.1 (by decide)
    | true =>
      -- The loop finds it further on, so the list still starts with `x` and not with `a`.
      rcases insertBeforeLoop_present data hx hn hrest (hfresh.nodes h rfl) with ⟨s', hs', href⟩
      rw [callMeets_iff (hcall.trans hs') happly]
      intro hmeets
      have hfirst := href.head.symm.trans hmeets.2.head
      have hxa : x.1 = a := Option.some.inj hfirst
      exact hfresh a rfl (hxa ▸ List.mem_cons_self)

theorem callMeets_insertBefore_rest (h : Refines s (x :: r)) (hn : r.length < n)
    (hfresh : Fresh (x :: r) (.insertBefore sibling data malloc)) (hhead : x.2 ≠ sibling) :
    CallMeets n s (x :: r) (.insertBefore sibling data malloc) ↔
      (r.any (·.2 = sibling) = true → malloc ≠ none) := by
  have hcall : call n s (.insertBefore sibling data malloc) = _ := call_insertBefore_cons h
  have hx : Refines s ([] ++ x :: r) := h
  have hany : (x :: r).any (·.2 = sibling) = r.any (·.2 = sibling) := by
    rw [List.any_cons, decide_eq_false hhead, Bool.false_or]
  have hidx : (x :: r).findIdx (·.2 = sibling) = r.findIdx (·.2 = sibling) + 1 := by
    rw [List.findIdx_cons, decide_eq_false hhead]
    rfl
  cases hrest : r.any (·.2 = sibling) with
  | false =>
    rw [insertBeforeLoop_absent hx hn hrest] at hcall
    have happly : Call.apply (x :: r) (.insertBefore sibling data malloc) =
        some (x :: r, CC_ERROR) := by
      rw [Call.apply, hany, hrest]
      rfl
    rw [callMeets_iff hcall happly]
    exact iff_of_true ⟨rfl, h⟩ (fun hfound => absurd hfound Bool.false_ne_true)
  | true =>
    cases malloc with
    | none =>
      rw [insertBeforeLoop_noMemory hx hrest] at hcall
      exact iff_of_false (not_callMeets hcall) (fun hne => hne rfl rfl)
    | some a =>
      rcases insertBeforeLoop_present data hx hn hrest (hfresh.nodes h rfl) with ⟨s', hs', href⟩
      have happly : Call.apply (x :: r) (.insertBefore sibling data (some a)) =
          some (x :: r.insertIdx (r.findIdx (·.2 = sibling)) (a, data), CC_NO_ERROR) := by
        rw [Call.apply, hany, hrest, hidx]
        rfl
      rw [callMeets_iff (hcall.trans hs') happly]
      exact iff_of_true ⟨rfl, href⟩ (fun _ => Option.some_ne_none a)

theorem callMeets_insertBefore (h : Refines s q) (hn : q.length < n)
    (hfresh : Fresh q (.insertBefore sibling data malloc)) :
    CallMeets n s q (.insertBefore sibling data malloc) ↔
      q.head?.any (·.2 ≠ sibling) = true ∧
        (q.any (·.2 = sibling) = true → malloc ≠ none) := by
  cases q with
  | nil =>
    -- `*head` is dereferenced without a test.
    have hcall : call n s (.insertBefore sibling data malloc) = none := by
      rw [call, insertBefore, h.head]
      rfl
    exact iff_of_false (not_callMeets hcall) (fun hok => Bool.false_ne_true hok.1)
  | cons x r =>
    have hr := Nat.lt_of_succ_lt hn
    by_cases hhead : x.2 = sibling
    · refine iff_of_false (not_callMeets_insertBefore_first h hr hfresh hhead) fun hok => ?_
      have hne := hok.1
      rw [List.head?_cons, Option.any_some] at hne
      exact of_decide_eq_true hne hhead
    · have hany : (x :: r).any (·.2 = sibling) = r.any (·.2 = sibling) := by
        rw [List.any_cons, decide_eq_false hhead, Bool.false_or]
      have hne : (x :: r).head?.any (·.2 ≠ sibling) = true := decide_eq_true hhead
      rw [hany, and_iff_right hne]
      exact callMeets_insertBefore_rest h hr hfresh hhead

end InsertBefore

theorem callMeets_deleteElement {data : D} (h : Refines s q) (hn : q.length < n) :
    CallMeets n s q (.deleteElement data) ↔ q ≠ [] := by
  cases q with
  | nil =>
    -- No test for the empty list here either.
    have hcall : call n s (.deleteElement data) = none := by
      rw [call, deleteElement, h.head]
      rfl
    exact iff_of_false (not_callMeets hcall) (fun hne => hne rfl)
  | cons x r =>
    apply iff_of_true _ (List.cons_ne_nil x r)
    have hx : Refines s ([] ++ x :: r) := h
    have hr := Nat.lt_of_succ_lt hn
    have hcall : call n s (.deleteElement data) =
        if x.2 = data then some ({ s.free x.1 with head := (r.map Prod.fst).head? }, CC_NO_ERROR)
        else deleteElementLoop s data n x.1 := by
      rw [call, deleteElement, h.head]
      show (s.nodes x.1).bind _ = _
      rw [hx.node]
      rfl
    -- The first element is compared before the loop, the others by the loop.
    by_cases hhead : x.2 = data
    · have happly : Call.apply (x :: r) (.deleteElement data) = some (r, CC_NO_ERROR) := by
        rw [Call.apply, List.any_cons, List.eraseP_cons, decide_eq_true hhead]
        rfl
      rw [if_pos hhead] at hcall
      rw [callMeets_iff hcall happly]
      exact ⟨rfl, h.tail rfl Heap.nodes_free_self fun _ => Heap.nodes_free_of_ne⟩
    · rw [if_neg hhead] at hcall
      cases hrest : r.any (·.2 = data) with
      | false =>
        have happly : Call.apply (x :: r) (.deleteElement data) = some (x :: r, CC_ERROR) := by
          rw [Call.apply, List.any_cons, decide_eq_false hhead, hrest]
          rfl
        rw [deleteElementLoop_absent hx hr hrest] at hcall
        rw [callMeets_iff hcall happly]
        exact ⟨rfl, h⟩
      | true =>
        have happly : Call.apply (x :: r) (.deleteElement data) =
            some (x :: r.eraseP (·.2 = data), CC_NO_ERROR) := by
          rw [Call.apply, List.any_cons, List.eraseP_cons, decide_eq_false hhead, hrest]
          rfl
        rcases deleteElementLoop_present hx hr hrest with ⟨s', hs', href⟩
        rw [callMeets_iff (hcall.trans hs') happly]
        exact ⟨rfl, href⟩

/-- With as many rounds as there are elements, and one more. -/
theorem callMeets_iff_callOk (h : Refines s q) (hn : q.length < n) (hfresh : Fresh q c) :
    CallMeets n s q c ↔ CallOk q c := by
  cases c with
  | insertInFront data malloc => exact callMeets_insertInFront h hfresh
  | insertBefore sibling data malloc => exact callMeets_insertBefore h hn hfresh
  | insertTail data malloc => exact callMeets_insertTail h hn hfresh
  | listLengthOf => exact callMeets_listLengthOf h hn
  | deleteElement data => exact callMeets_deleteElement h hn

/-! ## Runs -/

/-- Every call is all right on the sequence that the calls before it have left. -/
def CallsOk (q : List (Item D)) : List (Call D) → Prop
  | [] => True
  | c :: cs => Fresh q c ∧ CallOk q c ∧ ∀ r ∈ c.apply q, CallsOk r.1 cs

theorem length_apply {ret : Int} (happly : c.apply q = some (q', ret)) :
    q'.length ≤ q.length + 1 := by
  cases c with
  | insertInFront data malloc | insertTail data malloc =>
    rw [Call.apply, Option.map_eq_some_iff] at happly
    rcases happly with ⟨a, -, heq⟩
    cases heq
    simp only [List.length_cons, List.length_append, List.length_nil, Nat.zero_add, Nat.le_refl]
  | insertBefore sibling data malloc =>
    rw [Call.apply] at happly
    split at happly
    · rw [Option.map_eq_some_iff] at happly
      rcases happly with ⟨a, -, heq⟩
      cases heq
      exact List.length_insertIdx_le_succ
    · cases happly
      exact Nat.le_succ _
  | listLengthOf =>
    cases happly
    exact Nat.le_succ _
  | deleteElement data =>
    rw [Call.apply] at happly
    split at happly
    · cases happly
      exact Nat.le_succ_of_le (List.length_eraseP_le)
    · cases happly
      exact Nat.le_succ _

theorem calls_refine {cs : List (Call D)} (h : Refines s q) (hok : CallsOk q cs)
    (hn : q.length + cs.length < n) :
    ∃ s' q' rets, calls n s cs = some (s', rets) ∧ applyAll q cs = some (q', rets) ∧
      Refines s' q' := by
  induction cs generalizing s q with
  | nil => exact ⟨s, q, [], rfl, rfl, h⟩
  | cons c cs ih =>
    rw [List.length_cons] at hn
    have hlt : q.length < n := by omega
    rcases (callMeets_iff_callOk h hlt hok.1).mpr hok.2.1 with ⟨s₁, q₁, ret, hs₁, hq₁, href⟩
    have hlength := length_apply hq₁
    rcases ih href (hok.2.2 _ hq₁) (by omega) with ⟨s', q', rets, hs', hq', href'⟩
    refine ⟨s', q', ret :: rets, ?_, ?_, href'⟩
    · rw [calls, hs₁]
      show (calls n s₁ cs).bind _ = _
      rw [hs']
      rfl
    · rw [applyAll, hq₁]
      show (applyAll q₁ cs).bind _ = _
      rw [hq']
      rfl

/-- From the empty list on, a run of calls that are all right refines the run on the sequence, whose
elements are distinct; on any list, a call is right exactly when it is all right. -/
theorem linkedList_refines_sequence :
    (∀ cs : List (Call D), CallsOk [] cs → ∀ n, cs.length < n →
      ∃ s' q' rets, calls n emptyList cs = some (s', rets) ∧ applyAll [] cs = some (q', rets) ∧
        Refines s' q' ∧ (q'.map Prod.fst).Nodup) ∧
    ∀ (s : Heap D) q c n, Refines s q → Fresh q c → q.length < n →
      (CallMeets n s q c ↔ CallOk q c) := by
  constructor
  · intro cs hok n hn
    have hrounds : ([] : List (Item D)).length + cs.length < n := by
      rw [List.length_nil]
      omega
    rcases calls_refine refines_emptyList hok hrounds with ⟨s', q', rets, hs', hq', href⟩
    exact ⟨s', q', rets, hs', hq', href, href.nodup⟩
  · intro s q c n h hfresh hn
    exact callMeets_iff_callOk h hn hfresh

/-- Data pointers 70, 80 and 90, the last one put in front of 80. -/
def threeElements : List (Call Nat) :=
  [.insertTail 80 (some 1), .insertInFront 70 (some 2), .insertBefore 80 90 (some 3),
    .deleteElement 70, .listLengthOf]

instance decidableCallsOk (q : List (Item D)) : ∀ cs, Decidable (CallsOk q cs)
  | [] => isTrue trivial
  | c :: cs =>
    have := fun r : List (Item D) × Int => decidableCallsOk r.1 cs
    inferInstanceAs (Decidable (_ ∧ _ ∧ ∀ r ∈ c.apply q, CallsOk r.1 cs))

theorem linkedList_refines_sequence_threeElements :
    (∃ s' q' rets, calls 6 emptyList threeElements = some (s', rets) ∧
      applyAll [] threeElements = some (q', rets) ∧ Refines s' q' ∧ (q'.map Prod.fst).Nodup) ∧
    CallMeets 1 (emptyList : Heap Nat) [] (.insertInFront 70 (some 1)) := by
  constructor
  · exact linkedList_refines_sequence.1 threeElements (by decide) 6 (by decide)
  · exact (linkedList_refines_sequence.2 emptyList [] (.insertInFront 70 (some 1)) 1
      refines_emptyList (by decide) (by decide)).mpr (by decide)

/-- The empty list, and the list of the datum 70 in front of which 80 is to be put -/
theorem linkedList_wrong :
    (∀ n, insertBefore (emptyList : Heap Nat) 70 80 (some 1) n = none) ∧
    (∀ n, deleteElement (emptyList : Heap Nat) 70 n = none) ∧
    (listLengthOf (emptyList : Heap Nat) 9).map BitVec.toNat = some 4294967295 ∧
    (calls 9 (emptyList : Heap Nat) [.insertInFront 70 (some 1),
      .insertBefore 70 80 (some 2)]).map (·.2) = some [CC_NO_ERROR, CC_ERROR] :=
  ⟨fun _ => rfl, fun _ => rfl, by decide, by decide⟩

end CcPof.LinkedList
