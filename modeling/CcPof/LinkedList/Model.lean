import CcPof.Lib.Chain

/-!
# The linked list

The functions of `cc_link.c` over the elements on the heap. `none` is the result of a run through a
null pointer or an element that is not allocated; the loops take a number of rounds, and end in
`none` as well when it does not suffice. `malloc` answers with `none` for NULL. A function that the
caller passes works on the caller's `user_data`, and may be NULL.
-/

namespace CcPof.LinkedList

abbrev Addr := Nat

def CC_ERROR : Int := -1
def CC_NO_ERROR : Int := 0

/-- `struct list_element_s` -/
structure ListElement (D : Type) where
  next : Option Addr
  data : D
  deriving DecidableEq, Repr

/-- The elements that are allocated, and `*head`. -/
structure Heap (D : Type) where
  nodes : Addr → Option (ListElement D)
  head : Option Addr

variable {D : Type}

def emptyList : Heap D where
  nodes := fun _ => none
  head := none

namespace Heap

/-- `e->next` -/
def next (s : Heap D) (e : Addr) : Option Addr := (s.nodes e).bind (·.next)

def write (s : Heap D) (e : Addr) (element : ListElement D) : Heap D :=
  { s with nodes := Function.update s.nodes e (some element) }

def free (s : Heap D) (e : Addr) : Heap D :=
  { s with nodes := Function.update s.nodes e none }

end Heap

def insertInFront (s : Heap D) (data : D) (malloc : Option Addr) : Option (Heap D × Int) := do
  let newHead ← malloc
  some ({ s.write newHead ⟨s.head, data⟩ with head := some newHead }, CC_NO_ERROR)

/-- The loop of `insert_before`, at the element `e`. -/
def insertBeforeLoop [DecidableEq D] (s : Heap D) (sibling data : D) (malloc : Option Addr) :
    Nat → Addr → Option (Heap D × Int)
  | 0, _ => none
  | n + 1, e => do
    let element ← s.nodes e
    match element.next with
    | none => some (s, CC_ERROR)
    | some next => do
      let nextElement ← s.nodes next
      if nextElement.data = sibling then
        let newElement ← malloc
        some ((s.write newElement ⟨some next, data⟩).write e { element with next := some newElement },
          CC_NO_ERROR)
      else insertBeforeLoop s sibling data malloc n next

def insertBefore [DecidableEq D] (s : Heap D) (sibling data : D) (malloc : Option Addr) (n : Nat) :
    Option (Heap D × Int) := do
  let e ← s.head
  insertBeforeLoop s sibling data malloc n e

/-- The loop of `insert_tail`: the last element from `e` on. -/
def lastElement (s : Heap D) : Nat → Addr → Option Addr
  | 0, _ => none
  | n + 1, e => do
    let element ← s.nodes e
    match element.next with
    | none => some e
    | some next => lastElement s n next

def insertTail (s : Heap D) (data : D) (malloc : Option Addr) (n : Nat) :
    Option (Heap D × Int) := do
  let newTail ← malloc
  let s := s.write newTail ⟨none, data⟩
  match s.head with
  | none => some ({ s with head := some newTail }, CC_NO_ERROR)
  | some head => do
    let e ← lastElement s n head
    let element ← s.nodes e
    some (s.write e { element with next := some newTail }, CC_NO_ERROR)

def listLengthLoop (s : Heap D) : Nat → Option Addr → BitVec 32 → Option (BitVec 32)
  | 0, _, _ => none
  | _ + 1, none, length => some length
  | n + 1, some e, length => do
    let element ← s.nodes e
    listLengthLoop s n element.next (length + 1)

/-- The result is an `unsigned int`. -/
def listLengthOf (s : Heap D) (n : Nat) : Option (BitVec 32) :=
  match s.head with
  | none => some (BitVec.ofInt 32 CC_ERROR)
  | some head => do
    let element ← s.nodes head
    listLengthLoop s n element.next 1

/-- The loop of `delete_element`, at the element `e`. -/
def deleteElementLoop [DecidableEq D] (s : Heap D) (data : D) : Nat → Addr → Option (Heap D × Int)
  | 0, _ => none
  | n + 1, e => do
    let element ← s.nodes e
    match element.next with
    | none => some (s, CC_ERROR)
    | some deleteMe => do
      let nextElement ← s.nodes deleteMe
      if nextElement.data = data then
        some ((s.write e { element with next := nextElement.next }).free deleteMe, CC_NO_ERROR)
      else deleteElementLoop s data n deleteMe

def deleteElement [DecidableEq D] (s : Heap D) (data : D) (n : Nat) : Option (Heap D × Int) := do
  let e ← s.head
  let element ← s.nodes e
  if element.data = data then
    some ({ s.free e with head := element.next }, CC_NO_ERROR)
  else deleteElementLoop s data n e

section UserData

variable {U : Type}

def iterateListLoop (s : Heap D) (function : D → U → U) : Nat → Option Addr → U → Option U
  | 0, _, _ => none
  | _ + 1, none, userData => some userData
  | n + 1, some e, userData => do
    let element ← s.nodes e
    iterateListLoop s function n element.next (function element.data userData)

def iterateList (s : Heap D) (function : Option (D → U → U)) (userData : U) (n : Nat) : Option U :=
  match s.head, function with
  | some head, some function => iterateListLoop s function n (some head) userData
  | _, _ => some userData

def findListLoop (s : Heap D) (null : D) (function : D → U → Bool × U) :
    Nat → Option Addr → U → Option (D × U)
  | 0, _, _ => none
  | _ + 1, none, userData => some (null, userData)
  | n + 1, some e, userData => do
    let element ← s.nodes e
    if (function element.data userData).1 then
      some (element.data, (function element.data userData).2)
    else findListLoop s null function n element.next (function element.data userData).2

/-- `null` is the NULL of the data pointers. -/
def findListCustom (s : Heap D) (null : D) (function : Option (D → U → Bool × U)) (userData : U)
    (n : Nat) : Option (D × U) :=
  match s.head, function with
  | some head, some function => findListLoop s null function n (some head) userData
  | _, _ => some (null, userData)

end UserData

def deleteListLoop : Nat → Heap D → Option Addr → Option (Heap D)
  | 0, _, _ => none
  | _ + 1, s, none => some s
  | n + 1, s, some e => do
    let element ← s.nodes e
    deleteListLoop n (s.free e) element.next

/-- The head that the caller passes stays as it is. -/
def deleteList (s : Heap D) (n : Nat) : Option (Heap D × Int) := do
  let s ← deleteListLoop n s s.head
  some (s, CC_NO_ERROR)

/-! ## Calls on one list -/

inductive Call (D : Type)
  | insertInFront (data : D) (malloc : Option Addr)
  | insertBefore (sibling data : D) (malloc : Option Addr)
  | insertTail (data : D) (malloc : Option Addr)
  | listLengthOf
  | deleteElement (data : D)

/-- A call, with at most `n` rounds of its loop, and what it returns. -/
def call [DecidableEq D] (n : Nat) (s : Heap D) : Call D → Option (Heap D × Int)
  | .insertInFront data malloc => insertInFront s data malloc
  | .insertBefore sibling data malloc => insertBefore s sibling data malloc n
  | .insertTail data malloc => insertTail s data malloc n
  | .listLengthOf => (listLengthOf s n).map fun length => (s, length.toNat)
  | .deleteElement data => deleteElement s data n

def calls [DecidableEq D] (n : Nat) (s : Heap D) : List (Call D) → Option (Heap D × List Int)
  | [] => some (s, [])
  | c :: cs => do
    let (s, ret) ← call n s c
    let (s, rets) ← calls n s cs
    some (s, ret :: rets)

end CcPof.LinkedList
