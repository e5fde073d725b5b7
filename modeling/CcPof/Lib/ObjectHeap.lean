import Mathlib.Data.List.Pairwise
import CcPof.Lib.Refinement

/-!
# A heap of objects

What an allocator is for: objects that lie apart from each other, each a row of cells. An object
begins with any contents, a cell keeps what was written last, and nothing that is done to one
object shows in another. The address 0 is no object.
-/

namespace CcPof

structure Object (β : Type) where
  base : Nat
  cells : List β

namespace Object

variable {β : Type}

/-- Two objects have no cell in common, and different addresses even if one of them is empty. -/
def Apart (o o' : Object β) : Prop :=
  o.base ≠ o'.base ∧ (o.base + o.cells.length ≤ o'.base ∨ o'.base + o'.cells.length ≤ o.base)

def write (o : Object β) (off : Nat) (v : β) : Object β := { o with cells := o.cells.set off v }

instance : Std.Symm (@Apart β) where
  symm _ _ h := ⟨h.1.symm, h.2.symm⟩

/-- `Apart` is about addresses and sizes. -/
theorem Apart.congr {o o' a a' : Object β} (h : Apart o o') (hbase : a.base = o.base)
    (hlen : a.cells.length = o.cells.length) (hbase' : a'.base = o'.base)
    (hlen' : a'.cells.length = o'.cells.length) : Apart a a' := by
  rw [Apart, hbase, hlen, hbase', hlen']
  exact h

end Object

/-- A heap whose objects overlap cannot be built. -/
@[ext]
structure ObjectHeap (β : Type) where
  objects : List (Object β)
  apart : objects.Pairwise Object.Apart

inductive HeapEvent (β : Type)
  | alloc (size p : Nat)
  | free (p : Nat)
  | write (p off : Nat) (v : β)
  | read (p off : Nat) (v : β)
  deriving DecidableEq

namespace ObjectHeap

variable {β : Type} {H H' : ObjectHeap β} {o : Object β} {p off : Nat} {v w : β}
  {e : HeapEvent β} {l : List (HeapEvent β)}

def empty : ObjectHeap β := ⟨[], .nil⟩

def add (H : ObjectHeap β) (o : Object β) (h : ∀ o' ∈ H.objects, o.Apart o') : ObjectHeap β :=
  ⟨o :: H.objects, List.pairwise_cons.mpr ⟨h, H.apart⟩⟩

def remove (H : ObjectHeap β) (p : Nat) : ObjectHeap β :=
  ⟨H.objects.filter (·.base ≠ p), H.apart.filter _⟩

def write (H : ObjectHeap β) (p off : Nat) (v : β) : ObjectHeap β where
  objects := H.objects.map fun o => if o.base = p then o.write off v else o
  apart := by
    apply List.pairwise_map.mpr
    apply H.apart.imp
    intro o o' h
    -- A write keeps addresses and sizes.
    apply h.congr <;> split <;> simp [Object.write]

/-- A step of the heap. An allocation may fail at any time. -/
inductive Step : ObjectHeap β → HeapEvent β → ObjectHeap β → Prop
  | alloc (H : ObjectHeap β) (o : Object β) (hnull : o.base ≠ 0)
      (hapart : ∀ o' ∈ H.objects, o.Apart o') :
      Step H (.alloc o.cells.length o.base) (H.add o hapart)
  | fail (H : ObjectHeap β) (size : Nat) : Step H (.alloc size 0) H
  | free (H : ObjectHeap β) (p : Nat) (hp : p ∈ H.objects.map Object.base) :
      Step H (.free p) (H.remove p)
  | write (H : ObjectHeap β) (o : Object β) (off : Nat) (v : β) (ho : o ∈ H.objects)
      (hoff : off < o.cells.length) : Step H (.write o.base off v) (H.write o.base off v)
  | read (H : ObjectHeap β) (o : Object β) (off : Nat) (v : β) (ho : o ∈ H.objects)
      (hv : o.cells[off]? = some v) : Step H (.read o.base off v) H

def system (β : Type) : EventSystem (ObjectHeap β) (HeapEvent β) where
  init := empty
  step := Step

/-! ## 1. What a cell holds -/

/-- The cell `off` of the object at `p` holds `v`. -/
def Cell (H : ObjectHeap β) (p off : Nat) (v : β) : Prop :=
  ∃ o ∈ H.objects, o.base = p ∧ o.cells[off]? = some v

/-- An address is that of one object. -/
theorem eq_of_base {o o' : Object β} (ho : o ∈ H.objects) (ho' : o' ∈ H.objects)
    (h : o.base = o'.base) : o = o' := by
  -- Objects at one address would not be apart, even if they are empty.
  by_contra hne
  exact (H.apart.forall ho ho' hne).1 h

theorem Cell.unique (hv : H.Cell p off v) (hw : H.Cell p off w) : v = w := by
  obtain ⟨o, ho, hbase, hv⟩ := hv
  obtain ⟨o', ho', hbase', hw⟩ := hw
  cases eq_of_base ho ho' (hbase.trans hbase'.symm)
  exact Option.some.inj (hv.symm.trans hw)

theorem cell_of_write (h : Step H (.write p off v) H') : H'.Cell p off v := by
  cases h with
  | write o _ _ ho hoff =>
    refine ⟨o.write off v, ?_, rfl, ?_⟩
    · exact List.mem_map.mpr ⟨o, ho, if_pos rfl⟩
    · exact List.getElem?_set_self hoff

theorem cell_of_read (h : Step H (.read p off v) H') : H.Cell p off v := by
  cases h with
  | read o _ _ ho hv => exact ⟨o, ho, rfl, hv⟩

/-- A cell keeps what it holds until its object is freed or the cell is written to. -/
theorem Cell.step (hc : H.Cell p off v) (h : Step H e H') (hfree : e ≠ .free p)
    (hwrite : ∀ w, e ≠ .write p off w) : H'.Cell p off v := by
  obtain ⟨o, ho, hbase, hv⟩ := hc
  cases h with
  | alloc o' => exact ⟨o, List.mem_cons_of_mem o' ho, hbase, hv⟩
  | fail => exact ⟨o, ho, hbase, hv⟩
  | free q =>
    refine ⟨o, List.mem_filter.mpr ⟨ho, decide_eq_true ?_⟩, hbase, hv⟩
    intro hq
    exact hfree (by rw [← hq, hbase])
  | write o' off' v' =>
    -- A write to the same object must be to another cell of it.
    by_cases hsame : o.base = o'.base
    · refine ⟨o.write off' v', List.mem_map.mpr ⟨o, ho, if_pos hsame⟩, hbase, ?_⟩
      have hne : off' ≠ off := by
        intro heq
        exact hwrite v' (by rw [← hsame, hbase, heq])
      exact (List.getElem?_set_ne hne).trans hv
    · exact ⟨o, List.mem_map.mpr ⟨o, ho, if_neg hsame⟩, hbase, hv⟩
  | read => exact ⟨o, ho, hbase, hv⟩

/-- **Reads see the last write**: what is read from a cell is what was written there last, if the
object was not freed in between. -/
theorem read_last_write {l₁ l : List (HeapEvent β)}
    (h : (system β).Trace (l₁ ++ .write p off v :: (l ++ [.read p off w])))
    (hquiet : ∀ e ∈ l, e ≠ .free p ∧ ∀ u, e ≠ .write p off u) : w = v := by
  -- Cut the run behind the write and before the read.
  obtain ⟨H₃, hrun⟩ := h
  obtain ⟨H₀, _, hrun⟩ := EventSystem.run_append.mp hrun
  cases hrun with
  | @cons _ H₁ _ _ _ hwrite hrun =>
    obtain ⟨H₂, hl, hread⟩ := EventSystem.run_append.mp hrun
    have hwritten : H₁.Cell p off v := cell_of_write (show Step H₀ _ H₁ from hwrite)
    have hcell : H₂.Cell p off v := by
      -- Nothing in between touches the cell.
      refine hl.keeps (I := fun H => H.Cell p off v) ?_ hwritten
      intro H H' e he hc hstep
      exact hc.step hstep (hquiet e he).1 (hquiet e he).2
    exact (cell_of_read (EventSystem.run_singleton.mp hread)).unique hcell

end ObjectHeap

end CcPof
