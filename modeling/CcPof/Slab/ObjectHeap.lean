import CcPof.Lib.ObjectHeap
import CcPof.Slab.Contents
import CcPof.Slab.Disjoint

/-!
# The pool is a heap of objects

To its clients a pool is a heap of objects: an allocation is an object apart from the others, a
client reads from it what was written there last, and neither the bitmaps in the pages nor the
other clients show.
-/

namespace CcPof.Slab

variable {s s' : Pool} {N minShift base endAddr a p q off sz : Nat} {desc : Ref → SlabPage}
  {mem : Mem} {blk : Nat → Option Block} {ring : Ref → List Nat} {st st' : State}
  {H : ObjectHeap UInt8} {v : UInt8}

/-- What the clients do, and what they see of it: the address of an allocation, the byte of a
read. -/
inductive Call
  | act (a : Act)
  | read (p size off : Nat)

def call (st : State) : Call → Option (HeapEvent UInt8 × State)
  | .act (.alloc size) => do
      let res ← ncxSlabAllocLocked st.pool size.toNat
      (step st (.alloc size)).map (Prod.mk (.alloc size.toNat res.2))
  | .act (.free p) => (step st (.free p)).map (Prod.mk (.free p))
  | .act (.write p size off v) => (step st (.write p size off v)).map (Prod.mk (.write p off v))
  | .read p size off =>
      if st.live.contains (p, size) ∧ off < size then
        some (.read p off (st.pool.mem (p + off)), st)
      else
        none

def slabCalls (pool : Pool) : EventSystem State (HeapEvent UInt8) :=
  .ofCalls { pool, live := [] } call

/-- The allocation `a` with the bytes in memory. -/
def objectAt (mem : Mem) (a : Nat × Nat) : Object UInt8 := ⟨a.1, load mem a.1 a.2⟩

/-- The live allocations are the objects of the heap. -/
structure Represents (N : Nat) (st : State) (H : ObjectHeap UInt8) : Prop where
  inv : ∃ blk ring, Inv st N blk ring
  objects : H.objects = st.live.map (objectAt st.pool.mem)

/-! ## 1. What a client holds -/

theorem Inv.not_spare (hI : Inv st N blk ring) (hp : (p, sz) ∈ st.live) (hlo : p ≤ a)
    (hhi : a < p + sz) : ¬ Spare st.pool blk a := by
  have hle : sz ≤ (classOf st.pool sz).size := size_le_classOf hI.sound.geometry
  exact hI.sound.not_spare (hI.holds p sz hp) hlo (by omega)

theorem Inv.live_unique (hI : Inv st N blk ring) {sz' : Nat} (hp : (p, sz) ∈ st.live)
    (hp' : (p, sz') ∈ st.live) : sz = sz' := by
  have hnodup : (st.live.map Prod.fst).Nodup := hI.nodup
  have heq := List.inj_on_of_nodup_map hnodup hp hp' rfl
  exact congrArg Prod.snd heq

theorem Inv.live_apart (hI : Inv st N blk ring) {sz' : Nat} (hp : (p, sz) ∈ st.live)
    (hq : (q, sz') ∈ st.live) (hne : p ≠ q) : p + sz ≤ q ∨ q + sz' ≤ p := by
  have hS := hI.sound
  have hle : sz ≤ (classOf st.pool sz).size := size_le_classOf hS.geometry
  have hle' : sz' ≤ (classOf st.pool sz').size := size_le_classOf hS.geometry
  rcases hS.holds_disjoint (hI.holds p sz hp) (hI.holds q sz' hq) hne with h | h
  · left
    omega
  · right
    omega

/-- The allocations that a step leaves alone keep their bytes. -/
theorem Inv.objects_kept (hI : Inv st N blk ring) {m : Mem} {l : List (Nat × Nat)}
    (hl : ∀ x ∈ l, x ∈ st.live) (hm : ∀ a, ¬ Spare st.pool blk a → m a = st.pool.mem a) :
    l.map (objectAt m) = l.map (objectAt st.pool.mem) := by
  apply List.map_congr_left
  intro x hp
  obtain ⟨p, size⟩ := x
  have hload : load m p size = load st.pool.mem p size := by
    -- Each byte of a live allocation is not spare.
    apply load_ext
    intro i hi
    exact hm _ (hI.not_spare (hl _ hp) (Nat.le_add_right p i) (by omega))
  rw [objectAt, objectAt, hload]

/-! ## 2. The steps -/

theorem Represents.alloc (hR : Represents N st H) {pool : Pool} {size : UInt64}
    (hres : ncxSlabAllocLocked st.pool size.toNat = some (pool, p))
    (hs : step st (.alloc size) = some st') :
    ∃ H', H.Step (.alloc size.toNat p) H' ∧ Represents N st' H' := by
  obtain ⟨⟨blk, ring, hI⟩, hobj⟩ := hR
  obtain ⟨blk', ring', hI', _⟩ := hI.alloc hs
  obtain ⟨_, _, _, _, hmem⟩ := hI.sound.alloc_effect hres
  rw [step, hres, Option.map_some, Option.some.injEq] at hs
  have hold : st.live.map (objectAt pool.mem) = H.objects := by
    rw [hobj]
    exact hI.objects_kept (fun _ hx => hx) hmem
  by_cases hp : p = 0
  · subst hp
    dsimp only at hs
    rw [if_pos rfl] at hs
    subst hs
    -- A request that fails leaves the heap as it is.
    exact ⟨H, .fail H _, ⟨blk', ring', hI'⟩, hold.symm⟩
  · dsimp only at hs
    rw [if_neg hp] at hs
    subst hs
    -- The new object is apart from the others since the new state is in order.
    have hapart : ∀ o ∈ H.objects, (objectAt pool.mem (p, size.toNat)).Apart o := by
      intro o ho
      rw [← hold] at ho
      obtain ⟨⟨q, sz⟩, hq, rfl⟩ := List.mem_map.mp ho
      have hnodup := hI'.nodup
      rw [List.map_cons, List.nodup_cons] at hnodup
      have hne : p ≠ q := by
        rintro rfl
        exact hnodup.1 (List.mem_map.mpr ⟨_, hq, rfl⟩)
      refine ⟨hne, ?_⟩
      rw [objectAt, objectAt, length_load, length_load]
      exact hI'.live_apart List.mem_cons_self (List.mem_cons_of_mem _ hq) hne
    have hstep := ObjectHeap.Step.alloc H (objectAt pool.mem (p, size.toNat)) hp hapart
    rw [show (objectAt pool.mem (p, size.toNat)).cells.length = size.toNat from length_load _ _ _]
      at hstep
    exact ⟨_, hstep, ⟨blk', ring', hI'⟩, congrArg _ hold.symm⟩

theorem Represents.free (hR : Represents N st H) (hs : step st (.free p) = some st') :
    ∃ H', H.Step (.free p) H' ∧ Represents N st' H' := by
  obtain ⟨⟨blk, ring, hI⟩, hobj⟩ := hR
  obtain ⟨blk', ring', hI', _⟩ := hI.free hs
  rw [step] at hs
  by_cases hmem : p ∈ st.live.map Prod.fst
  · rw [if_pos hmem, Option.map_eq_some_iff] at hs
    obtain ⟨pool, hpool, rfl⟩ := hs
    obtain ⟨⟨p, size⟩, hp, rfl⟩ := List.mem_map.mp hmem
    obtain ⟨_, _, _, _, hkept⟩ := hI.sound.free_effect (hI.holds p size hp) hpool
    refine ⟨H.remove p, .free H p ?_, ⟨blk', ring', hI'⟩, ?_⟩
    · rw [hobj, List.map_map]
      exact hmem
    · show H.objects.filter _ = _
      -- The others keep their bytes.
      rw [hI.objects_kept (fun _ hx => List.mem_of_mem_filter hx) hkept, hobj, List.filter_map]
      rfl
  · rw [if_neg hmem] at hs
    cases hs

theorem Represents.write (hR : Represents N st H) (hs : step st (.write p sz off v) = some st') :
    ∃ H', H.Step (.write p off v) H' ∧ Represents N st' H' := by
  obtain ⟨⟨blk, ring, hI⟩, hobj⟩ := hR
  have hI' := (hI.write hs).1
  rw [step] at hs
  by_cases hp : (p, sz) ∈ st.live ∧ off < sz
  · rw [if_pos hp, Option.some.injEq] at hs
    subst hs
    have ho : objectAt st.pool.mem (p, sz) ∈ H.objects := by
      rw [hobj]
      exact List.mem_map_of_mem hp.1
    refine ⟨_, .write H _ off v ho ?_, ⟨blk, ring, hI'⟩, ?_⟩
    · rw [objectAt, length_load]
      exact hp.2
    · show H.objects.map _ = _
      rw [hobj, List.map_map]
      apply List.map_congr_left
      intro x hq
      obtain ⟨q, sz'⟩ := x
      by_cases hqp : q = p
      · subst hqp
        cases hI.live_unique hp.1 hq
        refine (if_pos rfl).trans ?_
        rw [Object.write, objectAt, objectAt, load_put8]
      · refine (if_neg hqp).trans ?_
        -- Another allocation does not have the byte.
        have hapart := hI.live_apart hp.1 hq (Ne.symm hqp)
        rw [objectAt, objectAt, load_store_disjoint]
        rw [List.length_singleton]
        omega
  · rw [if_neg hp] at hs
    cases hs

theorem Represents.read (hR : Represents N st H) (hp : (p, sz) ∈ st.live) (hoff : off < sz) :
    H.Step (.read p off (st.pool.mem (p + off))) H := by
  have ho : objectAt st.pool.mem (p, sz) ∈ H.objects := by
    rw [hR.objects]
    exact List.mem_map_of_mem hp
  apply ObjectHeap.Step.read H _ off _ ho
  rw [objectAt, List.getElem?_eq_getElem (by rw [length_load]; exact hoff), getElem_load]

theorem Represents.call (hR : Represents N st H) {c : Call} {e : HeapEvent UInt8}
    (hc : call st c = some (e, st')) : ∃ H', H.Step e H' ∧ Represents N st' H' := by
  cases c with
  | read p size off =>
    rw [CcPof.Slab.call] at hc
    by_cases hp : st.live.contains (p, size) ∧ off < size
    · rw [if_pos hp] at hc
      cases hc
      exact ⟨H, hR.read (List.contains_iff_mem.mp hp.1) hp.2, hR⟩
    · rw [if_neg hp] at hc
      cases hc
  | act a =>
    cases a with
    | alloc size =>
      rw [CcPof.Slab.call, Option.bind_eq_bind, Option.bind_eq_some_iff] at hc
      obtain ⟨⟨pool, p⟩, hres, hc⟩ := hc
      obtain ⟨st₁, hs, heq⟩ := Option.map_eq_some_iff.mp hc
      cases heq
      exact hR.alloc hres hs
    | free p =>
      obtain ⟨st₁, hs, heq⟩ := Option.map_eq_some_iff.mp hc
      cases heq
      exact hR.free hs
    | write p size off v =>
      obtain ⟨st₁, hs, heq⟩ := Option.map_eq_some_iff.mp hc
      cases heq
      exact hR.write hs

/-- Every step of the clients is one of the heap. -/
theorem slab_simulation (h : Fits minShift base endAddr desc mem s N) :
    (slabCalls s).Simulation (ObjectHeap.system UInt8) (Represents N) where
  init := by
    obtain ⟨ring, hI⟩ := h.inv
    exact ⟨⟨_, ring, hI⟩, rfl⟩
  step := by
    intro st st' H e hR ⟨c, hc⟩
    exact hR.call hc

/-- An allocation of 100 bytes is written to, while another one comes and goes. -/
def sevenCalls : List Call :=
  [Call.act (.alloc 100), .act (.alloc 5000), .act (.write 8192 100 99 7),
    .act (.write 12288 5000 0 9), .act (.free 12288), .act (.alloc 8), .read 8192 100 99]

theorem trace_sevenCalls : (slabCalls sevenPages).Trace
    ([.alloc 100 8192, .alloc 5000 12288] ++ .write 8192 99 7 ::
      ([.write 12288 0 9, .free 12288, .alloc 8 12352] ++ [.read 8192 99 7])) :=
  EventSystem.trace_of_answers (c := sevenCalls) (by decide +kernel)

/-! ## 3. Runs -/

/-- **The pool refines a heap of objects**: whatever the clients see of it in a run, they could
have seen of a heap where every allocation is an object of its own. -/
theorem slab_refines_objectHeap (h : Fits minShift base endAddr desc mem s N) :
    (slabCalls s).Refines (ObjectHeap.system UInt8) :=
  (slab_simulation h).refines

theorem slab_refines_objectHeap_sevenCalls : (ObjectHeap.system UInt8).Trace
    ([.alloc 100 8192, .alloc 5000 12288] ++ .write 8192 99 7 ::
      ([.write 12288 0 9, .free 12288, .alloc 8 12352] ++ [.read 8192 99 7])) :=
  slab_refines_objectHeap sevenPages_fits _ trace_sevenCalls

/-- **Allocations keep their contents**: a client reads what was written last, whatever was
allocated, freed and written elsewhere in between. -/
theorem slab_read_last_write (h : Fits minShift base endAddr desc mem s N) {w : UInt8}
    {l₁ l : List (HeapEvent UInt8)}
    (hl : (slabCalls s).Trace (l₁ ++ .write p off v :: (l ++ [.read p off w])))
    (hquiet : ∀ e ∈ l, e ≠ .free p ∧ ∀ u, e ≠ .write p off u) : w = v :=
  ObjectHeap.read_last_write ((slab_simulation h).refines _ hl) hquiet

theorem slab_read_last_write_sevenCalls : (7 : UInt8) = 7 ∧ (slabCalls sevenPages).Trace
    ([.alloc 100 8192, .alloc 5000 12288] ++ .write 8192 99 7 ::
      ([.write 12288 0 9, .free 12288, .alloc 8 12352] ++ [.read 8192 99 7])) :=
  ⟨slab_read_last_write sevenPages_fits trace_sevenCalls (by simp), trace_sevenCalls⟩

end CcPof.Slab
