import CcPof.Lib.DoublyLinked
import CcPof.MemPool.Model
import Mathlib.Data.List.Perm.Basic
import Mathlib.Data.List.Nodup

/-!
# The list of one type

Behind the sentinel come the nodes that hold the free blocks, up to `tail`, and then the nodes
whose blocks are handed out. `new_mem_node` and `free_mem_node` move the border between the two by
one node, and blocks change places among the nodes; every node keeps its first block in `raw_data`.
-/

namespace CcPof.MemPool

structure Layout where
  head : Addr
  free : List Addr
  used : List Addr

def Layout.nodes (L : Layout) : List Addr := L.head :: (L.free ++ L.used)

/-- The list of `type`, set up with `c`. The blocks in the free nodes and those that are handed
out are together the first blocks of all nodes but the sentinel. -/
structure TypeInv (s : Pools) (type : UInt8) (c : Config) (L : Layout) : Prop where
  valid : (s.memList type).valid = true
  head : (s.memList type).head = some L.head
  tail : (s.memList type).tail = backPtr some none (L.head :: L.free)
  links : DSeg some s.next s.pre none L.nodes none
  nodup : L.nodes.Nodup
  block : ∀ p ∈ L.nodes, ∃ b, s.rawData p = some b ∧ (b, c.size + 1) ∈ s.blocks ∧ s.mem b = type
  raws : (L.nodes.filterMap s.rawData).Nodup
  length : L.free.length + L.used.length = c.length
  freeData : ∀ p ∈ L.free, (s.data p).isSome
  usedData : ∀ p ∈ L.used, s.data p = none
  perm : ((L.free.filterMap s.data).map (· + 1) ++ s.held type).Perm
    (((L.free ++ L.used).filterMap s.rawData).map (· + 1))

variable {s s' : Pools} {type : UInt8} {c : Config} {L : Layout}

theorem Layout.free_mem {p : Addr} (h : p ∈ L.free) : p ∈ L.nodes :=
  List.mem_cons_of_mem _ (List.mem_append_left _ h)

theorem Layout.used_mem {p : Addr} (h : p ∈ L.used) : p ∈ L.nodes :=
  List.mem_cons_of_mem _ (List.mem_append_right _ h)

theorem Layout.exists_last (L : Layout) : ∃ t l, L.head :: L.free = l ++ [t] := by
  rcases List.eq_nil_or_concat (L.head :: L.free) with hnil | ⟨l, t, hl⟩
  · cases hnil
  · exact ⟨t, l, by rw [hl, List.concat_eq_append]⟩

namespace TypeInv

theorem live (h : TypeInv s type c L) {p : Addr} (hp : p ∈ L.nodes) : ∃ node, s.nodes p = some node := by
  rcases h.block p hp with ⟨b, hb, -⟩
  rw [Pools.rawData, Option.bind_eq_some_iff] at hb
  rcases hb with ⟨node, hnode, -⟩
  exact ⟨node, hnode⟩

/-- The blocks of a type keep it in their first byte, so two types have no node in common. -/
theorem apart (h : TypeInv s type c L) {type' : UInt8} {c' : Config} {L' : Layout}
    (h' : TypeInv s type' c' L') {p : Addr} (hp : p ∈ L.nodes) (hp' : p ∈ L'.nodes) :
    type = type' := by
  rcases h.block p hp with ⟨b, hb, -, hbyte⟩
  rcases h'.block p hp' with ⟨b', hb', -, hbyte'⟩
  rw [hb] at hb'
  cases hb'
  rw [← hbyte, ← hbyte']

/-- What is not about the list of a type leaves it as it is. -/
theorem frame (h : TypeInv s type c L) (hlist : s'.memList type = s.memList type)
    (hnodes : ∀ p ∈ L.nodes, s'.nodes p = s.nodes p)
    (hblocks : ∀ p ∈ L.nodes, ∀ b, s.rawData p = some b → (b, c.size + 1) ∈ s.blocks →
      (b, c.size + 1) ∈ s'.blocks ∧ s'.mem b = s.mem b)
    (hheld : s'.held type = s.held type) : TypeInv s' type c L := by
  have hraw : ∀ p ∈ L.nodes, s'.rawData p = s.rawData p := by
    intro p hp
    rw [Pools.rawData, hnodes p hp, Pools.rawData]
  have hdata : ∀ p ∈ L.nodes, s'.data p = s.data p := by
    intro p hp
    rw [Pools.data, hnodes p hp, Pools.data]
  refine ⟨?_, ?_, ?_, ?_, h.nodup, ?_, ?_, h.length, ?_, ?_, ?_⟩
  · rw [hlist]
    exact h.valid
  · rw [hlist]
    exact h.head
  · rw [hlist]
    exact h.tail
  · apply h.links.congr
    intro p hp
    rw [Pools.next, Pools.pre, hnodes p hp]
    exact ⟨rfl, rfl⟩
  · intro p hp
    rcases h.block p hp with ⟨b, hb, hmem, hbyte⟩
    have hkeep := hblocks p hp b hb hmem
    refine ⟨b, ?_, hkeep.1, ?_⟩
    · rw [hraw p hp]
      exact hb
    · rw [hkeep.2]
      exact hbyte
  · rw [List.filterMap_congr hraw]
    exact h.raws
  · intro p hp
    rw [hdata p (Layout.free_mem hp)]
    exact h.freeData p hp
  · intro p hp
    rw [hdata p (Layout.used_mem hp)]
    exact h.usedData p hp
  · rw [hheld, List.filterMap_congr fun p hp => hdata p (Layout.free_mem hp),
      List.filterMap_congr fun p hp => hraw p (List.mem_cons_of_mem _ hp)]
    exact h.perm

theorem length_free (h : TypeInv s type c L) :
    (L.free.filterMap s.data).length = L.free.length :=
  List.filterMap_length_eq_length.mpr h.freeData

/-- Conservation: the handed-out blocks and the free nodes make up the configured length. -/
theorem held_length (h : TypeInv s type c L) :
    (s.held type).length + L.free.length = c.length := by
  have hperm := h.perm.length_eq
  have hraw : ((L.free ++ L.used).filterMap s.rawData).length = (L.free ++ L.used).length := by
    apply List.filterMap_length_eq_length.mpr
    intro p hp
    rcases h.block p (List.mem_cons_of_mem _ hp) with ⟨b, hb, -⟩
    rw [hb]
    rfl
  have hlength := h.length
  rw [List.length_append, List.length_map, List.length_map, hraw, h.length_free,
    List.length_append] at hperm
  omega

/-- The free and the handed-out blocks are all different. -/
theorem nodup_blocks (h : TypeInv s type c L) :
    ((L.free.filterMap s.data).map (· + 1) ++ s.held type).Nodup := by
  apply h.perm.nodup_iff.mpr
  apply List.Nodup.map (fun a b hab => Nat.succ.inj hab)
  have hraws := h.raws
  rw [Layout.nodes, ← List.singleton_append, List.filterMap_append] at hraws
  exact (List.nodup_append.mp hraws).2.1

/-- A block that is handed out is the first block of a node. -/
theorem held_block (h : TypeInv s type c L) {addr : Nat} (ha : addr ∈ s.held type) :
    ∃ p ∈ L.nodes, ∃ b, s.rawData p = some b ∧ addr = b + 1 ∧ (b, c.size + 1) ∈ s.blocks ∧
      s.mem b = type := by
  have hmem := h.perm.mem_iff.mp (List.mem_append_right _ ha)
  rcases List.mem_map.mp hmem with ⟨b, hb, rfl⟩
  rcases List.mem_filterMap.mp hb with ⟨p, hp, hraw⟩
  have hp : p ∈ L.nodes := List.mem_cons_of_mem _ hp
  rcases h.block p hp with ⟨b', hb', hmem', hbyte⟩
  rw [hraw] at hb'
  cases hb'
  exact ⟨p, hp, b, hraw, rfl, hmem', hbyte⟩

/-- The type of a block that is handed out stands in front of it. -/
theorem held_type (h : TypeInv s type c L) {addr : Nat} (ha : addr ∈ s.held type) :
    s.mem (addr - 1) = type := by
  rcases h.held_block ha with ⟨p, -, b, -, rfl, -, hbyte⟩
  exact hbyte

theorem tail_of_empty (h : TypeInv s type c L) (hfree : L.free = []) :
    (s.memList type).tail = some L.head := by
  rw [h.tail, hfree]
  rfl

/-- `tail` is the last node of the free part, or the sentinel. -/
theorem tail_of_last (h : TypeInv s type c L) {l : List Addr} {t : Addr}
    (hl : L.head :: L.free = l ++ [t]) : (s.memList type).tail = some t := by
  rw [h.tail, hl, backPtr_append]
  rfl

theorem tail_of_append (h : TypeInv s type c L) {l : List Addr} {p : Addr}
    (hfree : L.free = l ++ [p]) : (s.memList type).tail = some p :=
  h.tail_of_last (by rw [hfree, List.cons_append])

/-- Behind it comes the first used node. -/
theorem next_tail (h : TypeInv s type c L) {l used : List Addr} {t p : Addr}
    (hl : L.head :: L.free = l ++ [t]) (hused : L.used = p :: used) : s.next t = some p := by
  have hlinks := h.links
  rw [Layout.nodes, hused, ← List.cons_append, hl, List.append_assoc] at hlinks
  exact hlinks.next_of

end TypeInv

/-! ## An assignment to `data` -/

section SetData

variable {p : Addr} {data : Option Nat}

theorem rawData_of_setData (hs : s.setNode p (fun node => { node with data := data }) = some s')
    (q : Addr) : s'.rawData q = s.rawData q ∧ s'.next q = s.next q ∧ s'.pre q = s.pre q := by
  rw [Pools.setNode, Option.map_eq_some_iff] at hs
  rcases hs with ⟨node, hnode, rfl⟩
  by_cases hq : q = p
  · subst hq
    simp [Pools.rawData, Pools.next, Pools.pre, hnode]
  · simp [Pools.rawData, Pools.next, Pools.pre, Function.update_of_ne hq]

theorem data_of_setData (hs : s.setNode p (fun node => { node with data := data }) = some s')
    (q : Addr) : s'.data q = if q = p then data else s.data q := by
  rw [Pools.setNode, Option.map_eq_some_iff] at hs
  rcases hs with ⟨node, hnode, rfl⟩
  by_cases hq : q = p
  · subst hq
    simp [Pools.data]
  · simp [Pools.data, hq]

theorem held_of_setData (hs : s.setNode p (fun node => { node with data := data }) = some s') :
    s'.held = s.held := by
  rw [Pools.setNode, Option.map_eq_some_iff] at hs
  rcases hs with ⟨node, -, rfl⟩
  rfl

end SetData

/-- A step on the list of `type` that leaves the blocks and the other lists alone. -/
structure Frame (s s' : Pools) (type : UInt8) (L : Layout) : Prop where
  memList : ∀ type', type' ≠ type → s'.memList type' = s.memList type'
  typed : (s'.memList type).type = (s.memList type).type
  nodes : ∀ p, p ∉ L.nodes → s'.nodes p = s.nodes p
  raw : ∀ p, s'.rawData p = s.rawData p
  held : ∀ type', type' ≠ type → s'.held type' = s.held type'
  blocks : s'.blocks = s.blocks
  mem : s'.mem = s.mem
  config : s'.config = s.config
  memListInit : s'.memListInit = s.memListInit

theorem Frame.typeInv {L' : Layout} {type' : UInt8} {c' : Config} (hf : Frame s s' type L)
    (h : TypeInv s type c L) (h' : TypeInv s type' c' L') (hne : type' ≠ type) :
    TypeInv s' type' c' L' := by
  apply h'.frame (hf.memList type' hne)
  · intro p hp
    apply hf.nodes
    exact fun hmem => hne (h'.apart h hp hmem)
  · intro p hp b _ hb
    rw [hf.blocks, hf.mem]
    exact ⟨hb, rfl⟩
  · exact hf.held type' hne

namespace TypeInv

/-- Both calls move the border between the free and the used nodes and leave the links as they
are, so that only the new border and the blocks on its two sides are to be shown. -/
theorem move {p : Addr} {data : Option Nat} {tail : Option Addr} {held : List Nat} {M : Layout}
    (h : TypeInv s type c L) (hs : s.setNode p (fun node => { node with data := data }) = some s')
    (hhead : M.head = L.head) (hnodes : M.free ++ M.used = L.free ++ L.used)
    (htail : tail = backPtr some none (M.head :: M.free))
    (hfree : ∀ q ∈ M.free, (if q = p then data else s.data q).isSome)
    (hused : ∀ q ∈ M.used, (if q = p then data else s.data q) = none)
    (hperm : ((M.free.filterMap fun q => if q = p then data else s.data q).map (· + 1) ++
      held).Perm (((L.free ++ L.used).filterMap s.rawData).map (· + 1))) :
    TypeInv { s'.setList type { s.memList type with tail := tail } with
      held := Function.update s.held type held } type c M := by
  -- Only `data` of the node at `p` is written.
  have hraw := fun q => (rawData_of_setData hs q).1
  have hdata := data_of_setData hs
  have hother : s'.blocks = s.blocks ∧ s'.mem = s.mem := by
    rw [Pools.setNode, Option.map_eq_some_iff] at hs
    rcases hs with ⟨node, -, rfl⟩
    exact ⟨rfl, rfl⟩
  have hall : M.nodes = L.nodes := by rw [Layout.nodes, hhead, hnodes, Layout.nodes]
  have hlist : Function.update s'.memList type { s.memList type with tail := tail } type =
      { s.memList type with tail := tail } := Function.update_self ..
  refine ⟨?_, ?_, ?_, ?_, ?_, ?_, ?_, ?_, ?_, ?_, ?_⟩
  · show (Function.update s'.memList type _ type).valid = true
    rw [hlist]
    exact h.valid
  · show (Function.update s'.memList type _ type).head = _
    rw [hlist, hhead]
    exact h.head
  · show (Function.update s'.memList type _ type).tail = _
    rw [hlist]
    exact htail
  · rw [hall]
    exact h.links.congr fun q _ => (rawData_of_setData hs q).2
  · rw [hall]
    exact h.nodup
  · -- The blocks stay with their nodes, whichever side of the border these are on.
    rw [hall]
    intro q hq
    rcases h.block q hq with ⟨b, hb, hmem, hbyte⟩
    refine ⟨b, (hraw q).trans hb, ?_, ?_⟩
    · show _ ∈ s'.blocks
      rw [hother.1]
      exact hmem
    · show s'.mem b = type
      rw [hother.2]
      exact hbyte
  · rw [hall]
    show (L.nodes.filterMap s'.rawData).Nodup
    rw [List.filterMap_congr fun q _ => hraw q]
    exact h.raws
  · have hlength := congrArg List.length hnodes
    rw [List.length_append, List.length_append, h.length] at hlength
    exact hlength
  · intro q hq
    show (s'.data q).isSome
    rw [hdata q]
    exact hfree q hq
  · intro q hq
    show s'.data q = none
    rw [hdata q]
    exact hused q hq
  · show ((M.free.filterMap s'.data).map _ ++ Function.update s.held type held type).Perm
      (((M.free ++ M.used).filterMap s'.rawData).map _)
    rw [Function.update_self, hnodes, List.filterMap_congr fun q _ => hraw q,
      List.filterMap_congr fun q _ => hdata q]
    exact hperm

theorem newMemNode_of_empty (h : TypeInv s type c L) (hfree : L.free = []) :
    newMemNode s type = some (s, none) := by
  simp only [newMemNode, h.head]
  rw [if_neg (not_not.mpr (h.tail_of_empty hfree))]

theorem frame_setData {p : Addr} {data : Option Nat} {tail : Option Addr} {held : List Nat} (hp : p ∈ L.nodes)
    (hs : s.setNode p (fun node => { node with data := data }) = some s') :
    Frame s { s'.setList type { s.memList type with tail := tail } with
      held := Function.update s.held type held } type L := by
  have hraw := fun q => (rawData_of_setData hs q).1
  rw [Pools.setNode, Option.map_eq_some_iff] at hs
  rcases hs with ⟨node, -, rfl⟩
  refine ⟨?_, ?_, ?_, hraw, ?_, rfl, rfl, rfl, rfl⟩
  · exact fun type' hne => Function.update_of_ne hne ..
  · simp [Pools.setList]
  · intro q hq
    have hne : q ≠ p := by
      rintro rfl
      exact hq hp
    exact Function.update_of_ne hne ..
  · exact fun type' hne => Function.update_of_ne hne ..

/-- `new_mem_node` hands out the block of the last free node. -/
theorem newMemNode_of_append (h : TypeInv s type c L) {l : List Addr} {p : Addr}
    (hfree : L.free = l ++ [p]) :
    ∃ s' b, newMemNode s type = some (s', some (b + 1)) ∧ s'.held = s.held ∧
      TypeInv { s' with held := Function.update s.held type ((b + 1) :: s.held type) } type c
        ⟨L.head, l, p :: L.used⟩ ∧
      Frame s { s' with held := Function.update s.held type ((b + 1) :: s.held type) } type L := by
  have hp : p ∈ L.free := by rw [hfree]; exact List.mem_append_right _ (List.mem_singleton_self p)
  rcases h.live (Layout.free_mem hp) with ⟨node, hnode⟩
  rcases Option.isSome_iff_exists.mp (h.freeData p hp) with ⟨b, hb⟩
  have hdata : node.data = some b := by
    rw [Pools.data, hnode] at hb
    exact hb
  have hnodes : L.nodes = (L.head :: l) ++ p :: L.used := by
    rw [Layout.nodes, hfree, List.append_assoc]
    rfl
  -- The new tail is the node before, which may be the sentinel.
  have hpre : node.pre = backPtr some none (L.head :: l) := by
    have hlinks := h.links
    rw [hnodes] at hlinks
    have hpre := hlinks.pre_of
    rw [Pools.pre, hnode] at hpre
    exact hpre
  have hnodup := h.nodup
  rw [hnodes, List.nodup_append] at hnodup
  have hne : ∀ q ∈ L.head :: l, q ≠ p := fun q hq => hnodup.2.2 q hq p List.mem_cons_self
  have hl : ∀ q ∈ l, q ≠ p := fun q hq => hne q (List.mem_cons_of_mem _ hq)
  have hset : ∃ s₁, s.setNode p (fun node => { node with data := none }) = some s₁ :=
    ⟨_, by rw [Pools.setNode, hnode]; rfl⟩
  rcases hset with ⟨s₁, hset⟩
  refine ⟨s₁.setList type { s.memList type with tail := node.pre }, b, ?_, (held_of_setData hset :), ?_, ?_⟩
  · have htail : some p ≠ some L.head := by
      intro heq
      exact hne L.head List.mem_cons_self (Option.some.inj heq).symm
    simp only [newMemNode, h.head, h.tail_of_append hfree]
    rw [if_pos htail]
    simp [hnode, hdata, hset]
  · apply h.move (M := ⟨L.head, l, p :: L.used⟩) hset rfl ?_ hpre
    · intro q hq
      rw [if_neg (hl q hq)]
      exact h.freeData q (by rw [hfree]; exact List.mem_append_left _ hq)
    · intro q hq
      by_cases hqp : q = p
      · rw [if_pos hqp]
      · rw [if_neg hqp]
        exact h.usedData q ((List.mem_cons.mp hq).resolve_left hqp)
    · -- The block moves from the end of the free ones to the front of those handed out.
      apply List.Perm.trans ?_ h.perm
      have hlast : L.free.filterMap s.data = l.filterMap s.data ++ [b] := by
        rw [hfree, List.filterMap_append]
        simp [hb]
      have hkeep : (l.filterMap fun q => if q = p then none else s.data q) = l.filterMap s.data :=
        List.filterMap_congr fun q hq => if_neg (hl q hq)
      rw [hkeep, hlast, List.map_append, List.append_assoc]
      exact List.Perm.refl _
    · rw [hfree, List.append_assoc]
      rfl
  · exact frame_setData (Layout.free_mem hp) hset

/-- `free_mem_node` finds the list by the byte in front of the block. -/
theorem freeMemNode_eq (h : TypeInv s type c L) {b : Nat} {p : Addr} {used : List Addr}
    (hused : L.used = p :: used) (hbyte : s.mem b = type)
    (hset : s.setNode p (fun node => { node with data := some b }) = some s') :
    freeMemNode s (b + 1) = some (s'.setList type { s.memList type with tail := some p }) := by
  rcases L.exists_last with ⟨t, l, hl⟩
  have hnext := h.next_tail hl hused
  rw [Pools.next, Option.bind_eq_some_iff] at hnext
  rcases hnext with ⟨tnode, htnode, hnext⟩
  simp only [freeMemNode, Nat.add_sub_cancel, hbyte, h.tail_of_last hl]
  simp [htnode, hnext, hset]

/-- `free_mem_node` puts the block back into the first used node. -/
theorem freeMemNode_of_held (h : TypeInv s type c L) {addr : Nat} (ha : addr ∈ s.held type) :
    ∃ s' p used, L.used = p :: used ∧ freeMemNode s addr = some s' ∧ s'.held = s.held ∧
      TypeInv { s' with held := Function.update s.held type ((s.held type).erase addr) } type c
        ⟨L.head, L.free ++ [p], used⟩ ∧
      Frame s { s' with held := Function.update s.held type ((s.held type).erase addr) } type L := by
  rcases h.held_block ha with ⟨-, -, b, -, rfl, -, hbyte⟩
  -- Something is handed out, so some node is used.
  have hused : ∃ p used, L.used = p :: used := by
    apply List.exists_cons_of_length_pos
    have hlength := h.length
    have hconserved := h.held_length
    have hpos := List.length_pos_of_mem ha
    omega
  rcases hused with ⟨p, used, hused⟩
  have hp : p ∈ L.nodes := Layout.used_mem (by rw [hused]; exact List.mem_cons_self)
  rcases h.live hp with ⟨pnode, hpnode⟩
  have hnodes : L.nodes = (L.head :: L.free) ++ p :: used := by
    rw [Layout.nodes, hused]
    rfl
  have hnodup := h.nodup
  rw [hnodes, List.nodup_append] at hnodup
  have hfree : ∀ q ∈ L.free, q ≠ p :=
    fun q hq => hnodup.2.2 q (List.mem_cons_of_mem _ hq) p List.mem_cons_self
  have hunused : ∀ q ∈ used, q ≠ p := by
    rintro q hq rfl
    exact (List.nodup_cons.mp hnodup.2.1).1 hq
  have hset : ∃ s₁, s.setNode p (fun node => { node with data := some b }) = some s₁ :=
    ⟨_, by rw [Pools.setNode, hpnode]; rfl⟩
  rcases hset with ⟨s₁, hset⟩
  refine ⟨s₁.setList type { s.memList type with tail := some p }, p, used, hused,
    h.freeMemNode_eq hused hbyte hset, (held_of_setData hset :), ?_, ?_⟩
  · apply h.move (M := ⟨L.head, L.free ++ [p], used⟩) hset rfl
    · rw [hused, List.append_assoc]
      rfl
    · rw [← List.cons_append, backPtr_append]
      rfl
    · intro q hq
      by_cases hqp : q = p
      · rw [if_pos hqp]
        rfl
      · rw [if_neg hqp]
        rcases List.mem_append.mp hq with hq | hq
        · exact h.freeData q hq
        · exact absurd (List.mem_singleton.mp hq) hqp
    · intro q hq
      rw [if_neg (hunused q hq)]
      exact h.usedData q (by rw [hused]; exact List.mem_cons_of_mem _ hq)
    · apply List.Perm.trans ?_ h.perm
      have hkeep : (L.free.filterMap fun q => if q = p then some b else s.data q) =
          L.free.filterMap s.data :=
        List.filterMap_congr fun q hq => if_neg (hfree q hq)
      have hlast : ([p].filterMap fun q => if q = p then some b else s.data q) = [b] := by simp
      rw [List.filterMap_append, hkeep, hlast, List.map_append, List.append_assoc]
      apply List.Perm.append_left
      exact (List.perm_cons_erase ha).symm
  · exact frame_setData hp hset

end TypeInv

end CcPof.MemPool
