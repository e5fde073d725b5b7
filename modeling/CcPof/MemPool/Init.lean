import CcPof.MemPool.HeapLog
import CcPof.MemPool.Lists
import Mathlib.Data.List.Pairwise

/-!
# Setting up a list

`init_mem_list` links every new node behind the first one. If `malloc` fails, the nodes and blocks
that it has are freed again and the type is as before.
-/

namespace CcPof.MemPool

variable {s₀ s s' : Pools} {type : UInt8} {size : Nat} {ps : List Addr}

/-! ## 1. Blocks -/

/-- Two blocks have no byte in common. -/
def Apart (e f : Nat × Nat) : Prop := e.1 + e.2 ≤ f.1 ∨ f.1 + f.2 ≤ e.1

instance : Std.Symm Apart := ⟨fun _ _ h => Or.symm h⟩

/-- What `malloc` promises of the live blocks. -/
structure BlocksOk (blocks : List (Nat × Nat)) : Prop where
  apart : blocks.Pairwise Apart
  pos : ∀ e ∈ blocks, 0 < e.2

theorem freshBlock_iff {b n : Nat} :
    freshBlock s b n = true ↔ ∀ e ∈ s.blocks, Apart (b, n) e := by
  simp only [freshBlock, List.all_eq_true, Bool.or_eq_true, decide_eq_true_eq, Apart]
  constructor
  · intro h e he
    exact (h e he).symm
  · intro h e he
    exact (h e he).symm

theorem BlocksOk.cons {blocks : List (Nat × Nat)} {e : Nat × Nat} (h : BlocksOk blocks)
    (hfresh : ∀ f ∈ blocks, Apart e f) (hpos : 0 < e.2) : BlocksOk (e :: blocks) := by
  refine ⟨List.pairwise_cons.mpr ⟨hfresh, h.apart⟩, ?_⟩
  intro f hf
  rcases List.mem_cons.mp hf with rfl | hf
  · exact hpos
  · exact h.pos f hf

theorem Apart.ne {e f : Nat × Nat} (h : Apart e f) (he : 0 < e.2) (hf : 0 < f.2) : e.1 ≠ f.1 := by
  unfold Apart at h
  omega

/-- Two blocks with a common byte are one. -/
theorem BlocksOk.eq_of_byte {blocks : List (Nat × Nat)} (h : BlocksOk blocks) {e f : Nat × Nat}
    (he : e ∈ blocks) (hf : f ∈ blocks) {x : Nat} (hxe : e.1 ≤ x ∧ x < e.1 + e.2)
    (hxf : f.1 ≤ x ∧ x < f.1 + f.2) : e = f := by
  by_contra hne
  have hapart : Apart e f := h.apart.forall he hf hne
  unfold Apart at hapart
  omega

/-! ## 2. The list under construction -/

/-- `init_mem_list` in its loop: it started in `s₀` and has linked the nodes `ps`. -/
structure Building (s₀ s : Pools) (type : UInt8) (size : Nat) (ps : List Addr) : Prop where
  list : ∃ tail, s.memList type = ⟨ps.head?, tail, type, true⟩ ∧ (ps ≠ [] → tail = ps.head?)
  links : DSeg some s.next s.pre none ps none
  nodup : ps.Nodup
  fresh : ∀ p ∈ ps, s₀.nodes p = none
  block : ∀ p ∈ ps, ∃ b, s.rawData p = some b ∧ s.data p = some b ∧ (b, size + 1) ∈ s.blocks ∧
    s.mem b = type ∧ ∀ e ∈ s₀.blocks, e.1 ≠ b
  raws : (ps.filterMap s.rawData).Nodup
  memList : ∀ type', type' ≠ type → s.memList type' = s₀.memList type'
  nodes : ∀ p, p ∉ ps → s.nodes p = s₀.nodes p
  held : s.held = s₀.held
  config : s.config = s₀.config
  memListInit : s.memListInit = s₀.memListInit
  blocks : ∀ e ∈ s₀.blocks, e ∈ s.blocks
  only : ∀ e ∈ s.blocks, e ∈ s₀.blocks ∨ ∃ p ∈ ps, s.rawData p = some e.1
  mem : ∀ e ∈ s₀.blocks, s.mem e.1 = s₀.mem e.1
  ok : BlocksOk s.blocks

/-- A round has put the block `b` into the node `p`; the nodes `ps` keep theirs. -/
structure Linked (s s' : Pools) (size : Nat) (p : Addr) (b : Nat) (ps : List Addr) : Prop where
  blocks : s'.blocks = (b, size + 1) :: s.blocks
  data : s'.data p = some b
  others : ∀ q ∈ ps, s'.data q = s.data q

/-- The nodes after one round: the new one comes behind the first one. -/
def linkedNodes (s : Pools) (p : Addr) (b : Nat) (head : Addr) (node : MemNode) (q : Addr) :
    Option MemNode :=
  if q = p then some ⟨some b, some b, node.next, some head⟩
  else if q = head then some { node with next := some p }
  else if node.next = some q then (s.nodes q).map fun n => { n with pre := some p }
  else s.nodes q

theorem linkNode_cons {head p : Addr} {b : Nat} {node : MemNode} {l : MemList}
    (hlist : s.memList type = l) (hhead : l.head = some head) (hnode : s.nodes head = some node)
    (hp : p ≠ head) (hnext : ∀ q, node.next = some q → q ≠ p ∧ q ≠ head ∧ (s.nodes q).isSome) :
    linkNode s type p b =
      some { s with nodes := linkedNodes s p b head node, mem := put8 s.mem b type } := by
  have hp' : head ≠ p := fun heq => hp heq.symm
  cases hn : node.next with
  | none =>
    have hlinked : linkedNodes s p b head node =
        Function.update (Function.update (Function.update s.nodes p
          (some ⟨some b, some b, none, none⟩)) head (some { node with next := some p })) p
          (some ⟨some b, some b, none, some head⟩) := by
      funext q
      by_cases hqp : q = p
      · simp [linkedNodes, hqp, hn]
      · by_cases hqh : q = head
        · simp [linkedNodes, hqh, hp']
        · simp [linkedNodes, hqp, hqh, hn]
    rw [hlinked]
    simp [linkNode, hlist, hhead, Pools.setNode, Pools.next, hnode, hn, hp, hp']
  | some x =>
    rcases hnext x hn with ⟨hxp, hxh, hx⟩
    rcases Option.isSome_iff_exists.mp hx with ⟨xnode, hxnode⟩
    have hlinked : linkedNodes s p b head node =
        Function.update (Function.update (Function.update (Function.update s.nodes p
          (some ⟨some b, some b, some x, none⟩)) head (some { node with next := some p })) p
          (some ⟨some b, some b, some x, some head⟩)) x (some { xnode with pre := some p }) := by
      funext q
      by_cases hqx : q = x
      · simp [linkedNodes, hqx, hxp, hxh, hn, hxnode]
      · have hxq : x ≠ q := fun heq => hqx heq.symm
        by_cases hqp : q = p
        · simp [linkedNodes, hqp, hn, Ne.symm hxp]
        · by_cases hqh : q = head
          · simp [linkedNodes, hqh, hp', Ne.symm hxh]
          · simp [linkedNodes, hqp, hqh, hqx, hxq, hn]
    rw [hlinked]
    simp [linkNode, hlist, hhead, Pools.setNode, Pools.next, hnode, hn, hp, hp', hxp, hxh, hxnode]

theorem linkedNodes_other {p q head : Addr} {b : Nat} {node : MemNode} (hqp : q ≠ p)
    (hqh : q ≠ head) (hq : node.next ≠ some q) : linkedNodes s p b head node q = s.nodes q := by
  rw [linkedNodes, if_neg hqp, if_neg hqh, if_neg hq]

/-- Linking leaves the data of the other nodes alone. -/
theorem linkedNodes_data {p q head : Addr} {b : Nat} {node : MemNode}
    (hnode : s.nodes head = some node) (hqp : q ≠ p) :
    (linkedNodes s p b head node q).bind (·.rawData) = (s.nodes q).bind (·.rawData) ∧
      (linkedNodes s p b head node q).bind (·.data) = (s.nodes q).bind (·.data) := by
  rw [linkedNodes, if_neg hqp]
  by_cases hqh : q = head
  · subst hqh
    rw [if_pos rfl, hnode]
    exact ⟨rfl, rfl⟩
  · rw [if_neg hqh]
    split
    · cases s.nodes q with
      | none => exact ⟨rfl, rfl⟩
      | some n => exact ⟨rfl, rfl⟩
    · exact ⟨rfl, rfl⟩

/-- Where the loop puts a new node. -/
def insertSecond (p : Addr) : List Addr → List Addr
  | [] => [p]
  | head :: l => head :: p :: l

theorem length_insertSecond (p : Addr) (l : List Addr) :
    (insertSecond p l).length = l.length + 1 := by
  cases l <;> rfl

theorem mem_insertSecond {p q : Addr} {l : List Addr} :
    q ∈ insertSecond p l ↔ q = p ∨ q ∈ l := by
  cases l with
  | nil => simp [insertSecond]
  | cons head l =>
    simp only [insertSecond, List.mem_cons]
    tauto

theorem perm_insertSecond (p : Addr) (l : List Addr) : (insertSecond p l).Perm (p :: l) := by
  cases l with
  | nil => exact List.Perm.refl _
  | cons head l => exact List.Perm.swap p head l

namespace Building

theorem live (h : Building s₀ s type size ps) {p : Addr} (hp : p ∈ ps) :
    ∃ node, s.nodes p = some node := by
  rcases h.block p hp with ⟨b, hb, -⟩
  rw [Pools.rawData, Option.bind_eq_some_iff] at hb
  rcases hb with ⟨node, hnode, -⟩
  exact ⟨node, hnode⟩

theorem ne_fresh (h : Building s₀ s type size ps) {p q : Addr} (hp : s.nodes p = none)
    (hq : q ∈ ps) : q ≠ p := by
  rintro rfl
  rcases h.live hq with ⟨node, hnode⟩
  rw [hp] at hnode
  cases hnode

/-- One more node, whatever way it was linked: what is left to show are the links. -/
theorem insert (h : Building s₀ s type size ps) {p : Addr} {b : Nat} (hp : s.nodes p = none)
    (hb : freshBlock s b (size + 1) = true) (hblocks : s'.blocks = (b, size + 1) :: s.blocks)
    (hmem : s'.mem = put8 s.mem b type) (hheld : s'.held = s.held) (hconfig : s'.config = s.config)
    (hinit : s'.memListInit = s.memListInit)
    (hmemList : ∀ type', type' ≠ type → s'.memList type' = s.memList type')
    (hlist : s'.memList type = ⟨(insertSecond p ps).head?, (insertSecond p ps).head?, type, true⟩)
    (hself : s'.rawData p = some b ∧ s'.data p = some b)
    (hother : ∀ q ∈ ps, s'.rawData q = s.rawData q ∧ s'.data q = s.data q)
    (hnodes : ∀ q, q ∉ insertSecond p ps → s'.nodes q = s.nodes q)
    (hlinks : DSeg some s'.next s'.pre none (insertSecond p ps) none) :
    Building s₀ s' type size (insertSecond p ps) := by
  have hpps : p ∉ ps := fun hmem => h.ne_fresh hp hmem rfl
  have hapart := freshBlock_iff.mp hb
  have hne : ∀ e ∈ s.blocks, e.1 ≠ b :=
    fun e he => ((hapart e he).ne (Nat.succ_pos size) (h.ok.pos e he)).symm
  -- The type byte goes into the new block, so those of the old blocks stay.
  have hbyte : ∀ e ∈ s.blocks, s'.mem e.1 = s.mem e.1 := by
    intro e he
    rw [hmem]
    apply put8_outside
    have := hne e he
    omega
  exact {
    list := ⟨_, hlist, fun _ => rfl⟩
    links := hlinks
    nodup := (perm_insertSecond p ps).nodup_iff.mpr (List.nodup_cons.mpr ⟨hpps, h.nodup⟩)
    fresh := by
      intro q hq
      rcases mem_insertSecond.mp hq with rfl | hq
      · rw [← h.nodes q hpps]
        exact hp
      · exact h.fresh q hq
    block := by
      intro q hq
      rcases mem_insertSecond.mp hq with rfl | hq
      · refine ⟨b, hself.1, hself.2, ?_, ?_, fun e he => hne e (h.blocks e he)⟩
        · rw [hblocks]
          exact List.mem_cons_self
        · rw [hmem]
          exact put8_same ..
      · rcases h.block q hq with ⟨c, hraw, hdata, hc, hctype, hold⟩
        refine ⟨c, (hother q hq).1.trans hraw, (hother q hq).2.trans hdata, ?_, ?_, hold⟩
        · rw [hblocks]
          exact List.mem_cons_of_mem _ hc
        · exact (hbyte _ hc).trans hctype
    raws := by
      have hperm := (perm_insertSecond p ps).filterMap s'.rawData
      rw [hperm.nodup_iff, List.filterMap_cons_some hself.1,
        List.filterMap_congr fun q hq => (hother q hq).1, List.nodup_cons]
      refine ⟨?_, h.raws⟩
      -- The new block is apart from those that the nodes before it have.
      intro hmem
      rcases List.mem_filterMap.mp hmem with ⟨q, hq, hraw⟩
      rcases h.block q hq with ⟨c, hraw', -, hc, -, -⟩
      rw [hraw] at hraw'
      cases hraw'
      exact hne _ hc rfl
    memList := fun type' htype => (hmemList type' htype).trans (h.memList type' htype)
    nodes := by
      intro q hq
      rw [hnodes q hq]
      exact h.nodes q fun hmem => hq (mem_insertSecond.mpr (Or.inr hmem))
    held := hheld.trans h.held
    config := hconfig.trans h.config
    memListInit := hinit.trans h.memListInit
    blocks := by
      intro e he
      rw [hblocks]
      exact List.mem_cons_of_mem _ (h.blocks e he)
    only := by
      intro e he
      rw [hblocks] at he
      rcases List.mem_cons.mp he with rfl | he
      · exact Or.inr ⟨p, mem_insertSecond.mpr (Or.inl rfl), hself.1⟩
      · refine (h.only e he).imp_right ?_
        rintro ⟨q, hq, hraw⟩
        exact ⟨q, mem_insertSecond.mpr (Or.inr hq), (hother q hq).1.trans hraw⟩
    mem := fun e he => (hbyte e (h.blocks e he)).trans (h.mem e he)
    ok := by
      rw [hblocks]
      exact h.ok.cons hapart (Nat.succ_pos size) }

theorem link_nil (h : Building s₀ s type size []) {p : Addr} {b : Nat} (hp : s.nodes p = none)
    (hb : freshBlock s b (size + 1) = true) :
    ∃ s', linkNode { s with blocks := (b, size + 1) :: s.blocks } type p b = some s' ∧
      Linked s s' size p b [] ∧ Building s₀ s' type size [p] := by
  rcases h.list with ⟨tail, hlist, -⟩
  have hhead : (s.memList type).head = none := by rw [hlist]; rfl
  have hlink : linkNode { s with blocks := (b, size + 1) :: s.blocks } type p b = some
      { s with
        blocks := (b, size + 1) :: s.blocks
        nodes := Function.update s.nodes p (some ⟨some b, some b, none, none⟩)
        mem := put8 s.mem b type
        memList := Function.update s.memList type
          { s.memList type with head := some p, tail := some p } } := by
    simp only [linkNode, hhead, Pools.setList]
  refine ⟨_, hlink, ⟨rfl, ?_, ?_⟩, h.insert hp hb rfl rfl rfl rfl rfl ?_ ?_ ?_
    (fun _ hx => absurd hx List.not_mem_nil) ?_ ?_⟩
  · simp [Pools.data]
  · exact fun _ hx => absurd hx List.not_mem_nil
  · exact fun type' htype => Function.update_of_ne htype ..
  · simp [hlist, insertSecond]
  · simp [Pools.rawData, Pools.data]
  · intro q hq
    exact Function.update_of_ne (fun heq => hq (List.mem_singleton.mpr heq)) ..
  · simp [DSeg, insertSecond, Pools.next, Pools.pre]

/-- The links around the first node: the new one stands behind it. -/
theorem links_linked {head p : Addr} {b : Nat} {l : List Addr} {node : MemNode}
    (h : Building s₀ s type size (head :: l)) (hp : s.nodes p = none)
    (hnode : s.nodes head = some node) (hs' : s'.nodes = linkedNodes s p b head node) :
    DSeg some s'.next s'.pre none (head :: p :: l) none := by
  have hpre : node.pre = none := by
    have hpre := h.links.1
    rwa [Pools.pre, hnode] at hpre
  have hnext : node.next = frontPtr some l none := by
    have hnext := h.links.2.1
    rwa [Pools.next, hnode] at hnext
  have hne : ∀ q ∈ head :: l, q ≠ p := fun q hq => h.ne_fresh hp hq
  have hhead : head ∉ l := (List.nodup_cons.mp h.nodup).1
  have hph : p ≠ head := (hne head List.mem_cons_self).symm
  refine ⟨?_, ?_, ?_, ?_, ?_⟩
  · simpa [Pools.pre, hs', linkedNodes, Ne.symm hph] using hpre
  · simp [Pools.next, hs', linkedNodes, Ne.symm hph]
  · simp [Pools.pre, hs', linkedNodes]
  · simpa [Pools.next, hs', linkedNodes] using hnext
  · cases l with
    | nil => trivial
    | cons x l =>
      -- The old second node points back to the new one; behind it nothing changes.
      have hxp : x ≠ p := hne x (List.mem_cons_of_mem _ List.mem_cons_self)
      have hxh : x ≠ head := fun heq => hhead (heq ▸ List.mem_cons_self)
      rcases h.live (List.mem_cons_of_mem _ List.mem_cons_self) with ⟨xnode, hxnode⟩
      have hx : node.next = some x := hnext
      apply h.links.2.2.congr_front
      · simp [Pools.next, Pools.pre, hs', linkedNodes, hxp, hxh, hx, hxnode]
      · intro q hq
        have hqx : some x ≠ some q := by
          intro heq
          cases heq
          exact (List.nodup_cons.mp (List.nodup_cons.mp h.nodup).2).1 hq
        have hql : q ∈ x :: l := List.mem_cons_of_mem _ hq
        have hqh : q ≠ head := fun heq => hhead (heq ▸ hql)
        have hqn : node.next ≠ some q := hx ▸ hqx
        have hsame := linkedNodes_other (s := s) (b := b) (hne q (List.mem_cons_of_mem _ hql)) hqh hqn
        simp only [Pools.next, Pools.pre, hs', hsame, and_self]

theorem link_cons {head : Addr} {l : List Addr} (h : Building s₀ s type size (head :: l))
    {p : Addr} {b : Nat} (hp : s.nodes p = none) (hb : freshBlock s b (size + 1) = true) :
    ∃ s', linkNode { s with blocks := (b, size + 1) :: s.blocks } type p b = some s' ∧
      Linked s s' size p b (head :: l) ∧ Building s₀ s' type size (head :: p :: l) := by
  rcases h.list with ⟨tail, hlist, htail⟩
  rw [htail (List.cons_ne_nil head l)] at hlist
  rcases h.live List.mem_cons_self with ⟨node, hnode⟩
  have hnext : node.next = frontPtr some l none := by
    have hnext := h.links.2.1
    rwa [Pools.next, hnode] at hnext
  have hne : ∀ q ∈ head :: l, q ≠ p := fun q hq => h.ne_fresh hp hq
  have hhead : head ∉ l := (List.nodup_cons.mp h.nodup).1
  -- The code writes through the next pointer of the first node.
  have hsecond : ∀ q, node.next = some q → q ∈ l := by
    intro q hq
    rw [hnext] at hq
    cases l with
    | nil => cases hq
    | cons x l =>
      cases hq
      exact List.mem_cons_self
  have hlink := linkNode_cons (s := { s with blocks := (b, size + 1) :: s.blocks }) (b := b) hlist
    rfl hnode (hne head List.mem_cons_self).symm (by
      intro q hq
      have hql := hsecond q hq
      have hq := List.mem_cons_of_mem head hql
      rcases h.live hq with ⟨qnode, hqnode⟩
      refine ⟨hne q hq, fun heq => hhead (heq ▸ hql), ?_⟩
      show (s.nodes q).isSome
      rw [hqnode]
      rfl)
  refine ⟨_, hlink, ⟨rfl, ?_, fun q hq => (linkedNodes_data hnode (hne q hq)).2⟩,
    h.insert hp hb rfl rfl rfl rfl rfl ?_ ?_ ?_ ?_ ?_ ?_⟩
  · simp [Pools.data, linkedNodes]
  · exact fun _ _ => rfl
  · exact hlist
  · simp [Pools.rawData, Pools.data, linkedNodes]
  · exact fun q hq => linkedNodes_data hnode (hne q hq)
  · intro q hq
    rw [insertSecond, List.mem_cons, List.mem_cons, not_or, not_or] at hq
    apply linkedNodes_other hq.2.1 hq.1
    exact fun hqn => hq.2.2 (hsecond q hqn)
  · exact h.links_linked hp hnode rfl

theorem link (h : Building s₀ s type size ps) {p : Addr} {b : Nat} (hp : s.nodes p = none)
    (hb : freshBlock s b (size + 1) = true) :
    ∃ s', linkNode { s with blocks := (b, size + 1) :: s.blocks } type p b = some s' ∧
      Linked s s' size p b ps ∧ Building s₀ s' type size (insertSecond p ps) := by
  cases ps with
  | nil => exact h.link_nil hp hb
  | cons head l => exact h.link_cons hp hb

end Building

/-! ## 3. The loops -/

/-- The loop ends with `n` more nodes, or at `err` with fewer. -/
theorem initLoop_building {n : Nat} {mallocs : List (Option Nat)} {r : LoopEnd}
    (h : Building s₀ s type size ps) (hr : initLoop type size n mallocs s = some r) :
    match r with
    | .done s' => ∃ ps', Building s₀ s' type size ps' ∧ ps'.length = ps.length + n
    | .err s' => ∃ ps', Building s₀ s' type size ps' ∧ ps'.length < ps.length + n := by
  induction n generalizing s ps mallocs with
  | zero =>
    rw [initLoop] at hr
    cases hr
    exact ⟨ps, h, rfl⟩
  | succ n ih =>
    cases mallocs with
    | nil => cases hr
    | cons node mallocs =>
      cases node with
      | none =>
        cases hr
        exact ⟨ps, h, by omega⟩
      | some p =>
        cases mallocs with
        | nil => cases hr
        | cons block mallocs =>
          cases block with
          | none =>
            -- The second `malloc` failed: the node is freed, and the list is as it was.
            rw [initLoop] at hr
            split at hr
            · cases hr
              exact ⟨ps, h, by omega⟩
            · cases hr
          | some b =>
            rw [initLoop] at hr
            split at hr
            · rename_i hfresh
              rcases h.link hfresh.1 hfresh.2 with ⟨s₁, hlink, -, h₁⟩
              rw [hlink] at hr
              have hend := ih h₁ hr
              rw [length_insertSecond] at hend
              cases r with
              | done s' =>
                rcases hend with ⟨ps', hps, hlength⟩
                exact ⟨ps', hps, by omega⟩
              | err s' =>
                rcases hend with ⟨ps', hps, hlength⟩
                exact ⟨ps', hps, by omega⟩
            · cases hr

/-- What `malloc` returns in the loop of `init_mem_list` when it never fails. -/
def mallocsOf (ms : List (Addr × Nat)) : List (Option Nat) :=
  ms.flatMap fun m => [some m.1, some m.2]

def cellsOf (ms : List (Addr × Nat)) : List Cell := ms.flatMap fun m => [.node m.1, .block m.2]

/-- The nodes and blocks `ms` are what `malloc` may return. -/
structure Fresh (s : Pools) (size : Nat) (ms : List (Addr × Nat)) : Prop where
  nodup : (ms.map (·.1)).Nodup
  nodes : ∀ m ∈ ms, s.nodes m.1 = none
  apart : (ms.map fun m => (m.2, size + 1)).Pairwise Apart
  blocks : ∀ m ∈ ms, freshBlock s m.2 (size + 1) = true

theorem Fresh.congr {ms : List (Addr × Nat)} (h : Fresh s size ms) (hnodes : s'.nodes = s.nodes)
    (hblocks : s'.blocks = s.blocks) : Fresh s' size ms := by
  refine ⟨h.nodup, ?_, h.apart, ?_⟩
  · rw [hnodes]
    exact h.nodes
  · simp only [freshBlock, hblocks]
    exact h.blocks

/-- After a round with the first of them the others are still fresh. -/
theorem Fresh.linked {m : Addr × Nat} {ms : List (Addr × Nat)} (hfresh : Fresh s size (m :: ms))
    (h : Building s₀ s type size ps) (hlinked : Linked s s' size m.1 m.2 ps)
    (h' : Building s₀ s' type size (insertSecond m.1 ps)) : Fresh s' size ms := by
  have hnodup := hfresh.nodup
  have hapart := hfresh.apart
  rw [List.map_cons, List.nodup_cons] at hnodup
  rw [List.map_cons, List.pairwise_cons] at hapart
  refine ⟨hnodup.2, ?_, hapart.2, ?_⟩
  · intro m' hm'
    have hfree := hfresh.nodes m' (List.mem_cons_of_mem _ hm')
    -- The address is neither the new node's nor that of one linked before.
    have hne : m'.1 ≠ m.1 := by
      intro heq
      exact hnodup.1 (heq ▸ List.mem_map.mpr ⟨m', hm', rfl⟩)
    have hps : m'.1 ∉ ps := fun hmem => h.ne_fresh hfree hmem rfl
    rw [h'.nodes m'.1 fun hmem => (mem_insertSecond.mp hmem).elim hne hps, ← h.nodes m'.1 hps]
    exact hfree
  · intro m' hm'
    rw [freshBlock_iff, hlinked.blocks]
    intro e he
    rcases List.mem_cons.mp he with rfl | he
    · exact Or.symm (hapart.1 _ (List.mem_map.mpr ⟨m', hm', rfl⟩))
    · exact freshBlock_iff.mp (hfresh.blocks m' (List.mem_cons_of_mem _ hm')) e he

/-- The rounds for `ms` are full rounds; the loop goes on with `k` rounds and the other answers. -/
theorem initLoopLog_mallocsOf {ms : List (Addr × Nat)} {k : Nat} {rest : List (Option Nat)}
    (h : Building s₀ s type size ps) (hfresh : Fresh s size ms) :
    ∃ s₁ ps₁, Building s₀ s₁ type size ps₁ ∧ ps₁.Perm (ms.map (·.1) ++ ps) ∧
      (∀ m ∈ ms, s₁.data m.1 = some m.2) ∧ (∀ q ∈ ps, s₁.data q = s.data q) ∧
      initLoopLog type size (ms.length + k) (mallocsOf ms ++ rest) s =
        (initLoopLog type size k rest s₁).map fun r =>
          (r.1, ⟨cellsOf ms ++ r.2.malloced, r.2.freed⟩) := by
  induction ms generalizing s ps with
  | nil =>
    refine ⟨s, ps, h, List.Perm.refl ps, nofun, fun _ _ => rfl, ?_⟩
    rw [List.length_nil, Nat.zero_add]
    exact Option.map_id'.symm
  | cons m ms ih =>
    have hm := hfresh.nodes m List.mem_cons_self
    have hb := hfresh.blocks m List.mem_cons_self
    rcases h.link hm hb with ⟨s', hlink, hlinked, h'⟩
    rcases ih h' (hfresh.linked h hlinked h') with ⟨s₁, ps₁, h₁, hperm, hdata, hothers, hloop⟩
    have hround : initLoopLog type size ((ms.length + k) + 1)
        (some m.1 :: some m.2 :: (mallocsOf ms ++ rest)) s =
        (initLoopLog type size (ms.length + k) (mallocsOf ms ++ rest) s').map fun r =>
          (r.1, ⟨.node m.1 :: .block m.2 :: r.2.malloced, r.2.freed⟩) := by
      rw [initLoopLog, if_pos ⟨hm, hb⟩, hlink, Option.map_eq_bind]
      rfl
    refine ⟨s₁, ps₁, h₁, ?_, ?_, ?_, ?_⟩
    · -- The new node stands behind the first one, the later ones in front of it.
      refine hperm.trans (((perm_insertSecond m.1 ps).append_left _).trans ?_)
      exact List.perm_middle
    · intro m' hm'
      rcases List.mem_cons.mp hm' with rfl | hm'
      · rw [hothers _ (mem_insertSecond.mpr (Or.inl rfl)), hlinked.data]
      · exact hdata m' hm'
    · intro q hq
      rw [hothers q (mem_insertSecond.mpr (Or.inr hq)), hlinked.others q hq]
    · rw [List.length_cons, Nat.add_right_comm]
      apply hround.trans
      rw [hloop, Option.map_map]
      rfl

/-- The walk to the end of the list finds its last node. -/
theorem walkTail_eq {before : Option Addr} {p : Addr} {l : List Addr} {n : Nat}
    (hlinks : DSeg some s.next s.pre before (p :: l) none) (hlive : ∀ q ∈ p :: l, (s.nodes q).isSome)
    (hn : l.length < n) : walkTail s n p = backPtr some none (p :: l) := by
  induction l generalizing before p n with
  | nil =>
    rcases Option.isSome_iff_exists.mp (hlive p List.mem_cons_self) with ⟨node, hnode⟩
    have hnext := hlinks.2.1
    rw [Pools.next, hnode] at hnext
    have hnext : node.next = none := hnext
    obtain ⟨m, rfl⟩ := Nat.exists_eq_succ_of_ne_zero (Nat.ne_of_gt hn)
    simp [walkTail, hnode, hnext]
  | cons q l ih =>
    rcases Option.isSome_iff_exists.mp (hlive p List.mem_cons_self) with ⟨node, hnode⟩
    have hnext := hlinks.2.1
    rw [Pools.next, hnode] at hnext
    have hnext : node.next = some q := hnext
    rw [List.length_cons] at hn
    obtain ⟨m, rfl⟩ := Nat.exists_eq_succ_of_ne_zero (Nat.ne_of_gt (Nat.lt_of_le_of_lt (Nat.zero_le _) hn))
    simp only [walkTail, hnode, hnext, Option.bind_eq_bind, Option.bind_some]
    exact ih hlinks.2.2 (fun x hx => hlive x (List.mem_cons_of_mem _ hx)) (by omega)

/-- The state after one round of a loop that frees a list. -/
def freeRound (s : Pools) (type : UInt8) (p : Addr) (b : Nat) (next : Option Addr) : Pools :=
  { s with
    memList := Function.update s.memList type { s.memList type with head := next }
    blocks := s.blocks.filter (·.1 ≠ b)
    nodes := Function.update s.nodes p none }

theorem freeRound_other {p q : Addr} {b : Nat} {next : Option Addr} (hq : q ≠ p) :
    (freeRound s type p b next).nodes q = s.nodes q := Function.update_of_ne hq ..

variable {get : MemNode → Option Nat}

/-- The field of the nodes in which a loop finds the blocks to free. -/
abbrev Pools.block (s : Pools) (get : MemNode → Option Nat) (p : Addr) : Option Nat :=
  (s.nodes p).bind get

/-- The list of `type` is `ps`, and each node has a live block of its own. -/
structure Listed (s : Pools) (type : UInt8) (get : MemNode → Option Nat) (ps : List Addr) : Prop where
  chain : Chain s.next (s.memList type).head ps
  live : ∀ p ∈ ps, ∃ b m, s.block get p = some b ∧ (b, m) ∈ s.blocks
  distinct : (ps.filterMap (s.block get)).Nodup

/-- Every node of the list was freed once, and its block with it. -/
structure Emptied (s s' : Pools) (type : UInt8) (get : MemNode → Option Nat) (ps : List Addr) :
    Prop where
  nodes : ∀ p, s'.nodes p = if p ∈ ps then none else s.nodes p
  blocks : s'.blocks = s.blocks.filter (fun e => e.1 ∉ ps.filterMap (s.block get))
  list : s'.memList type = { s.memList type with head := none }
  memList : ∀ type', type' ≠ type → s'.memList type' = s.memList type'
  rest : s' = { s with nodes := s'.nodes, blocks := s'.blocks, memList := s'.memList }

/-- The first round frees the first node, and the rest is the list of the state after it. -/
theorem Listed.round {p : Addr} {l : List Addr} (h : Listed s type get (p :: l)) :
    ∃ node b, (s.memList type).head = some p ∧ s.nodes p = some node ∧ get node = some b ∧
      s.blocks.any (·.1 = b) = true ∧ Listed (freeRound s type p b node.next) type get l ∧
      ∀ q ∈ l, (freeRound s type p b node.next).block get q = s.block get q := by
  rcases h.live p List.mem_cons_self with ⟨b, m, hb, hbm⟩
  have hnode := hb
  rw [Pools.block, Option.bind_eq_some_iff] at hnode
  rcases hnode with ⟨node, hnode, hnodeb⟩
  have hnext : s.next p = node.next := by rw [Pools.next, hnode]; rfl
  have hdistinct := h.distinct
  rw [List.filterMap_cons_some hb, List.nodup_cons] at hdistinct
  have hpl : ∀ q ∈ l, q ≠ p := by
    rintro q hq rfl
    exact (List.nodup_cons.mp h.chain.nodup).1 hq
  have hsame : ∀ q ∈ l, (freeRound s type p b node.next).nodes q = s.nodes q :=
    fun q hq => freeRound_other (hpl q hq)
  have hblock : ∀ q ∈ l, (freeRound s type p b node.next).block get q = s.block get q :=
    fun q hq => by rw [Pools.block, hsame q hq]
  refine ⟨node, b, h.chain.1, hnode, hnodeb, ?_, ⟨?_, ?_, ?_⟩, hblock⟩
  · exact List.any_eq_true.mpr ⟨(b, m), hbm, decide_eq_true rfl⟩
  · have hhead : ((freeRound s type p b node.next).memList type).head = node.next := by
      simp [freeRound]
    have hchain := h.chain.2
    rw [hnext] at hchain
    rw [hhead]
    exact hchain.congr fun q hq => by rw [Pools.next, hsame q hq, Pools.next]
  · intro q hq
    rcases h.live q (List.mem_cons_of_mem _ hq) with ⟨b', m', hb', hbm'⟩
    refine ⟨b', m', (hblock q hq).trans hb', List.mem_filter.mpr ⟨hbm', ?_⟩⟩
    rw [decide_eq_true_eq]
    rintro rfl
    exact hdistinct.1 (List.mem_filterMap.mpr ⟨q, hq, hb'⟩)
  · rw [List.filterMap_congr hblock]
    exact hdistinct.2

theorem Emptied.nil (hhead : (s.memList type).head = none) : Emptied s s type get [] where
  nodes p := (if_neg List.not_mem_nil).symm
  blocks := by simp
  list := by rw [← hhead]
  memList _ _ := rfl
  rest := rfl

theorem Emptied.cons {p : Addr} {l : List Addr} {b : Nat} {next : Option Addr}
    (h : Emptied (freeRound s type p b next) s' type get l) (hb : s.block get p = some b)
    (hl : l.filterMap ((freeRound s type p b next).block get) = l.filterMap (s.block get)) :
    Emptied s s' type get (p :: l) where
  nodes q := by
    rw [h.nodes q]
    by_cases hq : q ∈ l
    · rw [if_pos hq, if_pos (List.mem_cons_of_mem _ hq)]
    · rw [if_neg hq]
      by_cases hqp : q = p
      · rw [hqp, if_pos List.mem_cons_self]
        exact Function.update_self ..
      · rw [if_neg (by rw [List.mem_cons, not_or]; exact ⟨hqp, hq⟩)]
        exact freeRound_other hqp
  blocks := by
    rw [h.blocks, hl, List.filterMap_cons_some hb, freeRound, List.filter_filter]
    apply List.filter_congr
    intro e _
    simp only [List.mem_cons, not_or, Bool.decide_and]
    exact Bool.and_comm _ _
  list := by
    rw [h.list]
    simp [freeRound]
  memList type' htype := by
    rw [h.memList type' htype]
    exact Function.update_of_ne htype ..
  rest := by
    rw [h.rest]
    rfl

/-- What the loops free for the nodes `ps`: of each its block first. -/
def freedCells (block : Addr → Option Nat) (ps : List Addr) : List Cell :=
  ps.flatMap fun p => (block p).toList.map .block ++ [.node p]

/-- The full rounds get what the loops free for their nodes. -/
theorem freedCells_perm {ms : List (Addr × Nat)} {block : Addr → Option Nat}
    (h : ∀ m ∈ ms, block m.1 = some m.2) : (freedCells block (ms.map (·.1))).Perm (cellsOf ms) := by
  rw [freedCells, cellsOf, List.flatMap_map]
  apply List.Perm.flatMap_left
  intro m hm
  rw [h m hm]
  exact List.Perm.swap ..

theorem freeNodesLog_eq {n : Nat} (h : Listed s type (·.data) ps) (hn : ps.length < n) :
    ∃ s', freeNodesLog type n s = some (s', freedCells s.data ps) ∧
      Emptied s s' type (·.data) ps := by
  induction ps generalizing s n with
  | nil =>
    have hhead : (s.memList type).head = none := h.chain
    obtain ⟨m, rfl⟩ := Nat.exists_eq_succ_of_ne_zero (Nat.ne_of_gt hn)
    refine ⟨s, ?_, Emptied.nil hhead⟩
    rw [freeNodesLog, hhead]
    rfl
  | cons p l ih =>
    rw [List.length_cons] at hn
    obtain ⟨k, rfl⟩ := Nat.exists_eq_succ_of_ne_zero (Nat.ne_of_gt (Nat.lt_of_le_of_lt (Nat.zero_le _) hn))
    rcases h.round with ⟨node, b, hhead, hnode, hb, hany, hlisted, hsame⟩
    have hround : freeNodesLog type (k + 1) s =
        (freeNodesLog type k (freeRound s type p b node.next)).map fun r =>
          (r.1, .block b :: .node p :: r.2) := by
      rw [freeNodesLog, hhead]
      simp [hnode, hb, freeBlock, Pools.setList, hany, freeRound, Option.map_eq_bind]
    rcases ih hlisted (by omega : l.length < k) with ⟨s', hs', hempty⟩
    have hblock : s.data p = some b := by
      rw [Pools.data, hnode]
      exact hb
    have hcells : freedCells (freeRound s type p b node.next).data l = freedCells s.data l :=
      List.flatMap_congr fun q hq =>
        congrArg (fun b : Option Nat => b.toList.map Cell.block ++ [.node q]) (hsame q hq)
    refine ⟨s', ?_, hempty.cons hblock (List.filterMap_congr hsame)⟩
    rw [hround, hs', hcells]
    simp [freedCells, hblock]

theorem freeNodes_eq {n : Nat} (h : Listed s type (·.data) ps) (hn : ps.length < n) :
    ∃ s', freeNodes type n s = some s' ∧ Emptied s s' type (·.data) ps := by
  rcases freeNodesLog_eq h hn with ⟨s', hs', hempty⟩
  refine ⟨s', ?_, hempty⟩
  rw [← freeNodesLog_fst, hs']
  rfl

end CcPof.MemPool
