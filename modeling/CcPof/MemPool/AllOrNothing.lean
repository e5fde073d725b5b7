import CcPof.MemPool.Clean

/-!
# All or nothing

`init_mem_list` makes `2 * (length + 1)` calls of `malloc`. If none fails the list has `length + 1`
nodes; if one fails, the call gives back what the calls before it returned, and the type is as if it
had never been set up.
-/

namespace CcPof.MemPool

variable {s s' : Pools} {type : UInt8} {size : Nat} {ms : List (Addr × Nat)}

/-! ## 1. What is allocated is allocated once -/

theorem node_mem_cellsOf {p : Addr} : Cell.node p ∈ cellsOf ms ↔ p ∈ ms.map (·.1) := by
  simp only [cellsOf, List.mem_flatMap, List.mem_cons, Cell.node.injEq, reduceCtorEq,
    List.not_mem_nil, or_false, List.mem_map]
  exact exists_congr fun m => and_congr_right fun _ => eq_comm

theorem block_mem_cellsOf {b : Nat} : Cell.block b ∈ cellsOf ms ↔ b ∈ ms.map (·.2) := by
  simp only [cellsOf, List.mem_flatMap, List.mem_cons, Cell.block.injEq, reduceCtorEq,
    List.not_mem_nil, false_or, or_false, List.mem_map]
  exact exists_congr fun m => and_congr_right fun _ => eq_comm

theorem Fresh.nodup_cells (h : Fresh s size ms) : (cellsOf ms).Nodup := by
  have hnodes := h.nodup
  have hblocks := h.apart
  clear h
  induction ms with
  | nil => exact List.nodup_nil
  | cons m ms ih =>
    rw [List.map_cons, List.nodup_cons] at hnodes
    rw [List.map_cons, List.pairwise_cons] at hblocks
    have hcells : cellsOf (m :: ms) = .node m.1 :: .block m.2 :: cellsOf ms := rfl
    rw [hcells, List.nodup_cons, List.nodup_cons, List.mem_cons, not_or, node_mem_cellsOf,
      block_mem_cellsOf]
    refine ⟨⟨nofun, hnodes.1⟩, ?_, ih hnodes.2 hblocks.2⟩
    intro hmem
    rcases List.mem_map.mp hmem with ⟨m', hm', heq⟩
    -- Every block has its type byte, so two that are apart do not start at one address.
    have hapart : Apart (m.2, size + 1) (m'.2, size + 1) :=
      hblocks.1 _ (List.mem_map.mpr ⟨m', hm', rfl⟩)
    exact hapart.ne (Nat.succ_pos size) (Nat.succ_pos size) heq.symm

/-! ## 2. Nothing -/

/-- A call that failed has freed all that it got, and has left no trace at `type`. -/
structure RolledBack (s s' : Pools) (type : UInt8) (log : HeapLog) : Prop where
  once : log.freed.Nodup
  all : log.freed.Perm log.malloced
  list : s'.memList type = emptyList
  others : ∀ type', type' ≠ type → s'.memList type' = s.memList type'
  nodes : s'.nodes = s.nodes
  blocks : ∀ e, e ∈ s'.blocks ↔ e ∈ s.blocks
  types : ∀ e ∈ s.blocks, s'.mem e.1 = s.mem e.1
  held : s'.held = s.held
  config : s'.config = s.config

theorem Inv.rolledBack (h : Inv s) {size length : Int} {node : Option Addr}
    {rest : List (Option Nat)} (htype : type ≠ 0) (hsize : 0 < size) (hlength : 0 < length)
    (hunset : s.config type = none) (hms : ms.length < (length + 1).toNat)
    (hfresh : Fresh s size.toNat ms)
    (hnode : ∀ p, node = some p → s.nodes p = none ∧ p ∉ ms.map (·.1)) :
    ∃ s' freed, initMemListLog s type size length (mallocsOf ms ++ failedRound node ++ rest) =
        some (s', 0, ⟨cellsOf ms ++ node.toList.map .node, freed⟩) ∧
      RolledBack s s' type ⟨cellsOf ms ++ node.toList.map .node, freed⟩ := by
  rcases h.initMemListLog_err htype hsize hlength hunset hms hfresh hnode with
    ⟨s₁, s', ps, freed, hrun, hperm, hbuilding, hundone⟩
  refine ⟨_, freed, hrun, ?_, hperm, Function.update_self .., ?_, funext hundone.nodes, ?_, ?_,
    hundone.held, hundone.config⟩
  · rw [hperm.nodup_iff]
    cases node with
    | none => simpa using hfresh.nodup_cells
    | some p =>
      -- The node of the round that failed is none of the nodes of the full rounds.
      have hp : Cell.node p ∉ cellsOf ms := fun hmem => (hnode p rfl).2 (node_mem_cellsOf.mp hmem)
      rw [List.nodup_append_comm]
      exact List.nodup_cons.mpr ⟨hp, hfresh.nodup_cells⟩
  · intro type' htype'
    exact (Function.update_of_ne htype' ..).trans (hundone.memList type' htype')
  · exact fun e => ⟨hundone.only e, hundone.blocks e⟩
  · intro e he
    show s'.mem e.1 = s.mem e.1
    rw [hundone.mem]
    exact hbuilding.mem e he

/-! ## 3. All -/

/-- A call that succeeded has linked a list of `length + 1` nodes and freed nothing. -/
structure AllLinked (s s' : Pools) (type : UInt8) (length : Nat) (ps : List Addr) : Prop where
  count : ps.length = length + 1
  once : ps.Nodup
  list : s'.memList type = ⟨ps.head?, ps.getLast?, type, true⟩
  links : DSeg some s'.next s'.pre none ps none
  others : ∀ type', type' ≠ type → s'.memList type' = s.memList type'
  nodes : ∀ p, s.nodes p ≠ none → s'.nodes p = s.nodes p
  blocks : ∀ e ∈ s.blocks, e ∈ s'.blocks

theorem SetUp.allLinked {c : Config} {head : Addr} {l : List Addr}
    (hset : SetUp s s' type c ⟨head, l, []⟩) (hgrows : Grows s s' type) :
    AllLinked s s' type c.length (head :: l) := by
  have hL := hset.typeInv
  have hnodes : Layout.nodes ⟨head, l, []⟩ = head :: l := by
    rw [Layout.nodes, List.append_nil]
  have hlinks := hL.links
  have hnodup := hL.nodup
  rw [hnodes] at hlinks hnodup
  refine ⟨?_, hnodup, ?_, hlinks, hgrows.memList, hgrows.nodes, hgrows.blocks⟩
  · have hlength : l.length + 0 = c.length := hL.length
    rw [List.length_cons, ← hlength, Nat.add_zero]
  · have htail := hL.tail
    rw [backPtr_none] at htail
    have hfields : s'.memList type = ⟨(s'.memList type).head, (s'.memList type).tail,
      (s'.memList type).type, (s'.memList type).valid⟩ := rfl
    rw [hfields, hL.head, htail, hset.typed, hL.valid]
    rfl

/-! ## 4. Every point of failure -/

/-- For a type that is not set up: whichever of its calls of `malloc` is the first to fail,
`init_mem_list` undoes itself and may be called again; if none fails, the list is there. The full
rounds get the nodes and blocks `ms`, a node may be got in the round that fails. -/
theorem initMemList_allOrNothing {mem : Mem} {size length : Int} (rest : List (Option Nat))
    (h : (cleaningPool mem).Reachable s) (htype : type ≠ 0)
    (hvalid : (s.memList type).valid = false) (hsize : 0 < size) (hlength : 0 < length)
    (hfresh : Fresh s size.toNat ms) :
    (∀ node : Option Addr, ms.length < (length + 1).toNat →
      (∀ p, node = some p → s.nodes p = none ∧ p ∉ ms.map (·.1)) →
      ∃ s' freed, initMemListLog s type size length (mallocsOf ms ++ failedRound node ++ rest) =
          some (s', 0, ⟨cellsOf ms ++ node.toList.map .node, freed⟩) ∧
        RolledBack s s' type ⟨cellsOf ms ++ node.toList.map .node, freed⟩ ∧
        newMemNode s' type = some (s', none) ∧
        ∀ (size' length' : Int) (ms' : List (Addr × Nat)), 0 < size' → 0 < length' →
          ms'.length = (length' + 1).toNat → Fresh s' size'.toNat ms' →
          ∃ s'', initMemList s' type size' length' (mallocsOf ms') = some (s'', 1)) ∧
    (ms.length = (length + 1).toNat →
      ∃ s' ps, initMemListLog s type size length (mallocsOf ms ++ rest) =
          some (s', 1, ⟨cellsOf ms, []⟩) ∧ ps.Perm (ms.map (·.1)) ∧
        AllLinked s s' type length.toNat ps) := by
  have hinv := ((cleaning_invariant mem).of_reachable h).1
  have hunset : s.config type = none := by
    rw [hinv.valid_eq, Option.isSome_eq_false_iff, Option.isNone_iff_eq_none] at hvalid
    exact hvalid
  constructor
  · intro node hms hnode
    rcases hinv.rolledBack htype hsize hlength hunset hms hfresh hnode with
      ⟨s', freed, hrun, hback⟩
    have hcall : initMemList s type size length (mallocsOf ms ++ failedRound node ++ rest) =
        some (s', 0) := by
      rw [← initMemListLog_fst, hrun]
      rfl
    -- The failed call is a step of the clients, so the invariant holds behind it.
    have hinv' : Inv s' := by
      have hstep : step s (.initMemList type size length
          (mallocsOf ms ++ failedRound node ++ rest)) = some s' := by
        rw [step, hcall]
        rfl
      exact (inv_step hinv hstep).1
    have hunset' : s'.config type = none := by
      rw [hback.config]
      exact hunset
    refine ⟨s', freed, hrun, hback, newMemNode_of_unset hinv' hunset', ?_⟩
    intro size' length' ms' hsize' hlength' hms' hfresh'
    rcases initMemList_mallocsOf hinv' htype hsize' hlength' hunset' hms' hfresh' with
      ⟨s'', hs'', -⟩
    exact ⟨s'', hs''⟩
  · intro hms
    rcases hinv.initMemListLog_done rest htype hsize hlength hunset hms hfresh with
      ⟨s', head, l, hrun, hperm, hgrows, hset⟩
    have hlinked := hset.allLinked hgrows
    exact ⟨s', head :: l, hrun, hperm, ⟨hlinked.count, hlinked.once, hlinked.list, hlinked.links,
      hlinked.others, hlinked.nodes, hlinked.blocks⟩⟩

/-- Beside the lists of two types: `malloc` fails for the block of the second node, and later not. -/
theorem initMemList_allOrNothing_secondBlock :
    ∃ s s' freed, (cleaningPool fun _ => 0).exec (memPool fun _ => 0).init (twoTypes.map .call) =
        some s ∧
      initMemListLog s 5 1 1 [some 6, some 600, some 7, none] =
        some (s', 0, ⟨[.node 6, .block 600, .node 7], freed⟩) ∧
      freed.Perm [.node 6, .block 600, .node 7] ∧ s'.memList 5 = emptyList ∧
      s'.memList 3 = s.memList 3 ∧
      ∃ s'' ps, initMemListLog s 5 1 1 [some 6, some 600, some 7, some 700] =
          some (s'', 1, ⟨[.node 6, .block 600, .node 7, .block 700], []⟩) ∧ ps.length = 2 ∧
        DSeg some s''.next s''.pre none ps none := by
  have hexec : ((cleaningPool fun _ => 0).exec (memPool fun _ => 0).init (twoTypes.map .call)).map
      (fun s => ((s.memList 5).valid, (s.nodes 6).isNone && (s.nodes 7).isNone, s.blocks)) =
        some (false, true, [(500, 5), (400, 5), (300, 9), (200, 9), (100, 9)]) := by decide +kernel
  rw [Option.map_eq_some_iff] at hexec
  rcases hexec with ⟨s, hs, hobs⟩
  rw [Prod.mk.injEq, Prod.mk.injEq, Bool.and_eq_true, Option.isNone_iff_eq_none,
    Option.isNone_iff_eq_none] at hobs
  rcases hobs with ⟨hvalid, ⟨h6, h7⟩, hblocks⟩
  have hreach := TransitionSystem.reachable_of_exec (cleaningPool fun _ => 0) hs
  have hfresh : Fresh s 1 [(6, 600), (7, 700)] :=
    ⟨by decide, by simp [h6, h7], by simp [Apart], by simp [freshBlock, hblocks]⟩
  have hfirst : Fresh s 1 [(6, 600)] :=
    ⟨by decide, by simp [h6], by simp, by simp [freshBlock, hblocks]⟩
  rcases (initMemList_allOrNothing [] hreach (by decide) hvalid (by decide : (0 : Int) < 1)
    (by decide : (0 : Int) < 1) hfirst).1 (some 7) (by decide) (by simp [h7]) with
    ⟨s', freed, hrun, hback, -⟩
  rcases (initMemList_allOrNothing [] hreach (by decide) hvalid (by decide : (0 : Int) < 1)
    (by decide : (0 : Int) < 1) hfresh).2 rfl with ⟨s'', ps, hrun', -, hlinked⟩
  exact ⟨s, s', freed, hs, hrun, hback.all, hback.list, hback.others 3 (by decide), s'', ps, hrun',
    hlinked.count, hlinked.links⟩

end CcPof.MemPool
