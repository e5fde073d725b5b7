import CcPof.MemPool.Init

/-!
# Exclusive blocks

In every run of the clients, each list that was set up keeps its invariant: a block is in one free
node or with one client, and none is lost.
-/

namespace CcPof.MemPool

variable {s s' : Pools} {type : UInt8} {c : Config} {L : Layout}

/-! ## 1. The invariant of all lists -/

structure Inv (s : Pools) : Prop where
  types : ∀ type c, s.config type = some c → ∃ L, TypeInv s type c L
  unset : ∀ type, s.config type = none →
    (s.memList type).head = none ∧ (s.memList type).valid = false ∧ s.held type = []
  blocks : BlocksOk s.blocks
  started : s.memListInit = false → ∀ type, s.config type = none ∧ s.memList type = emptyList

theorem inv_init (mem : Mem) : Inv (memPool mem).init where
  types := nofun
  unset _ _ := ⟨rfl, rfl, rfl⟩
  blocks := ⟨List.Pairwise.nil, nofun⟩
  started _ _ := ⟨rfl, rfl⟩

theorem Inv.of_frame {L' : Layout} (h : Inv s) (hc : s.config type = some c)
    (hL : TypeInv s type c L) (hf : Frame s s' type L) (hL' : TypeInv s' type c L') : Inv s' := by
  refine ⟨?_, ?_, ?_, ?_⟩
  · intro type' c' hc'
    rw [hf.config] at hc'
    by_cases htype : type' = type
    · subst htype
      rw [hc] at hc'
      cases hc'
      exact ⟨L', hL'⟩
    · rcases h.types type' c' hc' with ⟨M, hM⟩
      exact ⟨M, hf.typeInv hL hM htype⟩
  · intro type' hc'
    rw [hf.config] at hc'
    have htype : type' ≠ type := by
      rintro rfl
      rw [hc] at hc'
      cases hc'
    rw [hf.memList type' htype, hf.held type' htype]
    exact h.unset type' hc'
  · rw [hf.blocks]
    exact h.blocks
  · intro hinit
    rw [hf.memListInit] at hinit
    rw [(h.started hinit type).1] at hc
    cases hc

/-! ## 2. Setting up a type -/

/-- A step that adds nodes and blocks and may change the list of `type`, but no other. -/
structure Grows (s s' : Pools) (type : UInt8) : Prop where
  memList : ∀ type', type' ≠ type → s'.memList type' = s.memList type'
  config : ∀ type', type' ≠ type → s'.config type' = s.config type'
  nodes : ∀ p, s.nodes p ≠ none → s'.nodes p = s.nodes p
  held : s'.held = s.held
  blocks : ∀ e ∈ s.blocks, e ∈ s'.blocks
  mem : ∀ e ∈ s.blocks, s'.mem e.1 = s.mem e.1
  ok : BlocksOk s'.blocks
  memListInit : s'.memListInit = true

theorem Grows.typeInv (hg : Grows s s' type) {type' : UInt8} (h : TypeInv s type' c L)
    (hlist : s'.memList type' = s.memList type') : TypeInv s' type' c L := by
  apply h.frame hlist
  · intro p hp
    apply hg.nodes
    rcases h.live hp with ⟨node, hnode⟩
    rw [hnode]
    nofun
  · intro p _ b _ hb
    exact ⟨hg.blocks _ hb, hg.mem _ hb⟩
  · rw [hg.held]

/-- The call has done nothing, or has undone what it did. -/
structure Unchanged (s s' : Pools) (type : UInt8) : Prop where
  memList : s'.memList type = s.memList type ∨ s'.memList type = emptyList ∧ s.config type = none
  config : s'.config type = s.config type
  nodes : ∀ p, s'.nodes p = s.nodes p
  only : ∀ e ∈ s'.blocks, e ∈ s.blocks

/-- The call has set the type up with nodes and blocks of its own. -/
structure SetUp (s s' : Pools) (type : UInt8) (c : Config) (L : Layout) : Prop where
  unset : s.config type = none
  config : s'.config type = some c
  typeInv : TypeInv s' type c L
  only : ∀ e ∈ s'.blocks, e ∈ s.blocks ∨ ∃ p ∈ L.nodes, s'.rawData p = some e.1
  nodes : ∀ p, p ∉ L.nodes → s'.nodes p = s.nodes p
  typed : (s'.memList type).type = type

theorem Inv.of_grows (h : Inv s) (hg : Grows s s' type)
    (htype : Unchanged s s' type ∨ ∃ c L, SetUp s s' type c L) : Inv s' := by
  refine ⟨?_, ?_, hg.ok, ?_⟩
  · intro type' c' hc'
    by_cases heq : type' = type
    · subst heq
      rcases htype with hsame | ⟨c, L, hset⟩
      · rw [hsame.config] at hc'
        rcases h.types type' c' hc' with ⟨L, hL⟩
        rcases hsame.memList with hlist | ⟨-, hunset⟩
        · exact ⟨L, hg.typeInv hL hlist⟩
        · rw [hunset] at hc'
          cases hc'
      · rw [hset.config] at hc'
        cases hc'
        exact ⟨L, hset.typeInv⟩
    · rw [hg.config type' heq] at hc'
      rcases h.types type' c' hc' with ⟨L, hL⟩
      exact ⟨L, hg.typeInv hL (hg.memList type' heq)⟩
  · intro type' hc'
    by_cases heq : type' = type
    · subst heq
      rcases htype with hsame | ⟨c, L, hset⟩
      · rw [hsame.config] at hc'
        have hunset := h.unset type' hc'
        rw [hg.held]
        rcases hsame.memList with hlist | ⟨hlist, -⟩
        · rw [hlist]
          exact hunset
        · rw [hlist]
          exact ⟨rfl, rfl, hunset.2.2⟩
      · rw [hset.config] at hc'
        cases hc'
    · rw [hg.config type' heq] at hc'
      rw [hg.memList type' heq, hg.held]
      exact h.unset type' hc'
  · rw [hg.memListInit]
    nofun

/-- The walk to the end of the list that the loop has left. -/
theorem Building.finish {s₀ s : Pools} {size n : Nat} {head : Addr} {l : List Addr}
    (h : Building s₀ s type size (head :: l)) (hn : l.length < n) :
    (s.memList type).tail = some head ∧ walkTail s n head = backPtr some none (head :: l) := by
  rcases h.list with ⟨tail, hlist, htail⟩
  refine ⟨?_, walkTail_eq h.links ?_ hn⟩
  · rw [hlist]
    exact htail nofun
  · intro q hq
    rcases h.live hq with ⟨node, hnode⟩
    rw [hnode]
    rfl

/-- A finished loop leaves a list whose nodes are all free. -/
theorem Building.typeInv {s₀ s : Pools} {size length : Nat} {head : Addr} {l : List Addr}
    {config : UInt8 → Option Config} (h : Building s₀ s type size (head :: l))
    (hlength : l.length = length) (hheld : s₀.held type = []) :
    TypeInv { s.setList type { s.memList type with
      tail := backPtr some none (head :: l), valid := true } with config := config }
      type ⟨size, length⟩ ⟨head, l, []⟩ := by
  have hlist : Function.update s.memList type { s.memList type with
      tail := backPtr some none (head :: l), valid := true } type =
        ⟨some head, backPtr some none (head :: l), type, true⟩ := by
    rcases h.list with ⟨tail, hlist, -⟩
    rw [Function.update_self, hlist]
    rfl
  have hnodes : Layout.nodes ⟨head, l, []⟩ = head :: l := by rw [Layout.nodes, List.append_nil]
  have hdata : ∀ p ∈ l, s.data p = s.rawData p := by
    intro p hp
    rcases h.block p (List.mem_cons_of_mem _ hp) with ⟨b, hraw, hdata, -⟩
    rw [hraw, hdata]
  refine ⟨?_, ?_, ?_, ?_, ?_, ?_, ?_, ?_, ?_, fun p hp => absurd hp List.not_mem_nil, ?_⟩
  · exact congrArg MemList.valid hlist
  · exact congrArg MemList.head hlist
  · exact congrArg MemList.tail hlist
  · rw [hnodes]
    exact h.links
  · rw [hnodes]
    exact h.nodup
  · rw [hnodes]
    intro p hp
    rcases h.block p hp with ⟨b, hraw, -, hb, hbyte, -⟩
    exact ⟨b, hraw, hb, hbyte⟩
  · rw [hnodes]
    exact h.raws
  · exact hlength
  · intro p hp
    rcases h.block p (List.mem_cons_of_mem _ hp) with ⟨b, -, hb, -⟩
    show (s.data p).isSome
    rw [hb]
    rfl
  · show ((l.filterMap s.data).map (· + 1) ++ s.held type).Perm
      (((l ++ []).filterMap s.rawData).map (· + 1))
    rw [h.held, hheld, List.append_nil, List.append_nil, List.filterMap_congr hdata]

/-- The list of `type` apart, the pools are as they were in `s₀`, and memory is as in `s`. -/
structure Undone (s₀ s s' : Pools) (type : UInt8) : Prop where
  nodes : ∀ p, s'.nodes p = s₀.nodes p
  memList : ∀ type', type' ≠ type → s'.memList type' = s₀.memList type'
  blocks : ∀ e ∈ s₀.blocks, e ∈ s'.blocks
  only : ∀ e ∈ s'.blocks, e ∈ s₀.blocks
  ok : BlocksOk s'.blocks
  mem : s'.mem = s.mem
  held : s'.held = s₀.held
  config : s'.config = s₀.config
  memListInit : s'.memListInit = s₀.memListInit

/-- A node that the loop has linked has its block in both pointers. -/
theorem Building.data_eq {s₀ s : Pools} {size : Nat} {ps : List Addr}
    (h : Building s₀ s type size ps) {p : Addr} (hp : p ∈ ps) : s.data p = s.rawData p := by
  rcases h.block p hp with ⟨b, hraw, hdata, -⟩
  rw [hraw, hdata]

theorem Building.undone {s₀ s : Pools} {size : Nat} {ps : List Addr}
    (h : Building s₀ s type size ps) (hempty : Emptied s s' type (·.data) ps) :
    Undone s₀ s s' type where
  nodes p := by
    rw [hempty.nodes p]
    by_cases hp : p ∈ ps
    · rw [if_pos hp, h.fresh p hp]
    · rw [if_neg hp, h.nodes p hp]
  memList type' htype := by
    rw [hempty.memList type' htype, h.memList type' htype]
  blocks e he := by
    have hblocks : s'.blocks = s.blocks.filter (fun e => e.1 ∉ ps.filterMap s.data) := hempty.blocks
    rw [hblocks, List.mem_filter, decide_eq_true_eq]
    refine ⟨h.blocks e he, ?_⟩
    intro hmem
    -- The blocks of the loop are none of the blocks that there were before.
    rcases List.mem_filterMap.mp hmem with ⟨p, hp, hb⟩
    rcases h.block p hp with ⟨b, -, hb', -, -, hold⟩
    rw [hb] at hb'
    cases hb'
    exact hold e he rfl
  only e he := by
    have hblocks : s'.blocks = s.blocks.filter (fun e => e.1 ∉ ps.filterMap s.data) := hempty.blocks
    rw [hblocks, List.mem_filter, decide_eq_true_eq] at he
    refine (h.only e he.1).resolve_right ?_
    rintro ⟨p, hp, hraw⟩
    exact he.2 (List.mem_filterMap.mpr ⟨p, hp, (h.data_eq hp).trans hraw⟩)
  ok := by
    have hblocks : s'.blocks = s.blocks.filter (fun e => e.1 ∉ ps.filterMap s.data) := hempty.blocks
    rw [hblocks]
    exact ⟨h.ok.apart.filter _, fun e he => h.ok.pos e (List.mem_filter.mp he).1⟩
  mem := by rw [hempty.rest]
  held := by
    rw [hempty.rest]
    exact h.held
  config := by
    rw [hempty.rest]
    exact h.config
  memListInit := by
    rw [hempty.rest]
    exact h.memListInit

/-- The list under construction, as the clean-up finds it. -/
theorem Building.listed {s₀ s : Pools} {size : Nat} {ps : List Addr}
    (h : Building s₀ s type size ps) : Listed s type (·.data) ps := by
  rcases h.list with ⟨tail, hlist, -⟩
  refine ⟨?_, ?_, ?_⟩
  · rw [hlist]
    exact h.links.chain
  · intro p hp
    rcases h.block p hp with ⟨b, -, hb, hmem, -⟩
    exact ⟨b, size + 1, hb, hmem⟩
  · show (ps.filterMap s.data).Nodup
    rw [List.filterMap_congr fun p hp => h.data_eq hp]
    exact h.raws

/-- The clean-up behind `err` undoes what the loop has done. -/
theorem Building.cleanUp {s₀ s : Pools} {size n : Nat} {ps : List Addr}
    (h : Building s₀ s type size ps) (hn : ps.length < n) :
    ∃ s', freeNodes type n s = some s' ∧ Undone s₀ s s' type := by
  rcases freeNodes_eq h.listed hn with ⟨s', hs', hempty⟩
  exact ⟨s', hs', h.undone hempty⟩

theorem Inv.start (h : Inv s) :
    (if s.memListInit then s else { initAllMemList s with memListInit := true }) =
      { s with memListInit := true } := by
  cases hinit : s.memListInit with
  | true =>
    rw [if_pos rfl]
    cases s
    cases hinit
    rfl
  | false =>
    rw [if_neg Bool.false_ne_true]
    have hlists : s.memList = fun _ => emptyList :=
      funext fun type => (h.started hinit type).2
    rw [initAllMemList, ← hlists]

theorem Inv.started_of (h : Inv s) : Inv { s with memListInit := true } :=
  ⟨fun type c hc => (h.types type c hc).imp fun _ hL => hL.frame rfl (fun _ _ => rfl)
    (fun _ _ _ _ hb => ⟨hb, rfl⟩) rfl, h.unset, h.blocks, nofun⟩

theorem Grows.refl (hok : BlocksOk s.blocks) (hinit : s.memListInit = true) : Grows s s type :=
  ⟨fun _ _ => rfl, fun _ _ => rfl, fun _ _ => rfl, rfl, fun _ he => he, fun _ _ => rfl, hok, hinit⟩

/-- The loop of `init_mem_list` starts on a type that was not set up. -/
theorem Inv.building (h : Inv s) (size : Nat)
    (hhead : (s.memList type).head = none) :
    Building s (s.setList type { s.memList type with valid := true, type := type }) type size [] := by
  refine ⟨⟨(s.memList type).tail, ?_, fun hne => absurd rfl hne⟩, trivial, List.nodup_nil, nofun,
    nofun, List.nodup_nil, ?_, fun _ _ => rfl, rfl, rfl, rfl, fun _ he => he,
    fun _ he => Or.inl he, fun _ _ => rfl, h.blocks⟩
  · simp [Pools.setList, hhead]
  · exact fun type' htype => Function.update_of_ne htype ..

/-- A failed call leaves the empty list. -/
theorem Undone.grows {s₀ s : Pools} {size : Nat} {ps : List Addr} (h : Building s₀ s type size ps)
    (hundone : Undone s₀ s s' type) (hinit : s₀.memListInit = true)
    (hconfig : s₀.config type = none) :
    Grows s₀ (s'.setList type emptyList) type ∧ Unchanged s₀ (s'.setList type emptyList) type := by
  refine ⟨⟨?_, ?_, ?_, hundone.held, hundone.blocks, ?_, hundone.ok, ?_⟩,
    ⟨?_, ?_, hundone.nodes, hundone.only⟩⟩
  · intro type' htype
    exact (Function.update_of_ne htype ..).trans (hundone.memList type' htype)
  · exact fun type' _ => congrFun hundone.config type'
  · exact fun p _ => hundone.nodes p
  · intro e he
    show s'.mem e.1 = s₀.mem e.1
    rw [hundone.mem]
    exact h.mem e he
  · exact hundone.memListInit.trans hinit
  · exact Or.inr ⟨Function.update_self .., hconfig⟩
  · exact congrFun hundone.config type

/-- A loop that has linked all nodes leaves a type that is set up. -/
theorem Building.setUp {s₀ s : Pools} {size length : Nat} {head : Addr} {l : List Addr}
    (h : Building s₀ s type size (head :: l)) (hlength : l.length = length)
    (hinit : s₀.memListInit = true) (hconfig : s₀.config type = none)
    (hheld : s₀.held type = [])
    (hs' : s' = { s.setList type { s.memList type with
        tail := backPtr some none (head :: l), valid := true } with
      config := Function.update s.config type (some ⟨size, length⟩) }) :
    Grows s₀ s' type ∧ SetUp s₀ s' type ⟨size, length⟩ ⟨head, l, []⟩ := by
  have hnodes : Layout.nodes ⟨head, l, []⟩ = head :: l := by
    rw [Layout.nodes, List.append_nil]
  subst hs'
  refine ⟨⟨?_, ?_, ?_, h.held, h.blocks, h.mem, h.ok, h.memListInit.trans hinit⟩,
    ⟨hconfig, Function.update_self .., h.typeInv hlength hheld, ?_, ?_, ?_⟩⟩
  · intro type' htype
    exact (Function.update_of_ne htype ..).trans (h.memList type' htype)
  · intro type' htype
    refine (Function.update_of_ne htype ..).trans ?_
    rw [h.config]
  · intro p hp
    apply h.nodes
    exact fun hmem => hp (h.fresh p hmem)
  · rw [hnodes]
    exact h.only
  · rw [hnodes]
    exact h.nodes
  · rcases h.list with ⟨tail, hlist, -⟩
    show (Function.update s.memList type _ type).type = type
    rw [Function.update_self, hlist]

/-- The arguments pass the check of `init_mem_list`. -/
theorem args_ok {size length : Int} (htype : type ≠ 0) (hsize : 0 < size) (hlength : 0 < length) :
    ¬ (type = 0 ∨ size ≤ 0 ∨ length ≤ 0) := by
  rintro (heq | hle | hle)
  · exact htype heq
  · omega
  · omega

/-- `init_mem_list` with enough answers of `malloc`. -/
theorem Inv.initMemListLog_done (h : Inv s) {size length : Int} {ms : List (Addr × Nat)}
    (rest : List (Option Nat)) (htype : type ≠ 0) (hsize : 0 < size) (hlength : 0 < length)
    (hunset : s.config type = none) (hms : ms.length = (length + 1).toNat)
    (hfresh : Fresh s size.toNat ms) :
    ∃ s' head l, initMemListLog s type size length (mallocsOf ms ++ rest) =
        some (s', 1, ⟨cellsOf ms, []⟩) ∧ (head :: l).Perm (ms.map (·.1)) ∧
      Grows { s with memListInit := true } s' type ∧
      SetUp { s with memListInit := true } s' type ⟨size.toNat, length.toNat⟩ ⟨head, l, []⟩ := by
  have hlist := h.unset type hunset
  have hargs := args_ok htype hsize hlength
  have hbuild := h.started_of.building size.toNat hlist.1
  rcases initLoopLog_mallocsOf hbuild (hfresh.congr rfl rfl) with
    ⟨s₁, ps, hps, hperm, -, -, hloop⟩
  rw [List.append_nil] at hperm
  have hpslength := hperm.length_eq
  rw [List.length_map] at hpslength
  rcases List.exists_cons_of_length_pos (by omega : 0 < ps.length) with ⟨head, l, rfl⟩
  rw [List.length_cons] at hpslength
  rcases hps.finish (by omega : l.length < (length + 1).toNat) with ⟨htail, hwalk⟩
  rcases hps.setUp (by omega : l.length = length.toNat) rfl hunset hlist.2.2 rfl with ⟨hgrows, hsetUp⟩
  have hback : ∃ tail, backPtr some none (head :: l) = some tail := by
    rw [backPtr_none]
    exact ⟨_, List.getLast?_eq_some_getLast (List.cons_ne_nil head l)⟩
  rcases hback with ⟨tail, hback⟩
  refine ⟨_, head, l, ?_, hperm, hgrows, hsetUp⟩
  rw [hback] at hwalk ⊢
  rw [Nat.add_zero, hms] at hloop
  simp only [initMemListLog, h.start, if_neg hargs, hlist.2.1, Bool.false_eq_true, if_false]
  rw [hloop, initLoopLog]
  simp only [Option.map_some, Option.bind_eq_bind, Option.bind_some, htail, hwalk, List.append_nil]
  rfl

/-- The answers of `malloc` in a round in which it fails: for the node, or for its block. -/
def failedRound : Option Addr → List (Option Nat)
  | none => [none]
  | some p => [some p, none]

/-- `init_mem_list` when `malloc` fails: what it got is what it frees. -/
theorem Inv.initMemListLog_err (h : Inv s) {size length : Int} {ms : List (Addr × Nat)}
    {node : Option Addr} {rest : List (Option Nat)} (htype : type ≠ 0) (hsize : 0 < size)
    (hlength : 0 < length) (hunset : s.config type = none) (hms : ms.length < (length + 1).toNat)
    (hfresh : Fresh s size.toNat ms)
    (hnode : ∀ p, node = some p → s.nodes p = none ∧ p ∉ ms.map (·.1)) :
    ∃ s₁ s' ps freed, initMemListLog s type size length (mallocsOf ms ++ failedRound node ++ rest) =
        some (s'.setList type emptyList, 0, ⟨cellsOf ms ++ node.toList.map .node, freed⟩) ∧
      freed.Perm (cellsOf ms ++ node.toList.map .node) ∧
      Building { s with memListInit := true } s₁ type size.toNat ps ∧
      Undone { s with memListInit := true } s₁ s' type := by
  have hlist := h.unset type hunset
  have hargs := args_ok htype hsize hlength
  have hbuild := h.started_of.building size.toNat hlist.1
  obtain ⟨k, hk⟩ := Nat.exists_eq_add_of_lt hms
  rcases initLoopLog_mallocsOf hbuild
    (hfresh.congr rfl rfl) with ⟨s₁, ps, hps, hperm, hdata, -, hloop⟩
  rw [List.append_nil] at hperm
  -- The node whose block `malloc` refuses is freed at once.
  have hfail : initLoopLog type size.toNat (k + 1) (failedRound node ++ rest) s₁ =
      some (.err s₁, ⟨node.toList.map .node, node.toList.map .node⟩) := by
    cases node with
    | none => rfl
    | some p =>
      have hp : s₁.nodes p = none := by
        rw [hps.nodes p fun hmem => (hnode p rfl).2 (hperm.mem_iff.mp hmem)]
        exact (hnode p rfl).1
      show initLoopLog type size.toNat (k + 1) (some p :: none :: rest) s₁ = _
      rw [initLoopLog, if_pos hp]
      rfl
  have hpslength := hperm.length_eq
  rw [List.length_map] at hpslength
  rcases freeNodesLog_eq hps.listed (by omega : ps.length < (length + 1).toNat + 1) with
    ⟨s', hs', hempty⟩
  refine ⟨s₁, s', ps, node.toList.map .node ++ freedCells s₁.data ps, ?_, ?_, hps, hps.undone hempty⟩
  · rw [← Nat.add_assoc, ← hk, hfail, ← List.append_assoc] at hloop
    simp only [initMemListLog, h.start, if_neg hargs, hlist.2.1, Bool.false_eq_true, if_false]
    rw [hloop]
    simp only [Option.map_some, Option.bind_eq_bind, Option.bind_some, hs']
  · refine List.perm_append_comm.trans (List.Perm.append_right _ ?_)
    exact (hperm.flatMap_right _).trans (freedCells_perm hdata)

theorem initMemList_grows {size length : Int} {mallocs : List (Option Nat)} {r : Int} (h : Inv s)
    (hr : initMemList s type size length mallocs = some (s', r)) :
    Grows { s with memListInit := true } s' type ∧
      (Unchanged { s with memListInit := true } s' type ∨
        ∃ c L, SetUp { s with memListInit := true } s' type c L) := by
  have h₁ := h.started_of
  have hrefl : Unchanged { s with memListInit := true } { s with memListInit := true } type :=
    ⟨Or.inl rfl, rfl, fun _ => rfl, fun _ he => he⟩
  simp only [initMemList, h.start] at hr
  split at hr
  · cases hr
    exact ⟨Grows.refl h₁.blocks rfl, Or.inl hrefl⟩
  rename_i hargs
  split at hr
  · cases hr
    exact ⟨Grows.refl h₁.blocks rfl, Or.inl hrefl⟩
  rename_i hvalid
  have hconfig : s.config type = none := by
    cases hc : s.config type with
    | none => rfl
    | some c =>
      rcases h.types type c hc with ⟨L, hL⟩
      exact absurd hL.valid hvalid
  have hunset := h.unset type hconfig
  have hbuild := h₁.building size.toNat hunset.1
  rw [Option.bind_eq_bind, Option.bind_eq_some_iff] at hr
  rcases hr with ⟨r', hloop, hr⟩
  have hend := initLoop_building hbuild hloop
  -- The loop ends with all nodes linked, or jumps to `err` with some of them.
  cases r' with
  | done s₂ =>
    rcases hend with ⟨ps, hps, hlength⟩
    rw [List.length_nil, Nat.zero_add] at hlength
    rcases List.exists_cons_of_length_pos (by omega : 0 < ps.length) with ⟨head, l, rfl⟩
    have hl : l.length = length.toNat := by
      rw [List.length_cons] at hlength
      omega
    rcases hps.finish (by omega : l.length < (length + 1).toNat) with ⟨htail, hwalk⟩
    simp only [htail, Option.bind_eq_bind, Option.bind_some, hwalk] at hr
    rw [Option.bind_eq_some_iff] at hr
    rcases hr with ⟨tail, hback, hr⟩
    cases hr
    rw [← hback]
    rcases hps.setUp hl rfl hconfig hunset.2.2 rfl with ⟨hgrows, hsetUp⟩
    exact ⟨hgrows, Or.inr ⟨_, _, hsetUp⟩⟩
  | err s₂ =>
    rcases hend with ⟨ps, hps, hlength⟩
    rw [List.length_nil, Nat.zero_add] at hlength
    rcases hps.cleanUp (by omega : ps.length < (length + 1).toNat + 1) with ⟨s₃, hfree, hundone⟩
    simp only [hfree, Option.bind_eq_bind, Option.bind_some] at hr
    cases hr
    rcases Undone.grows hps hundone rfl hconfig with ⟨hgrows, hunchanged⟩
    exact ⟨hgrows, Or.inl hunchanged⟩

/-! ## 3. The calls of the clients -/

theorem newMemNode_of_unset (h : Inv s) (hc : s.config type = none) :
    newMemNode s type = some (s, none) := by
  simp only [newMemNode, (h.unset type hc).1]

/-- A client's byte is behind the type byte of its block, and in no other block. -/
theorem Inv.put8_type (h : Inv s) (hc : s.config type = some c) {addr off : Nat} {v : UInt8}
    (ha : addr ∈ s.held type) (hoff : off < c.size) {e : Nat × Nat} (he : e ∈ s.blocks) :
    put8 s.mem (addr + off) v e.1 = s.mem e.1 := by
  rcases h.types type c hc with ⟨L, hL⟩
  rcases hL.held_block ha with ⟨-, -, b, -, rfl, hb, -⟩
  apply put8_outside
  by_contra hne
  -- The byte would be the first of a block and lie inside another.
  have heq : e.1 = b + 1 + off := by omega
  have hpos := h.blocks.pos e he
  have hsame := h.blocks.eq_of_byte he hb (x := e.1) ⟨by omega, by omega⟩ ⟨by omega, by omega⟩
  rw [hsame] at heq
  omega

theorem Inv.write (h : Inv s) (hc : s.config type = some c) {addr off : Nat} {v : UInt8}
    (ha : addr ∈ s.held type) (hoff : off < c.size) :
    Inv { s with mem := put8 s.mem (addr + off) v } := by
  refine ⟨?_, h.unset, h.blocks, h.started⟩
  intro type' c' hc'
  rcases h.types type' c' hc' with ⟨M, hM⟩
  exact ⟨M, hM.frame rfl (fun _ _ => rfl) (fun _ _ b' _ hb' => ⟨hb', h.put8_type hc ha hoff hb'⟩) rfl⟩

/-- The list of a type is the same in two states: its descriptor, and the nodes in it. -/
def SameList (s s' : Pools) (type : UInt8) : Prop :=
  s'.memList type = s.memList type ∧
    ∀ ps, Chain s.next (s.memList type).head ps → ∀ p ∈ ps, s'.nodes p = s.nodes p

theorem SameList.refl (s : Pools) (type : UInt8) : SameList s s type := ⟨rfl, fun _ _ _ _ => rfl⟩

theorem TypeInv.chain (h : TypeInv s type c L) :
    Chain s.next (s.memList type).head L.nodes := by
  rw [h.head]
  exact h.links.chain

/-- The nodes of a list are those of its layout. -/
theorem Inv.sameList (h : Inv s) {type' : UInt8} (hlist : s'.memList type' = s.memList type')
    (hnodes : ∀ c' L', TypeInv s type' c' L' → ∀ p ∈ L'.nodes, s'.nodes p = s.nodes p) :
    SameList s s' type' := by
  refine ⟨hlist, fun ps hps p hp => ?_⟩
  cases hc : s.config type' with
  | none =>
    rw [(h.unset type' hc).1] at hps
    rw [Chain.none_iff.mp hps] at hp
    cases hp
  | some c' =>
    rcases h.types type' c' hc with ⟨L', hL'⟩
    rw [hps.unique hL'.chain] at hp
    exact hnodes c' L' hL' p hp

theorem Frame.sameList (hf : Frame s s' type L) (h : Inv s) (hL : TypeInv s type c L)
    {type' : UInt8} (htype : type' ≠ type) : SameList s s' type' := by
  apply h.sameList (hf.memList type' htype)
  intro c' L' hL' p hp
  apply hf.nodes
  exact fun hmem => htype (hL'.apart hL hp hmem)

theorem Grows.sameList (hg : Grows s s' type) (h : Inv s) {type' : UInt8} (htype : type' ≠ type) :
    SameList s s' type' := by
  apply h.sameList (hg.memList type' htype)
  intro c' L' hL' p hp
  apply hg.nodes
  rcases hL'.live hp with ⟨node, hnode⟩
  rw [hnode]
  nofun

/-- What a call does to the list of its type, and to the others. -/
inductive Effect (s s' : Pools) (type : UInt8) : Prop
  | same : s' = s → Effect s s' type
  | move {c : Config} {L L' : Layout} : s.config type = some c → TypeInv s type c L →
      Frame s s' type L → TypeInv s' type c L' → L'.nodes = L.nodes → Effect s s' type
  | init : Grows { s with memListInit := true } s' type →
      (Unchanged { s with memListInit := true } s' type ∨
        ∃ c L, SetUp { s with memListInit := true } s' type c L) → Effect s s' type
  | write {c : Config} {addr off : Nat} {v : UInt8} : s.config type = some c →
      addr ∈ s.held type → off < c.size → s' = { s with mem := put8 s.mem (addr + off) v } →
      Effect s s' type

/-- A block that is handed out leaves the free part of its list. -/
theorem newMemNode_effect (h : Inv s) (hs : step s (.newMemNode type) = some s') :
    Effect s s' type := by
  simp only [step, Option.map_eq_some_iff] at hs
  rcases hs with ⟨⟨s₁, r⟩, hr, hs⟩
  cases hc : s.config type with
  | none =>
    rw [newMemNode_of_unset h hc] at hr
    cases hr
    cases hs
    exact .same rfl
  | some c =>
    rcases h.types type c hc with ⟨L, hL⟩
    rcases List.eq_nil_or_concat L.free with hfree | ⟨l, p, hfree⟩
    · rw [hL.newMemNode_of_empty hfree] at hr
      cases hr
      cases hs
      exact .same rfl
    · rw [List.concat_eq_append] at hfree
      rcases hL.newMemNode_of_append hfree with ⟨s₂, b, hnew, hheld, hL', hf⟩
      rw [hnew] at hr
      cases hr
      cases hs
      dsimp only
      rw [hheld]
      refine .move hc hL hf hL' ?_
      -- The node stays where it is: the border between free and used moves over it.
      rw [Layout.nodes, Layout.nodes, hfree, List.append_assoc]
      rfl

theorem freeMemNode_effect {addr : Nat} (h : Inv s)
    (hs : step s (.freeMemNode type addr) = some s') : Effect s s' type := by
  simp only [step] at hs
  split at hs
  · rename_i ha
    rw [Option.map_eq_some_iff] at hs
    rcases hs with ⟨s₁, hfree, rfl⟩
    cases hc : s.config type with
    | none =>
      rw [(h.unset type hc).2.2] at ha
      cases ha
    | some c =>
      rcases h.types type c hc with ⟨L, hL⟩
      rcases hL.freeMemNode_of_held ha with ⟨s₂, p, used, hused, hfree', hheld, hL', hf⟩
      rw [hfree] at hfree'
      cases hfree'
      rw [hheld]
      refine .move hc hL hf hL' ?_
      rw [Layout.nodes, Layout.nodes, hused, List.append_assoc]
      rfl
  · cases hs

theorem step_effect {a : Act} (h : Inv s) (hs : step s a = some s') : Effect s s' a.type := by
  cases a with
  | initMemList type size length mallocs =>
    simp only [step, Option.map_eq_some_iff] at hs
    rcases hs with ⟨⟨s₁, r⟩, hr, rfl⟩
    rcases initMemList_grows h hr with ⟨hg, htype⟩
    exact .init hg htype
  | newMemNode type => exact newMemNode_effect h hs
  | freeMemNode type addr => exact freeMemNode_effect h hs
  | write type addr off v =>
    simp only [step] at hs
    split at hs
    · rename_i c hc
      split at hs
      · rename_i hw
        cases hs
        exact .write hc hw.1 hw.2 rfl
      · cases hs
    · cases hs

theorem inv_step {a : Act} (h : Inv s) (hs : step s a = some s') :
    Inv s' ∧ ∀ type', type' ≠ a.type → SameList s s' type' := by
  cases step_effect h hs with
  | same heq =>
    subst heq
    exact ⟨h, fun type' _ => SameList.refl s' type'⟩
  | move hc hL hf hL' _ =>
    exact ⟨h.of_frame hc hL hf hL', fun type' hne => hf.sameList h hL hne⟩
  | init hg htype =>
    refine ⟨h.started_of.of_grows hg htype, fun type' hne => ?_⟩
    exact hg.sameList h.started_of hne
  | write hc ha hoff heq =>
    subst heq
    exact ⟨h.write hc ha hoff, fun type' _ => ⟨rfl, fun _ _ _ _ => rfl⟩⟩

theorem mem_invariant (mem : Mem) : (memPool mem).Invariant Inv where
  init := inv_init mem
  step h hs := (inv_step h hs).1

/-! ## 4. Exclusivity and conservation -/

/-- For each type that is set up, the nodes behind the sentinel up to `tail` hold what is not
handed out, and a step on one type leaves the lists of the others alone. -/
theorem blocks_exclusive {mem : Mem} (h : (memPool mem).Reachable s) :
    (∀ type c, s.config type = some c → ∃ head free used,
      Chain s.next (s.memList type).head (head :: (free ++ used)) ∧
      (s.memList type).tail = (head :: free).getLast? ∧
      (s.held type).Nodup ∧
      (∀ p ∈ free, ∀ addr ∈ s.held type, s.data p ≠ some (addr - 1)) ∧
      (s.held type).length + free.length = c.length ∧
      (∀ addr ∈ s.held type, 0 < addr ∧ s.mem (addr - 1) = type) ∧
      ∃ s' r, newMemNode s type = some (s', r) ∧
        (r = none ↔ (s.held type).length = c.length)) ∧
    ∀ a s', step s a = some s' → ∀ type, type ≠ a.type → SameList s s' type := by
  have hinv := (mem_invariant mem).of_reachable h
  refine ⟨fun type c hc => ?_, fun a s' hs => (inv_step hinv hs).2⟩
  rcases hinv.types type c hc with ⟨L, hL⟩
  have hnodup := List.nodup_append.mp hL.nodup_blocks
  refine ⟨L.head, L.free, L.used, hL.chain, ?_, hnodup.2.1, ?_, hL.held_length, ?_, ?_⟩
  · rw [hL.tail, backPtr_none]
  · intro p hp addr haddr hdata
    -- A free block and a handed-out block are two members of a list without duplicates.
    rcases hL.held_block haddr with ⟨-, -, b, -, rfl, -⟩
    have hfree : b + 1 ∈ (L.free.filterMap s.data).map (· + 1) :=
      List.mem_map.mpr ⟨b, List.mem_filterMap.mpr ⟨p, hp, hdata⟩, rfl⟩
    exact hnodup.2.2 _ hfree _ haddr rfl
  · intro addr haddr
    rcases hL.held_block haddr with ⟨-, -, b, -, rfl, -⟩
    exact ⟨Nat.succ_pos b, hL.held_type haddr⟩
  · have hlength := hL.held_length
    rcases List.eq_nil_or_concat L.free with hfree | ⟨l, p, hfree⟩
    · refine ⟨s, none, hL.newMemNode_of_empty hfree, fun _ => ?_, fun _ => rfl⟩
      rw [hfree, List.length_nil, Nat.add_zero] at hlength
      exact hlength
    · rw [List.concat_eq_append] at hfree
      rcases hL.newMemNode_of_append hfree with ⟨s', b, hnew, -⟩
      refine ⟨s', some (b + 1), hnew, nofun, fun hfull => ?_⟩
      rw [hfree, List.length_append, List.length_singleton] at hlength
      omega

/-- Types 3 and 9 with two blocks and one, and the blocks of type 3 freed out of order. -/
def twoTypes : List Act :=
  [.initMemList 3 8 2 [some 1, some 100, some 2, some 200, some 3, some 300],
    .initMemList 9 4 1 [some 4, some 400, some 5, some 500], .newMemNode 3, .newMemNode 3,
    .newMemNode 9, .write 3 201 7 255, .freeMemNode 3 201, .newMemNode 3, .freeMemNode 3 301]

theorem blocks_exclusive_twoTypes :
    ∃ s, (memPool fun _ => 0).exec (memPool fun _ => 0).init twoTypes = some s ∧
      s.held 3 = [201] ∧ s.held 9 = [501] ∧ (s.held 3).Nodup := by
  have hexec : ((memPool fun _ => 0).exec (memPool fun _ => 0).init twoTypes).map
      (fun s => (s.held 3, s.held 9, (s.config 3).map (·.length))) =
        some ([201], [501], some 2) := by decide +kernel
  rw [Option.map_eq_some_iff] at hexec
  rcases hexec with ⟨s, hs, hheld⟩
  rw [Prod.mk.injEq, Prod.mk.injEq, Option.map_eq_some_iff] at hheld
  rcases hheld with ⟨h3, h9, c, hc, -⟩
  rcases (blocks_exclusive (TransitionSystem.reachable_of_exec _ hs)).1 3 c hc with
    ⟨-, -, -, -, -, hnodup, -⟩
  exact ⟨s, hs, h3, h9, hnodup⟩

end CcPof.MemPool
