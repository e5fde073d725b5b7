import CcPof.ThreadPool.Lifetime

/-!
# The memory of the tasks

A client allocates an argument block and passes it to `pool_add_worker` once; the pool allocates a
task node for it. `thread_routine` frees the block through `tmp_buf` and then again through
`worker->arg`, and `pool_destroy` frees the nodes that it finds in the queue, but not their blocks.
-/

namespace CcPof.ThreadPool

variable {F S : Type} {n : Nat}

/-! ## 1. The pool and its clients -/

/-- A pool in use: the blocks passed to `pool_add_worker` so far, and whether `pool->threadid` and
the pool itself are live. -/
structure Ledger (F S : Type) (n : Nat) where
  pool : Pool F S n
  submitted : List Addr
  threadid : Bool
  block : Bool

def ledgerInit (F S : Type) (n : Nat) : Ledger F S n where
  pool := poolInit F S n
  submitted := []
  threadid := true
  block := true

/-- What the clients do: each block passed to `pool_add_worker` is a live one, of its own, and
`pool_destroy` comes after all of these calls. Blocks are told apart by their addresses, so none
is allocated at the address of a submitted one. -/
def ClientOk (c : Ledger F S n) : Act F S n → Prop
  | .mallocArg arg => arg ∉ c.submitted
  | .poolAddWorker (.submitter _) _ arg _ =>
      c.pool.destroyer = .idle ∧ c.pool.args arg = true ∧ arg ∉ c.submitted
  | .poolAddWorker (.worker _) .. => False
  | .advance _ | .signal .. | .spurious _ => True
  | .poolDestroy => c.pool.destroyer = .idle → ∀ i, c.pool.pc (.submitter i) = .idle

def Ledger.after (c : Ledger F S n) (a : Act F S n) (s : Pool F S n) : Ledger F S n :=
  match a with
  | .poolAddWorker _ _ arg _ => { c with pool := s, submitted := arg :: c.submitted }
  | .poolDestroy => { c with
      pool := s
      threadid := c.threadid && c.pool.destroyer != .freeThreadid
      block := c.block && c.pool.destroyer != .freePool }
  | .mallocArg _ | .advance _ | .signal .. | .spurious _ => { c with pool := s }

/-- The blocks that a step frees are live. -/
def FreesLive (c : Ledger F S n) : Act F S n → Prop
  | .advance t =>
      match c.pool.pc t with
      | .freeBuf _ tmpBuf => c.pool.args tmpBuf = true
      | .freeArg worker => ∀ node, c.pool.nodes worker = some node → c.pool.args node.arg = true
      | .freeWorker worker => (c.pool.nodes worker).isSome
      | _ => True
  | .poolDestroy =>
      match c.pool.destroyer with
      | .freeThreadid => c.threadid = true
      | .freeHead head => (c.pool.nodes head).isSome
      | .freePool => c.block = true
      | _ => True
  | .mallocArg _ | .poolAddWorker .. | .signal .. | .spurious _ => True

/-- All workers have stopped, and `pool_destroy` has returned. -/
def Ledger.Stopped (c : Ledger F S n) : Prop :=
  (∀ w, c.pool.pc (.worker w) = .exited) ∧ c.pool.destroyer = .returned 0

/-- No task node and no block of a submitted task is live. -/
def Ledger.Released (c : Ledger F S n) : Prop :=
  (∀ a, c.pool.nodes a = none) ∧ ∀ arg ∈ c.submitted, c.pool.args arg = false

/-- No worker comes to its second `free` of a block, and `pool_destroy` finds the queue empty. -/
def LedgerOk (c : Ledger F S n) : Act F S n → Prop
  | .advance t => ∀ worker, c.pool.pc t ≠ .freeArg worker
  | .poolDestroy => c.pool.destroyer = .readHead → c.pool.queueHead = none
  | .mallocArg _ | .poolAddWorker .. | .signal .. | .spurious _ => True

def Pc.freesAgain : Pc → Option Addr
  | freeArg worker => some worker
  | _ => none

instance (c : Ledger F S n) : ∀ a, Decidable (LedgerOk c a)
  | .advance t =>
      if h : (c.pool.pc t).freesAgain = none then
        isTrue fun worker hpc => by rw [hpc] at h; cases h
      else
        isFalse fun hok => h (by
          cases hpc : c.pool.pc t <;> first | rfl | exact absurd hpc (hok _))
  | .poolDestroy => inferInstanceAs (Decidable (_ → _))
  | .mallocArg _ | .poolAddWorker .. | .signal .. | .spurious _ => isTrue trivial

section Client

variable [DecidableEq S] [∀ s : Pool F S n, Decidable (∀ i, s.pc (.submitter i) = .idle)]

instance (c : Ledger F S n) : ∀ a, Decidable (ClientOk c a)
  | .mallocArg _ => inferInstanceAs (Decidable (_ ∉ _))
  | .poolAddWorker (.submitter _) .. => inferInstanceAs (Decidable (_ ∧ _ ∧ _))
  | .poolAddWorker (.worker _) .. => isFalse False.elim
  | .advance _ | .signal .. | .spurious _ => isTrue trivial
  | .poolDestroy => inferInstanceAs (Decidable (_ → _))

variable (F S n) in
def ledger : TransitionSystem (Ledger F S n) (Act F S n) where
  init := ledgerInit F S n
  step c a := if ClientOk c a then (step c.pool a).map (c.after a) else none

theorem ledger_cases {c c' : Ledger F S n} {a : Act F S n} (hs : (ledger F S n).step c a = some c') :
    ClientOk c a ∧ ∃ s', step c.pool a = some s' ∧ c' = c.after a s' := by
  unfold ledger at hs
  dsimp only at hs
  split at hs
  · rename_i hok
    rw [Option.map_eq_some_iff] at hs
    rcases hs with ⟨s', hs, rfl⟩
    exact ⟨hok, s', hs, rfl⟩
  · cases hs

end Client

/-! ## 2. The blocks of the live nodes -/

def Pool.argOf (s : Pool F S n) (x : Addr) : Option Addr := (s.nodes x).map (·.arg)

theorem Pool.argOf_of_nodes {s s' : Pool F S n} {x : Addr} (h : s'.nodes x = s.nodes x) :
    s'.argOf x = s.argOf x := by
  rw [Pool.argOf, h, Pool.argOf]

theorem Pool.argOf_of_some {s : Pool F S n} {x : Addr} {node : CThreadWorker F}
    (h : s.nodes x = some node) : s.argOf x = some node.arg := by
  rw [Pool.argOf, h]
  rfl

/-- The node whose `arg` a worker has copied to `tmp_buf`, and the copy. -/
def Pc.loaded : Pc → Option (Addr × Addr)
  | run worker tmpBuf | freeBuf worker tmpBuf => some (worker, tmpBuf)
  | _ => none

theorem Pc.loaded_wake (pc : Pc) : pc.wake.loaded = pc.loaded := by
  cases pc <;> rfl

theorem Pc.freesAgain_wake (pc : Pc) : pc.wake.freesAgain = pc.freesAgain := by
  cases pc <;> rfl

theorem Pc.owns_of_freesAgain {pc : Pc} {x : Addr} (h : pc.freesAgain = some x) :
    pc.owns = some x := by
  cases pc <;> first | exact h | cases h

/-- The block of a node is its own, and live until a worker has freed it through `tmp_buf`. No node
is freed. -/
structure Balanced (s : Pool F S n) (submitted : List Addr) : Prop where
  loaded : ∀ t x b, (s.pc t).loaded = some (x, b) → s.argOf x = some b
  passed : ∀ x b, s.argOf x = some b → b ∈ submitted
  kept : ∀ b ∈ submitted, ∃ x, s.argOf x = some b
  distinct : ∀ x y b, s.argOf x = some b → s.argOf y = some b → x = y
  live : ∀ x b, s.argOf x = some b → (s.args b = true ↔ ∀ t, (s.pc t).freesAgain ≠ some x)
  noFree : ∀ t x, s.pc t ≠ .freeWorker x

theorem balanced_poolInit : Balanced (poolInit F S n) [] where
  loaded t x b h := by cases t <;> cases h
  passed x b h := by cases h
  kept b h := by cases h
  distinct x y b h := by cases h
  live x b h := by cases h
  noFree t x h := by cases t <;> cases h

theorem Balanced.congr {s s' : Pool F S n} {submitted : List Addr} (h : Balanced s submitted)
    (harg : ∀ x, s'.argOf x = s.argOf x) (hargs : ∀ b ∈ submitted, s'.args b = s.args b)
    (hloaded : ∀ t, (s'.pc t).loaded = (s.pc t).loaded)
    (hfrees : ∀ t, (s'.pc t).freesAgain = (s.pc t).freesAgain)
    (hnoFree : ∀ t x, s'.pc t ≠ .freeWorker x) : Balanced s' submitted where
  loaded t x b ht := by
    rw [hloaded] at ht
    rw [harg]
    exact h.loaded t x b ht
  passed x b hx := h.passed x b (by rw [← harg, hx])
  kept b hb := by
    rcases h.kept b hb with ⟨x, hx⟩
    exact ⟨x, by rw [harg, hx]⟩
  distinct x y b hx hy := by
    rw [harg] at hx hy
    exact h.distinct x y b hx hy
  live x b hx := by
    rw [harg] at hx
    rw [hargs b (h.passed x b hx), h.live x b hx]
    simp only [hfrees]
  noFree := hnoFree

section Step

variable [DecidableEq S] {s s' : Pool F S n} {t : Thread n S} {pc : Pc} {submitted : List Addr}

/-- A step of one thread that frees nothing. -/
theorem Balanced.goto (h : Balanced s submitted) (hpc : s'.pc = Function.update s.pc t pc)
    (harg : ∀ x, s'.argOf x = s.argOf x) (hargs : s'.args = s.args)
    (hfrees : (s.pc t).freesAgain = none ∧ pc.freesAgain = none) (hnoFree : ∀ x, pc ≠ .freeWorker x)
    (hloaded : ∀ x b, pc.loaded = some (x, b) → s.argOf x = some b) : Balanced s' submitted := by
  have hself : s'.pc t = pc := by rw [hpc, Function.update_self]
  have hother : ∀ u, u ≠ t → s'.pc u = s.pc u := by
    intro u hut
    rw [hpc, Function.update_of_ne hut]
  -- No thread comes to, or leaves, a second `free`.
  have hfrees' : ∀ u, (s'.pc u).freesAgain = (s.pc u).freesAgain := by
    intro u
    by_cases hut : u = t
    · subst hut
      rw [hself, hfrees.1, hfrees.2]
    · rw [hother u hut]
  refine ⟨?_, ?_, ?_, ?_, ?_, ?_⟩
  · intro u x b hu
    rw [harg]
    by_cases hut : u = t
    · subst hut
      rw [hself] at hu
      exact hloaded x b hu
    · rw [hother u hut] at hu
      exact h.loaded u x b hu
  · intro x b hx
    exact h.passed x b (by rw [← harg, hx])
  · intro b hb
    rcases h.kept b hb with ⟨x, hx⟩
    exact ⟨x, by rw [harg, hx]⟩
  · intro x y b hx hy
    rw [harg] at hx hy
    exact h.distinct x y b hx hy
  · intro x b hx
    rw [harg] at hx
    rw [hargs, h.live x b hx]
    simp only [hfrees']
  · intro u x
    by_cases hut : u = t
    · subst hut
      rw [hself]
      exact hnoFree x
    · rw [hother u hut]
      exact h.noFree u x

/-- The first `free` of an executed task's block. -/
theorem Balanced.freeBuf (h : Balanced s submitted) {worker tmpBuf : Addr}
    (ht : s.pc t = .freeBuf worker tmpBuf) :
    Balanced ({ s with args := Function.update s.args tmpBuf false }.goto t (.freeArg worker))
      submitted := by
  have hworker : s.argOf worker = some tmpBuf := h.loaded t worker tmpBuf (by rw [ht]; rfl)
  refine ⟨?_, h.passed, h.kept, h.distinct, ?_, ?_⟩
  · intro u x b hu
    by_cases hut : u = t
    · subst hut
      rw [Pool.pc_goto_self] at hu
      cases hu
    · rw [Pool.pc_goto_of_ne _ hut] at hu
      exact h.loaded u x b hu
  · intro x b hx
    change s.argOf x = some b at hx
    by_cases hb : b = tmpBuf
    · -- The block was `worker`'s, and the thread now stands at its second `free`.
      subst hb
      have hxw : x = worker := h.distinct x worker b hx hworker
      subst hxw
      show Function.update s.args b false b = true ↔ _
      rw [Function.update_self]
      refine iff_of_false (by simp) fun hall => hall t ?_
      rw [Pool.pc_goto_self]
      rfl
    · -- The block of another node, which this thread does not free.
      have hxw : x ≠ worker := by
        rintro rfl
        rw [hworker] at hx
        exact hb (Option.some.inj hx).symm
      show Function.update s.args tmpBuf false b = true ↔ _
      rw [Function.update_of_ne hb, h.live x b hx]
      apply forall_congr'
      intro u
      by_cases hut : u = t
      · subst hut
        rw [Pool.pc_goto_self, ht]
        exact iff_of_true (by simp [Pc.freesAgain]) fun heq => hxw (Option.some.inj heq).symm
      · rw [Pool.pc_goto_of_ne _ hut]
  · intro u x
    by_cases hut : u = t
    · subst hut
      rw [Pool.pc_goto_self]
      nofun
    · rw [Pool.pc_goto_of_ne _ hut]
      exact h.noFree u x

/-- A new node gets a block that no node has. -/
theorem Balanced.poolAddWorker (h : Balanced s submitted) {q : List Addr} (hl : Linked s q)
    {process : F} {arg newworker : Addr} (ht : s.pc t = .idle) (hfresh : s.nodes newworker = none)
    (hlive : s.args arg = true) (hnew : arg ∉ submitted) :
    Balanced ({ s with
      nodes := Function.update s.nodes newworker (some ⟨process, arg, none⟩) }.goto t
        (.lockAppend newworker)) (arg :: submitted) := by
  have hnone : s.argOf newworker = none := by rw [Pool.argOf, hfresh]; rfl
  set s' : Pool F S n := { s with
    nodes := Function.update s.nodes newworker (some ⟨process, arg, none⟩) }.goto t
      (.lockAppend newworker) with hs'
  have hnode : s'.nodes newworker = some ⟨process, arg, none⟩ := Function.update_self ..
  have hself : s'.argOf newworker = some arg := Pool.argOf_of_some hnode
  have hold : ∀ x, x ≠ newworker → s'.argOf x = s.argOf x :=
    fun x hx => Pool.argOf_of_nodes (Function.update_of_ne hx ..)
  have hpc : ∀ u, u ≠ t → s'.pc u = s.pc u := fun u hut => Pool.pc_goto_of_ne _ hut _
  have hpc_self : s'.pc t = .lockAppend newworker := Pool.pc_goto_self ..
  have hfrees : ∀ u, (s'.pc u).freesAgain = (s.pc u).freesAgain := by
    intro u
    by_cases hut : u = t
    · rw [hut, hpc_self, ht]
      rfl
    · rw [hpc u hut]
  -- No thread has the new node in its hands, since it was not live.
  have hunowned : ∀ u, (s.pc u).freesAgain ≠ some newworker := by
    intro u hu
    have hsome := (hl.owned u newworker (Pc.owns_of_freesAgain hu)).1
    rw [hfresh] at hsome
    cases hsome
  have hcases : ∀ x b, s'.argOf x = some b → x = newworker ∧ b = arg ∨
      x ≠ newworker ∧ s.argOf x = some b := by
    intro x b hx
    by_cases hxn : x = newworker
    · rw [hxn, hself] at hx
      exact Or.inl ⟨hxn, (Option.some.inj hx).symm⟩
    · rw [hold x hxn] at hx
      exact Or.inr ⟨hxn, hx⟩
  have hkeep : ∀ x b, s.argOf x = some b → s'.argOf x = some b := by
    intro x b hx
    have hxn : x ≠ newworker := by
      rintro rfl
      rw [hnone] at hx
      cases hx
    rw [hold x hxn, hx]
  exact {
    loaded := by
      intro u x b hu
      have hut : u ≠ t := by
        rintro rfl
        rw [hpc_self] at hu
        cases hu
      rw [hpc u hut] at hu
      exact hkeep x b (h.loaded u x b hu)
    passed := by
      intro x b hx
      rcases hcases x b hx with ⟨-, rfl⟩ | ⟨-, hx⟩
      · exact List.mem_cons_self
      · exact List.mem_cons_of_mem _ (h.passed x b hx)
    kept := by
      intro b hb
      rcases List.mem_cons.mp hb with rfl | hb
      · exact ⟨newworker, hself⟩
      · rcases h.kept b hb with ⟨x, hx⟩
        exact ⟨x, hkeep x b hx⟩
    distinct := by
      -- Two nodes with one block: the block is not new, or both are the new node.
      intro x y b hx hy
      rcases hcases x b hx with ⟨hxn, hxb⟩ | ⟨-, hx'⟩
      · rcases hcases y b hy with ⟨hyn, -⟩ | ⟨-, hy'⟩
        · rw [hxn, hyn]
        · rw [hxb] at hy'
          exact absurd (h.passed y arg hy') hnew
      · rcases hcases y b hy with ⟨-, hyb⟩ | ⟨-, hy'⟩
        · rw [hyb] at hx'
          exact absurd (h.passed x arg hx') hnew
        · exact h.distinct x y b hx' hy'
    live := by
      intro x b hx
      simp only [hfrees]
      show s.args b = true ↔ _
      rcases hcases x b hx with ⟨rfl, rfl⟩ | ⟨-, hx⟩
      · exact iff_of_true hlive hunowned
      · exact h.live x b hx
    noFree := by
      intro u x
      by_cases hut : u = t
      · rw [hut, hpc_self]
        nofun
      · rw [hpc u hut]
        exact h.noFree u x }

theorem balanced_advance (h : Balanced s submitted) (hok : ∀ x, s.pc t ≠ .freeArg x)
    (hs : Advance s t s') : Balanced s' submitted := by
  cases hs with
  | freeBuf hpc => exact h.freeBuf hpc
  | freeArg hpc => exact absurd hpc (hok _)
  | freeWorker hpc => exact absurd hpc (h.noFree t _)
  | @appendLast newworker member last node hpc hmember hlast hnode =>
    -- Linking a node behind the last one leaves the blocks of the nodes alone.
    refine h.goto rfl ?_ rfl ⟨by rw [hpc]; rfl, rfl⟩ nofun nofun
    intro x
    by_cases hx : x = member
    · subst hx
      rw [Pool.argOf_of_some hmember]
      have hnode : Function.update s.nodes x _ x = some { last with next := some newworker } :=
        Function.update_self ..
      exact Eq.trans (Pool.argOf_of_some hnode) rfl
    · exact Pool.argOf_of_nodes (Function.update_of_ne hx ..)
  | @load worker node hpc hnode =>
    refine h.goto rfl (fun _ => rfl) rfl ⟨by rw [hpc]; rfl, rfl⟩ nofun ?_
    intro x b hx
    cases hx
    exact Pool.argOf_of_some hnode
  | @run worker tmpBuf hpc =>
    refine h.goto rfl (fun _ => rfl) rfl ⟨by rw [hpc]; rfl, rfl⟩ nofun ?_
    intro x b hx
    exact h.loaded t x b (by rw [hpc]; exact hx)
  | lockTake hpc =>
    refine h.goto rfl (fun _ => rfl) rfl ⟨?_, rfl⟩ nofun nofun
    rcases hpc with hpc | hpc <;> rw [hpc] <;> rfl
  | lockAppend hpc | readHead hpc | appendEmpty hpc | walk hpc | incr hpc | unlockAppend hpc
    | testEmpty hpc | testLeave hpc | wait hpc | testShutdown hpc | testTask hpc | decrement hpc
    | dequeue hpc | unlockTake hpc | unlockExit hpc =>
    exact h.goto rfl (fun _ => rfl) rfl ⟨by rw [hpc]; rfl, rfl⟩ nofun nofun

omit [DecidableEq S] in
/-- `pool_destroy` frees no node outside of its loop. -/
theorem Balanced.poolDestroy (h : Balanced s submitted) (hd : s.destroyer.drains = false)
    (hs : poolDestroy s = some s') : Balanced s' submitted := by
  -- The broadcast puts no thread in front of a `free`.
  have hwake : ∀ t x, (s.pc t).wake ≠ .freeWorker x := by
    intro t x heq
    cases hpc : s.pc t <;> rw [hpc] at heq <;> cases heq
    exact h.noFree t x hpc
  have hpc := (poolDestroy_frame hs).2.1
  have hsame : s'.nodes = s.nodes ∧ s'.args = s.args := by
    unfold CcPof.ThreadPool.poolDestroy at hs
    split at hs
    case h_5 =>
      split at hs
      · split at hs <;> cases hs
        exact ⟨rfl, rfl⟩
      · cases hs
        exact ⟨rfl, rfl⟩
    case h_8 head hhead | h_9 head hhead =>
      rw [hhead] at hd
      cases hd
    all_goals first
      | cases hs
        exact ⟨rfl, rfl⟩
      | split at hs <;> cases hs <;> exact ⟨rfl, rfl⟩
      | cases hs
  have harg : ∀ x, s'.argOf x = s.argOf x := fun x => Pool.argOf_of_nodes (by rw [hsame.1])
  rcases hpc with hpc | hpc
  · refine h.congr harg (fun b _ => by rw [hsame.2]) ?_ ?_ ?_
    · intro t
      rw [hpc]
    · intro t
      rw [hpc]
    · intro t x
      rw [hpc]
      exact h.noFree t x
  · refine h.congr harg (fun b _ => by rw [hsame.2]) ?_ ?_ ?_
    · intro t
      rw [hpc]
      exact Pc.loaded_wake _
    · intro t
      rw [hpc]
      exact Pc.freesAgain_wake _
    · intro t x
      rw [hpc]
      exact hwake t x

end Step

/-! ## 3. The end of a run -/

/-- After the calls of `pool_add_worker` the submitters are idle, and the queue was empty when
`pool_destroy` came to it. -/
structure Closing (c : Ledger F S n) : Prop where
  worker : ∀ w, (c.pool.pc (.worker w)).appends = none
  quiet : c.pool.destroyer ≠ .idle → ∀ i, c.pool.pc (.submitter i) = .idle
  emptied : c.pool.destroyer.destroys = true → c.pool.queueHead = none
  undrained : c.pool.destroyer.drains = false
  threadid : c.pool.destroyer.undrained = true → c.threadid = true
  block : (∀ ret, c.pool.destroyer ≠ .returned ret) → c.block = true

theorem closing_ledgerInit : Closing (ledgerInit F S n) where
  worker w := rfl
  quiet h := absurd rfl h
  emptied h := by cases h
  undrained := rfl
  threadid _ := rfl
  block _ := rfl

section Step

variable [DecidableEq S] {s s' : Pool F S n} {t : Thread n S} {c : Ledger F S n} {a : Act F S n}

theorem pc_of_advance (hs : Advance s t s') {u : Thread n S} (hut : u ≠ t) : s'.pc u = s.pc u := by
  cases hs <;> exact Pool.pc_goto_of_ne _ hut _

theorem appends_of_advance (hs : Advance s t s') (ht : (s.pc t).appends = none) :
    (s'.pc t).appends = none := by
  cases hs
  case lockAppend hpc _ | readHead hpc _ | walk hpc _ _ =>
    rw [hpc] at ht
    cases ht
  all_goals
    rw [Pool.pc_goto_self]
    rfl

/-- Only a thread that appends a node ends the emptiness of the queue. -/
theorem queueHead_of_advance (hs : Advance s t s') (ht : (s.pc t).appends = none)
    (hhead : s.queueHead = none) : s'.queueHead = none := by
  cases hs
  case appendEmpty hpc _ _ =>
    rw [hpc] at ht
    cases ht
  case dequeue hsome _ =>
    rw [hhead] at hsome
    cases hsome
  all_goals exact hhead

omit [DecidableEq S] in
theorem Closing.appends (h : Closing c) (hd : c.pool.destroyer ≠ .idle) (t : Thread n S) :
    (c.pool.pc t).appends = none := by
  cases t with
  | worker w => exact h.worker w
  | submitter i =>
    rw [h.quiet hd i]
    rfl

/-- A thread moves, and `pool_destroy` does not. -/
theorem Closing.goto (h : Closing c) {submitted : List Addr}
    (hdest : s'.destroyer = c.pool.destroyer) (hother : ∀ u, u ≠ t → s'.pc u = c.pool.pc u)
    (hworker : ∀ w, t = .worker w → (s'.pc t).appends = none)
    (hidle : c.pool.destroyer ≠ .idle → ∀ i, t = .submitter i → s'.pc t = .idle)
    (hhead : c.pool.destroyer.destroys = true → s'.queueHead = none) :
    Closing { c with pool := s', submitted := submitted } where
  worker w := by
    by_cases hw : .worker w = t
    · rw [hw]
      exact hworker w hw.symm
    · rw [hother _ hw]
      exact h.worker w
  quiet hd i := by
    rw [hdest] at hd
    by_cases hi : .submitter i = t
    · rw [hi]
      exact hidle hd i hi.symm
    · rw [hother _ hi]
      exact h.quiet hd i
  emptied hd := by
    rw [hdest] at hd
    exact hhead hd
  undrained := by
    rw [hdest]
    exact h.undrained
  threadid hd := by
    rw [hdest] at hd
    exact h.threadid hd
  block hd := by
    rw [hdest] at hd
    exact h.block hd

theorem closing_advance (h : Closing c) (hs : Advance c.pool t s') :
    Closing (c.after (.advance t) s') := by
  refine h.goto (advance_destroyer hs) (fun u => pc_of_advance hs) ?_ ?_ ?_
  · rintro w rfl
    exact appends_of_advance hs (h.worker w)
  · rintro hd i rfl
    have hidle := h.quiet hd i
    cases hs <;> simp_all
  · -- `pool_destroy` has begun, so no submitter is about to append.
    intro hd
    have hidle : c.pool.destroyer ≠ .idle := by
      intro heq
      rw [heq] at hd
      cases hd
    exact queueHead_of_advance hs (h.appends hidle t) (h.emptied hd)

omit [DecidableEq S] in
/-- Where `pool_destroy` stands after a statement on an empty queue, and where it stood before. -/
theorem poolDestroy_emptied (hs : poolDestroy s = some s') (hd : s.destroyer.drains = false)
    (hempty : s.destroyer = .readHead → s.queueHead = none) :
    s'.queueHead = s.queueHead ∧ s'.destroyer.drains = false ∧
      (s'.destroyer.destroys = true → s.destroyer.destroys = true ∨ s.queueHead = none) ∧
      (s'.destroyer.undrained = true → s.destroyer.undrained = true ∧
        s.destroyer ≠ .freeThreadid) ∧
      ((∀ ret, s'.destroyer ≠ .returned ret) → (∀ ret, s.destroyer ≠ .returned ret) ∧
        s.destroyer ≠ .freePool) := by
  unfold CcPof.ThreadPool.poolDestroy at hs
  split at hs
  case h_5 hpc =>
    split at hs
    · split at hs <;> cases hs
      simp [hpc, DestroyPc.drains, DestroyPc.destroys, DestroyPc.undrained]
    · cases hs
      simp [hpc, DestroyPc.drains, DestroyPc.destroys, DestroyPc.undrained]
  case h_7 hpc =>
    -- The queue is empty, so the loop ends at once.
    rw [hempty hpc] at hs
    cases hs
    simp [hpc, hempty hpc, DestroyPc.drains, DestroyPc.undrained]
  case h_8 hpc | h_9 hpc =>
    rw [hpc] at hd
    cases hd
  case h_2 hpc =>
    split at hs <;> cases hs <;>
      simp [hpc, DestroyPc.drains, DestroyPc.destroys, DestroyPc.undrained]
  all_goals
    rename_i hpc
    cases hs
  all_goals simp [hpc, DestroyPc.drains, DestroyPc.destroys, DestroyPc.undrained]

omit [DecidableEq S] in
theorem closing_poolDestroy (h : Closing c)
    (hquiet : c.pool.destroyer = .idle → ∀ i, c.pool.pc (.submitter i) = .idle)
    (hempty : c.pool.destroyer = .readHead → c.pool.queueHead = none)
    (hs : poolDestroy c.pool = some s') : Closing (c.after .poolDestroy s') := by
  rcases poolDestroy_emptied hs h.undrained hempty with ⟨hhead, hdrains, hdestroys, hthreadid, hblock⟩
  have hpc := (poolDestroy_frame hs).2.1
  -- From the first statement of `pool_destroy` on the submitters are quiet.
  have hidle : ∀ i, c.pool.pc (.submitter i) = .idle := by
    intro i
    by_cases hd : c.pool.destroyer = .idle
    · exact hquiet hd i
    · exact h.quiet hd i
  refine ⟨?_, ?_, ?_, hdrains, ?_, ?_⟩
  · intro w
    show (s'.pc _).appends = none
    rcases hpc with hpc | hpc <;> rw [hpc]
    · exact h.worker w
    · rw [Pc.appends_wake]
      exact h.worker w
  · intro _ i
    show s'.pc _ = .idle
    rcases hpc with hpc | hpc <;> rw [hpc]
    · exact hidle i
    · show (c.pool.pc _).wake = .idle
      rw [hidle i]
      rfl
  · intro hd
    show s'.queueHead = none
    rw [hhead]
    exact (hdestroys hd).elim h.emptied id
  · intro hd
    show (c.threadid && c.pool.destroyer != .freeThreadid) = true
    rw [h.threadid (hthreadid hd).1, Bool.true_and]
    exact bne_iff_ne.mpr (hthreadid hd).2
  · intro hd
    show (c.block && c.pool.destroyer != .freePool) = true
    rw [h.block (hblock hd).1, Bool.true_and]
    exact bne_iff_ne.mpr (hblock hd).2

theorem closing_step (h : Closing c) (hclient : ClientOk c a) (hok : LedgerOk c a)
    (hs : Step c.pool a s') : Closing (c.after a s') := by
  cases hs with
  | mallocArg _ => exact ⟨h.worker, h.quiet, h.emptied, h.undrained, h.threadid, h.block⟩
  | @poolAddWorker t process arg newworker hpc hfresh =>
    cases t with
    | worker w => cases hclient
    | submitter i =>
      have hd : c.pool.destroyer = .idle := hclient.1
      refine h.goto (t := .submitter i) rfl (fun u hu => Pool.pc_goto_of_ne _ hu _) nofun ?_ ?_
      · exact fun hne => absurd hd hne
      · intro hdestroys
        rw [hd] at hdestroys
        cases hdestroys
  | advance hadv => exact closing_advance h hadv
  | @signalNone t hpc _ =>
    refine h.goto (t := t) rfl (fun u hu => Pool.pc_goto_of_ne _ hu _) ?_ ?_ h.emptied
    · intro w _
      rw [Pool.pc_goto_self]
      rfl
    · intro _ i _
      exact Pool.pc_goto_self ..
  | @signalSome t w hpc hwait =>
    -- Two threads move: the one that is woken, and the one that signals.
    have hwoken : Closing { c with pool := c.pool.goto (.worker w) .woken } := by
      refine h.goto (t := .worker w) rfl (fun u hu => Pool.pc_goto_of_ne _ hu _) ?_ nofun h.emptied
      intro v _
      rw [Pool.pc_goto_self]
      rfl
    refine hwoken.goto (t := t) rfl (fun u hu => Pool.pc_goto_of_ne _ hu _) ?_ ?_ h.emptied
    · intro w _
      rw [Pool.pc_goto_self]
      rfl
    · intro _ i _
      exact Pool.pc_goto_self ..
  | @spurious t hpc =>
    refine h.goto (t := t) rfl (fun u hu => Pool.pc_goto_of_ne _ hu _) ?_ ?_ h.emptied
    · intro w _
      rw [Pool.pc_goto_self]
      rfl
    · rintro hd i rfl
      rw [h.quiet hd i] at hpc
      cases hpc
  | poolDestroy hd => exact closing_poolDestroy h hclient hok hd

/-! ## 4. Runs -/

structure LedgerInv (c : Ledger F S n) : Prop where
  mutex : Mutex c.pool
  linked : ∃ q, Linked c.pool q
  balanced : Balanced c.pool c.submitted
  closing : Closing c

omit [DecidableEq S] in
theorem ledgerInv_ledgerInit : LedgerInv (ledgerInit F S n) where
  mutex := mutex_poolInit
  linked := ⟨[], linked_poolInit⟩
  balanced := balanced_poolInit
  closing := closing_ledgerInit

theorem balanced_step {q : List Addr} (h : Balanced c.pool c.submitted) (hl : Linked c.pool q)
    (hd : c.pool.destroyer.drains = false) (hclient : ClientOk c a) (hok : LedgerOk c a)
    (hs : Step c.pool a s') : Balanced (c.after a s').pool (c.after a s').submitted := by
  cases hs with
  | mallocArg _ =>
    have hnew : _ ∉ c.submitted := hclient
    refine h.congr (fun _ => rfl) ?_ (fun _ => rfl) (fun _ => rfl) h.noFree
    intro b hb
    refine Function.update_of_ne ?_ ..
    rintro rfl
    exact hnew hb
  | @poolAddWorker t process arg newworker hpc hfresh =>
    cases t with
    | worker w => cases hclient
    | submitter i => exact h.poolAddWorker hl hpc hfresh hclient.2.1 hclient.2.2
  | advance hadv => exact balanced_advance h hok hadv
  | signalNone hpc _ =>
    exact h.goto rfl (fun _ => rfl) rfl ⟨by rw [hpc]; rfl, rfl⟩ nofun nofun
  | @signalSome t w hpc hwait =>
    -- The thread that is woken is not the one that signals.
    have hwoken : Balanced (c.pool.goto (.worker w) .woken) c.submitted :=
      h.goto rfl (fun _ => rfl) rfl ⟨by rw [hwait]; rfl, rfl⟩ nofun nofun
    have ht : t ≠ .worker w := by
      rintro rfl
      rw [hpc] at hwait
      cases hwait
    refine hwoken.goto rfl (fun _ => rfl) rfl ⟨?_, rfl⟩ nofun nofun
    rw [Pool.pc_goto_of_ne _ ht, hpc]
    rfl
  | spurious hpc => exact h.goto rfl (fun _ => rfl) rfl ⟨by rw [hpc]; rfl, rfl⟩ nofun nofun
  | poolDestroy hs => exact h.poolDestroy hd hs

omit [DecidableEq S] in
theorem Ledger.pool_after (c : Ledger F S n) (a : Act F S n) (s : Pool F S n) :
    (c.after a s).pool = s := by
  cases a <;> rfl

theorem ledgerInv_step (h : LedgerInv c) (hclient : ClientOk c a) (hok : LedgerOk c a)
    (hs : step c.pool a = some s') : LedgerInv (c.after a s') := by
  have hstep := step_cases hs
  rcases h.linked with ⟨q, hq⟩
  have hdrains := h.closing.undrained
  refine ⟨?_, ?_, balanced_step h.balanced hq hdrains hclient hok hstep,
    closing_step h.closing hclient hok hstep⟩
  · rw [Ledger.pool_after]
    exact mutex_step h.mutex hs
  · rw [Ledger.pool_after]
    exact linked_step hq h.mutex (fun _ => hdrains) hstep

omit [DecidableEq S] in
theorem LedgerInv.freesLive (h : LedgerInv c) (hok : LedgerOk c a) : FreesLive c a := by
  cases a with
  | mallocArg | poolAddWorker | signal | spurious => trivial
  | advance t =>
    unfold FreesLive
    dsimp only
    split
    case h_1 worker tmpBuf hpc =>
      have harg := h.balanced.loaded t worker tmpBuf (by rw [hpc]; rfl)
      rw [h.balanced.live worker tmpBuf harg]
      intro u hu
      -- The thread that executes the task is the only one that has its node.
      rcases h.linked with ⟨q, hq⟩
      have hut : u = t :=
        hq.owner u t worker (Pc.owns_of_freesAgain hu) (by rw [hpc]; rfl)
      rw [hut, hpc] at hu
      cases hu
    case h_2 worker hpc => exact absurd hpc (hok worker)
    case h_3 worker hpc => exact absurd hpc (h.balanced.noFree t worker)
    case h_4 => trivial
  | poolDestroy =>
    unfold FreesLive
    dsimp only
    split
    case h_1 hpc => exact h.closing.threadid (by rw [hpc]; rfl)
    case h_2 head hpc =>
      have hdrains := h.closing.undrained
      rw [hpc] at hdrains
      cases hdrains
    case h_3 hpc => exact h.closing.block fun ret => by rw [hpc]; nofun
    case h_4 => trivial

omit [DecidableEq S] in
/-- With every thread at rest the queue has all the live nodes. -/
theorem LedgerInv.node_mem (h : LedgerInv c) {q : List Addr} (hq : Linked c.pool q)
    (hexited : ∀ w, c.pool.pc (.worker w) = .exited) (hd : c.pool.destroyer ≠ .idle) {x : Addr}
    (hx : (c.pool.nodes x).isSome) : x ∈ q := by
  rcases hq.placed x hx with hmem | ⟨t, ht⟩
  · exact hmem
  · cases t with
    | worker w =>
      rw [hexited w] at ht
      cases ht
    | submitter i =>
      rw [h.closing.quiet hd i] at ht
      cases ht

omit [DecidableEq S] in
theorem LedgerInv.released (h : LedgerInv c) (hstop : c.Stopped) : c.Released := by
  rcases hstop with ⟨hexited, hd⟩
  rcases h.linked with ⟨q, hq⟩
  have hhead : c.pool.queueHead = none := h.closing.emptied (by rw [hd]; rfl)
  have hnil : q = [] := hq.chain.eq_none_iff.mp hhead
  have hnone : ∀ x, c.pool.nodes x = none := by
    intro x
    rw [← Option.not_isSome_iff_eq_none]
    intro hx
    have hmem := h.node_mem hq hexited (by rw [hd]; nofun) hx
    rw [hnil] at hmem
    cases hmem
  refine ⟨hnone, ?_⟩
  intro arg harg
  -- Every submitted block still has its node.
  rcases h.balanced.kept arg harg with ⟨x, hx⟩
  rw [Pool.argOf, hnone x] at hx
  cases hx

end Step

section Run

variable [DecidableEq S] [∀ s : Pool F S n, Decidable (∀ i, s.pc (.submitter i) = .idle)]
  {s s' : Pool F S n} {c : Ledger F S n}

theorem ledgerInv_invariant : ((ledger F S n).restrict LedgerOk).Invariant LedgerInv := by
  apply TransitionSystem.Invariant.restrict
  · exact ledgerInv_ledgerInit
  · intro c c' a hI hok hs
    rcases ledger_cases hs with ⟨hclient, s', hs', rfl⟩
    exact ledgerInv_step hI hclient hok hs'

/-- The clients allow `pool_destroy` to go on once it has begun. -/
theorem ledger_execDestroy {k : Nat} (hd : c.pool.destroyer ≠ .idle)
    (hs : execDestroy k c.pool = some s') :
    ∃ c', (ledger F S n).exec c (List.replicate k .poolDestroy) = some c' ∧ c'.pool = s' ∧
      c'.submitted = c.submitted := by
  induction k generalizing c with
  | zero =>
    cases hs
    exact ⟨c, rfl, rfl, rfl⟩
  | succ k ih =>
    have hs : (poolDestroy c.pool).bind (execDestroy k) = some s' := hs
    rw [Option.bind_eq_some_iff] at hs
    rcases hs with ⟨s₁, h₁, hs⟩
    have hnext : (ledger F S n).step c .poolDestroy = some (c.after .poolDestroy s₁) := by
      have hclient : ClientOk c .poolDestroy := fun heq => absurd heq hd
      unfold ledger
      dsimp only
      rw [if_pos hclient]
      show (poolDestroy c.pool).map _ = _
      rw [h₁]
      rfl
    rcases ih (c := c.after .poolDestroy s₁) (poolDestroy_frame h₁).2.2 hs with ⟨c', hc', hrest⟩
    refine ⟨c', ?_, hrest⟩
    show ((ledger F S n).step c .poolDestroy).bind _ = _
    rw [hnext]
    exact hc'

/-- As long as no task is executed to its end and none is left at shutdown, every free is of a live
block, and nothing is left when all have stopped. The second `free` of a worker is of a block that
is not live, and a task in the queue at shutdown keeps its block. -/
theorem ledger_balances :
    (∀ c : Ledger F S n, ((ledger F S n).restrict LedgerOk).Reachable c →
      (∀ a, LedgerOk c a → FreesLive c a) ∧ (c.Stopped → c.Released)) ∧
    (∀ (c : Ledger F S n) t worker, ((ledger F S n).restrict LedgerOk).Reachable c →
      c.pool.pc t = .freeArg worker → ¬ FreesLive c (.advance t)) ∧
    ∀ (c : Ledger F S n) head, ((ledger F S n).restrict LedgerOk).Reachable c →
      c.pool.destroyer = .readHead → c.pool.queueHead = some head →
      (∀ w, c.pool.pc (.worker w) = .exited) →
      ∃ k c', (ledger F S n).exec c (List.replicate k .poolDestroy) = some c' ∧
        c'.Stopped ∧ ¬ c'.Released := by
  refine ⟨?_, ?_, ?_⟩
  · intro c hc
    have h := ledgerInv_invariant.of_reachable hc
    exact ⟨fun a => h.freesLive, h.released⟩
  · intro c t worker hc hpc hfrees
    have h := ledgerInv_invariant.of_reachable hc
    rcases h.linked with ⟨q, hq⟩
    have hsome := (hq.owned t worker (by rw [hpc]; rfl)).1
    rcases Option.isSome_iff_exists.mp hsome with ⟨node, hnode⟩
    unfold FreesLive at hfrees
    dsimp only at hfrees
    rw [hpc] at hfrees
    have hlive := h.balanced.live worker node.arg (Pool.argOf_of_some hnode)
    exact hlive.mp (hfrees node hnode) t (by rw [hpc]; rfl)
  · intro c head hc hd hhead hexited
    have h := ledgerInv_invariant.of_reachable hc
    have hne : c.pool.destroyer ≠ .idle := by
      rw [hd]
      exact DestroyPc.noConfusion
    rcases h.linked with ⟨q, hq⟩
    rcases drain_all hd hq.chain hq.live with ⟨k, s₁, hs₁, hd₁, hpc₁, hargs₁⟩
    -- destroy the mutex and the condition variable, free the pool
    let s₂ : Pool F S n := { s₁ with destroyer := .returned 0 }
    have hs₂ : execDestroy 3 s₁ = some s₂ := by
      have h₁ : poolDestroy s₁ = some { s₁ with destroyer := .destroyCond } := by
        simp only [poolDestroy, hd₁]
      exact execDestroy_succ h₁ rfl
    rcases ledger_execDestroy hne (execDestroy_add hs₁ hs₂) with ⟨c', hc', hpool, hsub⟩
    refine ⟨k + 3, c', hc', ⟨?_, ?_⟩, ?_⟩
    · intro w
      rw [hpool]
      show s₁.pc _ = .exited
      rw [hpc₁, hexited w]
    · rw [hpool]
    · -- The first task's block.
      rintro ⟨-, hargs⟩
      have hchain := hq.chain
      rw [hhead, Chain.some_iff] at hchain
      rcases hchain with ⟨q', rfl, -⟩
      rcases Option.isSome_iff_exists.mp (hq.live head List.mem_cons_self) with ⟨node, hnode⟩
      have harg := Pool.argOf_of_some hnode
      have hfalse := hargs node.arg (by rw [hsub]; exact h.balanced.passed head node.arg harg)
      rw [hpool] at hfalse
      change s₁.args node.arg = false at hfalse
      have hlive := (h.balanced.live head node.arg harg).mpr
      rw [← hargs₁, hfalse] at hlive
      have hfreed : ¬ ∀ t, (c.pool.pc t).freesAgain ≠ some head := fun hall =>
        Bool.false_ne_true (hlive hall)
      refine hfreed fun t ht => ?_
      exact (hq.owned t head (Pc.owns_of_freesAgain ht)).2 List.mem_cons_self

end Run

/-- One task, taken by the only worker and executed up to its first `free`. -/
def untilFree : List (Act Unit Bool 1) :=
  [.mallocArg 100, .poolAddWorker (.submitter false) () 100 1, .advance (.submitter false),
    .advance (.submitter false), .advance (.submitter false), .advance (.submitter false),
    .signal (.submitter false) none, .advance soleWorker, .advance soleWorker, .advance soleWorker,
    .advance soleWorker, .advance soleWorker, .advance soleWorker, .advance soleWorker,
    .advance soleWorker]

/-- `pool_destroy` of a pool that was never used. -/
def destroyUnused : List (Act Unit Bool 1) :=
  destroyAfterExit ++ [.poolDestroy, .poolDestroy, .poolDestroy]

theorem ledger_balances_untilFree :
    (∃ c, ((ledger Unit Bool 1).restrict LedgerOk).exec (ledgerInit Unit Bool 1) untilFree = some c ∧
      c.pool.pc soleWorker = .freeBuf 1 100 ∧ FreesLive c (.advance soleWorker)) ∧
    ∃ c, ((ledger Unit Bool 1).restrict LedgerOk).exec (ledgerInit Unit Bool 1)
        destroyUnused = some c ∧ c.Stopped ∧ c.Released := by
  constructor
  · refine ⟨_, rfl, rfl, ?_⟩
    exact (ledger_balances.1 _ (TransitionSystem.reachable_of_exec _ (l := untilFree) rfl)).1 _
      (by decide)
  · refine ⟨_, rfl, ⟨by decide, rfl⟩, ?_⟩
    exact (ledger_balances.1 _ (TransitionSystem.reachable_of_exec _ (l := destroyUnused) rfl)).2
      ⟨by decide, rfl⟩

/-- The only worker leaves without the task in the queue. -/
def destroyWithTask : List (Act Unit Bool 1) :=
  [.mallocArg 100, .poolAddWorker (.submitter false) () 100 1, .advance (.submitter false),
    .advance (.submitter false), .advance (.submitter false), .advance (.submitter false),
    .signal (.submitter false) none, .poolDestroy, .poolDestroy, .poolDestroy, .poolDestroy,
    .advance soleWorker, .advance soleWorker, .advance soleWorker, .advance soleWorker,
    .poolDestroy, .poolDestroy, .poolDestroy, .poolDestroy, .poolDestroy, .poolDestroy,
    .poolDestroy, .poolDestroy, .poolDestroy, .poolDestroy]

/-- The block of an executed task is freed twice, and that of a task still queued never. -/
theorem task_memory_unbalanced :
    (∃ c, (ledger Unit Bool 1).exec (ledgerInit Unit Bool 1)
        (untilFree ++ [.advance soleWorker]) = some c ∧ ¬ FreesLive c (.advance soleWorker)) ∧
    ∃ c, (ledger Unit Bool 1).exec (ledgerInit Unit Bool 1) destroyWithTask = some c ∧
      c.Stopped ∧ c.submitted = [100] ∧ c.pool.args 100 = true ∧ ¬ c.Released := by
  constructor
  · refine ⟨_, rfl, fun h => ?_⟩
    exact absurd (h _ rfl) (by decide)
  · refine ⟨_, rfl, ⟨by decide, rfl⟩, rfl, rfl, fun h => ?_⟩
    exact absurd (h.2 100 List.mem_cons_self) (by decide)

end CcPof.ThreadPool
