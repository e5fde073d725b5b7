import CcPof.ThreadPool.Links

/-!
# Initialisation

`pool_init` gets a pointer to the caller's pool and stores into its own copy of the pointer the
address of a new block. It fills that block and starts the threads on it. The caller still has the
old pointer, as `cc_conn_accept` has `sw_info->cc_thread_pool`, and submits tasks through it.
-/

namespace CcPof.ThreadPool

/-- `CThread_pool`, without its lock and its condition variable. -/
structure CThreadPool where
  queueHead : Option Addr
  shutdown : Int
  threadid : Addr
  attr : Addr
  maxThreadNum : Int
  curQueueSize : Int
  deriving DecidableEq, Repr

/-- A thread that runs `thread_routine`, with its argument. -/
structure Started where
  pool : Addr
  detached : Bool
  deriving DecidableEq, Repr

/-- Pools, task nodes and thread attributes (whether they ask for a detached thread) by address,
and the threads started so far. -/
structure Memory (F : Type) where
  pools : Addr → Option CThreadPool
  nodes : Addr → Option (CThreadWorker F)
  attrs : Addr → Option Bool
  started : List Started

namespace Memory

variable {F : Type}

def next (m : Memory F) (a : Addr) : Option Addr := (m.nodes a).bind (·.next)

/-- What `malloc` returns in `pool_init`. -/
structure Blocks where
  pool : Addr
  threadid : Addr
  attr : Addr
  deriving DecidableEq, Repr

/-- `pool_init`. The parameter `pool` is assigned before it is read. -/
def poolInit (m : Memory F) (_pool : Addr) (maxThreadNum : Int) (malloc : Blocks) : Memory F :=
  let pool := malloc.pool
  -- pthread_attr_setdetachstate(pool->attr, PTHREAD_CREATE_DETACHED)
  let detached := true
  { m with
    pools := Function.update m.pools pool (some {
      queueHead := none
      shutdown := 0
      threadid := malloc.threadid
      attr := malloc.attr
      maxThreadNum
      curQueueSize := 0 })
    attrs := Function.update m.attrs malloc.attr (some detached)
    started := m.started ++ List.replicate maxThreadNum.toNat ⟨pool, detached⟩ }

/-- The loop of `pool_add_worker`, for a list of at most `fuel` nodes. -/
def lastMember (m : Memory F) : Nat → Addr → Option Addr
  | 0, _ => none
  | fuel + 1, member => (m.nodes member).bind fun node =>
      match node.next with
      | some next => lastMember m fuel next
      | none => some member

/-- `pool_add_worker`, with the lock held throughout. -/
def poolAddWorker (m : Memory F) (pool : Addr) (process : F) (arg newworker : Addr) (fuel : Nat) :
    Option (Memory F) :=
  if (m.nodes newworker).isSome then none
  else
    let nodes := Function.update m.nodes newworker (some ⟨process, arg, none⟩)
    (m.pools pool).bind fun p =>
      match p.queueHead with
      | some member => (lastMember m fuel member).bind fun last => (m.nodes last).map fun node =>
          { m with
            nodes := Function.update nodes last (some { node with next := some newworker })
            pools := Function.update m.pools pool
              (some { p with curQueueSize := p.curQueueSize + 1 }) }
      | none => some { m with
          nodes
          pools := Function.update m.pools pool
            (some { p with
              queueHead := some newworker
              curQueueSize := p.curQueueSize + 1 }) }

/-- One turn of `thread_routine` up to the release of the lock, with the task taken. The thread
waits on an empty queue, and leaves when the pool shuts down. -/
def take (m : Memory F) (pool : Addr) : Option (Memory F × Task F) :=
  (m.pools pool).bind fun p =>
    if p.curQueueSize = 0 ∧ p.shutdown = 0 then none
    else if p.shutdown ≠ 0 then none
    else p.queueHead.bind fun worker => (m.nodes worker).map fun node =>
      ({ m with
          pools := Function.update m.pools pool
            (some { p with
              queueHead := node.next
              curQueueSize := p.curQueueSize - 1 }) }, node.task)

/-- The tasks in the queue of a pool. -/
def Polls (m : Memory F) (pool : Addr) (tasks : List (Task F)) : Prop :=
  ∃ p q, m.pools pool = some p ∧ Chain m.next p.queueHead q ∧
    tasks = q.filterMap fun a => (m.nodes a).map CThreadWorker.task

end Memory

/-- Memory after `pool_init`, with the tasks submitted and the tasks taken since then. -/
structure Session (F : Type) where
  memory : Memory F
  appended : List (Task F)
  handed : List (Task F)

inductive Call (F : Type)
  | poolAddWorker (process : F) (arg newworker : Addr) (fuel : Nat)
  | take (thread : Nat)

variable {F : Type}

/-- A call of `pool_add_worker` through the caller's pointer `P`, or a turn of one of the threads
on the pool that it was started with. -/
def callStep (P : Addr) (s : Session F) : Call F → Option (Session F)
  | .poolAddWorker process arg newworker fuel =>
      (s.memory.poolAddWorker P process arg newworker fuel).map fun memory =>
        { s with memory, appended := s.appended ++ [⟨process, arg⟩] }
  | .take thread =>
      s.memory.started[thread]?.bind fun started => (s.memory.take started.pool).map fun r =>
        { s with memory := r.1, handed := s.handed ++ [r.2] }

/-- The calls after `pool_init(P, n)`. -/
def session (m : Memory F) (P : Addr) (n : Int) (malloc : Memory.Blocks) :
    TransitionSystem (Session F) (Call F) where
  init := ⟨m.poolInit P n malloc, [], []⟩
  step := callStep P

/-- Submitters and workers share the pool at `P`. -/
structure SharesQueue (m : Memory F) (P : Addr) (n : Int) (malloc : Memory.Blocks) : Prop where
  fresh : ∃ p, (m.poolInit P n malloc).pools P = some p ∧ p.queueHead = none ∧
    p.curQueueSize = 0 ∧ p.shutdown = 0 ∧ p.maxThreadNum = n
  workers : ∃ l, (m.poolInit P n malloc).started = m.started ++ l ∧ l.length = n.toNat ∧
    ∀ t ∈ l, t.pool = P
  polled : ∀ s, (session m P n malloc).Reachable s → ∀ t ∈ s.memory.started.drop m.started.length,
    ∃ q, s.memory.Polls t.pool q ∧ s.appended = s.handed ++ q

/-! ## The threads' own block -/

/-- The pool that `pool_init` has filled in. -/
def freshPool (n : Int) (malloc : Memory.Blocks) : CThreadPool where
  queueHead := none
  shutdown := 0
  threadid := malloc.threadid
  attr := malloc.attr
  maxThreadNum := n
  curQueueSize := 0

section Block

variable {m m' : Memory F} {P pool a : Addr} {n : Int} {malloc : Memory.Blocks}

theorem Memory.poolInit_pools_self :
    (m.poolInit P n malloc).pools malloc.pool = some (freshPool n malloc) :=
  Function.update_self ..

theorem Memory.poolInit_pools_of_ne (h : a ≠ malloc.pool) :
    (m.poolInit P n malloc).pools a = m.pools a :=
  Function.update_of_ne h ..

theorem Memory.drop_started :
    (m.poolInit P n malloc).started.drop m.started.length =
      List.replicate n.toNat ⟨malloc.pool, true⟩ := by
  show (m.started ++ _).drop m.started.length = _
  rw [List.drop_left]

/-- The new block and its threads are what the other modules take for the pool. -/
theorem Memory.poolInit_model (S : Type) :
    (freshPool n malloc).queueHead = (CcPof.ThreadPool.poolInit F S n.toNat).queueHead ∧
      (freshPool n malloc).curQueueSize = (CcPof.ThreadPool.poolInit F S n.toNat).curQueueSize ∧
      ((freshPool n malloc).shutdown ≠ 0 ↔
        (CcPof.ThreadPool.poolInit F S n.toNat).shutdown = true) ∧
      ∀ t ∈ (m.poolInit P n malloc).started.drop m.started.length,
        t = ⟨malloc.pool, (CcPof.ThreadPool.poolInit F S n.toNat).detached⟩ := by
  refine ⟨rfl, rfl, by simp [freshPool, CcPof.ThreadPool.poolInit], ?_⟩
  intro t ht
  rw [Memory.drop_started] at ht
  exact List.eq_of_mem_replicate ht

/-- A submission changes one pool. -/
theorem Memory.poolAddWorker_frame {process : F} {arg newworker : Addr} {fuel : Nat}
    (h : m.poolAddWorker pool process arg newworker fuel = some m') :
    m'.started = m.started ∧ ∀ a, a ≠ pool → m'.pools a = m.pools a := by
  unfold Memory.poolAddWorker at h
  split at h
  · cases h
  · dsimp only at h
    rw [Option.bind_eq_some_iff] at h
    rcases h with ⟨p, -, h⟩
    split at h
    · rw [Option.bind_eq_some_iff] at h
      rcases h with ⟨last, -, h⟩
      rw [Option.map_eq_some_iff] at h
      rcases h with ⟨node, -, rfl⟩
      exact ⟨rfl, fun a ha => Function.update_of_ne ha ..⟩
    · cases h
      exact ⟨rfl, fun a ha => Function.update_of_ne ha ..⟩

theorem Memory.take_frame {r : Memory F × Task F} (h : m.take pool = some r) :
    r.1.started = m.started ∧ ∀ a, a ≠ pool → r.1.pools a = m.pools a := by
  unfold Memory.take at h
  rw [Option.bind_eq_some_iff] at h
  rcases h with ⟨p, -, h⟩
  split at h
  · cases h
  · split at h
    · cases h
    · rw [Option.bind_eq_some_iff] at h
      rcases h with ⟨worker, -, h⟩
      rw [Option.map_eq_some_iff] at h
      rcases h with ⟨node, -, rfl⟩
      exact ⟨rfl, fun a ha => Function.update_of_ne ha ..⟩

/-- A thread on an empty pool waits. -/
theorem Memory.take_freshPool (h : m.pools pool = some (freshPool n malloc)) :
    m.take pool = none := by
  unfold Memory.take
  rw [h]
  rfl

theorem Memory.polls_freshPool (h : m.pools pool = some (freshPool n malloc)) :
    m.Polls pool [] := ⟨freshPool n malloc, [], h, rfl, rfl⟩

/-- The calls through `P` leave the pool that the threads run on as `pool_init` has left it. -/
theorem session_invariant (hP : P ≠ malloc.pool) :
    (session m P n malloc).Invariant fun s =>
      s.memory.pools malloc.pool = some (freshPool n malloc) ∧
        s.memory.started = (m.poolInit P n malloc).started where
  init := ⟨Memory.poolInit_pools_self (P := P), rfl⟩
  step {s s' a} h hs := by
    have hs : callStep P s a = some s' := hs
    cases a with
    | poolAddWorker process arg newworker fuel =>
      unfold callStep at hs
      rw [Option.map_eq_some_iff] at hs
      rcases hs with ⟨memory, hadd, rfl⟩
      have hframe := Memory.poolAddWorker_frame hadd
      exact ⟨(hframe.2 _ hP.symm).trans h.1, hframe.1.trans h.2⟩
    | take thread =>
      unfold callStep at hs
      rw [Option.bind_eq_some_iff] at hs
      rcases hs with ⟨started, -, hs⟩
      rw [Option.map_eq_some_iff] at hs
      rcases hs with ⟨r, htake, rfl⟩
      have hne : started.pool ≠ malloc.pool := by
        intro heq
        rw [heq, Memory.take_freshPool h.1] at htake
        cases htake
      have hframe := Memory.take_frame htake
      exact ⟨(hframe.2 _ hne.symm).trans h.1, hframe.1.trans h.2⟩

/-- The caller's pool is never the one that the threads run on: `pool_init` leaves it as it was,
and whatever is submitted through it, the threads wait on an empty queue. -/
theorem poolInit_not_shared (hP : (m.pools P).isSome) (hn : 1 ≤ n)
    (hmalloc : m.pools malloc.pool = none) :
    ¬ SharesQueue m P n malloc ∧ (m.poolInit P n malloc).pools P = m.pools P ∧
      ∀ s, (session m P n malloc).Reachable s →
        ∀ t ∈ s.memory.started.drop m.started.length,
          t.pool ≠ P ∧ s.memory.Polls t.pool [] ∧ s.memory.take t.pool = none := by
  have hne : P ≠ malloc.pool := by
    rintro rfl
    rw [hmalloc] at hP
    cases hP
  refine ⟨?_, Memory.poolInit_pools_of_ne hne, ?_⟩
  · intro h
    -- There is at least one thread, and it runs on the new block.
    rcases h.workers with ⟨l, hl, -, hall⟩
    have hdrop : l = List.replicate n.toNat ⟨malloc.pool, true⟩ := by
      rw [← Memory.drop_started (m := m) (P := P), hl, List.drop_left]
    have hmem : (⟨malloc.pool, true⟩ : Started) ∈ l := by
      rw [hdrop, List.mem_replicate]
      exact ⟨by omega, rfl⟩
    exact hne (hall _ hmem).symm
  · intro s hs t ht
    have hinv := (session_invariant hne).of_reachable hs
    rw [hinv.2, Memory.drop_started] at ht
    rw [List.eq_of_mem_replicate ht]
    exact ⟨hne.symm, Memory.polls_freshPool hinv.1, Memory.take_freshPool hinv.1⟩

end Block

/-- A caller's pool at address 8, all zero. -/
def callerMemory : Memory Unit where
  pools a := if a = 8 then some ⟨none, 0, 0, 0, 0, 0⟩ else none
  nodes _ := none
  attrs _ := none
  started := []

theorem poolInit_not_shared_callerMemory :
    ¬ SharesQueue callerMemory 8 2 ⟨16, 24, 32⟩ ∧
      (callerMemory.poolInit 8 2 ⟨16, 24, 32⟩).pools 8 = some ⟨none, 0, 0, 0, 0, 0⟩ := by
  have h : ¬ SharesQueue callerMemory 8 2 ⟨16, 24, 32⟩ ∧
      (callerMemory.poolInit 8 2 ⟨16, 24, 32⟩).pools 8 = callerMemory.pools 8 ∧ _ :=
    poolInit_not_shared rfl (by decide) rfl
  exact ⟨h.1, h.2.1⟩

/-- A task is submitted through the caller's pointer, and no thread sees it. -/
theorem submitted_task_not_polled :
    ¬ SharesQueue callerMemory 8 2 ⟨16, 24, 32⟩ ∧ ∃ s, (session callerMemory 8 2 ⟨16, 24, 32⟩).exec
        ⟨callerMemory.poolInit 8 2 ⟨16, 24, 32⟩, [], []⟩ [.poolAddWorker () 100 1 0] = some s ∧
      s.appended = [⟨(), 100⟩] ∧ s.handed = [] ∧
      s.memory.started = [⟨16, true⟩, ⟨16, true⟩] ∧ s.memory.Polls 16 [] ∧
      s.memory.pools 8 = some ⟨some 1, 0, 0, 0, 0, 1⟩ := by
  constructor
  · intro h
    rcases h.fresh with ⟨p, hp, -, -, -, hmax⟩
    cases hp
    cases hmax
  · refine ⟨_, rfl, rfl, rfl, rfl, ?_, rfl⟩
    exact ⟨freshPool 2 ⟨16, 24, 32⟩, [], rfl, rfl, rfl⟩

end CcPof.ThreadPool
