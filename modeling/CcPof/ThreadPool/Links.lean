import CcPof.Lib.Chain
import CcPof.ThreadPool.Model

/-!
# The nodes of the queue

A task node is in the list from `queue_head`, or with one thread: the submitter that has not linked
it yet, or the worker that has unlinked it. The lock keeps the threads that walk or change the list
apart, so this holds until `pool_destroy` drains the queue without the lock.
-/

namespace CcPof.ThreadPool

variable {F S : Type} {n : Nat}

/-! ## 1. Mutual exclusion -/

/-- The statements between `pthread_mutex_lock` and `pthread_mutex_unlock`. -/
def Pc.holds : Pc → Bool
  | readHead _ | walk _ _ | incr | unlockAppend => true
  | test | wait | testShutdown | decrement | dequeue | unlockTake _ | unlockExit => true
  | _ => false

def Mutex (s : Pool F S n) : Prop := ∀ t, s.queueLock = some t ↔ (s.pc t).holds = true

theorem mutex_poolInit : Mutex (poolInit F S n) := by
  intro t
  cases t <;> simp [poolInit, Pc.holds]

theorem Pc.holds_wake (pc : Pc) : pc.wake.holds = pc.holds := by
  cases pc <;> rfl

theorem Mutex.taken {s : Pool F S n} {t : Thread n S} (h : Mutex s) (ht : (s.pc t).holds = true) :
    s.queueLock ≠ none := by
  rw [(h t).mpr ht]
  nofun

section Step

variable [DecidableEq S] {s s' : Pool F S n} {t : Thread n S} {pc : Pc}

/-- A thread keeps what it holds, or takes the lock when it is free, or gives it back. -/
theorem Mutex.goto (h : Mutex s) (hpc : s'.pc = Function.update s.pc t pc)
    (hlock : s'.queueLock = s.queueLock ∧ pc.holds = (s.pc t).holds ∨
      s.queueLock = none ∧ s'.queueLock = some t ∧ pc.holds = true ∨
      s.queueLock = some t ∧ s'.queueLock = none ∧ pc.holds = false) : Mutex s' := by
  -- The thread itself, and any other, which cannot have the lock that is taken or given back.
  intro u
  rw [hpc]
  by_cases hut : u = t
  · subst hut
    rw [Function.update_self]
    rcases hlock with ⟨hl, hp⟩ | ⟨-, hl, hp⟩ | ⟨-, hl, hp⟩
    · rw [hl, hp]
      exact h u
    · simp [hl, hp]
    · simp [hl, hp]
  · rw [Function.update_of_ne hut]
    have htu : t ≠ u := fun heq => hut heq.symm
    have hu := h u
    rcases hlock with ⟨hl, -⟩ | ⟨hn, hl, -⟩ | ⟨hs, hl, -⟩
    · rw [hl]
      exact hu
    · simpa [hl, hn, htu] using hu
    · simpa [hl, hs, htu] using hu

theorem mutex_advance (h : Mutex s) (hs : advance s t = some s') : Mutex s' := by
  have ht := h t
  cases advance_cases hs
  all_goals
    apply h.goto rfl
    simp_all [Pc.holds, Pool.goto]

theorem Mutex.wake (h : Mutex s) (hwait : s.pc t = .waiting) : Mutex (s.goto t .woken) := by
  apply h.goto rfl
  rw [hwait]
  exact Or.inl ⟨rfl, rfl⟩

theorem mutex_step {a : Act F S n} (h : Mutex s) (hs : step s a = some s') : Mutex s' := by
  cases step_cases hs with
  | mallocArg => exact h
  | poolAddWorker hidle _ =>
    apply h.goto rfl
    rw [hidle]
    exact Or.inl ⟨rfl, rfl⟩
  | advance _ => exact mutex_advance h hs
  | signalNone hsignal _ =>
    apply h.goto rfl
    rw [hsignal]
    exact Or.inl ⟨rfl, rfl⟩
  | @signalSome t w hsignal hwait =>
    -- Two threads move: the signalling one, and the worker it wakes.
    have ht : t ≠ .worker w := by
      rintro rfl
      rw [hsignal] at hwait
      cases hwait
    have hpc : (s.goto (.worker w) .woken).pc t = .signal := by
      rw [Pool.pc_goto_of_ne _ ht, hsignal]
    apply (h.wake hwait).goto rfl
    rw [hpc]
    exact Or.inl ⟨rfl, rfl⟩
  | spurious hwait => exact h.wake hwait
  | poolDestroy hd =>
    rcases poolDestroy_frame hd with ⟨hlock, hpc | hpc, -⟩
    · intro t
      rw [hlock, hpc]
      exact h t
    · intro t
      rw [hlock, hpc, Pc.holds_wake]
      exact h t

end Step

theorem mutex_invariant [DecidableEq S] : (threadPool F S n).Invariant Mutex where
  init := mutex_poolInit
  step h hs := mutex_step h hs

/-! ## 2. Who has a node -/

/-- The task node that a thread has allocated and not linked, or unlinked and not freed. -/
def Pc.owns : Pc → Option Addr
  | lockAppend a | readHead a | walk a _ => some a
  | unlockTake a | load a | run a _ | freeBuf a _ | freeArg a | freeWorker a => some a
  | _ => none

def Pc.appends : Pc → Option Addr
  | lockAppend a | readHead a | walk a _ => some a
  | _ => none

theorem Pc.owns_of_appends {pc : Pc} {a : Addr} (h : pc.appends = some a) : pc.owns = some a := by
  cases pc <;> first | exact h | cases h

/-- The node that the loop of `pool_add_worker` has come to. -/
def Pc.member : Pc → Option Addr
  | walk _ member => some member
  | _ => none

theorem Pc.holds_of_member {pc : Pc} {m : Addr} (h : pc.member = some m) : pc.holds = true := by
  cases pc <;> first | rfl | cases h

theorem Pc.owns_wake (pc : Pc) : pc.wake.owns = pc.owns := by
  cases pc <;> rfl

theorem Pc.appends_wake (pc : Pc) : pc.wake.appends = pc.appends := by
  cases pc <;> rfl

theorem Pc.member_wake (pc : Pc) : pc.wake.member = pc.member := by
  cases pc <;> rfl

def Pool.task (s : Pool F S n) (a : Addr) : Option (Task F) :=
  (s.nodes a).map CThreadWorker.task

theorem Pool.next_of_nodes {s s' : Pool F S n} {a : Addr} (h : s'.nodes a = s.nodes a) :
    s'.next a = s.next a := by
  rw [Pool.next, h, Pool.next]

theorem Pool.tasks_of_nodes {s s' : Pool F S n} {q : List Addr}
    (h : ∀ a ∈ q, s'.nodes a = s.nodes a) : q.filterMap s'.task = q.filterMap s.task := by
  apply List.filterMap_congr
  intro a ha
  rw [Pool.task, h a ha, Pool.task]

/-- `q` are the nodes from `queue_head` on, and every other live node is with one thread. -/
structure Linked (s : Pool F S n) (q : List Addr) : Prop where
  chain : Chain s.next s.queueHead q
  live : ∀ a ∈ q, (s.nodes a).isSome
  history : s.appended = s.handed ++ q.filterMap s.task
  owned : ∀ t a, (s.pc t).owns = some a → (s.nodes a).isSome ∧ a ∉ q
  owner : ∀ t u a, (s.pc t).owns = some a → (s.pc u).owns = some a → t = u
  unlinked : ∀ t a, (s.pc t).appends = some a → s.next a = none
  member : ∀ t m, (s.pc t).member = some m → m ∈ q
  placed : ∀ a, (s.nodes a).isSome → a ∈ q ∨ ∃ t, (s.pc t).owns = some a

theorem linked_poolInit : Linked (poolInit F S n) [] where
  chain := rfl
  live := nofun
  history := rfl
  owned t a h := by cases t <;> cases h
  owner t u a h := by cases t <;> cases h
  unlinked t a h := by cases t <;> cases h
  member t m h := by cases t <;> cases h
  placed := nofun

/-- What is not about the nodes and the threads that have them. -/
theorem Linked.congr {s s' : Pool F S n} {q : List Addr} (h : Linked s q)
    (hnodes : s'.nodes = s.nodes) (hhead : s'.queueHead = s.queueHead)
    (happended : s'.appended = s.appended) (hhanded : s'.handed = s.handed)
    (howns : ∀ t, (s'.pc t).owns = (s.pc t).owns)
    (happends : ∀ t, (s'.pc t).appends = (s.pc t).appends)
    (hmember : ∀ t, (s'.pc t).member = (s.pc t).member) : Linked s' q := by
  have hsame : ∀ a, s'.nodes a = s.nodes a := fun a => by rw [hnodes]
  have hnext : s'.next = s.next := funext fun a => Pool.next_of_nodes (hsame a)
  refine ⟨?_, ?_, ?_, ?_, ?_, ?_, ?_, ?_⟩
  · rw [hnext, hhead]
    exact h.chain
  · rw [hnodes]
    exact h.live
  · rw [happended, hhanded, Pool.tasks_of_nodes fun a _ => hsame a]
    exact h.history
  · intro t a ht
    rw [howns] at ht
    rw [hnodes]
    exact h.owned t a ht
  · intro t u a ht hu
    rw [howns] at ht hu
    exact h.owner t u a ht hu
  · intro t a ht
    rw [happends] at ht
    rw [hnext]
    exact h.unlinked t a ht
  · intro t m ht
    rw [hmember] at ht
    exact h.member t m ht
  · intro a ha
    rw [hnodes] at ha
    exact (h.placed a ha).imp_right fun ⟨t, ht⟩ => ⟨t, by rw [howns, ht]⟩

/-- `pool_destroy` is about to take a node from the queue, or has done so. -/
def DestroyPc.drains : DestroyPc → Bool
  | advanceHead _ | freeHead _ => true
  | _ => false

theorem Linked.poolDestroy {s s' : Pool F S n} {q : List Addr} (h : Linked s q) (hd : s.destroyer.drains = false)
    (hs : poolDestroy s = some s') : Linked s' q := by
  have hlater : ∀ {s' : Pool F S n}, s'.nodes = s.nodes → s'.queueHead = s.queueHead →
      s'.appended = s.appended → s'.handed = s.handed → s'.pc = s.pc → Linked s' q := by
    intro s' hnodes hhead happended hhanded hpc
    apply h.congr hnodes hhead happended hhanded <;> intro t <;> rw [hpc]
  unfold CcPof.ThreadPool.poolDestroy at hs
  split at hs
  case h_4 hpc =>
    -- The broadcast moves threads, but no node.
    cases hs
    exact h.congr rfl rfl rfl rfl (fun t => Pc.owns_wake _) (fun t => Pc.appends_wake _)
      fun t => Pc.member_wake _
  case h_5 i hpc =>
    -- The loop of `pthread_join`.
    split at hs
    · split at hs
      · cases hs
        exact hlater rfl rfl rfl rfl rfl
      · cases hs
    · cases hs
      exact hlater rfl rfl rfl rfl rfl
  case h_8 head hpc =>
    -- Only these two statements take a node.
    rw [hpc] at hd
    cases hd
  case h_9 head hpc =>
    rw [hpc] at hd
    cases hd
  all_goals first
    | cases hs
      exact hlater rfl rfl rfl rfl rfl
    | split at hs <;> cases hs <;> exact hlater rfl rfl rfl rfl rfl
    | cases hs

section Step

variable [DecidableEq S] {s s' : Pool F S n} {t : Thread n S} {pc : Pc} {q q' : List Addr}

/-- What one thread's step has to show: the list that it leaves, and where its own node and the
nodes of the others are. A thread that changes the list holds the lock, so no other walks it. -/
theorem Linked.step (h : Linked s q) (hm : Mutex s) (hpc : s'.pc = Function.update s.pc t pc)
    (hchain : Chain s'.next s'.queueHead q') (hlive : ∀ a ∈ q', (s'.nodes a).isSome)
    (hhistory : s'.appended = s'.handed ++ q'.filterMap s'.task)
    (hshared : (s.pc t).holds = true ∨ q' = q)
    (hmember : ∀ m, pc.member = some m → m ∈ q')
    (hself : ∀ a, pc.owns = some a → (s'.nodes a).isSome ∧ a ∉ q' ∧
      (pc.appends = some a → s'.next a = none) ∧ ∀ u, u ≠ t → (s.pc u).owns ≠ some a)
    (hother : ∀ u a, u ≠ t → (s.pc u).owns = some a →
      (s'.nodes a).isSome ∧ a ∉ q' ∧ s'.next a = s.next a)
    (hplaced : ∀ a, (s'.nodes a).isSome → a ∈ q' ∨ pc.owns = some a ∨
      ∃ u, u ≠ t ∧ (s.pc u).owns = some a) : Linked s' q' := by
  have hpc_self : s'.pc t = pc := by rw [hpc, Function.update_self]
  have hpc_other : ∀ u, u ≠ t → s'.pc u = s.pc u := by
    intro u hut
    rw [hpc, Function.update_of_ne hut]
  refine ⟨hchain, hlive, hhistory, ?_, ?_, ?_, ?_, ?_⟩
  · intro u a hu
    by_cases hut : u = t
    · subst hut
      rw [hpc_self] at hu
      exact ⟨(hself a hu).1, (hself a hu).2.1⟩
    · rw [hpc_other u hut] at hu
      exact ⟨(hother u a hut hu).1, (hother u a hut hu).2.1⟩
  · -- Two owners of one node are one thread.
    intro u v a hu hv
    by_cases hut : u = t
    · by_cases hvt : v = t
      · rw [hut, hvt]
      · subst hut
        rw [hpc_self] at hu
        rw [hpc_other v hvt] at hv
        exact absurd hv ((hself a hu).2.2.2 v hvt)
    · rw [hpc_other u hut] at hu
      by_cases hvt : v = t
      · subst hvt
        rw [hpc_self] at hv
        exact absurd hu ((hself a hv).2.2.2 u hut)
      · rw [hpc_other v hvt] at hv
        exact h.owner u v a hu hv
  · intro u a hu
    by_cases hut : u = t
    · subst hut
      rw [hpc_self] at hu
      exact (hself a (Pc.owns_of_appends hu)).2.2.1 hu
    · rw [hpc_other u hut] at hu
      rw [(hother u a hut (Pc.owns_of_appends hu)).2.2]
      exact h.unlinked u a hu
  · intro u m hu
    by_cases hut : u = t
    · subst hut
      rw [hpc_self] at hu
      exact hmember m hu
    · rw [hpc_other u hut] at hu
      rcases hshared with hholds | rfl
      · -- The thread that walks would hold the lock too.
        have hlock := (hm t).mpr hholds
        rw [(hm u).mpr (Pc.holds_of_member hu)] at hlock
        exact absurd (Option.some.inj hlock) hut
      · exact h.member u m hu
  · intro a ha
    rcases hplaced a ha with hq | hown | ⟨u, hut, hu⟩
    · exact Or.inl hq
    · exact Or.inr ⟨t, by rw [hpc_self]; exact hown⟩
    · exact Or.inr ⟨u, by rw [hpc_other u hut]; exact hu⟩

/-- A step of one thread that leaves the nodes and the list alone. -/
theorem Linked.goto (h : Linked s q) (hm : Mutex s) (hpc : s'.pc = Function.update s.pc t pc)
    (hnodes : s'.nodes = s.nodes) (hhead : s'.queueHead = s.queueHead)
    (happended : s'.appended = s.appended) (hhanded : s'.handed = s.handed)
    (howns : pc.owns = (s.pc t).owns)
    (happends : ∀ a, pc.appends = some a → (s.pc t).appends = some a)
    (hmember : ∀ m, pc.member = some m → m ∈ q) : Linked s' q := by
  have hsame : ∀ a, s'.nodes a = s.nodes a := fun a => by rw [hnodes]
  have hnext : s'.next = s.next := funext fun a => Pool.next_of_nodes (hsame a)
  apply h.step hm hpc
  · rw [hnext, hhead]
    exact h.chain
  · rw [hnodes]
    exact h.live
  · rw [happended, hhanded, Pool.tasks_of_nodes fun a _ => hsame a]
    exact h.history
  · exact Or.inr rfl
  · exact hmember
  · intro a ha
    rw [howns] at ha
    have hown := h.owned t a ha
    rw [hnodes, hnext]
    exact ⟨hown.1, hown.2, fun hap => h.unlinked t a (happends a hap),
      fun u hut hu => hut (h.owner u t a hu ha)⟩
  · intro u a _ hu
    rw [hnodes, hnext]
    exact ⟨(h.owned u a hu).1, (h.owned u a hu).2, rfl⟩
  · intro a ha
    rw [hnodes] at ha
    refine (h.placed a ha).imp_right ?_
    rintro ⟨u, hu⟩
    by_cases hut : u = t
    · subst hut
      exact Or.inl (howns.trans hu)
    · exact Or.inr ⟨u, hut, hu⟩

/-- The new node is neither in the queue nor with another thread, since `malloc` returned it. -/
theorem Linked.poolAddWorker (h : Linked s q) (hm : Mutex s) {node : CThreadWorker F}
    {newworker : Addr} (hidle : s.pc t = .idle) (hfresh : s.nodes newworker = none)
    (hnode : node.next = none) :
    Linked ({ s with nodes := Function.update s.nodes newworker (some node) }.goto t
      (.lockAppend newworker)) q := by
  have hne : ∀ a, (s.nodes a).isSome → a ≠ newworker := by
    rintro a ha rfl
    rw [hfresh] at ha
    cases ha
  have hsame : ∀ a, (s.nodes a).isSome →
      Function.update s.nodes newworker (some node) a = s.nodes a :=
    fun a ha => Function.update_of_ne (hne a ha) ..
  refine h.step hm rfl ?_ ?_ ?_ (Or.inr rfl) nofun ?_ ?_ ?_
  · exact h.chain.congr fun a ha => Pool.next_of_nodes (hsame a (h.live a ha))
  · intro a ha
    show (Function.update s.nodes newworker (some node) a).isSome
    rw [hsame a (h.live a ha)]
    exact h.live a ha
  · rw [Pool.tasks_of_nodes fun a ha => hsame a (h.live a ha)]
    exact h.history
  · -- The submitter owns the new node until it is in the queue.
    intro a ha
    cases ha
    have hnew : Function.update s.nodes newworker (some node) newworker = some node :=
      Function.update_self ..
    refine ⟨?_, fun hq => hne _ (h.live _ hq) rfl, fun _ => ?_, ?_⟩
    · show (Function.update s.nodes newworker (some node) newworker).isSome
      rw [hnew]
      rfl
    · show (Function.update s.nodes newworker (some node) newworker).bind _ = none
      rw [hnew]
      exact hnode
    · intro u _ hu
      exact hne _ (h.owned u _ hu).1 rfl
  · intro u a _ hu
    have hown := h.owned u a hu
    refine ⟨?_, hown.2, Pool.next_of_nodes (hsame a hown.1)⟩
    show (Function.update s.nodes newworker (some node) a).isSome
    rw [hsame a hown.1]
    exact hown.1
  · intro a ha
    by_cases hnew : a = newworker
    · exact Or.inr (Or.inl (by rw [hnew]; rfl))
    · have hold : (s.nodes a).isSome := by
        have hsome : (Function.update s.nodes newworker (some node) a).isSome := ha
        rw [Function.update_of_ne hnew] at hsome
        exact hsome
      refine (h.placed a hold).imp_right ?_
      rintro ⟨u, hu⟩
      refine Or.inr ⟨u, ?_, hu⟩
      rintro rfl
      rw [hidle] at hu
      cases hu

theorem Linked.appendEmpty (h : Linked s q) (hm : Mutex s) {newworker : Addr}
    {node : CThreadWorker F} (ht : s.pc t = .readHead newworker) (hhead : s.queueHead = none)
    (hnode : s.nodes newworker = some node) :
    q = [] ∧ Linked ({ s with
      queueHead := some newworker
      appended := s.appended ++ [node.task] }.goto t .incr) [newworker] := by
  have hholds : (s.pc t).holds = true := by rw [ht]; rfl
  have howns : (s.pc t).owns = some newworker := by rw [ht]; rfl
  -- An empty head is an empty queue, so the task is linked at the head.
  have hnil : q = [] := h.chain.eq_none_iff.mp hhead
  subst hnil
  have hnext : s.next newworker = none := h.unlinked t newworker (by rw [ht]; rfl)
  refine ⟨rfl, h.step hm rfl ?_ ?_ ?_ (Or.inl hholds) nofun nofun ?_ ?_⟩
  · exact Chain.singleton hnext
  · intro a ha
    rw [List.mem_singleton.mp ha]
    show (s.nodes newworker).isSome
    rw [hnode]
    rfl
  · show s.appended ++ [node.task] = s.handed ++ [newworker].filterMap s.task
    rw [h.history, List.filterMap_cons_some (b := node.task) (by rw [Pool.task, hnode]; rfl)]
    simp
  · intro u a hut hu
    refine ⟨(h.owned u a hu).1, fun hq => ?_, rfl⟩
    rw [List.mem_singleton.mp hq] at hu
    exact hut (h.owner u t newworker hu howns)
  · intro a ha
    rcases h.placed a ha with hq | ⟨u, hu⟩
    · cases hq
    · by_cases hut : u = t
      · subst hut
        rw [howns] at hu
        exact Or.inl (List.mem_singleton.mpr (Option.some.inj hu).symm)
      · exact Or.inr (Or.inr ⟨u, hut, hu⟩)

theorem Linked.appendLast (h : Linked s q) (hm : Mutex s) {newworker member : Addr}
    {last node : CThreadWorker F} (ht : s.pc t = .walk newworker member)
    (hmember : s.nodes member = some last) (hlast : last.next = none)
    (hnode : s.nodes newworker = some node) :
    Linked ({ s with
      nodes := Function.update s.nodes member (some { last with next := some newworker })
      appended := s.appended ++ [node.task] }.goto t .incr) (q ++ [newworker]) := by
  have hholds : (s.pc t).holds = true := by rw [ht]; rfl
  have howns : (s.pc t).owns = some newworker := by rw [ht]; rfl
  have hown := h.owned t newworker howns
  have hnext : s.next newworker = none := h.unlinked t newworker (by rw [ht]; rfl)
  have hmem : member ∈ q := h.member t member (by rw [ht]; rfl)
  have hnext' : ∀ a, ((Function.update s.nodes member
      (some { last with next := some newworker })) a).bind (·.next) =
        Function.update s.next member (some newworker) a := by
    intro a
    by_cases ha : a = member
    · subst ha
      rw [Function.update_self, Function.update_self]
      rfl
    · rw [Function.update_of_ne ha, Function.update_of_ne ha]
      rfl
  -- Linking the new node changes neither the tasks in the nodes nor which nodes are live.
  have htask : ∀ a, ((Function.update s.nodes member
      (some { last with next := some newworker })) a).map CThreadWorker.task = s.task a := by
    intro a
    by_cases ha : a = member
    · subst ha
      rw [Function.update_self, Pool.task, hmember]
      rfl
    · rw [Function.update_of_ne ha]
      rfl
  have hlive : ∀ a, (Function.update s.nodes member
      (some { last with next := some newworker }) a).isSome = (s.nodes a).isSome := by
    intro a
    have hmap := congrArg Option.isSome (htask a)
    rw [Option.isSome_map, Pool.task, Option.isSome_map] at hmap
    exact hmap
  refine h.step hm rfl ?_ ?_ ?_ (Or.inl hholds) nofun nofun ?_ ?_
  · have hlink : s.next member = none := by
      rw [Pool.next, hmember]
      exact hlast
    apply (h.chain.append_last hmem hlink hnext hown.2).congr
    exact fun a _ => hnext' a
  · intro a ha
    refine (hlive a).trans ?_
    rcases List.mem_append.mp ha with ha | ha
    · exact h.live a ha
    · rw [List.mem_singleton.mp ha]
      exact hown.1
  · show s.appended ++ [node.task] = s.handed ++ (q ++ [newworker]).filterMap fun a =>
      ((Function.update s.nodes member
        (some { last with next := some newworker })) a).map CThreadWorker.task
    have htasks : (q ++ [newworker]).filterMap s.task = q.filterMap s.task ++ [node.task] := by
      rw [List.filterMap_append]
      simp [Pool.task, hnode]
    simp only [htask]
    rw [htasks, h.history, List.append_assoc]
  · intro u a hut hu
    have howned := h.owned u a hu
    refine ⟨(hlive a).trans howned.1, ?_, ?_⟩
    · rw [List.mem_append, List.mem_singleton]
      rintro (ha | rfl)
      · exact howned.2 ha
      · exact hut (h.owner u t a hu howns)
    · have ha : a ≠ member := fun heq => howned.2 (heq ▸ hmem)
      exact (hnext' a).trans (Function.update_of_ne ha ..)
  · intro a ha
    rcases h.placed a ((hlive a).symm.trans ha) with hq | ⟨u, hu⟩
    · exact Or.inl (List.mem_append_left _ hq)
    · by_cases hut : u = t
      · subst hut
        rw [howns] at hu
        exact Or.inl (List.mem_append_right _ (List.mem_singleton.mpr (Option.some.inj hu).symm))
      · exact Or.inr (Or.inr ⟨u, hut, hu⟩)

theorem Linked.dequeue (h : Linked s q) (hm : Mutex s) {worker : Addr}
    {node : CThreadWorker F} (ht : s.pc t = .dequeue) (hhead : s.queueHead = some worker)
    (hnode : s.nodes worker = some node) :
    ∃ q', q = worker :: q' ∧ Linked ({ s with
      queueHead := node.next
      handed := s.handed ++ [node.task] }.goto t (.unlockTake worker)) q' := by
  have hholds : (s.pc t).holds = true := by rw [ht]; rfl
  have hchain := h.chain
  rw [hhead, Chain.some_iff] at hchain
  rcases hchain with ⟨q', rfl, hchain⟩
  -- The head leaves the queue, and the worker that unlinks it is its only owner.
  have hnodup : worker ∉ q' := (List.nodup_cons.mp h.chain.nodup).1
  have hnext : s.next worker = node.next := by rw [Pool.next, hnode]; rfl
  refine ⟨q', rfl, h.step hm rfl ?_ ?_ ?_ (Or.inl hholds) nofun ?_ ?_ ?_⟩
  · show Chain s.next node.next q'
    rw [← hnext]
    exact hchain
  · exact fun a ha => h.live a (List.mem_cons_of_mem _ ha)
  · show s.appended = s.handed ++ [node.task] ++ q'.filterMap s.task
    have htask : s.task worker = some node.task := by rw [Pool.task, hnode]; rfl
    rw [h.history, List.filterMap_cons_some htask, List.append_assoc]
    rfl
  · intro a ha
    cases ha
    refine ⟨h.live worker List.mem_cons_self, hnodup, nofun, fun u _ hu => ?_⟩
    exact (h.owned u worker hu).2 List.mem_cons_self
  · intro u a _ hu
    have howned := h.owned u a hu
    exact ⟨howned.1, fun ha => howned.2 (List.mem_cons_of_mem _ ha), rfl⟩
  · intro a ha
    rcases h.placed a ha with hq | ⟨u, hu⟩
    · rcases List.mem_cons.mp hq with rfl | hq
      · exact Or.inr (Or.inl rfl)
      · exact Or.inl hq
    · refine Or.inr (Or.inr ⟨u, ?_, hu⟩)
      rintro rfl
      rw [ht] at hu
      cases hu

theorem Linked.freeWorker (h : Linked s q) (hm : Mutex s) {worker : Addr}
    (ht : s.pc t = .freeWorker worker) :
    Linked ({ s with nodes := Function.update s.nodes worker none }.goto t .lockTake) q := by
  have howns : (s.pc t).owns = some worker := by rw [ht]; rfl
  have hown := h.owned t worker howns
  have hsame : ∀ a, a ≠ worker → Function.update s.nodes worker none a = s.nodes a :=
    fun a ha => Function.update_of_ne ha ..
  -- The worker is the only owner of the node, and the node is not in the queue.
  have hne : ∀ a ∈ q, a ≠ worker := fun a ha heq => hown.2 (heq ▸ ha)
  refine h.step hm rfl ?_ ?_ ?_ (Or.inr rfl) nofun nofun ?_ ?_
  · exact h.chain.congr fun a ha => Pool.next_of_nodes (hsame a (hne a ha))
  · intro a ha
    show (Function.update s.nodes worker none a).isSome
    rw [hsame a (hne a ha)]
    exact h.live a ha
  · rw [Pool.tasks_of_nodes fun a ha => hsame a (hne a ha)]
    exact h.history
  · intro u a hut hu
    have howned := h.owned u a hu
    have ha : a ≠ worker := by
      rintro rfl
      exact hut (h.owner u t a hu howns)
    refine ⟨?_, howned.2, Pool.next_of_nodes (hsame a ha)⟩
    show (Function.update s.nodes worker none a).isSome
    rw [hsame a ha]
    exact howned.1
  · intro a ha
    have hlive : (Function.update s.nodes worker none a).isSome := ha
    have hworker : a ≠ worker := by
      rintro rfl
      rw [Function.update_self] at hlive
      cases hlive
    rw [hsame a hworker] at hlive
    refine (h.placed a hlive).imp_right ?_
    rintro ⟨u, hu⟩
    refine Or.inr ⟨u, ?_, hu⟩
    rintro rfl
    rw [howns] at hu
    exact hworker (Option.some.inj hu).symm

theorem linked_advance (h : Linked s q) (hm : Mutex s) (hs : Advance s t s') :
    ∃ q', Linked s' q' := by
  cases hs with
  | appendEmpty hpc hhead hnode => exact ⟨_, (h.appendEmpty hm hpc hhead hnode).2⟩
  | appendLast hpc hmember hlast hnode => exact ⟨_, h.appendLast hm hpc hmember hlast hnode⟩
  | dequeue hpc hhead hnode =>
    rcases h.dequeue hm hpc hhead hnode with ⟨q', -, h'⟩
    exact ⟨q', h'⟩
  | freeWorker hpc => exact ⟨q, h.freeWorker hm hpc⟩
  | @readHead newworker member hpc hhead =>
    -- The walk starts at the head of the list and follows its links.
    refine ⟨q, h.goto hm rfl rfl rfl rfl rfl (by rw [hpc]; rfl) (by rw [hpc]; exact fun a ha => ha) ?_⟩
    intro m hmem
    cases hmem
    have hchain := h.chain
    rw [hhead, Chain.some_iff] at hchain
    rcases hchain with ⟨q', rfl, -⟩
    exact List.mem_cons_self
  | @walk newworker member last next hpc hmember hlast =>
    refine ⟨q, h.goto hm rfl rfl rfl rfl rfl (by rw [hpc]; rfl) (by rw [hpc]; exact fun a ha => ha) ?_⟩
    intro m hmem
    cases hmem
    have hnext : s.next member = some next := by rw [Pool.next, hmember]; exact hlast
    exact h.chain.mem_of_next (h.member t member (by rw [hpc]; rfl)) hnext
  | lockAppend hpc _ =>
    exact ⟨q, h.goto hm rfl rfl rfl rfl rfl (by rw [hpc]; rfl) (by rw [hpc]; exact fun a ha => ha) nofun⟩
  | lockTake hpc _ =>
    refine ⟨q, h.goto hm rfl rfl rfl rfl rfl ?_ nofun nofun⟩
    rcases hpc with hpc | hpc <;> rw [hpc] <;> rfl
  | incr hpc _ | unlockAppend hpc | testEmpty hpc _ _ | testLeave hpc _ | wait hpc
    | testShutdown hpc _ | testTask hpc _ | decrement hpc | unlockTake hpc | load hpc _ | run hpc
    | freeBuf hpc | freeArg hpc _ | unlockExit hpc =>
    exact ⟨q, h.goto hm rfl rfl rfl rfl rfl (by rw [hpc]; rfl) nofun nofun⟩

/-- Every step but those of the drain keeps the nodes in their places. -/
theorem linked_step {a : Act F S n} (h : Linked s q) (hm : Mutex s)
    (hd : a = .poolDestroy → s.destroyer.drains = false) (hs : Step s a s') :
    ∃ q', Linked s' q' := by
  cases hs with
  | mallocArg _ =>
    exact ⟨q, h.congr rfl rfl rfl rfl (fun _ => rfl) (fun _ => rfl) fun _ => rfl⟩
  | poolAddWorker hidle hfresh => exact ⟨q, h.poolAddWorker hm hidle hfresh rfl⟩
  | advance hadv => exact linked_advance h hm hadv
  | signalNone hpc _ => exact ⟨q, h.goto hm rfl rfl rfl rfl rfl (by rw [hpc]; rfl) nofun nofun⟩
  | @signalSome t w hpc hwait =>
    have hwoken : Linked (s.goto (.worker w) .woken) q :=
      h.goto hm rfl rfl rfl rfl rfl (by rw [hwait]; rfl) nofun nofun
    have ht : t ≠ .worker w := by
      rintro rfl
      rw [hpc] at hwait
      cases hwait
    refine ⟨q, hwoken.goto (hm.wake hwait) rfl rfl rfl rfl rfl ?_ nofun nofun⟩
    rw [Pool.pc_goto_of_ne _ ht, hpc]
    rfl
  | spurious hpc => exact ⟨q, h.goto hm rfl rfl rfl rfl rfl (by rw [hpc]; rfl) nofun nofun⟩
  | poolDestroy hs => exact ⟨q, h.poolDestroy (hd rfl) hs⟩

end Step

/-! ## 3. Runs up to the drain -/

/-- `pool_destroy` has not come to the loop that empties the queue. -/
def DestroyPc.undrained : DestroyPc → Bool
  | idle | testShutdown | setShutdown | broadcast | join _ | freeThreadid => true
  | _ => false

def LinkedOk (s : Pool F S n) : Prop := s.destroyer.undrained = true → ∃ q, Linked s q

theorem undrained_of_poolDestroy {s s' : Pool F S n} (hs : poolDestroy s = some s')
    (h : s'.destroyer.undrained = true) :
    s.destroyer.undrained = true ∧ s.destroyer.drains = false := by
  unfold CcPof.ThreadPool.poolDestroy at hs
  split at hs
  case h_8 head hpc =>
    rw [Option.map_eq_some_iff] at hs
    rcases hs with ⟨node, -, rfl⟩
    cases h
  all_goals
    rename_i hpc
    rw [hpc]
    first
    | exact ⟨rfl, rfl⟩
    | cases hs
      cases h
    | split at hs <;> cases hs <;> cases h
    | cases hs

variable [DecidableEq S]

theorem linked_invariant : (threadPool F S n).Invariant fun s => Mutex s ∧ LinkedOk s := by
  refine mutex_invariant.and (fun _ => ⟨[], linked_poolInit⟩) ?_
  intro s s' a hm h hs hundrained
  have hstep := step_cases hs
  have hbefore : s.destroyer.undrained = true ∧
      (a = .poolDestroy → s.destroyer.drains = false) := by
    cases hstep with
    | advance hadv =>
      rw [advance_destroyer hadv] at hundrained
      exact ⟨hundrained, nofun⟩
    | poolDestroy hd =>
      have hd' := undrained_of_poolDestroy hd hundrained
      exact ⟨hd'.1, fun _ => hd'.2⟩
    | mallocArg | poolAddWorker | signalNone | signalSome | spurious => exact ⟨hundrained, nofun⟩
  rcases h hbefore.1 with ⟨q, hq⟩
  exact linked_step hq hm hbefore.2 hstep

end CcPof.ThreadPool
