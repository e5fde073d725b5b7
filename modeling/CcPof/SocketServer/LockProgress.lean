import CcPof.Lib.Progress
import CcPof.SocketServer.Workers

/-!
# Nobody waits for the lock for ever

The thread that has `g_spinlock` can always go on, and gives the lock back after a bounded number of
its own steps, whatever the others do in between: the longest way is that of `addQSSWorker`, which
creates all of its workers under the lock. So no thread of the server is ever stuck.
-/

namespace CcPof.SocketServer

variable {minThreads maxThreads : Nat} {s s' : Server} {i : Nat} {w w' : Worker} {env : Env}
  {t u : Tid} {a : Act}

/-- The thread that takes the step. The one of the blocking senders never locks. -/
def Act.thread : Act → Option Tid
  | .worker i _ => some (.worker i)
  | .start _ => some .starter
  | .shutdown => some .closer
  | .send _ => none

inductive Place
  | worker (pc : WorkerPc)
  | starter (pc : StartPc)
  | closer (pc : ShutdownPc)

/-- Where the thread is, if it has been created. -/
def Server.place (s : Server) : Tid → Option Place
  | .worker i => s.workers[i]?.map fun w => .worker w.pc
  | .starter => some (.starter s.starter)
  | .closer => some (.closer s.closer)

def Place.ended : Place → Bool
  | worker (.exited _) | starter (.returned _) | closer (.returned _) => true
  | _ => false

def Server.Alive (s : Server) (t : Tid) : Prop := ∃ p, s.place t = some p ∧ p.ended = false

theorem place_worker (hw : s.workers[i]? = some w) : s.place (.worker i) = some (.worker w.pc) := by
  rw [Server.place, hw]
  rfl

theorem place_self (hw : s.workers[i]? = some w) (hworkers : s'.workers = s.workers.set i w') :
    s'.place (.worker i) = some (.worker w'.pc) := by
  apply place_worker
  rw [hworkers, List.getElem?_set_self (List.getElem?_eq_some_iff.mp hw).1]

theorem place_of_ne (hworkers : s'.workers = s.workers.set i w') (hstarter : s'.starter = s.starter)
    (hcloser : s'.closer = s.closer) (ht : t ≠ .worker i) : s'.place t = s.place t := by
  cases t with
  | worker k =>
    have hk : i ≠ k := fun h => ht (by rw [h])
    rw [Server.place, Server.place, hworkers, List.getElem?_set_ne hk]
  | starter => rw [Server.place, Server.place, hstarter]
  | closer => rw [Server.place, Server.place, hcloser]

theorem place_createWorker {p : Place} (h : s.place t = some p) : s.createWorker.place t = some p := by
  cases t with
  | worker k =>
    rw [Server.place, Option.map_eq_some_iff] at h
    obtain ⟨w, hw, hp⟩ := h
    rw [Server.place, Server.workers_createWorker,
      List.getElem?_append_left (List.getElem?_eq_some_iff.mp hw).1, hw, Option.map_some, hp]
  | starter | closer => exact h

/-- A thread stays where it is while the others go on. -/
theorem place_step {p : Place} (hs : Step s a s') (ha : a.thread ≠ some t) (h : s.place t = some p) :
    s'.place t = some p := by
  cases hs with
  | @worker i w env _ hw hs =>
    have ht : t ≠ .worker i := fun heq => ha (by rw [heq]; rfl)
    cases hs with
    | create =>
      -- The new worker comes behind the others.
      apply place_createWorker
      rw [← h]
      exact place_of_ne rfl rfl rfl ht
    | _ =>
      rw [← h]
      exact place_of_ne (s := s) rfl rfl rfl ht
  | start hs =>
    cases t with
    | starter => exact absurd rfl ha
    | worker k =>
      cases hs with
      | @create j => exact place_createWorker (s := { s with starter := .add (.incr j) }) h
      | _ => exact h
    | closer => cases hs <;> exact h
  | shutdown hs =>
    cases t with
    | closer => exact absurd rfl ha
    | worker k => cases hs <;> exact h
    | starter => cases hs <;> exact h
  | send hs =>
    rw [sendStep_eq hs]
    cases t <;> exact h

theorem Server.Alive.step (h : s.Alive t) (hs : Step s a s') (ha : a.thread ≠ some t) : s'.Alive t :=
  h.imp fun _ hp => ⟨place_step hs ha hp.1, hp.2⟩

/-! ## 1. Steps up to the unlock -/

/-- How many statements `addQSSWorker` has left, its `pthread_spin_unlock` included. -/
def AddPc.rank (addCounter : Nat) : AddPc → Nat
  | guard => 2 * addCounter + 3
  | create i => 2 * (addCounter - i) + 2
  | incr i => 2 * (addCounter - (i + 1)) + 3
  | unlock => 1
  | _ => 0

def WorkerPc.rank : WorkerPc → Nat
  | add _ pc => pc.rank 1
  | count _ | busy _ | idle .. | uncount | retest | uncountWorker _ => 2
  | unlockCount | unlockBusy _ | unlockIdle .. | unlockClosed _ | unlockTimeout _ | unlockExit .. => 1
  | _ => 0

def StartPc.rank (minThreads : Nat) : StartPc → Nat
  | test => 2
  | unlock _ => 1
  | add pc => pc.rank minThreads
  | _ => 0

def ShutdownPc.rank : ShutdownPc → Nat
  | test => 2
  | unlock _ => 1
  | _ => 0

def Place.rank (minThreads : Nat) : Place → Nat
  | worker pc => pc.rank
  | starter pc => pc.rank minThreads
  | closer pc => pc.rank

def Server.rank (minThreads : Nat) (s : Server) (t : Tid) : Nat :=
  (s.place t).elim 0 (·.rank minThreads)

theorem rank_place {p : Place} (h : s.place t = some p) : s.rank minThreads t = p.rank minThreads := by
  rw [Server.rank, h]
  rfl

theorem AddPc.rank_le (addCounter : Nat) (pc : AddPc) : pc.rank addCounter ≤ 2 * addCounter + 3 := by
  cases pc <;> unfold AddPc.rank <;> dsimp only <;> omega

theorem WorkerPc.rank_le (pc : WorkerPc) : pc.rank ≤ 5 := by
  cases pc with
  | add cs pc => exact pc.rank_le 1
  | _ => exact Nat.le_of_ble_eq_true rfl

theorem StartPc.rank_le (pc : StartPc) : pc.rank minThreads ≤ 2 * minThreads + 3 := by
  cases pc with
  | add pc => exact pc.rank_le minThreads
  | _ =>
    unfold StartPc.rank
    dsimp only
    omega

theorem ShutdownPc.rank_le (pc : ShutdownPc) : pc.rank ≤ 2 := by
  cases pc <;> exact Nat.le_of_ble_eq_true rfl

theorem Place.rank_le (p : Place) : p.rank minThreads ≤ 2 * minThreads + 5 := by
  cases p with
  | worker pc => exact Nat.le_trans pc.rank_le (Nat.le_add_left 5 _)
  | starter pc => exact Nat.le_trans pc.rank_le (Nat.le_add_right _ 2)
  | closer pc =>
    have hle := pc.rank_le
    show pc.rank ≤ _
    omega

theorem rank_le (s : Server) (minThreads : Nat) (t : Tid) : s.rank minThreads t ≤ 2 * minThreads + 5 := by
  unfold Server.rank
  cases s.place t with
  | none => exact Nat.zero_le _
  | some p => exact p.rank_le

theorem AddRead.rank_lt {q : QSocketServer} {n : Nat} {pc pc' : AddPc} (h : AddRead q n pc pc')
    (hholds : pc.holds = true) : pc'.rank n < pc.rank n := by
  cases h with
  | room | full | mallocFail | done =>
    unfold AddPc.rank
    dsimp only
    omega
  | _ => cases hholds

theorem WorkerRead.rank_lt {q : QSocketServer} {pc pc' : WorkerPc} (h : WorkerRead q pc env pc')
    (hholds : pc.holds = true) : pc'.rank < pc.rank := by
  cases h with
  | add h => exact h.rank_lt hholds
  | _ => cases hholds

theorem WorkerPc.rank_of_unlocked {pc pc' : WorkerPc} (h : pc.unlocked = some pc') :
    pc.rank = 1 ∧ pc'.rank = 0 := by
  unfold WorkerPc.unlocked at h
  split at h <;> cases h
  case h_4 | h_5 | h_6 | h_7 => exact ⟨rfl, by split <;> rfl⟩
  all_goals exact ⟨rfl, rfl⟩

theorem WorkerPc.holds_of_lock {pc pc' : WorkerPc} (h : pc.locked = some pc') :
    pc.holds = false := by
  unfold WorkerPc.locked at h
  split at h <;> cases h <;> rfl

/-- Each step of a worker that has the lock brings the unlock nearer. -/
theorem rank_worker (hw : s.workers[i]? = some w) (hs : WorkerStep s i w env s')
    (hholds : w.pc.holds = true) : s'.rank minThreads (.worker i) < w.pc.rank := by
  have hset {s' : Server} {w' : Worker} (hworkers : s'.workers = s.workers.set i w')
      (hlt : w'.pc.rank < w.pc.rank) : s'.rank minThreads (.worker i) < w.pc.rank := by
    rw [rank_place (place_self hw hworkers)]
    exact hlt
  cases hs with
  | read hread => exact hset rfl (hread.rank_lt hholds)
  | lock hpc _ =>
    -- Who has the lock does not wait for it.
    rw [WorkerPc.holds_of_lock hpc] at hholds
    cases hholds
  | unlock hpc =>
    have hrank := WorkerPc.rank_of_unlocked hpc
    apply hset rfl
    rw [hrank.1, hrank.2]
    exact Nat.zero_lt_one
  | @create cs j hpc hj =>
    rw [rank_place (place_createWorker (place_self (s := s) hw rfl)), hpc]
    show 2 * (1 - (j + 1)) + 3 < 2 * (1 - j) + 2
    omega
  | @incr cs j hpc =>
    apply hset rfl
    rw [hpc]
    exact Nat.lt_succ_self (2 * (1 - (j + 1)) + 2)
  | count hpc | busy hpc | idle hpc | uncountLast hpc | uncount hpc | leave hpc | stay hpc
  | uncountWorker hpc =>
    apply hset rfl
    rw [hpc]
    exact Nat.lt_succ_self 1
  | pollServer hpc | pollClient hpc | accept hpc | acceptFail hpc | epollAdd hpc | rearm hpc
  | close hpc | free hpc =>
    rw [hpc] at hholds
    cases hholds

theorem rank_starter (hmin : s.qss.minThreads = minThreads) (hs : StartStep s env s')
    (hholds : s.starter.holds = true) : s'.starter.rank minThreads < s.starter.rank minThreads := by
  cases hs with
  | lock hpc | call hpc | setUp hpc | setUpFail hpc | createSender hpc | addLock hpc | addRet hpc
  | setRunning hpc =>
    rw [hpc] at hholds
    cases hholds
  | testCreated hpc | testStarted hpc | addUnlock hpc =>
    rw [hpc]
    exact Nat.le_of_ble_eq_true rfl
  | @unlock ok hpc =>
    rw [hpc]
    cases ok <;> exact Nat.zero_lt_one
  | @incr j hpc =>
    rw [hpc]
    exact Nat.lt_succ_self (2 * (minThreads - (j + 1)) + 2)
  | @create j hpc hj =>
    rw [hpc]
    show 2 * (minThreads - (j + 1)) + 3 < 2 * (minThreads - j) + 2
    omega
  | addRead hpc hread =>
    -- `addQSSWorker` is called with `minThreads` here.
    rw [hpc] at hholds ⊢
    rw [hmin] at hread
    exact hread.rank_lt hholds

theorem rank_closer (hs : ShutdownStep s s') (hholds : s.closer.holds = true) :
    s'.closer.rank < s.closer.rank := by
  cases hs with
  | call hpc | lock hpc | shutdownServer hpc | shutdownClients hpc =>
    rw [hpc] at hholds
    cases hholds
  | testRunning hpc | testOther hpc =>
    rw [hpc]
    exact Nat.one_lt_two
  | @unlock ok hpc =>
    rw [hpc]
    cases ok <;> exact Nat.zero_lt_one

theorem rank_step (hmin : s.qss.minThreads = minThreads) (hs : Step s a s')
    (ha : a.thread = some t) (hholds : s.holds t = true) :
    s'.rank minThreads t < s.rank minThreads t := by
  cases hs with
  | worker hw hs =>
    cases ha
    rw [holds_worker hw] at hholds
    rw [rank_place (place_worker hw)]
    exact rank_worker hw hs hholds
  | start hs =>
    cases ha
    exact rank_starter hmin hs hholds
  | shutdown hs =>
    cases ha
    exact rank_closer hs hholds
  | send => cases ha

/-! ## 2. The thread that has the lock -/

theorem place_of_holds (h : s.holds t = true) : ∃ p, s.place t = some p := by
  cases t with
  | worker i =>
    rw [Server.holds, Option.any_eq_true] at h
    obtain ⟨w, hw, -⟩ := h
    exact ⟨_, place_worker hw⟩
  | starter => exact ⟨_, rfl⟩
  | closer => exact ⟨_, rfl⟩

/-- Only the steps of the thread that has the lock count. -/
theorem rank_paid (hmin : s.qss.minThreads = minThreads) (hs : Step s a s')
    (hholds : s.holds t = true) :
    s'.rank minThreads t + (decide (a.thread = some t)).toNat ≤ s.rank minThreads t := by
  by_cases ha : a.thread = some t
  · rw [decide_eq_true ha]
    exact rank_step hmin hs ha hholds
  · -- The step of another thread keeps its place, and with it the rank.
    obtain ⟨p, hp⟩ := place_of_holds hholds
    rw [decide_eq_false ha, rank_place hp, rank_place (place_step hs ha hp)]
    exact Nat.le_refl _

theorem gSpinlock_step (hs : Step s a s') (ht : s.gSpinlock = some t) :
    s'.gSpinlock = some t ∨ s'.gSpinlock = none := by
  cases hs with
  | worker _ hs =>
    cases hs with
    | unlock => exact .inr rfl
    | lock _ hfree =>
      -- The lock is taken: nobody else gets it.
      rw [hfree] at ht
      cases ht
    | _ => exact .inl ht
  | start hs =>
    cases hs with
    | unlock | addUnlock => exact .inr rfl
    | lock _ hfree | addLock _ hfree =>
      rw [hfree] at ht
      cases ht
    | _ => exact .inl ht
  | shutdown hs =>
    cases hs with
    | unlock => exact .inr rfl
    | lock _ hfree =>
      rw [hfree] at ht
      cases ht
    | _ => exact .inl ht
  | send hs =>
    rw [sendStep_eq hs]
    exact .inl ht

/-! ## 3. Threads that can go on -/

/-- An answer of the kernel or the handler that the statement always gets. -/
def WorkerPc.answer : WorkerPc → Env
  | poll => .timeout
  | accept => .fail
  | handle _ => .code 0
  | _ => .ok

theorem isSome_of_free (hlock : s.gSpinlock = none ∨ false = true) :
    (if s.gSpinlock = none then some s' else none).isSome = true := by
  rw [if_pos (hlock.resolve_right Bool.false_ne_true)]
  rfl

theorem worker_enabled (hended : (Place.worker w.pc).ended = false)
    (hlock : s.gSpinlock = none ∨ w.pc.holds = true) :
    (workerStep s i w w.pc.answer).isSome = true := by
  obtain ⟨pc, decrements⟩ := w
  cases pc with
  | lockCount | lockBusy | lockIdle | lockClosed | lockTimeout | lockExit =>
    exact isSome_of_free hlock
  | uncount | retest =>
    -- Both branches of the test go on.
    show Option.isSome (ite _ _ _) = true
    split <;> rfl
  | exited => cases hended
  | add cs pc =>
    cases pc with
    | lock =>
      exact isSome_of_free hlock
    | create j =>
      show Option.isSome (ite _ _ _) = true
      split <;> rfl
    | _ => rfl
  | _ => rfl

theorem starter_enabled (hended : (Place.starter s.starter).ended = false)
    (hlock : s.gSpinlock = none ∨ s.starter.holds = true) : (startStep s .ok).isSome = true := by
  unfold startStep
  cases hpc : s.starter with
  | returned =>
    rw [hpc] at hended
    cases hended
  | lock =>
    rw [hpc] at hlock
    exact isSome_of_free hlock
  | test =>
    show Option.isSome (ite _ _ _) = true
    split <;> rfl
  | add pc =>
    cases pc with
    | lock =>
      rw [hpc] at hlock
      exact isSome_of_free hlock
    | create j =>
      show Option.isSome (ite _ _ _) = true
      split <;> rfl
    | _ => rfl
  | _ => rfl

theorem closer_enabled (hended : (Place.closer s.closer).ended = false)
    (hlock : s.gSpinlock = none ∨ s.closer.holds = true) : (shutdownStep s).isSome = true := by
  unfold shutdownStep
  cases hpc : s.closer with
  | returned =>
    rw [hpc] at hended
    cases hended
  | lock =>
    rw [hpc] at hlock
    exact isSome_of_free hlock
  | test =>
    show Option.isSome (ite _ _ _) = true
    split <;> rfl
  | _ => rfl

/-- The only thing to wait for is the lock. -/
theorem enabled_of_alive (h : s.Alive t) (hlock : s.gSpinlock = none ∨ s.holds t = true) :
    ∃ a, a.thread = some t ∧ (step s a).isSome = true := by
  obtain ⟨p, hp, hended⟩ := h
  cases t with
  | worker i =>
    rw [Server.place, Option.map_eq_some_iff] at hp
    obtain ⟨w, hw, rfl⟩ := hp
    rw [holds_worker hw] at hlock
    refine ⟨.worker i w.pc.answer, rfl, ?_⟩
    rw [step, hw]
    exact worker_enabled hended hlock
  | starter =>
    cases hp
    exact ⟨.start .ok, rfl, starter_enabled hended hlock⟩
  | closer =>
    cases hp
    exact ⟨.shutdown, rfl, closer_enabled hended hlock⟩

theorem alive_of_holds (h : s.holds t = true) : s.Alive t := by
  obtain ⟨p, hp⟩ := place_of_holds h
  refine ⟨p, hp, ?_⟩
  cases t with
  | worker i =>
    rw [Server.place, Option.map_eq_some_iff] at hp
    obtain ⟨w, hw, rfl⟩ := hp
    rw [holds_worker hw] at h
    cases hpc : w.pc with
    | exited =>
      rw [hpc] at h
      cases h
    | _ => rfl
  | starter =>
    cases hp
    rw [Server.holds] at h
    cases hpc : s.starter with
    | returned =>
      rw [hpc] at h
      cases h
    | _ => rfl
  | closer =>
    cases hp
    rw [Server.holds] at h
    cases hpc : s.closer with
    | returned =>
      rw [hpc] at h
      cases h
    | _ => rfl

/-! ## 4. Runs -/

/-- The steps that are taken while `t` has the lock. -/
def whileLocked (minThreads maxThreads : Nat) (t : Tid) : TransitionSystem Server Act :=
  (socketServer minThreads maxThreads).restrict fun s _ => s.gSpinlock = some t

/-- What every reachable state has, and what stays of the thread `u`. -/
structure Going (minThreads maxThreads : Nat) (u : Tid) (s : Server) : Prop where
  inv : (Mutex s ∧ LifecycleInv s) ∧ WorkersInv minThreads maxThreads s
  alive : s.Alive u

theorem whileLocked_step (hI : (Mutex s ∧ LifecycleInv s) ∧ WorkersInv minThreads maxThreads s)
    (hs : (whileLocked minThreads maxThreads t).step s a = some s') :
    s.gSpinlock = some t ∧ Step s a s' ∧
      ((Mutex s' ∧ LifecycleInv s') ∧ WorkersInv minThreads maxThreads s') ∧
      s'.rank minThreads t + (decide (a.thread = some t)).toNat ≤ s.rank minThreads t := by
  obtain ⟨ht, hs⟩ := TransitionSystem.step_of_restrict hs
  refine ⟨ht, step_cases hs, workersInv_invariant.step hI hs, ?_⟩
  exact rank_paid hI.2.min (step_cases hs) ((hI.1.1 t).mp ht)

/-- **The lock is not kept.** Whatever the other threads do in between, and whatever the kernel
answers, a thread takes no more than `2 * minThreads + 5` steps while it has `g_spinlock`. -/
theorem lock_bounded {l : List Act} (h : (socketServer minThreads maxThreads).Reachable s)
    (hexec : (whileLocked minThreads maxThreads t).exec s l = some s') :
    l.countP (fun a => a.thread = some t) ≤ 2 * minThreads + 5 := by
  have hI := workersInv_invariant.of_reachable h
  have hpaid := TransitionSystem.countP_le (fun hI (_ : True) hs =>
    (whileLocked_step hI hs).2.2) hI (fun _ _ => trivial) hexec
  have hle := rank_le s minThreads t
  omega

/-- `startSocketServer` has the lock in `addQSSWorker`, and `shutdownSocketServer` waits for it. -/
def startingWithLock : List Act := List.replicate 8 (.start .ok) ++ [.shutdown]

/-- The workers are created, the first one polls, and the lock is given back. -/
def addOneWorker : List Act :=
  [.start .ok, .start .ok, .worker 0 .timeout, .start .ok, .start .ok, .start .ok]

theorem lock_bounded_oneWorker :
    ∃ s s', (socketServer 1 1).exec (serverInit 1 1) startingWithLock = some s ∧
      (whileLocked 1 1 .starter).exec s addOneWorker = some s' ∧ s'.gSpinlock = none ∧
      addOneWorker.countP (fun a => a.thread = some .starter) ≤ 2 * 1 + 5 := by
  refine ⟨_, _, rfl, rfl, rfl, ?_⟩
  have hreach := TransitionSystem.reachable_of_exec (socketServer 1 1) (l := startingWithLock) rfl
  exact lock_bounded hreach rfl

theorem settles (hu : u ≠ t) : (whileLocked minThreads maxThreads t).Settles
    (fun a => a.thread = some t)
    (fun s => Going minThreads maxThreads u s ∧ (s.gSpinlock = some t ∨ s.gSpinlock = none))
    (fun s => s.gSpinlock = none) (Server.rank minThreads · t) where
  step := by
    rintro s s' a ⟨h, -⟩ ha hs
    obtain ⟨ht, hs, hI, hpaid⟩ := whileLocked_step h.inv hs
    have halive : s'.Alive u := h.alive.step hs (fun heq => hu (Option.some.inj (heq.symm.trans ha)))
    rw [decide_eq_true ha] at hpaid
    exact ⟨⟨⟨hI, halive⟩, gSpinlock_step hs ht⟩, hpaid⟩
  rest := by
    rintro s ⟨h, hlock⟩ hstuck
    -- While the lock is held, its thread can go on.
    by_contra hheld
    have ht := hlock.resolve_right hheld
    have hholds := (h.inv.1.1 t).mp ht
    obtain ⟨a, ha, hsome⟩ := enabled_of_alive (alive_of_holds hholds) (.inr hholds)
    have hnone := hstuck a ha
    rw [whileLocked, TransitionSystem.restrict] at hnone
    dsimp only at hnone
    rw [if_pos ht] at hnone
    rw [show step s a = none from hnone] at hsome
    cases hsome

end CcPof.SocketServer
