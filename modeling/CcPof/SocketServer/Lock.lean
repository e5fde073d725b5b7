import CcPof.SocketServer.Model

/-!
# The lock and the life cycle of the server

`g_spinlock` is held by the one thread that is between a `pthread_spin_lock` and its
`pthread_spin_unlock`. `lifecycleStatus` goes up by one at a time, and the places of the starter and
of the thread that shuts the server down tell how far it has come.
-/

namespace CcPof.SocketServer

variable {minThreads maxThreads : Nat} {s s' : Server} {i : Nat} {w w' : Worker} {env : Env}

@[simp] theorem Server.workers_setWorker : (s.setWorker i w).workers = s.workers.set i w := rfl

@[simp] theorem Server.workers_createWorker :
    s.createWorker.workers = s.workers ++ [⟨.poll, 0⟩] := rfl

@[simp] theorem Server.qss_setWorker : (s.setWorker i w).qss = s.qss := rfl

@[simp] theorem Server.qss_createWorker : s.createWorker.qss = s.qss := rfl

/-! ## Mutual exclusion -/

def AddPc.holds : AddPc → Bool
  | guard | create _ | incr _ | unlock => true
  | _ => false

def WorkerPc.holds : WorkerPc → Bool
  | count _ | unlockCount | busy _ | unlockBusy _ | idle .. | unlockIdle .. => true
  | uncount | unlockClosed _ | retest | unlockTimeout _ | uncountWorker _ | unlockExit .. => true
  | add _ pc => pc.holds
  | _ => false

def StartPc.holds : StartPc → Bool
  | test | unlock _ => true
  | add pc => pc.holds
  | _ => false

def ShutdownPc.holds : ShutdownPc → Bool
  | test | unlock _ => true
  | _ => false

/-- The thread is between a `pthread_spin_lock` and its `pthread_spin_unlock`. -/
def Server.holds (s : Server) : Tid → Bool
  | .worker i => s.workers[i]?.any (·.pc.holds)
  | .starter => s.starter.holds
  | .closer => s.closer.holds

def Mutex (s : Server) : Prop := ∀ t, s.gSpinlock = some t ↔ s.holds t = true

theorem AddRead.holds_eq {q : QSocketServer} {n : Nat} {pc pc' : AddPc} (h : AddRead q n pc pc') :
    pc'.holds = pc.holds := by
  cases h with
  | testMin | testEqual | testMax => split <;> rfl
  | _ => rfl

theorem WorkerRead.holds_eq {q : QSocketServer} {pc pc' : WorkerPc} (h : WorkerRead q pc env pc') :
    pc'.holds = pc.holds := by
  cases h with
  | add h => exact h.holds_eq
  | testLifecycle | testIdle | testSpare => split <;> rfl
  | _ => rfl

theorem WorkerPc.holds_of_locked {pc pc' : WorkerPc} (h : pc.locked = some pc') :
    pc'.holds = true := by
  unfold WorkerPc.locked at h
  split at h <;> cases h <;> rfl

theorem WorkerPc.holds_of_unlocked {pc pc' : WorkerPc} (h : pc.unlocked = some pc') :
    pc.holds = true ∧ pc'.holds = false := by
  unfold WorkerPc.unlocked at h
  split at h <;> cases h
  case h_4 | h_5 | h_6 | h_7 => exact ⟨rfl, by split <;> rfl⟩
  all_goals exact ⟨rfl, rfl⟩

/-! A step leaves the lock and the places of its holders alone, takes it or gives it back. -/

theorem Mutex.frame {t : Tid} (h : Mutex s) (hlock : s'.gSpinlock = s.gSpinlock)
    (ht : s'.holds t = s.holds t) (hothers : ∀ u, u ≠ t → s'.holds u = s.holds u) : Mutex s' := by
  intro u
  rw [hlock]
  by_cases hu : u = t
  · rw [hu, ht]
    exact h t
  · rw [hothers u hu]
    exact h u

theorem Mutex.lock {t : Tid} (h : Mutex s) (hfree : s.gSpinlock = none)
    (hlock : s'.gSpinlock = some t) (ht : s'.holds t = true)
    (hothers : ∀ u, u ≠ t → s'.holds u = s.holds u) : Mutex s' := by
  intro u
  rw [hlock]
  by_cases hu : u = t
  · subst hu
    exact iff_of_true rfl ht
  · have hnone : ¬ s.holds u = true := by
      rw [← h u, hfree]
      exact nofun
    rw [hothers u hu]
    exact iff_of_false (fun heq => hu (Option.some.inj heq).symm) hnone

theorem Mutex.unlock {t : Tid} (h : Mutex s) (ht : s.holds t = true)
    (hlock : s'.gSpinlock = none) (ht' : s'.holds t = false)
    (hothers : ∀ u, u ≠ t → s'.holds u = s.holds u) : Mutex s' := by
  intro u
  rw [hlock]
  by_cases hu : u = t
  · subst hu
    rw [ht']
    exact iff_of_false nofun nofun
  · -- Only `t` held the lock.
    have hother : ¬ s.holds u = true := by
      intro hheld
      have hsome := (h t).mpr ht
      rw [(h u).mpr hheld] at hsome
      exact hu (Option.some.inj hsome)
    rw [hothers u hu]
    exact iff_of_false nofun hother

theorem holds_worker (hw : s.workers[i]? = some w) : s.holds (.worker i) = w.pc.holds := by
  rw [Server.holds, hw]
  rfl

theorem holds_createWorker (t : Tid) : s.createWorker.holds t = s.holds t := by
  cases t with
  | worker k =>
    rw [Server.holds, Server.holds, Server.workers_createWorker]
    rcases Nat.lt_trichotomy k s.workers.length with hk | rfl | hk
    · rw [List.getElem?_append_left hk]
    · rw [List.getElem?_concat_length, List.getElem?_eq_none (Nat.le_refl _)]
      rfl
    · have hle := Nat.le_of_lt hk
      rw [List.getElem?_append_right hle, List.getElem?_eq_none hle, List.getElem?_eq_none]
      rw [List.length_singleton]
      omega
  | starter | closer => rfl

section Worker

variable (hworkers : s'.workers = s.workers.set i w')
  (hstarter : s'.starter = s.starter) (hcloser : s'.closer = s.closer)
include hworkers

theorem holds_self (hw : s.workers[i]? = some w) : s'.holds (.worker i) = w'.pc.holds := by
  have hi : i < s.workers.length := (List.getElem?_eq_some_iff.mp hw).1
  apply holds_worker
  rw [hworkers, List.getElem?_set_self hi]

include hstarter hcloser

theorem holds_of_ne {t : Tid} (ht : t ≠ .worker i) : s'.holds t = s.holds t := by
  cases t with
  | worker k =>
    have hk : i ≠ k := fun h => ht (by rw [h])
    rw [Server.holds, Server.holds, hworkers, List.getElem?_set_ne hk]
  | starter => rw [Server.holds, Server.holds, hstarter]
  | closer => rw [Server.holds, Server.holds, hcloser]

/-- A worker that neither takes the lock nor gives it back. -/
theorem Mutex.set (h : Mutex s) (hw : s.workers[i]? = some w) (hlock : s'.gSpinlock = s.gSpinlock)
    (hpc : w'.pc.holds = w.pc.holds) : Mutex s' := by
  apply h.frame hlock
  · rw [holds_self hworkers hw, holds_worker hw, hpc]
  · exact fun _ => holds_of_ne hworkers hstarter hcloser

theorem Mutex.set_lock (h : Mutex s) (hw : s.workers[i]? = some w) (hfree : s.gSpinlock = none)
    (hlock : s'.gSpinlock = some (.worker i)) (hpc : w'.pc.holds = true) : Mutex s' := by
  apply h.lock hfree hlock
  · rw [holds_self hworkers hw, hpc]
  · exact fun _ => holds_of_ne hworkers hstarter hcloser

theorem Mutex.set_unlock (h : Mutex s) (hw : s.workers[i]? = some w) (hlock : s'.gSpinlock = none)
    (hpc : w.pc.holds = true) (hpc' : w'.pc.holds = false) : Mutex s' := by
  have hheld : s.holds (.worker i) = true := by rw [holds_worker hw, hpc]
  apply h.unlock hheld hlock
  · rw [holds_self hworkers hw, hpc']
  · exact fun _ => holds_of_ne hworkers hstarter hcloser

end Worker

theorem Mutex.createWorker (h : Mutex s) : Mutex s.createWorker :=
  h.frame rfl (holds_createWorker .starter) fun t _ => holds_createWorker t

theorem Mutex.worker (h : Mutex s) (hw : s.workers[i]? = some w) (hs : WorkerStep s i w env s') :
    Mutex s' := by
  cases hs with
  | read hread => exact h.set rfl rfl rfl hw rfl hread.holds_eq
  | lock hpc hfree =>
    exact Mutex.set_lock (s := s) rfl rfl rfl h hw hfree rfl (WorkerPc.holds_of_locked hpc)
  | unlock hpc =>
    have hheld := WorkerPc.holds_of_unlocked hpc
    exact Mutex.set_unlock (s := s) rfl rfl rfl h hw rfl hheld.1 hheld.2
  | @create cs j hpc _ =>
    have hset : Mutex (s.setWorker i { w with pc := .add cs (.incr j) }) :=
      h.set rfl rfl rfl hw rfl (by rw [hpc]; rfl)
    exact hset.createWorker
  | pollServer hpc | pollClient hpc | accept hpc | acceptFail hpc | epollAdd hpc | count hpc
  | busy hpc | incr hpc | idle hpc | rearm hpc | close hpc | uncountLast hpc | uncount hpc
  | leave hpc | stay hpc | uncountWorker hpc | free hpc =>
    exact h.set rfl rfl rfl hw rfl (by rw [hpc]; rfl)

theorem Mutex.starter (h : Mutex s) (hs : StartStep s env s') : Mutex s' := by
  have hother {s' : Server} (hworkers : s'.workers = s.workers) (hcloser : s'.closer = s.closer)
      (t : Tid) (ht : t ≠ .starter) : s'.holds t = s.holds t := by
    cases t with
    | worker k => rw [Server.holds, Server.holds, hworkers]
    | starter => exact absurd rfl ht
    | closer => rw [Server.holds, Server.holds, hcloser]
  cases hs with
  | lock _ hfree | addLock _ hfree => exact h.lock hfree rfl rfl (hother rfl rfl)
  | @unlock ok hpc =>
    have hheld : s.holds .starter = true := by
      rw [Server.holds, hpc]
      rfl
    exact h.unlock hheld rfl (by cases ok <;> rfl) (hother rfl rfl)
  | addUnlock hpc =>
    have hheld : s.holds .starter = true := by
      rw [Server.holds, hpc]
      rfl
    exact h.unlock hheld rfl rfl (hother rfl rfl)
  | @create j hpc _ =>
    have hnext : Mutex { s with starter := .add (.incr j) } :=
      h.frame (t := .starter) rfl (by rw [Server.holds, Server.holds, hpc]; rfl) (hother rfl rfl)
    exact hnext.createWorker
  | @addRead _ pc pc' hpc hread =>
    have hholds : (StartPc.add pc').holds = s.starter.holds := by
      rw [hpc]
      exact hread.holds_eq
    exact h.frame (t := .starter) rfl hholds (hother rfl rfl)
  | call hpc | testCreated hpc | testStarted hpc | setUp hpc | setUpFail hpc | createSender hpc
  | addRet hpc | incr hpc | setRunning hpc =>
    exact h.frame (t := .starter) rfl (by rw [Server.holds, Server.holds, hpc]; rfl) (hother rfl rfl)

theorem Mutex.shutdown (h : Mutex s) (hs : ShutdownStep s s') : Mutex s' := by
  have hother {s' : Server} (hworkers : s'.workers = s.workers) (hstarter : s'.starter = s.starter)
      (t : Tid) (ht : t ≠ .closer) : s'.holds t = s.holds t := by
    cases t with
    | worker k => rw [Server.holds, Server.holds, hworkers]
    | starter => rw [Server.holds, Server.holds, hstarter]
    | closer => exact absurd rfl ht
  cases hs with
  | lock _ hfree => exact h.lock hfree rfl rfl (hother rfl rfl)
  | @unlock ok hpc =>
    have hheld : s.holds .closer = true := by
      rw [Server.holds, hpc]
      rfl
    exact h.unlock hheld rfl (by cases ok <;> rfl) (hother rfl rfl)
  | call hpc | testRunning hpc | testOther hpc | shutdownServer hpc | shutdownClients hpc =>
    exact h.frame (t := .closer) rfl (by rw [Server.holds, Server.holds, hpc]; rfl) (hother rfl rfl)

theorem mutex_invariant : (socketServer minThreads maxThreads).Invariant Mutex where
  init t := iff_of_false nofun (by cases t <;> exact Bool.false_ne_true)
  step h hs := by
    cases step_cases hs with
    | worker hw hs => exact h.worker hw hs
    | start hs => exact h.starter hs
    | shutdown hs => exact h.shutdown hs
    | send hs =>
      rw [sendStep_eq hs]
      exact h.frame (t := .starter) rfl rfl (fun t _ => by cases t <;> rfl)

/-! ## The life cycle -/

/-- The value that `startSocketServer` has given to `lifecycleStatus`. -/
def StartPc.status : StartPc → Nat
  | idle | lock | test => 0
  | returned ret => if ret = 1 then 2 else 1
  | _ => 1

/-- `shutdownSocketServer` has found the server running. -/
def ShutdownPc.accepted : ShutdownPc → Bool
  | unlock ok => ok
  | shutdownServer | shutdownClients => true
  | returned ret => ret = 1
  | _ => false

structure LifecycleInv (s : Server) : Prop where
  starter : min s.qss.lifecycleStatus 2 = s.starter.status
  closer : s.closer.accepted = true ↔ 3 ≤ s.qss.lifecycleStatus
  le : s.qss.lifecycleStatus ≤ 4

theorem LifecycleInv.frame (h : LifecycleInv s)
    (hstatus : s'.qss.lifecycleStatus = s.qss.lifecycleStatus)
    (hstarter : s'.starter.status = s.starter.status)
    (hcloser : s'.closer.accepted = s.closer.accepted) : LifecycleInv s' where
  starter := by rw [hstatus, hstarter, h.starter]
  closer := by rw [hstatus, hcloser, h.closer]
  le := by
    rw [hstatus]
    exact h.le

theorem starter_worker (hs : WorkerStep s i w env s') : s'.starter = s.starter := by
  cases hs <;> rfl

theorem closer_worker (hs : WorkerStep s i w env s') : s'.closer = s.closer := by
  cases hs <;> rfl

theorem closer_start (hs : StartStep s env s') : s'.closer = s.closer := by
  cases hs <;> rfl

theorem starter_shutdown (hs : ShutdownStep s s') : s'.starter = s.starter := by
  cases hs <;> rfl

theorem lifecycleStatus_worker (hs : WorkerStep s i w env s') :
    s'.qss.lifecycleStatus = s.qss.lifecycleStatus ∨
      3 ≤ s.qss.lifecycleStatus ∧ s'.qss.lifecycleStatus = 4 := by
  cases hs with
  | uncountLast _ _ hstopping => exact .inr ⟨hstopping, rfl⟩
  | _ => exact .inl rfl

theorem lifecycleStatus_start (h : LifecycleInv s) (hs : StartStep s env s') :
    s'.qss.lifecycleStatus = s.qss.lifecycleStatus ∧ s'.starter.status = s.starter.status ∨
      s'.qss.lifecycleStatus = s.qss.lifecycleStatus + 1 ∧
        s'.starter.status = s.starter.status + 1 ∧ s.qss.lifecycleStatus < 2 := by
  have hstarter := h.starter
  cases hs with
  | testCreated hpc hcreated =>
    right
    rw [hpc, hcreated]
    exact ⟨rfl, rfl, Nat.zero_lt_two⟩
  | testStarted hpc hstarted =>
    -- The starter alone leaves the status 0.
    rw [hpc, StartPc.status] at hstarter
    omega
  | @unlock ok hpc =>
    left
    rw [hpc]
    exact ⟨rfl, by cases ok <;> rfl⟩
  | setRunning hpc =>
    rw [hpc] at hstarter
    have hone : min s.qss.lifecycleStatus 2 = 1 := hstarter
    have hstatus : s.qss.lifecycleStatus = 1 := by omega
    right
    rw [hpc, hstatus]
    exact ⟨rfl, rfl, Nat.one_lt_two⟩
  | call hpc | lock hpc _ | setUp hpc | setUpFail hpc | createSender hpc | addLock hpc _
  | addUnlock hpc | addRet hpc | incr hpc | create hpc _ | addRead hpc _ =>
    left
    rw [hpc]
    exact ⟨rfl, rfl⟩

theorem lifecycleStatus_shutdown (hs : ShutdownStep s s') :
    s'.qss.lifecycleStatus = s.qss.lifecycleStatus ∧ s'.closer.accepted = s.closer.accepted ∨
      s'.qss.lifecycleStatus = 3 ∧ s'.closer.accepted = true ∧ s.qss.lifecycleStatus = 2 := by
  cases hs with
  | testRunning _ hrunning => exact .inr ⟨rfl, rfl, hrunning⟩
  | @unlock ok hpc =>
    left
    rw [hpc]
    exact ⟨rfl, by cases ok <;> rfl⟩
  | call hpc | lock hpc _ | testOther hpc _ | shutdownServer hpc | shutdownClients hpc =>
    left
    rw [hpc]
    exact ⟨rfl, rfl⟩

theorem LifecycleInv.step {a : Act} (h : LifecycleInv s) (hs : Step s a s') : LifecycleInv s' := by
  have hstarter := h.starter
  have hcloser := h.closer
  have hle := h.le
  cases hs with
  | worker _ hs =>
    rcases lifecycleStatus_worker hs with hstatus | ⟨hstopping, hstatus⟩
    · exact h.frame hstatus (by rw [starter_worker hs]) (by rw [closer_worker hs])
    · constructor
      · rw [hstatus, starter_worker hs, ← hstarter]
        omega
      · rw [hstatus, closer_worker hs, hcloser]
        omega
      · omega
  | start hs =>
    rcases lifecycleStatus_start h hs with ⟨hstatus, hpc⟩ | ⟨hstatus, hpc, hlt⟩
    · exact h.frame hstatus hpc (by rw [closer_start hs])
    · constructor
      · omega
      · rw [hstatus, closer_start hs, hcloser]
        omega
      · omega
  | shutdown hs =>
    rcases lifecycleStatus_shutdown hs with ⟨hstatus, hpc⟩ | ⟨hstatus, hpc, hrunning⟩
    · exact h.frame hstatus (by rw [starter_shutdown hs]) hpc
    · constructor
      · rw [starter_shutdown hs]
        omega
      · rw [hpc]
        exact iff_of_true rfl (by omega)
      · omega
  | send hs =>
    rw [sendStep_eq hs]
    exact h.frame rfl rfl rfl

theorem lifecycleInv_invariant : (socketServer minThreads maxThreads).Invariant LifecycleInv where
  init := ⟨rfl, iff_of_false nofun nofun, Nat.zero_le _⟩
  step h hs := h.step (step_cases hs)

/-- `lifecycleStatus` goes through its values one after the other. -/
theorem lifecycleStatus_step {a : Act} (h : LifecycleInv s) (hs : Step s a s') :
    s'.qss.lifecycleStatus = s.qss.lifecycleStatus ∨
      s'.qss.lifecycleStatus = s.qss.lifecycleStatus + 1 := by
  have hle := h.le
  cases hs with
  | worker _ hs => rcases lifecycleStatus_worker hs with hstatus | ⟨hstopping, hstatus⟩ <;> omega
  | start hs => exact (lifecycleStatus_start h hs).imp And.left And.left
  | shutdown hs => rcases lifecycleStatus_shutdown hs with ⟨hstatus, _⟩ | ⟨hstatus, _, _⟩ <;> omega
  | send hs =>
    left
    rw [sendStep_eq hs]

end CcPof.SocketServer
