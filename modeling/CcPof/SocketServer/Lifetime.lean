import CcPof.SocketServer.Workers

/-!
# The end of the server

The worker whose decrement of `workerCounter` reaches 0 frees the server. The counter covers the
workers only: the thread of the blocking senders and the caller of `shutdownSocketServer` have the
pointer too, and nothing tells when they are done with it.
-/

namespace CcPof.SocketServer

variable {minThreads maxThreads : Nat} {s s' : Server} {i : Nat} {w w' : Worker} {env : Env}

/-- The worker is to clean up behind the loop. -/
def WorkerPc.clearing : WorkerPc → Bool
  | unlockExit _ clearup => clearup
  | free _ => true
  | _ => false

/-- The worker has exited, or nothing is left to it but to clean up. -/
def WorkerPc.gone : WorkerPc → Bool
  | exited _ => true
  | pc => pc.clearing

/-- How often the server was freed, or is about to be -/
def Server.clearups (s : Server) : Int := s.cleared + tally (·.pc.clearing) s.workers

structure CleanupInv (s : Server) : Prop where
  once : s.clearups ≤ 1
  gone : 0 < s.clearups → ∀ w ∈ s.workers, w.pc.gone = true
  signaled : 0 < s.clearups → 4 ≤ s.qss.lifecycleStatus ∧ s.closer.holds = false

/-! ## The clean-up runs once -/

theorem WorkerRead.clearing {q : QSocketServer} {pc pc' : WorkerPc} (h : WorkerRead q pc env pc') :
    pc'.clearing = pc.clearing := by
  cases h with
  | testLifecycle | testIdle | testSpare => split <;> rfl
  | _ => rfl

theorem WorkerPc.clearing_of_locked {pc pc' : WorkerPc} (h : pc.locked = some pc') :
    pc'.clearing = pc.clearing := by
  unfold WorkerPc.locked at h
  split at h <;> cases h <;> rfl

theorem WorkerPc.clearing_of_unlocked {pc pc' : WorkerPc} (h : pc.unlocked = some pc') :
    pc'.clearing = pc.clearing := by
  unfold WorkerPc.unlocked at h
  split at h <;> cases h
  case h_7 exitCode clearup => cases clearup <;> rfl
  case h_4 | h_5 | h_6 => split <;> rfl
  all_goals rfl

theorem clearups_set (hw : s.workers[i]? = some w) (hworkers : s'.workers = s.workers.set i w')
    (hcleared : s'.cleared = s.cleared) :
    s'.clearups = s.clearups - w.pc.clearing.toInt + w'.pc.clearing.toInt := by
  unfold Server.clearups
  rw [hworkers, hcleared, tally_set hw]
  omega

theorem clearups_keep (hw : s.workers[i]? = some w) (hworkers : s'.workers = s.workers.set i w')
    (hcleared : s'.cleared = s.cleared) (hpc : w'.pc.clearing = w.pc.clearing) :
    s'.clearups = s.clearups := by
  rw [clearups_set hw hworkers hcleared, hpc]
  omega

theorem clearups_createWorker : s.createWorker.clearups = s.clearups := by
  unfold Server.clearups
  rw [Server.workers_createWorker, tally_append_singleton]
  exact congrArg _ (Int.add_zero _)

/-- Whoever cleans up has just taken the last worker from the counter. -/
theorem clearups_worker (hw : s.workers[i]? = some w) (hs : WorkerStep s i w env s') :
    s'.clearups = s.clearups ∨
      ∃ exitCode d, w.pc = .uncountWorker exitCode ∧
        s'.workers = s.workers.set i ⟨.unlockExit exitCode true, d⟩ ∧
        s'.clearups = s.clearups + 1 ∧ s'.qss.workerCounter = 0 ∧ 4 ≤ s.qss.lifecycleStatus := by
  cases hs with
  | read hread => exact .inl (clearups_keep hw rfl rfl hread.clearing)
  | lock hpc _ =>
    exact .inl (clearups_keep (s := s) hw rfl rfl (WorkerPc.clearing_of_locked hpc))
  | unlock hpc =>
    exact .inl (clearups_keep (s := s) hw rfl rfl (WorkerPc.clearing_of_unlocked hpc))
  | @create cs j hpc _ =>
    left
    rw [clearups_createWorker]
    exact clearups_keep hw rfl rfl (by rw [hpc]; rfl)
  | @free exitCode hpc =>
    left
    unfold Server.clearups
    rw [Server.workers_setWorker, tally_set hw, hpc]
    show ((s.cleared + 1 : Nat) : Int) + (tally (·.pc.clearing) s.workers - 1 + 0) = _
    omega
  | @uncountWorker exitCode hpc =>
    by_cases hlast : s.qss.workerCounter - 1 = 0 ∧ 4 ≤ s.qss.lifecycleStatus
    · have hclearup := decide_eq_true hlast
      refine .inr ⟨exitCode, _, hpc, by rw [← hclearup]; rfl, ?_, hlast.1, hlast.2⟩
      refine Eq.trans (clearups_set (s := s) hw rfl rfl) ?_
      rw [hpc]
      show s.clearups - 0 + (decide _).toInt = s.clearups + 1
      rw [hclearup, Bool.toInt_true]
      omega
    · left
      refine Eq.trans (clearups_set (s := s) hw rfl rfl) ?_
      rw [hpc]
      show s.clearups - 0 + (decide _).toInt = s.clearups
      rw [decide_eq_false hlast, Bool.toInt_false]
      omega
  | pollServer hpc | pollClient hpc | accept hpc | acceptFail hpc | epollAdd hpc | count hpc
  | busy hpc | incr hpc | idle hpc | rearm hpc | close hpc | uncountLast hpc | uncount hpc
  | leave hpc | stay hpc =>
    exact .inl (clearups_keep hw rfl rfl (by rw [hpc]; rfl))

theorem WorkerPc.gone_or_holds {pc : WorkerPc} (h : pc.left = true) :
    pc.gone = true ∨ pc.holds = true := by
  cases pc <;> first | exact .inl rfl | exact .inr rfl | cases h

/-- Once the counter is 0, all workers are gone but the one that has the lock. -/
theorem WorkersInv.gone (h : WorkersInv minThreads maxThreads s) (hM : Mutex s)
    (hw : s.workers[i]? = some w) (hheld : w.pc.holds = true) (hincr : w.pc.incrementing = false)
    (hzero : s.qss.workerCounter = 0) {j : Nat} {v : Worker} (hv : s.workers[j]? = some v)
    (hj : j ≠ i) : v.pc.gone = true := by
  have hlock : s.gSpinlock = some (.worker i) := (hM _).mpr (by rw [holds_worker hw, hheld])
  have hcounter : s.qss.workerCounter = tally Worker.counted s.workers := by
    apply h.workerCounter_eq hM <;> rw [hlock]
    · exact nofun
    · intro k u hk hu
      cases hk
      rw [hw] at hu
      cases hu
      exact hincr
  have hleft : v.pc.left = true := by
    rw [hzero] at hcounter
    have hcounted := tally_eq_zero_iff.mp hcounter.symm v (List.mem_of_getElem? hv)
    have hdecrements := (h.wf v (List.mem_of_getElem? hv)).decrements
    by_contra hleft
    rw [if_neg hleft] at hdecrements
    rw [Worker.counted, hdecrements] at hcounted
    cases hcounted
  rcases WorkerPc.gone_or_holds hleft with hgone | hholds
  · exact hgone
  · have hother := (hM (.worker j)).mpr (by rw [holds_worker hv, hholds])
    rw [hlock] at hother
    cases hother
    exact absurd rfl hj

/-- A worker that is gone can only clean up. -/
theorem gone_worker (hgone : w.pc.gone = true) (hs : WorkerStep s i w env s') :
    ∃ pc, pc.gone = true ∧ s'.workers = s.workers.set i { w with pc := pc } := by
  cases hs with
  | read hread =>
    generalize w.pc = pc at hgone hread
    cases hread <;> cases hgone
  | lock hpc _ =>
    generalize w.pc = pc at hgone hpc
    unfold WorkerPc.locked at hpc
    split at hpc <;> cases hpc <;> cases hgone
  | @unlock pc' hpc =>
    refine ⟨pc', ?_, rfl⟩
    generalize w.pc = pc at hgone hpc
    unfold WorkerPc.unlocked at hpc
    split at hpc <;> cases hpc
    case h_7 exitCode clearup => cases clearup <;> rfl
    all_goals cases hgone
  | free hpc => exact ⟨_, rfl, rfl⟩
  | pollServer hpc | pollClient hpc | accept hpc | acceptFail hpc | epollAdd hpc | count hpc
  | busy hpc | create hpc | incr hpc | idle hpc | rearm hpc | close hpc | uncountLast hpc
  | uncount hpc | leave hpc | stay hpc | uncountWorker hpc =>
    rw [hpc] at hgone
    cases hgone

theorem clearups_nonneg : 0 ≤ s.clearups := by
  have hclearing : 0 ≤ tally (·.pc.clearing) s.workers := tally_nonneg
  unfold Server.clearups
  omega

theorem CleanupInv.worker (h : CleanupInv s) (hM : Mutex s)
    (hI' : WorkersInv minThreads maxThreads s') (hM' : Mutex s')
    (hw : s.workers[i]? = some w) (hs : WorkerStep s i w env s') : CleanupInv s' := by
  have hstatus : s.qss.lifecycleStatus = s'.qss.lifecycleStatus ∨
      4 ≤ s'.qss.lifecycleStatus := by
    rcases lifecycleStatus_worker hs with hstatus | hstatus <;> omega
  have hi : i < s.workers.length := (List.getElem?_eq_some_iff.mp hw).1
  rcases clearups_worker hw hs with hsame | ⟨exitCode, d, hpc, hworkers, hone, hzero, hsignaled⟩
  · constructor
    · rw [hsame]
      exact h.once
    · intro hpos v hv
      rw [hsame] at hpos
      obtain ⟨pc, hpc, hworkers⟩ := gone_worker (h.gone hpos w (List.mem_of_getElem? hw)) hs
      rw [hworkers] at hv
      rcases List.mem_or_eq_of_mem_set hv with hv | rfl
      · exact h.gone hpos v hv
      · exact hpc
    · intro hpos
      rw [hsame] at hpos
      have hold := h.signaled hpos
      rw [closer_worker hs]
      exact ⟨by omega, hold.2⟩
  · -- The worker itself is not gone, so nobody has begun to clean up.
    have hnone : ¬ 0 < s.clearups := by
      intro hpos
      have hgone := h.gone hpos w (List.mem_of_getElem? hw)
      rw [hpc] at hgone
      cases hgone
    have hnonneg : 0 ≤ s.clearups := clearups_nonneg
    constructor
    · omega
    · intro _ v hv
      obtain ⟨j, hj⟩ := List.mem_iff_getElem?.mp hv
      have hw' : s'.workers[i]? = some ⟨.unlockExit exitCode true, d⟩ := by
        rw [hworkers, List.getElem?_set_self hi]
      by_cases hji : j = i
      · subst hji
        rw [hw'] at hj
        cases hj
        rfl
      · exact hI'.gone hM' hw' rfl rfl hzero hj hji
    · intro _
      have hlock : s.gSpinlock = some (.worker i) :=
        (hM _).mpr (by rw [holds_worker hw, hpc]; rfl)
      refine ⟨by omega, ?_⟩
      rw [closer_worker hs]
      by_contra hholds
      rw [Bool.not_eq_false] at hholds
      have hcloser := (hM .closer).mpr hholds
      rw [hlock] at hcloser
      cases hcloser

/-- When the exit is signaled, `startSocketServer` has returned. -/
theorem LifecycleInv.not_start (h : LifecycleInv s) (hstatus : 2 ≤ s.qss.lifecycleStatus) :
    ¬ StartStep s env s' := by
  have hstarter := h.starter
  intro hs
  cases hs with
  | call hpc | lock hpc | testCreated hpc | testStarted hpc | unlock hpc | setUp hpc
  | setUpFail hpc | createSender hpc | addLock hpc | addUnlock hpc | addRet hpc | incr hpc
  | create hpc | addRead hpc | setRunning hpc =>
    rw [hpc] at hstarter
    have hle : min s.qss.lifecycleStatus 2 ≤ 1 := by
      rw [hstarter]
      exact Nat.le_of_ble_eq_true rfl
    omega

theorem CleanupInv.frame (h : CleanupInv s) (hworkers : s'.workers = s.workers)
    (hcleared : s'.cleared = s.cleared)
    (hstatus : s.qss.lifecycleStatus ≤ s'.qss.lifecycleStatus)
    (hcloser : 0 < s.clearups → s'.closer.holds = false) : CleanupInv s' := by
  have hsame : s'.clearups = s.clearups := by
    unfold Server.clearups
    rw [hworkers, hcleared]
  constructor
  · rw [hsame]
    exact h.once
  · rw [hsame, hworkers]
    exact h.gone
  · rw [hsame]
    intro hpos
    exact ⟨Nat.le_trans (h.signaled hpos).1 hstatus, hcloser hpos⟩

theorem CleanupInv.start (h : CleanupInv s) (hL : LifecycleInv s) (hs : StartStep s env s') :
    CleanupInv s' := by
  have hnone : ¬ 0 < s.clearups := by
    intro hpos
    have hsignaled := (h.signaled hpos).1
    exact hL.not_start (by omega) hs
  have hsame : s'.clearups = s.clearups := by
    cases hs with
    | create _ _ => exact clearups_createWorker
    | _ => rfl
  constructor
  · omega
  · exact fun hpos => absurd (hsame ▸ hpos) hnone
  · exact fun hpos => absurd (hsame ▸ hpos) hnone

theorem CleanupInv.closer (h : CleanupInv s) (hL : LifecycleInv s) (hpos : 0 < s.clearups) :
    s.closer = .shutdownServer ∨ s.closer = .shutdownClients ∨ s.closer = .returned 1 := by
  have hsignaled := h.signaled hpos
  have haccepted := hL.closer.mpr (by omega)
  have hholds := hsignaled.2
  generalize s.closer = pc at haccepted hholds
  cases pc with
  | shutdownServer => exact .inl rfl
  | shutdownClients => exact .inr (.inl rfl)
  | returned ret => exact .inr (.inr (by rw [of_decide_eq_true haccepted]))
  | unlock => cases hholds
  | idle | lock | test => cases haccepted

theorem CleanupInv.shutdown (h : CleanupInv s) (hL : LifecycleInv s) (hs : ShutdownStep s s') :
    CleanupInv s' := by
  have hstatus : s.qss.lifecycleStatus ≤ s'.qss.lifecycleStatus := by
    rcases lifecycleStatus_shutdown hs with hstatus | hstatus <;> omega
  have hcloser : 0 < s.clearups → s'.closer.holds = false := by
    intro hpos
    have hcloser := h.closer hL hpos
    cases hs with
    | shutdownServer | shutdownClients => rfl
    | call hpc | lock hpc | testRunning hpc | testOther hpc | unlock hpc =>
      rw [hpc] at hcloser
      rcases hcloser with hpc | hpc | hpc <;> cases hpc
  cases hs <;> exact h.frame rfl rfl hstatus hcloser

theorem cleanupInv_invariant : (socketServer minThreads maxThreads).Invariant fun s =>
    ((Mutex s ∧ LifecycleInv s) ∧ WorkersInv minThreads maxThreads s) ∧ CleanupInv s := by
  have hinit : CleanupInv (serverInit minThreads maxThreads) :=
    ⟨Int.zero_le_ofNat 1, fun h => absurd h (Int.lt_irrefl 0), fun h => absurd h (Int.lt_irrefl 0)⟩
  have hprev := @workersInv_invariant minThreads maxThreads
  refine ⟨⟨hprev.init, hinit⟩, ?_⟩
  intro s s' a hI hs
  have hnext := hprev.step hI.1 hs
  refine ⟨hnext, ?_⟩
  cases step_cases hs with
  | worker hw hs => exact hI.2.worker hI.1.1.1 hnext.2 hnext.1.1 hw hs
  | start hs => exact hI.2.start hI.1.1.2 hs
  | shutdown hs => exact hI.2.shutdown hI.1.1.2 hs
  | send hs =>
    rw [sendStep_eq hs]
    exact hI.2.frame rfl rfl (Nat.le_refl _) fun hpos => (hI.2.signaled hpos).2

/-! ## Who uses the server -/

/-- The statement reads or writes `*qss`. -/
def WorkerPc.touches : WorkerPc → Bool
  | setNonBlocking _ | setKeepAlive _ | exited _ => false
  | _ => true

def StartPc.touches : StartPc → Bool
  | idle | returned _ => false
  | _ => true

def ShutdownPc.touches : ShutdownPc → Bool
  | lock | test | unlock _ | shutdownServer => true
  | _ => false

def SendPc.touches : SendPc → Bool
  | start | wait => true
  | _ => false

def Touches (s : Server) : Act → Bool
  | .worker i _ => s.workers[i]?.any (·.pc.touches)
  | .start _ => s.starter.touches
  | .shutdown => s.closer.touches
  | .send _ => s.sender.touches

/-- The thread uses the server again, whatever happens. -/
def SendPc.returning : SendPc → Bool
  | start | wait | signal => true
  | _ => false

def WorkerPc.frees : WorkerPc → Bool
  | free _ => true
  | _ => false

/-- The server is freed when `shutdownSocketServer` has read `server_s` and the thread of the
blocking senders waits, and no event comes for that thread afterwards. -/
def LifetimeOk (s : Server) : Act → Prop
  | .worker i _ => ∀ w ∈ s.workers[i]?, w.pc.frees = true →
      s.closer ≠ .shutdownServer ∧ s.sender.returning = false
  | .send env => s.cleared ≠ 0 → env ≠ .ok
  | .start _ | .shutdown => True

instance (s : Server) : ∀ a, Decidable (LifetimeOk s a)
  | .worker _ _ => inferInstanceAs (Decidable (∀ _ ∈ _, _))
  | .send _ => inferInstanceAs (Decidable (_ → _))
  | .start _ | .shutdown => isTrue trivial

/-- Nobody who could still run uses the server. -/
def ReleasedInv (s : Server) : Prop :=
  s.cleared ≠ 0 → s.closer ≠ .shutdownServer ∧ s.sender.returning = false

theorem clearups_pos (h : s.cleared ≠ 0) : 0 < s.clearups := by
  have hclearing : 0 ≤ tally (·.pc.clearing) s.workers := tally_nonneg
  unfold Server.clearups
  omega

theorem cleared_worker (hs : WorkerStep s i w env s') :
    s'.cleared = s.cleared ∨ w.pc.frees = true := by
  cases hs with
  | free hpc =>
    right
    rw [hpc]
    rfl
  | _ => exact .inl rfl

theorem sender_worker (hs : WorkerStep s i w env s') : s'.sender = s.sender := by
  cases hs <;> rfl

theorem ReleasedInv.step {a : Act} (h : ReleasedInv s) (hC : CleanupInv s) (hL : LifecycleInv s)
    (hok : LifetimeOk s a) (hs : Step s a s') : ReleasedInv s' := by
  cases hs with
  | @worker i w env _ hw hs =>
    intro hcleared
    rw [closer_worker hs, sender_worker hs]
    rcases cleared_worker hs with hsame | hfrees
    · exact h (hsame ▸ hcleared)
    · exact hok w hw hfrees
  | start hs =>
    have hsame : s'.cleared = s.cleared := by cases hs <;> rfl
    intro hcleared
    have hsignaled := (hC.signaled (clearups_pos (hsame ▸ hcleared))).1
    exact absurd hs (hL.not_start (by omega))
  | shutdown hs =>
    intro hcleared
    cases hs with
    | @unlock ok hpc =>
      have hholds := (hC.signaled (clearups_pos hcleared)).2
      rw [hpc] at hholds
      cases hholds
    | call | lock | testRunning | testOther | shutdownServer | shutdownClients =>
      exact ⟨nofun, (h hcleared).2⟩
  | @send env _ hs =>
    intro hcleared
    rw [sendStep_eq hs] at hcleared ⊢
    have hold := h hcleared
    refine ⟨hold.1, ?_⟩
    have hreturning := hold.2
    unfold sendStep at hs
    split at hs
    case h_3 => exact absurd rfl (hok hcleared)
    case h_4 =>
      cases hs
      rfl
    case h_6 => cases hs
    all_goals
      rename_i hpc
      rw [hpc] at hreturning
      cases hreturning

theorem releasedInv_invariant : ((socketServer minThreads maxThreads).restrict LifetimeOk).Invariant
    fun s => (((Mutex s ∧ LifecycleInv s) ∧ WorkersInv minThreads maxThreads s) ∧ CleanupInv s) ∧
      ReleasedInv s := by
  apply TransitionSystem.Invariant.restrict
  · exact ⟨cleanupInv_invariant.init, fun h => absurd rfl h⟩
  · intro s s' a hI hok hs
    exact ⟨cleanupInv_invariant.step hI.1 hs,
      hI.2.step hI.1.2 hI.1.1.1.2 hok (step_cases hs)⟩

/-! ## Uses behind the end -/

theorem cleared_le_one (h : CleanupInv s) : s.cleared ≤ 1 := by
  have hclearing : 0 ≤ tally (·.pc.clearing) s.workers := tally_nonneg
  have honce := h.once
  unfold Server.clearups at honce
  omega

theorem WorkerPc.exited_of_gone {pc : WorkerPc} (hgone : pc.gone = true)
    (hclearing : pc.clearing = false) : ∃ exitCode, pc = .exited exitCode := by
  unfold WorkerPc.gone at hgone
  split at hgone
  · exact ⟨_, rfl⟩
  · rw [hclearing] at hgone
    cases hgone

theorem CleanupInv.exited (h : CleanupInv s) (hcleared : s.cleared ≠ 0)
    (hw : s.workers[i]? = some w) : ∃ exitCode, w.pc = .exited exitCode := by
  have hmem := List.mem_of_getElem? hw
  have hnone : tally (·.pc.clearing) s.workers = 0 := by
    have hclearing : 0 ≤ tally (·.pc.clearing) s.workers := tally_nonneg
    have honce := h.once
    unfold Server.clearups at honce
    omega
  exact WorkerPc.exited_of_gone (h.gone (clearups_pos hcleared) w hmem)
    (tally_eq_zero_iff.mp hnone w hmem)

theorem ReleasedInv.not_touches {a : Act} (h : ReleasedInv s) (hC : CleanupInv s)
    (hL : LifecycleInv s) (hcleared : s.cleared ≠ 0) (hs : Step s a s') : Touches s a = false := by
  have hold := h hcleared
  have hpos := clearups_pos hcleared
  cases hs with
  | worker hw _ =>
    obtain ⟨exitCode, hpc⟩ := hC.exited hcleared hw
    rw [Touches, hw, Option.any_some, hpc]
    rfl
  | start hs =>
    have hsignaled := (hC.signaled hpos).1
    exact absurd hs (hL.not_start (by omega))
  | shutdown _ =>
    rw [Touches]
    rcases hC.closer hL hpos with hpc | hpc | hpc
    · exact absurd hpc hold.1
    · rw [hpc]
      rfl
    · rw [hpc]
      rfl
  | send _ =>
    rw [Touches]
    have hreturning := hold.2
    generalize s.sender = pc at hreturning
    cases pc <;> first | rfl | cases hreturning

/-- A run from `s` ends with a use of the freed server. -/
def UsedAfterFree (minThreads maxThreads : Nat) (s : Server) : Prop :=
  ∃ l t a t', (socketServer minThreads maxThreads).exec s l = some t ∧ t.cleared ≠ 0 ∧
    step t a = some t' ∧ Touches t a = true

theorem usedAfterFree_of_sender (hcleared : s.cleared ≠ 0) (hsender : s.sender.returning = true) :
    UsedAfterFree minThreads maxThreads s := by
  cases hpc : s.sender with
  | idle | waiting | ended =>
    rw [hpc] at hsender
    cases hsender
  | start =>
    have hnext : sendStep s .ok = some { s with sender := .wait } := by simp only [sendStep, hpc]
    exact ⟨[], s, .send .ok, _, rfl, hcleared, hnext, by rw [Touches, hpc]; rfl⟩
  | wait =>
    have hnext : sendStep s .ok = some { s with sender := .waiting } := by simp only [sendStep, hpc]
    exact ⟨[], s, .send .ok, _, rfl, hcleared, hnext, by rw [Touches, hpc]; rfl⟩
  | signal =>
    have hnext : sendStep s .ok = some { s with sender := .wait } := by simp only [sendStep, hpc]
    refine ⟨[.send .ok], { s with sender := .wait }, .send .ok, _, ?_, hcleared, rfl, rfl⟩
    show (sendStep s .ok).bind _ = _
    rw [hnext]
    rfl

theorem usedAfterFree_of_closer (hcleared : s.cleared ≠ 0) (hcloser : s.closer = .shutdownServer) :
    UsedAfterFree minThreads maxThreads s := by
  have hnext : shutdownStep s = some { s with listening := false, closer := .shutdownClients } := by
    simp only [shutdownStep, hcloser]
  exact ⟨[], s, .shutdown, _, rfl, hcleared, hnext, by rw [Touches, hcloser]; rfl⟩

theorem WorkerStep.of_frees (hfrees : w.pc.frees = true) (hs : WorkerStep s i w env s') :
    ∃ exitCode, w.pc = .free exitCode ∧ env = .ok ∧
      s' = { s with cleared := s.cleared + 1 }.setWorker i { w with pc := .exited exitCode } := by
  cases hs with
  | free hpc => exact ⟨_, hpc, rfl, rfl⟩
  | read hread =>
    generalize w.pc = pc at hfrees hread
    cases hread <;> cases hfrees
  | lock hpc _ =>
    generalize w.pc = pc at hfrees hpc
    unfold WorkerPc.locked at hpc
    split at hpc <;> cases hpc <;> cases hfrees
  | unlock hpc =>
    generalize w.pc = pc at hfrees hpc
    unfold WorkerPc.unlocked at hpc
    split at hpc <;> cases hpc <;> cases hfrees
  | pollServer hpc | pollClient hpc | accept hpc | acceptFail hpc | epollAdd hpc | count hpc
  | busy hpc | create hpc | incr hpc | idle hpc | rearm hpc | close hpc | uncountLast hpc
  | uncount hpc | leave hpc | stay hpc | uncountWorker hpc =>
    rw [hpc] at hfrees
    cases hfrees

theorem cleared_of_frees (hfrees : w.pc.frees = true) (hs : WorkerStep s i w env s') :
    s'.cleared = s.cleared + 1 := by
  rcases hs.of_frees hfrees with ⟨-, -, -, rfl⟩
  rfl

/-- A step that breaks the rule leads to a use of the freed server. -/
theorem ReleasedInv.usedAfterFree {a : Act} (h : ReleasedInv s) (hok : ¬ LifetimeOk s a)
    (hs : Step s a s') : UsedAfterFree minThreads maxThreads s' := by
  cases hs with
  | @worker i w env _ hw hs =>
    have hbroken : w.pc.frees = true ∧
        ¬ (s.closer ≠ .shutdownServer ∧ s.sender.returning = false) := by
      rw [← Classical.not_imp]
      intro hgood
      apply hok
      intro v hv
      rw [hw] at hv
      cases hv
      exact hgood
    have hcleared : s'.cleared ≠ 0 := by
      rw [cleared_of_frees hbroken.1 hs]
      exact Nat.succ_ne_zero _
    by_cases hcloser : s.closer = .shutdownServer
    · exact usedAfterFree_of_closer hcleared (by rw [closer_worker hs, hcloser])
    · apply usedAfterFree_of_sender hcleared
      rw [sender_worker hs]
      by_contra hsender
      rw [Bool.not_eq_true] at hsender
      exact hbroken.2 ⟨hcloser, hsender⟩
  | @send env _ hs =>
    obtain ⟨hcleared, hevent⟩ := Classical.not_imp.mp hok
    have hreturning := (h hcleared).2
    obtain rfl : env = .ok := Classical.not_not.mp hevent
    cases hpc : s.sender with
    | start | wait | signal =>
      rw [hpc] at hreturning
      cases hreturning
    | idle | ended =>
      simp only [sendStep, hpc] at hs
      cases hs
    | waiting =>
      simp only [sendStep, hpc] at hs
      cases hs
      exact usedAfterFree_of_sender hcleared rfl
  | start | shutdown => exact absurd trivial hok

/-- The clean-up runs once. While the other threads are done with the server when it is freed, and
nothing wakes the thread of the blocking senders afterwards, nobody uses it any more; a step that
breaks this leads to a use of the freed server. -/
theorem server_outlives_threads :
    (∀ s, (socketServer minThreads maxThreads).Reachable s → s.cleared ≤ 1) ∧
    (∀ s a s', ((socketServer minThreads maxThreads).restrict LifetimeOk).Reachable s →
      s.cleared ≠ 0 → step s a = some s' → Touches s a = false) ∧
    ∀ s a s', ((socketServer minThreads maxThreads).restrict LifetimeOk).Reachable s →
      step s a = some s' → ¬ LifetimeOk s a → UsedAfterFree minThreads maxThreads s' := by
  refine ⟨?_, ?_, ?_⟩
  · intro s hs
    exact cleared_le_one (cleanupInv_invariant.of_reachable hs).2
  · intro s a s' hs hcleared hstep
    obtain ⟨⟨⟨⟨-, hL⟩, -⟩, hC⟩, hR⟩ := releasedInv_invariant.of_reachable hs
    exact hR.not_touches hC hL hcleared (step_cases hstep)
  · intro s a s' hs hstep hok
    exact (releasedInv_invariant.of_reachable hs).2.usedAfterFree hok (step_cases hstep)

/-- `shutdownSocketServer` returns and the thread of the blocking senders waits before the only client
leaves. -/
def leaveAfterShutdown : List Act :=
  startServer 1 ++ [Act.send .ok, .send .ok, .worker 0 .ok, .worker 0 (.fd 5)] ++
    List.replicate 6 (Act.worker 0 .ok) ++ List.replicate 6 Act.shutdown ++
    [Act.worker 0 (.fd 5)] ++ List.replicate 8 (Act.worker 0 .ok) ++ [Act.worker 0 (.code 0)] ++
    List.replicate 11 (Act.worker 0 .ok)

theorem leaveAfterShutdown_isSome : (((socketServer 1 1).restrict LifetimeOk).exec
    (serverInit 1 1) leaveAfterShutdown).isSome := by
  decide +kernel

def afterLeave : Server := (((socketServer 1 1).restrict LifetimeOk).exec (serverInit 1 1)
  leaveAfterShutdown).get leaveAfterShutdown_isSome

theorem step_afterLeave_isSome : (step afterLeave (.send .fail)).isSome := by
  decide +kernel

theorem server_outlives_threads_leaveAfterShutdown :
    afterLeave.cleared = 1 ∧ Touches afterLeave (.send .fail) = false := by
  refine ⟨by decide +kernel, ?_⟩
  exact server_outlives_threads.2.1 afterLeave (.send .fail) _
    (TransitionSystem.reachable_of_exec _ (Option.some_get leaveAfterShutdown_isSome).symm)
    (by decide +kernel) (Option.some_get step_afterLeave_isSome).symm

/-- The only client leaves when `shutdownSocketServer` has given the lock back, and the thread of the
blocking senders has not come to its loop. -/
def leaveDuringShutdown : List Act :=
  startServer 1 ++ [Act.worker 0 .ok, .worker 0 (.fd 5)] ++ List.replicate 6 (Act.worker 0 .ok) ++
    List.replicate 4 Act.shutdown ++ [Act.worker 0 (.fd 5)] ++ List.replicate 8 (Act.worker 0 .ok) ++
    [Act.worker 0 (.code 0)] ++ List.replicate 11 (Act.worker 0 .ok)

theorem server_used_after_free :
    ∃ s, (socketServer 1 1).exec (serverInit 1 1) leaveDuringShutdown = some s ∧ s.cleared = 1 ∧
      (step s .shutdown).isSome ∧ Touches s .shutdown = true ∧
      (step s (.send .ok)).isSome ∧ Touches s (.send .ok) = true := by
  exact ⟨_, rfl, rfl, rfl, rfl, rfl, rfl⟩

end CcPof.SocketServer
