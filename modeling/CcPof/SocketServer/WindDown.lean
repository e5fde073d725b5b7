import CcPof.SocketServer.Lifetime
import CcPof.SocketServer.LockProgress
import CcPof.SocketServer.Sockets

/-!
# The workers leave

Once `lifecycleStatus` is 4, a worker that waits in `epoll_wait` leaves at its next time-out, and the
last one frees the server. `shutdown_completes` shows that this happens under every schedule, and
that nothing else can happen when there are no more clients.
-/

namespace CcPof.SocketServer

variable {minThreads maxThreads : Nat} {s s' : Server} {i : Nat} {w w' : Worker} {env : Env}
  {a : Act}

/-- The exit is signaled, the listening socket is shut down, and no worker has a client or gets an
event of one. -/
structure Ending (s : Server) : Prop where
  signaled : 4 ≤ s.qss.lifecycleStatus
  deaf : s.listening = false
  quiet : ∀ cs, s.armed cs = false
  alone : ∀ w ∈ s.workers, w.pc.client = none

/-- The longest way to the end of `epollWorkerRoutine`. The listening socket can send a worker to
`accept` once, where it fails. -/
def WorkerPc.remaining (serverArmed : Bool) : WorkerPc → Nat
  | testIdle => 18
  | testSpare => 17
  | lockTimeout | lockClosed | lockCount _ => 16
  | retest | uncount | count _ => 15
  | unlockTimeout exitCode => if exitCode = 0 then 14 else 1
  | unlockClosed _ | unlockCount => 14
  | poll => if serverArmed then 13 else 11
  | accept => 12
  | testLifecycle => 10
  | testExit => 9
  | lockExit _ => 8
  | uncountWorker _ => 7
  | unlockExit .. => 6
  | free _ => 5
  | _ => 0

theorem WorkerPc.remaining_false_le (b : Bool) (pc : WorkerPc) :
    pc.remaining false ≤ pc.remaining b := by
  cases pc with
  | poll => cases b <;> decide
  | _ => exact Nat.le_refl _

def ShutdownPc.remaining : ShutdownPc → Nat
  | idle => 6
  | lock => 5
  | test => 4
  | unlock _ => 3
  | shutdownServer => 2
  | shutdownClients => 1
  | returned _ => 0

def Server.remaining (s : Server) : Nat :=
  (s.workers.map fun w => w.pc.remaining s.serverArmed).sum + s.closer.remaining

/-- A worker that comes nearer to its end, and changes no other thread. -/
theorem Ending.set (h : Ending s) (hw : s.workers[i]? = some w)
    (hworkers : s'.workers = s.workers.set i w') (hcloser : s'.closer = s.closer)
    (hstatus : 4 ≤ s'.qss.lifecycleStatus) (hlistening : s'.listening = s.listening)
    (harmed : s'.armed = s.armed)
    (hserver : s'.serverArmed = s.serverArmed ∨ s'.serverArmed = false)
    (hclient : w'.pc.client = none)
    (hlt : w'.pc.remaining s'.serverArmed < w.pc.remaining s.serverArmed) :
    Ending s' ∧ s'.remaining < s.remaining := by
  refine ⟨⟨hstatus, by rw [hlistening, h.deaf], by rw [harmed]; exact h.quiet, ?_⟩, ?_⟩
  · intro v hv
    rw [hworkers] at hv
    rcases List.mem_or_eq_of_mem_set hv with hv | rfl
    · exact h.alone v hv
    · exact hclient
  · -- The ranks of the others depend on `serverArmed` only, which no worker sets again.
    have hle : ∀ v ∈ s.workers, v.pc.remaining s'.serverArmed ≤ v.pc.remaining s.serverArmed := by
      intro v _
      rcases hserver with hserver | hserver <;> rw [hserver]
      exact v.pc.remaining_false_le _
    have hsum := sum_map_set_lt (g := fun v : Worker => v.pc.remaining s'.serverArmed) hw hle hlt
    unfold Server.remaining
    rw [hworkers, hcloser]
    omega

theorem exit_of_signaled (hpc : w.pc = .testExit) (hsignaled : 4 ≤ s.qss.lifecycleStatus)
    (hs : workerStep s i w env = some s') : s' = s.setWorker i { w with pc := .lockExit 4 } := by
  obtain ⟨pc, decrements⟩ := w
  cases hpc
  cases env with
  | ok =>
    -- `WorkerRead.noExit` does not say that the exit is not signaled yet.
    have hnext : some (s.setWorker i
        ⟨if 4 ≤ s.qss.lifecycleStatus then .lockExit 4 else .poll, decrements⟩) = some s' := hs
    rw [if_pos hsignaled] at hnext
    exact (Option.some.inj hnext).symm
  | _ => cases hs

theorem WorkerRead.remaining_lt {q : QSocketServer} {pc pc' : WorkerPc} (b : Bool)
    (h : WorkerRead q pc env pc') (hsignaled : 4 ≤ q.lifecycleStatus) (hexit : pc ≠ .testExit)
    (hclient : pc.client = none) :
    pc'.client = none ∧ pc'.remaining b < pc.remaining b := by
  cases h with
  | timeout | pollFail => exact ⟨rfl, by cases b <;> decide⟩
  | testLifecycle =>
    rw [if_neg (by omega)]
    exact ⟨rfl, Nat.le_of_ble_eq_true rfl⟩
  | testIdle | testSpare => split <;> exact ⟨rfl, Nat.le_of_ble_eq_true rfl⟩
  | exit | noExit => exact absurd rfl hexit
  | setNonBlocking | setKeepAlive | setNonBlockingFail | setKeepAliveFail | epollAddFail | addRet
  | add | handle | rearmFail => cases hclient

theorem WorkerPc.remaining_locked {pc pc' : WorkerPc} (b : Bool) (h : pc.locked = some pc')
    (hclient : pc.client = none) : pc'.client = none ∧ pc'.remaining b < pc.remaining b := by
  unfold WorkerPc.locked at h
  split at h <;> cases h
  case h_2 | h_3 | h_4 => cases hclient
  all_goals exact ⟨rfl, Nat.le_of_ble_eq_true rfl⟩

theorem WorkerPc.remaining_unlocked {pc pc' : WorkerPc} (b : Bool) (h : pc.unlocked = some pc')
    (hclient : pc.client = none) : pc'.client = none ∧ pc'.remaining b < pc.remaining b := by
  have hpoll : poll.remaining b < 14 := by cases b <;> decide
  unfold WorkerPc.unlocked at h
  split at h <;> cases h
  case h_1 => exact ⟨rfl, hpoll⟩
  case h_2 | h_3 | h_4 => cases hclient
  case h_5 exitCode =>
    by_cases hcode : exitCode = 0
    · rw [if_pos hcode]
      exact ⟨rfl, hpoll⟩
    · rw [if_neg hcode]
      exact ⟨rfl, Nat.le_of_ble_eq_true rfl⟩
  case h_6 exitCode =>
    have hrank : (unlockTimeout exitCode).remaining b = if exitCode = 0 then 14 else 1 := rfl
    by_cases hcode : exitCode = 0
    · rw [if_pos hcode] at hrank ⊢
      exact ⟨rfl, by rw [hrank]; exact hpoll⟩
    · rw [if_neg hcode] at hrank ⊢
      exact ⟨rfl, by rw [hrank]; exact Nat.zero_lt_one⟩
  case h_7 exitCode clearup => cases clearup <;> exact ⟨rfl, Nat.le_of_ble_eq_true rfl⟩

/-- Every step of a worker brings it nearer to its end. -/
theorem Ending.worker (h : Ending s) (hw : s.workers[i]? = some w)
    (hs : workerStep s i w env = some s') : Ending s' ∧ s'.remaining < s.remaining := by
  have hclient := h.alone w (List.mem_of_getElem? hw)
  by_cases hexit : w.pc = .testExit
  · obtain rfl := exit_of_signaled hexit h.signaled hs
    refine h.set hw rfl rfl h.signaled rfl rfl (.inl rfl) rfl ?_
    rw [hexit]
    exact Nat.le_of_ble_eq_true rfl
  cases workerStep_cases hs with
  | read hread =>
    have hnext := hread.remaining_lt s.serverArmed h.signaled hexit hclient
    exact h.set hw rfl rfl h.signaled rfl rfl (.inl rfl) hnext.1 hnext.2
  | lock hpc _ =>
    have hnext := WorkerPc.remaining_locked s.serverArmed hpc hclient
    exact h.set hw rfl rfl h.signaled rfl rfl (.inl rfl) hnext.1 hnext.2
  | unlock hpc =>
    have hnext := WorkerPc.remaining_unlocked s.serverArmed hpc hclient
    exact h.set hw rfl rfl h.signaled rfl rfl (.inl rfl) hnext.1 hnext.2
  | pollServer hpc hserver =>
    refine h.set hw rfl rfl h.signaled rfl rfl (.inl rfl) rfl ?_
    show _ < w.pc.remaining s.serverArmed
    rw [hpc, hserver]
    exact Nat.le_of_ble_eq_true rfl
  | @pollClient cs _ harmed =>
    rw [h.quiet cs] at harmed
    cases harmed
  | accept _ hlistening _ =>
    -- `accept` fails once the listening socket is shut down.
    rw [h.deaf] at hlistening
    cases hlistening
  | acceptFail hpc =>
    -- `server_s` is taken out of the epoll set: no worker comes here again.
    refine h.set hw rfl rfl h.signaled rfl rfl (.inr rfl) rfl ?_
    rw [hpc]
    exact Nat.le_of_ble_eq_true rfl
  -- A worker that was idle for too long leaves before the exit is signaled.
  | leave _ hstatus _ _ => exact absurd h.signaled (by omega)
  | uncountLast hpc =>
    refine h.set hw rfl rfl (Nat.le_refl 4) rfl rfl (.inl rfl) rfl ?_
    rw [hpc]
    exact Nat.le_of_ble_eq_true rfl
  | count hpc | uncount hpc | stay hpc | uncountWorker hpc | free hpc =>
    refine h.set hw rfl rfl h.signaled rfl rfl (.inl rfl) rfl ?_
    rw [hpc]
    exact Nat.le_of_ble_eq_true rfl
  | epollAdd hpc | busy hpc | create hpc | incr hpc | idle hpc | rearm hpc | close hpc =>
    rw [hpc] at hclient
    cases hclient

theorem Ending.shutdown (h : Ending s) (hs : ShutdownStep s s') :
    Ending s' ∧ s'.remaining < s.remaining := by
  have hlt {s' : Server} (hworkers : s'.workers = s.workers)
      (hserver : s'.serverArmed = s.serverArmed)
      (hcloser : s'.closer.remaining < s.closer.remaining) : s'.remaining < s.remaining := by
    unfold Server.remaining
    rw [hworkers, hserver]
    exact Nat.add_lt_add_left hcloser _
  have hsignaled := h.signaled
  cases hs with
  | testRunning _ hrunning => omega
  | shutdownServer hpc =>
    refine ⟨⟨hsignaled, rfl, h.quiet, h.alone⟩, hlt rfl rfl ?_⟩
    rw [hpc]
    exact Nat.le_of_ble_eq_true rfl
  | @unlock ok hpc =>
    refine ⟨⟨hsignaled, h.deaf, h.quiet, h.alone⟩, hlt rfl rfl ?_⟩
    rw [hpc]
    cases ok <;> exact Nat.le_of_ble_eq_true rfl
  | call hpc | lock hpc | testOther hpc | shutdownClients hpc =>
    refine ⟨⟨hsignaled, h.deaf, h.quiet, h.alone⟩, hlt rfl rfl ?_⟩
    rw [hpc]
    exact Nat.le_of_ble_eq_true rfl

/-- The steps of the workers and of `shutdownSocketServer` -/
def Act.ends : Act → Bool
  | .worker .. | .shutdown => true
  | _ => false

theorem Ending.step (h : Ending s) (hL : LifecycleInv s) (hs : step s a = some s') :
    Ending s' ∧ s'.remaining + a.ends.toNat ≤ s.remaining := by
  cases a with
  | worker i env =>
    rw [SocketServer.step, Option.bind_eq_some_iff] at hs
    obtain ⟨w, hw, hs⟩ := hs
    exact h.worker hw hs
  | start env =>
    -- `startSocketServer` has returned.
    have hsignaled := h.signaled
    exact absurd (startStep_cases hs) (hL.not_start (by omega))
  | shutdown => exact h.shutdown (shutdownStep_cases hs)
  | send env =>
    rw [sendStep_eq hs]
    exact ⟨⟨h.signaled, h.deaf, h.quiet, h.alone⟩, Nat.le_refl _⟩

/-! ## 3. The last worker frees the server -/

/-- Once the exit is signaled, a worker is still counted, or the last one has seen that it is. -/
def Watched (s : Server) : Prop :=
  4 ≤ s.qss.lifecycleStatus → 0 < s.clearups ∨ 0 < s.qss.workerCounter

/-- A worker that has the lock and has not left is counted. -/
theorem WorkersInv.workerCounter_pos (h : WorkersInv minThreads maxThreads s) (hM : Mutex s)
    (hw : s.workers[i]? = some w) (hheld : w.pc.holds = true) (hincr : w.pc.incrementing = false)
    (hleft : w.pc.left = false) : 0 < s.qss.workerCounter := by
  have hlock : s.gSpinlock = some (.worker i) := (hM _).mpr (by rw [holds_worker hw, hheld])
  have hcounter : s.qss.workerCounter = tally Worker.counted s.workers := by
    apply h.workerCounter_eq hM <;> rw [hlock]
    · exact nofun
    · intro k v hk hv
      cases hk
      rw [hw] at hv
      cases hv
      exact hincr
  have hcounted : w.counted = true := by
    have hdecrements := (h.wf w (List.mem_of_getElem? hw)).decrements
    rw [hleft] at hdecrements
    exact decide_eq_true hdecrements
  rw [hcounter]
  exact tally_pos_iff.mpr ⟨w, List.mem_of_getElem? hw, hcounted⟩

theorem Watched.worker (h : Watched s) (hM : Mutex s) (hI : WorkersInv minThreads maxThreads s)
    (hw : s.workers[i]? = some w) (hs : WorkerStep s i w env s') : Watched s' := by
  intro hsignaled
  have hclearups : s.clearups ≤ s'.clearups := by
    rcases clearups_worker hw hs with hsame | ⟨_, _, _, _, hone, _, _⟩ <;> omega
  cases hs with
  | @uncountWorker exitCode hpc =>
    have hcounted : 0 < s.qss.workerCounter :=
      hI.workerCounter_pos hM hw (by rw [hpc]; rfl) (by rw [hpc]; rfl) (by rw [hpc]; rfl)
    by_cases hlast : s.qss.workerCounter - 1 = 0
    · -- The last worker sees this under the same lock.
      left
      have hnonneg : 0 ≤ s.clearups := clearups_nonneg
      refine Eq.trans_gt (clearups_set (s := s) hw rfl rfl) ?_
      rw [hpc]
      show 0 < s.clearups - 0 + (decide _).toInt
      rw [decide_eq_true ⟨hlast, hsignaled⟩, Bool.toInt_true]
      omega
    · right
      show 0 < s.qss.workerCounter - 1
      omega
  | uncountLast hpc =>
    exact .inr (hI.workerCounter_pos hM hw (by rw [hpc]; rfl) (by rw [hpc]; rfl) (by rw [hpc]; rfl))
  | leave _ hstatus =>
    have hbelow : 4 ≤ s.qss.lifecycleStatus := hsignaled
    omega
  | incr =>
    refine (h hsignaled).imp (fun hpos => Int.lt_of_lt_of_le hpos hclearups) fun hpos => ?_
    show 0 < s.qss.workerCounter + 1
    omega
  | _ => exact (h hsignaled).imp_left fun hpos => Int.lt_of_lt_of_le hpos hclearups

theorem Watched.step (h : Watched s) (hM : Mutex s) (hL : LifecycleInv s)
    (hI : WorkersInv minThreads maxThreads s) (hs : Step s a s') : Watched s' := by
  cases hs with
  | worker hw hs => exact h.worker hM hI hw hs
  | start hs =>
    intro hsignaled
    refine absurd hs (hL.not_start ?_)
    rcases lifecycleStatus_start hL hs with ⟨hsame, -⟩ | ⟨hnext, -, hlt⟩ <;> omega
  | shutdown hs =>
    intro hsignaled
    have hstatus : 4 ≤ s.qss.lifecycleStatus := by
      rcases lifecycleStatus_shutdown hs with ⟨hsame, -⟩ | ⟨hnext, -, -⟩ <;> omega
    cases hs <;> exact h hstatus
  | send hs =>
    rw [sendStep_eq hs]
    exact h

/-- What is known of the server while it winds down -/
structure WindingDown (minThreads maxThreads : Nat) (s : Server) : Prop where
  inv : ((Mutex s ∧ LifecycleInv s) ∧ WorkersInv minThreads maxThreads s) ∧ CleanupInv s
  watched : Watched s

/-- All workers have left, `shutdownSocketServer` has returned, and the server is freed. -/
structure Ended (s : Server) : Prop where
  workers : ∀ w ∈ s.workers, ∃ exitCode, w.pc = .exited exitCode
  closer : s.closer = .returned 1
  cleared : s.cleared = 1

theorem not_alive_of_stuck {t : Tid} (h : Ending s) (hL : LifecycleInv s)
    (hstuck : ∀ a, a.ends = true → step s a = none)
    (hlock : s.gSpinlock = none ∨ s.holds t = true) : ¬ s.Alive t := by
  intro halive
  obtain ⟨a, ha, hsome⟩ := enabled_of_alive halive hlock
  obtain ⟨s', hs⟩ := Option.isSome_iff_exists.mp hsome
  cases a with
  | worker | shutdown =>
    rw [hstuck _ rfl] at hs
    cases hs
  | start env =>
    have hsignaled := h.signaled
    exact hL.not_start (by omega) (startStep_cases hs)
  | send => cases ha

theorem WindingDown.ended (h : WindingDown minThreads maxThreads s) (hending : Ending s)
    (hstuck : ∀ a, a.ends = true → step s a = none) : Ended s := by
  obtain ⟨⟨⟨hM, hL⟩, hI⟩, hC⟩ := h.inv
  have hfree : s.gSpinlock = none := by
    by_contra hheld
    obtain ⟨t, ht⟩ := Option.ne_none_iff_exists'.mp hheld
    have hholds := (hM t).mp ht
    exact not_alive_of_stuck hending hL hstuck (.inr hholds) (alive_of_holds hholds)
  have hworkers : ∀ w ∈ s.workers, ∃ exitCode, w.pc = .exited exitCode := by
    intro w hw
    obtain ⟨i, hi⟩ := List.mem_iff_getElem?.mp hw
    have hdead := not_alive_of_stuck hending hL hstuck (t := .worker i) (.inl hfree)
    cases hpc : w.pc with
    | exited exitCode => exact ⟨exitCode, rfl⟩
    | _ => exact absurd ⟨_, place_worker hi, by rw [hpc]; rfl⟩ hdead
  have hcloser : s.closer = .returned 1 := by
    have hdead := not_alive_of_stuck hending hL hstuck (t := .closer) (.inl hfree)
    have haccepted := hL.closer.mpr (Nat.le_of_succ_le hending.signaled)
    cases hpc : s.closer with
    | returned ret =>
      rw [hpc] at haccepted
      rw [of_decide_eq_true haccepted]
    | _ => exact absurd ⟨_, rfl, by rw [hpc]; rfl⟩ hdead
  refine ⟨hworkers, hcloser, ?_⟩
  -- Nobody is counted any more, so somebody has seen that he is the last.
  have hnone : s.qss.workerCounter = 0 := by
    rw [(hI.counters hM hfree).1, tally_eq_zero_iff]
    intro w hw
    obtain ⟨exitCode, hpc⟩ := hworkers w hw
    have hdecrements := (hI.wf w hw).decrements
    rw [hpc] at hdecrements
    rw [Worker.counted, hdecrements]
    rfl
  have hclearing : tally (·.pc.clearing) s.workers = 0 := by
    rw [tally_eq_zero_iff]
    intro w hw
    obtain ⟨exitCode, hpc⟩ := hworkers w hw
    rw [hpc]
    rfl
  have hclearups : 0 < s.clearups := (h.watched hending.signaled).resolve_right (by omega)
  have hle := cleared_le_one hC
  unfold Server.clearups at hclearups
  omega

end CcPof.SocketServer
