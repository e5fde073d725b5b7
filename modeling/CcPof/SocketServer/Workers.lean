import CcPof.Lib.Tally
import CcPof.SocketServer.Lock

/-!
# The accounting of the workers

`workerCounter` lags behind the list of workers only between a `pthread_create` and the increment
behind it, which no other thread sees, and `currentBusyWorkers` is the number of workers on a
client's event. What `addQSSWorker` has tested under the lock it uses up under the same lock.
-/

namespace CcPof.SocketServer

variable {minThreads maxThreads : Nat} {s s' : Server} {i : Nat} {w w' : Worker} {env : Env}

/-- The thread of `addQSSWorker` has created a worker and not counted it. -/
def AddPc.incrementing : AddPc → Bool
  | incr _ => true
  | _ => false

/-- How many of the workers that `addQSSWorker` may create are not counted. -/
def AddPc.reserve (addCounter : Nat) : AddPc → Nat
  | create i => addCounter - i
  | incr i => addCounter - (i + 1) + 1
  | _ => 0

def WorkerPc.incrementing : WorkerPc → Bool
  | add _ pc => pc.incrementing
  | _ => false

def WorkerPc.reserving : WorkerPc → Bool
  | add _ pc => 0 < pc.reserve 1
  | _ => false

/-- The worker is between its two updates of `currentBusyWorkers`. -/
def WorkerPc.isBusy : WorkerPc → Bool
  | unlockBusy _ | add .. | handle _ | lockIdle .. | idle .. => true
  | _ => false

/-- The worker has decremented `workerCounter`. -/
def WorkerPc.left : WorkerPc → Bool
  | unlockTimeout exitCode => exitCode ≠ 0
  | unlockExit .. | free _ | exited _ => true
  | _ => false

/-- The worker leaves its loop with the exit code 4. -/
def WorkerPc.signaled : WorkerPc → Bool
  | lockExit exitCode | uncountWorker exitCode | unlockClosed exitCode => exitCode = 4
  | _ => false

def StartPc.incrementing : StartPc → Bool
  | add pc => pc.incrementing
  | _ => false

def StartPc.reserve (minThreads : Nat) : StartPc → Nat
  | add pc => pc.reserve minThreads
  | _ => 0

/-- A worker that has not decremented `workerCounter`. -/
def Worker.counted (w : Worker) : Bool := w.decrements = 0

structure Worker.Wf (q : QSocketServer) (w : Worker) : Prop where
  decrements : w.decrements = if w.pc.left then 1 else 0
  signaled : w.pc.signaled = true → 4 ≤ q.lifecycleStatus

structure WorkersInv (minThreads maxThreads : Nat) (s : Server) : Prop where
  min : s.qss.minThreads = minThreads
  max : s.qss.maxThreads = maxThreads
  wf : ∀ w ∈ s.workers, w.Wf s.qss
  counter : s.qss.workerCounter + tally (·.pc.incrementing) s.workers + s.starter.incrementing.toInt =
    tally Worker.counted s.workers
  busy : s.qss.currentBusyWorkers = tally (·.pc.isBusy) s.workers
  room : s.qss.workerCounter + tally (·.pc.reserving) s.workers + s.starter.reserve minThreads ≤
    maxThreads

/-! ## Places that the counters do not tell apart -/

structure SamePlace (pc pc' : WorkerPc) : Prop where
  left : pc'.left = pc.left
  incrementing : pc'.incrementing = pc.incrementing
  isBusy : pc'.isBusy = pc.isBusy

theorem AddRead.incrementing_eq {q : QSocketServer} {n : Nat} {pc pc' : AddPc}
    (h : AddRead q n pc pc') : pc.incrementing = false ∧ pc'.incrementing = false := by
  cases h with
  | testMin | testEqual | testMax => exact ⟨rfl, by split <;> rfl⟩
  | _ => exact ⟨rfl, rfl⟩

/-- Only the test under the lock makes room. -/
theorem AddRead.reserve_le {q : QSocketServer} {n : Nat} {pc pc' : AddPc} (h : AddRead q n pc pc') :
    pc'.reserve n ≤ pc.reserve n ∨
      pc = .guard ∧ pc'.reserve n = n ∧ q.workerCounter + n ≤ q.maxThreads := by
  cases h with
  | testMin | testEqual | testMax =>
    left
    split <;> exact Nat.le_refl 0
  | room hroom => exact .inr ⟨rfl, rfl, hroom⟩
  | mallocFail _ => exact .inl (Nat.sub_le_sub_left (Nat.le_succ _) _)
  | _ => exact .inl (Nat.zero_le _)

theorem WorkerRead.samePlace {q : QSocketServer} {pc pc' : WorkerPc} (h : WorkerRead q pc env pc') :
    SamePlace pc pc' := by
  cases h with
  | add h => exact ⟨rfl, h.incrementing_eq.2.trans h.incrementing_eq.1.symm, rfl⟩
  | testLifecycle | testIdle | testSpare => split <;> exact ⟨rfl, rfl, rfl⟩
  | _ => exact ⟨rfl, rfl, rfl⟩

/-- `addQSSWorker(qss, 1)` creates one worker at most. -/
theorem AddPc.toInt_reserving (cs : Fd) (pc : AddPc) :
    (WorkerPc.add cs pc).reserving.toInt = pc.reserve 1 := by
  have hle : pc.reserve 1 ≤ 1 := by
    cases pc with
    | create i => exact Nat.sub_le 1 i
    | incr i =>
      show 1 - (i + 1) + 1 ≤ 1
      omega
    | _ => exact Nat.zero_le 1
  rw [WorkerPc.reserving]
  by_cases hpos : 0 < pc.reserve 1
  · rw [decide_eq_true hpos, Bool.toInt_true]
    omega
  · rw [decide_eq_false hpos, Bool.toInt_false]
    omega

theorem WorkerRead.reserving_le {q : QSocketServer} {pc pc' : WorkerPc}
    (h : WorkerRead q pc env pc') : pc'.reserving.toInt ≤ pc.reserving.toInt ∨
      (∃ cs, pc = .add cs .guard) ∧ pc'.reserving.toInt = 1 ∧
        q.workerCounter + 1 ≤ q.maxThreads := by
  cases h with
  | add h =>
    rw [AddPc.toInt_reserving, AddPc.toInt_reserving]
    rcases h.reserve_le with hle | ⟨rfl, hone, hroom⟩
    · exact .inl (Int.ofNat_le.mpr hle)
    · exact .inr ⟨⟨_, rfl⟩, by rw [hone]; rfl, hroom⟩
  | testLifecycle | testIdle | testSpare =>
    left
    split <;> exact Int.le_refl 0
  | _ => exact .inl (Int.le_refl 0)

theorem WorkerPc.samePlace_of_locked {pc pc' : WorkerPc} (h : pc.locked = some pc') :
    SamePlace pc pc' ∧ pc'.reserving = false := by
  unfold WorkerPc.locked at h
  split at h <;> cases h <;> exact ⟨⟨rfl, rfl, rfl⟩, rfl⟩

theorem WorkerPc.samePlace_of_unlocked {pc pc' : WorkerPc} (h : pc.unlocked = some pc') :
    SamePlace pc pc' ∧ pc'.reserving = false := by
  unfold WorkerPc.unlocked at h
  split at h <;> cases h
  case h_4 | h_5 | h_7 => exact ⟨by split <;> exact ⟨rfl, rfl, rfl⟩, by split <;> rfl⟩
  case h_6 exitCode =>
    by_cases hcode : exitCode = 0
    · rw [if_pos hcode]
      exact ⟨⟨by rw [WorkerPc.left, hcode]; rfl, rfl, rfl⟩, rfl⟩
    · rw [if_neg hcode]
      exact ⟨⟨(decide_eq_true hcode).symm, rfl, rfl⟩, rfl⟩
  all_goals exact ⟨⟨rfl, rfl, rfl⟩, rfl⟩

theorem WorkerRead.signaled {q : QSocketServer} {pc pc' : WorkerPc} (h : WorkerRead q pc env pc') :
    pc'.signaled = true → 4 ≤ q.lifecycleStatus := by
  cases h with
  | exit hstatus => exact fun _ => hstatus
  | testLifecycle | testIdle | testSpare =>
    split <;> exact nofun
  | _ => exact nofun

theorem WorkerPc.signaled_of_locked {pc pc' : WorkerPc} (h : pc.locked = some pc') :
    pc'.signaled = true → pc.signaled = true := by
  unfold WorkerPc.locked at h
  split at h <;> cases h
  case h_7 => exact id
  all_goals exact nofun

theorem WorkerPc.signaled_of_unlocked {pc pc' : WorkerPc} (h : pc.unlocked = some pc') :
    pc'.signaled = true → pc.signaled = true := by
  unfold WorkerPc.unlocked at h
  split at h <;> cases h
  case h_5 =>
    split
    · exact nofun
    · exact id
  case h_4 | h_6 | h_7 =>
    split <;> exact nofun
  all_goals exact nofun

/-! ## One worker takes a step -/

theorem Worker.Wf.mono {q q' : QSocketServer} (h : w.Wf q)
    (hle : q.lifecycleStatus ≤ q'.lifecycleStatus) : w.Wf q' :=
  ⟨h.decrements, fun hsignaled => Nat.le_trans (h.signaled hsignaled) hle⟩

theorem Worker.Wf.toInt_counted {q : QSocketServer} (h : w.Wf q) :
    w.counted.toInt = 1 - w.pc.left.toInt := by
  rw [Worker.counted, h.decrements]
  cases w.pc.left <;> rfl

section Set

variable (h : WorkersInv minThreads maxThreads s) (hw : s.workers[i]? = some w)
  (hworkers : s'.workers = s.workers.set i w') (hstarter : s'.starter = s.starter)
  (hmin : s'.qss.minThreads = s.qss.minThreads) (hmax : s'.qss.maxThreads = s.qss.maxThreads)
  (hstatus : s.qss.lifecycleStatus ≤ s'.qss.lifecycleStatus) (hwf : w'.Wf s'.qss)
include h hw hworkers hstarter hmin hmax hstatus hwf

theorem WorkersInv.set_of_room
    (hcounter : s'.qss.workerCounter + w'.pc.incrementing.toInt + w'.pc.left.toInt =
      s.qss.workerCounter + w.pc.incrementing.toInt + w.pc.left.toInt)
    (hbusy : s'.qss.currentBusyWorkers - w'.pc.isBusy.toInt =
      s.qss.currentBusyWorkers - w.pc.isBusy.toInt)
    (hroom : s'.qss.workerCounter + (tally (·.pc.reserving) s.workers - w.pc.reserving.toInt +
      w'.pc.reserving.toInt) + s.starter.reserve minThreads ≤ maxThreads) :
    WorkersInv minThreads maxThreads s' where
  min := hmin.trans h.min
  max := hmax.trans h.max
  wf v hv := by
    rw [hworkers] at hv
    rcases List.mem_or_eq_of_mem_set hv with hv | rfl
    · exact (h.wf v hv).mono hstatus
    · exact hwf
  counter := by
    have hold := h.counter
    have hcounted := (h.wf w (List.mem_of_getElem? hw)).toInt_counted
    have hcounted' := hwf.toInt_counted
    rw [hworkers, hstarter, tally_set hw, tally_set hw]
    omega
  busy := by
    have hold := h.busy
    rw [hworkers, tally_set hw]
    omega
  room := by
    rw [hworkers, hstarter, tally_set hw]
    exact hroom

theorem WorkersInv.set
    (hcounter : s'.qss.workerCounter + w'.pc.incrementing.toInt + w'.pc.left.toInt =
      s.qss.workerCounter + w.pc.incrementing.toInt + w.pc.left.toInt)
    (hbusy : s'.qss.currentBusyWorkers - w'.pc.isBusy.toInt =
      s.qss.currentBusyWorkers - w.pc.isBusy.toInt)
    (hroom : s'.qss.workerCounter + w'.pc.reserving.toInt ≤
      s.qss.workerCounter + w.pc.reserving.toInt) : WorkersInv minThreads maxThreads s' := by
  apply h.set_of_room hw hworkers hstarter hmin hmax hstatus hwf hcounter hbusy
  have hold := h.room
  omega

end Set

/-- A worker that neither counts nor is counted. -/
theorem WorkersInv.goto {c : Int} {l : Nat} (h : WorkersInv minThreads maxThreads s)
    (hw : s.workers[i]? = some w) (hworkers : s'.workers = s.workers.set i w')
    (hstarter : s'.starter = s.starter)
    (hqss : s'.qss = { s.qss with cSocketsCounter := c, lifecycleStatus := l })
    (hstatus : s.qss.lifecycleStatus ≤ l) (hdecrements : w'.decrements = w.decrements)
    (hplace : SamePlace w.pc w'.pc) (hroom : w'.pc.reserving.toInt ≤ w.pc.reserving.toInt)
    (hsignaled : w'.pc.signaled = true → 4 ≤ l) : WorkersInv minThreads maxThreads s' := by
  have hwf := h.wf w (List.mem_of_getElem? hw)
  have hwf' : w'.Wf s'.qss := by
    constructor
    · rw [hdecrements, hplace.left, hwf.decrements]
    · rw [hqss]
      exact hsignaled
  apply h.set hw hworkers hstarter (by rw [hqss]) (by rw [hqss]) (by rw [hqss]; exact hstatus) hwf'
  · rw [hqss, hplace.incrementing, hplace.left]
  · rw [hqss, hplace.isBusy]
  · rw [hqss]
    exact Int.add_le_add_left hroom _

/-- The thread that holds the lock is the only one in the places of `p`. -/
theorem Mutex.tally_eq_zero (hM : Mutex s) {p : Worker → Bool}
    (hp : ∀ w, p w = true → w.pc.holds = true)
    (hlock : ∀ i w, s.gSpinlock = some (.worker i) → s.workers[i]? = some w → p w = false) :
    tally p s.workers = 0 := by
  rw [tally_eq_zero_iff]
  intro w hmem
  obtain ⟨k, hk⟩ := List.mem_iff_getElem?.mp hmem
  by_contra hpw
  rw [Bool.not_eq_false] at hpw
  have hheld : s.holds (.worker k) = true := by rw [holds_worker hk, hp w hpw]
  rw [hlock k w ((hM _).mpr hheld) hk] at hpw
  cases hpw

theorem WorkerPc.holds_of_reserving {pc : WorkerPc} (h : pc.reserving = true) :
    pc.holds = true := by
  unfold WorkerPc.reserving at h
  split at h
  · rename_i cs pc
    cases pc <;> first | rfl | cases h
  · cases h

theorem StartPc.holds_of_reserve {pc : StartPc} (h : pc.reserve minThreads ≠ 0) :
    pc.holds = true := by
  unfold StartPc.reserve at h
  split at h
  · rename_i pc
    cases pc <;> first | rfl | exact absurd rfl h
  · exact absurd rfl h

/-- While a thread holds the lock and has reserved nothing, nothing is reserved. -/
theorem Mutex.tally_reserving (hM : Mutex s) (hw : s.workers[i]? = some w)
    (hheld : w.pc.holds = true) (hreserving : w.pc.reserving = false) :
    tally (·.pc.reserving) s.workers = 0 ∧ s.starter.reserve minThreads = 0 := by
  have hlock : s.gSpinlock = some (.worker i) := (hM _).mpr (by rw [holds_worker hw, hheld])
  constructor
  · apply hM.tally_eq_zero fun w => WorkerPc.holds_of_reserving
    intro k v hk hv
    rw [hlock] at hk
    cases hk
    rw [hw] at hv
    cases hv
    exact hreserving
  · by_contra hreserve
    have hstarter := (hM .starter).mpr (StartPc.holds_of_reserve hreserve)
    rw [hlock] at hstarter
    cases hstarter

theorem WorkersInv.read {pc : WorkerPc} (h : WorkersInv minThreads maxThreads s) (hM : Mutex s)
    (hw : s.workers[i]? = some w) (hread : WorkerRead s.qss w.pc env pc) :
    WorkersInv minThreads maxThreads (s.setWorker i { w with pc := pc }) := by
  have hplace := hread.samePlace
  rcases hread.reserving_le with hle | ⟨⟨cs, hguard⟩, hone, hroom⟩
  · exact h.goto hw rfl rfl rfl (Nat.le_refl _) rfl hplace hle hread.signaled
  · -- The test under the lock: nobody else has reserved a worker since.
    have hnone : tally (·.pc.reserving) s.workers = 0 ∧ s.starter.reserve minThreads = 0 :=
      hM.tally_reserving hw (by rw [hguard]; rfl) (by rw [hguard]; rfl)
    have hwf := h.wf w (List.mem_of_getElem? hw)
    have hwf' : Worker.Wf s.qss { w with pc := pc } :=
      ⟨by rw [hplace.left, ← hwf.decrements], hread.signaled⟩
    refine h.set_of_room hw rfl rfl rfl rfl (Nat.le_refl _) hwf' ?_ ?_ ?_
    · show _ + pc.incrementing.toInt + pc.left.toInt = _
      rw [hplace.incrementing, hplace.left]
      rfl
    · show _ - pc.isBusy.toInt = _
      rw [hplace.isBusy]
      rfl
    · show s.qss.workerCounter + (tally (·.pc.reserving) s.workers - w.pc.reserving.toInt +
        pc.reserving.toInt) + s.starter.reserve minThreads ≤ maxThreads
      have hmax := h.max
      have hzero : w.pc.reserving.toInt = 0 := by
        rw [hguard]
        rfl
      rw [hnone.1, hnone.2, hzero, hone]
      omega

theorem wf_createWorker {q : QSocketServer} : Worker.Wf q ⟨.poll, 0⟩ := ⟨rfl, nofun⟩

theorem WorkersInv.create {cs : Fd} {j : Nat} (h : WorkersInv minThreads maxThreads s)
    (hw : s.workers[i]? = some w) (hpc : w.pc = .add cs (.create j)) (hj : j < 1) :
    WorkersInv minThreads maxThreads
      (s.setWorker i { w with pc := .add cs (.incr j) }).createWorker := by
  have hwf := h.wf w (List.mem_of_getElem? hw)
  have hdecrements := hwf.decrements
  rw [hpc] at hdecrements
  have hincr : Worker.Wf s.qss { w with pc := .add cs (.incr j) } := ⟨hdecrements, nofun⟩
  constructor
  · exact h.min
  · exact h.max
  · intro v hv
    rw [Server.workers_createWorker, List.mem_append, List.mem_singleton] at hv
    rcases hv with hv | rfl
    · rcases List.mem_or_eq_of_mem_set hv with hv | rfl
      · exact h.wf v hv
      · exact hincr
    · exact wf_createWorker
  · have hold := h.counter
    have hcounted : w.counted.toInt = 1 := by
      rw [hwf.toInt_counted, hpc]
      rfl
    have hcounted' : Worker.counted { w with pc := .add cs (.incr j) } = w.counted := rfl
    rw [Server.workers_createWorker, Server.workers_setWorker, tally_append_singleton,
      tally_append_singleton, tally_set hw, tally_set hw, hpc, hcounted', hcounted]
    show s.qss.workerCounter + (tally (·.pc.incrementing) s.workers - 0 + 1 + 0) +
      s.starter.incrementing.toInt = tally Worker.counted s.workers - 1 + 1 + 1
    omega
  · have hold := h.busy
    rw [Server.workers_createWorker, Server.workers_setWorker, tally_append_singleton,
      tally_set hw, hpc]
    show s.qss.currentBusyWorkers = tally (·.pc.isBusy) s.workers - 1 + 1 + 0
    omega
  · have hold := h.room
    have hreserve : (WorkerPc.add cs (.incr j)).reserving.toInt =
        (WorkerPc.add cs (.create j)).reserving.toInt := by
      rw [AddPc.toInt_reserving, AddPc.toInt_reserving]
      show ((1 - (j + 1) + 1 : Nat) : Int) = (1 - j : Nat)
      omega
    rw [Server.workers_createWorker, Server.workers_setWorker, tally_append_singleton,
      tally_set hw, hpc, hreserve]
    show s.qss.workerCounter + (tally (·.pc.reserving) s.workers - _ + _ + 0) +
      s.starter.reserve minThreads ≤ maxThreads
    omega

/-- The worker takes itself off the counter, for the first time. -/
theorem WorkersInv.leave {pc : WorkerPc} (h : WorkersInv minThreads maxThreads s)
    (hw : s.workers[i]? = some w) (hfrom : SamePlace .poll w.pc) (hto : SamePlace (.free 0) pc)
    (hreserving : pc.reserving = false) (hsignaled : pc.signaled = false) :
    WorkersInv minThreads maxThreads
      ({ s with qss := { s.qss with workerCounter := s.qss.workerCounter - 1 } }.setWorker i
        ⟨pc, w.decrements + 1⟩) := by
  have hdecrements := (h.wf w (List.mem_of_getElem? hw)).decrements
  have hleft : w.pc.left = false := hfrom.left
  have hone : w.decrements + 1 = if pc.left then 1 else 0 := by
    rw [hdecrements, hleft, hto.left]
    rfl
  have hnot : pc.signaled = true → 4 ≤ s.qss.lifecycleStatus := by
    intro hsig
    rw [hsignaled] at hsig
    cases hsig
  refine h.set hw rfl rfl rfl rfl (Nat.le_refl _) ⟨hone, hnot⟩ ?_ ?_ ?_
  · rw [hfrom.incrementing, hfrom.left, hto.incrementing, hto.left]
    show s.qss.workerCounter - 1 + 0 + 1 = s.qss.workerCounter + 0 + 0
    omega
  · rw [hfrom.isBusy, hto.isBusy]
    rfl
  · have hnonneg := toInt_nonneg w.pc.reserving
    rw [hreserving]
    show s.qss.workerCounter - 1 + 0 ≤ _
    omega

theorem WorkersInv.worker (h : WorkersInv minThreads maxThreads s) (hM : Mutex s)
    (hL : LifecycleInv s) (hw : s.workers[i]? = some w) (hs : WorkerStep s i w env s') :
    WorkersInv minThreads maxThreads s' := by
  have hwf := h.wf w (List.mem_of_getElem? hw)
  have hdecrements := hwf.decrements
  cases hs with
  | read hread => exact h.read hM hw hread
  | lock hpc _ =>
    have hplace := WorkerPc.samePlace_of_locked hpc
    refine WorkersInv.goto (s := s) h hw rfl rfl rfl (Nat.le_refl _) rfl hplace.1 ?_ ?_
    · rw [hplace.2]
      exact toInt_nonneg _
    · exact fun hsig => hwf.signaled (WorkerPc.signaled_of_locked hpc hsig)
  | unlock hpc =>
    have hplace := WorkerPc.samePlace_of_unlocked hpc
    refine WorkersInv.goto (s := s) h hw rfl rfl rfl (Nat.le_refl _) rfl hplace.1 ?_ ?_
    · rw [hplace.2]
      exact toInt_nonneg _
    · exact fun hsig => hwf.signaled (WorkerPc.signaled_of_unlocked hpc hsig)
  | uncountLast hpc _ _ =>
    -- The step to the status 4 only makes `signaled` easier.
    exact h.goto hw rfl rfl rfl hL.le rfl (by rw [hpc]; exact ⟨rfl, rfl, rfl⟩)
      (by rw [hpc]; exact Int.le_refl 0) nofun
  | pollServer hpc | pollClient hpc | accept hpc | acceptFail hpc | epollAdd hpc | count hpc
  | rearm hpc | close hpc | uncount hpc | stay hpc | free hpc =>
    exact h.goto hw rfl rfl rfl (Nat.le_refl _) rfl (by rw [hpc]; exact ⟨rfl, rfl, rfl⟩)
      (by rw [hpc]; exact Int.le_refl 0) nofun
  | busy hpc =>
    -- `current_busy_workers` moves together with the worker's place.
    rw [hpc] at hdecrements
    refine h.set hw rfl rfl rfl rfl (Nat.le_refl _) ⟨hdecrements, nofun⟩ ?_ ?_ ?_ <;> rw [hpc]
    · rfl
    · show s.qss.currentBusyWorkers + 1 - 1 = s.qss.currentBusyWorkers - 0
      omega
    · exact Int.le_refl _
  | idle hpc =>
    rw [hpc] at hdecrements
    refine h.set hw rfl rfl rfl rfl (Nat.le_refl _) ⟨hdecrements, nofun⟩ ?_ ?_ ?_ <;> rw [hpc]
    · rfl
    · show s.qss.currentBusyWorkers - 1 - 0 = s.qss.currentBusyWorkers - 1
      omega
    · exact Int.le_refl _
  | @incr cs j hpc =>
    -- A reservation becomes a count.
    rw [hpc] at hdecrements
    refine h.set hw rfl rfl rfl rfl (Nat.le_refl _) ⟨hdecrements, nofun⟩ ?_ ?_ ?_ <;> rw [hpc]
    · show s.qss.workerCounter + 1 + 0 + 0 = s.qss.workerCounter + 1 + 0
      omega
    · rfl
    · rw [AddPc.toInt_reserving, AddPc.toInt_reserving]
      show s.qss.workerCounter + 1 + ((1 - (j + 1) : Nat) : Int) ≤
        s.qss.workerCounter + ((1 - (j + 1) + 1 : Nat) : Int)
      omega
  | create hpc hj => exact h.create hw hpc hj
  | leave hpc _ _ _ | uncountWorker hpc =>
    exact h.leave hw (by rw [hpc]; exact ⟨rfl, rfl, rfl⟩) ⟨rfl, rfl, rfl⟩ rfl rfl

/-! ## The other threads -/

theorem WorkersInv.others (h : WorkersInv minThreads maxThreads s)
    (hworkers : s'.workers = s.workers) (hmin : s'.qss.minThreads = s.qss.minThreads)
    (hmax : s'.qss.maxThreads = s.qss.maxThreads)
    (hstatus : s.qss.lifecycleStatus ≤ s'.qss.lifecycleStatus)
    (hbusy : s'.qss.currentBusyWorkers = s.qss.currentBusyWorkers)
    (hcounter : s'.qss.workerCounter + s'.starter.incrementing.toInt =
      s.qss.workerCounter + s.starter.incrementing.toInt)
    (hroom : s'.qss.workerCounter + tally (·.pc.reserving) s.workers +
      s'.starter.reserve minThreads ≤ maxThreads) : WorkersInv minThreads maxThreads s' where
  min := hmin.trans h.min
  max := hmax.trans h.max
  wf v hv := (h.wf v (hworkers ▸ hv)).mono hstatus
  counter := by
    have hold := h.counter
    rw [hworkers]
    omega
  busy := by rw [hbusy, hworkers, h.busy]
  room := by
    rw [hworkers]
    exact hroom

theorem WorkersInv.add_reserve_le {pc pc' : AddPc} (h : WorkersInv minThreads maxThreads s)
    (hM : Mutex s) (hpc : s.starter = .add pc) (hread : AddRead s.qss s.qss.minThreads pc pc') :
    s.qss.workerCounter + tally (·.pc.reserving) s.workers + pc'.reserve minThreads ≤
      maxThreads := by
  have hmin := h.min
  have hmax := h.max
  have hold := h.room
  rw [hmin] at hread
  rw [hpc, StartPc.reserve] at hold
  rcases hread.reserve_le with hle | ⟨rfl, hreserve, hroom⟩
  · omega
  · -- The starter has the lock.
    have hlock : s.gSpinlock = some .starter := (hM _).mpr (by rw [Server.holds, hpc]; rfl)
    have hnone : tally (·.pc.reserving) s.workers = 0 := by
      apply hM.tally_eq_zero fun w => WorkerPc.holds_of_reserving
      intro k v hk _
      rw [hlock] at hk
      cases hk
    rw [hnone, hreserve]
    omega

theorem WorkersInv.starterCreate {j : Nat} (h : WorkersInv minThreads maxThreads s)
    (hpc : s.starter = .add (.create j)) (hj : j < s.qss.minThreads) :
    WorkersInv minThreads maxThreads { s with starter := .add (.incr j) }.createWorker := by
  have hmin := h.min
  constructor
  · exact h.min
  · exact h.max
  · intro v hv
    rw [Server.workers_createWorker, List.mem_append, List.mem_singleton] at hv
    rcases hv with hv | rfl
    · exact h.wf v hv
    · exact wf_createWorker
  · have hold := h.counter
    rw [hpc] at hold
    rw [Server.workers_createWorker, tally_append_singleton, tally_append_singleton, ← hold]
    show s.qss.workerCounter + (tally (·.pc.incrementing) s.workers + 0) + 1 =
      s.qss.workerCounter + tally (·.pc.incrementing) s.workers + 0 + 1
    omega
  · rw [Server.workers_createWorker, tally_append_singleton, ← h.busy]
    exact (Int.add_zero _).symm
  · have hold := h.room
    rw [hpc] at hold
    rw [Server.workers_createWorker, tally_append_singleton]
    have hreserve : (minThreads - (j + 1) + 1 : Nat) = minThreads - j := by omega
    show s.qss.workerCounter + (tally (·.pc.reserving) s.workers + 0) +
      ((minThreads - (j + 1) + 1 : Nat) : Int) ≤ maxThreads
    rw [hreserve, Int.add_zero]
    exact hold

theorem WorkersInv.start (h : WorkersInv minThreads maxThreads s) (hM : Mutex s)
    (hL : LifecycleInv s) (hs : StartStep s env s') : WorkersInv minThreads maxThreads s' := by
  have hstatus : s.qss.lifecycleStatus ≤ s'.qss.lifecycleStatus := by
    rcases lifecycleStatus_start hL hs with hstatus | hstatus <;> omega
  have hroom := h.room
  cases hs with
  | create hpc hj => exact h.starterCreate hpc hj
  | @incr j hpc =>
    rw [hpc] at hroom
    refine h.others rfl rfl rfl hstatus rfl ?_ ?_
    · rw [hpc]
      exact Int.add_zero _
    · have hold : s.qss.workerCounter + tally (·.pc.reserving) s.workers +
        ((minThreads - (j + 1) + 1 : Nat) : Int) ≤ maxThreads := hroom
      show s.qss.workerCounter + 1 + tally (·.pc.reserving) s.workers +
        ((minThreads - (j + 1) : Nat) : Int) ≤ maxThreads
      omega
  | addRead hpc hread =>
    have hincrementing := hread.incrementing_eq
    have hreserve := h.add_reserve_le hM hpc hread
    refine h.others rfl rfl rfl hstatus rfl ?_ hreserve
    rw [hpc, StartPc.incrementing, StartPc.incrementing, hincrementing.1, hincrementing.2]
  | @unlock ok hpc =>
    rw [hpc] at hroom
    refine h.others rfl rfl rfl hstatus rfl ?_ ?_ <;> cases ok
    · rw [hpc]
      rfl
    · rw [hpc]
      rfl
    · exact hroom
    · exact hroom
  | call hpc | lock hpc _ | testCreated hpc _ | testStarted hpc _ | setUp hpc | setUpFail hpc
  | createSender hpc | addLock hpc _ | addUnlock hpc | addRet hpc | setRunning hpc =>
    rw [hpc] at hroom
    exact h.others rfl rfl rfl hstatus rfl (by rw [hpc]; rfl) hroom

theorem WorkersInv.shutdown (h : WorkersInv minThreads maxThreads s) (hs : ShutdownStep s s') :
    WorkersInv minThreads maxThreads s' := by
  have hstatus : s.qss.lifecycleStatus ≤ s'.qss.lifecycleStatus := by
    rcases lifecycleStatus_shutdown hs with hstatus | hstatus <;> omega
  cases hs <;> exact h.others rfl rfl rfl hstatus rfl rfl h.room

theorem workersInv_init : WorkersInv minThreads maxThreads (serverInit minThreads maxThreads) where
  min := rfl
  max := rfl
  wf _ hv := nomatch hv
  counter := rfl
  busy := rfl
  room := Int.natCast_nonneg _

theorem workersInv_invariant : (socketServer minThreads maxThreads).Invariant fun s =>
    (Mutex s ∧ LifecycleInv s) ∧ WorkersInv minThreads maxThreads s := by
  apply TransitionSystem.Invariant.and _ workersInv_init
  · intro s s' a hI h hs
    cases step_cases hs with
    | worker hw hs => exact h.worker hI.1 hI.2 hw hs
    | start hs => exact h.start hI.1 hI.2 hs
    | shutdown hs => exact h.shutdown hs
    | send hs =>
      rw [sendStep_eq hs]
      exact h.others rfl rfl rfl (Nat.le_refl _) rfl rfl h.room
  · exact mutex_invariant.and lifecycleInv_invariant.init fun _ h hs => h.step (step_cases hs)

/-! ## What a reachable state shows -/

theorem WorkerPc.holds_of_incrementing {pc : WorkerPc} (h : pc.incrementing = true) :
    pc.holds = true := by
  unfold WorkerPc.incrementing at h
  split at h
  · rename_i cs pc
    cases pc <;> first | rfl | cases h
  · cases h

theorem StartPc.holds_of_incrementing {pc : StartPc} (h : pc.incrementing = true) :
    pc.holds = true := by
  unfold StartPc.incrementing at h
  split at h
  · rename_i pc
    cases pc <;> first | rfl | cases h
  · cases h

/-- The counter lags behind only while the thread with the lock has created a worker. -/
theorem WorkersInv.workerCounter_eq (h : WorkersInv minThreads maxThreads s) (hM : Mutex s)
    (hstarter : s.gSpinlock ≠ some .starter)
    (hworker : ∀ i w, s.gSpinlock = some (.worker i) → s.workers[i]? = some w →
      w.pc.incrementing = false) :
    s.qss.workerCounter = tally Worker.counted s.workers := by
  have hcounter := h.counter
  have hnone : tally (·.pc.incrementing) s.workers = 0 :=
    hM.tally_eq_zero (fun w => WorkerPc.holds_of_incrementing) hworker
  have hstart : s.starter.incrementing = false := by
    by_contra hincr
    rw [Bool.not_eq_false] at hincr
    exact hstarter ((hM .starter).mpr (StartPc.holds_of_incrementing hincr))
  rw [hnone, hstart, Bool.toInt_false] at hcounter
  omega

/-- While nobody holds the lock, the counters agree with the threads. -/
theorem WorkersInv.counters (h : WorkersInv minThreads maxThreads s) (hM : Mutex s)
    (hfree : s.gSpinlock = none) :
    s.qss.workerCounter = tally Worker.counted s.workers ∧ 0 ≤ s.qss.currentBusyWorkers ∧
      s.qss.currentBusyWorkers ≤ s.qss.workerCounter ∧ s.qss.workerCounter ≤ maxThreads := by
  have hroom := h.room
  have hbusy := h.busy
  have hcounter : s.qss.workerCounter = tally Worker.counted s.workers := by
    apply h.workerCounter_eq hM <;> rw [hfree]
    · exact nofun
    · exact fun _ _ hlock => nomatch hlock
  have hle : tally (·.pc.isBusy) s.workers ≤ tally Worker.counted s.workers := by
    apply tally_le_tally
    intro w hw hisBusy
    rw [Worker.counted, (h.wf w hw).decrements]
    unfold WorkerPc.isBusy at hisBusy
    split at hisBusy <;> simp_all [WorkerPc.left]
  have hpos : 0 ≤ tally (·.pc.isBusy) s.workers := tally_nonneg
  have hreserving : 0 ≤ tally (·.pc.reserving) s.workers := tally_nonneg
  omega

/-- The worker leaves because nothing has happened in time. -/
def WorkerPc.timesOut : WorkerPc → Bool
  | retest => true
  | uncountWorker exitCode => exitCode = 4
  | _ => false

/-- An idle worker leaves only while there are more workers than the server keeps. -/
theorem WorkersInv.timeout (h : WorkersInv minThreads maxThreads s) (hw : s.workers[i]? = some w)
    (htimeout : w.pc.timesOut = true) (hstatus : s.qss.lifecycleStatus ≤ 3)
    (hs : WorkerStep s i w env s') (hlt : s'.qss.workerCounter < s.qss.workerCounter) :
    minThreads ≤ s'.qss.workerCounter := by
  have hmin := h.min
  cases hs with
  | leave _ _ _ hspare =>
    rw [hmin] at hspare
    show (minThreads : Int) ≤ s.qss.workerCounter - 1
    omega
  | uncountWorker hpc =>
    -- The exit code 4 is for a server that has signaled its exit.
    rw [hpc] at htimeout
    have hsignaled := (h.wf w (List.mem_of_getElem? hw)).signaled (by rw [hpc]; exact htimeout)
    omega
  | incr hpc =>
    rw [hpc] at htimeout
    cases htimeout
  | _ => exact absurd hlt (Int.lt_irrefl _)

theorem workers_accounted (h : (socketServer minThreads maxThreads).Reachable s) :
    (s.gSpinlock = none →
      s.qss.workerCounter = tally (fun w => w.decrements = 0) s.workers ∧
      0 ≤ s.qss.currentBusyWorkers ∧ s.qss.currentBusyWorkers ≤ s.qss.workerCounter ∧
      s.qss.workerCounter ≤ maxThreads) ∧
    (∀ w ∈ s.workers, w.decrements ≤ 1 ∧ ∀ exitCode, w.pc = .exited exitCode → w.decrements = 1) ∧
    ∀ i w env s', s.workers[i]? = some w → w.pc.timesOut = true → s.qss.lifecycleStatus ≤ 3 →
      step s (.worker i env) = some s' → s'.qss.workerCounter < s.qss.workerCounter →
      minThreads ≤ s'.qss.workerCounter := by
  obtain ⟨⟨hM, hL⟩, hI⟩ := workersInv_invariant.of_reachable h
  refine ⟨fun hfree => hI.counters hM hfree, ?_, ?_⟩
  · intro w hw
    have hdecrements := (hI.wf w hw).decrements
    constructor
    · split at hdecrements <;> omega
    · intro exitCode hpc
      rw [hdecrements, hpc]
      rfl
  · intro i w env s' hw htimeout hstatus hs hlt
    cases step_cases hs with
    | worker hw' hs =>
      rw [hw] at hw'
      cases hw'
      exact hI.timeout hw htimeout hstatus hs hlt

/-- A client is served, for which a second worker is created. Then both workers time out at once. -/
def twoTimeouts : List Act :=
  startServer 1 ++ [Act.worker 0 .ok, .worker 0 (.fd 5)] ++ List.replicate 6 (Act.worker 0 .ok) ++
    [Act.worker 0 (.fd 5)] ++ List.replicate 14 (Act.worker 0 .ok) ++ [Act.worker 0 (.code 1)] ++
    List.replicate 4 (Act.worker 0 .ok) ++ [Act.worker 0 .timeout, .worker 1 .timeout] ++
    List.replicate 3 (Act.worker 0 .ok) ++ List.replicate 3 (Act.worker 1 .ok) ++ [Act.worker 0 .ok]

theorem twoTimeouts_isSome :
    ((socketServer 1 2).exec (serverInit 1 2) twoTimeouts).isSome := by
  decide +kernel

def afterTwoTimeouts : Server := ((socketServer 1 2).exec (serverInit 1 2) twoTimeouts).get
  twoTimeouts_isSome

theorem step_afterTwoTimeouts_isSome : (step afterTwoTimeouts (.worker 0 .ok)).isSome := by
  decide +kernel

theorem workers_accounted_twoTimeouts :
    afterTwoTimeouts.workers.map (·.pc) = [.retest, .lockTimeout] ∧
      (1 : Nat) ≤ ((step afterTwoTimeouts (.worker 0 .ok)).get
        step_afterTwoTimeouts_isSome).qss.workerCounter := by
  refine ⟨by decide +kernel, ?_⟩
  have hreach : (socketServer 1 2).Reachable afterTwoTimeouts :=
    TransitionSystem.reachable_of_exec _ (Option.some_get twoTimeouts_isSome).symm
  exact (workers_accounted hreach).2.2 0 ⟨.retest, 0⟩ .ok _ (by decide +kernel) (by decide)
    (by decide +kernel) (Option.some_get _).symm (by decide +kernel)

end CcPof.SocketServer
