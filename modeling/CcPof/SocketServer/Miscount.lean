import CcPof.SocketServer.Drain

/-!
# Runs that miscount the clients

`ClientsOk` leaves out nothing but steps that do harm: behind each of them there is a run that meets
`Orderly` in every further step, and comes to a state in which the count of the clients or the signal
of the exit is wrong.
-/

namespace CcPof.SocketServer

variable {minThreads maxThreads : Nat} {s s' : Server} {i : Nat} {w w' : Worker} {env : Env}
  {a : Act} {cs : Fd}

/-- A run from `s` loses no further client, closes none too early and accepts none too late, and the
clients are miscounted at its end. -/
def Miscounts (minThreads maxThreads : Nat) (s : Server) : Prop :=
  ∃ l t, ((socketServer minThreads maxThreads).restrict Orderly).exec s l = some t ∧ ¬ Counted t

/-- No such run is there. -/
structure Faultless (minThreads maxThreads : Nat) (s : Server) : Prop where
  mutex : Mutex s
  lifecycle : LifecycleInv s
  sockets : Sockets s
  counted : ¬ Miscounts minThreads maxThreads s

theorem Faultless.now (h : Faultless minThreads maxThreads s) : Counted s := by
  by_contra hnot
  exact h.counted ⟨[], s, rfl, hnot⟩

theorem Faultless.step (h : Faultless minThreads maxThreads s) (hok : Orderly s a)
    (hs : step s a = some s') : Faultless minThreads maxThreads s' := by
  have hstep := step_cases hs
  have hmutex : (socketServer minThreads maxThreads).Invariant Mutex := mutex_invariant
  refine ⟨hmutex.step h.mutex hs, h.lifecycle.step hstep, sockets_step h.sockets hstep, ?_⟩
  rintro ⟨l, t, hexec, hnot⟩
  refine h.counted ⟨a :: l, t, ?_, hnot⟩
  rw [TransitionSystem.exec, TransitionSystem.restrict]
  dsimp only
  rw [if_pos hok]
  show (SocketServer.step s a).bind _ = _
  rw [hs]
  exact hexec

theorem balance_step (hS : Sockets s) (hok : Orderly s a) (hs : Step s a s') :
    s'.census.balance = s.census.balance := by
  cases hs with
  | worker hw hs => exact (census_worker hS hw hs).balance (hok _ hw).2.1
  | start hs => rw [census_start hs]
  | shutdown hs => rw [census_shutdown hs]
  | send hs => rw [census_send hs]

/-! ## Routines come to their end -/

/-- The workers that are in a routine, or have the lock -/
def routine (_ : Nat) (pc : WorkerPc) : Bool := pc.inRoutine || pc.holds

theorem routine_of_holds {pc : WorkerPc} (h : pc.holds = true) : routine i pc = true := by
  rw [routine, h, Bool.or_true]

theorem AtRest.quiet (h : AtRest routine s) : Quiet s := by
  have hroutine : ∀ (j : Nat) v, s.workers[j]? = some v → v.pc.inRoutine = true →
      ∃ cs, v.pc = .close cs ∧ ¬ CloseOk s cs := by
    intro j v hv hin
    rcases h j v hv (by rw [routine, hin, Bool.true_or]) with ⟨hpc, -⟩ | ⟨exitCode, hpc⟩ | hclose
    · rw [hpc] at hin
      cases hin
    · rw [hpc] at hin
      cases hin
    · exact hclose
  intro w hw
  by_contra hin
  rw [Bool.not_eq_false] at hin
  obtain ⟨i, hi⟩ := List.mem_iff_getElem?.mp hw
  obtain ⟨cs, -, hblocked⟩ := hroutine i w hi hin
  -- The worker that counts the client would be in a routine, too.
  apply hblocked
  intro v hv hpc
  obtain ⟨j, hj⟩ := List.mem_iff_getElem?.mp hv
  obtain ⟨d, hclose, -⟩ := hroutine j v hj (by rw [hpc]; rfl)
  rw [hpc] at hclose
  cases hclose

/-! ## A client is lost -/

theorem Faultless.balance_nonneg (h : Faultless minThreads maxThreads s) : 0 ≤ s.census.balance := by
  by_contra hneg
  have hkeeps : Keeps routine fun t => Faultless minThreads maxThreads t ∧ t.census.balance < 0 := by
    constructor
    · exact fun ht => ht.1.mutex
    · exact fun ht => ht.1.sockets
    · intro t ht
      have hnonneg : 0 ≤ t.census.counter := ht.1.now.1
      have hpending : 0 ≤ t.census.pending := tally_nonneg
      have hneg := ht.2
      unfold Census.balance at hneg
      exact .inl (by omega)
    · exact fun _ _ hheld => routine_of_holds hheld
    · intro t t' a ht hok _ hs
      refine ⟨ht.1.step hok hs, ?_⟩
      rw [balance_step ht.1.sockets hok (step_cases hs)]
      exact ht.2
  obtain ⟨l, t, -, ht, hrest⟩ := hkeeps.exists_rest minThreads maxThreads ⟨h, by omega⟩
  -- With no routine in progress the open client that was lost is not counted.
  have hquiet := hrest.quiet
  have hcounter := (ht.1.now.2 hquiet).1
  have hbalance := hquiet.balance
  have hneg := ht.2
  omega

/-! ## The exit is signaled while a client is open -/

/-- A worker that goes on has the socket in `onAcceptRoutine` only. -/
def Kept (s : Server) (cs : Fd) : Prop :=
  ∀ (i : Nat) w, s.workers[i]? = some w → w.pc.client = some cs → routine i w.pc = true →
    w.pc.prepares = true

theorem WorkerRead.prepares_of_client {q : QSocketServer} {pc pc' : WorkerPc}
    (h : WorkerRead q pc env pc') (hpc : pc.prepares = true) (hcs : pc'.client = some cs) :
    pc'.prepares = true := by
  cases h with
  | setNonBlocking | setKeepAlive => rfl
  | setNonBlockingFail | setKeepAliveFail | epollAddFail => cases hcs
  | _ => cases hpc

theorem WorkerPc.locked_of_prepares {pc : WorkerPc} (h : pc.prepares = true) :
    pc.locked = none ∧ pc.unlocked = none := by
  cases pc <;> first | exact ⟨rfl, rfl⟩ | cases h

/-- The steps of a worker that drains, and has the socket behind them -/
theorem WorkerStep.prepares_of_client (hs : WorkerStep s i w env s') (hmoves : routine i w.pc = true)
    (hdrains : w.pc.drains env = true) (hkept : w.pc.client = some cs → w.pc.prepares = true)
    (hworkers : s'.workers = s.workers.set i w') (hw : s.workers[i]? = some w)
    (hcs : w'.pc.client = some cs) : w'.pc.prepares = true := by
  have hi := (List.getElem?_eq_some_iff.mp hw).1
  have hself {v : Worker} (hv : s.workers.set i v = s.workers.set i w') : v = w' := by
    have heq := congrArg (·[i]?) hv
    simpa [List.getElem?_set_self hi] using heq
  cases hs with
  | @read _ pc hread =>
    obtain rfl := hself hworkers
    by_cases hclient : w.pc.client = some cs
    · exact hread.prepares_of_client (hkept hclient) hcs
    · exact absurd (hread.client cs hcs) hclient
  | lock hpc _ =>
    obtain rfl := hself hworkers
    have hprepares := hkept ((WorkerPc.client_of_locked hpc).symm.trans hcs)
    rw [(WorkerPc.locked_of_prepares hprepares).1] at hpc
    cases hpc
  | unlock hpc =>
    obtain rfl := hself hworkers
    have hprepares := hkept ((WorkerPc.client_of_unlocked hpc).symm.trans hcs)
    rw [(WorkerPc.locked_of_prepares hprepares).2] at hpc
    cases hpc
  | create hpc hj =>
    rw [hpc, WorkerPc.drains, if_pos hj] at hdrains
    cases hdrains
  | pollServer hpc | pollClient hpc =>
    rw [hpc] at hmoves
    cases hmoves
  | accept hpc =>
    rw [hpc] at hdrains
    cases hdrains
  | busy hpc | incr hpc | idle hpc =>
    obtain rfl := hself hworkers
    rw [hpc] at hkept
    cases hkept hcs
  | acceptFail | epollAdd | count | rearm | close | uncountLast | uncount | leave | stay
  | uncountWorker | free =>
    obtain rfl := hself hworkers
    cases hcs

theorem WorkerStep.mem_openFds (hs : WorkerStep s i w env s') (hpc : w.pc ≠ .close cs)
    (hcs : cs ∈ s.openFds) : cs ∈ s'.openFds := by
  cases hs with
  | accept => exact List.mem_cons_of_mem _ hcs
  | close hclose =>
    refine (List.mem_erase_of_ne ?_).mpr hcs
    rintro rfl
    exact hpc hclose
  | _ => exact hcs

theorem Kept.frame (h : Kept s cs) (hworkers : s'.workers = s.workers) : Kept s' cs := by
  unfold Kept
  rw [hworkers]
  exact h

theorem Kept.createWorker (h : Kept s cs) : Kept s.createWorker cs := by
  intro j v hv hcs hmoves
  rw [Server.workers_createWorker] at hv
  rcases getElem?_concat_cases hv with hv | rfl
  · exact h j v hv hcs hmoves
  · cases hcs

/-- The exit stays signaled, and the socket stays open. -/
structure Signaled (s : Server) (cs : Fd) : Prop where
  signaled : s.qss.lifecycleStatus = 4
  isOpen : cs ∈ s.openFds
  kept : Kept s cs

theorem Signaled.worker (h : Signaled s cs) (hS : Sockets s) (hw : s.workers[i]? = some w)
    (hmoves : routine i w.pc = true) (hdrains : w.pc.drains env = true)
    (hs : WorkerStep s i w env s') : Signaled s' cs := by
  have hkept := h.kept i w hw
  constructor
  · rcases hs.signaled with hstatus | ⟨-, -, -, hfour⟩
    · rw [hstatus, h.signaled]
    · exact hfour
  · refine hs.mem_openFds ?_ h.isOpen
    intro hpc
    have hprepares := hkept (by rw [hpc]; rfl) hmoves
    rw [hpc] at hprepares
    cases hprepares
  · obtain ⟨w', hworkers, -⟩ := drain_worker hS hw hdrains hs
    intro j v hv hcs hvmoves
    rw [hworkers] at hv
    rcases getElem?_set_cases hv with ⟨-, rfl⟩ | ⟨-, hv⟩
    · exact hs.prepares_of_client hmoves hdrains (fun hclient => hkept hclient hmoves) hworkers hw hcs
    · exact h.kept j v hv hcs hvmoves

theorem Signaled.step (h : Signaled s cs) (hS : Sockets s) (hL : LifecycleInv s)
    (hd : Drains routine s a) (hs : Step s a s') : Signaled s' cs := by
  have hfour := h.signaled
  cases hs with
  | worker hw hs => exact h.worker hS hw (hd _ hw).1 (hd _ hw).2 hs
  | start hs =>
    have hstatus : s'.qss.lifecycleStatus = 4 := by
      rcases lifecycleStatus_start hL hs with hstatus | hstatus <;> omega
    cases hs with
    | create => exact ⟨hstatus, h.isOpen, h.kept.createWorker⟩
    | _ => exact ⟨hstatus, h.isOpen, h.kept⟩
  | shutdown hs =>
    have hstatus : s'.qss.lifecycleStatus = 4 := by
      rcases lifecycleStatus_shutdown hs with hstatus | hstatus <;> omega
    cases hs <;> exact ⟨hstatus, h.isOpen, h.kept⟩
  | send => exact hd.elim

theorem Faultless.not_signaled (h : Faultless minThreads maxThreads s) (cs : Fd) :
    ¬ Signaled s cs := by
  intro hsignaled
  have hkeeps : Keeps routine fun t => Faultless minThreads maxThreads t ∧ Signaled t cs := by
    constructor
    · exact fun ht => ht.1.mutex
    · exact fun ht => ht.1.sockets
    · intro t ht
      have hpos := List.length_pos_of_mem ht.2.isOpen
      have hclosing : 0 ≤ t.census.closing := tally_nonneg
      refine .inl ?_
      show 0 < (t.openFds.length : Int) + t.census.closing
      omega
    · exact fun _ _ hheld => routine_of_holds hheld
    · intro t t' a ht hok hd hs
      exact ⟨ht.1.step hok hs, ht.2.step ht.1.sockets ht.1.lifecycle hd (step_cases hs)⟩
  obtain ⟨l, t, -, ht, hrest⟩ := hkeeps.exists_rest minThreads maxThreads ⟨h, hsignaled⟩
  have hopen := ((ht.1.now.2 hrest.quiet).2.mp ht.2.signaled).2
  have hmem := ht.2.isOpen
  rw [hopen] at hmem
  cases hmem

/-! ## The server stops without a client -/

/-- Nobody is there who would signal the exit. -/
structure Stopped (s : Server) : Prop where
  stopping : s.qss.lifecycleStatus = 3
  pending : s.census.pending = 0
  absent : s.census.present = 0

theorem Stopped.worker (h : Stopped s) (hS : Sockets s) (hw : s.workers[i]? = some w)
    (hmoves : routine i w.pc = true) (hs : WorkerStep s i w env s') : Stopped s' := by
  have hmem := List.mem_of_getElem? hw
  have hopened : 0 ≤ s.census.opened := Int.natCast_nonneg _
  have hclosing : 0 ≤ s.census.closing := tally_nonneg
  have haccepting : 0 ≤ s.census.accepting := tally_nonneg
  have hpresent : s.census.opened + s.census.closing + s.census.accepting = 0 := h.absent
  have hpending := h.pending
  have hcounts := census_worker hS hw hs
  have hsame : s'.census = s.census := by
    generalize s'.census = c' at hcounts
    cases hcounts with
    | same => rfl
    | arrive hpc =>
      rw [hpc] at hmoves
      cases hmoves
    | refuse hpc | accept hpc =>
      have hone : 1 ≤ s.census.accepting := one_le_tally hw (by rw [hpc]; rfl)
      omega
    | lose hprepares =>
      have hone : 1 ≤ s.census.pending :=
        one_le_tally hw (WorkerPc.pending_of_prepares hprepares).1
      omega
    | count hpc =>
      have hone : 1 ≤ s.census.pending := one_le_tally hw (by rw [hpc]; rfl)
      omega
    | @close cs hpc =>
      have hpos := List.length_pos_of_mem (hS.owned w hmem cs (by rw [hpc]; rfl)).1
      have hone : s.census.opened = s.openFds.length := rfl
      omega
    | uncount hpc =>
      have hone : 1 ≤ s.census.closing := one_le_tally hw (by rw [hpc]; rfl)
      omega
  refine ⟨?_, by rw [hsame, hpending], by rw [hsame, h.absent]⟩
  rcases hs.signaled with hstatus | ⟨hpc, -⟩
  · rw [hstatus, h.stopping]
  · have hone : 1 ≤ s.census.closing := one_le_tally hw (by rw [hpc]; rfl)
    omega

theorem Stopped.step (h : Stopped s) (hS : Sockets s) (hL : LifecycleInv s)
    (hd : Drains routine s a) (hs : Step s a s') : Stopped s' := by
  have hthree := h.stopping
  cases hs with
  | worker hw hs => exact h.worker hS hw (hd _ hw).1 hs
  | start hs =>
    have hsame := census_start hs
    refine ⟨?_, by rw [hsame, h.pending], by rw [hsame, h.absent]⟩
    rcases lifecycleStatus_start hL hs with hstatus | hstatus <;> omega
  | shutdown hs =>
    have hsame := census_shutdown hs
    refine ⟨?_, by rw [hsame, h.pending], by rw [hsame, h.absent]⟩
    rcases lifecycleStatus_shutdown hs with hstatus | hstatus <;> omega
  | send => exact hd.elim

theorem Faultless.not_stopped (h : Faultless minThreads maxThreads s) : ¬ Stopped s := by
  intro hstopped
  have hkeeps : Keeps routine fun t => Faultless minThreads maxThreads t ∧ Stopped t := by
    constructor
    · exact fun ht => ht.1.mutex
    · exact fun ht => ht.1.sockets
    · intro t ht
      have hopened : 0 ≤ t.census.opened := Int.natCast_nonneg _
      have hclosing : 0 ≤ t.census.closing := tally_nonneg
      have haccepting : 0 ≤ t.census.accepting := tally_nonneg
      have hpresent : t.census.opened + t.census.closing + t.census.accepting = 0 := ht.2.absent
      have hthree := ht.2.stopping
      exact .inr ⟨by omega, by omega⟩
    · exact fun _ _ hheld => routine_of_holds hheld
    · intro t t' a ht hok hd hs
      exact ⟨ht.1.step hok hs, ht.2.step ht.1.sockets ht.1.lifecycle hd (step_cases hs)⟩
  obtain ⟨l, t, -, ht, hrest⟩ := hkeeps.exists_rest minThreads maxThreads ⟨h, hstopped⟩
  have hquiet := hrest.quiet
  have hthree := ht.2.stopping
  have habsent := ht.2.absent
  rw [hquiet.census] at habsent
  have hopen : t.openFds = [] := by
    rw [← List.length_eq_zero_iff]
    unfold Census.present at habsent
    dsimp only at habsent
    omega
  have hfour := (ht.1.now.2 hquiet).2.mpr ⟨ht.1.lifecycle.closer.mpr (by omega), hopen⟩
  omega

/-! ## A client is closed too early -/

/-- The worker has a client, or waits for one. -/
def WorkerPc.serves : WorkerPc → Bool
  | poll | lockBusy _ | busy _ | unlockBusy _ | add .. | handle _ => true
  | lockIdle .. | idle .. | unlockIdle .. | rearm _ | close _ | lockClosed | uncount => true
  | unlockClosed exitCode => exitCode = 0
  | _ => false

theorem WorkerRead.serves {q : QSocketServer} {pc pc' : WorkerPc} (h : WorkerRead q pc env pc')
    (hserves : pc.serves = true) (hdrains : pc.drains env = true) : pc'.serves = true := by
  cases h with
  | timeout | pollFail => cases hdrains
  | addRet | add | handle | rearmFail => rfl
  | _ => cases hserves

theorem WorkerPc.serves_of_locked {pc pc' : WorkerPc} (h : pc.locked = some pc')
    (hserves : pc.serves = true) : pc'.serves = true := by
  unfold WorkerPc.locked at h
  split at h <;> cases h <;> first | rfl | cases hserves

theorem WorkerPc.serves_of_unlocked {pc pc' : WorkerPc} (h : pc.unlocked = some pc')
    (hserves : pc.serves = true) : pc'.serves = true := by
  unfold WorkerPc.unlocked at h
  split at h <;> cases h
  case h_2 | h_3 => rfl
  case h_4 => split <;> rfl
  case h_5 exitCode =>
    rw [if_pos (of_decide_eq_true hserves)]
    rfl
  all_goals cases hserves

/-- The worker goes on, or signals the exit. -/
theorem WorkerStep.serves (hs : WorkerStep s i w env s') (hw : s.workers[i]? = some w)
    (hserves : w.pc.serves = true) (hdrains : w.pc.drains env = true) :
    s'.qss.lifecycleStatus = 4 ∨ ∃ w', s'.workers[i]? = some w' ∧ w'.pc.serves = true := by
  have hi := (List.getElem?_eq_some_iff.mp hw).1
  have hset {w' : Worker} {s' : Server} (hworkers : s'.workers = s.workers.set i w')
      (hserves' : w'.pc.serves = true) :
      s'.qss.lifecycleStatus = 4 ∨ ∃ w', s'.workers[i]? = some w' ∧ w'.pc.serves = true := by
    refine .inr ⟨w', ?_, hserves'⟩
    rw [hworkers, List.getElem?_set_self hi]
  cases hs with
  | read hread => exact hset rfl (hread.serves hserves hdrains)
  | lock hpc _ => exact hset rfl (WorkerPc.serves_of_locked hpc hserves)
  | unlock hpc => exact hset rfl (WorkerPc.serves_of_unlocked hpc hserves)
  | create hpc hj =>
    rw [hpc, WorkerPc.drains, if_pos hj] at hdrains
    cases hdrains
  | pollServer hpc =>
    rw [hpc] at hdrains
    cases hdrains
  | pollClient | busy | incr | idle | rearm | close | uncount => exact hset rfl rfl
  | uncountLast => exact .inl rfl
  | accept hpc | acceptFail hpc | epollAdd hpc | count hpc | leave hpc | stay hpc
  | uncountWorker hpc | free hpc =>
    rw [hpc] at hserves
    cases hserves

/-- The worker `k` waits to count the client `cs`, which is gone. The exit is signaled, or another
worker is there to serve the others. -/
structure Early (s : Server) (k : Nat) (cs : Fd) : Prop where
  counts : ∃ w, s.workers[k]? = some w ∧ w.pc = .lockCount cs
  gone : cs ∉ s.openFds
  held : Held s
  balance : s.census.balance = 0
  serves : s.qss.lifecycleStatus = 4 ∨
    ∃ (j : Nat) (v : Worker), j ≠ k ∧ s.workers[j]? = some v ∧ v.pc.serves = true

def others (k : Nat) (i : Nat) (_ : WorkerPc) : Bool := i ≠ k

theorem Early.pending {k : Nat} (h : Early s k cs) : 1 ≤ s.census.pending := by
  obtain ⟨w, hw, hpc⟩ := h.counts
  exact one_le_tally hw (by rw [hpc]; rfl)

theorem getElem?_start {j : Nat} {v : Worker} (hs : StartStep s env s') (hv : s.workers[j]? = some v) :
    s'.workers[j]? = some v := by
  cases hs with
  | create => exact (List.getElem?_append_left (List.getElem?_eq_some_iff.mp hv).1).trans hv
  | _ => exact hv

theorem Early.worker {k : Nat} (h : Early s k cs) (hS : Sockets s) (hok : Orderly s (.worker i env))
    (hw : s.workers[i]? = some w) (hmoves : i ≠ k) (hdrains : w.pc.drains env = true)
    (hs : WorkerStep s i w env s') : Early s' k cs := by
  have hstep : Step s (.worker i env) s' := .worker hw hs
  constructor
  · exact h.counts.imp fun v hv => ⟨hs.getElem?_of_ne hmoves.symm hv.1, hv.2⟩
  · intro hcs
    refine h.gone (hs.openFds_subset (fun hpc => ?_) hcs)
    rw [hpc] at hdrains
    exact of_decide_eq_true hdrains
  · exact held_step h.held hok hstep
  · rw [balance_step hS hok hstep, h.balance]
  · rcases h.serves with hfour | ⟨j, v, hjk, hv, hserves⟩
    · left
      rcases hs.signaled with hstatus | ⟨-, -, -, hfour'⟩
      · rw [hstatus, hfour]
      · exact hfour'
    · by_cases hji : j = i
      · subst hji
        obtain rfl : w = v := Option.some.inj (hw.symm.trans hv)
        refine (hs.serves hw hserves hdrains).imp_right fun ⟨w', hw', hserves'⟩ => ?_
        exact ⟨j, w', hjk, hw', hserves'⟩
      · exact .inr ⟨j, v, hjk, hs.getElem?_of_ne hji hv, hserves⟩

theorem Early.step {k : Nat} (h : Early s k cs) (hS : Sockets s) (hL : LifecycleInv s)
    (hok : Orderly s a) (hd : Drains (others k) s a) (hs : Step s a s') : Early s' k cs := by
  have hheld := held_step h.held hok hs
  have hbalance := balance_step hS hok hs
  rw [h.balance] at hbalance
  cases hs with
  | worker hw hs =>
    have hdrains := hd _ hw
    exact h.worker hS hok hw (of_decide_eq_true hdrains.1) hdrains.2 hs
  | start hs =>
    have hopen : s'.openFds = s.openFds := by cases hs <;> rfl
    refine ⟨?_, by rw [hopen]; exact h.gone, hheld, hbalance, ?_⟩
    · exact h.counts.imp fun v hv => ⟨getElem?_start hs hv.1, hv.2⟩
    · refine h.serves.imp (fun hfour => ?_) fun ⟨j, v, hjk, hv, hserves⟩ => ?_
      · rcases lifecycleStatus_start hL hs with hstatus | hstatus <;> omega
      · exact ⟨j, v, hjk, getElem?_start hs hv, hserves⟩
  | shutdown hs =>
    have hrest : s'.openFds = s.openFds ∧ s'.workers = s.workers := by
      cases hs <;> exact ⟨rfl, rfl⟩
    refine ⟨by rw [hrest.2]; exact h.counts, by rw [hrest.1]; exact h.gone, hheld, hbalance, ?_⟩
    rw [hrest.2]
    refine h.serves.imp_left fun hfour => ?_
    rcases lifecycleStatus_shutdown hs with hstatus | hstatus <;> omega
  | send => exact hd.elim

/-- All others wait for an event, or have left. -/
theorem Early.waiting {k j : Nat} {v : Worker} (h : Early s k cs) (hS : Sockets s)
    (hrest : AtRest (others k) s) (hjk : j ≠ k) (hv : s.workers[j]? = some v) :
    (v.pc = .poll ∧ ∀ cs, s.armed cs = false) ∨ ∃ exitCode, v.pc = .exited exitCode := by
  rcases hrest j v hv (decide_eq_true hjk) with hpoll | hexited | ⟨d, hclose, hblocked⟩
  · exact .inl hpoll
  · exact .inr hexited
  · -- The worker that counts the client would go on, too.
    refine absurd (fun u hu hpc => ?_) hblocked
    obtain ⟨m, hm⟩ := List.mem_iff_getElem?.mp hu
    by_cases hmk : m = k
    · obtain ⟨w, hw, hcounts⟩ := h.counts
      obtain rfl : u = w := Option.some.inj (hm.symm.trans (hmk ▸ hw))
      rw [hpc] at hcounts
      cases hcounts
      exact h.gone (hS.owned v (List.mem_of_getElem? hv) _ (by rw [hclose]; rfl)).1
    · rcases hrest m u hm (decide_eq_true hmk) with ⟨hpoll, -⟩ | ⟨_, hexited⟩ | ⟨_, hclose, -⟩
      · rw [hpc] at hpoll
        cases hpoll
      · rw [hpc] at hexited
        cases hexited
      · rw [hpc] at hclose
        cases hclose

/-- The others go on while the worker `k` waits. -/
theorem Faultless.keeps_early (minThreads maxThreads : Nat) (k : Nat) (cs : Fd) :
    Keeps (others k) fun t => Faultless minThreads maxThreads t ∧ Early t k cs := by
  constructor
  · exact fun ht => ht.1.mutex
  · exact fun ht => ht.1.sockets
  · intro t ht
    have hnonneg : 0 ≤ t.census.counter := ht.1.now.1
    have hpending := ht.2.pending
    have hbalance := ht.2.balance
    unfold Census.balance at hbalance
    exact .inl (by omega)
  · intro t j w ht hw hheld
    refine decide_eq_true ?_
    rintro rfl
    obtain ⟨v, hv, hpc⟩ := ht.2.counts
    obtain rfl : v = w := Option.some.inj (hv.symm.trans hw)
    rw [hpc] at hheld
    cases hheld
  · intro t t' a ht hok hd hs
    exact ⟨ht.1.step hok hs, ht.2.step ht.1.sockets ht.1.lifecycle hok hd (step_cases hs)⟩

theorem Early.place {k : Nat} {v : Worker} (h : Early s k cs) (hS : Sockets s)
    (hrest : AtRest (others k) s) (hv : v ∈ s.workers) :
    v.pc.client = none ∧ v.pc.closing = false := by
  obtain ⟨j, hj⟩ := List.mem_iff_getElem?.mp hv
  by_cases hjk : j = k
  · obtain ⟨w, hw, hpc⟩ := h.counts
    obtain rfl : v = w := Option.some.inj (hj.symm.trans (hjk ▸ hw))
    rw [hpc]
    exact ⟨rfl, rfl⟩
  · rcases h.waiting hS hrest hjk hj with ⟨hpc, -⟩ | ⟨exitCode, hpc⟩
    · rw [hpc]
      exact ⟨rfl, rfl⟩
    · rw [hpc]
      exact ⟨rfl, rfl⟩

theorem Faultless.not_early (h : Faultless minThreads maxThreads s) (k : Nat) (cs : Fd) :
    ¬ Early s k cs := by
  intro hearly
  obtain ⟨l, t, -, ⟨hfaultless, ht⟩, hrest⟩ :=
    (keeps_early minThreads maxThreads k cs).exists_rest minThreads maxThreads ⟨h, hearly⟩
  have hplace : ∀ v ∈ t.workers, v.pc.client = none ∧ v.pc.closing = false :=
    fun v hv => ht.place hfaultless.sockets hrest hv
  have hclosing : t.census.closing = 0 := tally_eq_zero_iff.mpr fun v hv => (hplace v hv).2
  by_cases hopen : t.openFds = []
  · -- The counter lacks the client that is gone.
    have hnonneg : 0 ≤ t.census.counter := hfaultless.now.1
    have hpending := ht.pending
    have hopened : t.census.opened = 0 := by rw [Server.census, hopen]; rfl
    have hbalance := ht.balance
    unfold Census.balance at hbalance
    omega
  · obtain ⟨d, hd⟩ := List.exists_mem_of_ne_nil _ hopen
    have harmed : t.armed d = true := by
      refine (ht.held.held d hd).resolve_right ?_
      rintro ⟨v, hv, hclient⟩
      rw [(hplace v hv).1] at hclient
      cases hclient
    -- Nobody polls for the open client, so the exit is signaled.
    rcases ht.serves with hfour | ⟨j, v, hjk, hv, hserves⟩
    · refine hfaultless.not_signaled d ⟨hfour, hd, fun m u hu hclient _ => ?_⟩
      rw [(hplace u (List.mem_of_getElem? hu)).1] at hclient
      cases hclient
    · rcases ht.waiting hfaultless.sockets hrest hjk hv with ⟨-, hquiet⟩ | ⟨exitCode, hpc⟩
      · rw [hquiet d] at harmed
        cases harmed
      · rw [hpc] at hserves
        cases hserves

/-! ## Steps that break the conditions -/

theorem WorkerStep.of_accept (hs : WorkerStep s i w env s') (hpc : w.pc = .accept) :
    env = .fail ∧ s' = { s with serverArmed := false }.setWorker i { w with pc := .poll } ∨
      ∃ cs, cs ∉ s.openFds ∧
        s' = { s with openFds := cs :: s.openFds }.setWorker i
          { w with pc := .setNonBlocking cs } := by
  obtain ⟨pc, decrements⟩ := w
  cases hpc
  cases hs with
  | acceptFail => exact .inl ⟨rfl, rfl⟩
  | @accept cs _ _ hclosed => exact .inr ⟨cs, hclosed, rfl⟩
  | read hread => cases hread
  | lock hpc | unlock hpc | pollServer hpc | pollClient hpc | epollAdd hpc | count hpc | busy hpc
  | create hpc | incr hpc | idle hpc | rearm hpc | close hpc | uncountLast hpc | uncount hpc
  | leave hpc | stay hpc | uncountWorker hpc | free hpc => cases hpc

theorem ClientsInv.balance_eq (h : ClientsInv s) :
    s.qss.cSocketsCounter + s.census.pending - (s.openFds.length + s.census.closing) = 0 := h.counter

/-- Without clients none is to be counted. -/
theorem ClientsInv.stopped (h : ClientsInv s) (hnone : s.openFds.length + s.census.closing ≤ 0) :
    s.openFds.length = 0 ∧ s.census.closing = 0 ∧ s.census.pending = 0 := by
  have hbalance := h.balance_eq
  have hnonneg := h.nonneg
  have hpending : 0 ≤ s.census.pending := tally_nonneg
  have hclosing : 0 ≤ s.census.closing := tally_nonneg
  omega

section Worker

variable (h : Serving s) (hf : Faultless minThreads maxThreads s') (hw : s.workers[i]? = some w)
  (hs : WorkerStep s i w env s')
include h hf hw hs

theorem Serving.acceptOk (hpc : w.pc = .accept) : AcceptOk s env := by
  rcases hs.of_accept hpc with ⟨rfl, rfl⟩ | ⟨cs, hclosed, rfl⟩
  · rw [AcceptOk, if_pos rfl]
    intro hthree
    by_contra hfew
    have hone : 1 ≤ s.census.accepting := one_le_tally hw (by rw [hpc]; rfl)
    have hpresent : ¬ 1 < s.openFds.length + s.census.closing + s.census.accepting := hfew
    obtain ⟨hopened, hclosing, hpending⟩ := h.clients.stopped (by omega)
    -- The server stops, and the last hope for a client is gone.
    refine hf.not_stopped ⟨hthree, ?_, ?_⟩ <;> rw [census_set hw rfl, hpc]
    · show s.census.pending - 0 + 0 = 0
      omega
    · show (s.openFds.length : Int) + (s.census.closing - 0 + 0) + (s.census.accepting - 1 + 0) = 0
      omega
  · unfold AcceptOk
    split
    · rename_i hfail
      subst hfail
      have hopen := (WorkerStep.openFds_subset hs fun _ => rfl) (List.mem_cons_self (a := cs))
      exact absurd hopen hclosed
    · intro hfour
      refine hf.not_signaled cs ⟨hfour, List.mem_cons_self, fun j v hv hcs _ => ?_⟩
      rcases getElem?_set_cases hv with ⟨-, rfl⟩ | ⟨-, hv⟩
      · rfl
      · exact absurd (h.sockets.owned v (List.mem_of_getElem? hv) cs hcs).1 hclosed

theorem Serving.prepareOk (hpc : w.pc.prepares = true) : env ≠ .fail := by
  rintro rfl
  have hlost := hf.balance_nonneg
  have hplace := WorkerPc.pending_of_prepares hpc
  have hbalance := h.clients.balance_eq
  rw [hs.prepares_fail hpc, census_set hw rfl, hplace.1, hplace.2.1, hplace.2.2] at hlost
  have hlost : 0 ≤ s.qss.cSocketsCounter + (s.census.pending - 1 + 0) -
    (s.openFds.length + (s.census.closing - 0 + 0)) := hlost
  omega

theorem Serving.closeOk (hcs : cs ∈ w.pc.closes) : CloseOk s cs := by
  intro v hv hcounts
  have hpc : w.pc = .close cs := by
    generalize w.pc = pc at hcs
    cases pc <;> cases hcs
    rfl
  have hi := (List.getElem?_eq_some_iff.mp hw).1
  obtain ⟨k, hk⟩ := List.mem_iff_getElem?.mp hv
  have hik : i ≠ k := by
    rintro rfl
    obtain rfl : w = v := Option.some.inj (hw.symm.trans hk)
    rw [hpc] at hcounts
    cases hcounts
  have hprepares : w.pc.prepares = true → env ≠ .fail := by
    rw [hpc]
    exact nofun
  have hheld := h.held.worker hw hprepares hs
  have hbalance := (census_worker h.sockets hw hs).balance hprepares
  refine hf.not_early k cs ⟨⟨v, hs.getElem?_of_ne hik.symm hk, hcounts⟩, ?_, hheld,
    by rw [hbalance, h.clients.counter], .inr ⟨i, { w with pc := .lockClosed }, hik, ?_, rfl⟩⟩
  · rw [hs.of_close hpc]
    exact fun hmem => (h.held.nodup.mem_erase_iff.mp hmem).1 rfl
  · rw [hs.of_close hpc]
    exact List.getElem?_set_self hi

theorem Serving.signalOk (hpc : w.pc = .uncount) (hlast : s.qss.cSocketsCounter = 1)
    (hstop : 3 ≤ s.qss.lifecycleStatus) : NoneToCome s := by
  intro v hv cs hfresh
  by_contra hnone
  obtain ⟨hfour, hopen, hworkers⟩ := hs.signals hpc hlast hstop
  refine hf.not_signaled cs ⟨hfour, ?_, fun j u hu hcs hroutine => ?_⟩
  · rw [hopen]
    exact h.clients.fresh.isOpen v hv cs hfresh
  · rw [hworkers] at hu
    rcases getElem?_set_cases hu with ⟨-, rfl⟩ | ⟨hji, hu⟩
    · cases hcs
    · have hheld : u.pc.holds = false := by
        by_contra hheld
        rw [Bool.not_eq_false] at hheld
        have hi := (h.mutex (.worker i)).mpr (by rw [holds_worker hw, hpc]; rfl)
        rw [(h.mutex (.worker j)).mpr (by rw [holds_worker hu, hheld])] at hi
        cases hi
        exact hji rfl
      have hclose : u.pc ≠ .close cs := fun hclose => hnone ⟨u, List.mem_of_getElem? hu, hclose⟩
      rw [routine, hheld, Bool.or_false] at hroutine
      generalize u.pc = pc at hcs hroutine hclose
      cases pc <;> first | rfl | (cases hroutine; done) | (cases hcs; done) | skip
      cases hcs
      exact absurd rfl hclose

end Worker

theorem Serving.miscounts (h : Serving s) (hs : SocketServer.step s a = some s')
    (hok : ¬ ClientsOk s a) : Miscounts minThreads maxThreads s' := by
  by_contra hno
  have hstep := step_cases hs
  have hmutex : (socketServer minThreads maxThreads).Invariant Mutex := mutex_invariant
  have hf : Faultless minThreads maxThreads s' :=
    ⟨hmutex.step h.mutex hs, h.lifecycle.step hstep, sockets_step h.sockets hstep, hno⟩
  apply hok
  cases hstep with
  | @worker i w env _ hw hs =>
    constructor
    · intro v hv
      obtain rfl : w = v := Option.some.inj (hw.symm.trans hv)
      exact ⟨h.acceptOk hf hw hs, h.prepareOk hf hw hs, fun cs hcs => h.closeOk hf hw hs hcs⟩
    · intro v hv
      obtain rfl : w = v := Option.some.inj (hw.symm.trans hv)
      exact h.signalOk hf hw hs
  | start | send => exact ⟨trivial, trivial⟩
  | shutdown hs =>
    refine ⟨fun hpc hrunning => ?_, trivial⟩
    by_contra hnone
    have haccepting : 0 ≤ s.census.accepting := tally_nonneg
    have hclosing : 0 ≤ s.census.closing := tally_nonneg
    have hpresent : ¬ 0 < s.openFds.length + s.census.closing + s.census.accepting := hnone
    obtain ⟨hopened, hclosing, hpending⟩ := h.clients.stopped (by omega)
    cases hs with
    | testRunning =>
      refine hf.not_stopped ⟨rfl, hpending, ?_⟩
      show (s.openFds.length : Int) + s.census.closing + s.census.accepting = 0
      omega
    | testOther _ hother => exact hother hrunning
    | call hpc' | lock hpc' | unlock hpc' | shutdownServer hpc' | shutdownClients hpc' =>
      rw [hpc] at hpc'
      cases hpc'

/-- While no client is lost, closed before it is counted or accepted too late, and the server does not
stop without one, the clients are counted and the last one signals the exit. A step that breaks this
leads to a wrong count or a wrong signal. -/
theorem clients_counted :
    (∀ s, ((socketServer minThreads maxThreads).restrict ClientsOk).Reachable s → Counted s) ∧
    (∀ s a s', ((socketServer minThreads maxThreads).restrict ClientsOk).Reachable s →
      step s a = some s' → ¬ ClientsOk s a → Miscounts minThreads maxThreads s') ∧
    ∀ s s' a, (socketServer minThreads maxThreads).Reachable s → step s a = some s' →
      s'.qss.lifecycleStatus = s.qss.lifecycleStatus ∨
        s'.qss.lifecycleStatus = s.qss.lifecycleStatus + 1 := by
  refine ⟨?_, ?_, ?_⟩
  · intro s hs
    have hserving := serving_invariant.of_reachable hs
    exact hserving.clients.counted hserving.lifecycle
  · exact fun s a s' hs hstep hok => (serving_invariant.of_reachable hs).miscounts hstep hok
  · intro s s' a hs hstep
    exact lifecycleStatus_step (lifecycleInv_invariant.of_reachable hs) (step_cases hstep)

/-- `shutdownSocketServer` is called while the only worker has one client, which leaves then. -/
def shutdownWithClient : List Act :=
  startServer 1 ++ [Act.worker 0 .ok, .worker 0 (.fd 5)] ++ List.replicate 6 (Act.worker 0 .ok) ++
    List.replicate 6 Act.shutdown ++ [Act.worker 0 (.fd 5)] ++ List.replicate 8 (Act.worker 0 .ok) ++
    [Act.worker 0 (.code 0)] ++ List.replicate 7 (Act.worker 0 .ok)

theorem shutdownWithClient_isSome :
    (((socketServer 1 1).restrict ClientsOk).exec (serverInit 1 1) shutdownWithClient).isSome := by
  decide +kernel

def afterShutdownWithClient : Server :=
  (((socketServer 1 1).restrict ClientsOk).exec (serverInit 1 1) shutdownWithClient).get
    shutdownWithClient_isSome

theorem clients_counted_shutdownWithClient :
    afterShutdownWithClient.workers.map (·.pc) = [.lockExit 3] ∧
      afterShutdownWithClient.qss.lifecycleStatus = 4 := by
  refine ⟨by decide +kernel, ?_⟩
  have hreach : ((socketServer 1 1).restrict ClientsOk).Reachable afterShutdownWithClient :=
    TransitionSystem.reachable_of_exec _ (Option.some_get shutdownWithClient_isSome).symm
  have hquiet : Quiet afterShutdownWithClient :=
    show ∀ w ∈ afterShutdownWithClient.workers, w.pc.inRoutine = false by decide +kernel
  exact ((clients_counted.1 _ hreach).2 hquiet).2.mpr ⟨by decide +kernel, by decide +kernel⟩

/-- The client is closed by the second worker before the first one counts it. -/
def closeBeforeCount : List Act :=
  startServer 2 ++ [Act.worker 0 .ok, .worker 0 (.fd 5)] ++ List.replicate 3 (Act.worker 0 .ok) ++
    [Act.worker 1 (.fd 5)] ++ List.replicate 7 (Act.worker 1 .ok) ++ [Act.worker 1 (.code 0)] ++
    List.replicate 6 (Act.worker 1 .ok)

def shutdownWithoutClient : List Act := startServer 1 ++ List.replicate 6 Act.shutdown

theorem clients_miscounted :
    (∃ s, (socketServer 2 2).exec (serverInit 2 2) closeBeforeCount = some s ∧
      s.qss.cSocketsCounter = -1) ∧
    ∃ s, (socketServer 1 1).exec (serverInit 1 1) shutdownWithoutClient = some s ∧
      s.workers.map (·.pc) = [.poll] ∧ s.closer = .returned 1 ∧ s.openFds = [] ∧
      s.qss.lifecycleStatus = 3 := by
  exact ⟨⟨_, rfl, rfl⟩, _, rfl, rfl, rfl, rfl, rfl⟩

end CcPof.SocketServer
