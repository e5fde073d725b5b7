import CcPof.SocketServer.Clients

/-!
# The count is right

In a run that meets `ClientsOk` the counter is never negative, and it has every client but those that
are on their way in or out. The exit is signaled when the last client leaves.
-/

namespace CcPof.SocketServer

variable {minThreads maxThreads : Nat} {s s' : Server} {i : Nat} {w w' : Worker} {env : Env}

/-- Every socket that is open is about to be closed. -/
def Leaving (s : Server) : Prop := ∀ cs ∈ s.openFds, ∃ u ∈ s.workers, u.pc = .close cs

structure ClientsInv (s : Server) : Prop where
  fresh : FreshInv s
  counter : s.census.balance = 0
  nonneg : 0 ≤ s.qss.cSocketsCounter
  stopping : s.qss.lifecycleStatus = 3 → 0 < s.census.present
  signaled : s.qss.lifecycleStatus = 4 → Leaving s

theorem Counts.balance {c c' : Census} {pc : WorkerPc} (h : Counts c pc env c')
    (hok : pc.prepares = true → env ≠ .fail) : c'.balance = c.balance := by
  cases h with
  | same | arrive | refuse => rfl
  | lose hprepares hfail => exact absurd hfail (hok hprepares)
  | accept | count | close | uncount =>
    unfold Census.balance
    dsimp only
    omega

theorem ClientsInv.opened_le (h : ClientsInv s) (hM : Mutex s) (hw : s.workers[i]? = some w)
    (hpc : w.pc = .uncount) :
    s.census.pending = s.freshFds.length ∧ s.freshFds.length ≤ s.openFds.length ∧
      1 ≤ s.census.closing := by
  refine ⟨census_pending (hM.not_count hw (by rw [hpc]; rfl) ?_), h.fresh.subperm.length_le,
    one_le_tally hw (by rw [hpc]; rfl)⟩
  rw [hpc]
  exact fun _ => nofun

/-- The client that is uncounted was counted. -/
theorem ClientsInv.counter_pos (h : ClientsInv s) (hM : Mutex s) (hw : s.workers[i]? = some w)
    (hpc : w.pc = .uncount) : 0 < s.qss.cSocketsCounter := by
  obtain ⟨hpending, hle, hclosing⟩ := h.opened_le hM hw hpc
  have hcounter : s.qss.cSocketsCounter + s.census.pending -
    (s.openFds.length + s.census.closing) = 0 := h.counter
  omega

/-- When the last client that is counted goes, the open ones are those that are not counted yet. -/
theorem ClientsInv.leaving (h : ClientsInv s) (hM : Mutex s) (hw : s.workers[i]? = some w)
    (hpc : w.pc = .uncount) (hlast : s.qss.cSocketsCounter = 1) (hnone : NoneToCome s) :
    Leaving s := by
  obtain ⟨hpending, hle, hclosing⟩ := h.opened_le hM hw hpc
  have hcounter : s.qss.cSocketsCounter + s.census.pending -
    (s.openFds.length + s.census.closing) = 0 := h.counter
  have hperm := h.fresh.subperm.perm_of_length_le (by omega)
  intro cs hcs
  obtain ⟨v, hv, hfresh⟩ := mem_freshFds.mp (hperm.mem_iff.mpr hcs)
  exact hnone v hv cs hfresh

theorem WorkerStep.getElem?_of_ne {j : Nat} {v : Worker} (hs : WorkerStep s i w env s') (hj : j ≠ i)
    (hv : s.workers[j]? = some v) : s'.workers[j]? = some v := by
  have hset (w' : Worker) : (s.workers.set i w')[j]? = some v := by
    rw [List.getElem?_set_ne hj.symm, hv]
  cases hs with
  | create => exact (List.getElem?_append_left (List.getElem?_eq_some_iff.mp (hset _)).1).trans (hset _)
  | _ => exact hset _

theorem WorkerStep.of_close {cs : Fd} (hs : WorkerStep s i w env s') (hpc : w.pc = .close cs) :
    s' = { s with openFds := s.openFds.erase cs }.setWorker i { w with pc := .lockClosed } := by
  obtain ⟨pc, decrements⟩ := w
  cases hpc
  cases hs with
  | close hpc =>
    cases hpc
    rfl
  | read hread => cases hread
  | lock hpc | unlock hpc | pollServer hpc | pollClient hpc | accept hpc | acceptFail hpc
  | epollAdd hpc | count hpc | busy hpc | create hpc | incr hpc | idle hpc | rearm hpc
  | uncountLast hpc | uncount hpc | leave hpc | stay hpc | uncountWorker hpc | free hpc => cases hpc

theorem WorkerStep.openFds_subset (hs : WorkerStep s i w env s') (hnew : w.pc = .accept → env = .fail) :
    s'.openFds ⊆ s.openFds := by
  cases hs with
  | accept hpc => exact absurd (hnew hpc) nofun
  | close => exact List.erase_subset
  | _ => exact fun _ hcs => hcs

theorem Leaving.worker (h : Leaving s) (hnodup : s.openFds.Nodup) (hw : s.workers[i]? = some w)
    (hnew : w.pc = .accept → env = .fail) (hs : WorkerStep s i w env s') : Leaving s' := by
  intro cs hcs
  obtain ⟨u, hu, hpc⟩ := h cs (hs.openFds_subset hnew hcs)
  obtain ⟨j, hj⟩ := List.mem_iff_getElem?.mp hu
  by_cases hji : j = i
  · -- The socket was closed in this step.
    subst hji
    obtain rfl : u = w := Option.some.inj (hj.symm.trans hw)
    rw [hs.of_close hpc] at hcs
    exact absurd rfl (hnodup.mem_erase_iff.mp hcs).1
  · exact ⟨u, List.mem_of_getElem? (hs.getElem?_of_ne hji hj), hpc⟩

theorem Leaving.frame (h : Leaving s) (hworkers : s.workers ⊆ s'.workers)
    (hopen : s'.openFds = s.openFds) : Leaving s' := by
  intro cs hcs
  rw [hopen] at hcs
  exact (h cs hcs).imp fun u hu => ⟨hworkers hu.1, hu.2⟩

/-! ## Steps -/

/-- The exit is signaled when the last client that is counted goes. -/
theorem WorkerStep.signals (hs : WorkerStep s i w env s') (hpc : w.pc = .uncount)
    (hlast : s.qss.cSocketsCounter = 1) (hstop : 3 ≤ s.qss.lifecycleStatus) :
    s'.qss.lifecycleStatus = 4 ∧ s'.openFds = s.openFds ∧
      s'.workers = s.workers.set i { w with pc := .unlockClosed 3 } := by
  obtain ⟨pc, decrements⟩ := w
  cases hpc
  cases hs with
  | uncountLast => exact ⟨rfl, rfl, rfl⟩
  | uncount _ hmore => exact absurd ⟨by omega, hstop⟩ hmore
  | read hread => cases hread
  | lock hpc | unlock hpc | pollServer hpc | pollClient hpc | accept hpc | acceptFail hpc
  | epollAdd hpc | count hpc | busy hpc | create hpc | incr hpc | idle hpc | rearm hpc | close hpc
  | leave hpc | stay hpc | uncountWorker hpc | free hpc => cases hpc

theorem WorkerStep.signaled (hs : WorkerStep s i w env s') :
    s'.qss.lifecycleStatus = s.qss.lifecycleStatus ∨
      w.pc = .uncount ∧ s.qss.cSocketsCounter = 1 ∧ 3 ≤ s.qss.lifecycleStatus ∧
        s'.qss.lifecycleStatus = 4 := by
  cases hs with
  | uncountLast hpc hlast hstop => exact .inr ⟨hpc, by omega, hstop, rfl⟩
  | _ => exact .inl rfl

/-- The counter is lowered for a client that was counted. -/
theorem Counts.counter_nonneg {c c' : Census} {pc : WorkerPc} (hcounts : Counts c pc env c')
    (hnonneg : 0 ≤ c.counter) (hpos : pc = .uncount → 0 < c.counter) : 0 ≤ c'.counter := by
  cases hcounts with
  | uncount hpc =>
    have hpos := hpos hpc
    show 0 ≤ c.counter - 1
    omega
  | count =>
    show 0 ≤ c.counter + 1
    omega
  | _ => exact hnonneg

/-- While the server is stopped, a client is there. -/
theorem ClientsInv.worker_stopping (h : ClientsInv s) (hM : Mutex s) (hw : s.workers[i]? = some w)
    (haccept : w.pc = .accept → AcceptOk s env) (hs : WorkerStep s i w env s')
    (hcounts : Counts s.census w.pc env s'.census) (hthree : s'.qss.lifecycleStatus = 3) :
    0 < s'.census.present := by
  rcases hs.signaled with hstatus | ⟨-, -, -, hfour⟩
  case inr => omega
  have hthree' : s.qss.lifecycleStatus = 3 := by omega
  have hpresent : 0 < s.census.present := h.stopping hthree'
  have hmore : w.pc = .uncount → s.qss.cSocketsCounter ≠ 1 := by
    intro hpc hlast
    have hfour := (hs.signals hpc hlast (by omega)).1
    omega
  have hpos : w.pc = .uncount → 0 < s.census.counter := h.counter_pos hM hw
  generalize s'.census = c' at hcounts
  unfold Census.present at hpresent ⊢
  cases hcounts with
  | refuse hpc hfail =>
    have hrefuse := haccept hpc
    rw [AcceptOk, if_pos hfail] at hrefuse
    have hmany : 1 < s.census.opened + s.census.closing + s.census.accepting := hrefuse hthree'
    dsimp only
    omega
  | uncount hpc =>
    -- Another client is counted: it is open, or its socket was closed.
    have hmore : s.census.counter ≠ 1 := hmore hpc
    have hpos := hpos hpc
    have hpending : 0 ≤ s.census.pending := tally_nonneg
    have haccepting : 0 ≤ s.census.accepting := tally_nonneg
    have hbalance : s.census.counter + s.census.pending -
      (s.census.opened + s.census.closing) = 0 := h.counter
    dsimp only
    omega
  | same | lose | count => exact hpresent
  | arrive | accept | close =>
    dsimp only
    omega

/-- Once the exit is signaled, nobody is accepted any more. -/
theorem ClientsInv.worker_signaled (h : ClientsInv s) (hM : Mutex s) (hH : Held s)
    (hw : s.workers[i]? = some w) (haccept : w.pc = .accept → AcceptOk s env)
    (hsignal : w.pc = .uncount → s.qss.cSocketsCounter = 1 → 3 ≤ s.qss.lifecycleStatus →
      NoneToCome s) (hs : WorkerStep s i w env s') (hfour : s'.qss.lifecycleStatus = 4) :
    Leaving s' := by
  rcases hs.signaled with hstatus | ⟨hpc, hlast, hstop, -⟩
  · have hfour : s.qss.lifecycleStatus = 4 := by omega
    refine (h.signaled hfour).worker hH.nodup hw (fun hpc => ?_) hs
    by_contra hfd
    have haccept := haccept hpc
    rw [AcceptOk, if_neg hfd] at haccept
    exact haccept hfour
  · have hleaving := h.leaving hM hw hpc hlast (hsignal hpc hlast hstop)
    exact hleaving.worker hH.nodup hw (fun haccept => by rw [hpc] at haccept; cases haccept) hs

theorem ClientsInv.worker (h : ClientsInv s) (hM : Mutex s) (hS : Sockets s) (hH : Held s)
    (hw : s.workers[i]? = some w) (hok : WorkerOk s w.pc env)
    (hsignal : w.pc = .uncount → s.qss.cSocketsCounter = 1 → 3 ≤ s.qss.lifecycleStatus →
      NoneToCome s) (hs : WorkerStep s i w env s') : ClientsInv s' := by
  have hcounts := census_worker hS hw hs
  constructor
  · exact h.fresh.worker hS hw hok.2.2 hs
  · rw [hcounts.balance hok.2.1, h.counter]
  · exact hcounts.counter_nonneg h.nonneg (h.counter_pos hM hw)
  · exact h.worker_stopping hM hw hok.1 hs hcounts
  · exact h.worker_signaled hM hH hw hok.1 hsignal hs

theorem ClientsInv.frame (h : ClientsInv s) (hfresh : FreshInv s') (hworkers : s.workers ⊆ s'.workers)
    (hopen : s'.openFds = s.openFds) (hcensus : s'.census = s.census)
    (hstatus : s'.qss.lifecycleStatus = s.qss.lifecycleStatus ∨ s'.qss.lifecycleStatus < 3) :
    ClientsInv s' := by
  have hsame : 3 ≤ s'.qss.lifecycleStatus →
      s'.qss.lifecycleStatus = s.qss.lifecycleStatus := by omega
  constructor
  · exact hfresh
  · rw [hcensus, h.counter]
  · show 0 ≤ s'.census.counter
    rw [hcensus]
    exact h.nonneg
  · intro hthree
    rw [hcensus]
    exact h.stopping (by omega)
  · intro hfour
    exact (h.signaled (by omega)).frame hworkers hopen

theorem ClientsInv.step {a : Act} (h : ClientsInv s) (hM : Mutex s) (hL : LifecycleInv s)
    (hS : Sockets s) (hH : Held s) (hok : ClientsOk s a) (hs : Step s a s') : ClientsInv s' := by
  have hfresh := h.fresh.step hS hok.1 hs
  cases hs with
  | worker hw hs => exact h.worker hM hS hH hw (hok.1 _ hw) (hok.2 _ hw) hs
  | start hs =>
    have hstatus : s'.qss.lifecycleStatus = s.qss.lifecycleStatus ∨
        s'.qss.lifecycleStatus < 3 := by
      rcases lifecycleStatus_start hL hs with hstatus | hstatus <;> omega
    have hcensus := census_start hs
    cases hs with
    | create => exact h.frame hfresh (List.subset_append_left _ _) rfl hcensus hstatus
    | _ => exact h.frame hfresh (List.Subset.refl _) rfl hcensus hstatus
  | shutdown hs =>
    cases hs with
    | testRunning hpc hrunning =>
      exact ⟨hfresh, h.counter, h.nonneg, fun _ => hok.1 hpc hrunning, nofun⟩
    | _ => exact h.frame hfresh (List.Subset.refl _) rfl rfl (.inl rfl)
  | send hs =>
    rw [sendStep_eq hs] at hfresh ⊢
    exact h.frame hfresh (List.Subset.refl _) rfl rfl (.inl rfl)

theorem clientsInv_init : ClientsInv (serverInit minThreads maxThreads) where
  fresh := ⟨fun _ hw => (nomatch hw), fun _ _ _ _ _ hw => (nomatch hw)⟩
  counter := rfl
  nonneg := Int.le_refl 0
  stopping := nofun
  signaled := nofun

/-- What holds in every run that meets the conditions. -/
structure Serving (s : Server) : Prop where
  mutex : Mutex s
  lifecycle : LifecycleInv s
  sockets : Sockets s
  held : Held s
  clients : ClientsInv s

theorem serving_invariant :
    ((socketServer minThreads maxThreads).restrict ClientsOk).Invariant Serving := by
  apply TransitionSystem.Invariant.restrict
  · exact ⟨mutex_invariant.init, lifecycleInv_invariant.init, sockets_init,
      ⟨List.nodup_nil, nofun⟩, clientsInv_init⟩
  · intro s s' a hI hok hs
    have hstep := step_cases hs
    exact ⟨mutex_invariant.step hI.mutex hs, hI.lifecycle.step hstep,
      sockets_step hI.sockets hstep, held_step hI.held hok.1 hstep,
      hI.clients.step hI.mutex hI.lifecycle hI.sockets hI.held hok hstep⟩

/-! ## Quiet states -/

/-- The clients are counted, and the exit is signaled when it should be. -/
def Counted (s : Server) : Prop :=
  0 ≤ s.qss.cSocketsCounter ∧
  (Quiet s → s.qss.cSocketsCounter = s.openFds.length ∧
    (s.qss.lifecycleStatus = 4 ↔ s.closer.accepted = true ∧ s.openFds = []))

theorem Quiet.tally_eq_zero {p : WorkerPc → Bool} (h : Quiet s)
    (hp : ∀ pc, p pc = true → pc.inRoutine = true) : tally (fun w => p w.pc) s.workers = 0 := by
  rw [tally_eq_zero_iff]
  intro w hw
  by_contra hpc
  rw [Bool.not_eq_false] at hpc
  have hroutine := h w hw
  rw [hp w.pc hpc] at hroutine
  cases hroutine

theorem WorkerPc.inRoutine_of_pending (pc : WorkerPc) (h : pc.pending = true) :
    pc.inRoutine = true := by
  cases pc <;> first | rfl | cases h

theorem WorkerPc.inRoutine_of_closing (pc : WorkerPc) (h : pc.closing = true) :
    pc.inRoutine = true := by
  cases pc <;> first | rfl | cases h

theorem WorkerPc.inRoutine_of_accepting (pc : WorkerPc) (h : pc.accepting = true) :
    pc.inRoutine = true := by
  cases pc <;> first | rfl | cases h

theorem Quiet.census (h : Quiet s) :
    s.census = ⟨s.qss.cSocketsCounter, 0, s.openFds.length, 0, 0⟩ := by
  unfold Server.census
  rw [h.tally_eq_zero WorkerPc.inRoutine_of_pending, h.tally_eq_zero WorkerPc.inRoutine_of_closing,
    h.tally_eq_zero WorkerPc.inRoutine_of_accepting]

theorem Quiet.balance (h : Quiet s) :
    s.census.balance = s.qss.cSocketsCounter - s.openFds.length := by
  rw [h.census]
  unfold Census.balance
  dsimp only
  omega

theorem ClientsInv.counted (h : ClientsInv s) (hL : LifecycleInv s) : Counted s := by
  refine ⟨h.nonneg, fun hquiet => ?_⟩
  have hbalance := hquiet.balance
  have hcounter := h.counter
  refine ⟨by omega, ?_⟩
  rw [hL.closer]
  constructor
  · intro hfour
    refine ⟨by omega, List.eq_nil_iff_forall_not_mem.mpr fun cs hcs => ?_⟩
    -- A worker that is about to close the socket is in a routine.
    obtain ⟨u, hu, hpc⟩ := h.signaled hfour cs hcs
    have hroutine := hquiet u hu
    rw [hpc] at hroutine
    cases hroutine
  · rintro ⟨hstop, hopen⟩
    have hle := hL.le
    have hstopping := h.stopping
    rw [hquiet.census, Census.present, hopen] at hstopping
    -- With the status 3 a client would still be there.
    by_contra hfour
    have hpos := hstopping (by omega)
    cases hpos

end CcPof.SocketServer
