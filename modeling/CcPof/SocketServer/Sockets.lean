import CcPof.Lib.Tally
import CcPof.SocketServer.Lock

/-!
# The client sockets and their owners

Between `accept` and `EPOLL_CTL_ADD`, and from an event on until `EPOLL_CTL_MOD` or `close`, one
worker has a client socket for itself: it is open, and `EPOLLONESHOT` keeps its events back.
-/

namespace CcPof.SocketServer

variable {minThreads maxThreads : Nat} {s s' : Server} {i : Nat} {w w' : Worker} {env : Env}

/-- The socket that the worker has for itself -/
def WorkerPc.client : WorkerPc → Option Fd
  | setNonBlocking cs | setKeepAlive cs | epollAdd cs => some cs
  | lockBusy cs | busy cs | unlockBusy cs | add cs _ | handle cs => some cs
  | lockIdle cs _ | idle cs _ | unlockIdle cs _ | rearm cs | close cs => some cs
  | _ => none

structure Sockets (s : Server) : Prop where
  owned : ∀ w ∈ s.workers, ∀ cs, w.pc.client = some cs → cs ∈ s.openFds ∧ s.armed cs = false
  distinct : ∀ (i j : Nat) w v cs, s.workers[i]? = some w → s.workers[j]? = some v →
    w.pc.client = some cs → v.pc.client = some cs → i = j
  armed : ∀ cs, s.armed cs = true → cs ∈ s.openFds

/-- No worker but `i` has the socket. -/
def Free (s : Server) (i : Nat) (cs : Fd) : Prop :=
  ∀ (j : Nat) v, j ≠ i → s.workers[j]? = some v → v.pc.client ≠ some cs

theorem Sockets.free_of_client {cs : Fd} (h : Sockets s) (hw : s.workers[i]? = some w)
    (hcs : w.pc.client = some cs) : Free s i cs :=
  fun j v hj hv hclient => hj (h.distinct j i v w cs hv hw hclient hcs)

theorem Sockets.free_of_armed {cs : Fd} (h : Sockets s) (harmed : s.armed cs = true) :
    Free s i cs := by
  intro j v _ hv hclient
  have howned := (h.owned v (List.mem_of_getElem? hv) cs hclient).2
  rw [harmed] at howned
  cases howned

theorem Sockets.free_of_notMem {cs : Fd} (h : Sockets s) (hcs : cs ∉ s.openFds) : Free s i cs :=
  fun _ v _ hv hclient => hcs (h.owned v (List.mem_of_getElem? hv) cs hclient).1

/-- A step of the worker `i` that concerns the socket `cs` only. -/
theorem Sockets.set {cs : Fd} (h : Sockets s) (hworkers : s'.workers = s.workers.set i w')
    (hfree : Free s i cs) (hopen : ∀ d, d ≠ cs → d ∈ s.openFds → d ∈ s'.openFds)
    (harmed : ∀ d, d ≠ cs → s'.armed d = s.armed d)
    (hclient : ∀ d, w'.pc.client = some d → d = cs ∧ cs ∈ s'.openFds ∧ s'.armed cs = false)
    (hcs : s'.armed cs = true → cs ∈ s'.openFds) : Sockets s' := by
  have hother : ∀ (j : Nat) v d, j ≠ i → s.workers[j]? = some v → v.pc.client = some d →
      d ≠ cs := by
    rintro j v d hj hv hd rfl
    exact hfree j v hj hv hd
  constructor
  · intro v hv d hd
    rw [hworkers] at hv
    obtain ⟨j, hj⟩ := List.mem_iff_getElem?.mp hv
    rcases getElem?_set_cases hj with ⟨-, rfl⟩ | ⟨hji, hj⟩
    · obtain ⟨rfl, hd⟩ := hclient d hd
      exact hd
    · have hne := hother j v d hji hj hd
      obtain ⟨hmem, hquiet⟩ := h.owned v (List.mem_of_getElem? hj) d hd
      exact ⟨hopen d hne hmem, by rw [harmed d hne, hquiet]⟩
  · intro j k v u d hj hk hv hu
    rw [hworkers] at hj hk
    rcases getElem?_set_cases hj with ⟨rfl, rfl⟩ | ⟨hji, hj'⟩ <;>
      rcases getElem?_set_cases hk with ⟨rfl, rfl⟩ | ⟨hki, hk⟩
    · rfl
    · exact absurd (hclient d hv).1 (hother k u d hki hk hu)
    · exact absurd (hclient d hu).1 (hother j v d hji hj' hv)
    · exact h.distinct j k v u d hj' hk hv hu
  · intro d hd
    by_cases hdc : d = cs
    · subst hdc
      exact hcs hd
    · rw [harmed d hdc] at hd
      exact hopen d hdc (h.armed d hd)

/-- A worker that keeps its socket, or gives it up. -/
theorem Sockets.keep (h : Sockets s) (hw : s.workers[i]? = some w)
    (hworkers : s'.workers = s.workers.set i w') (hopen : s'.openFds = s.openFds)
    (harmed : s'.armed = s.armed)
    (hclient : ∀ cs, w'.pc.client = some cs → w.pc.client = some cs) : Sockets s' := by
  constructor
  · intro v hv d hd
    rw [hworkers] at hv
    rw [hopen, harmed]
    rcases List.mem_or_eq_of_mem_set hv with hv | rfl
    · exact h.owned v hv d hd
    · exact h.owned w (List.mem_of_getElem? hw) d (hclient d hd)
  · intro j k v u d hj hk hv hu
    rw [hworkers] at hj hk
    rcases getElem?_set_cases hj with ⟨rfl, rfl⟩ | ⟨hji, hj'⟩ <;>
      rcases getElem?_set_cases hk with ⟨rfl, rfl⟩ | ⟨hki, hk⟩
    · rfl
    · exact h.distinct j k w u d hw hk (hclient d hv) hu
    · exact h.distinct j k v w d hj' hw hv (hclient d hu)
    · exact h.distinct j k v u d hj' hk hv hu
  · rw [hopen, harmed]
    exact h.armed

theorem Sockets.frame (h : Sockets s) (hworkers : s'.workers = s.workers)
    (hopen : s'.openFds = s.openFds) (harmed : s'.armed = s.armed) : Sockets s' where
  owned := by rw [hworkers, hopen, harmed]; exact h.owned
  distinct := by rw [hworkers]; exact h.distinct
  armed := by rw [hopen, harmed]; exact h.armed

theorem Sockets.createWorker (h : Sockets s) : Sockets s.createWorker := by
  have hnew : ∀ (j : Nat) v cs, s.createWorker.workers[j]? = some v → v.pc.client = some cs →
      s.workers[j]? = some v := by
    intro j v cs hj hv
    rw [Server.workers_createWorker] at hj
    rcases getElem?_concat_cases hj with hj | rfl
    · exact hj
    · -- The new worker has no socket.
      cases hv
  constructor
  · intro v hv cs hcs
    obtain ⟨j, hj⟩ := List.mem_iff_getElem?.mp hv
    exact h.owned v (List.mem_of_getElem? (hnew j v cs hj hcs)) cs hcs
  · intro j k v u cs hj hk hv hu
    exact h.distinct j k v u cs (hnew j v cs hj hv) (hnew k u cs hk hu) hv hu
  · exact h.armed

theorem WorkerRead.client {q : QSocketServer} {pc pc' : WorkerPc} (h : WorkerRead q pc env pc')
    (cs : Fd) (hcs : pc'.client = some cs) : pc.client = some cs := by
  cases h with
  | testLifecycle | testIdle | testSpare => split at hcs <;> cases hcs
  | timeout | pollFail | setNonBlockingFail | setKeepAliveFail | epollAddFail | exit | noExit =>
    cases hcs
  | _ => exact hcs

theorem WorkerPc.client_of_locked {pc pc' : WorkerPc} (h : pc.locked = some pc') :
    pc'.client = pc.client := by
  unfold WorkerPc.locked at h
  split at h <;> cases h <;> rfl

theorem WorkerPc.client_of_unlocked {pc pc' : WorkerPc} (h : pc.unlocked = some pc') :
    pc'.client = pc.client := by
  unfold WorkerPc.unlocked at h
  split at h <;> cases h
  case h_4 | h_5 | h_6 | h_7 => split <;> rfl
  all_goals rfl

theorem Sockets.worker (h : Sockets s) (hw : s.workers[i]? = some w)
    (hs : WorkerStep s i w env s') : Sockets s' := by
  cases hs with
  | read hread => exact h.keep hw rfl rfl rfl hread.client
  | lock hpc _ =>
    have hclient := WorkerPc.client_of_locked hpc
    exact Sockets.keep (s := s) h hw rfl rfl rfl (fun _ hcs => hclient.symm.trans hcs)
  | unlock hpc =>
    have hclient := WorkerPc.client_of_unlocked hpc
    exact Sockets.keep (s := s) h hw rfl rfl rfl (fun _ hcs => hclient.symm.trans hcs)
  | @create cs j hpc _ =>
    have hset : Sockets (s.setWorker i { w with pc := .add cs (.incr j) }) :=
      h.keep hw rfl rfl rfl (by rw [hpc]; exact fun _ hcs => hcs)
    exact hset.createWorker
  | busy hpc | incr hpc | idle hpc =>
    exact h.keep hw rfl rfl rfl (by rw [hpc]; exact fun _ hcs => hcs)
  | pollServer | acceptFail | count | uncountLast | uncount | leave | stay | uncountWorker | free =>
    exact h.keep hw rfl rfl rfl (fun _ hcs => nomatch hcs)
  | @pollClient cs hpc harmed =>
    -- One shot: the event disarms the socket, and no other worker had it while it was armed.
    have hopen := h.armed cs harmed
    refine h.set rfl (h.free_of_armed harmed) (fun _ _ hd => hd) ?_ ?_ (fun _ => hopen)
    · exact fun d hd => Function.update_of_ne hd ..
    · intro d hd
      cases hd
      exact ⟨rfl, hopen, Function.update_self ..⟩
  | @accept cs hpc _ hcs =>
    -- A number that is not open belongs to no worker and is not armed.
    have hquiet : s.armed cs = false := by
      by_contra harmed
      rw [Bool.not_eq_false] at harmed
      exact hcs (h.armed cs harmed)
    refine h.set rfl (h.free_of_notMem hcs) ?_ (fun _ _ => rfl) ?_ (fun _ => List.mem_cons_self)
    · exact fun d _ hd => List.mem_cons_of_mem cs hd
    · intro d hd
      cases hd
      exact ⟨rfl, List.mem_cons_self, hquiet⟩
  | @epollAdd cs hpc | @rearm cs hpc =>
    -- The worker lets go of the socket when it arms it.
    have hclient : w.pc.client = some cs := by
      rw [hpc]
      rfl
    have hopen := (h.owned w (List.mem_of_getElem? hw) cs hclient).1
    refine h.set rfl (h.free_of_client hw hclient) (fun _ _ hd => hd) ?_ ?_ (fun _ => hopen)
    · exact fun d hd => Function.update_of_ne hd ..
    · exact fun _ hd => nomatch hd
  | @close cs hpc =>
    have hclient : w.pc.client = some cs := by
      rw [hpc]
      rfl
    have hquiet := (h.owned w (List.mem_of_getElem? hw) cs hclient).2
    refine h.set rfl (h.free_of_client hw hclient) ?_ (fun _ _ => rfl) ?_ ?_
    · exact fun d hd hmem => (List.mem_erase_of_ne hd).mpr hmem
    · exact fun _ hd => nomatch hd
    · intro harmed
      rw [show s.armed cs = true from harmed] at hquiet
      cases hquiet

theorem sockets_step {a : Act} (h : Sockets s) (hs : Step s a s') : Sockets s' := by
  cases hs with
  | worker hw hs => exact h.worker hw hs
  | start hs =>
    cases hs with
    | @create j _ _ =>
      have hnext : Sockets { s with starter := .add (.incr j) } := h.frame rfl rfl rfl
      exact hnext.createWorker
    | _ => exact h.frame rfl rfl rfl
  | shutdown hs => cases hs <;> exact h.frame rfl rfl rfl
  | send hs =>
    rw [sendStep_eq hs]
    exact h.frame rfl rfl rfl

theorem sockets_init : Sockets (serverInit minThreads maxThreads) where
  owned _ hw := nomatch hw
  distinct _ _ _ _ _ hw := nomatch hw
  armed _ hcs := nomatch hcs

/-! ## Sockets that nobody has -/

/-- The statements of `onAcceptRoutine` that may fail when the client is accepted. -/
def WorkerPc.prepares : WorkerPc → Bool
  | setNonBlocking _ | setKeepAlive _ | epollAdd _ => true
  | _ => false

/-- `onAcceptRoutine` returns at once. -/
theorem WorkerStep.prepares_fail (hs : WorkerStep s i w .fail s') (hpc : w.pc.prepares = true) :
    s' = s.setWorker i { w with pc := .poll } := by
  cases hs with
  | @read _ pc hread =>
    generalize w.pc = pc₀ at hread hpc
    cases hread with
    | setNonBlockingFail | setKeepAliveFail | epollAddFail => rfl
    | _ => cases hpc
  | acceptFail h =>
    rw [h] at hpc
    cases hpc

/-- While `onAcceptRoutine` does not fail for a socket, a worker has it or an event may come. -/
structure Held (s : Server) : Prop where
  nodup : s.openFds.Nodup
  held : ∀ cs ∈ s.openFds, s.armed cs = true ∨ ∃ w ∈ s.workers, w.pc.client = some cs

theorem Held.set (cs : Fd) (h : Held s) (hw : s.workers[i]? = some w)
    (hworkers : s'.workers = s.workers.set i w') (hnodup : s'.openFds.Nodup)
    (hopen : ∀ d, d ≠ cs → d ∈ s'.openFds → d ∈ s.openFds)
    (harmed : ∀ d, d ≠ cs → s'.armed d = s.armed d)
    (hclient : ∀ d, w.pc.client = some d → d = cs)
    (hcs : cs ∈ s'.openFds → s'.armed cs = true ∨ w'.pc.client = some cs) : Held s' := by
  refine ⟨hnodup, fun d hd => ?_⟩
  have hi := (List.getElem?_eq_some_iff.mp hw).1
  by_cases hdc : d = cs
  · subst hdc
    refine (hcs hd).imp_right fun hclient => ⟨w', ?_, hclient⟩
    rw [hworkers]
    exact List.mem_of_getElem? (List.getElem?_set_self hi)
  · rw [harmed d hdc]
    refine (h.held d (hopen d hdc hd)).imp_right fun ⟨v, hv, hvd⟩ => ⟨v, ?_, hvd⟩
    obtain ⟨j, hj⟩ := List.mem_iff_getElem?.mp hv
    have hij : i ≠ j := by
      rintro rfl
      rw [hj] at hw
      cases hw
      exact hdc (hclient d hvd)
    rw [hworkers]
    exact List.mem_of_getElem? ((List.getElem?_set_ne hij).trans hj)

/-- A worker that keeps its socket, if it has one. -/
theorem Held.keep (h : Held s) (hw : s.workers[i]? = some w)
    (hworkers : s'.workers = s.workers.set i w') (hopen : s'.openFds = s.openFds)
    (harmed : s'.armed = s.armed)
    (hclient : ∀ cs, w.pc.client = some cs → w'.pc.client = some cs) : Held s' := by
  refine ⟨by rw [hopen]; exact h.nodup, fun cs hcs => ?_⟩
  rw [hopen] at hcs
  rw [harmed]
  refine (h.held cs hcs).imp_right fun ⟨v, hv, hvcs⟩ => ?_
  obtain ⟨j, hj⟩ := List.mem_iff_getElem?.mp hv
  rw [hworkers]
  by_cases hij : i = j
  · subst hij
    obtain rfl : v = w := Option.some.inj (hj.symm.trans hw)
    have hi := (List.getElem?_eq_some_iff.mp hw).1
    exact ⟨w', List.mem_of_getElem? (List.getElem?_set_self hi), hclient cs hvcs⟩
  · exact ⟨v, List.mem_of_getElem? ((List.getElem?_set_ne hij).trans hj), hvcs⟩

theorem Held.frame (h : Held s) (hworkers : s.workers ⊆ s'.workers) (hopen : s'.openFds = s.openFds)
    (harmed : s'.armed = s.armed) : Held s' where
  nodup := by rw [hopen]; exact h.nodup
  held := by
    rw [hopen, harmed]
    intro cs hcs
    exact (h.held cs hcs).imp_right fun ⟨v, hv, hvcs⟩ => ⟨v, hworkers hv, hvcs⟩

theorem WorkerRead.client_kept {q : QSocketServer} {pc pc' : WorkerPc} (h : WorkerRead q pc env pc')
    (hok : pc.prepares = true → env ≠ .fail) (cs : Fd) (hcs : pc.client = some cs) :
    pc'.client = some cs := by
  cases h with
  | setNonBlockingFail | setKeepAliveFail | epollAddFail => exact absurd rfl (hok rfl)
  | timeout | pollFail | testLifecycle | testIdle | testSpare | exit | noExit => cases hcs
  | _ => exact hcs

theorem Held.worker (h : Held s) (hw : s.workers[i]? = some w)
    (hok : w.pc.prepares = true → env ≠ .fail) (hs : WorkerStep s i w env s') : Held s' := by
  cases hs with
  | read hread => exact h.keep hw rfl rfl rfl (hread.client_kept hok)
  | lock hpc _ =>
    have hclient := WorkerPc.client_of_locked hpc
    exact Held.keep (s := s) h hw rfl rfl rfl (fun _ hcs => hclient.trans hcs)
  | unlock hpc =>
    have hclient := WorkerPc.client_of_unlocked hpc
    exact Held.keep (s := s) h hw rfl rfl rfl (fun _ hcs => hclient.trans hcs)
  | @create cs j hpc _ =>
    have hset : Held (s.setWorker i { w with pc := .add cs (.incr j) }) :=
      h.keep hw rfl rfl rfl (by rw [hpc]; exact fun _ hcs => hcs)
    exact hset.frame (List.subset_append_left _ _) rfl rfl
  | busy hpc | incr hpc | idle hpc =>
    exact h.keep hw rfl rfl rfl (by rw [hpc]; exact fun _ hcs => hcs)
  | pollServer hpc | acceptFail hpc | count hpc | uncountLast hpc | uncount hpc | leave hpc
  | stay hpc | uncountWorker hpc | free hpc =>
    exact h.keep hw rfl rfl rfl (by rw [hpc]; exact fun _ hcs => nomatch hcs)
  | @pollClient cs hpc _ =>
    refine h.set cs hw rfl h.nodup (fun _ _ hd => hd) ?_ ?_ (fun _ => .inr rfl)
    · exact fun d hd => Function.update_of_ne hd ..
    · rw [hpc]
      exact nofun
  | @accept cs hpc _ hclosed =>
    refine h.set cs hw rfl (List.nodup_cons.mpr ⟨hclosed, h.nodup⟩) ?_ (fun _ _ => rfl) ?_
      (fun _ => .inr rfl)
    · exact fun d hd hmem => (List.mem_cons.mp hmem).resolve_left hd
    · rw [hpc]
      exact nofun
  | @epollAdd cs hpc | @rearm cs hpc =>
    refine h.set cs hw rfl h.nodup (fun _ _ hd => hd) ?_ ?_ ?_
    · exact fun d hd => Function.update_of_ne hd ..
    · rw [hpc]
      exact fun d hd => (Option.some.inj hd).symm
    · exact fun _ => .inl (Function.update_self ..)
  | @close cs hpc =>
    refine h.set cs hw rfl (h.nodup.erase cs) ?_ (fun _ _ => rfl) ?_ ?_
    · exact fun _ _ hd => List.mem_of_mem_erase hd
    · rw [hpc]
      exact fun d hd => (Option.some.inj hd).symm
    · exact fun hcs => absurd rfl (h.nodup.mem_erase_iff.mp hcs).1

end CcPof.SocketServer
