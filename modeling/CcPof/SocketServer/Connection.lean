import CcPof.Lib.Observation
import CcPof.Lib.Progress
import CcPof.SocketServer.Clients
import Mathlib.Data.List.Nodup

/-!
# One connection after the other

What all workers do to one client descriptor, put in order, is what a single thread would do:
`accept`, `EPOLL_CTL_ADD`, and then an event, one call of the handler and its answer, again and
again. `EPOLLONESHOT` makes it so: no other worker gets an event of the client before the worker
that has the last one has armed it again.
-/

namespace CcPof.SocketServer

variable {minThreads maxThreads : Nat} {s s' : Server} {i : Nat} {w w' : Worker} {env : Env} {cs : Fd}

/-! ## 1. A connection by itself -/

/-- How far the worker is that has the descriptor. It closes it unless it is to be armed `again`. -/
inductive Stage
  | preparing
  | received
  | answered (again : Bool)
  deriving DecidableEq, Repr

inductive Connection
  | closed
  | waiting
  /-- open, but not registered, and in the hands of no worker -/
  | lost
  | held (i : Nat) (stage : Stage)
  deriving DecidableEq, Repr

inductive ClientEvent
  | accept (i : Nat)
  | register (i : Nat)
  | abandon (i : Nat)
  | event (i : Nat)
  | handle (i : Nat) (handleCode : Int)
  | rearm (i : Nat)
  | rearmFail (i : Nat)
  | close (i : Nat)
  deriving DecidableEq, Repr

def Connection.step : Connection → ClientEvent → Option Connection
  | closed, .accept i => some (held i .preparing)
  | held i .preparing, .register j => if i = j then some waiting else none
  | held i .preparing, .abandon j => if i = j then some lost else none
  | waiting, .event i => some (held i .received)
  | held i .received, .handle j handleCode =>
      if i = j then some (held i (.answered (0 < handleCode))) else none
  | held i (.answered true), .rearm j => if i = j then some waiting else none
  | held i (.answered true), .rearmFail j => if i = j then some (held i (.answered false)) else none
  | held i (.answered false), .close j => if i = j then some closed else none
  | _, _ => none

def connection : TransitionSystem Connection ClientEvent where
  init := .closed
  step := Connection.step

/-! ## 2. A connection among the workers -/

/-- The stage of the descriptor `cs` in the hands of a worker -/
def WorkerPc.stage (cs : Fd) : WorkerPc → Option Stage
  | setNonBlocking d | setKeepAlive d | epollAdd d => if d = cs then some .preparing else none
  | lockBusy d | busy d | unlockBusy d | add d _ | handle d => if d = cs then some .received else none
  | lockIdle d handleCode | idle d handleCode | unlockIdle d handleCode =>
      if d = cs then some (.answered (0 < handleCode)) else none
  | rearm d => if d = cs then some (.answered true) else none
  | close d => if d = cs then some (.answered false) else none
  | _ => none

/-- What the statement of the worker `i` does to the descriptor `cs`. -/
def WorkerPc.event (cs : Fd) (i : Nat) : WorkerPc → Env → Option ClientEvent
  | accept, .fd d => if d = cs then some (.accept i) else none
  | epollAdd d, .ok => if d = cs then some (.register i) else none
  -- `onAcceptRoutine` returns without a `close`.
  | setNonBlocking d, .fail | setKeepAlive d, .fail | epollAdd d, .fail =>
      if d = cs then some (.abandon i) else none
  | poll, .fd d => if d = cs then some (.event i) else none
  | handle d, .code handleCode => if d = cs then some (.handle i handleCode) else none
  | rearm d, .ok => if d = cs then some (.rearm i) else none
  | rearm d, .fail => if d = cs then some (.rearmFail i) else none
  | close d, .ok => if d = cs then some (.close i) else none
  | _, _ => none

def clientEvent (cs : Fd) (s : Server) : Act → Option ClientEvent
  | .worker i env => s.workers[i]?.bind fun w => w.pc.event cs i env
  | .start _ | .shutdown | .send _ => none

inductive Represents (cs : Fd) (s : Server) : Connection → Prop
  | closed : cs ∉ s.openFds → Represents cs s .closed
  | waiting : s.armed cs = true → Represents cs s .waiting
  | lost : cs ∈ s.openFds → s.armed cs = false → (∀ w ∈ s.workers, w.pc.stage cs = none) →
      Represents cs s .lost
  | held {i : Nat} {w : Worker} {stage : Stage} : s.workers[i]? = some w →
      w.pc.stage cs = some stage → Represents cs s (.held i stage)

theorem WorkerPc.client_of_stage {pc : WorkerPc} {stage : Stage} (h : pc.stage cs = some stage) :
    pc.client = some cs := by
  unfold WorkerPc.stage at h
  split at h
  case h_14 => cases h
  all_goals
    split at h <;> cases h
    rename_i heq
    rw [← heq]
    rfl

/-- What a worker has is open, and its events are kept back. -/
theorem Sockets.of_stage {stage : Stage} (h : Sockets s) (hw : s.workers[i]? = some w)
    (hstage : w.pc.stage cs = some stage) : cs ∈ s.openFds ∧ s.armed cs = false :=
  h.owned w (List.mem_of_getElem? hw) cs (WorkerPc.client_of_stage hstage)

/-! A state represents one connection only. -/

section

variable {c : Connection} {stage : Stage}

theorem Represents.eq_closed (h : Represents cs s c) (hS : Sockets s) (hcs : cs ∉ s.openFds) :
    c = .closed := by
  cases h with
  | closed => rfl
  | waiting harmed => exact absurd (hS.armed cs harmed) hcs
  | lost hopen => exact absurd hopen hcs
  | held hw hstage => exact absurd (hS.of_stage hw hstage).1 hcs

theorem Represents.eq_waiting (h : Represents cs s c) (hS : Sockets s) (harmed : s.armed cs = true) :
    c = .waiting := by
  cases h with
  | closed hcs => exact absurd (hS.armed cs harmed) hcs
  | waiting => rfl
  | lost _ hquiet =>
    rw [hquiet] at harmed
    cases harmed
  | held hw hstage =>
    rw [(hS.of_stage hw hstage).2] at harmed
    cases harmed

theorem Represents.eq_held (h : Represents cs s c) (hS : Sockets s) (hw : s.workers[i]? = some w)
    (hstage : w.pc.stage cs = some stage) : c = .held i stage := by
  have howned := hS.of_stage hw hstage
  cases h with
  | closed hcs => exact absurd howned.1 hcs
  | waiting harmed =>
    rw [howned.2] at harmed
    cases harmed
  | lost _ _ hnone =>
    rw [hnone w (List.mem_of_getElem? hw)] at hstage
    cases hstage
  | @held j v _ hv hstage' =>
    -- Two workers that have the descriptor are one.
    obtain rfl := hS.distinct i j w v cs hw hv (WorkerPc.client_of_stage hstage)
      (WorkerPc.client_of_stage hstage')
    rw [hw] at hv
    cases hv
    rw [hstage] at hstage'
    cases hstage'
    rfl

/-! ## 3. One step -/

theorem Represents.keep (h : Represents cs s c) (hw : s.workers[i]? = some w)
    (hworkers : s'.workers = s.workers.set i w') (hopen : cs ∈ s'.openFds ↔ cs ∈ s.openFds)
    (harmed : s'.armed cs = s.armed cs) (hstage : w'.pc.stage cs = w.pc.stage cs) :
    Represents cs s' c := by
  cases h with
  | closed hcs => exact .closed (fun hmem => hcs (hopen.mp hmem))
  | waiting hwaiting =>
    apply Represents.waiting
    rw [harmed, hwaiting]
  | lost hmem hquiet hnone =>
    apply Represents.lost (hopen.mpr hmem) (by rw [harmed, hquiet])
    intro v hv
    rw [hworkers] at hv
    rcases List.mem_or_eq_of_mem_set hv with hv | rfl
    · exact hnone v hv
    · rw [hstage]
      exact hnone w (List.mem_of_getElem? hw)
  | @held j v stage hv hstage' =>
    by_cases hj : i = j
    · subst hj
      rw [hw] at hv
      cases hv
      apply Represents.held (w := w')
      · rw [hworkers, List.getElem?_set_self (List.getElem?_eq_some_iff.mp hw).1]
      · rw [hstage, hstage']
    · apply Represents.held (w := v) _ hstage'
      rw [hworkers, List.getElem?_set_ne hj, hv]

theorem Represents.frame (h : Represents cs s c) (hworkers : s'.workers = s.workers)
    (hopen : s'.openFds = s.openFds) (harmed : s'.armed = s.armed) : Represents cs s' c := by
  cases h with
  | closed hcs => exact .closed (by rw [hopen]; exact hcs)
  | waiting hwaiting => exact .waiting (by rw [harmed]; exact hwaiting)
  | lost hmem hquiet hnone =>
    apply Represents.lost
    · rw [hopen]
      exact hmem
    · rw [harmed]
      exact hquiet
    · rw [hworkers]
      exact hnone
  | held hw hstage => exact .held (by rw [hworkers]; exact hw) hstage

theorem Represents.createWorker (h : Represents cs s c) : Represents cs s.createWorker c := by
  cases h with
  | closed hcs => exact .closed hcs
  | waiting hwaiting => exact .waiting hwaiting
  | lost hmem hquiet hnone =>
    refine Represents.lost (s := s.createWorker) hmem hquiet ?_
    intro v hv
    rw [Server.workers_createWorker, List.mem_append, List.mem_singleton] at hv
    rcases hv with hv | rfl
    · exact hnone v hv
    · rfl
  | held hw hstage =>
    apply Represents.held _ hstage
    rw [Server.workers_createWorker,
      List.getElem?_append_left (List.getElem?_eq_some_iff.mp hw).1, hw]

/-- The connection takes the event, if there is one, and is what the next state represents. -/
def Connection.Follows (cs : Fd) (c : Connection) (e : Option ClientEvent) (s' : Server) : Prop :=
  ∃ c', connection.exec c e.toList = some c' ∧ Represents cs s' c'

theorem Connection.Follows.silent {e : Option ClientEvent} (he : e = none)
    (h : Represents cs s' c) : c.Follows cs e s' := by
  rw [he]
  exact ⟨c, rfl, h⟩

theorem Connection.Follows.visible {e : ClientEvent} {c' : Connection} (hstep : c.step e = some c')
    (h : Represents cs s' c') : c.Follows cs (some e) s' := by
  refine ⟨c', ?_, h⟩
  show (c.step e).bind _ = _
  rw [hstep]
  rfl

theorem WorkerPc.stage_of_locked {pc pc' : WorkerPc} (cs : Fd) (i : Nat) (h : pc.locked = some pc') :
    pc.event cs i .ok = none ∧ pc'.stage cs = pc.stage cs := by
  unfold WorkerPc.locked at h
  split at h <;> cases h <;> exact ⟨rfl, rfl⟩

theorem WorkerPc.stage_of_unlocked {pc pc' : WorkerPc} (cs : Fd) (i : Nat) (h : pc.unlocked = some pc') :
    pc.event cs i .ok = none ∧ pc'.stage cs = pc.stage cs := by
  unfold WorkerPc.unlocked at h
  split at h <;> cases h
  case h_4 d handleCode =>
    -- The handler's answer decides between `rearm` and `close`.
    refine ⟨rfl, ?_⟩
    show _ = ite (d = cs) (some (Stage.answered (decide (0 < handleCode)))) none
    by_cases hcode : 0 < handleCode
    · rw [if_pos hcode, decide_eq_true hcode]
      rfl
    · rw [if_neg hcode, decide_eq_false hcode]
      rfl
  case h_5 | h_6 | h_7 => exact ⟨rfl, by split <;> rfl⟩
  all_goals exact ⟨rfl, rfl⟩

/-- A statement that leaves the sockets alone: `onAcceptRoutine` gives up, or the handler or the
kernel answers. -/
inductive StageRead (cs : Fd) (i : Nat) (pc : WorkerPc) (env : Env) (pc' : WorkerPc) : Prop
  | silent : pc.event cs i env = none → pc'.stage cs = pc.stage cs → StageRead cs i pc env pc'
  | abandon : pc.event cs i env = some (.abandon i) → pc.stage cs = some .preparing →
      pc'.stage cs = none → StageRead cs i pc env pc'
  | answer {e : ClientEvent} {stage stage' : Stage} : pc.event cs i env = some e →
      pc.stage cs = some stage → (Connection.held i stage).step e = some (.held i stage') →
      pc'.stage cs = some stage' → StageRead cs i pc env pc'

theorem WorkerRead.stageRead {q : QSocketServer} {pc pc' : WorkerPc} (h : WorkerRead q pc env pc') :
    StageRead cs i pc env pc' := by
  cases h with
  | timeout | pollFail | setNonBlocking | setKeepAlive | addRet | exit | noExit =>
    exact .silent rfl rfl
  | @add d env pc pc' hadd => exact .silent rfl rfl
  | testLifecycle | testIdle | testSpare => exact .silent rfl (by split <;> rfl)
  | @setNonBlockingFail d | @setKeepAliveFail d | @epollAddFail d =>
    by_cases hd : d = cs
    · exact .abandon (if_pos hd) (if_pos hd) rfl
    · exact .silent (if_neg hd) (if_neg hd).symm
  | @handle d handleCode =>
    by_cases hd : d = cs
    · exact .answer (if_pos hd) (if_pos hd) (if_pos rfl) (if_pos hd)
    · exact .silent (if_neg hd) ((if_neg hd).trans (if_neg hd).symm)
  | @rearmFail d =>
    by_cases hd : d = cs
    · exact .answer (if_pos hd) (if_pos hd) (if_pos rfl) (if_pos hd)
    · exact .silent (if_neg hd) ((if_neg hd).trans (if_neg hd).symm)

/-- The worker that has the descriptor is the only one. -/
theorem stage_of_ne {j : Nat} {v : Worker} (hS : Sockets s) (hw : s.workers[i]? = some w)
    (hstage : w.pc.stage cs = some stage) (hj : j ≠ i) (hv : s.workers[j]? = some v) :
    v.pc.stage cs = none := by
  cases hv' : v.pc.stage cs with
  | none => rfl
  | some stage' =>
    have hsame := hS.distinct j i v w cs hv hw (WorkerPc.client_of_stage hv')
      (WorkerPc.client_of_stage hstage)
    exact absurd hsame hj

theorem Represents.read {pc : WorkerPc} (h : Represents cs s c) (hS : Sockets s)
    (hw : s.workers[i]? = some w) (hread : StageRead cs i w.pc env pc) :
    c.Follows cs (w.pc.event cs i env) (s.setWorker i { w with pc := pc }) := by
  have hself : (s.setWorker i { w with pc := pc }).workers[i]? = some { w with pc := pc } :=
    List.getElem?_set_self (List.getElem?_eq_some_iff.mp hw).1
  cases hread with
  | silent hevent hstage => exact .silent hevent (h.keep hw rfl Iff.rfl rfl hstage)
  | abandon hevent hstage hstage' =>
    obtain rfl := h.eq_held hS hw hstage
    have howned := hS.of_stage hw hstage
    rw [hevent]
    -- Nobody else had the descriptor, so nobody has it now.
    have hlost : (Connection.held i .preparing).step (.abandon i) = some .lost := if_pos rfl
    refine .visible hlost (.lost howned.1 howned.2 ?_)
    intro v hv
    obtain ⟨j, hj⟩ := List.mem_iff_getElem?.mp hv
    rcases getElem?_set_cases hj with ⟨-, rfl⟩ | ⟨hji, hj⟩
    · exact hstage'
    · exact stage_of_ne hS hw hstage hji hj
  | answer hevent hstage hstep hstage' =>
    obtain rfl := h.eq_held hS hw hstage
    rw [hevent]
    exact .visible hstep (.held hself hstage')

theorem Represents.worker (h : Represents cs s c) (hS : Sockets s) (hnodup : s.openFds.Nodup)
    (hw : s.workers[i]? = some w) (hs : WorkerStep s i w env s') :
    c.Follows cs (w.pc.event cs i env) s' := by
  have hlt := (List.getElem?_eq_some_iff.mp hw).1
  cases hs with
  | read hread => exact h.read hS hw hread.stageRead
  | lock hpc _ =>
    have hstage := WorkerPc.stage_of_locked cs i hpc
    exact .silent hstage.1 (Represents.keep (s := s) h hw rfl Iff.rfl rfl hstage.2)
  | unlock hpc =>
    have hstage := WorkerPc.stage_of_unlocked cs i hpc
    exact .silent hstage.1 (Represents.keep (s := s) h hw rfl Iff.rfl rfl hstage.2)
  | @create d j hpc _ =>
    have hset : Represents cs (s.setWorker i { w with pc := .add d (.incr j) }) c :=
      h.keep hw rfl Iff.rfl rfl (by rw [hpc]; rfl)
    exact .silent (by rw [hpc]; rfl) hset.createWorker
  | pollServer hpc | acceptFail hpc | count hpc | busy hpc | incr hpc | idle hpc | uncountLast hpc
  | uncount hpc | leave hpc | stay hpc | uncountWorker hpc | free hpc =>
    exact .silent (by rw [hpc]; rfl) (h.keep hw rfl Iff.rfl rfl (by rw [hpc]; rfl))
  | @pollClient d hpc harmed =>
    rw [hpc]
    by_cases hd : d = cs
    · subst hd
      -- An event comes for an armed descriptor only.
      obtain rfl := h.eq_waiting hS harmed
      rw [show WorkerPc.event d i .poll (.fd d) = some (.event i) from if_pos rfl]
      exact .visible rfl (.held (List.getElem?_set_self hlt) (if_pos rfl))
    · apply Connection.Follows.silent (if_neg hd)
      refine h.keep hw rfl Iff.rfl (Function.update_of_ne (Ne.symm hd) ..) ?_
      rw [hpc]
      exact if_neg hd
  | @accept d hpc _ hopen =>
    rw [hpc]
    by_cases hd : d = cs
    · subst hd
      -- `accept` returns a number that is not open.
      obtain rfl := h.eq_closed hS hopen
      rw [show WorkerPc.event d i .accept (.fd d) = some (.accept i) from if_pos rfl]
      exact .visible rfl (.held (List.getElem?_set_self hlt) (if_pos rfl))
    · apply Connection.Follows.silent (if_neg hd)
      refine h.keep hw rfl ?_ rfl ?_
      · exact List.mem_cons.trans (or_iff_right (Ne.symm hd))
      · rw [hpc]
        exact if_neg hd
  | @epollAdd d hpc =>
    rw [hpc]
    by_cases hd : d = cs
    · subst hd
      have hstage : w.pc.stage d = some .preparing := by rw [hpc]; exact if_pos rfl
      obtain rfl := h.eq_held hS hw hstage
      rw [show WorkerPc.event d i (.epollAdd d) .ok = some (.register i) from if_pos rfl]
      exact .visible (if_pos rfl) (.waiting (Function.update_self ..))
    · apply Connection.Follows.silent (if_neg hd)
      refine h.keep hw rfl Iff.rfl (Function.update_of_ne (Ne.symm hd) ..) ?_
      rw [hpc]
      exact (if_neg hd).symm
  | @rearm d hpc =>
    rw [hpc]
    by_cases hd : d = cs
    · subst hd
      have hstage : w.pc.stage d = some (.answered true) := by rw [hpc]; exact if_pos rfl
      obtain rfl := h.eq_held hS hw hstage
      rw [show WorkerPc.event d i (.rearm d) .ok = some (.rearm i) from if_pos rfl]
      exact .visible (if_pos rfl) (.waiting (Function.update_self ..))
    · apply Connection.Follows.silent (if_neg hd)
      refine h.keep hw rfl Iff.rfl (Function.update_of_ne (Ne.symm hd) ..) ?_
      rw [hpc]
      exact (if_neg hd).symm
  | @close d hpc =>
    rw [hpc]
    by_cases hd : d = cs
    · subst hd
      have hstage : w.pc.stage d = some (.answered false) := by rw [hpc]; exact if_pos rfl
      obtain rfl := h.eq_held hS hw hstage
      rw [show WorkerPc.event d i (.close d) .ok = some (.close i) from if_pos rfl]
      -- The list of open descriptors has it once.
      exact .visible (if_pos rfl) (.closed hnodup.not_mem_erase)
    · apply Connection.Follows.silent (if_neg hd)
      refine h.keep hw rfl ?_ rfl ?_
      · exact List.mem_erase_of_ne (Ne.symm hd)
      · rw [hpc]
        exact (if_neg hd).symm

theorem openFds_nodup {a : Act} (h : s.openFds.Nodup) (hs : Step s a s') : s'.openFds.Nodup := by
  cases hs with
  | worker _ hs =>
    cases hs with
    | accept _ _ hcs => exact List.nodup_cons.mpr ⟨hcs, h⟩
    | close => exact h.erase _
    | _ => exact h
  | start hs => cases hs <;> exact h
  | shutdown hs => cases hs <;> exact h
  | send hs =>
    rw [sendStep_eq hs]
    exact h

theorem Represents.step {a : Act} (h : Represents cs s c) (hS : Sockets s)
    (hnodup : s.openFds.Nodup) (hs : Step s a s') : c.Follows cs (clientEvent cs s a) s' := by
  cases hs with
  | worker hw hs =>
    rw [clientEvent, hw]
    exact h.worker hS hnodup hw hs
  | start hs =>
    apply Connection.Follows.silent rfl
    cases hs with
    | @create j _ _ =>
      have hnext : Represents cs { s with starter := .add (.incr j) } c := h.frame rfl rfl rfl
      exact hnext.createWorker
    | _ => exact h.frame rfl rfl rfl
  | shutdown hs =>
    apply Connection.Follows.silent rfl
    cases hs <;> exact h.frame rfl rfl rfl
  | send hs =>
    apply Connection.Follows.silent rfl
    rw [sendStep_eq hs]
    exact h.frame rfl rfl rfl

end

/-! ## 4. Runs -/

/-- A state of the server that represents the connection. -/
def Serves (cs : Fd) (s : Server) (c : Connection) : Prop :=
  Sockets s ∧ s.openFds.Nodup ∧ Represents cs s c

theorem connection_follows (cs : Fd) : connection.Follows (socketServer minThreads maxThreads)
    (clientEvent cs) (Serves cs) where
  init := ⟨sockets_init, List.nodup_nil, .closed List.not_mem_nil⟩
  step := by
    intro s s' c a ⟨hS, hnodup, h⟩ hs
    have hstep := step_cases hs
    obtain ⟨c', hexec, h'⟩ := h.step hS hnodup hstep
    exact ⟨c', hexec, sockets_step hS hstep, openFds_nodup hnodup hstep, h'⟩

/-- What is done to the descriptor `cs` in a run from the start, in order. -/
def clientEvents (minThreads maxThreads : Nat) (cs : Fd) (l : List Act) : List ClientEvent :=
  (socketServer minThreads maxThreads).seen (clientEvent cs) (serverInit minThreads maxThreads) l

/-- **A client is served by one worker at a time.** However the workers interleave, what they do to a
descriptor is a run of a single connection, and the state is the one that this run ends in. -/
theorem clients_served_in_turn {l : List Act}
    (hexec : (socketServer minThreads maxThreads).exec (serverInit minThreads maxThreads) l = some s)
    (cs : Fd) : ∃ c, connection.exec .closed (clientEvents minThreads maxThreads cs l) = some c ∧
      Represents cs s c := by
  obtain ⟨c, hc, h⟩ := (connection_follows cs).exec (connection_follows cs).init hexec
  exact ⟨c, hc, h.2.2⟩

/-- A worker serves a client whose handler keeps the connection, and the other one gets its next
event, and closes it. -/
def serveTwice : List Act :=
  startServer 2 ++ [Act.worker 0 .ok, .worker 0 (.fd 5)] ++ List.replicate 6 (Act.worker 0 .ok) ++
    [Act.worker 0 (.fd 5)] ++ List.replicate 7 (Act.worker 0 .ok) ++ [Act.worker 0 (.code 1)] ++
    List.replicate 4 (Act.worker 0 .ok) ++ [Act.worker 1 (.fd 5)] ++
    List.replicate 7 (Act.worker 1 .ok) ++ [Act.worker 1 (.code 0)] ++
    List.replicate 4 (Act.worker 1 .ok)

theorem clients_served_in_turn_serveTwice :
    ∃ s, (socketServer 2 2).exec (serverInit 2 2) serveTwice = some s ∧
      clientEvents 2 2 5 serveTwice = [.accept 0, .register 0, .event 0, .handle 0 1, .rearm 0,
        .event 1, .handle 1 0, .close 1] ∧
      ∃ c, connection.exec .closed (clientEvents 2 2 5 serveTwice) = some c ∧ Represents 5 s c :=
  ⟨_, rfl, rfl, clients_served_in_turn rfl 5⟩

def ClientEvent.isEvent : ClientEvent → Bool
  | event _ => true
  | _ => false

def ClientEvent.isHandle : ClientEvent → Bool
  | handle .. => true
  | _ => false

/-- The worker lets go of the descriptor behind an event. -/
def ClientEvent.isDone : ClientEvent → Bool
  | rearm _ | close _ => true
  | _ => false

def Connection.received : Connection → Bool
  | held _ .received => true
  | _ => false

def Connection.answered : Connection → Bool
  | held _ (.answered _) => true
  | _ => false

theorem Connection.step_balance {c c' : Connection} {e : ClientEvent} (hs : c.step e = some c') :
    e.isEvent.toNat + c.received.toNat = e.isHandle.toNat + c'.received.toNat ∧
      e.isHandle.toNat + c.answered.toNat = e.isDone.toNat + c'.answered.toNat := by
  unfold Connection.step at hs
  split at hs
  case h_1 | h_4 =>
    cases hs
    exact ⟨rfl, rfl⟩
  case h_9 => cases hs
  all_goals
    split at hs <;> cases hs
    exact ⟨rfl, rfl⟩

/-- **No event is lost or handled twice.** In every run the handler is called once for each event of
a client, and each call ends in one `EPOLL_CTL_MOD` or one `close`, up to the event at hand. -/
theorem events_handled_once {l : List Act}
    (hexec : (socketServer minThreads maxThreads).exec (serverInit minThreads maxThreads) l = some s)
    (cs : Fd) : ∃ c, Represents cs s c ∧
      (clientEvents minThreads maxThreads cs l).countP (·.isEvent) =
        (clientEvents minThreads maxThreads cs l).countP (·.isHandle) + c.received.toNat ∧
      (clientEvents minThreads maxThreads cs l).countP (·.isHandle) =
        (clientEvents minThreads maxThreads cs l).countP (·.isDone) + c.answered.toNat := by
  obtain ⟨c, hc, h⟩ := (connection_follows cs).exec (connection_follows cs).init hexec
  refine ⟨c, h.2.2, ?_, ?_⟩
  · exact TransitionSystem.countP_balance (fun hs => (Connection.step_balance hs).1) hc
  · exact TransitionSystem.countP_balance (fun hs => (Connection.step_balance hs).2) hc

theorem events_handled_once_serveTwice :
    ∃ s, (socketServer 2 2).exec (serverInit 2 2) serveTwice = some s ∧
      ∃ c, Represents 5 s c ∧
        (clientEvents 2 2 5 serveTwice).countP (·.isEvent) =
          (clientEvents 2 2 5 serveTwice).countP (·.isHandle) + c.received.toNat ∧
        (clientEvents 2 2 5 serveTwice).countP (·.isHandle) =
          (clientEvents 2 2 5 serveTwice).countP (·.isDone) + c.answered.toNat :=
  ⟨_, rfl, events_handled_once rfl 5⟩

end CcPof.SocketServer
