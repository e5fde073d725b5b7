import CcPof.SocketServer.Model

/-!
# The parameter of a new thread

A thread gets its server through a block that its creator allocates and that it frees itself before
its loop. `addQSSWorker` fills the block in behind `pthread_create`, when the thread may run already;
`startSocketServer` does it in front. A worker prints its thread id from the block later.
-/

namespace CcPof.SocketServer

variable {minThreads maxThreads : Nat}

/-- The statements of a new thread in front of its loop: it reads `pParam->qss`, and frees `pParam`. -/
inductive ParamPc
  | read
  | free
  | loop
  deriving DecidableEq, Repr

/-- A block and the thread that it was made for. In `storing` the creator is in front of
`pParam->qss=qss`. `early` records that the thread read `qss` before that, `late` that someone used
the block when the thread had freed it. -/
structure QSSWorkerParam where
  storing : Option Tid
  pc : ParamPc
  early : Bool
  late : Bool
  deriving DecidableEq

namespace QSSWorkerParam

/-- The block is read or written. -/
def access (p : QSSWorkerParam) : QSSWorkerParam :=
  if p.pc = .loop then { p with late := true } else p

/-- The next statement of the new thread -/
def next (p : QSSWorkerParam) : Option QSSWorkerParam :=
  match p.pc with
  | .read => some { p with pc := .free, early := p.early || p.storing.isSome }
  | .free => some { p with pc := .loop }
  | .loop => none

end QSSWorkerParam

/-- The server with the blocks of its workers, in the order of their creation, and of the thread of
the blocking senders. -/
structure Launch where
  server : Server
  workers : List QSSWorkerParam
  sender : Option QSSWorkerParam

inductive LaunchAct
  | server (a : Act)
  -- `pParam->qss=qss`, for the block of the worker `i`
  | store (i : Nat)
  | worker (i : Nat)
  | sender

/-- The thread that takes the step is in its loop, and has no block to fill in. -/
def Launch.Ready (l : Launch) : Act → Prop
  | .worker i _ => (∃ p ∈ l.workers[i]?, p.pc = .loop) ∧ ∀ p ∈ l.workers, p.storing ≠ some (.worker i)
  | .start _ => ∀ p ∈ l.workers, p.storing ≠ some .starter
  | .shutdown => True
  -- `epEvents[qss->maxThreads]` comes between the two statements.
  | .send _ => ∃ p ∈ l.sender, p.pc = if l.server.sender = .start then .free else .loop

instance (l : Launch) : ∀ a, Decidable (l.Ready a)
  | .worker _ _ => inferInstanceAs (Decidable (_ ∧ _))
  | .start _ => inferInstanceAs (Decidable (∀ _ ∈ _, _))
  | .shutdown => isTrue trivial
  | .send _ => inferInstanceAs (Decidable (∃ _ ∈ _, _))

/-- The block of a worker that is created in `addQSSWorker` by the thread `t`. -/
def QSSWorkerParam.ofWorker (t : Tid) : QSSWorkerParam := ⟨some t, .read, false, false⟩

/-- The block of the thread of the blocking senders -/
def QSSWorkerParam.ofSender : QSSWorkerParam := ⟨none, .read, false, false⟩

def Act.tid : Act → Tid
  | worker i _ => .worker i
  | start _ => .starter
  | shutdown | send _ => .closer

/-- What a statement does to the blocks: a timeout is printed, a worker or the sender is created. -/
def Launch.after (l : Launch) (a : Act) (s : Server) : Launch where
  server := s
  workers :=
    let workers := match a with
      | .worker i .timeout => l.workers.modify i QSSWorkerParam.access
      | _ => l.workers
    if l.server.workers.length < s.workers.length then workers ++ [.ofWorker a.tid] else workers
  sender := if l.server.sender = .idle ∧ s.sender = .start then some .ofSender else l.sender

def launchStep (l : Launch) : LaunchAct → Option Launch
  | .server a => if l.Ready a then (step l.server a).map (l.after a) else none
  | .store i =>
      l.workers[i]?.bind fun p =>
        if p.storing = none then none
        else some { l with workers := l.workers.set i { p.access with storing := none } }
  | .worker i =>
      l.workers[i]?.bind fun p => p.next.map fun p => { l with workers := l.workers.set i p }
  | .sender =>
      l.sender.bind fun p =>
        if p.pc = .free ∧ l.server.sender = .start then none
        else p.next.map fun p => { l with sender := some p }

def launch (minThreads maxThreads : Nat) : TransitionSystem Launch LaunchAct where
  init := ⟨serverInit minThreads maxThreads, [], none⟩
  step := launchStep

/-- The pointer was there when the thread read it, and the block was not used behind its `free`. -/
def QSSWorkerParam.Sound (p : QSSWorkerParam) : Prop := p.early = false ∧ p.late = false

/-- A new worker does not run before its creator has taken the statement behind `pthread_create`,
and no `epoll_wait` of a worker times out. -/
def LaunchOk (l : Launch) : LaunchAct → Prop
  | .server (.worker _ env) => env ≠ .timeout
  | .worker i => ∀ p ∈ l.workers[i]?, p.storing = none
  | .server (.start _) | .server .shutdown | .server (.send _) | .store _ | .sender => True

instance (l : Launch) : ∀ a, Decidable (LaunchOk l a)
  | .server (.worker _ _) => inferInstanceAs (Decidable (_ ≠ _))
  | .worker _ => inferInstanceAs (Decidable (∀ _ ∈ _, _))
  | .server (.start _) | .server .shutdown | .server (.send _) | .store _ | .sender => isTrue trivial

variable {l l' : Launch} {p p' : QSSWorkerParam} {s' : Server} {i : Nat}

/-! ## The blocks in every run -/

/-- While the block of a worker is not filled in, the worker has not run. -/
structure QSSWorkerParam.Fine (p : QSSWorkerParam) : Prop where
  sound : p.Sound
  fresh : p.storing ≠ none → p.pc = .read

theorem QSSWorkerParam.next_cases (h : p.next = some p') :
    (p.pc = .read ∧ p' = { p with pc := .free, early := p.early || p.storing.isSome }) ∨
      (p.pc = .free ∧ p' = { p with pc := .loop }) := by
  unfold QSSWorkerParam.next at h
  split at h
  · cases h
    exact Or.inl ⟨‹_›, rfl⟩
  · cases h
    exact Or.inr ⟨‹_›, rfl⟩
  · cases h

/-- A thread that finds its block filled in keeps it sound. -/
theorem QSSWorkerParam.Sound.next (h : p.Sound) (hstored : p.storing = none)
    (hs : p.next = some p') : p'.storing = none ∧ p'.Sound := by
  rcases QSSWorkerParam.next_cases hs with ⟨-, rfl⟩ | ⟨-, rfl⟩
  · refine ⟨hstored, ?_, h.2⟩
    show (p.early || p.storing.isSome) = false
    rw [h.1, hstored]
    rfl
  · exact ⟨hstored, h⟩

/-- A thread that runs before its block is filled in reads what is not there. -/
theorem QSSWorkerParam.Fine.next_early (h : p.Fine) (hstoring : p.storing ≠ none)
    (hs : p.next = some p') : ¬ p'.Sound := by
  rcases QSSWorkerParam.next_cases hs with ⟨-, rfl⟩ | ⟨hpc, -⟩
  · intro hsound
    have hearly : (p.early || p.storing.isSome) = false := hsound.1
    rw [Option.isSome_iff_ne_none.mpr hstoring, Bool.or_true] at hearly
    cases hearly
  · rw [h.fresh hstoring] at hpc
    cases hpc

/-- The creator fills in a block that the thread has not freed. -/
theorem QSSWorkerParam.Fine.store (h : p.Fine) (hstoring : p.storing ≠ none) :
    ({ p.access with storing := none } : QSSWorkerParam).Fine := by
  have haccess : p.access = p := by
    rw [QSSWorkerParam.access, h.fresh hstoring]
    rfl
  rw [haccess]
  exact ⟨h.sound, fun hne => absurd rfl hne⟩

theorem QSSWorkerParam.fine_ofWorker (t : Tid) : (QSSWorkerParam.ofWorker t).Fine :=
  ⟨⟨rfl, rfl⟩, fun _ => rfl⟩

theorem QSSWorkerParam.access_late (hpc : p.pc = .loop) : ¬ p.access.Sound := by
  intro h
  have hlate : p.access.late = false := h.2
  rw [QSSWorkerParam.access, if_pos hpc] at hlate
  cases hlate

theorem fine_set {ps : List QSSWorkerParam} (h : ∀ p ∈ ps, p.Fine) (hp : p.Fine) :
    ∀ q ∈ ps.set i p, q.Fine := by
  intro q hq
  rcases List.mem_or_eq_of_mem_set hq with hq | rfl
  · exact h q hq
  · exact hp

/-! ## What a step can do -/

/-- The step of the launch, with the block that it is about. -/
inductive LaunchStep (l : Launch) : LaunchAct → Launch → Prop
  | server {a : Act} {s' : Server} : l.Ready a → LaunchStep l (.server a) (l.after a s')
  | store {i : Nat} {p : QSSWorkerParam} : l.workers[i]? = some p → p.storing ≠ none →
      LaunchStep l (.store i)
        { l with workers := l.workers.set i { p.access with storing := none } }
  | worker {i : Nat} {p p' : QSSWorkerParam} : l.workers[i]? = some p → p.next = some p' →
      LaunchStep l (.worker i) { l with workers := l.workers.set i p' }
  | sender {p p' : QSSWorkerParam} : l.sender = some p → p.next = some p' →
      LaunchStep l .sender { l with sender := some p' }

theorem launchStep_cases {a : LaunchAct} (hs : launchStep l a = some l') : LaunchStep l a l' := by
  cases a with
  | server a =>
    rw [launchStep] at hs
    split at hs
    · rw [Option.map_eq_some_iff] at hs
      rcases hs with ⟨s', -, rfl⟩
      exact .server ‹_›
    · cases hs
  | store i =>
    rw [launchStep, Option.bind_eq_some_iff] at hs
    rcases hs with ⟨p, hp, hs⟩
    split at hs <;> cases hs
    exact .store hp ‹_›
  | worker i =>
    rw [launchStep, Option.bind_eq_some_iff] at hs
    rcases hs with ⟨p, hp, hs⟩
    rw [Option.map_eq_some_iff] at hs
    rcases hs with ⟨p', hp', rfl⟩
    exact .worker hp hp'
  | sender =>
    rw [launchStep, Option.bind_eq_some_iff] at hs
    rcases hs with ⟨p, hp, hs⟩
    split at hs
    · cases hs
    · rw [Option.map_eq_some_iff] at hs
      rcases hs with ⟨p', hp', rfl⟩
      exact .sender hp hp'

/-- The blocks of the workers, when a statement of the server has been executed. -/
theorem Launch.workers_after {a : Act} (l : Launch) (s' : Server)
    (ha : ∀ i, a ≠ .worker i .timeout) :
    (l.after a s').workers = l.workers ∨
      (l.after a s').workers = l.workers ++ [.ofWorker a.tid] := by
  unfold Launch.after
  dsimp only
  split
  · right
    split
    · exact absurd rfl (ha _)
    · rfl
  · left
    split
    · exact absurd rfl (ha _)
    · rfl

/-- A timeout prints the thread id from the block of its worker. -/
theorem Launch.access_mem_after (hp : l.workers[i]? = some p) :
    p.access ∈ (l.after (.worker i .timeout) s').workers := by
  have hmem : p.access ∈ l.workers.modify i QSSWorkerParam.access := by
    apply List.mem_of_getElem? (i := i)
    rw [List.getElem?_modify_eq, hp]
    rfl
  unfold Launch.after
  dsimp only
  split
  · exact List.mem_append_left _ hmem
  · exact hmem

theorem fine_launchStep {a : LaunchAct} (h : ∀ p ∈ l.workers, p.Fine) (hok : LaunchOk l a)
    (hs : launchStep l a = some l') : ∀ p ∈ l'.workers, p.Fine := by
  cases launchStep_cases hs with
  | @server a s' _ =>
    have ha : ∀ i, a ≠ .worker i .timeout := by
      intro i heq
      rw [heq] at hok
      exact hok rfl
    rcases Launch.workers_after l s' ha with heq | heq
    · rw [heq]
      exact h
    · rw [heq]
      intro p hp
      rcases List.mem_append.mp hp with hp | hp
      · exact h p hp
      · rw [List.mem_singleton.mp hp]
        exact QSSWorkerParam.fine_ofWorker _
  | store hp hstoring => exact fine_set h ((h _ (List.mem_of_getElem? hp)).store hstoring)
  | worker hp hnext =>
    have hsound := (h _ (List.mem_of_getElem? hp)).sound.next (hok _ hp) hnext
    exact fine_set h ⟨hsound.2, fun hne => absurd hsound.1 hne⟩
  | sender => exact h

theorem fine_invariant : ((launch minThreads maxThreads).restrict LaunchOk).Invariant
    fun l => ∀ p ∈ l.workers, p.Fine :=
  .restrict nofun fine_launchStep

/-- The block of the blocking senders is filled in before its thread exists. -/
theorem sender_invariant : (launch minThreads maxThreads).Invariant
    fun l => ∀ p ∈ l.sender, p.storing = none ∧ p.Sound where
  init := nofun
  step {l l' a} h hs := by
    cases launchStep_cases hs with
    | server =>
      intro p hp
      unfold Launch.after at hp
      dsimp only at hp
      split at hp
      · cases hp
        exact ⟨rfl, rfl, rfl⟩
      · exact h p hp
    | store | worker => exact h
    | sender hp hnext =>
      intro p' hp'
      cases hp'
      exact (h _ hp).2.next (h _ hp).1 hnext

/-- A step that breaks the condition makes a block unsound at once. -/
theorem unsound_launchStep {a : LaunchAct} (h : ∀ p ∈ l.workers, p.Fine) (hok : ¬ LaunchOk l a)
    (hs : launchStep l a = some l') : ∃ p ∈ l'.workers, ¬ p.Sound := by
  cases launchStep_cases hs with
  | @server a s' hready =>
    match a with
    | .worker i env =>
      have henv : env = .timeout := Classical.not_not.mp hok
      rw [henv]
      rcases hready.1 with ⟨p, hp, hpc⟩
      exact ⟨p.access, Launch.access_mem_after hp, QSSWorkerParam.access_late hpc⟩
    | .start _ | .shutdown | .send _ => exact absurd trivial hok
  | @worker i p p' hp hnext =>
    have hstoring : p.storing ≠ none := by
      intro hnone
      apply hok
      intro q hq
      rw [hp] at hq
      cases hq
      exact hnone
    refine ⟨p', ?_, (h p (List.mem_of_getElem? hp)).next_early hstoring hnext⟩
    exact List.mem_set (List.getElem?_eq_some_iff.mp hp).1 p'
  | store | sender => exact absurd trivial hok

/-- While no worker is ahead of its creator and none times out, the blocks of the workers are filled
in when they are read, and not used when they are freed; the first step that breaks this shows it.
The block of the blocking senders is sound in every run. -/
theorem params_sound :
    (∀ l, ((launch minThreads maxThreads).restrict LaunchOk).Reachable l →
      ∀ p ∈ l.workers, p.Sound) ∧
    (∀ l, (launch minThreads maxThreads).Reachable l → ∀ p ∈ l.sender, p.Sound) ∧
    ∀ l l' a, ((launch minThreads maxThreads).restrict LaunchOk).Reachable l → ¬ LaunchOk l a →
      (launch minThreads maxThreads).step l a = some l' → ∃ p ∈ l'.workers, ¬ p.Sound := by
  refine ⟨?_, ?_, ?_⟩
  · intro l hl p hp
    exact (fine_invariant.of_reachable hl p hp).sound
  · intro l hl p hp
    exact (sender_invariant.of_reachable hl p hp).2
  · intro l l' a hl hok hs
    exact unsound_launchStep (fine_invariant.of_reachable hl) hok hs

/-- The starter, up to the statement behind `pthread_create`. -/
def createFirst : List LaunchAct := List.replicate 10 (.server (.start .ok))

/-- The starter fills in the block and returns, and both threads come to their loops. -/
def storeThenRun : List LaunchAct :=
  [LaunchAct.store 0] ++ List.replicate 5 (LaunchAct.server (.start .ok)) ++
    [LaunchAct.worker 0, .worker 0, .sender, .server (.send .ok), .sender]

theorem params_sound_storeThenRun :
    ∃ l, ((launch 1 1).restrict LaunchOk).exec (launch 1 1).init
        (createFirst ++ storeThenRun ++ [LaunchAct.server (.worker 0 .ok)]) = some l ∧
      l.workers.map QSSWorkerParam.pc = [.loop] ∧ (∀ p ∈ l.workers, p.Sound) ∧
      l.sender.map QSSWorkerParam.pc = some .loop ∧ ∀ p ∈ l.sender, p.Sound := by
  have hexec : (((launch 1 1).restrict LaunchOk).exec (launch 1 1).init
      (createFirst ++ storeThenRun ++ [LaunchAct.server (.worker 0 .ok)])).map
        (fun l => (l.workers.map QSSWorkerParam.pc, l.sender.map QSSWorkerParam.pc)) =
          some ([.loop], some .loop) := by decide +kernel
  rw [Option.map_eq_some_iff] at hexec
  rcases hexec with ⟨l, hl, hobs⟩
  rw [Prod.mk.injEq] at hobs
  have hreach := TransitionSystem.reachable_of_exec _ hl
  exact ⟨l, hl, hobs.1, params_sound.1 l hreach, hobs.2,
    params_sound.2.1 l hreach.of_restrict⟩

/-- The worker reads `qss` and frees the block before the starter fills it in. Or all goes well, and
the worker prints its thread id when `epoll_wait` has timed out. -/
theorem params_unsound :
    (∃ l, (launch 1 1).exec (launch 1 1).init
        (createFirst ++ [LaunchAct.worker 0, .worker 0, .store 0]) = some l ∧
      l.workers = [⟨none, .loop, true, true⟩]) ∧
    ∃ l, (launch 1 1).exec (launch 1 1).init
        (createFirst ++ storeThenRun ++ [LaunchAct.server (.worker 0 .timeout)]) = some l ∧
      l.workers = [⟨none, .loop, false, true⟩] :=
  ⟨⟨_, rfl, rfl⟩, ⟨_, rfl, rfl⟩⟩

end CcPof.SocketServer
