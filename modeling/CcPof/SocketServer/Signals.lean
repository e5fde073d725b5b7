import CcPof.SocketServer.Writable

/-!
# The signals of the epoller

A wait that ends before its signal leaves the event with the kernel or with the epoller, and the
connection may be closed and its event freed before the epoller comes to it. Without such a wait the
epoller is in step with the workers, and each report of a writable socket wakes its worker.
-/

namespace CcPof.Writable

open BlockingSender (Conn Label)

variable {ι : Type} [DecidableEq ι] {s s' : Threads ι} {maxThreads : Nat} {i : ι}
  {e e' : QSSEPollEvent} {conn : Conn} {pc pc' : EpollerPc ι} {a : Act ι}

/-! ## 1. One connection -/

/-- The wait that ends before its signal: by a time-out, or by a wake-up without a signal. -/
def Act.abandoned : Act ι → Option ι
  | .worker i .timeout | .worker i .spurious => some i
  | _ => none

def Place.inside : Place → Bool
  | outside | closing | freed => false
  | _ => true

structure InStep (i : ι) (e : QSSEPollEvent) (pc : EpollerPc ι) : Prop where
  related : e.place.inside = true → e.conn.bSendEpollFDRelated = true
  armed : e.armed = true → e.place.waits = true ∧ i ∉ pc.pending
  pending : i ∈ pc.pending → e.place.waits = true
  unlocking : ∀ rest, pc = .unlock i rest → e.place = .relock true
  nodup : pc.pending.Nodup
  fault : pc ≠ .fault i

omit [DecidableEq ι] in
theorem inStep_init (i : ι) : InStep i registered .poll :=
  ⟨nofun, nofun, nofun, nofun, List.nodup_nil, nofun⟩

theorem related_behindLoop (c : Conn) (again : Bool) {related : Bool}
    (h : related = true → c.bSendEpollFDRelated = true) :
    (related = true → (BlockingSender.behindLoop c again).bSendEpollFDRelated = true) ∧
      ((BlockingSender.behindLoop c again).pc = .epollCtl →
        (BlockingSender.behindLoop c again).bSendEpollFDRelated = true) := by
  unfold BlockingSender.behindLoop
  split
  · exact ⟨h, nofun⟩
  · split
    · split
      · exact ⟨fun _ => rfl, fun _ => rfl⟩
      · split <;> exact ⟨h, nofun⟩
    · exact ⟨h, nofun⟩

theorem related_innerLoop (c : Conn) {related : Bool}
    (h : related = true → c.bSendEpollFDRelated = true) :
    (related = true → (BlockingSender.innerLoop c).bSendEpollFDRelated = true) ∧
      ((BlockingSender.innerLoop c).pc = .epollCtl →
        (BlockingSender.innerLoop c).bSendEpollFDRelated = true) := by
  unfold BlockingSender.innerLoop
  split
  · exact ⟨h, nofun⟩
  · exact related_behindLoop c false h

/-- The lock and the monitor are initialised before the block, and stay. -/
theorem related_step {c c' : Conn} {label : Label} (hs : BlockingSender.step c label = some c') :
    (c.bSendEpollFDRelated = true → c'.bSendEpollFDRelated = true) ∧
      (c'.pc = .epollCtl → c'.bSendEpollFDRelated = true) := by
  cases label with
  | call received =>
    simp only [BlockingSender.step] at hs
    split at hs <;> cases hs
    · exact related_innerLoop _ id
    · exact related_innerLoop _ id
  | sent count =>
    simp only [BlockingSender.step] at hs
    split at hs
    · split at hs <;> cases hs
      · exact related_innerLoop _ id
      · exact related_behindLoop _ _ id
    · cases hs
  | eagain | error =>
    simp only [BlockingSender.step] at hs
    split at hs <;> cases hs
    exact related_behindLoop _ _ id
  | ok =>
    simp only [BlockingSender.step] at hs
    split at hs <;> cases hs
    · refine ⟨id, fun hpc => ?_⟩
      cases hpc
    · exact related_innerLoop _ id
  | fail =>
    simp only [BlockingSender.step] at hs
    split at hs <;> cases hs
    all_goals
      refine ⟨id, fun hpc => ?_⟩
      cases hpc

theorem related_goOn {label : Label} (hs : BlockingSender.step e.conn label = some conn)
    (hinside : (e.goOn conn).place.inside = true) :
    (e.goOn conn).conn.bSendEpollFDRelated = true := by
  apply (related_step hs).2
  by_contra hpc
  rw [show (e.goOn conn).place = .outside from if_neg hpc] at hinside
  cases hinside

omit [DecidableEq ι] in
/-- A worker that does not wait has no event under way. -/
theorem InStep.away (h : InStep i e pc) (hwaits : e.place.waits = false)
    (hplace : ∀ rest, pc ≠ .unlock i rest) (harmed : e'.armed = true → e.armed = true)
    (hrelated : e'.place.inside = true → e'.conn.bSendEpollFDRelated = true) : InStep i e' pc := by
  have hquiet : e.armed = true → False := fun htrue => by
    rw [(h.armed htrue).1] at hwaits
    cases hwaits
  refine ⟨hrelated, fun htrue => (hquiet (harmed htrue)).elim, fun hpending => ?_,
    fun rest hpc => absurd hpc (hplace rest), h.nodup, h.fault⟩
  rw [h.pending hpending] at hwaits
  cases hwaits

theorem EventStep.inStep {a : WorkerAct} (hs : EventStep e a e') (hx : Excl i e pc)
    (h : InStep i e pc) (htimeout : a ≠ .timeout) (hspurious : a ≠ .spurious) :
    InStep i e' pc := by
  have hrelock (hplace : e.place ≠ .relock true) : ∀ rest, pc ≠ .unlock i rest :=
    fun rest hpc => hplace (h.unlocking rest hpc)
  cases hs with
  | send hplace hconn =>
    exact h.away (by rw [hplace]; rfl) (hrelock (by rw [hplace]; nofun)) id (related_goOn hconn)
  | lock hplace _ | ctlFail hplace =>
    exact h.away (by rw [hplace]; rfl) (hrelock (by rw [hplace]; nofun)) id
      fun _ => h.related (by rw [hplace]; rfl)
  | armed hplace hconn =>
    -- The epoller is done with the last report before the event is armed again.
    have hrelated := h.related (by rw [hplace]; rfl)
    have hpending : i ∉ pc.pending := fun hpending => by
      have hwaits := h.pending hpending
      rw [hplace] at hwaits
      cases hwaits
    refine ⟨fun _ => (related_step hconn).1 hrelated, fun _ => ⟨rfl, hpending⟩, fun _ => rfl,
      fun rest hpc => absurd hpc (hrelock (by rw [hplace]; nofun) rest), h.nodup, h.fault⟩
  | wait hplace =>
    refine ⟨fun _ => h.related (by rw [hplace]; rfl), fun htrue => ⟨rfl, (h.armed htrue).2⟩,
      fun _ => rfl, fun rest hpc => absurd hpc (hrelock (by rw [hplace]; nofun) rest), h.nodup,
      h.fault⟩
  | timeout => exact absurd rfl htimeout
  | spurious => exact absurd rfl hspurious
  | relock hplace hfree =>
    refine h.away (by rw [hplace]; rfl) (fun rest hpc => ?_) id
      fun _ => h.related (by rw [hplace]; rfl)
    -- The epoller would have the lock.
    rw [hx.epoller (by rw [hpc]; exact decide_eq_true rfl)] at hfree
    cases hfree
  | unlock hplace hconn =>
    exact h.away (by rw [hplace]; rfl) (hrelock (by rw [hplace]; nofun)) id (related_goOn hconn)
  | del hplace _ =>
    exact h.away (by rw [hplace]; rfl) (hrelock (by rw [hplace]; nofun)) nofun nofun
  | free hplace =>
    exact h.away (by rw [hplace]; rfl) (hrelock (by rw [hplace]; nofun)) id nofun

omit [DecidableEq ι] in
theorem InStep.live (h : InStep i e pc) (hinside : e.place.inside = true) : e.live = true := by
  unfold QSSEPollEvent.live
  rw [h.related hinside, Bool.true_and, decide_eq_true_iff]
  intro hfreed
  rw [hfreed] at hinside
  cases hinside

theorem inside_of_waits {place : Place} (h : place.waits = true) : place.inside = true := by
  cases place <;> first | rfl | cases h

omit [DecidableEq ι] in
/-- What the epoller is about to touch is there. -/
theorem InStep.live_of_touched (h : InStep i e pc) {rest : List (EpollEvent ι)}
    (hpc : pc = .lock i rest ∨ pc = .signal i rest ∨ pc = .unlock i rest) : e.live = true := by
  rcases hpc with rfl | rfl | rfl
  · exact h.live (inside_of_waits (h.pending List.mem_cons_self))
  · exact h.live (inside_of_waits (h.pending List.mem_cons_self))
  · exact h.live (by rw [h.unlocking rest rfl]; rfl)

theorem InStep.signal {rest : List (EpollEvent ι)} (h : InStep i e (.signal i rest))
    (hx : Excl i e (.signal i rest)) : InStep i e.signal (.unlock i rest) := by
  have hpending : i ∈ (EpollerPc.signal i rest).pending := List.mem_cons_self
  have hwaits := h.pending hpending
  have hfresh := List.nodup_cons.mp h.nodup
  rw [signal_of_waiting (hx.waiting_of_signal hwaits)]
  -- `epoll_wait` fills in an event once, so this was the only signal to it.
  refine ⟨fun _ => h.related (inside_of_waits hwaits), fun harmed => ?_, fun hlater => ?_,
    fun _ _ => rfl, hfresh.2, nofun⟩
  · exact absurd hpending (h.armed harmed).2
  · exact absurd hlater hfresh.1

omit [DecidableEq ι] in
/-- The epoller goes on with other events. -/
theorem InStep.others (h : InStep i e pc) (hmem : i ∈ pc'.pending → i ∈ pc.pending)
    (hnodup : pc'.pending.Nodup) (hplace : ∀ rest, pc' = .unlock i rest → e.place = .relock true)
    (hfault : pc' ≠ .fault i) : InStep i e pc' :=
  ⟨h.related, fun harmed => ⟨(h.armed harmed).1, fun hin => (h.armed harmed).2 (hmem hin)⟩,
    fun hin => h.pending (hmem hin), hplace, hnodup, hfault⟩

omit [DecidableEq ι] in
theorem InStep.next (h : InStep i e pc) (rest : List (EpollEvent ι))
    (hpc : pc.pending = writables rest) : InStep i e (forLoop rest) := by
  have hpending : (forLoop rest).pending = pc.pending := (pending_forLoop rest).trans hpc.symm
  refine h.others (fun hin => hpending ▸ hin) (hpending ▸ h.nodup) ?_ (forLoop_ne rest i).2
  exact fun rest' heq => absurd heq ((forLoop_ne rest i).1 rest')

omit [DecidableEq ι] in
theorem InStep.lock (h : InStep i e pc) (holder : Option Holder) :
    InStep i { e with writableLock := holder } pc :=
  ⟨h.related, h.armed, h.pending, h.unlocking, h.nodup, h.fault⟩

theorem InStep.step (h : InStep i e pc) (hx : Excl i e pc) (ha : a.abandoned ≠ some i)
    (hs : Seen i e pc a e' pc') : InStep i e' pc' := by
  cases hs with
  | worker hs =>
    refine hs.inStep hx h ?_ ?_
    · rintro rfl
      exact ha rfl
    · rintro rfl
      exact ha rfl
  | other => exact h
  | @report events hpc hnodup hi harmed =>
    refine ⟨h.related, nofun, fun _ => (h.armed harmed).1, ?_, ?_, (forLoop_ne events i).2⟩
    · exact fun rest heq => absurd heq ((forLoop_ne events i).1 rest)
    · rw [pending_forLoop]
      exact nodup_writables hnodup
  | @reportOther events hpc hnodup hi =>
    refine h.others ?_ ?_ ?_ (forLoop_ne events i).2
    · rw [pending_forLoop]
      exact fun hin => absurd (mem_of_writables hin) hi
    · rw [pending_forLoop]
      exact nodup_writables hnodup
    · exact fun rest heq => absurd heq ((forLoop_ne events i).1 rest)
  | fail => exact h.others nofun List.nodup_nil nofun nofun
  | @lock rest hpc _ =>
    rw [hpc] at h
    have hothers : InStep i e (.signal i rest) := h.others id h.nodup nofun nofun
    exact hothers.lock _
  | lockOther hpc _ =>
    rw [hpc] at h
    exact h.others id h.nodup nofun nofun
  | signal hpc =>
    rw [hpc] at h hx
    exact h.signal hx
  | signalOther hpc hne =>
    rw [hpc] at h
    refine h.others (List.mem_cons_of_mem _) (List.nodup_cons.mp h.nodup).2 ?_ nofun
    intro rest heq
    cases heq
    exact absurd rfl hne
  | @unlock rest hpc =>
    rw [hpc] at h
    exact (h.next rest rfl).lock _
  | @unlockOther ptr rest hpc hne =>
    rw [hpc] at h
    exact h.next rest rfl
  | @fault ptr rest hpc hlive =>
    refine h.others nofun List.nodup_nil nofun ?_
    intro heq
    cases heq
    have htouched := h.live_of_touched hpc
    rw [hlive rfl] at htouched
    cases htouched

theorem inStep_invariant (maxThreads : Nat) (i : ι) :
    ((blockingSenders ι maxThreads).restrict fun _ a => a.abandoned ≠ some i).Invariant fun s =>
      Excl i (s.event i) s.epoller ∧ InStep i (s.event i) s.epoller :=
  TransitionSystem.Invariant.restrict ⟨excl_init i, inStep_init i⟩ fun ⟨hx, h⟩ ha hs =>
    have hseen := (step_cases hs).seen i
    ⟨hx.step hseen, h.step hx ha hseen⟩

/-- **The epoller is in step with the worker.** Where no wait for the event ends before its signal,
the epoller never touches a lock or a monitor that is not there, each of its signals finds the
worker waiting, and the event is not armed again before. -/
theorem epoller_in_step
    (h : ((blockingSenders ι maxThreads).restrict fun _ a => a.abandoned ≠ some i).Reachable s) :
    s.epoller ≠ .fault i ∧ (∀ rest, s.epoller = .signal i rest → (s.event i).place = .waiting) ∧
      (i ∈ s.epoller.pending → (s.event i).armed = false) := by
  obtain ⟨hx, hstep⟩ := (inStep_invariant maxThreads i).of_reachable h
  refine ⟨hstep.fault, fun rest hpc => ?_, fun hpending => ?_⟩
  · rw [hpc] at hx hstep
    exact hx.waiting_of_signal (hstep.pending List.mem_cons_self)
  · rw [Bool.eq_false_iff]
    exact fun harmed => (hstep.armed harmed).2 hpending

theorem epoller_in_step_reportedEarly :
    ∃ s, ((blockingSenders Nat 4).restrict fun _ a => a.abandoned ≠ some 0).exec threadsInit
        (reportedEarly ++ [.epoller .run]) = some s ∧ s.epoller = .signal 0 [] ∧
      s.epoller ≠ .fault 0 ∧ (∀ rest, s.epoller = .signal 0 rest → (s.event 0).place = .waiting) ∧
      (0 ∈ s.epoller.pending → (s.event 0).armed = false) := by
  have hrun : (((blockingSenders Nat 4).restrict fun _ a => a.abandoned ≠ some 0).exec threadsInit
      (reportedEarly ++ [.epoller .run])).map (·.epoller) = some (.signal 0 []) := by rfl
  obtain ⟨s, hexec, hpc⟩ := Option.map_eq_some_iff.mp hrun
  exact ⟨s, hexec, hpc, epoller_in_step (TransitionSystem.reachable_of_exec _ hexec)⟩

/-- A time-out instead: the connection is closed and its event freed under the epoller. -/
example : ((blockingSenders Nat 4).exec threadsInit (reportedEarly ++
    [.worker 0 .timeout, .worker 0 .relock, .worker 0 .unlock, .worker 0 .del, .worker 0 .free,
      .epoller .run])).map (·.epoller) = some (.fault 0) := by rfl

/-! ## 2. Each report wakes its worker -/

/-- All connections have their workers in step with the epoller. -/
def InOrder (s : Threads ι) : Prop :=
  ∀ i, Excl i (s.event i) s.epoller ∧ InStep i (s.event i) s.epoller

theorem InOrder.step (h : InOrder s) (ha : a.abandoned = none)
    (hs : Writable.step maxThreads s a = some s') : InOrder s' := by
  intro i
  obtain ⟨hx, hstep⟩ := h i
  have hseen := (step_cases hs).seen i
  exact ⟨hx.step hseen, hstep.step hx (by rw [ha]; nofun) hseen⟩

theorem inOrder_invariant (maxThreads : Nat) :
    ((blockingSenders ι maxThreads).restrict fun _ a => a.abandoned = none).Invariant InOrder :=
  TransitionSystem.Invariant.restrict (fun i => ⟨excl_init i, inStep_init i⟩)
    fun h ha hs => h.step ha hs

variable {ptr : ι} {rest : List (EpollEvent ι)}

/-- A worker that has the lock of an event under way is about to wait. -/
theorem InOrder.free (h : InOrder s) (hpc : s.epoller = .lock ptr rest) :
    (s.event ptr).writableLock = none ∨ (s.event ptr).place = .wait := by
  obtain ⟨hx, hstep⟩ := h ptr
  rw [hpc] at hx hstep
  have hwaits := hstep.pending List.mem_cons_self
  -- Of the two places that wait, only the first one has the lock.
  cases hlock : (s.event ptr).writableLock with
  | none => exact .inl rfl
  | some holder =>
    cases holder with
    | worker =>
      right
      have hheld := hx.worker.mp hlock
      cases hplace : (s.event ptr).place with
      | wait => rfl
      | waiting =>
        rw [hplace] at hheld
        cases hheld
      | _ =>
        rw [hplace] at hwaits
        cases hwaits
    | epoller => exact (hx.left hlock).elim nofun nofun

/-- The epoller goes on, and workers that have armed their events go to sleep. -/
def Delivering : Act ι → Prop
  | .epoller .run | .worker _ .wait => True
  | _ => False

omit [DecidableEq ι] in
theorem abandoned_of_delivering (h : Delivering a) : a.abandoned = none := by
  unfold Delivering at h
  split at h
  · rfl
  · rfl
  · cases h

/-- At most so many of these steps until the worker of `i` has got its signal. -/
inductive Wakes (maxThreads : Nat) (i : ι) : Nat → Threads ι → Prop
  | woken {n : Nat} {s : Threads ι} : (s.event i).place = .relock true → Wakes maxThreads i n s
  | step {n : Nat} {s s' : Threads ι} {a : Act ι} : Delivering a →
      Writable.step maxThreads s a = some s' → Wakes maxThreads i n s' →
      Wakes maxThreads i (n + 1) s

theorem Wakes.mono {n m : Nat} (h : Wakes maxThreads i n s) (hle : n ≤ m) :
    Wakes maxThreads i m s := by
  induction h generalizing m with
  | woken hplace => exact .woken hplace
  | step ha hs _ ih =>
    cases m with
    | zero => cases hle
    | succ m => exact .step ha hs (ih (Nat.le_of_succ_le_succ hle))

theorem Wakes.exec {n : Nat} (h : Wakes maxThreads i n s) :
    ∃ l s', l.length ≤ n ∧ (∀ a ∈ l, Delivering a) ∧
      (blockingSenders ι maxThreads).exec s l = some s' ∧ (s'.event i).place = .relock true := by
  induction h with
  | woken hplace => exact ⟨[], _, Nat.zero_le _, nofun, rfl, hplace⟩
  | @step n s s₁ a ha hs _ ih =>
    obtain ⟨l, s', hlen, hl, hexec, hplace⟩ := ih
    refine ⟨a :: l, s', Nat.succ_le_succ hlen, List.forall_mem_cons.mpr ⟨ha, hl⟩, ?_, hplace⟩
    show (Writable.step maxThreads s a).bind _ = _
    rw [hs]
    exact hexec

theorem InOrder.wakes (h : InOrder s) (ha : Delivering a)
    (hs : Writable.step maxThreads s a = some s') {n : Nat}
    (hnext : InOrder s' → Wakes maxThreads i n s') : Wakes maxThreads i (n + 1) s :=
  .step ha hs (hnext (h.step (abandoned_of_delivering ha) hs))

/-! One step of the epoller each, where the event is there and its lock is free. -/

theorem InOrder.wakes_signal (h : InOrder s) (hpc : s.epoller = .signal ptr rest) {n : Nat}
    (hnext : i ≠ ptr → ∀ s', InOrder s' → s'.epoller = .unlock ptr rest →
      Wakes maxThreads i n s') : Wakes maxThreads i (n + 1) s := by
  have hlive := (h ptr).2.live_of_touched (.inr (.inl hpc))
  have hs : Writable.step maxThreads s (.epoller .run) =
      some { s.setEvent ptr (s.event ptr).signal with epoller := .unlock ptr rest } := by
    simp only [Writable.step, epollerStep, hpc, if_pos hlive]
  refine h.wakes (a := .epoller .run) trivial hs fun hafter => ?_
  -- The signal is the one that `i` waits for, or there are others before it.
  by_cases hi : i = ptr
  · subst hi
    exact .woken ((hafter i).2.unlocking rest rfl)
  · exact hnext hi _ hafter rfl

theorem InOrder.wakes_unlock (h : InOrder s) (hpc : s.epoller = .unlock ptr rest) {n : Nat}
    (hnext : ∀ s', InOrder s' → s'.epoller = forLoop rest → Wakes maxThreads i n s') :
    Wakes maxThreads i (n + 1) s := by
  have hlive := (h ptr).2.live_of_touched (.inr (.inr hpc))
  have hs : Writable.step maxThreads s (.epoller .run) =
      some { s.setEvent ptr { s.event ptr with writableLock := none } with
        epoller := forLoop rest } := by
    simp only [Writable.step, epollerStep, hpc, if_pos hlive]
  exact h.wakes (a := .epoller .run) trivial hs fun hafter => hnext _ hafter rfl

theorem InOrder.wakes_free (h : InOrder s) (hpc : s.epoller = .lock ptr rest)
    (hfree : (s.event ptr).writableLock = none) {n : Nat}
    (hnext : ∀ s', InOrder s' → s'.epoller = .signal ptr rest → Wakes maxThreads i n s') :
    Wakes maxThreads i (n + 1) s := by
  have hlive := (h ptr).2.live_of_touched (.inl hpc)
  have hs : Writable.step maxThreads s (.epoller .run) =
      some { s.setEvent ptr { s.event ptr with writableLock := some .epoller } with
        epoller := .signal ptr rest } := by
    simp only [Writable.step, epollerStep, hpc, if_pos hlive, if_pos hfree]
  exact h.wakes (a := .epoller .run) trivial hs fun hafter => hnext _ hafter rfl

/-- Where the lock is not free, its worker gives it back with its next step. -/
theorem InOrder.wakes_lock (h : InOrder s) (hpc : s.epoller = .lock ptr rest) {n : Nat}
    (hnext : ∀ s', InOrder s' → s'.epoller = .signal ptr rest → Wakes maxThreads i n s') :
    Wakes maxThreads i (n + 2) s := by
  rcases h.free hpc with hfree | hwait
  · exact (h.wakes_free hpc hfree hnext).mono (Nat.le_succ _)
  · have hs : Writable.step maxThreads s (.worker ptr .wait) =
        some (s.setEvent ptr { s.event ptr with place := .waiting, writableLock := none }) := by
      simp only [Writable.step, QSSEPollEvent.step, if_pos hwait, Option.map_some]
    refine h.wakes (a := .worker ptr .wait) trivial hs fun hafter => ?_
    refine hafter.wakes_free hpc ?_ hnext
    show (Function.update s.event ptr _ ptr).writableLock = none
    rw [Function.update_self]

/-- The events behind the one at hand, in the order of `epEvents`. -/
theorem InOrder.wakes_rest (k : Nat) : ∀ {s : Threads ι} {ptr : ι} {rest : List (EpollEvent ι)},
    InOrder s → s.epoller = .unlock ptr rest → i ∈ writables rest → (writables rest).length = k →
    Wakes maxThreads i (4 * k + 1) s := by
  induction k with
  | zero =>
    intro s ptr rest _ _ hi hlen
    rw [List.length_eq_zero_iff.mp hlen] at hi
    cases hi
  | succ k ih =>
    intro s ptr rest h hpc hi hlen
    apply h.wakes_unlock hpc
    intro s₁ h₁ hpc₁
    have hpending := pending_forLoop rest
    rcases forLoop_cases rest with hpoll | ⟨ptr', rest', hlock⟩
    · rw [← hpending, hpoll] at hi
      cases hi
    · -- The next event with `EPOLLOUT`: it is `i`, or `i` comes behind it.
      rw [hlock] at hpc₁ hpending
      rw [← hpending] at hi hlen
      refine h₁.wakes_lock hpc₁ fun s₂ h₂ hpc₂ => ?_
      refine h₂.wakes_signal hpc₂ fun hne s₃ h₃ hpc₃ => ?_
      exact ih h₃ hpc₃ (List.mem_of_ne_of_mem hne hi) (Nat.succ.inj hlen)

/-- **Each report wakes its worker.** In a run in which no wait ends before its signal, nothing
stands in the way of the epoller: from every state, an event that has been reported gets its signal
within four steps for each event of the batch, taken by the epoller and by workers that go to
sleep. -/
theorem reported_wakes
    (h : ((blockingSenders ι maxThreads).restrict fun _ a => a.abandoned = none).Reachable s)
    (hi : i ∈ s.epoller.pending) :
    ∃ l s', l.length ≤ 4 * s.epoller.pending.length + 1 ∧ (∀ a ∈ l, Delivering a) ∧
      (blockingSenders ι maxThreads).exec s l = some s' ∧ (s'.event i).place = .relock true := by
  have hI := (inOrder_invariant maxThreads).of_reachable h
  apply Wakes.exec
  cases hpc : s.epoller with
  | lock ptr rest =>
    rw [hpc] at hi
    refine (hI.wakes_lock hpc fun s₁ h₁ hpc₁ => h₁.wakes_signal hpc₁ fun hne s₂ h₂ hpc₂ =>
      InOrder.wakes_rest _ h₂ hpc₂ (List.mem_of_ne_of_mem hne hi) rfl).mono ?_
    show 4 * (writables rest).length + 1 + 1 + 2 ≤ 4 * ((writables rest).length + 1) + 1
    omega
  | signal ptr rest =>
    rw [hpc] at hi
    refine (hI.wakes_signal hpc fun hne s₁ h₁ hpc₁ =>
      InOrder.wakes_rest _ h₁ hpc₁ (List.mem_of_ne_of_mem hne hi) rfl).mono ?_
    show 4 * (writables rest).length + 1 + 1 ≤ 4 * ((writables rest).length + 1) + 1
    omega
  | unlock ptr rest =>
    rw [hpc] at hi
    exact InOrder.wakes_rest _ hI hpc hi rfl
  | poll | ended | fault =>
    rw [hpc] at hi
    cases hi

theorem reported_wakes_reportedEarly :
    ∃ s, ((blockingSenders Nat 4).restrict fun _ a => a.abandoned = none).exec threadsInit
        reportedEarly = some s ∧ s.epoller = .lock 0 [] ∧
      ∃ l s', l.length ≤ 4 * s.epoller.pending.length + 1 ∧ (∀ a ∈ l, Delivering a) ∧
        (blockingSenders Nat 4).exec s l = some s' ∧ (s'.event 0).place = .relock true := by
  have hrun : (((blockingSenders Nat 4).restrict fun _ a => a.abandoned = none).exec threadsInit
      reportedEarly).map (·.epoller) = some (.lock 0 []) := by rfl
  obtain ⟨s, hexec, hpc⟩ := Option.map_eq_some_iff.mp hrun
  have hpending : 0 ∈ s.epoller.pending := by
    rw [hpc]
    exact List.mem_cons_self
  exact ⟨s, hexec, hpc, reported_wakes (TransitionSystem.reachable_of_exec _ hexec) hpending⟩

end CcPof.Writable
