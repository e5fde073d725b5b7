import CcPof.ThreadPool.WakeUp

/-!
# The end of the pool

`pool_destroy` joins its workers before it destroys the mutex and the condition variable and frees
the pool, but `pool_init` has created them detached, so `pthread_join` waits for none of them.
-/

namespace CcPof.ThreadPool

variable {F S : Type} {n : Nat}

/-- `pool_destroy` destroys the mutex and the condition variable and frees the pool, or has done so. -/
def DestroyPc.destroys : DestroyPc → Bool
  | destroyMutex | destroyCond | freePool => true
  | returned ret => ret = 0
  | _ => false

/-- `pool_destroy` has come so far that it has called `pthread_join` for the worker `w`. -/
def DestroyPc.joined (w : Nat) : DestroyPc → Bool
  | idle | testShutdown | setShutdown | broadcast => false
  | join i => w < i
  | returned ret => ret = 0
  | _ => true

theorem DestroyPc.joined_of_destroys {pc : DestroyPc} (h : pc.destroys = true) (w : Nat) :
    pc.joined w = true := by
  cases pc <;> first | rfl | exact h | cases h

/-- When `pthread_join` is called for a worker, the worker has exited. -/
def JoinOk (s : Pool F S n) : Act F S n → Prop
  | .poolDestroy => ∀ w : Fin n, s.destroyer = .join w → s.pc (.worker w) = .exited
  | _ => True

instance (s : Pool F S n) : ∀ a, Decidable (JoinOk s a)
  | .poolDestroy => inferInstanceAs (Decidable (∀ _, _ → _))
  | .mallocArg _ | .poolAddWorker .. | .advance _ | .signal .. | .spurious _ => isTrue trivial

/-- The workers that were joined have exited. -/
def JoinedExited (s : Pool F S n) : Prop :=
  ∀ w : Fin n, s.destroyer.joined w = true → s.pc (.worker w) = .exited

theorem JoinedExited.poolDestroy {s s' : Pool F S n} (h : JoinedExited s)
    (hok : ∀ w : Fin n, s.destroyer = .join w → s.pc (.worker w) = .exited)
    (hs : poolDestroy s = some s') : JoinedExited s' := by
  unfold CcPof.ThreadPool.poolDestroy at hs
  split at hs
  case h_4 hpc =>
    -- No worker is joined yet.
    cases hs
    intro w hw
    have hlt : (w : Nat) < 0 := of_decide_eq_true (show decide ((w : Nat) < 0) = true from hw)
    exact absurd hlt (Nat.not_lt_zero _)
  case h_5 i hpc =>
    split at hs
    · rename_i hi
      split at hs
      · cases hs
        intro w hw
        rcases Nat.lt_or_eq_of_le (Nat.lt_succ_iff.mp (of_decide_eq_true hw)) with hlt | rfl
        · exact h w (by rw [hpc]; exact decide_eq_true hlt)
        · exact hok w hpc
      · cases hs
    · -- All indices of workers are below `i`.
      rename_i hi
      cases hs
      intro w _
      exact h w (by rw [hpc]; exact decide_eq_true (by have := w.isLt; omega))
  case h_8 head hpc =>
    rw [Option.map_eq_some_iff] at hs
    rcases hs with ⟨node, -, rfl⟩
    exact fun w _ => h w (by rw [hpc]; rfl)
  case h_1 | h_3 =>
    cases hs
    exact fun w hw => nomatch hw
  case h_2 =>
    split at hs <;> cases hs <;> exact fun w hw => nomatch hw
  case h_7 hpc =>
    split at hs <;> cases hs <;> exact fun w _ => h w (by rw [hpc]; rfl)
  case h_13 => cases hs
  all_goals
    rename_i hpc
    cases hs
    exact fun w _ => h w (by rw [hpc]; rfl)

section Step

variable [DecidableEq S] {s s' : Pool F S n} {t : Thread n S} {pc : Pc}

/-- A thread that has exited moves no more. -/
theorem JoinedExited.goto (h : JoinedExited s) (hdest : s'.destroyer = s.destroyer)
    (hpc : s'.pc = Function.update s.pc t pc) (ht : s.pc t ≠ .exited) : JoinedExited s' := by
  intro w hw
  rw [hdest] at hw
  have hexited := h w hw
  have hwt : Thread.worker w ≠ t := by
    rintro rfl
    exact ht hexited
  rw [hpc, Function.update_of_ne hwt]
  exact hexited

theorem ne_exited_of_advance (hs : Advance s t s') : s.pc t ≠ .exited := by
  intro hexited
  cases hs <;> simp_all

theorem joinedExited_advance (h : JoinedExited s) (hs : Advance s t s') : JoinedExited s' := by
  have ht := ne_exited_of_advance hs
  cases hs <;> exact h.goto rfl rfl ht

theorem joinedExited_step {a : Act F S n} (h : JoinedExited s) (hok : JoinOk s a)
    (hs : Step s a s') : JoinedExited s' := by
  cases hs with
  | mallocArg _ => exact h
  | poolAddWorker hpc _ => exact h.goto rfl rfl (by rw [hpc]; nofun)
  | advance hadv => exact joinedExited_advance h hadv
  | signalNone hpc _ => exact h.goto rfl rfl (by rw [hpc]; nofun)
  | @signalSome t w hpc hwait =>
    have hwoken : JoinedExited (s.goto (.worker w) .woken) :=
      h.goto rfl rfl (by rw [hwait]; nofun)
    have ht : t ≠ .worker w := by
      rintro rfl
      rw [hpc] at hwait
      cases hwait
    refine hwoken.goto rfl rfl ?_
    rw [Pool.pc_goto_of_ne _ ht, hpc]
    nofun
  | spurious hpc => exact h.goto rfl rfl (by rw [hpc]; nofun)
  | poolDestroy hd => exact h.poolDestroy hok hd

theorem joinedExited_invariant : ((threadPool F S n).restrict JoinOk).Invariant JoinedExited := by
  apply TransitionSystem.Invariant.restrict
  · intro w hw
    cases hw
  · intro s s' a hI hok hs
    exact joinedExited_step hI hok (step_cases hs)

/-! ## `pool_destroy` behind the broadcast, with no other thread in between -/

omit [DecidableEq S] in
theorem detached_of_poolDestroy (hs : poolDestroy s = some s') : s'.detached = s.detached := by
  unfold poolDestroy at hs
  split at hs
  case h_8 =>
    rw [Option.map_eq_some_iff] at hs
    rcases hs with ⟨node, -, rfl⟩
    rfl
  case h_5 =>
    split at hs
    · split at hs <;> cases hs
      rfl
    · cases hs
      rfl
  all_goals first
    | cases hs
      rfl
    | split at hs <;> cases hs <;> rfl
    | cases hs

theorem detached_step {a : Act F S n} (h : s.detached = true) (hs : Step s a s') :
    s'.detached = true := by
  cases hs with
  | advance hadv => cases hadv <;> exact h
  | poolDestroy hd => rw [detached_of_poolDestroy hd, h]
  | mallocArg | poolAddWorker | signalNone | signalSome | spurious => exact h

theorem detached_invariant : (threadPool F S n).Invariant fun s => s.detached = true where
  init := rfl
  step h hs := detached_step h (step_cases hs)

/-- `k` statements of `pool_destroy` after each other. -/
abbrev execDestroy (k : Nat) (s : Pool F S n) : Option (Pool F S n) :=
  (threadPool F S n).exec s (List.replicate k .poolDestroy)

theorem execDestroy_succ {k : Nat} {r : Pool F S n} (hs : poolDestroy s = some s')
    (h : execDestroy k s' = some r) : execDestroy (k + 1) s = some r := by
  show (step s .poolDestroy).bind _ = _
  rw [show step s .poolDestroy = poolDestroy s from rfl, hs]
  exact h

/-- The joins wait for no detached thread. -/
theorem join_all (hd : s.detached = true) {i : Nat} (hi : i ≤ n) (hj : s.destroyer = .join i) :
    execDestroy (n - i) s = some { s with destroyer := .join n } := by
  induction hk : n - i generalizing s i with
  | zero =>
    have hin : i = n := by omega
    subst hin
    rw [← hj]
    rfl
  | succ k ih =>
    have hlt : i < n := by omega
    have hjoin : poolDestroy s = some { s with destroyer := .join (i + 1) } := by
      unfold poolDestroy
      rw [hj]
      simp only [hd, hlt, true_or, if_true, dite_true]
    apply execDestroy_succ hjoin
    exact ih (s := { s with destroyer := .join (i + 1) }) hd hlt rfl (by omega)

/-- The loop that frees the queue, on a queue of live nodes that nobody changes meanwhile. -/
theorem drain_all {q : List Addr} (hd : s.destroyer = .readHead)
    (hchain : Chain s.next s.queueHead q) (hlive : ∀ a ∈ q, (s.nodes a).isSome) :
    ∃ k s', execDestroy k s = some s' ∧ s'.destroyer = .destroyMutex ∧ s'.pc = s.pc ∧
      s'.args = s.args := by
  induction q generalizing s with
  | nil =>
    have hhead : s.queueHead = none := hchain
    refine ⟨1, { s with destroyer := .destroyMutex }, ?_, rfl, rfl, rfl⟩
    have hempty : poolDestroy s = some { s with destroyer := .destroyMutex } := by
      simp only [poolDestroy, hd, hhead]
    exact execDestroy_succ hempty rfl
  | cons a q ih =>
    rcases hchain with ⟨hhead, hchain⟩
    rcases Option.isSome_iff_exists.mp (hlive a List.mem_cons_self) with ⟨node, hnode⟩
    have hnext : s.next a = node.next := by rw [Pool.next, hnode]; rfl
    rw [hnext] at hchain
    have haq : a ∉ q := by
      have hfull : Chain s.next (some a) (a :: q) := ⟨rfl, by rw [hnext]; exact hchain⟩
      exact (List.nodup_cons.mp hfull.nodup).1
    -- The rest of the queue does not meet the node that is freed.
    have hsame : ∀ b ∈ q, Function.update s.nodes a none b = s.nodes b := by
      intro b hb
      refine Function.update_of_ne ?_ ..
      rintro rfl
      exact haq hb
    -- The three statements of one round.
    let s₁ : Pool F S n := { s with destroyer := .advanceHead a }
    let s₂ : Pool F S n := { s with queueHead := node.next, destroyer := .freeHead a }
    let s₃ : Pool F S n := { s with
      queueHead := node.next
      nodes := Function.update s.nodes a none
      destroyer := .readHead }
    have h₁ : poolDestroy s = some s₁ := by
      simp only [poolDestroy, hd, hhead, s₁]
    have h₂ : poolDestroy s₁ = some s₂ := by
      unfold poolDestroy
      show (s.nodes a).map _ = _
      rw [hnode]
      rfl
    have h₃ : poolDestroy s₂ = some s₃ := rfl
    have hlive₃ : ∀ b ∈ q, (s₃.nodes b).isSome := by
      intro b hb
      show (Function.update s.nodes a none b).isSome
      rw [hsame b hb]
      exact hlive b (List.mem_cons_of_mem a hb)
    have hchain₃ : Chain s₃.next s₃.queueHead q :=
      hchain.congr fun b hb => Pool.next_of_nodes (hsame b hb)
    rcases ih (s := s₃) rfl hchain₃ hlive₃ with ⟨k, s', hs', hrest⟩
    exact ⟨k + 3, s', execDestroy_succ h₁ (execDestroy_succ h₂ (execDestroy_succ h₃ hs')), hrest⟩

theorem execDestroy_add {k l : Nat} {r : Pool F S n} (h : execDestroy k s = some s')
    (h' : execDestroy l s' = some r) : execDestroy (k + l) s = some r := by
  unfold execDestroy at *
  rw [List.replicate_add, TransitionSystem.exec_append, h]
  exact h'

/-- From a join on, `pool_destroy` comes to the destruction of the mutex by itself. -/
theorem destroys_from_join {q : List Addr} (hlinked : Linked s q) (hd : s.detached = true)
    {i : Nat} (hi : i ≤ n) (hj : s.destroyer = .join i) :
    ∃ k s', execDestroy k s = some s' ∧ s'.destroyer = .destroyMutex ∧ s'.pc = s.pc ∧
      s'.args = s.args := by
  let s₁ : Pool F S n := { s with destroyer := .join n }
  let s₂ : Pool F S n := { s with destroyer := .freeThreadid }
  let s₃ : Pool F S n := { s with destroyer := .readHead }
  have h₁ : execDestroy (n - i) s = some s₁ := join_all hd hi hj
  have h₂ : poolDestroy s₁ = some s₂ := by
    unfold poolDestroy
    show (if h : n < n then _ else some s₂) = _
    rw [dif_neg (Nat.lt_irrefl n)]
  have h₃ : poolDestroy s₂ = some s₃ := rfl
  rcases drain_all (s := s₃) rfl hlinked.chain hlinked.live with ⟨k, s', hs', hrest⟩
  have hdrained := execDestroy_succ h₂ (execDestroy_succ h₃ hs')
  exact ⟨_, s', execDestroy_add h₁ hdrained, hrest⟩

/-- When every worker has exited before `pthread_join` is called for it, the workers are gone when
the mutex is destroyed. A worker that has not may still use the pool then. -/
theorem pool_outlives_workers :
    (∀ s : Pool F S n, ((threadPool F S n).restrict JoinOk).Reachable s →
      s.destroyer.destroys = true → ∀ w, s.pc (.worker w) = .exited) ∧
    ∀ (s : Pool F S n) (w : Fin n), ((threadPool F S n).restrict JoinOk).Reachable s →
      s.destroyer = .join w → s.pc (.worker w) ≠ .exited →
      ∃ k s', (threadPool F S n).exec s (List.replicate k .poolDestroy) = some s' ∧
        s'.destroyer.destroys = true ∧ s'.pc (.worker w) = s.pc (.worker w) := by
  constructor
  · intro s hs hd w
    exact joinedExited_invariant.of_reachable hs w (DestroyPc.joined_of_destroys hd w)
  · intro s w hs hj _
    have hreach := TransitionSystem.Reachable.of_restrict hs
    rcases (linked_invariant.of_reachable hreach).2 (by rw [hj]; rfl) with ⟨q, hq⟩
    have hdetached := detached_invariant.of_reachable hreach
    rcases destroys_from_join hq hdetached (Nat.le_of_lt w.isLt) hj with ⟨k, s', hs', hd, hpc, -⟩
    exact ⟨k, s', hs', by rw [hd]; rfl, by rw [hpc]⟩

end Step

/-- The only worker waits when `pool_destroy` is called, leaves, and is joined afterwards. -/
def destroyAfterExit : List (Act Unit Bool 1) :=
  [.advance soleWorker, .advance soleWorker, .advance soleWorker, .poolDestroy, .poolDestroy,
    .poolDestroy, .poolDestroy, .advance soleWorker, .advance soleWorker, .advance soleWorker,
    .advance soleWorker, .poolDestroy, .poolDestroy, .poolDestroy, .poolDestroy]

theorem pool_outlives_workers_destroyAfterExit :
    ∃ s, ((threadPool Unit Bool 1).restrict JoinOk).exec (poolInit Unit Bool 1)
        destroyAfterExit = some s ∧
      s.destroyer = .destroyMutex ∧ s.pc (.worker 0) = .exited := by
  refine ⟨_, rfl, rfl, ?_⟩
  exact pool_outlives_workers.1 _
    (TransitionSystem.reachable_of_exec _ (l := destroyAfterExit) rfl) rfl 0

/-- The only worker executes a task when `pool_destroy` is called. -/
def destroyDuringTask : List (Act Unit Bool 1) :=
  [.mallocArg 100, .poolAddWorker (.submitter false) () 100 1, .advance (.submitter false),
    .advance (.submitter false), .advance (.submitter false), .advance (.submitter false),
    .advance soleWorker, .advance soleWorker, .advance soleWorker, .advance soleWorker,
    .advance soleWorker, .advance soleWorker, .advance soleWorker, .poolDestroy, .poolDestroy,
    .poolDestroy, .poolDestroy, .poolDestroy, .poolDestroy, .poolDestroy, .poolDestroy,
    .poolDestroy, .poolDestroy, .poolDestroy]

theorem pool_freed_during_task :
    ∃ s, (threadPool Unit Bool 1).exec (poolInit Unit Bool 1) destroyDuringTask = some s ∧
      s.destroyer = .returned 0 ∧ s.pc (.worker 0) = .run 1 100 := by
  refine ⟨_, rfl, rfl, rfl⟩

end CcPof.ThreadPool
