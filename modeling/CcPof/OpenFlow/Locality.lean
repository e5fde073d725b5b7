import CcPof.OpenFlow.Footprint

/-!
# The decoder stays inside the message

What the decoder returns for a message that it accepts depends on the bytes of the message only, not
on what lies behind it in memory. Three ways out are known: a counter that has wrapped, an element
decoder whose failure was ignored, and the strings of a DESC reply.

`Tracks` compares the decoder on two memories. It says so for a run that ends well, because only the
end shows that no counter has wrapped on the way.
-/

namespace CcPof.OpenFlow

variable {L : OflLib} {α β γ : Type} {buf buf' : Mem} {pos k n : Nat} {x x' y' : Unpack α}
  {f f' : α → Unpack β} {g g' : Nat → Except OflErr α × Nat} {e : OflErr}

/-! ## 1. Runs on two memories -/

/-- No counter has wrapped, and no element decoder has failed. -/
structure UnpackState.Clean (s : UnpackState) : Prop where
  wrapped : s.wrapped = false
  failed : s.failed = false

/-- What ends clean was clean before, with the `k` bytes at `pos` still to be read; and it runs the
same when the memories agree up to the end of these bytes. -/
def Tracks (buf buf' : Mem) (pos k : Nat) (x x' : Unpack α) : Prop :=
  ∀ s a s', s.len = k → x s = .ok a s' → s'.Clean →
    s.Clean ∧ (AgreeOn 0 (pos + k) buf buf' → x' s = .ok a s')

namespace Tracks

theorem congr (hx : AgreeOn 0 (pos + k) buf buf' → x' = y') (h : Tracks buf buf' pos k x y') :
    Tracks buf buf' pos k x x' := by
  intro s a s' hk hrun hclean
  obtain ⟨hs, hsame⟩ := h s a s' hk hrun hclean
  exact ⟨hs, fun hagree => hx hagree ▸ hsame hagree⟩

theorem pure {a a' : α} (h : AgreeOn 0 (pos + k) buf buf' → a = a') :
    Tracks buf buf' pos k (pure a) (pure a') := by
  intro s b s' _ hrun hclean
  cases hrun
  exact ⟨hclean, fun hagree => by rw [h hagree, pure_run]⟩

theorem throw {e : Fault} : Tracks buf buf' pos k (throw e : Unpack α) (throw e) := by
  intro s a s' _ hrun
  cases hrun

theorem map {h : α → β} (hx : Tracks buf buf' pos k x x') :
    Tracks buf buf' pos k (h <$> x) (h <$> x') := by
  intro s b s' hk hrun hclean
  obtain ⟨a, hrun, hb⟩ := map_eq_ok_iff.mp hrun
  obtain ⟨hs, hsame⟩ := hx s a s' hk hrun hclean
  exact ⟨hs, fun hagree => map_eq_ok_iff.mpr ⟨a, hsame hagree, hb⟩⟩

/-- The last step reads what lies in front. -/
theorem bind_pure {h h' : α → β} (hx : Tracks buf buf' pos k x x')
    (hh : AgreeOn 0 (pos + k) buf buf' → h = h') :
    Tracks buf buf' pos k (x >>= fun a => Pure.pure (h a)) (x' >>= fun a => Pure.pure (h' a)) := by
  intro s b s' hk hrun hclean
  obtain ⟨a, s₁, hrun, hb⟩ := bind_eq_ok_iff.mp hrun
  cases hb
  obtain ⟨hs, hsame⟩ := hx s a s' hk hrun hclean
  refine ⟨hs, fun hagree => bind_eq_ok_iff.mpr ⟨a, s', hsame hagree, ?_⟩⟩
  rw [hh hagree, pure_run]

theorem requireLen {f f' : Unit → Unpack β} (h : n ≤ k → Tracks buf buf' pos k (f ()) (f' ())) :
    Tracks buf buf' pos k (requireLen n e >>= f) (requireLen n e >>= f') := by
  intro s b s' hk hrun hclean
  by_cases hle : n ≤ s.len
  · rw [bind_run, requireLen_run hle] at hrun ⊢
    exact h (hk ▸ hle) s b s' hk hrun hclean
  · rw [bind_run, requireLen_reject (Nat.lt_of_not_le hle)] at hrun
    cases hrun

theorem rejectIf {c c' : Prop} [Decidable c] [Decidable c'] {f f' : Unit → Unpack β}
    (hc : AgreeOn 0 (pos + k) buf buf' → (c ↔ c')) (h : Tracks buf buf' pos k (f ()) (f' ())) :
    Tracks buf buf' pos k (rejectIf c e >>= f) (rejectIf c' e >>= f') := by
  intro s b s' hk hrun hclean
  by_cases hreject : c
  · rw [bind_run, rejectIf_reject hreject] at hrun
    cases hrun
  · rw [bind_run, rejectIf_run hreject] at hrun
    obtain ⟨hs, hsame⟩ := h s b s' hk hrun hclean
    refine ⟨hs, fun hagree => ?_⟩
    rw [bind_run, rejectIf_run (mt (hc hagree).mpr hreject)]
    exact hsame hagree

/-- A counter that wraps stays wrapped to the end. -/
theorem le_of_subLen {s s' : UnpackState} {b : β} {f f' : Unit → Unpack β}
    (h : ∀ k, Tracks buf buf' pos k (f ()) (f' ())) (hrun : (subLen n >>= f) s = .ok b s')
    (hclean : s'.Clean) : n ≤ s.len := by
  by_contra hlt
  rw [bind_run] at hrun
  -- The flag would be set here, and with it at the end.
  have hwrapped := (h _ _ b s' rfl hrun hclean).1.wrapped
  rw [decide_eq_true (Nat.lt_of_not_le hlt), Bool.or_true] at hwrapped
  cases hwrapped

theorem subLen {f f' : Unit → Unpack β} (h : ∀ k, Tracks buf buf' (pos + n) k (f ()) (f' ())) :
    Tracks buf buf' pos k (subLen n >>= f) (subLen n >>= f') := by
  intro s b s' hk hrun hclean
  have hle := le_of_subLen h hrun hclean
  rw [bind_run, subLen_run hle] at hrun ⊢
  obtain ⟨hs, hsame⟩ := h _ _ b s' rfl hrun hclean
  refine ⟨⟨hs.wrapped, hs.failed⟩, fun hagree => hsame ?_⟩
  exact hagree.mono le_rfl (by dsimp only; omega)

theorem takeRest {off : Nat} {f f' : List UInt8 → Unpack β} (hoff : off ≤ pos)
    (h : ∀ data, Tracks buf buf' pos 0 (f data) (f' data)) :
    Tracks buf buf' pos k (takeRest buf off >>= f) (takeRest buf' off >>= f') := by
  intro s b s' hk hrun hclean
  rw [bind_run, takeRest_run] at hrun ⊢
  obtain ⟨hs, hsame⟩ := h _ _ b s' rfl hrun hclean
  refine ⟨⟨hs.wrapped, hs.failed⟩, fun hagree => ?_⟩
  rw [← hagree.load (Nat.zero_le _) (by omega)]
  exact hsame (hagree.mono le_rfl (Nat.le_add_right _ _))

theorem get {f f' : UnpackState → Unpack β}
    (h : ∀ s, s.len = k → Tracks buf buf' pos k (f s) (f' s)) :
    Tracks buf buf' pos k (get >>= f) (get >>= f') := by
  intro s b s' hk hrun hclean
  rw [bind_run, get_run] at hrun ⊢
  exact h s hk s b s' hk hrun hclean

theorem orReturn {r r' : Except OflErr α} (hr : AgreeOn 0 (pos + k) buf buf' → r = r')
    (h : ∀ a, r = .ok a → Tracks buf buf' pos k (f a) (f' a)) :
    Tracks buf buf' pos k (orReturn r >>= f) (orReturn r' >>= f') := by
  intro s b s' hk hrun hclean
  cases hres : r with
  | error e =>
    rw [hres, bind_run, orReturn_error] at hrun
    cases hrun
  | ok a =>
    rw [hres, bind_run, orReturn_ok] at hrun
    obtain ⟨hs, hsame⟩ := h a hres s b s' hk hrun hclean
    refine ⟨hs, fun hagree => ?_⟩
    rw [← hr hagree, hres, bind_run, orReturn_ok]
    exact hsame hagree

/-- Behind an element the rest of the message starts at another place. -/
theorem nestedOrReturn (hg : AgreeOn 0 (pos + k) buf buf' → g k = g' k)
    (h : ∀ a l, g k = (.ok a, l) →
      ∃ next, next + l ≤ pos + k ∧ Tracks buf buf' next l (f a) (f' a)) :
    Tracks buf buf' pos k (nestedOrReturn g >>= f) (nestedOrReturn g' >>= f') := by
  intro s b s' hk hrun hclean
  subst hk
  obtain ⟨r, l, hrl⟩ : ∃ r l, g s.len = (r, l) := ⟨_, _, rfl⟩
  cases r with
  | error e =>
    rw [bind_run, nestedOrReturn_error hrl] at hrun
    cases hrun
  | ok a =>
    rw [bind_run, nestedOrReturn_ok hrl] at hrun
    obtain ⟨next, hle, htracks⟩ := h a l hrl
    obtain ⟨hs, hsame⟩ := htracks _ b s' rfl hrun hclean
    refine ⟨⟨hs.wrapped, hs.failed⟩, fun hagree => ?_⟩
    rw [bind_run, nestedOrReturn_ok (hg hagree ▸ hrl)]
    exact hsame (hagree.mono le_rfl hle)

end Tracks

/-- What has failed stays failed. -/
def Sticky (x : Unpack α) : Prop :=
  ∀ s a s', x s = .ok a s' → s'.failed = false → s.failed = false

namespace Sticky

theorem pure (a : α) : Sticky (pure a) := by
  intro s b s' hrun hfailed
  cases hrun
  exact hfailed

theorem bind (hx : Sticky x) (hf : ∀ a, Sticky (f a)) : Sticky (x >>= f) := by
  intro s b s' hrun hfailed
  obtain ⟨a, s₁, hx₁, hf₁⟩ := bind_eq_ok_iff.mp hrun
  exact hx s a s₁ hx₁ (hf a s₁ b s' hf₁ hfailed)

theorem subLen (n : Nat) : Sticky (subLen n) := by
  intro s _ s' hrun hfailed
  cases hrun
  exact hfailed

theorem takeRest (buf : Mem) (off : Nat) : Sticky (takeRest buf off) := by
  intro s _ s' hrun hfailed
  cases hrun
  exact hfailed

theorem nested (g : Nat → Except OflErr α × Nat) : Sticky (nested g) := by
  intro s _ s' hrun hfailed
  cases hrun
  exact (Bool.or_eq_false_iff.mp hfailed).1

theorem unpackArrLax {stale : α} {unpack : ElemDecoder α} {stride : Mem → Nat → Nat} (n : Nat) :
    ∀ pos, Sticky (unpackArrLax stale unpack stride buf n pos) := by
  induction n with
  | zero => exact fun _ => pure []
  | succ n ih => exact fun _ => (nested _).bind fun _ => (ih _).bind fun _ => pure _

end Sticky

/-- The result of the element decoder is looked at later, or never. -/
theorem Tracks.nested {f f' : Except OflErr α → Unpack β}
    (hg : AgreeOn 0 (pos + k) buf buf' → g k = g' k) (hf : ∀ r, Sticky (f r))
    (h : ∀ a l, g k = (.ok a, l) →
      ∃ next, next + l ≤ pos + k ∧ Tracks buf buf' next l (f (.ok a)) (f' (.ok a))) :
    Tracks buf buf' pos k (nested g >>= f) (nested g' >>= f') := by
  intro s b s' hk hrun hclean
  subst hk
  obtain ⟨r, l, hrl⟩ : ∃ r l, g s.len = (r, l) := ⟨_, _, rfl⟩
  cases r with
  | error e =>
    rw [bind_run] at hrun
    -- Nothing behind clears the flag.
    have hfailed := hf _ _ b s' hrun hclean.failed
    rw [hrl] at hfailed
    cases (Bool.or_eq_false_iff.mp hfailed).2
  | ok a =>
    rw [bind_run, nested_ok hrl] at hrun
    obtain ⟨next, hle, htracks⟩ := h a l hrl
    obtain ⟨hs, hsame⟩ := htracks _ b s' rfl hrun hclean
    refine ⟨⟨hs.wrapped, hs.failed⟩, fun hagree => ?_⟩
    rw [bind_run, nested_ok (hg hagree ▸ hrl)]
    exact hsame (hagree.mono le_rfl hle)

/-! ## 2. Entries and matches -/

section Loops

variable {unpack : ElemDecoder α} {stride : Mem → Nat → Nat} {stale : α}

/-- Both memories have the next entry at the same place. -/
theorem ReadsEntry.stride_eq (hu : ReadsEntry unpack stride) {len rest : Nat} {a : α}
    (hagree : AgreeOn pos (pos + len) buf buf') (h : unpack buf pos len = (.ok a, rest)) :
    stride buf pos = stride buf' pos := by
  have htakes := hu.takes h
  have htakes' := hu.takes (hu.inside hagree ▸ h)
  omega

theorem Tracks.unpackArr (hu : ReadsEntry unpack stride) (n : Nat) : ∀ pos k,
    Tracks buf buf' pos k (unpackArr unpack stride buf n pos) (unpackArr unpack stride buf' n pos) := by
  induction n with
  | zero => exact fun _ _ => .pure fun _ => rfl
  | succ n ih =>
    intro pos k
    apply Tracks.nestedOrReturn
    · intro hagree
      exact hu.inside (hagree.mono (Nat.zero_le pos) le_rfl)
    · intro a l hrun
      have htakes := hu.takes hrun
      refine ⟨pos + stride buf pos, by omega, ?_⟩
      -- The second memory has the same length field, so the next entry is at the same place.
      apply Tracks.congr
      · intro hagree
        rw [← hu.stride_eq (hagree.mono (Nat.zero_le pos) (by omega)) hrun]
      · exact (ih _ _).bind_pure fun _ => rfl

theorem Tracks.unpackArrLax (hu : ReadsEntry unpack stride) (n : Nat) : ∀ pos k,
    Tracks buf buf' pos k (unpackArrLax stale unpack stride buf n pos)
      (unpackArrLax stale unpack stride buf' n pos) := by
  induction n with
  | zero => exact fun _ _ => .pure fun _ => rfl
  | succ n ih =>
    intro pos k
    apply Tracks.nested
    · intro hagree
      exact hu.inside (hagree.mono (Nat.zero_le pos) le_rfl)
    · exact fun _ => (Sticky.unpackArrLax n _).bind fun _ => .pure _
    · intro a l hrun
      have htakes := hu.takes hrun
      refine ⟨pos + stride buf pos, by omega, ?_⟩
      apply Tracks.congr
      · intro hagree
        rw [← hu.stride_eq (hagree.mono (Nat.zero_le pos) (by omega)) hrun]
      · exact (ih _ _).bind_pure fun _ => rfl

theorem Tracks.counted {count : Mem → (pos len : Nat) → Except OflErr Nat} {f f' : Nat → Unpack β}
    (hcount : CountsInside count) (h : ∀ n, Tracks buf buf' pos k (f n) (f' n)) :
    Tracks buf buf' pos k (do let n ← CcPof.OpenFlow.orReturn (count buf pos (← MonadState.get).len); f n)
      (do let n ← CcPof.OpenFlow.orReturn (count buf' pos (← MonadState.get).len); f' n) := by
  apply Tracks.get
  intro s hk
  apply Tracks.orReturn
  · intro hagree
    rw [hk]
    exact hcount (hagree.mono (Nat.zero_le pos) le_rfl)
  · exact fun n _ => h n

theorem Tracks.unpackRest {count : Mem → (pos len : Nat) → Except OflErr Nat}
    (hcount : CountsInside count) (hu : ReadsEntry unpack stride) :
    Tracks buf buf' pos k (unpackRest count unpack stride buf pos)
      (unpackRest count unpack stride buf' pos) := by
  apply Tracks.counted hcount
  exact fun n => .unpackArr hu n pos k

end Loops

theorem Tracks.unpackFlowStats (hL : L.ReadsInside) (n : Nat) : ∀ pos k,
    Tracks buf buf' pos k (unpackFlowStats (L := L) buf n pos pos)
      (unpackFlowStats buf' n pos pos) := by
  induction n with
  | zero => exact fun _ _ => .pure fun _ => rfl
  | succ n ih =>
    intro pos k
    apply Tracks.get
    intro s hk
    apply Tracks.nestedOrReturn
    · intro hagree
      exact hL.flowStats.inside (hagree.mono (Nat.zero_le pos) le_rfl)
    · intro a l hrun
      have htakes := hL.flowStats.takes hrun
      refine ⟨pos + lenField OfpFlowStats.length buf pos, by omega, ?_⟩
      apply Tracks.get
      intro s' hl
      -- What was consumed is what the length field says.
      have hptr : pos + s.len - s'.len = pos + lenField OfpFlowStats.length buf pos := by omega
      apply Tracks.congr
      · intro hagree
        rw [← hL.flowStats.stride_eq (hagree.mono (Nat.zero_le pos) (by omega)) hrun]
      · rw [hptr]
        exact (ih _ _).bind_pure fun _ => rfl

end CcPof.OpenFlow
