import Mathlib.Algebra.BigOperators.Intervals
import Mathlib.Algebra.Order.BigOperators.Group.Finset
import Mathlib.Order.Interval.Finset.Nat

/-!
# Intervals that tile an initial segment

Where every number below `N` lies in exactly one of the intervals `[i, i + len i)`, the lengths add
up to `N`, and a walk from interval to interval meets each of them once. What a loop over the walk
collects is a sum or a maximum over the intervals.
-/

namespace CcPof

/-- The intervals `[i, i + len i)` below `N` tile the numbers below `N`. -/
structure Tiles (N : Nat) (len : Nat → Nat) : Prop where
  bound : ∀ i, i < N → i + len i ≤ N
  cover : ∀ j, j < N → ∃! i, i ≤ j ∧ j < i + len i

theorem Tiles.sum {N : Nat} {len : Nat → Nat} (h : Tiles N len) :
    ∑ i ∈ Finset.range N, len i = N := by
  -- Count the pairs of an interval and a number in it in both orders.
  have hlen : ∀ i ∈ Finset.range N,
      len i = ∑ j ∈ Finset.range N, if i ≤ j ∧ j < i + len i then 1 else 0 := by
    intro i hi
    have hbound := h.bound i (Finset.mem_range.mp hi)
    have hfilter : (Finset.range N).filter (fun j => i ≤ j ∧ j < i + len i) =
        Finset.Ico i (i + len i) := by
      ext j
      simp only [Finset.mem_filter, Finset.mem_range, Finset.mem_Ico]
      omega
    rw [← Finset.card_filter, hfilter, Nat.card_Ico, Nat.add_sub_cancel_left]
  have hone : ∀ j ∈ Finset.range N,
      (∑ i ∈ Finset.range N, if i ≤ j ∧ j < i + len i then 1 else 0) = 1 := by
    intro j hj
    rcases h.cover j (Finset.mem_range.mp hj) with ⟨i, hi, huniq⟩
    rw [← Finset.card_filter, Finset.card_eq_one]
    refine ⟨i, ?_⟩
    ext k
    simp only [Finset.mem_filter, Finset.mem_range, Finset.mem_singleton]
    constructor
    · exact fun hk => huniq k hk.2
    · rintro rfl
      exact ⟨Nat.lt_of_le_of_lt hi.1 (Finset.mem_range.mp hj), hi⟩
  calc ∑ i ∈ Finset.range N, len i
      = ∑ i ∈ Finset.range N, ∑ j ∈ Finset.range N, (if i ≤ j ∧ j < i + len i then 1 else 0) :=
        Finset.sum_congr rfl hlen
    _ = ∑ j ∈ Finset.range N, ∑ i ∈ Finset.range N, (if i ≤ j ∧ j < i + len i then 1 else 0) :=
        Finset.sum_comm
    _ = ∑ _j ∈ Finset.range N, 1 := Finset.sum_congr rfl hone
    _ = N := by rw [← Finset.card_eq_sum_ones, Finset.card_range]

/-! ## 1. Walks -/

variable {N : Nat} {len next : Nat → Nat}

/-- Visit `i`, go on at `next i`, stop at `N`; `none` where `fuel` is too little for that. -/
def walk (next : Nat → Nat) (N : Nat) : (fuel i : Nat) → Option (List Nat)
  | 0, _ => none
  | fuel + 1, i => if i < N then (walk next N fuel (next i)).map (i :: ·) else some []

/-- The numbers where an interval begins. -/
def starts (N : Nat) (len : Nat → Nat) : List Nat := (List.range N).filter fun i => 0 < len i

theorem mem_starts {i : Nat} : i ∈ starts N len ↔ i < N ∧ 0 < len i := by
  rw [starts, List.mem_filter, List.mem_range, decide_eq_true_iff]

theorem nodup_starts : (starts N len).Nodup := List.nodup_range.filter _

/-- No interval crosses `i`. -/
def Boundary (len : Nat → Nat) (i : Nat) : Prop := ∀ k, k < i → k + len k ≤ i

theorem Tiles.len_pos (h : Tiles N len) {i : Nat} (hi : i < N) (hb : Boundary len i) : 0 < len i := by
  obtain ⟨k, ⟨hki, hik⟩, _⟩ := h.cover i hi
  rcases Nat.eq_or_lt_of_le hki with rfl | hlt
  · omega
  · exact absurd (hb k hlt) (by omega)

/-- Inside an interval no other begins. -/
theorem Tiles.inside (h : Tiles N len) {i k : Nat} (hi : i < N) (hik : i < k) (hki : k < i + len i) :
    len k = 0 := by
  by_contra hpos
  have hbound := h.bound i hi
  obtain ⟨m, _, huniq⟩ := h.cover k (by omega)
  have hi' := huniq i ⟨by omega, hki⟩
  have hk' := huniq k ⟨le_rfl, by omega⟩
  omega

theorem Tiles.boundary (h : Tiles N len) {i : Nat} (hi : i < N) (hb : Boundary len i) :
    Boundary len (i + len i) := by
  intro k hk
  rcases Nat.lt_trichotomy k i with hlt | rfl | hgt
  · exact (hb k hlt).trans (Nat.le_add_right _ _)
  · exact le_rfl
  · rw [h.inside hi hgt hk]
    omega

/-- From a boundary on the walk meets the starts that are left. -/
theorem Tiles.walk_from (h : Tiles N len) (hnext : ∀ i, i < N → 0 < len i → next i = i + len i)
    (fuel : Nat) : ∀ i, i ≤ N → N < fuel + i → Boundary len i →
      walk next N fuel i = some ((List.range' i (N - i)).filter fun i => 0 < len i) := by
  induction fuel with
  | zero =>
    intro i hi hfuel
    omega
  | succ fuel ih =>
    intro i hi hfuel hb
    rw [walk]
    by_cases hlt : i < N
    · have hpos := h.len_pos hlt hb
      have hbound := h.bound i hlt
      have hinside : (List.range' (i + 1) (len i - 1)).filter (fun i => 0 < len i) = [] := by
        refine List.filter_eq_nil_iff.mpr fun k hk => ?_
        rw [List.mem_range'_1] at hk
        rw [h.inside hlt (by omega : i < k) (by omega)]
        decide
      have hsplit : List.range' i (N - i) =
          i :: (List.range' (i + 1) (len i - 1) ++ List.range' (i + len i) (N - (i + len i))) := by
        rw [show N - i = (len i - 1 + (N - (i + len i))) + 1 by omega, List.range'_succ,
          ← List.range'_append_1, show i + 1 + (len i - 1) = i + len i by omega]
      rw [if_pos hlt, hnext i hlt hpos, ih _ hbound (by omega) (h.boundary hlt hb), hsplit,
        List.filter_cons, if_pos (decide_eq_true hpos), List.filter_append, hinside]
      rfl
    · rw [if_neg hlt, show N - i = 0 by omega]
      rfl

theorem Tiles.walk_eq (h : Tiles N len) (hnext : ∀ i, i < N → 0 < len i → next i = i + len i) :
    walk next N (N + 1) 0 = some (starts N len) := by
  have hwalk := h.walk_from hnext (N + 1) 0 (Nat.zero_le N) (by omega)
    fun k hk => absurd hk (Nat.not_lt_zero k)
  rwa [Nat.sub_zero, ← List.range_eq_range'] at hwalk

/-! ## 2. What a loop collects -/

/-- Numbers that are zero where no interval begins. -/
theorem sum_starts (g : Nat → Nat) (hg : ∀ i, i < N → len i = 0 → g i = 0) :
    ((starts N len).map g).sum = ∑ i ∈ Finset.range N, g i := by
  unfold starts
  induction N with
  | zero => rfl
  | succ N ih =>
    rw [List.range_succ, List.filter_append, List.map_append, List.sum_append,
      ih fun i hi => hg i (Nat.lt_succ_of_lt hi), Finset.sum_range_succ]
    by_cases hpos : 0 < len N
    · simp [hpos]
    · have hzero : len N = 0 := Nat.eq_zero_of_not_pos hpos
      simp [hzero, hg N (Nat.lt_succ_self N) hzero]

theorem Tiles.sum_starts (h : Tiles N len) : ((starts N len).map len).sum = N := by
  rw [CcPof.sum_starts len fun _ _ hi => hi, h.sum]

section

variable {σ α : Type} {f : σ → α → σ} {proj : σ → Nat} {g : α → Nat}

/-- A field that each round adds to. -/
theorem foldl_add {l : List α} (h : ∀ a ∈ l, ∀ s, proj (f s a) = proj s + g a) (s : σ) :
    proj (l.foldl f s) = proj s + (l.map g).sum := by
  induction l generalizing s with
  | nil => rfl
  | cons a l ih =>
    rw [List.foldl_cons, ih fun b hb => h b (List.mem_cons_of_mem a hb), h a List.mem_cons_self,
      List.map_cons, List.sum_cons, Nat.add_assoc]

/-- A field that each round raises. -/
theorem le_foldl_max_iff {l : List α} (h : ∀ a ∈ l, ∀ s, proj (f s a) = max (proj s) (g a)) (s : σ)
    (n : Nat) : n ≤ proj (l.foldl f s) ↔ n ≤ proj s ∨ ∃ a ∈ l, n ≤ g a := by
  induction l generalizing s with
  | nil => simp
  | cons a l ih =>
    rw [List.foldl_cons, ih fun b hb => h b (List.mem_cons_of_mem a hb), h a List.mem_cons_self,
      le_max_iff, or_assoc]
    simp only [List.mem_cons, exists_eq_or_imp]

end

/-! ## 3. Finer tilings -/

/-- Where an interval of the first tiling begins, one of the second does. -/
def Finer (len len' : Nat → Nat) : Prop := ∀ i, 0 < len i → 0 < len' i

theorem Finer.refl (len : Nat → Nat) : Finer len len := fun _ hi => hi

theorem Finer.trans {len₁ len₂ len₃ : Nat → Nat} (h : Finer len₁ len₂) (h' : Finer len₂ len₃) :
    Finer len₁ len₃ :=
  fun i hi => h' i (h i hi)

/-- Behind an interval the next one begins. -/
theorem Tiles.next_pos (h : Tiles N len) {i : Nat} (hpos : 0 < len i) (hlt : i + len i < N) :
    0 < len (i + len i) := by
  obtain ⟨k, ⟨hki, hik⟩, _⟩ := h.cover (i + len i) hlt
  rcases Nat.lt_trichotomy k i with hk | rfl | hk
  · have hinside := h.inside (by omega : k < N) hk (by omega)
    omega
  · omega
  · rcases Nat.eq_or_lt_of_le hki with rfl | hk'
    · omega
    · have hinside := h.inside (by omega : i < N) hk hk'
      omega

/-- An interval of a finer tiling lies in one interval of the coarser. -/
theorem Tiles.within_of_finer {len' : Nat → Nat} (h : Tiles N len) (h' : Tiles N len')
    (hf : Finer len len') {j : Nat} (hj : j < N) :
    ∃ i, i ≤ j ∧ j < i + len i ∧ j + len' j ≤ i + len i := by
  obtain ⟨i, ⟨hij, hji⟩, _⟩ := h.cover j hj
  refine ⟨i, hij, hji, ?_⟩
  by_contra hcross
  have hbound := h'.bound j hj
  -- The end of the coarse interval would lie inside the fine one.
  have hnext := hf _ (h.next_pos (i := i) (by omega) (by omega))
  have hinside := h'.inside hj hji (by omega)
  omega

end CcPof
