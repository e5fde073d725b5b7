import CcPof.Lib.DoublyLinked
import Mathlib.Data.List.Nodup

/-!
# Circular lists with a header

A ring starts at a header, runs through its nodes and comes back to the header. Insertion, removal
and replacement of nodes are one splice. Nothing is said of the back pointer of the header.
-/

namespace CcPof

variable {α : Type}

structure Ring (next pre : α → α) (h : α) (l : List α) : Prop where
  front : next h = frontPtr id l h
  links : DSeg id next pre h l h
  nodup : (h :: l).Nodup

theorem backPtr_mem (h : α) (l : List α) : backPtr id h l ∈ h :: l := by
  induction l generalizing h with
  | nil => exact List.mem_cons_self
  | cons a l ih => exact List.mem_cons_of_mem _ (ih a)

theorem frontPtr_mem (h : α) (l : List α) : frontPtr id l h ∈ h :: l := by
  cases l with
  | nil => exact List.mem_cons_self
  | cons a l => exact List.mem_cons_of_mem _ List.mem_cons_self

namespace DSeg

variable {next pre next' pre' : α → α} {before after before' after' : α} {l : List α}

/-- Only the last node points to another successor. -/
theorem retarget_back [DecidableEq α] (h : DSeg id next pre before l after) (hnodup : l.Nodup)
    (hnext : ∀ b ∈ l, next' b = if b = backPtr id before l then after' else next b)
    (hpre : ∀ b ∈ l, pre' b = pre b) : DSeg id next' pre' before l after' := by
  rcases List.eq_nil_or_concat l with rfl | ⟨k, a, rfl⟩
  · trivial
  · rw [List.concat_eq_append] at h hnodup hnext hpre ⊢
    have hlast : backPtr id before (k ++ [a]) = a := by
      rw [backPtr_append]
      rfl
    rw [hlast] at hnext
    apply h.congr_back
    · refine ⟨?_, hpre a (by simp)⟩
      rw [hnext a (by simp), if_pos rfl]
    · intro b hb
      have hba : b ≠ a := by
        rintro rfl
        exact (List.nodup_append.mp hnodup).2.2 b hb b (List.mem_singleton_self b) rfl
      refine ⟨?_, hpre b (List.mem_append_left _ hb)⟩
      rw [hnext b (List.mem_append_left _ hb), if_neg hba]

/-- Only the first node points to another predecessor. -/
theorem retarget_front [DecidableEq α] (h : DSeg id next pre before l after) (hnodup : l.Nodup)
    (hnext : ∀ b ∈ l, next' b = next b)
    (hpre : ∀ b ∈ l, pre' b = if b = frontPtr id l after then before' else pre b) :
    DSeg id next' pre' before' l after := by
  cases l with
  | nil => trivial
  | cons a l =>
    apply h.congr_front
    · refine ⟨hnext a List.mem_cons_self, ?_⟩
      rw [hpre a List.mem_cons_self]
      exact if_pos rfl
    · intro b hb
      have hba : b ≠ a := by
        rintro rfl
        exact (List.nodup_cons.mp hnodup).1 hb
      refine ⟨hnext b (List.mem_cons_of_mem _ hb), ?_⟩
      rw [hpre b (List.mem_cons_of_mem _ hb)]
      exact if_neg hba

/-- Two lists that begin with the same node and end at the same header are one. -/
theorem unique {h : α} {l r : List α} (hl : DSeg id next pre before l h)
    (hr : DSeg id next pre before' r h) (hfront : frontPtr id l h = frontPtr id r h)
    (hnl : h ∉ l) (hnr : h ∉ r) : l = r := by
  induction l generalizing r before before' with
  | nil =>
    cases r with
    | nil => rfl
    | cons b r =>
      have heq : h = b := hfront
      exact absurd (heq ▸ List.mem_cons_self) hnr
  | cons a l ih =>
    cases r with
    | nil =>
      have heq : a = h := hfront
      exact absurd (heq ▸ List.mem_cons_self) hnl
    | cons b r =>
      have heq : a = b := hfront
      subst heq
      have hnext : frontPtr id l h = frontPtr id r h := hl.2.1.symm.trans hr.2.1
      rw [ih hl.2.2 hr.2.2 hnext (List.not_mem_of_not_mem_cons hnl) (List.not_mem_of_not_mem_cons hnr)]

end DSeg

namespace Ring

variable {next pre next' pre' : α → α} {h a b : α} {l m n r : List α}

theorem congr (hr : Ring next pre h l) (hnext : ∀ b ∈ h :: l, next' b = next b)
    (hpre : ∀ b ∈ l, pre' b = pre b) : Ring next' pre' h l where
  front := by rw [hnext h List.mem_cons_self, hr.front]
  links := hr.links.congr fun b hb => ⟨hnext b (List.mem_cons_of_mem _ hb), hpre b hb⟩
  nodup := hr.nodup

theorem unique (hl : Ring next pre h l) (hr : Ring next pre h r) : l = r := by
  apply hl.links.unique hr.links
  · rw [← hl.front, ← hr.front]
  · exact (List.nodup_cons.mp hl.nodup).1
  · exact (List.nodup_cons.mp hr.nodup).1

theorem pre_eq (hr : Ring next pre h (l ++ a :: r)) : pre a = backPtr id h l := hr.links.pre_of

theorem next_eq (hr : Ring next pre h (l ++ a :: r)) : next a = frontPtr id r h := hr.links.next_of

theorem next_mem (hr : Ring next pre h l) (ha : a ∈ l) : next a ∈ h :: l := by
  rcases List.append_of_mem ha with ⟨k, r, rfl⟩
  rw [hr.next_eq]
  rcases List.mem_cons.mp (frontPtr_mem h r) with hr | hr
  · rw [hr]
    exact List.mem_cons_self
  · exact List.mem_cons_of_mem _ (List.mem_append_right _ (List.mem_cons_of_mem _ hr))

/-- A node is the successor of its predecessor, and the predecessor of its successor unless that is
the header. -/
theorem mirror (hr : Ring next pre h l) (ha : a ∈ l) :
    next (pre a) = a ∧ (next a ≠ h → pre (next a) = a) := by
  rcases List.append_of_mem ha with ⟨k, r, rfl⟩
  constructor
  · rw [hr.pre_eq]
    rcases List.eq_nil_or_concat k with rfl | ⟨k, b, rfl⟩
    · exact hr.front
    · rw [List.concat_eq_append, List.append_assoc] at hr
      rw [List.concat_eq_append, backPtr_append]
      exact hr.next_eq
  · intro hne
    cases r with
    | nil => exact absurd hr.next_eq hne
    | cons b r =>
      rw [show next a = b from hr.next_eq]
      have hsplit : k ++ a :: b :: r = (k ++ [a]) ++ b :: r := by simp
      rw [hsplit] at hr
      rw [hr.pre_eq, backPtr_append]
      rfl

variable [DecidableEq α]

/-- Put `n` in the place of `m`. -/
theorem splice (hr : Ring next pre h (l ++ (m ++ r)))
    (hnext : ∀ b ∈ h :: (l ++ r),
      next' b = if b = backPtr id h l then frontPtr id (n ++ r) h else next b)
    (hpre : ∀ b ∈ l ++ r, pre' b = if b = frontPtr id r h then backPtr id h (l ++ n) else pre b)
    (hmid : DSeg id next' pre' (backPtr id h l) n (frontPtr id r h))
    (hnodup : (h :: (l ++ (n ++ r))).Nodup) : Ring next' pre' h (l ++ (n ++ r)) := by
  have hl : l.Nodup := (List.nodup_append.mp (List.nodup_cons.mp hnodup).2).1
  have hr' : r.Nodup :=
    (List.nodup_append.mp (List.nodup_append.mp (List.nodup_cons.mp hnodup).2).2.1).2.1
  have hlr : ∀ b ∈ l, b ∉ h :: r := by
    intro b hb hbr
    rcases List.mem_cons.mp hbr with rfl | hbr
    · exact (List.nodup_cons.mp hnodup).1 (List.mem_append_left _ hb)
    · exact (List.nodup_append.mp (List.nodup_cons.mp hnodup).2).2.2 b hb b
        (List.mem_append_right _ hbr) rfl
  have hrl : ∀ b ∈ r, b ∉ h :: l := by
    intro b hb hbl
    rcases List.mem_cons.mp hbl with rfl | hbl
    · exact (List.nodup_cons.mp hnodup).1
        (List.mem_append_right _ (List.mem_append_right _ hb))
    · exact hlr b hbl (List.mem_cons_of_mem _ hb)
  -- Only the last node in front of the part, and the first behind it, have new neighbours.
  have hlinks := DSeg.append.mp hr.links
  refine ⟨?_, DSeg.append.mpr ⟨?_, DSeg.append.mpr ⟨hmid, ?_⟩⟩, hnodup⟩
  · rw [hnext h List.mem_cons_self]
    cases l with
    | nil => exact if_pos rfl
    | cons a l =>
      have hmem : backPtr id h (a :: l) ∈ a :: l := backPtr_mem a l
      have hne : h ≠ backPtr id h (a :: l) := by
        intro heq
        rw [← heq] at hmem
        exact (List.nodup_cons.mp hnodup).1 (List.mem_append_left _ hmem)
      rw [if_neg hne, hr.front]
      rfl
  · apply hlinks.1.retarget_back hl
    · intro b hb
      exact hnext b (List.mem_cons_of_mem _ (List.mem_append_left _ hb))
    · intro b hb
      rw [hpre b (List.mem_append_left _ hb)]
      have hne : b ≠ frontPtr id r h := by
        rintro rfl
        exact hlr _ hb (frontPtr_mem h r)
      exact if_neg hne
  · have hold := (DSeg.append.mp hlinks.2).2
    apply hold.retarget_front hr'
    · intro b hb
      rw [hnext b (List.mem_cons_of_mem _ (List.mem_append_right _ hb))]
      have hne : b ≠ backPtr id h l := by
        rintro rfl
        exact hrl _ hb (backPtr_mem h l)
      exact if_neg hne
    · intro b hb
      rw [hpre b (List.mem_append_right _ hb), backPtr_append]

theorem unlink (hr : Ring next pre h (l ++ a :: r))
    (hnext : ∀ b ∈ h :: (l ++ r), next' b = if b = pre a then next a else next b)
    (hpre : ∀ b ∈ l ++ r, pre' b = if b = next a then pre a else pre b) :
    Ring next' pre' h (l ++ r) := by
  rw [hr.pre_eq, hr.next_eq] at hnext hpre
  apply splice (m := [a]) (n := []) hr hnext _ trivial
  · exact List.Nodup.sublist (List.Sublist.cons_cons h (List.Sublist.append_left
      (List.sublist_cons_self a r) l)) hr.nodup
  · intro b hb
    rw [hpre b hb, List.append_nil]

theorem replace (hr : Ring next pre h (l ++ a :: r)) (hb : b ∉ h :: (l ++ a :: r))
    (hnext : ∀ x ∈ h :: (l ++ r), next' x = if x = pre a then b else next x)
    (hpre : ∀ x ∈ l ++ r, pre' x = if x = next a then b else pre x)
    (hmid : next' b = next a ∧ pre' b = pre a) : Ring next' pre' h (l ++ b :: r) := by
  rw [hr.pre_eq] at hnext
  rw [hr.next_eq] at hpre
  rw [hr.pre_eq, hr.next_eq] at hmid
  apply splice (m := [a]) (n := [b]) hr hnext _ ⟨hmid.2, hmid.1, trivial⟩
  · have hsub : (h :: (l ++ r)).Nodup := List.Nodup.sublist (List.Sublist.cons_cons h
      (List.Sublist.append_left (List.sublist_cons_self a r) l)) hr.nodup
    have hb' : b ∉ h :: (l ++ r) := by
      intro hmem
      apply hb
      simp only [List.mem_cons, List.mem_append] at hmem ⊢
      tauto
    have hperm : (h :: (l ++ ([b] ++ r))).Perm (b :: h :: (l ++ r)) := by
      apply (List.Perm.cons h (List.perm_middle)).trans
      exact List.Perm.swap b h _
    exact hperm.nodup_iff.mpr (List.nodup_cons.mpr ⟨hb', hsub⟩)
  · intro x hx
    rw [hpre x hx, backPtr_append]
    rfl

theorem pushFront (hr : Ring next pre h l) (ha : a ∉ h :: l)
    (hnext : ∀ x ∈ h :: l, next' x = if x = h then a else next x)
    (hpre : ∀ x ∈ l, pre' x = if x = next h then a else pre x)
    (hmid : next' a = next h ∧ pre' a = h) : Ring next' pre' h (a :: l) := by
  rw [hr.front] at hpre hmid
  apply splice (l := []) (m := []) (n := [a]) hr hnext hpre ⟨hmid.2, hmid.1, trivial⟩
  have hperm : (h :: a :: l).Perm (a :: h :: l) := List.Perm.swap a h l
  exact hperm.nodup_iff.mpr (List.nodup_cons.mpr ⟨ha, hr.nodup⟩)

end Ring

end CcPof
