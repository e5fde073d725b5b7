import CcPof.OpenFlow.Causes
import CcPof.OpenFlow.SampleLib

/-!
# Which GROUP_MOD messages are accepted

Two of the checks do not do what they say. The type check swaps the one-byte type as if it had two,
and never fires; the check that an INDIRECT group has one bucket does not ask for the command, so
that no DELETE of an INDIRECT group passes, which must have none.
-/

namespace CcPof.OpenFlow

variable {L : OflLib} {exp : Option (OflExp L)} {buf : Mem} {bufLen : Nat}

/-! ## 1. Bucket arrays -/

/-- The `n` entries from `pos` on, one behind another, all satisfy `ok`. -/
def AllEntries (stride : Mem → Nat → Nat) (ok : Mem → Nat → Prop) (buf : Mem) :
    (n pos : Nat) → Prop
  | 0, _ => True
  | n + 1, pos => ok buf pos ∧ AllEntries stride ok buf n (pos + stride buf pos)

/-- When the bucket helpers succeed. `ok type` says which buckets are well formed in a group of that
type; an array is well formed when its buckets tile it and each of them is. -/
structure BucketRules (L : OflLib) where
  ok : UInt8 → Mem → Nat → Prop
  count : ∀ buf pos len n, L.bucketCount buf pos len = .ok n ↔
    Tiles (lenField OfpBucket.len) OfpBucket.size buf pos len n
  unpack_ok : ∀ type buf pos len, lenField OfpBucket.len buf pos ≤ len → ok type buf pos →
    ∃ b, L.bucketUnpack type buf pos len = (.ok b, len - lenField OfpBucket.len buf pos)
  unpack_error : ∀ type buf pos len, lenField OfpBucket.len buf pos ≤ len → ¬ ok type buf pos →
    ∃ e n, L.bucketUnpack type buf pos len = (.error e, n)

structure WellFormedBuckets (R : BucketRules L) (type : UInt8) (buf : Mem) (pos len n : Nat) :
    Prop where
  tiles : Tiles (lenField OfpBucket.len) OfpBucket.size buf pos len n
  entries : AllEntries (lenField OfpBucket.len) (R.ok type) buf n pos

/-- The loop over a tiled array succeeds when all of its buckets are well formed. -/
theorem succeeds_unpackBuckets (R : BucketRules L) (type : UInt8) {pos len n : Nat}
    (h : Tiles (lenField OfpBucket.len) OfpBucket.size buf pos len n) :
    ∀ {s : UnpackState}, s.len = len →
      (Succeeds (unpackArr (L.bucketUnpack type) (lenField OfpBucket.len) buf n pos) s ↔
        AllEntries (lenField OfpBucket.len) (R.ok type) buf n pos) := by
  induction h with
  | done pos => exact fun _ => iff_of_true (succeeds_pure _ _) trivial
  | @entry pos len n hfixed hfits rest ih =>
    intro s hs
    rw [unpackArr, AllEntries]
    by_cases hok : R.ok type buf pos
    · obtain ⟨b, hb⟩ := R.unpack_ok type buf pos s.len (by omega) hok
      rw [succeeds_bind_of_ok (nestedOrReturn_ok hb), and_iff_right hok,
        ← ih (s := { s with len := s.len - lenField OfpBucket.len buf pos }) (by rw [← hs])]
      exact succeeds_map (List.cons b) _ _
    · obtain ⟨e, n, he⟩ := R.unpack_error type buf pos s.len (by omega) hok
      refine iff_of_false ?_ fun h => hok h.1
      rw [succeeds_bind, nestedOrReturn_error he]
      rintro ⟨_, _, ⟨⟩, _⟩

/-- The sample bucket decoder behind a check of the bucket's own length. -/
def checkedBucketUnpack : ElemDecoder UInt16 := fun buf pos len =>
  if lenField OfpBucket.len buf pos = OfpBucket.size then sampleBucket.unpack buf pos len
  else (.error badLen, len)

theorem checkedBucketUnpack_ok {pos len : Nat}
    (hok : lenField OfpBucket.len buf pos = OfpBucket.size) (hlen : OfpBucket.size ≤ len) :
    checkedBucketUnpack buf pos len =
      (.ok (ntohs (get16 buf (pos + sampleBucket.valueOff))),
        len - lenField OfpBucket.len buf pos) := by
  have hsize : ¬ len < sampleBucket.size := Nat.not_lt.mpr hlen
  rw [checkedBucketUnpack, if_pos hok, SampleLayout.unpack, if_neg hsize, hok]
  rfl

def groupLib : OflLib := { sampleLib with bucketUnpack := fun _ => checkedBucketUnpack }

def groupLibRules : BucketRules groupLib where
  ok := fun _ buf pos => lenField OfpBucket.len buf pos = OfpBucket.size
  count := fun _ _ _ _ => countEntries_iff_tiles (by decide)
  unpack_ok := by
    intro type buf pos len hlen hok
    rw [hok] at hlen
    exact ⟨_, checkedBucketUnpack_ok hok hlen⟩
  unpack_error := fun _ _ _ _ _ hok => ⟨badLen, _, if_neg hok⟩

/-! ## 2. The rules -/

def groupCommand (buf : Mem) : UInt16 := ntohs (get16 buf OfpGroupMod.command)

def groupType (buf : Mem) : UInt8 := buf OfpGroupMod.type

def groupId (buf : Mem) : UInt32 := ntohl (get32 buf OfpGroupMod.groupId)

/-- The rules for everything but the type. -/
structure GroupModRules (R : BucketRules L) (buf : Mem) (bufLen : Nat) : Prop where
  command : groupCommand buf ≤ ofpgcDelete
  groupId : groupId buf ≤ ofpgMax ∨ groupId buf = ofpgAll ∧ groupCommand buf = ofpgcDelete
  buckets : ∃ n, WellFormedBuckets R (groupType buf) buf OfpGroupMod.buckets
      (bufLen - OfpGroupMod.size) n ∧
    (groupCommand buf = ofpgcDelete → n = 0) ∧
    (groupCommand buf ≠ ofpgcDelete → groupType buf = ofpgtIndirect → n = 1)

/-- A group type, or one of the experimenter range. -/
def KnownGroupType (buf : Mem) : Prop := groupType buf ≤ 3 ∨ 128 ≤ groupType buf
deriving Decidable

structure WellFormedGroupMod (R : BucketRules L) (buf : Mem) (bufLen : Nat) : Prop where
  type : KnownGroupType buf
  rules : GroupModRules R buf bufLen

def AcceptsGroupMod (exp : Option (OflExp L)) (buf : Mem) (bufLen : Nat) (xid : Option UInt32) :
    Prop :=
  ∃ m s, oflMsgUnpack exp buf bufLen xid = .ok (.groupMod m) s

/-- A DELETE of an INDIRECT group. -/
def DeletesIndirect (buf : Mem) : Prop :=
  groupCommand buf = ofpgcDelete ∧ groupType buf = ofpgtIndirect
deriving Decidable

/-! ## 3. What is accepted -/

theorem succeeds_groupMod (R : BucketRules L) (buf : Mem) {s : UnpackState} (hlen : OfpGroupMod.size ≤ s.len) :
    Succeeds (oflMsgUnpackGroupMod (L := L) buf) s ↔
      GroupModRules R buf s.len ∧ ¬ DeletesIndirect buf := by
  have hget (f : UnpackState → Unpack (OflMsgGroupMod L)) (t : UnpackState) :
      Succeeds (get >>= f) t ↔ Succeeds (f t) t := succeeds_bind_of_ok rfl
  rw [oflMsgUnpackGroupMod, succeeds_bind_of_ok (requireLen_run hlen),
    succeeds_bind_of_ok (subLen_run hlen)]
  simp only [succeeds_rejectIf, hget, succeeds_orReturn]
  have hloop {n : Nat} (f : List L.Bucket → OflMsgGroupMod L) (htiles : Tiles
      (lenField OfpBucket.len) OfpBucket.size buf OfpGroupMod.buckets (s.len - OfpGroupMod.size) n) :
      Succeeds (f <$> unpackArr (L.bucketUnpack (groupType buf)) (lenField OfpBucket.len) buf n
        OfpGroupMod.buckets) { s with len := s.len - OfpGroupMod.size } ↔
      AllEntries (lenField OfpBucket.len) (R.ok (groupType buf)) buf n OfpGroupMod.buckets :=
    (succeeds_map _ _ _).trans (succeeds_unpackBuckets R (groupType buf) htiles rfl)
  constructor
  · -- The five checks that were passed; the one of the type says nothing.
    rintro ⟨hcommand, _, hgroup, n, hcount, hdelete, hindirect, hbuckets⟩
    have htiles := (R.count _ _ _ n).mp hcount
    have hnone (h : groupCommand buf = ofpgcDelete) : n = 0 :=
      Nat.eq_zero_of_not_pos fun hpos => hdelete ⟨h, hpos⟩
    have hone (h : groupType buf = ofpgtIndirect) : n = 1 :=
      not_not.mp fun hne => hindirect ⟨h, hne⟩
    refine ⟨⟨UInt16.not_lt.mp hcommand, ?_, n, ⟨htiles, (hloop _ htiles).mp hbuckets⟩, hnone,
      fun _ => hone⟩, fun h => ?_⟩
    · by_cases hmax : ofpgMax < groupId buf
      · exact Or.inr (not_not.mp fun h => hgroup ⟨hmax, fun h' => h h'.symm⟩)
      · exact Or.inl (UInt32.not_lt.mp hmax)
    · -- none by the one rule, and one by the other
      have h0 := hnone h.1
      have h1 := hone h.2
      omega
  · -- No check fires on what the rules allow.
    rintro ⟨⟨hcommand, hgroup, n, hbuckets, hnone, hone⟩, hindirect⟩
    refine ⟨UInt16.not_lt.mpr hcommand, groupTypeCheck_passes _, ?_, n,
      (R.count _ _ _ n).mpr hbuckets.tiles, ?_, ?_, (hloop _ hbuckets.tiles).mpr hbuckets.entries⟩
    · rintro ⟨hmax, hnot⟩
      rcases hgroup with hle | hall
      · exact absurd hmax (UInt32.not_lt.mpr hle)
      · exact hnot hall.symm
    · rintro ⟨hdelete, hpos⟩
      exact absurd (hnone hdelete) (Nat.ne_of_gt hpos)
    · rintro ⟨htype, hne⟩
      by_cases hdelete : groupCommand buf = ofpgcDelete
      · exact hindirect ⟨hdelete, htype⟩
      · exact hne (hone hdelete htype)

/-- The decoder makes every check but the one of the type, and refuses each DELETE of an INDIRECT
group. -/
theorem acceptsGroupMod_iff (R : BucketRules L) (exp : Option (OflExp L)) (xid : Option UInt32)
    (hreaches : Reaches buf bufLen (some .groupMod)) (hlen : OfpGroupMod.size ≤ bufLen) :
    AcceptsGroupMod exp buf bufLen xid ↔ GroupModRules R buf bufLen ∧ ¬ DeletesIndirect buf := by
  have hsucceeds := succeeds_groupMod R buf (s := bodyState buf bufLen xid) hlen
  have haccepts : AcceptsGroupMod exp buf bufLen xid ↔
      Succeeds (oflMsgUnpackGroupMod (L := L) buf) (bodyState buf bufLen xid) := by
    unfold AcceptsGroupMod Succeeds
    rw [hreaches.run]
    simp only [unpackBody, map_run]
    cases oflMsgUnpackGroupMod (L := L) buf (bodyState buf bufLen xid) with
    | ok m t => exact iff_of_true ⟨m, t, rfl⟩ ⟨m, t, rfl⟩
    | error e t =>
      constructor
      · rintro ⟨_, _, ⟨⟩⟩
      · rintro ⟨_, _, ⟨⟩⟩
  rw [haccepts, hsucceeds]
  rfl

/-- **When the GROUP_MOD decoder decides rightly**: unless the type is none of the known ones, or a
DELETE names an INDIRECT group, and all other rules are met. -/
theorem groupMod_decides_iff (R : BucketRules L) (exp : Option (OflExp L)) (xid : Option UInt32)
    (hreaches : Reaches buf bufLen (some .groupMod)) (hlen : OfpGroupMod.size ≤ bufLen) :
    (AcceptsGroupMod exp buf bufLen xid ↔ WellFormedGroupMod R buf bufLen) ↔
      ¬ (GroupModRules R buf bufLen ∧ (¬ KnownGroupType buf ∨ DeletesIndirect buf)) := by
  rw [acceptsGroupMod_iff R exp xid hreaches hlen]
  have hwf : WellFormedGroupMod R buf bufLen ↔ KnownGroupType buf ∧ GroupModRules R buf bufLen :=
    ⟨fun h => ⟨h.type, h.rules⟩, fun h => ⟨h.1, h.2⟩⟩
  -- INDIRECT is a known type, so at most one of the two rules is to blame.
  have hknown : DeletesIndirect buf → KnownGroupType buf := by
    intro h
    rw [KnownGroupType, h.2]
    exact Or.inl (by decide)
  rw [hwf]
  tauto

/-- ADD of a SELECT group without buckets. -/
def addSelect : Mem := sampleBuf [4, 15, 0, 16, 0, 0, 0, 0, 0, 0, 1, 0, 0, 0, 0, 0]

theorem groupMod_decides_iff_select :
    (AcceptsGroupMod (L := groupLib) none addSelect 16 none ↔
      WellFormedGroupMod groupLibRules addSelect 16) ↔
    ¬ (GroupModRules groupLibRules addSelect 16 ∧
      (¬ KnownGroupType addSelect ∨ DeletesIndirect addSelect)) :=
  groupMod_decides_iff groupLibRules none none
    ⟨by decide, by decide, by decide, by decide⟩ (by decide)

/-- ADD of a group of type 4, which does not exist. -/
def addType4 : Mem := sampleBuf [4, 15, 0, 16, 0, 0, 0, 0, 0, 0, 4, 0, 0, 0, 0, 0]

/-- DELETE of INDIRECT group 0. -/
def deleteIndirect : Mem := sampleBuf [4, 15, 0, 16, 0, 0, 0, 0, 0, 2, 2, 0, 0, 0, 0, 0]

theorem noBuckets (buf : Mem) : WellFormedBuckets groupLibRules (groupType buf) buf
    OfpGroupMod.buckets 0 0 where
  tiles := Tiles.done _
  entries := trivial

theorem addType4_rules : GroupModRules groupLibRules addType4 16 where
  command := by decide
  groupId := Or.inl (by decide)
  buckets := ⟨0, noBuckets addType4, fun _ => rfl, fun _ h => absurd h (by decide)⟩

theorem deleteIndirect_rules : GroupModRules groupLibRules deleteIndirect 16 where
  command := by decide
  groupId := Or.inl (by decide)
  buckets := ⟨0, noBuckets deleteIndirect, fun _ => rfl, fun h _ => absurd (by decide) h⟩

/-- The one is accepted and must not be, the other must be and is not. -/
theorem groupMod_misdecides :
    (AcceptsGroupMod (L := groupLib) none addType4 16 none ∧
      ¬ WellFormedGroupMod groupLibRules addType4 16) ∧
    ¬ AcceptsGroupMod (L := groupLib) none deleteIndirect 16 none ∧
      WellFormedGroupMod groupLibRules deleteIndirect 16 := by
  refine ⟨⟨?_, ?_⟩, ?_, ?_⟩
  · exact (acceptsGroupMod_iff groupLibRules none none
      ⟨by decide, by decide, by decide, by decide⟩ (by decide)).mpr ⟨addType4_rules, by decide⟩
  · exact fun h => absurd h.type (by decide)
  · intro h
    exact ((acceptsGroupMod_iff groupLibRules none none
      ⟨by decide, by decide, by decide, by decide⟩ (by decide)).mp h).2 (by decide)
  · exact ⟨by decide, deleteIndirect_rules⟩

end CcPof.OpenFlow
