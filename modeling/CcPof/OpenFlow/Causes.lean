import CcPof.OpenFlow.Checks

/-!
# What a rejection reports

`*xid` and the pair `(type, code)` of a rejection. The codes of different error types share their
small numbers, so a code from the enumeration of another type still means something.
-/

namespace CcPof.OpenFlow

variable {L : OflLib} {exp : Option (OflExp L)} {buf : Mem} {bufLen : Nat}

/-! ## 1. Right causes -/

/-- What the decoder has no way to establish: the role and the permission code. -/
def unfounded : List OflErr := [.ofl .badRequest ofpbrcIsSlave, .ofl .badRequest ofpbrcEperm]

/-- The error names the check that the message fails first. Where it fails none of them, the error
is handed through from outside. -/
def NamesFailed (gs : List Guard) (e : OflErr) : Prop :=
  match gs.find? Guard.fails with
  | some g => e ∈ g.check.pairs
  | none => e.Foreign

/-- A rejection with the error `e` in the state `s`. -/
structure ReportsRight (exp : Option (OflExp L)) (buf : Mem) (bufLen : Nat) (e : OflErr)
    (s : UnpackState) : Prop where
  xid : s.xid = some (if bufLen < OfpHeader.size then 0 else ntohl (get32 buf OfpHeader.xid))
  cause : NamesFailed (guards exp buf bufLen) e
  founded : e ∉ unfounded

/-- The header passes, and the `switch` sees the type `t`; `none` is its `default`. -/
structure Reaches (buf : Mem) (bufLen : Nat) (t : Option OfpType) : Prop where
  len : 8 ≤ bufLen
  version : buf OfpHeader.version = ofpVersion
  length : (ntohs (get16 buf OfpHeader.length)).toNat = bufLen
  type : OfpType.ofUInt8? (buf OfpHeader.type) = t

theorem Reaches.run {t : Option OfpType} (h : Reaches buf bufLen t) (exp : Option (OflExp L))
    (x : Option UInt32) :
    oflMsgUnpack exp buf bufLen x = unpackBody exp buf t (bodyState buf bufLen x) := by
  rw [oflMsgUnpack_of_header exp x h.len h.version h.length]
  show unpackBody exp buf (OfpType.ofUInt8? (buf OfpHeader.type)) _ = _
  rw [h.type]

/-- A request body of `n` bytes fails no check with a wrong report. -/
def RequestLabelled (buf : Mem) (n : Nat) : Option OfpMultipartType → Prop
  | some .portStats =>
      OfpPortStatsRequest.size ≤ n → ¬ BadStatsPort buf OfpPortStatsRequest.portNo
  | some .queue => OfpQueueStatsRequest.size ≤ n → ¬ BadStatsPort buf OfpQueueStatsRequest.portNo
  | _ => True

/-- A message of `n` bytes that the `switch` sees fails no check with a wrong report. -/
def BodyLabelled (buf : Mem) (n : Nat) : Option OfpType → Prop
  | some .error => OfpErrorMsg.size ≤ n
  | some .packetIn => OfpPacketIn.size ≤ n → buf OfpPacketIn.tableId ≠ 0xff
  | some .flowRemoved =>
      OfpFlowRemoved.size - OfpMatch.size ≤ n ∧ buf OfpFlowRemoved.tableId ≠ 0xff
  | some .groupMod => OfpGroupMod.size ≤ n → ¬ BadGroupCommand buf ∧ ¬ BadGroupType buf
  | some .meterMod => OfpMeterMod.size ≤ n → ¬ BadMeterCommand buf ∧ ¬ BadMeterFlags buf
  | some .multipartRequest =>
      OfpMultipartRequest.size ≤ n →
        RequestLabelled buf (n - OfpMultipartRequest.size) (multipartType buf)
  | none => False
  | _ => True

def WellLabelled (buf : Mem) (bufLen : Nat) : Prop :=
  ∀ t, Reaches buf bufLen t → BodyLabelled buf bufLen t

/-! ## 2. Sound tables -/

/-- The first check that fails is reported, under its own name. -/
def Sound (gs : List Guard) : Prop :=
  ∀ g, gs.find? Guard.fails = some g → ∃ e ∈ g.check.pairs, g.report = some e

theorem sound_nil : Sound [] := nofun

theorem sound_cons {g : Guard} {gs : List Guard} :
    Sound (g :: gs) ↔ (g.fails = true → ∃ e ∈ g.check.pairs, g.report = some e) ∧
      (g.fails = false → Sound gs) := by
  unfold Sound
  cases hfails : g.fails with
  | true => simp [hfails]
  | false => simp [hfails]

theorem sound_on {c : Check} {p : Prop} [Decidable p] {e : OflErr} {gs : List Guard} :
    Sound (.on c p e :: gs) ↔ (p → e ∈ c.pairs) ∧ (¬ p → Sound gs) := by
  simp [sound_cons, Guard.on]

theorem sound_untested {c : Check} {p : Prop} [Decidable p] {gs : List Guard} :
    Sound (.untested c p :: gs) ↔ ¬ p ∧ Sound gs := by
  by_cases hp : p <;> simp [sound_cons, Guard.untested, hp]

/-- A check whose report is its own name never spoils a table. -/
theorem sound_right {c : Check} {p : Prop} [Decidable p] {e : OflErr} {gs : List Guard}
    (he : e ∈ c.pairs) : Sound (.on c p e :: gs) ↔ (¬ p → Sound gs) := by
  rw [sound_on, and_iff_right fun _ => he]

theorem sound_wrong {c : Check} {p : Prop} [Decidable p] {e : OflErr} {gs : List Guard}
    (he : e ∉ c.pairs) : Sound (.on c p e :: gs) ↔ ¬ p ∧ Sound gs := by
  rw [sound_on]
  constructor
  · intro ⟨hlabel, hrest⟩
    have hp : ¬ p := fun hp => he (hlabel hp)
    exact ⟨hp, hrest hp⟩
  · exact fun ⟨hp, hrest⟩ => ⟨fun h => absurd h hp, fun _ => hrest⟩

theorem sound_buckets (n : Nat) : Sound (bucketGuards L buf n) := by
  cases hcount : L.bucketCount buf OfpGroupMod.buckets n with
  | ok k =>
    rw [bucketGuards_of_ok hcount, sound_right (by decide), sound_right (by decide)]
    exact fun _ _ => sound_nil
  | error e =>
    rw [bucketGuards_of_error hcount]
    exact sound_nil

theorem sound_request (n : Nat) (t : Option OfpMultipartType) :
    Sound (requestGuards exp buf n t) ↔ RequestLabelled buf n t := by
  cases t with
  | none => simp [requestGuards, RequestLabelled, sound_on, Check.pairs]
  | some t =>
    cases t with
    | portStats | queue =>
      rw [requestGuards, sound_right (by decide), sound_wrong (by decide)]
      simp [RequestLabelled, sound_nil]
    | _ => simp [requestGuards, RequestLabelled, sound_on, sound_nil, Check.pairs]

theorem sound_reply (n : Nat) (t : Option OfpMultipartType) : Sound (replyGuards exp n t) := by
  cases t with
  | none => simp [replyGuards, sound_on, Check.pairs]
  | some t => cases t <;> simp [replyGuards, sound_on, sound_nil, Check.pairs]

theorem sound_body (n : Nat) (t : Option OfpType) :
    Sound (bodyGuards exp buf n t) ↔ BodyLabelled buf n t := by
  cases t with
  | none =>
    rw [bodyGuards, sound_wrong (by decide)]
    simp [BodyLabelled]
  | some t =>
    cases t with
    | error =>
      rw [bodyGuards, sound_wrong (by decide)]
      simp [BodyLabelled, sound_nil]
    | packetIn =>
      rw [bodyGuards, sound_right (by decide), sound_wrong (by decide)]
      simp [BodyLabelled, sound_nil]
    | flowRemoved =>
      rw [bodyGuards, sound_wrong (by decide), sound_wrong (by decide)]
      simp [BodyLabelled, sound_nil]
    | groupMod =>
      rw [bodyGuards, List.cons_append, List.cons_append, List.cons_append, List.cons_append,
        List.nil_append, sound_right (by decide), sound_wrong (by decide), sound_untested,
        sound_right (by decide)]
      simp [BodyLabelled, sound_buckets]
    | meterMod =>
      rw [bodyGuards, sound_right (by decide), sound_wrong (by decide), sound_wrong (by decide),
        sound_right (by decide)]
      simp [BodyLabelled, sound_nil]
    | multipartRequest =>
      rw [bodyGuards, sound_right (by decide), sound_request]
      simp [BodyLabelled]
    | multipartReply => simp [bodyGuards, BodyLabelled, sound_on, sound_reply, Check.pairs]
    | _ => simp [bodyGuards, BodyLabelled, sound_on, sound_nil, Check.pairs]

theorem sound_guards (exp : Option (OflExp L)) : Sound (guards exp buf bufLen) ↔ WellLabelled buf bufLen := by
  rw [guards, sound_right (by decide), sound_right (by decide), sound_right (by decide), sound_body]
  constructor
  · intro h t hr
    rw [← hr.type]
    exact h (Nat.not_lt.mpr hr.len) (not_not_intro hr.version) (not_not_intro hr.length.symm)
  · intro h hlen hversion hlength
    exact h _ ⟨Nat.le_of_not_lt hlen, not_not.mp hversion, (not_not.mp hlength).symm, rfl⟩

/-! ## 3. Names -/

abbrev badGroupType : OflErr := .ofl .groupModFailed ofpgmfcBadType

/-- No check reports a bad group type, and only that check has no report. -/
structure Guard.Plain (g : Guard) : Prop where
  report_ne : g.report ≠ some badGroupType
  check_of_none : g.report = none → g.check = .groupType

theorem Guard.plain_on {c : Check} {p : Prop} [Decidable p] {e : OflErr} (he : e ≠ badGroupType) :
    (Guard.on c p e).Plain :=
  ⟨fun h => he (Option.some.inj h), nofun⟩

theorem Guard.plain_untested {p : Prop} [Decidable p] :
    (Guard.untested .groupType p).Plain :=
  ⟨nofun, fun _ => rfl⟩

theorem plain_request (n : Nat) (t : Option OfpMultipartType) :
    ∀ g ∈ requestGuards exp buf n t, g.Plain := by
  cases t with
  | none => simp [requestGuards, Guard.plain_on]
  | some t => cases t <;> simp [requestGuards, Guard.plain_on]

theorem plain_reply (n : Nat) (t : Option OfpMultipartType) :
    ∀ g ∈ replyGuards exp n t, g.Plain := by
  cases t with
  | none => simp [replyGuards, Guard.plain_on]
  | some t => cases t <;> simp [replyGuards, Guard.plain_on]

theorem invalidGroup_ne : OflErr.ofl .groupModFailed ofpgmfcInvalidGroup ≠ badGroupType := by decide

theorem plain_buckets (n : Nat) : ∀ g ∈ bucketGuards L buf n, g.Plain := by
  cases hcount : L.bucketCount buf OfpGroupMod.buckets n with
  | ok k => simp [bucketGuards_of_ok hcount, Guard.plain_on invalidGroup_ne]
  | error e => simp [bucketGuards_of_error hcount]

theorem plain_body (n : Nat) (t : Option OfpType) : ∀ g ∈ bodyGuards exp buf n t, g.Plain := by
  cases t with
  | none => simp [bodyGuards, Guard.plain_on]
  | some t =>
    cases t with
    | groupMod =>
      have hbuckets : ∀ g ∈ bucketGuards L buf (n - 16), g.Plain := plain_buckets _
      simpa [bodyGuards, Guard.plain_on, Guard.plain_untested, Guard.plain_on invalidGroup_ne]
        using hbuckets
    | multipartRequest => simpa [bodyGuards, Guard.plain_on] using plain_request _ _
    | multipartReply => simpa [bodyGuards, Guard.plain_on] using plain_reply _ _
    | _ => simp [bodyGuards, Guard.plain_on]

theorem plain_guards : ∀ g ∈ guards exp buf bufLen, g.Plain := by
  simpa [guards, Guard.plain_on] using plain_body bufLen _

/-- The first check that fails is also the first to fire, if it can. -/
theorem find?_fires {gs : List Guard} {g : Guard} (hreport : g.report.isSome = true)
    (h : gs.find? Guard.fails = some g) : gs.find? Guard.fires = some g := by
  obtain ⟨hfails, as, bs, rfl, has⟩ := List.find?_eq_some_iff_append.mp h
  refine List.find?_eq_some_iff_append.mpr ⟨?_, as, bs, rfl, ?_⟩
  · rw [Guard.fires, hfails, hreport, Bool.and_self]
  · intro a ha
    have hpass : a.fails = false := by simpa using has a ha
    rw [Guard.fires, hpass, Bool.false_and, Bool.not_false]

theorem find?_fires_none {gs : List Guard} (h : gs.find? Guard.fails = none) :
    gs.find? Guard.fires = none := by
  rw [List.find?_eq_none] at h ⊢
  intro g hg hfires
  exact h g hg (Bool.and_elim_left hfires)

/-- What is reported is never the name of the check that has no report. -/
theorem Reported.ne_badGroupType {gs : List Guard} {e : OflErr} (hplain : ∀ g ∈ gs, g.Plain)
    (h : Reported gs e) : e ≠ badGroupType := by
  rintro rfl
  unfold Reported at h
  cases hfind : gs.find? Guard.fires with
  | some g =>
    rw [hfind] at h
    exact (hplain g (List.mem_of_find?_eq_some hfind)).report_ne h
  | none =>
    rw [hfind] at h
    obtain ⟨n, hn⟩ := h
    cases hn

/-- The report names the failed check exactly if the table is sound. -/
theorem Reported.namesFailed_iff {gs : List Guard} {e : OflErr} (hplain : ∀ g ∈ gs, g.Plain)
    (h : Reported gs e) : NamesFailed gs e ↔ Sound gs := by
  have hne := h.ne_badGroupType hplain
  unfold Reported at h
  unfold NamesFailed Sound
  cases hfind : gs.find? Guard.fails with
  | none =>
    rw [find?_fires_none hfind] at h
    exact iff_of_true h nofun
  | some g =>
    cases hreport : g.report with
    | none =>
      have hcheck := (hplain g (List.mem_of_find?_eq_some hfind)).check_of_none hreport
      refine iff_of_false ?_ ?_
      · show e ∉ g.check.pairs
        rw [hcheck]
        exact fun hmem => hne (List.mem_singleton.mp hmem)
      · intro hsound
        obtain ⟨_, _, hsome⟩ := hsound g rfl
        exact absurd (hreport.symm.trans hsome) nofun
    | some r =>
      rw [find?_fires (by rw [hreport]; rfl) hfind] at h
      have hr : g.report = some e := h
      constructor
      · rintro hmem _ ⟨⟩
        exact ⟨e, hmem, hr⟩
      · intro hsound
        obtain ⟨e', hmem, hsome⟩ := hsound g rfl
        rwa [Option.some.inj (hr.symm.trans hsome)]

theorem Check.pairs_founded (c : Check) : ∀ e ∈ c.pairs, e ∉ unfounded := by
  cases c <;> decide

theorem NamesFailed.founded {gs : List Guard} {e : OflErr} (h : NamesFailed gs e) :
    e ∉ unfounded := by
  unfold NamesFailed at h
  cases hfind : gs.find? Guard.fails with
  | some g =>
    rw [hfind] at h
    exact g.check.pairs_founded e h
  | none =>
    rw [hfind] at h
    obtain ⟨n, rfl⟩ := h
    simp [unfounded]

/-! ## 4. Every rejection -/

/-- What a rejection leaves in `*xid`: with another version, what was there. -/
theorem xid_of_rejection (hL : L.ErrorsMarked exp) {old : UInt32} {f : Fault} {s : UnpackState}
    (hrun : oflMsgUnpack exp buf bufLen (some old) = .error f s) :
    s.xid = some (if bufLen < OfpHeader.size then 0
      else if buf OfpHeader.version = ofpVersion then ntohl (get32 buf OfpHeader.xid) else old) := by
  by_cases hlen : bufLen < 8
  · rw [oflMsgUnpack_of_short exp _ hlen] at hrun
    cases hrun
    rw [if_pos hlen]
    rfl
  · have hlong : 8 ≤ bufLen := Nat.le_of_not_lt hlen
    rw [if_neg hlen]
    by_cases hversion : buf 0 = ofpVersion
    · rw [if_pos hversion]
      by_cases hlength : (ntohs (get16 buf 2)).toNat = bufLen
      · rw [oflMsgUnpack_of_header exp _ hlong hversion hlength] at hrun
        have honly : RaisesOnly (bodyFaults buf (OfpType.ofUInt8? (buf 1)))
            (unpackBody exp buf (OfpType.ofUInt8? (buf 1))) := raises_body hL _
        have hends := honly.run (bodyState buf bufLen (some old))
        rw [hrun] at hends
        exact hends.1
      · rw [oflMsgUnpack_of_length exp _ hlong hversion hlength] at hrun
        cases hrun
        rfl
    · -- `*xid` is set after the version was tested.
      rw [oflMsgUnpack_of_version exp _ hlong hversion] at hrun
      cases hrun
      rw [if_neg hversion]

/-- The right `*xid`. -/
theorem xid_iff (hL : L.ErrorsMarked exp) {old : UInt32} {f : Fault} {s : UnpackState}
    (hrun : oflMsgUnpack exp buf bufLen (some old) = .error f s) :
    s.xid = some (if bufLen < OfpHeader.size then 0 else ntohl (get32 buf OfpHeader.xid)) ↔
      (OfpHeader.size ≤ bufLen → buf OfpHeader.version ≠ ofpVersion →
        old = ntohl (get32 buf OfpHeader.xid)) := by
  rw [xid_of_rejection hL hrun]
  by_cases hlen : bufLen < OfpHeader.size
  · simp only [if_pos hlen, true_iff]
    exact fun hlong => absurd hlen (Nat.not_lt.mpr hlong)
  · rw [if_neg hlen, if_neg hlen]
    by_cases hversion : buf OfpHeader.version = ofpVersion
    · simp only [if_pos hversion, true_iff]
      exact fun _ hother => absurd hversion hother
    · rw [if_neg hversion, Option.some.injEq]
      exact ⟨fun h _ _ => h, fun h => h (Nat.le_of_not_lt hlen) hversion⟩

/-- **Which rejections report the right transaction and the right cause**: those of a buffer with
the right version, or with the header's xid in `*xid` already, that fails no mislabelled check. -/
theorem reportsRight_iff (hL : L.ErrorsMarked exp) {old : UInt32} {e : OflErr} {s : UnpackState}
    (hrun : oflMsgUnpack exp buf bufLen (some old) = .error (.err e) s) :
    ReportsRight exp buf bufLen e s ↔
      (OfpHeader.size ≤ bufLen → buf OfpHeader.version ≠ ofpVersion →
        old = ntohl (get32 buf OfpHeader.xid)) ∧
      WellLabelled buf bufLen := by
  have hfollows := follows_oflMsgUnpack hL buf bufLen (some old)
  rw [hrun] at hfollows
  have hreported : Reported (guards exp buf bufLen) e := hfollows.reported
  rw [← xid_iff hL hrun, ← sound_guards exp, ← hreported.namesFailed_iff plain_guards]
  constructor
  · exact fun h => ⟨h.xid, h.cause⟩
  · exact fun ⟨hxid, hcause⟩ => ⟨hxid, hcause, hcause.founded⟩

/-- A multipart request of type 99 is refused with the right pair. -/
theorem reportsRight_iff_unknownMultipart :
    let buf := sampleBuf [4, 18, 0, 16, 0, 0, 0, 7, 0, 99, 0, 0, 0, 0, 0, 0]
    let s : UnpackState := ⟨0, some 7, false, false⟩
    oflMsgUnpack (L := sampleLib.marked) none buf 16 (some 99) = .error (.err badMultipart) s ∧
      ReportsRight (L := sampleLib.marked) none buf 16 badMultipart s := by
  have hrun : oflMsgUnpack (L := sampleLib.marked) none
      (sampleBuf [4, 18, 0, 16, 0, 0, 0, 7, 0, 99, 0, 0, 0, 0, 0, 0]) 16 (some 99) =
      .error (.err badMultipart) ⟨0, some 7, false, false⟩ := rfl
  refine ⟨hrun, (reportsRight_iff sampleLib.marked_errorsMarked hrun).mpr
    ⟨fun _ hversion => absurd rfl hversion, ?_⟩⟩
  intro t hr
  rw [← hr.type]
  exact fun _ => trivial

/-- Version 1 leaves `*xid` as it was. An unknown type is blamed on the role of the controller, and
a METER_MOD with flag 16 on its permissions. A GROUP_MOD of type 4 is blamed on its group, a
PORT_STATS request for port 0 on its length, a short ERROR on nothing. -/
theorem rejections_misreport :
    let version := sampleBuf [1, 0, 0, 8, 0, 0, 0, 7]
    let type := sampleBuf [4, 30, 0, 8, 0, 0, 0, 7]
    let meter := sampleBuf [4, 29, 0, 16, 0, 0, 0, 7, 0, 0, 0, 16, 0, 0, 0, 1]
    let group := sampleBuf [4, 15, 0, 16, 0, 0, 0, 7, 0, 0, 4, 0, 0xff, 0xff, 0xff, 1]
    let port := sampleBuf
      [4, 18, 0, 24, 0, 0, 0, 7, 0, 4, 0, 0, 0, 0, 0, 0, 0, 0, 0, 0, 0, 0, 0, 0]
    let error := sampleBuf [4, 1, 0, 8, 0, 0, 0, 7]
    let misreports (buf : Mem) (bufLen : Nat) (e : OflErr) (s : UnpackState) : Prop :=
      oflMsgUnpack (L := sampleLib.marked) none buf bufLen (some 99) = .error (.err e) s ∧
        ¬ ReportsRight (L := sampleLib.marked) none buf bufLen e s
    misreports version 8 (.ofl .helloFailed ofphfcIncompatible) ⟨8, some 99, false, false⟩ ∧
    misreports type 8 (.ofl .badRequest ofpbrcIsSlave) ⟨8, some 7, false, false⟩ ∧
    misreports meter 16 (.ofl .badRequest ofpbrcEperm) ⟨0, some 7, false, false⟩ ∧
    misreports group 16 (.ofl .groupModFailed ofpgmfcInvalidGroup) ⟨0, some 7, false, false⟩ ∧
    misreports port 24 badLen ⟨8, some 7, false, false⟩ ∧
    misreports error 8 .oflError ⟨8, some 7, false, false⟩ := by
  refine ⟨⟨rfl, fun h => absurd h.xid (by decide)⟩, ⟨rfl, fun h => h.founded (by decide)⟩,
    ⟨rfl, fun h => h.founded (by decide)⟩, ⟨rfl, fun h => ?_⟩, ⟨rfl, fun h => ?_⟩,
    ⟨rfl, fun h => ?_⟩⟩
  · have hname : OflErr.ofl .groupModFailed ofpgmfcInvalidGroup ∈ Check.groupType.pairs := h.cause
    exact absurd hname (by decide)
  · have hname : badLen ∈ Check.statsPort.pairs := h.cause
    exact absurd hname (by decide)
  · have hname : OflErr.oflError ∈ Check.bodyLength.pairs := h.cause
    exact absurd hname (by decide)

end CcPof.OpenFlow
