import CcPof.OpenFlow.SampleLib
import CcPof.OpenFlow.UnpackRules

/-!
# Errors of the element decoders

Every decoder but four is honest. PACKET_IN does not look at the result of the match decoder,
PACKET_OUT does not return after a failed action, and both TABLE_FEATURES decoders go on after a
failed entry. The inputs on which that happens are described by the calls alone.
-/

namespace CcPof.OpenFlow

variable {L : OflLib} {α β : Type}

/-! ## 1. Decoders that report every element error -/

theorem honest_guarded {n : Nat} {e : OflErr} {f : Unit → Unpack α} (hf : ∀ u, Honest (f u)) :
    Honest (requireLen n e >>= fun _ => subLen n >>= f) :=
  (Honest.requireLen n e).bind fun _ => (Honest.subLen n).bind hf

theorem honest_empty (a : α) : Honest (do oflMsgUnpackEmpty; pure a) :=
  (Honest.subLen _).bind fun _ => Honest.pure a

theorem honest_error (buf : Mem) : Honest (oflMsgUnpackError buf) :=
  honest_guarded fun _ => (Honest.takeRest _ _).bind fun _ => Honest.pure _

theorem honest_echo (buf : Mem) : Honest (oflMsgUnpackEcho buf) :=
  (Honest.subLen _).bind fun _ => (Honest.takeRest _ _).bind fun _ => Honest.pure _

theorem honest_roleRequest (buf : Mem) : Honest (oflMsgUnpackRoleRequest buf) :=
  honest_guarded fun _ => Honest.pure _

theorem honest_featuresReply (buf : Mem) : Honest (oflMsgUnpackFeaturesReply buf) :=
  (Honest.subLen _).bind fun _ => Honest.pure _

theorem honest_config (buf : Mem) : Honest (unpackConfig buf) := honest_guarded fun _ => Honest.pure _

theorem honest_asyncConfig (buf : Mem) : Honest (oflMsgUnpackAsyncConfig buf) :=
  honest_guarded fun _ => Honest.pure _

theorem honest_portMod (buf : Mem) : Honest (oflMsgUnpackPortMod buf) :=
  honest_guarded fun _ => Honest.pure _

theorem honest_tableMod (buf : Mem) : Honest (oflMsgUnpackTableMod buf) :=
  honest_guarded fun _ => Honest.pure _

theorem honest_queueGetConfigRequest (buf : Mem) : Honest (oflMsgUnpackQueueGetConfigRequest buf) :=
  (Honest.requireLen _ _).bind fun _ => (Honest.rejectIf _ _).bind fun _ =>
    (Honest.subLen _).bind fun _ => Honest.pure _

theorem honest_flowRemoved (buf : Mem) : Honest (oflMsgUnpackFlowRemoved (L := L) buf) :=
  (Honest.requireLen _ _).bind fun _ => (Honest.rejectIf _ _).bind fun _ =>
    (Honest.subLen _).bind fun _ => (Honest.nestedOrReturn _).bind fun _ => Honest.pure _

theorem honest_portStatus (buf : Mem) : Honest (oflMsgUnpackPortStatus (L := L) buf) :=
  (Honest.requireLen _ _).bind fun _ => (Honest.subLen _).bind fun _ =>
    (Honest.nestedOrReturn _).bind fun _ => Honest.pure _

theorem honest_flowMod (buf : Mem) : Honest (oflMsgUnpackFlowMod (L := L) buf) :=
  honest_guarded fun _ => (Honest.nestedOrReturn _).bind fun _ =>
    (Honest.unpackRest _ _ _ _ _).bind fun _ => Honest.pure _

theorem honest_groupMod (buf : Mem) : Honest (oflMsgUnpackGroupMod (L := L) buf) :=
  honest_guarded fun _ => (Honest.rejectIf _ _).bind fun _ => (Honest.rejectIf _ _).bind fun _ =>
    (Honest.rejectIf _ _).bind fun _ => Honest.get.bind fun _ => (Honest.orReturn _).bind fun _ =>
    (Honest.rejectIf _ _).bind fun _ => (Honest.rejectIf _ _).bind fun _ =>
    (Honest.unpackArr _ _ _ _ _).bind fun _ => Honest.pure _

theorem honest_meterMod (buf : Mem) : Honest (oflMsgUnpackMeterMod (L := L) buf) :=
  honest_guarded fun _ => (Honest.rejectIf _ _).bind fun _ => (Honest.rejectIf _ _).bind fun _ =>
    (Honest.rejectIf _ _).bind fun _ => (Honest.unpackRest _ _ _ _ _).bind fun _ => Honest.pure _

theorem honest_queueGetConfigReply (buf : Mem) :
    Honest (oflMsgUnpackQueueGetConfigReply (L := L) buf) :=
  honest_guarded fun _ => (Honest.unpackRest _ _ _ _ _).bind fun _ => Honest.pure _

/-! ## 2. Multipart bodies -/

theorem honest_multipartRequestFlow (buf : Mem) :
    Honest (oflMsgUnpackMultipartRequestFlow (L := L) buf) :=
  honest_guarded fun _ => (Honest.nestedOrReturn _).bind fun _ => Honest.pure _

theorem honest_multipartRequestPort (buf : Mem) : Honest (oflMsgUnpackMultipartRequestPort buf) :=
  (Honest.requireLen _ _).bind fun _ => (Honest.rejectIf _ _).bind fun _ =>
    (Honest.subLen _).bind fun _ => Honest.pure _

theorem honest_multipartRequestQueue (buf : Mem) : Honest (oflMsgUnpackMultipartRequestQueue buf) :=
  (Honest.requireLen _ _).bind fun _ => (Honest.rejectIf _ _).bind fun _ =>
    (Honest.subLen _).bind fun _ => Honest.pure _

theorem honest_callStats (tested : Option β) (called : Option (ElemDecoder α)) (buf : Mem) :
    Honest (callStats tested called buf) := by
  cases tested with
  | none => exact Honest.throw _
  | some _ =>
    cases called with
    | none => exact Honest.throw _
    | some unpack => exact Honest.nestedOrReturn _

theorem honest_requestBody (exp : Option (OflExp L)) (buf : Mem) {t : Option OfpMultipartType}
    (ht : t ≠ some .tableFeatures) : Honest (unpackRequestBody exp buf t) := by
  cases t with
  | none => exact Honest.throw _
  | some t =>
    cases t with
    | tableFeatures => exact absurd rfl ht
    | flow => exact (honest_multipartRequestFlow buf).map
    | aggregate => exact (honest_multipartRequestFlow buf).map
    | portStats => exact (honest_multipartRequestPort buf).map
    | queue => exact (honest_multipartRequestQueue buf).map
    | group => exact Honest.map (honest_guarded fun _ => Honest.pure _)
    | meter => exact Honest.map (honest_guarded fun _ => Honest.pure _)
    | meterConfig => exact Honest.map (honest_guarded fun _ => Honest.pure _)
    | experimenter => exact (honest_callStats _ _ buf).map
    | meterFeatures => exact Honest.throw _
    | _ => exact (Honest.pure _).bind fun _ => Honest.pure _

theorem honest_strcpy (buf : Mem) (pos : Nat) : Honest (strcpy L buf pos) := by
  unfold strcpy
  cases strlen buf pos (L.mappedEnd - pos) with
  | none => exact Honest.throw _
  | some n => exact Honest.pure _

theorem honest_replyDesc (buf : Mem) : Honest (oflMsgUnpackReplyDesc L buf) :=
  honest_guarded fun _ => (honest_strcpy buf _).bind fun _ => (honest_strcpy buf _).bind fun _ =>
    (honest_strcpy buf _).bind fun _ => (honest_strcpy buf _).bind fun _ =>
    (honest_strcpy buf _).bind fun _ => Honest.pure _

theorem honest_flowStats (buf : Mem) (n : Nat) :
    ∀ stat ptr, Honest (unpackFlowStats (L := L) buf n stat ptr) := by
  induction n with
  | zero => exact fun _ _ => Honest.pure _
  | succ n ih =>
    intro stat ptr
    exact Honest.get.bind fun _ => (Honest.nestedOrReturn _).bind fun _ => Honest.get.bind fun _ =>
      (ih _ _).bind fun _ => Honest.pure _

theorem honest_multipartReplyFlow (buf : Mem) :
    Honest (oflMsgUnpackMultipartReplyFlow (L := L) buf) :=
  Honest.get.bind fun _ => (Honest.orReturn _).bind fun n => honest_flowStats buf n _ _

theorem honest_replyArr (k : ElemKind) (stride : Mem → Nat → Nat) (buf : Mem) :
    Honest (unpackReplyArr (L := L) k stride buf) :=
  Honest.unpackRest _ _ _ _ _

theorem honest_replyBody (exp : Option (OflExp L)) (buf : Mem) {t : Option OfpMultipartType}
    (ht : t ≠ some .tableFeatures) : Honest (unpackReplyBody exp buf t) := by
  cases t with
  | none => exact Honest.throw _
  | some t =>
    cases t with
    | tableFeatures => exact absurd rfl ht
    | desc => exact (honest_replyDesc buf).map
    | flow => exact (honest_multipartReplyFlow buf).map
    | aggregate => exact Honest.map (honest_guarded fun _ => Honest.pure _)
    | groupFeatures => exact Honest.map (honest_guarded fun _ => Honest.pure _)
    | experimenter => exact (honest_callStats _ _ buf).map
    | meterFeatures => exact Honest.throw _
    | table => exact (honest_replyArr _ _ buf).map
    | portStats => exact (honest_replyArr _ _ buf).map
    | queue => exact (honest_replyArr _ _ buf).map
    | group => exact (honest_replyArr _ _ buf).map
    | groupDesc => exact (honest_replyArr _ _ buf).map
    | meter => exact (honest_replyArr _ _ buf).map
    | meterConfig => exact (honest_replyArr _ _ buf).map
    | portDesc => exact (honest_replyArr _ _ buf).map

theorem honest_unpackBody (exp : Option (OflExp L)) (buf : Mem) {t : Option OfpType}
    (ht : t ≠ some .packetIn ∧ t ≠ some .packetOut ∧ t ≠ some .multipartRequest ∧
      t ≠ some .multipartReply) : Honest (unpackBody exp buf t) := by
  cases t with
  | none => exact Honest.throw _
  | some t =>
    cases t with
    | packetIn => exact absurd rfl ht.1
    | packetOut => exact absurd rfl ht.2.1
    | multipartRequest => exact absurd rfl ht.2.2.1
    | multipartReply => exact absurd rfl ht.2.2.2
    | error => exact (honest_error buf).map
    | echoRequest => exact (honest_echo buf).map
    | echoReply => exact (honest_echo buf).map
    | experimenter =>
      unfold unpackBody
      cases OflExp.msgUnpack exp with
      | none => exact Honest.throw _
      | some unpack => exact (Honest.nestedOrReturn _).map
    | featuresReply => exact (honest_featuresReply buf).map
    | getConfigReply => exact (honest_config buf).map
    | setConfig => exact (honest_config buf).map
    | flowRemoved => exact (honest_flowRemoved buf).map
    | portStatus => exact (honest_portStatus buf).map
    | getAsyncReply => exact (honest_asyncConfig buf).map
    | setAsync => exact (honest_asyncConfig buf).map
    | flowMod => exact (honest_flowMod buf).map
    | groupMod => exact (honest_groupMod buf).map
    | portMod => exact (honest_portMod buf).map
    | tableMod => exact (honest_tableMod buf).map
    | roleRequest => exact (honest_roleRequest buf).map
    | roleReply => exact (honest_roleRequest buf).map
    | queueGetConfigRequest => exact (honest_queueGetConfigRequest buf).map
    | queueGetConfigReply =>
      exact (honest_queueGetConfigReply buf).bind fun _ => Honest.pure _
    | meterMod => exact (honest_meterMod buf).map
    | _ => exact honest_empty _

theorem honest_multipartRequest (exp : Option (OflExp L)) (buf : Mem)
    (ht : multipartType buf ≠ some .tableFeatures) :
    Honest (oflMsgUnpackMultipartRequest exp buf) :=
  honest_guarded fun _ => (honest_requestBody exp buf ht).bind fun _ => Honest.pure _

theorem honest_multipartReply (exp : Option (OflExp L)) (buf : Mem)
    (ht : multipartType buf ≠ some .tableFeatures) : Honest (oflMsgUnpackMultipartReply exp buf) :=
  honest_guarded fun _ => (honest_replyBody exp buf ht).bind fun _ => Honest.pure _

/-! ## 3. Loops that go on after an error -/

/-- Some call of a loop over `n` entries fails. -/
def FailsInWalk (unpack : ElemDecoder α) (stride : Mem → Nat → Nat) (buf : Mem) :
    Nat → (pos len : Nat) → Prop
  | 0, _, _ => False
  | n + 1, pos, len =>
      (unpack buf pos len).1.isOk = false ∨
        FailsInWalk unpack stride buf n (pos + stride buf pos) (unpack buf pos len).2

/-- The loop always succeeds; only the ghost flag tells that a call has failed. -/
theorem unpackArrLax_run (stale : α) (unpack : ElemDecoder α) (stride : Mem → Nat → Nat)
    (buf : Mem) (n : Nat) : ∀ (pos : Nat) (s : UnpackState), ∃ as s',
      unpackArrLax stale unpack stride buf n pos s = .ok as s' ∧
        (s'.failed = true ↔ s.failed = true ∨ FailsInWalk unpack stride buf n pos s.len) := by
  induction n with
  | zero => exact fun _ s => ⟨[], s, rfl, Or.inl, fun h => h.elim id False.elim⟩
  | succ n ih =>
    intro pos s
    obtain ⟨as, s', hrun, hfailed⟩ := ih (pos + stride buf pos)
      { s with
        len := (unpack buf pos s.len).2
        failed := s.failed || !(unpack buf pos s.len).1.isOk }
    refine ⟨(unpack buf pos s.len).1.toOption.getD stale :: as, s', ?_, ?_⟩
    · simp only [unpackArrLax, nested, bind_run, hrun, pure_run]
    · rw [hfailed, FailsInWalk, Bool.or_eq_true, Bool.not_eq_true', or_assoc]

/-- A success reports its element errors exactly when there were none. -/
theorem reportsFailure_ok_iff {a : α} {s : UnpackState} {P : Prop} (h : s.failed = true ↔ P) :
    ReportsFailure (.ok a s : EStateM.Result Fault UnpackState α) ↔ ¬ P := by
  rw [← h, Bool.not_eq_true]
  exact Iff.rfl

theorem reportsFailure_map_iff {x : Unpack α} {f : α → β} {s : UnpackState} :
    ReportsFailure ((f <$> x) s) ↔ ReportsFailure (x s) := by
  rw [map_run]
  cases x s with
  | ok a s' => exact Iff.rfl
  | error e s' => cases e <;> exact Iff.rfl

/-! ## 4. The four decoders that swallow errors -/

/-- PACKET_IN passes its own checks and its match does not decode. -/
def PacketInSwallows (L : OflLib) (buf : Mem) (len : Nat) : Prop :=
  OfpPacketIn.size ≤ len ∧ buf OfpPacketIn.tableId ≠ 0xff ∧
    (L.matchUnpack buf OfpPacketIn.fmatch (OfpPacketIn.size - 4)
      (len - (OfpPacketIn.size - OfpMatch.size))).1.isOk = false

/-- PACKET_OUT passes its own checks and one of its actions does not decode. -/
def PacketOutSwallows (L : OflLib) (buf : Mem) (len : Nat) : Prop :=
  let actionsLen := (ntohs (get16 buf OfpPacketOut.actionsLen)).toNat
  OfpPacketOut.size ≤ len ∧
    ¬ (ntohl (get32 buf OfpPacketOut.bufferId) ≠ 0xffffffff ∧
      len ≠ OfpPacketOut.size + actionsLen) ∧
    actionsLen ≤ len - OfpPacketOut.size ∧
    ∃ n, L.actionCount buf OfpPacketOut.actions actionsLen = .ok n ∧
      FailsInWalk L.actionUnpack (lenField OfpActionHeader.len) buf n OfpPacketOut.actions
        (len - OfpPacketOut.size)

/-- A TABLE_FEATURES body of `len` bytes is counted and one of its entries does not decode. -/
def TableFeaturesSwallows (L : OflLib) (buf : Mem) (len : Nat) : Prop :=
  ∃ n, L.elemCount .tableFeatures buf OfpMultipartReply.body len = .ok n ∧
    FailsInWalk (L.elemUnpack .tableFeatures) (lenField OfpTableFeatures.length) buf n
      OfpMultipartReply.body len

theorem packetIn_reportsFailure_iff (buf : Mem) {s : UnpackState} (hs : s.failed = false) :
    ReportsFailure (oflMsgUnpackPacketIn (L := L) buf s) ↔ ¬ PacketInSwallows L buf s.len := by
  by_cases hlen : OfpPacketIn.size ≤ s.len
  · by_cases htable : buf OfpPacketIn.tableId = 0xff
    · simp only [oflMsgUnpackPacketIn, bind_run, requireLen_run hlen, rejectIf_reject htable]
      exact iff_of_true trivial fun h => h.2.1 htable
    · -- The result of the match decoder is dropped.
      have hsub : OfpPacketIn.size - OfpMatch.size ≤ s.len := Nat.le_trans (by decide) hlen
      simp only [oflMsgUnpackPacketIn, bind_run, requireLen_run hlen, rejectIf_run htable,
        subLen_run hsub, nested]
      simp only [subLen, takeRest_run, pure_run]
      apply reportsFailure_ok_iff
      simp only [hs, Bool.false_or, Bool.not_eq_true', PacketInSwallows, hlen, htable, ne_eq,
        not_false_eq_true, true_and]
  · simp only [oflMsgUnpackPacketIn, bind_run, requireLen_reject (Nat.not_le.mp hlen)]
    exact iff_of_true trivial fun h => hlen h.1

theorem packetOut_reportsFailure_iff (buf : Mem) {s : UnpackState} (hs : s.failed = false) :
    ReportsFailure (oflMsgUnpackPacketOut (L := L) buf s) ↔ ¬ PacketOutSwallows L buf s.len := by
  by_cases hlen : OfpPacketOut.size ≤ s.len
  · simp only [oflMsgUnpackPacketOut, PacketOutSwallows, bind_run, requireLen_run hlen, get_run,
      hlen, true_and]
    by_cases hexact : ntohl (get32 buf OfpPacketOut.bufferId) ≠ 0xffffffff ∧
        s.len ≠ OfpPacketOut.size + (ntohs (get16 buf OfpPacketOut.actionsLen)).toNat
    · simp only [rejectIf_reject hexact]
      exact iff_of_true trivial fun h => h.1 hexact
    · simp only [rejectIf_run hexact, subLen_run hlen]
      by_cases hactions : (ntohs (get16 buf OfpPacketOut.actionsLen)).toNat ≤
          s.len - OfpPacketOut.size
      · -- An error of the count is returned, one of the loop behind it is not.
        rw [requireLen_run hactions]
        cases hcount : L.actionCount buf OfpPacketOut.actions
            (ntohs (get16 buf OfpPacketOut.actionsLen)).toNat with
        | error e =>
          simp only [orReturn_error]
          apply iff_of_true trivial
          rintro ⟨_, _, n, hn, _⟩
          cases hn
        | ok n =>
          obtain ⟨as, s', hrun, hfailed⟩ := unpackArrLax_run L.staleAction L.actionUnpack
            (lenField OfpActionHeader.len) buf n OfpPacketOut.actions
            { s with len := s.len - OfpPacketOut.size }
          simp only [orReturn_ok, hrun, takeRest_run, pure_run]
          apply reportsFailure_ok_iff
          simp [hfailed, hs, hexact, hactions]
      · rw [requireLen_reject (Nat.not_le.mp hactions)]
        exact iff_of_true trivial fun h => hactions h.2.1
  · simp only [oflMsgUnpackPacketOut, bind_run, requireLen_reject (Nat.not_le.mp hlen)]
    exact iff_of_true trivial fun h => hlen h.1

theorem reportsFailure_error {e : OflErr} {s : UnpackState} :
    ReportsFailure (.error (.err e) s : EStateM.Result Fault UnpackState α) := trivial

/-- What both TABLE_FEATURES decoders do once they have counted the entries. -/
theorem tableFeaturesLoop_reportsFailure_iff (buf : Mem) {s : UnpackState}
    (hs : s.failed = false) :
    ReportsFailure ((do
        let n ← orReturn (L.elemCount .tableFeatures buf OfpMultipartReply.body s.len)
        unpackArrLax L.staleTableFeatures (L.elemUnpack .tableFeatures)
          (lenField OfpTableFeatures.length) buf n OfpMultipartReply.body :
          Unpack (List (L.Elem .tableFeatures))) s) ↔ ¬ TableFeaturesSwallows L buf s.len := by
  cases hcount : L.elemCount .tableFeatures buf OfpMultipartReply.body s.len with
  | error e =>
    simp only [bind_run, orReturn_error]
    apply iff_of_true trivial
    rintro ⟨n, hn, _⟩
    rw [hcount] at hn
    cases hn
  | ok n =>
    obtain ⟨as, s', hrun, hfailed⟩ := unpackArrLax_run L.staleTableFeatures
      (L.elemUnpack .tableFeatures) (lenField OfpTableFeatures.length) buf n OfpMultipartReply.body s
    simp only [bind_run, orReturn_ok, hrun]
    apply reportsFailure_ok_iff
    rw [hfailed, TableFeaturesSwallows, hcount, hs]
    simp only [Except.ok.injEq, exists_eq_left', Bool.false_eq_true, false_or]

theorem multipartRequest_reportsFailure_iff (exp : Option (OflExp L)) (buf : Mem)
    {s : UnpackState} (hs : s.failed = false)
    (ht : multipartType buf = some .tableFeatures) :
    ReportsFailure (oflMsgUnpackMultipartRequest exp buf s) ↔
      ¬ (OfpMultipartRequest.size < s.len ∧
        TableFeaturesSwallows L buf (s.len - OfpMultipartRequest.size)) := by
  by_cases hlen : OfpMultipartRequest.size ≤ s.len
  · rw [multipartRequest_run exp buf hlen, reportsFailure_map_iff, ht, unpackRequestBody,
      reportsFailure_map_iff, oflMsgUnpackMultipartRequestTableFeatures, bind_run, get_run]
    -- Only the request decoder leaves an empty body alone.
    by_cases hempty : s.len - OfpMultipartRequest.size = 0
    · simp only [if_pos hempty]
      exact iff_of_true hs fun h => absurd h.1 (by omega)
    · have hlt : OfpMultipartRequest.size < s.len := by omega
      simp only [if_neg hempty, hlt, true_and]
      exact tableFeaturesLoop_reportsFailure_iff buf
        (s := { s with len := s.len - OfpMultipartRequest.size }) hs
  · rw [multipartRequest_short exp buf (Nat.not_le.mp hlen)]
    exact iff_of_true trivial fun h => hlen (Nat.le_of_lt h.1)

theorem multipartReply_reportsFailure_iff (exp : Option (OflExp L)) (buf : Mem)
    {s : UnpackState} (hs : s.failed = false)
    (ht : multipartType buf = some .tableFeatures) :
    ReportsFailure (oflMsgUnpackMultipartReply exp buf s) ↔
      ¬ (OfpMultipartReply.size ≤ s.len ∧
        TableFeaturesSwallows L buf (s.len - OfpMultipartReply.size)) := by
  by_cases hlen : OfpMultipartReply.size ≤ s.len
  · rw [multipartReply_run exp buf hlen, reportsFailure_map_iff, ht, unpackReplyBody,
      reportsFailure_map_iff, oflMsgUnpackMultipartReplyTableFeatures, bind_run, get_run]
    simp only [hlen, true_and]
    exact tableFeaturesLoop_reportsFailure_iff buf
      (s := { s with len := s.len - OfpMultipartReply.size }) hs
  · rw [multipartReply_short exp buf (Nat.not_le.mp hlen)]
    exact iff_of_true trivial fun h => hlen h.1

/-! ## 5. The whole decoder -/

/-- The bodies, behind a well-formed header, in which a failed element decoder does not show in the
result. -/
def BodySwallows (L : OflLib) (buf : Mem) (len : Nat) : Option OfpType → Prop
  | some .packetIn => PacketInSwallows L buf len
  | some .packetOut => PacketOutSwallows L buf len
  | some .multipartRequest =>
      multipartType buf = some .tableFeatures ∧ OfpMultipartRequest.size < len ∧
        TableFeaturesSwallows L buf (len - OfpMultipartRequest.size)
  | some .multipartReply =>
      multipartType buf = some .tableFeatures ∧ OfpMultipartReply.size ≤ len ∧
        TableFeaturesSwallows L buf (len - OfpMultipartReply.size)
  | _ => False

/-- The messages whose failed element decoders do not show in the result. -/
def SwallowsFailure (L : OflLib) (buf : Mem) (bufLen : Nat) : Prop :=
  OfpHeader.size ≤ bufLen ∧ buf OfpHeader.version = ofpVersion ∧
    (ntohs (get16 buf OfpHeader.length)).toNat = bufLen ∧
    BodySwallows L buf bufLen (OfpType.ofUInt8? (buf OfpHeader.type))

theorem unpackBody_reportsFailure_iff (exp : Option (OflExp L)) (buf : Mem) (t : Option OfpType)
    {s : UnpackState} (hs : s.failed = false) :
    ReportsFailure (unpackBody exp buf t s) ↔ ¬ BodySwallows L buf s.len t := by
  by_cases hin : t = some .packetIn
  · subst hin
    exact reportsFailure_map_iff.trans (packetIn_reportsFailure_iff buf hs)
  by_cases hout : t = some .packetOut
  · subst hout
    exact reportsFailure_map_iff.trans (packetOut_reportsFailure_iff buf hs)
  by_cases hreq : t = some .multipartRequest
  · subst hreq
    by_cases ht : multipartType buf = some .tableFeatures
    · simp only [BodySwallows, ht, true_and]
      exact multipartRequest_reportsFailure_iff exp buf hs ht
    · exact iff_of_true ((honest_multipartRequest exp buf ht).reports s hs) fun h => ht h.1
  by_cases hreply : t = some .multipartReply
  · subst hreply
    by_cases ht : multipartType buf = some .tableFeatures
    · simp only [BodySwallows, ht, true_and]
      exact multipartReply_reportsFailure_iff exp buf hs ht
    · exact iff_of_true ((honest_multipartReply exp buf ht).reports s hs) fun h => ht h.1
  have hhonest := (honest_unpackBody exp buf ⟨hin, hout, hreq, hreply⟩).reports s hs
  apply iff_of_true hhonest
  unfold BodySwallows
  split
  · exact absurd rfl hin
  · exact absurd rfl hout
  · exact absurd rfl hreq
  · exact absurd rfl hreply
  · exact id

/-- **When element errors are reported**: a run of the decoder in which some element decoder fails
ends with an error, unless the message is one of those that swallow it. -/
theorem oflMsgUnpack_reportsFailure_iff (exp : Option (OflExp L)) (buf : Mem) (bufLen : Nat)
    (xid : Option UInt32) :
    ReportsFailure (oflMsgUnpack exp buf bufLen xid) ↔ ¬ SwallowsFailure L buf bufLen := by
  by_cases hlen : 8 ≤ bufLen
  · by_cases hversion : buf 0 = ofpVersion
    · by_cases hlength : (ntohs (get16 buf 2)).toNat = bufLen
      · rw [oflMsgUnpack_of_header exp xid hlen hversion hlength]
        refine (unpackBody_reportsFailure_iff exp buf _ rfl).trans (not_congr ?_)
        exact ⟨fun h => ⟨hlen, hversion, hlength, h⟩, fun h => h.2.2.2⟩
      · rw [oflMsgUnpack_of_length exp xid hlen hversion hlength]
        exact iff_of_true reportsFailure_error fun h => hlength h.2.2.1
    · rw [oflMsgUnpack_of_version exp xid hlen hversion]
      exact iff_of_true reportsFailure_error fun h => hversion h.2.1
  · rw [oflMsgUnpack_of_short exp xid (Nat.not_le.mp hlen)]
    exact iff_of_true trivial fun h => hlen h.1

/-- A PACKET_OUT whose only action has a type that the action decoder refuses is accepted. -/
theorem packetOut_bad_action_accepted :
    let buf := sampleBuf [4, 13, 0, 40, 0, 0, 0, 7, 255, 255, 255, 255, 0, 0, 0, 1, 0, 16, 0, 0, 0,
      0, 0, 0, 0, 1, 0, 16]
    sampleLib.actionUnpack buf 24 16 = (.error (.ofl .badRequest ofpbrcBadType), 16) ∧
      (∃ m s, oflMsgUnpack (L := sampleLib) none buf 40 none = .ok m s) ∧
      ¬ ReportsFailure (oflMsgUnpack (L := sampleLib) none buf 40 none) :=
  ⟨rfl, ⟨_, _, rfl⟩, fun h => Bool.noConfusion (h : true = false)⟩

end CcPof.OpenFlow
