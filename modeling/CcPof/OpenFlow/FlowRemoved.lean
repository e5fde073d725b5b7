import CcPof.OpenFlow.MatchLayout

/-!
# FLOW_REMOVED

The encoder stores the 64-bit swap of the 16-bit priority, whose low half is always 0, and neither
function carries `hard_timeout`. What comes back is the message with both of them 0.
-/

namespace CcPof.OpenFlow

variable {L : OflLib}

/-! ## 1. The priority -/

/-- The two low bytes of a swapped 64-bit number are its two high bytes. -/
theorem toUInt16_hton64 (x : UInt16) : (hton64 x.toUInt64).toUInt16 = 0 := by
  have hlow : toLE 8 x.toNat = toLE 2 x.toNat ++ List.replicate 6 0 :=
    toLE_add_of_lt (w := 2) x.toNat_lt 6
  apply UInt16.toNat_inj.mp
  rw [UInt64.toNat_toUInt16, toNat_hton64, UInt16.toNat_toUInt64, bswap, hlow, List.reverse_append,
    List.reverse_replicate, ofLE_append, List.length_replicate, ← toLE_zero, ofLE_toLE,
    UInt16.toNat_zero]
  omega

theorem ntoh64_zero : ntoh64 0 = 0 := by
  decide

/-! ## 2. Encode, then decode -/

/-- What the decoder makes of an encoded message. -/
def OflMsgFlowRemoved.received (m : OflMsgFlowRemoved L) : OflMsgFlowRemoved L :=
  { m with stats := { m.stats with priority := 0, hardTimeout := 0 } }

def flowRemovedFixed (m : OflMsgFlowRemoved L) (heap : Mem) : Mem :=
  let buf := put64 heap OfpFlowRemoved.cookie (hton64 m.stats.cookie)
  let buf := put16 buf OfpFlowRemoved.priority (hton64 m.stats.priority.toUInt64).toUInt16
  let buf := put8 buf OfpFlowRemoved.reason m.reason
  let buf := put8 buf OfpFlowRemoved.tableId m.stats.tableId
  let buf := put32 buf OfpFlowRemoved.durationSec (htonl m.stats.durationSec)
  let buf := put32 buf OfpFlowRemoved.durationNsec (htonl m.stats.durationNsec)
  let buf := put16 buf OfpFlowRemoved.idleTimeout (htons m.stats.idleTimeout)
  let buf := put64 buf OfpFlowRemoved.packetCount (hton64 m.stats.packetCount)
  put64 buf OfpFlowRemoved.byteCount (hton64 m.stats.byteCount)

theorem oflMsgPackFlowRemoved_eq (m : OflMsgFlowRemoved L) (heap : Mem) :
    oflMsgPackFlowRemoved m heap =
      packed (L.matchPack .host m.stats.fmatch (flowRemovedFixed m heap) 48 52)
        (48 + roundUp (4 + (L.matchLength m.stats.fmatch).toNat) 8) := by
  have hlen := roundUp_behind (show 48 % 8 = 0 by decide) (L.matchLength m.stats.fmatch).toNat
  simp only [oflMsgPackFlowRemoved, flowRemovedFixed, OfpFlowRemoved.size, Nat.reduceSub,
    OfpFlowRemoved.fmatch]
  rw [show 52 + (L.matchLength m.stats.fmatch).toNat =
    48 + 4 + (L.matchLength m.stats.fmatch).toNat from rfl, hlen]

theorem decodes_flowRemoved (H : MatchCodec L .host) (m : OflMsgFlowRemoved L) (heap : Mem)
    (htable : m.stats.tableId ≠ 0xff) (hsize : (oflMsgPackFlowRemoved m heap).bufLen ≤ 65535) :
    Decodes 8 0 (oflMsgPackFlowRemoved m heap) oflMsgUnpackFlowRemoved m.received := by
  intro buf h xid
  have hround := le_roundUp (4 + (L.matchLength m.stats.fmatch).toNat)
  have hmatch := H.changedWithin m.stats.fmatch (flowRemovedFixed m heap) 48
  rw [oflMsgPackFlowRemoved_eq] at hsize h ⊢
  dsimp only at hsize h ⊢
  generalize hn : (L.matchLength m.stats.fmatch).toNat = n at *
  -- The match lies behind the fixed part and takes everything that is left.
  have hfixed : AgreeOn 8 48 buf (flowRemovedFixed m heap) := by
    intro i hlo hhi
    rw [h i hlo (by omega), hmatch i (Or.inl hhi)]
  have hrun := H.unpack_packed (m := m.stats.fmatch) (roundUp (4 + n) 8) (by omega)
    (by rw [hn]) (by rw [hn]; exact h.mono (by omega) (by omega))
  have hnested : nestedOrReturn (L.matchUnpack buf 48 52) ⟨roundUp (4 + n) 8, xid, false, false⟩ =
      .ok m.stats.fmatch ⟨0, xid, false, false⟩ := by
    rw [hn, Nat.sub_self] at hrun
    exact nestedOrReturn_ok hrun
  simp only [flowRemovedFixed] at hfixed
  have htag : buf 19 ≠ 0xff := by
    rw [hfixed.get8 (by decide) (by decide)]
    simpa (disch := simp) [store_outside] using htable
  simp [oflMsgUnpackFlowRemoved, requireLen_run, subLen_run, rejectIf_run, htag, hnested]
  simp (disch := simp) [hfixed.get8, hfixed.get16, hfixed.get32, hfixed.get64, get16_store_disjoint,
    get32_store_disjoint, get64_store_disjoint, store_outside, toUInt16_hton64, ntoh64_zero,
    OflMsgFlowRemoved.received]

theorem OflMsgFlowRemoved.received_eq_iff (m : OflMsgFlowRemoved L) :
    m.received = m ↔ m.stats.priority = 0 ∧ m.stats.hardTimeout = 0 := by
  constructor
  · intro hsame
    have hpriority : (0 : UInt16) = m.stats.priority := congrArg (·.stats.priority) hsame
    have htimeout : (0 : UInt16) = m.stats.hardTimeout := congrArg (·.stats.hardTimeout) hsame
    exact ⟨hpriority.symm, htimeout.symm⟩
  · rintro ⟨hpriority, htimeout⟩
    calc m.received
        = { m with stats := { m.stats with
              priority := m.stats.priority, hardTimeout := m.stats.hardTimeout } } := by
          rw [OflMsgFlowRemoved.received, hpriority, htimeout]
      _ = m := rfl

/-- Where the message fits the length field, it is read back as `received`. -/
theorem readsBack_flowRemoved (H : MatchCodec L .host) (exp : Option (OflExp L))
    {m : OflMsgFlowRemoved L} (xid : UInt32) {heap : Mem} (htable : m.stats.tableId ≠ 0xff)
    (hsize : (oflMsgPackFlowRemoved m heap).bufLen ≤ 65535) :
    ReadsBack exp (.flowRemoved m) xid heap (fun _ => True) ↔ m.received = m := by
  have hdec : Decodes 8 0 (packBody exp (.flowRemoved m) heap)
      (fun buf => unpackBody exp buf (some .flowRemoved)) (.flowRemoved m.received) :=
    (decodes_flowRemoved H m heap htable hsize).map _
  have hlo : 8 ≤ (packBody exp (.flowRemoved m) heap).bufLen := by
    rw [show packBody exp (.flowRemoved m) heap = oflMsgPackFlowRemoved m heap from rfl,
      oflMsgPackFlowRemoved_eq]
    dsimp only
    omega
  rw [readsBack_iff_of_decodes trivial rfl rfl hlo hsize hdec, OflMsg.flowRemoved.injEq]

/-- **When a FLOW_REMOVED survives the round trip**: exactly when its priority and its hard timeout
are 0 and its length fits the length field. -/
theorem flowRemoved_readsBack_iff (H : MatchCodec L .host) (exp : Option (OflExp L))
    (m : OflMsgFlowRemoved L) (xid : UInt32) (heap : Mem) (htable : m.stats.tableId ≠ 0xff) :
    ReadsBack exp (.flowRemoved m) xid heap (fun _ => True) ↔
      m.stats.priority = 0 ∧ m.stats.hardTimeout = 0 ∧
        48 + roundUp (4 + (L.matchLength m.stats.fmatch).toNat) 8 ≤ 65535 := by
  have hbufLen := congrArg PackResult.bufLen (oflMsgPackFlowRemoved_eq m heap)
  by_cases hsize : 48 + roundUp (4 + (L.matchLength m.stats.fmatch).toNat) 8 ≤ 65535
  · have hback := readsBack_flowRemoved H exp xid htable (Nat.le_trans (Nat.le_of_eq hbufLen) hsize)
    simp only [hback, m.received_eq_iff, hsize, and_true]
  · -- the header cannot say how long the message is
    refine iff_of_false (not_readsBack_of_long ?_) fun h => hsize h.2.2
    rw [oflMsgPack_bufLen]
    exact Nat.lt_of_lt_of_eq (Nat.lt_of_not_le hsize) hbufLen.symm

/-- A flow with an idle timeout and a match of five TLV bytes. -/
def sampleFlowRemoved (priority : UInt16) : OflMsgFlowRemoved sampleMatchLib where
  reason := 1
  stats := {
    tableId := 3
    durationSec := 60
    durationNsec := 5
    priority := priority
    idleTimeout := 10
    hardTimeout := 0
    cookie := 7
    packetCount := 12
    byteCount := 720
    fmatch := samplePacketIn.fmatch }

theorem flowRemoved_readsBack_iff_sample :
    ReadsBack none (.flowRemoved (sampleFlowRemoved 0)) 7 (fun _ => 0) (fun _ => True) ↔
      (sampleFlowRemoved 0).stats.priority = 0 ∧ (sampleFlowRemoved 0).stats.hardTimeout = 0 ∧
        48 + roundUp (4 + (sampleMatchLib.matchLength
          (sampleFlowRemoved 0).stats.fmatch).toNat) 8 ≤ 65535 :=
  flowRemoved_readsBack_iff (sampleMatchCodec .host) none (sampleFlowRemoved 0) 7 (fun _ => 0)
    (by decide)

/-- A flow of priority 100 comes back with another priority. -/
theorem flowRemoved_loses_priority :
    ¬ ReadsBack none (.flowRemoved (sampleFlowRemoved 100)) 7 (fun _ => 0) (fun _ => True) := by
  rw [readsBack_flowRemoved (sampleMatchCodec .host) none 7 (by decide)
    (Nat.le_of_ble_eq_true rfl), OflMsgFlowRemoved.received_eq_iff]
  exact fun h => absurd h.1 (by decide)

end CcPof.OpenFlow
