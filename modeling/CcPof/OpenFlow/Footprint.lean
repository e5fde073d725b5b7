import CcPof.OpenFlow.PacketInPayload

/-!
# What the element decoders read

The promise of the library to read inside the part of the message that it is given, and to take off
the length what an entry is long. The decoders of `sampleLib` do not keep it: they read before they
look at the length, and do not compare the length field. `strictLib` does both.
-/

namespace CcPof.OpenFlow

variable {L : OflLib} {α : Type} {buf buf' : Mem} {pos len : Nat}

/-! ## 1. The promise -/

/-- The decoder of an entry reads from the rest of the message only, and takes off it what the entry
is long. -/
structure ReadsEntry (unpack : ElemDecoder α) (stride : Mem → Nat → Nat) : Prop where
  inside : ∀ {buf buf' : Mem} {pos len : Nat}, AgreeOn pos (pos + len) buf buf' →
    unpack buf pos len = unpack buf' pos len
  takes : ∀ {buf : Mem} {pos len rest : Nat} {a : α}, unpack buf pos len = (.ok a, rest) →
    rest + stride buf pos = len

def CountsInside (count : Mem → (pos len : Nat) → Except OflErr Nat) : Prop :=
  ∀ {buf buf' : Mem} {pos len : Nat}, AgreeOn pos (pos + len) buf buf' →
    count buf pos len = count buf' pos len

/-- The TLVs of a match follow its header, and the statistics of a flow are one piece. The actions
of a PACKET_OUT tile their part of the message. -/
structure OflLib.ReadsInside (L : OflLib) : Prop where
  elem : ∀ k, ReadsEntry (L.elemUnpack k) k.stride
  elemCount : ∀ k, CountsInside (L.elemCount k)
  bucket : ∀ groupType, ReadsEntry (L.bucketUnpack groupType) (lenField OfpBucket.len)
  bucketCount : CountsInside L.bucketCount
  flowStats : ReadsEntry (fun buf pos len => L.flowStatsUnpack buf pos pos len)
    (lenField OfpFlowStats.length)
  flowStatsCount : CountsInside L.flowStatsCount
  action : ReadsEntry L.actionUnpack (lenField OfpActionHeader.len)
  actionCount : CountsInside L.actionCount
  actionTiles : ∀ {buf : Mem} {pos len n : Nat}, L.actionCount buf pos len = .ok n →
    Tiles (lenField OfpActionHeader.len) OfpActionHeader.size buf pos len n
  matchInside : ∀ {buf buf' : Mem} {src len : Nat}, AgreeOn src (src + len) buf buf' →
    L.matchUnpack buf src (src + 4) len = L.matchUnpack buf' src (src + 4) len
  takesMatch : L.TakesMatch

/-- The callbacks get the whole message, and the length of its rest. -/
structure OflExp.ReadsInside (exp : Option (OflExp L)) : Prop where
  msg : ∀ unpack, OflExp.msgUnpack exp = some unpack → ∀ {buf buf' : Mem} {len : Nat},
    AgreeOn 0 len buf buf' → unpack buf 0 len = unpack buf' 0 len
  request : ∀ unpack, OflExp.statsReqUnpack exp = some unpack → ∀ {buf buf' : Mem} {len : Nat},
    AgreeOn 0 (OfpMultipartRequest.size + len) buf buf' → unpack buf 0 len = unpack buf' 0 len
  reply : ∀ unpack, OflExp.statsReplyUnpack exp = some unpack → ∀ {buf buf' : Mem} {len : Nat},
    AgreeOn 0 (OfpMultipartReply.size + len) buf buf' → unpack buf 0 len = unpack buf' 0 len

/-! ## 2. Entries of fixed size -/

namespace SampleLayout

end SampleLayout

end CcPof.OpenFlow
