import CcPof.OpenFlow.Wire

/-!
# What the codec takes from outside the repository

The headers `ofl*.h`, `oxm-match.h` and the element codecs behind them are not part of the
repository. `OflLib` collects what the encoder and the decoder call there: the element types, the
match codec, the pack, size, count and unpack functions of each array element. `OflExp` is the
experimenter callback table, in which every pointer may be `NULL`.
-/

namespace CcPof.OpenFlow

/-- An `ofl_err` other than 0: `ofl_error(type, code)`, the constant `OFL_ERROR`, or a value that a
function outside the repository returned. -/
inductive OflErr where
  | ofl (type : OfpErrorType) (code : UInt16)
  | oflError
  | external (n : Nat)
  deriving DecidableEq, Repr

/-- An element decoder reads at an address, may take any number of bytes off `*len`, and returns
either the element or a nonzero error. -/
abbrev ElemDecoder (α : Type) := Mem → (pos len : Nat) → Except OflErr α × Nat

/-- `struct ofl_match_tlv` as far as a SET_FIELD action uses it. `value` is the memory that the
value pointer points to. -/
structure OflMatchTlv where
  header : UInt32
  value : Mem

/-- `enum ofp_action_type`: the types with a `case`. -/
def ofpActionTypes : List UInt16 :=
  [0, 11, 12, 15, 16, 17, 18, 19, 20, 21, 22, 23, 24, 25, 26, 27, 0xffff]

/-- `struct ofl_action_header` and the action structures that the encoder casts it to. -/
inductive OflAction (ExpAction : Type) where
  | output (port : UInt32) (maxLen : UInt16)
  | copyTtlOut
  | copyTtlIn
  | setMplsTtl (mplsTtl : UInt8)
  | decMplsTtl
  | pushVlan (ethertype : UInt16)
  | popVlan
  | pushMpls (ethertype : UInt16)
  | popMpls (ethertype : UInt16)
  | setQueue (queueId : UInt32)
  | group (groupId : UInt32)
  | setNwTtl (nwTtl : UInt8)
  | decNwTtl
  | setField (field : OflMatchTlv)
  | pushPbb (ethertype : UInt16)
  | popPbb
  | experimenter (a : ExpAction)
  | unknown (type : UInt16) (h : type ∉ ofpActionTypes)

/-- The array elements whose codec has the common signature. Actions, buckets and flow statistics
have one of their own. -/
inductive ElemKind where
  | instruction
  | meterBand
  | port
  | tableStats
  | portStats
  | queueStats
  | groupStats
  | groupDescStats
  | tableFeatures
  | meterStats
  | meterConfig
  | packetQueue
  deriving DecidableEq, Repr

/-- The order in which `ofl_structs_match_pack` finds the match values. -/
inductive ByteOrder where
  | host
  | network

structure OflLib where
  Elem : ElemKind → Type
  Match : Type
  Bucket : Type
  FlowStats : Type
  ExpMsg : Type
  ExpRequest : Type
  ExpReply : Type
  ExpAction : Type
  -- `ofl_structs_match_pack(match, dst, ptr, order, exp)` and its decoder
  matchLength : Match → UInt16
  matchPack : ByteOrder → Match → Mem → (dst ptr : Nat) → Mem
  matchUnpack : Mem → (src ptr len : Nat) → Except OflErr Match × Nat
  elemPack : (k : ElemKind) → Elem k → Mem → Nat → Mem × Nat
  elemTotalLen : (k : ElemKind) → List (Elem k) → Nat
  elemCount : (k : ElemKind) → Mem → (pos len : Nat) → Except OflErr Nat
  elemUnpack : (k : ElemKind) → ElemDecoder (Elem k)
  bucketPack : Bucket → Mem → Nat → Mem × Nat
  bucketTotalLen : List Bucket → Nat
  bucketCount : Mem → (pos len : Nat) → Except OflErr Nat
  bucketUnpack : (groupType : UInt8) → ElemDecoder Bucket
  flowStatsPack : FlowStats → Mem → Nat → Mem × Nat
  flowStatsTotalLen : List FlowStats → Nat
  flowStatsCount : Mem → (pos len : Nat) → Except OflErr Nat
  flowStatsUnpack : Mem → (stat ptr len : Nat) → Except OflErr FlowStats × Nat
  actionCount : Mem → (pos len : Nat) → Except OflErr Nat
  actionUnpack : ElemDecoder (OflAction ExpAction)
  -- what a field, a pointer or an array slot reads as when no decoder has filled it
  staleInPort : UInt32
  staleMatch : Match
  staleAction : OflAction ExpAction
  staleTableFeatures : Elem .tableFeatures
  -- the heap after an allocated block, and the end of the mapped memory after a message
  heapAfter : List UInt8 → Mem
  mappedEnd : Nat

/-- What a pack function leaves: its return value, `*buf` and `*buf_len`. -/
structure PackResult where
  ret : Int
  buf : Mem
  bufLen : Nat

structure OflExpMsg (L : OflLib) where
  pack : Option (L.ExpMsg → Mem → PackResult)
  unpack : Option (ElemDecoder L.ExpMsg)

structure OflExpAct (L : OflLib) where
  ofpLen : Option (L.ExpAction → Nat)
  pack : Option (L.ExpAction → Mem → Nat → Mem × Nat)

structure OflExpStats (L : OflLib) where
  reqPack : Option (L.ExpRequest → Mem → PackResult)
  reqUnpack : Option (ElemDecoder L.ExpRequest)
  replyPack : Option (L.ExpReply → Mem → PackResult)
  replyUnpack : Option (ElemDecoder L.ExpReply)

/-- `struct ofl_exp`; a pointer to it may be `NULL` too. -/
structure OflExp (L : OflLib) where
  msg : Option (OflExpMsg L)
  act : Option (OflExpAct L)
  stats : Option (OflExpStats L)

end CcPof.OpenFlow
