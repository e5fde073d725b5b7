import CcPof.OpenFlow.Message

/-!
# Actions

`src/cc_action.c`: the encoded length of an action and the encoder `ofl_actions_pack`, which writes
the action at `dst` and the value of a SET_FIELD at a second pointer, `data`.
-/

namespace CcPof.OpenFlow

/-- `OXM_LENGTH(header)`. -/
def oxmLength (header : UInt32) : Nat := header.toNat % 256

/-- `OXM_FIELD(header)`. -/
def oxmField (header : UInt32) : Nat := header.toNat / 512 % 128

variable {L : OflLib}

def OflAction.type {E : Type} : OflAction E → UInt16
  | output _ _ => 0
  | copyTtlOut => 11
  | copyTtlIn => 12
  | setMplsTtl _ => 15
  | decMplsTtl => 16
  | pushVlan _ => 17
  | popVlan => 18
  | pushMpls _ => 19
  | popMpls _ => 20
  | setQueue _ => 21
  | group _ => 22
  | setNwTtl _ => 23
  | decNwTtl => 24
  | setField _ => 25
  | pushPbb _ => 26
  | popPbb => 27
  | experimenter _ => 0xffff
  | unknown type _ => type

/-- `exp->act->ofp_len`, `none` when one of the pointers on the way is `NULL`. -/
def OflExp.actOfpLen (exp : Option (OflExp L)) : Option (L.ExpAction → Nat) :=
  exp.bind fun e => e.act.bind OflExpAct.ofpLen

def OflExp.actPack (exp : Option (OflExp L)) : Option (L.ExpAction → Mem → Nat → Mem × Nat) :=
  exp.bind fun e => e.act.bind OflExpAct.pack

def oflActionsOfpLen (exp : Option (OflExp L)) : OflAction L.ExpAction → Nat
  | .output _ _ => OfpActionOutput.size
  | .copyTtlOut | .copyTtlIn => OfpActionHeader.size
  | .setMplsTtl _ => OfpActionMplsTtl.size
  | .decMplsTtl => OfpActionHeader.size
  | .pushVlan _ | .pushPbb _ | .pushMpls _ => OfpActionPush.size
  | .popVlan | .popPbb => OfpActionHeader.size
  | .popMpls _ => OfpActionPopMpls.size
  | .setQueue _ => OfpActionSetQueue.size
  | .group _ => OfpActionGroup.size
  | .setNwTtl _ => OfpActionNwTtl.size
  | .decNwTtl => OfpActionHeader.size
  | .setField field => OfpActionSetField.size + roundUp (oxmLength field.header) 8
  | .experimenter a =>
      match OflExp.actOfpLen exp with
      | none => 2 ^ 64 - 1 -- `return -1` as a `size_t`
      | some ofpLen => ofpLen a
  | .unknown _ _ => 0

/-- The sum over the array, as `OFL_UTILS_SUM_ARR_FUN2` takes it, before it is cut to a `size_t`. -/
def oflActionsOfpTotalLen (exp : Option (OflExp L)) (actions : List (OflAction L.ExpAction)) : Nat :=
  (actions.map (oflActionsOfpLen exp)).sum

/-- The value bytes that the SET_FIELD case copies to `data + 8`. -/
def setFieldValue (field : OflMatchTlv) : List UInt8 :=
  let n := oxmLength field.header
  if n = 1 ∨ n = 6 ∨ n = 16 then load field.value 0 n
  else if n = 2 then toLE 2 (htons (get16 field.value 0)).toNat
  else if n = 4 then
    let f := oxmField field.header
    if f ≠ 11 ∧ f ≠ 12 ∧ f ≠ 22 ∧ f ≠ 23 then toLE 4 (htonl (get32 field.value 0)).toNat
    else toLE 4 (get32 field.value 0).toNat
  else if n = 8 then
    -- `htons` on a `uint64_t`: the argument is cut to 16 bits
    toLE 8 (htons (get64 field.value 0).toUInt16).toNat
  else []

/-- The SET_FIELD case of `ofl_actions_pack`: the OXM header goes into the action, the value and its
padding behind `data`. It returns what it reads back from `da->len`. -/
def packSetField (field : OflMatchTlv) (m : Mem) (dst data : Nat) : Mem × Nat :=
  let n := oxmLength field.header
  let m := put16 m (dst + OfpActionSetField.len)
    (htons (UInt16.ofNat (OfpActionSetField.size + roundUp n 8)))
  let m := put32 m (dst + OfpActionSetField.field) (htonl field.header)
  let m := store m (data + OfpActionSetField.size) (setFieldValue field)
  let m := zero m (data + (OfpActionSetField.size + n)) (roundUp n 8 - n)
  (m, (ntohs (get16 m (dst + OfpActionSetField.len))).toNat)

def oflActionsPack (exp : Option (OflExp L)) (src : OflAction L.ExpAction) (m : Mem)
    (dst data : Nat) : Mem × Nat :=
  let m := put16 m (dst + OfpActionHeader.type) (htons src.type)
  let m := zero m (dst + OfpActionHeader.pad) 4
  let header := (put16 m (dst + OfpActionHeader.len) (htons 8), OfpActionHeader.size)
  let push (ethertype : UInt16) :=
    let m := put16 m (dst + OfpActionPush.len) (htons 8)
    let m := put16 m (dst + OfpActionPush.ethertype) (htons ethertype)
    (zero m (dst + OfpActionPush.pad) 2, OfpActionPush.size)
  match src with
  | .output port maxLen =>
      let m := put16 m (dst + OfpActionOutput.len) (htons 16)
      let m := put32 m (dst + OfpActionOutput.port) (htonl port)
      let m := put16 m (dst + OfpActionOutput.maxLen) (htons maxLen)
      (zero m (dst + OfpActionOutput.pad) 6, OfpActionOutput.size)
  | .copyTtlOut | .copyTtlIn => header
  | .setMplsTtl mplsTtl =>
      let m := put16 m (dst + OfpActionMplsTtl.len) (htons 8)
      let m := put8 m (dst + OfpActionMplsTtl.mplsTtl) mplsTtl
      (zero m (dst + OfpActionMplsTtl.pad) 3, OfpActionMplsTtl.size)
  | .decMplsTtl => header
  | .pushVlan ethertype | .pushMpls ethertype | .pushPbb ethertype => push ethertype
  | .popVlan | .popPbb => header
  | .popMpls ethertype =>
      let m := put16 m (dst + OfpActionPopMpls.len) (htons 8)
      let m := put16 m (dst + OfpActionPopMpls.ethertype) (htons ethertype)
      (zero m (dst + OfpActionPopMpls.pad) 2, OfpActionPopMpls.size)
  | .setQueue queueId =>
      let m := put16 m (dst + OfpActionSetQueue.len) (htons 8)
      (put32 m (dst + OfpActionSetQueue.queueId) (htonl queueId), OfpActionSetQueue.size)
  | .group groupId =>
      let m := put16 m (dst + OfpActionGroup.len) (htons 8)
      (put32 m (dst + OfpActionGroup.groupId) (htonl groupId), OfpActionGroup.size)
  | .setNwTtl nwTtl =>
      let m := put16 m (dst + OfpActionNwTtl.len) (htons 8)
      let m := put8 m (dst + OfpActionNwTtl.nwTtl) nwTtl
      (zero m (dst + OfpActionNwTtl.pad) 3, OfpActionNwTtl.size)
  | .decNwTtl => header
  | .setField field => packSetField field m dst data
  | .experimenter a =>
      match OflExp.actPack exp with
      | none => (m, 0)
      | some pack => pack a m dst
  | .unknown _ _ => (m, 0)

end CcPof.OpenFlow
