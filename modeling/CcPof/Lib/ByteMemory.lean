import Mathlib.Data.List.Basic
import Mathlib.Data.List.TakeWhile
import Mathlib.Tactic.Ring

/-!
# Byte memory

Byte-addressed memory as a total function, little-endian integers of any width, the byte swap
between host and network order, and the read-over-write lemmas that codecs are verified with.
An address past the end of an object is an ordinary address here, so a write or a read that
leaves an object shows up as a change, or a dependence, outside its bounds.
-/

namespace CcPof

abbrev Mem := Nat → UInt8

/-! ## 1. Little-endian byte strings -/

/-- The `w` low bytes of `v`, least significant first. -/
def toLE : Nat → Nat → List UInt8
  | 0, _ => []
  | w + 1, v => UInt8.ofNat v :: toLE w (v / 256)

def ofLE : List UInt8 → Nat
  | [] => 0
  | b :: bs => b.toNat + 256 * ofLE bs

@[simp] theorem length_toLE (w v : Nat) : (toLE w v).length = w := by
  induction w generalizing v with
  | zero => rfl
  | succ w ih => simp only [toLE, List.length_cons, ih]

theorem ofLE_lt (bs : List UInt8) : ofLE bs < 256 ^ bs.length := by
  induction bs with
  | nil => simp [ofLE]
  | cons b bs ih =>
    have hb : b.toNat < 256 := b.toNat_lt
    simp only [ofLE, List.length_cons, pow_succ]
    omega

theorem ofLE_append (as bs : List UInt8) : ofLE (as ++ bs) = ofLE as + 256 ^ as.length * ofLE bs := by
  induction as with
  | nil => simp [ofLE]
  | cons a as ih =>
    rw [List.cons_append, ofLE, ofLE, ih, List.length_cons, pow_succ]
    ring

theorem toLE_zero (w : Nat) : toLE w 0 = List.replicate w 0 := by
  induction w with
  | zero => rfl
  | succ w ih =>
    rw [toLE, Nat.zero_div, ih, List.replicate_succ]
    rfl

/-- A number of `w` bytes has zeros above them. -/
theorem toLE_add_of_lt {w v : Nat} (h : v < 256 ^ w) (k : Nat) :
    toLE (w + k) v = toLE w v ++ List.replicate k 0 := by
  induction w generalizing v with
  | zero =>
    have hzero : v = 0 := by
      rw [pow_zero] at h
      omega
    rw [hzero, Nat.zero_add, toLE_zero, toLE, List.nil_append]
  | succ w ih =>
    have hdiv : v / 256 < 256 ^ w := by
      rw [pow_succ] at h
      omega
    rw [Nat.succ_add, toLE, ih hdiv, toLE, List.cons_append]

theorem ofLE_toLE (w v : Nat) : ofLE (toLE w v) = v % 256 ^ w := by
  induction w generalizing v with
  | zero => simp only [toLE, ofLE, pow_zero, Nat.mod_one]
  | succ w ih =>
    have hpow : 256 ^ (w + 1) = 256 * 256 ^ w := by rw [pow_succ, Nat.mul_comm]
    simp only [toLE, ofLE, ih, UInt8.toNat_ofNat']
    rw [hpow, Nat.mod_mul]

theorem ofLE_toLE_of_lt {w v : Nat} (h : v < 256 ^ w) : ofLE (toLE w v) = v := by
  rw [ofLE_toLE, Nat.mod_eq_of_lt h]

theorem toLE_ofLE (bs : List UInt8) : toLE bs.length (ofLE bs) = bs := by
  induction bs with
  | nil => rfl
  | cons b bs ih =>
    have hb : b.toNat < 256 := b.toNat_lt
    have hmod : (b.toNat + 256 * ofLE bs) % 2 ^ 8 = b.toNat := by omega
    have hdiv : (b.toNat + 256 * ofLE bs) / 256 = ofLE bs := by omega
    simp only [List.length_cons, toLE, ofLE, hdiv, ih, List.cons.injEq, and_true]
    apply UInt8.toNat_inj.mp
    rw [UInt8.toNat_ofNat', hmod]

/-! ## 2. Byte order -/

/-- The number that bytes in network order stand for, most significant first. -/
def ofBE (bs : List UInt8) : Nat := bs.foldl (fun n b => n * 256 + b.toNat) 0

theorem ofBE_eq_ofLE_reverse (bs : List UInt8) : ofBE bs = ofLE bs.reverse := by
  have hfoldr : ∀ cs : List UInt8, cs.foldr (fun b n => n * 256 + b.toNat) 0 = ofLE cs := by
    intro cs
    induction cs with
    | nil => rfl
    | cons c cs ih =>
      rw [List.foldr_cons, ih, ofLE]
      omega
  rw [ofBE, ← hfoldr, List.foldr_reverse]

/-- Reverse the `w` bytes of `v`. -/
def bswap (w v : Nat) : Nat := ofLE (toLE w v).reverse

theorem bswap_lt (w v : Nat) : bswap w v < 256 ^ w := by
  have h := ofLE_lt (toLE w v).reverse
  rwa [List.length_reverse, length_toLE] at h

theorem toLE_bswap (w v : Nat) : toLE w (bswap w v) = (toLE w v).reverse := by
  have h := toLE_ofLE (toLE w v).reverse
  rwa [List.length_reverse, length_toLE] at h

theorem bswap_bswap {w v : Nat} (h : v < 256 ^ w) : bswap w (bswap w v) = v := by
  rw [bswap, toLE_bswap, List.reverse_reverse, ofLE_toLE_of_lt h]

/-- The `w` low bytes of `v` in network order. -/
def toBE (w v : Nat) : List UInt8 := (toLE w v).reverse

/-- Bytes read as a host integer and written in network order come out reversed. -/
theorem toBE_ofLE {w : Nat} {bs : List UInt8} (h : bs.length = w) : toBE w (ofLE bs) = bs.reverse := by
  rw [toBE, ← h, toLE_ofLE]

def htons (x : UInt16) : UInt16 := UInt16.ofNat (bswap 2 x.toNat)
def htonl (x : UInt32) : UInt32 := UInt32.ofNat (bswap 4 x.toNat)
def hton64 (x : UInt64) : UInt64 := UInt64.ofNat (bswap 8 x.toNat)
def ntohs (x : UInt16) : UInt16 := UInt16.ofNat (bswap 2 x.toNat)
def ntohl (x : UInt32) : UInt32 := UInt32.ofNat (bswap 4 x.toNat)
def ntoh64 (x : UInt64) : UInt64 := UInt64.ofNat (bswap 8 x.toNat)

theorem toNat_htons (x : UInt16) : (htons x).toNat = bswap 2 x.toNat :=
  UInt16.toNat_ofNat_of_lt' (bswap_lt 2 x.toNat)

theorem toNat_htonl (x : UInt32) : (htonl x).toNat = bswap 4 x.toNat :=
  UInt32.toNat_ofNat_of_lt' (bswap_lt 4 x.toNat)

theorem toNat_hton64 (x : UInt64) : (hton64 x).toNat = bswap 8 x.toNat :=
  UInt64.toNat_ofNat_of_lt' (bswap_lt 8 x.toNat)

theorem toLE_htons (x : UInt16) : toLE 2 (htons x).toNat = toBE 2 x.toNat := by
  rw [toNat_htons, toLE_bswap, toBE]

theorem toLE_htonl (x : UInt32) : toLE 4 (htonl x).toNat = toBE 4 x.toNat := by
  rw [toNat_htonl, toLE_bswap, toBE]

@[simp] theorem ntohs_htons (x : UInt16) : ntohs (htons x) = x := by
  rw [ntohs, toNat_htons, bswap_bswap x.toNat_lt, UInt16.ofNat_toNat]

@[simp] theorem ntohl_htonl (x : UInt32) : ntohl (htonl x) = x := by
  rw [ntohl, toNat_htonl, bswap_bswap x.toNat_lt, UInt32.ofNat_toNat]

@[simp] theorem ntoh64_hton64 (x : UInt64) : ntoh64 (hton64 x) = x := by
  rw [ntoh64, toNat_hton64, bswap_bswap x.toNat_lt, UInt64.ofNat_toNat]

@[simp] theorem htons_ntohs (x : UInt16) : htons (ntohs x) = x := ntohs_htons x

@[simp] theorem htonl_ntohl (x : UInt32) : htonl (ntohl x) = x := ntohl_htonl x

@[simp] theorem hton64_ntoh64 (x : UInt64) : hton64 (ntoh64 x) = x := ntoh64_hton64 x

/-- `htonl` and `ntohl` are the same byte swap; one encoder calls the wrong one of the two. -/
theorem ntohl_eq_htonl : ntohl = htonl := rfl

/-! ## 3. Loads and stores -/

def store (m : Mem) (off : Nat) (bs : List UInt8) : Mem :=
  fun i => if off ≤ i then (bs[i - off]?).getD (m i) else m i

def load (m : Mem) (off n : Nat) : List UInt8 :=
  (List.range n).map fun i => m (off + i)

@[simp] theorem length_load (m : Mem) (off n : Nat) : (load m off n).length = n := by
  simp only [load, List.length_map, List.length_range]

@[simp] theorem store_nil (m : Mem) (off : Nat) : store m off [] = m := by
  funext i
  simp [store]

theorem store_outside {m : Mem} {off i : Nat} {bs : List UInt8}
    (h : i < off ∨ off + bs.length ≤ i) : store m off bs i = m i := by
  unfold store
  split
  · rw [List.getElem?_eq_none (by omega), Option.getD_none]
  · rfl

theorem store_inside {m : Mem} {off i : Nat} {bs : List UInt8} (h : i < bs.length) :
    store m off bs (off + i) = bs[i] := by
  unfold store
  rw [if_pos (Nat.le_add_right _ _), Nat.add_sub_cancel_left, List.getElem?_eq_getElem h,
    Option.getD_some]

theorem load_ext {m m' : Mem} {off off' n : Nat} (h : ∀ i, i < n → m (off + i) = m' (off' + i)) :
    load m off n = load m' off' n := by
  unfold load
  apply List.map_congr_left
  intro i hi
  exact h i (List.mem_range.mp hi)

theorem getElem_load {m : Mem} {off n i : Nat} (h : i < (load m off n).length) :
    (load m off n)[i] = m (off + i) := by
  simp only [load, List.getElem_map, List.getElem_range]

/-- A window is its first part followed by the rest. -/
theorem load_add (m : Mem) (off a b : Nat) : load m off (a + b) = load m off a ++ load m (off + a) b := by
  simp only [load, List.range_add, List.map_append, List.map_map, Function.comp_def, Nat.add_assoc]

/-- Reading back exactly what was stored. -/
theorem load_store_same (m : Mem) (off n : Nat) (bs : List UInt8) (h : bs.length = n) :
    load (store m off bs) off n = bs := by
  subst h
  apply List.ext_getElem (length_load _ _ _)
  intro i h1 h2
  rw [getElem_load h1, store_inside h2]

theorem load_store_disjoint {m : Mem} {off off' n : Nat} {bs : List UInt8}
    (h : off + n ≤ off' ∨ off' + bs.length ≤ off) :
    load (store m off' bs) off n = load m off n :=
  load_ext fun i hi => store_outside (by omega)

/-- Copying a window of `b` to its own place, byte by byte. -/
theorem store_load_apply (m b : Mem) (off n i : Nat) :
    store m off (load b off n) i = if off ≤ i ∧ i < off + n then b i else m i := by
  by_cases hi : off ≤ i ∧ i < off + n
  · have hlt : i - off < (load b off n).length := by
      rw [length_load]
      omega
    have hbyte : store m off (load b off n) (off + (i - off)) = (load b off n)[i - off] :=
      store_inside hlt
    rw [Nat.add_sub_of_le hi.1, getElem_load, Nat.add_sub_of_le hi.1] at hbyte
    rw [if_pos hi, hbyte]
  · rw [if_neg hi, store_outside (by rw [length_load]; omega)]

theorem ofFn_eq_load (b : Mem) (off n : Nat) :
    List.ofFn (fun i : Fin n => b (off + i)) = load b off n := by
  apply List.ext_getElem (by simp)
  intro i h1 h2
  rw [List.getElem_ofFn, getElem_load]

/-! ## 4. Integer fields -/

abbrev put8 (m : Mem) (off : Nat) (x : UInt8) : Mem := store m off [x]
abbrev put16 (m : Mem) (off : Nat) (x : UInt16) : Mem := store m off (toLE 2 x.toNat)
abbrev put32 (m : Mem) (off : Nat) (x : UInt32) : Mem := store m off (toLE 4 x.toNat)
abbrev put64 (m : Mem) (off : Nat) (x : UInt64) : Mem := store m off (toLE 8 x.toNat)

/-- `memset(p + off, 0, n)`. -/
abbrev zero (m : Mem) (off n : Nat) : Mem := store m off (List.replicate n 0)

def get16 (m : Mem) (off : Nat) : UInt16 := UInt16.ofNat (ofLE (load m off 2))
def get32 (m : Mem) (off : Nat) : UInt32 := UInt32.ofNat (ofLE (load m off 4))
def get64 (m : Mem) (off : Nat) : UInt64 := UInt64.ofNat (ofLE (load m off 8))

@[simp] theorem put8_same (m : Mem) (off : Nat) (x : UInt8) : store m off [x] off = x := by
  simp [store]

theorem put8_apply (m : Mem) (off : Nat) (x : UInt8) (i : Nat) :
    store m off [x] i = if i = off then x else m i := by
  by_cases hi : i = off
  · rw [if_pos hi, hi, put8_same]
  · rw [if_neg hi, store_outside (by rw [List.length_singleton]; omega)]

/-- A byte that is written inside a window. -/
theorem load_put8 {m : Mem} {off n i : Nat} {x : UInt8} :
    load (store m (off + i) [x]) off n = (load m off n).set i x := by
  apply List.ext_getElem
  · rw [List.length_set, length_load, length_load]
  · intro k hk _
    rw [length_load] at hk
    rw [getElem_load, List.getElem_set, put8_apply]
    by_cases hki : i = k
    · rw [if_pos hki, if_pos (by rw [hki])]
    · rw [if_neg hki, if_neg (by omega), getElem_load]

theorem zero_apply (m : Mem) (off n i : Nat) :
    store m off (List.replicate n 0) i = if off ≤ i ∧ i < off + n then 0 else m i := by
  by_cases hi : off ≤ i ∧ i < off + n
  · have hlt : i - off < (List.replicate n (0 : UInt8)).length := by
      rw [List.length_replicate]
      omega
    have hbyte : store m off (List.replicate n 0) (off + (i - off)) =
        (List.replicate n (0 : UInt8))[i - off] := store_inside hlt
    rw [Nat.add_sub_of_le hi.1, List.getElem_replicate] at hbyte
    rw [if_pos hi, hbyte]
  · rw [if_neg hi, store_outside (by rw [List.length_replicate]; omega)]

@[simp] theorem get16_put16 (m : Mem) (off : Nat) (x : UInt16) : get16 (put16 m off x) off = x := by
  rw [get16, load_store_same _ _ _ _ (length_toLE _ _), ofLE_toLE_of_lt x.toNat_lt,
    UInt16.ofNat_toNat]

@[simp] theorem get32_put32 (m : Mem) (off : Nat) (x : UInt32) : get32 (put32 m off x) off = x := by
  rw [get32, load_store_same _ _ _ _ (length_toLE _ _), ofLE_toLE_of_lt x.toNat_lt,
    UInt32.ofNat_toNat]

@[simp] theorem get64_put64 (m : Mem) (off : Nat) (x : UInt64) : get64 (put64 m off x) off = x := by
  rw [get64, load_store_same _ _ _ _ (length_toLE _ _), ofLE_toLE_of_lt x.toNat_lt,
    UInt64.ofNat_toNat]

/-- The bytes of an integer that was read are the bytes in memory. -/
@[simp] theorem toLE_get16 (m : Mem) (off : Nat) : toLE 2 (get16 m off).toNat = load m off 2 := by
  have hlt := ofLE_lt (load m off 2)
  have hbytes := toLE_ofLE (load m off 2)
  rw [length_load] at hlt hbytes
  rw [get16, UInt16.toNat_ofNat_of_lt' hlt, hbytes]

@[simp] theorem toLE_get32 (m : Mem) (off : Nat) : toLE 4 (get32 m off).toNat = load m off 4 := by
  have hlt := ofLE_lt (load m off 4)
  have hbytes := toLE_ofLE (load m off 4)
  rw [length_load] at hlt hbytes
  rw [get32, UInt32.toNat_ofNat_of_lt' hlt, hbytes]

@[simp] theorem toLE_get64 (m : Mem) (off : Nat) : toLE 8 (get64 m off).toNat = load m off 8 := by
  have hlt := ofLE_lt (load m off 8)
  have hbytes := toLE_ofLE (load m off 8)
  rw [length_load] at hlt hbytes
  rw [get64, UInt64.toNat_ofNat_of_lt' hlt, hbytes]

/-- The low half-word of a 64-bit field. -/
theorem toUInt16_get64 (m : Mem) (off : Nat) : (get64 m off).toUInt16 = get16 m off := by
  have hlt := ofLE_lt (load m off 8)
  have hbytes : ofLE (load m off 8) = ofLE (load m off 2) + 65536 * ofLE (load m (off + 2) 6) := by
    rw [show 8 = 2 + 6 from rfl, load_add, ofLE_append, length_load]
    rfl
  rw [length_load] at hlt
  apply UInt16.toNat_inj.mp
  rw [get64, get16, UInt64.toNat_toUInt16, UInt64.toNat_ofNat_of_lt' hlt, UInt16.toNat_ofNat', hbytes]
  omega

-- Copying a field from `b` to its own place.
theorem put16_get16_apply (m b : Mem) (off i : Nat) :
    put16 m off (get16 b off) i = if off ≤ i ∧ i < off + 2 then b i else m i := by
  rw [put16, toLE_get16, store_load_apply]

theorem put32_get32_apply (m b : Mem) (off i : Nat) :
    put32 m off (get32 b off) i = if off ≤ i ∧ i < off + 4 then b i else m i := by
  rw [put32, toLE_get32, store_load_apply]

theorem put64_get64_apply (m b : Mem) (off i : Nat) :
    put64 m off (get64 b off) i = if off ≤ i ∧ i < off + 8 then b i else m i := by
  rw [put64, toLE_get64, store_load_apply]

/-- `ntohs` of a field is its value in network order. -/
theorem ofBE_load_two (m : Mem) (off : Nat) : ofBE (load m off 2) = (ntohs (get16 m off)).toNat := by
  rw [ofBE_eq_ofLE_reverse, ntohs, UInt16.toNat_ofNat_of_lt' (bswap_lt 2 _), bswap, toLE_get16]

theorem ofBE_load_four (m : Mem) (off : Nat) :
    ofBE (load m off 4) = (ntohl (get32 m off)).toNat := by
  rw [ofBE_eq_ofLE_reverse, ntohl, UInt32.toNat_ofNat_of_lt' (bswap_lt 4 _), bswap, toLE_get32]

theorem ofBE_load_eight (m : Mem) (off : Nat) :
    ofBE (load m off 8) = (ntoh64 (get64 m off)).toNat := by
  rw [ofBE_eq_ofLE_reverse, ntoh64, UInt64.toNat_ofNat_of_lt' (bswap_lt 8 _), bswap, toLE_get64]

/-- A 16-bit field in network order, byte by byte. -/
theorem ntohs_get16 (m : Mem) (off : Nat) :
    (ntohs (get16 m off)).toNat = (m off).toNat * 256 + (m (off + 1)).toNat := by
  have hload : load m off 2 = [m off, m (off + 1)] := rfl
  have h0 := (m off).toNat_lt
  have h1 := (m (off + 1)).toNat_lt
  have hget : (get16 m off).toNat = ofLE [m off, m (off + 1)] := by
    rw [get16, hload, UInt16.toNat_ofNat']
    simp only [ofLE]
    omega
  have hbytes : toLE 2 (ofLE [m off, m (off + 1)]) = [m off, m (off + 1)] :=
    toLE_ofLE [m off, m (off + 1)]
  have hswap : bswap 2 (ofLE [m off, m (off + 1)]) = ofLE [m (off + 1), m off] := by
    rw [bswap, hbytes, List.reverse_cons, List.reverse_singleton, List.singleton_append]
  rw [ntohs, hget, hswap, UInt16.toNat_ofNat']
  simp only [ofLE]
  omega

theorem get16_store_disjoint {m : Mem} {off off' : Nat} {bs : List UInt8}
    (h : off + 2 ≤ off' ∨ off' + bs.length ≤ off) : get16 (store m off' bs) off = get16 m off := by
  rw [get16, load_store_disjoint h, get16]

theorem get32_store_disjoint {m : Mem} {off off' : Nat} {bs : List UInt8}
    (h : off + 4 ≤ off' ∨ off' + bs.length ≤ off) : get32 (store m off' bs) off = get32 m off := by
  rw [get32, load_store_disjoint h, get32]

theorem get64_store_disjoint {m : Mem} {off off' : Nat} {bs : List UInt8}
    (h : off + 8 ≤ off' ∨ off' + bs.length ≤ off) : get64 (store m off' bs) off = get64 m off := by
  rw [get64, load_store_disjoint h, get64]

-- `rw` does not see through the abbreviations, so each write has its frame lemma.
theorem put8_outside {m : Mem} {off i : Nat} {x : UInt8} (h : i < off ∨ off + 1 ≤ i) :
    put8 m off x i = m i :=
  store_outside h

theorem put16_outside {m : Mem} {off i : Nat} {x : UInt16} (h : i < off ∨ off + 2 ≤ i) :
    put16 m off x i = m i :=
  store_outside (by rwa [length_toLE])

theorem put32_outside {m : Mem} {off i : Nat} {x : UInt32} (h : i < off ∨ off + 4 ≤ i) :
    put32 m off x i = m i :=
  store_outside (by rwa [length_toLE])

theorem zero_outside {m : Mem} {off n i : Nat} (h : i < off ∨ off + n ≤ i) :
    zero m off n i = m i :=
  store_outside (by rwa [List.length_replicate])

/-! ## 5. Memories that agree on a window -/

/-- The two memories hold the same bytes from `lo` up to `hi`. -/
def AgreeOn (lo hi : Nat) (m m' : Mem) : Prop := ∀ i, lo ≤ i → i < hi → m i = m' i

theorem AgreeOn.mono {lo lo' hi hi' : Nat} {m m' : Mem} (h : AgreeOn lo hi m m') (hlo : lo ≤ lo')
    (hhi : hi' ≤ hi) : AgreeOn lo' hi' m m' :=
  fun i h1 h2 => h i (hlo.trans h1) (h2.trans_le hhi)

theorem AgreeOn.trans {lo hi : Nat} {m m' m'' : Mem} (h : AgreeOn lo hi m m')
    (h' : AgreeOn lo hi m' m'') : AgreeOn lo hi m m'' :=
  fun i h1 h2 => (h i h1 h2).trans (h' i h1 h2)

theorem AgreeOn.front {lo hi k : Nat} {m m' : Mem} (h : AgreeOn lo (hi + k) m m') :
    AgreeOn lo hi m m' :=
  h.mono le_rfl (Nat.le_add_right hi k)

/-- What was stored below the window does not show in it. -/
theorem AgreeOn.of_store {lo hi off : Nat} {m m' : Mem} {bs : List UInt8}
    (h : AgreeOn lo hi m (store m' off bs)) (hoff : off + bs.length ≤ lo) : AgreeOn lo hi m m' :=
  h.trans fun _ hlo _ => store_outside (by omega)

theorem AgreeOn.load {lo hi off k : Nat} {m m' : Mem} (h : AgreeOn lo hi m m') (hlo : lo ≤ off)
    (hhi : off + k ≤ hi) : load m off k = load m' off k :=
  load_ext fun i hi' => h _ (by omega) (by omega)

theorem AgreeOn.get8 {lo hi off : Nat} {m m' : Mem} (h : AgreeOn lo hi m m') (hlo : lo ≤ off)
    (hhi : off + 1 ≤ hi) : m off = m' off :=
  h off hlo hhi

theorem AgreeOn.get16 {lo hi off : Nat} {m m' : Mem} (h : AgreeOn lo hi m m') (hlo : lo ≤ off)
    (hhi : off + 2 ≤ hi) : get16 m off = get16 m' off := by
  rw [CcPof.get16, h.load hlo hhi, CcPof.get16]

theorem AgreeOn.get32 {lo hi off : Nat} {m m' : Mem} (h : AgreeOn lo hi m m') (hlo : lo ≤ off)
    (hhi : off + 4 ≤ hi) : get32 m off = get32 m' off := by
  rw [CcPof.get32, h.load hlo hhi, CcPof.get32]

theorem AgreeOn.get64 {lo hi off : Nat} {m m' : Mem} (h : AgreeOn lo hi m m') (hlo : lo ≤ off)
    (hhi : off + 8 ≤ hi) : get64 m off = get64 m' off := by
  rw [CcPof.get64, h.load hlo hhi, CcPof.get64]

/-! ## 6. Writes inside a window -/

/-- `m'` differs from `m` at most from `lo` up to `hi`. -/
def ChangedWithin (lo hi : Nat) (m m' : Mem) : Prop := ∀ i, i < lo ∨ hi ≤ i → m' i = m i

theorem ChangedWithin.refl (lo hi : Nat) (m : Mem) : ChangedWithin lo hi m m := fun _ _ => rfl

theorem ChangedWithin.mono {lo lo' hi hi' : Nat} {m m' : Mem} (h : ChangedWithin lo hi m m')
    (hlo : lo' ≤ lo) (hhi : hi ≤ hi') : ChangedWithin lo' hi' m m' :=
  fun i hi => h i (by omega)

theorem ChangedWithin.trans {lo hi : Nat} {m m' m'' : Mem} (h : ChangedWithin lo hi m m')
    (h' : ChangedWithin lo hi m' m'') : ChangedWithin lo hi m m'' :=
  fun i hi => (h' i hi).trans (h i hi)

theorem ChangedWithin.store {lo hi off : Nat} {m m' : Mem} {bs : List UInt8}
    (h : ChangedWithin lo hi m m') (hlo : lo ≤ off) (hhi : off + bs.length ≤ hi) :
    ChangedWithin lo hi m (store m' off bs) :=
  fun i hi => (store_outside (by omega)).trans (h i hi)

theorem ChangedWithin.put8 {lo hi : Nat} {m m' : Mem} {x : UInt8}
    (h : ChangedWithin lo hi m m') (off : Nat) (hlo : lo ≤ off) (hhi : off + 1 ≤ hi) :
    ChangedWithin lo hi m (put8 m' off x) :=
  h.store hlo hhi

theorem ChangedWithin.put16 {lo hi : Nat} {m m' : Mem} {x : UInt16}
    (h : ChangedWithin lo hi m m') (off : Nat) (hlo : lo ≤ off) (hhi : off + 2 ≤ hi) :
    ChangedWithin lo hi m (put16 m' off x) :=
  h.store hlo (by rwa [length_toLE])

theorem ChangedWithin.put32 {lo hi : Nat} {m m' : Mem} {x : UInt32}
    (h : ChangedWithin lo hi m m') (off : Nat) (hlo : lo ≤ off) (hhi : off + 4 ≤ hi) :
    ChangedWithin lo hi m (put32 m' off x) :=
  h.store hlo (by rwa [length_toLE])

theorem ChangedWithin.put64 {lo hi : Nat} {m m' : Mem} {x : UInt64}
    (h : ChangedWithin lo hi m m') (off : Nat) (hlo : lo ≤ off) (hhi : off + 8 ≤ hi) :
    ChangedWithin lo hi m (put64 m' off x) :=
  h.store hlo (by rwa [length_toLE])

theorem ChangedWithin.zero {lo hi n : Nat} {m m' : Mem} (h : ChangedWithin lo hi m m')
    (off : Nat) (hlo : lo ≤ off) (hhi : off + n ≤ hi) : ChangedWithin lo hi m (zero m' off n) :=
  h.store hlo (by rwa [List.length_replicate])

/-- Below the window nothing changes. -/
theorem ChangedWithin.agreeOn {lo hi k : Nat} {m m' : Mem} (h : ChangedWithin lo hi m m')
    (hk : k ≤ lo) : AgreeOn 0 k m' m :=
  fun i _ hi => h i (by omega)

/-! ## 7. C strings -/

/-- The string at `pos` has `n` bytes and then its terminator. -/
def NulAt (m : Mem) (pos n : Nat) : Prop := (∀ i, i < n → m (pos + i) ≠ 0) ∧ m (pos + n) = 0

/-- The text of an allocated block: what stands before its first NUL. -/
def cString (block : List UInt8) : List UInt8 := block.takeWhile (· ≠ 0)

theorem NulAt.unique {m : Mem} {pos n k : Nat} (hn : NulAt m pos n) (hk : NulAt m pos k) : n = k := by
  rcases Nat.lt_trichotomy n k with h | h | h
  · exact absurd hn.2 (hk.1 n h)
  · exact h
  · exact absurd hk.2 (hn.1 k h)

/-- The terminator is where it is because of the bytes up to it alone. -/
theorem NulAt.congr {m m' : Mem} {pos n : Nat} (h : NulAt m pos n)
    (hagree : ∀ i, i ≤ n → m' (pos + i) = m (pos + i)) : NulAt m' pos n :=
  ⟨fun i hi => (hagree i (Nat.le_of_lt hi)).symm ▸ h.1 i hi, (hagree n le_rfl).trans h.2⟩

theorem cString_load_of_le {m : Mem} {pos n k : Nat} (h : NulAt m pos n) (hk : k ≤ n) :
    cString (load m pos k) = load m pos k := by
  refine List.takeWhile_eq_self_iff.mpr fun b hb => ?_
  obtain ⟨i, hi, rfl⟩ := List.mem_iff_getElem.mp hb
  rw [length_load] at hi
  rw [getElem_load, decide_eq_true_eq]
  exact h.1 i (by omega)

/-- A window that holds the terminator reads as the string. -/
theorem cString_load_of_lt {m : Mem} {pos n k : Nat} (h : NulAt m pos n) (hk : n < k) :
    cString (load m pos k) = load m pos n := by
  obtain ⟨j, rfl⟩ := Nat.exists_eq_add_of_lt hk
  have hfirst : load m (pos + n) (j + 1) = 0 :: load m (pos + n + 1) j := by
    rw [Nat.add_comm j 1, load_add]
    exact congrArg (fun b => [b] ++ load m (pos + n + 1) j) h.2
  have hprefix : ∀ b ∈ load m pos n, decide (b ≠ 0) = true :=
    List.takeWhile_eq_self_iff.mp (cString_load_of_le h le_rfl)
  rw [cString, Nat.add_assoc, load_add, List.takeWhile_append_of_pos hprefix, hfirst,
    List.takeWhile_cons_of_neg (by simp), List.append_nil]

end CcPof
