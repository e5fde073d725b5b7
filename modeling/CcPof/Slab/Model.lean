import CcPof.Lib.ByteMemory
import CcPof.Lib.Transition

/-!
# The slab allocator

`ncx_slab_init`, `ncx_slab_alloc` and `ncx_slab_free` on 64-bit words. The page descriptors and the
list headers of the pool are records that a `Ref` names; the bytes of the page area are a memory,
since the bitmaps of the pages with small chunks stand in it. A function is `none` where the C code
follows a pointer that is NULL or no descriptor.
-/

namespace CcPof.Slab

abbrev Word := BitVec 64

/-- NCX_SLAB_PAGE, NCX_SLAB_BIG, NCX_SLAB_EXACT and NCX_SLAB_SMALL -/
inductive Tag
  | page
  | big
  | exact
  | small
  deriving DecidableEq, Repr

/-- A pointer to `pool->free`, to a slot header or to a page descriptor. -/
inductive Ref
  | null
  | free
  | slot (k : Nat)
  | page (i : Nat)
  deriving DecidableEq, Repr

/-- `ncx_slab_page_t`; the word `prev` is a pointer and, in its two low bits, a tag. -/
@[ext]
structure SlabPage where
  slab : Word
  next : Ref
  prev : Ref
  tag : Tag

/-- `ncx_slab_pool_t` with the descriptors behind it, and the static sizes of the file, which come
from the page size. -/
structure Pool where
  pagesizeShift : Nat
  minShift : Nat
  start : Nat
  endAddr : Nat
  desc : Ref → SlabPage
  mem : Mem

def pageBusy : Word := 0xffffffffffffffff#64
def pageStart : Word := 0x8000000000000000#64
def slabBusy : Word := 0xffffffffffffffff#64
def shiftMask : Word := 0x000000000000000f#64
def mapMask : Word := 0xffffffff00000000#64
def mapShift : Nat := 32

def zeroPage : SlabPage := ⟨0#64, .null, .null, .page⟩

/-- `(uintptr_t) 1 << i` -/
def bitAt (i : Nat) : Word := 1#64 <<< i

namespace Pool

def pagesize (s : Pool) : Nat := 1 <<< s.pagesizeShift
def maxSize (s : Pool) : Nat := s.pagesize / 2
def exactSize (s : Pool) : Nat := s.pagesize / (8 * 8)
def exactShift (s : Pool) : Nat := s.exactSize.log2
def minSize (s : Pool) : Nat := 1 <<< s.minShift

/-- The address of a page. -/
def addr (s : Pool) (i : Nat) : Nat := s.start + (i <<< s.pagesizeShift)

def modify (s : Pool) (r : Ref) (f : SlabPage → SlabPage) : Pool :=
  { s with desc := Function.update s.desc r (f (s.desc r)) }

/-- `r->next = x` -/
def setNext (s : Pool) (r x : Ref) : Option Pool :=
  if r = .null then none else some (s.modify r fun d => { d with next := x })

/-- `r->prev = (uintptr_t) x | tag` -/
def setPrev (s : Pool) (r x : Ref) (tag : Tag) : Option Pool :=
  if r = .null then none else some (s.modify r fun d => { d with prev := x, tag := tag })

/-- Word `n` of the bitmap at `bitmap`. -/
def word (s : Pool) (bitmap n : Nat) : Word := (get64 s.mem (bitmap + 8 * n)).toBitVec

def setWord (s : Pool) (bitmap n : Nat) (w : Word) : Pool :=
  { s with mem := put64 s.mem (bitmap + 8 * n) (UInt64.ofBitVec w) }

/-- Write `d` into `n` descriptors from page `i` on. -/
def fill (s : Pool) (d : SlabPage) : Nat → Nat → Pool
  | _, 0 => s
  | i, n + 1 => fill (s.modify (.page i) fun _ => d) d (i + 1) n

/-- `prev = page->prev & ~MASK; prev->next = page->next; page->next->prev = page->prev` -/
def unlink (s : Pool) (i : Nat) : Option Pool := do
  let s ← s.setNext (s.desc (.page i)).prev (s.desc (.page i)).next
  s.setPrev (s.desc (.page i)).next (s.desc (.page i)).prev (s.desc (.page i)).tag

/-- A page whose last chunk was taken leaves its slot list and keeps its tag. -/
def unlinkFull (s : Pool) (i : Nat) (tag : Tag) : Option Pool := do
  let s ← s.unlink i
  some (s.modify (.page i) fun d => { d with next := .null, prev := .null, tag := tag })

/-- A page that was full goes to the front of its slot list. -/
def relink (s : Pool) (i slot : Nat) (tag : Tag) : Option Pool := do
  let s := s.modify (.page i) fun d => { d with next := (s.desc (.slot slot)).next }
  let s ← s.setNext (.slot slot) (.page i)
  let s := s.modify (.page i) fun d => { d with prev := .slot slot, tag := tag }
  s.setPrev (s.desc (.page i)).next (.page i) tag

/-- A fresh page becomes the only one of its slot list. -/
def linkFresh (s : Pool) (i slot : Nat) (slab : Word) (tag : Tag) : Pool :=
  (s.modify (.page i) fun _ => ⟨slab, .slot slot, .slot slot, tag⟩).modify (.slot slot)
    fun d => { d with next := .page i }

end Pool

/-! ## 1. Pages -/

/-- The loop of `ncx_slab_alloc_pages` over the free blocks, for at most `fuel` of them. -/
def allocPagesFrom (s : Pool) (pages : Nat) : Nat → Ref → Option (Pool × Option Nat)
  | _ + 1, .free => some (s, none)
  | fuel + 1, .page i =>
      let page := s.desc (.page i)
      if pages ≤ page.slab.toNat then
        -- The word `prev` is used as a pointer without the mask.
        if page.tag ≠ .page then none
        else do
          let s ← if pages < page.slab.toNat then do
              let s := s.modify (.page (i + pages)) fun _ =>
                ⟨BitVec.ofNat 64 (page.slab.toNat - pages), page.next, page.prev, page.tag⟩
              let s ← s.setNext page.prev (.page (i + pages))
              s.setPrev page.next (.page (i + pages)) .page
            else do
              let s ← s.setNext page.prev page.next
              s.setPrev page.next page.prev page.tag
          let s := s.modify (.page i) fun _ =>
            ⟨BitVec.ofNat 64 pages ||| pageStart, .null, .null, .page⟩
          some (s.fill ⟨pageBusy, .null, .null, .page⟩ (i + 1) (pages - 1), some i)
      else allocPagesFrom s pages fuel page.next
  | _, _ => none

/-- No two blocks begin in one page, so there are not more of them than pages of the pool. -/
def ncxSlabAllocPages (s : Pool) (pages : Nat) : Option (Pool × Option Nat) :=
  allocPagesFrom s pages ((s.endAddr - s.start) / s.pagesize + 2) (s.desc .free).next

def ncxSlabFreePages (s : Pool) (i pages : Nat) : Option Pool :=
  if pages = 0 then none
  else do
    let s := s.modify (.page i) fun d => { d with slab := BitVec.ofNat 64 pages }
    let s := s.fill zeroPage (i + 1) (pages - 1)
    let s ← if (s.desc (.page i)).next ≠ .null then s.unlink i else some s
    let s := s.modify (.page i) fun d =>
      { d with prev := .free, tag := .page, next := (s.desc .free).next }
    let s ← s.setPrev (s.desc (.page i)).next (.page i) .page
    s.setNext .free (.page i)

/-! ## 2. Allocation -/

/-- `for (s = size - 1; s >>= 1; shift++)` adds this to `shift`. -/
def countShift : Nat → Nat → Nat
  | 0, _ => 0
  | fuel + 1, s => if s >>> 1 = 0 then 0 else countShift fuel (s >>> 1) + 1

/-- A chunk of a page with a bitmap in the page: the first zero bit of the first word that has
one. The page is full if the rest of the words are, too. -/
def takeSmall (shift : Nat) (s : Pool) (i : Nat) : Option (Pool × Option Nat) :=
  let bitmap := s.addr i
  let map := (1 <<< (s.pagesizeShift - shift)) / (8 * 8)
  let found := (List.range map).findSome? fun n =>
    if s.word bitmap n ≠ slabBusy then
      ((List.range 64).find? fun j => s.word bitmap n &&& bitAt j = 0#64).map fun j => (n, j)
    else none
  match found with
  | none => some (s, none)
  | some (n, j) => do
      let s := s.setWord bitmap n (s.word bitmap n ||| bitAt j)
      let p := bitmap + (((n * 8 * 8) <<< shift) + (j <<< shift))
      if s.word bitmap n = slabBusy ∧
          (List.range' (n + 1) (map - (n + 1))).all fun k => s.word bitmap k = slabBusy then
        let s ← s.unlinkFull i .small
        some (s, some p)
      else some (s, some p)

/-- A chunk of a page whose descriptor is its bitmap. -/
def takeExact (shift : Nat) (s : Pool) (i : Nat) : Option (Pool × Option Nat) :=
  let slab := (s.desc (.page i)).slab
  if slab ≠ slabBusy then
    match (List.range 64).find? fun j => slab &&& bitAt j = 0#64 with
    | none => some (s, none)
    | some j => do
        let s := s.modify (.page i) fun d => { d with slab := slab ||| bitAt j }
        let s ← if slab ||| bitAt j = slabBusy then s.unlinkFull i .exact else some s
        some (s, some (s.addr i + (j <<< shift)))
  else some (s, none)

/-- The map of a page with big chunks, from the shift in the descriptor. -/
def bigMask (s : Pool) (i : Nat) : Word :=
  let n := s.pagesizeShift - ((s.desc (.page i)).slab &&& shiftMask).toNat
  ((1#64 <<< (1 <<< n)) - 1#64) <<< mapShift

/-- A chunk of a page whose descriptor has the shift and the bitmap. -/
def takeBig (shift : Nat) (mask : Word) (s : Pool) (i : Nat) : Option (Pool × Option Nat) :=
  let slab := (s.desc (.page i)).slab
  if slab &&& mapMask ≠ mask then
    match ((List.range 64).takeWhile fun j => bitAt (mapShift + j) &&& mask ≠ 0#64).find?
        fun j => slab &&& bitAt (mapShift + j) = 0#64 with
    | none => some (s, none)
    | some j => do
        let s := s.modify (.page i) fun d => { d with slab := slab ||| bitAt (mapShift + j) }
        let s ← if (slab ||| bitAt (mapShift + j)) &&& mapMask = mask then s.unlinkFull i .big
          else some s
        some (s, some (s.addr i + (j <<< shift)))
  else some (s, none)

/-- `do { .. page = page->next; } while (page)`, for at most `fuel` pages. -/
def searchPages (take : Pool → Nat → Option (Pool × Option Nat)) :
    Nat → Pool → Ref → Option (Pool × Option Nat)
  | fuel + 1, s, .page i => do
      match ← take s i with
      | (s, some p) => some (s, some p)
      | (s, none) =>
          if (s.desc (.page i)).next = .null then some (s, none)
          else searchPages take fuel s (s.desc (.page i)).next
  | _, _, _ => none

/-- The search in the pages of a slot that have a free chunk. -/
def searchSlot (s : Pool) (shift slot : Nat) : Option (Pool × Option Nat) :=
  let page := (s.desc (.slot slot)).next
  let fuel := (s.endAddr - s.start) / s.pagesize + 1
  if page = .null then none
  else if (s.desc page).next = page then some (s, none)
  else if shift < s.exactShift then searchPages (takeSmall shift) fuel s page
  else if shift = s.exactShift then searchPages (takeExact shift) fuel s page
  else
    match page with
    | .page i => searchPages (takeBig shift (bigMask s i)) fuel s page
    | _ => none

/-- The number of chunks that the bitmap of a page with small chunks takes up. -/
def bitmapChunks (s : Pool) (shift : Nat) : Nat :=
  let n := (1 <<< (s.pagesizeShift - shift)) / 8 / (1 <<< shift)
  if n = 0 then 1 else n

/-- The first chunk of a page that was just allocated. `(2 << n) - 1` is an `int`. -/
def freshSlab (s : Pool) (shift slot i : Nat) : Pool × Nat :=
  if shift < s.exactShift then
    let bitmap := s.addr i
    let n := bitmapChunks s shift
    let s := s.setWord bitmap 0 (((2#32 <<< n) - 1#32).signExtend 64)
    let map := (1 <<< (s.pagesizeShift - shift)) / (8 * 8)
    let s := (List.range' 1 (map - 1)).foldl (fun s k => s.setWord bitmap k 0#64) s
    (s.linkFresh i slot (BitVec.ofNat 64 shift) .small, s.addr i + (1 <<< shift) * n)
  else if shift = s.exactShift then (s.linkFresh i slot 1#64 .exact, s.addr i)
  else (s.linkFresh i slot (bitAt mapShift ||| BitVec.ofNat 64 shift) .big, s.addr i)

/-- The chunk class of a request: `1 << shift` bytes. -/
def requestShift (s : Pool) (size : Nat) : Nat :=
  if s.minSize < size then 1 + countShift 64 (size - 1) else s.minShift

/-- `ncx_slab_alloc_locked`; the result 0 is NULL. -/
def ncxSlabAllocLocked (s : Pool) (size : Nat) : Option (Pool × Nat) :=
  if s.maxSize ≤ size then do
    let pages := (size >>> s.pagesizeShift) + (if size % s.pagesize ≠ 0 then 1 else 0)
    match ← ncxSlabAllocPages s pages with
    | (s, some i) => some (s, s.addr i)
    | (s, none) => some (s, 0)
  else do
    let shift := requestShift s size
    let slot := shift - s.minShift
    match ← searchSlot s shift slot with
    | (s, some p) => some (s, p)
    | (s, none) => do
        match ← ncxSlabAllocPages s 1 with
        | (s, some i) => some (freshSlab s shift slot i)
        | (s, none) => some (s, 0)

/-! ## 3. Release -/

def freeSmall (s : Pool) (i p : Nat) : Option Pool :=
  let shift := ((s.desc (.page i)).slab &&& shiftMask).toNat
  if p &&& ((1 <<< shift) - 1) ≠ 0 then some s
  else
    let c := (p &&& (s.pagesize - 1)) >>> shift
    let m := bitAt (c &&& (8 * 8 - 1))
    let n := c / (8 * 8)
    let bitmap := p - (p &&& (s.pagesize - 1))
    if s.word bitmap n &&& m ≠ 0#64 then do
      let s ← if (s.desc (.page i)).next = .null then s.relink i (shift - s.minShift) .small
        else some s
      let s := s.setWord bitmap n (s.word bitmap n &&& ~~~m)
      if s.word bitmap 0 &&& ~~~(bitAt (bitmapChunks s shift) - 1#64) ≠ 0#64 then some s
      else
        let map := (1 <<< (s.pagesizeShift - shift)) / (8 * 8)
        if (List.range' 1 (map - 1)).any fun k => s.word bitmap k ≠ 0#64 then some s
        else ncxSlabFreePages s i 1
    else some s

def freeExact (s : Pool) (i p : Nat) : Option Pool :=
  let slab := (s.desc (.page i)).slab
  let m := bitAt ((p &&& (s.pagesize - 1)) >>> s.exactShift)
  if p &&& (s.exactSize - 1) ≠ 0 then some s
  else if slab &&& m ≠ 0#64 then do
    let s ← if slab = slabBusy then s.relink i (s.exactShift - s.minShift) .exact else some s
    let s := s.modify (.page i) fun d => { d with slab := d.slab &&& ~~~m }
    if (s.desc (.page i)).slab ≠ 0#64 then some s else ncxSlabFreePages s i 1
  else some s

def freeBig (s : Pool) (i p : Nat) : Option Pool :=
  let slab := (s.desc (.page i)).slab
  let shift := (slab &&& shiftMask).toNat
  if p &&& ((1 <<< shift) - 1) ≠ 0 then some s
  else
    let m := bitAt (((p &&& (s.pagesize - 1)) >>> shift) + mapShift)
    if slab &&& m ≠ 0#64 then do
      let s ← if (s.desc (.page i)).next = .null then s.relink i (shift - s.minShift) .big
        else some s
      let s := s.modify (.page i) fun d => { d with slab := d.slab &&& ~~~m }
      if (s.desc (.page i)).slab &&& mapMask ≠ 0#64 then some s else ncxSlabFreePages s i 1
    else some s

def freePage (s : Pool) (i p : Nat) : Option Pool :=
  let slab := (s.desc (.page i)).slab
  if p &&& (s.pagesize - 1) ≠ 0 then some s
  else if slab = 0#64 then some s
  else if slab = pageBusy then some s
  else ncxSlabFreePages s i (slab &&& ~~~pageStart).toNat

/-- `ncx_slab_free_locked`; an error that it reports leaves the pool as it is. -/
def ncxSlabFreeLocked (s : Pool) (p : Nat) : Option Pool :=
  if p < s.start ∨ s.endAddr < p then some s
  else
    let i := (p - s.start) >>> s.pagesizeShift
    match (s.desc (.page i)).tag with
    | .small => freeSmall s i p
    | .exact => freeExact s i p
    | .big => freeBig s i p
    | .page => freePage s i p

/-! ## 4. Initialisation -/

def sizeofSlabPage : Nat := 24
def sizeofSlabPool : Nat := 80

/-- `ncx_slab_init` for a pool at `base`, on 64-bit addresses, with the descriptors `desc` in the
memory behind it at that time. The second result is the number of pages. -/
def ncxSlabInit (pagesizeShift minShift base endAddr : Nat) (desc : Ref → SlabPage) (mem : Mem) :
    Pool × Nat :=
  let pagesize := 1 <<< pagesizeShift
  let p := base + sizeofSlabPool
  let size := (((endAddr : Int) - p) % 2 ^ 64).toNat
  let n := pagesizeShift - minShift
  let p := p + n * sizeofSlabPage
  let pages := size / (pagesize + sizeofSlabPage)
  let start := (p + pages * sizeofSlabPage + (pagesize - 1)) / pagesize * pagesize
  let fits := (((endAddr : Int) - start) % 2 ^ 64).toNat / pagesize
  let m := (pages : Int) - fits
  let pages' := if 0 < m then fits else pages
  let desc : Ref → SlabPage := fun
    | .null => desc .null
    | .free => { desc .free with next := .page 0, prev := .null, tag := .page }
    | .slot k => if k < n then ⟨0#64, .slot k, .null, .page⟩ else desc (.slot k)
    | .page 0 => ⟨BitVec.ofNat 64 pages', .free, .free, .page⟩
    | .page (i + 1) => if i + 1 < pages then zeroPage else desc (.page (i + 1))
  ({ pagesizeShift, minShift, start, endAddr, desc, mem }, pages')

/-! ## 5. Clients -/

/-- The pool, and the allocations that were not freed yet with the sizes asked for. -/
structure State where
  pool : Pool
  live : List (Nat × Nat)

inductive Act
  | alloc (size : UInt64)
  | free (p : Nat)
  | write (p size off : Nat) (v : UInt8)

/-- A client frees and writes only what it has. -/
def step (st : State) : Act → Option State
  | .alloc size => (ncxSlabAllocLocked st.pool size.toNat).map fun (pool, p) =>
      if p = 0 then { st with pool } else { pool, live := (p, size.toNat) :: st.live }
  | .free p =>
      if p ∈ st.live.map Prod.fst then (ncxSlabFreeLocked st.pool p).map fun pool =>
        { pool, live := st.live.filter (·.1 ≠ p) }
      else none
  | .write p size off v =>
      if (p, size) ∈ st.live ∧ off < size then
        some { st with pool := { st.pool with mem := put8 st.pool.mem (p + off) v } }
      else none

def slabSystem (pool : Pool) : TransitionSystem State Act where
  init := { pool, live := [] }
  step := step

end CcPof.Slab
