import AcsVirt.Core.Spans

/-!
# Restricted DMA pool (`kernel/axi_mmio.c`)

The DMA operations of the AXI frontend module: coherent allocations, bounced
and pass-through streaming mappings and scatterlists, all from one bitmap of
pages. The pool's mapping `dma_virt` of the aperture is the physical memory
at the aperture itself, so `Kernel` has one memory.

Two parts of the kernel are parameters: `find` stands for
`bitmap_find_next_zero_area(map, n, 0, k, 0)`, and `Env` says whether this
call's `kzalloc` and `memremap` succeed. An operation holds `dma_lock` around
each access to the bitmap and the list; calls are modelled one at a time.
-/
namespace AcsVirt.L2

inductive DmaDir where
  | bidirectional | toDevice | fromDevice
  deriving DecidableEq, Repr

def dmaMappingError : UInt64 := 0xffffffffffffffff

/-- `PAGE_ALIGN(size) >> PAGE_SHIFT`, which wraps near `SIZE_MAX`. -/
def pageCount (size : UInt64) : UInt64 := ((size + 0xfff) &&& ~~~(0xfff : UInt64)) >>> 12

/-- mirrors src/kernel/axi_mmio.c:33-38 -/
structure AxiMmioBounce where
  dmaHandle : UInt64
  phys : UInt64
  size : UInt64
  deriving DecidableEq, Repr

/-- mirrors src/kernel/axi_mmio.c:21-31 -/
structure AxiMmioPool where
  dmaBase : UInt64
  dmaSize : UInt64
  dmaPages : UInt64
  dmaBitmap : Bitmap
  bounces : List AxiMmioBounce

def AxiMmioPool.withBits (p : AxiMmioPool) (bits : Bitmap) : AxiMmioPool :=
  { p with dmaBitmap := bits }

structure Kernel where
  pool : AxiMmioPool
  mem : Mem

structure Env where
  kzallocOk : Bool
  memremapOk : Bool
  deriving DecidableEq, Repr

/-- A new pool.
mirrors src/kernel/axi_mmio.c:87-107 -/
def axiMmioPoolGet (base size : UInt64) : AxiMmioPool :=
  { dmaBase := base, dmaSize := size, dmaPages := size >>> 12, dmaBitmap := .empty, bounces := [] }

/-- The pool of a probed device whose DMA resource is `start..stop`.
mirrors src/kernel/axi_mmio.c:554-563 -/
def axiMmioProbe (start stop : UInt64) : Option AxiMmioPool :=
  let dmaSize := stop - start + 1
  if start &&& 0xfff ≠ 0 ∨ dmaSize &&& 0xfff ≠ 0 ∨ dmaSize >>> 12 = 0 then none
  else some (axiMmioPoolGet start dmaSize)

/-- mirrors src/kernel/axi_mmio.c:124-128 -/
def poolVaddr (p : AxiMmioPool) (dmaHandle : UInt64) : Nat :=
  p.dmaBase.toNat + (dmaHandle - p.dmaBase).toNat

/-- mirrors src/kernel/axi_mmio.c:130-152 -/
def poolAlloc (find : Bitmap → Nat → Nat → Nat) (p : AxiMmioPool) (size : UInt64) :
    Option (UInt64 × AxiMmioPool) :=
  let pages := pageCount size
  if pages = 0 then none
  else
    let start := find p.dmaBitmap p.dmaPages.toNat pages.toNat
    if p.dmaPages.toNat ≤ start then none
    else some (p.dmaBase + UInt64.ofNat start <<< 12,
      p.withBits (p.dmaBitmap.set ⟨start, pages.toNat⟩))

/-- mirrors src/kernel/axi_mmio.c:154-172 -/
def poolFree (p : AxiMmioPool) (dmaHandle size : UInt64) : AxiMmioPool :=
  let pages := pageCount size
  if dmaHandle < p.dmaBase ∨ pages = 0 then p
  else
    let offset := (dmaHandle - p.dmaBase) >>> 12
    if p.dmaPages < offset + pages then p
    else p.withBits (p.dmaBitmap.clear ⟨offset.toNat, pages.toNat⟩)

/-- `memcpy` of `size` bytes. -/
def copyBytes (m : Mem) (dst src size : Nat) : Mem := writeBytes m dst (readBytes m src size)

/-- mirrors src/kernel/axi_mmio.c:174-187 -/
def copyPhysToPool (k : Kernel) (dmaHandle phys size : UInt64) : Kernel :=
  { k with mem := copyBytes k.mem (poolVaddr k.pool dmaHandle) phys.toNat size.toNat }

/-- mirrors src/kernel/axi_mmio.c:189-202 -/
def copyPoolToPhys (k : Kernel) (dmaHandle phys size : UInt64) : Kernel :=
  { k with mem := copyBytes k.mem phys.toNat (poolVaddr k.pool dmaHandle) size.toNat }

/-- mirrors src/kernel/axi_mmio.c:204-215 -/
def bounceFind (p : AxiMmioPool) (dmaHandle : UInt64) : Option AxiMmioBounce :=
  p.bounces.find? fun b => b.dmaHandle == dmaHandle

/-- `list_del` of the record `bounceFind` returns. -/
def bounceDel (p : AxiMmioPool) (dmaHandle : UInt64) : AxiMmioPool :=
  { p with bounces := p.bounces.eraseP fun b => b.dmaHandle == dmaHandle }

/-- mirrors src/kernel/axi_mmio.c:217-239,470-482 -/
def dmaSyncSingleForDevice (k : Kernel) (env : Env) (dmaHandle size : UInt64) (dir : DmaDir) :
    Kernel :=
  if dir = .fromDevice then k
  else
    match bounceFind k.pool dmaHandle with
    | none => k
    | some b => if env.memremapOk then copyPhysToPool k dmaHandle b.phys (min size b.size) else k

/-- mirrors src/kernel/axi_mmio.c:241-262,456-468 -/
def dmaSyncSingleForCpu (k : Kernel) (env : Env) (dmaHandle size : UInt64) (dir : DmaDir) :
    Kernel :=
  if dir = .toDevice then k
  else
    match bounceFind k.pool dmaHandle with
    | none => k
    | some b => if env.memremapOk then copyPoolToPhys k dmaHandle b.phys (min size b.size) else k

/-- The handle of a coherent allocation, `none` for NULL.
mirrors src/kernel/axi_mmio.c:264-281 -/
def dmaAlloc (find : Bitmap → Nat → Nat → Nat) (k : Kernel) (size : UInt64) :
    Option UInt64 × Kernel :=
  match poolAlloc find k.pool size with
  | none => (none, k)
  | some (h, p) => (some h, { k with pool := p })

/-- mirrors src/kernel/axi_mmio.c:283-297 -/
def dmaFree (k : Kernel) (size dmaHandle : UInt64) : Kernel :=
  { k with pool := poolFree k.pool dmaHandle size }

/-- The range is all inside the aperture.
mirrors src/kernel/axi_mmio.c:315-316 -/
def inAperture (p : AxiMmioPool) (phys size : UInt64) : Bool :=
  p.dmaBase ≤ phys && size ≤ p.dmaSize && phys - p.dmaBase ≤ p.dmaSize - size

/-- mirrors src/kernel/axi_mmio.c:299-346 -/
def dmaMapPhys (find : Bitmap → Nat → Nat → Nat) (k : Kernel) (env : Env) (phys size : UInt64)
    (dir : DmaDir) : UInt64 × Kernel :=
  if size = 0 then (dmaMappingError, k)
  else if inAperture k.pool phys size then (phys, k)
  else if !env.kzallocOk then (dmaMappingError, k)
  else
    match poolAlloc find k.pool size with
    | none => (dmaMappingError, k)
    | some (h, p) =>
      let k := { k with pool := p }
      if dir ≠ .fromDevice ∧ !env.memremapOk then
        (dmaMappingError, { k with pool := poolFree k.pool h size })
      else
        let k := if dir ≠ .fromDevice then copyPhysToPool k h phys size else k
        (h, { k with pool := { k.pool with bounces := ⟨h, phys, size⟩ :: k.pool.bounces } })

/-- mirrors src/kernel/axi_mmio.c:348-381 -/
def dmaUnmapPhys (k : Kernel) (env : Env) (dmaHandle size : UInt64) (dir : DmaDir) : Kernel :=
  if dmaHandle < k.pool.dmaBase ∨ k.pool.dmaSize < size ∨
      k.pool.dmaSize - size < dmaHandle - k.pool.dmaBase then k
  else
    match bounceFind k.pool dmaHandle with
    | none => k
    | some b =>
      let k := { k with pool := bounceDel k.pool dmaHandle }
      let k := if dir ≠ .toDevice ∧ env.memremapOk then
          copyPoolToPhys k dmaHandle b.phys (min size b.size) else k
      { k with pool := poolFree k.pool dmaHandle b.size }

/-- A scatterlist entry: its buffer and the mapping the operations record. -/
structure Sg where
  phys : UInt64
  length : UInt32
  dmaAddress : UInt64
  dmaLen : UInt32
  deriving DecidableEq, Repr

def Sg.unmapped (s : Sg) : Sg := { s with dmaAddress := dmaMappingError, dmaLen := 0 }

/-- Rollback of the entries mapped so far.
mirrors src/kernel/axi_mmio.c:405-410 -/
def sgRollback (p : AxiMmioPool) : List Sg → AxiMmioPool
  | [] => p
  | s :: rest => sgRollback (poolFree p s.dmaAddress s.dmaLen.toUInt64) rest

/-- The mapping loop; `done` are the entries before the current one.
mirrors src/kernel/axi_mmio.c:398-421 -/
def mapSgLoop (find : Bitmap → Nat → Nat → Nat) (dir : DmaDir) :
    List Sg → List Sg → Kernel → Bool × List Sg × Kernel
  | done, [], k => (true, done, k)
  | done, s :: rest, k =>
    match poolAlloc find k.pool s.length.toUInt64 with
    | none => (false, done.map Sg.unmapped ++ s :: rest, { k with pool := sgRollback k.pool done })
    | some (addr, p) =>
      let k := { k with pool := p }
      let k := if dir ≠ .fromDevice then
          { k with mem := copyBytes k.mem (poolVaddr k.pool addr) s.phys.toNat s.length.toNat }
        else k
      mapSgLoop find dir (done ++ [{ s with dmaAddress := addr, dmaLen := s.length }]) rest k

/-- Whether the list was mapped, and the list as the call leaves it.
mirrors src/kernel/axi_mmio.c:383-423 -/
def dmaMapSg (find : Bitmap → Nat → Nat → Nat) (k : Kernel) (sgl : List Sg) (dir : DmaDir) :
    Bool × List Sg × Kernel := mapSgLoop find dir [] sgl k

/-- One entry of the unmapping loop.
mirrors src/kernel/axi_mmio.c:441-452 -/
def unmapSgEntry (k : Kernel) (dir : DmaDir) (s : Sg) : Sg × Kernel :=
  if s.dmaAddress = dmaMappingError ∨ s.dmaLen = 0 then (s, k)
  else
    let k := if dir ≠ .toDevice then
        { k with mem := copyBytes k.mem s.phys.toNat (poolVaddr k.pool s.dmaAddress)
                   (min s.dmaLen s.length).toNat }
      else k
    (s.unmapped, { k with pool := poolFree k.pool s.dmaAddress s.dmaLen.toUInt64 })

/-- mirrors src/kernel/axi_mmio.c:425-454 -/
def dmaUnmapSg (k : Kernel) (dir : DmaDir) : List Sg → List Sg × Kernel
  | [] => ([], k)
  | s :: rest =>
    let (s, k) := unmapSgEntry k dir s
    let (rest, k) := dmaUnmapSg k dir rest
    (s :: rest, k)

theorem copyBytes_out {m : Mem} {dst src n x : Nat} (h : x ∉ (⟨dst, n⟩ : Region)) :
    copyBytes m dst src n x = m x := by
  apply writeBytes_out
  rw [readBytes_length]
  simp only [Region.mem_def] at h
  omega

theorem copyBytes_changes (m : Mem) (dst src n : Nat) :
    ChangesOnly (· ∈ (⟨dst, n⟩ : Region)) m (copyBytes m dst src n) := fun _ hx => copyBytes_out hx

theorem copyBytes_in {m : Mem} {dst src n i : Nat} (h : i < n) :
    copyBytes m dst src n (dst + i) = m (src + i) := by
  have hlen := readBytes_length m src n
  rw [copyBytes, writeBytes_in (by omega) (by omega) 0, Nat.add_sub_cancel_left, readBytes_getD _ _ _ _ _ h]

/-! ## Pages -/

/-- Pages a size rounds up to, without the wrap. -/
def pagesOf (size : UInt64) : Nat := (size.toNat + 4095) / 4096

/-- Page numbers a pool range occupies. -/
def pageSpan (base dmaHandle size : UInt64) : Region :=
  ⟨(dmaHandle.toNat - base.toNat) / 4096, pagesOf size⟩

theorem and_not_fff_shift (x : Nat) (hx : x < 2 ^ 64) :
    (x &&& (2 ^ 64 - 1 - 4095)) >>> 12 = x / 4096 := by
  rw [show x / 4096 = x >>> 12 by rw [Nat.shiftRight_eq_div_pow]]
  apply Nat.eq_of_testBit_eq
  intro i
  rw [Nat.testBit_shiftRight, Nat.testBit_and, Nat.testBit_shiftRight]
  by_cases hi : 12 + i < 64
  · have hc : (2 ^ 64 - 1 - 4095 : Nat) = (2 ^ 52 - 1) <<< 12 := by decide
    have hb : (2 ^ 64 - 1 - 4095 : Nat).testBit (12 + i) = true := by
      rw [hc, Nat.testBit_shiftLeft, Nat.testBit_two_pow_sub_one]
      simp
      omega
    rw [hb, Bool.and_true]
  · have hb : x.testBit (12 + i) = false :=
      Nat.testBit_lt_two_pow (Nat.lt_of_lt_of_le hx (Nat.pow_le_pow_right (by decide) (by omega)))
    rw [hb, Bool.false_and]

theorem pageCount_toNat (size : UInt64) :
    (pageCount size).toNat = (size.toNat + 4095) % 2 ^ 64 / 4096 := by
  have h := and_not_fff_shift ((size.toNat + 4095) % 2 ^ 64) (Nat.mod_lt _ (by decide))
  rw [← h, pageCount, UInt64.toNat_shiftRight, UInt64.toNat_and, UInt64.toNat_not, UInt64.toNat_add]
  rfl

/-- A page count that is not zero did not wrap. -/
theorem pageCount_of_ne_zero {size : UInt64} (h : pageCount size ≠ 0) :
    (pageCount size).toNat = pagesOf size ∧ 0 < pagesOf size ∧ 0 < size.toNat := by
  have h0 : (pageCount size).toNat ≠ 0 := fun e => h (UInt64.toNat_inj.mp e)
  have hlt := size.toNat_lt
  rw [pageCount_toNat] at h0 ⊢
  unfold pagesOf
  omega

theorem size_le_pages (size : UInt64) : size.toNat ≤ 4096 * pagesOf size := by
  unfold pagesOf
  omega

/-! ## The allocator -/

/-- What the probe checks of the aperture, and what it derives from it. -/
structure Aperture (p : AxiMmioPool) : Prop where
  baseAligned : p.dmaBase.toNat % 4096 = 0
  sizeAligned : p.dmaSize.toNat % 4096 = 0
  nonempty : 0 < p.dmaSize.toNat
  fits : p.dmaBase.toNat + p.dmaSize.toNat ≤ 2 ^ 64
  pages : p.dmaPages.toNat = p.dmaSize.toNat / 4096

def apertureRegion (p : AxiMmioPool) : Region := ⟨p.dmaBase.toNat, p.dmaSize.toNat⟩

/-- A page-aligned, non-empty range of whole pages of the aperture. -/
structure PoolRange (p : AxiMmioPool) (dmaHandle size : UInt64) : Prop where
  low : p.dmaBase.toNat ≤ dmaHandle.toNat
  aligned : dmaHandle.toNat % 4096 = 0
  pos : 0 < size.toNat
  high : dmaHandle.toNat + 4096 * pagesOf size ≤ p.dmaBase.toNat + p.dmaSize.toNat

theorem Aperture.withBits {p : AxiMmioPool} (h : Aperture p) (bits : Bitmap) :
    Aperture (p.withBits bits) :=
  ⟨h.baseAligned, h.sizeAligned, h.nonempty, h.fits, h.pages⟩

theorem PoolRange.withBits {p : AxiMmioPool} {h n : UInt64} (hr : PoolRange p h n) (bits : Bitmap) :
    PoolRange (p.withBits bits) h n :=
  ⟨hr.low, hr.aligned, hr.pos, hr.high⟩

theorem PoolRange.first {p : AxiMmioPool} {h n : UInt64} (hr : PoolRange p h n) :
    h.toNat ≤ h.toNat ∧ h.toNat < h.toNat + 4096 * pagesOf n := by
  have := hr.pos
  have := size_le_pages n
  omega

/-- The page of an address inside a pool range. -/
theorem PoolRange.page_mem {p : AxiMmioPool} {h n : UInt64} (hr : PoolRange p h n) (ha : Aperture p)
    {x : Nat} (h1 : h.toNat ≤ x) (h2 : x < h.toNat + 4096 * pagesOf n) :
    (x - p.dmaBase.toNat) / 4096 ∈ pageSpan p.dmaBase h n := by
  have hb := ha.baseAligned
  have hal := hr.aligned
  have hlow := hr.low
  simp only [pageSpan, Region.mem_def]
  omega

theorem and_fff_eq_zero {x : UInt64} (h : x &&& 0xfff = 0) : x.toNat % 4096 = 0 := by
  have h1 := congrArg UInt64.toNat h
  rw [UInt64.toNat_and] at h1
  exact (Nat.and_two_pow_sub_one_eq_mod x.toNat 12).symm.trans h1

theorem axiMmioProbe_aperture {start stop : UInt64} (hle : start ≤ stop) {p : AxiMmioPool}
    (h : axiMmioProbe start stop = some p) : Aperture p := by
  unfold axiMmioProbe at h
  dsimp only at h
  split at h
  · cases h
  · rename_i hc
    simp only [not_or, ne_eq, not_not] at hc
    obtain ⟨hb, hs, hn⟩ := hc
    cases h
    have hle' := UInt64.le_iff_toNat_le.1 hle
    have hstop := stop.toNat_lt
    have hsize : (stop - start + 1).toNat = (stop.toNat - start.toNat + 1) % 2 ^ 64 := by
      rw [UInt64.toNat_add, UInt64.toNat_sub_of_le _ _ hle]
      rfl
    have hpg : ((stop - start + 1) >>> 12).toNat = (stop - start + 1).toNat / 4096 := by
      rw [UInt64.toNat_shiftRight, Nat.shiftRight_eq_div_pow]
      rfl
    have hne : (stop - start + 1).toNat / 4096 ≠ 0 := by
      intro e
      apply hn
      apply UInt64.toNat_inj.mp
      rw [hpg, e]
      rfl
    refine ⟨and_fff_eq_zero hb, and_fff_eq_zero hs, ?_, ?_, hpg⟩
    · simp only [axiMmioPoolGet]
      omega
    · simp only [axiMmioPoolGet]
      omega

/-- What a successful allocation hands out: a clear run of pages, now set. -/
theorem poolAlloc_some {find : Bitmap → Nat → Nat → Nat} (hf : ZeroArea find) {p p' : AxiMmioPool}
    (ha : Aperture p) {size h : UInt64} (he : poolAlloc find p size = some (h, p')) :
    PoolRange p h size ∧ p' = p.withBits (p.dmaBitmap.set (pageSpan p.dmaBase h size)) ∧
      ∀ i ∈ pageSpan p.dmaBase h size, p.dmaBitmap i = false := by
  unfold poolAlloc at he
  dsimp only at he
  split at he
  · cases he
  rename_i hpages
  split at he
  · cases he
  rename_i hstart
  obtain ⟨hcount, hppos, hspos⟩ := pageCount_of_ne_zero hpages
  rw [hcount] at hstart he
  obtain ⟨hend, hfree⟩ := hf p.dmaBitmap p.dmaPages.toNat (pagesOf size) (by omega)
  generalize find p.dmaBitmap p.dmaPages.toNat (pagesOf size) = start at *
  simp only [Option.some.injEq, Prod.mk.injEq] at he
  obtain ⟨rfl, rfl⟩ := he
  have hfits := ha.fits
  have hpg := ha.pages
  have hshift : (UInt64.ofNat start <<< 12).toNat = 4096 * start := by
    rw [UInt64.toNat_shiftLeft, UInt64.toNat_ofNat', Nat.shiftLeft_eq]
    have : (12 : UInt64).toNat % 64 = 12 := rfl
    rw [this]
    omega
  have hh : (p.dmaBase + UInt64.ofNat start <<< 12).toNat = p.dmaBase.toNat + 4096 * start := by
    rw [UInt64.toNat_add, hshift]
    omega
  have hspan : pageSpan p.dmaBase (p.dmaBase + UInt64.ofNat start <<< 12) size = ⟨start, pagesOf size⟩ := by
    simp only [pageSpan, hh, Region.mk.injEq, and_true]
    omega
  rw [hspan]
  have hb := ha.baseAligned
  have hsz := ha.sizeAligned
  refine ⟨⟨by omega, by omega, hspos, by omega⟩, rfl, ?_⟩
  intro i hi
  exact hfree i hi.1 hi.2

/-- Freeing a range of the pool clears exactly its pages. -/
theorem poolFree_range {p : AxiMmioPool} (ha : Aperture p) {h size : UInt64}
    (hr : PoolRange p h size) :
    poolFree p h size = p.withBits (p.dmaBitmap.clear (pageSpan p.dmaBase h size)) := by
  have hlow := hr.low
  have hhigh := hr.high
  have hfits := ha.fits
  have hpg := ha.pages
  have hpos := hr.pos
  have hsl := size_le_pages size
  have hlt := h.toNat_lt
  have hcount : (pageCount size).toNat = pagesOf size := by
    -- the aperture is smaller than the address space, so rounding up does not wrap
    have hsz := ha.sizeAligned
    have hszlt := p.dmaSize.toNat_lt
    rw [pageCount_toNat]
    unfold pagesOf at hhigh ⊢
    omega
  have hne : pageCount size ≠ 0 := by
    intro e
    have := congrArg UInt64.toNat e
    rw [hcount] at this
    simp only [UInt64.toNat_zero] at this
    omega
  have hoff : ((h - p.dmaBase) >>> 12).toNat = (h.toNat - p.dmaBase.toNat) / 4096 := by
    rw [UInt64.toNat_shiftRight, UInt64.toNat_sub_of_le _ _ (UInt64.le_iff_toNat_le.2 hlow),
      Nat.shiftRight_eq_div_pow]
    rfl
  have h1 : ¬(h < p.dmaBase ∨ pageCount size = 0) := by
    rw [not_or, UInt64.not_lt, UInt64.le_iff_toNat_le]
    exact ⟨hlow, hne⟩
  have h2 : ¬p.dmaPages < (h - p.dmaBase) >>> 12 + pageCount size := by
    rw [UInt64.lt_iff_toNat_lt, UInt64.toNat_add, hoff, hcount]
    omega
  unfold poolFree
  dsimp only
  rw [if_neg h1, if_neg h2, hoff, hcount]
  rfl

theorem PoolRange.handle_ne_error {p : AxiMmioPool} {h n : UInt64} (hr : PoolRange p h n) :
    h ≠ dmaMappingError := by
  intro e
  have ha := hr.aligned
  rw [e] at ha
  exact absurd ha (by decide)

/-- The pool's mapping of a range is the aperture's memory at the handle. -/
theorem PoolRange.vaddr {p : AxiMmioPool} {h n : UInt64} (hr : PoolRange p h n) :
    poolVaddr p h = h.toNat := by
  have hlow := hr.low
  rw [poolVaddr, UInt64.toNat_sub_of_le _ _ (UInt64.le_iff_toNat_le.2 hlow)]
  omega

/-! ## Streaming mappings -/

/-- What `map_phys` can do: fail and leave the kernel as it was, pass the
address through, or bounce. -/
theorem dmaMapPhys_cases {find : Bitmap → Nat → Nat → Nat} (hf : ZeroArea find) {k k' : Kernel}
    (ha : Aperture k.pool) {env : Env} {phys size h : UInt64} {dir : DmaDir}
    (he : dmaMapPhys find k env phys size dir = (h, k')) :
    (h = dmaMappingError ∧ k' = k) ∨
    (size ≠ 0 ∧ inAperture k.pool phys size = true ∧ h = phys ∧ k' = k) ∨
    (size ≠ 0 ∧ inAperture k.pool phys size = false ∧ PoolRange k.pool h size ∧
      (∀ i ∈ pageSpan k.pool.dmaBase h size, k.pool.dmaBitmap i = false) ∧
      k' = ⟨{ k.pool with dmaBitmap := k.pool.dmaBitmap.set (pageSpan k.pool.dmaBase h size),
                          bounces := ⟨h, phys, size⟩ :: k.pool.bounces },
        if dir ≠ .fromDevice then copyBytes k.mem h.toNat phys.toNat size.toNat else k.mem⟩) := by
  unfold dmaMapPhys at he
  split at he
  · cases he
    exact .inl ⟨rfl, rfl⟩
  rename_i hsize
  split at he
  · rename_i hin
    cases he
    exact .inr (.inl ⟨hsize, hin, rfl, rfl⟩)
  rename_i hin
  rw [Bool.not_eq_true] at hin
  split at he
  · cases he
    exact .inl ⟨rfl, rfl⟩
  cases hp : poolAlloc find k.pool size with
  | none =>
    rw [hp] at he
    cases he
    exact .inl ⟨rfl, rfl⟩
  | some r =>
    obtain ⟨addr, p⟩ := r
    obtain ⟨hr, hbits, hfree⟩ := poolAlloc_some hf ha hp
    subst hbits
    rw [hp] at he
    dsimp only at he
    split at he
    · cases he
      refine .inl ⟨rfl, ?_⟩
      rw [poolFree_range (ha.withBits _) (hr.withBits _)]
      simp only [AxiMmioPool.withBits, Bitmap.clear_set hfree]
    · have hv : poolVaddr (k.pool.withBits (k.pool.dmaBitmap.set (pageSpan k.pool.dmaBase addr size))) addr
          = addr.toNat := (hr.withBits _).vaddr
      refine .inr (.inr ⟨hsize, hin, ?_⟩)
      by_cases hd : dir = .fromDevice
      · simp only [hd, ne_eq, not_true_eq_false, if_false, Prod.mk.injEq] at he ⊢
        obtain ⟨rfl, rfl⟩ := he
        exact ⟨hr, hfree, rfl⟩
      · simp only [ne_eq, hd, not_false_eq_true, if_true, copyPhysToPool, hv, Prod.mk.injEq] at he ⊢
        obtain ⟨rfl, rfl⟩ := he
        exact ⟨hr, hfree, rfl⟩

/-- Unmapping a range without a record does nothing. -/
theorem dmaUnmapPhys_none {k : Kernel} {h : UInt64} (hb : bounceFind k.pool h = none) (env : Env)
    (size : UInt64) (dir : DmaDir) : dmaUnmapPhys k env h size dir = k := by
  unfold dmaUnmapPhys
  rw [hb]
  split <;> rfl

/-- Unmapping a bounced range: copy back, drop the record, free the pages. -/
theorem dmaUnmapPhys_bounced {k : Kernel} (ha : Aperture k.pool) {h phys size : UInt64}
    (hr : PoolRange k.pool h size) (hb : bounceFind k.pool h = some ⟨h, phys, size⟩) (env : Env)
    (dir : DmaDir) :
    dmaUnmapPhys k env h size dir =
      ⟨(bounceDel k.pool h).withBits (k.pool.dmaBitmap.clear (pageSpan k.pool.dmaBase h size)),
        if dir ≠ .toDevice ∧ env.memremapOk then copyBytes k.mem phys.toNat h.toNat size.toNat
        else k.mem⟩ := by
  have hlow := hr.low
  have hhigh := hr.high
  have hsl := size_le_pages size
  have hguard : ¬(h < k.pool.dmaBase ∨ k.pool.dmaSize < size ∨
      k.pool.dmaSize - size < h - k.pool.dmaBase) := by
    have hle : size ≤ k.pool.dmaSize := UInt64.le_iff_toNat_le.2 (by omega)
    simp only [UInt64.lt_iff_toNat_lt, UInt64.toNat_sub_of_le _ _ hle,
      UInt64.toNat_sub_of_le _ _ (UInt64.le_iff_toNat_le.2 hlow)]
    omega
  have hdel : Aperture (bounceDel k.pool h) := ⟨ha.baseAligned, ha.sizeAligned, ha.nonempty, ha.fits, ha.pages⟩
  have hr' : PoolRange (bounceDel k.pool h) h size := ⟨hr.low, hr.aligned, hr.pos, hr.high⟩
  have hfree := poolFree_range hdel hr'
  have hmin : min size size = size := ite_self _
  unfold dmaUnmapPhys
  rw [if_neg hguard, hb]
  simp only [hmin]
  split
  · simp only [copyPoolToPhys, hfree, hr'.vaddr]
    rfl
  · simp only [hfree]
    rfl

/-- A sync for the device does nothing, or copies in as much of the recorded
buffer as asked for. -/
theorem dmaSyncSingleForDevice_cases (k : Kernel) (env : Env) (h size : UInt64) (dir : DmaDir) :
    dmaSyncSingleForDevice k env h size dir = k ∨
    ∃ b, bounceFind k.pool h = some b ∧
      dmaSyncSingleForDevice k env h size dir = copyPhysToPool k h b.phys (min size b.size) := by
  unfold dmaSyncSingleForDevice
  split
  · exact .inl rfl
  cases hb : bounceFind k.pool h with
  | none => exact .inl rfl
  | some b =>
    dsimp only
    split
    · exact .inr ⟨b, rfl, rfl⟩
    · exact .inl rfl

/-- The same for the CPU, with the copy going out. -/
theorem dmaSyncSingleForCpu_cases (k : Kernel) (env : Env) (h size : UInt64) (dir : DmaDir) :
    dmaSyncSingleForCpu k env h size dir = k ∨
    ∃ b, bounceFind k.pool h = some b ∧
      dmaSyncSingleForCpu k env h size dir = copyPoolToPhys k h b.phys (min size b.size) := by
  unfold dmaSyncSingleForCpu
  split
  · exact .inl rfl
  cases hb : bounceFind k.pool h with
  | none => exact .inl rfl
  | some b =>
    dsimp only
    split
    · exact .inr ⟨b, rfl, rfl⟩
    · exact .inl rfl

/-- Neither sync touches the pool's books. -/
theorem dmaSyncSingleForDevice_pool (k : Kernel) (env : Env) (h size : UInt64) (dir : DmaDir) :
    ∃ m, dmaSyncSingleForDevice k env h size dir = { k with mem := m } := by
  rcases dmaSyncSingleForDevice_cases k env h size dir with e | ⟨b, -, e⟩
  · exact ⟨k.mem, e⟩
  · exact ⟨_, e⟩

theorem dmaSyncSingleForCpu_pool (k : Kernel) (env : Env) (h size : UInt64) (dir : DmaDir) :
    ∃ m, dmaSyncSingleForCpu k env h size dir = { k with mem := m } := by
  rcases dmaSyncSingleForCpu_cases k env h size dir with e | ⟨b, -, e⟩
  · exact ⟨k.mem, e⟩
  · exact ⟨_, e⟩

/-! ## The aperture stays where it is -/

/-- Two states of one pool. -/
structure SameAperture (p p' : AxiMmioPool) : Prop where
  base : p'.dmaBase = p.dmaBase
  size : p'.dmaSize = p.dmaSize
  pages : p'.dmaPages = p.dmaPages

theorem SameAperture.refl (p : AxiMmioPool) : SameAperture p p := ⟨rfl, rfl, rfl⟩

theorem SameAperture.trans {p q r : AxiMmioPool} (h₁ : SameAperture p q) (h₂ : SameAperture q r) :
    SameAperture p r :=
  ⟨h₂.base.trans h₁.base, h₂.size.trans h₁.size, h₂.pages.trans h₁.pages⟩

theorem SameAperture.region {p p' : AxiMmioPool} (h : SameAperture p p') :
    apertureRegion p' = apertureRegion p := by
  rw [apertureRegion, h.base, h.size]
  rfl

theorem SameAperture.aperture {p p' : AxiMmioPool} (h : SameAperture p p') (ha : Aperture p) :
    Aperture p' where
  baseAligned := h.base ▸ ha.baseAligned
  sizeAligned := h.size ▸ ha.sizeAligned
  nonempty := h.size ▸ ha.nonempty
  fits := h.base ▸ h.size ▸ ha.fits
  pages := by
    rw [h.pages, h.size]
    exact ha.pages

section
variable (find : Bitmap → Nat → Nat → Nat)

theorem poolFree_same (p : AxiMmioPool) (h n : UInt64) : SameAperture p (poolFree p h n) := by
  unfold poolFree
  dsimp only
  split
  · exact .refl p
  · split
    · exact .refl p
    · exact ⟨rfl, rfl, rfl⟩

variable {find} in
theorem poolAlloc_same {p p' : AxiMmioPool} {size h : UInt64}
    (he : poolAlloc find p size = some (h, p')) : SameAperture p p' := by
  unfold poolAlloc at he
  dsimp only at he
  split at he
  · cases he
  · split at he
    · cases he
    · cases he
      exact ⟨rfl, rfl, rfl⟩

theorem dmaAlloc_same (k : Kernel) (size : UInt64) :
    SameAperture k.pool (dmaAlloc find k size).2.pool := by
  unfold dmaAlloc
  cases hp : poolAlloc find k.pool size with
  | none => exact .refl _
  | some r => exact poolAlloc_same hp

theorem dmaMapPhys_same (k : Kernel) (env : Env) (phys size : UInt64) (dir : DmaDir) :
    SameAperture k.pool (dmaMapPhys find k env phys size dir).2.pool := by
  unfold dmaMapPhys
  split
  · exact .refl _
  split
  · exact .refl _
  split
  · exact .refl _
  cases hp : poolAlloc find k.pool size with
  | none => exact .refl _
  | some r =>
    have hs := poolAlloc_same hp
    dsimp only
    split
    · exact hs.trans (poolFree_same _ _ _)
    · refine hs.trans ?_
      split
      · exact ⟨rfl, rfl, rfl⟩
      · exact ⟨rfl, rfl, rfl⟩

theorem dmaUnmapPhys_same (k : Kernel) (env : Env) (h size : UInt64) (dir : DmaDir) :
    SameAperture k.pool (dmaUnmapPhys k env h size dir).pool := by
  unfold dmaUnmapPhys
  split
  · exact .refl _
  cases bounceFind k.pool h with
  | none => exact .refl _
  | some b =>
    refine .trans ?_ (poolFree_same _ _ _)
    split
    · exact ⟨rfl, rfl, rfl⟩
    · exact ⟨rfl, rfl, rfl⟩

theorem sgRollback_same (p : AxiMmioPool) (l : List Sg) : SameAperture p (sgRollback p l) := by
  induction l generalizing p with
  | nil => exact .refl p
  | cons s l ih => exact (poolFree_same _ _ _).trans (ih _)

theorem mapSgLoop_same (dir : DmaDir) (todo done : List Sg) (k : Kernel) :
    SameAperture k.pool (mapSgLoop find dir done todo k).2.2.pool := by
  induction todo generalizing done k with
  | nil => exact .refl _
  | cons s todo ih =>
    rw [mapSgLoop]
    cases he : poolAlloc find k.pool s.length.toUInt64 with
    | none => exact sgRollback_same _ _
    | some r =>
      refine (poolAlloc_same he).trans ?_
      dsimp only
      split
      · exact ih _ ⟨_, _⟩
      · exact ih _ ⟨_, _⟩

theorem unmapSgEntry_same (k : Kernel) (dir : DmaDir) (s : Sg) :
    SameAperture k.pool (unmapSgEntry k dir s).2.pool := by
  unfold unmapSgEntry
  split
  · exact .refl _
  · refine .trans ?_ (poolFree_same _ _ _)
    split
    · exact .refl _
    · exact .refl _

theorem dmaUnmapSg_same (k : Kernel) (dir : DmaDir) (l : List Sg) :
    SameAperture k.pool (dmaUnmapSg k dir l).2.pool := by
  induction l generalizing k with
  | nil => exact .refl _
  | cons s l ih => exact (unmapSgEntry_same k dir s).trans (ih (unmapSgEntry k dir s).2)

end

end AcsVirt.L2
