import AcsVirt.Core.LTS
import AcsVirt.L2Machine.AxiMmio

/-!
# The pool and its callers

The bookkeeping of the DMA pool is spread out: coherent allocations are known
only to their callers, bounced mappings are also in the bounce list,
scatterlists record theirs in the entries, and a streaming mapping of memory
that is already in the aperture is recorded nowhere. `PoolState` puts the
callers' side next to the kernel's: `live` is the list of mappings they hold.

`CallerOk` is what callers promise. It is not enough: a pass-through mapping
may outlive the coherent allocation it lies in, its address may by then be the
handle of somebody's bounced mapping, and unmapping it takes that mapping's
record and pages (`pass_outlives_allocation`). With the promise that a coherent
allocation is not freed under a live pass-through mapping (`Outlives`), every
reachable state satisfies `PoolInv`.
-/
namespace AcsVirt.L3

open L2

/-- A mapping a caller holds. `pass` is a `map_phys` of memory inside the
aperture, which the pool does not record. -/
inductive Mapping where
  | coherent (dmaHandle size : UInt64)
  | pass (phys size : UInt64)
  | bounced (dmaHandle phys size : UInt64)
  | sgs (entries : List Sg)
  deriving DecidableEq, Repr

/-- What an entry of a mapped scatterlist occupies. -/
def sgRange (s : Sg) : UInt64 × UInt64 := (s.dmaAddress, s.dmaLen.toUInt64)

/-- Ranges the pool allocated for a mapping. -/
def Mapping.ranges : Mapping → List (UInt64 × UInt64)
  | .coherent h n => [(h, n)]
  | .pass _ _ => []
  | .bounced h _ n => [(h, n)]
  | .sgs l => l.map sgRange

/-- Ranges handed to the device. -/
def Mapping.handed : Mapping → List (UInt64 × UInt64)
  | .pass phys n => [(phys, n)]
  | m => m.ranges

/-- The bounce record a mapping should have. -/
def Mapping.record : Mapping → Option AxiMmioBounce
  | .bounced h phys n => some ⟨h, phys, n⟩
  | _ => none

structure PoolState where
  kernel : Kernel
  live : List Mapping

def poolRanges (live : List Mapping) : List (UInt64 × UInt64) := live.flatMap Mapping.ranges

/-! ## Operations -/

inductive PoolOp where
  | alloc (size : UInt64)
  | free (dmaHandle size : UInt64)
  | mapPhys (env : Env) (phys size : UInt64) (dir : DmaDir)
  | unmapPhys (env : Env) (m : Mapping) (dir : DmaDir)
  | mapSg (sgl : List Sg) (dir : DmaDir)
  | unmapSg (sgl : List Sg) (dir : DmaDir)
  | syncForCpu (env : Env) (m : Mapping) (size : UInt64) (dir : DmaDir)
  | syncForDevice (env : Env) (m : Mapping) (size : UInt64) (dir : DmaDir)
  | touch (m : Mem)

/-- The handle and size a caller syncs and releases a mapping with. -/
def Mapping.handle : Mapping → UInt64 × UInt64
  | .coherent h n => (h, n)
  | .pass phys n => (phys, n)
  | .bounced h _ n => (h, n)
  | .sgs _ => (dmaMappingError, 0)

/-- An operation and the callers' bookkeeping for it. `touch` is anything
else that happens to memory. -/
def poolStep (find : Bitmap → Nat → Nat → Nat) (s : PoolState) : PoolOp → PoolState
  | .alloc size =>
    match dmaAlloc find s.kernel size with
    | (some h, k) => ⟨k, .coherent h size :: s.live⟩
    | (none, k) => ⟨k, s.live⟩
  | .free h size => ⟨dmaFree s.kernel size h, s.live.erase (.coherent h size)⟩
  | .mapPhys env phys size dir =>
    match dmaMapPhys find s.kernel env phys size dir with
    | (h, k) =>
      if h = dmaMappingError then ⟨k, s.live⟩
      else if inAperture s.kernel.pool phys size then ⟨k, .pass phys size :: s.live⟩
      else ⟨k, .bounced h phys size :: s.live⟩
  | .unmapPhys env m dir =>
    ⟨dmaUnmapPhys s.kernel env m.handle.1 m.handle.2 dir, s.live.erase m⟩
  | .mapSg sgl dir =>
    match dmaMapSg find s.kernel sgl dir with
    | (true, sgl, k) => ⟨k, .sgs sgl :: s.live⟩
    | (false, _, k) => ⟨k, s.live⟩
  | .unmapSg sgl dir => ⟨(dmaUnmapSg s.kernel dir sgl).2, s.live.erase (.sgs sgl)⟩
  | .syncForCpu env m size dir => ⟨dmaSyncSingleForCpu s.kernel env m.handle.1 size dir, s.live⟩
  | .syncForDevice env m size dir => ⟨dmaSyncSingleForDevice s.kernel env m.handle.1 size dir, s.live⟩
  | .touch m => ⟨{ s.kernel with mem := m }, s.live⟩

/-- The byte range `[phys, phys + n)` lies in `[h, h + size)`. -/
def Within (phys n h size : UInt64) : Prop :=
  h.toNat ≤ phys.toNat ∧ phys.toNat + n.toNat ≤ h.toNat + size.toNat

instance (phys n h size : UInt64) : Decidable (Within phys n h size) :=
  inferInstanceAs (Decidable (_ ∧ _))

/-- What callers promise: they sync and release what they hold, and map memory
inside the aperture only if it is in a coherent allocation that is live. -/
def CallerOk (s : PoolState) : PoolOp → Prop
  | .free h size => .coherent h size ∈ s.live
  | .mapPhys _ phys size _ => size ≠ 0 → inAperture s.kernel.pool phys size = true →
      ∃ h n, .coherent h n ∈ s.live ∧ Within phys size h n
  | .unmapPhys _ m _ => m ∈ s.live ∧ ((∃ phys n, m = .pass phys n) ∨ ∃ h phys n, m = .bounced h phys n)
  | .unmapSg sgl _ => .sgs sgl ∈ s.live
  | .syncForCpu _ m _ _ => m ∈ s.live
  | .syncForDevice _ m _ _ => m ∈ s.live
  | _ => True

/-- A coherent allocation is not freed while a pass-through mapping inside
it is live. -/
def Outlives (s : PoolState) : PoolOp → Prop
  | .free h size => ∀ phys n, .pass phys n ∈ s.live → ¬Within phys n h size
  | _ => True

/-- Runs of operations that all meet `guard`, on the pool of a probed device. -/
def poolLts (find : Bitmap → Nat → Nat → Nat) (guard : PoolState → PoolOp → Prop) :
    LTS PoolState PoolOp where
  init s := s.live = [] ∧ ∃ start stop, start ≤ stop ∧ axiMmioProbe start stop = some s.kernel.pool
  step s op s' := guard s op ∧ s' = poolStep find s op

/-- No operation moves the aperture. -/
theorem poolStep_same (find : Bitmap → Nat → Nat → Nat) (s : PoolState) (op : PoolOp) :
    SameAperture s.kernel.pool (poolStep find s op).kernel.pool := by
  cases op with
  | alloc size =>
    have h := dmaAlloc_same find s.kernel size
    simp only [poolStep]
    split
    · rename_i e
      rwa [e] at h
    · rename_i e
      rwa [e] at h
  | free h size => exact poolFree_same _ _ _
  | mapPhys env phys size dir =>
    have h := dmaMapPhys_same find s.kernel env phys size dir
    simp only [poolStep]
    split
    · exact h
    · split
      · exact h
      · exact h
  | unmapPhys env m dir => exact dmaUnmapPhys_same _ _ _ _ _
  | mapSg sgl dir =>
    have h : SameAperture s.kernel.pool (dmaMapSg find s.kernel sgl dir).2.2.pool :=
      mapSgLoop_same find dir sgl [] s.kernel
    simp only [poolStep]
    split
    · rename_i e
      rwa [e] at h
    · rename_i e
      rwa [e] at h
  | unmapSg sgl dir => exact dmaUnmapSg_same _ _ _
  | syncForCpu env m size dir =>
    simp only [poolStep]
    obtain ⟨mem, e⟩ := dmaSyncSingleForCpu_pool s.kernel env m.handle.1 size dir
    rw [e]
    exact .refl _
  | syncForDevice env m size dir =>
    simp only [poolStep]
    obtain ⟨mem, e⟩ := dmaSyncSingleForDevice_pool s.kernel env m.handle.1 size dir
    rw [e]
    exact .refl _
  | touch m => exact .refl _

theorem aperture_inductive (find : Bitmap → Nat → Nat → Nat) (guard : PoolState → PoolOp → Prop) :
    (poolLts find guard).Inductive fun s => Aperture s.kernel.pool where
  init := by
    intro s h
    obtain ⟨-, start, stop, hle, hp⟩ := h
    exact axiMmioProbe_aperture hle hp
  step := by
    intro s op s' ha h
    obtain ⟨-, rfl⟩ := h
    exact (poolStep_same find s op).aperture ha

/-! ## The invariant -/

/-- The page spans of some ranges. -/
def spans (p : AxiMmioPool) (rs : List (UInt64 × UInt64)) : List Region :=
  rs.map fun r => pageSpan p.dmaBase r.1 r.2

theorem spans_perm {p : AxiMmioPool} {rs rs' : List (UInt64 × UInt64)} (h : rs.Perm rs') :
    (spans p rs).Perm (spans p rs') :=
  h.map _

structure PoolInv (s : PoolState) : Prop where
  aperture : Aperture s.kernel.pool
  ranges : ∀ r ∈ poolRanges s.live, PoolRange s.kernel.pool r.1 r.2
  owns : Owns s.kernel.pool.dmaBitmap (spans s.kernel.pool (poolRanges s.live))
  bounces : s.kernel.pool.bounces.Perm (s.live.filterMap Mapping.record)
  passes : ∀ phys n, .pass phys n ∈ s.live → 0 < n.toNat ∧
    ∃ h size, .coherent h size ∈ s.live ∧ Within phys n h size

/-! ## Taking and giving back ranges -/

section
variable {find : Bitmap → Nat → Nat → Nat} {p p' : AxiMmioPool}

theorem owns_alloc (hf : ZeroArea find) (ha : Aperture p) {size h : UInt64}
    (he : poolAlloc find p size = some (h, p')) {rs : List (UInt64 × UInt64)}
    (ho : Owns p.dmaBitmap (spans p rs)) :
    PoolRange p h size ∧ ∃ bits, p' = p.withBits bits ∧ Owns bits (spans p ((h, size) :: rs)) := by
  obtain ⟨hr, hp, hfree⟩ := poolAlloc_some hf ha he
  exact ⟨hr, _, hp, ho.take hfree⟩

/-- Freeing ranges one after the other. -/
def freeRanges (p : AxiMmioPool) (rs : List (UInt64 × UInt64)) : AxiMmioPool :=
  rs.foldl (fun p r => poolFree p r.1 r.2) p

theorem owns_free (ha : Aperture p) (rs rest : List (UInt64 × UInt64))
    (hr : ∀ r ∈ rs, PoolRange p r.1 r.2) (ho : Owns p.dmaBitmap (spans p (rs ++ rest))) :
    ∃ bits, freeRanges p rs = p.withBits bits ∧ Owns bits (spans p rest) := by
  induction rs generalizing p with
  | nil => exact ⟨p.dmaBitmap, rfl, ho⟩
  | cons r rs ih =>
    have hfree := poolFree_range ha (hr r List.mem_cons_self)
    obtain ⟨bits, hb, hown⟩ := ih (ha.withBits _)
      (fun r' h' => (hr r' (List.mem_cons_of_mem _ h')).withBits _) ho.drop
    refine ⟨bits, ?_, hown⟩
    rw [freeRanges, List.foldl_cons, hfree]
    exact hb

theorem sgRollback_eq (p : AxiMmioPool) (l : List Sg) :
    sgRollback p l = freeRanges p (l.map sgRange) := by
  induction l generalizing p with
  | nil => rfl
  | cons s l ih => exact ih _

/-- The mapping loop allocates for every entry, or for none. -/
theorem mapSgLoop_owns (hf : ZeroArea find) (dir : DmaDir) (rs : List (UInt64 × UInt64))
    (todo done : List Sg) (k : Kernel) (ha : Aperture k.pool)
    (hdone : ∀ s ∈ done, PoolRange k.pool (sgRange s).1 (sgRange s).2)
    (ho : Owns k.pool.dmaBitmap (spans k.pool (done.map sgRange ++ rs))) {mapped : Bool}
    {sgl : List Sg} {k' : Kernel} (hm : mapSgLoop find dir done todo k = (mapped, sgl, k')) :
    ∃ bits, k'.pool = k.pool.withBits bits ∧
      (mapped = true → (∀ s ∈ sgl, PoolRange k.pool (sgRange s).1 (sgRange s).2) ∧
        Owns bits (spans k.pool (sgl.map sgRange ++ rs))) ∧
      (mapped = false → Owns bits (spans k.pool rs)) := by
  induction todo generalizing done k with
  | nil =>
    simp only [mapSgLoop, Prod.mk.injEq] at hm
    obtain ⟨rfl, rfl, rfl⟩ := hm
    exact ⟨k.pool.dmaBitmap, rfl, fun _ => ⟨hdone, ho⟩, fun h => by cases h⟩
  | cons s todo ih =>
    cases he : poolAlloc find k.pool s.length.toUInt64 with
    | none =>
      simp only [mapSgLoop, he, Prod.mk.injEq] at hm
      obtain ⟨rfl, rfl, rfl⟩ := hm
      obtain ⟨bits, hb, hown⟩ := owns_free ha (done.map sgRange) rs
        (by
          intro r hr
          obtain ⟨s, hs, rfl⟩ := List.mem_map.1 hr
          exact hdone s hs) ho
      refine ⟨bits, ?_, fun h => (by cases h), fun _ => hown⟩
      rw [sgRollback_eq]
      exact hb
    | some r =>
      obtain ⟨addr, p'⟩ := r
      obtain ⟨hrange, bits, rfl, hown⟩ := owns_alloc hf ha he ho
      simp only [mapSgLoop, he] at hm
      generalize hs' : ({ s with dmaAddress := addr, dmaLen := s.length } : Sg) = s' at hm
      have hrange' : PoolRange k.pool (sgRange s').1 (sgRange s').2 := by
        rw [← hs']
        exact hrange
      have hperm : (spans k.pool ((addr, s.length.toUInt64) :: (done.map sgRange ++ rs))).Perm
          (spans k.pool ((done ++ [s']).map sgRange ++ rs)) := by
        apply List.Perm.map
        rw [List.map_append, List.append_assoc, ← hs']
        exact List.perm_middle.symm
      have hdone' : ∀ e ∈ done ++ [s'], PoolRange (k.pool.withBits bits) (sgRange e).1 (sgRange e).2 := by
        intro e he
        rcases List.mem_append.1 he with he | he
        · exact (hdone e he).withBits bits
        · rw [List.mem_singleton.1 he]
          exact hrange'.withBits bits
      -- copying in changes memory, not the pool
      have hk : ∃ m, mapSgLoop find dir (done ++ [s']) todo ⟨k.pool.withBits bits, m⟩ = (mapped, sgl, k') := by
        split at hm
        · exact ⟨_, hm⟩
        · exact ⟨_, hm⟩
      obtain ⟨m, hk⟩ := hk
      obtain ⟨bits', hb', h1, h2⟩ := ih (done ++ [s']) ⟨k.pool.withBits bits, m⟩ (ha.withBits bits) hdone'
        (hown.perm hperm) hk
      refine ⟨bits', hb', fun h => ⟨fun e he => ?_, (h1 h).2⟩, h2⟩
      have := (h1 h).1 e he
      exact ⟨this.low, this.aligned, this.pos, this.high⟩

/-- The unmapping loop frees every entry of a mapped list. -/
theorem dmaUnmapSg_pool (k : Kernel) (dir : DmaDir) (l : List Sg) (ha : Aperture k.pool)
    (rest : List (UInt64 × UInt64)) (hr : ∀ s ∈ l, PoolRange k.pool (sgRange s).1 (sgRange s).2)
    (ho : Owns k.pool.dmaBitmap (spans k.pool (l.map sgRange ++ rest))) :
    ∃ bits, (dmaUnmapSg k dir l).2.pool = k.pool.withBits bits ∧ Owns bits (spans k.pool rest) := by
  induction l generalizing k with
  | nil => exact ⟨k.pool.dmaBitmap, rfl, ho⟩
  | cons s l ih =>
    have hs := hr s List.mem_cons_self
    have hne : ¬(s.dmaAddress = dmaMappingError ∨ s.dmaLen = 0) := by
      intro h
      rcases h with h | h
      · have ha := hs.aligned
        simp only [sgRange, h] at ha
        exact absurd ha (by decide)
      · have hp := hs.pos
        simp only [sgRange, h] at hp
        exact absurd hp (by decide)
    obtain ⟨m, hstep⟩ : ∃ m, unmapSgEntry k dir s = (s.unmapped, ⟨k.pool.withBits
        (k.pool.dmaBitmap.clear (pageSpan k.pool.dmaBase (sgRange s).1 (sgRange s).2)), m⟩) := by
      unfold unmapSgEntry
      rw [if_neg hne]
      dsimp only
      split
      · exact ⟨_, by rw [← poolFree_range ha hs]; rfl⟩
      · exact ⟨_, by rw [← poolFree_range ha hs]; rfl⟩
    obtain ⟨bits, hb, hown⟩ := ih ⟨k.pool.withBits
        (k.pool.dmaBitmap.clear (pageSpan k.pool.dmaBase (sgRange s).1 (sgRange s).2)), m⟩
      (ha.withBits _) (fun e he => (hr e (List.mem_cons_of_mem _ he)).withBits _) ho.drop
    refine ⟨bits, ?_, hown⟩
    rw [dmaUnmapSg, hstep]
    exact hb

end

/-! ## Live mappings share nothing -/

theorem poolRanges_erase {live : List Mapping} {m : Mapping} (h : m ∈ live) :
    (poolRanges live).Perm (m.ranges ++ poolRanges (live.erase m)) :=
  (List.perm_cons_erase h).flatMap_right Mapping.ranges

theorem records_erase {live : List Mapping} {m : Mapping} (h : m ∈ live) :
    (live.filterMap Mapping.record).Perm
      ((m :: live.erase m).filterMap Mapping.record) :=
  (List.perm_cons_erase h).filterMap Mapping.record

section
variable {s : PoolState} {find : Bitmap → Nat → Nat → Nat}

theorem PoolInv.range_of_mem (hi : PoolInv s) {m : Mapping} (hm : m ∈ s.live) {r : UInt64 × UInt64}
    (hr : r ∈ m.ranges) : PoolRange s.kernel.pool r.1 r.2 :=
  hi.ranges r (List.mem_flatMap.2 ⟨m, hm, hr⟩)

/-- The address `x` is in a page of the range `r`. -/
def OnPages (r : UInt64 × UInt64) (x : Nat) : Prop :=
  r.1.toNat ≤ x ∧ x < r.1.toNat + 4096 * pagesOf r.2

/-- A live mapping shares no page with the others. -/
theorem PoolInv.apart_of_erase (hi : PoolInv s) {m m' : Mapping} (hm : m ∈ s.live)
    (hm' : m' ∈ s.live.erase m) {r r' : UInt64 × UInt64} (hr : r ∈ m.ranges) (hr' : r' ∈ m'.ranges)
    {x : Nat} (h1 : OnPages r x) : ¬OnPages r' x := by
  intro h2
  have hown := hi.owns.perm (spans_perm (poolRanges_erase hm))
  rw [spans, List.map_append] at hown
  have hap := (List.pairwise_append.1 hown.apart).2.2 _ (List.mem_map_of_mem hr) _
    (List.mem_map_of_mem (List.mem_flatMap.2 ⟨m', hm', hr'⟩))
  exact absurd ((hi.range_of_mem (List.mem_of_mem_erase hm') hr').page_mem hi.aperture h2.1 h2.2)
    (hap _ ((hi.range_of_mem hm hr).page_mem hi.aperture h1.1 h1.2))

/-- Two ranges with an address in common come from one mapping. -/
theorem PoolInv.eq_of_common (hi : PoolInv s) {m m' : Mapping} (hm : m ∈ s.live) (hm' : m' ∈ s.live)
    (r r' : UInt64 × UInt64) (hr : r ∈ m.ranges) (hr' : r' ∈ m'.ranges) {x : Nat} (h1 : OnPages r x)
    (h2 : OnPages r' x) : m = m' := by
  by_cases hne : m' = m
  · exact hne.symm
  · exact absurd h2 (hi.apart_of_erase hm ((List.mem_erase_of_ne hne).2 hm') hr hr' h1)

/-- What a mapping hands out lies in ranges of its own or, passed through, in
those of a coherent allocation. -/
theorem PoolInv.cover (hi : PoolInv s) {m : Mapping} (hm : m ∈ s.live) {r : UInt64 × UInt64}
    (hr : r ∈ m.handed) :
    ∃ c ∈ s.live, ∃ q ∈ c.ranges, (c = m ∨ ∃ h n, c = .coherent h n) ∧ q.1.toNat ≤ r.1.toNat ∧
      r.1.toNat + r.2.toNat ≤ q.1.toNat + 4096 * pagesOf q.2 := by
  have hsl := size_le_pages r.2
  cases m with
  | pass phys n =>
    cases List.mem_singleton.1 hr
    obtain ⟨-, h, size, hc, h1, h2⟩ := hi.passes phys n hm
    have hsl' := size_le_pages size
    exact ⟨_, hc, (h, size), List.mem_cons_self, .inr ⟨h, size, rfl⟩, h1, by dsimp only; omega⟩
  | coherent h n => exact ⟨_, hm, r, hr, .inl rfl, Nat.le_refl _, by omega⟩
  | bounced h phys n => exact ⟨_, hm, r, hr, .inl rfl, Nat.le_refl _, by omega⟩
  | sgs l => exact ⟨_, hm, r, hr, .inl rfl, Nat.le_refl _, by omega⟩

theorem PoolInv.bounced_of_record (hi : PoolInv s) {b : AxiMmioBounce}
    (hb : b ∈ s.kernel.pool.bounces) :
    .bounced b.dmaHandle b.phys b.size ∈ s.live := by
  obtain ⟨m, hm, hrec⟩ := List.mem_filterMap.1 (hi.bounces.mem_iff.1 hb)
  cases m with
  | bounced h phys n =>
    simp only [Mapping.record, Option.some.injEq] at hrec
    subst hrec
    exact hm
  | _ => cases hrec

/-- The record of a handle is the record of its mapping. -/
theorem PoolInv.record_unique (hi : PoolInv s) {h phys n : UInt64} (hm : .bounced h phys n ∈ s.live)
    {b : AxiMmioBounce} (hb : b ∈ s.kernel.pool.bounces) (he : b.dmaHandle = h) :
    b = ⟨h, phys, n⟩ := by
  have hm' := hi.bounced_of_record hb
  have hr : PoolRange s.kernel.pool h n := hi.range_of_mem hm (r := (h, n)) List.mem_cons_self
  have hr' : PoolRange s.kernel.pool b.dmaHandle b.size :=
    hi.range_of_mem hm' (r := (b.dmaHandle, b.size)) List.mem_cons_self
  have heq := hi.eq_of_common hm hm' (h, n) (b.dmaHandle, b.size) List.mem_cons_self
    List.mem_cons_self hr.first (he ▸ hr'.first)
  simp only [Mapping.bounced.injEq] at heq
  obtain ⟨h1, h2, h3⟩ := heq
  rw [h1, h2, h3]

/-- No record has the address of a live pass-through mapping. -/
theorem PoolInv.no_record_of_pass (hi : PoolInv s) {phys n : UInt64} (hm : .pass phys n ∈ s.live)
    {b : AxiMmioBounce} (hb : b ∈ s.kernel.pool.bounces) : b.dmaHandle ≠ phys := by
  intro he
  obtain ⟨hpos, h, size, hc, hw⟩ := hi.passes phys n hm
  have hm' := hi.bounced_of_record hb
  have hr' : PoolRange s.kernel.pool b.dmaHandle b.size :=
    hi.range_of_mem hm' (r := (b.dmaHandle, b.size)) List.mem_cons_self
  have hsz := size_le_pages size
  have hin : h.toNat ≤ phys.toNat ∧ phys.toNat < h.toNat + 4096 * pagesOf size := by
    obtain ⟨h1, h2⟩ := hw
    omega
  have heq := hi.eq_of_common hc hm' (h, size) (b.dmaHandle, b.size) List.mem_cons_self
    List.mem_cons_self hin (he ▸ hr'.first)
  cases heq

theorem PoolInv.bounceFind_pass (hi : PoolInv s) {phys n : UInt64} (hm : .pass phys n ∈ s.live) :
    bounceFind s.kernel.pool phys = none := by
  rw [bounceFind, List.find?_eq_none]
  intro b hb
  simpa using hi.no_record_of_pass hm hb

theorem PoolInv.bounceFind_bounced (hi : PoolInv s) {h phys n : UInt64}
    (hm : .bounced h phys n ∈ s.live) :
    bounceFind s.kernel.pool h = some ⟨h, phys, n⟩ := by
  have hmem : (⟨h, phys, n⟩ : AxiMmioBounce) ∈ s.kernel.pool.bounces :=
    hi.bounces.mem_iff.2 (List.mem_filterMap.2 ⟨_, hm, rfl⟩)
  cases hf : bounceFind s.kernel.pool h with
  | none =>
    have := List.find?_eq_none.1 hf _ hmem
    simp at this
  | some b =>
    have he : b.dmaHandle = h := by simpa using List.find?_some hf
    rw [hi.record_unique hm (List.mem_of_find?_eq_some hf) he]

/-- Deleting the record of a bounced mapping leaves the others'. -/
theorem PoolInv.bounceDel_perm (hi : PoolInv s) {h phys n : UInt64}
    (hm : .bounced h phys n ∈ s.live) :
    (bounceDel s.kernel.pool h).bounces.Perm
      ((s.live.erase (.bounced h phys n)).filterMap Mapping.record) := by
  have hmem : (⟨h, phys, n⟩ : AxiMmioBounce) ∈ s.kernel.pool.bounces :=
    hi.bounces.mem_iff.2 (List.mem_filterMap.2 ⟨_, hm, rfl⟩)
  obtain ⟨b, l₁, l₂, -, hb, heq, hdel⟩ := List.exists_of_eraseP
    (p := fun b : AxiMmioBounce => b.dmaHandle == h) hmem (by simp)
  have hbm : b ∈ s.kernel.pool.bounces := by rw [heq]; simp
  have hb' := hi.record_unique hm hbm (by simpa using hb)
  have hperm : (b :: (l₁ ++ l₂)).Perm
      (⟨h, phys, n⟩ :: (s.live.erase (.bounced h phys n)).filterMap Mapping.record) := by
    refine List.perm_middle.symm.trans ?_
    rw [← heq]
    exact hi.bounces.trans (records_erase hm)
  rw [hb'] at hperm
  have hdel' : (bounceDel s.kernel.pool h).bounces = l₁ ++ l₂ := hdel
  rw [hdel']
  exact hperm.cons_inv

/-! ## Steps keep the invariant -/

/-- A mapping that takes ranges of its own. -/
theorem PoolInv.add (hi : PoolInv s) {m : Mapping} (hpass : ∀ phys n, m ≠ .pass phys n)
    (hr : ∀ r ∈ m.ranges, PoolRange s.kernel.pool r.1 r.2) {bits : Bitmap}
    (ho : Owns bits (spans s.kernel.pool (m.ranges ++ poolRanges s.live))) (mem : Mem) :
    PoolInv ⟨⟨{ s.kernel.pool with dmaBitmap := bits,
                                   bounces := m.record.toList ++ s.kernel.pool.bounces }, mem⟩,
      m :: s.live⟩ where
  aperture := ⟨hi.aperture.baseAligned, hi.aperture.sizeAligned, hi.aperture.nonempty,
    hi.aperture.fits, hi.aperture.pages⟩
  ranges := by
    intro r hm
    have hr' : PoolRange s.kernel.pool r.1 r.2 := by
      rcases List.mem_append.1 hm with hm | hm
      · exact hr r hm
      · exact hi.ranges r hm
    exact ⟨hr'.low, hr'.aligned, hr'.pos, hr'.high⟩
  owns := ho
  bounces := by
    cases hrec : m.record with
    | none => simpa [hrec] using hi.bounces
    | some b => simpa [hrec] using hi.bounces
  passes := by
    intro phys n hm
    rcases List.mem_cons.1 hm with hm | hm
    · exact absurd hm.symm (hpass phys n)
    · obtain ⟨hpos, h, size, hc, hw⟩ := hi.passes phys n hm
      exact ⟨hpos, h, size, List.mem_cons_of_mem _ hc, hw⟩

/-- A mapping that gives its ranges back. -/
theorem PoolInv.remove (hi : PoolInv s) {m : Mapping} (hm : m ∈ s.live) {bits : Bitmap}
    (ho : Owns bits (spans s.kernel.pool (poolRanges (s.live.erase m))))
    {bounces : List AxiMmioBounce} (hb : bounces.Perm ((s.live.erase m).filterMap Mapping.record))
    (hp : ∀ h size, m = .coherent h size → ∀ phys n, .pass phys n ∈ s.live → ¬Within phys n h size)
    (mem : Mem) :
    PoolInv ⟨⟨{ s.kernel.pool with dmaBitmap := bits, bounces := bounces }, mem⟩, s.live.erase m⟩ where
  aperture := ⟨hi.aperture.baseAligned, hi.aperture.sizeAligned, hi.aperture.nonempty,
    hi.aperture.fits, hi.aperture.pages⟩
  ranges := by
    intro r hr
    have hr' := hi.ranges r ((poolRanges_erase hm).mem_iff.2 (List.mem_append_right _ hr))
    exact ⟨hr'.low, hr'.aligned, hr'.pos, hr'.high⟩
  owns := ho
  bounces := hb
  passes := by
    intro phys n hpass
    have hpass' := List.mem_of_mem_erase hpass
    obtain ⟨hpos, h, size, hc, hw⟩ := hi.passes phys n hpass'
    -- the allocation it lies in is not the one that goes
    have hne : Mapping.coherent h size ≠ m := fun e => hp h size e.symm phys n hpass' hw
    exact ⟨hpos, h, size, (List.mem_erase_of_ne hne).2 hc, hw⟩

theorem PoolInv.withMem (hi : PoolInv s) (mem : Mem) : PoolInv ⟨⟨s.kernel.pool, mem⟩, s.live⟩ :=
  ⟨hi.aperture, hi.ranges, hi.owns, hi.bounces, hi.passes⟩

/-- The pages of one live mapping, then those of the others. -/
theorem PoolInv.owns_erase (hi : PoolInv s) {m : Mapping} (hm : m ∈ s.live) :
    Owns s.kernel.pool.dmaBitmap (spans s.kernel.pool (m.ranges ++ poolRanges (s.live.erase m))) :=
  hi.owns.perm (spans_perm (poolRanges_erase hm))

theorem PoolInv.records_of_none (hi : PoolInv s) {m : Mapping} (hm : m ∈ s.live)
    (hrec : m.record = none) :
    s.kernel.pool.bounces.Perm ((s.live.erase m).filterMap Mapping.record) := by
  have := hi.bounces.trans (records_erase hm)
  rwa [List.filterMap_cons_none hrec] at this

/-- A pass-through mapping takes nothing. -/
theorem PoolInv.addPass (hi : PoolInv s) {phys size h n : UInt64} (hsize : size ≠ 0)
    (hc : .coherent h n ∈ s.live) (hw : Within phys size h n) :
    PoolInv ⟨s.kernel, .pass phys size :: s.live⟩ where
  aperture := hi.aperture
  ranges := hi.ranges
  owns := hi.owns
  bounces := hi.bounces
  passes := by
    intro phys' n' hm
    rcases List.mem_cons.1 hm with hm | hm
    · cases hm
      have hpos : 0 < size.toNat := Nat.pos_of_ne_zero fun e => hsize (UInt64.toNat_inj.mp e)
      exact ⟨hpos, h, n, List.mem_cons_of_mem _ hc, hw⟩
    · obtain ⟨hpos, h, size, hc, hw⟩ := hi.passes phys' n' hm
      exact ⟨hpos, h, size, List.mem_cons_of_mem _ hc, hw⟩

theorem PoolInv.alloc (hf : ZeroArea find) (hi : PoolInv s) (size : UInt64) :
    PoolInv (poolStep find s (.alloc size)) := by
  simp only [poolStep, dmaAlloc]
  cases hp : poolAlloc find s.kernel.pool size with
  | none => exact hi
  | some r =>
    obtain ⟨h, p⟩ := r
    obtain ⟨hr, bits, rfl, ho⟩ := owns_alloc hf hi.aperture hp hi.owns
    refine hi.add (m := .coherent h size) (fun _ _ => nofun) (fun r hm => ?_) ho _
    rw [List.mem_singleton.1 hm]
    exact hr

theorem PoolInv.free (hi : PoolInv s) {h size : UInt64} (hm : .coherent h size ∈ s.live)
    (hout : ∀ phys n, .pass phys n ∈ s.live → ¬Within phys n h size) :
    PoolInv (poolStep find s (.free h size)) := by
  have hr : PoolRange s.kernel.pool h size := hi.range_of_mem hm (r := (h, size)) List.mem_cons_self
  simp only [poolStep, dmaFree, poolFree_range hi.aperture hr]
  refine hi.remove hm (hi.owns_erase hm).drop (hi.records_of_none hm rfl) ?_ _
  intro h' size' e
  cases e
  exact hout

/-- What a mapping does to the books: nothing, or one more mapping that is
passed through or bounced. -/
theorem poolStep_mapPhys (hf : ZeroArea find) (ha : Aperture s.kernel.pool) (env : Env)
    (phys size : UInt64) (dir : DmaDir) :
    poolStep find s (.mapPhys env phys size dir) = s ∨
    (size ≠ 0 ∧ inAperture s.kernel.pool phys size = true ∧
      poolStep find s (.mapPhys env phys size dir) = ⟨s.kernel, .pass phys size :: s.live⟩) ∨
    ∃ h, inAperture s.kernel.pool phys size = false ∧ PoolRange s.kernel.pool h size ∧
      (∀ i ∈ pageSpan s.kernel.pool.dmaBase h size, s.kernel.pool.dmaBitmap i = false) ∧
      poolStep find s (.mapPhys env phys size dir) =
        ⟨⟨{ s.kernel.pool with dmaBitmap := s.kernel.pool.dmaBitmap.set (pageSpan s.kernel.pool.dmaBase h size),
                               bounces := ⟨h, phys, size⟩ :: s.kernel.pool.bounces },
          if dir ≠ .fromDevice then copyBytes s.kernel.mem h.toNat phys.toNat size.toNat else s.kernel.mem⟩,
          .bounced h phys size :: s.live⟩ := by
  simp only [poolStep]
  cases hmap : dmaMapPhys find s.kernel env phys size dir with
  | mk h k =>
    dsimp only
    rcases dmaMapPhys_cases hf ha hmap with hc | hc | hc
    · obtain ⟨rfl, rfl⟩ := hc
      exact .inl rfl
    · obtain ⟨hsize, hin, rfl, rfl⟩ := hc
      rw [if_pos hin]
      split
      · exact .inl rfl
      · exact .inr (.inl ⟨hsize, hin, rfl⟩)
    · obtain ⟨-, hin, hr, hfree, rfl⟩ := hc
      rw [if_neg hr.handle_ne_error, hin]
      exact .inr (.inr ⟨h, rfl, hr, hfree, rfl⟩)

theorem PoolInv.mapPhys (hf : ZeroArea find) (hi : PoolInv s) (env : Env) {phys size : UInt64}
    (dir : DmaDir) (hok : CallerOk s (.mapPhys env phys size dir)) :
    PoolInv (poolStep find s (.mapPhys env phys size dir)) := by
  rcases poolStep_mapPhys hf hi.aperture env phys size dir with he | ⟨hsize, hin, he⟩ | ⟨h, -, hr, hfree, he⟩
  · rw [he]
    exact hi
  · obtain ⟨h', n, hm, hw⟩ := hok hsize hin
    rw [he]
    exact hi.addPass hsize hm hw
  · rw [he]
    refine hi.add (m := .bounced h phys size) (fun _ _ => nofun) (fun r hm => ?_) (hi.owns.take hfree) _
    rw [List.mem_singleton.1 hm]
    exact hr

theorem PoolInv.unmapPhys (hi : PoolInv s) (env : Env) {m : Mapping} (dir : DmaDir)
    (hok : CallerOk s (.unmapPhys env m dir)) :
    PoolInv (poolStep find s (.unmapPhys env m dir)) := by
  obtain ⟨hm, hkind⟩ := hok
  rcases hkind with hkind | hkind
  · obtain ⟨phys, n, rfl⟩ := hkind
    simp only [poolStep, Mapping.handle, dmaUnmapPhys_none (hi.bounceFind_pass hm)]
    exact hi.remove hm (hi.owns_erase hm) (hi.records_of_none hm rfl) (fun _ _ => nofun) _
  · obtain ⟨h, phys, n, rfl⟩ := hkind
    have hr : PoolRange s.kernel.pool h n := hi.range_of_mem hm (r := (h, n)) List.mem_cons_self
    simp only [poolStep, Mapping.handle,
      dmaUnmapPhys_bounced hi.aperture hr (hi.bounceFind_bounced hm)]
    exact hi.remove hm (hi.owns_erase hm).drop (hi.bounceDel_perm hm) (fun _ _ => nofun) _

theorem PoolInv.mapSg (hf : ZeroArea find) (hi : PoolInv s) (sgl : List Sg) (dir : DmaDir) :
    PoolInv (poolStep find s (.mapSg sgl dir)) := by
  simp only [poolStep]
  rcases hmap : dmaMapSg find s.kernel sgl dir with ⟨mapped, sgl', k⟩
  obtain ⟨bits, hk, h1, h2⟩ := mapSgLoop_owns hf dir (poolRanges s.live) sgl [] s.kernel hi.aperture
    (by simp) hi.owns hmap
  obtain ⟨p, mem⟩ := k
  cases hk
  cases mapped with
  | true =>
    obtain ⟨hr, ho⟩ := h1 rfl
    refine hi.add (m := .sgs sgl') (fun _ _ => nofun) (fun r hm => ?_) ho mem
    obtain ⟨e, he, rfl⟩ := List.mem_map.1 hm
    exact hr e he
  | false =>
    exact ⟨hi.aperture.withBits bits, fun r hr => (hi.ranges r hr).withBits bits, h2 rfl, hi.bounces,
      hi.passes⟩

theorem PoolInv.unmapSg (hi : PoolInv s) {sgl : List Sg} (dir : DmaDir) (hm : .sgs sgl ∈ s.live) :
    PoolInv (poolStep find s (.unmapSg sgl dir)) := by
  simp only [poolStep]
  have hr : ∀ e ∈ sgl, PoolRange s.kernel.pool (sgRange e).1 (sgRange e).2 := fun e he =>
    hi.range_of_mem hm (List.mem_map_of_mem he)
  obtain ⟨bits, hk, ho⟩ := dmaUnmapSg_pool s.kernel dir sgl hi.aperture _ hr (hi.owns_erase hm)
  generalize (dmaUnmapSg s.kernel dir sgl).2 = k at hk
  obtain ⟨p, mem⟩ := k
  cases hk
  exact hi.remove hm ho (hi.records_of_none hm rfl) (fun _ _ => nofun) mem

/-- Every step of callers that keep both promises keeps the invariant. -/
theorem PoolInv.step (hf : ZeroArea find) (hi : PoolInv s) {op : PoolOp} (hok : CallerOk s op)
    (hout : Outlives s op) : PoolInv (poolStep find s op) := by
  cases op with
  | alloc size => exact hi.alloc hf size
  | free h size => exact hi.free hok hout
  | mapPhys env phys size dir => exact hi.mapPhys hf env dir hok
  | unmapPhys env m dir => exact hi.unmapPhys env dir hok
  | mapSg sgl dir => exact hi.mapSg hf sgl dir
  | unmapSg sgl dir => exact hi.unmapSg dir hok
  | syncForCpu env m size dir =>
    simp only [poolStep]
    obtain ⟨mem, e⟩ := dmaSyncSingleForCpu_pool s.kernel env m.handle.1 size dir
    rw [e]
    exact hi.withMem mem
  | syncForDevice env m size dir =>
    simp only [poolStep]
    obtain ⟨mem, e⟩ := dmaSyncSingleForDevice_pool s.kernel env m.handle.1 size dir
    rw [e]
    exact hi.withMem mem
  | touch m => exact hi.withMem m

theorem poolInv_inductive (hf : ZeroArea find) :
    (poolLts find fun s op => CallerOk s op ∧ Outlives s op).Inductive PoolInv where
  init := by
    intro s h
    obtain ⟨hlive, start, stop, hle, hp⟩ := h
    have hnew : s.kernel.pool.dmaBitmap = .empty ∧ s.kernel.pool.bounces = [] := by
      unfold axiMmioProbe at hp
      dsimp only at hp
      split at hp
      · cases hp
      · rw [← Option.some.inj hp]
        exact ⟨rfl, rfl⟩
    refine ⟨axiMmioProbe_aperture hle hp, ?_, ?_, ?_, ?_⟩
    · simp [hlive, poolRanges]
    · rw [hlive, hnew.1]
      exact owns_nil
    · rw [hlive, hnew.2]
      exact .nil
    · simp [hlive]
  step := by
    intro s op s' hi h
    obtain ⟨⟨hok, hout⟩, rfl⟩ := h
    exact hi.step hf hok hout

theorem PoolInv.handed_inside (hi : PoolInv s) {m : Mapping} (hm : m ∈ s.live) {r : UInt64 × UInt64}
    (hr : r ∈ m.handed) : s.kernel.pool.dmaBase.toNat ≤ r.1.toNat ∧
      r.1.toNat + r.2.toNat ≤ s.kernel.pool.dmaBase.toNat + s.kernel.pool.dmaSize.toNat := by
  obtain ⟨c, hc, q, hq, -, h1, h2⟩ := hi.cover hm hr
  have hlow := (hi.range_of_mem hc hq).low
  have hhigh := (hi.range_of_mem hc hq).high
  omega

end

/-- **The pool's invariant.** After any operations of callers that keep both
promises: what was handed to the device is inside the aperture; the ranges
taken from the pool are page-aligned and share no page; the bitmap marks
exactly their pages; the bounce list is, up to order, the records of the live
bounced mappings; and a pool with nothing live is empty. -/
theorem pool_invariant {find : Bitmap → Nat → Nat → Nat} (hf : ZeroArea find) {s : PoolState}
    (hr : (poolLts find fun s op => CallerOk s op ∧ Outlives s op).Reachable s) :
    (∀ m ∈ s.live, ∀ r ∈ m.handed, s.kernel.pool.dmaBase.toNat ≤ r.1.toNat ∧
      r.1.toNat + r.2.toNat ≤ s.kernel.pool.dmaBase.toNat + s.kernel.pool.dmaSize.toNat) ∧
    (∀ r ∈ poolRanges s.live, r.1.toNat % 4096 = 0) ∧
    ((poolRanges s.live).map fun r => pageSpan s.kernel.pool.dmaBase r.1 r.2).Pairwise Region.Apart ∧
    (∀ i, s.kernel.pool.dmaBitmap i = true ↔
      ∃ r ∈ poolRanges s.live, i ∈ pageSpan s.kernel.pool.dmaBase r.1 r.2) ∧
    s.kernel.pool.bounces.Perm (s.live.filterMap Mapping.record) ∧
    (s.live = [] → s.kernel.pool.dmaBitmap = .empty ∧ s.kernel.pool.bounces = []) := by
  have hi := (poolInv_inductive hf).reachable s hr
  refine ⟨fun m hm r hr => hi.handed_inside hm hr, fun r hr => (hi.ranges r hr).aligned, hi.owns.apart,
    fun i => ?_, hi.bounces, fun hlive => ?_⟩
  · rw [hi.owns.marks i]
    simp only [spans, List.mem_map, exists_exists_and_eq_and]
  · have ho := hi.owns
    have hb := hi.bounces
    rw [hlive] at ho hb
    exact ⟨ho.empty_of_nil, hb.eq_nil⟩

/-- A probed pool of two pages at 0x10000. -/
def twoPages : PoolState := ⟨⟨axiMmioPoolGet 0x10000 0x2000, fun _ => 0⟩, []⟩

theorem twoPages_init (guard : PoolState → PoolOp → Prop) :
    (poolLts firstZeroArea guard).init twoPages :=
  ⟨rfl, 0x10000, 0x11fff, by decide, rfl⟩

def allOk : Env := ⟨true, true⟩

/-- A pass-through mapping, its allocation freed, a bounced mapping of another
buffer, and the pass-through mapping released. -/
def staleUnmap : List PoolOp :=
  [.alloc 4096, .mapPhys allOk 0x10000 16 .fromDevice, .free 0x10000 4096,
    .mapPhys allOk 0x5000 16 .fromDevice, .unmapPhys allOk (.pass 0x10000 16) .fromDevice]

/-- The operations, one after the other. -/
def poolExec (find : Bitmap → Nat → Nat → Nat) (s : PoolState) (ops : List PoolOp) : PoolState :=
  ops.foldl (poolStep find) s

/-- Each operation meets the guard where it is made. -/
def Guarded (find : Bitmap → Nat → Nat → Nat) (guard : PoolState → PoolOp → Prop) :
    PoolState → List PoolOp → Prop
  | _, [] => True
  | s, op :: ops => guard s op ∧ Guarded find guard (poolStep find s op) ops

theorem poolExec_run {find : Bitmap → Nat → Nat → Nat} {guard : PoolState → PoolOp → Prop}
    {s : PoolState} {ops : List PoolOp} (h : Guarded find guard s ops) :
    (poolLts find guard).Run s ops (poolExec find s ops) := by
  induction ops generalizing s with
  | nil => exact .nil s
  | cons op ops ih => exact .cons ⟨h.1, rfl⟩ (ih h.2)

theorem staleUnmap_guarded : Guarded firstZeroArea CallerOk twoPages staleUnmap := by
  refine ⟨trivial, fun _ _ => ⟨0x10000, 4096, ?_, by decide⟩, ?_, fun _ h => absurd h (by decide), ?_, trivial⟩
  · decide
  · show Mapping.coherent 0x10000 4096 ∈ _
    decide
  · exact ⟨by decide, .inl ⟨0x10000, 16, rfl⟩⟩

/-- Callers that only release what they hold can still break the bookkeeping:
after `staleUnmap` a bounced mapping of page 0 is live, its bit is clear and
its record is gone. -/
theorem pass_outlives_allocation :
    ∃ s, (poolLts firstZeroArea CallerOk).Reachable s ∧ s.live = [.bounced 0x10000 0x5000 16] ∧
      s.kernel.pool.dmaBitmap 0 = false ∧ s.kernel.pool.bounces = [] :=
  ⟨poolExec firstZeroArea twoPages staleUnmap,
    ⟨twoPages, staleUnmap, twoPages_init _, poolExec_run staleUnmap_guarded⟩, by decide, by decide, by decide⟩

/-- The invariant after a bounced mapping. -/
theorem pool_invariant_bounced :
    ∃ s, (poolLts firstZeroArea fun s op => CallerOk s op ∧ Outlives s op).Reachable s ∧
      s.live = [.bounced 0x10000 0x5000 16] ∧
      ∀ i, s.kernel.pool.dmaBitmap i = true ↔
        ∃ r ∈ poolRanges s.live, i ∈ pageSpan s.kernel.pool.dmaBase r.1 r.2 := by
  have hr : (poolLts firstZeroArea fun s op => CallerOk s op ∧ Outlives s op).Reachable
      (poolStep firstZeroArea twoPages (.mapPhys allOk 0x5000 16 .fromDevice)) :=
    ⟨twoPages, [.mapPhys allOk 0x5000 16 .fromDevice], twoPages_init _,
      .cons ⟨⟨fun _ h => absurd h (by decide), trivial⟩, rfl⟩ (.nil _)⟩
  exact ⟨_, hr, by decide, (pool_invariant firstZeroArea_zeroArea hr).2.2.2.1⟩

end AcsVirt.L3
