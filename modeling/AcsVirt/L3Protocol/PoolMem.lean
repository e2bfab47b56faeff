import AcsVirt.L3Protocol.PoolInv

/-!
# What the pool's operations do to memory

Over the bookkeeping of `PoolInv`: mappings do not disturb each other
(`mappings_isolated`). An operation copies only into pages that were free, into
its own mapping's pages, or out to that mapping's buffer.
-/
namespace AcsVirt.L3

open L2

/-- Buffers of a mapping, outside the pool. -/
def Mapping.buffers : Mapping → List Region
  | .bounced _ phys n => [⟨phys.toNat, n.toNat⟩]
  | .sgs l => l.map fun e => ⟨e.phys.toNat, e.length.toNat⟩
  | _ => []

/-- The mapping an operation is made on; a new mapping has none yet. -/
def PoolOp.target : PoolOp → Option Mapping
  | .free h n => some (.coherent h n)
  | .unmapPhys _ m _ => some m
  | .unmapSg l _ => some (.sgs l)
  | .syncForCpu _ m _ _ => some m
  | .syncForDevice _ m _ _ => some m
  | _ => none

/-- The live mappings an operation is not made on. -/
def others (s : PoolState) (op : PoolOp) : List Mapping :=
  match op.target with
  | some m => s.live.erase m
  | none => s.live

/-- The buffers of the mapping an operation is made on, or makes. -/
def PoolOp.buffers : PoolOp → List Region
  | .mapPhys _ phys n _ => [⟨phys.toNat, n.toNat⟩]
  | .mapSg l _ => (Mapping.sgs l).buffers
  | op => (op.target.map Mapping.buffers).getD []

/-- Buffers that are mapped from outside the aperture do not reach into it. -/
def BuffersOutside (s : PoolState) : PoolOp → Prop
  | .mapPhys _ phys n _ => inAperture s.kernel.pool phys n = false →
      Region.Apart ⟨phys.toNat, n.toNat⟩ (apertureRegion s.kernel.pool)
  | .mapSg l _ => ∀ b ∈ (Mapping.sgs l).buffers, b.Apart (apertureRegion s.kernel.pool)
  | _ => True

/-- Well-behaved callers. -/
def Behaved (s : PoolState) (op : PoolOp) : Prop :=
  CallerOk s op ∧ Outlives s op ∧ BuffersOutside s op

/-! ## Buffers stay outside the aperture -/

section
variable {find : Bitmap → Nat → Nat → Nat} {s : PoolState}

/-- Mapping a scatterlist keeps the entries' buffers. -/
theorem mapSgLoop_buffers (dir : DmaDir) (todo done : List Sg) (k : Kernel) {mapped : Bool}
    {sgl : List Sg} {k' : Kernel} (hm : mapSgLoop find dir done todo k = (mapped, sgl, k')) :
    (Mapping.sgs sgl).buffers = (Mapping.sgs (done ++ todo)).buffers := by
  induction todo generalizing done k with
  | nil =>
    cases hm
    rw [List.append_nil]
  | cons s todo ih =>
    cases he : poolAlloc find k.pool s.length.toUInt64 with
    | none =>
      simp only [mapSgLoop, he, Prod.mk.injEq] at hm
      obtain ⟨-, rfl, -⟩ := hm
      simp only [Mapping.buffers, List.map_append, List.map_map]
      rfl
    | some r =>
      obtain ⟨addr, p⟩ := r
      simp only [mapSgLoop, he] at hm
      rw [ih _ _ hm]
      simp only [Mapping.buffers, List.map_append, List.append_assoc]
      rfl

/-- Buffers of live mappings are outside the aperture. -/
def BufferInv (s : PoolState) : Prop :=
  ∀ m ∈ s.live, ∀ b ∈ m.buffers, b.Apart (apertureRegion s.kernel.pool)

/-- The mapping a step adds, if any, has its buffers outside. -/
theorem PoolInv.step_buffers (hf : ZeroArea find) (hi : PoolInv s) {op : PoolOp}
    (hbuf : BuffersOutside s op) :
    ∀ m ∈ (poolStep find s op).live, m ∈ s.live ∨
      ∀ b ∈ m.buffers, b.Apart (apertureRegion s.kernel.pool) := by
  have hcons : ∀ new : Mapping, (∀ b ∈ new.buffers, b.Apart (apertureRegion s.kernel.pool)) →
      ∀ m ∈ new :: s.live, m ∈ s.live ∨ ∀ b ∈ m.buffers, b.Apart (apertureRegion s.kernel.pool) := by
    intro new hnew m hm
    rcases List.mem_cons.1 hm with rfl | hm
    · exact .inr hnew
    · exact .inl hm
  cases op with
  | alloc size =>
    simp only [poolStep, dmaAlloc]
    cases poolAlloc find s.kernel.pool size with
    | none => exact fun m hm => .inl hm
    | some r => exact hcons _ (by simp [Mapping.buffers])
  | mapPhys env phys size dir =>
    rcases poolStep_mapPhys hf hi.aperture env phys size dir with he | ⟨-, -, he⟩ | ⟨h, hin, -, -, he⟩
    · rw [he]
      exact fun m hm => .inl hm
    · rw [he]
      exact hcons _ (by simp [Mapping.buffers])
    · rw [he]
      refine hcons _ fun b hb => ?_
      rw [List.mem_singleton.1 hb]
      exact hbuf hin
  | mapSg sgl dir =>
    simp only [poolStep]
    rcases hmap : dmaMapSg find s.kernel sgl dir with ⟨mapped, sgl', k⟩
    cases mapped with
    | true =>
      refine hcons _ ?_
      rw [mapSgLoop_buffers dir sgl [] s.kernel hmap]
      exact hbuf
    | false => exact fun m hm => .inl hm
  | free | unmapPhys | unmapSg => exact fun m hm => .inl (List.mem_of_mem_erase hm)
  | syncForCpu | syncForDevice | touch => exact fun m hm => .inl hm

theorem behaved_inductive (hf : ZeroArea find) :
    (poolLts find Behaved).Inductive fun s => PoolInv s ∧ BufferInv s where
  init := by
    intro s h
    refine ⟨(poolInv_inductive hf).init s h, ?_⟩
    intro m hm
    rw [h.1] at hm
    cases hm
  step := by
    intro s op s' hi h
    obtain ⟨hg, rfl⟩ := h
    refine ⟨hi.1.step hf hg.1 hg.2.1, ?_⟩
    intro m hm b hb
    rw [(poolStep_same find s op).region]
    rcases hi.1.step_buffers hf hg.2.2 m hm with hm | hnew
    · exact hi.2 m hm b hb
    · exact hnew b hb

/-! ## Where the operations write -/

/-- The address is in a page of the pool that is not taken. -/
def FreeAddr (p : AxiMmioPool) (x : Nat) : Prop :=
  x ∈ apertureRegion p ∧ p.dmaBitmap ((x - p.dmaBase.toNat) / 4096) = false

theorem freeAddr_of_range {p : AxiMmioPool} (ha : Aperture p) {h n : UInt64} (hr : PoolRange p h n)
    (hfree : ∀ i ∈ pageSpan p.dmaBase h n, p.dmaBitmap i = false) {x : Nat}
    (hx : x ∈ (⟨h.toNat, n.toNat⟩ : Region)) : FreeAddr p x := by
  have hsl := size_le_pages n
  have hlow := hr.low
  have hhigh := hr.high
  simp only [Region.mem_def] at hx
  refine ⟨?_, hfree _ (hr.page_mem ha hx.1 (by omega))⟩
  simp only [apertureRegion, Region.mem_def]
  omega

theorem toNat_min_le {a b : UInt32} : (min a b).toNat ≤ b.toNat := by
  show (if a ≤ b then a else b).toNat ≤ b.toNat
  split
  · exact UInt32.le_iff_toNat_le.1 ‹_›
  · exact Nat.le_refl _

theorem toNat_min_le_right {a b : UInt64} : (min a b).toNat ≤ b.toNat := by
  show (if a ≤ b then a else b).toNat ≤ b.toNat
  split
  · exact UInt64.le_iff_toNat_le.1 ‹_›
  · exact Nat.le_refl _

/-- Mapping a scatterlist writes only into pages that were free. -/
theorem mapSgLoop_mem (hf : ZeroArea find) (dir : DmaDir) (todo done : List Sg) (k : Kernel)
    (ha : Aperture k.pool) {mapped : Bool} {sgl : List Sg} {k' : Kernel}
    (hm : mapSgLoop find dir done todo k = (mapped, sgl, k')) :
    ChangesOnly (FreeAddr k.pool) k.mem k'.mem := by
  induction todo generalizing done k with
  | nil =>
    cases hm
    exact .refl _ _
  | cons s todo ih =>
    cases he : poolAlloc find k.pool s.length.toUInt64 with
    | none =>
      simp only [mapSgLoop, he, Prod.mk.injEq] at hm
      obtain ⟨-, -, rfl⟩ := hm
      exact .refl _ _
    | some r =>
      obtain ⟨addr, p⟩ := r
      obtain ⟨hr, rfl, hfree⟩ := poolAlloc_some hf ha he
      simp only [mapSgLoop, he] at hm
      -- a page that is free after the allocation was free before it
      have hless : ∀ x, FreeAddr (k.pool.withBits
          (k.pool.dmaBitmap.set (pageSpan k.pool.dmaBase addr s.length.toUInt64))) x →
          FreeAddr k.pool x := by
        intro x hx
        refine ⟨hx.1, ?_⟩
        have := hx.2
        simp only [AxiMmioPool.withBits, Bitmap.set, Bool.or_eq_false_iff] at this
        exact this.1
      have ha' := ha.withBits (k.pool.dmaBitmap.set (pageSpan k.pool.dmaBase addr s.length.toUInt64))
      split at hm
      · refine .trans ?_ ((ih _ ⟨_, _⟩ ha' hm).mono hless)
        rw [(hr.withBits _).vaddr]
        exact (copyBytes_changes _ _ _ _).mono fun x hx => freeAddr_of_range ha hr hfree hx
      · exact (ih _ ⟨_, _⟩ ha' hm).mono hless

/-- Unmapping a scatterlist writes only into the entries' buffers. -/
theorem dmaUnmapSg_mem (k : Kernel) (dir : DmaDir) (l : List Sg) :
    ChangesOnly (fun x => ∃ b ∈ (Mapping.sgs l).buffers, x ∈ b) k.mem (dmaUnmapSg k dir l).2.mem := by
  induction l generalizing k with
  | nil => exact .refl _ _
  | cons s l ih =>
    have hhead : ChangesOnly (fun x => ∃ b ∈ (Mapping.sgs (s :: l)).buffers, x ∈ b) k.mem
        (unmapSgEntry k dir s).2.mem := by
      unfold unmapSgEntry
      split
      · exact .refl _ _
      · dsimp only
        split
        · refine (copyBytes_changes _ _ _ _).mono fun x hx => ⟨_, List.mem_cons_self, ?_⟩
          have hle := toNat_min_le (a := s.dmaLen) (b := s.length)
          simp only [Region.mem_def] at hx ⊢
          omega
        · exact .refl _ _
    refine hhead.trans ((ih (unmapSgEntry k dir s).2).mono fun x hx => ?_)
    obtain ⟨b, hb, hx⟩ := hx
    exact ⟨b, List.mem_cons_of_mem _ hb, hx⟩

/-- The record found under a mapping's handle is its own. -/
theorem PoolInv.record_of_handle (hi : PoolInv s) {m : Mapping} (hm : m ∈ s.live)
    {b : AxiMmioBounce} (hb : bounceFind s.kernel.pool m.handle.1 = some b) :
    m = .bounced b.dmaHandle b.phys b.size := by
  have hmem := List.mem_of_find?_eq_some hb
  have he : b.dmaHandle = m.handle.1 := by simpa using List.find?_some hb
  have hm' := hi.bounced_of_record hmem
  have hr' : PoolRange s.kernel.pool b.dmaHandle b.size :=
    hi.range_of_mem hm' (r := (b.dmaHandle, b.size)) List.mem_cons_self
  cases m with
  | coherent h n =>
    have hr : PoolRange s.kernel.pool h n := hi.range_of_mem hm (r := (h, n)) List.mem_cons_self
    exact hi.eq_of_common hm hm' (h, n) (b.dmaHandle, b.size) List.mem_cons_self List.mem_cons_self
      hr.first (he ▸ hr'.first)
  | pass phys n => exact absurd he (hi.no_record_of_pass hm hmem)
  | bounced h phys n => rw [hi.record_unique hm hmem he]
  | sgs l => exact absurd he hr'.handle_ne_error

/-- Mapping a buffer writes into free pages only. -/
theorem PoolInv.mapPhys_mem (hf : ZeroArea find) (hi : PoolInv s) (env : Env) (phys size : UInt64)
    (dir : DmaDir) :
    ChangesOnly (FreeAddr s.kernel.pool) s.kernel.mem
      (poolStep find s (.mapPhys env phys size dir)).kernel.mem := by
  rcases poolStep_mapPhys hf hi.aperture env phys size dir with he | ⟨-, -, he⟩ | ⟨h, -, hr, hfree, he⟩
  · rw [he]
    exact .refl _ _
  · rw [he]
    exact .refl _ _
  · rw [he]
    show ChangesOnly _ _ (if dir ≠ .fromDevice then _ else _)
    split
    · exact (copyBytes_changes _ _ _ _).mono fun x hx => freeAddr_of_range hi.aperture hr hfree hx
    · exact .refl _ _

/-- Releasing one writes into its own buffer only. -/
theorem PoolInv.unmapPhys_mem (hi : PoolInv s) (env : Env) {m : Mapping} (dir : DmaDir)
    (hok : CallerOk s (.unmapPhys env m dir)) :
    ChangesOnly (fun x => ∃ b ∈ m.buffers, x ∈ b) s.kernel.mem
      (poolStep find s (.unmapPhys env m dir)).kernel.mem := by
  obtain ⟨hm, hkind⟩ := hok
  rcases hkind with hkind | hkind
  · obtain ⟨phys, n, rfl⟩ := hkind
    simp only [poolStep, Mapping.handle, dmaUnmapPhys_none (hi.bounceFind_pass hm)]
    exact .refl _ _
  · obtain ⟨h, phys, n, rfl⟩ := hkind
    simp only [poolStep, Mapping.handle, dmaUnmapPhys_bounced hi.aperture
      (hi.range_of_mem hm (r := (h, n)) List.mem_cons_self) (hi.bounceFind_bounced hm)]
    split
    · exact (copyBytes_changes _ _ _ _).mono fun x hx => ⟨_, List.mem_cons_self, hx⟩
    · exact .refl _ _

/-- A sync for the CPU writes into the buffer of its mapping. -/
theorem PoolInv.syncForCpu_mem (hi : PoolInv s) (env : Env) {m : Mapping} (hm : m ∈ s.live)
    (size : UInt64) (dir : DmaDir) :
    ChangesOnly (fun x => ∃ b ∈ m.buffers, x ∈ b) s.kernel.mem
      (dmaSyncSingleForCpu s.kernel env m.handle.1 size dir).mem := by
  rcases dmaSyncSingleForCpu_cases s.kernel env m.handle.1 size dir with e | ⟨b, hb, e⟩
  · rw [e]
    exact .refl _ _
  · rw [e, hi.record_of_handle hm hb]
    refine (copyBytes_changes _ _ _ _).mono fun x hx => ⟨_, List.mem_cons_self, ?_⟩
    have hle := toNat_min_le_right (a := size) (b := b.size)
    simp only [Region.mem_def] at hx ⊢
    omega

/-- A sync for the device does nothing, or writes into the pages of its mapping. -/
theorem PoolInv.syncForDevice_mem (hi : PoolInv s) (env : Env) {m : Mapping} (hm : m ∈ s.live)
    (size : UInt64) (dir : DmaDir) :
    (dmaSyncSingleForDevice s.kernel env m.handle.1 size dir).mem = s.kernel.mem ∨
    ∃ h phys n, m = .bounced h phys n ∧
      ChangesOnly (OnPages (h, n)) s.kernel.mem (dmaSyncSingleForDevice s.kernel env m.handle.1 size dir).mem := by
  rcases dmaSyncSingleForDevice_cases s.kernel env m.handle.1 size dir with e | ⟨b, hb, e⟩
  · exact .inl (congrArg Kernel.mem e)
  · have hrec := hi.record_of_handle hm hb
    refine .inr ⟨_, _, _, hrec, ?_⟩
    have hr : PoolRange s.kernel.pool b.dmaHandle b.size :=
      hi.range_of_mem (hrec ▸ hm) (r := (b.dmaHandle, b.size)) List.mem_cons_self
    rw [e, hrec, copyPhysToPool, Mapping.handle, hr.vaddr]
    refine (copyBytes_changes _ _ _ _).mono fun x hx => ?_
    have hle := toNat_min_le_right (a := size) (b := b.size)
    have hsl := size_le_pages b.size
    simp only [Region.mem_def, OnPages] at hx ⊢
    omega

/-- An operation writes into free pages only, or into the buffers of the
mapping it is made on only, or into that mapping's own pages only. -/
theorem PoolInv.step_mem (hf : ZeroArea find) (hi : PoolInv s) {op : PoolOp} (hok : CallerOk s op)
    (hop : ∀ m, op ≠ .touch m) :
    ChangesOnly (FreeAddr s.kernel.pool) s.kernel.mem (poolStep find s op).kernel.mem ∨
    ∃ m ∈ s.live, op.target = some m ∧
      (ChangesOnly (fun x => ∃ b ∈ m.buffers, x ∈ b) s.kernel.mem (poolStep find s op).kernel.mem ∨
        ∃ h phys n, m = .bounced h phys n ∧
          ChangesOnly (OnPages (h, n)) s.kernel.mem (poolStep find s op).kernel.mem) := by
  cases op with
  | alloc size =>
    left
    simp only [poolStep, dmaAlloc]
    cases poolAlloc find s.kernel.pool size with
    | none => exact .refl _ _
    | some r => exact .refl _ _
  | free h size => exact .inl (.refl _ _)
  | mapPhys env phys size dir => exact .inl (hi.mapPhys_mem hf env phys size dir)
  | unmapPhys env m dir => exact .inr ⟨m, hok.1, rfl, .inl (hi.unmapPhys_mem env dir hok)⟩
  | mapSg sgl dir =>
    left
    simp only [poolStep]
    rcases hmap : dmaMapSg find s.kernel sgl dir with ⟨mapped, sgl', k⟩
    have hmem := mapSgLoop_mem hf dir sgl [] s.kernel hi.aperture hmap
    cases mapped with
    | true => exact hmem
    | false => exact hmem
  | unmapSg sgl dir => exact .inr ⟨_, hok, rfl, .inl (dmaUnmapSg_mem _ _ _)⟩
  | syncForCpu env m size dir => exact .inr ⟨m, hok, rfl, .inl (hi.syncForCpu_mem env hok size dir)⟩
  | syncForDevice env m size dir =>
    rcases hi.syncForDevice_mem env hok size dir with e | h
    · exact .inl fun x _ => congrFun e x
    · exact .inr ⟨m, hok, rfl, .inr h⟩
  | touch m => exact absurd rfl (hop m)

theorem PoolInv.handed_taken (hi : PoolInv s) {m : Mapping} (hm : m ∈ s.live) {r : UInt64 × UInt64}
    (hr : r ∈ m.handed) {x : Nat} (hx : x ∈ (⟨r.1.toNat, r.2.toNat⟩ : Region)) :
    ¬FreeAddr s.kernel.pool x := by
  intro hfree
  obtain ⟨c, hc, q, hq, -, h1, h2⟩ := hi.cover hm hr
  simp only [Region.mem_def] at hx
  have hpage := (hi.range_of_mem hc hq).page_mem hi.aperture (x := x) (by omega) (by omega)
  have hset := (hi.owns.marks _).2
    ⟨_, List.mem_map_of_mem (List.mem_flatMap.2 ⟨c, hc, hq⟩), hpage⟩
  rw [hfree.2] at hset
  cases hset

theorem PoolInv.handed_off_pages (hi : PoolInv s) {h phys n : UInt64}
    (hm : .bounced h phys n ∈ s.live) {m : Mapping} (hm' : m ∈ s.live.erase (.bounced h phys n))
    {r : UInt64 × UInt64} (hr : r ∈ m.handed) {x : Nat} (hx : x ∈ (⟨r.1.toNat, r.2.toNat⟩ : Region)) :
    ¬OnPages (h, n) x := by
  intro hon
  obtain ⟨c, hc, q, hq, hkind, h1, h2⟩ := hi.cover (List.mem_of_mem_erase hm') hr
  have hc' : c ∈ s.live.erase (.bounced h phys n) := by
    rcases hkind with rfl | ⟨h', n', rfl⟩
    · exact hm'
    · exact (List.mem_erase_of_ne (by simp)).2 hc
  simp only [Region.mem_def] at hx
  exact hi.apart_of_erase hm hc' List.mem_cons_self hq hon ⟨by omega, by omega⟩

theorem BufferInv.handed_off_buffers (hb : BufferInv s) (hi : PoolInv s) {m m' : Mapping}
    (hm : m ∈ s.live) (hm' : m' ∈ s.live) {r : UInt64 × UInt64} (hr : r ∈ m'.handed) {x : Nat}
    (hx : x ∈ (⟨r.1.toNat, r.2.toNat⟩ : Region)) : ¬∃ b ∈ m.buffers, x ∈ b := by
  intro h
  obtain ⟨b, hbm, hxb⟩ := h
  obtain ⟨h1, h2⟩ := hi.handed_inside hm' hr
  simp only [Region.mem_def] at hx
  apply hb m hm b hbm x hxb
  simp only [apertureRegion, Region.mem_def]
  omega

theorem PoolInv.pages_inside (hi : PoolInv s) {h phys n : UInt64} (hm : .bounced h phys n ∈ s.live)
    {x : Nat} (hx : OnPages (h, n) x) : x ∈ apertureRegion s.kernel.pool := by
  have hr : PoolRange s.kernel.pool h n := hi.range_of_mem hm (r := (h, n)) List.mem_cons_self
  have hlow := hr.low
  have hhigh := hr.high
  simp only [OnPages, apertureRegion, Region.mem_def] at hx ⊢
  omega

theorem others_of_target {op : PoolOp} {m : Mapping} (h : op.target = some m) :
    others s op = s.live.erase m ∧ op.buffers = m.buffers := by
  constructor
  · rw [others, h]
  · cases op with
    | alloc | mapPhys | mapSg | touch => cases h
    | free | unmapPhys | unmapSg | syncForCpu | syncForDevice =>
      cases h
      rfl

theorem others_sub {op : PoolOp} {m : Mapping} (h : m ∈ others s op) : m ∈ s.live := by
  unfold others at h
  split at h
  · exact List.mem_of_mem_erase h
  · exact h

theorem live_of_target {op : PoolOp} {m : Mapping} (hm : m ∈ s.live) (ht : op.target ≠ some m) :
    m ∈ (poolStep find s op).live := by
  have herase : ∀ m', op.target = some m' → m ∈ s.live.erase m' := fun m' e =>
    (List.mem_erase_of_ne fun e' => ht (e.trans (congrArg some e'.symm))).2 hm
  cases op with
  | alloc size =>
    simp only [poolStep]
    split
    · exact List.mem_cons_of_mem _ hm
    · exact hm
  | mapPhys env phys size dir =>
    simp only [poolStep]
    split
    · exact hm
    · split <;> exact List.mem_cons_of_mem _ hm
  | mapSg sgl dir =>
    simp only [poolStep]
    split
    · exact List.mem_cons_of_mem _ hm
    · exact hm
  | free | unmapPhys | unmapSg => exact herase _ rfl
  | syncForCpu | syncForDevice | touch => exact hm

/-- An operation leaves alone what the mappings it is not made on handed out,
and outside the aperture everything but its own buffers. -/
theorem PoolInv.step_keeps (hf : ZeroArea find) (hi : PoolInv s) (hb : BufferInv s) {op : PoolOp}
    (hok : CallerOk s op)
    (hop : ∀ m, op ≠ .touch m) {x : Nat}
    (hx : (∃ m ∈ s.live, op.target ≠ some m ∧ ∃ g ∈ m.handed, x ∈ (⟨g.1.toNat, g.2.toNat⟩ : Region)) ∨
      (x ∉ apertureRegion s.kernel.pool ∧ ∀ b ∈ op.buffers, x ∉ b)) :
    (poolStep find s op).kernel.mem x = s.kernel.mem x := by
  rcases hi.step_mem hf hok hop with hc | ⟨m', hm', ht', hc⟩
  · refine hc x fun hfree => ?_
    rcases hx with ⟨m, hm, -, g, hg, hx⟩ | ⟨hx, -⟩
    · exact hi.handed_taken hm hg hx hfree
    · exact hx hfree.1
  have hbuf := (others_of_target (s := s) ht').2
  rcases hc with hc | ⟨h, phys, n, rfl, hc⟩
  · refine hc x fun hin => ?_
    rcases hx with ⟨m, hm, -, g, hg, hx⟩ | ⟨-, hx⟩
    · exact hb.handed_off_buffers hi hm' hm hg hx hin
    · obtain ⟨b, hb, hxb⟩ := hin
      exact hx b (hbuf ▸ hb) hxb
  · refine hc x fun hon => ?_
    rcases hx with ⟨m, hm, ht, g, hg, hx⟩ | ⟨hx, -⟩
    · have hne : m ≠ .bounced h phys n := fun e => ht (e ▸ ht')
      exact hi.handed_off_pages hm' ((List.mem_erase_of_ne hne).2 hm) hg hx hon
    · exact hx (hi.pages_inside hm' hon)

theorem BufferInv.step (hf : ZeroArea find) (hb : BufferInv s) (hi : PoolInv s) {op : PoolOp}
    (hout : BuffersOutside s op) : BufferInv (poolStep find s op) := by
  intro m hm b hbm
  rw [(poolStep_same find s op).region]
  rcases hi.step_buffers hf hout m hm with hm | hnew
  · exact hb m hm b hbm
  · exact hnew b hbm

theorem onPages_of_mem {h n : UInt64} {x : Nat} (hx : x ∈ (⟨h.toNat, n.toNat⟩ : Region)) :
    OnPages (h, n) x := by
  have hsl := size_le_pages n
  simp only [Region.mem_def, OnPages] at hx ⊢
  omega

/-- What is handed out is inside the aperture. -/
theorem PoolInv.handed_sub (hi : PoolInv s) {m : Mapping} (hm : m ∈ s.live) {g : UInt64 × UInt64}
    (hg : g ∈ m.handed) : Region.Sub ⟨g.1.toNat, g.2.toNat⟩ (apertureRegion s.kernel.pool) := by
  intro x hx
  obtain ⟨h1, h2⟩ := hi.handed_inside hm hg
  simp only [apertureRegion, Region.mem_def] at hx ⊢
  omega

end

/-- **Mappings do not disturb each other.** An operation of well-behaved
callers changes no byte of what any other live mapping handed out and, outside
the aperture, none but those of the buffers of its own mapping. -/
theorem mappings_isolated {find : Bitmap → Nat → Nat → Nat} (hf : ZeroArea find) {s : PoolState}
    (hr : (poolLts find Behaved).Reachable s) {op : PoolOp} (hg : Behaved s op)
    (hop : ∀ m, op ≠ .touch m) :
    (∀ m ∈ others s op, ∀ r ∈ m.handed, ∀ x ∈ (⟨r.1.toNat, r.2.toNat⟩ : Region),
      (poolStep find s op).kernel.mem x = s.kernel.mem x) ∧
    ∀ x, x ∉ apertureRegion s.kernel.pool → (∀ b ∈ op.buffers, x ∉ b) →
      (poolStep find s op).kernel.mem x = s.kernel.mem x := by
  obtain ⟨hi, hb⟩ := (behaved_inductive hf).reachable s hr
  rcases hi.step_mem hf hg.1 hop with hc | ⟨m, hm, ht, hc⟩
  · exact ⟨fun m' hm' r hr x hx => hc x (hi.handed_taken (others_sub hm') hr hx),
      fun x hx _ => hc x fun hfree => hx hfree.1⟩
  obtain ⟨hoth, hbuf⟩ := others_of_target (s := s) ht
  rw [hoth, hbuf]
  rcases hc with hc | ⟨h, phys, n, rfl, hc⟩
  · refine ⟨fun m' hm' r hr x hx => hc x ?_, fun x _ hx => hc x ?_⟩
    · exact hb.handed_off_buffers hi hm (List.mem_of_mem_erase hm') hr hx
    · intro h
      obtain ⟨b, hbm, hxb⟩ := h
      exact hx b hbm hxb
  · exact ⟨fun m' hm' r hr x hx => hc x (hi.handed_off_pages hm hm' hr hx),
      fun x hx _ => hc x fun hon => hx (hi.pages_inside hm hon)⟩

/-- Without `Outlives`, releasing a stale pass-through mapping writes into the
buffer of somebody's bounced mapping. -/
theorem stale_unmap_writes_buffer :
    ∃ s op, (poolLts firstZeroArea fun s op => CallerOk s op ∧ BuffersOutside s op).Reachable s ∧
      (CallerOk s op ∧ BuffersOutside s op) ∧ op = .unmapPhys allOk (.pass 0x10000 16) .fromDevice ∧
      0x5000 ∉ apertureRegion s.kernel.pool ∧ (∀ b ∈ op.buffers, 0x5000 ∉ b) ∧
      s.kernel.mem 0x5000 = 0 ∧ (poolStep firstZeroArea s op).kernel.mem 0x5000 = 7 := by
  have hg : Guarded firstZeroArea (fun s op => CallerOk s op ∧ BuffersOutside s op) twoPages
      (staleUnmap.take 4 ++ [.touch fun x => if x = 0x10000 then 7 else 0]) := by
    obtain ⟨h1, h2, h3, h4, -⟩ := staleUnmap_guarded
    refine ⟨⟨h1, trivial⟩, ⟨h2, fun h => absurd h (by decide)⟩, ⟨h3, trivial⟩, ⟨h4, fun _ => by decide⟩,
      ⟨trivial, trivial⟩, trivial⟩
  refine ⟨_, .unmapPhys allOk (.pass 0x10000 16) .fromDevice,
    ⟨twoPages, _, twoPages_init _, poolExec_run hg⟩, ⟨⟨by decide, .inl ⟨_, _, rfl⟩⟩, trivial⟩, rfl, ?_⟩
  decide

/-- The operation after a bounced mapping. -/
theorem mappings_isolated_bounced :
    ∃ s, (poolLts firstZeroArea Behaved).Reachable s ∧ s.live = [.bounced 0x10000 0x5000 16] ∧
      ∀ x ∈ (⟨0x10000, 16⟩ : Region),
        (poolStep firstZeroArea s (.mapPhys allOk 0x6000 16 .toDevice)).kernel.mem x = s.kernel.mem x := by
  have hr : (poolLts firstZeroArea Behaved).Reachable
      (poolStep firstZeroArea twoPages (.mapPhys allOk 0x5000 16 .fromDevice)) :=
    ⟨twoPages, [.mapPhys allOk 0x5000 16 .fromDevice], twoPages_init _,
      .cons ⟨⟨fun _ h => absurd h (by decide), trivial, fun _ => by decide⟩, rfl⟩ (.nil _)⟩
  have hg : Behaved (poolStep firstZeroArea twoPages (.mapPhys allOk 0x5000 16 .fromDevice))
      (.mapPhys allOk 0x6000 16 .toDevice) :=
    ⟨fun _ h => absurd h (by decide), trivial, fun _ => by decide⟩
  exact ⟨_, hr, by decide, (mappings_isolated firstZeroArea_zeroArea hr hg nofun).1
    (.bounced 0x10000 0x5000 16) (by decide) (0x10000, 16) (by decide)⟩

end AcsVirt.L3
