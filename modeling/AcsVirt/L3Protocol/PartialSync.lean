import AcsVirt.L3Protocol.PoolInv

/-!
# Syncing part of a bounced mapping

A driver may sync a part of a mapping: it passes the handle plus an offset, and
a length. The pool looks the bounce record up by handle (`bounceFind`), and
the record's handle is the start of the mapping. A part that starts further in
finds no record, and the sync copies nothing (`partial_sync`,
`partial_sync_skipped`).

That it finds no record of another mapping either needs the pool's own books
to be in order: no record starts inside the pages of another. Unlike
`PoolInv`, which also speaks of what callers think they hold, this takes only
`CallerOk`: a release with a stale handle takes a record and its pages
together, and leaves books that are right for the mappings that remain.
-/
namespace AcsVirt.L3

open L2

/-! ## The pool's own books -/

/-- A mapping that has pages and no record: callers alone know of it. -/
def Mapping.Unrecorded (m : Mapping) : Prop := m.record = none ∧ ∀ phys n, m ≠ .pass phys n

/-- `held` is what the pool has pages for. Callers may also think they hold
bounced mappings that somebody else's release has taken. -/
structure Books (s : PoolState) (held : List Mapping) : Prop where
  inv : PoolInv ⟨s.kernel, held⟩
  passes : ∀ phys n, .pass phys n ∉ held
  known : ∀ m : Mapping, m.Unrecorded → s.live.count m ≤ held.count m

section
variable {find : Bitmap → Nat → Nat → Nat} {s : PoolState} {held : List Mapping} {k : Kernel}

theorem Books.mem_held (hb : Books s held) {m : Mapping} (hu : m.Unrecorded) (hm : m ∈ s.live) :
    m ∈ held :=
  List.count_pos_iff.1 (Nat.lt_of_lt_of_le (List.count_pos_iff.2 hm) (hb.known m hu))

/-- A new mapping, in both. -/
theorem Books.add (hb : Books s held) {m : Mapping} (hp : ∀ phys n, m ≠ .pass phys n)
    (hi : PoolInv ⟨k, m :: held⟩) : Books ⟨k, m :: s.live⟩ (m :: held) where
  inv := hi
  passes := by
    intro phys n hm
    rcases List.mem_cons.1 hm with hm | hm
    · exact hp phys n hm.symm
    · exact hb.passes phys n hm
  known := by
    intro m' hu
    rw [List.count_cons, List.count_cons]
    exact Nat.add_le_add_right (hb.known m' hu) _

/-- Callers release `m`, and `b` goes from the pool: `m` itself, or the owner
of a record. -/
theorem Books.release (hb : Books s held) {m b : Mapping} (hi : PoolInv ⟨k, held.erase b⟩)
    (hmb : b = m ∨ ¬b.Unrecorded) : Books ⟨k, s.live.erase m⟩ (held.erase b) where
  inv := hi
  passes phys n hm := hb.passes phys n (List.mem_of_mem_erase hm)
  known := by
    intro m' hu
    rcases hmb with rfl | hrec
    · rw [List.count_erase, List.count_erase]
      exact Nat.sub_le_sub_right (hb.known m' hu) _
    · have hne : m' ≠ b := fun e => hrec (e ▸ hu)
      rw [List.count_erase_of_ne hne]
      exact Nat.le_trans (List.erase_sublist.count_le m') (hb.known m' hu)

/-- A mapping the pool has nothing for, or nothing any more. -/
theorem Books.forget (hb : Books s held) (m : Mapping) : Books ⟨s.kernel, s.live.erase m⟩ held where
  inv := hb.inv
  passes := hb.passes
  known m' hu := Nat.le_trans (List.erase_sublist.count_le m') (hb.known m' hu)

/-- A mapping that only callers note. -/
theorem Books.note (hb : Books s held) {m : Mapping} (hm : ¬m.Unrecorded) :
    Books ⟨s.kernel, m :: s.live⟩ held where
  inv := hb.inv
  passes := hb.passes
  known := by
    intro m' hu
    have hne : m' ≠ m := fun e => hm (e ▸ hu)
    rw [List.count_cons_of_ne hne.symm]
    exact hb.known m' hu

theorem Books.withMem (hb : Books s held) (mem : Mem) : Books ⟨⟨s.kernel.pool, mem⟩, s.live⟩ held :=
  ⟨hb.inv.withMem mem, hb.passes, hb.known⟩

/-- A release finds a record, whoever's it is: the record and its pages go. -/
theorem dmaUnmapPhys_found (ha : Aperture k.pool) {h n : UInt64} {b : AxiMmioBounce}
    (hr : PoolRange k.pool h b.size) (hf : bounceFind k.pool h = some b) (env : Env) (dir : DmaDir) :
    dmaUnmapPhys k env h n dir = k ∨
    ∃ mem, dmaUnmapPhys k env h n dir =
      ⟨(bounceDel k.pool h).withBits (k.pool.dmaBitmap.clear (pageSpan k.pool.dmaBase h b.size)), mem⟩ := by
  have hdel : Aperture (bounceDel k.pool h) := ⟨ha.baseAligned, ha.sizeAligned, ha.nonempty, ha.fits, ha.pages⟩
  have hr' : PoolRange (bounceDel k.pool h) h b.size := ⟨hr.low, hr.aligned, hr.pos, hr.high⟩
  have hfree := poolFree_range hdel hr'
  unfold dmaUnmapPhys
  split
  · exact .inl rfl
  right
  rw [hf]
  dsimp only
  split
  · exact ⟨_, by rw [copyPoolToPhys, hfree]; rfl⟩
  · exact ⟨_, by rw [hfree]; rfl⟩

theorem Books.unmapPhys (hb : Books s held) (env : Env) (m : Mapping) (dir : DmaDir) :
    ∃ held', Books (poolStep find s (.unmapPhys env m dir)) held' := by
  have hi := hb.inv
  simp only [poolStep]
  cases hf : bounceFind s.kernel.pool m.handle.1 with
  | none =>
    rw [dmaUnmapPhys_none hf]
    exact ⟨held, hb.forget m⟩
  | some b =>
    have he : b.dmaHandle = m.handle.1 := by simpa using List.find?_some hf
    have hm : .bounced m.handle.1 b.phys b.size ∈ held :=
      he ▸ hi.bounced_of_record (List.mem_of_find?_eq_some hf)
    have hr : PoolRange s.kernel.pool m.handle.1 b.size :=
      hi.range_of_mem hm (r := (m.handle.1, b.size)) List.mem_cons_self
    rcases dmaUnmapPhys_found (n := m.handle.2) hi.aperture hr hf env dir with e | ⟨mem, e⟩
    · rw [e]
      exact ⟨held, hb.forget m⟩
    · rw [e]
      -- with a stale handle the record is not that of `m`
      exact ⟨_, hb.release
        (hi.remove hm (hi.owns_erase hm).drop (hi.bounceDel_perm hm) (fun _ _ h => by cases h) mem)
        (.inr fun hu => by cases hu.1)⟩

theorem Books.mapPhys (hf : ZeroArea find) (hb : Books s held) (env : Env) (phys size : UInt64)
    (dir : DmaDir) : ∃ held', Books (poolStep find s (.mapPhys env phys size dir)) held' := by
  have hi := hb.inv
  have ha : Aperture s.kernel.pool := hi.aperture
  rcases poolStep_mapPhys hf ha env phys size dir with he | ⟨-, -, he⟩ | ⟨h, -, hr, hfree, he⟩
  · rw [he]
    exact ⟨held, hb⟩
  · rw [he]
    exact ⟨held, hb.note fun hu => hu.2 _ _ rfl⟩
  · rw [he]
    refine ⟨_, hb.add (m := .bounced h phys size) (fun _ _ h => by cases h) ?_⟩
    refine hi.add (m := .bounced h phys size) (fun _ _ h => by cases h) (fun r hm => ?_) (hi.owns.take hfree) _
    rw [List.mem_singleton.1 hm]
    exact hr

theorem Books.step (hf : ZeroArea find) (hb : Books s held) {op : PoolOp} (hok : CallerOk s op) :
    ∃ held', Books (poolStep find s op) held' := by
  have hi := hb.inv
  cases op with
  | alloc size =>
    have hnew := hi.alloc hf size
    simp only [poolStep] at hnew ⊢
    split at hnew
    · exact ⟨_, hb.add (fun _ _ h => by cases h) hnew⟩
    · exact ⟨_, hnew, hb.passes, hb.known⟩
  | free h size =>
    have hm : .coherent h size ∈ held := hb.mem_held ⟨rfl, fun _ _ h => by cases h⟩ hok
    have hnew : PoolInv (poolStep find ⟨s.kernel, held⟩ (.free h size)) :=
      hi.free hm fun phys n hp => absurd hp (hb.passes phys n)
    exact ⟨_, hb.release hnew (.inl rfl)⟩
  | mapPhys env phys size dir => exact hb.mapPhys hf env phys size dir
  | unmapPhys env m dir => exact hb.unmapPhys env m dir
  | mapSg sgl dir =>
    have hnew := hi.mapSg hf sgl dir
    simp only [poolStep] at hnew ⊢
    split at hnew
    · exact ⟨_, hb.add (fun _ _ h => by cases h) hnew⟩
    · exact ⟨_, hnew, hb.passes, hb.known⟩
  | unmapSg sgl dir =>
    have hm : .sgs sgl ∈ held := hb.mem_held ⟨rfl, fun _ _ h => by cases h⟩ hok
    have hnew : PoolInv (poolStep find ⟨s.kernel, held⟩ (.unmapSg sgl dir)) := hi.unmapSg dir hm
    exact ⟨_, hb.release hnew (.inl rfl)⟩
  | syncForCpu env m size dir =>
    simp only [poolStep]
    obtain ⟨mem, e⟩ := dmaSyncSingleForCpu_pool s.kernel env m.handle.1 size dir
    rw [e]
    exact ⟨held, hb.withMem mem⟩
  | syncForDevice env m size dir =>
    simp only [poolStep]
    obtain ⟨mem, e⟩ := dmaSyncSingleForDevice_pool s.kernel env m.handle.1 size dir
    rw [e]
    exact ⟨held, hb.withMem mem⟩
  | touch m => exact ⟨held, hb.withMem m⟩

theorem books_inductive (hf : ZeroArea find) :
    (poolLts find CallerOk).Inductive fun s => ∃ held, Books s held where
  init := by
    intro s h
    have hinv : PoolInv s := (poolInv_inductive hf).init s h
    obtain ⟨k, live⟩ := s
    cases h.1
    exact ⟨[], hinv, fun _ _ => List.not_mem_nil, fun _ _ => Nat.le_refl _⟩
  step := by
    intro s op s' h hs
    obtain ⟨held, hb⟩ := h
    obtain ⟨hok, rfl⟩ := hs
    exact hb.step hf hok

/-! ## What a sync finds -/

theorem toNat_add_within {p : AxiMmioPool} (ha : Aperture p) {h n off : UInt64}
    (hr : PoolRange p h n) (hlt : off.toNat < n.toNat) : (h + off).toNat = h.toNat + off.toNat := by
  have hhigh := hr.high
  have hfits := ha.fits
  have hsl := size_le_pages n
  rw [UInt64.toNat_add, Nat.mod_eq_of_lt (by omega)]

/-- No record starts inside another mapping. -/
theorem PoolInv.bounceFind_inside (hi : PoolInv s) {h phys n off : UInt64}
    (hm : .bounced h phys n ∈ s.live) (hoff : off ≠ 0) (hlt : off.toNat < n.toNat) :
    bounceFind s.kernel.pool (h + off) = none := by
  have hr : PoolRange s.kernel.pool h n := hi.range_of_mem hm (r := (h, n)) List.mem_cons_self
  rw [bounceFind, List.find?_eq_none]
  intro b hb
  simp only [beq_iff_eq]
  intro he
  have hm' := hi.bounced_of_record hb
  have hr' : PoolRange s.kernel.pool b.dmaHandle b.size :=
    hi.range_of_mem hm' (r := (b.dmaHandle, b.size)) List.mem_cons_self
  have hin : OnPages (h, n) b.dmaHandle.toNat := by
    rw [he, toNat_add_within hi.aperture hr hlt]
    have hsl := size_le_pages n
    simp only [OnPages]
    omega
  have heq := hi.eq_of_common hm hm' (h, n) (b.dmaHandle, b.size) List.mem_cons_self List.mem_cons_self
    hin hr'.first
  simp only [Mapping.bounced.injEq] at heq
  apply hoff
  rw [← heq.1] at he
  exact (UInt64.left_eq_add.1 he)

variable {h phys n off len : UInt64} {env : Env} {dir : DmaDir}

theorem min_of_toNat_le {a b : UInt64} (h : a.toNat ≤ b.toNat) : min a b = a :=
  if_pos (UInt64.le_iff_toNat_le.2 h)

theorem PoolInv.syncForCpu_start (hi : PoolInv s) (hm : .bounced h phys n ∈ s.live)
    (hle : len.toNat ≤ n.toNat) (hremap : env.memremapOk = true) (hd : dir ≠ .toDevice) :
    (dmaSyncSingleForCpu s.kernel env h len dir).mem =
      copyBytes s.kernel.mem phys.toNat h.toNat len.toNat := by
  have hr : PoolRange s.kernel.pool h n := hi.range_of_mem hm (r := (h, n)) List.mem_cons_self
  rw [dmaSyncSingleForCpu, if_neg hd, hi.bounceFind_bounced hm]
  simp only [hremap, if_true, copyPoolToPhys, hr.vaddr, min_of_toNat_le hle]

theorem PoolInv.syncForDevice_start (hi : PoolInv s) (hm : .bounced h phys n ∈ s.live)
    (hle : len.toNat ≤ n.toNat) (hremap : env.memremapOk = true) (hd : dir ≠ .fromDevice) :
    (dmaSyncSingleForDevice s.kernel env h len dir).mem =
      copyBytes s.kernel.mem h.toNat phys.toNat len.toNat := by
  have hr : PoolRange s.kernel.pool h n := hi.range_of_mem hm (r := (h, n)) List.mem_cons_self
  rw [dmaSyncSingleForDevice, if_neg hd, hi.bounceFind_bounced hm]
  simp only [hremap, if_true, copyPhysToPool, hr.vaddr, min_of_toNat_le hle]

/-- A sync of nothing copies nothing, whatever record it finds. -/
theorem sync_zero (k : Kernel) (env : Env) (h : UInt64) (dir : DmaDir) :
    (dmaSyncSingleForCpu k env h 0 dir).mem = k.mem ∧ (dmaSyncSingleForDevice k env h 0 dir).mem = k.mem := by
  have hmin : ∀ b : UInt64, min 0 b = 0 := fun b => min_of_toNat_le (Nat.zero_le _)
  have hnone : ∀ dst src, copyBytes k.mem dst src (0 : UInt64).toNat = k.mem := fun dst src =>
    funext fun x => copyBytes_out fun hx => absurd hx.2 (Nat.not_lt.2 hx.1)
  constructor
  · rcases dmaSyncSingleForCpu_cases k env h 0 dir with e | ⟨b, -, e⟩
    · rw [e]
    · rw [e, hmin]
      exact hnone _ _
  · rcases dmaSyncSingleForDevice_cases k env h 0 dir with e | ⟨b, -, e⟩
    · rw [e]
    · rw [e, hmin]
      exact hnone _ _

/-- Past its start, a sync of a mapping does nothing. -/
theorem PoolInv.sync_inside (hi : PoolInv s) (hm : .bounced h phys n ∈ s.live) (hoff : off ≠ 0)
    (hin : off.toNat + len.toNat ≤ n.toNat) (env : Env) (dir : DmaDir) :
    (dmaSyncSingleForCpu s.kernel env (h + off) len dir).mem = s.kernel.mem ∧
    (dmaSyncSingleForDevice s.kernel env (h + off) len dir).mem = s.kernel.mem := by
  rcases Nat.eq_zero_or_pos len.toNat with hlen | hlen
  · rw [show len = 0 from UInt64.toNat_inj.1 hlen]
    exact sync_zero s.kernel env (h + off) dir
  · have hnone := hi.bounceFind_inside hm hoff (by omega)
    constructor
    · rw [dmaSyncSingleForCpu, hnone, ite_self]
    · rw [dmaSyncSingleForDevice, hnone, ite_self]

end

/-! ## Parts of a mapping -/

/-- The `n` bytes at `dst` are made those that were at `src`, all others stay. -/
def Copied (m m' : Mem) (dst src n : Nat) : Prop :=
  (∀ i < n, m' (dst + i) = m (src + i)) ∧ ∀ x, x ∉ (⟨dst, n⟩ : Region) → m' x = m x

theorem copied_copyBytes (m : Mem) (dst src n : Nat) : Copied m (copyBytes m dst src n) dst src n :=
  ⟨fun _ hi => copyBytes_in hi, fun _ hx => copyBytes_out hx⟩

theorem copied_self_iff {m : Mem} {dst src n : Nat} :
    Copied m m dst src n ↔ ∀ i < n, m (dst + i) = m (src + i) :=
  ⟨fun h => h.1, fun h => ⟨h, fun _ _ => rfl⟩⟩

/-- The syncs of the part `[off, off + len)` of the mapping of `phys` at `h`
do their copies: out for the CPU, in for the device. -/
def PartSynced (k : Kernel) (env : Env) (h phys off len : UInt64) (dir : DmaDir) : Prop :=
  (dir ≠ .toDevice → Copied k.mem (dmaSyncSingleForCpu k env (h + off) len dir).mem
    (phys.toNat + off.toNat) (h.toNat + off.toNat) len.toNat) ∧
  (dir ≠ .fromDevice → Copied k.mem (dmaSyncSingleForDevice k env (h + off) len dir).mem
    (h.toNat + off.toNat) (phys.toNat + off.toNat) len.toNat)

/-- Syncs that copy nothing are right where buffer and pool agree: every
direction has one of the two. -/
theorem partSynced_idle_iff {k : Kernel} {env : Env} {h phys off len : UInt64} {dir : DmaDir}
    (hcpu : (dmaSyncSingleForCpu k env (h + off) len dir).mem = k.mem)
    (hdev : (dmaSyncSingleForDevice k env (h + off) len dir).mem = k.mem) :
    PartSynced k env h phys off len dir ↔
      ∀ i < len.toNat, k.mem (phys.toNat + off.toNat + i) = k.mem (h.toNat + off.toNat + i) := by
  rw [PartSynced, hcpu, hdev, copied_self_iff, copied_self_iff]
  constructor
  · rintro ⟨hout, hback⟩ i hi
    by_cases hd : dir = .toDevice
    · exact (hback (by rw [hd]; decide) i hi).symm
    · exact hout hd i hi
  · intro h
    exact ⟨fun _ => h, fun _ i hi => (h i hi).symm⟩

/-- **Syncs of a part of a bounced mapping.** The copies are made exactly for
a part that starts the mapping; for any other the sync does nothing, which is
right only where buffer and pool already agree. -/
theorem partial_sync {find : Bitmap → Nat → Nat → Nat} (hf : ZeroArea find) {s : PoolState}
    (hr : (poolLts find CallerOk).Reachable s) {h phys n : UInt64}
    (hm : (⟨h, phys, n⟩ : AxiMmioBounce) ∈ s.kernel.pool.bounces) {off len : UInt64}
    (hin : off.toNat + len.toNat ≤ n.toNat) {env : Env} (hremap : env.memremapOk = true)
    (dir : DmaDir) :
    PartSynced s.kernel env h phys off len dir ↔
      off = 0 ∨ ∀ i < len.toNat, s.kernel.mem (phys.toNat + off.toNat + i) =
        s.kernel.mem (h.toNat + off.toNat + i) := by
  obtain ⟨held, hb⟩ := (books_inductive hf).reachable s hr
  have hheld := hb.inv.bounced_of_record hm
  by_cases hoff : off = 0
  · subst hoff
    have hle : len.toNat ≤ n.toNat := Nat.le_trans (Nat.le_add_left _ _) hin
    refine ⟨fun _ => .inl rfl, fun _ => ⟨fun hd => ?_, fun hd => ?_⟩⟩
    · rw [UInt64.add_zero, hb.inv.syncForCpu_start hheld hle hremap hd]
      exact copied_copyBytes _ _ _ _
    · rw [UInt64.add_zero, hb.inv.syncForDevice_start hheld hle hremap hd]
      exact copied_copyBytes _ _ _ _
  · obtain ⟨hcpu, hdev⟩ := hb.inv.sync_inside hheld hoff hin env dir
    rw [partSynced_idle_iff hcpu hdev, or_iff_right hoff]

/-- Sixteen bytes at 0x5000 are mapped for the device to write, and it writes
a 7 into the fifth. -/
def sevenWritten : PoolState :=
  poolExec firstZeroArea twoPages
    [.mapPhys allOk 0x5000 16 .fromDevice, .touch fun x => if x = 0x10004 then 7 else 0]

theorem sevenWritten_reachable : (poolLts firstZeroArea CallerOk).Reachable sevenWritten :=
  ⟨twoPages, _, twoPages_init _, poolExec_run ⟨fun _ h => absurd h (by decide), trivial, trivial⟩⟩

/-- A sync of four bytes from there on leaves the buffer as it was. -/
theorem partial_sync_skipped :
    ∃ s, (poolLts firstZeroArea CallerOk).Reachable s ∧ .bounced 0x10000 0x5000 16 ∈ s.live ∧
      (⟨0x10000, 0x5000, 16⟩ : AxiMmioBounce) ∈ s.kernel.pool.bounces ∧ s.kernel.mem 0x10004 = 7 ∧
      (dmaSyncSingleForCpu s.kernel allOk (0x10000 + 4) 4 .fromDevice).mem 0x5004 = 0 ∧
      ¬PartSynced s.kernel allOk 0x10000 0x5000 4 4 .fromDevice := by
  refine ⟨sevenWritten, sevenWritten_reachable, by decide, by decide, by decide, by decide, ?_⟩
  intro h
  exact absurd ((h.1 (by decide)).1 0 (by decide)) (by decide)

/-- Synced from its start, the buffer gets the byte. -/
theorem partial_sync_start :
    (dmaSyncSingleForCpu sevenWritten.kernel allOk (0x10000 + 0) 8 .fromDevice).mem (0x5000 + 0 + 4) = 7 ∧
    PartSynced sevenWritten.kernel allOk 0x10000 0x5000 0 8 .fromDevice :=
  have hok := (partial_sync firstZeroArea_zeroArea sevenWritten_reachable (h := 0x10000) (n := 16) (by decide)
    (by decide) (rfl : allOk.memremapOk = true) .fromDevice).2 (.inl rfl)
  ⟨(hok.1 (by decide)).1 4 (by decide), hok⟩

end AcsVirt.L3
