import AcsVirt.L3Protocol.PoolInv

/-!
# Bounced mappings against direct access

A device with a bounced mapping works on pool pages; the copies at map and
unmap time are to make this look like work on the buffer itself.
`bounce_transparent` compares the two: what the device reads, and what the
buffer holds in the end, for any accesses of the device in between.

`DMA_FROM_DEVICE` skips the copy in, so there a byte the device does not write
is not left alone: unmapping overwrites it with what the recycled page held
(`unwritten_bytes_change`).
-/
namespace AcsVirt.L3

open L2

/-- An access of the device within a mapping; a `DMA_TO_DEVICE` mapping is
only read. -/
def Allowed (dir : DmaDir) (n : Nat) (a : Access) : Prop :=
  a.offset < n ∧ (dir = .toDevice → ∀ i v, a ≠ .write i v)

section
variable {find : Bitmap → Nat → Nat → Nat} {k k' : Kernel} {env : Env} {phys size h : UInt64}
  {dir : DmaDir}

/-- Only an empty buffer is both outside and inside the aperture. -/
theorem inAperture_of_apart {p : AxiMmioPool}
    (hout : Region.Apart ⟨phys.toNat, size.toNat⟩ (apertureRegion p)) (hsize : size ≠ 0) :
    inAperture p phys size = false := by
  have hpos : 0 < size.toNat := Nat.pos_of_ne_zero fun e => hsize (UInt64.toNat_inj.mp e)
  refine Bool.eq_false_iff.2 fun hin => ?_
  simp only [inAperture, Bool.and_eq_true, decide_eq_true_eq] at hin
  obtain ⟨⟨h1, h2⟩, h3⟩ := hin
  rw [UInt64.le_iff_toNat_le, UInt64.toNat_sub_of_le _ _ h1, UInt64.toNat_sub_of_le _ _ h2] at h3
  rw [UInt64.le_iff_toNat_le] at h1 h2
  apply hout phys.toNat
  · simp only [Region.mem_def]
    omega
  · simp only [apertureRegion, Region.mem_def]
    omega

/-- A mapping of a buffer outside the aperture is bounced. -/
theorem dmaMapPhys_outside (hf : ZeroArea find) (ha : Aperture k.pool)
    (hout : Region.Apart ⟨phys.toNat, size.toNat⟩ (apertureRegion k.pool))
    (hmap : dmaMapPhys find k env phys size dir = (h, k')) (hok : h ≠ dmaMappingError) :
    Aperture k'.pool ∧ PoolRange k'.pool h size ∧ bounceFind k'.pool h = some ⟨h, phys, size⟩ ∧
      apertureRegion k'.pool = apertureRegion k.pool ∧
      k'.mem = if dir ≠ .fromDevice then copyBytes k.mem h.toNat phys.toNat size.toNat else k.mem := by
  have hsame := dmaMapPhys_same find k env phys size dir
  rw [hmap] at hsame
  rcases dmaMapPhys_cases hf ha hmap with hc | hc | hc
  · exact absurd hc.1 hok
  · obtain ⟨hsize, hin, -, -⟩ := hc
    rw [inAperture_of_apart hout hsize] at hin
    cases hin
  · obtain ⟨-, -, hr, -, rfl⟩ := hc
    exact ⟨hsame.aperture ha, ⟨hr.low, hr.aligned, hr.pos, hr.high⟩, by simp [bounceFind], hsame.region, rfl⟩

theorem lastWrite_toDevice {as : List Access} {n : Nat} (has : ∀ a ∈ as, Allowed .toDevice n a)
    (i : Nat) :
    lastWrite as i = none := by
  induction as with
  | nil => rfl
  | cons a as ih =>
    have ih' := ih fun a ha => has a (List.mem_cons_of_mem _ ha)
    cases a with
    | read j => exact ih'
    | write j v => exact absurd rfl ((has _ List.mem_cons_self).2 rfl j v)

end

/-- **Transparency of bounced mappings.** Map a buffer that is outside the
aperture, let the device access it, unmap it. The device reads what it would
have read in the buffer (if it may read), and the buffer ends up as if the
device had worked on it. Only for `DMA_FROM_DEVICE` a byte the device did not
write becomes what the pool page held when it was mapped. -/
theorem bounce_transparent {find : Bitmap → Nat → Nat → Nat} (hf : ZeroArea find)
    {guard : PoolState → PoolOp → Prop} {s : PoolState} (hr : (poolLts find guard).Reachable s)
    {env env' : Env} {phys size h : UInt64} {dir : DmaDir} {k : Kernel}
    (hout : Region.Apart ⟨phys.toNat, size.toNat⟩ (apertureRegion s.kernel.pool))
    (hmap : dmaMapPhys find s.kernel env phys size dir = (h, k)) (hok : h ≠ dmaMappingError)
    {as : List Access} (has : ∀ a ∈ as, Allowed dir size.toNat a) (hremap : env'.memremapOk = true) :
    (dir ≠ .fromDevice →
      (runAccesses h.toNat as k.mem).1 = (runAccesses phys.toNat as s.kernel.mem).1) ∧
    ∀ i, i < size.toNat →
      (dmaUnmapPhys { k with mem := (runAccesses h.toNat as k.mem).2 } env' h size dir).mem (phys.toNat + i) =
        if dir = .fromDevice ∧ lastWrite as i = none then s.kernel.mem (h.toNat + i)
        else (runAccesses phys.toNat as s.kernel.mem).2 (phys.toNat + i) := by
  have ha := (aperture_inductive find guard).reachable s hr
  obtain ⟨ha', hrange, hfind, hregion, hmem⟩ := dmaMapPhys_outside hf ha hout hmap hok
  rw [← hregion] at hout
  have hoff : ∀ a ∈ as, a.offset < size.toNat := fun a ha => (has a ha).1
  -- the pages and the buffer do not meet
  have hsep : ∀ i, i < size.toNat → phys.toNat + i ∉ (⟨h.toNat, size.toNat⟩ : Region) := by
    intro i hi hmem
    have hlow := hrange.low
    have hhigh := hrange.high
    have hsl := size_le_pages size
    simp only [Region.mem_def] at hmem
    apply hout (phys.toNat + i)
    · simp only [Region.mem_def]
      omega
    · simp only [apertureRegion, Region.mem_def]
      omega
  constructor
  · intro hd
    refine runAccesses_reads hoff fun i hi => ?_
    rw [hmem, if_pos hd, copyBytes_in hi]
  · intro i hi
    obtain ⟨p, m⟩ := k
    dsimp only at ha' hrange hfind hmem
    subst hmem
    rw [dmaUnmapPhys_bounced ha' hrange hfind]
    simp only [hremap, and_true]
    cases dir with
    | toDevice =>
      -- nothing is copied back, and nothing was written
      have hnone := lastWrite_toDevice has i
      simp only [ne_eq, not_true_eq_false, if_false, reduceCtorEq, not_false_eq_true, if_true, false_and]
      rw [runAccesses_out hoff _ (hsep i hi), copyBytes_out (hsep i hi), runAccesses_at, hnone]
      rfl
    | fromDevice =>
      simp only [ne_eq, reduceCtorEq, not_false_eq_true, if_true, not_true_eq_false, if_false, true_and]
      rw [copyBytes_in hi, runAccesses_at, runAccesses_at]
      cases lastWrite as i with
      | none => simp
      | some v => simp
    | bidirectional =>
      simp only [ne_eq, reduceCtorEq, not_false_eq_true, if_true, false_and, if_false]
      rw [copyBytes_in hi, runAccesses_at, runAccesses_at, copyBytes_in hi]

/-- The pool of `twoPages`, with a 7 in the memory at 0x5000. -/
def sevenAt5000 : PoolState :=
  poolStep firstZeroArea twoPages (.touch fun x => if x = 0x5000 then 7 else 0)

theorem sevenAt5000_reachable : (poolLts firstZeroArea CallerOk).Reachable sevenAt5000 :=
  ⟨twoPages, [.touch fun x => if x = 0x5000 then 7 else 0], twoPages_init _,
    .cons ⟨trivial, rfl⟩ (.nil _)⟩

/-- A buffer mapped `DMA_FROM_DEVICE` that the device never touches loses its
contents. -/
theorem unwritten_bytes_change :
    ∃ s h k, (poolLts firstZeroArea CallerOk).Reachable s ∧
      Region.Apart ⟨0x5000, 16⟩ (apertureRegion s.kernel.pool) ∧
      dmaMapPhys firstZeroArea s.kernel allOk 0x5000 16 .fromDevice = (h, k) ∧ h ≠ dmaMappingError ∧
      (runAccesses 0x5000 [] s.kernel.mem).2 0x5000 = 7 ∧
      (dmaUnmapPhys { k with mem := (runAccesses h.toNat [] k.mem).2 } allOk h 16 .fromDevice).mem 0x5000 = 0 :=
  ⟨sevenAt5000, _, _, sevenAt5000_reachable, by decide, rfl, by decide, by decide, by decide⟩

/-- The device writes one byte and reads two. -/
theorem bounce_transparent_bidirectional :
    ∃ s k, (poolLts firstZeroArea CallerOk).Reachable s ∧
      dmaMapPhys firstZeroArea s.kernel allOk 0x5000 16 .bidirectional = (0x10000, k) ∧
      (runAccesses 0x10000 [.write 2 3, .read 2, .read 0] k.mem).1 =
        (runAccesses 0x5000 [.write 2 3, .read 2, .read 0] s.kernel.mem).1 := by
  have hout : Region.Apart ⟨(0x5000 : UInt64).toNat, (16 : UInt64).toNat⟩
      (apertureRegion sevenAt5000.kernel.pool) := by decide
  have hmap : dmaMapPhys firstZeroArea sevenAt5000.kernel allOk 0x5000 16 .bidirectional =
      (0x10000, (dmaMapPhys firstZeroArea sevenAt5000.kernel allOk 0x5000 16 .bidirectional).2) := rfl
  have has : ∀ a ∈ [Access.write 2 3, .read 2, .read 0], Allowed .bidirectional (16 : UInt64).toNat a := by
    simp [Allowed, Access.offset]
  have hremap : allOk.memremapOk = true := rfl
  exact ⟨sevenAt5000, _, sevenAt5000_reachable, hmap,
    (bounce_transparent firstZeroArea_zeroArea sevenAt5000_reachable hout hmap (by decide) has hremap).1
      (by decide)⟩

end AcsVirt.L3
