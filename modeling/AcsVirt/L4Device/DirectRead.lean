import AcsVirt.L2Machine.LinuxUio
import AcsVirt.L4Device.Reset

/-!
# Reads into mapped guest memory

With `CHIPLETS_BLKD_DIRECT_READ` an IN request is read from the image straight
into guest memory where the fabric can map it, and through the payload buffer
where it cannot. The direct path asks for the mapping before it looks at the
image's bounds, the buffered one the other way round. On the UIO fabric the
mapping is refused exactly when the store would be, and a mapping of length zero
is always there, so one descriptor ends alike on both paths (`uio_sameReads`),
and with it a whole chain, also one whose data overwrites descriptors that are
still to be read (`direct_read_agrees`).
-/
namespace AcsVirt.L4

open L1 L2

theorem uio_host : Host UioFabric.answer where
  realloc _ _ := rfl
  dmaRead _ _ _ _ h := UioFabric.dmaReadInto_length h
  pread f offset len bs h := by
    cases h
    exact readBytes_length ..

/-- The fabric after `data` has been stored at `gpa`. -/
def guestStore (f : UioFabric) (gpa : UInt64) (data : Bytes) : UioFabric :=
  { f with ram := { f.ram with mem := writeBytes f.ram.mem gpa.toNat data } }

/-- Where a mapping is given, the store of as many bytes succeeds. -/
theorem dmaWrite_mapped {f : UioFabric} {gpa : UInt64} {len : UInt32}
    (hmap : (f.answer (.dmaMap gpa len)).1 = true) {data : Bytes} (hlen : data.length = len.toNat) :
    (dmaWrite gpa data).run UioFabric.answer f = (.ok true, guestStore f gpa data) := by
  have hanswer : f.answer (.dmaWrite gpa data) = (true, guestStore f gpa data) := by
    simp only [UioFabric.answer]
    split
    next hnil =>
      rw [List.eq_nil_of_length_eq_zero hnil, guestStore, writeBytes_nil]
    next hne =>
      have hoff : f.dmaOffset gpa len = true := by
        have hpos : len ≠ 0 := fun h0 => hne (by rw [hlen, h0]; rfl)
        simpa [UioFabric.answer, hpos] using hmap
      rw [hlen, UInt32.ofNat_toNat, if_pos hoff]
      rfl
  show (Except.ok (f.answer (.dmaWrite gpa data)).1, (f.answer (.dmaWrite gpa data)).2) = _
  rw [hanswer]

/-- Without a mapping the direct path is the buffered one. -/
theorem readData_unmapped {f : UioFabric} {desc : VirtioDesc}
    (hmap : (f.answer (.dmaMap desc.addr desc.len)).1 = false) (s : BlkdState) (offset : UInt64) :
    (readData true s desc offset).run UioFabric.answer f = (readData false s desc offset).run UioFabric.answer f := by
  have htry : (tryMap true desc).run UioFabric.answer f = (.ok false, f) := by
    show (Except.ok (f.answer (.dmaMap desc.addr desc.len)).1, f) = _
    rw [hmap]
  rw [readData, Prog.run_bind_ok htry]
  rfl

/-- With one, it stores what the image has, if that is inside. -/
theorem readData_mapped {f : UioFabric} {desc : VirtioDesc}
    (hmap : (f.answer (.dmaMap desc.addr desc.len)).1 = true) (s : BlkdState) (offset : UInt64) :
    (readData true s desc offset).run UioFabric.answer f =
      if s.backend.outside offset desc.len then (.ok (s, .ioerr), f)
      else (.ok (s, .ok), guestStore f desc.addr (readBytes f.ram.image offset.toNat desc.len.toNat)) := by
  have htry : (tryMap true desc).run UioFabric.answer f = (.ok true, f) := by
    show (Except.ok (f.answer (.dmaMap desc.addr desc.len)).1, f) = _
    rw [hmap]
  rw [readData, Prog.run_bind_ok htry, if_pos rfl, blkdBlockReadMapped]
  split
  · rfl
  · rfl

/-- The buffered path does the same, whatever buffer it has. -/
theorem readData_buffered {f : UioFabric} {desc : VirtioDesc}
    (hmap : (f.answer (.dmaMap desc.addr desc.len)).1 = true) (t : BlkdState) (offset : UInt64) :
    ∃ t', SameDisk t t' ∧ (readData false t desc offset).run UioFabric.answer f =
      if t.backend.outside offset desc.len then (.ok (t', .ioerr), f)
      else (.ok (t', .ok), guestStore f desc.addr (readBytes f.ram.image offset.toNat desc.len.toNat)) := by
  obtain ⟨t₁, hbuf, ht₁⟩ := ensureIoBuf_disk uio_host t desc.len f
  have htry : (tryMap false desc).run UioFabric.answer f = (.ok false, f) := rfl
  rw [readData, Prog.run_bind_ok htry, if_neg Bool.false_ne_true, Prog.run_bind_ok hbuf]
  dsimp only
  rw [ht₁.backend, blkdBlockRead]
  split
  · exact ⟨t₁, ht₁, rfl⟩
  · have hread : (pread offset desc.len).run UioFabric.answer f =
        (.ok (some (readBytes f.ram.image offset.toNat desc.len.toNat)), f) := rfl
    have hlen : (readBytes f.ram.image offset.toNat desc.len.toNat).length = desc.len.toNat := readBytes_length ..
    refine ⟨t₁.fill (readBytes f.ram.image offset.toNat desc.len.toNat), ht₁.trans ⟨rfl, rfl⟩, ?_⟩
    rw [Prog.run_bind_ok hread]
    dsimp only
    rw [BlkdState.fill_take t₁ hlen, Prog.run_bind_ok (dmaWrite_mapped hmap hlen)]
    rfl

theorem uio_sameReads : SameReads UioFabric.answer true false := by
  intro s t hst desc offset f
  cases hmap : (f.answer (.dmaMap desc.addr desc.len)).1 with
  | false =>
    rw [readData_unmapped hmap]
    exact readData_same uio_host hst false desc offset f
  | true =>
    obtain ⟨t', ht', hbuf⟩ := readData_buffered hmap t offset
    rw [readData_mapped hmap, hbuf, ← hst.backend]
    split
    · exact ⟨rfl, hst.trans ht', rfl⟩
    · exact ⟨rfl, hst.trans ht', rfl⟩

/-- **The two read paths agree.** Over the UIO fabric, from the same device and
fabric, `process_chain` with the direct path and without it leaves the same
guest memory (the status byte in it), image and interrupt level, and returns the
same result and used length with the same device up to the payload buffer. -/
theorem direct_read_agrees (fuel : Nat) (d : BlkdVirtioDevice) (head : UInt16) (f : UioFabric) :
    let direct := (processChain true fuel d head).run UioFabric.answer f
    let buffered := (processChain false fuel d head).run UioFabric.answer f
    direct.2 = buffered.2 ∧
      EndsAlike (fun a b => SameDevice SameDisk a.1 b.1 ∧ a.2 = b.2) direct.1 buffered.1 :=
  processChain_same uio_host uio_sameReads fuel ⟨rfl, .refl _⟩ head f

end AcsVirt.L4
