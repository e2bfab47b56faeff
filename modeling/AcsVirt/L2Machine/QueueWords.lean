import AcsVirt.L2Machine.LinuxUio

/-!
# The registers of a queue

A queue has eight registers behind the selector: its size, its ready flag and
the two halves of its three addresses. `queueWord` reads them off a queue and
`setQueueWord` is what a write of one does to it; they are independent of each
other (`queueWord_set`) and say everything about a queue but the backend's
cursor (`queue_ext`). `virtio_mmio_write` on such a register is `setQueueWord`
on the selected queue (`writeReg_queueWord`).
-/
namespace AcsVirt.L2

open MmioReg

/-! ## Halves of an address -/

def lowWord (x : UInt64) : UInt32 := x.toUInt32

def highWord (x : UInt64) : UInt32 := (x >>> 32).toUInt32

theorem lowWord_setLow (x : UInt64) (v : UInt32) : lowWord (setLow x v) = v := by
  apply UInt32.toBitVec_inj.mp
  apply BitVec.eq_of_getLsbD_eq
  intro i hi
  simp [lowWord, setLow, hi]

theorem highWord_setLow (x : UInt64) (v : UInt32) : highWord (setLow x v) = highWord x := by
  have hmask : ∀ i < 32, (18446744069414584320#64).getLsbD (32 + i) = true := by decide
  apply UInt32.toBitVec_inj.mp
  apply BitVec.eq_of_getLsbD_eq
  intro i hi
  simpa [highWord, setLow, hi] using fun _ => hmask i hi

theorem lowWord_setHigh (x : UInt64) (v : UInt32) : lowWord (setHigh x v) = lowWord x := by
  have hmask : ∀ i, (h : i < 32) → (4294967295#32)[i] = true := by decide
  apply UInt32.toBitVec_inj.mp
  apply BitVec.eq_of_getLsbD_eq
  intro i hi
  simpa [lowWord, setHigh, hi] using fun _ => hmask i hi

theorem highWord_setHigh (x : UInt64) (v : UInt32) : highWord (setHigh x v) = v := by
  have hmask : ∀ i < 32, (4294967295#64).getLsbD (32 + i) = false := by decide
  apply UInt32.toBitVec_inj.mp
  apply BitVec.eq_of_getLsbD_eq
  intro i hi
  have h64 : i < 64 := by omega
  have hsum : 32 + i < 64 := by omega
  have hge : ¬ 32 + i < 32 := by omega
  have hbit : (4294967295#64)[32 + i] = false := hmask i hi
  simp [highWord, setHigh, hi, hbit, h64, hsum, hge]

theorem words_ext {x y : UInt64} (hl : lowWord x = lowWord y) (hh : highWord x = highWord y) :
    x = y := by
  apply UInt64.toBitVec_inj.mp
  apply BitVec.eq_of_getLsbD_eq
  intro i hi
  by_cases h : i < 32
  · have := congrArg (fun w : UInt32 => w.toBitVec.getLsbD i) hl
    simpa [lowWord, h] using this
  · have := congrArg (fun w : UInt32 => w.toBitVec.getLsbD (i - 32)) hh
    have h32 : i - 32 < 32 := by omega
    have hsum : 32 + (i - 32) = i := by omega
    simpa [highWord, h32, hsum] using this

/-! ## Words of a queue -/

def queueWord (q : VirtioQueue) : MmioReg → UInt32
  | .queueNum => q.num
  | .queueReady => q.ready
  | .queueDescLow => lowWord q.desc
  | .queueDescHigh => highWord q.desc
  | .queueAvailLow => lowWord q.avail
  | .queueAvailHigh => highWord q.avail
  | .queueUsedLow => lowWord q.used
  | .queueUsedHigh => highWord q.used
  | _ => 0

def setQueueWord (q : VirtioQueue) (r : MmioReg) (v : UInt32) : VirtioQueue :=
  match r with
  | .queueNum => { q with num := v }
  | .queueReady => { q with ready := v }
  | .queueDescLow => { q with desc := setLow q.desc v }
  | .queueDescHigh => { q with desc := setHigh q.desc v }
  | .queueAvailLow => { q with avail := setLow q.avail v }
  | .queueAvailHigh => { q with avail := setHigh q.avail v }
  | .queueUsedLow => { q with used := setLow q.used v }
  | .queueUsedHigh => { q with used := setHigh q.used v }
  | _ => q

theorem queueWord_set (q : VirtioQueue) {r : MmioReg} (hr : r ∈ queueStateOffsets) (v : UInt32)
    (s : MmioReg) :
    queueWord (setQueueWord q r v) s = if s = r then v else queueWord q s := by
  simp only [queueStateOffsets, List.mem_cons, List.not_mem_nil, or_false] at hr
  rcases hr with rfl | rfl | rfl | rfl | rfl | rfl | rfl | rfl <;> cases s <;>
    simp [queueWord, setQueueWord, lowWord_setLow, highWord_setLow, lowWord_setHigh, highWord_setHigh]

theorem setQueueWord_cursor (q : VirtioQueue) (r : MmioReg) (v : UInt32) :
    (setQueueWord q r v).lastAvailIdx = q.lastAvailIdx := by
  cases r <;> rfl

theorem queue_ext {p q : VirtioQueue} (h : ∀ r ∈ queueStateOffsets, queueWord p r = queueWord q r)
    (hc : p.lastAvailIdx = q.lastAvailIdx) : p = q := by
  obtain ⟨num, ready, desc, avail, used, cursor⟩ := p
  obtain ⟨num', ready', desc', avail', used', cursor'⟩ := q
  simp only [queueStateOffsets, List.mem_cons, List.not_mem_nil, or_false, forall_eq_or_imp, forall_eq, queueWord] at h
  obtain ⟨rfl, rfl, hd, hd', ha, ha', hu, hu'⟩ := h
  obtain rfl : cursor = cursor' := hc
  rw [words_ext hd hd', words_ext ha ha', words_ext hu hu']

/-- A write of a queue register. -/
theorem writeReg_queueWord (m : VirtioMmio) {r : MmioReg} (hr : r ∈ queueStateOffsets) (v : UInt32) :
    writeReg m v r = onQueue m fun q => setQueueWord q r v := by
  simp only [queueStateOffsets, List.mem_cons, List.not_mem_nil, or_false] at hr
  rcases hr with rfl | rfl | rfl | rfl | rfl | rfl | rfl | rfl <;> rfl

theorem resetQueue_word (size : UInt32) :
    ∀ r ∈ queueStateOffsets, r ≠ .queueNum → queueWord (resetQueue size) r = 0 := by
  intro r hr hne
  simp only [queueStateOffsets, List.mem_cons, List.not_mem_nil, or_false] at hr
  rcases hr with rfl | rfl | rfl | rfl | rfl | rfl | rfl | rfl
  · exact absurd rfl hne
  all_goals simp [queueWord, resetQueue, lowWord, highWord]

/-! ## The selected queue -/

theorem onQueue_get {m : VirtioMmio} {f : VirtioQueue → VirtioQueue} {i : Nat} {p : VirtioQueue}
    (h : (onQueue m f).vdev.queues[i]? = some p) :
    ∃ p₀, m.vdev.queues[i]? = some p₀ ∧ p = if i = m.queueSel.toNat then f p₀ else p₀ := by
  rw [onQueue, List.getElem?_modify] at h
  obtain ⟨p₀, hp, rfl⟩ := Option.map_eq_some_iff.1 h
  refine ⟨p₀, hp, ?_⟩
  simp only [eq_comm]

theorem onQueue_length (m : VirtioMmio) (f : VirtioQueue → VirtioQueue) :
    (onQueue m f).vdev.queues.length = m.vdev.queues.length := List.length_modify ..

theorem onQueue_onQueue (m : VirtioMmio) (f g : VirtioQueue → VirtioQueue) :
    onQueue (onQueue m f) g = onQueue m (g ∘ f) := by
  simp only [onQueue, List.modify_modify_eq]

theorem onQueue_id (m : VirtioMmio) : onQueue m id = m := by
  simp only [onQueue, List.modify_id]

/-! ## The transport -/

/-- What a write that is no reset leaves alone. -/
theorem writeReg_frame (m : VirtioMmio) {r : MmioReg} {v : UInt32} (hv : r = .status → v ≠ 0) :
    (writeReg m v r).queueSel = (if r = .queueSel then v else m.queueSel) ∧
    (writeReg m v r).driverFeaturesSel = (if r = .driverFeaturesSel then v else m.driverFeaturesSel) ∧
    (r ≠ .driverFeatures → (writeReg m v r).vdev.driverFeatures = m.vdev.driverFeatures) ∧
    (r ∉ queueStateOffsets → (writeReg m v r).vdev.queues = m.vdev.queues) := by
  cases r with
  | status => simp [writeReg, hv rfl]
  | driverFeatures =>
    simp only [writeReg]
    split
    · simp
    · split <;> simp
  | queueNum | queueReady | queueDescLow | queueDescHigh | queueAvailLow | queueAvailHigh | queueUsedLow
  | queueUsedHigh => exact ⟨rfl, rfl, fun _ => rfl, fun h => absurd (by decide) h⟩
  | _ => exact ⟨rfl, rfl, fun _ => rfl, fun _ => rfl⟩

end AcsVirt.L2
