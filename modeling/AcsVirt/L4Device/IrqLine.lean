import AcsVirt.L2Machine.Ram
import AcsVirt.L4Device.Connection

/-!
# The interrupt line and the interrupt status

`interrupt_status` lives in the register model, the line in the fabric; the
binding, the service loop and the no-work acknowledgement move them
separately. `LineOk`: the line is asserted iff the VRING bit is set. The
outside is reduced to the line: `lineHandler` lets every fabric call
succeed, with any bytes as the answer of a DMA read, and the host calls
return anything, so the result is about every guest memory, image and
backend.

Every access keeps `LineOk` except one kind: an `INTERRUPT_ACK` whose mask
leaves the VRING bit out while it is set. `virtio_mmio_write` then keeps the
bit, and the binding lowers the line all the same (`step_lineOk`). So a
connection stays in `LineOk` iff each acknowledgement covers a pending bit
(`line_follows_status`). `blkd_ack_notify`, next to it, looks at the bit
before it touches the line.

The binding also looks at more of a value than the register model does, which
shows on a reset (`writes_take_low_word`).
-/
namespace AcsVirt.L4

open L2

variable {P : Type}

/-- Fabric calls succeed; the world is the interrupt line. -/
def lineHandler : Handler fabricSig Bool := fun line c r line' =>
  match c, r with
  | .raiseIrq, r => r = true ∧ line' = true
  | .lowerIrq, r => r = true ∧ line' = false
  | .dmaReadInto _ len, r => (∃ bs : Bytes, r = some bs ∧ bs.length = len.toNat) ∧ line' = line
  | .dmaWrite _ _, r => r = true ∧ line' = line
  | _, _ => line' = line

theorem lineHandler_quiet {line line' : Bool} {c : Call} {r : c.Reply} (hc : quiet c)
    (h : lineHandler line c r line') : line' = line := by
  cases c with
  | raiseIrq => exact hc.elim
  | lowerIrq => exact hc.elim
  | dmaReadInto gpa len => exact h.2
  | dmaWrite gpa data => exact h.2
  | _ => exact h

/-- The line agrees with the VRING bit. -/
def Agree (v : VirtioDevice) (line : Bool) : Prop := line = true ↔ VringPending v

theorem agree_setVring (d : Device P) : Agree d.setVring.vdev true := by
  have h : (d.vdev.interruptStatus ||| virtioInterruptVring) &&& virtioInterruptVring ≠ 0 := by
    intro h
    have hb := congrArg (fun x : UInt32 => x.toNat.testBit 0) h
    simp [virtioInterruptVring] at hb
  simpa [Agree, VringPending, Device.setVring] using h

theorem agree_of_erase {v v' : VirtioDevice} (h : eraseCursors v' = eraseCursors v) {line : Bool}
    (ha : Agree v line) : Agree v' line := by
  unfold Agree VringPending at *
  rw [interruptStatus_of_erase h]
  exact ha

/-! ## Device code -/

theorem ackNotify_agree (d : Device P) (line : Bool) :
    wp lineHandler (ackNotify d) (fun _ line' => Agree d.vdev line') line := by
  unfold ackNotify
  refine wp_ite (fun h => ?_) fun h => ?_
  · rintro r line' ⟨-, rfl⟩
    simpa [Agree] using h
  · rintro r line' ⟨-, rfl⟩
    simpa [Agree] using h

/-- The no-work answer as the notify handlers return it. -/
theorem ackReturn_agree (d : Device P) (line : Bool) :
    wp lineHandler (do return (d, ← ackNotify d))
      (fun o line' => ∀ r, o = .ok r → Agree r.1.vdev line') line := by
  refine wp_seq (ackNotify_agree d line) (fun ok line' h => ?_) (fun e line' _ r he => by cases he)
  intro r hr
  cases hr
  exact h

/-- A service run ends in agreement, whether or not it completed a chain and
whether or not it returned true. -/
theorem serviceQueue_agree {i : Nat}
    {process : Device P → UInt16 → FabricM (Device P × Option UInt32)}
    (hp : QuietHandler (fun _ => True) process) (fuel : Nat) (d : Device P) (line : Bool)
    (ha : Agree d.vdev line) :
    wp lineHandler (serviceQueue i process fuel d)
      (fun o line' => ∀ r, o = .ok r → Agree r.1.vdev line') line := by
  have hloop := (serviceLoop_sat (i := i) hp trivial fuel d false fun _ => trivial).wp
    (R := lineHandler) (I := fun l => l = line)
    (fun w c r w' hc hw hr => (lineHandler_quiet hc hr).trans hw) rfl
  refine wp_seq hloop (fun r line' h => ?_) (fun e line' _ r he => by cases he)
  obtain ⟨rfl, he⟩ := h
  obtain ⟨d', r⟩ := r
  match r with
  | none =>
    intro r hr
    cases hr
    exact agree_of_erase he ha
  | some true =>
    rintro r line' ⟨-, rfl⟩ r hr
    cases hr
    exact agree_setVring d'
  | some false => exact ackReturn_agree d' line'

theorem blkdNotify_agree (direct : Bool) (fuel : Nat) (d : BlkdVirtioDevice) (queue : UInt32)
    (line : Bool) (ha : Agree d.vdev line) :
    wp lineHandler (blkdVirtioNotifyQueue direct fuel d queue)
      (fun o line' => ∀ r, o = .ok r → Agree r.1.vdev line') line :=
  wp_ite (fun _ => ackReturn_agree d line)
    fun _ => serviceQueue_agree (processChain_quiet direct trivial fuel) fuel d line ha

theorem condNotify_agree (fuel : Nat) (d : CondVirtioDevice) (queue : UInt32) (line : Bool)
    (ha : Agree d.vdev line) :
    wp lineHandler (condVirtioNotifyQueue fuel d queue)
      (fun o line' => ∀ r, o = .ok r → Agree r.1.vdev line') line :=
  wp_ite (fun _ => ackReturn_agree d line) fun _ =>
    wp_ite (fun _ => ackReturn_agree d line) fun _ =>
      wp_ite (fun _ => ackReturn_agree d line) fun _ =>
        serviceQueue_agree (processTxChain_quiet trivial fuel) fuel d line ha

/-! ## Register writes -/

/-- Only an acknowledgement and a reset touch the interrupt status. -/
theorem writeReg_interruptStatus (m : VirtioMmio) (v : UInt32) (r : MmioReg)
    (h1 : r ≠ .interruptAck) (h2 : r = .status → v ≠ 0) :
    (writeReg m v r).vdev.interruptStatus = m.vdev.interruptStatus := by
  cases r with
  | interruptAck => exact absurd rfl h1
  | status => simp [writeReg, h2 rfl]
  | driverFeatures =>
    simp only [writeReg]
    split
    · rfl
    · split <;> rfl
  | _ => rfl

theorem virtioMmioWrite_interruptStatus (m : VirtioMmio) (offset raw : UInt64)
    (h1 : offset ≠ MmioReg.interruptAck.offset)
    (h2 : offset = MmioReg.status.offset → raw.toUInt32 ≠ 0) :
    (virtioMmioWrite m offset raw).vdev.interruptStatus = m.vdev.interruptStatus := by
  unfold virtioMmioWrite
  cases h : MmioReg.ofOffset? offset with
  | none => rfl
  | some r =>
    rw [MmioReg.ofOffset?_eq_some] at h
    subst h
    exact writeReg_interruptStatus m _ r (fun e => h1 (by rw [e])) fun e => h2 (by rw [e])

theorem virtioMmioWrite_ack (m : VirtioMmio) (raw : UInt64) :
    (virtioMmioWrite m MmioReg.interruptAck.offset raw).vdev.interruptStatus =
      m.vdev.interruptStatus &&& ~~~raw.toUInt32 := by
  unfold virtioMmioWrite
  rw [MmioReg.ofOffset?_eq_some.2 rfl]
  rfl

theorem virtioMmioWrite_reset (m : VirtioMmio) (raw : UInt64) (h : raw.toUInt32 = 0) :
    (virtioMmioWrite m MmioReg.status.offset raw).vdev.interruptStatus = 0 := by
  unfold virtioMmioWrite
  rw [MmioReg.ofOffset?_eq_some.2 rfl]
  simp [writeReg, h, virtioMmioReset, virtioDeviceReset]

/-! ## One access -/

/-- A guest write of 32 bits. -/
structure Write32 where
  offset : UInt64
  value : UInt32
  deriving DecidableEq, Repr

def LineOk (s : FabricBinding P × Bool) : Prop := Agree s.1.mmio.vdev s.2

/-- An acknowledgement made while the VRING bit is set clears it. -/
def AckCovers (s : FabricBinding P × Bool) (l : Write32) : Prop :=
  l.offset = MmioReg.interruptAck.offset → VringPending s.1.mmio.vdev →
    l.value &&& virtioInterruptVring ≠ 0

/-- The VRING bit survives an acknowledgement that leaves it out, and no other. -/
theorem ack_pending (x v : UInt32) :
    x &&& ~~~v &&& virtioInterruptVring ≠ 0 ↔
      x &&& virtioInterruptVring ≠ 0 ∧ v &&& virtioInterruptVring = 0 := by
  have key : ∀ y : UInt32, y &&& virtioInterruptVring = if y.toNat.testBit 0 then 1 else 0 := by
    intro y
    apply UInt32.toNat_inj.mp
    have e : (y &&& virtioInterruptVring).toNat = y.toNat % 2 := by
      rw [UInt32.toNat_and]
      exact Nat.and_one_is_mod _
    rw [e, Nat.testBit_zero]
    rcases Nat.mod_two_eq_zero_or_one y.toNat with h | h <;> simp [h]
  have hb : (x &&& ~~~v).toNat.testBit 0 = (x.toNat.testBit 0 && !v.toNat.testBit 0) := by
    rw [UInt32.toNat_and, Nat.testBit_and, UInt32.toNat_not]
    congr 1
    have hlt : v.toNat < 4294967296 := v.toNat_lt
    have hm : (4294967296 - 1 - v.toNat) % 2 = 1 - v.toNat % 2 := by omega
    simp only [Nat.testBit_zero, UInt32.size, hm]
    rcases Nat.mod_two_eq_zero_or_one v.toNat with h | h <;> simp [h]
  rw [key, key, key, hb]
  cases x.toNat.testBit 0 <;> cases v.toNat.testBit 0 <;> simp

theorem toUInt64_eq_zero {v : UInt32} : v.toUInt64 = 0 ↔ v = 0 := by
  constructor
  · intro h
    apply UInt32.toNat_inj.mp
    have := congrArg UInt64.toNat h
    simpa using this
  · intro he
    subst he
    rfl

section
variable {notify : Device P → UInt32 → FabricM (Device P × Bool)}
  (hn : ∀ d queue line, Agree d.vdev line →
    wp lineHandler (notify d queue) (fun o line' => ∀ r, o = .ok r → Agree r.1.vdev line') line)

include hn in
/-- What an access needs to keep the line in step with the status: nothing,
unless it is an acknowledgement. -/
theorem step_lineOk {b b' : FabricBinding P} {line line' ok : Bool} {l : Write32}
    (hi : LineOk (b, line))
    (hs : Runs lineHandler (mmioWrite notify b l.offset l.value.toUInt64) line (.ok (b', ok)) line') :
    LineOk (b', line') ↔ AckCovers (b, line) l := by
  have hv : l.value.toUInt64.toUInt32 = l.value := by simp
  by_cases hst : l.offset = MmioReg.status.offset
  · -- a reset clears both, any other status write touches neither
    have hc : AckCovers (b, line) l := fun h => absurd (hst.symm.trans h) (by decide)
    refine iff_of_true ?_ hc
    have hw : wp lineHandler (mmioWrite notify b l.offset l.value.toUInt64)
        (fun o w => ∀ r, o = .ok r → LineOk (r.1, w)) line := by
      simp only [mmioWrite, hst, if_true]
      refine wp_ite (fun h0 => ?_) fun h0 => ?_
      · rintro r line' ⟨-, rfl⟩ r hr
        cases hr
        simp [LineOk, Agree, VringPending, virtioMmioWrite_reset _ _ (hv.trans (toUInt64_eq_zero.1 h0))]
      · intro r hr
        cases hr
        simpa [LineOk, Agree, VringPending, virtioMmioWrite_interruptStatus _ _ _
          (show MmioReg.status.offset ≠ _ by decide)
          (fun _ => by rw [hv]; exact fun e => h0 (toUInt64_eq_zero.2 e))] using hi
    exact hs.of_wp hw _ rfl
  by_cases hack : l.offset = MmioReg.interruptAck.offset
  · have hw : wp lineHandler (mmioWrite notify b l.offset l.value.toUInt64)
        (fun o w => ∀ r, o = .ok r → (LineOk (r.1, w) ↔ AckCovers (b, line) l)) line := by
      rw [hack]
      simp only [mmioWrite, show MmioReg.interruptAck.offset ≠ MmioReg.status.offset by decide,
        if_false, if_true]
      rintro r line' ⟨-, rfl⟩ r hr
      cases hr
      simp only [LineOk, AckCovers, Agree, VringPending, hack, true_imp_iff, Bool.false_eq_true,
        false_iff, virtioMmioWrite_ack, hv, ack_pending, not_and]
    exact hs.of_wp hw _ rfl
  · have hc : AckCovers (b, line) l := fun h => absurd h hack
    refine iff_of_true ?_ hc
    have hkeep := virtioMmioWrite_interruptStatus b.mmio l.offset l.value.toUInt64 hack
      fun h => absurd h hst
    have hi' : Agree (virtioMmioWrite b.mmio l.offset l.value.toUInt64).vdev line := by
      simpa [LineOk, Agree, VringPending, hkeep] using hi
    have hw : wp lineHandler (mmioWrite notify b l.offset l.value.toUInt64)
        (fun o w => ∀ r, o = .ok r → LineOk (r.1, w)) line := by
      simp only [mmioWrite, hst, hack, if_false]
      refine wp_ite (fun _ => ?_) fun _ => ?_
      · refine wp_seq (hn _ _ _ hi') (fun r line' h => ?_) (fun e line' _ r he => by cases he)
        intro r' hr
        cases hr
        exact h _ rfl
      · intro r hr
        cases hr
        exact hi'
    exact hs.of_wp hw _ rfl

end

/-! ## Whole connections -/

def blkdLine (direct : Bool) (fuel : Nat) (old : BlkdState) (backend : BlkdBlockBackend) :
    LTS (FabricBinding BlkdState × Bool) Write32 :=
  connLts lineHandler (fun b l => blkdMmioWrite direct fuel b l.offset l.value.toUInt64)
    (blkdConnect old backend) false

def condLine (fuel : Nat) : LTS (FabricBinding Unit × Bool) Write32 :=
  connLts lineHandler (fun b l => condMmioWrite fuel b l.offset l.value.toUInt64) condConnect false

/-- **The line follows the status.** On either device, a connection's 32-bit
writes leave the line asserted exactly when the VRING bit is set, after
every one of them, iff every acknowledgement made while the bit was set
covers it. -/
theorem line_follows_status (fuel : Nat) :
    (∀ direct old backend tr s, (blkdLine direct fuel old backend).Trace
        (blkdConnect old backend, false) tr s →
      (((∀ p ∈ tr, LineOk p.1) ∧ LineOk s) ↔ ∀ p ∈ tr, AckCovers p.1 p.2)) ∧
    (∀ tr s, (condLine fuel).Trace (condConnect, false) tr s →
      (((∀ p ∈ tr, LineOk p.1) ∧ LineOk s) ↔ ∀ p ∈ tr, AckCovers p.1 p.2)) := by
  constructor
  · intro direct old backend tr s h
    refine LTS.Trace.all_iff (J := fun _ => True) (fun _ _ _ _ _ => trivial) ?_ h trivial ?_
    · rintro ⟨b, line⟩ l ⟨b', line'⟩ _ hi ⟨ok, hs⟩
      exact step_lineOk (blkdNotify_agree direct fuel) hi hs
    · simp [LineOk, Agree, VringPending, blkdConnect, virtioMmioInit, virtioMmioReset,
        virtioDeviceReset]
  · intro tr s h
    refine LTS.Trace.all_iff (J := fun _ => True) (fun _ _ _ _ _ => trivial) ?_ h trivial ?_
    · rintro ⟨b, line⟩ l ⟨b', line'⟩ _ hi ⟨ok, hs⟩
      exact step_lineOk (condNotify_agree fuel) hi hs
    · simp [LineOk, Agree, VringPending, condConnect, virtioMmioInit, virtioMmioReset,
        virtioDeviceReset]

/-! ## Acknowledgements with and without the bit -/

/-- A FLUSH request posted as chain 0 → 1 of a queue with its table at
0x1000 and its available ring at 0x2000. -/
def flushPosted : Ram where
  mem := memOf [(0x1001, 0x40), (0x1008, 16), (0x100c, 1), (0x100e, 1), (0x1011, 0x50), (0x1018, 1),
    (0x101c, 2), (0x2002, 1), (0x4000, 4)]
  image := fun _ => 0
  line := false
  output := []

/-- Queue set-up, a kick, and an acknowledgement. -/
def kickAndAck (mask : UInt32) : List Write32 :=
  [⟨MmioReg.queueNum.offset, 8⟩, ⟨MmioReg.queueDescLow.offset, 0x1000⟩,
    ⟨MmioReg.queueAvailLow.offset, 0x2000⟩, ⟨MmioReg.queueUsedLow.offset, 0x3000⟩,
    ⟨MmioReg.queueReady.offset, 1⟩, ⟨MmioReg.queueNotify.offset, 0⟩,
    ⟨MmioReg.interruptAck.offset, mask⟩]

theorem answer_lineHandler (canMap : UInt64 → UInt32 → Bool) (w : Ram) (c : Call) :
    lineHandler w.line c (w.answer canMap c).1 (w.answer canMap c).2.line := by
  cases c with
  | dmaReadInto gpa len => exact ⟨⟨_, rfl, by simp⟩, rfl⟩
  | raiseIrq => exact ⟨rfl, rfl⟩
  | lowerIrq => exact ⟨rfl, rfl⟩
  | dmaWrite gpa data => exact ⟨rfl, rfl⟩
  | _ => rfl

/-- Where the accesses end, as far as the line is concerned. -/
def afterKickAndAck (mask : UInt32) : Option (UInt32 × Bool) :=
  (execWrites (Ram.answer fun _ _ => false)
    (fun b (l : Write32) => blkdMmioWrite false 4 b l.offset l.value.toUInt64)
    (blkdConnect noBuffer emptyDisk, flushPosted) (kickAndAck mask)).map
      fun s => (s.1.mmio.vdev.interruptStatus, s.2.line)

theorem kickAndAck_trace {mask status : UInt32} {line : Bool}
    (he : afterKickAndAck mask = some (status, line)) :
    ∃ tr s, (blkdLine false 4 noBuffer emptyDisk).Trace (blkdConnect noBuffer emptyDisk, false) tr s ∧
      tr.map Prod.snd = kickAndAck mask ∧ s.1.mmio.vdev.interruptStatus = status ∧ s.2 = line := by
  obtain ⟨s, hs, hp⟩ := Option.map_eq_some_iff.1 he
  simp only [Prod.mk.injEq] at hp
  obtain ⟨tr, ht, hl⟩ := execWrites_trace (answer_lineHandler fun _ _ => false) (kickAndAck mask) _ s hs
  exact ⟨tr, _, ht, hl, hp.1, hp.2⟩

/-- The request completes and raises the line; acknowledging bit 1 then
lowers the line with the VRING bit still set. -/
theorem partial_ack_drops_line :
    ∃ tr s, (blkdLine false 4 noBuffer emptyDisk).Trace (blkdConnect noBuffer emptyDisk, false) tr s ∧
      tr.map Prod.snd = kickAndAck 2 ∧ VringPending s.1.mmio.vdev ∧ s.2 = false := by
  obtain ⟨tr, s, ht, hl, hv, hline⟩ :=
    kickAndAck_trace (show afterKickAndAck 2 = some (1, false) by decide +kernel)
  refine ⟨tr, s, ht, hl, ?_, hline⟩
  rw [VringPending, hv]
  decide

/-- The same accesses with the VRING bit in the mask. -/
theorem line_follows_status_full_ack :
    ∃ tr s, (blkdLine false 4 noBuffer emptyDisk).Trace (blkdConnect noBuffer emptyDisk, false) tr s ∧
      tr.map Prod.snd = kickAndAck 1 ∧ (∀ p ∈ tr, LineOk p.1) ∧ LineOk s := by
  obtain ⟨tr, s, ht, hl, -, -⟩ :=
    kickAndAck_trace (show afterKickAndAck 1 = some (0, false) by decide +kernel)
  refine ⟨tr, s, ht, hl, ((line_follows_status 4).1 false noBuffer emptyDisk tr s ht).2 ?_⟩
  intro p hp hack _
  have hmem : p.2 ∈ kickAndAck 1 := hl ▸ List.mem_map_of_mem hp
  have hmask : ∀ l ∈ kickAndAck 1, l.offset = MmioReg.interruptAck.offset →
      l.value &&& virtioInterruptVring ≠ 0 := by decide
  exact hmask _ hmem hack

/-! ## The upper half of a written value

`virtio_mmio_write` truncates the value, so a `STATUS` write resets the device
whenever its low word is zero; the binding lowers the line when the whole value
is. An 8-byte access can tell the two apart. -/

/-- The two values do the same: the same calls on every answer, the same state
and result, and if they reset the device they lower the line. -/
def WrittenAlike (write : UInt64 → UInt64 → FabricM (FabricBinding P × Bool)) (offset v v' : UInt64) :
    Prop :=
  write offset v = write offset v' ∧
  (offset = MmioReg.status.offset → v.toUInt32 = 0 →
    (∃ k, write offset v = .call .lowerIrq k) ∧ ∃ k, write offset v' = .call .lowerIrq k)

theorem virtioMmioWrite_low {v v' : UInt64} (h : v.toUInt32 = v'.toUInt32) (m : VirtioMmio)
    (offset : UInt64) :
    virtioMmioWrite m offset v = virtioMmioWrite m offset v' := by
  simp only [virtioMmioWrite, h]

section
variable {notify : Device P → UInt32 → FabricM (Device P × Bool)}

theorem mmioWrite_low_other {v v' offset : UInt64} (h : v.toUInt32 = v'.toUInt32)
    (b : FabricBinding P) (hne : offset ≠ MmioReg.status.offset) :
    mmioWrite notify b offset v = mmioWrite notify b offset v' := by
  simp only [mmioWrite, if_neg hne, virtioMmioWrite_low h, h]

/-- A `STATUS` write lowers the line iff the whole value is zero. -/
theorem mmioWrite_status_lowers (b : FabricBinding P) (v : UInt64) :
    (∃ k, mmioWrite notify b MmioReg.status.offset v = .call .lowerIrq k) ↔ v = 0 := by
  rw [mmioWrite, if_pos rfl]
  constructor
  · rintro ⟨k, hk⟩
    by_cases hv : v = 0
    · exact hv
    · rw [if_neg hv] at hk
      cases hk
  · intro hv
    rw [if_pos hv]
    exact ⟨_, rfl⟩

theorem mmioWrite_writtenAlike (b : FabricBinding P) {offset v v' : UInt64}
    (h : v.toUInt32 = v'.toUInt32) :
    WrittenAlike (mmioWrite notify b) offset v v' ↔
      (offset = MmioReg.status.offset → v.toUInt32 = 0 → v = 0 ∧ v' = 0) := by
  constructor
  · rintro ⟨-, hlow⟩ he h0
    subst he
    obtain ⟨hv, hv'⟩ := hlow rfl h0
    exact ⟨(mmioWrite_status_lowers b v).1 hv, (mmioWrite_status_lowers b v').1 hv'⟩
  · intro hc
    refine ⟨?_, ?_⟩
    · by_cases hs : offset = MmioReg.status.offset
      · by_cases h0 : v.toUInt32 = 0
        · obtain ⟨rfl, rfl⟩ := hc hs h0
          rfl
        · have hv : v ≠ 0 := fun e => h0 (by rw [e]; rfl)
          have hv' : v' ≠ 0 := fun e => h0 (by rw [h, e]; rfl)
          simp only [mmioWrite, if_pos hs, if_neg hv, if_neg hv', virtioMmioWrite_low h]
      · exact mmioWrite_low_other h b hs
    · intro he h0
      subst he
      obtain ⟨hv, hv'⟩ := hc rfl h0
      exact ⟨(mmioWrite_status_lowers b v).2 hv, (mmioWrite_status_lowers b v').2 hv'⟩

end

/-- **Writes and the low word.** On either device, in every state, two raw
values that agree modulo 2^32 do the same iff neither resets the device with a
non-zero upper half. -/
theorem writes_take_low_word (fuel : Nat) (offset v v' : UInt64) (h : v.toUInt32 = v'.toUInt32) :
    (∀ direct (b : FabricBinding BlkdState), WrittenAlike (blkdMmioWrite direct fuel b) offset v v' ↔
      (offset = MmioReg.status.offset → v.toUInt32 = 0 → v = 0 ∧ v' = 0)) ∧
    (∀ b : FabricBinding Unit, WrittenAlike (condMmioWrite fuel b) offset v v' ↔
      (offset = MmioReg.status.offset → v.toUInt32 = 0 → v = 0 ∧ v' = 0)) :=
  ⟨fun _ b => mmioWrite_writtenAlike b h, fun b => mmioWrite_writtenAlike b h⟩

/-- `QUEUE_NUM = 8` in an 8-byte access. -/
theorem writes_take_low_word_queueNum :
    WrittenAlike (blkdMmioWrite false 4 (blkdConnect noBuffer emptyDisk)) MmioReg.queueNum.offset 8 0x100000008 ∧
    WrittenAlike (condMmioWrite 4 condConnect) MmioReg.queueNum.offset 8 0x100000008 := by
  obtain ⟨hb, hc⟩ := writes_take_low_word 4 MmioReg.queueNum.offset 8 0x100000008 (by decide)
  have hne : MmioReg.queueNum.offset ≠ MmioReg.status.offset := by decide
  exact ⟨(hb false _).2 fun h => absurd h hne, (hc _).2 fun h => absurd h hne⟩

/-- `STATUS`, `INTERRUPT_STATUS` and the line after a completed request and a
`STATUS` write of `raw`. -/
def resetAfterKick (raw : UInt64) : Option (UInt32 × UInt32 × Bool) :=
  (execWrites (Ram.answer fun _ _ => false) (fun b (l : UInt64 × UInt64) => blkdMmioWrite false 4 b l.1 l.2)
    (blkdConnect noBuffer emptyDisk, flushPosted)
    (((kickAndAck 0).dropLast.map fun l => (l.offset, l.value.toUInt64)) ++ [(MmioReg.status.offset, raw)])).map
      fun s => (s.1.mmio.vdev.status, s.1.mmio.vdev.interruptStatus, s.2.line)

/-- Both values reset the device; the second leaves the line asserted. -/
theorem wide_reset_keeps_line :
    (0 : UInt64).toUInt32 = (0x100000000 : UInt64).toUInt32 ∧ resetAfterKick 0 = some (0, 0, false) ∧
    resetAfterKick 0x100000000 = some (0, 0, true) := by decide +kernel

end AcsVirt.L4
