import AcsVirt.L2Machine.Ram
import AcsVirt.L4Device.Connection

/-!
# Queue sizes and the ring divisor

`virtio_next_avail` and `virtio_add_used` reduce an index modulo
`(uint16_t)queue->num`, and `QUEUE_NUM` stores whatever the guest wrote, with
no comparison against `QUEUE_NUM_MAX`. `SizesOk` is what the ring operations
need: no queue's size is a multiple of 65536. A connect establishes it (256
entries), a reset re-establishes it, and the only access that can break it is
a `QUEUE_NUM` write whose low 16 bits are zero, while an existing queue is
selected (`SizedWrite`). Such a write does no harm by itself: only a kick of
the queue the device serves divides, and only while that queue is ready with
such a size (`SizedKick`). Any other access, and every access as long as no
such write is made, divides nothing by zero, whatever guest memory and the
host answer (`no_division_by_zero`); one such write, a ready queue and an
available index different from the backend's suffice
(`queue_num_zero_divides`).
-/
namespace AcsVirt.L4

open L2

variable {P : Type}

/-- A guest write; device code sees 64 bits of value. -/
structure Write64 where
  offset : UInt64
  value : UInt64
  deriving DecidableEq, Repr

/-- Calls are answered with anything at all. -/
def anyHandler : Handler fabricSig Unit := fun _ _ _ _ => True

/-- `n` queues, none with a size that truncates to zero, now or after a reset. -/
structure SizesOk (n : Nat) (v : VirtioDevice) : Prop where
  count : v.queues.length = n
  reset : v.queueSize.toUInt16 ≠ 0
  sizes : ∀ q ∈ v.queues, q.num.toUInt16 ≠ 0

/-- A `QUEUE_NUM` write that reaches a queue has non-zero low 16 bits. -/
def SizedWrite (s : FabricBinding P × Unit) (l : Write64) : Prop :=
  l.offset = MmioReg.queueNum.offset → s.1.mmio.queueSel.toNat < s.1.mmio.vdev.queues.length →
    l.value.toUInt32.toUInt16 ≠ 0

/-- The access does not kick queue `i` while it is ready with a size that
truncates to zero. -/
def SizedKick (i : Nat) (b : FabricBinding P) (l : Write64) : Prop :=
  l.offset = MmioReg.queueNotify.offset → l.value.toUInt32.toNat = i → (b.dev.queue i).ready ≠ 0 →
    (b.dev.queue i).num.toUInt16 ≠ 0

/-! ## Register writes -/

theorem SizesOk.queue {n : Nat} {d : Device P} (h : SizesOk n d.vdev) {i : Nat} (hi : i < n) :
    (d.queue i).num.toUInt16 ≠ 0 := by
  have hlt : i < d.vdev.queues.length := by rw [h.count]; exact hi
  rw [Device.queue, List.getD_eq_getElem _ _ hlt]
  exact h.sizes _ (List.getElem_mem hlt)

/-- An update of the selected queue that keeps its size good. -/
theorem SizesOk.onQueue {n : Nat} {m : VirtioMmio} {f : VirtioQueue → VirtioQueue}
    (h : SizesOk n m.vdev)
    (hf : m.queueSel.toNat < m.vdev.queues.length → ∀ q, q.num.toUInt16 ≠ 0 → (f q).num.toUInt16 ≠ 0) :
    SizesOk n (onQueue m f).vdev := by
  refine ⟨by simpa [L2.onQueue] using h.count, h.reset, fun q hq => ?_⟩
  obtain ⟨j, hj⟩ := List.mem_iff_getElem?.1 hq
  simp only [L2.onQueue, List.getElem?_modify] at hj
  obtain ⟨q₀, hq₀, rfl⟩ := Option.map_eq_some_iff.1 hj
  have hmem := List.mem_of_getElem? hq₀
  split
  · rename_i hsel
    have hlt := (List.getElem?_eq_some_iff.1 hq₀).1
    exact hf (hsel ▸ hlt) q₀ (h.sizes q₀ hmem)
  · exact h.sizes q₀ hmem

theorem SizesOk.reset_sizes {n : Nat} {v : VirtioDevice} (h : SizesOk n v) :
    SizesOk n (virtioDeviceReset v) := by
  refine ⟨by simpa [virtioDeviceReset] using h.count, h.reset, fun q hq => ?_⟩
  obtain ⟨_, -, rfl⟩ := List.mem_map.1 hq
  exact h.reset

theorem SizesOk.writeReg {n : Nat} {m : VirtioMmio} (h : SizesOk n m.vdev) (v : UInt32)
    (r : MmioReg) (hv : r = .queueNum → m.queueSel.toNat < m.vdev.queues.length → v.toUInt16 ≠ 0) :
    SizesOk n (writeReg m v r).vdev := by
  cases r with
  | queueNum => exact h.onQueue fun hlt _ _ => hv rfl hlt
  | queueReady => exact h.onQueue fun _ _ hq => hq
  | queueDescLow => exact h.onQueue fun _ _ hq => hq
  | queueDescHigh => exact h.onQueue fun _ _ hq => hq
  | queueAvailLow => exact h.onQueue fun _ _ hq => hq
  | queueAvailHigh => exact h.onQueue fun _ _ hq => hq
  | queueUsedLow => exact h.onQueue fun _ _ hq => hq
  | queueUsedHigh => exact h.onQueue fun _ _ hq => hq
  | status =>
    simp only [L2.writeReg]
    split
    · exact h.reset_sizes
    · exact ⟨h.count, h.reset, h.sizes⟩
  | driverFeatures =>
    simp only [L2.writeReg]
    split
    · exact ⟨h.count, h.reset, h.sizes⟩
    · split
      · exact ⟨h.count, h.reset, h.sizes⟩
      · exact h
  | interruptAck => exact ⟨h.count, h.reset, h.sizes⟩
  | _ => exact h

theorem SizesOk.virtioMmioWrite {n : Nat} {m : VirtioMmio} (h : SizesOk n m.vdev)
    (offset raw : UInt64)
    (hv : offset = MmioReg.queueNum.offset → m.queueSel.toNat < m.vdev.queues.length →
      raw.toUInt32.toUInt16 ≠ 0) : SizesOk n (virtioMmioWrite m offset raw).vdev := by
  unfold L2.virtioMmioWrite
  cases hr : MmioReg.ofOffset? offset with
  | none => exact h
  | some r =>
    rw [MmioReg.ofOffset?_eq_some] at hr
    exact h.writeReg _ r fun e => hv (by rw [← hr, e])

/-- Moving cursors does not change sizes. -/
theorem SizesOk.of_erase {n : Nat} {v v' : VirtioDevice} (h : SizesOk n v)
    (he : eraseCursors v' = eraseCursors v) : SizesOk n v' := by
  have hq := congrArg (fun v => v.queues.map VirtioQueue.num) he
  simp only [eraseCursors, List.map_map, Function.comp_def] at hq
  refine ⟨?_, ?_, fun q hmem => ?_⟩
  · have := congrArg List.length hq
    simpa [h.count] using this
  · have := congrArg VirtioDevice.queueSize he
    simp only [eraseCursors] at this
    rw [this]
    exact h.reset
  · have hn : q.num ∈ v'.queues.map VirtioQueue.num := List.mem_map_of_mem hmem
    rw [hq] at hn
    obtain ⟨q', hm, hn⟩ := List.mem_map.1 hn
    rw [← hn]
    exact h.sizes q' hm

/-! ## Device code -/

def anyCall : Call → Prop := fun _ => True

/-- Code of the device `d` that cannot divide by zero and leaves good sizes good. -/
def Sized (d : Device P) (p : FabricM (Device P × Bool)) : Prop :=
  p.Sat anyCall (· ≠ .divByZero) fun r => ∀ n, SizesOk n d.vdev → SizesOk n r.1.vdev

theorem ackReturn_sized (d : Device P) : Sized d (do return (d, ← ackNotify d)) := by
  refine (ackReturn_sat trivial trivial d).mono fun r hr n h => ?_
  rw [hr]
  exact h

theorem serviceQueue_sized {i : Nat} {process : Device P → UInt16 → FabricM (Device P × Option UInt32)}
    (hp : QuietHandler (· ≠ .divByZero) process) (fuel : Nat) {d : Device P}
    (h : (d.queue i).num.toUInt16 ≠ 0) : Sized d (serviceQueue i process fuel d) := by
  have hloop := serviceLoop_sat (i := i) hp (by decide) fuel d false fun h0 => absurd h0 h
  refine Prog.Sat.bind (hloop.weaken fun _ _ => trivial) fun r hr => ?_
  obtain ⟨d', r⟩ := r
  have h' : ∀ n, SizesOk n d.vdev → SizesOk n d'.vdev := fun n hs => hs.of_erase hr
  match r with
  | none => exact Prog.Sat.ret h'
  | some true =>
    refine Prog.Sat.bind (raiseIrq_sat trivial) fun _ _ => Prog.Sat.ret fun n hs => ?_
    exact ⟨(h' n hs).count, (h' n hs).reset, (h' n hs).sizes⟩
  | some false => exact (ackReturn_sized d').mono fun r hr n hs => hr n (h' n hs)

theorem blkdNotify_sized (direct : Bool) (fuel : Nat) {d : BlkdVirtioDevice} (queue : UInt32)
    (h : queue.toNat = 0 → (d.queue 0).ready ≠ 0 → (d.queue 0).num.toUInt16 ≠ 0) :
    Sized d (blkdVirtioNotifyQueue direct fuel d queue) := by
  unfold blkdVirtioNotifyQueue
  split
  · exact ackReturn_sized d
  · rename_i hq
    rw [not_or, not_not] at hq
    exact serviceQueue_sized (processChain_quiet direct (by decide) fuel) fuel (h (by rw [hq.1]; rfl) hq.2)

theorem condNotify_sized (fuel : Nat) {d : CondVirtioDevice} (queue : UInt32)
    (h : queue.toNat = 1 → (d.queue 1).ready ≠ 0 → (d.queue 1).num.toUInt16 ≠ 0) :
    Sized d (condVirtioNotifyQueue fuel d queue) := by
  unfold condVirtioNotifyQueue
  split
  · exact ackReturn_sized d
  split
  · exact ackReturn_sized d
  split
  · exact ackReturn_sized d
  · rename_i hcount hready hne
    have hone : queue.toNat = 1 := by
      have hpos : queue.toNat ≠ 0 := fun e => hne (UInt32.toNat_inj.1 e)
      rw [condQueueCount] at hcount
      omega
    rw [hone] at hready ⊢
    exact serviceQueue_sized (processTxChain_quiet (by decide) fuel) fuel (h hone hready)

/-- One access: no division by zero if it is not a kick of a zero size, and
good sizes stay good if it does not write one. -/
theorem mmioWrite_sized {i : Nat} {notify : Device P → UInt32 → FabricM (Device P × Bool)}
    (hn : ∀ d queue, (queue.toNat = i → (d.queue i).ready ≠ 0 → (d.queue i).num.toUInt16 ≠ 0) →
      Sized d (notify d queue)) {b : FabricBinding P} {l : Write64} (hk : SizedKick i b l) :
    (mmioWrite notify b l.offset l.value).Sat anyCall (· ≠ .divByZero)
      fun r => ∀ n, SizesOk n b.mmio.vdev → SizedWrite (b, ()) l → SizesOk n r.1.mmio.vdev := by
  have hw : ∀ n, SizesOk n b.mmio.vdev → SizedWrite (b, ()) l →
      SizesOk n (virtioMmioWrite b.mmio l.offset l.value).vdev := fun _ h hl => h.virtioMmioWrite _ _ hl
  unfold mmioWrite
  dsimp only
  split
  · split
    · exact Prog.Sat.bind (lowerIrq_sat trivial) fun _ _ => Prog.Sat.ret hw
    · exact Prog.Sat.ret hw
  split
  · exact Prog.Sat.bind (lowerIrq_sat trivial) fun _ _ => Prog.Sat.ret hw
  split
  · rename_i hq
    rw [hq, virtioMmioWrite_notify]
    exact Prog.Sat.bind (hn _ _ (hk hq)) fun r hr => Prog.Sat.ret fun n hs _ => hr n hs
  · exact Prog.Sat.ret hw

/-! ## Whole connections -/

def blkdAny (direct : Bool) (fuel : Nat) (old : BlkdState) (backend : BlkdBlockBackend) :
    LTS (FabricBinding BlkdState × Unit) Write64 :=
  connLts anyHandler (fun b l => blkdMmioWrite direct fuel b l.offset l.value)
    (blkdConnect old backend) ()

def condAny (fuel : Nat) : LTS (FabricBinding Unit × Unit) Write64 :=
  connLts anyHandler (fun b l => condMmioWrite fuel b l.offset l.value) condConnect ()

section
variable {n i : Nat} {notify : Device P → UInt32 → FabricM (Device P × Bool)} {b₀ : FabricBinding P}
  (hn : ∀ d queue, (queue.toNat = i → (d.queue i).ready ≠ 0 → (d.queue i).num.toUInt16 ≠ 0) →
    Sized d (notify d queue))

theorem SizesOk.kick {b : FabricBinding P} (h : SizesOk n b.mmio.vdev) (hi : i < n) (l : Write64) :
    SizedKick i b l := fun _ _ _ => SizesOk.queue (d := b.dev) h hi

include hn in
theorem no_fault_of_sized {b : FabricBinding P} (l : Write64) (hk : SizedKick i b l) :
    ¬Runs anyHandler (mmioWrite notify b l.offset l.value) () (.error .divByZero) () :=
  fun hr => (mmioWrite_sized hn hk).outcome hr rfl

include hn in
theorem trace_sizes (hi : i < n) {s s' : FabricBinding P × Unit}
    {tr : List ((FabricBinding P × Unit) × Write64)}
    (h : (connLts anyHandler (fun b (l : Write64) => mmioWrite notify b l.offset l.value) b₀ ()).Trace
      s tr s') (hs : SizesOk n s.1.mmio.vdev) (hw : ∀ p ∈ tr, SizedWrite p.1 p.2) :
    SizesOk n s'.1.mmio.vdev := by
  induction h with
  | nil => exact hs
  | @cons s s₁ s₂ l tr hstep _ ih =>
    obtain ⟨ok, hr⟩ := hstep
    have hsat := (mmioWrite_sized hn (hs.kick hi l)).outcome hr
    exact ih (hsat n hs (hw _ List.mem_cons_self)) fun p hp => hw p (List.mem_cons_of_mem _ hp)

end

theorem blkdConnect_sizes (old : BlkdState) (backend : BlkdBlockBackend) :
    SizesOk 1 (blkdConnect old backend).mmio.vdev :=
  have h : SizesOk 1 (virtioMmioInit
      (virtioDeviceInit virtioIdBlock virtioVendorIdLocal 1 blkdQueueSize)).vdev :=
    ⟨rfl, by decide, by decide⟩
  h

theorem condConnect_sizes : SizesOk condQueueCount condConnect.mmio.vdev :=
  ⟨rfl, by decide, by decide⟩

/-- **No division by zero.** On either device, at any point of a connection,
no access of any offset and value divides by zero, whatever the fabric and
the host answer, unless it kicks the served queue (0 of the block device, 1 of
the console) while that is ready with a size whose low 16 bits are zero. If
every `QUEUE_NUM` write so far that reached a queue had non-zero low 16 bits,
every queue has a non-zero divisor and no access at all divides by zero. -/
theorem no_division_by_zero (fuel : Nat) :
    (∀ direct old backend tr s,
      (blkdAny direct fuel old backend).Trace (blkdConnect old backend, ()) tr s →
      (∀ l : Write64, SizedKick 0 s.1 l →
        ¬Runs anyHandler (blkdMmioWrite direct fuel s.1 l.offset l.value) () (.error .divByZero) ()) ∧
      ((∀ p ∈ tr, SizedWrite p.1 p.2) →
        (∀ q ∈ s.1.mmio.vdev.queues, q.num.toUInt16 ≠ 0) ∧
        ∀ l : Write64, ¬Runs anyHandler (blkdMmioWrite direct fuel s.1 l.offset l.value) ()
          (.error .divByZero) ())) ∧
    (∀ tr s, (condAny fuel).Trace (condConnect, ()) tr s →
      (∀ l : Write64, SizedKick 1 s.1 l →
        ¬Runs anyHandler (condMmioWrite fuel s.1 l.offset l.value) () (.error .divByZero) ()) ∧
      ((∀ p ∈ tr, SizedWrite p.1 p.2) →
        (∀ q ∈ s.1.mmio.vdev.queues, q.num.toUInt16 ≠ 0) ∧
        ∀ l : Write64, ¬Runs anyHandler (condMmioWrite fuel s.1 l.offset l.value) ()
          (.error .divByZero) ())) := by
  constructor
  · intro direct old backend tr s h
    have hn := fun d queue => blkdNotify_sized direct fuel (d := d) queue
    refine ⟨no_fault_of_sized hn, fun hw => ?_⟩
    have hs := trace_sizes hn Nat.zero_lt_one h (blkdConnect_sizes old backend) hw
    exact ⟨hs.sizes, fun l => no_fault_of_sized hn l (hs.kick Nat.zero_lt_one l)⟩
  · intro tr s h
    have hn := fun d queue => condNotify_sized fuel (d := d) queue
    refine ⟨no_fault_of_sized hn, fun hw => ?_⟩
    have hs := trace_sizes hn Nat.one_lt_two h condConnect_sizes hw
    exact ⟨hs.sizes, fun l => no_fault_of_sized hn l (hs.kick Nat.one_lt_two l)⟩

/-! ## A size of zero -/

/-- One entry in an available ring at address 0. -/
def onePosted : Ram := ⟨memOf [(2, 1)], fun _ => 0, false, []⟩

def readyWith (num : UInt64) : List Write64 :=
  [⟨MmioReg.queueNum.offset, num⟩, ⟨MmioReg.queueReady.offset, 1⟩]

/-- Set the queue size, make the queue ready, and look at how a kick then ends. -/
def kickAfter (num : UInt64) : Option (Option Fault) :=
  (execWrites (Ram.answer fun _ _ => false)
    (fun b (l : Write64) => blkdMmioWrite false 1 b l.offset l.value)
    (blkdConnect noBuffer emptyDisk, onePosted) (readyWith num)).map fun s =>
      match ((blkdMmioWrite false 1 s.1 MmioReg.queueNotify.offset 0).run (S := fabricSig)
        (Ram.answer fun _ _ => false) s.2).1 with
      | .ok _ => none
      | .error e => some e

/-- `QUEUE_NUM = 0`, `QUEUE_READY = 1`, and a kick with one posted entry. -/
theorem queue_num_zero_divides :
    ∃ tr s, (blkdAny false 1 noBuffer emptyDisk).Trace (blkdConnect noBuffer emptyDisk, ()) tr s ∧
      tr.map Prod.snd = readyWith 0 ∧
      Runs anyHandler (blkdMmioWrite false 1 s.1 MmioReg.queueNotify.offset 0) ()
        (.error .divByZero) () := by
  have he : kickAfter 0 = some (some .divByZero) := by decide +kernel
  obtain ⟨s, hs, hf⟩ := Option.map_eq_some_iff.1 he
  obtain ⟨tr, ht, hl⟩ := execWrites_trace (R := anyHandler) (π := fun _ => ()) (fun _ _ => trivial)
    (readyWith 0) _ s hs
  have hrun := Runs.of_run (R := anyHandler) (h := Ram.answer fun _ _ => false) (π := fun _ => ())
    (fun _ _ => trivial) (blkdMmioWrite false 1 s.1 MmioReg.queueNotify.offset 0) s.2
  refine ⟨tr, _, ht, hl, ?_⟩
  split at hf
  · cases hf
  · rename_i e hrs
    cases hf
    rwa [hrs] at hrun

/-- The same accesses with a queue of eight entries, set at once or after a
size of zero. -/
theorem no_division_by_zero_eight :
    (∃ tr s, (blkdAny false 1 noBuffer emptyDisk).Trace (blkdConnect noBuffer emptyDisk, ()) tr s ∧
      tr.map Prod.snd = readyWith 8 ∧
      ¬Runs anyHandler (blkdMmioWrite false 1 s.1 MmioReg.queueNotify.offset 0) () (.error .divByZero) ()) ∧
    ∃ tr s, (blkdAny false 1 noBuffer emptyDisk).Trace (blkdConnect noBuffer emptyDisk, ()) tr s ∧
      tr.map Prod.snd = readyWith 0 ++ readyWith 8 ∧
      ¬Runs anyHandler (blkdMmioWrite false 1 s.1 MmioReg.queueNotify.offset 0) () (.error .divByZero) () := by
  constructor
  · have he : kickAfter 8 = some none := by decide +kernel
    obtain ⟨s, hs, -⟩ := Option.map_eq_some_iff.1 he
    obtain ⟨tr, ht, hl⟩ := execWrites_trace (R := anyHandler) (π := fun _ => ()) (fun _ _ => trivial)
      (readyWith 8) _ s hs
    refine ⟨tr, _, ht, hl, (((no_division_by_zero 1).1 false noBuffer emptyDisk tr _ ht).2 ?_).2
      ⟨MmioReg.queueNotify.offset, 0⟩⟩
    intro p hp hnum _
    have hmem : p.2 ∈ readyWith 8 := hl ▸ List.mem_map_of_mem hp
    have hsize : ∀ l ∈ readyWith 8, l.offset = MmioReg.queueNum.offset →
        l.value.toUInt32.toUInt16 ≠ 0 := by decide
    exact hsize _ hmem hnum
  · have he : ∃ s ∈ execWrites (Ram.answer fun _ _ => false)
        (fun b (l : Write64) => blkdMmioWrite false 1 b l.offset l.value)
        (blkdConnect noBuffer emptyDisk, onePosted) (readyWith 0 ++ readyWith 8),
        (s.1.dev.queue 0).num.toUInt16 ≠ 0 := by decide +kernel
    obtain ⟨s, hs, hnum⟩ := he
    obtain ⟨tr, ht, hl⟩ := execWrites_trace (R := anyHandler) (π := fun _ => ()) (fun _ _ => trivial)
      (readyWith 0 ++ readyWith 8) _ s hs
    exact ⟨tr, _, ht, hl, ((no_division_by_zero 1).1 false noBuffer emptyDisk tr _ ht).1
      ⟨MmioReg.queueNotify.offset, 0⟩ fun _ _ _ => hnum⟩

end AcsVirt.L4
