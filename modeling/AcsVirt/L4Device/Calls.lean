import AcsVirt.L4Device.Blkd
import AcsVirt.L4Device.Consoled

/-!
# What driver code calls, and what it leaves alone

Facts about the drivers that hold whatever the fabric, the guest and the
host answer. Chain handlers and the service loop never touch the interrupt
line; chain handlers leave the generic device state alone and, of the disk's
own, change the payload buffer only (`SameDisk`); the service loop changes
nothing in the generic state but the queues' cursors (`eraseCursors`). The
only faults are running out of fuel and, in the ring operations of a queue
whose size is a multiple of 65536, the division by zero.
-/
namespace AcsVirt.L4

open L1 L2

variable {P : Type} {χ : Fault → Prop}

def quiet : Call → Prop
  | .raiseIrq => False
  | .lowerIrq => False
  | _ => True

/-- The generic state with the backend cursors blanked. -/
def eraseCursors (v : VirtioDevice) : VirtioDevice :=
  { v with queues := v.queues.map fun q => { q with lastAvailIdx := 0 } }

theorem map_modify_of_comp {α β : Type} {f : α → α} {g : α → β} (h : ∀ a, g (f a) = g a)
    (l : List α) (i : Nat) : (l.modify i f).map g = l.map g := by
  apply List.ext_getElem?
  intro j
  simp only [List.getElem?_map, List.getElem?_modify]
  cases l[j]? with
  | none => split <;> simp
  | some a => split <;> simp [h]

theorem eraseCursors_advance (d : Device P) (i : Nat) :
    eraseCursors (d.advance i).vdev = eraseCursors d.vdev := by
  simp only [eraseCursors, Device.advance]
  rw [map_modify_of_comp]
  simp

theorem interruptStatus_of_erase {v v' : VirtioDevice} (h : eraseCursors v' = eraseCursors v) :
    v'.interruptStatus = v.interruptStatus := by
  have := congrArg VirtioDevice.interruptStatus h
  exact this

/-- Equal up to cursors: the queues have the same sizes. -/
theorem num_of_erase {d d' : Device P} (h : eraseCursors d'.vdev = eraseCursors d.vdev) (i : Nat) :
    (d'.queue i).num = (d.queue i).num := by
  have hq := congrArg (fun v => (v.queues[i]?).map VirtioQueue.num) h
  simp only [eraseCursors, List.getElem?_map, Option.map_map] at hq
  simp only [Device.queue, List.getD_eq_getElem?_getD]
  revert hq
  cases d'.vdev.queues[i]? <;> cases d.vdev.queues[i]? <;> simp

/-! ## Ring operations -/

section
variable {φ : Call → Prop} (hφ : ∀ gpa len, φ (.dmaReadInto gpa len))
include hφ

theorem virtioReadDesc_sat (q : VirtioQueue) (index : UInt16) :
    (virtioReadDesc q index).Sat φ χ fun _ => True := by
  refine Prog.Sat.bind (dmaReadInto_sat _ _ (hφ _ _)) fun r _ => ?_
  cases r <;> exact Prog.Sat.ret trivial

theorem fabricDmaReadU16_sat (gpa : UInt64) :
    (fabricDmaReadU16 gpa).Sat φ χ fun _ => True := by
  refine Prog.Sat.bind (dmaReadInto_sat _ _ (hφ _ _)) fun r _ => ?_
  cases r <;> exact Prog.Sat.ret trivial

/-- A head is found only when there is a slot to find it in. -/
theorem virtioNextAvail_sat (q : VirtioQueue) (h0 : q.num.toUInt16 = 0 → χ .divByZero) :
    (virtioNextAvail q).Sat φ χ fun r => ∀ head, r = some (some head) → q.num.toUInt16 ≠ 0 := by
  refine Prog.Sat.bind (fabricDmaReadU16_sat hφ _) fun r _ => ?_
  cases r with
  | none => exact Prog.Sat.ret fun _ h => by cases h
  | some availIdx =>
    dsimp only
    split
    · exact Prog.Sat.ret fun _ h => by cases h
    split
    · exact Prog.Sat.fault (h0 ‹_›)
    next hn =>
      refine Prog.Sat.bind (fabricDmaReadU16_sat hφ _) fun r _ => ?_
      cases r <;> exact Prog.Sat.ret fun _ _ => hn

theorem pollAvail_sat (q : VirtioQueue) (h0 : q.num.toUInt16 = 0 → χ .divByZero) (n : Nat) :
    (pollAvail q n).Sat φ χ fun r => ∀ head, r = some (some head) → q.num.toUInt16 ≠ 0 := by
  induction n with
  | zero => exact virtioNextAvail_sat hφ q h0
  | succ n ih =>
    refine Prog.Sat.bind (virtioNextAvail_sat hφ q h0) fun r hr => ?_
    split
    · exact ih
    · exact Prog.Sat.ret hr

theorem virtioAddUsed_sat (hw : ∀ gpa data, φ (.dmaWrite gpa data)) (q : VirtioQueue)
    (head : UInt16) (len : UInt32) (h0 : q.num.toUInt16 = 0 → χ .divByZero) :
    (virtioAddUsed q head len).Sat φ χ fun _ => True := by
  refine Prog.Sat.bind (fabricDmaReadU16_sat hφ _) fun r _ => ?_
  cases r with
  | none => exact Prog.Sat.ret trivial
  | some usedIdx =>
    dsimp only
    split
    · exact Prog.Sat.fault (h0 ‹_›)
    refine Prog.Sat.bind (dmaWrite_sat _ _ (hw _ _)) fun ok _ => ?_
    split
    · exact Prog.Sat.ret trivial
    refine Prog.Sat.bind (dmaWrite_sat _ _ (hw _ _)) fun ok _ => ?_
    split
    · exact Prog.Sat.ret trivial
    exact dmaWrite_sat _ _ (hw _ _)

end

/-! ## The service loop -/

/-- A chain handler: quiet, faults in `χ`, generic state untouched. -/
def QuietHandler (χ : Fault → Prop)
    (process : Device P → UInt16 → FabricM (Device P × Option UInt32)) : Prop :=
  ∀ d head, (process d head).Sat quiet χ fun r => r.1.vdev = d.vdev

/-- An acknowledged notification leaves the device as it is. -/
theorem ackReturn_sat {φ : Call → Prop} (hraise : φ .raiseIrq) (hlower : φ .lowerIrq) (d : Device P) :
    Prog.Sat (S := fabricSig) φ χ (fun r => r.1 = d) (do return (d, ← ackNotify d)) := by
  refine Prog.Sat.bind (ψ := fun _ => True) ?_ fun _ _ => Prog.Sat.ret rfl
  unfold ackNotify
  split
  · exact raiseIrq_sat hraise
  · exact lowerIrq_sat hlower

theorem serviceLoop_sat {i : Nat} {process : Device P → UInt16 → FabricM (Device P × Option UInt32)}
    (hp : QuietHandler χ process) (hf : χ .fuel) (fuel : Nat) (d : Device P) (usedAny : Bool)
    (h0 : (d.queue i).num.toUInt16 = 0 → χ .divByZero) :
    (serviceLoop i process fuel d usedAny).Sat quiet χ
      fun r => eraseCursors r.1.vdev = eraseCursors d.vdev := by
  induction fuel generalizing d usedAny with
  | zero => exact Prog.Sat.fault hf
  | succ fuel ih =>
    refine Prog.Sat.bind (pollAvail_sat (fun _ _ => trivial) _ h0 _) fun r _ => ?_
    match r with
    | none => exact Prog.Sat.ret rfl
    | some none => exact Prog.Sat.ret rfl
    | some (some head) =>
      refine Prog.Sat.bind (hp d head) fun r hr => ?_
      obtain ⟨d', r⟩ := r
      dsimp only at hr
      have he : eraseCursors d'.vdev = eraseCursors d.vdev := by rw [hr]
      have h0' : (d'.queue i).num.toUInt16 = 0 → χ .divByZero := by rw [num_of_erase he]; exact h0
      cases r with
      | none => exact Prog.Sat.ret he
      | some usedLen =>
        refine Prog.Sat.bind (virtioAddUsed_sat (fun _ _ => trivial) (fun _ _ => trivial) _ _ _ h0') fun ok _ => ?_
        have ha := (eraseCursors_advance d' i).trans he
        split
        · exact (ih (d'.advance i) true (by rw [num_of_erase (eraseCursors_advance d' i)]; exact h0')).mono
            fun r hr => hr.trans ha
        · exact Prog.Sat.ret he

/-! ## What a device's runs keep of the driver's state -/

section
variable {φ : Call → Prop} {I : P → Prop}

/-- The calls every device makes around its chain handler. -/
structure RingCalls (φ : Call → Prop) : Prop where
  read : ∀ gpa len, φ (.dmaReadInto gpa len)
  write : ∀ gpa data, φ (.dmaWrite gpa data)
  raise : φ .raiseIrq
  lower : φ .lowerIrq

variable (hφ : RingCalls φ) {process : Device P → UInt16 → FabricM (Device P × Option UInt32)}
  (hp : ∀ d head, I d.priv → (process d head).Sat φ (fun _ => True) fun r => I r.1.priv)
include hφ

theorem ackReturn_priv {d : Device P} (h : I d.priv) :
    Prog.Sat (S := fabricSig) φ (fun _ : Fault => True) (fun r => I r.1.priv) (do return (d, ← ackNotify d)) := by
  refine (ackReturn_sat hφ.raise hφ.lower d).mono fun r hr => ?_
  rw [hr]
  exact h

include hp

theorem serviceLoop_priv (i fuel : Nat) {d : Device P} (h : I d.priv) (usedAny : Bool) :
    (serviceLoop i process fuel d usedAny).Sat φ (fun _ => True) fun r => I r.1.priv := by
  induction fuel generalizing d usedAny with
  | zero => exact Prog.Sat.fault trivial
  | succ fuel ih =>
    refine Prog.Sat.bind (pollAvail_sat hφ.read _ (fun _ => trivial) _) fun r _ => ?_
    match r with
    | none => exact Prog.Sat.ret h
    | some none => exact Prog.Sat.ret h
    | some (some head) =>
      refine Prog.Sat.bind (hp d head h) fun r hr => ?_
      obtain ⟨d', r⟩ := r
      cases r with
      | none => exact Prog.Sat.ret hr
      | some usedLen =>
        refine Prog.Sat.bind (virtioAddUsed_sat hφ.read hφ.write _ _ _ fun _ => trivial) fun ok _ => ?_
        split
        · exact ih (d := d'.advance i) hr true
        · exact Prog.Sat.ret hr

theorem serviceQueue_priv (i fuel : Nat) {d : Device P} (h : I d.priv) :
    (serviceQueue i process fuel d).Sat φ (fun _ => True) fun r => I r.1.priv := by
  refine Prog.Sat.bind (serviceLoop_priv hφ hp i fuel h false) fun r hr => ?_
  obtain ⟨d', r⟩ := r
  match r with
  | none => exact Prog.Sat.ret hr
  | some true => exact Prog.Sat.bind (raiseIrq_sat hφ.raise) fun _ _ => Prog.Sat.ret hr
  | some false => exact ackReturn_priv hφ hr

omit hp

theorem mmioWrite_priv {notify : Device P → UInt32 → FabricM (Device P × Bool)}
    (hn : ∀ d queue, I d.priv → (notify d queue).Sat φ (fun _ => True) fun r => I r.1.priv)
    {b : FabricBinding P} (h : I b.priv) (offset value : UInt64) :
    (mmioWrite notify b offset value).Sat φ (fun _ => True) fun r => I r.1.priv := by
  unfold mmioWrite
  dsimp only
  split
  · split
    · exact Prog.Sat.bind (lowerIrq_sat hφ.lower) fun _ _ => Prog.Sat.ret h
    · exact Prog.Sat.ret h
  split
  · exact Prog.Sat.bind (lowerIrq_sat hφ.lower) fun _ _ => Prog.Sat.ret h
  split
  · exact Prog.Sat.bind (hn _ _ h) fun _ hr => Prog.Sat.ret hr
  · exact Prog.Sat.ret h

end

/-! ## The chain handlers -/

/-- The same driver state up to the payload buffer. -/
structure SameDisk (s t : BlkdState) : Prop where
  backend : s.backend = t.backend
  capacity : s.capacitySectors = t.capacitySectors

theorem SameDisk.refl (s : BlkdState) : SameDisk s s := ⟨rfl, rfl⟩

theorem SameDisk.trans {s t u : BlkdState} (h : SameDisk s t) (h' : SameDisk t u) : SameDisk s u :=
  ⟨h.backend.trans h'.backend, h.capacity.trans h'.capacity⟩

section
variable {φ : Call → Prop}

theorem ensureIoBuf_sat {len : UInt32} (hφ : φ (.realloc len)) (s : BlkdState) :
    (ensureIoBuf s len).Sat φ χ fun o => ∀ t, o = some t → SameDisk s t := by
  unfold ensureIoBuf
  split
  · refine Prog.Sat.ret ?_
    intro t he
    cases he
    exact .refl s
  · refine Prog.Sat.bind (realloc_sat _ hφ) fun ok _ => ?_
    split
    · refine Prog.Sat.ret ?_
      intro t he
      cases he
      exact ⟨rfl, rfl⟩
    · exact Prog.Sat.ret nofun

theorem blkdBlockRead_sat (b : BlkdBlockBackend) {offset : UInt64} {len : UInt32}
    (hφ : φ (.pread offset len)) :
    (blkdBlockRead b offset len).Sat φ χ fun _ => True := by
  unfold blkdBlockRead
  split
  · exact Prog.Sat.ret trivial
  · exact pread_sat _ _ hφ

theorem blkdBlockReadMapped_sat (b : BlkdBlockBackend) {gpa offset : UInt64} {len : UInt32}
    (hφ : φ (.preadMapped gpa offset len)) :
    (blkdBlockReadMapped b gpa offset len).Sat φ χ fun _ => True := by
  unfold blkdBlockReadMapped
  split
  · exact Prog.Sat.ret trivial
  · exact preadMapped_sat _ _ _ hφ

theorem blkdBlockWrite_sat (b : BlkdBlockBackend) {offset : UInt64} {data : Bytes}
    (hφ : φ (.pwrite offset data)) (len : UInt32) :
    (blkdBlockWrite b offset data len).Sat φ χ fun _ => True := by
  unfold blkdBlockWrite
  split
  · exact Prog.Sat.ret trivial
  · exact pwrite_sat _ _ hφ

theorem tryMap_sat (direct : Bool) {desc : VirtioDesc} (hφ : φ (.dmaMap desc.addr desc.len)) :
    (tryMap direct desc).Sat φ χ fun _ => True := by
  unfold tryMap
  split
  · exact dmaMap_sat _ _ hφ
  · exact Prog.Sat.ret trivial

theorem blkdBlockFlush_sat (req : ReqType) (hφ : φ .fsync) :
    (blkdBlockFlush req).Sat φ χ fun _ => True := by
  unfold blkdBlockFlush
  split
  · exact fsync_sat hφ
  · exact Prog.Sat.ret trivial

/-- The calls a data descriptor leads to, the write of the image apart. -/
structure DataCalls (φ : Call → Prop) (desc : VirtioDesc) : Prop where
  map : φ (.dmaMap desc.addr desc.len)
  mapped : ∀ offset, φ (.preadMapped desc.addr offset desc.len)
  realloc : φ (.realloc desc.len)
  pread : ∀ offset, φ (.pread offset desc.len)
  store : ∀ data : Bytes, data.length ≤ desc.len.toNat → φ (.dmaWrite desc.addr data)
  load : φ (.dmaReadInto desc.addr desc.len)

theorem DataCalls.quiet (desc : VirtioDesc) : DataCalls quiet desc :=
  ⟨trivial, fun _ => trivial, trivial, fun _ => trivial, fun _ _ => trivial, trivial⟩

variable {desc : VirtioDesc} (hφ : DataCalls φ desc)
include hφ

theorem readData_sat (direct : Bool) (s : BlkdState) (offset : UInt64) :
    (readData direct s desc offset).Sat φ χ fun r => SameDisk s r.1 := by
  unfold readData
  refine Prog.Sat.bind (tryMap_sat _ hφ.map) fun mapped _ => ?_
  split
  · refine Prog.Sat.bind (blkdBlockReadMapped_sat _ (hφ.mapped _)) fun ok _ => ?_
    split <;> exact Prog.Sat.ret (.refl s)
  · refine Prog.Sat.bind (ensureIoBuf_sat hφ.realloc _) fun r hr => ?_
    cases r with
    | none => exact Prog.Sat.ret (.refl s)
    | some t =>
      have hst := hr t rfl
      refine Prog.Sat.bind (blkdBlockRead_sat _ (hφ.pread _)) fun r _ => ?_
      cases r with
      | none => exact Prog.Sat.ret hst
      | some data =>
        refine Prog.Sat.bind (dmaWrite_sat _ _ (hφ.store _ (List.length_take_le _ _))) fun ok _ => ?_
        split <;> exact Prog.Sat.ret ⟨hst.backend, hst.capacity⟩

theorem writeData_sat (hw : ∀ offset data, φ (.pwrite offset data)) (s : BlkdState)
    (offset : UInt64) :
    (writeData s desc offset).Sat φ χ fun r => SameDisk s r.1 := by
  unfold writeData
  refine Prog.Sat.bind (ensureIoBuf_sat hφ.realloc _) fun r hr => ?_
  cases r with
  | none => exact Prog.Sat.ret (.refl s)
  | some t =>
    have hst := hr t rfl
    refine Prog.Sat.bind (dmaReadInto_sat _ _ hφ.load) fun r _ => ?_
    cases r with
    | none => exact Prog.Sat.ret hst
    | some data =>
      refine Prog.Sat.bind (blkdBlockWrite_sat _ (hw _ _) _) fun ok _ => ?_
      split <;> exact Prog.Sat.ret ⟨hst.backend, hst.capacity⟩

theorem dataStep_sat (hw : ∀ offset data, φ (.pwrite offset data)) (direct : Bool) (req : ReqType)
    (s : BlkdState) (offset : UInt64) (status : BlkStatus) :
    (dataStep direct req s desc offset status).Sat φ χ fun r => SameDisk s r.1 := by
  unfold dataStep
  cases req with
  | tIn =>
    dsimp only
    split
    · exact Prog.Sat.ret (.refl s)
    split
    · exact Prog.Sat.bind (readData_sat hφ _ _ _) fun _ h => Prog.Sat.ret h
    · exact Prog.Sat.ret (.refl s)
  | tOut =>
    dsimp only
    split
    · exact Prog.Sat.ret (.refl s)
    split
    · exact writeData_sat hφ hw _ _
    · exact Prog.Sat.ret (.refl s)
  | tFlush => exact Prog.Sat.ret (.refl s)
  | other => exact Prog.Sat.ret (.refl s)

omit hφ

theorem finishChain_sat (req : ReqType) (s : BlkdState) (status : BlkStatus) (dataLen : UInt32)
    (hf : φ .fsync) (hw : ∀ code, φ (.dmaWrite desc.addr [code])) :
    (finishChain req s desc status dataLen).Sat φ χ fun r => r.1 = s := by
  unfold finishChain
  refine Prog.Sat.bind (blkdBlockFlush_sat _ hf) fun flushed _ => ?_
  refine Prog.Sat.bind (dmaWrite_sat _ _ (hw _)) fun ok _ => ?_
  split <;> exact Prog.Sat.ret rfl

end

theorem chainLoop_sat (direct : Bool) (q : VirtioQueue) (req : ReqType) (offset : UInt64)
    (hf : χ .fuel) (fuel : Nat) (s : BlkdState) (index : UInt16) (chainSeen : UInt32)
    (status : BlkStatus) (dataLen : UInt32) :
    (chainLoop direct q req offset fuel s index chainSeen status dataLen).Sat quiet χ
      fun r => SameDisk s r.1 := by
  induction fuel generalizing s index chainSeen status dataLen with
  | zero => exact Prog.Sat.fault hf
  | succ fuel ih =>
    unfold chainLoop
    split
    · exact Prog.Sat.ret (.refl s)
    refine Prog.Sat.bind (virtioReadDesc_sat (fun _ _ => trivial) _ _) fun r _ => ?_
    cases r with
    | none => exact Prog.Sat.ret (.refl s)
    | some desc =>
      dsimp only
      split
      · exact Prog.Sat.ret (.refl s)
      refine Prog.Sat.bind (dataStep_sat (.quiet desc) (fun _ _ => trivial) _ _ _ _ _) fun r hr => ?_
      obtain ⟨t, r⟩ := r
      cases r with
      | none => exact Prog.Sat.ret hr
      | some status => exact (ih _ _ _ _ _).mono fun _ h => hr.trans h

theorem processChain_sat (direct : Bool) (hf : χ .fuel) (fuel : Nat) (d : BlkdVirtioDevice)
    (head : UInt16) :
    (processChain direct fuel d head).Sat quiet χ fun r => r.1.vdev = d.vdev ∧ SameDisk d.priv r.1.priv := by
  have hsame : d.vdev = d.vdev ∧ SameDisk d.priv d.priv := ⟨rfl, .refl _⟩
  refine Prog.Sat.bind (virtioReadDesc_sat (fun _ _ => trivial) _ _) fun r _ => ?_
  cases r with
  | none => exact Prog.Sat.ret hsame
  | some headerDesc =>
    dsimp only
    split
    · exact Prog.Sat.ret hsame
    refine Prog.Sat.bind (dmaReadInto_sat _ _ trivial) fun r _ => ?_
    cases r with
    | none => exact Prog.Sat.ret hsame
    | some header =>
      refine Prog.Sat.bind (chainLoop_sat _ _ _ _ hf _ _ _ _ _ _) fun r hr => ?_
      obtain ⟨s, r⟩ := r
      cases r with
      | none => exact Prog.Sat.ret ⟨rfl, hr⟩
      | some r =>
        refine Prog.Sat.bind (finishChain_sat _ _ _ _ trivial fun _ => trivial) fun _ h => Prog.Sat.ret ⟨rfl, ?_⟩
        rw [h]
        exact hr

theorem processChain_quiet (direct : Bool) (hf : χ .fuel) (fuel : Nat) :
    QuietHandler χ (processChain direct fuel) :=
  fun d head => (processChain_sat direct hf fuel d head).mono fun _ h => h.1

theorem fabricDmaRead_sat (gpa : UInt64) (len : UInt32) :
    (fabricDmaRead gpa len).Sat quiet χ fun _ => True := by
  refine Prog.Sat.bind (realloc_sat _ trivial) fun ok _ => ?_
  split
  · exact dmaReadInto_sat _ _ trivial
  · exact Prog.Sat.ret trivial

theorem txDesc_sat (desc : VirtioDesc) (total : UInt32) :
    (txDesc desc total).Sat quiet χ fun _ => True := by
  unfold txDesc
  split
  · refine Prog.Sat.bind (fabricDmaRead_sat _ _) fun r _ => ?_
    cases r with
    | none => exact Prog.Sat.ret trivial
    | some data =>
      refine Prog.Sat.bind (consoleWrite_sat _ trivial) fun ok _ => ?_
      split <;> exact Prog.Sat.ret trivial
  · exact Prog.Sat.ret trivial

theorem txLoop_sat (q : VirtioQueue) (hf : χ .fuel) (fuel : Nat) (index : UInt16) (total : UInt32) :
    (txLoop q fuel index total).Sat quiet χ fun _ => True := by
  induction fuel generalizing index total with
  | zero => exact Prog.Sat.fault hf
  | succ fuel ih =>
    refine Prog.Sat.bind (virtioReadDesc_sat (fun _ _ => trivial) _ _) fun r _ => ?_
    cases r with
    | none => exact Prog.Sat.ret trivial
    | some desc =>
      refine Prog.Sat.bind (txDesc_sat _ _) fun r _ => ?_
      cases r with
      | none => exact Prog.Sat.ret trivial
      | some total =>
        dsimp only
        split
        · exact Prog.Sat.ret trivial
        · exact ih _ _

theorem processTxChain_quiet (hf : χ .fuel) (fuel : Nat) : QuietHandler χ (processTxChain fuel) :=
  fun _ _ => Prog.Sat.bind (txLoop_sat _ hf _ _ _) fun _ _ => Prog.Sat.ret rfl

end AcsVirt.L4
