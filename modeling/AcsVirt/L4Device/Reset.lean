import AcsVirt.L4Device.IrqLine

/-!
# A reset leaves no residue

What a device does after the guest has written 0 to `STATUS` is what a freshly
connected one would do. The reset restores the transport and the generic state
(`reset_mmio`: everything else in it is fixed by the connection), but the block
driver's payload buffer survives it on purpose. So the two devices are not in
the same state; they are in the same state up to the buffer (`SameDisk`), and
every function of the driver, run on two such states under the same guest and
host, makes the same calls and returns the same results (`SameRun`): a byte of
the buffer is sent only after it was overwritten.

Guest, fabric and host are one evaluation `h` of the calls, with any state. It
is asked for what the C code relies on: `realloc` succeeds and is not observed,
and a read that succeeds returns as many bytes as were asked for (`Host`).
-/
namespace AcsVirt.L4

open L1 L2

variable {P W : Type}

/-- What is assumed of the calls. -/
structure Host (h : W → (c : Call) → c.Reply × W) : Prop where
  realloc : ∀ w len, h w (.realloc len) = (true, w)
  dmaRead : ∀ w gpa len bs, (h w (.dmaReadInto gpa len)).1 = some bs → bs.length = len.toNat
  pread : ∀ w offset len bs, (h w (.pread offset len)).1 = some bs → bs.length = len.toNat

theorem SameDisk.symm {s t : BlkdState} (h : SameDisk s t) : SameDisk t s :=
  ⟨h.backend.symm, h.capacity.symm⟩

theorem SameDisk.fill {s t : BlkdState} (h : SameDisk s t) (data : Bytes) :
    SameDisk (s.fill data) (t.fill data) :=
  ⟨h.backend, h.capacity⟩

/-! ## The payload buffer -/

section
variable {h : W → (c : Call) → c.Reply × W} (hh : Host h)
include hh

/-- The buffer is there, however large it was. -/
theorem ensureIoBuf_disk (s : BlkdState) (len : UInt32) (w : W) :
    ∃ t, (ensureIoBuf s len).run (S := fabricSig) h w = (.ok (some t), w) ∧ SameDisk s t := by
  unfold ensureIoBuf
  split
  · exact ⟨s, rfl, rfl, rfl⟩
  · have hr := hh.realloc w len
    have hcall : (Prog.perform (S := fabricSig) (F := Fault) (.realloc len)).run h w = (.ok true, w) := by
      show (Except.ok (h w (.realloc len)).1, (h w (.realloc len)).2) = _
      rw [hr]
    exact ⟨_, (Prog.run_bind_ok hcall).trans rfl, rfl, rfl⟩

theorem ensureIoBuf_same {s t : BlkdState} (hst : SameDisk s t) (len : UInt32) :
    SameRun (S := fabricSig) h (fun a b => ∃ s' t', a = some s' ∧ b = some t' ∧ SameDisk s' t')
      (ensureIoBuf s len) (ensureIoBuf t len) := by
  intro w
  obtain ⟨s', hs, hs'⟩ := ensureIoBuf_disk hh s len w
  obtain ⟨t', ht, ht'⟩ := ensureIoBuf_disk hh t len w
  rw [hs, ht]
  exact ⟨rfl, s', t', rfl, rfl, hs'.symm.trans (hst.trans ht')⟩

/-! ## The driver -/

theorem blkdBlockRead_same (b : BlkdBlockBackend) (offset : UInt64) (len : UInt32) :
    SameRun (S := fabricSig) h (fun r r' => r = r' ∧ ∀ bs, r = some bs → bs.length = len.toNat)
      (blkdBlockRead b offset len) (blkdBlockRead b offset len) := by
  unfold blkdBlockRead
  split
  · exact .ret ⟨rfl, nofun⟩
  · exact .perform (S := fabricSig) (c := .pread offset len) fun w => hh.pread w offset len

theorem dmaReadInto_same (gpa : UInt64) (len : UInt32) :
    SameRun (S := fabricSig) h (fun r r' => r = r' ∧ ∀ bs, r = some bs → bs.length = len.toNat)
      (dmaReadInto gpa len) (dmaReadInto gpa len) :=
  .perform (S := fabricSig) (c := .dmaReadInto gpa len) fun w => hh.dmaRead w gpa len

theorem readData_same {s t : BlkdState} (hst : SameDisk s t) (direct : Bool) (desc : VirtioDesc)
    (offset : UInt64) :
    SameRun (S := fabricSig) h (fun a b => SameDisk a.1 b.1 ∧ a.2 = b.2)
      (readData direct s desc offset) (readData direct t desc offset) := by
  unfold readData
  refine .after fun mapped => ?_
  split
  · rw [hst.backend]
    refine .after fun ok => ?_
    split <;> exact .ret ⟨hst, rfl⟩
  · refine (ensureIoBuf_same hh hst desc.len).bind ?_
    rintro _ _ ⟨s', t', rfl, rfl, hst'⟩
    dsimp only
    rw [hst'.backend]
    refine (blkdBlockRead_same hh _ _ _).bind ?_
    rintro r _ ⟨rfl, hlen⟩
    cases r with
    | none => exact .ret ⟨hst', rfl⟩
    | some data =>
      dsimp only
      rw [BlkdState.fill_take s' (hlen data rfl), BlkdState.fill_take t' (hlen data rfl)]
      refine .after fun ok => ?_
      split <;> exact .ret ⟨hst'.fill data, rfl⟩

theorem writeData_same {s t : BlkdState} (hst : SameDisk s t) (desc : VirtioDesc) (offset : UInt64) :
    SameRun (S := fabricSig) h (fun a b => SameDisk a.1 b.1 ∧ a.2 = b.2)
      (writeData s desc offset) (writeData t desc offset) := by
  unfold writeData
  refine (ensureIoBuf_same hh hst desc.len).bind ?_
  rintro _ _ ⟨s', t', rfl, rfl, hst'⟩
  dsimp only
  refine (dmaReadInto_same hh desc.addr desc.len).bind ?_
  rintro r _ ⟨rfl, hlen⟩
  cases r with
  | none => exact .ret ⟨hst', rfl⟩
  | some data =>
    dsimp only
    rw [BlkdState.fill_take s' (hlen data rfl), BlkdState.fill_take t' (hlen data rfl),
      show (s'.fill data).backend = (t'.fill data).backend from hst'.backend]
    refine .after fun ok => ?_
    split <;> exact .ret ⟨hst'.fill data, rfl⟩

omit hh in
theorem finishChain_same {s t : BlkdState} (hst : SameDisk s t) (req : ReqType) (desc : VirtioDesc)
    (status : BlkStatus) (dataLen : UInt32) :
    SameRun (S := fabricSig) h (fun a b => SameDisk a.1 b.1 ∧ a.2 = b.2)
      (finishChain req s desc status dataLen) (finishChain req t desc status dataLen) := by
  unfold finishChain
  refine .after fun flushed => .after fun ok => ?_
  split <;> exact .ret ⟨hst, rfl⟩

/-- Two devices that differ in what `ρ` leaves open of the driver's state. -/
structure SameDevice (ρ : P → P → Prop) (d e : Device P) : Prop where
  vdev : d.vdev = e.vdev
  priv : ρ d.priv e.priv

omit hh in
theorem SameDevice.queue {ρ : P → P → Prop} {d e : Device P} (hde : SameDevice ρ d e) (i : Nat) :
    d.queue i = e.queue i := by
  rw [Device.queue, Device.queue, hde.vdev]

omit hh in
theorem SameDevice.advance {ρ : P → P → Prop} {d e : Device P} (hde : SameDevice ρ d e) (i : Nat) :
    SameDevice ρ (d.advance i) (e.advance i) :=
  ⟨by rw [Device.advance, Device.advance, hde.vdev], hde.priv⟩

omit hh in
theorem SameDevice.setVring {ρ : P → P → Prop} {d e : Device P} (hde : SameDevice ρ d e) :
    SameDevice ρ d.setVring e.setVring :=
  ⟨by rw [Device.setVring, Device.setVring, hde.vdev], hde.priv⟩

/-- Two ways to read the image into a descriptor that are interchangeable; a
run of the driver is then the same with either. -/
def SameReads (h : W → (c : Call) → c.Reply × W) (direct direct' : Bool) : Prop :=
  ∀ s t : BlkdState, SameDisk s t → ∀ desc offset,
    SameRun (S := fabricSig) h (fun a b => SameDisk a.1 b.1 ∧ a.2 = b.2)
      (readData direct s desc offset) (readData direct' t desc offset)

theorem sameReads_refl (direct : Bool) : SameReads h direct direct :=
  fun _ _ hst desc offset => readData_same hh hst direct desc offset

section
variable {direct direct' : Bool} (hread : SameReads h direct direct')
include hread

theorem dataStep_same {s t : BlkdState} (hst : SameDisk s t) (req : ReqType) (desc : VirtioDesc)
    (offset : UInt64) (status : BlkStatus) :
    SameRun (S := fabricSig) h (fun a b => SameDisk a.1 b.1 ∧ a.2 = b.2)
      (dataStep direct req s desc offset status) (dataStep direct' req t desc offset status) := by
  unfold dataStep
  cases req with
  | tIn =>
    dsimp only
    split
    · exact .ret ⟨hst, rfl⟩
    split
    · refine (hread s t hst desc offset).bind fun a b hab => ?_
      exact .ret ⟨hab.1, congrArg some hab.2⟩
    · exact .ret ⟨hst, rfl⟩
  | tOut =>
    dsimp only
    split
    · exact .ret ⟨hst, rfl⟩
    split
    · exact writeData_same hh hst desc offset
    · exact .ret ⟨hst, rfl⟩
  | tFlush => exact .ret ⟨hst, rfl⟩
  | other => exact .ret ⟨hst, rfl⟩

theorem chainLoop_same (q : VirtioQueue) (req : ReqType) (offset : UInt64) (fuel : Nat)
    {s t : BlkdState} (hst : SameDisk s t) (index : UInt16) (chainSeen : UInt32)
    (status : BlkStatus) (dataLen : UInt32) :
    SameRun (S := fabricSig) h (fun a b => SameDisk a.1 b.1 ∧ a.2 = b.2)
      (chainLoop direct q req offset fuel s index chainSeen status dataLen)
      (chainLoop direct' q req offset fuel t index chainSeen status dataLen) := by
  induction fuel generalizing s t index chainSeen status dataLen with
  | zero => exact .fault _
  | succ fuel ih =>
    unfold chainLoop
    split
    · exact .ret ⟨hst, rfl⟩
    refine .after fun r => ?_
    cases r with
    | none => exact .ret ⟨hst, rfl⟩
    | some desc =>
      dsimp only
      split
      · exact .ret ⟨hst, rfl⟩
      refine (dataStep_same hh hread hst req desc _ status).bind ?_
      rintro ⟨s', r⟩ ⟨t', r'⟩ ⟨hst', hr⟩
      obtain rfl : r = r' := hr
      cases r with
      | none => exact .ret ⟨hst', rfl⟩
      | some status => exact ih hst' _ _ _ _

theorem processChain_same (fuel : Nat) {d e : BlkdVirtioDevice} (hde : SameDevice SameDisk d e)
    (head : UInt16) :
    SameRun (S := fabricSig) h (fun a b => SameDevice SameDisk a.1 b.1 ∧ a.2 = b.2)
      (processChain direct fuel d head) (processChain direct' fuel e head) := by
  unfold processChain
  rw [hde.queue]
  refine .after fun r => ?_
  cases r with
  | none => exact .ret ⟨hde, rfl⟩
  | some headerDesc =>
    dsimp only
    split
    · exact .ret ⟨hde, rfl⟩
    refine .after fun r => ?_
    cases r with
    | none => exact .ret ⟨hde, rfl⟩
    | some header =>
      dsimp only
      refine (chainLoop_same hh hread _ _ _ fuel hde.priv _ _ _ _).bind ?_
      rintro ⟨s, r⟩ ⟨t, r'⟩ ⟨hst, hr⟩
      obtain rfl : r = r' := hr
      cases r with
      | none => exact .ret ⟨⟨hde.vdev, hst⟩, rfl⟩
      | some r =>
        refine (finishChain_same hst _ _ _ _).bind ?_
        rintro ⟨s', r⟩ ⟨t', r'⟩ ⟨hst', hr⟩
        exact .ret ⟨⟨hde.vdev, hst'⟩, hr⟩

end

end

/-! ## The service loop -/

section
variable {h : W → (c : Call) → c.Reply × W} {ρ : P → P → Prop}

theorem ackReturn_same {d e : Device P} (hde : SameDevice ρ d e) :
    SameRun (S := fabricSig) h (fun a b => SameDevice ρ a.1 b.1 ∧ a.2 = b.2)
      (do return (d, ← ackNotify d)) (do return (e, ← ackNotify e)) := by
  have hack : ackNotify d = ackNotify e := by rw [ackNotify, ackNotify, hde.vdev]
  rw [hack]
  exact .after fun ok => .ret ⟨hde, rfl⟩

variable {process : Device P → UInt16 → FabricM (Device P × Option UInt32)}
  (hp : ∀ {d e : Device P}, SameDevice ρ d e → ∀ head, SameRun (S := fabricSig) h
    (fun a b => SameDevice ρ a.1 b.1 ∧ a.2 = b.2) (process d head) (process e head))
include hp

theorem serviceLoop_same (i fuel : Nat) {d e : Device P} (hde : SameDevice ρ d e) (used : Bool) :
    SameRun (S := fabricSig) h (fun a b => SameDevice ρ a.1 b.1 ∧ a.2 = b.2)
      (serviceLoop i process fuel d used) (serviceLoop i process fuel e used) := by
  induction fuel generalizing d e used with
  | zero => exact .fault _
  | succ fuel ih =>
    unfold serviceLoop
    rw [hde.queue]
    refine .after fun r => ?_
    match r with
    | none => exact .ret ⟨hde, rfl⟩
    | some none => exact .ret ⟨hde, rfl⟩
    | some (some head) =>
      refine (hp hde head).bind ?_
      rintro ⟨d', r⟩ ⟨e', r'⟩ ⟨hde', hr⟩
      obtain rfl : r = r' := hr
      cases r with
      | none => exact .ret ⟨hde', rfl⟩
      | some usedLen =>
        dsimp only
        rw [SameDevice.queue hde']
        refine .after fun ok => ?_
        split
        · exact ih (SameDevice.advance hde' i) true
        · exact .ret ⟨hde', rfl⟩

theorem serviceQueue_same (i fuel : Nat) {d e : Device P} (hde : SameDevice ρ d e) :
    SameRun (S := fabricSig) h (fun a b => SameDevice ρ a.1 b.1 ∧ a.2 = b.2)
      (serviceQueue i process fuel d) (serviceQueue i process fuel e) := by
  unfold serviceQueue
  refine (serviceLoop_same hp i fuel hde false).bind ?_
  rintro ⟨d', r⟩ ⟨e', r'⟩ ⟨hde', hr⟩
  obtain rfl : r = r' := hr
  match r with
  | none => exact .ret ⟨hde', rfl⟩
  | some false => exact ackReturn_same hde'
  | some true => exact .after fun ok => .ret ⟨SameDevice.setVring hde', rfl⟩

end

theorem blkdNotify_same {h : W → (c : Call) → c.Reply × W} (hh : Host h) (direct : Bool)
    (fuel : Nat) {d e : BlkdVirtioDevice} (hde : SameDevice SameDisk d e) (queue : UInt32) :
    SameRun (S := fabricSig) h (fun a b => SameDevice SameDisk a.1 b.1 ∧ a.2 = b.2)
      (blkdVirtioNotifyQueue direct fuel d queue) (blkdVirtioNotifyQueue direct fuel e queue) := by
  unfold blkdVirtioNotifyQueue
  rw [hde.queue]
  split
  · exact ackReturn_same hde
  · exact serviceQueue_same (fun hde head => processChain_same hh (sameReads_refl hh direct) fuel hde head) 0 fuel hde

/-! ## Accesses -/

inductive MmioAccess where
  | read (offset : UInt64) (len : UInt32)
  | write (offset value : UInt64) (len : UInt32)
  deriving DecidableEq, Repr

/-- What the fabric gets back for an access. -/
inductive Seen where
  | value (v : UInt64)
  | done (ok : Bool)
  deriving DecidableEq, Repr

def access {D : Type} (dev : FabricDevice D) (d : D) : MmioAccess → FabricM (D × Seen)
  | .read offset len => return (d, .value (dev.read d offset len))
  | .write offset value len => do
    let (d, ok) ← dev.write d offset value len
    return (d, .done ok)

/-- Accesses one after the other, and what is seen of each. -/
def mmioAccesses {D : Type} (dev : FabricDevice D) : List MmioAccess → D → FabricM (List Seen)
  | [], _ => return []
  | a :: as, d => do
    let (d, seen) ← access dev d a
    let rest ← mmioAccesses dev as d
    return seen :: rest

section
variable {h : W → (c : Call) → c.Reply × W} {ρ : P → P → Prop} {ops : P → VirtioDeviceOps}
  {notify : Device P → UInt32 → FabricM (Device P × Bool)}
  (hops : ∀ {s t}, ρ s t → ops s = ops t)
  (hn : ∀ {d e : Device P}, SameDevice ρ d e → ∀ queue, SameRun (S := fabricSig) h
    (fun a b => SameDevice ρ a.1 b.1 ∧ a.2 = b.2) (notify d queue) (notify e queue))

/-- Two connections with the same transport state. -/
structure SameBinding (ρ : P → P → Prop) (b c : FabricBinding P) : Prop where
  mmio : b.mmio = c.mmio
  priv : ρ b.priv c.priv

section
include hn

theorem mmioWrite_same {b c : FabricBinding P} (hbc : SameBinding ρ b c) (offset value : UInt64) :
    SameRun (S := fabricSig) h (fun a b => SameBinding ρ a.1 b.1 ∧ a.2 = b.2)
      (mmioWrite notify b offset value) (mmioWrite notify c offset value) := by
  have hwrite : SameBinding ρ { b with mmio := virtioMmioWrite b.mmio offset value }
      { c with mmio := virtioMmioWrite c.mmio offset value } := ⟨by rw [hbc.mmio], hbc.priv⟩
  unfold mmioWrite
  dsimp only
  split
  · split
    · exact .after fun ok => .ret ⟨hwrite, rfl⟩
    · exact .ret ⟨hwrite, rfl⟩
  split
  · exact .after fun ok => .ret ⟨hwrite, rfl⟩
  split
  · refine (hn ⟨by rw [FabricBinding.dev, FabricBinding.dev, hbc.mmio], hbc.priv⟩ _).bind ?_
    rintro ⟨d, ok⟩ ⟨e, ok'⟩ ⟨hde, hok⟩
    refine .ret ⟨⟨?_, hde.priv⟩, hok⟩
    rw [FabricBinding.withDev, FabricBinding.withDev, hde.vdev, hbc.mmio]
  · exact .ret ⟨hwrite, rfl⟩

end

include hops hn

theorem mmioAccesses_same (as : List MmioAccess) {b c : FabricBinding P} (hbc : SameBinding ρ b c) :
    SameRun (S := fabricSig) h (· = ·) (mmioAccesses (bindingDevice ops notify) as b)
      (mmioAccesses (bindingDevice ops notify) as c) := by
  induction as generalizing b c with
  | nil => exact .ret rfl
  | cons a as ih =>
    have hstep : SameRun (S := fabricSig) h (fun x y => SameBinding ρ x.1 y.1 ∧ x.2 = y.2)
        (access (bindingDevice ops notify) b a) (access (bindingDevice ops notify) c a) := by
      cases a with
      | read offset len =>
        refine .ret ⟨hbc, ?_⟩
        simp only [bindingDevice, hops hbc.priv, hbc.mmio]
      | write offset value len =>
        refine (mmioWrite_same hn hbc offset value).bind fun x y hxy => ?_
        exact .ret ⟨hxy.1, congrArg Seen.done hxy.2⟩
    refine hstep.bind ?_
    rintro ⟨b', seen⟩ ⟨c', seen'⟩ ⟨hbc', hseen⟩
    refine (ih hbc').bind ?_
    intro rest _ he
    subst he
    exact .ret (by rw [show seen = seen' from hseen])

end

/-! ## What a connection fixes -/

/-- The fields a reset does not write. -/
structure SameShape (v v' : VirtioDevice) : Prop where
  deviceId : v.deviceId = v'.deviceId
  vendorId : v.vendorId = v'.vendorId
  queueSize : v.queueSize = v'.queueSize
  count : v.queues.length = v'.queues.length

theorem SameShape.refl (v : VirtioDevice) : SameShape v v := ⟨rfl, rfl, rfl, rfl⟩

theorem SameShape.trans {u v w : VirtioDevice} (h : SameShape u v) (h' : SameShape v w) :
    SameShape u w :=
  ⟨h.deviceId.trans h'.deviceId, h.vendorId.trans h'.vendorId, h.queueSize.trans h'.queueSize, h.count.trans h'.count⟩

theorem SameShape.of_erase {v v' : VirtioDevice} (h : eraseCursors v' = eraseCursors v) :
    SameShape v v' := by
  have hlen := congrArg (fun v => v.queues.length) h
  simp only [eraseCursors, List.length_map] at hlen
  exact ⟨(congrArg VirtioDevice.deviceId h).symm, (congrArg VirtioDevice.vendorId h).symm,
    (congrArg VirtioDevice.queueSize h).symm, hlen.symm⟩

/-- A reset writes every other field. -/
theorem reset_mmio {m m' : VirtioMmio} (h : SameShape m.vdev m'.vdev) :
    virtioMmioReset m = virtioMmioReset m' := by
  simp only [virtioMmioReset, virtioDeviceReset, VirtioMmio.mk.injEq, VirtioDevice.mk.injEq, List.map_const']
  simp [h.deviceId, h.vendorId, h.queueSize, h.count]

theorem writeReg_shape (m : VirtioMmio) (v : UInt32) (r : MmioReg) :
    SameShape m.vdev (writeReg m v r).vdev := by
  have hq : ∀ f, SameShape m.vdev (onQueue m f).vdev := fun f =>
    ⟨rfl, rfl, rfl, by simp only [onQueue, List.length_modify]⟩
  cases r with
  | driverFeatures =>
    simp only [writeReg]
    split
    · exact ⟨rfl, rfl, rfl, rfl⟩
    · split <;> exact ⟨rfl, rfl, rfl, rfl⟩
  | status =>
    simp only [writeReg]
    split
    · exact ⟨rfl, rfl, rfl, by simp [virtioMmioReset, virtioDeviceReset]⟩
    · exact ⟨rfl, rfl, rfl, rfl⟩
  | queueNum | queueReady | queueDescLow | queueDescHigh | queueAvailLow | queueAvailHigh | queueUsedLow
    | queueUsedHigh => exact hq _
  | _ => exact ⟨rfl, rfl, rfl, rfl⟩

theorem virtioMmioWrite_shape (m : VirtioMmio) (offset value : UInt64) :
    SameShape m.vdev (virtioMmioWrite m offset value).vdev := by
  unfold virtioMmioWrite
  split
  · exact writeReg_shape m _ _
  · exact .refl _

section
variable {ρ : P → P → Prop} (hrefl : ∀ s, ρ s s) (htrans : ∀ {s t u}, ρ s t → ρ t u → ρ s u)

/-- What is left of a device by its own code. -/
def KeepsShape (ρ : P → P → Prop) (d e : Device P) : Prop :=
  SameShape d.vdev e.vdev ∧ ρ d.priv e.priv

section
include hrefl htrans

theorem serviceLoop_keeps {process : Device P → UInt16 → FabricM (Device P × Option UInt32)}
    (hp : ∀ d head, (process d head).Sat (fun _ => True) (fun _ => True) fun r => r.1.vdev = d.vdev ∧ ρ d.priv r.1.priv)
    (i fuel : Nat) (d : Device P) (used : Bool) :
    (serviceLoop i process fuel d used).Sat (fun _ => True) (fun _ => True) fun r => KeepsShape ρ d r.1 := by
  have hself : ∀ d : Device P, KeepsShape ρ d d := fun d => ⟨.refl _, hrefl _⟩
  induction fuel generalizing d used with
  | zero => exact Prog.Sat.fault trivial
  | succ fuel ih =>
    refine Prog.Sat.bind (Prog.sat_true _) fun r _ => ?_
    match r with
    | none => exact Prog.Sat.ret (hself d)
    | some none => exact Prog.Sat.ret (hself d)
    | some (some head) =>
      refine Prog.Sat.bind (hp d head) fun r hr => ?_
      obtain ⟨d', r⟩ := r
      obtain ⟨hv, hpriv⟩ := hr
      have hkeep : KeepsShape ρ d d' := ⟨hv ▸ .refl _, hpriv⟩
      cases r with
      | none => exact Prog.Sat.ret hkeep
      | some usedLen =>
        refine Prog.Sat.bind (Prog.sat_true _) fun ok _ => ?_
        split
        · refine (ih (d'.advance i) true).mono fun r hr => ?_
          exact ⟨hkeep.1.trans ((SameShape.of_erase (eraseCursors_advance d' i)).trans hr.1), htrans hpriv hr.2⟩
        · exact Prog.Sat.ret hkeep

theorem serviceQueue_keeps {process : Device P → UInt16 → FabricM (Device P × Option UInt32)}
    (hp : ∀ d head, (process d head).Sat (fun _ => True) (fun _ => True) fun r => r.1.vdev = d.vdev ∧ ρ d.priv r.1.priv)
    (i fuel : Nat) (d : Device P) :
    (serviceQueue i process fuel d).Sat (fun _ => True) (fun _ => True) fun r => KeepsShape ρ d r.1 := by
  refine Prog.Sat.bind (serviceLoop_keeps hrefl htrans hp i fuel d false) fun r hr => ?_
  obtain ⟨d', r⟩ := r
  match r with
  | none => exact Prog.Sat.ret hr
  | some true => exact Prog.Sat.bind (Prog.sat_true _) fun _ _ => Prog.Sat.ret ⟨⟨hr.1.1, hr.1.2, hr.1.3, hr.1.4⟩, hr.2⟩
  | some false => exact Prog.Sat.bind (Prog.sat_true _) fun _ _ => Prog.Sat.ret hr

end

theorem ackReturn_keeps (hrefl : ∀ s, ρ s s) (d : Device P) :
    Prog.Sat (S := fabricSig) (fun _ => True) (fun _ : Fault => True) (fun r => KeepsShape ρ d r.1)
      (do return (d, ← ackNotify d)) :=
  Prog.Sat.bind (Prog.sat_true _) fun _ _ => Prog.Sat.ret ⟨.refl _, hrefl _⟩

theorem mmioWrite_keeps (hrefl : ∀ s, ρ s s)
    {notify : Device P → UInt32 → FabricM (Device P × Bool)}
    (hn : ∀ d queue, (notify d queue).Sat (fun _ => True) (fun _ => True) fun r => KeepsShape ρ d r.1)
    (b : FabricBinding P) (offset value : UInt64) :
    (mmioWrite notify b offset value).Sat (fun _ => True) (fun _ => True) fun r => KeepsShape ρ b.dev r.1.dev := by
  have hw := virtioMmioWrite_shape b.mmio offset value
  have hplain : KeepsShape ρ b.dev { b with mmio := virtioMmioWrite b.mmio offset value }.dev := ⟨hw, hrefl _⟩
  unfold mmioWrite
  dsimp only
  split
  · split
    · exact Prog.Sat.bind (Prog.sat_true _) fun _ _ => Prog.Sat.ret hplain
    · exact Prog.Sat.ret hplain
  split
  · exact Prog.Sat.bind (Prog.sat_true _) fun _ _ => Prog.Sat.ret hplain
  split
  · refine Prog.Sat.bind (hn _ _) fun r hr => Prog.Sat.ret ⟨hw.trans hr.1, hr.2⟩
  · exact Prog.Sat.ret hplain

end

/-! ## Connections -/

/-- A connection of the block device, with accesses of any width. -/
def blkdConn {V : Type} (R : Handler fabricSig V) (direct : Bool) (fuel : Nat) (old : BlkdState)
    (backend : BlkdBlockBackend) (v₀ : V) : LTS (FabricBinding BlkdState × V) (UInt64 × UInt64) :=
  connLts R (fun b l => blkdMmioWrite direct fuel b l.1 l.2) (blkdConnect old backend) v₀

def condConn {V : Type} (R : Handler fabricSig V) (fuel : Nat) (v₀ : V) :
    LTS (FabricBinding Unit × V) (UInt64 × UInt64) :=
  connLts R (fun b l => condMmioWrite fuel b l.1 l.2) condConnect v₀

section
variable {V : Type} {R : Handler fabricSig V} {ρ : P → P → Prop}
  {notify : Device P → UInt32 → FabricM (Device P × Bool)}

/-- What the device's code keeps, a connection keeps. -/
theorem conn_keeps (hrefl : ∀ s, ρ s s) (htrans : ∀ {s t u}, ρ s t → ρ t u → ρ s u)
    (hn : ∀ d queue, (notify d queue).Sat (fun _ => True) (fun _ => True) fun r => KeepsShape ρ d r.1)
    {b₀ : FabricBinding P} {v₀ : V} {s : FabricBinding P × V}
    (h : (connLts R (fun b (l : UInt64 × UInt64) => mmioWrite notify b l.1 l.2) b₀ v₀).Reachable s) :
    KeepsShape ρ b₀.dev s.1.dev := by
  refine LTS.Inductive.reachable (I := fun s => KeepsShape ρ b₀.dev s.1.dev) ⟨?_, ?_⟩ s h
  · intro s he
    subst he
    exact ⟨.refl _, hrefl _⟩
  · rintro s l s' hi ⟨ok, hr⟩
    have hk := (mmioWrite_keeps hrefl hn s.1 l.1 l.2).outcome hr
    exact ⟨hi.1.trans hk.1, htrans hi.2 hk.2⟩

/-- The state after a reset, whatever the fabric answers. -/
theorem reset_run {h : W → (c : Call) → c.Reply × W} {b b' : FabricBinding P} {w w' : W} {ok : Bool}
    (hr : (mmioWrite notify b MmioReg.status.offset 0).run (S := fabricSig) h w = (.ok (b', ok), w')) :
    b' = { b with mmio := virtioMmioReset b.mmio } := by
  simp only [mmioWrite, if_true] at hr
  cases hr
  rfl

end

theorem blkdNotify_keeps (direct : Bool) (fuel : Nat) (d : BlkdVirtioDevice) (queue : UInt32) :
    (blkdVirtioNotifyQueue direct fuel d queue).Sat (fun _ => True) (fun _ => True) fun r => KeepsShape SameDisk d r.1 := by
  unfold blkdVirtioNotifyQueue
  split
  · exact ackReturn_keeps .refl d
  · exact serviceQueue_keeps .refl .trans (fun d head =>
      (processChain_sat direct trivial fuel d head).weaken fun _ _ => trivial) 0 fuel d

theorem condNotify_keeps (fuel : Nat) (d : CondVirtioDevice) (queue : UInt32) :
    (condVirtioNotifyQueue fuel d queue).Sat (fun _ => True) (fun _ => True) fun r => KeepsShape (· = ·) d r.1 := by
  unfold condVirtioNotifyQueue
  split
  · exact ackReturn_keeps (fun _ => rfl) d
  split
  · exact ackReturn_keeps (fun _ => rfl) d
  split
  · exact ackReturn_keeps (fun _ => rfl) d
  · exact serviceQueue_keeps (fun _ => rfl) .trans (fun d head =>
      ((processTxChain_quiet trivial fuel d head).weaken fun _ _ => trivial).mono fun _ h => ⟨h, rfl⟩) _ fuel d

/-- **No residue.** After a write of 0 to `STATUS` in any state of any
connection, every sequence of accesses sees what it would see on a device that
has just been connected, and leaves guest, image, console and interrupt where
it would leave them; on the block device whatever either has in its buffer. -/
theorem reset_no_residue {h : W → (c : Call) → c.Reply × W} (hh : Host h) (fuel : Nat) :
    (∀ (direct : Bool) (old fresh : BlkdState) (backend : BlkdBlockBackend) (V : Type) (R : Handler fabricSig V) (v₀ : V)
      (s : FabricBinding BlkdState × V), (blkdConn R direct fuel old backend v₀).Reachable s →
      ∀ (w w' : W) (b : FabricBinding BlkdState) (ok : Bool),
        (blkdMmioWrite direct fuel s.1 MmioReg.status.offset 0).run (S := fabricSig) h w = (.ok (b, ok), w') →
      ∀ as : List MmioAccess, (mmioAccesses (blkdFabricInitDevice direct fuel) as b).run (S := fabricSig) h w' =
        (mmioAccesses (blkdFabricInitDevice direct fuel) as (blkdConnect fresh backend)).run (S := fabricSig) h w') ∧
    (∀ (V : Type) (R : Handler fabricSig V) (v₀ : V) (s : FabricBinding Unit × V), (condConn R fuel v₀).Reachable s →
      ∀ (w w' : W) (b : FabricBinding Unit) (ok : Bool),
        (condMmioWrite fuel s.1 MmioReg.status.offset 0).run (S := fabricSig) h w = (.ok (b, ok), w') →
      ∀ as : List MmioAccess, (mmioAccesses (condFabricInitDevice fuel) as b).run (S := fabricSig) h w' =
        (mmioAccesses (condFabricInitDevice fuel) as condConnect).run (S := fabricSig) h w') := by
  constructor
  · intro direct old fresh backend V R v₀ s hs w w' b ok hr as
    obtain ⟨hshape, hdisk⟩ := conn_keeps .refl .trans (blkdNotify_keeps direct fuel) hs
    obtain rfl := reset_run hr
    have hbc : SameBinding SameDisk { s.1 with mmio := virtioMmioReset s.1.mmio } (blkdConnect fresh backend) :=
      ⟨(reset_mmio hshape).symm.trans rfl, hdisk.symm.trans ⟨rfl, rfl⟩⟩
    refine SameRun.run_eq (mmioAccesses_same ?_ (blkdNotify_same hh direct fuel) as hbc) w'
    intro s t hst
    unfold blkdOps blkdGetConfig
    rw [hst.capacity]
  · intro V R v₀ s hs w w' b ok hr as
    obtain ⟨hshape, -⟩ := conn_keeps (fun _ => rfl) .trans (condNotify_keeps fuel) hs
    obtain rfl := reset_run hr
    have hm : virtioMmioReset s.1.mmio = condConnect.mmio := (reset_mmio hshape).symm.trans rfl
    rw [hm]

/-- The block device with its queue made ready. -/
def readyBinding : FabricBinding BlkdState :=
  let b := blkdConnect noBuffer emptyDisk
  { b with mmio := virtioMmioWrite b.mmio MmioReg.queueReady.offset 1 }

/-- A queue is made ready and the device reset: the flag reads 0 as after a connect. -/
theorem reset_no_residue_ready :
    ∃ s : FabricBinding BlkdState × Unit,
      (blkdConn (fun _ _ _ _ => True) false 1 noBuffer emptyDisk ()).Reachable s ∧
      s.1.dev.vdev.queues.map (·.ready) = [1] ∧ ∃ b ok w',
        (blkdMmioWrite false 1 s.1 MmioReg.status.offset 0).run (S := fabricSig) (Ram.answer fun _ _ => false) flushPosted =
          (.ok (b, ok), w') ∧
        (mmioAccesses (blkdFabricInitDevice false 1) [.read MmioReg.queueReady.offset 4] b).run (S := fabricSig)
          (Ram.answer fun _ _ => false) w' = (.ok [.value 0], w') := by
  have hhost : Host (Ram.answer fun _ _ => false) :=
    ⟨fun _ _ => rfl, fun _ _ _ _ h => by cases h; simp, fun _ _ _ _ h => by cases h; simp⟩
  have h0 : (blkdConn (fun _ _ _ _ => True) false 1 noBuffer emptyDisk ()).Reachable (blkdConnect noBuffer emptyDisk, ()) :=
    ⟨_, [], rfl, .nil _⟩
  have hwrite : blkdMmioWrite false 1 (blkdConnect noBuffer emptyDisk) MmioReg.queueReady.offset 1 =
      .ret (readyBinding, true) := rfl
  have hs : (blkdConn (fun _ _ _ _ => True) false 1 noBuffer emptyDisk ()).Reachable (readyBinding, ()) :=
    h0.tail (l := (MmioReg.queueReady.offset, 1)) ⟨true, by dsimp only; rw [hwrite]; exact .ret _ _⟩
  exact ⟨_, hs, by decide, _, _, _, rfl,
    ((reset_no_residue hhost 1).1 false noBuffer noBuffer emptyDisk Unit _ () _ hs flushPosted _ _ _ rfl _).trans
      (by rfl)⟩

end AcsVirt.L4
