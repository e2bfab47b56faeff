import AcsVirt.L2Machine.LinuxDevmem
import AcsVirt.L4Device.IrqLine

/-!
# Completions and the interrupt that announces them

A notification that completes a chain sets the VRING bit and raises the
interrupt; one that finds nothing answers with the level the bit asks for.
What a raise and a lower do is up to the fabric: an `IrqPort` says how the
outside looks after either of them succeeded. `writes_spec` is what a register
write does to the bit, to the outside and to guest memory, for both devices
and over every such fabric; `L4Device/Wake.lean` uses it on UIO.

On devmem the interrupt is a register of the platform, written at once. The
pass looks at `QUEUE_NOTIFY` before `INTERRUPT_ACK`, so an acknowledgement
of an earlier interrupt that is found together with a new kick takes the new
completion's interrupt away (`devmem_completion`). UIO has the two the other way
round.
-/
namespace AcsVirt.L4

open L2

variable {P W : Type}

/-- The outside after a raise and after a lower that succeeded; no other call touches it. -/
structure IrqPort (R : Handler fabricSig W) (up down : W → Prop) : Prop where
  quiet : ∀ {w : W} {c : Call} {r : c.Reply} {w' : W}, quiet c → R w c r w' → w' = w
  raise : ∀ {w w' : W}, R w .raiseIrq true w' → up w'
  lower : ∀ {w w' : W}, R w .lowerIrq true w' → down w'

/-- Guest memory was written. -/
def Stored (calls : List Call) : Prop := ∃ gpa data, Call.dmaWrite gpa data ∈ calls

/-- The index of a used ring was written. -/
def Published (d : Device P) (calls : List Call) : Prop :=
  ∃ i data, Call.dmaWrite ((d.queue i).used + 2) data ∈ calls

theorem Published.stored {d : Device P} {calls : List Call} (h : Published d calls) :
    Stored calls := by
  obtain ⟨i, data, h⟩ := h
  exact ⟨_, data, h⟩

theorem Stored.before {calls calls' : List Call} {c : Call} (h : Stored calls')
    (hl : calls' = calls ++ [c]) (hc : ∀ gpa data, c ≠ .dmaWrite gpa data) : Stored calls := by
  subst hl
  obtain ⟨gpa, data, h⟩ := h
  rcases List.mem_append.1 h with h | h
  · exact ⟨gpa, data, h⟩
  · exact absurd (List.mem_singleton.1 h).symm (hc gpa data)

/-- What a notification that returned true has done. -/
structure Notified (up down : W → Prop) (d : Device P) (w : W × List Call) (d' : Device P)
    (w' : W × List Call) : Prop where
  pending : VringPending d.vdev → VringPending d'.vdev
  up : VringPending d'.vdev → up w'.1
  down : ¬ VringPending d'.vdev → down w'.1
  stored : Stored w'.2 → Stored w.2 ∨ VringPending d'.vdev

/-! ## Notifications -/

section
variable {R : Handler fabricSig W} {up down : W → Prop} (hR : IrqPort R up down)

section
include hR

theorem ackReturn_notified (d : Device P) (w : W × List Call) :
    wp (logged R) (do return (d, ← ackNotify d))
      (fun o w' => ∀ d', o = .ok (d', true) → Notified up down d w d' w') w := by
  have hack : wp (logged R) (ackNotify d)
      (fun o w' => o = .ok true → Notified up down d w d w') w := by
    unfold ackNotify
    refine wp_ite (fun h => ?_) fun h => ?_
    · rintro r w' ⟨hr, hl⟩ he
      cases he
      exact ⟨id, fun _ => hR.raise hr, absurd h, fun hs => .inl (hs.before hl fun _ _ => nofun)⟩
    · rintro r w' ⟨hr, hl⟩ he
      cases he
      exact ⟨id, fun h' => absurd h' h, fun _ => hR.lower hr, fun hs => .inl (hs.before hl fun _ _ => nofun)⟩
  refine wp_seq hack (fun ok w' h d' he => ?_) fun _ _ _ _ he => by cases he
  cases he
  exact h rfl

end

/-- A loop that completed no chain has only read. -/
theorem serviceLoop_silent (i : Nat)
    (process : Device P → UInt16 → FabricM (Device P × Option UInt32)) (fuel : Nat) (d : Device P)
    (used : Bool) (w : W × List Call) :
    wp (logged R) (serviceLoop i process fuel d used)
      (fun o w' => ∀ d', o = .ok (d', some false) → used = false ∧ (Stored w'.2 → Stored w.2)) w := by
  induction fuel generalizing d used w with
  | zero => exact nofun
  | succ fuel ih =>
    have hpoll := (pollAvail_sat (φ := fun c => ∀ gpa data, c ≠ .dmaWrite gpa data) (χ := fun _ => True)
      (fun _ _ => nofun) (d.queue i) (fun _ => trivial) 20).wp (R := logged R)
      (I := fun w' => Stored w'.2 → Stored w.2)
      (fun _ _ _ _ hc hi hr hs => hi (hs.before hr.2 hc)) (w := w) id
    refine wp_seq hpoll (fun r w₁ h => ?_) fun _ _ _ _ he => by cases he
    match r with
    | none => exact nofun
    | some none =>
      intro d' he
      cases he
      exact ⟨rfl, h.1⟩
    | some (some head) =>
      refine wp_seq (wp_keeps (I := fun _ => True) (fun _ _ _ _ _ _ => trivial) _ trivial)
        (fun r w₂ _ => ?_) fun _ _ _ _ he => by cases he
      obtain ⟨d₁, r⟩ := r
      cases r with
      | none => exact nofun
      | some usedLen =>
        refine wp_seq (wp_keeps (I := fun _ => True) (fun _ _ _ _ _ _ => trivial) _ trivial)
          (fun ok w₃ _ => ?_) fun _ _ _ _ he => by cases he
        refine wp_ite (fun _ => ?_) fun _ => nofun
        -- from here on a chain has been completed
        exact wp_mono (ih _ true w₃) fun o w' h d' he => absurd (h d' he).1 Bool.noConfusion

include hR

theorem serviceQueue_notified {i : Nat}
    {process : Device P → UInt16 → FabricM (Device P × Option UInt32)}
    (hp : QuietHandler (fun _ => True) process) (fuel : Nat) (d : Device P) (w : W × List Call) :
    wp (logged R) (serviceQueue i process fuel d)
      (fun o w' => ∀ d', o = .ok (d', true) → Notified up down d w d' w') w := by
  have hloop := (serviceLoop_sat (i := i) hp trivial fuel d false fun _ => trivial).wp
    (R := logged R) (I := fun w' => w'.1 = w.1) (fun _ _ _ _ hc hi hr => (hR.quiet hc hr.1).trans hi) rfl
  refine wp_seq (wp_and hloop (serviceLoop_silent i process fuel d false w)) (fun r w₁ h => ?_) fun _ _ _ _ he => by cases he
  obtain ⟨⟨-, he⟩, hsilent⟩ := h
  obtain ⟨d₁, r⟩ := r
  have hvring : VringPending d₁.vdev ↔ VringPending d.vdev := by
    unfold VringPending
    rw [interruptStatus_of_erase he]
  match r with
  | none => exact nofun
  | some true =>
    rintro r w' ⟨hr, -⟩ d' he
    cases he
    have hset : VringPending d₁.setVring.vdev := (agree_setVring d₁).1 rfl
    exact ⟨fun _ => hset, fun _ => hR.raise hr, absurd hset, fun _ => .inr hset⟩
  | some false =>
    refine wp_mono (ackReturn_notified hR d₁ w₁) fun o w' h d' he => ?_
    have h := h d' he
    exact ⟨fun hv => h.pending (hvring.2 hv), h.up, h.down, fun hs => (h.stored hs).imp (hsilent d₁ rfl).2 id⟩

theorem blkdNotify_notified (direct : Bool) (fuel : Nat) (d : BlkdVirtioDevice) (queue : UInt32)
    (w : W × List Call) :
    wp (logged R) (blkdVirtioNotifyQueue direct fuel d queue)
      (fun o w' => ∀ d', o = .ok (d', true) → Notified up down d w d' w') w :=
  wp_ite (fun _ => ackReturn_notified hR d w)
    fun _ => serviceQueue_notified hR (processChain_quiet direct trivial fuel) fuel d w

/-- What a write of `value` to register `r` that returned true has done. -/
def Written (up down : W → Prop) (r : MmioReg) (value : UInt32) (b : FabricBinding P)
    (w : W × List Call) (b' : FabricBinding P) (w' : W × List Call) : Prop :=
  if r = .queueNotify then Notified up down b.dev w b'.dev w'
  else if r = .interruptAck then
    (VringPending b'.dev.vdev ↔ VringPending b.dev.vdev ∧ value &&& virtioInterruptVring = 0) ∧
      down w'.1 ∧ (Stored w'.2 → Stored w.2)
  else if r = .status ∧ value = 0 then
    ¬ VringPending b'.dev.vdev ∧ down w'.1 ∧ (Stored w'.2 → Stored w.2)
  else (VringPending b'.dev.vdev ↔ VringPending b.dev.vdev) ∧ w' = w

omit hR in
theorem Written.plain {r : MmioReg} {value : UInt32} {b b' : FabricBinding P} {w w' : W × List Call}
    (h : Written up down r value b w b' w') (hnotify : r ≠ .queueNotify) (hack : r ≠ .interruptAck)
    (hreset : r = .status → value ≠ 0) :
    (VringPending b'.dev.vdev ↔ VringPending b.dev.vdev) ∧ w' = w := by
  rwa [Written, if_neg hnotify, if_neg hack, if_neg fun h => hreset h.1 h.2] at h

theorem writes_spec {notify : Device P → UInt32 → FabricM (Device P × Bool)}
    (hn : ∀ d queue w, wp (logged R) (notify d queue)
      (fun o w' => ∀ d', o = .ok (d', true) → Notified up down d w d' w') w)
    (b : FabricBinding P) (r : MmioReg) (value : UInt32) (w : W × List Call) :
    wp (logged R) (mmioWrite notify b r.offset value.toUInt64)
      (fun o w' => ∀ b', o = .ok (b', true) → Written up down r value b w b' w') w := by
  have hv : value.toUInt64.toUInt32 = value := by simp
  by_cases hnotify : r = .queueNotify
  · subst hnotify
    simp only [mmioWrite, virtioMmioWrite_notify, show MmioReg.queueNotify.offset ≠ MmioReg.status.offset by decide,
      show MmioReg.queueNotify.offset ≠ MmioReg.interruptAck.offset by decide, if_false, if_true]
    refine wp_seq (hn _ _ w) (fun a w' h b' he => ?_) fun _ _ _ _ he => by cases he
    obtain ⟨d, ok⟩ := a
    cases he
    exact h d rfl
  by_cases hack : r = .interruptAck
  · subst hack
    simp only [mmioWrite, show MmioReg.interruptAck.offset ≠ MmioReg.status.offset by decide, if_false, if_true]
    rintro ok w' ⟨hr, hl⟩ b' he
    cases he
    refine ⟨?_, hR.lower hr, fun hs => hs.before hl fun _ _ hc => by cases hc⟩
    simp only [FabricBinding.dev, VringPending, virtioMmioWrite_ack, hv, ack_pending]
  have hplain : (r = .status → value ≠ 0) → ∀ b' : FabricBinding P,
      b' = { b with mmio := virtioMmioWrite b.mmio r.offset value.toUInt64 } → Written up down r value b w b' w := by
    intro h0 b' he
    subst he
    rw [Written, if_neg hnotify, if_neg hack, if_neg fun h => h0 h.1 h.2]
    have hkeep := virtioMmioWrite_interruptStatus b.mmio r.offset value.toUInt64 (offset_ne hack)
      fun h => by rw [hv]; exact h0 (MmioReg.offset_inj h)
    simp only [FabricBinding.dev, VringPending, hkeep, and_self]
  by_cases hstatus : r = .status
  · subst hstatus
    simp only [mmioWrite, if_true]
    refine wp_ite (fun h0 => ?_) fun h0 => ?_
    · have h0 : value = 0 := toUInt64_eq_zero.1 h0
      rintro ok w' ⟨hr, hl⟩ b' he
      cases he
      rw [Written, if_neg hnotify, if_neg hack, if_pos ⟨rfl, h0⟩]
      refine ⟨?_, hR.lower hr, fun hs => hs.before hl fun _ _ hc => by cases hc⟩
      simp [FabricBinding.dev, VringPending, virtioMmioWrite_reset _ _ (hv.trans h0)]
    · intro b' he
      cases he
      exact hplain (fun _ h => h0 (toUInt64_eq_zero.2 h)) _ rfl
  · simp only [mmioWrite, offset_ne hstatus, offset_ne hack, offset_ne hnotify, if_false]
    intro b' he
    cases he
    exact hplain (fun h => absurd h hstatus) _ rfl

end

/-! ## devmem -/

/-- The outside reduced to the values stored in the IRQ register. -/
def devmemIrqHandler (irq : Option DevmemIrq) : Handler fabricSig (List UInt32) :=
  fun w c r w' => ∃ stores, devmemIrqStores irq c r stores ∧ w' = w ++ stores

/-- The last value in the IRQ register, if there is one, is the one for this level. -/
def LastIs (irq : Option DevmemIrq) (value : DevmemIrq → UInt32) (w : List UInt32) : Prop :=
  ∀ i, irq = some i → w.getLast? = some (value i)

theorem devmem_irqPort (irq : Option DevmemIrq) :
    IrqPort (devmemIrqHandler irq) (LastIs irq DevmemIrq.irqAssert) (LastIs irq DevmemIrq.irqDeassert) where
  quiet := by
    rintro w c r w' hc ⟨stores, h, rfl⟩
    have hnil : stores = [] := by
      cases c with
      | raiseIrq => exact hc.elim
      | lowerIrq => exact hc.elim
      | dmaMap gpa len => exact h.2
      | _ => exact h
    rw [hnil, List.append_nil]
  raise := by
    rintro w w' ⟨stores, h, rfl⟩ i he
    subst he
    rcases h with ⟨-, rfl⟩ | ⟨h, -⟩
    · simp
    · cases h
  lower := by
    rintro w w' ⟨stores, h, rfl⟩ i he
    subst he
    rcases h with ⟨-, rfl⟩ | ⟨h, -⟩
    · simp
    · cases h

section
variable {irq : Option DevmemIrq} {ops : P → VirtioDeviceOps}
  {notify : Device P → UInt32 → FabricM (Device P × Bool)}

/-- A register found changed. -/
def Differs (u : UioState (FabricBinding P)) (r : MmioReg) : Prop := u.window r.offset ≠ u.shadow r

/-- What a turn of the pass that succeeded has done. -/
structure DevmemScanned (irq : Option DevmemIrq) (r : MmioReg) (u : UioState (FabricBinding P))
    (w : List UInt32 × List Call) (u' : UioState (FabricBinding P)) (w' : List UInt32 × List Call) :
    Prop where
  others : ∀ s, s ≠ r → u'.window s.offset = u.window s.offset ∧ u'.shadow s = u.shadow s
  same : ¬ Differs u r → u'.dev = u.dev ∧ w' = w
  written : Differs u r →
    Written (LastIs irq DevmemIrq.irqAssert) (LastIs irq DevmemIrq.irqDeassert) r (u.window r.offset) u.dev w u'.dev w'

theorem devmemSettle_others (r : MmioReg) (u : UioState (FabricBinding P)) {s : MmioReg}
    (hs : s ≠ r) :
    (devmemSettle r u).window s.offset = u.window s.offset ∧ (devmemSettle r u).shadow s = u.shadow s := by
  unfold devmemSettle
  split
  · exact ⟨Window.set_other (offset_ne hs) _, if_neg hs⟩
  split
  · exact ⟨Window.set_other (offset_ne hs) _, if_neg hs⟩
  · exact ⟨rfl, rfl⟩

theorem devmemSettle_dev (r : MmioReg) (u : UioState (FabricBinding P)) :
    (devmemSettle r u).dev = u.dev := by
  unfold devmemSettle
  split
  · rfl
  · split <;> rfl

variable (hn : ∀ d queue w, wp (logged (devmemIrqHandler irq)) (notify d queue)
  (fun o w' => ∀ d', o = .ok (d', true) →
    Notified (LastIs irq DevmemIrq.irqAssert) (LastIs irq DevmemIrq.irqDeassert) d w d' w') w)
include hn

theorem devmemScan_spec (r : MmioReg) (u : UioState (FabricBinding P)) (w : List UInt32 × List Call) :
    wp (logged (devmemIrqHandler irq)) (devmemScanRegister 0x200 (bindingDevice ops notify) r u)
      (fun o w' => ∀ u', o = .ok (u', true) → DevmemScanned irq r u w u' w') w := by
  unfold devmemScanRegister
  rw [if_neg (show ¬ (0x200 : UInt64) < r.offset + 4 by cases r <;> decide)]
  refine wp_ite (fun heq => ?_) fun hne => ?_
  · intro u' he
    cases he
    exact ⟨fun _ _ => ⟨rfl, rfl⟩, fun _ => ⟨rfl, rfl⟩, fun h => absurd heq h⟩
  · refine wp_seq (writes_spec (devmem_irqPort irq) hn u.dev r (u.window r.offset) w) (fun a w' h => ?_)
      fun _ _ _ _ he => by cases he
    obtain ⟨b, ok⟩ := a
    cases ok with
    | false => exact nofun
    | true =>
      intro u' he
      cases he
      refine ⟨fun s hs => ?_, fun h => absurd hne h, fun _ => ?_⟩
      · obtain ⟨h1, h2⟩ := devmemSettle_others r { u.setShadow r (u.window r.offset) with dev := b } hs
        exact ⟨h1, h2.trans (if_neg hs)⟩
      · rw [devmemSettle_dev]
        exact h b rfl

/-- Up to the acknowledgement a completion is announced, and neither the
acknowledgement nor the status has been looked at. -/
structure Announced (irq : Option DevmemIrq) (u₀ u : UioState (FabricBinding P))
    (w : List UInt32 × List Call) :
    Prop where
  announced : Stored w.2 → VringPending u.dev.dev.vdev ∧ LastIs irq DevmemIrq.irqAssert w.1
  ahead : ∀ s, s = .interruptAck ∨ s = .status → u.window s.offset = u₀.window s.offset ∧ u.shadow s = u₀.shadow s

omit hn in
theorem Announced.step {u₀ u u' : UioState (FabricBinding P)} {w w' : List UInt32 × List Call}
    {r : MmioReg} (h : Announced irq u₀ u w) (hack : r ≠ .interruptAck) (hstatus : r ≠ .status)
    (hs : DevmemScanned irq r u w u' w') :
    Announced irq u₀ u' w' := by
  refine ⟨fun hst => ?_, fun s hs' => ?_⟩
  · by_cases hd : Differs u r
    · have hw := hs.written hd
      by_cases hnotify : r = .queueNotify
      · rw [Written, if_pos hnotify] at hw
        have hv : VringPending u'.dev.dev.vdev := (hw.stored hst).elim (fun h0 => hw.pending (h.announced h0).1) id
        exact ⟨hv, hw.up hv⟩
      · obtain ⟨hv, rfl⟩ := hw.plain hnotify hack fun h => absurd h hstatus
        exact ⟨hv.2 (h.announced hst).1, (h.announced hst).2⟩
    · obtain ⟨hdev, rfl⟩ := hs.same hd
      rw [hdev]
      exact h.announced hst
  · have hne : s ≠ r := by
      intro he
      subst he
      exact hs'.elim hack hstatus
    exact ⟨(hs.others s hne).1.trans (h.ahead s hs').1, (hs.others s hne).2.trans (h.ahead s hs').2⟩

variable (ops) in
theorem devmemPoll_announced {u₀ : UioState (FabricBinding P)} (rs : List MmioReg)
    (hrs : ∀ r ∈ rs, r ≠ .interruptAck ∧ r ≠ .status) (u : UioState (FabricBinding P))
    (w : List UInt32 × List Call) (h : Announced irq u₀ u w) :
    wp (logged (devmemIrqHandler irq)) (devmemPollWriteRegisters 0x200 (bindingDevice ops notify) rs u)
      (fun o w' => ∀ u', o = .ok (u', true) → Announced irq u₀ u' w') w := by
  induction rs generalizing u w with
  | nil =>
    intro u' he
    cases he
    exact h
  | cons r rs ih =>
    obtain ⟨hr, hrs⟩ := List.forall_mem_cons.1 hrs
    refine wp_seq (devmemScan_spec hn r u w) (fun a w' hs => ?_) fun _ _ _ _ he => by cases he
    obtain ⟨u', ok⟩ := a
    cases ok with
    | false => exact nofun
    | true => exact ih hrs u' w' (h.step hr.1 hr.2 (hs u' rfl))

omit hn in
theorem devmemPoll_append {D : Type} (size : UInt64) (dev : FabricDevice D) (xs ys : List MmioReg)
    (u : UioState D) :
    devmemPollWriteRegisters size dev (xs ++ ys) u =
      (devmemPollWriteRegisters size dev xs u >>= fun p =>
        if p.2 then devmemPollWriteRegisters size dev ys p.1 else pure (p.1, false)) := by
  induction xs generalizing u with
  | nil => rfl
  | cons x xs ih =>
    simp only [List.cons_append, devmemPollWriteRegisters, Prog.bind_assoc]
    congr 1
    funext p
    obtain ⟨u, ok⟩ := p
    cases ok with
    | true => exact ih u
    | false => rfl

/-- An acknowledgement that leaves the announcement of a completion as it is. -/
def AckHarmless (irq : Option DevmemIrq) (u : UioState (FabricBinding P)) : Prop :=
  Differs u .interruptAck → u.window MmioReg.interruptAck.offset &&& virtioInterruptVring = 0 ∧
    ∀ i, irq = some i → i.irqAssert = i.irqDeassert

omit hn in
/-- What is left of the announcement after the acknowledgement. -/
theorem Announced.ack {u₀ u u' : UioState (FabricBinding P)} {w w' : List UInt32 × List Call}
    (h : Announced irq u₀ u w) (hs : DevmemScanned irq .interruptAck u w u' w') (hst : Stored w'.2) :
    (VringPending u'.dev.dev.vdev ∧ LastIs irq DevmemIrq.irqAssert w'.1) ↔ AckHarmless irq u₀ := by
  obtain ⟨hwin, hsh⟩ := h.ahead .interruptAck (.inl rfl)
  have hdiff : Differs u .interruptAck ↔ Differs u₀ .interruptAck := by rw [Differs, Differs, hwin, hsh]
  by_cases hd : Differs u .interruptAck
  · have hw := hs.written hd
    rw [Written, if_neg (by decide), if_pos rfl, hwin] at hw
    obtain ⟨hv, hdown, hst'⟩ := hw
    obtain ⟨hv0, -⟩ := h.announced (hst' hst)
    have hlast : LastIs irq DevmemIrq.irqAssert w'.1 ↔ ∀ i, irq = some i → i.irqAssert = i.irqDeassert := by
      refine forall_congr' fun i => imp_congr_right fun hi => ?_
      rw [hdown i hi, Option.some.injEq, eq_comm]
    rw [hv, hlast, AckHarmless, ← hdiff]
    exact ⟨fun h _ => ⟨h.1.2, h.2⟩, fun h => ⟨⟨hv0, (h hd).1⟩, (h hd).2⟩⟩
  · obtain ⟨hdev, rfl⟩ := hs.same hd
    rw [hdev]
    exact iff_of_true (h.announced hst) fun hd' => absurd (hdiff.2 hd') hd

variable (ops) in
/-- A status that is not a reset leaves it alone. -/
theorem devmemPoll_completion {u u' : UioState (FabricBinding P)} {stores : List UInt32}
    {calls : List Call}
    (h : Runs (logged (devmemIrqHandler irq))
      (devmemPollWriteRegisters 0x200 (bindingDevice ops notify) devmemWriteOffsets u) ([], []) (.ok (u', true))
      (stores, calls)) (hst : Stored calls)
    (hreset : Differs u .status → u.window MmioReg.status.offset ≠ 0) :
    (VringPending u'.dev.dev.vdev ∧ LastIs irq DevmemIrq.irqAssert stores) ↔ AckHarmless irq u := by
  have hstart : Announced irq u u ([], []) := ⟨fun ⟨_, _, h⟩ => absurd h List.not_mem_nil, fun _ _ => ⟨rfl, rfl⟩⟩
  have hsplit : devmemWriteOffsets = devmemWriteOffsets.take 13 ++ [.interruptAck, .status] := rfl
  rw [hsplit, devmemPoll_append] at h
  have hpoll := devmemPoll_announced ops hn (devmemWriteOffsets.take 13) (by decide) u ([], []) hstart
  refine h.of_wp (Q := fun o w' => ∀ u', o = .ok (u', true) → Stored w'.2 →
    ((VringPending u'.dev.dev.vdev ∧ LastIs irq DevmemIrq.irqAssert w'.1) ↔ AckHarmless irq u)) ?_ u' rfl hst
  refine wp_seq hpoll (fun a w₁ h₁ => ?_) fun _ _ _ _ he => by cases he
  obtain ⟨u₁, ok⟩ := a
  refine wp_ite (fun hok => ?_) fun _ => nofun
  cases ok with
  | false => cases hok
  | true =>
    have h₁ := h₁ u₁ rfl
    refine wp_seq (devmemScan_spec hn .interruptAck u₁ w₁) (fun a w₂ h₂ => ?_) fun _ _ _ _ he => by cases he
    obtain ⟨u₂, ok⟩ := a
    cases ok with
    | false => exact nofun
    | true =>
      have h₂ := h₂ u₂ rfl
      refine wp_seq (devmemScan_spec hn .status u₂ w₂) (fun a w₃ h₃ => ?_) fun _ _ _ _ he => by cases he
      obtain ⟨u₃, ok⟩ := a
      cases ok with
      | false => exact nofun
      | true =>
        intro u' he hst
        cases he
        have h₃ := h₃ u₃ rfl
        obtain ⟨hwin, hsh⟩ := h₂.others .status (by decide)
        rw [(h₁.ahead .status (.inr rfl)).1] at hwin
        rw [(h₁.ahead .status (.inr rfl)).2] at hsh
        have hkeep : (VringPending u₃.dev.dev.vdev ↔ VringPending u₂.dev.dev.vdev) ∧ w₃ = w₂ := by
          by_cases hd : Differs u₂ .status
          · refine (h₃.written hd).plain (by decide) (by decide) fun _ => ?_
            rw [Differs, hwin, hsh] at hd
            rw [hwin]
            exact hreset hd
          · obtain ⟨hdev, hw⟩ := h₃.same hd
            exact ⟨by rw [hdev], hw⟩
        obtain ⟨hv, rfl⟩ := hkeep
        rw [hv]
        exact h₁.ack h₂ hst

end

/-- **A completion's interrupt survives the pass, exactly.** In a pass on the
block device that succeeds, publishes a used element and does not deliver
`STATUS = 0`, the VRING bit ends set and the IRQ register, if configured, ends
with the assert value iff no acknowledgement is found in the pass, or one that
leaves the VRING bit out while the register has one value for both levels. -/
theorem devmem_completion (direct : Bool) (fuel : Nat) (irq : Option DevmemIrq)
    {u u' : UioState (FabricBinding BlkdState)} {stores : List UInt32} {calls : List Call}
    (h : Runs (logged (devmemIrqHandler irq))
      (devmemPollWriteRegisters (blkdFabricInitDevice direct fuel).size (blkdFabricInitDevice direct fuel)
      devmemWriteOffsets u) ([], []) (.ok (u', true)) (stores, calls))
    (hpub : Published u'.dev.dev calls)
    (hreset : Differs u .status → u.window MmioReg.status.offset ≠ 0) :
    (VringPending u'.dev.dev.vdev ∧ ∀ i, irq = some i → stores.getLast? = some i.irqAssert) ↔
      (Differs u .interruptAck → u.window MmioReg.interruptAck.offset &&& virtioInterruptVring = 0 ∧
        ∀ i, irq = some i → i.irqAssert = i.irqDeassert) :=
  devmemPoll_completion blkdOps (blkdNotify_notified (devmem_irqPort irq) direct fuel) h hpub.stored hreset

/-! ## A kick with and without an acknowledgement -/

/-- The memory's answers, the stores to the IRQ register and the calls. -/
def devmemAnswer (irq : DevmemIrq) (w : Ram × List UInt32 × List Call) (c : Call) :
    c.Reply × Ram × List UInt32 × List Call :=
  let a := w.1.answer (fun _ _ => false) c
  let stores := match c with
    | .raiseIrq => [irq.irqDeassert, irq.irqAssert]
    | .lowerIrq => [irq.irqDeassert]
    | _ => []
  (a.1, a.2, w.2.1 ++ stores, w.2.2 ++ [c])

theorem devmemAnswer_handler (irq : DevmemIrq) (w : Ram × List UInt32 × List Call) (c : Call) :
    logged (devmemIrqHandler (some irq)) w.2 c (devmemAnswer irq w c).1 (devmemAnswer irq w c).2.2 := by
  refine ⟨⟨_, ?_, rfl⟩, rfl⟩
  cases c with
  | raiseIrq => exact .inl ⟨rfl, rfl⟩
  | lowerIrq => exact .inl ⟨rfl, rfl⟩
  | dmaMap gpa len => exact ⟨rfl, rfl⟩
  | _ => rfl

/-- The block device with its queue set up and an earlier completion announced. -/
def announcedBinding : FabricBinding BlkdState :=
  let b := blkdConnect noBuffer emptyDisk
  { b with mmio := { b.mmio with vdev := { b.mmio.vdev with
      queues := [⟨8, 1, 0x1000, 0x2000, 0x3000, 0⟩], interruptStatus := virtioInterruptVring } } }

/-- A kick, and `mask` in the acknowledgement. -/
def kickWith (mask : UInt32) : UioState (FabricBinding BlkdState) where
  window := Window.set (fun _ => 0) MmioReg.interruptAck.offset mask
  shadow r := if r = .queueNotify then devmemNotifyIdle else 0
  dev := announcedBinding

def irqZeroOne : DevmemIrq := ⟨1, 0⟩

def passWith (mask : UInt32) :
    Except Fault (UioState (FabricBinding BlkdState) × Bool) × Ram × List UInt32 × List Call :=
  (devmemPollWriteRegisters (blkdFabricInitDevice false 4).size (blkdFabricInitDevice false 4) devmemWriteOffsets
    (kickWith mask)).run (devmemAnswer irqZeroOne) (flushPosted, [], [])

/-- The pass succeeds, publishes, and ends with this bit and this value. -/
def passEnds (mask : UInt32) (vring : Bool) (last : UInt32) : Bool :=
  match (passWith mask).1 with
  | .ok (u, ok) => ok && decide (.dmaWrite ((u.dev.dev.queue 0).used + 2) [1, 0] ∈ (passWith mask).2.2.2) &&
      (decide (VringPending u.dev.dev.vdev) == vring) && (passWith mask).2.2.1.getLast? == some last
  | .error _ => false

theorem passEnds_runs {mask last : UInt32} {vring : Bool} (h : passEnds mask vring last = true) :
    ∃ u' stores calls, Runs (logged (devmemIrqHandler (some irqZeroOne)))
        (devmemPollWriteRegisters (blkdFabricInitDevice false 4).size (blkdFabricInitDevice false 4)
          devmemWriteOffsets (kickWith mask)) ([], []) (.ok (u', true)) (stores, calls) ∧
      Published u'.dev.dev calls ∧ decide (VringPending u'.dev.dev.vdev) = vring ∧ stores.getLast? = some last := by
  have hrun := Runs.of_run (π := fun w : Ram × List UInt32 × List Call => w.2) (devmemAnswer_handler irqZeroOne)
    (devmemPollWriteRegisters (blkdFabricInitDevice false 4).size (blkdFabricInitDevice false 4) devmemWriteOffsets
      (kickWith mask)) (flushPosted, [], [])
  change Runs _ _ _ (passWith mask).1 (passWith mask).2.2 at hrun
  unfold passEnds at h
  generalize (passWith mask).1 = o at h hrun
  generalize (passWith mask).2.2 = w at h hrun
  cases o with
  | error e => cases h
  | ok a =>
    obtain ⟨u', ok⟩ := a
    obtain ⟨stores, calls⟩ := w
    simp only [Bool.and_eq_true, decide_eq_true_eq, beq_iff_eq] at h
    obtain ⟨⟨⟨rfl, hpub⟩, hv⟩, hlast⟩ := h
    exact ⟨u', stores, calls, hrun, ⟨0, _, hpub⟩, hv, hlast⟩

/-- With the acknowledgement of the earlier interrupt the pass completes the
request and ends with the bit clear and the line down. -/
theorem ack_drops_completion : ∃ u' stores calls, Runs (logged (devmemIrqHandler (some irqZeroOne)))
      (devmemPollWriteRegisters (blkdFabricInitDevice false 4).size (blkdFabricInitDevice false 4)
        devmemWriteOffsets (kickWith 1)) ([], []) (.ok (u', true)) (stores, calls) ∧
    Published u'.dev.dev calls ∧ ¬ Differs (kickWith 1) .status ∧ ¬ VringPending u'.dev.dev.vdev ∧
    stores.getLast? = some irqZeroOne.irqDeassert := by
  obtain ⟨u', stores, calls, hrun, hpub, hv, hlast⟩ :=
    passEnds_runs (show passEnds 1 false 0 = true by decide +kernel)
  exact ⟨u', stores, calls, hrun, hpub, by unfold Differs; decide, of_decide_eq_false hv, hlast⟩

theorem devmem_completion_no_ack :
    ∃ u' stores calls, Runs (logged (devmemIrqHandler (some irqZeroOne)))
      (devmemPollWriteRegisters (blkdFabricInitDevice false 4).size (blkdFabricInitDevice false 4)
        devmemWriteOffsets (kickWith 0)) ([], []) (.ok (u', true)) (stores, calls) ∧
    Published u'.dev.dev calls ∧ VringPending u'.dev.dev.vdev ∧ stores.getLast? = some 1 := by
  obtain ⟨u', stores, calls, hrun, hpub, -, -⟩ := passEnds_runs (show passEnds 0 true 1 = true by decide +kernel)
  have h := (devmem_completion false 4 (some irqZeroOne) hrun hpub fun h => absurd h (by unfold Differs; decide)).2
    fun h => absurd h (by unfold Differs; decide)
  exact ⟨u', stores, calls, hrun, hpub, h.1, h.2 irqZeroOne rfl⟩

end AcsVirt.L4
