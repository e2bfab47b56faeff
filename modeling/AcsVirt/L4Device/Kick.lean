import AcsVirt.Core.LTS
import AcsVirt.L2Machine.LinuxUio
import AcsVirt.L4Device.Connection

/-!
# Queue kicks in UIO mode

A kick is a word in the shared window; the daemon finds it when it scans. To
get a scan, the frontend QEMU (slave) sends `FRONTEND_NOTIFY` over the control
socket, the backend QEMU (master) turns it into a UIO interrupt, and the daemon
wakes. With `notify-policy=barrier` and `notify-ack=on` a kick sends no second
notify while `async_notify_pending` is set; the flag is cleared when
`axi_control_read` meets an acknowledgement, and those come with the daemon's
deferred interrupt write.

Every party moves on its own, and the daemon's scan is taken apart: looking at
a word, consuming it and calling the device are separate steps. Left out are
the sequence numbers of the acknowledgements, which nothing reads, the length
of the delays (a wait may end at any time) and a broken control socket.

A suppressed kick relies on the notify that set the flag, which may have been
used up. `kicks_awaited_iff` says that such a kick is the only way to lose one;
a guest that lets `axi_control_read` meet an acknowledgement between any two
kicks makes none (`kicks_awaited_of_paced`). It does happen, and for good: an acknowledgement that ends
`axi_wait_for_notify_ack` does not clear the flag, and two notifies may share
one scan and so one acknowledgement (`stuck_flag_loses_kick`). From then on
kicks are not heard until the guest writes another barrier register
(`Stuck.run`).
-/
namespace AcsVirt.L4

open L2 L2.MmioReg

/-- Control messages.
mirrors patches/qemu/0001-chiplets-qemu-support.patch:242-245 -/
inductive CtlMsg where
  | frontendNotify | frontendIrqAssert | frontendIrqDeassert | frontendNotifyAck
  deriving DecidableEq, Repr

/-- The slave device: `waiting` while a guest write is inside
`axi_wait_for_notify_ack`. -/
structure AxiSlave where
  asyncNotifyPending : Bool
  waiting : Bool
  irq : Bool
  deriving DecidableEq, Repr

/-- Where the daemon is in its loop. `rest` are the registers still to be
looked at in this scan; `loaded` is between the load and the store. -/
inductive Daemon where
  | blocked
  | scan (rest : List MmioReg)
  | loaded (r : MmioReg) (value : UInt32) (rest : List MmioReg)
  | dispatch (r : MmioReg) (value : UInt32) (rest : List MmioReg)
  | refreshed
  deriving DecidableEq, Repr

/-- mirrors patches/qemu/0001-chiplets-qemu-support.patch:226-229 -/
inductive NotifyPolicy where
  | all | barrier
  deriving DecidableEq, Repr

/-- mirrors patches/qemu/0001-chiplets-qemu-support.patch:1151,1157 -/
structure NotifyConfig where
  notifyPolicy : NotifyPolicy
  notifyAck : Bool
  deriving DecidableEq, Repr

/-- Barrier policy.
mirrors patches/qemu/0001-chiplets-qemu-support.patch:320-339 -/
def axiUioWriteNeedsBackend (r : MmioReg) : Bool :=
  r ∈ [deviceFeaturesSel, driverFeatures, driverFeaturesSel, queueSel, queueReady, interruptAck,
    queueNotify, status]

/-- mirrors patches/qemu/0001-chiplets-qemu-support.patch:320-339 -/
def NotifyPolicy.needsBackend (pol : NotifyPolicy) (addr : UInt64) : Bool :=
  pol = .all || (MmioReg.ofOffset? addr).any axiUioWriteNeedsBackend

/-- A write whose announcement waits.
mirrors patches/qemu/0001-chiplets-qemu-support.patch:830-837 -/
def NotifyPolicy.waits (pol : NotifyPolicy) (addr : UInt64) : Bool :=
  pol.needsBackend addr && !(pol = .barrier && addr = MmioReg.queueNotify.offset)

/-- The slave device and what it has sent to the master. -/
structure AxiFrontend where
  slave : AxiSlave
  toMaster : List CtlMsg

/-- The message and the beginning of the wait: for the acknowledgement
(`axi_wait_for_notify_ack`), or of the delay made without acknowledgements.
mirrors patches/qemu/0001-chiplets-qemu-support.patch:301-309,341-356 -/
def axiUioNotifyBackend (f : AxiFrontend) : AxiFrontend where
  slave := { f.slave with waiting := true }
  toMaster := f.toMaster ++ [.frontendNotify]

/-- mirrors patches/qemu/0001-chiplets-qemu-support.patch:311-318 -/
def axiUioNotifyBackendAsync (notifyAck : Bool) (f : AxiFrontend) : AxiFrontend :=
  if notifyAck ∧ f.slave.asyncNotifyPending then f
  else ⟨{ f.slave with asyncNotifyPending := notifyAck }, f.toMaster ++ [.frontendNotify]⟩

/-- The notification of a guest write.
mirrors patches/qemu/0001-chiplets-qemu-support.patch:830-837 -/
def axiUioNotify (cfg : NotifyConfig) (f : AxiFrontend) (addr : UInt64) : AxiFrontend :=
  if cfg.notifyPolicy.waits addr then axiUioNotifyBackend f
  else if cfg.notifyPolicy.needsBackend addr then axiUioNotifyBackendAsync cfg.notifyAck f
  else f

structure KickState extends AxiFrontend where
  toSlave : List CtlMsg
  uioPending : Bool
  daemon : Daemon
  uio : UioState Unit
  pendingIrqLevel : Option Bool

/-- `axi_control_read` on the master, whose interrupt is the UIO interrupt.
mirrors patches/qemu/0001-chiplets-qemu-support.patch:450-491 -/
def masterRead (s : KickState) : CtlMsg → KickState
  | .frontendNotify => { s with uioPending := true }
  | .frontendIrqAssert => { s with uioPending := true }
  | _ => s

/-- `axi_control_read` on the slave; `notify` is only sent the other way.
mirrors patches/qemu/0001-chiplets-qemu-support.patch:450-491 -/
def slaveRead (s : AxiSlave) : CtlMsg → AxiSlave
  | .frontendNotify => { s with irq := false }
  | .frontendIrqAssert => { s with irq := true }
  | .frontendIrqDeassert => { s with irq := false }
  | .frontendNotifyAck => { s with asyncNotifyPending := false }

/-- A turn of the loop in `axi_wait_for_notify_ack`: the acknowledgement ends
the wait and does not clear the flag.
mirrors patches/qemu/0001-chiplets-qemu-support.patch:371-396 -/
def waitRead (s : AxiSlave) : CtlMsg → AxiSlave
  | .frontendNotify => s
  | .frontendIrqAssert => { s with irq := true }
  | .frontendIrqDeassert => { s with irq := false }
  | .frontendNotifyAck => { s with waiting := false }

/-- The deferred interrupt level after the device was called: a notify asks
for the line up or down, an acknowledgement and a reset for the line down.
mirrors src/drivers/virtio-blkd.c:632-651, src/fabrics/linux_uio.c:698-714 -/
def irqRequest (r : MmioReg) (value : UInt32) (level : Bool) (pending : Option Bool) :
    Option Bool :=
  if r = .queueNotify then some level
  else if r = .interruptAck ∨ (r = .status ∧ value = 0) then some false
  else pending

inductive KickAct where
  | guestWrite (r : MmioReg) (value : UInt32)
  | masterRead
  | slaveRead
  | waitRead
  | timeout
  | wake
  | load
  | consume
  | answer (level : Bool)
  | refresh (dev : FabricDevice Unit)
  | flush

/-- `none` where a party cannot move. The flush on the daemon's side is a
store to the control word; the master answers it with the interrupt message
and the acknowledgement. -/
def kickStep (z : UioSizes) (s : KickState) : KickAct → Option KickState
  | .guestWrite r value =>
    if s.slave.waiting then none
    else some { s with
      uio := { s.uio with window := axiUioWrite z.mmioSize s.uio.window r.offset value }
      toAxiFrontend := axiUioNotify ⟨.barrier, true⟩ s.toAxiFrontend r.offset }
  | .masterRead =>
    match s.toMaster with
    | [] => none
    | m :: ms => some (masterRead { s with toMaster := ms } m)
  | .slaveRead =>
    match s.toSlave with
    | [] => none
    | m :: ms =>
      if s.slave.waiting then none else some { s with toSlave := ms, slave := slaveRead s.slave m }
  | .waitRead =>
    match s.toSlave with
    | [] => none
    | m :: ms =>
      if s.slave.waiting then some { s with toSlave := ms, slave := waitRead s.slave m } else none
  | .timeout =>
    if s.slave.waiting then some { s with slave := { s.slave with waiting := false } } else none
  | .wake =>
    if s.daemon = .blocked ∧ s.uioPending then
      some { s with uioPending := false, daemon := .scan writeOffsets }
    else none
  | .load =>
    match s.daemon with
    | .scan (r :: rest) =>
      match changed z r s.uio with
      | none => some { s with daemon := .scan rest }
      | some value => some { s with daemon := .loaded r value rest }
    | _ => none
  | .consume =>
    match s.daemon with
    | .loaded r value rest =>
      some { s with uio := consume r value s.uio, daemon := .dispatch r value rest }
    | _ => none
  | .answer level =>
    match s.daemon with
    | .dispatch r value rest =>
      some { s with
        uio := settle z r s.uio
        pendingIrqLevel := irqRequest r value level s.pendingIrqLevel
        daemon := .scan rest }
    | _ => none
  | .refresh dev =>
    if s.daemon = .scan [] then
      some { s with uio := refreshReadRegisters z dev s.uio, daemon := .refreshed }
    else none
  | .flush =>
    if s.daemon = .refreshed then
      match s.pendingIrqLevel with
      | none => some { s with daemon := .blocked }
      | some level =>
        if z.mmioSize < uioIrqControlOffset + 4 then none
        else some { s with
          uio := { s.uio with window := s.uio.window.set uioIrqControlOffset (if level then 1 else 0) }
          pendingIrqLevel := none
          toSlave := s.toSlave ++
            [if level then .frontendIrqAssert else .frontendIrqDeassert, .frontendNotifyAck]
          daemon := .blocked }
    else none

/-- Everything idle, the daemon in front of its first wait. -/
def kickStart (z : UioSizes) (dev : FabricDevice Unit) (w : Window) : KickState where
  slave := ⟨false, false, false⟩
  toMaster := []
  toSlave := []
  uioPending := false
  daemon := .blocked
  uio := uioStart z dev () w
  pendingIrqLevel := none

def kickLts (z : UioSizes) : LTS KickState KickAct where
  init s := ∃ dev w, s = kickStart z dev w
  step s a s' := kickStep z s a = some s'

/-- The steps of `kickStep`, one by one. -/
inductive KickStep (z : UioSizes) (s : KickState) : KickAct → KickState → Prop
  | guestWrite (r : MmioReg) (value : UInt32) : s.slave.waiting = false → KickStep z s (.guestWrite r value)
      { s with
        uio := { s.uio with window := axiUioWrite z.mmioSize s.uio.window r.offset value }
        toAxiFrontend := axiUioNotify ⟨.barrier, true⟩ s.toAxiFrontend r.offset }
  | masterRead {m : CtlMsg} {ms : List CtlMsg} : s.toMaster = m :: ms →
      KickStep z s .masterRead (L4.masterRead { s with toMaster := ms } m)
  | slaveRead {m : CtlMsg} {ms : List CtlMsg} : s.toSlave = m :: ms → s.slave.waiting = false →
      KickStep z s .slaveRead { s with toSlave := ms, slave := L4.slaveRead s.slave m }
  | waitRead {m : CtlMsg} {ms : List CtlMsg} : s.toSlave = m :: ms → s.slave.waiting = true →
      KickStep z s .waitRead { s with toSlave := ms, slave := L4.waitRead s.slave m }
  | timeout : s.slave.waiting = true → KickStep z s .timeout { s with slave := { s.slave with waiting := false } }
  | wake : s.daemon = .blocked → s.uioPending = true →
      KickStep z s .wake { s with uioPending := false, daemon := .scan writeOffsets }
  | skip {r : MmioReg} {rest : List MmioReg} : s.daemon = .scan (r :: rest) → changed z r s.uio = none →
      KickStep z s .load { s with daemon := .scan rest }
  | load {r : MmioReg} {value : UInt32} {rest : List MmioReg} : s.daemon = .scan (r :: rest) →
      changed z r s.uio = some value → KickStep z s .load { s with daemon := .loaded r value rest }
  | consume {r : MmioReg} {value : UInt32} {rest : List MmioReg} : s.daemon = .loaded r value rest →
      KickStep z s .consume { s with uio := L2.consume r value s.uio, daemon := .dispatch r value rest }
  | answer {r : MmioReg} {value : UInt32} {rest : List MmioReg} (level : Bool) :
      s.daemon = .dispatch r value rest → KickStep z s (.answer level) { s with
        uio := settle z r s.uio
        pendingIrqLevel := irqRequest r value level s.pendingIrqLevel
        daemon := .scan rest }
  | refresh (dev : FabricDevice Unit) : s.daemon = .scan [] →
      KickStep z s (.refresh dev) { s with uio := refreshReadRegisters z dev s.uio, daemon := .refreshed }
  | quiet : s.daemon = .refreshed → s.pendingIrqLevel = none → KickStep z s .flush { s with daemon := .blocked }
  | flush {level : Bool} : s.daemon = .refreshed → s.pendingIrqLevel = some level →
      KickStep z s .flush { s with
        uio := { s.uio with window := s.uio.window.set uioIrqControlOffset (if level then 1 else 0) }
        pendingIrqLevel := none
        toSlave := s.toSlave ++
          [if level then .frontendIrqAssert else .frontendIrqDeassert, .frontendNotifyAck]
        daemon := .blocked }

theorem kickStep_inv {z : UioSizes} {s s' : KickState} {a : KickAct} (hs : kickStep z s a = some s') :
    KickStep z s a s' := by
  cases a with
  | guestWrite r value =>
    simp only [kickStep, Option.ite_none_left_eq_some, Option.some.injEq, Bool.not_eq_true] at hs
    obtain ⟨hw, rfl⟩ := hs
    exact .guestWrite r value hw
  | masterRead =>
    simp only [kickStep] at hs
    split at hs <;> cases hs
    exact .masterRead ‹_›
  | slaveRead =>
    simp only [kickStep] at hs
    split at hs
    · cases hs
    · split at hs <;> cases hs
      exact .slaveRead ‹_› (Bool.eq_false_iff.2 ‹_›)
  | waitRead =>
    simp only [kickStep] at hs
    split at hs
    · cases hs
    · split at hs <;> cases hs
      exact .waitRead ‹_› ‹_›
  | timeout =>
    simp only [kickStep] at hs
    split at hs <;> cases hs
    exact .timeout ‹_›
  | wake =>
    simp only [kickStep] at hs
    split at hs <;> cases hs
    rename_i h
    exact .wake h.1 h.2
  | load =>
    simp only [kickStep] at hs
    split at hs
    · split at hs <;> cases hs
      · exact .skip ‹_› ‹_›
      · exact .load ‹_› ‹_›
    · cases hs
  | consume =>
    simp only [kickStep] at hs
    split at hs <;> cases hs
    exact .consume ‹_›
  | answer level =>
    simp only [kickStep] at hs
    split at hs <;> cases hs
    exact .answer level ‹_›
  | refresh dev =>
    simp only [kickStep] at hs
    split at hs <;> cases hs
    exact .refresh dev ‹_›
  | flush =>
    simp only [kickStep] at hs
    split at hs
    · split at hs
      · cases hs
        exact .quiet ‹_› ‹_›
      · split at hs <;> cases hs
        exact .flush ‹_› ‹_›
    · cases hs

/-! ## Awaited kicks -/

/-- The daemon is awake and has `QUEUE_NOTIFY` still in front of it. -/
def Unexamined : Daemon → Prop
  | .scan rest => .queueNotify ∈ rest
  | .loaded r _ rest => r = .queueNotify ∨ .queueNotify ∈ rest
  | .dispatch _ _ rest => .queueNotify ∈ rest
  | _ => False

instance : DecidablePred Unexamined := fun d => by
  cases d <;> unfold Unexamined <;> infer_instance

/-- The daemon will look at `QUEUE_NOTIFY` without another notify. -/
def Covered (s : KickState) : Prop :=
  .frontendNotify ∈ s.toMaster ∨ s.uioPending = true ∨ Unexamined s.daemon

/-- The window holds a kick the daemon has not consumed. -/
def KickPending (s : KickState) : Prop := s.uio.window MmioReg.queueNotify.offset ≠ uioNotifyIdle

instance : DecidablePred KickPending := fun _ => inferInstanceAs (Decidable (_ ≠ _))

/-- No kick is lost. -/
def Awaited (s : KickState) : Prop := KickPending s → Covered s

/-- A kick that is suppressed is made while it is covered. -/
def SuppressedCovered (s : KickState) : KickAct → Prop
  | .guestWrite r value =>
    r = .queueNotify → s.slave.asyncNotifyPending = true → value ≠ uioNotifyIdle → Covered s
  | _ => True

/-! ## What a step does to the kick -/

section
variable {z : UioSizes} {s s' : KickState} {a : KickAct}

theorem consume_shadow_notify {u : UioState Unit} (h : u.shadow .queueNotify = uioNotifyIdle)
    (r : MmioReg) (value : UInt32) : (consume r value u).shadow .queueNotify = uioNotifyIdle := by
  by_cases hr : r = .queueNotify
  · simp [consume, hr, UioState.setShadow]
  · simp [consume, hr, UioState.setShadow, Ne.symm hr, h]

theorem consume_word_notify (u : UioState Unit) (r : MmioReg) (value : UInt32) :
    (consume r value u).window MmioReg.queueNotify.offset =
      if r = .queueNotify then uioNotifyIdle else u.window MmioReg.queueNotify.offset := by
  by_cases hr : r = .queueNotify
  · simp [consume, hr, UioState.setShadow, UioState.setWord, Window.set_self]
  · simp [consume, hr, UioState.setShadow]

theorem settle_notify (u : UioState Unit) (r : MmioReg) :
    (settle z r u).window MmioReg.queueNotify.offset = u.window MmioReg.queueNotify.offset ∧
      (settle z r u).shadow .queueNotify = u.shadow .queueNotify := by
  unfold settle
  split
  · simp [syncQueueState, queueStateOffsets]
  · split
    · rename_i hr
      subst hr
      have hne : MmioReg.queueNotify.offset ≠ MmioReg.interruptAck.offset := offset_ne (by decide)
      simp [UioState.setShadow, UioState.setWord, Window.set_other hne]
    · exact ⟨rfl, rfl⟩

/-- A notification takes no message back. -/
theorem axiUioNotify_subset (cfg : NotifyConfig) (f : AxiFrontend) (addr : UInt64) :
    f.toMaster ⊆ (axiUioNotify cfg f addr).toMaster := by
  unfold axiUioNotify axiUioNotifyBackend axiUioNotifyBackendAsync
  split
  · exact List.subset_append_left _ _
  · split
    · split
      · exact List.Subset.refl _
      · exact List.subset_append_left _ _
    · exact List.Subset.refl _

/-- A kick under the barrier policy does not wait. -/
theorem axiUioNotify_kick (ack : Bool) (f : AxiFrontend) :
    axiUioNotify ⟨.barrier, ack⟩ f MmioReg.queueNotify.offset = axiUioNotifyBackendAsync ack f := rfl

theorem Covered.mono (hc : Covered s) (hm : s.toMaster ⊆ s'.toMaster)
    (hp : s.uioPending = true → s'.uioPending = true)
    (hu : Unexamined s.daemon → Unexamined s'.daemon) :
    Covered s' :=
  hc.imp (@hm _) (Or.imp hp hu)

/-- What a step other than a guest write may do: a kick that is there
afterwards was there before, and it is still covered. -/
structure Keeps (s s' : KickState) : Prop where
  shadow : s.uio.shadow .queueNotify = uioNotifyIdle → s'.uio.shadow .queueNotify = uioNotifyIdle
  covered : s.uio.shadow .queueNotify = uioNotifyIdle → KickPending s' →
    KickPending s ∧ (Covered s → Covered s')

theorem Keeps.of_uio (hu : s'.uio = s.uio) (hc : KickPending s → Covered s → Covered s') :
    Keeps s s' :=
  ⟨fun h => hu ▸ h, fun _ hk => by
    have hk' : KickPending s := by
      unfold KickPending at hk ⊢
      rwa [hu] at hk
    exact ⟨hk', hc hk'⟩⟩

theorem masterRead_keeps {m : CtlMsg} {ms : List CtlMsg} (hm : s.toMaster = m :: ms) :
    Keeps s (masterRead { s with toMaster := ms } m) := by
  have hc : m ≠ .frontendNotify → Covered s → Covered { s with toMaster := ms } := by
    intro hne hc
    rcases hc with h | h | h
    · rw [hm] at h
      exact .inl ((List.mem_cons.1 h).resolve_left (Ne.symm hne))
    · exact .inr (.inl h)
    · exact .inr (.inr h)
  cases m with
  | frontendNotify | frontendIrqAssert => exact .of_uio rfl fun _ _ => .inr (.inl rfl)
  | frontendIrqDeassert | frontendNotifyAck => exact .of_uio rfl fun _ => hc (by decide)

/-- `QUEUE_NOTIFY` is only passed over when it is idle. -/
theorem skip_keeps (hz : z.devSize = 0x200) {r : MmioReg} {rest : List MmioReg}
    (hd : s.daemon = .scan (r :: rest)) (hv : changed z r s.uio = none) :
    Keeps s { s with daemon := .scan rest } := by
  simp only [changed_eq hz, ite_eq_left_iff, reduceCtorEq, imp_false, Decidable.not_not] at hv
  refine ⟨id, fun hsh hk => ⟨hk, fun hc => hc.mono (List.Subset.refl _) id fun hu => ?_⟩⟩
  rw [hd] at hu
  refine (List.mem_cons.1 hu).resolve_left fun hr => hk ?_
  subst hr
  exact hv.trans hsh

theorem load_keeps {r : MmioReg} {value : UInt32} {rest : List MmioReg}
    (hd : s.daemon = .scan (r :: rest)) : Keeps s { s with daemon := .loaded r value rest } := by
  refine .of_uio rfl fun _ hc => hc.mono (List.Subset.refl _) id fun hu => ?_
  rw [hd] at hu
  exact (List.mem_cons.1 hu).imp Eq.symm id

theorem consume_keeps {r : MmioReg} {value : UInt32} {rest : List MmioReg}
    (hd : s.daemon = .loaded r value rest) :
    Keeps s { s with uio := consume r value s.uio, daemon := .dispatch r value rest } := by
  refine ⟨fun h => consume_shadow_notify h _ _, fun _ hk => ?_⟩
  simp only [KickPending, consume_word_notify] at hk
  split at hk
  · exact absurd rfl hk
  · rename_i hr
    refine ⟨hk, fun hc => hc.mono (List.Subset.refl _) id fun hu => ?_⟩
    rw [hd] at hu
    exact hu.resolve_left hr

/-- Every step but a guest write. -/
theorem kickStep_keeps (hz : z.devSize = 0x200) (ha : ∀ r value, a ≠ .guestWrite r value)
    (hs : KickStep z s a s') : Keeps s s' := by
  cases hs with
  | guestWrite r value => exact absurd rfl (ha r value)
  | masterRead hm => exact masterRead_keeps hm
  | slaveRead | waitRead | timeout => exact .of_uio rfl fun _ => id
  | wake => exact .of_uio rfl fun _ _ => .inr (.inr (by show queueNotify ∈ writeOffsets; decide))
  | skip hd hv => exact skip_keeps hz hd hv
  | load hd => exact load_keeps hd
  | consume hd => exact consume_keeps hd
  | answer level hd =>
    refine ⟨(settle_notify _ _).2.trans, fun _ hk => ?_⟩
    simp only [KickPending, (settle_notify _ _).1] at hk
    exact ⟨hk, fun hc => hc.mono (List.Subset.refl _) id fun hu => by rwa [hd] at hu⟩
  | refresh dev hd =>
    refine ⟨id, fun _ hk => ?_⟩
    simp only [KickPending, refresh_word hz] at hk
    refine ⟨hk, fun hc => hc.mono (List.Subset.refl _) id fun hu => ?_⟩
    rw [hd] at hu
    exact absurd hu (by simp [Unexamined])
  | quiet hd =>
    exact .of_uio rfl fun _ hc => hc.mono (List.Subset.refl _) id fun hu => by rw [hd] at hu; exact hu.elim
  | flush hd =>
    have hne : MmioReg.queueNotify.offset ≠ uioIrqControlOffset := by decide
    refine ⟨id, fun _ hk => ?_⟩
    simp only [KickPending, Window.set_other hne] at hk
    exact ⟨hk, fun hc => hc.mono (List.Subset.refl _) id fun hu => by rw [hd] at hu; exact hu.elim⟩

theorem guestWrite_shadow (h : s.uio.shadow .queueNotify = uioNotifyIdle) {r : MmioReg}
    {value : UInt32} (hs : kickStep z s (.guestWrite r value) = some s') :
    s'.uio.shadow .queueNotify = uioNotifyIdle := by
  simp only [kickStep, Option.ite_none_left_eq_some, Option.some.injEq] at hs
  obtain ⟨_, rfl⟩ := hs
  exact h

/-- A guest write: a kick is covered by its own notify, or it is suppressed. -/
theorem guestWrite_awaited (hz : z.devSize = 0x200) (ha : Awaited s) {r : MmioReg} {value : UInt32}
    (hs : kickStep z s (.guestWrite r value) = some s') :
    Awaited s' ↔ SuppressedCovered s (.guestWrite r value) := by
  simp only [kickStep, Option.ite_none_left_eq_some, Option.some.injEq] at hs
  obtain ⟨_, rfl⟩ := hs
  have hword := axiUioWrite_word hz s.uio.window r .queueNotify value
  rw [if_neg (by simp [queueStateOffsets])] at hword
  generalize hw : axiUioWrite z.mmioSize s.uio.window r.offset value = w at hword ⊢
  by_cases hr : r = .queueNotify
  · subst hr
    rw [if_pos rfl] at hword
    by_cases hf : s.slave.asyncNotifyPending = true
    · -- nothing is sent: the state is the old one with the new word
      simp [axiUioNotify_kick, axiUioNotifyBackendAsync, Awaited, KickPending, SuppressedCovered, Covered, hf, hword]
    · simp [axiUioNotify_kick, axiUioNotifyBackendAsync, Awaited, Covered, SuppressedCovered, hf]
  · rw [if_neg (Ne.symm hr)] at hword
    refine iff_of_true (fun hk => ?_) fun h => absurd h hr
    simp only [KickPending, hword] at hk
    exact (ha hk).mono (axiUioNotify_subset _ _ _) id id

end

/-! ## The block device's answer -/

/-- The outside reduced to the deferred interrupt level. -/
def pendingHandler : Handler fabricSig (Option Bool) := fun pending c r pending' =>
  match c, r with
  | .raiseIrq, r => r = true ∧ pending' = some true
  | .lowerIrq, r => r = true ∧ pending' = some false
  | _, _ => pending' = pending

/-- A notify that succeeded has asked for a level. -/
def Asked {α : Type} (o : Except Fault (α × Bool)) (pending : Option Bool) : Prop :=
  ∀ r, o = .ok r → r.2 = true → ∃ level, pending = some level

theorem ackReturn_asked {P : Type} (d : Device P) (p : Option Bool) :
    wp pendingHandler (do return (d, ← ackNotify d)) Asked p := by
  have hack : wp pendingHandler (ackNotify d) (fun _ p' => ∃ level, p' = some level) p :=
    wp_ite (fun _ _ _ h => ⟨true, h.2⟩) fun _ _ _ h => ⟨false, h.2⟩
  exact wp_seq hack (fun _ _ h _ _ _ => h) fun _ _ _ _ he => by cases he

theorem serviceQueue_asked {P : Type} {i : Nat}
    {process : Device P → UInt16 → FabricM (Device P × Option UInt32)}
    (hp : QuietHandler (fun _ => True) process) (fuel : Nat) (d : Device P) (p : Option Bool) :
    wp pendingHandler (serviceQueue i process fuel d) Asked p := by
  have hloop := (serviceLoop_sat (i := i) hp trivial fuel d false fun _ => trivial).wp
    (R := pendingHandler) (I := fun _ => True) (w := p) (fun _ _ _ _ _ _ _ => trivial) trivial
  refine wp_seq hloop (fun r p' _ => ?_) fun _ _ _ _ he => by cases he
  obtain ⟨d', r⟩ := r
  match r with
  | none =>
    intro r hr hok
    cases hr
    cases hok
  | some true => exact fun _ _ h _ _ _ => ⟨true, h.2⟩
  | some false => exact ackReturn_asked d' p'

/-- The answers of the daemon's step are those of the block device: a
register write that succeeds leaves the deferred level as `irqRequest` says. -/
theorem blkdWrite_irqRequest (direct : Bool) (fuel : Nat) (b : FabricBinding BlkdState)
    (r : MmioReg) (value : UInt32) (pending : Option Bool) :
    wp pendingHandler ((blkdFabricInitDevice direct fuel).write b r.offset value.toUInt64 4)
      (fun o p => ∀ a, o = .ok a → a.2 = true → ∃ level, p = irqRequest r value level pending) pending := by
  show wp pendingHandler (mmioWrite (blkdVirtioNotifyQueue direct fuel) b r.offset value.toUInt64) _ _
  unfold mmioWrite
  have hoff : ∀ s : MmioReg, r.offset = s.offset → r = s := fun s h => offset_inj h
  refine wp_ite (fun h1 => ?_) fun h1 => wp_ite (fun h2 => ?_) fun h2 => wp_ite (fun h3 => ?_) fun h3 => ?_
  · rw [hoff _ h1]
    refine wp_ite (fun h0 => ?_) fun h0 => ?_
    · intro ok p h a _ _
      have hv : value = 0 := by simpa using congrArg UInt64.toUInt32 h0
      exact ⟨false, by simpa [irqRequest, hv] using h.2⟩
    · intro a _ _
      have hv : value ≠ 0 := fun hv => h0 (by rw [hv]; rfl)
      exact ⟨false, by simp [irqRequest, hv]⟩
  · rw [hoff _ h2]
    exact fun ok p h a _ _ => ⟨false, by simpa [irqRequest] using h.2⟩
  · rw [hoff _ h3]
    have hn : wp pendingHandler (blkdVirtioNotifyQueue direct fuel
        { b with mmio := virtioMmioWrite b.mmio MmioReg.queueNotify.offset value.toUInt64 }.dev
        value.toUInt64.toUInt32) Asked pending :=
      wp_ite (fun _ => ackReturn_asked _ _) fun _ =>
        serviceQueue_asked (processChain_quiet direct trivial fuel) fuel _ _
    refine wp_seq hn (fun a p h x hx hok => ?_) fun _ _ _ _ he => by cases he
    cases hx
    obtain ⟨level, hl⟩ := h _ rfl hok
    exact ⟨level, by simp [irqRequest, hl]⟩
  · intro a _ _
    have hne : ∀ s : MmioReg, ¬ r.offset = s.offset → r ≠ s := fun s h e => h (by rw [e])
    exact ⟨false, by simp [irqRequest, hne _ h1, hne _ h2, hne _ h3]⟩

/-! ## Whole runs -/

theorem kickStart_quiet {z : UioSizes} (hz : z.devSize = 0x200) (dev : FabricDevice Unit)
    (w : Window) :
    (kickStart z dev w).uio.shadow .queueNotify = uioNotifyIdle ∧ ¬ KickPending (kickStart z dev w) := by
  refine ⟨by simp [kickStart, uioStart, refreshReadRegisters, UioState.setShadow], fun hk => hk ?_⟩
  simp only [kickStart, uioStart, refresh_word hz]
  simp [readRegisters, UioState.setShadow, UioState.setWord, Window.set_self]

section
variable {z : UioSizes} {s s' : KickState} {a : KickAct}

/-- The shadow of `QUEUE_NOTIFY` stays idle: the daemon resets the word it has
loaded. -/
theorem kickStep_shadow (hz : z.devSize = 0x200) (hsh : s.uio.shadow .queueNotify = uioNotifyIdle)
    (hs : kickStep z s a = some s') : s'.uio.shadow .queueNotify = uioNotifyIdle := by
  by_cases hg : ∃ r value, a = .guestWrite r value
  · obtain ⟨r, value, rfl⟩ := hg
    exact guestWrite_shadow hsh hs
  · exact (kickStep_keeps hz (fun r v e => hg ⟨r, v, e⟩) (kickStep_inv hs)).shadow hsh

theorem awaited_step (hz : z.devSize = 0x200) (hsh : s.uio.shadow .queueNotify = uioNotifyIdle)
    (ha : Awaited s) (hs : kickStep z s a = some s') : Awaited s' ↔ SuppressedCovered s a := by
  by_cases hg : ∃ r value, a = .guestWrite r value
  · obtain ⟨r, value, rfl⟩ := hg
    exact guestWrite_awaited hz ha hs
  · have hkeep := kickStep_keeps hz (fun r v e => hg ⟨r, v, e⟩) (kickStep_inv hs)
    have hsup : SuppressedCovered s a := by
      cases a with
      | guestWrite r value => exact absurd ⟨r, value, rfl⟩ hg
      | _ => trivial
    refine iff_of_true (fun hk => ?_) hsup
    obtain ⟨hk, hc⟩ := hkeep.covered hsh hk
    exact hc (ha hk)

end

/-- **No lost kick, exactly.** In a run of the four parties every kick in the
window is awaited iff each kick made while `async_notify_pending` is set finds
a notify in flight, an interrupt pending, or the daemon in front of
`QUEUE_NOTIFY`. -/
theorem kicks_awaited_iff (z : UioSizes) (hz : z.devSize = 0x200) {s s' : KickState}
    {tr : List (KickState × KickAct)} (h0 : (kickLts z).init s) (h : (kickLts z).Trace s tr s') :
    ((∀ p ∈ tr, Awaited p.1) ∧ Awaited s') ↔ ∀ p ∈ tr, SuppressedCovered p.1 p.2 := by
  obtain ⟨dev, w, rfl⟩ := h0
  obtain ⟨hsh, hk⟩ := kickStart_quiet hz dev w
  refine LTS.Trace.all_iff (J := fun s => s.uio.shadow .queueNotify = uioNotifyIdle)
    (fun s a s' hj hs => ?_) (fun s a s' hj ha hs => ?_) h hsh fun h => absurd h hk
  · exact kickStep_shadow hz hj hs
  · exact awaited_step hz hj ha hs

/-! ## Kicks that wait for the acknowledgement -/

def KickAct.kicks : KickAct → Bool
  | .guestWrite r _ => r = .queueNotify
  | _ => false

/-- `axi_control_read` meets an acknowledgement. -/
def takesAck (s : KickState) : KickAct → Bool
  | .slaveRead => s.toSlave.head? = some .frontendNotifyAck
  | _ => false

/-- After a kick the guest makes no other before `axi_control_read` has met an
acknowledgement; `out` is a kick without one yet. -/
def Paced : Bool → List (KickState × KickAct) → Prop
  | _, [] => True
  | out, (s, a) :: tr => (a.kicks = true → out = false) ∧ Paced (a.kicks || (out && !takesAck s a)) tr

/-- Only a kick sets the flag, and every acknowledgement `axi_control_read`
meets clears it. -/
theorem flag_step {z : UioSizes} {s s' : KickState} {a : KickAct} (hs : KickStep z s a s')
    (hf : s'.slave.asyncNotifyPending = true) :
    a.kicks = true ∨ s.slave.asyncNotifyPending = true ∧ takesAck s a = false := by
  cases hs with
  | guestWrite r value hw =>
    by_cases hr : r = .queueNotify
    · exact .inl (by simp [KickAct.kicks, hr])
    · refine .inr ⟨?_, rfl⟩
      have hne : r.offset ≠ MmioReg.queueNotify.offset := offset_ne hr
      simp only [axiUioNotify, NotifyPolicy.waits, hne, decide_false, Bool.and_false, Bool.not_false, Bool.and_true] at hf
      split at hf
      · exact hf
      · exact hf
  | @masterRead m ms hm => cases m <;> exact .inr ⟨hf, rfl⟩
  | @slaveRead m ms hm =>
    cases m with
    | frontendNotifyAck => cases hf
    | frontendNotify | frontendIrqAssert | frontendIrqDeassert => exact .inr ⟨hf, by simp [takesAck, hm]⟩
  | @waitRead m ms hm => cases m <;> exact .inr ⟨hf, rfl⟩
  | timeout | wake | skip | load | consume | answer | refresh | quiet | flush => exact .inr ⟨hf, rfl⟩

/-- A guest that makes each kick with the flag clear, because it has seen the
acknowledgement of the one before it, loses none. -/
theorem kicks_awaited_of_paced (z : UioSizes) (hz : z.devSize = 0x200) {s s' : KickState}
    {tr : List (KickState × KickAct)} (h0 : (kickLts z).init s) (h : (kickLts z).Trace s tr s')
    (hp : Paced false tr) : (∀ p ∈ tr, Awaited p.1) ∧ Awaited s' := by
  obtain ⟨dev, w, rfl⟩ := h0
  obtain ⟨hsh, hk⟩ := kickStart_quiet hz dev w
  have ha : Awaited (kickStart z dev w) := fun h => absurd h hk
  have hflag : (kickStart z dev w).slave.asyncNotifyPending = true → false = true := nofun
  generalize kickStart z dev w = s at h hsh ha hflag
  generalize false = out at hp hflag
  induction h generalizing out with
  | nil => exact ⟨List.forall_mem_nil _, ha⟩
  | @cons s s₁ s₂ a tr hs _ ih =>
    obtain ⟨hclear, hp⟩ := hp
    -- no kick is suppressed
    have hsup : SuppressedCovered s a := by
      cases a with
      | guestWrite r value =>
        rintro rfl hf
        exact absurd ((hflag hf).symm.trans (hclear rfl)) nofun
      | _ => trivial
    have hflag' : s₁.slave.asyncNotifyPending = true → (a.kicks || (out && !takesAck s a)) = true := by
      intro hf
      rcases flag_step (kickStep_inv hs) hf with hkick | ⟨hf, hack⟩
      · rw [hkick, Bool.true_or]
      · rw [hack, hflag hf]
        exact Bool.or_true _
    obtain ⟨hall, hend⟩ := ih (kickStep_shadow hz hsh hs) ((awaited_step hz hsh ha hs).2 hsup) _ hp hflag'
    exact ⟨List.forall_mem_cons.2 ⟨ha, hall⟩, hend⟩

/-! ## A flag nobody clears -/

/-- The flag is set and nothing is on its way that could clear it. -/
structure Stuck (s : KickState) : Prop where
  flag : s.slave.asyncNotifyPending = true
  idle : s.slave.waiting = false
  toMaster : s.toMaster = []
  toSlave : s.toSlave = []
  uioPending : s.uioPending = false
  daemon : s.daemon = .blocked

instance : DecidablePred Stuck := fun s =>
  decidable_of_iff (s.slave.asyncNotifyPending = true ∧ s.slave.waiting = false ∧ s.toMaster = [] ∧
    s.toSlave = [] ∧ s.uioPending = false ∧ s.daemon = .blocked)
    ⟨fun ⟨h1, h2, h3, h4, h5, h6⟩ => ⟨h1, h2, h3, h4, h5, h6⟩,
      fun h => ⟨h.flag, h.idle, h.toMaster, h.toSlave, h.uioPending, h.daemon⟩⟩

/-- Kicks, and writes that need no backend, leave the parties stuck. -/
theorem Stuck.step {z : UioSizes} {s s' : KickState} {a : KickAct} (h : Stuck s)
    (ha : ∀ r value, a = .guestWrite r value → axiUioWriteNeedsBackend r = true → r = .queueNotify)
    (hs : kickStep z s a = some s') : Stuck s' := by
  cases a with
  | guestWrite r value =>
    simp only [kickStep, h.idle, Bool.false_eq_true, if_false, Option.some.injEq] at hs
    subst hs
    have hsame : axiUioNotify ⟨.barrier, true⟩ s.toAxiFrontend r.offset = s.toAxiFrontend := by
      by_cases hr : r = .queueNotify
      · rw [hr, axiUioNotify_kick, axiUioNotifyBackendAsync, if_pos ⟨rfl, h.flag⟩]
      · have hn : axiUioWriteNeedsBackend r = false := Bool.eq_false_iff.2 fun hb => hr (ha r value rfl hb)
        have hoff : MmioReg.ofOffset? r.offset = some r := MmioReg.ofOffset?_eq_some.2 rfl
        simp [axiUioNotify, NotifyPolicy.waits, NotifyPolicy.needsBackend, hoff, hn]
    rw [hsame]
    exact ⟨h.flag, h.idle, h.toMaster, h.toSlave, h.uioPending, h.daemon⟩
  | _ => simp [kickStep, h.idle, h.toMaster, h.toSlave, h.uioPending, h.daemon] at hs

/-- Once stuck, a guest that only kicks is never heard. -/
theorem Stuck.run {z : UioSizes} {s s' : KickState} {acts : List KickAct} (h : Stuck s)
    (ha : ∀ a ∈ acts, ∀ r value, a = .guestWrite r value → axiUioWriteNeedsBackend r = true →
      r = .queueNotify)
    (hr : (kickLts z).Run s acts s') : Stuck s' := by
  induction hr with
  | nil => exact h
  | cons hs _ ih =>
    exact ih (h.step (ha _ List.mem_cons_self) hs) fun a hm => ha a (List.mem_cons_of_mem _ hm)

theorem Stuck.not_covered {s : KickState} (h : Stuck s) : ¬ Covered s := by
  simp [Covered, h.toMaster, h.uioPending, h.daemon, Unexamined]

/-- The registers of a block device that has just been connected. -/
def connectedBlkd : FabricDevice Unit where
  addr := 0
  size := 0x200
  read _ offset len := blkdMmioRead (blkdConnect noBuffer emptyDisk) offset len
  write d _ _ _ := return (d, true)

/-- A kick and an acknowledgement in one scan. The queue is not ready, so
both ask for the line down; the guest, waiting for its second write, takes the
one acknowledgement. -/
def kickAndAckInOneScan : List KickAct :=
  [.guestWrite .queueNotify 0, .guestWrite .interruptAck 1, .masterRead, .masterRead, .wake] ++
    List.replicate 12 .load ++
    [.load, .consume, .answer false, .load, .consume, .answer false, .load, .refresh connectedBlkd, .flush,
      .waitRead, .waitRead]

/-- One scan for two notifies, and another kick. -/
theorem one_scan_sticks : ∃ s acts,
    (kickLts pageSizes).Run (kickStart pageSizes connectedBlkd fun _ => 0) acts s ∧ KickPending s ∧ Stuck s := by
  have hex : ∃ s ∈ LTS.exec (kickStep pageSizes) (kickStart pageSizes connectedBlkd fun _ => 0)
      (kickAndAckInOneScan ++ [.guestWrite .queueNotify 0]), KickPending s ∧ Stuck s := by decide
  obtain ⟨s, he, hk, hst⟩ := hex
  obtain ⟨tr, ht, _⟩ := LTS.exec_trace (M := kickLts pageSizes) (fun _ _ _ h => h) he
  exact ⟨s, _, ht.run, hk, hst⟩

/-- After one scan for two notifies the flag is stuck: the next kick is in the
window, and nobody will look. -/
theorem stuck_flag_loses_kick :
    ∃ s, (kickLts pageSizes).Reachable s ∧ KickPending s ∧ ¬ Covered s ∧ Stuck s := by
  obtain ⟨s, acts, hrun, hk, hst⟩ := one_scan_sticks
  exact ⟨s, ⟨_, acts, ⟨connectedBlkd, fun _ => 0, rfl⟩, hrun⟩, hk, hst.not_covered, hst⟩

/-- The same run without its last kick. -/
theorem kicks_awaited_iff_one_scan :
    ∃ tr s', (kickLts pageSizes).Trace (kickStart pageSizes connectedBlkd fun _ => 0) tr s' ∧
      tr.map Prod.snd = kickAndAckInOneScan ∧
      (((∀ p ∈ tr, Awaited p.1) ∧ Awaited s') ↔ ∀ p ∈ tr, SuppressedCovered p.1 p.2) := by
  have hex : ∃ s ∈ LTS.exec (kickStep pageSizes) (kickStart pageSizes connectedBlkd fun _ => 0)
      kickAndAckInOneScan, Stuck s := by decide
  obtain ⟨s, he, _⟩ := hex
  obtain ⟨tr, ht, hl⟩ := LTS.exec_trace (M := kickLts pageSizes) (fun _ _ _ h => h) he
  exact ⟨tr, s, ht, hl, kicks_awaited_iff pageSizes rfl ⟨connectedBlkd, fun _ => 0, rfl⟩ ht⟩

end AcsVirt.L4
