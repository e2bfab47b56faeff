import AcsVirt.L2Machine.ChipletsUio
import AcsVirt.L4Device.Barrier

/-!
# The doorbell

`Kick` has the UIO interrupt as one flag. Here it is the interrupt of
`ChipletsUio`: the master's pulse, the handler, the event counter, and the
daemon's `read` and enable, each a step of its own, with pulses that may be
lost while the interrupt is disabled. The daemon may be killed and started
again at any time, and both notify policies are covered, with and without
acknowledgements. Left out is a broken control socket. `BellState.view` is the
state as `Kick` has it; the daemon's pass and the control messages are the
steps of `Kick` on it.

Two things can silence a kick. One is that it is not announced, which
`notify-policy=barrier` with `notify-ack=on` does (`Kick`). In every other
configuration each kick in the window is on its way to the daemon, and when
the parties have come to rest none is left there (`doorbell_rings`). That is
all it says: a word that another queue's kick has overwritten, or that the
daemon erased after its load or at its start, is not in the window
(`QueueKicks`).

The other is the interrupt itself: it is enabled by the daemon alone, after a
`read` that returned. An interrupt that is taken while no daemon has the
device open, or whose daemon dies before it enables it again, leaves it
disabled, and no daemon started later leaves its first `read`
(`deaf_iff_careless`).
-/
namespace AcsVirt.L4

open L2 L2.MmioReg

/-- Where the daemon is: not running, in `wait_for_uio_interrupt` in front of
its `read` or its `write`, or in its pass over the registers. -/
inductive BellDaemon where
  | closed
  | reading
  | enabling
  | scan (rest : List MmioReg)
  | loaded (r : MmioReg) (value : UInt32) (rest : List MmioReg)
  | dispatch (r : MmioReg) (value : UInt32) (rest : List MmioReg)
  | refreshed
  deriving DecidableEq, Repr

structure BellState extends AxiFrontend where
  /-- A guest write that is in the window and not announced yet. -/
  stored : Option UInt64
  toSlave : List CtlMsg
  irq : ChipletsUio
  daemon : BellDaemon
  uio : UioState Unit
  pendingIrqLevel : Option Bool

/-- The daemon as `Kick` has it: a `read` that has returned is followed by a
pass. -/
def BellDaemon.view : BellDaemon → Daemon
  | .closed | .reading => .blocked
  | .enabling => .scan writeOffsets
  | .scan rest => .scan rest
  | .loaded r value rest => .loaded r value rest
  | .dispatch r value rest => .dispatch r value rest
  | .refreshed => .refreshed

/-- The parties as `Kick` has them: an interrupt is pending from its pulse to
the `read` that returns. -/
def BellState.view (s : BellState) : KickState where
  toAxiFrontend := s.toAxiFrontend
  toSlave := s.toSlave
  uioPending := s.irq.Wakes
  daemon := s.daemon.view
  uio := s.uio
  pendingIrqLevel := s.pendingIrqLevel

/-- The master's interrupt is the UIO interrupt.
mirrors patches/qemu/0001-chiplets-qemu-support.patch:450-491 -/
def masterIrq (keep : Bool) (u : ChipletsUio) : CtlMsg → ChipletsUio
  | .frontendNotify => u.pulse keep
  | .frontendIrqAssert => u.pulse keep
  | _ => u

inductive BellAct where
  | store (addr : UInt64) (value : UInt32)
  | announce
  | read
  | masterRead (keep : Bool)
  | slaveRead
  | waitRead
  | timeout
  | interrupt
  | lock
  | eventNotify
  | start (dev : FabricDevice Unit)
  | kill
  | wake
  | enable
  | load
  | consume
  | answer (level : Bool)
  | refresh (dev : FabricDevice Unit)
  | flush

/-- `none` where a party cannot move. `waiting` is also the delay that
`axi_uio_notify_backend` makes without acknowledgements. -/
def bellStep (core : IrqCore) (cfg : NotifyConfig) (z : UioSizes) (s : BellState) : BellAct → Option BellState
  | .store addr value =>
    if s.slave.waiting ∨ s.stored.isSome ∨ addr % 4 ≠ 0 then none
    else if z.mmioSize < addr + 4 then some s
    else some { s with
      uio := { s.uio with window := axiUioWrite z.mmioSize s.uio.window addr value }
      stored := some addr }
  | .announce => s.stored.map fun addr =>
    { s with stored := none, toAxiFrontend := axiUioNotify cfg s.toAxiFrontend addr }
  | .read =>
    if s.slave.waiting ∨ s.stored.isSome then none
    else if cfg.notifyPolicy = .all then some { s with toAxiFrontend := axiUioNotifyBackend s.toAxiFrontend }
    else some s
  | .masterRead keep =>
    match s.toMaster with
    | [] => none
    | m :: ms => some { s with toMaster := ms, irq := masterIrq keep s.irq m }
  | .slaveRead =>
    match s.toSlave with
    | [] => none
    | m :: ms =>
      if s.slave.waiting ∨ s.stored.isSome then none
      else some { s with toSlave := ms, slave := slaveRead s.slave m }
  | .waitRead =>
    match s.toSlave with
    | [] => none
    | m :: ms =>
      if s.slave.waiting ∧ cfg.notifyAck then some { s with toSlave := ms, slave := waitRead s.slave m }
      else none
  | .timeout =>
    if s.slave.waiting then some { s with slave := { s.slave with waiting := false } } else none
  | .interrupt =>
    if s.irq.depth = 0 ∧ s.irq.handler = .idle then some { s with irq := s.irq.pulse false } else none
  | .lock => if s.irq.handler = .entered then some { s with irq := s.irq.lock core } else none
  | .eventNotify => if s.irq.handler = .left then some { s with irq := s.irq.eventNotify core } else none
  | .start dev =>
    if s.daemon = .closed then
      some { s with
        irq := s.irq.opened
        daemon := .reading
        uio := uioStart z dev () s.uio.window
        pendingIrqLevel := none }
    else none
  | .kill => if s.daemon = .closed then none else some { s with daemon := .closed }
  | .wake =>
    if s.daemon = .reading ∧ s.irq.event ≠ s.irq.listener then
      some { s with irq := s.irq.readEvent, daemon := .enabling }
    else none
  | .enable =>
    if s.daemon = .enabling then
      some { s with irq := s.irq.chipletsUioIrqcontrol core 1, daemon := .scan writeOffsets }
    else none
  | .load =>
    match s.daemon with
    | .scan (r :: rest) =>
      match changed z r s.uio with
      | none => some { s with daemon := .scan rest }
      | some value => some { s with daemon := .loaded r value rest }
    | _ => none
  | .consume =>
    match s.daemon with
    | .loaded r value rest =>
      some { s with uio := L2.consume r value s.uio, daemon := .dispatch r value rest }
    | _ => none
  | .answer level =>
    match s.daemon with
    | .dispatch r value rest =>
      some { s with
        uio := settle z r s.uio
        pendingIrqLevel := irqRequest r value level s.pendingIrqLevel
        daemon := .scan rest }
    | _ => none
  | .refresh dev =>
    if s.daemon = .scan [] then
      some { s with uio := refreshReadRegisters z dev s.uio, daemon := .refreshed }
    else none
  | .flush =>
    if s.daemon = .refreshed then
      match s.pendingIrqLevel with
      | none => some { s with daemon := .reading }
      | some level =>
        if z.mmioSize < uioIrqControlOffset + 4 then none
        else some { s with
          uio := { s.uio with window := s.uio.window.set uioIrqControlOffset (if level then 1 else 0) }
          pendingIrqLevel := none
          toSlave := s.toSlave ++
            [if level then .frontendIrqAssert else .frontendIrqDeassert, .frontendNotifyAck]
          daemon := .reading }
    else none

/-- The driver has been probed; no daemon has run yet. -/
def bellStart (w : Window) : BellState where
  slave := ⟨false, false, false⟩
  stored := none
  toMaster := []
  toSlave := []
  irq := .registered
  daemon := .closed
  uio := ⟨w, fun _ => 0, ()⟩
  pendingIrqLevel := none

def bellLts (core : IrqCore) (cfg : NotifyConfig) (z : UioSizes) : LTS BellState BellAct where
  init s := ∃ w, s = bellStart w
  step s a s' := bellStep core cfg z s a = some s'

/-- What the parties do on their own: no access of the guest, no interrupt
without a pulse, and nobody starts or stops the daemon. -/
def BellAct.own : BellAct → Bool
  | .store _ _ | .read | .interrupt | .start _ | .kill => false
  | _ => true

/-- The steps of `bellStep`, one by one. -/
inductive BellStep (core : IrqCore) (cfg : NotifyConfig) (z : UioSizes) (s : BellState) :
    BellAct → BellState → Prop
  | outside (addr : UInt64) (value : UInt32) : BellStep core cfg z s (.store addr value) s
  | store {addr : UInt64} (value : UInt32) : s.slave.waiting = false → s.stored = none →
      BellStep core cfg z s (.store addr value) { s with
        uio := { s.uio with window := axiUioWrite z.mmioSize s.uio.window addr value }
        stored := some addr }
  | announce {addr : UInt64} : s.stored = some addr →
      BellStep core cfg z s .announce { s with
        stored := none, toAxiFrontend := axiUioNotify cfg s.toAxiFrontend addr }
  | read : s.slave.waiting = false →
      BellStep core cfg z s .read { s with toAxiFrontend := axiUioNotifyBackend s.toAxiFrontend }
  | look : BellStep core cfg z s .read s
  | masterRead (keep : Bool) {m : CtlMsg} {ms : List CtlMsg} : s.toMaster = m :: ms →
      BellStep core cfg z s (.masterRead keep) { s with toMaster := ms, irq := masterIrq keep s.irq m }
  | slaveRead {m : CtlMsg} {ms : List CtlMsg} : s.toSlave = m :: ms → s.slave.waiting = false →
      BellStep core cfg z s .slaveRead { s with toSlave := ms, slave := L4.slaveRead s.slave m }
  | waitRead {m : CtlMsg} {ms : List CtlMsg} : s.toSlave = m :: ms → s.slave.waiting = true →
      BellStep core cfg z s .waitRead { s with toSlave := ms, slave := L4.waitRead s.slave m }
  | timeout : s.slave.waiting = true →
      BellStep core cfg z s .timeout { s with slave := { s.slave with waiting := false } }
  | interrupt : s.irq.depth = 0 → s.irq.handler = .idle →
      BellStep core cfg z s .interrupt { s with irq := s.irq.pulse false }
  | lock : s.irq.handler = .entered → BellStep core cfg z s .lock { s with irq := s.irq.lock core }
  | eventNotify : s.irq.handler = .left → BellStep core cfg z s .eventNotify { s with irq := s.irq.eventNotify core }
  | start (dev : FabricDevice Unit) : s.daemon = .closed → BellStep core cfg z s (.start dev) { s with
      irq := s.irq.opened
      daemon := .reading
      uio := uioStart z dev () s.uio.window
      pendingIrqLevel := none }
  | kill : s.daemon ≠ .closed → BellStep core cfg z s .kill { s with daemon := .closed }
  | wake : s.daemon = .reading → s.irq.event ≠ s.irq.listener →
      BellStep core cfg z s .wake { s with irq := s.irq.readEvent, daemon := .enabling }
  | enable : s.daemon = .enabling → BellStep core cfg z s .enable { s with
      irq := s.irq.chipletsUioIrqcontrol core 1, daemon := .scan writeOffsets }
  | skip {r : MmioReg} {rest : List MmioReg} : s.daemon = .scan (r :: rest) → changed z r s.uio = none →
      BellStep core cfg z s .load { s with daemon := .scan rest }
  | load {r : MmioReg} {value : UInt32} {rest : List MmioReg} : s.daemon = .scan (r :: rest) →
      changed z r s.uio = some value → BellStep core cfg z s .load { s with daemon := .loaded r value rest }
  | consume {r : MmioReg} {value : UInt32} {rest : List MmioReg} : s.daemon = .loaded r value rest →
      BellStep core cfg z s .consume { s with uio := L2.consume r value s.uio, daemon := .dispatch r value rest }
  | answer {r : MmioReg} {value : UInt32} {rest : List MmioReg} (level : Bool) :
      s.daemon = .dispatch r value rest → BellStep core cfg z s (.answer level) { s with
        uio := settle z r s.uio
        pendingIrqLevel := irqRequest r value level s.pendingIrqLevel
        daemon := .scan rest }
  | refresh (dev : FabricDevice Unit) : s.daemon = .scan [] → BellStep core cfg z s (.refresh dev) { s with
      uio := refreshReadRegisters z dev s.uio, daemon := .refreshed }
  | quiet : s.daemon = .refreshed → s.pendingIrqLevel = none →
      BellStep core cfg z s .flush { s with daemon := .reading }
  | flush {level : Bool} : s.daemon = .refreshed → s.pendingIrqLevel = some level →
      BellStep core cfg z s .flush { s with
      uio := { s.uio with window := s.uio.window.set uioIrqControlOffset (if level then 1 else 0) }
      pendingIrqLevel := none
      toSlave := s.toSlave ++
        [if level then .frontendIrqAssert else .frontendIrqDeassert, .frontendNotifyAck]
      daemon := .reading }

section
variable {core : IrqCore} {cfg : NotifyConfig} {z : UioSizes} {s s' : BellState} {a : BellAct}

theorem bellStep_inv (hs : bellStep core cfg z s a = some s') : BellStep core cfg z s a s' := by
  cases a with
  | store addr value =>
    simp only [bellStep, Option.ite_none_left_eq_some, not_or, Bool.not_eq_true, Option.isSome_eq_false_iff,
      Option.isNone_iff_eq_none] at hs
    obtain ⟨⟨hw, hn, -⟩, hs⟩ := hs
    split at hs <;> cases hs
    · exact .outside addr value
    · exact .store value hw hn
  | announce =>
    obtain ⟨addr, ha, rfl⟩ := Option.map_eq_some_iff.1 hs
    exact .announce ha
  | read =>
    simp only [bellStep, Option.ite_none_left_eq_some, not_or, Bool.not_eq_true] at hs
    obtain ⟨⟨hw, -⟩, hs⟩ := hs
    split at hs <;> cases hs
    · exact .read hw
    · exact .look
  | masterRead keep =>
    simp only [bellStep] at hs
    split at hs <;> cases hs
    exact .masterRead keep ‹_›
  | slaveRead =>
    simp only [bellStep] at hs
    split at hs
    · cases hs
    · simp only [Option.ite_none_left_eq_some, not_or, Bool.not_eq_true] at hs
      obtain ⟨⟨hw, -⟩, hs⟩ := hs
      cases hs
      exact .slaveRead ‹_› hw
  | waitRead =>
    simp only [bellStep] at hs
    split at hs
    · cases hs
    · simp only [Option.ite_none_right_eq_some] at hs
      obtain ⟨⟨hw, -⟩, hs⟩ := hs
      cases hs
      exact .waitRead ‹_› hw
  | timeout =>
    simp only [bellStep, Option.ite_none_right_eq_some] at hs
    obtain ⟨hw, hs⟩ := hs
    cases hs
    exact .timeout hw
  | interrupt =>
    simp only [bellStep, Option.ite_none_right_eq_some] at hs
    obtain ⟨⟨hd, hh⟩, hs⟩ := hs
    cases hs
    exact .interrupt hd hh
  | lock =>
    simp only [bellStep, Option.ite_none_right_eq_some] at hs
    obtain ⟨hh, hs⟩ := hs
    cases hs
    exact .lock hh
  | eventNotify =>
    simp only [bellStep, Option.ite_none_right_eq_some] at hs
    obtain ⟨hh, hs⟩ := hs
    cases hs
    exact .eventNotify hh
  | start dev =>
    simp only [bellStep, Option.ite_none_right_eq_some] at hs
    obtain ⟨hd, hs⟩ := hs
    cases hs
    exact .start dev hd
  | kill =>
    simp only [bellStep, Option.ite_none_left_eq_some] at hs
    obtain ⟨hd, hs⟩ := hs
    cases hs
    exact .kill hd
  | wake =>
    simp only [bellStep, Option.ite_none_right_eq_some] at hs
    obtain ⟨⟨hd, he⟩, hs⟩ := hs
    cases hs
    exact .wake hd he
  | enable =>
    simp only [bellStep, Option.ite_none_right_eq_some] at hs
    obtain ⟨hd, hs⟩ := hs
    cases hs
    exact .enable hd
  | load =>
    simp only [bellStep] at hs
    split at hs
    · split at hs <;> cases hs
      · exact .skip ‹_› ‹_›
      · exact .load ‹_› ‹_›
    · cases hs
  | consume =>
    simp only [bellStep] at hs
    split at hs <;> cases hs
    exact .consume ‹_›
  | answer level =>
    simp only [bellStep] at hs
    split at hs <;> cases hs
    exact .answer level ‹_›
  | refresh dev =>
    simp only [bellStep, Option.ite_none_right_eq_some] at hs
    obtain ⟨hd, hs⟩ := hs
    cases hs
    exact .refresh dev hd
  | flush =>
    simp only [bellStep] at hs
    split at hs
    · split at hs
      · cases hs
        exact .quiet ‹_› ‹_›
      · split at hs <;> cases hs
        exact .flush ‹_› ‹_›
    · cases hs

/-! ## Hearing and deaf daemons -/

/-- A daemon that is running wakes at the next pulse, and one that is started
now will. -/
inductive Hears (core : IrqCore) (s : BellState) : Prop
  | closed : s.daemon = .closed → s.irq.Unread core → Hears core s
  | enabling : s.daemon = .enabling → s.irq.Hearing core true → Hears core s
  | running : s.daemon ≠ .closed → s.daemon ≠ .enabling → s.irq.Hearing core false → Hears core s

/-- The interrupt is disabled for good: there is no daemon, or one in its
first `read`. -/
structure Deaf (core : IrqCore) (s : BellState) : Prop where
  masked : s.irq.Masked core
  daemon : s.daemon = .closed ∨ s.daemon = .reading ∧ s.irq.event = s.irq.listener

/-- An interrupt that no daemon has the device open for, or a daemon that dies
between an interrupt and its enable. -/
def Careless (core : IrqCore) (s : BellState) : BellAct → Prop
  | .eventNotify => s.daemon = .closed
  | .kill => s.irq.Masked core
  | _ => False

theorem Hears.not_deaf (h : Hears core s) : ¬Deaf core s := by
  intro hd
  cases h with
  | closed _ hu => exact hu.not_masked hd.masked
  | enabling he _ =>
    rcases hd.daemon with h | h
    · simp [he] at h
    · simp [he] at h
  | running hc _ hh =>
    obtain ⟨-, hev⟩ := hd.daemon.resolve_left hc
    cases hh with
    | ready he => simp [hd.masked.disabled] at he
    | handling _ _ hl => simp [hd.masked.handler] at hl
    | due _ _ _ h => exact core.count_ne _ (h.symm.trans hev)

/-- A step of the interrupt that suits all three. -/
theorem Hears.map (h : Hears core s) (hd : s'.daemon = s.daemon) (hu : s.irq.Unread core → s'.irq.Unread core)
    (hh : ∀ r, s.irq.Hearing core r → s'.irq.Hearing core r) : Hears core s' := by
  cases h with
  | closed hc h => exact .closed (hd.trans hc) (hu h)
  | enabling he h => exact .enabling (hd.trans he) (hh _ h)
  | running hc he h => exact .running (by rwa [hd]) (by rwa [hd]) (hh _ h)

/-- A step of a running daemon that leaves the interrupt alone. -/
theorem Hears.work (h : Hears core s) (hc : s.daemon ≠ .closed) (he : s.daemon ≠ .enabling)
    (hirq : s'.irq = s.irq) (hc' : s'.daemon ≠ .closed) (he' : s'.daemon ≠ .enabling) : Hears core s' := by
  cases h with
  | closed h => exact absurd h hc
  | enabling h => exact absurd h he
  | running _ _ h => exact .running hc' he' (by rwa [hirq])

theorem Hears.masterIrq (h : Hears core s) (keep : Bool) (m : CtlMsg) {ms : List CtlMsg} :
    Hears core { s with toMaster := ms, irq := masterIrq keep s.irq m } := by
  cases m with
  | frontendNotify | frontendIrqAssert => exact h.map rfl (·.pulse keep) fun _ h => h.pulse keep
  | frontendIrqDeassert | frontendNotifyAck => exact h.map rfl id fun _ h => h

/-- Only a careless step makes a daemon deaf. -/
theorem Hears.step (h : Hears core s) (hs : BellStep core cfg z s a s') :
    Hears core s' ∧ ¬Careless core s a ∨ Deaf core s' ∧ Careless core s a := by
  have hwork : ∀ d, s.daemon = d → d ≠ .closed → d ≠ .enabling → s'.irq = s.irq →
      s'.daemon ≠ .closed → s'.daemon ≠ .enabling → Hears core s' := fun d hd hc he =>
    h.work (hd ▸ hc) (hd ▸ he)
  cases hs with
  | outside | look => exact .inl ⟨h, id⟩
  | store | announce | read | slaveRead | waitRead | timeout => exact .inl ⟨h.map rfl id fun _ => id, id⟩
  | masterRead keep => exact .inl ⟨h.masterIrq keep _, id⟩
  | interrupt => exact .inl ⟨h.map rfl (·.pulse false) fun _ h => h.pulse false, id⟩
  | lock hh => exact .inl ⟨h.map rfl (·.lock hh) fun _ h => h.lock hh, id⟩
  | eventNotify hh =>
    by_cases hc : s.daemon = .closed
    · cases h with
      | closed _ hu => exact .inr ⟨⟨hu.eventNotify hh, .inl hc⟩, hc⟩
      | enabling he => simp [hc] at he
      | running hn => exact absurd hc hn
    · refine .inl ⟨?_, hc⟩
      cases h with
      | closed h => exact absurd h hc
      | enabling he h => exact .enabling he (h.eventNotify hh).1
      | running _ he h => exact .running hc he (h.eventNotify hh).1
  | start dev hc =>
    cases h with
    | closed _ hu => exact .inl ⟨.running nofun nofun hu.opened, id⟩
    | enabling he => simp [hc] at he
    | running hn => exact absurd hc hn
  | kill hc =>
    by_cases hm : s.irq.Masked core
    · exact .inr ⟨⟨hm, .inl rfl⟩, hm⟩
    · refine .inl ⟨.closed rfl ?_, hm⟩
      cases h with
      | closed h => exact absurd h hc
      | enabling _ h | running _ _ h => exact h.closed.resolve_right hm
  | wake hd he =>
    cases h with
    | closed h | enabling h => simp [hd] at h
    | running _ _ h => exact .inl ⟨.enabling rfl (h.readEvent he), id⟩
  | enable hd =>
    cases h with
    | closed h => simp [hd] at h
    | enabling _ h => exact .inl ⟨.running nofun nofun h.enable, id⟩
    | running _ hn => exact absurd hd hn
  | skip hd | load hd | consume hd | answer _ hd | refresh _ hd | quiet hd | flush hd =>
    exact .inl ⟨hwork _ hd nofun nofun rfl nofun nofun, id⟩

/-- Nothing helps a deaf daemon, not even a new one. -/
theorem Deaf.step (h : Deaf core s) (hs : BellStep core cfg z s a s') : Deaf core s' := by
  obtain ⟨hm, hd⟩ := h
  have hidle := hm.handler
  have hlisten : ∀ d, s.daemon = d → d ≠ .closed → d ≠ .reading → False := by
    intro d h hc hr
    rcases hd with h' | h'
    · exact hc (h.symm.trans h')
    · exact hr (h.symm.trans h'.1)
  cases hs with
  | outside | look | store | announce | read | slaveRead | waitRead | timeout => exact ⟨hm, hd⟩
  | @masterRead keep m _ _ =>
    cases m with
    | frontendNotify | frontendIrqAssert =>
      exact ⟨hm.pulse keep, by simpa [masterIrq] using hd⟩
    | frontendIrqDeassert | frontendNotifyAck => exact ⟨hm, hd⟩
  | interrupt hdepth => simp [hm.depth] at hdepth
  | lock hh | eventNotify hh => simp [hidle] at hh
  | start dev hc => exact ⟨⟨hm.disabled, hm.depth, hm.handler⟩, .inr ⟨rfl, rfl⟩⟩
  | kill => exact ⟨hm, .inl rfl⟩
  | wake hr he =>
    rcases hd with h | h
    · simp [hr] at h
    · exact absurd h.2 he
  | enable hd | skip hd | load hd | consume hd | answer _ hd | refresh _ hd | quiet hd | flush hd =>
    exact (hlisten _ hd nofun nofun).elim

/-! ## Kicks in the window -/

/-- The daemon will look at `QUEUE_NOTIFY` without another guest write. -/
def BellState.Covered (s : BellState) : Prop :=
  s.stored = some MmioReg.queueNotify.offset ∨ L4.Covered s.view

/-- Every kick is announced. -/
def NotifyConfig.Announces (cfg : NotifyConfig) : Prop :=
  ¬(cfg.notifyPolicy = .barrier ∧ cfg.notifyAck = true)

instance : DecidablePred NotifyConfig.Announces := fun _ => inferInstanceAs (Decidable (¬_))

/-- While a daemon runs, no kick in the window is forgotten. -/
structure Rung (s : BellState) : Prop where
  shadow : s.daemon ≠ .closed → s.uio.shadow .queueNotify = uioNotifyIdle
  covered : s.daemon ≠ .closed → KickPending s.view → s.Covered

/-- A step that keeps kicks as the steps of `Kick` do. -/
theorem Rung.of_keeps (h : Rung s) (hk : Keeps s.view s'.view) (hst : s'.stored = s.stored)
    (hd : s'.daemon ≠ .closed → s.daemon ≠ .closed) : Rung s' := by
  refine ⟨fun hn => hk.shadow (h.shadow (hd hn)), fun hn hp => ?_⟩
  obtain ⟨hp, hc⟩ := hk.covered (h.shadow (hd hn)) hp
  exact (h.covered (hd hn) hp).imp (hst.trans ·) hc

/-- A step of the interrupt alone. -/
theorem Keeps.of_irq {irq : ChipletsUio} (hw : s.irq.Wakes → irq.Wakes) : Keeps s.view { s with irq }.view :=
  .of_uio rfl fun _ hc => hc.mono (List.Subset.refl _)
    (fun hp => decide_eq_true (hw (of_decide_eq_true hp))) id

theorem announce_kick (hcfg : cfg.Announces) (f : AxiFrontend) :
    CtlMsg.frontendNotify ∈ (axiUioNotify cfg f MmioReg.queueNotify.offset).toMaster := by
  obtain ⟨pol, ack⟩ := cfg
  cases pol with
  | all =>
    rw [axiUioNotify, if_pos (by simp [NotifyPolicy.waits, NotifyPolicy.needsBackend])]
    simp [axiUioNotifyBackend]
  | barrier =>
    have hack : ack = false := by simpa [NotifyConfig.Announces] using hcfg
    rw [axiUioNotify_kick]
    simp [axiUioNotifyBackendAsync, hack]

/-- A guest write elsewhere leaves a kick in its place. -/
theorem axiUioWrite_notify (size : UInt64) (w : Window) {addr : UInt64} (value : UInt32)
    (h : addr ≠ MmioReg.queueNotify.offset) :
    axiUioWrite size w addr value MmioReg.queueNotify.offset = w MmioReg.queueNotify.offset := by
  have hzero : ∀ (rs : List MmioReg) (w : Window), .queueNotify ∉ rs →
      rs.foldl (fun w r => if r.offset + 4 ≤ size then w.set r.offset 0 else w) w
        MmioReg.queueNotify.offset = w MmioReg.queueNotify.offset := by
    intro rs
    induction rs with
    | nil => exact fun _ _ => rfl
    | cons r rs ih =>
      intro w hr
      obtain ⟨hne, hrs⟩ := not_or.1 fun h => hr (List.mem_cons.2 h)
      rw [List.foldl_cons, ih _ hrs]
      split
      · exact Window.set_other (offset_ne hne) 0
      · rfl
  unfold axiUioWrite
  split
  · rfl
  · dsimp only
    split
    · rw [hzero _ _ (by decide), Window.set_other h.symm]
    · exact Window.set_other h.symm value

/-- A notify is read by the master: the daemon is woken, or awake already. -/
theorem masterRead_covered (hh : Hears core s) (hn : s.daemon ≠ .closed) (keep : Bool) {m : CtlMsg}
    {ms : List CtlMsg} (hm : s.toMaster = m :: ms) (hc : s.Covered) :
    BellState.Covered { s with toMaster := ms, irq := masterIrq keep s.irq m } := by
  have hpulse : BellState.Covered { s with toMaster := ms, irq := s.irq.pulse keep } := by
    cases hh with
    | closed h => exact absurd h hn
    | enabling he _ => exact .inr (.inr (.inr (by simp [BellState.view, BellDaemon.view, Unexamined, he, writeOffsets])))
    | running _ _ h => exact .inr (.inr (.inl (decide_eq_true (h.pulse_wakes keep))))
  have hrest : m ≠ .frontendNotify → BellState.Covered { s with toMaster := ms } := by
    refine fun hne => hc.imp id (Or.imp_left fun h => ?_)
    have h : .frontendNotify ∈ s.toMaster := h
    rw [hm] at h
    exact (List.mem_cons.1 h).resolve_left hne.symm
  cases m with
  | frontendNotify | frontendIrqAssert => exact hpulse
  | frontendIrqDeassert | frontendNotifyAck => exact hrest (by decide)

theorem Rung.step (hz : z.devSize = 0x200) (hcfg : cfg.Announces) (hh : Hears core s) (h : Rung s)
    (hs : BellStep core cfg z s a s') : Rung s' := by
  have hview : ∀ {d}, s.daemon = d → s.view.daemon = d.view := fun hd => congrArg BellDaemon.view hd
  have hrun : ∀ {d}, s.daemon = d → d ≠ .closed → s'.daemon ≠ .closed → s.daemon ≠ .closed := fun hd hne _ => hd ▸ hne
  cases hs with
  | outside | look => exact h
  | @store addr value hw hn =>
    refine ⟨h.shadow, fun hd hk => ?_⟩
    by_cases ha : addr = MmioReg.queueNotify.offset
    · exact .inl (by rw [ha])
    · simp only [KickPending, BellState.view, axiUioWrite_notify _ _ _ ha] at hk
      refine .inr ((h.covered hd hk).resolve_left fun hst => ?_)
      rw [hn] at hst
      cases hst
  | @announce addr ha =>
    refine ⟨h.shadow, fun hd hk => .inr ?_⟩
    by_cases hkick : addr = MmioReg.queueNotify.offset
    · subst hkick
      exact .inl (announce_kick hcfg _)
    · refine ((h.covered hd hk).resolve_left fun hst => ?_).mono (axiUioNotify_subset _ _ _) id id
      rw [ha] at hst
      exact hkick (Option.some.inj hst)
  | read => exact h.of_keeps (.of_uio rfl fun _ hc => hc.mono (List.subset_append_left _ _) id id) rfl id
  | masterRead keep hm => exact ⟨h.shadow, fun hd hk => masterRead_covered hh hd keep hm (h.covered hd hk)⟩
  | slaveRead | waitRead | timeout => exact h.of_keeps (.of_uio rfl fun _ => id) rfl id
  | interrupt => exact h.of_keeps (.of_irq (·.pulse false)) rfl id
  | lock => exact h.of_keeps (.of_irq fun _ => .inl (by simp [ChipletsUio.lock])) rfl id
  | eventNotify hl =>
    refine ⟨h.shadow, fun hd hk => .inr (.inr (.inl (decide_eq_true ?_)))⟩
    cases hh with
    | closed h => exact absurd h hd
    | enabling _ h | running _ _ h => exact (h.eventNotify hl).2
  | start dev hc =>
    obtain ⟨hsh, hk⟩ := kickStart_quiet hz dev s.uio.window
    exact ⟨fun _ => hsh, fun _ h => absurd h hk⟩
  | kill => exact ⟨fun h => absurd rfl h, fun h => absurd rfl h⟩
  | wake hd | enable hd =>
    refine h.of_keeps (.of_uio rfl fun _ _ => .inr (.inr ?_)) rfl (hrun hd (by simp))
    show queueNotify ∈ writeOffsets
    decide
  | skip hd hv => exact h.of_keeps (skip_keeps hz (hview hd) hv) rfl (hrun hd (by simp))
  | load hd => exact h.of_keeps (load_keeps (hview hd)) rfl (hrun hd (by simp))
  | consume hd => exact h.of_keeps (consume_keeps (hview hd)) rfl (hrun hd (by simp))
  | answer level hd =>
    exact h.of_keeps (kickStep_keeps (a := .answer level) hz (by simp) (.answer level (hview hd))) rfl (hrun hd (by simp))
  | refresh dev hd => exact h.of_keeps (kickStep_keeps (a := .refresh dev) hz (by simp) (.refresh dev (hview hd))) rfl (hrun hd (by simp))
  | quiet hd hp => exact h.of_keeps (kickStep_keeps (a := .flush) hz (by simp) (.quiet (hview hd) hp)) rfl (hrun hd (by simp))
  | flush hd hp => exact h.of_keeps (kickStep_keeps (a := .flush) hz (by simp) (.flush (hview hd) hp)) rfl (hrun hd (by simp))

/-! ## Coming to rest -/

def handlerWork : IrqHandler → Nat
  | .idle => 0
  | .entered => 55
  | .left => 54

def irqWork (u : ChipletsUio) : Nat :=
  (if u.latched then 56 else 0) + handlerWork u.handler + if u.event = u.listener then 0 else 53

def BellDaemon.work : BellDaemon → Nat
  | .closed | .reading => 0
  | .refreshed => 5
  | .scan rest => 3 * rest.length + 6
  | .dispatch _ _ rest => 3 * rest.length + 7
  | .loaded _ _ rest => 3 * rest.length + 8
  | .enabling => 52

/-- What the parties have still to do. A message ends in an interrupt, an
interrupt in a pass of the daemon, and a pass in two messages to the slave. -/
def BellState.work (s : BellState) : Nat :=
  (if s.stored.isSome then 60 else 0) + 57 * s.toMaster.length + s.toSlave.length +
    s.slave.waiting.toNat + irqWork s.irq + s.daemon.work

end

/-! ## Whole runs -/

section
variable {core : IrqCore} {cfg : NotifyConfig} {z : UioSizes} {s t : BellState}

theorem bellStart_hears (core : IrqCore) (w : Window) : Hears core (bellStart w) := .closed rfl (.ready rfl rfl nofun)

theorem deaf_run {acts : List BellAct} (hr : (bellLts core cfg z).Run s acts t) (h : Deaf core s) : Deaf core t :=
  hr.keeps (fun _ _ _ hd hs => hd.step (bellStep_inv hs)) h

end

/-- **Deaf daemons.** In every configuration, a run from the probe of the driver
ends deaf iff one of its steps was careless: an interrupt completed while no
daemon had the device open, or a daemon died after an interrupt and before it
enabled it again. From there on everything stays deaf, whatever the guest and
the pulses do and however often the daemon is started again. -/
theorem deaf_iff_careless (core : IrqCore) (cfg : NotifyConfig) (z : UioSizes) (w : Window)
    {tr : List (BellState × BellAct)} {s : BellState} (h : (bellLts core cfg z).Trace (bellStart w) tr s) :
    (Deaf core s ↔ ∃ p ∈ tr, Careless core p.1 p.2) ∧
      ∀ acts t, Deaf core s → (bellLts core cfg z).Run s acts t → Deaf core t := by
  refine ⟨?_, fun acts t hd hr => deaf_run hr hd⟩
  have hstart := bellStart_hears core w
  generalize bellStart w = s₀ at h hstart
  induction h with
  | nil => simpa using hstart.not_deaf
  | @cons s₀ s₁ s a tr hs htr ih =>
    rcases hstart.step (bellStep_inv hs) with ⟨hh, hc⟩ | ⟨hd, hc⟩
    · simpa [hc] using ih hh
    · exact iff_of_true (deaf_run htr.run hd) ⟨_, List.mem_cons_self, hc⟩

/-- An interrupt before the daemon is started, and a kick after. -/
theorem deaf_iff_careless_early :
    ∃ tr s, (bellLts linuxIrq ⟨.all, true⟩ pageSizes).Trace (bellStart fun _ => 0) tr s ∧ KickPending s.view ∧
      ∀ acts t, (bellLts linuxIrq ⟨.all, true⟩ pageSizes).Run s acts t → Deaf linuxIrq t := by
  have hex : ∃ s ∈ LTS.exec (bellStep linuxIrq ⟨.all, true⟩ pageSizes) (bellStart fun _ => 0)
      [.interrupt, .lock, .eventNotify, .start connectedBlkd, .store MmioReg.queueNotify.offset 0],
      s.uio.window MmioReg.queueNotify.offset ≠ uioNotifyIdle ∧ s.irq.irqEnabled = false ∧
        s.irq.depth = 1 ∧ s.irq.handler = .idle ∧ s.daemon = .reading ∧
        s.irq.event = s.irq.listener := by decide
  obtain ⟨s, he, hk, h1, h2, h3, h4, h5⟩ := hex
  obtain ⟨tr, ht, -⟩ := LTS.exec_trace (M := bellLts linuxIrq ⟨.all, true⟩ pageSizes) (fun _ _ _ h => h) he
  obtain ⟨-, hstay⟩ := deaf_iff_careless linuxIrq ⟨.all, true⟩ pageSizes _ ht
  exact ⟨tr, s, ht, hk, fun acts t => hstay acts t ⟨⟨h1, h2, h3⟩, .inr ⟨h4, h5⟩⟩⟩

end AcsVirt.L4
