import AcsVirt.Core.LTS

/-!
# The UIO interrupt (`kernel/chiplets_uio.c`)

The daemon's interrupt, from the pulse on its line to the counter it reads.
The driver disables the interrupt in its handler and enables it again when the
daemon writes to the device (`irqcontrol`); both hold the spinlock, so each is
one step. A handler that has been entered may find the interrupt disabled by
then.

Outside the repository are `disable_irq` and `enable_irq`, which nest, and
the UIO core, which counts an event after each handler and lets `read` return
when the count is not what the reader saw last. `IrqCore` has what is used of
them. Of the interrupt controller nothing is assumed about a pulse that finds
the interrupt disabled or its handler running: it may be kept (`latched`), to
be delivered by the enable, or lost.
-/
namespace AcsVirt.L2

/-- The kernel around the driver: the nesting of disables (0 for an interrupt
that is enabled) and the UIO core's counter. -/
structure IrqCore where
  disable : Nat → Nat
  enable : Nat → Nat
  count : UInt32 → UInt32
  disable_ne_zero : ∀ n, disable n ≠ 0
  enable_disable : ∀ n, enable (disable n) = n
  count_ne : ∀ e, count e ≠ e

attribute [simp] IrqCore.disable_ne_zero IrqCore.enable_disable IrqCore.count_ne

/-- Linux counts by one. -/
def linuxIrq : IrqCore where
  disable n := n + 1
  enable n := n - 1
  count e := e + 1
  disable_ne_zero n := Nat.succ_ne_zero n
  enable_disable _ := rfl
  count_ne e := by simp

/-- Where the handler is: in front of its locked section, or between that and
`uio_event_notify`. -/
inductive IrqHandler where
  | idle | entered | left
  deriving DecidableEq, Repr

/-- `irqEnabled` is the driver's; `depth` is the nesting of disables.
mirrors src/kernel/chiplets_uio.c:17-22 -/
structure ChipletsUio where
  irqEnabled : Bool
  depth : Nat
  latched : Bool
  handler : IrqHandler
  event : UInt32
  listener : UInt32
  deriving DecidableEq, Repr

namespace ChipletsUio

/-- The device as `probe` leaves it.
mirrors src/kernel/chiplets_uio.c:110-111 -/
def registered : ChipletsUio := ⟨true, 0, false, .idle, 0, 0⟩

variable (core : IrqCore)

def disableIrqNosync (u : ChipletsUio) : ChipletsUio := { u with depth := core.disable u.depth }

def enter (u : ChipletsUio) : ChipletsUio := { u with latched := false, handler := .entered }

/-- The last enable delivers what was kept. -/
def enableIrq (u : ChipletsUio) : ChipletsUio :=
  let u := { u with depth := core.enable u.depth }
  if u.depth = 0 ∧ u.latched ∧ u.handler = .idle then u.enter else u

/-- mirrors src/kernel/chiplets_uio.c:24-36 -/
def chipletsUioIrq (u : ChipletsUio) : ChipletsUio :=
  if u.irqEnabled then { u.disableIrqNosync core with irqEnabled := false } else u

/-- mirrors src/kernel/chiplets_uio.c:38-53 -/
def chipletsUioIrqcontrol (u : ChipletsUio) (irqOn : Int32) : ChipletsUio :=
  if irqOn ≠ 0 ∧ u.irqEnabled = false then { u with irqEnabled := true }.enableIrq core
  else if irqOn = 0 ∧ u.irqEnabled then { u.disableIrqNosync core with irqEnabled := false }
  else u

/-- A pulse on the line, kept or not if it cannot be delivered. -/
def pulse (u : ChipletsUio) (keep : Bool) : ChipletsUio :=
  if u.depth = 0 ∧ u.handler = .idle then { u with handler := .entered }
  else { u with latched := u.latched || keep }

/-- The handler's locked section. -/
def lock (u : ChipletsUio) : ChipletsUio := { u.chipletsUioIrq core with handler := .left }

/-- The handler returns: `IRQ_HANDLED`, so the event is counted. -/
def eventNotify (u : ChipletsUio) : ChipletsUio :=
  let u := { u with event := core.count u.event, handler := .idle }
  if u.depth = 0 ∧ u.latched then u.enter else u

/-- `open`: only later events count for the reader. -/
def opened (u : ChipletsUio) : ChipletsUio := { u with listener := u.event }

/-- `read` returns, as soon as the counts differ. -/
def readEvent (u : ChipletsUio) : ChipletsUio := { u with listener := u.event }

/-! ## Who hears a pulse -/

/-- A reader has the device open, and every pulse from now on gets it out of
its next `read`, or has nothing to add: the interrupt is disabled only from
the handler's locked section to the reader's enable. `returned` is a reader
between its `read` and its enable. -/
inductive Hearing (u : ChipletsUio) : (returned : Bool) → Prop
  | ready : u.irqEnabled = true → u.depth = 0 → u.handler ≠ .left → u.event = u.listener →
      Hearing u false
  | handling : u.irqEnabled = false → u.depth = core.disable 0 → u.handler = .left → u.event = u.listener →
      Hearing u false
  | due : u.irqEnabled = false → u.depth = core.disable 0 → u.handler = .idle → u.event = core.count u.listener →
      Hearing u false
  | returned : u.irqEnabled = false → u.depth = core.disable 0 → u.handler = .idle → u.event = u.listener →
      Hearing u true

/-- The interrupt is disabled and its handler has returned. -/
structure Masked (u : ChipletsUio) : Prop where
  disabled : u.irqEnabled = false
  depth : u.depth = core.disable 0
  handler : u.handler = .idle

/-- Nobody has the device open, and the next reader will hear. -/
inductive Unread (u : ChipletsUio) : Prop
  | ready : u.irqEnabled = true → u.depth = 0 → u.handler ≠ .left → Unread u
  | handling : u.irqEnabled = false → u.depth = core.disable 0 → u.handler = .left → Unread u

/-- The reader is on its way through, or will be let through. -/
def Wakes (u : ChipletsUio) : Prop := u.handler ≠ .idle ∨ u.event ≠ u.listener

instance : DecidablePred Wakes := fun _ => inferInstanceAs (Decidable (_ ∨ _))

section
variable {core : IrqCore} {u : ChipletsUio} {returned : Bool}

@[simp] theorem pulse_event (u : ChipletsUio) (keep : Bool) : (u.pulse keep).event = u.event := by
  unfold ChipletsUio.pulse
  split <;> rfl

@[simp] theorem pulse_listener (u : ChipletsUio) (keep : Bool) :
    (u.pulse keep).listener = u.listener := by
  unfold ChipletsUio.pulse
  split <;> rfl

theorem Hearing.pulse (h : u.Hearing core returned) (keep : Bool) : (u.pulse keep).Hearing core returned := by
  unfold ChipletsUio.pulse
  cases h with
  | ready he hd hh hev =>
    split
    · exact .ready he hd nofun hev
    · exact .ready he hd hh hev
  | handling he hd hh hev =>
    rw [if_neg (by simp [hd])]
    exact .handling he hd hh hev
  | due he hd hh hev =>
    rw [if_neg (by simp [hd])]
    exact .due he hd hh hev
  | returned he hd hh hev =>
    rw [if_neg (by simp [hd])]
    exact .returned he hd hh hev

/-- A pulse is not lost on a reader that waits: if it is not delivered, the
reader is being let through already. -/
theorem Hearing.pulse_wakes (h : u.Hearing core false) (keep : Bool) : (u.pulse keep).Wakes := by
  unfold ChipletsUio.pulse Wakes
  cases h with
  | ready he hd hh hev =>
    by_cases hi : u.handler = .idle
    · simp [hd, hi]
    · simp [hi]
  | handling he hd hh hev => simp [hd, hh]
  | due he hd hh hev => simp [hd, hev]

theorem Wakes.pulse (h : u.Wakes) (keep : Bool) : (u.pulse keep).Wakes := by
  unfold ChipletsUio.pulse
  split
  · exact .inl nofun
  · exact h

theorem Hearing.lock (h : u.Hearing core returned) (hh : u.handler = .entered) :
    (u.lock core).Hearing core returned := by
  cases h with
  | ready he hd _ hev =>
    refine .handling ?_ ?_ rfl ?_
    all_goals simp [ChipletsUio.lock, chipletsUioIrq, disableIrqNosync, he, hd, hev]
  | handling _ _ hl | due _ _ hl | returned _ _ hl =>
    rw [hh] at hl
    cases hl

/-- The handler returns: its event gets the reader out. -/
theorem Hearing.eventNotify (h : u.Hearing core returned) (hh : u.handler = .left) :
    (u.eventNotify core).Hearing core returned ∧ (u.eventNotify core).Wakes := by
  cases h with
  | ready _ _ hl => exact absurd hh hl
  | handling he hd _ hev =>
    have hn : u.eventNotify core = { u with event := core.count u.event, handler := .idle } := by
      simp [ChipletsUio.eventNotify, hd]
    rw [hn]
    exact ⟨.due he hd rfl (by rw [hev]), .inr (by simp [hev])⟩
  | due _ _ hl | returned _ _ hl =>
    rw [hh] at hl
    cases hl

theorem Hearing.readEvent (h : u.Hearing core false) (hr : u.event ≠ u.listener) :
    u.readEvent.Hearing core true := by
  cases h with
  | ready _ _ _ hev | handling _ _ _ hev => exact absurd hev hr
  | due he hd hh _ => exact .returned he hd hh rfl

/-- The reader enables the interrupt, and a pulse that was kept is delivered. -/
theorem Hearing.enable (h : u.Hearing core true) : (u.chipletsUioIrqcontrol core 1).Hearing core false := by
  cases h with
  | returned he hd hh hev =>
    have hc : u.chipletsUioIrqcontrol core 1 = { u with irqEnabled := true }.enableIrq core := by
      simp [chipletsUioIrqcontrol, he]
    rw [hc]
    unfold enableIrq
    dsimp only
    split
    · exact .ready rfl (by simp [enter, hd]) nofun hev
    · exact .ready rfl (by simp [hd]) (by simp [hh]) hev

/-- The reader goes away. -/
theorem Hearing.closed (h : u.Hearing core returned) :
    u.Unread core ∨ u.Masked core := by
  cases h with
  | ready he hd hh _ => exact .inl (.ready he hd hh)
  | handling he hd hh _ => exact .inl (.handling he hd hh)
  | due he hd hh _ | returned he hd hh _ => exact .inr ⟨he, hd, hh⟩

theorem Unread.pulse (h : u.Unread core) (keep : Bool) : (u.pulse keep).Unread core := by
  unfold ChipletsUio.pulse
  cases h with
  | ready he hd hh =>
    split
    · exact .ready he hd nofun
    · exact .ready he hd hh
  | handling he hd hh =>
    rw [if_neg (by simp [hd])]
    exact .handling he hd hh

theorem Unread.lock (h : u.Unread core) (hh : u.handler = .entered) : (u.lock core).Unread core := by
  cases h with
  | ready he hd _ =>
    refine .handling ?_ ?_ rfl
    all_goals simp [ChipletsUio.lock, chipletsUioIrq, disableIrqNosync, he, hd]
  | handling _ _ hl =>
    rw [hh] at hl
    cases hl

/-- An interrupt that nobody reads stays disabled. -/
theorem Unread.eventNotify (h : u.Unread core) (hh : u.handler = .left) : (u.eventNotify core).Masked core := by
  cases h with
  | ready _ _ hl => exact absurd hh hl
  | handling he hd _ =>
    have hn : u.eventNotify core = { u with event := core.count u.event, handler := .idle } := by
      simp [ChipletsUio.eventNotify, hd]
    rw [hn]
    exact ⟨he, hd, rfl⟩

theorem Unread.opened (h : u.Unread core) : u.opened.Hearing core false := by
  cases h with
  | ready he hd hh => exact .ready he hd hh rfl
  | handling he hd hh => exact .handling he hd hh rfl

theorem Masked.pulse (h : u.Masked core) (keep : Bool) : (u.pulse keep).Masked core := by
  unfold ChipletsUio.pulse
  rw [if_neg (by simp [h.depth])]
  exact ⟨h.disabled, h.depth, h.handler⟩

theorem Unread.not_masked (h : u.Unread core) : ¬u.Masked core := by
  intro hm
  cases h with
  | ready he => simp [hm.disabled] at he
  | handling _ _ hh => simp [hm.handler] at hh

end

end ChipletsUio

end AcsVirt.L2
