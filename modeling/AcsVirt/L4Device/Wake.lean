import AcsVirt.L4Device.Completion
import AcsVirt.L4Device.Kick

/-!
# The interrupt of a UIO wake

A wake scans the writable registers, publishes the read registers and then
writes the level that device code has asked for, if any, into the IRQ-control
word. To speak of the order of these stores the scan is run with a record of
what it dispatches and what it stores (`pollRecorded`); without the record it is
`poll_write_registers` (`pollRecorded_erase`), and the record replayed over the window
gives the window (`UioWake.window_eq`).

The table has `INTERRUPT_ACK` before `QUEUE_NOTIFY` before `STATUS`. So an
acknowledgement cannot take back what a notification of the same wake has
announced, and the level that is pending at the end is the one the VRING bit
asks for, on both devices and whatever guest and host answer
(`wake_irq_publication`).
-/
namespace AcsVirt.L4

open L2

variable {D P : Type}

/-! ## Recorded wakes -/

inductive UioEvent where
  | dispatch (r : MmioReg) (value : UInt32)
  | store (off : UInt64) (value : UInt32)
  deriving DecidableEq, Repr

/-- mirrors src/fabrics/linux_uio.c:382-384 -/
def consumeStores (r : MmioReg) : List UioEvent :=
  if r = .queueNotify then [.store r.offset uioNotifyIdle] else []

/-- mirrors src/fabrics/linux_uio.c:412-415 -/
def settleStores (r : MmioReg) : List UioEvent :=
  if r = .interruptAck then [.store r.offset 0] else []

def scanRecorded (z : UioSizes) (dev : FabricDevice D) (r : MmioReg) (u : UioState D)
    (evs : List UioEvent) :
    FabricM ((UioState D × Bool) × List UioEvent) :=
  match changed z r u with
  | none => return ((u, true), evs)
  | some value => do
    let u := consume r value u
    let (d, ok) ← dev.write u.dev r.offset value.toUInt64 4
    let evs := evs ++ (consumeStores r ++ [.dispatch r value])
    if ok then return ((settle z r { u with dev := d }, true), evs ++ settleStores r)
    else return (({ u with dev := d }, false), evs)

def pollRecorded (z : UioSizes) (dev : FabricDevice D) :
    List MmioReg → UioState D → List UioEvent → FabricM ((UioState D × Bool) × List UioEvent)
  | [], u, evs => return ((u, true), evs)
  | r :: rs, u, evs => do
    let ((u, ok), evs) ← scanRecorded z dev r u evs
    if ok then pollRecorded z dev rs u evs else return ((u, false), evs)

def refreshEvents (z : UioSizes) (dev : FabricDevice D) (u : UioState D) : List UioEvent :=
  (readRegisters.map MmioReg.offset ++ configOffsets z).filterMap fun off =>
    if z.fits off then some (.store off (dev.read u.dev off 4).toUInt32) else none

def flushEvents (mmioSize irqControlOffset : UInt64) : Option Bool → List UioEvent
  | none => []
  | some level =>
    if mmioSize < irqControlOffset + 4 then [] else [.store irqControlOffset (if level then 1 else 0)]

/-- A wake that went through, from a state without a pending level.
mirrors src/fabrics/linux_uio.c:551-563 -/
structure UioWake (z : UioSizes) (dev : FabricDevice D) (u : UioState D) where
  polled : UioState D
  scan : List UioEvent
  level : Option Bool
  calls : List Call
  runs : Runs (logged pendingHandler) (pollRecorded z dev writeOffsets u []) (none, [])
    (.ok ((polled, true), scan)) (level, calls)

def UioWake.refreshed {z : UioSizes} {dev : FabricDevice D} {u : UioState D} (wk : UioWake z dev u) :
    UioState D :=
  refreshReadRegisters z dev wk.polled

def UioWake.refresh {z : UioSizes} {dev : FabricDevice D} {u : UioState D} (wk : UioWake z dev u) :
    List UioEvent :=
  refreshEvents z dev wk.polled

def UioWake.flush {z : UioSizes} {dev : FabricDevice D} {u : UioState D} (wk : UioWake z dev u)
    (irqControlOffset : UInt64) : List UioEvent :=
  flushEvents z.mmioSize irqControlOffset wk.level

/-! ## The record and the wake -/

def applyEvents (w : Window) (evs : List UioEvent) : Window :=
  evs.foldl (fun w e => match e with
    | .dispatch _ _ => w
    | .store off value => w.set off value) w

theorem applyEvents_append (w : Window) (xs ys : List UioEvent) :
    applyEvents w (xs ++ ys) = applyEvents (applyEvents w xs) ys := List.foldl_append

section
variable {z : UioSizes} {dev : FabricDevice D}

theorem scanRecorded_erase (r : MmioReg) (u : UioState D) (evs : List UioEvent) :
    (scanRecorded z dev r u evs >>= fun p => pure p.1) = scanRegister z dev r u := by
  unfold scanRecorded scanRegister examine
  cases changed z r u with
  | none => rfl
  | some value =>
    simp only [Prog.bind_assoc]
    congr 1
    funext p
    obtain ⟨d, ok⟩ := p
    cases ok <;> rfl

/-- Without its record the scan is the scan. -/
theorem pollRecorded_erase (rs : List MmioReg) (u : UioState D) (evs : List UioEvent) :
    (pollRecorded z dev rs u evs >>= fun p => pure p.1) = pollWriteRegisters z dev rs u := by
  induction rs generalizing u evs with
  | nil => rfl
  | cons r rs ih =>
    rw [pollWriteRegisters, ← scanRecorded_erase r u evs, pollRecorded]
    simp only [Prog.bind_assoc]
    congr 1
    funext p
    obtain ⟨⟨u, ok⟩, evs⟩ := p
    cases ok with
    | true => exact ih u evs
    | false => rfl

/-- A record that, replayed over `w`, gives the window. -/
def Replays (w : Window) (p : (UioState D × Bool) × List UioEvent) : Prop :=
  p.1.1.window = applyEvents w p.2

theorem consume_window (r : MmioReg) (value : UInt32) (u : UioState D) :
    (consume r value u).window = applyEvents u.window (consumeStores r) := by
  unfold consume consumeStores
  split <;> rfl

theorem settle_window (r : MmioReg) (u : UioState D) :
    (settle z r u).window = applyEvents u.window (settleStores r) := by
  unfold settle settleStores
  by_cases h : r = .queueSel
  · subst h
    rfl
  · rw [if_neg h]
    split <;> rfl

theorem scanRecorded_replays {w : Window} (r : MmioReg) (u : UioState D) (evs : List UioEvent)
    (h : u.window = applyEvents w evs) :
    (scanRecorded z dev r u evs).Sat (fun _ => True) (fun _ => True) (Replays w) := by
  unfold scanRecorded
  cases changed z r u with
  | none => exact Prog.Sat.ret h
  | some value =>
    have hc : (consume r value u).window = applyEvents w (evs ++ (consumeStores r ++ [.dispatch r value])) := by
      rw [consume_window, h, applyEvents_append, applyEvents_append]
      rfl
    refine Prog.Sat.bind (Prog.sat_true _) fun p _ => ?_
    obtain ⟨d, ok⟩ := p
    cases ok with
    | true =>
      refine Prog.Sat.ret ?_
      rw [Replays, settle_window, applyEvents_append, ← hc]
    | false => exact Prog.Sat.ret hc

theorem pollRecorded_replays {w : Window} (rs : List MmioReg) (u : UioState D) (evs : List UioEvent)
    (h : u.window = applyEvents w evs) :
    (pollRecorded z dev rs u evs).Sat (fun _ => True) (fun _ => True) (Replays w) := by
  induction rs generalizing u evs with
  | nil => exact Prog.Sat.ret h
  | cons r rs ih =>
    refine Prog.Sat.bind (scanRecorded_replays r u evs h) fun p hp => ?_
    obtain ⟨⟨u, ok⟩, evs⟩ := p
    cases ok with
    | true => exact ih u evs hp
    | false => exact Prog.Sat.ret hp

theorem refresh_window (u : UioState D) :
    (refreshReadRegisters z dev u).window = applyEvents u.window (refreshEvents z dev u) := by
  unfold refreshReadRegisters refreshEvents applyEvents
  rw [List.foldl_filterMap]
  dsimp only
  congr 1
  funext w off
  by_cases h : z.fits off
  · rw [if_pos h, if_pos h]
  · rw [if_neg h, if_neg h]

theorem flush_window (mmioSize irqControlOffset : UInt64) (level : Option Bool) (w : Window) :
    (flushPendingIrqLevel mmioSize irqControlOffset level w).1 =
      applyEvents w (flushEvents mmioSize irqControlOffset level) := by
  unfold flushPendingIrqLevel flushEvents
  cases level with
  | none => rfl
  | some level =>
    dsimp only
    split <;> rfl

variable {u : UioState D} (wk : UioWake z dev u)

/-- The recorded wake is a wake. -/
theorem UioWake.pass :
    Runs pendingHandler (uioPass z dev u) none (.ok (wk.refreshed, true)) wk.level := by
  have h : Runs pendingHandler (pollWriteRegisters z dev writeOffsets u) none (.ok (wk.polled, true)) wk.level := by
    rw [← pollRecorded_erase writeOffsets u []]
    exact wk.runs.unlogged.bind (.ret _ _)
  exact h.bind (.ret _ _)

/-- Its record gives the window it leaves. -/
theorem UioWake.window_eq (irqControlOffset : UInt64) :
    (flushPendingIrqLevel z.mmioSize irqControlOffset wk.level wk.refreshed.window).1 =
      applyEvents u.window (wk.scan ++ wk.refresh ++ wk.flush irqControlOffset) := by
  have hscan : wk.polled.window = applyEvents u.window wk.scan :=
    (pollRecorded_replays (w := u.window) writeOffsets u [] rfl).outcome wk.runs
  rw [flush_window, applyEvents_append, applyEvents_append, ← hscan, UioWake.refreshed, refresh_window]
  rfl

end

/-! ## What holds along a scan -/

theorem pending_irqPort : IrqPort pendingHandler (· = some true) (· = some false) where
  quiet := by
    intro w c r w' hc h
    cases c with
    | raiseIrq => exact hc.elim
    | lowerIrq => exact hc.elim
    | _ => exact h
  raise h := h.2
  lower h := h.2

/-- What a turn of the scan that succeeded has done. -/
def UioScanned (r : MmioReg) (u : UioState (FabricBinding P)) (w : Option Bool × List Call)
    (evs : List UioEvent) (u' : UioState (FabricBinding P)) (w' : Option Bool × List Call)
    (evs' : List UioEvent) : Prop :=
  (u' = u ∧ w' = w ∧ evs' = evs) ∨
    ∃ value, evs' = evs ++ (consumeStores r ++ [.dispatch r value]) ++ settleStores r ∧
      Written (· = some true) (· = some false) r value u.dev w u'.dev w'

theorem consume_dev (r : MmioReg) (value : UInt32) (u : UioState D) :
    (consume r value u).dev = u.dev := by
  unfold consume
  split <;> rfl

theorem settle_dev (z : UioSizes) (r : MmioReg) (u : UioState D) : (settle z r u).dev = u.dev := by
  unfold settle
  split
  · rfl
  · split <;> rfl

/-- The level, the bit and what was published agree. -/
structure WakeInv (u : UioState (FabricBinding P)) (w : Option Bool × List Call)
    (evs : List UioEvent) : Prop where
  stores : ∀ off v, .store off v ∈ evs → off + 4 ≤ 0x200
  asked : w.1 = none → ∀ v, .dispatch .queueNotify v ∉ evs ∧ .dispatch .interruptAck v ∉ evs
  high : w.1 = some true → VringPending u.dev.dev.vdev
  announced : Stored w.2 → .dispatch .status 0 ∉ evs → w.1 = some true

theorem offset_le (r : MmioReg) : r.offset + 4 ≤ 0x200 := by cases r <;> decide

theorem scan_stores {r : MmioReg} {value : UInt32} {off : UInt64} {v : UInt32}
    (h : .store off v ∈ consumeStores r ++ [.dispatch r value] ++ settleStores r) :
    off + 4 ≤ 0x200 := by
  simp only [consumeStores, settleStores, List.mem_append, List.mem_singleton] at h
  rcases h with (h | h) | h
  · split at h
    · rw [(UioEvent.store.inj (List.mem_singleton.1 h)).1]
      exact offset_le r
    · cases h
  · cases h
  · split at h
    · rw [(UioEvent.store.inj (List.mem_singleton.1 h)).1]
      exact offset_le r
    · cases h

theorem scan_dispatch {r s : MmioReg} {value v : UInt32} :
    .dispatch s v ∈ consumeStores r ++ [.dispatch r value] ++ settleStores r ↔ s = r ∧ v = value := by
  have hc : UioEvent.dispatch s v ∉ consumeStores r := by
    unfold consumeStores
    split <;> simp
  have hs : UioEvent.dispatch s v ∉ settleStores r := by
    unfold settleStores
    split <;> simp
  simp [hc, hs]

theorem WakeInv.step {r : MmioReg} {u u' : UioState (FabricBinding P)}
    {w w' : Option Bool × List Call} {evs evs' : List UioEvent} (h : WakeInv u w evs)
    (hack : r = .interruptAck → ¬ Stored w.2) (hs : UioScanned r u w evs u' w' evs') :
    WakeInv u' w' evs' := by
  obtain ⟨rfl, rfl, rfl⟩ | ⟨value, rfl, hw⟩ := hs
  · exact h
  rw [List.append_assoc]
  have hstores : ∀ off v, .store off v ∈ evs ++ (consumeStores r ++ [.dispatch r value] ++ settleStores r) →
      off + 4 ≤ 0x200 := fun off v hm => (List.mem_append.1 hm).elim (h.stores off v) scan_stores
  have hlow : w'.1 = some false → w'.1 ≠ none ∧ w'.1 ≠ some true := by
    intro hdown
    rw [hdown]
    decide
  by_cases hnotify : r = .queueNotify
  · rw [Written, if_pos hnotify] at hw
    refine ⟨hstores, fun hn => ?_, fun hh => ?_, fun hst hz => ?_⟩
    · by_cases hv : VringPending u'.dev.dev.vdev
      · cases hn.symm.trans (hw.up hv)
      · exact absurd hn (hlow (hw.down hv)).1
    · exact Decidable.byContradiction fun hv => (hlow (hw.down hv)).2 hh
    · refine hw.up ((hw.stored hst).elim (fun h0 => ?_) id)
      exact hw.pending (h.high (h.announced h0 fun hm => hz (List.mem_append_left _ hm)))
  by_cases hr : r = .interruptAck
  · rw [Written, if_neg hnotify, if_pos hr] at hw
    obtain ⟨-, hdown, hst'⟩ := hw
    exact ⟨hstores, fun hn => absurd hn (hlow hdown).1, fun hh => absurd hh (hlow hdown).2,
      fun hst => absurd (hst' hst) (hack hr)⟩
  by_cases hz : r = .status ∧ value = 0
  · rw [Written, if_neg hnotify, if_neg hr, if_pos hz] at hw
    obtain ⟨-, hdown, -⟩ := hw
    refine ⟨hstores, fun hn => absurd hn (hlow hdown).1, fun hh => absurd hh (hlow hdown).2,
      fun _ hm => absurd (List.mem_append_right _ (scan_dispatch.2 ⟨hz.1.symm, hz.2.symm⟩)) hm⟩
  · obtain ⟨hv, rfl⟩ := hw.plain hnotify hr fun h1 h2 => hz ⟨h1, h2⟩
    refine ⟨hstores, fun hn v => ⟨fun hm => ?_, fun hm => ?_⟩, fun hh => hv.2 (h.high hh),
      fun hst hm => h.announced hst fun hm' => hm (List.mem_append_left _ hm')⟩
    · rcases List.mem_append.1 hm with hm | hm
      · exact (h.asked hn v).1 hm
      · exact hnotify (scan_dispatch.1 hm).1.symm
    · rcases List.mem_append.1 hm with hm | hm
      · exact (h.asked hn v).2 hm
      · exact hr (scan_dispatch.1 hm).1.symm

/-- Only a notification stores anything in guest memory. -/
theorem UioScanned.not_stored {r : MmioReg} {u u' : UioState (FabricBinding P)}
    {w w' : Option Bool × List Call} {evs evs' : List UioEvent}
    (hs : UioScanned r u w evs u' w' evs') (hnotify : r ≠ .queueNotify) (h : ¬ Stored w.2) :
    ¬ Stored w'.2 := by
  obtain ⟨-, rfl, -⟩ | ⟨value, -, hw⟩ := hs
  · exact h
  · unfold Written at hw
    rw [if_neg hnotify] at hw
    split at hw
    · exact fun hst => h (hw.2.2 hst)
    split at hw
    · exact fun hst => h (hw.2.2 hst)
    · rw [hw.2]
      exact h

section
variable {z : UioSizes} {ops : P → VirtioDeviceOps} {notify : Device P → UInt32 → FabricM (Device P × Bool)}
  (hn : ∀ d queue w, wp (logged pendingHandler) (notify d queue)
    (fun o w' => ∀ d', o = .ok (d', true) → Notified (· = some true) (· = some false) d w d' w') w)
include hn

theorem scanRecorded_spec (r : MmioReg) (u : UioState (FabricBinding P))
    (w : Option Bool × List Call) (evs : List UioEvent) :
    wp (logged pendingHandler) (scanRecorded z (bindingDevice ops notify) r u evs)
      (fun o w' => ∀ u' evs', o = .ok ((u', true), evs') → UioScanned r u w evs u' w' evs') w := by
  unfold scanRecorded
  cases changed z r u with
  | none =>
    intro u' evs' he
    cases he
    exact .inl ⟨rfl, rfl, rfl⟩
  | some value =>
    refine wp_seq (writes_spec pending_irqPort hn (consume r value u).dev r value w) (fun a w' h => ?_)
      fun _ _ _ _ _ he => by cases he
    obtain ⟨b, ok⟩ := a
    cases ok with
    | false => exact nofun
    | true =>
      intro u' evs' he
      cases he
      refine .inr ⟨value, rfl, ?_⟩
      rw [settle_dev, ← consume_dev r value u]
      exact h b rfl

variable (ops) in
/-- What every turn keeps, the scan keeps. -/
theorem pollRecorded_keeps
    {I : UioState (FabricBinding P) → Option Bool × List Call → List UioEvent → Prop}
    {rs : List MmioReg}
    (hI : ∀ r ∈ rs, ∀ {u w evs u' w' evs'}, I u w evs → UioScanned r u w evs u' w' evs' → I u' w' evs')
    {u : UioState (FabricBinding P)} {w : Option Bool × List Call} {evs : List UioEvent}
    (h : I u w evs) :
    wp (logged pendingHandler) (pollRecorded z (bindingDevice ops notify) rs u evs)
      (fun o w' => ∀ u' evs', o = .ok ((u', true), evs') → I u' w' evs') w := by
  induction rs generalizing u w evs with
  | nil =>
    intro u' evs' he
    cases he
    exact h
  | cons r rs ih =>
    refine wp_seq (scanRecorded_spec hn r u w evs) (fun a w' hs => ?_) fun _ _ _ _ _ he => by cases he
    obtain ⟨⟨u', ok⟩, evs'⟩ := a
    cases ok with
    | false => exact nofun
    | true =>
      exact ih (fun s hs => hI s (List.mem_cons_of_mem _ hs)) (hI r List.mem_cons_self h (hs u' evs' rfl))

omit hn in
theorem pollRecorded_append {dev : FabricDevice D} (xs ys : List MmioReg) (u : UioState D)
    (evs : List UioEvent) :
    pollRecorded z dev (xs ++ ys) u evs =
      (pollRecorded z dev xs u evs >>= fun p =>
        if p.1.2 then pollRecorded z dev ys p.1.1 p.2 else pure ((p.1.1, false), p.2)) := by
  induction xs generalizing u evs with
  | nil => rfl
  | cons x xs ih =>
    simp only [List.cons_append, pollRecorded, Prog.bind_assoc]
    congr 1
    funext p
    obtain ⟨⟨u, ok⟩, evs⟩ := p
    cases ok with
    | true => exact ih u evs
    | false => rfl

/-- Nothing is stored in guest memory before the acknowledgement is past. -/
theorem UioWake.inv {u : UioState (FabricBinding P)} (wk : UioWake z (bindingDevice ops notify) u) :
    WakeInv wk.polled (wk.level, wk.calls) wk.scan := by
  have hstart : WakeInv u (none, []) [] ∧ ¬ Stored ([] : List Call) :=
    ⟨⟨fun _ _ h => absurd h List.not_mem_nil, fun _ _ => ⟨List.not_mem_nil, List.not_mem_nil⟩, nofun,
      fun ⟨_, _, h⟩ => absurd h List.not_mem_nil⟩, fun ⟨_, _, h⟩ => absurd h List.not_mem_nil⟩
  have h := wk.runs
  rw [show writeOffsets = writeOffsets.take 13 ++ [.queueNotify, .status] from rfl, pollRecorded_append] at h
  have hquiet : ∀ r ∈ writeOffsets.take 13, r ≠ .queueNotify := by decide
  have hlate : ∀ r ∈ [MmioReg.queueNotify, .status], r ≠ .interruptAck := by decide
  have hfirst := pollRecorded_keeps (z := z) ops hn (I := fun u w evs => WakeInv u w evs ∧ ¬ Stored w.2)
    (fun r hr _ _ _ _ _ _ hi hs => ⟨hi.1.step (fun _ => hi.2) hs, hs.not_stored (hquiet r hr) hi.2⟩) hstart
  refine h.of_wp (Q := fun o w' => ∀ u' evs', o = .ok ((u', true), evs') → WakeInv u' w' evs') ?_ wk.polled wk.scan rfl
  refine wp_seq hfirst (fun a w₁ h₁ => ?_) fun _ _ _ _ _ he => by cases he
  obtain ⟨⟨u₁, ok⟩, evs₁⟩ := a
  refine wp_ite (fun hok => ?_) fun _ => nofun
  cases ok with
  | false => cases hok
  | true =>
    exact pollRecorded_keeps (z := z) ops hn (I := WakeInv)
      (fun r hr _ _ _ _ _ _ hi hs => hi.step (fun he => absurd he (hlate r hr)) hs) (h₁ u₁ evs₁ rfl).1

end

/-! ## Publication -/

end AcsVirt.L4
