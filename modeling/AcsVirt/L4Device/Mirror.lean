import Mathlib.Data.List.Basic
import AcsVirt.Core.LTS
import AcsVirt.L2Machine.UioScan
import AcsVirt.L4Device.Consoled

/-!
# Register mirroring in UIO mode

The socket fabric hands every guest write to the device. In UIO mode the
device sees the differences between the window and the shadow, one pass after
each write. `mirrorLts` runs both next to each other on the same writes.

They do not stay together: a write that stores the value the word already has
is not seen, although the device may have banked it elsewhere or dropped it in
a reset (`second_bank_lost`), and a repeated `QUEUE_SEL` delivers the clearing
of the queue words. `Delivered` is exactly when a write has its effect
(`mirror_agrees_iff`).
-/
namespace AcsVirt.L4

open L2 L2.MmioReg

variable {P : Type}

/-- The guest's write and the daemon's pass after it. -/
def guestWrite (z : UioSizes) (dev : FabricDevice (FabricBinding P)) (r : MmioReg) (value : UInt32)
    (u : UioState (FabricBinding P)) : FabricM (UioState (FabricBinding P) × Bool) :=
  uioPass z dev { u with window := axiUioWrite z.mmioSize u.window r.offset value }

/-- Registers whose writes are mirrored as they are; the other two are
signals. -/
def Mirrored (r : MmioReg) : Prop := r ∈ writeOffsets ∧ r ≠ .queueNotify ∧ r ≠ .interruptAck

instance (r : MmioReg) : Decidable (Mirrored r) := inferInstanceAs (Decidable (_ ∧ _))

/-- The device behind the window, and the one that is handed every write. -/
structure MirrorState (P : Type) where
  uio : UioState (FabricBinding P)
  fabric : UioFabric
  direct : VirtioMmio

def mirrorLts (z : UioSizes) (dev : FabricDevice (FabricBinding P)) (b : FabricBinding P) :
    LTS (MirrorState P) (MmioReg × UInt32) where
  init s := s.uio = uioStart z dev b (fun _ => 0) ∧ s.direct = b.mmio
  step s l s' := Mirrored l.1 ∧
    (guestWrite z dev l.1 l.2 s.uio).run UioFabric.answer s.fabric = (.ok (s'.uio, true), s'.fabric) ∧
    s'.direct = virtioMmioWrite s.direct l.1.offset l.2.toUInt64

/-! ## The scan -/

theorem virtioMmioWrite_reg (m : VirtioMmio) (r : MmioReg) (v : UInt32) :
    virtioMmioWrite m r.offset v.toUInt64 = writeReg m v r := by
  rw [virtioMmioWrite, ofOffset?_eq_some.2 rfl]
  simp

section
variable {ops : P → VirtioDeviceOps} {notify : Device P → UInt32 → FabricM (Device P × Bool)}
  {z : UioSizes}

variable (notify) in
/-- The device's answer to a dispatched register other than the notify. -/
theorem mmioWrite_run (b : FabricBinding P) {r : MmioReg} (hr : r ≠ .queueNotify) (v : UInt32)
    (f : UioFabric) :
    ∃ f', (mmioWrite notify b r.offset v.toUInt64).run UioFabric.answer f =
      (.ok ({ b with mmio := writeReg b.mmio v r }, true), f') := by
  have hnot : r.offset ≠ MmioReg.queueNotify.offset := offset_ne hr
  simp only [mmioWrite, virtioMmioWrite_reg, hnot, if_false]
  split
  · split
    · exact ⟨{ f with pendingIrqLevel := some false }, rfl⟩
    · exact ⟨f, rfl⟩
  · split
    · exact ⟨{ f with pendingIrqLevel := some false }, rfl⟩
    · exact ⟨f, rfl⟩

/-- What a scan of `rs` does to the registers. -/
def deliver (w : Window) (shadow : MmioReg → UInt32) (rs : List MmioReg) (m : VirtioMmio) :
    VirtioMmio := dispatched (fun m r v => writeReg m v r) w shadow rs m

variable (ops notify) in
theorem binding_answers : Answers (bindingDevice ops notify)
    fun b r v => { b with mmio := writeReg b.mmio v r } :=
  fun b _ v f hr => mmioWrite_run notify b hr v f

theorem dispatched_mmio (w : Window) (sh : MmioReg → UInt32) (rs : List MmioReg)
    (b : FabricBinding P) :
    (dispatched (fun b r v => { b with mmio := writeReg b.mmio v r }) w sh rs b).mmio = deliver w sh rs b.mmio := by
  unfold deliver dispatched
  refine (List.foldl_hom FabricBinding.mmio fun b r => ?_).symm
  split <;> rfl

theorem status_read (o : VirtioDeviceOps) (m : VirtioMmio) :
    (virtioMmioRead o m MmioReg.status.offset 4).toUInt32 = m.vdev.status := by
  rw [virtioMmioRead, ofOffset?_eq_some.2 rfl]
  exact maskRead_word m.vdev.status

/-! ## One write -/

/-- After a pass the shadow is the window, and the status word is the status. -/
structure MirrorInv (u : UioState (FabricBinding P)) : Prop where
  shadow : ∀ r ∈ writeOffsets, u.window r.offset = u.shadow r
  status : u.dev.mmio.vdev.status = u.window MmioReg.status.offset

/-- Zeros written to the queue registers whose word is not zero, in the order
of the scan. -/
def clearSelected (w : Window) (m : VirtioMmio) : VirtioMmio :=
  (writeOffsets.filter (· ∈ queueStateOffsets)).foldl
    (fun m q => if w q.offset = 0 then m else writeReg m 0 q) m

/-- What a guest write does to the device behind the window. -/
def mirrorResult (u : UioState (FabricBinding P)) (r : MmioReg) (v : UInt32) : VirtioMmio :=
  if u.window r.offset ≠ v then writeReg u.dev.mmio v r
  else if r = .queueSel then clearSelected u.window u.dev.mmio
  else u.dev.mmio

theorem foldl_keeps {α β γ : Type} (g : α → γ) (step : α → β → α) (l : List β) (a : α)
    (h : ∀ a, ∀ b ∈ l, g (step a b) = g a) : g (l.foldl step a) = g a := by
  induction l generalizing a with
  | nil => rfl
  | cons b l ih =>
    rw [List.foldl_cons, ih _ fun a c hc => h a c (List.mem_cons_of_mem _ hc), h a b List.mem_cons_self]

theorem writeReg_status (m : VirtioMmio) (v : UInt32) (r : MmioReg) :
    (writeReg m v r).vdev.status = if r = .status then v else m.vdev.status := by
  cases r with
  | status =>
    simp only [writeReg, if_true]
    split
    · rename_i h
      exact h.symm
    · rfl
  | driverFeatures =>
    simp only [writeReg, reduceCtorEq, if_false]
    split
    · rfl
    · split <;> rfl
  | _ => rfl

theorem writeReg_queueState {q : MmioReg} (hq : q ∈ queueStateOffsets) (m : VirtioMmio) (v : UInt32) :
    (writeReg m v q).queueSel = m.queueSel ∧ (writeReg m v q).vdev.status = m.vdev.status := by
  simp only [queueStateOffsets, List.mem_cons, List.not_mem_nil, or_false] at hq
  rcases hq with rfl | rfl | rfl | rfl | rfl | rfl | rfl | rfl <;> exact ⟨rfl, rfl⟩

theorem clearSelected_keeps (w : Window) (m : VirtioMmio) :
    (clearSelected w m).queueSel = m.queueSel ∧ (clearSelected w m).vdev.status = m.vdev.status := by
  have h := foldl_keeps (fun m : VirtioMmio => (m.queueSel, m.vdev.status))
    (fun m q => if w q.offset = 0 then m else writeReg m 0 q)
    (writeOffsets.filter (· ∈ queueStateOffsets)) m (by
      intro m q hq
      split
      · rfl
      · obtain ⟨h1, h2⟩ := writeReg_queueState (by simpa using (List.mem_filter.1 hq).2) m 0
        rw [h1, h2])
  exact ⟨congrArg Prod.fst h, congrArg Prod.snd h⟩

theorem deliver_one {w : Window} {sh : MmioReg → UInt32} {rs : List MmioReg} {r : MmioReg}
    (hr : r ∈ rs) (hn : rs.Nodup) (hq : ∀ s ∈ rs, s ≠ r → w s.offset = sh s) (m : VirtioMmio) :
    deliver w sh rs m = if w r.offset = sh r then m else writeReg m (w r.offset) r := by
  obtain ⟨pre, post, rfl⟩ := List.append_of_mem hr
  have hne := List.nodup_append.1 hn
  have hpre : ∀ s ∈ pre, w s.offset = sh s := fun s hs =>
    hq s (List.mem_append_left _ hs) (hne.2.2 s hs r List.mem_cons_self)
  have hpost : ∀ s ∈ post, w s.offset = sh s := fun s hs =>
    hq s (List.mem_append_right _ (List.mem_cons_of_mem _ hs)) fun e =>
      (List.nodup_cons.1 hne.2.1).1 (e ▸ hs)
  have hsplit : deliver w sh (pre ++ r :: post) m =
      deliver w sh post (if w r.offset = sh r then deliver w sh pre m
        else writeReg (deliver w sh pre m) (w r.offset) r) := by
    simp only [deliver, dispatched, List.foldl_append, List.foldl_cons]
  rw [hsplit]
  unfold deliver
  rw [dispatched_quiet hpre, dispatched_quiet hpost]

theorem deliver_clear {w w' : Window} {sh : MmioReg → UInt32}
    (hsh : ∀ r ∈ writeOffsets, w r.offset = sh r)
    (hw : ∀ r : MmioReg, w' r.offset = if r ∈ queueStateOffsets then 0 else w r.offset)
    (m : VirtioMmio) :
    deliver w' sh writeOffsets m = clearSelected w m := by
  rw [deliver, dispatched, clearSelected, List.foldl_filter]
  refine List.foldl_ext _ _ m fun m r hr => ?_
  rw [hw r, ← hsh r hr]
  by_cases hq : r ∈ queueStateOffsets
  · simp only [hq, if_true, decide_true]
    by_cases h0 : w r.offset = 0
    · simp [h0]
    · simp [h0, Ne.symm h0]
  · simp [hq]

/-- The state the daemon's pass starts in. -/
def stored (z : UioSizes) (u : UioState (FabricBinding P)) (r : MmioReg) (v : UInt32) :
    UioState (FabricBinding P) :=
  { u with window := axiUioWrite z.mmioSize u.window r.offset v }

theorem stored_word (hz : z.devSize = 0x200) (u : UioState (FabricBinding P)) (r : MmioReg)
    (v : UInt32) (s : MmioReg) :
    (stored z u r v).window s.offset =
      if r = .queueSel ∧ s ∈ queueStateOffsets then 0 else if s = r then v else u.window s.offset :=
  axiUioWrite_word hz u.window r s v

/-- The scan brought the shadow up to date and did `mirrorResult`. -/
def Scanned (u₀ u₁ : UioState (FabricBinding P)) (m : VirtioMmio) : Prop :=
  u₁.window = u₀.window ∧ u₁.dev.mmio = m ∧ ∀ r ∈ writeOffsets, u₁.shadow r = u₀.window r.offset

variable (ops notify) in
/-- Any register but the selector: its word is the only one that can differ. -/
theorem poll_other (hz : z.devSize = 0x200) {u : UioState (FabricBinding P)} (hi : MirrorInv u)
    {r : MmioReg} (hr : Mirrored r) (hsel : r ≠ .queueSel) (v : UInt32) (f : UioFabric) :
    ∃ u₁ f₁, (pollWriteRegisters z (bindingDevice ops notify) writeOffsets (stored z u r v)).run
        UioFabric.answer f = (.ok (u₁, true), f₁) ∧ Scanned (stored z u r v) u₁ (mirrorResult u r v) := by
  have hw : ∀ s : MmioReg, (stored z u r v).window s.offset = if s = r then v else u.window s.offset := by
    intro s
    simp only [stored_word hz, hsel, false_and, if_false]
  have hquiet : ∀ s ∈ writeOffsets, s ≠ r → (stored z u r v).window s.offset = u.shadow s := by
    intro s hs hne
    rw [hw, if_neg hne, hi.shadow s hs]
  obtain ⟨u₁, f₁, hrun, hwin, hdev, hsh, -⟩ :=
    poll_plain (binding_answers ops notify) hz writeOffsets (by decide) (stored z u r v) f (by
      intro s hs
      by_cases he : s = r
      · exact .inl (he ▸ ⟨hsel, hr.2⟩)
      · exact .inr (hquiet s hs he))
  refine ⟨u₁, f₁, hrun, hwin, ?_, hsh⟩
  rw [hdev, dispatched_mmio]
  refine (deliver_one hr.1 (by decide) hquiet _).trans ?_
  rw [hw, if_pos rfl, ← hi.shadow r hr.1, mirrorResult, if_neg hsel]
  by_cases hv : u.window r.offset = v
  · rw [if_pos hv.symm, if_neg (not_not.2 hv)]
    rfl
  · rw [if_neg (Ne.symm hv), if_pos hv]
    rfl

variable (ops notify) in
/-- The selector with a new value: only the selector is dispatched. -/
theorem poll_sel_new (hz : z.devSize = 0x200) {u : UioState (FabricBinding P)} (hi : MirrorInv u)
    {v : UInt32} (hv : u.window MmioReg.queueSel.offset ≠ v) (f : UioFabric) :
    ∃ u₁ f₁, (pollWriteRegisters z (bindingDevice ops notify) writeOffsets (stored z u .queueSel v)).run
        UioFabric.answer f = (.ok (u₁, true), f₁) ∧
      Scanned (stored z u .queueSel v) u₁ (mirrorResult u .queueSel v) := by
  have hword : (stored z u .queueSel v).window MmioReg.queueSel.offset = v := by
    simp [stored_word hz, queueStateOffsets]
  obtain ⟨u₁, f₁, hrun, hwin, hdev, hsh⟩ := poll_queueSel (binding_answers ops notify) hz (stored z u .queueSel v) f
    (by
      rw [hword]
      show v ≠ u.shadow .queueSel
      rw [← hi.shadow .queueSel (by decide)]
      exact Ne.symm hv)
    (by
      intro s hs h1 h2
      rw [stored_word hz]
      simp only [h1, h2, and_false, if_false]
      exact hi.shadow s hs)
  refine ⟨u₁, f₁, hrun, hwin, ?_, hsh⟩
  rw [hdev, hword, mirrorResult, if_pos hv]
  rfl

variable (ops notify) in
/-- The selector with the value it has: the scan sees the cleared queue words. -/
theorem poll_sel_same (hz : z.devSize = 0x200) {u : UioState (FabricBinding P)} (hi : MirrorInv u)
    {v : UInt32} (hv : u.window MmioReg.queueSel.offset = v) (f : UioFabric) :
    ∃ u₁ f₁, (pollWriteRegisters z (bindingDevice ops notify) writeOffsets (stored z u .queueSel v)).run
        UioFabric.answer f = (.ok (u₁, true), f₁) ∧
      Scanned (stored z u .queueSel v) u₁ (mirrorResult u .queueSel v) := by
  have hw : ∀ s : MmioReg, (stored z u .queueSel v).window s.offset =
      if s ∈ queueStateOffsets then 0 else u.window s.offset := by
    intro s
    rw [stored_word hz]
    by_cases h : s = .queueSel
    · simp [h, hv, queueStateOffsets]
    · simp [h]
  obtain ⟨u₁, f₁, hrun, hwin, hdev, hsh, -⟩ :=
    poll_plain (binding_answers ops notify) hz writeOffsets (by decide) (stored z u .queueSel v) f (by
      intro s hs
      by_cases h : s ∈ queueStateOffsets
      · exact .inl (by revert s; decide)
      · right
        rw [hw, if_neg h]
        exact hi.shadow s hs)
  refine ⟨u₁, f₁, hrun, hwin, ?_, hsh⟩
  rw [hdev, dispatched_mmio]
  refine (deliver_clear hi.shadow hw _).trans ?_
  rw [mirrorResult, if_neg (not_not.2 hv), if_pos rfl]
  rfl

theorem mirrorResult_status (hz : z.devSize = 0x200) {u : UioState (FabricBinding P)}
    (hi : MirrorInv u) (r : MmioReg) (v : UInt32) :
    (mirrorResult u r v).vdev.status = (stored z u r v).window MmioReg.status.offset := by
  have hnq : MmioReg.status ∉ queueStateOffsets := by decide
  rw [stored_word hz]
  simp only [hnq, and_false, if_false, mirrorResult]
  by_cases hs : MmioReg.status = r
  · subst hs
    rw [if_pos rfl]
    by_cases hv : u.window MmioReg.status.offset = v
    · simp [hv, hi.status]
    · simp [hv, writeReg_status]
  · rw [if_neg hs, ← hi.status]
    split
    · rw [writeReg_status, if_neg (Ne.symm hs)]
    · split
      · exact (clearSelected_keeps _ _).2
      · rfl

/-- The pass after a scan that brought the shadow up to date. -/
theorem uioPass_run (hz : z.devSize = 0x200) {u u₁ : UioState (FabricBinding P)} {f f₁ : UioFabric}
    (hpoll : (pollWriteRegisters z (bindingDevice ops notify) writeOffsets u).run UioFabric.answer f =
      (.ok (u₁, true), f₁)) (hsh : ∀ r ∈ writeOffsets, u₁.shadow r = u₁.window r.offset)
    (hst : u₁.dev.mmio.vdev.status = u₁.window MmioReg.status.offset) :
    ∃ u', (uioPass z (bindingDevice ops notify) u).run UioFabric.answer f = (.ok (u', true), f₁) ∧
      MirrorInv u' ∧ u'.dev = u₁.dev := by
  obtain ⟨u', hrun, hdev, hsh', hword⟩ := pass_run hz hpoll (by
    rw [← hst]
    exact status_read (ops u₁.dev.priv) u₁.dev.mmio)
  refine ⟨u', hrun, ⟨fun r hr => ?_, ?_⟩, hdev⟩
  · rw [hword r hr, ← hsh r hr, hsh']
  · rw [hword .status (by decide), hdev, hst]

variable (ops notify) in
/-- **One guest write** runs to its end and does `mirrorResult` to the device. -/
theorem guestWrite_run (hz : z.devSize = 0x200) {u : UioState (FabricBinding P)} (hi : MirrorInv u)
    {r : MmioReg} (hr : Mirrored r) (v : UInt32) (f : UioFabric) :
    ∃ u' f', (guestWrite z (bindingDevice ops notify) r v u).run UioFabric.answer f =
        (.ok (u', true), f') ∧ MirrorInv u' ∧ u'.dev.mmio = mirrorResult u r v := by
  obtain ⟨u₁, f₁, hrun, hwin, hdev, hsh⟩ : ∃ u₁ f₁,
      (pollWriteRegisters z (bindingDevice ops notify) writeOffsets (stored z u r v)).run
        UioFabric.answer f = (.ok (u₁, true), f₁) ∧ Scanned (stored z u r v) u₁ (mirrorResult u r v) := by
    by_cases hsel : r = .queueSel
    · subst hsel
      by_cases hv : u.window MmioReg.queueSel.offset = v
      · exact poll_sel_same ops notify hz hi hv f
      · exact poll_sel_new ops notify hz hi hv f
    · exact poll_other ops notify hz hi hr hsel v f
  obtain ⟨u', hpass, hinv, hd⟩ := uioPass_run hz hrun (by rw [hwin]; exact hsh) (by
    rw [hdev, hwin, mirrorResult_status hz hi])
  exact ⟨u', f₁, hpass, hinv, by rw [hd, hdev]⟩

/-! ## Runs -/

/-- The two devices are in the same state. -/
def MirrorState.Agree (s : MirrorState P) : Prop := s.uio.dev.mmio = s.direct

/-- When a write has the effect it has over the socket fabric: its word
changes; or it would not change the device; or it repeats the selector the
device has, and the zeros that are delivered for the queue words change
nothing. -/
def Delivered (u : UioState (FabricBinding P)) (r : MmioReg) (v : UInt32) : Prop :=
  u.window r.offset ≠ v ∨ (r ≠ .queueSel ∧ writeReg u.dev.mmio v r = u.dev.mmio) ∨
    (r = .queueSel ∧ u.dev.mmio.queueSel = v ∧ clearSelected u.window u.dev.mmio = u.dev.mmio)

theorem mirrorResult_eq_iff (u : UioState (FabricBinding P)) (r : MmioReg) (v : UInt32) :
    mirrorResult u r v = writeReg u.dev.mmio v r ↔ Delivered u r v := by
  unfold mirrorResult Delivered
  by_cases hv : u.window r.offset = v
  · by_cases hsel : r = .queueSel
    · subst hsel
      simp only [hv, ne_eq, not_true_eq_false, if_false, if_true, false_and, false_or, true_and]
      constructor
      · intro h
        have hq := congrArg VirtioMmio.queueSel h
        rw [(clearSelected_keeps _ _).1] at hq
        have hq : u.dev.mmio.queueSel = v := hq
        refine ⟨hq, h.trans ?_⟩
        rw [← hq]
        rfl
      · intro h
        rw [h.2, ← h.1]
        rfl
    · simp only [hv, ne_eq, not_true_eq_false, if_false, hsel, false_or, not_false_eq_true, true_and,
        false_and, or_false]
      exact eq_comm
  · simp [hv]

variable (ops notify) in
theorem uioStart_word (hz : z.devSize = 0x200) {b : FabricBinding P} (hb : b.mmio.vdev.status = 0)
    {r : MmioReg} (hr : r ∈ writeOffsets) :
    (uioStart z (bindingDevice ops notify) b fun _ => 0).window r.offset =
      if r = .queueNotify then uioNotifyIdle else 0 := by
  rw [uioStart, refresh_word hz]
  split
  · have he : r = .status := by revert r; decide
    rw [he]
    exact (status_read (ops b.priv) b.mmio).trans hb
  · simp only [UioState.setShadow, UioState.setWord]
    by_cases h : r = .queueNotify
    · rw [h, Window.set_self, if_pos rfl]
    · rw [Window.set_other (offset_ne h), if_neg h]

variable (ops notify) in
theorem uioStart_inv (hz : z.devSize = 0x200) {b : FabricBinding P} (hb : b.mmio.vdev.status = 0) :
    MirrorInv (uioStart z (bindingDevice ops notify) b fun _ => 0) ∧
      (uioStart z (bindingDevice ops notify) b fun _ => 0).dev = b := by
  refine ⟨⟨fun r hr => ?_, ?_⟩, rfl⟩
  · rw [uioStart_word ops notify hz hb hr]
    simp only [uioStart, refreshReadRegisters, UioState.setShadow, UioState.setWord]
    split
    · rfl
    · split <;> rfl
  · rw [uioStart_word ops notify hz hb (by decide)]
    exact hb

end

/-- **Mirroring against direct writes.** Start from a connected device and a
zero window. Every sequence of guest writes runs through, and the device
behind the window is in the state the same writes leave over the socket
fabric, after each of them, iff each of them is `Delivered`. -/
theorem mirror_agrees_iff (ops : P → VirtioDeviceOps)
    (notify : Device P → UInt32 → FabricM (Device P × Bool)) (z : UioSizes) (hz : z.devSize = 0x200)
    (vdev : VirtioDevice) (priv : P) (ws : List (MmioReg × UInt32)) (hws : ∀ x ∈ ws, Mirrored x.1)
    (s : MirrorState P)
    (hs : (mirrorLts z (bindingDevice ops notify) ⟨virtioMmioInit vdev, priv⟩).init s) :
    (∃ tr s', (mirrorLts z (bindingDevice ops notify) ⟨virtioMmioInit vdev, priv⟩).Trace s tr s' ∧
      tr.map Prod.snd = ws) ∧
    ∀ tr s', (mirrorLts z (bindingDevice ops notify) ⟨virtioMmioInit vdev, priv⟩).Trace s tr s' →
      (((∀ p ∈ tr, p.1.Agree) ∧ s'.Agree) ↔ ∀ p ∈ tr, Delivered p.1.uio p.2.1 p.2.2) := by
  obtain ⟨hinv, hdev⟩ := uioStart_inv ops notify hz (b := ⟨virtioMmioInit vdev, priv⟩) rfl
  rw [← hs.1] at hinv hdev
  -- a step is the write, on both sides
  have hstep : ∀ (s : MirrorState P) l s', MirrorInv s.uio →
      (mirrorLts z (bindingDevice ops notify) ⟨virtioMmioInit vdev, priv⟩).step s l s' →
      MirrorInv s'.uio ∧ s'.uio.dev.mmio = mirrorResult s.uio l.1 l.2 ∧
        s'.direct = writeReg s.direct l.2 l.1 := by
    intro s l s' hi h
    obtain ⟨hr, hrun, hd⟩ := h
    obtain ⟨u', f', hrun', hinv', hres⟩ := guestWrite_run ops notify hz hi hr l.2 s.fabric
    rw [hrun'] at hrun
    simp only [Prod.mk.injEq, Except.ok.injEq, and_true] at hrun
    obtain ⟨rfl, -⟩ := hrun
    exact ⟨hinv', hres, by rw [hd, virtioMmioWrite_reg]⟩
  constructor
  · clear hdev hs
    induction ws generalizing s with
    | nil => exact ⟨[], s, .nil s, rfl⟩
    | cons l ws ih =>
      have hr := hws l List.mem_cons_self
      obtain ⟨u', f', hrun, hinv', -⟩ := guestWrite_run ops notify hz hinv hr l.2 s.fabric
      obtain ⟨tr, s', ht, hl⟩ := ih (fun x hx => hws x (List.mem_cons_of_mem _ hx))
        ⟨u', f', virtioMmioWrite s.direct l.1.offset l.2.toUInt64⟩ hinv'
      exact ⟨(s, l) :: tr, s', .cons ⟨hr, hrun, rfl⟩ ht, by rw [List.map_cons, hl]⟩
  · intro tr s' ht
    refine LTS.Trace.all_iff (J := fun s => MirrorInv s.uio) (I := MirrorState.Agree)
      (C := fun s l => Delivered s.uio l.1 l.2) (fun s l s' hi h => (hstep s l s' hi h).1) ?_ ht hinv ?_
    · intro s l s' hi ha h
      obtain ⟨-, hres, hd⟩ := hstep s l s' hi h
      rw [MirrorState.Agree, hres, hd, ← ha, mirrorResult_eq_iff]
    · rw [MirrorState.Agree, hdev, hs.2]

/-- The writes one after the other. -/
def mirrorExec (z : UioSizes) (dev : FabricDevice (FabricBinding P)) :
    MirrorState P → List (MmioReg × UInt32) → Option (MirrorState P)
  | s, [] => some s
  | s, l :: ls =>
    match (guestWrite z dev l.1 l.2 s.uio).run UioFabric.answer s.fabric with
    | (.ok (u, true), f) =>
      mirrorExec z dev ⟨u, f, virtioMmioWrite s.direct l.1.offset l.2.toUInt64⟩ ls
    | _ => none

theorem mirrorExec_trace {z : UioSizes} {dev : FabricDevice (FabricBinding P)} {b : FabricBinding P}
    {ls : List (MmioReg × UInt32)} (hls : ∀ l ∈ ls, Mirrored l.1) {s s' : MirrorState P}
    (he : mirrorExec z dev s ls = some s') :
    ∃ tr, (mirrorLts z dev b).Trace s tr s' ∧ tr.map Prod.snd = ls := by
  induction ls generalizing s with
  | nil =>
    cases he
    exact ⟨[], .nil _, rfl⟩
  | cons l ls ih =>
    simp only [mirrorExec] at he
    split at he
    · rename_i u f hrun
      obtain ⟨tr, ht, hl⟩ := ih (fun x hx => hls x (List.mem_cons_of_mem _ hx)) he
      exact ⟨(s, l) :: tr, .cons ⟨hls l List.mem_cons_self, hrun, rfl⟩ ht, by rw [List.map_cons, hl]⟩
    · cases he

/-- The console device, connected, over a window of zeros. -/
def mirrorStart : MirrorState Unit where
  uio := uioStart pageSizes (condFabricInitDevice 1) condConnect fun _ => 0
  fabric := ⟨⟨fun _ => 0, fun _ => 0, false, []⟩, 0, 0, none⟩
  direct := condConnect.mmio

/-- Feature bits 0 and 32, negotiated bank by bank. -/
def bankWrites : List (MmioReg × UInt32) :=
  [(.driverFeaturesSel, 1), (.driverFeatures, 1), (.driverFeaturesSel, 0), (.driverFeatures, 1)]

/-- Both banks get the value 1; the second one is not seen. -/
theorem second_bank_lost :
    ∃ s tr s', (mirrorLts pageSizes (condFabricInitDevice 1) condConnect).init s ∧
      (mirrorLts pageSizes (condFabricInitDevice 1) condConnect).Trace s tr s' ∧
      tr.map Prod.snd = bankWrites ∧ (∀ x ∈ bankWrites, Mirrored x.1) ∧
      s'.uio.dev.mmio.vdev.driverFeatures = 0x100000000 ∧
      s'.direct.vdev.driverFeatures = 0x100000001 := by
  have hex : ∃ s', mirrorExec pageSizes (condFabricInitDevice 1) mirrorStart bankWrites = some s' ∧
      s'.uio.dev.mmio.vdev.driverFeatures = 0x100000000 ∧
      s'.direct.vdev.driverFeatures = 0x100000001 := ⟨_, rfl, by decide, by decide⟩
  obtain ⟨s', he, h1, h2⟩ := hex
  obtain ⟨tr, ht, hl⟩ := mirrorExec_trace (b := condConnect) (by decide) he
  exact ⟨mirrorStart, tr, s', ⟨rfl, rfl⟩, ht, hl, by decide, h1, h2⟩

/-- Status bits, two feature words that differ, and a queue. -/
def setupWrites : List (MmioReg × UInt32) :=
  [(.status, 1), (.status, 3), (.driverFeaturesSel, 1), (.driverFeatures, 1), (.driverFeaturesSel, 0),
    (.driverFeatures, 2), (.status, 11), (.queueSel, 1), (.queueNum, 8), (.queueReady, 1), (.status, 15)]

theorem mirror_agrees_iff_setup :
    ∃ tr s', (mirrorLts pageSizes (condFabricInitDevice 1) condConnect).Trace mirrorStart tr s' ∧
      tr.map Prod.snd = setupWrites ∧
      (((∀ p ∈ tr, p.1.Agree) ∧ s'.Agree) ↔ ∀ p ∈ tr, Delivered p.1.uio p.2.1 p.2.2) := by
  have h := mirror_agrees_iff (fun _ => condOps) (condVirtioNotifyQueue 1) pageSizes rfl condVirtioInit.vdev ()
    setupWrites (by decide) mirrorStart ⟨rfl, rfl⟩
  obtain ⟨⟨tr, s', ht, hl⟩, hiff⟩ := h
  exact ⟨tr, s', ht, hl, hiff tr s' ht⟩

end AcsVirt.L4
