import AcsVirt.L2Machine.LinuxUio

/-!
# Scans that ask for no service

A scan of the writable registers, run on a device that answers every register
but `QUEUE_NOTIFY` at once (`Answers`): the words that differ from the shadow are
dispatched in the order of the table, and the shadow becomes the window.
`poll_plain` is a scan in which the selector, the notify and the acknowledgement
have not changed, `poll_queueSel` one in which only the selector has, with the
queue words around it.
-/
namespace AcsVirt.L2

open MmioReg

variable {D : Type}

/-- The device takes a write of any register but the notify: `g` is what it does to it. -/
def Answers (dev : FabricDevice D) (g : D → MmioReg → UInt32 → D) : Prop :=
  ∀ d (r : MmioReg) (v : UInt32) (f : UioFabric), r ≠ .queueNotify →
    ∃ f', (dev.write d r.offset v.toUInt64 4).run UioFabric.answer f = (.ok (g d r v, true), f')

/-- What a scan of `rs` dispatches: the words that differ from the shadow. -/
def dispatched (g : D → MmioReg → UInt32 → D) (w : Window) (shadow : MmioReg → UInt32)
    (rs : List MmioReg) (d : D) : D :=
  rs.foldl (fun d r => if w r.offset = shadow r then d else g d r (w r.offset)) d

/-- Registers the scan treats like any other. -/
def Plain (r : MmioReg) : Prop := r ≠ .queueSel ∧ r ≠ .queueNotify ∧ r ≠ .interruptAck

instance (r : MmioReg) : Decidable (Plain r) := inferInstanceAs (Decidable (_ ∧ _))

section
variable {g : D → MmioReg → UInt32 → D}

theorem dispatched_congr {w : Window} {sh sh' : MmioReg → UInt32} {rs : List MmioReg} (d : D)
    (h : ∀ r ∈ rs, sh r = sh' r) : dispatched g w sh rs d = dispatched g w sh' rs d := by
  induction rs generalizing d with
  | nil => rfl
  | cons r rs ih =>
    simp only [dispatched, List.foldl_cons, h r List.mem_cons_self]
    exact ih _ fun s hs => h s (List.mem_cons_of_mem _ hs)

theorem dispatched_quiet {w : Window} {sh : MmioReg → UInt32} {rs : List MmioReg}
    (h : ∀ r ∈ rs, w r.offset = sh r) (d : D) : dispatched g w sh rs d = d := by
  induction rs generalizing d with
  | nil => rfl
  | cons r rs ih =>
    simp only [dispatched, List.foldl_cons, h r List.mem_cons_self, if_true]
    exact ih (fun s hs => h s (List.mem_cons_of_mem _ hs)) d

variable {dev : FabricDevice D} {z : UioSizes} (hg : Answers dev g) (hz : z.devSize = 0x200)

include hz

theorem scan_same {r : MmioReg} {u : UioState D} (h : u.window r.offset = u.shadow r)
    (f : UioFabric) :
    (scanRegister z dev r u).run UioFabric.answer f = (.ok (u, true), f) := by
  have hex : examine z r u = (u, none) := by simp [examine, changed, (fits_offset hz r).2, h]
  rw [scanRegister, hex]
  rfl

include hg

/-- A register that has changed. -/
theorem scan_changed {r : MmioReg} {u : UioState D} (hr : r ≠ .queueNotify)
    (h : u.window r.offset ≠ u.shadow r) (f : UioFabric) :
    ∃ f', (scanRegister z dev r u).run UioFabric.answer f =
      (.ok (settle z r { u.setShadow r (u.window r.offset) with dev := g u.dev r (u.window r.offset) }, true), f') := by
  have hex : examine z r u = (u.setShadow r (u.window r.offset), some (u.window r.offset)) := by
    simp [examine, changed, consume, (fits_offset hz r).2, h, hr]
  obtain ⟨f', hwrite⟩ := hg u.dev r (u.window r.offset) f hr
  refine ⟨f', ?_⟩
  rw [scanRegister, hex]
  exact Prog.run_bind_ok hwrite

/-- A scan of registers that are plain or have not changed. -/
theorem poll_plain (rs : List MmioReg) (hn : rs.Nodup) (u : UioState D) (f : UioFabric)
    (hp : ∀ r ∈ rs, Plain r ∨ u.window r.offset = u.shadow r) :
    ∃ u' f', (pollWriteRegisters z dev rs u).run UioFabric.answer f = (.ok (u', true), f') ∧
      u'.window = u.window ∧ u'.dev = dispatched g u.window u.shadow rs u.dev ∧
      (∀ r ∈ rs, u'.shadow r = u.window r.offset) ∧ ∀ r, r ∉ rs → u'.shadow r = u.shadow r := by
  induction rs generalizing u f with
  | nil => exact ⟨u, f, rfl, rfl, rfl, by simp, fun _ _ => rfl⟩
  | cons r rs ih =>
    obtain ⟨hnr, hn⟩ := List.nodup_cons.1 hn
    by_cases heq : u.window r.offset = u.shadow r
    · obtain ⟨u', f', hrun, hw, hd, hs, hs'⟩ := ih hn u f fun s hs => hp s (List.mem_cons_of_mem _ hs)
      refine ⟨u', f', (Prog.run_bind_ok (scan_same hz heq f)).trans hrun, hw, ?_, ?_, ?_⟩
      · rw [hd]
        simp only [dispatched, List.foldl_cons, heq, if_true]
      · intro s hmem
        rcases List.mem_cons.1 hmem with rfl | hmem
        · rw [hs' s hnr, heq]
        · exact hs s hmem
      · intro s hmem
        exact hs' s fun h => hmem (List.mem_cons_of_mem _ h)
    · obtain ⟨hsel, hnot, hack⟩ := (hp r List.mem_cons_self).resolve_right heq
      obtain ⟨f₁, hscan⟩ := scan_changed hg hz hnot heq f
      rw [settle, if_neg hsel, if_neg hack] at hscan
      generalize hu₁ : ({ u.setShadow r (u.window r.offset) with dev := g u.dev r (u.window r.offset) } :
        UioState D) = u₁ at hscan
      have hsh : ∀ s, s ≠ r → u₁.shadow s = u.shadow s := by
        intro s hs
        rw [← hu₁]
        exact if_neg hs
      have hwin : u₁.window = u.window := by rw [← hu₁]; rfl
      have hsh_r : u₁.shadow r = u.window r.offset := by
        rw [← hu₁]
        exact if_pos rfl
      have hne : ∀ s ∈ rs, s ≠ r := fun s hs e => hnr (e ▸ hs)
      obtain ⟨u', f', hrun, hw, hd, hs, hs'⟩ := ih hn u₁ f₁ (by
        intro s hs
        rw [hwin, hsh s (hne s hs)]
        exact hp s (List.mem_cons_of_mem _ hs))
      refine ⟨u', f', (Prog.run_bind_ok hscan).trans hrun, hw.trans hwin, ?_, ?_, ?_⟩
      · rw [hd, hwin, dispatched_congr _ fun s hs => hsh s (hne s hs), ← hu₁]
        simp only [dispatched, List.foldl_cons, heq, if_false]
      · intro s hmem
        rcases List.mem_cons.1 hmem with rfl | hmem
        · rw [hs' s hnr, hsh_r]
        · rw [hs s hmem, hwin]
      · intro s hmem
        rw [hs' s fun h => hmem (List.mem_cons_of_mem _ h),
          hsh s fun e => hmem (e ▸ List.mem_cons_self)]

variable (dev) in
omit hg in
theorem poll_quiet (rs : List MmioReg) (u : UioState D) (f : UioFabric)
    (hq : ∀ r ∈ rs, u.window r.offset = u.shadow r) :
    (pollWriteRegisters z dev rs u).run UioFabric.answer f = (.ok (u, true), f) := by
  induction rs with
  | nil => rfl
  | cons r rs ih =>
    exact (Prog.run_bind_ok (scan_same hz (hq r List.mem_cons_self) f)).trans
      (ih fun s hs => hq s (List.mem_cons_of_mem _ hs))

omit hg hz in
/-- A scan in two parts. -/
theorem poll_append {xs ys : List MmioReg} {u u' : UioState D} {f f' : UioFabric}
    (h : (pollWriteRegisters z dev xs u).run UioFabric.answer f = (.ok (u', true), f')) :
    (pollWriteRegisters z dev (xs ++ ys) u).run UioFabric.answer f =
      (pollWriteRegisters z dev ys u').run UioFabric.answer f' := by
  have heq : ∀ u, pollWriteRegisters z dev (xs ++ ys) u =
      (pollWriteRegisters z dev xs u >>= fun p =>
        if p.2 then pollWriteRegisters z dev ys p.1 else pure (p.1, false)) := by
    clear h
    induction xs with
    | nil => intro u; rfl
    | cons x xs ih =>
      intro u
      simp only [List.cons_append, pollWriteRegisters, Prog.bind_assoc]
      congr 1
      funext p
      obtain ⟨u, ok⟩ := p
      cases ok with
      | true => exact ih u
      | false => rfl
  rw [heq, Prog.run_bind_ok h]
  rfl

/-- The selector changes: the queue words are taken over into the shadow. -/
theorem poll_queueSel (u : UioState D) (f : UioFabric)
    (hsel : u.window MmioReg.queueSel.offset ≠ u.shadow .queueSel)
    (hq : ∀ r ∈ writeOffsets, r ≠ .queueSel → r ∉ queueStateOffsets → u.window r.offset = u.shadow r) :
    ∃ u' f', (pollWriteRegisters z dev writeOffsets u).run UioFabric.answer f = (.ok (u', true), f') ∧
      u'.window = u.window ∧ u'.dev = g u.dev .queueSel (u.window MmioReg.queueSel.offset) ∧
      ∀ r ∈ writeOffsets, u'.shadow r = u.window r.offset := by
  have hsplit : writeOffsets = writeOffsets.take 3 ++ MmioReg.queueSel :: writeOffsets.drop 4 := rfl
  have hpre := poll_quiet dev hz (writeOffsets.take 3) u f (by
    intro r hr
    exact hq r (List.mem_of_mem_take hr) (by revert r; decide) (by revert r; decide))
  obtain ⟨f₁, hscan⟩ := scan_changed hg hz (r := .queueSel) (by decide) hsel f
  rw [settle, if_pos rfl] at hscan
  generalize hu₁ : syncQueueState z { u.setShadow .queueSel (u.window MmioReg.queueSel.offset) with
    dev := g u.dev .queueSel (u.window MmioReg.queueSel.offset) } = u₁ at hscan
  have hwin : u₁.window = u.window := by rw [← hu₁]; rfl
  have hsh : ∀ r ∈ writeOffsets, u₁.shadow r = u.window r.offset := by
    intro r hr
    rw [← hu₁]
    simp only [syncQueueState, UioState.setShadow, (fits_offset hz r).2, and_true]
    by_cases h1 : r ∈ queueStateOffsets
    · rw [if_pos h1]
    · rw [if_neg h1]
      by_cases h2 : r = .queueSel
      · rw [if_pos h2, h2]
      · rw [if_neg h2, hq r hr h2 h1]
  have hrest := poll_quiet dev hz (writeOffsets.drop 4) u₁ f₁ (by
    intro r hr
    rw [hwin, hsh r (List.mem_of_mem_drop hr)])
  refine ⟨u₁, f₁, ?_, hwin, by rw [← hu₁]; rfl, hsh⟩
  rw [hsplit, poll_append hpre]
  exact (Prog.run_bind_ok hscan).trans hrest

omit hg in
/-- A pass ends as its scan has ended, if the status word is the one to be published. -/
theorem pass_run {u u₁ : UioState D} {f f₁ : UioFabric}
    (hpoll : (pollWriteRegisters z dev writeOffsets u).run UioFabric.answer f = (.ok (u₁, true), f₁))
    (hst : (dev.read u₁.dev MmioReg.status.offset 4).toUInt32 = u₁.window MmioReg.status.offset) :
    ∃ u', (uioPass z dev u).run UioFabric.answer f = (.ok (u', true), f₁) ∧ u'.dev = u₁.dev ∧
      u'.shadow = u₁.shadow ∧ ∀ r ∈ writeOffsets, u'.window r.offset = u₁.window r.offset := by
  refine ⟨_, (Prog.run_bind_ok hpoll).trans rfl, rfl, rfl, fun r hr => ?_⟩
  rw [refresh_word hz]
  split
  · have he : r = .status := by revert r; decide
    rw [he, hst]
  · rfl

end

end AcsVirt.L2
