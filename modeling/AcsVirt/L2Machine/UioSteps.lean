import Mathlib.Logic.Relation
import AcsVirt.L2Machine.UioScan

/-!
# The UIO daemon, one access at a time

`uioPass` is a pass of the service loop that nobody disturbs. The frontend
stores into the window whenever it likes, also between two loads of one scan;
`UioMachine.step` is the same loop stopped after every load and every store of
a word of the window. What the daemon does to itself in between (compare with
the shadow, call the device) goes with the access before it.

A pass without a store of the frontend's in it is `uioPass` (`pass_alone`).
-/
namespace AcsVirt.L2

open MmioReg

/-- Where the daemon stands between two accesses to the window.
mirrors src/fabrics/linux_uio.c:306-329,359-418,551-558 -/
inductive UioPc where
  /-- In front of `wait_for_uio_interrupt`. -/
  | idle
  /-- In `poll_write_registers`, in front of the load of the first of `rest`. -/
  | scan (rest : List MmioReg)
  /-- `QUEUE_NOTIFY` was found to be `value`; in front of the store that empties it. -/
  | consume (value : UInt32) (rest : List MmioReg)
  /-- `QUEUE_SEL` was delivered; the shadows of `queue` are still to be loaded. -/
  | reload (queue rest : List MmioReg)
  /-- `INTERRUPT_ACK` was delivered; in front of the store that clears it. -/
  | ack (rest : List MmioReg)
  /-- In `refresh_read_registers`, in front of the store of the first of `offs`. -/
  | publish (offs : List UInt64)
  deriving DecidableEq, Repr

variable {D : Type}

structure UioMachine (D : Type) where
  uio : UioState D
  fabric : UioFabric
  pc : UioPc

/-- The device is called; a daemon whose device fails does not go on. -/
def UioMachine.dispatch (dev : FabricDevice D) (s : UioMachine D) (r : MmioReg) (value : UInt32)
    (next : UioPc) :
    Option (UioMachine D) :=
  match (dev.write s.uio.dev r.offset value.toUInt64 4).run UioFabric.answer s.fabric with
  | (.ok (d, true), f) => some { uio := { s.uio with dev := d }, fabric := f, pc := next }
  | _ => none

/-- Where the scan goes on after the dispatch of `r`.
mirrors src/fabrics/linux_uio.c:396-415 -/
def afterDispatch (r : MmioReg) (rest : List MmioReg) : UioPc :=
  if r = .queueSel then .reload queueStateOffsets rest
  else if r = .interruptAck then .ack rest
  else .scan rest

/-- mirrors src/fabrics/linux_uio.c:315-322,324-328 -/
def publishWord (z : UioSizes) (dev : FabricDevice D) (off : UInt64) (u : UioState D) :
    UioState D :=
  if z.fits off then { u with window := u.window.set off (dev.read u.dev off 4).toUInt32 } else u

/-- mirrors src/fabrics/linux_uio.c:404-408 -/
def reloadWord (z : UioSizes) (q : MmioReg) (u : UioState D) : UioState D :=
  if z.fits q.offset then u.setShadow q (u.window q.offset) else u

/-- Up to the next access. -/
def UioMachine.step (z : UioSizes) (dev : FabricDevice D) (s : UioMachine D) :
    Option (UioMachine D) :=
  match s.pc with
  | .idle => some { s with pc := .scan writeOffsets }
  | .scan [] => some { s with pc := .publish (readRegisters.map offset ++ configOffsets z) }
  | .scan (r :: rest) =>
    match changed z r s.uio with
    | none => some { s with pc := .scan rest }
    | some value =>
      if r = .queueNotify then some { s with pc := .consume value rest }
      else dispatch dev { s with uio := s.uio.setShadow r value } r value (afterDispatch r rest)
  | .consume value rest =>
    dispatch dev { s with uio := consume .queueNotify value s.uio } .queueNotify value (.scan rest)
  | .reload [] rest => some { s with pc := .scan rest }
  | .reload (q :: qs) rest => some { s with uio := reloadWord z q s.uio, pc := .reload qs rest }
  | .ack rest => some { s with
      uio := (s.uio.setWord .interruptAck 0).setShadow .interruptAck 0
      pc := .scan rest }
  | .publish [] => some { s with pc := .idle }
  | .publish (off :: offs) => some { s with uio := publishWord z dev off s.uio, pc := .publish offs }

/-! ## A pass on its own -/

/-- Steps of one pass, with nothing in between. -/
def Alone (z : UioSizes) (dev : FabricDevice D) : UioMachine D → UioMachine D → Prop :=
  Relation.ReflTransGen fun s s' => s.pc ≠ .idle ∧ s.step z dev = some s'

section
variable {z : UioSizes} {dev : FabricDevice D}

theorem publish_alone (u : UioState D) (f : UioFabric) (offs : List UInt64) :
    Alone z dev ⟨u, f, .publish offs⟩
      ⟨⟨offs.foldl (fun w off => if z.fits off then w.set off (dev.read u.dev off 4).toUInt32 else w) u.window,
        u.shadow, u.dev⟩, f, .idle⟩ := by
  induction offs generalizing u with
  | nil => exact .single ⟨nofun, rfl⟩
  | cons off offs ih =>
    have hword : publishWord z dev off u =
        ⟨if z.fits off then u.window.set off (dev.read u.dev off 4).toUInt32 else u.window, u.shadow, u.dev⟩ := by
      unfold publishWord
      split <;> rfl
    refine .head (b := ⟨publishWord z dev off u, f, .publish offs⟩) ⟨nofun, rfl⟩ ?_
    rw [hword]
    exact ih _

/-- The reloads one after the other, and at once. -/
theorem reloadWord_shadow (u : UioState D) (qs : List MmioReg) :
    qs.foldl (fun u q => reloadWord z q u) u =
      ⟨u.window, fun s => if s ∈ qs ∧ z.fits s.offset then u.window s.offset else u.shadow s, u.dev⟩ := by
  induction qs generalizing u with
  | nil => simp
  | cons q qs ih =>
    rw [List.foldl_cons, ih]
    unfold reloadWord
    split
    next hfit =>
      simp only [UioState.setShadow, UioState.mk.injEq, true_and, and_true]
      funext s
      by_cases hs : s = q
      · simp [hs, hfit]
      · simp [hs]
    next hfit =>
      simp only [UioState.mk.injEq, true_and, and_true]
      funext s
      by_cases hs : s = q
      · simp [hs, hfit]
      · simp [hs]

theorem reload_alone (u : UioState D) (f : UioFabric) (qs rest : List MmioReg) :
    Alone z dev ⟨u, f, .reload qs rest⟩ ⟨qs.foldl (fun u q => reloadWord z q u) u, f, .scan rest⟩ := by
  induction qs generalizing u with
  | nil => exact .single ⟨nofun, rfl⟩
  | cons q qs ih =>
    refine .head (b := ⟨reloadWord z q u, f, .reload qs rest⟩) ⟨nofun, rfl⟩ ?_
    exact ih _

theorem settle_alone (u : UioState D) (f : UioFabric) (r : MmioReg) (rest : List MmioReg) :
    Alone z dev ⟨u, f, afterDispatch r rest⟩ ⟨settle z r u, f, .scan rest⟩ := by
  unfold afterDispatch settle
  split
  · have h : Alone z dev ⟨u, f, .reload queueStateOffsets rest⟩ _ := reload_alone u f queueStateOffsets rest
    rwa [reloadWord_shadow] at h
  · split
    next hr =>
      subst hr
      exact .single ⟨nofun, rfl⟩
    next => exact .refl

theorem dispatch_some {s : UioMachine D} {r : MmioReg} {value : UInt32} {d : D} {f : UioFabric}
    (h : (dev.write s.uio.dev r.offset value.toUInt64 4).run UioFabric.answer s.fabric = (.ok (d, true), f))
    (next : UioPc) :
    s.dispatch dev r value next = some { uio := { s.uio with dev := d }, fabric := f, pc := next } := by
  rw [UioMachine.dispatch, h]

theorem scan_alone {u u' : UioState D} {f f' : UioFabric} {r : MmioReg}
    (h : (scanRegister z dev r u).run UioFabric.answer f = (.ok (u', true), f'))
    (rest : List MmioReg) :
    Alone z dev ⟨u, f, .scan (r :: rest)⟩ ⟨u', f', .scan rest⟩ := by
  unfold scanRegister examine at h
  cases hc : changed z r u with
  | none =>
    simp only [hc] at h
    cases h
    exact .single ⟨nofun, by simp only [UioMachine.step, hc]⟩
  | some value =>
    simp only [hc] at h
    rw [Prog.run_bind] at h
    split at h
    next a f₁ hw =>
      obtain ⟨d, ok⟩ := a
      cases ok with
      | false => cases h
      | true =>
        cases h
        by_cases hr : r = .queueNotify
        · -- the word is emptied before the device is called
          subst hr
          have hload : UioMachine.step z dev ⟨u, f, .scan (.queueNotify :: rest)⟩ = some ⟨u, f, .consume value rest⟩ := by
            simp only [UioMachine.step, hc, if_true]
          exact .head ⟨nofun, hload⟩ (.single ⟨nofun, dispatch_some hw _⟩)
        · have hcons : consume r value u = u.setShadow r value := if_neg hr
          rw [hcons] at hw ⊢
          refine .head ⟨nofun, ?_⟩ (settle_alone _ f' r rest)
          simp only [UioMachine.step, hc, if_neg hr]
          exact dispatch_some hw _
    next => cases h

theorem poll_alone {u u' : UioState D} {f f' : UioFabric} (rs : List MmioReg)
    (h : (pollWriteRegisters z dev rs u).run UioFabric.answer f = (.ok (u', true), f')) :
    Alone z dev ⟨u, f, .scan rs⟩ ⟨u', f', .scan []⟩ := by
  induction rs generalizing u f with
  | nil =>
    cases h
    exact .refl
  | cons r rs ih =>
    rw [pollWriteRegisters, Prog.run_bind] at h
    split at h
    next a f₁ hscan =>
      obtain ⟨u₁, ok⟩ := a
      cases ok with
      | false => cases h
      | true => exact (scan_alone hscan rs).trans (ih h)
    next => cases h

/-- **A pass nobody disturbs is `uioPass`.** -/
theorem pass_alone {u u' : UioState D} {f f' : UioFabric}
    (h : (uioPass z dev u).run UioFabric.answer f = (.ok (u', true), f')) :
    Alone z dev ⟨u, f, .scan writeOffsets⟩ ⟨u', f', .idle⟩ := by
  rw [uioPass, Prog.run_bind] at h
  split at h
  next a f₁ hpoll =>
    obtain ⟨u₁, ok⟩ := a
    cases ok with
    | false => cases h
    | true =>
      cases h
      have hscan : Alone z dev ⟨u, f, .scan writeOffsets⟩ ⟨u₁, f', .scan []⟩ := poll_alone _ hpoll
      exact (hscan.tail ⟨nofun, rfl⟩).trans (publish_alone u₁ f' _)
  next => cases h

end

/-! ## Passes without a kick -/

/-- The shadow has the word: a scan finds nothing there. -/
def Shadowed (u : UioState D) (r : MmioReg) : Prop := u.window r.offset = u.shadow r

instance (u : UioState D) (r : MmioReg) : Decidable (Shadowed u r) := inferInstanceAs (Decidable (_ = _))

theorem setWord_window (u : UioState D) (r q : MmioReg) (v : UInt32) :
    (u.setWord r v).window q.offset = if q = r then v else u.window q.offset := by
  by_cases hq : q = r
  · rw [if_pos hq, hq]
    exact Window.set_self _ _ _
  · rw [if_neg hq]
    exact Window.set_other (offset_ne hq) _

theorem shadowed_setWord {u : UioState D} {r q : MmioReg} (h : q ≠ r) (v : UInt32) :
    Shadowed (u.setWord r v) q ↔ Shadowed u q := by
  unfold Shadowed
  rw [setWord_window, if_neg h]
  rfl

/-- The daemon takes over the shadow of `r`. -/
theorem shadowed_setShadow (u : UioState D) (d : D) (r q : MmioReg) :
    Shadowed { u.setShadow r (u.window r.offset) with dev := d } q ↔ q = r ∨ Shadowed u q := by
  show u.window q.offset = (if q = r then u.window r.offset else u.shadow q) ↔ _
  by_cases hq : q = r
  · simp [hq]
  · simp [hq, Shadowed]

namespace UioPc

/-- The registers this pass has still to look at. -/
def ahead : UioPc → List MmioReg
  | .scan rest | .consume _ rest | .reload _ rest | .ack rest => rest
  | .idle | .publish _ => []

def reloading : UioPc → List MmioReg
  | .reload queue _ => queue
  | _ => []

/-- This pass has looked at `r`, and not yet at all of `rs`. -/
def Midway (r : MmioReg) (rs : List MmioReg) (pc : UioPc) : Prop := r ∉ pc.ahead ∧ ∃ q ∈ rs, q ∈ pc.ahead

/-- Between `QUEUE_SEL` and the last register of the queue. -/
def InQueueScan (pc : UioPc) : Prop := pc.Midway .queueSel queueStateOffsets

/-- Between `DRIVER_FEATURES` and the selector, which comes after it. -/
def InFeatureScan (pc : UioPc) : Prop := pc.Midway .driverFeatures [.driverFeaturesSel]

/-- This pass has looked at `STATUS`, and not yet stored it back. -/
def StatusTaken : UioPc → Prop
  | .idle => False
  | .publish offs => MmioReg.status.offset ∈ offs
  | .scan rest | .consume _ rest | .reload _ rest | .ack rest => .status ∉ rest

instance : (pc : UioPc) → Decidable pc.StatusTaken
  | .idle => inferInstanceAs (Decidable False)
  | .publish offs => inferInstanceAs (Decidable (_ ∈ offs))
  | .scan rest | .consume _ rest | .reload _ rest | .ack rest => inferInstanceAs (Decidable (_ ∉ rest))

/-- Where the daemon comes while `QUEUE_NOTIFY` and `INTERRUPT_ACK` rest. -/
def Calm (z : UioSizes) : UioPc → Prop
  | .idle => True
  | .scan rest => rest <:+ writeOffsets
  | .reload queue rest => queue <:+ queueStateOffsets ∧ rest = writeOffsets.drop 4
  | .publish offs => offs <:+ readRegisters.map offset ++ configOffsets z
  | .consume _ _ | .ack _ => False

end UioPc

theorem afterDispatch_ahead (r : MmioReg) (rest : List MmioReg) :
    (afterDispatch r rest).ahead = rest := by
  unfold afterDispatch
  split
  · rfl
  · split <;> rfl

theorem afterDispatch_statusTaken (r : MmioReg) (rest : List MmioReg) :
    (afterDispatch r rest).StatusTaken ↔ .status ∉ rest := by
  unfold afterDispatch
  split
  · rfl
  · split <;> rfl

/-- A step that neither delivers a register nor takes over a shadow. -/
structure QuietStep (s s' : UioMachine D) : Prop where
  window : ∀ r ∈ writeOffsets, s'.uio.window r.offset = s.uio.window r.offset
  shadow : s'.uio.shadow = s.uio.shadow
  dev : s'.uio.dev = s.uio.dev
  reloading : s'.pc.reloading = s.pc.reloading
  midway : ∀ r ∈ writeOffsets, ∀ rs, s'.pc.Midway r rs → s.pc.Midway r rs ∨ Shadowed s.uio r
  status : s'.pc.StatusTaken → s.pc.StatusTaken ∨ Shadowed s.uio .status
  ahead : ∀ r ∈ writeOffsets, r ∉ s'.pc.ahead → r ∉ s.pc.ahead ∨ Shadowed s.uio r
  woken : s.pc = .idle → ∀ r ∈ writeOffsets, r ∈ s'.pc.ahead

/-- The steps of such passes; `g` is what the device does. -/
inductive CalmStep (g : D → MmioReg → UInt32 → D) (s : UioMachine D) : UioMachine D → Prop
  | quiet {s' : UioMachine D} : QuietStep s s' → CalmStep g s s'
  | dispatch {r : MmioReg} {rest : List MmioReg} (f : UioFabric) : s.pc = .scan (r :: rest) →
      r ≠ .queueNotify → r ≠ .interruptAck → ¬ Shadowed s.uio r →
      CalmStep g s ⟨{ s.uio.setShadow r (s.uio.window r.offset) with
        dev := g s.uio.dev r (s.uio.window r.offset) }, f, afterDispatch r rest⟩
  | reload {q : MmioReg} {qs rest : List MmioReg} : s.pc = .reload (q :: qs) rest →
      CalmStep g s { s with uio := s.uio.setShadow q (s.uio.window q.offset), pc := .reload qs rest }

section
variable {z : UioSizes} {dev : FabricDevice D} {g : D → MmioReg → UInt32 → D} {s s' : UioMachine D}

theorem QuietStep.shadowed (h : QuietStep s s') {r : MmioReg} (hr : r ∈ writeOffsets) :
    Shadowed s'.uio r ↔ Shadowed s.uio r := by
  unfold Shadowed
  rw [h.window r hr, h.shadow]

/-- A step that is all in the daemon's place. -/
theorem QuietStep.move {pc : UioPc} (hr : pc.reloading = s.pc.reloading)
    (hm : ∀ r ∈ writeOffsets, ∀ rs, pc.Midway r rs → s.pc.Midway r rs ∨ Shadowed s.uio r)
    (hs : pc.StatusTaken → s.pc.StatusTaken ∨ Shadowed s.uio .status)
    (ha : ∀ r ∈ writeOffsets, r ∉ pc.ahead → r ∉ s.pc.ahead ∨ Shadowed s.uio r) (hi : s.pc ≠ .idle) :
    QuietStep s { s with pc := pc } :=
  ⟨fun _ _ => rfl, rfl, rfl, hr, hm, hs, ha, fun h => absurd h hi⟩

theorem QuietStep.wake (h : s.pc = .idle) : QuietStep s { s with pc := .scan writeOffsets } := by
  have hs : ¬ (UioPc.scan writeOffsets).StatusTaken := by decide
  exact ⟨fun _ _ => rfl, rfl, rfl, by rw [h]; rfl, fun _ hr _ hm => absurd hr hm.1, fun h => absurd h hs,
    fun _ hr hn => absurd hr hn, fun _ _ hr => hr⟩

theorem QuietStep.skip {r : MmioReg} {rest : List MmioReg} (h : s.pc = .scan (r :: rest))
    (hr : Shadowed s.uio r) :
    QuietStep s { s with pc := .scan rest } := by
  refine .move (by rw [h]; rfl) ?_ ?_ ?_ (by rw [h]; nofun)
  · rintro r' - rs ⟨hn, q, hq, hmem⟩
    by_cases hrs : r' = r
    · exact .inr (hrs ▸ hr)
    · rw [h]
      exact .inl ⟨List.not_mem_cons_of_ne_of_not_mem hrs hn, q, hq, List.mem_cons_of_mem _ hmem⟩
  · intro hst
    by_cases hrs : .status = r
    · exact .inr (hrs ▸ hr)
    · rw [h]
      exact .inl (List.not_mem_cons_of_ne_of_not_mem hrs hst)
  · intro q _ hn
    by_cases hqr : q = r
    · exact .inr (hqr ▸ hr)
    · rw [h]
      exact .inl (List.not_mem_cons_of_ne_of_not_mem hqr hn)

theorem QuietStep.scanned (h : s.pc = .scan []) (offs : List UInt64) :
    QuietStep s { s with pc := .publish offs } := by
  refine .move (by rw [h]; rfl) (fun _ _ _ ⟨_, _, _, hmem⟩ => absurd hmem List.not_mem_nil) (fun _ => .inl ?_)
    (fun _ _ _ => .inl ?_) (by rw [h]; nofun)
  · rw [h]
    exact List.not_mem_nil
  · rw [h]
    exact List.not_mem_nil

theorem QuietStep.reloaded {rest : List MmioReg} (h : s.pc = .reload [] rest) :
    QuietStep s { s with pc := .scan rest } :=
  .move (by rw [h]; rfl) (fun _ _ _ hm => .inl (by rw [h]; exact hm)) (fun hs => .inl (by rw [h]; exact hs))
    (fun _ _ hn => .inl (by rw [h]; exact hn)) (by rw [h]; nofun)

theorem QuietStep.published (h : s.pc = .publish []) : QuietStep s { s with pc := .idle } :=
  .move (by rw [h]; rfl) (fun _ _ _ ⟨_, _, _, hmem⟩ => absurd hmem List.not_mem_nil) False.elim
    (fun _ _ hn => .inl (by rw [h]; exact hn)) (by rw [h]; nofun)

/-- Among the writable registers only `STATUS` is published. -/
theorem published_status (hz : z.devSize = 0x200) {r : MmioReg} (hr : r ∈ writeOffsets)
    (h : r.offset ∈ readRegisters.map offset ++ configOffsets z) : r = .status := by
  have hboth : ∀ r ∈ readRegisters, r ∈ writeOffsets → r = .status := by decide
  rcases List.mem_append.1 h with h | h
  · obtain ⟨q, hq, he⟩ := List.mem_map.1 h
    exact hboth r (offset_inj he ▸ hq) hr
  · exact absurd h (offset_not_config hz r)

theorem QuietStep.publish (hz : z.devSize = 0x200) {off : UInt64} {offs : List UInt64}
    (h : s.pc = .publish (off :: offs)) (hpc : s.pc.Calm z)
    (hstatus : s.pc.StatusTaken →
      (dev.read s.uio.dev MmioReg.status.offset 4).toUInt32 = s.uio.window MmioReg.status.offset) :
    QuietStep s { s with uio := publishWord z dev off s.uio, pc := .publish offs } := by
  rw [h] at hpc hstatus
  have hmem : off ∈ readRegisters.map offset ++ configOffsets z := List.IsSuffix.mem List.mem_cons_self hpc
  have hword : ∀ r ∈ writeOffsets, (publishWord z dev off s.uio).window r.offset = s.uio.window r.offset := by
    intro r hr
    unfold publishWord
    split
    · by_cases hoff : r.offset = off
      · subst hoff
        obtain rfl := published_status hz hr hmem
        dsimp only
        rw [Window.set_self, hstatus List.mem_cons_self]
      · exact Window.set_other hoff _
    · rfl
  have hsame : (publishWord z dev off s.uio).shadow = s.uio.shadow ∧ (publishWord z dev off s.uio).dev = s.uio.dev := by
    unfold publishWord
    split <;> exact ⟨rfl, rfl⟩
  refine ⟨hword, hsame.1, hsame.2, by rw [h]; rfl, fun _ _ _ ⟨_, _, _, hm⟩ => absurd hm List.not_mem_nil,
    fun hs => .inl ?_, fun _ _ hn => .inl ?_, fun hi => absurd (h.symm.trans hi) nofun⟩
  · rw [h]
    exact List.mem_cons_of_mem _ hs
  · rw [h]
    exact hn

/-- The queue registers follow `QUEUE_SEL` in the scan. -/
theorem rest_queueSel {rest : List MmioReg} (h : .queueSel :: rest <:+ writeOffsets) :
    rest = writeOffsets.drop 4 := by
  have hat : ∀ n ≤ writeOffsets.length, (writeOffsets.drop n).head? = some .queueSel →
      (writeOffsets.drop n).tail = writeOffsets.drop 4 := by decide
  have hdrop := List.suffix_iff_eq_drop.1 h
  have := hat _ (Nat.sub_le _ _) (by rw [← hdrop]; rfl)
  rwa [← hdrop] at this

/-- What a step can do while nobody kicks and nobody acknowledges. -/
theorem step_calm (hg : Answers dev g) (hz : z.devSize = 0x200) (hpc : s.pc.Calm z)
    (hnotify : Shadowed s.uio .queueNotify) (hack : Shadowed s.uio .interruptAck)
    (hstatus : s.pc.StatusTaken →
      (dev.read s.uio.dev MmioReg.status.offset 4).toUInt32 = s.uio.window MmioReg.status.offset)
    (h : s.step z dev = some s') : CalmStep g s s' ∧ s'.pc.Calm z := by
  unfold UioMachine.step at h
  split at h
  next hp =>
    cases h
    exact ⟨.quiet (.wake hp), List.suffix_rfl⟩
  next hp =>
    cases h
    exact ⟨.quiet (.scanned hp _), List.suffix_rfl⟩
  next r rest hp =>
    rw [hp] at hpc
    have hchanged : changed z r s.uio = if Shadowed s.uio r then none else some (s.uio.window r.offset) :=
      changed_eq hz r s.uio
    rw [hchanged] at h
    split at h
    next hc =>
      cases h
      refine ⟨.quiet (.skip hp ?_), (List.suffix_cons r rest).trans hpc⟩
      exact Decidable.byContradiction fun hn => by rw [if_neg hn] at hc; cases hc
    next value hc =>
      have hr : ¬ Shadowed s.uio r := fun hs => by rw [if_pos hs] at hc; cases hc
      rw [if_neg hr] at hc
      cases hc
      have hn : r ≠ .queueNotify := fun e => hr (e ▸ hnotify)
      have ha : r ≠ .interruptAck := fun e => hr (e ▸ hack)
      obtain ⟨f', hw⟩ := hg s.uio.dev r (s.uio.window r.offset) s.fabric hn
      rw [if_neg hn] at h
      cases (dispatch_some (s := { s with uio := s.uio.setShadow r (s.uio.window r.offset) }) hw _).symm.trans h
      refine ⟨.dispatch f' hp hn ha hr, ?_⟩
      unfold afterDispatch
      split
      next hsel =>
        subst hsel
        exact ⟨List.suffix_rfl, rest_queueSel hpc⟩
      next => exact (List.suffix_cons r rest).trans hpc
  next hp => rw [hp] at hpc; cases hpc
  next rest hp =>
    cases h
    rw [hp] at hpc
    exact ⟨.quiet (.reloaded hp), hpc.2 ▸ List.drop_suffix 4 writeOffsets⟩
  next q qs rest hp =>
    cases h
    rw [hp] at hpc
    rw [reloadWord, if_pos (fits_offset hz q).2]
    exact ⟨.reload hp, (List.suffix_cons q qs).trans hpc.1, hpc.2⟩
  next hp => rw [hp] at hpc; cases hpc
  next hp =>
    cases h
    exact ⟨.quiet (.published hp), trivial⟩
  next off offs hp =>
    cases h
    refine ⟨.quiet (.publish hz hp hpc hstatus), ?_⟩
    rw [hp] at hpc
    exact (List.suffix_cons off offs).trans hpc

end

end AcsVirt.L2
