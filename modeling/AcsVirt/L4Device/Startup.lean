import AcsVirt.L2Machine.UioSteps
import AcsVirt.L4Device.Batching

/-!
# Start-up in UIO mode

A driver sets its device up by some thirty register writes, and waits after
most of them for the daemon. The wait is bounded: when it ends early the next
stores fall anywhere between the daemon's loads and stores. `startupLts` is
every such interleaving of one initialisation (`DriverInit.writes`) with any
number of passes, word by word.

The window has one word for what the driver writes several times over, the two
feature words and the registers of the queues, and `STATUS` is stored by both
sides. `Timely` is what a write needs, told by what the daemon has seen and
where it is.

While every write is timely the device keeps up with one that is handed each
write as it is made: `TransportInv` says so of the registers of the transport,
`QueuesInv` of those of the queues, `StartupInv.step` is the step.
-/
namespace AcsVirt.L4

open L2

variable {P : Type}

/-! ## The driver and the frontend -/

/-- What a driver asks for. -/
structure DriverInit where
  features : UInt64
  queues : List QueueConfig
  differ : lowWord features ≠ highWord features
  num_ne : ∀ c ∈ queues, c.num ≠ 0

/-- The registers of a queue in the order the driver writes them. -/
def programRegisters : List MmioReg :=
  [.queueNum, .queueDescLow, .queueDescHigh, .queueAvailLow, .queueAvailHigh, .queueUsedLow, .queueUsedHigh, .queueReady]

def queueWrites (i : Nat) (c : QueueConfig) : List (MmioReg × UInt32) :=
  (.queueSel, UInt32.ofNat i) :: programRegisters.map fun r => (r, queueWord c.queue r)

def queuesWrites : Nat → List QueueConfig → List (MmioReg × UInt32)
  | _, [] => []
  | i, c :: cs => queueWrites i c ++ queuesWrites (i + 1) cs

/-- `ACKNOWLEDGE`, `DRIVER`, the offered features read through both selectors,
the accepted ones written through both. -/
def DriverInit.negotiation (d : DriverInit) : List (MmioReg × UInt32) :=
  [(.status, 1), (.status, 3), (.deviceFeaturesSel, 1), (.deviceFeaturesSel, 0), (.driverFeaturesSel, 1),
    (.driverFeatures, highWord d.features), (.driverFeaturesSel, 0), (.driverFeatures, lowWord d.features)]

/-- The writes of an initialisation, `FEATURES_OK` and `DRIVER_OK` among them. -/
def DriverInit.writes (d : DriverInit) : List (MmioReg × UInt32) :=
  d.negotiation ++ (.status, 11) :: (queuesWrites 0 d.queues ++ [(.status, 15)])

/-- The frontend: the writes the driver has still to make, and the queue
registers the write in hand has still to clear. -/
structure Frontend where
  writes : List (MmioReg × UInt32)
  clearing : List MmioReg
  deriving DecidableEq, Repr

/-- The next store and what is left then.
mirrors patches/qemu/0001-chiplets-qemu-support.patch:808-828 -/
def Frontend.next : Frontend → Option ((MmioReg × UInt32) × Frontend)
  | ⟨ws, r :: rs⟩ => some ((r, 0), ⟨ws, rs⟩)
  | ⟨p :: ws, []⟩ => some (p, ⟨ws, if p.1 = .queueSel then queueStateOffsets else []⟩)
  | ⟨[], []⟩ => none

/-- `passes` are the passes begun since the frontend's last store. -/
structure Startup (P : Type) where
  daemon : UioMachine (FabricBinding P)
  front : Frontend
  passes : Nat

inductive StartupAct where
  | store
  | daemon
  deriving DecidableEq, Repr

def startupStep (z : UioSizes) (dev : FabricDevice (FabricBinding P)) (s : Startup P) :
    StartupAct → Option (Startup P)
  | .store => s.front.next.map fun p =>
    ⟨{ s.daemon with uio := s.daemon.uio.setWord p.1.1 p.1.2 }, p.2, 0⟩
  | .daemon => (s.daemon.step z dev).map fun d =>
    ⟨d, s.front, if s.daemon.pc = .idle then s.passes + 1 else s.passes⟩

/-- A connection that has just been made, on a window of zeros. -/
def startupStart (z : UioSizes) (dev : FabricDevice (FabricBinding P)) (b : FabricBinding P)
    (d : DriverInit) (f : UioFabric) : Startup P :=
  ⟨⟨uioStart z dev b (fun _ => 0), f, .idle⟩, ⟨d.writes, []⟩, 0⟩

def startupLts (z : UioSizes) (dev : FabricDevice (FabricBinding P)) (b : FabricBinding P)
    (d : DriverInit) :
    LTS (Startup P) StartupAct where
  init s := ∃ f, s = startupStart z dev b d f
  step s a s' := startupStep z dev s a = some s'

/-- What a write of `v` to `r` needs. A feature word: that the one before it
and the selector were delivered. The selector of the features: that the feature
word was, or is before the selector will be. The selector of the queues: that
all words of the old queue were, and that the daemon is not on its way through
the queue registers. A queue register: that the selector was, that the daemon is
not about to take the register over, and that the new value is not what it takes
for seen. `STATUS`: that the daemon is not about to store it back. -/
def TimelyWrite (d : UioMachine (FabricBinding P)) (v : UInt32) : MmioReg → Prop
  | .driverFeatures => Shadowed d.uio .driverFeatures ∧ Shadowed d.uio .driverFeaturesSel
  | .driverFeaturesSel => Shadowed d.uio .driverFeatures ∨ ¬ d.pc.InFeatureScan
  | .queueSel => (∀ q ∈ queueStateOffsets, Shadowed d.uio q) ∧ ¬ d.pc.InQueueScan
  | .status => ¬ d.pc.StatusTaken
  | r => r ∈ queueStateOffsets →
    Shadowed d.uio .queueSel ∧ (Shadowed d.uio r ∨ v ≠ d.uio.shadow r) ∧ r ∉ d.pc.reloading

/-- The clearing of queue registers and the daemon need nothing. -/
def Timely (s : Startup P) : StartupAct → Prop
  | .store => ∀ p, s.front.clearing = [] → s.front.writes.head? = some p → TimelyWrite s.daemon p.2 p.1
  | .daemon => True

/-- What a step can do. -/
inductive StartupStep (z : UioSizes) (dev : FabricDevice (FabricBinding P)) (s : Startup P) :
    StartupAct → Startup P → Prop
  | clear {ws : List (MmioReg × UInt32)} {r : MmioReg} {rs : List MmioReg} : s.front = ⟨ws, r :: rs⟩ →
      StartupStep z dev s .store ⟨{ s.daemon with uio := s.daemon.uio.setWord r 0 }, ⟨ws, rs⟩, 0⟩
  | write {r : MmioReg} {v : UInt32} {ws : List (MmioReg × UInt32)} : s.front = ⟨(r, v) :: ws, []⟩ →
      StartupStep z dev s .store ⟨{ s.daemon with uio := s.daemon.uio.setWord r v },
        ⟨ws, if r = .queueSel then queueStateOffsets else []⟩, 0⟩
  | daemon {d : UioMachine (FabricBinding P)} : s.daemon.step z dev = some d →
      StartupStep z dev s .daemon ⟨d, s.front, if s.daemon.pc = .idle then s.passes + 1 else s.passes⟩

theorem startupStep_inv {z : UioSizes} {dev : FabricDevice (FabricBinding P)} {s s' : Startup P}
    {a : StartupAct} (h : startupStep z dev s a = some s') : StartupStep z dev s a s' := by
  cases a with
  | store =>
    obtain ⟨p, hp, rfl⟩ := Option.map_eq_some_iff.1 h
    unfold Frontend.next at hp
    split at hp
    next ws r rs hf =>
      cases hp
      exact .clear hf
    next q ws hf =>
      cases hp
      exact .write hf
    next => cases hp
  | daemon =>
    obtain ⟨d, hd, rfl⟩ := Option.map_eq_some_iff.1 h
    exact .daemon hd

/-! ## The transport -/

theorem writeReg_features {m g : VirtioMmio} (hs : m.driverFeaturesSel = g.driverFeaturesSel)
    (hf : m.vdev.driverFeatures = g.vdev.driverFeatures) (v : UInt32) :
    (writeReg m v .driverFeatures).vdev.driverFeatures = (writeReg g v .driverFeatures).vdev.driverFeatures := by
  simp only [writeReg, hs]
  split
  · simp only [hf]
  · split
    · simp only [hf]
    · exact hf

/-- The device has what its shadow says and `g` what the window says; a feature
word on its way comes before the next selector, and `STATUS` is not on its way
when the daemon is about to store it. -/
structure TransportInv (g : VirtioMmio) (d : UioMachine (FabricBinding P)) : Prop where
  sel : d.uio.dev.mmio.queueSel = d.uio.shadow .queueSel
  goalSel : g.queueSel = d.uio.window MmioReg.queueSel.offset
  fsel : d.uio.dev.mmio.driverFeaturesSel = d.uio.shadow .driverFeaturesSel
  goalFsel : g.driverFeaturesSel = d.uio.window MmioReg.driverFeaturesSel.offset
  status : d.uio.dev.mmio.vdev.status = d.uio.shadow .status
  goalStatus : g.vdev.status = d.uio.window MmioReg.status.offset
  live : Shadowed d.uio .status ∨ d.uio.window MmioReg.status.offset ≠ 0
  taken : d.pc.StatusTaken → Shadowed d.uio .status
  features : Shadowed d.uio .driverFeatures ∧ d.uio.dev.mmio.vdev.driverFeatures = g.vdev.driverFeatures ∨
    ¬ Shadowed d.uio .driverFeatures ∧ (Shadowed d.uio .driverFeaturesSel ∨ ¬ d.pc.InFeatureScan) ∧
      (writeReg d.uio.dev.mmio (d.uio.window MmioReg.driverFeatures.offset) .driverFeatures).vdev.driverFeatures =
        g.vdev.driverFeatures

/-- What the device does with a register. -/
def bindingWrite (b : FabricBinding P) (r : MmioReg) (v : UInt32) : FabricBinding P :=
  { b with mmio := writeReg b.mmio v r }

/-- The daemon comes to `q` after `r`. -/
theorem midway_of_mem {r q : MmioReg} {rest rs : List MmioReg} (h : q :: rest <:+ writeOffsets)
    (hq : q ∈ rs)
    (hafter : ∀ n ≤ writeOffsets.length, (writeOffsets.drop n).head? = some q → r ∉ writeOffsets.drop n) :
    (UioPc.scan (q :: rest)).Midway r rs := by
  have hdrop := List.suffix_iff_eq_drop.1 h
  refine ⟨?_, q, hq, List.mem_cons_self⟩
  show r ∉ q :: rest
  rw [hdrop]
  exact hafter _ (Nat.sub_le _ _) (by rw [← hdrop]; rfl)

/-- The daemon comes to the selector of the features after `DRIVER_FEATURES`. -/
theorem inFeatureScan_of_sel {rest : List MmioReg} (h : .driverFeaturesSel :: rest <:+ writeOffsets) :
    (UioPc.scan (.driverFeaturesSel :: rest)).InFeatureScan :=
  midway_of_mem h (List.mem_singleton_self _) (by decide)

section
variable {g : VirtioMmio} {d d' : UioMachine (FabricBinding P)}

theorem TransportInv.quiet (h : TransportInv g d) (hq : QuietStep d d') : TransportInv g d' where
  sel := by rw [hq.dev, hq.shadow, h.sel]
  goalSel := by rw [hq.window _ (by decide), h.goalSel]
  fsel := by rw [hq.dev, hq.shadow, h.fsel]
  goalFsel := by rw [hq.window _ (by decide), h.goalFsel]
  status := by rw [hq.dev, hq.shadow, h.status]
  goalStatus := by rw [hq.window _ (by decide), h.goalStatus]
  live := by
    rw [hq.shadowed (by decide), hq.window _ (by decide)]
    exact h.live
  taken ht := by
    rw [hq.shadowed (by decide)]
    exact (hq.status ht).elim h.taken id
  features := by
    rw [hq.shadowed (by decide), hq.shadowed (by decide), hq.window _ (by decide), hq.dev]
    refine h.features.imp id fun ⟨hn, hs, hg⟩ => ⟨hn, hs.imp id fun hout hin => ?_, hg⟩
    exact (hq.midway _ (by decide) _ hin).elim hout hn

theorem TransportInv.dispatch (h : TransportInv g d) {r : MmioReg} {rest : List MmioReg}
    (f : UioFabric) (hpc : d.pc = .scan (r :: rest)) (hsuf : r :: rest <:+ writeOffsets)
    (hr : ¬ Shadowed d.uio r) :
    TransportInv g ⟨{ d.uio.setShadow r (d.uio.window r.offset) with
      dev := bindingWrite d.uio.dev r (d.uio.window r.offset) }, f, afterDispatch r rest⟩ := by
  have hv : r = .status → d.uio.window r.offset ≠ 0 := by
    intro he
    subst he
    exact h.live.resolve_left hr
  obtain ⟨hsel, hfsel, hfeat, -⟩ := writeReg_frame d.uio.dev.mmio hv
  have hshadow : ∀ {q x}, x = d.uio.shadow q → (if r = q then d.uio.window r.offset else x) =
      (d.uio.setShadow r (d.uio.window r.offset)).shadow q := by
    intro q _ he
    subst he
    show _ = if q = r then _ else _
    simp only [eq_comm]
  have hstay := fun q => (shadowed_setShadow d.uio (bindingWrite d.uio.dev r (d.uio.window r.offset)) r q).2
  constructor
  · exact hsel.trans (hshadow h.sel)
  · exact h.goalSel
  · exact hfsel.trans (hshadow h.fsel)
  · exact h.goalFsel
  · exact (writeReg_status _ _ r).trans (hshadow h.status)
  · exact h.goalStatus
  · exact h.live.imp (fun hs => hstay _ (.inr hs)) id
  · intro ht
    have hrest := (afterDispatch_statusTaken r rest).1 ht
    by_cases hrs : .status = r
    · exact hstay _ (.inl hrs)
    · refine hstay _ (.inr (h.taken ?_))
      rw [hpc]
      exact List.not_mem_cons_of_ne_of_not_mem hrs hrest
  · by_cases hrf : r = .driverFeatures
    · subst hrf
      obtain ⟨hs, -⟩ | ⟨-, -, hg⟩ := h.features
      · exact absurd hs hr
      · exact .inl ⟨hstay _ (.inl rfl), hg⟩
    · have hkeep := hfeat hrf
      obtain ⟨hs, hg⟩ | ⟨hn, hs, hg⟩ := h.features
      · exact .inl ⟨hstay _ (.inr hs), hkeep.trans hg⟩
      · rw [hpc] at hs
        -- the selector is not the next one: its word was delivered, or the feature word comes first
        have hne : r ≠ .driverFeaturesSel := by
          rintro rfl
          exact (hs.resolve_left hr) (inFeatureScan_of_sel hsuf)
        refine .inr ⟨fun hs' => ?_, hs.imp (fun hs => hstay _ (.inr hs)) fun hout => ?_,
          (writeReg_features (hfsel.trans (if_neg hne)) hkeep _).trans hg⟩
        · exact ((shadowed_setShadow _ _ _ _).1 hs').elim (fun e => hrf e.symm) hn
        · rintro ⟨hn', q, hq, hmem⟩
          rw [afterDispatch_ahead] at hn' hmem
          exact hout ⟨List.not_mem_cons_of_ne_of_not_mem (Ne.symm hrf) hn', q, hq, List.mem_cons_of_mem _ hmem⟩

theorem TransportInv.reload (h : TransportInv g d) {q : MmioReg} {qs rest : List MmioReg}
    (hpc : d.pc = .reload (q :: qs) rest) (hq : q ∈ queueStateOffsets) :
    TransportInv g { d with uio := d.uio.setShadow q (d.uio.window q.offset), pc := .reload qs rest } := by
  have hother : ∀ r, r ∉ queueStateOffsets → r ≠ q := fun r hr e => hr (e ▸ hq)
  have hshadow : ∀ r, r ∉ queueStateOffsets → (d.uio.setShadow q (d.uio.window q.offset)).shadow r = d.uio.shadow r :=
    fun r hr => if_neg (hother r hr)
  have hsame : ∀ r, r ∉ queueStateOffsets → (Shadowed (d.uio.setShadow q (d.uio.window q.offset)) r ↔ Shadowed d.uio r) :=
    fun r hr => (shadowed_setShadow d.uio d.uio.dev q r).trans (or_iff_right (hother r hr))
  constructor
  · exact h.sel.trans (hshadow _ (by decide)).symm
  · exact h.goalSel
  · exact h.fsel.trans (hshadow _ (by decide)).symm
  · exact h.goalFsel
  · exact h.status.trans (hshadow _ (by decide)).symm
  · exact h.goalStatus
  · exact h.live.imp (hsame _ (by decide)).2 id
  · intro ht
    refine (hsame _ (by decide)).2 (h.taken ?_)
    rw [hpc]
    exact ht
  · rw [hsame _ (by decide), hsame _ (by decide)]
    have hf := h.features
    rw [hpc] at hf
    exact hf

/-- A write of any register, with what `features` needs of it. -/
theorem TransportInv.write (h : TransportInv g d) {r : MmioReg} {v : UInt32} (ht : TimelyWrite d v r)
    (hv : r = .status → v ≠ 0)
    (hf : r = .driverFeatures → v = d.uio.window MmioReg.driverFeatures.offset →
      (writeReg g v .driverFeatures).vdev.driverFeatures = g.vdev.driverFeatures) :
    TransportInv (writeReg g v r) { d with uio := d.uio.setWord r v } := by
  obtain ⟨hsel, hfsel, hfeat, -⟩ := writeReg_frame g hv
  have hword : ∀ {q x}, x = d.uio.window q.offset → (if r = q then v else x) = (d.uio.setWord r v).window q.offset := by
    intro q _ he
    subst he
    rw [setWord_window]
    simp only [eq_comm]
  constructor
  · exact h.sel
  · exact hsel.trans (hword h.goalSel)
  · exact h.fsel
  · exact hfsel.trans (hword h.goalFsel)
  · exact h.status
  · exact (writeReg_status _ _ r).trans (hword h.goalStatus)
  · by_cases hrs : r = .status
    · subst hrs
      refine .inr ?_
      show (d.uio.setWord .status v).window _ ≠ 0
      rw [setWord_window, if_pos rfl]
      exact hv rfl
    · show Shadowed (d.uio.setWord r v) _ ∨ (d.uio.setWord r v).window _ ≠ 0
      rw [shadowed_setWord (Ne.symm hrs), setWord_window, if_neg (Ne.symm hrs)]
      exact h.live
  · intro htk
    have hrs : r ≠ .status := by
      intro he
      subst he
      exact ht htk
    exact (shadowed_setWord (Ne.symm hrs) v).2 (h.taken htk)
  · by_cases hrf : r = .driverFeatures
    · subst hrf
      obtain ⟨hs, hs'⟩ := ht
      obtain ⟨-, hg⟩ | ⟨hn, -⟩ := h.features
      · have hnew : (d.uio.setWord .driverFeatures v).window MmioReg.driverFeatures.offset = v := by
          rw [setWord_window, if_pos rfl]
        by_cases hsame : v = d.uio.window MmioReg.driverFeatures.offset
        · exact .inl ⟨hnew.trans (hsame.trans hs), hg.trans (hf rfl hsame).symm⟩
        · refine .inr ⟨fun hs₁ => hsame ?_, .inl ((shadowed_setWord (by decide) v).2 hs'), ?_⟩
          · exact hnew.symm.trans (hs₁.trans hs.symm)
          · dsimp only
            rw [hnew]
            exact writeReg_features (h.fsel.trans (hs'.symm.trans h.goalFsel.symm)) hg v
      · exact absurd hs hn
    · have hword : (d.uio.setWord r v).window MmioReg.driverFeatures.offset =
          d.uio.window MmioReg.driverFeatures.offset := by
        rw [setWord_window, if_neg (Ne.symm hrf)]
      obtain ⟨hs, hg⟩ | ⟨hn, hs, hg⟩ := h.features
      · exact .inl ⟨(shadowed_setWord (Ne.symm hrf) v).2 hs, hg.trans (hfeat hrf).symm⟩
      · refine .inr ⟨fun hs' => hn ((shadowed_setWord (Ne.symm hrf) v).1 hs'), ?_, ?_⟩
        · by_cases hrs : r = .driverFeaturesSel
          · subst hrs
            exact .inr (ht.resolve_left hn)
          · exact hs.imp (shadowed_setWord (Ne.symm hrs) v).2 id
        · dsimp only
          rw [hword, hfeat hrf]
          exact hg

/-- The clearing of a queue register. -/
theorem TransportInv.clear (h : TransportInv g d) {q : MmioReg} (hq : q ∈ queueStateOffsets) :
    TransportInv g { d with uio := d.uio.setWord q 0 } := by
  have hother : ∀ r, r ∉ queueStateOffsets → r ≠ q := fun r hr e => hr (e ▸ hq)
  have hword : ∀ r, r ∉ queueStateOffsets → (d.uio.setWord q 0).window r.offset = d.uio.window r.offset :=
    fun r hr => (setWord_window _ _ _ _).trans (if_neg (hother r hr))
  have hsame : ∀ r, r ∉ queueStateOffsets → (Shadowed (d.uio.setWord q 0) r ↔ Shadowed d.uio r) :=
    fun r hr => shadowed_setWord (hother r hr) 0
  constructor
  · exact h.sel
  · exact h.goalSel.trans (hword _ (by decide)).symm
  · exact h.fsel
  · exact h.goalFsel.trans (hword _ (by decide)).symm
  · exact h.status
  · exact h.goalStatus.trans (hword _ (by decide)).symm
  · dsimp only
    rw [hsame _ (by decide), hword _ (by decide)]
    exact h.live
  · exact fun ht => (hsame _ (by decide)).2 (h.taken ht)
  · dsimp only
    rw [hsame _ (by decide), hsame _ (by decide), hword _ (by decide)]
    exact h.features

end

/-! ## The queues -/

/-- Word `r` of queue `i` will be delivered by the next scan that comes to it. -/
def OnItsWay (d : UioMachine (FabricBinding P)) (i : Nat) (r : MmioReg) : Prop :=
  i = (d.uio.window MmioReg.queueSel.offset).toNat ∧ Shadowed d.uio .queueSel ∧ r ∉ d.pc.reloading ∧ ¬ Shadowed d.uio r

/-- The word of the device's queue `p` is that of the driver's `q`, which may not have been given a size. -/
def WordAgrees (p q : VirtioQueue) (r : MmioReg) : Prop :=
  queueWord p r = queueWord q r ∨ r = .queueNum ∧ queueWord q r = 0

/-- The queues of the device are those of `g`, but for the words on their way.
The window has the words of the queue selected in `g`, but for those still to
be cleared. -/
structure QueuesInv (g : VirtioMmio) (clearing : List MmioReg) (d : UioMachine (FabricBinding P)) :
    Prop where
  scan : d.pc.InQueueScan → Shadowed d.uio .queueSel
  count : d.uio.dev.mmio.vdev.queues.length = g.vdev.queues.length
  cursor : ∀ p ∈ d.uio.dev.mmio.vdev.queues, p.lastAvailIdx = 0
  suffix : clearing <:+ queueStateOffsets
  cleared : ∀ r ∈ clearing, Shadowed d.uio r
  words : ∀ q, virtioMmioQueue g g.queueSel = some q → ∀ r ∈ queueStateOffsets,
    if r ∈ clearing then queueWord q r = 0 else d.uio.window r.offset = queueWord q r
  delivered : ∀ i p q, d.uio.dev.mmio.vdev.queues[i]? = some p → g.vdev.queues[i]? = some q →
    ∀ r ∈ queueStateOffsets, OnItsWay d i r ∨ WordAgrees p q r

theorem queueState_writable : ∀ r ∈ queueStateOffsets, r ∈ writeOffsets := by decide

/-- The daemon comes to a queue register only through the selector. -/
theorem inQueueScan_of_mem {r : MmioReg} {rest : List MmioReg} (h : r :: rest <:+ writeOffsets)
    (hr : r ∈ queueStateOffsets) : (UioPc.scan (r :: rest)).InQueueScan := by
  have hat : ∀ n ≤ writeOffsets.length, ∀ r ∈ queueStateOffsets, (writeOffsets.drop n).head? = some r →
      MmioReg.queueSel ∉ writeOffsets.drop n := by decide
  exact midway_of_mem h hr fun n hn => hat n hn r hr

section
variable {g : VirtioMmio} {clearing : List MmioReg} {d d' : UioMachine (FabricBinding P)}

theorem QueuesInv.quiet (h : QueuesInv g clearing d) (hq : QuietStep d d') :
    QueuesInv g clearing d' where
  scan hs := by
    rw [hq.shadowed (by decide)]
    exact (hq.midway _ (by decide) _ hs).elim h.scan id
  count := by rw [hq.dev, h.count]
  cursor := by
    rw [hq.dev]
    exact h.cursor
  suffix := h.suffix
  cleared r hr := (hq.shadowed (queueState_writable r (h.suffix.subset hr))).2 (h.cleared r hr)
  words q hsel r hr := by
    rw [hq.window r (queueState_writable r hr)]
    exact h.words q hsel r hr
  delivered := by
    intro i p q hp hgq r hr
    rw [hq.dev] at hp
    unfold OnItsWay
    rw [hq.window _ (by decide), hq.shadowed (by decide), hq.reloading, hq.shadowed (queueState_writable r hr)]
    exact h.delivered i p q hp hgq r hr

theorem QueuesInv.reload (h : QueuesInv g clearing d) {q : MmioReg} {qs rest : List MmioReg}
    (hpc : d.pc = .reload (q :: qs) rest) :
    QueuesInv g clearing { d with uio := d.uio.setShadow q (d.uio.window q.offset), pc := .reload qs rest } := by
  have hstay := fun r => shadowed_setShadow d.uio d.uio.dev q r
  constructor
  · intro hs
    refine (hstay _).2 (.inr (h.scan ?_))
    rw [hpc]
    exact hs
  · exact h.count
  · exact h.cursor
  · exact h.suffix
  · exact fun r hr => (hstay r).2 (.inr (h.cleared r hr))
  · exact h.words
  · intro i p pg hp hg r hr
    refine (h.delivered i p pg hp hg r hr).imp (fun ⟨hi, hsel, hre, hns⟩ => ?_) id
    rw [hpc] at hre
    have hrq : r ≠ q := fun e => hre (e ▸ List.mem_cons_self)
    exact ⟨hi, (hstay _).2 (.inr hsel), fun hm => hre (List.mem_cons_of_mem _ hm),
      fun hs => ((hstay r).1 hs).elim hrq hns⟩

/-- A register of the selected queue is delivered. -/
theorem QueuesInv.dispatch_word (h : QueuesInv g clearing d) (ht : TransportInv g d) {r : MmioReg}
    {rest : List MmioReg} (f : UioFabric) (hpc : d.pc = .scan (r :: rest))
    (hsuf : r :: rest <:+ writeOffsets) (hr : ¬ Shadowed d.uio r) (hq : r ∈ queueStateOffsets) :
    QueuesInv g clearing ⟨{ d.uio.setShadow r (d.uio.window r.offset) with
      dev := bindingWrite d.uio.dev r (d.uio.window r.offset) }, f, .scan rest⟩ := by
  have hstay := fun q => shadowed_setShadow d.uio (bindingWrite d.uio.dev r (d.uio.window r.offset)) r q
  have hsel : Shadowed d.uio .queueSel := h.scan (hpc ▸ inQueueScan_of_mem hsuf hq)
  have hm : writeReg d.uio.dev.mmio (d.uio.window r.offset) r =
      onQueue d.uio.dev.mmio fun p => setQueueWord p r (d.uio.window r.offset) := writeReg_queueWord _ hq _
  have hidx : d.uio.dev.mmio.queueSel = d.uio.window MmioReg.queueSel.offset := ht.sel.trans hsel.symm
  constructor
  · exact fun _ => (hstay _).2 (.inr hsel)
  · show (writeReg _ _ r).vdev.queues.length = _
    rw [hm, onQueue_length, h.count]
  · intro p hp
    obtain ⟨i, hi⟩ := List.mem_iff_getElem?.1 hp
    change (writeReg _ _ r).vdev.queues[i]? = some p at hi
    rw [hm] at hi
    obtain ⟨p₀, hp₀, rfl⟩ := onQueue_get hi
    have hcur := h.cursor p₀ (List.mem_of_getElem? hp₀)
    split
    · rw [setQueueWord_cursor, hcur]
    · exact hcur
  · exact h.suffix
  · exact fun q hc => (hstay q).2 (.inr (h.cleared q hc))
  · exact h.words
  · intro i p q hp hg r' hr'
    change (writeReg _ _ r).vdev.queues[i]? = some p at hp
    rw [hm] at hp
    obtain ⟨p₀, hp₀, rfl⟩ := onQueue_get hp
    rw [hidx]
    by_cases hi : i = (d.uio.window MmioReg.queueSel.offset).toNat
    · rw [if_pos hi]
      by_cases hrr : r' = r
      · -- what is delivered is what the driver wrote: a register to be cleared has nothing to deliver
        subst hrr
        have hgsel : virtioMmioQueue g g.queueSel = some q := by rw [virtioMmioQueue, ht.goalSel, ← hi, hg]
        have hw := h.words q hgsel r' hr'
        rw [if_neg fun hc => hr (h.cleared r' hc)] at hw
        refine .inr (.inl ?_)
        rw [queueWord_set _ hr', if_pos rfl, hw]
      · obtain ⟨-, -, -, hns⟩ | hw := h.delivered i p₀ q hp₀ hg r' hr'
        · exact .inl ⟨hi, (hstay _).2 (.inr hsel), List.not_mem_nil, fun hs => ((hstay r').1 hs).elim hrr hns⟩
        · right
          unfold WordAgrees
          rw [queueWord_set _ hq, if_neg hrr]
          exact hw
    · rw [if_neg hi]
      exact .inr ((h.delivered i p₀ q hp₀ hg r' hr').resolve_left fun hway => hi hway.1)

theorem QueuesInv.dispatch (h : QueuesInv g clearing d) (ht : TransportInv g d) {r : MmioReg}
    {rest : List MmioReg} (f : UioFabric) (hpc : d.pc = .scan (r :: rest))
    (hsuf : r :: rest <:+ writeOffsets) (hr : ¬ Shadowed d.uio r) :
    QueuesInv g clearing ⟨{ d.uio.setShadow r (d.uio.window r.offset) with
      dev := bindingWrite d.uio.dev r (d.uio.window r.offset) }, f, afterDispatch r rest⟩ := by
  by_cases hq : r ∈ queueStateOffsets
  · have hafter : afterDispatch r rest = .scan rest := by
      have hne : ∀ r ∈ queueStateOffsets, r ≠ .queueSel ∧ r ≠ .interruptAck := by decide
      rw [afterDispatch, if_neg (hne r hq).1, if_neg (hne r hq).2]
    rw [hafter]
    exact h.dispatch_word ht f hpc hsuf hr hq
  have hstay := fun q => shadowed_setShadow d.uio (bindingWrite d.uio.dev r (d.uio.window r.offset)) r q
  have hv : r = .status → d.uio.window r.offset ≠ 0 := by
    intro he
    subst he
    exact ht.live.resolve_left hr
  have hqueues : (writeReg d.uio.dev.mmio (d.uio.window r.offset) r).vdev.queues = d.uio.dev.mmio.vdev.queues :=
    (writeReg_frame _ hv).2.2.2 hq
  constructor
  · rintro ⟨hsel, q, hqs, hmem⟩
    rw [afterDispatch_ahead] at hsel hmem
    by_cases hrs : .queueSel = r
    · exact (hstay _).2 (.inl hrs)
    · refine (hstay _).2 (.inr (h.scan ?_))
      rw [hpc]
      exact ⟨List.not_mem_cons_of_ne_of_not_mem hrs hsel, q, hqs, List.mem_cons_of_mem _ hmem⟩
  · exact (congrArg List.length hqueues).trans h.count
  · intro p hp
    change p ∈ (writeReg _ _ r).vdev.queues at hp
    exact h.cursor p (hqueues ▸ hp)
  · exact h.suffix
  · exact fun q hc => (hstay q).2 (.inr (h.cleared q hc))
  · exact h.words
  · intro i p q hp hg r' hr'
    change (writeReg _ _ r).vdev.queues[i]? = some p at hp
    rw [hqueues] at hp
    refine (h.delivered i p q hp hg r' hr').imp (fun ⟨hi, hsel, _, hns⟩ => ?_) id
    -- a word on its way stays so: the selector had been delivered, so it is not `r`
    have hrs : r ≠ .queueSel := fun e => hr (e ▸ hsel)
    have hrr : r' ≠ r := fun e => hq (e ▸ hr')
    refine ⟨hi, (hstay _).2 (.inr hsel), ?_, fun hs => ((hstay r').1 hs).elim hrr hns⟩
    unfold afterDispatch
    rw [if_neg hrs]
    split <;> exact List.not_mem_nil

/-- A queue register is cleared; it had been delivered. -/
theorem QueuesInv.clear {r : MmioReg} (h : QueuesInv g (r :: clearing) d) :
    QueuesInv g clearing { d with uio := d.uio.setWord r 0 } := by
  have hq : r ∈ queueStateOffsets := h.suffix.subset List.mem_cons_self
  have hnew : r ∉ clearing := (List.nodup_cons.1 (h.suffix.sublist.nodup (by decide))).1
  have hsel : Shadowed (d.uio.setWord r 0) .queueSel ↔ Shadowed d.uio .queueSel :=
    shadowed_setWord (fun e => absurd (e ▸ hq) (by decide)) 0
  have hword : (d.uio.setWord r 0).window MmioReg.queueSel.offset = d.uio.window MmioReg.queueSel.offset := by
    rw [setWord_window, if_neg fun e => absurd (e ▸ hq) (by decide)]
  constructor
  · exact fun hs => hsel.2 (h.scan hs)
  · exact h.count
  · exact h.cursor
  · exact (List.suffix_cons r clearing).trans h.suffix
  · intro q hc
    have hqr : q ≠ r := fun e => hnew (e ▸ hc)
    exact (shadowed_setWord hqr 0).2 (h.cleared q (List.mem_cons_of_mem _ hc))
  · intro q hgq r' hr'
    have hw := h.words q hgq r' hr'
    dsimp only
    rw [setWord_window]
    by_cases hrr : r' = r
    · subst hrr
      rw [if_pos List.mem_cons_self] at hw
      rw [if_neg hnew, if_pos rfl, hw]
    · simp only [List.mem_cons, hrr, false_or] at hw
      rw [if_neg hrr]
      exact hw
  · intro i p q hp hg r' hr'
    by_cases hrr : r' = r
    · subst hrr
      exact .inr ((h.delivered i p q hp hg r' hr').resolve_left fun hway => hway.2.2.2 (h.cleared r' List.mem_cons_self))
    · unfold OnItsWay
      dsimp only
      rw [hword, hsel, shadowed_setWord hrr]
      exact h.delivered i p q hp hg r' hr'

/-- A new queue is selected: everything about the old one has been delivered. -/
theorem QueuesInv.write_sel (h : QueuesInv g [] d) {v : UInt32} (hw : TimelyWrite d v .queueSel)
    (hnew : ∀ q, g.vdev.queues[v.toNat]? = some q → ∀ r ∈ queueStateOffsets, queueWord q r = 0) :
    QueuesInv (writeReg g v .queueSel) queueStateOffsets { d with uio := d.uio.setWord .queueSel v } := by
  obtain ⟨hall, hscan⟩ := hw
  constructor
  · exact fun hs => absurd hs hscan
  · exact h.count
  · exact h.cursor
  · exact List.suffix_rfl
  · intro r hr
    have hne : ∀ r ∈ queueStateOffsets, r ≠ .queueSel := by decide
    exact (shadowed_setWord (hne r hr) v).2 (hall r hr)
  · intro q hgq r hr
    rw [if_pos hr]
    exact hnew q hgq r hr
  · intro i p q hp hg r hr
    exact .inr ((h.delivered i p q hp hg r hr).resolve_left fun hway => hway.2.2.2 (hall r hr))

/-- A register of the selected queue is written for the first time. -/
theorem QueuesInv.write_word (h : QueuesInv g [] d) (ht : TransportInv g d) {r : MmioReg}
    {v : UInt32} (hq : r ∈ queueStateOffsets) (hsel : Shadowed d.uio .queueSel)
    (hr : Shadowed d.uio r ∨ v ≠ d.uio.shadow r) (hre : r ∉ d.pc.reloading)
    (hnew : ∀ q, virtioMmioQueue g g.queueSel = some q → queueWord q r = 0) :
    QueuesInv (writeReg g v r) [] { d with uio := d.uio.setWord r v } := by
  have hne : .queueSel ≠ r := fun e => absurd (e ▸ hq) (by decide)
  have hsel' : Shadowed (d.uio.setWord r v) .queueSel := (shadowed_setWord hne v).2 hsel
  have hidx : (d.uio.setWord r v).window MmioReg.queueSel.offset = g.queueSel := by
    rw [setWord_window, if_neg hne, ht.goalSel]
  rw [writeReg_queueWord g hq]
  constructor
  · exact fun _ => hsel'
  · exact h.count.trans (onQueue_length _ _).symm
  · exact h.cursor
  · exact h.suffix
  · exact nofun
  · intro q hgq r' hr'
    obtain ⟨q₀, hq₀, rfl⟩ := onQueue_get hgq
    have hw := h.words q₀ hq₀ r' hr'
    rw [if_neg List.not_mem_nil] at hw ⊢
    have hself : (onQueue g fun q => setQueueWord q r v).queueSel.toNat = g.queueSel.toNat := rfl
    dsimp only
    rw [setWord_window, if_pos hself, queueWord_set _ hq, hw]
  · intro i p q hp hg r' hr'
    obtain ⟨q₀, hq₀, rfl⟩ := onQueue_get hg
    have hold := h.delivered i p q₀ hp hq₀ r' hr'
    by_cases hrr : r' = r
    · subst hrr
      split
      next hi =>
        have hnow : Shadowed (d.uio.setWord r' v) r' ↔ v = d.uio.shadow r' := by
          unfold Shadowed
          rw [setWord_window, if_pos rfl]
          rfl
        by_cases hv : v = d.uio.shadow r'
        · -- the word was 0, in the window and at the driver, and has been seen; a new 0 changes nothing
          have hs := hr.resolve_right fun hn => hn hv
          have hz := hnew q₀ (by rw [virtioMmioQueue, ← hi, hq₀])
          have hw := h.words q₀ (by rw [virtioMmioQueue, ← hi, hq₀]) r' hr'
          rw [if_neg List.not_mem_nil] at hw
          have hv0 : v = 0 := hv.trans (hs.symm.trans (hw.trans hz))
          replace hold := hold.resolve_left fun hway => hway.2.2.2 hs
          refine .inr ?_
          unfold WordAgrees at hold ⊢
          rw [hz] at hold
          rw [queueWord_set _ hr', if_pos rfl, hv0]
          exact hold
        · exact .inl ⟨by rw [hidx]; exact hi, hsel', hre, fun hs => hv (hnow.1 hs)⟩
      next hi => exact .inr (hold.resolve_left fun hway => hi (by rw [hway.1, ht.goalSel]))
    · have hagree : WordAgrees p (if i = g.queueSel.toNat then setQueueWord q₀ r v else q₀) r' ↔ WordAgrees p q₀ r' := by
        split
        · unfold WordAgrees
          rw [queueWord_set _ hq, if_neg hrr]
        · rfl
      rw [hagree]
      unfold OnItsWay at hold ⊢
      dsimp only
      rw [hidx, shadowed_setWord hrr, shadowed_setWord hne, ht.goalSel]
      exact hold

/-- A register of the transport is written. -/
theorem QueuesInv.write_other (h : QueuesInv g [] d) {r : MmioReg} {v : UInt32}
    (hv : r = .status → v ≠ 0) (hq : r ∉ queueStateOffsets) (hsel : r ≠ .queueSel) :
    QueuesInv (writeReg g v r) [] { d with uio := d.uio.setWord r v } := by
  obtain ⟨hgsel, -, -, hqueues⟩ := writeReg_frame g hv
  rw [if_neg hsel] at hgsel
  have hother : ∀ r' ∈ queueStateOffsets, r' ≠ r := fun r' hr' e => hq (e ▸ hr')
  constructor
  · exact fun hs => (shadowed_setWord (Ne.symm hsel) v).2 (h.scan hs)
  · exact h.count.trans (congrArg List.length (hqueues hq)).symm
  · exact h.cursor
  · exact h.suffix
  · exact nofun
  · intro q hgq r' hr'
    rw [virtioMmioQueue, hgsel, hqueues hq] at hgq
    dsimp only
    rw [setWord_window, if_neg (hother r' hr')]
    exact h.words q hgq r' hr'
  · intro i p q hp hg r' hr'
    rw [hqueues hq] at hg
    unfold OnItsWay
    dsimp only
    rw [setWord_window, if_neg (Ne.symm hsel), shadowed_setWord (Ne.symm hsel), shadowed_setWord (hother r' hr')]
    exact h.delivered i p q hp hg r' hr'

end

/-! ## A run -/

/-- The device that is handed every write. -/
def programmed (g : VirtioMmio) (ws : List (MmioReg × UInt32)) : VirtioMmio :=
  ws.foldl (fun g p => writeReg g p.2 p.1) g

/-- What the window can carry: a feature word other than the last one, unless
it changes nothing, and registers of queues that have not been written. -/
structure Apt (last : UInt32) (g : VirtioMmio) (r : MmioReg) (v : UInt32) : Prop where
  mirrored : Mirrored r
  status : r = .status → v ≠ 0
  features : r = .driverFeatures → v = last →
    (writeReg g v .driverFeatures).vdev.driverFeatures = g.vdev.driverFeatures
  select : r = .queueSel → ∀ q, g.vdev.queues[v.toNat]? = some q → ∀ r ∈ queueStateOffsets, queueWord q r = 0
  word : r ∈ queueStateOffsets → ∀ q, virtioMmioQueue g g.queueSel = some q → queueWord q r = 0

def AptWrites : UInt32 → VirtioMmio → List (MmioReg × UInt32) → Prop
  | _, _, [] => True
  | last, g, (r, v) :: ws => Apt last g r v ∧ AptWrites (if r = .driverFeatures then v else last) (writeReg g v r) ws

/-- `g` is the device that was handed the writes made so far. -/
structure StartupInv (z : UioSizes) (g : VirtioMmio) (s : Startup P) : Prop where
  calm : s.daemon.pc.Calm z
  notify : Shadowed s.daemon.uio .queueNotify
  ack : Shadowed s.daemon.uio .interruptAck
  transport : TransportInv g s.daemon
  queues : QueuesInv g s.front.clearing s.daemon
  apt : AptWrites (s.daemon.uio.window MmioReg.driverFeatures.offset) g s.front.writes
  passes : 0 < s.passes → ∀ r ∈ writeOffsets, r ∉ s.daemon.pc.ahead → Shadowed s.daemon.uio r

section
variable {z : UioSizes} {ops : P → VirtioDeviceOps} {notify : Device P → UInt32 → FabricM (Device P × Bool)}
  {g : VirtioMmio} {s s' : Startup P} {a : StartupAct}

theorem StartupInv.clear (h : StartupInv z g s) {ws : List (MmioReg × UInt32)} {r : MmioReg}
    {rs : List MmioReg} (hf : s.front = ⟨ws, r :: rs⟩) :
    StartupInv z g ⟨{ s.daemon with uio := s.daemon.uio.setWord r 0 }, ⟨ws, rs⟩, 0⟩ := by
  have hqs := h.queues
  have hapt := h.apt
  rw [hf] at hqs hapt
  have hq : r ∈ queueStateOffsets := hqs.suffix.subset List.mem_cons_self
  have hother : ∀ q, q ∉ queueStateOffsets → q ≠ r := fun q hn e => hn (e ▸ hq)
  constructor
  · exact h.calm
  · exact (shadowed_setWord (hother _ (by decide)) 0).2 h.notify
  · exact (shadowed_setWord (hother _ (by decide)) 0).2 h.ack
  · exact h.transport.clear hq
  · exact hqs.clear
  · dsimp only
    rw [setWord_window, if_neg (hother _ (by decide))]
    exact hapt
  · exact fun hp => absurd hp (Nat.lt_irrefl 0)

theorem StartupInv.write (h : StartupInv z g s) {r : MmioReg} {v : UInt32}
    {ws : List (MmioReg × UInt32)} (hf : s.front = ⟨(r, v) :: ws, []⟩) (ht : TimelyWrite s.daemon v r) :
    StartupInv z (writeReg g v r) ⟨{ s.daemon with uio := s.daemon.uio.setWord r v },
      ⟨ws, if r = .queueSel then queueStateOffsets else []⟩, 0⟩ := by
  have hqs := h.queues
  have hapt := h.apt
  rw [hf] at hqs hapt
  obtain ⟨ha, hapt⟩ := hapt
  have hnotify : .queueNotify ≠ r := Ne.symm ha.mirrored.2.1
  have hack : .interruptAck ≠ r := Ne.symm ha.mirrored.2.2
  constructor
  · exact h.calm
  · exact (shadowed_setWord hnotify v).2 h.notify
  · exact (shadowed_setWord hack v).2 h.ack
  · exact h.transport.write ht ha.status ha.features
  · by_cases hsel : r = .queueSel
    · subst hsel
      exact hqs.write_sel ht (ha.select rfl)
    · dsimp only
      rw [if_neg hsel]
      by_cases hq : r ∈ queueStateOffsets
      · obtain ⟨h1, h2, h3⟩ : Shadowed s.daemon.uio .queueSel ∧
            (Shadowed s.daemon.uio r ∨ v ≠ s.daemon.uio.shadow r) ∧ r ∉ s.daemon.pc.reloading := by
          revert ht
          simp only [queueStateOffsets, List.mem_cons, List.not_mem_nil, or_false] at hq
          rcases hq with rfl | rfl | rfl | rfl | rfl | rfl | rfl | rfl <;> exact fun ht => ht (by decide)
        exact hqs.write_word h.transport hq h1 h2 h3 (ha.word hq)
      · exact hqs.write_other ha.status hq hsel
  · dsimp only
    rw [setWord_window]
    simp only [eq_comm]
    exact hapt
  · exact fun hp => absurd hp (Nat.lt_irrefl 0)

/-- The daemon's steps. -/
theorem StartupInv.daemon (hz : z.devSize = 0x200) (h : StartupInv z g s)
    {d : UioMachine (FabricBinding P)} (hd : s.daemon.step z (bindingDevice ops notify) = some d) :
    StartupInv z g ⟨d, s.front, if s.daemon.pc = .idle then s.passes + 1 else s.passes⟩ := by
  have hstatus : s.daemon.pc.StatusTaken →
      ((bindingDevice ops notify).read s.daemon.uio.dev MmioReg.status.offset 4).toUInt32 =
        s.daemon.uio.window MmioReg.status.offset := fun ht =>
    (status_read (ops s.daemon.uio.dev.priv) s.daemon.uio.dev.mmio).trans
      (h.transport.status.trans (h.transport.taken ht).symm)
  have hcalm := h.calm
  obtain ⟨hstep, hcalm'⟩ := step_calm (g := bindingWrite) (binding_answers ops notify) hz h.calm h.notify h.ack hstatus hd
  cases hstep with
  | quiet hq =>
    refine ⟨hcalm', (hq.shadowed (by decide)).2 h.notify, (hq.shadowed (by decide)).2 h.ack, h.transport.quiet hq,
      h.queues.quiet hq, ?_, ?_⟩
    · dsimp only
      rw [hq.window _ (by decide)]
      exact h.apt
    · intro hp r hr hn
      dsimp only at hp
      split at hp
      next hi => exact absurd (hq.woken hi r hr) hn
      next => exact (hq.shadowed hr).2 ((hq.ahead r hr hn).elim (h.passes hp r hr) id)
  | @dispatch r rest f hpc hn ha hr =>
    have hstay := fun q => (shadowed_setShadow s.daemon.uio
      (bindingWrite s.daemon.uio.dev r (s.daemon.uio.window r.offset)) r q).2
    rw [hpc] at hcalm
    refine ⟨hcalm', hstay _ (.inr h.notify), hstay _ (.inr h.ack), h.transport.dispatch f hpc hcalm hr,
      h.queues.dispatch h.transport f hpc hcalm hr, h.apt, ?_⟩
    intro hp q hq hahead
    rw [if_neg (by rw [hpc]; nofun)] at hp
    rw [afterDispatch_ahead] at hahead
    by_cases hqr : q = r
    · exact hstay _ (.inl hqr)
    · refine hstay _ (.inr (h.passes hp q hq ?_))
      rw [hpc]
      exact List.not_mem_cons_of_ne_of_not_mem hqr hahead
  | @reload q qs rest hpc =>
    have hstay := fun r => (shadowed_setShadow s.daemon.uio s.daemon.uio.dev q r).2
    rw [hpc] at hcalm
    refine ⟨hcalm', hstay _ (.inr h.notify), hstay _ (.inr h.ack),
      h.transport.reload hpc (hcalm.1.subset List.mem_cons_self), h.queues.reload hpc, h.apt, ?_⟩
    intro hp r hr hahead
    rw [if_neg (by rw [hpc]; nofun)] at hp
    refine hstay _ (.inr (h.passes hp r hr ?_))
    rw [hpc]
    exact hahead

/-- Every timely step. -/
theorem StartupInv.step (hz : z.devSize = 0x200) {goal : VirtioMmio}
    (hs : startupStep z (bindingDevice ops notify) s a = some s') (ht : Timely s a)
    (h : ∃ g, StartupInv z g s ∧ programmed g s.front.writes = goal) :
    ∃ g, StartupInv z g s' ∧ programmed g s'.front.writes = goal := by
  obtain ⟨g, h, hgoal⟩ := h
  cases startupStep_inv hs with
  | clear hf =>
    rw [hf] at hgoal
    exact ⟨g, h.clear hf, hgoal⟩
  | @write r v ws hf =>
    rw [hf] at hgoal
    exact ⟨writeReg g v r, h.write hf (ht (r, v) (by rw [hf]) (by rw [hf]; rfl)), hgoal⟩
  | daemon hd => exact ⟨g, h.daemon hz hd, hgoal⟩

end

end AcsVirt.L4
