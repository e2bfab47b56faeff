import AcsVirt.L4Device.Startup

/-!
# Where a start-up ends

What a driver writes is fit for the window (`writes_goal`), so a run whose
writes are all timely ends with the device the driver asked for
(`startup_converges`). A daemon that makes a pass after every write gives such a
run (`timely_run`).

Nothing in the frontend makes the writes timely once its wait has timed out. A
second value stored before the first was delivered replaces it, and the shadows
taken over after `QUEUE_SEL` include what the driver has already written for
the new queue. A daemon that comes late finds a `STATUS` of `DRIVER_OK` and no
queue (`late_daemon_loses_queues`).
-/
namespace AcsVirt.L4

open L2

variable {P : Type}

/-! ## The driver's writes -/

theorem aptWrites_append {xs ys : List (MmioReg × UInt32)} {last : UInt32} {g : VirtioMmio}
    (hx : AptWrites last g xs) (hy : ∀ last, AptWrites last (programmed g xs) ys) :
    AptWrites last g (xs ++ ys) := by
  induction xs generalizing last g with
  | nil => exact hy last
  | cons p xs ih => exact ⟨hx.1, ih hx.2 hy⟩

theorem programmed_append (g : VirtioMmio) (xs ys : List (MmioReg × UInt32)) :
    programmed g (xs ++ ys) = programmed (programmed g xs) ys := List.foldl_append

theorem apt_status {last : UInt32} {g : VirtioMmio} {v : UInt32} (hv : v ≠ 0) :
    Apt last g .status v :=
  ⟨by decide, fun _ => hv, nofun, nofun, fun h => absurd h (by decide)⟩

theorem apt_selector {last : UInt32} {g : VirtioMmio} {r : MmioReg} {v : UInt32}
    (hr : r = .deviceFeaturesSel ∨ r = .driverFeaturesSel) : Apt last g r v := by
  rcases hr with rfl | rfl <;>
    exact ⟨by decide, nofun, nofun, nofun, fun h => absurd h (by decide)⟩

/-- The words of `c` into a queue, one after the other. -/
def setWords (c : QueueConfig) (rs : List MmioReg) (q : VirtioQueue) : VirtioQueue :=
  rs.foldl (fun q r => setQueueWord q r (queueWord c.queue r)) q

theorem setWords_word (c : QueueConfig) {rs : List MmioReg} (hrs : ∀ r ∈ rs, r ∈ queueStateOffsets)
    (q : VirtioQueue) (r : MmioReg) :
    queueWord (setWords c rs q) r = if r ∈ rs then queueWord c.queue r else queueWord q r := by
  induction rs generalizing q with
  | nil => rfl
  | cons s rs ih =>
    have hs := hrs s List.mem_cons_self
    rw [setWords, List.foldl_cons]
    refine (ih (fun r hr => hrs r (List.mem_cons_of_mem _ hr)) _).trans ?_
    rw [queueWord_set _ hs]
    by_cases hr : r = s
    · subst hr
      simp
    · simp [hr]

theorem setWords_cursor (c : QueueConfig) (rs : List MmioReg) (q : VirtioQueue) :
    (setWords c rs q).lastAvailIdx = q.lastAvailIdx := by
  induction rs generalizing q with
  | nil => rfl
  | cons s rs ih => exact (ih _).trans (setQueueWord_cursor q s _)

theorem setWords_all (c : QueueConfig) {q : VirtioQueue} (hq : q.lastAvailIdx = 0) :
    setWords c programRegisters q = c.queue := by
  have hall : ∀ r ∈ queueStateOffsets, r ∈ programRegisters := by decide
  refine queue_ext (fun r hr => ?_) ((setWords_cursor c _ q).trans hq)
  rw [setWords_word c (by decide), if_pos (hall r hr)]

theorem programmed_words (c : QueueConfig) {rs : List MmioReg}
    (hrs : ∀ r ∈ rs, r ∈ queueStateOffsets) (g : VirtioMmio) :
    programmed g (rs.map fun r => (r, queueWord c.queue r)) = onQueue g (setWords c rs) := by
  induction rs generalizing g with
  | nil => exact (onQueue_id g).symm
  | cons r rs ih =>
    rw [List.map_cons, programmed, List.foldl_cons, writeReg_queueWord g (hrs r List.mem_cons_self)]
    exact (ih (fun r hr => hrs r (List.mem_cons_of_mem _ hr)) _).trans (onQueue_onQueue ..)

/-- The registers of a queue nothing was written to. -/
theorem aptWrites_words (c : QueueConfig) {rs : List MmioReg}
    (hrs : ∀ r ∈ rs, r ∈ queueStateOffsets) (hn : rs.Nodup) {g : VirtioMmio}
    (hnew : ∀ q, virtioMmioQueue g g.queueSel = some q → ∀ r ∈ rs, queueWord q r = 0)
    (last : UInt32) :
    AptWrites last g (rs.map fun r => (r, queueWord c.queue r)) := by
  induction rs generalizing g last with
  | nil => trivial
  | cons r rs ih =>
    obtain ⟨hnr, hn⟩ := List.nodup_cons.1 hn
    have hq := hrs r List.mem_cons_self
    have hother : ∀ r', r' ∉ queueStateOffsets → r ≠ r' := fun r' hr' e => hr' (e ▸ hq)
    have hmirrored : ∀ r ∈ queueStateOffsets, Mirrored r := by decide
    refine ⟨⟨hmirrored r hq, fun e => absurd e (hother _ (by decide)), fun e => absurd e (hother _ (by decide)),
      fun e => absurd e (hother _ (by decide)), fun _ q hg => hnew q hg r List.mem_cons_self⟩, ?_⟩
    refine ih (fun r hr => hrs r (List.mem_cons_of_mem _ hr)) hn (fun q hg r' hr' => ?_) _
    rw [writeReg_queueWord g hq] at hg
    obtain ⟨q₀, hq₀, rfl⟩ := onQueue_get hg
    have hself : (onQueue g fun q => setQueueWord q r (queueWord c.queue r)).queueSel.toNat = g.queueSel.toNat := rfl
    have hne : r' ≠ r := fun e => hnr (e ▸ hr')
    rw [if_pos hself, queueWord_set _ hq, if_neg hne]
    exact hnew q₀ hq₀ r' (List.mem_cons_of_mem _ hr')

/-- One queue. -/
theorem queueWrites_goal (c : QueueConfig) {g : VirtioMmio} {done rest : List VirtioQueue}
    (hg : g.vdev.queues = done ++ resetQueue 0 :: rest) (h32 : done.length < UInt32.size) :
    (∀ last, AptWrites last g (queueWrites done.length c)) ∧
      (programmed g (queueWrites done.length c)).vdev = { g.vdev with queues := done ++ c.queue :: rest } := by
  have hidx : (UInt32.ofNat done.length).toNat = done.length := UInt32.toNat_ofNat_of_lt h32
  have hzero : ∀ r ∈ queueStateOffsets, queueWord (resetQueue 0) r = 0 := by decide
  have hget : g.vdev.queues[(UInt32.ofNat done.length).toNat]? = some (resetQueue 0) := by
    rw [hidx, hg, List.getElem?_append_right (Nat.le_refl _), Nat.sub_self]
    rfl
  have hnew : ∀ q, g.vdev.queues[(UInt32.ofNat done.length).toNat]? = some q → ∀ r ∈ queueStateOffsets, queueWord q r = 0 := by
    intro q hq
    cases hget.symm.trans hq
    exact hzero
  have hregs : ∀ r ∈ programRegisters, r ∈ queueStateOffsets := by decide
  constructor
  · intro last
    refine ⟨⟨by decide, nofun, nofun, fun _ => hnew, fun h => absurd h (by decide)⟩, ?_⟩
    exact aptWrites_words c hregs (by decide) (g := writeReg g (UInt32.ofNat done.length) .queueSel)
      (fun q hq r hr => hnew q hq r (hregs r hr)) _
  · have hset : ∀ f, (onQueue (writeReg g (UInt32.ofNat done.length) .queueSel) f).vdev =
        { g.vdev with queues := g.vdev.queues.modify (UInt32.ofNat done.length).toNat f } := fun _ => rfl
    rw [queueWrites, programmed, List.foldl_cons]
    refine (congrArg VirtioMmio.vdev (programmed_words c hregs _)).trans ?_
    rw [hset, hidx, hg, modify_append_cons, setWords_all c rfl]

theorem queuesWrites_goal (cs : List QueueConfig) {g : VirtioMmio} {done : List VirtioQueue}
    (hg : g.vdev.queues = done ++ List.replicate cs.length (resetQueue 0))
    (h32 : done.length + cs.length < UInt32.size) :
    (∀ last, AptWrites last g (queuesWrites done.length cs)) ∧
      (programmed g (queuesWrites done.length cs)).vdev = { g.vdev with queues := done ++ cs.map (·.queue) } := by
  induction cs generalizing g done with
  | nil =>
    have hdone : g.vdev.queues = done := hg.trans (List.append_nil done)
    refine ⟨fun _ => trivial, ?_⟩
    rw [List.map_nil, List.append_nil]
    show g.vdev = _
    rw [← hdone]
  | cons c cs ih =>
    rw [List.length_cons] at h32
    obtain ⟨hapt, hprog⟩ := queueWrites_goal c hg (by omega)
    have hlen : (done ++ [c.queue]).length = done.length + 1 := by rw [List.length_append, List.length_singleton]
    have hnext : (programmed g (queueWrites done.length c)).vdev.queues =
        (done ++ [c.queue]) ++ List.replicate cs.length (resetQueue 0) := by
      rw [hprog, List.append_assoc]
      rfl
    obtain ⟨hapt', hprog'⟩ := ih hnext (by omega)
    rw [hlen] at hapt' hprog'
    constructor
    · exact fun last => aptWrites_append (hapt last) hapt'
    · rw [queuesWrites, programmed_append, hprog', hprog, List.append_assoc]
      rfl

/-- The queues before the driver gives them a size. -/
def unsized (m : VirtioMmio) : VirtioMmio :=
  { m with vdev := { m.vdev with queues := m.vdev.queues.map fun q => { q with num := 0 } } }

theorem unsized_queues (vdev : VirtioDevice) :
    (unsized (virtioMmioInit vdev)).vdev.queues = List.replicate vdev.queues.length (resetQueue 0) :=
  List.map_map.trans (List.map_const' (l := vdev.queues) (b := resetQueue 0))

theorem features_words (x : UInt64) : setLow (setHigh 0 (highWord x)) (lowWord x) = x :=
  words_ext (lowWord_setLow _ _) ((highWord_setLow _ _).trans (highWord_setHigh _ _))

theorem negotiation_goal (d : DriverInit) (vdev : VirtioDevice) :
    AptWrites 0 (unsized (virtioMmioInit vdev)) d.negotiation ∧
      (programmed (unsized (virtioMmioInit vdev)) d.negotiation).vdev =
        { (unsized (virtioMmioInit vdev)).vdev with status := 3, driverFeatures := d.features } := by
  constructor
  · refine ⟨apt_status (by decide), apt_status (by decide), apt_selector (.inl rfl), apt_selector (.inl rfl),
      apt_selector (.inr rfl), ⟨by decide, nofun, fun _ hv => ?_, nofun, fun h => absurd h (by decide)⟩,
      apt_selector (.inr rfl), ⟨by decide, nofun, fun _ hv => absurd hv d.differ, nofun, fun h => absurd h (by decide)⟩,
      trivial⟩
    -- the high word is 0 and so is the word it goes into
    show setHigh 0 (highWord d.features) = 0
    rw [show highWord d.features = 0 from hv]
    decide
  · exact congrArg (fun x => { (unsized (virtioMmioInit vdev)).vdev with status := 3, driverFeatures := x })
      (features_words d.features)

theorem writes_goal (d : DriverInit) {vdev : VirtioDevice}
    (hcount : d.queues.length = vdev.queues.length) (h32 : d.queues.length < UInt32.size) :
    AptWrites 0 (unsized (virtioMmioInit vdev)) d.writes ∧
      (programmed (unsized (virtioMmioInit vdev)) d.writes).vdev = { (unsized (virtioMmioInit vdev)).vdev with
        status := 15, driverFeatures := d.features, queues := d.queues.map (·.queue) } := by
  obtain ⟨hneg, hprog⟩ := negotiation_goal d vdev
  generalize hm : programmed (unsized (virtioMmioInit vdev)) d.negotiation = m at hprog
  have hstatus : ∀ m : VirtioMmio, ∀ v, v ≠ 0 → (writeReg m v .status).vdev = { m.vdev with status := v } := by
    intro m v hv
    rw [writeReg, if_neg hv]
  have hqs : (writeReg m 11 .status).vdev.queues = [] ++ List.replicate d.queues.length (resetQueue 0) := by
    rw [hstatus _ _ (by decide), hprog, hcount]
    exact unsized_queues vdev
  obtain ⟨hapt, hgoal⟩ := queuesWrites_goal d.queues hqs (by rw [List.length_nil]; omega)
  have hfinal : ∀ (last : UInt32) (g : VirtioMmio), AptWrites last g [(.status, 15)] :=
    fun _ _ => ⟨apt_status (by decide), trivial⟩
  constructor
  · refine aptWrites_append hneg fun last => ?_
    rw [hm]
    exact ⟨apt_status (by decide), aptWrites_append (hapt _) fun last => hfinal last _⟩
  · rw [DriverInit.writes, programmed_append, hm, programmed, List.foldl_cons]
    refine (congrArg VirtioMmio.vdev (programmed_append _ _ _)).trans ?_
    refine (hstatus _ 15 (by decide)).trans ?_
    refine (congrArg (fun v : VirtioDevice => { v with status := 15 }) hgoal).trans ?_
    rw [hstatus _ _ (by decide), hprog]
    rfl

/-- The connection has just been made: the device is as initialised, and the
words the driver is to write are zero and known to the daemon. -/
structure Blank (vdev : VirtioDevice) (priv : P) (u : UioState (FabricBinding P)) : Prop where
  dev : u.dev = ⟨virtioMmioInit vdev, priv⟩
  word : ∀ r ∈ writeOffsets, r ≠ .queueNotify → u.window r.offset = 0
  shadowed : ∀ r ∈ writeOffsets, Shadowed u r

section
variable {vdev : VirtioDevice} {priv : P} {u : UioState (FabricBinding P)}

theorem Blank.shadow (h : Blank vdev priv u) (r : MmioReg) (hr : r ∈ writeOffsets)
    (hn : r ≠ .queueNotify) :
    u.shadow r = 0 := (h.shadowed r hr).symm.trans (h.word r hr hn)

theorem Blank.transport (h : Blank vdev priv u) (f : UioFabric) :
    TransportInv (unsized (virtioMmioInit vdev)) ⟨u, f, .idle⟩ where
  sel := (congrArg (fun b => b.mmio.queueSel) h.dev).trans (h.shadow .queueSel (by decide) nofun).symm
  goalSel := (h.word .queueSel (by decide) nofun).symm
  fsel := (congrArg (fun b => b.mmio.driverFeaturesSel) h.dev).trans (h.shadow .driverFeaturesSel (by decide) nofun).symm
  goalFsel := (h.word .driverFeaturesSel (by decide) nofun).symm
  status := (congrArg (fun b => b.mmio.vdev.status) h.dev).trans (h.shadow .status (by decide) nofun).symm
  goalStatus := (h.word .status (by decide) nofun).symm
  live := .inl (h.shadowed .status (by decide))
  taken := False.elim
  features := .inl ⟨h.shadowed .driverFeatures (by decide), congrArg (fun b => b.mmio.vdev.driverFeatures) h.dev⟩

theorem Blank.queues (h : Blank vdev priv u) (f : UioFabric) :
    QueuesInv (unsized (virtioMmioInit vdev)) [] ⟨u, f, .idle⟩ := by
  have hzeros : ∀ r ∈ queueStateOffsets, queueWord (resetQueue 0) r = 0 := by decide
  have hnew : ∀ {i : Nat} {q}, (unsized (virtioMmioInit vdev)).vdev.queues[i]? = some q → q = resetQueue 0 := by
    intro i q hq
    rw [unsized_queues] at hq
    exact List.eq_of_mem_replicate (List.mem_of_getElem? hq)
  have hold : ∀ p ∈ u.dev.mmio.vdev.queues, p = resetQueue vdev.queueSize := by
    intro p hp
    rw [h.dev] at hp
    obtain ⟨_, -, rfl⟩ := List.mem_map.1 hp
    rfl
  constructor
  · exact fun ⟨_, _, _, hm⟩ => absurd hm List.not_mem_nil
  · rw [unsized_queues, List.length_replicate]
    exact (congrArg (fun b => b.mmio.vdev.queues.length) h.dev).trans (List.length_map _)
  · intro p hp
    rw [hold p hp]
    rfl
  · exact List.nil_suffix
  · exact nofun
  · intro q hq r hr
    have hne : ∀ r ∈ queueStateOffsets, r ≠ .queueNotify := by decide
    rw [if_neg List.not_mem_nil, hnew hq, hzeros r hr]
    exact h.word r (queueState_writable r hr) (hne r hr)
  · intro i p q hp hq r hr
    rw [hold p (List.mem_of_getElem? hp), hnew hq]
    by_cases hnum : r = .queueNum
    · exact .inr (.inr ⟨hnum, hzeros r hr⟩)
    · exact .inr (.inl ((resetQueue_word _ r hr hnum).trans (hzeros r hr).symm))

end

section
variable {z : UioSizes} (hz : z.devSize = 0x200) (ops : P → VirtioDeviceOps)
  (notify : Device P → UInt32 → FabricM (Device P × Bool)) (vdev : VirtioDevice) (priv : P)
include hz

theorem uioStart_blank :
    Blank vdev priv (uioStart z (bindingDevice ops notify) ⟨virtioMmioInit vdev, priv⟩ fun _ => 0) := by
  obtain ⟨⟨hshadow, -⟩, hdev⟩ := uioStart_inv ops notify hz (b := ⟨virtioMmioInit vdev, priv⟩) rfl
  exact ⟨hdev, fun r hr hn => (uioStart_word ops notify hz rfl hr).trans (if_neg hn), hshadow⟩

theorem startup_start (d : DriverInit) (hapt : AptWrites 0 (unsized (virtioMmioInit vdev)) d.writes)
    (f : UioFabric) :
    StartupInv z (unsized (virtioMmioInit vdev))
      (startupStart z (bindingDevice ops notify) ⟨virtioMmioInit vdev, priv⟩ d f) := by
  have hblank := uioStart_blank hz ops notify vdev priv
  constructor
  · trivial
  · exact hblank.shadowed _ (by decide)
  · exact hblank.shadowed _ (by decide)
  · exact hblank.transport f
  · exact hblank.queues f
  · dsimp only [startupStart]
    rw [hblank.word .driverFeatures (by decide) nofun]
    exact hapt
  · exact fun hp => absurd hp (Nat.lt_irrefl 0)

end

/-! ## A daemon that keeps up -/

theorem AptWrites.mirrored {last : UInt32} {g : VirtioMmio} {ws : List (MmioReg × UInt32)}
    (h : AptWrites last g ws) :
    ∀ p ∈ ws, Mirrored p.1 := by
  induction ws generalizing last g with
  | nil => exact nofun
  | cons p ws ih =>
    intro q hq
    rcases List.mem_cons.1 hq with rfl | hq
    · exact h.1.mirrored
    · exact ih h.2 q hq

/-- The stores of one write. -/
theorem axiUioWrite_stores {z : UioSizes} (hz : z.devSize = 0x200) (w : Window) (r : MmioReg)
    (v : UInt32) :
    axiUioWrite z.mmioSize w r.offset v =
      (if r = .queueSel then queueStateOffsets else []).foldl (fun w q => w.set q.offset 0) (w.set r.offset v) := by
  have hfit : ∀ q : MmioReg, q.offset + 4 ≤ z.mmioSize := fun q => (fits_offset hz q).1
  unfold axiUioWrite
  rw [if_neg (UInt64.not_lt.2 (hfit r))]
  by_cases hr : r = .queueSel
  · subst hr
    simp only [if_true, hfit]
  · simp only [if_neg hr, if_neg (offset_ne hr), List.foldl_nil]

section
variable {z : UioSizes} {ops : P → VirtioDeviceOps} {notify : Device P → UInt32 → FabricM (Device P × Bool)}
  {b : FabricBinding P} {d : DriverInit}

theorem clear_path (dm : UioMachine (FabricBinding P)) (ws : List (MmioReg × UInt32))
    (rs : List MmioReg) :
    (startupLts z (bindingDevice ops notify) b d).Path Timely ⟨dm, ⟨ws, rs⟩, 0⟩
      ⟨{ dm with uio := { dm.uio with window := rs.foldl (fun w q => w.set q.offset 0) dm.uio.window } }, ⟨ws, []⟩, 0⟩ := by
  induction rs generalizing dm with
  | nil => exact .refl _
  | cons r rs ih =>
    have hstep : (startupLts z (bindingDevice ops notify) b d).step ⟨dm, ⟨ws, r :: rs⟩, 0⟩ .store
        ⟨{ dm with uio := dm.uio.setWord r 0 }, ⟨ws, rs⟩, 0⟩ := rfl
    exact ((LTS.Path.refl _).tail hstep fun _ hc => absurd hc nofun).append (ih _)

theorem alone_path {dm dm' : UioMachine (FabricBinding P)}
    (h : Alone z (bindingDevice ops notify) dm dm') (front : Frontend) (n : Nat) :
    (startupLts z (bindingDevice ops notify) b d).Path Timely ⟨dm, front, n⟩ ⟨dm', front, n⟩ := by
  induction h with
  | refl => exact .refl _
  | tail _ hs ih =>
    refine ih.tail (l := .daemon) ?_ trivial
    show (UioMachine.step _ _ _).map _ = _
    rw [hs.2, Option.map_some, if_neg hs.1]

theorem pass_path {u u' : UioState (FabricBinding P)} {f f' : UioFabric}
    (h : (uioPass z (bindingDevice ops notify) u).run UioFabric.answer f = (.ok (u', true), f'))
    (front : Frontend) (n : Nat) :
    (startupLts z (bindingDevice ops notify) b d).Path Timely ⟨⟨u, f, .idle⟩, front, n⟩ ⟨⟨u', f', .idle⟩, front, n + 1⟩ := by
  have hwake : (startupLts z (bindingDevice ops notify) b d).step ⟨⟨u, f, .idle⟩, front, n⟩ .daemon
      ⟨⟨u, f, .scan writeOffsets⟩, front, n + 1⟩ := rfl
  exact ((LTS.Path.refl _).tail hwake trivial).append (alone_path (pass_alone h) front (n + 1))

/-- Between passes every write is timely. -/
theorem timely_idle {u : UioState (FabricBinding P)} (h : MirrorInv u) (f : UioFabric) (v : UInt32)
    (r : MmioReg) : TimelyWrite ⟨u, f, .idle⟩ v r := by
  have hq : r ∈ queueStateOffsets →
      Shadowed u .queueSel ∧ (Shadowed u r ∨ v ≠ u.shadow r) ∧ r ∉ UioPc.idle.reloading := fun hr =>
    ⟨h.shadow _ (by decide), .inl (h.shadow _ (queueState_writable r hr)), List.not_mem_nil⟩
  cases r with
  | driverFeatures => exact ⟨h.shadow _ (by decide), h.shadow _ (by decide)⟩
  | driverFeaturesSel => exact .inl (h.shadow _ (by decide))
  | queueSel =>
    exact ⟨fun q hq => h.shadow q (queueState_writable q hq), fun ⟨_, _, _, hm⟩ => absurd hm List.not_mem_nil⟩
  | status => exact id
  | _ => exact hq

variable (hz : z.devSize = 0x200)
include hz

/-- A write, the stores it is made of, and a pass. -/
theorem write_path {u : UioState (FabricBinding P)} (h : MirrorInv u) (f : UioFabric) {r : MmioReg}
    (hr : Mirrored r) (v : UInt32) (ws : List (MmioReg × UInt32)) (n : Nat) :
    ∃ u' f', MirrorInv u' ∧ (startupLts z (bindingDevice ops notify) b d).Path Timely
      ⟨⟨u, f, .idle⟩, ⟨(r, v) :: ws, []⟩, n⟩ ⟨⟨u', f', .idle⟩, ⟨ws, []⟩, 1⟩ := by
  obtain ⟨u', f', hrun, hinv, -⟩ := guestWrite_run ops notify hz h hr v f
  refine ⟨u', f', hinv, ?_⟩
  have hstore : (startupLts z (bindingDevice ops notify) b d).step ⟨⟨u, f, .idle⟩, ⟨(r, v) :: ws, []⟩, n⟩ .store
      ⟨⟨u.setWord r v, f, .idle⟩, ⟨ws, if r = .queueSel then queueStateOffsets else []⟩, 0⟩ := rfl
  have htimely : Timely (P := P) ⟨⟨u, f, .idle⟩, ⟨(r, v) :: ws, []⟩, n⟩ .store := by
    intro p _ hp
    cases hp
    exact timely_idle h f v r
  refine (((LTS.Path.refl _).tail hstore htimely).append (clear_path _ ws _)).append ?_
  refine pass_path ?_ ⟨ws, []⟩ 0
  rw [guestWrite, axiUioWrite_stores hz] at hrun
  exact hrun

variable (ops notify) in
/-- A pass after every write. -/
theorem writes_path {ws : List (MmioReg × UInt32)} (hws : ∀ p ∈ ws, Mirrored p.1)
    {u : UioState (FabricBinding P)} (h : MirrorInv u) (f : UioFabric) (n : Nat) :
    ∃ u' f' n', MirrorInv u' ∧ (startupLts z (bindingDevice ops notify) b d).Path Timely
      ⟨⟨u, f, .idle⟩, ⟨ws, []⟩, n⟩ ⟨⟨u', f', .idle⟩, ⟨[], []⟩, n'⟩ := by
  induction ws generalizing u f n with
  | nil => exact ⟨u, f, n, h, .refl _⟩
  | cons p ws ih =>
    obtain ⟨r, v⟩ := p
    obtain ⟨u₁, f₁, h₁, hpath⟩ := write_path hz h f (hws _ List.mem_cons_self) v ws n
    obtain ⟨u', f', n', h', hrest⟩ := ih (fun p hp => hws p (List.mem_cons_of_mem _ hp)) h₁ f₁ 1
    exact ⟨u', f', n', h', hpath.append hrest⟩

/-- A pass that finds nothing. -/
theorem quiet_path {u : UioState (FabricBinding P)} (h : MirrorInv u) (f : UioFabric)
    (front : Frontend) (n : Nat) :
    ∃ u', (MirrorInv u' ∧ u'.dev = u.dev) ∧ (startupLts z (bindingDevice ops notify) b d).Path Timely
      ⟨⟨u, f, .idle⟩, front, n⟩ ⟨⟨u', f, .idle⟩, front, n + 1⟩ := by
  have hpoll := poll_quiet (bindingDevice ops notify) hz writeOffsets u f h.shadow
  obtain ⟨u', hrun, hinv, hdev⟩ := uioPass_run hz hpoll (fun r hr => (h.shadow r hr).symm) h.status
  exact ⟨u', ⟨hinv, hdev⟩, pass_path hrun front n⟩

/-- The writes of a driver while the daemon sleeps. -/
theorem sleep_reachable (ws : List (MmioReg × UInt32)) {u : UioState (FabricBinding P)}
    {f : UioFabric}
    (h : (startupLts z (bindingDevice ops notify) b d).Reachable ⟨⟨u, f, .idle⟩, ⟨ws, []⟩, 0⟩) :
    (startupLts z (bindingDevice ops notify) b d).Reachable
      ⟨⟨{ u with window := ws.foldl (fun w p => axiUioWrite z.mmioSize w p.1.offset p.2) u.window }, f, .idle⟩, ⟨[], []⟩, 0⟩ := by
  induction ws generalizing u with
  | nil => exact h
  | cons p ws ih =>
    have hstore : (startupLts z (bindingDevice ops notify) b d).step ⟨⟨u, f, .idle⟩, ⟨p :: ws, []⟩, 0⟩ .store
        ⟨⟨u.setWord p.1 p.2, f, .idle⟩, ⟨ws, if p.1 = .queueSel then queueStateOffsets else []⟩, 0⟩ := rfl
    have hwrite := (clear_path _ ws _).reachable (h.tail hstore)
    rw [List.foldl_cons, axiUioWrite_stores hz]
    exact ih hwrite

end

/-- **Every start-up has a timely run**: the daemon makes a pass after each write. -/
theorem timely_run {z : UioSizes} (hz : z.devSize = 0x200) (ops : P → VirtioDeviceOps)
    (notify : Device P → UInt32 → FabricM (Device P × Bool)) (vdev : VirtioDevice) (priv : P)
    (d : DriverInit) (hcount : d.queues.length = vdev.queues.length)
    (h32 : d.queues.length < UInt32.size) (f : UioFabric) :
    ∃ s, (startupLts z (bindingDevice ops notify) ⟨virtioMmioInit vdev, priv⟩ d).Path Timely
        (startupStart z (bindingDevice ops notify) ⟨virtioMmioInit vdev, priv⟩ d f) s ∧
      s.front = ⟨[], []⟩ ∧ s.daemon.pc = .idle ∧ 2 ≤ s.passes := by
  obtain ⟨hstart, -⟩ := uioStart_inv ops notify hz (b := ⟨virtioMmioInit vdev, priv⟩) rfl
  obtain ⟨u₁, f₁, n, h₁, hwrites⟩ := writes_path ops notify (b := ⟨virtioMmioInit vdev, priv⟩) (d := d)
    hz (writes_goal d hcount h32).1.mirrored hstart f 0
  obtain ⟨u₂, ⟨h₂, -⟩, hfirst⟩ := quiet_path hz h₁ f₁ ⟨[], []⟩ n
  obtain ⟨u₃, -, hsecond⟩ := quiet_path hz h₂ f₁ ⟨[], []⟩ (n + 1)
  exact ⟨_, (hwrites.append hfirst).append hsecond, rfl, rfl, by simp⟩

/-- Everything has been delivered. -/
theorem StartupInv.settled {z : UioSizes} {g : VirtioMmio} {s : Startup P} (h : StartupInv z g s)
    (hidle : s.daemon.pc = .idle) (hpasses : 0 < s.passes)
    (hsized : ∀ q ∈ g.vdev.queues, q.num ≠ 0) (hcursor : ∀ q ∈ g.vdev.queues, q.lastAvailIdx = 0) :
    s.daemon.uio.dev.mmio.vdev.status = g.vdev.status ∧
    s.daemon.uio.dev.mmio.vdev.driverFeatures = g.vdev.driverFeatures ∧
    s.daemon.uio.dev.mmio.vdev.queues = g.vdev.queues := by
  have hseen : ∀ r ∈ writeOffsets, Shadowed s.daemon.uio r := fun r hr =>
    h.passes hpasses r hr (by rw [hidle]; exact List.not_mem_nil)
  refine ⟨?_, ?_, ?_⟩
  · exact h.transport.status.trans ((hseen .status (by decide)).symm.trans h.transport.goalStatus.symm)
  · obtain ⟨-, hf⟩ | ⟨hn, -⟩ := h.transport.features
    · exact hf
    · exact absurd (hseen _ (by decide)) hn
  · refine List.ext_getElem? fun i => ?_
    cases hp : s.daemon.uio.dev.mmio.vdev.queues[i]? with
    | none =>
      have hlen := List.getElem?_eq_none_iff.1 hp
      rw [h.queues.count] at hlen
      exact (List.getElem?_eq_none_iff.2 hlen).symm
    | some p =>
      have hlen : i < g.vdev.queues.length := h.queues.count ▸ (List.getElem?_eq_some_iff.1 hp).1
      obtain ⟨q, hq⟩ : ∃ q, g.vdev.queues[i]? = some q := ⟨_, List.getElem?_eq_getElem hlen⟩
      rw [hq]
      have hcur : p.lastAvailIdx = q.lastAvailIdx :=
        (h.queues.cursor p (List.mem_of_getElem? hp)).trans (hcursor q (List.mem_of_getElem? hq)).symm
      refine congrArg some (queue_ext (fun r hr => ?_) hcur)
      obtain ⟨-, -, -, hns⟩ | hw | ⟨rfl, h0⟩ := h.queues.delivered i p q hp hq r hr
      · exact absurd (hseen r (queueState_writable r hr)) hns
      · exact hw
      · exact absurd h0 (hsized q (List.mem_of_getElem? hq))

/-- **Start-up converges.** In a run in which every write is timely, once the
driver has finished and the daemon has made two passes since, the device is the
one the driver asked for. -/
theorem startup_converges {z : UioSizes} (hz : z.devSize = 0x200) (ops : P → VirtioDeviceOps)
    (notify : Device P → UInt32 → FabricM (Device P × Bool)) (vdev : VirtioDevice) (priv : P)
    (d : DriverInit) (hcount : d.queues.length = vdev.queues.length)
    (h32 : d.queues.length < UInt32.size) {s₀ s : Startup P}
    (h0 : (startupLts z (bindingDevice ops notify) ⟨virtioMmioInit vdev, priv⟩ d).init s₀)
    (h : (startupLts z (bindingDevice ops notify) ⟨virtioMmioInit vdev, priv⟩ d).Path Timely s₀ s)
    (hdone : s.front = ⟨[], []⟩) (hidle : s.daemon.pc = .idle) (hpasses : 2 ≤ s.passes) :
    s.daemon.uio.dev.mmio.vdev.status = 15 ∧ s.daemon.uio.dev.mmio.vdev.driverFeatures = d.features ∧
      s.daemon.uio.dev.mmio.vdev.queues = d.queues.map (·.queue) := by
  obtain ⟨f, rfl⟩ := h0
  obtain ⟨hapt, hgoal⟩ := writes_goal d hcount h32
  obtain ⟨g, hinv, hg⟩ := h.keeps (I := fun s => ∃ g, StartupInv z g s ∧
      programmed g s.front.writes = programmed (unsized (virtioMmioInit vdev)) d.writes)
    (fun _ _ _ hi ht hs => StartupInv.step hz hs ht hi) ⟨_, startup_start hz ops notify vdev priv d hapt f, rfl⟩
  rw [hdone] at hg
  replace hgoal := (congrArg VirtioMmio.vdev hg).trans hgoal
  have hqueues : g.vdev.queues = d.queues.map (·.queue) := congrArg VirtioDevice.queues hgoal
  obtain ⟨hs, hf, hq⟩ := hinv.settled hidle (by omega)
    (by
      rw [hqueues]
      intro q hq
      obtain ⟨c, hc, rfl⟩ := List.mem_map.1 hq
      exact d.num_ne c hc)
    (by
      rw [hqueues]
      intro q hq
      obtain ⟨c, -, rfl⟩ := List.mem_map.1 hq
      rfl)
  exact ⟨hs.trans (congrArg VirtioDevice.status hgoal), hf.trans (congrArg VirtioDevice.driverFeatures hgoal),
    hq.trans hqueues⟩

/-- A console driver. -/
def consoleInit : DriverInit where
  features := 0x100000000
  queues := [rxBatch.config, txBatch.config]
  differ := by decide
  num_ne := by decide

theorem startup_converges_console : ∃ s,
    (startupLts pageSizes (condFabricInitDevice 1) condConnect consoleInit).Path Timely
      (startupStart pageSizes (condFabricInitDevice 1) condConnect consoleInit blankFabric) s ∧
    s.front = ⟨[], []⟩ ∧ s.daemon.pc = .idle ∧ 2 ≤ s.passes ∧ s.daemon.uio.dev.mmio.vdev.status = 15 ∧
    s.daemon.uio.dev.mmio.vdev.driverFeatures = 0x100000000 ∧
    s.daemon.uio.dev.mmio.vdev.queues = [⟨8, 1, 0x100001000, 0x2000, 0x3000, 0⟩, ⟨4, 1, 0x5000, 0x6000, 0x7000, 0⟩] := by
  obtain ⟨s, hpath, hdone, hidle, hpasses⟩ := timely_run (z := pageSizes) rfl (fun _ => condOps) (condVirtioNotifyQueue 1)
    condVirtioInit.vdev () consoleInit rfl (by decide) blankFabric
  exact ⟨s, hpath, hdone, hidle, hpasses, startup_converges rfl (fun _ => condOps) (condVirtioNotifyQueue 1)
    condVirtioInit.vdev () consoleInit rfl (by decide) ⟨blankFabric, rfl⟩ hpath hdone hidle hpasses⟩

/-- The window when the console driver is through and the daemon has not looked. -/
def unseenInit : UioState (FabricBinding Unit) :=
  let u := uioStart pageSizes (condFabricInitDevice 1) condConnect fun _ => 0
  { u with window := consoleInit.writes.foldl (fun w p => axiUioWrite pageSizes.mmioSize w p.1.offset p.2) u.window }

set_option maxRecDepth 20000 in
/-- The selector is delivered, and with it all that was written for the second
queue is taken for seen; the first queue's words are gone. -/
theorem unseenInit_scan :
    ∃ u f, (pollWriteRegisters pageSizes (condFabricInitDevice 1) writeOffsets unseenInit).run
      UioFabric.answer blankFabric = (.ok (u, true), f) ∧
    (∀ r ∈ writeOffsets, u.shadow r = u.window r.offset) ∧
    u.dev.mmio.vdev.status = u.window MmioReg.status.offset ∧
    u.dev.mmio.vdev.status = 15 ∧ u.dev.mmio.vdev.driverFeatures = 0 ∧
    u.dev.mmio.vdev.queues = [resetQueue 256, resetQueue 256] :=
  ⟨_, _, rfl, by decide, by rfl, by rfl, by rfl, by rfl⟩

/-- The daemon sleeps until the driver has finished, and makes two passes. -/
theorem late_daemon_loses_queues : ∃ s,
    (startupLts pageSizes (condFabricInitDevice 1) condConnect consoleInit).Reachable s ∧
    s.front = ⟨[], []⟩ ∧ s.daemon.pc = .idle ∧ s.passes = 2 ∧ s.daemon.uio.dev.mmio.vdev.status = 15 ∧
    s.daemon.uio.dev.mmio.vdev.driverFeatures = 0 ∧
    s.daemon.uio.dev.mmio.vdev.queues = [resetQueue 256, resetQueue 256] := by
  have h0 : (startupLts pageSizes (condFabricInitDevice 1) condConnect consoleInit).Reachable
      (startupStart pageSizes (condFabricInitDevice 1) condConnect consoleInit blankFabric) :=
    ⟨_, [], ⟨blankFabric, rfl⟩, .nil _⟩
  have hwritten : (startupLts pageSizes (condFabricInitDevice 1) condConnect consoleInit).Reachable
      ⟨⟨unseenInit, blankFabric, .idle⟩, ⟨[], []⟩, 0⟩ := sleep_reachable rfl consoleInit.writes h0
  obtain ⟨u, f, hscan, hshadow, hst, hstatus, hfeatures, hqueues⟩ := unseenInit_scan
  obtain ⟨u₁, hpass, hinv, hdev⟩ := uioPass_run rfl hscan hshadow hst
  obtain ⟨u₂, ⟨-, hdev₂⟩, hsecond⟩ : ∃ u₂, (MirrorInv u₂ ∧ u₂.dev = u₁.dev) ∧
      (startupLts pageSizes (condFabricInitDevice 1) condConnect consoleInit).Path Timely
        ⟨⟨u₁, f, .idle⟩, ⟨[], []⟩, 1⟩ ⟨⟨u₂, f, .idle⟩, ⟨[], []⟩, 2⟩ := quiet_path rfl hinv f ⟨[], []⟩ 1
  have hdev : u₂.dev = u.dev := hdev₂.trans hdev
  refine ⟨_, hsecond.reachable ((pass_path hpass ⟨[], []⟩ 0).reachable hwritten), rfl, rfl, rfl, ?_, ?_, ?_⟩
  · rw [hdev, hstatus]
  · rw [hdev, hfeatures]
  · rw [hdev, hqueues]

end AcsVirt.L4
