import AcsVirt.L4Device.Kick

/-!
# Barrier writes in UIO mode

A guest write that `axi_uio_write` announces synchronously ends when
`axi_wait_for_notify_ack` reads an acknowledgement. The machine is that of
`L4Device/Kick.lean`, with the notify policy as a parameter, guest reads
(which wait too under `notify-policy=all`), and a write taken apart: first the
store to the shared window, then its announcement.

Acknowledgements carry no number, so a wait takes the first one it meets. When
the daemon has sent one that is still on its way, or is about to send one for
a pass that has gone by the register, the barrier does not hold
(`stale_ack_ends_wait`). Otherwise it does: `barrier_waits`.
-/
namespace AcsVirt.L4

open L2 L2.MmioReg

structure BarrierState where
  parties : KickState
  /-- A guest write that is in the window and not announced yet. -/
  stored : Option UInt64

inductive BarrierAct where
  | store (addr : UInt64) (value : UInt32)
  | announce
  | read
  | party (a : KickAct)

/-- The guest accesses words, one at a time; the frontend's socket handler
does not run inside an access.
mirrors patches/qemu/0001-chiplets-qemu-support.patch:787-844 -/
def barrierStep (pol : NotifyPolicy) (z : UioSizes) (s : BarrierState) :
    BarrierAct → Option BarrierState
  | .store addr value =>
    if s.parties.slave.waiting ∨ s.stored.isSome ∨ addr % 4 ≠ 0 then none
    else some ⟨{ s.parties with uio := { s.parties.uio with
      window := axiUioWrite z.mmioSize s.parties.uio.window addr value } }, some addr⟩
  | .announce => s.stored.map fun addr =>
    ⟨{ s.parties with toAxiFrontend := axiUioNotify ⟨pol, true⟩ s.parties.toAxiFrontend addr }, none⟩
  | .read =>
    if s.parties.slave.waiting ∨ s.stored.isSome then none
    else if pol = .all then
      some ⟨{ s.parties with toAxiFrontend := axiUioNotifyBackend s.parties.toAxiFrontend }, none⟩
    else some s
  | .party (.guestWrite _ _) => none
  | .party .slaveRead =>
    if s.stored.isSome then none else (kickStep z s.parties .slaveRead).map (⟨·, s.stored⟩)
  | .party a => (kickStep z s.parties a).map (⟨·, s.stored⟩)

def barrierLts (pol : NotifyPolicy) (z : UioSizes) : LTS BarrierState BarrierAct where
  init s := ∃ dev w, s = ⟨kickStart z dev w, none⟩
  step s a s' := barrierStep pol z s a = some s'

/-- A store and its announcement are the guest write of `kickStep`. -/
theorem store_announce {z : UioSizes} {k : KickState} (hk : k.slave.waiting = false) (r : MmioReg)
    (value : UInt32) :
    ((barrierStep .barrier z ⟨k, none⟩ (.store r.offset value)).bind fun s =>
      barrierStep .barrier z s .announce) =
      (kickStep z k (.guestWrite r value)).map (⟨·, none⟩) := by
  have hoff : r.offset % 4 = 0 := by cases r <;> rfl
  simp [barrierStep, kickStep, hk, hoff]

/-! ## When a write is examined -/

/-- The daemon looks at `r`, and ends the same pass by publishing its registers. -/
def Passed (z : UioSizes) (r : MmioReg) (tr : List (BarrierState × BarrierAct)) : Prop :=
  ∃ a s₁ b s₂ dev c, tr = a ++ (s₁, .party .load) :: (b ++ (s₂, .party (.refresh dev)) :: c) ∧
    z.fits r.offset = true ∧ (∃ rest, s₁.parties.daemon = .scan (r :: rest)) ∧
    ∀ p ∈ b, p.1.parties.daemon ≠ .blocked

/-- No acknowledgement comes before the daemon has looked at `r`: none is on
its way, and the daemon will not send one for a pass that has gone by `r`. -/
def NoStaleAck (r : MmioReg) (s : KickState) : Prop :=
  .frontendNotifyAck ∉ s.toSlave ∧
    match s.daemon with
    | .blocked => True
    | .scan rest | .loaded _ _ rest | .dispatch _ _ rest => r ∈ rest
    | .refreshed => s.pendingIrqLevel = none

/-- The daemon is in a pass that has looked at the register. -/
def Looked (s : KickState) : Prop :=
  .frontendNotifyAck ∉ s.toSlave ∧
    match s.daemon with
    | .scan _ | .loaded .. | .dispatch .. => True
    | .blocked | .refreshed => False

section
variable {pol : NotifyPolicy} {z : UioSizes} {s s' : BarrierState} {k k' : KickState}

/-- What a step does to the daemon and to the messages for the slave. -/
inductive DaemonStep (k k' : KickState) : BarrierAct → Prop
  | outside {a : BarrierAct} : k'.daemon = k.daemon → k'.pendingIrqLevel = k.pendingIrqLevel →
      k'.toSlave ⊆ k.toSlave → DaemonStep k k' a
  | wake : k'.daemon = .scan writeOffsets → k'.toSlave = k.toSlave → DaemonStep k k' (.party .wake)
  | skip {r : MmioReg} {rest : List MmioReg} : k.daemon = .scan (r :: rest) → k'.daemon = .scan rest →
      k'.toSlave = k.toSlave → DaemonStep k k' (.party .load)
  | load {r : MmioReg} {v : UInt32} {rest : List MmioReg} : k.daemon = .scan (r :: rest) →
      k'.daemon = .loaded r v rest → k'.toSlave = k.toSlave → DaemonStep k k' (.party .load)
  | consume {r : MmioReg} {v : UInt32} {rest : List MmioReg} : k.daemon = .loaded r v rest →
      k'.daemon = .dispatch r v rest → k'.toSlave = k.toSlave → DaemonStep k k' (.party .consume)
  | answer {r : MmioReg} {v : UInt32} {rest : List MmioReg} {level : Bool} : k.daemon = .dispatch r v rest →
      k'.daemon = .scan rest → k'.toSlave = k.toSlave → DaemonStep k k' (.party (.answer level))
  | refresh {dev : FabricDevice Unit} : k.daemon = .scan [] → DaemonStep k k' (.party (.refresh dev))
  | quiet : k.daemon = .refreshed → k'.daemon = .blocked → k'.toSlave = k.toSlave → DaemonStep k k' (.party .flush)
  | ack {level : Bool} : k.daemon = .refreshed → k.pendingIrqLevel = some level → DaemonStep k k' (.party .flush)

theorem KickStep.daemon {b : KickAct} (hs : KickStep z k b k') (hb : ∀ r v, b ≠ .guestWrite r v) :
    DaemonStep k k' (.party b) := by
  cases hs with
  | guestWrite r v => exact absurd rfl (hb r v)
  | @masterRead m ms hm => cases m <;> exact .outside rfl rfl (List.Subset.refl _)
  | slaveRead hm | waitRead hm => exact .outside rfl rfl (hm ▸ List.subset_cons_self _ _)
  | timeout => exact .outside rfl rfl (List.Subset.refl _)
  | wake => exact .wake rfl rfl
  | skip hd => exact .skip hd rfl rfl
  | load hd => exact .load hd rfl rfl
  | consume hd => exact .consume hd rfl rfl
  | answer level hd => exact .answer hd rfl rfl
  | refresh dev hd => exact .refresh hd
  | quiet hd => exact .quiet hd rfl rfl
  | flush hd hl => exact .ack hd hl

/-- A step of the guest is outside the daemon; every other one is a step of `kickStep`. -/
theorem barrierStep_daemon {a : BarrierAct} (hs : barrierStep pol z s a = some s') :
    DaemonStep s.parties s'.parties a := by
  cases a with
  | store addr value =>
    simp only [barrierStep, Option.ite_none_left_eq_some, Option.some.injEq] at hs
    obtain ⟨_, rfl⟩ := hs
    exact .outside rfl rfl (List.Subset.refl _)
  | announce =>
    obtain ⟨addr, _, rfl⟩ := Option.map_eq_some_iff.1 hs
    exact .outside rfl rfl (List.Subset.refl _)
  | read =>
    simp only [barrierStep] at hs
    split at hs
    · cases hs
    · split at hs <;> cases hs <;> exact .outside rfl rfl (List.Subset.refl _)
  | party b =>
    cases b with
    | guestWrite r v => cases hs
    | slaveRead =>
      simp only [barrierStep, Option.ite_none_left_eq_some] at hs
      obtain ⟨_, hs⟩ := hs
      obtain ⟨k, hk, rfl⟩ := Option.map_eq_some_iff.1 hs
      exact (kickStep_inv hk).daemon nofun
    | _ =>
      obtain ⟨k, hk, rfl⟩ := Option.map_eq_some_iff.1 hs
      exact (kickStep_inv hk).daemon nofun

/-- The daemon looks at `r`. -/
def LooksAt (r : MmioReg) (s : BarrierState) (a : BarrierAct) : Prop :=
  a = .party .load ∧ ∃ rest, s.parties.daemon = .scan (r :: rest)

/-- Until the daemon looks at `r`. -/
theorem NoStaleAck.step {r : MmioReg} (hr : r ∈ writeOffsets) (h : NoStaleAck r s.parties)
    {a : BarrierAct} (hs : DaemonStep s.parties k' a) (hne : ¬ LooksAt r s a) :
    NoStaleAck r k' := by
  obtain ⟨hack, hd⟩ := h
  -- a step over the head of the scan is over another register
  have hskip : ∀ {r' : MmioReg} {rest : List MmioReg}, s.parties.daemon = .scan (r' :: rest) →
      a = .party .load → r ∈ rest := by
    intro r' rest h1 ha
    rw [h1] at hd
    exact (List.mem_cons.1 hd).resolve_left fun he => hne ⟨ha, rest, he ▸ h1⟩
  cases hs with
  | outside h1 h2 h3 => exact ⟨fun h => hack (h3 h), by rw [h1, h2]; exact hd⟩
  | wake h1 h2 => exact ⟨h2 ▸ hack, by rw [h1]; exact hr⟩
  | skip h1 h2 h3 | load h1 h2 h3 => exact ⟨h3 ▸ hack, by rw [h2]; exact hskip h1 rfl⟩
  | consume h1 h2 h3 | answer h1 h2 h3 =>
    rw [h1] at hd
    exact ⟨h3 ▸ hack, by rw [h2]; exact hd⟩
  | refresh h1 =>
    rw [h1] at hd
    cases hd
  | quiet h1 h2 h3 => exact ⟨h3 ▸ hack, by rw [h2]; trivial⟩
  | ack h1 h2 =>
    rw [h1, h2] at hd
    cases hd

theorem NoStaleAck.looked {r : MmioReg} (h : NoStaleAck r s.parties) {a : BarrierAct}
    (hs : DaemonStep s.parties k' a) (hl : LooksAt r s a) : Looked k' := by
  obtain ⟨rfl, rest, hd⟩ := hl
  cases hs with
  | outside h1 _ h3 => exact ⟨fun hm => h.1 (h3 hm), by rw [h1, hd]; trivial⟩
  | skip _ h2 h3 | load _ h2 h3 => exact ⟨h3 ▸ h.1, by rw [h2]; trivial⟩

/-- From there on until the pass ends. -/
theorem Looked.step (h : Looked k) {a : BarrierAct} (hs : DaemonStep k k' a)
    (hne : ∀ dev, a ≠ .party (.refresh dev)) : Looked k' := by
  obtain ⟨hack, hd⟩ := h
  cases hs with
  | outside h1 _ h3 => exact ⟨fun h => hack (h3 h), by rw [h1]; exact hd⟩
  | wake h1 h2 => exact ⟨h2 ▸ hack, by rw [h1]; trivial⟩
  | skip _ h2 h3 | load _ h2 h3 | consume _ h2 h3 | answer _ h2 h3 =>
    exact ⟨h3 ▸ hack, by rw [h2]; trivial⟩
  | refresh => exact absurd rfl (hne _)
  | quiet h1 | ack h1 =>
    rw [h1] at hd
    cases hd

end

/-! ## Whole runs -/

/-- **A barrier write is a barrier, given a fresh start.** In any run, after a
write to a register of the scan that finds no stale acknowledgement, no
acknowledgement ends a wait (its own, if it waits, or a later one) before the
daemon has made a pass that looked at the register after the store. -/
theorem barrier_waits (pol : NotifyPolicy) (z : UioSizes) (hz : z.devSize = 0x200)
    {s s' : BarrierState} {tr : List (BarrierState × BarrierAct)}
    (h : (barrierLts pol z).Trace s tr s') {pre mid post : List (BarrierState × BarrierAct)}
    {s₁ s₂ : BarrierState} {r : MmioReg} {value : UInt32}
    (htr : tr = pre ++ (s₁, .store r.offset value) :: (mid ++ (s₂, .party .waitRead) :: post))
    (hr : r ∈ writeOffsets) (hfresh : NoStaleAck r s₁.parties)
    (hack : s₂.parties.toSlave.head? = some .frontendNotifyAck) :
    Passed z r mid := by
  subst htr
  have hack' : .frontendNotifyAck ∈ s₂.parties.toSlave := List.mem_of_mem_head? hack
  obtain ⟨m, -, h⟩ := h.split
  cases h with
  | cons hs h =>
    obtain ⟨m', hmid, h⟩ := h.split
    cases h with
    | cons _ _ =>
      have hstart := hfresh.step hr (barrierStep_daemon hs) fun h => nomatch h.1
      -- first to the load, then to the end of that pass
      obtain h | ⟨a, x, l, y, rest, rfl, -, hx, hl, hs₁, hrest⟩ :=
        hmid.until (A := fun s => NoStaleAck r s.parties) (E := LooksAt r)
          (fun _ _ _ ha hs hne => ha.step hr (barrierStep_daemon hs) hne) hstart
      · exact absurd hack' h.1
      obtain h | ⟨b, u, l', v, c, rfl, hb, -, ⟨dev, rfl⟩, -, -⟩ :=
        hrest.until (A := fun s => Looked s.parties) (E := fun _ l => ∃ dev, l = .party (.refresh dev))
          (fun _ _ _ ha hs hne => ha.step (barrierStep_daemon hs) fun dev e => hne ⟨dev, e⟩)
          (hx.looked (barrierStep_daemon hs₁) hl)
      · exact absurd hack' h.1
      obtain ⟨rfl, hd⟩ := hl
      refine ⟨a, x, b, u, dev, c, rfl, (fits_offset hz r).2, hd, fun p hp he => ?_⟩
      have := (hb p hp).2
      rw [he] at this
      exact this

/-- The wait for an interrupt acknowledgement, up to the message that ends it. -/
def ackAndPass : List BarrierAct :=
  [.announce, .party .masterRead, .party .wake] ++ List.replicate 13 (.party .load) ++
    [.party .consume, .party (.answer false), .party .load, .party .load, .party (.refresh connectedBlkd),
      .party .flush, .party .waitRead]

theorem barrier_waits_ack : ∃ s₁ mid s₂ s', (barrierLts .barrier pageSizes).Trace s₁
      ((s₁, .store MmioReg.interruptAck.offset 1) :: (mid ++ [(s₂, .party .waitRead)])) s' ∧
    NotifyPolicy.barrier.waits MmioReg.interruptAck.offset = true ∧ NoStaleAck .interruptAck s₁.parties ∧
    s₂.parties.toSlave.head? = some .frontendNotifyAck ∧ Passed pageSizes .interruptAck mid := by
  have hex : ∃ s ∈ LTS.exec (barrierStep .barrier pageSizes)
      ⟨kickStart pageSizes connectedBlkd fun _ => 0, none⟩ (.store MmioReg.interruptAck.offset 1 :: ackAndPass),
      s.parties.slave.waiting = true ∧ s.parties.toSlave = [.frontendNotifyAck] := by decide
  obtain ⟨s₂, he, hw, ht⟩ := hex
  obtain ⟨tr, htr, hl⟩ := LTS.exec_trace (M := barrierLts .barrier pageSizes) (fun _ _ _ h => h) he
  obtain ⟨s', hlast⟩ : ∃ s', barrierStep .barrier pageSizes s₂ (.party .waitRead) = some s' :=
    ⟨_, by simp [barrierStep, kickStep, hw, ht]; rfl⟩
  cases htr with
  | nil => cases hl
  | @cons _ m _ l mid hs htr =>
    rw [List.map_cons, List.cons.injEq] at hl
    obtain ⟨rfl, hl⟩ := hl
    have hfresh : NoStaleAck .interruptAck (kickStart pageSizes connectedBlkd fun _ => 0) := ⟨by decide, trivial⟩
    have h := (LTS.Trace.cons hs htr).append (.cons hlast (.nil _))
    refine ⟨_, mid, s₂, s', h, by decide, hfresh, by rw [ht]; rfl, ?_⟩
    exact barrier_waits .barrier pageSizes rfl h
      (show _ = [] ++ (_, .store MmioReg.interruptAck.offset 1) :: (mid ++ (s₂, .party .waitRead) :: []) from rfl)
      (by decide) hfresh (by rw [ht]; rfl)

/-! ## A stale acknowledgement -/

/-- A kick and the pass that answers it. The acknowledgement is left on the socket. -/
def kickAndPass : List BarrierAct :=
  [.store MmioReg.queueNotify.offset 0, .announce, .party .masterRead, .party .wake] ++
    List.replicate 14 (.party .load) ++
    [.party .consume, .party (.answer false), .party .load, .party (.refresh connectedBlkd), .party .flush]

/-- A guest access is in progress. -/
def Busy (s : BarrierState) : Prop := s.stored.isSome = true ∨ s.parties.slave.waiting = true

/-- `STATUS` is written right after: the wait for it ends with the
acknowledgement of the kick, while the daemon sleeps. -/
theorem stale_ack_ends_wait : ∃ s pre s₁ mid s₂ s', (barrierLts .barrier pageSizes).init s ∧
    (barrierLts .barrier pageSizes).Trace s
      (pre ++ (s₁, .store MmioReg.status.offset 1) :: (mid ++ [(s₂, .party .waitRead)])) s' ∧
    NotifyPolicy.barrier.waits MmioReg.status.offset = true ∧ (∀ p ∈ mid, Busy p.1) ∧ Busy s₂ ∧
    s₂.parties.toSlave.head? = some .frontendNotifyAck ∧ ¬ Busy s' ∧ ¬ Passed pageSizes .status mid := by
  have hex : ∃ s ∈ LTS.exec (barrierStep .barrier pageSizes)
      ⟨kickStart pageSizes connectedBlkd fun _ => 0, none⟩ kickAndPass,
      s.parties.slave.waiting = false ∧ s.stored = none ∧
      s.parties.toSlave = [.frontendIrqDeassert, .frontendNotifyAck] := by decide
  obtain ⟨⟨⟨⟨⟨f, w, irq⟩, m⟩, t, p, d, u, l⟩, st⟩, he, hw, hst, ht⟩ := hex
  obtain ⟨pre, hpre, -⟩ := LTS.exec_trace (M := barrierLts .barrier pageSizes) (fun _ _ _ h => h) he
  cases hw
  cases hst
  cases ht
  refine ⟨_, pre, _, [(_, .announce), (_, .party .waitRead)], _, _, ⟨connectedBlkd, fun _ => 0, rfl⟩,
    hpre.append (.cons rfl (.cons rfl (.cons rfl (.cons rfl (.nil _))))), rfl, ?_, .inr rfl, rfl, ?_, ?_⟩
  · intro p hp
    simp only [List.mem_cons, List.not_mem_nil, or_false] at hp
    rcases hp with rfl | rfl
    · exact .inl rfl
    · exact .inr rfl
  · rintro (h | h) <;> cases h
  · rintro ⟨a, x, b, y, dev, c, htr, -⟩
    have hm : (x, BarrierAct.party .load) ∈ a ++ (x, .party .load) :: (b ++ (y, .party (.refresh dev)) :: c) := by simp
    rw [← htr] at hm
    simp at hm

end AcsVirt.L4
