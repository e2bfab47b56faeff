import AcsVirt.L4Device.Doorbell

/-!
# The runs of the coarser machines

`Kick`, `Barrier` and `Doorbell` describe the same parties in more and more
steps: a guest write of `Kick` is a store and an announcement of `Barrier`, and
the interrupt flag of both is the handler, the counter and the enable of
`Doorbell`. Every run of a coarser machine is a run of the finer one, step by
step (`kick_in_barrier`, `barrier_in_bell`).

So what goes wrong in a coarse run goes wrong in a fine one: with
`notify-policy=barrier` and `notify-ack=on` a running daemon that is not deaf
misses a kick (`bell_loses_kick`), and `doorbell_rings` needs every kick to be
announced.
-/
namespace AcsVirt.L4

open L2 L2.MmioReg

/-! ## Guest writes taken apart -/

/-- The guest writes inside the window. -/
def StoresInside (z : UioSizes) (_ : BarrierState) : BarrierAct → Prop
  | .store addr _ => addr + 4 ≤ z.mmioSize
  | _ => True

section
variable {z : UioSizes} {k k' : KickState}

theorem kickStep_in_barrier (hz : z.devSize = 0x200) {a : KickAct} (hs : kickStep z k a = some k') :
    (barrierLts .barrier z).Path (StoresInside z) ⟨k, none⟩ ⟨k', none⟩ := by
  by_cases hg : ∃ r value, a = .guestWrite r value
  · obtain ⟨r, value, rfl⟩ := hg
    have hw : k.slave.waiting = false := by
      cases kickStep_inv hs with
      | guestWrite _ _ hw => exact hw
    have hboth := store_announce hw r value (z := z)
    rw [hs] at hboth
    obtain ⟨m, hstore, hann⟩ := Option.bind_eq_some_iff.1 hboth
    have hfirst : (barrierLts .barrier z).Path (StoresInside z) ⟨k, none⟩ m :=
      (LTS.Path.refl _).tail hstore (fits_offset hz r).1
    exact hfirst.tail hann trivial
  · have hstep : barrierStep .barrier z ⟨k, none⟩ (.party a) = some ⟨k', none⟩ := by
      cases a with
      | guestWrite r value => exact absurd ⟨r, value, rfl⟩ hg
      | _ => simp [barrierStep, hs]
    exact (LTS.Path.refl _).tail hstep trivial

/-- A run of `Kick` is one of `Barrier`, with every write inside the window. -/
theorem kick_in_barrier (hz : z.devSize = 0x200) {acts : List KickAct} (h : (kickLts z).Run k acts k') :
    (barrierLts .barrier z).Path (StoresInside z) ⟨k, none⟩ ⟨k', none⟩ := by
  induction h with
  | nil => exact .refl _
  | cons hs _ ih => exact (kickStep_in_barrier hz hs).append ih

end

/-! ## The interrupt taken apart -/

/-- An interrupt that `Kick` has as this flag: enabled with nothing to read, or
disabled with an event to read. -/
inductive Settled (core : IrqCore) (u : ChipletsUio) : Bool → Prop
  | ready : u.irqEnabled = true → u.depth = 0 → u.latched = false → u.handler = .idle → u.event = u.listener →
      Settled core u false
  | due : u.irqEnabled = false → u.depth = core.disable 0 → u.latched = false → u.handler = .idle →
      u.event ≠ u.listener → Settled core u true

/-- The daemon of `Kick` between its passes is in its `read`. -/
def Daemon.bell : Daemon → BellDaemon
  | .blocked => .reading
  | .scan rest => .scan rest
  | .loaded r value rest => .loaded r value rest
  | .dispatch r value rest => .dispatch r value rest
  | .refreshed => .refreshed

/-- A state of `Barrier` with an interrupt. -/
def BarrierState.bell (s : BarrierState) (irq : ChipletsUio) : BellState where
  toAxiFrontend := s.parties.toAxiFrontend
  stored := s.stored
  toSlave := s.parties.toSlave
  irq := irq
  daemon := s.parties.daemon.bell
  uio := s.parties.uio
  pendingIrqLevel := s.parties.pendingIrqLevel

/-- A run of `Doorbell`, of any steps. -/
abbrev BellPath (core : IrqCore) (pol : NotifyPolicy) (z : UioSizes) : BellState → BellState → Prop :=
  (bellLts core ⟨pol, true⟩ z).Path fun _ _ => True

section
variable {core : IrqCore} {pol : NotifyPolicy} {z : UioSizes} {s s' : BarrierState} {irq : ChipletsUio}

/-- A pulse that finds the interrupt ready runs its handler; one that finds it
disabled may be lost. -/
theorem pulse_in_bell (pol : NotifyPolicy) (z : UioSizes) {b : BellState} {pending : Bool} (hb : b.irq = irq.pulse false)
    (hi : Settled core irq pending) :
    ∃ irq', BellPath core pol z b { b with irq := irq' } ∧ Settled core irq' true := by
  cases hi with
  | ready he hd hl hh hev =>
    have hp : b.irq = { irq with handler := .entered } := by rw [hb, ChipletsUio.pulse, if_pos ⟨hd, hh⟩]
    have hlock : bellStep core ⟨pol, true⟩ z b .lock = some { b with irq := b.irq.lock core } :=
      if_pos (by rw [hp])
    have hnotify : bellStep core ⟨pol, true⟩ z { b with irq := b.irq.lock core } .eventNotify =
        some { b with irq := (b.irq.lock core).eventNotify core } := rfl
    refine ⟨_, ((LTS.Path.refl b).tail hlock trivial).tail hnotify trivial, ?_⟩
    rw [hp]
    refine .due ?_ ?_ ?_ ?_ ?_
    all_goals simp [ChipletsUio.lock, ChipletsUio.eventNotify, ChipletsUio.chipletsUioIrq,
      ChipletsUio.disableIrqNosync, he, hd, hl, hev]
  | due he hd hl hh hev =>
    have hp : b.irq = irq := by
      rw [hb, ChipletsUio.pulse, if_neg (by simp [hd]), Bool.or_false]
    exact ⟨b.irq, .refl b, hp ▸ .due he hd hl hh hev⟩

/-- The daemon's `read` and its enable are the wake of `Kick`. -/
theorem wake_in_bell {b : BellState} (hb : b.daemon = .reading) (hi : Settled core b.irq true) :
    ∃ irq', BellPath core pol z b { b with irq := irq', daemon := .scan writeOffsets } ∧ Settled core irq' false := by
  cases hi with
  | due he hd hl hh hev =>
    have hread : bellStep core ⟨pol, true⟩ z b .wake = some { b with irq := b.irq.readEvent, daemon := .enabling } :=
      if_pos ⟨hb, hev⟩
    have henable : bellStep core ⟨pol, true⟩ z { b with irq := b.irq.readEvent, daemon := .enabling } .enable =
        some { b with irq := b.irq.readEvent.chipletsUioIrqcontrol core 1, daemon := .scan writeOffsets } := rfl
    refine ⟨_, ((LTS.Path.refl b).tail hread trivial).tail henable trivial, ?_⟩
    refine .ready ?_ ?_ ?_ ?_ ?_
    all_goals simp [ChipletsUio.readEvent, ChipletsUio.chipletsUioIrqcontrol, ChipletsUio.enableIrq, he, hd, hl, hh]

/-- A step of the parties. -/
theorem party_in_bell {k k' : KickState} {st : Option UInt64} {a : KickAct} (hs : kickStep z k a = some k')
    (ha : ∀ r value, a ≠ .guestWrite r value) (hst : a = .slaveRead → st = none)
    (hi : Settled core irq k.uioPending) :
    ∃ irq', BellPath core pol z (BarrierState.bell ⟨k, st⟩ irq) (BarrierState.bell ⟨k', st⟩ irq') ∧
      Settled core irq' k'.uioPending := by
  -- most steps are one step and leave the interrupt alone
  have hone : ∀ b : BellAct, bellStep core ⟨pol, true⟩ z (BarrierState.bell ⟨k, st⟩ irq) b =
      some (BarrierState.bell ⟨k', st⟩ irq) → k'.uioPending = k.uioPending →
      ∃ irq', BellPath core pol z (BarrierState.bell ⟨k, st⟩ irq) (BarrierState.bell ⟨k', st⟩ irq') ∧
        Settled core irq' k'.uioPending :=
    fun b hb hp => ⟨irq, (LTS.Path.refl _).tail hb trivial, hp ▸ hi⟩
  cases kickStep_inv hs with
  | guestWrite r value => exact absurd rfl (ha r value)
  | @masterRead m ms hm =>
    have hread : bellStep core ⟨pol, true⟩ z (BarrierState.bell ⟨k, st⟩ irq) (.masterRead false) =
        some { BarrierState.bell ⟨k, st⟩ irq with toMaster := ms, irq := masterIrq false irq m } := by
      simp [bellStep, BarrierState.bell, hm]
    have hpulse : masterIrq false irq m = irq.pulse false → ∃ irq',
        BellPath core pol z (BarrierState.bell ⟨k, st⟩ irq)
          { BarrierState.bell ⟨k, st⟩ irq with toMaster := ms, irq := irq' } ∧ Settled core irq' true := by
      intro hb
      obtain ⟨irq', hpath, hi'⟩ := pulse_in_bell pol z
        (b := { BarrierState.bell ⟨k, st⟩ irq with toMaster := ms, irq := masterIrq false irq m }) hb hi
      exact ⟨irq', ((LTS.Path.refl _).tail hread trivial).append hpath, hi'⟩
    cases m with
    | frontendNotify | frontendIrqAssert => exact hpulse rfl
    | frontendIrqDeassert | frontendNotifyAck => exact hone (.masterRead false) hread rfl
  | slaveRead hm hw => exact hone .slaveRead (by simp [bellStep, BarrierState.bell, hm, hw, hst rfl]) rfl
  | waitRead hm hw => exact hone .waitRead (by simp [bellStep, BarrierState.bell, hm, hw]) rfl
  | timeout hw => exact hone .timeout (by simp [bellStep, BarrierState.bell, hw]) rfl
  | wake hd hp =>
    rw [hp] at hi
    exact wake_in_bell (congrArg Daemon.bell hd) hi
  | skip hd hv | load hd hv => exact hone .load (by simp [bellStep, BarrierState.bell, Daemon.bell, hd, hv]) rfl
  | consume hd => exact hone .consume (by simp [bellStep, BarrierState.bell, Daemon.bell, hd]) rfl
  | answer level hd => exact hone (.answer level) (by simp [bellStep, BarrierState.bell, Daemon.bell, hd]) rfl
  | refresh dev hd => exact hone (.refresh dev) (by simp [bellStep, BarrierState.bell, Daemon.bell, hd]) rfl
  | quiet hd hp => exact hone .flush (by simp [bellStep, BarrierState.bell, Daemon.bell, hd, hp]) rfl
  | flush hd hp =>
    have hfit : ¬z.mmioSize < uioIrqControlOffset + 4 := by
      intro hlt
      simp [kickStep, hd, hp, hlt] at hs
    exact hone .flush (by simp [bellStep, BarrierState.bell, Daemon.bell, hd, hp, hfit]) rfl

/-- A step of `Barrier` is one or more steps of `Doorbell`. -/
theorem barrierStep_in_bell {a : BarrierAct} (hs : barrierStep pol z s a = some s') (hin : StoresInside z s a)
    (hi : Settled core irq s.parties.uioPending) :
    ∃ irq', BellPath core pol z (s.bell irq) (s'.bell irq') ∧ Settled core irq' s'.parties.uioPending := by
  cases a with
  | store addr value =>
    simp only [barrierStep, Option.ite_none_left_eq_some, Option.some.injEq, not_or] at hs
    obtain ⟨⟨hw, hst, haddr⟩, rfl⟩ := hs
    have hstep : bellStep core ⟨pol, true⟩ z (s.bell irq) (.store addr value) = some (BarrierState.bell ⟨{ s.parties with
        uio := { s.parties.uio with window := axiUioWrite z.mmioSize s.parties.uio.window addr value } }, some addr⟩ irq) := by
      simp [bellStep, BarrierState.bell, hw, hst, haddr, UInt64.not_lt.2 hin]
    exact ⟨irq, (LTS.Path.refl _).tail hstep trivial, hi⟩
  | announce =>
    obtain ⟨addr, hst, rfl⟩ := Option.map_eq_some_iff.1 hs
    have hstep : bellStep core ⟨pol, true⟩ z (s.bell irq) .announce = some (BarrierState.bell ⟨{ s.parties with
        toAxiFrontend := axiUioNotify ⟨pol, true⟩ s.parties.toAxiFrontend addr }, none⟩ irq) := by
      simp [bellStep, BarrierState.bell, hst]
    exact ⟨irq, (LTS.Path.refl _).tail hstep trivial, hi⟩
  | read =>
    simp only [barrierStep, Option.ite_none_left_eq_some, not_or] at hs
    obtain ⟨⟨hw, hst⟩, hs⟩ := hs
    have hst : s.stored = none := by simpa using hst
    split at hs
    next hall =>
      cases hs
      have hstep : bellStep core ⟨pol, true⟩ z (s.bell irq) .read = some (BarrierState.bell ⟨{ s.parties with
          toAxiFrontend := axiUioNotifyBackend s.parties.toAxiFrontend }, none⟩ irq) := by
        simp [bellStep, BarrierState.bell, hw, hst, hall]
      exact ⟨irq, (LTS.Path.refl _).tail hstep trivial, hi⟩
    next hall =>
      cases hs
      exact ⟨irq, .refl _, hi⟩
  | party b =>
    cases b with
    | guestWrite r value => cases hs
    | slaveRead =>
      simp only [barrierStep, Option.ite_none_left_eq_some] at hs
      obtain ⟨hst, hs⟩ := hs
      obtain ⟨k, hk, rfl⟩ := Option.map_eq_some_iff.1 hs
      exact party_in_bell hk (by simp) (fun _ => by simpa using hst) hi
    | _ =>
      obtain ⟨k, hk, rfl⟩ := Option.map_eq_some_iff.1 hs
      exact party_in_bell hk (by simp) (by simp) hi

/-- A run of `Barrier` with its writes inside the window is one of `Doorbell`. -/
theorem barrier_in_bell (h : (barrierLts pol z).Path (StoresInside z) s s')
    (hi : Settled core irq s.parties.uioPending) :
    ∃ irq', BellPath core pol z (s.bell irq) (s'.bell irq') ∧ Settled core irq' s'.parties.uioPending := by
  obtain ⟨tr, h, hc⟩ := h
  induction h generalizing irq with
  | nil => exact ⟨irq, .refl _, hi⟩
  | cons hs _ ih =>
    obtain ⟨irq₁, h₁, hi₁⟩ := barrierStep_in_bell hs (hc _ List.mem_cons_self) hi
    obtain ⟨irq₂, h₂, hi₂⟩ := ih hi₁ fun p hp => hc p (List.mem_cons_of_mem _ hp)
    exact ⟨irq₂, h₁.append h₂, hi₂⟩

end

/-- A state that `Barrier` starts in is reached by the start of a daemon. -/
theorem start_in_bell (core : IrqCore) (pol : NotifyPolicy) (z : UioSizes) (dev : FabricDevice Unit) (w : Window) :
    (bellLts core ⟨pol, true⟩ z).Reachable (BarrierState.bell ⟨kickStart z dev w, none⟩ .registered) :=
  ⟨_, [.start dev], ⟨w, rfl⟩, .cons rfl (.nil _)⟩

/-- A kick in the window that nobody will look at, although the daemon runs and
is not deaf: the flag is stuck, and the kick was not announced. -/
theorem bell_loses_kick (core : IrqCore) :
    ∃ b, (bellLts core ⟨.barrier, true⟩ pageSizes).Reachable b ∧ b.daemon = .reading ∧ ¬Deaf core b ∧
      KickPending b.view ∧ ¬b.Covered := by
  obtain ⟨k, acts, hrun, hk, hstuck⟩ := one_scan_sticks
  have hstart : Settled core .registered (kickStart pageSizes connectedBlkd fun _ => 0).uioPending :=
    .ready rfl rfl rfl rfl rfl
  obtain ⟨irq, hpath, hi⟩ := barrier_in_bell (kick_in_barrier rfl hrun) hstart
  have hflag : k.uioPending = false := hstuck.uioPending
  have hi : Settled core irq k.uioPending := hi
  rw [hflag] at hi
  have hd : (BarrierState.bell ⟨k, none⟩ irq).daemon = .reading := congrArg Daemon.bell hstuck.daemon
  refine ⟨_, hpath.reachable (start_in_bell core .barrier pageSizes connectedBlkd _), hd, fun hdeaf => ?_, hk, ?_⟩
  · cases hi with
    | ready he => exact Bool.noConfusion (he.symm.trans hdeaf.masked.disabled)
  · rintro (hst | hmsg | hwakes | hahead)
    · cases hst
    · have hmsg : .frontendNotify ∈ k.toMaster := hmsg
      rw [hstuck.toMaster] at hmsg
      cases hmsg
    · cases hi with
      | ready _ _ _ hh hev => exact (of_decide_eq_true hwakes).elim (absurd hh) (absurd hev)
    · rw [BellState.view, hd] at hahead
      exact hahead

end AcsVirt.L4
