import AcsVirt.L4Device.Barrier

/-!
# Kicks of several queues

All queues share the word at `QUEUE_NOTIFY`, and with `notify-policy=barrier`
a kick does not wait for the backend. Here the guest kicks when it likes and
the daemon scans when it likes (a wake needs no interrupt), in the steps of
`L4Device/Kick.lean`.

A kick that overwrites the kick of another queue replaces it, and one stored
between the daemon's load and its store of the idle value is erased
(`overwritten_kick_not_dispatched`). A kick that neither happens to has been
dispatched when the next complete scan ends (`kick_dispatched`).
-/
namespace AcsVirt.L4

open L2 L2.MmioReg

/-- The guest stores and does not wait; the daemon scans again at any time. -/
def scanStep (z : UioSizes) (s : KickState) : KickAct → Option KickState
  | .guestWrite r value =>
    some { s with uio := { s.uio with window := axiUioWrite z.mmioSize s.uio.window r.offset value } }
  | .wake => if s.daemon = .blocked then some { s with daemon := .scan writeOffsets } else none
  | a => kickStep z s a

def scanLts (z : UioSizes) : LTS KickState KickAct where
  init s := ∃ dev w, s = kickStart z dev w
  step s a s' := scanStep z s a = some s'

/-- The device is called with a notification for queue `q`. -/
def Dispatches (q : UInt32) (s : KickState) (a : KickAct) : Prop :=
  (∃ level, a = .answer level) ∧ ∃ rest, s.daemon = .dispatch .queueNotify q rest

/-- A kick of queue `q` that will be dispatched: it is in the window and no
other value is about to be consumed in its place, or the daemon has it. -/
def KickOf (q : UInt32) (s : KickState) : Prop :=
  match s.daemon with
  | .loaded r value _ =>
    if r = .queueNotify then value = q else s.uio.window MmioReg.queueNotify.offset = q
  | .dispatch r value _ => (r = .queueNotify ∧ value = q) ∨ s.uio.window MmioReg.queueNotify.offset = q
  | .scan _ | .blocked | .refreshed => s.uio.window MmioReg.queueNotify.offset = q

/-- The daemon is in a scan that will come to that kick, or has it. -/
def Ahead (q : UInt32) : Daemon → Prop
  | .scan rest => .queueNotify ∈ rest
  | .loaded r _ rest => r = .queueNotify ∨ .queueNotify ∈ rest
  | .dispatch r value rest => (r = .queueNotify ∧ value = q) ∨ .queueNotify ∈ rest
  | .blocked | .refreshed => False

/-- What a kick of `q` needs: the daemon is not about to erase it for another
queue. -/
def KickFits (q : UInt32) (s : KickState) : Prop :=
  ∀ value rest, s.daemon = .loaded .queueNotify value rest → value = q

/-- The daemon has a kick of `q` in its hands. -/
def Held (q : UInt32) : Daemon → Prop
  | .loaded r value _ | .dispatch r value _ => r = .queueNotify ∧ value = q
  | _ => False

/-- What a kick of `q` needs of the steps after it: no other value is stored
over it while it is in the window and the daemon does not have it. -/
def Spares (q : UInt32) (s : KickState) : KickAct → Prop
  | .guestWrite .queueNotify value =>
    value = q ∨ s.uio.window MmioReg.queueNotify.offset ≠ q ∨ Held q s.daemon
  | _ => True

section
variable {z : UioSizes} {s s' : KickState} {a : KickAct} {q : UInt32}

/-- What the daemon needs to know: the word, its own place, and the shadow. -/
theorem KickOf.of_eq (h : KickOf q s) (hd : s'.daemon = s.daemon)
    (hw : s'.uio.window MmioReg.queueNotify.offset = s.uio.window MmioReg.queueNotify.offset) :
    KickOf q s' := by
  unfold KickOf
  rw [hd, hw]
  exact h

/-- Every step of the daemon and the sockets. -/
theorem KickOf.step (hz : z.devSize = 0x200) (h : KickOf q s) (hs : KickStep z s a s')
    (ha : ∀ r value, a ≠ .guestWrite r value) (hne : ¬ Dispatches q s a) : KickOf q s' := by
  cases hs with
  | guestWrite r value => exact absurd rfl (ha r value)
  | @masterRead m ms hm => cases m <;> exact h.of_eq rfl rfl
  | slaveRead | waitRead | timeout => exact h.of_eq rfl rfl
  | wake hd | quiet hd =>
    simp only [KickOf, hd] at h
    exact h
  | skip hd =>
    simp only [KickOf, hd] at h
    exact h
  | @load r value rest hd hv =>
    simp only [KickOf, hd] at h
    simp only [changed_eq hz, Option.ite_none_left_eq_some, Option.some.injEq] at hv
    by_cases hr : r = .queueNotify
    · subst hr
      simp only [KickOf, if_true]
      exact hv.2.symm.trans h
    · simp only [KickOf, hr, if_false]
      exact h
  | @consume r value rest hd =>
    simp only [KickOf, hd] at h
    by_cases hr : r = .queueNotify
    · rw [if_pos hr] at h
      exact .inl ⟨hr, h⟩
    · rw [if_neg hr] at h
      refine .inr ?_
      rw [consume_word_notify, if_neg hr]
      exact h
  | @answer r value rest level hd =>
    simp only [KickOf, hd] at h
    rcases h with ⟨rfl, rfl⟩ | h
    · exact absurd ⟨⟨level, rfl⟩, rest, hd⟩ hne
    · exact (settle_notify _ _).1.trans h
  | refresh dev hd =>
    simp only [KickOf, hd] at h
    simp only [KickOf, refresh_word hz]
    exact h
  | flush hd =>
    have hoff : MmioReg.queueNotify.offset ≠ uioIrqControlOffset := by decide
    simp only [KickOf, hd] at h
    simp only [KickOf, Window.set_other hoff]
    exact h

/-- A scan in front of the kick gets to it. -/
theorem Ahead.step (hz : z.devSize = 0x200) (hq : q ≠ uioNotifyIdle)
    (hsh : s.uio.shadow .queueNotify = uioNotifyIdle) (h : KickOf q s) (hah : Ahead q s.daemon)
    (hs : KickStep z s a s') (ha : ∀ r value, a ≠ .guestWrite r value) (hne : ¬ Dispatches q s a) :
    Ahead q s'.daemon := by
  cases hs with
  | guestWrite r value => exact absurd rfl (ha r value)
  | @masterRead m ms hm => cases m <;> exact hah
  | slaveRead | waitRead | timeout => exact hah
  | wake hd | quiet hd | flush hd | refresh dev hd => simp [hd, Ahead] at hah
  | @skip r rest hd hv =>
    simp only [hd, Ahead, List.mem_cons] at hah
    refine hah.resolve_left fun hr => ?_
    subst hr
    simp only [KickOf, hd] at h
    simp only [changed_eq hz, ite_eq_left_iff, reduceCtorEq, imp_false, Decidable.not_not] at hv
    exact hq (h.symm.trans (hv.trans hsh))
  | load hd =>
    simp only [hd, Ahead, List.mem_cons] at hah
    exact hah.imp Eq.symm id
  | consume hd =>
    simp only [hd, Ahead] at hah
    simp only [KickOf, hd] at h
    rcases hah with rfl | hah
    · exact .inl ⟨rfl, by simpa using h⟩
    · exact .inr hah
  | @answer r value rest level hd =>
    simp only [hd, Ahead] at hah
    rcases hah with ⟨rfl, rfl⟩ | hah
    · exact absurd ⟨⟨level, rfl⟩, rest, hd⟩ hne
    · exact hah

/-- The steps of this machine. -/
theorem scanStep_cases (hs : scanStep z s a = some s') :
    (∃ r value, a = .guestWrite r value ∧ s' = { s with
      uio := { s.uio with window := axiUioWrite z.mmioSize s.uio.window r.offset value } }) ∨
    (a = .wake ∧ s.daemon = .blocked ∧ s' = { s with daemon := .scan writeOffsets }) ∨
    ((∀ r value, a ≠ .guestWrite r value) ∧ KickStep z s a s') := by
  cases a with
  | guestWrite r value =>
    cases hs
    exact .inl ⟨r, value, rfl, rfl⟩
  | wake =>
    simp only [scanStep, Option.ite_none_right_eq_some, Option.some.injEq] at hs
    exact .inr (.inl ⟨rfl, hs.1, hs.2.symm⟩)
  | _ => exact .inr (.inr ⟨nofun, kickStep_inv hs⟩)

theorem scanStep_shadow (hz : z.devSize = 0x200) (hsh : s.uio.shadow .queueNotify = uioNotifyIdle)
    (hs : scanStep z s a = some s') : s'.uio.shadow .queueNotify = uioNotifyIdle := by
  obtain ⟨r, value, rfl, rfl⟩ | ⟨rfl, -, rfl⟩ | ⟨ha, hs⟩ := scanStep_cases hs
  · exact hsh
  · exact hsh
  · exact (kickStep_keeps hz ha hs).shadow hsh

theorem write_notify_word (hz : z.devSize = 0x200) (w : Window) (r : MmioReg) (value : UInt32) :
    axiUioWrite z.mmioSize w r.offset value MmioReg.queueNotify.offset =
      if r = .queueNotify then value else w MmioReg.queueNotify.offset := by
  rw [axiUioWrite_word hz, if_neg (by simp [queueStateOffsets])]
  exact if_congr eq_comm rfl rfl

/-- A guest write that spares a kick leaves it to be dispatched. -/
theorem KickOf.write (hz : z.devSize = 0x200) (h : KickOf q s) {r : MmioReg} {value : UInt32}
    (hf : Spares q s (.guestWrite r value)) : KickOf q { s with
      uio := { s.uio with window := axiUioWrite z.mmioSize s.uio.window r.offset value } } := by
  by_cases hr : r = .queueNotify
  · subst hr
    -- where the word was `q`, the value is `q` again, or the daemon has the kick
    have hword : s.uio.window MmioReg.queueNotify.offset = q → value = q ∨ Held q s.daemon := fun hw =>
      hf.imp id fun hf => hf.resolve_left fun hne => hne hw
    unfold KickOf at h ⊢
    simp only [write_notify_word hz, if_true]
    cases hd : s.daemon with
    | scan rest | blocked | refreshed =>
      simp only [hd, Held, or_false] at h hword
      exact hword h
    | loaded r v rest =>
      simp only [hd, Held] at h hword
      by_cases hr : r = .queueNotify
      · simpa only [hr, if_true] using h
      · simp only [hr, if_false, false_and, or_false] at h hword ⊢
        exact hword h
    | dispatch r v rest =>
      simp only [hd, Held] at h hword
      exact h.elim .inl fun h => (hword h).symm
  · exact h.of_eq rfl (by simp only [write_notify_word hz, hr, if_false])

/-- A kick that fits is there to be dispatched. -/
theorem KickFits.kickOf (hz : z.devSize = 0x200) (hf : KickFits q s) :
    KickOf q { s with uio := { s.uio with
      window := axiUioWrite z.mmioSize s.uio.window MmioReg.queueNotify.offset q } } := by
  unfold KickOf
  simp only [write_notify_word hz, if_true]
  cases hd : s.daemon with
  | scan rest | blocked | refreshed => trivial
  | loaded r v rest =>
    by_cases hr : r = .queueNotify
    · subst hr
      simpa using hf v rest hd
    · simp only [hr, if_false]
  | dispatch r v rest => exact .inr trivial

theorem KickOf.scanStep (hz : z.devSize = 0x200) (h : KickOf q s)
    (hs : L4.scanStep z s a = some s') (hf : Spares q s a) (hne : ¬ Dispatches q s a) :
    KickOf q s' := by
  obtain ⟨r, value, rfl, rfl⟩ | ⟨rfl, hd, rfl⟩ | ⟨ha, hs⟩ := scanStep_cases hs
  · exact h.write hz hf
  · simp only [KickOf, hd] at h
    exact h
  · exact h.step hz hs ha hne

theorem Ahead.scanStep (hz : z.devSize = 0x200) (hq : q ≠ uioNotifyIdle)
    (hsh : s.uio.shadow .queueNotify = uioNotifyIdle) (h : KickOf q s) (hah : Ahead q s.daemon)
    (hs : L4.scanStep z s a = some s') (hne : ¬ Dispatches q s a) : Ahead q s'.daemon := by
  obtain ⟨r, value, rfl, rfl⟩ | ⟨rfl, hd, rfl⟩ | ⟨ha, hs⟩ := scanStep_cases hs
  · exact hah
  · simp [hd, Ahead] at hah
  · exact hah.step hz hq hsh h hs ha hne

theorem wake_ahead (hs : L4.scanStep z s .wake = some s') : Ahead q s'.daemon := by
  obtain ⟨-, -, ⟨⟩, -⟩ | ⟨-, -, rfl⟩ | ⟨-, hs⟩ := scanStep_cases hs
  · show queueNotify ∈ writeOffsets
    decide
  · cases hs
    show queueNotify ∈ writeOffsets
    decide

theorem refresh_not_ahead {dev : FabricDevice Unit} (hs : L4.scanStep z s (.refresh dev) = some s') :
    ¬ Ahead q s.daemon := by
  obtain ⟨-, -, ⟨⟩, -⟩ | ⟨⟨⟩, -⟩ | ⟨-, hs⟩ := scanStep_cases hs
  cases hs with
  | refresh _ hd => simp [hd, Ahead]

/-! ## Whole runs -/

/-- A kick stays until it is dispatched. -/
theorem KickOf.run (hz : z.devSize = 0x200)
    {tr : List (KickState × KickAct)} (h : (scanLts z).Trace s tr s')
    (hc : ∀ p ∈ tr, Spares q p.1 p.2) (hsh : s.uio.shadow .queueNotify = uioNotifyIdle)
    (hk : KickOf q s) :
    (s'.uio.shadow .queueNotify = uioNotifyIdle ∧ KickOf q s') ∨ ∃ p ∈ tr, Dispatches q p.1 p.2 :=
  h.lasts (A := fun s => s.uio.shadow .queueNotify = uioNotifyIdle ∧ KickOf q s)
    (fun _ _ _ ha hf hs hne => ⟨scanStep_shadow hz ha.1 hs, ha.2.scanStep hz hs hf hne⟩) hc ⟨hsh, hk⟩

/-- In a scan, it stays ahead until it is dispatched. -/
theorem Ahead.run (hz : z.devSize = 0x200) (hq : q ≠ uioNotifyIdle)
    {tr : List (KickState × KickAct)} (h : (scanLts z).Trace s tr s')
    (hc : ∀ p ∈ tr, Spares q p.1 p.2) (hsh : s.uio.shadow .queueNotify = uioNotifyIdle)
    (hk : KickOf q s) (hah : Ahead q s.daemon) :
    Ahead q s'.daemon ∨ ∃ p ∈ tr, Dispatches q p.1 p.2 := by
  refine (h.lasts (A := fun s => s.uio.shadow .queueNotify = uioNotifyIdle ∧ KickOf q s ∧ Ahead q s.daemon)
    (fun _ _ _ ha hf hs hne => ?_) hc ⟨hsh, hk, hah⟩).imp (fun h => h.2.2) id
  obtain ⟨hsh, hk, hah⟩ := ha
  exact ⟨scanStep_shadow hz hsh hs, hk.scanStep hz hs hf hne, hah.scanStep hz hq hsh hk hs hne⟩

end

/-- **A kick is dispatched, if no other gets in its way.** Take any run, a kick
of a queue in it that is stored when the daemon is not between the load of
another queue and the store of the idle value, and a complete scan that starts
after it. If until the end of the scan no kick of another queue is stored over
it while it waits in the window, the queue is dispatched between the kick and
that end. -/
theorem kick_dispatched (z : UioSizes) (hz : z.devSize = 0x200) {s s' : KickState}
    {tr : List (KickState × KickAct)} (h0 : (scanLts z).init s) (h : (scanLts z).Trace s tr s')
    {pre mid scan post : List (KickState × KickAct)} {s₁ s₂ s₃ : KickState} {q : UInt32}
    {dev : FabricDevice Unit} (hq : q ≠ uioNotifyIdle)
    (htr : tr = pre ++ (s₁, .guestWrite .queueNotify q) ::
      (mid ++ (s₂, .wake) :: (scan ++ (s₃, .refresh dev) :: post)))
    (hf : KickFits q s₁) (hc : ∀ p ∈ mid ++ (s₂, .wake) :: scan, Spares q p.1 p.2) :
    ∃ p ∈ mid ++ (s₂, .wake) :: scan, Dispatches q p.1 p.2 := by
  subst htr
  obtain ⟨dev₀, w₀, rfl⟩ := h0
  obtain ⟨m, hpre, h⟩ := h.split
  have hsh : m.uio.shadow .queueNotify = uioNotifyIdle :=
    hpre.run.keeps (I := fun s => s.uio.shadow .queueNotify = uioNotifyIdle)
      (fun _ _ _ hi hs => scanStep_shadow hz hi hs) (kickStart_quiet hz dev₀ w₀).1
  cases h with
  | cons hkick h =>
    cases hkick
    obtain ⟨m₂, hmid, h⟩ := h.split
    obtain ⟨hsh₂, hk₂⟩ | ⟨p, hp, hd⟩ := KickOf.run hz hmid (fun p hp => hc p (by simp [hp])) hsh (hf.kickOf hz)
    · cases h with
      | cons hwake h =>
        obtain ⟨m₃, hscan, h⟩ := h.split
        have hk := hk₂.scanStep hz hwake trivial fun h => nomatch h.1
        obtain hah | ⟨p, hp, hd⟩ := Ahead.run hz hq hscan (fun p hp => hc p (by simp [hp]))
          (scanStep_shadow hz hsh₂ hwake) hk (wake_ahead hwake)
        · cases h with
          | cons hend _ => exact absurd hah (refresh_not_ahead hend)
        · exact ⟨p, by simp [hp], hd⟩
    · exact ⟨p, by simp [hp], hd⟩

/-- The registers of a console that has just been connected. -/
def connectedConsole : FabricDevice Unit where
  addr := 0
  size := 0x200
  read _ offset len := condMmioRead condConnect offset len
  write d _ _ _ := return (d, true)

/-- A scan that finds only a kick, up to the call of the device and from there on. -/
def scanToCall : List KickAct := List.replicate 14 .load ++ [.consume]

def scanFromCall : List KickAct := [.answer false, .load, .refresh connectedConsole]

/-- A kick, and a scan that finds only it, up to its end. -/
def kickAndScan (q : UInt32) : List KickAct :=
  .guestWrite .queueNotify q :: .wake :: (scanToCall ++ [.answer false, .load])

/-- Its steps; the guest makes none of the others. -/
theorem trace_kickAndScan {q : UInt32} {s s' : KickState} {tr : List (KickState × KickAct)}
    (h : (scanLts pageSizes).Trace s tr s') (hl : tr.map Prod.snd = kickAndScan q) : ∃ s₂ scan,
      tr = (s, .guestWrite .queueNotify q) :: (s₂, .wake) :: scan ∧
      ∀ p ∈ (s₂, .wake) :: scan, Spares q p.1 p.2 := by
  obtain ⟨⟨s₁, _⟩, tr, rfl, rfl, hl₁⟩ := List.map_eq_cons_iff.1 hl
  obtain ⟨⟨s₂, _⟩, scan, rfl, rfl, -⟩ := List.map_eq_cons_iff.1 hl₁
  have hs₁ : s₁ = s := by cases h; rfl
  refine ⟨s₂, scan, by rw [hs₁], fun p hp => ?_⟩
  have hno : ∀ l ∈ KickAct.wake :: (scanToCall ++ [.answer false, .load]), ∀ s, Spares q s l := by
    simp [scanToCall, Spares]
  refine hno p.2 ?_ p.1
  rw [← hl₁]
  exact List.mem_map_of_mem hp

/-- RX is kicked and scanned, then TX. -/
theorem kick_dispatched_tx : ∃ tr s', (scanLts pageSizes).Trace (kickStart pageSizes connectedConsole fun _ => 0) tr s' ∧
    tr.map Prod.snd = kickAndScan 0 ++ [.refresh connectedConsole, .flush] ++ kickAndScan 1 ++ [.refresh connectedConsole] ∧
    (∃ p ∈ tr, Dispatches 0 p.1 p.2) ∧ ∃ p ∈ tr, Dispatches 1 p.1 p.2 := by
  have hex : ∃ x ∈ LTS.exec (scanStep pageSizes) (kickStart pageSizes connectedConsole fun _ => 0) (kickAndScan 0),
      ∃ y ∈ LTS.exec (scanStep pageSizes) x [.refresh connectedConsole, .flush],
      ∃ t ∈ LTS.exec (scanStep pageSizes) y (kickAndScan 1), y.daemon = .blocked ∧ t.daemon = .scan [] := by decide
  obtain ⟨x, hx, y, hy, t, ht, hyd, htd⟩ := hex
  obtain ⟨tr₁, h₁, hl₁⟩ := LTS.exec_trace (M := scanLts pageSizes) (fun _ _ _ h => h) hx
  obtain ⟨tr₂, h₂, hl₂⟩ := LTS.exec_trace (M := scanLts pageSizes) (fun _ _ _ h => h) hy
  obtain ⟨tr₃, h₃, hl₃⟩ := LTS.exec_trace (M := scanLts pageSizes) (fun _ _ _ h => h) ht
  obtain ⟨s', hend⟩ : ∃ s', scanStep pageSizes t (.refresh connectedConsole) = some s' := ⟨_, if_pos htd⟩
  have h := ((h₁.append h₂).append h₃).append (.cons hend (.nil _))
  have hblocked : ∀ {s : KickState} {q : UInt32}, s.daemon = .blocked → KickFits q s := fun hs _ _ hd =>
    nomatch hs.symm.trans hd
  refine ⟨_, s', h, by simp [hl₁, hl₂, hl₃], ?_⟩
  obtain ⟨s₂, scan, rfl, hc⟩ := trace_kickAndScan h₁ hl₁
  obtain ⟨s₄, scan', rfl, hc'⟩ := trace_kickAndScan h₃ hl₃
  obtain ⟨⟨u, _⟩, rest, rfl, rfl, -⟩ := List.map_eq_cons_iff.1 hl₂
  have hinit : (scanLts pageSizes).init (kickStart pageSizes connectedConsole fun _ => 0) := ⟨_, _, rfl⟩
  constructor
  · obtain ⟨p, hp, hd⟩ := kick_dispatched pageSizes rfl hinit h (q := 0) (by decide)
      (show _ = [] ++ (kickStart pageSizes connectedConsole fun _ => 0, .guestWrite .queueNotify 0) :: ([] ++ (s₂, .wake) :: (scan ++
        (u, .refresh connectedConsole) :: (rest ++ (y, .guestWrite .queueNotify 1) :: (s₄, .wake) :: (scan' ++
          [(t, .refresh connectedConsole)])))) by simp) (hblocked rfl) hc
    exact ⟨p, List.mem_append_left _ (List.mem_append_left _ (List.mem_append_left _ (List.mem_cons_of_mem _ hp))), hd⟩
  · obtain ⟨p, hp, hd⟩ := kick_dispatched pageSizes rfl hinit h (q := 1) (by decide)
      (show _ = ((kickStart pageSizes connectedConsole fun _ => 0, .guestWrite .queueNotify 0) :: (s₂, .wake) ::
        (scan ++ (u, .refresh connectedConsole) :: rest)) ++ (y, .guestWrite .queueNotify 1) ::
          ([] ++ (s₄, .wake) :: (scan' ++ (t, .refresh connectedConsole) :: [])) by simp) (hblocked hyd) hc'
    exact ⟨p, List.mem_append_left _ (List.mem_append_right _ (List.mem_cons_of_mem _ hp)), hd⟩

/-- RX and TX are kicked one after the other, then the daemon scans: only TX is dispatched. -/
theorem overwritten_kick_not_dispatched : ∃ tr s',
    (scanLts pageSizes).Trace (kickStart pageSizes connectedConsole fun _ => 0) tr s' ∧
    tr.map Prod.snd = [.guestWrite .queueNotify 0, .guestWrite .queueNotify 1, .wake] ++ scanToCall ++ scanFromCall ∧
    ∀ p ∈ tr, ¬ Dispatches 0 p.1 p.2 := by
  have hex : ∃ x ∈ LTS.exec (scanStep pageSizes) (kickStart pageSizes connectedConsole fun _ => 0)
      ([.guestWrite .queueNotify 0, .guestWrite .queueNotify 1, .wake] ++ scanToCall),
      x.daemon = .dispatch .queueNotify 1 [.status] ∧
        (LTS.exec (scanStep pageSizes) x scanFromCall).isSome = true := by decide
  obtain ⟨x, he, hx, hrest⟩ := hex
  obtain ⟨s', hs'⟩ := Option.isSome_iff_exists.1 hrest
  obtain ⟨tr₁, ht₁, hl₁⟩ := LTS.exec_trace (M := scanLts pageSizes) (fun _ _ _ h => h) he
  obtain ⟨tr₂, ht₂, hl₂⟩ := LTS.exec_trace (M := scanLts pageSizes) (fun _ _ _ h => h) hs'
  refine ⟨tr₁ ++ tr₂, s', ht₁.append ht₂, by rw [List.map_append, hl₁, hl₂], fun p hp hd => ?_⟩
  obtain ⟨⟨level, hlev⟩, rest, hd⟩ := hd
  rcases List.mem_append.1 hp with hp | hp
  · have hm := List.mem_map_of_mem (f := Prod.snd) hp
    rw [hl₁, hlev] at hm
    simp [scanToCall] at hm
  · obtain ⟨⟨y, _⟩, tr, rfl, -, hl₂⟩ := List.map_eq_cons_iff.1 hl₂
    have hy : y = x := by cases ht₂; rfl
    rcases List.mem_cons.1 hp with rfl | hp
    · rw [hy, hx] at hd
      cases hd
    · have hm := List.mem_map_of_mem (f := Prod.snd) hp
      rw [hl₂, hlev] at hm
      simp at hm

end AcsVirt.L4
