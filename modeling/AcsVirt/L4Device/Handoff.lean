import AcsVirt.L2Machine.LinuxDevmem
import AcsVirt.L4Device.InOrder

/-!
# Handing a kick over in the notify word

The word at `QUEUE_NOTIFY` is a mailbox that says itself when it is empty
(`0xffffffff`): the guest posts a request and stores the queue index 0, the
daemon finds a value, puts the empty mark back and runs the block device. The
guest and the daemon move in turns of any length; while the device runs, each
of its calls is a step.

`kicked` counts the posts made before the last kick; they are consumed when
`last_avail_idx` has passed them, that is when the device has published as
many. Chains are as the device expects them (`BlkChainOk`); with others the
device fails and the daemon stops.

* linux-uio (`UioHandoff`): the mark is put back before the device runs, and
  the daemon loads and stores single bytes. A load torn by a kick is a value
  that names no queue (`torn_load_loses_kick`); a kick anywhere else is safe
  (`uio_kicks_consumed`).
* linux-devmem (`DevmemHandoff`): accesses are whole words, and the mark is
  put back after the device has run. A kick after its last look at the ring
  is erased (`late_kick_erased`); one before it is safe
  (`devmem_kicks_consumed`).
-/
namespace AcsVirt.L4

open L1 L2 L3

/-- What is left to do of the device's answer to a notification. -/
abbrev DeviceCode := FabricM (FabricBinding BlkdState × Bool)

/-- The call of the device for a value found in the notify word.
mirrors src/drivers/virtio-blkd.c:632-651 -/
def notifyCode (direct : Bool) (fuel : Nat) (b : FabricBinding BlkdState) (value : UInt32) :
    DeviceCode :=
  (blkdFabricInitDevice direct fuel).write b MmioReg.queueNotify.offset value.toUInt64 4

/-- A read of the available index. -/
def LooksAtRing (q : VirtioQueue) (c : Call) : Prop := ∃ len, c = .dmaReadInto (q.avail + 2) len

/-- The device returns true only after another look at the ring. -/
def WillLook (q : VirtioQueue) (code : DeviceCode) : Prop :=
  code.Must (LooksAtRing q) fun r => r.2 = false

/-- Everything posted before `k` has been consumed when the device returns. -/
def Serves (q : VirtioQueue) (k : Nat) (code : DeviceCode) (w : VqWorld) : Prop :=
  wp (vqHandler q (BlkChainOk q)) code
    (fun o w' => ∀ r, o = .ok r → r.2 = true ∧ Between 0 q (BlkChainOk q) (r.1.dev, w') ∧
      k ≤ w'.published.length) w

/-- The same for what the device has seen. -/
def ServesSeen (q : VirtioQueue) (k : Nat) (code : DeviceCode) (w : VqWorld) : Prop :=
  wp (vqHandler q (BlkChainOk q)) code
    (fun o w' => ∀ r, o = .ok r → r.2 = true ∧ Between 0 q (BlkChainOk q) (r.1.dev, w') ∧
      w'.published.length = w'.seen ∧ k ≤ w'.seen) w

section
variable {q : VirtioQueue} {ok : Post → Prop}

/-- Both histories only grow, and a look at the ring counts what is posted. -/
structure Grows (w w' : VqWorld) : Prop where
  posted : w.posted.length ≤ w'.posted.length
  published : w.published.length ≤ w'.published.length
  seen : w'.seen = w.seen ∨ w'.seen = w'.posted.length

theorem Grows.store {w w₁ : VqWorld} (h : Grows w w₁) (m : Mem) : Grows w (w₁.store q m) :=
  ⟨h.posted, by simp only [VqWorld.store, List.length_append]; exact Nat.le_add_right_of_le h.published, h.seen⟩

theorem vq_grows {w w' : VqWorld} {c : Call} {r : c.Reply} (h : vqHandler q ok w c r w') :
    Grows w w' ∧ (LooksAtRing q c → w'.seen = w'.posted.length) := by
  obtain ⟨w₁, hd, ha⟩ := h
  have hg : Grows w w₁ :=
    ⟨DriverSteps.posted_le hd, Nat.le_of_eq (by rw [DriverSteps.published hd]), .inl (DriverSteps.seen hd)⟩
  cases c with
  | dmaReadInto gpa len =>
    obtain ⟨-, rfl⟩ := ha
    by_cases hgpa : gpa = q.avail + 2
    · rw [if_pos hgpa]
      exact ⟨⟨hg.posted, hg.published, .inr rfl⟩, fun _ => rfl⟩
    · rw [if_neg hgpa]
      refine ⟨hg, ?_⟩
      rintro ⟨len', he⟩
      cases he
      exact absurd rfl hgpa
  | dmaWrite gpa data =>
    obtain ⟨-, rfl⟩ := ha
    exact ⟨hg.store _, fun ⟨_, h⟩ => nomatch h⟩
  | preadMapped gpa offset len =>
    obtain ⟨-, data, -, rfl⟩ := ha
    exact ⟨hg.store _, fun ⟨_, h⟩ => nomatch h⟩
  | dmaMap gpa len =>
    cases ha
    exact ⟨hg, fun ⟨_, h⟩ => nomatch h⟩
  | _ =>
    obtain ⟨-, rfl⟩ := ha
    exact ⟨hg, fun ⟨_, h⟩ => nomatch h⟩

/-- A device that will look again sees what is posted now. -/
theorem WillLook.seen {code : DeviceCode} (h : WillLook q code) {k : Nat} {w : VqWorld}
    (hk : k ≤ w.posted.length) :
    wp (vqHandler q ok) code (fun o w' => ∀ r, o = .ok r → r.2 = false ∨ k ≤ w'.seen) w := by
  have hmust := Prog.Must.wp (R := vqHandler q ok) (I := fun w => k ≤ w.seen ∧ k ≤ w.posted.length)
    (J := fun w => k ≤ w.posted.length) h
    (fun w c r w' hc hj hr => ?_) (fun w c r w' hj hr => ?_) (fun w c r w' hi hr => ?_) hk
  · exact wp_mono hmust fun o w' h r hr => (h r hr).imp id And.left
  · obtain ⟨hg, hlook⟩ := vq_grows hr
    have h1 := hg.posted
    have h2 := hlook hc
    omega
  · have := (vq_grows hr).1.posted
    omega
  · have h1 := (vq_grows hr).1.posted
    have h2 := (vq_grows hr).1.seen
    omega

/-! ## The block device's answer -/

theorem notifyCode_eq (direct : Bool) (fuel : Nat) (b : FabricBinding BlkdState) (value : UInt32) :
    notifyCode direct fuel b value =
      blkdVirtioNotifyQueue direct fuel b.dev value >>= fun r => .ret (b.withDev r.1, r.2) := by
  show mmioWrite (blkdVirtioNotifyQueue direct fuel) b MmioReg.queueNotify.offset value.toUInt64 = _
  unfold mmioWrite
  rw [if_neg (by decide), if_neg (by decide), if_pos rfl, virtioMmioWrite_notify, UInt32.toUInt32_toUInt64]
  rfl

theorem notifyCode_willLook (hready : q.ready ≠ 0) (direct : Bool) (fuel : Nat)
    {b : FabricBinding BlkdState} {w : VqWorld} (hb : Between 0 q ok (b.dev, w)) :
    WillLook q (notifyCode direct fuel b 0) := by
  have hq : (b.dev.queue 0).ready = q.ready ∧ (b.dev.queue 0).avail = q.avail := by
    rw [hb.dev.queue]
    exact ⟨rfl, rfl⟩
  have hcond : ¬((0 : UInt32) ≠ 0 ∨ (b.dev.queue 0).ready = 0) := by simp [hq.1, hready]
  unfold WillLook
  rw [notifyCode_eq, blkdVirtioNotifyQueue, if_neg hcond]
  cases fuel with
  | zero => exact trivial
  | succ n => exact .inl ⟨2, by rw [← hq.2]⟩

/-- A value that names the queue: whatever is posted by now is consumed. -/
theorem notifyCode_serves (hl : Layout q) (hready : q.ready ≠ 0) (direct : Bool) (fuel : Nat)
    {b : FabricBinding BlkdState} {w : VqWorld} (hb : Between 0 q (BlkChainOk q) (b.dev, w))
    {k : Nat} (hk : k ≤ w.posted.length) : ServesSeen q k (notifyCode direct fuel b 0) w := by
  have hends : wp (vqHandler q (BlkChainOk q)) (notifyCode direct fuel b 0) (fun o w' => ∀ r, o = .ok r →
      r.2 = true ∧ Between 0 q (BlkChainOk q) (r.1.dev, w') ∧ w'.published.length = w'.seen) w := by
    rw [notifyCode_eq]
    refine wp_seq (blkdNotify_inOrder hl hready direct fuel b.dev w hb) ?_ fun _ _ _ => nofun
    rintro ⟨d, ok⟩ w' (⟨d', ho, hdr, hb'⟩ | ⟨he, -⟩) r hr
    · cases ho
      cases hr
      exact ⟨rfl, hb', hdr.count⟩
    · cases he
  refine wp_mono (wp_and hends ((notifyCode_willLook hready direct fuel hb).seen hk)) ?_
  rintro o w' ⟨h1, h2⟩ r hr
  obtain ⟨htrue, hb', hcount⟩ := h1 r hr
  refine ⟨htrue, hb', hcount, (h2 r hr).resolve_left ?_⟩
  rw [htrue]
  exact Bool.noConfusion

/-- Any other value: the device only answers with the interrupt level. -/
theorem notifyCode_other (hl : Layout q) (direct : Bool) (fuel : Nat) {b : FabricBinding BlkdState}
    {w : VqWorld} (hb : Between 0 q (BlkChainOk q) (b.dev, w)) {value : UInt32} (hv : value ≠ 0)
    {k : Nat} (hk : k ≤ w.published.length) : Serves q k (notifyCode direct fuel b value) w := by
  have hirq : ∀ (c : Call) (r : c.Reply) (w' : VqWorld), memoryless c = true → vqHandler q (BlkChainOk q) w c r w' →
      Between 0 q (BlkChainOk q) (b.dev, w') ∧ k ≤ w'.published.length := by
    intro c r w' hc h
    have hlater := (vq_memoryless hl hb.inv hc h).1
    rw [hlater.published]
    exact ⟨⟨hlater.inv, by rw [hlater.published]; exact hb.dev⟩, hk⟩
  unfold Serves
  rw [notifyCode_eq, blkdVirtioNotifyQueue, if_pos (.inl hv)]
  unfold blkdAckNotify ackNotify
  split
  · intro r w' h _ he
    cases he
    exact ⟨vq_true h, hirq .raiseIrq r w' rfl h⟩
  · intro r w' h _ he
    cases he
    exact ⟨vq_true h, hirq .lowerIrq r w' rfl h⟩

theorem ServesSeen.serves {k : Nat} {code : DeviceCode} {w : VqWorld} (h : ServesSeen q k code w) :
    Serves q k code w :=
  wp_mono h fun _ _ h r hr => by
    obtain ⟨h1, h2, h3, h4⟩ := h r hr
    exact ⟨h1, h2, h3 ▸ h4⟩

/-! ## The driver goes on meanwhile -/

theorem Between.driver (hl : Layout q) {d : Device BlkdState} {w w' : VqWorld}
    (hb : Between 0 q ok (d, w)) (h : DriverStep q ok w w') :
    Between 0 q ok (d, w') ∧ w'.published = w.published := by
  have hlater := h.later hl hb.inv
  exact ⟨⟨hlater.inv, by rw [hlater.published]; exact hb.dev⟩, hlater.published⟩

/-- The calls of the device leave room for steps of the driver before them. -/
theorem wp_driver {Q : Except Fault (FabricBinding BlkdState × Bool) → VqWorld → Prop}
    {code : DeviceCode} {w w' : VqWorld} (hQ : ∀ o, Q o w → Q o w')
    (h : wp (vqHandler q ok) code Q w) (hd : DriverStep q ok w w') :
    wp (vqHandler q ok) code Q w' := by
  cases code with
  | ret r => exact hQ _ h
  | fault e => exact hQ _ h
  | call c k =>
    rintro r w₂ ⟨w₁, hds, ha⟩
    exact h r w₂ ⟨w₁, .head hd hds, ha⟩

theorem Serves.driver (hl : Layout q) {k : Nat} {code : DeviceCode} {w w' : VqWorld}
    (h : Serves q k code w) (hd : DriverStep q (BlkChainOk q) w w') : Serves q k code w' := by
  refine wp_driver (fun o ho r hr => ?_) h hd
  obtain ⟨h1, h2, h3⟩ := ho r hr
  obtain ⟨hb, hp⟩ := h2.driver hl hd
  exact ⟨h1, hb, hp ▸ h3⟩

theorem ServesSeen.driver (hl : Layout q) {k : Nat} {code : DeviceCode} {w w' : VqWorld}
    (h : ServesSeen q k code w) (hd : DriverStep q (BlkChainOk q) w w') :
    ServesSeen q k code w' := by
  refine wp_driver (fun o ho r hr => ?_) h hd
  obtain ⟨h1, h2, h3, h4⟩ := ho r hr
  obtain ⟨hb, hp⟩ := h2.driver hl hd
  have hs : w'.seen = w.seen := by cases hd <;> rfl
  exact ⟨h1, hb, by rw [hp, hs, h3], by rw [hs]; exact h4⟩

end

/-! ## linux-uio -/

/-- Where the daemon is in the `QUEUE_NOTIFY` step of its scan: outside of it,
with some bytes of the word loaded, with some bytes of the empty mark stored,
or inside the device.
mirrors src/fabrics/linux_uio.c:377-389 -/
inductive UioDaemon where
  | outside (b : FabricBinding BlkdState)
  | loading (b : FabricBinding BlkdState) (got : Bytes)
  | storing (b : FabricBinding BlkdState) (value : UInt32) (stored : Nat)
  | dispatch (code : DeviceCode)

structure UioHandoff where
  daemon : UioDaemon
  word : Nat → UInt8
  world : VqWorld
  kicked : Nat

inductive HandoffAct where
  | driver
  | kick
  | daemon
  deriving DecidableEq, Repr

/-- The bytes of the word are loaded and stored in ascending order.
mirrors src/fabrics/linux_uio.c:51-67,377-389 -/
inductive UioHandoffStep (q : VirtioQueue) (direct : Bool) (s : UioHandoff) :
    HandoffAct → UioHandoff → Prop
  | driver {w : VqWorld} : DriverStep q (BlkChainOk q) s.world w → UioHandoffStep q direct s .driver { s with world := w }
  | kick : UioHandoffStep q direct s .kick { s with word := fun _ => 0, kicked := s.world.posted.length }
  | first {b : FabricBinding BlkdState} : s.daemon = .outside b →
      UioHandoffStep q direct s .daemon { s with daemon := .loading b [s.word 0] }
  | load {b : FabricBinding BlkdState} {got : Bytes} : s.daemon = .loading b got → got.length < 4 →
      UioHandoffStep q direct s .daemon { s with daemon := .loading b (got ++ [s.word got.length]) }
  | empty {b : FabricBinding BlkdState} {got : Bytes} : s.daemon = .loading b got → got.length = 4 →
      virtioLoadLe32 got = uioNotifyIdle → UioHandoffStep q direct s .daemon { s with daemon := .outside b }
  | found {b : FabricBinding BlkdState} {got : Bytes} : s.daemon = .loading b got → got.length = 4 →
      virtioLoadLe32 got ≠ uioNotifyIdle →
      UioHandoffStep q direct s .daemon { s with daemon := .storing b (virtioLoadLe32 got) 0 }
  | store {b : FabricBinding BlkdState} {value : UInt32} {n : Nat} : s.daemon = .storing b value n → n < 4 →
      UioHandoffStep q direct s .daemon
        { s with word := fun i => if i = n then 0xff else s.word i, daemon := .storing b value (n + 1) }
  | write {b : FabricBinding BlkdState} {value : UInt32} (fuel : Nat) : s.daemon = .storing b value 4 →
      UioHandoffStep q direct s .daemon { s with daemon := .dispatch (notifyCode direct fuel b value) }
  | call {c : Call} {k : c.Reply → DeviceCode} {r : c.Reply} {w : VqWorld} : s.daemon = .dispatch (.call c k) →
      vqAnswer q s.world c r w → UioHandoffStep q direct s .daemon { s with world := w, daemon := .dispatch (k r) }
  | done {b : FabricBinding BlkdState} : s.daemon = .dispatch (.ret (b, true)) →
      UioHandoffStep q direct s .daemon { s with daemon := .outside b }

def UioHandoff.Empty (s : UioHandoff) : Prop := ∀ i < 4, s.word i = 0xff

/-- A device with a fresh queue, an empty word, nothing kicked. -/
def uioHandoffLts (q : VirtioQueue) (direct : Bool) : LTS UioHandoff HandoffAct where
  init s := ∃ b, s.daemon = .outside b ∧ Fresh 0 q (b.dev, s.world) ∧ s.Empty ∧ s.kicked = 0
  step := UioHandoffStep q direct

/-- The bytes loaded are all of an empty word. -/
def LoadedEmpty (got : Bytes) : Prop := got.length = 4 ∧ virtioLoadLe32 got = uioNotifyIdle

/-- What a kick needs: the bytes loaded so far are 0, or all four are there
and the word was empty; a value other than 0 has been reset completely; or
nothing is left to be consumed. -/
def UioKickSafe (s : UioHandoff) : HandoffAct → Prop
  | .kick => s.world.posted.length ≤ s.world.published.length ∨
    match s.daemon with
    | .outside _ | .dispatch _ => True
    | .loading _ got => (∀ x ∈ got, x = 0) ∨ LoadedEmpty got
    | .storing _ value stored => value = 0 ∨ stored = 4
  | _ => True

/-- Where the kicks are that have not been served. -/
def UioKicks (q : VirtioQueue) (s : UioHandoff) : Prop :=
  s.kicked ≤ s.world.posted.length ∧
    match s.daemon with
    | .outside b => Between 0 q (BlkChainOk q) (b.dev, s.world) ∧
        (s.kicked ≤ s.world.published.length ∨ ∀ i, s.word i = 0)
    | .loading b got => Between 0 q (BlkChainOk q) (b.dev, s.world) ∧
        (s.kicked ≤ s.world.published.length ∨ ((∀ i, s.word i = 0) ∧ ((∀ x ∈ got, x = 0) ∨ LoadedEmpty got)))
    | .storing b value stored => Between 0 q (BlkChainOk q) (b.dev, s.world) ∧
        (s.kicked ≤ s.world.published.length ∨ value = 0 ∨ (stored = 4 ∧ ∀ i, s.word i = 0))
    | .dispatch code => ∃ k, Serves q k code s.world ∧ (s.kicked ≤ k ∨ ∀ i, s.word i = 0)

theorem load_zero {got : Bytes} (h4 : got.length = 4) (h : ∀ x ∈ got, x = 0) :
    virtioLoadLe32 got = 0 := by
  rw [List.eq_replicate_iff.2 ⟨h4, h⟩]
  rfl

section
variable {q : VirtioQueue} {direct : Bool} {s s' : UioHandoff}

theorem UioKicks.kick (h : UioKicks q s) (hs : UioKickSafe s .kick) :
    UioKicks q { s with word := fun _ => 0, kicked := s.world.posted.length } := by
  obtain ⟨-, h⟩ := h
  refine ⟨Nat.le_refl _, ?_⟩
  cases hd : s.daemon with
  | outside b =>
    simp only [hd] at h ⊢
    exact ⟨h.1, .inr fun _ => trivial⟩
  | loading b got =>
    simp only [hd, UioKickSafe] at h hs ⊢
    exact ⟨h.1, hs.imp id fun hs => ⟨fun _ => trivial, hs⟩⟩
  | storing b value n =>
    simp only [hd, UioKickSafe] at h hs ⊢
    exact ⟨h.1, hs.imp id (Or.imp_right fun hn => ⟨hn, fun _ => trivial⟩)⟩
  | dispatch code =>
    simp only [hd] at h ⊢
    obtain ⟨k, hk, -⟩ := h
    exact ⟨k, hk, .inr fun _ => trivial⟩

theorem UioKicks.driver (hl : Layout q) (h : UioKicks q s) {w : VqWorld}
    (hd : DriverStep q (BlkChainOk q) s.world w) : UioKicks q { s with world := w } := by
  obtain ⟨hle, h⟩ := h
  refine ⟨Nat.le_trans hle (DriverSteps.posted_le (.single hd)), ?_⟩
  cases hs : s.daemon with
  | outside b | loading b got | storing b value n =>
    simp only [hs] at h ⊢
    obtain ⟨hb, hp⟩ := h.1.driver hl hd
    exact ⟨hb, hp ▸ h.2⟩
  | dispatch code =>
    simp only [hs] at h ⊢
    obtain ⟨k, hk, h⟩ := h
    exact ⟨k, hk.driver hl hd, h⟩

theorem UioKicks.step (hl : Layout q) (hready : q.ready ≠ 0) (h : UioKicks q s) {a : HandoffAct}
    (hc : UioKickSafe s a) (hs : UioHandoffStep q direct s a s') : UioKicks q s' := by
  cases hs with
  | driver hd => exact h.driver hl hd
  | kick => exact h.kick hc
  | first hd =>
    simp only [UioKicks, hd] at h ⊢
    refine ⟨h.1, h.2.1, h.2.2.imp id fun hz => ⟨hz, .inl ?_⟩⟩
    simp [hz]
  | @load b got hd h4 =>
    simp only [UioKicks, hd] at h ⊢
    refine ⟨h.1, h.2.1, h.2.2.imp id fun ⟨hz, hg⟩ => ⟨hz, .inl fun x hx => ?_⟩⟩
    have hg := hg.resolve_right fun hg => absurd hg.1 (Nat.ne_of_lt h4)
    rcases List.mem_append.1 hx with hx | hx
    · exact hg x hx
    · rw [List.mem_singleton.1 hx, hz]
  | empty hd =>
    simp only [UioKicks, hd] at h ⊢
    exact ⟨h.1, h.2.1, h.2.2.imp id And.left⟩
  | found hd h4 hne =>
    simp only [UioKicks, hd] at h ⊢
    exact ⟨h.1, h.2.1, h.2.2.imp id fun hz => .inl (load_zero h4 (hz.2.resolve_right fun he => hne he.2))⟩
  | store hd h4 =>
    simp only [UioKicks, hd] at h ⊢
    refine ⟨h.1, h.2.1, h.2.2.imp id fun hz => .inl (hz.resolve_right fun he => ?_)⟩
    exact absurd he.1 (Nat.ne_of_lt h4)
  | @write b value fuel hd =>
    simp only [UioKicks, hd, true_and] at h ⊢
    obtain ⟨hle, hb, h⟩ := h
    by_cases hv : value = 0
    · subst hv
      exact ⟨hle, s.kicked, (notifyCode_serves hl hready direct fuel hb hle).serves, .inl (Nat.le_refl _)⟩
    · rcases h with hp | hzero | hword
      · exact ⟨hle, s.kicked, notifyCode_other hl direct fuel hb hv hp, .inl (Nat.le_refl _)⟩
      · exact absurd hzero hv
      · exact ⟨hle, 0, notifyCode_other hl direct fuel hb hv (Nat.zero_le _), .inr hword⟩
  | @call c k r w hd ha =>
    simp only [UioKicks, hd] at h ⊢
    obtain ⟨hle, n, hn, h⟩ := h
    have hr : vqHandler q (BlkChainOk q) s.world c r w := ⟨s.world, .refl, ha⟩
    exact ⟨Nat.le_trans hle (vq_grows hr).1.posted, n, hn r w hr, h⟩
  | done hd =>
    simp only [UioKicks, hd] at h ⊢
    obtain ⟨hle, n, hn, h⟩ := h
    obtain ⟨-, hb, hp⟩ := hn _ rfl
    exact ⟨hle, hb, h.imp (fun h => Nat.le_trans h hp) id⟩

end

/-- **No kick is lost on linux-uio, if none tears a load.** In a run in which
no kick is stored between the load of a byte other than 0 of the word and the
end of the load of an empty word or of the reset of another value (unless
nothing is left to be consumed), whenever the word is empty and the daemon outside its
`QUEUE_NOTIFY` step, the device has consumed every request whose kick was
stored. -/
theorem uio_kicks_consumed (q : VirtioQueue) (hl : Layout q) (hready : q.ready ≠ 0) (direct : Bool)
    {s s' : UioHandoff} {tr : List (UioHandoff × HandoffAct)} (h0 : (uioHandoffLts q direct).init s)
    (h : (uioHandoffLts q direct).Trace s tr s') (hc : ∀ p ∈ tr, UioKickSafe p.1 p.2)
    {b : FabricBinding BlkdState} (hout : s'.daemon = .outside b) (hempty : s'.Empty) :
    s'.kicked ≤ s'.world.published.length ∧
      (b.dev.queue 0).lastAvailIdx = UInt16.ofNat s'.world.published.length := by
  obtain ⟨b₀, hd, hf, -, hk⟩ := h0
  have hinit : UioKicks q s := by
    simp only [UioKicks, hd, hk]
    exact ⟨Nat.zero_le _, hf.between _, .inl (Nat.zero_le _)⟩
  obtain hinv | ⟨_, _, ⟨⟩⟩ := h.lasts (A := UioKicks q) (E := fun _ _ => False)
    (fun _ _ _ ha hc hs _ => ha.step hl hready hc hs) hc hinit
  simp only [UioKicks, hout] at hinv
  obtain ⟨-, hb, hcases⟩ := hinv
  refine ⟨hcases.resolve_right fun hz => ?_, by rw [hb.dev.queue]; rfl⟩
  have := hempty 0 (by decide)
  rw [hz 0] at this
  cases this

/-! ## linux-devmem -/

/-- mirrors src/fabrics/linux_devmem.c:319-331 -/
inductive DevmemDaemon where
  | outside (b : FabricBinding BlkdState)
  | dispatch (code : DeviceCode)

structure DevmemHandoff where
  daemon : DevmemDaemon
  word : UInt32
  world : VqWorld
  kicked : Nat

/-- The word is loaded and stored as a whole; it is put back when the device returns.
mirrors src/fabrics/linux_devmem.c:319-331 -/
inductive DevmemHandoffStep (q : VirtioQueue) (direct : Bool) (s : DevmemHandoff) :
    HandoffAct → DevmemHandoff → Prop
  | driver {w : VqWorld} : DriverStep q (BlkChainOk q) s.world w →
      DevmemHandoffStep q direct s .driver { s with world := w }
  | kick : DevmemHandoffStep q direct s .kick { s with word := 0, kicked := s.world.posted.length }
  | empty {b : FabricBinding BlkdState} : s.daemon = .outside b → s.word = devmemNotifyIdle →
      DevmemHandoffStep q direct s .daemon s
  | found {b : FabricBinding BlkdState} (fuel : Nat) : s.daemon = .outside b → s.word ≠ devmemNotifyIdle →
      DevmemHandoffStep q direct s .daemon { s with daemon := .dispatch (notifyCode direct fuel b s.word) }
  | call {c : Call} {k : c.Reply → DeviceCode} {r : c.Reply} {w : VqWorld} : s.daemon = .dispatch (.call c k) →
      vqAnswer q s.world c r w →
      DevmemHandoffStep q direct s .daemon { s with world := w, daemon := .dispatch (k r) }
  | done {b : FabricBinding BlkdState} : s.daemon = .dispatch (.ret (b, true)) →
      DevmemHandoffStep q direct s .daemon { s with word := devmemNotifyIdle, daemon := .outside b }

def devmemHandoffLts (q : VirtioQueue) (direct : Bool) : LTS DevmemHandoff HandoffAct where
  init s := ∃ b, s.daemon = .outside b ∧ Fresh 0 q (b.dev, s.world) ∧ s.word = devmemNotifyIdle ∧ s.kicked = 0
  step := DevmemHandoffStep q direct

/-- What a kick needs: the device is not running or will look at the ring
again, or nothing is left to be consumed. -/
def DevmemKickSafe (q : VirtioQueue) (s : DevmemHandoff) : HandoffAct → Prop
  | .kick => s.world.posted.length ≤ s.world.published.length ∨
    match s.daemon with
    | .outside _ => True
    | .dispatch code => WillLook q code
  | _ => True

def DevmemKicks (q : VirtioQueue) (s : DevmemHandoff) : Prop :=
  s.kicked ≤ s.world.posted.length ∧ (s.word = 0 ∨ s.word = devmemNotifyIdle) ∧
    match s.daemon with
    | .outside b => Between 0 q (BlkChainOk q) (b.dev, s.world) ∧
        (s.kicked ≤ s.world.published.length ∨ s.word = 0)
    | .dispatch code => ServesSeen q s.kicked code s.world

section
variable {q : VirtioQueue} {direct : Bool} {s s' : DevmemHandoff}

/-- The device's next look at the ring covers a kick made now. -/
theorem ServesSeen.raise {k k' : Nat} {code : DeviceCode} {w : VqWorld} (h : ServesSeen q k code w)
    (hl : WillLook q code) (hk : k' ≤ w.posted.length) : ServesSeen q k' code w := by
  refine wp_mono (wp_and h (hl.seen hk)) ?_
  rintro o w' ⟨h1, h2⟩ r hr
  obtain ⟨htrue, hb, hcount, -⟩ := h1 r hr
  refine ⟨htrue, hb, hcount, (h2 r hr).resolve_left ?_⟩
  rw [htrue]
  exact Bool.noConfusion

theorem DevmemKicks.kick (h : DevmemKicks q s) (hs : DevmemKickSafe q s .kick) :
    DevmemKicks q { s with word := 0, kicked := s.world.posted.length } := by
  obtain ⟨-, -, h⟩ := h
  refine ⟨Nat.le_refl _, .inl rfl, ?_⟩
  cases hd : s.daemon with
  | outside b =>
    simp only [hd] at h ⊢
    exact ⟨h.1, .inr trivial⟩
  | dispatch code =>
    simp only [hd, DevmemKickSafe] at h hs ⊢
    rcases hs with hs | hs
    · -- everything is consumed already
      have hkeep := wp_keeps (R := vqHandler q (BlkChainOk q)) (I := fun w => s.world.posted.length ≤ w.published.length)
        (fun _ _ _ _ hi hr => Nat.le_trans hi (vq_grows hr).1.published) code hs
      refine wp_mono (wp_and h hkeep) ?_
      rintro o w' ⟨h1, h2⟩ r hr
      obtain ⟨htrue, hb, hcount, -⟩ := h1 r hr
      exact ⟨htrue, hb, hcount, hcount ▸ h2⟩
    · exact h.raise hs (Nat.le_refl _)

theorem DevmemKicks.driver (hl : Layout q) (h : DevmemKicks q s) {w : VqWorld}
    (hd : DriverStep q (BlkChainOk q) s.world w) : DevmemKicks q { s with world := w } := by
  obtain ⟨hle, hw, h⟩ := h
  refine ⟨Nat.le_trans hle (DriverSteps.posted_le (.single hd)), hw, ?_⟩
  cases hs : s.daemon with
  | outside b =>
    simp only [hs] at h ⊢
    obtain ⟨hb, hp⟩ := h.1.driver hl hd
    exact ⟨hb, hp ▸ h.2⟩
  | dispatch code =>
    simp only [hs] at h ⊢
    exact h.driver hl hd

theorem DevmemKicks.step (hl : Layout q) (hready : q.ready ≠ 0) (h : DevmemKicks q s)
    {a : HandoffAct} (hc : DevmemKickSafe q s a) (hs : DevmemHandoffStep q direct s a s') :
    DevmemKicks q s' := by
  cases hs with
  | driver hd => exact h.driver hl hd
  | kick => exact h.kick hc
  | empty => exact h
  | found fuel hd hne =>
    simp only [DevmemKicks, hd] at h ⊢
    obtain ⟨hle, hw, hb, -⟩ := h
    rw [hw.resolve_right hne]
    exact ⟨hle, .inl rfl, notifyCode_serves hl hready direct fuel hb hle⟩
  | @call c k r w hd ha =>
    simp only [DevmemKicks, hd] at h ⊢
    obtain ⟨hle, hw, h⟩ := h
    have hr : vqHandler q (BlkChainOk q) s.world c r w := ⟨s.world, .refl, ha⟩
    exact ⟨Nat.le_trans hle (vq_grows hr).1.posted, hw, h r w hr⟩
  | done hd =>
    simp only [DevmemKicks, hd] at h ⊢
    obtain ⟨hle, hw, h⟩ := h
    obtain ⟨-, hb, hp, hk⟩ := h _ rfl
    exact ⟨hle, .inr trivial, hb, .inl (hp ▸ hk)⟩

end

/-- **No kick is lost on linux-devmem, if none comes after the last look.** In a
run in which no kick is stored while the device runs and will not look at the
ring again (unless nothing is left to be consumed), whenever the word is idle
and the daemon outside its `QUEUE_NOTIFY` step, the device has consumed every
request whose kick was stored. -/
theorem devmem_kicks_consumed (q : VirtioQueue) (hl : Layout q) (hready : q.ready ≠ 0)
    (direct : Bool) {s s' : DevmemHandoff} {tr : List (DevmemHandoff × HandoffAct)}
    (h0 : (devmemHandoffLts q direct).init s) (h : (devmemHandoffLts q direct).Trace s tr s')
    (hc : ∀ p ∈ tr, DevmemKickSafe q p.1 p.2) {b : FabricBinding BlkdState}
    (hout : s'.daemon = .outside b) (hidle : s'.word = devmemNotifyIdle) :
    s'.kicked ≤ s'.world.published.length ∧
      (b.dev.queue 0).lastAvailIdx = UInt16.ofNat s'.world.published.length := by
  obtain ⟨b₀, hd, hf, hw, hk⟩ := h0
  have hinit : DevmemKicks q s := by
    simp only [DevmemKicks, hd, hk]
    exact ⟨Nat.zero_le _, .inr hw, hf.between _, .inl (Nat.zero_le _)⟩
  obtain hinv | ⟨_, _, ⟨⟩⟩ := h.lasts (A := DevmemKicks q) (E := fun _ _ => False)
    (fun _ _ _ ha hc hs _ => ha.step hl hready hc hs) hc hinit
  simp only [DevmemKicks, hout] at hinv
  obtain ⟨-, -, hb, hcases⟩ := hinv
  refine ⟨hcases.resolve_right fun hz => ?_, by rw [hb.dev.queue]; rfl⟩
  rw [hz] at hidle
  cases hidle

/-! ## Two kicks that are lost -/

/-- While the driver pauses, the device runs through its code. -/
theorem device_path {S : Type} {M : LTS S HandoffAct} {C : S → HandoffAct → Prop}
    (hC : ∀ s, C s .daemon) {q : VirtioQueue} (state : DeviceCode → VqWorld → S)
    (hcall : ∀ {c : Call} {k : c.Reply → DeviceCode} {r : c.Reply} {w w' : VqWorld}, vqAnswer q w c r w' →
      M.step (state (.call c k) w) .daemon (state (k r) w')) (code : DeviceCode) (w : VqWorld)
    {r : FabricBinding BlkdState × Bool} (hr : (code.run (vqRun q) w).1 = .ok r) :
    M.Path C (state code w) (state (.ret r) (code.run (vqRun q) w).2) := by
  induction code generalizing w with
  | ret a =>
    cases hr
    exact .refl _
  | fault e => cases hr
  | call c k ih => exact ((LTS.Path.refl _).tail (hcall (vqRun_answer q w c)) (hC _)).append (ih _ _ hr)

/-- A FLUSH request, as chain 0 → 1. -/
def flushPost : Post := ⟨0, [⟨0x4000, 16, 1, 1⟩], ⟨0x5000, 1, 2, 0⟩⟩

/-- Its descriptors and its header; the rings are empty. -/
def flushMem : Mem :=
  memOf [(0x1001, 0x40), (0x1008, 16), (0x100c, 1), (0x100e, 1), (0x1011, 0x50), (0x1018, 1), (0x101c, 2),
    (0x4000, 4)]

def flushWorld : VqWorld := ⟨flushMem, [], [], 0⟩

/-- The block device on the queue of `txQueue`. -/
def flushBinding : FabricBinding BlkdState :=
  let b := blkdConnect noBuffer emptyDisk
  { b with mmio := { b.mmio with vdev := { b.mmio.vdev with queues := [txQueue] } } }

theorem flushPost_ok : BlkChainOk txQueue flushPost := by
  refine ⟨⟨fun j hj => ?_, by decide, fun d hd => ?_⟩, by decide, by decide⟩
  · have hpath : chainPath flushPost.head flushPost.descs = [0, 1] := rfl
    rw [hpath, List.mem_cons, List.mem_singleton] at hj
    rcases hj with rfl | rfl <;> decide
  · simp only [flushPost, List.cons_append, List.nil_append, List.mem_cons, List.not_mem_nil, or_false] at hd
    rcases hd with rfl | rfl <;> exact ⟨by decide, by decide, by decide⟩

theorem flushBinding_fresh : Fresh 0 txQueue (flushBinding.dev, flushWorld) :=
  ⟨⟨by decide, rfl⟩, rfl, rfl, by decide +kernel, by decide +kernel⟩

/-- The world after the driver has put the request into the next slot. -/
def flushNext (w : VqWorld) : VqWorld :=
  { w with mem := writeBytes w.mem 0x2002 [UInt8.ofNat (w.posted.length + 1)], posted := w.posted ++ [flushPost] }

theorem flush_posts {w : VqWorld} (hdone : w.posted.length = w.published.length)
    (hchain : ChainAt (flushNext w).mem txQueue 0 flushPost.descs flushPost.last)
    (hslot : availSlot txQueue (flushNext w).mem (availIdx txQueue w.mem).toNat = 0)
    (hidx : availIdx txQueue (flushNext w).mem = availIdx txQueue w.mem + 1) :
    DriverStep txQueue (BlkChainOk txQueue) w (flushNext w) := by
  have hnum : txQueue.num.toNat = 4 := rfl
  refine .post (by omega) flushPost_ok ⟨fun x hx => ?_, fun k h1 h2 => ?_, fun k p h1 h2 => ?_⟩ hchain hslot hidx
  · have hx : 0x3000 ≤ x := hx.1
    exact writeBytes_out (.inr (by simp only [List.length_singleton]; omega))
  · omega
  · have := (List.getElem?_eq_some_iff.1 h2).1
    omega

theorem flush_first : DriverStep txQueue (BlkChainOk txQueue) flushWorld (flushNext flushWorld) :=
  flush_posts rfl (by decide +kernel) (by decide +kernel) (by decide +kernel)

/-- The load of the first byte finds the word empty, the kick comes, and the
other bytes complete the value 255: the word is reset, and the device, asked
for queue 255, only answers with the interrupt level. -/
theorem torn_load_loses_kick :
    ∃ s b, (uioHandoffLts txQueue false).Reachable s ∧ s.daemon = .outside b ∧
    s.Empty ∧ s.kicked = 1 ∧ s.world.published = [] ∧ (b.dev.queue 0).lastAvailIdx = 0 := by
  have h : (uioHandoffLts txQueue false).Reachable ⟨.outside flushBinding, fun _ => 0xff, flushWorld, 0⟩ :=
    ⟨_, [], ⟨flushBinding, rfl, flushBinding_fresh, fun _ _ => rfl, rfl⟩, .nil _⟩
  have h := h.tail (.first rfl)
  have h := h.tail (.driver flush_first)
  have h := h.tail .kick
  have h := h.tail (.load rfl (by decide))
  have h := h.tail (.load rfl (by decide))
  have h := h.tail (.load rfl (by decide))
  have h := h.tail (.found rfl rfl (by decide))
  have h := h.tail (.store rfl (by decide))
  have h := h.tail (.store rfl (by decide))
  have h := h.tail (.store rfl (by decide))
  have h := h.tail (.store rfl (by decide))
  have h := h.tail (.write 1 rfl)
  have h := h.tail (.call (c := .lowerIrq) (r := true) rfl ⟨rfl, rfl⟩)
  have h := h.tail (.done rfl)
  refine ⟨_, _, h, rfl, ?_, rfl, rfl, rfl⟩
  unfold UioHandoff.Empty
  decide

/-- What the device does with the first request. -/
def flushServed : Except Fault (FabricBinding BlkdState × Bool) × VqWorld :=
  (notifyCode false 5 flushBinding 0).run (vqRun txQueue) (flushNext flushWorld)

theorem flushServed_ok : ∃ b, flushServed.1 = .ok (b, true) ∧ (b.dev.queue 0).lastAvailIdx = 1 := by
  have h : (match flushServed.1 with
      | .ok r => r.2 && (r.1.dev.queue 0).lastAvailIdx == 1
      | .error _ => false) = true := by decide +kernel
  revert h
  cases flushServed.1 with
  | error e => exact nofun
  | ok r =>
    obtain ⟨b, ok⟩ := r
    intro h
    obtain ⟨rfl, hi⟩ := Bool.and_eq_true_iff.1 h
    exact ⟨b, rfl, by simpa using hi⟩

/-- The word after the four stores of the empty mark over a kick. -/
def storedMark : Nat → UInt8 := fun i =>
  if i = 3 then 0xff else if i = 2 then 0xff else if i = 1 then 0xff else if i = 0 then 0xff else 0

theorem uio_kicks_consumed_one : ∃ s tr s' b, (uioHandoffLts txQueue false).Trace s tr s' ∧
    (∀ p ∈ tr, UioKickSafe p.1 p.2) ∧ s'.daemon = .outside b ∧ s'.Empty ∧ s'.kicked = 1 ∧
    s'.kicked ≤ s'.world.published.length ∧
    (b.dev.queue 0).lastAvailIdx = UInt16.ofNat s'.world.published.length := by
  obtain ⟨b, hb, -⟩ := flushServed_ok
  have hserve := device_path (M := uioHandoffLts txQueue false) (C := UioKickSafe) (fun _ => trivial) (q := txQueue)
    (fun code w => ⟨.dispatch code, storedMark, w, 1⟩) (fun ha => .call rfl ha) _ _ hb
  have h := LTS.Path.refl (M := uioHandoffLts txQueue false) (C := UioKickSafe)
    ⟨.outside flushBinding, fun _ => 0xff, flushWorld, 0⟩
  have h := h.tail (.driver flush_first) trivial
  have h := h.tail .kick (.inr trivial)
  have h := h.tail (.first rfl) trivial
  have h := h.tail (.load rfl (by decide)) trivial
  have h := h.tail (.load rfl (by decide)) trivial
  have h := h.tail (.load rfl (by decide)) trivial
  have h := h.tail (.found rfl rfl (by decide)) trivial
  have h := h.tail (.store rfl (by decide)) trivial
  have h := h.tail (.store rfl (by decide)) trivial
  have h := h.tail (.store rfl (by decide)) trivial
  have h := h.tail (.store rfl (by decide)) trivial
  have h := h.tail (.write 5 rfl) trivial
  obtain ⟨tr, ht, hc⟩ := (h.append hserve).tail (.done rfl) trivial
  have hempty : ∀ i < 4, storedMark i = 0xff := by decide
  exact ⟨_, tr, _, b, ht, hc, rfl, hempty, rfl, uio_kicks_consumed txQueue txQueue_layout (by decide) false
    ⟨flushBinding, rfl, flushBinding_fresh, fun _ _ => rfl, rfl⟩ ht hc rfl hempty⟩

def devmemStart : DevmemHandoff := ⟨.outside flushBinding, devmemNotifyIdle, flushWorld, 0⟩

theorem devmemStart_init : (devmemHandoffLts txQueue false).init devmemStart :=
  ⟨flushBinding, rfl, flushBinding_fresh, rfl, rfl⟩

/-- A post, a kick, and the device's answer up to its return. -/
theorem devmem_served :
    ∃ b, (devmemHandoffLts txQueue false).Path (DevmemKickSafe txQueue) devmemStart
      ⟨.dispatch (.ret (b, true)), 0, flushServed.2, 1⟩ ∧ (b.dev.queue 0).lastAvailIdx = 1 := by
  obtain ⟨b, hb, hi⟩ := flushServed_ok
  have hserve := device_path (M := devmemHandoffLts txQueue false) (C := DevmemKickSafe txQueue) (fun _ => trivial)
    (q := txQueue) (fun code w => ⟨.dispatch code, 0, w, 1⟩) (fun ha => .call rfl ha) _ _ hb
  have h := LTS.Path.refl (M := devmemHandoffLts txQueue false) (C := DevmemKickSafe txQueue) devmemStart
  have h := h.tail (.driver flush_first) trivial
  have h := h.tail .kick (.inr trivial)
  have h := h.tail (.found 5 rfl (by decide)) trivial
  exact ⟨b, h.append hserve, hi⟩

theorem devmem_kicks_consumed_one :
    ∃ tr s b, (devmemHandoffLts txQueue false).Trace devmemStart tr s ∧
    (∀ p ∈ tr, DevmemKickSafe txQueue p.1 p.2) ∧ s.daemon = .outside b ∧ s.word = devmemNotifyIdle ∧
    s.kicked = 1 ∧ s.kicked ≤ s.world.published.length ∧
    (b.dev.queue 0).lastAvailIdx = UInt16.ofNat s.world.published.length := by
  obtain ⟨b, h, -⟩ := devmem_served
  obtain ⟨tr, ht, hc⟩ := h.tail (.done rfl) trivial
  exact ⟨tr, _, b, ht, hc, rfl, rfl, rfl,
    devmem_kicks_consumed txQueue txQueue_layout (by decide) false devmemStart_init ht hc rfl rfl⟩

/-- The first request is served; the second one is posted and kicked before
the word is put back. -/
theorem late_kick_erased :
    ∃ s b, (devmemHandoffLts txQueue false).Reachable s ∧ s.daemon = .outside b ∧
    s.word = devmemNotifyIdle ∧ s.kicked = 2 ∧ s.world.published.length = 1 ∧
    (b.dev.queue 0).lastAvailIdx = 1 := by
  obtain ⟨b, h, hi⟩ := devmem_served
  have hnext : DriverStep txQueue (BlkChainOk txQueue) flushServed.2 (flushNext flushServed.2) :=
    flush_posts (by decide +kernel) (by decide +kernel) (by decide +kernel) (by decide +kernel)
  have hlen : (flushNext flushServed.2).posted.length = 2 ∧ (flushNext flushServed.2).published.length = 1 := by
    decide +kernel
  have h := h.reachable ⟨_, [], devmemStart_init, .nil _⟩
  have h := h.tail (.driver hnext)
  have h := h.tail .kick
  have h := h.tail (.done rfl)
  exact ⟨_, b, h, rfl, rfl, hlen.1, hlen.2, hi⟩

end AcsVirt.L4
