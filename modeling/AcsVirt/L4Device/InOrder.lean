import AcsVirt.L2Machine.Ram
import AcsVirt.L3Protocol.Virtqueue
import AcsVirt.L4Device.Connection

/-!
# Completions are in order and exactly once

The service loop of both daemons under `vqHandler`: every call succeeds, and
between any two calls the driver posts as it likes. `Serving n p` is the
state between taking the `n`-th post `p` from the available ring and
publishing it; a chain handler is asked only to keep it (`Completes`), which
both do (`processChain_completes`, `processTxChain_completes`) because all
they write is in the chain's own buffers. The loop then publishes the posts one by one
(`serviceLoop_inOrder`), and a notification ends with exactly the posts
counted at its last look at the available index.

The loop ends only when it finds the ring empty, so with a driver that never
stops posting it does not return; running out of fuel means that this many
chains were completed, or that the fuel was not above the queue size.
-/
namespace AcsVirt.L4

open L1 L2 L3

variable {P : Type}

section
variable {q : VirtioQueue} {ok : Post → Prop}

/-- The `n`-th post is being served: not yet published, and still in memory. -/
structure Serving (q : VirtioQueue) (ok : Post → Prop) (n : Nat) (p : Post) (w : VqWorld) :
    Prop where
  inv : VqInv q ok w
  count : w.published.length = n
  post : w.posted[n]? = some p

theorem Serving.later {n : Nat} {p : Post} {w w' : VqWorld} (h : Serving q ok n p w)
    (hl : Later q ok w w') : Serving q ok n p w' := by
  refine ⟨hl.inv, by rw [hl.published]; exact h.count, ?_⟩
  obtain ⟨t, ht⟩ := hl.posted
  have hlt := (List.getElem?_eq_some_iff.1 h.post).1
  rw [← ht, List.getElem?_append_left hlt]
  exact h.post

theorem Serving.post_ok {n : Nat} {p : Post} {w : VqWorld} (h : Serving q ok n p w) : ok p :=
  h.inv.posts p (List.mem_of_getElem? h.post)

/-! ## Calls -/

theorem vq_read (hl : Layout q) {w w' : VqWorld} (hi : VqInv q ok w) {gpa : UInt64} {len : UInt32}
    {r : Option Bytes} (h : vqHandler q ok w (.dmaReadInto gpa len) r w') :
    Later q ok w w' ∧ r = some (readBytes w'.mem gpa.toNat len.toNat) ∧
      (gpa = q.avail + 2 → w'.seen = w'.posted.length) := by
  obtain ⟨w₁, hd, hr, hw⟩ := h
  have hlater := hd.later hl hi
  by_cases ha : gpa = q.avail + 2
  · rw [if_pos ha] at hw
    subst hw
    have h1 := hlater.inv
    exact ⟨⟨⟨h1.le, h1.window, h1.avail, h1.used, h1.slots, h1.chains, h1.posts, h1.order⟩,
      hlater.published, hlater.posted⟩, hr, fun _ => rfl⟩
  · rw [if_neg ha] at hw
    subst hw
    exact ⟨hlater, hr, fun h => absurd h ha⟩

theorem vq_write_outside (hl : Layout q) (hok : ∀ p, ok p → InTable q p) {w w' : VqWorld}
    (hi : VqInv q ok w) {gpa : UInt64} {data : Bytes} {r : Bool}
    (ho : Outside q ⟨gpa.toNat, data.length⟩) (h : vqHandler q ok w (.dmaWrite gpa data) r w') :
    Later q ok w w' ∧ r = true := by
  obtain ⟨w₁, hd, hr, rfl⟩ := h
  have hlater := hd.later hl hi
  exact ⟨hlater.trans (hlater.inv.store_outside hl hok ho), hr⟩

theorem vq_preadMapped (hl : Layout q) (hok : ∀ p, ok p → InTable q p) {w w' : VqWorld}
    (hi : VqInv q ok w) {gpa offset : UInt64} {len : UInt32} {r : Bool}
    (ho : Outside q ⟨gpa.toNat, len.toNat⟩)
    (h : vqHandler q ok w (.preadMapped gpa offset len) r w') : Later q ok w w' ∧ r = true := by
  obtain ⟨w₁, hd, hr, data, hlen, rfl⟩ := h
  have hlater := hd.later hl hi
  rw [← hlen] at ho
  exact ⟨hlater.trans (hlater.inv.store_outside hl hok ho), hr⟩

/-- Calls that leave memory alone. -/
def memoryless : Call → Bool
  | .dmaReadInto _ _ => false
  | .dmaWrite _ _ => false
  | .preadMapped _ _ _ => false
  | _ => true

theorem vq_memoryless (hl : Layout q) {w w' : VqWorld} (hi : VqInv q ok w) {c : Call} {r : c.Reply}
    (hc : memoryless c = true) (h : vqHandler q ok w c r w') :
    Later q ok w w' ∧ w'.seen = w.seen := by
  obtain ⟨w₁, hd, ha⟩ := h
  have hw : w' = w₁ := by
    cases c with
    | dmaReadInto gpa len => cases hc
    | dmaWrite gpa data => cases hc
    | preadMapped gpa offset len => cases hc
    | dmaMap gpa len => exact ha
    | _ => exact ha.2
  subst hw
  exact ⟨hd.later hl hi, hd.seen⟩

/-- A call that answers whether it succeeded does. -/
theorem vq_true {w w' : VqWorld} {c : Call} {r : c.Reply} (h : vqHandler q ok w c r w') :
    match c, r with
    | .realloc _, r => r = true
    | .pwrite _ _, r => r = true
    | .fsync, r => r = true
    | .consoleWrite _, r => r = true
    | .raiseIrq, r => r = true
    | .lowerIrq, r => r = true
    | .pread _ len, r => ∃ data : Bytes, r = some data ∧ data.length = len.toNat
    | _, _ => True := by
  obtain ⟨w₁, -, ha⟩ := h
  cases c with
  | dmaReadInto gpa len => trivial
  | dmaWrite gpa data => trivial
  | preadMapped gpa offset len => trivial
  | dmaMap gpa len => trivial
  | _ => exact ha.1

/-! ## Ring operations -/

/-- The queue with the backend cursor after `n` completions. -/
def atCursor (q : VirtioQueue) (n : Nat) : VirtioQueue := { q with lastAvailIdx := UInt16.ofNat n }

theorem fabricDmaReadU16_vq (hl : Layout q) {w : VqWorld} (hi : VqInv q ok w) (gpa : UInt64) :
    wp (vqHandler q ok) (fabricDmaReadU16 gpa) (fun o w' => Later q ok w w' ∧
      o = .ok (some (virtioLoadLe16 (readBytes w'.mem gpa.toNat 2))) ∧
      (gpa = q.avail + 2 → w'.seen = w'.posted.length)) w := by
  intro r w' h
  obtain ⟨hlater, hr, hseen⟩ := vq_read hl hi h
  subst hr
  exact ⟨hlater, rfl, hseen⟩

/-- A look at the available ring: empty exactly when everything posted is
published, else the next post's head. -/
theorem virtioNextAvail_vq (hl : Layout q) {w : VqWorld} (hi : VqInv q ok w) {n : Nat}
    (hn : w.published.length = n) :
    wp (vqHandler q ok) (virtioNextAvail (atCursor q n)) (fun o w' => VqInv q ok w' ∧
      w'.published.length = n ∧ ((o = .ok (some none) ∧ w'.seen = n) ∨
        ∃ p, o = .ok (some (some p.head)) ∧ w'.posted[n]? = some p)) w := by
  refine wp_seq (fabricDmaReadU16_vq hl hi _) ?_ fun e w' h => by cases h.2.1
  intro a w₁ h
  obtain ⟨hlater, ha, hseen⟩ := h
  cases ha
  have hn₁ : w₁.published.length = n := by rw [hlater.published]; exact hn
  have hidx : virtioLoadLe16 (readBytes w₁.mem ((atCursor q n).avail + 2).toNat 2) =
      UInt16.ofNat w₁.posted.length := by
    rw [show (atCursor q n).avail = q.avail from rfl, availIdx_addr hl]
    exact hlater.inv.avail
  dsimp only
  rw [hidx]
  refine wp_ite (fun he => ?_) fun he => ?_
  · -- equal counters: the histories have the same length
    have hlen := hlater.inv.idx_eq hl (by rw [hn₁]; exact he)
    exact ⟨hlater.inv, hn₁, .inl ⟨rfl, by rw [hseen rfl, hlen, hn₁]⟩⟩
  · refine wp_ite (fun h0 => absurd h0 hl.num16_ne) fun _ => ?_
    refine wp_seq (fabricDmaReadU16_vq hl hlater.inv _) ?_ fun e w' h => by cases h.2.1
    intro a w₂ h
    obtain ⟨hlater₂, ha, -⟩ := h
    cases ha
    have hlt : n < w₁.posted.length := by
      have h1 := hlater.inv.le
      by_cases heq : w₁.posted.length = n
      · exact absurd (by rw [heq]; rfl) he
      · omega
    have hserve : Serving q ok n w₁.posted[n] w₁ := ⟨hlater.inv, hn₁, List.getElem?_eq_getElem hlt⟩
    have h2 := hserve.later hlater₂
    refine ⟨h2.inv, h2.count, .inr ⟨w₁.posted[n], ?_, h2.post⟩⟩
    have hslot := h2.inv.slots n _ (Nat.le_of_eq h2.count) h2.post
    rw [atCursor, availElem_addr hl]
    exact congrArg (fun x => Except.ok (some (some x))) hslot

theorem pollAvail_vq (hl : Layout q) {n : Nat} (retries : Nat) {w : VqWorld} (hi : VqInv q ok w)
    (hn : w.published.length = n) :
    wp (vqHandler q ok) (pollAvail (atCursor q n) retries) (fun o w' => VqInv q ok w' ∧
      w'.published.length = n ∧ ((o = .ok (some none) ∧ w'.seen = n) ∨
        ∃ p, o = .ok (some (some p.head)) ∧ w'.posted[n]? = some p)) w := by
  induction retries generalizing w with
  | zero => exact virtioNextAvail_vq hl hi hn
  | succ k ih =>
    refine wp_seq (virtioNextAvail_vq hl hi hn) ?_ ?_
    · intro a w₁ h
      obtain ⟨hi₁, hn₁, h | h⟩ := h
      · obtain ⟨ha, -⟩ := h
        cases ha
        exact ih hi₁ hn₁
      · obtain ⟨p, ha, hp⟩ := h
        cases ha
        exact ⟨hi₁, hn₁, .inr ⟨p, rfl, hp⟩⟩
    · intro e w₁ h
      obtain ⟨-, -, h | h⟩ := h
      · cases h.1
      · obtain ⟨p, ha, -⟩ := h
        cases ha

/-- The used element of the post being served holds its head. -/
structure Filled (q : VirtioQueue) (ok : Post → Prop) (n : Nat) (p : Post) (w : VqWorld) :
    Prop where
  serving : Serving q ok n p w
  id : usedId q w.mem n = p.head.toUInt32

theorem vq_store_id (hl : Layout q) (hok : ∀ p, ok p → InTable q p) {n : Nat} {p : Post}
    {w w' : VqWorld} (hs : Serving q ok n p w) (c : Nat) {r : Bool}
    (h : vqHandler q ok w (.dmaWrite (usedElem (atCursor q c) (UInt16.ofNat n))
      (virtioStoreLe32 p.head.toUInt32)) r w') : r = true ∧ Filled q ok n p w' := by
  obtain ⟨v, hd, hr, rfl⟩ := h
  have hv := hs.later (hd.later hl hs.inv)
  have hmod := mod_num_lt hl n
  have helem : (usedElem (atCursor q c) (UInt16.ofNat n)).toNat =
      q.used.toNat + 4 + 8 * (n % q.num.toNat) := usedElem_addr hl c n
  rw [helem]
  refine ⟨hr, hv.later (hv.inv.store_elem hl hok (by omega)
    (by rw [virtioStoreLe32_length]; omega)), ?_⟩
  have hb := readBytes_writeBytes v.mem (q.used.toNat + 4 + 8 * (n % q.num.toNat))
    (virtioStoreLe32 p.head.toUInt32)
  rw [virtioStoreLe32_length] at hb
  simp only [VqWorld.store]
  rw [usedId, hb, virtioLoadLe32_store]

theorem vq_store_len (hl : Layout q) (hok : ∀ p, ok p → InTable q p) {n : Nat} {p : Post}
    {w w' : VqWorld} (hf : Filled q ok n p w) (c : Nat) (len : UInt32) {r : Bool}
    (h : vqHandler q ok w (.dmaWrite (usedElem (atCursor q c) (UInt16.ofNat n) + 4)
      (virtioStoreLe32 len)) r w') : r = true ∧ Filled q ok n p w' := by
  obtain ⟨v, hd, hr, rfl⟩ := h
  have hv := hf.serving.later (hd.later hl hf.serving.inv)
  have hmod := mod_num_lt hl n
  have hend := hl.usedEnd
  have helem : (usedElem (atCursor q c) (UInt16.ofNat n) + 4).toNat =
      q.used.toNat + 4 + 8 * (n % q.num.toNat) + 4 := by
    have h1 : (usedElem (atCursor q c) (UInt16.ofNat n)).toNat =
      q.used.toNat + 4 + 8 * (n % q.num.toNat) := usedElem_addr hl c n
    rw [UInt64.toNat_add, h1, show (4 : UInt64).toNat = 4 from rfl]
    omega
  rw [helem]
  refine ⟨hr, hv.later (hv.inv.store_elem hl hok (by omega)
    (by rw [virtioStoreLe32_length]; omega)), ?_⟩
  rw [← hf.id, ← usedId_congr hl hd.usedRegion]
  simp only [VqWorld.store, usedId]
  rw [readBytes_writeBytes_apart fun x h1 h2 => .inl (by omega)]

theorem vq_store_usedIdx (hl : Layout q) (hok : ∀ p, ok p → InTable q p) {n : Nat} {p : Post}
    {w w' : VqWorld} (hf : Filled q ok n p w) {r : Bool}
    (h : vqHandler q ok w (.dmaWrite (q.used + 2) (virtioStoreLe16 (UInt16.ofNat n + 1))) r w') :
    r = true ∧ VqInv q ok w' ∧ w'.published.length = n + 1 := by
  obtain ⟨v, hd, hr, rfl⟩ := h
  have hv := hf.serving.later (hd.later hl hf.serving.inv)
  have hid : usedId q v.mem v.published.length = p.head.toUInt32 := by
    rw [hv.count, ← hf.id, ← usedId_congr hl hd.usedRegion]
  rw [usedIdx_addr hl]
  obtain ⟨hi, hpub⟩ := hv.inv.store_usedIdx hl hok (by rw [hv.count]; exact hv.post) hid
    (m := writeBytes v.mem (q.used.toNat + 2) (virtioStoreLe16 (UInt16.ofNat n + 1)))
    (by rw [hv.inv.used, hv.count])
  refine ⟨hr, hi, ?_⟩
  rw [hpub, List.length_append, List.length_singleton, hv.count]

/-- Publishing the post being served. -/
theorem virtioAddUsed_vq (hl : Layout q) (hok : ∀ p, ok p → InTable q p) {n : Nat} {p : Post}
    {w : VqWorld} (hs : Serving q ok n p w) (c : Nat) (len : UInt32) :
    wp (vqHandler q ok) (virtioAddUsed (atCursor q c) p.head len) (fun o w' => o = .ok true ∧
      VqInv q ok w' ∧ w'.published.length = n + 1) w := by
  refine wp_seq (fabricDmaReadU16_vq hl hs.inv _) ?_ fun e w' h => by cases h.2.1
  intro a w₁ h
  obtain ⟨hlater, ha, -⟩ := h
  cases ha
  have hs₁ := hs.later hlater
  have hidx : virtioLoadLe16 (readBytes w₁.mem ((atCursor q c).used + 2).toNat 2) = UInt16.ofNat n := by
    rw [show (atCursor q c).used = q.used from rfl, usedIdx_addr hl, ← hs₁.count]
    exact hs₁.inv.used
  dsimp only
  rw [hidx]
  refine wp_ite (fun h0 => absurd h0 hl.num16_ne) fun _ => ?_
  intro r w₂ h
  obtain ⟨hr, hf₂⟩ := vq_store_id hl hok hs₁ c h
  subst hr
  intro r w₃ h
  obtain ⟨hr, hf₃⟩ := vq_store_len hl hok hf₂ c len h
  subst hr
  intro r w₄ h
  obtain ⟨hr, hi, hn⟩ := vq_store_usedIdx hl hok hf₃ h
  subst hr
  exact ⟨rfl, hi, hn⟩

/-! ## The service loop -/

/-- Queue `i` of the device is `q`, with the cursor after `n` completions. -/
structure DevAt (i : Nat) (q : VirtioQueue) (n : Nat) (d : Device P) : Prop where
  exist : i < d.vdev.queues.length
  queue : d.queue i = atCursor q n

theorem DevAt.of_vdev {i n : Nat} {d d' : Device P} (h : DevAt i q n d) (hv : d'.vdev = d.vdev) :
    DevAt i q n d' := by
  refine ⟨by rw [hv]; exact h.exist, ?_⟩
  rw [← h.queue, Device.queue, hv, Device.queue]

theorem DevAt.advance {i n : Nat} {d : Device P} (h : DevAt i q n d) :
    DevAt i q (n + 1) (d.advance i) := by
  have hex := h.exist
  refine ⟨by simpa [Device.advance] using hex, ?_⟩
  have hq := h.queue
  simp only [Device.queue, List.getD_eq_getElem?_getD, List.getElem?_eq_getElem hex,
    Option.getD_some] at hq
  simp only [Device.queue, Device.advance, List.getD_eq_getElem?_getD, List.getElem?_modify,
    List.getElem?_eq_getElem hex, hq, atCursor]
  simp

/-- What the loop needs of a chain handler: it finishes and leaves the queue
and the device as they are. -/
def Completes (q : VirtioQueue) (ok : Post → Prop) (i fuel : Nat)
    (process : Device P → UInt16 → FabricM (Device P × Option UInt32)) : Prop :=
  ∀ n p c d w, DevAt i q c d → Serving q ok n p w →
    wp (vqHandler q ok) (process d p.head) (fun o w' => Serving q ok n p w' ∧
      ((∃ d' len, o = .ok (d', some len) ∧ d'.vdev = d.vdev) ∨
        (o = .error .fuel ∧ fuel ≤ q.num.toNat))) w

theorem serviceLoop_inOrder (hl : Layout q) (hok : ∀ p, ok p → InTable q p) {i pfuel : Nat}
    {process : Device P → UInt16 → FabricM (Device P × Option UInt32)}
    (hp : Completes q ok i pfuel process) (fuel : Nat) (d : Device P) (usedAny : Bool) (w : VqWorld)
    (hi : VqInv q ok w) (hd : DevAt i q w.published.length d) :
    wp (vqHandler q ok) (serviceLoop i process fuel d usedAny) (fun o w' => VqInv q ok w' ∧
      ((∃ d' b, o = .ok (d', some b) ∧ DevAt i q w'.published.length d' ∧
          w'.seen = w'.published.length) ∨
        (o = .error .fuel ∧
          (pfuel ≤ q.num.toNat ∨ w.published.length + fuel ≤ w'.published.length)))) w := by
  induction fuel generalizing d usedAny w with
  | zero => exact ⟨hi, .inr ⟨rfl, .inr (Nat.le_refl _)⟩⟩
  | succ fuel ih =>
    unfold serviceLoop
    rw [hd.queue]
    refine wp_seq (pollAvail_vq hl 20 hi rfl) ?_ ?_
    · intro a w₁ h
      obtain ⟨hi₁, hn₁, h | h⟩ := h
      · -- nothing left: the last look counted exactly what is published
        obtain ⟨ha, hseen⟩ := h
        cases ha
        refine ⟨hi₁, .inl ⟨d, usedAny, rfl, by rw [hn₁]; exact hd, ?_⟩⟩
        rw [hseen, hn₁]
      · obtain ⟨p, ha, hpost⟩ := h
        cases ha
        refine wp_seq (hp _ p _ d w₁ hd ⟨hi₁, hn₁, hpost⟩) ?_ ?_
        · intro a w₂ h
          obtain ⟨hs₂, h | h⟩ := h
          · obtain ⟨d', len, ha, hv⟩ := h
            cases ha
            have hd' := hd.of_vdev hv
            dsimp only
            rw [hd'.queue]
            refine wp_seq (virtioAddUsed_vq hl hok hs₂ _ len) ?_ fun e w' h => by cases h.1
            intro b w₃ h
            obtain ⟨hb, hi₃, hn₃⟩ := h
            cases hb
            have hih := ih (d'.advance i) true w₃ hi₃ (by rw [hn₃]; exact hd'.advance)
            refine wp_mono hih fun o w' h => ⟨h.1, ?_⟩
            rcases h.2 with h | h
            · exact .inl h
            · refine .inr ⟨h.1, ?_⟩
              rw [hn₃] at h
              omega
          · cases h.1
        · intro e w₂ h
          obtain ⟨hs₂, h | h⟩ := h
          · obtain ⟨d', len, ha, -⟩ := h
            cases ha
          · cases h.1
            exact ⟨hs₂.inv, .inr ⟨rfl, .inl h.2⟩⟩
    · intro e w₁ h
      obtain ⟨-, -, h | h⟩ := h
      · cases h.1
      · obtain ⟨p, ha, -⟩ := h
        cases ha

/-! ## Walking a chain -/

/-- Whatever the driver does meanwhile, the walk from `index` finds `rest`. -/
def Walk (q : VirtioQueue) (ok : Post → Prop) (n : Nat) (p : Post) (index : UInt16)
    (rest : List VirtioDesc) : Prop :=
  ∀ w, Serving q ok n p w → ChainAt w.mem q index rest p.last

theorem walk_head (n : Nat) (p : Post) : Walk q ok n p p.head p.descs := by
  intro w h
  exact h.inv.chains n p (Nat.le_of_eq h.count) h.post

theorem Walk.next {n : Nat} {p : Post} {index : UInt16} {d : VirtioDesc} {rest : List VirtioDesc}
    (h : Walk q ok n p index (d :: rest)) : Walk q ok n p d.next rest :=
  fun w hw => (h w hw).2.2

theorem virtioReadDesc_vq (hl : Layout q) {n : Nat} {p : Post} {w : VqWorld}
    (hs : Serving q ok n p w) (c : Nat) (index : UInt16) :
    wp (vqHandler q ok) (virtioReadDesc (atCursor q c) index) (fun o w' => Serving q ok n p w' ∧
      o = .ok (some (descAt w'.mem q index))) w := by
  intro r w' h
  obtain ⟨hlater, hr, -⟩ := vq_read hl hs.inv h
  subst hr
  exact ⟨hs.later hlater, rfl⟩

/-- A chain of at most `num` descriptors, all in the table, with buffers
outside the queue. -/
structure ChainOk (q : VirtioQueue) (p : Post) : Prop where
  inTable : InTable q p
  short : p.descs.length < q.num.toNat
  bufs : ∀ d ∈ p.descs ++ [p.last], Outside q d.buf

/-! ## Console transmit chains -/

theorem txDesc_vq (hl : Layout q) {n : Nat} {p : Post} {w : VqWorld} (hs : Serving q ok n p w)
    (d : VirtioDesc) (total : UInt32) :
    wp (vqHandler q ok) (txDesc d total) (fun o w' => Serving q ok n p w' ∧
      ∃ t, o = .ok (some t)) w := by
  unfold txDesc
  refine wp_ite (fun _ => ?_) fun _ => ⟨hs, total, rfl⟩
  intro r w₁ h
  have hs₁ := hs.later (vq_memoryless hl hs.inv rfl h).1
  have hr : r = true := vq_true h
  subst hr
  intro r w₂ h
  obtain ⟨hlater, hr, -⟩ := vq_read hl hs₁.inv h
  have hs₂ := hs₁.later hlater
  subst hr
  intro r w₃ h
  have hs₃ := hs₂.later (vq_memoryless hl hs₂.inv rfl h).1
  have hr : r = true := vq_true h
  subst hr
  exact ⟨hs₃, total + d.len, rfl⟩

/-- One turn of the loop: the descriptor found is `d`, and what is left is to
go on from there. -/
theorem txTurn_vq (hl : Layout q) {n : Nat} {p : Post} {w : VqWorld} (hs : Serving q ok n p w)
    (c fuel : Nat) {index : UInt16} (total : UInt32) {d : VirtioDesc}
    (hd : ∀ w', Serving q ok n p w' → descAt w'.mem q index = d)
    {Q : Except Fault (Option UInt32) → VqWorld → Prop}
    (hgo : ∀ t w', Serving q ok n p w' → wp (vqHandler q ok)
      (if !d.hasNext then return some t else txLoop (atCursor q c) fuel d.next t) Q w') :
    wp (vqHandler q ok) (txLoop (atCursor q c) (fuel + 1) index total) Q w := by
  refine wp_seq (virtioReadDesc_vq hl hs c index) ?_ fun e w' h => by cases h.2
  intro a w₁ h
  obtain ⟨hs₁, ha⟩ := h
  cases ha
  dsimp only
  rw [hd w₁ hs₁]
  refine wp_seq (txDesc_vq hl hs₁ d total) ?_ fun e w' h => by obtain ⟨-, t, ht⟩ := h; cases ht
  intro a w₂ h
  obtain ⟨hs₂, t, ha⟩ := h
  cases ha
  exact hgo t w₂ hs₂

theorem txLoop_vq (hl : Layout q) {n : Nat} {p : Post} (c : Nat) (rest : List VirtioDesc)
    (fuel : Nat) (index : UInt16) (total : UInt32) (w : VqWorld) (hs : Serving q ok n p w)
    (hw : Walk q ok n p index rest) :
    wp (vqHandler q ok) (txLoop (atCursor q c) fuel index total) (fun o w' => Serving q ok n p w' ∧
      ((∃ t, o = .ok (some t)) ∨ (o = .error .fuel ∧ fuel ≤ rest.length))) w := by
  induction rest generalizing fuel index total w with
  | nil =>
    cases fuel with
    | zero => exact ⟨hs, .inr ⟨rfl, Nat.zero_le _⟩⟩
    | succ fuel =>
      refine txTurn_vq hl hs c fuel total (fun w' hw' => (hw w' hw').1) fun t w₁ hs₁ => ?_
      rw [(hw w hs).2]
      exact ⟨hs₁, .inl ⟨t, rfl⟩⟩
  | cons d rest ih =>
    cases fuel with
    | zero => exact ⟨hs, .inr ⟨rfl, Nat.zero_le _⟩⟩
    | succ fuel =>
      refine txTurn_vq hl hs c fuel total (fun w' hw' => (hw w' hw').1) fun t w₁ hs₁ => ?_
      rw [(hw w hs).2.1]
      refine wp_mono (ih fuel d.next t w₁ hs₁ hw.next) fun o w' h => ⟨h.1, ?_⟩
      rcases h.2 with h | h
      · exact .inl h
      · exact .inr ⟨h.1, by simp only [List.length_cons]; omega⟩

theorem processTxChain_completes (hl : Layout q) (hok : ∀ p, ok p → ChainOk q p) (fuel : Nat) :
    Completes q ok 1 fuel (processTxChain fuel) := by
  intro n p c d w hd hs
  have hshort := (hok p hs.post_ok).short
  unfold processTxChain
  rw [hd.queue]
  refine wp_seq (txLoop_vq hl c p.descs fuel p.head 0 w hs (walk_head n p)) ?_ ?_
  · intro a w' h
    obtain ⟨hs', h | h⟩ := h
    · obtain ⟨t, ha⟩ := h
      cases ha
      exact ⟨hs', .inl ⟨d, t, rfl, rfl⟩⟩
    · cases h.1
  · intro e w' h
    obtain ⟨hs', h | h⟩ := h
    · obtain ⟨t, ha⟩ := h
      cases ha
    · cases h.1
      exact ⟨hs', .inr ⟨rfl, by omega⟩⟩

/-! ## Block requests -/

/-- A block request also has a header, and room for the status byte. -/
structure BlkChainOk (q : VirtioQueue) (p : Post) : Prop extends ChainOk q p where
  header : p.descs ≠ []
  status : 1 ≤ p.last.len.toNat

theorem ensureIoBuf_vq (hl : Layout q) {n : Nat} {p : Post} {w : VqWorld} (hs : Serving q ok n p w)
    (s : BlkdState) (len : UInt32) :
    wp (vqHandler q ok) (ensureIoBuf s len) (fun o w' => Serving q ok n p w' ∧
      ∃ s', o = .ok (some s')) w := by
  unfold ensureIoBuf
  refine wp_ite (fun _ => ⟨hs, s, rfl⟩) fun _ => ?_
  intro r w₁ h
  have hs₁ := hs.later (vq_memoryless hl hs.inv rfl h).1
  have hr : r = true := vq_true h
  subst hr
  exact ⟨hs₁, _, rfl⟩

theorem tryMap_vq (hl : Layout q) {n : Nat} {p : Post} {w : VqWorld} (hs : Serving q ok n p w)
    (direct : Bool) (d : VirtioDesc) :
    wp (vqHandler q ok) (tryMap direct d) (fun o w' => Serving q ok n p w' ∧ ∃ b, o = .ok b) w := by
  unfold tryMap
  refine wp_ite (fun _ => ?_) fun _ => ⟨hs, false, rfl⟩
  intro r w₁ h
  exact ⟨hs.later (vq_memoryless hl hs.inv rfl h).1, r, rfl⟩

theorem blkdBlockRead_vq (hl : Layout q) {n : Nat} {p : Post} {w : VqWorld}
    (hs : Serving q ok n p w) (b : BlkdBlockBackend) (offset : UInt64) (len : UInt32) :
    wp (vqHandler q ok) (blkdBlockRead b offset len) (fun o w' => Serving q ok n p w' ∧
      ∃ r, o = .ok r) w := by
  unfold blkdBlockRead
  refine wp_ite (fun _ => ⟨hs, none, rfl⟩) fun _ => ?_
  intro r w₁ h
  exact ⟨hs.later (vq_memoryless hl hs.inv rfl h).1, r, rfl⟩

theorem blkdBlockWrite_vq (hl : Layout q) {n : Nat} {p : Post} {w : VqWorld}
    (hs : Serving q ok n p w) (b : BlkdBlockBackend) (offset : UInt64) (data : Bytes) (len : UInt32) :
    wp (vqHandler q ok) (blkdBlockWrite b offset data len) (fun o w' => Serving q ok n p w' ∧
      ∃ r, o = .ok r) w := by
  unfold blkdBlockWrite
  refine wp_ite (fun _ => ⟨hs, false, rfl⟩) fun _ => ?_
  intro r w₁ h
  exact ⟨hs.later (vq_memoryless hl hs.inv rfl h).1, r, rfl⟩

theorem dmaReadInto_vq (hl : Layout q) {n : Nat} {p : Post} {w : VqWorld} (hs : Serving q ok n p w)
    (gpa : UInt64) (len : UInt32) :
    wp (vqHandler q ok) (dmaReadInto gpa len) (fun o w' => Serving q ok n p w' ∧
      ∃ data, o = .ok (some data)) w := by
  intro r w₁ h
  obtain ⟨hlater, hr, -⟩ := vq_read hl hs.inv h
  subst hr
  exact ⟨hs.later hlater, _, rfl⟩

/-- Data moves into the descriptor's own buffer only. -/
theorem readData_vq (hl : Layout q) (hok : ∀ p, ok p → InTable q p) {n : Nat} {p : Post}
    {w : VqWorld} (hs : Serving q ok n p w) (direct : Bool) (s : BlkdState) (d : VirtioDesc)
    (offset : UInt64) (ho : Outside q d.buf) :
    wp (vqHandler q ok) (readData direct s d offset) (fun o w' => Serving q ok n p w' ∧
      ∃ r, o = .ok r) w := by
  refine wp_seq (tryMap_vq hl hs direct d) ?_ fun e w' h => by obtain ⟨-, b, hb⟩ := h; cases hb
  intro mapped w₁ h
  obtain ⟨hs₁, -⟩ := h
  refine wp_ite (fun _ => ?_) fun _ => ?_
  · -- straight into guest memory
    unfold blkdBlockReadMapped
    by_cases hout : s.backend.outside offset d.len
    · simp only [hout, if_true]
      exact ⟨hs₁, _, rfl⟩
    · simp only [hout, if_false, Bool.false_eq_true]
      intro r w₂ h
      obtain ⟨hlater, hr⟩ := vq_preadMapped hl hok hs₁.inv ho h
      subst hr
      exact ⟨hs₁.later hlater, _, rfl⟩
  · refine wp_seq (ensureIoBuf_vq hl hs₁ s d.len) ?_ fun e w' h => by obtain ⟨-, b, hb⟩ := h; cases hb
    intro a w₂ h
    obtain ⟨hs₂, s', ha⟩ := h
    cases ha
    refine wp_seq (blkdBlockRead_vq hl hs₂ _ offset d.len) ?_
      fun e w' h => by obtain ⟨-, b, hb⟩ := h; cases hb
    intro a w₃ h
    obtain ⟨hs₃, -⟩ := h
    cases a with
    | none => exact ⟨hs₃, _, rfl⟩
    | some data =>
      intro r w₄ h
      have hsub : (Region.mk d.addr.toNat (((s'.fill data).ioBuf.take d.len.toNat).length)).Sub d.buf := by
        have hlen := List.length_take_le d.len.toNat (s'.fill data).ioBuf
        intro x hx
        simp only [VirtioDesc.buf, Region.mem_def] at hx ⊢
        omega
      obtain ⟨hlater, hr⟩ := vq_write_outside hl hok hs₃.inv (ho.sub hsub) h
      subst hr
      exact ⟨hs₃.later hlater, _, rfl⟩

theorem writeData_vq (hl : Layout q) {n : Nat} {p : Post} {w : VqWorld} (hs : Serving q ok n p w)
    (s : BlkdState) (d : VirtioDesc) (offset : UInt64) :
    wp (vqHandler q ok) (writeData s d offset) (fun o w' => Serving q ok n p w' ∧
      ∃ s' st, o = .ok (s', some st)) w := by
  refine wp_seq (ensureIoBuf_vq hl hs s d.len) ?_ fun e w' h => by obtain ⟨-, b, hb⟩ := h; cases hb
  intro a w₁ h
  obtain ⟨hs₁, s', ha⟩ := h
  cases ha
  refine wp_seq (dmaReadInto_vq hl hs₁ d.addr d.len) ?_
    fun e w' h => by obtain ⟨-, b, hb⟩ := h; cases hb
  intro a w₂ h
  obtain ⟨hs₂, data, ha⟩ := h
  cases ha
  refine wp_seq (blkdBlockWrite_vq hl hs₂ _ offset _ d.len) ?_
    fun e w' h => by obtain ⟨-, b, hb⟩ := h; cases hb
  intro a w₃ h
  cases a
  · exact ⟨h.1, _, _, rfl⟩
  · exact ⟨h.1, _, _, rfl⟩

theorem dataStep_vq (hl : Layout q) (hok : ∀ p, ok p → InTable q p) {n : Nat} {p : Post}
    {w : VqWorld} (hs : Serving q ok n p w) (direct : Bool) (req : ReqType) (s : BlkdState)
    (d : VirtioDesc) (offset : UInt64) (st : BlkStatus) (ho : Outside q d.buf) :
    wp (vqHandler q ok) (dataStep direct req s d offset st) (fun o w' => Serving q ok n p w' ∧
      ∃ s' st', o = .ok (s', some st')) w := by
  unfold dataStep
  cases req with
  | tIn =>
    refine wp_ite (fun _ => ⟨hs, _, _, rfl⟩) fun _ => wp_ite (fun _ => ?_) fun _ => ⟨hs, _, _, rfl⟩
    refine wp_seq (readData_vq hl hok hs direct s d offset ho) ?_
      fun e w' h => by obtain ⟨-, b, hb⟩ := h; cases hb
    intro a w₁ h
    exact ⟨h.1, _, _, rfl⟩
  | tOut =>
    exact wp_ite (fun _ => ⟨hs, _, _, rfl⟩) fun _ =>
      wp_ite (fun _ => writeData_vq hl hs s d offset) fun _ => ⟨hs, _, _, rfl⟩
  | tFlush => exact ⟨hs, _, _, rfl⟩
  | other => exact ⟨hs, _, _, rfl⟩

/-- The guard against long chains does not trip within the size. -/
theorem chain_room (c : Nat) {seen : UInt32} {k : Nat} (h : seen.toNat + k + 1 ≤ q.num.toNat) :
    (seen + 1).toNat = seen.toNat + 1 ∧ ¬(atCursor q c).num < seen + 1 := by
  have hnum := q.num.toNat_lt
  have hseen : (seen + 1).toNat = seen.toNat + 1 := by
    rw [UInt32.toNat_add, show (1 : UInt32).toNat = 1 from rfl]
    omega
  refine ⟨hseen, ?_⟩
  rw [UInt32.lt_iff_toNat_lt, hseen, show (atCursor q c).num = q.num from rfl]
  omega

/-- One turn of the loop at a descriptor that is not the last. -/
theorem chainTurn_vq (hl : Layout q) (hok : ∀ p, ok p → InTable q p) {n : Nat} {p : Post} (c : Nat)
    (direct : Bool) (req : ReqType) (offset : UInt64) (fuel : Nat) (s : BlkdState) {index : UInt16}
    {seen : UInt32} (st : BlkStatus) (dataLen : UInt32) {w : VqWorld} (hs : Serving q ok n p w)
    (hroom : ¬(atCursor q c).num < seen + 1) {d : VirtioDesc} {rest : List VirtioDesc}
    (hw : Walk q ok n p index (d :: rest)) (ho : Outside q d.buf)
    {Q : Except Fault (BlkdState × Option (VirtioDesc × BlkStatus × UInt32)) → VqWorld → Prop}
    (hgo : ∀ s' st' w', Serving q ok n p w' → wp (vqHandler q ok)
      (chainLoop direct (atCursor q c) req offset fuel s' d.next (seen + 1) st' (addLen req dataLen d.len)) Q w') :
    wp (vqHandler q ok) (chainLoop direct (atCursor q c) req offset (fuel + 1) s index seen st dataLen) Q w := by
  unfold chainLoop
  rw [if_neg hroom]
  refine wp_seq (virtioReadDesc_vq hl hs c index) ?_ fun e w' h => by cases h.2
  intro a w₁ h
  obtain ⟨hs₁, ha⟩ := h
  cases ha
  obtain ⟨hd, hnext, -⟩ := hw w₁ hs₁
  dsimp only
  rw [hd, hnext]
  refine wp_seq (dataStep_vq hl hok hs₁ direct req s d _ st ho) ?_
    fun e w' h => by obtain ⟨-, s', st', hb⟩ := h; cases hb
  intro a w₂ h
  obtain ⟨hs₂, s', st', ha⟩ := h
  cases ha
  exact hgo s' st' w₂ hs₂

theorem chainLoop_vq (hl : Layout q) (hok : ∀ p, ok p → InTable q p) {n : Nat} {p : Post} (c : Nat)
    (direct : Bool) (req : ReqType) (offset : UInt64) (rest : List VirtioDesc) (fuel : Nat)
    (s : BlkdState) (index : UInt16) (seen : UInt32) (st : BlkStatus) (dataLen : UInt32)
    (w : VqWorld) (hs : Serving q ok n p w) (hw : Walk q ok n p index rest)
    (ho : ∀ d ∈ rest, Outside q d.buf) (hseen : seen.toNat + rest.length + 1 ≤ q.num.toNat) :
    wp (vqHandler q ok) (chainLoop direct (atCursor q c) req offset fuel s index seen st dataLen)
      (fun o w' => Serving q ok n p w' ∧ ((∃ s' st' len', o = .ok (s', some (p.last, st', len'))) ∨
        (o = .error .fuel ∧ fuel ≤ rest.length))) w := by
  induction rest generalizing fuel s index seen st dataLen w with
  | nil =>
    obtain ⟨-, hroom⟩ := chain_room c hseen
    cases fuel with
    | zero => exact ⟨hs, .inr ⟨rfl, Nat.zero_le _⟩⟩
    | succ fuel =>
      unfold chainLoop
      rw [if_neg hroom]
      refine wp_seq (virtioReadDesc_vq hl hs c index) ?_ fun e w' h => by cases h.2
      intro a w₁ h
      obtain ⟨hs₁, ha⟩ := h
      cases ha
      obtain ⟨hd, hlast⟩ := hw w₁ hs₁
      dsimp only
      rw [hd, hlast]
      exact ⟨hs₁, .inl ⟨s, st, dataLen, rfl⟩⟩
  | cons d rest ih =>
    obtain ⟨hseen1, hroom⟩ := chain_room c hseen
    simp only [List.length_cons] at hseen
    cases fuel with
    | zero => exact ⟨hs, .inr ⟨rfl, Nat.zero_le _⟩⟩
    | succ fuel =>
      refine chainTurn_vq hl hok c direct req offset fuel s st dataLen hs hroom hw (ho d List.mem_cons_self)
        fun s' st' w₂ hs₂ => ?_
      have hih := ih fuel s' d.next (seen + 1) st' (addLen req dataLen d.len) w₂ hs₂ hw.next
        (fun e he => ho e (List.mem_cons_of_mem _ he)) (by omega)
      refine wp_mono hih fun o w' h => ⟨h.1, ?_⟩
      rcases h.2 with h | h
      · exact .inl h
      · exact .inr ⟨h.1, by simp only [List.length_cons]; omega⟩

theorem finishChain_vq (hl : Layout q) (hok : ∀ p, ok p → InTable q p) {n : Nat} {p : Post}
    {w : VqWorld} (hs : Serving q ok n p w) (req : ReqType) (s : BlkdState) (st : BlkStatus)
    (dataLen : UInt32) (ho : Outside q p.last.buf) (hlen : 1 ≤ p.last.len.toNat) :
    wp (vqHandler q ok) (finishChain req s p.last st dataLen) (fun o w' => Serving q ok n p w' ∧
      ∃ used, o = .ok (s, some used)) w := by
  have hflush : wp (vqHandler q ok) (blkdBlockFlush req) (fun o w' => Serving q ok n p w' ∧
      ∃ b, o = .ok b) w := by
    unfold blkdBlockFlush
    refine wp_ite (fun _ => ?_) fun _ => ⟨hs, true, rfl⟩
    intro r w₁ h
    exact ⟨hs.later (vq_memoryless hl hs.inv rfl h).1, r, rfl⟩
  refine wp_seq hflush ?_ fun e w' h => by obtain ⟨-, b, hb⟩ := h; cases hb
  intro flushed w₁ h
  obtain ⟨hs₁, -⟩ := h
  intro r w₂ h
  have hsub : (Region.mk p.last.addr.toNat 1).Sub p.last.buf := by
    intro x hx
    simp only [VirtioDesc.buf, Region.mem_def] at hx ⊢
    omega
  obtain ⟨hlater, hr⟩ := vq_write_outside hl hok hs₁.inv (ho.sub hsub) h
  subst hr
  exact ⟨hs₁.later hlater, _, rfl⟩

theorem processChain_completes (hl : Layout q) (hok : ∀ p, ok p → BlkChainOk q p) (direct : Bool)
    (fuel : Nat) : Completes q ok 0 fuel (processChain direct fuel) := by
  intro n p c d w hd hs
  have hp := hok p hs.post_ok
  have hin : ∀ p, ok p → InTable q p := fun p h => (hok p h).inTable
  obtain ⟨hdr, rest, hdescs⟩ := List.exists_cons_of_ne_nil hp.header
  have hwalk : Walk q ok n p p.head (hdr :: rest) := hdescs ▸ walk_head n p
  have hshort := hp.short
  rw [hdescs, List.length_cons] at hshort
  unfold processChain
  rw [hd.queue]
  refine wp_seq (virtioReadDesc_vq hl hs c p.head) ?_ fun e w' h => by cases h.2
  intro a w₁ h
  obtain ⟨hs₁, ha⟩ := h
  cases ha
  obtain ⟨hh, hnext, -⟩ := hwalk w₁ hs₁
  dsimp only
  rw [hh, hnext]
  refine wp_seq (dmaReadInto_vq hl hs₁ hdr.addr 16) ?_
    fun e w' h => by obtain ⟨-, b, hb⟩ := h; cases hb
  intro a w₂ h
  obtain ⟨hs₂, header, ha⟩ := h
  cases ha
  refine wp_seq (chainLoop_vq hl hin c direct _ _ rest fuel d.priv hdr.next 0 _ 0 w₂ hs₂ hwalk.next
    (fun e he => hp.bufs e (by rw [hdescs]; simp [he]))
    (by rw [UInt32.toNat_zero]; omega)) ?_ ?_
  · intro a w₃ h
    obtain ⟨hs₃, h | h⟩ := h
    · obtain ⟨s', st', len', ha⟩ := h
      cases ha
      refine wp_seq (finishChain_vq hl hin hs₃ _ s' st' len' (hp.bufs p.last (by simp)) hp.status) ?_
        fun e w' h => by obtain ⟨-, b, hb⟩ := h; cases hb
      intro a w₄ h
      obtain ⟨hs₄, used, ha⟩ := h
      cases ha
      exact ⟨hs₄, .inl ⟨_, used, rfl, rfl⟩⟩
    · cases h.1
  · intro e w₃ h
    obtain ⟨hs₃, h | h⟩ := h
    · obtain ⟨s', st', len', ha⟩ := h
      cases ha
    · cases h.1
      exact ⟨hs₃, .inr ⟨rfl, by omega⟩⟩

/-! ## Notifications -/

/-- A notification that returned: everything counted at its last look at the
available index is published, in order, and both cursors say so. -/
structure Drained (i : Nat) (q : VirtioQueue) (d : Device P) (w : VqWorld) : Prop where
  order : w.published = (w.posted.take w.seen).map fun p => p.head.toUInt32
  count : w.published.length = w.seen
  cursor : (d.queue i).lastAvailIdx = UInt16.ofNat w.published.length
  index : usedIdx q w.mem = UInt16.ofNat w.published.length

/-- The state between notifications. -/
structure Between (i : Nat) (q : VirtioQueue) (ok : Post → Prop) (s : Device P × VqWorld) :
    Prop where
  inv : VqInv q ok s.2
  dev : DevAt i q s.2.published.length s.1

/-- How a notification ends: drained and true, or out of fuel. -/
def NotifyEnds (i : Nat) (q : VirtioQueue) (ok : Post → Prop) (fuel : Nat) (w : VqWorld)
    (o : Except Fault (Device P × Bool)) (w' : VqWorld) : Prop :=
  (∃ d', o = .ok (d', true) ∧ Drained i q d' w' ∧ Between i q ok (d', w')) ∨
    (o = .error .fuel ∧ (fuel ≤ q.num.toNat ∨ w.published.length + fuel ≤ w'.published.length))

/-- The interrupt that ends a notification. -/
theorem irq_vq (hl : Layout q) {i : Nat} {d : Device P} {w : VqWorld} (hb : Between i q ok (d, w))
    (hseen : w.seen = w.published.length) {c : Call} (hc : memoryless c = true) {r : c.Reply}
    {w' : VqWorld} (h : vqHandler q ok w c r w') : Between i q ok (d, w') ∧ Drained i q d w' := by
  obtain ⟨hlater, hs⟩ := vq_memoryless hl hb.inv hc h
  have hdev : DevAt i q w'.published.length d := by rw [hlater.published]; exact hb.dev
  have hseen' : w'.seen = w'.published.length := by rw [hs, hseen, hlater.published]
  refine ⟨⟨hlater.inv, hdev⟩, ⟨?_, hseen'.symm, ?_, hlater.inv.used⟩⟩
  · rw [hseen']
    exact hlater.inv.order
  · rw [hdev.queue]
    rfl

theorem ackNotify_vq (hl : Layout q) {i : Nat} {d : Device P} {w : VqWorld}
    (hb : Between i q ok (d, w)) (hseen : w.seen = w.published.length) :
    wp (vqHandler q ok) (ackNotify d) (fun o w' => o = .ok true ∧ Between i q ok (d, w') ∧ Drained i q d w') w := by
  unfold ackNotify
  refine wp_ite (fun _ => ?_) fun _ => ?_
  · exact fun r w' h => ⟨congrArg Except.ok (vq_true h), irq_vq hl hb hseen rfl h⟩
  · exact fun r w' h => ⟨congrArg Except.ok (vq_true h), irq_vq hl hb hseen rfl h⟩

theorem serviceQueue_inOrder (hl : Layout q) (hok : ∀ p, ok p → InTable q p) {i : Nat} (fuel : Nat)
    {process : Device P → UInt16 → FabricM (Device P × Option UInt32)}
    (hp : Completes q ok i fuel process) (d : Device P) (w : VqWorld)
    (hb : Between i q ok (d, w)) :
    wp (vqHandler q ok) (serviceQueue i process fuel d) (NotifyEnds i q ok fuel w) w := by
  refine wp_seq (serviceLoop_inOrder hl hok hp fuel d false w hb.inv hb.dev) ?_ ?_
  · intro a w₁ h
    obtain ⟨hi₁, h | h⟩ := h
    · obtain ⟨d', b, ha, hdev, hseen⟩ := h
      cases ha
      have hb' : Between i q ok (d', w₁) := ⟨hi₁, hdev⟩
      cases b with
      | true =>
        intro r w₂ h
        have hr : r = true := vq_true h
        subst hr
        -- the status bit is not part of the queue
        have hset : Between i q ok (d'.setVring, w₁) := ⟨hi₁, hdev.exist, hdev.queue⟩
        obtain ⟨hb₂, hdr⟩ := irq_vq hl hset hseen rfl h
        exact .inl ⟨_, rfl, hdr, hb₂⟩
      | false =>
        refine wp_seq (ackNotify_vq hl hb' hseen) ?_ fun e w' h => by cases h.1
        intro ok w₂ h
        obtain ⟨ha, hb₂, hdr⟩ := h
        cases ha
        exact .inl ⟨_, rfl, hdr, hb₂⟩
    · cases h.1
  · intro e w₁ h
    obtain ⟨-, h | h⟩ := h
    · obtain ⟨d', b, ha, -⟩ := h
      cases ha
    · cases h.1
      exact .inr ⟨rfl, h.2⟩

end

/-! ## Whole histories -/

inductive QueueLabel where
  | driver
  | notify (fuel : Nat)
  deriving DecidableEq, Repr

/-- A queue just reset and made ready: nothing posted, both indices zero. -/
structure Fresh (i : Nat) (q : VirtioQueue) (s : Device P × VqWorld) : Prop where
  dev : DevAt i q 0 s.1
  posted : s.2.posted = []
  published : s.2.published = []
  avail : availIdx q s.2.mem = 0
  used : usedIdx q s.2.mem = 0

/-- Driver steps and notifications, in any order. -/
def queueLts (i : Nat) (q : VirtioQueue) (ok : Post → Prop)
    (notify : Nat → Device P → FabricM (Device P × Bool)) :
    LTS (Device P × VqWorld) QueueLabel where
  init := Fresh i q
  step s l s' :=
    match l with
    | .driver => s'.1 = s.1 ∧ DriverStep q ok s.2 s'.2
    | .notify fuel => ∃ b, Runs (vqHandler q ok) (notify fuel s.1) s.2 (.ok (s'.1, b)) s'.2

theorem Fresh.between {i : Nat} {q : VirtioQueue} {s : Device P × VqWorld} (h : Fresh i q s)
    (ok : Post → Prop) :
    Between i q ok s := by
  refine ⟨⟨?_, ?_, ?_, ?_, ?_, ?_, ?_, ?_⟩, ?_⟩
  · simp [h.posted, h.published]
  · simp [h.posted, h.published]
  · rw [h.avail, h.posted]
    rfl
  · rw [h.used, h.published]
    rfl
  · intro k p _ hp
    simp [h.posted] at hp
  · intro k p _ hp
    simp [h.posted] at hp
  · intro p hp
    simp [h.posted] at hp
  · simp [h.posted, h.published]
  · rw [h.published]
    exact h.dev

theorem between_inductive {i : Nat} {q : VirtioQueue} {ok : Post → Prop} (hl : Layout q)
    {notify : Nat → Device P → FabricM (Device P × Bool)}
    (hn : ∀ fuel d w, Between i q ok (d, w) →
      wp (vqHandler q ok) (notify fuel d) (NotifyEnds i q ok fuel w) w) :
    (queueLts i q ok notify).Inductive (Between i q ok) where
  init s h := h.between ok
  step s l s' hb hs := by
    cases l with
    | driver =>
      obtain ⟨hdev, hd⟩ := hs
      have hlater := hd.later hl hb.inv
      refine ⟨hlater.inv, ?_⟩
      rw [hlater.published, hdev]
      exact hb.dev
    | notify fuel =>
      obtain ⟨b, hr⟩ := hs
      rcases hr.of_wp (hn fuel s.1 s.2 hb) with h | h
      · obtain ⟨d', ho, -, hb'⟩ := h
        cases ho
        exact hb'
      · cases h.1

theorem blkdNotify_inOrder {q : VirtioQueue} (hl : Layout q) (hready : q.ready ≠ 0) (direct : Bool)
    (fuel : Nat) (d : BlkdVirtioDevice) (w : VqWorld) (hb : Between 0 q (BlkChainOk q) (d, w)) :
    wp (vqHandler q (BlkChainOk q)) (blkdVirtioNotifyQueue direct fuel d 0)
      (NotifyEnds 0 q (BlkChainOk q) fuel w) w := by
  have hrd : (d.queue 0).ready = q.ready := by rw [hb.dev.queue]; rfl
  unfold blkdVirtioNotifyQueue
  rw [if_neg (by simp [hrd, hready])]
  exact serviceQueue_inOrder hl (fun p h => h.inTable) fuel
    (processChain_completes hl (fun _ h => h) direct fuel) d w hb

theorem condNotify_inOrder {q : VirtioQueue} (hl : Layout q) (hready : q.ready ≠ 0) (fuel : Nat)
    (d : CondVirtioDevice) (w : VqWorld) (hb : Between 1 q (ChainOk q) (d, w)) :
    wp (vqHandler q (ChainOk q)) (condVirtioNotifyQueue fuel d 1)
      (NotifyEnds 1 q (ChainOk q) fuel w) w := by
  have hrd : (d.queue (1 : UInt32).toNat).ready = q.ready := by
    rw [show (1 : UInt32).toNat = 1 from rfl, hb.dev.queue]
    rfl
  unfold condVirtioNotifyQueue
  rw [if_neg (by decide), if_neg (by rw [hrd]; exact hready), if_neg (by decide)]
  exact serviceQueue_inOrder hl (fun p h => h.inTable) fuel
    (processTxChain_completes hl (fun _ h => h) fuel) d w hb

/-- **In order, exactly once.** Take the block request queue or the console
transmit queue, fresh and ready, and any history of driver steps and
notifications, with driver steps between any two calls of the device too.
Every notification returns true with the heads published so far equal to
the heads posted up to its last read of the available index, in posting
order, and with `last_avail_idx` and the used index both equal to their
number (as 16-bit counters). A run without a result had no more fuel than
the queue has entries, or no more than the chains it completed. -/
theorem completions_in_order :
    (∀ (q : VirtioQueue) (direct : Bool) (s : Device BlkdState × VqWorld) (fuel : Nat) o w',
      Layout q → q.ready ≠ 0 →
      (queueLts 0 q (BlkChainOk q) fun fuel d => blkdVirtioNotifyQueue direct fuel d 0).Reachable s →
      Runs (vqHandler q (BlkChainOk q)) (blkdVirtioNotifyQueue direct fuel s.1 0) s.2 o w' →
      (∃ d', o = .ok (d', true) ∧ Drained 0 q d' w') ∨
        (o = .error .fuel ∧
          (fuel ≤ q.num.toNat ∨ s.2.published.length + fuel ≤ w'.published.length))) ∧
    (∀ (q : VirtioQueue) (s : Device Unit × VqWorld) (fuel : Nat) o w',
      Layout q → q.ready ≠ 0 →
      (queueLts 1 q (ChainOk q) fun fuel d => condVirtioNotifyQueue fuel d 1).Reachable s →
      Runs (vqHandler q (ChainOk q)) (condVirtioNotifyQueue fuel s.1 1) s.2 o w' →
      (∃ d', o = .ok (d', true) ∧ Drained 1 q d' w') ∨
        (o = .error .fuel ∧
          (fuel ≤ q.num.toNat ∨ s.2.published.length + fuel ≤ w'.published.length))) := by
  constructor
  · intro q direct s fuel o w' hl hready hreach hrun
    have hn := blkdNotify_inOrder hl hready direct
    have hb := (between_inductive hl hn).reachable s hreach
    rcases hrun.of_wp (hn fuel s.1 s.2 hb) with h | h
    · obtain ⟨d', ho, hd, -⟩ := h
      exact .inl ⟨d', ho, hd⟩
    · exact .inr h
  · intro q s fuel o w' hl hready hreach hrun
    have hn := condNotify_inOrder hl hready
    have hb := (between_inductive hl hn).reachable s hreach
    rcases hrun.of_wp (hn fuel s.1 s.2 hb) with h | h
    · obtain ⟨d', ho, hd, -⟩ := h
      exact .inl ⟨d', ho, hd⟩
    · exact .inr h

/-! ## Three transmit requests -/

/-- The answers of `vqHandler` when the driver pauses and the image is zero. -/
def vqRun (q : VirtioQueue) (w : VqWorld) : (c : Call) → c.Reply × VqWorld
  | .dmaReadInto gpa len => (some (readBytes w.mem gpa.toNat len.toNat),
      if gpa = q.avail + 2 then { w with seen := w.posted.length } else w)
  | .dmaWrite gpa data => (true, w.store q (writeBytes w.mem gpa.toNat data))
  | .preadMapped gpa _ len =>
    (true, w.store q (writeBytes w.mem gpa.toNat (List.replicate len.toNat 0)))
  | .pread _ len => (some (List.replicate len.toNat 0), w)
  | .dmaMap _ _ => (false, w)
  | .raiseIrq => (true, w)
  | .lowerIrq => (true, w)
  | .realloc _ => (true, w)
  | .pwrite _ _ => (true, w)
  | .fsync => (true, w)
  | .consoleWrite _ => (true, w)

theorem vqRun_answer (q : VirtioQueue) (w : VqWorld) (c : Call) :
    vqAnswer q w c (vqRun q w c).1 (vqRun q w c).2 := by
  cases c with
  | preadMapped gpa offset len => exact ⟨rfl, _, List.length_replicate, rfl⟩
  | pread offset len => exact ⟨⟨_, rfl, List.length_replicate⟩, rfl⟩
  | dmaMap gpa len => rfl
  | _ => exact ⟨rfl, rfl⟩

theorem vqRun_handler (q : VirtioQueue) (ok : Post → Prop) (w : VqWorld) (c : Call) :
    vqHandler q ok w c (vqRun q w c).1 (vqRun q w c).2 := ⟨w, .refl, vqRun_answer q w c⟩

/-- Four entries; table at 0x1000, rings at 0x2000 and 0x3000. -/
def txQueue : VirtioQueue := ⟨4, 1, 0x1000, 0x2000, 0x3000, 0⟩

def txDevice : CondVirtioDevice :=
  ⟨{ condVirtioInit.vdev with queues := [resetQueue condQueueSize, txQueue] }, ()⟩

/-- Descriptor 2: three bytes at 0x4000. -/
def txPost : Post := ⟨2, [], ⟨0x4000, 3, 0, 0⟩⟩

/-- `txPost`, descriptor 0 with 1 linked to it, and descriptor 3. -/
def txPosts : List Post :=
  [txPost, ⟨0, [⟨0x4010, 2, 1, 1⟩], ⟨0x4020, 1, 0, 0⟩⟩, ⟨3, [], ⟨0x4030, 1, 0, 0⟩⟩]

/-- Table, ring and buffers, with this available index. -/
def txMem (idx : UInt8) : Mem :=
  memOf [(0x1000, 0x10), (0x1001, 0x40), (0x1008, 2), (0x100c, 1), (0x100e, 1), (0x1010, 0x20), (0x1011, 0x40),
    (0x1018, 1), (0x1021, 0x40), (0x1028, 3), (0x1030, 0x30), (0x1031, 0x40), (0x1038, 1),
    (0x2002, idx), (0x2004, 2), (0x2008, 3), (0x4000, 72), (0x4001, 105), (0x4002, 44),
    (0x4010, 32), (0x4011, 121), (0x4020, 111), (0x4030, 117)]

/-- The driver has made `n` of the posts. -/
def txWorld (n : Nat) : VqWorld := ⟨txMem (UInt8.ofNat n), txPosts.take n, [], 0⟩

theorem txQueue_layout : Layout txQueue :=
  ⟨⟨2, by decide, rfl⟩, by decide, by decide, by decide, by decide, by decide, by decide⟩

theorem txPosts_ok : ∀ p ∈ txPosts, ChainOk txQueue p := by
  have hin : ∀ p ∈ txPosts, (chainPath p.head p.descs).all (·.toNat < txQueue.num.toNat) = true ∧
      p.descs.length < txQueue.num.toNat ∧ ∀ d ∈ p.descs ++ [p.last], 0x4000 ≤ d.addr.toNat := by decide
  intro p hp
  obtain ⟨htable, hshort, hbufs⟩ := hin p hp
  refine ⟨fun j hj => of_decide_eq_true (List.all_eq_true.1 htable j hj), hshort, fun d hd => ?_⟩
  -- the queue ends below the buffers
  have hapart : ∀ r : Region, r.base + r.len ≤ 0x4000 → r.Apart d.buf := fun r hr x hx hd' =>
    Nat.not_lt_of_le (Nat.le_trans hr (Nat.le_trans (hbufs d hd) hd'.1)) hx.2
  exact ⟨hapart _ (by decide), hapart _ (by decide), hapart _ (by decide)⟩

theorem txDevice_fresh : Fresh 1 txQueue (txDevice, txWorld 0) :=
  ⟨⟨by decide, rfl⟩, rfl, rfl, by decide +kernel, by decide +kernel⟩

theorem txMem_idx (i j : UInt8) {x : Nat} (hx : x ≠ 0x2002) : txMem i x = txMem j x := by
  simp [txMem, memOf, List.lookup_cons, beq_false_of_ne hx]

/-- A post moves the available index and nothing else. -/
theorem txWorld_step {ok : Post → Prop} {n : Nat} (hn : n < 3) (hok : ∀ p ∈ txPosts, ok p) :
    DriverStep txQueue ok (txWorld n) (txWorld (n + 1)) := by
  have hp : ∀ n < 3, ∃ p ∈ txPosts, txPosts.take (n + 1) = txPosts.take n ++ [p] ∧
      ChainAt (txWorld (n + 1)).mem txQueue p.head p.descs p.last ∧
      availSlot txQueue (txWorld (n + 1)).mem (availIdx txQueue (txWorld n).mem).toNat = p.head ∧
      availIdx txQueue (txWorld (n + 1)).mem = availIdx txQueue (txWorld n).mem + 1 := by decide +kernel
  obtain ⟨p, hmem, htake, hchain, hslot, hidx⟩ := hp n hn
  have hlen : (txWorld n).posted.length < (txWorld n).published.length + txQueue.num.toNat := by
    have hmin : (txWorld n).posted.length ≤ n := List.length_take_le _ _
    have hnum : txQueue.num.toNat = 4 := rfl
    omega
  have hnext : txWorld (n + 1) = { txWorld n with
      mem := (txWorld (n + 1)).mem
      posted := (txWorld n).posted ++ [p] } := congrArg (VqWorld.mk _ · _ _) htake
  rw [hnext]
  refine .post hlen (hok p hmem) ⟨fun x hx => ?_, fun k _ _ => ?_, fun k p _ hp j hj x hx => ?_⟩ hchain hslot hidx
  · have hx : 0x3000 ≤ x := hx.1
    exact txMem_idx _ _ (by omega)
  · refine congrArg virtioLoadLe16 (readBytes_congr fun x hx _ => txMem_idx _ _ ?_)
    have hx : 0x2000 + 4 + 2 * (k % 4) ≤ x := hx
    omega
  · have hin := (txPosts_ok p (List.mem_of_mem_take (List.mem_of_getElem? hp))).inTable j hj
    have hx : x < 0x1000 + 16 * 4 := (entry_sub txQueue_layout hin x hx).2
    exact txMem_idx _ _ (by omega)

theorem txWorld_reachable {n : Nat} (hn : n ≤ 3) :
    (queueLts 1 txQueue (ChainOk txQueue) fun fuel d => condVirtioNotifyQueue fuel d 1).Reachable
      (txDevice, txWorld n) := by
  induction n with
  | zero => exact ⟨_, [], txDevice_fresh, .nil _⟩
  | succ n ih => exact (ih (Nat.le_of_succ_le hn)).tail (l := .driver) ⟨rfl, txWorld_step hn txPosts_ok⟩

/-- Three posts and one notification: their heads are published in that order. -/
theorem completions_in_order_three :
    ∃ d' w', Runs (vqHandler txQueue (ChainOk txQueue)) (condVirtioNotifyQueue 5 txDevice 1)
        (txWorld 3) (.ok (d', true)) w' ∧
      w'.published = [2, 0, 3] ∧ Drained 1 txQueue d' w' := by
  have hpub : ((condVirtioNotifyQueue 5 txDevice 1).run (S := fabricSig) (vqRun txQueue) (txWorld 3)).2.published =
      [2, 0, 3] := by decide +kernel
  have hrun := Runs.of_run (R := vqHandler txQueue (ChainOk txQueue)) (h := vqRun txQueue)
    (π := fun w => w) (vqRun_handler txQueue (ChainOk txQueue)) (condVirtioNotifyQueue 5 txDevice 1) (txWorld 3)
  rcases completions_in_order.2 txQueue _ 5 _ _ txQueue_layout (by decide) (txWorld_reachable (Nat.le_refl 3)) hrun with
    h | h
  · obtain ⟨d', ho, hd⟩ := h
    rw [ho] at hrun
    exact ⟨d', _, hrun, hpub, hd⟩
  · -- five steps of fuel are more than this run needs
    rcases h.2 with h | h
    · exact absurd h (by decide)
    · rw [hpub] at h
      exact absurd h (by decide)

end AcsVirt.L4
