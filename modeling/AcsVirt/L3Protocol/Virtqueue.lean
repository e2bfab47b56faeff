import Mathlib.Logic.Relation
import AcsVirt.L2Machine.DescChain

/-!
# A split virtqueue shared with a driver

The three parts of a queue in guest memory, a driver that posts chains, and
the calls of a device that serves it, interleaved freely: before every call
of the device the driver may have taken any number of steps.

The driver touches any memory it likes except what the device owns: the used
ring, the available-ring slots of entries in flight and the table entries of
their chains (`Kept`). It posts at most `num` entries ahead of the ones it has
seen used. `VqWorld` keeps the history next to the memory: `posted` is what
the driver posted, `published` what it reads out of the used ring each time
the used index moves (`observe`), `seen` the number of posts at the last read
of the available index.

`VqInv` ties the three wrapping counters to the lengths of the two histories.
Driver steps keep it (`DriverSteps.later`), and so do the device's writes
outside the queue (`VqInv.store_outside`).
-/
namespace AcsVirt.L3

open L1 L2

/-! ## Layout -/

def tableRegion (q : VirtioQueue) : Region := ⟨q.desc.toNat, 16 * q.num.toNat⟩
def availRegion (q : VirtioQueue) : Region := ⟨q.avail.toNat, 4 + 2 * q.num.toNat⟩
def usedRegion (q : VirtioQueue) : Region := ⟨q.used.toNat, 4 + 8 * q.num.toNat⟩

/-- A power-of-two size, and three areas that do not wrap or overlap. -/
structure Layout (q : VirtioQueue) : Prop where
  pow : ∃ k, k ≤ 15 ∧ q.num.toNat = 2 ^ k
  tableEnd : q.desc.toNat + 16 * q.num.toNat ≤ 2 ^ 64
  availEnd : q.avail.toNat + 4 + 2 * q.num.toNat ≤ 2 ^ 64
  usedEnd : q.used.toNat + 4 + 8 * q.num.toNat ≤ 2 ^ 64
  tableAvail : (tableRegion q).Apart (availRegion q)
  tableUsed : (tableRegion q).Apart (usedRegion q)
  availUsed : (availRegion q).Apart (usedRegion q)

def availIdx (q : VirtioQueue) (m : Mem) : UInt16 :=
  virtioLoadLe16 (readBytes m (q.avail.toNat + 2) 2)

def usedIdx (q : VirtioQueue) (m : Mem) : UInt16 :=
  virtioLoadLe16 (readBytes m (q.used.toNat + 2) 2)

/-- The available-ring entry of the `k`-th post. -/
def availSlot (q : VirtioQueue) (m : Mem) (k : Nat) : UInt16 :=
  virtioLoadLe16 (readBytes m (q.avail.toNat + 4 + 2 * (k % q.num.toNat)) 2)

/-- The id in the used-ring element of the `k`-th completion. -/
def usedId (q : VirtioQueue) (m : Mem) (k : Nat) : UInt32 :=
  virtioLoadLe32 (readBytes m (q.used.toNat + 4 + 8 * (k % q.num.toNat)) 4)

/-! ## The driver -/

/-- A posted chain: its head and what the walk from it finds. -/
structure Post where
  head : UInt16
  descs : List VirtioDesc
  last : VirtioDesc
  deriving DecidableEq, Repr

structure VqWorld where
  mem : Mem
  posted : List Post
  published : List UInt32
  seen : Nat

/-- Entries the driver reads when the used index has moved from `m` to `m'`;
its own cursor is a 16-bit counter too. -/
def observe (q : VirtioQueue) (m m' : Mem) : List UInt32 :=
  (List.range (usedIdx q m' - usedIdx q m).toNat).map fun j =>
    usedId q m' (usedIdx q m + UInt16.ofNat j).toNat

/-- A store of the device, and what the driver sees of it. -/
def VqWorld.store (q : VirtioQueue) (w : VqWorld) (m : Mem) : VqWorld :=
  { w with mem := m, published := w.published ++ observe q w.mem m }

/-- What the driver leaves alone. -/
structure Kept (q : VirtioQueue) (w : VqWorld) (m : Mem) : Prop where
  used : ∀ x ∈ usedRegion q, m x = w.mem x
  slots : ∀ k, w.published.length ≤ k → k < w.posted.length →
    availSlot q m k = availSlot q w.mem k
  chains : ∀ k p, w.published.length ≤ k → w.posted[k]? = some p →
    ∀ j ∈ chainPath p.head p.descs, ∀ x ∈ entry q j, m x = w.mem x

/-- Steps of the driver; `ok` is what it promises of the chains it posts. -/
inductive DriverStep (q : VirtioQueue) (ok : Post → Prop) : VqWorld → VqWorld → Prop
  | touch {w : VqWorld} {m : Mem} : Kept q w m → availIdx q m = availIdx q w.mem →
      DriverStep q ok w { w with mem := m }
  | post {w : VqWorld} {m : Mem} {p : Post} :
      w.posted.length < w.published.length + q.num.toNat → ok p → Kept q w m →
      ChainAt m q p.head p.descs p.last →
      availSlot q m (availIdx q w.mem).toNat = p.head → availIdx q m = availIdx q w.mem + 1 →
      DriverStep q ok w { w with mem := m, posted := w.posted ++ [p] }

abbrev DriverSteps (q : VirtioQueue) (ok : Post → Prop) : VqWorld → VqWorld → Prop :=
  Relation.ReflTransGen (DriverStep q ok)

/-! ## The device's calls -/

/-- Every DMA and backend call succeeds; the image and the mapping decisions
are arbitrary. -/
def vqAnswer (q : VirtioQueue) : Handler fabricSig VqWorld := fun w c r w' =>
  match c, r with
  | .dmaReadInto gpa len, r => r = some (readBytes w.mem gpa.toNat len.toNat) ∧
      w' = if gpa = q.avail + 2 then { w with seen := w.posted.length } else w
  | .dmaWrite gpa data, r => r = true ∧ w' = w.store q (writeBytes w.mem gpa.toNat data)
  | .preadMapped gpa _ len, r => r = true ∧ ∃ data : Bytes, data.length = len.toNat ∧
      w' = w.store q (writeBytes w.mem gpa.toNat data)
  | .pread _ len, r => (∃ data : Bytes, r = some data ∧ data.length = len.toNat) ∧ w' = w
  | .dmaMap _ _, _ => w' = w
  | .raiseIrq, r => r = true ∧ w' = w
  | .lowerIrq, r => r = true ∧ w' = w
  | .realloc _, r => r = true ∧ w' = w
  | .pwrite _ _, r => r = true ∧ w' = w
  | .fsync, r => r = true ∧ w' = w
  | .consoleWrite _, r => r = true ∧ w' = w

def vqHandler (q : VirtioQueue) (ok : Post → Prop) : Handler fabricSig VqWorld := fun w c r w' =>
  ∃ w₁, DriverSteps q ok w w₁ ∧ vqAnswer q w₁ c r w'

/-! ## The invariant -/

/-- All three counters are the lengths of the histories, and what is in
flight is in the ring and in the table. -/
structure VqInv (q : VirtioQueue) (ok : Post → Prop) (w : VqWorld) : Prop where
  le : w.published.length ≤ w.posted.length
  window : w.posted.length ≤ w.published.length + q.num.toNat
  avail : availIdx q w.mem = UInt16.ofNat w.posted.length
  used : usedIdx q w.mem = UInt16.ofNat w.published.length
  slots : ∀ k p, w.published.length ≤ k → w.posted[k]? = some p → availSlot q w.mem k = p.head
  chains : ∀ k p, w.published.length ≤ k → w.posted[k]? = some p →
    ChainAt w.mem q p.head p.descs p.last
  posts : ∀ p ∈ w.posted, ok p
  order : w.published = (w.posted.take w.published.length).map fun p => p.head.toUInt32

/-- `w'` is reached from `w` with nothing published on the way. -/
structure Later (q : VirtioQueue) (ok : Post → Prop) (w w' : VqWorld) : Prop where
  inv : VqInv q ok w'
  published : w'.published = w.published
  posted : w.posted <+: w'.posted

section
variable {q : VirtioQueue} {ok : Post → Prop} {w w' : VqWorld}

theorem Layout.num_pos (h : Layout q) : 0 < q.num.toNat := by
  obtain ⟨k, -, hk⟩ := h.pow
  rw [hk]
  exact Nat.two_pow_pos k

theorem Layout.num_le (h : Layout q) : q.num.toNat ≤ 32768 := by
  obtain ⟨k, hk, hn⟩ := h.pow
  rw [hn]
  exact Nat.pow_le_pow_right (by decide) hk

/-- The ring slot does not see the wrap of a 16-bit counter. -/
theorem Layout.mod_mod (h : Layout q) (n : Nat) : n % 65536 % q.num.toNat = n % q.num.toNat := by
  obtain ⟨k, hk, hn⟩ := h.pow
  rw [hn]
  exact Nat.mod_mod_of_dvd n (Nat.pow_dvd_pow 2 (show k ≤ 16 by omega))

theorem availSlot_wrap (h : Layout q) (m : Mem) (n : Nat) :
    availSlot q m (UInt16.ofNat n).toNat = availSlot q m n := by
  simp only [availSlot, UInt16.toNat_ofNat', h.mod_mod]

theorem usedId_wrap (h : Layout q) (m : Mem) (n : Nat) :
    usedId q m (UInt16.ofNat n).toNat = usedId q m n := by
  simp only [usedId, UInt16.toNat_ofNat', h.mod_mod]

theorem mod_num_lt (h : Layout q) (k : Nat) : k % q.num.toNat < q.num.toNat :=
  Nat.mod_lt k h.num_pos

theorem usedIdx_congr {m m' : Mem} (h : ∀ x ∈ usedRegion q, m x = m' x) :
    usedIdx q m = usedIdx q m' := by
  unfold usedIdx
  rw [readBytes_congr fun x h1 h2 => h x ⟨by simp only [usedRegion]; omega, by simp only [usedRegion]; omega⟩]

theorem usedId_congr (hl : Layout q) {m m' : Mem} (h : ∀ x ∈ usedRegion q, m x = m' x) (k : Nat) :
    usedId q m k = usedId q m' k := by
  have := mod_num_lt hl k
  unfold usedId
  rw [readBytes_congr fun x h1 h2 => h x
    ⟨by simp only [usedRegion]; omega, by simp only [usedRegion]; omega⟩]

theorem availIdx_congr {m m' : Mem} (h : ∀ x ∈ availRegion q, m x = m' x) :
    availIdx q m = availIdx q m' := by
  unfold availIdx
  rw [readBytes_congr fun x h1 h2 => h x
    ⟨by simp only [availRegion]; omega, by simp only [availRegion]; omega⟩]

theorem availSlot_congr (hl : Layout q) {m m' : Mem} (h : ∀ x ∈ availRegion q, m x = m' x) (k : Nat) :
    availSlot q m k = availSlot q m' k := by
  have := mod_num_lt hl k
  unfold availSlot
  rw [readBytes_congr fun x h1 h2 => h x
    ⟨by simp only [availRegion]; omega, by simp only [availRegion]; omega⟩]

theorem observe_nil {m m' : Mem} (h : usedIdx q m' = usedIdx q m) : observe q m m' = [] := by
  simp [observe, h]

theorem ofNat_succ (n : Nat) : UInt16.ofNat n + 1 = UInt16.ofNat (n + 1) := by
  apply UInt16.toNat_inj.mp
  simp [UInt16.toNat_add]

/-- The counters are equal only when the histories are: they are less than a
wrap apart. -/
theorem VqInv.idx_eq (hl : Layout q) (h : VqInv q ok w)
    (he : UInt16.ofNat w.published.length = UInt16.ofNat w.posted.length) :
    w.posted.length = w.published.length := by
  have h1 := h.le
  have h2 := h.window
  have h3 := hl.num_le
  have he' := congrArg UInt16.toNat he
  simp only [UInt16.toNat_ofNat'] at he'
  omega

/-! ## Driver steps -/

theorem VqInv.refl (h : VqInv q ok w) : Later q ok w w :=
  ⟨h, rfl, List.prefix_refl _⟩

theorem Later.trans {w'' : VqWorld} (h1 : Later q ok w w') (h2 : Later q ok w' w'') :
    Later q ok w w'' :=
  ⟨h2.inv, h2.published.trans h1.published, h1.posted.trans h2.posted⟩

theorem DriverStep.later (hl : Layout q) (hi : VqInv q ok w) (hs : DriverStep q ok w w') :
    Later q ok w w' := by
  cases hs with
  | @touch m hk ha =>
    refine ⟨⟨hi.le, hi.window, ha.trans hi.avail, ?_, ?_, ?_, hi.posts, hi.order⟩, rfl,
      List.prefix_refl _⟩
    · exact (usedIdx_congr hk.used).trans hi.used
    · intro k p hle hp
      have hlt := (List.getElem?_eq_some_iff.1 hp).1
      exact (hk.slots k hle hlt).trans (hi.slots k p hle hp)
    · intro k p hle hp
      exact (hi.chains k p hle hp).congr (hk.chains k p hle hp)
  | @post m p hroom hok hk hc hslot ha =>
    have hle := hi.le
    refine ⟨⟨?_, ?_, ?_, ?_, ?_, ?_, ?_, ?_⟩, rfl, List.prefix_append _ _⟩
    · simp only [List.length_append, List.length_singleton]
      omega
    · simp only [List.length_append, List.length_singleton]
      omega
    · simp only [List.length_append, List.length_singleton]
      rw [ha, hi.avail, ofNat_succ]
    · exact (usedIdx_congr hk.used).trans hi.used
    · intro k p' hk1 hp
      rcases getElem?_snoc hp with ⟨hlt, hold⟩ | ⟨rfl, rfl⟩
      · exact (hk.slots k hk1 hlt).trans (hi.slots k p' hk1 hold)
      · -- the new entry sits in the slot of the old available index
        rw [hi.avail, availSlot_wrap hl] at hslot
        exact hslot
    · intro k p' hk1 hp
      rcases getElem?_snoc hp with ⟨-, hold⟩ | ⟨-, rfl⟩
      · exact (hi.chains k p' hk1 hold).congr (hk.chains k p' hk1 hold)
      · exact hc
    · intro p' hp
      rcases List.mem_append.1 hp with hp | hp
      · exact hi.posts p' hp
      · rw [List.mem_singleton.1 hp]
        exact hok
    · dsimp only
      rw [List.take_append_of_le_length hle]
      exact hi.order

theorem DriverSteps.later (hl : Layout q) (hi : VqInv q ok w) (hs : DriverSteps q ok w w') :
    Later q ok w w' := by
  induction hs with
  | refl => exact hi.refl
  | tail _ h ih => exact ih.trans (h.later hl ih.inv)

theorem DriverSteps.seen (hs : DriverSteps q ok w w') : w'.seen = w.seen := by
  induction hs with
  | refl => rfl
  | tail _ h ih => cases h <;> exact ih

theorem DriverSteps.published (hs : DriverSteps q ok w w') : w'.published = w.published := by
  induction hs with
  | refl => rfl
  | tail _ h ih => cases h <;> exact ih

theorem DriverSteps.posted_le (hs : DriverSteps q ok w w') :
    w.posted.length ≤ w'.posted.length := by
  induction hs with
  | refl => exact Nat.le_refl _
  | tail _ h ih =>
    refine Nat.le_trans ih ?_
    cases h with
    | touch => exact Nat.le_refl _
    | post => simp

theorem DriverSteps.usedRegion (hs : DriverSteps q ok w w') :
    ∀ x ∈ usedRegion q, w'.mem x = w.mem x := by
  induction hs with
  | refl => exact fun _ _ => rfl
  | tail _ h ih =>
    intro x hx
    cases h with
    | touch hk _ => exact (hk.used x hx).trans (ih x hx)
    | post _ _ hk _ _ _ => exact (hk.used x hx).trans (ih x hx)

/-! ## Stores of the device -/

/-- Indices of the posted chains are inside the table. -/
def InTable (q : VirtioQueue) (p : Post) : Prop :=
  ∀ j ∈ chainPath p.head p.descs, j.toNat < q.num.toNat

theorem entry_sub (hl : Layout q) {j : UInt16} (hj : j.toNat < q.num.toNat) :
    (entry q j).Sub (tableRegion q) := by
  have hend := hl.tableEnd
  have haddr : (descAddr q j).toNat = q.desc.toNat + 16 * j.toNat := by
    have hmul : (j.toUInt64 * 16).toNat = 16 * j.toNat := by
      rw [UInt64.toNat_mul, UInt16.toNat_toUInt64, show (16 : UInt64).toNat = 16 from rfl]
      omega
    rw [descAddr, UInt64.toNat_add, hmul]
    omega
  intro x hx
  simp only [entry, tableRegion, Region.mem_def, haddr] at hx ⊢
  omega

/-- A store that changes neither the table, nor the available ring, nor the
used index publishes nothing. -/
theorem Later.of_store (hl : Layout q) (hi : VqInv q ok w) (hok : ∀ p, ok p → InTable q p) {m : Mem}
    (ht : ∀ x ∈ tableRegion q, m x = w.mem x) (ha : ∀ x ∈ availRegion q, m x = w.mem x)
    (hu : usedIdx q m = usedIdx q w.mem) : Later q ok w (w.store q m) := by
  have hpub : (w.store q m).published = w.published := by
    simp only [VqWorld.store, observe_nil hu, List.append_nil]
  refine ⟨⟨?_, ?_, (availIdx_congr ha).trans hi.avail, ?_, ?_, ?_, hi.posts, ?_⟩, hpub, List.prefix_refl _⟩
  · rw [hpub]
    exact hi.le
  · rw [hpub]
    exact hi.window
  · rw [hpub]
    exact hu.trans hi.used
  · intro k p hle hp
    rw [hpub] at hle
    exact (availSlot_congr hl ha k).trans (hi.slots k p hle hp)
  · intro k p hle hp
    rw [hpub] at hle
    refine (hi.chains k p hle hp).congr fun j hj x hx => ht x ?_
    exact entry_sub hl (hok p (hi.posts p (List.mem_of_getElem? hp)) j hj) x hx
  · rw [hpub]
    exact hi.order

/-- The queue's three areas are apart from `r`. -/
structure Outside (q : VirtioQueue) (r : Region) : Prop where
  table : (tableRegion q).Apart r
  avail : (availRegion q).Apart r
  used : (usedRegion q).Apart r

theorem Outside.sub {r r' : Region} (h : Outside q r) (hs : r'.Sub r) : Outside q r' :=
  ⟨h.table.mono (fun _ hx => hx) hs, h.avail.mono (fun _ hx => hx) hs,
    h.used.mono (fun _ hx => hx) hs⟩

theorem VqInv.store_outside (hl : Layout q) (hi : VqInv q ok w) (hok : ∀ p, ok p → InTable q p)
    {a : Nat} {data : Bytes} (ho : Outside q ⟨a, data.length⟩) :
    Later q ok w (w.store q (writeBytes w.mem a data)) :=
  Later.of_store hl hi hok (fun _ hx => writeBytes_apart ho.table hx)
    (fun _ hx => writeBytes_apart ho.avail hx)
    (usedIdx_congr fun _ hx => writeBytes_apart ho.used hx)

/-! ## Addresses the device computes -/

theorem Layout.num16 (hl : Layout q) : q.num.toUInt16.toNat = q.num.toNat := by
  have := hl.num_le
  rw [UInt32.toNat_toUInt16]
  omega

theorem Layout.num16_ne (hl : Layout q) : q.num.toUInt16 ≠ 0 := by
  intro h
  have h1 := congrArg UInt16.toNat h
  have h2 := hl.num_pos
  rw [hl.num16] at h1
  simp only [UInt16.toNat_zero] at h1
  omega

theorem availIdx_addr (hl : Layout q) : (q.avail + 2).toNat = q.avail.toNat + 2 := by
  have := hl.availEnd
  rw [UInt64.toNat_add, show (2 : UInt64).toNat = 2 from rfl]
  omega

theorem usedIdx_addr (hl : Layout q) : (q.used + 2).toNat = q.used.toNat + 2 := by
  have := hl.usedEnd
  rw [UInt64.toNat_add, show (2 : UInt64).toNat = 2 from rfl]
  omega

theorem availElem_addr (hl : Layout q) (n : Nat) :
    (availElem { q with lastAvailIdx := UInt16.ofNat n }).toNat =
      q.avail.toNat + 4 + 2 * (n % q.num.toNat) := by
  have hend := hl.availEnd
  have hlt := mod_num_lt hl n
  have hle := hl.num_le
  simp only [availElem, UInt64.toNat_add, UInt64.toNat_mul, UInt16.toNat_toUInt64, UInt16.toNat_mod,
    hl.num16, UInt16.toNat_ofNat', hl.mod_mod, show (4 : UInt64).toNat = 4 from rfl,
    show (2 : UInt64).toNat = 2 from rfl]
  omega

theorem usedElem_addr (hl : Layout q) (c n : Nat) :
    (usedElem { q with lastAvailIdx := UInt16.ofNat c } (UInt16.ofNat n)).toNat =
      q.used.toNat + 4 + 8 * (n % q.num.toNat) := by
  have hend := hl.usedEnd
  have hlt := mod_num_lt hl n
  have hle := hl.num_le
  simp only [usedElem, UInt64.toNat_add, UInt64.toNat_mul, UInt16.toNat_toUInt64, UInt16.toNat_mod,
    hl.num16, UInt16.toNat_ofNat', hl.mod_mod, show (4 : UInt64).toNat = 4 from rfl,
    show (8 : UInt64).toNat = 8 from rfl]
  omega

/-! ## Publishing a completion -/

/-- A write inside the used ring that misses the used index. -/
theorem VqInv.store_elem (hl : Layout q) (hi : VqInv q ok w) (hok : ∀ p, ok p → InTable q p)
    {a : Nat} {data : Bytes} (h1 : q.used.toNat + 4 ≤ a)
    (h2 : a + data.length ≤ q.used.toNat + 4 + 8 * q.num.toNat) :
    Later q ok w (w.store q (writeBytes w.mem a data)) := by
  have hsub : (Region.mk a data.length).Sub (usedRegion q) := by
    intro x hx
    simp only [usedRegion, Region.mem_def] at hx ⊢
    omega
  refine Later.of_store hl hi hok ?_ ?_ ?_
  · exact fun x hx => writeBytes_apart (hl.tableUsed.mono (fun _ h => h) hsub) hx
  · exact fun x hx => writeBytes_apart (hl.availUsed.mono (fun _ h => h) hsub) hx
  · unfold usedIdx
    rw [readBytes_writeBytes_apart fun x h3 h4 => .inl (by omega)]

theorem usedIdx_store (m : Mem) (v : UInt16) :
    usedIdx q (writeBytes m (q.used.toNat + 2) (virtioStoreLe16 v)) = v := by
  have hb := readBytes_writeBytes m (q.used.toNat + 2) (virtioStoreLe16 v)
  rw [virtioStoreLe16_length] at hb
  rw [usedIdx, hb, virtioLoadLe16_store]

/-- The driver sees one more entry when the index moves by one. -/
theorem observe_one (hl : Layout q) {m m' : Mem} {n : Nat} (hn : usedIdx q m = UInt16.ofNat n)
    (hidx : usedIdx q m' = usedIdx q m + 1) : observe q m m' = [usedId q m' n] := by
  have hone : (usedIdx q m + 1 - usedIdx q m).toNat = 1 := by
    rw [UInt16.add_comm, UInt16.add_sub_cancel]
    rfl
  rw [observe, hidx, hone, hn]
  simp only [List.range_one, List.map_cons, List.map_nil, show UInt16.ofNat 0 = 0 from rfl, UInt16.add_zero, usedId_wrap hl]

/-- Storing the next used index publishes the element it uncovers. -/
theorem VqInv.store_usedIdx (hl : Layout q) (hi : VqInv q ok w) (hok : ∀ p, ok p → InTable q p)
    {p : Post} (hp : w.posted[w.published.length]? = some p)
    (hid : usedId q w.mem w.published.length = p.head.toUInt32) {m : Mem}
    (hm : m = writeBytes w.mem (q.used.toNat + 2) (virtioStoreLe16 (usedIdx q w.mem + 1))) :
    VqInv q ok (w.store q m) ∧ (w.store q m).published = w.published ++ [p.head.toUInt32] := by
  have hlt := (List.getElem?_eq_some_iff.1 hp).1
  have hnum := hl.num_pos
  have hidx : usedIdx q m = usedIdx q w.mem + 1 := by
    rw [hm]
    exact usedIdx_store w.mem _
  have hsame : ∀ x, x < q.used.toNat + 2 ∨ q.used.toNat + 4 ≤ x → m x = w.mem x := by
    intro x hx
    rw [hm]
    exact writeBytes_out (by rw [virtioStoreLe16_length]; omega)
  have hused : usedId q m w.published.length = p.head.toUInt32 := by
    rw [← hid]
    unfold usedId
    rw [readBytes_congr fun x h1 h2 => hsame x (.inr (by omega))]
  have hpub : (w.store q m).published = w.published ++ [p.head.toUInt32] := by
    simp only [VqWorld.store, observe_one hl hi.used hidx, hused]
  have hlen : (w.store q m).published.length = w.published.length + 1 := by
    rw [hpub, List.length_append, List.length_singleton]
  have hout : ∀ {r : Region} {x : Nat}, r.Apart (usedRegion q) → x ∈ r → m x = w.mem x := by
    intro r x hr hx
    have := hr x hx
    simp only [usedRegion, Region.mem_def] at this
    exact hsame x (by omega)
  have havail : ∀ x ∈ availRegion q, m x = w.mem x := fun x hx => hout hl.availUsed hx
  refine ⟨⟨?_, ?_, ?_, ?_, ?_, ?_, hi.posts, ?_⟩, hpub⟩
  · rw [hlen]
    exact hlt
  · rw [hlen]
    have := hi.window
    simp only [VqWorld.store]
    omega
  · exact (availIdx_congr havail).trans hi.avail
  · rw [hlen, ← ofNat_succ, ← hi.used]
    exact hidx
  · intro k p' hle hp'
    rw [hlen] at hle
    exact (availSlot_congr hl havail k).trans (hi.slots k p' (by omega) hp')
  · intro k p' hle hp'
    rw [hlen] at hle
    refine (hi.chains k p' (by omega) hp').congr fun j hj x hx => hout hl.tableUsed ?_
    exact entry_sub hl (hok p' (hi.posts p' (List.mem_of_getElem? hp')) j hj) x hx
  · rw [hlen, hpub, List.take_add_one]
    simp only [VqWorld.store, hp, Option.toList_some, List.map_append, List.map_cons, List.map_nil]
    rw [← hi.order]

end

end AcsVirt.L3
