import AcsVirt.L2Machine.QueueWords
import AcsVirt.L4Device.Mirror

/-!
# Queue set-up under the barrier policy

With `notify-policy=barrier` the frontend wakes the daemon for `QUEUE_SEL` and for
`QUEUE_READY`, and leaves the writes between them in the window, where one set of
words serves all the queues in turn. `batchFrom` is a guest that sets up its
queues one after the other; how it orders and repeats the writes of a batch is
its own affair, only the last one per register counts.

The device is watched (`watchReady`): each `QUEUE_READY` other than 0 that it is
handed is logged with the selected queue as it is at that moment. Without the log
it is the device (`watchReady_erase`). `barrier_batching`: every queue ends as its
batch says, and was like that when it was made ready.

The words of a queue are independent (`queueWord_set`), so what a scan does to
the selected queue is read off word by word (`scanWords_word`).
-/
namespace AcsVirt.L4

open L2

variable {D P : Type}

/-! ## The guest -/

/-- What the guest wants a queue to be. -/
structure QueueConfig where
  num : UInt32
  desc : UInt64
  avail : UInt64
  used : UInt64
  deriving DecidableEq, Repr

def QueueConfig.queue (c : QueueConfig) : VirtioQueue := ⟨c.num, 1, c.desc, c.avail, c.used, 0⟩

/-- The registers written between the selection and `QUEUE_READY`. -/
def setupRegisters : List MmioReg := queueStateOffsets.filter (· ≠ .queueReady)

/-- The value of the last write to `r`. -/
def lastValue : List (MmioReg × UInt32) → MmioReg → Option UInt32
  | [], _ => none
  | p :: writes, r => (lastValue writes r).or (if p.1 = r then some p.2 else none)

/-- Writes to the set-up registers, in any order and number, that end with the
words of a configuration. -/
structure Batch where
  config : QueueConfig
  writes : List (MmioReg × UInt32)
  num_ne : config.num ≠ 0
  regs : ∀ p ∈ writes, p.1 ∈ setupRegisters
  last : ∀ r ∈ setupRegisters, lastValue writes r = some (queueWord config.queue r)

/-- The stores of a batch; the policy lets none of them wake the daemon.
mirrors patches/qemu/0001-chiplets-qemu-support.patch:320-339 -/
def storeAll (z : UioSizes) (writes : List (MmioReg × UInt32)) (w : Window) : Window :=
  writes.foldl (fun w p => axiUioWrite z.mmioSize w p.1.offset p.2) w

/-- A queue is selected, set up and made ready, with a pass after the first and the last write. -/
def batchQueue (z : UioSizes) (dev : FabricDevice D) (q : UInt32) (writes : List (MmioReg × UInt32))
    (u : UioState D) : FabricM (UioState D × Bool) := do
  let (u, ok) ← uioPass z dev
    { u with window := axiUioWrite z.mmioSize u.window MmioReg.queueSel.offset q }
  if ok then
    uioPass z dev { u with
      window := axiUioWrite z.mmioSize (storeAll z writes u.window) MmioReg.queueReady.offset 1 }
  else return (u, false)

/-- The queues from `q` on, one batch each. -/
def batchFrom (z : UioSizes) (dev : FabricDevice D) :
    Nat → List Batch → UioState D → FabricM (UioState D × Bool)
  | _, [], u => return (u, true)
  | q, b :: bs, u => do
    let (u, ok) ← batchQueue z dev (UInt32.ofNat q) b.writes u
    if ok then batchFrom z dev (q + 1) bs u else return (u, false)

/-! ## The watched device -/

/-- The selector and the selected queue at each `QUEUE_READY`. -/
abbrev ReadyLog := List (UInt32 × Option VirtioQueue)

def logReady (m : VirtioMmio) (offset value : UInt64) (log : ReadyLog) : ReadyLog :=
  if offset = MmioReg.queueReady.offset ∧ value ≠ 0 then log ++ [(m.queueSel, virtioMmioQueue m m.queueSel)] else log

def watchReady (dev : FabricDevice (FabricBinding P)) :
    FabricDevice (FabricBinding P × ReadyLog) where
  addr := dev.addr
  size := dev.size
  read d offset len := dev.read d.1 offset len
  write d offset value len := do
    let (b, ok) ← dev.write d.1 offset value len
    return ((b, logReady d.1.mmio offset value d.2), ok)

def unwatch (p : UioState (FabricBinding P × ReadyLog) × Bool) :
    UioState (FabricBinding P) × Bool :=
  (⟨p.1.window, p.1.shadow, p.1.dev.1⟩, p.2)

section
variable {z : UioSizes} {dev : FabricDevice (FabricBinding P)}

theorem scan_watched (r : MmioReg) (u : UioState (FabricBinding P × ReadyLog)) :
    (scanRegister z (watchReady dev) r u >>= fun p => pure (unwatch p)) =
      scanRegister z dev r (unwatch (u, true)).1 := by
  unfold scanRegister examine
  have hch : changed z r (unwatch (u, true)).1 = changed z r u := rfl
  rw [hch]
  cases changed z r u with
  | none => rfl
  | some value =>
    have hdev : (consume r value (unwatch (u, true)).1).dev = (consume r value u).dev.1 := by
      unfold consume
      split <;> rfl
    simp only [watchReady, Prog.bind_assoc, hdev]
    congr 1
    funext p
    obtain ⟨b, ok⟩ := p
    cases ok with
    | false =>
      simp only [Prog.pure_eq, Prog.ret_bind, Bool.false_eq_true, if_false]
      unfold consume
      split <;> rfl
    | true =>
      simp only [Prog.pure_eq, Prog.ret_bind, if_true]
      unfold settle consume
      split
      · split <;> rfl
      · split
        · split <;> rfl
        · split <;> rfl

theorem poll_watched (rs : List MmioReg) (u : UioState (FabricBinding P × ReadyLog)) :
    (pollWriteRegisters z (watchReady dev) rs u >>= fun p => pure (unwatch p)) =
      pollWriteRegisters z dev rs (unwatch (u, true)).1 := by
  induction rs generalizing u with
  | nil => rfl
  | cons r rs ih =>
    simp only [pollWriteRegisters, ← scan_watched, Prog.bind_assoc]
    congr 1
    funext p
    obtain ⟨u', ok⟩ := p
    cases ok with
    | true => exact ih u'
    | false => rfl

theorem uioPass_watched (u : UioState (FabricBinding P × ReadyLog)) :
    (uioPass z (watchReady dev) u >>= fun p => pure (unwatch p)) = uioPass z dev (unwatch (u, true)).1 := by
  simp only [uioPass, ← poll_watched, Prog.bind_assoc]
  congr 1
  funext p
  obtain ⟨u', ok⟩ := p
  cases ok <;> rfl

theorem batchQueue_watched (q : UInt32) (writes : List (MmioReg × UInt32))
    (u : UioState (FabricBinding P × ReadyLog)) :
    (batchQueue z (watchReady dev) q writes u >>= fun p => pure (unwatch p)) =
      batchQueue z dev q writes (unwatch (u, true)).1 := by
  unfold batchQueue
  rw [show (⟨axiUioWrite z.mmioSize (unwatch (u, true)).1.window MmioReg.queueSel.offset q,
    (unwatch (u, true)).1.shadow, (unwatch (u, true)).1.dev⟩ : UioState (FabricBinding P)) =
      (unwatch (⟨axiUioWrite z.mmioSize u.window MmioReg.queueSel.offset q, u.shadow, u.dev⟩, true)).1 from rfl,
    ← uioPass_watched]
  simp only [Prog.bind_assoc]
  congr 1
  funext p
  obtain ⟨u', ok⟩ := p
  cases ok with
  | true => exact uioPass_watched _
  | false => rfl

/-- Without the log the watched device is the device. -/
theorem watchReady_erase (q : Nat) (bs : List Batch) (u : UioState (FabricBinding P × ReadyLog)) :
    (batchFrom z (watchReady dev) q bs u >>= fun p => pure (unwatch p)) =
      batchFrom z dev q bs (unwatch (u, true)).1 := by
  induction bs generalizing q u with
  | nil => rfl
  | cons b bs ih =>
    simp only [batchFrom, ← batchQueue_watched, Prog.bind_assoc]
    congr 1
    funext p
    obtain ⟨u', ok⟩ := p
    cases ok with
    | true => exact ih _ u'
    | false => rfl

end

/-! ## What a scan does to the selected queue -/

/-- The words of `rs` that differ from the shadow, written to a queue. -/
def scanWords (w : Window) (sh : MmioReg → UInt32) (rs : List MmioReg) (q : VirtioQueue) :
    VirtioQueue :=
  rs.foldl (fun q r => if w r.offset = sh r then q else setQueueWord q r (w r.offset)) q

theorem scanWords_word {w : Window} {sh : MmioReg → UInt32} {rs : List MmioReg}
    (hrs : ∀ r ∈ rs, r ∈ queueStateOffsets ∨ w r.offset = sh r) (q : VirtioQueue) (s : MmioReg) :
    queueWord (scanWords w sh rs q) s = if s ∈ rs ∧ w s.offset ≠ sh s then w s.offset else queueWord q s := by
  induction rs generalizing q with
  | nil => simp [scanWords]
  | cons r rs ih =>
    have hrest := ih fun t ht => hrs t (List.mem_cons_of_mem _ ht)
    rw [scanWords, List.foldl_cons]
    by_cases heq : w r.offset = sh r
    · rw [if_pos heq]
      refine (hrest q).trans ?_
      by_cases hs : s = r
      · subst hs
        simp [heq]
      · simp [hs]
    · rw [if_neg heq]
      refine (hrest _).trans ?_
      rw [queueWord_set q ((hrs r List.mem_cons_self).resolve_right heq)]
      by_cases hs : s = r
      · subst hs
        simp [heq]
      · simp [hs]

theorem scanWords_cursor (w : Window) (sh : MmioReg → UInt32) (rs : List MmioReg) (q : VirtioQueue) :
    (scanWords w sh rs q).lastAvailIdx = q.lastAvailIdx := by
  refine foldl_keeps VirtioQueue.lastAvailIdx _ rs q fun q r _ => ?_
  split
  · rfl
  · exact setQueueWord_cursor _ _ _

/-- What the watched device does with a write. -/
def watchedWrite (d : FabricBinding P × ReadyLog) (r : MmioReg) (v : UInt32) :
    FabricBinding P × ReadyLog :=
  ({ d.1 with mmio := writeReg d.1.mmio v r }, logReady d.1.mmio r.offset v.toUInt64 d.2)

theorem watched_answers (ops : P → VirtioDeviceOps)
    (notify : Device P → UInt32 → FabricM (Device P × Bool)) :
    Answers (watchReady (bindingDevice ops notify)) watchedWrite := by
  intro d r v f hr
  obtain ⟨f', h⟩ := mmioWrite_run notify d.1 hr v f
  exact ⟨f', Prog.run_bind_ok h⟩

/-- A scan in which only queue words differ, and `QUEUE_READY` only to 0. -/
theorem dispatched_watched {w : Window} {sh : MmioReg → UInt32} {rs : List MmioReg}
    (hrs : ∀ r ∈ rs, r ∈ queueStateOffsets ∨ w r.offset = sh r)
    (hready : .queueReady ∈ rs → w MmioReg.queueReady.offset = 0) (d : FabricBinding P × ReadyLog) :
    dispatched watchedWrite w sh rs d = ({ d.1 with mmio := onQueue d.1.mmio (scanWords w sh rs) }, d.2) := by
  induction rs generalizing d with
  | nil =>
    rw [show scanWords w sh [] = id from rfl, onQueue_id]
    rfl
  | cons r rs ih =>
    have hrest := ih (fun t ht => hrs t (List.mem_cons_of_mem _ ht)) fun h => hready (List.mem_cons_of_mem _ h)
    rw [dispatched, List.foldl_cons]
    by_cases heq : w r.offset = sh r
    · rw [if_pos heq]
      refine (hrest d).trans ?_
      rw [show scanWords w sh (r :: rs) = scanWords w sh rs from funext fun q => by
        rw [scanWords, List.foldl_cons, if_pos heq]; rfl]
    · rw [if_neg heq]
      refine (hrest _).trans ?_
      have hq := (hrs r List.mem_cons_self).resolve_right heq
      have hlog : logReady d.1.mmio r.offset (w r.offset).toUInt64 d.2 = d.2 := by
        rw [logReady, if_neg]
        rintro ⟨h1, h2⟩
        have hr : r = .queueReady := MmioReg.offset_inj h1
        subst hr
        rw [hready List.mem_cons_self] at h2
        exact h2 rfl
      rw [show scanWords w sh (r :: rs) = scanWords w sh rs ∘ fun q => setQueueWord q r (w r.offset) from
        funext fun q => by rw [scanWords, List.foldl_cons, if_neg heq]; rfl]
      simp only [watchedWrite, hlog, writeReg_queueWord _ hq, onQueue_onQueue]

/-! ## Selection -/

/-- The first queues are done, the others as a reset leaves them; a word in
the selector that names the next one is the device's. -/
structure BatchInv (done : List VirtioQueue) (left : Nat)
    (u : UioState (FabricBinding P × ReadyLog)) : Prop where
  shadow : ∀ r ∈ writeOffsets, u.window r.offset = u.shadow r
  status : u.dev.1.mmio.vdev.status = u.window MmioReg.status.offset
  sel : u.window MmioReg.queueSel.offset = UInt32.ofNat done.length →
    u.dev.1.mmio.queueSel = UInt32.ofNat done.length
  queues : ∃ size, u.dev.1.mmio.vdev.queues = done ++ List.replicate left (resetQueue size)

/-- The next queue is selected and its words are clear, in the window and, the
size apart, in the device. -/
structure Selected (done : List VirtioQueue) (left : Nat)
    (u : UioState (FabricBinding P × ReadyLog)) : Prop where
  shadow : ∀ r ∈ writeOffsets, u.window r.offset = u.shadow r
  status : u.dev.1.mmio.vdev.status = u.window MmioReg.status.offset
  word : u.window MmioReg.queueSel.offset = UInt32.ofNat done.length
  clear : ∀ r ∈ queueStateOffsets, u.window r.offset = 0
  sel : u.dev.1.mmio.queueSel = UInt32.ofNat done.length
  queues : ∃ size q, u.dev.1.mmio.vdev.queues = done ++ q :: List.replicate left (resetQueue size) ∧
    q.lastAvailIdx = 0 ∧ ∀ r ∈ queueStateOffsets, r ≠ .queueNum → queueWord q r = 0

/-- The window after the driver has selected the next queue: the words of the
queue are cleared in it. -/
def SelectWritten (done : List VirtioQueue) (w w' : Window) : Prop :=
  ∀ r : MmioReg, w' r.offset = if r ∈ queueStateOffsets then 0
    else if r = .queueSel then UInt32.ofNat done.length else w r.offset

/-- What the scan of that window leaves. -/
structure SelectScan (done : List VirtioQueue) (left : Nat) (w : Window)
    (u u' : UioState (FabricBinding P × ReadyLog)) :
    Prop where
  window : u'.window = w
  shadow : ∀ r ∈ writeOffsets, u'.shadow r = w r.offset
  log : u'.dev.2 = u.dev.2
  status : u'.dev.1.mmio.vdev.status = u.dev.1.mmio.vdev.status
  sel : u'.dev.1.mmio.queueSel = UInt32.ofNat done.length
  queues : ∃ size q, u'.dev.1.mmio.vdev.queues = done ++ q :: List.replicate left (resetQueue size) ∧
    q.lastAvailIdx = 0 ∧ ∀ r ∈ queueStateOffsets, r ≠ .queueNum → queueWord q r = 0

theorem modify_append_cons {α : Type} (xs ys : List α) (a : α) (f : α → α) :
    (xs ++ a :: ys).modify xs.length f = xs ++ f a :: ys := by
  induction xs with
  | nil => rfl
  | cons x xs ih => simp only [List.cons_append, List.length_cons, List.modify_succ_cons, ih]

section
variable {z : UioSizes} (hz : z.devSize = 0x200) {ops : P → VirtioDeviceOps}
  {notify : Device P → UInt32 → FabricM (Device P × Bool)}
  {done : List VirtioQueue} {left : Nat} {u : UioState (FabricBinding P × ReadyLog)}
include hz

theorem watchedPass_run {u₁ : UioState (FabricBinding P × ReadyLog)} {f f₁ : UioFabric}
    (hpoll : (pollWriteRegisters z (watchReady (bindingDevice ops notify)) writeOffsets u).run UioFabric.answer f =
      (.ok (u₁, true), f₁)) (hst : u₁.dev.1.mmio.vdev.status = u₁.window MmioReg.status.offset) :
    ∃ u', (uioPass z (watchReady (bindingDevice ops notify)) u).run UioFabric.answer f = (.ok (u', true), f₁) ∧
      u'.dev = u₁.dev ∧ u'.shadow = u₁.shadow ∧ ∀ r ∈ writeOffsets, u'.window r.offset = u₁.window r.offset :=
  pass_run hz hpoll ((status_read (ops u₁.dev.1.priv) u₁.dev.1.mmio).trans hst)

variable (ops) (notify) in
/-- The queue was selected already: the cleared words are delivered to it, and
it is clear. -/
theorem scan_reselect (h : BatchInv done (left + 1) u) (hlen : done.length < UInt32.size)
    {w : Window} (hword : SelectWritten done u.window w)
    (hsame : u.window MmioReg.queueSel.offset = UInt32.ofNat done.length) (f : UioFabric) :
    ∃ u₁ f₁, (pollWriteRegisters z (watchReady (bindingDevice ops notify)) writeOffsets { u with window := w }).run
        UioFabric.answer f = (.ok (u₁, true), f₁) ∧ SelectScan done left w u u₁ := by
  have hnat : (UInt32.ofNat done.length).toNat = done.length := UInt32.toNat_ofNat_of_lt hlen
  obtain ⟨size, hq⟩ := h.queues
  rw [List.replicate_succ] at hq
  have hquiet : ∀ r ∈ writeOffsets, r ∈ queueStateOffsets ∨ w r.offset = u.shadow r := by
    intro r hr
    by_cases hqr : r ∈ queueStateOffsets
    · exact .inl hqr
    · right
      rw [hword, if_neg hqr, ← h.shadow r hr]
      split
      · rename_i he
        rw [he, hsame]
      · rfl
  obtain ⟨u₁, f₁, hpoll, hwin, hdev, hsh, -⟩ := poll_plain (watched_answers ops notify) hz writeOffsets (by decide)
    { u with window := w } f fun r hr => (hquiet r hr).imp (fun hqr => by revert r; decide) id
  rw [dispatched_watched hquiet fun _ => by rw [hword, if_pos (by decide)]] at hdev
  refine ⟨u₁, f₁, hpoll, hwin, hsh, by rw [hdev], by rw [hdev]; rfl, by rw [hdev]; exact h.sel hsame, size, ?_⟩
  refine ⟨scanWords w u.shadow writeOffsets (resetQueue size), ?_, ?_, fun r hr hne => ?_⟩
  · rw [hdev]
    show List.modify _ _ _ = _
    rw [h.sel hsame, hnat, hq, modify_append_cons]
  · rw [scanWords_cursor]
    rfl
  · rw [scanWords_word hquiet, hword, if_pos hr, resetQueue_word size r hr hne]
    split <;> rfl

variable (ops) (notify) in
/-- Another queue was: the selector is the only word the scan delivers. -/
theorem scan_select (h : BatchInv done (left + 1) u) {w : Window}
    (hword : SelectWritten done u.window w)
    (hne : u.window MmioReg.queueSel.offset ≠ UInt32.ofNat done.length) (f : UioFabric) :
    ∃ u₁ f₁, (pollWriteRegisters z (watchReady (bindingDevice ops notify)) writeOffsets { u with window := w }).run
        UioFabric.answer f = (.ok (u₁, true), f₁) ∧ SelectScan done left w u u₁ := by
  have hselWord : w MmioReg.queueSel.offset = UInt32.ofNat done.length := by
    rw [hword, if_neg (by decide), if_pos rfl]
  have hchanged : w MmioReg.queueSel.offset ≠ u.shadow .queueSel := by
    rw [hselWord, ← h.shadow _ (by decide)]
    exact Ne.symm hne
  have hothers : ∀ r ∈ writeOffsets, r ≠ .queueSel → r ∉ queueStateOffsets → w r.offset = u.shadow r := by
    intro r hr hsel hqr
    rw [hword, if_neg hqr, if_neg hsel, h.shadow r hr]
  obtain ⟨u₁, f₁, hpoll, hwin, hdev, hsh⟩ := poll_queueSel (watched_answers ops notify) hz { u with window := w } f
    hchanged hothers
  obtain ⟨size, hq⟩ := h.queues
  refine ⟨u₁, f₁, hpoll, hwin, hsh, by rw [hdev]; rfl, by rw [hdev]; rfl, by rw [hdev]; exact hselWord, size, ?_⟩
  exact ⟨resetQueue size, by rw [hdev]; exact hq, rfl, resetQueue_word size⟩

variable (ops) (notify) in
theorem select_run (h : BatchInv done (left + 1) u) (hlen : done.length < UInt32.size)
    (f : UioFabric) :
    ∃ u' f', (uioPass z (watchReady (bindingDevice ops notify)) { u with
        window := axiUioWrite z.mmioSize u.window MmioReg.queueSel.offset (UInt32.ofNat done.length) }).run
          UioFabric.answer f = (.ok (u', true), f') ∧ Selected done left u' ∧ u'.dev.2 = u.dev.2 := by
  generalize hw : axiUioWrite z.mmioSize u.window MmioReg.queueSel.offset (UInt32.ofNat done.length) = w
  have hword : SelectWritten done u.window w := by
    intro r
    rw [← hw, axiUioWrite_word hz]
    simp only [true_and]
  obtain ⟨u₁, f₁, hpoll, hs⟩ : ∃ u₁ f₁, (pollWriteRegisters z (watchReady (bindingDevice ops notify)) writeOffsets
      { u with window := w }).run UioFabric.answer f = (.ok (u₁, true), f₁) ∧ SelectScan done left w u u₁ := by
    by_cases hsame : u.window MmioReg.queueSel.offset = UInt32.ofNat done.length
    · exact scan_reselect hz ops notify h hlen hword hsame f
    · exact scan_select hz ops notify h hword hsame f
  have hstatus : w MmioReg.status.offset = u.window MmioReg.status.offset := by
    rw [hword, if_neg (by decide), if_neg (by decide)]
  obtain ⟨u', hrun, hdev, hsh', hwin'⟩ := watchedPass_run hz hpoll (by rw [hs.status, hs.window, hstatus, h.status])
  refine ⟨u', f₁, hrun, ⟨fun r hr => ?_, ?_, ?_, fun r hr => ?_, ?_, ?_⟩, by rw [hdev, hs.log]⟩
  · rw [hwin' r hr, hs.window, hsh', hs.shadow r hr]
  · rw [hdev, hs.status, hwin' _ (by decide), hs.window, hstatus, h.status]
  · rw [hwin' _ (by decide), hs.window, hword, if_neg (by decide), if_pos rfl]
  · rw [hwin' r (by revert r; decide), hs.window, hword, if_pos hr]
  · rw [hdev, hs.sel]
  · rw [hdev]
    exact hs.queues

omit hz in
theorem lastValue_none {writes : List (MmioReg × UInt32)} {r : MmioReg} (h : ∀ p ∈ writes, p.1 ≠ r) :
    lastValue writes r = none := by
  induction writes with
  | nil => rfl
  | cons p writes ih =>
    rw [lastValue, ih fun p hp => h p (List.mem_cons_of_mem _ hp), if_neg (h p List.mem_cons_self)]
    rfl

theorem storeAll_word (writes : List (MmioReg × UInt32)) (hw : ∀ p ∈ writes, p.1 ∈ setupRegisters)
    (w : Window) (r : MmioReg) :
    storeAll z writes w r.offset = (lastValue writes r).getD (w r.offset) := by
  induction writes generalizing w with
  | nil => rfl
  | cons p writes ih =>
    have hp : p.1 ≠ .queueSel := by
      intro he
      have := hw p List.mem_cons_self
      rw [he] at this
      revert this
      decide
    rw [storeAll, List.foldl_cons]
    refine (ih (fun p hp => hw p (List.mem_cons_of_mem _ hp)) _).trans ?_
    rw [axiUioWrite_word hz, if_neg fun h => hp h.1, lastValue]
    cases lastValue writes r with
    | some v => rfl
    | none =>
      by_cases he : p.1 = r
      · rw [if_pos he, if_pos he.symm]
        rfl
      · rw [if_neg he, if_neg (Ne.symm he)]
        rfl

omit hz in
theorem dispatched_append (g : D → MmioReg → UInt32 → D) (w : Window) (sh : MmioReg → UInt32)
    (xs ys : List MmioReg) (d : D) :
    dispatched g w sh (xs ++ ys) d = dispatched g w sh ys (dispatched g w sh xs d) :=
  List.foldl_append

/-- The queue before it is made ready. -/
def QueueConfig.unready (c : QueueConfig) : VirtioQueue := { c.queue with ready := 0 }

omit hz in
/-- A scan that finds `QUEUE_READY` set. -/
theorem dispatched_ready {w : Window} {sh : MmioReg → UInt32}
    (hquiet : ∀ r ∈ writeOffsets, r ∈ queueStateOffsets ∨ w r.offset = sh r)
    (hw : w MmioReg.queueReady.offset = 1) (hsh : sh .queueReady = 0)
    (d : FabricBinding P × ReadyLog) :
    dispatched watchedWrite w sh writeOffsets d =
      ({ d.1 with mmio := onQueue d.1.mmio fun q => setQueueWord (scanWords w sh (writeOffsets.take 11) q) .queueReady 1 },
        d.2 ++ [(d.1.mmio.queueSel,
          virtioMmioQueue (onQueue d.1.mmio (scanWords w sh (writeOffsets.take 11))) d.1.mmio.queueSel)]) := by
  have hsplit : writeOffsets = writeOffsets.take 11 ++ MmioReg.queueReady :: writeOffsets.drop 12 := rfl
  have hnot : MmioReg.queueReady ∉ writeOffsets.take 11 := by decide
  have hlate : ∀ r ∈ writeOffsets.drop 12, w r.offset = sh r := fun r hr =>
    (hquiet r (List.mem_of_mem_drop hr)).resolve_left (by revert r; decide)
  have hfirst := dispatched_watched (fun r hr => hquiet r (List.mem_of_mem_take hr)) (fun h => absurd h hnot) d
  have hready : ∀ d : FabricBinding P × ReadyLog, dispatched watchedWrite w sh (MmioReg.queueReady :: writeOffsets.drop 12) d =
      watchedWrite d .queueReady 1 := by
    intro d
    refine (dispatched_quiet hlate _).trans ?_
    simp only [hw, hsh]
    rfl
  conv => lhs; rw [hsplit, dispatched_append, hfirst, hready]
  simp only [watchedWrite, writeReg_queueWord _ (show MmioReg.queueReady ∈ queueStateOffsets by decide), onQueue_onQueue]
  rfl

omit hz in
/-- Every word that is written arrives in a queue that was clear, the size apart. -/
theorem scanWords_config {w : Window} {sh : MmioReg → UInt32} {c : QueueConfig} (hnum : c.num ≠ 0)
    (hquiet : ∀ r ∈ writeOffsets, r ∈ queueStateOffsets ∨ w r.offset = sh r)
    (hw : ∀ r ∈ queueStateOffsets, w r.offset = queueWord c.queue r)
    (hsh : ∀ r ∈ queueStateOffsets, sh r = 0) {q : VirtioQueue} (hcur : q.lastAvailIdx = 0)
    (hzero : ∀ r ∈ queueStateOffsets, r ≠ .queueNum → queueWord q r = 0) :
    scanWords w sh (writeOffsets.take 11) q = c.unready := by
  refine queue_ext (fun r hr => ?_) (by rw [scanWords_cursor, hcur]; rfl)
  rw [scanWords_word fun r hr => hquiet r (List.mem_of_mem_take hr)]
  by_cases hready : r = .queueReady
  · subst hready
    rw [if_neg fun h => absurd h.1 (by decide), hzero _ hr (by decide)]
    rfl
  have hmem : r ∈ writeOffsets.take 11 := by revert r; decide
  have hword : queueWord c.unready r = queueWord c.queue r := by
    revert hready
    cases r <;> first | exact fun _ => rfl | exact fun h => absurd rfl h
  rw [hword, hw r hr, hsh r hr]
  split
  · rfl
  · rename_i h
    have h0 : queueWord c.queue r = 0 := Decidable.byContradiction fun h0 => h ⟨hmem, h0⟩
    rw [h0]
    refine hzero r hr ?_
    intro he
    subst he
    exact hnum h0

variable (ops) (notify) in
theorem ready_run (h : Selected done left u) (hlen : done.length < UInt32.size) (b : Batch)
    (f : UioFabric) :
    ∃ u' f', (uioPass z (watchReady (bindingDevice ops notify)) { u with
        window := axiUioWrite z.mmioSize (storeAll z b.writes u.window) MmioReg.queueReady.offset 1 }).run
          UioFabric.answer f = (.ok (u', true), f') ∧
      (∀ r ∈ writeOffsets, u'.window r.offset = u'.shadow r) ∧
      u'.dev.1.mmio.vdev.status = u'.window MmioReg.status.offset ∧
      u'.window MmioReg.queueSel.offset = UInt32.ofNat done.length ∧
      (∃ size, u'.dev.1.mmio.vdev.queues = done ++ b.config.queue :: List.replicate left (resetQueue size)) ∧
      u'.dev.2 = u.dev.2 ++ [(UInt32.ofNat done.length, some b.config.unready)] := by
  generalize hw : axiUioWrite z.mmioSize (storeAll z b.writes u.window) MmioReg.queueReady.offset 1 = w
  have hnat : (UInt32.ofNat done.length).toNat = done.length := UInt32.toNat_ofNat_of_lt hlen
  have hword : ∀ r : MmioReg, w r.offset =
      if r = .queueReady then 1 else (lastValue b.writes r).getD (u.window r.offset) := by
    intro r
    rw [← hw, axiUioWrite_word hz, if_neg fun h => absurd h.1 (by decide), storeAll_word hz _ b.regs]
  have hset : ∀ r ∈ queueStateOffsets, w r.offset = queueWord b.config.queue r := by
    intro r hr
    rw [hword]
    by_cases hready : r = .queueReady
    · rw [if_pos hready, hready]
      rfl
    · rw [if_neg hready, b.last r (List.mem_filter.2 ⟨hr, by simpa using hready⟩)]
      rfl
  have hother : ∀ r : MmioReg, r ∉ queueStateOffsets → w r.offset = u.window r.offset := by
    intro r hr
    have hready : r ≠ .queueReady := by
      intro he
      subst he
      exact hr (by decide)
    have hnone : lastValue b.writes r = none := lastValue_none fun p hp he =>
      hr (he ▸ (List.mem_filter.1 (b.regs p hp)).1)
    rw [hword, if_neg hready, hnone]
    rfl
  have hsh : ∀ r ∈ queueStateOffsets, u.shadow r = 0 := fun r hr => by
    rw [← h.shadow r (by revert r; decide), h.clear r hr]
  have hquiet : ∀ r ∈ writeOffsets, r ∈ queueStateOffsets ∨ w r.offset = u.shadow r := by
    intro r hr
    by_cases hq : r ∈ queueStateOffsets
    · exact .inl hq
    · exact .inr ((hother r hq).trans (h.shadow r hr))
  obtain ⟨size, q, hqs, hcur, hzero⟩ := h.queues
  obtain ⟨u₁, f₁, hpoll, hwin, hdev, hshadow, -⟩ := poll_plain (watched_answers ops notify) hz writeOffsets (by decide)
    { u with window := w } f fun r hr => (hquiet r hr).imp (fun hqr => by revert r; decide) id
  rw [dispatched_ready hquiet (hset _ (by decide)) (hsh _ (by decide))] at hdev
  have hqueue := scanWords_config b.num_ne hquiet hset hsh hcur hzero
  have hstatus : u₁.dev.1.mmio.vdev.status = w MmioReg.status.offset := by
    rw [hdev, hother _ (by decide)]
    exact h.status
  obtain ⟨u', hrun, hdev', hsh', hwin'⟩ := watchedPass_run hz hpoll (by rw [hstatus, hwin])
  refine ⟨u', f₁, hrun, fun r hr => ?_, ?_, ?_, ⟨size, ?_⟩, ?_⟩
  · rw [hwin' r hr, hsh', hshadow r hr, hwin]
  · rw [hdev', hstatus, hwin' _ (by decide), hwin]
  · rw [hwin' _ (by decide), hwin]
    exact (hother _ (by decide)).trans h.word
  · rw [hdev', hdev]
    show List.modify _ _ _ = _
    rw [h.sel, hnat, hqs, modify_append_cons, hqueue]
    rfl
  · rw [hdev', hdev]
    show _ ++ [(_, (List.modify _ _ _)[_]?)] = _
    rw [h.sel, hnat, hqs, modify_append_cons, hqueue, List.getElem?_append_right (Nat.le_refl _), Nat.sub_self]
    rfl

variable (ops) (notify) in
/-- One queue. -/
theorem batchQueue_run (h : BatchInv done (left + 1) u) (hlen : done.length + 1 < UInt32.size)
    (b : Batch) (f : UioFabric) :
    ∃ u' f', (batchQueue z (watchReady (bindingDevice ops notify)) (UInt32.ofNat done.length) b.writes u).run
        UioFabric.answer f = (.ok (u', true), f') ∧ BatchInv (done ++ [b.config.queue]) left u' ∧
      u'.dev.2 = u.dev.2 ++ [(UInt32.ofNat done.length, some b.config.unready)] := by
  obtain ⟨u₁, f₁, hrun₁, hsel, hlog₁⟩ := select_run hz ops notify h (by omega) f
  obtain ⟨u₂, f₂, hrun₂, hsh, hst, hword, ⟨size, hqs⟩, hlog₂⟩ :=
    ready_run hz ops notify hsel (by omega) b f₁
  refine ⟨u₂, f₂, (Prog.run_bind_ok hrun₁).trans hrun₂, ⟨hsh, hst, fun he => ?_, size, ?_⟩, by rw [hlog₂, hlog₁]⟩
  · -- the selector holds this queue's number, not the next one's
    rw [hword] at he
    have h1 : (UInt32.ofNat done.length).toNat = done.length := UInt32.toNat_ofNat_of_lt (by omega)
    have h2 : (UInt32.ofNat (done.length + 1)).toNat = done.length + 1 := UInt32.toNat_ofNat_of_lt hlen
    rw [List.length_append, List.length_singleton] at he
    rw [he] at h1
    omega
  · rw [hqs, List.append_assoc]
    rfl

/-- The entries of the log for the queues from `q` on. -/
def readyLog (q : Nat) (bs : List Batch) : ReadyLog :=
  (bs.zipIdx q).map fun p => (UInt32.ofNat p.2, some p.1.config.unready)

variable (ops) (notify) in
theorem batchFrom_run (bs : List Batch) (h : BatchInv done bs.length u)
    (hlen : done.length + bs.length < UInt32.size) (f : UioFabric) :
    ∃ u' f', (batchFrom z (watchReady (bindingDevice ops notify)) done.length bs u).run UioFabric.answer f =
        (.ok (u', true), f') ∧ u'.dev.1.mmio.vdev.queues = done ++ bs.map (·.config.queue) ∧
      u'.dev.2 = u.dev.2 ++ readyLog done.length bs := by
  induction bs generalizing done u f with
  | nil =>
    obtain ⟨size, hq⟩ := h.queues
    exact ⟨u, f, rfl, hq, (List.append_nil _).symm⟩
  | cons b bs ih =>
    rw [List.length_cons] at hlen
    obtain ⟨u₁, f₁, hrun, hinv, hlog⟩ := batchQueue_run hz ops notify h (by omega) b f
    obtain ⟨u', f', hrest, hq, hlog'⟩ := ih hinv (by rw [List.length_append, List.length_singleton]; omega) f₁
    refine ⟨u', f', (Prog.run_bind_ok hrun).trans ?_, ?_, ?_⟩
    · rw [List.length_append] at hrest
      exact hrest
    · rw [hq, List.append_assoc]
      rfl
    · rw [hlog', hlog, List.append_assoc, List.length_append]
      rfl

end

/-! ## After a reset -/

/-- The device has just been reset, which leaves its selector at 0, and the
daemon has come to the end of its pass: 0 is in the status word and every
word is in the shadow. Nothing is said about the selector's and the queues'
words. -/
structure JustReset (u : UioState (FabricBinding P)) : Prop where
  device : u.dev.mmio = virtioMmioReset u.dev.mmio
  status : u.window MmioReg.status.offset = 0
  shadow : ∀ r ∈ writeOffsets, u.window r.offset = u.shadow r

/-- A reset by the guest. -/
theorem reset_justReset {z : UioSizes} (hz : z.devSize = 0x200) (ops : P → VirtioDeviceOps)
    (notify : Device P → UInt32 → FabricM (Device P × Bool)) {u : UioState (FabricBinding P)}
    (h : MirrorInv u) (hne : u.window MmioReg.status.offset ≠ 0) (f : UioFabric) :
    ∃ u' f', (guestWrite z (bindingDevice ops notify) .status 0 u).run UioFabric.answer f = (.ok (u', true), f') ∧
      JustReset u' := by
  obtain ⟨u', f', hrun, hinv, hm⟩ := guestWrite_run ops notify hz h (r := .status) (by decide) 0 f
  have hm : u'.dev.mmio = virtioMmioReset u.dev.mmio := by
    rw [hm, mirrorResult, if_pos hne]
    rfl
  refine ⟨u', f', hrun, ?_, ?_, hinv.shadow⟩
  · rw [hm]
    simp only [virtioMmioReset, virtioDeviceReset, List.map_map, Function.comp_def]
  · rw [← hinv.status, hm]
    rfl

/-- **Batches arrive whole.** From a reset on, a guest that sets up all the
queues of the device, each with a batch, leaves every queue as its batch says,
and each `QUEUE_READY` the device was handed on the way found its queue with
everything else in place. -/
theorem barrier_batching {z : UioSizes} (hz : z.devSize = 0x200) (ops : P → VirtioDeviceOps)
    (notify : Device P → UInt32 → FabricM (Device P × Bool))
    (u : UioState (FabricBinding P × ReadyLog)) (h : JustReset (unwatch (u, true)).1)
    (hlog : u.dev.2 = []) (bs : List Batch) (hcount : bs.length = u.dev.1.mmio.vdev.queues.length)
    (h32 : bs.length < UInt32.size) (f : UioFabric) :
    ∃ u' f', (batchFrom z (watchReady (bindingDevice ops notify)) 0 bs u).run UioFabric.answer f =
        (.ok (u', true), f') ∧
      u'.dev.1.mmio.vdev.queues = bs.map (·.config.queue) ∧
      u'.dev.2 = bs.zipIdx.map fun p => (UInt32.ofNat p.2, some { p.1.config.queue with ready := 0 }) := by
  have hinv : BatchInv [] bs.length u := by
    refine ⟨h.shadow, ?_, fun _ => congrArg VirtioMmio.queueSel h.device, u.dev.1.mmio.vdev.queueSize, ?_⟩
    · exact (congrArg (fun m => m.vdev.status) h.device).trans h.status.symm
    · have hq : u.dev.1.mmio.vdev.queues = u.dev.1.mmio.vdev.queues.map fun _ => resetQueue u.dev.1.mmio.vdev.queueSize :=
        congrArg (fun m => m.vdev.queues) h.device
      rw [hq, List.map_const', hcount]
      rfl
  obtain ⟨u', f', hrun, hq, hl⟩ := batchFrom_run hz ops notify bs hinv
    (by rw [List.length_nil, Nat.zero_add]; exact h32) f
  exact ⟨u', f', hrun, hq, by rw [hl, hlog]; rfl⟩

/-- A batch in ascending order. -/
def rxBatch : Batch where
  config := ⟨8, 0x100001000, 0x2000, 0x3000⟩
  writes := [(.queueNum, 8), (.queueDescLow, 0x1000), (.queueDescHigh, 1), (.queueAvailLow, 0x2000),
    (.queueAvailHigh, 0), (.queueUsedLow, 0x3000), (.queueUsedHigh, 0)]
  num_ne := by decide
  regs := by decide
  last := by decide

/-- A batch with its addresses first and a size that is written twice. -/
def txBatch : Batch where
  config := ⟨4, 0x5000, 0x6000, 0x7000⟩
  writes := [(.queueUsedHigh, 0), (.queueUsedLow, 0x7000), (.queueAvailHigh, 0), (.queueAvailLow, 0x6000),
    (.queueNum, 16), (.queueDescHigh, 0), (.queueDescLow, 0x5000), (.queueNum, 4)]
  num_ne := by decide
  regs := by decide
  last := by decide

/-- The console after a reset, with 7 left in every other word. -/
def leftovers : UioState (FabricBinding Unit × ReadyLog) where
  window off := if off = MmioReg.status.offset then 0 else 7
  shadow r := if r.offset = MmioReg.status.offset then 0 else 7
  dev := (condConnect, [])

def blankFabric : UioFabric := ⟨⟨fun _ => 0, fun _ => 0, false, []⟩, 0, 0, none⟩

theorem barrier_batching_console :
    ∃ u' f', (batchFrom pageSizes (watchReady (condFabricInitDevice 1)) 0
      [rxBatch, txBatch] leftovers).run UioFabric.answer blankFabric = (.ok (u', true), f') ∧
    u'.dev.1.mmio.vdev.queues = [⟨8, 1, 0x100001000, 0x2000, 0x3000, 0⟩, ⟨4, 1, 0x5000, 0x6000, 0x7000, 0⟩] ∧
    u'.dev.2 = [(0, some ⟨8, 0, 0x100001000, 0x2000, 0x3000, 0⟩), (1, some ⟨4, 0, 0x5000, 0x6000, 0x7000, 0⟩)] :=
  barrier_batching (z := pageSizes) rfl (fun _ => condOps) (condVirtioNotifyQueue 1) leftovers
    ⟨by decide, rfl, fun _ _ => rfl⟩ rfl [rxBatch, txBatch] rfl (by decide) blankFabric

end AcsVirt.L4
