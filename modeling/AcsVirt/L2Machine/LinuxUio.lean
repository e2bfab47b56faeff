import AcsVirt.L2Machine.Ram
import AcsVirt.L2Machine.VirtioMmio

/-!
# UIO fabric (`fabrics/linux_uio.c`)

In UIO mode guest writes are not sent to the daemon: the frontend stores them
in a window both sides share, and the daemon, woken by an interrupt, compares
the window with its own shadow of it. `Window` is the shared file as 32-bit
words by byte offset; every access to it here is an aligned word. The shadow
is kept by register, as the source's array is by its list of offsets.

`scanRegister` is one turn of the scan, in the parts the source has: look at
the word (`changed`), note that it was seen (`consume`), call the device, tidy
up (`settle`).
-/
namespace AcsVirt.L2

open MmioReg

abbrev Window := UInt64 → UInt32

def Window.set (w : Window) (off : UInt64) (value : UInt32) : Window :=
  fun o => if o = off then value else w o

def uioNotifyIdle : UInt32 := 0xffffffff
def uioIrqControlOffset : UInt64 := 0x200

/-- Sizes of the device's aperture and of the mapped window; the fabric does
not start on a smaller window.
mirrors src/fabrics/linux_uio.c:518-524 -/
structure UioSizes where
  devSize : UInt64
  mmioSize : UInt64
  covers : devSize ≤ mmioSize

/-- The aperture of both daemons on a window of one page. -/
def pageSizes : UioSizes := ⟨0x200, 0x1000, by decide⟩

/-- A word both inside the aperture and inside the window. -/
def UioSizes.fits (z : UioSizes) (off : UInt64) : Bool :=
  off + 4 ≤ z.devSize && off + 4 ≤ z.mmioSize

/-- mirrors src/fabrics/linux_uio.c:475-491 -/
def writeOffsets : List MmioReg :=
  [deviceFeaturesSel, driverFeatures, driverFeaturesSel, queueSel, queueNum, queueDescLow,
    queueDescHigh, queueAvailLow, queueAvailHigh, queueUsedLow, queueUsedHigh, queueReady,
    interruptAck, queueNotify, status]

/-- mirrors src/fabrics/linux_uio.c:362-367 -/
def queueStateOffsets : List MmioReg :=
  [queueNum, queueReady, queueDescLow, queueDescHigh, queueAvailLow, queueAvailHigh, queueUsedLow,
    queueUsedHigh]

/-- mirrors src/fabrics/linux_uio.c:307-313 -/
def readRegisters : List MmioReg :=
  [magicValue, version, deviceId, vendorId, deviceFeatures, queueNumMax, interruptStatus, status,
    configGeneration]

/-- The daemon's side: the window, its shadow and the device. -/
structure UioState (D : Type) where
  window : Window
  shadow : MmioReg → UInt32
  dev : D

variable {D : Type}

def UioState.setShadow (u : UioState D) (r : MmioReg) (value : UInt32) : UioState D :=
  { u with shadow := fun s => if s = r then value else u.shadow s }

def UioState.setWord (u : UioState D) (r : MmioReg) (value : UInt32) : UioState D :=
  { u with window := u.window.set r.offset value }

/-- The word of a register against its shadow: the value to be dispatched.
mirrors src/fabrics/linux_uio.c:373-380 -/
def changed (z : UioSizes) (r : MmioReg) (u : UioState D) : Option UInt32 :=
  if !z.fits r.offset then none
  else
    let value := u.window r.offset
    if value = u.shadow r then none else some value

/-- What is stored before the device is called with `value`.
mirrors src/fabrics/linux_uio.c:382-384,391 -/
def consume (r : MmioReg) (value : UInt32) (u : UioState D) : UioState D :=
  if r = .queueNotify then (u.setWord r uioNotifyIdle).setShadow r uioNotifyIdle
  else u.setShadow r value

/-- mirrors src/fabrics/linux_uio.c:370-384,391 -/
def examine (z : UioSizes) (r : MmioReg) (u : UioState D) : UioState D × Option UInt32 :=
  match changed z r u with
  | none => (u, none)
  | some value => (consume r value u, some value)

/-- Shadow of the queue registers after the selector changed.
mirrors src/fabrics/linux_uio.c:401-411 -/
def syncQueueState (z : UioSizes) (u : UioState D) : UioState D :=
  { u with shadow := fun s =>
      if s ∈ queueStateOffsets ∧ z.fits s.offset then u.window s.offset else u.shadow s }

/-- mirrors src/fabrics/linux_uio.c:396-415 -/
def settle (z : UioSizes) (r : MmioReg) (u : UioState D) : UioState D :=
  if r = .queueSel then syncQueueState z u
  else if r = .interruptAck then (u.setWord r 0).setShadow r 0
  else u

/-- mirrors src/fabrics/linux_uio.c:369-416 -/
def scanRegister (z : UioSizes) (dev : FabricDevice D) (r : MmioReg) (u : UioState D) :
    FabricM (UioState D × Bool) :=
  match examine z r u with
  | (u, none) => return (u, true)
  | (u, some value) => do
    let (d, ok) ← dev.write u.dev r.offset value.toUInt64 4
    if ok then return (settle z r { u with dev := d }, true)
    else return ({ u with dev := d }, false)

/-- mirrors src/fabrics/linux_uio.c:359-418 -/
def pollWriteRegisters (z : UioSizes) (dev : FabricDevice D) :
    List MmioReg → UioState D → FabricM (UioState D × Bool)
  | [], u => return (u, true)
  | r :: rs, u => do
    let (u, ok) ← scanRegister z dev r u
    if ok then pollWriteRegisters z dev rs u else return (u, false)

/-- Offsets of the config words that fit.
mirrors src/fabrics/linux_uio.c:324-325 -/
def configOffsets (z : UioSizes) : List UInt64 :=
  (List.range (((min z.devSize z.mmioSize).toNat - virtioMmioConfig.toNat) / 4)).map fun i =>
    virtioMmioConfig + 4 * UInt64.ofNat i

/-- mirrors src/fabrics/linux_uio.c:306-329 -/
def refreshReadRegisters (z : UioSizes) (dev : FabricDevice D) (u : UioState D) : UioState D :=
  let publish (w : Window) (off : UInt64) : Window :=
    if z.fits off then w.set off (dev.read u.dev off 4).toUInt32 else w
  { u with window := (readRegisters.map offset ++ configOffsets z).foldl publish u.window }

/-- The state the service loop starts in, on a window the frontend has left as `w`.
mirrors src/fabrics/linux_uio.c:529-542 -/
def uioStart (z : UioSizes) (dev : FabricDevice D) (d : D) (w : Window) : UioState D :=
  let u : UioState D := ⟨w, fun r => if r.offset + 4 ≤ z.devSize then w r.offset else 0, d⟩
  refreshReadRegisters z dev ((u.setWord .queueNotify uioNotifyIdle).setShadow .queueNotify uioNotifyIdle)

/-- A wake of the service loop, up to the deferred interrupt.
mirrors src/fabrics/linux_uio.c:551-558 -/
def uioPass (z : UioSizes) (dev : FabricDevice D) (u : UioState D) : FabricM (UioState D × Bool) :=
  do
  let (u, ok) ← pollWriteRegisters z dev writeOffsets u
  if ok then return (refreshReadRegisters z dev u, true) else return (u, false)

/-- The window, the level still pending, and whether the daemon goes on.
mirrors src/fabrics/linux_uio.c:331-343 -/
def flushPendingIrqLevel (mmioSize irqControlOffset : UInt64) (pending : Option Bool) (w : Window) :
    Window × Option Bool × Bool :=
  match pending with
  | none => (w, none, true)
  | some level =>
    if mmioSize < irqControlOffset + 4 then (w, pending, false)
    else (w.set irqControlOffset (if level then 1 else 0), none, true)

/-! ## The fabric calls -/

/-- The DMA resource (guest memory seen through the window `[dmaBase,
dmaBase + dmaSize)`), the host's files, and the deferred interrupt level. -/
structure UioFabric where
  ram : Ram
  dmaBase : UInt64
  dmaSize : UInt64
  pendingIrqLevel : Option Bool

/-- mirrors src/fabrics/linux_uio.c:176-182 -/
def UioFabric.dmaOffset (f : UioFabric) (gpa : UInt64) (len : UInt32) : Bool :=
  f.dmaBase ≤ gpa && gpa - f.dmaBase ≤ f.dmaSize && len.toUInt64 ≤ f.dmaSize - (gpa - f.dmaBase)

/-- mirrors src/fabrics/linux_uio.c:603-714; the other calls are the host's. -/
def UioFabric.answer (f : UioFabric) : (c : Call) → c.Reply × UioFabric
  | .dmaReadInto gpa len =>
    if len = 0 then (some [], f)
    else if f.dmaOffset gpa len then (some (readBytes f.ram.mem gpa.toNat len.toNat), f)
    else (none, f)
  | .dmaMap gpa len => (len = 0 || f.dmaOffset gpa len, f)
  | .dmaWrite gpa data =>
    if data.length = 0 then (true, f)
    else if f.dmaOffset gpa (UInt32.ofNat data.length) then
      (true, { f with ram := { f.ram with mem := writeBytes f.ram.mem gpa.toNat data } })
    else (false, f)
  | .raiseIrq => (true, { f with pendingIrqLevel := some true })
  | .lowerIrq => (true, { f with pendingIrqLevel := some false })
  | .realloc _ => (true, f)
  | .pread offset len => (some (readBytes f.ram.image offset.toNat len.toNat), f)
  | .preadMapped gpa offset len =>
    (true, { f with ram := { f.ram with
      mem := writeBytes f.ram.mem gpa.toNat (readBytes f.ram.image offset.toNat len.toNat) } })
  | .pwrite offset data =>
    (true, { f with ram := { f.ram with image := writeBytes f.ram.image offset.toNat data } })
  | .fsync => (true, f)
  | .consoleWrite data => (true, { f with ram := { f.ram with output := f.ram.output ++ data } })

/-- A DMA read that succeeds fills its buffer. -/
theorem UioFabric.dmaReadInto_length {f : UioFabric} {gpa : UInt64} {len : UInt32} {bs : Bytes}
    (h : (f.answer (.dmaReadInto gpa len)).1 = some bs) : bs.length = len.toNat := by
  simp only [UioFabric.answer] at h
  split at h
  next hzero =>
    cases h
    rw [hzero]
    rfl
  · split at h
    · cases h
      exact readBytes_length ..
    · cases h

/-- The frontend's store of a 32-bit guest write, which also clears the queue
registers when the selector is written.
mirrors patches/qemu/0001-chiplets-qemu-support.patch:808-828 -/
def axiUioWrite (size : UInt64) (w : Window) (addr : UInt64) (value : UInt32) : Window :=
  if size < addr + 4 then w
  else
    let w := w.set addr value
    if addr = MmioReg.queueSel.offset then
      queueStateOffsets.foldl
        (fun w r => if r.offset + 4 ≤ size then w.set r.offset 0 else w) w
    else w

/-! ## Words and registers -/

theorem Window.set_self (w : Window) (off : UInt64) (v : UInt32) : w.set off v off = v := if_pos rfl

theorem Window.set_other {w : Window} {off o : UInt64} (h : o ≠ off) (v : UInt32) :
    w.set off v o = w o := if_neg h

theorem offset_ne {r s : MmioReg} (h : r ≠ s) : r.offset ≠ s.offset := fun e => h (offset_inj e)

theorem fits_offset {z : UioSizes} (hz : z.devSize = 0x200) (r : MmioReg) :
    r.offset + 4 ≤ z.mmioSize ∧ z.fits r.offset = true := by
  have h1 : r.offset + 4 ≤ 0x200 := by cases r <;> decide
  have h2 : r.offset + 4 ≤ z.mmioSize := UInt64.le_trans (hz ▸ h1) z.covers
  refine ⟨h2, ?_⟩
  simp only [UioSizes.fits, hz, h1, h2, decide_true, Bool.and_self]

theorem changed_eq {D : Type} {z : UioSizes} (hz : z.devSize = 0x200) (r : MmioReg) (u : UioState D) :
    changed z r u = if u.window r.offset = u.shadow r then none else some (u.window r.offset) := by
  simp only [changed, (fits_offset hz r).2, Bool.not_true, Bool.false_eq_true, if_false]

/-- What the frontend stores. -/
theorem axiUioWrite_word {z : UioSizes} (hz : z.devSize = 0x200) (w : Window) (r s : MmioReg)
    (v : UInt32) :
    axiUioWrite z.mmioSize w r.offset v s.offset =
      if r = .queueSel ∧ s ∈ queueStateOffsets then 0 else if s = r then v else w s.offset := by
  have hfit : ∀ q : MmioReg, q.offset + 4 ≤ z.mmioSize := fun q => (fits_offset hz q).1
  have hset : ∀ (w : Window) (q : MmioReg) (v : UInt32),
      w.set q.offset v s.offset = if s = q then v else w s.offset := by
    intro w q v
    by_cases h : s = q
    · rw [h, if_pos rfl, Window.set_self]
    · rw [if_neg h, Window.set_other (offset_ne h)]
  unfold axiUioWrite
  rw [if_neg (UInt64.not_lt.2 (hfit r))]
  by_cases hr : r = .queueSel
  · simp only [hr, queueStateOffsets, List.foldl_cons, List.foldl_nil, hfit, if_true, hset, true_and,
      List.mem_cons, List.not_mem_nil, or_false]
    cases s <;> simp
  · have hoff : r.offset ≠ MmioReg.queueSel.offset := offset_ne hr
    simp only [hoff, if_false, hset, hr, false_and]

/-! ## Publishing the read registers -/

theorem foldl_publish (g : UInt64 → UInt32) (p : UInt64 → Bool) (offs : List UInt64) (w : Window)
    (o : UInt64) :
    (offs.foldl (fun w off => if p off then w.set off (g off) else w) w) o =
      if o ∈ offs ∧ p o then g o else w o := by
  induction offs generalizing w with
  | nil => simp
  | cons off offs ih =>
    rw [List.foldl_cons, ih]
    by_cases ho : o = off
    · subst ho
      by_cases hp : p o
      · simp [hp, Window.set_self]
      · simp [hp]
    · by_cases hp : p off
      · simp [ho, hp, Window.set_other ho]
      · simp [ho, hp]

theorem offset_not_config {z : UioSizes} (hz : z.devSize = 0x200) (r : MmioReg) :
    r.offset ∉ configOffsets z := by
  intro h
  obtain ⟨i, hi, he⟩ := List.mem_map.1 h
  have hmin : (min z.devSize z.mmioSize).toNat ≤ 0x200 := by
    show (if z.devSize ≤ z.mmioSize then z.devSize else z.mmioSize).toNat ≤ 0x200
    rw [if_pos z.covers, hz]
    decide
  have hlt : i < 64 := by
    have := List.mem_range.1 hi
    have hc : virtioMmioConfig.toNat = 0x100 := rfl
    omega
  have hr : r.offset.toNat < 0x100 := by cases r <;> decide
  have hn := congrArg UInt64.toNat he
  rw [UInt64.toNat_add, UInt64.toNat_mul, UInt64.toNat_ofNat', show virtioMmioConfig.toNat = 0x100 from rfl,
    show (4 : UInt64).toNat = 4 from rfl] at hn
  omega

theorem refresh_word {z : UioSizes} (hz : z.devSize = 0x200) (dev : FabricDevice D) (u : UioState D)
    (r : MmioReg) :
    (refreshReadRegisters z dev u).window r.offset =
      if r ∈ readRegisters then (dev.read u.dev r.offset 4).toUInt32 else u.window r.offset := by
  have hmem : r.offset ∈ readRegisters.map offset ++ configOffsets z ↔ r ∈ readRegisters := by
    rw [List.mem_append, or_iff_left (offset_not_config hz r)]
    constructor
    · intro h
      obtain ⟨s, hs, he⟩ := List.mem_map.1 h
      rwa [← offset_inj he]
    · exact List.mem_map_of_mem
  refine (foldl_publish (fun off => (dev.read u.dev off 4).toUInt32) z.fits _ u.window r.offset).trans ?_
  simp only [hmem, (fits_offset hz r).2, and_true]

end AcsVirt.L2
