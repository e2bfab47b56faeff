import AcsVirt.L4Device.Binding

/-!
# virtio-blk daemon (`virtio-blkd.c`)

The block backend's bounds checks, the payload buffer, the descriptor-chain
walk and the notify handler. `directRead` is the process-wide
`CHIPLETS_BLKD_DIRECT_READ` switch. Profiling counters and log output are
left out: nothing reads them.

The payload buffer is kept with its contents: its length is the allocated
size, next to the recorded `io_buf_size`. Bytes that `realloc` adds are
indeterminate in C; they are zero here, and every byte is overwritten before
it is read.
-/
namespace AcsVirt.L4

open L1 L2

def blkdSectorSize : UInt64 := 512
def blkdQueueSize : UInt32 := 256
def blkdMaxSegSize : UInt32 := 256 * 1024
def blkdMaxSegments : UInt32 := 128
def virtioIdBlock : UInt32 := 2
def int64Max : UInt64 := 0x7fffffffffffffff

/-- `VIRTIO_BLK_T_*` of linux/virtio_blk.h that the daemon serves. -/
inductive ReqType where
  | tIn | tOut | tFlush | other
  deriving DecidableEq, Repr

def ReqType.ofWord (t : UInt32) : ReqType :=
  if t = 0 then .tIn else if t = 1 then .tOut else if t = 4 then .tFlush else .other

/-- `VIRTIO_BLK_S_*`. -/
inductive BlkStatus where
  | ok | ioerr | unsupp
  deriving DecidableEq, Repr

def BlkStatus.code : BlkStatus → UInt8
  | .ok => 0
  | .ioerr => 1
  | .unsupp => 2

/-- mirrors src/drivers/virtio-blkd.h:25-29 -/
structure BlkdBlockBackend where
  imageLen : UInt64
  readonly : Bool
  deriving DecidableEq, Repr

/-- mirrors src/drivers/virtio-blkd.h:32-40 -/
structure BlkdState where
  backend : BlkdBlockBackend
  capacitySectors : UInt64
  ioBuf : Bytes
  ioBufSize : UInt32
  deriving DecidableEq, Repr

abbrev BlkdVirtioDevice := Device BlkdState

/-- The bounds test of `blkd_block_read` and `blkd_block_write`.
mirrors src/drivers/virtio-blkd.c:218-219,236-237 -/
def BlkdBlockBackend.outside (b : BlkdBlockBackend) (offset : UInt64) (len : UInt32) : Bool :=
  b.imageLen < offset || b.imageLen - offset < len.toUInt64 || int64Max < offset

/-- The test, over unbounded integers. -/
theorem outside_false {b : BlkdBlockBackend} {offset : UInt64} {len : UInt32} :
    b.outside offset len = false ↔ offset.toNat + len.toNat ≤ b.imageLen.toNat ∧ offset.toNat < 2 ^ 63 := by
  have hmax : int64Max.toNat = 2 ^ 63 - 1 := rfl
  simp only [BlkdBlockBackend.outside, Bool.or_eq_false_iff, decide_eq_false_iff_not, UInt64.not_lt,
    UInt64.le_iff_toNat_le, UInt32.toNat_toUInt64]
  constructor
  · intro h
    obtain ⟨⟨h1, h2⟩, h3⟩ := h
    rw [UInt64.toNat_sub_of_le _ _ (UInt64.le_iff_toNat_le.2 h1)] at h2
    omega
  · intro h
    have h1 : offset.toNat ≤ b.imageLen.toNat := by omega
    refine ⟨⟨h1, ?_⟩, by omega⟩
    rw [UInt64.toNat_sub_of_le _ _ (UInt64.le_iff_toNat_le.2 h1)]
    omega

/-- mirrors src/drivers/virtio-blkd.c:216-223 -/
def blkdBlockRead (b : BlkdBlockBackend) (offset : UInt64) (len : UInt32) :
    FabricM (Option Bytes) :=
  if b.outside offset len then return none else pread offset len

/-- `blkd_block_read` into a direct mapping of guest memory.
mirrors src/drivers/virtio-blkd.c:216-223,412-415 -/
def blkdBlockReadMapped (b : BlkdBlockBackend) (gpa offset : UInt64) (len : UInt32) :
    FabricM Bool :=
  if b.outside offset len then return false else preadMapped gpa offset len

/-- mirrors src/drivers/virtio-blkd.c:234-241 -/
def blkdBlockWrite (b : BlkdBlockBackend) (offset : UInt64) (data : Bytes) (len : UInt32) :
    FabricM Bool :=
  if b.readonly || b.outside offset len then return false else pwrite offset data

/-- mirrors src/drivers/virtio-blkd.c:259-267 -/
def blkdGetFeatures : UInt64 :=
  (1 : UInt64) <<< 1 ||| (1 : UInt64) <<< 2 ||| (1 : UInt64) <<< 6 ||| (1 : UInt64) <<< 9 |||
    (1 : UInt64) <<< 32 ||| (1 : UInt64) <<< 33

/-- mirrors src/drivers/virtio-blkd.c:276-294 -/
def blkdGetConfig (s : BlkdState) (offset : UInt64) (_len : UInt32) : UInt64 :=
  if offset = 0 then s.capacitySectors.toUInt32.toUInt64
  else if offset = 4 then (s.capacitySectors >>> 32).toUInt32.toUInt64
  else if offset = 8 then blkdMaxSegSize.toUInt64
  else if offset = 12 then blkdMaxSegments.toUInt64
  else if offset = 20 then blkdSectorSize
  else 0

def blkdOps (s : BlkdState) : VirtioDeviceOps := ⟨blkdGetFeatures, blkdGetConfig s⟩

/-- `io_buf` and `io_buf_size` survive from the previous connection.
mirrors src/drivers/virtio-blkd.c:308-320 -/
def blkdVirtioInit (old : BlkdState) (backend : BlkdBlockBackend) : BlkdVirtioDevice :=
  { vdev := virtioDeviceInit virtioIdBlock virtioVendorIdLocal 1 blkdQueueSize
    priv := { backend, capacitySectors := backend.imageLen / blkdSectorSize,
              ioBuf := old.ioBuf, ioBufSize := old.ioBufSize } }

/-- mirrors src/drivers/virtio-blkd.c:323-336 -/
def ensureIoBuf (s : BlkdState) (len : UInt32) : FabricM (Option BlkdState) :=
  if len ≤ s.ioBufSize then return some s
  else do
    if ← realloc len then
      return some { s with ioBuf := (s.ioBuf ++ List.replicate (len.toNat - s.ioBuf.length) 0).take len.toNat
                           ioBufSize := len }
    else return none

/-- Bytes stored at the start of the payload buffer. -/
def BlkdState.fill (s : BlkdState) (data : Bytes) : BlkdState :=
  { s with ioBuf := data ++ s.ioBuf.drop data.length }

/-- What was just stored is all that is taken. -/
theorem BlkdState.fill_take (s : BlkdState) {data : Bytes} {n : Nat} (h : data.length = n) :
    (s.fill data).ioBuf.take n = data := by
  subst h
  simp [BlkdState.fill]

/-- `direct_read && fabric_dma_map(...)`
mirrors src/drivers/virtio-blkd.c:408-409 -/
def tryMap (directRead : Bool) (desc : VirtioDesc) : FabricM Bool :=
  if directRead then dmaMap desc.addr desc.len else return false

/-- One data descriptor of an IN request, the status being OK so far.
mirrors src/drivers/virtio-blkd.c:405-444 -/
def readData (directRead : Bool) (s : BlkdState) (desc : VirtioDesc) (offset : UInt64) :
    FabricM (BlkdState × BlkStatus) := do
  if ← tryMap directRead desc then
    if ← blkdBlockReadMapped s.backend desc.addr offset desc.len then return (s, .ok)
    else return (s, .ioerr)
  else
    match ← ensureIoBuf s desc.len with
    | none => return (s, .ioerr)
    | some s =>
      match ← blkdBlockRead s.backend offset desc.len with
      | none => return (s, .ioerr)
      | some data =>
        let s := s.fill data
        if ← dmaWrite desc.addr (s.ioBuf.take desc.len.toNat) then return (s, .ok)
        else return (s, .ioerr)

/-- One data descriptor of an OUT request, the status being OK so far; `none`
when `process_chain` returns false.
mirrors src/drivers/virtio-blkd.c:450-468 -/
def writeData (s : BlkdState) (desc : VirtioDesc) (offset : UInt64) :
    FabricM (BlkdState × Option BlkStatus) := do
  match ← ensureIoBuf s desc.len with
  | none => return (s, none)
  | some s =>
    match ← dmaReadInto desc.addr desc.len with
    | none => return (s, none)
    | some data =>
      let s := s.fill data
      if ← blkdBlockWrite s.backend offset (s.ioBuf.take desc.len.toNat) desc.len then
        return (s, some .ok)
      else return (s, some .ioerr)

/-- The body of the chain loop for a data descriptor.
mirrors src/drivers/virtio-blkd.c:401-472 -/
def dataStep (directRead : Bool) (req : ReqType) (s : BlkdState) (desc : VirtioDesc)
    (offset : UInt64) (status : BlkStatus) : FabricM (BlkdState × Option BlkStatus) :=
  match req with
  | .tIn =>
    if !desc.writable then return (s, some .ioerr)
    else if status = .ok then do
      let (s, st) ← readData directRead s desc offset
      return (s, some st)
    else return (s, some status)
  | .tOut =>
    if desc.writable then return (s, some .ioerr)
    else if status = .ok then writeData s desc offset
    else return (s, some status)
  | _ => return (s, some status)

/-- `data_len` after a data descriptor (a 32-bit accumulator). -/
def addLen (req : ReqType) (dataLen len : UInt32) : UInt32 :=
  match req with
  | .tIn | .tOut => dataLen + len
  | _ => dataLen

theorem addLen_toNat_mod {req : ReqType} (hreq : req = .tIn ∨ req = .tOut) (dataLen len : UInt32) :
    (addLen req dataLen len).toNat = (dataLen.toNat + len.toNat) % 2 ^ 32 := by
  rcases hreq with rfl | rfl
  · exact UInt32.toNat_add _ _
  · exact UInt32.toNat_add _ _

/-- Bytes of data the descriptors describe. -/
def total : List VirtioDesc → Nat
  | [] => 0
  | d :: ds => d.len.toNat + total ds

@[simp] theorem total_cons (d : VirtioDesc) (ds : List VirtioDesc) :
    total (d :: ds) = d.len.toNat + total ds := rfl

@[simp] theorem total_append (ds es : List VirtioDesc) : total (ds ++ es) = total ds + total es := by
  induction ds with
  | nil => exact (Nat.zero_add _).symm
  | cons d ds ih => rw [List.cons_append, total_cons, total_cons, ih, Nat.add_assoc]

/-- The descriptor loop; `none` when `process_chain` returns false.
mirrors src/drivers/virtio-blkd.c:385-475 -/
def chainLoop (directRead : Bool) (q : VirtioQueue) (req : ReqType) (offset : UInt64) :
    Nat → BlkdState → UInt16 → UInt32 → BlkStatus → UInt32 →
      FabricM (BlkdState × Option (VirtioDesc × BlkStatus × UInt32))
  | 0, _, _, _, _, _ => .fault .fuel
  | fuel + 1, s, index, chainSeen, status, dataLen => do
    if q.num < chainSeen + 1 then return (s, none)
    match ← virtioReadDesc q index with
    | none => return (s, none)
    | some desc =>
      if !desc.hasNext then return (s, some (desc, status, dataLen))
      match ← dataStep directRead req s desc (offset + dataLen.toUInt64) status with
      | (s, none) => return (s, none)
      | (s, some status) =>
        chainLoop directRead q req offset fuel s desc.next (chainSeen + 1) status
          (addLen req dataLen desc.len)

/-- Byte offset of a request and the status it starts with.
mirrors src/drivers/virtio-blkd.c:372-382 -/
def startOffset (sector : UInt64) : UInt64 :=
  if 0xffffffffffffffff / blkdSectorSize < sector then 0 else sector * blkdSectorSize

def startStatus (req : ReqType) (sector : UInt64) : BlkStatus :=
  if req = .other then .unsupp
  else if 0xffffffffffffffff / blkdSectorSize < sector then .ioerr
  else .ok

/-- The overflow test of the code. -/
theorem sector_fits {sector : UInt64} :
    ¬(0xffffffffffffffff / blkdSectorSize < sector) ↔ sector.toNat * 512 < 2 ^ 64 := by
  have hlim : (0xffffffffffffffff / blkdSectorSize : UInt64).toNat = 2 ^ 55 - 1 := by decide
  rw [UInt64.lt_iff_toNat_lt, hlim]
  omega

theorem startStatus_eq_ok {req : ReqType} {sector : UInt64} :
    startStatus req sector = .ok ↔ req ≠ .other ∧ sector.toNat * 512 < 2 ^ 64 := by
  rw [← sector_fits]
  unfold startStatus
  by_cases hr : req = .other
  · simp [hr]
  · rw [if_neg hr]
    by_cases hs : 0xffffffffffffffff / blkdSectorSize < sector
    · simp [hs]
    · simp [hr, hs]

theorem startOffset_toNat {sector : UInt64} (h : sector.toNat * 512 < 2 ^ 64) :
    (startOffset sector).toNat = sector.toNat * 512 := by
  unfold startOffset
  rw [if_neg (sector_fits.2 h), UInt64.toNat_mul, show blkdSectorSize.toNat = 512 from rfl,
    Nat.mod_eq_of_lt h]

/-- A request that starts with OK starts at its sector. -/
theorem startOffset_of_ok {req : ReqType} {sector : UInt64} (h : startStatus req sector = .ok) :
    (startOffset sector).toNat = sector.toNat * 512 := startOffset_toNat (startStatus_eq_ok.1 h).2

/-- The flush of a FLUSH request; true when nothing failed.
mirrors src/drivers/virtio-blkd.c:477-479 -/
def blkdBlockFlush (req : ReqType) : FabricM Bool :=
  if req = .tFlush then fsync else return true

/-- The flush, the used length and the status byte.
mirrors src/drivers/virtio-blkd.c:477-490 -/
def finishChain (req : ReqType) (s : BlkdState) (statusDesc : VirtioDesc) (status : BlkStatus)
    (dataLen : UInt32) : FabricM (BlkdState × Option UInt32) := do
  let flushed ← blkdBlockFlush req
  let status := if flushed then status else .ioerr
  let usedLen := if req = .tIn then dataLen + 1 else 1
  if ← dmaWrite statusDesc.addr [status.code] then return (s, some usedLen)
  else return (s, none)

/-- `none` when the source returns false, else `*used_len`.
mirrors src/drivers/virtio-blkd.c:347-491 -/
def processChain (directRead : Bool) (fuel : Nat) (d : BlkdVirtioDevice) (head : UInt16) :
    FabricM (BlkdVirtioDevice × Option UInt32) := do
  let q := d.queue 0
  match ← virtioReadDesc q head with
  | none => return (d, none)
  | some headerDesc =>
    if !headerDesc.hasNext then return (d, none)
    match ← dmaReadInto headerDesc.addr 16 with
    | none => return (d, none)
    | some header =>
      let req := ReqType.ofWord (virtioLoadLe32 header)
      let sector := virtioLoadLe64 (header.drop 8)
      match ← chainLoop directRead q req (startOffset sector) fuel d.priv headerDesc.next 0
          (startStatus req sector) 0 with
      | (s, none) => return ({ d with priv := s }, none)
      | (s, some (statusDesc, status, dataLen)) =>
        let (s, r) ← finishChain req s statusDesc status dataLen
        return ({ d with priv := s }, r)

/-- mirrors src/drivers/virtio-blkd.c:81-88 -/
def blkdAckNotify (d : BlkdVirtioDevice) : FabricM Bool := ackNotify d

/-- mirrors src/drivers/virtio-blkd.c:501-587 -/
def blkdVirtioNotifyQueue (directRead : Bool) (fuel : Nat) (d : BlkdVirtioDevice)
    (queue : UInt32) : FabricM (BlkdVirtioDevice × Bool) :=
  if queue ≠ 0 ∨ (d.queue 0).ready = 0 then do return (d, ← blkdAckNotify d)
  else serviceQueue 0 (processChain directRead fuel) fuel d

/-- mirrors src/drivers/virtio-blkd.c:601-606 -/
def blkdConnect (old : BlkdState) (backend : BlkdBlockBackend) : FabricBinding BlkdState :=
  ⟨virtioMmioInit (blkdVirtioInit old backend).vdev, (blkdVirtioInit old backend).priv⟩

/-- mirrors src/drivers/virtio-blkd.c:616-620 -/
def blkdMmioRead (b : FabricBinding BlkdState) (offset : UInt64) (len : UInt32) : UInt64 :=
  virtioMmioRead (blkdOps b.priv) b.mmio offset len

/-- mirrors src/drivers/virtio-blkd.c:632-651 -/
def blkdMmioWrite (directRead : Bool) (fuel : Nat) (b : FabricBinding BlkdState)
    (offset rawValue : UInt64) : FabricM (FabricBinding BlkdState × Bool) :=
  mmioWrite (blkdVirtioNotifyQueue directRead fuel) b offset rawValue

/-- mirrors src/drivers/virtio-blkd.c:661-680 -/
def blkdFabricInitDevice (directRead : Bool) (fuel : Nat) :
    FabricDevice (FabricBinding BlkdState) :=
  bindingDevice blkdOps (blkdVirtioNotifyQueue directRead fuel)

end AcsVirt.L4
