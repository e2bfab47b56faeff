import AcsVirt.L2Machine.Virtio

/-!
# virtio-mmio transport (`virtio-mmio.c`)

`MmioReg` names the registers of `linux/virtio_mmio.h` the file switches on,
`MmioReg.offset` is their offset, and `MmioReg.ofOffset?` decodes an access
(`ofOffset?_eq_some`: exactly the inverse). `VirtioMmio` is the transport's
selectors together with the device they select in.
-/
namespace AcsVirt.L2

open L1

inductive MmioReg where
  | magicValue | version | deviceId | vendorId
  | deviceFeatures | deviceFeaturesSel | driverFeatures | driverFeaturesSel
  | queueSel | queueNumMax | queueNum | queueReady | queueNotify
  | interruptStatus | interruptAck | status
  | queueDescLow | queueDescHigh | queueAvailLow | queueAvailHigh | queueUsedLow | queueUsedHigh
  | configGeneration
  deriving DecidableEq, Repr

namespace MmioReg

/-- Offsets of linux/virtio_mmio.h. -/
def offset : MmioReg → UInt64
  | magicValue => 0x000
  | version => 0x004
  | deviceId => 0x008
  | vendorId => 0x00c
  | deviceFeatures => 0x010
  | deviceFeaturesSel => 0x014
  | driverFeatures => 0x020
  | driverFeaturesSel => 0x024
  | queueSel => 0x030
  | queueNumMax => 0x034
  | queueNum => 0x038
  | queueReady => 0x044
  | queueNotify => 0x050
  | interruptStatus => 0x060
  | interruptAck => 0x064
  | status => 0x070
  | queueDescLow => 0x080
  | queueDescHigh => 0x084
  | queueAvailLow => 0x090
  | queueAvailHigh => 0x094
  | queueUsedLow => 0x0a0
  | queueUsedHigh => 0x0a4
  | configGeneration => 0x0fc

def all : List MmioReg :=
  [magicValue, version, deviceId, vendorId, deviceFeatures, deviceFeaturesSel, driverFeatures,
    driverFeaturesSel, queueSel, queueNumMax, queueNum, queueReady, queueNotify, interruptStatus,
    interruptAck, status, queueDescLow, queueDescHigh, queueAvailLow, queueAvailHigh, queueUsedLow,
    queueUsedHigh, configGeneration]

/-- The register at an offset, if there is one. -/
def ofOffset? (o : UInt64) : Option MmioReg := all.find? fun r => r.offset == o

theorem mem_all (r : MmioReg) : r ∈ all := by cases r <;> decide

theorem offset_inj {r s : MmioReg} (h : r.offset = s.offset) : r = s := by
  cases r <;> cases s <;> first | rfl | exact absurd h (by decide)

theorem ofOffset?_eq_some {o : UInt64} {r : MmioReg} : ofOffset? o = some r ↔ r.offset = o := by
  constructor
  · intro h
    simpa using List.find?_some h
  · intro he
    subst he
    cases h : ofOffset? r.offset with
    | none => simpa using List.find?_eq_none.1 h r (mem_all r)
    | some s =>
      have hs : s.offset = r.offset := by simpa using List.find?_some h
      rw [offset_inj hs]

end MmioReg

/-- `VIRTIO_MMIO_CONFIG`: start of the device config space. -/
def virtioMmioConfig : UInt64 := 0x100

/-- The device hooks the transport reads through.
mirrors src/virtio.h:45-51 -/
structure VirtioDeviceOps where
  getFeatures : UInt64
  getConfig : UInt64 → UInt32 → UInt64

/-- mirrors src/virtio-mmio.h:14-23 -/
structure VirtioMmio where
  vdev : VirtioDevice
  deviceFeaturesSel : UInt32
  driverFeaturesSel : UInt32
  queueSel : UInt32
  deriving DecidableEq, Repr, Inhabited

/-- mirrors src/virtio-mmio.c:32-37 -/
def virtioMmioReset (m : VirtioMmio) : VirtioMmio :=
  { vdev := virtioDeviceReset m.vdev, deviceFeaturesSel := 0, driverFeaturesSel := 0, queueSel := 0 }

/-- mirrors src/virtio-mmio.c:45-49 -/
def virtioMmioInit (vdev : VirtioDevice) : VirtioMmio :=
  virtioMmioReset { vdev, deviceFeaturesSel := 0, driverFeaturesSel := 0, queueSel := 0 }

/-- mirrors src/virtio-mmio.c:58-64,73-79 -/
def virtioMmioQueue (m : VirtioMmio) (queueIndex : UInt32) : Option VirtioQueue :=
  m.vdev.queues[queueIndex.toNat]?

/-- mirrors src/virtio-mmio.c:14-25 -/
def maskRead (value : UInt64) (len : UInt32) : UInt64 :=
  if len = 1 then value &&& 0xff
  else if len = 2 then value &&& 0xffff
  else if len = 4 then value &&& 0xffffffff
  else value

theorem maskRead_word (x : UInt32) : (maskRead x.toUInt64 4).toUInt32 = x := by
  show (x.toUInt64 &&& 0xffffffff).toUInt32 = x
  apply UInt32.toNat_inj.mp
  rw [UInt64.toNat_toUInt32, UInt64.toNat_and, UInt32.toNat_toUInt64]
  have h := Nat.and_two_pow_sub_one_eq_mod x.toNat 32
  have hx := x.toNat_lt
  rw [show (0xffffffff : UInt64).toNat = 2 ^ 32 - 1 from rfl, h]
  omega

/-- Register part of the read switch.
mirrors src/virtio-mmio.c:96-147 -/
def readReg (ops : VirtioDeviceOps) (m : VirtioMmio) : MmioReg → Option UInt64
  | .magicValue => some 0x74726976
  | .version => some 2
  | .deviceId => some m.vdev.deviceId.toUInt64
  | .vendorId => some m.vdev.vendorId.toUInt64
  | .deviceFeatures =>
    some (if m.deviceFeaturesSel = 0 then ops.getFeatures.toUInt32.toUInt64
      else (ops.getFeatures >>> 32).toUInt32.toUInt64)
  | .deviceFeaturesSel => some m.deviceFeaturesSel.toUInt64
  | .driverFeatures =>
    some (if m.driverFeaturesSel = 0 then m.vdev.driverFeatures.toUInt32.toUInt64
      else (m.vdev.driverFeatures >>> 32).toUInt32.toUInt64)
  | .driverFeaturesSel => some m.driverFeaturesSel.toUInt64
  | .queueSel => some m.queueSel.toUInt64
  | .queueNumMax =>
    some (if m.queueSel.toNat < m.vdev.queues.length then m.vdev.queueSize.toUInt64 else 0)
  | .queueNum => some ((virtioMmioQueue m m.queueSel).elim 0 VirtioQueue.num).toUInt64
  | .queueReady => some ((virtioMmioQueue m m.queueSel).elim 0 VirtioQueue.ready).toUInt64
  | .interruptStatus => some m.vdev.interruptStatus.toUInt64
  | .status => some m.vdev.status.toUInt64
  | .configGeneration => some 0
  | _ => none

/-- mirrors src/virtio-mmio.c:89-158 -/
def virtioMmioRead (ops : VirtioDeviceOps) (m : VirtioMmio) (offset : UInt64) (len : UInt32) :
    UInt64 :=
  maskRead
    (match (MmioReg.ofOffset? offset).bind (readReg ops m) with
     | some v => v
     | none =>
       if virtioMmioConfig ≤ offset then ops.getConfig (offset - virtioMmioConfig) len else 0)
    len

/-- `(x & ~0xffffffff) | value`. -/
def setLow (x : UInt64) (value : UInt32) : UInt64 :=
  (x &&& ~~~(0xffffffff : UInt64)) ||| value.toUInt64

/-- `(x & 0xffffffff) | ((uint64_t)value << 32)`. -/
def setHigh (x : UInt64) (value : UInt32) : UInt64 :=
  (x &&& (0xffffffff : UInt64)) ||| value.toUInt64 <<< (32 : UInt64)

/-- Update the selected queue; nothing when the selector is out of range. -/
def onQueue (m : VirtioMmio) (f : VirtioQueue → VirtioQueue) : VirtioMmio :=
  { m with vdev := { m.vdev with queues := m.vdev.queues.modify m.queueSel.toNat f } }

/-- mirrors src/virtio-mmio.c:173-247 -/
def writeReg (m : VirtioMmio) (value : UInt32) : MmioReg → VirtioMmio
  | .deviceFeaturesSel => { m with deviceFeaturesSel := value }
  | .driverFeatures =>
    if m.driverFeaturesSel = 0 then
      { m with vdev := { m.vdev with driverFeatures := setLow m.vdev.driverFeatures value } }
    else if m.driverFeaturesSel = 1 then
      { m with vdev := { m.vdev with driverFeatures := setHigh m.vdev.driverFeatures value } }
    else m
  | .driverFeaturesSel => { m with driverFeaturesSel := value }
  | .queueSel => { m with queueSel := value }
  | .queueNum => onQueue m fun q => { q with num := value }
  | .queueReady => onQueue m fun q => { q with ready := value }
  | .queueDescLow => onQueue m fun q => { q with desc := setLow q.desc value }
  | .queueDescHigh => onQueue m fun q => { q with desc := setHigh q.desc value }
  | .queueAvailLow => onQueue m fun q => { q with avail := setLow q.avail value }
  | .queueAvailHigh => onQueue m fun q => { q with avail := setHigh q.avail value }
  | .queueUsedLow => onQueue m fun q => { q with used := setLow q.used value }
  | .queueUsedHigh => onQueue m fun q => { q with used := setHigh q.used value }
  | .interruptAck =>
    { m with vdev := { m.vdev with interruptStatus := m.vdev.interruptStatus &&& ~~~value } }
  | .status =>
    if value = 0 then virtioMmioReset m else { m with vdev := { m.vdev with status := value } }
  | _ => m

/-- mirrors src/virtio-mmio.c:167-248 -/
def virtioMmioWrite (m : VirtioMmio) (offset rawValue : UInt64) : VirtioMmio :=
  match MmioReg.ofOffset? offset with
  | some r => writeReg m rawValue.toUInt32 r
  | none => m

theorem virtioMmioWrite_notify (m : VirtioMmio) (raw : UInt64) :
    virtioMmioWrite m MmioReg.queueNotify.offset raw = m := rfl

end AcsVirt.L2
