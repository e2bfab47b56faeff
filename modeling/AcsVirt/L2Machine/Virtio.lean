import AcsVirt.L1Encoding.Endian
import AcsVirt.L2Machine.Fabric

/-!
# Virtio core (`virtio.c`)

Device and queue state, reset, and the three split-ring operations. The
queue array belongs to the driver; its length is `queue_count`. No driver of
this repository installs the optional reset hook, so `virtioDeviceReset`
ends with the generic state.

The ring operations take the slot modulo `(uint16_t)queue->num`, a C
division: with `num` a multiple of 65536 it is a division by zero, modelled
as the fault `Fault.divByZero` at the point where the code divides.
-/
namespace AcsVirt.L2

open L1

def vringDescFNext : UInt16 := 1
def vringDescFWrite : UInt16 := 2
def virtioInterruptVring : UInt32 := 1
def virtioVendorIdLocal : UInt32 := 0x43484950

/-- mirrors src/virtio.h:13-20 -/
structure VirtioQueue where
  num : UInt32
  ready : UInt32
  desc : UInt64
  avail : UInt64
  used : UInt64
  lastAvailIdx : UInt16
  deriving DecidableEq, Repr, Inhabited

/-- mirrors src/virtio.h:23-28 -/
structure VirtioDesc where
  addr : UInt64
  len : UInt32
  flags : UInt16
  next : UInt16
  deriving DecidableEq, Repr, Inhabited

def VirtioDesc.hasNext (d : VirtioDesc) : Bool := d.flags &&& vringDescFNext != 0

def VirtioDesc.writable (d : VirtioDesc) : Bool := d.flags &&& vringDescFWrite != 0

/-- mirrors src/virtio.h:53-67 -/
structure VirtioDevice where
  deviceId : UInt32
  vendorId : UInt32
  queueSize : UInt32
  queues : List VirtioQueue
  driverFeatures : UInt64
  status : UInt32
  interruptStatus : UInt32
  configGeneration : UInt32
  deriving DecidableEq, Repr, Inhabited

/-- A queue after reset. -/
def resetQueue (queueSize : UInt32) : VirtioQueue :=
  { num := queueSize, ready := 0, desc := 0, avail := 0, used := 0, lastAvailIdx := 0 }

/-- mirrors src/virtio.c:12-28 -/
def virtioDeviceReset (dev : VirtioDevice) : VirtioDevice :=
  { dev with
    driverFeatures := 0
    queues := dev.queues.map fun _ => resetQueue dev.queueSize
    status := 0
    interruptStatus := 0
    configGeneration := 0 }

/-- mirrors src/virtio.c:42-54 -/
def virtioDeviceInit (deviceId vendorId : UInt32) (queueCount : Nat) (queueSize : UInt32) :
    VirtioDevice :=
  virtioDeviceReset
    { deviceId, vendorId, queueSize, queues := List.replicate queueCount default,
      driverFeatures := 0, status := 0, interruptStatus := 0, configGeneration := 0 }

/-- Field layout of a 16-byte descriptor.
mirrors src/virtio.c:77-80 -/
def decodeDesc (data : Bytes) : VirtioDesc :=
  { addr := virtioLoadLe64 data
    len := virtioLoadLe32 (data.drop 8)
    flags := virtioLoadLe16 (data.drop 12)
    next := virtioLoadLe16 (data.drop 14) }

/-- Guest address of descriptor `index`. -/
def descAddr (q : VirtioQueue) (index : UInt16) : UInt64 := q.desc + index.toUInt64 * 16

/-- mirrors src/virtio.c:66-82 -/
def virtioReadDesc (q : VirtioQueue) (index : UInt16) : FabricM (Option VirtioDesc) := do
  match ← dmaReadInto (descAddr q index) 16 with
  | none => return none
  | some data => return some (decodeDesc data)

/-- mirrors src/fabrics/qemu_socket.c:546-554, src/fabrics/linux_uio.c:658-666 -/
def fabricDmaReadU16 (gpa : UInt64) : FabricM (Option UInt16) := do
  match ← dmaReadInto gpa 2 with
  | none => return none
  | some data => return some (virtioLoadLe16 data)

/-- `used` element address for a used index.
mirrors src/virtio.c:107 -/
def usedElem (q : VirtioQueue) (usedIdx : UInt16) : UInt64 :=
  q.used + 4 + (usedIdx % q.num.toUInt16).toUInt64 * 8

/-- `avail` ring entry address for the backend cursor.
mirrors src/virtio.c:144-146 -/
def availElem (q : VirtioQueue) : UInt64 :=
  q.avail + (4 + (q.lastAvailIdx % q.num.toUInt16).toUInt64 * 2)

/-- mirrors src/virtio.c:95-118 -/
def virtioAddUsed (q : VirtioQueue) (head : UInt16) (len : UInt32) : FabricM Bool := do
  match ← fabricDmaReadU16 (q.used + 2) with
  | none => return false
  | some usedIdx =>
    if q.num.toUInt16 = 0 then .fault .divByZero
    else
      let elem := usedElem q usedIdx
      if !(← dmaWrite elem (virtioStoreLe32 head.toUInt32)) then return false
      if !(← dmaWrite (elem + 4) (virtioStoreLe32 len)) then return false
      dmaWrite (q.used + 2) (virtioStoreLe16 (usedIdx + 1))

/-- `none`: DMA failure; `some none`: nothing available; `some (some head)`.
mirrors src/virtio.c:130-152 -/
def virtioNextAvail (q : VirtioQueue) : FabricM (Option (Option UInt16)) := do
  match ← fabricDmaReadU16 (q.avail + 2) with
  | none => return none
  | some availIdx =>
    if q.lastAvailIdx = availIdx then return some none
    else if q.num.toUInt16 = 0 then .fault .divByZero
    else
      match ← fabricDmaReadU16 (availElem q) with
      | none => return none
      | some head => return some (some head)

end AcsVirt.L2
