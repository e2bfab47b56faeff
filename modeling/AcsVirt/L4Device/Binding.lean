import AcsVirt.L2Machine.VirtioMmio

/-!
# What the two daemons share

`virtio-blkd.c` and `virtio-consoled.c` are one program with two device
models: the same service loop around a chain handler, the same
acknowledgement of a notify without work, the same MMIO binding. The shared
bodies are here, over the driver's private state `P`; the driver modules
instantiate them under the source's names.

The loops of the source are unbounded (`for (;;)`), so the model has fuel;
running out is the fault `Fault.fuel`, never a result.
-/
namespace AcsVirt.L4

open L1 L2

/-- A device: generic virtio state and the driver's own state.
mirrors src/drivers/virtio-blkd.h:32-40, src/drivers/virtio-consoled.h:27-32 -/
structure Device (P : Type) where
  vdev : VirtioDevice
  priv : P
  deriving DecidableEq, Repr

variable {P : Type}

def Device.queue (d : Device P) (i : Nat) : VirtioQueue := d.vdev.queues.getD i default

/-- `queue->last_avail_idx++` -/
def Device.advance (d : Device P) (i : Nat) : Device P :=
  { d with vdev := { d.vdev with
      queues := d.vdev.queues.modify i fun q => { q with lastAvailIdx := q.lastAvailIdx + 1 } } }

/-- `interrupt_status |= VIRTIO_INTERRUPT_VRING` -/
def Device.setVring (d : Device P) : Device P :=
  { d with vdev := { d.vdev with interruptStatus := d.vdev.interruptStatus ||| virtioInterruptVring } }

def VringPending (v : VirtioDevice) : Prop := v.interruptStatus &&& virtioInterruptVring ≠ 0

instance (v : VirtioDevice) : Decidable (VringPending v) := inferInstanceAs (Decidable (_ ≠ _))

/-- mirrors src/drivers/virtio-blkd.c:81-88, src/drivers/virtio-consoled.c:97-103 -/
def ackNotify (d : Device P) : FabricM Bool :=
  if VringPending d.vdev then raiseIrq else lowerIrq

/-- The first look at the available ring and the `retries` further ones.
mirrors src/drivers/virtio-blkd.c:520-535, src/drivers/virtio-consoled.c:238-253 -/
def pollAvail (q : VirtioQueue) : Nat → FabricM (Option (Option UInt16))
  | 0 => virtioNextAvail q
  | retries + 1 => do
    match ← virtioNextAvail q with
    | some none => pollAvail q retries
    | r => return r

/-- The loop over available chains of queue `i`; `none` when the handler
returns false, else whether any chain was completed.
mirrors src/drivers/virtio-blkd.c:514-561, src/drivers/virtio-consoled.c:232-267 -/
def serviceLoop (i : Nat) (process : Device P → UInt16 → FabricM (Device P × Option UInt32)) :
    Nat → Device P → Bool → FabricM (Device P × Option Bool)
  | 0, _, _ => .fault .fuel
  | fuel + 1, d, usedAny => do
    match ← pollAvail (d.queue i) 20 with
    | none => return (d, none)
    | some none => return (d, some usedAny)
    | some (some head) =>
      match ← process d head with
      | (d, none) => return (d, none)
      | (d, some usedLen) =>
        if ← virtioAddUsed (d.queue i) head usedLen then
          serviceLoop i process fuel (d.advance i) true
        else return (d, none)

/-- The loop and the interrupt that ends it.
mirrors src/drivers/virtio-blkd.c:514-587, src/drivers/virtio-consoled.c:232-279 -/
def serviceQueue (i : Nat) (process : Device P → UInt16 → FabricM (Device P × Option UInt32))
    (fuel : Nat) (d : Device P) : FabricM (Device P × Bool) := do
  match ← serviceLoop i process fuel d false with
  | (d, none) => return (d, false)
  | (d, some true) => return (d.setVring, ← raiseIrq)
  | (d, some false) => return (d, ← ackNotify d)

/-- A connection: transport state (which holds the device's generic state)
and the driver's own state.
mirrors src/drivers/virtio-blkd.c:590-594, src/drivers/virtio-consoled.c:282-286 -/
structure FabricBinding (P : Type) where
  mmio : VirtioMmio
  priv : P
  deriving DecidableEq, Repr

def FabricBinding.dev (b : FabricBinding P) : Device P := ⟨b.mmio.vdev, b.priv⟩

def FabricBinding.withDev (b : FabricBinding P) (d : Device P) : FabricBinding P :=
  ⟨{ b.mmio with vdev := d.vdev }, d.priv⟩

/-- The three effects the binding adds to the register write: the interrupt
line goes down on a reset and on an acknowledgement, and a notify runs the
device. `raw_value == 0` is tested on the full 64-bit value.
mirrors src/drivers/virtio-blkd.c:632-651, src/drivers/virtio-consoled.c:324-343 -/
def mmioWrite (notify : Device P → UInt32 → FabricM (Device P × Bool)) (b : FabricBinding P)
    (offset rawValue : UInt64) : FabricM (FabricBinding P × Bool) :=
  let b := { b with mmio := virtioMmioWrite b.mmio offset rawValue }
  if offset = MmioReg.status.offset then
    if rawValue = 0 then do return (b, ← lowerIrq)
    else return (b, true)
  else if offset = MmioReg.interruptAck.offset then do return (b, ← lowerIrq)
  else if offset = MmioReg.queueNotify.offset then do
    let (d, ok) ← notify b.dev rawValue.toUInt32
    return (b.withDev d, ok)
  else return (b, true)

/-- What a driver registers with the fabric.
mirrors src/drivers/virtio-blkd.c:661-680, src/drivers/virtio-consoled.c:353-372 -/
def bindingDevice (ops : P → VirtioDeviceOps)
    (notify : Device P → UInt32 → FabricM (Device P × Bool)) : FabricDevice (FabricBinding P) where
  addr := 0
  size := 0x200
  read b offset len := virtioMmioRead (ops b.priv) b.mmio offset len
  write b offset value _ := mmioWrite notify b offset value

end AcsVirt.L4
