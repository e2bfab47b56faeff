import AcsVirt.L4Device.Binding

/-!
# virtio-console daemon (`virtio-consoled.c`)

Queue 0 is RX (no host input exists, its buffers stay pending), queue 1 is
TX. A TX chain is walked to the descriptor without a NEXT flag, with no
bound on the number of descriptors: `txLoop` runs out of fuel on a cyclic
chain.
-/
namespace AcsVirt.L4

open L1 L2

def condQueueSize : UInt32 := 256
def condQueueCount : Nat := 2
def virtioIdConsole : UInt32 := 3

/-- The console driver has no state of its own besides the output backend.
mirrors src/drivers/virtio-consoled.h:27-32 -/
abbrev CondVirtioDevice := Device Unit

/-- mirrors src/drivers/virtio-consoled.c:111-116 -/
def condGetFeatures : UInt64 := (1 : UInt64) <<< 0 ||| (1 : UInt64) <<< 32 ||| (1 : UInt64) <<< 33

/-- mirrors src/drivers/virtio-consoled.c:126-140 -/
def condGetConfig (offset : UInt64) (_len : UInt32) : UInt64 :=
  if offset = 0 then 80
  else if offset = 2 then 25
  else if offset = 4 then 1
  else 0

def condOps : VirtioDeviceOps := ⟨condGetFeatures, condGetConfig⟩

/-- mirrors src/drivers/virtio-consoled.c:154-161 -/
def condVirtioInit : CondVirtioDevice :=
  ⟨virtioDeviceInit virtioIdConsole virtioVendorIdLocal condQueueCount condQueueSize, ()⟩

/-- mirrors src/fabrics/qemu_socket.c:469-486, src/fabrics/linux_uio.c:575-591 -/
def fabricDmaRead (gpa : UInt64) (len : UInt32) : FabricM (Option Bytes) := do
  if ← realloc len then dmaReadInto gpa len else return none

/-- The payload of one descriptor: device-readable and non-empty ones are
read and printed.
mirrors src/drivers/virtio-consoled.c:185-195 -/
def txDesc (desc : VirtioDesc) (total : UInt32) : FabricM (Option UInt32) :=
  if !desc.writable ∧ desc.len ≠ 0 then do
    match ← fabricDmaRead desc.addr desc.len with
    | none => return none
    | some data =>
      if ← consoleWrite data then return some (total + desc.len) else return none
  else return some total

/-- The descriptor walk; `none` when `process_tx_chain` returns false.
mirrors src/drivers/virtio-consoled.c:180-200 -/
def txLoop (q : VirtioQueue) : Nat → UInt16 → UInt32 → FabricM (Option UInt32)
  | 0, _, _ => .fault .fuel
  | fuel + 1, index, total => do
    match ← virtioReadDesc q index with
    | none => return none
    | some desc =>
      match ← txDesc desc total with
      | none => return none
      | some total =>
        if !desc.hasNext then return some total else txLoop q fuel desc.next total

/-- mirrors src/drivers/virtio-consoled.c:173-204 -/
def processTxChain (fuel : Nat) (d : CondVirtioDevice) (head : UInt16) :
    FabricM (CondVirtioDevice × Option UInt32) := do
  return (d, ← txLoop (d.queue 1) fuel head 0)

/-- mirrors src/drivers/virtio-consoled.c:97-103 -/
def condAckNotify (d : CondVirtioDevice) : FabricM Bool := ackNotify d

/-- mirrors src/drivers/virtio-consoled.c:214-279 -/
def condVirtioNotifyQueue (fuel : Nat) (d : CondVirtioDevice) (queueIndex : UInt32) :
    FabricM (CondVirtioDevice × Bool) :=
  if condQueueCount ≤ queueIndex.toNat then do return (d, ← condAckNotify d)
  else if (d.queue queueIndex.toNat).ready = 0 then do return (d, ← condAckNotify d)
  else if queueIndex = 0 then do return (d, ← condAckNotify d)
  else serviceQueue queueIndex.toNat (processTxChain fuel) fuel d

/-- mirrors src/drivers/virtio-consoled.c:293-298 -/
def condConnect : FabricBinding Unit := ⟨virtioMmioInit condVirtioInit.vdev, ()⟩

/-- mirrors src/drivers/virtio-consoled.c:308-312 -/
def condMmioRead (b : FabricBinding Unit) (offset : UInt64) (len : UInt32) : UInt64 :=
  virtioMmioRead condOps b.mmio offset len

/-- mirrors src/drivers/virtio-consoled.c:324-343 -/
def condMmioWrite (fuel : Nat) (b : FabricBinding Unit) (offset rawValue : UInt64) :
    FabricM (FabricBinding Unit × Bool) :=
  mmioWrite (condVirtioNotifyQueue fuel) b offset rawValue

/-- mirrors src/drivers/virtio-consoled.c:353-372 -/
def condFabricInitDevice (fuel : Nat) : FabricDevice (FabricBinding Unit) :=
  bindingDevice (fun _ => condOps) (condVirtioNotifyQueue fuel)

end AcsVirt.L4
