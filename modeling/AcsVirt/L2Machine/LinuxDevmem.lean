import AcsVirt.L2Machine.LinuxUio

/-!
# devmem fabric (`fabrics/linux_devmem.c`)

The daemon polls the register aperture in physical memory. Its side is that of
the UIO fabric (`UioState`: the aperture's words, the shadow, the device), but
the pass is not the same: another order of the registers, no second look at the
queue registers after a selection, and the notify word is put back after the
device was called. Interrupts are written to a register of their own, at once.
-/
namespace AcsVirt.L2

open MmioReg

def devmemNotifyIdle : UInt32 := 0xffffffff

/-- mirrors src/fabrics/linux_devmem.c:371-387 -/
def devmemWriteOffsets : List MmioReg :=
  [deviceFeaturesSel, driverFeatures, driverFeaturesSel, queueSel, queueNum, queueReady, queueDescLow,
    queueDescHigh, queueAvailLow, queueAvailHigh, queueUsedLow, queueUsedHigh, queueNotify,
    interruptAck, status]

variable {D : Type}

/-- What is stored after the device was called.
mirrors src/fabrics/linux_devmem.c:328-334 -/
def devmemSettle (r : MmioReg) (u : UioState D) : UioState D :=
  if r = .queueNotify then (u.setWord r devmemNotifyIdle).setShadow r devmemNotifyIdle
  else if r = .interruptAck then (u.setWord r 0).setShadow r 0
  else u

/-- mirrors src/fabrics/linux_devmem.c:311-334 -/
def devmemScanRegister (devSize : UInt64) (dev : FabricDevice D) (r : MmioReg) (u : UioState D) :
    FabricM (UioState D × Bool) :=
  if devSize < r.offset + 4 then return (u, true)
  else
    let value := u.window r.offset
    if value = u.shadow r then return (u, true)
    else do
      let u := u.setShadow r value
      let (d, ok) ← dev.write u.dev r.offset value.toUInt64 4
      if ok then return (devmemSettle r { u with dev := d }, true)
      else return ({ u with dev := d }, false)

/-- mirrors src/fabrics/linux_devmem.c:308-337 -/
def devmemPollWriteRegisters (devSize : UInt64) (dev : FabricDevice D) :
    List MmioReg → UioState D → FabricM (UioState D × Bool)
  | [], u => return (u, true)
  | r :: rs, u => do
    let (u, ok) ← devmemScanRegister devSize dev r u
    if ok then devmemPollWriteRegisters devSize dev rs u else return (u, false)

/-! ## Interrupts -/

/-- The IRQ control register's values, when there is one.
mirrors src/fabrics/linux_devmem.c:25-28 -/
structure DevmemIrq where
  irqAssert : UInt32
  irqDeassert : UInt32
  deriving DecidableEq, Repr

/-- What a call may answer and the values it may store in the IRQ register; a
mapping may fail at any time. Raising lowers first.
mirrors src/fabrics/linux_devmem.c:580-623 -/
def devmemIrqStores (irq : Option DevmemIrq) : (c : Call) → c.Reply → List UInt32 → Prop
  | .lowerIrq, r, stores =>
    match irq with
    | none => r = true ∧ stores = []
    | some i => (r = true ∧ stores = [i.irqDeassert]) ∨ (r = false ∧ stores = [])
  | .raiseIrq, r, stores =>
    match irq with
    | none => r = true ∧ stores = []
    | some i => (r = true ∧ stores = [i.irqDeassert, i.irqAssert]) ∨
        (r = false ∧ (stores = [] ∨ stores = [i.irqDeassert]))
  | .dmaMap _ _, r, stores => r = false ∧ stores = []
  | .dmaReadInto .., _, stores => stores = []
  | .dmaWrite .., _, stores => stores = []
  | .realloc _, _, stores => stores = []
  | .pread .., _, stores => stores = []
  | .preadMapped .., _, stores => stores = []
  | .pwrite .., _, stores => stores = []
  | .fsync, _, stores => stores = []
  | .consoleWrite _, _, stores => stores = []

end AcsVirt.L2
