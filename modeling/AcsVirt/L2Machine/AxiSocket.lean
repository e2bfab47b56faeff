import AcsVirt.Core.Duplex
import AcsVirt.L1Encoding.AxiMsg

/-!
# QEMU's end of the AXI socket

`axi_read`, `axi_write` and the loop in which a write serves the daemon's
requests until its acknowledgement. Guest memory and the interrupt line are
QEMU's own; `valid` says which ranges `address_space_rw` accepts, and an empty
range it always does. The padding of a header is whatever the stack holds
(`pads`).

The loop of `axi_service_backend` is the party's `again`. Where the source
closes the socket the code here stops (`AxiFault.closed`); reconnecting at the
next access is left out, and so is an interrupt that is not wired.
-/
namespace AcsVirt.L2

open L1

inductive QemuCall where
  | padding
  | addressSpaceRead (addr : UInt64) (len : UInt32)
  | addressSpaceWrite (addr : UInt64) (data : Bytes)
  | setIrq (level : Bool)
  deriving DecidableEq, Repr

@[reducible] def QemuCall.Reply : QemuCall → Type
  | .padding => UInt32
  | .addressSpaceRead .. => Option Bytes
  | .addressSpaceWrite .. => Bool
  | .setIrq _ => Unit

@[reducible] def qemuSig : Sig := ⟨QemuCall, QemuCall.Reply⟩

inductive AxiFault where
  | closed
  deriving DecidableEq, Repr

abbrev AxiM := Prog (portSig UInt8 qemuSig) AxiFault

/-- An access has finished (a read with its value), or a write is in front of
the next request of the daemon. -/
inductive AxiCtl where
  | done (value : Option UInt64)
  | service
  deriving DecidableEq, Repr

/-- mirrors patches/qemu/0001-chiplets-qemu-support.patch:619-654 -/
def axiSendHeader (kind : AxiMsgKind) (addr : UInt64) (len : UInt32) : AxiM Unit := do
  let pad ← own (L := qemuSig) .padding
  sendAll ((AxiHeader.of kind addr len).bytes pad)

/-- The answer to a DMA read of `len` bytes, after guest memory was read.
mirrors patches/qemu/0001-chiplets-qemu-support.patch:704-712 -/
def axiReplyRead (offset : UInt64) (len : UInt32) : Option Bytes → AxiM AxiCtl
  | none => .fault .closed
  | some buf => do
    axiSendHeader .dmaReadReply offset len
    sendAll buf
    return .service

/-- The answer to a DMA write, after guest memory was written.
mirrors patches/qemu/0001-chiplets-qemu-support.patch:717-725 -/
def axiReplyWrite : Bool → AxiM AxiCtl
  | false => .fault .closed
  | true => do
    axiSendHeader .error 0 0
    return .service

/-- The switch in `axi_service_backend`.
mirrors patches/qemu/0001-chiplets-qemu-support.patch:680-731 -/
def axiDispatch (hdr : AxiHeader) : AxiM AxiCtl :=
  match AxiMsgKind.ofCode hdr.kind with
  | some .error => return .done none
  | some .irqAssert => do
    own (L := qemuSig) (.setIrq true)
    return .service
  | some .irqDeassert => do
    own (L := qemuSig) (.setIrq false)
    return .service
  | some .dmaRead =>
    if hdr.length = 0 then do
      axiSendHeader .dmaReadReply hdr.offset 0
      return .service
    else do
      axiReplyRead hdr.offset hdr.length (← own (L := qemuSig) (.addressSpaceRead hdr.offset hdr.length))
  | some .dmaWrite => do
    let buf ← recvAll hdr.length.toNat
    axiReplyWrite (← own (L := qemuSig) (.addressSpaceWrite hdr.offset buf))
  | _ => .fault .closed

/-- mirrors patches/qemu/0001-chiplets-qemu-support.patch:674-678 -/
def axiServiceBackend : AxiM AxiCtl := do axiDispatch (AxiHeader.load (← recvAll axiHeaderLen))

/-- mirrors patches/qemu/0001-chiplets-qemu-support.patch:751-767 -/
def axiReadReply (reply : AxiHeader) : AxiM AxiCtl :=
  if reply.kind ≠ AxiMsgKind.mmioReadReply.code ∨ 8 < reply.length then .fault .closed
  else do return .done (some (payloadValue (← recvAll reply.length.toNat)))

/-- mirrors patches/qemu/0001-chiplets-qemu-support.patch:736-768 -/
def axiRead (addr : UInt64) (size : UInt32) : AxiM AxiCtl := do
  axiSendHeader .mmioRead addr size
  axiReadReply (AxiHeader.load (← recvAll axiHeaderLen))

/-- mirrors patches/qemu/0001-chiplets-qemu-support.patch:770-785 -/
def axiWrite (addr value : UInt64) (size : UInt32) : AxiM AxiCtl := do
  axiSendHeader .mmioWrite addr size
  sendAll (payload value size.toNat)
  return .service

/-- A guest access to the device's region. -/
inductive GuestAccess where
  | read (addr : UInt64) (size : UInt32)
  | write (addr value : UInt64) (size : UInt32)
  deriving DecidableEq, Repr

def GuestAccess.addr : GuestAccess → UInt64
  | .read addr _ => addr
  | .write addr _ _ => addr

def GuestAccess.size : GuestAccess → UInt32
  | .read _ size => size
  | .write _ _ size => size

def axiAccess : GuestAccess → AxiM AxiCtl
  | .read addr size => axiRead addr size
  | .write addr value size => axiWrite addr value size

structure Guest where
  mem : Mem
  irq : Bool

structure QemuState where
  guest : Guest
  pads : Nat → UInt32

def rwOk (valid : UInt64 → Nat → Bool) (addr : UInt64) (len : Nat) : Bool :=
  len = 0 || valid addr len

def QemuState.answer (valid : UInt64 → Nat → Bool) (s : QemuState) :
    (c : QemuCall) → c.Reply × QemuState
  | .padding => (s.pads 0, { s with pads := fun i => s.pads (i + 1) })
  | .addressSpaceRead addr len =>
    (if rwOk valid addr len.toNat then some (readBytes s.guest.mem addr.toNat len.toNat) else none, s)
  | .addressSpaceWrite addr data =>
    if rwOk valid addr data.length then
      (true, { s with guest := { s.guest with mem := writeBytes s.guest.mem addr.toNat data } })
    else (false, s)
  | .setIrq level => ((), { s with guest := { s.guest with irq := level } })

abbrev qemuParty (valid : UInt64 → Nat → Bool) : Party UInt8 where
  Own := qemuSig
  Fault := AxiFault
  State := QemuState
  Result := AxiCtl
  answer := QemuState.answer valid
  again
    | .done _ => none
    | .service => some axiServiceBackend

end AcsVirt.L2
