import AcsVirt.Core.Duplex
import AcsVirt.L1Encoding.AxiMsg
import AcsVirt.L2Machine.Fabric

/-!
# Socket fabric (`fabrics/qemu_socket.c`)

The daemon's end of the socket. Code here sends and receives single bytes;
`io_all` is a block of them, so how the kernel cuts blocks into `read` and
`write` calls does not show. `socketCall` is what a fabric call of the device
code becomes; the calls that are not the fabric's stay calls of the daemon
(`own`).

The service loop is the party's `again`: `serveConnection` is one turn of it,
and returning `(d, true)` is being back at its top. A turn that returns `false`
ends the connection. `connect`, which resets the device before the first
turn, and the log on stderr are left out.
-/
namespace AcsVirt.L2

open L1

abbrev DaemonM := Prog (portSig UInt8 fabricSig) Fault

/-- mirrors src/fabrics/qemu_socket.c:140-152 -/
def readHeader : DaemonM AxiHeader := do return AxiHeader.load (← recvAll axiHeaderLen)

/-- mirrors src/fabrics/qemu_socket.c:161-169 -/
def writeHeader (h : AxiHeader) : DaemonM Unit := sendAll (h.bytes 0)

/-- The reply keeps the request's header fields.
mirrors src/fabrics/qemu_socket.c:180-194 -/
def writeReadReply (request : AxiHeader) (value : UInt64) : DaemonM Unit := do
  let len : UInt32 := if request.length < 8 then request.length else 8
  writeHeader { request with kind := AxiMsgKind.mmioReadReply.code, length := len }
  sendAll (payload value len.toNat)

/-- mirrors src/fabrics/qemu_socket.c:204-214 -/
def readValue (len : UInt32) : DaemonM (Option UInt64) := do
  if 8 < len then return none
  return some (payloadValue (← recvAll len.toNat))

variable {D : Type}

/-- mirrors src/fabrics/qemu_socket.c:223-228 -/
def accessInRange (dev : FabricDevice D) (h : AxiHeader) : Bool :=
  h.windowId = 0 && h.length ≤ 8 && dev.addr ≤ h.offset && h.offset ≤ dev.addr + dev.size &&
    h.length.toUInt64 ≤ dev.addr + dev.size - h.offset

/-- mirrors src/fabrics/qemu_socket.c:237-240 -/
def deviceOffset (dev : FabricDevice D) (busAddr : UInt64) : UInt64 := busAddr - dev.addr

/-! ## Fabric calls -/

/-- mirrors src/fabrics/qemu_socket.c:497-519 -/
def fabricDmaReadInto (gpa : UInt64) (len : UInt32) : DaemonM (Option Bytes) := do
  writeHeader (.of .dmaRead gpa len)
  let reply ← readHeader
  if reply.kind ≠ AxiMsgKind.dmaReadReply.code ∨ reply.length ≠ len then return none
  return some (← recvAll len.toNat)

/-- mirrors src/fabrics/qemu_socket.c:565-586 -/
def fabricDmaWrite (gpa : UInt64) (data : Bytes) : DaemonM Bool := do
  writeHeader (.of .dmaWrite gpa (UInt32.ofNat data.length))
  sendAll data
  let reply ← readHeader
  return reply.kind = AxiMsgKind.error.code

/-- mirrors src/fabrics/qemu_socket.c:612-622 -/
def fabricLowerIrq : DaemonM Bool := do
  writeHeader (.of .irqDeassert 0 0)
  return true

/-- mirrors src/fabrics/qemu_socket.c:594-604 -/
def fabricRaiseIrq : DaemonM Bool := do
  if ← fabricLowerIrq then
    writeHeader (.of .irqAssert 0 0)
    return true
  else return false

def socketCall : (c : Call) → DaemonM c.Reply
  | .dmaReadInto gpa len => fabricDmaReadInto gpa len
  -- mirrors src/fabrics/qemu_socket.c:522-529
  | .dmaMap _ _ => return false
  | .dmaWrite gpa data => fabricDmaWrite gpa data
  | .raiseIrq => fabricRaiseIrq
  | .lowerIrq => fabricLowerIrq
  | .realloc len => own (L := fabricSig) (.realloc len)
  | .pread offset len => own (L := fabricSig) (.pread offset len)
  | .preadMapped gpa offset len => own (L := fabricSig) (.preadMapped gpa offset len)
  | .pwrite offset data => own (L := fabricSig) (.pwrite offset data)
  | .fsync => own (L := fabricSig) .fsync
  | .consoleWrite data => own (L := fabricSig) (.consoleWrite data)

/-! ## The service loop -/

/-- mirrors src/fabrics/qemu_socket.c:327-351 -/
def serveWrite (dev : FabricDevice D) (d : D) (h : AxiHeader) : DaemonM (D × Bool) := do
  match ← readValue h.length with
  | none => return (d, false)
  | some value =>
    let (d, ok) ← (dev.write d (deviceOffset dev h.offset) value h.length).interp socketCall
    if ok then
      writeHeader (.of .error 0 0)
      return (d, true)
    else return (d, false)

/-- mirrors src/fabrics/qemu_socket.c:308-356 -/
def serveRequest (dev : FabricDevice D) (d : D) (h : AxiHeader) : DaemonM (D × Bool) :=
  if accessInRange dev h then
    match AxiMsgKind.ofCode h.kind with
    | some .mmioRead => do
      writeReadReply h (dev.read d (deviceOffset dev h.offset) h.length)
      return (d, true)
    | some .mmioWrite => serveWrite dev d h
    | _ => return (d, false)
  else return (d, false)

/-- mirrors src/fabrics/qemu_socket.c:303-357 -/
def serveConnection (dev : FabricDevice D) (d : D) : DaemonM (D × Bool) := do
  serveRequest dev d (← readHeader)

/-- The daemon; `host` answers what the device code asks of its host. -/
abbrev daemonParty {H : Type} (dev : FabricDevice D) (host : H → (c : Call) → c.Reply × H) :
    Party UInt8 where
  Own := fabricSig
  Fault := Fault
  State := H
  Result := D × Bool
  answer := host
  again r := if r.2 then some (serveConnection dev r.1) else none

end AcsVirt.L2
