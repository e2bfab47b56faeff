import AcsVirt.Core.Line
import AcsVirt.L2Machine.AxiSocket
import AcsVirt.L2Machine.QemuSocket

/-!
# The AXI socket when a peer hangs up

The two ends of the socket with the results of their `io_all` calls. In QEMU
every failed transfer ends in `axi_close` and in the return of the access, a
read with 0: that is the fault of the code here, with the value returned. The
daemon's fabric calls fail instead, and it is the device code that goes on.

`axi_connect` (patches/qemu/0001-chiplets-qemu-support.patch:576-617) and
`accept` (src/fabrics/qemu_socket.c:402-418) are the `request` and the
accepting server of `Core.Line`; an access that cannot connect is lost like one
whose transfer fails. QEMU ignores `SIGPIPE`, the daemon does not: a write to a
socket that QEMU has closed ends it.

Where no transfer fails this is the code of `AxiSocket` and `QemuSocket`
(`axiAccess_live`, `axiServiceBackend_live`, `serveConnection_live`).
-/
namespace AcsVirt.L2

open L1

/-- A fault is `axi_close`, and the value the access returns. -/
abbrev AxiLineM := Prog (lineSig UInt8 qemuSig) (Option UInt64)

abbrev DaemonLineM := Prog (lineSig UInt8 fabricSig) Fault

namespace Line

/-! ## QEMU -/

/-- `axi_send_header` on an open socket, and `axi_send_reply` with the close
that follows its failure.
mirrors patches/qemu/0001-chiplets-qemu-support.patch:619-654 -/
def axiSendHeader (lost : Option UInt64) (kind : AxiMsgKind) (addr : UInt64) (len : UInt32) :
    AxiLineM Unit := do
  let pad ← Line.own (L := qemuSig) .padding
  if ← Line.sendAll ((AxiHeader.of kind addr len).bytes pad) then return ()
  else .fault lost

/-- What a short read ends in, and what follows a full one. -/
def received (lost : Option UInt64) (k : Bytes → AxiLineM AxiCtl) : Option Bytes → AxiLineM AxiCtl
  | none => .fault lost
  | some buf => k buf

@[simp] theorem received_some (lost : Option UInt64) (k : Bytes → AxiLineM AxiCtl) (buf : Bytes) :
    received lost k (some buf) = k buf := rfl

/-- mirrors patches/qemu/0001-chiplets-qemu-support.patch:704-712 -/
def axiReplyRead (offset : UInt64) (len : UInt32) : Option Bytes → AxiLineM AxiCtl
  | none => .fault none
  | some buf => do
    axiSendHeader none .dmaReadReply offset len
    if ← Line.sendAll buf then return .service else .fault none

/-- mirrors patches/qemu/0001-chiplets-qemu-support.patch:717-725 -/
def axiReplyWrite : Bool → AxiLineM AxiCtl
  | false => .fault none
  | true => do
    axiSendHeader none .error 0 0
    return .service

/-- mirrors patches/qemu/0001-chiplets-qemu-support.patch:680-731 -/
def axiDispatch (hdr : AxiHeader) : AxiLineM AxiCtl :=
  match AxiMsgKind.ofCode hdr.kind with
  | some .error => return .done none
  | some .irqAssert => do
    Line.own (L := qemuSig) (.setIrq true)
    return .service
  | some .irqDeassert => do
    Line.own (L := qemuSig) (.setIrq false)
    return .service
  | some .dmaRead =>
    if hdr.length = 0 then do
      axiSendHeader none .dmaReadReply hdr.offset 0
      return .service
    else do
      axiReplyRead hdr.offset hdr.length
        (← Line.own (L := qemuSig) (.addressSpaceRead hdr.offset hdr.length))
  | some .dmaWrite =>
    Line.recvAll hdr.length.toNat >>= received none fun buf => do
      axiReplyWrite (← Line.own (L := qemuSig) (.addressSpaceWrite hdr.offset buf))
  | _ => .fault none

/-- mirrors patches/qemu/0001-chiplets-qemu-support.patch:674-678 -/
def axiServiceBackend : AxiLineM AxiCtl :=
  Line.recvAll axiHeaderLen >>= received none fun buf => axiDispatch (AxiHeader.load buf)

/-- mirrors patches/qemu/0001-chiplets-qemu-support.patch:751-767 -/
def axiReadReply (reply : AxiHeader) : AxiLineM AxiCtl :=
  if reply.kind ≠ AxiMsgKind.mmioReadReply.code ∨ 8 < reply.length then .fault (some 0)
  else Line.recvAll reply.length.toNat >>= received (some 0) fun bytes =>
    return .done (some (payloadValue bytes))

/-- mirrors patches/qemu/0001-chiplets-qemu-support.patch:736-768 -/
def axiRead (addr : UInt64) (size : UInt32) : AxiLineM AxiCtl := do
  axiSendHeader (some 0) .mmioRead addr size
  Line.recvAll axiHeaderLen >>= received (some 0) fun buf => axiReadReply (AxiHeader.load buf)

/-- mirrors patches/qemu/0001-chiplets-qemu-support.patch:770-785 -/
def axiWrite (addr value : UInt64) (size : UInt32) : AxiLineM AxiCtl := do
  axiSendHeader none .mmioWrite addr size
  if ← Line.sendAll (payload value size.toNat) then return .service else .fault none

def axiAccess : GuestAccess → AxiLineM AxiCtl
  | .read addr size => axiRead addr size
  | .write addr value size => axiWrite addr value size

/-! ## The daemon -/

/-- mirrors src/fabrics/qemu_socket.c:140-152 -/
def readHeader : DaemonLineM (Option AxiHeader) := do
  return (← Line.recvAll axiHeaderLen).map AxiHeader.load

/-- mirrors src/fabrics/qemu_socket.c:161-169 -/
def writeHeader (h : AxiHeader) : DaemonLineM Bool := Line.sendAll (h.bytes 0)

/-- mirrors src/fabrics/qemu_socket.c:180-194 -/
def writeReadReply (request : AxiHeader) (value : UInt64) : DaemonLineM Bool := do
  let len : UInt32 := if request.length < 8 then request.length else 8
  if ← writeHeader { request with kind := AxiMsgKind.mmioReadReply.code, length := len } then
    Line.sendAll (payload value len.toNat)
  else return false

/-- mirrors src/fabrics/qemu_socket.c:204-214 -/
def readValue (len : UInt32) : DaemonLineM (Option UInt64) := do
  if 8 < len then return none
  return (← Line.recvAll len.toNat).map payloadValue

/-- mirrors src/fabrics/qemu_socket.c:497-519 -/
def fabricDmaReadInto (gpa : UInt64) (len : UInt32) : DaemonLineM (Option Bytes) := do
  if ← writeHeader (.of .dmaRead gpa len) then
    match ← readHeader with
    | none => return none
    | some reply =>
      if reply.kind ≠ AxiMsgKind.dmaReadReply.code ∨ reply.length ≠ len then return none
      Line.recvAll len.toNat
  else return none

/-- mirrors src/fabrics/qemu_socket.c:581-584 -/
def acknowledged : Option AxiHeader → DaemonLineM Bool
  | none => return false
  | some reply => return reply.kind = AxiMsgKind.error.code

/-- mirrors src/fabrics/qemu_socket.c:565-586 -/
def fabricDmaWrite (gpa : UInt64) (data : Bytes) : DaemonLineM Bool := do
  if ← writeHeader (.of .dmaWrite gpa (UInt32.ofNat data.length)) then
    if ← Line.sendAll data then acknowledged (← readHeader) else return false
  else return false

/-- mirrors src/fabrics/qemu_socket.c:612-622 -/
def fabricLowerIrq : DaemonLineM Bool := writeHeader (.of .irqDeassert 0 0)

/-- mirrors src/fabrics/qemu_socket.c:594-604 -/
def fabricRaiseIrq : DaemonLineM Bool := do
  if ← fabricLowerIrq then writeHeader (.of .irqAssert 0 0) else return false

def socketCall : (c : Call) → DaemonLineM c.Reply
  | .dmaReadInto gpa len => fabricDmaReadInto gpa len
  -- mirrors src/fabrics/qemu_socket.c:522-529
  | .dmaMap _ _ => return false
  | .dmaWrite gpa data => fabricDmaWrite gpa data
  | .raiseIrq => fabricRaiseIrq
  | .lowerIrq => fabricLowerIrq
  | .realloc len => Line.own (L := fabricSig) (.realloc len)
  | .pread offset len => Line.own (L := fabricSig) (.pread offset len)
  | .preadMapped gpa offset len => Line.own (L := fabricSig) (.preadMapped gpa offset len)
  | .pwrite offset data => Line.own (L := fabricSig) (.pwrite offset data)
  | .fsync => Line.own (L := fabricSig) .fsync
  | .consoleWrite data => Line.own (L := fabricSig) (.consoleWrite data)

variable {D : Type}

/-- mirrors src/fabrics/qemu_socket.c:327-351 -/
def serveWrite (dev : FabricDevice D) (d : D) (h : AxiHeader) : DaemonLineM (D × Bool) := do
  match ← readValue h.length with
  | none => return (d, false)
  | some value =>
    let (d, ok) ← (dev.write d (deviceOffset dev h.offset) value h.length).interp socketCall
    if ok then return (d, ← writeHeader (.of .error 0 0))
    else return (d, false)

/-- mirrors src/fabrics/qemu_socket.c:308-356 -/
def serveRequest (dev : FabricDevice D) (d : D) (h : AxiHeader) : DaemonLineM (D × Bool) :=
  if accessInRange dev h then
    match AxiMsgKind.ofCode h.kind with
    | some .mmioRead => do
      return (d, ← writeReadReply h (dev.read d (deviceOffset dev h.offset) h.length))
    | some .mmioWrite => serveWrite dev d h
    | _ => return (d, false)
  else return (d, false)

/-- mirrors src/fabrics/qemu_socket.c:304-307 -/
def serveHeader (dev : FabricDevice D) (d : D) : Option AxiHeader → DaemonLineM (D × Bool)
  | none => return (d, false)
  | some h => serveRequest dev d h

/-- mirrors src/fabrics/qemu_socket.c:303-357 -/
def serveConnection (dev : FabricDevice D) (d : D) : DaemonLineM (D × Bool) :=
  readHeader >>= serveHeader dev d

end Line

/-- The device QEMU emulates, as the socket's client. -/
abbrev qemuLine (valid : UInt64 → Nat → Bool) : LineParty UInt8 where
  Own := qemuSig
  Fault := Option UInt64
  State := QemuState
  Result := AxiCtl
  answer := QemuState.answer valid
  again
    | .done _ => none
    | .service => some Line.axiServiceBackend

/-- The daemon, as its server. -/
abbrev daemonLine {D H : Type} (dev : FabricDevice D) (host : H → (c : Call) → c.Reply × H) :
    LineParty UInt8 where
  Own := fabricSig
  Fault := Fault
  State := H
  Result := D × Bool
  answer := host
  again r := if r.2 then some (Line.serveConnection dev r.1) else none

/-- What an access returns that is not served. -/
def GuestAccess.lost : GuestAccess → Option UInt64
  | .read .. => some 0
  | .write .. => none

/-! ## Where no transfer fails -/

section
variable {A : Type}

theorem axiSendHeader_bind (lost : Option UInt64) (kind : AxiMsgKind) (addr : UInt64) (len : UInt32)
    (f : Unit → AxiLineM A) :
    Line.axiSendHeader lost kind addr len >>= f =
      Line.own (L := qemuSig) .padding >>= fun pad =>
        Line.sendAll ((AxiHeader.of kind addr len).bytes pad) >>= fun ok => if ok then f () else .fault lost := by
  simp only [Line.axiSendHeader, Prog.bind_assoc]
  refine bind_congr fun pad => bind_congr fun ok => ?_
  cases ok <;> rfl

theorem readHeader_bind (f : Option AxiHeader → DaemonLineM A) :
    Line.readHeader >>= f = Line.recvAll axiHeaderLen >>= fun buf => f (buf.map AxiHeader.load) :=
  Prog.bind_assoc _ _ _

/-- QEMU's code on a socket that stays open. -/
abbrev axiLive : AxiLineM A → AxiM A := Prog.live fun _ => .closed

theorem axiSendHeader_live (lost : Option UInt64) (kind : AxiMsgKind) (addr : UInt64) (len : UInt32)
    (f : Unit → AxiLineM A) :
    axiLive (Line.axiSendHeader lost kind addr len >>= f) =
      axiSendHeader kind addr len >>= fun u => axiLive (f u) := by
  rw [axiSendHeader_bind]
  simp only [axiSendHeader, Prog.bind_assoc]
  refine (Line.live_own _ _ _).trans (bind_congr fun pad => ?_)
  exact Line.live_sendAll _ _ _

theorem axiReplyRead_live (offset : UInt64) (len : UInt32) (buf : Option Bytes) :
    axiLive (Line.axiReplyRead offset len buf) = axiReplyRead offset len buf := by
  cases buf with
  | none => rfl
  | some buf =>
    refine (axiSendHeader_live none .dmaReadReply offset len _).trans (bind_congr fun _ => ?_)
    exact Line.live_sendAll _ _ _

theorem axiReplyWrite_live (ok : Bool) : axiLive (Line.axiReplyWrite ok) = axiReplyWrite ok := by
  cases ok with
  | false => rfl
  | true => exact axiSendHeader_live none .error 0 0 _

theorem axiDispatch_live (hdr : AxiHeader) : axiLive (Line.axiDispatch hdr) = axiDispatch hdr := by
  unfold Line.axiDispatch axiDispatch
  cases AxiMsgKind.ofCode hdr.kind with
  | none => rfl
  | some kind =>
    cases kind with
    | dmaRead =>
      dsimp only
      split
      · exact axiSendHeader_live none .dmaReadReply hdr.offset 0 _
      · refine (Line.live_own _ _ _).trans (bind_congr fun buf => ?_)
        exact axiReplyRead_live hdr.offset hdr.length buf
    | dmaWrite =>
      refine (Line.live_recvAll _ _ _).trans (bind_congr fun buf => ?_)
      refine (Line.live_own _ _ _).trans (bind_congr fun ok => ?_)
      exact axiReplyWrite_live ok
    | _ => rfl

theorem axiServiceBackend_live : axiLive Line.axiServiceBackend = axiServiceBackend := by
  refine (Line.live_recvAll _ _ _).trans (bind_congr fun buf => ?_)
  exact axiDispatch_live (AxiHeader.load buf)

theorem axiReadReply_live (reply : AxiHeader) :
    axiLive (Line.axiReadReply reply) = axiReadReply reply := by
  unfold Line.axiReadReply axiReadReply
  split
  · rfl
  · exact Line.live_recvAll _ _ _

theorem axiAccess_live (a : GuestAccess) : axiLive (Line.axiAccess a) = axiAccess a := by
  cases a with
  | read addr size =>
    refine (axiSendHeader_live (some 0) .mmioRead addr size _).trans (bind_congr fun _ => ?_)
    refine (Line.live_recvAll _ _ _).trans (bind_congr fun buf => ?_)
    exact axiReadReply_live (AxiHeader.load buf)
  | write addr value size =>
    refine (axiSendHeader_live none .mmioWrite addr size _).trans (bind_congr fun _ => ?_)
    exact Line.live_sendAll _ _ _

/-- The daemon's code on a socket that stays open. -/
abbrev daemonLive : DaemonLineM A → DaemonM A := Prog.live id

theorem writeHeader_live (h : AxiHeader) (f : Bool → DaemonLineM A) :
    daemonLive (Line.writeHeader h >>= f) = writeHeader h >>= fun _ => daemonLive (f true) :=
  Line.live_sendAll _ _ _

theorem readHeader_live (f : Option AxiHeader → DaemonLineM A) :
    daemonLive (Line.readHeader >>= f) = readHeader >>= fun h => daemonLive (f (some h)) := by
  rw [readHeader_bind]
  simp only [readHeader, Prog.bind_assoc]
  exact Line.live_recvAll _ _ _

theorem fabricDmaReadInto_live (gpa : UInt64) (len : UInt32) (f : Option Bytes → DaemonLineM A) :
    daemonLive (Line.fabricDmaReadInto gpa len >>= f) =
      fabricDmaReadInto gpa len >>= fun r => daemonLive (f r) := by
  simp only [Line.fabricDmaReadInto, fabricDmaReadInto, Prog.bind_assoc]
  refine (writeHeader_live _ _).trans (bind_congr fun _ => ?_)
  simp only [if_true, Prog.bind_assoc]
  refine (readHeader_live _).trans (bind_congr fun reply => ?_)
  dsimp only
  split
  · rfl
  · simp only [Prog.bind_assoc]
    exact Line.live_recvAll _ _ _

theorem fabricDmaWrite_live (gpa : UInt64) (data : Bytes) (f : Bool → DaemonLineM A) :
    daemonLive (Line.fabricDmaWrite gpa data >>= f) =
      fabricDmaWrite gpa data >>= fun r => daemonLive (f r) := by
  simp only [Line.fabricDmaWrite, fabricDmaWrite, Prog.bind_assoc]
  refine (writeHeader_live _ _).trans (bind_congr fun _ => ?_)
  simp only [if_true, Prog.bind_assoc]
  refine (Line.live_sendAll _ _ _).trans (bind_congr fun _ => ?_)
  simp only [if_true, Prog.bind_assoc]
  exact readHeader_live _

theorem socketCall_live (c : Call) (f : c.Reply → DaemonLineM A) :
    daemonLive (Line.socketCall c >>= f) = socketCall c >>= fun r => daemonLive (f r) := by
  cases c with
  | dmaReadInto gpa len => exact fabricDmaReadInto_live gpa len f
  | dmaWrite gpa data => exact fabricDmaWrite_live gpa data f
  | raiseIrq =>
    simp only [Line.socketCall, socketCall, Line.fabricRaiseIrq, fabricRaiseIrq, Line.fabricLowerIrq,
      fabricLowerIrq, Prog.bind_assoc]
    refine (writeHeader_live _ _).trans (bind_congr fun _ => ?_)
    simp only [if_true, Prog.pure_eq, Prog.ret_bind]
    exact writeHeader_live _ _
  | lowerIrq =>
    simp only [socketCall, fabricLowerIrq, Prog.bind_assoc]
    exact writeHeader_live _ _
  | dmaMap => rfl
  | realloc | pread | preadMapped | pwrite | fsync | consoleWrite => exact Line.live_own _ _ _

theorem interp_live {C : Type} (p : FabricM C) (f : C → DaemonLineM A) :
    daemonLive (p.interp Line.socketCall >>= f) = p.interp socketCall >>= fun c => daemonLive (f c) := by
  induction p with
  | ret c => rfl
  | fault e => rfl
  | call c k ih =>
    simp only [Prog.interp, Prog.bind_assoc]
    exact (socketCall_live c _).trans (bind_congr fun r => ih r)

theorem serveWrite_live {D : Type} (dev : FabricDevice D) (d : D) (h : AxiHeader) :
    daemonLive (Line.serveWrite dev d h) = serveWrite dev d h := by
  unfold Line.serveWrite serveWrite Line.readValue readValue
  by_cases hlen : 8 < h.length
  · simp only [if_pos hlen]
    rfl
  · simp only [if_neg hlen, Prog.bind_assoc]
    refine (Line.live_recvAll _ _ _).trans (bind_congr fun bytes => ?_)
    refine (interp_live _ _).trans (bind_congr fun r => ?_)
    obtain ⟨d', ok⟩ := r
    cases ok with
    | false => rfl
    | true => exact writeHeader_live _ _

/-- While both ends are open, the daemon's loop is the one without failures. -/
theorem serveConnection_live {D : Type} (dev : FabricDevice D) (d : D) :
    daemonLive (Line.serveConnection dev d) = serveConnection dev d := by
  refine (readHeader_live _).trans (bind_congr fun h => ?_)
  show daemonLive (Line.serveRequest dev d h) = _
  unfold Line.serveRequest serveRequest
  cases accessInRange dev h with
  | false => rfl
  | true =>
    simp only [if_true]
    cases AxiMsgKind.ofCode h.kind with
    | none => rfl
    | some kind =>
      cases kind with
      | mmioRead =>
        simp only [Line.writeReadReply, writeReadReply, Prog.bind_assoc]
        refine (writeHeader_live _ _).trans (bind_congr fun _ => ?_)
        exact Line.live_sendAll _ _ _
      | mmioWrite => exact serveWrite_live dev d h
      | _ => rfl

end

end AcsVirt.L2
