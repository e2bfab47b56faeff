import AcsVirt.L2Machine.AxiSocket
import AcsVirt.L2Machine.QemuSocket
import AcsVirt.L2Machine.Ram

/-!
# The AXI socket in lockstep

QEMU and the daemon over two byte streams, each of any capacity. What the
exchange is for is said without a socket: `directRun` carries out the guest's
accesses one after the other, with the device's calls acting on guest memory
and the interrupt line at once and in call order (`Direct.answer`, which also
keeps the list of those calls).

The roles change inside a write: the daemon becomes the one who asks. A single
turn is followed in rendezvous order (`socketCall_leads` for one call of the
device code, `write_leads`, `read_leads`); the composition being confluent,
this settles every interleaving. `lockstep`: whatever the scheduling, every
reachable state runs on to the state `directRun` describes, and it has got
there as soon as QEMU has returned to the guest.
-/
namespace AcsVirt.L3

open L1 L2

/-! ## Without a socket -/

/-- The outside of the device code: the guest, the daemon's host, and the
fabric calls made so far. -/
structure Direct (H : Type) where
  guest : Guest
  host : H
  calls : List Call

variable {D H : Type}

/-- A call that reaches the guest. -/
def Direct.done (w : Direct H) (c : Call) (guest : Guest) : Direct H :=
  { w with guest := guest, calls := w.calls ++ [c] }

/-- A call the host answers. -/
def Direct.ask (host : H → (c : Call) → c.Reply × H) (w : Direct H) (c : Call) :
    Option (c.Reply × Direct H) :=
  some ((host w.host c).1, { w with host := (host w.host c).2 })

/-- `none` for a range that is not guest memory. The socket fabric has no
mappings; the remaining calls are the host's. -/
def Direct.answer (valid : UInt64 → Nat → Bool) (host : H → (c : Call) → c.Reply × H) (w : Direct H) :
    (c : Call) → Option (c.Reply × Direct H)
  | .dmaReadInto gpa len =>
    if rwOk valid gpa len.toNat then
      some (some (readBytes w.guest.mem gpa.toNat len.toNat), w.done (.dmaReadInto gpa len) w.guest)
    else none
  | .dmaMap _ _ => some (false, w)
  | .dmaWrite gpa data =>
    if rwOk valid gpa data.length ∧ data.length < UInt32.size then
      some (true, w.done (.dmaWrite gpa data)
        { w.guest with mem := writeBytes w.guest.mem gpa.toNat data })
    else none
  | .raiseIrq => some (true, w.done .raiseIrq { w.guest with irq := true })
  | .lowerIrq => some (true, w.done .lowerIrq { w.guest with irq := false })
  | .realloc len => w.ask host (.realloc len)
  | .pread offset len => w.ask host (.pread offset len)
  | .preadMapped gpa offset len => w.ask host (.preadMapped gpa offset len)
  | .pwrite offset data => w.ask host (.pwrite offset data)
  | .fsync => w.ask host .fsync
  | .consoleWrite data => w.ask host (.consoleWrite data)

section
variable (dev : FabricDevice D) (valid : UInt64 → Nat → Bool) (host : H → (c : Call) → c.Reply × H)

/-- One access: its value if it is a read, and the device and the outside
after it; `none` when the write callback fails. -/
def directAccess (d : D) (w : Direct H) : GuestAccess → Option (Option UInt64 × D × Direct H)
  | .read addr size =>
    some (some (truncate (dev.read d (deviceOffset dev addr) size) size.toNat), d, w)
  | .write addr value size =>
    match (dev.write d (deviceOffset dev addr) (truncate value size.toNat) size).runSome
        (Direct.answer valid host) w with
    | some ((d, true), w) => some (none, d, w)
    | _ => none

/-- The accesses one after the other; the value is that of the last one. -/
def directRun (as : List GuestAccess) (d : D) (w : Direct H) :
    Option (Option UInt64 × D × Direct H) :=
  as.foldlM (fun r a => directAccess dev valid host r.2.1 r.2.2 a) (none, d, w)

/-- An access of the guest that QEMU hands to the region: naturally sized, and
inside the daemon's window. -/
structure InWindow (a : GuestAccess) : Prop where
  size : a.size ∈ [1, 2, 4, 8]
  start : dev.addr ≤ a.addr
  stop : a.addr.toNat + a.size.toNat ≤ dev.addr.toNat + dev.size.toNat
  fits : dev.addr.toNat + dev.size.toNat < UInt64.size

/-! ## With the socket -/

inductive SockAct where
  | access (a : GuestAccess)
  | step (side : Side)
  deriving DecidableEq, Repr

abbrev SockState := Duplex (qemuParty valid) (daemonParty dev host)

/-- A connection on which nothing was said yet. -/
def sockStart (d : D) (g : Guest) (h : H) (pads : Nat → UInt32) : SockState dev valid host :=
  ⟨⟨.ret (.done none), ⟨g, pads⟩⟩, ⟨.ret (d, true), h⟩, [], []⟩

/-- The guest may make an access when the last one has returned. -/
def sockLts (cap : Option Nat) : LTS (SockState dev valid host) SockAct where
  init s := ∃ d g h pads, s = sockStart dev valid host d g h pads
  step s a s' :=
    match a with
    | .access a => InWindow dev a ∧ (∃ v, s.left.code = .ret (.done v)) ∧
        s' = { s with left := ⟨axiAccess a, s.left.state⟩ }
    | .step side => s.next cap side = some s'

/-- Between two accesses: QEMU has returned `v`, the daemon is at the top of
its loop, and nothing is on the way. -/
structure Idle (v : Option UInt64) (d : D) (w : Direct H) (s : SockState dev valid host) :
    Prop where
  qemu : s.left.code = .ret (.done v)
  guest : s.left.state.guest = w.guest
  daemon : s.right = ⟨.ret (d, true), w.host⟩
  toRight : s.toRight = []
  toLeft : s.toLeft = []

end

/-! ## Single messages -/

section
variable {dev : FabricDevice D} {valid : UInt64 → Nat → Bool} {host : H → (c : Call) → c.Reply × H}
  {T : SockState dev valid host → Prop}

/-- QEMU running `p` and the daemon running `q`, with nothing on the way, can
get to a state in `T`. -/
abbrev Meets (cap : Option Nat) (T : SockState dev valid host → Prop) (p : AxiM AxiCtl)
    (s : QemuState) (q : DaemonM (D × Bool)) (h : H) : Prop :=
  Leads cap (P := qemuParty valid) (Q := daemonParty dev host) ⟨p, s⟩ ⟨q, h⟩ T

variable {cap : Option Nat} (hcap : cap ≠ some 0)
include hcap

/-- The daemon sends a header while QEMU serves it. -/
theorem header_leads (hdr : AxiHeader) {k : Unit → DaemonM (D × Bool)} {s : QemuState} {h : H}
    (hl : Meets cap T (axiDispatch hdr) s (k ()) h) :
    Meets cap T (.ret .service) s (writeHeader hdr >>= k) h := by
  refine Leads.sendRight_again (P := qemuParty valid) (Q := daemonParty dev host) hcap (hdr.bytes_ne_nil 0)
    (k := fun buf => axiDispatch (AxiHeader.load buf)) rfl ?_
  rw [hdr.load_bytes 0]
  exact hl

/-- QEMU sends a header the daemon waits for. -/
theorem reply_leads (kind : AxiMsgKind) (addr : UInt64) (len : UInt32) {k : Unit → AxiM AxiCtl}
    {k' : AxiHeader → DaemonM (D × Bool)} {g : Guest} {h : H}
    (hl : ∀ pads, Meets cap T (k ()) ⟨g, pads⟩ (k' (.of kind addr len)) h) (pads : Nat → UInt32) :
    Meets cap T (axiSendHeader kind addr len >>= k) ⟨g, pads⟩ (readHeader >>= k') h := by
  refine Leads.ownLeft (P := qemuParty valid) (Q := daemonParty dev host) rfl ?_
  have hs := Leads.sendLeft (P := qemuParty valid) (Q := daemonParty dev host) hcap
    ((AxiHeader.of kind addr len).bytes (pads 0)) (k := k) (m := fun buf => k' (AxiHeader.load buf))
    (w := ⟨g, fun i => pads (i + 1)⟩) (v := h) (T := T)
  rw [AxiHeader.load_bytes] at hs
  have hr : readHeader >>= k' = recvAll axiHeaderLen >>= fun buf => k' (AxiHeader.load buf) :=
    Prog.bind_assoc _ _ _
  rw [hr]
  exact hs (hl _)

/-- The daemon moves the interrupt line. -/
theorem irq_leads (level : Bool) {k : Unit → DaemonM (D × Bool)} {g : Guest} {pads : Nat → UInt32}
    {h : H} (hl : Meets cap T (.ret .service) ⟨{ g with irq := level }, pads⟩ (k ()) h) :
    Meets cap T (.ret .service) ⟨g, pads⟩
      (writeHeader (.of (if level then .irqAssert else .irqDeassert) 0 0) >>= k) h := by
  refine header_leads hcap _ ?_
  have hd : axiDispatch (.of (if level then .irqAssert else .irqDeassert) 0 0) =
      own (L := qemuSig) (.setIrq level) >>= fun _ => .ret .service := by
    cases level <;> simp [axiDispatch, AxiHeader.of]
  rw [hd]
  exact Leads.ownLeft (P := qemuParty valid) (Q := daemonParty dev host) rfl hl

theorem dmaRead_leads {gpa : UInt64} {len : UInt32} (hok : rwOk valid gpa len.toNat = true)
    {k : Option Bytes → DaemonM (D × Bool)} {g : Guest} {h : H}
    (hl : ∀ pads, Meets cap T (.ret .service) ⟨g, pads⟩
      (k (some (readBytes g.mem gpa.toNat len.toNat))) h) (pads : Nat → UInt32) :
    Meets cap T (.ret .service) ⟨g, pads⟩ (fabricDmaReadInto gpa len >>= k) h := by
  simp only [fabricDmaReadInto, Prog.bind_assoc]
  refine header_leads hcap _ ?_
  by_cases h0 : len = 0
  · subst h0
    have hd : axiDispatch (.of .dmaRead gpa 0) = axiSendHeader .dmaReadReply gpa 0 >>= fun _ => .ret .service := by
      simp [axiDispatch, AxiHeader.of]
    rw [hd]
    exact reply_leads hcap _ _ _ (fun pads => by simpa [AxiHeader.of, recvAll] using hl pads) pads
  · have hd : axiDispatch (.of .dmaRead gpa len) =
        own (L := qemuSig) (.addressSpaceRead gpa len) >>= axiReplyRead gpa len := by
      simp [axiDispatch, AxiHeader.of, h0]
    rw [hd]
    refine Leads.ownLeft (P := qemuParty valid) (Q := daemonParty dev host) rfl ?_
    simp only [qemuParty, QemuState.answer, hok, if_true]
    refine reply_leads hcap _ _ _ (fun pads => ?_) pads
    have hs := Leads.sendLeft (P := qemuParty valid) (Q := daemonParty dev host) hcap
      (readBytes g.mem gpa.toNat len.toNat) (k := fun _ => .ret .service) (m := fun bs => k (some bs))
      (w := ⟨g, pads⟩) (v := h) (hl pads)
    rw [readBytes_length] at hs
    simp only [AxiHeader.of, ne_eq, not_true_eq_false, or_self, if_false, Prog.bind_assoc, Prog.pure_eq,
      Prog.ret_bind]
    exact hs

theorem dmaWrite_leads {gpa : UInt64} {data : Bytes} (hok : rwOk valid gpa data.length = true)
    (hlen : data.length < UInt32.size) {k : Bool → DaemonM (D × Bool)} {g : Guest} {h : H}
    (hl : ∀ pads, Meets cap T (.ret .service)
      ⟨{ g with mem := writeBytes g.mem gpa.toNat data }, pads⟩ (k true) h) (pads : Nat → UInt32) :
    Meets cap T (.ret .service) ⟨g, pads⟩ (fabricDmaWrite gpa data >>= k) h := by
  simp only [fabricDmaWrite, Prog.bind_assoc]
  refine header_leads hcap _ ?_
  have hn : (UInt32.ofNat data.length).toNat = data.length := by
    rw [UInt32.toNat_ofNat', Nat.mod_eq_of_lt hlen]
  have hd : axiDispatch (.of .dmaWrite gpa (UInt32.ofNat data.length)) =
      recvAll data.length >>= fun buf =>
        own (L := qemuSig) (.addressSpaceWrite gpa buf) >>= axiReplyWrite := by
    simp [axiDispatch, AxiHeader.of, hn]
  rw [hd]
  refine Leads.sendRight (P := qemuParty valid) (Q := daemonParty dev host) hcap data ?_
  refine Leads.ownLeft (P := qemuParty valid) (Q := daemonParty dev host) rfl ?_
  simp only [qemuParty, QemuState.answer, hok, if_true]
  exact reply_leads hcap _ _ _ (fun pads => by simpa [AxiHeader.of] using hl pads) pads

/-- One call of the device code, with QEMU in its service loop on both sides. -/
theorem socketCall_leads {w w' : Direct H} {c : Call} {r : c.Reply}
    (hc : Direct.answer valid host w c = some (r, w')) {k : c.Reply → DaemonM (D × Bool)}
    (hl : ∀ pads, Meets cap T (.ret .service) ⟨w'.guest, pads⟩ (k r) w'.host) (pads : Nat → UInt32) :
    Meets cap T (.ret .service) ⟨w.guest, pads⟩ (socketCall c >>= k) w.host := by
  cases c with
  | dmaReadInto gpa len =>
    simp only [Direct.answer, Option.ite_none_right_eq_some, Option.some.injEq, Prod.mk.injEq] at hc
    obtain ⟨hok, rfl, rfl⟩ := hc
    exact dmaRead_leads hcap hok hl pads
  | dmaMap gpa len =>
    cases hc
    exact hl pads
  | dmaWrite gpa data =>
    simp only [Direct.answer, Option.ite_none_right_eq_some, Option.some.injEq, Prod.mk.injEq] at hc
    obtain ⟨⟨hok, hlen⟩, rfl, rfl⟩ := hc
    exact dmaWrite_leads hcap hok hlen hl pads
  | raiseIrq =>
    cases hc
    simp only [socketCall, fabricRaiseIrq, fabricLowerIrq, Prog.bind_assoc, Prog.pure_eq, Prog.ret_bind,
      if_true]
    exact irq_leads hcap false (irq_leads hcap true (hl pads))
  | lowerIrq =>
    cases hc
    simp only [socketCall, fabricLowerIrq, Prog.bind_assoc]
    exact irq_leads hcap false (hl pads)
  | realloc | pread | preadMapped | pwrite | fsync | consoleWrite =>
    cases hc
    exact Leads.ownRight (P := qemuParty valid) (Q := daemonParty dev host) rfl (hl pads)

/-- The device code, call by call. -/
theorem interp_leads {α : Type} {p : FabricM α} {w w' : Direct H} {a : α}
    (hp : p.runSome (Direct.answer valid host) w = some (a, w')) {k : α → DaemonM (D × Bool)}
    (hl : ∀ pads, Meets cap T (.ret .service) ⟨w'.guest, pads⟩ (k a) w'.host) (pads : Nat → UInt32) :
    Meets cap T (.ret .service) ⟨w.guest, pads⟩ (p.interp socketCall >>= k) w.host := by
  induction p generalizing w pads with
  | ret b =>
    cases hp
    exact hl pads
  | fault e => cases hp
  | call c kc ih =>
    obtain ⟨⟨r, w₁⟩, hc, hp⟩ := Option.bind_eq_some_iff.1 hp
    rw [Prog.interp, Prog.bind_assoc]
    exact socketCall_leads hcap hc (fun pads => ih r hp pads) pads

/-! ## One access -/

omit hcap in
theorem InWindow.size_le {a : GuestAccess} (ha : InWindow dev a) : a.size ≤ 8 := by
  have h := ha.size
  simp only [List.mem_cons, List.not_mem_nil, or_false] at h
  rcases h with h | h | h | h <;> rw [h] <;> decide

omit hcap in
/-- An access in the window passes the daemon's check. -/
theorem accessInRange_of_inWindow {a : GuestAccess} (ha : InWindow dev a) (kind : AxiMsgKind) :
    accessInRange dev (.of kind a.addr a.size) = true := by
  have hs := UInt32.le_iff_toNat_le.1 ha.size_le
  have h1 := UInt64.le_iff_toNat_le.1 ha.start
  have h2 := ha.stop
  have h3 := ha.fits
  have hsum : (dev.addr + dev.size).toNat = dev.addr.toNat + dev.size.toNat := by
    rw [UInt64.toNat_add, Nat.mod_eq_of_lt h3]
  have h4 : a.addr ≤ dev.addr + dev.size := by
    rw [UInt64.le_iff_toNat_le, hsum]
    omega
  have h5 : a.size.toUInt64 ≤ dev.addr + dev.size - a.addr := by
    rw [UInt64.le_iff_toNat_le, UInt64.toNat_sub_of_le _ _ h4, hsum, UInt32.toNat_toUInt64]
    omega
  simp [accessInRange, AxiHeader.of, ha.size_le, ha.start, h4, h5]

/-- QEMU's request reaches the daemon at the top of its loop. -/
theorem request_leads (kind : AxiMsgKind) (addr : UInt64) (len : UInt32) {k : Unit → AxiM AxiCtl}
    {g : Guest} {d : D} {h : H}
    (hl : ∀ pads, Meets cap T (k ()) ⟨g, pads⟩ (serveRequest dev d (.of kind addr len)) h)
    (pads : Nat → UInt32) :
    Meets cap T (axiSendHeader kind addr len >>= k) ⟨g, pads⟩ (.ret (d, true)) h := by
  refine Leads.ownLeft (P := qemuParty valid) (Q := daemonParty dev host) rfl ?_
  have hagain : (daemonParty dev host).again (d, true) =
      some (recvAll axiHeaderLen >>= fun buf => serveRequest dev d (AxiHeader.load buf)) :=
    congrArg some (Prog.bind_assoc _ _ _)
  have hs := Leads.sendLeft_again (P := qemuParty valid) (Q := daemonParty dev host) hcap
    ((AxiHeader.of kind addr len).bytes_ne_nil (pads 0)) (k := k) (w := ⟨g, fun i => pads (i + 1)⟩) (v := h)
    (T := T) hagain
  rw [AxiHeader.load_bytes] at hs
  exact hs (hl _)

omit hcap in
/-- The daemon's answer to a read in the window. -/
theorem serveRequest_read {addr : UInt64} {size : UInt32} (ha : InWindow dev (.read addr size))
    (d : D) :
    serveRequest dev d (.of .mmioRead addr size) =
      writeHeader (.of .mmioReadReply addr size) >>= fun _ =>
        sendAll (payload (dev.read d (deviceOffset dev addr) size) size.toNat) >>= fun _ => .ret (d, true) := by
  have hin : accessInRange dev (.of .mmioRead addr size) = true := accessInRange_of_inWindow ha _
  unfold serveRequest
  rw [if_pos hin]
  by_cases h8 : size < 8
  · simp [AxiHeader.of, writeReadReply, h8, Prog.bind_assoc]
  · obtain rfl : size = 8 := UInt32.le_antisymm ha.size_le (UInt32.not_lt.1 h8)
    simp [AxiHeader.of, writeReadReply, Prog.bind_assoc]

omit hcap in
/-- The daemon's handling of a write in the window. -/
theorem serveRequest_write {addr value : UInt64} {size : UInt32}
    (ha : InWindow dev (.write addr value size)) (d : D) :
    serveRequest dev d (.of .mmioWrite addr size) =
      recvAll (payload value size.toNat).length >>= fun bs =>
        (dev.write d (deviceOffset dev addr) (payloadValue bs) size).interp socketCall >>= fun r =>
          if r.2 then writeHeader (.of .error 0 0) >>= fun _ => .ret (r.1, true) else .ret (r.1, false) := by
  have hin : accessInRange dev (.of .mmioWrite addr size) = true := accessInRange_of_inWindow ha _
  have h8 : ¬ 8 < size := UInt32.not_lt.2 ha.size_le
  have hlen : size.toNat ≤ 8 := UInt32.le_iff_toNat_le.1 ha.size_le
  unfold serveRequest
  rw [if_pos hin, payload_length value hlen]
  simp [AxiHeader.of, serveWrite, readValue, h8, Prog.bind_assoc]

theorem read_leads {addr : UInt64} {size : UInt32} (ha : InWindow dev (.read addr size)) {d : D}
    {w : Direct H} (pads : Nat → UInt32) :
    Meets cap (Idle dev valid host (some (truncate (dev.read d (deviceOffset dev addr) size) size.toNat)) d w)
      (axiRead addr size) ⟨w.guest, pads⟩ (.ret (d, true)) w.host := by
  refine request_leads hcap _ _ _ (fun pads => ?_) pads
  rw [serveRequest_read ha]
  generalize dev.read d (deviceOffset dev addr) size = value
  have hsize : size ≤ 8 := ha.size_le
  have hlen : size.toNat ≤ 8 := UInt32.le_iff_toNat_le.1 ha.size_le
  have hr : axiReadReply (.of .mmioReadReply addr size) =
      recvAll (payload value size.toNat).length >>= fun bs => .ret (.done (some (payloadValue bs))) := by
    rw [payload_length value hlen, axiReadReply, if_neg (by simpa [AxiHeader.of] using hsize)]
    rfl
  refine Leads.sendRight (P := qemuParty valid) (Q := daemonParty dev host) hcap
    ((AxiHeader.of .mmioReadReply addr size).bytes 0) (k := fun buf => axiReadReply (AxiHeader.load buf)) ?_
  rw [AxiHeader.load_bytes, hr]
  refine Leads.sendRight (P := qemuParty valid) (Q := daemonParty dev host) hcap _ (.here ⟨?_, rfl, rfl, rfl, rfl⟩)
  rw [payloadValue_payload value hlen]

theorem write_leads {addr value : UInt64} {size : UInt32}
    (ha : InWindow dev (.write addr value size)) {d d' : D} {w w' : Direct H}
    (hw : (dev.write d (deviceOffset dev addr) (truncate value size.toNat) size).runSome
      (Direct.answer valid host) w = some ((d', true), w')) (pads : Nat → UInt32) :
    Meets cap (Idle dev valid host none d' w') (axiWrite addr value size) ⟨w.guest, pads⟩ (.ret (d, true))
      w.host := by
  refine request_leads hcap _ _ _ (fun pads => ?_) pads
  have hlen : size.toNat ≤ 8 := UInt32.le_iff_toNat_le.1 ha.size_le
  rw [serveRequest_write ha]
  refine Leads.sendLeft (P := qemuParty valid) (Q := daemonParty dev host) hcap _ ?_
  rw [payloadValue_payload value hlen]
  refine interp_leads hcap hw (fun pads => header_leads hcap _ ?_) pads
  exact .here ⟨rfl, rfl, rfl, rfl, rfl⟩

theorem access_leads {a : GuestAccess} (ha : InWindow dev a) {d d' : D} {w w' : Direct H}
    {v : Option UInt64} (hd : directAccess dev valid host d w a = some (v, d', w'))
    (pads : Nat → UInt32) :
    Meets cap (Idle dev valid host v d' w') (axiAccess a) ⟨w.guest, pads⟩ (.ret (d, true)) w.host := by
  cases a with
  | read addr size =>
    cases hd
    exact read_leads hcap ha pads
  | write addr value size =>
    simp only [directAccess] at hd
    split at hd
    · rename_i hw
      cases hd
      exact write_leads hcap ha hw pads
    · cases hd

end

/-! ## Every interleaving -/

section
variable {dev : FabricDevice D} {valid : UInt64 → Nat → Bool} {host : H → (c : Call) → c.Reply × H}
  {cap : Option Nat}

/-- A turn of the daemon's loop that goes on ends with a message. -/
theorem serveRequest_lastSend (d : D) (hdr : AxiHeader) :
    LastSend (fun r : D × Bool => r.2 = true) (serveRequest dev d hdr) ∧
      NotRet (fun r : D × Bool => r.2 = true) (serveRequest dev d hdr) := by
  have hfail : ∀ d : D, LastSend (fun r : D × Bool => r.2 = true) (.ret (d, false) : DaemonM (D × Bool)) ∧
      NotRet (fun r : D × Bool => r.2 = true) (.ret (d, false) : DaemonM (D × Bool)) :=
    fun d => ⟨trivial, fun a h => by cases h; simp⟩
  have hsend : ∀ (h : AxiHeader) (k : Unit → DaemonM (D × Bool)), LastSend (fun r => r.2 = true) (k ()) →
      LastSend (fun r => r.2 = true) (writeHeader h >>= k) ∧ NotRet (fun r => r.2 = true) (writeHeader h >>= k) :=
    fun h k hk => ⟨lastSend_sendAll hk _, notRet_sendAll (h.bytes_ne_nil 0)⟩
  unfold serveRequest
  split
  · split
    · simp only [writeReadReply, Prog.bind_assoc]
      exact hsend _ _ (lastSend_sendAll (f := fun _ => .ret (d, true)) trivial _)
    · refine lastSend_bind (fun r => ?_) _
      cases r with
      | none => exact hfail d
      | some value =>
        refine lastSend_bind (fun r => ?_) _
        dsimp only
        split
        · exact hsend _ _ trivial
        · exact hfail r.1
    · exact hfail d
  · exact hfail d

theorem daemon_lastSend (a : D × Bool) (p : DaemonM (D × Bool))
    (h : (daemonParty dev host).again a = some p) :
    LastSend (fun r : D × Bool => r.2 = true) p := by
  simp only [Option.ite_none_right_eq_some, Option.some.injEq] at h
  obtain ⟨_, rfl⟩ := h
  refine (lastSend_bind (fun hdr => ?_) _).1
  exact serveRequest_lastSend a.1 hdr

theorem Idle.stopped {v : Option UInt64} {d : D} {w : Direct H} {s : SockState dev valid host}
    (h : Idle dev valid host v d w s) : (duplexLts _ _ cap).Stopped s := by
  intro l s' hs
  cases l with
  | left => simp [duplexLts, Duplex.next, Party.step, Party.unfold, h.qemu] at hs
  | right =>
    have hu : serveConnection dev d = recvAll axiHeaderLen >>= fun buf => serveRequest dev d (AxiHeader.load buf) :=
      Prog.bind_assoc _ _ _
    simp [duplexLts, Duplex.next, Party.step, Party.unfold, h.daemon, h.toRight, hu, axiHeaderLen,
      recvAll_succ_bind] at hs

/-- The parties are on the way to the idle state of `r`. -/
structure OnTrack (cap : Option Nat) (r : Option UInt64 × D × Direct H)
    (s : SockState dev valid host) :
    Prop where
  ends : ∃ ls t, (duplexLts _ _ cap).Run s ls t ∧ Idle dev valid host r.1 r.2.1 r.2.2 t
  lastSend : LastSend (fun a : D × Bool => a.2 = true) s.right.code

variable {r : Option UInt64 × D × Direct H} {s s' : SockState dev valid host}

theorem OnTrack.of_idle (h : Idle dev valid host r.1 r.2.1 r.2.2 s) : OnTrack cap r s :=
  ⟨⟨[], s, .nil s, h⟩, by rw [h.daemon]; trivial⟩

theorem OnTrack.step (h : OnTrack cap r s) {side : Side} (hs : s.next cap side = some s') :
    OnTrack cap r s' := by
  obtain ⟨ls, t, hr, ht⟩ := h.ends
  obtain ⟨ks, hk, _⟩ := duplex_confluent.step hr ht.stopped hs
  exact ⟨⟨ks, t, hk, ht⟩, lastSend_next daemon_lastSend hs h.lastSend⟩

/-- QEMU returns to the guest only when the exchange is over. -/
theorem OnTrack.idle (h : OnTrack cap r s) {v : Option UInt64} (hv : s.left.code = .ret (.done v)) :
    Idle dev valid host r.1 r.2.1 r.2.2 s := by
  obtain ⟨ls, t, hr, ht⟩ := h.ends
  have hst : s = t := idle_of_lastSend daemon_lastSend hr (v := .done v) rfl hv h.lastSend
    (by rw [ht.daemon]) rfl ht.toLeft
  rwa [hst]

theorem OnTrack.access (hcap : cap ≠ some 0) (h : OnTrack cap r s) {v : Option UInt64}
    (hv : s.left.code = .ret (.done v)) {a : GuestAccess} (ha : InWindow dev a)
    {r' : Option UInt64 × D × Direct H} (hd : directAccess dev valid host r.2.1 r.2.2 a = some r') :
    OnTrack cap r' { s with left := ⟨axiAccess a, s.left.state⟩ } := by
  have hi := h.idle hv
  refine ⟨?_, h.lastSend⟩
  obtain ⟨left, right, toRight, toLeft⟩ := s
  obtain ⟨_, hg, rfl, rfl, rfl⟩ := hi
  obtain ⟨code, guest, pads⟩ := left
  dsimp only at hg
  subst hg
  exact access_leads hcap ha hd pads

/-- The guest's accesses in a run. -/
def accesses (ls : List SockAct) : List GuestAccess :=
  ls.filterMap fun
    | .access a => some a
    | .step _ => none

theorem OnTrack.run (hcap : cap ≠ some 0) {ls : List SockAct}
    (hr : (sockLts dev valid host cap).Run s ls s') (h : OnTrack cap r s)
    {r' : Option UInt64 × D × Direct H}
    (hd : (accesses ls).foldlM (fun r a => directAccess dev valid host r.2.1 r.2.2 a) r = some r') :
    OnTrack cap r' s' := by
  induction hr generalizing r with
  | nil =>
    cases hd
    exact h
  | @cons s s₁ s' l ls hs _ ih =>
    cases l with
    | access a =>
      obtain ⟨ha, ⟨v, hv⟩, rfl⟩ := hs
      obtain ⟨r₁, h1, hd⟩ := Option.bind_eq_some_iff.1 hd
      exact ih (h.access hcap hv ha h1) hd
    | step side => exact ih (h.step hs) hd

end

/-! ## What the calls did -/

section
variable {dev : FabricDevice D} {valid : UInt64 → Nat → Bool} {host : H → (c : Call) → c.Reply × H}

/-- Guest memory after a fabric call. -/
def callStore (m : Mem) : Call → Mem
  | .dmaWrite gpa data => writeBytes m gpa.toNat data
  | _ => m

/-- The interrupt line after a fabric call. -/
def callLevel (irq : Bool) : Call → Bool
  | .raiseIrq => true
  | .lowerIrq => false
  | _ => irq

/-- The guest is what the calls, in their order, made of `g`. -/
def Direct.Follows (g : Guest) (w : Direct H) : Prop :=
  w.guest = ⟨w.calls.foldl callStore g.mem, w.calls.foldl callLevel g.irq⟩

theorem Direct.Follows.done {g : Guest} {w : Direct H} (h : w.Follows g) (c : Call) :
    (w.done c ⟨callStore w.guest.mem c, callLevel w.guest.irq c⟩).Follows g := by
  simp only [Direct.Follows, Direct.done, List.foldl_append, List.foldl_cons, List.foldl_nil]
  rw [h]

theorem Direct.Follows.answer {g : Guest} (w : Direct H) (c : Call) (r : c.Reply) (w' : Direct H)
    (hc : Direct.answer valid host w c = some (r, w')) (h : w.Follows g) : w'.Follows g := by
  cases c with
  | dmaReadInto gpa len =>
    simp only [Direct.answer, Option.ite_none_right_eq_some, Option.some.injEq, Prod.mk.injEq] at hc
    obtain ⟨_, _, rfl⟩ := hc
    exact h.done (.dmaReadInto gpa len)
  | dmaWrite gpa data =>
    simp only [Direct.answer, Option.ite_none_right_eq_some, Option.some.injEq, Prod.mk.injEq] at hc
    obtain ⟨_, _, rfl⟩ := hc
    exact h.done (.dmaWrite gpa data)
  | raiseIrq =>
    cases hc
    exact h.done .raiseIrq
  | lowerIrq =>
    cases hc
    exact h.done .lowerIrq
  | dmaMap | realloc | pread | preadMapped | pwrite | fsync | consoleWrite =>
    cases hc
    exact h

theorem directAccess_follows {g : Guest} {d : D} {w : Direct H} {a : GuestAccess}
    {r : Option UInt64 × D × Direct H} (hd : directAccess dev valid host d w a = some r)
    (h : w.Follows g) :
    r.2.2.Follows g := by
  cases a with
  | read addr size =>
    cases hd
    exact h
  | write addr value size =>
    simp only [directAccess] at hd
    split at hd
    · rename_i hw
      cases hd
      exact Prog.runSome_keeps Direct.Follows.answer hw h
    · cases hd

theorem directRun_follows {g : Guest} {as : List GuestAccess} {r r' : Option UInt64 × D × Direct H}
    (hd : as.foldlM (fun r a => directAccess dev valid host r.2.1 r.2.2 a) r = some r')
    (h : r.2.2.Follows g) :
    r'.2.2.Follows g := by
  induction as generalizing r with
  | nil =>
    cases hd
    exact h
  | cons a as ih =>
    obtain ⟨r₁, h1, hd⟩ := Option.bind_eq_some_iff.1 hd
    exact ih hd (directAccess_follows h1 h)

end

/-- **Lockstep.** Take any run of the guest, QEMU and the daemon, over streams
that hold at least one byte, whose accesses the device carries out without a
socket (`directRun`: every callback makes calls on guest memory only and
returns true). From where the run has got to, the two parties cannot run on
for ever and always get to the idle state of `directRun`; QEMU has not
returned to the guest before. In that state the guest is what the fabric
calls, in the order they were made, left of it. -/
theorem lockstep (dev : FabricDevice D) (valid : UInt64 → Nat → Bool)
    (host : H → (c : Call) → c.Reply × H) (cap : Option Nat) (hcap : cap ≠ some 0) (d : D)
    (g : Guest) (h : H) (pads : Nat → UInt32) {ls : List SockAct} {s : SockState dev valid host}
    (hr : (sockLts dev valid host cap).Run (sockStart dev valid host d g h pads) ls s)
    {v : Option UInt64} {d' : D} {w : Direct H}
    (hd : directRun dev valid host (accesses ls) d ⟨g, h, []⟩ = some (v, d', w)) :
    (∃ n, ∀ ks u, (duplexLts _ _ cap).Run s ks u →
      ks.length ≤ n ∧ ∃ js t, (duplexLts _ _ cap).Run u js t ∧ Idle dev valid host v d' w t) ∧
    (∀ x, s.left.code = .ret (.done x) → Idle dev valid host v d' w s) ∧
    w.guest = ⟨w.calls.foldl callStore g.mem, w.calls.foldl callLevel g.irq⟩ := by
  have hstart : OnTrack cap (none, d, ⟨g, h, []⟩) (sockStart dev valid host d g h pads) :=
    .of_idle ⟨rfl, rfl, rfl, rfl, rfl⟩
  have htrack := hstart.run hcap hr hd
  refine ⟨?_, fun x hx => htrack.idle hx, directRun_follows hd rfl⟩
  obtain ⟨ls', t, hrun, ht⟩ := htrack.ends
  refine ⟨ls'.length, fun ks u hk => ?_⟩
  obtain ⟨js, hj, hlen⟩ := duplex_confluent.run hrun ht.stopped hk
  exact ⟨by omega, js, t, hj, ht⟩

/-- A device that copies two bytes, writes nothing, and raises the interrupt. -/
def copyDevice : FabricDevice Unit where
  addr := 0
  size := 0x200
  read _ offset _ := offset
  write _ _ _ _ := do
    match ← dmaReadInto 0x1000 2 with
    | none => return ((), false)
    | some bytes =>
      let _ ← dmaWrite 0x2000 bytes
      let _ ← dmaWrite 0 []
      return ((), ← raiseIrq)

/-- One write of the guest, on streams of one byte. -/
theorem lockstep_copy :
    ∃ s, (sockLts copyDevice (fun _ _ => true) (Ram.answer fun _ _ => false) (some 1)).Run
        (sockStart _ _ _ () ⟨memOf [(0x1000, 7)], false⟩ ⟨memOf [], memOf [], false, []⟩ fun _ => 0)
        [.access (.write 0x50 0 4)] s ∧
      (∀ ks u, (duplexLts _ _ (some 1)).Run s ks u →
        ∃ js t, (duplexLts _ _ (some 1)).Run u js t ∧ t.left.code = .ret (.done none) ∧
          t.left.state.guest.mem 0x2000 = 7 ∧ t.left.state.guest.irq = true ∧ t.toRight = [] ∧ t.toLeft = []) := by
  have ha : InWindow copyDevice (.write 0x50 0 4) := ⟨by decide, by decide, by decide, by decide⟩
  have hr := LTS.Run.cons (M := sockLts copyDevice (fun _ _ => true) (Ram.answer fun _ _ => false) (some 1))
    (s := sockStart _ _ _ () ⟨memOf [(0x1000, 7)], false⟩ ⟨memOf [], memOf [], false, []⟩ fun _ => 0)
    (l := .access (.write 0x50 0 4)) ⟨ha, ⟨none, rfl⟩, rfl⟩ (.nil _)
  obtain ⟨⟨n, hn⟩, _, _⟩ := lockstep copyDevice (fun _ _ => true) (Ram.answer fun _ _ => false) (some 1) (by decide)
    () _ _ _ hr rfl
  refine ⟨_, hr, fun ks u hk => ?_⟩
  obtain ⟨_, js, t, hj, ht⟩ := hn ks u hk
  exact ⟨js, t, hj, ht.qemu, by rw [ht.guest]; decide, by rw [ht.guest]; rfl, ht.toRight, ht.toLeft⟩

end AcsVirt.L3
