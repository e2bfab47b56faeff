import AcsVirt.Core.Redial
import AcsVirt.L2Machine.SocketLine
import AcsVirt.L3Protocol.Lockstep

/-!
# Accesses that fail, and the next connection

`Lockstep` follows accesses that all succeed. Here the guest may access what is
outside the daemon's window, the device's callback may fail, and the device may
ask for memory the guest does not have. Any of these ends the connection: the
daemon closes it, or QEMU does when `address_space_rw` fails. The access is
lost (a read returns 0) and the next one connects again, to a device that
`connect` has reset.

What all this is for is said without a socket (`Session.access`). A daemon whose
QEMU has hung up goes on with the device code alone (`hungUp`): it gets back to
`accept` if the code then fails without touching the socket again, and is killed
by its next write otherwise.

`session_settles`: whatever the guest does and however QEMU, the daemon and the
kernel's buffers are scheduled, every access returns what `Session.access` says,
and the two processes come to rest where it says.
-/
namespace AcsVirt.L3

open L1 L2

variable {D H : Type}

/-! ## Without a socket -/

/-- The daemon between two accesses: at a connection, without one, or gone. -/
inductive Backend (D : Type) where
  | serving (d : D)
  | accepting (d : D)
  | dead

structure Session (D H : Type) where
  /-- what the last access returned -/
  value : Option UInt64
  world : Direct H
  daemon : Backend D

/-- The calls that write to the socket. -/
def onSocket : Call → Bool
  | .dmaReadInto .. | .dmaWrite .. | .raiseIrq | .lowerIrq => true
  | _ => false

/-- The reply to a fabric call that fails. -/
def failedReply : (c : Call) → c.Reply
  | .dmaReadInto .. | .pread .. => none
  | .dmaMap .. | .dmaWrite .. | .raiseIrq | .lowerIrq | .realloc .. | .preadMapped .. | .pwrite ..
  | .fsync | .consoleWrite .. => false

/-- A call that does not reach the socket. -/
def offSocket (host : H → (c : Call) → c.Reply × H) (h : H) : (c : Call) → c.Reply × H
  | .dmaMap _ _ => (false, h)
  | c => host h c

section
variable (host : H → (c : Call) → c.Reply × H)

/-- The rest of a write callback after QEMU has hung up. The acknowledgement
is a write, too. -/
def hungUp : FabricM (D × Bool) → H → Backend D × H
  | .ret (d, ok), h => (if ok then .dead else .accepting d, h)
  | .fault _, h => (.dead, h)
  | .call c k, h =>
    if onSocket c then (.dead, h) else hungUp (k (offSocket host h c).1) (offSocket host h c).2

variable (valid : UInt64 → Nat → Bool)

/-- A write callback: until a call fails, each call acts at once. -/
def callback : FabricM (D × Bool) → Direct H → Backend D × Direct H
  | .ret (d, ok), w => (if ok then .serving d else .accepting d, w)
  | .fault _, w => (.dead, w)
  | .call c k, w =>
    match Direct.answer valid host w c with
    | some (r, w) => callback (k r) w
    | none =>
      let r := hungUp host (k (failedReply c)) w.host
      (r.1, { w with host := r.2 })

/-- The writes of guest memory fit the length field of a message. -/
def ShortDma : Call → Prop
  | .dmaWrite _ data => data.length < UInt32.size
  | _ => True

/-- So do those of a callback, as far as it gets. -/
def ShortRun : FabricM (D × Bool) → Direct H → Prop
  | .ret _, _ => True
  | .fault _, _ => True
  | .call c k, w => ShortDma c ∧ ∀ r w', Direct.answer valid host w c = some (r, w') → ShortRun (k r) w'

variable (dev : FabricDevice D) (connect : D → D)

def inWindow (a : GuestAccess) : Bool :=
  dev.addr ≤ a.addr && decide (a.addr.toNat + a.size.toNat ≤ dev.addr.toNat + dev.size.toNat)

/-- An access to a daemon whose device is `d`. -/
def Session.served (s : Session D H) (d : D) (a : GuestAccess) : Session D H :=
  if inWindow dev a then
    match a with
    | .read addr size =>
      { s with
        value := some (truncate (dev.read d (deviceOffset dev addr) size) size.toNat)
        daemon := .serving d }
    | .write addr value size =>
      let r := callback host valid (dev.write d (deviceOffset dev addr) (truncate value size.toNat) size) s.world
      { value := none, world := r.2, daemon := r.1 }
  else { s with value := a.lost, daemon := .accepting d }

def Session.access (s : Session D H) (a : GuestAccess) : Session D H :=
  match s.daemon with
  | .serving d => s.served host valid dev d a
  | .accepting d => s.served host valid dev (connect d) a
  | .dead => { s with value := a.lost }

end

/-! ## With the socket -/

section
variable (dev : FabricDevice D) (connect : D → D) (valid : UInt64 → Nat → Bool)
  (host : H → (c : Call) → c.Reply × H)

/-- What the daemon starts a connection with. -/
def greeting (r : D × Bool) : D × Bool := (connect r.1, true)

abbrev SessionNet := Net (qemuLine valid) (daemonLine dev host)

inductive SessionAct where
  | access (a : GuestAccess)
  | move (side : Side)
  deriving DecidableEq, Repr

def accessRequest (a : GuestAccess) : Request (qemuLine valid) := ⟨Line.axiAccess a, a.lost⟩

/-- The daemon listens, and QEMU has not connected yet. -/
def sessionStart (d : D) (g : Guest) (h : H) (pads : Nat → UInt32) : SessionNet dev valid host :=
  ⟨.ret (.done none), ⟨g, pads⟩, .accepting (d, false), h, .off⟩

/-- The moves of the two processes. -/
abbrev sessionMoves (cap : Option Nat) : LTS (SessionNet dev valid host) Side :=
  moveLts AxiCtl.done (greeting connect) cap

/-- The guest may make an access, of a size QEMU hands to a region, when the
last one has returned. -/
def sessionLts (cap : Option Nat) : LTS (SessionNet dev valid host) SessionAct where
  init s := ∃ d g h pads, s = sessionStart dev valid host d g h pads
  step s l s' :=
    match l with
    | .access a => a.size ∈ [1, 2, 4, 8] ∧ (∃ v, s.client = .ret (.done v)) ∧
        s' = s.request AxiCtl.done (accessRequest valid a)
    | .move side => (sessionMoves dev connect valid host cap).step s side s'

/-- Nobody moves any more, and all is as `s` says. -/
structure Settled (s : Session D H) (t : SessionNet dev valid host) : Prop where
  value : t.client = .ret (.done s.value)
  guest : t.state.guest = s.world.guest
  host : t.host = s.world.host
  daemon : match s.daemon with
    | .serving d => t.server = .serving (.ret (d, true)) ∧ t.wire = .up [] []
    | .accepting d => t.server = .accepting (d, false) ∧ t.wire = .off
    | .dead => t.server = .dead ∧ t.wire = .off

def Backend.fate (s : Backend D) (h : H) : Fate (daemonLine dev host) :=
  match s with
  | .serving d => .up (d, true) h
  | .accepting d => .down (d, false) h
  | .dead => .dead h

def Session.finish (s : Session D H) : Finish (qemuLine valid) (daemonLine dev host) where
  result := .done s.value
  returns := rfl
  ok st := st.guest = s.world.guest
  fate := s.daemon.fate dev host s.world.host

end

/-! ## Single messages -/

section
variable {dev : FabricDevice D} {valid : UInt64 → Nat → Bool} {host : H → (c : Call) → c.Reply × H}
  {T : Duplex (qemuLine valid).open (daemonLine dev host).open → Prop}

/-- QEMU running `p` and the daemon running `q`, with nothing on the way, can
get to a state in `T`. -/
abbrev Converse (cap : Option Nat)
    (T : Duplex (qemuLine valid).open (daemonLine dev host).open → Prop) (p : AxiLineM AxiCtl)
    (s : QemuState) (q : DaemonLineM (D × Bool)) (h : H) : Prop :=
  Talks (P := qemuLine valid) (Q := daemonLine dev host) cap T p s q h

variable {cap : Option Nat} (hcap : cap ≠ some 0)
include hcap

/-- The daemon sends a header while QEMU serves it. -/
theorem header_talks (hdr : AxiHeader) {k : Bool → DaemonLineM (D × Bool)} {s : QemuState} {h : H}
    (ht : Converse cap T (Line.axiDispatch hdr) s (k true) h) :
    Converse cap T (.ret .service) s (Line.writeHeader hdr >>= k) h := by
  refine Talks.sendRight_again (P := qemuLine valid) (Q := daemonLine dev host) hcap (hdr.bytes_ne_nil 0)
    (k := Line.received none fun buf => Line.axiDispatch (AxiHeader.load buf)) rfl ?_
  rw [Line.received_some, hdr.load_bytes 0]
  exact ht

/-- QEMU sends a header the daemon waits for. -/
theorem reply_talks (lost : Option UInt64) (kind : AxiMsgKind) (addr : UInt64) (len : UInt32)
    {k : Unit → AxiLineM AxiCtl} {k' : Option AxiHeader → DaemonLineM (D × Bool)} {g : Guest}
    {h : H} (ht : ∀ pads, Converse cap T (k ()) ⟨g, pads⟩ (k' (some (.of kind addr len))) h)
    (pads : Nat → UInt32) :
    Converse cap T (Line.axiSendHeader lost kind addr len >>= k) ⟨g, pads⟩ (Line.readHeader >>= k') h := by
  rw [axiSendHeader_bind]
  refine Talks.ownLeft (P := qemuLine valid) (Q := daemonLine dev host) rfl ?_
  have hs := Talks.sendLeft (P := qemuLine valid) (Q := daemonLine dev host) hcap
    ((AxiHeader.of kind addr len).bytes (pads 0)) (k := fun ok => if ok then k () else .fault lost)
    (m := fun buf => k' (buf.map AxiHeader.load)) (s := ⟨g, fun i => pads (i + 1)⟩) (h := h) (T := T)
  rw [Option.map_some, AxiHeader.load_bytes] at hs
  rw [readHeader_bind]
  exact hs (ht _)

/-- The daemon moves the interrupt line. -/
theorem irq_talks (level : Bool) {k : Bool → DaemonLineM (D × Bool)} {g : Guest}
    {pads : Nat → UInt32} {h : H}
    (ht : Converse cap T (.ret .service) ⟨{ g with irq := level }, pads⟩ (k true) h) :
    Converse cap T (.ret .service) ⟨g, pads⟩
      (Line.writeHeader (.of (if level then .irqAssert else .irqDeassert) 0 0) >>= k) h := by
  refine header_talks hcap _ ?_
  have hd : Line.axiDispatch (.of (if level then .irqAssert else .irqDeassert) 0 0) =
      Line.own (L := qemuSig) (.setIrq level) >>= fun _ => .ret .service := by
    cases level <;> simp [Line.axiDispatch, AxiHeader.of]
  rw [hd]
  exact Talks.ownLeft (P := qemuLine valid) (Q := daemonLine dev host) rfl ht

/-- QEMU reads guest memory for the daemon. -/
theorem dmaRead_talks {gpa : UInt64} {len : UInt32} (hok : rwOk valid gpa len.toNat = true)
    {k : Option Bytes → DaemonLineM (D × Bool)} {g : Guest} {h : H}
    (ht : ∀ pads, Converse cap T (.ret .service) ⟨g, pads⟩
      (k (some (readBytes g.mem gpa.toNat len.toNat))) h) (pads : Nat → UInt32) :
    Converse cap T (.ret .service) ⟨g, pads⟩ (Line.fabricDmaReadInto gpa len >>= k) h := by
  simp only [Line.fabricDmaReadInto, Prog.bind_assoc]
  refine header_talks hcap _ ?_
  simp only [if_true, Prog.bind_assoc]
  by_cases h0 : len = 0
  · subst h0
    have hd : Line.axiDispatch (.of .dmaRead gpa 0) =
        Line.axiSendHeader none .dmaReadReply gpa 0 >>= fun _ => .ret .service := by
      simp [Line.axiDispatch, AxiHeader.of]
    rw [hd]
    exact reply_talks hcap _ _ _ _ (fun pads => by simpa [AxiHeader.of, Line.recvAll] using ht pads) pads
  · have hd : Line.axiDispatch (.of .dmaRead gpa len) =
        Line.own (L := qemuSig) (.addressSpaceRead gpa len) >>= Line.axiReplyRead gpa len := by
      simp [Line.axiDispatch, AxiHeader.of, h0]
    rw [hd]
    refine Talks.ownLeft (P := qemuLine valid) (Q := daemonLine dev host) rfl ?_
    simp only [qemuLine, QemuState.answer, hok, if_true]
    refine reply_talks hcap _ _ _ _ (fun pads => ?_) pads
    have hs := Talks.sendLeft (P := qemuLine valid) (Q := daemonLine dev host) hcap
      (readBytes g.mem gpa.toNat len.toNat) (k := fun ok => if ok then pure .service else .fault none)
      (m := k) (s := ⟨g, pads⟩) (h := h) (ht pads)
    rw [readBytes_length] at hs
    simp only [AxiHeader.of, ne_eq, not_true_eq_false, or_self, if_false]
    exact hs

/-- The data of a DMA write has reached QEMU, and the daemon waits. -/
theorem dmaWrite_sent {gpa : UInt64} {data : Bytes} (hlen : data.length < UInt32.size)
    {k : Bool → DaemonLineM (D × Bool)} {s : QemuState} {h : H}
    (ht : Converse cap T
      (Line.axiReplyWrite ((qemuLine valid).answer s (.addressSpaceWrite gpa data)).1)
      ((qemuLine valid).answer s (.addressSpaceWrite gpa data)).2
      (Line.readHeader >>= fun r => Line.acknowledged r >>= k) h) :
    Converse cap T (.ret .service) s (Line.fabricDmaWrite gpa data >>= k) h := by
  have hn : (UInt32.ofNat data.length).toNat = data.length := by
    rw [UInt32.toNat_ofNat', Nat.mod_eq_of_lt hlen]
  have hd : Line.axiDispatch (.of .dmaWrite gpa (UInt32.ofNat data.length)) =
      Line.recvAll data.length >>= Line.received none fun buf =>
        Line.own (L := qemuSig) (.addressSpaceWrite gpa buf) >>= Line.axiReplyWrite := by
    have hkind := AxiMsgKind.ofCode_code .dmaWrite
    unfold Line.axiDispatch AxiHeader.of
    rw [hkind]
    exact congrArg (Line.recvAll · >>= _) hn
  simp only [Line.fabricDmaWrite, Prog.bind_assoc]
  refine header_talks hcap _ ?_
  simp only [if_true, Prog.bind_assoc]
  rw [hd]
  refine Talks.sendRight (P := qemuLine valid) (Q := daemonLine dev host) hcap data ?_
  refine Talks.ownLeft (P := qemuLine valid) (Q := daemonLine dev host) rfl ?_
  simp only [if_true, Prog.bind_assoc]
  exact ht

theorem dmaWrite_talks {gpa : UInt64} {data : Bytes} (hok : rwOk valid gpa data.length = true)
    (hlen : data.length < UInt32.size) {k : Bool → DaemonLineM (D × Bool)} {g : Guest} {h : H}
    (ht : ∀ pads, Converse cap T (.ret .service)
      ⟨{ g with mem := writeBytes g.mem gpa.toNat data }, pads⟩ (k true) h) (pads : Nat → UInt32) :
    Converse cap T (.ret .service) ⟨g, pads⟩ (Line.fabricDmaWrite gpa data >>= k) h := by
  refine dmaWrite_sent hcap hlen ?_
  simp only [qemuLine, QemuState.answer, hok, if_true]
  exact reply_talks hcap _ _ _ _ (fun pads => by
    simpa [AxiHeader.of, Line.acknowledged] using ht pads) pads

/-- One call of the device code that succeeds, with QEMU in its service loop on
both sides. -/
theorem socketCall_talks {w w' : Direct H} {c : Call} {r : c.Reply}
    (hc : Direct.answer valid host w c = some (r, w')) {k : c.Reply → DaemonLineM (D × Bool)}
    (ht : ∀ pads, Converse cap T (.ret .service) ⟨w'.guest, pads⟩ (k r) w'.host)
    (pads : Nat → UInt32) :
    Converse cap T (.ret .service) ⟨w.guest, pads⟩ (Line.socketCall c >>= k) w.host := by
  cases c with
  | dmaReadInto gpa len =>
    simp only [Direct.answer, Option.ite_none_right_eq_some, Option.some.injEq, Prod.mk.injEq] at hc
    obtain ⟨hok, rfl, rfl⟩ := hc
    exact dmaRead_talks hcap hok ht pads
  | dmaMap gpa len =>
    cases hc
    exact ht pads
  | dmaWrite gpa data =>
    simp only [Direct.answer, Option.ite_none_right_eq_some, Option.some.injEq, Prod.mk.injEq] at hc
    obtain ⟨⟨hok, hlen⟩, rfl, rfl⟩ := hc
    exact dmaWrite_talks hcap hok hlen ht pads
  | raiseIrq =>
    cases hc
    simp only [Line.socketCall, Line.fabricRaiseIrq, Line.fabricLowerIrq, Prog.bind_assoc]
    exact irq_talks hcap false (irq_talks hcap true (ht pads))
  | lowerIrq =>
    cases hc
    exact irq_talks hcap false (ht pads)
  | realloc | pread | preadMapped | pwrite | fsync | consoleWrite =>
    cases hc
    exact Talks.ownRight (P := qemuLine valid) (Q := daemonLine dev host) rfl (ht pads)

end

/-! ## A call that fails -/

section
variable {dev : FabricDevice D} {valid : UInt64 → Nat → Bool} {host : H → (c : Call) → c.Reply × H}

/-- What the daemon does after the callback. -/
def acknowledge (r : D × Bool) : DaemonLineM (D × Bool) :=
  if r.2 then Line.writeHeader (.of .error 0 0) >>= fun ok => .ret (r.1, ok) else .ret (r.1, false)

/-- A device that goes on after QEMU has hung up. -/
theorem hungUp_solo (dev : FabricDevice D) (host : H → (c : Call) → c.Reply × H)
    (p : FabricM (D × Bool)) (h : H) :
    ∃ n, Solo ((hungUp host p h).1.fate dev host (hungUp host p h).2) n
      (p.interp Line.socketCall >>= acknowledge) [] h := by
  induction p generalizing h with
  | ret r =>
    obtain ⟨d, ok⟩ := r
    refine ⟨0, ?_⟩
    cases ok with
    | true => exact Solo.sendAll (Q := daemonLine dev host) (AxiHeader.bytes_ne_nil _ 0) _ [] rfl 0
    | false => exact Solo.ret (Q := daemonLine dev host) rfl rfl
  | fault e => exact ⟨0, .fault rfl rfl⟩
  | call c k ih =>
    rw [Prog.interp, Prog.bind_assoc]
    have hsend : ∀ (hdr : AxiHeader) (f : Bool → DaemonLineM (D × Bool)), onSocket c = true →
        Solo ((hungUp host (.call c k) h).1.fate dev host (hungUp host (.call c k) h).2) 0
          (Line.writeHeader hdr >>= f) [] h := by
      intro hdr f hc
      refine Solo.sendAll (Q := daemonLine dev host) (hdr.bytes_ne_nil 0) f [] ?_ 0
      simp only [hungUp, if_pos hc]
      rfl
    cases c with
    | dmaReadInto gpa len =>
      refine ⟨0, ?_⟩
      simp only [Line.socketCall, Line.fabricDmaReadInto, Prog.bind_assoc]
      exact hsend _ _ rfl
    | dmaWrite gpa data =>
      refine ⟨0, ?_⟩
      simp only [Line.socketCall, Line.fabricDmaWrite, Prog.bind_assoc]
      exact hsend _ _ rfl
    | raiseIrq =>
      refine ⟨0, ?_⟩
      simp only [Line.socketCall, Line.fabricRaiseIrq, Line.fabricLowerIrq, Prog.bind_assoc]
      exact hsend _ _ rfl
    | lowerIrq => exact ⟨0, hsend _ _ rfl⟩
    | dmaMap gpa len => exact ih false h
    | realloc | pread | preadMapped | pwrite | fsync | consoleWrite =>
      obtain ⟨n, hn⟩ := ih _ _
      exact ⟨n + 1, .own rfl (Nat.lt_succ_self n) hn⟩

/-- The daemon at the top of its loop. -/
theorem daemon_waits (dev : FabricDevice D) (host : H → (c : Call) → c.Reply × H) (d : D) :
    ∃ k, (daemonLine dev host).unfold (.ret (d, true)) = .call .recv k := by
  have hagain : (daemonLine dev host).again (d, true) = some (Line.recvAll (23 + 1) >>= _) :=
    congrArg some (readHeader_bind _)
  obtain ⟨k, hk, -⟩ := LineParty.unfold_waits hagain
  exact ⟨k, hk⟩

/-- QEMU in front of the daemon's next request. -/
theorem qemu_waits (valid : UInt64 → Nat → Bool) :
    ∃ k, (qemuLine valid).unfold (.ret .service) = .call .recv k ∧ k none = .fault none := by
  have hagain : (qemuLine valid).again .service = some (Line.recvAll (23 + 1) >>=
      Line.received none fun buf => Line.axiDispatch (AxiHeader.load buf)) := rfl
  exact LineParty.unfold_waits hagain

/-- The state has got to a point that decides how the access ends. -/
abbrev Decided (F : Finish (qemuLine valid) (daemonLine dev host))
    (t : Duplex (qemuLine valid).open (daemonLine dev host).open) : Prop :=
  ∃ m, Ends AxiCtl.done F m t

variable {F : Finish (qemuLine valid) (daemonLine dev host)} {cap : Option Nat}

/-- QEMU is about to hang up on a daemon that waits for a reply. -/
theorem hangUp_decided {lost : Option UInt64} (hv : .done lost = F.result) {s : QemuState}
    (hs : F.ok s) {n : Nat} {k : Option AxiHeader → DaemonLineM (D × Bool)} {h : H}
    (hk : Solo F.fate n (k none) [] h) :
    Converse cap (Decided F) (.fault lost) s (Line.readHeader >>= k) h := by
  rw [readHeader_bind, axiHeaderLen, Line.recvAll_succ_bind]
  exact ⟨[], _, .nil _, n, .hungUp rfl hv hs rfl hk⟩

/-- A call that fails: QEMU hangs up, and the device code goes on without it. -/
theorem failedCall_talks (hcap : cap ≠ some 0) {w : Direct H} {c : Call}
    (hc : Direct.answer valid host w c = none)
    (hshort : ∀ gpa data, c = .dmaWrite gpa data → data.length < UInt32.size)
    (hv : F.result = .done none) (hs : ∀ pads, F.ok ⟨w.guest, pads⟩)
    {k : c.Reply → DaemonLineM (D × Bool)} {n : Nat}
    (hk : Solo F.fate n (k (failedReply c)) [] w.host) (pads : Nat → UInt32) :
    Converse cap (Decided F) (.ret .service) ⟨w.guest, pads⟩ (Line.socketCall c >>= k) w.host := by
  cases c with
  | dmaReadInto gpa len =>
    have hbad : ¬rwOk valid gpa len.toNat = true := by
      intro hok
      simp [Direct.answer, hok] at hc
    have h0 : len ≠ 0 := by
      rintro rfl
      exact hbad (by simp [rwOk])
    have hd : Line.axiDispatch (.of .dmaRead gpa len) =
        Line.own (L := qemuSig) (.addressSpaceRead gpa len) >>= Line.axiReplyRead gpa len := by
      simp [Line.axiDispatch, AxiHeader.of, h0]
    simp only [Line.socketCall, Line.fabricDmaReadInto, Prog.bind_assoc]
    refine header_talks hcap _ ?_
    simp only [if_true, Prog.bind_assoc]
    rw [hd]
    refine Talks.ownLeft (P := qemuLine valid) (Q := daemonLine dev host) rfl ?_
    simp only [qemuLine, QemuState.answer, if_neg hbad]
    exact hangUp_decided hv.symm (hs pads) hk
  | dmaWrite gpa data =>
    have hlen := hshort gpa data rfl
    have hbad : ¬rwOk valid gpa data.length = true := by
      intro hok
      simp [Direct.answer, hok, hlen] at hc
    refine dmaWrite_sent hcap hlen ?_
    simp only [qemuLine, QemuState.answer, if_neg hbad]
    exact hangUp_decided hv.symm (hs pads) hk
  | dmaMap | raiseIrq | lowerIrq | realloc | pread | preadMapped | pwrite | fsync | consoleWrite => cases hc

/-- How a write ends whose callback is `callback`. -/
abbrev writeFinish (dev : FabricDevice D) (valid : UInt64 → Nat → Bool)
    (host : H → (c : Call) → c.Reply × H) (r : Backend D × Direct H) :
    Finish (qemuLine valid) (daemonLine dev host) :=
  Session.finish dev valid host ⟨none, r.2, r.1⟩

/-- The device code, call by call, up to its end or to the first call that
fails. -/
theorem callback_talks (hcap : cap ≠ some 0) {p : FabricM (D × Bool)} {w : Direct H}
    (hp : ShortRun host valid p w) (pads : Nat → UInt32) :
    Converse cap (Decided (writeFinish dev valid host (callback host valid p w))) (.ret .service)
      ⟨w.guest, pads⟩ (p.interp Line.socketCall >>= acknowledge) w.host := by
  obtain ⟨kq, hq, hnone⟩ := qemu_waits valid
  have hlost : ∀ (F : Finish (qemuLine valid) (daemonLine dev host)) (s : QemuState),
      .done none = F.result → F.ok s → Doomed AxiCtl.done F.result F.ok 0 (kq none) [] s :=
    fun F s hv hok => .fault (by rw [hnone]; rfl) hv hok
  induction p generalizing w pads with
  | ret r =>
    obtain ⟨d, ok⟩ := r
    cases ok with
    | true =>
      refine header_talks hcap _ ?_
      have hd : Line.axiDispatch (.of .error 0 0) = .ret (.done none) := by
        simp [Line.axiDispatch, AxiHeader.of]
      rw [hd]
      obtain ⟨kd, hkd⟩ := daemon_waits dev host d
      exact ⟨[], _, .nil _, 0, .done rfl hkd rfl⟩
    | false => exact ⟨[], _, .nil _, 0, .closed hq (hlost _ _ rfl rfl) rfl rfl⟩
  | fault e => exact ⟨[], _, .nil _, 0, .killed hq (hlost _ _ rfl rfl) rfl rfl⟩
  | call c k ih =>
    rw [Prog.interp, Prog.bind_assoc]
    cases hc : Direct.answer valid host w c with
    | some r =>
      obtain ⟨r, w'⟩ := r
      have hcb : callback host valid (.call c k) w = callback host valid (k r) w' := by
        simp only [callback, hc]
      rw [hcb]
      exact socketCall_talks hcap hc (fun pads => ih r (hp.2 r w' hc) pads) pads
    | none =>
      have hcb : callback host valid (.call c k) w =
          ((hungUp host (k (failedReply c)) w.host).1,
            { w with host := (hungUp host (k (failedReply c)) w.host).2 }) := by
        simp only [callback, hc]
      rw [hcb]
      obtain ⟨n, hn⟩ := hungUp_solo dev host (k (failedReply c)) w.host
      refine failedCall_talks hcap hc (fun gpa data he => ?_) rfl (fun pads => rfl) hn pads
      have := hp.1
      rw [he] at this
      exact this

/-! ## One access -/

theorem serveRequest_write_line {addr value : UInt64} {size : UInt32}
    (hin : accessInRange dev (.of .mmioWrite addr size) = true) (hsize : size ≤ 8) (d : D) :
    Line.serveRequest dev d (.of .mmioWrite addr size) =
      Line.recvAll (payload value size.toNat).length >>= fun
        | none => .ret (d, false)
        | some bs =>
          (dev.write d (deviceOffset dev addr) (payloadValue bs) size).interp Line.socketCall >>=
            acknowledge := by
  have h8 : ¬8 < size := UInt32.not_lt.2 hsize
  rw [payload_length value (UInt32.le_iff_toNat_le.1 hsize)]
  have hkind : AxiMsgKind.ofCode (AxiHeader.of .mmioWrite addr size).kind = some .mmioWrite := by
    simp [AxiHeader.of]
  have hread : Line.readValue (AxiHeader.of .mmioWrite addr size).length =
      Line.recvAll size.toNat >>= fun bs => .ret (bs.map payloadValue) := if_neg h8
  unfold Line.serveRequest
  rw [if_pos hin, hkind]
  dsimp only
  unfold Line.serveWrite
  rw [hread, Prog.bind_assoc]
  refine bind_congr fun bs => ?_
  cases bs with
  | none => rfl
  | some bs =>
    simp only [Prog.ret_bind, Option.map_some]
    refine bind_congr fun r => ?_
    obtain ⟨d', ok⟩ := r
    cases ok <;> rfl

theorem serveRequest_read_line {addr : UInt64} {size : UInt32}
    (hin : accessInRange dev (.of .mmioRead addr size) = true) (hsize : size ≤ 8) (d : D) :
    Line.serveRequest dev d (.of .mmioRead addr size) =
      Line.writeHeader (.of .mmioReadReply addr size) >>= fun ok =>
        if ok then
          Line.sendAll (payload (dev.read d (deviceOffset dev addr) size) size.toNat) >>= fun ok =>
            .ret (d, ok)
        else .ret (d, false) := by
  have hlen : (if size < 8 then size else 8) = size := by
    split
    · rfl
    · next h => exact UInt32.le_antisymm (UInt32.not_lt.1 h) hsize
  have hkind : AxiMsgKind.ofCode (AxiHeader.of .mmioRead addr size).kind = some .mmioRead := by
    simp [AxiHeader.of]
  have hlength : (AxiHeader.of .mmioRead addr size).length = size := rfl
  unfold Line.serveRequest
  rw [if_pos hin, hkind]
  dsimp only
  unfold Line.writeReadReply
  rw [Prog.bind_assoc, hlength, hlen]
  refine bind_congr fun ok => ?_
  cases ok <;> rfl

/-- QEMU's request reaches the daemon at the top of its loop. -/
theorem request_talks {T : Duplex (qemuLine valid).open (daemonLine dev host).open → Prop}
    (hcap : cap ≠ some 0) (lost : Option UInt64) (kind : AxiMsgKind) (addr : UInt64) (len : UInt32)
    {k : Unit → AxiLineM AxiCtl} {g : Guest} {d : D} {h : H}
    (ht : ∀ pads, Converse cap T (k ()) ⟨g, pads⟩ (Line.serveRequest dev d (.of kind addr len)) h)
    (pads : Nat → UInt32) :
    Converse cap T (Line.axiSendHeader lost kind addr len >>= k) ⟨g, pads⟩ (.ret (d, true)) h := by
  rw [axiSendHeader_bind]
  refine Talks.ownLeft (P := qemuLine valid) (Q := daemonLine dev host) rfl ?_
  have hagain : (daemonLine dev host).again (d, true) =
      some (Line.recvAll axiHeaderLen >>= fun buf =>
        Line.serveHeader dev d (buf.map AxiHeader.load)) :=
    congrArg some (readHeader_bind _)
  have hs := Talks.sendLeft_again (P := qemuLine valid) (Q := daemonLine dev host) hcap
    ((AxiHeader.of kind addr len).bytes_ne_nil (pads 0)) (k := fun ok => if ok then k () else .fault lost)
    (s := ⟨g, fun i => pads (i + 1)⟩) (h := h) (T := T) hagain
  simp only [Option.map_some, AxiHeader.load_bytes] at hs
  exact hs (ht _)

theorem read_talks (hcap : cap ≠ some 0) {addr : UInt64} {size : UInt32}
    (hin : accessInRange dev (.of .mmioRead addr size) = true) (hsize : size ≤ 8) {d : D}
    {w : Direct H} (pads : Nat → UInt32) :
    Converse cap (Decided (Session.finish dev valid host
        ⟨some (truncate (dev.read d (deviceOffset dev addr) size) size.toNat), w, .serving d⟩))
      (Line.axiRead addr size) ⟨w.guest, pads⟩ (.ret (d, true)) w.host := by
  refine request_talks hcap _ _ _ _ (fun pads => ?_) pads
  rw [serveRequest_read_line hin hsize]
  generalize dev.read d (deviceOffset dev addr) size = value
  have hlen : size.toNat ≤ 8 := UInt32.le_iff_toNat_le.1 hsize
  have hr : Line.axiReadReply (.of .mmioReadReply addr size) =
      Line.recvAll (payload value size.toNat).length >>= Line.received (some 0) fun bs =>
        .ret (.done (some (payloadValue bs))) := by
    rw [payload_length value hlen, Line.axiReadReply, if_neg (by simpa [AxiHeader.of] using hsize)]
    rfl
  refine Talks.sendRight (P := qemuLine valid) (Q := daemonLine dev host) hcap
    ((AxiHeader.of .mmioReadReply addr size).bytes 0)
    (k := Line.received (some 0) fun buf => Line.axiReadReply (AxiHeader.load buf)) ?_
  rw [Line.received_some, AxiHeader.load_bytes, hr]
  refine Talks.sendRight (P := qemuLine valid) (Q := daemonLine dev host) hcap _ ?_
  obtain ⟨k, hk⟩ := daemon_waits dev host d
  rw [Line.received_some, payloadValue_payload value hlen]
  exact ⟨[], _, .nil _, 0, .done rfl hk rfl⟩

theorem write_talks (hcap : cap ≠ some 0) {addr value : UInt64} {size : UInt32}
    (hin : accessInRange dev (.of .mmioWrite addr size) = true) (hsize : size ≤ 8) {d : D}
    {w : Direct H}
    (hshort : ShortRun host valid (dev.write d (deviceOffset dev addr) (truncate value size.toNat) size) w)
    (pads : Nat → UInt32) :
    Converse cap (Decided (writeFinish dev valid host (callback host valid
        (dev.write d (deviceOffset dev addr) (truncate value size.toNat) size) w)))
      (Line.axiWrite addr value size) ⟨w.guest, pads⟩ (.ret (d, true)) w.host := by
  refine request_talks hcap _ _ _ _ (fun pads => ?_) pads
  have hlen : size.toNat ≤ 8 := UInt32.le_iff_toNat_le.1 hsize
  rw [serveRequest_write_line hin hsize]
  refine Talks.sendLeft (P := qemuLine valid) (Q := daemonLine dev host) hcap (payload value size.toNat) ?_
  dsimp only
  rw [payloadValue_payload value hlen]
  exact callback_talks hcap hshort pads

/-- A header that may or may not be sent. -/
theorem header_doomed {v : AxiCtl} {ok : QemuState → Prop} {g : Guest} (hok : ∀ pads, ok ⟨g, pads⟩)
    {lost : Option UInt64} (hv : .done lost = v) (kind : AxiMsgKind) (addr : UInt64) (len : UInt32)
    {k : Unit → AxiLineM AxiCtl} {n : Nat}
    (hk : ∀ pads, Doomed (P := qemuLine valid) AxiCtl.done v ok n (k ()) [] ⟨g, pads⟩)
    (pads : Nat → UInt32) :
    ∃ m, Doomed (P := qemuLine valid) AxiCtl.done v ok m (Line.axiSendHeader lost kind addr len >>= k) []
      ⟨g, pads⟩ := by
  rw [axiSendHeader_bind]
  exact ⟨_, .own rfl (Nat.lt_succ_self _) (Doomed.sendAll (hk _) (.fault rfl hv (hok _)) _)⟩

/-- If nobody answers, the access is lost and the guest is as before. -/
theorem access_doomed (valid : UInt64 → Nat → Bool) (a : GuestAccess) {ok : QemuState → Prop}
    {g : Guest} (hok : ∀ pads, ok ⟨g, pads⟩) (pads : Nat → UInt32) :
    ∃ m, Doomed (P := qemuLine valid) AxiCtl.done (.done a.lost) ok m (Line.axiAccess a) [] ⟨g, pads⟩ := by
  cases a with
  | read addr size =>
    exact header_doomed hok rfl .mmioRead addr size
      (fun pads => Doomed.recvAll (by decide) (.fault (n := 0) rfl rfl (hok pads))) pads
  | write addr value size =>
    obtain ⟨k, hk, hnone⟩ := qemu_waits valid
    have hservice : ∀ pads, Doomed (P := qemuLine valid) AxiCtl.done (.done none) ok 1 (.ret .service) []
        ⟨g, pads⟩ :=
      fun pads => .eof hk Nat.one_pos (.fault (by rw [hnone]; rfl) rfl (hok pads))
    exact header_doomed hok rfl .mmioWrite addr size
      (fun pads => Doomed.sendAll (hservice pads) (.fault rfl rfl (hok pads)) _) pads

/-- What QEMU sends for an access, if it is not answered. -/
theorem access_says (valid : UInt64 → Nat → Bool) (a : GuestAccess) (g : Guest)
    (pads : Nat → UInt32) :
    ∃ kind rest, Says (P := qemuLine valid) ((AxiHeader.of kind a.addr a.size).bytes (pads 0) ++ rest)
      (Line.axiAccess a) ⟨g, pads⟩ := by
  cases a with
  | read addr size =>
    refine ⟨.mmioRead, [], ?_⟩
    simp only [Line.axiAccess, Line.axiRead, axiSendHeader_bind]
    exact .own rfl (Says.sendAll (Says.recvAll (by decide) _) _)
  | write addr value size =>
    obtain ⟨k, hk, -⟩ := qemu_waits valid
    refine ⟨.mmioWrite, payload value size.toNat ++ [], ?_⟩
    simp only [Line.axiAccess, Line.axiWrite, axiSendHeader_bind]
    exact .own rfl (Says.sendAll (Says.sendAll (.wait hk) _) _)

/-- A request outside the window: the daemon returns to `accept`. -/
theorem serveConnection_hears (host : H → (c : Call) → c.Reply × H) {hdr : AxiHeader}
    (hout : accessInRange dev hdr = false) (pad : UInt32) (rest : Bytes) (d : D) (h : H) :
    ∃ j, Hears (Q := daemonLine dev host) (d, false) h j (hdr.bytes pad ++ rest) (.ret (d, true)) h := by
  have hagain : (daemonLine dev host).again (d, true) =
      some (Line.recvAll (hdr.bytes pad).length >>= fun buf =>
        Line.serveHeader dev d (buf.map AxiHeader.load)) :=
    congrArg some (readHeader_bind _)
  refine ⟨_, Hears.recvAll_again (hdr.bytes_ne_nil pad) hagain (n := 0) (.stop ?_)⟩
  simp only [Option.map_some, AxiHeader.load_bytes, Line.serveHeader, Line.serveRequest, hout,
    Bool.false_eq_true, if_false]
  rfl

/-- The daemon's check, in plain terms. -/
theorem accessInRange_eq (hfits : dev.addr.toNat + dev.size.toNat < UInt64.size) {a : GuestAccess}
    (hsize : a.size ≤ 8) (kind : AxiMsgKind) :
    accessInRange dev (.of kind a.addr a.size) = inWindow dev a := by
  have hsum : (dev.addr + dev.size).toNat = dev.addr.toNat + dev.size.toNat := by
    rw [UInt64.toNat_add, Nat.mod_eq_of_lt hfits]
  have hle : a.addr ≤ dev.addr + dev.size ↔ a.addr.toNat ≤ dev.addr.toNat + dev.size.toNat := by
    rw [UInt64.le_iff_toNat_le, hsum]
  rw [Bool.eq_iff_iff]
  unfold accessInRange inWindow
  simp only [Bool.and_eq_true, decide_eq_true_eq]
  constructor
  · rintro ⟨⟨⟨-, h1⟩, h2⟩, h3⟩
    have h2 : a.addr ≤ dev.addr + dev.size := h2
    have h3 : a.size.toUInt64 ≤ dev.addr + dev.size - a.addr := h3
    rw [UInt64.le_iff_toNat_le, UInt64.toNat_sub_of_le _ _ h2, hsum, UInt32.toNat_toUInt64] at h3
    have := hle.1 h2
    exact ⟨h1, by omega⟩
  · rintro ⟨h1, h2⟩
    have h3 : a.addr ≤ dev.addr + dev.size := hle.2 (by omega)
    refine ⟨⟨⟨⟨rfl, hsize⟩, h1⟩, h3⟩, ?_⟩
    show a.size.toUInt64 ≤ dev.addr + dev.size - a.addr
    rw [UInt64.le_iff_toNat_le, UInt64.toNat_sub_of_le _ _ h3, hsum, UInt32.toNat_toUInt64]
    omega

end

/-! ## Every order of moves -/

section
variable {dev : FabricDevice D} {connect : D → D} {valid : UInt64 → Nat → Bool}
  {host : H → (c : Call) → c.Reply × H} {cap : Option Nat}

/-- An access to a daemon at the top of its loop. -/
theorem served_responds (hcap : cap ≠ some 0) (hfits : dev.addr.toNat + dev.size.toNat < UInt64.size)
    (hshort : ∀ d offset value len w, ShortRun host valid (dev.write d offset value len) w)
    (s : Session D H) (d : D) {a : GuestAccess} (hsize : a.size ≤ 8) {st : QemuState}
    (hst : st.guest = s.world.guest) :
    Responds AxiCtl.done cap ((s.served host valid dev d a).finish dev valid host) (accessRequest valid a) st
      (d, true) s.world.host := by
  obtain ⟨g, pads⟩ := st
  obtain rfl : g = s.world.guest := hst
  cases hin : inWindow dev a with
  | true =>
    -- in the window: the exchange is followed to where it is decided
    have hrange : ∀ kind, accessInRange dev (.of kind a.addr a.size) = true := fun kind =>
      (accessInRange_eq hfits hsize kind).trans hin
    left
    cases a with
    | read addr size =>
      obtain ⟨ls, t, hr, m, ht⟩ := read_talks hcap (hrange .mmioRead) hsize (d := d) (w := s.world) pads
      rw [Session.served, if_pos hin]
      exact ⟨ls, t, m, hr, ht⟩
    | write addr value size =>
      obtain ⟨ls, t, hr, m, ht⟩ := write_talks hcap (hrange .mmioWrite) hsize (hshort d _ _ _ s.world) pads
      rw [Session.served, if_pos hin]
      exact ⟨ls, t, m, hr, ht⟩
  | false =>
    right
    have hout : s.served host valid dev d a = { s with value := a.lost, daemon := .accepting d } := by
      unfold Session.served
      rw [if_neg (by simp [hin])]
    rw [hout]
    obtain ⟨kind, rest, hsay⟩ := access_says valid a s.world.guest pads
    obtain ⟨j, hhear⟩ := serveConnection_hears host ((accessInRange_eq hfits hsize kind).trans hin) (pads 0)
      rest d s.world.host
    have hok : ∀ pads, (Session.finish dev valid host { s with value := a.lost, daemon := .accepting d }).ok
        ⟨s.world.guest, pads⟩ := fun _ => rfl
    obtain ⟨m, hd⟩ := access_doomed valid a hok pads
    exact ⟨_, _, _, j, m, hsay, hhear, rfl, hd⟩

/-- An access leads from the end of one session to the end of the next. -/
theorem access_follows (hcap : cap ≠ some 0) (hfits : dev.addr.toNat + dev.size.toNat < UInt64.size)
    (hshort : ∀ d offset value len w, ShortRun host valid (dev.write d offset value len) w)
    (s : Session D H) {a : GuestAccess} (hsize : a.size ≤ 8) :
    Follows AxiCtl.done (greeting connect) cap (s.finish dev valid host)
      ((s.access host valid dev connect a).finish dev valid host) (accessRequest valid a) := by
  intro st hst
  unfold Session.access
  cases hd : s.daemon with
  | serving d =>
    simp only [Session.finish, Backend.fate, hd]
    exact served_responds hcap hfits hshort s d hsize hst
  | accepting d =>
    simp only [Session.finish, Backend.fate, hd]
    exact served_responds hcap hfits hshort s (connect d) hsize hst
  | dead =>
    simp only [Session.finish, Backend.fate, hd]
    obtain ⟨g, pads⟩ := st
    obtain rfl : g = s.world.guest := hst
    exact ⟨trivial, rfl, rfl, access_doomed valid a (fun _ => rfl) pads⟩

/-- The guest's accesses in a run. -/
def sessionAccesses (ls : List SessionAct) : List GuestAccess :=
  ls.filterMap fun
    | .access a => some a
    | .move _ => none

theorem session_track (hcap : cap ≠ some 0) (hfits : dev.addr.toNat + dev.size.toNat < UInt64.size)
    (hshort : ∀ d offset value len w, ShortRun host valid (dev.write d offset value len) w)
    {t t' : SessionNet dev valid host} {ls : List SessionAct}
    (hr : (sessionLts dev connect valid host cap).Run t ls t') {s : Session D H} {n : Nat}
    (ht : Track AxiCtl.done (greeting connect) cap (s.finish dev valid host) n t) :
    ∃ m, Track AxiCtl.done (greeting connect) cap
      (((sessionAccesses ls).foldl (Session.access host valid dev connect) s).finish dev valid host) m t' := by
  induction hr generalizing s n with
  | nil => exact ⟨n, ht⟩
  | @cons t t₁ t' l ls hs _ ih =>
    cases l with
    | access a =>
      obtain ⟨hsize, ⟨v, hv⟩, rfl⟩ := hs
      have h8 : a.size ≤ 8 := by
        simp only [List.mem_cons, List.not_mem_nil, or_false] at hsize
        rcases hsize with h | h | h | h <;> rw [h] <;> decide
      obtain ⟨m, hm⟩ := ht.request hv rfl (access_follows hcap hfits hshort s h8)
      exact ih hm
    | move side =>
      obtain ⟨m, -, hm⟩ := ht.move hs
      exact ih hm

theorem settled_of_resting {s : Session D H} {t : SessionNet dev valid host}
    (h : Resting (s.finish dev valid host) t) : Settled dev valid host s t := by
  obtain ⟨value, world, daemon⟩ := s
  cases h with
  | @up st a h k hst hq hf =>
    cases daemon with
    | serving d =>
      cases hf
      exact ⟨rfl, hst, rfl, rfl, rfl⟩
    | accepting d => cases hf
    | dead => cases hf
  | @off st srv h hst hg =>
    cases daemon with
    | serving d => cases hg
    | accepting d =>
      cases hg
      exact ⟨rfl, hst, rfl, rfl, rfl⟩
    | dead =>
      cases hg
      exact ⟨rfl, hst, rfl, rfl, rfl⟩

end

/-- **Sessions.** Take any run of the guest, QEMU and the daemon over a socket
that holds at least one byte, from a daemon that listens: accesses inside and
outside the window, callbacks that fail, DMA to memory the guest does not have.
The window ends below 2^64, and no DMA write of the device is of 2^32 bytes or
more.
From where the run has got to, the two processes cannot run on for ever, and
they come to rest as `Session.access` says of the accesses made, one after the
other; an access that has returned has returned that value, to that guest. -/
theorem session_settles (dev : FabricDevice D) (connect : D → D) (valid : UInt64 → Nat → Bool)
    (host : H → (c : Call) → c.Reply × H) (cap : Option Nat) (hcap : cap ≠ some 0)
    (hfits : dev.addr.toNat + dev.size.toNat < UInt64.size)
    (hshort : ∀ d offset value len w, ShortRun host valid (dev.write d offset value len) w) (d : D)
    (g : Guest) (h : H) (pads : Nat → UInt32) {ls : List SessionAct} {t : SessionNet dev valid host}
    (hr : (sessionLts dev connect valid host cap).Run (sessionStart dev valid host d g h pads) ls t) :
    let s := (sessionAccesses ls).foldl (Session.access host valid dev connect)
      ⟨none, ⟨g, h, []⟩, .accepting d⟩
    (∃ n, ∀ ks u, (sessionMoves dev connect valid host cap).Run t ks u →
      ks.length ≤ n ∧ ∃ js t', (sessionMoves dev connect valid host cap).Run u js t' ∧
        Settled dev valid host s t') ∧
    ∀ v, t.client = .ret (.done v) → v = s.value ∧ t.state.guest = s.world.guest := by
  intro s
  have hstart : Track AxiCtl.done (greeting connect) cap
      (Session.finish dev valid host ⟨none, ⟨g, h, []⟩, .accepting d⟩) 0
      (sessionStart dev valid host d g h pads) := .off rfl .down
  obtain ⟨n, htrack⟩ := session_track hcap hfits hshort hr hstart
  refine ⟨⟨n, fun ks u hk => ?_⟩, fun v hv => ?_⟩
  · obtain ⟨hlen, js, t', hj, hrest⟩ := htrack.settles hcap hk
    exact ⟨hlen, js, t', hj, settled_of_resting hrest⟩
  · obtain ⟨hval, hok⟩ := htrack.returned hv rfl
    exact ⟨AxiCtl.done.inj hval, hok⟩

/-- The device asks for memory the guest does not have: QEMU hangs up, and the
daemon is back at `accept`. -/
theorem session_settles_refused :
    ∃ t, (sessionLts copyDevice id (fun _ _ => false) (Ram.answer fun _ _ => false) (some 1)).Run
        (sessionStart _ _ _ () ⟨memOf [], false⟩ ⟨memOf [], memOf [], false, []⟩ fun _ => 0)
        [.access (.write 0x50 0 4)] t ∧
      ∀ ks u, (sessionMoves copyDevice id (fun _ _ => false) (Ram.answer fun _ _ => false) (some 1)).Run t ks u →
        ∃ js t', (sessionMoves copyDevice id (fun _ _ => false) (Ram.answer fun _ _ => false) (some 1)).Run u js t' ∧
          t'.client = .ret (.done none) ∧ t'.server = .accepting ((), false) ∧ t'.wire = .off := by
  have hshort : ∀ d offset value len w, ShortRun (Ram.answer fun _ _ => false) (fun _ _ => false)
      (copyDevice.write d offset value len) w :=
    fun _ _ _ _ w => ⟨trivial, fun r w' hc => by simp [Direct.answer, rwOk] at hc⟩
  have hr := LTS.Run.cons (M := sessionLts copyDevice id (fun _ _ => false) (Ram.answer fun _ _ => false) (some 1))
    (s := sessionStart _ _ _ () ⟨memOf [], false⟩ ⟨memOf [], memOf [], false, []⟩ fun _ => 0)
    (l := .access (.write 0x50 0 4)) ⟨by decide, ⟨none, rfl⟩, rfl⟩ (.nil _)
  obtain ⟨⟨n, hn⟩, -⟩ := session_settles copyDevice id (fun _ _ => false) (Ram.answer fun _ _ => false) (some 1)
    (by decide) (by decide) hshort () _ _ _ hr
  refine ⟨_, hr, fun ks u hk => ?_⟩
  obtain ⟨-, js, t', hj, ht⟩ := hn ks u hk
  exact ⟨js, t', hj, ht.value, ht.daemon.1, ht.daemon.2⟩

end AcsVirt.L3
