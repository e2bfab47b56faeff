import AcsVirt.L1Encoding.Endian

/-!
# AXI socket messages

A message is a header of 24 bytes and, for some kinds, a payload. The daemon
writes the header field by field and leaves the last four bytes zero; QEMU
writes its C struct, whose last four bytes are padding with any content. Both
agree on a little-endian host, which is assumed. `AxiHeader.load_bytes` is the
round trip, for any padding.

A register value travels as the first bytes of its little-endian form;
`payloadValue_payload` says what the other side makes of them.
-/
namespace AcsVirt.L1

/-- mirrors patches/qemu/0001-chiplets-qemu-support.patch:231-247 -/
inductive AxiMsgKind where
  | hello | memRegion | mmioRead | mmioReadReply | mmioWrite | irqAssert | irqDeassert
  | dmaRead | dmaReadReply | dmaWrite
  | frontendNotify | frontendIrqAssert | frontendIrqDeassert | frontendNotifyAck
  | error
  deriving DecidableEq, Repr

/-- mirrors patches/qemu/0001-chiplets-qemu-support.patch:231-247, src/fabrics/qemu_socket.c:15-23 -/
def AxiMsgKind.code : AxiMsgKind → UInt16
  | .hello => 1
  | .memRegion => 2
  | .mmioRead => 3
  | .mmioReadReply => 4
  | .mmioWrite => 5
  | .irqAssert => 6
  | .irqDeassert => 7
  | .dmaRead => 8
  | .dmaReadReply => 9
  | .dmaWrite => 10
  | .frontendNotify => 100
  | .frontendIrqAssert => 101
  | .frontendIrqDeassert => 102
  | .frontendNotifyAck => 103
  | .error => 0xffff

def AxiMsgKind.all : List AxiMsgKind :=
  [hello, memRegion, mmioRead, mmioReadReply, mmioWrite, irqAssert, irqDeassert, dmaRead, dmaReadReply,
    dmaWrite, frontendNotify, frontendIrqAssert, frontendIrqDeassert, frontendNotifyAck, error]

def AxiMsgKind.ofCode (c : UInt16) : Option AxiMsgKind := all.find? (·.code = c)

@[simp] theorem AxiMsgKind.ofCode_code (k : AxiMsgKind) : ofCode k.code = some k := by
  cases k <;> decide

/-- mirrors src/fabrics/qemu_socket.c:28-34, patches/qemu/0001-chiplets-qemu-support.patch:249-255 -/
structure AxiHeader where
  kind : UInt16
  flags : UInt16
  windowId : UInt32
  offset : UInt64
  length : UInt32
  deriving DecidableEq, Repr

def axiHeaderLen : Nat := 24

/-- Every sender leaves flags and window zero. -/
def AxiHeader.of (kind : AxiMsgKind) (offset : UInt64) (length : UInt32) : AxiHeader :=
  ⟨kind.code, 0, 0, offset, length⟩

/-- The bytes of a header; `pad` is what follows the last field.
mirrors src/fabrics/qemu_socket.c:161-169, patches/qemu/0001-chiplets-qemu-support.patch:249-255 -/
def AxiHeader.bytes (h : AxiHeader) (pad : UInt32) : Bytes :=
  virtioStoreLe16 h.kind ++ virtioStoreLe16 h.flags ++ virtioStoreLe32 h.windowId ++
    virtioStoreLe64 h.offset ++ virtioStoreLe32 h.length ++ virtioStoreLe32 pad

/-- mirrors src/fabrics/qemu_socket.c:140-152 -/
def AxiHeader.load (buf : Bytes) : AxiHeader where
  kind := virtioLoadLe16 buf
  flags := virtioLoadLe16 (buf.drop 2)
  windowId := virtioLoadLe32 (buf.drop 4)
  offset := virtioLoadLe64 (buf.drop 8)
  length := virtioLoadLe32 (buf.drop 16)

@[simp] theorem AxiHeader.bytes_length (h : AxiHeader) (pad : UInt32) :
    (h.bytes pad).length = axiHeaderLen := rfl

theorem AxiHeader.bytes_ne_nil (h : AxiHeader) (pad : UInt32) : h.bytes pad ≠ [] :=
  List.ne_nil_of_length_pos (by rw [h.bytes_length pad]; decide)

/-- A header is read as it was written, whatever the padding. -/
@[simp] theorem AxiHeader.load_bytes (h : AxiHeader) (pad : UInt32) : load (h.bytes pad) = h := by
  obtain ⟨kind, flags, windowId, offset, length⟩ := h
  have e1 : load (bytes ⟨kind, flags, windowId, offset, length⟩ pad) =
      ⟨virtioLoadLe16 (virtioStoreLe16 kind), virtioLoadLe16 (virtioStoreLe16 flags),
        virtioLoadLe32 (virtioStoreLe32 windowId), virtioLoadLe64 (virtioStoreLe64 offset),
        virtioLoadLe32 (virtioStoreLe32 length)⟩ := rfl
  rw [e1, virtioLoadLe16_store, virtioLoadLe16_store, virtioLoadLe32_store, virtioLoadLe64_store,
    virtioLoadLe32_store]

/-! ## Register values -/

/-- The first `len` bytes of a value.
mirrors src/fabrics/qemu_socket.c:192-193, patches/qemu/0001-chiplets-qemu-support.patch:779 -/
def payload (value : UInt64) (len : Nat) : Bytes := (virtioStoreLe64 value).take len

/-- A payload read into eight zero bytes.
mirrors src/fabrics/qemu_socket.c:205-212, patches/qemu/0001-chiplets-qemu-support.patch:740,761-765 -/
def payloadValue (bytes : Bytes) : UInt64 :=
  virtioLoadLe64 (bytes ++ List.replicate (8 - bytes.length) 0)

/-- A value cut to its first `len` bytes. -/
def truncate (value : UInt64) (len : Nat) : UInt64 := UInt64.ofNat (value.toNat % 256 ^ len)

theorem payload_eq (value : UInt64) {len : Nat} (h : len ≤ 8) :
    payload value len = leBytes len value.toNat := by
  rw [payload, virtioStoreLe64_eq, show (8 : Nat) = len + (8 - len) by omega, leBytes_add]
  exact List.take_left' (leBytes_length len _)

theorem payload_length (value : UInt64) {len : Nat} (h : len ≤ 8) :
    (payload value len).length = len := by
  rw [payload_eq value h, leBytes_length]

theorem leNat_zeros (n : Nat) : leNat (List.replicate n 0) = 0 := by
  induction n with
  | zero => rfl
  | succ n ih => simp [List.replicate_succ, leNat, ih]

/-- The other side gets the value cut to the bytes that were sent. -/
theorem payloadValue_payload (value : UInt64) {len : Nat} (h : len ≤ 8) :
    payloadValue (payload value len) = truncate value len := by
  apply UInt64.toNat_inj.mp
  have hlen := payload_length value h
  have hle : (payload value len ++ List.replicate (8 - (payload value len).length) 0).length = 8 := by
    rw [List.length_append, List.length_replicate, hlen]
    omega
  have hpow : 256 ^ len ≤ 256 ^ 8 := Nat.pow_le_pow_right (by decide) h
  have hlt : value.toNat % 256 ^ len < 256 ^ len := Nat.mod_lt _ (Nat.pow_pos (by decide))
  have hmod : value.toNat % 256 ^ len % 2 ^ 64 = value.toNat % 256 ^ len := Nat.mod_eq_of_lt (by omega)
  rw [payloadValue, virtioLoadLe64_toNat _ (by omega), List.take_of_length_le (by omega), leNat_append, leNat_zeros,
    payload_eq value h, leNat_leBytes, truncate, UInt64.toNat_ofNat', hmod, Nat.mul_zero,
    Nat.add_zero]

end AcsVirt.L1
