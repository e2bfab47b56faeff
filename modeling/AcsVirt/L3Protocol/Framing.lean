import AcsVirt.Core.Pipe
import AcsVirt.L1Encoding.AxiMsg

/-!
# Message framing on the socket

A message is sent with `write_header` and then `io_all` for its payload, and
read with `read_header` and then `io_all` for as many bytes as the header
says. Nothing else marks where a message ends, so one byte lost or read twice
would shift all that follows. `socketLts` is the two loops on a stream, with
every call free to move fewer bytes than asked for or to be interrupted;
`framing_exact` says that the reader gets the list of messages that was sent.

The peer is QEMU, which sends and receives its C struct as it lies in memory.
`InMemory` is that layout by the C rules (fields in order, each at a multiple
of its size), and the 24 bytes of the daemon agree with it up to the padding
(`inMemory_iff`).
-/
namespace AcsVirt.L3

open L1

/-- A message whose header states the length of its payload. -/
structure AxiMsg where
  header : AxiHeader
  payload : Bytes
  length_eq : payload.length = header.length.toNat

/-- The buffers handed to `io_all`, one after the other.
mirrors src/fabrics/qemu_socket.c:161-169 and its callers, such as 572-579 -/
def sendBlocks (ms : List AxiMsg) : List Bytes := ms.flatMap fun m => [m.header.bytes 0, m.payload]

/-- mirrors src/fabrics/qemu_socket.c:140-152 -/
def readHeaderBlock : BlockM AxiHeader := do return AxiHeader.load (← readBlock axiHeaderLen)

/-- A header, and as many bytes as it says. -/
def readMessage : BlockM (AxiHeader × Bytes) := do
  let h ← readHeaderBlock
  let payload ← readBlock h.length.toNat
  return (h, payload)

def readMessages : Nat → BlockM (List (AxiHeader × Bytes))
  | 0 => return []
  | n + 1 => do
    let m ← readMessage
    let ms ← readMessages n
    return m :: ms

/-- The sender and the receiver of a list of messages. -/
def socketLts (ms : List AxiMsg) : LTS (Pipe (List (AxiHeader × Bytes))) Pipe.Event :=
  Pipe.lts (sendBlocks ms) (readMessages ms.length)

/-! ## The reader on the whole stream -/

theorem feed_readHeaderBlock (h : AxiHeader) (pad : UInt32) (s : Bytes) :
    feed readHeaderBlock (h.bytes pad ++ s) = some (h, s) := by
  have hlen : axiHeaderLen = (h.bytes pad).length := (h.bytes_length pad).symm
  rw [readHeaderBlock, feed_bind, feed_readBlock (by rw [List.length_append, ← hlen]; omega), hlen, List.take_left,
    List.drop_left]
  simp only [Option.bind_some, AxiHeader.load_bytes]
  rfl

theorem feed_readMessage (m : AxiMsg) (s : Bytes) :
    feed readMessage (m.header.bytes 0 ++ (m.payload ++ s)) = some ((m.header, m.payload), s) := by
  rw [readMessage, feed_bind, feed_readHeaderBlock]
  simp only [Option.bind_some]
  rw [feed_bind, ← m.length_eq, feed_readBlock (by simp), List.take_left, List.drop_left]
  rfl

theorem sendBlocks_cons (m : AxiMsg) (ms : List AxiMsg) :
    (sendBlocks (m :: ms)).flatten = m.header.bytes 0 ++ (m.payload ++ (sendBlocks ms).flatten) := by
  simp only [sendBlocks, List.flatMap_cons, List.flatten_append, List.flatten_cons, List.flatten_nil, List.append_nil,
    List.append_assoc]

theorem feed_readMessages (ms : List AxiMsg) :
    feed (readMessages ms.length) (sendBlocks ms).flatten = some (ms.map fun m => (m.header, m.payload), []) := by
  induction ms with
  | nil => rfl
  | cons m ms ih =>
    rw [List.length_cons, readMessages, sendBlocks_cons, feed_bind, feed_readMessage]
    simp only [Option.bind_some]
    rw [feed_bind, ih]
    rfl

/-! ## The struct of the peer -/

def alignUp (n a : Nat) : Nat := (n + a - 1) / a * a

/-- Offsets of fields of the given sizes, each aligned to its size. -/
def fieldOffsets : Nat → List Nat → List Nat
  | _, [] => []
  | n, w :: ws => alignUp n w :: fieldOffsets (alignUp n w + w) ws

/-- Sizes and values of the fields.
mirrors patches/qemu/0001-chiplets-qemu-support.patch:249-255 -/
def structFields (h : AxiHeader) : List (Nat × Nat) :=
  [(2, h.kind.toNat), (2, h.flags.toNat), (4, h.windowId.toNat), (8, h.offset.toNat), (4, h.length.toNat)]

/-- The bytes of a struct on a little-endian host; those between and after the
fields are free. -/
def InMemory (img : Bytes) (fields : List (Nat × Nat)) : Prop :=
  ∀ f ∈ (fieldOffsets 0 (fields.map Prod.fst)).zip fields, (img.drop f.1).take f.2.1 = leBytes f.2.1 f.2.2

/-- The fields of the header, at the offsets the struct has them. -/
theorem inMemory_header (h : AxiHeader) (img : Bytes) : InMemory img (structFields h) ↔
    img.take 2 = leBytes 2 h.kind.toNat ∧ (img.drop 2).take 2 = leBytes 2 h.flags.toNat ∧
      (img.drop 4).take 4 = leBytes 4 h.windowId.toNat ∧ (img.drop 8).take 8 = leBytes 8 h.offset.toNat ∧
      (img.drop 16).take 4 = leBytes 4 h.length.toNat := by
  have hoff : fieldOffsets 0 ((structFields h).map Prod.fst) = [0, 2, 4, 8, 16] := by
    change fieldOffsets 0 [2, 2, 4, 8, 4] = _
    decide
  rw [InMemory, hoff]
  simp only [structFields, List.zip_cons_cons, List.zip_nil_left, List.forall_mem_cons, List.drop_zero,
    List.not_mem_nil, false_implies, implies_true, and_true]

theorem take_fields (img : Bytes) :
    img.take 20 = img.take 2 ++ ((img.drop 2).take 2 ++ ((img.drop 4).take 4 ++
    ((img.drop 8).take 8 ++ (img.drop 16).take 4))) := by
  rw [show 20 = 2 + (2 + (4 + (8 + 4))) from rfl, List.take_add, List.take_add, List.take_add, List.take_add]
  simp only [List.drop_drop]

theorem header_fields (h : AxiHeader) :
    (h.bytes 0).take 20 = leBytes 2 h.kind.toNat ++ (leBytes 2 h.flags.toNat ++
    (leBytes 4 h.windowId.toNat ++ (leBytes 8 h.offset.toNat ++ leBytes 4 h.length.toNat))) := by
  rw [← virtioStoreLe16_eq, ← virtioStoreLe16_eq, ← virtioStoreLe32_eq, ← virtioStoreLe64_eq, ← virtioStoreLe32_eq]
  rfl

/-- The daemon's bytes are the struct, up to the padding. -/
theorem inMemory_iff (h : AxiHeader) (img : Bytes) (hlen : img.length = axiHeaderLen) :
    InMemory img (structFields h) ↔ img.take 20 = (h.bytes 0).take 20 := by
  have hlen24 : img.length = 24 := hlen
  rw [inMemory_header, take_fields img, header_fields]
  constructor
  · intro hf
    rw [hf.1, hf.2.1, hf.2.2.1, hf.2.2.2.1, hf.2.2.2.2]
  · intro hf
    obtain ⟨h1, hf⟩ := List.append_inj hf (by simp [leBytes_length, hlen24])
    obtain ⟨h2, hf⟩ := List.append_inj hf (by simp [leBytes_length, hlen24])
    obtain ⟨h3, hf⟩ := List.append_inj hf (by simp [leBytes_length, hlen24])
    obtain ⟨h4, h5⟩ := List.append_inj hf (by simp [leBytes_length, hlen24])
    exact ⟨h1, h2, h3, h4, h5⟩

/-! ## The system -/

/-- **Framing survives fragmentation.** However the transfers are cut,
interrupted and interleaved: when the reader returns it has the messages that
were sent, with nothing unread or unsent; as long as it has not, something can
be transferred, and every transfer brings the end nearer. And a header on the
wire is the peer's struct, up to the padding. -/
theorem framing_exact (ms : List AxiMsg) :
    (∀ s, (socketLts ms).Reachable s →
      (∀ got, s.code = .ret got →
        got = ms.map (fun m => (m.header, m.payload)) ∧ s.channel = [] ∧ s.unsent = []) ∧
      ((∀ e s', e.Moves → ¬(socketLts ms).step s e s') → ∃ got, s.code = .ret got) ∧
      ∀ e s', e.Moves → (socketLts ms).step s e s' → s'.weight < s.weight) ∧
    ∀ (h : AxiHeader) (img : Bytes), img.length = axiHeaderLen →
      (InMemory img (structFields h) ↔ img.take 20 = (h.bytes 0).take 20) := by
  refine ⟨fun s hs => ?_, inMemory_iff⟩
  have hinv := (Pipe.inv_inductive (feed_readMessages ms)).reachable s hs
  exact ⟨fun got hret => Pipe.delivers hinv hret, fun hstuck => ⟨_, Pipe.progress hinv hstuck⟩,
    fun e s' he hstep => Pipe.step_lt hstep he⟩

end AcsVirt.L3
