import AcsVirt.Core.Mem

/-!
# Little-endian loads and stores (`virtio.h`)

The C helpers assemble a value from single bytes with shifts and ors.
`qemu_socket.c` and `linux_uio.c` hold static copies of the same bodies.
Each is the generic codec of `Core.Mem` at its width (`virtioLoadLe16_toNat`,
`virtioStoreLe16_eq`, ...), which is what the proofs use.
-/
namespace AcsVirt.L1

/-- mirrors src/virtio.h:88-90 -/
def virtioLoadLe16 (p : Bytes) : UInt16 :=
  (p.getD 0 0).toUInt16 ||| (p.getD 1 0).toUInt16 <<< 8

/-- mirrors src/virtio.h:98-101 -/
def virtioLoadLe32 (p : Bytes) : UInt32 :=
  (p.getD 0 0).toUInt32 ||| (p.getD 1 0).toUInt32 <<< 8 ||| (p.getD 2 0).toUInt32 <<< 16 |||
    (p.getD 3 0).toUInt32 <<< 24

/-- mirrors src/virtio.h:109-112 -/
def virtioLoadLe64 (p : Bytes) : UInt64 :=
  (virtioLoadLe32 p).toUInt64 ||| (virtioLoadLe32 (p.drop 4)).toUInt64 <<< 32

/-- mirrors src/virtio.h:120-123 -/
def virtioStoreLe16 (v : UInt16) : Bytes := [(v &&& 0xff).toUInt8, (v >>> 8 &&& 0xff).toUInt8]

/-- mirrors src/virtio.h:131-136 -/
def virtioStoreLe32 (v : UInt32) : Bytes :=
  [(v &&& 0xff).toUInt8, (v >>> 8 &&& 0xff).toUInt8, (v >>> 16 &&& 0xff).toUInt8,
    (v >>> 24 &&& 0xff).toUInt8]

/-- mirrors src/virtio.h:144-147 -/
def virtioStoreLe64 (v : UInt64) : Bytes :=
  virtioStoreLe32 v.toUInt32 ++ virtioStoreLe32 (v >>> 32).toUInt32

/-! ## The shifts and ors are the codec -/

theorem or_shiftLeft (a b k : Nat) (h : a < 2 ^ k) : a ||| b <<< k = a + b * 2 ^ k := by
  rw [Nat.or_comm, ← Nat.shiftLeft_add_eq_or_of_lt h, Nat.shiftLeft_eq, Nat.add_comm]

theorem virtioLoadLe16_toNat (p : Bytes) (h : 2 ≤ p.length) :
    (virtioLoadLe16 p).toNat = leNat (p.take 2) := by
  match p, h with
  | a :: b :: rest, _ =>
    have ha := a.toNat_lt
    have hb := b.toNat_lt
    have e : b.toNat <<< 8 % 2 ^ 16 = b.toNat <<< 8 := by rw [Nat.shiftLeft_eq]; omega
    simp only [virtioLoadLe16, List.getD_cons_zero, List.getD_cons_succ, UInt16.toNat_or,
      UInt16.toNat_shiftLeft, UInt8.toNat_toUInt16, UInt16.reduceToNat, Nat.reduceMod, e,
      or_shiftLeft _ _ _ ha, leNat, List.take_succ_cons, List.take_zero]
    omega

theorem virtioLoadLe32_toNat (p : Bytes) (h : 4 ≤ p.length) :
    (virtioLoadLe32 p).toNat = leNat (p.take 4) := by
  match p, h with
  | a :: b :: c :: d :: rest, _ =>
    have ha := a.toNat_lt
    have hb := b.toNat_lt
    have hc := c.toNat_lt
    have hd := d.toNat_lt
    have e1 : b.toNat <<< 8 % 2 ^ 32 = b.toNat <<< 8 := by rw [Nat.shiftLeft_eq]; omega
    have e2 : c.toNat <<< 16 % 2 ^ 32 = c.toNat <<< 16 := by rw [Nat.shiftLeft_eq]; omega
    have e3 : d.toNat <<< 24 % 2 ^ 32 = d.toNat <<< 24 := by rw [Nat.shiftLeft_eq]; omega
    simp only [virtioLoadLe32, List.getD_cons_zero, List.getD_cons_succ, UInt32.toNat_or,
      UInt32.toNat_shiftLeft, UInt8.toNat_toUInt32, UInt32.reduceToNat, Nat.reduceMod, e1, e2, e3]
    rw [or_shiftLeft _ _ 8 ha, or_shiftLeft _ _ 16 (by omega), or_shiftLeft _ _ 24 (by omega)]
    simp only [leNat, List.take_succ_cons, List.take_zero]
    omega

theorem virtioLoadLe64_toNat (p : Bytes) (h : 8 ≤ p.length) :
    (virtioLoadLe64 p).toNat = leNat (p.take 8) := by
  have h1 := virtioLoadLe32_toNat p (by omega)
  have h2 := virtioLoadLe32_toNat (p.drop 4) (by simp; omega)
  have l1 := (virtioLoadLe32 p).toNat_lt
  have l2 := (virtioLoadLe32 (p.drop 4)).toNat_lt
  have e : p.take 8 = p.take 4 ++ (p.drop 4).take 4 := by
    rw [show (8 : Nat) = 4 + 4 from rfl, List.take_add]
  have e' : (virtioLoadLe32 (p.drop 4)).toNat <<< 32 % 2 ^ 64 =
      (virtioLoadLe32 (p.drop 4)).toNat <<< 32 := by rw [Nat.shiftLeft_eq]; omega
  rw [e, leNat_append, ← h1, ← h2, List.length_take, Nat.min_eq_left (by omega)]
  simp only [virtioLoadLe64, UInt64.toNat_or, UInt64.toNat_shiftLeft, UInt32.toNat_toUInt64,
    UInt64.reduceToNat, Nat.reduceMod, e', or_shiftLeft _ _ 32 l1]
  omega

theorem and_ff (n : Nat) : n &&& 255 = n % 256 := Nat.and_two_pow_sub_one_eq_mod n 8

theorem virtioStoreLe16_eq (v : UInt16) : virtioStoreLe16 v = leBytes 2 v.toNat := by
  simp only [virtioStoreLe16, leBytes]
  congr 1
  · apply UInt8.toNat_inj.mp
    simp [and_ff]
  · congr 1
    apply UInt8.toNat_inj.mp
    simp [and_ff, Nat.shiftRight_eq_div_pow]

theorem virtioStoreLe32_eq (v : UInt32) : virtioStoreLe32 v = leBytes 4 v.toNat := by
  simp only [virtioStoreLe32, leBytes]
  congr 1
  · apply UInt8.toNat_inj.mp
    simp [and_ff]
  congr 1
  · apply UInt8.toNat_inj.mp
    simp [and_ff, Nat.shiftRight_eq_div_pow]
  congr 1
  · apply UInt8.toNat_inj.mp
    simp [and_ff, Nat.shiftRight_eq_div_pow, Nat.div_div_eq_div_mul]
  · congr 1
    apply UInt8.toNat_inj.mp
    simp [and_ff, Nat.shiftRight_eq_div_pow, Nat.div_div_eq_div_mul]

theorem virtioStoreLe64_eq (v : UInt64) : virtioStoreLe64 v = leBytes 8 v.toNat := by
  have h32 : ∀ n : Nat, leBytes 4 (n % 4294967296) = leBytes 4 n := fun n => by
    simpa using leBytes_mod 4 n
  rw [virtioStoreLe64, virtioStoreLe32_eq, virtioStoreLe32_eq, show (8 : Nat) = 4 + 4 from rfl,
    leBytes_add]
  congr 1
  · simp [h32]
  · simp [h32, Nat.shiftRight_eq_div_pow]

/-- What was stored is what is loaded. -/
theorem virtioLoadLe16_store (v : UInt16) : virtioLoadLe16 (virtioStoreLe16 v) = v := by
  apply UInt16.toNat_inj.mp
  have hv := v.toNat_lt
  rw [virtioStoreLe16_eq, virtioLoadLe16_toNat _ (by simp), List.take_of_length_le (by simp),
    leNat_leBytes_of_lt (by simpa using hv)]

theorem virtioLoadLe32_store (v : UInt32) : virtioLoadLe32 (virtioStoreLe32 v) = v := by
  apply UInt32.toNat_inj.mp
  have hv := v.toNat_lt
  rw [virtioStoreLe32_eq, virtioLoadLe32_toNat _ (by simp), List.take_of_length_le (by simp),
    leNat_leBytes_of_lt (by simpa using hv)]

theorem virtioLoadLe64_store (v : UInt64) : virtioLoadLe64 (virtioStoreLe64 v) = v := by
  apply UInt64.toNat_inj.mp
  have hv := v.toNat_lt
  rw [virtioStoreLe64_eq, virtioLoadLe64_toNat _ (by simp), List.take_of_length_le (by simp),
    leNat_leBytes_of_lt (by simpa using hv)]

@[simp] theorem virtioStoreLe16_length (v : UInt16) : (virtioStoreLe16 v).length = 2 := rfl
@[simp] theorem virtioStoreLe32_length (v : UInt32) : (virtioStoreLe32 v).length = 4 := rfl
@[simp] theorem virtioStoreLe64_length (v : UInt64) : (virtioStoreLe64 v).length = 8 := rfl

end AcsVirt.L1
