import AcsVirt.L2Machine.LinuxUio

/-!
# The DMA resource of the UIO fabric

`linux_uio.c` maps the frontend's RAM as its second resource and reaches guest
address `gpa` at offset `gpa - dma_base` of the mapping. Here the mapping is
what the daemon has: a base, a size and bytes by offset, with the memory around
the mapping still there, so that an access past the end would show.

`dmaOffset_eq_some` turns the check, made with 64-bit differences, into the
comparison of unbounded integers it stands for. From it the three calls are an
exact bounded memory (`uio_dma_exact`), and `UioFabric.answer`, the fabric the
devices are verified over, is the same memory by guest address
(`answer_dmaReadInto`, `answer_dmaMap`, `answer_dmaWrite`).
-/
namespace AcsVirt.L2

/-- mirrors src/fabrics/linux_uio.c:29-41; `mem` is by offset from the mapped address. -/
structure DmaAperture where
  dmaBase : UInt64
  size : UInt64
  mem : Mem

/-- A source buffer of `len` bytes. -/
structure Payload where
  len : UInt32
  bytes : Bytes
  length_eq : bytes.length = len.toNat

namespace DmaAperture

variable (a : DmaAperture) (gpa : UInt64) (len : UInt32) (p : Payload)

/-- mirrors src/fabrics/linux_uio.c:176-182 -/
def dmaOffset : Option UInt64 :=
  if gpa < a.dmaBase then none
  else
    let offset := gpa - a.dmaBase
    if offset ≤ a.size && len.toUInt64 ≤ a.size - offset then some offset else none

/-- mirrors src/fabrics/linux_uio.c:603-616 -/
def fabricDmaReadInto : Option Bytes :=
  if len = 0 then some []
  else
    match a.dmaOffset gpa len with
    | none => none
    | some offset => some (readBytes a.mem offset.toNat len.toNat)

/-- Whether the call succeeds, and the pointer it leaves: an offset into the
mapping, or `NULL`.
mirrors src/fabrics/linux_uio.c:627-641 -/
def fabricDmaMap : Bool × Option UInt64 :=
  if len = 0 then (true, none)
  else
    match a.dmaOffset gpa len with
    | none => (false, none)
    | some offset => (true, some offset)

/-- mirrors src/fabrics/linux_uio.c:677-690 -/
def fabricDmaWrite : Bool × DmaAperture :=
  if p.len = 0 then (true, a)
  else
    match a.dmaOffset gpa p.len with
    | none => (false, a)
    | some offset => (true, { a with mem := writeBytes a.mem offset.toNat p.bytes })

/-! ## The check -/

/-- The range lies in the resource, over unbounded integers. -/
def Covers : Prop :=
  a.dmaBase.toNat ≤ gpa.toNat ∧ gpa.toNat + len.toNat ≤ a.dmaBase.toNat + a.size.toNat

instance : Decidable (a.Covers gpa len) := inferInstanceAs (Decidable (_ ∧ _))

variable {a gpa len p}

theorem dmaOffset_eq_some {offset : UInt64} :
    a.dmaOffset gpa len = some offset ↔ a.Covers gpa len ∧ offset.toNat = gpa.toNat - a.dmaBase.toNat := by
  unfold dmaOffset Covers
  by_cases hlow : gpa < a.dmaBase
  · have h := UInt64.lt_iff_toNat_lt.1 hlow
    simp only [if_pos hlow]
    simp only [reduceCtorEq, false_iff]
    omega
  · have hbase : a.dmaBase ≤ gpa := UInt64.not_lt.1 hlow
    have hoff := UInt64.toNat_sub_of_le _ _ hbase
    have hle := UInt64.le_iff_toNat_le.1 hbase
    simp only [if_neg hlow]
    by_cases hsize : gpa - a.dmaBase ≤ a.size
    · have hrest := UInt64.toNat_sub_of_le _ _ hsize
      have hin := UInt64.le_iff_toNat_le.1 hsize
      simp only [hsize, UInt64.le_iff_toNat_le, UInt32.toNat_toUInt64, hrest, hoff, decide_true, Bool.true_and,
        decide_eq_true_eq]
      split
      next hfit =>
        simp only [Option.some.injEq, ← UInt64.toNat_inj, hoff]
        omega
      next hfit =>
        simp only [reduceCtorEq, false_iff]
        omega
    · have hin := UInt64.lt_iff_toNat_lt.1 (UInt64.not_le.1 hsize)
      simp only [hsize, decide_false, Bool.false_and, Bool.false_eq_true, if_false, reduceCtorEq, false_iff]
      omega

theorem dmaOffset_eq_none : a.dmaOffset gpa len = none ↔ ¬a.Covers gpa len := by
  constructor
  · intro h hc
    have hlt : gpa.toNat - a.dmaBase.toNat < 2 ^ 64 := by
      have := gpa.toNat_lt
      omega
    have hs : a.dmaOffset gpa len = some (UInt64.ofNat (gpa.toNat - a.dmaBase.toNat)) :=
      dmaOffset_eq_some.2 ⟨hc, UInt64.toNat_ofNat_of_lt' hlt⟩
    rw [h] at hs
    cases hs
  · intro hc
    cases h : a.dmaOffset gpa len with
    | none => rfl
    | some offset => exact absurd (dmaOffset_eq_some.1 h).1 hc

/-! ## The calls -/

/-- What the three calls accept. -/
def Accepts (a : DmaAperture) (gpa : UInt64) (len : UInt32) : Prop := len = 0 ∨ a.Covers gpa len

instance : Decidable (a.Accepts gpa len) := inferInstanceAs (Decidable (_ ∨ _))

theorem fabricDmaReadInto_eq : a.fabricDmaReadInto gpa len =
    if a.Accepts gpa len then some (readBytes a.mem (gpa.toNat - a.dmaBase.toNat) len.toNat) else none := by
  unfold fabricDmaReadInto Accepts
  by_cases hz : len = 0
  · simp [hz]
  · cases h : a.dmaOffset gpa len with
    | none => simp [hz, dmaOffset_eq_none.1 h]
    | some offset =>
      obtain ⟨hc, ho⟩ := dmaOffset_eq_some.1 h
      simp [hz, hc, ho]

theorem fabricDmaMap_eq : a.fabricDmaMap gpa len =
    (decide (a.Accepts gpa len), if len = 0 then none else a.dmaOffset gpa len) := by
  unfold fabricDmaMap Accepts
  by_cases hz : len = 0
  · simp [hz]
  · cases h : a.dmaOffset gpa len with
    | none => simp [hz, dmaOffset_eq_none.1 h]
    | some offset => simp [hz, (dmaOffset_eq_some.1 h).1]

theorem Payload.bytes_eq_nil (h : p.len = 0) : p.bytes = [] :=
  List.eq_nil_of_length_eq_zero (by rw [p.length_eq, h]; rfl)

theorem fabricDmaWrite_eq : a.fabricDmaWrite gpa p =
    if a.Accepts gpa p.len then (true, { a with mem := writeBytes a.mem (gpa.toNat - a.dmaBase.toNat) p.bytes })
    else (false, a) := by
  unfold fabricDmaWrite Accepts
  by_cases hz : p.len = 0
  · simp [hz, Payload.bytes_eq_nil hz]
  · cases h : a.dmaOffset gpa p.len with
    | none => simp [hz, dmaOffset_eq_none.1 h]
    | some offset =>
      obtain ⟨hc, ho⟩ := dmaOffset_eq_some.1 h
      simp [hz, hc, ho]

/-! ## Runs -/

inductive Op where
  | readInto (gpa : UInt64) (len : UInt32)
  | map (gpa : UInt64) (len : UInt32)
  | write (gpa : UInt64) (p : Payload)

/-- The resource after a call. -/
def after (a : DmaAperture) : Op → DmaAperture
  | .readInto _ _ => a
  | .map _ _ => a
  | .write gpa p => (a.fabricDmaWrite gpa p).2

def run : DmaAperture → List Op → DmaAperture
  | a, [] => a
  | a, op :: ops => run (a.after op) ops

/-- The blocks that the successful writes of a run store, by guest address. -/
def stores (a : DmaAperture) : List Op → List (Nat × Bytes)
  | [] => []
  | .write gpa p :: ops =>
    if (a.fabricDmaWrite gpa p).1 then (gpa.toNat, p.bytes) :: stores a ops else stores a ops
  | _ :: ops => stores a ops

theorem after_bounds (a : DmaAperture) (op : Op) :
    (a.after op).dmaBase = a.dmaBase ∧ (a.after op).size = a.size := by
  cases op with
  | readInto gpa len => exact ⟨rfl, rfl⟩
  | map gpa len => exact ⟨rfl, rfl⟩
  | write gpa p =>
    rw [after, fabricDmaWrite_eq]
    split <;> exact ⟨rfl, rfl⟩

theorem run_bounds (a : DmaAperture) (ops : List Op) :
    (a.run ops).dmaBase = a.dmaBase ∧ (a.run ops).size = a.size := by
  induction ops generalizing a with
  | nil => exact ⟨rfl, rfl⟩
  | cons op ops ih =>
    obtain ⟨hb, hs⟩ := after_bounds a op
    rw [run, (ih _).1, (ih _).2]
    exact ⟨hb, hs⟩

/-- What is accepted is decided by the bounds alone. -/
theorem accepts_congr {b : DmaAperture} (hb : b.dmaBase = a.dmaBase) (hs : b.size = a.size) :
    b.Accepts gpa len ↔ a.Accepts gpa len := by
  unfold Accepts Covers
  rw [hb, hs]

theorem stores_congr {b : DmaAperture} (hb : b.dmaBase = a.dmaBase) (hs : b.size = a.size)
    (ops : List Op) :
    b.stores ops = a.stores ops := by
  induction ops with
  | nil => rfl
  | cons op ops ih =>
    cases op with
    | readInto gpa len => exact ih
    | map gpa len => exact ih
    | write gpa p =>
      have h : (b.fabricDmaWrite gpa p).1 = (a.fabricDmaWrite gpa p).1 := by
        rw [fabricDmaWrite_eq, fabricDmaWrite_eq]
        by_cases hc : a.Accepts gpa p.len
        · rw [if_pos hc, if_pos ((accepts_congr hb hs).2 hc)]
        · rw [if_neg hc, if_neg fun h => hc ((accepts_congr hb hs).1 h)]
      rw [stores, stores, h, ih]

/-- The resource by guest address: from `dmaBase` on, the mapped bytes. -/
def guest (a : DmaAperture) : Mem := fun x => a.mem (x - a.dmaBase.toNat)

theorem stores_cons (a : DmaAperture) (op : Op) (ops : List Op) :
    a.stores (op :: ops) = a.stores [op] ++ a.stores ops := by
  cases op with
  | readInto gpa len => rfl
  | map gpa len => rfl
  | write gpa p =>
    simp only [stores]
    split <;> rfl

theorem guest_after (a : DmaAperture) (op : Op) {x : Nat} (hx : a.dmaBase.toNat ≤ x) :
    (a.after op).guest x = (lastStored (a.stores [op]) x).getD (a.guest x) := by
  rw [← writeAll_apply]
  cases op with
  | readInto gpa len => rfl
  | map gpa len => rfl
  | write gpa p =>
    simp only [after, stores, fabricDmaWrite_eq]
    by_cases hc : a.Accepts gpa p.len
    · simp only [if_pos hc, if_true, writeAll, guest]
      rcases hc with hz | hc
      · rw [Payload.bytes_eq_nil hz, writeBytes_nil, writeBytes_nil]
        rfl
      · have hbase := hc.1
        simp only [writeBytes, guest, Nat.sub_sub_sub_cancel_right hbase, Nat.sub_le_sub_iff_right hx]
    · simp only [if_neg hc, Bool.false_eq_true, if_false, writeAll]

/-- After any calls a guest address holds the byte last stored there. -/
theorem guest_run (a : DmaAperture) (ops : List Op) {x : Nat} (hx : a.dmaBase.toNat ≤ x) :
    (a.run ops).guest x = (lastStored (a.stores ops) x).getD (a.guest x) := by
  induction ops generalizing a with
  | nil => rfl
  | cons op ops ih =>
    obtain ⟨hb, hs⟩ := after_bounds a op
    rw [run, ih (a.after op) (by rw [hb]; exact hx), stores_congr hb hs, guest_after a op hx, stores_cons a op ops,
      lastStored_append]
    cases lastStored (a.stores ops) x <;> rfl

theorem readBytes_guest (h : a.Covers gpa len) :
    readBytes a.mem (gpa.toNat - a.dmaBase.toNat) len.toNat = readBytes a.guest gpa.toNat len.toNat := by
  apply List.map_congr_left
  intro i _
  have := h.1
  simp only [guest]
  congr 1
  omega

/-- A read after any calls returns, byte for byte, what was last written. -/
theorem readInto_run {ops : List Op} {bs : Bytes}
    (h : (a.run ops).fabricDmaReadInto gpa len = some bs) {i : Nat} (hi : i < len.toNat) :
    bs[i]? = some ((lastStored (a.stores ops) (gpa.toNat + i)).getD (a.guest (gpa.toNat + i))) := by
  obtain ⟨hb, hs⟩ := run_bounds a ops
  rw [fabricDmaReadInto_eq] at h
  split at h
  next hacc =>
    rcases hacc with hz | hc
    · rw [hz] at hi
      exact absurd hi (Nat.not_lt_zero i)
    · have hbase : a.dmaBase.toNat ≤ gpa.toNat + i := by
        have := hc.1
        rw [hb] at this
        omega
      rw [← Option.some.inj h, readBytes_guest hc, readBytes_getElem? _ _ _ _ hi, guest_run a ops hbase]
  · cases h

end DmaAperture

open DmaAperture in
/-- **Exact bounded memory.** The three calls succeed exactly on empty ranges
and on ranges inside the resource; a read returns the bytes at `gpa - dmaBase`,
a write replaces exactly those, a failed write none; and after any calls a read
returns, byte for byte, what was last written. -/
theorem uio_dma_exact (a : DmaAperture) (gpa : UInt64) (len : UInt32) :
    (((a.fabricDmaReadInto gpa len).isSome = true ↔ a.Accepts gpa len) ∧
      ((a.fabricDmaMap gpa len).1 = true ↔ a.Accepts gpa len) ∧
      ∀ p : Payload, (a.fabricDmaWrite gpa p).1 = true ↔ a.Accepts gpa p.len) ∧
    (∀ bs, a.fabricDmaReadInto gpa len = some bs →
      bs = readBytes a.mem (gpa.toNat - a.dmaBase.toNat) len.toNat) ∧
    (∀ offset, (a.fabricDmaMap gpa len).2 = some offset → offset.toNat = gpa.toNat - a.dmaBase.toNat) ∧
    (∀ p : Payload, (a.fabricDmaWrite gpa p).1 = true → (a.fabricDmaWrite gpa p).2 =
      { a with mem := writeBytes a.mem (gpa.toNat - a.dmaBase.toNat) p.bytes }) ∧
    (∀ p : Payload, (a.fabricDmaWrite gpa p).1 = false → (a.fabricDmaWrite gpa p).2 = a) ∧
    ∀ ops bs, (a.run ops).fabricDmaReadInto gpa len = some bs → ∀ i < len.toNat,
      bs[i]? = some ((lastStored (a.stores ops) (gpa.toNat + i)).getD (a.guest (gpa.toNat + i))) := by
  refine ⟨⟨?_, ?_, fun p => ?_⟩, fun bs h => ?_, fun offset h => ?_, fun p h => ?_, fun p h => ?_,
    fun ops bs h i hi => readInto_run h hi⟩
  · rw [fabricDmaReadInto_eq]
    split <;> simp [*]
  · rw [fabricDmaMap_eq, decide_eq_true_eq]
  · rw [fabricDmaWrite_eq]
    split <;> simp [*]
  · rw [fabricDmaReadInto_eq] at h
    split at h
    · exact (Option.some.inj h).symm
    · cases h
  · rw [fabricDmaMap_eq] at h
    split at h
    · cases h
    · exact (dmaOffset_eq_some.1 h).2
  · rw [fabricDmaWrite_eq] at h ⊢
    split at h
    next hc => rw [if_pos hc]
    · cases h
  · rw [fabricDmaWrite_eq] at h ⊢
    split at h
    · cases h
    next hc => rw [if_neg hc]

/-! ## The fabric of the devices -/

/-- The resource behind the fabric. -/
def UioFabric.aperture (f : UioFabric) : DmaAperture :=
  ⟨f.dmaBase, f.dmaSize, fun o => f.ram.mem (f.dmaBase.toNat + o)⟩

theorem UioFabric.dmaOffset_eq (f : UioFabric) (gpa : UInt64) (len : UInt32) :
    f.dmaOffset gpa len = (f.aperture.dmaOffset gpa len).isSome := by
  have e : f.aperture.dmaOffset gpa len = if gpa < f.dmaBase then none else
      if gpa - f.dmaBase ≤ f.dmaSize && len.toUInt64 ≤ f.dmaSize - (gpa - f.dmaBase) then some (gpa - f.dmaBase)
      else none := rfl
  rw [e, UioFabric.dmaOffset]
  by_cases hlow : gpa < f.dmaBase
  · simp [hlow, UInt64.not_le.2 hlow]
  · simp only [UInt64.not_lt.1 hlow, hlow, decide_true, Bool.true_and, if_false]
    split <;> simp_all

theorem UioFabric.answer_dmaReadInto (f : UioFabric) (gpa : UInt64) (len : UInt32) :
    f.answer (.dmaReadInto gpa len) = (f.aperture.fabricDmaReadInto gpa len, f) := by
  simp only [UioFabric.answer, DmaAperture.fabricDmaReadInto, f.dmaOffset_eq]
  by_cases hz : len = 0
  · simp [hz]
  · cases h : f.aperture.dmaOffset gpa len with
    | none => simp [hz]
    | some offset =>
      obtain ⟨hc, ho⟩ := DmaAperture.dmaOffset_eq_some.1 h
      have e : readBytes f.aperture.mem offset.toNat len.toNat = readBytes f.ram.mem gpa.toNat len.toNat := by
        apply List.map_congr_left
        intro i _
        have hbase : f.dmaBase.toNat ≤ gpa.toNat := hc.1
        simp only [ho, UioFabric.aperture]
        congr 1
        omega
      simp [hz, e]

theorem UioFabric.answer_dmaMap (f : UioFabric) (gpa : UInt64) (len : UInt32) :
    f.answer (.dmaMap gpa len) = ((f.aperture.fabricDmaMap gpa len).1, f) := by
  simp only [UioFabric.answer, DmaAperture.fabricDmaMap, f.dmaOffset_eq]
  by_cases hz : len = 0
  · simp [hz]
  · cases h : f.aperture.dmaOffset gpa len <;> simp [hz]

theorem UioFabric.answer_dmaWrite (f : UioFabric) (gpa : UInt64) (p : Payload) :
    (f.answer (.dmaWrite gpa p.bytes)).1 = (f.aperture.fabricDmaWrite gpa p).1 ∧
      (f.answer (.dmaWrite gpa p.bytes)).2.aperture = (f.aperture.fabricDmaWrite gpa p).2 := by
  have hlen : UInt32.ofNat p.bytes.length = p.len := by rw [p.length_eq, UInt32.ofNat_toNat]
  have hzero : p.bytes.length = 0 ↔ p.len = 0 := by
    rw [p.length_eq]
    exact ⟨fun h => UInt32.toNat_inj.1 h, fun h => by rw [h]; rfl⟩
  simp only [UioFabric.answer, DmaAperture.fabricDmaWrite, f.dmaOffset_eq, hlen, hzero]
  by_cases hz : p.len = 0
  · simp [hz]
  · cases h : f.aperture.dmaOffset gpa p.len with
    | none => simp [hz]
    | some offset =>
      obtain ⟨hc, ho⟩ := DmaAperture.dmaOffset_eq_some.1 h
      have hbase : f.dmaBase.toNat ≤ gpa.toNat := hc.1
      simp only [hz, if_false, Option.isSome_some, if_true, UioFabric.aperture, true_and, ho]
      congr 1
      funext x
      simp only [writeBytes]
      by_cases hx : gpa.toNat - f.dmaBase.toNat ≤ x
      · rw [if_pos hx, if_pos (by omega)]
        congr 1
        omega
      · rw [if_neg hx, if_neg (by omega)]

/-- The answer of `fabric_dma_map`. -/
def UioFabric.canMap (f : UioFabric) (gpa : UInt64) (len : UInt32) : Bool :=
  len = 0 || f.dmaOffset gpa len

theorem UioFabric.dmaOffset_of_sub {f : UioFabric} {gpa : UInt64} {len : UInt32} {n : Nat} (hn : 0 < n)
    (hlen : len.toNat ≤ n) (hsub : Region.Sub ⟨gpa.toNat, n⟩ ⟨f.dmaBase.toNat, f.dmaSize.toNat⟩) :
    f.dmaOffset gpa len = true := by
  have h1 := hsub gpa.toNat
  have h2 := hsub (gpa.toNat + (n - 1))
  simp only [Region.mem_def] at h1 h2
  have hc : f.aperture.Covers gpa len := by
    simp only [DmaAperture.Covers, UioFabric.aperture]
    omega
  rw [UioFabric.dmaOffset_eq, Option.isSome_iff_ne_none]
  exact fun h => DmaAperture.dmaOffset_eq_none.1 h hc

/-- No call moves the DMA resource. -/
theorem UioFabric.answer_window (f : UioFabric) (c : Call) :
    (f.answer c).2.dmaBase = f.dmaBase ∧ (f.answer c).2.dmaSize = f.dmaSize := by
  cases c with
  | dmaReadInto | dmaWrite =>
    simp only [UioFabric.answer]
    split
    · exact ⟨rfl, rfl⟩
    · split <;> exact ⟨rfl, rfl⟩
  | _ => exact ⟨rfl, rfl⟩

theorem UioFabric.answer_canMap (f : UioFabric) (c : Call) : (f.answer c).2.canMap = f.canMap := by
  obtain ⟨hb, hs⟩ := f.answer_window c
  funext gpa len
  rw [UioFabric.canMap, UioFabric.canMap, UioFabric.dmaOffset, UioFabric.dmaOffset, hb, hs]

end AcsVirt.L2
