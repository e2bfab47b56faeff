import AcsVirt.Core.CString
import AcsVirt.L2Machine.LinuxUio

/-!
# The endpoint of the UIO fabric

The daemon's endpoint argument names the device and, optionally, the offset of
the interrupt control register in resource 0 and the base of the DMA resource:
`uio:/dev/uioX[:irq-control-offset[:dma-base]]`. Numbers are read by
`strtoull`, so an endpoint can spell every 64-bit offset (`parseEndpoint_spelled`).

The deferred interrupt write tests `irq_control_offset + 4 > mmio.size` before
it stores. The sum wraps: for the four largest offsets it is 0 to 3, the test
passes on every window of that size, and the four bytes land before the window.
`irq_write_inside_iff` says for which offsets and windows the write stays inside.
The fabric's own DMA check compares differences and has no such gap
(`dmaOffset_eq_some`).
-/
namespace AcsVirt.L2

/-- mirrors src/fabrics/linux_uio.c:21-26 -/
structure UioConfig where
  path : Bytes
  irqControlOffset : UInt64
  dmaBase : UInt64
  deriving DecidableEq, Repr

/-- mirrors src/fabrics/linux_uio.c:76-90 -/
def parseU64 (value : Bytes) : Option UInt64 :=
  if value = [] then none
  else
    let parsed := strtoull value
    if parsed.range || parsed.rest ≠ [] then none else some parsed.value

/-- The part after the path: the offset, and the DMA base if there is one.
mirrors src/fabrics/linux_uio.c:155-170 -/
def parseOffsets (path rest : Bytes) : Option UioConfig :=
  let (offset, dmaBase) := cutAt 58 rest
  if offset.length = 0 ∨ 64 ≤ offset.length then none
  else
    match parseU64 offset with
    | none => none
    | some irqControlOffset =>
      match dmaBase with
      | none => some ⟨path, irqControlOffset, 0⟩
      | some base =>
        match parseU64 base with
        | none => none
        | some dmaBase => some ⟨path, irqControlOffset, dmaBase⟩

/-- mirrors src/fabrics/linux_uio.c:130-173 -/
def parseEndpoint (endpoint : Option Bytes) : Option UioConfig :=
  match endpoint with
  | none => none
  | some value =>
    if value = [] then none
    else
      let value := if (text "uio:").isPrefixOf value then value.drop 4 else value
      let (path, offset) := cutAt 58 value
      if path.length = 0 ∨ 256 ≤ path.length then none
      else
        match offset with
        | none => some ⟨path, uioIrqControlOffset, 0⟩
        | some rest => parseOffsets path rest

theorem parseU64_decimal (o : UInt64) : parseU64 (decimal o.toNat) = some o := by
  rw [parseU64, if_neg (decimal_ne_nil _), strtoull_decimal o.toNat_lt]
  simp

theorem colon_not_mem_decimal (n : Nat) : 58 ∉ decimal n := by
  intro h
  exact absurd (mem_decimal h).2 (by decide)

/-- The endpoint that spells an offset in decimal. -/
def endpointAt (o : UInt64) : Bytes := text "uio:/dev/uio0:" ++ decimal o.toNat

/-- Every offset has an endpoint. -/
theorem parseEndpoint_spelled (o : UInt64) :
    parseEndpoint (some (endpointAt o)) = some ⟨text "/dev/uio0", o, 0⟩ := by
  have hcut : cutAt 58 (text "/dev/uio0" ++ 58 :: decimal o.toNat) = (text "/dev/uio0", some (decimal o.toNat)) :=
    cutAt_append (by decide) _
  have hlen : (decimal o.toNat).length ≤ 19 + 1 := decimal_length (Nat.lt_of_lt_of_le o.toNat_lt (by decide))
  have hpos : 0 < (decimal o.toNat).length := List.length_pos_iff.2 (decimal_ne_nil _)
  have hvalue : (if (text "uio:").isPrefixOf (endpointAt o) then (endpointAt o).drop 4 else endpointAt o) =
      text "/dev/uio0" ++ 58 :: decimal o.toNat := rfl
  have hne : endpointAt o ≠ [] := by
    intro h
    cases h
  simp only [parseEndpoint, if_neg hne, hvalue, hcut]
  rw [if_neg (by decide)]
  simp only [parseOffsets, cutAt_eq_none (colon_not_mem_decimal _), parseU64_decimal]
  rw [if_neg (by omega)]

/-! ## The deferred interrupt write -/

/-- The write of a pending level is refused, or its four bytes are in the window. -/
def FlushInside (mmioSize irqControlOffset : UInt64) : Prop := ∀ level w,
  flushPendingIrqLevel mmioSize irqControlOffset (some level) w = (w, some level, false) ∨
    (flushPendingIrqLevel mmioSize irqControlOffset (some level) w =
        (w.set irqControlOffset (if level then 1 else 0), none, true) ∧
      irqControlOffset.toNat + 4 ≤ mmioSize.toNat)

/-- A write is made exactly when the wrapped end is in the window. -/
theorem flushInside_iff (mmioSize o : UInt64) :
    FlushInside mmioSize o ↔ mmioSize.toNat < (o.toNat + 4) % 2 ^ 64 ∨ o.toNat + 4 ≤ mmioSize.toNat := by
  have hend : (o + 4).toNat = (o.toNat + 4) % 2 ^ 64 := by rw [UInt64.toNat_add]; rfl
  unfold FlushInside flushPendingIrqLevel
  rw [← hend, ← UInt64.lt_iff_toNat_lt]
  by_cases hrefused : mmioSize < o + 4
  · simp [hrefused]
  · simp [hrefused]

/-- **Interrupt writes stay in the window** unless the configured offset is
within four bytes of `2 ^ 64` and the window reaches the wrapped end. -/
theorem irq_write_inside_iff :
    ∀ endpoint cfg, parseEndpoint endpoint = some cfg → ∀ mmioSize : UInt64,
    FlushInside mmioSize cfg.irqControlOffset ↔
      cfg.irqControlOffset.toNat + 4 < 2 ^ 64 ∨ mmioSize.toNat + 2 ^ 64 < cfg.irqControlOffset.toNat + 4 := by
  intro endpoint cfg _ mmioSize
  have ho := cfg.irqControlOffset.toNat_lt
  have hs := mmioSize.toNat_lt
  rw [flushInside_iff]
  omega

/-- The default offset of an endpoint without one. -/
theorem irq_write_inside_default :
    parseEndpoint (some (text "uio:/dev/uio0")) = some ⟨text "/dev/uio0", 0x200, 0⟩ ∧ FlushInside 0x1000 0x200 :=
  have hparse : parseEndpoint (some (text "uio:/dev/uio0")) = some ⟨text "/dev/uio0", 0x200, 0⟩ := by decide +kernel
  ⟨hparse, (irq_write_inside_iff _ _ hparse 0x1000).2 (.inl (by decide))⟩

/-- Offset `2 ^ 64 - 4`: the wrapped end is 0 and every window passes the test. -/
theorem irq_write_outside :
    parseEndpoint (some (text "uio:/dev/uio0:0xfffffffffffffffc")) =
        some ⟨text "/dev/uio0", 0xfffffffffffffffc, 0⟩ ∧
      flushPendingIrqLevel 0x1000 0xfffffffffffffffc (some true) (fun _ => 0) =
        (Window.set (fun _ => 0) 0xfffffffffffffffc 1, none, true) ∧
      ¬FlushInside 0x1000 0xfffffffffffffffc := by
  refine ⟨by decide +kernel, rfl, fun h => ?_⟩
  rw [flushInside_iff] at h
  exact absurd h (by decide)

end AcsVirt.L2
