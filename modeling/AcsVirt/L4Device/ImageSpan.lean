import AcsVirt.L4Device.ChainEffects

/-!
# Where in the image a request lands

A request is for one stretch of the image that begins at its sector, cut into
pieces by its data descriptors (`pieces`). `process_chain` computes the start of
each piece as a 64-bit offset plus a 32-bit running total, and checks each piece
against the image by itself.

The 64-bit sum is safe: the first piece of a request that transfers anything
has passed the bounds check, so the offset is below 2^63 (`imageOffset_toNat`).
The 32-bit total is not: after 2^32 bytes the pieces start over at the sector,
and they pass the check there. With no data descriptor at all there is no check
either. `image_addressing`: these are the only two ways to miss.
-/
namespace AcsVirt.L4

open L1 L2

/-- The pieces of the stretch that begins at `o`. -/
def pieces : Nat → List Turn → List (Nat × Nat)
  | _, [] => []
  | o, t :: ts => (o, t.desc.len.toNat) :: pieces (o + t.desc.len.toNat) ts

theorem pieces_getElem? (o : Nat) (ts : List Turn) (k : Nat) :
    (pieces o ts)[k]? = ts[k]?.map fun t => (o + totalLen (ts.take k), t.desc.len.toNat) := by
  induction ts generalizing o k with
  | nil => rfl
  | cons t ts ih =>
    cases k with
    | zero => rfl
    | succ k =>
      rw [pieces, List.getElem?_cons_succ, ih, List.getElem?_cons_succ, List.take_succ_cons, totalLen_cons, Nat.add_assoc]

/-- Byte offset of the request, over unbounded integers. -/
def ChainLog.start (l : ChainLog) : Nat := l.sector.toNat * 512

/-- The image is accessed at the pieces of the request's stretch, in order. -/
def ImageExact (l : ChainLog) (es : List FabricEvent) : Prop :=
  (imageCalls es).map (fun p => (p.1.toNat, p.2)) <+: pieces l.start l.walk.turns

instance (l : ChainLog) (es : List FabricEvent) : Decidable (ImageExact l es) := inferInstanceAs (Decidable (_ <+: _))

/-! ## Offsets -/

section
variable {b : BlkdBlockBackend} {req : ReqType} {sector : UInt64} {es : List FabricEvent} {s : WalkState}
  (hi : ImageInv b req (startOffset sector) (startStatus req sector) es s) (hm : Moves req)
include hi hm

/-- The first piece has been inside the image, so the offset does not wrap. -/
theorem start_small (hne : imageCalls es ≠ []) : sector.toNat * 512 < 2 ^ 63 := by
  have hpos : 0 < (imageCalls es).length := List.length_pos_iff.2 hne
  have hlen : (imageCalls es).length ≤ s.turns.length := by
    rw [← List.length_map (f := Turn.piece)]
    exact hi.pieces.length_le
  obtain ⟨t, ht⟩ : ∃ t, s.turns[0]? = some t := ⟨_, List.getElem?_eq_getElem (by omega)⟩
  have hoff : t.imageOffset = startOffset sector := by
    rw [hi.offsets hm 0 t ht, List.take_zero]
    exact UInt64.add_zero _
  have hin := (outside_false.1 (hi.inside 0 t hpos ht)).2
  rwa [hoff, startOffset_of_ok (hi.started hne)] at hin

/-- An offset the image is accessed at. -/
theorem imageOffset_toNat {k : Nat} {t : Turn} (hk : k < (imageCalls es).length)
    (ht : s.turns[k]? = some t) :
    t.imageOffset.toNat = sector.toNat * 512 + totalLen (s.turns.take k) % 2 ^ 32 := by
  have hne : imageCalls es ≠ [] := fun h => by simp [h] at hk
  have hsmall := start_small hi hm hne
  rw [hi.offsets hm k t ht, UInt64.toNat_add, startOffset_of_ok (hi.started hne), UInt32.toNat_toUInt64, UInt32.toNat_ofNat']
  omega

/-- Each access is exact iff no more than the total's range lies before it. -/
theorem exact_iff :
    (imageCalls es).map (fun p => (p.1.toNat, p.2)) <+: pieces (sector.toNat * 512) s.turns ↔
    ∀ k < (imageCalls es).length, totalLen (s.turns.take k) < 2 ^ 32 := by
  have hat : ∀ k (hk : k < (imageCalls es).length),
      (pieces (sector.toNat * 512) s.turns)[k]? = some ((imageCalls es)[k].1.toNat, (imageCalls es)[k].2) ↔
        totalLen (s.turns.take k) < 2 ^ 32 := by
    intro k hk
    have hpiece := List.prefix_iff_getElem?.1 hi.pieces k hk
    rw [List.getElem?_map] at hpiece
    obtain ⟨t, ht, hcall⟩ := Option.map_eq_some_iff.1 hpiece
    rw [pieces_getElem?, ht, ← hcall, Option.map_some, Option.some.injEq, Turn.piece, Prod.mk.injEq,
      imageOffset_toNat hi hm hk ht, and_iff_left rfl]
    omega
  rw [List.prefix_iff_getElem?]
  constructor
  · intro h k hk
    rw [← hat k hk, h k (by rwa [List.length_map]), List.getElem_map]
  · intro h k hk
    rw [List.length_map] at hk
    rw [List.getElem_map, hat k hk]
    exact h k hk

/-- A status of OK after the last data descriptor: it has been inside the image. -/
theorem last_inside (hok : s.status = .ok) (hne : s.turns ≠ []) :
    sector.toNat * 512 + totalLen s.turns.dropLast % 2 ^ 32 + (s.turns.getLast hne).desc.len.toNat ≤ b.imageLen.toNat := by
  have hcalls : (imageCalls es).length = s.turns.length := by rw [hi.whole hm hok, List.length_map]
  have hpos := List.length_pos_iff.2 hne
  have hlast : s.turns[s.turns.length - 1]? = some (s.turns.getLast hne) := by
    rw [List.getLast_eq_getElem]
    exact List.getElem?_eq_getElem _
  have hk : s.turns.length - 1 < (imageCalls es).length := by omega
  have hin := (outside_false.1 (hi.inside _ _ hk hlast)).1
  rwa [imageOffset_toNat hi hm hk hlast, ← List.dropLast_eq_take] at hin

end

theorem totalLen_dropLast {ts : List Turn} (hne : ts ≠ []) :
    totalLen ts = totalLen ts.dropLast + (ts.getLast hne).desc.len.toNat := by
  conv => lhs; rw [← List.dropLast_concat_getLast hne]
  rw [totalLen_append]
  rfl

/-- **Image addressing.** For an IN or OUT chain the loop accepts, the image is
accessed at the exact pieces of the request's stretch, and the status is OK only
if the whole stretch is inside the image, iff less than 2^32 bytes lie before
each piece accessed and a request without data does not begin past the image. -/
theorem image_addressing {direct : Bool} {fuel : Nat} {d d' : BlkdVirtioDevice} {head : UInt16}
    {es : List FabricEvent} {r : Option UInt32} {l : ChainLog} {desc : VirtioDesc}
    {status : BlkStatus}
    (h : Emits (processChainLogged direct fuel d head) es (.ok (d', r, some l)))
    (hsz : ∀ e ∈ es, ReadsFull e) (hm : Moves l.req) (hlast : l.last = some (desc, status)) :
    (ImageExact l es ∧ (status = .ok → l.start + totalLen l.walk.turns ≤ d.priv.backend.imageLen.toNat)) ↔
      ((∀ k < (imageCalls es).length, totalLen (l.walk.turns.take k) < 2 ^ 32) ∧
        (l.walk.turns = [] → startStatus l.req l.sector = .ok → l.start ≤ d.priv.backend.imageLen.toNat)) := by
  cases processChain_chainRun h hsz with
  | gaveUp _ _ hnone => cases hnone.symm.trans hlast
  | @finished es _ desc' status' hi hs _ hlast' hst ok =>
    cases hlast'.symm.trans hlast
    have hst : status = l.walk.status := hst (by rcases hm with hm | hm <;> rw [hm] <;> exact nofun)
    have hcalls : imageCalls (es ++ [⟨.dmaWrite desc.addr [status.code], ok⟩]) = imageCalls es := by
      rw [imageCalls_append]
      exact List.append_nil _
    rw [ImageExact, hcalls]
    refine Iff.trans (and_congr_left' (exact_iff hi hm)) (and_congr_right fun hsmall => ?_)
    constructor
    · intro hok hnil hstart
      have hle := hok (hst.trans ((hi.fresh hnil).trans hstart))
      rw [hnil, totalLen_nil, Nat.add_zero] at hle
      exact hle
    · intro hempty hok
      have hok : l.walk.status = .ok := hst ▸ hok
      by_cases hne : l.walk.turns = []
      · rw [hne, totalLen_nil, Nat.add_zero]
        exact hempty hne ((hi.fresh hne).symm.trans hok)
      · have hin := last_inside hi hm hok hne
        have hbefore := hsmall (l.walk.turns.length - 1) (by
          rw [hi.whole hm hok, List.length_map]
          have := List.length_pos_iff.2 hne
          omega)
        rw [← List.dropLast_eq_take] at hbefore
        rw [Nat.mod_eq_of_lt hbefore, Nat.add_assoc, ← totalLen_dropLast hne] at hin
        exact hin

/-- An IN request for sector 0 with three buffers of these lengths. -/
def threeReads (a b c : UInt32) : Ram :=
  tableRam [⟨0x4000, 16, 1, 1⟩, ⟨0x10000, a, 3, 2⟩, ⟨0x100000000, b, 3, 3⟩, ⟨0x200000000, c, 3, 4⟩, ⟨0x5000, 1, 2, 0⟩]

/-- Three sectors. -/
theorem image_addressing_sectors :
    ∃ o, observeChain true (tableDisk 2048) (threeReads 512 512 512) = some o ∧ ImageExact o.log o.events ∧
      imageCalls o.events = [(0, 512), (512, 512), (1024, 512)] := by
  have hrun : (observeChain true (tableDisk 2048) (threeReads 512 512 512)).any (fun o => decide (
      imageCalls o.events = [(0, 512), (512, 512), (1024, 512)] ∧ o.log.req = .tIn ∧
        o.log.last = some (⟨0x5000, 1, 2, 0⟩, .ok) ∧ o.log.walk.turns ≠ [] ∧
        ∀ k < (imageCalls o.events).length, totalLen (o.log.walk.turns.take k) < 2 ^ 32)) = true := by
    decide +kernel
  obtain ⟨o, ho, hq⟩ := (Option.any_eq_true ..).1 hrun
  obtain ⟨hcalls, hreq, hlast, hne, hsmall⟩ := of_decide_eq_true hq
  obtain ⟨d', hemits, hsz⟩ := observeChain_emits ho
  exact ⟨o, ho, ((image_addressing hemits hsz (.inl hreq) hlast).2 ⟨hsmall, fun h => absurd h hne⟩).1, hcalls⟩

/-- Two buffers of 2 GiB and one sector on a disk of 4 GiB: the sector is read
from the start of the disk, and the request succeeds. -/
theorem image_addressing_wraps :
    ∃ o, observeChain true (tableDisk 0x100000000) (threeReads 0x80000000 0x80000000 512) = some o ∧
      imageCalls o.events = [(0, 0x80000000), (0x80000000, 0x80000000), (0, 512)] ∧ ¬ImageExact o.log o.events ∧
      o.log.last = some (⟨0x5000, 1, 2, 0⟩, .ok) ∧ ¬o.log.start + totalLen o.log.walk.turns ≤ 0x100000000 := by
  have hrun : (observeChain true (tableDisk 0x100000000) (threeReads 0x80000000 0x80000000 512)).any (fun o => decide (
      imageCalls o.events = [(0, 0x80000000), (0x80000000, 0x80000000), (0, 512)] ∧
        ¬ImageExact o.log o.events ∧ o.log.last = some (⟨0x5000, 1, 2, 0⟩, .ok) ∧
        ¬o.log.start + totalLen o.log.walk.turns ≤ 0x100000000)) = true := by
    decide +kernel
  obtain ⟨o, ho, hq⟩ := (Option.any_eq_true ..).1 hrun
  exact ⟨o, ho, of_decide_eq_true hq⟩

end AcsVirt.L4
