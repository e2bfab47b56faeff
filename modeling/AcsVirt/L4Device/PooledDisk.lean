import AcsVirt.L2Machine.DmaAperture
import AcsVirt.L3Protocol.Bounce
import AcsVirt.L3Protocol.PoolMem
import AcsVirt.L4Device.DiskOrder
import Mathlib.Data.List.Pairwise

/-!
# A request through the restricted pool

The guest's driver keeps the header, the data and the status byte of a request
in memory of its own. With `axi_mmio.c` the device gets none of it: each buffer
is mapped to pages of the pool, the descriptors carry the handles, the daemon
reaches the pool through the DMA resource of the UIO fabric, and unmapping
copies back what the device may have written.

`tripLts` is one request's way there and back: the driver maps its buffers one
after the other, posts the chain, the daemon's `process_chain` makes its calls
one at a time, the driver unmaps. Between any two of these steps other callers
use the pool, and memory that is not the request's changes (`OtherOk`). Failed
mappings are tried again; a `memremap` that fails at unmap time, after which
the source loses the data, is left out.

`request_through_pool`: the daemon's code does not fault and is bounded, and
the driver ends up with the status, the data and the image of the disk of
`SeqDisk`, as if the device had worked on the driver's memory. What a buffer
held that the device may write is not the request's: there the device finds
what the pool page held.

The proof follows the daemon alone. `Underway` says that the code which is left
runs as it would in a memory `w` of its own; that memory shows in the
descriptors and the copies, which nobody else touches (`OtherOk.keeps`), so a
call is answered as in `w` (`Alike.answer`), and what is unmapped was brought
back from `w`.
-/
namespace AcsVirt.L4

open L1 L2 L3

/-! ## The fabric as memory -/

section
variable {zone stores : List Region} {c : Call}

/-- A store changes nothing outside the regions it stays in. -/
theorem writeBytes_stays {gpa : UInt64} {data : Bytes} {m : Mem}
    (hc : ∃ r ∈ stores, Region.Sub ⟨gpa.toNat, data.length⟩ r) {x : Nat} (hx : ∀ r ∈ stores, x ∉ r) :
    writeBytes m gpa.toNat data x = m x := by
  obtain ⟨r, hr, hsub⟩ := hc
  have h : x ∉ (⟨gpa.toNat, data.length⟩ : Region) := fun h => hx r hr (hsub x h)
  simp only [Region.mem_def] at h
  exact writeBytes_out (by omega)

theorem uioAnswer_stays (f : UioFabric) (hc : StaysIn zone stores c) :
    ChangesOnly (fun x => ∃ r ∈ stores, x ∈ r) f.ram.mem (f.answer c).2.ram.mem := by
  intro x hx
  have hx : ∀ r ∈ stores, x ∉ r := fun r hr h => hx ⟨r, hr, h⟩
  cases c with
  | dmaReadInto gpa len =>
    simp only [UioFabric.answer]
    split
    · rfl
    · split <;> rfl
  | dmaWrite gpa data =>
    simp only [UioFabric.answer]
    split
    · rfl
    · split
      · exact writeBytes_stays hc hx
      · rfl
  | preadMapped gpa offset len => exact writeBytes_stays (by simpa [StaysIn] using hc) hx
  | _ => rfl

theorem ramAnswer_stays (canMap : UInt64 → UInt32 → Bool) (w : Ram) (hc : StaysIn zone stores c) :
    ChangesOnly (fun x => ∃ r ∈ stores, x ∈ r) w.mem (w.answer canMap c).2.mem := by
  intro x hx
  have hx : ∀ r ∈ stores, x ∉ r := fun r hr h => hx ⟨r, hr, h⟩
  cases c with
  | dmaWrite gpa data => exact writeBytes_stays hc hx
  | preadMapped gpa offset len => exact writeBytes_stays (by simpa [StaysIn] using hc) hx
  | _ => rfl

/-- The fabric looks like `w`, as far as the regions of `zone` show. -/
def Alike (zone : List Region) (f : UioFabric) (w : Ram) : Prop :=
  f.ram.image = w.image ∧ ∀ r ∈ zone, ∀ x ∈ r, f.ram.mem x = w.mem x

theorem Alike.readBytes {f : UioFabric} {w : Ram} (h : Alike zone f w) {gpa n : Nat}
    (hc : ∃ r ∈ zone, Region.Sub ⟨gpa, n⟩ r) : readBytes f.ram.mem gpa n = readBytes w.mem gpa n := by
  obtain ⟨r, hr, hsub⟩ := hc
  exact readBytes_congr fun x h1 h2 => h.2 r hr x (hsub x ⟨h1, h2⟩)

/-- A call that stays in regions of the DMA resource is answered as memory
would answer it. -/
theorem Alike.answer {f : UioFabric} {w : Ram} (h : Alike zone f w) (hc : StaysIn zone stores c)
    (hz : ∀ r ∈ zone, r.Sub ⟨f.dmaBase.toNat, f.dmaSize.toNat⟩)
    (hs : ∀ r ∈ stores, r.Sub ⟨f.dmaBase.toNat, f.dmaSize.toNat⟩) :
    (f.answer c).1 = (w.answer f.canMap c).1 ∧ Alike zone (f.answer c).2 (w.answer f.canMap c).2 := by
  have hwrite : ∀ (a : Nat) (d : Bytes), ∀ r ∈ zone, ∀ x ∈ r,
      writeBytes f.ram.mem a d x = writeBytes w.mem a d x := fun a d r hr x hx =>
    writeBytes_congr (h.2 r hr x hx) a d
  cases c with
  | dmaReadInto gpa len =>
    simp only [UioFabric.answer, Ram.answer, ← h.readBytes hc]
    split
    next hzero => exact ⟨by simp [hzero], h⟩
    next hne =>
      have hpos : 0 < len.toNat := Nat.pos_of_ne_zero fun e => hne (UInt32.toNat_inj.mp e)
      obtain ⟨r, hr, hsub⟩ := hc
      rw [if_pos (UioFabric.dmaOffset_of_sub hpos (Nat.le_refl _) fun x hx => hz r hr x (hsub x hx))]
      exact ⟨rfl, h⟩
  | dmaMap gpa len => exact ⟨rfl, h⟩
  | dmaWrite gpa data =>
    simp only [UioFabric.answer, Ram.answer]
    split
    next hzero =>
      rw [List.eq_nil_of_length_eq_zero hzero, writeBytes_nil]
      exact ⟨rfl, h⟩
    next hne =>
      obtain ⟨r, hr, hsub⟩ := hc
      have hlen : (UInt32.ofNat data.length).toNat ≤ data.length := by
        rw [UInt32.toNat_ofNat']
        exact Nat.mod_le _ _
      rw [if_pos (UioFabric.dmaOffset_of_sub (Nat.pos_of_ne_zero hne) hlen fun x hx => hs r hr x (hsub x hx))]
      exact ⟨rfl, h.1, hwrite _ _⟩
  | preadMapped gpa offset len =>
    refine ⟨rfl, h.1, ?_⟩
    simp only [UioFabric.answer, Ram.answer, h.1]
    exact hwrite _ _
  | pread offset len =>
    simp only [UioFabric.answer, Ram.answer, h.1]
    exact ⟨trivial, h⟩
  | pwrite offset data =>
    exact ⟨rfl, congrArg (writeBytes · offset.toNat data) h.1, h.2⟩
  | raiseIrq | lowerIrq | realloc | fsync | consoleWrite => exact ⟨rfl, h⟩

end

/-! ## The request -/

/-- A buffer of the driver; `writable` for the device. -/
structure DriverBuf where
  phys : UInt64
  len : UInt32
  writable : Bool
  deriving DecidableEq, Repr

namespace DriverBuf

def region (b : DriverBuf) : Region := ⟨b.phys.toNat, b.len.toNat⟩

def dir (b : DriverBuf) : DmaDir := if b.writable then .fromDevice else .toDevice

def mapping (b : DriverBuf) (h : UInt64) : Mapping := .bounced h b.phys b.len.toUInt64

/-- The descriptor of the buffer for a device that reaches it directly. -/
def desc (b : DriverBuf) : VirtioDesc := ⟨b.phys, b.len, if b.writable then vringDescFWrite else 0, 0⟩

end DriverBuf

/-- A request within the advertised limits, and the daemon that is to serve it.
`ring` is the coherent allocation with the descriptor table. -/
structure PooledReq where
  header : DriverBuf
  data : List DriverBuf
  status : DriverBuf
  ring : UInt64 × UInt64
  dev : BlkdVirtioDevice
  head : UInt16
  direct : Bool
  fuel : Nat
  headerLen : header.len = 16
  headerDir : header.writable = false
  statusLen : status.len = 1
  statusDir : status.writable = true
  apart : (header :: data ++ [status]).Pairwise fun b c => b.region.Apart c.region
  segMax : data.length ≤ blkdMaxSegments.toNat
  sizeMax : ∀ b ∈ data, b.len ≤ blkdMaxSegSize
  queueMax : data.length + 1 ≤ (dev.queue 0).num.toNat
  imageMax : dev.priv.backend.imageLen ≤ int64Max
  enough : data.length < fuel

def PooledReq.bufs (r : PooledReq) : List DriverBuf := r.header :: r.data ++ [r.status]

/-- The request the driver's buffers hold in memory `m`. -/
def PooledReq.held (r : PooledReq) (m : Mem) : DiskReq :=
  reqOf m r.header.desc (r.data.map DriverBuf.desc)

/-- The request is in the header and the data buffers. -/
theorem PooledReq.held_congr {r : PooledReq} {m m' : Mem}
    (h : ∀ b ∈ r.header :: r.data, ∀ x ∈ b.region, m x = m' x) : r.held m = r.held m' := by
  have hheader : reqHeader m r.header.desc = reqHeader m' r.header.desc := by
    refine readBytes_congr fun x h1 h2 => h r.header List.mem_cons_self x ⟨h1, ?_⟩
    rw [DriverBuf.region, r.headerLen]
    exact h2
  have hdata : gather m (r.data.map DriverBuf.desc) = gather m' (r.data.map DriverBuf.desc) := by
    refine gather_congr fun d hd x hx => ?_
    obtain ⟨b, hb, rfl⟩ := List.mem_map.1 hd
    exact h b (List.mem_cons_of_mem _ hb) x hx
  simp only [PooledReq.held, reqOf, reqType, reqSector, hheader, hdata]

/-- The status byte and the data the driver's buffers hold in memory `m`. -/
def PooledReq.seen (r : PooledReq) (m : Mem) : UInt8 × Bytes :=
  (m r.status.phys.toNat, gather m (r.data.map DriverBuf.desc))

/-! ## The way there and back -/

/-- `maps` are the buffers mapped so far, with their handles; the first `back`
of them have been unmapped. `code` is the rest of the daemon's `process_chain`,
and `table` are the descriptors it may read. -/
structure TripState where
  pool : PoolState
  uio : UioFabric
  maps : List (UInt64 × DriverBuf)
  back : Nat
  table : List Region
  code : Option (FabricM (BlkdVirtioDevice × Option UInt32))

/-- The daemon's fabric, over the memory of the frontend. -/
def TripState.fabric (t : TripState) : UioFabric :=
  { t.uio with ram := { t.uio.ram with mem := t.pool.kernel.mem } }

inductive TripAct where
  | other (op : PoolOp)
  | map (env : Env)
  | post (h : VirtioDesc) (ds : List VirtioDesc) (last : VirtioDesc)
  | call
  | unmap (env : Env)

def tripStep (find : Bitmap → Nat → Nat → Nat) (r : PooledReq) (t : TripState) : TripAct → TripState
  | .other op => { t with pool := poolStep find t.pool op }
  | .map env =>
    match r.bufs[t.maps.length]? with
    | none => t
    | some b =>
      let h := (dmaMapPhys find t.pool.kernel env b.phys b.len.toUInt64 b.dir).1
      if h = dmaMappingError then t
      else { t with
        pool := poolStep find t.pool (.mapPhys env b.phys b.len.toUInt64 b.dir)
        maps := t.maps ++ [(h, b)] }
  | .post h ds _ => { t with
      table := (chainPath r.head (h :: ds)).map (entry (r.dev.queue 0))
      code := some (processChain r.direct r.fuel r.dev r.head) }
  | .call =>
    match t.code with
    | some (.call c k) =>
      let (a, f) := t.fabric.answer c
      { t with pool := ⟨⟨t.pool.kernel.pool, f.ram.mem⟩, t.pool.live⟩, uio := f, code := some (k a) }
    | _ => t
  | .unmap env =>
    match t.maps[t.back]? with
    | none => t
    | some (h, b) => { t with
        pool := poolStep find t.pool (.unmapPhys env (b.mapping h) b.dir)
        back := t.back + 1 }

/-- What a descriptor says of its buffer. -/
def carried (d : VirtioDesc) : UInt64 × UInt32 × Bool := (d.addr, d.len, d.writable)

/-- What it is to say of a mapped one. -/
def hand (p : UInt64 × DriverBuf) : UInt64 × UInt32 × Bool := (p.1, p.2.len, p.2.writable)

/-- Where a mapped buffer is in the pool. -/
def copyAt (p : UInt64 × DriverBuf) : Region := ⟨p.1.toNat, p.2.len.toNat⟩

/-- The chain is in the ring, and its descriptors carry the handles. -/
structure Posted (r : PooledReq) (t : TripState) (h : VirtioDesc) (ds : List VirtioDesc)
    (last : VirtioDesc) : Prop where
  chain : ChainAt t.pool.kernel.mem (r.dev.queue 0) r.head (h :: ds) last
  ring : ∀ j ∈ chainPath r.head (h :: ds),
    (entry (r.dev.queue 0) j).Sub ⟨r.ring.1.toNat, r.ring.2.toNat⟩
  carries : (h :: ds ++ [last]).map carried = t.maps.map hand

/-- What the request holds in the pool. -/
def TripState.ours (r : PooledReq) (t : TripState) : List Mapping :=
  .coherent r.ring.1 r.ring.2 :: (t.maps.drop t.back).map fun p => p.2.mapping p.1

/-- The memory of the request: the driver's buffers, the pages they are mapped
to, and the descriptors once they are posted. -/
def TripState.Mine (r : PooledReq) (t : TripState) (x : Nat) : Prop :=
  (∃ b ∈ r.bufs, x ∈ b.region) ∨ (∃ p ∈ t.maps.drop t.back, x ∈ copyAt p) ∨
    ∃ e ∈ t.table, x ∈ e

/-- Others are well-behaved callers that leave what is the request's alone. -/
structure OtherOk (r : PooledReq) (t : TripState) (op : PoolOp) : Prop where
  behaved : Behaved t.pool op
  target : ∀ m ∈ t.ours r, op.target ≠ some m
  buffers : ∀ c ∈ op.buffers, ∀ b ∈ r.bufs, c.Apart b.region
  touch : ∀ m, op = .touch m → ∀ x, t.Mine r x → m x = t.pool.kernel.mem x

def TripOk (r : PooledReq) (t : TripState) : TripAct → Prop
  | .other op => OtherOk r t op
  | .map _ => t.code = none
  | .post h ds last => t.code = none ∧ t.maps.length = r.bufs.length ∧ Posted r t h ds last
  | .call => ∃ c k, t.code = some (.call c k)
  | .unmap env => (∃ a, t.code = some (.ret a)) ∧ env.memremapOk = true

/-- Before the first mapping, in memory `m₀` with the image `image₀`. The
DMA resource covers the pool, and the driver's buffers are outside of it. -/
structure TripStart (find : Bitmap → Nat → Nat → Nat) (r : PooledReq) (m₀ image₀ : Mem) (t : TripState) :
    Prop where
  reachable : (poolLts find Behaved).Reachable t.pool
  ring : .coherent r.ring.1 r.ring.2 ∈ t.pool.live
  window : (apertureRegion t.pool.kernel.pool).Sub ⟨t.uio.dmaBase.toNat, t.uio.dmaSize.toNat⟩
  outside : ∀ b ∈ r.bufs, b.region.Apart (apertureRegion t.pool.kernel.pool)
  fresh : t.maps = [] ∧ t.back = 0 ∧ t.table = [] ∧ t.code = none
  mem : t.pool.kernel.mem = m₀
  image : t.uio.ram.image = image₀

def tripLts (find : Bitmap → Nat → Nat → Nat) (r : PooledReq) (m₀ image₀ : Mem) :
    LTS TripState TripAct where
  init := TripStart find r m₀ image₀
  step t a t' := TripOk r t a ∧ t' = tripStep find r t a

/-! ## The chain and the buffers -/

/-- The descriptors of a chain carry the handles of the request's buffers. -/
structure Carries (r : PooledReq) (maps : List (UInt64 × DriverBuf)) (h : VirtioDesc)
    (ds : List VirtioDesc) (last : VirtioDesc) : Prop where
  bufs : maps.map Prod.snd = r.bufs
  descs : (h :: ds ++ [last]).map carried = maps.map hand

namespace Carries

variable {r : PooledReq} {maps : List (UInt64 × DriverBuf)} {h last : VirtioDesc} {ds : List VirtioDesc}

theorem split (hc : Carries r maps h ds last) :
    ∃ ps, maps = (h.addr, r.header) :: ps ++ [(last.addr, r.status)] ∧ ps.map Prod.snd = r.data ∧
      ds.map carried = ps.map hand ∧ h.len = 16 ∧ h.writable = false ∧ last.len = 1 ∧
      last.writable = true := by
  obtain ⟨l₁, l₂, rfl, h₁, h₂⟩ := List.map_eq_append_iff.1 hc.bufs
  obtain ⟨p, ps, rfl, hp, hps⟩ := List.map_eq_cons_iff.1 h₁
  obtain ⟨q, qs, rfl, hq, hqs⟩ := List.map_eq_cons_iff.1 h₂
  cases List.map_eq_nil_iff.1 hqs
  have hd := hc.descs
  rw [List.map_append, List.map_append] at hd
  obtain ⟨hl, hr⟩ := List.append_inj' hd rfl
  simp only [List.map_cons, List.cons.injEq, List.map_nil, and_true, carried, hand, Prod.mk.injEq] at hl hr
  obtain ⟨⟨ha, hlen, hw⟩, hds⟩ := hl
  obtain ⟨za, zlen, zw⟩ := hr
  refine ⟨ps, ?_, hps, hds, ?_, ?_, ?_, ?_⟩
  · rw [ha, za, ← hp, ← hq]
  · rw [hlen, hp, r.headerLen]
  · rw [hw, hp, r.headerDir]
  · rw [zlen, hq, r.statusLen]
  · rw [zw, hq, r.statusDir]

theorem length_eq (hc : Carries r maps h ds last) : ds.length = r.data.length := by
  obtain ⟨ps, -, hps, hds, -, -, -, -⟩ := hc.split
  rw [← hps, List.length_map, ← List.length_map (f := hand), ← hds, List.length_map]

/-- The buffers of the chain are the copies in the pool. -/
theorem reqBufs_eq (hc : Carries r maps h ds last) : reqBufs h ds last = maps.map copyAt := by
  obtain ⟨ps, rfl, -, hds, -, -, -, -⟩ := hc.split
  have hbuf : ds.map VirtioDesc.buf = ps.map copyAt := by
    have e := congrArg (List.map fun c : UInt64 × UInt32 × Bool => Region.mk c.1.toNat c.2.1.toNat) hds
    rwa [List.map_map, List.map_map] at e
  simp [reqBufs, hbuf, copyAt, r.headerLen, r.statusLen]

theorem storeBufs_eq (hc : Carries r maps h ds last) :
    storeBufs ds last = (maps.filter fun p => p.2.writable).map copyAt := by
  obtain ⟨ps, rfl, -, hds, -, -, -, -⟩ := hc.split
  have hbuf : (ds.filter VirtioDesc.writable).map VirtioDesc.buf =
      (ps.filter fun p => p.2.writable).map copyAt := by
    have e := congrArg (fun l => (l.filter fun c : UInt64 × UInt32 × Bool => c.2.2).map
      fun c => Region.mk c.1.toNat c.2.1.toNat) hds
    rwa [List.filter_map, List.filter_map, List.map_map, List.map_map] at e
  simp [storeBufs, hbuf, copyAt, r.headerDir, r.statusDir, r.statusLen]

/-- Memory that holds at the driver's buffers what `m` holds at the copies
holds the same request and the same reply. -/
theorem relocate (hc : Carries r maps h ds last) {m m' : Mem}
    (hm : ∀ p ∈ maps, ∀ i < p.2.len.toNat, m' (p.2.phys.toNat + i) = m (p.1.toNat + i)) :
    r.held m' = reqOf m h ds ∧ r.seen m' = (m last.addr.toNat, gather m ds) := by
  have hread : ∀ p ∈ maps, readBytes m' p.2.phys.toNat p.2.len.toNat = readBytes m p.1.toNat p.2.len.toNat :=
    fun p hp => List.map_congr_left fun i hi => hm p hp i (List.mem_range.1 hi)
  obtain ⟨ps, rfl, hps, hds, -, -, -, -⟩ := hc.split
  have hheader := hread (h.addr, r.header) (by simp)
  have hstatus := hm (last.addr, r.status) (by simp) 0 (by rw [r.statusLen]; decide)
  rw [r.headerLen] at hheader
  have hdata : gather m' (r.data.map DriverBuf.desc) = gather m ds := by
    have e : gather m ds = ps.flatMap fun p => readBytes m p.1.toNat p.2.len.toNat := by
      have e := congrArg (List.flatMap fun c : UInt64 × UInt32 × Bool => readBytes m c.1.toNat c.2.1.toNat) hds
      rwa [List.flatMap_map, List.flatMap_map] at e
    rw [e, ← hps, gather, List.map_map, List.flatMap_map]
    exact congrArg List.flatten (List.map_congr_left fun p hp => hread p (by simp [hp]))
  have hparts : (r.data.map DriverBuf.desc).map partOf = ds.map partOf := by
    have e := congrArg (List.map fun c : UInt64 × UInt32 × Bool => (c.2.2, c.2.1.toNat)) hds
    simp only [List.map_map] at e
    rw [show ds.map partOf = _ from e, ← hps, List.map_map, List.map_map]
    refine List.map_congr_left fun p _ => ?_
    simp only [Function.comp, partOf, DriverBuf.desc, hand, VirtioDesc.writable]
    cases p.2.writable <;> rfl
  refine ⟨?_, Prod.ext hstatus hdata⟩
  have hreq : reqHeader m' r.header.desc = reqHeader m h := hheader
  simp only [PooledReq.held, reqOf, reqType, reqSector, hreq, hparts, hdata]

end Carries

/-! ## The copies -/

section
variable {s : PoolState}

theorem copyAt_eq (p : UInt64 × DriverBuf) : copyAt p = ⟨p.1.toNat, p.2.len.toUInt64.toNat⟩ := by
  rw [copyAt, UInt32.toNat_toUInt64]

theorem DriverBuf.region_eq {b c : DriverBuf} {h h' : UInt64} (heq : b.mapping h = c.mapping h') :
    b.region = c.region := by
  simp only [mapping, Mapping.bounced.injEq] at heq
  obtain ⟨-, hphys, hlen⟩ := heq
  rw [region, region, hphys, ← UInt32.toNat_toUInt64, hlen, UInt32.toNat_toUInt64]

/-- Mapped buffers that are apart have copies that are apart. -/
theorem copies_apart (hi : PoolInv s) {p q : UInt64 × DriverBuf} (hp : p.2.mapping p.1 ∈ s.live)
    (hq : q.2.mapping q.1 ∈ s.live) (h : p.2.region.Apart q.2.region) : (copyAt p).Apart (copyAt q) := by
  intro x h1 h2
  have heq := hi.eq_of_common hp hq (p.1, p.2.len.toUInt64) (q.1, q.2.len.toUInt64) List.mem_cons_self
    List.mem_cons_self (onPages_of_mem (copyAt_eq p ▸ h1)) (onPages_of_mem (copyAt_eq q ▸ h2))
  -- the same buffer twice, and not an empty one
  obtain ⟨i, hi, -⟩ := Region.exists_add_of_mem h1
  have hin : p.2.region.base + i ∈ p.2.region := Region.add_mem hi
  exact h _ hin (DriverBuf.region_eq heq ▸ hin)

/-- A coherent allocation is apart from the copies. -/
theorem coherent_apart (hi : PoolInv s) {p : UInt64 × DriverBuf} {h n : UInt64}
    (hp : p.2.mapping p.1 ∈ s.live) (hc : .coherent h n ∈ s.live) :
    Region.Apart ⟨h.toNat, n.toNat⟩ (copyAt p) := by
  intro x h1 h2
  have heq := hi.eq_of_common hc hp (h, n) (p.1, p.2.len.toUInt64) List.mem_cons_self List.mem_cons_self
    (onPages_of_mem h1) (onPages_of_mem (copyAt_eq p ▸ h2))
  cases heq

theorem copyAt_sub (hi : PoolInv s) {p : UInt64 × DriverBuf} (hp : p.2.mapping p.1 ∈ s.live) :
    (copyAt p).Sub (apertureRegion s.kernel.pool) := by
  rw [copyAt_eq]
  exact hi.handed_sub hp (g := (p.1, p.2.len.toUInt64)) List.mem_cons_self

end

/-! ## The invariant -/

/-- The pool's books and where things are. -/
structure TripBase (r : PooledReq) (t : TripState) : Prop where
  inv : PoolInv t.pool
  buffers : BufferInv t.pool
  window : (apertureRegion t.pool.kernel.pool).Sub ⟨t.uio.dmaBase.toNat, t.uio.dmaSize.toNat⟩
  outside : ∀ b ∈ r.bufs, b.region.Apart (apertureRegion t.pool.kernel.pool)
  ring : .coherent r.ring.1 r.ring.2 ∈ t.pool.live
  taken : t.maps.map Prod.snd = r.bufs.take t.maps.length
  count : t.back ≤ t.maps.length
  live : ∀ p ∈ t.maps.drop t.back, p.2.mapping p.1 ∈ t.pool.live
  table : ∀ e ∈ t.table, e.Sub ⟨r.ring.1.toNat, r.ring.2.toNat⟩

/-- Before the chain is posted: the driver's buffers are as they were, and the
copies the device may not write are made. -/
structure Packing (r : PooledReq) (m₀ image₀ : Mem) (t : TripState) : Prop where
  back : t.back = 0
  table : t.table = []
  image : t.uio.ram.image = image₀
  kept : ∀ b ∈ r.bufs, ∀ x ∈ b.region, t.pool.kernel.mem x = m₀ x
  filled : ∀ q ∈ t.maps, q.2.writable = false → ∀ i < q.2.len.toNat,
    t.pool.kernel.mem (q.1.toNat + i) = m₀ (q.2.phys.toNat + i)

/-- Copies that the device may write. -/
def TripState.stores (t : TripState) : List Region := (t.maps.filter fun p => p.2.writable).map copyAt

/-- `w` is as the disk leaves it that serves the request the chain held in `m`. -/
def ServedIn (r : PooledReq) (image₀ m : Mem) (h : VirtioDesc) (ds : List VirtioDesc) (last : VirtioDesc)
    (w : Ram) : Prop :=
  ∀ stable, (w.mem last.addr.toNat, gather w.mem ds) =
      (serve r.dev.priv.backend.shape ⟨image₀, stable⟩ (reqOf m h ds)).1.seen ∧
    w.image = (serve r.dev.priv.backend.shape ⟨image₀, stable⟩ (reqOf m h ds)).2.image

/-- From the post on, when memory was `m`: the daemon's code `p` goes on as it
does alone in `w`, which shows in the descriptors and in the copies that are
still mapped; the others are back in the driver's buffers. -/
structure Underway (r : PooledReq) (m₀ image₀ : Mem) (h : VirtioDesc) (ds : List VirtioDesc)
    (last : VirtioDesc) (m : Mem) (t : TripState) (p : FabricM (BlkdVirtioDevice × Option UInt32))
    (w : Ram) : Prop where
  carries : Carries r t.maps h ds last
  filled : ∀ q ∈ t.maps, q.2.writable = false → ∀ i < q.2.len.toNat,
    m (q.1.toNat + i) = m₀ (q.2.phys.toNat + i)
  image : t.uio.ram.image = w.image
  descs : ∀ e ∈ t.table, ∀ x ∈ e, t.pool.kernel.mem x = w.mem x
  copies : ∀ q ∈ t.maps.drop t.back, ∀ x ∈ copyAt q, t.pool.kernel.mem x = w.mem x
  waiting : ∀ q ∈ t.maps.drop t.back, ∀ x ∈ q.2.region, t.pool.kernel.mem x = m₀ x
  returned : ∀ q ∈ t.maps.take t.back, ∀ i < q.2.len.toNat,
    t.pool.kernel.mem (q.2.phys.toNat + i) = w.mem (q.1.toNat + i)
  unwritten : ∀ q ∈ t.maps, q.2.writable = false → ∀ x ∈ copyAt q, w.mem x = m x
  stays : ∀ e ∈ p.events (Ram.answer t.uio.canMap) w,
    StaysIn (t.table ++ t.maps.map copyAt) t.stores e.1
  serves : ∃ d' used w', p.run (Ram.answer t.uio.canMap) w = (.ok (d', some used), w') ∧
    ServedIn r image₀ m h ds last w'
  early : t.back ≠ 0 → ∃ a, p = .ret a

section
variable {find : Bitmap → Nat → Nat → Nat} {r : PooledReq} {m₀ image₀ : Mem} {t : TripState}

theorem TripBase.buf_mem (hb : TripBase r t) {q : UInt64 × DriverBuf} (hq : q ∈ t.maps) : q.2 ∈ r.bufs :=
  List.mem_of_mem_take (hb.taken ▸ List.mem_map_of_mem hq)

/-- The books after an operation of the pool. -/
theorem TripBase.step (hb : TripBase r t) (hf : ZeroArea find) {op : PoolOp} (hg : Behaved t.pool op)
    (hring : op.target ≠ some (.coherent r.ring.1 r.ring.2)) {maps : List (UInt64 × DriverBuf)} {back : Nat}
    (htaken : maps.map Prod.snd = r.bufs.take maps.length) (hcount : back ≤ maps.length)
    (hlive : ∀ p ∈ maps.drop back, p.2.mapping p.1 ∈ (poolStep find t.pool op).live) :
    TripBase r { t with pool := poolStep find t.pool op, maps := maps, back := back } where
  inv := hb.inv.step hf hg.1 hg.2.1
  buffers := hb.buffers.step hf hb.inv hg.2.2
  window := by
    rw [(poolStep_same find t.pool op).region]
    exact hb.window
  outside := by
    rw [(poolStep_same find t.pool op).region]
    exact hb.outside
  ring := live_of_target hb.ring hring
  taken := htaken
  count := hcount
  live := hlive
  table := hb.table

/-! ## Others -/

/-- Others do not change what is the request's. -/
theorem OtherOk.keeps (hf : ZeroArea find) (hb : TripBase r t) {op : PoolOp} (ho : OtherOk r t op) {x : Nat}
    (hx : t.Mine r x) : (poolStep find t.pool op).kernel.mem x = t.pool.kernel.mem x := by
  by_cases htouch : ∃ m, op = .touch m
  · obtain ⟨m, rfl⟩ := htouch
    exact ho.touch m rfl x hx
  refine hb.inv.step_keeps hf hb.buffers ho.behaved.1 (fun m e => htouch ⟨m, e⟩) ?_
  rcases hx with ⟨b, hbuf, hx⟩ | ⟨q, hq, hx⟩ | ⟨e, he, hx⟩
  · exact .inr ⟨hb.outside b hbuf x hx, fun c hc hxc => ho.buffers c hc b hbuf x hxc hx⟩
  · refine .inl ⟨_, hb.live q hq, ho.target _ (List.mem_cons_of_mem _ (List.mem_map_of_mem hq)),
      (q.1, q.2.len.toUInt64), List.mem_cons_self, ?_⟩
    exact copyAt_eq q ▸ hx
  · exact .inl ⟨_, hb.ring, ho.target _ List.mem_cons_self, r.ring, List.mem_cons_self, hb.table e he x hx⟩

theorem OtherOk.base (hf : ZeroArea find) (hb : TripBase r t) {op : PoolOp} (ho : OtherOk r t op) :
    TripBase r (tripStep find r t (.other op)) := by
  refine hb.step hf ho.behaved (ho.target _ List.mem_cons_self) hb.taken hb.count fun q hq => ?_
  exact live_of_target (hb.live q hq) (ho.target _ (List.mem_cons_of_mem _ (List.mem_map_of_mem hq)))

theorem Packing.other (hf : ZeroArea find) (hb : TripBase r t) {op : PoolOp} (ho : OtherOk r t op)
    (h : Packing r m₀ image₀ t) : Packing r m₀ image₀ (tripStep find r t (.other op)) where
  back := h.back
  table := h.table
  image := h.image
  kept b hbuf x hx := (ho.keeps hf hb (.inl ⟨b, hbuf, hx⟩)).trans (h.kept b hbuf x hx)
  filled q hq hw i hi := by
    refine (ho.keeps hf hb (.inr (.inl ⟨q, ?_, Region.add_mem hi⟩))).trans (h.filled q hq hw i hi)
    rwa [h.back]

theorem Underway.other (hf : ZeroArea find) (hb : TripBase r t) {op : PoolOp} (ho : OtherOk r t op)
    {h last : VirtioDesc} {ds : List VirtioDesc} {m : Mem} {p : FabricM (BlkdVirtioDevice × Option UInt32)}
    {w : Ram} (hs : Underway r m₀ image₀ h ds last m t p w) :
    Underway r m₀ image₀ h ds last m (tripStep find r t (.other op)) p w where
  carries := hs.carries
  filled := hs.filled
  image := hs.image
  descs e he x hx := (ho.keeps hf hb (.inr (.inr ⟨e, he, hx⟩))).trans (hs.descs e he x hx)
  copies q hq x hx := (ho.keeps hf hb (.inr (.inl ⟨q, hq, hx⟩))).trans (hs.copies q hq x hx)
  waiting q hq x hx := by
    have hbuf := hb.buf_mem (List.mem_of_mem_drop hq)
    exact (ho.keeps hf hb (.inl ⟨q.2, hbuf, hx⟩)).trans (hs.waiting q hq x hx)
  returned q hq i hi := by
    have hbuf := hb.buf_mem (List.mem_of_mem_take hq)
    exact (ho.keeps hf hb (.inl ⟨q.2, hbuf, Region.add_mem hi⟩)).trans (hs.returned q hq i hi)
  unwritten := hs.unwritten
  stays := hs.stays
  serves := hs.serves
  early := hs.early

/-! ## Mapping -/

/-- A mapping that succeeds is bounced; the copy is made if the device may read. -/
theorem tripStep_map (hf : ZeroArea find) (hb : TripBase r t) (env : Env) :
    tripStep find r t (.map env) = t ∨
    ∃ b h, r.bufs[t.maps.length]? = some b ∧
      Behaved t.pool (.mapPhys env b.phys b.len.toUInt64 b.dir) ∧
      tripStep find r t (.map env) = { t with
        pool := poolStep find t.pool (.mapPhys env b.phys b.len.toUInt64 b.dir)
        maps := t.maps ++ [(h, b)] } ∧
      b.mapping h ∈ (poolStep find t.pool (.mapPhys env b.phys b.len.toUInt64 b.dir)).live ∧
      (b.writable = false → ∀ i < b.len.toNat,
        (poolStep find t.pool (.mapPhys env b.phys b.len.toUInt64 b.dir)).kernel.mem (h.toNat + i) =
          t.pool.kernel.mem (b.phys.toNat + i)) := by
  simp only [tripStep]
  split
  · exact .inl rfl
  next b hbuf =>
  split
  · exact .inl rfl
  next hok =>
  have hout : Region.Apart ⟨b.phys.toNat, b.len.toUInt64.toNat⟩ (apertureRegion t.pool.kernel.pool) := by
    rw [UInt32.toNat_toUInt64]
    exact hb.outside b (List.mem_of_getElem? hbuf)
  have hbehaved : Behaved t.pool (.mapPhys env b.phys b.len.toUInt64 b.dir) := by
    refine ⟨fun hsize hin => ?_, trivial, fun _ => hout⟩
    rw [inAperture_of_apart hout hsize] at hin
    cases hin
  refine .inr ⟨b, _, hbuf, hbehaved, rfl, ?_⟩
  simp only [poolStep]
  cases hmap : dmaMapPhys find t.pool.kernel env b.phys b.len.toUInt64 b.dir with
  | mk h k =>
    rw [hmap] at hok
    rcases dmaMapPhys_cases hf hb.inv.aperture hmap with hc | ⟨hsize, hin, -, -⟩ | ⟨-, hin, -, -, rfl⟩
    · exact absurd hc.1 hok
    · rw [inAperture_of_apart hout hsize] at hin
      cases hin
    · simp only [if_neg hok, hin]
      refine ⟨List.mem_cons_self, fun hw i hi => ?_⟩
      simp only [DriverBuf.dir, hw]
      exact copyBytes_in (by rwa [UInt32.toNat_toUInt64])

theorem TripBase.map (hf : ZeroArea find) (hb : TripBase r t) (env : Env) :
    TripBase r (tripStep find r t (.map env)) := by
  rcases tripStep_map hf hb env with he | ⟨b, h, hbuf, hg, he, hlive, -⟩
  · rwa [he]
  rw [he]
  refine hb.step hf hg (by simp [PoolOp.target]) ?_ ?_ fun q hq => ?_
  · rw [List.map_append, hb.taken, List.length_append, List.length_singleton, List.take_add_one, hbuf]
    rfl
  · rw [List.length_append]
    exact Nat.le_trans hb.count (Nat.le_add_right _ _)
  · rw [List.drop_append] at hq
    rcases List.mem_append.1 hq with hq | hq
    · exact live_of_target (hb.live q hq) (by simp [PoolOp.target])
    · rw [List.mem_singleton.1 (List.mem_of_mem_drop hq)]
      exact hlive

theorem Packing.map (hf : ZeroArea find) (hb : TripBase r t) (h : Packing r m₀ image₀ t) (env : Env) :
    Packing r m₀ image₀ (tripStep find r t (.map env)) := by
  rcases tripStep_map hf hb env with he | ⟨b, hd, hbuf, hg, he, -, hcopy⟩
  · rwa [he]
  rw [he]
  have hmem := hb.inv.mapPhys_mem hf env b.phys b.len.toUInt64 b.dir
  have hkept : ∀ c ∈ r.bufs, ∀ x ∈ c.region,
      (poolStep find t.pool (.mapPhys env b.phys b.len.toUInt64 b.dir)).kernel.mem x = m₀ x :=
    fun c hc x hx => (hmem x fun hfree => hb.outside c hc x hx hfree.1).trans (h.kept c hc x hx)
  refine ⟨h.back, h.table, h.image, hkept, fun q hq hw i hi => ?_⟩
  rcases List.mem_append.1 hq with hq | hq
  · refine (hmem _ ?_).trans (h.filled q hq hw i hi)
    have hlive := hb.live q (by rwa [h.back])
    refine hb.inv.handed_taken hlive (r := (q.1, q.2.len.toUInt64)) List.mem_cons_self ?_
    rw [← copyAt_eq]
    exact Region.add_mem hi
  · cases List.mem_singleton.1 hq
    rw [hcopy hw i hi]
    exact h.kept b (List.mem_of_getElem? hbuf) _ (Region.add_mem hi)

/-! ## Posting -/

theorem TripBase.maps_apart (hb : TripBase r t) :
    t.maps.Pairwise fun p q => p.2.region.Apart q.2.region := by
  have h : (t.maps.map Prod.snd).Pairwise fun b c => b.region.Apart c.region := by
    rw [hb.taken]
    exact r.apart.sublist (List.take_sublist _ _)
  exact (List.pairwise_map (f := Prod.snd)).1 h

theorem TripBase.apart_of_ne (hb : TripBase r t) {p q : UInt64 × DriverBuf} (hp : p ∈ t.maps)
    (hq : q ∈ t.maps) (hne : p ≠ q) : p.2.region.Apart q.2.region :=
  have : Std.Symm fun p q : UInt64 × DriverBuf => p.2.region.Apart q.2.region := ⟨fun _ _ h => h.symm⟩
  hb.maps_apart.forall hp hq hne

variable {h last : VirtioDesc} {ds : List VirtioDesc}

/-- The chain the driver posts is a request chain within the limits. -/
theorem Posted.reqChain (hp : Posted r t h ds last) (hb : TripBase r t) (hback : t.back = 0)
    (hc : Carries r t.maps h ds last) :
    ReqChain t.pool.kernel.mem (r.dev.queue 0) r.head h ds last := by
  obtain ⟨ps, -, hps, hds, -, -, -, -⟩ := hc.split
  have hlen := hc.length_eq
  have hlive : ∀ q ∈ t.maps, q.2.mapping q.1 ∈ t.pool.live := fun q hq => hb.live q (by rwa [hback])
  refine ⟨hp.chain, hlen ▸ r.segMax, fun d hd => ?_, hlen ▸ r.queueMax, ?_, fun j hj e he => ?_⟩
  · obtain ⟨q, hq, he⟩ := List.mem_map.1 (hds ▸ List.mem_map_of_mem (f := carried) hd)
    have hd : q.2.len = d.len := congrArg (fun c => c.2.1) he
    exact hd ▸ r.sizeMax q.2 (hps ▸ List.mem_map_of_mem hq)
  · rw [hc.reqBufs_eq, List.pairwise_map]
    exact hb.maps_apart.imp_of_mem fun hq hq' => copies_apart hb.inv (hlive _ hq) (hlive _ hq')
  · rw [hc.reqBufs_eq] at he
    obtain ⟨q, hq, rfl⟩ := List.mem_map.1 he
    exact (coherent_apart hb.inv (hlive q hq) hb.ring).mono (hp.ring j hj) (.refl _)

theorem TripBase.post (hb : TripBase r t) (hp : Posted r t h ds last) :
    TripBase r (tripStep find r t (.post h ds last)) where
  inv := hb.inv
  buffers := hb.buffers
  window := hb.window
  outside := hb.outside
  ring := hb.ring
  taken := hb.taken
  count := hb.count
  live := hb.live
  table e he := by
    obtain ⟨j, hj, rfl⟩ := List.mem_map.1 he
    exact hp.ring j hj

/-- The daemon's code alone, in the memory of the post, serves the request. -/
theorem Packing.post (hk : Packing r m₀ image₀ t) (hb : TripBase r t)
    (hlen : t.maps.length = r.bufs.length) (hp : Posted r t h ds last) :
    Underway r m₀ image₀ h ds last t.pool.kernel.mem (tripStep find r t (.post h ds last))
      (processChain r.direct r.fuel r.dev r.head) t.fabric.ram := by
  have hc : Carries r t.maps h ds last := ⟨by rw [hb.taken, hlen, List.take_length], hp.carries⟩
  have hq : ReqChain t.fabric.ram.mem (r.dev.queue 0) r.head h ds last := hp.reqChain hb hk.back hc
  have hstays := (processChain_stays t.uio.canMap r.direct r.fuel hq).1
  rw [hc.reqBufs_eq, hc.storeBufs_eq] at hstays
  have hserves := fun stable => processChain_serves t.uio.canMap r.direct stable hq r.imageMax
    (hc.length_eq ▸ r.enough)
  obtain ⟨d', used, w', hrun, -⟩ := hserves t.uio.ram.image
  refine ⟨hc, hk.filled, rfl, fun _ _ _ _ => rfl, fun _ _ _ _ => rfl,
    fun q hq x hx => hk.kept q.2 (hb.buf_mem (List.mem_of_mem_drop hq)) x hx, fun q hq => ?_,
    fun _ _ _ _ _ => rfl, hstays, ⟨d', used, w', hrun, fun stable => ?_⟩, fun hne => absurd hk.back hne⟩
  · simp [tripStep, hk.back] at hq
  · obtain ⟨d₂, used₂, w₂, hrun₂, -, -, hsv⟩ := hserves stable
    rw [hrun] at hrun₂
    cases hrun₂
    rwa [show t.fabric.ram.image = image₀ from hk.image] at hsv

/-! ## The daemon's calls -/

/-- All that the daemon may reach is in the aperture, while nothing is unmapped. -/
theorem TripBase.zone_sub (hb : TripBase r t) (hback : t.back = 0) :
    ∀ e ∈ t.table ++ t.maps.map copyAt, e.Sub (apertureRegion t.pool.kernel.pool) := by
  intro e he
  rcases List.mem_append.1 he with he | he
  · exact fun x hx => hb.inv.handed_sub hb.ring (g := r.ring) List.mem_cons_self x (hb.table e he x hx)
  · obtain ⟨q, hq, rfl⟩ := List.mem_map.1 he
    exact copyAt_sub hb.inv (hb.live q (by rwa [hback]))

theorem TripState.mem_stores {e : Region} :
    e ∈ t.stores ↔ ∃ q ∈ t.maps, q.2.writable = true ∧ copyAt q = e := by
  simp only [TripState.stores, List.mem_map, List.mem_filter, and_assoc]

section
variable {c : Call} {k : fabricSig.Reply c → FabricM (BlkdVirtioDevice × Option UInt32)} {w : Ram} {m : Mem}

theorem tripStep_call (hcode : t.code = some (.call c k)) :
    tripStep find r t .call = { t with
      pool := ⟨⟨t.pool.kernel.pool, (t.fabric.answer c).2.ram.mem⟩, t.pool.live⟩
      uio := (t.fabric.answer c).2
      code := some (k (t.fabric.answer c).1) } := by
  simp only [tripStep, hcode]

theorem tripStep_call_canMap (find : Bitmap → Nat → Nat → Nat) (r : PooledReq)
    (hcode : t.code = some (.call c k)) :
    (tripStep find r t .call).uio.canMap = t.uio.canMap := by
  rw [tripStep_call hcode]
  exact t.fabric.answer_canMap c

theorem TripBase.call (hb : TripBase r t) (hcode : t.code = some (.call c k)) :
    TripBase r (tripStep find r t .call) := by
  obtain ⟨hbase, hsize⟩ := t.fabric.answer_window c
  rw [tripStep_call hcode]
  refine ⟨⟨hb.inv.aperture, hb.inv.ranges, hb.inv.owns, hb.inv.bounces, hb.inv.passes⟩, hb.buffers, ?_,
    hb.outside, hb.ring, hb.taken, hb.count, hb.live, hb.table⟩
  rw [hbase, hsize]
  exact hb.window

/-- A call of the daemon is answered as in `w`. -/
theorem Underway.call (find : Bitmap → Nat → Nat → Nat)
    (hs : Underway r m₀ image₀ h ds last m t (.call c k) w) (hb : TripBase r t)
    (hcode : t.code = some (.call c k)) :
    (tripStep find r t .call).code = some (k (w.answer t.uio.canMap c).1) ∧
    Underway r m₀ image₀ h ds last m (tripStep find r t .call) (k (w.answer t.uio.canMap c).1)
      (w.answer t.uio.canMap c).2 := by
  have hback : t.back = 0 := Decidable.byContradiction fun hne => by
    obtain ⟨a, ha⟩ := hs.early hne
    cases ha
  have hc : StaysIn (t.table ++ t.maps.map copyAt) t.stores c := hs.stays _ List.mem_cons_self
  have hlive : ∀ q ∈ t.maps, q.2.mapping q.1 ∈ t.pool.live := fun q hq => hb.live q (by rwa [hback])
  have hzone := hb.zone_sub hback
  have hstores : ∀ e ∈ t.stores, e.Sub (apertureRegion t.pool.kernel.pool) := fun e he => by
    obtain ⟨q, hq, -, rfl⟩ := TripState.mem_stores.1 he
    exact copyAt_sub hb.inv (hlive q hq)
  have halike : Alike (t.table ++ t.maps.map copyAt) t.fabric w := by
    refine ⟨hs.image, fun e he x hx => ?_⟩
    rcases List.mem_append.1 he with he | he
    · exact hs.descs e he x hx
    · obtain ⟨q, hq, rfl⟩ := List.mem_map.1 he
      exact hs.copies q (by rwa [hback]) x hx
  obtain ⟨hreply, halike⟩ := halike.answer hc (fun e he x hx => hb.window x (hzone e he x hx))
    fun e he x hx => hb.window x (hstores e he x hx)
  have hkept := uioAnswer_stays t.fabric hc
  have hcan := tripStep_call_canMap find r hcode
  rw [tripStep_call hcode] at hcan
  rw [tripStep_call hcode, show (t.fabric.answer c).1 = (w.answer t.uio.canMap c).1 from hreply]
  refine ⟨rfl, hs.carries, hs.filled, halike.1, fun e he => halike.2 e (List.mem_append_left _ he),
    fun q hq => halike.2 _ (List.mem_append_right _ (List.mem_map_of_mem (List.mem_of_mem_drop hq))),
    fun q hq x hx => ?_, fun q hq => ?_, fun q hq hw x hx => ?_, fun e he => ?_, ?_, fun hne => absurd hback hne⟩
  · -- the driver's buffers are not in the pool
    refine (hkept x ?_).trans (hs.waiting q hq x hx)
    rintro ⟨e, he, hxe⟩
    exact hb.outside _ (hb.buf_mem (List.mem_of_mem_drop hq)) x hx (hstores e he x hxe)
  · simp [hback] at hq
  · refine (ramAnswer_stays _ w hc x ?_).trans (hs.unwritten q hq hw x hx)
    rintro ⟨e, he, hxe⟩
    obtain ⟨q', hq', hw', rfl⟩ := TripState.mem_stores.1 he
    have hne : q ≠ q' := fun e => by simp [← e, hw] at hw'
    exact copies_apart hb.inv (hlive q hq) (hlive q' hq') (hb.apart_of_ne hq hq' hne) x hx hxe
  · rw [hcan] at he
    exact hs.stays e (List.mem_cons_of_mem _ he)
  · rw [hcan]
    exact hs.serves

end

/-! ## Unmapping -/

theorem drop_back {q : UInt64 × DriverBuf} (hq : t.maps[t.back]? = some q) :
    t.maps.drop t.back = q :: t.maps.drop (t.back + 1) := by
  obtain ⟨hlt, rfl⟩ := List.getElem?_eq_some_iff.1 hq
  exact List.drop_eq_getElem_cons hlt

/-- Unmapping the next buffer changes nothing else, and brings back what the
device may have written. -/
theorem tripStep_unmap (hb : TripBase r t) {env : Env} (hok : env.memremapOk = true) :
    tripStep find r t (.unmap env) = t ∨
    ∃ q, t.maps[t.back]? = some q ∧ Behaved t.pool (.unmapPhys env (q.2.mapping q.1) q.2.dir) ∧
      tripStep find r t (.unmap env) = { t with
        pool := poolStep find t.pool (.unmapPhys env (q.2.mapping q.1) q.2.dir)
        back := t.back + 1 } ∧
      (∀ x, x ∉ q.2.region →
        (poolStep find t.pool (.unmapPhys env (q.2.mapping q.1) q.2.dir)).kernel.mem x = t.pool.kernel.mem x) ∧
      ∀ i < q.2.len.toNat,
        (poolStep find t.pool (.unmapPhys env (q.2.mapping q.1) q.2.dir)).kernel.mem (q.2.phys.toNat + i) =
          t.pool.kernel.mem ((if q.2.writable then q.1.toNat else q.2.phys.toNat) + i) := by
  cases hq : t.maps[t.back]? with
  | none => exact .inl (by simp only [tripStep, hq])
  | some q =>
    have hm : q.2.mapping q.1 ∈ t.pool.live := hb.live q (drop_back hq ▸ List.mem_cons_self)
    have hcaller : CallerOk t.pool (.unmapPhys env (q.2.mapping q.1) q.2.dir) := ⟨hm, .inr ⟨_, _, _, rfl⟩⟩
    refine .inr ⟨q, rfl, ⟨hcaller, trivial, trivial⟩, by simp only [tripStep, hq], fun x hx => ?_,
      fun i hi => ?_⟩
    · refine hb.inv.unmapPhys_mem env q.2.dir hcaller x ?_
      rintro ⟨e, he, hxe⟩
      rw [List.mem_singleton.1 he, UInt32.toNat_toUInt64] at hxe
      exact hx hxe
    · have hr := hb.inv.range_of_mem hm (r := (q.1, q.2.len.toUInt64)) List.mem_cons_self
      simp only [poolStep, DriverBuf.mapping, Mapping.handle,
        dmaUnmapPhys_bounced hb.inv.aperture hr (hb.inv.bounceFind_bounced hm), hok, DriverBuf.dir]
      cases q.2.writable with
      | true => exact copyBytes_in (by rwa [UInt32.toNat_toUInt64])
      | false => rfl

/-- A buffer that is still mapped is not the one that is unmapped. -/
theorem TripBase.apart_of_drop (hb : TripBase r t) {q : UInt64 × DriverBuf} (hq : t.maps[t.back]? = some q)
    {p : UInt64 × DriverBuf} (hp : p ∈ t.maps.drop (t.back + 1)) : q.2.region.Apart p.2.region := by
  have h := hb.maps_apart.sublist (List.drop_sublist t.back _)
  rw [drop_back hq] at h
  exact (List.pairwise_cons.1 h).1 p hp

theorem TripBase.unmap (hf : ZeroArea find) (hb : TripBase r t) {env : Env} (hok : env.memremapOk = true) :
    TripBase r (tripStep find r t (.unmap env)) := by
  rcases tripStep_unmap hb hok with he | ⟨q, hq, hg, he, -⟩
  · rwa [he]
  rw [he]
  obtain ⟨hlt, -⟩ := List.getElem?_eq_some_iff.1 hq
  refine hb.step hf hg (by simp [PoolOp.target, DriverBuf.mapping]) hb.taken hlt fun p hp => ?_
  have hlive : ∀ p ∈ q :: t.maps.drop (t.back + 1), p.2.mapping p.1 ∈ t.pool.live := fun p hp =>
    hb.live p (drop_back hq ▸ hp)
  refine live_of_target (hlive p (List.mem_cons_of_mem _ hp)) fun ht => ?_
  -- the same buffer twice, and not an empty one
  have hpos := (hb.inv.range_of_mem (hlive q List.mem_cons_self) (r := (q.1, q.2.len.toUInt64))
    List.mem_cons_self).pos
  rw [UInt32.toNat_toUInt64] at hpos
  have hin : q.2.region.base + 0 ∈ q.2.region := Region.add_mem hpos
  exact hb.apart_of_drop hq hp _ hin (DriverBuf.region_eq (Option.some.inj ht) ▸ hin)

theorem Underway.unmap (find : Bitmap → Nat → Nat → Nat) {m : Mem}
    {p : FabricM (BlkdVirtioDevice × Option UInt32)} {w : Ram}
    (hs : Underway r m₀ image₀ h ds last m t p w) (hb : TripBase r t) {env : Env}
    (hok : env.memremapOk = true) (hret : ∃ a, p = .ret a) :
    Underway r m₀ image₀ h ds last m (tripStep find r t (.unmap env)) p w := by
  rcases tripStep_unmap hb hok with he | ⟨q, hq, hg, he, hout, hin⟩
  · rwa [he]
  have hdrop := drop_back hq
  have hqm : q ∈ t.maps := List.mem_of_getElem? hq
  have hqd : q ∈ t.maps.drop t.back := hdrop ▸ List.mem_cons_self
  have hrest : ∀ p ∈ t.maps.drop (t.back + 1), p ∈ t.maps.drop t.back := fun p hp =>
    hdrop ▸ List.mem_cons_of_mem _ hp
  -- what is in the aperture stays as it is
  have hpool : ∀ x ∈ apertureRegion t.pool.kernel.pool, x ∉ q.2.region := fun x hx hxq =>
    hb.outside _ (hb.buf_mem hqm) x hxq hx
  rw [he]
  refine ⟨hs.carries, hs.filled, hs.image, fun e he x hx => ?_, fun p hp x hx => ?_, fun p hp x hx => ?_,
    fun p hp i hi => ?_, hs.unwritten, hs.stays, hs.serves, fun _ => hret⟩
  · refine (hout x (hpool x ?_)).trans (hs.descs e he x hx)
    exact hb.inv.handed_sub hb.ring (g := r.ring) List.mem_cons_self x (hb.table e he x hx)
  · refine (hout x (hpool x ?_)).trans (hs.copies p (hrest p hp) x hx)
    exact copyAt_sub hb.inv (hb.live p (hrest p hp)) x hx
  · refine (hout x ?_).trans (hs.waiting p (hrest p hp) x hx)
    exact (hb.apart_of_drop hq hp).symm x hx
  · dsimp only at hp
    rw [List.take_add_one, hq] at hp
    rcases List.mem_append.1 hp with hp | hp
    · refine (hout _ fun hx => ?_).trans (hs.returned p hp i hi)
      have hap := hb.maps_apart
      rw [← List.take_append_drop t.back t.maps] at hap
      exact (List.pairwise_append.1 hap).2.2 p hp q hqd _ (Region.add_mem hi) hx
    · cases List.mem_singleton.1 hp
      rw [hin i hi]
      cases hw : q.2.writable with
      | true => exact hs.copies q hqd _ (Region.add_mem hi)
      | false =>
        have hcopy : w.mem (q.1.toNat + i) = m₀ (q.2.phys.toNat + i) :=
          (hs.unwritten q hqm hw _ (Region.add_mem hi)).trans (hs.filled q hqm hw i hi)
        exact (hs.waiting q hqd _ (Region.add_mem hi)).trans hcopy.symm

/-! ## Runs -/

def TripAct.calls : TripAct → Nat
  | .call => 1
  | _ => 0

/-- The chain is posted, and the daemon's code has `n` calls to make. -/
def CallsLeft (r : PooledReq) (m₀ image₀ : Mem) (n : Nat) (t : TripState) : Prop :=
  ∃ h ds last m p w, t.code = some p ∧ Underway r m₀ image₀ h ds last m t p w ∧
    (p.events (Ram.answer t.uio.canMap) w).length = n

def TripInv (r : PooledReq) (m₀ image₀ : Mem) (t : TripState) : Prop :=
  TripBase r t ∧ (t.code = none ∧ Packing r m₀ image₀ t ∨ ∃ n, CallsLeft r m₀ image₀ n t)

/-- Only the daemon's own steps use up its calls. -/
theorem CallsLeft.step (hf : ZeroArea find) (hb : TripBase r t) {n : Nat} (hs : CallsLeft r m₀ image₀ n t)
    {a : TripAct} (hok : TripOk r t a) :
    TripBase r (tripStep find r t a) ∧
      ∃ n', CallsLeft r m₀ image₀ n' (tripStep find r t a) ∧ n' + a.calls = n := by
  obtain ⟨h, ds, last, m, p, w, hcode, hs, hn⟩ := hs
  cases a with
  | other op => exact ⟨hok.base hf hb, n, ⟨h, ds, last, m, p, w, hcode, hs.other hf hb hok, hn⟩, rfl⟩
  | map env => simp [TripOk, hcode] at hok
  | post => simp [TripOk, hcode] at hok
  | call =>
    obtain ⟨c, k, hck⟩ := hok
    cases hcode.symm.trans hck
    obtain ⟨hcode', hs'⟩ := hs.call find hb hcode
    refine ⟨hb.call hcode, _, ⟨h, ds, last, m, _, _, hcode', hs', rfl⟩, ?_⟩
    rw [tripStep_call_canMap find r hcode]
    exact hn
  | unmap env =>
    obtain ⟨⟨a, ha⟩, henv⟩ := hok
    cases hcode.symm.trans ha
    have hs' := hs.unmap find hb henv ⟨a, rfl⟩
    refine ⟨hb.unmap hf henv, n, ⟨h, ds, last, m, _, w, ?_, hs', ?_⟩, rfl⟩
    · simp only [tripStep]
      split <;> exact ha
    · exact hn

theorem CallsLeft.run (hf : ZeroArea find) {t' : TripState} {acts : List TripAct}
    (hr : (tripLts find r m₀ image₀).Run t acts t') (hb : TripBase r t) {n : Nat}
    (hs : CallsLeft r m₀ image₀ n t) :
    TripBase r t' ∧ ∃ n', CallsLeft r m₀ image₀ n' t' ∧ n' + (acts.map TripAct.calls).sum = n := by
  induction hr generalizing n with
  | nil => exact ⟨hb, n, hs, rfl⟩
  | cons hstep _ ih =>
    obtain ⟨hok, rfl⟩ := hstep
    obtain ⟨hb, n₁, hs, h₁⟩ := hs.step hf hb hok
    obtain ⟨hb, n₂, hs, h₂⟩ := ih hb hs
    refine ⟨hb, n₂, hs, ?_⟩
    rw [List.map_cons, List.sum_cons]
    omega

theorem TripStart.inv (hf : ZeroArea find) (h : TripStart find r m₀ image₀ t) : TripInv r m₀ image₀ t := by
  obtain ⟨hi, hbuf⟩ := (behaved_inductive hf).reachable _ h.reachable
  obtain ⟨hmaps, hback, htable, hcode⟩ := h.fresh
  refine ⟨⟨hi, hbuf, h.window, h.outside, h.ring, ?_, ?_, ?_, ?_⟩, .inl ⟨hcode, hback, htable, h.image,
    fun _ _ _ _ => by rw [h.mem], ?_⟩⟩
  · simp [hmaps]
  · simp [hback]
  · simp [hmaps]
  · simp [htable]
  · simp [hmaps]

theorem tripInv_inductive (hf : ZeroArea find) :
    (tripLts find r m₀ image₀).Inductive (TripInv r m₀ image₀) where
  init _ h := h.inv hf
  step t a _ hi hstep := by
    obtain ⟨hb, hi⟩ := hi
    obtain ⟨hok, rfl⟩ := hstep
    rcases hi with ⟨hcode, hk⟩ | ⟨n, hs⟩
    · cases a with
      | other op => exact ⟨hok.base hf hb, .inl ⟨hcode, hk.other hf hb hok⟩⟩
      | map env =>
        refine ⟨hb.map hf env, .inl ⟨?_, hk.map hf hb env⟩⟩
        rcases tripStep_map hf hb env with he | ⟨b, h, -, -, he, -⟩
        · rwa [he]
        · rwa [he]
      | post h ds last =>
        obtain ⟨-, hlen, hp⟩ := hok
        exact ⟨hb.post hp, .inr ⟨_, h, ds, last, _, _, _, rfl, hk.post hb hlen hp, rfl⟩⟩
      | call =>
        obtain ⟨c, k, hck⟩ := hok
        cases hcode.symm.trans hck
      | unmap env =>
        obtain ⟨⟨a, ha⟩, -⟩ := hok
        cases hcode.symm.trans ha
    · obtain ⟨hb, n', hs, -⟩ := hs.step hf hb hok
      exact ⟨hb, .inr ⟨n', hs⟩⟩

/-! ## The result -/

/-- The code waits for an answer, or it has served the request. -/
theorem Underway.sound {m : Mem} {p : FabricM (BlkdVirtioDevice × Option UInt32)} {w : Ram}
    (hs : Underway r m₀ image₀ h ds last m t p w) :
    (∃ c k, p = .call c k) ∨ (∃ d used, p = .ret (d, some used)) ∧ ServedIn r image₀ m h ds last w := by
  obtain ⟨d', used, w', hrun, hserved⟩ := hs.serves
  cases p with
  | ret a =>
    cases hrun
    exact .inr ⟨⟨d', used, rfl⟩, hserved⟩
  | fault e => cases hrun
  | call c k => exact .inl ⟨c, k, rfl⟩

theorem CallsLeft.next {n : Nat} (hs : CallsLeft r m₀ image₀ n t) :
    (n = 0 ∧ ∃ d used, t.code = some (.ret (d, some used))) ∨ 0 < n ∧ ∃ c k, t.code = some (.call c k) := by
  obtain ⟨h, ds, last, m, p, w, hcode, hs, hn⟩ := hs
  rcases hs.sound with ⟨c, k, rfl⟩ | ⟨⟨d, used, rfl⟩, -⟩
  · exact .inr ⟨hn ▸ Nat.succ_pos _, c, k, hcode⟩
  · exact .inl ⟨hn.symm, d, used, hcode⟩

theorem CallsLeft.maps_length {n : Nat} (hs : CallsLeft r m₀ image₀ n t) :
    t.maps.length = r.bufs.length := by
  obtain ⟨h, ds, last, m, p, w, -, hs, -⟩ := hs
  rw [← hs.carries.bufs, List.length_map]

/-- The daemon can make its calls. -/
theorem CallsLeft.finish (hf : ZeroArea find) {n : Nat} (hb : TripBase r t)
    (hs : CallsLeft r m₀ image₀ n t) :
    ∃ t', (tripLts find r m₀ image₀).Run t (.replicate n .call) t' ∧
      (∃ d used, t'.code = some (.ret (d, some used))) ∧ t'.maps = t.maps ∧ t'.back = t.back := by
  induction n generalizing t with
  | zero =>
    rcases hs.next with ⟨-, hret⟩ | ⟨hpos, -⟩
    · exact ⟨t, .nil _, hret, rfl, rfl⟩
    · cases hpos
  | succ n ih =>
    rcases hs.next with ⟨h0, -⟩ | ⟨-, c, k, hcode⟩
    · cases h0
    have hok : TripOk r t .call := ⟨c, k, hcode⟩
    obtain ⟨hb', n', hs', he⟩ := hs.step hf hb hok
    cases Nat.succ.inj he
    obtain ⟨t', hrun, hret, hmaps, hback⟩ := ih hb' hs'
    rw [tripStep_call hcode] at hmaps hback
    exact ⟨t', .cons ⟨hok, rfl⟩ hrun, hret, hmaps, hback⟩

/-- And the driver can unmap the buffers. -/
theorem unmap_run (find : Bitmap → Nat → Nat → Nat) (r : PooledReq) (m₀ image₀ : Mem) {env : Env}
    (henv : env.memremapOk = true) (hret : ∃ a, t.code = some (.ret a)) (n : Nat)
    (hn : t.back + n ≤ t.maps.length) :
    ∃ t', (tripLts find r m₀ image₀).Run t (.replicate n (.unmap env)) t' ∧ t'.back = t.back + n := by
  induction n generalizing t with
  | zero => exact ⟨t, .nil _, rfl⟩
  | succ n ih =>
    have hq := List.getElem?_eq_getElem (l := t.maps) (i := t.back) (by omega)
    have hstep : tripStep find r t (.unmap env) = { t with
        pool := (tripStep find r t (.unmap env)).pool, back := t.back + 1 } := by
      simp only [tripStep, hq]
    obtain ⟨t', hrun, hback⟩ := ih (t := tripStep find r t (.unmap env)) (by rwa [hstep])
      (by rw [hstep]; dsimp only; omega)
    rw [hstep] at hback
    exact ⟨t', .cons ⟨⟨hret, henv⟩, rfl⟩ hrun, hback.trans (by dsimp only; omega)⟩

/-- When all is unmapped, the driver's memory and the image are those of the
disk that served the request in the driver's memory. -/
theorem Underway.result {m : Mem} {p : FabricM (BlkdVirtioDevice × Option UInt32)} {w : Ram}
    (hs : Underway r m₀ image₀ h ds last m t p w) (hb : TripBase r t) (hback : t.back = r.bufs.length) :
    ∃ m', (∀ b ∈ r.bufs, b.writable = false → ∀ x ∈ b.region,
        m' x = m₀ x ∧ t.pool.kernel.mem x = m₀ x) ∧
      ∀ stable, r.seen t.pool.kernel.mem =
          (serve r.dev.priv.backend.shape ⟨image₀, stable⟩ (r.held m')).1.seen ∧
        t.uio.ram.image = (serve r.dev.priv.backend.shape ⟨image₀, stable⟩ (r.held m')).2.image := by
  have hlen : t.maps.length = r.bufs.length := by rw [← hs.carries.bufs, List.length_map]
  have hreturned : ∀ q ∈ t.maps, ∀ i < q.2.len.toNat,
      t.pool.kernel.mem (q.2.phys.toNat + i) = w.mem (q.1.toNat + i) := fun q hq =>
    hs.returned q (by rwa [hback, ← hlen, List.take_length])
  have hserved : ServedIn r image₀ m h ds last w := by
    obtain ⟨a, rfl⟩ := hs.early (by simp [hback, PooledReq.bufs])
    rcases hs.sound with ⟨c, k, hck⟩ | ⟨-, hserved⟩
    · cases hck
    · exact hserved
  obtain ⟨m', hm'⟩ := exists_mem_of_apart (fun q : UInt64 × DriverBuf => q.2.region)
    (fun q i => m (q.1.toNat + i)) hb.maps_apart
  refine ⟨m', fun b hbuf hw x hx => ?_, fun stable => ?_⟩
  · obtain ⟨q, hq, rfl⟩ := List.mem_map.1 (hs.carries.bufs ▸ hbuf)
    obtain ⟨i, hi, rfl⟩ := Region.exists_add_of_mem hx
    have hfilled := hs.filled q hq hw i hi
    refine ⟨(hm' q hq i hi).trans hfilled, (hreturned q hq i hi).trans ?_⟩
    exact (hs.unwritten q hq hw _ (Region.add_mem hi)).trans hfilled
  · rw [(hs.carries.relocate hm').1, (hs.carries.relocate hreturned).2, hs.image]
    exact hserved stable

end

/-- **A request through the pool.** Once the chain is posted, the daemon's code
waits for an answer or has returned a used length, and how many calls it still
makes is not up to others; after them the driver can unmap its buffers.
When it has, they and the image are as the disk leaves them that serves the
request out of a memory `m`, which is the driver's own in all buffers the
device may only read; these are as they were. -/
theorem request_through_pool {find : Bitmap → Nat → Nat → Nat} (hf : ZeroArea find) (r : PooledReq)
    {m₀ image₀ : Mem} {t : TripState} (hr : (tripLts find r m₀ image₀).Reachable t) :
    (t.code.isSome → ∃ n,
      (0 < n → ∃ c k, t.code = some (.call c k)) ∧
      (∀ acts t', (tripLts find r m₀ image₀).Run t acts t' →
        (acts.map TripAct.calls).sum ≤ n ∧
        ((acts.map TripAct.calls).sum = n → ∃ d used, t'.code = some (.ret (d, some used)))) ∧
      ∃ k t', (tripLts find r m₀ image₀).Run t (.replicate n .call ++ .replicate k (.unmap allOk)) t' ∧
        t'.back = r.bufs.length) ∧
    (t.back = r.bufs.length →
      ∃ m, (∀ b ∈ r.bufs, b.writable = false → ∀ x ∈ b.region, m x = m₀ x ∧ t.pool.kernel.mem x = m₀ x) ∧
        ∀ stable, r.seen t.pool.kernel.mem =
            (serve r.dev.priv.backend.shape ⟨image₀, stable⟩ (r.held m)).1.seen ∧
          t.uio.ram.image = (serve r.dev.priv.backend.shape ⟨image₀, stable⟩ (r.held m)).2.image) := by
  obtain ⟨hb, hi⟩ := (tripInv_inductive hf).reachable t hr
  refine ⟨fun hsome => ?_, fun hback => ?_⟩
  · rcases hi with ⟨hcode, -⟩ | ⟨n, hs⟩
    · simp [hcode] at hsome
    refine ⟨n, fun hn => ?_, fun acts t' hrun => ?_, ?_⟩
    · rcases hs.next with ⟨h0, -⟩ | ⟨-, hcall⟩
      · omega
      · exact hcall
    · obtain ⟨-, n', hs', hsum⟩ := CallsLeft.run hf hrun hb hs
      refine ⟨by omega, fun he => ?_⟩
      rcases hs'.next with ⟨-, hret⟩ | ⟨hpos, -⟩
      · exact hret
      · omega
    · obtain ⟨t₁, hrun₁, ⟨d, used, hret⟩, hmaps, hback⟩ := hs.finish hf hb
      have hlen := hs.maps_length
      have hcount := hb.count
      have henv : allOk.memremapOk = true := rfl
      obtain ⟨t₂, hrun₂, hback₂⟩ := unmap_run find r m₀ image₀ henv ⟨_, hret⟩
        (t.maps.length - t.back) (by rw [hmaps, hback]; omega)
      exact ⟨_, t₂, hrun₁.append hrun₂, by omega⟩
  · rcases hi with ⟨-, hk⟩ | ⟨n, h, ds, last, m, p, w, -, hs, -⟩
    · simp [hk.back, PooledReq.bufs] at hback
    · exact hs.result hb hback

/-- Four bytes for sector 1; the ring is the first page of the pool. -/
def pooledReq : PooledReq where
  header := ⟨0x5000, 16, false⟩
  data := [⟨0x6000, 4, false⟩]
  status := ⟨0x7000, 1, true⟩
  ring := (0x10000, 4096)
  dev := { diskDevice with vdev := { diskDevice.vdev with queues := [{ diskQueue with desc := 0x10000 }] } }
  head := 0
  direct := false
  fuel := 2
  headerLen := rfl
  headerDir := rfl
  statusLen := rfl
  statusDir := rfl
  apart := by decide
  segMax := by decide
  sizeMax := by decide
  queueMax := by decide
  imageMax := by decide
  enough := by decide

/-- The request, and descriptors for the pages its buffers will be mapped to. -/
def pooledMem : Mem := memOf
  [(0x5000, 1), (0x5008, 1), (0x6000, 65), (0x6001, 66), (0x6002, 67), (0x6003, 68),
    (0x10001, 0x10), (0x10002, 1), (0x10008, 16), (0x1000c, 1), (0x1000e, 1),
    (0x10011, 0x30), (0x10012, 1), (0x10018, 4), (0x1001c, 1), (0x1001e, 2),
    (0x10021, 0x40), (0x10022, 1), (0x10028, 1), (0x1002c, 2)]

def pooledStart : TripState where
  pool := poolExec firstZeroArea ⟨⟨axiMmioPoolGet 0x10000 0x5000, fun _ => 0⟩, []⟩
    [.alloc 4096, .touch pooledMem]
  uio := ⟨⟨fun _ => 0, fun _ => 0, false, []⟩, 0x10000, 0x5000, none⟩
  maps := []
  back := 0
  table := []
  code := none

theorem pooledStart_ok : TripStart firstZeroArea pooledReq pooledMem (fun _ => 0) pooledStart where
  reachable := ⟨_, _, ⟨rfl, 0x10000, 0x14fff, by decide, rfl⟩,
    poolExec_run ⟨⟨trivial, trivial, trivial⟩, ⟨trivial, trivial, trivial⟩, trivial⟩⟩
  ring := by decide
  window := .refl _
  outside := by decide
  fresh := ⟨rfl, rfl, rfl, rfl⟩
  mem := rfl
  image := rfl

/-- Somebody else maps a buffer after the header. -/
def pooledActs : List TripAct :=
  [.map allOk, .other (.mapPhys allOk 0x8000 16 .toDevice), .map allOk, .map allOk,
    .post ⟨0x11000, 16, 1, 1⟩ [⟨0x13000, 4, 1, 2⟩] ⟨0x14000, 1, 2, 0⟩]

def pooledAt (n : Nat) : TripState :=
  (pooledActs.take n).foldl (tripStep firstZeroArea pooledReq) pooledStart

theorem pooledAt_maps : (pooledAt 4).maps =
    [(0x11000, pooledReq.header), (0x13000, ⟨0x6000, 4, false⟩), (0x14000, pooledReq.status)] := by
  decide +kernel

theorem pooledAt_posted :
    Posted pooledReq (pooledAt 4) ⟨0x11000, 16, 1, 1⟩ [⟨0x13000, 4, 1, 2⟩] ⟨0x14000, 1, 2, 0⟩ where
  chain := by decide +kernel
  ring j hj x hx := by
    have hring : [(0 : UInt16), 1, 2].all (fun j =>
        decide (0x10000 ≤ (entry (pooledReq.dev.queue 0) j).base ∧
          (entry (pooledReq.dev.queue 0) j).base + (entry (pooledReq.dev.queue 0) j).len ≤ 0x11000)) = true := by
      decide
    obtain ⟨h1, h2⟩ := of_decide_eq_true (List.all_eq_true.1 hring j hj)
    show x ∈ (⟨0x10000, 0x1000⟩ : Region)
    simp only [Region.mem_def] at hx ⊢
    omega
  carries := by
    rw [pooledAt_maps]
    rfl

theorem pooledAt_reachable :
    (tripLts firstZeroArea pooledReq pooledMem fun _ => 0).Reachable (pooledAt 5) := by
  have h0 : (tripLts firstZeroArea pooledReq pooledMem fun _ => 0).Reachable (pooledAt 0) :=
    ⟨_, [], pooledStart_ok, .nil _⟩
  have h1 : (tripLts firstZeroArea pooledReq pooledMem fun _ => 0).Reachable (pooledAt 1) :=
    h0.tail (l := .map allOk) ⟨rfl, rfl⟩
  have hother : OtherOk pooledReq (pooledAt 1) (.mapPhys allOk 0x8000 16 .toDevice) := by
    refine ⟨⟨fun _ h => absurd h (by decide +kernel), trivial, fun _ => by decide +kernel⟩,
      fun m _ => ?_, by decide, ?_⟩
    · simp [PoolOp.target]
    · simp
  have h2 : (tripLts firstZeroArea pooledReq pooledMem fun _ => 0).Reachable (pooledAt 2) :=
    h1.tail (l := .other _) ⟨hother, rfl⟩
  have h3 : (tripLts firstZeroArea pooledReq pooledMem fun _ => 0).Reachable (pooledAt 3) :=
    h2.tail (l := .map allOk) ⟨rfl, rfl⟩
  have h4 : (tripLts firstZeroArea pooledReq pooledMem fun _ => 0).Reachable (pooledAt 4) :=
    h3.tail (l := .map allOk) ⟨rfl, rfl⟩
  exact h4.tail (l := .post _ _ _) ⟨⟨rfl, by rw [pooledAt_maps]; rfl, pooledAt_posted⟩, rfl⟩

/-- The four bytes get to the image, and the driver finds status 0. -/
theorem request_through_pool_written :
    ∃ t, (tripLts firstZeroArea pooledReq pooledMem fun _ => 0).Reachable t ∧ t.back = 3 ∧
      pooledReq.seen t.pool.kernel.mem = (0, [65, 66, 67, 68]) ∧
      readBytes t.uio.ram.image 510 8 = [0, 0, 65, 66, 67, 68, 0, 0] := by
  obtain ⟨n, -, -, k, t, hrun, hback⟩ :=
    (request_through_pool firstZeroArea_zeroArea pooledReq pooledAt_reachable).1 rfl
  obtain ⟨t₀, ls, h0, hrun₀⟩ := pooledAt_reachable
  have hr : (tripLts firstZeroArea pooledReq pooledMem fun _ => 0).Reachable t :=
    ⟨t₀, _, h0, hrun₀.append hrun⟩
  obtain ⟨m, hm, hres⟩ := (request_through_pool firstZeroArea_zeroArea pooledReq hr).2 hback
  have hheld : pooledReq.held m = pooledReq.held pooledMem := by
    refine PooledReq.held_congr fun b hbuf x hx => (hm b ?_ ?_ x hx).1
    · exact List.mem_append_left _ hbuf
    · exact (show ∀ b ∈ pooledReq.header :: pooledReq.data, b.writable = false by decide) b hbuf
  obtain ⟨hseen, himage⟩ := hres fun _ => 0
  rw [hheld] at hseen himage
  refine ⟨t, hr, hback, hseen.trans (by decide +kernel), ?_⟩
  rw [himage]
  decide +kernel

end AcsVirt.L4
