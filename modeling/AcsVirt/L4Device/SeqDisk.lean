import Mathlib.Algebra.GroupWithZero.Nat
import Mathlib.Data.List.Induction
import AcsVirt.L4Device.BlkRequest

/-!
# The disk a block request is served by

What the block device is for, without descriptors, guest memory or calls: a
disk is the bytes of the image and the bytes known to be on stable storage,
and a request is served at once (`serve`). A request is a type, a start
sector, the direction and length of each part of its buffer, and the bytes the
buffer holds; the reply is a status and the bytes the buffer holds then.

A transfer is one range of the disk and one prefix of the buffer: it reaches
up to the first part that goes the wrong way or leaves the disk (`reach`).
`diskAfter` and `replies` serve a list of requests in order; a byte of the
image is then the one the last store over it put there (`diskAfter_apply`),
and what is stable is the image after some first part of the requests that no
completed FLUSH is past (`diskAfter_stable`).

`process_chain` on a request chain, alone with its memory, serves the request
that the chain holds (`processChain_serves`).
-/
namespace AcsVirt.L4

open L1 L2

/-! ## Serving -/

structure DiskShape where
  size : Nat
  readonly : Bool
  deriving DecidableEq, Repr

/-- The image, and what a flush has made of it stable. -/
structure Disk where
  image : Mem
  stable : Mem

structure DiskReq where
  type : ReqType
  sector : Nat
  /-- whether the device may store in a part, and its length -/
  parts : List (Bool × Nat)
  data : Bytes
  deriving DecidableEq, Repr

structure DiskReply where
  status : BlkStatus
  data : Bytes
  deriving DecidableEq, Repr

def DiskReq.start (r : DiskReq) : Nat := r.sector * 512

/-- A part that can be transferred at offset `o`. -/
def DiskShape.takes (s : DiskShape) (t : ReqType) (o : Nat) (part : Bool × Nat) : Bool :=
  (match t with
    | .tIn => part.1
    | .tOut => !part.1 && !s.readonly
    | _ => true) && o + part.2 ≤ s.size

/-- The bytes a transfer from offset `o` moves, and whether these are all. -/
def DiskShape.reach (s : DiskShape) (t : ReqType) : Nat → List (Bool × Nat) → Nat × Bool
  | _, [] => (0, true)
  | o, part :: ps =>
    if s.takes t o part then
      (part.2 + (s.reach t (o + part.2) ps).1, (s.reach t (o + part.2) ps).2)
    else (0, false)

/-- How far a request gets; nowhere if its offset is no 64-bit number. -/
def DiskShape.moved (s : DiskShape) (r : DiskReq) : Nat × Bool :=
  if r.start < 2 ^ 64 then s.reach r.type r.start r.parts else (0, false)

def DiskShape.status (s : DiskShape) (r : DiskReq) : BlkStatus :=
  if (s.moved r).2 then .ok else .ioerr

def serve (s : DiskShape) (d : Disk) (r : DiskReq) : DiskReply × Disk :=
  match r.type with
  | .tIn => (⟨s.status r, readBytes d.image r.start (s.moved r).1 ++ r.data.drop (s.moved r).1⟩, d)
  | .tOut => (⟨s.status r, r.data⟩,
      { d with image := writeBytes d.image r.start (r.data.take (s.moved r).1) })
  | .tFlush => (⟨if r.start < 2 ^ 64 then .ok else .ioerr, r.data⟩, { d with stable := d.image })
  | .other => (⟨.unsupp, r.data⟩, d)

/-- The disk after some requests, in their order. -/
def diskAfter (s : DiskShape) (d : Disk) : List DiskReq → Disk
  | [] => d
  | r :: rs => diskAfter s (serve s d r).2 rs

def replies (s : DiskShape) (d : Disk) : List DiskReq → List DiskReply
  | [] => []
  | r :: rs => (serve s d r).1 :: replies s (serve s d r).2 rs

section
variable (s : DiskShape)

theorem diskAfter_concat (d : Disk) (rs : List DiskReq) (r : DiskReq) :
    diskAfter s d (rs ++ [r]) = (serve s (diskAfter s d rs) r).2 := by
  induction rs generalizing d with
  | nil => rfl
  | cons r' rs ih => exact ih _

theorem replies_concat (d : Disk) (rs : List DiskReq) (r : DiskReq) :
    replies s d (rs ++ [r]) = replies s d rs ++ [(serve s (diskAfter s d rs) r).1] := by
  induction rs generalizing d with
  | nil => rfl
  | cons r' rs ih => exact congrArg (_ :: ·) (ih _)

/-- Each reply is given by the disk after the requests before it. -/
theorem replies_getElem? (d : Disk) (rs : List DiskReq) (k : Nat) :
    (replies s d rs)[k]? = rs[k]?.map fun r => (serve s (diskAfter s d (rs.take k)) r).1 := by
  induction rs generalizing d k with
  | nil => rfl
  | cons r rs ih =>
    cases k with
    | zero => rfl
    | succ k => simpa [replies, diskAfter] using ih (serve s d r).2 k

/-! ## What is on the disk -/

/-- The range a request stores, with its bytes. -/
def DiskShape.stored (r : DiskReq) : List (Nat × Bytes) :=
  if r.type = .tOut then [(r.start, r.data.take (s.moved r).1)] else []

theorem serve_image (d : Disk) (r : DiskReq) :
    (serve s d r).2.image = writeAll (s.stored r) d.image := by
  unfold serve DiskShape.stored
  cases ht : r.type <;> rfl

theorem serve_stable (d : Disk) (r : DiskReq) :
    (serve s d r).2.stable = if r.type = .tFlush then d.image else d.stable := by
  unfold serve
  cases ht : r.type <;> rfl

theorem writeAll_append (ws vs : List (Nat × Bytes)) (m : Mem) :
    writeAll (ws ++ vs) m = writeAll vs (writeAll ws m) := by
  induction ws generalizing m with
  | nil => rfl
  | cons w ws ih => exact ih _

theorem diskAfter_image (d : Disk) (rs : List DiskReq) :
    (diskAfter s d rs).image = writeAll (rs.flatMap s.stored) d.image := by
  induction rs generalizing d with
  | nil => rfl
  | cons r rs ih => rw [diskAfter, ih, serve_image, List.flatMap_cons, writeAll_append]

/-- A byte of the image is what the last store over it put there. -/
theorem diskAfter_apply (d : Disk) (rs : List DiskReq) (x : Nat) :
    (diskAfter s d rs).image x = (lastStored (rs.flatMap s.stored) x).getD (d.image x) := by
  rw [diskAfter_image, writeAll_apply]

/-- What is stable is the image after the first `j` requests, and no completed
flush comes later; or nothing was flushed. -/
theorem diskAfter_stable (d : Disk) (rs : List DiskReq) :
    ((∀ r ∈ rs, r.type ≠ .tFlush) ∧ (diskAfter s d rs).stable = d.stable) ∨
      ∃ j ≤ rs.length, (diskAfter s d rs).stable = (diskAfter s d (rs.take j)).image ∧
        ∀ k r, rs[k]? = some r → r.type = .tFlush → k ≤ j := by
  induction rs using List.reverseRecOn with
  | nil => exact .inl ⟨nofun, rfl⟩
  | append_singleton rs r ih =>
    rw [diskAfter_concat]
    by_cases hf : r.type = .tFlush
    · -- the flush itself: everything before it
      refine .inr ⟨rs.length, by simp, ?_, fun k r' hk _ => ?_⟩
      · rw [List.take_left, serve_stable, if_pos hf]
      · have := (List.getElem?_eq_some_iff.1 hk).1
        simp only [List.length_append, List.length_singleton] at this
        omega
    · rw [serve_stable, if_neg hf]
      rcases ih with ⟨hno, hst⟩ | ⟨j, hj, hst, hlast⟩
      · refine .inl ⟨fun r' hr' => ?_, hst⟩
        rcases List.mem_append.1 hr' with hr' | hr'
        · exact hno r' hr'
        · rw [List.mem_singleton.1 hr']
          exact hf
      · refine .inr ⟨j, by simp; omega, ?_, fun k r' hk hr' => ?_⟩
        · rw [hst, List.take_append_of_le_length hj]
        · rcases getElem?_snoc hk with ⟨-, hold⟩ | ⟨-, rfl⟩
          · exact hlast k r' hold hr'
          · exact absurd hr' hf

end

/-- A transfer moves at most the bytes of its parts, and all of them iff it
says so. -/
theorem reach_le (s : DiskShape) (t : ReqType) (o : Nat) (ps : List (Bool × Nat)) :
    (s.reach t o ps).1 ≤ (ps.map Prod.snd).sum ∧
      ((s.reach t o ps).2 = true → (s.reach t o ps).1 = (ps.map Prod.snd).sum) := by
  induction ps generalizing o with
  | nil => exact ⟨Nat.le_refl _, fun _ => rfl⟩
  | cons p ps ih =>
    obtain ⟨hle, hall⟩ := ih (o + p.2)
    simp only [DiskShape.reach, List.map_cons, List.sum_cons]
    split
    · exact ⟨by omega, fun h => by rw [hall h]⟩
    · exact ⟨Nat.zero_le _, fun h => by cases h⟩

/-- A read that succeeds delivers the range it asks for. -/
theorem serve_read_ok {s : DiskShape} {d : Disk} {r : DiskReq} (ht : r.type = .tIn)
    (hlen : r.data.length = (r.parts.map Prod.snd).sum) (hok : (serve s d r).1.status = .ok) :
    (serve s d r).1.data = readBytes d.image r.start r.data.length := by
  simp only [serve, ht] at hok ⊢
  have hall : (s.moved r).2 = true := by
    unfold DiskShape.status at hok
    split at hok
    · assumption
    · cases hok
  have hmoved : (s.moved r).1 = r.data.length := by
    unfold DiskShape.moved at hall ⊢
    split at hall
    next hfit =>
      rw [if_pos hfit, hlen]
      exact (reach_le s r.type r.start r.parts).2 hall
    · cases hall
  rw [hmoved, List.drop_length, List.append_nil]

/-- What a completed read delivered: byte by byte the last store over it by an
earlier request, or what the disk held at first. -/
theorem replies_read {s : DiskShape} {d : Disk} {rs : List DiskReq} {k : Nat} {r : DiskReq}
    (hr : rs[k]? = some r) (ht : r.type = .tIn) (hlen : r.data.length = (r.parts.map Prod.snd).sum)
    {reply : DiskReply} (hreply : (replies s d rs)[k]? = some reply) (hok : reply.status = .ok) :
    reply.data = (List.range r.data.length).map fun i =>
      (lastStored ((rs.take k).flatMap s.stored) (r.start + i)).getD (d.image (r.start + i)) := by
  rw [replies_getElem?, hr] at hreply
  obtain rfl := Option.some.inj hreply
  rw [serve_read_ok ht hlen hok, readBytes]
  exact List.map_congr_left fun i _ => diskAfter_apply s d (rs.take k) (r.start + i)

/-! ## The chain's request -/

/-- The disk a backend offers. -/
def BlkdBlockBackend.shape (b : BlkdBlockBackend) : DiskShape := ⟨b.imageLen.toNat, b.readonly⟩

def partOf (d : VirtioDesc) : Bool × Nat := (d.writable, d.len.toNat)

/-- The request that a header and data descriptors hold in memory `m`. -/
def reqOf (m : Mem) (h : VirtioDesc) (ds : List VirtioDesc) : DiskReq :=
  ⟨reqType m h, reqSector m h, ds.map partOf, gather m ds⟩

theorem gather_length (m : Mem) (ds : List VirtioDesc) : (gather m ds).length = total ds := by
  induction ds with
  | nil => rfl
  | cons d ds ih => rw [gather_cons, List.length_append, readBytes_length, ih, total_cons]

theorem parts_sum (ds : List VirtioDesc) : ((ds.map partOf).map Prod.snd).sum = total ds := by
  induction ds with
  | nil => rfl
  | cons d ds ih => simp [partOf, ← ih]

theorem reqOf_sized (m : Mem) (h : VirtioDesc) (ds : List VirtioDesc) :
    (reqOf m h ds).data.length = ((reqOf m h ds).parts.map Prod.snd).sum := by
  rw [show ((reqOf m h ds).parts.map Prod.snd).sum = total ds from parts_sum ds]
  exact gather_length m ds

section
variable {b : BlkdBlockBackend} {req : ReqType} {offset : UInt64}

/-- Once the status is not OK nothing moves any more. -/
theorem runData_stopped (b : BlkdBlockBackend) (req : ReqType) (offset : UInt64)
    (ds : List VirtioDesc) {st : BlkStatus} (hst : st ≠ .ok) (w : Ram) (dataLen : UInt32) :
    (runData b req offset ds st w dataLen).2.1 = w ∧
      (runData b req offset ds st w dataLen).1 ≠ .ok := by
  induction ds generalizing st dataLen with
  | nil => exact ⟨rfl, hst⟩
  | cons d ds ih =>
    have hnext : nextStatus b req (offset + dataLen.toUInt64) st d ≠ .ok := by
      unfold nextStatus
      cases req <;> simp [hst]
      · split <;> simp [hst]
      · split <;> simp [hst]
    have hworld : dataWorld b req (offset + dataLen.toUInt64) st d w = w := by
      unfold dataWorld
      rw [if_neg fun h => hst h.1]
    rw [runData, hworld]
    exact ih hnext _

theorem takes_iff (hreq : req = .tIn ∨ req = .tOut) (o : Nat) (d : VirtioDesc) :
    b.shape.takes req o (partOf d) = true ↔
      permits b req d = true ∧ o + d.len.toNat ≤ b.imageLen.toNat := by
  unfold DiskShape.takes
  rw [Bool.and_eq_true]
  refine and_congr ?_ decide_eq_true_iff
  rcases hreq with rfl | rfl <;> exact Iff.rfl

/-- A descriptor is transferred iff the disk takes the part at this offset. -/
theorem nextStatus_takes (hreq : req = .tIn ∨ req = .tOut) (hb : b.imageLen ≤ int64Max)
    {dataLen : UInt32} (hr : Reached b offset dataLen) (d : VirtioDesc) :
    nextStatus b req (offset + dataLen.toUInt64) .ok d = .ok ↔
      b.shape.takes req (offset.toNat + dataLen.toNat) (partOf d) = true := by
  rw [nextStatus_eq_ok hreq _ _ _ hb, takes_iff hreq, hr.toNat hb]
  simp

/-- The status of the loop is OK iff the transfer reaches the end. -/
theorem runData_status (hreq : req = .tIn ∨ req = .tOut) (hb : b.imageLen ≤ int64Max)
    (ds : List VirtioDesc) (w : Ram) (dataLen : UInt32) (hlen : dataLen.toNat + total ds < 2 ^ 32)
    (hr : Reached b offset dataLen) :
    (runData b req offset ds .ok w dataLen).1 = .ok ↔
      (b.shape.reach req (offset.toNat + dataLen.toNat) (ds.map partOf)).2 = true := by
  induction ds generalizing w dataLen with
  | nil => simp [runData, DiskShape.reach]
  | cons d ds ih =>
    have htakes := nextStatus_takes hreq hb hr d
    simp only [total_cons] at hlen
    have hl := addLen_toNat hreq dataLen d.len (by omega)
    simp only [runData, List.map_cons, DiskShape.reach]
    by_cases ht : b.shape.takes req (offset.toNat + dataLen.toNat) (partOf d) = true
    · have hin := ((takes_iff hreq _ d).1 ht).2
      rw [if_pos ht, htakes.2 ht, ih _ _ (by omega) (.inr (by omega)), hl]
      simp [partOf, Nat.add_assoc]
    · rw [if_neg ht]
      have hno := (runData_stopped b req offset ds (mt htakes.1 ht)
        (dataWorld b req (offset + dataLen.toUInt64) .ok d w) (addLen req dataLen d.len)).2
      simp [hno]

/-- An IN stores a range of the image over a first part of the buffer. -/
theorem runData_reads (hb : b.imageLen ≤ int64Max) (ds : List VirtioDesc) (w : Ram)
    (dataLen : UInt32) (hlen : dataLen.toNat + total ds < 2 ^ 32) (hr : Reached b offset dataLen)
    (hpw : ds.Pairwise fun d e => d.buf.Apart e.buf) :
    gather (runData b .tIn offset ds .ok w dataLen).2.1.mem ds =
      readBytes w.image (offset.toNat + dataLen.toNat)
          (b.shape.reach .tIn (offset.toNat + dataLen.toNat) (ds.map partOf)).1 ++
        (gather w.mem ds).drop (b.shape.reach .tIn (offset.toNat + dataLen.toNat) (ds.map partOf)).1 := by
  induction ds generalizing w dataLen with
  | nil => rfl
  | cons d ds ih =>
    obtain ⟨hd, hpw⟩ := List.pairwise_cons.1 hpw
    have htakes := nextStatus_takes (.inl rfl) hb hr d
    simp only [total_cons] at hlen
    have hl : (addLen .tIn dataLen d.len).toNat = dataLen.toNat + d.len.toNat :=
      addLen_toNat (.inl rfl) dataLen d.len (by omega)
    have ho := hr.toNat hb
    simp only [runData, List.map_cons, DiskShape.reach]
    by_cases ht : b.shape.takes .tIn (offset.toNat + dataLen.toNat) (partOf d) = true
    · have hin := ((takes_iff (.inl rfl) _ d).1 ht).2
      have hw : dataWorld b .tIn (offset + dataLen.toUInt64) .ok d w = { w with
          mem := writeBytes w.mem d.addr.toNat
            (readBytes w.image (offset.toNat + dataLen.toNat) d.len.toNat) } := by
        simp only [dataWorld, true_and]
        rw [if_pos (htakes.2 ht), ho]
      rw [if_pos ht, htakes.2 ht, hw, gather_cons, ih _ _ (by omega) (.inr (by omega)) hpw, hl]
      -- the buffer just filled is not touched again, and the rest is as it was
      have hfilled : readBytes (runData b .tIn offset ds .ok { w with
            mem := writeBytes w.mem d.addr.toNat
              (readBytes w.image (offset.toNat + dataLen.toNat) d.len.toNat) }
            (addLen .tIn dataLen d.len)).2.1.mem d.addr.toNat d.len.toNat =
          readBytes w.image (offset.toNat + dataLen.toNat) d.len.toNat := by
        have hback := readBytes_writeBytes w.mem d.addr.toNat
          (readBytes w.image (offset.toNat + dataLen.toNat) d.len.toNat)
        rw [readBytes_length] at hback
        refine Eq.trans (readBytes_congr fun x h1 h2 => ?_) hback
        exact runData_mem_out ds _ _ _ fun e he => hd e he x ⟨h1, h2⟩
      have hrest : gather (writeBytes w.mem d.addr.toNat
          (readBytes w.image (offset.toNat + dataLen.toNat) d.len.toNat)) ds = gather w.mem ds := by
        refine gather_congr fun e he x hx => writeBytes_out ?_
        have hnot := hd e he x
        simp only [VirtioDesc.buf, Region.mem_def] at hnot hx
        rw [readBytes_length]
        omega
      rw [hfilled, hrest]
      simp only [partOf, gather_cons]
      have hdrop : ∀ k (l : Bytes), (readBytes w.mem d.addr.toNat d.len.toNat ++ l).drop (d.len.toNat + k) =
          l.drop k := by
        intro k l
        rw [List.drop_append, readBytes_length, List.drop_eq_nil_of_le (by rw [readBytes_length]; omega),
          Nat.add_sub_cancel_left, List.nil_append]
      rw [readBytes_add, List.append_assoc, hdrop, Nat.add_assoc]
    · rw [if_neg ht]
      have hsame : dataWorld b .tIn (offset + dataLen.toUInt64) .ok d w = w := by
        unfold dataWorld
        rw [if_neg fun h => ht (htakes.1 h.2)]
      rw [hsame, (runData_stopped b _ offset ds (mt htakes.1 ht) w _).1]
      rfl

/-- An OUT stores a first part of the buffer over a range of the image. -/
theorem runData_writes (hb : b.imageLen ≤ int64Max) (ds : List VirtioDesc) (w : Ram)
    (dataLen : UInt32) (hlen : dataLen.toNat + total ds < 2 ^ 32) (hr : Reached b offset dataLen) :
    (runData b .tOut offset ds .ok w dataLen).2.1.image =
      writeBytes w.image (offset.toNat + dataLen.toNat) ((gather w.mem ds).take
        (b.shape.reach .tOut (offset.toNat + dataLen.toNat) (ds.map partOf)).1) := by
  induction ds generalizing w dataLen with
  | nil => exact (writeBytes_nil _ _).symm
  | cons d ds ih =>
    have htakes := nextStatus_takes (.inr rfl) hb hr d
    simp only [total_cons] at hlen
    have hl : (addLen .tOut dataLen d.len).toNat = dataLen.toNat + d.len.toNat :=
      addLen_toNat (.inr rfl) dataLen d.len (by omega)
    have ho := hr.toNat hb
    simp only [runData, List.map_cons, DiskShape.reach]
    by_cases ht : b.shape.takes .tOut (offset.toNat + dataLen.toNat) (partOf d) = true
    · have hin := ((takes_iff (.inr rfl) _ d).1 ht).2
      have hw : dataWorld b .tOut (offset + dataLen.toUInt64) .ok d w = { w with
          image := writeBytes w.image (offset.toNat + dataLen.toNat)
            (readBytes w.mem d.addr.toNat d.len.toNat) } := by
        simp only [dataWorld, true_and]
        rw [if_pos (htakes.2 ht), ho]
      rw [if_pos ht, htakes.2 ht, hw, ih _ _ (by omega) (.inr (by omega)), hl]
      simp only [partOf, gather_cons]
      have htake : ∀ k (l : Bytes), (readBytes w.mem d.addr.toNat d.len.toNat ++ l).take (d.len.toNat + k) =
          readBytes w.mem d.addr.toNat d.len.toNat ++ l.take k := by
        intro k l
        rw [List.take_append, readBytes_length, List.take_of_length_le (by rw [readBytes_length]; omega),
          Nat.add_sub_cancel_left]
      rw [htake, writeBytes_append, readBytes_length, Nat.add_assoc]
    · rw [if_neg ht]
      have hsame : dataWorld b .tOut (offset + dataLen.toUInt64) .ok d w = w := by
        unfold dataWorld
        rw [if_neg fun h => ht (htakes.1 h.2)]
      rw [hsame, (runData_stopped b _ offset ds (mt htakes.1 ht) w _).1]
      simp

end

/-! ## The code serves it -/

/-- What the driver sees of a reply. -/
def DiskReply.seen (r : DiskReply) : UInt8 × Bytes := (r.status.code, r.data)

/-- The request of type `t` at `sector` whose buffer are the descriptors `ds`. -/
def heldReq (m : Mem) (t : ReqType) (sector : UInt64) (ds : List VirtioDesc) : DiskReq :=
  ⟨t, sector.toNat, ds.map partOf, gather m ds⟩

/-- The loop computes the reply and the next image. -/
def LoopServes (b : BlkdBlockBackend) (t : ReqType) (sector : UInt64) (ds : List VirtioDesc)
    (w : Ram) (stable : Mem) : Prop :=
  let run := runData b t (startOffset sector) ds (startStatus t sector) w 0
  let served := serve b.shape ⟨w.image, stable⟩ (heldReq w.mem t sector ds)
  run.1 = served.1.status ∧ gather run.2.1.mem ds = served.1.data ∧ run.2.1.image = served.2.image

section
variable {b : BlkdBlockBackend} {sector : UInt64} {ds : List VirtioDesc} {t : ReqType}

theorem moved_heldReq (hfit : sector.toNat * 512 < 2 ^ 64) (m : Mem) :
    b.shape.moved (heldReq m t sector ds) =
      b.shape.reach t ((startOffset sector).toNat + (0 : UInt32).toNat) (ds.map partOf) := by
  have hoff : (startOffset sector).toNat + (0 : UInt32).toNat = sector.toNat * 512 :=
    startOffset_toNat hfit
  rw [hoff]
  exact if_pos hfit

theorem runData_status_heldReq (hio : t = .tIn ∨ t = .tOut) (hb : b.imageLen ≤ int64Max)
    (hlen : total ds < 2 ^ 32) (hfit : sector.toNat * 512 < 2 ^ 64) (w : Ram) :
    (runData b t (startOffset sector) ds .ok w 0).1 = b.shape.status (heldReq w.mem t sector ds) := by
  have hiff : (runData b t (startOffset sector) ds .ok w 0).1 = .ok ↔ _ :=
    runData_status hio hb ds w 0 (by simpa using hlen) (.inl rfl)
  have hun : (runData b t (startOffset sector) ds .ok w 0).1 ≠ .unsupp :=
    runData_ne_unsupp ds (by decide) w 0
  rw [← moved_heldReq hfit w.mem] at hiff
  unfold DiskShape.status
  cases hm : (b.shape.moved (heldReq w.mem t sector ds)).2 with
  | true => exact hiff.2 hm
  | false =>
    rw [hm] at hiff
    cases hst : (runData b t (startOffset sector) ds .ok w 0).1 with
    | ok => exact absurd (hiff.1 hst) (by decide)
    | ioerr => rfl
    | unsupp => exact absurd hst hun

theorem loopServes_in (hb : b.imageLen ≤ int64Max) (hlen : total ds < 2 ^ 32)
    (hpw : ds.Pairwise fun d e => d.buf.Apart e.buf) (hfit : sector.toNat * 512 < 2 ^ 64) (w : Ram)
    (stable : Mem) : LoopServes b .tIn sector ds w stable := by
  have hok : startStatus .tIn sector = .ok := startStatus_eq_ok.2 ⟨by decide, hfit⟩
  have hreads : gather (runData b .tIn (startOffset sector) ds .ok w 0).2.1.mem ds = _ :=
    runData_reads hb ds w 0 (by simpa using hlen) (.inl rfl) hpw
  rw [← moved_heldReq hfit w.mem] at hreads
  unfold LoopServes
  rw [hok]
  refine ⟨runData_status_heldReq (.inl rfl) hb hlen hfit w, ?_, runData_image (by decide) ds .ok w 0⟩
  rw [hreads, show (startOffset sector).toNat + (0 : UInt32).toNat = sector.toNat * 512 from
    startOffset_toNat hfit]
  rfl

theorem loopServes_out (hb : b.imageLen ≤ int64Max) (hlen : total ds < 2 ^ 32)
    (hfit : sector.toNat * 512 < 2 ^ 64) (w : Ram) (stable : Mem) :
    LoopServes b .tOut sector ds w stable := by
  have hok : startStatus .tOut sector = .ok := startStatus_eq_ok.2 ⟨by decide, hfit⟩
  have hwrites : (runData b .tOut (startOffset sector) ds .ok w 0).2.1.image = _ :=
    runData_writes hb ds w 0 (by simpa using hlen) (.inl rfl)
  rw [← moved_heldReq hfit w.mem] at hwrites
  unfold LoopServes
  rw [hok]
  refine ⟨runData_status_heldReq (.inr rfl) hb hlen hfit w, ?_, ?_⟩
  · rw [runData_mem (by decide) ds .ok w 0]
    rfl
  · rw [hwrites, show (startOffset sector).toNat + (0 : UInt32).toNat = sector.toNat * 512 from
      startOffset_toNat hfit]
    rfl

/-- The offset does not fit: nothing moves, whatever the type. -/
theorem loopServes_wrapped (hfit : ¬sector.toNat * 512 < 2 ^ 64) (w : Ram) (stable : Mem) :
    LoopServes b t sector ds w stable := by
  have hne : startStatus t sector ≠ .ok := fun h => hfit (startStatus_eq_ok.1 h).2
  obtain ⟨hsame, hnok⟩ := runData_stopped b t (startOffset sector) ds hne w 0
  have hun := runData_unsupp b t sector ds w
  have hmoved : b.shape.moved (heldReq w.mem t sector ds) = (0, false) := if_neg hfit
  have hioerr : b.shape.status (heldReq w.mem t sector ds) = .ioerr := by
    rw [DiskShape.status, hmoved]
    rfl
  have hstatus : t ≠ .other →
      (runData b t (startOffset sector) ds (startStatus t sector) w 0).1 = .ioerr := by
    intro ht
    cases hst : (runData b t (startOffset sector) ds (startStatus t sector) w 0).1 with
    | ok => exact absurd hst hnok
    | ioerr => rfl
    | unsupp => exact absurd (hun.1 hst) ht
  unfold LoopServes
  simp only [hsame]
  have hstart : ¬(heldReq w.mem t sector ds).start < 2 ^ 64 := hfit
  cases t with
  | other => exact ⟨hun.2 rfl, rfl, rfl⟩
  | tFlush => exact ⟨(hstatus (by decide)).trans (if_neg hstart).symm, rfl, rfl⟩
  | tIn =>
    refine ⟨(hstatus (by decide)).trans hioerr.symm, ?_, rfl⟩
    show _ = readBytes _ _ (b.shape.moved (heldReq w.mem .tIn sector ds)).1 ++
      (gather w.mem ds).drop (b.shape.moved (heldReq w.mem .tIn sector ds)).1
    rw [hmoved]
    rfl
  | tOut =>
    refine ⟨(hstatus (by decide)).trans hioerr.symm, rfl, ?_⟩
    show _ = writeBytes _ _ ((gather w.mem ds).take (b.shape.moved (heldReq w.mem .tOut sector ds)).1)
    rw [hmoved]
    exact (writeBytes_nil _ _).symm

theorem loopServes (hb : b.imageLen ≤ int64Max) (hlen : total ds < 2 ^ 32)
    (hpw : ds.Pairwise fun d e => d.buf.Apart e.buf) (w : Ram) (stable : Mem) :
    LoopServes b t sector ds w stable := by
  by_cases hfit : sector.toNat * 512 < 2 ^ 64
  · cases t with
    | tIn => exact loopServes_in hb hlen hpw hfit w stable
    | tOut => exact loopServes_out hb hlen hfit w stable
    | tFlush =>
      unfold LoopServes
      rw [runData_other (.inl rfl), startStatus_eq_ok.2 ⟨by decide, hfit⟩]
      exact ⟨(if_pos hfit).symm, rfl, rfl⟩
    | other =>
      unfold LoopServes
      rw [runData_other (.inr rfl), startStatus_eq_unsupp.2 rfl]
      exact ⟨rfl, rfl, rfl⟩
  · exact loopServes_wrapped hfit w stable

end

/-- **A chain is a request.** Alone with its memory, `process_chain` on a
request chain returns true and serves the request: the image is the next one,
the status byte and the data buffers are the reply, and guest memory is as it
was everywhere else. -/
theorem processChain_serves (canMap : UInt64 → UInt32 → Bool) (direct : Bool) {fuel : Nat}
    {d : BlkdVirtioDevice} {head : UInt16} {w : Ram} (stable : Mem) {h : VirtioDesc}
    {ds : List VirtioDesc} {last : VirtioDesc} (hc : ReqChain w.mem (d.queue 0) head h ds last)
    (himg : d.priv.backend.imageLen ≤ int64Max) (hfuel : ds.length < fuel) :
    ∃ d' used w', (processChain direct fuel d head).run (Ram.answer canMap) w =
        (.ok (d', some used), w') ∧ d'.vdev = d.vdev ∧ d'.priv.backend = d.priv.backend ∧
      (w'.mem last.addr.toNat, gather w'.mem ds) =
        (serve d.priv.backend.shape ⟨w.image, stable⟩ (reqOf w.mem h ds)).1.seen ∧
      w'.image = (serve d.priv.backend.shape ⟨w.image, stable⟩ (reqOf w.mem h ds)).2.image := by
  have hdata : ds.Pairwise fun d e => d.buf.Apart e.buf := by
    have h1 := (List.pairwise_append.1 hc.bufs).1
    exact List.pairwise_map.1 (List.pairwise_cons.1 h1).2
  have hlast : ∀ e ∈ ds, e.buf.Apart ⟨last.addr.toNat, 1⟩ := fun e he =>
    (List.pairwise_append.1 hc.bufs).2.2 _ (List.mem_cons_of_mem _ (List.mem_map_of_mem he)) _
      List.mem_cons_self
  generalize hsec : virtioLoadLe64 ((reqHeader w.mem h).drop 8) = sector
  obtain ⟨st, w₁, dataLen, hr⟩ : ∃ st w₁ dataLen, runData d.priv.backend (reqType w.mem h)
      (startOffset sector) ds (startStatus (reqType w.mem h) sector) w 0 = (st, w₁, dataLen) :=
    ⟨_, _, _, rfl⟩
  obtain ⟨d', hv, hbk, hrun⟩ := processChain_run canMap direct hc hfuel rfl hsec.symm hr
  have hheld : reqOf w.mem h ds = heldReq w.mem (reqType w.mem h) sector ds := by rw [← hsec]; rfl
  have hserves : LoopServes d.priv.backend (reqType w.mem h) sector ds w stable :=
    loopServes himg hc.total_lt hdata w stable
  unfold LoopServes at hserves
  rw [hr, ← hheld] at hserves
  obtain ⟨hst, hbuf, himage⟩ := hserves
  have hst : st = _ := hst
  refine ⟨d', _, _, hrun, hv, hbk, Prod.ext ?_ ?_, himage⟩
  · simp [writeBytes, DiskReply.seen, hst]
  · have hkeep : gather (writeBytes w₁.mem last.addr.toNat [st.code]) ds = gather w₁.mem ds :=
      gather_congr fun e he x hx => writeBytes_apart (hlast e he) hx
    exact hkeep.trans hbuf

end AcsVirt.L4
