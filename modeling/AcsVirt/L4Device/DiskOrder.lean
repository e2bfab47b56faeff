import AcsVirt.L4Device.SeqDisk
import AcsVirt.L4Device.TxStream

/-!
# The block queue is a disk

`InOrder` says which chains a notification completes, `SeqDisk` what a chain
does alone with its memory. Here the driver is at work meanwhile: between any
two calls of the device it fills and posts further requests. `DiskWorld` is
the shared queue with the image, what was flushed of it, and two records: the
request each post made when it was posted, and what the driver found at each
completion.

The driver leaves the buffers of posts in flight alone, and what the device
may store for one of them is apart from the buffers of the others
(`NoClash`). So while a chain is served its table entries and its buffers are
its own (`InService`), and the code runs as it does alone (`processChain_disk`,
by `wp_of_events`). Between two chains the image, the flushed image and the
completions are those of the requests published so far, served one after the
other by `serve` (`OnDisk`); a notification ends with the requests counted at
its last look at the available index (`block_queue_is_disk`).
-/
namespace AcsVirt.L4

open L1 L2 L3

/-! ## What a chain touches -/

/-- What the device may store for a request: the data buffers it is allowed to
write and the status byte. -/
def storeBufs (ds : List VirtioDesc) (last : VirtioDesc) : List Region :=
  (ds.filter VirtioDesc.writable).map VirtioDesc.buf ++ [⟨last.addr.toNat, 1⟩]

/-- Guest memory is read inside `zone` and stored to inside `stores`. -/
def StaysIn (zone stores : List Region) : Call → Prop
  | .dmaReadInto gpa len => ∃ r ∈ zone, Region.Sub ⟨gpa.toNat, len.toNat⟩ r
  | .dmaWrite gpa data => ∃ r ∈ stores, Region.Sub ⟨gpa.toNat, data.length⟩ r
  | .preadMapped gpa _ len => ∃ r ∈ stores, Region.Sub ⟨gpa.toNat, len.toNat⟩ r
  | _ => True

section
variable {zone stores : List Region} {χ : Fault → Prop}

theorem writeData_stays {d : VirtioDesc} (hd : d.buf ∈ zone) (s : BlkdState) (offset : UInt64) :
    (writeData s d offset).Sat (StaysIn zone stores) χ fun _ => True := by
  unfold writeData
  refine Prog.Sat.bind (ensureIoBuf_sat trivial _) fun r _ => ?_
  cases r with
  | none => exact Prog.Sat.ret trivial
  | some t =>
    refine Prog.Sat.bind (dmaReadInto_sat _ _ ⟨_, hd, .refl _⟩) fun r _ => ?_
    cases r with
    | none => exact Prog.Sat.ret trivial
    | some data =>
      refine Prog.Sat.bind (blkdBlockWrite_sat _ trivial _) fun ok _ => ?_
      split <;> exact Prog.Sat.ret trivial

/-- A data descriptor is read, or stored to if that is allowed. -/
theorem dataStep_stays {d : VirtioDesc} (hd : d.buf ∈ zone)
    (hs : d.writable = true → d.buf ∈ stores) (direct : Bool) (req : ReqType) (s : BlkdState)
    (offset : UInt64) (st : BlkStatus) :
    (dataStep direct req s d offset st).Sat (StaysIn zone stores) χ fun _ => True := by
  unfold dataStep
  cases req with
  | tIn =>
    dsimp only
    split
    · exact Prog.Sat.ret trivial
    next hw =>
      have hbuf := hs (by simpa using hw)
      have hcalls : DataCalls (StaysIn zone stores) d := by
        refine ⟨trivial, fun _ => ⟨_, hbuf, .refl _⟩, trivial, fun _ => trivial, fun data hlen => ?_,
          ⟨_, hd, .refl _⟩⟩
        refine ⟨_, hbuf, fun x hx => ?_⟩
        simp only [VirtioDesc.buf, Region.mem_def] at hx ⊢
        omega
      split
      · exact Prog.Sat.bind (readData_sat hcalls _ _ _) fun _ _ => Prog.Sat.ret trivial
      · exact Prog.Sat.ret trivial
  | tOut =>
    dsimp only
    split
    · exact Prog.Sat.ret trivial
    split
    · exact writeData_stays hd s offset
    · exact Prog.Sat.ret trivial
  | tFlush => exact Prog.Sat.ret trivial
  | other => exact Prog.Sat.ret trivial

theorem virtioReadDesc_stays {q : VirtioQueue} {i : UInt16} (hi : entry q i ∈ zone) :
    (virtioReadDesc q i).Sat (StaysIn zone stores) χ fun _ => True := by
  refine Prog.Sat.bind (dmaReadInto_sat _ _ ⟨_, hi, .refl _⟩) fun r _ => ?_
  cases r <;> exact Prog.Sat.ret trivial

/-- The walk stays in the entries and buffers of the chain, as far as the fuel
takes it. -/
theorem chainLoop_stays (stores : List Region) (canMap : UInt64 → UInt32 → Bool) (direct : Bool)
    (q : VirtioQueue) (req : ReqType) (offset : UInt64) (ds : List VirtioDesc) (last : VirtioDesc)
    (fuel : Nat) (s : BlkdState) (i : UInt16) (seen : UInt32) (st : BlkStatus) (dataLen : UInt32)
    (w : Ram) (hc : ChainAt w.mem q i ds last)
    (hsep : ∀ j ∈ chainPath i ds, ∀ d ∈ ds, (entry q j).Apart d.buf)
    (hnum : seen.toNat + ds.length + 1 ≤ q.num.toNat)
    (hentry : ∀ j ∈ chainPath i ds, entry q j ∈ zone) (hbuf : ∀ d ∈ ds, d.buf ∈ zone)
    (hstore : ∀ d ∈ ds, d.writable = true → d.buf ∈ stores) :
    (∀ e ∈ (chainLoop direct q req offset fuel s i seen st dataLen).events (Ram.answer canMap) w,
      StaysIn zone stores e.1) ∧
    (fuel ≤ ds.length → ((chainLoop direct q req offset fuel s i seen st dataLen).run
      (Ram.answer canMap) w).1 = .error .fuel) := by
  induction ds generalizing fuel s i seen st dataLen w with
  | nil =>
    obtain ⟨hd, hl⟩ := hc
    cases fuel with
    | zero => exact ⟨nofun, fun _ => rfl⟩
    | succ fuel =>
      obtain ⟨-, hroom⟩ := chain_room (q := q) 0 hnum
      refine ⟨?_, fun h => absurd h (by simp)⟩
      unfold chainLoop
      rw [if_neg (show ¬q.num < seen + 1 from hroom)]
      refine Prog.events_seq (virtioReadDesc_run canMap q i w)
        ((virtioReadDesc_stays (hentry i List.mem_cons_self) (χ := fun _ => True)).events _ w) ?_
      rw [hd]
      simp [hl, Prog.events]
  | cons d ds ih =>
    obtain ⟨hd, hn, hc⟩ := hc
    cases fuel with
    | zero => exact ⟨nofun, fun _ => rfl⟩
    | succ fuel =>
      obtain ⟨hseen1, hroom⟩ := chain_room (q := q) 0 hnum
      simp only [List.length_cons] at hnum ⊢
      obtain ⟨s₁, -, hs₁⟩ := dataStep_run canMap direct req s d (offset + dataLen.toUInt64) st w
      have hc' : ChainAt (dataWorld s.backend req (offset + dataLen.toUInt64) st d w).mem q d.next ds
          last := by
        refine hc.congr fun j hj x hx => dataWorld_mem_out ?_
        exact hsep j (List.mem_cons_of_mem _ hj) d List.mem_cons_self x hx
      obtain ⟨hstay, hstarve⟩ := ih fuel s₁ d.next (seen + 1)
        (nextStatus s.backend req (offset + dataLen.toUInt64) st d) (addLen req dataLen d.len) _ hc'
        (fun j hj e he => hsep j (List.mem_cons_of_mem _ hj) e (List.mem_cons_of_mem _ he))
        (by omega) (fun j hj => hentry j (List.mem_cons_of_mem _ hj))
        (fun e he => hbuf e (List.mem_cons_of_mem _ he)) fun e he => hstore e (List.mem_cons_of_mem _ he)
      have hread := virtioReadDesc_run canMap q i w
      unfold chainLoop
      rw [if_neg (show ¬q.num < seen + 1 from hroom)]
      refine ⟨Prog.events_seq hread
        ((virtioReadDesc_stays (hentry i List.mem_cons_self) (χ := fun _ => True)).events _ w) ?_, fun hle => ?_⟩
      · rw [hd]
        simp only [hn, Bool.not_true, Bool.false_eq_true, if_false]
        exact Prog.events_seq hs₁ ((dataStep_stays (hbuf d List.mem_cons_self)
          (hstore d List.mem_cons_self) direct req s _ st (χ := fun _ => True)).events _ w) hstay
      · rw [Prog.run_bind_ok hread, hd]
        simp only [hn, Bool.not_true, Bool.false_eq_true, if_false]
        rw [Prog.run_bind_ok hs₁]
        exact hstarve (by omega)

end

/-- `process_chain` stays in the entries and buffers of its chain; without
fuel for all of it there is no result. -/
theorem processChain_stays (canMap : UInt64 → UInt32 → Bool) (direct : Bool) (fuel : Nat)
    {d : BlkdVirtioDevice} {head : UInt16} {w : Ram} {h : VirtioDesc} {ds : List VirtioDesc}
    {last : VirtioDesc} (hc : ReqChain w.mem (d.queue 0) head h ds last) :
    (∀ e ∈ (processChain direct fuel d head).events (Ram.answer canMap) w,
      StaysIn ((chainPath head (h :: ds)).map (entry (d.queue 0)) ++ reqBufs h ds last)
        (storeBufs ds last) e.1) ∧
    (fuel ≤ ds.length →
      ((processChain direct fuel d head).run (Ram.answer canMap) w).1 = .error .fuel) := by
  obtain ⟨hh, hn, hch⟩ := hc.chain
  have hdata : ∀ e ∈ ds, e.buf ∈ reqBufs h ds last := fun e he => by
    simp only [reqBufs, List.mem_cons, List.cons_append, List.mem_append]
    exact .inr (.inl (List.mem_map_of_mem he))
  have hsep : ∀ j ∈ chainPath h.next ds, ∀ e ∈ ds, (entry (d.queue 0) j).Apart e.buf :=
    fun j hj e he => hc.table j (List.mem_cons_of_mem _ hj) e.buf (hdata e he)
  have hroom : (0 : UInt32).toNat + ds.length + 1 ≤ (d.queue 0).num.toNat := by
    have := hc.queueMax
    simpa using this
  have hentry : ∀ j ∈ chainPath head (h :: ds), entry (d.queue 0) j ∈
      (chainPath head (h :: ds)).map (entry (d.queue 0)) ++ reqBufs h ds last :=
    fun j hj => List.mem_append_left _ (List.mem_map_of_mem hj)
  obtain ⟨hstay, hstarve⟩ := chainLoop_stays (storeBufs ds last) canMap direct (d.queue 0)
    (reqType w.mem h) (startOffset (virtioLoadLe64 ((reqHeader w.mem h).drop 8))) ds last fuel d.priv h.next 0
    (startStatus (reqType w.mem h) (virtioLoadLe64 ((reqHeader w.mem h).drop 8))) 0 w hch hsep hroom
    (fun j hj => hentry j (List.mem_cons_of_mem _ hj)) (fun e he => List.mem_append_right _ (hdata e he))
    fun e he hw => List.mem_append_left _ (List.mem_map_of_mem (List.mem_filter.2 ⟨he, hw⟩))
  have hread := virtioReadDesc_run canMap (d.queue 0) head w
  have hheader := dmaReadInto_run canMap w h.addr 16
  unfold processChain
  dsimp only
  refine ⟨Prog.events_seq hread
    ((virtioReadDesc_stays (hentry head List.mem_cons_self) (χ := fun _ => True)).events _ w) ?_, fun hle => ?_⟩
  · rw [hh]
    simp only [hn, Bool.not_true, Bool.false_eq_true, if_false]
    refine Prog.events_seq hheader ((dmaReadInto_sat (χ := fun _ => True) _ _ ⟨⟨h.addr.toNat, 16⟩,
      List.mem_append_right _ List.mem_cons_self, .refl _⟩).events _ w) ?_
    refine Prog.events_bind hstay fun a w' hrun => ?_
    have hfuel : ds.length < fuel := by
      by_contra hle
      have herr : Except.ok a = Except.error Fault.fuel :=
        (congrArg Prod.fst hrun).symm.trans (hstarve (by omega))
      cases herr
    obtain ⟨s', -, hs'⟩ := chainLoop_run canMap direct (d.queue 0) (reqType w.mem h)
      (startOffset (virtioLoadLe64 ((reqHeader w.mem h).drop 8))) ds last fuel d.priv h.next 0
      (startStatus (reqType w.mem h) (virtioLoadLe64 ((reqHeader w.mem h).drop 8))) 0 w hch hsep hroom hfuel
    cases hs'.symm.trans hrun
    refine Prog.Sat.events (χ := fun _ => True) (ψ := fun _ => True) ?_ _ _
    refine Prog.Sat.bind (finishChain_sat _ _ _ _ trivial fun code => ?_) fun _ _ => Prog.Sat.ret trivial
    exact ⟨⟨last.addr.toNat, 1⟩, List.mem_append_right _ List.mem_cons_self, .refl _⟩
  · rw [Prog.run_bind_ok hread, hh]
    simp only [hn, Bool.not_true, Bool.false_eq_true, if_false]
    rw [Prog.run_bind_ok hheader]
    exact Prog.run_bind_error (hstarve hle)

/-! ## The driver and the image -/

/-- Header, data buffers and status byte of a post. -/
def postBufs (p : Post) : List Region :=
  match p.descs with
  | [] => []
  | h :: ds => reqBufs h ds p.last

def postStores (p : Post) : List Region := storeBufs p.descs.tail p.last

/-- All guest memory a post is about. -/
def postZone (q : VirtioQueue) (p : Post) : List Region :=
  (chainPath p.head p.descs).map (entry q) ++ postBufs p

def postReq (m : Mem) (p : Post) : DiskReq :=
  match p.descs with
  | [] => ⟨.other, 0, [], []⟩
  | h :: ds => reqOf m h ds

/-- What a driver finds when a post completes: status byte and data. -/
def postReply (m : Mem) (p : Post) : UInt8 × Bytes :=
  (m p.last.addr.toNat, gather m p.descs.tail)

/-- A request within the advertised limits, its buffers apart from each other
and outside the queue. -/
structure DiskChainOk (q : VirtioQueue) (p : Post) : Prop extends BlkChainOk q p where
  headerLen : ∀ h ∈ p.descs.head?, 16 ≤ h.len.toNat
  segMax : p.descs.tail.length ≤ blkdMaxSegments.toNat
  sizeMax : ∀ d ∈ p.descs.tail, d.len ≤ blkdMaxSegSize
  apart : (postBufs p).Pairwise Region.Apart

/-- What the device may store for either is apart from the other. -/
def NoClash (p p' : Post) : Prop :=
  (∀ r ∈ postStores p, ∀ r' ∈ postBufs p', r.Apart r') ∧
    ∀ r ∈ postStores p', ∀ r' ∈ postBufs p, r.Apart r'

structure DiskWorld where
  vq : VqWorld
  image : Mem
  /-- the image at the last flush -/
  stable : Mem
  /-- ghost: the request of each post when it was posted -/
  requests : List DiskReq
  /-- ghost: what the driver found at each completion -/
  found : List (UInt8 × Bytes)

/-- A step of the driver that leaves the buffers of posts in flight alone, and
lets none of them clash. -/
inductive DiskDriverStep (q : VirtioQueue) : DiskWorld → DiskWorld → Prop
  | mk {w : DiskWorld} {v : VqWorld} : DriverStep q (DiskChainOk q) w.vq v →
      (∀ k p, w.vq.published.length ≤ k → w.vq.posted[k]? = some p →
        ∀ r ∈ postBufs p, ∀ x ∈ r, v.mem x = w.vq.mem x) →
      (v.posted.drop v.published.length).Pairwise NoClash →
      DiskDriverStep q w
        { w with vq := v, requests := w.requests ++ (v.posted.drop w.vq.posted.length).map (postReq v.mem) }

abbrev DiskDriverSteps (q : VirtioQueue) : DiskWorld → DiskWorld → Prop :=
  Relation.ReflTransGen (DiskDriverStep q)

def nextImage (image : Mem) : Call → Mem
  | .pwrite offset data => writeBytes image offset.toNat data
  | _ => image

def nextStable (image stable : Mem) : Call → Mem
  | .fsync => image
  | _ => stable

/-- What the driver finds when the used index moves. -/
def newlyFound (v v' : VqWorld) : List (UInt8 × Bytes) :=
  ((v'.posted.take v'.published.length).drop v.published.length).map (postReply v'.mem)

/-- The queue's answers, with the image behind them; `canMap` says what the
fabric maps. -/
def diskAnswer (q : VirtioQueue) (canMap : UInt64 → UInt32 → Bool) : Handler fabricSig DiskWorld :=
  fun w c r w' =>
    vqAnswer q w.vq c r w'.vq ∧ w'.image = nextImage w.image c ∧
    w'.stable = nextStable w.image w.stable c ∧ w'.requests = w.requests ∧
    w'.found = w.found ++ newlyFound w.vq w'.vq ∧
    match c, r with
    | .dmaMap gpa len, r => r = canMap gpa len
    | .pread offset len, r => r = some (readBytes w.image offset.toNat len.toNat)
    | .preadMapped gpa offset len, _ =>
      w'.vq.mem = writeBytes w.vq.mem gpa.toNat (readBytes w.image offset.toNat len.toNat)
    | _, _ => True

def diskHandler (q : VirtioQueue) (canMap : UInt64 → UInt32 → Bool) : Handler fabricSig DiskWorld :=
  fun w c r w' => ∃ w₁, DiskDriverSteps q w w₁ ∧ diskAnswer q canMap w₁ c r w'

section
variable {q : VirtioQueue} {canMap : UInt64 → UInt32 → Bool} {w w' : DiskWorld}

theorem DiskDriverSteps.vq (h : DiskDriverSteps q w w') :
    DriverSteps q (DiskChainOk q) w.vq w'.vq := by
  induction h with
  | refl => exact .refl
  | tail _ hs ih =>
    cases hs with
    | mk hd _ _ => exact ih.tail hd

theorem diskHandler_vq {c : Call} {r : c.Reply} (h : diskHandler q canMap w c r w') :
    vqHandler q (DiskChainOk q) w.vq c r w'.vq := by
  obtain ⟨w₁, hd, ha⟩ := h
  exact ⟨w₁.vq, hd.vq, ha.1⟩

/-- The buffers of a request are outside its queue. -/
theorem DiskChainOk.outside {p : Post} (h : DiskChainOk q p) {r : Region} (hr : r ∈ postBufs p) :
    Outside q r := by
  obtain ⟨hdr, ds, hdescs⟩ := List.exists_cons_of_ne_nil h.header
  simp only [postBufs, hdescs, reqBufs, List.cons_append, List.mem_cons, List.mem_append, List.mem_map,
    List.not_mem_nil, or_false] at hr
  rcases hr with rfl | ⟨d, hd, rfl⟩ | rfl
  · have hlen := h.headerLen hdr (by simp [hdescs])
    refine (h.bufs hdr (by simp [hdescs])).sub fun x hx => ?_
    simp only [VirtioDesc.buf, Region.mem_def] at hx ⊢
    omega
  · exact h.bufs d (by simp [hdescs, hd])
  · have hlen := h.status
    refine (h.bufs p.last (by simp)).sub fun x hx => ?_
    simp only [VirtioDesc.buf, Region.mem_def] at hx ⊢
    omega

theorem postStores_sub {p : Post} (h : p.descs ≠ []) {r : Region} (hr : r ∈ postStores p) :
    r ∈ postBufs p := by
  obtain ⟨hdr, ds, hdescs⟩ := List.exists_cons_of_ne_nil h
  simp only [postStores, storeBufs, hdescs, List.tail_cons, List.mem_append, List.mem_map,
    List.mem_filter, List.mem_singleton] at hr
  simp only [postBufs, hdescs, reqBufs, List.cons_append, List.mem_cons, List.mem_append, List.mem_map,
    List.not_mem_nil, or_false]
  rcases hr with ⟨d, ⟨hd, -⟩, rfl⟩ | rfl
  · exact .inr (.inl ⟨d, hd, rfl⟩)
  · exact .inr (.inr rfl)

theorem postReq_sized (m : Mem) (p : Post) :
    (postReq m p).data.length = ((postReq m p).parts.map Prod.snd).sum := by
  cases hdescs : p.descs with
  | nil => simp only [postReq, hdescs, List.length_nil, List.map_nil, List.sum_nil]
  | cons h ds =>
    simp only [postReq, hdescs]
    exact reqOf_sized m h ds

theorem postReq_congr {p : Post} {m m' : Mem} (h : ∀ r ∈ postBufs p, ∀ x ∈ r, m' x = m x) :
    postReq m' p = postReq m p := by
  cases hdescs : p.descs with
  | nil => simp only [postReq, hdescs]
  | cons hdr ds =>
    simp only [postBufs, hdescs] at h
    have hheader : reqHeader m' hdr = reqHeader m hdr :=
      readBytes_congr fun x h1 h2 => h ⟨hdr.addr.toNat, 16⟩ List.mem_cons_self x ⟨h1, h2⟩
    have hdata : gather m' ds = gather m ds := by
      refine gather_congr fun d hd x hx => h d.buf ?_ x hx
      simp only [reqBufs, List.cons_append, List.mem_cons, List.mem_append]
      exact .inr (.inl (List.mem_map_of_mem hd))
    simp only [postReq, hdescs, reqOf, reqType, reqSector, hheader, hdata]

theorem postReply_congr {p : Post} (hne : p.descs ≠ []) {m m' : Mem}
    (h : ∀ r ∈ postBufs p, ∀ x ∈ r, m' x = m x) : postReply m' p = postReply m p := by
  obtain ⟨hdr, ds, hdescs⟩ := List.exists_cons_of_ne_nil hne
  simp only [postBufs, hdescs, reqBufs, List.cons_append, List.mem_cons, List.mem_append] at h
  have hlast := h ⟨p.last.addr.toNat, 1⟩ (.inr (.inr (.inl rfl))) p.last.addr.toNat
    ⟨Nat.le_refl _, Nat.lt_succ_self _⟩
  have hdata : gather m' ds = gather m ds :=
    gather_congr fun d hd x hx => h d.buf (.inr (.inl (List.mem_map_of_mem hd))) x hx
  simp only [postReply, hdescs, List.tail_cons, hlast, hdata]

/-! ## Requests on file -/

/-- From post `j` on, what is in memory is what was posted. -/
structure OnFile (j : Nat) (w : DiskWorld) : Prop where
  count : w.requests.length = w.vq.posted.length
  held : ∀ k p, j ≤ k → w.vq.posted[k]? = some p → w.requests[k]? = some (postReq w.vq.mem p)
  apart : (w.vq.posted.drop w.vq.published.length).Pairwise NoClash
  sized : ∀ r ∈ w.requests, r.data.length = (r.parts.map Prod.snd).sum

/-- A step of the driver: the image and the records stay, up to new posts. -/
structure DriverKept (j : Nat) (w w' : DiskWorld) : Prop where
  onFile : OnFile j w'
  requests : w.requests <+: w'.requests
  image : w'.image = w.image
  stable : w'.stable = w.stable
  found : w'.found = w.found

theorem DiskDriverStep.kept {j : Nat} (hj : w.vq.published.length ≤ j) (hf : OnFile j w)
    (h : DiskDriverStep q w w') : DriverKept j w w' := by
  cases h with
  | @mk v hd hbufs hclash =>
    refine ⟨?_, List.prefix_append _ _, rfl, rfl, rfl⟩
    have hsame : ∀ k p, j ≤ k → w.vq.posted[k]? = some p →
        w.requests[k]? = some (postReq v.mem p) := fun k p hk hp => by
      rw [postReq_congr (hbufs k p (Nat.le_trans hj hk) hp)]
      exact hf.held k p hk hp
    have hsized : ∀ r ∈ w.requests ++ (v.posted.drop w.vq.posted.length).map (postReq v.mem),
        r.data.length = (r.parts.map Prod.snd).sum := fun r hr => by
      rcases List.mem_append.1 hr with hr | hr
      · exact hf.sized r hr
      · obtain ⟨p, -, rfl⟩ := List.mem_map.1 hr
        exact postReq_sized v.mem p
    cases hd with
    | touch hk ha =>
      refine ⟨by simp [hf.count], fun k p hk hp => ?_, hclash, hsized⟩
      simpa using hsame k p hk hp
    | @post m p hroom hok hk hc hslot ha =>
      refine ⟨by simp [hf.count], fun k p' hk hp' => ?_, hclash, hsized⟩
      rcases getElem?_snoc hp' with ⟨hlt, hin⟩ | ⟨rfl, rfl⟩
      · rw [List.getElem?_append_left (by rw [hf.count]; exact hlt)]
        exact hsame k p' hk hin
      · rw [List.getElem?_append_right (Nat.le_of_eq hf.count), hf.count]
        simp

theorem DiskDriverSteps.published (h : DiskDriverSteps q w w') :
    w'.vq.published = w.vq.published := h.vq.published

theorem DiskDriverSteps.kept {j : Nat} (hj : w.vq.published.length ≤ j) (hf : OnFile j w)
    (h : DiskDriverSteps q w w') : DriverKept j w w' := by
  induction h with
  | refl => exact ⟨hf, List.prefix_refl _, rfl, rfl, rfl⟩
  | tail hs hstep ih =>
    have h₂ := hstep.kept (by rw [DiskDriverSteps.published hs]; exact hj) ih.onFile
    exact ⟨h₂.onFile, ih.requests.trans h₂.requests, h₂.image.trans ih.image, h₂.stable.trans ih.stable,
      h₂.found.trans ih.found⟩

/-- The driver leaves the entries and buffers of a post in flight alone. -/
theorem DiskDriverStep.zone {k : Nat} {p : Post} (hk : w.vq.published.length ≤ k)
    (hp : w.vq.posted[k]? = some p) (h : DiskDriverStep q w w') :
    ∀ r ∈ postZone q p, ∀ x ∈ r, w'.vq.mem x = w.vq.mem x := by
  cases h with
  | @mk v hd hbufs hclash =>
    intro r hr x hx
    rcases List.mem_append.1 hr with hr | hr
    · obtain ⟨i, hi, rfl⟩ := List.mem_map.1 hr
      cases hd with
      | touch hkept _ => exact hkept.chains k p hk hp i hi x hx
      | post _ _ hkept _ _ _ => exact hkept.chains k p hk hp i hi x hx
    · exact hbufs k p hk hp r hr x hx

theorem DiskDriverSteps.zone {k : Nat} {p : Post} (hk : w.vq.published.length ≤ k)
    (hp : w.vq.posted[k]? = some p) (h : DiskDriverSteps q w w') :
    w'.vq.posted[k]? = some p ∧ ∀ r ∈ postZone q p, ∀ x ∈ r, w'.vq.mem x = w.vq.mem x := by
  induction h with
  | refl => exact ⟨hp, fun _ _ _ _ => rfl⟩
  | tail hs hstep ih =>
    obtain ⟨hp₁, hmem₁⟩ := ih
    have hk₁ := hk
    rw [← DiskDriverSteps.published hs] at hk₁
    refine ⟨?_, fun r hr x hx => (hstep.zone hk₁ hp₁ r hr x hx).trans (hmem₁ r hr x hx)⟩
    cases hstep with
    | mk hd _ _ =>
      cases hd with
      | touch => exact hp₁
      | post =>
        rw [List.getElem?_append_left (List.getElem?_eq_some_iff.1 hp₁).1]
        exact hp₁

/-! ## One chain -/

/-- A chain alone with its memory, and what a flush made stable. -/
def flushed (canMap : UInt64 → UInt32 → Bool) (v : Ram × Mem) (c : Call) : c.Reply × (Ram × Mem) :=
  ((Ram.answer canMap v.1 c).1, (Ram.answer canMap v.1 c).2, nextStable v.1.image v.2 c)

/-- The calls that flush nothing. -/
def Unflushing : Call → Prop
  | .fsync => False
  | _ => True

theorem run_flushed {α : Type} (canMap : UInt64 → UInt32 → Bool) (p : FabricM α) (v : Ram × Mem) :
    (p.run (flushed canMap) v).1 = (p.run (Ram.answer canMap) v.1).1 ∧
      (p.run (flushed canMap) v).2.1 = (p.run (Ram.answer canMap) v.1).2 ∧
      p.events (flushed canMap) v = p.events (Ram.answer canMap) v.1 :=
  Prog.run_through (π := Prod.fst) (fun _ _ => ⟨rfl, rfl⟩) p v

theorem run_unflushed {α : Type} (canMap : UInt64 → UInt32 → Bool) {p : FabricM α}
    {χ : Fault → Prop} {ψ : α → Prop} (hp : p.Sat Unflushing χ ψ) (v : Ram × Mem) :
    p.run (flushed canMap) v =
      ((p.run (Ram.answer canMap) v.1).1, (p.run (Ram.answer canMap) v.1).2, v.2) := by
  induction p generalizing v with
  | ret a => rfl
  | fault e => rfl
  | call c k ih =>
    have hstable : nextStable v.1.image v.2 c = v.2 := by
      cases c <;> first | rfl | exact absurd hp.1 not_false
    have hk := ih (Ram.answer canMap v.1 c).1 (hp.2 _) (flushed canMap v c).2
    refine hk.trans ?_
    simp only [flushed, hstable]
    rfl

theorem chainLoop_unflushing (direct : Bool) (q : VirtioQueue) (req : ReqType) (offset : UInt64)
    (fuel : Nat) (s : BlkdState) (index : UInt16) (chainSeen : UInt32) (status : BlkStatus)
    (dataLen : UInt32) :
    (chainLoop direct q req offset fuel s index chainSeen status dataLen).Sat Unflushing
      (fun _ => True) fun _ => True := by
  induction fuel generalizing s index chainSeen status dataLen with
  | zero => exact Prog.Sat.fault trivial
  | succ fuel ih =>
    unfold chainLoop
    split
    · exact Prog.Sat.ret trivial
    refine Prog.Sat.bind (virtioReadDesc_sat (fun _ _ => trivial) _ _) fun r _ => ?_
    cases r with
    | none => exact Prog.Sat.ret trivial
    | some desc =>
      dsimp only
      split
      · exact Prog.Sat.ret trivial
      refine Prog.Sat.bind (dataStep_sat ⟨trivial, fun _ => trivial, trivial, fun _ => trivial,
        fun _ _ => trivial, trivial⟩ (fun _ _ => trivial) _ _ _ _ _) fun r _ => ?_
      obtain ⟨t, r⟩ := r
      cases r with
      | none => exact Prog.Sat.ret trivial
      | some status => exact ih _ _ _ _ _

theorem finishChain_flushed (req : ReqType) (s : BlkdState) (last : VirtioDesc) (st : BlkStatus)
    (dataLen : UInt32) (v : Ram × Mem) :
    (finishChain req s last st dataLen).run (flushed canMap) v =
      (.ok (s, some (if req = .tIn then dataLen + 1 else 1)),
        { v.1 with mem := writeBytes v.1.mem last.addr.toNat [st.code] },
        if req = .tFlush then v.1.image else v.2) := by
  unfold finishChain blkdBlockFlush
  by_cases hflush : req = .tFlush
  · rw [if_pos hflush, if_pos hflush]
    rfl
  · rw [if_neg hflush, if_neg hflush]
    rfl

/-- A FLUSH makes the image stable, and nothing else does. -/
theorem processChain_flushed (canMap : UInt64 → UInt32 → Bool) (direct : Bool) {fuel : Nat}
    {d : BlkdVirtioDevice} {head : UInt16} {v : Ram × Mem} {h : VirtioDesc} {ds : List VirtioDesc}
    {last : VirtioDesc} (hc : ReqChain v.1.mem (d.queue 0) head h ds last)
    (hfuel : ds.length < fuel) :
    ((processChain direct fuel d head).run (flushed canMap) v).2.2 =
      if reqType v.1.mem h = .tFlush then v.1.image else v.2 := by
  obtain ⟨hh, hn, hch⟩ := hc.chain
  have hsep : ∀ j ∈ chainPath h.next ds, ∀ e ∈ ds, (entry (d.queue 0) j).Apart e.buf := by
    intro j hj e he
    refine hc.table j (List.mem_cons_of_mem _ hj) e.buf ?_
    simp only [reqBufs, List.mem_cons, List.cons_append, List.mem_append]
    exact .inr (.inl (List.mem_map_of_mem he))
  generalize hreq : reqType v.1.mem h = req
  generalize hsec : virtioLoadLe64 ((reqHeader v.1.mem h).drop 8) = sector
  obtain ⟨s', -, hs'⟩ := chainLoop_run canMap direct (d.queue 0) req (startOffset sector) ds last fuel d.priv
    h.next 0 (startStatus req sector) 0 v.1 hch hsep (by have := hc.queueMax; simpa using this) hfuel
  have hloop := run_unflushed canMap (chainLoop_unflushing direct (d.queue 0) req (startOffset sector)
    fuel d.priv h.next 0 (startStatus req sector) 0) v
  rw [hs'] at hloop
  have hread : (virtioReadDesc (d.queue 0) head).run (flushed canMap) v =
      (.ok (some (descAt v.1.mem (d.queue 0) head)), v) := rfl
  have hheader : (dmaReadInto h.addr 16).run (flushed canMap) v = (.ok (some (reqHeader v.1.mem h)), v) := rfl
  unfold processChain
  dsimp only
  rw [Prog.run_bind_ok hread, hh]
  simp only [hn, Bool.not_true, Bool.false_eq_true, if_false]
  rw [Prog.run_bind_ok hheader]
  subst hreq hsec
  refine (congrArg (fun o : Except Fault (BlkdVirtioDevice × Option UInt32) × (Ram × Mem) => o.2.2)
    ((Prog.run_bind_ok hloop).trans (Prog.run_bind_ok (finishChain_flushed _ _ _ _ _ _)))).trans ?_
  by_cases hflush : reqType v.1.mem h = .tFlush
  · rw [runData_other (.inl hflush)]
    rfl
  · rw [if_neg hflush]
    exact if_neg hflush

/-- Post `n` is being served, after the requests `pre`: its entries and buffers
and the image are those of `v`, and all later posts are as they were posted. -/
structure InService (q : VirtioQueue) (pre : List DiskReq) (p : Post) (r : DiskReq)
    (found : List (UInt8 × Bytes)) (w : DiskWorld) (v : Ram × Mem) : Prop where
  serving : Serving q (DiskChainOk q) pre.length p w.vq
  onFile : OnFile (pre.length + 1) w
  zone : ∀ reg ∈ postZone q p, ∀ x ∈ reg, w.vq.mem x = v.1.mem x
  image : w.image = v.1.image
  stable : w.stable = v.2
  requests : pre ++ [r] <+: w.requests
  found : w.found = found

section
variable {pre : List DiskReq} {p : Post} {r : DiskReq} {found : List (UInt8 × Bytes)} {v : Ram × Mem}

theorem InService.driver (hl : Layout q) (h : InService q pre p r found w v)
    (hd : DiskDriverSteps q w w') : InService q pre p r found w' v := by
  have hcount := h.serving.count
  have hkept := hd.kept (j := pre.length + 1) (by omega) h.onFile
  obtain ⟨-, hmem⟩ := hd.zone (k := pre.length) (by omega) h.serving.post
  exact ⟨h.serving.later (hd.vq.later hl h.serving.inv), hkept.onFile,
    fun reg hr x hx => (hmem reg hr x hx).trans (h.zone reg hr x hx), hkept.image.trans h.image,
    hkept.stable.trans h.stable, h.requests.trans hkept.requests, hkept.found.trans h.found⟩

theorem InService.ok (h : InService q pre p r found w v) : DiskChainOk q p := h.serving.post_ok

/-- What the device stores for the post in service misses the later posts. -/
theorem InService.apart (h : InService q pre p r found w v) {k : Nat} {p' : Post}
    (hk : pre.length + 1 ≤ k) (hp' : w.vq.posted[k]? = some p') {reg : Region}
    (hr : reg ∈ postStores p) {reg' : Region} (hr' : reg' ∈ postBufs p') : reg.Apart reg' := by
  have hclash := h.onFile.apart
  rw [h.serving.count] at hclash
  have hlt := (List.getElem?_eq_some_iff.1 hp').1
  have hdrop : w.vq.posted.drop pre.length = p :: w.vq.posted.drop (pre.length + 1) := by
    have hlt' := (List.getElem?_eq_some_iff.1 h.serving.post).1
    rw [List.drop_eq_getElem_cons hlt']
    exact congrArg (· :: _) (List.getElem?_eq_some_iff.1 h.serving.post).2
  rw [hdrop] at hclash
  have hmem : p' ∈ w.vq.posted.drop (pre.length + 1) := by
    refine List.mem_of_getElem? (i := k - (pre.length + 1)) ?_
    rw [List.getElem?_drop, show pre.length + 1 + (k - (pre.length + 1)) = k by omega]
    exact hp'
  exact ((List.pairwise_cons.1 hclash).1 p' hmem).1 reg hr reg' hr'

/-- After a call: what is left to check of it. -/
theorem InService.after (h : InService q pre p r found w v) {v' : Ram × Mem}
    (hserving : Serving q (DiskChainOk q) pre.length p w'.vq) (hposted : w'.vq.posted = w.vq.posted)
    (hzone : ∀ reg ∈ postZone q p, ∀ x ∈ reg, w'.vq.mem x = v'.1.mem x)
    (hmem : ∀ k p', pre.length + 1 ≤ k → w.vq.posted[k]? = some p' →
      ∀ reg ∈ postBufs p', ∀ x ∈ reg, w'.vq.mem x = w.vq.mem x)
    (himage : w'.image = v'.1.image) (hstable : w'.stable = v'.2) (hreq : w'.requests = w.requests)
    (hfound : w'.found = w.found ++ newlyFound w.vq w'.vq) : InService q pre p r found w' v' := by
  refine ⟨hserving, ⟨?_, fun k p' hk hp' => ?_, ?_, by rw [hreq]; exact h.onFile.sized⟩, hzone, himage,
    hstable, ?_, ?_⟩
  · rw [hreq, hposted]
    exact h.onFile.count
  · rw [hposted] at hp'
    rw [hreq, postReq_congr (hmem k p' hk hp')]
    exact h.onFile.held k p' hk hp'
  · rw [hposted, hserving.count, ← h.serving.count]
    exact h.onFile.apart
  · rw [hreq]
    exact h.requests
  · rw [hfound, h.found, newlyFound, hserving.count, h.serving.count,
      List.drop_eq_nil_of_le (List.length_take_le _ _)]
    exact List.append_nil _

/-- Nothing was stored. -/
theorem InService.unstored (h : InService q pre p r found w v) {v' : Ram × Mem}
    (hserving : Serving q (DiskChainOk q) pre.length p w'.vq) (hposted : w'.vq.posted = w.vq.posted)
    (hmem : w'.vq.mem = w.vq.mem) (hram : v'.1.mem = v.1.mem) (himage : w'.image = v'.1.image)
    (hstable : w'.stable = v'.2) (hreq : w'.requests = w.requests)
    (hfound : w'.found = w.found ++ newlyFound w.vq w'.vq) : InService q pre p r found w' v' := by
  refine h.after hserving hposted (fun reg hr x hx => ?_) (fun _ _ _ _ _ _ x _ => congrFun hmem x)
    himage hstable hreq hfound
  rw [hmem, hram]
  exact h.zone reg hr x hx

/-- The same block was stored on both sides. -/
theorem InService.stored (h : InService q pre p r found w v) {v' : Ram × Mem}
    (hserving : Serving q (DiskChainOk q) pre.length p w'.vq) (hposted : w'.vq.posted = w.vq.posted)
    {a : Nat} {data : Bytes} (hin : ∃ reg ∈ postStores p, Region.Sub ⟨a, data.length⟩ reg)
    (hmem : w'.vq.mem = writeBytes w.vq.mem a data) (hram : v'.1.mem = writeBytes v.1.mem a data)
    (himage : w'.image = v'.1.image) (hstable : w'.stable = v'.2) (hreq : w'.requests = w.requests)
    (hfound : w'.found = w.found ++ newlyFound w.vq w'.vq) : InService q pre p r found w' v' := by
  refine h.after hserving hposted (fun reg hr x hx => ?_) (fun k p' hk hp' reg' hr' x hx => ?_) himage
    hstable hreq hfound
  · rw [hmem, hram]
    exact writeBytes_congr (h.zone reg hr x hx) a data
  · obtain ⟨reg, hr, hsub⟩ := hin
    rw [hmem]
    exact writeBytes_apart ((h.apart hk hp' hr hr').mono hsub (.refl _)).symm hx

theorem InService.outside (h : InService q pre p r found w v) {a n : Nat}
    (hin : ∃ reg ∈ postStores p, Region.Sub ⟨a, n⟩ reg) : Outside q ⟨a, n⟩ := by
  obtain ⟨reg, hr, hsub⟩ := hin
  exact (h.ok.outside (postStores_sub h.ok.header hr)).sub hsub

/-- **A call of the chain in service** is answered as when the chain is alone,
and leaves it so. -/
theorem InService.call (hl : Layout q) (h : InService q pre p r found w v) {c : Call}
    {rep : c.Reply} (hc : StaysIn (postZone q p) (postStores p) c)
    (hh : diskHandler q canMap w c rep w') :
    rep = (flushed canMap v c).1 ∧ InService q pre p r found w' (flushed canMap v c).2 := by
  have hvq := diskHandler_vq hh
  obtain ⟨w₁, hd, hans, himage, hstable, hreq, hfound, hrep⟩ := hh
  have h₁ := h.driver hl hd
  have hin : ∀ p, DiskChainOk q p → InTable q p := fun p hp => hp.inTable
  have hi := h.serving.inv
  -- calls that leave memory alone: the answer, and the image if it changes
  have hquiet : memoryless c = true → w'.vq = w₁.vq → (flushed canMap v c).2.1.mem = v.1.mem →
      w'.image = (flushed canMap v c).2.1.image → w'.stable = (flushed canMap v c).2.2 →
      InService q pre p r found w' (flushed canMap v c).2 := by
    intro hm hsame hram himg hst
    refine h₁.unstored (h.serving.later (vq_memoryless hl hi hm hvq).1) ?_ ?_ hram himg hst hreq hfound
    · rw [hsame]
    · rw [hsame]
  cases c with
  | dmaReadInto gpa len =>
    obtain ⟨hr, hw⟩ := hans
    obtain ⟨reg, hreg, hsub⟩ := hc
    have hread : readBytes w₁.vq.mem gpa.toNat len.toNat = readBytes v.1.mem gpa.toNat len.toNat :=
      readBytes_congr fun x h1 h2 => h₁.zone reg hreg x (hsub x ⟨h1, h2⟩)
    refine ⟨hr.trans (congrArg some hread), ?_⟩
    refine h₁.unstored (h.serving.later (vq_read hl hi hvq).1) ?_ ?_ rfl (himage.trans h₁.image)
      (hstable.trans h₁.stable) hreq hfound
    · rw [hw]
      split <;> rfl
    · rw [hw]
      split <;> rfl
  | dmaWrite gpa data =>
    obtain ⟨hr, hw⟩ := hans
    refine ⟨hr, h₁.stored (h.serving.later (vq_write_outside hl hin hi (h.outside hc) hvq).1) ?_ hc ?_ rfl
      (himage.trans h₁.image) (hstable.trans h₁.stable) hreq hfound⟩
    · rw [hw]
      rfl
    · rw [hw]
      rfl
  | preadMapped gpa offset len =>
    obtain ⟨hr, data, hlen, hw⟩ := hans
    have hserv := h.serving.later (vq_preadMapped hl hin hi (h.outside hc) hvq).1
    refine ⟨hr, h₁.stored hserv (by rw [hw]; rfl) ?_ (hrep.trans (by rw [h₁.image])) rfl
      (himage.trans h₁.image) (hstable.trans h₁.stable) hreq hfound⟩
    rw [readBytes_length]
    exact hc
  | pwrite offset data =>
    refine ⟨hans.1, hquiet rfl hans.2 rfl ?_ (hstable.trans h₁.stable)⟩
    exact himage.trans (by rw [h₁.image]; rfl)
  | fsync => exact ⟨hans.1, hquiet rfl hans.2 rfl (himage.trans h₁.image) (hstable.trans h₁.image)⟩
  | pread offset len =>
    refine ⟨?_, hquiet rfl hans.2 rfl (himage.trans h₁.image) (hstable.trans h₁.stable)⟩
    exact hrep.trans (by rw [h₁.image]; rfl)
  | dmaMap gpa len =>
    exact ⟨hrep, hquiet rfl hans rfl (himage.trans h₁.image) (hstable.trans h₁.stable)⟩
  | raiseIrq => exact ⟨hans.1, hquiet rfl hans.2 rfl (himage.trans h₁.image) (hstable.trans h₁.stable)⟩
  | lowerIrq => exact ⟨hans.1, hquiet rfl hans.2 rfl (himage.trans h₁.image) (hstable.trans h₁.stable)⟩
  | realloc len => exact ⟨hans.1, hquiet rfl hans.2 rfl (himage.trans h₁.image) (hstable.trans h₁.stable)⟩
  | consoleWrite data =>
    exact ⟨hans.1, hquiet rfl hans.2 rfl (himage.trans h₁.image) (hstable.trans h₁.stable)⟩

theorem chainAt_atCursor {m : Mem} {i : UInt16} {ds : List VirtioDesc} {last : VirtioDesc}
    (h : ChainAt m q i ds last) (c : Nat) : ChainAt m (atCursor q c) i ds last := by
  induction ds generalizing i with
  | nil => exact h
  | cons d ds ih => exact ⟨h.1, h.2.1, ih h.2.2⟩

/-- A post in flight is a request chain. -/
theorem DiskChainOk.reqChain (hl : Layout q) {p : Post} (hp : DiskChainOk q p) {m : Mem}
    (hc : ChainAt m q p.head p.descs p.last) {h : VirtioDesc} {ds : List VirtioDesc}
    (hdescs : p.descs = h :: ds) (c : Nat) : ReqChain m (atCursor q c) p.head h ds p.last := by
  have hbufs : postBufs p = reqBufs h ds p.last := by simp only [postBufs, hdescs]
  have hseg := hp.segMax
  have hsize := hp.sizeMax
  have hshort := hp.short
  have happart := hp.apart
  rw [hdescs] at hc hseg hsize hshort
  rw [hbufs] at happart
  refine ⟨chainAt_atCursor hc c, hseg, hsize, ?_, happart, fun j hj r hr => ?_⟩
  · rw [show (atCursor q c).num = q.num from rfl]
    simp only [List.length_cons] at hshort
    omega
  · rw [← hdescs] at hj
    exact (hp.outside (by rw [hbufs]; exact hr)).table.mono (entry_sub hl (hp.inTable j hj)) (.refl _)

/-- **A chain behind the queue.** Whatever the driver does meanwhile, a chain
that returns has served the request it was posted with. -/
theorem processChain_disk (hl : Layout q) {b : BlkdBlockBackend} (himg : b.imageLen ≤ int64Max)
    (direct : Bool) (fuel c : Nat) {d : BlkdVirtioDevice} (hd : DevAt 0 q c d)
    (hb : d.priv.backend = b) {line : Bool} {out : Bytes}
    (h : InService q pre p (postReq w.vq.mem p) found w (⟨w.vq.mem, w.image, line, out⟩, w.stable)) :
    wp (diskHandler q canMap) (processChain direct fuel d p.head) (fun o w' => ∀ res, o = .ok res →
      ∃ d' used v', res = (d', some used) ∧ d'.vdev = d.vdev ∧ d'.priv.backend = b ∧
        InService q pre p (postReq w.vq.mem p) found w' v' ∧
        postReply v'.1.mem p = (serve b.shape ⟨w.image, w.stable⟩ (postReq w.vq.mem p)).1.seen ∧
        ⟨v'.1.image, v'.2⟩ = (serve b.shape ⟨w.image, w.stable⟩ (postReq w.vq.mem p)).2) w := by
  obtain ⟨hdr, ds, hdescs⟩ := List.exists_cons_of_ne_nil h.ok.header
  have hchain := h.serving.inv.chains pre.length p (Nat.le_of_eq h.serving.count) h.serving.post
  have hc : ReqChain w.vq.mem (d.queue 0) p.head hdr ds p.last := by
    rw [hd.queue]
    exact h.ok.reqChain hl hchain hdescs c
  obtain ⟨hstay, hstarve⟩ := processChain_stays canMap direct fuel
    (w := ⟨w.vq.mem, w.image, line, out⟩) hc
  obtain ⟨hout, hworld, hevents⟩ := run_flushed canMap (processChain direct fuel d p.head)
    (⟨w.vq.mem, w.image, line, out⟩, w.stable)
  have hzone : StaysIn ((chainPath p.head (hdr :: ds)).map (entry (d.queue 0)) ++ reqBufs hdr ds p.last)
      (storeBufs ds p.last) = StaysIn (postZone q p) (postStores p) := by
    rw [hd.queue]
    simp only [postZone, postStores, postBufs, hdescs, List.tail_cons]
    rfl
  rw [hzone] at hstay
  have hrun := wp_of_events (R := diskHandler q canMap) (h := flushed canMap)
    (A := StaysIn (postZone q p) (postStores p)) (fun w v c rep w' hrel hc hh => hrel.call hl hc hh)
    (p := processChain direct fuel d p.head) (by rw [hevents]; exact hstay) h
  refine wp_mono hrun fun o w' ho res hres => ?_
  obtain ⟨ho, hin⟩ := ho
  by_cases hfuel : ds.length < fuel
  · obtain ⟨d', used, ram', hserved, hv, hbk, hseen, himage⟩ :=
      processChain_serves canMap direct w.stable hc (hb ▸ himg) hfuel (w := ⟨w.vq.mem, w.image, line, out⟩)
    have hstable := processChain_flushed canMap direct
      (v := (⟨w.vq.mem, w.image, line, out⟩, w.stable)) hc hfuel
    have hreq : postReq w.vq.mem p = reqOf w.vq.mem hdr ds := by simp only [postReq, hdescs]
    rw [hserved] at hout hworld
    rw [hb] at hseen himage
    refine ⟨d', used, _, ?_, hv, hbk.trans hb, hin, ?_, ?_⟩
    · exact Except.ok.inj (hres.symm.trans (ho.trans hout))
    · rw [hworld, hreq]
      simp only [postReply, hdescs, List.tail_cons]
      exact hseen
    · rw [hworld, hstable, hreq]
      have hst := serve_stable b.shape ⟨w.image, w.stable⟩ (reqOf w.vq.mem hdr ds)
      generalize (serve b.shape ⟨w.image, w.stable⟩ (reqOf w.vq.mem hdr ds)).2 = disk at himage hst ⊢
      obtain ⟨image, stable⟩ := disk
      have hi : ram'.image = image := himage
      have hs : stable = if reqType w.vq.mem hdr = .tFlush then w.image else w.stable := hst
      rw [hi, hs]
  · have herr := hstarve (by omega)
    rw [hres, hout, herr] at ho
    cases ho

/-! ## Publishing -/

/-- A read anywhere. -/
theorem InService.read (hl : Layout q) (h : InService q pre p r found w v) {gpa : UInt64}
    {len : UInt32} {rep : Option Bytes} (hh : diskHandler q canMap w (.dmaReadInto gpa len) rep w') :
    InService q pre p r found w' v := by
  have hserv := h.serving.later (vq_read hl h.serving.inv (diskHandler_vq hh)).1
  obtain ⟨w₁, hd, hans, himage, hstable, hreq, hfound, -⟩ := hh
  have h₁ := h.driver hl hd
  refine h₁.unstored hserv ?_ ?_ rfl (himage.trans h₁.image) (hstable.trans h₁.stable) hreq hfound
  · rw [hans.2]
    split <;> rfl
  · rw [hans.2]
    split <;> rfl

/-- Neither the post in service nor a later one is in the used ring. -/
theorem InService.unused (hl : Layout q) (h : InService q pre p r found w v) {m : Mem}
    (hm : ∀ x, x ∉ usedRegion q → m x = w.vq.mem x) :
    (∀ reg ∈ postZone q p, ∀ x ∈ reg, m x = w.vq.mem x) ∧
      ∀ k p', pre.length + 1 ≤ k → w.vq.posted[k]? = some p' →
        ∀ reg ∈ postBufs p', ∀ x ∈ reg, m x = w.vq.mem x := by
  refine ⟨fun reg hr x hx => hm x fun hu => ?_, fun k p' _ hp' reg hr x hx => hm x fun hu => ?_⟩
  · rcases List.mem_append.1 hr with hr | hr
    · obtain ⟨j, hj, rfl⟩ := List.mem_map.1 hr
      exact hl.tableUsed x (entry_sub hl (h.ok.inTable j hj) x hx) hu
    · exact (h.ok.outside hr).used x hu hx
  · exact ((h.serving.inv.posts p' (List.mem_of_getElem? hp')).outside hr).used x hu hx

/-- A store in the used ring that publishes nothing. -/
theorem InService.usedStore (hl : Layout q) (h : InService q pre p r found w v) {gpa : UInt64}
    {data : Bytes} {rep : Bool} (hu : InUsed q (.dmaWrite gpa data))
    (hh : diskHandler q canMap w (.dmaWrite gpa data) rep w')
    (hserv : Serving q (DiskChainOk q) pre.length p w'.vq) : InService q pre p r found w' v := by
  obtain ⟨w₁, hd, hans, himage, hstable, hreq, hfound, -⟩ := hh
  have h₁ := h.driver hl hd
  obtain ⟨hposted, -, hmem⟩ := vqAnswer_inUsed hu hans
  obtain ⟨hzone, hlater⟩ := h₁.unused hl hmem
  exact h₁.after hserv hposted (fun reg hr x hx => (hzone reg hr x hx).trans (h₁.zone reg hr x hx)) hlater
    (himage.trans h₁.image) (hstable.trans h₁.stable) hreq hfound

/-- The post is published; the driver has found what `v` holds for it. -/
structure Completed (q : VirtioQueue) (pre : List DiskReq) (p : Post) (r : DiskReq)
    (found : List (UInt8 × Bytes)) (v : Ram × Mem) (w : DiskWorld) : Prop where
  inv : VqInv q (DiskChainOk q) w.vq
  count : w.vq.published.length = pre.length + 1
  onFile : OnFile (pre.length + 1) w
  image : w.image = v.1.image
  stable : w.stable = v.2
  requests : pre ++ [r] <+: w.requests
  found : w.found = found ++ [postReply v.1.mem p]

/-- The store of the used index. -/
theorem InService.publish (hl : Layout q) (h : InService q pre p r found w v) {gpa : UInt64}
    {data : Bytes} {rep : Bool} (hu : InUsed q (.dmaWrite gpa data))
    (hh : diskHandler q canMap w (.dmaWrite gpa data) rep w') (hi : VqInv q (DiskChainOk q) w'.vq)
    (hn : w'.vq.published.length = pre.length + 1) : Completed q pre p r found v w' := by
  obtain ⟨w₁, hd, hans, himage, hstable, hreq, hfound, -⟩ := hh
  have h₁ := h.driver hl hd
  obtain ⟨hposted, -, hmem⟩ := vqAnswer_inUsed hu hans
  obtain ⟨hzone, hlater⟩ := h₁.unused hl hmem
  have hdrop : w'.vq.posted.drop (pre.length + 1) <:+ w₁.vq.posted.drop w₁.vq.published.length := by
    rw [hposted, h₁.serving.count]
    exact List.drop_suffix_drop_left _ (Nat.le_succ _)
  refine ⟨hi, hn, ⟨?_, fun k p' hk hp' => ?_, ?_, by rw [hreq]; exact h₁.onFile.sized⟩, himage.trans h₁.image,
    hstable.trans h₁.stable, ?_, ?_⟩
  · rw [hreq, hposted]
    exact h₁.onFile.count
  · rw [hposted] at hp'
    rw [hreq, postReq_congr (hlater k p' hk hp')]
    exact h₁.onFile.held k p' hk hp'
  · rw [hn]
    exact h₁.onFile.apart.sublist hdrop.sublist
  · rw [hreq]
    exact h₁.requests
  · -- the driver reads the reply out of memory as it is now
    have hreply : postReply w'.vq.mem p = postReply v.1.mem p := by
      refine postReply_congr h₁.ok.header fun reg hr x hx => ?_
      have hin : reg ∈ postZone q p := List.mem_append_right _ hr
      exact (hzone reg hin x hx).trans (h₁.zone reg hin x hx)
    have hnew : newlyFound w₁.vq w'.vq = [postReply v.1.mem p] := by
      have hlt := (List.getElem?_eq_some_iff.1 h₁.serving.post).1
      rw [newlyFound, hn, h₁.serving.count, hposted, List.take_add_one, h₁.serving.post, List.drop_append,
        List.drop_eq_nil_of_le (List.length_take_le _ _), List.length_take_of_le (Nat.le_of_lt hlt)]
      simp [hreply]
    rw [hfound, hnew, h₁.found]

/-- The used index is the number of requests before. -/
theorem usedIdx_disk (hl : Layout q) (h : InService q pre p r found w v) (c : Nat) :
    wp (diskHandler q canMap) (fabricDmaReadU16 ((atCursor q c).used + 2))
      (fun o w' => InService q pre p r found w' v ∧ o = .ok (some (UInt16.ofNat pre.length))) w := by
  intro rep w₁ hh
  have h₁ := h.read hl hh
  obtain ⟨-, hrep, -⟩ := vq_read hl h.serving.inv (diskHandler_vq hh)
  have hidx : virtioLoadLe16 (readBytes w₁.vq.mem (q.used + 2).toNat 2) = UInt16.ofNat pre.length := by
    rw [usedIdx_addr hl, ← h₁.serving.count]
    exact h₁.serving.inv.used
  subst hrep
  exact ⟨h₁, congrArg (fun i => Except.ok (some i)) hidx⟩

/-- Publishing the post in service. -/
theorem virtioAddUsed_disk (hl : Layout q) (h : InService q pre p r found w v) (c : Nat)
    (len : UInt32) :
    wp (diskHandler q canMap) (virtioAddUsed (atCursor q c) p.head len) (fun o w' => o = .ok true ∧
      Completed q pre p r found v w') w := by
  have hok : ∀ p, DiskChainOk q p → InTable q p := fun p hp => hp.inTable
  have hmod := mod_num_lt hl pre.length
  have hend := hl.usedEnd
  have hnum := hl.num_pos
  have helem : (usedElem (atCursor q c) (UInt16.ofNat pre.length)).toNat =
      q.used.toNat + 4 + 8 * (pre.length % q.num.toNat) := usedElem_addr hl c pre.length
  have helem4 : (usedElem (atCursor q c) (UInt16.ofNat pre.length) + 4).toNat =
      q.used.toNat + 4 + 8 * (pre.length % q.num.toNat) + 4 := by
    rw [UInt64.toNat_add, helem, show (4 : UInt64).toNat = 4 from rfl]
    omega
  have hin : ∀ {gpa : UInt64} {data : Bytes}, q.used.toNat ≤ gpa.toNat →
      gpa.toNat + data.length ≤ q.used.toNat + 4 + 8 * q.num.toNat → InUsed q (.dmaWrite gpa data) := by
    intro gpa data h1 h2 x hx
    have hx1 := hx.1
    have hx2 := hx.2
    simp only [usedRegion, Region.mem_def]
    omega
  refine wp_seq (usedIdx_disk hl h c) ?_ fun e w' h => by cases h.2
  intro a w₁ ha
  obtain ⟨h₁, ha⟩ := ha
  cases ha
  refine wp_ite (fun h0 => absurd h0 hl.num16_ne) fun _ => ?_
  intro rep w₂ hh
  obtain ⟨hr, hf₂⟩ := vq_store_id hl hok h₁.serving c (diskHandler_vq hh)
  have h₂ := h₁.usedStore hl (hin (by omega) (by rw [virtioStoreLe32_length]; omega)) hh hf₂.serving
  subst hr
  intro rep w₃ hh
  obtain ⟨hr, hf₃⟩ := vq_store_len hl hok hf₂ c len (diskHandler_vq hh)
  have h₃ := h₂.usedStore hl (hin (by omega) (by rw [virtioStoreLe32_length]; omega)) hh hf₃.serving
  subst hr
  intro rep w₄ hh
  obtain ⟨hr, hi, hn⟩ := vq_store_usedIdx hl hok hf₃ (diskHandler_vq hh)
  subst hr
  have hidx : ((atCursor q c).used + 2).toNat = q.used.toNat + 2 := by
    rw [show (atCursor q c).used = q.used from rfl]
    exact usedIdx_addr hl
  exact ⟨rfl, h₃.publish hl (hin (by omega) (by rw [virtioStoreLe16_length]; omega)) hh hi hn⟩

end

/-! ## Notifications -/

/-- The image, what is stable and what the driver found are those of the
requests published so far, served in order from `disk`. -/
structure OnDisk (s : DiskShape) (disk : Disk) (w : DiskWorld) : Prop where
  onFile : OnFile w.vq.published.length w
  after : ⟨w.image, w.stable⟩ = diskAfter s disk (w.requests.take w.vq.published.length)
  found : w.found = (replies s disk (w.requests.take w.vq.published.length)).map DiskReply.seen

section
variable {s : DiskShape} {disk : Disk}

theorem OnDisk.driver (hi : VqInv q (DiskChainOk q) w.vq) (h : OnDisk s disk w)
    (hd : DiskDriverSteps q w w') : OnDisk s disk w' := by
  have hkept := hd.kept (Nat.le_refl _) h.onFile
  have hle : w.vq.published.length ≤ w.requests.length := by
    rw [h.onFile.count]
    exact hi.le
  obtain ⟨t, ht⟩ := hkept.requests
  have htake : w'.requests.take w'.vq.published.length = w.requests.take w.vq.published.length := by
    rw [hd.published, ← ht, List.take_append_of_le_length hle]
  refine ⟨by rw [hd.published]; exact hkept.onFile, ?_, ?_⟩
  · rw [htake, hkept.image, hkept.stable]
    exact h.after
  · rw [htake, hkept.found]
    exact h.found

/-- Calls that look at the ring or move the interrupt line. -/
def Looks : Call → Prop
  | .dmaReadInto .. => True
  | .raiseIrq => True
  | .lowerIrq => True
  | _ => False

theorem OnDisk.call (hl : Layout q) (hi : VqInv q (DiskChainOk q) w.vq) (h : OnDisk s disk w)
    {c : Call} {rep : c.Reply} (hc : Looks c) (hh : diskHandler q canMap w c rep w') :
    Later q (DiskChainOk q) w.vq w'.vq ∧ OnDisk s disk w' := by
  have hlater : Later q (DiskChainOk q) w.vq w'.vq := by
    cases c with
    | dmaReadInto gpa len => exact (vq_read hl hi (diskHandler_vq hh)).1
    | raiseIrq => exact (vq_memoryless hl hi rfl (diskHandler_vq hh)).1
    | lowerIrq => exact (vq_memoryless hl hi rfl (diskHandler_vq hh)).1
    | _ => exact hc.elim
  obtain ⟨w₁, hd, hans, himage, hstable, hreq, hfound, -⟩ := hh
  have h₁ := h.driver hi hd
  have hsame : w'.vq.mem = w₁.vq.mem ∧ w'.vq.posted = w₁.vq.posted ∧ w'.vq.published = w₁.vq.published ∧
      w'.image = w₁.image ∧ w'.stable = w₁.stable := by
    cases c with
    | dmaReadInto gpa len =>
      rw [hans.2]
      split <;> exact ⟨rfl, rfl, rfl, himage, hstable⟩
    | raiseIrq =>
      rw [hans.2]
      exact ⟨rfl, rfl, rfl, himage, hstable⟩
    | lowerIrq =>
      rw [hans.2]
      exact ⟨rfl, rfl, rfl, himage, hstable⟩
    | _ => exact hc.elim
  obtain ⟨hmem, hposted, hpub, himage, hstable⟩ := hsame
  refine ⟨hlater, ⟨⟨?_, fun k p hk hp => ?_, ?_, by rw [hreq]; exact h₁.onFile.sized⟩, ?_, ?_⟩⟩
  · rw [hreq, hposted]
    exact h₁.onFile.count
  · rw [hposted] at hp
    rw [hpub] at hk
    rw [hreq, hmem]
    exact h₁.onFile.held k p hk hp
  · rw [hposted, hpub]
    exact h₁.onFile.apart
  · rw [hreq, hpub, himage, hstable]
    exact h₁.after
  · rw [hfound, hreq, newlyFound, hpub, List.drop_eq_nil_of_le (List.length_take_le _ _), List.map_nil,
      List.append_nil]
    exact h₁.found

theorem OnDisk.looks (hl : Layout q) (hi : VqInv q (DiskChainOk q) w.vq) (h : OnDisk s disk w)
    {α : Type} {p : FabricM α} {χ : Fault → Prop} {ψ : α → Prop} (hp : p.Sat Looks χ ψ) :
    wp (diskHandler q canMap) p (fun _ w' => VqInv q (DiskChainOk q) w'.vq ∧
      w'.vq.published = w.vq.published ∧ OnDisk s disk w') w := by
  refine wp_mono (hp.wp (I := fun w' => VqInv q (DiskChainOk q) w'.vq ∧
    w'.vq.published = w.vq.published ∧ OnDisk s disk w') (fun w₁ c rep w₂ hc h₁ hh => ?_)
    ⟨hi, rfl, h⟩) fun _ _ h => h.1
  obtain ⟨hi₁, hpub, h₁⟩ := h₁
  obtain ⟨hlater, h₂⟩ := h₁.call hl hi₁ hc hh
  exact ⟨hlater.inv, hlater.published.trans hpub, h₂⟩

/-- The next post is as it was posted. -/
theorem OnDisk.inService (hi : VqInv q (DiskChainOk q) w.vq) (h : OnDisk s disk w) {p : Post}
    (hp : w.vq.posted[w.vq.published.length]? = some p) :
    InService q (w.requests.take w.vq.published.length) p (postReq w.vq.mem p) w.found w
      (⟨w.vq.mem, w.image, false, []⟩, w.stable) := by
  have hlen : (w.requests.take w.vq.published.length).length = w.vq.published.length :=
    List.length_take_of_le (by rw [h.onFile.count]; exact hi.le)
  have hheld := h.onFile.held _ p (Nat.le_refl _) hp
  refine ⟨⟨hi, hlen.symm, by rw [hlen]; exact hp⟩, ⟨h.onFile.count, fun k p' hk hp' => ?_, h.onFile.apart,
    h.onFile.sized⟩, fun _ _ _ _ => rfl, rfl, rfl, ?_, rfl⟩
  · rw [hlen] at hk
    exact h.onFile.held k p' (by omega) hp'
  · have htake : w.requests.take (w.vq.published.length + 1) =
        w.requests.take w.vq.published.length ++ [postReq w.vq.mem p] := by
      rw [List.take_add_one, hheld]
      rfl
    rw [← htake]
    exact List.take_prefix _ _

/-- One request further. -/
theorem Completed.onDisk {pre : List DiskReq} {p : Post} {r : DiskReq} {v : Ram × Mem}
    {found : List (UInt8 × Bytes)} (h : Completed q pre p r found v w)
    (hfound : found = (replies s disk pre).map DiskReply.seen)
    (hreply : postReply v.1.mem p = (serve s (diskAfter s disk pre) r).1.seen)
    (hafter : ⟨v.1.image, v.2⟩ = (serve s (diskAfter s disk pre) r).2) : OnDisk s disk w := by
  have htake : w.requests.take w.vq.published.length = pre ++ [r] := by
    obtain ⟨t, ht⟩ := h.requests
    rw [h.count, ← ht, List.take_append_of_le_length (by simp), List.take_of_length_le (by simp)]
  refine ⟨by rw [h.count]; exact h.onFile, ?_, ?_⟩
  · rw [htake, diskAfter_concat, ← hafter, h.image, h.stable]
  · rw [htake, replies_concat, List.map_append, ← hfound, h.found, hreply]
    rfl

theorem ackNotify_looks (d : BlkdVirtioDevice) :
    (ackNotify d).Sat Looks (fun _ => True) fun _ => True := by
  unfold ackNotify
  split
  · exact raiseIrq_sat trivial
  · exact lowerIrq_sat trivial

variable {b : BlkdBlockBackend} (himg : b.imageLen ≤ int64Max)
include himg

/-- Between two chains the disk has served what is published. -/
theorem serviceLoop_disk (hl : Layout q) (direct : Bool) (pfuel fuel : Nat) (d : BlkdVirtioDevice)
    (usedAny : Bool) (w : DiskWorld) (hi : VqInv q (DiskChainOk q) w.vq)
    (hd : DevAt 0 q w.vq.published.length d) (hb : d.priv.backend = b) (h : OnDisk b.shape disk w) :
    wp (diskHandler q canMap) (serviceLoop 0 (processChain direct pfuel) fuel d usedAny)
      (fun o w' => ∀ r, o = .ok r → OnDisk b.shape disk w' ∧ r.1.priv.backend = b) w := by
  induction fuel generalizing d usedAny w with
  | zero => exact fun r hr => by cases hr
  | succ fuel ih =>
    unfold serviceLoop
    rw [hd.queue]
    refine wp_seq (wp_and (wp_lift (fun _ _ _ _ => diskHandler_vq) (pollAvail_vq hl 20 hi rfl))
      (h.looks hl hi (pollAvail_sat (χ := fun _ => True) (fun _ _ => trivial) _ (fun _ => trivial) 20))) ?_
      fun e w' _ r hr => by cases hr
    intro a w₁ h'
    obtain ⟨⟨hi₁, hn₁, hpost⟩, -, -, h₁⟩ := h'
    rcases hpost with hnone | hsome
    · obtain ⟨ha, -⟩ := hnone
      cases ha
      intro r hr
      cases hr
      exact ⟨h₁, hb⟩
    · obtain ⟨p, ha, hpost⟩ := hsome
      cases ha
      have hs₁ := h₁.inService hi₁ (by rw [hn₁]; exact hpost)
      rw [hn₁] at hs₁
      have hpre := h₁.found
      have hafter := h₁.after
      rw [hn₁] at hpre hafter
      refine wp_seq (processChain_disk hl himg direct pfuel _ hd hb hs₁) ?_ fun e w' _ r hr => by cases hr
      intro a w₂ h'
      obtain ⟨d', used, v', ha, hv, hb', hs₂, hreply, hserved⟩ := h' a rfl
      subst ha
      have hd' := hd.of_vdev hv
      dsimp only
      rw [hd'.queue]
      refine wp_seq (virtioAddUsed_disk hl hs₂ _ used) ?_ fun e w' _ r hr => by cases hr
      intro ok w₃ h'
      obtain ⟨hok, hdone⟩ := h'
      cases hok
      rw [hafter] at hreply hserved
      have h₃ := hdone.onDisk hpre hreply hserved
      have hcount : w₃.vq.published.length = w.vq.published.length + 1 := by
        rw [hdone.count, List.length_take_of_le (by rw [h₁.onFile.count, ← hn₁]; exact hi₁.le)]
      exact ih (d'.advance 0) true w₃ hdone.inv (by rw [hcount]; exact hd'.advance) hb' h₃

/-- Between notifications. -/
structure AtRest (q : VirtioQueue) (b : BlkdBlockBackend) (disk : Disk)
    (st : BlkdVirtioDevice × DiskWorld) : Prop where
  between : Between 0 q (DiskChainOk q) (st.1, st.2.vq)
  backend : st.1.priv.backend = b
  onDisk : OnDisk b.shape disk st.2

theorem serviceQueue_disk (hl : Layout q) (direct : Bool) (fuel : Nat) {d : BlkdVirtioDevice}
    (h : AtRest q b disk (d, w)) :
    wp (diskHandler q canMap) (serviceQueue 0 (processChain direct fuel) fuel d)
      (fun o w' => ∀ r, o = .ok r → OnDisk b.shape disk w' ∧ r.1.priv.backend = b) w := by
  have hloop := serviceLoop_inOrder hl (fun p (h : DiskChainOk q p) => h.inTable)
    (processChain_completes hl (fun _ h => h.toBlkChainOk) direct fuel) fuel d false w.vq h.between.inv h.between.dev
  refine wp_seq (wp_and (wp_lift (fun _ _ _ _ => diskHandler_vq) hloop)
    (serviceLoop_disk himg hl direct fuel fuel d false w h.between.inv h.between.dev h.backend h.onDisk)) ?_
    fun e w' _ r hr => by cases hr
  intro a w₁ h'
  obtain ⟨⟨hi₁, -⟩, h'⟩ := h'
  obtain ⟨h₁, hb⟩ := h' a rfl
  obtain ⟨d', done⟩ := a
  have hend : ∀ {α : Type} {p : FabricM α} {f : α → BlkdVirtioDevice × Bool},
      p.Sat Looks (fun _ => True) (fun _ => True) → (∀ a, (f a).1.priv = d'.priv) →
      wp (diskHandler q canMap) (p >>= fun a => .ret (f a))
        (fun o w' => ∀ r, o = .ok r → OnDisk b.shape disk w' ∧ r.1.priv.backend = b) w₁ := by
    intro α p f hp hf
    refine wp_seq (h₁.looks hl hi₁ hp) (fun a w₂ h₂ r hr => ?_) fun e w' _ r hr => by cases hr
    cases hr
    exact ⟨h₂.2.2, by rw [hf a]; exact hb⟩
  match done with
  | none =>
    intro r hr
    cases hr
    exact ⟨h₁, hb⟩
  | some true => exact hend (f := fun ok => (d'.setVring, ok)) (raiseIrq_sat trivial) fun _ => rfl
  | some false => exact hend (f := fun ok => (d', ok)) (ackNotify_looks d') fun _ => rfl

/-- A notification of the request queue. -/
theorem blkdNotify_disk (hl : Layout q) (hready : q.ready ≠ 0) (direct : Bool) (fuel : Nat)
    {d : BlkdVirtioDevice} (h : AtRest q b disk (d, w)) :
    wp (diskHandler q canMap) (blkdVirtioNotifyQueue direct fuel d 0) (fun o w' =>
      NotifyEnds 0 q (DiskChainOk q) fuel w.vq o w'.vq ∧
      ∀ r, o = .ok r → OnDisk b.shape disk w' ∧ r.1.priv.backend = b) w := by
  have hrd : (d.queue 0).ready = q.ready := by
    rw [h.between.dev.queue]
    rfl
  unfold blkdVirtioNotifyQueue
  rw [if_neg (by simp [hrd, hready])]
  exact wp_and (wp_lift (fun _ _ _ _ => diskHandler_vq) (serviceQueue_inOrder hl (fun p h => h.inTable) fuel
    (processChain_completes hl (fun _ h => h.toBlkChainOk) direct fuel) d w.vq h.between))
    (serviceQueue_disk himg hl direct fuel h)

theorem blkdNotify_rest (hl : Layout q) (hready : q.ready ≠ 0) (direct : Bool) (fuel : Nat)
    (queue : UInt32) {d : BlkdVirtioDevice} (h : AtRest q b disk (d, w)) :
    wp (diskHandler q canMap) (blkdVirtioNotifyQueue direct fuel d queue)
      (fun o w' => ∀ r, o = .ok r → AtRest q b disk (r.1, w')) w := by
  by_cases hzero : queue = 0
  · subst hzero
    refine wp_mono (blkdNotify_disk himg hl hready direct fuel h) fun o w' hends r hr => ?_
    obtain ⟨hn | hn, hdisk⟩ := hends
    · obtain ⟨d', ho, -, hb⟩ := hn
      obtain ⟨h', hbk⟩ := hdisk r hr
      rw [ho] at hr
      cases hr
      exact ⟨hb, hbk, h'⟩
    · rw [hn.1] at hr
      cases hr
  · unfold blkdVirtioNotifyQueue
    rw [if_pos (.inl hzero)]
    refine wp_seq (h.onDisk.looks hl h.between.inv (ackNotify_looks d)) ?_ fun e w' _ r hr => by cases hr
    intro ok w' h' r hr
    cases hr
    obtain ⟨hi, hpub, h'⟩ := h'
    exact ⟨⟨hi, by rw [hpub]; exact h.between.dev⟩, h.backend, h'⟩

end

end

/-! ## Whole histories -/

inductive BlkLabel where
  | driver
  | registers
  | notify (fuel : Nat) (queue : UInt32)
  deriving DecidableEq, Repr

/-- Driver steps, notifications of any queue, and register writes that leave
the queues alone; the image starts as `disk`. -/
def blkQueueLts (q : VirtioQueue) (direct : Bool) (canMap : UInt64 → UInt32 → Bool)
    (b : BlkdBlockBackend) (disk : Disk) : LTS (BlkdVirtioDevice × DiskWorld) BlkLabel where
  init s := Fresh 0 q (s.1, s.2.vq) ∧ s.1.priv.backend = b ∧ s.2.image = disk.image ∧
    s.2.stable = disk.stable ∧ s.2.requests = [] ∧ s.2.found = []
  step s l s' :=
    match l with
    | .driver => s'.1 = s.1 ∧ DiskDriverStep q s.2 s'.2
    | .registers => s'.1.vdev.queues = s.1.vdev.queues ∧ s'.1.priv = s.1.priv ∧ s'.2 = s.2
    | .notify fuel queue => ∃ ok, Runs (diskHandler q canMap) (blkdVirtioNotifyQueue direct fuel s.1 queue) s.2
        (.ok (s'.1, ok)) s'.2

theorem atRest_inductive {q : VirtioQueue} (hl : Layout q) (hready : q.ready ≠ 0) (direct : Bool)
    (canMap : UInt64 → UInt32 → Bool) {b : BlkdBlockBackend} (himg : b.imageLen ≤ int64Max)
    (disk : Disk) : (blkQueueLts q direct canMap b disk).Inductive (AtRest q b disk) where
  init s h := by
    obtain ⟨hf, hb, himage, hstable, hreq, hfound⟩ := h
    have hposted : s.2.vq.posted = [] := hf.posted
    refine ⟨hf.between _, hb, ⟨⟨?_, ?_, ?_, ?_⟩, ?_, ?_⟩⟩
    · rw [hreq, hposted]
      rfl
    · simp [hposted]
    · simp [hposted]
    · simp [hreq]
    · rw [hreq, himage, hstable]
      simp [diskAfter]
    · rw [hreq, hfound]
      simp [replies]
  step s l s' h hs := by
    obtain ⟨d, w⟩ := s
    obtain ⟨d', w'⟩ := s'
    cases l with
    | driver =>
      obtain ⟨hd, hstep⟩ := hs
      have hd' : d' = d := hd
      subst hd'
      have hsteps : DiskDriverSteps q w w' := .single hstep
      have hlater := hsteps.vq.later hl h.between.inv
      exact ⟨⟨hlater.inv, by rw [hlater.published]; exact h.between.dev⟩, h.backend,
        h.onDisk.driver h.between.inv hsteps⟩
    | registers =>
      obtain ⟨hqueues, hpriv, hw⟩ := hs
      have hw' : w' = w := hw
      have hqueues : d'.vdev.queues = d.vdev.queues := hqueues
      have hpriv : d'.priv = d.priv := hpriv
      subst hw'
      refine ⟨⟨h.between.inv, ⟨by rw [hqueues]; exact h.between.dev.exist, ?_⟩⟩, ?_, h.onDisk⟩
      · rw [← h.between.dev.queue, Device.queue, hqueues, Device.queue]
      · show d'.priv.backend = b
        rw [hpriv]
        exact h.backend
    | notify fuel queue =>
      obtain ⟨ok, hr⟩ := hs
      exact hr.of_wp (blkdNotify_rest himg hl hready direct fuel queue h) _ rfl

/-- **The block queue is a disk.** Take the request queue fresh and ready, its
size a power of two of at most 32768 and its three areas disjoint, an image
within the 64-bit signed range, and any history of posts, of register writes
that leave the queues alone and of notifications of any queue, with driver
steps between any two calls of the device too; every call of the fabric and the
host succeeds. A post is within the advertised limits, its header has at least
16 bytes and its status buffer one, and its buffers are apart from each other
and outside the queue (`DiskChainOk`); the driver leaves the buffers of posts in
flight alone and posts none that clashes with one of them (`DiskDriverStep`).

Every notification of the queue returns true, and then the image is the one
that the requests counted at its last look at the available index leave when
they are served one after the other in posting order, and the driver found the
reply of each at its completion. So a read that completed OK delivered, byte by
byte, what the latest earlier write had stored there. (A run without a result
had no more fuel than the queue has entries, or no more than the chains it
completed.) -/
theorem block_queue_is_disk (q : VirtioQueue) (direct : Bool) (canMap : UInt64 → UInt32 → Bool)
    (b : BlkdBlockBackend) (disk : Disk) (s : BlkdVirtioDevice × DiskWorld) (fuel : Nat)
    (o : Except Fault (BlkdVirtioDevice × Bool)) (w' : DiskWorld) (hl : Layout q)
    (hready : q.ready ≠ 0) (himg : b.imageLen ≤ int64Max)
    (hreach : (blkQueueLts q direct canMap b disk).Reachable s)
    (hrun : Runs (diskHandler q canMap) (blkdVirtioNotifyQueue direct fuel s.1 0) s.2 o w') :
    (∃ d', o = .ok (d', true) ∧ Drained 0 q d' w'.vq ∧
      w'.image = (diskAfter b.shape disk (w'.requests.take w'.vq.seen)).image ∧
      w'.found = (replies b.shape disk (w'.requests.take w'.vq.seen)).map DiskReply.seen ∧
      ∀ k r code data, k < w'.vq.seen → w'.requests[k]? = some r → w'.found[k]? = some (code, data) →
        r.type = .tIn → code = BlkStatus.ok.code →
        data = (List.range r.data.length).map fun i =>
          (lastStored ((w'.requests.take k).flatMap b.shape.stored) (r.start + i)).getD
            (disk.image (r.start + i))) ∨
      (o = .error .fuel ∧
        (fuel ≤ q.num.toNat ∨ s.2.vq.published.length + fuel ≤ w'.vq.published.length)) := by
  have hrest := (atRest_inductive hl hready direct canMap himg disk).reachable s hreach
  obtain ⟨hends, hdisk⟩ := hrun.of_wp (blkdNotify_disk himg hl hready direct fuel hrest)
  rcases hends with h | h
  · obtain ⟨d', ho, hd, -⟩ := h
    obtain ⟨h', -⟩ := hdisk _ ho
    have hafter := h'.after
    have hfound := h'.found
    rw [hd.count] at hafter hfound
    refine .inl ⟨d', ho, hd, congrArg Disk.image hafter, hfound, ?_⟩
    intro k r code data hk hr ha ht hcode
    rw [hfound, List.getElem?_map] at ha
    obtain ⟨reply, hreply, hseen⟩ := Option.map_eq_some_iff.1 ha
    obtain ⟨rfl, rfl⟩ := Prod.mk.inj hseen
    have htake : (w'.requests.take w'.vq.seen)[k]? = some r := by
      rw [List.getElem?_take_of_lt hk]
      exact hr
    have hread := replies_read htake ht (h'.onFile.sized r (List.mem_of_getElem? hr)) hreply
      (code_inj.1 hcode)
    rwa [List.take_take, Nat.min_eq_left (Nat.le_of_lt hk)] at hread
  · exact .inr h

/-- **A flush is a barrier.** In the same histories, at every point between
notifications, what has been made stable is the image after some first part of
the requests in posting order, past every FLUSH that completed; as long as none
has, it is what was stable at first. -/
theorem flush_is_barrier (q : VirtioQueue) (direct : Bool) (canMap : UInt64 → UInt32 → Bool)
    (b : BlkdBlockBackend) (disk : Disk) (s : BlkdVirtioDevice × DiskWorld) (hl : Layout q)
    (hready : q.ready ≠ 0) (himg : b.imageLen ≤ int64Max)
    (hreach : (blkQueueLts q direct canMap b disk).Reachable s) :
    ((∀ k r, k < s.2.vq.published.length → s.2.requests[k]? = some r → r.type ≠ .tFlush) ∧
        s.2.stable = disk.stable) ∨
      ∃ j ≤ s.2.vq.published.length, s.2.stable = (diskAfter b.shape disk (s.2.requests.take j)).image ∧
        ∀ k r, k < s.2.vq.published.length → s.2.requests[k]? = some r → r.type = .tFlush → k ≤ j := by
  have hrest := (atRest_inductive hl hready direct canMap himg disk).reachable s hreach
  have hstable := congrArg Disk.stable hrest.onDisk.after
  dsimp only at hstable
  rw [hstable]
  rcases diskAfter_stable b.shape disk (s.2.requests.take s.2.vq.published.length) with ⟨hno, hst⟩ | h
  · refine .inl ⟨fun k r hk hr => hno r ?_, hst⟩
    exact List.mem_of_getElem? (i := k) (by rw [List.getElem?_take_of_lt hk]; exact hr)
  · obtain ⟨j, hj, hst, hlast⟩ := h
    have hj' : j ≤ s.2.vq.published.length := Nat.le_trans hj (List.length_take_le _ _)
    rw [List.take_take, Nat.min_eq_left hj'] at hst
    exact .inr ⟨j, hj', hst, fun k r hk hr => hlast k r (by rw [List.getElem?_take_of_lt hk]; exact hr)⟩

/-! ## A write, a flush and a read -/

/-- The world after a call that left the queue as `v`. -/
def DiskWorld.next (w : DiskWorld) (c : Call) (v : VqWorld) : DiskWorld :=
  { w with
    vq := v
    image := nextImage w.image c
    stable := nextStable w.image w.stable c
    found := w.found ++ newlyFound w.vq v }

/-- The answers of `diskHandler` when the driver pauses. -/
def diskRun (q : VirtioQueue) (canMap : UInt64 → UInt32 → Bool) (w : DiskWorld) :
    (c : Call) → c.Reply × DiskWorld
  | .dmaMap gpa len => (canMap gpa len, w.next (.dmaMap gpa len) w.vq)
  | .pread offset len =>
    (some (readBytes w.image offset.toNat len.toNat), w.next (.pread offset len) w.vq)
  | .preadMapped gpa offset len =>
    (true, w.next (.preadMapped gpa offset len)
      (w.vq.store q (writeBytes w.vq.mem gpa.toNat (readBytes w.image offset.toNat len.toNat))))
  | c => ((vqRun q w.vq c).1, w.next c (vqRun q w.vq c).2)

theorem diskRun_handler (q : VirtioQueue) (canMap : UInt64 → UInt32 → Bool) (w : DiskWorld)
    (c : Call) :
    diskHandler q canMap w c (diskRun q canMap w c).1 (diskRun q canMap w c).2 := by
  refine ⟨w, .refl, ?_, ?_, ?_, ?_, ?_, ?_⟩
  · cases c with
    | dmaMap gpa len => rfl
    | pread offset len => exact ⟨⟨_, rfl, readBytes_length _ _ _⟩, rfl⟩
    | preadMapped gpa offset len => exact ⟨rfl, _, readBytes_length _ _ _, rfl⟩
    | _ => exact ⟨rfl, rfl⟩
  all_goals cases c <;> first | rfl | trivial

/-- Sixteen entries; table at 0x1000, rings at 0x2000 and 0x3000. -/
def diskQueue : VirtioQueue := ⟨16, 1, 0x1000, 0x2000, 0x3000, 0⟩

def diskDevice : BlkdVirtioDevice where
  vdev := { virtioDeviceInit virtioIdBlock virtioVendorIdLocal 1 blkdQueueSize with queues := [diskQueue] }
  priv := ⟨⟨1024, false⟩, 2, [], 0⟩

/-- Four bytes to sector 1, a flush, and four bytes from sector 1. -/
def diskPosts : List Post :=
  [⟨0, [⟨0x4000, 16, 1, 1⟩, ⟨0x6000, 4, 1, 2⟩], ⟨0x5000, 1, 2, 0⟩⟩,
    ⟨3, [⟨0x4100, 16, 1, 4⟩], ⟨0x5001, 1, 2, 0⟩⟩,
    ⟨5, [⟨0x4200, 16, 1, 6⟩, ⟨0x7000, 4, 3, 7⟩], ⟨0x5002, 1, 2, 0⟩⟩]

def diskBase : List (Nat × UInt8) :=
  [(0x1001, 0x40), (0x1008, 16), (0x100c, 1), (0x100e, 1), (0x1011, 0x60), (0x1018, 4), (0x101c, 1),
    (0x101e, 2), (0x1021, 0x50), (0x1028, 1), (0x102c, 2), (0x1031, 0x41), (0x1038, 16), (0x103c, 1),
    (0x103e, 4), (0x1040, 1), (0x1041, 0x50), (0x1048, 1), (0x104c, 2), (0x1051, 0x42), (0x1058, 16),
    (0x105c, 1), (0x105e, 6), (0x1061, 0x70), (0x1068, 4), (0x106c, 3), (0x106e, 7), (0x1070, 2),
    (0x1071, 0x50), (0x1078, 1), (0x107c, 2), (0x2006, 3), (0x2008, 5), (0x4000, 1), (0x4008, 1),
    (0x4100, 4), (0x4208, 1), (0x6000, 65), (0x6001, 66), (0x6002, 67), (0x6003, 68)]

/-- Memory after `k` posts: only the available index moves. -/
def diskMem (k : Nat) : Mem := writeBytes (memOf diskBase) 0x2002 (virtioStoreLe16 (UInt16.ofNat k))

/-- The driver has made the first `k` posts. -/
def diskWorld (k : Nat) : DiskWorld where
  vq := ⟨diskMem k, diskPosts.take k, [], 0⟩
  image := fun _ => 0
  stable := fun _ => 0
  requests := (diskPosts.take k).map (postReq (memOf diskBase))
  found := []

theorem diskQueue_layout : Layout diskQueue :=
  ⟨⟨4, by decide, rfl⟩, by decide, by decide, by decide, by decide, by decide, by decide⟩

theorem diskMem_eq (k : Nat) {x : Nat} (h : x ≠ 0x2002 ∧ x ≠ 0x2003) :
    diskMem k x = memOf diskBase x := by
  refine writeBytes_out ?_
  rw [virtioStoreLe16_length]
  omega

theorem diskMem_idx (k : Nat) : availIdx diskQueue (diskMem k) = UInt16.ofNat k := by
  have hb := readBytes_writeBytes (memOf diskBase) 0x2002 (virtioStoreLe16 (UInt16.ofNat k))
  rw [virtioStoreLe16_length] at hb
  rw [availIdx, show diskQueue.avail.toNat + 2 = 0x2002 from rfl, diskMem, hb, virtioLoadLe16_store]

theorem diskPosts_ok : ∀ p ∈ diskPosts, DiskChainOk diskQueue p := by
  intro p hp
  have htable : ((chainPath p.head p.descs).all fun i => decide (i.toNat < diskQueue.num.toNat)) = true := by
    revert p
    decide
  have hcheck : p.descs.length < diskQueue.num.toNat ∧
      (∀ d ∈ p.descs ++ [p.last], (tableRegion diskQueue).Apart d.buf ∧ (availRegion diskQueue).Apart d.buf ∧
        (usedRegion diskQueue).Apart d.buf) ∧ p.descs ≠ [] ∧ 1 ≤ p.last.len.toNat ∧
      (∀ h ∈ p.descs.head?, 16 ≤ h.len.toNat) ∧ p.descs.tail.length ≤ blkdMaxSegments.toNat ∧
      (∀ d ∈ p.descs.tail, d.len ≤ blkdMaxSegSize) ∧ (postBufs p).Pairwise Region.Apart := by
    revert p
    decide
  have h1 : InTable diskQueue p := fun i hi => of_decide_eq_true (List.all_eq_true.1 htable i hi)
  obtain ⟨h2, h3, h4, h5, h6, h7, h8, h9⟩ := hcheck
  exact ⟨⟨⟨h1, h2, fun d hd => ⟨(h3 d hd).1, (h3 d hd).2.1, (h3 d hd).2.2⟩⟩, h4, h5⟩, h6, h7, h8, h9⟩

/-- The index is in the available ring, so nothing else of a post changes. -/
theorem diskMem_post {p : Post} (hp : p ∈ diskPosts) (k : Nat) :
    ∀ r ∈ postZone diskQueue p, ∀ x ∈ r, diskMem k x = memOf diskBase x := by
  intro r hr x hx
  refine diskMem_eq k ?_
  have hin : 0x2002 ∈ availRegion diskQueue ∧ 0x2003 ∈ availRegion diskQueue := by decide
  have hok := diskPosts_ok p hp
  have hout : x ∉ availRegion diskQueue := by
    rcases List.mem_append.1 hr with hr | hr
    · obtain ⟨j, hj, rfl⟩ := List.mem_map.1 hr
      exact diskQueue_layout.tableAvail x (entry_sub diskQueue_layout (hok.inTable j hj) x hx)
    · exact fun ha => (hok.outside hr).avail x ha hx
  constructor
  · intro he
    exact hout (he ▸ hin.1)
  · intro he
    exact hout (he ▸ hin.2)

theorem diskMem_kept (k : Nat) : Kept diskQueue (diskWorld k).vq (diskMem (k + 1)) := by
  have hsame : ∀ x, x ≠ 0x2002 ∧ x ≠ 0x2003 → diskMem (k + 1) x = diskMem k x := fun x hx =>
    (diskMem_eq (k + 1) hx).trans (diskMem_eq k hx).symm
  refine ⟨fun x hx => hsame x ?_, fun j _ _ => ?_, fun j p _ hp i hi x hx => ?_⟩
  · have hx1 : 0x3000 ≤ x := hx.1
    omega
  · unfold availSlot
    have hbase : diskQueue.avail.toNat = 0x2000 := rfl
    rw [readBytes_congr fun x h1 h2 => hsame x (by omega)]
    rfl
  · have hmem : p ∈ diskPosts := List.mem_of_mem_take (List.mem_of_getElem? hp)
    have hr : entry diskQueue i ∈ postZone diskQueue p := List.mem_append_left _ (List.mem_map_of_mem hi)
    exact (diskMem_post hmem (k + 1) _ hr x hx).trans (diskMem_post hmem k _ hr x hx).symm

theorem diskPosts_chain :
    ∀ p ∈ diskPosts, ChainAt (memOf diskBase) diskQueue p.head p.descs p.last := by
  decide +kernel

/-- Slot `k` of the ring holds the head of post `k` from the start. -/
theorem diskMem_slot :
    ∀ k < 3, diskPosts[k]?.map Post.head = some (availSlot diskQueue (memOf diskBase) k) := by
  decide +kernel

theorem diskPosts_apart : diskPosts.Pairwise NoClash := by
  unfold NoClash
  decide

theorem diskWorld_step (k : Nat) (hk : k < 3) :
    DiskDriverStep diskQueue (diskWorld k) (diskWorld (k + 1)) := by
  obtain ⟨p, hp⟩ : ∃ p, diskPosts[k]? = some p := ⟨_, List.getElem?_eq_getElem hk⟩
  have hmem : p ∈ diskPosts := List.mem_of_getElem? hp
  have htake : diskPosts.take (k + 1) = diskPosts.take k ++ [p] := by rw [List.take_add_one, hp]; rfl
  have hlen : (diskPosts.take k).length = k := List.length_take_of_le (Nat.le_of_lt hk)
  have hidx : (availIdx diskQueue (diskWorld k).vq.mem).toNat = k := by
    rw [show (diskWorld k).vq.mem = diskMem k from rfl, diskMem_idx, UInt16.toNat_ofNat']
    omega
  have hpost : DriverStep diskQueue (DiskChainOk diskQueue) (diskWorld k).vq
      { (diskWorld k).vq with mem := diskMem (k + 1), posted := (diskWorld k).vq.posted ++ [p] } := by
    refine .post ?_ (diskPosts_ok p hmem) (diskMem_kept k) ?_ ?_ ?_
    · show (diskPosts.take k).length < 0 + 16
      omega
    · exact (diskPosts_chain p hmem).congr fun j hj x hx =>
        diskMem_post hmem (k + 1) _ (List.mem_append_left _ (List.mem_map_of_mem hj)) x hx
    · rw [hidx]
      have hslot := diskMem_slot k hk
      rw [hp] at hslot
      rw [Option.some.inj hslot]
      unfold availSlot
      have hbase : diskQueue.avail.toNat = 0x2000 := rfl
      rw [readBytes_congr fun x h1 h2 => diskMem_eq (k + 1) (by omega)]
    · rw [diskMem_idx, show (diskWorld k).vq.mem = diskMem k from rfl, diskMem_idx, ofNat_succ]
  have hstep := DiskDriverStep.mk (w := diskWorld k) hpost (fun j p' _ hp' r hr x hx => ?_) ?_
  · have hreq : postReq (diskMem (k + 1)) p = postReq (memOf diskBase) p :=
      postReq_congr fun r hr x hx => diskMem_post hmem (k + 1) r (List.mem_append_right _ hr) x hx
    have hdrop : ((diskPosts.take k ++ [p]).drop (diskPosts.take k).length).map (postReq (diskMem (k + 1))) =
        [postReq (memOf diskBase) p] := by
      rw [List.drop_left, List.map_singleton, hreq]
    have hnext : diskWorld (k + 1) = { diskWorld k with
        vq := { (diskWorld k).vq with mem := diskMem (k + 1), posted := (diskWorld k).vq.posted ++ [p] }
        requests := (diskWorld k).requests ++
          ((diskPosts.take k ++ [p]).drop (diskPosts.take k).length).map (postReq (diskMem (k + 1))) } := by
      rw [hdrop]
      simp [diskWorld, htake]
    rw [hnext]
    exact hstep
  · have hmem' : p' ∈ diskPosts := List.mem_of_mem_take (List.mem_of_getElem? hp')
    have hr' : r ∈ postZone diskQueue p' := List.mem_append_right _ hr
    exact (diskMem_post hmem' (k + 1) r hr' x hx).trans (diskMem_post hmem' k r hr' x hx).symm
  · show ((diskPosts.take k ++ [p]).drop 0).Pairwise NoClash
    rw [List.drop_zero, ← htake]
    exact diskPosts_apart.sublist (List.take_sublist _ _)

def zeroDisk : Disk := ⟨fun _ => 0, fun _ => 0⟩

theorem diskWorld_reachable (k : Nat) (hk : k ≤ 3) :
    (blkQueueLts diskQueue false (fun _ _ => false) ⟨1024, false⟩ zeroDisk).Reachable (diskDevice, diskWorld k) := by
  induction k with
  | zero =>
    have hfresh : Fresh 0 diskQueue (diskDevice, (diskWorld 0).vq) :=
      ⟨⟨by decide, rfl⟩, rfl, rfl, (diskMem_idx 0).trans rfl, by decide +kernel⟩
    exact ⟨_, [], ⟨hfresh, rfl, rfl, rfl, rfl, rfl⟩, .nil _⟩
  | succ k ih => exact (ih (by omega)).tail (l := .driver) ⟨rfl, diskWorld_step k (by omega)⟩

/-- The run of one notification. -/
def diskServed : Except Fault (BlkdVirtioDevice × Bool) × DiskWorld :=
  (blkdVirtioNotifyQueue false 17 diskDevice 0).run (S := fabricSig) (diskRun diskQueue fun _ _ => false) (diskWorld 3)

theorem diskServed_runs :
    Runs (diskHandler diskQueue fun _ _ => false) (blkdVirtioNotifyQueue false 17 diskDevice 0)
    (diskWorld 3) diskServed.1 diskServed.2 :=
  Runs.of_run (π := fun w => w) (diskRun_handler diskQueue fun _ _ => false) _ _

theorem diskServed_found :
    diskServed.2.found = [(0, [65, 66, 67, 68]), (0, []), (0, [65, 66, 67, 68])] := by
  decide +kernel

theorem diskServed_published : diskServed.2.vq.published.length = 3 := by decide +kernel

/-- The read finds what the write stored, and each reply is the disk's. -/
theorem block_queue_is_disk_served : ∃ d', diskServed.1 = .ok (d', true) ∧
    diskServed.2.found = [(0, [65, 66, 67, 68]), (0, []), (0, [65, 66, 67, 68])] ∧
    diskServed.2.found = (replies ⟨1024, false⟩ zeroDisk
      (diskServed.2.requests.take diskServed.2.vq.seen)).map DiskReply.seen := by
  have h := block_queue_is_disk diskQueue false (fun _ _ => false) ⟨1024, false⟩ zeroDisk _ 17 _ _
    diskQueue_layout (by decide) (by decide) (diskWorld_reachable 3 (Nat.le_refl _)) diskServed_runs
  rcases h with h | h
  · obtain ⟨d', ho, -, -, hfound, -⟩ := h
    exact ⟨d', ho, diskServed_found, hfound⟩
  · rw [diskServed_published] at h
    exact absurd h.2 (by decide)

/-- The flush was past the write. -/
theorem flush_is_barrier_served : ∃ s : BlkdVirtioDevice × DiskWorld,
    (blkQueueLts diskQueue false (fun _ _ => false) ⟨1024, false⟩ zeroDisk).Reachable s ∧
    s.2.stable 512 = 65 ∧
    ∃ j ≤ s.2.vq.published.length,
      s.2.stable = (diskAfter ⟨1024, false⟩ zeroDisk (s.2.requests.take j)).image ∧
      ∀ k r, k < s.2.vq.published.length → s.2.requests[k]? = some r → r.type = .tFlush → k ≤ j := by
  have hok : ∃ r, diskServed.1 = .ok r := by
    cases h : diskServed.1 with
    | ok r => exact ⟨r, rfl⟩
    | error e =>
      have hret : (match diskServed.1 with | .ok _ => true | .error _ => false) = true := by decide +kernel
      rw [h] at hret
      cases hret
  obtain ⟨⟨d', b⟩, ho⟩ := hok
  have hruns := diskServed_runs
  rw [ho] at hruns
  have hreach : (blkQueueLts diskQueue false (fun _ _ => false) ⟨1024, false⟩ zeroDisk).Reachable (d', diskServed.2) :=
    (diskWorld_reachable 3 (Nat.le_refl _)).tail (l := .notify 17 0) ⟨b, hruns⟩
  have hstable : diskServed.2.stable 512 = 65 := by decide +kernel
  have h := flush_is_barrier diskQueue false (fun _ _ => false) ⟨1024, false⟩ zeroDisk (d', diskServed.2)
    diskQueue_layout (by decide) (by decide) hreach
  refine ⟨(d', diskServed.2), hreach, hstable, ?_⟩
  rcases h with ⟨-, h⟩ | h
  · have hzero := congrFun h 512
    dsimp only at hzero
    rw [hstable] at hzero
    exact absurd hzero (by decide)
  · exact h

end AcsVirt.L4
