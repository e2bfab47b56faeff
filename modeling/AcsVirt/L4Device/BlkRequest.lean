import AcsVirt.L2Machine.DescChain
import AcsVirt.L2Machine.Ram
import AcsVirt.L4Device.Blkd

/-!
# A block request, end to end

What `process_chain` does with a well-laid-out chain when every call
succeeds: one contiguous transfer between the image and the data buffers
taken in chain order, and a status byte that says whether it happened.

The code does it a descriptor at a time, with a status that five places can
set. `runData` is that loop without the calls; `chainLoop_run` says the
code computes it, for every chain whose table entries the data transfers do
not hit. The effect of `runData` as one transfer is then an induction on
the descriptors, once for each direction (`runData_in`, `runData_out`).
`process_chain_spec` puts them together.
-/
namespace AcsVirt.L4

open L1 L2

/-! ## One data descriptor -/

/-- The status after a data descriptor, with `o` the byte offset reached. -/
def nextStatus (b : BlkdBlockBackend) (req : ReqType) (o : UInt64) (st : BlkStatus)
    (d : VirtioDesc) : BlkStatus :=
  match req with
  | .tIn => if !d.writable then .ioerr else if st = .ok then
      (if b.outside o d.len then .ioerr else .ok) else st
  | .tOut => if d.writable then .ioerr else if st = .ok then
      (if b.readonly || b.outside o d.len then .ioerr else .ok) else st
  | _ => st

/-- Memory and image after a data descriptor: a transfer happens iff the
status was OK and stays OK. -/
def dataWorld (b : BlkdBlockBackend) (req : ReqType) (o : UInt64) (st : BlkStatus) (d : VirtioDesc)
    (w : Ram) : Ram :=
  if st = .ok ∧ nextStatus b req o st d = .ok then
    match req with
    | .tIn => { w with mem := writeBytes w.mem d.addr.toNat (readBytes w.image o.toNat d.len.toNat) }
    | .tOut => { w with image := writeBytes w.image o.toNat (readBytes w.mem d.addr.toNat d.len.toNat) }
    | _ => w
  else w

section
variable (canMap : UInt64 → UInt32 → Bool)

theorem ensureIoBuf_run (s : BlkdState) (len : UInt32) (w : Ram) :
    ∃ s', s'.backend = s.backend ∧ (ensureIoBuf s len).run (Ram.answer canMap) w = (.ok (some s'), w) := by
  unfold ensureIoBuf
  split
  · exact ⟨s, rfl, rfl⟩
  · exact ⟨{ s with ioBuf := (s.ioBuf ++ List.replicate (len.toNat - s.ioBuf.length) 0).take len.toNat
                    ioBufSize := len }, rfl, rfl⟩

theorem readData_run (direct : Bool) (s : BlkdState) (d : VirtioDesc) (o : UInt64) (w : Ram) :
    ∃ s', s'.backend = s.backend ∧
      (readData direct s d o).run (Ram.answer canMap) w =
        if s.backend.outside o d.len then (.ok (s', .ioerr), w)
        else (.ok (s', .ok), { w with
          mem := writeBytes w.mem d.addr.toNat (readBytes w.image o.toNat d.len.toNat) }) := by
  have hmap : ∃ r, (tryMap direct d).run (Ram.answer canMap) w = (.ok r, w) := by
    unfold tryMap
    split
    · exact ⟨canMap d.addr d.len, rfl⟩
    · exact ⟨false, rfl⟩
  obtain ⟨r, hr⟩ := hmap
  unfold readData
  rw [Prog.run_bind_ok hr]
  cases r with
  | true =>
    refine ⟨s, rfl, ?_⟩
    simp only [if_true, blkdBlockReadMapped]
    by_cases ho : s.backend.outside o d.len
    · simp [ho]
    · simp [ho, preadMapped, Prog.perform, Ram.answer]
  | false =>
    obtain ⟨s', hb, hs'⟩ := ensureIoBuf_run canMap s d.len w
    simp only [Bool.false_eq_true, if_false]
    rw [Prog.run_bind_ok hs']
    by_cases ho : s.backend.outside o d.len
    · exact ⟨s', hb, by simp [blkdBlockRead, hb, ho]⟩
    · refine ⟨s'.fill (readBytes w.image o.toNat d.len.toNat), hb, ?_⟩
      simp only [blkdBlockRead, hb, ho, pread, dmaWrite, Prog.perform]
      simp [Ram.answer, BlkdState.fill_take]

theorem writeData_run (s : BlkdState) (d : VirtioDesc) (o : UInt64) (w : Ram) :
    ∃ s', s'.backend = s.backend ∧
      (writeData s d o).run (Ram.answer canMap) w =
        if s.backend.readonly || s.backend.outside o d.len then (.ok (s', some .ioerr), w)
        else (.ok (s', some .ok), { w with
          image := writeBytes w.image o.toNat (readBytes w.mem d.addr.toNat d.len.toNat) }) := by
  obtain ⟨s', hb, hs'⟩ := ensureIoBuf_run canMap s d.len w
  refine ⟨s'.fill (readBytes w.mem d.addr.toNat d.len.toNat), hb, ?_⟩
  unfold writeData
  rw [Prog.run_bind_ok hs', Prog.run_bind_ok (dmaReadInto_run canMap w d.addr d.len)]
  simp only [blkdBlockWrite, show ∀ data, (s'.fill data).backend = s.backend from fun _ => hb]
  by_cases ho : s.backend.readonly || s.backend.outside o d.len
  · simp [ho]
  · simp [ho, pwrite, Prog.perform, Ram.answer, BlkdState.fill_take]

/-- The loop body on a data descriptor. -/
theorem dataStep_run (direct : Bool) (req : ReqType) (s : BlkdState) (d : VirtioDesc) (o : UInt64)
    (st : BlkStatus) (w : Ram) :
    ∃ s', s'.backend = s.backend ∧
      (dataStep direct req s d o st).run (Ram.answer canMap) w =
        (.ok (s', some (nextStatus s.backend req o st d)), dataWorld s.backend req o st d w) := by
  cases req with
  | tIn =>
    by_cases hw : d.writable
    · by_cases hst : st = .ok
      · obtain ⟨s', hb, hs'⟩ := readData_run canMap direct s d o w
        refine ⟨s', hb, ?_⟩
        by_cases ho : s.backend.outside o d.len
        · rw [if_pos ho] at hs'
          simp only [dataStep, hw, hst, if_true, Bool.not_true, Bool.false_eq_true, if_false]
          rw [Prog.run_bind_ok hs']
          simp [nextStatus, dataWorld, hw, ho]
        · rw [if_neg ho] at hs'
          simp only [dataStep, hw, hst, if_true, Bool.not_true, Bool.false_eq_true, if_false]
          rw [Prog.run_bind_ok hs']
          simp [nextStatus, dataWorld, hw, ho]
      · exact ⟨s, rfl, by simp [dataStep, nextStatus, dataWorld, hw, hst]⟩
    · exact ⟨s, rfl, by simp [dataStep, nextStatus, dataWorld, hw]⟩
  | tOut =>
    by_cases hw : d.writable
    · exact ⟨s, rfl, by simp [dataStep, nextStatus, dataWorld, hw]⟩
    · by_cases hst : st = .ok
      · obtain ⟨s', hb, hs'⟩ := writeData_run canMap s d o w
        refine ⟨s', hb, ?_⟩
        simp only [dataStep, hw, hst, if_true, Bool.false_eq_true, if_false, hs']
        by_cases ho : s.backend.readonly || s.backend.outside o d.len
        · simp [nextStatus, dataWorld, hw, ho]
        · simp [nextStatus, dataWorld, hw, ho]
      · exact ⟨s, rfl, by simp [dataStep, nextStatus, dataWorld, hw, hst]⟩
  | tFlush => exact ⟨s, rfl, by simp [dataStep, nextStatus, dataWorld]⟩
  | other => exact ⟨s, rfl, by simp [dataStep, nextStatus, dataWorld]⟩

end

/-- A data descriptor changes guest memory in its own buffer only. -/
theorem dataWorld_mem_out {b : BlkdBlockBackend} {req : ReqType} {o : UInt64} {st : BlkStatus}
    {d : VirtioDesc} {w : Ram} {x : Nat} (hx : x ∉ d.buf) :
    (dataWorld b req o st d w).mem x = w.mem x := by
  unfold dataWorld
  split
  · cases req with
    | tIn =>
      refine writeBytes_out ?_
      simp only [VirtioDesc.buf, Region.mem_def, not_and_or] at hx
      rw [readBytes_length]
      omega
    | _ => rfl
  · rfl

/-! ## The descriptor loop -/

/-- The loop over data descriptors without the calls: status, memory and
image, and `data_len`. -/
def runData (b : BlkdBlockBackend) (req : ReqType) (offset : UInt64) :
    List VirtioDesc → BlkStatus → Ram → UInt32 → BlkStatus × Ram × UInt32
  | [], st, w, dataLen => (st, w, dataLen)
  | d :: ds, st, w, dataLen =>
    runData b req offset ds (nextStatus b req (offset + dataLen.toUInt64) st d)
      (dataWorld b req (offset + dataLen.toUInt64) st d w) (addLen req dataLen d.len)

theorem virtioReadDesc_run (canMap : UInt64 → UInt32 → Bool) (q : VirtioQueue) (i : UInt16)
    (w : Ram) :
    (virtioReadDesc q i).run (Ram.answer canMap) w = (.ok (some (descAt w.mem q i)), w) := rfl

/-- The loop of the code finds the chain and computes `runData` over it. -/
theorem chainLoop_run (canMap : UInt64 → UInt32 → Bool) (direct : Bool) (q : VirtioQueue)
    (req : ReqType) (offset : UInt64) (ds : List VirtioDesc) (last : VirtioDesc) (fuel : Nat)
    (s : BlkdState) (i : UInt16) (seen : UInt32) (st : BlkStatus) (dataLen : UInt32) (w : Ram)
    (hc : ChainAt w.mem q i ds last)
    (hsep : ∀ j ∈ chainPath i ds, ∀ d ∈ ds, (entry q j).Apart d.buf)
    (hnum : seen.toNat + ds.length + 1 ≤ q.num.toNat) (hfuel : ds.length < fuel) :
    ∃ s', s'.backend = s.backend ∧
      (chainLoop direct q req offset fuel s i seen st dataLen).run (Ram.answer canMap) w =
        (.ok (s', some (last, (runData s.backend req offset ds st w dataLen).1,
          (runData s.backend req offset ds st w dataLen).2.2)),
          (runData s.backend req offset ds st w dataLen).2.1) := by
  induction ds generalizing fuel s i seen st dataLen w with
  | nil =>
    obtain ⟨hd, hl⟩ := hc
    obtain ⟨fuel, rfl⟩ : ∃ k, fuel = k + 1 := ⟨fuel - 1, by omega⟩
    have hseen : ¬q.num < seen + 1 := by
      rw [UInt32.lt_iff_toNat_lt, UInt32.toNat_add]
      have := q.num.toNat_lt
      simp only [List.length_nil] at hnum
      simp; omega
    refine ⟨s, rfl, ?_⟩
    unfold chainLoop
    rw [if_neg hseen, Prog.run_bind_ok (virtioReadDesc_run canMap q i w), hd]
    simp [hl, runData]
  | cons d ds ih =>
    obtain ⟨hd, hn, hc⟩ := hc
    obtain ⟨fuel, rfl⟩ : ∃ k, fuel = k + 1 := ⟨fuel - 1, by omega⟩
    have hlt := q.num.toNat_lt
    simp only [List.length_cons] at hnum hfuel
    have hseen1 : (seen + 1).toNat = seen.toNat + 1 := by
      rw [UInt32.toNat_add]
      simp; omega
    have hseen : ¬q.num < seen + 1 := by
      rw [UInt32.lt_iff_toNat_lt, hseen1]
      omega
    obtain ⟨s₁, hb₁, hs₁⟩ := dataStep_run canMap direct req s d
      (offset + dataLen.toUInt64) st w
    -- the transfer misses the entries that are still to be read
    have hc' : ChainAt (dataWorld s.backend req (offset + dataLen.toUInt64) st d w).mem q d.next ds
        last := by
      refine hc.congr fun j hj x hx => dataWorld_mem_out ?_
      exact hsep j (List.mem_cons_of_mem _ hj) d List.mem_cons_self x hx
    obtain ⟨s', hb', hs'⟩ := ih fuel s₁ d.next (seen + 1)
      (nextStatus s.backend req (offset + dataLen.toUInt64) st d) (addLen req dataLen d.len) _ hc'
      (fun j hj e he => hsep j (List.mem_cons_of_mem _ hj) e (List.mem_cons_of_mem _ he))
      (by rw [hseen1]; omega) (by omega)
    refine ⟨s', hb'.trans hb₁, ?_⟩
    unfold chainLoop
    rw [if_neg hseen, Prog.run_bind_ok (virtioReadDesc_run canMap q i w), hd]
    simp only [hn, Bool.not_true, Bool.false_eq_true, if_false]
    rw [Prog.run_bind_ok hs₁]
    rw [hb₁] at hs'
    exact hs'

/-! ## The loop as one transfer -/

/-- The bytes of the data buffers, in chain order. -/
def gather (m : Mem) (ds : List VirtioDesc) : Bytes :=
  ds.flatMap fun d => readBytes m d.addr.toNat d.len.toNat

@[simp] theorem gather_cons (m : Mem) (d : VirtioDesc) (ds : List VirtioDesc) :
    gather m (d :: ds) = readBytes m d.addr.toNat d.len.toNat ++ gather m ds := rfl

theorem gather_congr {m m' : Mem} {ds : List VirtioDesc} (h : ∀ d ∈ ds, ∀ x ∈ d.buf, m x = m' x) :
    gather m ds = gather m' ds := by
  induction ds with
  | nil => rfl
  | cons d ds ih =>
    have h1 : readBytes m d.addr.toNat d.len.toNat = readBytes m' d.addr.toNat d.len.toNat :=
      readBytes_congr fun x h1 h2 => h d List.mem_cons_self x ⟨h1, h2⟩
    rw [gather_cons, gather_cons, h1, ih fun e he => h e (List.mem_cons_of_mem _ he)]

/-- The descriptor goes the way the request needs. -/
def permits (b : BlkdBlockBackend) (req : ReqType) (d : VirtioDesc) : Bool :=
  match req with
  | .tIn => d.writable
  | .tOut => !d.writable && !b.readonly
  | _ => true

theorem outside_eq_false {b : BlkdBlockBackend} {o : UInt64} {len : UInt32}
    (hb : b.imageLen ≤ int64Max) :
    b.outside o len = false ↔ o.toNat + len.toNat ≤ b.imageLen.toNat := by
  have hb' : b.imageLen.toNat ≤ 2 ^ 63 - 1 := UInt64.le_iff_toNat_le.1 hb
  rw [outside_false]
  omega

theorem nextStatus_eq_ok {b : BlkdBlockBackend} {req : ReqType} (hreq : req = .tIn ∨ req = .tOut)
    (o : UInt64) (st : BlkStatus) (d : VirtioDesc) (hb : b.imageLen ≤ int64Max) :
    nextStatus b req o st d = .ok ↔
      st = .ok ∧ permits b req d = true ∧ o.toNat + d.len.toNat ≤ b.imageLen.toNat := by
  rw [← outside_eq_false hb]
  rcases hreq with rfl | rfl
  · cases hw : d.writable <;> cases st <;> cases ho : b.outside o d.len <;>
      simp [nextStatus, permits, hw, ho]
  · cases hw : d.writable <;> cases st <;> cases ho : b.outside o d.len <;>
      cases hr : b.readonly <;> simp [nextStatus, permits, hw, ho, hr]

theorem nextStatus_ne_unsupp {b : BlkdBlockBackend} {req : ReqType} {o : UInt64} {st : BlkStatus}
    {d : VirtioDesc} (h : st ≠ .unsupp) : nextStatus b req o st d ≠ .unsupp := by
  unfold nextStatus
  cases req with
  | tIn =>
    dsimp only
    split
    · decide
    split
    · split <;> decide
    · exact h
  | tOut =>
    dsimp only
    split
    · decide
    split
    · split <;> decide
    · exact h
  | tFlush => exact h
  | other => exact h

/-- A flush or an unknown request ignores its data descriptors. -/
theorem runData_other {b : BlkdBlockBackend} {req : ReqType} (hreq : req = .tFlush ∨ req = .other)
    (offset : UInt64) (ds : List VirtioDesc) (st : BlkStatus) (w : Ram) (dataLen : UInt32) :
    runData b req offset ds st w dataLen = (st, w, dataLen) := by
  induction ds generalizing st w dataLen with
  | nil => rfl
  | cons d ds ih =>
    have h1 : nextStatus b req (offset + dataLen.toUInt64) st d = st := by
      rcases hreq with rfl | rfl <;> rfl
    have h2 : dataWorld b req (offset + dataLen.toUInt64) st d w = w := by
      unfold dataWorld
      rcases hreq with rfl | rfl <;> split <;> rfl
    have h3 : addLen req dataLen d.len = dataLen := by rcases hreq with rfl | rfl <;> rfl
    rw [runData, h1, h2, h3]
    exact ih st w dataLen

theorem runData_ne_unsupp {b : BlkdBlockBackend} {req : ReqType} {offset : UInt64}
    (ds : List VirtioDesc) {st : BlkStatus} (h : st ≠ .unsupp) (w : Ram) (dataLen : UInt32) :
    (runData b req offset ds st w dataLen).1 ≠ .unsupp := by
  induction ds generalizing st w dataLen with
  | nil => exact h
  | cons d ds ih => exact ih (nextStatus_ne_unsupp h) _ _

section
variable {b : BlkdBlockBackend} {req : ReqType} {offset : UInt64}

/-- `data_len` does not wrap within the advertised limits. -/
theorem addLen_toNat (hreq : req = .tIn ∨ req = .tOut) (dataLen len : UInt32)
    (h : dataLen.toNat + len.toNat < 2 ^ 32) :
    (addLen req dataLen len).toNat = dataLen.toNat + len.toNat := by
  rw [addLen_toNat_mod hreq, Nat.mod_eq_of_lt h]

/-- The offset of the next transfer does not wrap: it is the request's
offset, or it is inside the image. -/
def Reached (b : BlkdBlockBackend) (offset : UInt64) (dataLen : UInt32) : Prop :=
  dataLen = 0 ∨ offset.toNat + dataLen.toNat ≤ b.imageLen.toNat

theorem Reached.toNat (hb : b.imageLen ≤ int64Max) {dataLen : UInt32} (h : Reached b offset dataLen) :
    (offset + dataLen.toUInt64).toNat = offset.toNat + dataLen.toNat := by
  have hb' : b.imageLen.toNat ≤ int64Max.toNat := UInt64.le_iff_toNat_le.1 hb
  have hm : int64Max.toNat = 2 ^ 63 - 1 := rfl
  rcases h with rfl | h
  · simp
  · rw [UInt64.toNat_add, UInt32.toNat_toUInt64]
    omega

/-- The loop ends with OK iff the whole range is inside the image and every
descriptor goes the right way. -/
theorem runData_ok (hreq : req = .tIn ∨ req = .tOut) (hb : b.imageLen ≤ int64Max)
    (ds : List VirtioDesc) (st : BlkStatus) (w : Ram) (dataLen : UInt32)
    (hlen : dataLen.toNat + total ds < 2 ^ 32) (hr : st = .ok → Reached b offset dataLen) :
    (runData b req offset ds st w dataLen).1 = .ok ↔
      st = .ok ∧ (∀ d ∈ ds, permits b req d = true) ∧
        (ds ≠ [] → offset.toNat + dataLen.toNat + total ds ≤ b.imageLen.toNat) := by
  induction ds generalizing st w dataLen with
  | nil => simp [runData]
  | cons d ds ih =>
    simp only [total_cons] at hlen ⊢
    have hl := addLen_toNat hreq dataLen d.len (by omega)
    have hns := nextStatus_eq_ok hreq (offset + dataLen.toUInt64) st d hb
    have hr' : nextStatus b req (offset + dataLen.toUInt64) st d = .ok →
        Reached b offset (addLen req dataLen d.len) := by
      intro h
      obtain ⟨hst, -, hin⟩ := hns.1 h
      rw [(hr hst).toNat hb] at hin
      exact .inr (by rw [hl]; omega)
    rw [runData, ih _ _ _ (by omega) hr', hns, hl]
    constructor
    · intro h
      obtain ⟨⟨hst, hp, hin⟩, hps, htot⟩ := h
      rw [(hr hst).toNat hb] at hin
      refine ⟨hst, ?_, fun _ => ?_⟩
      · intro e he
        rcases List.mem_cons.1 he with rfl | he
        · exact hp
        · exact hps e he
      · by_cases hds : ds = []
        · subst hds
          simp only [total]
          omega
        · have := htot hds
          omega
    · intro h
      obtain ⟨hst, hps, htot⟩ := h
      have htot := htot (by simp)
      refine ⟨⟨hst, hps d List.mem_cons_self, ?_⟩, fun e he => hps e (List.mem_cons_of_mem _ he),
        fun _ => by omega⟩
      rw [(hr hst).toNat hb]
      omega

theorem runData_mem_out (ds : List VirtioDesc) (st : BlkStatus) (w : Ram) (dataLen : UInt32)
    {x : Nat} (hx : ∀ d ∈ ds, x ∉ d.buf) :
    (runData b req offset ds st w dataLen).2.1.mem x = w.mem x := by
  induction ds generalizing st w dataLen with
  | nil => rfl
  | cons d ds ih =>
    rw [runData, ih _ _ _ fun e he => hx e (List.mem_cons_of_mem _ he)]
    exact dataWorld_mem_out (hx d List.mem_cons_self)

theorem dataWorld_image (hreq : req ≠ .tOut) {o : UInt64} {st : BlkStatus} {d : VirtioDesc}
    {w : Ram} :
    (dataWorld b req o st d w).image = w.image := by
  unfold dataWorld
  split
  · cases req with
    | tOut => exact absurd rfl hreq
    | _ => rfl
  · rfl

theorem dataWorld_mem (hreq : req ≠ .tIn) {o : UInt64} {st : BlkStatus} {d : VirtioDesc} {w : Ram} :
    (dataWorld b req o st d w).mem = w.mem := by
  unfold dataWorld
  split
  · cases req with
    | tIn => exact absurd rfl hreq
    | _ => rfl
  · rfl

/-- Only an OUT request changes the image. -/
theorem runData_image (hreq : req ≠ .tOut) (ds : List VirtioDesc) (st : BlkStatus) (w : Ram)
    (dataLen : UInt32) : (runData b req offset ds st w dataLen).2.1.image = w.image := by
  induction ds generalizing st w dataLen with
  | nil => rfl
  | cons d ds ih => rw [runData, ih, dataWorld_image hreq]

/-- Only an IN request changes guest memory. -/
theorem runData_mem (hreq : req ≠ .tIn) (ds : List VirtioDesc) (st : BlkStatus) (w : Ram)
    (dataLen : UInt32) : (runData b req offset ds st w dataLen).2.1.mem = w.mem := by
  induction ds generalizing st w dataLen with
  | nil => rfl
  | cons d ds ih => rw [runData, ih, dataWorld_mem hreq]

/-- An IN request that ends with OK: the buffers hold one range of the image. -/
theorem runData_in (hb : b.imageLen ≤ int64Max) (ds : List VirtioDesc) (st : BlkStatus) (w : Ram)
    (dataLen : UInt32) (hlen : dataLen.toNat + total ds < 2 ^ 32)
    (hr : st = .ok → Reached b offset dataLen)
    (hpw : ds.Pairwise fun d e => d.buf.Apart e.buf)
    (hok : (runData b .tIn offset ds st w dataLen).1 = .ok) :
    gather (runData b .tIn offset ds st w dataLen).2.1.mem ds =
      readBytes w.image (offset.toNat + dataLen.toNat) (total ds) := by
  induction ds generalizing st w dataLen with
  | nil => rfl
  | cons d ds ih =>
    obtain ⟨hd, hpw⟩ := List.pairwise_cons.1 hpw
    obtain ⟨hst, hps, htot⟩ := (runData_ok (.inl rfl) hb (d :: ds) st w dataLen hlen hr).1 hok
    have htot := htot (by simp)
    simp only [total_cons] at hlen htot ⊢
    have hl : (addLen .tIn dataLen d.len).toNat = dataLen.toNat + d.len.toNat :=
      addLen_toNat (.inl rfl) dataLen d.len (by omega)
    have ho := (hr hst).toNat hb
    have hns : nextStatus b .tIn (offset + dataLen.toUInt64) st d = .ok :=
      (nextStatus_eq_ok (.inl rfl) _ _ _ hb).2 ⟨hst, hps d List.mem_cons_self, by rw [ho]; omega⟩
    have hw : dataWorld b .tIn (offset + dataLen.toUInt64) st d w = { w with
        mem := writeBytes w.mem d.addr.toNat
          (readBytes w.image (offset.toNat + dataLen.toNat) d.len.toNat) } := by
      simp only [dataWorld, hst, true_and]
      rw [hst] at hns
      rw [if_pos hns, ho]
    rw [runData, hw] at hok ⊢
    rw [gather_cons, ih _ _ _ (by omega) (fun _ => .inr (by rw [hl]; omega)) hpw hok, hl]
    -- later descriptors do not touch the buffer just filled
    have hkeep : readBytes (runData b .tIn offset ds
        (nextStatus b .tIn (offset + dataLen.toUInt64) st d) { w with
          mem := writeBytes w.mem d.addr.toNat
            (readBytes w.image (offset.toNat + dataLen.toNat) d.len.toNat) }
        (addLen .tIn dataLen d.len)).2.1.mem d.addr.toNat d.len.toNat =
        readBytes w.image (offset.toNat + dataLen.toNat) d.len.toNat := by
      have hback := readBytes_writeBytes w.mem d.addr.toNat
        (readBytes w.image (offset.toNat + dataLen.toNat) d.len.toNat)
      rw [readBytes_length] at hback
      rw [← hback]
      apply readBytes_congr
      intro x h1 h2
      rw [hback]
      exact runData_mem_out ds _ _ _ fun e he => hd e he x ⟨h1, h2⟩
    rw [hkeep, readBytes_add]
    congr 2
    omega

/-- An OUT request that ends with OK: one range of the image is the buffers. -/
theorem runData_out (hb : b.imageLen ≤ int64Max) (ds : List VirtioDesc) (st : BlkStatus) (w : Ram)
    (dataLen : UInt32) (hlen : dataLen.toNat + total ds < 2 ^ 32)
    (hr : st = .ok → Reached b offset dataLen)
    (hok : (runData b .tOut offset ds st w dataLen).1 = .ok) :
    (runData b .tOut offset ds st w dataLen).2.1.image =
      writeBytes w.image (offset.toNat + dataLen.toNat) (gather w.mem ds) := by
  induction ds generalizing st w dataLen with
  | nil => exact (writeBytes_nil _ _).symm
  | cons d ds ih =>
    obtain ⟨hst, hps, htot⟩ := (runData_ok (.inr rfl) hb (d :: ds) st w dataLen hlen hr).1 hok
    have htot := htot (by simp)
    simp only [total_cons] at hlen htot
    have hl : (addLen .tOut dataLen d.len).toNat = dataLen.toNat + d.len.toNat :=
      addLen_toNat (.inr rfl) dataLen d.len (by omega)
    have ho := (hr hst).toNat hb
    have hns : nextStatus b .tOut (offset + dataLen.toUInt64) st d = .ok :=
      (nextStatus_eq_ok (.inr rfl) _ _ _ hb).2 ⟨hst, hps d List.mem_cons_self, by rw [ho]; omega⟩
    have hw : dataWorld b .tOut (offset + dataLen.toUInt64) st d w = { w with
        image := writeBytes w.image (offset.toNat + dataLen.toNat)
          (readBytes w.mem d.addr.toNat d.len.toNat) } := by
      simp only [dataWorld, hst, true_and]
      rw [hst] at hns
      rw [if_pos hns, ho]
    rw [runData, hw] at hok ⊢
    rw [ih _ _ _ (by omega) (fun _ => .inr (by rw [hl]; omega)) hok, hl, gather_cons,
      writeBytes_append, readBytes_length]
    congr 1
    omega

end

/-! ## The request -/

/-- Header, data buffers and status byte of a request. -/
def reqBufs (h : VirtioDesc) (ds : List VirtioDesc) (last : VirtioDesc) : List Region :=
  ⟨h.addr.toNat, 16⟩ :: ds.map VirtioDesc.buf ++ [⟨last.addr.toNat, 1⟩]

/-- A request chain `h → ds → last` within the advertised limits: its table
entries and its buffers are pairwise apart. -/
structure ReqChain (m : Mem) (q : VirtioQueue) (head : UInt16) (h : VirtioDesc)
    (ds : List VirtioDesc) (last : VirtioDesc) : Prop where
  chain : ChainAt m q head (h :: ds) last
  segMax : ds.length ≤ blkdMaxSegments.toNat
  sizeMax : ∀ d ∈ ds, d.len ≤ blkdMaxSegSize
  queueMax : ds.length + 1 ≤ q.num.toNat
  bufs : (reqBufs h ds last).Pairwise Region.Apart
  table : ∀ j ∈ chainPath head (h :: ds), ∀ r ∈ reqBufs h ds last, (entry q j).Apart r

/-- The request header in guest memory. -/
def reqHeader (m : Mem) (h : VirtioDesc) : Bytes := readBytes m h.addr.toNat 16

def reqType (m : Mem) (h : VirtioDesc) : ReqType := ReqType.ofWord (virtioLoadLe32 (reqHeader m h))

def reqSector (m : Mem) (h : VirtioDesc) : Nat := (virtioLoadLe64 ((reqHeader m h).drop 8)).toNat

/-- What a request needs to succeed. -/
structure ReqOk (b : BlkdBlockBackend) (req : ReqType) (sector : Nat) (ds : List VirtioDesc) :
    Prop where
  known : req ≠ .other
  fits : sector * 512 < 2 ^ 64
  writable : req = .tIn → ∀ d ∈ ds, d.writable = true
  readable : req = .tOut → ∀ d ∈ ds, d.writable = false
  inside : req = .tIn ∨ req = .tOut → ds ≠ [] → sector * 512 + total ds ≤ b.imageLen.toNat
  writes : req = .tOut → ds ≠ [] → b.readonly = false

theorem total_le (ds : List VirtioDesc) (h : ∀ d ∈ ds, d.len ≤ blkdMaxSegSize) :
    total ds ≤ ds.length * 262144 := by
  induction ds with
  | nil => simp [total]
  | cons d ds ih =>
    have h1 : d.len.toNat ≤ 262144 := UInt32.le_iff_toNat_le.1 (h d List.mem_cons_self)
    have h2 := ih fun e he => h e (List.mem_cons_of_mem _ he)
    simp only [total_cons, List.length_cons]
    omega

theorem ReqChain.total_lt {m : Mem} {q : VirtioQueue} {head : UInt16} {h : VirtioDesc}
    {ds : List VirtioDesc} {last : VirtioDesc} (hc : ReqChain m q head h ds last) :
    total ds < 2 ^ 32 := by
  have h1 := total_le ds hc.sizeMax
  have h2 : ds.length ≤ 128 := hc.segMax
  omega

theorem startStatus_eq_unsupp {req : ReqType} {sector : UInt64} :
    startStatus req sector = .unsupp ↔ req = .other := by
  unfold startStatus
  by_cases hr : req = .other
  · simp [hr]
  · rw [if_neg hr]
    simp only [hr, iff_false]
    split <;> decide

/-- The status the loop ends with. -/
theorem runData_reqOk {b : BlkdBlockBackend} (req : ReqType) (sector : UInt64)
    {ds : List VirtioDesc} (hb : b.imageLen ≤ int64Max) (hlen : total ds < 2 ^ 32) (w : Ram) :
    (runData b req (startOffset sector) ds (startStatus req sector) w 0).1 = .ok ↔
      ReqOk b req sector.toNat ds := by
  by_cases hio : req = .tIn ∨ req = .tOut
  · rw [runData_ok hio hb ds _ w 0 (by simpa using hlen) fun _ => .inl rfl, startStatus_eq_ok]
    constructor
    · intro h
      obtain ⟨⟨hk, hf⟩, hp, hin⟩ := h
      rw [startOffset_toNat hf] at hin
      refine ⟨hk, hf, ?_, ?_, fun _ hne => by simpa using hin hne, ?_⟩
      · intro e d hd
        subst e
        exact hp d hd
      · intro e d hd
        subst e
        have := hp d hd
        simp only [permits, Bool.and_eq_true, Bool.not_eq_true'] at this
        exact this.1
      · intro e hne
        subst e
        obtain ⟨d, hd⟩ := List.exists_mem_of_ne_nil ds hne
        have := hp d hd
        simp only [permits, Bool.and_eq_true, Bool.not_eq_true'] at this
        exact this.2
    · intro h
      refine ⟨⟨h.known, h.fits⟩, ?_, ?_⟩
      · intro d hd
        rcases hio with rfl | rfl
        · exact h.writable rfl d hd
        · simp [permits, h.readable rfl d hd, h.writes rfl (List.ne_nil_of_mem hd)]
      · intro hne
        rw [startOffset_toNat h.fits]
        simpa using h.inside hio hne
  · simp only [not_or] at hio
    have hreq : req = .tFlush ∨ req = .other := by cases req <;> simp_all
    rw [runData_other hreq, startStatus_eq_ok]
    constructor
    · intro h
      exact ⟨h.1, h.2, fun e => absurd e hio.1, fun e => absurd e hio.2,
        fun e => absurd e (by simp [hio]), fun e => absurd e hio.2⟩
    · intro h
      exact ⟨h.known, h.fits⟩

theorem runData_unsupp (b : BlkdBlockBackend) (req : ReqType) (sector : UInt64)
    (ds : List VirtioDesc) (w : Ram) :
    (runData b req (startOffset sector) ds (startStatus req sector) w 0).1 = .unsupp ↔
      req = .other := by
  constructor
  · intro h
    by_cases hr : req = .other
    · exact hr
    · have hs : startStatus req sector ≠ .unsupp := fun e => hr (startStatus_eq_unsupp.1 e)
      exact absurd h (runData_ne_unsupp ds hs w 0)
  · intro h
    rw [runData_other (.inr h)]
    exact startStatus_eq_unsupp.2 h

theorem finishChain_run {canMap : UInt64 → UInt32 → Bool} (req : ReqType) (s : BlkdState)
    (last : VirtioDesc) (st : BlkStatus) (dataLen : UInt32) (w : Ram) :
    (finishChain req s last st dataLen).run (Ram.answer canMap) w =
      (.ok (s, some (if req = .tIn then dataLen + 1 else 1)),
        { w with mem := writeBytes w.mem last.addr.toNat [st.code] }) := by
  have hf : (blkdBlockFlush req).run (Ram.answer canMap) w = (.ok true, w) := by
    unfold blkdBlockFlush
    split <;> rfl
  unfold finishChain
  rw [Prog.run_bind_ok hf]
  simp only [if_true]
  rw [Prog.run_bind_ok (dmaWrite_run canMap w last.addr [st.code])]
  rfl

/-- `process_chain` on a request chain: the loop's result, then the status byte. -/
theorem processChain_run (canMap : UInt64 → UInt32 → Bool) (direct : Bool) {fuel : Nat}
    {d : BlkdVirtioDevice} {head : UInt16} {w : Ram} {h : VirtioDesc} {ds : List VirtioDesc}
    {last : VirtioDesc} (hc : ReqChain w.mem (d.queue 0) head h ds last) (hfuel : ds.length < fuel)
    {req : ReqType} {sector : UInt64} (hreq : req = reqType w.mem h)
    (hsector : sector = virtioLoadLe64 ((reqHeader w.mem h).drop 8)) {st : BlkStatus} {w₁ : Ram}
    {dataLen : UInt32} (hr : runData d.priv.backend req (startOffset sector) ds
      (startStatus req sector) w 0 = (st, w₁, dataLen)) :
    ∃ d', d'.vdev = d.vdev ∧ d'.priv.backend = d.priv.backend ∧
      (processChain direct fuel d head).run (Ram.answer canMap) w =
        (.ok (d', some (if req = .tIn then dataLen + 1 else 1)),
          { w₁ with mem := writeBytes w₁.mem last.addr.toNat [st.code] }) := by
  obtain ⟨hh, hn, hch⟩ := hc.chain
  have hsep : ∀ j ∈ chainPath h.next ds, ∀ e ∈ ds, (entry (d.queue 0) j).Apart e.buf := by
    intro j hj e he
    refine hc.table j (List.mem_cons_of_mem _ hj) e.buf ?_
    simp only [reqBufs, List.mem_cons, List.cons_append, List.mem_append]
    exact .inr (.inl (List.mem_map_of_mem he))
  obtain ⟨s', hb', hs'⟩ := chainLoop_run canMap direct (d.queue 0) req
    (startOffset sector) ds last fuel d.priv h.next 0 (startStatus req sector) 0 w hch hsep
    (by have := hc.queueMax; simpa using this) hfuel
  rw [hr] at hs'
  refine ⟨{ d with priv := s' }, rfl, hb', ?_⟩
  unfold processChain
  dsimp only
  rw [Prog.run_bind_ok (virtioReadDesc_run canMap (d.queue 0) head w), hh]
  simp only [hn, Bool.not_true, Bool.false_eq_true, if_false]
  rw [Prog.run_bind_ok (dmaReadInto_run canMap w h.addr 16)]
  subst hreq hsector
  refine (Prog.run_bind_ok hs').trans ?_
  exact Prog.run_bind_ok (finishChain_run (reqType w.mem h) s' last st dataLen w₁)

theorem code_inj {s t : BlkStatus} : s.code = t.code ↔ s = t := by
  cases s <;> cases t <;> decide

/-- **A block request.** On a request chain within the advertised limits,
with every call succeeding and any answers of `fabric_dma_map`,
`process_chain` returns true. The status byte is OK exactly for a known
type, a sector whose byte offset fits, descriptors of the right direction
and, when there is data, a range inside the image (and a writable image for
OUT); UNSUPP exactly for an unknown type; IOERR otherwise. An OK IN leaves
the buffers, in chain order, holding that range of the image; an OK OUT
replaces exactly that range by the buffers. Nothing else changes. -/
theorem process_chain_spec (canMap : UInt64 → UInt32 → Bool) (direct : Bool) (fuel : Nat)
    (d : BlkdVirtioDevice) (head : UInt16) (w : Ram) (h : VirtioDesc) (ds : List VirtioDesc)
    (last : VirtioDesc) (hc : ReqChain w.mem (d.queue 0) head h ds last)
    (himg : d.priv.backend.imageLen ≤ int64Max) (hfuel : ds.length < fuel) :
    ∃ d' usedLen w', (processChain direct fuel d head).run (Ram.answer canMap) w =
        (.ok (d', some usedLen), w') ∧
      d'.vdev = d.vdev ∧ d'.priv.backend = d.priv.backend ∧
      (w'.mem last.addr.toNat = BlkStatus.ok.code ↔
        ReqOk d.priv.backend (reqType w.mem h) (reqSector w.mem h) ds) ∧
      (w'.mem last.addr.toNat = BlkStatus.unsupp.code ↔ reqType w.mem h = .other) ∧
      (w'.mem last.addr.toNat = BlkStatus.ioerr.code ↔ reqType w.mem h ≠ .other ∧
        ¬ReqOk d.priv.backend (reqType w.mem h) (reqSector w.mem h) ds) ∧
      (ReqOk d.priv.backend (reqType w.mem h) (reqSector w.mem h) ds → reqType w.mem h = .tIn →
        gather w'.mem ds = readBytes w.image (reqSector w.mem h * 512) (total ds)) ∧
      (ReqOk d.priv.backend (reqType w.mem h) (reqSector w.mem h) ds → reqType w.mem h = .tOut →
        w'.image = writeBytes w.image (reqSector w.mem h * 512) (gather w.mem ds)) ∧
      (reqType w.mem h ≠ .tOut → w'.image = w.image) ∧
      (∀ x, x ≠ last.addr.toNat → (reqType w.mem h = .tIn → ∀ e ∈ ds, x ∉ e.buf) →
        w'.mem x = w.mem x) := by
  generalize hb : d.priv.backend = b at himg
  generalize hsec : virtioLoadLe64 ((reqHeader w.mem h).drop 8) = sector
  have hsec' : reqSector w.mem h = sector.toNat := congrArg UInt64.toNat hsec
  rw [hsec']
  generalize hreq : reqType w.mem h = req
  obtain ⟨st, w₁, dataLen, hr⟩ : ∃ st w₁ dataLen,
      runData b req (startOffset sector) ds (startStatus req sector) w 0 = (st, w₁, dataLen) :=
    ⟨_, _, _, rfl⟩
  rw [← hb] at hr
  obtain ⟨d', hv, hbk, hrun⟩ :=
    processChain_run canMap direct hc hfuel hreq.symm hsec.symm hr
  rw [hb] at hr
  have hok := runData_reqOk req sector himg hc.total_lt w
  have hun := runData_unsupp b req sector ds w
  have hlen : (0 : UInt32).toNat + total ds < 2 ^ 32 := by simpa using hc.total_lt
  have hfit : ReqOk b req sector.toNat ds →
      (startOffset sector).toNat + (0 : UInt32).toNat = sector.toNat * 512 :=
    fun h => (Nat.add_zero _).trans (startOffset_toNat h.fits)
  have hdata : ds.Pairwise fun d e => d.buf.Apart e.buf := by
    have h1 := (List.pairwise_append.1 hc.bufs).1
    exact List.pairwise_map.1 (List.pairwise_cons.1 h1).2
  have hlast : ∀ e ∈ ds, e.buf.Apart ⟨last.addr.toNat, 1⟩ := fun e he =>
    (List.pairwise_append.1 hc.bufs).2.2 _ (List.mem_cons_of_mem _ (List.mem_map_of_mem he)) _
      List.mem_cons_self
  rw [hr] at hok hun
  dsimp only at hok hun
  have hbyte : (writeBytes w₁.mem last.addr.toNat [st.code]) last.addr.toNat = st.code := by
    simp [writeBytes]
  refine ⟨d', _, _, hrun, hv, hbk.trans hb, ?_, ?_, ?_, ?_, ?_, ?_, ?_⟩
  · simp only [hbyte, code_inj, hok]
  · simp only [hbyte, code_inj, hun]
  · simp only [hbyte, code_inj]
    rw [← hok, Ne, ← hun]
    cases st <;> simp
  · intro h e
    subst e
    have hin := runData_in himg ds _ w 0 hlen (fun _ => .inl rfl) hdata (by rw [hr]; exact hok.2 h)
    rw [hfit h, hr] at hin
    rw [← hin]
    exact gather_congr fun e he x hx => writeBytes_apart (hlast e he) hx
  · intro h e
    subst e
    have hout := runData_out himg ds _ w 0 hlen (fun _ => .inl rfl) (by rw [hr]; exact hok.2 h)
    rw [hfit h, hr] at hout
    exact hout
  · intro h
    have himage : (runData b req (startOffset sector) ds (startStatus req sector) w 0).2.1.image =
        w.image := runData_image h ds _ w 0
    rw [hr] at himage
    exact himage
  · intro x hx hbuf
    have hwr : (writeBytes w₁.mem last.addr.toNat [st.code]) x = w₁.mem x :=
      writeBytes_out (by simp only [List.length_singleton]; omega)
    have hmem : w₁.mem x = w.mem x := by
      by_cases hi : req = .tIn
      · have hout : (runData b req (startOffset sector) ds (startStatus req sector) w 0).2.1.mem x =
            w.mem x := runData_mem_out ds _ w 0 (hbuf hi)
        rwa [hr] at hout
      · have hsame : (runData b req (startOffset sector) ds (startStatus req sector) w 0).2.1.mem =
            w.mem := runData_mem hi ds _ w 0
        rw [hr] at hsame
        rw [hsame]
    exact hwr.trans hmem

/-- An image whose byte at `x` is `x` mod 256, and a chain 0 → 1 → 2 that
reads four bytes of sector 1 into 0x6000, with the status byte at 0x5000. -/
def readPosted : Ram where
  mem := memOf [(0x1001, 0x40), (0x1008, 16), (0x100c, 1), (0x100e, 1), (0x1011, 0x60), (0x1018, 4),
    (0x101c, 3), (0x101e, 2), (0x1021, 0x50), (0x1028, 1), (0x102c, 2), (0x4008, 1)]
  image := UInt8.ofNat
  line := false
  output := []

def readDevice : BlkdVirtioDevice where
  vdev := { virtioDeviceInit virtioIdBlock virtioVendorIdLocal 1 blkdQueueSize with
    queues := [⟨8, 1, 0x1000, 0x2000, 0x3000, 0⟩] }
  priv := ⟨⟨1024, true⟩, 2, [], 0⟩

theorem process_chain_spec_read :
    ∃ d' usedLen w', (processChain true 2 readDevice 0).run (Ram.answer fun _ _ => true) readPosted =
        (.ok (d', some usedLen), w') ∧
      w'.mem 0x5000 = BlkStatus.ok.code ∧
      readBytes w'.mem 0x6000 4 = readBytes readPosted.image 512 4 := by
  have hc : ReqChain readPosted.mem (readDevice.queue 0) 0 ⟨0x4000, 16, 1, 1⟩ [⟨0x6000, 4, 3, 2⟩]
      ⟨0x5000, 1, 2, 0⟩ := by
    refine ⟨by decide +kernel, by decide, by decide, by decide, by decide, fun j hj => ?_⟩
    simp only [chainPath, List.map_cons, List.map_nil, List.mem_cons, List.not_mem_nil, or_false] at hj
    rcases hj with rfl | rfl | rfl <;> decide
  have ht : reqType readPosted.mem ⟨0x4000, 16, 1, 1⟩ = .tIn := by decide +kernel
  have hs : reqSector readPosted.mem ⟨0x4000, 16, 1, 1⟩ = 1 := by decide +kernel
  have hok : ReqOk readDevice.priv.backend (reqType readPosted.mem ⟨0x4000, 16, 1, 1⟩)
      (reqSector readPosted.mem ⟨0x4000, 16, 1, 1⟩) [⟨0x6000, 4, 3, 2⟩] := by
    rw [ht, hs]
    exact ⟨by decide, by decide, by decide, by decide, by decide, by decide⟩
  obtain ⟨d', usedLen, w', hrun, -, -, hst, -, -, hin, -⟩ :=
    process_chain_spec (fun _ _ => true) true 2 readDevice 0 readPosted _ _ _ hc (by decide) (by decide)
  refine ⟨d', usedLen, w', hrun, hst.2 hok, ?_⟩
  have hread := hin hok ht
  rw [hs] at hread
  simpa [gather, total] using hread

end AcsVirt.L4
