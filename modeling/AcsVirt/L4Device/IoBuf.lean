import AcsVirt.L4Device.ServiceRun

/-!
# The payload buffer and its recorded size

`io_buf_size` is documented as the allocated size of `io_buf`
(src/drivers/virtio-blkd.h:38-39), and `ensure_io_buf` relies on it: a length
up to it is admitted without a look at the allocation. `blkd_virtio_init`
saves the pair before it clears the device and puts it back, so that a
reconnect keeps the buffer. It does so on the first connect too, and there the
pair is what the stack of `main` held: `struct blkd_virtio_device dev` is
never initialised (src/drivers/virtio-blkd.c:787-823).

`bufLts` is the buffer from the first initialisation on: reconnects and data
descriptors in any order, each with any answers of the host. Growth, failed
growth and reconnects keep the agreement (`BufExact`) and everything admitted
fits (`dataStep_fits`), so it holds throughout iff it held before the first
initialisation (`io_buf_exact_iff`). A recorded size of 512 over no buffer at all
lets a first request of 512 bytes through to it (`io_buf_overrun`).
-/
namespace AcsVirt.L4

open L1 L2

/-- The recorded size is the allocated one. -/
def BlkdState.BufExact (s : BlkdState) : Prop := s.ioBufSize.toNat = s.ioBuf.length

instance (s : BlkdState) : Decidable s.BufExact := inferInstanceAs (Decidable (_ = _))

/-! ## Transfers -/

/-- The bytes of the buffer a call for a data descriptor uses. A read into a
mapping does not go through it. -/
def transferLen : Call → Nat
  | .dmaReadInto _ len => len.toNat
  | .dmaWrite _ data => data.length
  | .pread _ len => len.toNat
  | .pwrite _ data => data.length
  | _ => 0

/-- The allocated size after a call. -/
def allocBy (n : Nat) (e : FabricEvent) : Nat :=
  match e with
  | ⟨.realloc len, ok⟩ => if ok = true then len.toNat else n
  | _ => n

/-- Every transfer fits in what is allocated when it is made. -/
def FitsAlong : Nat → List FabricEvent → Prop
  | _, [] => True
  | n, e :: es => transferLen e.1 ≤ n ∧ FitsAlong (allocBy n e) es

theorem FitsAlong.append {n : Nat} {es fs : List FabricEvent} (h : FitsAlong n es)
    (h' : FitsAlong (es.foldl allocBy n) fs) : FitsAlong n (es ++ fs) := by
  induction es generalizing n with
  | nil => exact h'
  | cons e es ih => exact ⟨h.1, ih h.2 h'⟩

/-- A transfer of at most `n` bytes, or no use of the buffer at all. -/
def FitsBuf (n : Nat) (c : Call) : Prop := transferLen c ≤ n ∧ ∀ len, c ≠ .realloc len

theorem FitsBuf.alloc {n : Nat} {e : FabricEvent} (h : FitsBuf n e.1) : allocBy n e = n := by
  obtain ⟨c, r⟩ := e
  cases c with
  | realloc len => exact absurd rfl (h.2 len)
  | _ => rfl

theorem FitsAlong.of_within {n : Nat} {es : List FabricEvent} (h : ∀ e ∈ es, FitsBuf n e.1) :
    FitsAlong n es ∧ es.foldl allocBy n = n := by
  induction es with
  | nil => exact ⟨trivial, rfl⟩
  | cons e es ih =>
    obtain ⟨he, hrest⟩ := List.forall_mem_cons.1 h
    obtain ⟨hfits, halloc⟩ := ih hrest
    rw [FitsAlong, List.foldl_cons, he.alloc]
    exact ⟨⟨he.1, hfits⟩, halloc⟩

/-! ## `ensure_io_buf` -/

/-- A length is admitted with at least that much allocated. -/
theorem ensureIoBuf_upto {s : BlkdState} (hs : s.BufExact) {len : UInt32} {es : List FabricEvent}
    {o : Option (Option BlkdState)} (h : Upto (ensureIoBuf s len) es o) :
    FitsAlong s.ioBuf.length es ∧ ∀ t, o = some (some t) →
      t.BufExact ∧ len.toNat ≤ t.ioBuf.length ∧ es.foldl allocBy s.ioBuf.length = t.ioBuf.length := by
  unfold ensureIoBuf at h
  split at h
  next hle =>
    obtain ⟨rfl, ho⟩ := h.ret_inv
    refine ⟨trivial, fun t ht => ?_⟩
    rcases ho with rfl | rfl
    · cases ht
    · cases ht
      exact ⟨hs, hs ▸ UInt32.le_iff_toNat_le.1 hle, rfl⟩
  next hgt =>
    rcases h.bind_inv with ⟨rfl, hr⟩ | ⟨ok, es₁, rest, rfl, hr, hgo⟩
    · refine ⟨?_, fun t ht => by cases ht⟩
      rcases hr.perform_inv with rfl | ⟨ok, rfl⟩
      · trivial
      · exact ⟨Nat.zero_le _, trivial⟩
    have he := hr.perform_inv
    subst he
    cases ok with
    | false =>
      obtain ⟨rfl, ho⟩ := hgo.ret_inv
      refine ⟨⟨Nat.zero_le _, trivial⟩, fun t ht => ?_⟩
      rcases ho with rfl | rfl <;> cases ht
    | true =>
      obtain ⟨rfl, ho⟩ := hgo.ret_inv
      refine ⟨⟨Nat.zero_le _, trivial⟩, fun t ht => ?_⟩
      rcases ho with rfl | rfl
      · cases ht
      · cases ht
        have hlen : ((s.ioBuf ++ List.replicate (len.toNat - s.ioBuf.length) 0).take len.toNat).length = len.toNat := by
          rw [List.length_take, List.length_append, List.length_replicate]
          omega
        exact ⟨hlen.symm, Nat.le_of_eq hlen.symm, hlen.symm⟩

/-- Storing what fits leaves the allocation as it is. -/
theorem BlkdState.BufExact.fill {s : BlkdState} (hs : s.BufExact) {data : Bytes}
    (h : data.length ≤ s.ioBuf.length) :
    (s.fill data).BufExact := by
  have hlen : (s.fill data).ioBuf.length = s.ioBuf.length := by
    simp only [BlkdState.fill, List.length_append, List.length_drop]
    omega
  exact hs.trans hlen.symm

/-! ## One data descriptor -/

/-- The transfers of these calls fit, and the sizes agree on a return. -/
structure BufKept {α : Type} (n : Nat) (es : List FabricEvent) (o : Option (BlkdState × α)) :
    Prop where
  fits : FitsAlong n es
  exact : (∀ e ∈ es, ReadsFull e) → ∀ r, o = some r → r.1.BufExact

theorem BufKept.ret {α : Type} {s : BlkdState} (hs : s.BufExact) {a : α} {n : Nat}
    {es : List FabricEvent} {o : Option (BlkdState × α)}
    (h : Upto (Prog.ret (s, a) : FabricM (BlkdState × α)) es o) : BufKept n es o := by
  obtain ⟨rfl, ho⟩ := h.ret_inv
  refine ⟨trivial, fun _ r hr => ?_⟩
  rcases ho with rfl | rfl
  · cases hr
  · cases hr
    exact hs

/-- Code that runs with a length admitted. -/
theorem BufKept.ensured {α : Type} {s t : BlkdState} (hs : s.BufExact) {len : UInt32}
    {es fs : List FabricEvent} (h : Emits (ensureIoBuf s len) es (.ok (some t)))
    {o : Option (BlkdState × α)}
    (hk : t.BufExact → len.toNat ≤ t.ioBuf.length → BufKept t.ioBuf.length fs o) :
    BufKept s.ioBuf.length (es ++ fs) o := by
  obtain ⟨hfits, hadm⟩ := ensureIoBuf_upto hs (o := some (some t)) h
  obtain ⟨ht, hlen, halloc⟩ := hadm t rfl
  have hrest := hk ht hlen
  exact ⟨hfits.append (by rw [halloc]; exact hrest.fits),
    fun hes => hrest.exact fun e he => hes e (List.mem_append_right _ he)⟩

theorem BufKept.refused {α : Type} {s : BlkdState} (hs : s.BufExact) {len : UInt32} {a : α}
    {es fs : List FabricEvent} (h : Emits (ensureIoBuf s len) es (.ok none))
    {o : Option (BlkdState × α)} (hr : Upto (Prog.ret (s, a) : FabricM (BlkdState × α)) fs o) :
    BufKept s.ioBuf.length (es ++ fs) o := by
  have hkept : BufKept s.ioBuf.length fs o := .ret hs hr
  obtain ⟨rfl, _⟩ := hr.ret_inv
  rw [List.append_nil]
  exact ⟨(ensureIoBuf_upto hs (o := some none) h).1, fun _ => hkept.exact fun _ he => absurd he List.not_mem_nil⟩

theorem BufKept.after_within {α : Type} {n : Nat} {es fs : List FabricEvent}
    {o : Option (BlkdState × α)} (hes : ∀ e ∈ es, FitsBuf n e.1) (h : BufKept n fs o) :
    BufKept n (es ++ fs) o := by
  obtain ⟨hfits, halloc⟩ := FitsAlong.of_within hes
  exact ⟨hfits.append (by rw [halloc]; exact h.fits), fun hfull => h.exact fun e he => hfull e (List.mem_append_right _ he)⟩

section
variable {n : Nat} {desc : VirtioDesc}

/-- What an OUT descriptor does once its length is admitted. -/
theorem writeRest_within (hlen : desc.len.toNat ≤ n) (t : BlkdState) (offset : UInt64) :
    Prog.Sat (S := fabricSig) (FitsBuf n) (fun _ : Fault => True) (fun _ : BlkdState × Option BlkStatus => True) (do
      match ← dmaReadInto desc.addr desc.len with
      | none => return (t, none)
      | some data =>
        let s := t.fill data
        if ← blkdBlockWrite s.backend offset (s.ioBuf.take desc.len.toNat) desc.len then return (s, some .ok)
        else return (s, some .ioerr)) := by
  refine Prog.Sat.bind (dmaReadInto_sat _ _ ⟨hlen, fun _ h => by cases h⟩) fun r _ => ?_
  cases r with
  | none => exact Prog.Sat.ret trivial
  | some data =>
    have htake := List.length_take_le desc.len.toNat (t.fill data).ioBuf
    refine Prog.Sat.bind (blkdBlockWrite_sat _ ⟨Nat.le_trans htake hlen, fun _ h => by cases h⟩ _) fun ok _ => ?_
    split <;> exact Prog.Sat.ret trivial

/-- And an IN descriptor. -/
theorem readRest_within (hlen : desc.len.toNat ≤ n) (t : BlkdState) (offset : UInt64) :
    Prog.Sat (S := fabricSig) (FitsBuf n) (fun _ : Fault => True) (fun _ : BlkdState × BlkStatus => True) (do
      match ← blkdBlockRead t.backend offset desc.len with
      | none => return (t, .ioerr)
      | some data =>
        let s := t.fill data
        if ← dmaWrite desc.addr (s.ioBuf.take desc.len.toNat) then return (s, .ok)
        else return (s, .ioerr)) := by
  refine Prog.Sat.bind (blkdBlockRead_sat _ ⟨hlen, fun _ h => by cases h⟩) fun r _ => ?_
  cases r with
  | none => exact Prog.Sat.ret trivial
  | some data =>
    have htake := List.length_take_le desc.len.toNat (t.fill data).ioBuf
    refine Prog.Sat.bind (dmaWrite_sat _ _ ⟨Nat.le_trans htake hlen, fun _ h => by cases h⟩) fun ok _ => ?_
    split <;> exact Prog.Sat.ret trivial

end

theorem blkdBlockRead_full {b : BlkdBlockBackend} {offset : UInt64} {len : UInt32} {data : Bytes}
    {es : List FabricEvent} (h : Emits (blkdBlockRead b offset len) es (.ok (some data)))
    (hfull : ∀ e ∈ es, ReadsFull e) :
    data.length = len.toNat := by
  unfold blkdBlockRead at h
  split at h
  · cases h
  · have he := h.perform_inv
    subst he
    exact hfull _ List.mem_cons_self data rfl

section
variable {s : BlkdState} (hs : s.BufExact) {desc : VirtioDesc} {offset : UInt64} {es : List FabricEvent}
include hs

theorem writeData_buf {o : Option (BlkdState × Option BlkStatus)}
    (h : Upto (writeData s desc offset) es o) :
    BufKept s.ioBuf.length es o := by
  rcases h.bind_inv with ⟨rfl, hbuf⟩ | ⟨r, es₁, rest, rfl, hbuf, hrest⟩
  · exact ⟨(ensureIoBuf_upto hs (o := none) hbuf).1, fun _ r hr => by cases hr⟩
  cases r with
  | none => exact .refused hs hbuf hrest
  | some t =>
    refine .ensured hs hbuf fun ht hlen => ⟨(FitsAlong.of_within ((writeRest_within hlen t offset).upto hrest).1).1, ?_⟩
    intro hfull r hr
    subst hr
    obtain ⟨r', es₁, rest, rfl, hread, hgo⟩ := Emits.bind_inv hrest
    have he := hread.perform_inv
    subst he
    cases r' with
    | none =>
      obtain ⟨_, rfl⟩ := hgo.ret_inv
      exact ht
    | some data =>
      have hdata : data.length = desc.len.toNat := hfull _ List.mem_cons_self data rfl
      obtain ⟨ok, es₁, es₂, rfl, _, hend⟩ := hgo.bind_inv
      have hr : r.1 = t.fill data := by
        cases ok <;> (obtain ⟨_, rfl⟩ := hend.ret_inv; rfl)
      rw [hr]
      exact ht.fill (by omega)

theorem readData_buf {direct : Bool} {o : Option (BlkdState × BlkStatus)}
    (h : Upto (readData direct s desc offset) es o) :
    BufKept s.ioBuf.length es o := by
  have hmap : (tryMap direct desc).Sat (FitsBuf s.ioBuf.length) (fun _ => True) fun _ => True :=
    tryMap_sat direct ⟨Nat.zero_le _, fun _ h => by cases h⟩
  rcases h.bind_inv with ⟨rfl, hm⟩ | ⟨mapped, es₀, rest, rfl, hm, hrest⟩
  · exact ⟨(FitsAlong.of_within (hmap.begins hm)).1, fun _ r hr => by cases hr⟩
  refine .after_within (hmap.emits hm).1 ?_
  cases mapped with
  | true =>
    -- the data goes past the buffer
    have hdirect : Prog.Sat (S := fabricSig) (FitsBuf s.ioBuf.length) (fun _ : Fault => True)
        (fun r : BlkdState × BlkStatus => r.1 = s) (do
          if ← blkdBlockReadMapped s.backend desc.addr offset desc.len then return (s, .ok) else return (s, .ioerr)) := by
      refine Prog.Sat.bind (blkdBlockReadMapped_sat _ ⟨Nat.zero_le _, fun _ h => by cases h⟩) fun ok _ => ?_
      split <;> exact Prog.Sat.ret rfl
    obtain ⟨hes, hr⟩ := hdirect.upto hrest
    exact ⟨(FitsAlong.of_within hes).1, fun _ r ho => by rw [hr r ho]; exact hs⟩
  | false =>
    rcases Upto.bind_inv hrest with ⟨rfl, hbuf⟩ | ⟨r, es₁, rest, rfl, hbuf, hrest⟩
    · exact ⟨(ensureIoBuf_upto hs (o := none) hbuf).1, fun _ r hr => by cases hr⟩
    cases r with
    | none => exact .refused hs hbuf hrest
    | some t =>
      refine .ensured hs hbuf fun ht hlen => ⟨(FitsAlong.of_within ((readRest_within hlen t offset).upto hrest).1).1, ?_⟩
      intro hfull r hr
      subst hr
      obtain ⟨r', es₁, rest, rfl, hread, hgo⟩ := Emits.bind_inv hrest
      cases r' with
      | none =>
        obtain ⟨_, rfl⟩ := hgo.ret_inv
        exact ht
      | some data =>
        have hdata := blkdBlockRead_full hread fun e he => hfull e (List.mem_append_left _ he)
        obtain ⟨ok, es₁, es₂, rfl, _, hend⟩ := hgo.bind_inv
        have hr : r.1 = t.fill data := by
          cases ok <;> (obtain ⟨_, rfl⟩ := hend.ret_inv; rfl)
        rw [hr]
        exact ht.fill (by omega)

/-- Every transfer a data descriptor leads to fits in the buffer, and the sizes
agree afterwards. -/
theorem dataStep_buf {direct : Bool} {req : ReqType} {status : BlkStatus}
    {o : Option (BlkdState × Option BlkStatus)}
    (h : Upto (dataStep direct req s desc offset status) es o) : BufKept s.ioBuf.length es o := by
  unfold dataStep at h
  cases req with
  | tIn =>
    dsimp only at h
    split at h
    · exact .ret hs h
    split at h
    · rcases h.bind_inv with ⟨rfl, hread⟩ | ⟨r, es₁, rest, rfl, hread, hret⟩
      · exact ⟨(readData_buf hs (o := none) hread).fits, fun _ r hr => by cases hr⟩
      have hkept := readData_buf hs (o := some r) hread
      obtain ⟨rfl, ho⟩ := hret.ret_inv
      rw [List.append_nil]
      refine ⟨hkept.fits, fun hfull r' hr => ?_⟩
      have hexact := hkept.exact hfull r rfl
      rcases ho with rfl | rfl
      · cases hr
      · cases hr
        exact hexact
    · exact .ret hs h
  | tOut =>
    dsimp only at h
    split at h
    · exact .ret hs h
    split at h
    · exact writeData_buf hs h
    · exact .ret hs h
  | tFlush => exact .ret hs h
  | other => exact .ret hs h

end

/-! ## The buffer from the first connect on -/

inductive BufLabel where
  | connect
  | data (directRead : Bool) (req : ReqType) (desc : VirtioDesc) (offset : UInt64) (status : BlkStatus)

/-- Connects and data descriptors; `old` is what the struct holds before the
first of them. A descriptor's calls may be answered in any way, reads that
succeed being complete. -/
def bufLts (backend : BlkdBlockBackend) (old : BlkdState) : LTS BlkdState BufLabel where
  init s := s = (blkdVirtioInit old backend).priv
  step s l s' :=
    match l with
    | .connect => s' = (blkdVirtioInit s backend).priv
    | .data directRead req desc offset status =>
      ∃ es r, Emits (dataStep directRead req s desc offset status) es (.ok (s', r)) ∧ ∀ e ∈ es, ReadsFull e

/-- The sizes agree, a length that `ensure_io_buf` admits is allocated, and at
every point of a data descriptor the transfers made fit. -/
structure BufSafe (s : BlkdState) : Prop where
  exact : s.BufExact
  admitted : ∀ len es t, Emits (ensureIoBuf s len) es (.ok (some t)) → t.BufExact ∧ len.toNat ≤ t.ioBuf.length
  fits : ∀ directRead req desc offset status es, Begins (dataStep directRead req s desc offset status) es →
    FitsAlong s.ioBuf.length es

theorem BlkdState.BufExact.safe {s : BlkdState} (hs : s.BufExact) : BufSafe s where
  exact := hs
  admitted len es t h := by
    obtain ⟨ht, hlen, _⟩ := (ensureIoBuf_upto hs (o := some (some t)) h).2 t rfl
    exact ⟨ht, hlen⟩
  fits directRead req desc offset status es h := (dataStep_buf hs (o := none) h).fits

section
variable {backend : BlkdBlockBackend} {old : BlkdState}

theorem bufExact_reachable (h0 : old.BufExact) {s : BlkdState}
    (hs : (bufLts backend old).Reachable s) : s.BufExact := by
  refine LTS.Inductive.reachable (I := BlkdState.BufExact) ⟨?_, ?_⟩ s hs
  · intro s hs
    cases hs
    exact h0
  · intro s l s' hi hstep
    cases l with
    | connect =>
      cases hstep
      exact hi
    | data directRead req desc offset status =>
      obtain ⟨es, r, h, hfull⟩ := hstep
      exact (dataStep_buf hi (o := some (s', r)) h).exact hfull _ rfl

/-! ## The daemon's runs are among them -/

/-- Some steps of the buffer. -/
def BufSteps (backend : BlkdBlockBackend) (s s' : BlkdState) : Prop :=
  ∃ ls, (bufLts backend s).Run s ls s'

theorem BufSteps.refl (s : BlkdState) : BufSteps backend s s := ⟨[], .nil s⟩

theorem run_of_any {s t u : BlkdState} {ls : List BufLabel} (h : (bufLts backend t).Run s ls u) :
    (bufLts backend old).Run s ls u := by
  induction h with
  | nil s => exact .nil s
  | cons hs _ ih => exact .cons hs ih

theorem BufSteps.trans {s t u : BlkdState} (h : BufSteps backend s t) (h' : BufSteps backend t u) :
    BufSteps backend s u := by
  obtain ⟨ls, h⟩ := h
  obtain ⟨ks, h'⟩ := h'
  exact ⟨ls ++ ks, h.append (run_of_any h')⟩

theorem BufSteps.reachable {s s' : BlkdState} (h : BufSteps backend s s')
    (hs : (bufLts backend old).Reachable s) :
    (bufLts backend old).Reachable s' := by
  obtain ⟨s₀, ls, h0, hrun⟩ := hs
  obtain ⟨ks, h⟩ := h
  exact ⟨s₀, ls ++ ks, h0, hrun.append (run_of_any h)⟩

theorem chainLoop_bufSteps {direct : Bool} {q : VirtioQueue} {req : ReqType} {offset : UInt64}
    (fuel : Nat) {s s' : BlkdState} {index : UInt16} {chainSeen dataLen : UInt32}
    {status : BlkStatus} {es : List FabricEvent} {r : Option (VirtioDesc × BlkStatus × UInt32)}
    (h : Emits (chainLoop direct q req offset fuel s index chainSeen status dataLen) es (.ok (s', r)))
    (hfull : ∀ e ∈ es, ReadsFull e) : BufSteps backend s s' := by
  induction fuel generalizing s index chainSeen status dataLen es with
  | zero => cases h
  | succ fuel ih =>
    unfold chainLoop at h
    split at h
    · obtain ⟨_, he⟩ := h.ret_inv
      cases he
      exact .refl _
    obtain ⟨d, es₁, rest, rfl, _, hrest⟩ := h.bind_inv
    cases d with
    | none =>
      obtain ⟨_, he⟩ := hrest.ret_inv
      cases he
      exact .refl _
    | some desc =>
      dsimp only at hrest
      split at hrest
      · obtain ⟨_, he⟩ := hrest.ret_inv
        cases he
        exact .refl _
      obtain ⟨⟨t, after⟩, es₂, rest, rfl, hdata, hgo⟩ := hrest.bind_inv
      rw [List.forall_mem_append, List.forall_mem_append] at hfull
      have hstep : BufSteps backend s t :=
        ⟨[.data direct req desc (offset + dataLen.toUInt64) status], .cons ⟨es₂, after, hdata, hfull.2.1⟩ (.nil t)⟩
      cases after with
      | none =>
        obtain ⟨_, he⟩ := hgo.ret_inv
        cases he
        exact hstep
      | some status => exact hstep.trans (ih hgo hfull.2.2)

theorem processChain_bufSteps {direct : Bool} {fuel : Nat} {d d' : BlkdVirtioDevice} {head : UInt16}
    {es : List FabricEvent} {r : Option UInt32}
    (h : Emits (processChain direct fuel d head) es (.ok (d', r))) (hfull : ∀ e ∈ es, ReadsFull e) :
    BufSteps backend d.priv d'.priv := by
  obtain ⟨desc, es₁, rest, rfl, _, hrest⟩ := h.bind_inv
  cases desc with
  | none =>
    obtain ⟨_, he⟩ := hrest.ret_inv
    cases he
    exact .refl _
  | some desc =>
    dsimp only at hrest
    split at hrest
    · obtain ⟨_, he⟩ := hrest.ret_inv
      cases he
      exact .refl _
    obtain ⟨header, es₂, rest, rfl, _, hgo⟩ := hrest.bind_inv
    cases header with
    | none =>
      obtain ⟨_, he⟩ := hgo.ret_inv
      cases he
      exact .refl _
    | some header =>
      obtain ⟨⟨s, last⟩, es₃, rest, rfl, hloop, hend⟩ := hgo.bind_inv
      rw [List.forall_mem_append, List.forall_mem_append, List.forall_mem_append] at hfull
      have hsteps : BufSteps backend d.priv s := chainLoop_bufSteps fuel hloop hfull.2.2.1
      match last with
      | none =>
        obtain ⟨_, he⟩ := hend.ret_inv
        cases he
        exact hsteps
      | some (statusDesc, status, dataLen) =>
        obtain ⟨⟨s', u⟩, es₄, rest, rfl, hfin, hret⟩ := hend.bind_inv
        have hsame := (finishChain_sat (φ := fun _ => True) (χ := fun _ => True) _ s status dataLen trivial fun _ => trivial).emits hfin
        have hs' : s' = s := hsame.2
        obtain ⟨_, he⟩ := hret.ret_inv
        cases he
        rw [hs']
        exact hsteps

theorem blkdMmioWrite_bufSteps {direct : Bool} {fuel : Nat} {b b' : FabricBinding BlkdState}
    {offset value : UInt64} {es : List FabricEvent} {ok : Bool}
    (h : Emits (blkdMmioWrite direct fuel b offset value) es (.ok (b', ok)))
    (hfull : ∀ e ∈ es, ReadsFull e) : BufSteps backend b.priv b'.priv := by
  unfold blkdMmioWrite mmioWrite at h
  dsimp only at h
  have hirq : ∀ {c : FabricBinding BlkdState}, Emits (do return (c, ← lowerIrq)) es (.ok (b', ok)) → c.priv = b.priv →
      BufSteps backend b.priv b'.priv := by
    intro c h hc
    obtain ⟨r, _, hr⟩ := Emits.map_iff.1 h
    cases hr
    rw [hc]
    exact .refl _
  have hret : ∀ {c : FabricBinding BlkdState}, Emits (Prog.ret (c, true) : FabricM _) es (.ok (b', ok)) → c.priv = b.priv →
      BufSteps backend b.priv b'.priv := by
    intro c h hc
    obtain ⟨_, he⟩ := h.ret_inv
    cases he
    rw [hc]
    exact .refl _
  split at h
  · split at h
    · exact hirq h rfl
    · exact hret h rfl
  split at h
  · exact hirq h rfl
  split at h
  · obtain ⟨⟨d, ok'⟩, es₁, rest, rfl, hn, hend⟩ := h.bind_inv
    rw [List.forall_mem_append] at hfull
    obtain ⟨_, he⟩ := hend.ret_inv
    cases he
    unfold blkdVirtioNotifyQueue at hn
    split at hn
    · obtain ⟨r, _, hr⟩ := Emits.map_iff.1 hn
      cases hr
      exact .refl _
    · exact serviceQueue_rel (ρ := BufSteps backend) .refl (fun h h' => h.trans h') (fun hp hq => processChain_bufSteps hp hq)
        fuel hn hfull.1
  · exact hret h rfl

/-- What the daemon's device goes through is a run of the buffer. -/
theorem disk_bufReachable {W : Type} {R : Handler fabricSig W}
    (hfull : ∀ w c r w', R w c r w' → ReadsFull ⟨c, r⟩) {direct : Bool} {w₀ : W}
    {s : FabricBinding BlkdState × W} (hs : (diskLts R direct backend old w₀).Reachable s) :
    (bufLts backend old).Reachable s.1.priv := by
  refine LTS.Inductive.reachable (I := fun s : FabricBinding BlkdState × W => (bufLts backend old).Reachable s.1.priv)
    ⟨?_, ?_⟩ s hs
  · intro s hs
    cases hs
    exact ⟨_, [], rfl, .nil _⟩
  · intro s l s' hi hstep
    cases l with
    | connect =>
      cases hstep
      exact hi.tail (l := .connect) rfl
    | write fuel offset value =>
      obtain ⟨ok, hr⟩ := hstep
      obtain ⟨es, he, ha⟩ := hr.emits
      exact (blkdMmioWrite_bufSteps he (ha.all hfull)).reachable hi

end

/-- **The payload buffer.** The recorded size is the allocated one in every state
from the first initialisation on, with every admitted length allocated and
every transfer inside the buffer, iff the two agreed in the memory that `main`
leaves to the device struct. The daemon's own runs are among those considered. -/
theorem io_buf_exact_iff (backend : BlkdBlockBackend) (old : BlkdState) :
    ((∀ s, (bufLts backend old).Reachable s → BufSafe s) ↔ old.ioBufSize.toNat = old.ioBuf.length) ∧
    ∀ {W : Type} (R : Handler fabricSig W) (direct : Bool) (w₀ : W), (∀ w c r w', R w c r w' → ReadsFull ⟨c, r⟩) →
      ∀ s, (diskLts R direct backend old w₀).Reachable s → (bufLts backend old).Reachable s.1.priv := by
  refine ⟨⟨fun h => ?_, fun h0 s hs => ?_⟩, fun R direct w₀ hfull s hs => disk_bufReachable hfull hs⟩
  · exact (h _ ⟨_, [], rfl, .nil _⟩).exact
  · exact (bufExact_reachable h0 hs).safe

/-- A struct that happens to be all zero. -/
theorem io_buf_exact_zeroed : noBuffer.ioBufSize.toNat = noBuffer.ioBuf.length ∧
    ∀ s, (bufLts ⟨1024, false⟩ noBuffer).Reachable s → BufSafe s :=
  ⟨rfl, (io_buf_exact_iff ⟨1024, false⟩ noBuffer).1.2 rfl⟩

/-- A recorded size of 512 and no buffer. -/
def staleSize : BlkdState := ⟨emptyDisk, 0, [], 512⟩

/-- After the first connect an OUT descriptor of 512 bytes is admitted without
an allocation, and read into nothing. -/
theorem io_buf_overrun :
    ∃ s es, (bufLts ⟨1024, false⟩ staleSize).Reachable s ∧ s.ioBufSize = 512 ∧ s.ioBuf = [] ∧
    Emits (ensureIoBuf s 512) [] (.ok (some s)) ∧ Begins (dataStep false .tOut s ⟨0x4000, 512, 1, 1⟩ 0 .ok) es ∧
      ¬FitsAlong s.ioBuf.length es := by
  refine ⟨(blkdVirtioInit staleSize ⟨1024, false⟩).priv, [⟨.dmaReadInto 0x4000 512, none⟩], ⟨_, [], rfl, .nil _⟩, rfl, rfl,
    .ret _, .call (.start _), ?_⟩
  intro h
  exact absurd h.1 (by decide)

end AcsVirt.L4
