import AcsVirt.L4Device.ServiceRun
import AcsVirt.L4Device.TxLength

/-!
# A completion is published last, and never half-way

`ServiceRun` cuts the calls of a notification into rounds that each end with
the store of the used index. Here guest memory is added: a fabric where any
call may fail, a refused store having no effect (`GuestFabric`), and chains
whose buffers are not over the used index. Then no other store of the run
moves the index, so at every point of a run it has moved once for each whole round
(`PublishesLast`). When the handler returns, with true or false, the cursor
`last_avail_idx` has moved as often.

A chain's descriptors are what the device read of them: the slots linked from
the available-ring entries it read, at the time it read them (`Linked`). The
status byte goes to the address of the last descriptor whatever its length, so
that byte counts as part of the buffer (`BufByte`). The console stores nothing
but completions, and needs nothing of its chains.
-/
namespace AcsVirt.L4

open L1 L2 L3

variable {P : Type}

/-! ## The buffers of a chain -/

/-- The read of a descriptor slot. -/
def slotRead (q : VirtioQueue) (idx : UInt16) (raw : Bytes) : FabricEvent :=
  ⟨.dmaReadInto (descAddr q idx) 16, some raw⟩

/-- Slots linked from those in `H` by the descriptors these calls read. -/
inductive Linked (q : VirtioQueue) (H : UInt16 → Prop) (es : List FabricEvent) : UInt16 → Prop
  | head {idx : UInt16} : H idx → Linked q H es idx
  | next {idx : UInt16} {raw : Bytes} : Linked q H es idx → slotRead q idx raw ∈ es →
      (decodeDesc raw).hasNext = true → Linked q H es (decodeDesc raw).next

/-- The bytes a descriptor gives to the device. -/
def BufByte (desc : VirtioDesc) (x : Nat) : Prop :=
  desc.addr.toNat ≤ x ∧ x < desc.addr.toNat + if desc.hasNext then desc.len.toNat else max 1 desc.len.toNat

/-- A byte of a buffer of the chains that start at `H`. -/
def ChainByte (q : VirtioQueue) (H : UInt16 → Prop) (es : List FabricEvent) (x : Nat) : Prop :=
  ∃ idx raw, Linked q H es idx ∧ slotRead q idx raw ∈ es ∧ BufByte (decodeDesc raw) x

section
variable {q : VirtioQueue} {H K : UInt16 → Prop} {es fs : List FabricEvent}

theorem Linked.trans {idx : UInt16} (h : Linked q H es idx) (hH : ∀ i, H i → Linked q K fs i)
    (hes : es ⊆ fs) :
    Linked q K fs idx := by
  induction h with
  | head h => exact hH _ h
  | next _ hr hn ih => exact .next ih (hes hr) hn

theorem ChainByte.trans {x : Nat} (h : ChainByte q H es x) (hH : ∀ i, H i → Linked q K fs i)
    (hes : es ⊆ fs) :
    ChainByte q K fs x := by
  obtain ⟨idx, raw, hl, hr, hx⟩ := h
  exact ⟨idx, raw, hl.trans hH hes, hes hr, hx⟩

/-- The cursor plays no part in it. -/
theorem Linked.of_cursor {n : Nat} {idx : UInt16} (h : Linked (atCursor q n) H es idx) :
    Linked q H es idx := by
  induction h with
  | head h => exact .head h
  | next _ hr hn ih => exact .next ih hr hn

theorem ChainByte.of_cursor {n x : Nat} (h : ChainByte (atCursor q n) H es x) :
    ChainByte q H es x := by
  obtain ⟨idx, raw, hl, hr, hx⟩ := h
  exact ⟨idx, raw, hl.of_cursor, hr, hx⟩

end

/-- Guest memory is written only where the descriptor says. -/
def InDesc (desc : VirtioDesc) (c : Call) : Prop :=
  ∀ x, Writes c x → desc.addr.toNat ≤ x ∧ x < desc.addr.toNat + desc.len.toNat

theorem DataCalls.inDesc (desc : VirtioDesc) : DataCalls (InDesc desc) desc where
  map := fun x hx => hx.elim
  mapped := fun _ x hx => hx
  realloc := fun x hx => hx.elim
  pread := fun _ x hx => hx.elim
  store := fun data hlen x hx => ⟨hx.1, by have := hx.2; omega⟩
  load := fun x hx => hx.elim

theorem BufByte.of_next {desc : VirtioDesc} (hn : desc.hasNext = true) {x : Nat}
    (h1 : desc.addr.toNat ≤ x) (h2 : x < desc.addr.toNat + desc.len.toNat) : BufByte desc x := by
  refine ⟨h1, ?_⟩
  rw [if_pos hn]
  exact h2

/-- The status byte is a byte of the last descriptor. -/
theorem BufByte.status {desc : VirtioDesc} (hn : desc.hasNext = false) :
    BufByte desc desc.addr.toNat := by
  refine ⟨Nat.le_refl _, ?_⟩
  rw [if_neg (by rw [hn]; exact Bool.false_ne_true)]
  omega

theorem virtioReadDesc_begins {q : VirtioQueue} {index : UInt16} {es : List FabricEvent}
    (h : Begins (virtioReadDesc q index) es) : ∀ e ∈ es, ∀ x, ¬Writes e.1 x := by
  have hsat : (virtioReadDesc q index).Sat Harmless (fun _ => True) fun _ => True :=
    virtioReadDesc_sat (fun _ _ => trivial) q index
  exact fun e he x => (hsat.begins h e he).writes x

section
variable {q : VirtioQueue} {index : UInt16} {raw : Bytes} {es fs rest : List FabricEvent}

theorem ChainByte.here {x : Nat} (hx : BufByte (decodeDesc raw) x) :
    ChainByte q (· = index) (slotRead q index raw :: fs) x := ⟨index, raw, .head rfl, List.mem_cons_self, hx⟩

theorem ChainByte.further {x : Nat} (hn : (decodeDesc raw).hasNext = true)
    (h : ChainByte q (· = (decodeDesc raw).next) rest x) :
    ChainByte q (· = index) (slotRead q index raw :: (fs ++ rest)) x := by
  refine h.trans (fun i hi => ?_) fun e he => List.mem_cons_of_mem _ (List.mem_append_right _ he)
  subst hi
  exact .next (.head rfl) List.mem_cons_self hn

/-- Every store is into the buffers of the chain from `index`. -/
def StoresIn (q : VirtioQueue) (index : UInt16) (es : List FabricEvent) : Prop :=
  ∀ e ∈ es, ∀ x, Writes e.1 x → ChainByte q (· = index) es x

theorem StoresIn.of_silent (h : ∀ e ∈ es, ∀ x, ¬Writes e.1 x) : StoresIn q index es :=
  fun e he x hx => absurd hx (h e he x)

theorem StoresIn.nil : StoresIn q index [] := fun _ he => absurd he List.not_mem_nil

/-- One descriptor, and the chain from the next one. -/
theorem StoresIn.step (hn : (decodeDesc raw).hasNext = true)
    (hfs : ∀ e ∈ fs, InDesc (decodeDesc raw) e.1) (hrest : StoresIn q (decodeDesc raw).next rest) :
    StoresIn q index (slotRead q index raw :: (fs ++ rest)) := by
  intro e he x hx
  rcases List.mem_cons.1 he with rfl | he
  · exact hx.elim
  rcases List.mem_append.1 he with he | he
  · obtain ⟨h1, h2⟩ := hfs e he x hx
    exact .here (.of_next hn h1 h2)
  · exact .further hn (hrest e he x hx)

/-- As `step`, with nothing after it yet. -/
theorem StoresIn.stop (hn : (decodeDesc raw).hasNext = true)
    (hfs : ∀ e ∈ fs, InDesc (decodeDesc raw) e.1) :
    StoresIn q index (slotRead q index raw :: fs) := by
  have h : StoresIn q index (slotRead q index raw :: (fs ++ [])) := .step hn hfs .nil
  rwa [List.append_nil] at h

end

section
variable {q : VirtioQueue} {direct : Bool} {req : ReqType} {offset : UInt64}

/-- The descriptor loop stores into the buffers of the chain from `index`; if it
comes to a status descriptor, that is the last of the chain. -/
theorem chainLoop_upto (fuel : Nat) {s : BlkdState} {index : UInt16} {chainSeen dataLen : UInt32}
    {status : BlkStatus} {es : List FabricEvent}
    {o : Option (BlkdState × Option (VirtioDesc × BlkStatus × UInt32))}
    (h : Upto (chainLoop direct q req offset fuel s index chainSeen status dataLen) es o) :
    StoresIn q index es ∧
      ∀ s' desc st len, o = some (s', some (desc, st, len)) → ChainByte q (· = index) es desc.addr.toNat := by
  induction fuel generalizing s index chainSeen status dataLen es with
  | zero =>
    obtain ⟨rfl, rfl⟩ := h.fault_inv
    exact ⟨.nil, fun _ _ _ _ ho => by cases ho⟩
  | succ fuel ih =>
    unfold chainLoop at h
    split at h
    · obtain ⟨rfl, ho⟩ := h.ret_inv
      refine ⟨.nil, fun _ _ _ _ hs => ?_⟩
      rcases ho with rfl | rfl <;> cases hs
    rcases h.bind_inv with ⟨rfl, hread⟩ | ⟨r, es₁, rest, rfl, hread, hrest⟩
    · exact ⟨.of_silent (virtioReadDesc_begins hread), fun _ _ _ _ ho => by cases ho⟩
    cases r with
    | none =>
      obtain ⟨rfl, ho⟩ := hrest.ret_inv
      rw [List.append_nil]
      refine ⟨.of_silent (virtioReadDesc_begins hread.begins), fun _ _ _ _ hs => ?_⟩
      rcases ho with rfl | rfl <;> cases hs
    | some desc =>
      obtain ⟨raw, rfl, rfl⟩ := virtioReadDesc_emits hread
      dsimp only at hrest
      split at hrest
      next hlast =>
        obtain ⟨rfl, ho⟩ := hrest.ret_inv
        rw [List.append_nil]
        refine ⟨.of_silent (virtioReadDesc_begins hread.begins), fun s' desc st len hs => ?_⟩
        rcases ho with rfl | rfl
        · cases hs
        · cases hs
          exact .here (.status (by simpa using hlast))
      next hnext =>
        have hn : (decodeDesc raw).hasNext = true := by simpa using hnext
        have hdata := dataStep_sat (χ := fun _ => True) (.inDesc (decodeDesc raw)) (fun _ _ x hx => hx.elim)
          direct req s (offset + dataLen.toUInt64) status
        rcases hrest.bind_inv with ⟨rfl, hstep⟩ | ⟨r, es₁, rest, rfl, hstep, hgo⟩
        · exact ⟨.stop hn (hdata.begins hstep), fun _ _ _ _ ho => by cases ho⟩
        have hes₁ := (hdata.emits hstep).1
        obtain ⟨s', r⟩ := r
        cases r with
        | none =>
          obtain ⟨rfl, ho⟩ := hgo.ret_inv
          rw [List.append_nil]
          refine ⟨.stop hn hes₁, fun _ _ _ _ hs => ?_⟩
          rcases ho with rfl | rfl <;> cases hs
        | some status =>
          obtain ⟨hw, hend⟩ := ih hgo
          have hall : StoresIn q index (slotRead q index raw :: (es₁ ++ rest)) := .step hn hes₁ hw
          have hfar : ∀ {x : Nat}, ChainByte q (· = (decodeDesc raw).next) rest x →
              ChainByte q (· = index) (slotRead q index raw :: (es₁ ++ rest)) x := .further hn
          exact ⟨hall, fun s' desc st len hs => hfar (hend s' desc st len hs)⟩

/-- What follows the header: the loop, and the status byte. -/
theorem chainRest_writes {fuel : Nat} {d : BlkdVirtioDevice} {index : UInt16} {status : BlkStatus}
    {es : List FabricEvent}
    (h : Begins (do
      match ← chainLoop direct q req offset fuel d.priv index 0 status 0 with
      | (s, none) => return ({ d with priv := s }, none)
      | (s, some (statusDesc, status, dataLen)) =>
      let (s, r) ← finishChain req s statusDesc status dataLen
      return ({ d with priv := s }, r) : FabricM (BlkdVirtioDevice × Option UInt32)) es) :
    StoresIn q index es := by
  rcases h.bind_inv with hloop | ⟨r, es₁, es₂, rfl, hloop, hend⟩
  · exact (chainLoop_upto (o := none) fuel hloop).1
  obtain ⟨hw, hstatus⟩ := chainLoop_upto (o := some r) fuel hloop
  have hlift : ∀ {x : Nat}, ChainByte q (· = index) es₁ x → ChainByte q (· = index) (es₁ ++ es₂) x :=
    fun hx => hx.trans (fun i hi => .head hi) fun e he => List.mem_append_left _ he
  obtain ⟨s, r⟩ := r
  intro e he x hx
  rcases List.mem_append.1 he with he | he
  · exact hlift (hw e he x hx)
  match r with
  | none =>
    cases hend.ret_inv
    cases he
  | some (desc, st, len) =>
    have hfinish : (finishChain req s desc st len).Sat (fun c => ∀ x, Writes c x → x = desc.addr.toNat) (fun _ => True)
        fun r => r.1 = s := by
      refine finishChain_sat req s st len (fun x hx => hx.elim) fun code x hx => ?_
      have h1 := hx.1
      have h2 := hx.2
      rw [List.length_singleton] at h2
      omega
    have hat : x = desc.addr.toNat :=
      (Prog.Sat.bind hfinish fun _ _ => Prog.Sat.ret trivial).begins (ψ := fun _ => True) hend e he x hx
    rw [hat]
    exact hlift (hstatus s desc st len rfl)

end

/-- A request stores into the buffers of its chain. -/
theorem processChain_writes {direct : Bool} {fuel : Nat} {d : BlkdVirtioDevice} {head : UInt16}
    {es : List FabricEvent} (h : Begins (processChain direct fuel d head) es) :
    StoresIn (d.queue 0) head es := by
  rcases h.bind_inv with hread | ⟨r, es₁, rest, rfl, hread, hrest⟩
  · exact .of_silent (virtioReadDesc_begins hread)
  have hfirst := virtioReadDesc_begins hread.begins
  cases r with
  | none =>
    cases hrest.ret_inv
    rw [List.append_nil]
    exact .of_silent hfirst
  | some desc =>
    obtain ⟨raw, rfl, rfl⟩ := virtioReadDesc_emits hread
    dsimp only at hrest
    split at hrest
    · cases hrest.ret_inv
      rw [List.append_nil]
      exact .of_silent hfirst
    next hnext =>
      have hn : (decodeDesc raw).hasNext = true := by simpa using hnext
      have hsat := dmaReadInto_sat (φ := InDesc (decodeDesc raw)) (χ := fun _ => True) (decodeDesc raw).addr 16
        fun x hx => hx.elim
      rcases hrest.bind_inv with hhead | ⟨r, es₁, rest, rfl, hhead, hgo⟩
      · exact .stop hn (hsat.begins hhead)
      have hheader := (hsat.emits hhead).1
      cases r with
      | none =>
        cases hgo.ret_inv
        rw [List.append_nil]
        exact .stop hn hheader
      | some header =>
        have hall : StoresIn (d.queue 0) head (slotRead (d.queue 0) head raw :: (es₁ ++ rest)) :=
          .step hn hheader (chainRest_writes hgo)
        exact hall

/-! ## The used index -/

/-- The used index in guest memory. -/
def idxAt (q : VirtioQueue) (m : Mem) : UInt16 := virtioLoadLe16 (readBytes m (q.used + 2).toNat 2)

theorem idxAt_store (q : VirtioQueue) (m : Mem) (v : UInt16) :
    idxAt q (writeBytes m (q.used + 2).toNat (virtioStoreLe16 v)) = v := by
  have hb := readBytes_writeBytes m (q.used + 2).toNat (virtioStoreLe16 v)
  rw [virtioStoreLe16_length] at hb
  rw [idxAt, hb, virtioLoadLe16_store]

def IdxByte (q : VirtioQueue) (x : Nat) : Prop :=
  (q.used + 2).toNat ≤ x ∧ x < (q.used + 2).toNat + 2

/-- A call that does not move the used index: a store that was refused, or one
somewhere else, or no store. -/
def IdxKept (q : VirtioQueue) (e : FabricEvent) : Prop :=
  (∃ gpa data, e = ⟨.dmaWrite gpa data, false⟩) ∨ ∀ x, Writes e.1 x → ¬IdxByte q x

/-- An element and the index are apart, wherever the ring is. -/
theorem usedElem_apart (q : VirtioQueue) (usedIdx : UInt16) {x : Nat} (hx : IdxByte q x) :
    ¬((usedElem q usedIdx).toNat ≤ x ∧ x < (usedElem q usedIdx).toNat + 4) ∧
      ¬((usedElem q usedIdx + 4).toNat ≤ x ∧ x < (usedElem q usedIdx + 4).toNat + 4) := by
  have hslot := (usedIdx % q.num.toUInt16).toNat_lt
  have hused := q.used.toNat_lt
  have h0 : (usedElem q usedIdx).toNat = (q.used.toNat + 4 + 8 * (usedIdx % q.num.toUInt16).toNat) % 2 ^ 64 := by
    simp only [usedElem, UInt64.toNat_add, UInt64.toNat_mul, UInt16.toNat_toUInt64, show (4 : UInt64).toNat = 4 from rfl,
      show (8 : UInt64).toNat = 8 from rfl]
    omega
  have h4 : (usedElem q usedIdx + 4).toNat = (q.used.toNat + 8 + 8 * (usedIdx % q.num.toUInt16).toNat) % 2 ^ 64 := by
    rw [UInt64.toNat_add, h0, show (4 : UInt64).toNat = 4 from rfl]
    omega
  have h2 : (q.used + 2).toNat = (q.used.toNat + 2) % 2 ^ 64 := by
    rw [UInt64.toNat_add]
    rfl
  obtain ⟨hx1, hx2⟩ := hx
  rw [h2] at hx1 hx2
  rw [h0, h4]
  constructor <;> omega

theorem Preparing.kept {q : VirtioQueue} {e : FabricEvent} (h : Preparing q e) : IdxKept q e := by
  cases h with
  | index r => exact .inr fun x hx => hx.elim
  | head usedIdx head ok =>
    refine .inr fun x hx hi => (usedElem_apart q usedIdx hi).1 ⟨hx.1, ?_⟩
    have := hx.2
    rwa [virtioStoreLe32_length] at this
  | len usedIdx len ok =>
    refine .inr fun x hx hi => (usedElem_apart q usedIdx hi).2 ⟨hx.1, ?_⟩
    have := hx.2
    rwa [virtioStoreLe32_length] at this
  | refused idx => exact .inl ⟨_, _, rfl⟩

section
variable {W : Type} {R : Handler fabricSig W} {mem : W → Mem} {q : VirtioQueue}

theorem StoresTo.idx_kept (hR : StoresTo R mem) {es : List FabricEvent} {w w' : W}
    (h : Answered R w es w') (hes : ∀ e ∈ es, IdxKept q e) {x : Nat} (hx : IdxByte q x) :
    mem w' x = mem w x := by
  induction h with
  | nil w => rfl
  | @cons c r es w w' w'' hr _ ih =>
    obtain ⟨he, hrest⟩ := List.forall_mem_cons.1 hes
    refine (ih hrest).trans ?_
    rcases he with ⟨gpa, data, he⟩ | he
    · cases he
      rw [hR.write hr]
      rfl
    · exact hR.call hr x fun hw => he x hw hx

theorem StoresTo.idxAt_kept (hR : StoresTo R mem) {es : List FabricEvent} {w w' : W}
    (h : Answered R w es w') (hes : ∀ e ∈ es, IdxKept q e) :
    idxAt q (mem w') = idxAt q (mem w) := by
  unfold idxAt
  rw [readBytes_congr fun x h1 h2 => hR.idx_kept h hes ⟨h1, h2⟩]

/-- A publication moves the index by one. -/
theorem publish_moves (hR : GuestFabric R mem) {head : UInt16} {len : UInt32} {raw : Bytes}
    {w w' : W} (h : Answered R w (publish q head len raw) w') :
    idxAt q (mem w') = idxAt q (mem w) + 1 := by
  cases h with
  | cons hread h =>
    cases h with
    | cons _ h =>
      cases h with
      | cons _ h =>
        cases h with
        | cons hw hnil =>
          cases hnil
          have hraw : virtioLoadLe16 raw = idxAt q (mem w) := by
            rw [hR.read hread]
            rfl
          rw [hR.write hw, if_pos rfl, idxAt_store, hraw]

end

/-! ## Whole notifications -/

section
variable {i : Nat} {process : Device P → UInt16 → FabricM (Device P × Option UInt32)} {q : VirtioQueue}
  {d d₁ : Device P} {ss : List (Served P)} {c : Nat}

/-- The chain handlers of these calls leave the used index alone. -/
def WorkKept (i : Nat) (process : Device P → UInt16 → FabricM (Device P × Option UInt32))
    (q : VirtioQueue) (es : List FabricEvent) : Prop :=
  ∀ c d head polls work, DevAt i q c d → Found i d polls head → Begins (process d head) work → polls ⊆ es → work ⊆ es →
    ∀ e ∈ work, IdxKept q e

theorem WorkKept.mono {es fs : List FabricEvent} (h : WorkKept i process q fs) (hes : es ⊆ fs) :
    WorkKept i process q es :=
  fun c d head polls work hd hf hw hp hwork => h c d head polls work hd hf hw (List.Subset.trans hp hes) (List.Subset.trans hwork hes)

theorem pollAvail_kept {q' : VirtioQueue} {n : Nat} {es : List FabricEvent}
    (h : Begins (pollAvail q' n) es) :
    ∀ e ∈ es, IdxKept q e := by
  have hsat : (pollAvail q' n).Sat Harmless (fun _ => True) fun _ => True :=
    (pollAvail_sat (fun _ _ => trivial) q' (fun _ => trivial) n).mono fun _ _ => trivial
  exact fun e he => .inr fun x hx => absurd hx ((hsat.begins h e he).writes x)

theorem Preparing.kept_at {e : FabricEvent} (hd : DevAt i q c d) (h : Preparing (d.queue i) e) :
    IdxKept q e := by
  rw [hd.queue] at h
  exact h.kept

theorem Served.dropLast_events (s : Served P) : (s.events i).dropLast =
    s.polls ++ (s.work ++ (publish (s.after.queue i) s.head s.usedLen s.raw).dropLast) := by
  unfold Served.events
  rw [List.dropLast_append_of_ne_nil, List.dropLast_append_of_ne_nil]
  · exact List.cons_ne_nil _ _
  · simp [publish]

/-- In a round all but the last call leave the index alone. -/
theorem round_kept {s : Served P} {es : List FabricEvent} (hd : DevAt i q c s.dev)
    (ha : DevAt i q c s.after) (hf : Found i s.dev s.polls s.head)
    (hw : Emits (process s.dev s.head) s.work (.ok (s.after, some s.usedLen)))
    (hk : WorkKept i process q es) (hes : s.events i ⊆ es) :
    ∀ e ∈ (s.events i).dropLast, IdxKept q e := by
  have hpolls : s.polls ⊆ es := fun e he => hes (List.mem_append_left _ he)
  have hwork : s.work ⊆ es := fun e he => hes (List.mem_append_right _ (List.mem_append_left _ he))
  intro e he
  rw [Served.dropLast_events] at he
  rcases List.mem_append.1 he with he | he
  · exact pollAvail_kept hf.begins e he
  rcases List.mem_append.1 he with he | he
  · exact hk c s.dev s.head s.polls s.work hd hf hw.begins hpolls hwork e he
  · have hprep : Preparing (s.after.queue i) e := by
      simp only [publish, List.dropLast_cons_cons, List.dropLast_singleton, List.mem_cons, List.not_mem_nil, or_false] at he
      rcases he with rfl | rfl | rfl
      · exact .index _
      · exact .head _ _ _
      · exact .len _ _ _
    exact hprep.kept_at ha

/-- And its last call moves it. -/
theorem round_moves {W : Type} {R : Handler fabricSig W} {mem : W → Mem} (hR : GuestFabric R mem)
    {s : Served P} {w w' : W} (hd : DevAt i q c s.after) (ha : Answered R w (s.events i) w')
    (hs : ∀ e ∈ (s.events i).dropLast, IdxKept q e) : idxAt q (mem w') = idxAt q (mem w) + 1 := by
  rw [Served.dropLast_events] at hs
  obtain ⟨w₁, hpolls, ha⟩ := ha.split
  obtain ⟨w₂, hwork, hpub⟩ := ha.split
  have h1 := hR.idxAt_kept hpolls fun e he => hs e (List.mem_append_left _ he)
  have h2 := hR.idxAt_kept hwork fun e he => hs e (List.mem_append_right _ (List.mem_append_left _ he))
  rw [hd.queue] at hpub
  have h3 : idxAt q (mem w') = idxAt q (mem w₂) + 1 := publish_moves hR hpub
  rw [h3, h2, h1]

section
variable (hq : QuietHandler (fun _ => True) process)
include hq

theorem DevAt.handled {head : UInt16} {work : List FabricEvent} {d' : Device P} {r : Option UInt32}
    (hd : DevAt i q c d) (hw : Emits (process d head) work (.ok (d', r))) : DevAt i q c d' :=
  hd.of_vdev ((hq d head).emits hw).2

/-- The rounds move the cursor once each. -/
theorem Rounds.devAt (h : Rounds i process d ss d₁) (hd : DevAt i q c d) :
    DevAt i q (c + ss.length) d₁ := by
  induction h generalizing c with
  | nil d => exact hd
  | @cons s ss d _ hw _ ih =>
    have hnext := ih (hd.handled hq hw).advance
    rw [List.length_cons]
    rwa [Nat.add_assoc, Nat.add_comm 1] at hnext

theorem Rounds.kept {es : List FabricEvent} (h : Rounds i process d ss d₁) (hd : DevAt i q c d)
    (hk : WorkKept i process q es) (hes : ss.flatMap (Served.events i) ⊆ es) :
    ∀ s ∈ ss, ∀ e ∈ (s.events i).dropLast, IdxKept q e := by
  induction h generalizing c with
  | nil d => exact fun _ hs => absurd hs List.not_mem_nil
  | @cons s ss d hf hw _ ih =>
    have ha := hd.handled hq hw
    rw [List.flatMap_cons] at hes
    refine List.forall_mem_cons.2 ⟨?_, ih ha.advance fun e he => hes (List.mem_append_right _ he)⟩
    exact round_kept hd ha hf hw hk fun e he => hes (List.mem_append_left _ he)

/-- The rounds move the used index once each. -/
theorem Rounds.moves {W : Type} {R : Handler fabricSig W} {mem : W → Mem} (hR : GuestFabric R mem)
    {w w' : W} (h : Rounds i process d ss d₁) (hd : DevAt i q c d)
    (ha : Answered R w (ss.flatMap (Served.events i)) w')
    (hs : ∀ s ∈ ss, ∀ e ∈ (s.events i).dropLast, IdxKept q e) :
    idxAt q (mem w') = idxAt q (mem w) + UInt16.ofNat ss.length := by
  induction h generalizing c w with
  | nil d =>
    cases ha
    exact (UInt16.add_zero _).symm
  | @cons s ss d hf hw _ ih =>
    have hafter := hd.handled hq hw
    obtain ⟨hthis, hrest⟩ := List.forall_mem_cons.1 hs
    rw [List.flatMap_cons] at ha
    obtain ⟨w₁, hround, ha⟩ := ha.split
    have hlater := ih hafter.advance ha hrest
    have hstep := round_moves hR hafter hround hthis
    rw [hlater, hstep, List.length_cons, UInt16.add_assoc]
    congr 1
    rw [Nat.add_comm ss.length 1, UInt16.ofNat_add]
    rfl

theorem LoopTail.kept {tail : List FabricEvent} {o : Option (Device P)}
    (h : LoopTail i process d tail o) (hd : DevAt i q c d) (hk : WorkKept i process q tail) :
    ∀ e ∈ tail, IdxKept q e := by
  have hround : ∀ {polls work : List FabricEvent} {head : UInt16}, Found i d polls head → Begins (process d head) work →
      polls ⊆ tail → work ⊆ tail → ∀ e ∈ polls ++ work, IdxKept q e := by
    intro polls work head hf hw hp hwork e he
    rcases List.mem_append.1 he with he | he
    · exact pollAvail_kept hf.begins e he
    · exact hk c d head polls work hd hf hw hp hwork e he
  cases h with
  | polling h => exact pollAvail_kept h
  | idle h => exact pollAvail_kept h.begins
  | working hf hw => exact hround hf hw (List.subset_append_left _ _) (List.subset_append_right _ _)
  | refused hf hw => exact hround hf hw.begins (List.subset_append_left _ _) (List.subset_append_right _ _)
  | @unpublished polls work pub head d' usedLen _ hf hw hprep _ =>
    intro e he
    rw [← List.append_assoc] at he
    rcases List.mem_append.1 he with he | he
    · refine hround hf hw.begins (List.subset_append_left _ _) (fun e he => ?_) e he
      exact List.mem_append_right _ (List.mem_append_left _ he)
    · exact (hprep e he).kept_at (hd.handled hq hw)

/-- Wherever the loop returns, the cursor is where the rounds left it. -/
theorem LoopTail.devAt {tail : List FabricEvent} {d' : Device P}
    (h : LoopTail i process d tail (some d')) (hd : DevAt i q c d) : DevAt i q c d' := by
  cases h with
  | idle h => exact hd
  | refused hf hw => exact hd.handled hq hw
  | unpublished hf hw _ hr =>
    rw [hr d' rfl]
    exact hd.handled hq hw

end

/-- The calls `es` of a notification are whole rounds `ss` and the calls `rest`
of a round that is not over and of the interrupt. The last call of each round is the only
one that moves the used index, so the index has moved once for each of them,
and on a return the cursor has too. -/
structure PublishesLast {W : Type} (mem : W → Mem) (i : Nat)
    (process : Device P → UInt16 → FabricM (Device P × Option UInt32)) (d : Device P)
    (es : List FabricEvent) (o : Option (Device P × Bool)) (w w' : W) (ss : List (Served P))
    (rest : List FabricEvent) : Prop where
  calls : es = ss.flatMap (Served.events i) ++ rest
  served : ∃ d₁ tail d' irq, Rounds i process d ss d₁ ∧ rest = tail ++ irq ∧ LoopTail i process d₁ tail d' ∧
    ∀ e ∈ irq, ¬quiet e.1
  before : ∀ s ∈ ss, ∀ e ∈ (s.events i).dropLast, IdxKept (d.queue i) e
  after : ∀ e ∈ rest, IdxKept (d.queue i) e
  index : idxAt (d.queue i) (mem w') = idxAt (d.queue i) (mem w) + UInt16.ofNat ss.length
  cursor : ∀ r, o = some r → (r.1.queue i).lastAvailIdx = (d.queue i).lastAvailIdx + UInt16.ofNat ss.length

theorem irq_kept {e : FabricEvent} (h : ¬quiet e.1) : IdxKept q e := by
  refine .inr fun x hx => ?_
  obtain ⟨c, r⟩ := e
  cases c <;> first | exact hx.elim | exact absurd trivial h

section
variable {W : Type} {R : Handler fabricSig W} {mem : W → Mem} {es : List FabricEvent} {w w' : W}

theorem ackReturn_publishesLast (hR : GuestFabric R mem) {o : Option (Device P × Bool)}
    (h : Upto (do return (d, ← ackNotify d)) es o) (ha : Answered R w es w') :
    PublishesLast mem i process d es o w w' [] es := by
  have hack : Prog.Sat (S := fabricSig) (fun c => ¬quiet c) (fun _ : Fault => True) (fun r => r.1 = d)
      (do return (d, ← ackNotify d)) := ackReturn_sat (fun h => h) (fun h => h) d
  obtain ⟨hes, hd⟩ := hack.upto h
  have hkept : ∀ e ∈ es, IdxKept (d.queue i) e := fun e he => irq_kept (hes e he)
  refine ⟨rfl, ⟨d, [], none, es, .nil d, rfl, .polling (.start _), hes⟩, fun _ hs => absurd hs List.not_mem_nil, hkept, ?_, ?_⟩
  · rw [hR.idxAt_kept ha hkept]
    exact (UInt16.add_zero _).symm
  · intro r hr
    rw [hd r hr]
    exact (UInt16.add_zero _).symm

theorem serviceQueue_publishesLast (hq : QuietHandler (fun _ => True) process)
    (hR : GuestFabric R mem) {fuel : Nat} {o : Option (Device P × Bool)}
    (hex : i < d.vdev.queues.length) (h : Upto (serviceQueue i process fuel d) es o)
    (ha : Answered R w es w') (hk : WorkKept i process (d.queue i) es) :
    ∃ ss rest, PublishesLast mem i process d es o w w' ss rest := by
  obtain ⟨ss, d₁, tail, d', irq, hserves, rfl, htail, hirq, hret⟩ := serviceQueue_upto fuel h
  have hd : DevAt i (d.queue i) (d.queue i).lastAvailIdx.toNat d := by
    refine ⟨hex, ?_⟩
    rw [atCursor, UInt16.ofNat_toNat]
  have hd₁ := hserves.devAt hq hd
  have hbefore := hserves.kept hq hd hk (List.subset_append_left _ _)
  have htk : ∀ e ∈ tail, IdxKept (d.queue i) e := by
    refine htail.kept hq hd₁ (hk.mono fun e he => ?_)
    exact List.mem_append_right _ (List.mem_append_left _ he)
  have hafter : ∀ e ∈ tail ++ irq, IdxKept (d.queue i) e := by
    intro e he
    rcases List.mem_append.1 he with he | he
    · exact htk e he
    · exact irq_kept (hirq e he)
  obtain ⟨w₁, hrounds, hrest⟩ := ha.split
  refine ⟨ss, tail ++ irq, rfl, ⟨d₁, tail, d', irq, hserves, rfl, htail, hirq⟩, hbefore, hafter, ?_, fun r hr => ?_⟩
  · rw [hR.idxAt_kept hrest hafter, hserves.moves hq hR hd hrounds hbefore]
  · obtain ⟨d'', rfl, _, hqueues⟩ := hret r hr
    have hend := htail.devAt hq hd₁
    have hsame : r.1.queue i = d''.queue i := by rw [Device.queue, hqueues, Device.queue]
    rw [hsame, hend.queue]
    show UInt16.ofNat ((d.queue i).lastAvailIdx.toNat + ss.length) = _
    rw [UInt16.ofNat_add, UInt16.ofNat_toNat]

end

end

/-! ## The two devices -/

/-- A head that the device read in the available ring. -/
def HeadRead (q : VirtioQueue) (es : List FabricEvent) (head : UInt16) : Prop :=
  ∃ c raw, (⟨.dmaReadInto (availElem (atCursor q c)) 2, some raw⟩ : FabricEvent) ∈ es ∧ head = virtioLoadLe16 raw

/-- The buffers of the chains a run takes up are not over the used index. -/
def BuffersApart (q : VirtioQueue) (es : List FabricEvent) : Prop :=
  ∀ x, ChainByte q (HeadRead q es) es x → ¬IdxByte q x

theorem virtioNextAvail_head {q : VirtioQueue} {es : List FabricEvent} {head : UInt16}
    (h : Emits (virtioNextAvail q) es (.ok (some (some head)))) :
    ∃ raw, (⟨.dmaReadInto (availElem q) 2, some raw⟩ : FabricEvent) ∈ es ∧ head = virtioLoadLe16 raw := by
  obtain ⟨r, es₁, es₂, rfl, _, h⟩ := h.bind_inv
  cases r with
  | none => cases h
  | some availIdx =>
    dsimp only at h
    split at h
    · cases h
    split at h
    · cases h
    obtain ⟨r, es₂, es₃, rfl, h2, h⟩ := h.bind_inv
    obtain ⟨raw, rfl, rfl⟩ := fabricDmaReadU16_emits h2
    cases raw with
    | none => cases h
    | some raw =>
      cases h
      exact ⟨raw, by simp, rfl⟩

theorem pollAvail_head {q : VirtioQueue} {n : Nat} {es : List FabricEvent} {head : UInt16}
    (h : Emits (pollAvail q n) es (.ok (some (some head)))) :
    ∃ raw, (⟨.dmaReadInto (availElem q) 2, some raw⟩ : FabricEvent) ∈ es ∧ head = virtioLoadLe16 raw := by
  induction n generalizing es with
  | zero => exact virtioNextAvail_head h
  | succ n ih =>
    obtain ⟨r, es₁, es₂, rfl, h1, h2⟩ := h.bind_inv
    match r with
    | none => cases h2
    | some none =>
      obtain ⟨raw, hraw, hhead⟩ := ih h2
      exact ⟨raw, List.mem_append_right _ hraw, hhead⟩
    | some (some head') =>
      cases h2
      obtain ⟨raw, hraw, hhead⟩ := virtioNextAvail_head h1
      exact ⟨raw, List.mem_append_left _ hraw, hhead⟩

theorem BuffersApart.workKept {q : VirtioQueue} {es : List FabricEvent} (h : BuffersApart q es)
    (direct : Bool) (fuel : Nat) :
    WorkKept 0 (processChain direct fuel) q es := by
  intro c d head polls work hd hf hw hpolls hwork e he
  refine .inr fun x hx => h x ?_
  have hchain := processChain_writes hw e he x hx
  rw [hd.queue] at hchain
  refine hchain.of_cursor.trans (fun i hi => .head ?_) hwork
  subst hi
  obtain ⟨raw, hraw, hhead⟩ := pollAvail_head hf
  rw [hd.queue] at hraw
  exact ⟨c, raw, hpolls hraw, hhead⟩

theorem processTxChain_workKept (fuel : Nat) (q : VirtioQueue) (es : List FabricEvent) :
    WorkKept 1 (processTxChain fuel) q es := by
  intro c d head polls work _ _ hw _ _ e he
  have hsat : (processTxChain fuel d head).Sat Harmless (fun _ => True) fun _ => True :=
    Prog.Sat.bind (txLoop_harmless _ _ _ _) fun _ _ => Prog.Sat.ret trivial
  exact .inr fun x hx => absurd hx ((hsat.begins hw e he).writes x)

theorem queue_exists {d : Device P} {i : Nat} (h : (d.queue i).ready ≠ 0) :
    i < d.vdev.queues.length := by
  by_contra hn
  refine h ?_
  rw [Device.queue, List.getD_eq_getElem?_getD, List.getElem?_eq_none (Nat.le_of_not_lt hn)]
  rfl

/-- **A completion is published last.** At every point of every run of a notify
handler, whichever calls fail: the calls made so far are whole rounds, in each of
which the used index is stored after everything else done for its chain, and a
part of a round in which it is not stored. The index in guest memory has moved once for
each whole round; when the handler returns, with true or false, so has the cursor. -/
theorem published_last {W : Type} {R : Handler fabricSig W} {mem : W → Mem} (hR : GuestFabric R mem) :
    (∀ direct fuel (d : BlkdVirtioDevice) queue es o w w',
      Upto (blkdVirtioNotifyQueue direct fuel d queue) es o → Answered R w es w' → BuffersApart (d.queue 0) es →
        ∃ ss rest, PublishesLast mem 0 (processChain direct fuel) d es o w w' ss rest) ∧
    ∀ fuel (d : CondVirtioDevice) queue es o w w',
      Upto (condVirtioNotifyQueue fuel d queue) es o → Answered R w es w' →
        ∃ ss rest, PublishesLast mem 1 (processTxChain fuel) d es o w w' ss rest := by
  constructor
  · intro direct fuel d queue es o w w' h ha hapart
    unfold blkdVirtioNotifyQueue at h
    split at h
    · exact ⟨[], es, ackReturn_publishesLast hR h ha⟩
    next hserve =>
      have hready : (d.queue 0).ready ≠ 0 := fun h0 => hserve (.inr h0)
      exact serviceQueue_publishesLast (processChain_quiet direct trivial fuel) hR (queue_exists hready) h ha
        (hapart.workKept direct fuel)
  · intro fuel d queue es o w w' h ha
    unfold condVirtioNotifyQueue at h
    split at h
    · exact ⟨[], es, ackReturn_publishesLast hR h ha⟩
    split at h
    · exact ⟨[], es, ackReturn_publishesLast hR h ha⟩
    split at h
    · exact ⟨[], es, ackReturn_publishesLast hR h ha⟩
    next hcount hready hzero =>
      have hone : queue.toNat = 1 := by
        have hne : queue.toNat ≠ 0 := fun h0 => hzero (UInt32.toNat_inj.1 h0)
        simp only [condQueueCount] at hcount
        omega
      rw [hone] at h hready
      exact serviceQueue_publishesLast (processTxChain_quiet trivial fuel) hR (queue_exists hready) h ha
        (processTxChain_workKept fuel _ es)

/-! ## One request -/

/-- What the call was answered with, read as a descriptor, is not over the used index. -/
def answerApart (q : VirtioQueue) (e : FabricEvent) : Bool :=
  match e with
  | ⟨.dmaReadInto _ _, some raw⟩ =>
    let desc := decodeDesc raw
    decide (desc.addr.toNat + max 1 desc.len.toNat ≤ (q.used + 2).toNat ∨ (q.used + 2).toNat + 2 ≤ desc.addr.toNat)
  | _ => true

theorem BuffersApart.of_answers {q : VirtioQueue} {es : List FabricEvent}
    (h : es.all (answerApart q) = true) :
    BuffersApart q es := by
  intro x hx hi
  obtain ⟨idx, raw, _, hr, hx1, hx2⟩ := hx
  have hapart := of_decide_eq_true (List.all_eq_true.1 h _ hr)
  have hbound : (if (decodeDesc raw).hasNext then (decodeDesc raw).len.toNat else max 1 (decodeDesc raw).len.toNat) ≤
      max 1 (decodeDesc raw).len.toNat := by
    split <;> omega
  obtain ⟨hi1, hi2⟩ := hi
  omega

/-- Sector 0 is asked for: four bytes to 0x6000, the status to 0x5000. -/
def fourRead : List VirtioDesc := [⟨0x4000, 16, 1, 1⟩, ⟨0x6000, 4, 3, 2⟩, ⟨0x5000, 1, 2, 0⟩]

/-- The chain is available. -/
def fourRam : Ram := { tableRam fourRead with mem := writeBytes (tableRam fourRead).mem 0x2002 [1] }

def fourNotify : FabricM (BlkdVirtioDevice × Bool) :=
  blkdVirtioNotifyQueue false 8 (tableDisk 1024) 0

def fourDone : BlkdVirtioDevice where
  vdev := { (tableDisk 1024).vdev with queues := [⟨8, 1, 0x1000, 0x2000, 0x3000, 1⟩], interruptStatus := 1 }
  priv := ⟨⟨1024, false⟩, 2, [0, 0, 0, 0], 4⟩

/-- A read request is served: one round, the index 1, the cursor 1. -/
theorem published_last_read : ∃ es w', Emits fourNotify es (.ok (fourDone, true)) ∧
    Answered (answers (Ram.answer fun _ _ => false)) fourRam es w' ∧ idxAt ((tableDisk 1024).queue 0) w'.mem = 1 ∧
      ∃ ss rest, PublishesLast Ram.mem 0 (processChain false 8) (tableDisk 1024) es (some (fourDone, true)) fourRam w'
        ss rest := by
  have hrun : (fourNotify.run (S := fabricSig) (Ram.answer fun _ _ => false) fourRam).1 = .ok (fourDone, true) := by
    decide +kernel
  have hes := Emits.of_run (S := fabricSig) (Ram.answer fun _ _ => false) fourNotify fourRam
  rw [hrun] at hes
  have ha := events_answered (Ram.answer fun _ _ => false) fourNotify fourRam
  have hapart : BuffersApart ((tableDisk 1024).queue 0) (fourNotify.events (Ram.answer fun _ _ => false) fourRam) :=
    .of_answers (by decide +kernel)
  refine ⟨_, _, hes, ha, by decide +kernel, ?_⟩
  exact (published_last (ram_guestFabric fun _ _ => false)).1 false 8 (tableDisk 1024) 0 _ (some (fourDone, true)) _ _ hes ha
    hapart

end AcsVirt.L4
