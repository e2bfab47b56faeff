import AcsVirt.L4Device.ChainLog

/-!
# What a chain does to the image and to guest memory

`process_chain` reaches the image in three calls and guest memory in two. This
module reads a call of it off the calls it makes, with their answers (`Emits`),
so the facts hold whatever the fabric, the guest and the host answer, as long as
a read that succeeds fills its buffer (`ReadsFull`).

A data descriptor makes at most one image call, for the piece computed for it,
and stores only into itself (`StepFacts`). Over the walk this gives three
invariants, one on the image calls (`ImageInv`), one on the stores (`StoreInv`),
and one that says of an IN request that exactly the descriptors before the first
blocked one went through (`DoneInv`). `processChain_chainRun` says how a whole
call can go.
-/
namespace AcsVirt.L4

open L1 L2

abbrev FabricEvent := CallEvent fabricSig

/-! ## What a call asks for -/

/-- The piece of the image a call is about. -/
def imageOf : Call → Option (UInt64 × Nat)
  | .pread offset len => some (offset, len.toNat)
  | .preadMapped _ offset len => some (offset, len.toNat)
  | .pwrite offset data => some (offset, data.length)
  | _ => none

/-- The guest bytes a call may write. -/
def Writes : Call → Nat → Prop
  | .dmaWrite gpa data, x => gpa.toNat ≤ x ∧ x < gpa.toNat + data.length
  | .preadMapped gpa _ len, x => gpa.toNat ≤ x ∧ x < gpa.toNat + len.toNat
  | _, _ => False

/-- The number of guest bytes a call has stored, by its answer. -/
def storedBy (e : FabricEvent) : Nat :=
  match e with
  | ⟨.dmaWrite _ data, ok⟩ => if ok = true then data.length else 0
  | ⟨.preadMapped _ _ len, ok⟩ => if ok = true then len.toNat else 0
  | _ => 0

def imageCalls (es : List FabricEvent) : List (UInt64 × Nat) := es.filterMap fun e => imageOf e.1

def storedBytes : List FabricEvent → Nat
  | [] => 0
  | e :: es => storedBy e + storedBytes es

/-- How a transfer to the guest went, by the answer of the call that decides it:
the read into the mapping or the store of the data, or the allocation or the
read that failed before it. -/
def outcomeOf (e : FabricEvent) : Option Bool :=
  match e with
  | ⟨.preadMapped .., ok⟩ => some ok
  | ⟨.dmaWrite .., ok⟩ => some ok
  | ⟨.pread .., r⟩ => if r = none then some false else none
  | ⟨.realloc _, ok⟩ => if ok = true then none else some false
  | _ => none

def outcomes (es : List FabricEvent) : List Bool := es.filterMap outcomeOf

@[simp] theorem outcomes_append (es fs : List FabricEvent) :
    outcomes (es ++ fs) = outcomes es ++ outcomes fs := List.filterMap_append

/-- A read that succeeds fills the buffer it was given. -/
def ReadsFull (e : FabricEvent) : Prop :=
  match e with
  | ⟨.dmaReadInto _ len, r⟩ => ∀ bs : Bytes, r = some bs → bs.length = len.toNat
  | ⟨.pread _ len, r⟩ => ∀ bs : Bytes, r = some bs → bs.length = len.toNat
  | _ => True

@[simp] theorem imageCalls_append (es fs : List FabricEvent) :
    imageCalls (es ++ fs) = imageCalls es ++ imageCalls fs :=
  List.filterMap_append

@[simp] theorem storedBytes_append (es fs : List FabricEvent) :
    storedBytes (es ++ fs) = storedBytes es + storedBytes fs := by
  induction es with
  | nil => exact (Nat.zero_add _).symm
  | cons e es ih => rw [List.cons_append, storedBytes, storedBytes, ih, Nat.add_assoc]

/-- Neither the image nor guest memory is in it. -/
def Harmless : Call → Prop
  | .dmaWrite .. => False
  | .preadMapped .. => False
  | .pread .. => False
  | .pwrite .. => False
  | _ => True

theorem Harmless.imageOf {c : Call} (h : Harmless c) : imageOf c = none := by
  cases c <;> first | rfl | exact h.elim

theorem Harmless.writes {c : Call} (h : Harmless c) (x : Nat) : ¬Writes c x := by
  cases c <;> first | exact id | exact h.elim

theorem Harmless.stored {e : FabricEvent} (h : Harmless e.1) : storedBy e = 0 := by
  obtain ⟨c, r⟩ := e
  cases c <;> first | rfl | exact h.elim

/-- Harmless calls only. -/
def Silent (es : List FabricEvent) : Prop := ∀ e ∈ es, Harmless e.1

theorem Silent.imageCalls {es : List FabricEvent} (h : Silent es) : imageCalls es = [] :=
  List.filterMap_eq_nil_iff.2 fun e he => (h e he).imageOf

theorem Silent.stored {es : List FabricEvent} (h : Silent es) : storedBytes es = 0 := by
  induction es with
  | nil => rfl
  | cons e es ih =>
    obtain ⟨he, hes⟩ := List.forall_mem_cons.1 h
    rw [storedBytes, he.stored, ih hes]

theorem Silent.append {es fs : List FabricEvent} (h : Silent es) (h' : Silent fs) :
    Silent (es ++ fs) := by
  intro e he
  rcases List.mem_append.1 he with he | he
  · exact h e he
  · exact h' e he

theorem virtioReadDesc_silent {q : VirtioQueue} {index : UInt16} {es : List FabricEvent}
    {o : Except Fault (Option VirtioDesc)} (h : Emits (virtioReadDesc q index) es o) :
    Silent es := by
  have hsat : (virtioReadDesc q index).Sat Harmless (fun _ => True) fun _ => True :=
    virtioReadDesc_sat (fun _ _ => trivial) q index
  exact (hsat.emits h).1

/-- No answer of this call decides a transfer. -/
def Undecided : Call → Prop
  | .dmaWrite .. => False
  | .preadMapped .. => False
  | .pread .. => False
  | .realloc _ => False
  | _ => True

theorem outcomes_eq_nil {es : List FabricEvent} (h : ∀ e ∈ es, Undecided e.1) : outcomes es = [] := by
  refine List.filterMap_eq_nil_iff.2 fun ⟨c, r⟩ he => ?_
  have hc := h ⟨c, r⟩ he
  cases c <;> first | rfl | exact hc.elim

theorem virtioReadDesc_outcomes {q : VirtioQueue} {index : UInt16} {es : List FabricEvent}
    {o : Except Fault (Option VirtioDesc)} (h : Emits (virtioReadDesc q index) es o) :
    outcomes es = [] := by
  have hsat : (virtioReadDesc q index).Sat Undecided (fun _ => True) fun _ => True :=
    virtioReadDesc_sat (fun _ _ => trivial) q index
  exact outcomes_eq_nil (hsat.emits h).1

/-- A descriptor comes from one read of its slot. -/
theorem virtioReadDesc_emits {q : VirtioQueue} {index : UInt16} {desc : VirtioDesc}
    {es : List FabricEvent} (h : Emits (virtioReadDesc q index) es (.ok (some desc))) :
    ∃ raw, es = [⟨.dmaReadInto (descAddr q index) 16, some raw⟩] ∧ desc = decodeDesc raw := by
  obtain ⟨r, es₁, es₂, rfl, h1, h2⟩ := h.bind_inv
  have he := h1.perform_inv
  subst he
  cases r with
  | none => cases h2
  | some raw =>
    cases h2
    exact ⟨raw, rfl, rfl⟩

theorem ensureIoBuf_silent {s : BlkdState} {len : UInt32} {es : List FabricEvent}
    {o : Except Fault (Option BlkdState)} (h : Emits (ensureIoBuf s len) es o) : Silent es := by
  have hsat : (ensureIoBuf s len).Sat Harmless (fun _ => True) fun o => ∀ t, o = some t → SameDisk s t :=
    ensureIoBuf_sat trivial s
  exact (hsat.emits h).1

theorem ensureIoBuf_sameDisk {s : BlkdState} {len : UInt32} {es : List FabricEvent}
    {r : Option BlkdState} (h : Emits (ensureIoBuf s len) es (.ok r)) :
    ∀ t, r = some t → SameDisk s t := by
  have hsat : (ensureIoBuf s len).Sat quiet (fun _ => True) fun o => ∀ t, o = some t → SameDisk s t :=
    ensureIoBuf_sat trivial s
  exact (hsat.emits h).2

/-- The allocation of the buffer decides a transfer only when it fails. -/
theorem ensureIoBuf_outcomes {s : BlkdState} {len : UInt32} {es : List FabricEvent}
    {r : Option BlkdState} (h : Emits (ensureIoBuf s len) es (.ok r)) :
    outcomes es = if r = none then [false] else [] := by
  unfold ensureIoBuf at h
  split at h
  · obtain ⟨rfl, he⟩ := h.ret_inv
    cases he
    rfl
  · obtain ⟨ok, es₁, es₂, rfl, h₁, h₂⟩ := h.bind_inv
    obtain rfl := h₁.perform_inv
    cases ok with
    | true =>
      obtain ⟨rfl, he⟩ := h₂.ret_inv
      cases he
      rfl
    | false =>
      obtain ⟨rfl, he⟩ := h₂.ret_inv
      cases he
      rfl

theorem tryMap_outcomes {direct : Bool} {desc : VirtioDesc} {es : List FabricEvent}
    {o : Except Fault Bool} (h : Emits (tryMap direct desc) es o) : outcomes es = [] := by
  have hsat : (tryMap direct desc).Sat Undecided (fun _ => True) fun _ => True := tryMap_sat direct trivial
  exact outcomes_eq_nil (hsat.emits h).1

theorem tryMap_silent {direct : Bool} {desc : VirtioDesc} {es : List FabricEvent}
    {o : Except Fault Bool} (h : Emits (tryMap direct desc) es o) : Silent es := by
  have hsat : (tryMap direct desc).Sat Harmless (fun _ => True) fun _ => True := tryMap_sat direct trivial
  exact (hsat.emits h).1

/-! ## One data descriptor -/

/-- A request that moves data. -/
def Moves (req : ReqType) : Prop := req = .tIn ∨ req = .tOut

def WritableAt (desc : VirtioDesc) (x : Nat) : Prop :=
  desc.writable ∧ desc.addr.toNat ≤ x ∧ x < desc.addr.toNat + desc.len.toNat

/-- What an IN request does with a data descriptor, with the status before and
after it and the outcomes of its calls: it is stored, or something is wrong
with it, or with a descriptor before it. -/
inductive Judged (b : BlkdBlockBackend) (desc : VirtioDesc) (offset : UInt64) :
    BlkStatus → Option BlkStatus → List Bool → Prop
  | stored (hw : desc.writable = true) (hin : b.outside offset desc.len = false) :
      Judged b desc offset .ok (some .ok) [true]
  | refused {after : BlkStatus} {oks : List Bool} (hafter : after ≠ .ok)
      (hbad : desc.writable = false ∨ b.outside offset desc.len = true ∨ oks = [false]) :
      Judged b desc offset .ok (some after) oks
  | ended {before after : BlkStatus} (hbefore : before ≠ .ok) (hafter : after ≠ .ok) :
      Judged b desc offset before (some after) []

/-- An IN request does not give up on a descriptor. -/
theorem Judged.isSome {b : BlkdBlockBackend} {desc : VirtioDesc} {offset : UInt64} {before : BlkStatus}
    {after : Option BlkStatus} {oks : List Bool} (h : Judged b desc offset before after oks) : after ≠ none := by
  cases h <;> nofun

/-- What the calls `es` made for a data descriptor can be, with the status
before and after it (`none`: `process_chain` gave up). -/
structure StepFacts (b : BlkdBlockBackend) (req : ReqType) (desc : VirtioDesc) (offset : UInt64)
    (before : BlkStatus) (after : Option BlkStatus) (es : List FabricEvent) : Prop where
  /-- At most one piece of the image, the one the status was OK for. -/
  image : imageCalls es = [] ∨
    imageCalls es = [(offset, desc.len.toNat)] ∧ Moves req ∧ before = .ok ∧ b.outside offset desc.len = false
  /-- The status stays OK only with the transfer made. -/
  transferred : after = some .ok → Moves req → imageCalls es = [(offset, desc.len.toNat)]
  gaveUp : after = none → Silent es
  writes : ∀ e ∈ es, ∀ x, Writes e.1 x → WritableAt desc x
  stored : storedBytes es = if req = .tIn ∧ after = some .ok then desc.len.toNat else 0
  judged : req = .tIn → Judged b desc offset before after (outcomes es)

theorem StepFacts.silent {b : BlkdBlockBackend} {req : ReqType} {desc : VirtioDesc}
    {offset : UInt64} {before : BlkStatus} {after : Option BlkStatus} {es : List FabricEvent}
    (hes : Silent es) (hok : after = some .ok → ¬Moves req)
    (hj : req = .tIn → Judged b desc offset before after (outcomes es)) :
    StepFacts b req desc offset before after es where
  image := .inl hes.imageCalls
  transferred h hreq := absurd hreq (hok h)
  gaveUp _ := hes
  writes e he x hx := absurd hx ((hes e he).writes x)
  stored := by
    rw [hes.stored, if_neg]
    exact fun h => hok h.2 (.inl h.1)
  judged := hj

/-- Silent calls before the ones that count. -/
theorem StepFacts.after_silent {b : BlkdBlockBackend} {req : ReqType} {desc : VirtioDesc}
    {offset : UInt64} {before : BlkStatus} {after : Option BlkStatus} {es fs : List FabricEvent}
    (hes : Silent es) (hout : outcomes es = []) (h : StepFacts b req desc offset before after fs) :
    StepFacts b req desc offset before after (es ++ fs) where
  image := by
    rw [imageCalls_append, hes.imageCalls]
    exact h.image
  transferred ha hreq := by
    rw [imageCalls_append, hes.imageCalls]
    exact h.transferred ha hreq
  gaveUp ha := hes.append (h.gaveUp ha)
  writes e he x hx := by
    rcases List.mem_append.1 he with he | he
    · exact absurd hx ((hes e he).writes x)
    · exact h.writes e he x hx
  stored := by
    rw [storedBytes_append, hes.stored, Nat.zero_add]
    exact h.stored
  judged hreq := by
    rw [outcomes_append, hout]
    exact h.judged hreq

/-- The status a transfer leaves. -/
def statusOf (ok : Bool) : BlkStatus := if ok then .ok else .ioerr

section
variable {b : BlkdBlockBackend} {desc : VirtioDesc} {offset : UInt64} (hin : b.outside offset desc.len = false)
include hin

/-- A transfer that is made is judged by its outcome. -/
theorem Judged.of_outcome (hw : desc.writable = true) (ok : Bool) :
    Judged b desc offset .ok (some (statusOf ok)) [ok] := by
  cases ok with
  | true => exact .stored hw hin
  | false => exact .refused nofun (.inr (.inr rfl))

/-- The direct read. -/
theorem mapped_facts (hw : desc.writable) (ok : Bool) :
    StepFacts b .tIn desc offset .ok (some (statusOf ok)) [⟨.preadMapped desc.addr offset desc.len, ok⟩] where
  image := .inr ⟨rfl, .inl rfl, rfl, hin⟩
  transferred _ _ := rfl
  gaveUp := nofun
  writes e he x hx := by
    obtain rfl := List.mem_singleton.1 he
    exact ⟨hw, hx⟩
  stored := by cases ok <;> rfl
  judged _ := .of_outcome hin hw ok

/-- A read of the image that fails. -/
theorem unread_facts :
    StepFacts b .tIn desc offset .ok (some .ioerr) [⟨.pread offset desc.len, none⟩] where
  image := .inr ⟨rfl, .inl rfl, rfl, hin⟩
  transferred _ _ := rfl
  gaveUp := nofun
  writes e he x hx := by
    obtain rfl := List.mem_singleton.1 he
    exact hx.elim
  stored := rfl
  judged _ := .refused nofun (.inr (.inr rfl))

/-- A read of the image and the store of its data. -/
theorem buffered_facts (hw : desc.writable) {data : Bytes} (hlen : data.length = desc.len.toNat)
    (bs : Bytes) (ok : Bool) :
    StepFacts b .tIn desc offset .ok (some (statusOf ok)) [⟨.pread offset desc.len, some bs⟩, ⟨.dmaWrite desc.addr data, ok⟩] where
  image := .inr ⟨rfl, .inl rfl, rfl, hin⟩
  transferred _ _ := rfl
  gaveUp := nofun
  writes e he x hx := by
    rcases List.mem_cons.1 he with rfl | he
    · exact hx.elim
    · obtain rfl := List.mem_singleton.1 he
      have hx : desc.addr.toNat ≤ x ∧ x < desc.addr.toNat + data.length := hx
      rw [hlen] at hx
      exact ⟨hw, hx⟩
  stored := by
    cases ok with
    | true =>
      show 0 + (data.length + 0) = desc.len.toNat
      omega
    | false => rfl
  judged _ := .of_outcome hin hw ok

/-- The store of an OUT descriptor's data into the image. -/
theorem written_facts {data : Bytes} (hlen : data.length = desc.len.toNat) (ok : Bool) :
    StepFacts b .tOut desc offset .ok (some (statusOf ok)) [⟨.pwrite offset data, ok⟩] := by
  have himage : imageCalls [(⟨.pwrite offset data, ok⟩ : FabricEvent)] = [(offset, desc.len.toNat)] := by
    rw [← hlen]
    rfl
  refine ⟨.inr ⟨himage, .inr rfl, rfl, hin⟩, fun _ _ => himage, nofun, fun e he x hx => ?_, rfl, nofun⟩
  obtain rfl := List.mem_singleton.1 he
  exact hx.elim

end

/-- How a transfer's status is handed on. -/
theorem transfer_end {α : Type} (f : BlkStatus → α) {s s' : BlkdState} {ok : Bool} {r : α}
    {es : List FabricEvent}
    (h : Emits (if ok = true then pure (s, f .ok) else pure (s, f .ioerr) : FabricM _) es (.ok (s', r))) :
    es = [] ∧ r = f (statusOf ok) := by
  cases ok with
  | true =>
    obtain ⟨rfl, he⟩ := h.ret_inv
    cases he
    exact ⟨rfl, rfl⟩
  | false =>
    obtain ⟨rfl, he⟩ := h.ret_inv
    cases he
    exact ⟨rfl, rfl⟩

theorem readData_facts {direct : Bool} {s s' : BlkdState} {desc : VirtioDesc} {offset : UInt64}
    {status : BlkStatus} {es : List FabricEvent}
    (h : Emits (readData direct s desc offset) es (.ok (s', status))) (hsz : ∀ e ∈ es, ReadsFull e)
    (hw : desc.writable) : StepFacts s.backend .tIn desc offset .ok (some status) es := by
  have hnil : Silent [] := nofun
  have hioerr : (some BlkStatus.ioerr = some .ok) → ¬Moves .tIn := fun he => by cases he
  obtain ⟨mapped, es₁, es₂, rfl, hmap, h₂⟩ := h.bind_inv
  refine .after_silent (tryMap_silent hmap) (tryMap_outcomes hmap) ?_
  cases mapped with
  | true =>
    obtain ⟨ok, es₂, es₃, rfl, hread, h₃⟩ := h₂.bind_inv
    unfold blkdBlockReadMapped at hread
    split at hread
    next hout =>
      obtain ⟨rfl, rfl⟩ := hread.ret_inv
      obtain ⟨rfl, rfl⟩ := transfer_end id h₃
      exact .silent hnil hioerr fun _ => .refused nofun (.inr (.inl hout))
    next hin =>
      obtain rfl := hread.perform_inv
      obtain ⟨rfl, rfl⟩ := transfer_end id h₃
      exact mapped_facts (Bool.eq_false_iff.2 hin) hw ok
  | false =>
    obtain ⟨r, es₂, es₃, rfl, hbuf, h₃⟩ := h₂.bind_inv
    have hdisk := ensureIoBuf_sameDisk hbuf
    have hout := ensureIoBuf_outcomes hbuf
    cases r with
    | none =>
      obtain ⟨rfl, he⟩ := h₃.ret_inv
      cases he
      rw [List.append_nil]
      exact .silent (ensureIoBuf_silent hbuf) hioerr fun _ => .refused nofun (.inr (.inr hout))
    | some t =>
      refine .after_silent (ensureIoBuf_silent hbuf) hout ?_
      obtain ⟨r, es₃, es₄, rfl, hread, h₄⟩ := h₃.bind_inv
      rw [(hdisk t rfl).backend]
      unfold blkdBlockRead at hread
      split at hread
      next houtside =>
        obtain ⟨rfl, rfl⟩ := hread.ret_inv
        obtain ⟨rfl, he⟩ := h₄.ret_inv
        cases he
        exact .silent hnil hioerr fun _ => .refused nofun (.inr (.inl houtside))
      next hin =>
        have hin := Bool.eq_false_iff.2 hin
        obtain rfl := hread.perform_inv
        cases r with
        | none =>
          obtain ⟨rfl, he⟩ := h₄.ret_inv
          cases he
          exact unread_facts hin
        | some bs =>
          have hlen : bs.length = desc.len.toNat := hsz ⟨.pread offset desc.len, some bs⟩ (by simp) bs rfl
          obtain ⟨ok, es₄, es₅, rfl, hstore, h₅⟩ := h₄.bind_inv
          obtain rfl := hstore.perform_inv
          obtain ⟨rfl, rfl⟩ := transfer_end id h₅
          refine buffered_facts hin hw ?_ bs ok
          rw [BlkdState.fill_take t hlen]
          exact hlen

theorem writeData_facts {s s' : BlkdState} {desc : VirtioDesc} {offset : UInt64}
    {after : Option BlkStatus} {es : List FabricEvent}
    (h : Emits (writeData s desc offset) es (.ok (s', after))) (hsz : ∀ e ∈ es, ReadsFull e) :
    StepFacts s.backend .tOut desc offset .ok after es := by
  have hnil : Silent [] := nofun
  obtain ⟨r, es₁, es₂, rfl, hbuf, h₂⟩ := h.bind_inv
  have hdisk := ensureIoBuf_sameDisk hbuf
  have hout := ensureIoBuf_outcomes hbuf
  cases r with
  | none =>
    obtain ⟨rfl, he⟩ := h₂.ret_inv
    cases he
    rw [List.append_nil]
    exact .silent (ensureIoBuf_silent hbuf) nofun nofun
  | some t =>
    refine .after_silent (ensureIoBuf_silent hbuf) hout ?_
    obtain ⟨r, es₂, es₃, rfl, hread, h₃⟩ := h₂.bind_inv
    obtain rfl := hread.perform_inv
    refine .after_silent (fun e he => ?_) rfl ?_
    · obtain rfl := List.mem_singleton.1 he
      trivial
    cases r with
    | none =>
      obtain ⟨rfl, he⟩ := h₃.ret_inv
      cases he
      exact .silent hnil nofun nofun
    | some bs =>
      have hlen : bs.length = desc.len.toNat := hsz ⟨.dmaReadInto desc.addr desc.len, some bs⟩ (by simp) bs rfl
      obtain ⟨ok, es₃, es₄, rfl, hstore, h₄⟩ := h₃.bind_inv
      rw [(hdisk t rfl).backend]
      obtain ⟨rfl, rfl⟩ := transfer_end some h₄
      rw [List.append_nil]
      unfold blkdBlockWrite at hstore
      split at hstore
      · obtain ⟨rfl, rfl⟩ := hstore.ret_inv
        exact .silent hnil nofun nofun
      next hin =>
        obtain rfl := hstore.perform_inv
        have hin : t.backend.outside offset desc.len = false := by
          have hor := Bool.eq_false_iff.2 hin
          exact (Bool.or_eq_false_iff.1 hor).2
        refine written_facts hin ?_ ok
        rw [BlkdState.fill_take t hlen]
        exact hlen

theorem dataStep_facts {direct : Bool} {req : ReqType} {s s' : BlkdState} {desc : VirtioDesc}
    {offset : UInt64} {before : BlkStatus} {after : Option BlkStatus} {es : List FabricEvent}
    (h : Emits (dataStep direct req s desc offset before) es (.ok (s', after)))
    (hsz : ∀ e ∈ es, ReadsFull e) :
    StepFacts s.backend req desc offset before after es := by
  have hnil : Silent [] := nofun
  cases req with
  | tIn =>
    unfold dataStep at h
    dsimp only at h
    split at h
    next hw =>
      have hw : desc.writable = false := by simpa using hw
      obtain ⟨rfl, he⟩ := h.ret_inv
      cases he
      refine .silent hnil nofun fun _ => ?_
      by_cases hok : before = .ok
      · rw [hok]
        exact .refused nofun (.inl hw)
      · exact .ended hok nofun
    next hw =>
      have hw : desc.writable := by simpa using hw
      split at h
      next hok =>
        obtain ⟨⟨s₁, status⟩, es₁, es₂, rfl, hread, h₂⟩ := h.bind_inv
        obtain ⟨rfl, he⟩ := h₂.ret_inv
        cases he
        rw [List.append_nil] at hsz ⊢
        rw [hok]
        exact readData_facts hread hsz hw
      next hok =>
        obtain ⟨rfl, he⟩ := h.ret_inv
        cases he
        exact .silent hnil (fun he => absurd (Option.some.inj he) hok) fun _ => .ended hok hok
  | tOut =>
    unfold dataStep at h
    dsimp only at h
    split at h
    · obtain ⟨rfl, he⟩ := h.ret_inv
      cases he
      exact .silent hnil nofun nofun
    · split at h
      next hok =>
        rw [hok]
        exact writeData_facts h hsz
      next hok =>
        obtain ⟨rfl, he⟩ := h.ret_inv
        cases he
        exact .silent hnil (fun he => absurd (Option.some.inj he) hok) nofun
  | tFlush =>
    obtain ⟨rfl, he⟩ := Emits.ret_inv h
    cases he
    exact .silent hnil (fun _ hreq => by rcases hreq with hreq | hreq <;> cases hreq) nofun
  | other =>
    obtain ⟨rfl, he⟩ := Emits.ret_inv h
    cases he
    exact .silent hnil (fun _ hreq => by rcases hreq with hreq | hreq <;> cases hreq) nofun

/-! ## The walk -/

def totalLen (ts : List Turn) : Nat := total (ts.map Turn.desc)

@[simp] theorem totalLen_nil : totalLen [] = 0 := rfl

@[simp] theorem totalLen_cons (t : Turn) (ts : List Turn) : totalLen (t :: ts) = t.desc.len.toNat + totalLen ts := rfl

@[simp] theorem totalLen_append (ts us : List Turn) : totalLen (ts ++ us) = totalLen ts + totalLen us := by
  rw [totalLen, List.map_append, total_append]
  rfl

/-- The piece of the image the code computes for a data descriptor. -/
def Turn.piece (t : Turn) : UInt64 × Nat := (t.imageOffset, t.desc.len.toNat)

/-- The data went through. -/
def Turn.done (t : Turn) : Bool := t.status == .ok

/-- The `k`-th data descriptor of an IN request that reads from `offset` cannot
be stored: it is not device-writable, its piece is outside the image, or the
transfer failed. The `k`-th outcome is that of the `k`-th descriptor as long as
those before it are stored. -/
def blocked (b : BlkdBlockBackend) (offset : UInt64) (ds : List VirtioDesc) (oks : List Bool) (k : Nat) : Bool :=
  match ds[k]? with
  | none => false
  | some desc =>
    !desc.writable || b.outside (offset + (UInt32.ofNat (total (ds.take k))).toUInt64) desc.len ||
      oks[k]? == some false

/-- The first such descriptor, or the number of them all. -/
def firstBlocked (b : BlkdBlockBackend) (offset : UInt64) (ds : List VirtioDesc) (oks : List Bool) : Nat :=
  (List.range ds.length).findIdx (blocked b offset ds oks)

/-- How many data descriptors of an IN request for `sector` are stored. -/
def storedCount (b : BlkdBlockBackend) (sector : UInt64) (ds : List VirtioDesc) (oks : List Bool) : Nat :=
  if startStatus .tIn sector = .ok then firstBlocked b (startOffset sector) ds oks else 0

section
variable {b : BlkdBlockBackend} {offset : UInt64} {ds : List VirtioDesc} {oks : List Bool}

theorem firstBlocked_le : firstBlocked b offset ds oks ≤ ds.length :=
  Nat.le_trans List.findIdx_le_length (Nat.le_of_eq List.length_range)

theorem blocked_of_lt {k : Nat} (hk : k < firstBlocked b offset ds oks) :
    blocked b offset ds oks k = false := by
  have h := List.not_of_lt_findIdx hk
  rwa [List.getElem_range] at h

theorem blocked_firstBlocked (h : firstBlocked b offset ds oks < ds.length) :
    blocked b offset ds oks (firstBlocked b offset ds oks) = true := by
  have h : (List.range ds.length).findIdx (blocked b offset ds oks) < (List.range ds.length).length := by
    rw [List.length_range]
    exact h
  have hat := List.findIdx_getElem (w := h)
  rwa [List.getElem_range] at hat

theorem firstBlocked_eq {n : Nat} (hn : n ≤ ds.length) (hlt : ∀ k < n, blocked b offset ds oks k = false)
    (hat : n < ds.length → blocked b offset ds oks n = true) : firstBlocked b offset ds oks = n := by
  rcases Nat.lt_trichotomy (firstBlocked b offset ds oks) n with h | h | h
  · exact absurd (blocked_firstBlocked (Nat.lt_of_lt_of_le h hn)) (by rw [hlt _ h]; decide)
  · exact h
  · exact absurd (hat (Nat.lt_of_lt_of_le h firstBlocked_le)) (by rw [blocked_of_lt h]; decide)

/-- One more descriptor and its outcomes, seen from the descriptors before it. -/
theorem blocked_append {desc : VirtioDesc} {rest : List Bool} {k : Nat} (hk : k < ds.length)
    (hoks : rest = [] ∨ oks.length = ds.length) :
    blocked b offset (ds ++ [desc]) (oks ++ rest) k = blocked b offset ds oks k := by
  have hrest : (oks ++ rest)[k]? = oks[k]? := by
    rcases hoks with rfl | hlen
    · rw [List.append_nil]
    · exact List.getElem?_append_left (hlen ▸ hk)
  rw [blocked, blocked, List.getElem?_append_left hk, List.take_append_of_le_length (Nat.le_of_lt hk), hrest]

theorem blocked_last {desc : VirtioDesc} :
    blocked b offset (ds ++ [desc]) oks ds.length =
      (!desc.writable || b.outside (offset + (UInt32.ofNat (total ds)).toUInt64) desc.len ||
        oks[ds.length]? == some false) := by
  rw [blocked, List.getElem?_concat_length, List.take_left]

/-- All descriptors before the last are clear: it is the last that decides. -/
theorem firstBlocked_snoc {desc : VirtioDesc} {rest : List Bool} (h : firstBlocked b offset ds oks = ds.length)
    (hoks : oks.length = ds.length) :
    firstBlocked b offset (ds ++ [desc]) (oks ++ rest) =
      if blocked b offset (ds ++ [desc]) (oks ++ rest) ds.length then ds.length else ds.length + 1 := by
  have hlen : (ds ++ [desc]).length = ds.length + 1 := List.length_append
  have hclear : ∀ k < ds.length, blocked b offset (ds ++ [desc]) (oks ++ rest) k = false := fun k hk => by
    rw [blocked_append hk (.inr hoks)]
    exact blocked_of_lt (h.symm ▸ hk)
  split
  next hlast => exact firstBlocked_eq (by omega) hclear fun _ => hlast
  next hlast =>
    refine firstBlocked_eq (by omega) (fun k hk => ?_) (by omega)
    rcases Nat.lt_succ_iff_lt_or_eq.1 hk with hk | rfl
    · exact hclear k hk
    · exact Bool.eq_false_iff.2 hlast

theorem firstBlocked_snoc_of_lt {desc : VirtioDesc} (h : firstBlocked b offset ds oks < ds.length) :
    firstBlocked b offset (ds ++ [desc]) oks = firstBlocked b offset ds oks := by
  have hsame : ∀ k < ds.length, blocked b offset (ds ++ [desc]) oks k = blocked b offset ds oks k := fun k hk => by
    have hsame : blocked b offset (ds ++ [desc]) (oks ++ []) k = blocked b offset ds oks k :=
      blocked_append hk (.inl rfl)
    rwa [List.append_nil] at hsame
  refine firstBlocked_eq (by rw [List.length_append]; omega) (fun k hk => ?_) fun _ => ?_
  · rw [hsame k (by omega)]
    exact blocked_of_lt hk
  · rw [hsame _ h]
    exact blocked_firstBlocked h

end

/-- What the log of an IN request says of the descriptors that went through,
with the calls `es` made so far from status `start`. -/
structure DoneInv (b : BlkdBlockBackend) (offset : UInt64) (start : BlkStatus) (es : List FabricEvent)
    (s : WalkState) : Prop where
  started : s.status = .ok → start = .ok
  answered : s.status = .ok → (outcomes es).length = s.turns.length
  whole : start = .ok → (s.status = .ok ↔ firstBlocked b offset (s.turns.map Turn.desc) (outcomes es) = s.turns.length)
  done : ∀ k t, s.turns[k]? = some t →
    (t.done = true ↔ start = .ok ∧ k < firstBlocked b offset (s.turns.map Turn.desc) (outcomes es))

/-- What the log says of the offsets computed and of the image calls among
`es`, the calls made so far from status `start`. -/
structure ImageInv (b : BlkdBlockBackend) (req : ReqType) (offset : UInt64) (start : BlkStatus)
    (es : List FabricEvent) (s : WalkState) : Prop where
  fresh : s.turns = [] → s.status = start
  /-- The accumulator is 32 bits wide. -/
  dataLen : Moves req → s.dataLen.toNat = totalLen s.turns % 2 ^ 32
  offsets : Moves req → ∀ k t, s.turns[k]? = some t →
    t.imageOffset = offset + (UInt32.ofNat (totalLen (s.turns.take k))).toUInt64
  /-- The image is accessed for the first descriptors, for all of them while
  the status is OK. -/
  pieces : imageCalls es <+: s.turns.map Turn.piece
  whole : Moves req → s.status = .ok → imageCalls es = s.turns.map Turn.piece
  inside : ∀ k t, k < (imageCalls es).length → s.turns[k]? = some t → b.outside t.imageOffset t.desc.len = false
  started : imageCalls es ≠ [] → start = .ok

/-- What the log says of the stores among `es`. -/
structure StoreInv (req : ReqType) (es : List FabricEvent) (s : WalkState) : Prop where
  writes : ∀ e ∈ es, ∀ x, Writes e.1 x → ∃ t ∈ s.turns, WritableAt t.desc x
  stored : storedBytes es = if req = .tIn then totalLen (s.turns.filter Turn.done) else 0

section
variable {b : BlkdBlockBackend} {req : ReqType} {offset : UInt64} {start : BlkStatus} {es fs : List FabricEvent} {s : WalkState}

theorem ImageInv.init (d : BlkdVirtioDevice) (headerDesc : VirtioDesc) (req : ReqType)
    (sector : UInt64) :
    ImageInv d.priv.backend req (startOffset sector) (startStatus req sector) [] (startWalk d headerDesc req sector) where
  fresh _ := rfl
  dataLen _ := rfl
  offsets := nofun
  pieces := List.nil_prefix
  whole _ _ := rfl
  inside := nofun
  started := nofun

theorem StoreInv.init (d : BlkdVirtioDevice) (headerDesc : VirtioDesc) (req : ReqType)
    (sector : UInt64) :
    StoreInv req [] (startWalk d headerDesc req sector) where
  writes := nofun
  stored := by split <;> rfl

theorem DoneInv.init (d : BlkdVirtioDevice) (headerDesc : VirtioDesc) (req : ReqType)
    (sector : UInt64) :
    DoneInv d.priv.backend (startOffset sector) (startStatus req sector) [] (startWalk d headerDesc req sector) where
  started := id
  answered _ := rfl
  whole h := iff_of_true h rfl
  done := nofun

/-- Calls that touch neither the image nor guest memory. -/
theorem ImageInv.silent (h : ImageInv b req offset start es s) (hfs : Silent fs) (disk : BlkdState)
    (reads : List UInt16) :
    ImageInv b req offset start (es ++ fs) { s with disk, reads } := by
  have hsame : imageCalls (es ++ fs) = imageCalls es := by rw [imageCalls_append, hfs.imageCalls, List.append_nil]
  exact ⟨h.fresh, h.dataLen, h.offsets, hsame ▸ h.pieces, hsame ▸ h.whole, hsame ▸ h.inside, hsame ▸ h.started⟩

theorem StoreInv.silent (h : StoreInv req es s) (hfs : Silent fs) (disk : BlkdState)
    (reads : List UInt16) :
    StoreInv req (es ++ fs) { s with disk, reads } where
  writes e he x hx := by
    rcases List.mem_append.1 he with he | he
    · exact h.writes e he x hx
    · exact absurd hx ((hfs e he).writes x)
  stored := by
    rw [storedBytes_append, hfs.stored]
    exact h.stored

theorem DoneInv.undecided (h : DoneInv b offset start es s) (hfs : outcomes fs = []) (disk : BlkdState)
    (reads : List UInt16) :
    DoneInv b offset start (es ++ fs) { s with disk, reads } := by
  have hsame : outcomes (es ++ fs) = outcomes es := by rw [outcomes_append, hfs, List.append_nil]
  exact ⟨h.started, hsame ▸ h.answered, hsame ▸ h.whole, hsame ▸ h.done⟩

/-- A turn of the longer log. -/
theorem next_turn {desc : VirtioDesc} {disk : BlkdState} {status : BlkStatus} {k : Nat} {t : Turn}
    (ht : (s.next req offset desc disk status).turns[k]? = some t) :
    (k < s.turns.length ∧ s.turns[k]? = some t) ∨
      (k = s.turns.length ∧ t = ⟨desc, offset + s.dataLen.toUInt64, status⟩) := getElem?_snoc ht

section
variable {desc : VirtioDesc} {disk : BlkdState} {status : BlkStatus}
  (hstep : StepFacts b req desc (offset + s.dataLen.toUInt64) s.status (some status) fs)
include hstep

/-- The image calls of one more turn: either none, or its piece after those of
all turns before it. -/
theorem ImageInv.next_pieces (h : ImageInv b req offset start es s) :
    imageCalls (es ++ fs) = imageCalls es ∨
    imageCalls (es ++ fs) = s.turns.map Turn.piece ++ [(offset + s.dataLen.toUInt64, desc.len.toNat)] ∧
      s.status = .ok ∧ Moves req ∧ b.outside (offset + s.dataLen.toUInt64) desc.len = false := by
  rw [imageCalls_append]
  rcases hstep.image with hnil | ⟨hone, hm, hok, hin⟩
  · rw [hnil, List.append_nil]
    exact .inl rfl
  · rw [hone, h.whole hm hok]
    exact .inr ⟨rfl, hok, hm, hin⟩

/-- One time round the loop. -/
theorem ImageInv.next (h : ImageInv b req offset start es s) :
    ImageInv b req offset start (es ++ fs) (s.next req offset desc disk status) := by
  have hnext := h.next_pieces hstep
  have hmap : (s.next req offset desc disk status).turns.map Turn.piece =
      s.turns.map Turn.piece ++ [(offset + s.dataLen.toUInt64, desc.len.toNat)] := List.map_append
  have hle : (imageCalls es).length ≤ s.turns.length := by
    rw [← List.length_map (f := Turn.piece)]
    exact h.pieces.length_le
  refine ⟨fun he => absurd he (by simp [WalkState.next]), fun hm => ?_, fun hm k t ht => ?_, ?_, fun hm hok => ?_,
    fun k t hk ht => ?_, fun hne => ?_⟩
  · show (addLen req s.dataLen desc.len).toNat = totalLen (s.turns ++ [_]) % 2 ^ 32
    rw [addLen_toNat_mod hm, h.dataLen hm, totalLen_append]
    show _ = (totalLen s.turns + (desc.len.toNat + 0)) % 2 ^ 32
    omega
  · have htaken : ∀ k ≤ s.turns.length, (s.next req offset desc disk status).turns.take k = s.turns.take k :=
      fun k hk => List.take_append_of_le_length hk
    rcases next_turn ht with ⟨hk, ht⟩ | ⟨rfl, rfl⟩
    · rw [htaken k (Nat.le_of_lt hk)]
      exact h.offsets hm k t ht
    · have hlen : s.dataLen = UInt32.ofNat (totalLen s.turns) := by
        apply UInt32.toNat_inj.mp
        rw [h.dataLen hm, UInt32.toNat_ofNat']
      rw [htaken _ (Nat.le_refl _), List.take_length, ← hlen]
  · rw [hmap]
    rcases hnext with hsame | ⟨hall, -⟩
    · rw [hsame]
      exact h.pieces.trans (List.prefix_append ..)
    · exact hall ▸ List.prefix_rfl
  · have hone := hstep.transferred (congrArg some hok) hm
    rcases hnext with hsame | ⟨hall, -⟩
    · rw [imageCalls_append, hone] at hsame
      simp at hsame
    · rw [hall, hmap]
  · rcases hnext with hsame | ⟨hall, hok, hm, hin⟩
    · rw [hsame] at hk
      rcases next_turn ht with ⟨-, ht⟩ | ⟨rfl, -⟩
      · exact h.inside k t hk ht
      · omega
    · rcases next_turn ht with ⟨hk', ht⟩ | ⟨-, rfl⟩
      · refine h.inside k t ?_ ht
        rw [h.whole hm hok, List.length_map]
        exact hk'
      · exact hin
  · rcases hnext with hsame | ⟨-, hok, hm, -⟩
    · exact h.started (hsame ▸ hne)
    · by_cases hturns : s.turns = []
      · exact h.fresh hturns ▸ hok
      · exact h.started fun hnil => hturns (List.map_eq_nil_iff.1 ((h.whole hm hok).symm.trans hnil))

/-- The first blocked descriptor is among those walked, or the next one is
looked at. -/
theorem DoneInv.next (hreq : req = .tIn) (hi : ImageInv b req offset start es s)
    (h : DoneInv b offset start es s) :
    DoneInv b offset start (es ++ fs) (s.next req offset desc disk status) := by
  have hlen : s.dataLen = UInt32.ofNat (total (s.turns.map Turn.desc)) := by
    apply UInt32.toNat_inj.mp
    rw [hi.dataLen (.inl hreq), UInt32.toNat_ofNat']
    rfl
  have hmap : (s.next req offset desc disk status).turns.map Turn.desc = s.turns.map Turn.desc ++ [desc] :=
    List.map_append
  have hmore : (s.next req offset desc disk status).turns.length = s.turns.length + 1 := List.length_append
  have hds : (s.turns.map Turn.desc).length = s.turns.length := List.length_map _
  have hj := hstep.judged hreq
  rw [hlen] at hj
  generalize hout : outcomes fs = rest at hj
  generalize hbefore : s.status = before at hj
  have houts : outcomes (es ++ fs) = outcomes es ++ rest := by rw [outcomes_append, hout]
  cases hj with
  | stored hw hin =>
    have hstart := h.started hbefore
    have hall := ((h.whole hstart).1 hbefore).trans hds.symm
    have hoks := (h.answered hbefore).trans hds.symm
    have hnext : firstBlocked b offset (s.turns.map Turn.desc ++ [desc]) (outcomes es ++ [true]) = s.turns.length + 1 := by
      rw [firstBlocked_snoc hall hoks, blocked_last, ← hoks, hw, hin, List.getElem?_concat_length, hoks, hds]
      rfl
    refine ⟨fun _ => hstart, fun _ => ?_, fun _ => iff_of_true rfl ?_, fun k t ht => ?_⟩
    · rw [houts, hmore, List.length_append, h.answered hbefore]
      rfl
    · rw [houts, hmap, hmore, hnext]
    · rw [houts, hmap, hnext]
      rcases next_turn ht with ⟨hk, ht⟩ | ⟨rfl, rfl⟩
      · have hdone := (h.done k t ht).2 ⟨hstart, by omega⟩
        exact iff_of_true hdone ⟨hstart, by omega⟩
      · exact iff_of_true rfl ⟨hstart, by omega⟩
  | refused hafter hbad =>
    have hstart := h.started hbefore
    have hall := ((h.whole hstart).1 hbefore).trans hds.symm
    have hoks := (h.answered hbefore).trans hds.symm
    have hnext : firstBlocked b offset (s.turns.map Turn.desc ++ [desc]) (outcomes es ++ rest) = s.turns.length := by
      rw [firstBlocked_snoc hall hoks, blocked_last, if_pos, hds]
      rcases hbad with hw | hin | rfl
      · simp [hw]
      · simp [hin]
      · simp [← hoks]
    refine ⟨fun hok => absurd hok hafter, fun hok => absurd hok hafter, fun _ => iff_of_false hafter ?_, fun k t ht => ?_⟩
    · rw [houts, hmap, hmore, hnext]
      omega
    · rw [houts, hmap, hnext]
      rcases next_turn ht with ⟨hk, ht⟩ | ⟨rfl, rfl⟩
      · rw [h.done k t ht, hall, hds]
      · exact iff_of_false (by simpa [Turn.done] using hafter) fun hc => Nat.lt_irrefl _ hc.2
  | ended hbad hafter =>
    have hnext : start = .ok → firstBlocked b offset (s.turns.map Turn.desc ++ [desc]) (outcomes es ++ []) =
        firstBlocked b offset (s.turns.map Turn.desc) (outcomes es) ∧
        firstBlocked b offset (s.turns.map Turn.desc) (outcomes es) < s.turns.length := by
      intro hstart
      have hne : firstBlocked b offset (s.turns.map Turn.desc) (outcomes es) ≠ s.turns.length :=
        fun he => hbad (hbefore.symm.trans ((h.whole hstart).2 he))
      have hle : firstBlocked b offset (s.turns.map Turn.desc) (outcomes es) ≤ (s.turns.map Turn.desc).length :=
        firstBlocked_le
      have hlt : firstBlocked b offset (s.turns.map Turn.desc) (outcomes es) < (s.turns.map Turn.desc).length := by omega
      rw [List.append_nil]
      exact ⟨firstBlocked_snoc_of_lt hlt, by omega⟩
    refine ⟨fun hok => absurd hok hafter, fun hok => absurd hok hafter, fun hstart => iff_of_false hafter ?_, fun k t ht => ?_⟩
    · rw [houts, hmap, hmore]
      have hn := hnext hstart
      omega
    · rw [houts, hmap]
      rcases next_turn ht with ⟨hk, ht⟩ | ⟨rfl, rfl⟩
      · rw [h.done k t ht]
        exact and_congr_right fun hstart => by rw [(hnext hstart).1]
      · refine iff_of_false (by simpa [Turn.done] using hafter) fun hc => ?_
        have hn := hnext hc.1
        omega

theorem StoreInv.next (h : StoreInv req es s) :
    StoreInv req (es ++ fs) (s.next req offset desc disk status) where
  writes e he x hx := by
    rcases List.mem_append.1 he with he | he
    · obtain ⟨t, ht, hx⟩ := h.writes e he x hx
      exact ⟨t, List.mem_append_left _ ht, hx⟩
    · exact ⟨_, List.mem_append_right _ (List.mem_singleton.2 rfl), hstep.writes e he x hx⟩
  stored := by
    rw [storedBytes_append, h.stored, hstep.stored]
    show _ = if req = .tIn then totalLen ((s.turns ++ [_]).filter Turn.done) else 0
    by_cases hin : req = .tIn
    · rw [if_pos hin, if_pos hin, List.filter_append, totalLen_append]
      by_cases hok : status = .ok
      · simp [hin, hok, Turn.done]
      · simp [hok, Turn.done]
    · rw [if_neg hin, if_neg hin, if_neg fun hc => hin hc.1]

end

/-- The walk ends with the invariants it began with. -/
theorem chainWalk_facts {direct : Bool} {q : VirtioQueue} (fuel : Nat) {s s' : WalkState}
    {last : Option VirtioDesc} (hb : s.disk.backend = b)
    (h : Emits (chainWalk direct q req offset fuel s) fs (.ok (s', last)))
    (hsz : ∀ e ∈ fs, ReadsFull e) (hi : ImageInv b req offset start es s) (hs : StoreInv req es s)
    (hd : req = .tIn → DoneInv b offset start es s) :
    ImageInv b req offset start (es ++ fs) s' ∧ StoreInv req (es ++ fs) s' ∧
      (req = .tIn → DoneInv b offset start (es ++ fs) s') := by
  induction fuel generalizing s es fs with
  | zero => cases h
  | succ fuel ih =>
    have hnil : Silent [] := nofun
    rw [chainWalk] at h
    split at h
    · obtain ⟨rfl, he⟩ := h.ret_inv
      cases he
      exact ⟨hi.silent hnil _ _, hs.silent hnil _ _, fun hreq => (hd hreq).undecided rfl _ _⟩
    obtain ⟨r, fs₁, fs₂, rfl, hread, h₂⟩ := h.bind_inv
    have hfirst := virtioReadDesc_silent hread
    have hfirst' := virtioReadDesc_outcomes hread
    have hi₁ := hi.silent hfirst s.disk (s.reads ++ [s.index])
    have hs₁ := hs.silent hfirst s.disk (s.reads ++ [s.index])
    have hd₁ := fun hreq => (hd hreq).undecided hfirst' s.disk (s.reads ++ [s.index])
    rw [← List.append_assoc]
    cases r with
    | none =>
      obtain ⟨rfl, he⟩ := h₂.ret_inv
      cases he
      exact ⟨hi₁.silent hnil _ _, hs₁.silent hnil _ _, fun hreq => (hd₁ hreq).undecided rfl _ _⟩
    | some desc =>
      dsimp only at h₂
      split at h₂
      · obtain ⟨rfl, he⟩ := h₂.ret_inv
        cases he
        exact ⟨hi₁.silent hnil _ _, hs₁.silent hnil _ _, fun hreq => (hd₁ hreq).undecided rfl _ _⟩
      obtain ⟨⟨disk, after⟩, fs₂, fs₃, rfl, hdata, h₃⟩ := h₂.bind_inv
      have hstep := dataStep_facts hdata fun e he => hsz e (by simp [he])
      have hsame := (dataStep_sat (χ := fun _ => True) (.quiet desc) (fun _ _ => trivial) ..).emits hdata
      have hdisk : disk.backend = b := hsame.2.backend.symm.trans hb
      cases after with
      | none =>
        obtain ⟨rfl, he⟩ := h₃.ret_inv
        cases he
        rw [List.append_nil]
        refine ⟨hi₁.silent (hstep.gaveUp rfl) _ _, hs₁.silent (hstep.gaveUp rfl) _ _, fun hreq => ?_⟩
        exact absurd rfl (hstep.judged hreq).isSome
      | some status =>
        rw [hb] at hstep
        rw [← List.append_assoc]
        have hi₂ := hi.silent hfirst s.disk s.reads
        exact ih hdisk h₃ (fun e he => hsz e (by simp [he])) (hi₂.next hstep)
          ((hs.silent hfirst s.disk s.reads).next hstep)
          fun hreq => ((hd hreq).undecided hfirst' s.disk s.reads).next hstep hreq hi₂

end

/-! ## The whole call -/

/-- `*used_len` of a call that finishes. -/
def ChainLog.usedLen (l : ChainLog) : UInt32 := if l.req = .tIn then l.walk.dataLen + 1 else 1

/-- The three ways a call of `process_chain` goes: no request to be read, a
walk that does not come to a last descriptor, and one that ends in the store of
the status. -/
inductive ChainRun (b : BlkdBlockBackend) :
    List FabricEvent → Option UInt32 → Option ChainLog → Prop
  | refused {es : List FabricEvent} (hes : Silent es) : ChainRun b es none none
  | gaveUp {es : List FabricEvent} {l : ChainLog}
      (hi : ImageInv b l.req (startOffset l.sector) (startStatus l.req l.sector) es l.walk)
      (hs : StoreInv l.req es l.walk) (hlast : l.last = none) : ChainRun b es none (some l)
  | finished {es : List FabricEvent} {l : ChainLog} {desc : VirtioDesc} {status : BlkStatus}
      (hi : ImageInv b l.req (startOffset l.sector) (startStatus l.req l.sector) es l.walk)
      (hs : StoreInv l.req es l.walk)
      (hd : l.req = .tIn → DoneInv b (startOffset l.sector) (startStatus l.req l.sector) es l.walk)
      (hlast : l.last = some (desc, status)) (hst : l.req ≠ .tFlush → status = l.walk.status) (ok : Bool) :
      ChainRun b (es ++ [⟨.dmaWrite desc.addr [status.code], ok⟩]) (if ok then some l.usedLen else none) (some l)

theorem finishLogged_facts {req : ReqType} {desc : VirtioDesc} {before status : BlkStatus}
    {dataLen : UInt32} {r : Option UInt32} {es : List FabricEvent}
    (h : Emits (finishLogged req desc before dataLen) es (.ok (status, r))) :
    ∃ es₁ ok, Silent es₁ ∧ outcomes es₁ = [] ∧ es = es₁ ++ [⟨.dmaWrite desc.addr [status.code], ok⟩] ∧
      r = (if ok then some (if req = .tIn then dataLen + 1 else 1) else none) ∧ (req ≠ .tFlush → status = before) := by
  obtain ⟨flushed, es₁, es₂, rfl, hflush, h₂⟩ := h.bind_inv
  obtain ⟨ok, es₂, es₃, rfl, hstore, h₃⟩ := h₂.bind_inv
  obtain rfl := hstore.perform_inv
  have hend : es₃ = [] ∧ status = (if flushed then before else .ioerr) ∧
      r = (if ok then some (if req = .tIn then dataLen + 1 else 1) else none) := by
    cases ok with
    | true =>
      obtain ⟨rfl, he⟩ := h₃.ret_inv
      cases he
      exact ⟨rfl, rfl, rfl⟩
    | false =>
      obtain ⟨rfl, he⟩ := h₃.ret_inv
      cases he
      exact ⟨rfl, rfl, rfl⟩
  obtain ⟨rfl, rfl, rfl⟩ := hend
  unfold blkdBlockFlush at hflush
  split at hflush
  next hreq =>
    obtain rfl := hflush.perform_inv
    refine ⟨_, ok, fun e he => ?_, rfl, rfl, rfl, fun hne => absurd hreq hne⟩
    obtain rfl := List.mem_singleton.1 he
    trivial
  next =>
    obtain ⟨rfl, rfl⟩ := hflush.ret_inv
    exact ⟨[], ok, nofun, rfl, rfl, rfl, fun _ => rfl⟩

theorem processChain_chainRun {direct : Bool} {fuel : Nat} {d d' : BlkdVirtioDevice} {head : UInt16}
    {r : Option UInt32} {log : Option ChainLog} {es : List FabricEvent}
    (h : Emits (processChainLogged direct fuel d head) es (.ok (d', r, log)))
    (hsz : ∀ e ∈ es, ReadsFull e) :
    ChainRun d.priv.backend es r log := by
  have hnil : Silent [] := nofun
  obtain ⟨hd, es₁, es₂, rfl, hread, h₂⟩ := h.bind_inv
  have hfirst := virtioReadDesc_silent hread
  cases hd with
  | none =>
    obtain ⟨rfl, he⟩ := h₂.ret_inv
    cases he
    exact .refused (hfirst.append hnil)
  | some headerDesc =>
    dsimp only at h₂
    split at h₂
    · obtain ⟨rfl, he⟩ := h₂.ret_inv
      cases he
      exact .refused (hfirst.append hnil)
    obtain ⟨header, es₂, es₃, rfl, hheader, h₃⟩ := h₂.bind_inv
    have hpre : Silent (es₁ ++ es₂) ∧ outcomes (es₁ ++ es₂) = [] := by
      obtain rfl := hheader.perform_inv
      rw [outcomes_append, virtioReadDesc_outcomes hread]
      refine ⟨hfirst.append fun e he => ?_, rfl⟩
      obtain rfl := List.mem_singleton.1 he
      trivial
    obtain ⟨hpre, hpre'⟩ := hpre
    rw [← List.append_assoc]
    cases header with
    | none =>
      obtain ⟨rfl, he⟩ := h₃.ret_inv
      cases he
      exact .refused (hpre.append hnil)
    | some header =>
      obtain ⟨⟨s, last⟩, es₃, es₄, rfl, hwalk, h₄⟩ := h₃.bind_inv
      obtain ⟨hi, hs, hdone⟩ := chainWalk_facts fuel rfl hwalk (fun e he => hsz e (by simp [he]))
        ((ImageInv.init d headerDesc _ _).silent hpre d.priv []) ((StoreInv.init d headerDesc _ _).silent hpre d.priv [])
        fun _ => (DoneInv.init d headerDesc _ _).undecided hpre' d.priv []
      rw [List.nil_append] at hi hs hdone
      cases last with
      | none =>
        obtain ⟨rfl, he⟩ := h₄.ret_inv
        cases he
        rw [List.append_nil]
        exact .gaveUp hi hs rfl
      | some statusDesc =>
        obtain ⟨⟨status, r⟩, es₄, es₅, rfl, hfinish, h₅⟩ := h₄.bind_inv
        obtain ⟨rfl, he⟩ := h₅.ret_inv
        cases he
        obtain ⟨es₆, ok, hsil, hsil', rfl, rfl, hst⟩ := finishLogged_facts hfinish
        rw [List.append_nil, ← List.append_assoc, ← List.append_assoc]
        exact .finished (l := ⟨_, _, headerDesc, s, some (statusDesc, status)⟩) (hi.silent hsil _ _) (hs.silent hsil _ _)
          (fun hreq => (hdone hreq).undecided hsil' _ _) rfl hst ok

/-! ## Runs over plain memory -/

theorem ram_readsFull (canMap : UInt64 → UInt32 → Bool) (w : Ram) (c : Call) :
    ReadsFull ⟨c, (Ram.answer canMap w c).1⟩ := by
  cases c with
  | dmaReadInto gpa len =>
    intro bs he
    cases he
    exact readBytes_length ..
  | pread offset len =>
    intro bs he
    cases he
    exact readBytes_length ..
  | _ => trivial

/-- A descriptor table at 0x1000 in otherwise blank memory; a request header in
it asks for sector 0. -/
def tableRam (table : List VirtioDesc) : Ram where
  mem := writeBytes (fun _ => 0) 0x1000
    (table.flatMap fun d => virtioStoreLe64 d.addr ++ virtioStoreLe32 d.len ++ virtioStoreLe16 d.flags ++ virtioStoreLe16 d.next)
  image := fun _ => 0
  line := false
  output := []

/-- A disk of this many bytes, its queue of eight entries at 0x1000. -/
def tableDisk (imageLen : UInt64) : BlkdVirtioDevice where
  vdev := { virtioDeviceInit virtioIdBlock virtioVendorIdLocal 1 blkdQueueSize with
    queues := [⟨8, 1, 0x1000, 0x2000, 0x3000, 0⟩] }
  priv := ⟨⟨imageLen, false⟩, imageLen / blkdSectorSize, [], 0⟩

/-- What a run of `process_chain` returns, its log and its calls. -/
structure Observed where
  usedLen : Option UInt32
  log : ChainLog
  events : List FabricEvent

def observeChain (direct : Bool) (d : BlkdVirtioDevice) (w : Ram) : Option Observed :=
  let p := processChainLogged direct 8 d 0
  match (p.run (Ram.answer fun _ _ => true) w).1 with
  | .ok (_, r, some l) => some ⟨r, l, p.events (Ram.answer fun _ _ => true) w⟩
  | _ => none

theorem observeChain_emits {direct : Bool} {d : BlkdVirtioDevice} {w : Ram} {o : Observed}
    (h : observeChain direct d w = some o) :
    ∃ d', Emits (processChainLogged direct 8 d 0) o.events (.ok (d', o.usedLen, some o.log)) ∧ ∀ e ∈ o.events, ReadsFull e := by
  have hrun := Emits.of_run (Ram.answer fun _ _ => true) (processChainLogged direct 8 d 0) w
  unfold observeChain at h
  dsimp only at h
  split at h
  next d' r l hr =>
    cases h
    rw [hr] at hrun
    exact ⟨d', hrun, Prog.events_all (ram_readsFull _) _ _⟩
  · cases h

end AcsVirt.L4
