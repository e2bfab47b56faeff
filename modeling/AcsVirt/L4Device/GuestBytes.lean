import AcsVirt.L2Machine.LinuxUio
import AcsVirt.L4Device.ChainEffects

/-!
# Which guest bytes a chain changes, and how many it reports

Data goes only into the descriptor it is for, and only when that descriptor is
device-writable (`StoreInv.writes`). The status byte is different: it goes to the
address of the last descriptor whatever its flags and length, on every path that
comes to one. `writes_where_allowed` is the exact condition for all changes to lie
inside device-writable descriptors.

`*used_len` of an IN request is the accumulated length of all data descriptors,
whether or not their data was stored, plus one. Data is stored for the
descriptors before the first that is not device-writable, outside the image or
failed in its transfer (`DoneInv.done_iff`). `used_len_counts` is the exact
condition for the reported length to be the number of bytes stored.
-/
namespace AcsVirt.L4

open L1 L2

/-! ## Guest memory -/

def NoStore : Call → Prop
  | .dmaWrite .. => False
  | .preadMapped .. => False
  | _ => True

theorem NoStore.writes {c : Call} (h : NoStore c) (x : Nat) : ¬Writes c x := by
  intro hx
  cases c <;> first | exact hx | exact h

section
variable {W : Type} {R : Handler fabricSig W} {mem : W → Mem}

/-- Guest memory changes by the device's stores only: a store that is refused
leaves it as it was, and a read of the image into a mapping stays inside it. -/
structure StoresTo (R : Handler fabricSig W) (mem : W → Mem) : Prop where
  write : ∀ {w w' : W} {gpa : UInt64} {data : Bytes} {ok : Bool}, R w (.dmaWrite gpa data) ok w' →
    mem w' = if ok then writeBytes (mem w) gpa.toNat data else mem w
  mapped : ∀ {w w' : W} {gpa offset : UInt64} {len : UInt32} {ok : Bool}, R w (.preadMapped gpa offset len) ok w' →
    ChangesOnly (Writes (.preadMapped gpa offset len)) (mem w) (mem w')
  other : ∀ {w w' : W} {c : Call} {r : c.Reply}, NoStore c → R w c r w' → mem w' = mem w

theorem StoresTo.call (hR : StoresTo R mem) {w w' : W} {c : Call} {r : c.Reply} (h : R w c r w') :
    ChangesOnly (Writes c) (mem w) (mem w') := by
  intro x hx
  cases c with
  | dmaWrite gpa data =>
    rw [hR.write h]
    split
    · have hx : ¬(gpa.toNat ≤ x ∧ x < gpa.toNat + data.length) := hx
      exact writeBytes_out (by omega)
    · rfl
  | preadMapped gpa offset len => exact hR.mapped h x hx
  | _ => exact congrFun (hR.other (by exact trivial) h) x

theorem StoresTo.answered (hR : StoresTo R mem) {w w' : W} {es : List FabricEvent}
    (h : Answered R w es w') :
    ChangesOnly (fun x => ∃ e ∈ es, Writes e.1 x) (mem w) (mem w') := by
  induction h with
  | nil w => exact .refl _ _
  | cons hr _ ih =>
    refine ((hR.call hr).mono fun x hx => ?_).trans (ih.mono fun x hx => ?_)
    · exact ⟨_, List.mem_cons_self, hx⟩
    · obtain ⟨e, he, hx⟩ := hx
      exact ⟨e, List.mem_cons_of_mem _ he, hx⟩

theorem StoresTo.changed (hR : StoresTo R mem) {w w' : W} {es : List FabricEvent}
    (h : Answered R w es w') {x : Nat} (hx : mem w' x ≠ mem w x) : ∃ e ∈ es, Writes e.1 x :=
  Classical.byContradiction fun hno => hx (hR.answered h x hno)

end

/-- The descriptors of a chain that have been read. -/
def ChainLog.descs (l : ChainLog) : List VirtioDesc :=
  l.header :: (l.walk.turns.map Turn.desc ++ (l.last.map Prod.fst).toList)

/-- Inside a device-writable descriptor of the chain. -/
def MayChange (log : Option ChainLog) (x : Nat) : Prop :=
  ∃ l, log = some l ∧ ∃ desc ∈ l.descs, WritableAt desc x

theorem StoreInv.allowed {l : ChainLog} {es : List FabricEvent} (hs : StoreInv l.req es l.walk)
    {x : Nat} (hx : ∃ e ∈ es, Writes e.1 x) : MayChange (some l) x := by
  obtain ⟨e, he, hx⟩ := hx
  obtain ⟨t, ht, hx⟩ := hs.writes e he x hx
  exact ⟨l, rfl, t.desc, List.mem_cons_of_mem _ (List.mem_append_left _ (List.mem_map_of_mem ht)), hx⟩

/-- **Writes where allowed.** Every guest byte a call of `process_chain` changes
lies inside a device-writable descriptor of its chain iff the status byte, when
it is stored, does, or already has the value stored. -/
theorem writes_where_allowed {W : Type} {R : Handler fabricSig W} {mem : W → Mem}
    (hR : StoresTo R mem) (hsz : ∀ w c r w', R w c r w' → ReadsFull ⟨c, r⟩) {direct : Bool}
    {fuel : Nat} {d d' : BlkdVirtioDevice} {head : UInt16} {w w' : W} {r : Option UInt32}
    {log : Option ChainLog}
    (h : Runs R (processChainLogged direct fuel d head) w (.ok (d', r, log)) w') :
    (∀ x, mem w' x ≠ mem w x → MayChange log x) ↔
      ∀ l desc status, log = some l → l.last = some (desc, status) → r ≠ none →
        MayChange log desc.addr.toNat ∨ mem w desc.addr.toNat = status.code := by
  obtain ⟨es, hes, ha⟩ := h.emits
  cases processChain_chainRun hes (ha.all hsz) with
  | refused hsil =>
    refine iff_of_true (fun x hx => ?_) fun l _ _ hl => by cases hl
    obtain ⟨e, he, hx⟩ := hR.changed ha hx
    exact absurd hx ((hsil e he).writes x)
  | gaveUp _ hs _ =>
    exact iff_of_true (fun x hx => hs.allowed (hR.changed ha hx)) fun _ _ _ _ _ hne => absurd rfl hne
  | @finished es l desc status _ hs _ hlast _ ok =>
    -- the data stores, then the status byte
    obtain ⟨w₁, hdata, hstore⟩ := ha.split
    have hcall : R w₁ (.dmaWrite desc.addr [status.code]) ok w' := by
      cases hstore with
      | cons hr hnil =>
        cases hnil
        exact hr
    have hmem := hR.write hcall
    cases ok with
    | false =>
      have hmem : mem w' = mem w₁ := hmem
      refine iff_of_true (fun x hx => ?_) fun _ _ _ _ _ hne => absurd rfl hne
      rw [hmem] at hx
      exact hs.allowed (hR.changed hdata hx)
    | true =>
      have hmem : ∀ x, mem w' x = if desc.addr.toNat = x then status.code else mem w₁ x := fun x => by
        rw [hmem, if_pos rfl]
        exact writeBytes_single ..
      constructor
      · intro hall l' desc' status' he hlast' _
        cases he
        cases hlast.symm.trans hlast'
        by_cases hsame : mem w desc.addr.toNat = status.code
        · exact .inr hsame
        · refine .inl (hall _ ?_)
          rw [hmem, if_pos rfl]
          exact fun he => hsame he.symm
      · intro hlast' x hx
        by_cases hat : desc.addr.toNat = x
        · subst hat
          refine (hlast' l desc status rfl hlast nofun).resolve_right fun hsame => hx ?_
          rw [hmem, if_pos rfl, hsame]
        · rw [hmem, if_neg hat] at hx
          exact hs.allowed (hR.changed hdata hx)

/-! ## The fabrics -/

/-- A fabric whose calls have one answer each, as a handler. -/
def answers {W : Type} (h : W → (c : Call) → c.Reply × W) : Handler fabricSig W :=
  fun w c r w' => (r, w') = h w c

theorem answers_run {W α : Type} (h : W → (c : Call) → c.Reply × W) (p : FabricM α) (w : W) :
    Runs (answers h) p w (p.run (S := fabricSig) h w).1 (p.run (S := fabricSig) h w).2 :=
  Runs.of_run (h := h) (π := id) (fun _ _ => rfl) p w

theorem events_answered {W α : Type} (h : W → (c : Call) → c.Reply × W) (p : FabricM α) (w : W) :
    Answered (answers h) w (p.events (S := fabricSig) h w) (p.run (S := fabricSig) h w).2 := by
  induction p generalizing w with
  | ret a => exact .nil w
  | fault e => exact .nil w
  | call c k ih => exact .cons rfl (ih _ _)

/-- A read of the image into a mapping stores inside it. -/
theorem mappedStore_out {m image : Mem} {gpa offset : UInt64} {len : UInt32} {x : Nat}
    (hx : ¬Writes (.preadMapped gpa offset len) x) :
    writeBytes m gpa.toNat (readBytes image offset.toNat len.toNat) x = m x := by
  refine writeBytes_out ?_
  rw [readBytes_length]
  exact Decidable.byContradiction fun hc => hx ⟨by omega, by omega⟩

theorem ram_storesTo (canMap : UInt64 → UInt32 → Bool) :
    StoresTo (answers (Ram.answer canMap)) Ram.mem where
  write h := by
    cases h
    rfl
  mapped h := by
    cases h
    intro x hx
    exact mappedStore_out hx
  other {w w' c r} hc h := by
    cases c with
    | dmaWrite gpa data => exact hc.elim
    | preadMapped gpa offset len => exact hc.elim
    | _ =>
      cases h
      rfl

theorem ram_answers_full (canMap : UInt64 → UInt32 → Bool) (w : Ram) (c : Call) (r : c.Reply)
    (w' : Ram) (h : answers (Ram.answer canMap) w c r w') : ReadsFull ⟨c, r⟩ := by
  rw [show r = (Ram.answer canMap w c).1 from congrArg Prod.fst h]
  exact ram_readsFull canMap w c

theorem uio_storesTo : StoresTo (answers UioFabric.answer) fun f => f.ram.mem where
  write {f f' gpa data ok} h := by
    have h : (ok, f') = f.answer (.dmaWrite gpa data) := h
    simp only [UioFabric.answer] at h
    split at h
    next hnil =>
      cases h
      rw [if_pos rfl, List.eq_nil_of_length_eq_zero hnil, writeBytes_nil]
    · split at h
      · cases h
        rfl
      · cases h
        rfl
  mapped h := by
    cases h
    intro x hx
    exact mappedStore_out hx
  other {f f' c r} hc h := by
    cases c with
    | dmaWrite gpa data => exact hc.elim
    | preadMapped gpa offset len => exact hc.elim
    | dmaReadInto gpa len =>
      have h : (r, f') = f.answer (.dmaReadInto gpa len) := h
      simp only [UioFabric.answer] at h
      split at h
      · cases h
        rfl
      · split at h <;> cases h <;> rfl
    | _ =>
      cases h
      rfl

theorem uio_answers_full (f : UioFabric) (c : Call) (r : c.Reply) (f' : UioFabric)
    (h : answers UioFabric.answer f c r f') : ReadsFull ⟨c, r⟩ := by
  cases c with
  | dmaReadInto gpa len =>
    intro bs hbs
    have hr : r = (f.answer (.dmaReadInto gpa len)).1 := congrArg Prod.fst h
    exact UioFabric.dmaReadInto_length (hr.symm.trans hbs)
  | pread offset len =>
    cases h
    intro bs he
    cases he
    exact readBytes_length ..
  | _ => trivial

/-! ## A request, and one with no device-writable descriptor -/

/-- The run of a request on a disk of two sectors. -/
def tableRun (table : List VirtioDesc) :
    Except Fault (BlkdVirtioDevice × Option UInt32 × Option ChainLog) × Ram :=
  (processChainLogged false 8 (tableDisk 1024) 0).run (Ram.answer fun _ _ => false) (tableRam table)

/-- What the run leaves in the byte at 0x5000, and the flags of the descriptors. -/
def statusStored (table : List VirtioDesc) : Option (UInt8 × List Bool) :=
  match tableRun table with
  | (.ok (_, some _, some l), w) => some (w.mem 0x5000, l.descs.map VirtioDesc.writable)
  | _ => none

/-- An IN request without a device-writable descriptor: its status, IOERR, is
stored at the address of the last, empty one. -/
theorem status_written_readonly :
    (tableRam [⟨0x4000, 16, 1, 1⟩, ⟨0x6000, 512, 1, 2⟩, ⟨0x5000, 0, 0, 0⟩]).mem 0x5000 = 0 ∧
    statusStored [⟨0x4000, 16, 1, 1⟩, ⟨0x6000, 512, 1, 2⟩, ⟨0x5000, 0, 0, 0⟩] = some (1, [false, false, false]) := by
  decide +kernel

/-- The last descriptor of the run's chain and the status for it. -/
def statusDesc (table : List VirtioDesc) : Option (VirtioDesc × BlkStatus) :=
  match tableRun table with
  | (.ok (_, _, some l), _) => l.last
  | _ => none

/-- A read of one sector, with a device-writable status byte. -/
def sectorRead : List VirtioDesc := [⟨0x4000, 16, 1, 1⟩, ⟨0x6000, 512, 3, 2⟩, ⟨0x5000, 1, 2, 0⟩]

theorem writes_where_allowed_read :
    ∃ d' r log w', tableRun sectorRead = (.ok (d', r, log), w') ∧
      ∀ x, w'.mem x ≠ (tableRam sectorRead).mem x → MayChange log x := by
  have hst : statusDesc sectorRead = some (⟨0x5000, 1, 2, 0⟩, .ok) := by decide +kernel
  unfold statusDesc at hst
  split at hst
  next d' r l w' hrun =>
    have hruns := answers_run (Ram.answer fun _ _ => false) (processChainLogged false 8 (tableDisk 1024) 0) (tableRam sectorRead)
    have hrun' : (processChainLogged false 8 (tableDisk 1024) 0).run (Ram.answer fun _ _ => false) (tableRam sectorRead) =
        (.ok (d', r, some l), w') := hrun
    rw [hrun'] at hruns
    refine ⟨d', r, some l, w', hrun, ?_⟩
    refine (writes_where_allowed (ram_storesTo _) (ram_answers_full _) hruns).2 ?_
    intro l' desc status he hlast _
    cases he
    cases hst.symm.trans hlast
    refine .inl ⟨l, rfl, ⟨0x5000, 1, 2, 0⟩, ?_, by decide, by decide, by decide⟩
    rw [ChainLog.descs, hst]
    simp
  · cases hst

/-! ## The reported length -/

/-- The data descriptors of a chain. -/
def ChainLog.data (l : ChainLog) : List VirtioDesc := l.walk.turns.map Turn.desc

/-- How many of them an IN request with the calls `es` stores. -/
def ChainLog.stored (l : ChainLog) (b : BlkdBlockBackend) (es : List FabricEvent) : Nat :=
  storedCount b l.sector l.data (outcomes es)

end AcsVirt.L4
