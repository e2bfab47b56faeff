import AcsVirt.L2Machine.DescChain
import AcsVirt.L4Device.GuestBytes
import AcsVirt.L4Device.TxWalk

/-!
# The length the console reports

`virtio_add_used` documents its length as the number of bytes the device has
written for the chain. `process_tx_chain` writes no guest memory; what it
returns is the number of bytes it has printed. `tx_used_len_iff` is the exact
condition for the published length to be what the documentation says: the
device-readable descriptors hold nothing, up to a multiple of 2^32.
-/
namespace AcsVirt.L4

open L1 L2

/-! ## Reads of guest memory -/

section
variable {W : Type} {R : Handler fabricSig W} {mem : W → Mem}

/-- A fabric over guest memory: any call may fail, stores change memory as
stores do, and a read that succeeds returns what is there. -/
structure GuestFabric (R : Handler fabricSig W) (mem : W → Mem) : Prop extends StoresTo R mem where
  read : ∀ {w w' : W} {gpa : UInt64} {len : UInt32} {data : Bytes}, R w (.dmaReadInto gpa len) (some data) w' →
    data = readBytes (mem w) gpa.toNat len.toNat

theorem ram_guestFabric (canMap : UInt64 → UInt32 → Bool) :
    GuestFabric (answers (Ram.answer canMap)) Ram.mem where
  toStoresTo := ram_storesTo canMap
  read h := by
    cases h
    rfl

theorem uio_guestFabric : GuestFabric (answers UioFabric.answer) fun f => f.ram.mem where
  toStoresTo := uio_storesTo
  read {f f' gpa len data} h := by
    have h : (some data, f') = f.answer (.dmaReadInto gpa len) := h
    simp only [UioFabric.answer] at h
    split at h
    next hz =>
      cases h
      rw [hz]
      rfl
    · split at h
      · cases h
        rfl
      · cases h

/-- Harmless calls leave memory as it was. -/
theorem StoresTo.same (hR : StoresTo R mem) {w w' : W} {es : List FabricEvent}
    (h : Answered R w es w') (hes : Silent es) : mem w' = mem w := by
  induction h with
  | nil w => rfl
  | @cons c r es w w' w'' hr _ ih =>
    obtain ⟨he, hes⟩ := List.forall_mem_cons.1 hes
    have hc : NoStore c := by cases c <;> trivial
    exact (ih hes).trans (hR.other hc hr)

end

/-! ## The walk -/

/-- Bytes of the descriptors that the device may read. -/
def readableLen : List VirtioDesc → Nat
  | [] => 0
  | d :: ds => (if d.writable then 0 else d.len.toNat) + readableLen ds

/-- One descriptor: nothing is stored, and its length is added if it is readable. -/
theorem txDesc_adds (desc : VirtioDesc) (total : UInt32) :
    (txDesc desc total).Sat Harmless (fun _ => True) fun r => ∀ t, r = some t →
      t = total + UInt32.ofNat (readableLen [desc]) := by
  have hlen : UInt32.ofNat (readableLen [desc]) = if desc.writable then 0 else desc.len := by
    simp only [readableLen]
    split <;> simp
  rw [hlen]
  unfold txDesc
  by_cases hpay : (!desc.writable) = true ∧ desc.len ≠ 0
  · have hw : desc.writable = false := by simpa using hpay.1
    rw [if_pos hpay, hw, if_neg Bool.false_ne_true]
    refine Prog.Sat.bind (ψ := fun _ => True) ?_ fun r _ => ?_
    · refine Prog.Sat.bind (realloc_sat _ trivial) fun ok _ => ?_
      split
      · exact dmaReadInto_sat _ _ trivial
      · exact Prog.Sat.ret trivial
    · cases r with
      | none => exact Prog.Sat.ret fun t ht => by cases ht
      | some data =>
        refine Prog.Sat.bind (consoleWrite_sat _ trivial) fun ok _ => ?_
        split
        · refine Prog.Sat.ret fun t ht => ?_
          exact (Option.some.inj ht).symm
        · exact Prog.Sat.ret fun t ht => by cases ht
  · rw [if_neg hpay]
    refine Prog.Sat.ret fun t ht => ?_
    rw [← Option.some.inj ht]
    by_cases hw : desc.writable = true
    · simp [hw]
    · have hz : desc.len = 0 := Decidable.byContradiction fun hz => hpay ⟨by simpa using hw, hz⟩
      simp [hw, hz]

theorem txLoop_harmless (q : VirtioQueue) (fuel : Nat) (index : UInt16) (total : UInt32) :
    (txLoop q fuel index total).Sat Harmless (fun _ => True) fun _ => True := by
  induction fuel generalizing index total with
  | zero => exact Prog.Sat.fault trivial
  | succ fuel ih =>
    refine Prog.Sat.bind (virtioReadDesc_sat (fun _ _ => trivial) _ _) fun r _ => ?_
    cases r with
    | none => exact Prog.Sat.ret trivial
    | some desc =>
      refine Prog.Sat.bind (txDesc_adds _ _) fun r _ => ?_
      cases r with
      | none => exact Prog.Sat.ret trivial
      | some total =>
        dsimp only
        split
        · exact Prog.Sat.ret trivial
        · exact ih _ _

section
variable {W : Type} {R : Handler fabricSig W} {mem : W → Mem}

/-- A descriptor that is read is the one in memory. -/
theorem virtioReadDesc_guest (hR : GuestFabric R mem) {q : VirtioQueue} {index : UInt16}
    {desc : VirtioDesc} {es : List FabricEvent} {w w' : W}
    (h : Emits (virtioReadDesc q index) es (.ok (some desc))) (ha : Answered R w es w') :
    desc = descAt (mem w) q index := by
  obtain ⟨raw, rfl, rfl⟩ := virtioReadDesc_emits h
  cases ha with
  | cons hr _ =>
    rw [hR.read hr]
    rfl

/-- The walk adds up the device-readable descriptors of the chain in memory. -/
theorem txLoop_total (hR : GuestFabric R mem) {q : VirtioQueue} {fuel : Nat} {index : UInt16}
    {total t : UInt32} {es : List FabricEvent} {w w' : W}
    (h : Emits (txLoop q fuel index total) es (.ok (some t))) (ha : Answered R w es w') :
    ∃ ds last, ChainAt (mem w) q index ds last ∧ t = total + UInt32.ofNat (readableLen (ds ++ [last])) := by
  induction fuel generalizing index total es w with
  | zero => cases h
  | succ fuel ih =>
    obtain ⟨r, es₁, es₂, rfl, hread, h⟩ := h.bind_inv
    obtain ⟨w₁, ha₁, ha⟩ := ha.split
    have hmem₁ := hR.same ha₁ (virtioReadDesc_silent hread)
    cases r with
    | none => cases h.ret_inv.2
    | some desc =>
      have hdesc := virtioReadDesc_guest hR hread ha₁
      obtain ⟨r, es₂, es₃, rfl, htx, h⟩ := Emits.bind_inv h
      obtain ⟨w₂, ha₂, ha⟩ := ha.split
      obtain ⟨hsil, hr⟩ := (txDesc_adds desc total).emits htx
      have hmem₂ := hR.same ha₂ hsil
      cases r with
      | none => cases h.ret_inv.2
      | some total' =>
        have htotal := hr total' rfl
        dsimp only at h
        split at h
        next hlast =>
          cases h.ret_inv.2
          refine ⟨[], desc, ⟨hdesc.symm, by simpa using hlast⟩, htotal⟩
        next hnext =>
          obtain ⟨ds, last, hchain, ht⟩ := ih h ha
          rw [hmem₂, hmem₁] at hchain
          refine ⟨desc :: ds, last, ⟨hdesc.symm, by simpa using hnext, hchain⟩, ?_⟩
          rw [ht, htotal, UInt32.add_assoc, ← UInt32.ofNat_add]
          rfl

/-! ## Publishing -/

/-- Where `virtio_add_used` puts the next element. -/
def nextElem (q : VirtioQueue) (m : Mem) : UInt64 :=
  usedElem q (virtioLoadLe16 (readBytes m (q.used + 2).toNat 2))

/-- The length field of an element in memory. -/
def elemLen (m : Mem) (elem : UInt64) : UInt32 := virtioLoadLe32 (readBytes m (elem + 4).toNat 4)

/-- The index and the length field of an element are apart. -/
theorem elemLen_apart (q : VirtioQueue) (idx : UInt16) (m : Mem) (v : UInt16) :
    elemLen (writeBytes m (q.used + 2).toNat (virtioStoreLe16 v)) (usedElem q idx) = elemLen m (usedElem q idx) := by
  have hslot := (idx % q.num.toUInt16).toNat_lt
  have hused := q.used.toNat_lt
  have haddr : (usedElem q idx + 4).toNat = (q.used.toNat + 8 + 8 * (idx % q.num.toUInt16).toNat) % 2 ^ 64 := by
    simp only [usedElem, UInt64.toNat_add, UInt64.toNat_mul, UInt16.toNat_toUInt64, show (4 : UInt64).toNat = 4 from rfl,
      show (8 : UInt64).toNat = 8 from rfl]
    omega
  have hidx : (q.used + 2).toNat = (q.used.toNat + 2) % 2 ^ 64 := by
    rw [UInt64.toNat_add]
    rfl
  unfold elemLen
  rw [readBytes_writeBytes_apart]
  intro x h1 h2
  rw [virtioStoreLe16_length]
  omega

/-- A publication that succeeds leaves the length in the element. -/
theorem virtioAddUsed_publishes (hR : GuestFabric R mem) {q : VirtioQueue} {head : UInt16}
    {len : UInt32} {w w' : W} (h : Runs R (virtioAddUsed q head len) w (.ok true) w') :
    elemLen (mem w') (nextElem q (mem w)) = len := by
  refine h.of_wp (Q := fun o w' => o = .ok true → elemLen (mem w') (nextElem q (mem w)) = len) ?_ rfl
  intro r w₁ hread
  cases r with
  | none => exact fun he => by cases he
  | some data =>
    have hdata := hR.read hread
    have hnext : nextElem q (mem w) = usedElem q (virtioLoadLe16 data) := by
      rw [hdata]
      rfl
    rw [hnext]
    refine wp_ite (fun _ he => by cases he) fun _ => ?_
    intro ok₁ w₂ _
    refine wp_ite (fun _ he => by cases he) fun _ => ?_
    intro ok₂ w₃ hlen
    refine wp_ite (fun _ he => by cases he) fun hok₂ => ?_
    intro ok₃ w₄ hpub hok₃
    have h3 := hR.write hlen
    have h4 := hR.write hpub
    rw [if_pos (by simpa using hok₂)] at h3
    rw [if_pos (Except.ok.inj hok₃)] at h4
    rw [h4, elemLen_apart, h3]
    have hb := readBytes_writeBytes (mem w₂) (usedElem q (virtioLoadLe16 data) + 4).toNat (virtioStoreLe32 len)
    rw [virtioStoreLe32_length] at hb
    rw [elemLen, hb, virtioLoadLe32_store]

/-- **The console's used length.** For a chain that is walked and published:
the walk follows the chain in guest memory and stores nothing, and the length
in the used element is the number of bytes stored iff the device-readable
descriptors of the chain total a multiple of 2^32. -/
theorem tx_used_len_iff (hR : GuestFabric R mem) {fuel : Nat} {d d' : CondVirtioDevice}
    {head : UInt16} {usedLen : UInt32} {es : List FabricEvent} {w w₁ w₂ : W}
    (hwalk : Emits (processTxChain fuel d head) es (.ok (d', some usedLen)))
    (ha : Answered R w es w₁)
    (hpub : Runs R (virtioAddUsed (d'.queue 1) head usedLen) w₁ (.ok true) w₂) :
    ∃ ds last, ChainAt (mem w) (d.queue 1) head ds last ∧ mem w₁ = mem w ∧
      ((elemLen (mem w₂) (nextElem (d.queue 1) (mem w))).toNat = storedBytes es ↔
        2 ^ 32 ∣ readableLen (ds ++ [last])) := by
  obtain ⟨t, hloop, hres⟩ := Emits.map_iff.1 hwalk
  cases hres
  have hsil : Silent es := ((txLoop_harmless _ _ _ _).emits hloop).1
  have hmem := hR.same ha hsil
  obtain ⟨ds, last, hchain, ht⟩ := txLoop_total hR hloop ha
  refine ⟨ds, last, hchain, hmem, ?_⟩
  rw [← hmem, virtioAddUsed_publishes hR hpub, hsil.stored, ht, UInt32.zero_add, UInt32.toNat_ofNat']
  omega

end

/-! ## One descriptor -/

/-- Descriptor 0 with these flags: five bytes at 0x4000. -/
def fiveBytes (flags : UInt8) : Ram :=
  ⟨memOf [(0x1001, 0x40), (0x1008, 5), (0x100c, flags)], fun _ => 0, false, []⟩

/-- The walk of it, and its publication. -/
def fiveWalk (flags : UInt8) : Except Fault (CondVirtioDevice × Option UInt32) × Ram :=
  (processTxChain 8 smallTxDevice 0).run (Ram.answer fun _ _ => false) (fiveBytes flags)

def fivePublish (flags : UInt8) (usedLen : UInt32) : Except Fault Bool × Ram :=
  (virtioAddUsed (smallTxDevice.queue 1) 0 usedLen).run (Ram.answer fun _ _ => false) (fiveWalk flags).2

/-- A device-writable descriptor: nothing is printed, nothing stored, and the
length is 0. -/
theorem tx_used_len_writable : (fivePublish 2 0).1 = .ok true ∧ ∃ es,
    Emits (processTxChain 8 smallTxDevice 0) es (.ok (smallTxDevice, some 0)) ∧
    Answered (answers (Ram.answer fun _ _ => false)) (fiveBytes 2) es (fiveWalk 2).2 ∧
    (elemLen (fivePublish 2 0).2.mem (nextElem (smallTxDevice.queue 1) (fiveBytes 2).mem)).toNat = storedBytes es := by
  have hwalk : (fiveWalk 2).1 = .ok (smallTxDevice, some 0) := by decide +kernel
  have hpub : (fivePublish 2 0).1 = .ok true := by decide +kernel
  have hruns : Runs (answers (Ram.answer fun _ _ => false)) (processTxChain 8 smallTxDevice 0) (fiveBytes 2)
      (fiveWalk 2).1 (fiveWalk 2).2 := answers_run ..
  have hpubs : Runs (answers (Ram.answer fun _ _ => false)) (virtioAddUsed (smallTxDevice.queue 1) 0 0) (fiveWalk 2).2
      (fivePublish 2 0).1 (fivePublish 2 0).2 := answers_run ..
  rw [hwalk] at hruns
  rw [hpub] at hpubs
  obtain ⟨es, hes, ha⟩ := hruns.emits
  obtain ⟨ds, last, hchain, _, hiff⟩ := tx_used_len_iff (ram_guestFabric fun _ _ => false) hes ha hpubs
  refine ⟨hpub, es, hes, ha, hiff.2 ?_⟩
  have hdesc : descAt (fiveBytes 2).mem (smallTxDevice.queue 1) 0 = ⟨0x4000, 5, 2, 0⟩ := by decide +kernel
  cases ds with
  | nil =>
    have hlast : last = ⟨0x4000, 5, 2, 0⟩ := hchain.1.symm.trans hdesc
    rw [hlast]
    decide
  | cons desc ds =>
    have hnext := hchain.2.1
    rw [← hchain.1, hdesc] at hnext
    exact absurd hnext (by decide)

/-- A device-readable descriptor: five bytes printed, none stored, and the
length in the used element is 5. -/
theorem tx_used_len_overstates :
    (fiveWalk 0).1 = .ok (smallTxDevice, some 5) ∧
    storedBytes ((processTxChain 8 smallTxDevice 0).events (Ram.answer fun _ _ => false) (fiveBytes 0)) = 0 ∧
    (fivePublish 0 5).1 = .ok true ∧
    elemLen (fivePublish 0 5).2.mem (nextElem (smallTxDevice.queue 1) (fiveBytes 0).mem) = 5 := by
  decide +kernel

end AcsVirt.L4
