import AcsVirt.L2Machine.Virtio

/-!
# Descriptor chains in guest memory

A chain is read from the table one entry at a time by following `next`.
`ChainAt m q i ds last` says what the walk from index `i` finds: the
descriptors `ds`, all with a NEXT flag, and then `last`, without one. The
entries the walk reads are those of `chainPath i ds`; memory that agrees on
them has the same chain (`ChainAt.congr`).
-/
namespace AcsVirt.L2

/-- The descriptor the table of `q` holds at `index`. -/
def descAt (m : Mem) (q : VirtioQueue) (index : UInt16) : VirtioDesc :=
  decodeDesc (readBytes m (descAddr q index).toNat 16)

/-- Bytes of table entry `index`. -/
def entry (q : VirtioQueue) (index : UInt16) : Region := ⟨(descAddr q index).toNat, 16⟩

/-- The buffer a descriptor points to. -/
def VirtioDesc.buf (d : VirtioDesc) : Region := ⟨d.addr.toNat, d.len.toNat⟩

def ChainAt (m : Mem) (q : VirtioQueue) : UInt16 → List VirtioDesc → VirtioDesc → Prop
  | i, [], last => descAt m q i = last ∧ last.hasNext = false
  | i, d :: ds, last => descAt m q i = d ∧ d.hasNext = true ∧ ChainAt m q d.next ds last

instance decChainAt (m : Mem) (q : VirtioQueue) (i : UInt16) (ds : List VirtioDesc)
    (last : VirtioDesc) : Decidable (ChainAt m q i ds last) :=
  match ds with
  | [] => inferInstanceAs (Decidable (_ ∧ _))
  | d :: ds =>
    have := decChainAt m q d.next ds last
    inferInstanceAs (Decidable (_ ∧ _ ∧ _))

/-- Table indices the walk visits. -/
def chainPath (i : UInt16) (ds : List VirtioDesc) : List UInt16 := i :: ds.map VirtioDesc.next

theorem descAt_congr {m m' : Mem} {q : VirtioQueue} {i : UInt16}
    (h : ∀ x ∈ entry q i, m' x = m x) : descAt m' q i = descAt m q i := by
  have hr : readBytes m' (descAddr q i).toNat 16 = readBytes m (descAddr q i).toNat 16 :=
    readBytes_congr fun x h1 h2 => h x ⟨h1, h2⟩
  rw [descAt, hr, descAt]

theorem ChainAt.congr {m m' : Mem} {q : VirtioQueue} {i : UInt16} {ds : List VirtioDesc}
    {last : VirtioDesc} (hc : ChainAt m q i ds last)
    (h : ∀ j ∈ chainPath i ds, ∀ x ∈ entry q j, m' x = m x) : ChainAt m' q i ds last := by
  induction ds generalizing i with
  | nil =>
    obtain ⟨hd, hl⟩ := hc
    rw [← descAt_congr (h i List.mem_cons_self)] at hd
    exact ⟨hd, hl⟩
  | cons d ds ih =>
    obtain ⟨hd, hn, hc⟩ := hc
    rw [← descAt_congr (h i List.mem_cons_self)] at hd
    refine ⟨hd, hn, ih hc fun j hj => h j ?_⟩
    exact List.mem_cons_of_mem _ hj

end AcsVirt.L2
