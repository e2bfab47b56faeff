import AcsVirt.L2Machine.QueueWords

/-!
# The register file as its history of writes

What a driver expects of the transport is a statement about the past: a queue
register holds the last value written to it while its queue was selected,
since the last reset. `selected` and `lastUnder` say that, reading a history
backwards from its newest write. `virtio_mmio_write` keeps no history; it has
two selectors, merges half words into 64-bit fields and clears everything on
`STATUS = 0`. `RegsInv` ties its state to the history and one write keeps it
(`RegsInv.write`), so after any sequence of writes the two agree on every
queue and on the driver's features (`register_file_refines`).
-/
namespace AcsVirt.L2

open MmioReg

/-! ## Histories -/

/-- A write as the transport gets it. -/
structure RegWrite where
  offset : UInt64
  rawValue : UInt64
  deriving DecidableEq, Repr

namespace RegWrite

/-- Values are taken modulo 2^32. -/
def value (w : RegWrite) : UInt32 := w.rawValue.toUInt32

def Resets (w : RegWrite) : Prop := w.offset = status.offset ∧ w.value = 0

instance (w : RegWrite) : Decidable w.Resets := inferInstanceAs (Decidable (_ ∧ _))

end RegWrite

/-- What a selector register holds after a history, newest write first: the
last value written to it since the last reset, 0 if there is none. -/
def selected (sel : MmioReg) : List RegWrite → UInt32
  | [] => 0
  | w :: ws =>
    if w.Resets then 0
    else if w.offset = sel.offset then w.value
    else selected sel ws

/-- The last value written to `r` since the last reset while `sel` held `i`. -/
def lastUnder (sel : MmioReg) (i : Nat) (r : MmioReg) : List RegWrite → Option UInt32
  | [] => none
  | w :: ws =>
    if w.Resets then none
    else if w.offset = r.offset ∧ (selected sel ws).toNat = i then some w.value
    else lastUnder sel i r ws

theorem selected_reset {w : RegWrite} (hw : w.Resets) (sel : MmioReg) (ws : List RegWrite) :
    selected sel (w :: ws) = 0 := if_pos hw

theorem lastUnder_reset {w : RegWrite} (hw : w.Resets) (sel : MmioReg) (i : Nat) (r : MmioReg)
    (ws : List RegWrite) :
    lastUnder sel i r (w :: ws) = none := if_pos hw

section
variable {w : RegWrite} {s : MmioReg} (hs : w.offset = s.offset) (hw : ¬w.Resets)
include hs hw

theorem selected_cons (sel : MmioReg) (ws : List RegWrite) :
    selected sel (w :: ws) = if s = sel then w.value else selected sel ws := by
  rw [selected, if_neg hw, hs]
  by_cases h : s = sel
  · rw [if_pos h, if_pos (congrArg offset h)]
  · rw [if_neg h, if_neg fun he => h (offset_inj he)]

theorem lastUnder_cons (sel : MmioReg) (i : Nat) (r : MmioReg) (ws : List RegWrite) :
    lastUnder sel i r (w :: ws) =
      if s = r ∧ (selected sel ws).toNat = i then some w.value else lastUnder sel i r ws := by
  rw [lastUnder, if_neg hw, hs]
  by_cases h : s = r
  · simp only [h, true_and]
  · rw [if_neg fun he => h (offset_inj he.1), if_neg fun he => h he.1]

end

/-- A write at no register's offset leaves no trace. -/
theorem history_skip {w : RegWrite} (hw : ofOffset? w.offset = none) (sel : MmioReg) (i : Nat)
    (r : MmioReg) (ws : List RegWrite) :
    selected sel (w :: ws) = selected sel ws ∧ lastUnder sel i r (w :: ws) = lastUnder sel i r ws := by
  have hne : ∀ s : MmioReg, w.offset ≠ s.offset := by
    intro s hs
    have := ofOffset?_eq_some.2 hs.symm
    rw [hw] at this
    cases this
  have hnr : ¬w.Resets := fun h => hne status h.1
  rw [selected, lastUnder, if_neg hnr, if_neg hnr, if_neg (hne sel), if_neg fun h => hne r h.1]
  exact ⟨rfl, rfl⟩

/-! ## The transport's state and its history -/

/-- `writes` in the order they are made. -/
def afterWrites (m : VirtioMmio) (writes : List RegWrite) : VirtioMmio :=
  writes.foldl (fun m w => virtioMmioWrite m w.offset w.rawValue) m

/-- `m` is what the history `ws`, newest write first, makes of `vdev`. -/
structure RegsInv (vdev : VirtioDevice) (ws : List RegWrite) (m : VirtioMmio) : Prop where
  sel : m.queueSel = selected .queueSel ws
  fsel : m.driverFeaturesSel = selected .driverFeaturesSel ws
  size : m.vdev.queueSize = vdev.queueSize
  count : m.vdev.queues.length = vdev.queues.length
  words : ∀ i p, m.vdev.queues[i]? = some p → ∀ r ∈ queueStateOffsets,
    queueWord p r = (lastUnder .queueSel i r ws).getD (queueWord (resetQueue vdev.queueSize) r)
  featuresLow : lowWord m.vdev.driverFeatures = (lastUnder .driverFeaturesSel 0 .driverFeatures ws).getD 0
  featuresHigh : highWord m.vdev.driverFeatures = (lastUnder .driverFeaturesSel 1 .driverFeatures ws).getD 0

variable {vdev : VirtioDevice} {ws : List RegWrite} {m : VirtioMmio}

/-- After a reset, and at the start, the history says nothing. -/
theorem regsInv_reset (hsize : m.vdev.queueSize = vdev.queueSize)
    (hcount : m.vdev.queues.length = vdev.queues.length) (hsel : ∀ sel, selected sel ws = 0)
    (hlast : ∀ sel i r, lastUnder sel i r ws = none) : RegsInv vdev ws (virtioMmioReset m) where
  sel := (hsel _).symm
  fsel := (hsel _).symm
  size := hsize
  count := (List.length_map ..).trans hcount
  words := by
    intro i p hp r _
    have hp : (m.vdev.queues.map fun _ => resetQueue m.vdev.queueSize)[i]? = some p := hp
    rw [List.getElem?_map] at hp
    obtain ⟨_, _, rfl⟩ := Option.map_eq_some_iff.1 hp
    rw [hlast, hsize, Option.getD_none]
  featuresLow := by
    rw [hlast]
    rfl
  featuresHigh := by
    rw [hlast]
    show highWord 0 = 0
    decide

theorem RegsInv.init (vdev : VirtioDevice) : RegsInv vdev [] (virtioMmioInit vdev) :=
  regsInv_reset rfl rfl (fun _ => rfl) fun _ _ _ => rfl

namespace RegsInv

variable {w : RegWrite} {r : MmioReg} (h : RegsInv vdev ws m) (hr : w.offset = r.offset) (hw : ¬w.Resets)
include h hr hw

/-- A register that is neither a queue's nor the features' moves a selector at most. -/
theorem write_other (hq : r ∉ queueStateOffsets) (hf : r ≠ .driverFeatures)
    (hsize : (writeReg m w.value r).vdev.queueSize = m.vdev.queueSize) :
    RegsInv vdev (w :: ws) (writeReg m w.value r) := by
  have hv : r = .status → w.value ≠ 0 := fun hs h0 => hw ⟨hr.trans (congrArg offset hs), h0⟩
  obtain ⟨hsel, hfsel, hfeat, hqueues⟩ := writeReg_frame m hv
  have hlast : ∀ sel i s, s = .driverFeatures ∨ s ∈ queueStateOffsets → lastUnder sel i s (w :: ws) = lastUnder sel i s ws := by
    intro sel i s hs
    rw [lastUnder_cons hr hw, if_neg]
    rintro ⟨rfl, -⟩
    exact hs.elim hf hq
  refine ⟨?_, ?_, hsize.trans h.size, ?_, ?_, ?_, ?_⟩
  · rw [hsel, h.sel, selected_cons hr hw]
  · rw [hfsel, h.fsel, selected_cons hr hw]
  · rw [hqueues hq]
    exact h.count
  · intro i p hp s hs
    rw [hqueues hq] at hp
    rw [hlast _ _ _ (.inr hs)]
    exact h.words i p hp s hs
  · rw [hfeat hf, hlast _ _ _ (.inl rfl)]
    exact h.featuresLow
  · rw [hfeat hf, hlast _ _ _ (.inl rfl)]
    exact h.featuresHigh

theorem write_queue (hq : r ∈ queueStateOffsets) :
    RegsInv vdev (w :: ws) (writeReg m w.value r) := by
  have hne : ∀ s, s ∉ queueStateOffsets → r ≠ s := fun s hs he => hs (he ▸ hq)
  have hsel : ∀ s, s ∉ queueStateOffsets → selected s (w :: ws) = selected s ws := fun s hs => by
    rw [selected_cons hr hw, if_neg (hne s hs)]
  have hfeat : ∀ i, lastUnder .driverFeaturesSel i .driverFeatures (w :: ws) =
      lastUnder .driverFeaturesSel i .driverFeatures ws := fun i => by
    rw [lastUnder_cons hr hw, if_neg fun he => hne _ (by decide) he.1]
  rw [writeReg_queueWord m hq]
  refine ⟨?_, ?_, h.size, (onQueue_length ..).trans h.count, ?_, ?_, ?_⟩
  · rw [hsel _ (by decide)]
    exact h.sel
  · rw [hsel _ (by decide)]
    exact h.fsel
  · intro i p hp s hs
    obtain ⟨p₀, hp₀, rfl⟩ := onQueue_get hp
    have hold := h.words i p₀ hp₀ s hs
    rw [lastUnder_cons hr hw, ← h.sel]
    -- the queue the write is for takes the value, in the register it is for
    by_cases hi : i = m.queueSel.toNat
    · rw [if_pos hi, queueWord_set p₀ hq]
      by_cases hs' : s = r
      · rw [if_pos hs', if_pos ⟨hs'.symm, hi.symm⟩, Option.getD_some]
      · rw [if_neg hs', if_neg fun he => hs' he.1.symm, hold]
    · rw [if_neg hi, if_neg fun he => hi he.2.symm, hold]
  · rw [hfeat]
    exact h.featuresLow
  · rw [hfeat]
    exact h.featuresHigh

end RegsInv

theorem writeReg_featureWords (m : VirtioMmio) (v : UInt32) :
    lowWord (writeReg m v .driverFeatures).vdev.driverFeatures =
      (if m.driverFeaturesSel = 0 then v else lowWord m.vdev.driverFeatures) ∧
    highWord (writeReg m v .driverFeatures).vdev.driverFeatures =
      (if m.driverFeaturesSel = 1 then v else highWord m.vdev.driverFeatures) := by
  simp only [writeReg]
  by_cases h0 : m.driverFeaturesSel = 0
  · simp [h0, lowWord_setLow, highWord_setLow]
  · by_cases h1 : m.driverFeaturesSel = 1
    · simp [h1, lowWord_setHigh, highWord_setHigh]
    · simp [h0, h1]

theorem writeReg_features_size (m : VirtioMmio) (v : UInt32) :
    (writeReg m v .driverFeatures).vdev.queueSize = m.vdev.queueSize := by
  simp only [writeReg]
  split
  · rfl
  · split <;> rfl

theorem RegsInv.write_features (h : RegsInv vdev ws m) {w : RegWrite}
    (hr : w.offset = driverFeatures.offset) :
    RegsInv vdev (w :: ws) (writeReg m w.value .driverFeatures) := by
  have hw : ¬w.Resets := fun h => absurd (offset_inj (hr.symm.trans h.1)) (by decide)
  have hlast : ∀ k : UInt32, (lastUnder .driverFeaturesSel k.toNat .driverFeatures (w :: ws)).getD 0 =
      if m.driverFeaturesSel = k then w.value else (lastUnder .driverFeaturesSel k.toNat .driverFeatures ws).getD 0 := by
    intro k
    rw [lastUnder_cons hr hw, h.fsel]
    simp only [true_and, UInt32.toNat_inj]
    split <;> rfl
  have hv : MmioReg.driverFeatures = .status → w.value ≠ 0 := fun he => by cases he
  obtain ⟨hsel, hfsel, -, hqueues⟩ := writeReg_frame m hv
  obtain ⟨hlow, hhigh⟩ := writeReg_featureWords m w.value
  refine ⟨?_, ?_, (writeReg_features_size ..).trans h.size, hqueues (by decide) ▸ h.count, ?_, ?_, ?_⟩
  · rw [selected_cons hr hw, if_neg (by decide), hsel]
    exact h.sel
  · rw [selected_cons hr hw, if_neg (by decide), hfsel]
    exact h.fsel
  · intro i p hp s hs
    rw [hqueues (by decide)] at hp
    have hne : MmioReg.driverFeatures ≠ s := fun he => absurd (he ▸ hs) (by decide)
    rw [lastUnder_cons hr hw, if_neg fun he => hne he.1]
    exact h.words i p hp s hs
  · rw [hlow, h.featuresLow]
    exact (hlast 0).symm
  · rw [hhigh, h.featuresHigh]
    exact (hlast 1).symm

/-- One write and one more entry of the history. -/
theorem RegsInv.write (h : RegsInv vdev ws m) (w : RegWrite) :
    RegsInv vdev (w :: ws) (virtioMmioWrite m w.offset w.rawValue) := by
  rw [virtioMmioWrite]
  cases hr : ofOffset? w.offset with
  | none =>
    have hskip := fun sel i r => history_skip hr sel i r ws
    refine ⟨?_, ?_, h.size, h.count, fun i p hp r hm => ?_, ?_, ?_⟩
    · rw [(hskip _ 0 .status).1]
      exact h.sel
    · rw [(hskip _ 0 .status).1]
      exact h.fsel
    · rw [(hskip _ i r).2]
      exact h.words i p hp r hm
    · rw [(hskip _ 0 _).2]
      exact h.featuresLow
    · rw [(hskip _ 1 _).2]
      exact h.featuresHigh
  | some r =>
    have hr : w.offset = r.offset := (ofOffset?_eq_some.1 hr).symm
    show RegsInv vdev (w :: ws) (writeReg m w.value r)
    by_cases hw : w.Resets
    · obtain rfl : r = .status := offset_inj (hr.symm.trans hw.1)
      rw [writeReg, if_pos hw.2]
      exact regsInv_reset h.size h.count (fun sel => selected_reset hw sel ws) fun sel i r => lastUnder_reset hw sel i r ws
    · by_cases hq : r ∈ queueStateOffsets
      · exact h.write_queue hr hw hq
      · by_cases hf : r = .driverFeatures
        · subst hf
          exact h.write_features hr
        · refine h.write_other hr hw hq hf ?_
          cases r with
          | driverFeatures => exact absurd rfl hf
          | status =>
            rw [writeReg, if_neg fun h0 => hw ⟨hr, h0⟩]
          | _ => rfl

/-- A run of writes: the newest is the last one made. -/
theorem RegsInv.writes (h : RegsInv vdev ws m) (writes : List RegWrite) :
    RegsInv vdev (writes.reverse ++ ws) (afterWrites m writes) := by
  induction writes generalizing ws m with
  | nil => exact h
  | cons w writes ih =>
    rw [List.reverse_cons, List.append_assoc]
    exact ih (h.write w)

/-! ## The result -/

theorem toNat_of_words (x : UInt64) :
    x.toNat = (highWord x).toNat * 2 ^ 32 + (lowWord x).toNat := by
  have hx := x.toNat_lt
  have hl : (lowWord x).toNat = x.toNat % 2 ^ 32 := UInt64.toNat_toUInt32 x
  have hh : (highWord x).toNat = x.toNat / 2 ^ 32 := by
    rw [highWord, UInt64.toNat_toUInt32, UInt64.toNat_shiftRight]
    rw [show (32 : UInt64).toNat % 64 = 32 from rfl, Nat.shiftRight_eq_div_pow]
    omega
  omega

/-- No queue is selected, so no queue register is written. -/
theorem write_unselected {m : VirtioMmio} (h : m.vdev.queues.length ≤ m.queueSel.toNat)
    {r : MmioReg} (hr : r ∈ queueStateOffsets) (rawValue : UInt64) :
    virtioMmioWrite m r.offset rawValue = m := by
  rw [virtioMmioWrite, ofOffset?_eq_some.2 rfl]
  show writeReg m rawValue.toUInt32 r = m
  rw [writeReg_queueWord m hr, onQueue, List.modify_eq_self h]

/-- The address in a pair of registers, from the last values written to them. -/
def lastAddress (i : Nat) (high low : MmioReg) (ws : List RegWrite) : Nat :=
  ((lastUnder .queueSel i high ws).getD 0).toNat * 2 ^ 32 + ((lastUnder .queueSel i low ws).getD 0).toNat

/-- **The register file is its history.** After any writes since
`virtio_mmio_init`, each queue's registers and the driver's features are the
last values written under the selector in force at the time, and under a
selector past the last queue a queue register ignores the write. -/
theorem register_file_refines (vdev : VirtioDevice) (writes : List RegWrite) :
    let m := afterWrites (virtioMmioInit vdev) writes
    let ws := writes.reverse
    m.vdev.queues.length = vdev.queues.length ∧
    (∀ i p, m.vdev.queues[i]? = some p →
      p.num = (lastUnder .queueSel i .queueNum ws).getD vdev.queueSize ∧
      p.ready = (lastUnder .queueSel i .queueReady ws).getD 0 ∧
      p.desc.toNat = lastAddress i .queueDescHigh .queueDescLow ws ∧
      p.avail.toNat = lastAddress i .queueAvailHigh .queueAvailLow ws ∧
      p.used.toNat = lastAddress i .queueUsedHigh .queueUsedLow ws) ∧
    m.vdev.driverFeatures.toNat =
      ((lastUnder .driverFeaturesSel 1 .driverFeatures ws).getD 0).toNat * 2 ^ 32 +
        ((lastUnder .driverFeaturesSel 0 .driverFeatures ws).getD 0).toNat ∧
    (vdev.queues.length ≤ (selected .queueSel ws).toNat →
      ∀ r ∈ queueStateOffsets, ∀ rawValue, virtioMmioWrite m r.offset rawValue = m) := by
  intro m ws
  have h : RegsInv vdev ws m := by
    have := (RegsInv.init vdev).writes writes
    rwa [List.append_nil] at this
  refine ⟨h.count, fun i p hp => ?_, ?_, fun hout r hr v => ?_⟩
  · have hzero : ∀ r ∈ queueStateOffsets, r ≠ .queueNum → queueWord p r = (lastUnder .queueSel i r ws).getD 0 := by
      intro r hr hne
      rw [h.words i p hp r hr, resetQueue_word _ r hr hne]
    have haddr : ∀ (x : UInt64) (high low : MmioReg), highWord x = (lastUnder .queueSel i high ws).getD 0 →
        lowWord x = (lastUnder .queueSel i low ws).getD 0 → x.toNat = lastAddress i high low ws := by
      intro x high low hh hl
      rw [toNat_of_words, hh, hl]
      rfl
    exact ⟨h.words i p hp .queueNum (by decide), hzero .queueReady (by decide) (by decide),
      haddr p.desc _ _ (hzero .queueDescHigh (by decide) (by decide)) (hzero .queueDescLow (by decide) (by decide)),
      haddr p.avail _ _ (hzero .queueAvailHigh (by decide) (by decide)) (hzero .queueAvailLow (by decide) (by decide)),
      haddr p.used _ _ (hzero .queueUsedHigh (by decide) (by decide)) (hzero .queueUsedLow (by decide) (by decide))⟩
  · rw [toNat_of_words, h.featuresLow, h.featuresHigh]
  · rw [← h.count, ← h.sel] at hout
    exact write_unselected hout hr v

end AcsVirt.L2
