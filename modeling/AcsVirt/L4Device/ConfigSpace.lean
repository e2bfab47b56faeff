import AcsVirt.L2Machine.LinuxUio
import AcsVirt.L4Device.Blkd
import AcsVirt.L4Device.Consoled

/-!
# Config space on the two fabrics

The socket fabric hands every guest read to the device model with its own
offset and width; `get_config` answers by the offset at which a field starts
and ignores the width, the transport cuts the answer to the width. The UIO
fabric asks for the aligned words only and publishes them, so there a guest
read is a slice of their bytes (`configByte`).

The two agree on an aligned read of at most a word. Past that word, and from
an offset inside a word, the model's answer knows nothing of the bytes the
slice runs over: they have to be zero (`agree_iff`). For the block device that
decides every read, since all its fields start at a multiple of 4. The
console's `rows` does not; the window never shows it (`config_space_agrees`).
-/
namespace AcsVirt.L4

open L2

/-! ## The window as bytes -/

/-- The shared file: each word is stored little-endian.
mirrors src/fabrics/linux_uio.c:62-67,324-328 -/
def windowBytes (w : Window) : Mem :=
  fun o => UInt8.ofNat ((w (UInt64.ofNat (o / 4 * 4))).toNat / 256 ^ (o % 4))

/-- A guest read of the window.
mirrors patches/qemu/0001-chiplets-qemu-support.patch:787-802 -/
def windowRead (w : Window) (offset : UInt64) (len : UInt32) : Nat :=
  leNat (readBytes (windowBytes w) offset.toNat len.toNat)

/-! ## A config callback -/

/-- What both daemons' `get_config` do. -/
structure WordConfig (getConfig : UInt64 → UInt32 → UInt64) : Prop where
  width : ∀ o len, getConfig o len = getConfig o 4
  small : ∀ o, (getConfig o 4).toNat < 256 ^ 4

/-- The value of the field that starts at byte `j`. -/
def configField (getConfig : UInt64 → UInt32 → UInt64) (j : Nat) : Nat :=
  (getConfig (UInt64.ofNat j) 4).toNat

/-- Byte `j` of the config words, one after the other. -/
def configByte (getConfig : UInt64 → UInt32 → UInt64) : Mem := fun j =>
  UInt8.ofNat (configField getConfig (j / 4 * 4) / 256 ^ (j % 4))

/-- Where the bytes begin that the answer for offset `j` does not cover. -/
def uncovered (j : Nat) : Nat := if j % 4 = 0 then j + 4 else j

section
variable {getConfig : UInt64 → UInt32 → UInt64}

theorem WordConfig.field_lt (hg : WordConfig getConfig) (j : Nat) :
    configField getConfig j < 256 ^ 4 :=
  hg.small _

theorem configByte_word (i : Nat) {n : Nat} (hn : n ≤ 4) :
    readBytes (configByte getConfig) (4 * i) n = leBytes n (configField getConfig (4 * i)) := by
  refine readBytes_eq_leBytes fun k hk => ?_
  have hd : (4 * i + k) / 4 * 4 = 4 * i := by omega
  have hm : (4 * i + k) % 4 = k := by omega
  rw [configByte, hd, hm]

/-- The slice against the answer. -/
theorem agree_iff (hg : WordConfig getConfig) {j n : Nat}
    (hj : j % 4 = 0 ∨ configField getConfig j = 0) :
    leNat (readBytes (configByte getConfig) j n) = configField getConfig j % 256 ^ n ↔
      ∀ i, uncovered j ≤ i → i < j + n → configByte getConfig i = 0 := by
  by_cases ha : j % 4 = 0
  · obtain ⟨i, rfl⟩ : ∃ i, j = 4 * i := ⟨j / 4, by omega⟩
    rw [uncovered, if_pos ha]
    rcases Nat.le_total n 4 with hn | hn
    · rw [configByte_word i hn, leNat_leBytes]
      exact iff_of_true rfl fun i h1 h2 => by omega
    · -- the word itself agrees, what follows it has to vanish
      obtain ⟨k, rfl⟩ : ∃ k, n = 4 + k := ⟨n - 4, by omega⟩
      have hlt : configField getConfig (4 * i) < 256 ^ (4 + k) :=
        Nat.lt_of_lt_of_le (hg.field_lt _) (Nat.pow_le_pow_right (by decide) (Nat.le_add_right 4 k))
      rw [readBytes_add, leNat_append, configByte_word i (Nat.le_refl 4), leNat_leBytes_of_lt (hg.field_lt _),
        leBytes_length, Nat.mod_eq_of_lt hlt, ← Nat.add_assoc, ← leNat_readBytes_eq_zero]
      omega
  · rw [uncovered, if_neg ha, hj.resolve_left ha, Nat.zero_mod]
    exact leNat_readBytes_eq_zero

end

/-! ## The socket's answer -/

def accessWidths : List UInt32 := [1, 2, 4, 8]

theorem maskRead_toNat (v : UInt64) {len : UInt32} (h : len ∈ accessWidths) :
    (maskRead v len).toNat = v.toNat % 256 ^ len.toNat := by
  have hv := v.toNat_lt
  have hmask : ∀ k, v.toNat &&& (2 ^ k - 1) = v.toNat % 2 ^ k := Nat.and_two_pow_sub_one_eq_mod v.toNat
  simp only [accessWidths, List.mem_cons, List.not_mem_nil, or_false] at h
  rcases h with rfl | rfl | rfl | rfl
  · exact (UInt64.toNat_and ..).trans (hmask 8)
  · exact (UInt64.toNat_and ..).trans (hmask 16)
  · exact (UInt64.toNat_and ..).trans (hmask 32)
  · exact (Nat.mod_eq_of_lt hv).symm

theorem ofOffset?_config {offset : UInt64} (h : virtioMmioConfig ≤ offset) :
    MmioReg.ofOffset? offset = none := by
  cases hr : MmioReg.ofOffset? offset with
  | none => rfl
  | some r =>
    have hoff := MmioReg.ofOffset?_eq_some.1 hr
    have hlt : r.offset < virtioMmioConfig := by cases r <;> decide
    exact absurd (hoff ▸ h) (UInt64.not_le.2 hlt)

theorem virtioMmioRead_config (ops : VirtioDeviceOps) (m : VirtioMmio) {offset : UInt64}
    (h : virtioMmioConfig ≤ offset) (len : UInt32) :
    virtioMmioRead ops m offset len = maskRead (ops.getConfig (offset - virtioMmioConfig) len) len := by
  rw [virtioMmioRead, ofOffset?_config h]
  show maskRead (if virtioMmioConfig ≤ offset then _ else _) len = _
  rw [if_pos h]

/-! ## The published words -/

section
variable {P : Type} {ops : P → VirtioDeviceOps} {notify : Device P → UInt32 → FabricM (Device P × Bool)}

theorem mem_configOffsets {z : UioSizes} (hz : z.devSize = 0x200) {i : Nat} (hi : i < 64) :
    virtioMmioConfig + 4 * UInt64.ofNat i ∈ configOffsets z ∧ z.fits (virtioMmioConfig + 4 * UInt64.ofNat i) := by
  have hmin : min z.devSize z.mmioSize = z.devSize := if_pos z.covers
  have hn : (virtioMmioConfig + 4 * UInt64.ofNat i + 4).toNat = 0x100 + 4 * i + 4 := by
    rw [UInt64.toNat_add, UInt64.toNat_add, UInt64.toNat_mul, UInt64.toNat_ofNat', show virtioMmioConfig.toNat = 0x100 from rfl,
      show (4 : UInt64).toNat = 4 from rfl]
    omega
  have hle : virtioMmioConfig + 4 * UInt64.ofNat i + 4 ≤ z.devSize := by
    rw [hz, UInt64.le_iff_toNat_le, hn, show (0x200 : UInt64).toNat = 0x200 from rfl]
    omega
  refine ⟨List.mem_map.2 ⟨i, List.mem_range.2 ?_, rfl⟩, ?_⟩
  · rw [hmin, hz]
    exact hi
  · simp only [UioSizes.fits, hle, UInt64.le_trans hle z.covers, decide_true, Bool.and_self]

theorem refresh_config {z : UioSizes} (hz : z.devSize = 0x200)
    (hops : ∀ p, WordConfig (ops p).getConfig) (u : UioState (FabricBinding P)) {j : Nat}
    (hj : j < 0x100) :
    windowBytes (refreshReadRegisters z (bindingDevice ops notify) u).window (0x100 + j) =
      configByte (ops u.dev.priv).getConfig j := by
  obtain ⟨hmem, hfits⟩ := mem_configOffsets hz (show j / 4 < 64 by omega)
  have hoff : UInt64.ofNat ((0x100 + j) / 4 * 4) = virtioMmioConfig + 4 * UInt64.ofNat (j / 4) := by
    apply UInt64.toNat_inj.mp
    rw [UInt64.toNat_add, UInt64.toNat_mul, UInt64.toNat_ofNat', UInt64.toNat_ofNat', show virtioMmioConfig.toNat = 0x100 from rfl,
      show (4 : UInt64).toNat = 4 from rfl]
    omega
  have hsub : virtioMmioConfig + 4 * UInt64.ofNat (j / 4) - virtioMmioConfig = UInt64.ofNat (j / 4 * 4) := by
    rw [UInt64.add_comm, UInt64.add_sub_cancel, Nat.mul_comm, UInt64.ofNat_mul]
    rfl
  have hle : virtioMmioConfig ≤ virtioMmioConfig + 4 * UInt64.ofNat (j / 4) := by
    rw [UInt64.le_iff_toNat_le, ← hoff, UInt64.toNat_ofNat', show virtioMmioConfig.toNat = 0x100 from rfl]
    omega
  have hword : ((refreshReadRegisters z (bindingDevice ops notify) u).window (virtioMmioConfig + 4 * UInt64.ofNat (j / 4))).toNat =
      configField (ops u.dev.priv).getConfig (j / 4 * 4) := by
    refine congrArg UInt32.toNat (foldl_publish (fun off => (virtioMmioRead (ops u.dev.priv) u.dev.mmio off 4).toUInt32) z.fits _ u.window
      _) |>.trans ?_
    rw [if_pos ⟨List.mem_append_right _ hmem, hfits⟩, virtioMmioRead_config _ _ hle, hsub, UInt64.toNat_toUInt32,
      maskRead_toNat _ (by decide)]
    have hlt := (hops u.dev.priv).field_lt (j / 4 * 4)
    exact (congrArg (· % 2 ^ 32) (Nat.mod_eq_of_lt hlt)).trans (Nat.mod_eq_of_lt hlt)
  rw [windowBytes, hoff, hword, configByte, show (0x100 + j) % 4 = j % 4 by omega]

variable (ops notify) in
/-- Both answers to one guest read, as numbers. -/
theorem config_reads {z : UioSizes} (hz : z.devSize = 0x200)
    (hops : ∀ p, WordConfig (ops p).getConfig) (u : UioState (FabricBinding P)) {offset : UInt64}
    {len : UInt32} (hlen : len ∈ accessWidths) (hlo : virtioMmioConfig ≤ offset)
    (hhi : offset.toNat + len.toNat ≤ 0x200) :
    windowRead (refreshReadRegisters z (bindingDevice ops notify) u).window offset len =
      leNat (readBytes (configByte (ops u.dev.priv).getConfig) (offset.toNat - 0x100) len.toNat) ∧
    (virtioMmioRead (ops u.dev.priv) u.dev.mmio offset len).toNat =
      configField (ops u.dev.priv).getConfig (offset.toNat - 0x100) % 256 ^ len.toNat := by
  have hlo' : 0x100 ≤ offset.toNat := UInt64.le_iff_toNat_le.1 hlo
  constructor
  · rw [windowRead]
    refine congrArg leNat (List.map_congr_left fun k hk => ?_)
    have hk := List.mem_range.1 hk
    rw [show offset.toNat + k = 0x100 + (offset.toNat - 0x100 + k) by omega]
    exact refresh_config hz hops u (by omega)
  · have hsub : offset - virtioMmioConfig = UInt64.ofNat (offset.toNat - 0x100) := by
      apply UInt64.toNat_inj.mp
      rw [UInt64.toNat_sub_of_le _ _ hlo, UInt64.toNat_ofNat', show virtioMmioConfig.toNat = 0x100 from rfl]
      have := offset.toNat_lt
      omega
    rw [virtioMmioRead_config _ _ hlo, maskRead_toNat _ hlen, hsub, (hops _).width]
    rfl

end

/-! ## The block device -/

theorem blkd_wordConfig (s : BlkdState) : WordConfig (blkdOps s).getConfig where
  width _ _ := rfl
  small o := by
    have hw : ∀ w : UInt32, w.toUInt64.toNat < 256 ^ 4 := fun w => by
      rw [UInt32.toNat_toUInt64]
      exact w.toNat_lt
    show (blkdGetConfig s o 4).toNat < 256 ^ 4
    unfold blkdGetConfig
    split
    · exact hw _
    split
    · exact hw _
    repeat' split
    all_goals decide

/-- `struct virtio_blk_config` as the daemon fills it: the capacity, `size_max`
= 0x40000, `seg_max` = 128 and `blk_size` = 512. -/
def blkdConfigByte (capacity : UInt64) (i : Nat) : UInt8 :=
  if i < 8 then UInt8.ofNat (capacity.toNat / 256 ^ i)
  else if i = 10 then 4
  else if i = 12 then 128
  else if i = 21 then 2
  else 0

theorem blkd_configField (s : BlkdState) {j : Nat} (hj : j < 0x100) :
    configField (blkdOps s).getConfig j =
      if j = 0 then s.capacitySectors.toNat % 2 ^ 32
      else if j = 4 then s.capacitySectors.toNat / 2 ^ 32
      else if j = 8 then 0x40000
      else if j = 12 then 128
      else if j = 20 then 512
      else 0 := by
  have hofNat : ∀ k < 0x100, (UInt64.ofNat j = UInt64.ofNat k) = (j = k) := by
    intro k hk
    rw [← UInt64.toNat_inj, UInt64.toNat_ofNat', UInt64.toNat_ofNat', Nat.mod_eq_of_lt (by omega), Nat.mod_eq_of_lt (by omega)]
  have hlow : (s.capacitySectors.toUInt32.toUInt64).toNat = s.capacitySectors.toNat % 2 ^ 32 := by
    rw [UInt32.toNat_toUInt64, UInt64.toNat_toUInt32]
  have hhigh : ((s.capacitySectors >>> 32).toUInt32.toUInt64).toNat = s.capacitySectors.toNat / 2 ^ 32 := by
    have := s.capacitySectors.toNat_lt
    rw [UInt32.toNat_toUInt64, UInt64.toNat_toUInt32, UInt64.toNat_shiftRight, show (32 : UInt64).toNat % 64 = 32 from rfl,
      Nat.shiftRight_eq_div_pow]
    omega
  show (if UInt64.ofNat j = UInt64.ofNat 0 then s.capacitySectors.toUInt32.toUInt64
    else if UInt64.ofNat j = UInt64.ofNat 4 then (s.capacitySectors >>> 32).toUInt32.toUInt64
    else if UInt64.ofNat j = UInt64.ofNat 8 then blkdMaxSegSize.toUInt64
    else if UInt64.ofNat j = UInt64.ofNat 12 then blkdMaxSegments.toUInt64
    else if UInt64.ofNat j = UInt64.ofNat 20 then blkdSectorSize else 0).toNat = _
  simp only [hofNat 0 (by decide), hofNat 4 (by decide), hofNat 8 (by decide), hofNat 12 (by decide), hofNat 20 (by decide)]
  split
  · exact hlow
  split
  · exact hhigh
  repeat' split
  all_goals rfl

theorem blkd_configByte (s : BlkdState) {i : Nat} (hi : i < 0x100) :
    configByte (blkdOps s).getConfig i = blkdConfigByte s.capacitySectors i := by
  have hc := s.capacitySectors.toNat_lt
  apply UInt8.toNat_inj.mp
  rw [configByte, blkd_configField s (by omega), UInt8.toNat_ofNat', blkdConfigByte]
  -- eight bytes of capacity, four words with a field each, zeros
  by_cases h8 : i < 8
  · obtain rfl | rfl | rfl | rfl | rfl | rfl | rfl | rfl :
        i = 0 ∨ i = 1 ∨ i = 2 ∨ i = 3 ∨ i = 4 ∨ i = 5 ∨ i = 6 ∨ i = 7 := by omega
    all_goals
      simp only [Nat.reduceDiv, Nat.reduceMod, Nat.reduceMul, Nat.reducePow, Nat.reduceEqDiff, Nat.reduceLT, if_true, if_false,
        UInt8.toNat_ofNat']
      omega
  · rw [if_neg (by omega : i / 4 * 4 ≠ 0), if_neg (by omega : i / 4 * 4 ≠ 4), if_neg h8]
    by_cases h24 : i < 24
    · have hfixed : ∀ i < 24, ¬i < 8 →
          (if i / 4 * 4 = 8 then 0x40000 else if i / 4 * 4 = 12 then 128 else if i / 4 * 4 = 20 then 512 else 0) / 256 ^ (i % 4) % 2 ^ 8 =
            (if i = 10 then 4 else if i = 12 then 128 else if i = 21 then 2 else 0 : UInt8).toNat := by decide
      exact hfixed i h24 h8
    · rw [if_neg (by omega), if_neg (by omega), if_neg (by omega), if_neg (by omega), if_neg (by omega), if_neg (by omega),
        Nat.zero_div]
      rfl

theorem blkd_unaligned (s : BlkdState) {j : Nat} (hj : j < 0x100) :
    j % 4 = 0 ∨ configField (blkdOps s).getConfig j = 0 := by
  rw [blkd_configField s hj]
  by_cases h : j % 4 = 0
  · exact .inl h
  · rw [if_neg (by omega), if_neg (by omega), if_neg (by omega), if_neg (by omega), if_neg (by omega)]
    exact .inr rfl

/-! ## The console -/

theorem cond_wordConfig : WordConfig condOps.getConfig where
  width _ _ := rfl
  small o := by
    show (condGetConfig o 4).toNat < 256 ^ 4
    unfold condGetConfig
    repeat' split
    all_goals decide

/-- `cols` and `max_nr_ports`; `rows` starts inside the first word. -/
theorem cond_configByte :
    ∀ i < 0x100, configByte condOps.getConfig i = if i = 0 then 80 else if i = 4 then 1 else 0 := by
  decide +kernel

theorem cond_unaligned : ∀ j < 0x100, j ≠ 2 → j % 4 = 0 ∨ configField condOps.getConfig j = 0 := by
  decide +kernel

theorem cond_agree {j n : Nat} (hj : j ≠ 2) (hn : j + n ≤ 0x100) (h0 : 0 < n) :
    leNat (readBytes (configByte condOps.getConfig) j n) = configField condOps.getConfig j % 256 ^ n ↔
      4 ≤ j ∨ j + n ≤ 4 := by
  rw [agree_iff cond_wordConfig (cond_unaligned j (by omega) hj)]
  constructor
  · intro h
    rcases Nat.lt_or_ge j 4 with hlt | hge
    · refine .inr (Nat.le_of_not_lt fun hover => ?_)
      have hbyte := h 4 (by unfold uncovered; split <;> omega) hover
      rw [cond_configByte 4 (by decide)] at hbyte
      exact absurd hbyte (by decide)
    · exact .inl hge
  · intro h i h1 h2
    unfold uncovered at h1
    rw [cond_configByte i (by omega), if_neg (by split at h1 <;> omega), if_neg (by split at h1 <;> omega)]

theorem cond_rows_differ {len : UInt32} (hlen : len ∈ accessWidths) :
    leNat (readBytes (configByte condOps.getConfig) 2 len.toNat) ≠ configField condOps.getConfig 2 % 256 ^ len.toNat := by
  simp only [accessWidths, List.mem_cons, List.not_mem_nil, or_false] at hlen
  rcases hlen with rfl | rfl | rfl | rfl <;> decide +kernel

/-! ## The result -/

/-- **Config space on the two fabrics.** A guest read inside the config range
gives the same value over the UIO window as over the socket iff, on the block
device, it runs over no non-zero byte besides the aligned word it may start, and
on the console it does not start at `rows` and does not run over the start of
`max_nr_ports`. -/
theorem config_space_agrees (z : UioSizes) (hz : z.devSize = 0x200) (fuel : Nat) (offset : UInt64)
    (len : UInt32) (hlen : len ∈ accessWidths) (hlo : virtioMmioConfig ≤ offset)
    (hhi : offset.toNat + len.toNat ≤ 0x200) :
    (∀ direct (u : UioState (FabricBinding BlkdState)),
      windowRead (refreshReadRegisters z (blkdFabricInitDevice direct fuel) u).window offset len =
          (blkdMmioRead u.dev offset len).toNat ↔
        ∀ i, uncovered (offset.toNat - 0x100) ≤ i → i < offset.toNat - 0x100 + len.toNat →
          blkdConfigByte u.dev.priv.capacitySectors i = 0) ∧
    (∀ u : UioState (FabricBinding Unit),
      windowRead (refreshReadRegisters z (condFabricInitDevice fuel) u).window offset len =
          (condMmioRead u.dev offset len).toNat ↔
        offset ≠ 0x102 ∧ (0x104 ≤ offset ∨ offset.toNat + len.toNat ≤ 0x104)) := by
  have hlo' : 0x100 ≤ offset.toNat := UInt64.le_iff_toNat_le.1 hlo
  have hpos : 0 < len.toNat := by
    simp only [accessWidths, List.mem_cons, List.not_mem_nil, or_false] at hlen
    rcases hlen with rfl | rfl | rfl | rfl <;> decide
  constructor
  · intro direct u
    obtain ⟨hw, hs⟩ := config_reads blkdOps (blkdVirtioNotifyQueue direct fuel) hz blkd_wordConfig u hlen hlo hhi
    rw [blkdMmioRead, hs]
    refine (Iff.of_eq (congrArg (· = _) hw)).trans ((agree_iff (blkd_wordConfig _) (blkd_unaligned _ (by omega))).trans ?_)
    refine forall_congr' fun i => imp_congr_right fun _ => ?_
    constructor
    · intro h hi
      rw [← blkd_configByte u.dev.priv (by omega)]
      exact h hi
    · intro h hi
      rw [blkd_configByte u.dev.priv (by omega)]
      exact h hi
  · intro u
    obtain ⟨hw, hs⟩ := config_reads (fun _ => condOps) (condVirtioNotifyQueue fuel) hz (fun _ => cond_wordConfig) u hlen hlo hhi
    rw [condMmioRead, hs]
    refine (Iff.of_eq (congrArg (· = _) hw)).trans ?_
    have hoff : 0x104 ≤ offset ↔ 0x104 ≤ offset.toNat := UInt64.le_iff_toNat_le
    by_cases hrows : offset = 0x102
    · rw [hrows]
      exact iff_of_false (cond_rows_differ hlen) fun h => h.1 rfl
    · have hj : offset.toNat - 0x100 ≠ 2 := by
        intro h
        apply hrows
        apply UInt64.toNat_inj.mp
        show offset.toNat = 0x102
        omega
      rw [cond_agree hj (by omega) hpos, hoff, and_iff_right hrows]
      omega

/-- A console that has just connected, on a blank window. -/
def consoleWindow : UioState (FabricBinding Unit) := ⟨fun _ => 0, fun _ => 0, condConnect⟩

/-- A disk of 2^32 + 3 sectors, on a blank window. -/
def diskWindow : UioState (FabricBinding BlkdState) :=
  ⟨fun _ => 0, fun _ => 0, blkdConnect ⟨⟨0, false⟩, 0, [], 0⟩ ⟨0x20000000600, false⟩⟩

/-- The low half of the capacity and the console's number of ports. -/
theorem config_space_agrees_words :
    windowRead (refreshReadRegisters pageSizes (blkdFabricInitDevice false 4) diskWindow).window 0x100 4 =
      (blkdMmioRead diskWindow.dev 0x100 4).toNat ∧
    windowRead (refreshReadRegisters pageSizes (condFabricInitDevice 4) consoleWindow).window 0x104 4 =
      (condMmioRead consoleWindow.dev 0x104 4).toNat :=
  ⟨((config_space_agrees pageSizes rfl 4 0x100 4 (by decide) (by decide) (by decide)).1 false diskWindow).2
      fun i h1 h2 => absurd (Nat.lt_of_le_of_lt h1 h2) (by decide),
    ((config_space_agrees pageSizes rfl 4 0x104 4 (by decide) (by decide) (by decide)).2 consoleWindow).2 (by decide)⟩

/-- `rows` reads 25 over the socket and 0 in the window; the capacity read in
one access has its upper half in the window only. -/
theorem config_space_differs :
    (condMmioRead consoleWindow.dev 0x102 2 = 25 ∧
      windowRead (refreshReadRegisters pageSizes (condFabricInitDevice 4) consoleWindow).window 0x102 2 = 0) ∧
    (blkdMmioRead diskWindow.dev 0x100 8 = 3 ∧
      windowRead (refreshReadRegisters pageSizes (blkdFabricInitDevice false 4) diskWindow).window 0x100 8 = 0x100000003) := by
  decide +kernel

end AcsVirt.L4
