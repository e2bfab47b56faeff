import Mathlib.Algebra.Group.Nat.Defs
import Mathlib.Data.List.GetD

/-!
# Byte memory

`Mem` is a byte for every address; `readBytes` / `writeBytes` move blocks,
as `memcpy` does, and after a sequence of writes each byte is the last one
stored there (`writeAll_apply`). A `Region` is an address range; two regions are apart when
no address is in both (so an empty region is apart from everything).
`runAccesses` is a party reading and writing bytes of a window.

The little-endian codec on naturals is here too: `leBytes w v` is the
`w`-byte encoding of `v`, `leNat` decodes, and the two invert each other
(`leNat_leBytes`, `leBytes_leNat`).
-/
namespace AcsVirt

abbrev Bytes := List UInt8

abbrev Mem := Nat → UInt8

def readBytes (m : Mem) (a n : Nat) : Bytes := (List.range n).map fun i => m (a + i)

def writeBytes (m : Mem) (a : Nat) (d : Bytes) : Mem :=
  fun x => if a ≤ x then d.getD (x - a) (m x) else m x

/-! ## Blocks -/

@[simp] theorem readBytes_length (m : Mem) (a n : Nat) : (readBytes m a n).length = n := by
  simp [readBytes]

@[simp] theorem readBytes_zero (m : Mem) (a : Nat) : readBytes m a 0 = [] := rfl

theorem readBytes_getElem? (m : Mem) (a n i : Nat) (h : i < n) :
    (readBytes m a n)[i]? = some (m (a + i)) := by
  simp [readBytes, h]

theorem readBytes_getD (m : Mem) (a n i : Nat) (d : UInt8) (h : i < n) :
    (readBytes m a n).getD i d = m (a + i) := by
  rw [List.getD_eq_getElem?_getD, readBytes_getElem? m a n i h]; rfl

theorem readBytes_congr {m m' : Mem} {a n : Nat} (h : ∀ x, a ≤ x → x < a + n → m x = m' x) :
    readBytes m a n = readBytes m' a n := by
  unfold readBytes
  apply List.map_congr_left
  intro i hi
  have := List.mem_range.1 hi
  exact h _ (by omega) (by omega)

theorem readBytes_add (m : Mem) (a n k : Nat) :
    readBytes m a (n + k) = readBytes m a n ++ readBytes m (a + n) k := by
  apply List.ext_getElem?
  intro i
  rw [List.getElem?_append, readBytes_length]
  by_cases h : i < n
  · rw [if_pos h, readBytes_getElem? m a _ i (by omega), readBytes_getElem? m a _ i h]
  · rw [if_neg h]
    by_cases h2 : i < n + k
    · rw [readBytes_getElem? m a _ i h2, readBytes_getElem? m _ _ _ (by omega)]
      congr 2; omega
    · rw [List.getElem?_eq_none (by simp; omega), List.getElem?_eq_none (by simp; omega)]

theorem writeBytes_out {m : Mem} {a x : Nat} {d : Bytes} (h : x < a ∨ a + d.length ≤ x) :
    writeBytes m a d x = m x := by
  unfold writeBytes
  split
  · rw [List.getD_eq_default _ _ (by omega)]
  · rfl

theorem writeBytes_in {m : Mem} {a x : Nat} {d : Bytes} (h1 : a ≤ x) (h2 : x < a + d.length)
    (y : UInt8) : writeBytes m a d x = d.getD (x - a) y := by
  unfold writeBytes
  rw [if_pos h1, List.getD_eq_getElem _ _ (by omega), List.getD_eq_getElem _ _ (by omega)]

@[simp] theorem writeBytes_nil (m : Mem) (a : Nat) : writeBytes m a [] = m := by
  funext x; exact writeBytes_out (by simp; omega)

theorem readBytes_writeBytes (m : Mem) (a : Nat) (d : Bytes) :
    readBytes (writeBytes m a d) a d.length = d := by
  apply List.ext_getElem?
  intro i
  by_cases h : i < d.length
  · rw [readBytes_getElem? _ _ _ _ h, writeBytes_in (by omega) (by omega) 0,
      List.getD_eq_getElem _ _ (by omega), List.getElem?_eq_getElem h]
    congr 2; omega
  · rw [List.getElem?_eq_none (by simp; omega), List.getElem?_eq_none (by omega)]

/-- A write next to what is read leaves it alone. -/
theorem readBytes_writeBytes_apart {m : Mem} {a n b : Nat} {d : Bytes}
    (h : ∀ x, a ≤ x → x < a + n → x < b ∨ b + d.length ≤ x) :
    readBytes (writeBytes m b d) a n = readBytes m a n :=
  readBytes_congr fun x h1 h2 => writeBytes_out (h x h1 h2)

theorem writeBytes_append (m : Mem) (a : Nat) (d e : Bytes) :
    writeBytes m a (d ++ e) = writeBytes (writeBytes m a d) (a + d.length) e := by
  funext x
  by_cases h1 : x < a
  · rw [writeBytes_out (.inl h1), writeBytes_out (.inl (by omega)), writeBytes_out (.inl h1)]
  by_cases h2 : x < a + d.length
  · rw [writeBytes_in (by omega) (by simp; omega) 0, writeBytes_out (.inl h2),
      writeBytes_in (by omega) h2 0, List.getD_append _ _ _ _ (by omega)]
  by_cases h3 : x < a + d.length + e.length
  · rw [writeBytes_in (by omega) (by simp; omega) 0, writeBytes_in (by omega) h3 0,
      List.getD_append_right _ _ _ _ (by omega)]
    congr 1; omega
  · rw [writeBytes_out (.inr (by simp; omega)), writeBytes_out (.inr (by omega)),
      writeBytes_out (.inr (by omega))]

/-! ## A sequence of stores -/

/-- Blocks written one after the other. -/
def writeAll : List (Nat × Bytes) → Mem → Mem
  | [], m => m
  | w :: ws, m => writeAll ws (writeBytes m w.1 w.2)

/-- The byte that the last block covering an address puts there. -/
def lastStored : List (Nat × Bytes) → Nat → Option UInt8
  | [], _ => none
  | w :: ws, x => (lastStored ws x).or (if w.1 ≤ x then w.2[x - w.1]? else none)

theorem writeAll_apply (ws : List (Nat × Bytes)) (m : Mem) (x : Nat) :
    writeAll ws m x = (lastStored ws x).getD (m x) := by
  induction ws generalizing m with
  | nil => rfl
  | cons w ws ih =>
    rw [writeAll, ih, lastStored]
    cases lastStored ws x with
    | some b => rfl
    | none =>
      simp only [Option.getD_none, Option.none_or, writeBytes, List.getD_eq_getElem?_getD]
      split <;> rfl

theorem lastStored_append (ws vs : List (Nat × Bytes)) (x : Nat) :
    lastStored (ws ++ vs) x = (lastStored vs x).or (lastStored ws x) := by
  induction ws with
  | nil => rw [List.nil_append, lastStored, Option.or_none]
  | cons w ws ih => rw [List.cons_append, lastStored, lastStored, ih, Option.or_assoc]

/-! ## Regions -/

structure Region where
  base : Nat
  len : Nat
  deriving DecidableEq, Repr

instance : Membership Nat Region := ⟨fun r x => r.base ≤ x ∧ x < r.base + r.len⟩

theorem Region.mem_def {x : Nat} {r : Region} : x ∈ r ↔ r.base ≤ x ∧ x < r.base + r.len := Iff.rfl

instance (x : Nat) (r : Region) : Decidable (x ∈ r) := inferInstanceAs (Decidable (_ ∧ _))

theorem Region.add_mem {r : Region} {i : Nat} (h : i < r.len) : r.base + i ∈ r :=
  ⟨Nat.le_add_right _ _, Nat.add_lt_add_left h _⟩

theorem Region.exists_add_of_mem {r : Region} {x : Nat} (h : x ∈ r) : ∃ i < r.len, r.base + i = x := by
  obtain ⟨h1, h2⟩ := h
  exact ⟨x - r.base, by omega, by omega⟩

/-- No address is in both. -/
def Region.Apart (r s : Region) : Prop := ∀ x, x ∈ r → x ∉ s

theorem Region.Apart.symm {r s : Region} (h : r.Apart s) : s.Apart r := fun x h1 h2 => h x h2 h1

/-- All of `r` is inside `s`. -/
def Region.Sub (r s : Region) : Prop := ∀ x, x ∈ r → x ∈ s

theorem Region.Sub.refl (r : Region) : r.Sub r := fun _ h => h

theorem Region.Apart.mono {r s r' s' : Region} (h : r.Apart s) (hr : r'.Sub r) (hs : s'.Sub s) :
    r'.Apart s' := fun x h1 h2 => h x (hr x h1) (hs x h2)

/-- Ranges are apart iff one is empty or ends before the other starts. -/
theorem Region.apart_iff {r s : Region} :
    r.Apart s ↔ r.len = 0 ∨ s.len = 0 ∨ r.base + r.len ≤ s.base ∨ s.base + s.len ≤ r.base := by
  constructor
  · intro h
    by_cases h1 : r.base ≤ s.base
    · have := h s.base
      simp only [Region.mem_def] at this
      omega
    · have := h r.base
      simp only [Region.mem_def] at this
      omega
  · intro h x h1 h2
    simp only [Region.mem_def] at h1 h2
    omega

instance (r s : Region) : Decidable (r.Apart s) := decidable_of_iff _ Region.apart_iff.symm

/-- A store looks at the old contents only where it does not store. -/
theorem writeBytes_congr {m m' : Mem} {x : Nat} (h : m x = m' x) (a : Nat) (d : Bytes) :
    writeBytes m a d x = writeBytes m' a d x := by
  unfold writeBytes
  split
  · rw [h]
  · exact h

theorem writeBytes_apart {m : Mem} {a : Nat} {d : Bytes} {r : Region}
    (h : r.Apart ⟨a, d.length⟩) {x : Nat} (hx : x ∈ r) : writeBytes m a d x = m x :=
  writeBytes_out (by
    have := h x hx
    simp only [Region.mem_def] at this
    omega)

/-- `m'` differs from `m` at most where `P` holds. -/
def ChangesOnly (P : Nat → Prop) (m m' : Mem) : Prop := ∀ x, ¬P x → m' x = m x

theorem ChangesOnly.refl (P : Nat → Prop) (m : Mem) : ChangesOnly P m m := fun _ _ => rfl

theorem ChangesOnly.trans {P : Nat → Prop} {m₁ m₂ m₃ : Mem} (h₁ : ChangesOnly P m₁ m₂)
    (h₂ : ChangesOnly P m₂ m₃) : ChangesOnly P m₁ m₃ := fun x hx => (h₂ x hx).trans (h₁ x hx)

theorem ChangesOnly.mono {P Q : Nat → Prop} {m m' : Mem} (h : ChangesOnly P m m')
    (hpq : ∀ x, P x → Q x) :
    ChangesOnly Q m m' := fun x hx => h x fun hp => hx (hpq x hp)

/-- Contents for regions that are pairwise apart. -/
theorem exists_mem_of_apart {ι : Type} (place : ι → Region) (f : ι → Nat → UInt8) {l : List ι}
    (hl : l.Pairwise fun p q => (place p).Apart (place q)) :
    ∃ m : Mem, ∀ p ∈ l, ∀ i < (place p).len, m ((place p).base + i) = f p i := by
  induction l with
  | nil => exact ⟨fun _ => 0, nofun⟩
  | cons p l ih =>
    obtain ⟨hp, hl⟩ := List.pairwise_cons.1 hl
    obtain ⟨m, hm⟩ := ih hl
    refine ⟨fun x => if x ∈ place p then f p (x - (place p).base) else m x, fun q hq i hi => ?_⟩
    have hin : (place q).base + i ∈ place q := Region.add_mem hi
    dsimp only
    rcases List.mem_cons.1 hq with rfl | hq
    · rw [if_pos hin, Nat.add_sub_cancel_left]
    · rw [if_neg ((hp q hq).symm _ hin), hm q hq i hi]

/-! ## Byte accesses

A party that sees a window of memory reads and writes single bytes of it.
What it reads, and what it leaves behind, depends on the window's contents
only, not on where the window is. -/

inductive Access where
  | read (i : Nat)
  | write (i : Nat) (v : UInt8)
  deriving DecidableEq, Repr

def Access.offset : Access → Nat
  | .read i => i
  | .write i _ => i

/-- The bytes read, and the memory left, by accesses to the window at `base`. -/
def runAccesses (base : Nat) : List Access → Mem → Bytes × Mem
  | [], m => ([], m)
  | .read i :: as, m => (m (base + i) :: (runAccesses base as m).1, (runAccesses base as m).2)
  | .write i v :: as, m => runAccesses base as (writeBytes m (base + i) [v])

/-- The last byte written at an offset, if any. -/
def lastWrite : List Access → Nat → Option UInt8
  | [], _ => none
  | .read _ :: as, i => lastWrite as i
  | .write j v :: as, i => (lastWrite as i).or (if j = i then some v else none)

theorem writeBytes_single (m : Mem) (a x : Nat) (v : UInt8) :
    writeBytes m a [v] x = if a = x then v else m x := by
  by_cases h : a = x
  · subst h
    rw [if_pos rfl, writeBytes_in (Nat.le_refl _) (by simp) 0]
    simp
  · rw [if_neg h, writeBytes_out (by simp; omega)]

theorem runAccesses_at (base i : Nat) (as : List Access) (m : Mem) :
    (runAccesses base as m).2 (base + i) = (lastWrite as i).getD (m (base + i)) := by
  induction as generalizing m with
  | nil => rfl
  | cons a as ih =>
    cases a with
    | read j => exact ih m
    | write j v =>
      rw [runAccesses, ih, lastWrite, writeBytes_single]
      cases lastWrite as i with
      | some w => rfl
      | none =>
        by_cases h : j = i
        · simp [h]
        · simp [h]

theorem runAccesses_out {base n : Nat} {as : List Access} (has : ∀ a ∈ as, a.offset < n) (m : Mem)
    {x : Nat} (hx : x ∉ (⟨base, n⟩ : Region)) : (runAccesses base as m).2 x = m x := by
  induction as generalizing m with
  | nil => rfl
  | cons a as ih =>
    have ih' := ih fun a ha => has a (List.mem_cons_of_mem _ ha)
    cases a with
    | read j => exact ih' m
    | write j v =>
      have hj : j < n := has _ List.mem_cons_self
      rw [runAccesses, ih', writeBytes_single, if_neg]
      simp only [Region.mem_def] at hx
      omega

/-- Windows with the same contents read the same. -/
theorem runAccesses_reads {b b' n : Nat} {as : List Access} (has : ∀ a ∈ as, a.offset < n)
    {m m' : Mem} (h : ∀ i, i < n → m (b + i) = m' (b' + i)) :
    (runAccesses b as m).1 = (runAccesses b' as m').1 := by
  induction as generalizing m m' with
  | nil => rfl
  | cons a as ih =>
    have has' : ∀ a ∈ as, a.offset < n := fun a ha => has a (List.mem_cons_of_mem _ ha)
    cases a with
    | read j =>
      rw [runAccesses, runAccesses, ih has' h, h j (has _ List.mem_cons_self)]
    | write j v =>
      refine ih has' fun i hi => ?_
      rw [writeBytes_single, writeBytes_single, h i hi]
      simp only [Nat.add_left_cancel_iff]

/-! ## Little endian -/

def leBytes : Nat → Nat → Bytes
  | 0, _ => []
  | w + 1, v => UInt8.ofNat v :: leBytes w (v / 256)

def leNat : Bytes → Nat
  | [] => 0
  | b :: bs => b.toNat + 256 * leNat bs

@[simp] theorem leBytes_length (w v : Nat) : (leBytes w v).length = w := by
  induction w generalizing v with
  | zero => rfl
  | succ w ih => simp [leBytes, ih]

theorem leNat_leBytes (w v : Nat) : leNat (leBytes w v) = v % 256 ^ w := by
  induction w generalizing v with
  | zero => simp [leBytes, leNat, Nat.mod_one]
  | succ w ih =>
    rw [leBytes, leNat, ih, UInt8.toNat_ofNat', show 256 ^ (w + 1) = 256 * 256 ^ w by
      rw [Nat.pow_succ, Nat.mul_comm], Nat.mod_mul]

theorem leBytes_leNat (bs : Bytes) : leBytes bs.length (leNat bs) = bs := by
  induction bs with
  | nil => rfl
  | cons b bs ih =>
    have hb := b.toNat_lt
    have e1 : UInt8.ofNat (b.toNat + 256 * leNat bs) = b := by
      apply UInt8.toNat_inj.mp; rw [UInt8.toNat_ofNat']; omega
    have e2 : (b.toNat + 256 * leNat bs) / 256 = leNat bs := by omega
    simp only [List.length_cons, leNat, leBytes, e1, e2, ih]

theorem leNat_append (a b : Bytes) : leNat (a ++ b) = leNat a + 256 ^ a.length * leNat b := by
  induction a with
  | nil => simp [leNat]
  | cons x a ih =>
    simp only [List.cons_append, leNat, ih, List.length_cons, Nat.pow_succ]
    rw [Nat.mul_add, ← Nat.mul_assoc, Nat.mul_comm 256 (256 ^ a.length)]
    omega

theorem leBytes_add (a b v : Nat) : leBytes (a + b) v = leBytes a v ++ leBytes b (v / 256 ^ a) := by
  induction a generalizing v with
  | zero => simp [leBytes]
  | succ a ih =>
    rw [show a + 1 + b = (a + b) + 1 by omega, leBytes, leBytes, ih, List.cons_append, Nat.pow_succ,
      Nat.mul_comm, Nat.div_div_eq_div_mul]

/-- Only the bytes that fit matter. -/
theorem leBytes_mod (w v : Nat) : leBytes w (v % 256 ^ w) = leBytes w v := by
  have h := leBytes_leNat (leBytes w v)
  rwa [leBytes_length, leNat_leBytes] at h

/-- A value that fits round-trips. -/
theorem leNat_leBytes_of_lt {w v : Nat} (h : v < 256 ^ w) : leNat (leBytes w v) = v := by
  rw [leNat_leBytes, Nat.mod_eq_of_lt h]

/-- A stretch of memory that holds the bytes of a value, lowest first. -/
theorem readBytes_eq_leBytes {m : Mem} {a v : Nat} :
    ∀ {n : Nat}, (∀ k < n, m (a + k) = UInt8.ofNat (v / 256 ^ k)) →
    readBytes m a n = leBytes n v
  | 0, _ => rfl
  | n + 1, h => by
    have hlast : readBytes m (a + n) 1 = leBytes 1 (v / 256 ^ n) := by
      show [m (a + n)] = [UInt8.ofNat (v / 256 ^ n)]
      rw [h n (Nat.lt_succ_self n)]
    rw [readBytes_add, leBytes_add, hlast, readBytes_eq_leBytes fun k hk => h k (Nat.lt_succ_of_lt hk)]

theorem leNat_eq_zero {bs : Bytes} : leNat bs = 0 ↔ ∀ b ∈ bs, b = 0 := by
  induction bs with
  | nil => simp [leNat]
  | cons b bs ih =>
    have hb : b.toNat = 0 ↔ b = 0 := UInt8.toNat_inj (b := 0)
    rw [leNat, List.forall_mem_cons, ← ih, ← hb]
    omega

theorem leNat_readBytes_eq_zero {m : Mem} {a n : Nat} :
    leNat (readBytes m a n) = 0 ↔ ∀ i, a ≤ i → i < a + n → m i = 0 := by
  rw [leNat_eq_zero, readBytes]
  simp only [List.mem_map, List.mem_range, forall_exists_index, and_imp, forall_apply_eq_imp_iff₂]
  constructor
  · intro h i h1 h2
    have := h (i - a) (by omega)
    rwa [show a + (i - a) = i by omega] at this
  · intro h k hk
    exact h (a + k) (by omega) (by omega)

/-! ## Lists -/

/-- An entry of a list with one more at its end. -/
theorem getElem?_snoc {α : Type} {l : List α} {a b : α} {k : Nat} (h : (l ++ [a])[k]? = some b) :
    (k < l.length ∧ l[k]? = some b) ∨ (k = l.length ∧ b = a) := by
  rcases Nat.lt_or_ge k l.length with hlt | hge
  · rw [List.getElem?_append_left hlt] at h
    exact .inl ⟨hlt, h⟩
  · rw [List.getElem?_append_right hge, List.getElem?_singleton] at h
    split at h
    · cases h
      exact .inr ⟨by omega, rfl⟩
    · cases h

end AcsVirt
