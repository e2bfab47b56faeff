import Mathlib.Data.Finset.Card

/-!
# Following links

`chase f a n` is where `n` links lead from `a`, `none` once one of them is
missing. Over a type with at most `N` values the links end iff no value is met
twice, and then within `N` of them (`chase_ends_iff`).
-/
namespace AcsVirt

variable {α : Type}

def chase (f : α → Option α) (a : α) : Nat → Option α
  | 0 => some a
  | n + 1 => (chase f a n).bind f

/-- No value is met twice. -/
def Acyclic (f : α → Option α) (a : α) : Prop :=
  ∀ m n, m < n → chase f a n ≠ none → chase f a m ≠ chase f a n

/-- The first link, and then the rest. -/
theorem chase_succ (f : α → Option α) (a : α) (n : Nat) :
    chase f a (n + 1) = (f a).bind fun b => chase f b n := by
  induction n with
  | zero =>
    show (some a).bind f = _
    cases h : f a <;> simp [h, chase]
  | succ n ih =>
    rw [chase, ih]
    cases f a <;> rfl

theorem chase_add (f : α → Option α) (a : α) (m k : Nat) :
    chase f a (m + k) = (chase f a m).bind fun b => chase f b k := by
  induction k with
  | zero =>
    show chase f a m = _
    cases chase f a m <;> rfl
  | succ k ih =>
    show (chase f a (m + k)).bind f = _
    rw [ih]
    cases chase f a m <;> rfl

theorem chase_none_mono {f : α → Option α} {a : α} {m n : Nat} (hmn : m ≤ n)
    (h : chase f a m = none) :
    chase f a n = none := by
  obtain ⟨k, rfl⟩ := Nat.exists_eq_add_of_le hmn
  rw [chase_add, h]
  rfl

/-- Once back at a value, the links go on for ever. -/
theorem chase_cycle {f : α → Option α} {a : α} {m n : Nat} (hmn : m < n) (hn : chase f a n ≠ none)
    (he : chase f a m = chase f a n) (k : Nat) : chase f a k ≠ none := by
  induction k using Nat.strongRecOn with
  | ind k ih =>
    rcases Nat.lt_or_ge k n with hk | hk
    · exact fun h => hn (chase_none_mono (Nat.le_of_lt hk) h)
    · -- `k` links lead where `k - (n - m)` do
      have hback : chase f a k = chase f a (m + (k - n)) := by
        conv => lhs; rw [show k = n + (k - n) by omega]
        rw [chase_add, chase_add, he]
      rw [hback]
      exact ih _ (by omega)

theorem chase_ends_of_acyclic {f : α → Option α} {a : α} {N : Nat} {code : α → Nat}
    (hcode : ∀ x, code x < N) (hinj : ∀ x y, code x = code y → x = y) (h : Acyclic f a) :
    chase f a N = none := by
  cases hN : chase f a N with
  | none => rfl
  | some z =>
    -- N + 1 values with codes below N: two of them agree
    have hsome : ∀ n ≤ N, ∃ x, chase f a n = some x := by
      intro n hn
      cases hx : chase f a n with
      | none => exact absurd ((chase_none_mono hn hx).symm.trans hN) (by simp)
      | some x => exact ⟨x, rfl⟩
    have hmaps : ∀ n ∈ Finset.range (N + 1), ((chase f a n).map code).getD 0 ∈ Finset.range N := by
      intro n hn
      obtain ⟨x, hx⟩ := hsome n (Nat.lt_succ_iff.1 (Finset.mem_range.1 hn))
      rw [hx]
      exact Finset.mem_range.2 (hcode x)
    obtain ⟨i, hi, j, hj, hne, heq⟩ := Finset.exists_ne_map_eq_of_card_lt_of_maps_to
      (by rw [Finset.card_range, Finset.card_range]; exact Nat.lt_succ_self N) hmaps
    obtain ⟨x, hx⟩ := hsome i (Nat.lt_succ_iff.1 (Finset.mem_range.1 hi))
    obtain ⟨y, hy⟩ := hsome j (Nat.lt_succ_iff.1 (Finset.mem_range.1 hj))
    have hxy : x = y := hinj x y (by simpa [hx, hy] using heq)
    have hsame : chase f a i = chase f a j := by rw [hx, hy, hxy]
    rcases Nat.lt_or_gt_of_ne hne with hlt | hlt
    · exact absurd hsame (h i j hlt (by rw [hy]; simp))
    · exact absurd hsame.symm (h j i hlt (by rw [hx]; simp))

/-- The links end iff no value is met twice. -/
theorem chase_ends_iff {f : α → Option α} {a : α} {N : Nat} {code : α → Nat}
    (hcode : ∀ x, code x < N) (hinj : ∀ x y, code x = code y → x = y) :
    (∃ n, chase f a n = none) ↔ Acyclic f a := by
  constructor
  · rintro ⟨k, hk⟩ m n hmn hn he
    exact chase_cycle hmn hn he k hk
  · exact fun h => ⟨N, chase_ends_of_acyclic hcode hinj h⟩

end AcsVirt
