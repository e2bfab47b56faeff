import AcsVirt.Core.Mem

/-!
# Bitmaps and the spans they stand for

A bitmap marks units (pages, blocks) as taken; the spans it stands for are
kept by the users of the allocator, in no order. `Owns bits live`: the spans
are pairwise apart and the set bits are exactly theirs. Taking a clear span
adds it (`Owns.take`), clearing one of them removes it (`Owns.drop`), and
nothing depends on the order of the list (`Owns.perm`).

`ZeroArea find` is the contract of a search for a run of clear bits;
`firstZeroArea` is such a search.
-/
namespace AcsVirt

abbrev Bitmap := Nat → Bool

def Bitmap.set (bits : Bitmap) (r : Region) : Bitmap := fun i => bits i || decide (i ∈ r)

def Bitmap.clear (bits : Bitmap) (r : Region) : Bitmap := fun i => bits i && !decide (i ∈ r)

def Bitmap.empty : Bitmap := fun _ => false

structure Owns (bits : Bitmap) (live : List Region) : Prop where
  apart : live.Pairwise Region.Apart
  marks : ∀ i, bits i = true ↔ ∃ r ∈ live, i ∈ r

theorem owns_nil : Owns Bitmap.empty [] :=
  ⟨.nil, by simp [Bitmap.empty]⟩

theorem Owns.empty_of_nil {bits : Bitmap} (h : Owns bits []) : bits = Bitmap.empty := by
  funext i
  have := h.marks i
  simpa [Bitmap.empty] using this

theorem Owns.perm {bits : Bitmap} {l l' : List Region} (h : Owns bits l) (hp : l.Perm l') :
    Owns bits l' := by
  refine ⟨(hp.pairwise_iff fun h => h.symm).1 h.apart, fun i => ?_⟩
  rw [h.marks i]
  constructor
  · intro hi
    obtain ⟨r, hr, hi⟩ := hi
    exact ⟨r, hp.mem_iff.1 hr, hi⟩
  · intro hi
    obtain ⟨r, hr, hi⟩ := hi
    exact ⟨r, hp.mem_iff.2 hr, hi⟩

/-- A clear span becomes one more live span. -/
theorem Owns.take {bits : Bitmap} {live : List Region} {r : Region} (h : Owns bits live)
    (hfree : ∀ i ∈ r, bits i = false) : Owns (bits.set r) (r :: live) := by
  constructor
  · refine List.pairwise_cons.2 ⟨fun s hs i hi hi' => ?_, h.apart⟩
    have := (h.marks i).2 ⟨s, hs, hi'⟩
    rw [hfree i hi] at this
    cases this
  · intro i
    simp only [Bitmap.set, Bool.or_eq_true, decide_eq_true_eq, h.marks i, List.mem_cons,
      exists_eq_or_imp]
    exact or_comm

/-- Clearing a live span removes it and nothing else. -/
theorem Owns.drop {bits : Bitmap} {live : List Region} {r : Region} (h : Owns bits (r :: live)) :
    Owns (bits.clear r) live := by
  obtain ⟨hr, hp⟩ := List.pairwise_cons.1 h.apart
  refine ⟨hp, fun i => ?_⟩
  simp only [Bitmap.clear, Bool.and_eq_true, Bool.not_eq_true', decide_eq_false_iff_not, h.marks i,
    List.mem_cons, exists_eq_or_imp]
  constructor
  · intro hi
    rcases hi.1 with h1 | h1
    · exact absurd h1 hi.2
    · exact h1
  · intro hi
    obtain ⟨s, hs, hi⟩ := hi
    exact ⟨.inr ⟨s, hs, hi⟩, fun hir => hr s hs i hir hi⟩

/-- Taking a clear span and giving it back at once. -/
theorem Bitmap.clear_set {bits : Bitmap} {r : Region} (hfree : ∀ i ∈ r, bits i = false) :
    (bits.set r).clear r = bits := by
  funext i
  by_cases hi : i ∈ r
  · simp [Bitmap.set, Bitmap.clear, hi, hfree i hi]
  · simp [Bitmap.set, Bitmap.clear, hi]

/-! ## Searching for a run of clear bits -/

/-- The contract of a search in the first `n` bits for `k` clear ones: an
answer below `n` is the start of such a run. -/
def ZeroArea (find : Bitmap → Nat → Nat → Nat) : Prop :=
  ∀ bits n k, find bits n k < n →
    find bits n k + k ≤ n ∧ ∀ i, find bits n k ≤ i → i < find bits n k + k → bits i = false

/-- `k` clear bits from `start`. -/
def clearFrom (bits : Bitmap) (start k : Nat) : Bool :=
  (List.range k).all fun i => !bits (start + i)

/-- First fit; the bit count plus one when there is none. -/
def firstZeroArea (bits : Bitmap) (n k : Nat) : Nat :=
  ((List.range n).find? fun start => decide (start + k ≤ n) && clearFrom bits start k).getD (n + 1)

theorem firstZeroArea_zeroArea : ZeroArea firstZeroArea := by
  intro bits n k h
  unfold firstZeroArea at h ⊢
  cases hf : (List.range n).find? fun start => decide (start + k ≤ n) && clearFrom bits start k with
  | none =>
    rw [hf] at h
    simp only [Option.getD_none] at h
    omega
  | some start =>
    have hs := List.find?_some hf
    simp only [Bool.and_eq_true, decide_eq_true_eq, clearFrom, List.all_eq_true, List.mem_range,
      Bool.not_eq_true'] at hs
    simp only [Option.getD_some]
    refine ⟨hs.1, fun i h1 h2 => ?_⟩
    have := hs.2 (i - start) (by omega)
    rwa [show start + (i - start) = i by omega] at this

end AcsVirt
