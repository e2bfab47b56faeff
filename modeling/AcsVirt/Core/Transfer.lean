import Mathlib.Algebra.GroupWithZero.Nat

/-!
# Transfer loops

A system call that moves bytes may move fewer than asked for, or none because a
signal came in, so C code calls it in a loop. `xferAll` is that loop over a
schedule of what the calls return: its three cursors, its retry on `EINTR`, and
its two ways to fail. A schedule that is used up leaves the loop running
(outcome `none`).

`xferAll_true_iff` says when the loop succeeds, `xferAll_keeps` is its invariant
rule: what holds of a number of moved bytes, moved in any pieces.
-/
namespace AcsVirt

/-- What a call returns: `-1` with `EINTR`, `-1` with another error, or a count. -/
inductive SysRet where
  | eintr
  | error
  | count (n : Nat)
  deriving DecidableEq, Repr

namespace SysRet

def bytes : SysRet → Nat
  | .count n => n
  | _ => 0

/-- The loop calls again. -/
def GoesOn : SysRet → Prop
  | .eintr => True
  | .error => False
  | .count n => n ≠ 0

instance : (r : SysRet) → Decidable r.GoesOn
  | .eintr => isTrue trivial
  | .error => isFalse id
  | .count n => inferInstanceAs (Decidable (n ≠ 0))

end SysRet

/-- Next byte of the buffer, bytes left, next byte of the file. -/
structure Cursors where
  pos : Nat
  len : Nat
  offset : Nat
  deriving DecidableEq, Repr

def Cursors.advance (c : Cursors) (n : Nat) : Cursors := ⟨c.pos + n, c.len - n, c.offset + n⟩

theorem Cursors.advance_advance (c : Cursors) (m n : Nat) :
    (c.advance m).advance n = c.advance (m + n) := by
  simp only [Cursors.advance, Nat.add_assoc, Nat.sub_sub]

variable {W : Type}

/-- The loop; `move c n` is what a call that returns `n` does. -/
def xferAll (move : Cursors → Nat → W → W) : List SysRet → Cursors → W → Option Bool × W
  | [], c, w => if c.len = 0 then (some true, w) else (none, w)
  | r :: sched, c, w =>
    if c.len = 0 then (some true, w)
    else
      match r with
      | .eintr => xferAll move sched c w
      | .error => (some false, w)
      | .count n => if n = 0 then (some false, w) else xferAll move sched (c.advance n) (move c n w)

section
variable {move : Cursors → Nat → W → W} {sched : List SysRet} {c : Cursors} {w : W}

theorem xferAll_done (h : c.len = 0) : xferAll move sched c w = (some true, w) := by
  cases sched with
  | nil => simp [xferAll, h]
  | cons r sched => cases r <;> simp [xferAll, h]

theorem xferAll_nil (h : c.len ≠ 0) : xferAll move [] c w = (none, w) := by simp [xferAll, h]

theorem xferAll_eintr (h : c.len ≠ 0) :
    xferAll move (.eintr :: sched) c w = xferAll move sched c w := by
  simp [xferAll, h]

/-- An error and a zero count end the loop. -/
theorem xferAll_fails {r : SysRet} (h : c.len ≠ 0) (hr : ¬r.GoesOn) :
    xferAll move (r :: sched) c w = (some false, w) := by
  cases r with
  | eintr => exact absurd trivial hr
  | error => simp [xferAll, h]
  | count n => simp [xferAll, h, Decidable.not_not.1 hr]

theorem xferAll_count {n : Nat} (h : c.len ≠ 0) (hn : n ≠ 0) :
    xferAll move (.count n :: sched) c w = xferAll move sched (c.advance n) (move c n w) := by
  simp [xferAll, h, hn]

end

/-- No call of the loop returns more than it was asked for. -/
def Fits : List SysRet → Nat → Prop
  | [], _ => True
  | r :: sched, len => len ≠ 0 → r.bytes ≤ len ∧ (r.GoesOn → Fits sched (len - r.bytes))

instance Fits.dec : (sched : List SysRet) → (len : Nat) → Decidable (Fits sched len)
  | [], _ => isTrue trivial
  | r :: sched, len =>
    have := Fits.dec sched (len - r.bytes)
    inferInstanceAs (Decidable (_ → _ ∧ (_ → _)))

/-- The calls move `len` bytes before any of them fails. -/
def Supplies (sched : List SysRet) (len : Nat) : Prop :=
  ∃ calls, calls <+: sched ∧ (∀ r ∈ calls, r.GoesOn) ∧ (calls.map SysRet.bytes).sum = len

theorem supplies_zero (sched : List SysRet) : Supplies sched 0 :=
  ⟨[], List.nil_prefix, fun _ h => absurd h List.not_mem_nil, rfl⟩

theorem supplies_nil {len : Nat} : Supplies [] len ↔ len = 0 := by
  constructor
  · intro h
    obtain ⟨calls, hc, _, hsum⟩ := h
    rw [List.prefix_nil.1 hc] at hsum
    exact hsum.symm
  · intro h
    exact h ▸ supplies_zero []

theorem supplies_cons {r : SysRet} {sched : List SysRet} {len : Nat} (hlen : len ≠ 0) :
    Supplies (r :: sched) len ↔ r.GoesOn ∧ r.bytes ≤ len ∧ Supplies sched (len - r.bytes) := by
  constructor
  · intro h
    obtain ⟨calls, hc, hgo, hsum⟩ := h
    cases calls with
    | nil => exact absurd hsum.symm hlen
    | cons r' calls =>
      obtain ⟨hr, htail⟩ := List.cons_prefix_cons.1 hc
      subst hr
      rw [List.map_cons, List.sum_cons] at hsum
      exact ⟨hgo _ List.mem_cons_self, by omega, calls, htail, fun x hx => hgo x (List.mem_cons_of_mem _ hx), by omega⟩
  · intro h
    obtain ⟨hr, hle, calls, hc, hgo, hsum⟩ := h
    refine ⟨r :: calls, List.cons_prefix_cons.2 ⟨rfl, hc⟩, ?_, ?_⟩
    · intro x hx
      rcases List.mem_cons.1 hx with e | hx
      · exact e ▸ hr
      · exact hgo x hx
    · rw [List.map_cons, List.sum_cons]
      omega

/-- The loop returns true exactly on the schedules that supply what it asks for. -/
theorem xferAll_true_iff (move : Cursors → Nat → W → W) {sched : List SysRet} {c : Cursors}
    (h : Fits sched c.len) (w : W) :
    (xferAll move sched c w).1 = some true ↔ Supplies sched c.len := by
  induction sched generalizing c w with
  | nil =>
    rw [supplies_nil]
    by_cases hlen : c.len = 0 <;> simp [xferAll, hlen]
  | cons r sched ih =>
    by_cases hlen : c.len = 0
    · rw [xferAll_done hlen, hlen]
      exact iff_of_true rfl (supplies_zero _)
    · obtain ⟨hle, hrest⟩ := h hlen
      rw [supplies_cons hlen]
      cases r with
      | eintr =>
        rw [xferAll_eintr hlen, ih (hrest trivial)]
        exact ⟨fun hs => ⟨trivial, Nat.zero_le _, hs⟩, fun hs => hs.2.2⟩
      | error =>
        rw [xferAll_fails (r := .error) hlen fun hr => hr]
        exact iff_of_false (by simp) fun hs => hs.1
      | count n =>
        by_cases hn : n = 0
        · rw [xferAll_fails (r := .count n) hlen fun hr => hr hn]
          exact iff_of_false (by simp) fun hs => hs.1 hn
        · rw [xferAll_count hlen hn, ih (c := c.advance n) (hrest hn)]
          exact ⟨fun hs => ⟨hn, hle, hs⟩, fun hs => hs.2.2⟩

/-- The rule for the loop: `I k w` says what has become of the world when `k`
bytes were moved. -/
theorem xferAll_keeps {move : Cursors → Nat → W → W} {I : Nat → W → Prop} {c : Cursors}
    (hmove : ∀ k n w, I k w → k + n ≤ c.len → I (k + n) (move (c.advance k) n w))
    {sched : List SysRet} (h : Fits sched c.len) {w : W} (hI : I 0 w) :
    ∃ k ≤ c.len, I k (xferAll move sched c w).2 ∧ ((xferAll move sched c w).1 = some true ↔ k = c.len) := by
  induction sched generalizing c w I with
  | nil =>
    by_cases hlen : c.len = 0
    · rw [xferAll_done hlen]
      exact ⟨0, Nat.zero_le _, hI, iff_of_true rfl hlen.symm⟩
    · rw [xferAll_nil hlen]
      exact ⟨0, Nat.zero_le _, hI, iff_of_false (by simp) (Ne.symm hlen)⟩
  | cons r sched ih =>
    by_cases hlen : c.len = 0
    · rw [xferAll_done hlen]
      exact ⟨0, Nat.zero_le _, hI, iff_of_true rfl hlen.symm⟩
    · obtain ⟨hle, hrest⟩ := h hlen
      by_cases hr : r.GoesOn
      · cases r with
        | eintr =>
          rw [xferAll_eintr hlen]
          exact ih hmove (hrest trivial) hI
        | error => exact absurd hr id
        | count n =>
          -- `n` bytes on, the invariant is the same one counted from there
          have hn : I n (move c n w) := by
            have := hmove 0 n w hI (by rw [Nat.zero_add]; exact hle)
            rwa [Nat.zero_add] at this
          have hmove' : ∀ k m w, I (n + k) w → k + m ≤ (c.advance n).len →
              I (n + (k + m)) (move ((c.advance n).advance k) m w) := by
            intro k m w hk hm
            rw [Cursors.advance_advance, ← Nat.add_assoc]
            exact hmove (n + k) m w hk (by simp only [Cursors.advance, SysRet.bytes] at hm hle; omega)
          obtain ⟨k, hk, hI', hiff⟩ := ih (I := fun k => I (n + k)) hmove' (hrest hr) hn
          rw [xferAll_count hlen hr]
          simp only [Cursors.advance, SysRet.bytes] at hk hiff hle
          exact ⟨n + k, by omega, hI', hiff.trans (by omega)⟩
      · rw [xferAll_fails hlen hr]
        exact ⟨0, Nat.zero_le _, hI, iff_of_false (by simp) (Ne.symm hlen)⟩

end AcsVirt
