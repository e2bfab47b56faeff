import AcsVirt.Core.LTS
import AcsVirt.L4Device.Calls

/-!
# One connection of a device

`connLts R op b w`: guest accesses one after the other, from the binding a
connect leaves; `op b l` is the device code an access `l` runs and `R` what
the fabric and the host do. A step is an access that returns, with either
result; one that faults has no next state.

`execWrites` runs a list of accesses when every call has one answer, and is
a trace of `connLts` under every handler that allows those answers
(`execWrites_trace`).

`diskLts` is the block daemon from its start: the first connect, on whatever
the device struct held before, and then reconnects and guest writes.
-/
namespace AcsVirt.L4

open L2

variable {P W L : Type}

def connLts (R : Handler fabricSig W) (op : FabricBinding P → L → FabricM (FabricBinding P × Bool))
    (b₀ : FabricBinding P) (w₀ : W) : LTS (FabricBinding P × W) L where
  init s := s = (b₀, w₀)
  step s l s' := ∃ ok, Runs R (op s.1 l) s.2 (.ok (s'.1, ok)) s'.2

def execWrites (h : W → (c : Call) → c.Reply × W)
    (op : FabricBinding P → L → FabricM (FabricBinding P × Bool)) :
    FabricBinding P × W → List L → Option (FabricBinding P × W)
  | s, [] => some s
  | s, l :: ls =>
    match (op s.1 l).run (S := fabricSig) h s.2 with
    | (.ok (b, _), w) => execWrites h op (b, w) ls
    | (.error _, _) => none

theorem execWrites_trace {V : Type} {R : Handler fabricSig V} {h : W → (c : Call) → c.Reply × W}
    {op : FabricBinding P → L → FabricM (FabricBinding P × Bool)} {b₀ : FabricBinding P} {v₀ : V}
    {π : W → V} (hR : ∀ w c, R (π w) c (h w c).1 (π (h w c).2)) (ls : List L)
    (s s' : FabricBinding P × W) (he : execWrites h op s ls = some s') :
    ∃ tr, (connLts R op b₀ v₀).Trace (s.1, π s.2) tr (s'.1, π s'.2) ∧ tr.map Prod.snd = ls := by
  induction ls generalizing s with
  | nil =>
    simp only [execWrites, Option.some.injEq] at he
    subst he
    exact ⟨[], .nil _, rfl⟩
  | cons l ls ih =>
    simp only [execWrites] at he
    split at he
    · rename_i b ok w hr
      obtain ⟨tr, ht, hl⟩ := ih _ he
      have hruns := Runs.of_run hR (op s.1 l) s.2
      rw [hr] at hruns
      exact ⟨((s.1, π s.2), l) :: tr, .cons ⟨ok, hruns⟩ ht, by simp [hl]⟩
    · cases he

inductive DiskLabel where
  | connect
  | write (fuel : Nat) (offset rawValue : UInt64)
  deriving DecidableEq, Repr

/-- The block daemon: `old` is what the device struct holds before the first
connect. -/
def diskLts (R : Handler fabricSig W) (directRead : Bool) (backend : BlkdBlockBackend)
    (old : BlkdState) (w₀ : W) :
    LTS (FabricBinding BlkdState × W) DiskLabel where
  init s := s = (blkdConnect old backend, w₀)
  step s l s' :=
    match l with
    | .connect => s' = (blkdConnect s.1.priv backend, s.2)
    | .write fuel offset rawValue =>
      ∃ ok, Runs R (blkdMmioWrite directRead fuel s.1 offset rawValue) s.2 (.ok (s'.1, ok)) s'.2

def emptyDisk : BlkdBlockBackend := ⟨0, false⟩

/-- Driver state of a daemon that has served nothing yet. -/
def noBuffer : BlkdState := ⟨emptyDisk, 0, [], 0⟩

end AcsVirt.L4
