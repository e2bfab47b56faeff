import AcsVirt.Core.Chase
import AcsVirt.L2Machine.LinuxUio
import AcsVirt.L4Device.Consoled

/-!
# The console's walk

`process_tx_chain` follows `next` until a descriptor has no `NEXT` flag and,
unlike `process_chain` of the block device, counts nothing on the way. It
changes no guest memory, so the walk is a chase along fixed links (`txNext`):
it returns iff no descriptor is met twice, and then within 65536 of them
(`tx_walk_ends`).
-/
namespace AcsVirt.L4

open L1 L2

/-- Guest memory as DMA reads see it. -/
abbrev Peek := UInt64 → UInt32 → Option Bytes

/-- The link the walk takes from a descriptor: none when it, or the payload it
has printed, cannot be read, and none without `NEXT`. -/
def txNext (peek : Peek) (q : VirtioQueue) (index : UInt16) : Option UInt16 :=
  match peek (descAddr q index) 16 with
  | none => none
  | some data =>
    let desc := decodeDesc data
    if (!desc.writable ∧ desc.len ≠ 0) ∧ peek desc.addr desc.len = none then none
    else if desc.hasNext then some desc.next
    else none

section
variable {W : Type} {h : W → (c : Call) → c.Reply × W} {peek : Peek} {I : W → Prop}

/-- Reads see `peek`, and allocating and printing succeed, as long as `I` holds;
none of the three ends it. -/
structure Printing (h : W → (c : Call) → c.Reply × W) (peek : Peek) (I : W → Prop) : Prop where
  read : ∀ w gpa len, I w → (h w (.dmaReadInto gpa len)).1 = peek gpa len ∧ I (h w (.dmaReadInto gpa len)).2
  alloc : ∀ w len, I w → (h w (.realloc len)).1 = true ∧ I (h w (.realloc len)).2
  print : ∀ w data, I w → (h w (.consoleWrite data)).1 = true ∧ I (h w (.consoleWrite data)).2

theorem virtioReadDesc_peek (hp : Printing h peek I) (q : VirtioQueue) (index : UInt16) {w : W}
    (hw : I w) :
    ∃ w', I w' ∧ (virtioReadDesc q index).run (S := fabricSig) h w = (.ok ((peek (descAddr q index) 16).map decodeDesc), w') := by
  obtain ⟨hr, hi⟩ := hp.read w (descAddr q index) 16 hw
  refine ⟨_, hi, ?_⟩
  have hread : (dmaReadInto (descAddr q index) 16).run (S := fabricSig) h w =
      (.ok (peek (descAddr q index) 16), (h w (.dmaReadInto (descAddr q index) 16)).2) := by
    rw [← hr]
    rfl
  rw [virtioReadDesc, Prog.run_bind_ok hread]
  cases peek (descAddr q index) 16 <;> rfl

/-- The payload part goes on unless a payload cannot be read. -/
theorem txDesc_peek (hp : Printing h peek I) (desc : VirtioDesc) (total : UInt32) {w : W} (hw : I w) :
    ∃ w' r, I w' ∧ (txDesc desc total).run (S := fabricSig) h w = (.ok r, w') ∧
      (r = none ↔ (!desc.writable ∧ desc.len ≠ 0) ∧ peek desc.addr desc.len = none) := by
  unfold txDesc
  split
  next hpay =>
    obtain ⟨halloc, hi₁⟩ := hp.alloc w desc.len hw
    obtain ⟨hread, hi₂⟩ := hp.read _ desc.addr desc.len hi₁
    have hdma : (fabricDmaRead desc.addr desc.len).run (S := fabricSig) h w =
        (.ok (peek desc.addr desc.len), (h (h w (.realloc desc.len)).2 (.dmaReadInto desc.addr desc.len)).2) := by
      have ha : (realloc desc.len).run (S := fabricSig) h w = (.ok true, (h w (.realloc desc.len)).2) := by
        rw [← halloc]
        rfl
      rw [fabricDmaRead, Prog.run_bind_ok ha, ← hread]
      rfl
    rw [Prog.run_bind_ok hdma]
    cases hpeek : peek desc.addr desc.len with
    | none => exact ⟨_, none, hi₂, rfl, iff_of_true rfl ⟨hpay, rfl⟩⟩
    | some data =>
      obtain ⟨hprint, hi₃⟩ := hp.print _ data hi₂
      refine ⟨_, some (total + desc.len), hi₃, ?_, by simp⟩
      have hw : (consoleWrite data).run (S := fabricSig) h (h (h w (.realloc desc.len)).2 (.dmaReadInto desc.addr desc.len)).2 =
          (.ok true, (h (h (h w (.realloc desc.len)).2 (.dmaReadInto desc.addr desc.len)).2 (.consoleWrite data)).2) := by
        rw [← hprint]
        rfl
      exact Prog.run_bind_ok hw
  next hpay => exact ⟨w, some total, hw, rfl, iff_of_false (by simp) fun hc => hpay hc.1⟩

/-- The loop runs out of fuel iff that many links can be followed. -/
theorem txLoop_fuel (hp : Printing h peek I) (q : VirtioQueue) (fuel : Nat) (index : UInt16)
    (total : UInt32) {w : W} (hw : I w) :
    ((txLoop q fuel index total).run (S := fabricSig) h w).1 = .error .fuel ↔ chase (txNext peek q) index fuel ≠ none := by
  induction fuel generalizing index total w with
  | zero => exact iff_of_true rfl (by simp [chase])
  | succ fuel ih =>
    obtain ⟨w₁, hw₁, hread⟩ := virtioReadDesc_peek hp q index hw
    rw [chase_succ, txLoop, Prog.run_bind_ok hread, txNext]
    cases peek (descAddr q index) 16 with
    | none => exact iff_of_false (fun h => by cases h) fun hne => hne rfl
    | some data =>
      obtain ⟨w₂, r, hw₂, hdesc, hr⟩ := txDesc_peek hp (decodeDesc data) total hw₁
      show (Prog.run h (txDesc (decodeDesc data) total >>= _) w₁).1 = _ ↔ _
      rw [Prog.run_bind_ok hdesc]
      dsimp only
      cases r with
      | none =>
        rw [if_pos (hr.1 rfl)]
        exact iff_of_false (fun h => by cases h) fun hne => hne rfl
      | some total =>
        rw [if_neg fun hc => by cases hr.2 hc]
        cases hnext : (decodeDesc data).hasNext with
        | false => exact iff_of_false (fun h => by cases h) fun hne => hne rfl
        | true => exact ih (decodeDesc data).next total hw₂

theorem processTxChain_fuel (hp : Printing h peek I) (d : CondVirtioDevice) (fuel : Nat)
    (head : UInt16) {w : W} (hw : I w) :
    ((processTxChain fuel d head).run (S := fabricSig) h w).1 = .error .fuel ↔
      chase (txNext peek (d.queue 1)) head fuel ≠ none := by
  rw [← txLoop_fuel hp (d.queue 1) fuel head 0 hw, processTxChain, Prog.run_bind]
  generalize Prog.run h (txLoop (d.queue 1) fuel head 0) w = r
  obtain ⟨o, w'⟩ := r
  cases o with
  | ok r => exact iff_of_false (fun h => by cases h) (fun h => by cases h)
  | error e =>
    show (Except.error e : Except Fault (CondVirtioDevice × Option UInt32)) = _ ↔ (Except.error e : Except Fault (Option UInt32)) = _
    rw [Except.error.injEq, Except.error.injEq]

/-- It returns, given enough fuel, iff no descriptor is met twice. -/
theorem processTxChain_ends (hp : Printing h peek I) (d : CondVirtioDevice) (head : UInt16) {w : W}
    (hw : I w) :
    (∃ fuel, ((processTxChain fuel d head).run (S := fabricSig) h w).1 ≠ .error .fuel) ↔
      Acyclic (txNext peek (d.queue 1)) head := by
  rw [← chase_ends_iff (fun i : UInt16 => i.toNat_lt) fun _ _ he => UInt16.toNat_inj.mp he]
  refine exists_congr fun fuel => ?_
  rw [ne_eq, processTxChain_fuel hp d fuel head hw, ne_eq, Decidable.not_not]

end

/-! ## The fabrics -/

/-- Guest memory, all of it readable. -/
def ramPeek (mem : Mem) : Peek := fun gpa len => some (readBytes mem gpa.toNat len.toNat)

theorem ram_printing (canMap : UInt64 → UInt32 → Bool) (mem : Mem) :
    Printing (Ram.answer canMap) (ramPeek mem) fun w => w.mem = mem where
  read _ _ _ hw := ⟨by subst hw; rfl, hw⟩
  alloc _ _ hw := ⟨rfl, hw⟩
  print _ _ hw := ⟨rfl, hw⟩

/-- Guest memory through the DMA window. -/
def uioPeek (f : UioFabric) : Peek := fun gpa len => (f.answer (.dmaReadInto gpa len)).1

theorem uio_printing (f : UioFabric) :
    Printing UioFabric.answer (uioPeek f) fun g => g.ram.mem = f.ram.mem ∧ g.dmaBase = f.dmaBase ∧ g.dmaSize = f.dmaSize where
  read g gpa len hg := by
    obtain ⟨hm, hb, hs⟩ := hg
    have hin : g.dmaOffset gpa len = f.dmaOffset gpa len := by simp only [UioFabric.dmaOffset, hb, hs]
    simp only [uioPeek, UioFabric.answer, hm, hin]
    split
    · exact ⟨rfl, hm, hb, hs⟩
    · cases f.dmaOffset gpa len <;> exact ⟨rfl, hm, hb, hs⟩
  alloc _ _ hg := ⟨rfl, hg⟩
  print _ _ hg := ⟨rfl, hg⟩

/-- **The console's walk ends** on a guest memory iff following `next` from the
head meets no descriptor twice, over plain memory and through the DMA window of
the UIO fabric. -/
theorem tx_walk_ends (d : CondVirtioDevice) (head : UInt16) :
    (∀ canMap (w : Ram), (∃ fuel, ((processTxChain fuel d head).run (Ram.answer canMap) w).1 ≠ .error .fuel) ↔
      Acyclic (txNext (ramPeek w.mem) (d.queue 1)) head) ∧
    (∀ f : UioFabric, (∃ fuel, ((processTxChain fuel d head).run UioFabric.answer f).1 ≠ .error .fuel) ↔
      Acyclic (txNext (uioPeek f) (d.queue 1)) head) :=
  ⟨fun canMap w => processTxChain_ends (ram_printing canMap w.mem) d head rfl,
    fun f => processTxChain_ends (uio_printing f) d head ⟨rfl, rfl, rfl⟩⟩

/-- A console whose TX queue has its table at 0x1000. -/
def smallTxDevice : CondVirtioDevice :=
  ⟨{ condVirtioInit.vdev with queues := [resetQueue condQueueSize, ⟨condQueueSize, 1, 0x1000, 0x2000, 0x3000, 0⟩] }, ()⟩

/-- Descriptors 0, 2 and 1, linked in this order, with texts at 0x4000. -/
def linked : Ram where
  mem := memOf [(0x1001, 0x40), (0x1008, 2), (0x100c, 1), (0x100e, 2), (0x1020, 2), (0x1021, 0x40), (0x1028, 1),
    (0x102c, 1), (0x102e, 1), (0x1010, 3), (0x1011, 0x40), (0x1018, 1), (0x4000, 72), (0x4001, 105), (0x4002, 33)]
  image := fun _ => 0
  line := false
  output := []

theorem tx_walk_ends_linked :
    chase (txNext (ramPeek linked.mem) (smallTxDevice.queue 1)) 0 2 = some 1 ∧
    ∃ fuel, ((processTxChain fuel smallTxDevice 0).run (Ram.answer fun _ _ => false) linked).1 ≠ .error .fuel := by
  have hend : chase (txNext (ramPeek linked.mem) (smallTxDevice.queue 1)) 0 3 = none := by decide +kernel
  have hdiffer : ∀ n < 3, ∀ m < n, chase (txNext (ramPeek linked.mem) (smallTxDevice.queue 1)) 0 m ≠
      chase (txNext (ramPeek linked.mem) (smallTxDevice.queue 1)) 0 n := by decide +kernel
  refine ⟨by decide +kernel, ((tx_walk_ends smallTxDevice 0).1 _ _).2 fun m n hmn hn => ?_⟩
  have hlt : n < 3 := Nat.lt_of_not_le fun h => hn (chase_none_mono h hend)
  exact hdiffer n hlt m hmn

/-- Descriptor 0, empty, its own `next`. -/
def selfLinked : Ram := ⟨memOf [(0x100c, 1)], fun _ => 0, false, []⟩

/-- A descriptor that is its own `next` uses up any number of steps. -/
theorem tx_walk_endless :
    txNext (ramPeek selfLinked.mem) (smallTxDevice.queue 1) 0 = some 0 ∧
    ∀ fuel, ((processTxChain fuel smallTxDevice 0).run (Ram.answer fun _ _ => false) selfLinked).1 = .error .fuel := by
  have hlink : txNext (ramPeek selfLinked.mem) (smallTxDevice.queue 1) 0 = some 0 := by decide +kernel
  refine ⟨hlink, fun fuel => ?_⟩
  rw [processTxChain_fuel (ram_printing (fun _ _ => false) selfLinked.mem) smallTxDevice fuel 0 rfl]
  refine chase_cycle (m := 0) (n := 1) (by decide) ?_ ?_ fuel
  · simp [chase, hlink]
  · simp [chase, hlink]

end AcsVirt.L4
