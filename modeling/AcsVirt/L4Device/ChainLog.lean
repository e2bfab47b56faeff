import AcsVirt.L2Machine.Ram
import AcsVirt.L4Device.Calls

/-!
# The block device's walk, with a log

What the driver relies on is said of whole chains: which descriptors were
read, where each piece of data went, what was written. `process_chain` keeps
only running totals, so `processChainLogged` is the same code with a log next
to it: the indices asked for and, for every data descriptor the loop has been
through, the descriptor, the image offset computed for it and the status after
it. Taking the log away gives `process_chain` back (`processChain_erase`).

The first result over it is the bound on the walk. `chain_seen` is a 32-bit
counter compared with the 32-bit `queue.num`, so it bounds the walk for every
value of `num` but one: no counter value exceeds 2^32 - 1, and a cyclic chain
is then followed for ever (`chain_walk_bounded`).
-/
namespace AcsVirt.L4

open L1 L2

/-! ## The log -/

/-- A data descriptor the loop has been through. -/
structure Turn where
  desc : VirtioDesc
  imageOffset : UInt64
  status : BlkStatus
  deriving DecidableEq, Repr

/-- The loop's variables and the log. -/
structure WalkState where
  disk : BlkdState
  index : UInt16
  chainSeen : UInt32
  status : BlkStatus
  dataLen : UInt32
  reads : List UInt16
  turns : List Turn

/-- The descriptor at `index` has been asked for. -/
def WalkState.asked (s : WalkState) : WalkState := { s with reads := s.reads ++ [s.index] }

/-- One time round the loop. -/
def WalkState.next (s : WalkState) (req : ReqType) (offset : UInt64) (desc : VirtioDesc)
    (disk : BlkdState) (status : BlkStatus) :
    WalkState where
  disk := disk
  index := desc.next
  chainSeen := s.chainSeen + 1
  status := status
  dataLen := addLen req s.dataLen desc.len
  reads := s.reads ++ [s.index]
  turns := s.turns ++ [⟨desc, offset + s.dataLen.toUInt64, status⟩]

/-- `chainLoop` with the log; the last descriptor, if the loop comes to one. -/
def chainWalk (directRead : Bool) (q : VirtioQueue) (req : ReqType) (offset : UInt64) :
    Nat → WalkState → FabricM (WalkState × Option VirtioDesc)
  | 0, _ => .fault .fuel
  | fuel + 1, s => do
    if q.num < s.chainSeen + 1 then return (s, none)
    match ← virtioReadDesc q s.index with
    | none => return (s.asked, none)
    | some desc =>
      if !desc.hasNext then return (s.asked, some desc)
      match ← dataStep directRead req s.disk desc (offset + s.dataLen.toUInt64) s.status with
      | (disk, none) => return ({ s.asked with disk }, none)
      | (disk, some status) => chainWalk directRead q req offset fuel (s.next req offset desc disk status)

/-- `finishChain` with the status it stores. -/
def finishLogged (req : ReqType) (statusDesc : VirtioDesc) (status : BlkStatus) (dataLen : UInt32) :
    FabricM (BlkStatus × Option UInt32) := do
  let flushed ← blkdBlockFlush req
  let status := if flushed then status else .ioerr
  let usedLen := if req = .tIn then dataLen + 1 else 1
  if ← dmaWrite statusDesc.addr [status.code] then return (status, some usedLen)
  else return (status, none)

structure ChainLog where
  req : ReqType
  sector : UInt64
  header : VirtioDesc
  walk : WalkState
  /-- The status descriptor, if the loop came to one, and the status for it. -/
  last : Option (VirtioDesc × BlkStatus)

def startWalk (d : BlkdVirtioDevice) (headerDesc : VirtioDesc) (req : ReqType) (sector : UInt64) :
    WalkState :=
  ⟨d.priv, headerDesc.next, 0, startStatus req sector, 0, [], []⟩

/-- `processChain` with the log of the loop, if it gets there. -/
def processChainLogged (directRead : Bool) (fuel : Nat) (d : BlkdVirtioDevice) (head : UInt16) :
    FabricM (BlkdVirtioDevice × Option UInt32 × Option ChainLog) := do
  let q := d.queue 0
  match ← virtioReadDesc q head with
  | none => return (d, none, none)
  | some headerDesc =>
    if !headerDesc.hasNext then return (d, none, none)
    match ← dmaReadInto headerDesc.addr 16 with
    | none => return (d, none, none)
    | some header =>
      let req := ReqType.ofWord (virtioLoadLe32 header)
      let sector := virtioLoadLe64 (header.drop 8)
      match ← chainWalk directRead q req (startOffset sector) fuel (startWalk d headerDesc req sector) with
      | (s, none) => return ({ d with priv := s.disk }, none, some ⟨req, sector, headerDesc, s, none⟩)
      | (s, some statusDesc) =>
        let (status, r) ← finishLogged req statusDesc s.status s.dataLen
        return ({ d with priv := s.disk }, r, some ⟨req, sector, headerDesc, s, some (statusDesc, status)⟩)

/-! ## Without the log -/

theorem chainWalk_erase (directRead : Bool) (q : VirtioQueue) (req : ReqType) (offset : UInt64)
    (fuel : Nat) (s : WalkState) :
    (chainWalk directRead q req offset fuel s >>= fun r =>
      .ret (r.1.disk, r.2.map fun desc => (desc, r.1.status, r.1.dataLen))) =
    chainLoop directRead q req offset fuel s.disk s.index s.chainSeen s.status s.dataLen := by
  induction fuel generalizing s with
  | zero => rfl
  | succ fuel ih =>
    rw [chainWalk, chainLoop]
    split
    · rfl
    · rw [Prog.bind_assoc]
      congr 1
      funext r
      cases r with
      | none => rfl
      | some desc =>
        dsimp only
        split
        · rfl
        · rw [Prog.bind_assoc]
          congr 1
          funext r
          obtain ⟨disk, st⟩ := r
          cases st with
          | none => rfl
          | some status => exact ih _

theorem finishLogged_erase (req : ReqType) (s : BlkdState) (statusDesc : VirtioDesc)
    (status : BlkStatus) (dataLen : UInt32) :
    (finishLogged req statusDesc status dataLen >>= fun r => .ret (s, r.2)) =
      finishChain req s statusDesc status dataLen := by
  rw [finishLogged, finishChain, Prog.bind_assoc]
  congr 1
  funext flushed
  rw [Prog.bind_assoc]
  congr 1
  funext ok
  split <;> rfl

theorem processChain_erase (directRead : Bool) (fuel : Nat) (d : BlkdVirtioDevice) (head : UInt16) :
    (processChainLogged directRead fuel d head >>= fun r => .ret (r.1, r.2.1)) = processChain directRead fuel d head := by
  rw [processChainLogged, processChain, Prog.bind_assoc]
  congr 1
  funext r
  cases r with
  | none => rfl
  | some headerDesc =>
    dsimp only
    split
    · rfl
    · rw [Prog.bind_assoc]
      congr 1
      funext r
      cases r with
      | none => rfl
      | some header =>
        dsimp only
        rw [Prog.bind_assoc]
        refine Eq.trans ?_ (congrArg (· >>= _) (chainWalk_erase directRead (d.queue 0) _ _ fuel (startWalk d headerDesc _ _)))
        rw [Prog.bind_assoc]
        congr 1
        funext r
        obtain ⟨s, last⟩ := r
        cases last with
        | none => rfl
        | some statusDesc =>
          show (_ >>= _) >>= _ = finishChain _ _ _ _ _ >>= _
          rw [← finishLogged_erase, Prog.bind_assoc, Prog.bind_assoc]
          rfl

/-- Every call of `process_chain` that returns is one of the logged code. -/
theorem processChain_logged {directRead : Bool} {fuel : Nat} {d d' : BlkdVirtioDevice}
    {head : UInt16} {r : Option UInt32} {es : List (CallEvent fabricSig)} :
    Emits (processChain directRead fuel d head) es (.ok (d', r)) ↔
      ∃ log, Emits (processChainLogged directRead fuel d head) es (.ok (d', r, log)) := by
  rw [← processChain_erase, Emits.map_iff]
  constructor
  · rintro ⟨⟨d₁, r₁, log⟩, h, he⟩
    cases he
    exact ⟨log, h⟩
  · rintro ⟨log, h⟩
    exact ⟨_, h, rfl⟩

/-! ## The bound on the walk -/

/-- Whatever the calls are answered with: it returns, with a result in `ψ`. -/
def Returns {α : Type} (p : FabricM α) (ψ : α → Prop) : Prop :=
  p.Sat (fun _ => True) (fun _ => False) ψ

theorem dataStep_returns (directRead : Bool) (req : ReqType) (disk : BlkdState) (desc : VirtioDesc)
    (offset : UInt64) (status : BlkStatus) :
    Returns (dataStep directRead req disk desc offset status) fun _ => True :=
  ((dataStep_sat (.quiet desc) (fun _ _ => trivial) directRead req disk offset status).weaken fun _ _ => trivial).mono
    fun _ _ => trivial

/-- The counter is the number of descriptors asked for, and stays below `num`. -/
theorem chainWalk_bounded {q : VirtioQueue} (hnum : q.num ≠ 0xffffffff) (directRead : Bool)
    (req : ReqType) (offset : UInt64) (fuel : Nat) (s : WalkState)
    (hseen : s.reads.length = s.chainSeen.toNat) (hle : s.chainSeen ≤ q.num)
    (hfuel : q.num.toNat < fuel + s.reads.length) :
    Returns (chainWalk directRead q req offset fuel s) fun r => r.1.reads.length ≤ q.num.toNat := by
  have hle' := UInt32.le_iff_toNat_le.1 hle
  have hmax : q.num.toNat < 0xffffffff := by
    have h1 := q.num.toNat_lt
    have h2 : q.num.toNat ≠ 0xffffffff := fun h => hnum (UInt32.toNat_inj.mp h)
    omega
  have hsucc : (s.chainSeen + 1).toNat = s.chainSeen.toNat + 1 := by
    rw [UInt32.toNat_add, show (1 : UInt32).toNat = 1 from rfl]
    omega
  induction fuel generalizing s with
  | zero => omega
  | succ fuel ih =>
    rw [chainWalk]
    split
    · exact Prog.Sat.ret (hseen ▸ hle')
    next hlt =>
      have hnext : s.chainSeen + 1 ≤ q.num := UInt32.not_lt.1 hlt
      have hnext' := UInt32.le_iff_toNat_le.1 hnext
      have hasked : (s.reads ++ [s.index]).length ≤ q.num.toNat := by
        rw [List.length_append, List.length_singleton]
        omega
      refine Prog.Sat.bind (virtioReadDesc_sat (fun _ _ => trivial) _ _) fun r _ => ?_
      cases r with
      | none => exact Prog.Sat.ret hasked
      | some desc =>
        dsimp only
        split
        · exact Prog.Sat.ret hasked
        refine Prog.Sat.bind (dataStep_returns ..) fun r _ => ?_
        obtain ⟨disk, st⟩ := r
        cases st with
        | none => exact Prog.Sat.ret hasked
        | some status =>
          have hseen' : (s.next req offset desc disk status).reads.length = (s.chainSeen + 1).toNat := by
            rw [hsucc, ← hseen]
            exact List.length_append
          refine ih (s.next req offset desc disk status) hseen' hnext (by omega) hnext' ?_
          show (s.chainSeen + 1 + 1).toNat = (s.chainSeen + 1).toNat + 1
          rw [UInt32.toNat_add, show (1 : UInt32).toNat = 1 from rfl]
          omega

theorem finishLogged_returns (req : ReqType) (desc : VirtioDesc) (status : BlkStatus)
    (dataLen : UInt32) :
    Returns (finishLogged req desc status dataLen) fun _ => True := by
  refine Prog.Sat.bind (blkdBlockFlush_sat req trivial) fun flushed _ => ?_
  refine Prog.Sat.bind (dmaWrite_sat _ _ trivial) fun ok _ => ?_
  split <;> exact Prog.Sat.ret trivial

/-- The loop of a call, if there is one, asks for at most `num` descriptors. -/
def ReadsAtMost (num : UInt32) (log : Option ChainLog) : Prop :=
  ∀ l, log = some l → l.walk.reads.length ≤ num.toNat

theorem readsAtMost_none (num : UInt32) : ReadsAtMost num none := by
  intro l h
  cases h

theorem processChain_bounded {d : BlkdVirtioDevice} (hnum : (d.queue 0).num ≠ 0xffffffff)
    (directRead : Bool) (head : UInt16) :
    Returns (processChainLogged directRead ((d.queue 0).num.toNat + 1) d head)
      fun r => ReadsAtMost (d.queue 0).num r.2.2 := by
  refine Prog.Sat.bind (virtioReadDesc_sat (fun _ _ => trivial) _ _) fun r _ => ?_
  cases r with
  | none => exact Prog.Sat.ret (readsAtMost_none _)
  | some headerDesc =>
    dsimp only
    split
    · exact Prog.Sat.ret (readsAtMost_none _)
    refine Prog.Sat.bind (dmaReadInto_sat _ _ trivial) fun r _ => ?_
    cases r with
    | none => exact Prog.Sat.ret (readsAtMost_none _)
    | some header =>
      refine Prog.Sat.bind (chainWalk_bounded hnum directRead _ _ _ _ rfl (UInt32.zero_le) (by simp [startWalk])) fun r hr => ?_
      obtain ⟨s, last⟩ := r
      cases last with
      | none =>
        refine Prog.Sat.ret ?_
        intro l he
        cases he
        exact hr
      | some statusDesc =>
        refine Prog.Sat.bind (finishLogged_returns ..) fun r _ => Prog.Sat.ret ?_
        intro l he
        cases he
        exact hr

/-! ## The counter that cannot exceed its limit -/

/-- Every descriptor read from it has `NEXT` set, and every request is of an
unknown type. -/
def onesRam : Ram := ⟨fun _ => 1, fun _ => 0, false, []⟩

theorem dmaReadInto_ones (canMap : UInt64 → UInt32 → Bool) (gpa : UInt64) (len : UInt32) :
    (dmaReadInto gpa len).run (Ram.answer canMap) onesRam = (.ok (some (List.replicate len.toNat 1)), onesRam) := by
  have hones : readBytes onesRam.mem gpa.toNat len.toNat = List.replicate len.toNat 1 :=
    List.eq_replicate_iff.2 ⟨readBytes_length .., by simp [onesRam, readBytes]⟩
  rw [dmaReadInto_run, hones]

/-- Each descriptor leads on to descriptor 257. -/
def onesDesc : VirtioDesc := decodeDesc (List.replicate 16 1)

theorem virtioReadDesc_ones (canMap : UInt64 → UInt32 → Bool) (q : VirtioQueue) (index : UInt16) :
    (virtioReadDesc q index).run (Ram.answer canMap) onesRam = (.ok (some onesDesc), onesRam) :=
  Prog.run_bind_ok (dmaReadInto_ones canMap (descAddr q index) 16)

theorem chainWalk_ones {q : VirtioQueue} (hnum : q.num = 0xffffffff)
    (canMap : UInt64 → UInt32 → Bool) (directRead : Bool) (offset : UInt64) (fuel : Nat)
    (s : WalkState) :
    ((chainWalk directRead q .other offset fuel s).run (Ram.answer canMap) onesRam).1 = .error .fuel := by
  induction fuel generalizing s with
  | zero => rfl
  | succ fuel ih =>
    have hmax : ¬q.num < s.chainSeen + 1 := by
      rw [UInt32.lt_iff_toNat_lt, hnum, show (0xffffffff : UInt32).toNat = 0xffffffff from rfl]
      have := (s.chainSeen + 1).toNat_lt
      omega
    have hnext : (!onesDesc.hasNext) = false := by decide
    rw [chainWalk, if_neg hmax, Prog.run_bind_ok (virtioReadDesc_ones canMap q s.index)]
    simp only [hnext, Bool.false_eq_true, if_false]
    exact ih _

/-- On that memory a queue of 2^32 - 1 entries keeps the walk going for ever. -/
theorem processChain_ones {d : BlkdVirtioDevice} (hnum : (d.queue 0).num = 0xffffffff)
    (canMap : UInt64 → UInt32 → Bool) (directRead : Bool) (fuel : Nat) (head : UInt16) :
    ((processChainLogged directRead fuel d head).run (Ram.answer canMap) onesRam).1 = .error .fuel := by
  have hnext : (!onesDesc.hasNext) = false := by decide
  have hreq : ReqType.ofWord (virtioLoadLe32 (List.replicate (16 : UInt32).toNat 1)) = .other := by decide
  rw [processChainLogged, Prog.run_bind_ok (virtioReadDesc_ones canMap _ head)]
  simp only [hnext, Bool.false_eq_true, if_false]
  rw [Prog.run_bind_ok (dmaReadInto_ones canMap onesDesc.addr 16)]
  simp only [hreq, Prog.run_bind]
  have hwalk := chainWalk_ones hnum canMap directRead
    (startOffset (virtioLoadLe64 ((List.replicate (16 : UInt32).toNat 1).drop 8))) fuel
    (startWalk d onesDesc .other (virtioLoadLe64 ((List.replicate (16 : UInt32).toNat 1).drop 8)))
  revert hwalk
  generalize Prog.run _ (chainWalk ..) _ = r
  obtain ⟨o, w⟩ := r
  rintro (rfl : o = _)
  rfl

/-- The walk ends for every device with such a queue, every head and whatever
the guest's memory answers, having asked for at most `num` descriptors. -/
def WalkEnds (num : UInt32) : Prop :=
  ∀ directRead (d : BlkdVirtioDevice) head, (d.queue 0).num = num →
    ∃ fuel, Returns (processChainLogged directRead fuel d head) fun r => ReadsAtMost num r.2.2

/-- A device whose queue the guest has given `num` entries. -/
def queueOf (num : UInt32) : BlkdVirtioDevice :=
  ⟨{ (blkdVirtioInit ⟨⟨0, false⟩, 0, [], 0⟩ ⟨0, false⟩).vdev with queues := [⟨num, 1, 0, 0, 0, 0⟩] },
    ⟨⟨0, false⟩, 0, [], 0⟩⟩

theorem not_returns_of_run {α : Type} {p : FabricM α} {ψ : α → Prop} {W : Type}
    {h : W → (c : Call) → c.Reply × W} {w : W}
    (hrun : (p.run (S := fabricSig) h w).1 = .error .fuel) : ¬Returns p ψ := by
  intro hp
  have hout := hp.outcome (Runs.of_run (R := fun _ _ _ _ => True) (h := h) (π := fun _ => ()) (fun _ _ => trivial) p w)
  rw [hrun] at hout
  exact hout

/-- **The walk is bounded** for every queue size a guest can program, except
2^32 - 1. -/
theorem chain_walk_bounded (num : UInt32) : WalkEnds num ↔ num ≠ 0xffffffff := by
  constructor
  · intro h he
    subst he
    obtain ⟨fuel, hret⟩ := h false (queueOf 0xffffffff) 0 rfl
    exact not_returns_of_run (processChain_ones rfl (fun _ _ => false) false fuel 0) hret
  · intro hnum directRead d head he
    subst he
    exact ⟨_, processChain_bounded hnum directRead head⟩

/-- The queue size the device offers. -/
theorem chain_walk_bounded_default : WalkEnds blkdQueueSize :=
  (chain_walk_bounded blkdQueueSize).2 (by decide)

/-- A request over memory full of ones on a queue of 2^32 - 1 entries uses up
any number of steps. -/
theorem chain_walk_endless :
    ((queueOf 0xffffffff).queue 0).num = 0xffffffff ∧
    ∀ fuel, ((processChain false fuel (queueOf 0xffffffff) 0).run (Ram.answer fun _ _ => false) onesRam).1 = .error .fuel := by
  refine ⟨rfl, fun fuel => ?_⟩
  have hlog := processChain_ones (d := queueOf 0xffffffff) rfl (fun _ _ => false) false fuel 0
  rw [← processChain_erase, Prog.run_bind]
  revert hlog
  generalize Prog.run _ (processChainLogged ..) _ = r
  obtain ⟨o, w⟩ := r
  rintro (rfl : o = _)
  rfl

end AcsVirt.L4
