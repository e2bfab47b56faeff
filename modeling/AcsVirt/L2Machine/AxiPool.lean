import AcsVirt.Core.LTS
import AcsVirt.Core.Prog

/-!
# Pools shared by the devices (`axi_mmio_pool_get`, `axi_mmio_pool_put`)

Devices with the same DMA aperture share one pool, found on a global list
under `axi_mmio_pools_lock`. What a pool holds is the subject of
`L2Machine/AxiMmio.lean`; here a pool is its key, its two resources and its
reference count. A section under the lock is one call, and so is every
allocation and release outside it, so that calls of several devices
interleave wherever the source lets go of the lock.

A `PoolId` is an object, not an address: `kzalloc` never answers one twice.
`refcount_t` counts without saturating. Allocations fail as they like.
-/
namespace AcsVirt.L2.Pools

abbrev PoolId := Nat

/-- mirrors src/kernel/axi_mmio.c:21-31 -/
structure PoolObj where
  dmaBase : UInt64
  dmaSize : UInt64
  dmaVirt : Bool
  dmaBitmap : Bool
  refs : Nat
  deriving DecidableEq, Repr

/-- What is released on the way to `kfree`. -/
inductive Cleanup where
  | bitmapFree | memunmap | kfree
  deriving DecidableEq, Repr

inductive PoolCall where
  | findLocked (base size : UInt64)
  | kzalloc (base size : UInt64)
  | memremap (p : PoolId)
  | bitmapZalloc (p : PoolId)
  | addLocked (p : PoolId) (base size : UInt64)
  | putLocked (p : PoolId)
  | cleanup (c : Cleanup) (p : PoolId)
  deriving DecidableEq, Repr

@[reducible] def PoolCall.Reply : PoolCall → Type
  | .findLocked .. => Option PoolId
  | .kzalloc .. => Option PoolId
  | .memremap _ => Bool
  | .bitmapZalloc _ => Bool
  | .addLocked .. => Option PoolId
  | .putLocked _ => Bool
  | .cleanup .. => Unit

@[reducible] def poolSig : Sig := ⟨PoolCall, PoolCall.Reply⟩

abbrev PoolM := Prog poolSig Empty

/-! ## The code -/

/-- A sequence of releases, then the return. -/
def release {α : Type} (p : PoolId) (result : α) : List Cleanup → PoolM α
  | [] => return result
  | c :: cs => .call (.cleanup c p) fun _ => release p result cs

/-- From the second lock on.
mirrors src/kernel/axi_mmio.c:106-121 -/
def insertPool (base size : UInt64) (newPool : PoolId) : PoolM (Option PoolId) :=
  .call (.addLocked newPool base size) fun
    | some pool => release newPool (some pool) [.bitmapFree, .memunmap, .kfree]
    | none => return some newPool

/-- mirrors src/kernel/axi_mmio.c:99-104 -/
def zallocPool (base size : UInt64) (newPool : PoolId) : PoolM (Option PoolId) :=
  .call (.bitmapZalloc newPool) fun
    | true => insertPool base size newPool
    | false => release newPool none [.memunmap, .kfree]

/-- mirrors src/kernel/axi_mmio.c:93-97 -/
def remapPool (base size : UInt64) (newPool : PoolId) : PoolM (Option PoolId) :=
  .call (.memremap newPool) fun
    | true => zallocPool base size newPool
    | false => release newPool none [.kfree]

/-- mirrors src/kernel/axi_mmio.c:82-91 -/
def buildPool (base size : UInt64) : PoolM (Option PoolId) :=
  .call (.kzalloc base size) fun
    | some newPool => remapPool base size newPool
    | none => return none

/-- mirrors src/kernel/axi_mmio.c:67-122 -/
def axiMmioPoolGet (base size : UInt64) : PoolM (Option PoolId) :=
  .call (.findLocked base size) fun
    | some pool => return some pool
    | none => buildPool base size

/-- mirrors src/kernel/axi_mmio.c:43-60 -/
def axiMmioPoolPut : Option PoolId → PoolM Unit
  | none => return ()
  | some pool => .call (.putLocked pool) fun
    | true => release pool () [.bitmapFree, .memunmap, .kfree]
    | false => return ()

/-! ## The calls -/

structure PoolWorld where
  heap : PoolId → Option PoolObj
  next : PoolId
  list : List PoolId

def PoolWorld.set (w : PoolWorld) (p : PoolId) (o : Option PoolObj) : PoolWorld :=
  { w with heap := fun q => if q = p then o else w.heap q }

@[simp] theorem PoolWorld.set_list (w : PoolWorld) (p : PoolId) (o : Option PoolObj) :
    (w.set p o).list = w.list := rfl

@[simp] theorem PoolWorld.set_next (w : PoolWorld) (p : PoolId) (o : Option PoolObj) :
    (w.set p o).next = w.next := rfl

@[simp] theorem PoolWorld.set_self (w : PoolWorld) (p : PoolId) (o : Option PoolObj) :
    (w.set p o).heap p = o :=
  if_pos rfl

theorem PoolWorld.set_other (w : PoolWorld) {p q : PoolId} (h : q ≠ p) (o : Option PoolObj) :
    (w.set p o).heap q = w.heap q := if_neg h

def PoolWorld.modify (w : PoolWorld) (p : PoolId) (f : PoolObj → PoolObj) : PoolWorld :=
  w.set p ((w.heap p).map f)

/-- mirrors src/kernel/axi_mmio.c:74-75,107-108 -/
def PoolObj.matches (o : PoolObj) (base size : UInt64) : Bool :=
  o.dmaBase == base && o.dmaSize == size

def PoolWorld.find (w : PoolWorld) (base size : UInt64) : Option PoolId :=
  w.list.find? fun p => (w.heap p).any (·.matches base size)

def PoolObj.inc (o : PoolObj) : PoolObj := { o with refs := o.refs + 1 }

def PoolObj.dec (o : PoolObj) : PoolObj := { o with refs := o.refs - 1 }

def Cleanup.run (c : Cleanup) (w : PoolWorld) (p : PoolId) : PoolWorld :=
  match c with
  | .bitmapFree => w.modify p fun o => { o with dmaBitmap := false }
  | .memunmap => w.modify p fun o => { o with dmaVirt := false }
  | .kfree => w.set p none

def poolAnswer : Handler poolSig PoolWorld := fun w c r w' =>
  match c, r with
  | .findLocked base size, r =>
    r = w.find base size ∧ w' = match r with
      | some p => w.modify p PoolObj.inc
      | none => w
  | .kzalloc base size, r =>
    (r = none ∧ w' = w) ∨
      (r = some w.next ∧ w' = { w.set w.next (some ⟨base, size, false, false, 1⟩) with next := w.next + 1 })
  | .memremap p, r =>
    w' = if r then w.modify p fun o => { o with dmaVirt := true } else w
  | .bitmapZalloc p, r =>
    w' = if r then w.modify p fun o => { o with dmaBitmap := true } else w
  | .addLocked p base size, r =>
    r = w.find base size ∧ w' = match r with
      | some q => w.modify q PoolObj.inc
      | none => { w with list := p :: w.list }
  | .putLocked p, r =>
    -- refcount_dec_and_test
    r = ((w.heap p).map (·.refs) == some 1) ∧
      w' = if r then { w.modify p PoolObj.dec with list := w.list.erase p } else w.modify p PoolObj.dec
  | .cleanup c p, _ => w' = c.run w p

/-! ## Devices -/

/-- A device between calls, inside one, or holding a pool. `candidate` is the
pool this call has allocated, if any. -/
inductive Thread where
  | idle
  | getting (candidate : Option PoolId) (code : PoolM (Option PoolId))
  | holding (pool : PoolId)
  | putting (pool : PoolId) (code : PoolM Unit)

/-- The pool `kzalloc` answered. -/
def candidateAfter (candidate : Option PoolId) (c : PoolCall) (r : c.Reply) : Option PoolId :=
  match c, r with
  | .kzalloc _ _, r => r
  | _, _ => candidate

inductive ThreadStep : Thread → PoolWorld → Thread → PoolWorld → Prop
  | get (base size : UInt64) (w : PoolWorld) :
      ThreadStep .idle w (.getting none (axiMmioPoolGet base size)) w
  | getCall {cand : Option PoolId} {c : PoolCall} {k : c.Reply → PoolM (Option PoolId)} {r : c.Reply}
      {w w' : PoolWorld} : poolAnswer w c r w' →
      ThreadStep (.getting cand (.call c k)) w (.getting (candidateAfter cand c r) (k r)) w'
  | got (cand : Option PoolId) (p : PoolId) (w : PoolWorld) :
      ThreadStep (.getting cand (.ret (some p))) w (.holding p) w
  | failed (cand : Option PoolId) (w : PoolWorld) :
      ThreadStep (.getting cand (.ret none)) w .idle w
  | put (p : PoolId) (w : PoolWorld) : ThreadStep (.holding p) w
      (.putting p (axiMmioPoolPut (some p))) w
  | putCall {p : PoolId} {c : PoolCall} {k : c.Reply → PoolM Unit} {r : c.Reply} {w w' : PoolWorld} :
      poolAnswer w c r w' → ThreadStep (.putting p (.call c k)) w (.putting p (k r)) w'
  | done (p : PoolId) (w : PoolWorld) : ThreadStep (.putting p (.ret ())) w .idle w

/-! ## What can be seen of a device -/

/-- The pool a call is about to return: only releases are left to do. -/
def returns : PoolM (Option PoolId) → Option PoolId
  | .ret r => r
  | .call c k =>
    match c, k with
    | .cleanup _ _, k => returns (k ())
    | _, _ => none

/-- The reference a device has: the pool it holds, or one that its call has
taken and not returned yet, or not dropped yet. -/
def Thread.ref : Thread → Option PoolId
  | .idle => none
  | .getting _ code => returns code
  | .holding p => some p
  | .putting p (.call (.putLocked _) _) => some p
  | .putting _ _ => none

/-- The device is inside a call that has this pool to itself: a candidate
not inserted yet, or a pool it was the last to drop. -/
def Thread.WorksOn (p : PoolId) : Thread → Prop
  | .getting cand (.call _ _) => cand = some p
  | .putting q (.call (.cleanup _ _) _) => q = p
  | _ => False

structure PoolsState where
  threads : List Thread
  world : PoolWorld

/-- Holders of a pool, calls that have taken their reference included. -/
def PoolsState.holders (s : PoolsState) (p : PoolId) : Nat :=
  s.threads.countP fun t => t.ref == some p

def PoolsState.Live (s : PoolsState) (p : PoolId) : Prop := (s.world.heap p).isSome = true

/-- `n` devices; the label is the device that moves. -/
def poolsLts (n : Nat) : LTS PoolsState Nat where
  init s := s = ⟨List.replicate n .idle, ⟨fun _ => none, 0, []⟩⟩
  step s i s' := ∃ t t', s.threads[i]? = some t ∧ ThreadStep t s.world t' s'.world ∧
    s'.threads = s.threads.set i t'

end AcsVirt.L2.Pools
