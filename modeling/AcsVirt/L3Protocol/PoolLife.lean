import AcsVirt.L2Machine.AxiPool
import Mathlib.Data.List.Nodup

/-!
# Lifetime of a shared pool

At most one pool per aperture is on the list, a pool lives as long as
somebody holds it, and a candidate that lost the race for the list is freed
by the call that built it (`pool_lifetime`), whatever the interleaving of the
devices' calls.

What matters of a call in progress is its `Hand`: a pool it has to itself and
a pool it has a reference to. `Effect` lists what a step does to a hand and to
the shared state; `HandsInv`, kept by each of them, is one balance (a pool is
alive iff it is on the list or in exactly one hand, never both) and one count
(references of a listed pool). `Stage` says where in the two functions a
device is; every step of the code is an effect (`Stage.step`).
-/
namespace AcsVirt.L3

open L2.Pools

/-- A pool a call has to itself, and one it has a reference to. -/
structure Hand where
  own : Option PoolId
  ref : Option PoolId
  deriving DecidableEq, Repr

/-- Two pools for one aperture. -/
def SameKey (o o' : PoolObj) : Prop := o.dmaBase = o'.dmaBase ∧ o.dmaSize = o'.dmaSize

/-- A pool with both its resources. -/
def Complete (o : PoolObj) : Prop := o.dmaBitmap = true ∧ o.dmaVirt = true

/-- What a step does to the hand of the device that takes it. -/
inductive Effect : Hand → PoolWorld → Hand → PoolWorld → Prop
  | quiet (h : Hand) (w : PoolWorld) : Effect h w h w
  | touch {n : PoolId} {ref : Option PoolId} {w : PoolWorld} {o : PoolObj} (o' : PoolObj) :
      w.heap n = some o → Effect ⟨some n, ref⟩ w ⟨some n, ref⟩ (w.set n (some o'))
  | free {n : PoolId} {ref : Option PoolId} {w : PoolWorld} {o : PoolObj} :
      w.heap n = some o → Effect ⟨some n, ref⟩ w ⟨none, ref⟩ (w.set n none)
  | alloc {ref : Option PoolId} {w : PoolWorld} (o : PoolObj) :
      Effect ⟨none, ref⟩ w ⟨some w.next, ref⟩ { w.set w.next (some o) with next := w.next + 1 }
  | take {own : Option PoolId} {w : PoolWorld} {p : PoolId} {o : PoolObj} :
      p ∈ w.list → w.heap p = some o → Effect ⟨own, none⟩ w ⟨own, some p⟩ (w.set p (some o.inc))
  | publish {w : PoolWorld} {n : PoolId} {o : PoolObj} :
      w.heap n = some o → o.refs = 1 → Complete o →
      (∀ q ∈ w.list, ∀ o', w.heap q = some o' → ¬ SameKey o o') →
      Effect ⟨some n, none⟩ w ⟨none, some n⟩ { w with list := n :: w.list }
  | drop {w : PoolWorld} {p : PoolId} {o : PoolObj} :
      w.heap p = some o → o.refs ≠ 1 → Effect ⟨none, some p⟩ w ⟨none, none⟩ (w.set p (some o.dec))
  | last {w : PoolWorld} {p : PoolId} {o : PoolObj} :
      w.heap p = some o → o.refs = 1 →
      Effect ⟨none, some p⟩ w ⟨some p, none⟩ { w.set p (some o.dec) with list := w.list.erase p }

def owners (hs : List Hand) (p : PoolId) : Nat := hs.countP fun h => h.own == some p

def handHolders (hs : List Hand) (p : PoolId) : Nat := hs.countP fun h => h.ref == some p

/-- One for a pool that is allocated. -/
def alive (w : PoolWorld) (p : PoolId) : Nat := if (w.heap p).isSome then 1 else 0

/-- The reference count of a pool on the list. -/
def listedRefs (w : PoolWorld) (p : PoolId) : Nat :=
  if p ∈ w.list then (w.heap p).elim 0 PoolObj.refs else 0

structure HandsInv (hs : List Hand) (w : PoolWorld) : Prop where
  balance : ∀ p, w.list.count p + owners hs p = alive w p
  count : ∀ p, handHolders hs p = listedRefs w p
  pos : ∀ p ∈ w.list, 0 < listedRefs w p
  keys : ∀ p ∈ w.list, ∀ q ∈ w.list, ∀ o o', w.heap p = some o → w.heap q = some o' → SameKey o o' → p = q
  whole : ∀ p ∈ w.list, ∀ o, w.heap p = some o → Complete o
  fresh : ∀ p, w.next ≤ p → w.heap p = none

/-! ## Counting -/

/-- One if the pool is the one in question. -/
def one (x : Option PoolId) (p : PoolId) : Nat := if x = some p then 1 else 0

@[simp] theorem one_none (p : PoolId) : one none p = 0 := rfl

@[simp] theorem one_self (p : PoolId) : one (some p) p = 1 := if_pos rfl

theorem one_other {p q : PoolId} (h : q ≠ p) : one (some q) p = 0 := if_neg (by simpa using h)

theorem countP_set {α : Type} (f : α → Bool) {l : List α} {i : Nat} {a b : α} (h : l[i]? = some a) :
    (l.set i b).countP f + (if f a then 1 else 0) = l.countP f + if f b then 1 else 0 := by
  obtain ⟨hi, rfl⟩ := List.getElem?_eq_some_iff.1 h
  rw [List.countP_set hi]
  have hle : (if f l[i] = true then 1 else 0) ≤ l.countP f := by
    split
    · exact List.countP_pos_iff.2 ⟨_, List.getElem_mem hi, ‹_›⟩
    · exact Nat.zero_le _
  omega

section
variable {hs : List Hand} {w w' : PoolWorld} {i : Nat} {h h' : Hand}

theorem owners_set (hi : hs[i]? = some h) (h' : Hand) (p : PoolId) :
    owners (hs.set i h') p + one h.own p = owners hs p + one h'.own p := by
  simpa [owners, one] using countP_set (fun x : Hand => x.own == some p) hi

theorem holders_set (hi : hs[i]? = some h) (h' : Hand) (p : PoolId) :
    handHolders (hs.set i h') p + one h.ref p = handHolders hs p + one h'.ref p := by
  simpa [handHolders, one] using countP_set (fun x : Hand => x.ref == some p) hi

theorem one_own_le (hi : hs[i]? = some h) (p : PoolId) : one h.own p ≤ owners hs p := by
  unfold one
  split
  · rename_i he
    exact List.countP_pos_iff.2 ⟨h, List.mem_of_getElem? hi, by simpa using he⟩
  · exact Nat.zero_le _

theorem one_ref_le (hi : hs[i]? = some h) (p : PoolId) : one h.ref p ≤ handHolders hs p := by
  unfold one
  split
  · rename_i he
    exact List.countP_pos_iff.2 ⟨h, List.mem_of_getElem? hi, by simpa using he⟩
  · exact Nat.zero_le _

/-! ## One step -/

theorem HandsInv.own_alive (hinv : HandsInv hs w) (hi : hs[i]? = some h) {n : PoolId}
    (ho : h.own = some n) :
    (w.heap n).isSome = true ∧ n ∉ w.list ∧ owners hs n = 1 := by
  have h1 := one_own_le hi n
  have h2 := hinv.balance n
  rw [ho, one_self] at h1
  have h3 : alive w n ≤ 1 := by unfold alive; split <;> omega
  have h4 : alive w n = 1 := by omega
  refine ⟨?_, ?_, by omega⟩
  · unfold alive at h4
    split at h4
    · assumption
    · cases h4
  · rw [← List.count_eq_zero]
    omega

theorem HandsInv.ref_listed (hinv : HandsInv hs w) (hi : hs[i]? = some h) {p : PoolId}
    (hr : h.ref = some p) : p ∈ w.list := by
  have h1 := one_ref_le hi p
  have h2 := hinv.count p
  rw [hr, one_self] at h1
  unfold listedRefs at h2
  split at h2
  · assumption
  · omega

theorem HandsInv.listed_alive (hinv : HandsInv hs w) {p : PoolId} (hp : p ∈ w.list) :
    ∃ o, w.heap p = some o ∧ w.list.count p = 1 ∧ owners hs p = 0 := by
  have h1 := List.count_pos_iff.2 hp
  have h2 := hinv.balance p
  have h3 : alive w p ≤ 1 := by unfold alive; split <;> omega
  have h4 : alive w p = 1 := by omega
  unfold alive at h4
  split at h4
  · obtain ⟨o, ho⟩ := Option.isSome_iff_exists.1 ‹_›
    exact ⟨o, ho, by omega, by omega⟩
  · cases h4

theorem HandsInv.lt_next (hinv : HandsInv hs w) {n : PoolId} (h : (w.heap n).isSome = true) :
    n < w.next := by
  refine Nat.lt_of_not_le fun hle => ?_
  rw [hinv.fresh n hle] at h
  cases h

theorem HandsInv.next_free (hinv : HandsInv hs w) : w.heap w.next = none ∧ w.next ∉ w.list := by
  have hn := hinv.fresh w.next (Nat.le_refl _)
  refine ⟨hn, fun hm => ?_⟩
  obtain ⟨o, ho, -⟩ := hinv.listed_alive hm
  rw [hn] at ho
  cases ho

/-- A pool comes to life, or changes hands, or dies, in one hand only. -/
theorem Effect.balance (hinv : HandsInv hs w) (hi : hs[i]? = some h) (he : Effect h w h' w')
    (p : PoolId) :
    w'.list.count p + one h'.own p + alive w p = w.list.count p + one h.own p + alive w' p := by
  cases he with
  | quiet => rfl
  | @touch n ref _ o o' ho =>
    by_cases hp : p = n
    · simp [hp, alive, ho]
    · simp [alive, PoolWorld.set_other _ hp]
  | @free n ref _ o ho =>
    by_cases hp : p = n
    · simp [hp, alive, ho]
    · simp [alive, PoolWorld.set_other _ hp, one_other (Ne.symm hp)]
  | alloc o =>
    by_cases hp : p = w.next
    · simp [hp, alive, PoolWorld.set, hinv.next_free.1]
    · simp [alive, PoolWorld.set, hp, one_other (Ne.symm hp)]
  | @take own _ q o hq ho =>
    by_cases hp : p = q
    · simp [hp, alive, ho]
    · simp [alive, PoolWorld.set_other _ hp]
  | @publish _ n o ho hone hfull hkey =>
    by_cases hp : p = n
    · simp [hp, alive]
    · simp [alive, one_other (Ne.symm hp), List.count_cons_of_ne (Ne.symm hp)]
  | @drop _ q o ho hne =>
    by_cases hp : p = q
    · simp [hp, alive, ho]
    · simp [alive, PoolWorld.set_other _ hp]
  | @last _ q o ho hone =>
    obtain ⟨-, -, hcount, -⟩ := hinv.listed_alive (hinv.ref_listed hi rfl)
    by_cases hp : p = q
    · simp [hp, alive, PoolWorld.set, ho, hcount]
    · simp [alive, PoolWorld.set, hp, one_other (Ne.symm hp), List.count_erase_of_ne hp]

/-- A reference is counted when it is taken and when it is dropped. -/
theorem Effect.count (hinv : HandsInv hs w) (hi : hs[i]? = some h) (he : Effect h w h' w')
    (p : PoolId) :
    listedRefs w' p + one h.ref p = listedRefs w p + one h'.ref p := by
  cases he with
  | quiet => rfl
  | @touch n ref _ o o' ho =>
    by_cases hp : p = n
    · have hn := (hinv.own_alive hi rfl).2.1
      simp [hp, listedRefs, hn, PoolWorld.set]
    · simp [listedRefs, PoolWorld.set, hp]
  | @free n ref _ o ho =>
    by_cases hp : p = n
    · have hn := (hinv.own_alive hi rfl).2.1
      simp [hp, listedRefs, hn, PoolWorld.set]
    · simp [listedRefs, PoolWorld.set, hp]
  | alloc o =>
    by_cases hp : p = w.next
    · simp [hp, listedRefs, PoolWorld.set, hinv.next_free.2]
    · simp [listedRefs, PoolWorld.set, hp]
  | @take own _ q o hq ho =>
    by_cases hp : p = q
    · simp [hp, listedRefs, PoolWorld.set, hq, ho, PoolObj.inc]
    · simp [listedRefs, PoolWorld.set, hp, one_other (Ne.symm hp)]
  | @publish _ n o ho hone hfull hkey =>
    by_cases hp : p = n
    · have hn := (hinv.own_alive hi rfl).2.1
      simp [hp, listedRefs, hn, ho, hone]
    · simp [listedRefs, hp, one_other (Ne.symm hp)]
  | @drop _ q o ho hne =>
    have hq := hinv.ref_listed hi rfl
    by_cases hp : p = q
    · have hpos := hinv.pos q hq
      simp only [listedRefs, hq, if_true, ho, Option.elim_some] at hpos
      simp [hp, listedRefs, PoolWorld.set, hq, ho, PoolObj.dec]
      omega
    · simp [listedRefs, PoolWorld.set, hp, one_other (Ne.symm hp)]
  | @last _ q o ho hone =>
    have hq := hinv.ref_listed hi rfl
    obtain ⟨-, -, hcount, -⟩ := hinv.listed_alive hq
    by_cases hp : p = q
    · have hn : q ∉ w.list.erase q := by
        rw [← List.count_eq_zero, List.count_erase_self, hcount]
      simp [hp, listedRefs, hq, hn, ho, hone]
    · simp [listedRefs, PoolWorld.set, hp, one_other (Ne.symm hp), List.mem_erase_of_ne hp]

/-- A listed pool keeps everything but its count. -/
theorem Effect.listed_kept (hinv : HandsInv hs w) (hi : hs[i]? = some h) (he : Effect h w h' w')
    {p : PoolId} (hp : p ∈ w.list) {o' : PoolObj} (ho' : w'.heap p = some o') :
    ∃ o r, w.heap p = some o ∧ o' = { o with refs := r } := by
  have hset : ∀ {q : PoolId} {x : Option PoolObj}, p ≠ q → (w.set q x).heap p = some o' →
      ∃ o r, w.heap p = some o ∧ o' = { o with refs := r } := by
    intro q x hne hx
    rw [PoolWorld.set_other _ hne] at hx
    exact ⟨o', o'.refs, hx, rfl⟩
  have hcount : ∀ {q : PoolId} {o : PoolObj} (r : Nat), w.heap q = some o →
      (w.set q (some { o with refs := r })).heap p = some o' →
      ∃ o r, w.heap p = some o ∧ o' = { o with refs := r } := by
    intro q o r ho hx
    by_cases hq : p = q
    · subst hq
      rw [PoolWorld.set_self, Option.some.injEq] at hx
      exact ⟨o, r, ho, hx.symm⟩
    · exact hset hq hx
  cases he with
  | quiet => exact ⟨o', o'.refs, ho', rfl⟩
  | touch x ho | free ho => exact hset (by rintro rfl; exact (hinv.own_alive hi rfl).2.1 hp) ho'
  | alloc x => exact hset (by rintro rfl; exact hinv.next_free.2 hp) ho'
  | take hq ho => exact hcount _ ho ho'
  | publish ho hone hfull hkey => exact ⟨o', o'.refs, ho', rfl⟩
  | drop ho hne => exact hcount _ ho ho'
  | last ho hone => exact hcount _ ho ho'

/-- The list only gains the pool that is published. -/
theorem Effect.list_of (he : Effect h w h' w') {p : PoolId} (hp : p ∈ w'.list) :
    p ∈ w.list ∨ (h = ⟨some p, none⟩ ∧ w'.heap = w.heap ∧
      ∃ o, w.heap p = some o ∧ Complete o ∧ ∀ q ∈ w.list, ∀ o', w.heap q = some o' → ¬ SameKey o o') := by
  cases he with
  | @publish _ n o ho hone hfull hkey =>
    rcases List.mem_cons.1 hp with rfl | hp
    · exact .inr ⟨rfl, rfl, o, ho, hfull, hkey⟩
    · exact .inl hp
  | last ho hone => exact .inl (List.mem_of_mem_erase hp)
  | _ => exact .inl hp

theorem SameKey.symm {o o' : PoolObj} (h : SameKey o o') : SameKey o' o := ⟨h.1.symm, h.2.symm⟩

theorem Effect.keys (hinv : HandsInv hs w) (hi : hs[i]? = some h) (he : Effect h w h' w')
    {p q : PoolId} (hp : p ∈ w'.list) (hq : q ∈ w'.list) {o o' : PoolObj} (ho : w'.heap p = some o)
    (ho' : w'.heap q = some o') (hk : SameKey o o') : p = q := by
  rcases he.list_of hp with hp | ⟨h1, hheap, x, hx, -, hnew⟩
  · rcases he.list_of hq with hq | ⟨h1, hheap, x, hx, -, hnew⟩
    · obtain ⟨a, r, ha, rfl⟩ := he.listed_kept hinv hi hp ho
      obtain ⟨b, r', hb, rfl⟩ := he.listed_kept hinv hi hq ho'
      exact hinv.keys p hp q hq a b ha hb hk
    · rw [hheap] at ho ho'
      rw [hx, Option.some.injEq] at ho'
      exact absurd (ho' ▸ hk.symm) (hnew p hp o ho)
  · rcases he.list_of hq with hq | ⟨h2, -⟩
    · rw [hheap] at ho ho'
      rw [hx, Option.some.injEq] at ho
      exact absurd (ho ▸ hk) (hnew q hq o' ho')
    · rw [h1] at h2
      simpa using h2

theorem Effect.whole (hinv : HandsInv hs w) (hi : hs[i]? = some h) (he : Effect h w h' w')
    {p : PoolId} (hp : p ∈ w'.list) {o : PoolObj} (ho : w'.heap p = some o) : Complete o := by
  rcases he.list_of hp with hp | ⟨-, hheap, x, hx, hfull, -⟩
  · obtain ⟨a, r, ha, rfl⟩ := he.listed_kept hinv hi hp ho
    exact hinv.whole p hp a ha
  · rw [hheap, hx, Option.some.injEq] at ho
    exact ho ▸ hfull

theorem Effect.fresh (hinv : HandsInv hs w) (hi : hs[i]? = some h) (he : Effect h w h' w')
    {p : PoolId} (hp : w'.next ≤ p) : w'.heap p = none := by
  have hset : ∀ {q : PoolId} {x : Option PoolObj}, (w.heap q).isSome = true → w.next ≤ p →
      (w.set q x).heap p = none := by
    intro q x hq hle
    have hn := hinv.fresh p hle
    rw [PoolWorld.set_other _ fun e => by rw [← e, hn] at hq; cases hq]
    exact hn
  have hsome : ∀ {q : PoolId} {o : PoolObj}, w.heap q = some o → (w.heap q).isSome = true :=
    fun ho => by rw [ho]; rfl
  cases he with
  | quiet => exact hinv.fresh p hp
  | touch x ho => exact hset (hsome ho) hp
  | free ho => exact hset (hsome ho) hp
  | alloc x =>
    have hle : w.next + 1 ≤ p := hp
    show (w.set w.next (some x)).heap p = none
    rw [PoolWorld.set_other _ (Nat.ne_of_gt hle)]
    exact hinv.fresh p (Nat.le_of_succ_le hle)
  | take hq ho => exact hset (hsome ho) hp
  | publish ho hone hfull hkey => exact hinv.fresh p hp
  | drop ho hne => exact hset (hsome ho) hp
  | last ho hone => exact hset (hsome ho) hp

/-- Every effect keeps the invariant. -/
theorem Effect.inv (hinv : HandsInv hs w) (hi : hs[i]? = some h) (he : Effect h w h' w') :
    HandsInv (hs.set i h') w' := by
  have hcount : ∀ p, handHolders (hs.set i h') p = listedRefs w' p := by
    intro p
    have h1 := he.count hinv hi p
    have h2 := holders_set hi h' p
    have h3 := hinv.count p
    omega
  refine ⟨fun p => ?_, hcount, fun p hp => ?_, fun p hp q hq o o' => he.keys hinv hi hp hq,
    fun p hp o => he.whole hinv hi hp, fun p => he.fresh hinv hi⟩
  · have h1 := he.balance hinv hi p
    have h2 := owners_set hi h' p
    have h3 := hinv.balance p
    omega
  · -- only the last holder leaves no reference, and it takes the pool off the list
    have h1 := he.count hinv hi p
    cases he with
    | quiet => exact hinv.pos p hp
    | touch x ho | free ho | alloc x => exact Nat.add_right_cancel h1 ▸ hinv.pos p hp
    | take hq ho =>
      have := hinv.pos p hp
      simp only [one_none] at h1
      omega
    | @publish _ n o ho hone hfull hkey =>
      by_cases hpn : p = n
      · subst hpn
        simp only [one_none, one_self] at h1
        omega
      · have := hinv.pos p (List.mem_of_ne_of_mem hpn hp)
        simp only [one_none, one_other (Ne.symm hpn)] at h1
        omega
    | @drop _ q o ho hne =>
      have hpos := hinv.pos p hp
      by_cases hpq : p = q
      · subst hpq
        have hp' : p ∈ w.list := hp
        simp only [listedRefs, PoolWorld.set_list, hp', if_true, PoolWorld.set_self, ho, Option.elim_some,
          PoolObj.dec] at hpos ⊢
        omega
      · simp only [one_none, one_other (Ne.symm hpq)] at h1
        omega
    | @last _ q o ho hone =>
      have hq := hinv.ref_listed hi rfl
      obtain ⟨-, -, hc, -⟩ := hinv.listed_alive hq
      have hpq : p ≠ q := by
        intro he
        subst he
        have := List.count_pos_iff.2 hp
        rw [List.count_erase_self, hc] at this
        omega
      have := hinv.pos p (List.mem_of_mem_erase hp)
      simp only [one_none, one_other (Ne.symm hpq), Nat.add_zero] at h1
      exact h1 ▸ this

/-- What a step leaves alone: pools that are neither in its hand nor listed. -/
theorem Effect.frame (he : Effect h w h' w') (hinv : HandsInv hs w) (hi : hs[i]? = some h)
    {q : PoolId} (hown : h.own ≠ some q) (hl : q ∉ w.list) (hq : q < w.next) :
    w'.heap q = w.heap q := by
  have href : ∀ {p : PoolId}, h.ref = some p → q ≠ p := fun hr e => hl (e ▸ hinv.ref_listed hi hr)
  cases he with
  | quiet => rfl
  | touch x ho | free ho => exact PoolWorld.set_other _ (fun e => hown (by rw [e])) _
  | alloc x => exact PoolWorld.set_other _ (Nat.ne_of_lt hq) _
  | take hp ho => exact PoolWorld.set_other _ (by rintro rfl; exact hl hp) _
  | publish ho hone hfull hkey => rfl
  | drop ho hne | last ho hone => exact PoolWorld.set_other _ (href rfl) _

theorem Effect.next_le (he : Effect h w h' w') : w.next ≤ w'.next := by
  cases he with
  | alloc x => exact Nat.le_succ _
  | _ => exact Nat.le_refl _

end

/-! ## Where a device is -/

def allCleanup : List Cleanup := [.bitmapFree, .memunmap, .kfree]

inductive Stage where
  | idle
  | look (base size : UInt64)
  | build (base size : UInt64)
  | remap (base size : UInt64) (n : PoolId)
  | zalloc (base size : UInt64) (n : PoolId)
  | insert (base size : UInt64) (n : PoolId)
  | undo (n : PoolId) (cs : List Cleanup)
  | lose (n p : PoolId) (cs : List Cleanup)
  | got (cand : Option PoolId) (p : PoolId)
  | failed
  | held (p : PoolId)
  | drop (p : PoolId)
  | reap (p : PoolId) (cs : List Cleanup)
  | gone (p : PoolId)

namespace Stage

def thread : Stage → Thread
  | idle => .idle
  | look base size => .getting none (axiMmioPoolGet base size)
  | build base size => .getting none (buildPool base size)
  | remap base size n => .getting (some n) (remapPool base size n)
  | zalloc base size n => .getting (some n) (zallocPool base size n)
  | insert base size n => .getting (some n) (insertPool base size n)
  | undo n cs => .getting (some n) (release n none cs)
  | lose n p cs => .getting (some n) (release n (some p) cs)
  | got cand p => .getting cand (.ret (some p))
  | failed => .getting none (.ret none)
  | held p => .holding p
  | drop p => .putting p (axiMmioPoolPut (some p))
  | reap p cs => .putting p (release p () cs)
  | gone p => .putting p (.ret ())

def hand : Stage → Hand
  | remap _ _ n | zalloc _ _ n | insert _ _ n => ⟨some n, none⟩
  | undo n (_ :: _) => ⟨some n, none⟩
  | lose n p (_ :: _) => ⟨some n, some p⟩
  | lose _ p [] | got _ p | held p | drop p => ⟨none, some p⟩
  | reap p (_ :: _) => ⟨some p, none⟩
  | idle | look .. | build .. | undo _ [] | failed | reap _ [] | gone _ => ⟨none, none⟩

/-- A pool on its way to `kfree`: what is left to do is what it still has. -/
def Releasing (w : PoolWorld) (n : PoolId) (cs : List Cleanup) : Prop :=
  cs <:+ allCleanup ∧ n < w.next ∧
    if cs = [] then w.heap n = none
    else ∃ o, w.heap n = some o ∧ o.dmaBitmap = decide (.bitmapFree ∈ cs) ∧ o.dmaVirt = decide (.memunmap ∈ cs)

/-- The pool in a device's hand is as far as the device is. -/
def Shape (w : PoolWorld) : Stage → Prop
  | remap base size n => w.heap n = some ⟨base, size, false, false, 1⟩
  | zalloc base size n => w.heap n = some ⟨base, size, true, false, 1⟩
  | insert base size n => w.heap n = some ⟨base, size, true, true, 1⟩
  | undo n cs | lose n _ cs | reap n cs => Releasing w n cs
  | got cand p => cand = none ∨ cand = some p
  | _ => True

end Stage

section
variable {w w' : PoolWorld}

theorem find_some {base size : UInt64} {p : PoolId} (h : w.find base size = some p) :
    p ∈ w.list ∧ ∃ o, w.heap p = some o := by
  refine ⟨List.mem_of_find?_eq_some h, ?_⟩
  have hm := List.find?_some h
  cases ho : w.heap p with
  | none => simp [ho] at hm
  | some o => exact ⟨o, rfl⟩

theorem find_none {base size : UInt64} (h : w.find base size = none) {q : PoolId} (hq : q ∈ w.list)
    {o : PoolObj} (ho : w.heap q = some o) : ¬(o.dmaBase = base ∧ o.dmaSize = size) := by
  have hn := List.find?_eq_none.1 h q hq
  simpa [ho, PoolObj.matches] using hn

theorem modify_eq {p : PoolId} {o : PoolObj} (ho : w.heap p = some o) (f : PoolObj → PoolObj) :
    w.modify p f = w.set p (some (f o)) := by rw [PoolWorld.modify, ho, Option.map_some]

/-- One release: the last one is `kfree`. -/
theorem Stage.Releasing.step {n : PoolId} {c : Cleanup} {cs : List Cleanup}
    (h : Stage.Releasing w n (c :: cs)) (ref : Option PoolId) :
    Effect ⟨some n, ref⟩ w ⟨if cs = [] then none else some n, ref⟩ (c.run w n) ∧
      Stage.Releasing (c.run w n) n cs := by
  obtain ⟨hsuf, hlt, h⟩ := h
  rw [if_neg (List.cons_ne_nil _ _)] at h
  obtain ⟨o, ho, hb, hv⟩ := h
  have hcases : (c = .bitmapFree ∧ cs = [.memunmap, .kfree]) ∨ (c = .memunmap ∧ cs = [.kfree]) ∨
      (c = .kfree ∧ cs = []) := by
    simpa [allCleanup, List.suffix_cons_iff] using hsuf
  have htail : cs <:+ allCleanup := (List.suffix_cons c cs).trans hsuf
  obtain ⟨rfl, rfl⟩ | ⟨rfl, rfl⟩ | ⟨rfl, rfl⟩ := hcases
  · rw [Cleanup.run, modify_eq ho]
    exact ⟨.touch _ ho, htail, hlt, by simpa using hv⟩
  · rw [Cleanup.run, modify_eq ho]
    exact ⟨.touch _ ho, htail, hlt, by simpa using hb⟩
  · exact ⟨.free ho, htail, hlt, by simp [Cleanup.run]⟩

theorem Stage.hand_undo (n : PoolId) (cs : List Cleanup) :
    (undo n cs).hand = ⟨if cs = [] then none else some n, none⟩ := by cases cs <;> rfl

theorem Stage.hand_lose (n p : PoolId) (cs : List Cleanup) :
    (lose n p cs).hand = ⟨if cs = [] then none else some n, some p⟩ := by cases cs <;> rfl

theorem Stage.hand_reap (p : PoolId) (cs : List Cleanup) :
    (reap p cs).hand = ⟨if cs = [] then none else some p, none⟩ := by cases cs <;> rfl

theorem HandsInv.lt_of_heap {hands : List Hand} (hinv : HandsInv hands w) {n : PoolId} {o : PoolObj}
    (ho : w.heap n = some o) : n < w.next :=
  hinv.lt_next (by rw [ho]; rfl)

/-- A step to some stage, and what it does to the device's hand. -/
def Stage.Next (st : Stage) (w : PoolWorld) (t' : Thread) (w' : PoolWorld) : Prop :=
  ∃ st' : Stage, t' = st'.thread ∧ Effect st.hand w st'.hand w' ∧ st'.Shape w'

section
variable {base size : UInt64} {n p : PoolId} {t' : Thread}

/-- The first search takes what it finds. -/
theorem Stage.step_look (hs : ThreadStep (look base size).thread w t' w') :
    (look base size).Next w t' w' := by
  cases hs with
  | @getCall _ _ _ r _ _ ha =>
    obtain ⟨hr, hw'⟩ := ha
    cases r with
    | none =>
      subst hw'
      exact ⟨.build base size, rfl, .quiet _ _, trivial⟩
    | some p =>
      obtain ⟨hp, o, ho⟩ := find_some hr.symm
      have hw' : w' = w.modify p PoolObj.inc := hw'
      rw [modify_eq ho] at hw'
      subst hw'
      exact ⟨.got none p, rfl, .take hp ho, .inl rfl⟩

theorem Stage.step_build (hs : ThreadStep (build base size).thread w t' w') :
    (build base size).Next w t' w' := by
  cases hs with
  | @getCall _ _ _ r _ _ ha =>
    obtain ha | ha := ha
    · obtain ⟨rfl, rfl⟩ := ha
      exact ⟨.failed, rfl, .quiet _ _, trivial⟩
    · obtain ⟨rfl, rfl⟩ := ha
      exact ⟨.remap base size w.next, rfl, .alloc _, PoolWorld.set_self _ _ _⟩

/-- An allocation for the candidate that may fail. -/
theorem Effect.grown {o : PoolObj} (ho : w.heap n = some o) {f : PoolObj → PoolObj} {r : Bool}
    (ref : Option PoolId) (ha : w' = if r = true then w.modify n f else w) :
    (r = true ∧ Effect ⟨some n, ref⟩ w ⟨some n, ref⟩ w' ∧ w'.heap n = some (f o)) ∨ (r = false ∧ w' = w) := by
  cases r with
  | true =>
    rw [if_pos rfl, modify_eq ho] at ha
    subst ha
    exact .inl ⟨rfl, .touch _ ho, PoolWorld.set_self _ _ _⟩
  | false => exact .inr ⟨rfl, ha⟩

theorem Stage.step_remap (hlt : n < w.next) (hs : ThreadStep (remap base size n).thread w t' w')
    (hsh : (remap base size n).Shape w) : (remap base size n).Next w t' w' := by
  have ho : w.heap n = _ := hsh
  cases hs with
  | getCall ha =>
    obtain h | h := Effect.grown ho none ha
    · obtain ⟨rfl, he, hheap⟩ := h
      exact ⟨.zalloc base size n, rfl, he, hheap⟩
    · obtain ⟨rfl, rfl⟩ := h
      exact ⟨.undo n [.kfree], rfl, .quiet _ _, by decide, hlt, _, ho, rfl, rfl⟩

theorem Stage.step_zalloc (hlt : n < w.next) (hs : ThreadStep (zalloc base size n).thread w t' w')
    (hsh : (zalloc base size n).Shape w) : (zalloc base size n).Next w t' w' := by
  have ho : w.heap n = _ := hsh
  cases hs with
  | getCall ha =>
    obtain h | h := Effect.grown ho none ha
    · obtain ⟨rfl, he, hheap⟩ := h
      exact ⟨.insert base size n, rfl, he, hheap⟩
    · obtain ⟨rfl, rfl⟩ := h
      exact ⟨.undo n [.memunmap, .kfree], rfl, .quiet _ _, by decide, hlt, _, ho, rfl, rfl⟩

/-- The candidate is published, unless the search under the lock now finds a
pool: then it is that pool which is taken. -/
theorem Stage.step_insert {hands : List Hand} {i : Nat} (hinv : HandsInv hands w)
    (hi : hands[i]? = some (insert base size n).hand)
    (hs : ThreadStep (insert base size n).thread w t' w') (hsh : (insert base size n).Shape w) :
    (insert base size n).Next w t' w' := by
  have ho : w.heap n = _ := hsh
  cases hs with
  | @getCall _ _ _ r _ _ ha =>
    obtain ⟨hr, hw'⟩ := ha
    cases r with
    | none =>
      subst hw'
      refine ⟨.got (some n) n, rfl, .publish ho rfl ⟨rfl, rfl⟩ fun q hq o' ho' hk => ?_, .inr rfl⟩
      exact find_none hr.symm hq ho' ⟨hk.1.symm, hk.2.symm⟩
    | some p =>
      obtain ⟨hp, o, hop⟩ := find_some hr.symm
      have hw' : w' = w.modify p PoolObj.inc := hw'
      rw [modify_eq hop] at hw'
      subst hw'
      have hne : n ≠ p := fun heq => (hinv.own_alive hi rfl).2.1 (heq ▸ hp)
      exact ⟨.lose n p allCleanup, rfl, .take hp hop, by decide, hinv.lt_of_heap ho, _,
        (PoolWorld.set_other _ hne _).trans ho, rfl, rfl⟩

theorem Stage.step_undo {cs : List Cleanup} (hs : ThreadStep (undo n cs).thread w t' w')
    (hsh : (undo n cs).Shape w) :
    (undo n cs).Next w t' w' := by
  cases cs with
  | nil =>
    cases hs with
    | failed => exact ⟨.idle, rfl, .quiet _ _, trivial⟩
  | cons c cs =>
    cases hs with
    | getCall ha =>
      have hw' : w' = c.run w n := ha
      subst hw'
      obtain ⟨he, hr⟩ := Stage.Releasing.step hsh none
      exact ⟨.undo n cs, rfl, by rw [hand_undo n cs]; exact he, hr⟩

theorem Stage.step_lose {cs : List Cleanup} (hs : ThreadStep (lose n p cs).thread w t' w')
    (hsh : (lose n p cs).Shape w) : (lose n p cs).Next w t' w' := by
  cases cs with
  | nil =>
    cases hs with
    | got => exact ⟨.held p, rfl, .quiet _ _, trivial⟩
  | cons c cs =>
    cases hs with
    | getCall ha =>
      have hw' : w' = c.run w n := ha
      subst hw'
      obtain ⟨he, hr⟩ := Stage.Releasing.step hsh (some p)
      exact ⟨.lose n p cs, rfl, by rw [hand_lose n p cs]; exact he, hr⟩

/-- A put: the last holder goes on to free the pool. -/
theorem Stage.step_drop {hands : List Hand} {i : Nat} (hinv : HandsInv hands w)
    (hi : hands[i]? = some (drop p).hand) (hs : ThreadStep (drop p).thread w t' w') :
    (drop p).Next w t' w' := by
  have hp := hinv.ref_listed hi rfl
  obtain ⟨o, ho, -⟩ := hinv.listed_alive hp
  obtain ⟨hb, hv⟩ := hinv.whole p hp o ho
  cases hs with
  | @putCall _ _ _ r _ _ ha =>
    obtain ⟨hr, hw'⟩ := ha
    rw [modify_eq ho] at hw'
    cases r with
    | true =>
      rw [if_pos rfl] at hw'
      subst hw'
      refine ⟨.reap p allCleanup, rfl, .last ho (by simpa [ho] using hr), by decide, hinv.lt_of_heap ho, ?_⟩
      exact ⟨o.dec, PoolWorld.set_self _ _ _, hb, hv⟩
    | false =>
      rw [if_neg (by decide)] at hw'
      subst hw'
      exact ⟨.gone p, rfl, .drop ho (by simpa [ho] using hr), trivial⟩

theorem Stage.step_reap {cs : List Cleanup} (hs : ThreadStep (reap p cs).thread w t' w')
    (hsh : (reap p cs).Shape w) :
    (reap p cs).Next w t' w' := by
  cases cs with
  | nil =>
    cases hs with
    | done => exact ⟨.idle, rfl, .quiet _ _, trivial⟩
  | cons c cs =>
    cases hs with
    | putCall ha =>
      have hw' : w' = c.run w p := ha
      subst hw'
      obtain ⟨he, hr⟩ := Stage.Releasing.step hsh none
      exact ⟨.reap p cs, rfl, by rw [hand_reap p cs]; exact he, hr⟩

end

/-- A step of the code is an effect on the device's hand. -/
theorem Stage.step {hands : List Hand} {i : Nat} {st : Stage} {t' : Thread}
    (hinv : HandsInv hands w) (hi : hands[i]? = some st.hand) (hs : ThreadStep st.thread w t' w')
    (hsh : st.Shape w) : st.Next w t' w' := by
  cases st with
  | idle =>
    cases hs with
    | get base size => exact ⟨.look base size, rfl, .quiet _ _, trivial⟩
  | look base size => exact step_look hs
  | build base size => exact step_build hs
  | remap base size n => exact step_remap (hinv.lt_of_heap hsh) hs hsh
  | zalloc base size n => exact step_zalloc (hinv.lt_of_heap hsh) hs hsh
  | insert base size n => exact step_insert hinv hi hs hsh
  | undo n cs => exact step_undo hs hsh
  | lose n p cs => exact step_lose hs hsh
  | got cand p =>
    cases hs with
    | got => exact ⟨.held p, rfl, .quiet _ _, trivial⟩
  | failed =>
    cases hs with
    | failed => exact ⟨.idle, rfl, .quiet _ _, trivial⟩
  | held p =>
    cases hs with
    | put => exact ⟨.drop p, rfl, .quiet _ _, trivial⟩
  | drop p => exact step_drop hinv hi hs
  | reap p cs => exact step_reap hs hsh
  | gone p =>
    cases hs with
    | done => exact ⟨.idle, rfl, .quiet _ _, trivial⟩

end

/-! ## All devices -/

/-- The pool `Shape` speaks of. -/
def Stage.pool : Stage → Option PoolId
  | remap _ _ n | zalloc _ _ n | insert _ _ n | undo n _ | lose n _ _ | reap n _ => some n
  | _ => none

structure StagesInv (s : PoolsState) (sts : List Stage) : Prop where
  threads : s.threads = sts.map Stage.thread
  hands : HandsInv (sts.map Stage.hand) s.world
  shape : ∀ (i : Nat) (st : Stage), sts[i]? = some st → st.Shape s.world

section
variable {w w' : PoolWorld}

theorem Stage.Shape.frame {st : Stage} (h : st.Shape w) (hn : w.next ≤ w'.next)
    (hp : ∀ n, st.pool = some n → w'.heap n = w.heap n) : st.Shape w' := by
  have hr : ∀ {n : PoolId} {cs : List Cleanup}, Stage.Releasing w n cs → w'.heap n = w.heap n →
      Stage.Releasing w' n cs := by
    rintro n cs ⟨hsuf, hlt, hcs⟩ he
    refine ⟨hsuf, Nat.lt_of_lt_of_le hlt hn, ?_⟩
    rw [he]
    exact hcs
  cases st with
  | remap base size n | zalloc base size n | insert base size n => exact (hp n rfl).trans h
  | undo n cs | lose n p cs | reap n cs => exact hr h (hp n rfl)
  | got cand p => exact h
  | _ => trivial

/-- A pool is in one hand at a time. -/
theorem HandsInv.own_unique {hs : List Hand} (hinv : HandsInv hs w) {i j : Nat} {h h' : Hand}
    (hi : hs[i]? = some h) (hj : hs[j]? = some h') (hne : i ≠ j) {n : PoolId} (ho : h.own = some n) :
    h'.own ≠ some n := by
  intro ho'
  have h1 := (hinv.own_alive hi ho).2.2
  have h2 := owners_set hi ⟨none, none⟩ n
  have hj' : (hs.set i ⟨none, none⟩)[j]? = some h' := by rw [List.getElem?_set_ne hne]; exact hj
  have h3 := one_own_le hj' n
  rw [ho, one_self, one_none, h1] at h2
  rw [ho', one_self] at h3
  omega

/-- What another device may do leaves the pool a stage speaks of alone. -/
theorem StagesInv.apart {s : PoolsState} {sts : List Stage} (hinv : StagesInv s sts) {i j : Nat}
    {st st' : Stage} (hi : sts[i]? = some st) (hj : sts[j]? = some st') (hne : i ≠ j) {n : PoolId}
    (hn : st'.pool = some n) :
    st.hand.own ≠ some n ∧ n ∉ s.world.list ∧ n < s.world.next := by
  have hi' : (sts.map Stage.hand)[i]? = some st.hand := by rw [List.getElem?_map, hi]; rfl
  have hj' : (sts.map Stage.hand)[j]? = some st'.hand := by rw [List.getElem?_map, hj]; rfl
  -- in the hand of the device at `j`, or freed by it
  have hown : st'.hand.own = some n →
      st.hand.own ≠ some n ∧ n ∉ s.world.list ∧ n < s.world.next := fun ho =>
    have ⟨ha, hl, _⟩ := hinv.hands.own_alive hj' ho
    ⟨hinv.hands.own_unique hj' hi' (Ne.symm hne) ho, hl, hinv.hands.lt_next ha⟩
  have hfree : Stage.Releasing s.world n [] →
      st.hand.own ≠ some n ∧ n ∉ s.world.list ∧ n < s.world.next := by
    rintro ⟨-, hlt, hnone⟩
    rw [if_pos rfl] at hnone
    refine ⟨fun ho => ?_, fun hl => ?_, hlt⟩
    · have := (hinv.hands.own_alive hi' ho).1
      rw [hnone] at this
      cases this
    · obtain ⟨o, ho, -⟩ := hinv.hands.listed_alive hl
      rw [hnone] at ho
      cases ho
  have hsh := hinv.shape j st' hj
  cases st' with
  | remap | zalloc | insert => exact hown hn
  | undo m cs | lose m p cs | reap m cs =>
    cases hn
    cases cs with
    | nil => exact hfree hsh
    | cons c cs => exact hown rfl
  | _ => cases hn

theorem StagesInv.step {n : Nat} {s s' : PoolsState} {sts : List Stage} (hinv : StagesInv s sts)
    {i : Nat} (hs : (poolsLts n).step s i s') : ∃ st st' : Stage, sts[i]? = some st ∧
      ThreadStep st.thread s.world st'.thread s'.world ∧ Effect st.hand s.world st'.hand s'.world ∧
      StagesInv s' (sts.set i st') := by
  obtain ⟨t, t', ht, hs, ht'⟩ := hs
  rw [hinv.threads, List.getElem?_map, Option.map_eq_some_iff] at ht
  obtain ⟨st, hi, rfl⟩ := ht
  have hi' : (sts.map Stage.hand)[i]? = some st.hand := by rw [List.getElem?_map, hi]; rfl
  obtain ⟨st', rfl, he, hsh⟩ := Stage.step hinv.hands hi' hs (hinv.shape i st hi)
  refine ⟨st, st', hi, hs, he, ?_, ?_, fun j x hj => ?_⟩
  · rw [ht', hinv.threads, List.map_set]
  · rw [List.map_set]
    exact he.inv hinv.hands hi'
  · by_cases hji : j = i
    · subst hji
      rw [List.getElem?_set_self (List.getElem?_eq_some_iff.1 hi).1, Option.some.injEq] at hj
      exact hj ▸ hsh
    · rw [List.getElem?_set_ne (Ne.symm hji)] at hj
      refine (hinv.shape j x hj).frame he.next_le fun m hm => ?_
      obtain ⟨hown, hl, hlt⟩ := hinv.apart hi hj (Ne.symm hji) hm
      exact he.frame hinv.hands hi' hown hl hlt

theorem StagesInv.init (n : Nat) :
    StagesInv ⟨List.replicate n .idle, ⟨fun _ => none, 0, []⟩⟩ (List.replicate n .idle) := by
  refine ⟨by rw [List.map_replicate]; rfl, ⟨fun p => ?_, fun p => ?_, nofun, nofun, nofun, fun _ _ => rfl⟩,
    fun i st hi => ?_⟩
  · simp [owners, alive, Stage.hand, List.countP_replicate]
  · simp [handHolders, listedRefs, Stage.hand, List.countP_replicate]
  · obtain ⟨-, rfl⟩ : _ ∧ Stage.idle = st := by simpa [List.getElem?_replicate] using hi
    trivial

theorem stages_inductive (n : Nat) : (poolsLts n).Inductive fun s => ∃ sts, StagesInv s sts where
  init := by
    intro s he
    subst he
    exact ⟨_, StagesInv.init n⟩
  step := by
    rintro s i s' ⟨sts, hinv⟩ hs
    obtain ⟨st, st', -, -, -, h⟩ := hinv.step hs
    exact ⟨_, h⟩

/-! ## What a hand looks like from outside -/

theorem returns_release (n : PoolId) (r : Option PoolId) (cs : List Cleanup) :
    returns (release n r cs) = r := by
  induction cs with
  | nil => rfl
  | cons c cs ih => exact ih

theorem Stage.thread_ref (st : Stage) : st.thread.ref = st.hand.ref := by
  cases st with
  | undo n cs => rw [hand_undo]; exact returns_release n none cs
  | lose n p cs => rw [hand_lose]; exact returns_release n (some p) cs
  | reap p cs => cases cs <;> rfl
  | _ => rfl

theorem Stage.thread_worksOn (st : Stage) (p : PoolId) :
    st.thread.WorksOn p ↔ st.hand.own = some p := by
  cases st with
  | undo n cs => cases cs <;> simp [thread, hand, release, Thread.WorksOn]
  | lose n q cs => cases cs <;> simp [thread, hand, release, Thread.WorksOn]
  | reap q cs => cases cs <;> simp [thread, hand, release, Thread.WorksOn]
  | _ => simp [thread, hand, axiMmioPoolGet, buildPool, remapPool, zallocPool, insertPool, axiMmioPoolPut,
      Thread.WorksOn]

theorem StagesInv.holders {s : PoolsState} {sts : List Stage} (hinv : StagesInv s sts) (p : PoolId) :
    s.holders p = handHolders (sts.map Stage.hand) p := by
  unfold PoolsState.holders handHolders
  rw [hinv.threads, List.countP_map, List.countP_map]
  exact List.countP_congr fun st _ => by rw [Function.comp_apply, Function.comp_apply, Stage.thread_ref]

theorem StagesInv.worksOn {s : PoolsState} {sts : List Stage} (hinv : StagesInv s sts) (p : PoolId) :
    (∃ t ∈ s.threads, t.WorksOn p) ↔ 0 < owners (sts.map Stage.hand) p := by
  unfold owners
  rw [hinv.threads, List.countP_pos_iff]
  simp [Stage.thread_worksOn]

end

/-- What holds at every point of every run. -/
structure PoolsOk (s : PoolsState) : Prop where
  nodup : s.world.list.Nodup
  onePerKey : ∀ p ∈ s.world.list, ∀ q ∈ s.world.list, ∀ o o', s.world.heap p = some o →
    s.world.heap q = some o' → SameKey o o' → p = q
  held : ∀ p, 0 < s.holders p → p ∈ s.world.list ∧ s.Live p
  refs : ∀ p ∈ s.world.list, ∃ o, s.world.heap p = some o ∧ o.refs = s.holders p ∧ 0 < o.refs
  /-- A pool lives as long as it has holders, or is inside the one call that builds it or
  that was the last to drop it. -/
  live : ∀ p, s.Live p ↔ 0 < s.holders p ∨ ∃ t ∈ s.threads, t.WorksOn p
  /-- A get that returns another pool than its candidate has freed the candidate. -/
  lost : ∀ n r, .getting (some n) (.ret r) ∈ s.threads → r = some n ∨ ¬ s.Live n

/-- What a step of device `i` may do to a pool. -/
structure PoolStepOk (s : PoolsState) (i : Nat) (s' : PoolsState) : Prop where
  /-- Pools without holders die, and by the call that has them. -/
  freed : ∀ p, s.Live p → ¬ s'.Live p → s.holders p = 0 ∧ ∃ t, s.threads[i]? = some t ∧ t.WorksOn p
  /-- A put under the lock: the last holder goes on to free the pool, any other returns. -/
  put : ∀ p k, s.threads[i]? = some (.putting p (.call (.putLocked p) k)) →
    if s.holders p = 1 then
      p ∉ s'.world.list ∧ s'.threads[i]? = some (.putting p (release p () [.bitmapFree, .memunmap, .kfree]))
    else p ∈ s'.world.list ∧ s'.Live p ∧ s'.threads[i]? = some (.putting p (.ret ()))

section
variable {s s' : PoolsState} {sts : List Stage}

theorem StagesInv.listed_iff (hinv : StagesInv s sts) (p : PoolId) :
    p ∈ s.world.list ↔ 0 < s.holders p := by
  rw [hinv.holders, hinv.hands.count]
  refine ⟨hinv.hands.pos p, fun h => ?_⟩
  unfold listedRefs at h
  split at h
  · assumption
  · cases h

theorem StagesInv.live_iff (hinv : StagesInv s sts) (p : PoolId) :
    s.Live p ↔ 0 < s.holders p ∨ ∃ t ∈ s.threads, t.WorksOn p := by
  have hb := hinv.hands.balance p
  rw [← hinv.listed_iff, hinv.worksOn, ← List.count_pos_iff]
  unfold alive at hb
  unfold PoolsState.Live
  split at hb
  · exact ⟨fun _ => by omega, fun _ => ‹_›⟩
  · exact ⟨fun h => absurd h ‹_›, fun h => by omega⟩

theorem StagesInv.lost (hinv : StagesInv s sts) {n : PoolId} {r : Option PoolId}
    (ht : .getting (some n) (.ret r) ∈ s.threads) : r = some n ∨ ¬ s.Live n := by
  rw [hinv.threads, List.mem_map] at ht
  obtain ⟨st, hst, ht⟩ := ht
  obtain ⟨i, hi⟩ := List.getElem?_of_mem hst
  have hsh := hinv.shape i st hi
  have hfreed : Stage.Releasing s.world n [] → ¬ s.Live n := by
    rintro ⟨-, -, hnone⟩ hlive
    rw [if_pos rfl] at hnone
    rw [PoolsState.Live, hnone] at hlive
    cases hlive
  cases st with
  | undo m cs | lose m p cs =>
    cases cs with
    | nil =>
      cases ht
      exact .inr (hfreed hsh)
    | cons c cs => cases ht
  | got cand p =>
    cases ht
    rcases hsh with h | h
    · cases h
    · exact .inl h.symm
  | _ => cases ht

theorem StagesInv.ok (hinv : StagesInv s sts) : PoolsOk s where
  nodup := by
    rw [List.nodup_iff_count_le_one]
    intro p
    have hb := hinv.hands.balance p
    have : alive s.world p ≤ 1 := by unfold alive; split <;> omega
    omega
  onePerKey := hinv.hands.keys
  held p hp := ⟨(hinv.listed_iff p).2 hp, (hinv.live_iff p).2 (.inl hp)⟩
  refs p hp := by
    obtain ⟨o, ho, -⟩ := hinv.hands.listed_alive hp
    have hc := hinv.hands.count p
    have hpos := hinv.hands.pos p hp
    rw [listedRefs, if_pos hp, ho, Option.elim_some] at hc hpos
    exact ⟨o, ho, by rw [hinv.holders, hc], hpos⟩
  live := hinv.live_iff
  lost _ _ := hinv.lost

/-- A step only frees the pool in its hand. -/
theorem Effect.died {h h' : Hand} {w w' : PoolWorld} (he : Effect h w h' w') {p : PoolId}
    (ha : (w.heap p).isSome = true) (hd : (w'.heap p).isSome ≠ true) : h.own = some p := by
  have hkeep : ∀ {q : PoolId} {o : PoolObj}, (w.set q (some o)).heap p = w'.heap p → False := by
    intro q o hq
    rw [← hq] at hd
    by_cases hpq : p = q
    · rw [hpq, PoolWorld.set_self] at hd
      exact hd rfl
    · rw [PoolWorld.set_other _ hpq] at hd
      exact hd ha
  cases he with
  | quiet => exact absurd ha hd
  | publish ho hone hfull hkey => exact absurd ha hd
  | touch x ho => exact (hkeep rfl).elim
  | alloc x => exact (hkeep (q := w.next) (o := x) rfl).elim
  | take hq ho => exact (hkeep rfl).elim
  | drop ho hne => exact (hkeep rfl).elim
  | @last _ q o ho hone => exact (hkeep (q := q) (o := o.dec) rfl).elim
  | @free n ref _ o ho =>
    by_cases hpn : p = n
    · rw [hpn]
    · rw [PoolWorld.set_other _ hpn] at hd
      exact absurd ha hd

theorem StagesInv.holders_of_own (hinv : StagesInv s sts) {i : Nat} {st : Stage}
    (hi : sts[i]? = some st) {p : PoolId} (ho : st.hand.own = some p) : s.holders p = 0 := by
  have hi' : (sts.map Stage.hand)[i]? = some st.hand := by rw [List.getElem?_map, hi]; rfl
  have hn := (hinv.hands.own_alive hi' ho).2.1
  rw [hinv.listed_iff] at hn
  omega

/-- The count under the lock decides who frees the pool. -/
theorem StagesInv.put (hinv : StagesInv s sts) {n i : Nat} (hs : (poolsLts n).step s i s')
    {p : PoolId} {k : Bool → PoolM Unit}
    (ht : s.threads[i]? = some (.putting p (.call (.putLocked p) k))) :
    if s.holders p = 1 then
      p ∉ s'.world.list ∧ s'.threads[i]? = some (.putting p (release p () allCleanup))
    else p ∈ s'.world.list ∧ s'.Live p ∧ s'.threads[i]? = some (.putting p (.ret ())) := by
  obtain ⟨t, t', hti, hstep, hset⟩ := hs
  have hat : s'.threads[i]? = some t' := by
    rw [hset, List.getElem?_set_self (List.getElem?_eq_some_iff.1 hti).1]
  rw [ht, Option.some.injEq] at hti
  subst hti
  rw [hinv.threads, List.getElem?_map, Option.map_eq_some_iff] at ht
  obtain ⟨st, hi, ht⟩ := ht
  have hst : st = .drop p := by
    cases st with
    | drop q => cases ht; rfl
    | reap q cs => cases cs <;> cases ht
    | _ => cases ht
  subst hst
  cases ht
  have hi' : (sts.map Stage.hand)[i]? = some (Stage.drop p).hand := by rw [List.getElem?_map, hi]; rfl
  have hp := hinv.hands.ref_listed hi' rfl
  obtain ⟨o, ho, hrefs, -⟩ := hinv.ok.refs p hp
  rw [hat, ← hrefs]
  cases hstep with
  | @putCall _ _ _ r _ _ ha =>
    obtain ⟨hr, hw'⟩ := ha
    rw [ho, Option.map_some] at hr
    rw [modify_eq ho] at hw'
    cases r with
    | true =>
      rw [if_pos rfl] at hw'
      rw [if_pos (by simpa using hr), hw']
      refine ⟨?_, rfl⟩
      show p ∉ s.world.list.erase p
      exact fun h => ((List.Nodup.mem_erase_iff hinv.ok.nodup).1 h).1 rfl
    | false =>
      rw [if_neg (by decide)] at hw'
      rw [if_neg (by simpa using hr), PoolsState.Live, hw', PoolWorld.set_self]
      exact ⟨hp, rfl, rfl⟩

theorem StagesInv.step_ok (hinv : StagesInv s sts) {n i : Nat} (hs : (poolsLts n).step s i s') :
    PoolStepOk s i s' where
  freed p ha hd := by
    obtain ⟨st, st', hi, hstep, he, hinv'⟩ := hinv.step hs
    have ho := he.died ha hd
    refine ⟨hinv.holders_of_own hi ho, st.thread, ?_, (Stage.thread_worksOn st p).2 ho⟩
    rw [hinv.threads, List.getElem?_map, hi]
    rfl
  put p k ht := hinv.put hs ht

/-- **Lifetime of a shared pool.** In every reachable state, and at every step from it. -/
theorem pool_lifetime (n : Nat) (s : PoolsState) (hr : (poolsLts n).Reachable s) :
    PoolsOk s ∧ ∀ i s', (poolsLts n).step s i s' → PoolStepOk s i s' := by
  obtain ⟨sts, hinv⟩ := (stages_inductive n).reachable s hr
  exact ⟨hinv.ok, fun i s' hs => hinv.step_ok hs⟩

theorem pool_tail {n i : Nat} {ts : List Thread} {t t' : Thread} {w w' : PoolWorld}
    (hr : (poolsLts n).Reachable ⟨ts, w⟩) (ht : ts[i]? = some t) (h : ThreadStep t w t' w') :
    (poolsLts n).Reachable ⟨ts.set i t', w'⟩ := hr.tail ⟨t, t', ht, h, rfl⟩

/-- Two devices look before either inserts: both end with pool 0, pool 1 is freed. -/
theorem pool_lifetime_race : ∃ s, (poolsLts 2).Reachable s ∧ s.threads = [.holding 0, .holding 0] ∧
    s.world.list = [0] ∧ s.holders 0 = 2 ∧ s.world.next = 2 ∧ ¬ s.Live 1 ∧
    PoolsOk s ∧ ∀ i s', (poolsLts 2).step s i s' → PoolStepOk s i s' := by
  have h : (poolsLts 2).Reachable ⟨[.idle, .idle], ⟨fun _ => none, 0, []⟩⟩ := ⟨_, [], rfl, .nil _⟩
  have h := pool_tail (i := 0) h rfl (.get 0 0x1000 _)
  have h := pool_tail (i := 1) h rfl (.get 0 0x1000 _)
  -- both find nothing and build
  have h := pool_tail (i := 0) h rfl (.getCall (r := none) ⟨rfl, rfl⟩)
  have h := pool_tail (i := 1) h rfl (.getCall (r := none) ⟨rfl, rfl⟩)
  have h := pool_tail (i := 0) h rfl (.getCall (r := some 0) (by exact .inr ⟨rfl, rfl⟩))
  have h := pool_tail (i := 1) h rfl (.getCall (r := some 1) (by exact .inr ⟨rfl, rfl⟩))
  have h := pool_tail (i := 0) h rfl (.getCall (r := true) (by exact rfl))
  have h := pool_tail (i := 1) h rfl (.getCall (r := true) (by exact rfl))
  have h := pool_tail (i := 0) h rfl (.getCall (r := true) (by exact rfl))
  have h := pool_tail (i := 1) h rfl (.getCall (r := true) (by exact rfl))
  -- device 0 inserts; device 1 finds that pool and frees its own
  have h := pool_tail (i := 0) h rfl (.getCall (r := none) ⟨rfl, rfl⟩)
  have h := pool_tail (i := 1) h rfl (.getCall (r := some 0) ⟨rfl, rfl⟩)
  have h := pool_tail (i := 1) h rfl (.getCall (r := ()) (by exact rfl))
  have h := pool_tail (i := 1) h rfl (.getCall (r := ()) (by exact rfl))
  have h := pool_tail (i := 1) h rfl (.getCall (r := ()) (by exact rfl))
  have h := pool_tail (i := 0) h rfl (.got _ 0 _)
  have h := pool_tail (i := 1) h rfl (.got _ 0 _)
  exact ⟨_, h, rfl, rfl, rfl, rfl, Bool.false_ne_true, pool_lifetime 2 _ h⟩

end

end AcsVirt.L3
