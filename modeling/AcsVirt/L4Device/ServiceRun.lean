import AcsVirt.L4Device.ChainEffects
import AcsVirt.L4Device.InOrder

/-!
# How a run of the service loop is put together

Whatever the fabric answers, the calls of a notification are whole rounds, one
for each chain that was served, and then a part of a round. A round (`Served`)
is the look at the available ring that found the chain, all the calls of the
chain handler, and the four calls of a publication, the last of which stores
the new used index (`publish`). What comes after the rounds (`LoopTail`) has
not come to that store, or the store was refused. `serviceLoop_upto` says this for
every point of a run and for its return at once.
-/
namespace AcsVirt.L4

open L1 L2 L3

variable {P : Type}

/-! ## Publishing -/

/-- The calls of a publication that succeeds; `raw` is the used index as read. -/
def publish (q : VirtioQueue) (head : UInt16) (len : UInt32) (raw : Bytes) : List FabricEvent :=
  let usedIdx := virtioLoadLe16 raw
  [⟨.dmaReadInto (q.used + 2) 2, some raw⟩,
    ⟨.dmaWrite (usedElem q usedIdx) (virtioStoreLe32 head.toUInt32), true⟩,
    ⟨.dmaWrite (usedElem q usedIdx + 4) (virtioStoreLe32 len), true⟩,
    ⟨.dmaWrite (q.used + 2) (virtioStoreLe16 (usedIdx + 1)), true⟩]

/-- The calls of a publication, up to the store of the index or with that store
refused. -/
inductive Preparing (q : VirtioQueue) : FabricEvent → Prop
  | index (r : Option Bytes) : Preparing q ⟨.dmaReadInto (q.used + 2) 2, r⟩
  | head (usedIdx head : UInt16) (ok : Bool) :
      Preparing q ⟨.dmaWrite (usedElem q usedIdx) (virtioStoreLe32 head.toUInt32), ok⟩
  | len (usedIdx : UInt16) (len : UInt32) (ok : Bool) :
      Preparing q ⟨.dmaWrite (usedElem q usedIdx + 4) (virtioStoreLe32 len), ok⟩
  | refused (idx : UInt16) : Preparing q ⟨.dmaWrite (q.used + 2) (virtioStoreLe16 idx), false⟩

/-- A store, and code that goes on if it succeeds. -/
theorem storeThen_upto {gpa : UInt64} {data : Bytes} {k : FabricM Bool} {es : List FabricEvent}
    {o : Option Bool} (h : Upto (do if !(← dmaWrite gpa data) then return false else k) es o) :
    (es = [] ∧ o = none) ∨ (es = [⟨.dmaWrite gpa data, false⟩] ∧ (o = none ∨ o = some false)) ∨
      ∃ es', es = ⟨.dmaWrite gpa data, true⟩ :: es' ∧ Upto k es' o := by
  rcases h.bind_inv with ⟨ho, hw⟩ | ⟨ok, es₁, es, rfl, h1, hk⟩
  · rcases hw.perform_inv with rfl | ⟨ok, rfl⟩
    · exact .inl ⟨rfl, ho⟩
    · cases ok with
      | false => exact .inr (.inl ⟨rfl, .inl ho⟩)
      | true =>
        subst ho
        exact .inr (.inr ⟨[], rfl, .start k⟩)
  · have he := h1.perform_inv
    subst he
    cases ok with
    | false =>
      obtain ⟨rfl, ho⟩ := hk.ret_inv
      exact .inr (.inl ⟨rfl, ho⟩)
    | true => exact .inr (.inr ⟨es, rfl, hk⟩)

theorem dmaWrite_upto {gpa : UInt64} {data : Bytes} {es : List FabricEvent} {o : Option Bool}
    (h : Upto (dmaWrite gpa data) es o) :
    (o = none ∧ es = []) ∨ ∃ ok : Bool, es = [⟨.dmaWrite gpa data, ok⟩] ∧ (o = none ∨ o = some ok) := by
  cases o with
  | none =>
    rcases Begins.perform_inv h with h | ⟨ok, h⟩
    · exact .inl ⟨rfl, h⟩
    · exact .inr ⟨ok, h, .inl rfl⟩
  | some ok => exact .inr ⟨ok, Emits.perform_inv h, .inr rfl⟩

theorem fabricDmaReadU16_begins {gpa : UInt64} {es : List FabricEvent}
    (h : Begins (fabricDmaReadU16 gpa) es) :
    ∀ e ∈ es, ∃ r, e = ⟨.dmaReadInto gpa 2, r⟩ := by
  rcases h.bind_inv with h | ⟨r, es₁, es₂, rfl, h1, h2⟩
  · rcases h.perform_inv with rfl | ⟨r, rfl⟩
    · exact fun _ he => absurd he List.not_mem_nil
    · exact fun e he => ⟨r, List.mem_singleton.1 he⟩
  · have he := h1.perform_inv
    subst he
    have hnil : es₂ = [] := by cases r <;> exact h2.ret_inv
    subst hnil
    exact fun e he => ⟨r, List.mem_singleton.1 he⟩

theorem fabricDmaReadU16_emits {gpa : UInt64} {r : Option UInt16} {es : List FabricEvent}
    (h : Emits (fabricDmaReadU16 gpa) es (.ok r)) :
    ∃ raw : Option Bytes, es = [⟨.dmaReadInto gpa 2, raw⟩] ∧ r = raw.map virtioLoadLe16 := by
  obtain ⟨raw, es₁, es₂, rfl, h1, h2⟩ := h.bind_inv
  have he := h1.perform_inv
  subst he
  cases raw with
  | none =>
    obtain ⟨rfl, rfl⟩ := h2.ret_inv
    exact ⟨none, rfl, rfl⟩
  | some raw =>
    obtain ⟨rfl, rfl⟩ := h2.ret_inv
    exact ⟨some raw, rfl, rfl⟩

/-- Every way a publication can go: through, or short of its last store. -/
theorem virtioAddUsed_upto {q : VirtioQueue} {head : UInt16} {len : UInt32} {es : List FabricEvent}
    {o : Option Bool} (h : Upto (virtioAddUsed q head len) es o) :
    (∃ raw, es = publish q head len raw ∧ (o = none ∨ o = some true)) ∨
      ((∀ e ∈ es, Preparing q e) ∧ (o = none ∨ o = some false)) := by
  rcases h.bind_inv with ⟨ho, h⟩ | ⟨r, es₁, es, rfl, h1, h⟩
  · refine .inr ⟨fun e he => ?_, .inl ho⟩
    obtain ⟨r, rfl⟩ := fabricDmaReadU16_begins h e he
    exact .index r
  obtain ⟨raw, rfl, rfl⟩ := fabricDmaReadU16_emits h1
  have hread := Preparing.index (q := q) raw
  cases raw with
  | none =>
    obtain ⟨rfl, ho⟩ := h.ret_inv
    exact .inr ⟨fun e he => by rw [List.mem_singleton.1 he]; exact hread, ho⟩
  | some raw =>
    dsimp only [Option.map_some] at h
    split at h
    · obtain ⟨rfl, ho⟩ := h.fault_inv
      exact .inr ⟨fun e he => by rw [List.mem_singleton.1 he]; exact hread, .inl ho⟩
    have hhead := Preparing.head (q := q) (virtioLoadLe16 raw) head
    have hlen := Preparing.len (q := q) (virtioLoadLe16 raw) len
    rcases storeThen_upto h with ⟨rfl, ho⟩ | ⟨rfl, ho⟩ | ⟨rest, rfl, hk⟩
    · exact .inr ⟨by simpa using hread, .inl ho⟩
    · exact .inr ⟨by simpa using ⟨hread, hhead false⟩, ho⟩
    rcases storeThen_upto hk with ⟨rfl, ho⟩ | ⟨rfl, ho⟩ | ⟨rest, rfl, hlast⟩
    · exact .inr ⟨by simpa using ⟨hread, hhead true⟩, .inl ho⟩
    · exact .inr ⟨by simpa using ⟨hread, hhead true, hlen false⟩, ho⟩
    rcases dmaWrite_upto hlast with ⟨ho, rfl⟩ | ⟨ok, rfl, ho⟩
    · exact .inr ⟨by simpa using ⟨hread, hhead true, hlen true⟩, .inl ho⟩
    cases ok with
    | false =>
      have hidx := Preparing.refused (q := q) (virtioLoadLe16 raw + 1)
      exact .inr ⟨by simpa using ⟨hread, hhead true, hlen true, hidx⟩, ho⟩
    | true => exact .inl ⟨raw, rfl, ho⟩

/-! ## Rounds -/

section
variable (i : Nat) (process : Device P → UInt16 → FabricM (Device P × Option UInt32))

/-- A chain is found. -/
def Found (d : Device P) (polls : List FabricEvent) (head : UInt16) : Prop :=
  Emits (pollAvail (d.queue i) 20) polls (.ok (some (some head)))

/-- A chain that was served: the device before and after its handler, the calls
of the polls and of the handler, and the used index the publication read. -/
structure Served (P : Type) where
  dev : Device P
  polls : List FabricEvent
  head : UInt16
  work : List FabricEvent
  after : Device P
  usedLen : UInt32
  raw : Bytes

def Served.events (s : Served P) : List FabricEvent :=
  s.polls ++ (s.work ++ publish (s.after.queue i) s.head s.usedLen s.raw)

/-- The chains a run serves one after the other, from a device to a device. -/
inductive Rounds : Device P → List (Served P) → Device P → Prop
  | nil (d : Device P) : Rounds d [] d
  | cons {s : Served P} {ss : List (Served P)} {d : Device P} : Found i s.dev s.polls s.head →
      Emits (process s.dev s.head) s.work (.ok (s.after, some s.usedLen)) → Rounds (s.after.advance i) ss d →
      Rounds s.dev (s :: ss) d

/-- What comes after the last chain that was served; the device if the loop
returned there. -/
inductive LoopTail (d : Device P) : List FabricEvent → Option (Device P) → Prop
  | polling {es : List FabricEvent} : Begins (pollAvail (d.queue i) 20) es → LoopTail d es none
  | idle {es : List FabricEvent} {r : Option (Option UInt16)} : Emits (pollAvail (d.queue i) 20) es (.ok r) →
      LoopTail d es (some d)
  | working {polls work : List FabricEvent} {head : UInt16} : Found i d polls head →
      Begins (process d head) work → LoopTail d (polls ++ work) none
  | refused {polls work : List FabricEvent} {head : UInt16} {d' : Device P} : Found i d polls head →
      Emits (process d head) work (.ok (d', none)) → LoopTail d (polls ++ work) (some d')
  | unpublished {polls work pub : List FabricEvent} {head : UInt16} {d' : Device P} {usedLen : UInt32}
      {o : Option (Device P)} : Found i d polls head → Emits (process d head) work (.ok (d', some usedLen)) →
      (∀ e ∈ pub, Preparing (d'.queue i) e) → (∀ r, o = some r → r = d') → LoopTail d (polls ++ (work ++ pub)) o

variable {i process}

theorem LoopTail.none {d : Device P} {es : List FabricEvent} {o : Option (Device P)}
    (h : LoopTail i process d es o) :
    LoopTail i process d es none := by
  cases h with
  | polling h => exact .polling h
  | idle h => exact .polling h.begins
  | working hf h => exact .working hf h
  | refused hf h => exact .working hf h.begins
  | unpublished hf h hp _ => exact .unpublished hf h hp fun r hr => by cases hr

/-- As far as the loop has come, it may be stopped. -/
theorem LoopTail.upto {d d' : Device P} {es : List FabricEvent} {α : Type}
    {o : Option (Device P × α)} {r : α} (h : LoopTail i process d es (some d'))
    (ho : o = Option.none ∨ o = some (d', r)) :
    LoopTail i process d es (o.map Prod.fst) := by
  rcases ho with rfl | rfl
  · exact h.none
  · exact h

variable (i process) in
/-- A run of the loop: whole rounds, and a part of one. -/
def LoopRun (d : Device P) (es : List FabricEvent) (o : Option (Device P)) : Prop :=
  ∃ ss d₁ tail, Rounds i process d ss d₁ ∧ es = ss.flatMap (Served.events i) ++ tail ∧ LoopTail i process d₁ tail o

theorem LoopRun.part {d : Device P} {es : List FabricEvent} {o : Option (Device P)}
    (h : LoopTail i process d es o) :
    LoopRun i process d es o := ⟨[], d, es, .nil d, rfl, h⟩

theorem LoopRun.round {d d' : Device P} {polls work es : List FabricEvent} {head : UInt16}
    {usedLen : UInt32} {o : Option (Device P)} (hpoll : Found i d polls head)
    (hwork : Emits (process d head) work (.ok (d', some usedLen))) (raw : Bytes)
    (h : LoopRun i process (d'.advance i) es o) :
    LoopRun i process d (polls ++ (work ++ (publish (d'.queue i) head usedLen raw ++ es))) o := by
  obtain ⟨ss, d₁, tail, hserves, rfl, htail⟩ := h
  refine ⟨⟨d, polls, head, work, d', usedLen, raw⟩ :: ss, d₁, tail,
    Rounds.cons (s := ⟨d, polls, head, work, d', usedLen, raw⟩) hpoll hwork hserves, ?_, htail⟩
  simp [Served.events]

theorem serviceLoop_upto (fuel : Nat) {d : Device P} {usedAny : Bool} {es : List FabricEvent}
    {o : Option (Device P × Option Bool)} (h : Upto (serviceLoop i process fuel d usedAny) es o) :
    LoopRun i process d es (o.map Prod.fst) := by
  induction fuel generalizing d usedAny es with
  | zero =>
    obtain ⟨rfl, rfl⟩ := h.fault_inv
    exact .part (.polling (.start _))
  | succ fuel ih =>
    rcases h.bind_inv with ⟨rfl, hpoll⟩ | ⟨r, polls, rest, rfl, hpoll, hrest⟩
    · exact .part (.polling hpoll)
    match r with
    | none =>
      obtain ⟨rfl, ho⟩ := hrest.ret_inv
      rw [List.append_nil]
      exact .part ((LoopTail.idle hpoll).upto ho)
    | some none =>
      obtain ⟨rfl, ho⟩ := hrest.ret_inv
      rw [List.append_nil]
      exact .part ((LoopTail.idle hpoll).upto ho)
    | some (some head) =>
      rcases hrest.bind_inv with ⟨rfl, hwork⟩ | ⟨r, work, rest, rfl, hwork, hpub⟩
      · exact .part (.working hpoll hwork)
      obtain ⟨d', r⟩ := r
      cases r with
      | none =>
        obtain ⟨rfl, ho⟩ := hpub.ret_inv
        rw [List.append_nil]
        exact .part ((LoopTail.refused hpoll hwork).upto ho)
      | some usedLen =>
        rcases hpub.bind_inv with ⟨rfl, hadd⟩ | ⟨ok, pub, rest, rfl, hadd, hgo⟩
        · rcases virtioAddUsed_upto (o := none) hadd with ⟨raw, rfl, _⟩ | ⟨hprep, _⟩
          · -- the index is stored: a round is over, and the next one has not begun
            have hnext := LoopRun.round hpoll hwork raw (.part (.polling (.start _)))
            rwa [List.append_nil] at hnext
          · exact .part (.unpublished hpoll hwork hprep fun r hr => by cases hr)
        · rcases virtioAddUsed_upto (o := some ok) hadd with ⟨raw, rfl, hok⟩ | ⟨hprep, hok⟩
          · have htrue : ok = true := by simpa using hok
            subst htrue
            rw [if_pos rfl] at hgo
            exact .round hpoll hwork raw (ih hgo)
          · have hfalse : ok = false := by simpa using hok
            subst hfalse
            rw [if_neg Bool.false_ne_true] at hgo
            obtain ⟨rfl, ho⟩ := hgo.ret_inv
            rw [List.append_nil]
            exact .part ((LoopTail.unpublished hpoll hwork hprep fun r hr => (Option.some.inj hr).symm).upto ho)

/-- The calls of a notification: those of the loop, and the interrupt. -/
theorem serviceQueue_upto (fuel : Nat) {d : Device P} {es : List FabricEvent}
    {o : Option (Device P × Bool)} (h : Upto (serviceQueue i process fuel d) es o) :
    ∃ ss d₁ tail d' irq, Rounds i process d ss d₁ ∧ es = ss.flatMap (Served.events i) ++ (tail ++ irq) ∧
      LoopTail i process d₁ tail d' ∧ (∀ e ∈ irq, ¬quiet e.1) ∧
        ∀ r, o = some r → ∃ d'', d' = some d'' ∧ r.1.priv = d''.priv ∧ r.1.vdev.queues = d''.vdev.queues := by
  have hraise : (raiseIrq).Sat (fun c => ¬quiet c) (fun _ => True) fun _ => True := raiseIrq_sat fun h => h
  rcases h.bind_inv with ⟨rfl, hloop⟩ | ⟨r, es₁, rest, rfl, hloop, hirq⟩
  · obtain ⟨ss, d₁, tail, hs, rfl, ht⟩ := serviceLoop_upto (o := none) fuel hloop
    exact ⟨ss, d₁, tail, none, [], hs, by simp, ht, fun _ he => absurd he List.not_mem_nil, fun r hr => by cases hr⟩
  · obtain ⟨ss, d₁, tail, hs, rfl, ht⟩ := serviceLoop_upto (o := some r) fuel hloop
    obtain ⟨d', r⟩ := r
    refine ⟨ss, d₁, tail, some d', rest, hs, by simp, ht, ?_⟩
    match r with
    | none =>
      obtain ⟨rfl, ho⟩ := hirq.ret_inv
      refine ⟨fun _ he => absurd he List.not_mem_nil, fun r hr => ⟨d', rfl, ?_⟩⟩
      rcases ho with rfl | rfl
      · cases hr
      · cases hr
        exact ⟨rfl, rfl⟩
    | some true =>
      have hsat : Prog.Sat (S := fabricSig) (fun c => ¬quiet c) (fun _ : Fault => True)
          (fun r => r.1.priv = d'.priv ∧ r.1.vdev.queues = d'.vdev.queues) (do return (d'.setVring, ← raiseIrq)) :=
        Prog.Sat.bind hraise fun _ _ => Prog.Sat.ret ⟨rfl, rfl⟩
      obtain ⟨hes, hr⟩ := hsat.upto hirq
      exact ⟨hes, fun r ho => ⟨d', rfl, hr r ho⟩⟩
    | some false =>
      have hsat : Prog.Sat (S := fabricSig) (fun c => ¬quiet c) (fun _ : Fault => True)
          (fun r => r.1 = d') (do return (d', ← ackNotify d')) := ackReturn_sat (fun h => h) (fun h => h) d'
      obtain ⟨hes, hr⟩ := hsat.upto hirq
      exact ⟨hes, fun r ho => ⟨d', rfl, by rw [hr r ho], by rw [hr r ho]⟩⟩

/-! ## What the handler keeps -/

section
variable {ρ : P → P → Prop} (hrefl : ∀ s, ρ s s) (htrans : ∀ {s t u}, ρ s t → ρ t u → ρ s u) {Q : FabricEvent → Prop}
  (hp : ∀ {d d' head es r}, Emits (process d head) es (.ok (d', r)) → (∀ e ∈ es, Q e) → ρ d.priv d'.priv)
include hrefl htrans hp

theorem Rounds.priv {d d₁ : Device P} {ss : List (Served P)} (h : Rounds i process d ss d₁)
    (hes : ∀ e ∈ ss.flatMap (Served.events i), Q e) : ρ d.priv d₁.priv := by
  induction h with
  | nil d => exact hrefl _
  | @cons s ss d hf hw _ ih =>
    rw [List.flatMap_cons, List.forall_mem_append] at hes
    have hwork : ∀ e ∈ s.work, Q e := fun e he => hes.1 e (List.mem_append_right _ (List.mem_append_left _ he))
    exact htrans (hp hw hwork) (ih hes.2)

omit htrans in
theorem LoopTail.priv {d d' : Device P} {tail : List FabricEvent}
    (h : LoopTail i process d tail (some d')) (hes : ∀ e ∈ tail, Q e) : ρ d.priv d'.priv := by
  cases h with
  | idle h => exact hrefl _
  | refused hf hw => exact hp hw fun e he => hes e (List.mem_append_right _ he)
  | unpublished hf hw _ hr =>
    rw [hr d' rfl]
    exact hp hw fun e he => hes e (List.mem_append_right _ (List.mem_append_left _ he))

theorem serviceQueue_rel (fuel : Nat) {d : Device P} {es : List FabricEvent} {r : Device P × Bool}
    (h : Emits (serviceQueue i process fuel d) es (.ok r)) (hes : ∀ e ∈ es, Q e) :
    ρ d.priv r.1.priv := by
  obtain ⟨ss, d₁, tail, d', irq, hserves, rfl, htail, _, hret⟩ := serviceQueue_upto (o := some r) fuel h
  obtain ⟨d'', rfl, hpriv, _⟩ := hret r rfl
  rw [List.forall_mem_append, List.forall_mem_append] at hes
  rw [hpriv]
  exact htrans (hserves.priv hrefl htrans hp hes.1) (htail.priv hrefl hp hes.2.1)

end

end

end AcsVirt.L4
