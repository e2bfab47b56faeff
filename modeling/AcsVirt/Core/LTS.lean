/-!
# Labelled transition systems

A system is its initial states and a labelled step relation; a run is a
list of labels, and an invariant is proved once by `Inductive.reachable`
(it holds initially and every step keeps it). `Inductive.run` is the same
rule from an arbitrary state. `Trace` keeps the state each step was taken
in; `Trace.all_iff` says exactly which runs stay inside a property when it
is known, step by step, what keeps it; `Trace.until` follows a property to
the step that ends it. A `Path` is a trace whose steps all meet a condition. In a `Confluent` system one finished
run decides how every other run ends (`Confluent.run`).
-/
namespace AcsVirt

structure LTS (S L : Type) where
  init : S → Prop
  step : S → L → S → Prop

namespace LTS

variable {S L : Type} (M : LTS S L)

inductive Run : S → List L → S → Prop
  | nil (s : S) : Run s [] s
  | cons {s s' s'' : S} {l : L} {ls : List L} : M.step s l s' → Run s' ls s'' → Run s (l :: ls) s''

/-- A run with the state each step was taken in. -/
inductive Trace : S → List (S × L) → S → Prop
  | nil (s : S) : Trace s [] s
  | cons {s s' s'' : S} {l : L} {tr : List (S × L)} :
      M.step s l s' → Trace s' tr s'' → Trace s ((s, l) :: tr) s''

def Reachable (s : S) : Prop := ∃ s₀ ls, M.init s₀ ∧ M.Run s₀ ls s

/-- An invariant: true initially, kept by every step. -/
structure Inductive (I : S → Prop) : Prop where
  init : ∀ s, M.init s → I s
  step : ∀ s l s', I s → M.step s l s' → I s'

variable {M}

theorem Run.keeps {I : S → Prop} (h : ∀ s l s', I s → M.step s l s' → I s') {s s' : S} {ls : List L}
    (hr : M.Run s ls s') (hi : I s) : I s' := by
  induction hr with
  | nil => exact hi
  | cons hs _ ih => exact ih (h _ _ _ hi hs)

theorem Inductive.reachable {I : S → Prop} (h : M.Inductive I) (s : S) (hr : M.Reachable s) :
    I s := by
  obtain ⟨s₀, ls, h0, hrun⟩ := hr
  exact hrun.keeps h.step (h.init s₀ h0)

theorem Run.append {s m s' : S} {ls ks : List L} (h₁ : M.Run s ls m) (h₂ : M.Run m ks s') :
    M.Run s (ls ++ ks) s' := by
  induction h₁ with
  | nil => exact h₂
  | cons hs _ ih => exact .cons hs (ih h₂)

theorem Reachable.tail {s s' : S} {l : L} (hr : M.Reachable s) (hs : M.step s l s') :
    M.Reachable s' := by
  obtain ⟨s₀, ls, h0, hrun⟩ := hr
  exact ⟨s₀, ls ++ [l], h0, hrun.append (.cons hs (.nil _))⟩

theorem Trace.head {I : S → Prop} {s s' : S} {tr : List (S × L)} (h : M.Trace s tr s')
    (ht : ∀ p ∈ tr, I p.1) (he : I s') : I s := by
  cases h with
  | nil => exact he
  | cons _ _ => exact ht _ List.mem_cons_self

/-- Let `J` hold in every state and `C s l` be what a step `l` from a state
`s` in `I` needs to end in `I`. Then a run stays in `I` iff each of its
steps has what it needs. -/
theorem Trace.all_iff {J I : S → Prop} {C : S → L → Prop}
    (hJ : ∀ s l s', J s → M.step s l s' → J s')
    (hI : ∀ s l s', J s → I s → M.step s l s' → (I s' ↔ C s l)) {s s' : S} {tr : List (S × L)}
    (h : M.Trace s tr s') (hj : J s) (hi : I s) :
    ((∀ p ∈ tr, I p.1) ∧ I s') ↔ ∀ p ∈ tr, C p.1 p.2 := by
  induction h with
  | nil => simp [hi]
  | @cons s s₁ s₂ l tr hs htr ih =>
    have hj' := hJ _ _ _ hj hs
    constructor
    · rintro ⟨ht, he⟩
      have ht' : ∀ p ∈ tr, I p.1 := fun p hp => ht p (List.mem_cons_of_mem _ hp)
      have hi' := htr.head ht' he
      intro p hp
      rcases List.mem_cons.1 hp with rfl | hp
      · exact (hI _ _ _ hj hi hs).1 hi'
      · exact (ih hj' hi').1 ⟨ht', he⟩ p hp
    · intro hc
      have hi' := (hI _ _ _ hj hi hs).2 (hc _ List.mem_cons_self)
      obtain ⟨ht, he⟩ := (ih hj' hi').2 fun p hp => hc p (List.mem_cons_of_mem _ hp)
      refine ⟨fun p hp => ?_, he⟩
      rcases List.mem_cons.1 hp with rfl | hp
      · exact hi
      · exact ht p hp

theorem Trace.run {s s' : S} {tr : List (S × L)} (h : M.Trace s tr s') :
    M.Run s (tr.map Prod.snd) s' := by
  induction h with
  | nil => exact .nil _
  | cons hs _ ih => exact .cons hs ih

theorem Trace.append {s m s' : S} {tr₁ tr₂ : List (S × L)} (h₁ : M.Trace s tr₁ m)
    (h₂ : M.Trace m tr₂ s') :
    M.Trace s (tr₁ ++ tr₂) s' := by
  induction h₁ with
  | nil => exact h₂
  | cons hs _ ih => exact .cons hs (ih h₂)

/-- A run whose steps all meet `C`, written from its start step by step. -/
def Path (M : LTS S L) (C : S → L → Prop) (s s' : S) : Prop :=
  ∃ tr, M.Trace s tr s' ∧ ∀ p ∈ tr, C p.1 p.2

theorem Path.refl {C : S → L → Prop} (s : S) : M.Path C s s := ⟨[], .nil s, nofun⟩

theorem Path.append {C : S → L → Prop} {s m s' : S} (h₁ : M.Path C s m) (h₂ : M.Path C m s') :
    M.Path C s s' := by
  obtain ⟨tr₁, h₁, hc₁⟩ := h₁
  obtain ⟨tr₂, h₂, hc₂⟩ := h₂
  exact ⟨tr₁ ++ tr₂, h₁.append h₂, fun p hp => (List.mem_append.1 hp).elim (hc₁ p) (hc₂ p)⟩

theorem Path.tail {C : S → L → Prop} {s m s' : S} {l : L} (h : M.Path C s m) (hs : M.step m l s')
    (hc : C m l) : M.Path C s s' :=
  h.append ⟨[(m, l)], .cons hs (.nil _), fun p hp => by rw [List.mem_singleton.1 hp]; exact hc⟩

/-- What every step that meets `C` keeps. -/
theorem Path.keeps {C : S → L → Prop} {I : S → Prop}
    (hI : ∀ s l s', I s → C s l → M.step s l s' → I s') {s s' : S} (h : M.Path C s s') (hi : I s) :
    I s' := by
  obtain ⟨tr, h, hc⟩ := h
  induction h with
  | nil => exact hi
  | cons hs _ ih =>
    exact ih (hI _ _ _ hi (hc _ List.mem_cons_self) hs) fun p hp => hc p (List.mem_cons_of_mem _ hp)

theorem Path.reachable {C : S → L → Prop} {s s' : S} (h : M.Path C s s') (hr : M.Reachable s) :
    M.Reachable s' := by
  obtain ⟨tr, h, -⟩ := h
  obtain ⟨s₀, ls, h0, hrun⟩ := hr
  exact ⟨s₀, ls ++ tr.map Prod.snd, h0, hrun.append h.run⟩

theorem Trace.split {s s' : S} {tr₁ tr₂ : List (S × L)} (h : M.Trace s (tr₁ ++ tr₂) s') :
    ∃ m, M.Trace s tr₁ m ∧ M.Trace m tr₂ s' := by
  induction tr₁ generalizing s with
  | nil => exact ⟨s, .nil _, h⟩
  | cons p tr₁ ih =>
    cases h with
    | cons hs ht =>
      obtain ⟨m, h1, h2⟩ := ih ht
      exact ⟨m, .cons hs h1, h2⟩

/-- `A` lasts until a step that is an `E`. -/
theorem Trace.until {A : S → Prop} {E : S → L → Prop}
    (hA : ∀ s l s', A s → M.step s l s' → ¬ E s l → A s') {s s' : S} {tr : List (S × L)}
    (h : M.Trace s tr s') (ha : A s) :
    A s' ∨ ∃ pre s₁ l s₂ post, tr = pre ++ (s₁, l) :: post ∧ (∀ p ∈ pre, A p.1) ∧ A s₁ ∧ E s₁ l ∧
      M.step s₁ l s₂ ∧ M.Trace s₂ post s' := by
  induction h with
  | nil => exact .inl ha
  | @cons s s₁ s₂ l tr hs ht ih =>
    by_cases he : E s l
    · exact .inr ⟨[], s, l, s₁, tr, rfl, nofun, ha, he, hs, ht⟩
    · obtain h | ⟨pre, a, m, b, post, rfl, hpre, hrest⟩ := ih (hA _ _ _ ha hs he)
      · exact .inl h
      · refine .inr ⟨(s, l) :: pre, a, m, b, post, rfl, fun p hp => ?_, hrest⟩
        rcases List.mem_cons.1 hp with rfl | hp
        · exact ha
        · exact hpre p hp

/-- When every step meets `C`, `A` lasts to the end or an `E` occurs. -/
theorem Trace.lasts {A : S → Prop} {C E : S → L → Prop}
    (hA : ∀ s l s', A s → C s l → M.step s l s' → ¬ E s l → A s') {s s' : S} {tr : List (S × L)}
    (h : M.Trace s tr s') (hc : ∀ p ∈ tr, C p.1 p.2) (ha : A s) : A s' ∨ ∃ p ∈ tr, E p.1 p.2 := by
  induction h with
  | nil => exact .inl ha
  | @cons s s₁ s₂ l tr hs ht ih =>
    by_cases he : E s l
    · exact .inr ⟨(s, l), List.mem_cons_self, he⟩
    · obtain h | ⟨p, hp, h⟩ := ih (fun p hp => hc p (List.mem_cons_of_mem _ hp))
        (hA _ _ _ ha (hc _ List.mem_cons_self) hs he)
      · exact .inl h
      · exact .inr ⟨p, List.mem_cons_of_mem _ hp, h⟩

/-! ## Confluent systems -/

variable (M) in
/-- A label has one step, and steps of different labels commute. -/
structure Confluent : Prop where
  det : ∀ {s a b l}, M.step s l a → M.step s l b → a = b
  commute : ∀ {s a b l m}, l ≠ m → M.step s l a → M.step s m b → ∃ d, M.step a m d ∧ M.step b l d

variable (M) in
def Stopped (s : S) : Prop := ∀ l s', ¬ M.step s l s'

/-- Whatever is done first, the end stays one step nearer. -/
theorem Confluent.step (hc : M.Confluent) {s s' t : S} {l : L} {ls : List L} (hr : M.Run s ls t)
    (ht : M.Stopped t) (hs : M.step s l s') : ∃ ks, M.Run s' ks t ∧ ks.length + 1 = ls.length := by
  induction hr generalizing s' with
  | nil => exact absurd hs (ht _ _)
  | @cons s a t m ls ha hr ih =>
    by_cases hlm : l = m
    · subst hlm
      rw [hc.det hs ha]
      exact ⟨ls, hr, rfl⟩
    · obtain ⟨d, h1, h2⟩ := hc.commute hlm hs ha
      obtain ⟨ks, hk, hlen⟩ := ih ht h2
      exact ⟨m :: ks, .cons h1 hk, by simp only [List.length_cons, hlen]⟩

/-- If one run ends, every run is a part of one that ends there, of the same length. -/
theorem Confluent.run (hc : M.Confluent) {s u t : S} {ls ks : List L} (hr : M.Run s ls t)
    (ht : M.Stopped t) (hk : M.Run s ks u) :
    ∃ js, M.Run u js t ∧ ks.length + js.length = ls.length := by
  induction hk generalizing ls with
  | nil => exact ⟨ls, hr, by simp⟩
  | cons hs _ ih =>
    obtain ⟨ls', hr', hlen⟩ := hc.step hr ht hs
    obtain ⟨js, hj, hlen'⟩ := ih hr'
    exact ⟨js, hj, by simp only [List.length_cons]; omega⟩

/-! ## Computed steps -/

/-- The run of a step function; `none` as soon as a step cannot be taken. -/
def exec (next : S → L → Option S) : S → List L → Option S
  | s, [] => some s
  | s, l :: ls => (next s l).bind fun s' => exec next s' ls

theorem exec_trace {next : S → L → Option S} (hn : ∀ s l s', next s l = some s' → M.step s l s')
    {s s' : S} {ls : List L} (he : exec next s ls = some s') :
    ∃ tr, M.Trace s tr s' ∧ tr.map Prod.snd = ls := by
  induction ls generalizing s with
  | nil =>
    cases he
    exact ⟨[], .nil _, rfl⟩
  | cons l ls ih =>
    obtain ⟨s₁, hs, he⟩ := Option.bind_eq_some_iff.1 he
    obtain ⟨tr, ht, hl⟩ := ih he
    exact ⟨(s, l) :: tr, .cons (hn _ _ _ hs) ht, by rw [List.map_cons, hl]⟩

end LTS
end AcsVirt
