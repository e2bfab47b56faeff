/-!
# Sequential code that calls out

`Prog S F α` is a piece of sequential code of type `α` that makes calls of
a signature `S` (each call has a reply type) and may stop with a fault of
type `F`. What a call does is not part of the program: a handler
`R w c r w'` says that call `c` may be answered with `r`, moving the outside
from `w` to `w'`. The same code is run under different handlers: a memory,
a socket to a peer, an adversary that answers anything.

* `Runs R p w o w'`: under `R`, from `w`, program `p` may end with outcome
  `o` (`Except.error` for a fault) in `w'`.
* `wp R p Q w`: every such run ends in `Q` (`wp_iff`). `wp` computes along
  the program and composes (`wp_bind`, `wp_mono`), so proofs about code are
  done with it.
* `Prog.Sat φ χ ψ p`: whatever the calls are answered with, `p` only makes
  calls in `φ`, only faults in `χ`, and only returns values in `ψ`. Facts of
  this kind need no handler and give invariants under every handler that
  keeps them on the calls in `φ` (`Sat.wp`).
* `Prog.Must φ ψ p`: whatever the calls are answered with, `p` makes a call in
  `φ` before it returns a value outside `ψ` (`Must.wp`).
* `logged R`: the handler `R` with the list of the calls made so far.
* `Prog.run h`: evaluation when every call has one answer (`Runs.of_run`).
* `SameRun h ρ p q`: evaluated from the same outside, `p` and `q` leave the same
  one, and end with results in `ρ` or with the same fault; it composes
  (`SameRun.bind`), so it is a proof method for two runs.
* `Prog.interp f`: the same code with its calls carried out by other code.
* `Emits p es o`: `p` ends with `o` when its calls are answered as in the list
  `es`. It says what code does on its own, whoever answers; a run under a handler
  is such a list that the handler allows (`Runs.emits`).
* `Begins p es`: a run of `p` may have made the calls `es` so far, whether it
  goes on, ends, faults or never returns; `Upto` is this or a return.
* `wp_of_events`: code whose calls stay in a part of the outside that nobody
  else touches runs as it does alone, whatever happens elsewhere meanwhile.
-/
namespace AcsVirt

/-- The calls a program can make and what each is answered with. -/
structure Sig where
  Call : Type
  Reply : Call → Type

inductive Prog (S : Sig) (F α : Type) where
  | ret (a : α)
  | fault (f : F)
  | call (c : S.Call) (k : S.Reply c → Prog S F α)

namespace Prog

variable {S : Sig} {F α β γ W : Type}

def bind : Prog S F α → (α → Prog S F β) → Prog S F β
  | .ret a, f => f a
  | .fault e, _ => .fault e
  | .call c k, f => .call c fun r => (k r).bind f

instance : Monad (Prog S F) where
  pure := .ret
  bind := .bind

/-- A single call. -/
def perform (c : S.Call) : Prog S F (S.Reply c) := .call c .ret

@[simp] theorem pure_eq (a : α) : (pure a : Prog S F α) = .ret a := rfl
@[simp] theorem ret_bind (a : α) (f : α → Prog S F β) : (.ret a : Prog S F α) >>= f = f a := rfl
@[simp] theorem fault_bind (e : F) (f : α → Prog S F β) :
    (.fault e : Prog S F α) >>= f = .fault e :=
  rfl
@[simp] theorem call_bind (c : S.Call) (k : S.Reply c → Prog S F α) (f : α → Prog S F β) :
    (.call c k : Prog S F α) >>= f = .call c fun r => k r >>= f := rfl
@[simp] theorem perform_bind (c : S.Call) (f : S.Reply c → Prog S F β) :
    (perform c : Prog S F (S.Reply c)) >>= f = .call c f := rfl

theorem bind_assoc (p : Prog S F α) (f : α → Prog S F β) (g : β → Prog S F γ) :
    p >>= f >>= g = p >>= fun a => f a >>= g := by
  induction p with
  | ret a => rfl
  | fault e => rfl
  | call c k ih => simp only [call_bind]; congr 1; funext r; exact ih r

/-- Evaluation when every call has one answer. -/
def run (h : W → (c : S.Call) → S.Reply c × W) : Prog S F α → W → Except F α × W
  | .ret a, w => (.ok a, w)
  | .fault e, w => (.error e, w)
  | .call c k, w => (k (h w c).1).run h (h w c).2

@[simp] theorem run_ret (h : W → (c : S.Call) → S.Reply c × W) (a : α) (w : W) :
    (.ret a : Prog S F α).run h w = (.ok a, w) := rfl
@[simp] theorem run_fault (h : W → (c : S.Call) → S.Reply c × W) (e : F) (w : W) :
    (.fault e : Prog S F α).run h w = (.error e, w) := rfl
@[simp] theorem run_call (h : W → (c : S.Call) → S.Reply c × W) (c : S.Call)
    (k : S.Reply c → Prog S F α) (w : W) :
    (.call c k : Prog S F α).run h w = (k (h w c).1).run h (h w c).2 := rfl

/-- Evaluation when some calls must not be made: `none` at such a call and at
a fault. -/
def runSome (h : W → (c : S.Call) → Option (S.Reply c × W)) : Prog S F α → W → Option (α × W)
  | .ret a, w => some (a, w)
  | .fault _, _ => none
  | .call c k, w => (h w c).bind fun r => (k r.1).runSome h r.2

/-- What every answer keeps, the evaluation keeps. -/
theorem runSome_keeps {h : W → (c : S.Call) → Option (S.Reply c × W)} {I : W → Prop}
    (hI : ∀ w c r w', h w c = some (r, w') → I w → I w') {p : Prog S F α} {w w' : W} {a : α}
    (hp : p.runSome h w = some (a, w')) (hi : I w) : I w' := by
  induction p generalizing w with
  | ret b =>
    cases hp
    exact hi
  | fault e => cases hp
  | call c k ih =>
    obtain ⟨⟨r, w₁⟩, hc, hp⟩ := Option.bind_eq_some_iff.1 hp
    exact ih r hp (hI _ _ _ _ hc hi)

/-- Each call carried out by code over another signature. -/
def interp {S' : Sig} (f : (c : S.Call) → Prog S' F (S.Reply c)) : Prog S F α → Prog S' F α
  | .ret a => .ret a
  | .fault e => .fault e
  | .call c k => f c >>= fun r => (k r).interp f

theorem run_bind (h : W → (c : S.Call) → S.Reply c × W) (p : Prog S F α) (f : α → Prog S F β)
    (w : W) :
    (p >>= f).run h w = match p.run h w with
      | (.ok a, w') => (f a).run h w'
      | (.error e, w') => (.error e, w') := by
  induction p generalizing w with
  | ret a => rfl
  | fault e => rfl
  | call c k ih => exact ih _ _

/-- Code in sequence: the second part runs where the first one stopped. -/
theorem run_bind_ok {h : W → (c : S.Call) → S.Reply c × W} {p : Prog S F α} {f : α → Prog S F β}
    {w w' : W} {a : α} (hp : p.run h w = (.ok a, w')) : (p >>= f).run h w = (f a).run h w' := by
  rw [run_bind, hp]

theorem run_bind_error {h : W → (c : S.Call) → S.Reply c × W} {p : Prog S F α}
    {f : α → Prog S F β} {w : W} {e : F} (hp : (p.run h w).1 = .error e) :
    ((p >>= f).run h w).1 = .error e := by
  induction p generalizing w with
  | ret b => cases hp
  | fault e' => exact congrArg Except.error (Except.error.inj hp)
  | call c k ih => exact ih _ hp

end Prog

section Runs

variable {S : Sig} {F α β W : Type}

/-- `R w c r w'`: call `c` made in `w` may be answered with `r`, leaving `w'`. -/
abbrev Handler (S : Sig) (W : Type) := W → (c : S.Call) → S.Reply c → W → Prop

inductive Runs (R : Handler S W) : Prog S F α → W → Except F α → W → Prop
  | ret (a : α) (w : W) : Runs R (.ret a) w (.ok a) w
  | fault (e : F) (w : W) : Runs R (.fault e) w (.error e) w
  | call {c : S.Call} {k : S.Reply c → Prog S F α} {r : S.Reply c} {w w' w'' : W} {o : Except F α} :
      R w c r w' → Runs R (k r) w' o w'' → Runs R (.call c k) w o w''

/-- Every run of the program from `w` ends in `Q`. -/
def wp (R : Handler S W) : Prog S F α → (Except F α → W → Prop) → W → Prop
  | .ret a, Q, w => Q (.ok a) w
  | .fault e, Q, w => Q (.error e) w
  | .call c k, Q, w => ∀ r w', R w c r w' → wp R (k r) Q w'

variable {R : Handler S W}

@[simp] theorem wp_ret (a : α) (Q : Except F α → W → Prop) (w : W) :
    wp R (.ret a) Q w = Q (.ok a) w := rfl
@[simp] theorem wp_fault (e : F) (Q : Except F α → W → Prop) (w : W) :
    wp R (.fault e : Prog S F α) Q w = Q (.error e) w := rfl
theorem wp_call (c : S.Call) (k : S.Reply c → Prog S F α) (Q : Except F α → W → Prop) (w : W) :
    wp R (.call c k) Q w = ∀ r w', R w c r w' → wp R (k r) Q w' := rfl

theorem wp_iff (p : Prog S F α) (Q : Except F α → W → Prop) (w : W) :
    wp R p Q w ↔ ∀ o w', Runs R p w o w' → Q o w' := by
  constructor
  · intro h o w' hr
    induction hr with
    | ret a w => exact h
    | fault e w => exact h
    | call hc _ ih => exact ih (h _ _ hc)
  · intro h
    induction p generalizing w with
    | ret a => exact h _ _ (.ret a w)
    | fault e => exact h _ _ (.fault e w)
    | call c k ih => exact fun r w' hr => ih r w' fun o w'' hk => h o w'' (.call hr hk)

theorem Runs.of_wp {p : Prog S F α} {Q : Except F α → W → Prop} {w w' : W} {o : Except F α}
    (hr : Runs R p w o w') (h : wp R p Q w) : Q o w' := (wp_iff p Q w).1 h o w' hr

theorem wp_mono {p : Prog S F α} {Q Q' : Except F α → W → Prop} {w : W} (h : wp R p Q w)
    (hQ : ∀ o w', Q o w' → Q' o w') : wp R p Q' w := by
  induction p generalizing w with
  | ret a => exact hQ _ _ h
  | fault e => exact hQ _ _ h
  | call c k ih => exact fun r w' hr => ih r (h r w' hr)

theorem wp_and {p : Prog S F α} {Q Q' : Except F α → W → Prop} {w : W} (h : wp R p Q w)
    (h' : wp R p Q' w) :
    wp R p (fun o w' => Q o w' ∧ Q' o w') w := by
  induction p generalizing w with
  | ret a => exact ⟨h, h'⟩
  | fault e => exact ⟨h, h'⟩
  | call c k ih => exact fun r w' hr => ih r (h r w' hr) (h' r w' hr)

/-- What holds of every run seen through `π` holds of every run. -/
theorem wp_lift {V : Type} {R' : Handler S V} {π : W → V}
    (hR : ∀ w c r w', R w c r w' → R' (π w) c r (π w')) {p : Prog S F α} {Q : Except F α → V → Prop}
    {w : W} (h : wp R' p Q (π w)) : wp R p (fun o w' => Q o (π w')) w := by
  induction p generalizing w with
  | ret a => exact h
  | fault e => exact h
  | call c k ih => exact fun r w' hr => ih r (h r _ (hR _ _ _ _ hr))

/-- What every call keeps. -/
theorem wp_keeps {I : W → Prop} (hR : ∀ w c r w', I w → R w c r w' → I w') (p : Prog S F α) {w : W}
    (hi : I w) :
    wp R p (fun _ w' => I w') w := by
  induction p generalizing w with
  | ret a => exact hi
  | fault e => exact hi
  | call c k ih => exact fun r w' hr => ih r (hR _ _ _ _ hi hr)

/-- Sequencing: run `p`, then the rest from wherever it returned. -/
theorem wp_bind (p : Prog S F α) (f : α → Prog S F β) (Q : Except F β → W → Prop) (w : W) :
    wp R (p >>= f) Q w ↔
      wp R p (fun o w' => match o with
        | .ok a => wp R (f a) Q w'
        | .error e => Q (.error e) w') w := by
  induction p generalizing w with
  | ret a => exact Iff.rfl
  | fault e => exact Iff.rfl
  | call c k ih =>
    simp only [Prog.call_bind, wp_call]
    exact forall_congr' fun r => forall_congr' fun w' => imp_congr_right fun _ => ih r w'

/-- The rule used on code: a postcondition of the first part, and the rest
from every state that satisfies it. -/
theorem wp_seq {p : Prog S F α} {f : α → Prog S F β} {Q : Except F β → W → Prop}
    {P : Except F α → W → Prop} {w : W} (hp : wp R p P w)
    (hok : ∀ a w', P (.ok a) w' → wp R (f a) Q w')
    (herr : ∀ e w', P (.error e) w' → Q (.error e) w') :
    wp R (p >>= f) Q w := by
  rw [wp_bind]
  refine wp_mono hp fun o w' h => ?_
  cases o with
  | ok a => exact hok a w' h
  | error e => exact herr e w' h

theorem wp_ite {c : Prop} [Decidable c] {p q : Prog S F α} {Q : Except F α → W → Prop} {w : W}
    (h1 : c → wp R p Q w) (h2 : ¬c → wp R q Q w) : wp R (if c then p else q) Q w := by
  split
  · exact h1 ‹_›
  · exact h2 ‹_›

/-- Evaluation is a run under every handler that allows its answers; the
evaluation may know more of the outside (`W`) than the handler (`V`). -/
theorem Runs.of_run {V : Type} {R : Handler S V} {h : W → (c : S.Call) → S.Reply c × W} {π : W → V}
    (hR : ∀ w c, R (π w) c (h w c).1 (π (h w c).2)) (p : Prog S F α) (w : W) :
    Runs R p (π w) (p.run h w).1 (π (p.run h w).2) := by
  induction p generalizing w with
  | ret a => exact .ret a _
  | fault e => exact .fault e _
  | call c k ih => exact .call (hR w c) (ih _ _)

/-- The calls made so far, in order, beside the outside. -/
def logged (R : Handler S W) : Handler S (W × List S.Call) :=
  fun w c r w' => R w.1 c r w'.1 ∧ w'.2 = w.2 ++ [c]

theorem Runs.unlogged {p : Prog S F α} {w w' : W × List S.Call} {o : Except F α}
    (h : Runs (logged R) p w o w') :
    Runs R p w.1 o w'.1 := by
  induction h with
  | ret a w => exact .ret a _
  | fault e w => exact .fault e _
  | call hr _ ih => exact .call hr.1 ih

theorem Runs.bind {p : Prog S F α} {f : α → Prog S F β} {w w' w'' : W} {a : α} {o : Except F β}
    (hp : Runs R p w (.ok a) w') (hf : Runs R (f a) w' o w'') : Runs R (p >>= f) w o w'' := by
  induction p generalizing w with
  | ret b =>
    cases hp
    exact hf
  | fault e => cases hp
  | call c k ih =>
    cases hp with
    | call hr hk => exact .call hr (ih _ hk)

end Runs

/-! ## Facts that hold under every handler -/

section Sat

variable {S : Sig} {F α β W : Type} {φ : S.Call → Prop} {χ : F → Prop} {ψ : α → Prop}

/-- A returned value is in `ψ`, a fault in `χ`. -/
def EndsIn (χ : F → Prop) (ψ : α → Prop) : Except F α → Prop
  | .ok a => ψ a
  | .error e => χ e

def Prog.Sat (φ : S.Call → Prop) (χ : F → Prop) (ψ : α → Prop) : Prog S F α → Prop
  | .ret a => ψ a
  | .fault e => χ e
  | .call c k => φ c ∧ ∀ r, (k r).Sat φ χ ψ

theorem Prog.Sat.ret {a : α} (h : ψ a) : (.ret a : Prog S F α).Sat φ χ ψ := h

theorem Prog.Sat.fault {e : F} (h : χ e) : (.fault e : Prog S F α).Sat φ χ ψ := h

theorem Prog.Sat.perform {c : S.Call} (h : φ c) :
    (Prog.perform c : Prog S F (S.Reply c)).Sat φ χ fun _ => True :=
  ⟨h, fun _ => trivial⟩

theorem Prog.Sat.mono {ψ' : α → Prop} {p : Prog S F α} (h : p.Sat φ χ ψ) (hψ : ∀ a, ψ a → ψ' a) :
    p.Sat φ χ ψ' := by
  induction p with
  | ret a => exact hψ a h
  | fault e => exact h
  | call c k ih => exact ⟨h.1, fun r => ih r (h.2 r)⟩

theorem Prog.Sat.weaken {φ' : S.Call → Prop} {p : Prog S F α} (h : p.Sat φ χ ψ)
    (hφ : ∀ c, φ c → φ' c) : p.Sat φ' χ ψ := by
  induction p with
  | ret a => exact h
  | fault e => exact h
  | call c k ih => exact ⟨hφ c h.1, fun r => ih r (h.2 r)⟩

theorem Prog.Sat.bind {p : Prog S F α} {f : α → Prog S F β} {ψ' : β → Prop} (hp : p.Sat φ χ ψ)
    (hf : ∀ a, ψ a → (f a).Sat φ χ ψ') : (p >>= f).Sat φ χ ψ' := by
  induction p with
  | ret a => exact hf a hp
  | fault e => exact hp
  | call c k ih => exact ⟨hp.1, fun r => ih r (hp.2 r)⟩

theorem Prog.sat_true (p : Prog S F α) : p.Sat (fun _ => True) (fun _ => True) fun _ => True := by
  induction p with
  | ret a => trivial
  | fault e => trivial
  | call c k ih => exact ⟨trivial, ih⟩

/-- The returned value and the fault of every run, under any handler. -/
theorem Prog.Sat.outcome {R : Handler S W} {p : Prog S F α} (h : p.Sat φ χ ψ) {w w' : W}
    {o : Except F α} (hr : Runs R p w o w') : EndsIn χ ψ o := by
  induction hr with
  | ret a w => exact h
  | fault e w => exact h
  | call _ _ ih => exact ih (h.2 _)

/-- What every call in `φ` keeps, the program keeps. -/
theorem Prog.Sat.wp {R : Handler S W} {I : W → Prop} {p : Prog S F α} (h : p.Sat φ χ ψ)
    (hR : ∀ w c r w', φ c → I w → R w c r w' → I w') {w : W} (hi : I w) :
    wp R p (fun o w' => I w' ∧ EndsIn χ ψ o) w := by
  induction p generalizing w with
  | ret a => exact ⟨hi, h⟩
  | fault e => exact ⟨hi, h⟩
  | call c k ih => exact fun r w' hr => ih r (h.2 r) (hR _ _ _ _ h.1 hi hr)

/-- Every way to a result outside `ψ` makes a call in `φ`. -/
def Prog.Must (φ : S.Call → Prop) (ψ : α → Prop) : Prog S F α → Prop
  | .ret a => ψ a
  | .fault _ => True
  | .call c k => φ c ∨ ∀ r, (k r).Must φ ψ

/-- If a call in `φ` made in `J` ends in `I`, a result outside `ψ` is in `I`. -/
theorem Prog.Must.wp {R : Handler S W} {I J : W → Prop} {p : Prog S F α} (hp : p.Must φ ψ)
    (hφ : ∀ w c r w', φ c → J w → R w c r w' → I w') (hJ : ∀ w c r w', J w → R w c r w' → J w')
    (hI : ∀ w c r w', I w → R w c r w' → I w') {w : W} (hj : J w) :
    wp R p (fun o w' => ∀ a, o = .ok a → ψ a ∨ I w') w := by
  induction p generalizing w with
  | ret a =>
    intro _ he
    cases he
    exact .inl hp
  | fault e => exact nofun
  | call c k ih =>
    intro r w' hr
    rcases hp with hc | hp
    · exact wp_mono (wp_keeps hI (k r) (hφ _ _ _ _ hc hj hr)) fun _ _ hi _ _ => .inr hi
    · exact ih r (hp r) (hJ _ _ _ _ hj hr)

end Sat

/-! ## Two runs -/

section Related

variable {S : Sig} {F α β α' β' W : Type}

/-- Results in `ρ`, or the same fault. -/
def EndsAlike (ρ : α → β → Prop) : Except F α → Except F β → Prop
  | .ok a, .ok b => ρ a b
  | .error e, .error e' => e = e'
  | .ok _, .error _ => False
  | .error _, .ok _ => False

def SameRun (h : W → (c : S.Call) → S.Reply c × W) (ρ : α → β → Prop) (p : Prog S F α)
    (q : Prog S F β) : Prop :=
  ∀ w, (p.run h w).2 = (q.run h w).2 ∧ EndsAlike ρ (p.run h w).1 (q.run h w).1

variable {h : W → (c : S.Call) → S.Reply c × W} {ρ : α → β → Prop} {σ : α' → β' → Prop}

theorem SameRun.ret {a : α} {b : β} (hab : ρ a b) : SameRun h ρ (.ret a : Prog S F α) (.ret b) :=
  fun _ => ⟨rfl, hab⟩

theorem SameRun.fault (e : F) : SameRun h ρ (.fault e : Prog S F α) (.fault e) :=
  fun _ => ⟨rfl, rfl⟩

theorem SameRun.refl (p : Prog S F α) : SameRun h (· = ·) p p := by
  intro w
  refine ⟨rfl, ?_⟩
  cases (p.run h w).1 <;> rfl

theorem SameRun.bind {p : Prog S F α} {q : Prog S F β} {f : α → Prog S F α'} {g : β → Prog S F β'}
    (hp : SameRun h ρ p q) (hf : ∀ a b, ρ a b → SameRun h σ (f a) (g b)) :
    SameRun h σ (p >>= f) (q >>= g) := by
  intro w
  obtain ⟨hw, ho⟩ := hp w
  rw [Prog.run_bind, Prog.run_bind]
  generalize p.run h w = r at hw ho ⊢
  generalize q.run h w = r' at hw ho ⊢
  obtain ⟨o, w₁⟩ := r
  obtain ⟨o', w₂⟩ := r'
  obtain rfl : w₁ = w₂ := hw
  cases o with
  | ok a =>
    cases o' with
    | ok b => exact hf a b ho w₁
    | error e => exact ho.elim
  | error e =>
    cases o' with
    | ok b => exact ho.elim
    | error e' => exact ⟨rfl, ho⟩

theorem SameRun.run_eq {p q : Prog S F α} (hpq : SameRun h (· = ·) p q) (w : W) :
    p.run h w = q.run h w := by
  obtain ⟨hw, ho⟩ := hpq w
  refine Prod.ext ?_ hw
  revert ho
  cases (p.run h w).1 <;> cases (q.run h w).1 <;> first | exact fun ho => congrArg _ ho | exact False.elim

/-- The same first part. -/
theorem SameRun.after {p : Prog S F α} {f : α → Prog S F α'} {g : α → Prog S F β'}
    (hf : ∀ a, SameRun h σ (f a) (g a)) : SameRun h σ (p >>= f) (p >>= g) :=
  (SameRun.refl p).bind fun a _ e => e ▸ hf a

/-- A call whose answers are in `φ`. -/
theorem SameRun.perform {c : S.Call} {φ : S.Reply c → Prop} (hφ : ∀ w, φ (h w c).1) :
    SameRun h (fun a b => a = b ∧ φ a) (Prog.perform c : Prog S F (S.Reply c)) (Prog.perform c) :=
  fun w => ⟨rfl, rfl, hφ w⟩

end Related

/-! ## Calls with their answers -/

section Events

variable {S : Sig} {F α β W : Type}

/-- A call and the answer it got. -/
abbrev CallEvent (S : Sig) := (c : S.Call) × S.Reply c

inductive Emits : Prog S F α → List (CallEvent S) → Except F α → Prop
  | ret (a : α) : Emits (.ret a) [] (.ok a)
  | fault (e : F) : Emits (.fault e) [] (.error e)
  | call {c : S.Call} {k : S.Reply c → Prog S F α} {r : S.Reply c} {es : List (CallEvent S)} {o : Except F α} :
      Emits (k r) es o → Emits (.call c k) (⟨c, r⟩ :: es) o

/-- The handler gives these answers, from `w` to `w'`. -/
inductive Answered (R : Handler S W) : W → List (CallEvent S) → W → Prop
  | nil (w : W) : Answered R w [] w
  | cons {c : S.Call} {r : S.Reply c} {es : List (CallEvent S)} {w w' w'' : W} :
      R w c r w' → Answered R w' es w'' → Answered R w (⟨c, r⟩ :: es) w''

theorem Runs.emits {R : Handler S W} {p : Prog S F α} {w w' : W} {o : Except F α}
    (h : Runs R p w o w') :
    ∃ es, Emits p es o ∧ Answered R w es w' := by
  induction h with
  | ret a w => exact ⟨[], .ret a, .nil w⟩
  | fault e w => exact ⟨[], .fault e, .nil w⟩
  | call hr _ ih =>
    obtain ⟨es, he, ha⟩ := ih
    exact ⟨_ :: es, .call he, .cons hr ha⟩

theorem Answered.all {R : Handler S W} {P : CallEvent S → Prop}
    (hP : ∀ w c r w', R w c r w' → P ⟨c, r⟩) {es : List (CallEvent S)} {w w' : W}
    (h : Answered R w es w') : ∀ e ∈ es, P e := by
  induction h with
  | nil w => exact nofun
  | cons hr _ ih => exact List.forall_mem_cons.2 ⟨hP _ _ _ _ hr, ih⟩

theorem Answered.split {R : Handler S W} {es es' : List (CallEvent S)} {w w'' : W}
    (h : Answered R w (es ++ es') w'') :
    ∃ w', Answered R w es w' ∧ Answered R w' es' w'' := by
  induction es generalizing w with
  | nil => exact ⟨w, .nil w, h⟩
  | cons e es ih =>
    cases h with
    | cons hr h =>
      obtain ⟨w', h1, h2⟩ := ih h
      exact ⟨w', .cons hr h1, h2⟩

namespace Emits

theorem ret_inv {a b : α} {es : List (CallEvent S)} (h : Emits (.ret a : Prog S F α) es (.ok b)) :
    es = [] ∧ b = a := by
  cases h
  exact ⟨rfl, rfl⟩

theorem perform_inv {c : S.Call} {r : S.Reply c} {es : List (CallEvent S)}
    (h : Emits (Prog.perform c : Prog S F (S.Reply c)) es (.ok r)) : es = [⟨c, r⟩] := by
  cases h with
  | call h =>
    cases h
    rfl

/-- Code in sequence: the second part's calls come after the first one's. -/
theorem bind_inv {p : Prog S F α} {f : α → Prog S F β} {es : List (CallEvent S)} {b : β}
    (h : Emits (p >>= f) es (.ok b)) :
    ∃ a es₁ es₂, es = es₁ ++ es₂ ∧ Emits p es₁ (.ok a) ∧ Emits (f a) es₂ (.ok b) := by
  induction p generalizing es with
  | ret a => exact ⟨a, [], es, rfl, .ret a, h⟩
  | fault e => cases h
  | call c k ih =>
    cases h with
    | call h =>
      obtain ⟨a, es₁, es₂, rfl, h1, h2⟩ := ih _ h
      exact ⟨a, _ :: es₁, es₂, rfl, .call h1, h2⟩

/-- A result handed on through a function. -/
theorem map_iff {p : Prog S F α} {f : α → β} {es : List (CallEvent S)} {b : β} :
    Emits (p >>= fun a => .ret (f a)) es (.ok b) ↔ ∃ a, Emits p es (.ok a) ∧ b = f a := by
  induction p generalizing es with
  | ret a =>
    constructor
    · intro h
      obtain ⟨rfl, rfl⟩ := h.ret_inv
      exact ⟨a, .ret a, rfl⟩
    · rintro ⟨a', h, rfl⟩
      obtain ⟨rfl, rfl⟩ := h.ret_inv
      exact .ret _
  | fault e =>
    constructor
    · intro h
      cases h
    · rintro ⟨a, h, -⟩
      cases h
  | call c k ih =>
    constructor
    · intro h
      cases h with
      | call h =>
        obtain ⟨a, ha, hb⟩ := (ih _).1 h
        exact ⟨a, .call ha, hb⟩
    · rintro ⟨a, h, hb⟩
      cases h with
      | call h => exact .call ((ih _).2 ⟨a, h, hb⟩)

end Emits

/-- The calls of a run up to some point of it. -/
inductive Begins : Prog S F α → List (CallEvent S) → Prop
  | start (p : Prog S F α) : Begins p []
  | call {c : S.Call} {k : S.Reply c → Prog S F α} {r : S.Reply c} {es : List (CallEvent S)} :
      Begins (k r) es → Begins (.call c k) (⟨c, r⟩ :: es)

theorem Emits.begins {p : Prog S F α} {es : List (CallEvent S)} {o : Except F α} (h : Emits p es o) :
    Begins p es := by
  induction h with
  | ret a => exact .start _
  | fault e => exact .start _
  | call _ ih => exact .call ih

namespace Begins

theorem ret_inv {a : α} {es : List (CallEvent S)} (h : Begins (.ret a : Prog S F α) es) :
    es = [] := by
  cases h
  rfl

theorem fault_inv {e : F} {es : List (CallEvent S)} (h : Begins (.fault e : Prog S F α) es) :
    es = [] := by
  cases h
  rfl

theorem perform_inv {c : S.Call} {es : List (CallEvent S)}
    (h : Begins (Prog.perform c : Prog S F (S.Reply c)) es) :
    es = [] ∨ ∃ r, es = [⟨c, r⟩] := by
  cases h with
  | start => exact .inl rfl
  | call h =>
    cases h
    exact .inr ⟨_, rfl⟩

/-- Code in sequence: still in the first part, or past it. -/
theorem bind_inv {p : Prog S F α} {f : α → Prog S F β} {es : List (CallEvent S)}
    (h : Begins (p >>= f) es) :
    Begins p es ∨ ∃ a es₁ es₂, es = es₁ ++ es₂ ∧ Emits p es₁ (.ok a) ∧ Begins (f a) es₂ := by
  induction p generalizing es with
  | ret a => exact .inr ⟨a, [], es, rfl, .ret a, h⟩
  | fault e =>
    cases h
    exact .inl (.start _)
  | call c k ih =>
    cases h with
    | start => exact .inl (.start _)
    | call h =>
      rcases ih _ h with h | ⟨a, es₁, es₂, rfl, h1, h2⟩
      · exact .inl (.call h)
      · exact .inr ⟨a, _ :: es₁, es₂, rfl, .call h1, h2⟩

end Begins

/-- The calls of a run up to some point, or up to its return with this result. -/
def Upto (p : Prog S F α) (es : List (CallEvent S)) : Option α → Prop
  | none => Begins p es
  | some a => Emits p es (.ok a)

namespace Upto

theorem ret_inv {a : α} {es : List (CallEvent S)} {o : Option α}
    (h : Upto (.ret a : Prog S F α) es o) :
    es = [] ∧ (o = none ∨ o = some a) := by
  cases o with
  | none => exact ⟨Begins.ret_inv h, .inl rfl⟩
  | some b =>
    obtain ⟨rfl, rfl⟩ := Emits.ret_inv h
    exact ⟨rfl, .inr rfl⟩

theorem fault_inv {e : F} {es : List (CallEvent S)} {o : Option α}
    (h : Upto (.fault e : Prog S F α) es o) :
    es = [] ∧ o = none := by
  cases o with
  | none => exact ⟨Begins.fault_inv h, rfl⟩
  | some b => cases h

theorem bind_inv {p : Prog S F α} {f : α → Prog S F β} {es : List (CallEvent S)} {o : Option β}
    (h : Upto (p >>= f) es o) :
    (o = none ∧ Begins p es) ∨ ∃ a es₁ es₂, es = es₁ ++ es₂ ∧ Emits p es₁ (.ok a) ∧ Upto (f a) es₂ o := by
  cases o with
  | none =>
    rcases Begins.bind_inv h with h | h
    · exact .inl ⟨rfl, h⟩
    · exact .inr h
  | some b => exact .inr (Emits.bind_inv h)

end Upto

/-- What the calls satisfy they satisfy at every point of a run. -/
theorem Prog.Sat.begins {φ : S.Call → Prop} {χ : F → Prop} {ψ : α → Prop} {p : Prog S F α}
    (h : p.Sat φ χ ψ) {es : List (CallEvent S)} (hb : Begins p es) : ∀ e ∈ es, φ e.1 := by
  induction hb with
  | start p => exact fun _ he => absurd he List.not_mem_nil
  | call _ ih => exact List.forall_mem_cons.2 ⟨h.1, ih (h.2 _)⟩

/-- Facts under every handler, read off the calls made. -/
theorem Prog.Sat.emits {φ : S.Call → Prop} {χ : F → Prop} {ψ : α → Prop} {p : Prog S F α}
    (h : p.Sat φ χ ψ) {es : List (CallEvent S)} {o : Except F α} (he : Emits p es o) :
    (∀ e ∈ es, φ e.1) ∧ EndsIn χ ψ o := by
  induction he with
  | ret a => exact ⟨nofun, h⟩
  | fault e => exact ⟨nofun, h⟩
  | call _ ih =>
    obtain ⟨hes, ho⟩ := ih (h.2 _)
    exact ⟨List.forall_mem_cons.2 ⟨h.1, hes⟩, ho⟩

theorem Prog.Sat.upto {φ : S.Call → Prop} {χ : F → Prop} {ψ : α → Prop} {p : Prog S F α}
    (h : p.Sat φ χ ψ) {es : List (CallEvent S)} {o : Option α} (hu : Upto p es o) :
    (∀ e ∈ es, φ e.1) ∧ ∀ a, o = some a → ψ a := by
  cases o with
  | none => exact ⟨h.begins hu, fun a ha => by cases ha⟩
  | some a =>
    obtain ⟨hes, ha⟩ := h.emits hu
    exact ⟨hes, fun b hb => by cases hb; exact ha⟩

/-- The calls and answers of an evaluation. -/
def Prog.events (h : W → (c : S.Call) → S.Reply c × W) : Prog S F α → W → List (CallEvent S)
  | .ret _, _ => []
  | .fault _, _ => []
  | .call c k, w => ⟨c, (h w c).1⟩ :: (k (h w c).1).events h (h w c).2

theorem Emits.of_run (h : W → (c : S.Call) → S.Reply c × W) (p : Prog S F α) (w : W) :
    Emits p (p.events h w) (p.run h w).1 := by
  induction p generalizing w with
  | ret a => exact .ret a
  | fault e => exact .fault e
  | call c k ih => exact .call (ih _ _)

/-- What every answer satisfies holds of every event. -/
theorem Prog.events_all {Q : CallEvent S → Prop} {h : W → (c : S.Call) → S.Reply c × W}
    (hQ : ∀ w c, Q ⟨c, (h w c).1⟩) (p : Prog S F α) (w : W) : ∀ e ∈ p.events h w, Q e := by
  induction p generalizing w with
  | ret a => exact fun _ he => absurd he List.not_mem_nil
  | fault e => exact fun _ he => absurd he List.not_mem_nil
  | call c k ih => exact List.forall_mem_cons.2 ⟨hQ w c, ih _ _⟩

theorem Prog.Sat.events {φ : S.Call → Prop} {χ : F → Prop} {ψ : α → Prop} {p : Prog S F α}
    (hp : p.Sat φ χ ψ) (h : W → (c : S.Call) → S.Reply c × W) (w : W) :
    ∀ e ∈ p.events h w, φ e.1 := (hp.emits (.of_run h p w)).1

/-- What holds of every event of the parts holds of every event of the whole. -/
theorem Prog.events_bind {Q : CallEvent S → Prop} {h : W → (c : S.Call) → S.Reply c × W}
    {p : Prog S F α} {f : α → Prog S F β} {w : W} (hp : ∀ e ∈ p.events h w, Q e)
    (hf : ∀ a w', p.run h w = (.ok a, w') → ∀ e ∈ (f a).events h w', Q e) :
    ∀ e ∈ (p >>= f).events h w, Q e := by
  induction p generalizing w with
  | ret b => exact hf b w rfl
  | fault e => exact fun _ he => absurd he List.not_mem_nil
  | call c k ih =>
    obtain ⟨hc, hk⟩ := List.forall_mem_cons.1 hp
    exact List.forall_mem_cons.2 ⟨hc, ih _ hk hf⟩

theorem Prog.events_seq {Q : CallEvent S → Prop} {h : W → (c : S.Call) → S.Reply c × W}
    {p : Prog S F α} {f : α → Prog S F β} {w w' : W} {a : α} (hrun : p.run h w = (.ok a, w'))
    (hp : ∀ e ∈ p.events h w, Q e) (hf : ∀ e ∈ (f a).events h w', Q e) :
    ∀ e ∈ (p >>= f).events h w, Q e := by
  refine Prog.events_bind hp fun b w₁ hb => ?_
  cases hrun.symm.trans hb
  exact hf

/-- An evaluation that also keeps something else: the same run and the same
events, seen through `π`. -/
theorem Prog.run_through {V : Type} {h' : V → (c : S.Call) → S.Reply c × V}
    {h : W → (c : S.Call) → S.Reply c × W} {π : V → W}
    (hπ : ∀ v c, (h' v c).1 = (h (π v) c).1 ∧ π (h' v c).2 = (h (π v) c).2) (p : Prog S F α) (v : V) :
    (p.run h' v).1 = (p.run h (π v)).1 ∧ π (p.run h' v).2 = (p.run h (π v)).2 ∧
      p.events h' v = p.events h (π v) := by
  induction p generalizing v with
  | ret a => exact ⟨rfl, rfl, rfl⟩
  | fault e => exact ⟨rfl, rfl, rfl⟩
  | call c k ih =>
    obtain ⟨h1, h2⟩ := hπ v c
    obtain ⟨ho, hw, he⟩ := ih (h' v c).1 (h' v c).2
    rw [h2, h1] at ho hw he
    simp only [Prog.run_call, Prog.events, h1]
    exact ⟨ho, hw, congrArg _ he⟩

/-- Code disturbed only elsewhere: `Rel` is what the evaluation of `p` alone
says of the outside, and the calls in `A` are answered by it. -/
theorem wp_of_events {V : Type} {R : Handler S V} {h : W → (c : S.Call) → S.Reply c × W}
    {A : S.Call → Prop} {Rel : V → W → Prop}
    (hR : ∀ v w c r v', Rel v w → A c → R v c r v' → r = (h w c).1 ∧ Rel v' (h w c).2)
    {p : Prog S F α} {v : V} {w : W} (hA : ∀ e ∈ p.events h w, A e.1) (hrel : Rel v w) :
    wp R p (fun o v' => o = (p.run h w).1 ∧ Rel v' (p.run h w).2) v := by
  induction p generalizing v w with
  | ret a => exact ⟨rfl, hrel⟩
  | fault e => exact ⟨rfl, hrel⟩
  | call c k ih =>
    intro r v' hr
    obtain ⟨rfl, hrel'⟩ := hR v w c r v' hrel (hA _ List.mem_cons_self) hr
    exact ih _ (fun e he => hA e (List.mem_cons_of_mem _ he)) hrel'

end Events
end AcsVirt
