import AcsVirt.Core.LTS
import AcsVirt.Core.Prog

/-!
# Two parties on a pair of byte streams

A party is sequential code (`Prog`) that sends and receives single items and
makes calls of its own, answered from its own state. When the code returns,
the party may go on with other code (`again`): a party that returned is at the
top of its loop, or finished. Two parties are connected by two streams of
bounded or unbounded capacity (`cap`); a party that cannot send or receive
waits.

The parties are deterministic and share nothing but the streams, so the system
is confluent whatever the capacity (`duplex_confluent`): one finished run
settles all of them. Such a run is found in rendezvous order, with both
streams empty between any two transfers: `Leads` and its rules
(`Leads.sendLeft`, `Leads.sendRight`, ...) follow the two codes side by side.

`LastSend φ p`: code that returns a value in `φ` sends last. If a party of
this kind has a peer that no longer receives, it has nothing left to do
(`idle_of_lastSend`).
-/
namespace AcsVirt

inductive PortCall (B : Type) (L : Sig) where
  | send (b : B)
  | recv
  | own (c : L.Call)

@[reducible] def portSig (B : Type) (L : Sig) : Sig where
  Call := PortCall B L
  Reply
    | .send _ => Unit
    | .recv => B
    | .own c => L.Reply c

/-- The kind of a party: its own calls and state, what its code returns, and
how it goes on. -/
structure Party (B : Type) where
  Own : Sig
  Fault : Type
  State : Type
  Result : Type
  answer : State → (c : Own.Call) → Own.Reply c × State
  again : Result → Option (Prog (portSig B Own) Fault Result)

variable {B : Type}

abbrev Party.Code (P : Party B) (α : Type) := Prog (portSig B P.Own) P.Fault α

structure Party.Local (P : Party B) where
  code : P.Code P.Result
  state : P.State

/-- The code that runs next: at a return, what the party goes on with. -/
def Party.unfold (P : Party B) : P.Code P.Result → P.Code P.Result
  | .ret a => (P.again a).getD (.ret a)
  | p => p

def room (cap : Option Nat) (n : Nat) : Bool := cap.all (n < ·)

/-- A step of a party that reads `inp` and writes `out`. -/
def Party.step (P : Party B) (cap : Option Nat) (x : P.Local) (inp out : List B) :
    Option (P.Local × List B × List B) :=
  match P.unfold x.code with
  | .ret _ => none
  | .fault _ => none
  | .call (.send b) k => if room cap out.length then some (⟨k (), x.state⟩, inp, out ++ [b]) else none
  | .call .recv k =>
    match inp with
    | [] => none
    | b :: inp => some (⟨k b, x.state⟩, inp, out)
  | .call (.own c) k => some (⟨k (P.answer x.state c).1, (P.answer x.state c).2⟩, inp, out)

structure Duplex (P Q : Party B) where
  left : P.Local
  right : Q.Local
  toRight : List B
  toLeft : List B

inductive Side where
  | left
  | right
  deriving DecidableEq, Repr

def Duplex.next {P Q : Party B} (cap : Option Nat) (s : Duplex P Q) : Side → Option (Duplex P Q)
  | .left => (P.step cap s.left s.toLeft s.toRight).map fun r => ⟨r.1, s.right, r.2.2, r.2.1⟩
  | .right => (Q.step cap s.right s.toRight s.toLeft).map fun r => ⟨s.left, r.1, r.2.1, r.2.2⟩

/-- The composition, from any state. -/
def duplexLts (P Q : Party B) (cap : Option Nat) : LTS (Duplex P Q) Side where
  init _ := True
  step s l s' := s.next cap l = some s'

/-! ## Confluence -/

theorem room_of_le {cap : Option Nat} {m n : Nat} (h : room cap n = true) (hm : m ≤ n) :
    room cap m = true := by
  cases cap with
  | none => rfl
  | some c =>
    simp only [room, Option.all_some, decide_eq_true_eq] at h ⊢
    omega

theorem room_zero {cap : Option Nat} (h : cap ≠ some 0) : room cap 0 = true := by
  cases cap with
  | none => rfl
  | some c =>
    simp only [room, Option.all_some, decide_eq_true_eq]
    exact Nat.pos_of_ne_zero fun e => h (by rw [e])

section
variable {P Q : Party B} {cap : Option Nat}

/-- A step takes from the front of its input and adds to the end of its output. -/
theorem Party.step_streams {x x' : P.Local} {inp inp' out out' : List B}
    (h : P.step cap x inp out = some (x', inp', out')) :
    ∃ got sent, inp = got ++ inp' ∧ out' = out ++ sent := by
  unfold Party.step at h
  split at h
  · cases h
  · cases h
  · rename_i b k _
    split at h <;> cases h
    exact ⟨[], [b], rfl, rfl⟩
  · split at h
    · cases h
    · rename_i b inp
      cases h
      exact ⟨[b], [], rfl, by simp⟩
  · cases h
    exact ⟨[], [], rfl, by simp⟩

/-- A step is not changed by items that arrive later, nor by items that leave
the other end of its output. -/
theorem Party.step_frame {x x' : P.Local} {inp inp' out out' : List B}
    (h : P.step cap x inp out = some (x', inp', out')) {gone rest : List B}
    (hout : out = gone ++ rest) (later : List B) :
    ∃ rest', out' = gone ++ rest' ∧ P.step cap x (inp ++ later) rest = some (x', inp' ++ later, rest') := by
  subst hout
  unfold Party.step at h ⊢
  split at h
  · cases h
  · cases h
  · rename_i b k _
    simp only [Option.ite_none_right_eq_some, Option.some.injEq, Prod.mk.injEq] at h
    obtain ⟨hroom, rfl, rfl, rfl⟩ := h
    exact ⟨rest ++ [b], by simp, by rw [if_pos (room_of_le hroom (by simp))]⟩
  · split at h
    · cases h
    · cases h
      exact ⟨rest, rfl, rfl⟩
  · cases h
    exact ⟨rest, rfl, rfl⟩

theorem duplex_confluent : (duplexLts P Q cap).Confluent := by
  have key : ∀ {s a b : Duplex P Q}, s.next cap .left = some a → s.next cap .right = some b →
      ∃ d, a.next cap .right = some d ∧ b.next cap .left = some d := by
    intro s a b ha hb
    obtain ⟨⟨x, tl, tr⟩, hx, rfl⟩ := Option.map_eq_some_iff.1 ha
    obtain ⟨⟨y, tr', tl'⟩, hy, rfl⟩ := Option.map_eq_some_iff.1 hb
    obtain ⟨got, sent, hin, rfl⟩ := Party.step_streams hx
    obtain ⟨got', sent', hin', rfl⟩ := Party.step_streams hy
    obtain ⟨rest, hr, hq⟩ := Party.step_frame hy hin sent
    obtain ⟨rest', hr', hp⟩ := Party.step_frame hx hin' sent'
    refine ⟨⟨x, y, rest', rest⟩, ?_, ?_⟩
    · have he : tr' ++ sent = rest' := by
        rw [hin', List.append_assoc] at hr'
        exact List.append_cancel_left hr'
      simp only [Duplex.next, hq, Option.map_some, he]
    · have he : tl ++ sent' = rest := by
        rw [hin, List.append_assoc] at hr
        exact List.append_cancel_left hr
      simp only [Duplex.next, hp, Option.map_some, he]
  refine ⟨fun ha hb => Option.some.inj (ha.symm.trans hb), fun {s a b l m} hne ha hb => ?_⟩
  cases l <;> cases m
  · exact absurd rfl hne
  · exact key ha hb
  · obtain ⟨d, h1, h2⟩ := key hb ha
    exact ⟨d, h2, h1⟩
  · exact absurd rfl hne

end

/-! ## Runs in rendezvous order -/

section
variable {L : Sig} {F : Type}

def sendAll : List B → Prog (portSig B L) F Unit
  | [] => .ret ()
  | b :: bs => .call (.send b) fun _ => sendAll bs

def recvAll : Nat → Prog (portSig B L) F (List B)
  | 0 => .ret []
  | n + 1 => .call .recv fun b => recvAll n >>= fun bs => .ret (b :: bs)

theorem sendAll_cons_bind {A : Type} (b : B) (bs : List B) (k : Unit → Prog (portSig B L) F A) :
    sendAll (b :: bs) >>= k = .call (.send b) fun _ => sendAll bs >>= k := rfl

theorem recvAll_succ_bind {A : Type} (n : Nat) (k : List B → Prog (portSig B L) F A) :
    recvAll (n + 1) >>= k = .call .recv fun b => recvAll n >>= fun bs => k (b :: bs) := by
  simp only [recvAll, Prog.call_bind, Prog.bind_assoc, Prog.ret_bind]

/-- A call of the party's own. -/
def own (c : L.Call) : Prog (portSig B L) F (L.Reply c) := Prog.perform (S := portSig B L) (.own c)

end

section
variable {P Q : Party B} {cap : Option Nat}

/-- From empty streams the two parties can get to a state in `T`. -/
def Leads (cap : Option Nat) (x : P.Local) (y : Q.Local) (T : Duplex P Q → Prop) : Prop :=
  ∃ ls t, (duplexLts P Q cap).Run ⟨x, y, [], []⟩ ls t ∧ T t

variable {x : P.Local} {y : Q.Local} {T : Duplex P Q → Prop}

theorem Leads.here (h : T ⟨x, y, [], []⟩) : Leads cap x y T := ⟨[], _, .nil _, h⟩

theorem Leads.ownLeft {c : P.Own.Call} {k : P.Own.Reply c → P.Code P.Result}
    (hx : P.unfold x.code = .call (.own c) k)
    (h : Leads cap ⟨k (P.answer x.state c).1, (P.answer x.state c).2⟩ y T) : Leads cap x y T := by
  obtain ⟨ls, t, hr, ht⟩ := h
  refine ⟨.left :: ls, t, .cons ?_ hr, ht⟩
  simp [duplexLts, Duplex.next, Party.step, hx]

theorem Leads.ownRight {c : Q.Own.Call} {k : Q.Own.Reply c → Q.Code Q.Result}
    (hy : Q.unfold y.code = .call (.own c) k)
    (h : Leads cap x ⟨k (Q.answer y.state c).1, (Q.answer y.state c).2⟩ T) : Leads cap x y T := by
  obtain ⟨ls, t, hr, ht⟩ := h
  refine ⟨.right :: ls, t, .cons ?_ hr, ht⟩
  simp [duplexLts, Duplex.next, Party.step, hy]

theorem Leads.passLeft (hcap : cap ≠ some 0) {b : B} {k : Unit → P.Code P.Result}
    {m : B → Q.Code Q.Result} (hx : P.unfold x.code = .call (.send b) k)
    (hy : Q.unfold y.code = .call .recv m) (h : Leads cap ⟨k (), x.state⟩ ⟨m b, y.state⟩ T) :
    Leads cap x y T := by
  obtain ⟨ls, t, hr, ht⟩ := h
  have hroom := room_zero hcap
  have h1 : (⟨x, y, [], []⟩ : Duplex P Q).next cap .left = some ⟨⟨k (), x.state⟩, y, [b], []⟩ := by
    simp [Duplex.next, Party.step, hx, hroom]
  have h2 : (⟨⟨k (), x.state⟩, y, [b], []⟩ : Duplex P Q).next cap .right =
      some ⟨⟨k (), x.state⟩, ⟨m b, y.state⟩, [], []⟩ := by
    simp [Duplex.next, Party.step, hy]
  exact ⟨.left :: .right :: ls, t, .cons h1 (.cons h2 hr), ht⟩

theorem Leads.passRight (hcap : cap ≠ some 0) {b : B} {k : B → P.Code P.Result}
    {m : Unit → Q.Code Q.Result} (hx : P.unfold x.code = .call .recv k)
    (hy : Q.unfold y.code = .call (.send b) m) (h : Leads cap ⟨k b, x.state⟩ ⟨m (), y.state⟩ T) :
    Leads cap x y T := by
  obtain ⟨ls, t, hr, ht⟩ := h
  have hroom := room_zero hcap
  have h1 : (⟨x, y, [], []⟩ : Duplex P Q).next cap .right = some ⟨x, ⟨m (), y.state⟩, [], [b]⟩ := by
    simp [Duplex.next, Party.step, hy, hroom]
  have h2 : (⟨x, ⟨m (), y.state⟩, [], [b]⟩ : Duplex P Q).next cap .left =
      some ⟨⟨k b, x.state⟩, ⟨m (), y.state⟩, [], []⟩ := by
    simp [Duplex.next, Party.step, hx]
  exact ⟨.right :: .left :: ls, t, .cons h1 (.cons h2 hr), ht⟩

/-- The left party sends a block the right one reads. -/
theorem Leads.sendLeft (hcap : cap ≠ some 0) (bs : List B) {k : Unit → P.Code P.Result}
    {m : List B → Q.Code Q.Result} {w : P.State} {v : Q.State}
    (h : Leads cap ⟨k (), w⟩ ⟨m bs, v⟩ T) :
    Leads cap ⟨sendAll bs >>= k, w⟩ ⟨recvAll bs.length >>= m, v⟩ T := by
  induction bs generalizing m with
  | nil => exact h
  | cons b bs ih =>
    rw [sendAll_cons_bind, List.length_cons, recvAll_succ_bind]
    exact Leads.passLeft hcap rfl rfl (ih h)

theorem Leads.sendRight (hcap : cap ≠ some 0) (bs : List B) {k : List B → P.Code P.Result}
    {m : Unit → Q.Code Q.Result} {w : P.State} {v : Q.State}
    (h : Leads cap ⟨k bs, w⟩ ⟨m (), v⟩ T) :
    Leads cap ⟨recvAll bs.length >>= k, w⟩ ⟨sendAll bs >>= m, v⟩ T := by
  induction bs generalizing k with
  | nil => exact h
  | cons b bs ih =>
    rw [sendAll_cons_bind, List.length_cons, recvAll_succ_bind]
    exact Leads.passRight hcap rfl rfl (ih h)

/-- The same when the reader is at the top of its loop. -/
theorem Leads.sendLeft_again (hcap : cap ≠ some 0) {bs : List B} (hbs : bs ≠ []) {a : Q.Result}
    {k : Unit → P.Code P.Result} {m : List B → Q.Code Q.Result} {w : P.State} {v : Q.State}
    (ha : Q.again a = some (recvAll bs.length >>= m)) (h : Leads cap ⟨k (), w⟩ ⟨m bs, v⟩ T) :
    Leads cap ⟨sendAll bs >>= k, w⟩ ⟨.ret a, v⟩ T := by
  obtain ⟨b, bs, rfl⟩ := List.exists_cons_of_ne_nil hbs
  rw [List.length_cons, recvAll_succ_bind] at ha
  exact Leads.passLeft hcap rfl (by simp only [Party.unfold, ha]; rfl) (Leads.sendLeft hcap bs h)

theorem Leads.sendRight_again (hcap : cap ≠ some 0) {bs : List B} (hbs : bs ≠ []) {a : P.Result}
    {k : List B → P.Code P.Result} {m : Unit → Q.Code Q.Result} {w : P.State} {v : Q.State}
    (ha : P.again a = some (recvAll bs.length >>= k)) (h : Leads cap ⟨k bs, w⟩ ⟨m (), v⟩ T) :
    Leads cap ⟨.ret a, w⟩ ⟨sendAll bs >>= m, v⟩ T := by
  obtain ⟨b, bs, rfl⟩ := List.exists_cons_of_ne_nil hbs
  rw [List.length_cons, recvAll_succ_bind] at ha
  exact Leads.passRight hcap (by simp only [Party.unfold, ha]; rfl) rfl (Leads.sendRight hcap bs h)

end

/-! ## Code that sends last -/

section
variable {L : Sig} {F A C : Type}

/-- No call but a send is followed by the return of a value in `φ`. -/
def LastSend (φ : A → Prop) : Prog (portSig B L) F A → Prop
  | .ret _ => True
  | .fault _ => True
  | .call c k => (∀ r, LastSend φ (k r)) ∧ ((∃ b, c = .send b) ∨ ∀ r a, k r = .ret a → ¬ φ a)

/-- Not a return in `φ`. -/
def NotRet (φ : A → Prop) (p : Prog (portSig B L) F A) : Prop := ∀ a, p = .ret a → ¬ φ a

theorem lastSend_bind {φ : A → Prop} {f : C → Prog (portSig B L) F A}
    (hf : ∀ c, LastSend φ (f c) ∧ NotRet φ (f c)) (p : Prog (portSig B L) F C) :
    LastSend φ (p >>= f) ∧ NotRet φ (p >>= f) := by
  induction p with
  | ret c => exact hf c
  | fault e => exact ⟨trivial, fun a h => by cases h⟩
  | call c k ih => exact ⟨⟨fun r => (ih r).1, .inr fun r => (ih r).2⟩, fun a h => by cases h⟩

/-- After a block that was sent, a return is fine. -/
theorem lastSend_sendAll {φ : A → Prop} {f : Unit → Prog (portSig B L) F A} (hf : LastSend φ (f ()))
    (bs : List B) : LastSend φ (sendAll bs >>= f) := by
  induction bs with
  | nil => exact hf
  | cons b bs ih => exact ⟨fun _ => ih, .inl ⟨b, rfl⟩⟩

theorem notRet_sendAll {φ : A → Prop} {f : Unit → Prog (portSig B L) F A} {bs : List B}
    (hbs : bs ≠ []) :
    NotRet φ (sendAll bs >>= f) := by
  obtain ⟨b, bs, rfl⟩ := List.exists_cons_of_ne_nil hbs
  exact fun a h => by cases h

end

section
variable {P Q : Party B} {cap : Option Nat} {φ : Q.Result → Prop}

theorem lastSend_unfold (hagain : ∀ a p, Q.again a = some p → LastSend φ p) {p : Q.Code Q.Result}
    (h : LastSend φ p) : LastSend φ (Q.unfold p) := by
  cases p with
  | ret a =>
    cases ha : Q.again a with
    | none => simp [Party.unfold, ha, LastSend]
    | some p => simpa [Party.unfold, ha] using hagain a p ha
  | fault e => exact h
  | call c k => exact h

/-- What the right party still runs sends last. -/
theorem lastSend_next (hagain : ∀ a p, Q.again a = some p → LastSend φ p) {s s' : Duplex P Q}
    {l : Side} (hs : s.next cap l = some s') (h : LastSend φ s.right.code) :
    LastSend φ s'.right.code := by
  cases l with
  | left =>
    obtain ⟨r, _, rfl⟩ := Option.map_eq_some_iff.1 hs
    exact h
  | right =>
    obtain ⟨r, hr, rfl⟩ := Option.map_eq_some_iff.1 hs
    have hu := lastSend_unfold hagain h
    unfold Party.step at hr
    generalize Q.unfold s.right.code = p at hu hr
    split at hr
    · cases hr
    · cases hr
    · split at hr <;> cases hr
      exact hu.1 _
    · split at hr <;> cases hr
      exact hu.1 _
    · cases hr
      exact hu.1 _

/-- A step into a return in `φ` leaves an item for the left party. -/
theorem toLeft_of_lastSend (hagain : ∀ a p, Q.again a = some p → LastSend φ p) {s t : Duplex P Q}
    (hs : s.next cap .right = some t) (h : LastSend φ s.right.code) {a : Q.Result}
    (ht : t.right.code = .ret a) (ha : φ a) : t.toLeft ≠ [] := by
  obtain ⟨r, hr, rfl⟩ := Option.map_eq_some_iff.1 hs
  have hu := lastSend_unfold hagain h
  unfold Party.step at hr
  generalize Q.unfold s.right.code = p at hu hr
  have hlast : ∀ c k r, p = .call c k → k r = .ret a → ∃ b, c = .send b := by
    intro c k r hp hk
    subst hp
    exact hu.2.resolve_right fun hno => hno r a hk ha
  split at hr
  · cases hr
  · cases hr
  · split at hr <;> cases hr
    simp
  · split at hr <;> cases hr
    obtain ⟨b, hb⟩ := hlast _ _ _ rfl ht
    cases hb
  · cases hr
    obtain ⟨b, hb⟩ := hlast _ _ _ rfl ht
    cases hb

/-- The left party has finished, and the run ends with the right one at a
return in `φ` and nothing left to read: the run was over already. -/
theorem idle_of_lastSend (hagain : ∀ a p, Q.again a = some p → LastSend φ p) {s t : Duplex P Q}
    {ls : List Side} (hr : (duplexLts P Q cap).Run s ls t) {v : P.Result} (hv : P.again v = none)
    (hleft : s.left.code = .ret v) (h : LastSend φ s.right.code) {a : Q.Result}
    (ht : t.right.code = .ret a) (ha : φ a) (he : t.toLeft = []) : s = t := by
  induction hr with
  | nil => rfl
  | @cons s s₁ t l ls hs hr ih =>
    cases l with
    | left => simp [duplexLts, Duplex.next, Party.step, Party.unfold, hleft, hv] at hs
    | right =>
      have hl : s₁.left = s.left := by
        obtain ⟨r, _, rfl⟩ := Option.map_eq_some_iff.1 hs
        rfl
      have h1 := ih (by rw [hl, hleft]) (lastSend_next hagain hs h) ht he
      subst h1
      exact absurd he (toLeft_of_lastSend hagain hs h ht ha)

end

end AcsVirt
