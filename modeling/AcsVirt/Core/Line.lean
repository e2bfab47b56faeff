import AcsVirt.Core.Duplex

/-!
# A line that may be hung up

`Duplex` connects two parties by streams that never break. Here either end may
hang up: code over `lineSig` is told whether an item was sent and whether one
was received. A client's fault is its way to hang up; it then returns what
`lost` makes of the fault and redials at its next request. A server serves one
connection until its code returns, closes it and accepts the next one with the
result `greet` makes of the last. A server that sends into a connection whose
client has gone is killed (`SIGPIPE`), and so is one that faults.

What the kernel holds between the two is `Wire`: a connection may be open at
both ends, or closed at one while the other has not noticed; the client may
have dialled again while the server is still at the old connection. Items sent
before a hang-up are still delivered.

While nobody hangs up the two parties are a `Duplex` (`LineParty.open`), and an
exchange is followed in rendezvous order with `Talks`, which has the rules of
`Leads`. `Prog.live` is the code that takes success for granted.
-/
namespace AcsVirt

inductive LineCall (B : Type) (L : Sig) where
  | send (b : B)
  | recv
  | own (c : L.Call)

@[reducible] def lineSig (B : Type) (L : Sig) : Sig where
  Call := LineCall B L
  Reply
    | .send _ => Bool
    | .recv => Option B
    | .own c => L.Reply c

structure LineParty (B : Type) where
  Own : Sig
  Fault : Type
  State : Type
  Result : Type
  answer : State → (c : Own.Call) → Own.Reply c × State
  again : Result → Option (Prog (lineSig B Own) Fault Result)

variable {B : Type}

abbrev LineParty.Code (P : LineParty B) := Prog (lineSig B P.Own) P.Fault P.Result

/-- The code that runs next: at a return, what the party goes on with. -/
def LineParty.unfold (P : LineParty B) : P.Code → P.Code
  | .ret a => (P.again a).getD (.ret a)
  | p => p

/-! ## Blocks of items -/

namespace Line

variable {L : Sig} {F A : Type}

/-- Send a block; false at the first item that is not sent. -/
def sendAll : List B → Prog (lineSig B L) F Bool
  | [] => .ret true
  | b :: bs => .call (.send b) fun ok => if ok then sendAll bs else .ret false

/-- Receive a block; `none` if the line ends before. -/
def recvAll : Nat → Prog (lineSig B L) F (Option (List B))
  | 0 => .ret (some [])
  | n + 1 => .call .recv fun
    | none => .ret none
    | some b => recvAll n >>= fun bs => .ret (bs.map (b :: ·))

/-- A call of the party's own. -/
def own (c : L.Call) : Prog (lineSig B L) F (L.Reply c) := Prog.perform (S := lineSig B L) (.own c)

theorem sendAll_cons_bind (b : B) (bs : List B) (k : Bool → Prog (lineSig B L) F A) :
    sendAll (b :: bs) >>= k = .call (.send b) fun ok => if ok then sendAll bs >>= k else k false := by
  show Prog.call _ _ = _
  congr 1
  funext ok
  cases ok <;> rfl

theorem recvAll_succ_bind (n : Nat) (k : Option (List B) → Prog (lineSig B L) F A) :
    recvAll (n + 1) >>= k = .call .recv fun
      | none => k none
      | some b => recvAll n >>= fun bs => k (bs.map (b :: ·)) := by
  show Prog.call _ _ = _
  congr 1
  funext r
  cases r with
  | none => rfl
  | some b => exact Prog.bind_assoc _ _ _

end Line

/-! ## On an open line -/

section
variable (P : LineParty B)

/-- The next call on an open line, with the code after it. -/
def LineParty.onward (p : P.Code) : Option (Prog (portSig B P.Own) Empty P.Code) :=
  match P.unfold p with
  | .ret _ => none
  | .fault _ => none
  | .call (.send b) k => some (.call (.send b) fun _ => .ret (k true))
  | .call .recv k => some (.call .recv fun b => .ret (k (some b)))
  | .call (.own c) k => some (.call (.own c) fun r => .ret (k r))

/-- The party while nobody hangs up. -/
abbrev LineParty.open : Party B where
  Own := P.Own
  Fault := Empty
  State := P.State
  Result := P.Code
  answer := P.answer
  again := P.onward

end

variable {P Q : LineParty B}

/-- A client running `p` and a server running `q`, on an open line. -/
abbrev duo (p : P.Code) (st : P.State) (q : Q.Code) (h : Q.State) (toServer toClient : List B) :
    Duplex P.open Q.open :=
  ⟨⟨.ret p, st⟩, ⟨.ret q, h⟩, toServer, toClient⟩

section
variable {cap : Option Nat} {p : P.Code} {st : P.State} {q : Q.Code} {h : Q.State} {ts tc : List B}

/-- What the client can do on an open line. -/
theorem duo_left_cases {x : Duplex P.open Q.open}
    (hx : (duo p st q h ts tc).next cap .left = some x) :
    (∃ b k, P.unfold p = .call (.send b) k ∧ room cap ts.length = true ∧
      x = duo (k true) st q h (ts ++ [b]) tc) ∨
    (∃ k b tc', P.unfold p = .call .recv k ∧ tc = b :: tc' ∧ x = duo (k (some b)) st q h ts tc') ∨
    (∃ c k, P.unfold p = .call (.own c) k ∧
      x = duo (k (P.answer st c).1) (P.answer st c).2 q h ts tc) := by
  unfold Duplex.next Party.step Party.unfold LineParty.open LineParty.onward at hx
  cases hp : P.unfold p with
  | ret a => simp [hp] at hx
  | fault e => simp [hp] at hx
  | call c k =>
    cases c with
    | send b =>
      simp only [hp, Option.getD_some] at hx
      split at hx
      next hroom => exact .inl ⟨b, k, rfl, hroom, (Option.some.inj hx).symm⟩
      · cases hx
    | recv =>
      simp only [hp, Option.getD_some] at hx
      cases tc with
      | nil => cases hx
      | cons b tc' => exact .inr (.inl ⟨k, b, tc', rfl, rfl, (Option.some.inj hx).symm⟩)
    | own c => simp only [hp, Option.getD_some] at hx; exact .inr (.inr ⟨c, k, rfl, (Option.some.inj hx).symm⟩)

/-- What the server can do on an open line. -/
theorem duo_right_cases {x : Duplex P.open Q.open}
    (hx : (duo p st q h ts tc).next cap .right = some x) :
    (∃ b k, Q.unfold q = .call (.send b) k ∧ room cap tc.length = true ∧
      x = duo p st (k true) h ts (tc ++ [b])) ∨
    (∃ k b ts', Q.unfold q = .call .recv k ∧ ts = b :: ts' ∧ x = duo p st (k (some b)) h ts' tc) ∨
    (∃ c k, Q.unfold q = .call (.own c) k ∧
      x = duo p st (k (Q.answer h c).1) (Q.answer h c).2 ts tc) := by
  unfold Duplex.next Party.step Party.unfold LineParty.open LineParty.onward at hx
  cases hq : Q.unfold q with
  | ret a => simp [hq] at hx
  | fault e => simp [hq] at hx
  | call c k =>
    cases c with
    | send b =>
      simp only [hq, Option.getD_some] at hx
      split at hx
      next hroom => exact .inl ⟨b, k, rfl, hroom, (Option.some.inj hx).symm⟩
      · cases hx
    | recv =>
      simp only [hq, Option.getD_some] at hx
      cases ts with
      | nil => cases hx
      | cons b ts' => exact .inr (.inl ⟨k, b, ts', rfl, rfl, (Option.some.inj hx).symm⟩)
    | own c => simp only [hq, Option.getD_some] at hx; exact .inr (.inr ⟨c, k, rfl, (Option.some.inj hx).symm⟩)

theorem duo_send_left {b : B} {k : Bool → P.Code} (hp : P.unfold p = .call (.send b) k)
    (hroom : room cap ts.length = true) :
    (duo p st q h ts tc).next cap .left = some (duo (k true) st q h (ts ++ [b]) tc) := by
  simp [Duplex.next, Party.step, Party.unfold, LineParty.onward, hp, hroom]

theorem duo_recv_left {b : B} {k : Option B → P.Code} (hp : P.unfold p = .call .recv k) :
    (duo p st q h ts (b :: tc)).next cap .left = some (duo (k (some b)) st q h ts tc) := by
  simp [Duplex.next, Party.step, Party.unfold, LineParty.onward, hp]

theorem duo_own_left {c : P.Own.Call} {k : P.Own.Reply c → P.Code}
    (hp : P.unfold p = .call (.own c) k) :
    (duo p st q h ts tc).next cap .left =
      some (duo (k (P.answer st c).1) (P.answer st c).2 q h ts tc) := by
  simp [Duplex.next, Party.step, Party.unfold, LineParty.onward, hp]

theorem duo_send_right {b : B} {k : Bool → Q.Code} (hq : Q.unfold q = .call (.send b) k)
    (hroom : room cap tc.length = true) :
    (duo p st q h ts tc).next cap .right = some (duo p st (k true) h ts (tc ++ [b])) := by
  simp [Duplex.next, Party.step, Party.unfold, LineParty.onward, hq, hroom]

theorem duo_recv_right {b : B} {k : Option B → Q.Code} (hq : Q.unfold q = .call .recv k) :
    (duo p st q h (b :: ts) tc).next cap .right = some (duo p st (k (some b)) h ts tc) := by
  simp [Duplex.next, Party.step, Party.unfold, LineParty.onward, hq]

theorem duo_own_right {c : Q.Own.Call} {k : Q.Own.Reply c → Q.Code}
    (hq : Q.unfold q = .call (.own c) k) :
    (duo p st q h ts tc).next cap .right =
      some (duo p st (k (Q.answer h c).1) (Q.answer h c).2 ts tc) := by
  simp [Duplex.next, Party.step, Party.unfold, LineParty.onward, hq]

end

/-! ## Hanging up -/

inductive Wire (B : Type) where
  /-- neither end has a connection -/
  | off
  | up (toServer toClient : List B)
  /-- the server has closed its end -/
  | left (toClient : List B)
  /-- the client has closed its end -/
  | right (toServer : List B)
  /-- the client has dialled, the server has not accepted yet -/
  | queued (toServer : List B)
  /-- the same, with the server still at an old connection -/
  | behind (old toServer : List B)

inductive Server (Q : LineParty B) where
  | accepting (a : Q.Result)
  | serving (q : Q.Code)
  | dead

structure Net (P Q : LineParty B) where
  client : P.Code
  state : P.State
  server : Server Q
  host : Q.State
  wire : Wire B

structure Request (P : LineParty B) where
  code : P.Code
  /-- the fault of a request that finds nobody listening -/
  lost : P.Fault

/-- The client sends: whether it succeeds, and the wire after it; `none` to
wait. -/
def Wire.send (cap : Option Nat) (b : B) : Wire B → Option (Bool × Wire B)
  | .up ts tc => if room cap ts.length then some (true, .up (ts ++ [b]) tc) else none
  | .queued ts => if room cap ts.length then some (true, .queued (ts ++ [b])) else none
  | .behind old ts => if room cap ts.length then some (true, .behind old (ts ++ [b])) else none
  | .left tc => some (false, .left tc)
  | .off | .right _ => none

/-- The client receives, data before the end of the line. -/
def Wire.recv : Wire B → Option (Option B × Wire B)
  | .up ts (b :: tc) => some (some b, .up ts tc)
  | .left (b :: tc) => some (some b, .left tc)
  | .left [] => some (none, .left [])
  | _ => none

def Wire.hangUp : Wire B → Option (Wire B)
  | .up ts _ => some (.right ts)
  | .left _ => some .off
  | _ => none

/-- The server sends; `some none` if nobody is at the other end any more. -/
def Wire.put (cap : Option Nat) (b : B) : Wire B → Option (Option (Wire B))
  | .up ts tc => if room cap tc.length then some (some (.up ts (tc ++ [b]))) else none
  | .right _ | .behind _ _ => some none
  | _ => none

def Wire.take : Wire B → Option (Option B × Wire B)
  | .up (b :: ts) tc => some (some b, .up ts tc)
  | .right (b :: ts) => some (some b, .right ts)
  | .right [] => some (none, .right [])
  | .behind (b :: old) ts => some (some b, .behind old ts)
  | .behind [] ts => some (none, .behind [] ts)
  | _ => none

/-- The server closes the connection it serves. -/
def Wire.close : Wire B → Wire B
  | .up _ tc => .left tc
  | .right _ => .off
  | .behind _ ts => .queued ts
  | w => w

/-- The server's process ends, and its listening socket with it. -/
def Wire.orphan : Wire B → Wire B
  | .up _ tc => .left tc
  | .right _ => .off
  | .behind _ _ => .left []
  | w => w

section
variable (lost : P.Fault → P.Result) (greet : Q.Result → Q.Result) (cap : Option Nat)

def Net.clientMove (s : Net P Q) : Option (Net P Q) :=
  match P.unfold s.client with
  | .ret _ => none
  | .fault e => s.wire.hangUp.map fun w => { s with client := .ret (lost e), wire := w }
  | .call (.send b) k => (s.wire.send cap b).map fun r => { s with client := k r.1, wire := r.2 }
  | .call .recv k => s.wire.recv.map fun r => { s with client := k r.1, wire := r.2 }
  | .call (.own c) k =>
    some { s with client := k (P.answer s.state c).1, state := (P.answer s.state c).2 }

def Net.die (s : Net P Q) : Net P Q := { s with server := .dead, wire := s.wire.orphan }

/-- A move of a server at a connection. -/
def Net.serve (s : Net P Q) (q : Q.Code) : Option (Net P Q) :=
  match Q.unfold q with
  | .ret a => some { s with server := .accepting a, wire := s.wire.close }
  | .fault _ => some s.die
  | .call (.send b) k =>
    (s.wire.put cap b).map fun
      | some w => { s with server := .serving (k true), wire := w }
      | none => s.die
  | .call .recv k => s.wire.take.map fun r => { s with server := .serving (k r.1), wire := r.2 }
  | .call (.own c) k =>
    some { s with server := .serving (k (Q.answer s.host c).1), host := (Q.answer s.host c).2 }

def Net.serverMove (s : Net P Q) : Option (Net P Q) :=
  match s.server with
  | .dead => none
  | .accepting a =>
    match s.wire with
    | .queued ts => some { s with server := .serving (.ret (greet a)), wire := .up ts [] }
    | _ => none
  | .serving q => s.serve cap q

/-- A new request: on the connection the client has, or on a new one. -/
def Net.request (s : Net P Q) (r : Request P) : Net P Q :=
  match s.wire with
  | .off =>
    match s.server with
    | .accepting _ => { s with client := r.code, wire := .queued [] }
    | _ => { s with client := .ret (lost r.lost) }
  | .right old => { s with client := r.code, wire := .behind old [] }
  | _ => { s with client := r.code }

def Net.move (s : Net P Q) : Side → Option (Net P Q)
  | .left => s.clientMove lost cap
  | .right => s.serverMove greet cap

/-- The moves of the two parties, from any state. -/
def moveLts : LTS (Net P Q) Side where
  init _ := True
  step s side s' := s.move lost greet cap side = some s'

end

/-! ## Rendezvous order -/

section
variable {cap : Option Nat} {p : P.Code} {s : P.State} {q : Q.Code} {h : Q.State}
  {T : Duplex P.open Q.open → Prop}

/-- A client at `p` and a server at `q`, with nothing on the way, can get to a
state in `T`. -/
abbrev Talks (cap : Option Nat) (T : Duplex P.open Q.open → Prop) (p : P.Code) (s : P.State)
    (q : Q.Code) (h : Q.State) : Prop :=
  ∃ ls t, (duplexLts P.open Q.open cap).Run (duo p s q h [] []) ls t ∧ T t

theorem Talks.step {ts tc : List B} {side : Side} {x : Duplex P.open Q.open}
    (hx : (duo p s q h ts tc).next cap side = some x)
    (ht : ∃ ls t, (duplexLts P.open Q.open cap).Run x ls t ∧ T t) :
    ∃ ls t, (duplexLts P.open Q.open cap).Run (duo p s q h ts tc) ls t ∧ T t := by
  obtain ⟨ls, t, hr, ht⟩ := ht
  exact ⟨side :: ls, t, .cons hx hr, ht⟩

theorem Talks.ownLeft {c : P.Own.Call} {k : P.Own.Reply c → P.Code}
    (hp : P.unfold p = .call (.own c) k)
    (ht : Talks cap T (k (P.answer s c).1) (P.answer s c).2 q h) : Talks cap T p s q h :=
  Talks.step (duo_own_left hp) ht

theorem Talks.ownRight {c : Q.Own.Call} {k : Q.Own.Reply c → Q.Code}
    (hq : Q.unfold q = .call (.own c) k)
    (ht : Talks cap T p s (k (Q.answer h c).1) (Q.answer h c).2) : Talks cap T p s q h :=
  Talks.step (duo_own_right hq) ht

theorem Talks.passLeft (hcap : cap ≠ some 0) {b : B} {k : Bool → P.Code} {m : Option B → Q.Code}
    (hp : P.unfold p = .call (.send b) k) (hq : Q.unfold q = .call .recv m)
    (ht : Talks cap T (k true) s (m (some b)) h) : Talks cap T p s q h :=
  Talks.step (duo_send_left hp (show room cap ([] : List B).length = true from room_zero hcap))
    (Talks.step (duo_recv_right hq) ht)

theorem Talks.passRight (hcap : cap ≠ some 0) {b : B} {k : Option B → P.Code} {m : Bool → Q.Code}
    (hp : P.unfold p = .call .recv k) (hq : Q.unfold q = .call (.send b) m)
    (ht : Talks cap T (k (some b)) s (m true) h) : Talks cap T p s q h :=
  Talks.step (duo_send_right hq (show room cap ([] : List B).length = true from room_zero hcap))
    (Talks.step (duo_recv_left hp) ht)

/-- The client sends a block the server reads. -/
theorem Talks.sendLeft (hcap : cap ≠ some 0) (bs : List B) {k : Bool → P.Code}
    {m : Option (List B) → Q.Code} (ht : Talks cap T (k true) s (m (some bs)) h) :
    Talks cap T (Line.sendAll bs >>= k) s (Line.recvAll bs.length >>= m) h := by
  induction bs generalizing m with
  | nil => exact ht
  | cons b bs ih =>
    rw [Line.sendAll_cons_bind, List.length_cons, Line.recvAll_succ_bind]
    exact Talks.passLeft hcap rfl rfl (ih ht)

theorem Talks.sendRight (hcap : cap ≠ some 0) (bs : List B) {k : Option (List B) → P.Code}
    {m : Bool → Q.Code} (ht : Talks cap T (k (some bs)) s (m true) h) :
    Talks cap T (Line.recvAll bs.length >>= k) s (Line.sendAll bs >>= m) h := by
  induction bs generalizing k with
  | nil => exact ht
  | cons b bs ih =>
    rw [Line.sendAll_cons_bind, List.length_cons, Line.recvAll_succ_bind]
    exact Talks.passRight hcap rfl rfl (ih ht)

/-- The same when the reader is at the top of its loop. -/
theorem Talks.sendLeft_again (hcap : cap ≠ some 0) {bs : List B} (hbs : bs ≠ []) {a : Q.Result}
    {k : Bool → P.Code} {m : Option (List B) → Q.Code}
    (ha : Q.again a = some (Line.recvAll bs.length >>= m))
    (ht : Talks cap T (k true) s (m (some bs)) h) :
    Talks cap T (Line.sendAll bs >>= k) s (.ret a) h := by
  obtain ⟨b, bs, rfl⟩ := List.exists_cons_of_ne_nil hbs
  rw [List.length_cons, Line.recvAll_succ_bind] at ha
  rw [Line.sendAll_cons_bind]
  exact Talks.passLeft hcap rfl (by simp only [LineParty.unfold, ha]; rfl) (Talks.sendLeft hcap bs ht)

theorem Talks.sendRight_again (hcap : cap ≠ some 0) {bs : List B} (hbs : bs ≠ []) {a : P.Result}
    {k : Option (List B) → P.Code} {m : Bool → Q.Code}
    (ha : P.again a = some (Line.recvAll bs.length >>= k))
    (ht : Talks cap T (k (some bs)) s (m true) h) :
    Talks cap T (.ret a) s (Line.sendAll bs >>= m) h := by
  obtain ⟨b, bs, rfl⟩ := List.exists_cons_of_ne_nil hbs
  rw [List.length_cons, Line.recvAll_succ_bind] at ha
  rw [Line.sendAll_cons_bind]
  exact Talks.passRight hcap (by simp only [LineParty.unfold, ha]; rfl) rfl (Talks.sendRight hcap bs ht)

end

/-! ## Success taken for granted -/

section
variable {L : Sig} {F G A C : Type} (φ : F → G)

/-- The code on a line that nobody hangs up. -/
def Prog.live : Prog (lineSig B L) F A → Prog (portSig B L) G A
  | .ret a => .ret a
  | .fault e => .fault (φ e)
  | .call (.send b) k => .call (.send b) fun _ => (k true).live
  | .call .recv k => .call .recv fun b => (k (some b)).live
  | .call (.own c) k => .call (.own c) fun r => (k r).live

theorem Line.live_sendAll (bs : List B) (f : Bool → Prog (lineSig B L) F A) :
    (Line.sendAll bs >>= f).live φ = AcsVirt.sendAll bs >>= fun _ => (f true).live φ := by
  induction bs with
  | nil => rfl
  | cons b bs ih =>
    rw [Line.sendAll_cons_bind]
    exact congrArg (Prog.call _) (funext fun _ => ih)

theorem Line.live_recvAll (n : Nat) (f : Option (List B) → Prog (lineSig B L) F A) :
    (Line.recvAll n >>= f).live φ = AcsVirt.recvAll n >>= fun bs => (f (some bs)).live φ := by
  induction n generalizing f with
  | zero => rfl
  | succ n ih =>
    rw [Line.recvAll_succ_bind, AcsVirt.recvAll_succ_bind]
    exact congrArg (Prog.call _) (funext fun b => ih _)

theorem Line.live_own (c : L.Call) (f : L.Reply c → Prog (lineSig B L) F A) :
    (Line.own c >>= f).live φ = AcsVirt.own c >>= fun r => (f r).live φ := rfl

end

end AcsVirt
