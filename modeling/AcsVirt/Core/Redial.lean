import AcsVirt.Core.Line

/-!
# How a request to a redialling client ends

On an open line one run of an exchange decides all of them. A hang-up is not
confluent by itself: an item may be sent just before or just after it. Four
predicates say when this does not matter:

* `Doomed`: however its sends are answered, a client whose server is gone ends
  with a given result;
* `Solo`: what becomes of a server whose client is gone;
* `Says`, `Hears`: the client waits after some items, the server stops after a
  first part of them without a word.

`Track F n s`: from `s` at most `n` moves are left, and they end as `F` says,
in whatever order they are made (`Track.move`, `Track.progress`,
`Track.settles`). A request leads from one such end to the next
(`Track.request`).
-/
namespace AcsVirt

variable {B : Type} {P Q : LineParty B}

/-! ## What is bound to happen -/

/-- What becomes of the server: it waits at the top of its loop or accepts a
new connection, or it is gone. -/
inductive Fate (Q : LineParty B) where
  | up (a : Q.Result) (h : Q.State)
  | down (a : Q.Result) (h : Q.State)
  | dead (h : Q.State)

/-- How a request ends. -/
structure Finish (P Q : LineParty B) where
  result : P.Result
  returns : P.again result = none
  ok : P.State → Prop
  fate : Fate Q

/-- The server is gone and `inp` is what is left of its words: in at most `n`
moves the client gives up, in a state in `ok` and with result `v`. -/
inductive Doomed (lost : P.Fault → P.Result) (v : P.Result) (ok : P.State → Prop) :
    Nat → P.Code → List B → P.State → Prop
  | fault {n p e inp st} (hp : P.unfold p = .fault e) (hv : lost e = v) (hst : ok st) :
      Doomed lost v ok n p inp st
  | send {m n p b k inp st} (hp : P.unfold p = .call (.send b) k) (hn : m < n)
      (hsent : Doomed lost v ok m (k true) inp st) (hfail : Doomed lost v ok m (k false) inp st) :
      Doomed lost v ok n p inp st
  | recv {m n p k b inp st} (hp : P.unfold p = .call .recv k) (hn : m < n)
      (hk : Doomed lost v ok m (k (some b)) inp st) : Doomed lost v ok n p (b :: inp) st
  | eof {m n p k st} (hp : P.unfold p = .call .recv k) (hn : m < n)
      (hk : Doomed lost v ok m (k none) [] st) : Doomed lost v ok n p [] st
  | own {m n p c k inp st} (hp : P.unfold p = .call (.own c) k) (hn : m < n)
      (hk : Doomed lost v ok m (k (P.answer st c).1) inp (P.answer st c).2) :
      Doomed lost v ok n p inp st

/-- The client is gone and `inp` is what is left of its words: in at most `n`
moves the server gets to its fate. -/
inductive Solo (fate : Fate Q) : Nat → Q.Code → List B → Q.State → Prop
  | ret {n q a inp h} (hq : Q.unfold q = .ret a) (hf : fate = .down a h) : Solo fate n q inp h
  | fault {n q e inp h} (hq : Q.unfold q = .fault e) (hf : fate = .dead h) : Solo fate n q inp h
  | send {n q b k inp h} (hq : Q.unfold q = .call (.send b) k) (hf : fate = .dead h) :
      Solo fate n q inp h
  | recv {m n q k b inp h} (hq : Q.unfold q = .call .recv k) (hn : m < n)
      (hk : Solo fate m (k (some b)) inp h) : Solo fate n q (b :: inp) h
  | eof {m n q k h} (hq : Q.unfold q = .call .recv k) (hn : m < n) (hk : Solo fate m (k none) [] h) :
      Solo fate n q [] h
  | own {m n q c k inp h} (hq : Q.unfold q = .call (.own c) k) (hn : m < n)
      (hk : Solo fate m (k (Q.answer h c).1) inp (Q.answer h c).2) : Solo fate n q inp h

/-- If it hears nothing the client sends `bs` and waits. -/
inductive Says : List B → P.Code → P.State → Prop
  | wait {p k st} (hp : P.unfold p = .call .recv k) : Says [] p st
  | send {bs p b k st} (hp : P.unfold p = .call (.send b) k) (hk : Says bs (k true) st) :
      Says (b :: bs) p st
  | own {bs p c k st} (hp : P.unfold p = .call (.own c) k)
      (hk : Says bs (k (P.answer st c).1) (P.answer st c).2) : Says bs p st

/-- Given `bs`, the server returns `a` in at most `n` moves, with its host at
`h'` and without having sent anything. -/
inductive Hears (a : Q.Result) (h' : Q.State) : Nat → List B → Q.Code → Q.State → Prop
  | stop {n bs q} (hq : Q.unfold q = .ret a) : Hears a h' n bs q h'
  | recv {m n bs q b k h} (hq : Q.unfold q = .call .recv k) (hn : m < n)
      (hk : Hears a h' m bs (k (some b)) h) : Hears a h' n (b :: bs) q h
  | own {m n bs q c k h} (hq : Q.unfold q = .call (.own c) k) (hn : m < n)
      (hk : Hears a h' m bs (k (Q.answer h c).1) (Q.answer h c).2) : Hears a h' n bs q h

section
variable {lost : P.Fault → P.Result} {v : P.Result} {ok : P.State → Prop} {fate : Fate Q}

theorem Doomed.mono {m n : Nat} {p : P.Code} {inp : List B} {st : P.State}
    (h : Doomed lost v ok m p inp st) (hmn : m ≤ n) : Doomed lost v ok n p inp st := by
  cases h with
  | fault hp hv hst => exact .fault hp hv hst
  | send hp hn h1 h2 => exact .send hp (by omega) h1 h2
  | recv hp hn hk => exact .recv hp (by omega) hk
  | eof hp hn hk => exact .eof hp (by omega) hk
  | own hp hn hk => exact .own hp (by omega) hk

theorem Doomed.not_ret {n : Nat} {p : P.Code} {inp : List B} {st : P.State}
    (h : Doomed lost v ok n p inp st) (a : P.Result) : P.unfold p ≠ .ret a := by
  intro ha
  cases h with
  | fault hp | send hp | recv hp | eof hp | own hp => cases ha.symm.trans hp

theorem Solo.not_up {a : Q.Result} {h' : Q.State} {n : Nat} {q : Q.Code} {inp : List B}
    {h : Q.State} (hq : Solo (.up a h') n q inp h) : False := by
  induction hq with
  | ret _ hf | fault _ hf | send _ hf => cases hf
  | recv _ _ _ ih | eof _ _ _ ih | own _ _ _ ih => exact ih

theorem Says.not_ret {bs : List B} {p : P.Code} {st : P.State} (h : Says bs p st) (a : P.Result) :
    P.unfold p ≠ .ret a := by
  intro ha
  cases h with
  | wait hp | send hp | own hp => cases ha.symm.trans hp

theorem Says.not_fault {bs : List B} {p : P.Code} {st : P.State} (h : Says bs p st) (e : P.Fault) :
    P.unfold p ≠ .fault e := by
  intro ha
  cases h with
  | wait hp | send hp | own hp => cases ha.symm.trans hp

theorem Hears.of_unfold {a : Q.Result} {h h' : Q.State} {n : Nat} {bs : List B} {q q' : Q.Code}
    (hq : Hears a h' n bs q h) (he : Q.unfold q' = Q.unfold q) : Hears a h' n bs q' h := by
  cases hq with
  | stop hq => exact .stop (he.trans hq)
  | recv hq hn hk => exact .recv (he.trans hq) hn hk
  | own hq hn hk => exact .own (he.trans hq) hn hk

theorem Hears.not_send {a : Q.Result} {h h' : Q.State} {n : Nat} {bs : List B} {q : Q.Code}
    (hq : Hears a h' n bs q h) (b : B) (k : Bool → Q.Code) : Q.unfold q ≠ .call (.send b) k := by
  intro hs
  cases hq with
  | stop hq | recv hq | own hq => cases hs.symm.trans hq

theorem Hears.not_fault {a : Q.Result} {h h' : Q.State} {n : Nat} {bs : List B} {q : Q.Code}
    (hq : Hears a h' n bs q h) (e : Q.Fault) : Q.unfold q ≠ .fault e := by
  intro hs
  cases hq with
  | stop hq | recv hq | own hq => cases hs.symm.trans hq

end

/-! ## Blocks of items -/

theorem LineParty.unfold_ret {a : P.Result} (h : P.again a = none) :
    P.unfold (.ret a) = .ret a := by
  simp [LineParty.unfold, h]

theorem LineParty.unfold_again {a : P.Result} {p : P.Code} (h : P.again a = some p) :
    P.unfold (.ret a) = p := by
  simp [LineParty.unfold, h]

/-- A party whose loop begins with a block to read. -/
theorem LineParty.unfold_waits {a : P.Result} {n : Nat} {f : Option (List B) → P.Code}
    (h : P.again a = some (Line.recvAll (n + 1) >>= f)) :
    ∃ k, P.unfold (.ret a) = .call .recv k ∧ k none = f none := by
  rw [Line.recvAll_succ_bind] at h
  exact ⟨_, LineParty.unfold_again h, rfl⟩

section
variable {lost : P.Fault → P.Result} {v : P.Result} {ok : P.State → Prop} {st : P.State} {fate : Fate Q}
  {h : Q.State}

theorem Doomed.sendAll {n : Nat} {k : Bool → P.Code} {inp : List B}
    (hsent : Doomed lost v ok n (k true) inp st) (hfail : Doomed lost v ok n (k false) inp st)
    (bs : List B) : Doomed lost v ok (bs.length + n) (Line.sendAll bs >>= k) inp st := by
  induction bs with
  | nil =>
    rw [List.length_nil, Nat.zero_add]
    exact hsent
  | cons b bs ih =>
    rw [Line.sendAll_cons_bind]
    exact .send rfl (by simp only [List.length_cons]; omega) ih (hfail.mono (by omega))

/-- A client that is to read something when nothing comes any more. -/
theorem Doomed.recvAll {m n : Nat} {k : Option (List B) → P.Code} (hm : 0 < m)
    (hk : Doomed lost v ok n (k none) [] st) :
    Doomed lost v ok (n + 1) (Line.recvAll m >>= k) [] st := by
  obtain ⟨m, rfl⟩ := Nat.exists_eq_succ_of_ne_zero (Nat.pos_iff_ne_zero.1 hm)
  rw [Line.recvAll_succ_bind]
  exact .eof rfl (Nat.lt_succ_self n) hk

theorem Says.sendAll {k : Bool → P.Code} {cs : List B} (hk : Says cs (k true) st) (bs : List B) :
    Says (bs ++ cs) (Line.sendAll bs >>= k) st := by
  induction bs with
  | nil => exact hk
  | cons b bs ih =>
    rw [Line.sendAll_cons_bind]
    exact .send rfl ih

theorem Says.recvAll {m : Nat} (hm : 0 < m) (k : Option (List B) → P.Code) :
    Says [] (Line.recvAll m >>= k) st := by
  obtain ⟨m, rfl⟩ := Nat.exists_eq_succ_of_ne_zero (Nat.pos_iff_ne_zero.1 hm)
  rw [Line.recvAll_succ_bind]
  exact .wait rfl

theorem Hears.recvAll {a : Q.Result} {h' : Q.State} {n : Nat} {k : Option (List B) → Q.Code}
    {bs cs : List B} (hk : Hears a h' n cs (k (some bs)) h) :
    Hears a h' (bs.length + n) (bs ++ cs) (Line.recvAll bs.length >>= k) h := by
  induction bs generalizing k with
  | nil =>
    rw [List.length_nil, Nat.zero_add]
    exact hk
  | cons b bs ih =>
    rw [List.length_cons, Line.recvAll_succ_bind]
    exact .recv rfl (by omega) (ih hk)

/-- The same at the top of the server's loop. -/
theorem Hears.recvAll_again {a : Q.Result} {h' : Q.State} {n : Nat} {f : Option (List B) → Q.Code}
    {bs cs : List B} (hbs : bs ≠ []) {r : Q.Result}
    (hr : Q.again r = some (Line.recvAll bs.length >>= f)) (hk : Hears a h' n cs (f (some bs)) h) :
    Hears a h' (bs.length + n) (bs ++ cs) (.ret r) h := by
  refine (Hears.recvAll hk).of_unfold ?_
  obtain ⟨b, bs, rfl⟩ := List.exists_cons_of_ne_nil hbs
  rw [LineParty.unfold_again hr, List.length_cons, Line.recvAll_succ_bind]
  rfl

/-- A server that sends after its client has gone. -/
theorem Solo.sendAll {bs : List B} (hbs : bs ≠ []) (k : Bool → Q.Code) (inp : List B)
    (hf : fate = .dead h) (n : Nat) : Solo fate n (Line.sendAll bs >>= k) inp h := by
  obtain ⟨b, bs, rfl⟩ := List.exists_cons_of_ne_nil hbs
  rw [Line.sendAll_cons_bind]
  exact .send rfl hf

end

/-! ## The end of an exchange -/

section
variable (lost : P.Fault → P.Result) (F : Finish P Q)

/-- An exchange on an open line has got to a point that decides how it ends:
the request is answered, the server is about to close or to die while the
client waits, or the client is about to hang up while the server waits. -/
inductive Ends : Nat → Duplex P.open Q.open → Prop
  | done {n st a k h} (hst : F.ok st) (hq : Q.unfold (.ret a) = .call .recv k) (hf : F.fate = .up a h) :
      Ends n (duo (.ret F.result) st (.ret a) h [] [])
  | closed {n p k st q a h} (hp : P.unfold p = .call .recv k)
      (hk : Doomed lost F.result F.ok n (k none) [] st) (hq : Q.unfold q = .ret a)
      (hf : F.fate = .down a h) : Ends n (duo p st q h [] [])
  | killed {n p k st q e h} (hp : P.unfold p = .call .recv k)
      (hk : Doomed lost F.result F.ok n (k none) [] st) (hq : Q.unfold q = .fault e)
      (hf : F.fate = .dead h) : Ends n (duo p st q h [] [])
  | hungUp {n p e st q k h} (hp : P.unfold p = .fault e) (hv : lost e = F.result) (hst : F.ok st)
      (hq : Q.unfold q = .call .recv k) (hk : Solo F.fate n (k none) [] h) :
      Ends n (duo p st q h [] [])

end

section
variable {cap : Option Nat} {p : P.Code} {st : P.State} {q : Q.Code} {h : Q.State} {ts tc : List B}

/-- A client that returned, faulted or waits for nothing does not move. -/
theorem duo_left_stuck (hp : (∃ a, P.unfold p = .ret a) ∨ (∃ e, P.unfold p = .fault e) ∨
      (∃ k, P.unfold p = .call .recv k) ∧ tc = []) (x : Duplex P.open Q.open) :
    (duo p st q h ts tc).next cap .left ≠ some x := by
  intro hx
  rcases duo_left_cases hx with ⟨b, k, hk, -, -⟩ | ⟨k, b, tc', hk, htc, -⟩ | ⟨c, k, hk, -⟩ <;>
    rcases hp with ⟨a, ha⟩ | ⟨e, he⟩ | ⟨⟨k', hk'⟩, hnil⟩ <;> simp_all

theorem duo_right_stuck (hq : (∃ a, Q.unfold q = .ret a) ∨ (∃ e, Q.unfold q = .fault e) ∨
      (∃ k, Q.unfold q = .call .recv k) ∧ ts = []) (x : Duplex P.open Q.open) :
    (duo p st q h ts tc).next cap .right ≠ some x := by
  intro hx
  rcases duo_right_cases hx with ⟨b, k, hk, -, -⟩ | ⟨k, b, ts', hk, hts, -⟩ | ⟨c, k, hk, -⟩ <;>
    rcases hq with ⟨a, ha⟩ | ⟨e, he⟩ | ⟨⟨k', hk'⟩, hnil⟩ <;> simp_all

end

section
variable {lost : P.Fault → P.Result} {F : Finish P Q} {cap : Option Nat}

theorem Ends.stopped {n : Nat} {t : Duplex P.open Q.open} (ht : Ends lost F n t) :
    (duplexLts P.open Q.open cap).Stopped t := by
  intro side t' hs
  cases ht with
  | done hst hq hf =>
    cases side with
    | left => exact duo_left_stuck (.inl ⟨_, LineParty.unfold_ret F.returns⟩) t' hs
    | right => exact duo_right_stuck (.inr (.inr ⟨⟨_, hq⟩, rfl⟩)) t' hs
  | closed hp hk hq hf =>
    cases side with
    | left => exact duo_left_stuck (.inr (.inr ⟨⟨_, hp⟩, rfl⟩)) t' hs
    | right => exact duo_right_stuck (.inl ⟨_, hq⟩) t' hs
  | killed hp hk hq hf =>
    cases side with
    | left => exact duo_left_stuck (.inr (.inr ⟨⟨_, hp⟩, rfl⟩)) t' hs
    | right => exact duo_right_stuck (.inr (.inl ⟨_, hq⟩)) t' hs
  | hungUp hp hv hst hq hk =>
    cases side with
    | left => exact duo_left_stuck (.inr (.inl ⟨_, hp⟩)) t' hs
    | right => exact duo_right_stuck (.inr (.inr ⟨⟨_, hq⟩, rfl⟩)) t' hs

/-! ## One party has stopped -/

/-- A client that has stopped stays, and the run does not depend on it. -/
theorem run_stopped_left {p : P.Code} (hp : (∃ a, P.unfold p = .ret a) ∨ ∃ e, P.unfold p = .fault e)
    {st : P.State} {q : Q.Code} {h : Q.State} {ts tc : List B} {ls : List Side}
    {t : Duplex P.open Q.open} (hr : (duplexLts P.open Q.open cap).Run (duo p st q h ts tc) ls t) :
    t.left = ⟨.ret p, st⟩ ∧ ∀ x : P.open.Local, (duplexLts P.open Q.open cap).Run
      ⟨x, ⟨.ret q, h⟩, ts, tc⟩ ls ⟨x, t.right, t.toRight, t.toLeft⟩ := by
  generalize hx : duo p st q h ts tc = y at hr
  induction hr generalizing q h ts tc with
  | nil =>
    subst hx
    exact ⟨rfl, fun x => .nil _⟩
  | @cons y y₁ t side ls hs hr ih =>
    subst hx
    cases side with
    | left => exact absurd hs (duo_left_stuck (hp.imp_right .inl) y₁)
    | right =>
      obtain ⟨r, hstep, rfl⟩ := Option.map_eq_some_iff.1 hs
      rcases duo_right_cases hs with ⟨b, k, -, -, hy⟩ | ⟨k, b, ts₁, -, -, hy⟩ | ⟨c, k, -, hy⟩
      all_goals
        rw [hy] at ih
        obtain ⟨h1, h2⟩ := ih rfl
        simp only [Duplex.mk.injEq] at hy
        refine ⟨h1, fun x => .cons ?_ (h2 x)⟩
        show Option.map _ (Party.step _ cap _ ts tc) = _
        rw [hstep, Option.map_some, hy.2.1, hy.2.2.1, hy.2.2.2]

theorem run_stopped_right {q : Q.Code}
    (hq : (∃ a, Q.unfold q = .ret a) ∨ ∃ e, Q.unfold q = .fault e) {p : P.Code} {st : P.State}
    {h : Q.State} {ts tc : List B} {ls : List Side} {t : Duplex P.open Q.open}
    (hr : (duplexLts P.open Q.open cap).Run (duo p st q h ts tc) ls t) :
    t.right = ⟨.ret q, h⟩ := by
  generalize hx : duo p st q h ts tc = y at hr
  induction hr generalizing p st ts tc with
  | nil =>
    subst hx
    rfl
  | @cons y y₁ t side ls hs hr ih =>
    subst hx
    cases side with
    | right => exact absurd hs (duo_right_stuck (hq.imp_right .inl) y₁)
    | left =>
      rcases duo_left_cases hs with ⟨b, k, -, -, hy⟩ | ⟨k, b, tc₁, -, -, hy⟩ | ⟨c, k, -, hy⟩
      all_goals exact ih hy.symm

/-- The client has stopped and what the server sent was read: the server's
moves are its own or take an item. A property that such moves keep backwards
goes back along the run. -/
theorem back_right {R : Nat → Q.Code → List B → Q.State → Prop}
    (hrecv : ∀ {n q k b ts h}, Q.unfold q = .call .recv k → R n (k (some b)) ts h → R (n + 1) q (b :: ts) h)
    (hown : ∀ {n q c k ts h}, Q.unfold q = .call (.own c) k →
      R n (k (Q.answer h c).1) ts (Q.answer h c).2 → R (n + 1) q ts h) {p : P.Code}
    (hp : (∃ a, P.unfold p = .ret a) ∨ ∃ e, P.unfold p = .fault e) {st : P.State} {q : Q.Code}
    {h : Q.State} {ts tc : List B} {ls : List Side} {x : P.open.Local} {q' : Q.Code} {h' : Q.State}
    {ts' : List B}
    (hr : (duplexLts P.open Q.open cap).Run (duo p st q h ts tc) ls ⟨x, ⟨.ret q', h'⟩, ts', []⟩)
    {n : Nat} (hR : R n q' ts' h') : tc = [] ∧ R (ls.length + n) q ts h := by
  generalize hx : duo p st q h ts tc = y at hr
  generalize ht : (⟨x, ⟨.ret q', h'⟩, ts', []⟩ : Duplex P.open Q.open) = t at hr
  induction hr generalizing q h ts tc with
  | nil =>
    subst ht
    simp only [Duplex.mk.injEq, Party.Local.mk.injEq, Prog.ret.injEq] at hx
    obtain ⟨-, ⟨rfl, rfl⟩, rfl, rfl⟩ := hx
    exact ⟨rfl, by simpa using hR⟩
  | @cons y y₁ t side ls hs hr ih =>
    subst hx
    have hlen : (side :: ls).length + n = ls.length + n + 1 := by simp only [List.length_cons]; omega
    rw [hlen]
    cases side with
    | left => exact absurd hs (duo_left_stuck (hp.imp_right .inl) y₁)
    | right =>
      rcases duo_right_cases hs with ⟨b, k, -, -, rfl⟩ | ⟨k, b, ts₁, hq, rfl, rfl⟩ | ⟨c, k, hq, rfl⟩
      · -- an item nobody reads
        exact absurd (ih rfl ht).1 (by simp)
      · exact ⟨(ih rfl ht).1, hrecv hq (ih rfl ht).2⟩
      · exact ⟨(ih rfl ht).1, hown hq (ih rfl ht).2⟩

/-- The same with the server stopped and everything the client sent read. -/
theorem Doomed.back {v : P.Result} {ok : P.State → Prop} {q : Q.Code}
    (hq : (∃ a, Q.unfold q = .ret a) ∨ ∃ e, Q.unfold q = .fault e) {h : Q.State} {p : P.Code}
    {st : P.State} {ts tc : List B} {ls : List Side} {p' : P.Code} {st' : P.State}
    {y : Q.open.Local} {tc' : List B}
    (hr : (duplexLts P.open Q.open cap).Run (duo p st q h ts tc) ls ⟨⟨.ret p', st'⟩, y, [], tc'⟩)
    {n : Nat} (hd : Doomed lost v ok n p' tc' st') :
    ts = [] ∧ Doomed lost v ok (ls.length + n) p tc st := by
  generalize hx : duo p st q h ts tc = x at hr
  generalize ht : (⟨⟨.ret p', st'⟩, y, [], tc'⟩ : Duplex P.open Q.open) = t at hr
  induction hr generalizing p st ts tc with
  | nil =>
    subst ht
    simp only [Duplex.mk.injEq, Party.Local.mk.injEq, Prog.ret.injEq] at hx
    obtain ⟨⟨rfl, rfl⟩, -, rfl, rfl⟩ := hx
    exact ⟨rfl, by simpa using hd⟩
  | @cons x x₁ t side ls hs hr ih =>
    subst hx
    have hlen : ls.length + n < (side :: ls).length + n := by simp only [List.length_cons]; omega
    cases side with
    | right => exact absurd hs (duo_right_stuck (hq.imp_right .inl) x₁)
    | left =>
      rcases duo_left_cases hs with ⟨b, k, -, -, rfl⟩ | ⟨k, b, tc₁, hp, rfl, rfl⟩ | ⟨c, k, hp, rfl⟩
      · exact absurd (ih rfl ht).1 (by simp)
      · exact ⟨(ih rfl ht).1, .recv hp hlen (ih rfl ht).2⟩
      · exact ⟨(ih rfl ht).1, .own hp hlen (ih rfl ht).2⟩

end

/-! ## On the way to an end -/

section
variable (lost : P.Fault → P.Result) (greet : Q.Result → Q.Result) (cap : Option Nat) (F : Finish P Q)

/-- The server that a client's connection leads to, now or when it is
accepted, with what is on the way to it and from it; at most `n` moves before. -/
inductive Facing (n : Nat) : Server Q → Q.State → Wire B → Q.Code → Q.State → List B → List B → Prop
  | up {q h ts tc} : Facing n (.serving q) h (.up ts tc) q h ts tc
  | queued {a h ts} (hn : 0 < n) : Facing n (.accepting a) h (.queued ts) (.ret (greet a)) h ts []
  | behind {m a h' q old h ts} (hq : Solo (.down a h') m q old h) (hn : m + 1 < n) :
      Facing n (.serving q) h (.behind old ts) (.ret (greet a)) h' ts []

/-- The server has left the line. -/
inductive Gone : Fate Q → Server Q → Q.State → Prop
  | down {a h} : Gone (.down a h) (.accepting a) h
  | dead {h} : Gone (.dead h) .dead h

/-- The request has ended as `F` says and nobody moves any more. -/
inductive Resting : Net P Q → Prop
  | up {st a h k} (hst : F.ok st) (hq : Q.unfold (.ret a) = .call .recv k) (hf : F.fate = .up a h) :
      Resting ⟨.ret F.result, st, .serving (.ret a), h, .up [] []⟩
  | off {st srv h} (hst : F.ok st) (hg : Gone F.fate srv h) : Resting ⟨.ret F.result, st, srv, h, .off⟩

/-- At most `n` moves are left, and they end as `F` says. -/
inductive Track (n : Nat) : Net P Q → Prop
  /-- all is over -/
  | off {st srv h} (hst : F.ok st) (hg : Gone F.fate srv h) :
      Track n ⟨.ret F.result, st, srv, h, .off⟩
  /-- the client has hung up, the server has not noticed -/
  | ending {m st q h ts} (hst : F.ok st) (hq : Solo F.fate m q ts h) (hn : m < n) :
      Track n ⟨.ret F.result, st, .serving q, h, .right ts⟩
  /-- the exchange goes on -/
  | live {i m p st srv h w q h' ts tc ls t} (hw : Facing greet i srv h w q h' ts tc)
      (hr : (duplexLts P.open Q.open cap).Run (duo p st q h' ts tc) ls t) (ht : Ends lost F m t)
      (hn : i + ls.length + m + 2 < n) : Track n ⟨p, st, srv, h, w⟩
  /-- the server will close without a word -/
  | mute {i j m p st srv h w q h₁ h₂ ts rest a} (hw : Facing greet i srv h w q h₁ ts [])
      (hsay : Says rest p st) (hhear : Hears a h₂ j (ts ++ rest) q h₁) (hf : F.fate = .down a h₂)
      (hd : Doomed lost F.result F.ok m p [] st) (hn : i + j + m + 1 < n) : Track n ⟨p, st, srv, h, w⟩
  /-- the server is gone, the client has not noticed -/
  | draining {m p st srv h tc} (hg : Gone F.fate srv h) (hd : Doomed lost F.result F.ok m p tc st)
      (hn : m < n) : Track n ⟨p, st, srv, h, .left tc⟩
  /-- the server will die at an old connection -/
  | orphan {i m p st q h h' old ts} (hq : Solo (.dead h') i q old h) (hf : F.fate = .dead h')
      (hd : Doomed lost F.result F.ok m p [] st) (hn : i + m + 1 < n) :
      Track n ⟨p, st, .serving q, h, .behind old ts⟩

end

/-! ## Single moves -/

section
variable {lost : P.Fault → P.Result} {greet : Q.Result → Q.Result} {cap : Option Nat}

/-- The wire of a client with a connection: what is on the way. -/
def Wire.Holds (ts tc : List B) : Wire B → Prop
  | .up ts' tc' => ts' = ts ∧ tc' = tc
  | .queued ts' => ts' = ts ∧ tc = []
  | .behind _ ts' => ts' = ts ∧ tc = []
  | _ => False

def Wire.set (ts tc : List B) : Wire B → Wire B
  | .up _ _ => .up ts tc
  | .queued _ => .queued ts
  | .behind old _ => .behind old ts
  | w => w

/-- A move of a client with a connection: it hangs up, or it does what it does
on an open line. -/
theorem clientMove_holds {p : P.Code} {st : P.State} {srv : Server Q} {h : Q.State} {w : Wire B}
    {ts tc : List B} (hw : w.Holds ts tc) {s' : Net P Q}
    (hs : Net.clientMove lost cap ⟨p, st, srv, h, w⟩ = some s') (q : Q.Code) (h' : Q.State) :
    (∃ e, P.unfold p = .fault e ∧ w = .up ts tc ∧ s' = ⟨.ret (lost e), st, srv, h, .right ts⟩) ∨
    ∃ p' st' ts' tc', (duo p st q h' ts tc).next cap .left = some (duo p' st' q h' ts' tc') ∧
      s' = ⟨p', st', srv, h, w.set ts' tc'⟩ ∧ (w.set ts' tc').Holds ts' tc' := by
  unfold Net.clientMove at hs
  cases hp : P.unfold p with
  | ret a => simp [hp] at hs
  | fault e =>
    refine .inl ⟨e, rfl, ?_⟩
    cases w <;> simp [hp, Wire.hangUp] at hs
    · simp only [Wire.Holds] at hw
      obtain ⟨rfl, rfl⟩ := hw
      exact ⟨rfl, hs.symm⟩
    · exact hw.elim
  | call c k =>
    right
    cases c with
    | send b =>
      simp only [hp] at hs
      have hgo : room cap ts.length = true ∧ s' = ⟨k true, st, srv, h, w.set (ts ++ [b]) tc⟩ ∧
          (w.set (ts ++ [b]) tc).Holds (ts ++ [b]) tc := by
        cases w <;> simp [Wire.send, Wire.Holds] at hs hw <;> simp_all [Wire.set, Wire.Holds]
      exact ⟨_, _, _, _, duo_send_left hp hgo.1, hgo.2.1, hgo.2.2⟩
    | recv =>
      simp only [hp] at hs
      cases w with
      | up ts₁ tc₁ =>
        obtain ⟨rfl, rfl⟩ := hw
        cases tc₁ with
        | nil => cases hs
        | cons b tc₁ => exact ⟨_, _, _, _, duo_recv_left hp, (Option.some.inj hs).symm, rfl, rfl⟩
      | off | left | right => exact hw.elim
      | queued | behind => cases hs
    | own c =>
      simp only [hp] at hs
      have hset : w.set ts tc = w := by
        cases w <;> simp [Wire.Holds] at hw <;> simp [Wire.set, hw]
      exact ⟨_, _, _, _, duo_own_left hp, by rw [hset]; exact (Option.some.inj hs).symm, by rw [hset]; exact hw⟩

/-- A move of a server whose client is there: it leaves the line, or it does
what it does on an open line. -/
theorem serve_up {p : P.Code} {st : P.State} {q : Q.Code} {srv : Server Q} {h : Q.State}
    {ts tc : List B} {s' : Net P Q} (hs : Net.serve cap ⟨p, st, srv, h, .up ts tc⟩ q = some s') :
    (∃ a, Q.unfold q = .ret a ∧ s' = ⟨p, st, .accepting a, h, .left tc⟩) ∨
    (∃ e, Q.unfold q = .fault e ∧ s' = ⟨p, st, .dead, h, .left tc⟩) ∨
    ∃ q' h' ts' tc', (duo p st q h ts tc).next cap .right = some (duo p st q' h' ts' tc') ∧
      s' = ⟨p, st, .serving q', h', .up ts' tc'⟩ := by
  unfold Net.serve at hs
  cases hq : Q.unfold q with
  | ret a =>
    simp only [hq, Option.some.injEq] at hs
    exact .inl ⟨a, rfl, hs.symm⟩
  | fault e =>
    simp only [hq, Option.some.injEq] at hs
    exact .inr (.inl ⟨e, rfl, hs.symm⟩)
  | call c k =>
    right
    right
    cases c with
    | send b =>
      simp only [hq, Wire.put] at hs
      split at hs
      next hroom => exact ⟨_, _, _, _, duo_send_right hq hroom, (Option.some.inj hs).symm⟩
      · cases hs
    | recv =>
      simp only [hq] at hs
      cases ts with
      | nil => cases hs
      | cons b ts => exact ⟨_, _, _, _, duo_recv_right hq, (Option.some.inj hs).symm⟩
    | own c =>
      simp only [hq, Option.some.injEq] at hs
      exact ⟨_, _, _, _, duo_own_right hq, hs.symm⟩

/-- The wire of a server whose client has gone, by what it has not read. -/
structure Hung (mk : List B → Wire B) : Prop where
  put : ∀ cap inp b, (mk inp).put cap b = some none
  cons : ∀ b inp, (mk (b :: inp)).take = some (some b, mk inp)
  nil : (mk []).take = some (none, mk [])

theorem hung_right : Hung (Wire.right (B := B)) := ⟨fun _ _ _ => rfl, fun _ _ => rfl, rfl⟩

theorem hung_behind (ts : List B) : Hung fun old => Wire.behind old ts :=
  ⟨fun _ _ _ => rfl, fun _ _ => rfl, rfl⟩

/-- A server whose client has gone always moves, and nearer to its fate. -/
theorem Solo.serve {fate : Fate Q} {m : Nat} {q : Q.Code} {inp : List B} {h : Q.State}
    (hq : Solo fate m q inp h) (cap : Option Nat) {mk : List B → Wire B} (hm : Hung mk)
    (p : P.Code) (st : P.State) (srv : Server Q) :
    (∃ a, fate = .down a h ∧ Net.serve cap ⟨p, st, srv, h, mk inp⟩ q =
      some ⟨p, st, .accepting a, h, (mk inp).close⟩) ∨
    (fate = .dead h ∧ Net.serve cap ⟨p, st, srv, h, mk inp⟩ q =
      some ⟨p, st, .dead, h, (mk inp).orphan⟩) ∨
    ∃ m' q' inp' h', m' < m ∧ Solo fate m' q' inp' h' ∧
      Net.serve cap ⟨p, st, srv, h, mk inp⟩ q = some ⟨p, st, .serving q', h', mk inp'⟩ := by
  unfold Net.serve
  cases hq with
  | ret hq hf => exact .inl ⟨_, hf, by rw [hq]⟩
  | fault hq hf => exact .inr (.inl ⟨hf, by rw [hq]; rfl⟩)
  | send hq hf => exact .inr (.inl ⟨hf, by simp only [hq, hm.put]; rfl⟩)
  | recv hq hn hk => exact .inr (.inr ⟨_, _, _, _, hn, hk, by simp only [hq, hm.cons]; rfl⟩)
  | eof hq hn hk => exact .inr (.inr ⟨_, _, _, _, hn, hk, by simp only [hq, hm.nil]; rfl⟩)
  | own hq hn hk => exact .inr (.inr ⟨_, _, _, _, hn, hk, by rw [hq]⟩)

/-- A client whose server has gone always moves, and nearer to giving up. -/
theorem Doomed.drain {v : P.Result} {ok : P.State → Prop} {m : Nat} {p : P.Code} {tc : List B}
    {st : P.State} (hd : Doomed lost v ok m p tc st) (cap : Option Nat) (srv : Server Q)
    (h : Q.State) :
    (ok st ∧ Net.clientMove lost cap ⟨p, st, srv, h, .left tc⟩ = some ⟨.ret v, st, srv, h, .off⟩) ∨
    ∃ m' p' st' tc', m' < m ∧ Doomed lost v ok m' p' tc' st' ∧
      Net.clientMove lost cap ⟨p, st, srv, h, .left tc⟩ = some ⟨p', st', srv, h, .left tc'⟩ := by
  unfold Net.clientMove
  cases hd with
  | fault hp hv hst => exact .inl ⟨hst, by simp only [hp, hv]; rfl⟩
  | send hp hn _ hfail => exact .inr ⟨_, _, _, _, hn, hfail, by simp only [hp]; rfl⟩
  | recv hp hn hk => exact .inr ⟨_, _, _, _, hn, hk, by simp only [hp]; rfl⟩
  | eof hp hn hk => exact .inr ⟨_, _, _, _, hn, hk, by simp only [hp]; rfl⟩
  | own hp hn hk => exact .inr ⟨_, _, _, _, hn, hk, by simp only [hp]⟩

variable {n : Nat} {srv : Server Q} {h : Q.State} {w : Wire B} {q : Q.Code} {h' : Q.State}
  {ts tc : List B}

theorem Facing.holds (hw : Facing greet n srv h w q h' ts tc) : w.Holds ts tc := by
  cases hw <;> exact ⟨rfl, rfl⟩

theorem Facing.set (hw : Facing greet n srv h w q h' ts tc) {ts' tc' : List B}
    (hs : (w.set ts' tc').Holds ts' tc') : Facing greet n srv h (w.set ts' tc') q h' ts' tc' := by
  cases hw with
  | up => exact .up
  | queued hn =>
    obtain ⟨-, rfl⟩ := hs
    exact .queued hn
  | behind hq hn =>
    obtain ⟨-, rfl⟩ := hs
    exact .behind hq hn

/-- The server gets to the connection, or is there. -/
theorem Facing.serverMove (hw : Facing greet n srv h w q h' ts tc) (cap : Option Nat) (p : P.Code)
    (st : P.State) :
    (∃ m srv₁ h₁ w₁, m < n ∧ Facing greet m srv₁ h₁ w₁ q h' ts tc ∧
      Net.serverMove greet cap ⟨p, st, srv, h, w⟩ = some ⟨p, st, srv₁, h₁, w₁⟩) ∨
    (srv = .serving q ∧ h = h' ∧ w = .up ts tc) := by
  cases hw with
  | up => exact .inr ⟨rfl, rfl, rfl⟩
  | queued hn => exact .inl ⟨0, _, _, _, hn, .up, rfl⟩
  | @behind m a _ q' old _ _ hq hn =>
    left
    rcases hq.serve cap (hung_behind ts) p st (.serving q') with
      ⟨a', hf, hs⟩ | ⟨hf, -⟩ | ⟨m', q₁, inp, h₁, hm, hq₁, hs⟩
    · cases hf
      exact ⟨1, _, _, _, by omega, .queued (by omega), hs⟩
    · cases hf
    · exact ⟨m' + 2, _, _, _, by omega, .behind hq₁ (by omega), hs⟩

end

/-! ## Every order of moves -/

section
variable {lost : P.Fault → P.Result} {greet : Q.Result → Q.Result} {cap : Option Nat} {F : Finish P Q}

/-- The client hangs up: the server is waiting for it. -/
theorem Ends.hang_up {m : Nat} {p : P.Code} {st : P.State} {q : Q.Code} {h : Q.State}
    {ts tc : List B} {ls : List Side} {t : Duplex P.open Q.open}
    (hr : (duplexLts P.open Q.open cap).Run (duo p st q h ts tc) ls t) (ht : Ends lost F m t)
    {e : P.Fault} (hp : P.unfold p = .fault e) :
    lost e = F.result ∧ F.ok st ∧ Solo F.fate (ls.length + m + 1) q ts h := by
  have hstays := (run_stopped_left (.inr ⟨e, hp⟩) hr).1
  cases ht with
  | done hst hq hf =>
    cases hstays
    cases hp.symm.trans (LineParty.unfold_ret F.returns)
  | closed hp' | killed hp' =>
    cases hstays
    cases hp.symm.trans hp'
  | hungUp hp' hv hst hq hk =>
    cases hstays
    cases hp.symm.trans hp'
    refine ⟨hv, hst, ?_⟩
    exact (back_right (R := fun n => Solo F.fate n) (fun hq hk => .recv hq (Nat.lt_succ_self _) hk)
      (fun hq hk => .own hq (Nat.lt_succ_self _) hk) (.inr ⟨e, hp⟩) hr
      (.eof hq (Nat.lt_succ_self m) hk)).2

/-- The server leaves the line: the client is waiting for it. -/
theorem Ends.leave {m : Nat} {p : P.Code} {st : P.State} {q : Q.Code} {h : Q.State} {ts tc : List B}
    {ls : List Side} {t : Duplex P.open Q.open}
    (hr : (duplexLts P.open Q.open cap).Run (duo p st q h ts tc) ls t) (ht : Ends lost F m t)
    (hq : (∃ a, Q.unfold q = .ret a) ∨ ∃ e, Q.unfold q = .fault e) :
    Doomed lost F.result F.ok (ls.length + m + 1) p tc st ∧
      (∀ a, Q.unfold q = .ret a → F.fate = .down a h) ∧ ∀ e, Q.unfold q = .fault e → F.fate = .dead h := by
  have hstays := run_stopped_right hq hr
  cases ht with
  | done _ hq' | hungUp _ _ _ hq' =>
    cases hstays
    rcases hq with ⟨a, ha⟩ | ⟨e, he⟩
    · cases ha.symm.trans hq'
    · cases he.symm.trans hq'
  | closed hp hk hq' hf =>
    cases hstays
    refine ⟨(Doomed.back hq hr (.eof hp (Nat.lt_succ_self m) hk)).2, fun a ha => ?_, fun e he => ?_⟩
    · cases ha.symm.trans hq'
      exact hf
    · cases he.symm.trans hq'
  | killed hp hk hq' hf =>
    cases hstays
    refine ⟨(Doomed.back hq hr (.eof hp (Nat.lt_succ_self m) hk)).2, fun a ha => ?_, fun e he => hf⟩
    cases ha.symm.trans hq'

/-- A step of a doomed client that has heard nothing. -/
theorem Doomed.left {v : P.Result} {ok : P.State → Prop} {m : Nat} {p p' : P.Code}
    {st st' : P.State} {q : Q.Code} {h : Q.State} {ts ts' tc' : List B}
    (hd : Doomed lost v ok m p [] st)
    (hx : (duo p st q h ts []).next cap .left = some (duo p' st' q h ts' tc')) :
    ∃ m' < m, Doomed lost v ok m' p' [] st' := by
  rcases duo_left_cases hx with ⟨b, k, hp, -, hy⟩ | ⟨k, b, tc₁, -, htc, -⟩ | ⟨c, k, hp, hy⟩
  · simp only [Duplex.mk.injEq, Party.Local.mk.injEq, Prog.ret.injEq] at hy
    obtain ⟨⟨rfl, rfl⟩, -, rfl, rfl⟩ := hy
    cases hd with
    | fault hp' | eof hp' | own hp' => cases hp.symm.trans hp'
    | send hp' hm hsent _ =>
      cases hp.symm.trans hp'
      exact ⟨_, hm, hsent⟩
  · cases htc
  · simp only [Duplex.mk.injEq, Party.Local.mk.injEq, Prog.ret.injEq] at hy
    obtain ⟨⟨rfl, rfl⟩, -, rfl, rfl⟩ := hy
    cases hd with
    | fault hp' | eof hp' | send hp' => cases hp.symm.trans hp'
    | own hp' hm hd =>
      cases hp.symm.trans hp'
      exact ⟨_, hm, hd⟩

/-- A step of a server that hears the client out. -/
theorem Hears.right {a : Q.Result} {h h₁ h₂ : Q.State} {j : Nat} {p : P.Code} {st : P.State}
    {q q' : Q.Code} {rest ts ts' tc' : List B} (hhear : Hears a h₂ j (ts ++ rest) q h)
    (hx : (duo p st q h ts []).next cap .right = some (duo p st q' h₁ ts' tc')) :
    tc' = [] ∧ ∃ j' < j, Hears a h₂ j' (ts' ++ rest) q' h₁ := by
  rcases duo_right_cases hx with ⟨b, k, hq, -, -⟩ | ⟨k, b, ts₁, hq, rfl, hy⟩ | ⟨c, k, hq, hy⟩
  · exact absurd hq (hhear.not_send b k)
  · simp only [Duplex.mk.injEq, Party.Local.mk.injEq, Prog.ret.injEq] at hy
    obtain ⟨-, ⟨rfl, rfl⟩, rfl, rfl⟩ := hy
    cases hhear with
    | stop hq' | own hq' => cases hq.symm.trans hq'
    | recv hq' hj hk =>
      cases hq.symm.trans hq'
      exact ⟨rfl, _, hj, hk⟩
  · simp only [Duplex.mk.injEq, Party.Local.mk.injEq, Prog.ret.injEq] at hy
    obtain ⟨-, ⟨rfl, rfl⟩, rfl, rfl⟩ := hy
    generalize ts' ++ rest = bs at hhear ⊢
    cases hhear with
    | stop hq' | recv hq' => cases hq.symm.trans hq'
    | own hq' hj hk =>
      cases hq.symm.trans hq'
      exact ⟨rfl, _, hj, hk⟩

/-- What the client sends was among the words it had to say. -/
theorem Says.left {p p' : P.Code} {st st' : P.State} {q : Q.Code} {h : Q.State}
    {rest ts ts' tc' : List B} (hsay : Says rest p st)
    (hx : (duo p st q h ts []).next cap .left = some (duo p' st' q h ts' tc')) :
    tc' = [] ∧ ∃ rest', Says rest' p' st' ∧ ts' ++ rest' = ts ++ rest := by
  rcases duo_left_cases hx with ⟨b, k, hp, -, hy⟩ | ⟨k, b, tc₁, -, htc, -⟩ | ⟨c, k, hp, hy⟩
  · simp only [Duplex.mk.injEq, Party.Local.mk.injEq, Prog.ret.injEq] at hy
    obtain ⟨⟨rfl, rfl⟩, -, rfl, rfl⟩ := hy
    cases hsay with
    | wait hp' | own hp' => cases hp.symm.trans hp'
    | send hp' hk =>
      cases hp.symm.trans hp'
      exact ⟨rfl, _, hk, by simp⟩
  · cases htc
  · simp only [Duplex.mk.injEq, Party.Local.mk.injEq, Prog.ret.injEq] at hy
    obtain ⟨⟨rfl, rfl⟩, -, rfl, rfl⟩ := hy
    cases hsay with
    | wait hp' | send hp' => cases hp.symm.trans hp'
    | own hp' hk =>
      cases hp.symm.trans hp'
      exact ⟨rfl, _, hk, rfl⟩

variable {n : Nat} {s s' : Net P Q}

theorem Track.clientMove (h : Track lost greet cap F n s) (hs : s.clientMove lost cap = some s') :
    ∃ m < n, Track lost greet cap F m s' := by
  have hidle : ∀ {st : P.State} {srv : Server Q} {h : Q.State} {w : Wire B},
      Net.clientMove lost cap ⟨.ret F.result, st, srv, h, w⟩ ≠ some s' := by
    intro st srv h w hs
    simp [Net.clientMove, LineParty.unfold_ret F.returns] at hs
  cases h with
  | off => exact absurd hs hidle
  | ending => exact absurd hs hidle
  | @live i m p st srv h w q h' ts tc ls t hw hr ht hn =>
    rcases clientMove_holds hw.holds hs q h' with ⟨e, hp, rfl, rfl⟩ | ⟨p', st', ts', tc', hx, rfl, hw'⟩
    · cases hw
      obtain ⟨hv, hst, hq⟩ := Ends.hang_up hr ht hp
      rw [hv]
      exact ⟨ls.length + m + 2, by omega, .ending hst hq (by omega)⟩
    · obtain ⟨ks, hk, hlen⟩ := duplex_confluent.step hr ht.stopped hx
      exact ⟨n - 1, by omega, .live (hw.set hw') hk ht (by omega)⟩
  | @mute i j m p st srv h w q h₁ h₂ ts rest a hw hsay hhear hf hd hn =>
    rcases clientMove_holds hw.holds hs q h₁ with ⟨e, hp, -⟩ | ⟨p', st', ts', tc', hx, rfl, hw'⟩
    · exact absurd hp (hsay.not_fault e)
    · obtain ⟨m', hm, hd'⟩ := hd.left hx
      obtain ⟨rfl, rest', hsay', hsame⟩ := hsay.left hx
      rw [← hsame] at hhear
      exact ⟨n - 1, by omega, .mute (hw.set hw') hsay' hhear hf hd' (by omega)⟩
  | @draining m p st srv h tc hg hd hn =>
    rcases hd.drain cap srv h with ⟨hst, hmove⟩ | ⟨m', p', st', tc', hm, hd', hmove⟩
    · rw [hmove] at hs
      cases hs
      exact ⟨n - 1, by omega, .off hst hg⟩
    · rw [hmove] at hs
      cases hs
      exact ⟨m, hn, .draining hg hd' hm⟩
  | @orphan i m p st q h h' old ts hq hf hd hn =>
    have hold : Wire.Holds ts [] (.behind old ts) := ⟨rfl, rfl⟩
    rcases clientMove_holds hold hs q h with ⟨e, -, hw, -⟩ | ⟨p', st', ts', tc', hx, rfl, -⟩
    · cases hw
    · obtain ⟨m', hm, hd'⟩ := hd.left hx
      exact ⟨n - 1, by omega, .orphan hq hf hd' (by omega)⟩

theorem Track.serverMove (h : Track lost greet cap F n s) (hs : s.serverMove greet cap = some s') :
    ∃ m < n, Track lost greet cap F m s' := by
  cases h with
  | off hst hg =>
    generalize F.fate = fate at hg
    cases hg <;> cases hs
  | @ending m st q h ts hst hq hn =>
    rcases hq.serve cap hung_right (.ret F.result) st (.serving q) with
      ⟨a, hf, hmove⟩ | ⟨hf, hmove⟩ | ⟨m', q', inp, h', hm, hq', hmove⟩
    · cases hmove.symm.trans hs
      exact ⟨n - 1, by omega, .off hst (by rw [hf]; exact .down)⟩
    · cases hmove.symm.trans hs
      exact ⟨n - 1, by omega, .off hst (by rw [hf]; exact .dead)⟩
    · cases hmove.symm.trans hs
      exact ⟨m, hn, .ending hst hq' hm⟩
  | @live i m p st srv h w q h' ts tc ls t hw hr ht hn =>
    rcases hw.serverMove cap p st with ⟨i', srv₁, h₁, w₁, hi, hw₁, hmove⟩ | ⟨rfl, rfl, rfl⟩
    · cases hmove.symm.trans hs
      exact ⟨n - 1, by omega, .live hw₁ hr ht (by omega)⟩
    · rcases serve_up hs with ⟨a, hq, rfl⟩ | ⟨e, hq, rfl⟩ | ⟨q', h', ts', tc', hx, rfl⟩
      · obtain ⟨hd, hf, -⟩ := Ends.leave hr ht (.inl ⟨a, hq⟩)
        exact ⟨ls.length + m + 2, by omega, .draining (by rw [hf a hq]; exact .down) hd (by omega)⟩
      · obtain ⟨hd, -, hf⟩ := Ends.leave hr ht (.inr ⟨e, hq⟩)
        exact ⟨ls.length + m + 2, by omega, .draining (by rw [hf e hq]; exact .dead) hd (by omega)⟩
      · obtain ⟨ks, hk, hlen⟩ := duplex_confluent.step hr ht.stopped hx
        exact ⟨n - 1, by omega, .live (i := 0) .up hk ht (by omega)⟩
  | @mute i j m p st srv h w q h₁ h₂ ts rest a hw hsay hhear hf hd hn =>
    rcases hw.serverMove cap p st with ⟨i', srv₁, h₁, w₁, hi, hw₁, hmove⟩ | ⟨rfl, rfl, rfl⟩
    · cases hmove.symm.trans hs
      exact ⟨n - 1, by omega, .mute hw₁ hsay hhear hf hd (by omega)⟩
    · rcases serve_up hs with ⟨a', hq, rfl⟩ | ⟨e, hq, rfl⟩ | ⟨q', h', ts', tc', hx, rfl⟩
      · generalize ts ++ rest = bs at hhear
        cases hhear with
        | stop hq' =>
          cases hq.symm.trans hq'
          exact ⟨m + 1, by omega, .draining (by rw [hf]; exact .down) hd (by omega)⟩
        | recv hq' | own hq' => cases hq.symm.trans hq'
      · exact absurd hq (hhear.not_fault e)
      · obtain ⟨rfl, j', hj, hhear'⟩ := hhear.right hx
        exact ⟨n - 1, by omega, .mute (i := 0) .up hsay hhear' hf hd (by omega)⟩
  | draining hg hd hn =>
    generalize F.fate = fate at hg
    cases hg <;> cases hs
  | @orphan i m p st q h h' old ts hq hf hd hn =>
    rcases hq.serve cap (hung_behind ts) p st (.serving q) with
      ⟨a, hf', -⟩ | ⟨hf', hmove⟩ | ⟨i', q', inp, h₁, hi, hq', hmove⟩
    · cases hf'
    · cases hf'
      cases hmove.symm.trans hs
      exact ⟨m + 1, by omega, .draining (by rw [hf]; exact .dead) hd (by omega)⟩
    · cases hmove.symm.trans hs
      exact ⟨n - 1, by omega, .orphan hq' hf hd (by omega)⟩

theorem Track.move (h : Track lost greet cap F n s) {side : Side}
    (hs : s.move lost greet cap side = some s') : ∃ m < n, Track lost greet cap F m s' := by
  cases side with
  | left => exact h.clientMove hs
  | right => exact h.serverMove hs

variable (lost greet) in
/-- A step of an open line is a move. -/
theorem move_of_next {p : P.Code} {st : P.State} {q : Q.Code} {h : Q.State} {ts tc : List B}
    {side : Side} {x : Duplex P.open Q.open} (hx : (duo p st q h ts tc).next cap side = some x) :
    ∃ s', Net.move lost greet cap ⟨p, st, .serving q, h, .up ts tc⟩ side = some s' := by
  cases side with
  | left =>
    rcases duo_left_cases hx with ⟨b, k, hp, hroom, -⟩ | ⟨k, b, tc', hp, rfl, -⟩ | ⟨c, k, hp, -⟩
    · exact ⟨_, by simp only [Net.move, Net.clientMove, hp, Wire.send, if_pos hroom]; rfl⟩
    · exact ⟨_, by simp only [Net.move, Net.clientMove, hp, Wire.recv]; rfl⟩
    · exact ⟨_, by simp only [Net.move, Net.clientMove, hp]; rfl⟩
  | right =>
    rcases duo_right_cases hx with ⟨b, k, hq, hroom, -⟩ | ⟨k, b, ts', hq, rfl, -⟩ | ⟨c, k, hq, -⟩
    · exact ⟨_, by simp only [Net.move, Net.serverMove, Net.serve, hq, Wire.put, if_pos hroom]; rfl⟩
    · exact ⟨_, by simp only [Net.move, Net.serverMove, Net.serve, hq, Wire.take]; rfl⟩
    · exact ⟨_, by simp only [Net.move, Net.serverMove, Net.serve, hq]; rfl⟩

/-- A server at a connection that has returned or faulted moves. -/
theorem serve_stopped {q : Q.Code} (hq : (∃ a, Q.unfold q = .ret a) ∨ ∃ e, Q.unfold q = .fault e)
    (p : P.Code) (st : P.State) (h : Q.State) (w : Wire B) :
    ∃ s', Net.move lost greet cap ⟨p, st, .serving q, h, w⟩ .right = some s' := by
  rcases hq with ⟨a, hq⟩ | ⟨e, hq⟩ <;> exact ⟨_, by simp only [Net.move, Net.serverMove, Net.serve, hq]; rfl⟩

theorem Track.progress (hcap : cap ≠ some 0) (h : Track lost greet cap F n s) :
    Resting F s ∨ ∃ side s', s.move lost greet cap side = some s' := by
  cases h with
  | off hst hg => exact .inl (.off hst hg)
  | @ending m st q h ts hst hq hn =>
    right
    rcases hq.serve cap hung_right (.ret F.result) st (.serving q) with
      ⟨a, -, hmove⟩ | ⟨-, hmove⟩ | ⟨m', q', inp, h', -, -, hmove⟩
    all_goals exact ⟨.right, _, hmove⟩
  | @live i m p st srv h w q h' ts tc ls t hw hr ht hn =>
    rcases hw.serverMove cap p st with ⟨i', srv₁, h₁, w₁, -, -, hmove⟩ | ⟨rfl, rfl, rfl⟩
    · exact .inr ⟨.right, _, hmove⟩
    · cases hr with
      | cons hx _ =>
        obtain ⟨s', hs'⟩ := move_of_next lost greet hx
        exact .inr ⟨_, s', hs'⟩
      | nil =>
        generalize hx : duo p st q h ts tc = x at ht
        cases ht with
        | done hst hq hf =>
          cases hx
          exact .inl (.up hst hq hf)
        | closed hp hk hq hf =>
          cases hx
          obtain ⟨s', hs'⟩ := serve_stopped (.inl ⟨_, hq⟩) p st h (.up [] [])
          exact .inr ⟨.right, s', hs'⟩
        | killed hp hk hq hf =>
          cases hx
          obtain ⟨s', hs'⟩ := serve_stopped (.inr ⟨_, hq⟩) p st h (.up [] [])
          exact .inr ⟨.right, s', hs'⟩
        | hungUp hp hv hst hq hk =>
          cases hx
          exact .inr ⟨.left, _, by simp only [Net.move, Net.clientMove, hp, Wire.hangUp]; rfl⟩
  | @mute i j m p st srv h w q h₁ h₂ ts rest a hw hsay hhear hf hd hn =>
    right
    rcases hw.serverMove cap p st with ⟨i', srv₁, h₁, w₁, -, -, hmove⟩ | ⟨rfl, rfl, rfl⟩
    · exact ⟨.right, _, hmove⟩
    · cases ts with
      | cons b ts =>
        -- the server hears the next item, or is past hearing
        cases hhear with
        | stop hq =>
          obtain ⟨s', hs'⟩ := serve_stopped (.inl ⟨_, hq⟩) p st _ (.up (b :: ts) [])
          exact ⟨.right, s', hs'⟩
        | recv hq _ _ =>
          obtain ⟨s', hs'⟩ := move_of_next lost greet (duo_recv_right hq)
          exact ⟨.right, s', hs'⟩
        | own hq _ _ =>
          obtain ⟨s', hs'⟩ := move_of_next lost greet (duo_own_right hq)
          exact ⟨.right, s', hs'⟩
      | nil =>
        -- nothing is on the way: the client has yet to say what the server waits for
        rw [List.nil_append] at hhear
        cases hhear with
        | stop hq =>
          obtain ⟨s', hs'⟩ := serve_stopped (.inl ⟨_, hq⟩) p st _ (.up [] [])
          exact ⟨.right, s', hs'⟩
        | own hq _ _ =>
          obtain ⟨s', hs'⟩ := move_of_next lost greet (duo_own_right hq)
          exact ⟨.right, s', hs'⟩
        | recv _ _ _ =>
          cases hsay with
          | send hp _ =>
            have hroom : room cap ([] : List B).length = true := room_zero hcap
            obtain ⟨s', hs'⟩ := move_of_next lost greet (duo_send_left hp hroom)
            exact ⟨.left, s', hs'⟩
          | own hp _ =>
            obtain ⟨s', hs'⟩ := move_of_next lost greet (duo_own_left hp)
            exact ⟨.left, s', hs'⟩
  | @draining m p st srv h tc hg hd hn =>
    right
    rcases hd.drain cap srv h with ⟨-, hmove⟩ | ⟨m', p', st', tc', -, -, hmove⟩
    all_goals exact ⟨.left, _, hmove⟩
  | @orphan i m p st q h h' old ts hq hf hd hn =>
    right
    rcases hq.serve cap (hung_behind ts) p st (.serving q) with
      ⟨a, -, hmove⟩ | ⟨-, hmove⟩ | ⟨i', q', inp, h₁, -, -, hmove⟩
    all_goals exact ⟨.right, _, hmove⟩

/-- **Whatever the order**, the moves come to an end, and it is the one of `F`. -/
theorem Track.settles (hcap : cap ≠ some 0) (h : Track lost greet cap F n s) {ks : List Side}
    {u : Net P Q} (hr : (moveLts lost greet cap).Run s ks u) :
    ks.length ≤ n ∧ ∃ js t, (moveLts lost greet cap).Run u js t ∧ Resting F t := by
  have hrun : ∀ {n : Nat} {s : Net P Q}, Track lost greet cap F n s →
      ∃ js t, (moveLts lost greet cap).Run s js t ∧ Resting F t := by
    intro n
    induction n using Nat.strongRecOn with
    | _ n ih =>
      intro s h
      rcases h.progress hcap with hrest | ⟨side, s', hs⟩
      · exact ⟨[], s, .nil s, hrest⟩
      · obtain ⟨m, hm, h'⟩ := h.move hs
        obtain ⟨js, t, hj, ht⟩ := ih m hm h'
        exact ⟨side :: js, t, .cons hs hj, ht⟩
  induction hr generalizing n with
  | nil => exact ⟨Nat.zero_le n, hrun h⟩
  | cons hs _ ih =>
    obtain ⟨m, hm, h'⟩ := h.move hs
    obtain ⟨hlen, hend⟩ := ih h'
    exact ⟨by simp only [List.length_cons]; omega, hend⟩

/-- A client that has returned has the result of `F`. -/
theorem Track.returned (h : Track lost greet cap F n s) {v : P.Result} (hv : s.client = .ret v)
    (hidle : P.again v = none) : v = F.result ∧ F.ok s.state := by
  have hret : P.unfold s.client = .ret v := by rw [hv, LineParty.unfold_ret hidle]
  cases h with
  | off hst _ | ending hst _ _ =>
    cases hv
    exact ⟨rfl, hst⟩
  | @live i m p st srv h w q h' ts tc ls t hw hr ht hn =>
    have hstays := (run_stopped_left (.inl ⟨v, hret⟩) hr).1
    cases ht with
    | done hst _ _ =>
      cases hstays
      cases hv
      exact ⟨rfl, hst⟩
    | closed hp | killed hp | hungUp hp =>
      cases hstays
      cases hret.symm.trans hp
  | mute _ hsay => exact absurd hret (hsay.not_ret v)
  | draining _ hd | orphan _ _ hd => exact absurd hret (hd.not_ret v)

end

/-! ## The next request -/

section
variable (lost : P.Fault → P.Result) (greet : Q.Result → Q.Result) (cap : Option Nat)

/-- A request made at a server that waits with result `a` ends as `F` says. -/
def Responds (F : Finish P Q) (r : Request P) (st : P.State) (a : Q.Result) (h : Q.State) : Prop :=
  (∃ ls t m, (duplexLts P.open Q.open cap).Run (duo r.code st (.ret a) h [] []) ls t ∧ Ends lost F m t) ∨
  ∃ a' h' rest j m, Says rest r.code st ∧ Hears a' h' j rest (.ret a) h ∧ F.fate = .down a' h' ∧
    Doomed lost F.result F.ok m r.code [] st

/-- `F'` is how a request ends that is made after `F`. -/
def Follows (F F' : Finish P Q) (r : Request P) : Prop :=
  ∀ st, F.ok st → match F.fate with
    | .up a h => Responds lost cap F' r st a h
    | .down a h => Responds lost cap F' r st (greet a) h
    | .dead h => F'.fate = .dead h ∧ F'.result = lost r.lost ∧ F'.ok st ∧
        ∃ m, Doomed lost F'.result F'.ok m r.code [] st

end

section
variable {lost : P.Fault → P.Result} {greet : Q.Result → Q.Result} {cap : Option Nat} {F F' : Finish P Q}
  {r : Request P}

/-- A request at a server that the connection leads to. -/
theorem Responds.track {st : P.State} {a : Q.Result} {h h' : Q.State}
    (ha : Responds lost cap F' r st a h') {i : Nat} {srv : Server Q} {w : Wire B}
    (hw : Facing greet i srv h w (.ret a) h' [] []) :
    ∃ n, Track lost greet cap F' n ⟨r.code, st, srv, h, w⟩ := by
  rcases ha with ⟨ls, t, m, hr, ht⟩ | ⟨a', h₂, rest, j, m, hsay, hhear, hf, hd⟩
  · exact ⟨_, .live hw hr ht (Nat.lt_succ_self _)⟩
  · exact ⟨_, .mute hw hsay hhear hf hd (Nat.lt_succ_self _)⟩

theorem Track.request {n : Nat} {s : Net P Q} (h : Track lost greet cap F n s) {v : P.Result}
    (hv : s.client = .ret v) (hidle : P.again v = none) (hF : Follows lost greet cap F F' r) :
    ∃ m, Track lost greet cap F' m (s.request lost r) := by
  have hret : P.unfold s.client = .ret v := by rw [hv, LineParty.unfold_ret hidle]
  cases h with
  | off hst hg =>
    have hnext := hF _ hst
    generalize F.fate = fate at hg hnext
    cases hg with
    | down => exact hnext.track (.queued Nat.one_pos)
    | dead =>
      obtain ⟨hf, hres, hok, -⟩ := hnext
      refine ⟨0, ?_⟩
      show Track lost greet cap F' 0 ⟨.ret (lost r.lost), _, .dead, _, .off⟩
      rw [← hres]
      exact .off hok (by rw [hf]; exact .dead)
  | @ending m st q h ts hst hq hn =>
    have hnext := hF _ hst
    generalize F.fate = fate at hq hnext
    cases fate with
    | up a h' => exact hq.not_up.elim
    | down a h' => exact hnext.track (.behind hq (Nat.lt_succ_self _))
    | dead h' =>
      obtain ⟨hf, -, -, m', hd⟩ := hnext
      exact ⟨_, .orphan hq hf hd (Nat.lt_succ_self _)⟩
  | @live i m p st srv h w q h' ts tc ls t hw hr ht hn =>
    have hreq : Net.request lost ⟨p, st, srv, h, w⟩ r = ⟨r.code, st, srv, h, w⟩ := by cases hw <;> rfl
    rw [hreq]
    obtain ⟨hstays, hother⟩ := run_stopped_left (.inl ⟨v, hret⟩) hr
    cases ht with
    | closed hp | killed hp | hungUp hp =>
      cases hstays
      cases hret.symm.trans hp
    | @done st a k h₁ hst hq hf =>
      cases hstays
      have hnext := hF _ hst
      rw [hf] at hnext
      rcases hnext with ⟨ls', t, m', hr', ht⟩ | ⟨a', h₂, rest, j, m', hsay, hhear, hf', hd⟩
      · exact ⟨_, .live hw ((hother ⟨.ret r.code, st⟩).append hr') ht (Nat.lt_succ_self _)⟩
      · -- the server is on its way to the top of its loop
        obtain ⟨rfl, hhear⟩ := back_right (R := fun n q ts h => Hears a' h₂ n (ts ++ rest) q h)
          (fun hq hk => .recv hq (Nat.lt_succ_self _) hk) (fun hq hk => .own hq (Nat.lt_succ_self _) hk)
          (.inl ⟨_, hret⟩) hr hhear
        exact ⟨_, .mute hw hsay hhear hf' hd (Nat.lt_succ_self _)⟩
  | mute _ hsay => exact absurd hret (hsay.not_ret v)
  | draining _ hd | orphan _ _ hd => exact absurd hret (hd.not_ret v)

end

end AcsVirt
