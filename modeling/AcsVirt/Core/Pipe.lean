import AcsVirt.Core.LTS
import AcsVirt.Core.Mem
import AcsVirt.Core.Prog
import AcsVirt.Core.Transfer

/-!
# A byte pipe under short transfers

A writer sends blocks, a reader is sequential code that asks for blocks of a
length of its choice (`BlockM`). Both use a transfer loop for every block, so
what goes through the pipe at a time is any number of bytes, and either side
may be interrupted at any time; the two sides take turns in any order.

`feed p s` is what the reader makes of a stream without any pipe. If it takes
all of the stream, then it does so through the pipe too, however the transfers
are cut (`Pipe.delivers`), no state is stuck (`Pipe.progress`), and only
finitely many transfers are ever made (`Pipe.step_lt`).
-/
namespace AcsVirt

/-- Calls that read a block of the given length. -/
@[reducible] def blockSig : Sig where
  Call := Nat
  Reply _ := Bytes

abbrev BlockM := Prog blockSig Empty

def readBlock (n : Nat) : BlockM Bytes := Prog.perform (S := blockSig) n

variable {α : Type}

/-- The reader on a stream: what it returns, and what it leaves. -/
def feed : BlockM α → Bytes → Option (α × Bytes)
  | .ret a, s => some (a, s)
  | .fault _, _ => none
  | .call n k, s => if n ≤ s.length then feed (k (s.take n)) (s.drop n) else none

/-- The number of blocks it asks for. -/
def blocks : BlockM α → Bytes → Nat
  | .ret _, _ => 0
  | .fault _, _ => 0
  | .call n k, s => blocks (k (s.take n)) (s.drop n) + 1

theorem feed_bind {β : Type} (p : BlockM α) (f : α → BlockM β) (s : Bytes) :
    feed (p >>= f) s = (feed p s).bind fun r => feed (f r.1) r.2 := by
  induction p generalizing s with
  | ret a => rfl
  | fault e => exact e.elim
  | call n k ih =>
    change feed (Prog.call n fun r => k r >>= f) s = _
    rw [feed, feed]
    split
    · exact ih _ _
    · rfl

/-- A block at the front of the stream. -/
theorem feed_readBlock {n : Nat} {s : Bytes} (h : n ≤ s.length) :
    feed (readBlock n) s = some (s.take n, s.drop n) := by
  change feed (Prog.call n Prog.ret) s = _
  rw [feed, if_pos h, feed]

/-- The writer's block in progress is the part of `buf` from `pos` on, `len`
bytes; the reader has `got` of the block it asks for. -/
structure Pipe (α : Type) where
  buf : Bytes
  pos : Nat
  len : Nat
  len_eq : buf.length = pos + len
  rest : List Bytes
  channel : Bytes
  code : BlockM α
  got : Bytes

namespace Pipe

/-- Bytes the writer has not sent. -/
def unsent (s : Pipe α) : Bytes := s.buf.drop s.pos ++ s.rest.flatten

/-- All that the reader's code has still to see. -/
def stream (s : Pipe α) : Bytes := s.got ++ s.channel ++ s.unsent

/-- What a call of either side returns, and the turns from one block to the next. -/
inductive Event where
  | write (r : SysRet)
  | nextWrite
  | read (r : SysRet)
  | nextRead
  deriving DecidableEq, Repr

/-- An event other than an interruption. -/
def Event.Moves : Event → Prop
  | .write r => r ≠ .eintr
  | .read r => r ≠ .eintr
  | _ => True

/-- A call that moves `n` bytes from the writer's block into the channel. -/
def sent (s : Pipe α) (n : Nat) (h : n ≤ s.len) : Pipe α :=
  { s with
    pos := s.pos + n
    len := s.len - n
    len_eq := by have := s.len_eq; omega
    channel := s.channel ++ (s.buf.drop s.pos).take n }

def received (s : Pipe α) (n : Nat) : Pipe α :=
  { s with got := s.got ++ s.channel.take n, channel := s.channel.drop n }

/-- Steps of the two loops. A call fails neither with an error nor with end of
file; it moves at least one byte, and no more than asked for or, for the
reader, than there are in the channel. -/
inductive Step : Pipe α → Event → Pipe α → Prop
  | writeEintr (s : Pipe α) : s.len ≠ 0 → Step s (.write .eintr) s
  | write (s : Pipe α) (n : Nat) (h : n ≤ s.len) : n ≠ 0 → Step s (.write (.count n)) (s.sent n h)
  | nextWrite (s : Pipe α) (b : Bytes) (bs : List Bytes) : s.len = 0 → s.rest = b :: bs →
      Step s .nextWrite { s with buf := b, pos := 0, len := b.length, len_eq := (Nat.zero_add _).symm, rest := bs }
  | readEintr (s : Pipe α) (n : Nat) (k : Bytes → BlockM α) : s.code = .call n k → s.got.length < n →
      Step s (.read .eintr) s
  | read (s : Pipe α) (n m : Nat) (k : Bytes → BlockM α) : s.code = .call n k → m ≠ 0 → s.got.length + m ≤ n →
      m ≤ s.channel.length → Step s (.read (.count m)) (s.received m)
  | nextRead (s : Pipe α) (n : Nat) (k : Bytes → BlockM α) : s.code = .call n k → s.got.length = n →
      Step s .nextRead { s with code := k s.got, got := [] }

/-- Before the first call of either side. -/
def start (bs : List Bytes) (p : BlockM α) : Pipe α where
  buf := []
  pos := 0
  len := 0
  len_eq := rfl
  rest := bs
  channel := []
  code := p
  got := []

def lts (bs : List Bytes) (p : BlockM α) : LTS (Pipe α) Event where
  init s := s = start bs p
  step := Step

/-! ## The reader takes what was sent -/

/-- The reader will return `a` on what it has still to see, and leave nothing. -/
structure Inv (a : α) (s : Pipe α) : Prop where
  feed : feed s.code s.stream = some (a, [])
  got : ∀ n k, s.code = .call n k → s.got.length ≤ n
  fresh : ∀ b, s.code = .ret b → s.got = []

theorem stream_sent (s : Pipe α) (n : Nat) (h : n ≤ s.len) : (s.sent n h).stream = s.stream := by
  simp only [stream, unsent, sent, ← List.drop_drop, List.append_assoc]
  rw [← List.append_assoc ((s.buf.drop s.pos).take n), List.take_append_drop]

theorem stream_received (s : Pipe α) (n : Nat) : (s.received n).stream = s.stream := by
  simp only [stream, unsent, received, List.append_assoc]
  rw [← List.append_assoc (s.channel.take n), List.take_append_drop]

theorem buf_drop (s : Pipe α) (h : s.len = 0) : s.buf.drop s.pos = [] :=
  List.drop_eq_nil_of_le (by have := s.len_eq; omega)

theorem Step.inv {a : α} {s s' : Pipe α} {e : Event} (h : Step s e s') (hi : Inv a s) :
    Inv a s' := by
  cases h with
  | writeEintr _ => exact hi
  | write n h hn => exact ⟨by rw [stream_sent]; exact hi.feed, hi.got, hi.fresh⟩
  | nextWrite b bs hlen hrest =>
    refine ⟨?_, hi.got, hi.fresh⟩
    have := hi.feed
    simp only [stream, unsent, s.buf_drop hlen, hrest, List.flatten_cons, List.nil_append] at this
    simpa only [stream, unsent, List.drop_zero] using this
  | readEintr n k _ _ => exact hi
  | read n m k hc hm hle hch =>
    refine ⟨by rw [stream_received]; exact hi.feed, fun n' k' hc' => ?_, fun b hb => ?_⟩
    · have e : (Prog.call n k : BlockM α) = Prog.call n' k' := hc.symm.trans hc'
      cases e
      simp only [received, List.length_append, List.length_take]
      omega
    · have e : (Prog.call n k : BlockM α) = Prog.ret b := hc.symm.trans hb
      cases e
  | nextRead n k hc hn =>
    have hfeed := hi.feed
    have hstream : s.stream = s.got ++ (s.channel ++ s.unsent) := List.append_assoc ..
    rw [hc, AcsVirt.feed, hstream, if_pos (by simp [hn]), ← hn, List.take_left, List.drop_left] at hfeed
    exact ⟨hfeed, fun _ _ _ => Nat.zero_le _, fun _ _ => rfl⟩

theorem start_inv {a : α} {bs : List Bytes} {p : BlockM α}
    (h : AcsVirt.feed p bs.flatten = some (a, [])) :
    Inv a (start bs p) :=
  ⟨h, fun _ _ _ => Nat.zero_le _, fun _ _ => rfl⟩

theorem inv_inductive {a : α} {bs : List Bytes} {p : BlockM α}
    (h : AcsVirt.feed p bs.flatten = some (a, [])) :
    (lts bs p).Inductive (Inv a) where
  init _ hs := hs ▸ start_inv h
  step _ _ _ hi hs := Step.inv hs hi

/-- When the reader returns it has read everything, and nothing is on its way. -/
theorem delivers {a b : α} {s : Pipe α} (hi : Inv a s) (hret : s.code = .ret b) :
    b = a ∧ s.channel = [] ∧ s.unsent = [] := by
  have hfeed := hi.feed
  rw [hret, AcsVirt.feed] at hfeed
  obtain ⟨hb, hnil⟩ := Prod.mk.inj (Option.some.inj hfeed)
  obtain ⟨hgc, hu⟩ := List.append_eq_nil_iff.1 hnil
  exact ⟨hb, (List.append_eq_nil_iff.1 hgc).2, hu⟩

/-- A state in which nothing can be moved is the end. -/
theorem progress {a : α} {s : Pipe α} (hi : Inv a s) (hstuck : ∀ e s', e.Moves → ¬Step s e s') :
    s.code = .ret a := by
  have hlen : s.len = 0 := by
    refine Decidable.byContradiction fun h => ?_
    exact hstuck _ _ (by simp [Event.Moves]) (.write s 1 (Nat.pos_of_ne_zero h) (by decide))
  have hrest : s.rest = [] := by
    cases h : s.rest with
    | nil => rfl
    | cons b bs => exact absurd (.nextWrite s b bs hlen h) (hstuck .nextWrite _ trivial)
  cases hc : s.code with
  | ret b => rw [(delivers hi hc).1]
  | fault e => exact e.elim
  | call n k =>
    have hunsent : s.unsent = [] := by rw [unsent, s.buf_drop hlen, hrest]; rfl
    have hfeed := hi.feed
    have hgot := hi.got n k hc
    have hne : s.got.length ≠ n := fun h => hstuck .nextRead _ trivial (.nextRead s n k hc h)
    have hchan : s.channel ≠ [] := by
      intro hnil
      rw [hc, AcsVirt.feed, stream, hnil, hunsent, if_neg (by simp; omega)] at hfeed
      cases hfeed
    exact absurd (.read s n 1 k hc (by decide) (by omega) (List.length_pos_iff.2 hchan))
      (hstuck _ _ (by simp [Event.Moves]))

/-! ## Finitely many transfers -/

def weight (s : Pipe α) : Nat :=
  2 * s.unsent.length + s.channel.length + s.rest.length + blocks s.code s.stream

/-- Every transfer, and every turn to another block, uses up some of the weight. -/
theorem step_lt {s s' : Pipe α} {e : Event} (h : Step s e s') (he : e.Moves) :
    s'.weight < s.weight := by
  cases h with
  | writeEintr _ => exact absurd rfl he
  | write n h hn =>
    have hlen := s.len_eq
    simp only [weight, stream_sent]
    simp only [unsent, sent, List.length_append, List.length_drop, List.length_take]
    omega
  | nextWrite b bs hlen hrest =>
    have hstream : s.unsent = b ++ bs.flatten := by rw [unsent, s.buf_drop hlen, hrest]; rfl
    simp only [weight, stream, hstream, hrest, List.length_cons]
    simp only [unsent, List.drop_zero]
    omega
  | readEintr n k _ _ => exact absurd rfl he
  | read n m k hc hm hle hch =>
    simp only [weight, stream_received]
    simp only [received, unsent, List.length_drop]
    omega
  | nextRead n k hc hn =>
    have hstream : s.stream = s.got ++ (s.channel ++ s.unsent) := List.append_assoc ..
    simp only [weight]
    rw [hc, blocks, hstream, ← hn, List.take_left, List.drop_left]
    simp only [stream, unsent, List.nil_append]
    omega

end Pipe

end AcsVirt
