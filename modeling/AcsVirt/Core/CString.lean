import AcsVirt.Core.Mem

/-!
# C strings

A C string is the list of its bytes before the terminating zero. `cutAt` is
`strchr` with what it is used for: the part before the first separator, and
the part after it if there is one. `strtok` finds the next token;
called until there is none it yields the non-empty parts between separators
(`tokens_strtok`). `strtoull` is the library function with base
0, in the C locale: white space, a sign, a number in the base its first
characters announce, and the pointer to what is left. A minus sign negates
modulo `2 ^ 64`.

`strtoull_decimal`: every 64-bit number is read back from its decimal form.
-/
namespace AcsVirt

/-- The bytes of an ASCII literal. -/
def text (s : String) : Bytes := s.toList.map Char.toUInt8

/-! ## Separators -/

def cutAt (c : UInt8) : Bytes → Bytes × Option Bytes
  | [] => ([], none)
  | b :: s => if b = c then ([], some s) else (b :: (cutAt c s).1, (cutAt c s).2)

theorem cutAt_eq_none {c : UInt8} {s : Bytes} (h : c ∉ s) : cutAt c s = (s, none) := by
  induction s with
  | nil => rfl
  | cons b s ih =>
    have hb : b ≠ c := fun e => h (e ▸ List.mem_cons_self)
    rw [cutAt, if_neg hb, ih fun hs => h (List.mem_cons_of_mem _ hs)]

theorem cutAt_append {c : UInt8} {s : Bytes} (h : c ∉ s) (t : Bytes) :
    cutAt c (s ++ c :: t) = (s, some t) := by
  induction s with
  | nil => rw [List.nil_append, cutAt, if_pos rfl]
  | cons b s ih =>
    have hb : b ≠ c := fun e => h (e ▸ List.mem_cons_self)
    rw [List.cons_append, cutAt, if_neg hb, ih fun hs => h (List.mem_cons_of_mem _ hs)]

theorem cutAt_spec (c : UInt8) (s : Bytes) : c ∉ (cutAt c s).1 ∧
    ((cutAt c s).2 = none ∧ s = (cutAt c s).1 ∨ ∃ t, (cutAt c s).2 = some t ∧ s = (cutAt c s).1 ++ c :: t) := by
  induction s with
  | nil => exact ⟨List.not_mem_nil, .inl ⟨rfl, rfl⟩⟩
  | cons b s ih =>
    rw [cutAt]
    split
    next hb => exact ⟨List.not_mem_nil, .inr ⟨s, rfl, by rw [hb]; rfl⟩⟩
    next hb =>
      obtain ⟨hmem, hcut⟩ := ih
      refine ⟨fun h => (List.mem_cons.1 h).elim (fun e => hb e.symm) hmem, ?_⟩
      rcases hcut with ⟨hnone, hs⟩ | ⟨t, hsome, hs⟩
      · exact .inl ⟨hnone, congrArg (b :: ·) hs⟩
      · exact .inr ⟨t, hsome, congrArg (b :: ·) hs⟩

/-! ## Tokens -/

/-- The next token and what follows it: separators in front are skipped, the
one behind the token is used up. -/
def strtok (c : UInt8) (s : Bytes) : Option (Bytes × Bytes) :=
  let t := s.dropWhile (· == c)
  if t = [] then none else some ((cutAt c t).1, (cutAt c t).2.getD [])

/-- The non-empty parts between separators. -/
def tokens (c : UInt8) (s : Bytes) : List Bytes := (s.splitOn c).filter (· ≠ [])

theorem tokens_nil (c : UInt8) : tokens c [] = [] := rfl

theorem tokens_sep (c : UInt8) (s : Bytes) : tokens c (c :: s) = tokens c s := by
  rw [tokens, tokens, List.splitOn, List.splitOn, List.splitOnP_cons_eq_if_modifyHead, if_pos (beq_self_eq_true c)]
  rfl

theorem tokens_dropWhile (c : UInt8) (s : Bytes) :
    tokens c (s.dropWhile (· == c)) = tokens c s := by
  induction s with
  | nil => rfl
  | cons b s ih =>
    by_cases hb : b = c
    · rw [List.dropWhile_cons_of_pos (by simp [hb]), ih, hb, tokens_sep]
    · rw [List.dropWhile_cons_of_neg (by simp [hb])]

theorem beq_sep {c x : UInt8} {s : Bytes} (h : c ∉ s) (hx : x ∈ s) : (x == c) = false :=
  beq_false_of_ne fun e => h (e ▸ hx)

theorem tokens_part {c : UInt8} {s : Bytes} (h : c ∉ s) (hne : s ≠ []) : tokens c s = [s] := by
  rw [tokens, List.splitOn, List.splitOnP_eq_singleton fun x hx => beq_sep h hx]
  simp [hne]

theorem tokens_append {c : UInt8} {s : Bytes} (h : c ∉ s) (hne : s ≠ []) (t : Bytes) :
    tokens c (s ++ c :: t) = s :: tokens c t := by
  rw [tokens, List.splitOn, List.splitOnP_append_cons_of_forall_mem (fun x hx => beq_sep h hx) c (beq_self_eq_true c),
    List.filter_cons_of_pos (by simp [hne])]
  rfl

/-- A token found is not empty and has no separator; it ends the string, or one
separator follows it. -/
theorem strtok_eq_some {c : UInt8} {s tok rest : Bytes} (h : strtok c s = some (tok, rest)) :
    tok ≠ [] ∧ c ∉ tok ∧
      (s.dropWhile (· == c) = tok ∧ rest = [] ∨ s.dropWhile (· == c) = tok ++ c :: rest) := by
  simp only [strtok] at h
  split at h
  · cases h
  next hne =>
    obtain ⟨htok, hrest⟩ := Prod.mk.inj (Option.some.inj h)
    obtain ⟨hmem, hcut⟩ := cutAt_spec c (s.dropWhile (· == c))
    rw [htok] at hmem hcut
    have hhead : ∀ t, s.dropWhile (· == c) ≠ c :: t := by
      intro t e
      have := List.head_dropWhile_not (· == c) hne
      simp [e] at this
    refine ⟨?_, hmem, ?_⟩
    · intro hnil
      rw [hnil] at hcut
      rcases hcut with ⟨_, hs⟩ | ⟨t, _, hs⟩
      · exact hne hs
      · exact hhead t hs
    · rcases hcut with ⟨hnone, hs⟩ | ⟨t, hsome, hs⟩
      · rw [hnone] at hrest
        exact .inl ⟨hs, hrest.symm⟩
      · rw [hsome] at hrest
        exact .inr (hrest ▸ hs)

theorem strtok_length {c : UInt8} {s tok rest : Bytes} (h : strtok c s = some (tok, rest)) :
    rest.length < s.length := by
  obtain ⟨hne, _, hs⟩ := strtok_eq_some h
  have hdrop : (s.dropWhile (· == c)).length ≤ s.length := (List.dropWhile_suffix _).length_le
  have hpos := List.length_pos_iff.2 hne
  rcases hs with ⟨hs, hrest⟩ | hs
  · rw [hs] at hdrop
    rw [hrest, List.length_nil]
    omega
  · rw [hs, List.length_append, List.length_cons] at hdrop
    omega

theorem tokens_strtok_none {c : UInt8} {s : Bytes} (h : strtok c s = none) : tokens c s = [] := by
  simp only [strtok] at h
  split at h
  next hnil => rw [← tokens_dropWhile, hnil, tokens_nil]
  · cases h

/-- What a call finds is the first of the parts that are left. -/
theorem tokens_strtok {c : UInt8} {s tok rest : Bytes} (h : strtok c s = some (tok, rest)) :
    tokens c s = tok :: tokens c rest := by
  obtain ⟨hne, hmem, hs⟩ := strtok_eq_some h
  rw [← tokens_dropWhile]
  rcases hs with ⟨hs, hrest⟩ | hs
  · rw [hs, hrest, tokens_part hmem hne, tokens_nil]
  · rw [hs, tokens_append hmem hne]

/-- Non-empty parts joined by separators come back. -/
theorem tokens_intercalate {c : UInt8} {ps : List Bytes} (h : ∀ p ∈ ps, c ∉ p ∧ p ≠ []) :
    tokens c ([c].intercalate ps) = ps := by
  by_cases hnil : ps = []
  · subst hnil
    rfl
  · rw [tokens, List.splitOn_intercalate c (fun p hp => (h p hp).1) hnil, List.filter_eq_self]
    intro p hp
    simpa using (h p hp).2

/-! ## Numbers -/

def isSpace (c : UInt8) : Bool := c = 32 || (9 ≤ c && c ≤ 13)

/-- The digit a character stands for in a base. -/
def digitIn (base : Nat) (c : UInt8) : Option Nat :=
  let d :=
    if 48 ≤ c && c ≤ 57 then c.toNat - 48
    else if 97 ≤ c && c ≤ 122 then c.toNat - 87
    else if 65 ≤ c && c ≤ 90 then c.toNat - 55
    else base
  if d < base then some d else none

/-- The digits at the front, added to `n`, and what follows them. -/
def scanDigits (base n : Nat) : Bytes → Nat × Bytes
  | [] => (n, [])
  | c :: s =>
    match digitIn base c with
    | some d => scanDigits base (n * base + d) s
    | none => (n, c :: s)

/-- A sign: whether it is a minus, and what follows it. -/
def scanSign : Bytes → Bool × Bytes
  | [] => (false, [])
  | c :: s => if c = 45 then (true, s) else if c = 43 then (false, s) else (false, c :: s)

/-- The base a number announces, and its digits. A `0x` that no hexadecimal
digit follows is the number 0 and an `x`. -/
def scanBase (s : Bytes) : Nat × Bytes :=
  if s.head? = some 48 then
    match s with
    | _ :: x :: c :: t => if (x = 120 || x = 88) && (digitIn 16 c).isSome then (16, c :: t) else (8, s)
    | _ => (8, s)
  else (10, s)

structure Strtoull where
  value : UInt64
  /-- What the end pointer points to. -/
  rest : Bytes
  /-- `errno` was set. -/
  range : Bool
  deriving DecidableEq, Repr

def strtoull (s : Bytes) : Strtoull :=
  let (neg, t) := scanSign (s.dropWhile isSpace)
  let (base, t) := scanBase t
  if (t.head?.bind (digitIn base)).isNone then ⟨0, s, false⟩
  else
    let (n, rest) := scanDigits base 0 t
    if 2 ^ 64 ≤ n then ⟨UInt64.ofNat (2 ^ 64 - 1), rest, true⟩
    else ⟨if neg then 0 - UInt64.ofNat n else UInt64.ofNat n, rest, false⟩

/-! ## Decimal numbers -/

def decimal (n : Nat) : Bytes :=
  if n < 10 then [UInt8.ofNat (48 + n)] else decimal (n / 10) ++ [UInt8.ofNat (48 + n % 10)]

theorem digitIn_decimal {d : Nat} (h : d < 10) : digitIn 10 (UInt8.ofNat (48 + d)) = some d := by
  have hall : ∀ e ∈ List.range 10, digitIn 10 (UInt8.ofNat (48 + e)) = some e := by decide
  exact hall d (List.mem_range.2 h)

theorem scanDigits_cons {base d : Nat} {c : UInt8} (h : digitIn base c = some d) (n : Nat)
    (s : Bytes) :
    scanDigits base n (c :: s) = scanDigits base (n * base + d) s := by
  rw [scanDigits, h]

theorem scanDigits_decimal (n : Nat) (t : Bytes) :
    scanDigits 10 0 (decimal n ++ t) = scanDigits 10 n t := by
  induction n using Nat.strongRecOn generalizing t with
  | _ n ih =>
    rw [decimal]
    split
    next h => rw [List.singleton_append, scanDigits_cons (digitIn_decimal h), Nat.zero_mul, Nat.zero_add]
    next h =>
      rw [List.append_assoc, ih (n / 10) (by omega), List.singleton_append,
        scanDigits_cons (digitIn_decimal (Nat.mod_lt n (by decide))), Nat.div_add_mod']

theorem mem_decimal {n : Nat} {c : UInt8} (h : c ∈ decimal n) : 48 ≤ c.toNat ∧ c.toNat ≤ 57 := by
  have hdigit : ∀ d < 10, 48 ≤ (UInt8.ofNat (48 + d)).toNat ∧ (UInt8.ofNat (48 + d)).toNat ≤ 57 := by decide
  induction n using Nat.strongRecOn with
  | _ n ih =>
    rw [decimal] at h
    split at h
    next hn => exact List.mem_singleton.1 h ▸ hdigit n hn
    next hn =>
      rcases List.mem_append.1 h with h | h
      · exact ih (n / 10) (by omega) h
      · exact List.mem_singleton.1 h ▸ hdigit (n % 10) (Nat.mod_lt n (by decide))

theorem decimal_length {n k : Nat} (h : n < 10 ^ (k + 1)) : (decimal n).length ≤ k + 1 := by
  induction k generalizing n with
  | zero =>
    rw [decimal, if_pos (by omega)]
    exact Nat.le_refl 1
  | succ k ih =>
    rw [decimal]
    split
    · simp
    · have := ih (n := n / 10) (by rw [Nat.pow_succ] at h; omega)
      simp only [List.length_append, List.length_singleton]
      omega

theorem decimal_ne_nil (n : Nat) : decimal n ≠ [] := by
  rw [decimal]
  split <;> simp

/-- The first digit of a positive number is not a zero. -/
theorem decimal_head {n : Nat} (h : 0 < n) :
    ∃ d s, 0 < d ∧ d < 10 ∧ decimal n = UInt8.ofNat (48 + d) :: s := by
  induction n using Nat.strongRecOn with
  | _ n ih =>
    rw [decimal]
    split
    next hn => exact ⟨n, [], h, hn, rfl⟩
    next hn =>
      obtain ⟨d, s, hpos, hlt, hs⟩ := ih (n / 10) (by omega) (by omega)
      exact ⟨d, s ++ [UInt8.ofNat (48 + n % 10)], hpos, hlt, by rw [hs]; rfl⟩

/-- A digit that is not a zero is a decimal number's first character, and
neither white space nor a sign. -/
theorem first_digit {d : Nat} (hpos : 0 < d) (hlt : d < 10) :
    isSpace (UInt8.ofNat (48 + d)) = false ∧ UInt8.ofNat (48 + d) ≠ 45 ∧ UInt8.ofNat (48 + d) ≠ 43 ∧
      UInt8.ofNat (48 + d) ≠ 48 := by
  have hall : ∀ e ∈ List.range 10, 0 < e → isSpace (UInt8.ofNat (48 + e)) = false ∧ UInt8.ofNat (48 + e) ≠ 45 ∧
      UInt8.ofNat (48 + e) ≠ 43 ∧ UInt8.ofNat (48 + e) ≠ 48 := by decide
  exact hall d (List.mem_range.2 hlt) hpos

theorem strtoull_decimal {n : Nat} (h : n < 2 ^ 64) :
    strtoull (decimal n) = ⟨UInt64.ofNat n, [], false⟩ := by
  rcases Nat.eq_zero_or_pos n with hz | hpos
  · subst hz
    decide +kernel
  · have hscan : scanDigits 10 0 (decimal n) = (n, []) := by
      have := scanDigits_decimal n []
      rwa [List.append_nil, scanDigits] at this
    obtain ⟨d, s, hd, hlt, hs⟩ := decimal_head hpos
    obtain ⟨hspace, hminus, hplus, hzero⟩ := first_digit hd hlt
    have hskip : (decimal n).dropWhile isSpace = decimal n := by
      rw [hs, List.dropWhile_cons_of_neg (by rw [hspace]; exact Bool.false_ne_true)]
    have hsign : scanSign (decimal n) = (false, decimal n) := by
      rw [hs, scanSign, if_neg hminus, if_neg hplus]
    have hbase : scanBase (decimal n) = (10, decimal n) := by
      unfold scanBase
      rw [if_neg]
      rw [hs, List.head?_cons]
      exact fun e => hzero (Option.some.inj e)
    have hfirst : ((decimal n).head?.bind (digitIn 10)).isNone = false := by
      rw [hs, List.head?_cons, Option.bind_some, digitIn_decimal hlt]
      rfl
    simp only [strtoull, hskip, hsign, hbase, hfirst, hscan, Nat.not_le.2 h, if_false, Bool.false_eq_true]

end AcsVirt
