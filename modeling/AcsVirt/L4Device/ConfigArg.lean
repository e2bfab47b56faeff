import AcsVirt.Core.CString

/-!
# The daemon's argument

The launcher starts the block daemon with one argument, `key=value` parts
joined by commas; `key_value_arg` writes it and `parse_config_arg` reads it.
The reader tokenizes in place, so empty parts vanish and of several parts with
one key the last one counts. `PartOk` and `argValue` say what it accepts and
what it takes from it, over the parts of the string; `parseConfigArg_iff` is
that it does exactly this, and `config_arg_exact` adds what comes of the
launcher's string.

The strings are byte lists: a value's text is its UTF-8 form, in which a comma
or an equals sign is never part of another character.
-/
namespace AcsVirt.L4

/-- mirrors src/drivers/virtio-blkd.h:17-22 -/
structure BlkdConfig where
  image : Bytes
  socket : Bytes
  ramAccess : Bytes
  readonly : Bool
  deriving DecidableEq, Repr

/-- mirrors src/drivers/virtio-blkd.c:690-698 -/
def copyValue (value : Bytes) (outLen : Nat) : Option Bytes :=
  if outLen ≤ value.length then none else some value

/-- mirrors src/drivers/virtio-blkd.c:707-717 -/
def parseBoolValue (value : Bytes) : Option Bool :=
  if value = text "true" ∨ value = text "1" then some true
  else if value = text "false" ∨ value = text "0" then some false
  else none

/-- One turn of the loop.
mirrors src/drivers/virtio-blkd.c:741-770 -/
def parsePart (cfg : BlkdConfig) (part : Bytes) : Option BlkdConfig :=
  match cutAt 61 part with
  | (_, none) => none
  | (key, some value) =>
    if key = text "image" then (copyValue value 4096).map fun v => { cfg with image := v }
    else if key = text "socket" then (copyValue value 4096).map fun v => { cfg with socket := v }
    else if key = text "ram_access" then (copyValue value 128).map fun v => { cfg with ramAccess := v }
    else if key = text "readonly" then (parseBoolValue value).map fun v => { cfg with readonly := v }
    else if key = text "name" then some cfg
    else none

/-- mirrors src/drivers/virtio-blkd.c:739-771 -/
def parseParts (cfg : BlkdConfig) (s : Bytes) : Option BlkdConfig :=
  match _h : strtok 44 s with
  | none => some cfg
  | some (part, rest) =>
    match parsePart cfg part with
    | none => none
    | some cfg => parseParts cfg rest
termination_by s.length
decreasing_by exact strtok_length _h

/-- mirrors src/drivers/virtio-blkd.c:730-733 -/
def defaultConfig : BlkdConfig := ⟨[], [], text "shared-mem", false⟩

/-- mirrors src/drivers/virtio-blkd.c:726-775 -/
def parseConfigArg (arg : Bytes) : Option BlkdConfig :=
  match parseParts defaultConfig arg with
  | none => none
  | some cfg => if cfg.image ≠ [] ∧ cfg.socket ≠ [] then some cfg else none

/-! ## The grammar -/

/-- The keys, and the values each of them takes. -/
def Takes (key value : Bytes) : Prop :=
  key = text "name" ∨
  (key = text "image" ∨ key = text "socket") ∧ value.length < 4096 ∨
  key = text "ram_access" ∧ value.length < 128 ∨
  key = text "readonly" ∧ value ∈ [text "true", text "1", text "false", text "0"]

instance (key value : Bytes) : Decidable (Takes key value) := inferInstanceAs (Decidable (_ ∨ _))

/-- A key, an equals sign, and a value the key takes. -/
def PartOk (part : Bytes) : Prop :=
  ∃ key value, part = key ++ 61 :: value ∧ 61 ∉ key ∧ Takes key value

/-- The value of a part with this key: what follows its first equals sign. -/
def valueIn (key part : Bytes) : Option Bytes :=
  if (cutAt 61 part).1 = key then (cutAt 61 part).2 else none

/-- The value of the last part with this key. -/
def argValue (key : Bytes) : List Bytes → Option Bytes
  | [] => none
  | p :: ps => (argValue key ps).or (valueIn key p)

/-- What a boolean value says. -/
def isTrueValue (value : Bytes) : Bool := value = text "true" ∨ value = text "1"

/-- The fields that a list of parts leaves in a configuration. -/
def BlkdConfig.assign (cfg : BlkdConfig) (ps : List Bytes) : BlkdConfig where
  image := (argValue (text "image") ps).getD cfg.image
  socket := (argValue (text "socket") ps).getD cfg.socket
  ramAccess := (argValue (text "ram_access") ps).getD cfg.ramAccess
  readonly := ((argValue (text "readonly") ps).map isTrueValue).getD cfg.readonly

/-! ## The parser and its grammar -/

theorem map_copyValue {value : Bytes} {n : Nat} {f : Bytes → BlkdConfig} {cfg : BlkdConfig} :
    (copyValue value n).map f = some cfg ↔ value.length < n ∧ cfg = f value := by
  unfold copyValue
  split
  next h => simp [Nat.not_lt.2 h]
  next h => simp [Nat.not_le.1 h, eq_comm]

theorem map_parseBoolValue {value : Bytes} {f : Bool → BlkdConfig} {cfg : BlkdConfig} :
    (parseBoolValue value).map f = some cfg ↔
      value ∈ [text "true", text "1", text "false", text "0"] ∧ cfg = f (isTrueValue value) := by
  unfold parseBoolValue isTrueValue
  by_cases ht : value = text "true" ∨ value = text "1"
  · have hmem : value ∈ [text "true", text "1", text "false", text "0"] := by
      simp only [List.mem_cons]
      rcases ht with h | h
      · exact .inl h
      · exact .inr (.inl h)
    rw [if_pos ht]
    simp [hmem, ht, eq_comm]
  · obtain ⟨h1, h2⟩ := not_or.1 ht
    rw [if_neg ht]
    by_cases hf : value = text "false" ∨ value = text "0"
    · simp [h1, h2, hf, eq_comm]
    · simp [h1, h2, hf]

theorem partOk_iff {key value : Bytes} (h : 61 ∉ key) :
    PartOk (key ++ 61 :: value) ↔ Takes key value := by
  constructor
  · intro hp
    obtain ⟨k, v, hpart, hk, htakes⟩ := hp
    have e := (cutAt_append h value).symm.trans (hpart ▸ cutAt_append hk v)
    cases e
    exact htakes
  · intro ht
    exact ⟨key, value, rfl, h, ht⟩

theorem valueIn_append {key : Bytes} (h : 61 ∉ key) (k value : Bytes) :
    valueIn k (key ++ 61 :: value) = if key = k then some value else none := by
  rw [valueIn, cutAt_append h]

theorem keys_distinct :
    [text "name", text "image", text "socket", text "ram_access", text "readonly"].Nodup := by decide

/-- One turn of the loop takes the parts of the grammar, and assigns their value. -/
theorem parsePart_iff {cfg cfg' : BlkdConfig} {part : Bytes} :
    parsePart cfg part = some cfg' ↔ PartOk part ∧ cfg' = cfg.assign [part] := by
  obtain ⟨hmem, hcut⟩ := cutAt_spec 61 part
  rcases hcut with ⟨hnone, hpart⟩ | ⟨value, hsome, hpart⟩
  · -- a part without an equals sign
    rw [← hpart] at hmem
    have hbad : ¬PartOk part := by
      intro hp
      obtain ⟨k, v, hk, _⟩ := hp
      exact hmem (hk ▸ List.mem_append_right _ List.mem_cons_self)
    simp only [parsePart, cutAt_eq_none hmem, hbad, false_and, reduceCtorEq]
  · generalize (cutAt 61 part).1 = key at hmem hpart
    subst hpart
    have hkeys := keys_distinct
    simp only [List.nodup_cons, List.mem_cons, List.not_mem_nil, or_false, not_or] at hkeys
    simp only [partOk_iff hmem, parsePart, cutAt_append hmem, BlkdConfig.assign, argValue, valueIn_append hmem,
      Option.none_or]
    obtain ⟨⟨hni, hns, hnr, hno⟩, ⟨his, hir, hio⟩, ⟨hsr, hso⟩, hro, _⟩ := hkeys
    by_cases himage : key = text "image"
    · subst himage
      simp [-Option.map_eq_some_iff, Takes, map_copyValue, Ne.symm hni, his, hir, hio]
    by_cases hsocket : key = text "socket"
    · subst hsocket
      simp [-Option.map_eq_some_iff, Takes, map_copyValue, Ne.symm hns, Ne.symm his, hsr, hso]
    by_cases hram : key = text "ram_access"
    · subst hram
      simp [-Option.map_eq_some_iff, Takes, map_copyValue, Ne.symm hnr, Ne.symm hir, Ne.symm hsr, hro]
    by_cases hreadonly : key = text "readonly"
    · subst hreadonly
      simp [-Option.map_eq_some_iff, Takes, map_parseBoolValue, Ne.symm hno, Ne.symm hio, Ne.symm hso, Ne.symm hro]
    by_cases hname : key = text "name"
    · subst hname
      simp only [Takes, himage, hsocket, hram, hreadonly, if_true, if_false, true_or, true_and, Option.some.injEq,
        Option.getD_none, Option.map_none]
      exact eq_comm
    · simp [Takes, himage, hsocket, hram, hreadonly, hname]

theorem assign_nil (cfg : BlkdConfig) : cfg.assign [] = cfg := rfl

theorem argValue_cons (key p : Bytes) (ps : List Bytes) :
    argValue key (p :: ps) = (argValue key ps).or (argValue key [p]) := by
  rw [argValue, argValue, argValue, Option.none_or]

theorem assign_cons (cfg : BlkdConfig) (p : Bytes) (ps : List Bytes) :
    cfg.assign (p :: ps) = (cfg.assign [p]).assign ps := by
  have hor : ∀ {γ : Type} (o o' : Option γ) (c : γ), (o.or o').getD c = o.getD (o'.getD c) := by
    intro γ o o' c
    cases o <;> rfl
  simp only [BlkdConfig.assign, argValue_cons _ p ps, Option.map_or, hor]

/-- The whole loop takes the strings whose parts are in the grammar. -/
theorem parseParts_iff {s : Bytes} {cfg cfg' : BlkdConfig} :
    parseParts cfg s = some cfg' ↔ (∀ p ∈ tokens 44 s, PartOk p) ∧ cfg' = cfg.assign (tokens 44 s) := by
  fun_induction parseParts cfg s with
  | case1 cfg s hnone => simp [tokens_strtok_none hnone, assign_nil, eq_comm]
  | case2 cfg s part rest hsome hbad =>
    rw [tokens_strtok hsome]
    have hpart : ¬PartOk part := by
      intro hp
      have : parsePart cfg part = some (cfg.assign [part]) := parsePart_iff.2 ⟨hp, rfl⟩
      rw [hbad] at this
      cases this
    simp [hpart]
  | case3 cfg s part rest hsome cfg₁ hpart ih =>
    obtain ⟨hok, hcfg⟩ := parsePart_iff.1 hpart
    rw [ih, tokens_strtok hsome, assign_cons, ← hcfg, List.forall_mem_cons]
    exact ⟨fun h => ⟨⟨hok, h.1⟩, h.2⟩, fun h => ⟨h.1.2, h.2⟩⟩

/-- What the daemon accepts, and the configuration it then has. -/
theorem parseConfigArg_iff {arg : Bytes} {cfg : BlkdConfig} : parseConfigArg arg = some cfg ↔
    (∀ p ∈ tokens 44 arg, PartOk p) ∧
    (∃ image, argValue (text "image") (tokens 44 arg) = some image ∧ image ≠ []) ∧
    (∃ socket, argValue (text "socket") (tokens 44 arg) = some socket ∧ socket ≠ []) ∧
    cfg = defaultConfig.assign (tokens 44 arg) := by
  have hget : ∀ o : Option Bytes, o.getD [] ≠ [] ↔ ∃ v, o = some v ∧ v ≠ [] := by
    intro o
    cases o <;> simp
  unfold parseConfigArg
  cases hparse : parseParts defaultConfig arg with
  | none =>
    simp only [reduceCtorEq, false_iff]
    intro h
    have : parseParts defaultConfig arg = some cfg := parseParts_iff.2 ⟨h.1, h.2.2.2⟩
    rw [hparse] at this
    cases this
  | some cfg₁ =>
    obtain ⟨hok, hcfg⟩ := parseParts_iff.1 hparse
    have himage : cfg₁.image ≠ [] ↔ ∃ v, argValue (text "image") (tokens 44 arg) = some v ∧ v ≠ [] := by
      rw [hcfg]
      exact hget _
    have hsocket : cfg₁.socket ≠ [] ↔ ∃ v, argValue (text "socket") (tokens 44 arg) = some v ∧ v ≠ [] := by
      rw [hcfg]
      exact hget _
    rw [← himage, ← hsocket, ← hcfg]
    dsimp only
    split
    next hne =>
      rw [Option.some.injEq]
      exact ⟨fun h => ⟨hok, hne.1, hne.2, h.symm⟩, fun h => h.2.2.2.symm⟩
    next hne =>
      simp only [reduceCtorEq, false_iff]
      exact fun h => hne ⟨h.2.1, h.2.2.1⟩

/-! ## The launcher -/

/-- A value of the launcher's mapping: a `bool`, or something with this `str`. -/
inductive PyValue where
  | bool (b : Bool)
  | other (str : Bytes)
  deriving DecidableEq, Repr

/-- mirrors scripts/chiplets-launcher.py:109-112 -/
def PyValue.str : PyValue → Bytes
  | .bool true => text "true"
  | .bool false => text "false"
  | .other str => str

/-- The truth value a value stands for. -/
def PyValue.truth : PyValue → Bool
  | .bool b => b
  | .other str => isTrueValue str

theorem PyValue.isTrueValue_str (v : PyValue) : isTrueValue v.str = v.truth := by
  cases v with
  | bool b => cases b <;> decide
  | other str => rfl

/-- The parts of the argument, or an exception.
mirrors scripts/chiplets-launcher.py:107-115 -/
def keyValueParts : List (Bytes × PyValue) → Option (List Bytes)
  | [] => some []
  | kv :: values =>
    if 44 ∈ kv.2.str ∨ 61 ∈ kv.2.str then none
    else (keyValueParts values).map ((kv.1 ++ 61 :: kv.2.str) :: ·)

/-- mirrors scripts/chiplets-launcher.py:106-116 -/
def keyValueArg (values : List (Bytes × PyValue)) : Option Bytes :=
  (keyValueParts values).map fun parts => [44].intercalate parts

theorem keyValueParts_eq_some {values : List (Bytes × PyValue)} {parts : List Bytes}
    (h : keyValueParts values = some parts) :
    parts = values.map (fun kv => kv.1 ++ 61 :: kv.2.str) ∧ ∀ kv ∈ values, 44 ∉ kv.2.str := by
  induction values generalizing parts with
  | nil => exact ⟨(Option.some.inj h).symm, fun _ hkv => absurd hkv List.not_mem_nil⟩
  | cons kv values ih =>
    rw [keyValueParts] at h
    split at h
    · cases h
    next hbad =>
      obtain ⟨ps, hps, hcons⟩ := Option.map_eq_some_iff.1 h
      obtain ⟨hmap, hall⟩ := ih hps
      refine ⟨by rw [← hcons, hmap]; rfl, ?_⟩
      intro kv' hkv'
      rcases List.mem_cons.1 hkv' with e | hkv'
      · exact e ▸ (not_or.1 hbad).1
      · exact hall kv' hkv'

/-- No key has a comma or an equals sign in it. -/
theorem Takes.plain {key value : Bytes} (h : Takes key value) : 44 ∉ key ∧ 61 ∉ key := by
  have hall : ∀ k ∈ [text "name", text "image", text "socket", text "ram_access", text "readonly"],
      44 ∉ k ∧ 61 ∉ k := by decide
  apply hall
  rcases h with h | ⟨h | h, _⟩ | ⟨h, _⟩ | ⟨h, _⟩ <;> simp [h]

/-- With one value for each key, the last value is the value. -/
theorem argValue_map {values : List (Bytes × PyValue)} (hkeys : (values.map Prod.fst).Nodup)
    (hplain : ∀ kv ∈ values, 61 ∉ kv.1) (key : Bytes) :
    argValue key (values.map fun kv => kv.1 ++ 61 :: kv.2.str) = (values.lookup key).map PyValue.str := by
  induction values with
  | nil => rfl
  | cons kv values ih =>
    obtain ⟨k, v⟩ := kv
    obtain ⟨hfresh, hkeys⟩ := List.nodup_cons.1 hkeys
    have ih := ih hkeys fun kv hkv => hplain kv (List.mem_cons_of_mem _ hkv)
    rw [List.map_cons, argValue, ih, valueIn_append (hplain _ List.mem_cons_self), List.lookup_cons]
    by_cases hk : k = key
    · subst hk
      have hnone : values.lookup k = none := by
        refine List.lookup_eq_none_iff.2 fun p hp => bne_iff_ne.2 fun e => hfresh ?_
        exact List.mem_map.2 ⟨p, hp, e.symm⟩
      simp [hnone]
    · have hbeq : (key == k) = false := beq_false_of_ne (Ne.symm hk)
      simp [hk, hbeq]

/-- What the daemon makes of the launcher's argument. -/
theorem parseConfigArg_keyValueArg {values : List (Bytes × PyValue)} {arg : Bytes}
    (hkeys : (values.map Prod.fst).Nodup) (henc : keyValueArg values = some arg)
    (htakes : ∀ kv ∈ values, Takes kv.1 kv.2.str) {image socket : PyValue}
    (himage : values.lookup (text "image") = some image) (himage0 : image.str ≠ [])
    (hsocket : values.lookup (text "socket") = some socket) (hsocket0 : socket.str ≠ []) :
    parseConfigArg arg = some
      { image := image.str
        socket := socket.str
        ramAccess := ((values.lookup (text "ram_access")).map PyValue.str).getD (text "shared-mem")
        readonly := ((values.lookup (text "readonly")).map PyValue.truth).getD false } := by
  obtain ⟨parts, hparts, harg⟩ := Option.map_eq_some_iff.1 henc
  obtain ⟨hmap, hcomma⟩ := keyValueParts_eq_some hparts
  have hpart : ∀ p ∈ parts, 44 ∉ p ∧ p ≠ [] := by
    intro p hp
    rw [hmap] at hp
    obtain ⟨kv, hkv, e⟩ := List.mem_map.1 hp
    subst e
    refine ⟨?_, by simp⟩
    simp only [List.mem_append, List.mem_cons, not_or]
    exact ⟨(htakes kv hkv).plain.1, by decide, hcomma kv hkv⟩
  have htok : tokens 44 arg = parts := by rw [← harg]; exact tokens_intercalate hpart
  have hlast : ∀ key, argValue key (tokens 44 arg) = (values.lookup key).map PyValue.str := by
    intro key
    rw [htok, hmap]
    exact argValue_map hkeys (fun kv hkv => (htakes kv hkv).plain.2) key
  refine parseConfigArg_iff.2 ⟨?_, ⟨image.str, ?_, himage0⟩, ⟨socket.str, ?_, hsocket0⟩, ?_⟩
  · intro p hp
    rw [htok, hmap] at hp
    obtain ⟨kv, hkv, e⟩ := List.mem_map.1 hp
    exact ⟨kv.1, kv.2.str, e.symm, (htakes kv hkv).plain.2, htakes kv hkv⟩
  · rw [hlast, himage]
    rfl
  · rw [hlast, hsocket]
    rfl
  · have htruth : isTrueValue ∘ PyValue.str = PyValue.truth := funext PyValue.isTrueValue_str
    simp only [BlkdConfig.assign, hlast, himage, hsocket, Option.map_some, Option.getD_some, Option.map_map, htruth,
      defaultConfig]

/-- **The argument is read as it is written.** The daemon accepts exactly the
strings whose non-empty parts are in the grammar and whose last image and
socket are there and not empty; each field is then the last value of its key,
or its default. So a mapping the launcher can encode, with values the daemon
takes, comes back. -/
theorem config_arg_exact :
    (∀ arg cfg, parseConfigArg arg = some cfg ↔
      (∀ p ∈ tokens 44 arg, PartOk p) ∧
      (∃ image, argValue (text "image") (tokens 44 arg) = some image ∧ image ≠ []) ∧
      (∃ socket, argValue (text "socket") (tokens 44 arg) = some socket ∧ socket ≠ []) ∧
      cfg = defaultConfig.assign (tokens 44 arg)) ∧
    ∀ (values : List (Bytes × PyValue)) (arg : Bytes), (values.map Prod.fst).Nodup → keyValueArg values = some arg →
      (∀ kv ∈ values, Takes kv.1 kv.2.str) → ∀ image socket : PyValue,
      values.lookup (text "image") = some image → image.str ≠ [] →
      values.lookup (text "socket") = some socket → socket.str ≠ [] →
      parseConfigArg arg = some
        { image := image.str
          socket := socket.str
          ramAccess := ((values.lookup (text "ram_access")).map PyValue.str).getD (text "shared-mem")
          readonly := ((values.lookup (text "readonly")).map PyValue.truth).getD false } :=
  ⟨fun _ _ => parseConfigArg_iff, fun _ _ hkeys henc htakes _ _ hi hi0 hs hs0 =>
    parseConfigArg_keyValueArg hkeys henc htakes hi hi0 hs hs0⟩

/-- A launcher's mapping, with the one field that has no text. -/
theorem config_arg_launched :
    keyValueArg [(text "name", .other (text "disk")), (text "socket", .other (text "/s")),
        (text "image", .other (text "/i")), (text "readonly", .bool true)] =
      some (text "name=disk,socket=/s,image=/i,readonly=true") ∧
    parseConfigArg (text "name=disk,socket=/s,image=/i,readonly=true") =
      some ⟨text "/i", text "/s", text "shared-mem", true⟩ :=
  have henc : keyValueArg [(text "name", .other (text "disk")), (text "socket", .other (text "/s")),
      (text "image", .other (text "/i")), (text "readonly", .bool true)] =
      some (text "name=disk,socket=/s,image=/i,readonly=true") := by decide +kernel
  ⟨henc, config_arg_exact.2 _ _ (by decide) henc (by decide) (.other (text "/i")) (.other (text "/s")) (by decide)
    (by decide) (by decide) (by decide)⟩

end AcsVirt.L4
