import AcsVirt.L2Machine.FileIo
import AcsVirt.L4Device.ChainEffects
import AcsVirt.L4Device.Connection

/-!
# The image under arbitrary guests

Nothing is assumed of the guest here: it writes any register, its memory may
read differently at every access, chains may be malformed and any call may
fail. The host file is changed by `pwrite` only, within the span it is given,
and grows if that span goes past its end (`HostDisk`; `pwriteAll_hostDisk` says
that `pwrite_all` is of this kind).

Each `pwrite` the device makes passed the bounds check of `blkd_block_write`,
so the file never grows (`ImageSafe`). That it also starts at or after the
request's sector is not obvious: the offset is `sector * 512` plus a wrapping
32-bit length in 64 bits. It holds because a rejected piece ends the status OK
for good, so that once any length has been added the start was below `2 ^ 63`
(`chainLoop_outSpan`).
-/
namespace AcsVirt.L4

open L1 L2

/-! ## The host file -/

/-- The bytes a call may change in the image. -/
def ImageWrites : Call → Nat → Prop
  | .pwrite offset data, x => offset.toNat ≤ x ∧ x < offset.toNat + data.length
  | _, _ => False

section
variable {W : Type} {R : Handler fabricSig W} {file : W → HostFile}

/-- The file has no other writer, and `pwrite` changes what it is given. -/
structure HostDisk (R : Handler fabricSig W) (file : W → HostFile) : Prop where
  pwrite : ∀ {w w' : W} {offset : UInt64} {data : Bytes} {ok : Bool}, R w (.pwrite offset data) ok w' →
    ChangesOnly (ImageWrites (.pwrite offset data)) (file w).bytes (file w').bytes ∧
      (file w).len ≤ (file w').len ∧ (file w').len ≤ max (file w).len (offset.toNat + data.length)
  other : ∀ {w w' : W} {c : Call} {r : c.Reply}, (∀ offset data, c ≠ .pwrite offset data) → R w c r w' →
    file w' = file w

/-- A `pwrite_all` that was cut short in any way is such a call. -/
theorem pwriteAll_hostDisk {sched : List SysRet} {pos : Nat} {offset : UInt64} {data : Bytes}
    {buf : Mem} (hfit : Fits sched data.length) (f : HostFile) :
    let f' := (pwriteAll buf sched pos data.length offset.toNat f).2
    ChangesOnly (ImageWrites (.pwrite offset data)) f.bytes f'.bytes ∧
      f.len ≤ f'.len ∧ f'.len ≤ max f.len (offset.toNat + data.length) := by
  obtain ⟨k, hk, hf, _⟩ := pwriteAll_spec hfit pos offset.toNat buf f
  dsimp only
  rw [hf, HostFile.pwrite]
  split
  · exact ⟨.refl _ _, Nat.le_refl _, by omega⟩
  · refine ⟨fun x hx => writeBytes_out ?_, ?_, ?_⟩
    · simp only [ImageWrites] at hx
      rw [readBytes_length]
      omega
    · exact Nat.le_max_left _ _
    · simp only [readBytes_length]
      omega

theorem HostDisk.call (hR : HostDisk R file) {w w' : W} {c : Call} {r : c.Reply} (h : R w c r w') :
    ChangesOnly (ImageWrites c) (file w).bytes (file w').bytes := by
  cases c with
  | pwrite offset data => exact (hR.pwrite h).1
  | _ =>
    rw [hR.other (fun _ _ e => by cases e) h]
    exact .refl _ _

theorem HostDisk.changed (hR : HostDisk R file) {w w' : W} {es : List FabricEvent}
    (h : Answered R w es w') {x : Nat} (hx : (file w').bytes x ≠ (file w).bytes x) :
    ∃ e ∈ es, ImageWrites e.1 x := by
  induction h with
  | nil w => exact absurd rfl hx
  | @cons c r es w w' w'' hr _ ih =>
    by_cases hc : ImageWrites c x
    · exact ⟨_, List.mem_cons_self, hc⟩
    · rw [← hR.call hr x hc] at hx
      obtain ⟨e, he, hx⟩ := ih hx
      exact ⟨e, List.mem_cons_of_mem _ he, hx⟩

/-! ## Calls that leave the image in shape -/

/-- A write only of a writable image and inside it. -/
def ImageSafe (b : BlkdBlockBackend) : Call → Prop
  | .pwrite offset data => b.readonly = false ∧ offset.toNat + data.length ≤ b.imageLen.toNat
  | _ => True

theorem HostDisk.safe (hR : HostDisk R file) {b : BlkdBlockBackend} {w w' : W}
    {es : List FabricEvent} (h : Answered R w es w') (hes : ∀ e ∈ es, ImageSafe b e.1)
    (hlen : (file w).len = b.imageLen.toNat) :
    (file w').len = b.imageLen.toNat ∧ (b.readonly = true → file w' = file w) := by
  induction h with
  | nil w => exact ⟨hlen, fun _ => rfl⟩
  | @cons c r es w w' w'' hr _ ih =>
    obtain ⟨he, hrest⟩ := List.forall_mem_cons.1 hes
    cases c with
    | pwrite offset data =>
      obtain ⟨hro, hin⟩ := he
      obtain ⟨_, hge, hle⟩ := hR.pwrite hr
      obtain ⟨hlen', _⟩ := ih hrest (by omega)
      exact ⟨hlen', fun h => by rw [hro] at h; cases h⟩
    | _ =>
      have hsame := hR.other (fun _ _ e => by cases e) hr
      rw [← hsame] at hlen ⊢
      exact ih hrest hlen

end

/-- A write only for an OUT request, and then from `lo` on as well. -/
def OutSpan (b : BlkdBlockBackend) (req : ReqType) (lo : Nat) : Call → Prop
  | .pwrite offset data =>
    req = .tOut ∧ b.readonly = false ∧ lo ≤ offset.toNat ∧ offset.toNat + data.length ≤ b.imageLen.toNat
  | _ => True

def NoPwrite : Call → Prop
  | .pwrite .. => False
  | _ => True

theorem NoPwrite.outSpan {c : Call} (h : NoPwrite c) (b : BlkdBlockBackend) (req : ReqType)
    (lo : Nat) :
    OutSpan b req lo c := by
  cases c <;> trivial

theorem OutSpan.safe {b : BlkdBlockBackend} {req : ReqType} {lo : Nat} {c : Call}
    (h : OutSpan b req lo c) :
    ImageSafe b c := by
  cases c with
  | pwrite offset data => exact ⟨h.2.1, h.2.2.2⟩
  | _ => trivial

/-! ## One data descriptor -/

theorem DataCalls.noPwrite (desc : VirtioDesc) : DataCalls NoPwrite desc :=
  ⟨trivial, fun _ => trivial, trivial, fun _ => trivial, fun _ _ => trivial, trivial⟩

section
variable {b : BlkdBlockBackend} {req : ReqType} {lo : Nat} {χ : Fault → Prop}

/-- A piece of an OUT request stays inside the image; if it goes through, its
offset is below `2 ^ 63`. -/
theorem writeData_outSpan {s : BlkdState} (hs : s.backend = b) (desc : VirtioDesc) {offset : UInt64}
    (hlo : lo ≤ offset.toNat) : (writeData s desc offset).Sat (OutSpan b .tOut lo) χ
      fun r => r.1.backend = b ∧ (r.2 = some .ok → offset.toNat < 2 ^ 63) := by
  refine Prog.Sat.bind (ensureIoBuf_sat trivial s) fun r hr => ?_
  cases r with
  | none => exact Prog.Sat.ret ⟨hs, fun e => by cases e⟩
  | some t =>
    have ht : t.backend = b := (hr t rfl).backend.symm.trans hs
    refine Prog.Sat.bind (dmaReadInto_sat _ _ trivial) fun r _ => ?_
    cases r with
    | none => exact Prog.Sat.ret ⟨ht, fun e => by cases e⟩
    | some data =>
      have hwrite : (blkdBlockWrite (t.fill data).backend offset ((t.fill data).ioBuf.take desc.len.toNat) desc.len).Sat
          (OutSpan b .tOut lo) χ fun ok => ok = true → offset.toNat < 2 ^ 63 := by
        unfold blkdBlockWrite
        split
        · exact Prog.Sat.ret fun e => by cases e
        next hin =>
          rw [Bool.or_eq_true, not_or, Bool.not_eq_true, Bool.not_eq_true] at hin
          have hbk : (t.fill data).backend = b := ht
          rw [hbk] at hin
          obtain ⟨hfit, hmax⟩ := outside_false.1 hin.2
          have htake := List.length_take_le desc.len.toNat (t.fill data).ioBuf
          exact (pwrite_sat _ _ ⟨rfl, hin.1, hlo, by omega⟩).mono fun _ _ _ => hmax
      refine Prog.Sat.bind hwrite fun ok hok => ?_
      split
      next h => exact Prog.Sat.ret ⟨ht, fun _ => hok h⟩
      · exact Prog.Sat.ret ⟨ht, fun e => by cases e⟩

/-- One data descriptor: the status of an OUT request is OK afterwards only if
it was before and the piece went through. -/
theorem dataStep_outSpan {s : BlkdState} (hs : s.backend = b) (direct : Bool) (desc : VirtioDesc)
    {offset : UInt64} {status : BlkStatus} (hlo : req = .tOut → status = .ok → lo ≤ offset.toNat) :
    (dataStep direct req s desc offset status).Sat (OutSpan b req lo) χ
      fun r => r.1.backend = b ∧ (req = .tOut → r.2 = some .ok → status = .ok ∧ offset.toNat < 2 ^ 63) := by
  unfold dataStep
  cases req with
  | tIn =>
    dsimp only
    split
    · exact Prog.Sat.ret ⟨hs, fun e => by cases e⟩
    split
    · refine Prog.Sat.bind ((readData_sat (.noPwrite desc) direct s offset).weaken fun c hc => hc.outSpan b _ lo)
        fun r hr => ?_
      exact Prog.Sat.ret ⟨hr.backend.symm.trans hs, fun e => by cases e⟩
    · exact Prog.Sat.ret ⟨hs, fun e => by cases e⟩
  | tOut =>
    dsimp only
    split
    · exact Prog.Sat.ret ⟨hs, fun _ e => by cases e⟩
    split
    next hok =>
      refine (writeData_outSpan hs desc (hlo rfl hok)).mono fun r hr => ?_
      exact ⟨hr.1, fun _ h => ⟨hok, hr.2 h⟩⟩
    next hbad => exact Prog.Sat.ret ⟨hs, fun _ e => absurd (Option.some.inj e) hbad⟩
  | tFlush => exact Prog.Sat.ret ⟨hs, fun e => by cases e⟩
  | other => exact Prog.Sat.ret ⟨hs, fun e => by cases e⟩

/-! ## A whole chain -/

/-- The descriptor loop: while an OUT request is OK, either nothing was added to
its offset yet or the offset is so small that nothing wraps. -/
theorem chainLoop_outSpan (direct : Bool) (q : VirtioQueue) {offset : UInt64} (hf : χ .fuel)
    (fuel : Nat) {s : BlkdState} (hs : s.backend = b) (index : UInt16) (chainSeen : UInt32)
    {status : BlkStatus} {dataLen : UInt32}
    (hinv : req = .tOut → status = .ok → lo ≤ offset.toNat ∧ (dataLen = 0 ∨ offset.toNat < 2 ^ 63)) :
    (chainLoop direct q req offset fuel s index chainSeen status dataLen).Sat (OutSpan b req lo) χ
      fun r => r.1.backend = b := by
  induction fuel generalizing s index chainSeen status dataLen with
  | zero => exact Prog.Sat.fault hf
  | succ fuel ih =>
    unfold chainLoop
    split
    · exact Prog.Sat.ret hs
    refine Prog.Sat.bind (virtioReadDesc_sat (fun _ _ => trivial) _ _) fun r _ => ?_
    cases r with
    | none => exact Prog.Sat.ret hs
    | some desc =>
      dsimp only
      split
      · exact Prog.Sat.ret hs
      have hsum : req = .tOut → status = .ok → offset.toNat ≤ (offset + dataLen.toUInt64).toNat := by
        intro hreq hok
        have hlen := dataLen.toNat_lt
        rw [UInt64.toNat_add, UInt32.toNat_toUInt64]
        rcases (hinv hreq hok).2 with h0 | hsmall
        · have h0' : dataLen.toNat = 0 := by rw [h0]; rfl
          have := offset.toNat_lt
          omega
        · omega
      have hstep := dataStep_outSpan (χ := χ) hs direct desc (fun hreq hok => Nat.le_trans (hinv hreq hok).1 (hsum hreq hok))
      refine Prog.Sat.bind hstep fun r hr => ?_
      obtain ⟨t, r⟩ := r
      obtain ⟨ht, hgo⟩ := hr
      cases r with
      | none => exact Prog.Sat.ret ht
      | some after =>
        refine ih ht _ _ fun hreq hok => ?_
        rw [hok] at hgo
        obtain ⟨hbefore, hsmall⟩ := hgo hreq rfl
        have := hsum hreq hbefore
        exact ⟨(hinv hreq hbefore).1, .inr (by omega)⟩

end

/-- The header of a chain, as its calls show it: the first reads the head
descriptor, the second what that points to. -/
def HeaderRead (q : VirtioQueue) (head : UInt16) (es : List FabricEvent) (header : Bytes) : Prop :=
  ∃ raw, es[0]? = some ⟨.dmaReadInto (descAddr q head) 16, some raw⟩ ∧
    es[1]? = some ⟨.dmaReadInto (decodeDesc raw).addr 16, some header⟩

def headerType (header : Bytes) : ReqType := .ofWord (virtioLoadLe32 header)

def headerSector (header : Bytes) : UInt64 := virtioLoadLe64 (header.drop 8)

theorem NoPwrite.of_read {gpa : UInt64} {len : UInt32} {es : List FabricEvent}
    (h : Begins (dmaReadInto gpa len) es) : ∀ e ∈ es, NoPwrite e.1 :=
  (dmaReadInto_sat (χ := fun _ => True) gpa len trivial).begins h

/-- What comes after the header. -/
theorem chainRest_outSpan (direct : Bool) (fuel : Nat) (d : BlkdVirtioDevice) (index : UInt16)
    (header : Bytes) :
    Prog.Sat (S := fabricSig) (OutSpan d.priv.backend (headerType header) ((headerSector header).toNat * 512))
      (fun _ : Fault => True) (fun r : BlkdVirtioDevice × Option UInt32 => r.1.priv.backend = d.priv.backend) (do
        match ← chainLoop direct (d.queue 0) (headerType header) (startOffset (headerSector header)) fuel d.priv index 0
            (startStatus (headerType header) (headerSector header)) 0 with
        | (s, none) => return ({ d with priv := s }, none)
        | (s, some (statusDesc, status, dataLen)) =>
          let (s, r) ← finishChain (headerType header) s statusDesc status dataLen
          return ({ d with priv := s }, r)) := by
  refine Prog.Sat.bind (chainLoop_outSpan direct _ trivial fuel rfl index 0 fun _ hok => ?_) fun r hr => ?_
  · exact ⟨Nat.le_of_eq (startOffset_of_ok hok).symm, .inl rfl⟩
  · obtain ⟨s, r⟩ := r
    cases r with
    | none => exact Prog.Sat.ret hr
    | some r =>
      refine Prog.Sat.bind (finishChain_sat _ _ _ _ trivial fun _ => trivial) fun r' hr' => ?_
      exact Prog.Sat.ret (by rw [hr']; exact hr)

/-- A chain writes the image for an OUT request only, from its sector on. -/
theorem processChain_outSpan {direct : Bool} {fuel : Nat} {d : BlkdVirtioDevice} {head : UInt16}
    {es : List FabricEvent} (h : Begins (processChain direct fuel d head) es) :
    (∀ e ∈ es, NoPwrite e.1) ∨
      ∃ header, HeaderRead (d.queue 0) head es header ∧
        ∀ e ∈ es, OutSpan d.priv.backend (headerType header) ((headerSector header).toNat * 512) e.1 := by
  have hdesc : (virtioReadDesc (d.queue 0) head).Sat NoPwrite (fun _ => True) fun _ => True :=
    virtioReadDesc_sat (fun _ _ => trivial) _ _
  rcases h.bind_inv with h | ⟨r, es₁, es', rfl, h1, h⟩
  · exact .inl (hdesc.begins h)
  cases r with
  | none =>
    cases h.ret_inv
    exact .inl (by simpa using (hdesc.emits h1).1)
  | some desc =>
    obtain ⟨raw, rfl, rfl⟩ := virtioReadDesc_emits h1
    have hfirst : ∀ rest : List FabricEvent, (∀ e ∈ rest, NoPwrite e.1) →
        ∀ e ∈ (⟨.dmaReadInto (descAddr (d.queue 0) head) 16, some raw⟩ : FabricEvent) :: rest, NoPwrite e.1 :=
      fun rest hrest => List.forall_mem_cons.2 ⟨trivial, hrest⟩
    dsimp only at h
    split at h
    · cases h.ret_inv
      exact .inl (hfirst [] fun _ he => absurd he List.not_mem_nil)
    rcases h.bind_inv with h | ⟨r, es₁, rest, rfl, h2, hrest⟩
    · exact .inl (hfirst es' (NoPwrite.of_read h))
    have he := h2.perform_inv
    subst he
    cases r with
    | none =>
      cases hrest.ret_inv
      exact .inl (hfirst _ (List.forall_mem_cons.2 ⟨trivial, fun _ he => absurd he List.not_mem_nil⟩))
    | some header =>
      refine .inr ⟨header, ⟨raw, rfl, rfl⟩, ?_⟩
      have hspan := (chainRest_outSpan direct fuel d (decodeDesc raw).next header).begins hrest
      exact List.forall_mem_cons.2 ⟨trivial, List.forall_mem_cons.2 ⟨trivial, hspan⟩⟩

theorem processChain_safe {b : BlkdBlockBackend} (direct : Bool) (fuel : Nat) (d : BlkdVirtioDevice)
    (head : UInt16) (hd : d.priv.backend = b) :
    (processChain direct fuel d head).Sat (ImageSafe b) (fun _ => True) fun r => r.1.priv.backend = b := by
  subst hd
  refine Prog.Sat.bind (virtioReadDesc_sat (fun _ _ => trivial) _ _) fun r _ => ?_
  cases r with
  | none => exact Prog.Sat.ret rfl
  | some desc =>
    dsimp only
    split
    · exact Prog.Sat.ret rfl
    refine Prog.Sat.bind (dmaReadInto_sat _ _ trivial) fun r _ => ?_
    cases r with
    | none => exact Prog.Sat.ret rfl
    | some header => exact (chainRest_outSpan direct fuel d desc.next header).weaken fun c hc => hc.safe

theorem blkdMmioWrite_safe {b : BlkdBlockBackend} (direct : Bool) (fuel : Nat)
    {c : FabricBinding BlkdState} (hc : c.priv.backend = b) (offset value : UInt64) :
    (blkdMmioWrite direct fuel c offset value).Sat (ImageSafe b) (fun _ => True) fun r => r.1.priv.backend = b := by
  have hring : RingCalls (ImageSafe b) := ⟨fun _ _ => trivial, fun _ _ => trivial, trivial, trivial⟩
  refine mmioWrite_priv (I := fun s : BlkdState => s.backend = b) hring (fun d queue hd => ?_) hc offset value
  unfold blkdVirtioNotifyQueue
  split
  · exact ackReturn_priv (I := fun s : BlkdState => s.backend = b) hring hd
  · exact serviceQueue_priv (I := fun s : BlkdState => s.backend = b) hring (processChain_safe direct fuel) 0 fuel hd

/-! ## The daemon -/

section
variable {W : Type} {R : Handler fabricSig W} {file : W → HostFile}

/-- The image as the daemon opened it: of the recorded length, and untouched if
it is read-only. -/
structure ImageKept (b : BlkdBlockBackend) (f₀ f : HostFile) : Prop where
  len : f.len = b.imageLen.toNat
  readonly : b.readonly = true → f = f₀

theorem ImageKept.answered (hR : HostDisk R file) {b : BlkdBlockBackend} {f₀ : HostFile} {w w' : W}
    {es : List FabricEvent} (hk : ImageKept b f₀ (file w)) (hes : ∀ e ∈ es, ImageSafe b e.1)
    (ha : Answered R w es w') :
    ImageKept b f₀ (file w') := by
  obtain ⟨hlen, hro⟩ := hR.safe ha hes hk.len
  exact ⟨hlen, fun h => (hro h).trans (hk.readonly h)⟩

theorem disk_reachable (hR : HostDisk R file) {direct : Bool} {b : BlkdBlockBackend}
    {old : BlkdState} {w₀ : W} (hlen : (file w₀).len = b.imageLen.toNat)
    {s : FabricBinding BlkdState × W} (hs : (diskLts R direct b old w₀).Reachable s) :
    s.1.priv.backend = b ∧ ImageKept b (file w₀) (file s.2) := by
  refine LTS.Inductive.reachable (I := fun s : FabricBinding BlkdState × W =>
    s.1.priv.backend = b ∧ ImageKept b (file w₀) (file s.2)) ⟨?_, ?_⟩ s hs
  · intro s hs
    cases hs
    exact ⟨rfl, hlen, fun _ => rfl⟩
  · intro s l s' hi hstep
    obtain ⟨hb, hk⟩ := hi
    cases l with
    | connect =>
      cases hstep
      exact ⟨rfl, hk⟩
    | write fuel offset value =>
      obtain ⟨ok, hr⟩ := hstep
      obtain ⟨es, he, ha⟩ := hr.emits
      obtain ⟨hcalls, hb'⟩ := (blkdMmioWrite_safe direct fuel hb offset value).emits he
      exact ⟨hb', hk.answered hR hcalls ha⟩

/-- **The image is kept.** Whatever the guest does, at every point of every run
the image has its opened length and, if it is read-only, its opened contents.
A byte that a chain changes is in the image, at or after the sector its header
asked for, and the header asked for an OUT request. -/
theorem image_integrity (hR : HostDisk R file) (direct : Bool) (b : BlkdBlockBackend)
    (old : BlkdState) (w₀ : W) (hlen : (file w₀).len = b.imageLen.toNat) :
    (∀ s, (diskLts R direct b old w₀).Reachable s → s.1.priv.backend = b ∧
      ∀ fuel offset value es w', Begins (blkdMmioWrite direct fuel s.1 offset value) es → Answered R s.2 es w' →
        (file w').len = b.imageLen.toNat ∧ (b.readonly = true → file w' = file w₀)) ∧
    ∀ (d : BlkdVirtioDevice), d.priv.backend = b → ∀ fuel head es w w',
      Begins (processChain direct fuel d head) es → Answered R w es w' →
        ∀ x, (file w').bytes x ≠ (file w).bytes x → ∃ header, HeaderRead (d.queue 0) head es header ∧
          headerType header = .tOut ∧ (headerSector header).toNat * 512 ≤ x ∧ x < b.imageLen.toNat := by
  refine ⟨fun s hs => ?_, fun d hd fuel head es w w' hb ha x hx => ?_⟩
  · obtain ⟨hback, hk⟩ := disk_reachable hR hlen hs
    refine ⟨hback, fun fuel offset value es w' hb ha => ?_⟩
    have hk' := hk.answered hR ((blkdMmioWrite_safe direct fuel hback offset value).begins hb) ha
    exact ⟨hk'.len, hk'.readonly⟩
  · subst hd
    obtain ⟨e, he, hw⟩ := hR.changed ha hx
    obtain ⟨c, r⟩ := e
    cases c with
    | pwrite offset data =>
      rcases processChain_outSpan hb with hno | ⟨header, hh, hspan⟩
      · exact (hno _ he).elim
      · obtain ⟨hreq, _, hlo, hhi⟩ := hspan _ he
        obtain ⟨hx1, hx2⟩ := hw
        exact ⟨header, hh, hreq, by omega, by omega⟩
    | _ => exact hw.elim

end

/-- The guest at its worst: reads answer anything, every call may fail, and a
`pwrite` may stop after any part of its data. -/
def anyGuest : Handler fabricSig HostFile
  | f, .pwrite offset data, _, f' => ∃ k, f' = f.pwrite offset.toNat (data.take k)
  | f, _, _, f' => f' = f

theorem anyGuest_hostDisk : HostDisk anyGuest id where
  pwrite := by
    intro f f' offset data ok h
    obtain ⟨k, rfl⟩ := h
    have hk := List.length_take_le k data
    have hk' := List.length_take_le' k data
    simp only [id, HostFile.pwrite]
    split
    · exact ⟨.refl _ _, Nat.le_refl _, by omega⟩
    · refine ⟨fun x hx => writeBytes_out ?_, Nat.le_max_left _ _, ?_⟩
      · simp only [ImageWrites] at hx
        omega
      · simp only
        omega
  other := by
    intro f f' c r hc h
    cases c with
    | pwrite offset data => exact absurd rfl (hc offset data)
    | _ => exact h

theorem image_integrity_anyGuest : HostDisk anyGuest id ∧
    ∀ s, (diskLts anyGuest false ⟨1024, true⟩ noBuffer ⟨1024, fun _ => 7⟩).Reachable s → ∀ es w',
      Begins (blkdMmioWrite false 100 s.1 MmioReg.queueNotify.offset 0) es → Answered anyGuest s.2 es w' →
        w' = ⟨1024, fun _ => 7⟩ := by
  refine ⟨anyGuest_hostDisk, fun s hs es w' hb ha => ?_⟩
  have h := (image_integrity anyGuest_hostDisk false ⟨1024, true⟩ noBuffer ⟨1024, fun _ => 7⟩ rfl).1 s hs
  exact (h.2 100 _ 0 es w' hb ha).2 rfl

end AcsVirt.L4
