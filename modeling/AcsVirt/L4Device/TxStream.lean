import AcsVirt.L4Device.GuestBytes
import AcsVirt.L4Device.InOrder
import AcsVirt.L4Device.ServiceRun

/-!
# What the console prints

`InOrder` says which chains a notification completes; here is what it prints.
`TxWorld` is the shared queue with two things beside it: `contents`, what the
buffers of each post held when it was posted, piece by piece, and the bytes
printed so far. The driver leaves the buffers of a post in flight alone
(`TxDriverStep`), so what the device reads is what was posted (`Streaming`).

A chain appends its pieces in order, one for each descriptor and none of a
device-writable one (`txLoop_prints`); between two chains the output is the
contents of the posts published so far (`Printed`), and a notification ends
with the posts counted at its last look at the available index
(`console_stream`). A notification of another queue, or of one that is not
ready, leads to an interrupt call and nothing else.

The size has to be one a 16-bit index can tell apart. A driver of 65536
entries that fills its ring has moved the index back to where it was
(`console_stream_lapped`).
-/
namespace AcsVirt.L4

open L1 L2 L3

/-! ## The driver and the terminal -/

/-- What a descriptor contributes. -/
def piece (m : Mem) (d : VirtioDesc) : Bytes :=
  if d.writable then [] else readBytes m d.addr.toNat d.len.toNat

/-- The contents of a chain, in chain order. -/
def chainPieces (m : Mem) (p : Post) : List Bytes := (p.descs ++ [p.last]).map (piece m)

/-- The text of some chains, in their order. -/
def streamOf (contents : List (List Bytes)) : Bytes := (contents.map List.flatten).flatten

structure TxWorld where
  vq : VqWorld
  /-- ghost: the contents of each post when it was posted -/
  contents : List (List Bytes)
  output : Bytes

/-- A step of the driver that leaves the buffers of posts in flight alone. -/
inductive TxDriverStep (q : VirtioQueue) (ok : Post → Prop) : TxWorld → TxWorld → Prop
  | mk {w : TxWorld} {v : VqWorld} : DriverStep q ok w.vq v →
      (∀ k p, w.vq.published.length ≤ k → w.vq.posted[k]? = some p → chainPieces v.mem p = chainPieces w.vq.mem p) →
      TxDriverStep q ok w
        { w with vq := v, contents := w.contents ++ (v.posted.drop w.vq.posted.length).map (chainPieces v.mem) }

abbrev TxDriverSteps (q : VirtioQueue) (ok : Post → Prop) : TxWorld → TxWorld → Prop :=
  Relation.ReflTransGen (TxDriverStep q ok)

/-- What a call prints. -/
def printed : Call → Bytes
  | .consoleWrite data => data
  | _ => []

def txAnswer (q : VirtioQueue) : Handler fabricSig TxWorld := fun w c r w' =>
  vqAnswer q w.vq c r w'.vq ∧ w'.contents = w.contents ∧ w'.output = w.output ++ printed c

def txHandler (q : VirtioQueue) (ok : Post → Prop) : Handler fabricSig TxWorld := fun w c r w' =>
  ∃ w₁, TxDriverSteps q ok w w₁ ∧ txAnswer q w₁ c r w'

/-! ## Contents in flight -/

section
variable {q : VirtioQueue} {ok : Post → Prop} {w w' : TxWorld}

theorem TxDriverSteps.vq (h : TxDriverSteps q ok w w') : DriverSteps q ok w.vq w'.vq := by
  induction h with
  | refl => exact .refl
  | tail _ hs ih =>
    cases hs with
    | mk hd _ => exact ih.tail hd

theorem txHandler_vq {c : Call} {r : c.Reply} (h : txHandler q ok w c r w') :
    vqHandler q ok w.vq c r w'.vq := by
  obtain ⟨w₁, hd, ha⟩ := h
  exact ⟨w₁.vq, hd.vq, ha.1⟩

/-- What is in flight still holds what it held when it was posted. -/
structure Streaming (ok : Post → Prop) (w : TxWorld) : Prop where
  posts : ∀ p ∈ w.vq.posted, ok p
  count : w.contents.length = w.vq.posted.length
  held : ∀ k p, w.vq.published.length ≤ k → w.vq.posted[k]? = some p → w.contents[k]? = some (chainPieces w.vq.mem p)

theorem TxDriverStep.streaming (hs : Streaming ok w) (h : TxDriverStep q ok w w') :
    Streaming ok w' ∧ w.contents <+: w'.contents ∧ w'.output = w.output := by
  cases h with
  | @mk v hd hkept =>
    refine ⟨?_, List.prefix_append _ _, rfl⟩
    cases hd with
    | touch hk ha =>
      refine ⟨hs.posts, ?_, fun k p hle hp => ?_⟩
      · simp [hs.count]
      · have hold := hs.held k p hle hp
        rw [← hkept k p hle hp] at hold
        simpa using hold
    | @post m p hroom hok hk hc hslot ha =>
      refine ⟨fun p' hp' => ?_, ?_, fun k p' hle hp' => ?_⟩
      · rcases List.mem_append.1 hp' with hp' | hp'
        · exact hs.posts p' hp'
        · rw [List.mem_singleton.1 hp']
          exact hok
      · simp [hs.count]
      · rcases getElem?_snoc hp' with ⟨hlt, hin⟩ | ⟨rfl, rfl⟩
        · have hold := hs.held k p' hle hin
          rw [← hkept k p' hle hin] at hold
          rw [List.getElem?_append_left (by rw [hs.count]; exact hlt)]
          exact hold
        · rw [List.getElem?_append_right (Nat.le_of_eq hs.count), hs.count]
          simp

theorem TxDriverSteps.streaming (hs : Streaming ok w) (h : TxDriverSteps q ok w w') :
    Streaming ok w' ∧ w.contents <+: w'.contents ∧ w'.output = w.output := by
  induction h with
  | refl => exact ⟨hs, List.prefix_refl _, rfl⟩
  | tail _ hstep ih =>
    obtain ⟨hs₁, hc₁, ho₁⟩ := ih
    obtain ⟨hs₂, hc₂, ho₂⟩ := hstep.streaming hs₁
    exact ⟨hs₂, hc₁.trans hc₂, ho₂.trans ho₁⟩

/-- Stores in the used ring only. -/
def InUsed (q : VirtioQueue) (c : Call) : Prop := ∀ x, Writes c x → x ∈ usedRegion q

/-- The buffers of a post are outside the used ring. -/
def BufsApart (q : VirtioQueue) (p : Post) : Prop :=
  ∀ d ∈ p.descs ++ [p.last], (usedRegion q).Apart d.buf

theorem chainPieces_congr {p : Post} {m m' : Mem} (hb : BufsApart q p)
    (h : ∀ x, x ∉ usedRegion q → m' x = m x) :
    chainPieces m' p = chainPieces m p := by
  refine List.map_congr_left fun d hd => ?_
  unfold piece
  split
  · rfl
  · refine readBytes_congr fun x h1 h2 => h x fun hx => ?_
    exact hb d hd x hx ⟨h1, h2⟩

theorem vqAnswer_inUsed {v v' : VqWorld} {c : Call} {r : c.Reply} (hc : InUsed q c)
    (h : vqAnswer q v c r v') :
    v'.posted = v.posted ∧ v.published.length ≤ v'.published.length ∧ ∀ x, x ∉ usedRegion q → v'.mem x = v.mem x := by
  have hstore : ∀ {a : Nat} {data : Bytes}, (∀ x, a ≤ x ∧ x < a + data.length → x ∈ usedRegion q) →
      v' = v.store q (writeBytes v.mem a data) → v'.posted = v.posted ∧ v.published.length ≤ v'.published.length ∧
        ∀ x, x ∉ usedRegion q → v'.mem x = v.mem x := by
    intro a data hin hv
    subst hv
    refine ⟨rfl, ?_, fun x hx => writeBytes_out ?_⟩
    · simp [VqWorld.store]
    · have := mt (hin x) hx
      omega
  have hsame : v' = v → v'.posted = v.posted ∧ v.published.length ≤ v'.published.length ∧
      ∀ x, x ∉ usedRegion q → v'.mem x = v.mem x := by
    intro hv
    subst hv
    exact ⟨rfl, Nat.le_refl _, fun _ _ => rfl⟩
  cases c with
  | dmaReadInto gpa len =>
    obtain ⟨_, hv⟩ := h
    split at hv
    · subst hv
      exact ⟨rfl, Nat.le_refl _, fun _ _ => rfl⟩
    · exact hsame hv
  | dmaWrite gpa data => exact hstore hc h.2
  | preadMapped gpa offset len =>
    obtain ⟨_, data, hlen, hv⟩ := h
    exact hstore (by rw [hlen]; exact hc) hv
  | dmaMap gpa len => exact hsame h
  | _ => exact hsame h.2

/-- A call of the console's: what is in flight stays, and the output grows by
what the call prints. -/
theorem tx_call (hok : ∀ p, ok p → BufsApart q p) (hs : Streaming ok w) {c : Call} {r : c.Reply}
    (hc : InUsed q c) (h : txHandler q ok w c r w') :
    Streaming ok w' ∧ w.contents <+: w'.contents ∧ w'.output = w.output ++ printed c := by
  obtain ⟨w₁, hd, ha, hcont, hout⟩ := h
  obtain ⟨hs₁, hc₁, ho₁⟩ := hd.streaming hs
  obtain ⟨hposted, hpub, hmem⟩ := vqAnswer_inUsed hc ha
  refine ⟨⟨?_, ?_, fun k p hle hp => ?_⟩, by rw [hcont]; exact hc₁, by rw [hout, ho₁]⟩
  · rw [hposted]
    exact hs₁.posts
  · rw [hposted, hcont]
    exact hs₁.count
  · rw [hposted] at hp
    rw [hcont, chainPieces_congr (hok p (hs₁.posts p (List.mem_of_getElem? hp))) hmem]
    exact hs₁.held k p (Nat.le_trans hpub hle) hp

/-! ## Code that prints nothing -/

/-- Nothing was printed, and what was posted is still known. -/
structure Calm (ok : Post → Prop) (w w' : TxWorld) : Prop where
  streaming : Streaming ok w'
  contents : w.contents <+: w'.contents
  output : w'.output = w.output

def Unprinted (q : VirtioQueue) (c : Call) : Prop := InUsed q c ∧ printed c = []

theorem calm_of_sat (hok : ∀ p, ok p → BufsApart q p) {α : Type} {p : FabricM α} {χ : Fault → Prop}
    {ψ : α → Prop} (hp : p.Sat (Unprinted q) χ ψ) (hs : Streaming ok w) :
    wp (txHandler q ok) p (fun _ w' => Calm ok w w') w := by
  refine wp_mono (hp.wp (I := Calm ok w) (fun w₁ c r w₂ hc hi h => ?_) ⟨hs, List.prefix_refl _, rfl⟩) fun _ _ h => h.1
  obtain ⟨hs₂, hc₂, ho₂⟩ := tx_call hok hi.streaming hc.1 h
  rw [hc.2, List.append_nil] at ho₂
  exact ⟨hs₂, hi.contents.trans hc₂, ho₂.trans hi.output⟩

theorem read_unprinted (gpa : UInt64) (len : UInt32) : Unprinted q (.dmaReadInto gpa len) :=
  ⟨fun _ hx => hx.elim, rfl⟩

theorem pollAvail_unprinted (q' : VirtioQueue) (n : Nat) :
    (pollAvail q' n).Sat (Unprinted q) (fun _ => True) fun _ => True :=
  (pollAvail_sat read_unprinted q' (fun _ => trivial) n).mono fun _ _ => trivial

/-- A publication stores in the used ring. -/
theorem virtioAddUsed_unprinted (hl : Layout q) (c : Nat) (head : UInt16) (len : UInt32) :
    (virtioAddUsed (atCursor q c) head len).Sat (Unprinted q) (fun _ => True) fun _ => True := by
  have hnum := hl.num_pos
  have hend := hl.usedEnd
  have hin : ∀ {gpa : UInt64} {data : Bytes}, q.used.toNat ≤ gpa.toNat →
      gpa.toNat + data.length ≤ q.used.toNat + 4 + 8 * q.num.toNat → Unprinted q (.dmaWrite gpa data) := by
    intro gpa data h1 h2
    refine ⟨fun x hx => ?_, rfl⟩
    have hx1 := hx.1
    have hx2 := hx.2
    simp only [usedRegion, Region.mem_def]
    omega
  refine Prog.Sat.bind (fabricDmaReadU16_sat read_unprinted _) fun r _ => ?_
  cases r with
  | none => exact Prog.Sat.ret trivial
  | some usedIdx =>
    have hslot := mod_num_lt hl usedIdx.toNat
    have helem : (usedElem (atCursor q c) usedIdx).toNat = q.used.toNat + 4 + 8 * (usedIdx.toNat % q.num.toNat) := by
      have := usedElem_addr hl c usedIdx.toNat
      rwa [UInt16.ofNat_toNat] at this
    have helem4 : (usedElem (atCursor q c) usedIdx + 4).toNat =
        q.used.toNat + 4 + 8 * (usedIdx.toNat % q.num.toNat) + 4 := by
      rw [UInt64.toNat_add, helem, show (4 : UInt64).toNat = 4 from rfl]
      omega
    have hidx : ((atCursor q c).used + 2).toNat = q.used.toNat + 2 := by
      rw [show (atCursor q c).used = q.used from rfl]
      exact usedIdx_addr hl
    dsimp only
    split
    · exact Prog.Sat.fault trivial
    refine Prog.Sat.bind (dmaWrite_sat _ _ (hin (by omega) (by rw [virtioStoreLe32_length]; omega))) fun ok _ => ?_
    split
    · exact Prog.Sat.ret trivial
    refine Prog.Sat.bind (dmaWrite_sat _ _ (hin (by omega) (by rw [virtioStoreLe32_length]; omega))) fun ok _ => ?_
    split
    · exact Prog.Sat.ret trivial
    exact dmaWrite_sat _ _ (hin (by omega) (by rw [virtioStoreLe16_length]; omega))

/-! ## One chain -/

/-- The post after the ones that held `pre` is being served; it was posted
with `cs`. -/
structure TxServing (q : VirtioQueue) (ok : Post → Prop) (pre : List (List Bytes)) (p : Post)
    (cs : List Bytes) (w : TxWorld) : Prop where
  serving : Serving q ok pre.length p w.vq
  streaming : Streaming ok w
  posted : pre ++ [cs] <+: w.contents

section
variable {pre : List (List Bytes)} {p : Post} {cs : List Bytes}

theorem TxServing.pieces (h : TxServing q ok pre p cs w) : chainPieces w.vq.mem p = cs := by
  have hheld := h.streaming.held pre.length p (Nat.le_of_eq h.serving.count) h.serving.post
  obtain ⟨t, ht⟩ := h.posted
  rw [← ht] at hheld
  simpa using hheld.symm

/-- Calls that store nothing, on the way through a chain. -/
theorem TxServing.call (hl : Layout q) (hok : ∀ p, ok p → BufsApart q p)
    (hs : TxServing q ok pre p cs w) {c : Call} {r : c.Reply} (hc : NoStore c)
    (h : txHandler q ok w c r w') :
    TxServing q ok pre p cs w' ∧ w'.output = w.output ++ printed c := by
  obtain ⟨hst, hcont, hout⟩ := tx_call hok hs.streaming (fun x hx => absurd hx (hc.writes x)) h
  have hlater : Later q ok w.vq w'.vq := by
    by_cases hm : memoryless c = true
    · exact (vq_memoryless hl hs.serving.inv hm (txHandler_vq h)).1
    · cases c with
      | dmaReadInto gpa len => exact (vq_read hl hs.serving.inv (txHandler_vq h)).1
      | dmaWrite gpa data => exact hc.elim
      | preadMapped gpa offset len => exact hc.elim
      | _ => exact absurd rfl hm
  exact ⟨⟨hs.serving.later hlater, hst, hs.posted.trans hcont⟩, hout⟩

/-- Whatever the driver does meanwhile, the descriptors from here on hold `cr`. -/
def Contents (q : VirtioQueue) (ok : Post → Prop) (pre : List (List Bytes)) (p : Post)
    (cs : List Bytes) (rest : List VirtioDesc) (cr : List Bytes) : Prop :=
  ∀ w, TxServing q ok pre p cs w → (rest ++ [p.last]).map (piece w.vq.mem) = cr

theorem contents_head : Contents q ok pre p cs p.descs cs := fun _ h => h.pieces

theorem Contents.next {d : VirtioDesc} {rest : List VirtioDesc} {b : Bytes} {cr : List Bytes}
    (h : Contents q ok pre p cs (d :: rest) (b :: cr)) : Contents q ok pre p cs rest cr :=
  fun w hw => (List.cons.inj (h w hw)).2

theorem Contents.here {d : VirtioDesc} {rest : List VirtioDesc} {b : Bytes} {cr : List Bytes}
    (h : Contents q ok pre p cs (d :: rest) (b :: cr)) {w : TxWorld}
    (hw : TxServing q ok pre p cs w) : piece w.vq.mem d = b :=
  (List.cons.inj (h w hw)).1

variable (hl : Layout q) (hok : ∀ p, ok p → BufsApart q p)
include hl hok

/-- One descriptor prints its piece. -/
theorem txDesc_prints (hs : TxServing q ok pre p cs w) {d : VirtioDesc} {b : Bytes}
    (hb : ∀ w', TxServing q ok pre p cs w' → piece w'.vq.mem d = b) (total : UInt32) :
    wp (txHandler q ok) (txDesc d total) (fun o w' => TxServing q ok pre p cs w' ∧ (∃ t, o = .ok (some t)) ∧
      w'.output = w.output ++ b) w := by
  unfold txDesc
  refine wp_ite (fun hread => ?_) fun hskip => ⟨hs, ⟨total, rfl⟩, ?_⟩
  · intro r w₁ h
    obtain ⟨hs₁, ho₁⟩ := hs.call hl hok (by exact trivial) h
    have hr : r = true := vq_true (txHandler_vq h)
    subst hr
    intro r w₂ h
    obtain ⟨hs₂, ho₂⟩ := hs₁.call hl hok (by exact trivial) h
    obtain ⟨_, hr, _⟩ := vq_read hl hs₁.serving.inv (txHandler_vq h)
    subst hr
    intro r w₃ h
    obtain ⟨hs₃, ho₃⟩ := hs₂.call hl hok (by exact trivial) h
    have hr : r = true := vq_true (txHandler_vq h)
    subst hr
    refine ⟨hs₃, ⟨_, rfl⟩, ?_⟩
    have hpiece : readBytes w₂.vq.mem d.addr.toNat d.len.toNat = b := by
      rw [← hb w₂ hs₂, piece, if_neg (by simpa using hread.1)]
    rw [ho₃, ho₂, ho₁]
    simp [printed, hpiece]
  · -- nothing is printed, and there is nothing to print
    have hpiece := hb w hs
    unfold piece at hpiece
    split at hpiece
    · rw [← hpiece, List.append_nil]
    next hw =>
      have hz : d.len = 0 := Decidable.byContradiction fun hz => hskip ⟨by simpa using hw, hz⟩
      rw [← hpiece, hz]
      exact (List.append_nil _).symm

theorem virtioReadDesc_prints (hs : TxServing q ok pre p cs w) (c : Nat) (index : UInt16) :
    wp (txHandler q ok) (virtioReadDesc (atCursor q c) index) (fun o w' => TxServing q ok pre p cs w' ∧
      o = .ok (some (descAt w'.vq.mem q index)) ∧ w'.output = w.output) w := by
  intro r w' h
  obtain ⟨hs', ho⟩ := hs.call hl hok (by exact trivial) h
  obtain ⟨_, hr, _⟩ := vq_read hl hs.serving.inv (txHandler_vq h)
  subst hr
  exact ⟨hs', rfl, by rw [ho]; exact List.append_nil _⟩

/-- One turn of the loop prints the piece of the descriptor it finds. -/
theorem txTurn_prints (hs : TxServing q ok pre p cs w) (c fuel : Nat) {index : UInt16}
    (total : UInt32) {d : VirtioDesc} {b : Bytes}
    (hd : ∀ w', TxServing q ok pre p cs w' → descAt w'.vq.mem q index = d ∧ piece w'.vq.mem d = b)
    {Q : Except Fault (Option UInt32) → TxWorld → Prop}
    (hgo : ∀ t w', TxServing q ok pre p cs w' → w'.output = w.output ++ b → wp (txHandler q ok)
      (if !d.hasNext then return some t else txLoop (atCursor q c) fuel d.next t) Q w') :
    wp (txHandler q ok) (txLoop (atCursor q c) (fuel + 1) index total) Q w := by
  refine wp_seq (virtioReadDesc_prints hl hok hs c index) ?_ fun e w' h => by cases h.2.1
  intro a w₁ h
  obtain ⟨hs₁, ha, ho₁⟩ := h
  cases ha
  dsimp only
  rw [(hd w₁ hs₁).1]
  refine wp_seq (txDesc_prints hl hok hs₁ (fun w' hw' => (hd w' hw').2) total) ?_
    fun e w' h => by obtain ⟨-, ⟨t, ht⟩, -⟩ := h; cases ht
  intro a w₂ h
  obtain ⟨hs₂, ⟨t, ha⟩, ho₂⟩ := h
  cases ha
  exact hgo t w₂ hs₂ (by rw [ho₂, ho₁])

/-- A chain prints its pieces. -/
theorem txLoop_prints (c : Nat) (rest : List VirtioDesc) (fuel : Nat) (index : UInt16)
    (total : UInt32) (w : TxWorld) (hs : TxServing q ok pre p cs w)
    (hw : Walk q ok pre.length p index rest) {cr : List Bytes} (hc : Contents q ok pre p cs rest cr) :
    wp (txHandler q ok) (txLoop (atCursor q c) fuel index total) (fun o w' => TxServing q ok pre p cs w' ∧
      ∀ r, o = .ok r → (∃ t, r = some t) ∧ w'.output = w.output ++ cr.flatten) w := by
  induction rest generalizing fuel index total w cr with
  | nil =>
    cases fuel with
    | zero => exact ⟨hs, fun r hr => by cases hr⟩
    | succ fuel =>
      have hcr := hc w hs
      subst hcr
      refine txTurn_prints hl hok hs c fuel total
        (fun w' hw' => ⟨(hw w'.vq hw'.serving).1, List.singleton_inj.1 (hc w' hw')⟩) fun t w₁ hs₁ ho₁ => ?_
      rw [(hw w.vq hs.serving).2]
      refine ⟨hs₁, fun r hr => ?_⟩
      cases hr
      exact ⟨⟨t, rfl⟩, by rw [ho₁]; simp⟩
  | cons d rest ih =>
    cases fuel with
    | zero => exact ⟨hs, fun r hr => by cases hr⟩
    | succ fuel =>
      obtain ⟨b, cr', rfl⟩ : ∃ b cr', cr = b :: cr' := ⟨_, _, (hc w hs).symm⟩
      refine txTurn_prints hl hok hs c fuel total (fun w' hw' => ⟨(hw w'.vq hw'.serving).1, hc.here hw'⟩)
        fun t w₁ hs₁ ho₁ => ?_
      rw [(hw w.vq hs.serving).2.1]
      refine wp_mono (ih fuel d.next t w₁ hs₁ hw.next hc.next) fun o w' h => ⟨h.1, fun r hr => ?_⟩
      obtain ⟨ht, hout⟩ := h.2 r hr
      exact ⟨ht, by rw [hout, ho₁, List.flatten_cons, List.append_assoc]⟩

theorem processTxChain_prints (fuel c : Nat) {d : CondVirtioDevice}
    (hd : DevAt 1 q c d) (hs : TxServing q ok pre p cs w) :
    wp (txHandler q ok) (processTxChain fuel d p.head) (fun o w' => TxServing q ok pre p cs w' ∧
      ∀ r, o = .ok r → (∃ len, r = (d, some len)) ∧ w'.output = w.output ++ cs.flatten) w := by
  unfold processTxChain
  rw [hd.queue]
  refine wp_seq (txLoop_prints hl hok c p.descs fuel p.head 0 w hs (walk_head _ p) contents_head) ?_ ?_
  · intro a w' h
    refine ⟨h.1, fun r hr => ?_⟩
    obtain ⟨⟨t, ht⟩, hout⟩ := h.2 a rfl
    cases hr
    exact ⟨⟨t, by rw [ht]⟩, hout⟩
  · intro e w' h
    exact ⟨h.1, fun r hr => by cases hr⟩

end

/-! ## Notifications -/

/-- The output is what was posted, up to what is published. -/
structure Printed (ok : Post → Prop) (w : TxWorld) : Prop where
  streaming : Streaming ok w
  output : w.output = streamOf (w.contents.take w.vq.published.length)

theorem Printed.calm (hi : VqInv q ok w.vq) (h : Printed ok w) (hc : Calm ok w w')
    (hn : w'.vq.published.length = w.vq.published.length) : Printed ok w' := by
  refine ⟨hc.streaming, ?_⟩
  have hle : w.vq.published.length ≤ w.contents.length := by
    rw [h.streaming.count]
    exact hi.le
  obtain ⟨t, ht⟩ := hc.contents
  rw [hc.output, h.output, hn, ← ht, List.take_append_of_le_length hle]

theorem streamOf_concat (pre : List (List Bytes)) (cs : List Bytes) :
    streamOf (pre ++ [cs]) = streamOf pre ++ cs.flatten := by simp [streamOf]

theorem Printed.serving (h : Printed ok w) (hi : VqInv q ok w.vq) {p : Post}
    (hp : w.vq.posted[w.vq.published.length]? = some p) :
    TxServing q ok (w.contents.take w.vq.published.length) p (chainPieces w.vq.mem p) w := by
  have hheld := h.streaming.held _ p (Nat.le_refl _) hp
  have hlen : (w.contents.take w.vq.published.length).length = w.vq.published.length :=
    List.length_take_of_le (by rw [h.streaming.count]; exact hi.le)
  refine ⟨⟨hi, hlen.symm, by rw [hlen]; exact hp⟩, h.streaming, ?_⟩
  have htake : w.contents.take (w.vq.published.length + 1) =
      w.contents.take w.vq.published.length ++ [chainPieces w.vq.mem p] := by rw [List.take_add_one, hheld]; rfl
  rw [← htake]
  exact List.take_prefix _ _

theorem TxServing.published {pre : List (List Bytes)} {p : Post} {cs : List Bytes}
    (h : TxServing q ok pre p cs w) (hout : w.output = streamOf pre ++ cs.flatten)
    (hc : Calm ok w w') (hn : w'.vq.published.length = pre.length + 1) : Printed ok w' := by
  refine ⟨hc.streaming, ?_⟩
  obtain ⟨t, ht⟩ := h.posted.trans hc.contents
  have htake : w'.contents.take (pre.length + 1) = pre ++ [cs] := by
    rw [← ht, List.take_append_of_le_length (by simp), List.take_of_length_le (by simp)]
  rw [hn, htake, streamOf_concat, hc.output, hout]

/-- Between two chains the output is the contents of the posts published. -/
theorem serviceLoop_prints (hl : Layout q) (hok : ∀ p, ok p → ChainOk q p)
    (hbufs : ∀ p, ok p → BufsApart q p) (pfuel fuel : Nat) (d : CondVirtioDevice) (usedAny : Bool)
    (w : TxWorld) (hi : VqInv q ok w.vq) (hd : DevAt 1 q w.vq.published.length d)
    (hp : Printed ok w) :
    wp (txHandler q ok) (serviceLoop 1 (processTxChain pfuel) fuel d usedAny)
      (fun o w' => ∀ r, o = .ok r → Printed ok w') w := by
  induction fuel generalizing d usedAny w with
  | zero => exact fun r hr => by cases hr
  | succ fuel ih =>
    unfold serviceLoop
    rw [hd.queue]
    refine wp_seq (wp_and (wp_lift (fun _ _ _ _ => txHandler_vq) (pollAvail_vq hl 20 hi rfl))
      (calm_of_sat hbufs (pollAvail_unprinted _ 20) hp.streaming)) ?_ fun e w' _ r hr => by cases hr
    intro a w₁ h
    obtain ⟨⟨hi₁, hn₁, h⟩, hcalm⟩ := h
    have hp₁ := hp.calm hi hcalm hn₁
    rcases h with h | h
    · obtain ⟨ha, -⟩ := h
      cases ha
      exact fun r _ => hp₁
    · obtain ⟨p, ha, hpost⟩ := h
      cases ha
      have hs₁ := hp₁.serving hi₁ (by rw [hn₁]; exact hpost)
      rw [hn₁] at hs₁
      refine wp_seq (processTxChain_prints hl hbufs pfuel _ hd hs₁) ?_ fun e w' _ r hr => by cases hr
      intro a w₂ h
      obtain ⟨hs₂, h⟩ := h
      obtain ⟨⟨len, ha⟩, hout₂⟩ := h a rfl
      subst ha
      dsimp only
      rw [hd.queue]
      refine wp_seq (wp_and (wp_lift (fun _ _ _ _ => txHandler_vq)
        (virtioAddUsed_vq hl (fun p h => (hok p h).inTable) hs₂.serving _ len))
        (calm_of_sat hbufs (virtioAddUsed_unprinted hl _ _ _) hs₂.streaming)) ?_ fun e w' _ r hr => by cases hr
      intro b w₃ h
      obtain ⟨⟨hb, hi₃, hn₃⟩, hcalm₃⟩ := h
      cases hb
      have hp₃ := hs₂.published (by rw [hout₂, hp₁.output, hn₁]) hcalm₃ hn₃
      rw [List.length_take_of_le (by rw [← hn₁, hp₁.streaming.count]; exact hi₁.le)] at hn₃
      exact ih (d.advance 1) true w₃ hi₃ (by rw [hn₃]; exact hd.advance) hp₃

/-- An interrupt call prints nothing. -/
theorem irq_prints (hl : Layout q) (hbufs : ∀ p, ok p → BufsApart q p) (hi : VqInv q ok w.vq)
    (hp : Printed ok w) {c : Call} (hc : memoryless c = true) (hprint : printed c = [])
    {r : c.Reply} (h : txHandler q ok w c r w') :
    Later q ok w.vq w'.vq ∧ Printed ok w' := by
  have hlater := (vq_memoryless hl hi hc (txHandler_vq h)).1
  have hno : NoStore c := by cases c <;> trivial
  obtain ⟨hs, hcont, hout⟩ := tx_call hbufs hp.streaming (fun x hx => absurd hx (hno.writes x)) h
  rw [hprint, List.append_nil] at hout
  exact ⟨hlater, hp.calm hi ⟨hs, hcont, hout⟩ (by rw [hlater.published])⟩

theorem ackNotify_prints (hl : Layout q) (hbufs : ∀ p, ok p → BufsApart q p) (hi : VqInv q ok w.vq)
    (hp : Printed ok w) (d : CondVirtioDevice) :
    wp (txHandler q ok) (ackNotify d) (fun _ w' => Later q ok w.vq w'.vq ∧ Printed ok w') w := by
  unfold ackNotify
  split
  · exact fun r w' h => irq_prints hl hbufs hi hp rfl rfl h
  · exact fun r w' h => irq_prints hl hbufs hi hp rfl rfl h

theorem serviceQueue_prints (hl : Layout q) (hok : ∀ p, ok p → ChainOk q p)
    (hbufs : ∀ p, ok p → BufsApart q p) (fuel : Nat) (d : CondVirtioDevice) (w : TxWorld)
    (hb : Between 1 q ok (d, w.vq)) (hp : Printed ok w) :
    wp (txHandler q ok) (serviceQueue 1 (processTxChain fuel) fuel d) (fun o w' => ∀ r, o = .ok r → Printed ok w') w := by
  have hloop := serviceLoop_inOrder hl (fun p h => (hok p h).inTable) (processTxChain_completes hl hok fuel) fuel d false
    w.vq hb.inv hb.dev
  refine wp_seq (wp_and (wp_lift (fun _ _ _ _ => txHandler_vq) hloop)
    (serviceLoop_prints hl hok hbufs fuel fuel d false w hb.inv hb.dev hp)) ?_ fun e w' _ r hr => by cases hr
  intro a w₁ h
  obtain ⟨⟨hi₁, -⟩, h⟩ := h
  have hp₁ := h a rfl
  obtain ⟨d', b⟩ := a
  cases b with
  | none => exact fun r _ => hp₁
  | some b =>
    cases b with
    | true => exact fun r w₂ h _ _ => (irq_prints hl hbufs hi₁ hp₁ rfl rfl h).2
    | false => exact wp_seq (ackNotify_prints hl hbufs hi₁ hp₁ d') (fun _ _ h _ _ => h.2) fun _ _ h _ _ => h.2

/-- Between notifications, with what was printed. -/
structure InStream (q : VirtioQueue) (ok : Post → Prop) (s : CondVirtioDevice × TxWorld) :
    Prop where
  between : Between 1 q ok (s.1, s.2.vq)
  printed : Printed ok s.2

/-- A notification of a queue that is not served. -/
theorem ackReturn_prints (hl : Layout q) (hbufs : ∀ p, ok p → BufsApart q p) {d : CondVirtioDevice}
    (h : InStream q ok (d, w)) :
    wp (txHandler q ok) (do return (d, ← ackNotify d)) (fun o w' => ∀ r, o = .ok r → InStream q ok (r.1, w')) w := by
  refine wp_seq (ackNotify_prints hl hbufs h.between.inv h.printed d) ?_ fun _ _ _ r hr => by cases hr
  intro b w' h' r hr
  cases hr
  exact ⟨⟨h'.1.inv, by rw [h'.1.published]; exact h.between.dev⟩, h'.2⟩

/-- A notification of the transmit queue. -/
theorem condNotify_tx (hl : Layout q) (hready : q.ready ≠ 0) (hok : ∀ p, ok p → ChainOk q p)
    (hbufs : ∀ p, ok p → BufsApart q p) (fuel : Nat) {d : CondVirtioDevice}
    (h : InStream q ok (d, w)) :
    wp (txHandler q ok) (condVirtioNotifyQueue fuel d 1) (fun o w' => NotifyEnds 1 q ok fuel w.vq o w'.vq ∧
      ∀ r, o = .ok r → Printed ok w') w := by
  have hrd : (d.queue (1 : UInt32).toNat).ready = q.ready := by
    rw [show (1 : UInt32).toNat = 1 from rfl, h.between.dev.queue]
    rfl
  unfold condVirtioNotifyQueue
  rw [if_neg (by decide), if_neg (by rw [hrd]; exact hready), if_neg (by decide)]
  exact wp_and (wp_lift (fun _ _ _ _ => txHandler_vq) (serviceQueue_inOrder hl (fun p h => (hok p h).inTable) fuel
    (processTxChain_completes hl hok fuel) d w.vq h.between)) (serviceQueue_prints hl hok hbufs fuel d w h.between h.printed)

theorem condNotify_prints (hl : Layout q) (hready : q.ready ≠ 0) (hok : ∀ p, ok p → ChainOk q p)
    (hbufs : ∀ p, ok p → BufsApart q p) (fuel : Nat) (queue : UInt32) {d : CondVirtioDevice}
    (h : InStream q ok (d, w)) :
    wp (txHandler q ok) (condVirtioNotifyQueue fuel d queue) (fun o w' => ∀ r, o = .ok r → InStream q ok (r.1, w')) w := by
  by_cases hone : queue = 1
  · subst hone
    refine wp_mono (condNotify_tx hl hready hok hbufs fuel h) fun o w' hends r hr => ?_
    obtain ⟨hn | hn, hprinted⟩ := hends
    · obtain ⟨d', ho, -, hb⟩ := hn
      have hrd : r = (d', true) := by
        rw [ho] at hr
        exact (Except.ok.inj hr).symm
      subst hrd
      exact ⟨hb, hprinted _ hr⟩
    · rw [hn.1] at hr
      cases hr
  · unfold condVirtioNotifyQueue
    refine wp_ite (fun _ => ackReturn_prints hl hbufs h) fun hlt => ?_
    refine wp_ite (fun _ => ackReturn_prints hl hbufs h) fun _ => ?_
    refine wp_ite (fun _ => ackReturn_prints hl hbufs h) fun hz => ?_
    have hn0 : queue.toNat ≠ 0 := fun h => hz (UInt32.toNat_inj.1 h)
    have hn1 : queue.toNat ≠ 1 := fun h => hone (UInt32.toNat_inj.1 h)
    simp only [condQueueCount] at hlt
    omega

end

/-! ## Whole histories -/

/-- Areas as in `Layout`, for any power of two a 32-bit register can hold. -/
structure PowLayout (q : VirtioQueue) : Prop where
  pow : ∃ k, q.num.toNat = 2 ^ k
  tableEnd : q.desc.toNat + 16 * q.num.toNat ≤ 2 ^ 64
  availEnd : q.avail.toNat + 4 + 2 * q.num.toNat ≤ 2 ^ 64
  usedEnd : q.used.toNat + 4 + 8 * q.num.toNat ≤ 2 ^ 64
  tableAvail : (tableRegion q).Apart (availRegion q)
  tableUsed : (tableRegion q).Apart (usedRegion q)
  availUsed : (availRegion q).Apart (usedRegion q)

theorem PowLayout.layout {q : VirtioQueue} (h : PowLayout q) (hnum : q.num.toNat ≤ 32768) :
    Layout q := by
  obtain ⟨k, hk⟩ := h.pow
  refine ⟨⟨k, ?_, hk⟩, h.tableEnd, h.availEnd, h.usedEnd, h.tableAvail, h.tableUsed, h.availUsed⟩
  have hpow : 2 ^ k ≤ 2 ^ 15 := by rw [← hk]; exact hnum
  exact (Nat.pow_le_pow_iff_right (by decide)).1 hpow

/-- An acyclic chain in the table, with buffers outside the queue; the flags
of its descriptors are free. -/
structure TxChainOk (q : VirtioQueue) (p : Post) : Prop where
  inTable : InTable q p
  acyclic : (chainPath p.head p.descs).Nodup
  bufs : ∀ d ∈ p.descs ++ [p.last], Outside q d.buf

theorem TxChainOk.bufsApart {q : VirtioQueue} {p : Post} (h : TxChainOk q p) : BufsApart q p :=
  fun d hd => (h.bufs d hd).used

/-- An acyclic chain has at most `num` descriptors. -/
theorem TxChainOk.chainOk {q : VirtioQueue} {p : Post} (h : TxChainOk q p) : ChainOk q p := by
  refine ⟨h.inTable, ?_, h.bufs⟩
  have hnodup : ((chainPath p.head p.descs).map UInt16.toNat).Nodup :=
    List.Pairwise.map UInt16.toNat (fun a b hne he => hne (UInt16.toNat_inj.1 he)) h.acyclic
  have hrange : (chainPath p.head p.descs).map UInt16.toNat ⊆ List.range q.num.toNat := by
    intro i hi
    obtain ⟨j, hj, rfl⟩ := List.mem_map.1 hi
    exact List.mem_range.2 (h.inTable j hj)
  have hle := hnodup.length_le_of_subset hrange
  simp only [chainPath, List.map_cons, List.length_cons, List.length_map, List.length_range] at hle
  omega

inductive TxLabel where
  | driver
  | registers
  | notify (fuel : Nat) (queue : UInt32)
  deriving DecidableEq, Repr

/-- Driver steps, notifications of any queue, and register writes that leave
the queues alone. -/
def streamLts (q : VirtioQueue) : LTS (CondVirtioDevice × TxWorld) TxLabel where
  init s := Fresh 1 q (s.1, s.2.vq) ∧ s.2.contents = [] ∧ s.2.output = []
  step s l s' :=
    match l with
    | .driver => s'.1 = s.1 ∧ TxDriverStep q (TxChainOk q) s.2 s'.2
    | .registers => s'.1.vdev.queues = s.1.vdev.queues ∧ s'.2 = s.2
    | .notify fuel queue =>
      ∃ b, Runs (txHandler q (TxChainOk q)) (condVirtioNotifyQueue fuel s.1 queue) s.2 (.ok (s'.1, b)) s'.2

section
variable {q : VirtioQueue} (hl : Layout q)
include hl

theorem inStream_driver {d : CondVirtioDevice} {w w' : TxWorld}
    (h : InStream q (TxChainOk q) (d, w)) (hs : TxDriverStep q (TxChainOk q) w w') :
    InStream q (TxChainOk q) (d, w') := by
  have hlater := (TxDriverSteps.vq (.single hs)).later hl h.between.inv
  obtain ⟨hst, hcont, hout⟩ := hs.streaming h.printed.streaming
  refine ⟨⟨hlater.inv, by rw [hlater.published]; exact h.between.dev⟩, ?_⟩
  exact h.printed.calm h.between.inv ⟨hst, hcont, hout⟩ (by rw [hlater.published])

theorem inStream_inductive (hready : q.ready ≠ 0) :
    (streamLts q).Inductive (InStream q (TxChainOk q)) where
  init s h := by
    obtain ⟨hf, hc, ho⟩ := h
    have hposted : s.2.vq.posted = [] := hf.posted
    refine ⟨hf.between _, ⟨⟨?_, ?_, ?_⟩, ?_⟩⟩
    · simp [hposted]
    · rw [hc, hposted]
      rfl
    · simp [hposted]
    · rw [ho, hc]
      simp [streamOf]
  step s l s' h hs := by
    obtain ⟨d, w⟩ := s
    obtain ⟨d', w'⟩ := s'
    cases l with
    | driver =>
      obtain ⟨hd, hstep⟩ := hs
      have hd' : d' = d := hd
      subst hd'
      exact inStream_driver hl h hstep
    | registers =>
      obtain ⟨hd, hw⟩ := hs
      have hw' : w' = w := hw
      subst hw'
      have hqueues : d'.vdev.queues = d.vdev.queues := hd
      refine ⟨⟨h.between.inv, ⟨by rw [hqueues]; exact h.between.dev.exist, ?_⟩⟩, h.printed⟩
      rw [← h.between.dev.queue, Device.queue, hqueues, Device.queue]
    | notify fuel queue =>
      obtain ⟨b, hr⟩ := hs
      exact hr.of_wp (condNotify_prints hl hready (fun _ h => h.chainOk) (fun _ h => h.bufsApart) fuel queue h) _ rfl

end

/-! ## Notifications that do nothing -/

def IrqCall (c : Call) : Prop := c = .raiseIrq ∨ c = .lowerIrq

/-- A notification that is not for a ready transmit queue is an interrupt
call. -/
theorem condNotify_unserved (fuel : Nat) (d : CondVirtioDevice) (queue : UInt32)
    (h : queue = 0 ∨ condQueueCount ≤ queue.toNat ∨ (d.queue queue.toNat).ready = 0) :
    (condVirtioNotifyQueue fuel d queue).Sat IrqCall (fun _ => True) fun r => r.1 = d := by
  have hack : Prog.Sat (S := fabricSig) IrqCall (fun _ : Fault => True) (fun r => r.1 = d) (do return (d, ← ackNotify d)) :=
    ackReturn_sat (.inl rfl) (.inr rfl) d
  unfold condVirtioNotifyQueue
  split
  · exact hack
  split
  · exact hack
  split
  · exact hack
  next hlt hready hz =>
    rcases h with h | h | h
    · exact absurd h hz
    · exact absurd h hlt
    · exact absurd h hready

/-- **Console stream.** Take the transmit queue fresh and ready, its size a
power of two and at most 32768, and any history of posts, of register writes
that leave the queues alone and of notifications of any queue, with driver
steps between any two calls of the device too.

Every notification of the queue returns true, and the output is the contents
of the chains posted up to its last read of the available index: in posting
order, in chain order, with nothing of a device-writable descriptor. (A run
without a result had no more fuel than the queue has entries, or no more than
the chains it completed.)

A notification of queue 0, of a queue that does not exist or of one that is
not ready is at most an interrupt call, and leaves the device as it was. -/
theorem console_stream :
    (∀ (q : VirtioQueue) (s : CondVirtioDevice × TxWorld) (fuel : Nat) o w', PowLayout q → q.num.toNat ≤ 32768 →
      q.ready ≠ 0 → (streamLts q).Reachable s →
      Runs (txHandler q (TxChainOk q)) (condVirtioNotifyQueue fuel s.1 1) s.2 o w' →
      (∃ d', o = .ok (d', true) ∧ Drained 1 q d' w'.vq ∧ w'.output = streamOf (w'.contents.take w'.vq.seen)) ∨
        (o = .error .fuel ∧
          (fuel ≤ q.num.toNat ∨ s.2.vq.published.length + fuel ≤ w'.vq.published.length))) ∧
    (∀ (d : CondVirtioDevice) (fuel : Nat) (queue : UInt32) es o,
      queue = 0 ∨ condQueueCount ≤ queue.toNat ∨ (d.queue queue.toNat).ready = 0 →
      Upto (condVirtioNotifyQueue fuel d queue) es o →
      (∀ e ∈ es, IrqCall e.1) ∧ ∀ r, o = some r → r.1 = d) := by
  refine ⟨?_, ?_⟩
  · intro q s fuel o w' hpow hnum hready hreach hrun
    have hl := hpow.layout hnum
    have hin := (inStream_inductive hl hready).reachable s hreach
    obtain ⟨hends, hprinted⟩ := hrun.of_wp (condNotify_tx hl hready (fun _ h => h.chainOk) (fun _ h => h.bufsApart) fuel hin)
    rcases hends with h | h
    · obtain ⟨d', ho, hd, -⟩ := h
      have hout := (hprinted _ ho).output
      rw [hd.count] at hout
      exact .inl ⟨d', ho, hd, hout⟩
    · exact .inr h
  · intro d fuel queue es o h hu
    exact (condNotify_unserved fuel d queue h).upto hu

/-! ## A ring one lap ahead -/

/-- The answers of `txHandler` when the driver pauses. -/
def txRun (q : VirtioQueue) (w : TxWorld) (c : Call) : c.Reply × TxWorld :=
  ((vqRun q w.vq c).1, ⟨(vqRun q w.vq c).2, w.contents, w.output ++ printed c⟩)

theorem txRun_handler (q : VirtioQueue) (ok : Post → Prop) (w : TxWorld) (c : Call) :
    txHandler q ok w c (txRun q w c).1 (txRun q w c).2 := ⟨w, .refl, vqRun_answer q w.vq c, rfl, rfl⟩

/-- 65536 entries; table at 0x100000, rings at 0x200000 and 0x300000. -/
def wideQueue : VirtioQueue := ⟨65536, 1, 0x100000, 0x200000, 0x300000, 0⟩

def wideDevice : CondVirtioDevice :=
  ⟨{ condVirtioInit.vdev with queues := [resetQueue condQueueSize, wideQueue] }, ()⟩

/-- Every descriptor is one byte at address zero, and slot `i` of the
available ring holds head `i`. -/
def wideBase : Mem := fun x =>
  if x = 0 then 65
  else if 0x100000 ≤ x ∧ x < 0x200000 then if x % 16 = 8 then 1 else 0
  else if 0x200004 ≤ x ∧ x < 0x220004 then UInt8.ofNat ((x - 0x200004) / 2 / 256 ^ ((x - 0x200004) % 2))
  else 0

/-- Memory after `k` posts. -/
def wideMem (k : Nat) : Mem := writeBytes wideBase 0x200002 (virtioStoreLe16 (UInt16.ofNat k))

def wideDesc : VirtioDesc := ⟨0, 1, 0, 0⟩

def widePost (k : Nat) : Post := ⟨UInt16.ofNat k, [], wideDesc⟩

/-- The driver has posted heads `0` to `k - 1`. -/
def wideWorld (k : Nat) : TxWorld :=
  ⟨⟨wideMem k, (List.range k).map widePost, [], 0⟩, List.replicate k [[65]], []⟩

theorem wideQueue_layout : PowLayout wideQueue :=
  ⟨⟨16, rfl⟩, by decide, by decide, by decide, Region.apart_iff.2 (by decide), Region.apart_iff.2 (by decide),
    Region.apart_iff.2 (by decide)⟩

theorem wideMem_eq (k : Nat) {x : Nat} (h : x ≠ 0x200002 ∧ x ≠ 0x200003) :
    wideMem k x = wideBase x := by
  refine writeBytes_out ?_
  rw [virtioStoreLe16_length]
  omega

theorem wideMem_read (k : Nat) {a n : Nat} (h : a + n ≤ 0x200002 ∨ 0x200004 ≤ a) :
    readBytes (wideMem k) a n = readBytes wideBase a n :=
  readBytes_congr fun x h1 h2 => wideMem_eq k (by omega)

theorem wideMem_idx (k : Nat) : availIdx wideQueue (wideMem k) = UInt16.ofNat k := by
  have hb := readBytes_writeBytes wideBase 0x200002 (virtioStoreLe16 (UInt16.ofNat k))
  rw [virtioStoreLe16_length] at hb
  rw [availIdx, show wideQueue.avail.toNat + 2 = 0x200002 from rfl, wideMem, hb, virtioLoadLe16_store]

theorem wideMem_slot (k j : Nat) (hj : j < 65536) :
    availSlot wideQueue (wideMem k) j = UInt16.ofNat j := by
  have haddr : wideQueue.avail.toNat + 4 + 2 * (j % wideQueue.num.toNat) = 0x200004 + 2 * j := by
    rw [show wideQueue.avail.toNat = 0x200000 from rfl, show wideQueue.num.toNat = 65536 from rfl]
    omega
  rw [availSlot, haddr, wideMem_read k (.inr (by omega))]
  have hb : readBytes wideBase (0x200004 + 2 * j) 2 = leBytes 2 j := by
    refine readBytes_eq_leBytes fun t ht => ?_
    have h1 : (0x200004 + 2 * j + t - 0x200004) / 2 = j := by omega
    have h2 : (0x200004 + 2 * j + t - 0x200004) % 2 = t := by omega
    unfold wideBase
    rw [if_neg (by omega), if_neg (by omega), if_pos (by omega), h1, h2]
  have hv : (UInt16.ofNat j).toNat = j := by
    rw [UInt16.toNat_ofNat']
    exact Nat.mod_eq_of_lt hj
  rw [hb, ← hv, ← virtioStoreLe16_eq, virtioLoadLe16_store, hv]

theorem wideDesc_addr (j : UInt16) : (descAddr wideQueue j).toNat = 0x100000 + 16 * j.toNat := by
  have hj := j.toNat_lt
  rw [descAddr, UInt64.toNat_add, UInt64.toNat_mul, show wideQueue.desc.toNat = 0x100000 from rfl,
    show (16 : UInt64).toNat = 16 from rfl, UInt16.toNat_toUInt64]
  omega

theorem wideMem_desc (k : Nat) (j : UInt16) : descAt (wideMem k) wideQueue j = wideDesc := by
  have hj := j.toNat_lt
  have hb : readBytes wideBase (0x100000 + 16 * j.toNat) 16 =
      (List.range 16).map fun i => if i = 8 then (1 : UInt8) else 0 := by
    refine List.map_congr_left fun i hi => ?_
    have hi' := List.mem_range.1 hi
    unfold wideBase
    rw [if_neg (by omega), if_pos (by omega)]
    have hmod : (0x100000 + 16 * j.toNat + i) % 16 = i := by omega
    rw [hmod]
  rw [descAt, wideDesc_addr, wideMem_read k (.inl (by omega)), hb]
  decide

theorem widePost_ok (k : Nat) : TxChainOk wideQueue (widePost k) := by
  refine ⟨fun j _ => j.toNat_lt, List.pairwise_singleton _ _, fun d hd => ?_⟩
  have hd' : d = wideDesc := List.mem_singleton.1 hd
  subst hd'
  exact ⟨Region.apart_iff.2 (by decide), Region.apart_iff.2 (by decide), Region.apart_iff.2 (by decide)⟩

theorem widePost_pieces (k j : Nat) : chainPieces (wideMem k) (widePost j) = [[65]] := by
  show [piece (wideMem k) wideDesc] = [[65]]
  rw [piece, if_neg (by decide), wideMem_read k (.inl (by decide))]
  rfl

theorem wideMem_kept (k : Nat) (hk : k < 65536) :
    Kept wideQueue (wideWorld k).vq (wideMem (k + 1)) := by
  have hbase : ∀ x, x < 0x200002 ∨ 0x200004 ≤ x → wideMem (k + 1) x = wideMem k x := fun x hx =>
    (wideMem_eq (k + 1) (by omega)).trans (wideMem_eq k (by omega)).symm
  refine ⟨fun x hx => ?_, fun j _ hj => ?_, fun j p _ hp i _ x hx => ?_⟩
  · have hx1 : 0x300000 ≤ x := hx.1
    exact hbase x (.inr (by omega))
  · simp only [wideWorld, List.length_map, List.length_range] at hj
    exact (wideMem_slot (k + 1) j (by omega)).trans (wideMem_slot k j (by omega)).symm
  · have hi := i.toNat_lt
    have hx2 : x < (descAddr wideQueue i).toNat + 16 := hx.2
    rw [wideDesc_addr] at hx2
    exact hbase x (.inl (by omega))

theorem wideWorld_succ (k : Nat) : wideWorld (k + 1) =
    ⟨{ (wideWorld k).vq with mem := wideMem (k + 1), posted := (wideWorld k).vq.posted ++ [widePost k] },
      (wideWorld k).contents ++ (((wideWorld k).vq.posted ++ [widePost k]).drop (wideWorld k).vq.posted.length).map
        (chainPieces (wideMem (k + 1))), (wideWorld k).output⟩ := by
  rw [List.drop_left]
  simp [wideWorld, List.range_succ, List.replicate_succ', widePost_pieces]

/-- One more post. -/
theorem wideWorld_step (k : Nat) (hk : k < 65536) :
    TxDriverStep wideQueue (TxChainOk wideQueue) (wideWorld k) (wideWorld (k + 1)) := by
  have hlen : (wideWorld k).vq.posted.length = k := by simp [wideWorld]
  have hpub : (wideWorld k).vq.published.length = 0 := rfl
  have hnum : wideQueue.num.toNat = 65536 := rfl
  have hmem : (wideWorld k).vq.mem = wideMem k := rfl
  have hidx : (availIdx wideQueue (wideWorld k).vq.mem).toNat = k := by
    rw [hmem, wideMem_idx, UInt16.toNat_ofNat']
    exact Nat.mod_eq_of_lt hk
  have hpost : DriverStep wideQueue (TxChainOk wideQueue) (wideWorld k).vq
      { (wideWorld k).vq with mem := wideMem (k + 1), posted := (wideWorld k).vq.posted ++ [widePost k] } := by
    refine .post (by omega) (widePost_ok k) (wideMem_kept k hk) ⟨wideMem_desc (k + 1) _, ?_⟩ ?_ ?_
    · show wideDesc.hasNext = false
      decide
    · rw [hidx]
      exact wideMem_slot (k + 1) k hk
    · rw [wideMem_idx, hmem, wideMem_idx, ofNat_succ]
  rw [wideWorld_succ]
  refine TxDriverStep.mk hpost fun j p _ hp => ?_
  obtain ⟨i, -, rfl⟩ := List.mem_map.1 (List.mem_of_getElem? hp)
  exact (widePost_pieces _ i).trans (widePost_pieces k i).symm

theorem wideWorld_reachable (k : Nat) (hk : k ≤ 65536) :
    (streamLts wideQueue).Reachable (wideDevice, wideWorld k) := by
  induction k with
  | zero =>
    have hfresh : Fresh 1 wideQueue (wideDevice, (wideWorld 0).vq) :=
      ⟨⟨by decide, by decide⟩, rfl, rfl, (wideMem_idx 0).trans rfl, by decide +kernel⟩
    exact ⟨(wideDevice, wideWorld 0), [], ⟨hfresh, rfl, rfl⟩, .nil _⟩
  | succ k ih => exact (ih (by omega)).tail (l := .driver) ⟨rfl, wideWorld_step k (by omega)⟩

/-- The world after a look at the available index. -/
def TxWorld.looked (w : TxWorld) : TxWorld :=
  { w with vq := { w.vq with seen := w.vq.posted.length } }

theorem fabricDmaReadU16_looked (q : VirtioQueue) (w : TxWorld) :
    (fabricDmaReadU16 (q.avail + 2)).run (S := fabricSig) (txRun q) w =
      (.ok (some (virtioLoadLe16 (readBytes w.vq.mem (q.avail + 2).toNat 2))), w.looked) := by
  show (Except.ok (some (virtioLoadLe16 (readBytes w.vq.mem (q.avail + 2).toNat 2))),
    (⟨if q.avail + 2 = q.avail + 2 then { w.vq with seen := w.vq.posted.length } else w.vq, w.contents,
      w.output ++ []⟩ : TxWorld)) = _
  rw [if_pos rfl, List.append_nil]
  rfl

/-- Looks at a ring whose index is where the cursor is. -/
theorem pollAvail_empty {q q' : VirtioQueue} (hq : q'.avail = q.avail) (n : Nat) (w : TxWorld)
    (hidx : q'.lastAvailIdx = virtioLoadLe16 (readBytes w.vq.mem (q.avail + 2).toNat 2)) :
    (pollAvail q' n).run (S := fabricSig) (txRun q) w = (.ok (some none), w.looked) := by
  have hnext : ∀ w : TxWorld, q'.lastAvailIdx = virtioLoadLe16 (readBytes w.vq.mem (q.avail + 2).toNat 2) →
      (virtioNextAvail q').run (S := fabricSig) (txRun q) w = (.ok (some none), w.looked) := by
    intro w hidx
    unfold virtioNextAvail
    rw [hq]
    refine (Prog.run_bind_ok (fabricDmaReadU16_looked q w)).trans ?_
    dsimp only
    rw [if_pos hidx]
    rfl
  induction n generalizing w with
  | zero => exact hnext w hidx
  | succ n ih => exact (Prog.run_bind_ok (hnext w hidx)).trans (ih _ hidx)

/-- The index has come round to the cursor, so a notification finds nothing. -/
theorem wideNotify_run :
    (condVirtioNotifyQueue 1 wideDevice 1).run (S := fabricSig) (txRun wideQueue) (wideWorld 65536) =
    (.ok (wideDevice, true), (wideWorld 65536).looked) := by
  have hidx : (wideDevice.queue 1).lastAvailIdx = availIdx wideQueue (wideMem 65536) := by
    rw [wideMem_idx]
    decide
  have hpoll : (pollAvail (wideDevice.queue 1) 20).run (S := fabricSig) (txRun wideQueue) (wideWorld 65536) =
      (.ok (some none), (wideWorld 65536).looked) := pollAvail_empty rfl 20 _ hidx
  have hloop : (serviceLoop 1 (processTxChain 1) 1 wideDevice false).run (S := fabricSig) (txRun wideQueue)
      (wideWorld 65536) = (.ok (wideDevice, some false), (wideWorld 65536).looked) :=
    (Prog.run_bind_ok hpoll).trans rfl
  unfold condVirtioNotifyQueue
  rw [if_neg (by decide), if_neg (by decide), if_neg (by decide)]
  refine (Prog.run_bind_ok hloop).trans ?_
  rfl

theorem wideWorld_seen (k : Nat) : (wideWorld k).looked.vq.seen = k :=
  by simp [TxWorld.looked, wideWorld]

theorem wideWorld_stream (k : Nat) :
    streamOf ((wideWorld k).looked.contents.take k) = List.replicate k 65 := by
  simp [TxWorld.looked, wideWorld, streamOf]

/-- **Not for every power of two.** A driver of a queue of 65536 entries posts
all of them; each holds a byte. The available index is back at zero, where
the cursor is, so the notification returns true with nothing printed. -/
theorem console_stream_lapped : ∃ s d' w', PowLayout wideQueue ∧ wideQueue.ready ≠ 0 ∧
    (streamLts wideQueue).Reachable s ∧
    Runs (txHandler wideQueue (TxChainOk wideQueue)) (condVirtioNotifyQueue 1 s.1 1) s.2 (.ok (d', true)) w' ∧
    w'.vq.seen = 65536 ∧ streamOf (w'.contents.take w'.vq.seen) = List.replicate 65536 65 ∧ w'.output = [] := by
  have hrun := Runs.of_run (R := txHandler wideQueue (TxChainOk wideQueue)) (h := txRun wideQueue) (π := fun w => w)
    (txRun_handler wideQueue (TxChainOk wideQueue)) (condVirtioNotifyQueue 1 wideDevice 1) (wideWorld 65536)
  rw [wideNotify_run] at hrun
  have hseen := wideWorld_seen 65536
  refine ⟨_, _, _, wideQueue_layout, by decide, wideWorld_reachable 65536 (Nat.le_refl _), hrun, hseen, ?_, rfl⟩
  rw [hseen]
  exact wideWorld_stream 65536

/-! ## Three posts -/

theorem txQueue_powLayout : PowLayout txQueue :=
  ⟨⟨2, rfl⟩, txQueue_layout.tableEnd, txQueue_layout.availEnd, txQueue_layout.usedEnd, txQueue_layout.tableAvail,
    txQueue_layout.tableUsed, txQueue_layout.availUsed⟩

/-- The driver has made `n` of the posts. -/
def txPosted (n : Nat) : TxWorld := ⟨txWorld n, (txPosts.take n).map (chainPieces (txMem 0)), []⟩

theorem txPosts_acyclic : ∀ p ∈ txPosts, TxChainOk txQueue p := by
  have hnodup : ∀ p ∈ txPosts, (chainPath p.head p.descs).Nodup := by decide
  exact fun p hp => ⟨(txPosts_ok p hp).inTable, hnodup p hp, (txPosts_ok p hp).bufs⟩

theorem txPosted_inStream {n : Nat} (hn : n ≤ 3) : (streamLts txQueue).Reachable (txDevice, txPosted n) := by
  induction n with
  | zero => exact ⟨_, [], ⟨txDevice_fresh, rfl, rfl⟩, .nil _⟩
  | succ n ih =>
    have hpieces : ∀ n < 4, ∀ p ∈ txPosts, chainPieces (txWorld n).mem p = chainPieces (txMem 0) p := by decide +kernel
    have hnew : ∀ n < 3, (txPosts.take n).map (chainPieces (txMem 0)) ++
        ((txPosts.take (n + 1)).drop (txPosts.take n).length).map (chainPieces (txWorld (n + 1)).mem) =
          (txPosts.take (n + 1)).map (chainPieces (txMem 0)) := by decide +kernel
    have hstep : TxDriverStep txQueue (TxChainOk txQueue) (txPosted n) _ :=
      .mk (txWorld_step hn txPosts_acyclic) fun k p _ hp => by
        have hmem := List.mem_of_mem_take (List.mem_of_getElem? hp)
        rw [hpieces (n + 1) (by omega) p hmem]
        exact (hpieces n (by omega) p hmem).symm
    have hnext : txPosted (n + 1) = ⟨txWorld (n + 1), _, []⟩ := congrArg (TxWorld.mk _ · _) (hnew n hn).symm
    refine (ih (by omega)).tail (l := .driver) ⟨rfl, ?_⟩
    rw [hnext]
    exact hstep

/-- The chains are printed one after the other; a notification of the receive
queue is silent. -/
theorem console_stream_hi :
    (∃ d' w', Runs (txHandler txQueue (TxChainOk txQueue)) (condVirtioNotifyQueue 5 txDevice 1) (txPosted 3) (.ok (d', true)) w' ∧
      w'.output = [72, 105, 44, 32, 121, 111, 117] ∧ w'.output = streamOf (w'.contents.take w'.vq.seen)) ∧
    ∃ es, Upto (condVirtioNotifyQueue 1 txDevice 0) es (some (txDevice, true)) ∧ ∀ e ∈ es, IrqCall e.1 := by
  refine ⟨?_, ?_⟩
  · have hout : ((condVirtioNotifyQueue 5 txDevice 1).run (S := fabricSig) (txRun txQueue) (txPosted 3)).2.output =
        [72, 105, 44, 32, 121, 111, 117] := by decide +kernel
    have hpub : ((condVirtioNotifyQueue 5 txDevice 1).run (S := fabricSig) (txRun txQueue) (txPosted 3)).2.vq.published =
        [2, 0, 3] := by decide +kernel
    have hrun := Runs.of_run (R := txHandler txQueue (TxChainOk txQueue)) (h := txRun txQueue) (π := fun w => w)
      (txRun_handler txQueue (TxChainOk txQueue)) (condVirtioNotifyQueue 5 txDevice 1) (txPosted 3)
    rcases console_stream.1 txQueue _ 5 _ _ txQueue_powLayout (by decide) (by decide)
      (txPosted_inStream (Nat.le_refl 3)) hrun with h | h
    · obtain ⟨d', ho, -, hstream⟩ := h
      rw [ho] at hrun
      exact ⟨d', _, hrun, hout, hstream⟩
    · -- five steps of fuel are more than this run needs
      rcases h.2 with h | h
      · exact absurd h (by decide)
      · rw [hpub] at h
        exact absurd h (by decide)
  · have hemits := Emits.of_run (txRun txQueue) (condVirtioNotifyQueue 1 txDevice 0) (txPosted 3)
    exact ⟨_, hemits, (console_stream.2 txDevice 1 0 _ (some (txDevice, true)) (.inl rfl) hemits).1⟩

end AcsVirt.L4
