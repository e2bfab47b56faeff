import AcsVirt.Core.Transfer
import AcsVirt.L2Machine.Ram

/-!
# Positioned file transfers (`virtio-blkd.c`)

`pread_all` and `pwrite_all` are the same loop around `pread` and `pwrite`; the
buffer and the file are byte memories, and the loop's three cursors are those
of `xferAll`. Offsets are unbounded here: a call returns a positive count only
inside a file, which ends before `2 ^ 63`.

Both are exact however the kernel cuts the transfer (`file_transfers_exact`),
which is what lets the device models have one call for each of them
(`preadAll_answer`, `pwriteAll_answer`).
-/
namespace AcsVirt.L2

/-- A host file: its length, and its bytes by offset. -/
structure HostFile where
  len : Nat
  bytes : Mem

/-- What `pwrite` of `data` does; a file grows to hold what is written. -/
def HostFile.pwrite (f : HostFile) (offset : Nat) (data : Bytes) : HostFile :=
  if data = [] then f else ⟨max f.len (offset + data.length), writeBytes f.bytes offset data⟩

/-- mirrors src/drivers/virtio-blkd.c:112-132 -/
def preadAll (file : HostFile) (sched : List SysRet) (pos len offset : Nat) (buf : Mem) :
    Option Bool × Mem :=
  xferAll (fun c n buf => writeBytes buf c.pos (readBytes file.bytes c.offset n)) sched ⟨pos, len, offset⟩ buf

/-- mirrors src/drivers/virtio-blkd.c:143-163 -/
def pwriteAll (buf : Mem) (sched : List SysRet) (pos len offset : Nat) (file : HostFile) :
    Option Bool × HostFile :=
  xferAll (fun c n file => file.pwrite c.offset (readBytes buf c.pos n)) sched ⟨pos, len, offset⟩ file

@[simp] theorem HostFile.pwrite_nil (f : HostFile) (offset : Nat) : f.pwrite offset [] = f :=
  if_pos rfl

/-- Two writes end to end are one. -/
theorem HostFile.pwrite_append (f : HostFile) (offset : Nat) (d e : Bytes) :
    (f.pwrite offset d).pwrite (offset + d.length) e = f.pwrite offset (d ++ e) := by
  by_cases hd : d = []
  · simp [hd]
  by_cases he : e = []
  · simp [he]
  have hde : d ++ e ≠ [] := fun h => hd (List.append_eq_nil_iff.1 h).1
  have hlen : max (max f.len (offset + d.length)) (offset + d.length + e.length) =
      max f.len (offset + (d ++ e).length) := by
    rw [List.length_append]
    omega
  simp only [HostFile.pwrite, hd, he, hde, if_false, hlen, writeBytes_append]

section
variable {sched : List SysRet} {len : Nat} (hfit : Fits sched len) (pos offset : Nat)
include hfit

/-- The buffer holds the first bytes of the range; all of them on success. -/
theorem preadAll_spec (file : HostFile) (buf : Mem) : ∃ k ≤ len,
    (preadAll file sched pos len offset buf).2 = writeBytes buf pos (readBytes file.bytes offset k) ∧
      ((preadAll file sched pos len offset buf).1 = some true ↔ k = len) := by
  refine xferAll_keeps (c := ⟨pos, len, offset⟩) (I := fun k b => b = writeBytes buf pos (readBytes file.bytes offset k))
    ?_ hfit (by simp)
  intro k n b hb _
  rw [readBytes_add, writeBytes_append, ← hb, readBytes_length]
  rfl

/-- The file has the first bytes of the buffer; all of them on success. -/
theorem pwriteAll_spec (buf : Mem) (file : HostFile) : ∃ k ≤ len,
    (pwriteAll buf sched pos len offset file).2 = file.pwrite offset (readBytes buf pos k) ∧
      ((pwriteAll buf sched pos len offset file).1 = some true ↔ k = len) := by
  refine xferAll_keeps (c := ⟨pos, len, offset⟩) (I := fun k f => f = file.pwrite offset (readBytes buf pos k))
    ?_ hfit (by simp)
  intro k n f hf _
  rw [readBytes_add, ← HostFile.pwrite_append, ← hf, readBytes_length]
  rfl

end

/-- **Positioned transfers are exact.** Both loops return true exactly on the
schedules that supply all the bytes. A read then leaves the bytes of the file
in the buffer and nothing else changed; a write replaces the range in the file,
or on failure a proper part of it from its start. -/
theorem file_transfers_exact (file : HostFile) (buf : Mem) (pos len offset : Nat)
    (sched : List SysRet) (hfit : Fits sched len) :
    ((preadAll file sched pos len offset buf).1 = some true ↔ Supplies sched len) ∧
    ((preadAll file sched pos len offset buf).1 = some true →
      readBytes (preadAll file sched pos len offset buf).2 pos len = readBytes file.bytes offset len ∧
        ChangesOnly (· ∈ (⟨pos, len⟩ : Region)) buf (preadAll file sched pos len offset buf).2) ∧
    ((pwriteAll buf sched pos len offset file).1 = some true ↔ Supplies sched len) ∧
    ((pwriteAll buf sched pos len offset file).1 = some true →
      (pwriteAll buf sched pos len offset file).2 = file.pwrite offset (readBytes buf pos len)) ∧
    ((pwriteAll buf sched pos len offset file).1 ≠ some true →
      ∃ k < len, (pwriteAll buf sched pos len offset file).2 = file.pwrite offset (readBytes buf pos k)) := by
  obtain ⟨k, _, hbuf, hread⟩ := preadAll_spec hfit pos offset file buf
  obtain ⟨j, hj, hfile, hwrite⟩ := pwriteAll_spec hfit pos offset buf file
  refine ⟨xferAll_true_iff _ hfit _, fun h => ?_, xferAll_true_iff _ hfit _, fun h => ?_, fun h => ?_⟩
  · rw [hbuf, hread.1 h]
    constructor
    · have := readBytes_writeBytes buf pos (readBytes file.bytes offset len)
      rwa [readBytes_length] at this
    · intro x hx
      refine writeBytes_out ?_
      rw [readBytes_length]
      simp only [Region.mem_def] at hx
      omega
  · rw [hfile, hwrite.1 h]
  · exact ⟨j, Nat.lt_of_le_of_ne hj fun e => h (hwrite.2 e), hfile⟩

/-- Four bytes in pieces of one and three, with an interruption between them. -/
theorem file_transfers_pieces :
    Fits [.count 1, .eintr, .count 3] 4 ∧ Supplies [.count 1, .eintr, .count 3] 4 ∧
      (preadAll ⟨8, fun x => UInt8.ofNat x⟩ [.count 1, .eintr, .count 3] 0 4 2 fun _ => 0).1 = some true :=
  have hfit : Fits [.count 1, .eintr, .count 3] 4 := by decide
  have hsup : Supplies [.count 1, .eintr, .count 3] 4 := ⟨_, List.prefix_rfl, by decide, rfl⟩
  ⟨hfit, hsup, (file_transfers_exact ⟨8, fun x => UInt8.ofNat x⟩ (fun _ => 0) 0 4 2 _ hfit).1.2 hsup⟩

/-! ## The device models' calls -/

section
variable {sched : List SysRet} (canMap : UInt64 → UInt32 → Bool) (w : Ram) (fileLen : Nat)

/-- The one call that stands for a `pread_all` that succeeds. -/
theorem preadAll_answer {offset : UInt64} {len : UInt32} (hfit : Fits sched len.toNat)
    (hsup : Supplies sched len.toNat) (pos : Nat) (buf : Mem) :
    (Ram.answer canMap w (.pread offset len)).1 = some (readBytes
      (preadAll ⟨fileLen, w.image⟩ sched pos len.toNat offset.toNat buf).2 pos len.toNat) := by
  obtain ⟨k, _, hbuf, hread⟩ := preadAll_spec hfit pos offset.toNat ⟨fileLen, w.image⟩ buf
  have hk := hread.1 ((xferAll_true_iff _ hfit _).2 hsup)
  have := readBytes_writeBytes buf pos (readBytes w.image offset.toNat len.toNat)
  rw [hbuf, hk]
  rw [readBytes_length] at this
  exact congrArg some this.symm

/-- The one call that stands for a `pwrite_all` that succeeds. -/
theorem pwriteAll_answer {offset : UInt64} {buf : Mem} {pos len : Nat} (hfit : Fits sched len)
    (hsup : Supplies sched len) :
    (Ram.answer canMap w (.pwrite offset (readBytes buf pos len))).2.image =
      (pwriteAll buf sched pos len offset.toNat ⟨fileLen, w.image⟩).2.bytes := by
  obtain ⟨k, _, hfile, hwrite⟩ := pwriteAll_spec hfit pos offset.toNat buf ⟨fileLen, w.image⟩
  have hk := hwrite.1 ((xferAll_true_iff _ hfit _).2 hsup)
  rw [hfile, hk, HostFile.pwrite]
  split
  next hnil => rw [hnil]; exact writeBytes_nil _ _
  · rfl

end

end AcsVirt.L2
