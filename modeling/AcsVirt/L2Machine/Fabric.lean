import AcsVirt.Core.Prog
import AcsVirt.Core.Mem

/-!
# The calls a backend driver makes (`fabric.h` and the host backends)

Device code reaches guest memory and the interrupt line only through
`fabric.h`, and the host through a few libc calls. `Call` lists both;
`FabricM` is driver code over them. What a call does depends on the fabric
(socket, UIO, devmem) and on the guest, so it is left to the handler.

* `dmaReadInto` answers the bytes read, `none` when the fabric fails.
* `dmaMap` answers whether a direct mapping is available; a read of the
  image into such a mapping is `preadMapped`, which stores into guest memory
  without a `dmaWrite`.
* `pread` / `pwrite` are `pread_all` / `pwrite_all` on the image
  (`virtio-blkd.c`), `consoleWrite` is `write_all` on the console output.
* `realloc` stands for both `realloc` of the payload buffer and the `malloc`
  in `fabric_dma_read`.
-/
namespace AcsVirt.L2

/-- Ways device code stops without returning: the model ran out of fuel in
an unbounded loop, or the C code divides by zero. -/
inductive Fault where
  | fuel
  | divByZero
  deriving DecidableEq, Repr

/-- mirrors src/fabrics/fabric.h:88-149 -/
inductive Call where
  | dmaReadInto (gpa : UInt64) (len : UInt32)
  | dmaMap (gpa : UInt64) (len : UInt32)
  | dmaWrite (gpa : UInt64) (data : Bytes)
  | raiseIrq
  | lowerIrq
  | realloc (len : UInt32)
  | pread (offset : UInt64) (len : UInt32)
  | preadMapped (gpa offset : UInt64) (len : UInt32)
  | pwrite (offset : UInt64) (data : Bytes)
  | fsync
  | consoleWrite (data : Bytes)
  deriving DecidableEq, Repr

@[reducible] def Call.Reply : Call → Type
  | .dmaReadInto .. => Option Bytes
  | .pread .. => Option Bytes
  | _ => Bool

@[reducible] def fabricSig : Sig := ⟨Call, Call.Reply⟩

abbrev FabricM := Prog fabricSig Fault

def dmaReadInto (gpa : UInt64) (len : UInt32) : FabricM (Option Bytes) :=
  Prog.perform (S := fabricSig) (.dmaReadInto gpa len)

def dmaMap (gpa : UInt64) (len : UInt32) : FabricM Bool :=
  Prog.perform (S := fabricSig) (.dmaMap gpa len)

def dmaWrite (gpa : UInt64) (data : Bytes) : FabricM Bool :=
  Prog.perform (S := fabricSig) (.dmaWrite gpa data)

def raiseIrq : FabricM Bool := Prog.perform (S := fabricSig) .raiseIrq

def lowerIrq : FabricM Bool := Prog.perform (S := fabricSig) .lowerIrq

def realloc (len : UInt32) : FabricM Bool := Prog.perform (S := fabricSig) (.realloc len)

def pread (offset : UInt64) (len : UInt32) : FabricM (Option Bytes) :=
  Prog.perform (S := fabricSig) (.pread offset len)

def preadMapped (gpa offset : UInt64) (len : UInt32) : FabricM Bool :=
  Prog.perform (S := fabricSig) (.preadMapped gpa offset len)

def pwrite (offset : UInt64) (data : Bytes) : FabricM Bool :=
  Prog.perform (S := fabricSig) (.pwrite offset data)

def fsync : FabricM Bool := Prog.perform (S := fabricSig) .fsync

def consoleWrite (data : Bytes) : FabricM Bool :=
  Prog.perform (S := fabricSig) (.consoleWrite data)

/-- A device as the fabrics see it; `D` is its state. A read takes the offset
and the length, a write the offset, the value and the length.
mirrors src/fabrics/fabric.h:14-34 -/
structure FabricDevice (D : Type) where
  addr : UInt64
  size : UInt64
  read : D → UInt64 → UInt32 → UInt64
  write : D → UInt64 → UInt64 → UInt32 → FabricM (D × Bool)

/-! ## Single calls -/

section
variable {φ : Call → Prop} {χ : Fault → Prop}

theorem dmaReadInto_sat (gpa : UInt64) (len : UInt32) (h : φ (.dmaReadInto gpa len)) :
    (dmaReadInto gpa len).Sat φ χ fun _ => True := Prog.Sat.perform (S := fabricSig) h

theorem dmaMap_sat (gpa : UInt64) (len : UInt32) (h : φ (.dmaMap gpa len)) :
    (dmaMap gpa len).Sat φ χ fun _ => True := Prog.Sat.perform (S := fabricSig) h

theorem dmaWrite_sat (gpa : UInt64) (data : Bytes) (h : φ (.dmaWrite gpa data)) :
    (dmaWrite gpa data).Sat φ χ fun _ => True := Prog.Sat.perform (S := fabricSig) h

theorem raiseIrq_sat (h : φ .raiseIrq) :
    raiseIrq.Sat φ χ fun _ => True := Prog.Sat.perform (S := fabricSig) h

theorem lowerIrq_sat (h : φ .lowerIrq) :
    lowerIrq.Sat φ χ fun _ => True := Prog.Sat.perform (S := fabricSig) h

theorem realloc_sat (len : UInt32) (h : φ (.realloc len)) :
    (realloc len).Sat φ χ fun _ => True := Prog.Sat.perform (S := fabricSig) h

theorem pread_sat (offset : UInt64) (len : UInt32) (h : φ (.pread offset len)) :
    (pread offset len).Sat φ χ fun _ => True := Prog.Sat.perform (S := fabricSig) h

theorem preadMapped_sat (gpa offset : UInt64) (len : UInt32) (h : φ (.preadMapped gpa offset len)) :
    (preadMapped gpa offset len).Sat φ χ fun _ => True := Prog.Sat.perform (S := fabricSig) h

theorem pwrite_sat (offset : UInt64) (data : Bytes) (h : φ (.pwrite offset data)) :
    (pwrite offset data).Sat φ χ fun _ => True := Prog.Sat.perform (S := fabricSig) h

theorem fsync_sat (h : φ .fsync) :
    fsync.Sat φ χ fun _ => True := Prog.Sat.perform (S := fabricSig) h

theorem consoleWrite_sat (data : Bytes) (h : φ (.consoleWrite data)) :
    (consoleWrite data).Sat φ χ fun _ => True := Prog.Sat.perform (S := fabricSig) h

end

end AcsVirt.L2
