import AcsVirt.L2Machine.Fabric

/-!
# A fabric over plain memory

The world in which every call succeeds: guest memory and the disk image are
byte memories, the interrupt line is a level, console output is collected.
Only `dmaMap` has a choice, `canMap`: the socket fabric never maps, the UIO
and devmem fabrics map the ranges inside their window.
-/
namespace AcsVirt.L2

structure Ram where
  mem : Mem
  image : Mem
  line : Bool
  output : Bytes

def Ram.answer (canMap : UInt64 → UInt32 → Bool) (w : Ram) : (c : Call) → c.Reply × Ram
  | .dmaReadInto gpa len => (some (readBytes w.mem gpa.toNat len.toNat), w)
  | .dmaMap gpa len => (canMap gpa len, w)
  | .dmaWrite gpa data => (true, { w with mem := writeBytes w.mem gpa.toNat data })
  | .raiseIrq => (true, { w with line := true })
  | .lowerIrq => (true, { w with line := false })
  | .realloc _ => (true, w)
  | .pread offset len => (some (readBytes w.image offset.toNat len.toNat), w)
  | .preadMapped gpa offset len =>
    (true, { w with mem := writeBytes w.mem gpa.toNat (readBytes w.image offset.toNat len.toNat) })
  | .pwrite offset data => (true, { w with image := writeBytes w.image offset.toNat data })
  | .fsync => (true, w)
  | .consoleWrite data => (true, { w with output := w.output ++ data })

section
variable (canMap : UInt64 → UInt32 → Bool) (w : Ram)

theorem dmaReadInto_run (gpa : UInt64) (len : UInt32) :
    (dmaReadInto gpa len).run (Ram.answer canMap) w =
      (.ok (some (readBytes w.mem gpa.toNat len.toNat)), w) := rfl

theorem dmaWrite_run (gpa : UInt64) (data : Bytes) :
    (dmaWrite gpa data).run (Ram.answer canMap) w =
      (.ok true, { w with mem := writeBytes w.mem gpa.toNat data }) := rfl

end

/-- Memory that is zero except at the listed addresses. -/
def memOf (bytes : List (Nat × UInt8)) : Mem := fun x => (bytes.lookup x).getD 0

end AcsVirt.L2
