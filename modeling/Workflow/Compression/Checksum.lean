/-!
The checksum of compressed files: the remainder of the bits of a text under a fixed polynomial over
the field of two elements, with all bits turned over before and after.
-/
namespace Workflow.Compression

/-- The polynomial, with the bit of the highest power last. -/
def polynomial : UInt32 := 0xedb88320

/-- Divides by the polynomial, one step for every bit of a byte. -/
def checksumStep (remainder : UInt32) (byte : UInt8) : UInt32 :=
  (List.range 8).foldl
    (fun r _ => if r &&& 1 = 1 then (r >>> 1) ^^^ polynomial else r >>> 1)
    (remainder ^^^ byte.toUInt32)

def checksum (bytes : ByteArray) : UInt32 :=
  bytes.foldl checksumStep 0xffffffff ^^^ 0xffffffff

example : (("123456789".toList.map fun c => c.toNat.toUInt8).foldl checksumStep 0xffffffff
    ^^^ 0xffffffff) = 0xcbf43926 := by decide +kernel

end Workflow.Compression
