/-!
A width and a height in one register, the width in the upper half.
-/

namespace Nucleus

namespace Pair

def pack (width height : UInt32) : UInt64 :=
  (width.toUInt64 <<< 32) ||| height.toUInt64

def unpack (value : UInt64) : UInt32 × UInt32 :=
  ((value >>> 32).toUInt32, value.toUInt32)

end Pair

end Nucleus
