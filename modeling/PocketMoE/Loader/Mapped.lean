import PocketMoE.Lib.Bytes

/-!
# Mapped files

What both file readers of the C++ engine share: the file in memory and the bound on a string.
-/

namespace PocketMoE.Loader
open PocketMoE.Lib

/-- A mapped file. -/
structure MappedFile where
  bytes : List Byte
  -- no mapping is as long as half of the addresses
  small : bytes.length < 2 ^ 63 - 1

/-- `std::string::max_size`. -/
def stringMaxSize : Nat := 2 ^ 63 - 2

end PocketMoE.Loader
