import Mathlib.Data.Nat.Cast.Defs

/-!
# Numerals of a field

A numeral from 2 on is one of a field by a proof that it is at least 2. The numerals that several
models use have that proof here, once for all of them.
-/

namespace PocketMoE.Lib

instance atLeastTwo_two : Nat.AtLeastTwo 2 := ⟨by decide⟩

instance atLeastTwo_eight : Nat.AtLeastTwo 8 := ⟨by decide⟩

instance atLeastTwo_ten : Nat.AtLeastTwo 10 := ⟨by decide⟩

instance atLeastTwo_127 : Nat.AtLeastTwo 127 := ⟨by decide⟩

instance atLeastTwo_million : Nat.AtLeastTwo 1000000 := ⟨by decide⟩

end PocketMoE.Lib
