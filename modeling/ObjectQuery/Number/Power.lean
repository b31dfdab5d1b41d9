/-!
Contract: powers of numbers.

A power of a natural number or of an integer is always the core library's own, so that a bound such
as `2 ^ 96` is one term in every module, whatever else the module imports.

Owns: the instance by which `^` is read.
-/

namespace ObjectQuery

@[default_instance 20000]
instance (priority := high) numberPower {α : Type} [NatPow α] : Pow α Nat :=
  instPowNat

end ObjectQuery
