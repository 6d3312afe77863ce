import Easel.Number.Parts

/-!
# Scalars

The arithmetic in which a segment is clipped. It is left open, so that the same rule can be run in
doubles and reasoned about in exact numbers.
-/

namespace Easel

/-- Numbers with the four operations, an order that can be decided, and conversions from and to
integers. -/
class Scalar (K : Type) extends Add K, Sub K, Mul K, Div K, Neg K, LT K where
  ofInt : Int → K
  /-- The nearest integer; a half goes away from zero. -/
  round : K → Int
  decideLT : DecidableLT K

attribute [reducible, instance] Scalar.decideLT

instance : Scalar Float where
  ofInt := Float.ofInt
  round := Number.toInt
  decideLT := inferInstance

end Easel
