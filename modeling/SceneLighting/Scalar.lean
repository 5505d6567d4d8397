/-!
# Scalars

The numbers that lengths, colours and angles are measured in. Nothing here assumes a law, so the
same geometry can be read with rounded numbers, as a renderer computes, and with exact ones.
-/

namespace SceneLighting

/-- The operations that geometry and shading ask of a number. -/
class Scalar (α : Type) extends Add α, Sub α, Mul α, Div α, Neg α, Zero α, One α, LE α, LT α,
    BEq α, OfScientific α where
  decidableLE : DecidableLE α
  decidableLT : DecidableLT α
  sqrt : α → α
  /-- The cosine of an angle in radians. -/
  cos : α → α
  /-- The length of half a unit circle. -/
  pi : α

namespace Scalar

variable {α : Type} [Scalar α]

instance : DecidableLE α := decidableLE

instance : DecidableLT α := decidableLT

/-- The larger of two numbers. An operand that differs from itself is not a number and loses. -/
def larger (a b : α) : α :=
  if a < b then b else if a == a then a else b

/-- An angle in degrees, in radians. -/
def radians (degrees : α) : α :=
  degrees * (pi / 180.0)

end Scalar

end SceneLighting
