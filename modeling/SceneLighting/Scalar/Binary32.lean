import SceneLighting.Scalar
import SceneLighting.Scalar.FixedPoint

/-!
# Single precision

Binary floating point numbers of 32 bits as scalars. Every operation rounds its exact result to
the nearest such number, the cosine included.
-/

namespace SceneLighting.Binary32

/-- The size of a finite number in units of fixed point, rounded down. Its lowest 23 bits are the
fraction and the next eight the exponent; an exponent of zero has no leading one. -/
def magnitude? (x : Float32) : Option Nat :=
  let word := x.toBits.toNat
  let fraction := word % 0x800000
  let exponent := word / 0x800000 % 0x100
  if exponent = 255 then none
  else if exponent = 0 then some ((fraction * FixedPoint.unit) >>> 149)
  else some ((((0x800000 + fraction) * FixedPoint.unit) <<< exponent) >>> 150)

/-- The number nearest to a fixed-point value. -/
def ofFixedPoint (x : Int) : Float32 :=
  let size := Float32.ofScientific x.natAbs true FixedPoint.places
  if x < 0 then -size else size

/-- The cosine of a number; one that is not finite has none. -/
def cosine (x : Float32) : Float32 :=
  match magnitude? x with
  | none      => 0.0 / 0.0
  | some size => ofFixedPoint (FixedPoint.cosine size)

end SceneLighting.Binary32

namespace SceneLighting

instance : Scalar Float32 where
  zero := 0.0
  one := 1.0
  decidableLE := inferInstance
  decidableLT := inferInstance
  sqrt := Float32.sqrt
  cos := Binary32.cosine
  pi := 3.14159265358979323846

end SceneLighting
