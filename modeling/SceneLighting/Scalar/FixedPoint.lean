/-!
# Cosines in fixed point

Angles and cosines as whole numbers of one unit, `10 ^ -160`. Since the unit is far below the
spacing of any machine number near it, rounding the result gives the machine cosine: an angle of
`2 ^ 128` is reduced to one turn with an error below `10 ^ -120`, and the series is cut below
`10 ^ -100`.
-/

namespace SceneLighting.FixedPoint

/-- The number of decimal places. -/
def places : Nat :=
  160

/-- The number one. -/
def unit : Nat :=
  Nat.pow 10 places

/-- Half the length of a unit circle. -/
def pi : Nat :=
  314159265358979323846264338327950288419716939937510582097494459230781640628620899 *
      Nat.pow 10 80 +
    86280348253421170679821480865132823066470938446095505822317253594081284811174502

/-- The series `1 - x² / 2! + x⁴ / 4! - …` from its `k`-th term on, `count` terms of it. -/
def cosineSeries (square : Nat) : (count k term : Nat) → Int
  | 0, _, _ => 0
  | count + 1, k, term =>
    term - cosineSeries square count (k + 1)
      (term * square / unit / ((2 * k + 1) * (2 * k + 2)))

/-- The cosine of an angle of the first quarter turn. -/
def quarterCosine (angle : Nat) : Int :=
  cosineSeries (angle * angle / unit) 42 0 unit

/-- The cosine of an angle. The angle is brought into the first half turn by going round the other
way, and then into the first quarter by reflection. -/
def cosine (angle : Nat) : Int :=
  let angle := angle % (2 * pi)
  let angle := if pi < angle then 2 * pi - angle else angle
  if pi < 2 * angle then -quarterCosine (pi - angle) else quarterCosine angle

end SceneLighting.FixedPoint
