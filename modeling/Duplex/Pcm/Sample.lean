/-!
# Samples: 16-bit integers and the two float scales

A sample is a 16-bit integer, a float in the unit range -1 to 1, or a float in the range of the
16-bit integers. Going to a float is exact. Coming back clamps to the 16-bit range and rounds to
the nearest integer, a half away from zero; what is not a number becomes zero.
-/

namespace Duplex.Pcm

/-- The integer as a float of the same value. -/
def widen (v : Int16) : Float32 := Float32.ofInt v.toInt

/-- The integer as a float of the unit range. -/
def toUnit (v : Int16) : Float32 := widen v * (1 / 32768)

/-- Limit a float to the range of the 16-bit integers; what is not a number stays so. -/
def clamp (x : Float32) : Float32 :=
  let x := if x < -32768 then -32768 else x
  if (32767 : Float32) < x then 32767 else x

/-- A half with the sign of `x`. -/
def signedHalf (x : Float32) : Float32 := if x.toBits >>> 31 = 1 then -0.5 else 0.5

/-- The integer part of a float whose magnitude is below `2^16`; zero if it is not a number. -/
def truncate (x : Float32) : Int := if x < 0 then -((-x).toUInt16.toNat : Int) else x.toUInt16.toNat

/-- The nearest 16-bit integer to a float of the 16-bit range. -/
def round (x : Float32) : Int16 :=
  let x := clamp x
  Int16.ofInt (truncate (x + signedHalf x))

/-- The nearest 16-bit integer to a float of the unit range. -/
def ofUnit (x : Float32) : Int16 := round (x * 32768)

end Duplex.Pcm
