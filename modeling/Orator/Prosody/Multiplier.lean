/-! Rate and pitch as the factors that engines understand. Zero is the factor 1; from there on factors grow
    by one for each step upwards, and opposite values have inverse factors. -/

namespace Orator

/-- The value on the scale from -100 to 100 that lies nearest. -/
def clampToScale (value : Int32) : Int32 :=
  if value < -100 then -100 else if 100 < value then 100 else value

/-- The factor of a value whose factor grows by one every `step`, each operation rounded on its own. -/
def reciprocalFactor (value : Int32) (step : Float32) : Float32 :=
  let v := Float32.ofInt value.toInt
  if 0 ≤ value then 1.0 + v / step else 1.0 / (1.0 - v / step)

/-- The speed factor of a rate: 20 is twice as fast, 100 six times. -/
def speedOfRate (rate : Int32) : Float32 :=
  reciprocalFactor (clampToScale rate) 20.0

/-- The pitch factor of a pitch: 50 is twice as high, 100 three times. -/
def factorOfPitch (pitch : Int32) : Float32 :=
  reciprocalFactor (clampToScale pitch) 50.0

end Orator
