/-! Audio as engines produce it and the host plays it: 16-bit samples on one channel. -/

namespace Orator

abbrev Sample := Int16

structure Frame where
  rate : UInt32
  samples : List Sample
deriving DecidableEq, Repr

namespace Frame

def bitsPerSample : Nat := 16

def channels : Nat := 1

/-- Playing time in whole milliseconds, rounded down; a frame without a rate takes no time. The quotient is
    rounded to double precision before it is scaled, and so is the product. -/
def milliseconds (f : Frame) : UInt64 :=
  if f.rate = 0 then 0
  else (Float.ofNat f.samples.length / Float.ofNat f.rate.toNat * 1000.0).toUInt64

end Frame

end Orator
