/-!
# Buckets

Ages, sizes and swarms that are nearly equal fall into one bucket, so that they do not decide a
ranking. Buckets are numbered from zero; a number that is too large is cut off.
-/

namespace ReleaseSelection.Bucket

/-- The integer part of a float, cut off at 64 bits; a value that is no number counts as zero. -/
def wholePart (x : Float) : Int := x.floor.toInt64.toInt

/-- The logarithm of `1 + x` for positive `x`. The quotient makes up for what the sum rounds off. -/
def logOnePlus (x : Float) : Float :=
  let sum := 1 + x
  if sum == 1 || sum.isInf then x else sum.log * (x / (sum - 1))

/-- Bucket `k` takes the values for which `1 + value` lies from the `k`-th power of `1 + ratio` up
to the next. -/
def similarity (value ratio : Float) : Int :=
  if value ≤ 0 || ratio ≤ 0 then 0 else wholePart (logOnePlus value / logOnePlus ratio)

/-- The distance to a target in steps of a part of the target. -/
def proximity (value target ratio : Float) : Int :=
  wholePart ((value - target).abs / (ratio * target))

end ReleaseSelection.Bucket
