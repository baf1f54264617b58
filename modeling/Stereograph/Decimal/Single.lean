/-!
# Single precision

A renderer takes numbers of 32 bits.  A number is rounded to the nearest of them, halfway
cases to the even mantissa.  Beyond the largest of them it becomes infinite.
-/

namespace Stereograph.Decimal

open Float.Model (UnpackedFloat)

/-- An unpacked number with the mantissa and the exponent of single precision. -/
def roundToSingle : UnpackedFloat → UnpackedFloat
  | .finite sign mantissa exponent _ => .round .binary32 sign mantissa exponent
  | .zero sign => .zero sign
  | .infinity sign => .infinity sign
  | .notANumber => .notANumber

/-- The nearest number of single precision. -/
def toSingle (value : Float) : Float32 :=
  .ofModel (.pack (roundToSingle value.toModel.unpack))

end Stereograph.Decimal
