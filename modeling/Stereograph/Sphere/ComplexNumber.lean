import Stereograph.Scalar

/-!
# Complex numbers over a scalar

Plain pairs of a real and an imaginary part.  Nothing is rescaled and nothing is
checked: a quotient by zero has whatever parts the scalars give it.  The elementary
functions take their principal values.
-/

namespace Stereograph

/-- The number `re + im * i`. -/
structure ComplexNumber (α : Type) where
  re : α
  im : α
  deriving DecidableEq, Repr

namespace ComplexNumber

variable {α : Type} [Scalar α]

def zero : ComplexNumber α := ⟨0, 0⟩

def one : ComplexNumber α := ⟨1, 0⟩

def imaginaryUnit : ComplexNumber α := ⟨0, 1⟩

/-- A real number. -/
def real (re : α) : ComplexNumber α := ⟨re, 0⟩

def add (left right : ComplexNumber α) : ComplexNumber α :=
  ⟨left.re + right.re, left.im + right.im⟩

def sub (left right : ComplexNumber α) : ComplexNumber α :=
  ⟨left.re - right.re, left.im - right.im⟩

def neg (number : ComplexNumber α) : ComplexNumber α :=
  ⟨-number.re, -number.im⟩

def mul (left right : ComplexNumber α) : ComplexNumber α :=
  ⟨left.re * right.re - left.im * right.im, left.re * right.im + left.im * right.re⟩

/-- Square of the absolute value. -/
def normSq (number : ComplexNumber α) : α :=
  number.re * number.re + number.im * number.im

/-- Absolute value. -/
def norm (number : ComplexNumber α) : α :=
  Scalar.sqrt number.normSq

/-- Quotient, by the conjugate of the divisor over the square of its absolute
value. -/
def div (left right : ComplexNumber α) : ComplexNumber α :=
  let squared := right.normSq
  ⟨(left.re * right.re + left.im * right.im) / squared,
    (left.im * right.re - left.re * right.im) / squared⟩

/-- Multiply by a real factor. -/
def scale (number : ComplexNumber α) (factor : α) : ComplexNumber α :=
  ⟨number.re * factor, number.im * factor⟩

/-- Principal argument. -/
def arg (number : ComplexNumber α) : α :=
  Scalar.angle number.im number.re

def isFinite (number : ComplexNumber α) : Bool :=
  Scalar.isFinite number.re && Scalar.isFinite number.im

/-- The number with an absolute value and an argument. -/
def polar (radius angle : α) : ComplexNumber α :=
  ⟨radius * Scalar.cos angle, radius * Scalar.sin angle⟩

/-- Principal power.  Only the real part of the exponent counts. -/
def pow (base exponent : ComplexNumber α) : ComplexNumber α :=
  polar (Scalar.power base.norm exponent.re) (base.arg * exponent.re)

/-- Principal square root. -/
def sqrt (number : ComplexNumber α) : ComplexNumber α :=
  polar (Scalar.sqrt number.norm) (number.arg / 2.0)

def exp (number : ComplexNumber α) : ComplexNumber α :=
  polar (Scalar.exp number.re) number.im

/-- Principal logarithm. -/
def log (number : ComplexNumber α) : ComplexNumber α :=
  ⟨Scalar.log number.norm, number.arg⟩

def sin (number : ComplexNumber α) : ComplexNumber α :=
  ⟨Scalar.sin number.re * Scalar.cosh number.im,
    Scalar.cos number.re * Scalar.sinh number.im⟩

def cos (number : ComplexNumber α) : ComplexNumber α :=
  ⟨Scalar.cos number.re * Scalar.cosh number.im,
    -Scalar.sin number.re * Scalar.sinh number.im⟩

end ComplexNumber

end Stereograph
