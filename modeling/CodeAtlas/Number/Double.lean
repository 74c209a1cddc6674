/-
# Number.Double -- floating-point numbers with all their bits

A double is its 64 bits.  Arithmetic is done on `Float`, which has one NaN only; a number that is
read from text or kept as a value is a `Double`, so that the sign of a NaN is not lost.
-/

namespace CodeAtlas.Number

set_option autoImplicit false

structure Double where
  bits : UInt64
  deriving DecidableEq, Repr, Inhabited

namespace Double

def toFloat (d : Double) : Float := Float.ofBits d.bits

def ofFloat (x : Float) : Double := ⟨x.toBits⟩

instance : Coe Double Float := ⟨toFloat⟩

instance : Coe Float Double := ⟨ofFloat⟩

/-- The same number with the other sign. -/
def neg (d : Double) : Double := ⟨d.bits ^^^ 0x8000000000000000⟩

end Double

end CodeAtlas.Number
