/-!
# The float nearest to a decimal

A decimal is a number `digits * 10 ^ exponent`. Reading one rounds once, to the
nearest double and to the even neighbour when two are equally near, so the
quotient is formed exactly in natural numbers first.
-/

namespace DrawingDiary.Decimal

/-- A quotient rounded to the nearest whole number, a half to the even one. -/
def roundQuotient (n d : Nat) : Nat :=
  let q := n / d
  let twice := 2 * (n % d)
  if d < twice ∨ d = twice ∧ q % 2 = 1 then q + 1 else q

def infiniteBits : Nat := 0x7FF0000000000000

/-- The bits of the double nearest to a positive quotient. A double is
`m * 2 ^ q` with `m` of at most 53 bits and `q` at least -1074; the bits count
the doubles from zero up, so a mantissa that rounds up to 54 bits carries into
the exponent by itself. -/
def quotientBits (n d : Nat) : Nat :=
  let scaled (q : Int) : Nat × Nat := (n * Nat.pow 2 (-q).toNat, d * Nat.pow 2 q.toNat)
  let guess : Int := max ((n.log2 : Int) - (d.log2 : Int) - 53) (-1074)
  let fits := (scaled guess).1 / (scaled guess).2 < Nat.pow 2 53
  let q := if fits then guess else guess + 1
  let mantissa := roundQuotient (scaled q).1 (scaled q).2
  min infiniteBits ((q + 1074).toNat * Nat.pow 2 52 + mantissa)

/-- The double nearest to `digits * 10 ^ exponent`. Decimals far beyond the
range of doubles are settled by their length. -/
def nearest (digits : Nat) (exponent : Int) : Float :=
  let length : Int := (Nat.toDigits 10 digits).length + exponent
  let bits :=
    if digits = 0 then 0
    else if length > 310 then infiniteBits
    else if length < -330 then 0
    else quotientBits (digits * Nat.pow 10 exponent.toNat) (Nat.pow 10 (-exponent).toNat)
  Float.ofBits bits.toUInt64

end DrawingDiary.Decimal
