import BigQuerySql.Number.Shortest

namespace BigQuerySql

/-- How a double is written: the exponents of the leading digit at which the point is written in
place (`none`: at all of them), whether a whole number keeps `.0`, whether a positive exponent keeps
its plus sign, and which of two equally close decimals is taken. -/
structure DoubleStyle where
  inPlace : Option (Int × Int)
  pointZero : Bool
  plusSign : Bool
  tie : Tie
deriving DecidableEq, Repr

def signText (negative : Bool) : String :=
  if negative then "-" else ""

def zeroPadded (width : Nat) (n : Nat) : String :=
  let digits := Nat.toDigits 10 n
  String.ofList (List.replicate (width - digits.length) '0' ++ digits)

namespace Decimal

def positional (pointZero : Bool) (d : Decimal) : String :=
  let digits := Nat.toDigits 10 d.digits
  let whole (cs : List Char) : String := String.ofList cs ++ (if pointZero then ".0" else "")
  if 0 ≤ d.exponent then whole (digits ++ List.replicate d.exponent.toNat '0')
  else
    let places := (-d.exponent).toNat
    if places < digits.length then
      String.ofList (digits.take (digits.length - places)) ++ "." ++
        String.ofList (digits.drop (digits.length - places))
    else "0." ++ String.ofList (List.replicate (places - digits.length) '0' ++ digits)

def scientific (plusSign : Bool) (d : Decimal) : String :=
  let digits := Nat.toDigits 10 d.digits
  let power := d.exponent + (digits.length : Int) - 1
  let fraction := digits.drop 1
  String.ofList (digits.take 1) ++
    (if fraction.isEmpty then "" else "." ++ String.ofList fraction) ++ "e" ++
    (if power < 0 then "-" else if plusSign then "+" else "") ++ toString power.natAbs

def text (style : DoubleStyle) (d : Decimal) : String :=
  let power := d.exponent + ((Nat.toDigits 10 d.digits).length : Int) - 1
  match style.inPlace with
  | none => positional style.pointZero d
  | some (least, bound) =>
    if d.digits = 0 || (least ≤ power && power < bound) then positional style.pointZero d
    else scientific style.plusSign d

end Decimal

namespace Binary64

def text (style : DoubleStyle) : Binary64 → String
  | .nan => "NaN"
  | .infinite negative => signText negative ++ "inf"
  | .finite negative rank => signText negative ++ (Decimal.shortest style.tie rank).text style

end Binary64

end BigQuerySql
