import SharedConstants.Decimal.Shortest

/-!
# Layout of decimal numbers

How digits become text: positional near one, with an exponent of at least two digits
further out. Documents show the fewest digits that read back and keep a fraction;
durations show at most six digits and no empty fraction.
-/
namespace SharedConstants.Decimal

/-- The decisions of a decimal notation. -/
structure Layout where
  /-- The digits of a number. -/
  digitsOf : Binary → Scaled
  /-- The positions of the first digit that are written positionally. -/
  positional : Int → Bool
  /-- Whether a whole number keeps an empty fraction. -/
  keepsFraction : Bool

/-- Numbers inside documents. -/
def Layout.document : Layout where
  digitsOf := shortest
  positional p := -4 ≤ p && p < 16
  keepsFraction := true

def Layout.duration : Layout where
  digitsOf := rounded 6
  positional p := -4 ≤ p && p < 6
  keepsFraction := false

/-- Digits with the point after position zero. -/
def positionalText (keepsFraction : Bool) (s : Scaled) : List Char :=
  if s.leading < 0 then
    '0' :: '.' :: List.replicate (-s.leading - 1).toNat '0' ++ s.digits
  else
    let places := s.leading.toNat + 1
    let whole := s.digits.take places ++ List.replicate (places - s.digits.length) '0'
    match s.digits.drop places with
    | [] => if keepsFraction then whole ++ ['.', '0'] else whole
    | fraction => whole ++ '.' :: fraction

/-- Digits with one place before the point and the exponent behind. -/
def exponentText (s : Scaled) : List Char :=
  let ds := toDigits 10 s.leading.natAbs
  let exponent := List.replicate (2 - ds.length) '0' ++ ds
  let sign := if s.leading < 0 then '-' else '+'
  match s.digits with
  | [] => []
  | [d] => d :: 'e' :: sign :: exponent
  | d :: rest => d :: '.' :: rest ++ 'e' :: sign :: exponent

def Layout.write (layout : Layout) (x : Float) : String :=
  let (negative, magnitude) := ofBits x.toBits
  let body : List Char :=
    match magnitude with
    | .undefined => "nan".toList
    | .infinite => "inf".toList
    | .zero => if layout.keepsFraction then "0.0".toList else "0".toList
    | .finite b =>
      let s := layout.digitsOf b
      if layout.positional s.leading then positionalText layout.keepsFraction s
      else exponentText s
  String.ofList (if negative && magnitude != .undefined then '-' :: body else body)

end SharedConstants.Decimal
