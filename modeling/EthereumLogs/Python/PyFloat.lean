import EthereumLogs.Python.Digits
import Mathlib.Data.Int.Log
import Mathlib.Data.Rat.Floor

namespace EthereumLogs.Python

-- a binary64 value; both zeros are finite 0
inductive PyFloat where
  | nan
  | inf (negative : Bool)
  | finite (value : ℚ)
deriving DecidableEq, Repr

namespace PyFloat

def lt : PyFloat → PyFloat → Bool
  | .nan, _ => false
  | _, .nan => false
  | .finite a, .finite b => a < b
  | .inf negative, .finite _ => negative
  | .finite _, .inf negative => !negative
  | .inf a, .inf b => a && !b

def roundEven (q : ℚ) : ℤ :=
  if q - ⌊q⌋ < 1 / 2 then ⌊q⌋
  else if 1 / 2 < q - ⌊q⌋ then ⌊q⌋ + 1
  else ⌊q⌋ + ⌊q⌋ % 2

-- 52 bits below the leading one, and none below 2 ^ -1074
def spacing (q : ℚ) : ℚ := 2 ^ max (Int.log 2 |q| - 52) (-1074)

def nearest (q : ℚ) : PyFloat :=
  let rounded := roundEven (|q| / spacing q) * spacing q
  if 2 ^ 1024 ≤ rounded then .inf (q < 0) else .finite (if q < 0 then -rounded else rounded)

-- 0.1
def tenth : PyFloat := .finite (3602879701896397 / 36028797018963968)

example : nearest (1 / 10) = tenth := by decide +kernel

end PyFloat

-- an underscore is dropped when it stands between two digits
def dropUnderscores (previous : Char) : Text → Option Text
  | [] => if previous = '_' then none else some []
  | c :: cs =>
    if c = '_' then if isDecimalDigit previous then dropUnderscores c cs else none
    else if previous = '_' && !isDecimalDigit c then none
    else (dropUnderscores c cs).map (c :: ·)

def wholeDigits (s : Text) : Option ℕ :=
  if s ≠ [] ∧ s.all isDecimalDigit then some (decimalDigitsValue s) else none

def floatExponent : Text → Option ℤ
  | [] => some 0
  | e :: cs =>
    if e = 'e' ∨ e = 'E' then
      match cs with
      | '-' :: ds => (wholeDigits ds).map fun n => -(n : ℤ)
      | '+' :: ds => (wholeDigits ds).map fun n => (n : ℤ)
      | ds => (wholeDigits ds).map fun n => (n : ℤ)
    else none

def fractionOf : Text → Text × Text
  | '.' :: cs => (cs.takeWhile isDecimalDigit, cs.dropWhile isDecimalDigit)
  | cs => ([], cs)

def unsignedNumber (s : Text) : Option ℚ :=
  let whole := s.takeWhile isDecimalDigit
  let (fraction, rest) := fractionOf (s.dropWhile isDecimalDigit)
  if whole = [] ∧ fraction = [] then none
  else (floatExponent rest).map fun e =>
    (decimalDigitsValue (whole ++ fraction) : ℚ) * 10 ^ (e - (fraction.length : ℤ))

def unsignedFloat (negative : Bool) (s : Text) : Option PyFloat :=
  let word := lower s
  if word = "inf".toList ∨ word = "infinity".toList then some (.inf negative)
  else if word = "nan".toList then some .nan
  else (unsignedNumber s).map fun q => .nearest (if negative then -q else q)

def signedFloat : Text → Option PyFloat
  | '-' :: cs => unsignedFloat true cs
  | '+' :: cs => unsignedFloat false cs
  | cs => unsignedFloat false cs

def floatOf (s : Text) : Option PyFloat :=
  let body := (s.map transformDecimalAndSpace).dropWhile isAsciiSpace
  (dropUnderscores '\x00' (body.reverse.dropWhile isAsciiSpace).reverse).bind signedFloat

end EthereumLogs.Python
