import EthereumLogs.Exceptions
import Mathlib.Tactic.Common

namespace EthereumLogs.Python

abbrev Text := List Char

def decimalZeros : List Nat :=
  [0x30, 0x660, 0x6f0, 0x7c0, 0x966, 0x9e6, 0xa66, 0xae6, 0xb66, 0xbe6, 0xc66, 0xce6, 0xd66,
   0xde6, 0xe50, 0xed0, 0xf20, 0x1040, 0x1090, 0x17e0, 0x1810, 0x1946, 0x19d0, 0x1a80, 0x1a90,
   0x1b50, 0x1bb0, 0x1c40, 0x1c50, 0xa620, 0xa8d0, 0xa900, 0xa9d0, 0xa9f0, 0xaa50, 0xabf0,
   0xff10, 0x104a0, 0x10d30, 0x11066, 0x110f0, 0x11136, 0x111d0, 0x112f0, 0x11450, 0x114d0,
   0x11650, 0x116c0, 0x11730, 0x118e0, 0x11950, 0x11c50, 0x11d50, 0x11da0, 0x11f50, 0x16a60,
   0x16ac0, 0x16b50, 0x1d7ce, 0x1d7d8, 0x1d7e2, 0x1d7ec, 0x1d7f6, 0x1e140, 0x1e2f0, 0x1e4f0,
   0x1e950, 0x1fbf0]

def unicodeSpaces : List Nat :=
  [0x85, 0xa0, 0x1680, 0x2000, 0x2001, 0x2002, 0x2003, 0x2004, 0x2005, 0x2006, 0x2007, 0x2008,
   0x2009, 0x200a, 0x2028, 0x2029, 0x202f, 0x205f, 0x3000]

def decimalValue (c : Char) : Option Nat :=
  (decimalZeros.find? (fun z => z ≤ c.toNat && c.toNat ≤ z + 9)).map (fun z => c.toNat - z)

def isAsciiSpace (c : Char) : Bool :=
  c = ' ' || (9 ≤ c.toNat && c.toNat ≤ 13)

-- int() first maps Unicode spaces and decimal digits to ASCII and spoils any other character
def transformDecimalAndSpace (c : Char) : Char :=
  if c.toNat < 127 then c
  else if c.toNat ∈ unicodeSpaces then ' '
  else match decimalValue c with
    | some d => Char.ofNat (0x30 + d)
    | none => '?'

def hexDigit (c : Char) : Option Nat :=
  if '0' ≤ c ∧ c ≤ '9' then some (c.toNat - '0'.toNat)
  else if 'a' ≤ c ∧ c ≤ 'f' then some (c.toNat - 'a'.toNat + 10)
  else if 'A' ≤ c ∧ c ≤ 'F' then some (c.toNat - 'A'.toNat + 10)
  else none

def decimalDigit (c : Char) : Option Nat :=
  if '0' ≤ c ∧ c ≤ '9' then some (c.toNat - '0'.toNat) else none

-- an underscore is accepted only between two digits
def digitRun (base : Nat) (digit : Char → Option Nat) : Nat → Bool → Text → Option (Nat × Text)
  | acc, afterDigit, [] => if afterDigit then some (acc, []) else none
  | acc, afterDigit, c :: cs =>
    match digit c with
    | some d => digitRun base digit (base * acc + d) true cs
    | none =>
      if c = '_' then if afterDigit then digitRun base digit acc false cs else none
      else if afterDigit then some (acc, c :: cs) else none

def dropHexPrefix : Text → Text
  | '0' :: x :: cs =>
    if x = 'x' ∨ x = 'X' then
      match cs with
      | '_' :: ds => ds
      | ds => ds
    else '0' :: x :: cs
  | cs => cs

def wholeNumber : Option (Nat × Text) → Option Nat
  | some (n, rest) => if rest.all isAsciiSpace then some n else none
  | none => none

def unsignedBase16 (s : Text) : Option Nat := wholeNumber (digitRun 16 hexDigit 0 false (dropHexPrefix s))

-- int() refuses decimal texts of more than 4300 digits
def unsignedBase10 (s : Text) : Option Nat :=
  if 4300 < (s.filterMap decimalDigit).length then none
  else wholeNumber (digitRun 10 decimalDigit 0 false s)

def signedInt (unsigned : Text → Option Nat) (s : Text) : Option Int :=
  match (s.map transformDecimalAndSpace).dropWhile isAsciiSpace with
  | '-' :: cs => (unsigned cs).map (fun n => -(n : Int))
  | '+' :: cs => (unsigned cs).map (fun n => (n : Int))
  | cs => (unsigned cs).map (fun n => (n : Int))

def intBase16 (s : Text) : Option Int := signedInt unsignedBase16 s

def intBase10 (s : Text) : Option Int := signedInt unsignedBase10 s

def int16 (s : Text) : Except Exc Int :=
  match intBase16 s with
  | some n => .ok n
  | none => .error (.valueError "invalid literal for int() with base 16")

theorem int16_error {s : Text} {e : Exc} (h : int16 s = .error e) :
    e = .valueError "invalid literal for int() with base 16" := by
  unfold int16 at h
  split at h
  · cases h
  · cases h
    rfl

def startsWith0x (s : Text) : Bool := ['0', 'x'].isPrefixOf s

def lower (s : Text) : Text := s.map Char.toLower

-- str.lower as far as it yields ASCII letters: outside ASCII only İ and the Kelvin sign do
def strLower (s : Text) : Text :=
  s.flatMap fun c =>
    if c.toNat = 0x130 then ['i', Char.ofNat 0x307]
    else if c.toNat = 0x212a then ['k']
    else [c.toLower]

def specialUpper : List (Nat × List Nat) :=
  [(0xdf, [0x53, 0x53]), (0x131, [0x49]), (0x149, [0x2bc, 0x4e]), (0x17f, [0x53]),
   (0x1f0, [0x4a, 0x30c]), (0x1e96, [0x48, 0x331]), (0x1e97, [0x54, 0x308]),
   (0x1e98, [0x57, 0x30a]), (0x1e99, [0x59, 0x30a]), (0x1e9a, [0x41, 0x2be]),
   (0xfb00, [0x46, 0x46]), (0xfb01, [0x46, 0x49]), (0xfb02, [0x46, 0x4c]),
   (0xfb03, [0x46, 0x46, 0x49]), (0xfb04, [0x46, 0x46, 0x4c]), (0xfb05, [0x53, 0x54]),
   (0xfb06, [0x53, 0x54])]

-- str.upper as far as it yields ASCII letters
def strUpper (s : Text) : Text :=
  s.flatMap fun c =>
    match specialUpper.lookup c.toNat with
    | some codes => codes.map Char.ofNat
    | none => [c.toUpper]

def isSpace (c : Char) : Bool :=
  isAsciiSpace c || (0x1c ≤ c.toNat && c.toNat ≤ 0x1f) || c.toNat ∈ unicodeSpaces

def strip (s : Text) : Text := ((s.dropWhile isSpace).reverse.dropWhile isSpace).reverse

def hexText (n : Nat) : Text := '0' :: 'x' :: Nat.toDigits 16 n

def hex (n : Int) : Text := if n < 0 then '-' :: hexText n.natAbs else hexText n.natAbs

def decimalText (n : Nat) : Text := Nat.toDigits 10 n

example : intBase16 "0x1_0".toList = some 16 ∧ intBase16 " -0X1f ".toList = some (-31) ∧
    intBase16 "0x".toList = none ∧ intBase16 "0x-1".toList = none ∧
    intBase16 "0x1__0".toList = none := by decide

example : intBase10 " +1_20".toList = some 120 ∧ intBase10 "0x1".toList = none ∧
    strip " a b\n".toList = "a b".toList := by decide

theorem toLower_lowered (c : Char) : c.toLower.toLower = c.toLower := by
  have h : ¬ (c.toLower.val ≥ 'A'.val ∧ c.toLower.val ≤ 'Z'.val) := by
    unfold Char.toLower
    split
    · grind [UInt32.toNat_add]
    · assumption
  exact dif_neg h

theorem lower_lower (s : Text) : lower (lower s) = lower s := by
  unfold lower
  rw [List.map_map]
  exact List.map_congr_left fun c _ => toLower_lowered c

end EthereumLogs.Python
