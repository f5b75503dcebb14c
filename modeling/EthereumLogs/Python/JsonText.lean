import EthereumLogs.Library.PrefixCode
import EthereumLogs.Python.Digits
import EthereumLogs.Python.Value
import Mathlib.Data.List.Sort

namespace EthereumLogs.Python
open Numeral PrefixCode

variable {c : Char} {s t : Text} {n : ℕ}

section Dumps

def shortEscapes : List (Char × Char) :=
  [('"', '"'), ('\\', '\\'), ('\n', 'n'), ('\r', 'r'), ('\t', 't'), ('\x0c', 'f'), ('\x08', 'b')]

def unicodeEscape (n : Nat) : Text := '\\' :: 'u' :: (Nat.toDigits 16 n).leftpad 4 '0'

def escapeChar (c : Char) : Text :=
  match shortEscapes.find? (fun escape => escape.1 == c) with
  | some escape => ['\\', escape.2]
  | none =>
    if ' ' ≤ c ∧ c ≤ '~' then [c]
    else if c.toNat < 0x10000 then unicodeEscape c.toNat
    else unicodeEscape (0xd800 + (c.toNat - 0x10000) / 0x400) ++
      unicodeEscape (0xdc00 + (c.toNat - 0x10000) % 0x400)

def jsonString (s : Text) : Text := '"' :: terminated escapeChar '"' s

def intText (i : Int) : Text := if i < 0 then '-' :: decimalText i.natAbs else decimalText i.natAbs

def byKey (a b : String × Text) : Prop := a.1 ≤ b.1

instance : DecidableRel byKey := fun a b => inferInstanceAs (Decidable (a.1 ≤ b.1))

def member (field : String × Text) : Text := jsonString field.1.toList ++ ':' :: field.2

variable (floatRepr : Rat → Text)

-- json.dumps(value, sort_keys=True, separators=(",", ":"))
mutual
def dumps : Json → Text
  | .null => "null".toList
  | .bool b => if b then "true".toList else "false".toList
  | .int i => intText i
  | .float q => floatRepr q
  | .str s => jsonString s
  | .arr xs => '[' :: joined id ',' (dumpsEach xs) ++ [']']
  | .obj fields => '\x7b' :: joined member ',' ((dumpsFields fields).insertionSort byKey) ++ ['\x7d']

def dumpsEach : List Json → List Text
  | [] => []
  | x :: xs => dumps x :: dumpsEach xs

def dumpsFields : List (String × Json) → List (String × Text)
  | [] => []
  | (key, x) :: fields => (key, dumps x) :: dumpsFields fields
end

-- sys.get_int_max_str_digits()
def intMaxStrDigits : ℕ := 4300

def PrintableInt (i : Int) : Prop := i.natAbs < 10 ^ intMaxStrDigits

instance (i : Int) : Decidable (PrintableInt i) := Nat.decLt _ _

mutual
def printable : Json → Bool
  | .int i => decide (PrintableInt i)
  | .arr xs => printableEach xs
  | .obj fields => printableFields fields
  | .null => true
  | .bool _ => true
  | .float _ => true
  | .str _ => true

def printableEach : List Json → Bool
  | [] => true
  | x :: xs => printable x && printableEach xs

def printableFields : List (String × Json) → Bool
  | [] => true
  | (_, x) :: fields => printable x && printableFields fields
end

def tooManyDigits : Exc :=
  .valueError "Exceeds the limit (4300 digits) for integer string conversion"

def jsonDumps (x : Json) : Except Exc Text :=
  if printable x then .ok (dumps floatRepr x) else .error tooManyDigits

example : dumps (fun _ => []) (.obj [("b", .arr [.int (-12), .null]), ("a", .str ['é', '"'])]) =
    "\x7b\"a\":\"\\u00e9\\\"\",\"b\":[-12,null]\x7d".toList := by decide +kernel

end Dumps

section Reading

-- the code unit written as \uXXXX
def readUnit : Text → Option (Nat × Text)
  | '\\' :: 'u' :: rest => some (hexValue (rest.take 4), rest.drop 4)
  | _ => none

def readEscaped : Text → Option (Char × Text)
  | '\\' :: letter :: rest =>
    (shortEscapes.find? fun escape => escape.2 == letter).map fun escape => (escape.1, rest)
  | c :: rest => some (c, rest)
  | [] => none

def readChar (s : Text) : Option (Char × Text) :=
  match readUnit s with
  | none => readEscaped s
  | some (unit, rest) =>
    if 0xd800 ≤ unit ∧ unit ≤ 0xdbff then
      (readUnit rest).map fun low =>
        (Char.ofNat (0x10000 + (unit - 0xd800) * 0x400 + (low.1 - 0xdc00)), low.2)
    else some (Char.ofNat unit, rest)

theorem readUnit_escape (h : n < 0x10000) : readUnit (unicodeEscape n ++ s) = some (n, s) := by
  have hdigits : (Nat.toDigits 16 n).length ≤ 4 :=
    (Nat.length_toDigits_le_iff (by decide) (by decide)).mpr h
  have hlength : ((Nat.toDigits 16 n).leftpad 4 '0').length = 4 := by
    rw [List.length_leftpad]
    omega
  have hvalue : hexValue ((Nat.toDigits 16 n).leftpad 4 '0') = n := by
    rw [List.leftpad, hexValue, List.map_append, List.map_replicate, value_append]
    have hzero : hexVal '0' = 0 := rfl
    rw [hzero, value_replicate_zero, zero_mul, zero_add]
    exact hexValue_toDigits
  rw [unicodeEscape, List.cons_append, List.cons_append, readUnit, List.take_left' hlength,
    List.drop_left' hlength, hvalue]

theorem readUnit_plain (h : c ≠ '\\') : readUnit (c :: s) = none := by
  unfold readUnit
  split
  · rename_i heq
    exact absurd (List.cons.inj heq).1 h
  · rfl

theorem readEscaped_plain (h : c ≠ '\\') : readEscaped (c :: s) = some (c, s) := by
  unfold readEscaped
  split
  · rename_i heq
    exact absurd (List.cons.inj heq).1 h
  · rename_i heq
    cases heq
    rfl
  · rename_i heq
    cases heq

theorem code_valid (c : Char) : c.toNat < 0xd800 ∨ 0xdfff < c.toNat ∧ c.toNat < 0x110000 := c.valid

theorem readChar_escape (c : Char) (s : Text) : readChar (escapeChar c ++ s) = some (c, s) := by
  have hvalid := code_valid c
  rw [escapeChar]
  split
  · rename_i escape hfind
    have hmem := List.mem_of_find?_eq_some hfind
    have hc : escape.1 = c := by simpa using List.find?_some hfind
    subst hc
    simp only [shortEscapes, List.mem_cons, List.not_mem_nil, or_false] at hmem
    rcases hmem with rfl | rfl | rfl | rfl | rfl | rfl | rfl <;> rfl
  · rename_i hfind
    have hbackslash : c ≠ '\\' := by
      rintro rfl
      cases hfind
    split_ifs with hprintable hbmp
    · rw [List.singleton_append, readChar, readUnit_plain hbackslash]
      exact readEscaped_plain hbackslash
    · rw [readChar, readUnit_escape hbmp]
      dsimp only
      rw [if_neg (by omega), Char.ofNat_toNat]
    · rw [List.append_assoc, readChar, readUnit_escape (by omega)]
      dsimp only
      rw [if_pos (by omega), readUnit_escape (by omega), Option.map_some]
      have hcode : 0x10000 + (0xd800 + (c.toNat - 0x10000) / 0x400 - 0xd800) * 0x400 +
          (0xdc00 + (c.toNat - 0x10000) % 0x400 - 0xdc00) = c.toNat := by omega
      dsimp only
      rw [hcode, Char.ofNat_toNat]

theorem escapeChar_readable : Readable Anything escapeChar :=
  .of_reader fun c s _ => readChar_escape c s

theorem escapeChar_head (c : Char) : ∃ b rest, escapeChar c = b :: rest ∧ b ≠ '"' := by
  rw [escapeChar]
  split
  · exact ⟨_, _, rfl, by decide⟩
  · rename_i hfind
    have hquote : c ≠ '"' := by
      rintro rfl
      cases hfind
    split_ifs
    · exact ⟨_, _, rfl, hquote⟩
    · exact ⟨_, _, rfl, by decide⟩
    · exact ⟨_, _, rfl, by decide⟩

theorem jsonString_readable : Readable Anything jsonString := fun _ _ _ _ hs ht heq =>
  escapeChar_readable.terminated escapeChar_head hs ht (List.cons.inj heq).2

def readDigits (s : Text) : Nat × Text :=
  ((s.takeWhile Char.isDigit).foldl (fun acc c => 10 * acc + (c.toNat - 48)) 0,
    s.dropWhile Char.isDigit)

def readInt : Text → Option (Int × Text)
  | '-' :: rest => some (-(readDigits rest).1, (readDigits rest).2)
  | s => some ((readDigits s).1, (readDigits s).2)

def EndsNumber (s : Text) : Prop := ∃ c t, s = c :: t ∧ c.isDigit = false

theorem readDigits_decimalText (h : EndsNumber s) : readDigits (decimalText n ++ s) = (n, s) := by
  obtain ⟨c, t, rfl, hc⟩ := h
  have hdigits : ∀ d ∈ decimalText n, d.isDigit = true := fun d hd =>
    Nat.isDigit_of_mem_toDigits (by decide) (by decide) hd
  rw [readDigits, List.takeWhile_append_of_pos hdigits, List.dropWhile_append_of_pos hdigits,
    List.takeWhile_cons_of_neg (by simp [hc]), List.dropWhile_cons_of_neg (by simp [hc]),
    List.append_nil, foldl_decimalText]

theorem readInt_plain (h : c ≠ '-') :
    readInt (c :: s) = some (((readDigits (c :: s)).1 : Int), (readDigits (c :: s)).2) := by
  unfold readInt
  split
  · rename_i heq
    exact absurd (List.cons.inj heq).1 h
  · rfl

theorem readInt_intText (i : Int) (h : EndsNumber s) : readInt (intText i ++ s) = some (i, s) := by
  rw [intText]
  split_ifs with hneg
  · rw [List.cons_append, readInt, readDigits_decimalText h]
    have hi : -((i.natAbs : ℕ) : Int) = i := by omega
    rw [hi]
  · obtain ⟨c, rest, htext⟩ := List.exists_cons_of_ne_nil (decimalText_ne_nil (n := i.natAbs))
    have hcode := decimalText_code (n := i.natAbs) (c := c) (by simp [htext])
    have hsign : c ≠ '-' := by
      rintro rfl
      exact absurd hcode.1 (by decide)
    have hread := readInt_plain (s := rest ++ s) hsign
    rw [← List.cons_append, ← htext, readDigits_decimalText h] at hread
    have hi : ((i.natAbs : ℕ) : Int) = i := by omega
    rwa [hi] at hread

theorem intText_readable : Readable EndsNumber intText :=
  .of_reader fun i _ h => readInt_intText i h

end Reading

end EthereumLogs.Python
