import EthereumLogs.Python.IntLiteral
import Mathlib.Tactic.IntervalCases

namespace EthereumLogs.Python
open Numeral

variable {digit : Char → Option ℕ} {base acc d n k : ℕ} {after : Bool} {c : Char} {s cs : Text}

def isHexDigit (c : Char) : Bool := (hexDigit c).isSome

def hexVal (c : Char) : ℕ := (hexDigit c).getD 0

def hexValue (cs : Text) : ℕ := value 16 (cs.map hexVal)

def isDecimalDigit (c : Char) : Bool := (decimalDigit c).isSome

def decimalVal (c : Char) : ℕ := (decimalDigit c).getD 0

def decimalDigitsValue (cs : Text) : ℕ := value 10 (cs.map decimalVal)

theorem transform_ascii (h : c.toNat < 127) : transformDecimalAndSpace c = c := if_pos h

theorem map_transform_ascii (h : ∀ c ∈ cs, c.toNat < 127) : cs.map transformDecimalAndSpace = cs :=
  (List.map_congr_left fun c hc => transform_ascii (h c hc)).trans (List.map_id cs)

theorem digitRun_digits (h : ∀ c ∈ cs, (digit c).isSome = true) :
    digitRun base digit acc true cs =
      some (cs.foldl (fun acc c => base * acc + (digit c).getD 0) acc, []) := by
  induction cs generalizing acc with
  | nil => rfl
  | cons c cs ih =>
    obtain ⟨d, hd⟩ := Option.isSome_iff_exists.mp (h c (by simp))
    rw [digitRun, hd, List.foldl_cons, hd]
    exact ih fun c hc => h c (by simp [hc])

theorem wholeNumber_digits (h : ∀ c ∈ cs, (digit c).isSome = true) (hne : cs ≠ []) :
    wholeNumber (digitRun base digit 0 false cs) =
      some (value base (cs.map fun c => (digit c).getD 0)) := by
  cases cs with
  | nil => exact absurd rfl hne
  | cons c cs =>
    obtain ⟨d, hd⟩ := Option.isSome_iff_exists.mp (h c (by simp))
    rw [← foldl_value, List.foldl_cons, digitRun, hd]
    exact congrArg wholeNumber (digitRun_digits fun c hc => h c (by simp [hc]))

theorem Digits.of_all (h : ∀ c ∈ cs, (digit c).isSome = true) (hne : cs ≠ []) :
    Digits digit cs := by
  induction cs with
  | nil => exact absurd rfl hne
  | cons c cs ih =>
    rcases eq_or_ne cs [] with rfl | hcs
    · exact .one (h c (by simp))
    · exact .digit (h c (by simp)) (ih (fun c hc => h c (by simp [hc])) hcs)

theorem hexDigit_ascii (h : isHexDigit c = true) : c.toNat < 127 := by
  obtain ⟨d, hd⟩ := Option.isSome_iff_exists.mp h
  have := (hexDigit_code hd).code
  omega

theorem hexVal_lt (c : Char) : hexVal c < 16 := by
  rw [hexVal]
  cases hd : hexDigit c with
  | none => decide
  | some d =>
    have := (hexDigit_code hd).code
    simp only [Option.getD_some]
    omega

theorem unsignedBase16_hexDigits (h : ∀ c ∈ cs, isHexDigit c = true) (hne : cs ≠ []) :
    unsignedBase16 cs = some (hexValue cs) := by
  have hspaces : Spaces [] := by simp [Spaces]
  have hdrop := dropHexPrefix_digits (.of_all h hne) hspaces
  rw [List.append_nil] at hdrop
  rw [unsignedBase16, hdrop]
  exact wholeNumber_digits h hne

theorem unsignedBase16_prefixed (h : ∀ c ∈ cs, isHexDigit c = true) (hne : cs ≠ []) :
    unsignedBase16 ('0' :: 'x' :: cs) = some (hexValue cs) := by
  have hspaces : Spaces [] := by simp [Spaces]
  have hstarts : ['0', 'x'] ∈ hexPrefixes := by simp [hexPrefixes]
  have hdrop := dropHexPrefix_literal hstarts (.of_all h hne) hspaces
  rw [List.append_nil] at hdrop
  rw [unsignedBase16]
  change wholeNumber (digitRun 16 hexDigit 0 false (dropHexPrefix (['0', 'x'] ++ cs))) = _
  rw [hdrop]
  exact wholeNumber_digits h hne

theorem int16_hexDigits (h : ∀ c ∈ cs, isHexDigit c = true) (hne : cs ≠ []) :
    int16 cs = .ok (hexValue cs) := by
  cases cs with
  | nil => exact absurd rfl hne
  | cons c cs =>
    have hmap := map_transform_ascii fun x hx => hexDigit_ascii (h x hx)
    have hplain : signedInt unsignedBase16 (c :: cs) = (unsignedBase16 (c :: cs)).map Int.ofNat :=
      signedInt_plain (hmap.trans (List.nil_append _).symm) (by simp [Spaces]) (h c (by simp))
    rw [int16, intBase16, hplain, unsignedBase16_hexDigits h hne]
    rfl

theorem int16_prefixed (h : ∀ c ∈ cs, isHexDigit c = true) (hne : cs ≠ []) :
    int16 ('0' :: 'x' :: cs) = .ok (hexValue cs) := by
  have hmap : ('0' :: 'x' :: cs).map transformDecimalAndSpace = '0' :: 'x' :: cs := by
    apply map_transform_ascii
    intro c hc
    simp only [List.mem_cons] at hc
    rcases hc with rfl | rfl | hc
    · decide
    · decide
    · exact hexDigit_ascii (h c hc)
  have hplain : signedInt unsignedBase16 ('0' :: 'x' :: cs) =
      (unsignedBase16 ('0' :: 'x' :: cs)).map Int.ofNat :=
    signedInt_plain (hmap.trans (List.nil_append _).symm) (by simp [Spaces]) rfl
  rw [int16, intBase16, hplain, unsignedBase16_prefixed h hne]
  rfl

section Lower

theorem toNat_toLower (c : Char) :
    c.toLower.toNat = if 65 ≤ c.toNat ∧ c.toNat ≤ 90 then c.toNat + 32 else c.toNat := by
  unfold Char.toLower
  split
  · rename_i h
    have h' : 65 ≤ c.toNat ∧ c.toNat ≤ 90 := h
    rw [if_pos h']
    change (c.val + 32).toNat = c.val.toNat + 32
    rw [UInt32.toNat_add]
    change (c.toNat + 32) % 2 ^ 32 = _
    exact Nat.mod_eq_of_lt (by omega)
  · rename_i h
    have h' : ¬ (65 ≤ c.toNat ∧ c.toNat ≤ 90) := h
    rw [if_neg h']

theorem hexDigit_eq (c : Char) : hexDigit c =
    if 48 ≤ c.toNat ∧ c.toNat ≤ 57 then some (c.toNat - 48)
    else if 97 ≤ c.toNat ∧ c.toNat ≤ 102 then some (c.toNat - 97 + 10)
    else if 65 ≤ c.toNat ∧ c.toNat ≤ 70 then some (c.toNat - 65 + 10) else none := by
  rw [hexDigit]
  simp only [char_le_iff, Char.reduceToNat]

theorem hexDigit_toLower (c : Char) : hexDigit c.toLower = hexDigit c := by
  rw [hexDigit_eq, hexDigit_eq, toNat_toLower]
  split_ifs <;> first | rfl | omega

theorem isHexDigit_toLower (c : Char) : isHexDigit c.toLower = isHexDigit c := by
  rw [isHexDigit, hexDigit_toLower, isHexDigit]

theorem hexValue_lower (cs : Text) : hexValue (lower cs) = hexValue cs := by
  rw [hexValue, hexValue, lower, List.map_map]
  congr 1
  apply List.map_congr_left
  intro c _
  simp [hexVal, hexDigit_toLower]

theorem digitChar_hexVal (h : isHexDigit c = true) : Nat.digitChar (hexVal c) = c.toLower := by
  obtain ⟨d, hd⟩ := Option.isSome_iff_exists.mp h
  have hlt := hexVal_lt c
  rw [hexVal, hd] at hlt ⊢
  rw [Option.getD_some] at hlt ⊢
  have hcode : d.digitChar.toNat = if d < 10 then 48 + d else 87 + d := by
    interval_cases d <;> rfl
  apply Char.toNat_inj.mp
  rw [hcode, toNat_toLower]
  have := (hexDigit_code hd).code
  split_ifs <;> omega

theorem all_hexDigits_lower : (∀ c ∈ lower cs, isHexDigit c = true) ↔ ∀ c ∈ cs, isHexDigit c = true := by
  simp [lower, isHexDigit_toLower]

theorem leftpad_hexValue (h : ∀ c ∈ cs, isHexDigit c = true) (hne : cs ≠ []) :
    (Nat.toDigits 16 (hexValue cs)).leftpad cs.length '0' = lower cs := by
  have hdigits : ∀ d ∈ cs.map hexVal, d < 16 := by simp [hexVal_lt]
  have hpad := leftpad_toDigits (by decide) (by simpa using hne) hdigits
  rw [List.length_map, List.map_map] at hpad
  rw [hexValue, hpad, lower]
  exact List.map_congr_left fun c hc => digitChar_hexVal (h c hc)

theorem hexValue_lt (cs : Text) : hexValue cs < 16 ^ cs.length := by
  have hdigits : ∀ d ∈ cs.map hexVal, d < 16 := by simp [hexVal_lt]
  have hlt := value_lt hdigits
  rwa [List.length_map] at hlt

end Lower

section Hex

theorem hexVal_digitChar :
    ∀ d < 16, hexVal (Nat.digitChar d) = d ∧ isHexDigit (Nat.digitChar d) = true := by decide

theorem toDigits_hex : ∀ c ∈ Nat.toDigits 16 n, isHexDigit c = true := by
  induction n using Nat.strong_induction_on with
  | _ n ih =>
    rw [Nat.toDigits_eq_if (by decide)]
    split_ifs with hlt
    · simpa using (hexVal_digitChar n hlt).2
    · intro c hc
      rcases List.mem_append.mp hc with hc | hc
      · exact ih (n / 16) (by omega) c hc
      · rw [List.mem_singleton] at hc
        rw [hc]
        exact (hexVal_digitChar (n % 16) (by omega)).2

theorem hexValue_toDigits : hexValue (Nat.toDigits 16 n) = n := by
  induction n using Nat.strong_induction_on with
  | _ n ih =>
    rw [Nat.toDigits_eq_if (by decide)]
    split_ifs with hlt
    · rw [hexValue, List.map_singleton, (hexVal_digitChar n hlt).1]
      simp [value]
    · have hhigh := ih (n / 16) (by omega)
      rw [hexValue] at hhigh ⊢
      rw [List.map_append, List.map_singleton, value_concat, hhigh,
        (hexVal_digitChar (n % 16) (by omega)).1]
      omega

theorem int16_hex (n : ℕ) : int16 (hex n) = .ok (n : Int) := by
  have hnonneg : ¬ (n : Int) < 0 := by omega
  rw [hex, if_neg hnonneg, Int.natAbs_natCast, hexText,
    int16_prefixed toDigits_hex Nat.toDigits_ne_nil, hexValue_toDigits]

end Hex

section Decimal

theorem decimalText_ne_nil : decimalText n ≠ [] := Nat.toDigits_ne_nil

theorem decimalText_code (h : c ∈ decimalText n) : 48 ≤ c.toNat ∧ c.toNat ≤ 57 := by
  have hdigit := Nat.isDigit_of_mem_toDigits (by decide) (by decide) h
  simp only [Char.isDigit, ge_iff_le, Bool.and_eq_true, decide_eq_true_eq,
    UInt32.le_iff_toNat_le] at hdigit
  exact hdigit

theorem length_decimalText_le_iff (hk : 0 < k) : (decimalText n).length ≤ k ↔ n < 10 ^ k :=
  Nat.length_toDigits_le_iff (by decide) hk

theorem head_decimalText (hn : n ≠ 0) : (decimalText n).head? ≠ some '0' :=
  head_toDigits (by decide) hn

theorem foldl_decimalText : (decimalText n).foldl (fun acc c => 10 * acc + (c.toNat - 48)) 0 = n :=
  Nat.ofDigitChars_ten_toDigits

theorem decimalDigit_code (h : 48 ≤ c.toNat ∧ c.toNat ≤ 57) :
    decimalDigit c = some (c.toNat - 48) := by
  rw [decimalDigit]
  rw [if_pos (by simpa only [char_le_iff, Char.reduceToNat] using h)]
  rfl

theorem decimalValue_code (h : 48 ≤ c.toNat ∧ c.toNat ≤ 57) :
    decimalValue c = some (c.toNat - 48) := by
  have hfind : decimalZeros.find? (fun z => z ≤ c.toNat && c.toNat ≤ z + 9) = some 48 := by
    rw [decimalZeros]
    rw [List.find?_cons_of_pos (by simpa using h)]
  rw [decimalValue, hfind]
  rfl

theorem int10_decimalText (hlength : (decimalText n).length ≤ 4300) :
    intBase10 (decimalText n) = some (n : Int) := by
  have hdigits : ∀ c ∈ decimalText n, (decimalDigit c).isSome = true := fun c hc => by
    rw [decimalDigit_code (decimalText_code hc)]
    rfl
  have hmap : (decimalText n).map transformDecimalAndSpace = decimalText n :=
    map_transform_ascii fun c hc => by
      have := decimalText_code hc
      omega
  have hunsigned : unsignedBase10 (decimalText n) = some n := by
    rw [unsignedBase10, if_neg (by have := (decimalText n).length_filterMap_le decimalDigit; omega),
      wholeNumber_digits hdigits decimalText_ne_nil, ← foldl_value]
    congr 1
    refine Eq.trans ?_ (foldl_decimalText (n := n))
    apply List.foldl_ext
    intro acc c hc
    rw [decimalDigit_code (decimalText_code hc)]
    rfl
  obtain ⟨c, cs, hcs⟩ := List.exists_cons_of_ne_nil (decimalText_ne_nil (n := n))
  have hhead : (hexDigit c).isSome = true := by
    have := decimalText_code (n := n) (c := c) (by simp [hcs])
    rw [hexDigit_eq, if_pos this]
    rfl
  rw [hcs] at hmap hunsigned ⊢
  have hplain : signedInt unsignedBase10 (c :: cs) = (unsignedBase10 (c :: cs)).map Int.ofNat :=
    signedInt_plain (hmap.trans (List.nil_append _).symm) (by simp [Spaces]) hhead
  rw [intBase10, hplain, hunsigned]
  rfl

end Decimal

end EthereumLogs.Python
