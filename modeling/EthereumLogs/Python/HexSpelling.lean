import EthereumLogs.Python.Digits
import Mathlib.Data.List.Forall2

namespace EthereumLogs.Python

inductive HexCase : Char → Char → Prop
  | same (c : Char) : HexCase c c
  | letter {c d : Char} (hc : isHexDigit c = true) (hd : isHexDigit d = true)
      (h : c.toLower = d.toLower) : HexCase c d

def HexCases (s t : Text) : Prop := List.Forall₂ HexCase s t

variable {c d : Char} {s t : Text} {acc : ℕ} {after : Bool}

theorem HexCase.digit (h : HexCase c d) : hexDigit c = hexDigit d := by
  cases h with
  | same => rfl
  | letter hc hd h =>
    obtain ⟨v, hv⟩ := Option.isSome_iff_exists.mp hc
    obtain ⟨w, hw⟩ := Option.isSome_iff_exists.mp hd
    have hcodes := congrArg Char.toNat h
    rw [toNat_toLower, toNat_toLower] at hcodes
    have hcv := (hexDigit_code hv).code
    have hdw := (hexDigit_code hw).code
    have hvalue : v = w := by
      split_ifs at hcodes
      all_goals omega
    rw [hv, hw, hvalue]

theorem HexCase.lower (h : HexCase c d) : c.toLower = d.toLower := by
  cases h with
  | same => rfl
  | letter _ _ h => exact h

theorem HexCase.fixed (h : HexCase c d) (hc : isHexDigit c = false ∨ c = '0') : d = c := by
  cases h with
  | same => rfl
  | letter hcdigit hd h =>
    rcases hc with hc | rfl
    · rw [hc] at hcdigit
      cases hcdigit
    · have hcodes := congrArg Char.toNat h
      rw [toNat_toLower, toNat_toLower] at hcodes
      apply Char.toNat_inj.mp
      simp only [Char.reduceToNat] at hcodes ⊢
      split_ifs at hcodes
      all_goals omega

theorem HexCase.symm (h : HexCase c d) : HexCase d c := by
  cases h with
  | same => exact .same c
  | letter hc hd h => exact .letter hd hc h.symm

theorem HexCase.eq_iff {k : Char} (h : HexCase c d) (hk : isHexDigit k = false ∨ k = '0') :
    c = k ↔ d = k := by
  constructor
  · rintro rfl
    exact h.fixed hk
  · rintro rfl
    exact h.symm.fixed hk

theorem HexCase.transform (h : HexCase c d) :
    HexCase (transformDecimalAndSpace c) (transformDecimalAndSpace d) := by
  cases h with
  | same => exact .same _
  | letter hc hd h =>
    rw [transform_ascii (hexDigit_ascii hc), transform_ascii (hexDigit_ascii hd)]
    exact .letter hc hd h

theorem HexCase.space (h : HexCase c d) : isAsciiSpace c = isAsciiSpace d := by
  have hnot {e : Char} (he : isHexDigit e = true) : isAsciiSpace e = false := by
    by_contra hspace
    rw [isHexDigit, hexDigit_alphabet.space e (by simpa using hspace)] at he
    cases he
  cases h with
  | same => rfl
  | letter hc hd _ => rw [hnot hc, hnot hd]

theorem HexCases.all_space (h : HexCases s t) : s.all isAsciiSpace = t.all isAsciiSpace := by
  induction h with
  | nil => rfl
  | cons hcd _ ih => rw [List.all_cons, List.all_cons, hcd.space, ih]

theorem HexCases.dropWhile_space (h : HexCases s t) :
    HexCases (s.dropWhile isAsciiSpace) (t.dropWhile isAsciiSpace) := by
  induction h with
  | nil => exact .nil
  | @cons c d cs ds hcd hrest ih =>
    rw [List.dropWhile_cons, List.dropWhile_cons, hcd.space]
    split
    · exact ih
    · exact .cons hcd hrest

theorem HexCases.lower (h : HexCases s t) : Python.lower s = Python.lower t := by
  induction h with
  | nil => rfl
  | cons hcd _ ih => exact congrArg₂ List.cons hcd.lower ih

theorem HexCases.digitRun (h : HexCases s t) :
    wholeNumber (Python.digitRun 16 hexDigit acc after s) =
      wholeNumber (Python.digitRun 16 hexDigit acc after t) := by
  induction h generalizing acc after with
  | nil => rfl
  | @cons c d cs ds hcd hrest ih =>
    have hrest : HexCases cs ds := hrest
    rw [Python.digitRun, Python.digitRun, hcd.digit]
    cases hd : hexDigit d with
    | some v => exact ih
    | none =>
      have hsame : c = d := hcd.symm.fixed (.inl (by simp [isHexDigit, hd]))
      subst hsame
      dsimp only
      split_ifs
      · exact ih
      · rfl
      · rw [wholeNumber, wholeNumber, List.all_cons, List.all_cons, hrest.all_space]
      · rfl

def dropUnderscore : Text → Text
  | '_' :: ds => ds
  | ds => ds

theorem HexCases.dropUnderscore (h : HexCases s t) :
    HexCases (Python.dropUnderscore s) (Python.dropUnderscore t) := by
  cases h with
  | nil => exact .nil
  | @cons c d cs ds hcd hrest =>
    have hunderscore : c = '_' ↔ d = '_' := hcd.eq_iff (.inl rfl)
    unfold Python.dropUnderscore
    split
    · rename_i hc
      cases hc
      obtain rfl := hunderscore.mp rfl
      exact hrest
    · rename_i hc
      split
      · rename_i hd
        cases hd
        obtain rfl := hunderscore.mpr rfl
        exact absurd rfl (hc _)
      · exact .cons hcd hrest

theorem dropHexPrefix_marked {x : Char} (cs : Text) (hx : x = 'x' ∨ x = 'X') :
    dropHexPrefix ('0' :: x :: cs) = dropUnderscore cs := by
  change (if x = 'x' ∨ x = 'X' then dropUnderscore cs else '0' :: x :: cs) = dropUnderscore cs
  rw [if_pos hx]

theorem dropHexPrefix_unmarked (hc : c ≠ '0') (cs : Text) : dropHexPrefix (c :: cs) = c :: cs := by
  unfold dropHexPrefix
  split
  · rename_i h
    cases h
    exact absurd rfl hc
  · rfl

theorem HexCases.dropHexPrefix (h : HexCases s t) :
    HexCases (Python.dropHexPrefix s) (Python.dropHexPrefix t) := by
  cases h with
  | nil => exact .nil
  | @cons c d cs ds hcd hrest =>
    have hzero : c = '0' ↔ d = '0' := hcd.eq_iff (.inr rfl)
    by_cases hc : c = '0'
    · obtain rfl := hzero.mp hc
      subst hc
      cases hrest with
      | nil => exact .cons (.same _) .nil
      | @cons x y xs ys hxy hrest =>
        have hx : x = 'x' ↔ y = 'x' := hxy.eq_iff (.inl rfl)
        have hX : x = 'X' ↔ y = 'X' := hxy.eq_iff (.inl rfl)
        by_cases hmark : x = 'x' ∨ x = 'X'
        · rw [dropHexPrefix_marked xs hmark, dropHexPrefix_marked ys ((or_congr hx hX).mp hmark)]
          exact HexCases.dropUnderscore hrest
        · obtain ⟨hnx, hnX⟩ := not_or.mp hmark
          rw [dropHexPrefix_second hnx hnX, dropHexPrefix_second (mt hx.mpr hnx) (mt hX.mpr hnX)]
          exact .cons (.same _) (.cons hxy hrest)
    · rw [dropHexPrefix_unmarked hc, dropHexPrefix_unmarked (mt hzero.mpr hc)]
      exact .cons hcd hrest

theorem HexCases.unsignedBase16 (h : HexCases s t) :
    Python.unsignedBase16 s = Python.unsignedBase16 t := h.dropHexPrefix.digitRun

theorem HexCases.transform (h : HexCases s t) :
    HexCases (s.map transformDecimalAndSpace) (t.map transformDecimalAndSpace) := by
  induction h with
  | nil => exact .nil
  | cons hcd _ ih => exact .cons hcd.transform ih

def readSigned (unsigned : Text → Option ℕ) : Text → Option Int
  | '-' :: cs => (unsigned cs).map fun n => -(n : Int)
  | '+' :: cs => (unsigned cs).map fun n => (n : Int)
  | cs => (unsigned cs).map fun n => (n : Int)

theorem signedInt_eq (unsigned : Text → Option ℕ) (s : Text) : signedInt unsigned s =
    readSigned unsigned ((s.map transformDecimalAndSpace).dropWhile isAsciiSpace) := rfl

theorem readSigned_plain {unsigned : Text → Option ℕ} (hminus : c ≠ '-') (hplus : c ≠ '+')
    (cs : Text) : readSigned unsigned (c :: cs) = (unsigned (c :: cs)).map fun n => (n : Int) := by
  unfold readSigned
  split
  · rename_i h
    cases h
    exact absurd rfl hminus
  · rename_i h
    cases h
    exact absurd rfl hplus
  · rfl

theorem HexCases.readSigned (h : HexCases s t) :
    Python.readSigned Python.unsignedBase16 s = Python.readSigned Python.unsignedBase16 t := by
  cases h with
  | nil => rfl
  | @cons c d cs ds hcd hrest =>
    have hrest : HexCases cs ds := hrest
    have hwhole : HexCases (c :: cs) (d :: ds) := .cons hcd hrest
    have hminus : c = '-' ↔ d = '-' := hcd.eq_iff (.inl rfl)
    have hplus : c = '+' ↔ d = '+' := hcd.eq_iff (.inl rfl)
    by_cases hm : c = '-'
    · obtain rfl := hminus.mp hm
      subst hm
      rw [Python.readSigned, Python.readSigned, hrest.unsignedBase16]
    · by_cases hp : c = '+'
      · obtain rfl := hplus.mp hp
        subst hp
        rw [Python.readSigned, Python.readSigned, hrest.unsignedBase16]
      · rw [readSigned_plain hm hp, readSigned_plain (mt hminus.mpr hm) (mt hplus.mpr hp),
          hwhole.unsignedBase16]

theorem HexCases.int16 (h : HexCases s t) : Python.int16 s = Python.int16 t := by
  rw [Python.int16, Python.int16, intBase16, intBase16, signedInt_eq, signedInt_eq,
    h.transform.dropWhile_space.readSigned]

def HexDigitText (c : Char) : Prop := isHexDigit (transformDecimalAndSpace c) = true

def quantityText (zeros : ℕ) (digits : Text) : Text :=
  '0' :: 'x' :: (List.replicate zeros '0' ++ digits)

theorem HexCase.digitText (h : HexCase c d) (hc : HexDigitText c) : HexDigitText d := by
  rw [HexDigitText, isHexDigit] at hc ⊢
  rwa [← h.transform.digit]

theorem digitRun_zeros (hc : isHexDigit c = true) (zeros : ℕ) (ds : Text) :
    digitRun 16 hexDigit 0 after (List.replicate zeros '0' ++ c :: ds) =
      digitRun 16 hexDigit 0 false (c :: ds) := by
  induction zeros generalizing after with
  | zero =>
    obtain ⟨v, hv⟩ := Option.isSome_iff_exists.mp hc
    rw [List.replicate_zero, List.nil_append, digitRun, digitRun, hv]
  | succ zeros ih => exact ih

theorem dropUnderscore_digit (hc : isHexDigit c = true) (zeros : ℕ) (ds : Text) :
    dropUnderscore (List.replicate zeros '0' ++ c :: ds) = List.replicate zeros '0' ++ c :: ds := by
  have hplain {e : Char} (he : e ≠ '_') (es : Text) : dropUnderscore (e :: es) = e :: es := by
    unfold dropUnderscore
    split
    · rename_i h
      cases h
      exact absurd rfl he
    · rfl
  cases zeros with
  | zero =>
    refine hplain ?_ ds
    rintro rfl
    cases hc
  | succ zeros => exact hplain (by decide) _

theorem unsignedBase16_padded (hc : isHexDigit c = true) (zeros : ℕ) (ds : Text) :
    unsignedBase16 (quantityText zeros (c :: ds)) = unsignedBase16 ('0' :: 'x' :: c :: ds) := by
  have hnone := dropUnderscore_digit hc 0 ds
  rw [List.replicate_zero, List.nil_append] at hnone
  rw [unsignedBase16, unsignedBase16, quantityText, dropHexPrefix_marked _ (.inl rfl),
    dropHexPrefix_marked _ (.inl rfl), dropUnderscore_digit hc, digitRun_zeros hc, hnone]

theorem int16_padded (hc : HexDigitText c) (zeros : ℕ) (ds : Text) :
    int16 (quantityText zeros (c :: ds)) = int16 ('0' :: 'x' :: c :: ds) := by
  have hmap : (quantityText zeros (c :: ds)).map transformDecimalAndSpace =
      quantityText zeros (transformDecimalAndSpace c :: ds.map transformDecimalAndSpace) := by
    rw [quantityText, List.map_cons, List.map_cons, List.map_append, List.map_replicate,
      List.map_cons]
    rfl
  have hread : intBase16 (quantityText zeros (c :: ds)) =
      (unsignedBase16 (quantityText zeros
        (transformDecimalAndSpace c :: ds.map transformDecimalAndSpace))).map fun n => (n : Int) := by
    rw [intBase16, signedInt_eq, hmap]
    exact readSigned_plain (by decide) (by decide) _
  have hplain : intBase16 ('0' :: 'x' :: c :: ds) = (unsignedBase16 ('0' :: 'x' ::
      transformDecimalAndSpace c :: ds.map transformDecimalAndSpace)).map fun n => (n : Int) := by
    rw [intBase16, signedInt_eq]
    exact readSigned_plain (by decide) (by decide) _
  rw [int16, int16, hread, hplain, unsignedBase16_padded hc]

end EthereumLogs.Python
