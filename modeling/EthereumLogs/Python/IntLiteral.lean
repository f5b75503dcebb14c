import EthereumLogs.Python.Text
import EthereumLogs.Library.Numeral
import Mathlib.Data.List.TakeWhile

namespace EthereumLogs.Python

variable {digit : Char → Option ℕ} {base acc : ℕ} {after : Bool} {c : Char}
  {s cs run trail : Text}

def Spaces (s : Text) : Prop := ∀ c ∈ s, isAsciiSpace c = true

-- digits, with at most one underscore between two of them
inductive Digits (digit : Char → Option ℕ) : Text → Prop
  | one {c : Char} (h : (digit c).isSome) : Digits digit [c]
  | digit {c : Char} {cs : Text} (h : (digit c).isSome) (rest : Digits digit cs) :
      Digits digit (c :: cs)
  | underscore {c : Char} {cs : Text} (h : (digit c).isSome) (rest : Digits digit cs) :
      Digits digit (c :: '_' :: cs)

def Continues (digit : Char → Option ℕ) (after : Bool) (run : Text) : Prop :=
  Digits digit run ∨ after = true ∧ (run = [] ∨ ∃ ds, run = '_' :: ds ∧ Digits digit ds)

theorem Digits.cons (h : (digit c).isSome) (hrest : Continues digit true cs) :
    Digits digit (c :: cs) := by
  rcases hrest with hrest | ⟨-, rfl | ⟨ds, rfl, hds⟩⟩
  · exact .digit h hrest
  · exact .one h
  · exact .underscore h hds

structure DigitAlphabet (digit : Char → Option ℕ) : Prop where
  space : ∀ c, isAsciiSpace c = true → digit c = none
  underscore : digit '_' = none

theorem wholeNumber_isSome {r : Option (ℕ × Text)} (h : (wholeNumber r).isSome = true) :
    ∃ n rest, r = some (n, rest) ∧ Spaces rest := by
  cases r with
  | none => cases h
  | some p =>
    obtain ⟨n, rest⟩ := p
    refine ⟨n, rest, rfl, ?_⟩
    unfold wholeNumber at h
    dsimp only at h
    split at h
    · rename_i hall
      exact List.all_eq_true.mp hall
    · cases h

theorem digitRun_grammar (h : (wholeNumber (digitRun base digit acc after s)).isSome = true) :
    ∃ run trail, s = run ++ trail ∧ Spaces trail ∧ Continues digit after run := by
  induction s generalizing acc after with
  | nil =>
    cases after with
    | false => cases h
    | true => exact ⟨[], [], rfl, by simp [Spaces], .inr ⟨rfl, .inl rfl⟩⟩
  | cons c cs ih =>
    rw [digitRun] at h
    split at h
    · rename_i d hd
      obtain ⟨run, trail, rfl, htrail, hrun⟩ := ih h
      exact ⟨c :: run, trail, rfl, htrail, .inl (.cons (by simp [hd]) hrun)⟩
    · split at h
      · rename_i hunderscore
        subst hunderscore
        split at h
        · rename_i hafter
          obtain ⟨run, trail, rfl, htrail, hrun | ⟨hfalse, -⟩⟩ := ih h
          · exact ⟨'_' :: run, trail, rfl, htrail, .inr ⟨hafter, .inr ⟨run, rfl, hrun⟩⟩⟩
          · cases hfalse
        · cases h
      · split at h
        · rename_i hafter
          obtain ⟨n, rest, he, hrest⟩ := wholeNumber_isSome h
          cases he
          exact ⟨[], c :: cs, rfl, hrest, .inr ⟨hafter, .inl rfl⟩⟩
        · cases h

theorem digitRun_spaces (ha : DigitAlphabet digit) (htrail : Spaces trail) :
    digitRun base digit acc true trail = some (acc, trail) := by
  cases trail with
  | nil => rfl
  | cons c cs =>
    have hspace : isAsciiSpace c = true := htrail c (by simp)
    have hne : c ≠ '_' := by
      rintro rfl
      cases hspace
    rw [digitRun, ha.space c hspace]
    simp [hne]

theorem wholeNumber_spaces (htrail : Spaces trail) : wholeNumber (some (acc, trail)) = some acc := by
  rw [wholeNumber, if_pos (List.all_eq_true.mpr htrail)]

theorem digitRun_accepts (ha : DigitAlphabet digit) (hrun : Digits digit run)
    (htrail : Spaces trail) :
    (wholeNumber (digitRun base digit acc after (run ++ trail))).isSome = true := by
  induction hrun generalizing acc after with
  | one h =>
    obtain ⟨d, hd⟩ := Option.isSome_iff_exists.mp h
    rw [List.singleton_append, digitRun, hd]
    simp [digitRun_spaces ha htrail, wholeNumber_spaces htrail]
  | digit h rest ih =>
    obtain ⟨d, hd⟩ := Option.isSome_iff_exists.mp h
    rw [List.cons_append, digitRun, hd]
    exact ih
  | underscore h rest ih =>
    obtain ⟨d, hd⟩ := Option.isSome_iff_exists.mp h
    rw [List.cons_append, List.cons_append, digitRun, hd]
    simp only [digitRun, ha.underscore]
    exact ih

theorem char_le_iff {a b : Char} : a ≤ b ↔ a.toNat ≤ b.toNat := by
  rw [Char.le_def, UInt32.le_iff_toNat_le]
  rfl

theorem isAsciiSpace_toNat (h : isAsciiSpace c = true) : c.toNat ≤ 32 := by
  simp only [isAsciiSpace, Bool.or_eq_true, Bool.and_eq_true, decide_eq_true_eq] at h
  rcases h with rfl | h
  · decide
  · omega

structure HexCode (c : Char) (d : ℕ) : Prop where
  code : 48 ≤ c.toNat ∧ c.toNat ≤ 57 ∧ d = c.toNat - 48 ∨
    97 ≤ c.toNat ∧ c.toNat ≤ 102 ∧ d = c.toNat - 87 ∨
    65 ≤ c.toNat ∧ c.toNat ≤ 70 ∧ d = c.toNat - 55

theorem hexDigit_code {d : ℕ} (h : hexDigit c = some d) : HexCode c d := by
  unfold hexDigit at h
  simp only [char_le_iff, Char.reduceToNat] at h
  split_ifs at h with hdigit hlower hupper
  · cases h
    exact ⟨.inl ⟨hdigit.1, hdigit.2, rfl⟩⟩
  · cases h
    exact ⟨.inr (.inl ⟨hlower.1, hlower.2, by omega⟩)⟩
  · cases h
    exact ⟨.inr (.inr ⟨hupper.1, hupper.2, by omega⟩)⟩

theorem hexDigit_alphabet : DigitAlphabet hexDigit := by
  constructor
  · intro c hc
    have hle := isAsciiSpace_toNat hc
    cases hd : hexDigit c with
    | none => rfl
    | some d =>
      have := (hexDigit_code hd).code
      omega
  · rfl

def signs : List Text := [[], ['-'], ['+']]

def hexPrefixes : List Text := [[], ['0', 'x'], ['0', 'X'], ['0', 'x', '_'], ['0', 'X', '_']]

-- what int(s, 16) reads: blanks, a sign, an optional 0x prefix, digits with underscores, blanks
def BaseSixteenLiteral (s : Text) : Prop :=
  ∃ lead sign pre run trail, s.map transformDecimalAndSpace = lead ++ (sign ++ (pre ++ (run ++ trail))) ∧
    Spaces lead ∧ sign ∈ signs ∧ pre ∈ hexPrefixes ∧ Digits hexDigit run ∧ Spaces trail

theorem dropHexPrefix_split (cs : Text) : ∃ pre ∈ hexPrefixes, cs = pre ++ dropHexPrefix cs := by
  unfold dropHexPrefix
  split
  · rename_i x cs
    split_ifs with hx
    · rcases hx with rfl | rfl
      · split
        · exact ⟨['0', 'x', '_'], by simp [hexPrefixes], rfl⟩
        · exact ⟨['0', 'x'], by simp [hexPrefixes], rfl⟩
      · split
        · exact ⟨['0', 'X', '_'], by simp [hexPrefixes], rfl⟩
        · exact ⟨['0', 'X'], by simp [hexPrefixes], rfl⟩
    · exact ⟨[], by simp [hexPrefixes], rfl⟩
  · exact ⟨[], by simp [hexPrefixes], rfl⟩

theorem Digits.head (h : Digits digit run) : ∃ c cs, run = c :: cs ∧ (digit c).isSome = true := by
  cases h with
  | one h => exact ⟨_, _, rfl, h⟩
  | digit h rest => exact ⟨_, _, rfl, h⟩
  | underscore h rest => exact ⟨_, _, rfl, h⟩

theorem spaces_head (htrail : Spaces trail) (hc : isAsciiSpace c = false) :
    trail.head? ≠ some c := by
  intro h
  have := htrail c (List.mem_of_mem_head? h)
  simp [hc] at this

theorem dropHexPrefix_second {x : Char} (hx : x ≠ 'x') (hX : x ≠ 'X') :
    dropHexPrefix (c :: x :: cs) = c :: x :: cs := by
  unfold dropHexPrefix
  split
  · rename_i h
    cases h
    rw [if_neg (by simp [hx, hX])]
  · rfl

theorem dropHexPrefix_digits (hrun : Digits hexDigit run) (htrail : Spaces trail) :
    dropHexPrefix (run ++ trail) = run ++ trail := by
  have hplain : ∀ x : Char, (hexDigit x).isSome = true → x ≠ 'x' ∧ x ≠ 'X' := by
    intro x hx
    constructor
    · rintro rfl
      cases hx
    · rintro rfl
      cases hx
  cases hrun with
  | one h =>
    cases trail with
    | nil => simp [dropHexPrefix]
    | cons x trail =>
      apply dropHexPrefix_second
      · rintro rfl
        exact spaces_head htrail (by decide) rfl
      · rintro rfl
        exact spaces_head htrail (by decide) rfl
  | digit h rest =>
    obtain ⟨x, xs, rfl, hx⟩ := rest.head
    exact dropHexPrefix_second (hplain x hx).1 (hplain x hx).2
  | underscore h rest => exact dropHexPrefix_second (by decide) (by decide)

theorem dropHexPrefix_literal {pre : Text} (hpre : pre ∈ hexPrefixes) (hrun : Digits hexDigit run)
    (htrail : Spaces trail) : dropHexPrefix (pre ++ (run ++ trail)) = run ++ trail := by
  obtain ⟨c, cs, hhead, hc⟩ := hrun.head
  have hc' : c ≠ '_' := by
    rintro rfl
    cases hc
  simp only [hexPrefixes, List.mem_cons, List.not_mem_nil, or_false] at hpre
  rcases hpre with rfl | rfl | rfl | rfl | rfl
  · rw [List.nil_append]
    exact dropHexPrefix_digits hrun htrail
  · simp [dropHexPrefix, hhead, hc']
  · simp [dropHexPrefix, hhead, hc']
  · simp [dropHexPrefix]
  · simp [dropHexPrefix]

theorem unsignedBase16_isSome {body : Text} : (unsignedBase16 body).isSome = true ↔
    ∃ pre run trail, body = pre ++ (run ++ trail) ∧ pre ∈ hexPrefixes ∧ Digits hexDigit run ∧
      Spaces trail := by
  constructor
  · intro h
    obtain ⟨run, trail, hbody, htrail, hrun | ⟨hfalse, -⟩⟩ := digitRun_grammar h
    · obtain ⟨pre, hpre, hsplit⟩ := dropHexPrefix_split body
      exact ⟨pre, run, trail, by rw [← hbody]; exact hsplit, hpre, hrun, htrail⟩
    · cases hfalse
  · rintro ⟨pre, run, trail, rfl, hpre, hrun, htrail⟩
    rw [unsignedBase16, dropHexPrefix_literal hpre hrun htrail]
    exact digitRun_accepts hexDigit_alphabet hrun htrail

theorem lifted_map_isSome (x : Option ℕ) (f : Int → Int) :
    (Option.map f (x >>= fun a => pure (a : Int))).isSome = x.isSome := by cases x <;> rfl

theorem signedInt_isSome {unsigned : Text → Option ℕ} (h : (signedInt unsigned s).isSome = true) :
    ∃ lead sign body, s.map transformDecimalAndSpace = lead ++ (sign ++ body) ∧ Spaces lead ∧
      sign ∈ signs ∧ (unsigned body).isSome = true := by
  have hlead : Spaces ((s.map transformDecimalAndSpace).takeWhile isAsciiSpace) :=
    fun c hc => by simpa using List.mem_takeWhile_imp hc
  have hsplit := (List.takeWhile_append_dropWhile (p := isAsciiSpace)
    (l := s.map transformDecimalAndSpace)).symm
  unfold signedInt at h
  split at h
  · rename_i cs hcs
    rw [lifted_map_isSome] at h
    exact ⟨_, ['-'], cs, by rw [hcs] at hsplit; exact hsplit, hlead, by simp [signs], h⟩
  · rename_i cs hcs
    rw [lifted_map_isSome] at h
    exact ⟨_, ['+'], cs, by rw [hcs] at hsplit; exact hsplit, hlead, by simp [signs], h⟩
  · rw [lifted_map_isSome] at h
    exact ⟨_, [], _, hsplit, hlead, by simp [signs], h⟩

theorem dropWhile_lead {lead : Text} (hlead : Spaces lead) (hc : isAsciiSpace c = false) :
    (lead ++ c :: cs).dropWhile isAsciiSpace = c :: cs := by
  rw [List.dropWhile_append_of_pos hlead, List.dropWhile_cons_of_neg (by simp [hc])]

theorem signedInt_plain {unsigned : Text → Option ℕ} {lead : Text}
    (hs : s.map transformDecimalAndSpace = lead ++ c :: cs) (hlead : Spaces lead)
    (hc : (hexDigit c).isSome = true) :
    signedInt unsigned s = (unsigned (c :: cs)).map Int.ofNat := by
  have hspace : isAsciiSpace c = false := by
    by_contra h
    rw [hexDigit_alphabet.space c (by simpa using h)] at hc
    cases hc
  rw [signedInt]
  rw [hs, dropWhile_lead hlead hspace]
  split
  · rename_i h
    cases h
    cases hc
  · rename_i h
    cases h
    cases hc
  · cases unsigned (c :: cs) <;> rfl

theorem signedInt_signed {unsigned : Text → Option ℕ} {lead sign body : Text}
    (hs : s.map transformDecimalAndSpace = lead ++ (sign ++ body)) (hlead : Spaces lead)
    (hsign : sign ∈ signs) (hbody : ∃ c cs, body = c :: cs ∧ (hexDigit c).isSome = true) :
    (signedInt unsigned s).isSome = (unsigned body).isSome := by
  obtain ⟨c, cs, rfl, hc⟩ := hbody
  simp only [signs, List.mem_cons, List.not_mem_nil, or_false] at hsign
  rcases hsign with rfl | rfl | rfl
  · rw [signedInt_plain hs hlead hc, Option.isSome_map]
  · rw [signedInt, hs, List.singleton_append, dropWhile_lead hlead (by decide)]
    exact lifted_map_isSome _ _
  · rw [signedInt, hs, List.singleton_append, dropWhile_lead hlead (by decide)]
    exact lifted_map_isSome _ _

theorem intBase16_isSome_iff : (intBase16 s).isSome = true ↔ BaseSixteenLiteral s := by
  constructor
  · intro h
    obtain ⟨lead, sign, body, hs, hlead, hsign, hbody⟩ := signedInt_isSome h
    obtain ⟨pre, run, trail, rfl, hpre, hrun, htrail⟩ := unsignedBase16_isSome.mp hbody
    exact ⟨lead, sign, pre, run, trail, hs, hlead, hsign, hpre, hrun, htrail⟩
  · rintro ⟨lead, sign, pre, run, trail, hs, hlead, hsign, hpre, hrun, htrail⟩
    have hhead : ∃ c cs, pre ++ (run ++ trail) = c :: cs ∧ (hexDigit c).isSome = true := by
      obtain ⟨c, cs, rfl, hc⟩ := hrun.head
      simp only [hexPrefixes, List.mem_cons, List.not_mem_nil, or_false] at hpre
      rcases hpre with rfl | rfl | rfl | rfl | rfl
      · exact ⟨c, _, rfl, hc⟩
      all_goals exact ⟨'0', _, rfl, rfl⟩
    rw [intBase16, signedInt_signed hs hlead hsign hhead]
    exact unsignedBase16_isSome.mpr ⟨pre, run, trail, rfl, hpre, hrun, htrail⟩

theorem int16_ok_iff : (∃ n, int16 s = .ok n) ↔ BaseSixteenLiteral s := by
  rw [← intBase16_isSome_iff, int16]
  cases intBase16 s with
  | none => simp
  | some n => simp

end EthereumLogs.Python
