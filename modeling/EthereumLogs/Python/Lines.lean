import EthereumLogs.Python.Text
import Mathlib.Algebra.Group.Nat.Defs

namespace EthereumLogs.Python

def isLineBreak (c : Char) : Bool :=
  c.toNat ∈ [0xa, 0xb, 0xc, 0xd, 0x1c, 0x1d, 0x1e, 0x85, 0x2028, 0x2029]

def splitlinesFrom (line : Text) : Text → List Text
  | [] => if line = [] then [] else [line]
  | '\r' :: '\n' :: cs => line :: splitlinesFrom [] cs
  | c :: cs => if isLineBreak c then line :: splitlinesFrom [] cs else splitlinesFrom (line ++ [c]) cs

def splitlines (s : Text) : List Text := splitlinesFrom [] s

def joinLines : List Text → Text
  | [] => []
  | [line] => line
  | line :: lines => line ++ '\n' :: joinLines lines

example : splitlines "a\r\n\nb\x0b\u2028c\n".toList =
    ["a".toList, [], "b".toList, [], "c".toList] := by decide

def lineBreaks (s : Text) : ℕ := s.countP isLineBreak

def Unbroken (line : Text) : Prop := ∀ c ∈ line, isLineBreak c = false

variable {line s : Text} {lines : List Text}

theorem lineBreaks_cons (c : Char) (s : Text) :
    lineBreaks (c :: s) = lineBreaks s + if isLineBreak c then 1 else 0 := List.countP_cons

theorem lineBreaks_unbroken (h : Unbroken line) : lineBreaks line = 0 :=
  List.countP_eq_zero.mpr (by simpa [Unbroken] using h)

theorem splitlinesFrom_length (line s : Text) : (splitlinesFrom line s).length ≤ lineBreaks s + 1 := by
  induction line, s using splitlinesFrom.induct with
  | case1 => simp [splitlinesFrom]
  | case2 line hline => simp [splitlinesFrom, hline]
  | case3 line cs ih =>
    rw [splitlinesFrom, List.length_cons, lineBreaks_cons, lineBreaks_cons]
    have hbreak : isLineBreak '\r' = true := by decide
    rw [if_pos hbreak]
    omega
  | case4 line c cs hcr hbreak ih =>
    rw [splitlinesFrom, if_pos hbreak, List.length_cons, lineBreaks_cons, if_pos hbreak]
    · omega
    · exact hcr
  | case5 line c cs hcr hbreak ih =>
    rw [splitlinesFrom, if_neg hbreak, lineBreaks_cons, if_neg hbreak]
    · exact ih
    · exact hcr

theorem splitlinesFrom_unbroken (line s : Text) (hline : Unbroken line) :
    ∀ l ∈ splitlinesFrom line s, Unbroken l := by
  have hnil : Unbroken [] := by simp [Unbroken]
  induction line, s using splitlinesFrom.induct with
  | case1 => simp [splitlinesFrom]
  | case2 line hne => simpa [splitlinesFrom, hne] using hline
  | case3 line cs ih =>
    rw [splitlinesFrom]
    exact List.forall_mem_cons.mpr ⟨hline, ih hnil⟩
  | case4 line c cs hcr hbreak ih =>
    rw [splitlinesFrom, if_pos hbreak]
    · exact List.forall_mem_cons.mpr ⟨hline, ih hnil⟩
    · exact hcr
  | case5 line c cs hcr hbreak ih =>
    rw [splitlinesFrom, if_neg hbreak]
    · refine ih ?_
      intro a ha
      rcases List.mem_append.mp ha with ha | ha
      · exact hline a ha
      · rw [List.mem_singleton.mp ha]
        simpa using hbreak
    · exact hcr

theorem joinLines_breaks (h : ∀ l ∈ lines, Unbroken l) :
    lineBreaks (joinLines lines) ≤ lines.length - 1 := by
  induction lines with
  | nil => exact Nat.le_refl _
  | cons line lines ih =>
    obtain ⟨hline, hlines⟩ := List.forall_mem_cons.mp h
    cases lines with
    | nil =>
      rw [joinLines, lineBreaks_unbroken hline]
      exact Nat.zero_le _
    | cons next lines =>
      have hrest := ih hlines
      have hsplit : lineBreaks (joinLines (line :: next :: lines)) =
          lineBreaks line + lineBreaks ('\n' :: joinLines (next :: lines)) := List.countP_append
      have hbreak : isLineBreak '\n' = true := by decide
      rw [hsplit, lineBreaks_unbroken hline, lineBreaks_cons, if_pos hbreak]
      simp only [List.length_cons] at hrest ⊢
      omega

end EthereumLogs.Python
