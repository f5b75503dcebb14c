import Mathlib.Data.List.Infix
import Mathlib.Tactic.Common

namespace Mask

variable {α : Type}

-- find gives, for the text from a position on, how many elements of a match are kept before the
-- stars and how many are replaced by them; keep and drop count what is left of the last match
def scan (stars : List α) (find : List α → Option (ℕ × ℕ)) : ℕ → ℕ → List α → List α
  | _, _, [] => []
  | keep + 1, drop, c :: cs =>
    if keep = 0 then c :: (stars ++ scan stars find 0 drop cs) else c :: scan stars find keep drop cs
  | 0, drop + 1, _ :: cs => scan stars find 0 drop cs
  | 0, 0, c :: cs =>
    match find (c :: cs) with
    | none => c :: scan stars find 0 0 cs
    | some (0, drop) => stars ++ scan stars find 0 (drop - 1) cs
    | some (keep + 1, drop) =>
      if keep = 0 then c :: (stars ++ scan stars find 0 drop cs) else c :: scan stars find keep drop cs

-- inside says that the stars for the elements that come next are already written
inductive Masked (stars : List α) : Bool → List α → List α → Prop
  | nil (inside : Bool) : Masked stars inside [] []
  | keep (inside : Bool) (c : α) {cs out : List α} (h : Masked stars false cs out) :
      Masked stars inside (c :: cs) (c :: out)
  | stars (inside : Bool) {cs out : List α} (h : Masked stars true cs out) :
      Masked stars inside cs (stars ++ out)
  | drop (c : α) {cs out : List α} (h : Masked stars true cs out) : Masked stars true (c :: cs) out

variable {stars cs out w text : List α} {inside : Bool} {find : List α → Option (ℕ × ℕ)}

theorem Masked.weaken (h : Masked stars false cs out) : Masked stars true cs out := by
  cases h with
  | nil => exact .nil true
  | keep _ c h => exact .keep true c h
  | stars _ h => exact .stars true h

theorem scan_masked (stars : List α) (find : List α → Option (ℕ × ℕ)) (text : List α) :
    (∀ keep drop, Masked stars true text (scan stars find keep drop text)) ∧
      ∀ keep drop, keep ≠ 0 ∨ drop = 0 → Masked stars false text (scan stars find keep drop text) := by
  induction text with
  | nil =>
    constructor
    · intro keep drop
      cases keep <;> cases drop <;> exact .nil true
    · intro keep drop _
      cases keep <;> cases drop <;> exact .nil false
  | cons c cs ih =>
    obtain ⟨ihInside, ihOutside⟩ := ih
    have hkeep (keep drop : ℕ) : Masked stars false (c :: cs)
        (if keep = 0 then c :: (stars ++ scan stars find 0 drop cs)
          else c :: scan stars find keep drop cs) := by
      split_ifs with hzero
      · exact .keep false c (.stars false (ihInside 0 drop))
      · exact .keep false c (ihOutside keep drop (.inl hzero))
    have hstart : Masked stars false (c :: cs) (scan stars find 0 0 (c :: cs)) := by
      rw [scan]
      split
      · exact .keep false c (ihOutside 0 0 (.inr rfl))
      · exact .stars false (.drop c (ihInside 0 _))
      · exact hkeep _ _
    constructor
    · intro keep drop
      cases keep with
      | succ keep =>
        rw [scan]
        exact (hkeep keep drop).weaken
      | zero =>
        cases drop with
        | succ drop =>
          rw [scan]
          exact .drop c (ihInside 0 drop)
        | zero => exact hstart.weaken
    · intro keep drop h
      cases keep with
      | succ keep =>
        rw [scan]
        exact hkeep keep drop
      | zero =>
        obtain rfl : drop = 0 := by simpa using h
        exact hstart

theorem nil_of_stars (hne : stars ≠ []) (hw : ∀ a ∈ w, a ∉ stars) (h : w <+: stars ++ out) :
    w = [] := by
  cases w with
  | nil => rfl
  | cons a w =>
    cases stars with
    | nil => exact absurd rfl hne
    | cons b stars =>
      rw [List.cons_append, List.cons_prefix_cons] at h
      exact absurd (by simp [h.1]) (hw a (by simp))

theorem infix_of_stars (hw : ∀ a ∈ w, a ∉ stars) (h : w <:+: stars ++ out) : w <:+: out := by
  induction stars with
  | nil => exact h
  | cons b stars ih =>
    rw [List.cons_append, List.infix_cons_iff] at h
    rcases h with h | h
    · rw [← List.cons_append] at h
      rw [nil_of_stars (List.cons_ne_nil b stars) hw h]
      exact List.nil_infix
    · exact ih (fun a ha hmem => hw a ha (List.mem_cons_of_mem b hmem)) h

theorem Masked.starts (h : Masked stars inside text out) (hne : stars ≠ [])
    (hw : ∀ a ∈ w, a ∉ stars) (hout : w <+: out) :
    w <:+: text ∧ (inside = false → w <+: text) := by
  induction h generalizing w with
  | nil => exact ⟨hout.isInfix, fun _ => hout⟩
  | @keep _ c cs out _ ih =>
    have hstarts : w <+: c :: cs := by
      cases w with
      | nil => exact List.nil_prefix
      | cons a w =>
        obtain ⟨rfl, hrest⟩ := List.cons_prefix_cons.mp hout
        have hrest' := (ih (fun b hb => hw b (by simp [hb])) hrest).2 rfl
        exact List.cons_prefix_cons.mpr ⟨rfl, hrest'⟩
    exact ⟨hstarts.isInfix, fun _ => hstarts⟩
  | stars _ _ _ =>
    rw [nil_of_stars hne hw hout]
    exact ⟨List.nil_infix, fun _ => List.nil_prefix⟩
  | drop c _ ih => exact ⟨(ih hw hout).1.trans (List.infix_cons List.infix_rfl), by simp⟩

theorem Masked.infix_of (h : Masked stars inside text out) (hne : stars ≠ [])
    (hw : ∀ a ∈ w, a ∉ stars) (hout : w <:+: out) : w <:+: text := by
  induction h with
  | nil => exact hout
  | @keep inside c cs out h ih =>
    rcases List.infix_cons_iff.mp hout with hstarts | hrest
    · exact ((Masked.keep inside c h).starts hne hw hstarts).1
    · exact (ih hrest).trans (List.infix_cons List.infix_rfl)
  | stars _ _ ih => exact ih (infix_of_stars hw hout)
  | drop c _ ih => exact (ih hout).trans (List.infix_cons List.infix_rfl)

theorem Masked.countP_le (h : Masked stars inside text out) (p : α → Bool)
    (hstars : ∀ a ∈ stars, p a = false) : out.countP p ≤ text.countP p := by
  induction h with
  | nil => exact le_rfl
  | keep _ c _ ih =>
    rw [List.countP_cons, List.countP_cons]
    omega
  | @stars _ cs out _ ih =>
    have hzero : stars.countP p = 0 := List.countP_eq_zero.mpr (by simpa using hstars)
    rw [List.countP_append, hzero]
    omega
  | drop c _ ih =>
    rw [List.countP_cons]
    omega

variable [BEq α] [LawfulBEq α] {old : List α}

def findText (old : List α) (rest : List α) : Option (ℕ × ℕ) :=
  if old.isPrefixOf rest then some (0, old.length) else none

def replaceAll (old stars text : List α) : List α := scan stars (findText old) 0 0 text

theorem scan_removes (hold : old ≠ []) (hne : stars ≠ []) (hw : ∀ a ∈ old, a ∉ stars)
    (text : List α) (drop : ℕ) : ¬ old <:+: scan stars (findText old) 0 drop text := by
  induction text generalizing drop with
  | nil =>
    cases drop <;> simpa [scan] using hold
  | cons c cs ih =>
    cases drop with
    | succ drop =>
      rw [scan]
      exact ih drop
    | zero =>
      have hmasked := (scan_masked stars (findText old) (c :: cs)).2 0 0 (.inr rfl)
      rw [scan, findText] at hmasked ⊢
      by_cases hstarts : old.isPrefixOf (c :: cs) = true
      · rw [if_pos hstarts]
        intro h
        exact ih _ (infix_of_stars hw h)
      · rw [if_neg hstarts] at hmasked ⊢
        intro h
        rcases List.infix_cons_iff.mp h with hhead | hrest
        · have hfound := (hmasked.starts hne hw hhead).2 rfl
          exact hstarts (List.isPrefixOf_iff_prefix.mpr hfound)
        · exact ih 0 hrest

end Mask
