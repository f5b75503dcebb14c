import Mathlib.Data.List.Basic
import Mathlib.Tactic.Common

namespace PrefixCode

variable {α β : Type} {Follows : List β → Prop} {code : α → List β} {sep stop : β}

def Readable (Follows : List β → Prop) (code : α → List β) : Prop :=
  ∀ ⦃a b s t⦄, Follows s → Follows t → code a ++ s = code b ++ t → a = b ∧ s = t

def Anything (_ : List β) : Prop := True

theorem Readable.of_reader {read : List β → Option (α × List β)}
    (h : ∀ a s, Follows s → read (code a ++ s) = some (a, s)) : Readable Follows code := by
  intro a b s t hs ht heq
  have ha := h a s hs
  rw [heq, h b t ht] at ha
  simpa [eq_comm] using ha

def terminated (code : α → List β) (stop : β) (xs : List α) : List β := xs.flatMap code ++ [stop]

theorem Readable.terminated (h : Readable Anything code)
    (hstop : ∀ a, ∃ b s, code a = b :: s ∧ b ≠ stop) : Readable Anything (terminated code stop) := by
  intro xs ys s t _ _ heq
  simp only [PrefixCode.terminated, List.append_assoc, List.singleton_append] at heq
  induction xs generalizing ys with
  | nil =>
    cases ys with
    | nil => exact ⟨rfl, (List.cons.inj heq).2⟩
    | cons y ys =>
      obtain ⟨b, rest, hcode, hne⟩ := hstop y
      rw [List.flatMap_cons, hcode] at heq
      exact absurd (List.cons.inj heq).1.symm hne
  | cons x xs ih =>
    cases ys with
    | nil =>
      obtain ⟨b, rest, hcode, hne⟩ := hstop x
      rw [List.flatMap_cons, hcode] at heq
      exact absurd (List.cons.inj heq).1 hne
    | cons y ys =>
      rw [List.flatMap_cons, List.flatMap_cons, List.append_assoc, List.append_assoc] at heq
      obtain ⟨rfl, hrest⟩ := h trivial trivial heq
      obtain ⟨rfl, hst⟩ := ih hrest
      exact ⟨rfl, hst⟩

def joined (code : α → List β) (sep : β) : List α → List β
  | [] => []
  | x :: xs => code x ++ xs.flatMap fun y => sep :: code y

def StartsWith (stop : β) (s : List β) : Prop := ∃ t, s = stop :: t

theorem tail_readable (h : Readable Anything code) (hne : sep ≠ stop) :
    Readable (StartsWith stop) fun xs : List α => xs.flatMap fun y => sep :: code y := by
  rintro xs ys _ _ ⟨s, rfl⟩ ⟨t, rfl⟩ heq
  induction xs generalizing ys with
  | nil =>
    cases ys with
    | nil => exact ⟨rfl, heq⟩
    | cons y ys => exact absurd (List.cons.inj heq).1.symm hne
  | cons x xs ih =>
    cases ys with
    | nil => exact absurd (List.cons.inj heq).1 hne
    | cons y ys =>
      simp only [List.flatMap_cons, List.cons_append, List.append_assoc, List.cons.injEq,
        true_and] at heq
      obtain ⟨rfl, hrest⟩ := h trivial trivial heq
      obtain ⟨rfl, hst⟩ := ih hrest
      exact ⟨rfl, hst⟩

theorem Readable.joined (h : Readable Anything code) (hne : sep ≠ stop)
    (hstop : ∀ a, ∃ b s, code a = b :: s ∧ b ≠ stop) :
    Readable (StartsWith stop) (joined code sep) := by
  intro xs ys s t hs ht heq
  cases xs with
  | nil =>
    cases ys with
    | nil => exact ⟨rfl, heq⟩
    | cons y ys =>
      obtain ⟨b, rest, hcode, hb⟩ := hstop y
      obtain ⟨s, rfl⟩ := hs
      simp only [PrefixCode.joined, hcode, List.cons_append, List.nil_append, List.cons.injEq] at heq
      exact absurd heq.1.symm hb
  | cons x xs =>
    cases ys with
    | nil =>
      obtain ⟨b, rest, hcode, hb⟩ := hstop x
      obtain ⟨t, rfl⟩ := ht
      simp only [PrefixCode.joined, hcode, List.cons_append, List.nil_append, List.cons.injEq] at heq
      exact absurd heq.1 hb
    | cons y ys =>
      simp only [PrefixCode.joined, List.append_assoc] at heq
      obtain ⟨rfl, hrest⟩ := h trivial trivial heq
      obtain ⟨rfl, hst⟩ := tail_readable h hne hs ht hrest
      exact ⟨rfl, hst⟩

end PrefixCode
