import Mathlib.Tactic.Common

namespace EthereumLogs.Validation

variable {ε α β : Type} {E : ε → Prop} {P Q : α → Prop} {x : Except ε α}

def Meets (E : ε → Prop) (Q : α → Prop) : Except ε α → Prop
  | .ok a => Q a
  | .error e => E e

structure Reads (E : ε → Prop) (P : α → Prop) (x : Except ε α) : Prop where
  ok : ∀ a, x = .ok a ↔ P a
  error : ∀ e, x = .error e → E e

theorem meets_ok {a : α} : Meets E Q (.ok a) ↔ Q a := Iff.rfl

theorem meets_error {e : ε} : Meets E Q (.error e) ↔ E e := Iff.rfl

theorem meets_bind {Q : β → Prop} {f : α → Except ε β} :
    Meets E Q (x >>= f) ↔ Meets E (fun a => Meets E Q (f a)) x := by
  cases x with
  | ok a => exact Iff.rfl
  | error e => exact Iff.rfl

theorem meets_guard {bad : Prop} [Decidable bad] {e : ε} (he : E e) :
    Meets E Q (if bad then .error e else x) ↔ (¬ bad → Meets E Q x) := by
  by_cases hbad : bad
  · rw [if_pos hbad]
    exact ⟨fun _ h => absurd hbad h, fun _ => he⟩
  · rw [if_neg hbad]
    exact ⟨fun h _ => h, fun h => h hbad⟩

theorem Reads.pure (a : α) : Reads E (· = a) (.ok a) :=
  ⟨fun b => ⟨fun h => (Except.ok.inj h).symm, fun h => congrArg Except.ok h.symm⟩, fun _ h => by cases h⟩

theorem Reads.imp_iff (h : Reads E P x) (hPQ : ∀ a, P a ↔ Q a) : Reads E Q x :=
  ⟨fun a => (h.ok a).trans (hPQ a), h.error⟩

theorem Reads.throw {e : ε} (he : E e) : Reads E (fun _ => False) (.error e : Except ε α) := by
  refine ⟨fun a => ⟨?_, False.elim⟩, ?_⟩
  · intro h
    cases h
  · intro e' he'
    cases he'
    exact he

theorem Reads.guard {bad : Prop} [Decidable bad] {e : ε} (he : E e) (h : ¬ bad → Reads E P x) :
    Reads E (fun a => ¬ bad ∧ P a) (if bad then .error e else x) := by
  by_cases hbad : bad
  · rw [if_pos hbad]
    exact (Reads.throw he).imp_iff fun a => ⟨False.elim, fun h => h.1 hbad⟩
  · rw [if_neg hbad]
    exact (h hbad).imp_iff fun a => ⟨fun hP => ⟨hbad, hP⟩, And.right⟩

theorem Reads.bind {P : α → β → Prop} {A : α → Prop} {f : α → Except ε β} (h : Reads E A x)
    (hf : ∀ a, A a → Reads E (P a) (f a)) : Reads E (fun b => ∃ a, A a ∧ P a b) (x >>= f) := by
  cases hx : x with
  | ok a =>
    have honly : ∀ b, A b ↔ b = a := by
      intro b
      rw [← h.ok, hx]
      exact ⟨fun h => (Except.ok.inj h).symm, fun h => congrArg Except.ok h.symm⟩
    have ha : A a := (honly a).mpr rfl
    refine (hf a ha).imp_iff fun b => ⟨fun hP => ⟨a, ha, hP⟩, ?_⟩
    rintro ⟨a', ha', hP⟩
    exact (honly a').mp ha' ▸ hP
  | error e =>
    refine (Reads.throw (h.error e hx)).imp_iff fun b => ⟨False.elim, ?_⟩
    rintro ⟨a, ha, -⟩
    rw [← h.ok, hx] at ha
    cases ha

theorem Reads.meets (h : Reads E P x) : Meets E Q x ↔ ∀ a, P a → Q a := by
  cases hx : x with
  | ok a =>
    refine ⟨fun hQ b hb => ?_, fun hQ => hQ a ((h.ok a).mp hx)⟩
    rw [(h.ok b).mpr hb] at hx
    cases hx
    exact hQ
  | error e =>
    refine ⟨fun _ b hb => ?_, fun _ => h.error e hx⟩
    rw [(h.ok b).mpr hb] at hx
    cases hx

theorem Reads.meets_bind {Q : β → Prop} {f : α → Except ε β} (h : Reads E P x) :
    Meets E Q (x >>= f) ↔ ∀ a, P a → Meets E Q (f a) := Validation.meets_bind.trans h.meets

end EthereumLogs.Validation
