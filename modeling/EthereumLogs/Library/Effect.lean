import Mathlib.Data.List.Induction
import Mathlib.Tactic.Common

namespace Effect

def Eff (σ ε α : Type) : Type := σ → Except ε α × σ

theorem except_bind_ok {ε α β : Type} {x : Except ε α} {f : α → Except ε β} {b : β}
    (h : (x >>= f) = .ok b) : ∃ a, x = .ok a ∧ f a = .ok b := by
  cases x with
  | error e => cases h
  | ok a => exact ⟨a, rfl, h⟩

theorem except_map_ok {ε α β : Type} {x : Except ε α} {f : α → β} {b : β} (h : x.map f = .ok b) :
    ∃ a, x = .ok a ∧ f a = b := by
  cases x with
  | error e => cases h
  | ok a =>
    cases h
    exact ⟨a, rfl, rfl⟩

namespace Eff

variable {σ τ ε α β : Type}

def ret (a : α) : Eff σ ε α := fun s => (.ok a, s)

def seq (m : Eff σ ε α) (f : α → Eff σ ε β) : Eff σ ε β := fun s =>
  match m s with
  | (.ok a, t) => f a t
  | (.error e, t) => (.error e, t)

def fail (e : ε) : Eff σ ε α := fun s => (.error e, s)

def handle (m : Eff σ ε α) (h : ε → Eff σ ε α) : Eff σ ε α := fun s =>
  match m s with
  | (.ok a, t) => (.ok a, t)
  | (.error e, t) => h e t

instance : Monad (Eff σ ε) where
  pure := ret
  bind := seq

instance : MonadExceptOf ε (Eff σ ε) where
  throw := fail
  tryCatch := handle

def ofExcept (x : Except ε α) : Eff σ ε α := fun s => (x, s)

def get : Eff σ ε σ := fun s => (.ok s, s)

def modify (f : σ → σ) : Eff σ ε Unit := fun s => (.ok (), f s)

def zoom (view : τ → σ) (update : τ → σ → τ) (m : Eff σ ε α) : Eff τ ε α := fun t =>
  ((m (view t)).1, update t (m (view t)).2)

def attempt (m : Eff σ ε α) : Eff σ ε (Except ε α) := fun s => (.ok (m s).1, (m s).2)

def wp (m : Eff σ ε α) (s : σ) (Q : Except ε α → σ → Prop) : Prop := Q (m s).1 (m s).2

theorem wp_iff (m : Eff σ ε α) (s : σ) (Q : Except ε α → σ → Prop) :
    wp m s Q ↔ Q (m s).1 (m s).2 := Iff.rfl

theorem wp_mono {m : Eff σ ε α} {s : σ} {Q R : Except ε α → σ → Prop}
    (h : wp m s Q) (hQR : ∀ r t, Q r t → R r t) : wp m s R := hQR _ _ h

theorem wp_and {m : Eff σ ε α} {s : σ} {Q R : Except ε α → σ → Prop} (hQ : wp m s Q)
    (hR : wp m s R) : wp m s fun r t => Q r t ∧ R r t := ⟨hQ, hR⟩

@[simp] theorem wp_pure (a : α) (s : σ) (Q : Except ε α → σ → Prop) :
    wp (pure a) s Q ↔ Q (.ok a) s := Iff.rfl

@[simp] theorem wp_throw (e : ε) (s : σ) (Q : Except ε α → σ → Prop) :
    wp (throw e : Eff σ ε α) s Q ↔ Q (.error e) s := Iff.rfl

@[simp] theorem wp_ofExcept (x : Except ε α) (s : σ) (Q : Except ε α → σ → Prop) :
    wp (ofExcept x) s Q ↔ Q x s := Iff.rfl

@[simp] theorem wp_get (s : σ) (Q : Except ε σ → σ → Prop) :
    wp (get : Eff σ ε σ) s Q ↔ Q (.ok s) s := Iff.rfl

@[simp] theorem wp_modify (f : σ → σ) (s : σ) (Q : Except ε Unit → σ → Prop) :
    wp (modify f : Eff σ ε Unit) s Q ↔ Q (.ok ()) (f s) := Iff.rfl

@[simp] theorem wp_zoom (view : τ → σ) (update : τ → σ → τ) (m : Eff σ ε α) (t : τ)
    (Q : Except ε α → τ → Prop) :
    wp (zoom view update m) t Q ↔ wp m (view t) (fun r s => Q r (update t s)) := Iff.rfl

@[simp] theorem wp_attempt (m : Eff σ ε α) (s : σ) (Q : Except ε (Except ε α) → σ → Prop) :
    wp (attempt m) s Q ↔ wp m s (fun r t => Q (.ok r) t) := Iff.rfl

theorem wp_bind (m : Eff σ ε α) (f : α → Eff σ ε β) (s : σ) (Q : Except ε β → σ → Prop) :
    wp (m >>= f) s Q ↔ wp m s (fun r t =>
      match r with
      | .ok a => wp (f a) t Q
      | .error e => Q (.error e) t) := by
  change wp (seq m f) s Q ↔ _
  simp only [wp, seq]
  rcases m s with ⟨a | e, t⟩ <;> rfl

theorem wp_tryCatch (m : Eff σ ε α) (h : ε → Eff σ ε α) (s : σ) (Q : Except ε α → σ → Prop) :
    wp (tryCatch m h) s Q ↔ wp m s (fun r t =>
      match r with
      | .ok a => Q (.ok a) t
      | .error e => wp (h e) t Q) := by
  change wp (handle m h) s Q ↔ _
  simp only [wp, handle]
  rcases m s with ⟨a | e, t⟩ <;> rfl

theorem wp_seq {m : Eff σ ε α} {f : α → Eff σ ε β} {s : σ}
    {R : Except ε α → σ → Prop} {Q : Except ε β → σ → Prop} (hm : wp m s R)
    (hok : ∀ a t, R (.ok a) t → wp (f a) t Q)
    (herr : ∀ e t, R (.error e) t → Q (.error e) t) : wp (m >>= f) s Q := by
  rw [wp_bind]
  refine wp_mono hm ?_
  rintro (e | a) t h
  · exact herr e t h
  · exact hok a t h

theorem wp_map_state {m : Eff σ ε α} {f : α → β} {s : σ} {Q : σ → Prop}
    (hm : wp m s fun _ t => Q t) : wp (do let a ← m; pure (f a)) s fun _ t => Q t := by
  refine wp_seq hm ?_ ?_
  · intro a t h
    exact h
  · intro e t h
    exact h

theorem wp_attempt_seq {m : Eff σ ε α} {f : Except ε α → Eff σ ε β} {s : σ}
    {R : Except ε α → σ → Prop} {Q : Except ε β → σ → Prop} (hm : wp m s R)
    (h : ∀ r t, R r t → wp (f r) t Q) : wp (attempt m >>= f) s Q := by
  rw [wp_bind, wp_attempt]
  exact wp_mono hm h

theorem wp_catch {m : Eff σ ε α} {h : ε → Eff σ ε α} {s : σ}
    {R Q : Except ε α → σ → Prop} (hm : wp m s R)
    (hok : ∀ a t, R (.ok a) t → Q (.ok a) t)
    (herr : ∀ e t, R (.error e) t → wp (h e) t Q) : wp (tryCatch m h) s Q := by
  rw [wp_tryCatch]
  refine wp_mono hm ?_
  rintro (e | a) t hr
  · exact herr e t hr
  · exact hok a t hr

def Ends (P : α → Prop) (E : ε → Prop) (r : Except ε α) (_ : σ) : Prop :=
  match r with
  | .ok a => P a
  | .error e => E e

theorem ends_iff {P : α → Prop} {E : ε → Prop} {r : Except ε α} {t : σ} :
    Ends P E r t ↔ (∀ a, r = .ok a → P a) ∧ ∀ e, r = .error e → E e := by
  cases r with
  | ok a => simp [Ends]
  | error e => simp [Ends]

theorem wp_ends_bind {m : Eff σ ε α} {f : α → Eff σ ε β} {s : σ} {P : α → Prop} {Q : β → Prop}
    {E : ε → Prop} (hm : wp m s (Ends P E)) (hf : ∀ a t, P a → wp (f a) t (Ends Q E)) :
    wp (m >>= f) s (Ends Q E) := by
  apply wp_seq hm
  · intro a t h
    exact hf a t h
  · intro e t h
    exact h

theorem bind_ok {m : Eff σ ε α} {f : α → Eff σ ε β} {s : σ} {b : β}
    (h : ((m >>= f) s).1 = .ok b) : ∃ a t, m s = (.ok a, t) ∧ (f a t).1 = .ok b := by
  change (seq m f s).1 = .ok b at h
  unfold seq at h
  rcases hm : m s with ⟨e | a, t⟩
  · simp [hm] at h
  · exact ⟨a, t, rfl, by simpa [hm] using h⟩

theorem bind_ok_run {m : Eff σ ε α} {f : α → Eff σ ε β} {s : σ} {b : β}
    (h : ((m >>= f) s).1 = .ok b) :
    ∃ a t, m s = (.ok a, t) ∧ (m >>= f) s = f a t ∧ (f a t).1 = .ok b := by
  obtain ⟨a, t, hm, hf⟩ := bind_ok h
  refine ⟨a, t, hm, ?_, hf⟩
  change seq m f s = _
  simp [seq, hm]

theorem bind_eq_ok {m : Eff σ ε α} {f : α → Eff σ ε β} {s u : σ} {b : β}
    (h : (m >>= f) s = (.ok b, u)) : ∃ a t, m s = (.ok a, t) ∧ f a t = (.ok b, u) := by
  obtain ⟨a, t, hm, hrun, -⟩ := bind_ok_run (congrArg Prod.fst h)
  exact ⟨a, t, hm, hrun ▸ h⟩

@[simp] theorem ofExcept_ok_bind (a : α) (f : α → Eff σ ε β) : (ofExcept (.ok a) >>= f) = f a :=
  rfl

@[simp] theorem get_bind (f : σ → Eff σ ε β) (s : σ) : (get >>= f) s = f s s := rfl

theorem ofExcept_bind_ok {x : Except ε α} {f : α → Eff σ ε β} {s : σ} {b : β}
    (h : ((ofExcept x >>= f) s).1 = .ok b) : ∃ a, x = .ok a ∧ (f a s).1 = .ok b := by
  obtain ⟨a, t, hx, hf⟩ := bind_ok h
  simp only [ofExcept, Prod.mk.injEq] at hx
  obtain ⟨hx, rfl⟩ := hx
  exact ⟨a, hx, hf⟩

theorem bind_of_ok {m : Eff σ ε α} {s t : σ} {a : α} (h : m s = (.ok a, t))
    (f : α → Eff σ ε β) : (m >>= f) s = f a t := by
  change seq m f s = _
  simp [seq, h]

theorem bind_of_error {m : Eff σ ε α} {s t : σ} {e : ε} (h : m s = (.error e, t))
    (f : α → Eff σ ε β) : (m >>= f) s = (.error e, t) := by
  change seq m f s = _
  simp [seq, h]

theorem tryCatch_of_ok {m : Eff σ ε α} {s t : σ} {a : α} (h : m s = (.ok a, t))
    (f : ε → Eff σ ε α) : tryCatch m f s = (.ok a, t) := by
  change handle m f s = _
  simp [handle, h]

theorem tryCatch_of_error {m : Eff σ ε α} {s t : σ} {e : ε} (h : m s = (.error e, t))
    (f : ε → Eff σ ε α) : tryCatch m f s = f e t := by
  change handle m f s = _
  simp [handle, h]

end Eff

abbrev Trace (κ ε α : Type) := List (κ × Except ε α)

variable {σ ε α κ : Type}

def record (q : κ) (m : Eff σ ε α) : Eff (σ × Trace κ ε α) ε α := fun s =>
  ((m s.1).1, (m s.1).2, s.2 ++ [(q, (m s.1).1)])

theorem wp_record (q : κ) (m : Eff σ ε α) (s : σ × Trace κ ε α)
    (Q : Except ε α → σ × Trace κ ε α → Prop) :
    Eff.wp (record q m) s Q ↔ Eff.wp m s.1 (fun r t => Q r (t, s.2 ++ [(q, r)])) := Iff.rfl

def within (up : σ → Prop) (m : Eff σ ε α) (h : ∀ s, up s → up (m s).2) : Eff {s // up s} ε α :=
  fun s => ((m s.1).1, ⟨(m s.1).2, h s.1 s.2⟩)

section Simulates

variable {τ β : Type} {R : σ → τ → Prop}

def Simulates (R : σ → τ → Prop) (m : Eff σ ε α) (m' : Eff τ ε α) : Prop :=
  ∀ s t, R s t → (m s).1 = (m' t).1 ∧ R (m s).2 (m' t).2

theorem simulates_record (q : κ) (m : Eff σ ε α) :
    Simulates (fun s (t : σ × Trace κ ε α) => s = t.1) m (record q m) := by
  rintro s t rfl
  exact ⟨rfl, rfl⟩

theorem simulates_within {up : σ → Prop} {m : Eff σ ε α} (h : ∀ s, up s → up (m s).2) :
    Simulates (fun (s : {s // up s}) t => s.1 = t) (within up m h) m := by
  rintro s t rfl
  exact ⟨rfl, rfl⟩

theorem simulates_refl (m : Eff σ ε α) : Simulates Eq m m := by
  rintro s t rfl
  exact ⟨rfl, rfl⟩

theorem simulates_pure (a : α) : Simulates R (pure a : Eff σ ε α) (pure a) :=
  fun _ _ h => ⟨rfl, h⟩

theorem simulates_throw (e : ε) : Simulates R (throw e : Eff σ ε α) (throw e) :=
  fun _ _ h => ⟨rfl, h⟩

theorem simulates_ofExcept (x : Except ε α) :
    Simulates R (Eff.ofExcept x : Eff σ ε α) (Eff.ofExcept x) := fun _ _ h => ⟨rfl, h⟩

theorem simulates_modify {f : σ → σ} {g : τ → τ} (h : ∀ s t, R s t → R (f s) (g t)) :
    Simulates R (Eff.modify f : Eff σ ε Unit) (Eff.modify g) := fun s t hR => ⟨rfl, h s t hR⟩

theorem Simulates.bind {m : Eff σ ε α} {m' : Eff τ ε α} {f : α → Eff σ ε β} {f' : α → Eff τ ε β}
    (hm : Simulates R m m') (hf : ∀ a, Simulates R (f a) (f' a)) :
    Simulates R (m >>= f) (m' >>= f') := by
  intro s t hR
  obtain ⟨hr, hnext⟩ := hm s t hR
  rcases hs : m s with ⟨r, s'⟩
  rcases ht : m' t with ⟨r', t'⟩
  rw [hs, ht] at hr hnext
  cases hr
  cases r with
  | error e =>
    rw [Eff.bind_of_error hs, Eff.bind_of_error ht]
    exact ⟨rfl, hnext⟩
  | ok a =>
    rw [Eff.bind_of_ok hs, Eff.bind_of_ok ht]
    exact hf a s' t' hnext

theorem Simulates.get_bind {f : σ → Eff σ ε β} {f' : τ → Eff τ ε β}
    (hf : ∀ s t, R s t → (f s s).1 = (f' t t).1 ∧ R (f s s).2 (f' t t).2) :
    Simulates R (Eff.get >>= f) (Eff.get >>= f') := hf

theorem Simulates.tryCatch {m : Eff σ ε α} {m' : Eff τ ε α} {h : ε → Eff σ ε α}
    {h' : ε → Eff τ ε α} (hm : Simulates R m m') (hh : ∀ e, Simulates R (h e) (h' e)) :
    Simulates R (tryCatch m h) (tryCatch m' h') := by
  intro s t hR
  change (Eff.handle m h s).1 = (Eff.handle m' h' t).1 ∧ R (Eff.handle m h s).2 (Eff.handle m' h' t).2
  obtain ⟨hr, hnext⟩ := hm s t hR
  unfold Eff.handle
  rcases hs : m s with ⟨r, s'⟩
  rcases ht : m' t with ⟨r', t'⟩
  rw [hs, ht] at hr hnext
  cases hr
  cases r with
  | error e => exact hh e s' t' hnext
  | ok a => exact ⟨rfl, hnext⟩

theorem Simulates.attempt {m : Eff σ ε α} {m' : Eff τ ε α} (hm : Simulates R m m') :
    Simulates R (Eff.attempt m) (Eff.attempt m') := by
  intro s t hR
  obtain ⟨hr, hnext⟩ := hm s t hR
  exact ⟨congrArg Except.ok hr, hnext⟩

theorem Simulates.zoom {σ' τ' : Type} {R' : σ' → τ' → Prop} {m : Eff σ ε α} {m' : Eff τ ε α}
    {get : σ' → σ} {set : σ' → σ → σ'} {get' : τ' → τ} {set' : τ' → τ → τ'}
    (hm : Simulates R m m') (hget : ∀ s t, R' s t → R (get s) (get' t))
    (hset : ∀ s t u v, R' s t → R u v → R' (set s u) (set' t v)) :
    Simulates R' (Eff.zoom get set m) (Eff.zoom get' set' m') := by
  intro s t hR
  obtain ⟨hr, hnext⟩ := hm _ _ (hget s t hR)
  exact ⟨hr, hset s t _ _ hR hnext⟩

end Simulates

def answer : κ × Except ε α → Option (κ × α)
  | (q, .ok a) => some (q, a)
  | (_, .error _) => none

def answers (trace : Trace κ ε α) : List (κ × α) := trace.filterMap answer

@[simp] theorem answers_nil : answers ([] : Trace κ ε α) = [] := rfl

@[simp] theorem answers_append (t u : Trace κ ε α) : answers (t ++ u) = answers t ++ answers u := by
  simp [answers]

@[simp] theorem answers_ok (q : κ) (a : α) (t : Trace κ ε α) :
    answers ((q, .ok a) :: t) = (q, a) :: answers t := rfl

@[simp] theorem answers_error (q : κ) (e : ε) (t : Trace κ ε α) :
    answers ((q, .error e) :: t) = answers t := rfl

theorem mem_answers {q : κ} {a : α} {t : Trace κ ε α} :
    (q, a) ∈ answers t ↔ (q, .ok a) ∈ t := by
  simp only [answers, List.mem_filterMap]
  constructor
  · rintro ⟨⟨p, e | b⟩, hmem, h⟩
    · simp [answer] at h
    · simp only [answer, Option.some.injEq, Prod.mk.injEq] at h
      obtain ⟨rfl, rfl⟩ := h
      exact hmem
  · exact fun hmem => ⟨_, hmem, rfl⟩

def history (ms : List (Eff σ ε α)) (s : σ) : σ := ms.foldl (fun t m => (m t).2) s

@[simp] theorem history_nil (s : σ) : history ([] : List (Eff σ ε α)) s = s := rfl

theorem history_append (ms : List (Eff σ ε α)) (m : Eff σ ε α) (s : σ) :
    history (ms ++ [m]) s = (m (history ms s)).2 := by simp [history]

theorem history_invariant {Inv : σ → Prop} {ms : List (Eff σ ε α)} {s : σ} (h0 : Inv s)
    (hstep : ∀ m ∈ ms, ∀ t, Inv t → Inv (m t).2) : Inv (history ms s) := by
  induction ms using List.reverseRecOn with
  | nil => exact h0
  | append_singleton ms m ih =>
    rw [history_append]
    exact hstep m (by simp) _ (ih (fun m' hm' => hstep m' (by simp [hm'])))

end Effect
