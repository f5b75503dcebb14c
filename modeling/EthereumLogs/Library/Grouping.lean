import Mathlib.Algebra.BigOperators.Group.List.Basic
import Mathlib.Data.List.Dedup
import Mathlib.Tactic.Common

namespace Grouping

variable {α κ : Type} [DecidableEq κ] (key : α → Option κ)

def keysOf (rows : List α) : List κ := (rows.filterMap key).dedup

def group (rows : List α) (k : κ) : List α := rows.filter fun a => key a = some k

def groupBy (rows : List α) : List (κ × List α) :=
  (keysOf key rows).map fun k => (k, group key rows k)

variable {key} {rows rows' : List α} {k : κ} {P : α → Prop} [DecidablePred P]

theorem mem_group {a : α} : a ∈ group key rows k ↔ a ∈ rows ∧ key a = some k := by
  rw [group, List.mem_filter, decide_eq_true_eq]

theorem mem_keysOf : k ∈ keysOf key rows ↔ ∃ a ∈ rows, key a = some k := by
  rw [keysOf, List.mem_dedup, List.mem_filterMap]

theorem group_ne_nil : group key rows k ≠ [] ↔ ∃ a ∈ rows, key a = some k := by
  constructor
  · intro h
    obtain ⟨a, ha⟩ := List.exists_mem_of_ne_nil _ h
    exact ⟨a, mem_group.mp ha⟩
  · rintro ⟨a, ha⟩
    exact List.ne_nil_of_mem (mem_group.mpr ha)

theorem mem_groupBy {as : List α} :
    (k, as) ∈ groupBy key rows ↔ group key rows k ≠ [] ∧ as = group key rows k := by
  rw [groupBy, List.mem_map, group_ne_nil]
  constructor
  · rintro ⟨k', hk', he⟩
    cases he
    exact ⟨mem_keysOf.mp hk', rfl⟩
  · rintro ⟨hk, rfl⟩
    exact ⟨k, mem_keysOf.mpr hk, rfl⟩

omit [DecidableEq κ] in
theorem filter_narrow {Q : α → Prop} [DecidablePred Q] (h : ∀ a ∈ rows, Q a → P a) :
    (rows.filter P).filter Q = rows.filter Q := by
  rw [List.filter_filter]
  apply List.filter_congr
  intro a ha
  by_cases hQ : Q a
  · simp [hQ, h a ha hQ]
  · simp [hQ]

omit [DecidableEq κ] in
theorem filter_congr_within {Q : α → Prop} [DecidablePred Q] (hQ : ∀ a, Q a → P a)
    (h : rows.filter P = rows'.filter P) : rows.filter Q = rows'.filter Q := by
  rw [← filter_narrow (P := P) fun a _ => hQ a, h, filter_narrow fun a _ => hQ a]

theorem perm_groups {ks : List κ} (hnodup : ks.Nodup) (hkeys : ∀ a ∈ rows, ∃ k ∈ ks, key a = some k) :
    rows.Perm (ks.flatMap (group key rows)) := by
  induction ks generalizing rows with
  | nil =>
    cases rows with
    | nil => exact .refl _
    | cons a rows =>
      obtain ⟨k, hk, -⟩ := hkeys a List.mem_cons_self
      cases hk
  | cons k ks ih =>
    obtain ⟨hfresh, hrest⟩ := List.nodup_cons.mp hnodup
    have hothers : ∀ a ∈ rows.filter (fun a => !decide (key a = some k)), ∃ k' ∈ ks, key a = some k' := by
      intro a ha
      obtain ⟨hmem, hother⟩ := List.mem_filter.mp ha
      obtain ⟨k', hk', hkey⟩ := hkeys a hmem
      rcases List.mem_cons.mp hk' with rfl | hlater
      · simp [hkey] at hother
      · exact ⟨k', hlater, hkey⟩
    have hgroups : ∀ k' ∈ ks, group key (rows.filter fun a => !decide (key a = some k)) k' =
        group key rows k' := by
      intro k' hk'
      rw [group, group, List.filter_filter]
      apply List.filter_congr
      intro a _
      by_cases hkey : key a = some k'
      · have hne : k' ≠ k := fun hsame => hfresh (hsame ▸ hk')
        simp [hkey, hne]
      · simp [hkey]
    have hperm := (ih hrest hothers).trans (.of_eq (List.flatMap_congr hgroups))
    rw [List.flatMap_cons]
    exact (List.filter_append_perm (fun a => decide (key a = some k)) rows).symm.trans
      (hperm.append_left _)

section Sums

variable {M : Type} [AddCommMonoid M] {f : κ → α → M} {ks : List κ}

omit [DecidableEq κ] in
theorem sum_filter {g : α → M} :
    ((rows.filter P).map g).sum = (rows.map fun a => if P a then g a else 0).sum := by
  rw [List.sum_map_ite]
  simp

theorem sum_single {a : α} (hnodup : ks.Nodup) (hkeys : ∀ k, key a = some k → k ∈ ks) :
    (ks.map fun k => if key a = some k then f k a else 0).sum = (key a).elim 0 (f · a) := by
  cases hkey : key a with
  | none => simp
  | some k =>
    have hcount : ks.count k = 1 := List.count_eq_one_of_mem hnodup (hkeys k hkey)
    simp only [Option.some.injEq, eq_comm (a := k)]
    rw [← sum_filter, List.filter_eq, hcount]
    simp

theorem sum_group_cons {a : α} :
    ((group key (a :: rows) k).map (f k)).sum =
      (if key a = some k then f k a else 0) + ((group key rows k).map (f k)).sum := by
  by_cases hkey : key a = some k
  · simp [group, hkey]
  · simp [group, hkey]

theorem sum_groups (hnodup : ks.Nodup) (hkeys : ∀ a ∈ rows, ∀ k, key a = some k → k ∈ ks) :
    (ks.map fun k => ((group key rows k).map (f k)).sum).sum =
      (rows.map fun a => (key a).elim 0 (f · a)).sum := by
  induction rows with
  | nil => simp [group]
  | cons a rows ih =>
    have hrest : ∀ b ∈ rows, ∀ k, key b = some k → k ∈ ks :=
      fun b hb => hkeys b (List.mem_cons_of_mem a hb)
    simp only [sum_group_cons]
    rw [List.sum_map_add, ih hrest, sum_single hnodup (hkeys a List.mem_cons_self), List.map_cons,
      List.sum_cons]

theorem sum_groupBy :
    ((groupBy key rows).map fun g => (g.2.map (f g.1)).sum).sum =
      (rows.map fun a => (key a).elim 0 (f · a)).sum := by
  rw [groupBy, List.map_map, ← sum_groups (List.nodup_dedup _)
    (fun a ha k hk => mem_keysOf.mpr ⟨a, ha, hk⟩)]
  rfl

end Sums

end Grouping
