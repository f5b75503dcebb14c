import Mathlib.Data.List.Dedup
import Mathlib.Data.List.Nodup
import Mathlib.Data.List.Perm.Subperm
import Mathlib.Data.List.Forall2
import Mathlib.Data.List.Sort
import Mathlib.Tactic.Common

namespace Keyed

variable {α κ : Type} [DecidableEq κ] (key : α → κ)

def firsts : List κ → List α → List α
  | _, [] => []
  | seen, a :: as => if key a ∈ seen then firsts seen as else a :: firsts (key a :: seen) as

theorem firsts_congr {seen seen' : List κ} (h : ∀ k, k ∈ seen ↔ k ∈ seen') (as : List α) :
    firsts key seen as = firsts key seen' as := by
  induction as generalizing seen seen' with
  | nil => rfl
  | cons a as ih =>
    have hcons : ∀ k, k ∈ key a :: seen ↔ k ∈ key a :: seen' := by simp [h]
    simp only [firsts, h (key a), ih h, ih hcons]

theorem firsts_sublist (seen : List κ) (as : List α) : (firsts key seen as).Sublist as := by
  induction as generalizing seen with
  | nil => exact .slnil
  | cons a as ih =>
    simp only [firsts]
    split
    · exact (ih seen).cons a
    · exact (ih _).cons_cons a

theorem firsts_fresh (seen : List κ) (as : List α) :
    ∀ a ∈ firsts key seen as, key a ∉ seen := by
  induction as generalizing seen with
  | nil => simp [firsts]
  | cons a as ih =>
    simp only [firsts]
    split
    · exact ih seen
    · rename_i hnew
      intro b hb
      rcases List.mem_cons.mp hb with rfl | hb
      · exact hnew
      · exact fun hmem => ih _ b hb (List.mem_cons_of_mem _ hmem)

theorem firsts_nodup (seen : List κ) (as : List α) : ((firsts key seen as).map key).Nodup := by
  induction as generalizing seen with
  | nil => simp [firsts]
  | cons a as ih =>
    simp only [firsts]
    split
    · exact ih seen
    · rw [List.map_cons, List.nodup_cons]
      refine ⟨?_, ih _⟩
      intro hmem
      obtain ⟨b, hb, he⟩ := List.mem_map.mp hmem
      exact firsts_fresh key _ as b hb (by simp [he])

theorem key_mem_firsts (seen : List κ) (as : List α) {a : α} (ha : a ∈ as) :
    key a ∈ seen ∨ key a ∈ (firsts key seen as).map key := by
  induction as generalizing seen with
  | nil => simp at ha
  | cons b as ih =>
    simp only [firsts]
    rcases List.mem_cons.mp ha with rfl | ha
    · split
      · rename_i hseen
        exact .inl hseen
      · exact .inr (by simp)
    · split
      · exact ih seen ha
      · rcases ih (key b :: seen) ha with h | h
        · rcases List.mem_cons.mp h with h | h
          · exact .inr (by simp [h])
          · exact .inl h
        · exact .inr (List.mem_cons_of_mem _ h)

theorem firsts_length (as : List α) : (firsts key [] as).length = (as.map key).dedup.length := by
  have hsame : ((firsts key [] as).map key).Perm (as.map key).dedup := by
    rw [List.perm_ext_iff_of_nodup (firsts_nodup key [] as) (List.nodup_dedup _)]
    intro k
    rw [List.mem_dedup]
    constructor
    · intro hk
      exact ((firsts_sublist key [] as).map key).subset hk
    · intro hk
      obtain ⟨a, ha, rfl⟩ := List.mem_map.mp hk
      exact (key_mem_firsts key [] as ha).resolve_left List.not_mem_nil
  rw [← hsame.length_eq, List.length_map]

theorem firsts_append (seen : List κ) (as bs : List α) :
    firsts key seen (as ++ bs) =
      firsts key seen as ++ firsts key (seen ++ (firsts key seen as).map key) bs := by
  induction as generalizing seen with
  | nil => simp [firsts]
  | cons a as ih =>
    simp only [List.cons_append, firsts]
    split
    · exact ih seen
    · rw [ih, List.cons_append, List.map_cons]
      congr 2
      exact firsts_congr key (by simp [or_left_comm]) bs

theorem filter_firsts (seen old : List κ) (as : List α) :
    (firsts key seen as).filter (fun a => key a ∉ old) = firsts key (old ++ seen) as := by
  induction as generalizing seen with
  | nil => rfl
  | cons a as ih =>
    by_cases hs : key a ∈ seen
    · simp only [firsts, hs, List.mem_append, or_true, if_true]
      exact ih seen
    · have hih := ih (key a :: seen)
      by_cases ho : key a ∈ old
      · have heq : firsts key (old ++ key a :: seen) as = firsts key (old ++ seen) as :=
          firsts_congr key (fun k => by by_cases hk : k = key a <;> simp [hk, ho]) as
        simp only [firsts, hs, ho, List.mem_append, true_or, if_true, if_false]
        rw [List.filter_cons_of_neg (by simp [ho]), hih, heq]
      · have heq : firsts key (old ++ key a :: seen) as = firsts key (key a :: (old ++ seen)) as :=
          firsts_congr key (fun k => by simp [or_left_comm]) as
        simp only [firsts, hs, ho, List.mem_append, or_self, if_false]
        rw [List.filter_cons_of_pos (by simp [ho]), hih, heq]

theorem firsts_eq_nil {seen : List κ} {as : List α} (h : ∀ a ∈ as, key a ∈ seen) :
    firsts key seen as = [] := by
  induction as with
  | nil => rfl
  | cons a as ih =>
    rw [firsts, if_pos (h a (by simp))]
    exact ih (fun b hb => h b (by simp [hb]))

theorem firsts_eq_self {seen : List κ} {as : List α} (hn : (as.map key).Nodup)
    (h : ∀ a ∈ as, key a ∉ seen) : firsts key seen as = as := by
  induction as generalizing seen with
  | nil => rfl
  | cons a as ih =>
    rw [List.map_cons, List.nodup_cons] at hn
    rw [firsts, if_neg (h a (by simp)), ih hn.2]
    intro b hb hmem
    rcases List.mem_cons.mp hmem with he | hmem
    · exact hn.1 (he ▸ List.mem_map_of_mem hb)
    · exact h b (by simp [hb]) hmem

omit [DecidableEq κ] in
theorem eq_of_key_eq {rows : List α} (hn : (rows.map key).Nodup) {a b : α}
    (ha : a ∈ rows) (hb : b ∈ rows) (he : key a = key b) : a = b :=
  List.inj_on_of_nodup_map hn ha hb he

section Convert

variable {ε α β κ : Type} {convert : α → Option β} {key : α → κ} {key' : β → κ}

theorem forall₂_left {R : α → β → Prop} {as : List α} {bs : List β} (h : List.Forall₂ R as bs) {a : α}
    (ha : a ∈ as) : ∃ b ∈ bs, R a b := by
  induction h with
  | nil => cases ha
  | cons hab _ ih =>
    rcases List.mem_cons.mp ha with rfl | ha
    · exact ⟨_, by simp, hab⟩
    · obtain ⟨b, hb, hR⟩ := ih ha
      exact ⟨b, List.mem_cons_of_mem _ hb, hR⟩

theorem forall₂_right {R : α → β → Prop} {as : List α} {bs : List β} (h : List.Forall₂ R as bs)
    {b : β} (hb : b ∈ bs) : ∃ a ∈ as, R a b := forall₂_left h.flip hb

section Distinct

variable {κ' : Type} [DecidableEq κ] [DecidableEq κ']

theorem distinct_mono {ks ks' : List κ} (h : ks ⊆ ks') : ks.dedup.length ≤ ks'.dedup.length := by
  apply ((List.nodup_dedup ks).subperm _).length_le
  intro k hk
  exact List.mem_dedup.mpr (h (List.mem_dedup.mp hk))

theorem distinct_le {R : α → β → Prop} {key : α → κ} {key' : β → κ'} {as : List α} {bs : List β}
    (h : List.Forall₂ R as bs)
    (hkey : ∀ a b a' b', R a b → R a' b' → key a = key a' → key' b = key' b') :
    (bs.map key').dedup.length ≤ (as.map key).dedup.length := by
  induction h with
  | nil => rfl
  | @cons a b as bs hab hrest ih =>
    by_cases hseen : key a ∈ as.map key
    · obtain ⟨a', ha', hsame⟩ := List.mem_map.mp hseen
      obtain ⟨b', hb', hab'⟩ := forall₂_left hrest ha'
      have hseen' : key' b ∈ bs.map key' :=
        List.mem_map.mpr ⟨b', hb', hkey a' b' a b hab' hab hsame⟩
      rw [List.map_cons, List.map_cons, List.dedup_cons_of_mem hseen, List.dedup_cons_of_mem hseen']
      exact ih
    · rw [List.map_cons, List.map_cons, List.dedup_cons_of_notMem hseen, List.length_cons]
      refine le_trans ?_ (Nat.succ_le_succ ih)
      by_cases hseen' : key' b ∈ bs.map key'
      · rw [List.dedup_cons_of_mem hseen']
        exact Nat.le_succ _
      · rw [List.dedup_cons_of_notMem hseen', List.length_cons]

end Distinct

theorem mapM_eq_some_iff {as : List α} {bs : List β} :
    as.mapM convert = some bs ↔ List.Forall₂ (fun a b => convert a = some b) as bs := by
  induction as generalizing bs with
  | nil =>
    simp only [List.mapM_nil, List.forall₂_nil_left_iff]
    exact ⟨fun h => by cases h; rfl, fun h => by rw [h]; rfl⟩
  | cons a as ih =>
    simp only [List.mapM_cons, List.forall₂_cons_left_iff, Option.bind_eq_bind,
      Option.bind_eq_some_iff]
    constructor
    · rintro ⟨b, hb, bs', hbs, he⟩
      cases he
      exact ⟨b, bs', hb, ih.mp hbs, rfl⟩
    · rintro ⟨b, bs', hb, hbs, rfl⟩
      exact ⟨b, hb, bs', ih.mpr hbs, rfl⟩

theorem mapM_exists {as : List α} (h : ∀ a ∈ as, ∃ b, convert a = some b) :
    ∃ bs, as.mapM convert = some bs := by
  simp only [mapM_eq_some_iff]
  induction as with
  | nil => exact ⟨[], .nil⟩
  | cons a as ih =>
    obtain ⟨b, hb⟩ := h a (by simp)
    obtain ⟨bs, hbs⟩ := ih fun a' ha' => h a' (by simp [ha'])
    exact ⟨b :: bs, .cons hb hbs⟩

theorem except_mapM_ok {f : α → Except ε β} {as : List α} {bs : List β} :
    as.mapM f = .ok bs ↔ List.Forall₂ (fun a b => f a = .ok b) as bs := by
  induction as generalizing bs with
  | nil =>
    rw [List.mapM_nil, List.forall₂_nil_left_iff]
    exact ⟨fun h => by cases h; rfl, fun h => by rw [h]; rfl⟩
  | cons a as ih =>
    rw [List.mapM_cons, List.forall₂_cons_left_iff]
    constructor
    · intro h
      cases hb : f a with
      | error e =>
        rw [hb] at h
        cases h
      | ok b =>
        cases hbs : as.mapM f with
        | error e =>
          rw [hb, hbs] at h
          cases h
        | ok bs' =>
          rw [hb, hbs] at h
          cases h
          exact ⟨b, bs', rfl, ih.mp hbs, rfl⟩
    · rintro ⟨b, bs', hb, hbs, rfl⟩
      rw [hb, ih.mpr hbs]
      rfl

theorem except_mapM_error {f : α → Except ε β} {as : List α} {e : ε} (h : as.mapM f = .error e) :
    ∃ a ∈ as, f a = .error e := by
  induction as with
  | nil => cases h
  | cons a as ih =>
    rw [List.mapM_cons] at h
    cases hb : f a with
    | error e' =>
      rw [hb] at h
      cases h
      exact ⟨a, by simp, hb⟩
    | ok b =>
      cases hbs : as.mapM f with
      | error e' =>
        rw [hb, hbs] at h
        cases h
        obtain ⟨a', hmem, ha'⟩ := ih hbs
        exact ⟨a', List.mem_cons_of_mem _ hmem, ha'⟩
      | ok bs =>
        rw [hb, hbs] at h
        cases h

theorem map_key_of_mapM (hkey : ∀ a b, convert a = some b → key' b = key a) {as : List α}
    {bs : List β} (h : as.mapM convert = some bs) : bs.map key' = as.map key := by
  have h2 := mapM_eq_some_iff.mp h
  clear h
  induction h2 with
  | nil => rfl
  | cons hab _ ih => rw [List.map_cons, List.map_cons, ih, hkey _ _ hab]

theorem mem_of_mapM {as : List α} {bs : List β} (h : as.mapM convert = some bs) {b : β}
    (hb : b ∈ bs) : ∃ a ∈ as, convert a = some b := forall₂_right (mapM_eq_some_iff.mp h) hb

theorem filterMap_keys {as : List α} (hkey : ∀ a ∈ as, ∀ b, convert a = some b → key' b = key a) :
    ((as.filterMap convert).map key').Sublist (as.map key) := by
  induction as with
  | nil => exact .slnil
  | cons a as ih =>
    have hrest := ih fun c hc => hkey c (List.mem_cons_of_mem _ hc)
    cases h : convert a with
    | none =>
      rw [List.filterMap_cons_none h]
      exact hrest.cons _
    | some b =>
      rw [List.filterMap_cons_some h, List.map_cons, List.map_cons, hkey a (by simp) b h]
      exact hrest.cons_cons _

variable [DecidableEq κ]

def newIn (key : α → κ) (key' : β → κ) (store : List β) (batch : List α) : List α :=
  firsts key (store.map key') batch

def ingest (convert : α → Option β) (key : α → κ) (key' : β → κ) (store : List β)
    (batch : List α) : Option (List β) :=
  ((newIn key key' store batch).mapM convert).map (store ++ ·)

variable {store store' : List β} {batch : List α}

theorem ingest_eq_some_iff : ingest convert key key' store batch = some store' ↔
    ∃ added, (newIn key key' store batch).mapM convert = some added ∧ store' = store ++ added := by
  simp only [ingest, Option.map_eq_some_iff]
  constructor
  · rintro ⟨added, h, rfl⟩
    exact ⟨added, h, rfl⟩
  · rintro ⟨added, h, rfl⟩
    exact ⟨added, h, rfl⟩

theorem ingest_extends (h : ingest convert key key' store batch = some store') :
    store <+: store' := by
  obtain ⟨added, -, rfl⟩ := ingest_eq_some_iff.mp h
  exact List.prefix_append _ _

theorem ingest_keys (hkey : ∀ a b, convert a = some b → key' b = key a)
    (h : ingest convert key key' store batch = some store') :
    store'.map key' = store.map key' ++ (newIn key key' store batch).map key := by
  obtain ⟨added, hadded, rfl⟩ := ingest_eq_some_iff.mp h
  rw [List.map_append, map_key_of_mapM hkey hadded]

theorem ingest_nodup (hkey : ∀ a b, convert a = some b → key' b = key a)
    (hstore : (store.map key').Nodup) (h : ingest convert key key' store batch = some store') :
    (store'.map key').Nodup := by
  rw [ingest_keys hkey h, List.nodup_append']
  refine ⟨hstore, firsts_nodup key _ _, ?_⟩
  intro k hk hk'
  obtain ⟨a, ha, rfl⟩ := List.mem_map.mp hk'
  exact firsts_fresh key _ _ a ha hk

theorem key_mem_ingest (hkey : ∀ a b, convert a = some b → key' b = key a)
    (h : ingest convert key key' store batch = some store') {a : α} (ha : a ∈ batch) :
    key a ∈ store'.map key' := by
  rw [ingest_keys hkey h, List.mem_append]
  exact key_mem_firsts key _ _ ha

theorem mem_ingest (h : ingest convert key key' store batch = some store') {b : β}
    (hb : b ∈ store') : b ∈ store ∨ ∃ a ∈ batch, convert a = some b := by
  obtain ⟨added, hadded, rfl⟩ := ingest_eq_some_iff.mp h
  rcases List.mem_append.mp hb with hb | hb
  · exact .inl hb
  · obtain ⟨a, ha, hconvert⟩ := mem_of_mapM hadded hb
    exact .inr ⟨a, (firsts_sublist key _ _).mem ha, hconvert⟩

theorem newIn_append (hkey : ∀ a b, convert a = some b → key' b = key a) {as : List α}
    (h : ingest convert key key' store as = some store') (bs : List α) :
    newIn key key' store (as ++ bs) = newIn key key' store as ++ newIn key key' store' bs := by
  rw [newIn, firsts_append, newIn, newIn, ingest_keys hkey h, newIn]

theorem ingest_append (hkey : ∀ a b, convert a = some b → key' b = key a) {as bs : List α} :
    ingest convert key key' store (as ++ bs) = some store' ↔
      ∃ middle, ingest convert key key' store as = some middle ∧
        ingest convert key key' middle bs = some store' := by
  constructor
  · intro h
    obtain ⟨added, hadded, rfl⟩ := ingest_eq_some_iff.mp h
    rw [newIn, firsts_append, List.mapM_append] at hadded
    simp only [Option.bind_eq_bind, Option.bind_eq_some_iff] at hadded
    obtain ⟨xs, hxs, ys, hys, he⟩ := hadded
    cases he
    refine ⟨_, ingest_eq_some_iff.mpr ⟨xs, hxs, rfl⟩, ingest_eq_some_iff.mpr ⟨ys, ?_, by simp⟩⟩
    rwa [newIn, List.map_append, map_key_of_mapM hkey hxs]
  · rintro ⟨middle, h, h'⟩
    have hnew := newIn_append hkey h bs
    obtain ⟨xs, hxs, rfl⟩ := ingest_eq_some_iff.mp h
    obtain ⟨ys, hys, rfl⟩ := ingest_eq_some_iff.mp h'
    refine ingest_eq_some_iff.mpr ⟨xs ++ ys, ?_, List.append_assoc ..⟩
    rw [hnew, List.mapM_append, hxs, hys]
    rfl

theorem ingest_again (hkey : ∀ a b, convert a = some b → key' b = key a)
    (h : ingest convert key key' store batch = some store') :
    newIn key key' store' batch = [] ∧ ingest convert key key' store' batch = some store' := by
  have hnil : newIn key key' store' batch = [] :=
    firsts_eq_nil key fun a ha => key_mem_ingest hkey h ha
  refine ⟨hnil, ingest_eq_some_iff.mpr ⟨[], ?_, (List.append_nil _).symm⟩⟩
  rw [hnil]
  rfl

end Convert

def replace (target new : List α) : List α :=
  target.filter (fun a => key a ∉ new.map key) ++ new

theorem mem_replace {target new : List α} {a : α} :
    a ∈ replace key target new ↔ a ∈ new ∨ (a ∈ target ∧ key a ∉ new.map key) := by
  simp only [replace, List.mem_append, List.mem_filter, decide_eq_true_eq]
  exact or_comm

theorem replace_forall {target new : List α} {P : α → Prop} (hnew : ∀ a ∈ new, P a)
    (hold : ∀ a ∈ target, P a) : ∀ a ∈ replace key target new, P a := by
  intro a ha
  rcases (mem_replace key).mp ha with hin | ⟨hkept, -⟩
  · exact hnew a hin
  · exact hold a hkept

theorem replace_keys (target new : List α) : target.map key ⊆ (replace key target new).map key := by
  intro k hk
  obtain ⟨a, ha, rfl⟩ := List.mem_map.mp hk
  by_cases hnew : key a ∈ new.map key
  · obtain ⟨b, hb, hsame⟩ := List.mem_map.mp hnew
    exact List.mem_map.mpr ⟨b, (mem_replace key).mpr (.inl hb), hsame⟩
  · exact List.mem_map_of_mem ((mem_replace key).mpr (.inr ⟨ha, hnew⟩))

theorem replace_nodup {target new : List α} (ht : (target.map key).Nodup)
    (hn : (new.map key).Nodup) : ((replace key target new).map key).Nodup := by
  rw [replace, List.map_append, List.nodup_append']
  refine ⟨ht.sublist (List.filter_sublist.map key), hn, ?_⟩
  intro k hk hk'
  obtain ⟨a, ha, rfl⟩ := List.mem_map.mp hk
  have := (List.mem_filter.mp ha).2
  simp only [decide_eq_true_eq] at this
  exact this hk'

section Refresh

variable {P : α → Prop} [DecidablePred P] {target new : List α}

theorem replace_inside (hnew : ∀ a ∈ new, P a)
    (hold : ∀ a ∈ target, P a → key a ∈ new.map key) : (replace key target new).filter P = new := by
  rw [replace, List.filter_append, List.filter_filter, List.filter_eq_nil_iff.mpr,
    List.nil_append, List.filter_eq_self.mpr]
  · exact fun a ha => decide_eq_true (hnew a ha)
  · intro a ha hkept
    simp only [Bool.and_eq_true, decide_eq_true_eq] at hkept
    exact hkept.2 (hold a ha hkept.1)

theorem replace_outside (hnew : ∀ a ∈ new, P a)
    (hold : ∀ a ∈ target, key a ∈ new.map key → P a) :
    (replace key target new).filter (fun a => ¬ P a) = target.filter (fun a => ¬ P a) := by
  rw [replace, List.filter_append, List.filter_filter]
  have hnone : new.filter (fun a => ¬ P a) = [] := by
    rw [List.filter_eq_nil_iff]
    intro a ha
    simp [hnew a ha]
  rw [hnone, List.append_nil]
  apply List.filter_congr
  intro a ha
  by_cases hP : P a
  · simp [hP]
  · have hfresh : key a ∉ new.map key := fun hmem => hP (hold a ha hmem)
    simp only [hP, hfresh, not_false_eq_true, decide_true, Bool.and_self]

end Refresh

variable (newer : α → α → Prop) [DecidableRel newer]

def latest (rows : List α) : List α := firsts key [] (rows.insertionSort newer)

theorem latest_perm {rows : List α} (h : (rows.map key).Nodup) : (latest key newer rows).Perm rows := by
  have hsort := List.perm_insertionSort newer rows
  rw [latest, firsts_eq_self key (((hsort.map key).nodup_iff).mpr h) (by simp)]
  exact hsort

theorem latest_nodup (rows : List α) : ((latest key newer rows).map key).Nodup :=
  firsts_nodup key [] _

end Keyed
