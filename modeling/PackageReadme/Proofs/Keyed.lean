import Mathlib.Data.List.Basic
import PackageReadme.Keyed

/-! Looking up keys in maps from texts.

A key that was set has its new value and every other key the value it had (`get?_insert`), so a map
that is built from entries holds these entries (`get?_ofEntries`). Setting a key keeps the keys in
ascending order, so that no key stands twice. -/
namespace PackageReadme.Keyed
variable {α β : Type}

/-! ### Looking up -/

theorem get?_nil (key : String) : get? key ([] : Keyed α) = none :=
  rfl

theorem get?_cons (key k : String) (v : α) (entries : Keyed α) :
    get? key ((k, v) :: entries) = if key = k then some v else get? key entries := by
  by_cases h : key = k
  · simp [get?, h]
  · have hbeq : (key == k) = false := beq_false_of_ne h
    simp [get?, List.lookup_cons, hbeq, h]

theorem get?_insert (key k : String) (v : α) (entries : Keyed α) :
    get? key (insert k v entries) = if key = k then some v else get? key entries := by
  induction entries with
  | nil => exact get?_cons key k v []
  | cons entry entries ih =>
    obtain ⟨k', v'⟩ := entry
    by_cases hsame : k = k'
    · subst hsame
      by_cases h : key = k <;> simp [insert, get?_cons, h]
    · by_cases hlt : k < k'
      · simp [insert, hsame, hlt, get?_cons]
      · simp only [insert, hsame, hlt, if_false, get?_cons, ih]
        by_cases h : key = k
        · simp [h, hsame]
        · simp [h]

theorem get?_eq_none (key : String) {entries : Keyed α} (h : key ∉ entries.map Prod.fst) :
    get? key entries = none := by
  induction entries with
  | nil => rfl
  | cons entry entries ih =>
    rw [List.map_cons, List.mem_cons, not_or] at h
    rw [show entry = (entry.1, entry.2) from rfl, get?_cons, if_neg h.1, ih h.2]

theorem get?_append (key : String) (entries more : Keyed α) :
    get? key (entries ++ more) = (get? key entries).or (get? key more) :=
  List.lookup_append

theorem mem_of_get? {key : String} {value : α} {entries : Keyed α}
    (h : get? key entries = some value) :
    (key, value) ∈ entries := by
  obtain ⟨before, after, rfl, -⟩ := List.lookup_eq_some_iff.1 h
  simp

theorem get?_eq_some {key : String} {value : α} {entries : Keyed α}
    (h : (entries.map Prod.fst).Nodup) (hmem : (key, value) ∈ entries) :
    get? key entries = some value := by
  induction entries with
  | nil => cases hmem
  | cons entry entries ih =>
    obtain ⟨k, v⟩ := entry
    rw [List.map_cons, List.nodup_cons] at h
    rw [get?_cons]
    rcases List.mem_cons.1 hmem with heq | hmem
    · obtain ⟨rfl, rfl⟩ := Prod.mk.inj heq
      rw [if_pos rfl]
    · have hkey : key ∈ entries.map Prod.fst := List.mem_map.2 ⟨_, hmem, rfl⟩
      have hne : key ≠ k := fun heq => h.1 (heq ▸ hkey)
      rw [if_neg hne, ih h.2 hmem]

theorem get?_map (f : String → α → β) (key : String) (entries : Keyed α) :
    get? key (entries.map fun entry => (entry.1, f entry.1 entry.2)) =
      (get? key entries).map (f key) := by
  induction entries with
  | nil => rfl
  | cons entry entries ih =>
    obtain ⟨k, v⟩ := entry
    simp only [List.map_cons, get?_cons, ih]
    by_cases h : key = k <;> simp [h]

/-- Entries with a key each, set one after the other, are found before what was there. -/
theorem get?_foldl_insert (key : String) {entries : List (String × α)}
    (h : (entries.map Prod.fst).Nodup) (before : Keyed α) :
    get? key (entries.foldl (fun sorted (k, v) => insert k v sorted) before) =
      (get? key entries).or (get? key before) := by
  induction entries generalizing before with
  | nil => rfl
  | cons entry entries ih =>
    obtain ⟨k, v⟩ := entry
    rw [List.map_cons, List.nodup_cons] at h
    rw [List.foldl_cons, ih h.2, get?_insert, get?_cons]
    by_cases hkey : key = k
    · subst hkey
      rw [get?_eq_none key h.1]
      simp
    · simp [hkey]

theorem get?_ofEntries (key : String) {entries : List (String × α)}
    (h : (entries.map Prod.fst).Nodup) :
    get? key (ofEntries entries) = get? key entries := by
  rw [ofEntries, get?_foldl_insert key h, get?_nil, Option.or_none]

/-! ### The same entries in order -/

theorem perm_insert {k : String} {entries : Keyed α} (h : k ∉ entries.map Prod.fst) (v : α) :
    (insert k v entries).Perm ((k, v) :: entries) := by
  induction entries with
  | nil => exact .refl _
  | cons entry entries ih =>
    rw [List.map_cons, List.mem_cons, not_or] at h
    rw [insert, if_neg h.1]
    split
    · exact .refl _
    · exact ((ih h.2).cons entry).trans (.swap ..)

theorem perm_foldl_insert {entries : List (String × α)} {before : Keyed α}
    (h : ((entries ++ before).map Prod.fst).Nodup) :
    (entries.foldl (fun sorted (k, v) => insert k v sorted) before).Perm (entries ++ before) := by
  induction entries generalizing before with
  | nil => exact .refl _
  | cons entry entries ih =>
    obtain ⟨k, v⟩ := entry
    rw [List.cons_append, List.map_cons, List.nodup_cons, List.map_append, List.mem_append,
      not_or] at h
    have hinsert := perm_insert h.1.2 v
    have hmiddle : (entries ++ insert k v before).Perm ((k, v) :: (entries ++ before)) :=
      (hinsert.append_left entries).trans List.perm_middle
    refine (ih ?_).trans hmiddle
    rw [(hmiddle.map Prod.fst).nodup_iff, List.map_cons, List.nodup_cons, List.map_append,
      List.mem_append, not_or]
    exact h

/-- Entries with different keys all stay, in another order. -/
theorem perm_ofEntries {entries : List (String × α)} (h : (entries.map Prod.fst).Nodup) :
    (ofEntries entries).Perm entries := by
  rw [← List.append_nil entries] at h
  have hperm := perm_foldl_insert h
  rwa [List.append_nil] at hperm

theorem insert_map (f : α → β) (k : String) (v : α) (entries : Keyed α) :
    insert k (f v) (entries.map fun entry => (entry.1, f entry.2)) =
      (insert k v entries).map fun entry => (entry.1, f entry.2) := by
  induction entries with
  | nil => rfl
  | cons entry entries ih =>
    simp only [List.map_cons, insert, ih]
    split
    · rfl
    · split <;> rfl

theorem ofEntries_map (f : α → β) (entries : List (String × α)) :
    ofEntries (entries.map fun entry => (entry.1, f entry.2)) =
      (ofEntries entries).map fun entry => (entry.1, f entry.2) := by
  have hfold (before : Keyed α) :
      (entries.map fun entry => (entry.1, f entry.2)).foldl (fun sorted (k, v) => insert k v sorted)
          (before.map fun entry => (entry.1, f entry.2)) =
        (entries.foldl (fun sorted (k, v) => insert k v sorted) before).map fun entry =>
          (entry.1, f entry.2) := by
    induction entries generalizing before with
    | nil => rfl
    | cons entry entries ih =>
      simp only [List.map_cons, List.foldl_cons]
      rw [insert_map, ih]
  exact hfold []

/-! ### Ascending keys -/

def Ascending (entries : Keyed α) : Prop :=
  entries.Pairwise fun a b => a.1 < b.1

theorem mem_insert {k : String} {v : α} {entries : Keyed α} {entry : String × α}
    (h : entry ∈ insert k v entries) : entry = (k, v) ∨ entry ∈ entries := by
  induction entries with
  | nil => exact .inl (List.mem_singleton.1 h)
  | cons other entries ih =>
    unfold insert at h
    grind

theorem Ascending.insert {entries : Keyed α} (h : Ascending entries) (k : String) (v : α) :
    Ascending (insert k v entries) := by
  induction entries with
  | nil => exact List.pairwise_singleton ..
  | cons entry entries ih =>
    obtain ⟨k', v'⟩ := entry
    have hlater : ∀ other ∈ entries, k' < other.1 := (List.pairwise_cons.1 h).1
    have hrest : Ascending entries := (List.pairwise_cons.1 h).2
    by_cases hsame : k = k'
    · subst hsame
      rw [Keyed.insert, if_pos rfl]
      exact List.pairwise_cons.2 ⟨hlater, hrest⟩
    · by_cases hlt : k < k'
      · rw [Keyed.insert, if_neg hsame, if_pos hlt]
        refine List.pairwise_cons.2 ⟨fun other hother => ?_, h⟩
        rcases List.mem_cons.1 hother with rfl | hother
        · exact hlt
        · exact String.lt_trans hlt (hlater other hother)
      · have hgt : k' < k := by
          rcases Decidable.em (k' < k) with hgt | hgt
          · exact hgt
          · exact absurd (String.le_antisymm (String.not_lt.1 hgt) (String.not_lt.1 hlt)) hsame
        rw [Keyed.insert, if_neg hsame, if_neg hlt]
        refine List.pairwise_cons.2 ⟨fun other hother => ?_, ih hrest⟩
        rcases mem_insert hother with rfl | hother
        · exact hgt
        · exact hlater other hother

theorem Ascending.foldl_insert {before : Keyed α} (h : Ascending before)
    (entries : List (String × α)) :
    Ascending (entries.foldl (fun sorted (k, v) => Keyed.insert k v sorted) before) := by
  induction entries generalizing before with
  | nil => exact h
  | cons entry entries ih => exact ih (h.insert entry.1 entry.2)

theorem ascending_ofEntries (entries : List (String × α)) : Ascending (ofEntries entries) :=
  Ascending.foldl_insert List.Pairwise.nil entries

theorem Ascending.nodup_keys {entries : Keyed α} (h : Ascending entries) :
    (entries.map Prod.fst).Nodup := by
  refine List.pairwise_map.2 (List.Pairwise.imp (fun {a b} hlt heq => ?_) h)
  rw [heq] at hlt
  exact String.lt_irrefl _ hlt

end PackageReadme.Keyed
