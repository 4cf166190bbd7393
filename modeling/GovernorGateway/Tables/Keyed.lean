/-
# Tables with a primary key

A table is the list of its rows in the order they were inserted.  `key` reads a row's primary
key.  The two insert statements the stores use are here:

* `insertOrIgnore`: a row whose key is taken is dropped;
* `insertOrReplace`: a row whose key is taken replaces the old one, which is deleted, so the
  new row is the last.

A dictionary is such a table too, in its order of iteration:

* `assign`: a row whose key is taken replaces the old one in its place.

All keep the keys of the table distinct (`nodup_insertOrIgnore` and the lemmas after it).
-/
import Mathlib.Data.List.Nodup

namespace Keyed

variable {κ ρ : Type} [DecidableEq κ] (key : ρ → κ)

/-- `INSERT OR IGNORE`. -/
def insertOrIgnore (t : List ρ) (row : ρ) : List ρ :=
  if key row ∈ t.map key then t else t ++ [row]

/-- `INSERT OR REPLACE`. -/
def insertOrReplace (t : List ρ) (row : ρ) : List ρ :=
  t.filter (fun r => key r ≠ key row) ++ [row]

/-- `t[key] = row`. -/
def assign (t : List ρ) (row : ρ) : List ρ :=
  if key row ∈ t.map key then t.map fun r => if key r = key row then row else r else t ++ [row]

/-- The row with a given key. -/
def lookup (t : List ρ) (k : κ) : Option ρ := t.find? (fun r => key r = k)

variable {key}

/-! ## 1. Membership -/

/-- A row of the table after the insert was there before, or is the new one and its key was
free. -/
theorem mem_insertOrIgnore {t : List ρ} {row r : ρ} :
    r ∈ insertOrIgnore key t row ↔ r ∈ t ∨ (r = row ∧ key row ∉ t.map key) := by
  unfold insertOrIgnore
  split
  · rename_i h
    constructor
    · exact Or.inl
    · rintro (hr | ⟨-, hn⟩)
      · exact hr
      · exact absurd h hn
  · rename_i h
    rw [List.mem_append, List.mem_singleton]
    constructor
    · rintro (hr | hr)
      · exact Or.inl hr
      · exact Or.inr ⟨hr, h⟩
    · rintro (hr | ⟨hr, -⟩)
      · exact Or.inl hr
      · exact Or.inr hr

theorem insertOrIgnore_of_mem {t : List ρ} {row : ρ} (h : key row ∈ t.map key) :
    insertOrIgnore key t row = t := if_pos h

theorem insertOrIgnore_of_notMem {t : List ρ} {row : ρ} (h : key row ∉ t.map key) :
    insertOrIgnore key t row = t ++ [row] := if_neg h

/-- After the insert the key is taken, and no other key is. -/
theorem mem_keys_insertOrIgnore {t : List ρ} {row : ρ} {k : κ} :
    k ∈ (insertOrIgnore key t row).map key ↔ k ∈ t.map key ∨ k = key row := by
  unfold insertOrIgnore
  split
  · rename_i h
    constructor
    · exact Or.inl
    · rintro (hk | rfl)
      · exact hk
      · exact h
  · simp

theorem mem_insertOrReplace {t : List ρ} {row r : ρ} :
    r ∈ insertOrReplace key t row ↔ (r ∈ t ∧ key r ≠ key row) ∨ r = row := by
  simp [insertOrReplace]

theorem mem_assign {t : List ρ} {row r : ρ} :
    r ∈ assign key t row ↔ (r ∈ t ∧ key r ≠ key row) ∨ r = row := by
  unfold assign
  split
  · rename_i h
    rw [List.mem_map]
    constructor
    · rintro ⟨r', hr', rfl⟩
      split
      · exact Or.inr rfl
      · rename_i hne
        exact Or.inl ⟨hr', hne⟩
    · rintro (⟨hr, hne⟩ | rfl)
      · exact ⟨r, hr, if_neg hne⟩
      · obtain ⟨r', hr', hk⟩ := List.mem_map.mp h
        exact ⟨r', hr', if_pos hk⟩
  · rename_i h
    rw [List.mem_append, List.mem_singleton]
    constructor
    · rintro (hr | hr)
      · exact Or.inl ⟨hr, fun hk => h (hk ▸ List.mem_map_of_mem hr)⟩
      · exact Or.inr hr
    · exact Or.imp_left And.left

/-! ## 2. The key stays a key -/

theorem nodup_insertOrIgnore {t : List ρ} {row : ρ} (h : (t.map key).Nodup) :
    ((insertOrIgnore key t row).map key).Nodup := by
  unfold insertOrIgnore
  split
  · exact h
  · rename_i hn
    rw [List.map_append]
    exact List.Nodup.append h (List.nodup_singleton _) (List.disjoint_singleton.mpr hn)

theorem nodup_insertOrReplace {t : List ρ} {row : ρ} (h : (t.map key).Nodup) :
    ((insertOrReplace key t row).map key).Nodup := by
  unfold insertOrReplace
  rw [List.map_append]
  refine List.Nodup.append (List.Nodup.sublist (List.filter_sublist.map key) h)
    (List.nodup_singleton _) (List.disjoint_singleton.mpr ?_)
  intro hk
  obtain ⟨r, hr, hrk⟩ := List.mem_map.mp hk
  have := (List.mem_filter.mp hr).2
  simp [hrk] at this

theorem nodup_assign {t : List ρ} {row : ρ} (h : (t.map key).Nodup) :
    ((assign key t row).map key).Nodup := by
  unfold assign
  split
  · rw [List.map_map]
    have hkeys : t.map (key ∘ fun r => if key r = key row then row else r) = t.map key := by
      refine List.map_congr_left fun r _ => ?_
      rw [Function.comp_apply]
      split
      · rename_i hk
        exact hk.symm
      · rfl
    rwa [hkeys]
  · rename_i hn
    rw [List.map_append]
    exact List.Nodup.append h (List.nodup_singleton _) (List.disjoint_singleton.mpr hn)

/-! ## 3. Lookup -/

theorem lookup_mem {t : List ρ} {k : κ} {r : ρ} (h : lookup key t k = some r) :
    r ∈ t ∧ key r = k := by
  refine ⟨List.mem_of_find?_eq_some h, ?_⟩
  have := List.find?_some h
  simpa using this

/-- In a table with distinct keys a row is found by its key. -/
theorem lookup_of_mem {t : List ρ} (hnd : (t.map key).Nodup) {r : ρ} (hr : r ∈ t) :
    lookup key t (key r) = some r := by
  induction t with
  | nil => exact absurd hr (by simp)
  | cons x t ih =>
    rw [List.map_cons, List.nodup_cons] at hnd
    rcases List.mem_cons.mp hr with rfl | hr
    · simp [lookup]
    · have hne : key x ≠ key r := by
        intro he
        exact hnd.1 (he ▸ List.mem_map_of_mem hr)
      have hih := ih hnd.2 hr
      unfold lookup at hih ⊢
      rw [List.find?_cons_of_neg (by simpa using hne)]
      exact hih

theorem lookup_eq_none {t : List ρ} {k : κ} : lookup key t k = none ↔ k ∉ t.map key := by
  simp [lookup]

theorem lookup_insertOrIgnore_ne {t : List ρ} {row : ρ} {k : κ} (h : key row ≠ k) :
    lookup key (insertOrIgnore key t row) k = lookup key t k := by
  unfold insertOrIgnore
  split
  · rfl
  · unfold lookup
    rw [List.find?_append]
    simp [h]

theorem lookup_insertOrReplace {t : List ρ} {row : ρ} {k : κ} :
    lookup key (insertOrReplace key t row) k = if key row = k then some row else lookup key t k := by
  unfold insertOrReplace lookup
  rw [List.find?_append, List.find?_filter]
  by_cases hk : key row = k
  · have hnone : t.find? (fun r => decide (decide (key r ≠ key row) = true ∧
        decide (key r = k) = true)) = none := by
      rw [List.find?_eq_none]
      intro r _
      simp [hk]
    rw [hnone, Option.none_or, if_pos hk]
    simp [hk]
  · have hsame : (fun r => decide (decide (key r ≠ key row) = true ∧ decide (key r = k) = true)) =
        fun r => decide (key r = k) := by
      funext r
      by_cases hr : key r = k
      · simp [hr, Ne.symm hk]
      · simp [hr]
    rw [hsame, if_neg hk]
    simp [hk]

theorem lookup_assign {t : List ρ} {row : ρ} {k : κ} :
    lookup key (assign key t row) k = if key row = k then some row else lookup key t k := by
  unfold assign
  split
  · rename_i hmem
    have hmap : ∀ t : List ρ, lookup key (t.map fun r => if key r = key row then row else r) k =
        if key row = k ∧ k ∈ t.map key then some row else lookup key t k := by
      intro t
      induction t with
      | nil => simp [lookup]
      | cons r t ih =>
        unfold lookup at ih ⊢
        rw [List.map_cons, List.find?_cons, List.find?_cons, ih]
        by_cases hr : key r = key row
        · by_cases hk : key row = k
          · simp [hr, hk]
          · simp [hr, hk]
        · rw [if_neg hr]
          by_cases hk : key r = k
          · have hne : ¬ key row = k := fun h => hr (hk.trans h.symm)
            simp [hk, hne]
          · simp [hk, Ne.symm hk]
    rw [hmap]
    by_cases hk : key row = k
    · rw [if_pos ⟨hk, hk ▸ hmem⟩, if_pos hk]
    · rw [if_neg fun h => hk h.1, if_neg hk]
  · rename_i hmem
    unfold lookup
    rw [List.find?_append]
    by_cases hk : key row = k
    · have hnone : t.find? (fun r => decide (key r = k)) = none := by
        rw [List.find?_eq_none]
        intro r hr
        simp only [decide_eq_true_eq]
        exact fun h => hmem ((h.trans hk.symm) ▸ List.mem_map_of_mem hr)
      rw [hnone, if_pos hk]
      simp [hk]
    · rw [if_neg hk]
      simp [hk]

/-! ## 4. A sequence of inserts -/

/-- After a sequence of inserts a row is in the table if it was there before, or if its key was free
and it is the FIRST of the new rows with that key. -/
theorem mem_foldl_insertOrIgnore {r : ρ} : ∀ rows t : List ρ,
    r ∈ rows.foldl (insertOrIgnore key) t ↔
      r ∈ t ∨ (key r ∉ t.map key ∧ lookup key rows (key r) = some r)
  | [], t => by simp [lookup]
  | row :: rows, t => by
    rw [List.foldl_cons, mem_foldl_insertOrIgnore rows, mem_insertOrIgnore, mem_keys_insertOrIgnore,
      lookup, lookup, List.find?_cons]
    by_cases hk : key row = key r
    · simp only [hk, decide_true, Option.some.injEq, or_true, not_true_eq_false, false_and, or_false]
      constructor
      · rintro (hr | ⟨rfl, hn⟩)
        · exact Or.inl hr
        · exact Or.inr ⟨hn, rfl⟩
      · rintro (hr | ⟨hn, rfl⟩)
        · exact Or.inl hr
        · exact Or.inr ⟨rfl, hn⟩
    · have hne : r ≠ row := fun h => hk (by rw [h])
      simp only [hk, decide_false, hne, false_and, or_false, Ne.symm hk]

/-- The old rows stay where they are. -/
theorem prefix_foldl_insertOrIgnore : ∀ rows t : List ρ, t <+: rows.foldl (insertOrIgnore key) t
  | [], t => List.prefix_refl t
  | row :: rows, t => by
    have hone : t <+: insertOrIgnore key t row := by
      unfold insertOrIgnore
      split
      · exact List.prefix_refl t
      · exact List.prefix_append t [row]
    rw [List.foldl_cons]
    exact hone.trans (prefix_foldl_insertOrIgnore rows _)

/-- What is inserted at the end is some of the rows, in their order. -/
theorem foldl_insertOrIgnore_split : ∀ rows t : List ρ, ∃ new, new.Sublist rows ∧
    rows.foldl (insertOrIgnore key) t = t ++ new
  | [], t => ⟨[], .slnil, by simp⟩
  | row :: rows, t => by
    obtain ⟨new, hnew, hfold⟩ := foldl_insertOrIgnore_split rows (insertOrIgnore key t row)
    rw [List.foldl_cons, hfold]
    by_cases htaken : key row ∈ t.map key
    · exact ⟨new, hnew.cons row, by rw [insertOrIgnore_of_mem htaken]⟩
    · refine ⟨row :: new, hnew.cons_cons row, ?_⟩
      rw [insertOrIgnore_of_notMem htaken, List.append_assoc, List.singleton_append]

/-- The keys taken afterwards. -/
theorem mem_keys_foldl_insertOrIgnore {k : κ} : ∀ rows t : List ρ,
    k ∈ (rows.foldl (insertOrIgnore key) t).map key ↔ k ∈ t.map key ∨ k ∈ rows.map key
  | [], t => by simp
  | row :: rows, t => by
    rw [List.foldl_cons, mem_keys_foldl_insertOrIgnore rows, mem_keys_insertOrIgnore, List.map_cons,
      List.mem_cons, or_assoc]

/-- A row whose key is free is appended. -/
theorem insertOrReplace_of_notMem {t : List ρ} {row : ρ} (h : key row ∉ t.map key) :
    insertOrReplace key t row = t ++ [row] := by
  have hkeep : t.filter (fun r => key r ≠ key row) = t := by
    rw [List.filter_eq_self]
    intro r hr
    rw [decide_eq_true_eq]
    exact fun hk => h (hk ▸ List.mem_map_of_mem hr)
  rw [insertOrReplace, hkeep]

theorem nodup_foldl_insertOrIgnore : ∀ rows t : List ρ, (t.map key).Nodup →
    ((rows.foldl (insertOrIgnore key) t).map key).Nodup
  | [], _, h => h
  | _ :: rows, _, h => nodup_foldl_insertOrIgnore rows _ (nodup_insertOrIgnore h)

/-! ## 5. New rows -/

/-- The table `t'` is `t` with the new rows `rows`, all of different keys. -/
structure Grown (key : ρ → κ) (t t' rows : List ρ) : Prop where
  append : t' = t ++ rows
  nodup : (rows.map key).Nodup
  fresh : ∀ r ∈ rows, key r ∉ t.map key

omit [DecidableEq κ] in
theorem Grown.refl (t : List ρ) : Grown key t t [] where
  append := (List.append_nil t).symm
  nodup := List.nodup_nil
  fresh := by simp

/-- One more row under a free key. -/
theorem Grown.insert {t t' rows : List ρ} (h : Grown key t t' rows) {row : ρ}
    (hrow : key row ∉ t'.map key) : Grown key t (insertOrIgnore key t' row) (rows ++ [row]) := by
  have hkeys : t'.map key = t.map key ++ rows.map key := by rw [h.append, List.map_append]
  rw [hkeys, List.mem_append, not_or] at hrow
  refine ⟨?_, ?_, ?_⟩
  · rw [insertOrIgnore_of_notMem, h.append, List.append_assoc]
    rw [hkeys, List.mem_append, not_or]
    exact hrow
  · rw [List.map_append, List.map_singleton]
    refine List.nodup_append.mpr ⟨h.nodup, List.nodup_singleton _, fun k hk k' hk' heq => ?_⟩
    rw [List.mem_singleton.mp hk'] at heq
    exact hrow.2 (heq ▸ hk)
  · intro r hr
    rcases List.mem_append.mp hr with hr | hr
    · exact h.fresh r hr
    · rw [List.mem_singleton.mp hr]
      exact hrow.1

/-! ## 6. Keys that stay -/

/-- No key is lost. -/
def Keeps (key : ρ → κ) (t t' : List ρ) : Prop := ∀ k ∈ t.map key, k ∈ t'.map key

omit [DecidableEq κ] in
theorem Keeps.refl (t : List ρ) : Keeps key t t := fun _ hk => hk

omit [DecidableEq κ] in
theorem Keeps.trans {t t' t'' : List ρ} (h : Keeps key t t') (h' : Keeps key t' t'') :
    Keeps key t t'' := fun k hk => h' k (h k hk)

/-- After a replacement the key is taken, and no other key has come or gone. -/
theorem mem_keys_insertOrReplace {t : List ρ} {row : ρ} {k : κ} :
    k ∈ (insertOrReplace key t row).map key ↔ k ∈ t.map key ∨ k = key row := by
  constructor
  · intro hk
    obtain ⟨r, hr, rfl⟩ := List.mem_map.mp hk
    rcases mem_insertOrReplace.mp hr with ⟨hr, -⟩ | rfl
    · exact Or.inl (List.mem_map_of_mem hr)
    · exact Or.inr rfl
  · rintro (hk | rfl)
    · obtain ⟨r, hr, rfl⟩ := List.mem_map.mp hk
      by_cases hkey : key r = key row
      · rw [hkey]
        exact List.mem_map_of_mem (mem_insertOrReplace.mpr (Or.inr rfl))
      · exact List.mem_map_of_mem (mem_insertOrReplace.mpr (Or.inl ⟨hr, hkey⟩))
    · exact List.mem_map_of_mem (mem_insertOrReplace.mpr (Or.inr rfl))

/-- A row that is replaced leaves its key. -/
theorem keeps_insertOrReplace (t : List ρ) (row : ρ) : Keeps key t (insertOrReplace key t row) :=
  fun _ hk => mem_keys_insertOrReplace.mpr (Or.inl hk)

omit [DecidableEq κ] in
/-- So does an update of rows that leaves their keys alone. -/
theorem keeps_map {f : ρ → ρ} (hf : ∀ r, key (f r) = key r) (t : List ρ) : Keeps key t (t.map f) := by
  intro k hk
  rw [List.map_map, show key ∘ f = key from funext hf]
  exact hk

end Keyed
