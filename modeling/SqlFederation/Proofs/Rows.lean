import SqlFederation.Row

/-!
# Columns of rows

Setting a column changes the value of that column alone (`Row.get?_insert_of_ne`), and in a row with
one entry for each of some distinct names it changes that entry in its place
(`Json.put_map`). A row that is made of distinct columns has each of them (`Row.get?_ofList`).
-/

namespace SqlFederation

/-- In the entries of some keys, those keys have the values that they had. -/
theorem lookup_filter_key {α β : Type} [BEq α] [LawfulBEq α] (keep : α → Bool)
    (entries : List (α × β)) (key : α) :
    (entries.filter fun (k, _) => keep k).lookup key =
      if keep key then entries.lookup key else none := by
  induction entries with
  | nil => rw [List.filter_nil, List.lookup_nil, ite_self]
  | cons entry rest ih =>
    obtain ⟨k, value⟩ := entry
    by_cases hk : key = k
    · subst hk
      cases hkeep : keep key with
      | true => simp [hkeep]
      | false => simp [hkeep, ih]
    · cases hkeep : keep k with
      | true => simp [List.lookup_cons, hkeep, beq_false_of_ne hk, ih]
      | false => simp [List.lookup_cons, hkeep, beq_false_of_ne hk, ih]

/-- The keys that have a value are those of the entries. -/
theorem isSome_lookup_iff {α β : Type} [BEq α] [LawfulBEq α] {entries : List (α × β)} {key : α} :
    (entries.lookup key).isSome = true ↔ key ∈ entries.map Prod.fst := by
  rw [List.lookup_isSome_iff, List.mem_map]
  exact exists_congr fun entry => and_congr_right fun _ => beq_iff_eq.trans eq_comm

/-- Among entries of different keys, each key has the value of its entry. -/
theorem lookup_of_mem {α β : Type} [BEq α] [LawfulBEq α] {entries : List (α × β)}
    (hnodup : (entries.map Prod.fst).Nodup) {entry : α × β} (hentry : entry ∈ entries) :
    entries.lookup entry.1 = some entry.2 := by
  obtain ⟨front, back, rfl⟩ := List.append_of_mem hentry
  refine List.lookup_eq_some_iff.mpr ⟨front, back, rfl, fun other hother => ?_⟩
  rw [List.map_append, List.nodup_append] at hnodup
  rw [bne_iff_ne]
  exact (hnodup.2.2 _ (List.mem_map_of_mem hother) _ List.mem_cons_self).symm

namespace Json

variable {α β : Type}

/-- Setting a key leaves the values of other keys. -/
theorem lookup_put_of_ne {key other : String} (h : other ≠ key) (value : α)
    (entries : List (String × α)) :
    (put key value entries).lookup other = entries.lookup other := by
  induction entries with
  | nil => rw [put, List.lookup_cons, beq_false_of_ne h]
  | cons entry rest ih =>
    obtain ⟨k, v⟩ := entry
    rw [put]
    split
    · rename_i hk
      subst hk
      rw [List.lookup_cons, List.lookup_cons, beq_false_of_ne h]
    · rw [List.lookup_cons, List.lookup_cons, ih]

/-- A key that was set has the value that it was set to. -/
theorem lookup_put_self (key : String) (value : α) (entries : List (String × α)) :
    (put key value entries).lookup key = some value := by
  induction entries with
  | nil => rw [put, List.lookup_cons_self]
  | cons entry rest ih =>
    obtain ⟨k, v⟩ := entry
    rw [put]
    split
    · rename_i hk
      rw [hk, List.lookup_cons_self]
    · rename_i hk
      rw [List.lookup_cons, beq_false_of_ne (Ne.symm hk)]
      exact ih

/-- The value of a name among entries that are given by distinct names. -/
theorem lookup_map {names : List β} {name : β → String} {value : β → α} {b : β} (hb : b ∈ names)
    (hnodup : (names.map name).Nodup) :
    (names.map fun n => (name n, value n)).lookup (name b) = some (value b) := by
  induction names with
  | nil => exact absurd hb List.not_mem_nil
  | cons n rest ih =>
    rw [List.map_cons, List.nodup_cons] at hnodup
    rw [List.map_cons, List.lookup_cons]
    rcases List.mem_cons.mp hb with rfl | hb
    · rw [beq_self_eq_true]
    · have hne : name b ≠ name n := fun heq => hnodup.1 (heq ▸ List.mem_map_of_mem hb)
      rw [beq_false_of_ne hne]
      exact ih hb hnodup.2

/-- Setting one of some distinct names changes its entry in its place. -/
theorem put_map {names : List β} {name : β → String} {value : β → α} {b : β} {new : α}
    (hb : b ∈ names) (hnodup : (names.map name).Nodup) :
    put (name b) new (names.map fun n => (name n, value n)) =
      names.map fun n => (name n, if name n = name b then new else value n) := by
  induction names with
  | nil => exact absurd hb List.not_mem_nil
  | cons n rest ih =>
    rw [List.map_cons, List.nodup_cons] at hnodup
    rw [List.map_cons, List.map_cons, put]
    by_cases heq : name n = name b
    · rw [if_pos heq, if_pos heq, heq]
      congr 1
      apply List.map_congr_left
      intro t ht
      have hne : name t ≠ name b := by
        intro h
        apply hnodup.1
        rw [heq, ← h]
        exact List.mem_map_of_mem ht
      rw [if_neg hne]
    · rw [if_neg heq, if_neg heq]
      congr 1
      rcases List.mem_cons.mp hb with rfl | hb
      · exact absurd rfl heq
      · exact ih hb hnodup.2

end Json

namespace Row

/-- Setting a column leaves the other columns. -/
theorem get?_insert_of_ne {column other : String} (h : other ≠ column) (row : Row) (value : Json) :
    (row.insert column value).get? other = row.get? other :=
  Json.lookup_put_of_ne h value row.entries

theorem get?_insert_self (column : String) (row : Row) (value : Json) :
    (row.insert column value).get? column = some value :=
  Json.lookup_put_self column value row.entries

/-- Setting some columns leaves those that are not among them. -/
theorem get?_foldl_insert_of_not_mem {entries : List (String × Json)} {column : String}
    (h : column ∉ entries.map Prod.fst) (row : Row) :
    (entries.foldl (fun row (column, value) => row.insert column value) row).get? column =
      row.get? column := by
  induction entries generalizing row with
  | nil => rfl
  | cons entry rest ih =>
    rw [List.map_cons, List.mem_cons, not_or] at h
    rw [List.foldl_cons, ih h.2, get?_insert_of_ne h.1]

/-- A row that is made of distinct columns has each of them. -/
theorem get?_ofList {entries : List (String × Json)} (hnodup : (entries.map Prod.fst).Nodup)
    {column : String} {value : Json} (hmem : (column, value) ∈ entries) :
    (ofList entries).get? column = some value := by
  rw [ofList]
  generalize empty = row
  induction entries generalizing row with
  | nil => exact absurd hmem List.not_mem_nil
  | cons entry rest ih =>
    rw [List.map_cons, List.nodup_cons] at hnodup
    rw [List.foldl_cons]
    obtain rfl | hrest := List.mem_cons.mp hmem
    · rw [get?_foldl_insert_of_not_mem hnodup.1, get?_insert_self]
    · exact ih hnodup.2 hrest _

end Row

end SqlFederation
