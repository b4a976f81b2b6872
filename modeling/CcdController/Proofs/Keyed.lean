import CcdController.Keyed

namespace CcdController.Keyed

variable {κ α : Type} [DecidableEq κ]

theorem find?_eq_some_iff {key : α → κ} {items : List α} (nodup : (items.map key).Nodup)
    {k : κ} {item : α} :
    items.find? (fun other => key other = k) = some item ↔ item ∈ items ∧ key item = k := by
  induction items with
  | nil => simp
  | cons first rest ih =>
      rw [List.map_cons, List.nodup_cons] at nodup
      by_cases same : key first = k
      · rw [List.find?_cons_of_pos (by simpa using same), Option.some.injEq, List.mem_cons]
        constructor
        · rintro rfl
          exact ⟨.inl rfl, same⟩
        · rintro ⟨rfl | later, keyed⟩
          · rfl
          · exact absurd (List.mem_map.mpr ⟨item, later, keyed.trans same.symm⟩) nodup.1
      · rw [List.find?_cons_of_neg (by simpa using same), ih nodup.2, List.mem_cons]
        constructor
        · rintro ⟨later, keyed⟩
          exact ⟨.inr later, keyed⟩
        · rintro ⟨rfl | later, keyed⟩
          · exact absurd keyed same
          · exact ⟨later, keyed⟩

theorem lookup_eq_some_iff {held : List (κ × α)} (nodup : (held.map Prod.fst).Nodup)
    {key : κ} {value : α} : held.lookup key = some value ↔ (key, value) ∈ held := by
  induction held with
  | nil => simp
  | cons pair rest ih =>
      obtain ⟨k, v⟩ := pair
      rw [List.map_cons, List.nodup_cons] at nodup
      rw [List.lookup_cons, List.mem_cons, Prod.mk.injEq]
      by_cases same : key = k
      · subst same
        have absent : (key, value) ∉ rest := fun later =>
          nodup.1 (List.mem_map.mpr ⟨_, later, rfl⟩)
        simp [absent, eq_comm]
      · rw [beq_eq_false_iff_ne.mpr same]
        simp [same, ih nodup.2]

theorem assign_of_notMem {key : κ} {value : α} {held : List (κ × α)}
    (fresh : key ∉ held.map Prod.fst) : assign key value held = held ++ [(key, value)] := by
  induction held with
  | nil => rfl
  | cons pair rest ih =>
      rw [List.map_cons, List.mem_cons, not_or] at fresh
      rw [assign, if_neg (Ne.symm fresh.1), ih fresh.2]
      rfl

theorem foldl_assign_of_nodup (pairs held : List (κ × α))
    (nodup : ((held ++ pairs).map Prod.fst).Nodup) :
    pairs.foldl (fun held pair => assign pair.1 pair.2 held) held = held ++ pairs := by
  induction pairs generalizing held with
  | nil => simp
  | cons pair rest ih =>
      have fresh : pair.1 ∉ held.map Prod.fst := by
        rw [List.map_append, List.nodup_append] at nodup
        intro earlier
        exact nodup.2.2 _ earlier _ (List.mem_map_of_mem List.mem_cons_self) rfl
      rw [List.foldl_cons, assign_of_notMem fresh, ih]
      · simp
      · simpa using nodup

theorem assignAll_of_nodup {pairs : List (κ × α)} (nodup : (pairs.map Prod.fst).Nodup) :
    assignAll pairs = pairs := by
  exact foldl_assign_of_nodup pairs [] nodup

theorem lookup_cons_eq (pair : κ × α) (rest : List (κ × α)) (k : κ) :
    (pair :: rest).lookup k = if k = pair.1 then some pair.2 else rest.lookup k := by
  rw [List.lookup_cons]
  by_cases same : k = pair.1
  · rw [if_pos same, beq_iff_eq.mpr same]
  · rw [if_neg same, beq_eq_false_iff_ne.mpr same]

theorem lookup_ne_none_iff {held : List (κ × α)} {k : κ} :
    held.lookup k ≠ none ↔ k ∈ held.map Prod.fst := by
  induction held with
  | nil => simp
  | cons pair rest ih =>
      rw [lookup_cons_eq, List.map_cons, List.mem_cons, ← ih]
      by_cases same : k = pair.1
      · simp [same]
      · simp [same]

theorem lookup_assign (key : κ) (value : α) (held : List (κ × α)) (k : κ) :
    (assign key value held).lookup k = if k = key then some value else held.lookup k := by
  induction held with
  | nil => exact lookup_cons_eq (key, value) [] k
  | cons pair rest ih =>
      rw [assign, lookup_cons_eq pair rest k]
      by_cases here : pair.1 = key
      · rw [if_pos here, lookup_cons_eq, here]
        by_cases same : k = key
        · rw [if_pos same, if_pos same]
        · rw [if_neg same, if_neg same, if_neg same]
      · rw [if_neg here, lookup_cons_eq, ih]
        by_cases same : k = pair.1
        · rw [if_pos same, if_neg (same ▸ here), if_pos same]
        · rw [if_neg same, if_neg same]

theorem lookup_foldl_assign (pairs held : List (κ × α)) (k : κ) :
    (pairs.foldl (fun held pair => assign pair.1 pair.2 held) held).lookup k =
      (pairs.reverse.lookup k).or (held.lookup k) := by
  induction pairs generalizing held with
  | nil => rfl
  | cons pair rest ih =>
      have first : ([pair].lookup k).or (held.lookup k) =
          if k = pair.1 then some pair.2 else held.lookup k := by
        rw [lookup_cons_eq]
        split
        · rfl
        · rfl
      rw [List.foldl_cons, ih, lookup_assign, List.reverse_cons, List.lookup_append, Option.or_assoc,
        first]

/-- The last pair of a key decides. -/
theorem lookup_assignAll (pairs : List (κ × α)) (k : κ) :
    (assignAll pairs).lookup k = pairs.reverse.lookup k := by
  rw [assignAll, lookup_foldl_assign]
  exact Option.or_none

theorem mem_assignAll_iff {pairs : List (κ × α)} {key : κ} {value : α} :
    (key, value) ∈ assignAll pairs ↔
      ∃ earlier later, pairs = earlier ++ (key, value) :: later ∧ key ∉ later.map Prod.fst := by
  rw [← lookup_eq_some_iff (nodup_assignAll pairs), lookup_assignAll, List.lookup_eq_some_iff]
  constructor
  · rintro ⟨after, before, split, other⟩
    refine ⟨before.reverse, after.reverse, ?_, ?_⟩
    · rw [← List.reverse_reverse pairs, split, List.reverse_append, List.reverse_cons,
        List.append_assoc, List.singleton_append]
    · rw [List.map_reverse, List.mem_reverse, List.mem_map]
      rintro ⟨pair, member, rfl⟩
      exact absurd (other pair member) (by simp)
  · rintro ⟨earlier, later, rfl, other⟩
    refine ⟨later.reverse, earlier.reverse, ?_, ?_⟩
    · rw [List.reverse_append, List.reverse_cons, List.append_assoc, List.singleton_append]
    · intro pair member
      have differs : key ≠ pair.1 := fun same =>
        other (List.mem_map.mpr ⟨pair, List.mem_reverse.mp member, same.symm⟩)
      simpa using differs

end CcdController.Keyed
