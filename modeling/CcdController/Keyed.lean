namespace CcdController.Keyed

variable {κ α : Type} [DecidableEq κ]

def assign (key : κ) (value : α) : List (κ × α) → List (κ × α)
  | [] => [(key, value)]
  | pair :: rest =>
      if pair.1 = key then (key, value) :: rest else pair :: assign key value rest

/-- Assigns pairs in order, so that the last pair of a key decides. -/
def assignAll (pairs : List (κ × α)) : List (κ × α) :=
  pairs.foldl (fun held pair => assign pair.1 pair.2 held) []

theorem mem_keys_assign {key k : κ} {value : α} {held : List (κ × α)} :
    k ∈ (assign key value held).map Prod.fst ↔ k = key ∨ k ∈ held.map Prod.fst := by
  induction held with
  | nil => simp [assign]
  | cons pair rest ih =>
      by_cases same : pair.1 = key
      · simp [assign, same]
      · rw [assign, if_neg same, List.map_cons, List.mem_cons, ih, List.map_cons, List.mem_cons]
        exact or_left_comm

theorem nodup_assign {key : κ} {value : α} {held : List (κ × α)}
    (h : (held.map Prod.fst).Nodup) : ((assign key value held).map Prod.fst).Nodup := by
  induction held with
  | nil => simp [assign]
  | cons pair rest ih =>
      rw [List.map_cons, List.nodup_cons] at h
      by_cases same : pair.1 = key
      · subst same
        simpa [assign] using h
      · rw [assign, if_neg same, List.map_cons, List.nodup_cons, mem_keys_assign]
        exact ⟨fun both => both.elim same h.1, ih h.2⟩

theorem nodup_foldl_assign (pairs held : List (κ × α)) (h : (held.map Prod.fst).Nodup) :
    ((pairs.foldl (fun held pair => assign pair.1 pair.2 held) held).map Prod.fst).Nodup := by
  induction pairs generalizing held with
  | nil => exact h
  | cons pair rest ih => exact ih _ (nodup_assign h)

theorem nodup_assignAll (pairs : List (κ × α)) : ((assignAll pairs).map Prod.fst).Nodup :=
  nodup_foldl_assign pairs [] List.nodup_nil

theorem mem_of_mem_assign {key : κ} {value : α} {held : List (κ × α)} {pair : κ × α}
    (h : pair ∈ assign key value held) : pair = (key, value) ∨ pair ∈ held := by
  induction held with
  | nil => simpa [assign] using h
  | cons first rest ih =>
      by_cases same : first.1 = key
      · rw [assign, if_pos same, List.mem_cons] at h
        exact h.imp_right (List.mem_cons_of_mem _)
      · rw [assign, if_neg same, List.mem_cons] at h
        rcases h with rfl | h
        · exact .inr List.mem_cons_self
        · exact (ih h).imp_right (List.mem_cons_of_mem _)

theorem mem_of_mem_foldl_assign {pairs : List (κ × α)} {held : List (κ × α)} {pair : κ × α}
    (h : pair ∈ pairs.foldl (fun held pair => assign pair.1 pair.2 held) held) :
    pair ∈ pairs ∨ pair ∈ held := by
  induction pairs generalizing held with
  | nil => exact .inr h
  | cons first rest ih =>
      rcases ih h with h | h
      · exact .inl (List.mem_cons_of_mem _ h)
      · rcases mem_of_mem_assign h with rfl | h
        · exact .inl List.mem_cons_self
        · exact .inr h

theorem mem_of_mem_assignAll {pairs : List (κ × α)} {pair : κ × α} (h : pair ∈ assignAll pairs) :
    pair ∈ pairs := by
  exact (mem_of_mem_foldl_assign h).resolve_right List.not_mem_nil

end CcdController.Keyed
