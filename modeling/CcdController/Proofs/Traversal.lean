import Mathlib.Data.List.Forall2

namespace CcdController

variable {α β ε : Type} {f : α → Except ε β} {items : List α}

theorem mapM_eq_ok_iff {results : List β} : items.mapM f = .ok results ↔
    List.Forall₂ (fun item result => f item = .ok result) items results := by
  induction items generalizing results with
  | nil =>
      rw [List.mapM_nil, List.forall₂_nil_left_iff]
      exact ⟨fun same => (Except.ok.inj same).symm, fun none => none ▸ rfl⟩
  | cons item items ih =>
      rw [List.mapM_cons, List.forall₂_cons_left_iff]
      constructor
      · intro done
        cases first : f item with
        | error failure =>
            rw [first] at done
            cases done
        | ok result =>
            cases others : items.mapM f with
            | error failure =>
                rw [first, others] at done
                cases done
            | ok later =>
                rw [first, others] at done
                cases done
                exact ⟨result, later, rfl, ih.mp others, rfl⟩
      · rintro ⟨result, later, first, others, rfl⟩
        rw [first, ih.mpr others]
        rfl

theorem getElem?_of_mapM {results : List β} (done : items.mapM f = .ok results) (i : Nat) :
    items[i]?.map f = results[i]?.map .ok := by
  have each := mapM_eq_ok_iff.mp done
  clear done
  induction each generalizing i with
  | nil => rfl
  | cons first _ ih =>
      cases i with
      | zero => exact congrArg some first
      | succ i => exact ih i

theorem mapM_eq_ok {results : List β} (same : items.length = results.length)
    (each : ∀ (i : Nat) (item : α) (result : β), items[i]? = some item →
      results[i]? = some result → f item = .ok result) : items.mapM f = .ok results := by
  apply mapM_eq_ok_iff.mpr
  apply List.forall₂_of_length_eq_of_get same
  intro i there taken
  exact each i _ _ (List.getElem?_eq_getElem there) (List.getElem?_eq_getElem taken)

theorem mapM_eq_ok_map {g : α → β} (each : ∀ item ∈ items, f item = .ok (g item)) :
    items.mapM f = .ok (items.map g) := by
  apply mapM_eq_ok (List.length_map g).symm
  intro i item result there taken
  rw [List.getElem?_map, there] at taken
  rw [each item (List.mem_of_getElem? there), ← Option.some.inj taken]

theorem mapM_eq_some_iff {g : α → Option β} {results : List β} : items.mapM g = some results ↔
    List.Forall₂ (fun item result => g item = some result) items results := by
  induction items generalizing results with
  | nil =>
      rw [List.mapM_nil, List.forall₂_nil_left_iff]
      exact ⟨fun same => (Option.some.inj same).symm, fun none => none ▸ rfl⟩
  | cons item items ih =>
      rw [List.mapM_cons, List.forall₂_cons_left_iff]
      constructor
      · intro done
        obtain ⟨result, first, done⟩ := Option.bind_eq_some_iff.mp done
        obtain ⟨later, others, done⟩ := Option.bind_eq_some_iff.mp done
        exact ⟨result, later, first, ih.mp others, (Option.some.inj done).symm⟩
      · rintro ⟨result, later, first, others, rfl⟩
        rw [first, ih.mpr others]
        rfl

theorem exists_forall₂ {R : α → β → Prop} (each : ∀ item ∈ items, ∃ result, R item result) :
    ∃ results, List.Forall₂ R items results := by
  induction items with
  | nil => exact ⟨[], .nil⟩
  | cons item items ih =>
      obtain ⟨⟨result, first⟩, rest⟩ := List.forall_mem_cons.mp each
      obtain ⟨results, others⟩ := ih rest
      exact ⟨result :: results, .cons first others⟩

theorem exists_of_forall₂ {R : α → β → Prop} {results : List β}
    (related : List.Forall₂ R items results) : ∀ item ∈ items, ∃ result, R item result := by
  have both := related.imp fun item result there =>
    And.intro (Exists.intro result there : ∃ result, R item result) there
  exact ((List.forall₂_and_left _ _).mp both).1

theorem forall₂_congr_of_mem {R S : α → β → Prop} {results : List β}
    (same : ∀ item ∈ items, ∀ result, R item result ↔ S item result) :
    List.Forall₂ R items results ↔ List.Forall₂ S items results := by
  induction items generalizing results with
  | nil => simp only [List.forall₂_nil_left_iff]
  | cons item items ih =>
      obtain ⟨first, others⟩ := List.forall_mem_cons.mp same
      simp only [List.forall₂_cons_left_iff, first, ih others]

theorem mapM_cons_eq_error_iff {item : α} {failure : ε} :
    (item :: items).mapM f = .error failure ↔
      f item = .error failure ∨ (∃ result, f item = .ok result) ∧ items.mapM f = .error failure := by
  rw [List.mapM_cons]
  cases f item with
  | error other => simp [bind, Except.bind]
  | ok result => cases items.mapM f <;> simp [bind, Except.bind, pure, Except.pure]

/-- A traversal comes to the failure of the first item that fails. -/
theorem mapM_eq_error_iff {failure : ε} : items.mapM f = .error failure ↔
    ∃ earlier item later, items = earlier ++ item :: later ∧
      (∀ before ∈ earlier, ∃ result, f before = .ok result) ∧ f item = .error failure := by
  induction items with
  | nil =>
      constructor
      · intro failed
        cases failed
      · rintro ⟨earlier, item, later, split, -⟩
        cases (List.append_eq_nil_iff.mp split.symm).2
  | cons first items ih =>
      rw [mapM_cons_eq_error_iff, ih]
      constructor
      · rintro (failed | ⟨done, earlier, item, later, rfl, others, fails⟩)
        · exact ⟨[], first, items, rfl, fun before member => absurd member List.not_mem_nil, failed⟩
        · exact ⟨first :: earlier, item, later, rfl, List.forall_mem_cons.mpr ⟨done, others⟩, fails⟩
      · rintro ⟨earlier, item, later, split, done, fails⟩
        cases earlier with
        | nil =>
            obtain ⟨rfl, rfl⟩ := List.cons.inj split
            exact .inl fails
        | cons before earlier =>
            obtain ⟨rfl, rfl⟩ := List.cons.inj split
            obtain ⟨front, others⟩ := List.forall_mem_cons.mp done
            exact .inr ⟨front, earlier, item, later, rfl, others, fails⟩

theorem exists_getElem?_of_mapM {failure : ε} (failed : items.mapM f = .error failure) :
    ∃ (i : Nat) (item : α), items[i]? = some item ∧ f item = .error failure ∧
      ∀ j < i, ∀ before, items[j]? = some before → ∃ result, f before = .ok result := by
  obtain ⟨earlier, item, later, rfl, done, fails⟩ := mapM_eq_error_iff.mp failed
  have there : (earlier ++ item :: later)[earlier.length]? = some item := by simp
  refine ⟨earlier.length, item, there, fails, ?_⟩
  intro j less before there
  rw [List.getElem?_append_left less] at there
  exact done before (List.mem_of_getElem? there)

theorem mapM_eq_error {failure : ε}
    (each : ∀ item ∈ items, f item = .error failure ∨ ∃ result, f item = .ok result)
    (fails : ∃ item ∈ items, f item = .error failure) : items.mapM f = .error failure := by
  induction items with
  | nil =>
      obtain ⟨item, member, -⟩ := fails
      cases member
  | cons item items ih =>
      obtain ⟨first, rest⟩ := List.forall_mem_cons.mp each
      rw [List.mapM_cons]
      rcases first with failed | ⟨result, done⟩
      · rw [failed]
        rfl
      · have later : ∃ item ∈ items, f item = .error failure := by
          obtain ⟨other, member, failed⟩ := fails
          rcases List.mem_cons.mp member with rfl | member
          · rw [done] at failed
            cases failed
          · exact ⟨other, member, failed⟩
        rw [done, ih rest later]
        rfl

theorem eq_of_first {passes : α → Prop} {earlier later earlier' later' : List α}
    {item item' : α} (same : earlier ++ item :: later = earlier' ++ item' :: later')
    (before : ∀ item ∈ earlier, passes item) (before' : ∀ item ∈ earlier', passes item)
    (fails : ¬ passes item) (fails' : ¬ passes item') : item = item' := by
  induction earlier generalizing earlier' with
  | nil =>
      cases earlier' with
      | nil => exact (List.cons.inj same).1
      | cons first earlier' =>
          have head : item = first := (List.cons.inj same).1
          rw [head] at fails
          exact absurd (before' first (by simp)) fails
  | cons first earlier ih =>
      cases earlier' with
      | nil =>
          have head : first = item' := (List.cons.inj same).1
          rw [← head] at fails'
          exact absurd (before first (by simp)) fails'
      | cons first' earlier' =>
          apply ih (List.cons.inj same).2
          · exact (List.forall_mem_cons.mp before).2
          · exact (List.forall_mem_cons.mp before').2

end CcdController
