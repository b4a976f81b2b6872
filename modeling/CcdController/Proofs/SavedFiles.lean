import Mathlib.Logic.Basic
import CcdController.Cli.Run
import CcdController.Proofs.Keyed

namespace CcdController.Cli

namespace Tree

/-- The names lead from a directory to a place in a directory that is none itself. -/
inductive Reaches (tree : Tree) (target : Place) : Place → List String → Prop
  | last {place : Place} {name : String} (plain : ¬ (name = "" ∨ name = ".")) (other : name ≠ "..")
      (short : ¬ name.utf8ByteSize > nameLimit) (ends : target = name :: place)
      (free : tree.entry? target ≠ some .directory) : Reaches tree target place [name]
  | stay {place : Place} {name : String} {rest : List String} (blank : name = "" ∨ name = ".")
      (further : Reaches tree target place rest) : Reaches tree target place (name :: rest)
  | up {place : Place} {rest : List String} (further : Reaches tree target place.tail rest) :
      Reaches tree target place (".." :: rest)
  | down {place : Place} {name : String} {rest : List String} (plain : ¬ (name = "" ∨ name = "."))
      (other : name ≠ "..") (short : ¬ name.utf8ByteSize > nameLimit)
      (there : tree.entry? (name :: place) = some .directory)
      (further : Reaches tree target (name :: place) rest) : Reaches tree target place (name :: rest)

variable {tree : Tree} {place target : Place} {names : List String} {path : String}

def findingAt (tree : Tree) (target : Place) : Finding :=
  match tree.entry? target with
  | some (.file contents) => .file target contents
  | _ => .room target

theorem walk_cases {finding : Finding} (found : tree.walk place names = .ok finding) :
    finding = .directory ∨ finding = .noDirectory ∨
      ∃ target, finding = tree.findingAt target ∧ Reaches tree target place names := by
  fun_induction walk tree place names with
  | case1 place =>
      cases found
      exact .inl rfl
  | case2 place name rest blank ih =>
      refine (ih found).imp_right (Or.imp_right ?_)
      exact fun ⟨target, ends, reaches⟩ => ⟨target, ends, .stay blank reaches⟩
  | case3 place rest plain ih =>
      refine (ih found).imp_right (Or.imp_right ?_)
      exact fun ⟨target, ends, reaches⟩ => ⟨target, ends, .up reaches⟩
  | case4 => cases found
  | case5 place name rest plain other short there ih =>
      refine (ih found).imp_right (Or.imp_right ?_)
      exact fun ⟨target, ends, reaches⟩ => ⟨target, ends, .down plain other short there reaches⟩
  | case6 place name plain other short contents there =>
      cases found
      refine .inr (.inr ⟨name :: place, ?_, .last plain other short rfl ?_⟩)
      · rw [findingAt, there]
      · simp [there]
  | case7 => cases found
  | case8 place name plain other short vacant =>
      cases found
      refine .inr (.inr ⟨name :: place, ?_, .last plain other short rfl ?_⟩)
      · rw [findingAt, vacant]
      · simp [vacant]
  | case9 =>
      cases found
      exact .inr (.inl rfl)
  | case10 => cases found

theorem Reaches.free (reaches : Reaches tree target place names) :
    tree.entry? target ≠ some .directory := by
  induction reaches with
  | last _ _ _ _ free => exact free
  | stay _ _ ih => exact ih
  | up _ ih => exact ih
  | down _ _ _ _ _ ih => exact ih

theorem Reaches.walk_eq (reaches : Reaches tree target place names) :
    tree.walk place names = .ok (tree.findingAt target) := by
  induction reaches with
  | last plain other short ends free =>
      subst ends
      rw [walk, if_neg plain, if_neg other, if_neg short, findingAt]
      split <;> simp_all
  | stay blank _ ih =>
      rw [walk, if_pos blank, ih]
  | up _ ih =>
      rw [walk, if_neg (by decide), if_pos rfl, ih]
  | down plain other short there _ ih =>
      rw [walk, if_neg plain, if_neg other, if_neg short, there, ih]

theorem Reaches.inside (reaches : Reaches tree target place names) : target ≠ [] := by
  rintro rfl
  exact reaches.free rfl

/-- Places are compared in two ways, which agree. -/
theorem lookup_entries (entries : List (Place × Entry)) (other : Place) :
    entries.lookup other = @List.lookup _ _ instBEqOfDecidableEq other entries := by
  congr
  exact lawful_beq_subsingleton _ _

theorem entry?_put (inside : target ≠ []) (contents : ByteArray) (other : Place) :
    Tree.entry? (tree.put target contents) other =
      if other = target then some (.file contents) else tree.entry? other := by
  cases other with
  | nil => rw [if_neg (Ne.symm inside), entry?, entry?]
  | cons name above => simp only [ entry?, put, lookup_entries, Keyed.lookup_assign]

theorem Reaches.put (reaches : Reaches tree target place names) (contents : ByteArray) :
    Reaches (tree.put target contents) target place names := by
  have inside := reaches.inside
  -- No directory was at the place, so the walk still passes the same ones.
  have free := reaches.free
  induction reaches with
  | last plain other short ends _ =>
      refine .last plain other short ends ?_
      simp [entry?_put inside]
  | stay blank _ ih => exact .stay blank ih
  | up _ ih => exact .up ih
  | down plain other short there _ ih =>
      refine .down plain other short ?_ ih
      rw [entry?_put inside, if_neg, there]
      exact fun same => free (same ▸ there)

def Names (tree : Tree) (path : String) (target : Place) : Prop :=
  path ≠ "" ∧ ∃ names, namesOf path = .ok names ∧ Reaches tree target (tree.start path) names

theorem Names.find_eq (names : Names tree path target) :
    tree.find path = .ok (tree.findingAt target) := by
  obtain ⟨some, parts, split, reaches⟩ := names
  rw [find, if_neg some, split]
  exact reaches.walk_eq

theorem Names.put (names : Names tree path target) (contents : ByteArray) :
    Names (tree.put target contents) path target := by
  obtain ⟨some, parts, split, reaches⟩ := names
  exact ⟨some, parts, split, reaches.put contents⟩

theorem Names.inside (names : Names tree path target) : target ≠ [] := by
  obtain ⟨-, parts, -, reaches⟩ := names
  exact reaches.inside

theorem Names.find_put (names : Names tree path target) (contents : ByteArray) :
    (tree.put target contents).find path = .ok (.file target contents) := by
  rw [(names.put contents).find_eq, findingAt, entry?_put names.inside, if_pos rfl]

theorem exists_names (clear : tree.obstacle? path = none) : ∃ target, Names tree path target := by
  have found : ∃ finding, tree.find path = .ok finding ∧ finding ≠ .directory ∧
      finding ≠ .noDirectory := by
    unfold obstacle? at clear
    split at clear
    · next place contents found => exact ⟨_, found, nofun, nofun⟩
    · next place found => exact ⟨_, found, nofun, nofun⟩
    · cases clear
    · cases clear
    · cases clear
  obtain ⟨finding, found, file, room⟩ := found
  unfold find at found
  split at found
  · cases found
  · next some =>
      cases split : namesOf path with
      | error fault =>
          rw [split] at found
          cases found
      | ok parts =>
          rw [split] at found
          rcases walk_cases found with directory | none | ⟨target, -, reaches⟩
          · exact absurd directory file
          · exact absurd none room
          · exact ⟨target, some, parts, split, reaches⟩

theorem Names.create_eq (names : Names tree path target) :
    tree.create path = tree.put target .empty := by
  rw [create, names.find_eq, findingAt]
  cases tree.entry? target with
  | none => rfl
  | some entry => cases entry <;> rfl

theorem append_eq {contents : ByteArray} (found : tree.find path = .ok (.file target contents))
    (text : String) : tree.append path text = tree.put target (contents ++ text.toUTF8) := by
  rw [append, found]

theorem read_eq {contents : ByteArray} (found : tree.find path = .ok (.file target contents)) :
    tree.read path = .ok contents := by
  rw [read, found]
  rfl

theorem Names.read_appended (names : Names tree path target) {contents : ByteArray}
    (found : tree.find path = .ok (.file target contents)) (texts : List String) :
    ((texts.map (Effect.append path)).foldl perform tree).read path =
      .ok (contents ++ (String.join texts).toUTF8) := by
  -- After each text the path still leads to the file, which now holds the text behind all others.
  induction texts generalizing tree contents with
  | nil => simpa using read_eq found
  | cons text texts ih =>
      have grown : tree.perform (.append path text) = tree.put target (contents ++ text.toUTF8) :=
        append_eq found text
      have later := ih (names.put _) (names.find_put (contents ++ text.toUTF8))
      rw [List.map_cons, List.foldl_cons, grown, later]
      simp [ByteArray.append_assoc]

/-- A new file holds the texts that were appended to it. -/
theorem read_saved (clear : tree.obstacle? path = none) (texts : List String) :
    ((Effect.create path :: texts.map (Effect.append path)).foldl perform tree).read path =
      .ok (String.join texts).toUTF8 := by
  obtain ⟨target, names⟩ := exists_names clear
  have created : tree.perform (.create path) = tree.put target .empty := names.create_eq
  rw [List.foldl_cons, created, (names.put _).read_appended (names.find_put _)]
  simp

end Tree

end CcdController.Cli
