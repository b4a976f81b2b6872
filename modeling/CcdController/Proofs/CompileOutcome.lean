import Mathlib.Algebra.GroupWithZero.Nat
import CcdController.Proofs.Layout

/-!
How compiling comes out. `Finds` says which issues there are to report, in terms of the names that
are registered and without any look-up, and `ComesOut` how outcome and events follow from these
issues and from the number of lines. Every assembly comes out that way.
-/
namespace CcdController

inductive FindsNext (modes : List Mode) (mode : Mode) : List Issue → Prop where
  | none (ends : mode.next = none) : FindsNext modes mode []
  | known {next} (named : mode.next = some next) (registered : next ∈ modes.map Mode.name) :
      FindsNext modes mode []
  | unknown {next} (named : mode.next = some next) (missing : next ∉ modes.map Mode.name) :
      FindsNext modes mode [.unknownNext mode.name next]

/-- What there is to report of the parent of a mode. The parent of a parent is not looked for. -/
inductive FindsParent (modes : List Mode) (mode : Mode) : List Issue → Prop where
  | none (top : mode.parent = none) : FindsParent modes mode []
  | unknown {parent} (named : mode.parent = some parent) (missing : parent ∉ modes.map Mode.name) :
      FindsParent modes mode [.unknownParent mode.name parent]
  | single {outer} (registered : outer ∈ modes) (named : mode.parent = some outer.name)
      (top : outer.parent = none) : FindsParent modes mode []
  | double {outer grandparent} (registered : outer ∈ modes)
      (named : mode.parent = some outer.name) (nested : outer.parent = some grandparent) :
      FindsParent modes mode [.doubleNesting mode.name outer.name grandparent]

inductive Finds (modes : List Mode) : List Mode → List Issue → Prop where
  | nil : Finds modes [] []
  | cons {mode rest next parent later} (ofNext : FindsNext modes mode next)
      (ofParent : FindsParent modes mode parent) (ofRest : Finds modes rest later) :
      Finds modes (mode :: rest) (next ++ parent ++ later)

/-- Outcome and events of compiling modes of which `found` is to report and that take `lines`. -/
structure ComesOut (assembly : Assembly) (found : List Issue) (lines : Nat) : Prop where
  inconsistent_iff : ∀ issues, assembly.compile.outcome = .error (.inconsistent issues) ↔
    issues = found ∧ found ≠ []
  memoryOverflow_iff : ∀ actual capacity,
    assembly.compile.outcome = .error (.memoryOverflow actual capacity) ↔
      found = [] ∧ 1023 < lines ∧ actual = lines ∧ capacity = 1023
  compiled_iff : (∃ program, assembly.compile.outcome = .ok program) ↔ found = [] ∧ lines ≤ 1023
  events_eq : assembly.compile.events =
    if found ≠ [] then found.map .inconsistency
    else if 1023 < lines then [] else [.compiled assembly.modes.length lines]
  not_unknownMode : ∀ name, assembly.compile.outcome ≠ .error (.unknownMode name)

namespace Assembly

variable {assembly : Assembly} {mode : Mode}

theorem find?_eq_none_iff {name : String} :
    assembly.find? name = none ↔ name ∉ assembly.modes.map Mode.name := by
  simp [find?, List.find?_eq_none, List.mem_map]

theorem findsNext_nextIssues (assembly : Assembly) (mode : Mode) :
    FindsNext assembly.modes mode (assembly.nextIssues mode) := by
  unfold nextIssues
  split
  · next ends => exact .none ends
  · next next named =>
      split
      · next absent => exact .unknown named (find?_eq_none_iff.mp absent)
      · next other found =>
          obtain ⟨member, rfl⟩ := find?_eq_some_iff.mp found
          exact .known named (List.mem_map_of_mem member)

theorem eq_nextIssues {issues : List Issue} (finds : FindsNext assembly.modes mode issues) :
    issues = assembly.nextIssues mode := by
  unfold nextIssues
  cases finds with
  | none ends => rw [ends]
  | known named registered =>
      obtain ⟨found, member, rfl⟩ := List.mem_map.mp registered
      simp only [named, find?_name member]
  | unknown named missing => simp only [named, find?_eq_none_iff.mpr missing]

theorem findsParent_parentIssues (assembly : Assembly) (mode : Mode) :
    FindsParent assembly.modes mode (assembly.parentIssues mode) := by
  unfold parentIssues
  split
  · next top => exact .none top
  · next parent named =>
      split
      · next absent => exact .unknown named (find?_eq_none_iff.mp absent)
      · next outer found =>
          obtain ⟨member, rfl⟩ := find?_eq_some_iff.mp found
          split
          · next top => exact .single member named top
          · next grandparent nested => exact .double member named nested

theorem eq_parentIssues {issues : List Issue} (finds : FindsParent assembly.modes mode issues) :
    issues = assembly.parentIssues mode := by
  unfold parentIssues
  cases finds with
  | none top => rw [top]
  | unknown named missing => simp only [named, find?_eq_none_iff.mpr missing]
  | single registered named top => simp only [named, find?_name registered, top]
  | double registered named nested => simp only [named, find?_name registered, nested]

/-- There is one list of issues to report: the one that compiling goes by. -/
theorem finds_iff {issues : List Issue} :
    Finds assembly.modes assembly.modes issues ↔ issues = assembly.issues := by
  -- The modes that are searched stay the same while the modes that are visited get fewer.
  have each : ∀ visited issues, Finds assembly.modes visited issues ↔
      issues = visited.flatMap fun mode => assembly.nextIssues mode ++ assembly.parentIssues mode := by
    intro visited
    induction visited with
    | nil =>
        intro issues
        constructor
        · intro finds
          cases finds with
          | nil => rfl
        · intro same
          subst same
          exact .nil
    | cons mode rest ih =>
        intro issues
        rw [List.flatMap_cons]
        constructor
        · intro finds
          cases finds with
          | cons ofNext ofParent ofRest =>
              rw [eq_nextIssues ofNext, eq_parentIssues ofParent, (ih _).mp ofRest]
        · intro same
          subst same
          apply Finds.cons
          · exact assembly.findsNext_nextIssues mode
          · exact assembly.findsParent_parentIssues mode
          · exact (ih _).mpr rfl
  exact each assembly.modes issues

theorem comesOut (assembly : Assembly) :
    ComesOut assembly assembly.issues assembly.lineCount := by
  have capacity : memoryCapacity = 1023 := rfl
  by_cases clean : assembly.issues = []
  · have sound := issues_eq_nil_iff.mp clean
    rcases Nat.lt_or_ge memoryCapacity assembly.lineCount with long | fits
    · have compiled := compile_of_overflow sound long
      rw [capacity] at compiled long
      constructor <;> simp [compiled, clean, long, eq_comm]
    · have compiled := compile_of_fits sound fits
      have short := Nat.not_lt.mpr fits
      rw [capacity] at fits short
      constructor <;> simp only [compiled, clean, fits, short] <;> simp
  · have compiled := compile_of_issues clean
    constructor <;> simp [compiled, clean, eq_comm]

/-- Every assembly compiles, overflows or is refused for its issues, and tells so. -/
theorem compile_comesOut (assembly : Assembly) : ∃ found,
    (∀ issues, Finds assembly.modes assembly.modes issues ↔ issues = found) ∧
    ComesOut assembly found (assembly.modes.map fun mode => 1 + mode.states.length).sum := by
  refine ⟨assembly.issues, fun _ => finds_iff, ?_⟩
  have lines := lineCount_eq_sum assembly
  unfold Mode.lineCount at lines
  rw [← lines]
  exact assembly.comesOut

example : (Assembly.compile {
    modes := [
      { name := "spin", loopCount := 1, next := none, nesting := some ⟨"spin", 1, by decide⟩
        states := [], states_le := by decide }]
    names_nodup := by decide }).outcome =
      .error (.inconsistent [.doubleNesting "spin" "spin" "spin"]) := by
  rfl

end Assembly

end CcdController
