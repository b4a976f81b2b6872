import Mathlib.Algebra.GroupWithZero.Nat
import CcdController.Assembly
import CcdController.Program.Trace

/-!
Runs over the modes of an assembly, followed by name. Nothing here knows of addresses or of memory:
`Plays` says which steps a run records from a mode on, and `Plays.unique` that it leaves no choice.
-/
namespace CcdController

structure Played where
  mode : String
  repetitions : Nat
  ticks : Nat
  deriving DecidableEq, Repr

def Visit.played (visit : Visit) : Played := ⟨visit.mode, visit.repetitions, visit.ticks⟩

def ticksOf (steps : List Played) : Nat := (steps.map Played.ticks).sum

/-- What comes of a mode that does not loop forever: the step recorded, if there is one, the returns
to parents counted from then on, and the mode that is next. -/
structure Turn where
  step : Option Played
  returns : Nat
  target : Option String

namespace Mode

def period (mode : Mode) : Nat := (mode.states.map TimingState.holdTime).sum

def turn (mode : Mode) (returns : Nat) : Turn :=
  match mode.nesting with
  | none =>
      { step := some ⟨mode.name, mode.loopCount.toNat, mode.loopCount.toNat * mode.period⟩
        returns
        target := mode.next }
  | some nesting =>
      if returns < nesting.returns.toNat then
        { step := some ⟨mode.name, 1, mode.period⟩
          returns := returns + 1
          target := some nesting.parent }
      else { step := none, returns := 0, target := mode.next }

end Mode

/-- `Plays name returns before after`: a run that has recorded `before` and counted `returns` goes on
at the mode `name` and records `after`. -/
inductive Assembly.Plays (assembly : Assembly) (budget : Nat) :
    String → Nat → List Played → List Played → Prop where
  | full {name returns before} (limit : visitLimit ≤ before.length) :
      Plays assembly budget name returns before []
  | forever {name returns before mode} (room : before.length < visitLimit)
      (found : assembly.find? name = some mode) (endless : mode.loopCount = 0) :
      Plays assembly budget name returns before [⟨name, 0, 0⟩]
  | stops {name returns before mode} (room : before.length < visitLimit)
      (found : assembly.find? name = some mode) (finite : mode.loopCount ≠ 0)
      (ended : (mode.turn returns).target = none ∨
        budget ≤ ticksOf (before ++ (mode.turn returns).step.toList)) :
      Plays assembly budget name returns before (mode.turn returns).step.toList
  | goesOn {name returns before mode next after} (room : before.length < visitLimit)
      (found : assembly.find? name = some mode) (finite : mode.loopCount ≠ 0)
      (target : (mode.turn returns).target = some next)
      (left : ticksOf (before ++ (mode.turn returns).step.toList) < budget)
      (rest : Plays assembly budget next (mode.turn returns).returns
        (before ++ (mode.turn returns).step.toList) after) :
      Plays assembly budget name returns before ((mode.turn returns).step.toList ++ after)

theorem ticksOf_append (first second : List Played) :
    ticksOf (first ++ second) = ticksOf first + ticksOf second := by
  rw [ticksOf, List.map_append, List.sum_append]
  rfl

namespace Mode

variable {mode : Mode} {returns : Nat}

/-- A mode of which nothing is recorded has counted returns before, and counts none afterwards. -/
theorem turn_of_silent (silent : (mode.turn returns).step = none) :
    0 < returns ∧ (mode.turn returns).returns = 0 := by
  unfold turn at silent ⊢
  cases nested : mode.nesting with
  | none => simp [nested] at silent
  | some nesting =>
      rw [nested] at silent
      by_cases again : returns < nesting.returns.toNat
      · simp [again] at silent
      · have least : 0 < nesting.returns.toNat := UInt16.lt_iff_toNat_lt.mp nesting.returns_pos
        simp only [if_neg again, and_true]
        omega

/-- The next mode is one that the mode refers to. -/
theorem turn_target (mode : Mode) (returns : Nat) :
    (mode.turn returns).target = mode.next ∨
      ∃ nesting, mode.nesting = some nesting ∧ (mode.turn returns).target = some nesting.parent := by
  unfold turn
  cases nested : mode.nesting with
  | none => exact .inl rfl
  | some nesting =>
      by_cases again : returns < nesting.returns.toNat
      · exact .inr ⟨nesting, rfl, by simp only [if_pos again]⟩
      · exact .inl (by simp only [if_neg again])

end Mode

namespace Assembly

variable {assembly : Assembly} {budget : Nat}

theorem not_over {turn : Turn} {ticks : Nat} {next : String} (target : turn.target = some next)
    (left : ticks < budget) : ¬ (turn.target = none ∨ budget ≤ ticks) := by
  rintro (none | spent)
  · rw [target] at none
    cases none
  · exact absurd left (Nat.not_lt.mpr spent)

theorem Plays.unique {name : String} {returns : Nat} {before one other : List Played}
    (first : assembly.Plays budget name returns before one)
    (second : assembly.Plays budget name returns before other) : one = other := by
  induction first generalizing other with
  | full limit =>
      cases second with
      | full => rfl
      | forever room | stops room | goesOn room => exact absurd room (Nat.not_lt.mpr limit)
  | forever room found endless =>
      cases second with
      | full limit => exact absurd room (Nat.not_lt.mpr limit)
      | forever => rfl
      | stops _ found' finite | goesOn _ found' finite =>
          cases found.symm.trans found'
          exact absurd endless finite
  | stops room found finite ended =>
      cases second with
      | full limit => exact absurd room (Nat.not_lt.mpr limit)
      | forever _ found' endless =>
          cases found.symm.trans found'
          exact absurd endless finite
      | stops _ found' =>
          cases found.symm.trans found'
          rfl
      | goesOn _ found' _ target left =>
          cases found.symm.trans found'
          exact absurd ended (not_over target left)
  | goesOn room found finite target left rest ih =>
      cases second with
      | full limit => exact absurd room (Nat.not_lt.mpr limit)
      | forever _ found' endless =>
          cases found.symm.trans found'
          exact absurd endless finite
      | stops _ found' _ ended =>
          cases found.symm.trans found'
          exact absurd ended (not_over target left)
      | goesOn _ found' _ target' _ rest' =>
          cases found.symm.trans found'
          cases target.symm.trans target'
          rw [ih rest']

end Assembly

end CcdController
