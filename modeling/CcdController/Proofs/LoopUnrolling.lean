import CcdController.Proofs.TraceRounds

/-!
Nested loops. A mode and the mode nested in it take turns as often as the nested mode returns, then
the outer one plays once more and the run goes on behind the nested one as if it had started there:
no return is counted any more, and only the ticks and the visits so far are missing from what the run
may still spend and record. `Plays.shift` compares the two runs.
-/
namespace CcdController

def withinLimit (before after : List Played) : List Played := after.take (visitLimit - before.length)

theorem withinLimit_of_full {before : List Played} (limit : visitLimit ≤ before.length)
    (after : List Played) : withinLimit before after = [] := by
  rw [withinLimit, Nat.sub_eq_zero_of_le limit, List.take_zero]

theorem withinLimit_toList {before : List Played} (room : before.length < visitLimit)
    (step : Option Played) : withinLimit before step.toList = step.toList := by
  apply List.take_of_length_le
  have one : step.toList.length ≤ 1 := Option.length_toList_le
  omega

theorem withinLimit_append {before : List Played} (room : before.length < visitLimit)
    (step : Option Played) (after : List Played) :
    withinLimit before (step.toList ++ after) =
      step.toList ++ withinLimit (before ++ step.toList) after := by
  have whole := withinLimit_toList room step
  rw [withinLimit, List.take_append, Nat.sub_sub, ← List.length_append]
  exact congrArg (· ++ _) whole

namespace Assembly

variable {assembly : Assembly} {budget : Nat} {name next : String} {returns : Nat}
  {before after : List Played} {mode : Mode}

namespace Plays

theorem full_withinLimit (limit : visitLimit ≤ before.length) (after : List Played) :
    assembly.Plays budget name returns before (withinLimit before after) := by
  rw [withinLimit_of_full limit]
  exact .full limit

theorem stops_withinLimit (found : assembly.find? name = some mode) (finite : mode.loopCount ≠ 0)
    (ended : (mode.turn returns).target = none ∨
      budget ≤ ticksOf (before ++ (mode.turn returns).step.toList)) :
    assembly.Plays budget name returns before
      (withinLimit before (mode.turn returns).step.toList) := by
  by_cases limit : visitLimit ≤ before.length
  · exact full_withinLimit limit _
  · have room := Nat.lt_of_not_le limit
    rw [withinLimit_toList room]
    exact .stops room found finite ended

theorem goesOn_withinLimit {step : Option Played} {counted : Nat}
    (found : assembly.find? name = some mode) (finite : mode.loopCount ≠ 0)
    (turn_eq : mode.turn returns = ⟨step, counted, some next⟩)
    (left : ticksOf (before ++ step.toList) < budget)
    (rest : assembly.Plays budget next counted (before ++ step.toList)
      (withinLimit (before ++ step.toList) after)) :
    assembly.Plays budget name returns before (withinLimit before (step.toList ++ after)) := by
  by_cases limit : visitLimit ≤ before.length
  · exact full_withinLimit limit _
  · have room := Nat.lt_of_not_le limit
    have goesOn := @goesOn assembly budget name returns before mode next
      (withinLimit (before ++ step.toList) after) room found finite
    rw [turn_eq] at goesOn
    rw [withinLimit_append room]
    exact goesOn rfl left rest

/-- Behind other steps a run records the same, as far as there is room, if it may spend so much more as
the steps have taken. -/
theorem shift (plays : assembly.Plays budget name returns before after) (front : List Played) :
    assembly.Plays (ticksOf front + budget) name returns (front ++ before)
      (withinLimit (front ++ before) after) := by
  have ticks (steps : List Played) :
      ticksOf (front ++ before ++ steps) = ticksOf front + ticksOf (before ++ steps) := by
    rw [List.append_assoc, ticksOf_append]
  induction plays with
  | full limit =>
      apply full_withinLimit
      rw [List.length_append]
      omega
  | @forever name returns before mode room found endless =>
      by_cases limit : visitLimit ≤ (front ++ before).length
      · exact full_withinLimit limit _
      · have space := Nat.lt_of_not_le limit
        have kept := withinLimit_toList space (some ⟨name, 0, 0⟩)
        rw [Option.toList_some] at kept
        rw [kept]
        exact .forever space found endless
  | stops room found finite ended =>
      apply stops_withinLimit found finite
      rw [ticks]
      exact ended.imp_right fun spent => Nat.add_le_add_left spent _
  | @goesOn name returns before mode next after room found finite target left rest ih =>
      have turn_eq : mode.turn returns =
          ⟨(mode.turn returns).step, (mode.turn returns).returns, some next⟩ := by rw [← target]
      apply goesOn_withinLimit found finite turn_eq
      · rw [ticks]
        exact Nat.add_lt_add_left left _
      · rw [List.append_assoc]
        apply ih
        intro steps
        rw [List.append_assoc, ticksOf_append]

end Plays

end Assembly

/-- `inner` is nested in `outer`, which leads to it, and returns a number of times. Neither loops
forever. -/
structure Mode.Encloses (outer inner : Mode) (returns : Nat) : Prop where
  flat : outer.nesting = none
  leads : outer.next = some inner.name
  nested : ∃ nesting, inner.nesting = some nesting ∧ nesting.parent = outer.name ∧
    nesting.returns.toNat = returns
  outer_finite : outer.loopCount ≠ 0
  inner_finite : inner.loopCount ≠ 0

namespace Mode

def loopStep (outer : Mode) : Played :=
  ⟨outer.name, outer.loopCount.toNat, outer.loopCount.toNat * outer.period⟩

def nestedStep (inner : Mode) : Played := ⟨inner.name, 1, inner.period⟩

/-- What is recorded until the inner mode goes on, with a number of returns still to be made. -/
def unrolled (outer inner : Mode) (count : Nat) : List Played :=
  (List.replicate count [outer.loopStep, inner.nestedStep]).flatten ++ [outer.loopStep]

def unrolledTicks (outer inner : Mode) (count : Nat) : Nat :=
  (count + 1) * (outer.loopCount.toNat * outer.period) + count * inner.period

variable {outer inner : Mode} {returns count : Nat}

theorem unrolled_succ (outer inner : Mode) (count : Nat) :
    outer.unrolled inner (count + 1) =
      outer.loopStep :: inner.nestedStep :: outer.unrolled inner count := by
  rw [unrolled, List.replicate_succ, List.flatten_cons]
  rfl

theorem ticksOf_unrolled (outer inner : Mode) (count : Nat) :
    ticksOf (outer.unrolled inner count) = outer.unrolledTicks inner count := by
  induction count with
  | zero => simp [unrolled, unrolledTicks, ticksOf, loopStep]
  | succ count ih =>
      have first : ticksOf (outer.unrolled inner (count + 1)) =
          outer.loopCount.toNat * outer.period +
            (inner.period + ticksOf (outer.unrolled inner count)) := by
        rw [unrolled_succ]
        rfl
      rw [first, ih]
      simp only [unrolledTicks, Nat.succ_mul]
      omega

theorem Encloses.turn_outer (encloses : outer.Encloses inner returns) (counted : Nat) :
    outer.turn counted = ⟨some outer.loopStep, counted, some inner.name⟩ := by
  rw [turn, encloses.flat, encloses.leads]
  rfl

theorem Encloses.turn_inner (encloses : outer.Encloses inner returns) {counted : Nat}
    (again : counted < returns) :
    inner.turn counted = ⟨some inner.nestedStep, counted + 1, some outer.name⟩ := by
  obtain ⟨nesting, nested, parent, rfl⟩ := encloses.nested
  simp only [turn, nested, if_pos again, parent]
  rfl

theorem Encloses.turn_done (encloses : outer.Encloses inner returns) :
    inner.turn returns = ⟨none, 0, inner.next⟩ := by
  obtain ⟨nesting, nested, -, rfl⟩ := encloses.nested
  simp only [turn, nested, if_neg (Nat.lt_irrefl _)]

end Mode

namespace Assembly

variable {assembly : Assembly} {budget : Nat} {outer inner : Mode} {returns : Nat}

def PlaysBehind (assembly : Assembly) (mode : Mode) (left : Nat) (rest : List Played) : Prop :=
  match mode.next with
  | none => rest = []
  | some next => assembly.Plays left next 0 [] rest

section

variable (encloses : outer.Encloses inner returns)
  (outerFound : assembly.find? outer.name = some outer)
  (innerFound : assembly.find? inner.name = some inner)

include encloses

include innerFound in
/-- After the last return the inner mode records nothing, and the run goes on as a new one. -/
theorem plays_done {before rest : List Played} (left : ticksOf before < budget)
    (behind : assembly.PlaysBehind inner (budget - ticksOf before) rest) :
    assembly.Plays budget inner.name returns before (withinLimit before rest) := by
  have turn := encloses.turn_done
  have silent : (inner.turn returns).step.toList = [] := by
    rw [turn]
    rfl
  unfold PlaysBehind at behind
  cases next_eq : inner.next with
  | none =>
      rw [next_eq] at behind
      rw [behind, ← silent]
      apply Plays.stops_withinLimit innerFound encloses.inner_finite
      rw [turn]
      exact .inl next_eq
  | some next =>
      rw [next_eq] at behind
      have shifted := behind.shift before
      rw [Nat.add_sub_of_le (Nat.le_of_lt left)] at shifted
      rw [next_eq] at turn
      have still : before ++ (none : Option Played).toList = before := List.append_nil before
      rw [← still] at left
      exact Plays.goesOn_withinLimit innerFound encloses.inner_finite turn left shifted

include outerFound in
theorem plays_outer {before after : List Played} {counted : Nat}
    (left : ticksOf (before ++ [outer.loopStep]) < budget)
    (rest : assembly.Plays budget inner.name counted (before ++ [outer.loopStep])
      (withinLimit (before ++ [outer.loopStep]) after)) :
    assembly.Plays budget outer.name counted before
      (withinLimit before (outer.loopStep :: after)) :=
  Plays.goesOn_withinLimit outerFound encloses.outer_finite (encloses.turn_outer counted) left rest

include innerFound in
theorem plays_inner {before after : List Played} {counted : Nat} (again : counted < returns)
    (left : ticksOf (before ++ [inner.nestedStep]) < budget)
    (rest : assembly.Plays budget outer.name (counted + 1) (before ++ [inner.nestedStep])
      (withinLimit (before ++ [inner.nestedStep]) after)) :
    assembly.Plays budget inner.name counted before
      (withinLimit before (inner.nestedStep :: after)) :=
  Plays.goesOn_withinLimit innerFound encloses.inner_finite (encloses.turn_inner again) left rest

include outerFound innerFound in
/-- The induction is on the returns that are still to be made. -/
theorem plays_unrolled {count : Nat} (made : count ≤ returns) {before rest : List Played}
    (left : ticksOf (before ++ outer.unrolled inner count) < budget)
    (behind : assembly.PlaysBehind inner
      (budget - ticksOf (before ++ outer.unrolled inner count)) rest) :
    assembly.Plays budget outer.name (returns - count) before
      (withinLimit before (outer.unrolled inner count ++ rest)) := by
  have sooner {front back : List Played} (whole : ticksOf (front ++ back) < budget) :
      ticksOf front < budget := by
    rw [ticksOf_append] at whole
    omega
  induction count generalizing before with
  | zero => exact plays_outer encloses outerFound left (plays_done encloses innerFound left behind)
  | succ count ih =>
      have split : before ++ outer.unrolled inner (count + 1) =
          before ++ [outer.loopStep] ++ [inner.nestedStep] ++ outer.unrolled inner count := by
        rw [Mode.unrolled_succ, List.append_assoc, List.append_assoc]
        rfl
      rw [split] at left behind
      have fewer : returns - (count + 1) + 1 = returns - count := by omega
      have later := ih (by omega) left behind
      rw [← fewer] at later
      have inside := plays_inner encloses innerFound (by omega) (sooner left) later
      rw [Mode.unrolled_succ]
      exact plays_outer encloses outerFound (sooner (sooner left)) inside

end

theorem map_played_inj {program : Program} {one other : List Visit}
    (same : one.map Visit.played = other.map Visit.played)
    (first : ∀ visit ∈ one, program.addressOf visit.mode = .ok visit.address)
    (second : ∀ visit ∈ other, program.addressOf visit.mode = .ok visit.address) : one = other := by
  induction one generalizing other with
  | nil => exact (List.map_eq_nil_iff.mp same.symm).symm
  | cons visit one ih =>
      cases other with
      | nil => cases same
      | cons there other =>
          obtain ⟨played, rest⟩ := List.cons.inj same
          obtain ⟨here, firstRest⟩ := List.forall_mem_cons.mp first
          obtain ⟨there_eq, secondRest⟩ := List.forall_mem_cons.mp second
          obtain ⟨mode_eq, repetitions_eq, ticks_eq⟩ := Played.mk.inj played
          rw [mode_eq, there_eq] at here
          have visit_eq : visit = there := by
            cases visit
            cases there
            cases here
            cases mode_eq
            cases repetitions_eq
            cases ticks_eq
            rfl
          rw [visit_eq, ih rest firstRest secondRest]

theorem exists_trace_playing {program : Program} {start : String}
    (compiled : assembly.compile.outcome = .ok program)
    (registered : start ∈ assembly.modes.map Mode.name) (budget : Nat) :
    ∃ visits, program.trace start budget = .ok visits ∧
      assembly.Plays budget start 0 [] (visits.map Visit.played) ∧
      ∀ visit ∈ visits, program.addressOf visit.mode = .ok visit.address := by
  obtain ⟨sound, fits, rfl⟩ := compile_ok_iff.mp compiled
  obtain ⟨mode, member, rfl⟩ := List.mem_map.mp registered
  have placed := addressOf_image_of_known ⟨mode, find?_name member⟩
  obtain ⟨steps, final, plays, followed, recorded⟩ := follow_plays sound fits budget
    (recorded_start (assembly.addressFor (some mode.name))) (find?_name member) placed
    (show EnoughPasses (2 * visitLimit) 0 0 by unfold EnoughPasses; omega)
  refine ⟨final.visits.reverse, Program.trace_of_follow placed followed, ?_, ?_⟩
  · rw [recorded.played]
    exact plays
  · intro visit member
    exact recorded.located visit (List.mem_reverse.mp member)

def TracesBehind (program : Program) (mode : Mode) (left : Nat) (rest : List Visit) : Prop :=
  match mode.next with
  | none => rest = []
  | some next => program.trace next left = .ok rest

theorem exists_tracesBehind {program : Program} (compiled : assembly.compile.outcome = .ok program)
    (member : inner ∈ assembly.modes) (left : Nat) : ∃ rest, TracesBehind program inner left rest ∧
      assembly.PlaysBehind inner left (rest.map Visit.played) ∧
      ∀ visit ∈ rest, program.addressOf visit.mode = .ok visit.address := by
  unfold TracesBehind PlaysBehind
  cases next_eq : inner.next with
  | none => exact ⟨[], rfl, rfl, fun _ none => absurd none List.not_mem_nil⟩
  | some next =>
      obtain ⟨sound, -⟩ := compile_ok_iff.mp compiled
      obtain ⟨mode, found⟩ := sound.next_known inner member next next_eq
      obtain ⟨registered, rfl⟩ := find?_eq_some_iff.mp found
      exact exists_trace_playing compiled (List.mem_map_of_mem registered) left

def loopVisit (mode : Mode) (address : UInt16) : Visit :=
  ⟨mode.name, address, mode.loopCount.toNat, mode.loopCount.toNat * mode.period⟩

def nestedVisit (mode : Mode) (address : UInt16) : Visit := ⟨mode.name, address, 1, mode.period⟩

theorem map_played_unrolled (outer inner : Mode) (first second : UInt16) (count : Nat) :
    ((List.replicate count [loopVisit outer first, nestedVisit inner second]).flatten ++
      [loopVisit outer first]).map Visit.played = outer.unrolled inner count := by
  rw [List.map_append, List.map_flatten, List.map_replicate]
  rfl

theorem located_unrolled {program : Program} {first second : UInt16}
    (outerPlaced : program.addressOf outer.name = .ok first)
    (innerPlaced : program.addressOf inner.name = .ok second) (count : Nat) :
    ∀ visit ∈ (List.replicate count [loopVisit outer first, nestedVisit inner second]).flatten ++
      [loopVisit outer first], program.addressOf visit.mode = .ok visit.address := by
  intro visit member
  have either : visit = loopVisit outer first ∨ visit = nestedVisit inner second := by
    simp only [List.mem_append, List.mem_flatten, List.mem_replicate, List.mem_singleton] at member
    rcases member with ⟨pair, ⟨-, rfl⟩, within⟩ | last
    · simpa using within
    · exact .inl last
  rcases either with rfl | rfl
  · exact outerPlaced
  · exact innerPlaced

/-- A mode and the mode nested in it, traced from the outer one: as often as the inner mode returns each
is visited once, then the outer mode once more, and then the trace goes on behind the inner mode like
a trace that starts there. -/
theorem trace_unrolls {program : Program} (compiled : assembly.compile.outcome = .ok program)
    (outerIn : outer ∈ assembly.modes) (innerIn : inner ∈ assembly.modes)
    (encloses : outer.Encloses inner returns) (left : outer.unrolledTicks inner returns < budget) :
    ∃ first second rest, program.addressOf outer.name = .ok first ∧
      program.addressOf inner.name = .ok second ∧
      TracesBehind program inner (budget - outer.unrolledTicks inner returns) rest ∧
      program.trace outer.name budget = .ok (List.take visitLimit
        ((List.replicate returns [loopVisit outer first, nestedVisit inner second]).flatten ++
          [loopVisit outer first] ++ rest)) := by
  have outerFound := find?_name outerIn
  have innerFound := find?_name innerIn
  obtain ⟨visits, traced, plays, located⟩ :=
    exists_trace_playing compiled (List.mem_map_of_mem outerIn) budget
  obtain ⟨rest, traces, behind, restLocated⟩ :=
    exists_tracesBehind compiled innerIn (budget - outer.unrolledTicks inner returns)
  obtain ⟨-, -, rfl⟩ := compile_ok_iff.mp compiled
  have outerPlaced := addressOf_image_of_known ⟨outer, outerFound⟩
  have innerPlaced := addressOf_image_of_known ⟨inner, innerFound⟩
  rw [← Mode.ticksOf_unrolled] at left behind
  have unrolled : assembly.Plays budget outer.name (returns - returns) []
      (withinLimit [] (outer.unrolled inner returns ++ rest.map Visit.played)) :=
    plays_unrolled encloses outerFound innerFound (Nat.le_refl returns) left behind
  rw [Nat.sub_self] at unrolled
  refine ⟨_, _, rest, outerPlaced, innerPlaced, traces, traced.trans (congrArg Except.ok ?_)⟩
  apply map_played_inj _ located
  · intro visit member
    rcases List.mem_append.mp (List.mem_of_mem_take member) with early | late
    · exact located_unrolled outerPlaced innerPlaced returns visit early
    · exact restLocated visit late
  · rw [List.map_take, List.map_append, map_played_unrolled]
    exact plays.unique unrolled

theorem encloses_lineReadout : lineReadout.modes[0].Encloses lineReadout.modes[1] 2 where
  flat := rfl
  leads := rfl
  nested := ⟨⟨"line", 2, by decide⟩, rfl, rfl, rfl⟩
  outer_finite := by decide
  inner_finite := by decide

theorem trace_unrolls_lineReadout : lineReadout.compile.outcome = .ok lineReadout.image ∧
    lineReadout.modes[0].unrolledTicks lineReadout.modes[1] 2 < 1000 ∧
    ∃ first second rest, lineReadout.image.addressOf "line" = .ok first ∧
      lineReadout.image.addressOf "pixels" = .ok second ∧
      TracesBehind lineReadout.image lineReadout.modes[1]
        (1000 - lineReadout.modes[0].unrolledTicks lineReadout.modes[1] 2) rest ∧
      lineReadout.image.trace "line" 1000 = .ok (List.take visitLimit
        ((List.replicate 2
          [loopVisit lineReadout.modes[0] first, nestedVisit lineReadout.modes[1] second]).flatten ++
          [loopVisit lineReadout.modes[0] first] ++ rest)) :=
  ⟨by rfl, by decide, @trace_unrolls lineReadout 1000 _ _ 2 lineReadout.image (by rfl) (by decide)
    (by decide) encloses_lineReadout (by decide)⟩

end Assembly

end CcdController
