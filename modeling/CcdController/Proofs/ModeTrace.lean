import CcdController.Proofs.CompiledLayout
import CcdController.Proofs.ModeGraph

/-!
A compiled program runs as its modes say. `siteAt_image` reads a mode back from the memory at its
address, `recorded_pass` compares one pass of the sequencer with one turn of the mode, and
`follow_plays` runs both to their end.
-/
namespace CcdController

namespace Assembly

variable {assembly : Assembly} {mode : Mode} {name : String} {address : UInt16}

def siteFor (assembly : Assembly) (mode : Mode) : Site :=
  ⟨mode.name, assembly.headerOf mode, mode.period⟩

theorem totalTicks_states (mode : Mode) :
    Word.totalTicks (mode.states.map Word.state) = mode.period := by
  rw [Word.totalTicks, List.foldr_map, Mode.period, List.sum_eq_foldr, List.foldr_map]
  rfl

theorem siteAt_image (fits : assembly.lineCount ≤ memoryCapacity)
    (found : assembly.find? name = some mode)
    (placed : assembly.image.addressOf name = .ok address) :
    assembly.image.siteAt address = .ok (assembly.siteFor mode) := by
  obtain ⟨later, block⟩ := drop_addressOf fits found placed
  have named : mode.name = name := (find?_eq_some_iff.mp found).2
  have states : (mode.states.map Word.state ++ later).take
      (assembly.headerOf mode).stateCount.toNat = mode.states.map Word.state := by
    rw [toNat_stateCount, ← List.length_map Word.state, List.take_left]
  have complete : ¬ (mode.states.map Word.state ++ later).length <
      (assembly.headerOf mode).stateCount.toNat := by
    rw [toNat_stateCount, List.length_append, List.length_map]
    omega
  simp only [Program.siteAt, block, linesOf, List.cons_append, if_neg complete, states,
    nameAt?_addressOf fits placed, Option.getD_some, totalTicks_states]
  rw [siteFor, named]

structure Recorded (assembly : Assembly) (before : List Played) (run : Run) : Prop where
  played : run.visits.reverse.map Visit.played = before
  located : ∀ visit ∈ run.visits, assembly.image.addressOf visit.mode = .ok visit.address
  count : run.count = before.length
  spent : run.spent = ticksOf before

theorem recorded_start (address : UInt16) : assembly.Recorded [] (Run.start address) where
  played := rfl
  located := by
    intro visit none
    exact absurd none List.not_mem_nil
  count := rfl
  spent := rfl

theorem recorded_record {before : List Played} {run : Run} (recorded : assembly.Recorded before run)
    (placed : assembly.image.addressOf mode.name = .ok run.address) (repetitions : Nat) :
    assembly.Recorded (before ++ [⟨mode.name, repetitions, mode.period * repetitions⟩])
      (run.record (assembly.siteFor mode) repetitions) where
  played := by
    simp only [Run.record, List.reverse_cons, List.map_append, recorded.played]
    rfl
  located := by
    intro visit member
    rcases List.mem_cons.mp member with rfl | member
    · exact placed
    · exact recorded.located visit member
  count := by
    rw [List.length_append, ← recorded.count]
    rfl
  spent := by
    rw [ticksOf_append, ← recorded.spent]
    rfl

theorem Recorded.move {before : List Played} {run : Run} (recorded : assembly.Recorded before run)
    (returns : Nat) (address : UInt16) :
    assembly.Recorded before { run with returns, address } :=
  ⟨recorded.played, recorded.located, recorded.count, recorded.spent⟩

/-- One pass through a mode is one turn of it, and leads to the address of the mode that is next. -/
theorem pass_turn {before : List Played} {run : Run} (recorded : assembly.Recorded before run)
    (placed : assembly.image.addressOf mode.name = .ok run.address) :
    assembly.Recorded (before ++ (mode.turn run.returns).step.toList)
        (run.pass (assembly.siteFor mode)) ∧
      (run.pass (assembly.siteFor mode)).returns = (mode.turn run.returns).returns ∧
      (run.pass (assembly.siteFor mode)).address =
        assembly.addressFor (mode.turn run.returns).target := by
  cases nested : mode.nesting with
  | none =>
      have flat : (assembly.siteFor mode).header.isNested = false := by
        simp only [siteFor, headerOf, Mode.isNested, nested, Option.isSome_none]
      simp only [Run.pass, flat, Mode.turn, nested]
      refine ⟨?_, rfl, rfl⟩
      rw [Nat.mul_comm]
      exact (recorded_record recorded placed _).move run.returns _
  | some nesting =>
      have deep : (assembly.siteFor mode).header.isNested = true := by
        simp only [siteFor, headerOf, Mode.isNested, nested, Option.isSome_some]
      have count : (assembly.siteFor mode).header.nestedLoopCount = nesting.returns := by
        simp only [siteFor, headerOf, Mode.nestedLoopCount, nested]
      have parent : (assembly.siteFor mode).header.parentAddress =
          assembly.addressFor (some nesting.parent) := by
        simp only [siteFor, headerOf, Mode.parent, nested, Option.map_some]
      simp only [Run.pass, deep, count, parent, Mode.turn, nested]
      by_cases again : run.returns < nesting.returns.toNat
      · simp only [if_pos again]
        refine ⟨?_, rfl, rfl⟩
        have played := recorded_record recorded placed 1
        rw [Nat.mul_one] at played
        exact played.move _ _
      · simp only [if_neg again, Option.toList_none, List.append_nil]
        exact ⟨recorded.move _ _, rfl, rfl⟩

theorem target_known (sound : assembly.Sound) (member : mode ∈ assembly.modes) {returns : Nat}
    {next : String} (target : (mode.turn returns).target = some next) :
    ∃ found, assembly.find? next = some found := by
  rcases mode.turn_target returns with ahead | ⟨nesting, nested, back⟩
  · exact sound.next_known mode member next (ahead.symm.trans target)
  · rw [back] at target
    obtain ⟨found, at_name, -⟩ := sound.parent_known mode member next (by
      rw [Mode.parent, nested, Option.map_some, target])
    exact ⟨found, at_name⟩

theorem addressFor_target_eq_noMode_iff (sound : assembly.Sound)
    (fits : assembly.lineCount ≤ memoryCapacity) (member : mode ∈ assembly.modes) (returns : Nat) :
    assembly.addressFor (mode.turn returns).target = noMode ↔
      (mode.turn returns).target = none := by
  constructor
  · intro halt
    cases target : (mode.turn returns).target with
    | none => rfl
    | some next =>
        rw [target] at halt
        have placed := addressOf_image_of_known (target_known sound member target)
        exact absurd halt (addressOf_ne_noMode fits placed)
  · intro none
    rw [none]
    rfl

/-- A pass that records nothing is followed by one that records, so two passes for each step that
can still be recorded are enough, and one less where no return is counted. -/
def EnoughPasses (passes returns count : Nat) : Prop :=
  2 * visitLimit ≤ passes + 2 * count + if returns = 0 then 1 else 0

theorem EnoughPasses.room {returns count : Nat} (enough : EnoughPasses 0 returns count) :
    visitLimit ≤ count := by
  unfold EnoughPasses at enough
  split at enough <;> omega

theorem EnoughPasses.turn {passes returns count : Nat} (mode : Mode)
    (enough : EnoughPasses (passes + 1) returns count) :
    EnoughPasses passes (mode.turn returns).returns
      (count + (mode.turn returns).step.toList.length) := by
  unfold EnoughPasses at enough ⊢
  cases step : (mode.turn returns).step with
  | none =>
      obtain ⟨counted, reset⟩ := Mode.turn_of_silent step
      rw [if_neg (Nat.ne_of_gt counted)] at enough
      simp only [reset, if_true, Option.toList_none, List.length_nil]
      omega
  | some played =>
      simp only [Option.toList_some, List.length_singleton]
      split at enough <;> omega

theorem follow_succ (fits : assembly.lineCount ≤ memoryCapacity) (budget passes : Nat) {run : Run}
    (room : run.count < visitLimit) (found : assembly.find? name = some mode)
    (placed : assembly.image.addressOf name = .ok run.address) :
    follow assembly.image.siteAt budget (passes + 1) run =
      if mode.loopCount = 0 then .ok (run.record (assembly.siteFor mode) 0)
      else if (run.pass (assembly.siteFor mode)).address = noMode ∨
          budget ≤ (run.pass (assembly.siteFor mode)).spent then
        .ok (run.pass (assembly.siteFor mode))
      else follow assembly.image.siteAt budget passes (run.pass (assembly.siteFor mode)) := by
  have terminal : (assembly.siteFor mode).header.isTerminal = decide (mode.loopCount = 0) := rfl
  rw [follow, if_neg (Nat.not_le.mpr room), siteAt_image fits found placed]
  simp only [terminal, decide_eq_true_eq]

/-- The sequencer, given passes enough, records what the run over the modes records. -/
theorem follow_plays (sound : assembly.Sound) (fits : assembly.lineCount ≤ memoryCapacity)
    (budget : Nat) {passes : Nat} {before : List Played} {run : Run}
    (recorded : assembly.Recorded before run) (found : assembly.find? name = some mode)
    (placed : assembly.image.addressOf name = .ok run.address)
    (enough : EnoughPasses passes run.returns before.length) :
    ∃ after final, assembly.Plays budget name run.returns before after ∧
      follow assembly.image.siteAt budget passes run = .ok final ∧
      assembly.Recorded (before ++ after) final := by
  have stay : assembly.Recorded (before ++ []) run := (List.append_nil before).symm ▸ recorded
  induction passes generalizing before run name mode with
  | zero => exact ⟨[], run, .full enough.room, rfl, stay⟩
  | succ passes ih =>
      by_cases full : visitLimit ≤ before.length
      · refine ⟨[], run, .full full, ?_, stay⟩
        rw [follow, if_pos (by rw [recorded.count]; exact full)]
      have room := Nat.lt_of_not_le full
      obtain ⟨member, rfl⟩ := find?_eq_some_iff.mp found
      rw [follow_succ fits budget passes (by rw [recorded.count]; exact room) found placed]
      by_cases endless : mode.loopCount = 0
      · refine ⟨_, _, .forever room found endless, if_pos endless, ?_⟩
        exact recorded_record recorded placed 0
      obtain ⟨recorded', returns, address⟩ := pass_turn recorded placed
      have halts : ((run.pass (assembly.siteFor mode)).address = noMode ∨
          budget ≤ (run.pass (assembly.siteFor mode)).spent) ↔
          ((mode.turn run.returns).target = none ∨
            budget ≤ ticksOf (before ++ (mode.turn run.returns).step.toList)) := by
        rw [recorded'.spent, address, addressFor_target_eq_noMode_iff sound fits member]
      rw [if_neg endless]
      by_cases ended : (mode.turn run.returns).target = none ∨
          budget ≤ ticksOf (before ++ (mode.turn run.returns).step.toList)
      · exact ⟨_, _, .stops room found endless ended, if_pos (halts.mpr ended), recorded'⟩
      obtain ⟨onward, left⟩ := not_or.mp ended
      obtain ⟨next, target⟩ := Option.ne_none_iff_exists'.mp onward
      obtain ⟨ahead, found'⟩ := target_known sound member target
      have placed' := addressOf_image_of_known ⟨ahead, found'⟩
      rw [← target, ← address] at placed'
      have enough' : EnoughPasses passes (run.pass (assembly.siteFor mode)).returns
          (before ++ (mode.turn run.returns).step.toList).length := by
        rw [returns, List.length_append]
        exact enough.turn mode
      obtain ⟨after, final, plays, followed, recorded''⟩ :=
        ih recorded' found' placed' enough' ((List.append_nil _).symm ▸ recorded')
      rw [returns] at plays
      rw [List.append_assoc] at recorded''
      exact ⟨_, final, .goesOn room found endless target (Nat.lt_of_not_le left) plays,
        (if_neg (mt halts.mp ended)).trans followed, recorded''⟩

theorem trace_plays {program : Program} {start : String}
    (compiled : assembly.compile.outcome = .ok program)
    (registered : start ∈ assembly.modes.map Mode.name) (budget : Nat) :
    ∃ visits, program.trace start budget = .ok visits ∧
      (∀ steps, assembly.Plays budget start 0 [] steps ↔ steps = visits.map Visit.played) ∧
      ∀ visit ∈ visits, program.addressOf visit.mode = .ok visit.address := by
  obtain ⟨sound, fits, rfl⟩ := compile_ok_iff.mp compiled
  obtain ⟨mode, member, rfl⟩ := List.mem_map.mp registered
  have found := find?_name member
  have placed := addressOf_image_of_known ⟨mode, found⟩
  obtain ⟨steps, final, plays, followed, recorded⟩ := follow_plays sound fits budget
    (recorded_start (assembly.addressFor (some mode.name))) found placed
    (show EnoughPasses (2 * visitLimit) 0 0 by unfold EnoughPasses; omega)
  refine ⟨final.visits.reverse, ?_, ?_, ?_⟩
  · simp only [Program.trace, placed, Program.siteOf_sites, bind, Except.bind, followed]
    rfl
  · intro other
    rw [recorded.played, List.nil_append]
    constructor
    · intro plays'
      exact plays'.unique plays
    · intro same
      rw [same]
      exact plays
  · intro visit member
    exact recorded.located visit (List.mem_reverse.mp member)

theorem trace_plays_lineReadout : lineReadout.compile.outcome = .ok lineReadout.image ∧
    "line" ∈ lineReadout.modes.map Mode.name ∧
    ∃ visits, lineReadout.image.trace "line" 1000 = .ok visits ∧
      (∀ steps, lineReadout.Plays 1000 "line" 0 [] steps ↔ steps = visits.map Visit.played) ∧
      ∀ visit ∈ visits, lineReadout.image.addressOf visit.mode = .ok visit.address :=
  ⟨by rfl, by decide, trace_plays (by rfl) (by decide) 1000⟩

end Assembly

end CcdController
