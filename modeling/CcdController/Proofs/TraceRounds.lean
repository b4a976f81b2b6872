import Mathlib.Data.List.Chain
import CcdController.Proofs.ModeTrace

/-!
The rounds in which a program is followed, without a limit to their number. `Rounds` says which rounds
a run makes until it ends; nothing in it is counted down. Every run of a compiled program ends after
at most two rounds for each visit that a trace can hold, because a round that records nothing sets
the count of returns back to zero and the next round then records.
-/
namespace CcdController

structure Round where
  before : Run
  after : Run

def Round.Records (round : Round) : Prop :=
  round.before.visits.length < round.after.visits.length

/-- `Rounds site budget run rounds outcome`: from `run` on the sequencer makes the rounds, and that is
what it comes to. -/
inductive Rounds (site : UInt16 → Except Fault Site) (budget : Nat) :
    Run → List Round → Except Fault Run → Prop
  | full {run : Run} (limit : visitLimit ≤ run.count) : Rounds site budget run [] (.ok run)
  | astray {run : Run} {fault : Fault} (room : run.count < visitLimit)
      (missing : site run.address = .error fault) : Rounds site budget run [] (.error fault)
  | forever {run : Run} {here : Site} (room : run.count < visitLimit)
      (found : site run.address = .ok here) (endless : here.header.isTerminal = true) :
      Rounds site budget run [⟨run, run.record here 0⟩] (.ok (run.record here 0))
  | stops {run : Run} {here : Site} (room : run.count < visitLimit)
      (found : site run.address = .ok here) (finite : here.header.isTerminal = false)
      (ended : (run.pass here).address = noMode ∨ budget ≤ (run.pass here).spent) :
      Rounds site budget run [⟨run, run.pass here⟩] (.ok (run.pass here))
  | goesOn {run : Run} {here : Site} {later : List Round} {outcome : Except Fault Run}
      (room : run.count < visitLimit) (found : site run.address = .ok here)
      (finite : here.header.isTerminal = false) (onward : (run.pass here).address ≠ noMode)
      (left : (run.pass here).spent < budget)
      (rest : Rounds site budget (run.pass here) later outcome) :
      Rounds site budget run (⟨run, run.pass here⟩ :: later) outcome

namespace Run

theorem visits_pass (run : Run) (site : Site) :
    (run.pass site).visits = run.visits ∨ ∃ visit, (run.pass site).visits = visit :: run.visits := by
  unfold pass
  cases site.header.isNested with
  | false => exact .inr ⟨_, rfl⟩
  | true =>
      by_cases again : run.returns < site.header.nestedLoopCount.toNat
      · rw [if_pos rfl, if_pos again]
        exact .inr ⟨_, rfl⟩
      · rw [if_pos rfl, if_neg again]
        exact .inl rfl

theorem suffix_visits_pass (run : Run) (site : Site) : run.visits <:+ (run.pass site).visits := by
  rcases run.visits_pass site with same | ⟨visit, added⟩
  · exact same ▸ List.suffix_refl run.visits
  · rw [added]
    exact List.suffix_cons visit run.visits

theorem count_pass_le (run : Run) (site : Site) : (run.pass site).count ≤ run.count + 1 := by
  unfold pass
  split
  · split
    · exact Nat.le_refl _
    · exact Nat.le_succ _
  · exact Nat.le_refl _

end Run

namespace Rounds

variable {site : UInt16 → Except Fault Site} {budget : Nat} {run final : Run} {rounds : List Round}
  {outcome : Except Fault Run}

theorem eq_of_full (made : Rounds site budget run rounds outcome) (limit : visitLimit ≤ run.count) :
    rounds = [] ∧ outcome = .ok run := by
  cases made with
  | full => exact ⟨rfl, rfl⟩
  | astray room | forever room | stops room | goesOn room =>
      exact absurd room (Nat.not_lt.mpr limit)

theorem eq_of_missing (made : Rounds site budget run rounds outcome) (room : run.count < visitLimit)
    {fault : Fault} (missing : site run.address = .error fault) :
    rounds = [] ∧ outcome = .error fault := by
  cases made with
  | full limit => exact absurd room (Nat.not_lt.mpr limit)
  | astray _ missing' =>
      cases missing.symm.trans missing'
      exact ⟨rfl, rfl⟩
  | forever _ found | stops _ found | goesOn _ found => cases missing.symm.trans found

theorem eq_of_endless (made : Rounds site budget run rounds outcome) (room : run.count < visitLimit)
    {here : Site} (found : site run.address = .ok here) (endless : here.header.isTerminal = true) :
    rounds = [⟨run, run.record here 0⟩] ∧ outcome = .ok (run.record here 0) := by
  cases made with
  | full limit => exact absurd room (Nat.not_lt.mpr limit)
  | astray _ missing => cases found.symm.trans missing
  | forever _ found' =>
      cases found.symm.trans found'
      exact ⟨rfl, rfl⟩
  | stops _ found' finite | goesOn _ found' finite =>
      cases found.symm.trans found'
      cases endless.symm.trans finite

theorem stops_or_goesOn (made : Rounds site budget run rounds outcome)
    (room : run.count < visitLimit) {here : Site} (found : site run.address = .ok here)
    (finite : here.header.isTerminal = false) :
    ((run.pass here).address = noMode ∨ budget ≤ (run.pass here).spent) ∧
        rounds = [⟨run, run.pass here⟩] ∧ outcome = .ok (run.pass here) ∨
      ¬ ((run.pass here).address = noMode ∨ budget ≤ (run.pass here).spent) ∧
        ∃ later, rounds = ⟨run, run.pass here⟩ :: later ∧
          Rounds site budget (run.pass here) later outcome := by
  cases made with
  | full limit => exact absurd room (Nat.not_lt.mpr limit)
  | astray _ missing => cases found.symm.trans missing
  | forever _ found' endless =>
      cases found.symm.trans found'
      cases endless.symm.trans finite
  | stops _ found' _ ended =>
      cases found.symm.trans found'
      exact .inl ⟨ended, rfl, rfl⟩
  | goesOn _ found' _ onward left rest =>
      cases found.symm.trans found'
      exact .inr ⟨not_or.mpr ⟨onward, Nat.not_le.mpr left⟩, _, rfl, rest⟩

theorem unique {others : List Round} {other : Except Fault Run}
    (first : Rounds site budget run rounds outcome) (second : Rounds site budget run others other) :
    others = rounds ∧ other = outcome := by
  induction first generalizing others with
  | full limit => exact second.eq_of_full limit
  | astray room missing => exact second.eq_of_missing room missing
  | forever room found endless => exact second.eq_of_endless room found endless
  | stops room found finite ended =>
      cases second.stops_or_goesOn room found finite with
      | inl stops => exact stops.2
      | inr goes => exact absurd ended goes.1
  | goesOn room found finite onward left _ ih =>
      rcases second.stops_or_goesOn room found finite with ⟨ended, -⟩ | ⟨-, later, rfl, rest⟩
      · exact absurd ended (not_or.mpr ⟨onward, Nat.not_le.mpr left⟩)
      · obtain ⟨rounds_eq, outcome_eq⟩ := ih rest
        exact ⟨congrArg _ rounds_eq, outcome_eq⟩

/-- A limit to the passes makes no difference to a run whose rounds do not reach it. -/
theorem follow_eq (made : Rounds site budget run rounds (.ok final)) {passes : Nat}
    (enough : rounds.length ≤ passes) : follow site budget passes run = .ok final := by
  generalize ended : Except.ok final = outcome at made
  induction made generalizing passes with
  | full limit =>
      cases passes with
      | zero => rfl
      | succ passes => rw [follow, if_pos limit]
  | astray => cases ended
  | forever room found endless =>
      obtain ⟨passes, rfl⟩ := Nat.exists_eq_add_of_le' enough
      rw [List.length_singleton, follow, if_neg (Nat.not_le.mpr room), found]
      simp only [endless, if_true]
  | stops room found finite stop =>
      obtain ⟨passes, rfl⟩ := Nat.exists_eq_add_of_le' enough
      rw [List.length_singleton, follow, if_neg (Nat.not_le.mpr room), found]
      simp only [finite, Bool.false_eq_true, if_false, if_pos stop]
  | goesOn room found finite onward left _ ih =>
      obtain ⟨passes, rfl⟩ := Nat.exists_eq_add_of_le' enough
      have goes := not_or.mpr ⟨onward, Nat.not_le.mpr left⟩
      rw [List.length_cons, ← Nat.add_assoc, follow, if_neg (Nat.not_le.mpr room), found]
      simp only [finite, Bool.false_eq_true, if_false, if_neg goes]
      exact ih (Nat.le_add_left _ _) ended

theorem before_head (made : Rounds site budget run rounds outcome) :
    ∀ round ∈ rounds.head?, run = round.before := by
  intro round first
  cases made with
  | full | astray => cases first
  | forever | stops | goesOn =>
      cases first
      rfl

theorem linked (made : Rounds site budget run rounds outcome) :
    rounds.IsChain fun first second => first.after = second.before := by
  induction made with
  | full | astray => exact .nil
  | forever | stops => exact .singleton _
  | goesOn _ _ _ _ _ rest ih => exact ih.cons rest.before_head

theorem exists_first (made : Rounds site budget run rounds (.ok final))
    (room : run.count < visitLimit) : ∃ round ∈ rounds, round.before = run := by
  cases made with
  | full limit => exact absurd room (Nat.not_lt.mpr limit)
  | forever | stops | goesOn => exact ⟨_, List.mem_cons_self, rfl⟩

theorem exists_last (made : Rounds site budget run rounds (.ok final)) :
    final = run ∨ ∃ round ∈ rounds, round.after = final := by
  generalize ended : Except.ok final = outcome at made
  induction made with
  | full =>
      cases ended
      exact .inl rfl
  | astray => cases ended
  | forever | stops =>
      cases ended
      exact .inr ⟨_, List.mem_cons_self, rfl⟩
  | goesOn _ _ _ _ _ _ ih =>
      right
      rcases ih ended with passed | ⟨round, member, last⟩
      · exact ⟨_, List.mem_cons_self, passed.symm⟩
      · exact ⟨round, List.mem_cons_of_mem _ member, last⟩

theorem suffix_visits (made : Rounds site budget run rounds (.ok final)) :
    run.visits <:+ final.visits := by
  generalize ended : Except.ok final = outcome at made
  induction made with
  | full =>
      cases ended
      exact List.suffix_refl _
  | astray => cases ended
  | forever =>
      cases ended
      exact List.suffix_cons _ _
  | stops =>
      cases ended
      exact Run.suffix_visits_pass _ _
  | goesOn _ _ _ _ _ _ ih => exact (Run.suffix_visits_pass _ _).trans (ih ended)

theorem suffix_of_mem (made : Rounds site budget run rounds (.ok final)) :
    ∀ round ∈ rounds, round.after.visits <:+ final.visits := by
  generalize ended : Except.ok final = outcome at made
  induction made with
  | full => exact fun round member => absurd member List.not_mem_nil
  | astray => cases ended
  | forever | stops =>
      cases ended
      exact List.forall_mem_singleton.mpr (List.suffix_refl _)
  | goesOn _ _ _ _ _ rest ih =>
      subst ended
      exact List.forall_mem_cons.mpr ⟨rest.suffix_visits, ih rfl⟩

theorem count_le (made : Rounds site budget run rounds (.ok final))
    (within : run.count ≤ visitLimit) : final.count ≤ visitLimit := by
  generalize ended : Except.ok final = outcome at made
  induction made with
  | full =>
      cases ended
      exact within
  | astray => cases ended
  | forever room =>
      cases ended
      exact room
  | stops room =>
      cases ended
      exact Nat.le_trans (Run.count_pass_le _ _) room
  | goesOn room _ _ _ _ _ ih => exact ih (Nat.le_trans (Run.count_pass_le _ _) room) ended

end Rounds

namespace Mode

variable {mode : Mode} {returns : Nat}

theorem turn_returns_lt (narrow : returns < UInt16.size) :
    (mode.turn returns).returns < UInt16.size := by
  unfold turn
  cases mode.nesting with
  | none => exact narrow
  | some nesting =>
      by_cases again : returns < nesting.returns.toNat
      · simp only [if_pos again]
        exact Nat.lt_of_le_of_lt again nesting.returns.toNat_lt
      · simp only [if_neg again]
        decide

end Mode

namespace Assembly

variable {assembly : Assembly} {mode : Mode} {run : Run}

structure Underway (assembly : Assembly) (run : Run) : Prop where
  recorded : ∃ before, assembly.Recorded before run
  at_mode : ∃ mode ∈ assembly.modes, assembly.image.addressOf mode.name = .ok run.address
  returns_lt : run.returns < UInt16.size

structure Turns (assembly : Assembly) (round : Round) : Prop where
  found : ∃ mode ∈ assembly.modes,
    assembly.image.siteAt round.before.address = .ok (assembly.siteFor mode)
  returns_lt : round.after.returns < UInt16.size
  records_or_resets : round.Records ∨ 0 < round.before.returns ∧ round.after.returns = 0
  recorded : ∃ before, assembly.Recorded before round.after

theorem Recorded.length_visits {before : List Played} (recorded : assembly.Recorded before run) :
    run.visits.length = before.length := by
  rw [← recorded.played, List.length_map, List.length_reverse]

theorem underway_start (member : mode ∈ assembly.modes) {address : UInt16}
    (placed : assembly.image.addressOf mode.name = .ok address) :
    assembly.Underway (Run.start address) :=
  ⟨⟨[], recorded_start address⟩, ⟨mode, member, placed⟩, Nat.zero_lt_succ 65535⟩

theorem turns_record (fits : assembly.lineCount ≤ memoryCapacity) (member : mode ∈ assembly.modes)
    (underway : assembly.Underway run)
    (placed : assembly.image.addressOf mode.name = .ok run.address) :
    assembly.Turns ⟨run, run.record (assembly.siteFor mode) 0⟩ where
  found := ⟨mode, member, siteAt_image fits (find?_name member) placed⟩
  returns_lt := underway.returns_lt
  records_or_resets := .inl (Nat.lt_succ_self _)
  recorded := by
    obtain ⟨before, recorded⟩ := underway.recorded
    exact ⟨_, recorded_record recorded placed 0⟩

theorem turns_pass (fits : assembly.lineCount ≤ memoryCapacity) (member : mode ∈ assembly.modes)
    (underway : assembly.Underway run)
    (placed : assembly.image.addressOf mode.name = .ok run.address) :
    assembly.Turns ⟨run, run.pass (assembly.siteFor mode)⟩ := by
  obtain ⟨before, recorded⟩ := underway.recorded
  obtain ⟨recorded', returns, -⟩ := pass_turn recorded placed
  refine ⟨⟨mode, member, siteAt_image fits (find?_name member) placed⟩, ?_, ?_, _, recorded'⟩
  · rw [returns]
    exact Mode.turn_returns_lt underway.returns_lt
  · have grown : (run.pass (assembly.siteFor mode)).visits.length =
        run.visits.length + (mode.turn run.returns).step.toList.length := by
      rw [recorded'.length_visits, recorded.length_visits, List.length_append]
    cases step : (mode.turn run.returns).step with
    | none =>
        right
        rw [returns]
        exact Mode.turn_of_silent step
    | some played =>
        left
        rw [step] at grown
        exact Nat.lt_of_lt_of_eq (Nat.lt_succ_self _) grown.symm

/-- After a round that records nothing no return is counted, so the next round records. -/
theorem Turns.records_or_records {first second : Round} (one : assembly.Turns first)
    (other : assembly.Turns second) (linked : first.after = second.before) :
    first.Records ∨ second.Records := by
  apply one.records_or_resets.imp_right
  intro resets
  apply other.records_or_resets.resolve_right
  intro counted
  rw [← linked, resets.2] at counted
  exact absurd counted.1 (Nat.lt_irrefl 0)

theorem Underway.pass (sound : assembly.Sound) (fits : assembly.lineCount ≤ memoryCapacity)
    (member : mode ∈ assembly.modes) (underway : assembly.Underway run)
    (placed : assembly.image.addressOf mode.name = .ok run.address)
    (onward : (run.pass (assembly.siteFor mode)).address ≠ noMode) :
    assembly.Underway (run.pass (assembly.siteFor mode)) := by
  have turns := turns_pass fits member underway placed
  refine ⟨turns.recorded, ?_, turns.returns_lt⟩
  obtain ⟨before, recorded⟩ := underway.recorded
  obtain ⟨-, -, address⟩ := pass_turn recorded placed
  rw [address] at onward
  have some := mt (addressFor_target_eq_noMode_iff sound fits member run.returns).mpr onward
  obtain ⟨next, target⟩ := Option.ne_none_iff_exists'.mp some
  obtain ⟨ahead, found⟩ := target_known sound member target
  obtain ⟨known, rfl⟩ := find?_eq_some_iff.mp found
  refine ⟨ahead, known, ?_⟩
  rw [address, target]
  exact addressOf_image_of_known ⟨ahead, found⟩

/-- Every round of a run turns a mode, and nothing goes wrong on the way to the end. -/
theorem turns_of_rounds (sound : assembly.Sound) (fits : assembly.lineCount ≤ memoryCapacity)
    {budget : Nat} {rounds : List Round} {outcome : Except Fault Run}
    (made : Rounds assembly.image.siteAt budget run rounds outcome)
    (underway : assembly.Underway run) : ∀ round ∈ rounds, assembly.Turns round := by
  induction made with
  | full | astray => exact fun round member => absurd member List.not_mem_nil
  | forever _ found =>
      obtain ⟨mode, member, placed⟩ := underway.at_mode
      cases found.symm.trans (siteAt_image fits (find?_name member) placed)
      exact List.forall_mem_singleton.mpr (turns_record fits member underway placed)
  | stops _ found =>
      obtain ⟨mode, member, placed⟩ := underway.at_mode
      cases found.symm.trans (siteAt_image fits (find?_name member) placed)
      exact List.forall_mem_singleton.mpr (turns_pass fits member underway placed)
  | goesOn _ found _ onward _ _ ih =>
      obtain ⟨mode, member, placed⟩ := underway.at_mode
      cases found.symm.trans (siteAt_image fits (find?_name member) placed)
      have goes := underway.pass sound fits member placed onward
      exact List.forall_mem_cons.mpr ⟨turns_pass fits member underway placed, ih goes⟩

theorem recorded_of_rounds (sound : assembly.Sound) (fits : assembly.lineCount ≤ memoryCapacity)
    {budget : Nat} {rounds : List Round} {final : Run}
    (made : Rounds assembly.image.siteAt budget run rounds (.ok final))
    (underway : assembly.Underway run) : ∃ before, assembly.Recorded before final := by
  rcases made.exists_last with same | ⟨round, member, last⟩
  · rw [same]
    exact underway.recorded
  · rw [← last]
    exact (turns_of_rounds sound fits made underway round member).recorded

/-- A run from a mode on records at once, since it has counted no returns. -/
theorem visits_pos (sound : assembly.Sound) (fits : assembly.lineCount ≤ memoryCapacity)
    {budget : Nat} {address : UInt16} {rounds : List Round} {final : Run}
    (made : Rounds assembly.image.siteAt budget (Run.start address) rounds (.ok final))
    (underway : assembly.Underway (Run.start address)) : 0 < final.visits.length := by
  obtain ⟨round, member, first⟩ := made.exists_first (by decide : 0 < visitLimit)
  have records : round.Records := by
    apply (turns_of_rounds sound fits made underway round member).records_or_resets.resolve_right
    intro counted
    rw [first] at counted
    exact absurd counted.1 (Nat.lt_irrefl 0)
  calc
    0 ≤ round.before.visits.length := Nat.zero_le _
    _ < round.after.visits.length := records
    _ ≤ final.visits.length := (made.suffix_of_mem round member).length_le

/-- A run ends: the rounds that `EnoughPasses` allows it are not all used up before. -/
theorem exists_rounds (sound : assembly.Sound) (fits : assembly.lineCount ≤ memoryCapacity)
    (budget : Nat) {passes : Nat} (underway : assembly.Underway run)
    (enough : EnoughPasses passes run.returns run.count) :
    ∃ rounds final, Rounds assembly.image.siteAt budget run rounds (.ok final) ∧
      rounds.length ≤ passes := by
  induction passes generalizing run with
  | zero => exact ⟨[], run, .full enough.room, Nat.le_refl 0⟩
  | succ passes ih =>
      rcases Nat.lt_or_ge run.count visitLimit with room | limit
      · obtain ⟨mode, member, placed⟩ := underway.at_mode
        have found := siteAt_image fits (find?_name member) placed
        cases endless : (assembly.siteFor mode).header.isTerminal with
        | true => exact ⟨_, _, .forever room found endless, Nat.le_add_left 1 passes⟩
        | false =>
            by_cases ended : (run.pass (assembly.siteFor mode)).address = noMode ∨
                budget ≤ (run.pass (assembly.siteFor mode)).spent
            · exact ⟨_, _, .stops room found endless ended, Nat.le_add_left 1 passes⟩
            · obtain ⟨onward, left⟩ := not_or.mp ended
              have goes := underway.pass sound fits member placed onward
              have enough' : EnoughPasses passes (run.pass (assembly.siteFor mode)).returns
                  (run.pass (assembly.siteFor mode)).count := by
                obtain ⟨before, recorded⟩ := underway.recorded
                obtain ⟨recorded', returns, -⟩ := pass_turn recorded placed
                rw [returns, recorded'.count, List.length_append, ← recorded.count]
                exact enough.turn mode
              obtain ⟨rounds, final, made, short⟩ := ih goes enough'
              exact ⟨_, final, .goesOn room found endless onward (Nat.lt_of_not_le left) made,
                Nat.succ_le_succ short⟩
      · exact ⟨[], run, .full limit, Nat.zero_le _⟩

end Assembly

namespace Program

variable {program : Program} {start : String}

theorem trace_of_unknown {budget : Nat} {fault : Fault}
    (unknown : program.addressOf start = .error fault) :
    program.trace start budget = .error fault := by
  rw [trace, unknown]
  rfl

theorem trace_of_follow {budget : Nat} {address : UInt16} {final : Run}
    (placed : program.addressOf start = .ok address)
    (followed : follow program.siteAt budget (2 * visitLimit) (Run.start address) = .ok final) :
    program.trace start budget = .ok final.visits.reverse := by
  rw [trace, placed, siteOf_sites]
  simp only [bind, Except.bind, followed]
  rfl

theorem trace_of_rounds {budget : Nat} {address : UInt16} {rounds : List Round} {final : Run}
    (placed : program.addressOf start = .ok address)
    (made : Rounds program.siteAt budget (Run.start address) rounds (.ok final))
    (enough : rounds.length ≤ 2 * visitLimit) :
    program.trace start budget = .ok final.visits.reverse :=
  trace_of_follow placed (made.follow_eq enough)

/-- How a trace comes about: by rounds that find a mode each time and end by themselves. -/
structure Concludes (program : Program) (budget : Nat) (address : UInt16) (rounds : List Round)
    (visits : List Visit) : Prop where
  ends : ∃ final, visits = final.visits.reverse ∧ ∀ others outcome,
    Rounds program.siteAt budget (Run.start address) others outcome ↔
      others = rounds ∧ outcome = .ok final
  rounds_le : rounds.length ≤ 200000
  visits_pos : 1 ≤ visits.length
  visits_le : visits.length ≤ 100000
  found : ∀ round ∈ rounds, ∃ here, program.siteAt round.before.address = .ok here
  named : ∀ visit ∈ visits, program.nameAt? visit.address = some visit.mode
  returns_le : ∀ round ∈ rounds, round.after.returns ≤ 65535
  records : rounds.IsChain fun first second => first.Records ∨ second.Records

end Program

namespace Assembly

variable {assembly : Assembly} {program : Program} {start : String}

theorem exists_trace (compiled : assembly.compile.outcome = .ok program)
    (registered : start ∈ program.modeNames) (budget : Nat) : ∃ address rounds final,
      program.addressOf start = .ok address ∧ assembly.Underway (Run.start address) ∧
      Rounds program.siteAt budget (Run.start address) rounds (.ok final) ∧
      rounds.length ≤ 2 * visitLimit ∧
      program.trace start budget = .ok final.visits.reverse := by
  obtain ⟨sound, fits, rfl⟩ := compile_ok_iff.mp compiled
  rw [modeNames_image] at registered
  obtain ⟨mode, member, rfl⟩ := List.mem_map.mp registered
  have placed := addressOf_image_of_known ⟨mode, find?_name member⟩
  have underway := underway_start member placed
  obtain ⟨rounds, final, made, short⟩ := exists_rounds sound fits budget underway
    (show EnoughPasses (2 * visitLimit) 0 0 by unfold EnoughPasses; omega)
  exact ⟨_, rounds, final, placed, underway, made, short,
    Program.trace_of_rounds placed made short⟩

theorem concludes_of_rounds (sound : assembly.Sound) (fits : assembly.lineCount ≤ memoryCapacity)
    {budget : Nat} {address : UInt16} {rounds : List Round} {final : Run}
    (made : Rounds assembly.image.siteAt budget (Run.start address) rounds (.ok final))
    (underway : assembly.Underway (Run.start address)) (short : rounds.length ≤ 2 * visitLimit) :
    assembly.image.Concludes budget address rounds final.visits.reverse := by
  have turns := turns_of_rounds sound fits made underway
  obtain ⟨before, recorded⟩ := recorded_of_rounds sound fits made underway
  constructor
  · refine ⟨final, rfl, fun others outcome => ⟨made.unique, ?_⟩⟩
    intro same
    rw [same.1, same.2]
    exact made
  · exact short
  · rw [List.length_reverse]
    exact visits_pos sound fits made underway
  · calc
      final.visits.reverse.length = final.count := by
        rw [List.length_reverse, recorded.length_visits, recorded.count]
      _ ≤ visitLimit := made.count_le (Nat.zero_le _)
  · intro round member
    obtain ⟨mode, -, found⟩ := (turns round member).found
    exact ⟨_, found⟩
  · intro visit member
    exact nameAt?_addressOf fits (recorded.located visit (List.mem_reverse.mp member))
  · intro round member
    exact Nat.le_of_lt_succ (turns round member).returns_lt
  · exact made.linked.imp_of_mem_imp fun first second one other linked =>
      (turns first one).records_or_records (turns second other) linked

theorem trace_concludes (compiled : assembly.compile.outcome = .ok program) (start : String)
    (budget : Nat) :
    (∀ fault, program.trace start budget = .error fault ↔
      start ∉ program.modeNames ∧ fault = .unknownMode start) ∧
    (start ∈ program.modeNames → ∃ address rounds visits,
      program.addressOf start = .ok address ∧ program.trace start budget = .ok visits ∧
      program.Concludes budget address rounds visits) := by
  constructor
  · intro fault
    constructor
    · intro failed
      by_cases registered : start ∈ program.modeNames
      · obtain ⟨_, _, _, -, -, -, -, traced⟩ := exists_trace compiled registered budget
        cases failed.symm.trans traced
      · have unknown := Program.addressOf_eq_error_iff.mpr ⟨registered, rfl⟩
        cases failed.symm.trans (Program.trace_of_unknown unknown)
        exact ⟨registered, rfl⟩
    · intro unknown
      exact Program.trace_of_unknown (Program.addressOf_eq_error_iff.mpr unknown)
  · intro registered
    obtain ⟨address, rounds, final, placed, underway, made, short, traced⟩ :=
      exists_trace compiled registered budget
    obtain ⟨sound, fits, rfl⟩ := compile_ok_iff.mp compiled
    exact ⟨address, rounds, final.visits.reverse, placed, traced,
      concludes_of_rounds sound fits made underway short⟩

/-- A cycle through a nested mode in which no time passes, so that no budget ends it. -/
def idleCycle : Assembly where
  modes := [
    { name := "spin", loopCount := 1, next := some "twist", nesting := none
      states := [], states_le := Nat.zero_le _ },
    { name := "twist", loopCount := 1, next := some "spin", nesting := some ⟨"spin", 1, by decide⟩
      states := [⟨1, 0, Nat.zero_le _⟩], states_le := by decide }]
  names_nodup := by decide

theorem trace_concludes_idleCycle : idleCycle.compile.outcome = .ok idleCycle.image ∧
    (∀ fault, idleCycle.image.trace "spin" 1 = .error fault ↔
      "spin" ∉ idleCycle.image.modeNames ∧ fault = .unknownMode "spin") ∧
    "spin" ∈ idleCycle.image.modeNames ∧ ∃ address rounds visits,
      idleCycle.image.addressOf "spin" = .ok address ∧
      idleCycle.image.trace "spin" 1 = .ok visits ∧
      idleCycle.image.Concludes 1 address rounds visits := by
  have concludes := @trace_concludes idleCycle idleCycle.image (by rfl) "spin" 1
  exact ⟨by rfl, concludes.1, by decide, concludes.2 (by decide)⟩

end Assembly

end CcdController
