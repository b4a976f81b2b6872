import Mathlib.Algebra.GroupWithZero.Nat
import Mathlib.Algebra.Order.BigOperators.Group.List
import Mathlib.Algebra.Order.Ring.Nat
import CcdController.Proofs.TraceRounds

/-!
What the budget of a trace does. Two runs with different budgets make the same rounds until the smaller
budget is spent, so the trace for the smaller one is a front of the other, cut where its ticks first
come to the budget. A run is under its budget before each of its rounds, and a round takes no longer
than the longest mode that fits into the memory, so the ticks stay below a bound that the capacity gives.
-/
namespace CcdController

def Visit.total (visits : List Visit) : Nat := ticksOf (visits.map Visit.played)

/-- The front of a trace that ends where its ticks first come to the budget, and is not empty. -/
structure Reaches (budget : Nat) (whole front : List Visit) : Prop where
  front_of : front <+: whole
  some : front ≠ []
  spent : budget ≤ Visit.total front
  shortest : ∀ other, other <+: whole → other ≠ [] → budget ≤ Visit.total other →
    front.length ≤ other.length

def Truncates (budget : Nat) (whole front : List Visit) : Prop :=
  Reaches budget whole front ∨
    front = whole ∧ ∀ other, other <+: whole → other ≠ [] → Visit.total other < budget

def longestVisit : Nat := 65535 * 1022 * (2 ^ 24 - 1)

theorem Visit.total_le_of_prefix {front whole : List Visit} (front_of : front <+: whole) :
    Visit.total front ≤ Visit.total whole := by
  obtain ⟨back, rfl⟩ := front_of
  rw [total, total, List.map_append, ticksOf_append]
  exact Nat.le_add_right _ _

theorem Run.spent_pass_le (run : Run) (site : Site) :
    (run.pass site).spent ≤ run.spent + site.period * 65535 := by
  have played : ∀ repetitions ≤ 65535,
      run.spent + site.period * repetitions ≤ run.spent + site.period * 65535 :=
    fun repetitions few => Nat.add_le_add_left (Nat.mul_le_mul_left _ few) _
  unfold pass
  split
  · split
    · exact played 1 (by decide)
    · exact Nat.le_add_right _ _
  · exact played _ (Nat.le_of_lt_succ site.header.loopCount.toNat_lt)

theorem Run.length_visits_pass_le (run : Run) (site : Site) :
    (run.pass site).visits.length ≤ run.visits.length + 1 := by
  rcases run.visits_pass site with same | ⟨visit, added⟩
  · rw [same]
    exact Nat.le_succ _
  · rw [added]
    exact Nat.le_refl _

namespace Rounds

variable {site : UInt16 → Except Fault Site} {budget : Nat} {run final : Run} {rounds : List Round}
  {outcome : Except Fault Run}

/-- Runs with two budgets make the same rounds until the smaller budget is spent. -/
theorem truncates {small large : Nat} (ordered : small ≤ large) {others : List Round} {other : Run}
    (first : Rounds site small run rounds (.ok final))
    (second : Rounds site large run others (.ok other)) :
    final.visits <:+ other.visits ∧ (small ≤ final.spent ∨ final = other) := by
  generalize ended : Except.ok final = outcome at first
  induction first generalizing others with
  | full limit =>
      cases ended
      cases (second.eq_of_full limit).2
      exact ⟨List.suffix_refl _, .inr rfl⟩
  | astray => cases ended
  | forever room found endless =>
      cases ended
      cases (second.eq_of_endless room found endless).2
      exact ⟨List.suffix_refl _, .inr rfl⟩
  | stops room found finite stop =>
      cases ended
      rcases second.stops_or_goesOn room found finite with ⟨-, -, same⟩ | ⟨goes, later, rfl, rest⟩
      · cases same
        exact ⟨List.suffix_refl _, .inr rfl⟩
      · exact ⟨rest.suffix_visits, .inl (stop.resolve_left (not_or.mp goes).1)⟩
  | goesOn room found finite onward left _ ih =>
      rcases second.stops_or_goesOn room found finite with ⟨stop, -⟩ | ⟨-, later, rfl, rest⟩
      · have spent := Nat.le_trans ordered (stop.resolve_left onward)
        exact absurd spent (Nat.not_le.mpr left)
      · exact ih rest ended

theorem eq_of_suffix_of_longer {earlier grown tail : List Visit} (suffix : tail <:+ grown)
    (longer : earlier.length < tail.length) (step : grown.length ≤ earlier.length + 1) :
    grown = tail := (suffix.eq_of_length_le (Nat.le_trans step longer)).symm

theorem exists_of_suffix (made : Rounds site budget run rounds (.ok final)) {tail : List Visit}
    (suffix : tail <:+ final.visits) (longer : run.visits.length < tail.length) :
    ∃ round ∈ rounds, round.after.visits = tail := by
  generalize ended : Except.ok final = outcome at made
  induction made with
  | full =>
      cases ended
      exact absurd longer (Nat.not_lt.mpr suffix.length_le)
  | astray => cases ended
  | forever =>
      cases ended
      exact ⟨_, List.mem_cons_self, eq_of_suffix_of_longer suffix longer (Nat.le_refl _)⟩
  | stops =>
      cases ended
      exact ⟨_, List.mem_cons_self,
        eq_of_suffix_of_longer suffix longer (Run.length_visits_pass_le _ _)⟩
  | @goesOn run here _ _ _ _ _ _ _ rest ih =>
      subst ended
      rcases Nat.lt_or_ge (run.pass here).visits.length tail.length with beyond | within
      · obtain ⟨round, member, recorded⟩ := ih beyond rfl
        exact ⟨round, List.mem_cons_of_mem _ member, recorded⟩
      · have inside := List.suffix_of_suffix_length_le suffix rest.suffix_visits within
        exact ⟨_, List.mem_cons_self,
          eq_of_suffix_of_longer inside longer (Run.length_visits_pass_le _ _)⟩

theorem spent_lt (made : Rounds site budget run rounds (.ok final)) :
    ∀ round ∈ rounds, round.after.visits ≠ final.visits → round.after.spent < budget := by
  generalize ended : Except.ok final = outcome at made
  induction made with
  | full => exact fun round member => absurd member List.not_mem_nil
  | astray => cases ended
  | forever | stops =>
      cases ended
      exact List.forall_mem_singleton.mpr fun other => absurd rfl other
  | goesOn _ _ _ _ left _ ih =>
      subst ended
      exact List.forall_mem_cons.mpr ⟨fun _ => left, ih rfl⟩

/-- A run is under its budget whenever a round begins, at the least without any tick. -/
theorem before_le (made : Rounds site budget run rounds outcome)
    (within : run.spent ≤ max budget 1 - 1) :
    ∀ round ∈ rounds, round.before.spent ≤ max budget 1 - 1 := by
  induction made with
  | full | astray => exact fun round member => absurd member List.not_mem_nil
  | forever | stops => exact List.forall_mem_singleton.mpr within
  | goesOn _ _ _ _ left _ ih =>
      exact List.forall_mem_cons.mpr ⟨within, ih (by omega)⟩

theorem after_le (made : Rounds site budget run rounds outcome) : ∀ round ∈ rounds, ∃ here,
    site round.before.address = .ok here ∧
      round.after.spent ≤ round.before.spent + here.period * 65535 := by
  induction made with
  | full | astray => exact fun round member => absurd member List.not_mem_nil
  | forever _ found =>
      exact List.forall_mem_singleton.mpr ⟨_, found, Nat.add_le_add_left (Nat.zero_le _) _⟩
  | stops _ found => exact List.forall_mem_singleton.mpr ⟨_, found, Run.spent_pass_le _ _⟩
  | goesOn _ found _ _ _ _ ih =>
      exact List.forall_mem_cons.mpr ⟨⟨_, found, Run.spent_pass_le _ _⟩, ih⟩

end Rounds

namespace Mode

theorem period_le (mode : Mode) : mode.period ≤ mode.states.length * maxHoldTime := by
  have each : ∀ ticks ∈ mode.states.map TimingState.holdTime, ticks ≤ maxHoldTime := by
    intro ticks member
    obtain ⟨state, -, rfl⟩ := List.mem_map.mp member
    exact state.holdTime_le
  calc
    mode.period ≤ (mode.states.map TimingState.holdTime).length • maxHoldTime :=
      List.sum_le_card_nsmul _ _ each
    _ = mode.states.length * maxHoldTime := by
      rw [List.length_map]
      rfl

end Mode

namespace Assembly

variable {assembly : Assembly} {mode : Mode}

theorem length_states_le (fits : assembly.lineCount ≤ memoryCapacity)
    (member : mode ∈ assembly.modes) : mode.states.length ≤ 1022 := by
  obtain ⟨index, inside, rfl⟩ := List.mem_iff_getElem.mp member
  have lines := offset_mono assembly (Nat.succ_le_of_lt inside)
  rw [offset_succ inside, offset_length, Mode.lineCount] at lines
  unfold memoryCapacity at fits
  omega

theorem period_mul_le (fits : assembly.lineCount ≤ memoryCapacity)
    (member : mode ∈ assembly.modes) : mode.period * 65535 ≤ longestVisit := by
  calc
    mode.period * 65535 ≤ mode.states.length * maxHoldTime * 65535 :=
      Nat.mul_le_mul_right _ mode.period_le
    _ ≤ 1022 * maxHoldTime * 65535 :=
      Nat.mul_le_mul_right _ (Nat.mul_le_mul_right _ (length_states_le fits member))
    _ = longestVisit := by rfl

/-- No round of a run under its budget takes it further than the longest visit. -/
theorem round_le (sound : assembly.Sound) (fits : assembly.lineCount ≤ memoryCapacity)
    {budget : Nat} {run : Run} {rounds : List Round} {outcome : Except Fault Run}
    (made : Rounds assembly.image.siteAt budget run rounds outcome)
    (underway : assembly.Underway run) (within : run.spent ≤ max budget 1 - 1) :
    ∀ round ∈ rounds, ∃ here, assembly.image.siteAt round.before.address = .ok here ∧
      here.period * 65535 ≤ longestVisit ∧
      round.after.spent ≤ max budget 1 - 1 + longestVisit := by
  intro round member
  obtain ⟨mode, registered, found⟩ := (turns_of_rounds sound fits made underway round member).found
  obtain ⟨here, found', step⟩ := made.after_le round member
  cases found.symm.trans found'
  have longest := period_mul_le fits registered
  refine ⟨_, found, longest, ?_⟩
  calc
    round.after.spent ≤ round.before.spent + mode.period * 65535 := step
    _ ≤ max budget 1 - 1 + longestVisit :=
      Nat.add_le_add (made.before_le within round member) longest

end Assembly

structure Program.Budgeted (program : Program) (start : String) : Prop where
  truncates : ∀ small large, small ≤ large → ∃ front whole,
    program.trace start small = .ok front ∧ program.trace start large = .ok whole ∧
      Truncates small whole front
  total_le : ∀ budget, ∃ visits, program.trace start budget = .ok visits ∧
    Visit.total visits ≤ max budget 1 - 1 + 65535 * 1022 * (2 ^ 24 - 1)
  /-- The periods, the products and the sums of the ticks have 64 bits in every round. -/
  narrow : ∀ budget, budget ≤ 2 ^ 64 - 65535 * 1022 * (2 ^ 24 - 1) → ∃ address rounds final,
    program.addressOf start = .ok address ∧
    Rounds program.siteAt budget (Run.start address) rounds (.ok final) ∧
    program.trace start budget = .ok final.visits.reverse ∧
    ∀ round ∈ rounds, ∃ here, program.siteAt round.before.address = .ok here ∧
      here.period < 2 ^ 64 ∧ here.period * here.header.loopCount.toNat < 2 ^ 64 ∧
      round.after.spent < 2 ^ 64

namespace Assembly

variable {assembly : Assembly} {program : Program} {start : String}

theorem Recorded.spent_eq {before : List Played} {run : Run}
    (recorded : assembly.Recorded before run) : run.spent = Visit.total run.visits.reverse := by
  rw [recorded.spent, ← recorded.played]
  rfl

theorem total_lt_of_front (sound : assembly.Sound) (fits : assembly.lineCount ≤ memoryCapacity)
    {budget : Nat} {address : UInt16} {rounds : List Round} {final : Run} {front : List Visit}
    (made : Rounds assembly.image.siteAt budget (Run.start address) rounds (.ok final))
    (underway : assembly.Underway (Run.start address)) (front_of : front <+: final.visits.reverse)
    (some : front ≠ []) (proper : front ≠ final.visits.reverse) : Visit.total front < budget := by
  have suffix : front.reverse <:+ final.visits := by
    rw [← List.reverse_prefix, List.reverse_reverse]
    exact front_of
  have longer : 0 < front.reverse.length := by
    rw [List.length_reverse]
    exact List.length_pos_iff.mpr some
  obtain ⟨round, member, visits⟩ := made.exists_of_suffix suffix longer
  obtain ⟨before, recorded⟩ := (turns_of_rounds sound fits made underway round member).recorded
  calc
    Visit.total front = round.after.spent := by
      rw [recorded.spent_eq, visits, List.reverse_reverse]
    _ < budget := by
      apply made.spent_lt round member
      intro whole
      rw [visits] at whole
      apply proper
      rw [← whole, List.reverse_reverse]

theorem truncates_visits (sound : assembly.Sound) (fits : assembly.lineCount ≤ memoryCapacity)
    {small large : Nat} (ordered : small ≤ large) {address : UInt16} {rounds others : List Round}
    {final other : Run} (underway : assembly.Underway (Run.start address))
    (first : Rounds assembly.image.siteAt small (Run.start address) rounds (.ok final))
    (second : Rounds assembly.image.siteAt large (Run.start address) others (.ok other)) :
    Truncates small other.visits.reverse final.visits.reverse := by
  obtain ⟨suffix, ended⟩ := first.truncates ordered second
  obtain ⟨before, recorded⟩ := recorded_of_rounds sound fits first underway
  have spent_eq := recorded.spent_eq
  have front_of := List.reverse_prefix.mpr suffix
  by_cases spent : small ≤ final.spent
  · left
    rw [spent_eq] at spent
    refine ⟨front_of, ?_, spent, ?_⟩
    · apply List.ne_nil_of_length_pos
      rw [List.length_reverse]
      exact visits_pos sound fits first underway
    · intro front other_of some reached
      by_contra shorter
      have short := Nat.lt_of_not_le shorter
      have inside := List.prefix_of_prefix_length_le other_of front_of (Nat.le_of_lt short)
      have under := total_lt_of_front sound fits first underway inside some
        (fun same => Nat.ne_of_lt short (congrArg List.length same))
      exact absurd reached (Nat.not_le.mpr under)
  · right
    have same := ended.resolve_left spent
    rw [← same]
    refine ⟨rfl, fun front front_of' _ => ?_⟩
    calc
      Visit.total front ≤ Visit.total final.visits.reverse := Visit.total_le_of_prefix front_of'
      _ = final.spent := spent_eq.symm
      _ < small := Nat.lt_of_not_le spent

theorem total_visits_le (sound : assembly.Sound) (fits : assembly.lineCount ≤ memoryCapacity)
    {budget : Nat} {address : UInt16} {rounds : List Round} {final : Run}
    (made : Rounds assembly.image.siteAt budget (Run.start address) rounds (.ok final))
    (underway : assembly.Underway (Run.start address)) :
    Visit.total final.visits.reverse ≤ max budget 1 - 1 + longestVisit := by
  obtain ⟨before, recorded⟩ := recorded_of_rounds sound fits made underway
  rw [← recorded.spent_eq]
  rcases made.exists_last with unmoved | ⟨round, member, last⟩
  · rw [unmoved]
    exact Nat.zero_le _
  · obtain ⟨here, -, -, step⟩ :=
      round_le sound fits made underway (Nat.zero_le _) round member
    rw [← last]
    exact step

/-- A smaller budget leaves the shortest front of a trace that comes to it, and where no trace may
take more ticks than 64 bits hold, neither does anything on the way to it. -/
theorem trace_budgeted (compiled : assembly.compile.outcome = .ok program)
    (registered : start ∈ program.modeNames) : program.Budgeted start where
  truncates := by
    intro small large ordered
    obtain ⟨address, rounds, final, placed, underway, made, -, traced⟩ :=
      exists_trace compiled registered small
    obtain ⟨address', others, other, placed', -, made', -, traced'⟩ :=
      exists_trace compiled registered large
    obtain ⟨sound, fits, rfl⟩ := compile_ok_iff.mp compiled
    cases placed.symm.trans placed'
    exact ⟨_, _, traced, traced', truncates_visits sound fits ordered underway made made'⟩
  total_le := by
    intro budget
    obtain ⟨address, rounds, final, placed, underway, made, -, traced⟩ :=
      exists_trace compiled registered budget
    obtain ⟨sound, fits, rfl⟩ := compile_ok_iff.mp compiled
    exact ⟨_, traced, total_visits_le sound fits made underway⟩
  narrow := by
    intro budget small
    obtain ⟨address, rounds, final, placed, underway, made, -, traced⟩ :=
      exists_trace compiled registered budget
    obtain ⟨sound, fits, rfl⟩ := compile_ok_iff.mp compiled
    refine ⟨address, rounds, final, placed, made, traced, ?_⟩
    intro round member
    obtain ⟨here, found, longest, step⟩ :=
      round_le sound fits made underway (Nat.zero_le _) round member
    have wide : longestVisit < 2 ^ 64 := by decide
    have loops : here.period * here.header.loopCount.toNat ≤ here.period * 65535 :=
      Nat.mul_le_mul_left _ (Nat.le_of_lt_succ here.header.loopCount.toNat_lt)
    have once : here.period ≤ here.period * 65535 := Nat.le_mul_of_pos_right _ (by decide)
    have sum : max budget 1 - 1 + longestVisit < 2 ^ 64 := by
      unfold longestVisit
      omega
    exact ⟨here, found, Nat.lt_of_le_of_lt (Nat.le_trans once longest) wide,
      Nat.lt_of_le_of_lt (Nat.le_trans loops longest) wide, Nat.lt_of_le_of_lt step sum⟩

theorem trace_budgeted_lineReadout : lineReadout.compile.outcome = .ok lineReadout.image ∧
    "line" ∈ lineReadout.image.modeNames ∧ lineReadout.image.Budgeted "line" :=
  ⟨by rfl, by decide, @trace_budgeted lineReadout lineReadout.image "line" (by rfl) (by decide)⟩

end Assembly

end CcdController
