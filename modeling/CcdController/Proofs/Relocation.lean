import CcdController.Proofs.TraceRounds

/-!
The order in which modes are registered decides where they stand in memory and nothing else.
Addresses of two programs are compared by the names of the modes that stand there, `Corresponds`.
Programs with the same modes at such addresses run alike: `Alike.pass` is about one pass of the
sequencer and `exists_follow` about a whole run. `SameOutcome` says what becomes of two orders of the
same modes.
-/
namespace CcdController

namespace Program

/-- An address in one program and one in another at which the same mode stands, or the address of
no mode in both. -/
inductive Corresponds (first second : Program) : UInt16 → UInt16 → Prop where
  | nowhere : Corresponds first second noMode noMode
  | mode {name a b} (inFirst : first.addressOf name = .ok a)
      (inSecond : second.addressOf name = .ok b) (here : a ≠ noMode) (there : b ≠ noMode) :
      Corresponds first second a b

structure SameHeader (first second : Program) (one other : ModeHeader) : Prop where
  stateCount : one.stateCount = other.stateCount
  loopCount : one.loopCount = other.loopCount
  nestedLoopCount : one.nestedLoopCount = other.nestedLoopCount
  isNested : one.isNested = other.isNested
  next : first.Corresponds second one.nextAddress other.nextAddress
  parent : first.Corresponds second one.parentAddress other.parentAddress

structure SameSite (first second : Program) (one other : Site) : Prop where
  name : one.name = other.name
  header : first.SameHeader second one.header other.header
  period : one.period = other.period

structure SameVisit (first second : Program) (one other : Visit) : Prop where
  mode : one.mode = other.mode
  repetitions : one.repetitions = other.repetitions
  ticks : one.ticks = other.ticks
  address : first.Corresponds second one.address other.address

def SameSites (first second : Program) : Prop :=
  ∀ a b, first.Corresponds second a b → a ≠ noMode → ∃ here there,
    first.siteAt a = .ok here ∧ second.siteAt b = .ok there ∧ first.SameSite second here there

structure Alike (first second : Program) (one other : Run) : Prop where
  address : first.Corresponds second one.address other.address
  returns : one.returns = other.returns
  spent : one.spent = other.spent
  count : one.count = other.count
  visits : List.Forall₂ (first.SameVisit second) one.visits other.visits

variable {first second : Program} {one other : Run} {here there : Site} {a b : UInt16}

theorem Corresponds.eq_noMode_iff (corresponds : first.Corresponds second a b) :
    a = noMode ↔ b = noMode := by
  cases corresponds with
  | nowhere => rfl
  | mode _ _ here there => exact iff_of_false here there

theorem SameHeader.isTerminal_eq {one other : ModeHeader} (same : first.SameHeader second one other) :
    one.isTerminal = other.isTerminal := by
  rw [ModeHeader.isTerminal, ModeHeader.isTerminal, same.loopCount]

theorem alike_start (corresponds : first.Corresponds second a b) :
    first.Alike second (Run.start a) (Run.start b) :=
  ⟨corresponds, rfl, rfl, rfl, .nil⟩

theorem SameSite.ticks_eq (site : first.SameSite second here there) (repetitions : Nat) :
    here.period * repetitions = there.period * repetitions := by
  rw [site.period]

theorem Alike.record (alike : first.Alike second one other)
    (site : first.SameSite second here there) (repetitions : Nat) :
    first.Alike second (one.record here repetitions) (other.record there repetitions) where
  address := alike.address
  returns := alike.returns
  spent := by
    change one.spent + _ = other.spent + _
    rw [alike.spent, site.ticks_eq]
  count := congrArg (· + 1) alike.count
  visits := .cons ⟨site.name, rfl, site.ticks_eq repetitions, alike.address⟩ alike.visits

theorem Alike.move (alike : first.Alike second one other) {returns returns' : Nat}
    (same : returns = returns') (corresponds : first.Corresponds second a b) :
    first.Alike second { one with returns, address := a }
      { other with returns := returns', address := b } :=
  ⟨corresponds, same, alike.spent, alike.count, alike.visits⟩

theorem Alike.pass (alike : first.Alike second one other)
    (site : first.SameSite second here there) :
    first.Alike second (one.pass here) (other.pass there) := by
  have header := site.header
  unfold Run.pass
  rw [← header.isNested, ← header.nestedLoopCount, ← header.loopCount, ← alike.returns]
  by_cases nested : here.header.isNested
  · rw [if_pos nested, if_pos nested]
    by_cases again : one.returns < here.header.nestedLoopCount.toNat
    · rw [if_pos again, if_pos again]
      exact (alike.record site 1).move rfl header.parent
    · rw [if_neg again, if_neg again]
      exact alike.move rfl header.next
  · rw [if_neg nested, if_neg nested]
    exact (alike.record site _).move alike.returns header.next

/-- Alike runs end alike, after the same number of passes. -/
theorem exists_follow (sites : first.SameSites second) (budget passes : Nat)
    (alike : first.Alike second one other) (onward : one.address ≠ noMode) :
    ∃ final final', follow first.siteAt budget passes one = .ok final ∧
      follow second.siteAt budget passes other = .ok final' ∧ first.Alike second final final' := by
  induction passes generalizing one other with
  | zero => exact ⟨one, other, rfl, rfl, alike⟩
  | succ passes ih =>
      obtain ⟨here, there, found, found', site⟩ := sites _ _ alike.address onward
      have passed := alike.pass site
      simp only [follow, found, found', ← alike.count, ← site.header.isTerminal_eq,
        ← passed.address.eq_noMode_iff, ← passed.spent]
      by_cases full : visitLimit ≤ one.count
      · simp only [if_pos full]
        exact ⟨one, other, rfl, rfl, alike⟩
      by_cases endless : here.header.isTerminal
      · simp only [if_neg full, if_pos endless]
        exact ⟨_, _, rfl, rfl, alike.record site 0⟩
      by_cases ended : (one.pass here).address = noMode ∨ budget ≤ (one.pass here).spent
      · simp only [if_neg full, if_neg endless, if_pos ended]
        exact ⟨_, _, rfl, rfl, passed⟩
      · simp only [if_neg full, if_neg endless, if_neg ended]
        exact ih passed (not_or.mp ended).1

theorem exists_trace_alike (sites : first.SameSites second) {start : String}
    (inFirst : first.addressOf start = .ok a) (inSecond : second.addressOf start = .ok b)
    (corresponds : first.Corresponds second a b) (onward : a ≠ noMode) (budget : Nat) :
    ∃ visits visits', first.trace start budget = .ok visits ∧
      second.trace start budget = .ok visits' ∧
      List.Forall₂ (first.SameVisit second) visits visits' := by
  obtain ⟨final, final', followed, followed', alike⟩ :=
    exists_follow sites budget (2 * visitLimit) (alike_start corresponds) onward
  exact ⟨_, _, trace_of_follow inFirst followed, trace_of_follow inSecond followed',
    List.forall₂_reverse_iff.mpr alike.visits⟩

structure Relocated (modes : List Mode) (first second : Program) : Prop where
  size_eq : first.size = second.size
  placed : ∀ mode ∈ modes, ∃ a b one other later later',
    first.addressOf mode.name = .ok a ∧ second.addressOf mode.name = .ok b ∧
    first.words.drop a.toNat = .header one :: mode.states.map .state ++ later ∧
    second.words.drop b.toNat = .header other :: mode.states.map .state ++ later' ∧
    first.SameHeader second one other
  traced : ∀ mode ∈ modes, ∀ budget, ∃ visits visits',
    first.trace mode.name budget = .ok visits ∧ second.trace mode.name budget = .ok visits' ∧
    List.Forall₂ (first.SameVisit second) visits visits'
  unknown : ∀ name, name ∉ modes.map Mode.name → ∀ budget,
    first.trace name budget = .error (.unknownMode name) ∧
    second.trace name budget = .error (.unknownMode name)

end Program

inductive SameOutcome (modes : List Mode) : Except Fault Program → Except Fault Program → Prop where
  | compiled {first second} (relocated : Program.Relocated modes first second) :
      SameOutcome modes (.ok first) (.ok second)
  | inconsistent {issues issues'} (same : issues.Perm issues') :
      SameOutcome modes (.error (.inconsistent issues)) (.error (.inconsistent issues'))
  | overflow {lines} : SameOutcome modes (.error (.memoryOverflow lines memoryCapacity))
      (.error (.memoryOverflow lines memoryCapacity))

namespace Assembly

variable {first second : Assembly} {mode : Mode} (same : first.modes.Perm second.modes)

include same

theorem find?_eq_of_perm : first.find? = second.find? := by
  funext name
  apply Option.ext
  intro mode
  rw [find?_eq_some_iff, find?_eq_some_iff, same.mem_iff]

theorem lineCount_eq_of_perm : first.lineCount = second.lineCount := by
  rw [lineCount_eq_sum, lineCount_eq_sum]
  exact (same.map Mode.lineCount).sum_nat

/-- The issues of each mode stay, and come in the order of the modes. -/
theorem issues_perm : first.issues.Perm second.issues := by
  have each : (fun mode => first.nextIssues mode ++ first.parentIssues mode) =
      fun mode => second.nextIssues mode ++ second.parentIssues mode := by
    funext mode
    simp only [nextIssues, parentIssues, find?_eq_of_perm same]
  unfold issues
  rw [each]
  exact same.flatMap_right _

theorem sound_of_perm (sound : first.Sound) : second.Sound := by
  have clean := issues_perm same
  rw [issues_eq_nil_iff.mpr sound] at clean
  exact issues_eq_nil_iff.mp clean.nil_eq.symm

theorem corresponds_of_known (fits : first.lineCount ≤ memoryCapacity) {name : String}
    (known : ∃ found, first.find? name = some found) :
    first.image.Corresponds second.image (first.addressFor (some name))
      (second.addressFor (some name)) := by
  have inFirst := addressOf_image_of_known known
  have inSecond := addressOf_image_of_known (find?_eq_of_perm same ▸ known)
  apply Program.Corresponds.mode inFirst inSecond
  · exact addressOf_ne_noMode fits inFirst
  · exact addressOf_ne_noMode (lineCount_eq_of_perm same ▸ fits) inSecond

theorem corresponds_addressFor (fits : first.lineCount ≤ memoryCapacity) {reference : Option String}
    (known : ∀ name, reference = some name → ∃ found, first.find? name = some found) :
    first.image.Corresponds second.image (first.addressFor reference)
      (second.addressFor reference) := by
  cases reference with
  | none => exact .nowhere
  | some name => exact corresponds_of_known same fits (known name rfl)

theorem sameHeader_headerOf (sound : first.Sound) (fits : first.lineCount ≤ memoryCapacity)
    (member : mode ∈ first.modes) :
    first.image.SameHeader second.image (first.headerOf mode) (second.headerOf mode) where
  stateCount := rfl
  loopCount := rfl
  nestedLoopCount := rfl
  isNested := rfl
  next := corresponds_addressFor same fits (sound.next_known mode member)
  parent := by
    apply corresponds_addressFor same fits
    intro name named
    obtain ⟨found, at_name, -⟩ := sound.parent_known mode member name named
    exact ⟨found, at_name⟩

theorem sameSites_image (sound : first.Sound) (fits : first.lineCount ≤ memoryCapacity) :
    first.image.SameSites second.image := by
  intro a b corresponds onward
  cases corresponds with
  | nowhere => exact absurd rfl onward
  | mode inFirst inSecond =>
      obtain ⟨index, inside, rfl, -⟩ := addressOf_image_iff.mp inFirst
      have member := List.getElem_mem inside
      have found := find?_name member
      have found' := find?_eq_of_perm same ▸ found
      have fits' : second.lineCount ≤ memoryCapacity := lineCount_eq_of_perm same ▸ fits
      exact ⟨_, _, siteAt_image fits found inFirst, siteAt_image fits' found' inSecond,
        rfl, sameHeader_headerOf same sound fits member, rfl⟩

theorem relocated_image (sound : first.Sound) (fits : first.lineCount ≤ memoryCapacity) :
    Program.Relocated first.modes first.image second.image where
  size_eq := by
    rw [size_image, size_image, lineCount_eq_of_perm same]
  placed := by
    intro mode member
    have found := find?_name member
    have found' := find?_eq_of_perm same ▸ found
    have inFirst := addressOf_image_of_known ⟨mode, found⟩
    have inSecond := addressOf_image_of_known ⟨mode, found'⟩
    obtain ⟨later, block⟩ := drop_addressOf fits found inFirst
    obtain ⟨later', block'⟩ := drop_addressOf (lineCount_eq_of_perm same ▸ fits) found' inSecond
    exact ⟨_, _, _, _, later, later', inFirst, inSecond, block, block',
      sameHeader_headerOf same sound fits member⟩
  traced := by
    intro mode member budget
    have found := find?_name member
    have inFirst := addressOf_image_of_known ⟨mode, found⟩
    have inSecond := addressOf_image_of_known ⟨mode, find?_eq_of_perm same ▸ found⟩
    exact Program.exists_trace_alike (sameSites_image same sound fits) inFirst inSecond
      (corresponds_of_known same fits ⟨mode, found⟩) (addressOf_ne_noMode fits inFirst) budget
  unknown := by
    intro name missing budget
    constructor
    · apply Program.trace_of_unknown
      rw [Program.addressOf_eq_error_iff, modeNames_image]
      exact ⟨missing, rfl⟩
    · apply Program.trace_of_unknown
      rw [Program.addressOf_eq_error_iff, modeNames_image, ← (same.map Mode.name).mem_iff]
      exact ⟨missing, rfl⟩

theorem compile_sameOutcome :
    SameOutcome first.modes first.compile.outcome second.compile.outcome := by
  have lines := lineCount_eq_of_perm same
  by_cases clean : first.issues = []
  · have sound := issues_eq_nil_iff.mp clean
    have sound' := sound_of_perm same sound
    by_cases fits : first.lineCount ≤ memoryCapacity
    · rw [compile_of_fits sound fits, compile_of_fits sound' (lines ▸ fits)]
      exact .compiled (relocated_image same sound fits)
    · have long := Nat.lt_of_not_le fits
      rw [compile_of_overflow sound long, compile_of_overflow sound' (lines ▸ long), lines]
      exact .overflow
  · have issues := issues_perm same
    have found : second.issues ≠ [] := by
      intro none
      rw [none] at issues
      exact clean issues.eq_nil
    rw [compile_of_issues clean, compile_of_issues found]
    exact .inconsistent issues

omit same

def restFirst : Assembly where
  modes := lineReadout.modes.reverse
  names_nodup := by decide

theorem compile_sameOutcome_restFirst : lineReadout.modes.Perm restFirst.modes ∧
    lineReadout.compile.outcome = .ok lineReadout.image ∧
    SameOutcome lineReadout.modes lineReadout.compile.outcome restFirst.compile.outcome := by
  have reversed : lineReadout.modes.Perm restFirst.modes := (List.reverse_perm _).symm
  exact ⟨reversed, by rfl, compile_sameOutcome reversed⟩

example : lineReadout.image.addressOf "line" = .ok 0 ∧ restFirst.image.addressOf "line" = .ok 4 := by
  decide

end Assembly

end CcdController
