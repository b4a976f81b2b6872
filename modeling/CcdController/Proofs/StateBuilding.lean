import Mathlib.Algebra.GroupWithZero.Nat
import CcdController.Proofs.PinNaming
import CcdController.Proofs.Traversal
import CcdController.Word

/-!
Timing states from named bits, from bits by position and from tables. Named bits are described pin by
pin, by the last bit that is given to a pin. A table is described by its columns, each of which is
named bits, and by its first row or else its first hold time that is not as it has to be.
-/
namespace CcdController

theorem PinLabels.addressOf_eq_error_iff {labels : PinLabels} {name : String} {fault : Fault} :
    labels.addressOf name = .error fault ↔
      fault = .unknownLabel name ∧ ∀ address, labels.addressOf name ≠ .ok address := by
  rw [addressOf]
  split
  · simp
  · simp [eq_comm]

namespace TimingState

/-- The level that named bits give to a pin: that of the last bit whose label is at the pin. -/
inductive GivesLevel (labels : PinLabels) (bits : List (String × Bool)) (pin : Nat) : Bool → Prop
  | last {earlier later : List (String × Bool)} {name : String} {high : Bool}
      (split : bits = earlier ++ (name, high) :: later) (here : labels.addressOf name = .ok pin)
      (after : ∀ bit ∈ later, labels.addressOf bit.1 ≠ .ok pin) : GivesLevel labels bits pin high
  | low (nowhere : ∀ bit ∈ bits, labels.addressOf bit.1 ≠ .ok pin) : GivesLevel labels bits pin false

def Known (labels : PinLabels) (name : String) : Prop := ∃ address, labels.addressOf name = .ok address

structure FitsRow (labels : PinLabels) (width : Nat) (row : String × List Bool) : Prop where
  length_eq : row.2.length = width
  known : Known labels row.1

inductive RowFault (labels : PinLabels) (width : Nat) (row : String × List Bool) : Fault → Prop
  | length (other : row.2.length ≠ width) :
      RowFault labels width row (.rowLength row.1 row.2.length width)
  | name (same : row.2.length = width) (unknown : ¬ Known labels row.1) :
      RowFault labels width row (.unknownLabel row.1)

def column (rows : List (String × List Bool)) (place : Nat) : List (String × Bool) :=
  rows.filterMap fun row => row.2[place]?.map fun high => (row.1, high)

inductive TableOutcome (labels : PinLabels) (rows : List (String × List Bool)) (holdTimes : List Nat) :
    Except Fault (List TimingState) → Prop
  | states {states : List TimingState} (fits : ∀ row ∈ rows, FitsRow labels holdTimes.length row)
      (held : ∀ holdTime ∈ holdTimes, holdTime ≤ maxHoldTime)
      (length_eq : states.length = holdTimes.length)
      (columns : ∀ (place : Nat) (holdTime : Nat) (state : TimingState),
        holdTimes[place]? = some holdTime → states[place]? = some state →
          ofNamedBits labels (column rows place) holdTime = .ok state) :
      TableOutcome labels rows holdTimes (.ok states)
  | row {earlier later : List (String × List Bool)} {row : String × List Bool} {fault : Fault}
      (split : rows = earlier ++ row :: later)
      (before : ∀ row ∈ earlier, FitsRow labels holdTimes.length row)
      (wrong : RowFault labels holdTimes.length row fault) :
      TableOutcome labels rows holdTimes (.error fault)
  | holdTime {earlier later : List Nat} {holdTime : Nat}
      (fits : ∀ row ∈ rows, FitsRow labels holdTimes.length row)
      (split : holdTimes = earlier ++ holdTime :: later)
      (before : ∀ holdTime ∈ earlier, holdTime ≤ maxHoldTime) (long : maxHoldTime < holdTime) :
      TableOutcome labels rows holdTimes (.error (.holdTime holdTime))

/-- Named bits that give each of some levels to a label at its position, in any order, and nothing
else. -/
structure Positions (labels : PinLabels) (levels : List Bool) (bits : List (String × Bool)) : Prop where
  given : ∀ (pin : Nat) (high : Bool), levels[pin]? = some high →
    ∃ name, (name, high) ∈ bits ∧ labels.addressOf name = .ok pin
  placed : ∀ name high, (name, high) ∈ bits →
    ∃ pin, labels.addressOf name = .ok pin ∧ levels[pin]? = some high

variable {labels : PinLabels}

section

variable {bits : List (String × Bool)} {pins driven : Pins} {pin holdTime : Nat} {high : Bool}
  {state : TimingState}

theorem driveNamed_cons {name : String} {address : Nat} (here : labels.addressOf name = .ok address) :
    driveNamed labels pins ((name, high) :: bits) =
      driveNamed labels (pins.drive address high) bits := by
  rw [driveNamed, here]

theorem known_of_driveNamed (done : driveNamed labels pins bits = .ok driven) :
    ∀ bit ∈ bits, Known labels bit.1 := by
  induction bits generalizing pins with
  | nil => simp
  | cons bit bits ih =>
      rw [driveNamed] at done
      split at done
      · cases done
      · next address here =>
          exact List.forall_mem_cons.mpr ⟨⟨address, here⟩, ih done⟩

theorem exists_driveNamed (known : ∀ bit ∈ bits, Known labels bit.1) (pins : Pins) :
    ∃ driven, driveNamed labels pins bits = .ok driven := by
  induction bits generalizing pins with
  | nil => exact ⟨pins, rfl⟩
  | cons bit bits ih =>
      have ⟨first, rest⟩ := List.forall_mem_cons.mp known
      rcases first with ⟨address, here⟩
      rw [driveNamed_cons here]
      exact ih rest (pins.drive address bit.2)

theorem level_of_nowhere (nowhere : ∀ bit ∈ bits, labels.addressOf bit.1 ≠ .ok pin)
    (done : driveNamed labels pins bits = .ok driven) : driven.level pin = pins.level pin := by
  induction bits generalizing pins with
  | nil =>
      cases done
      rfl
  | cons bit bits ih =>
      have ⟨elsewhere, rest⟩ := List.forall_mem_cons.mp nowhere
      rw [driveNamed] at done
      split at done
      · cases done
      · next address here =>
          have other : pin ≠ address := by
            intro same
            rw [same] at elsewhere
            exact elsewhere here
          rw [ih rest done, Pins.level_drive (PinLabels.addressOf_lt here), if_neg other]

theorem exists_driveNamed_append {earlier later : List (String × Bool)}
    (done : driveNamed labels pins (earlier ++ later) = .ok driven) :
    ∃ between, driveNamed labels between later = .ok driven := by
  induction earlier generalizing pins with
  | nil => exact ⟨pins, done⟩
  | cons bit earlier ih =>
      rw [List.cons_append, driveNamed] at done
      split at done
      · cases done
      · exact ih done

/-- The last bit that is given to a pin decides. -/
theorem level_of_givesLevel (done : driveNamed labels 0 bits = .ok driven)
    (gives : GivesLevel labels bits pin high) : driven.level pin = high := by
  cases gives with
  | last split here after =>
      rw [split] at done
      rcases exists_driveNamed_append done with ⟨between, rest⟩
      rw [driveNamed_cons here] at rest
      rw [level_of_nowhere after rest, Pins.level_drive (PinLabels.addressOf_lt here), if_pos rfl]
  | low nowhere => rw [level_of_nowhere nowhere done, Pins.level_zero]

theorem exists_givesLevel (labels : PinLabels) (bits : List (String × Bool)) (pin : Nat) :
    ∃ high, GivesLevel labels bits pin high := by
  induction bits with
  | nil => exact ⟨false, .low (by simp)⟩
  | cons bit bits ih =>
      rcases ih with ⟨high, gives⟩
      cases gives with
      | @last earlier later name _ split here after =>
          have split' : bit :: bits = (bit :: earlier) ++ (name, high) :: later := by simp [split]
          exact ⟨high, .last split' here after⟩
      | low nowhere =>
          by_cases here : labels.addressOf bit.1 = .ok pin
          · have split : bit :: bits = [] ++ (bit.1, bit.2) :: bits := rfl
            exact ⟨bit.2, .last split here nowhere⟩
          · exact ⟨false, .low (List.forall_mem_cons.mpr ⟨here, nowhere⟩)⟩

theorem ofNamedBits_eq_ok_iff : ofNamedBits labels bits holdTime = .ok state ↔
    (∀ bit ∈ bits, Known labels bit.1) ∧ state.holdTime = holdTime ∧
      ∀ pin, GivesLevel labels bits pin (state.level pin) := by
  unfold ofNamedBits
  constructor
  · intro built
    split at built
    · cases built
    · next driven done =>
        rcases ofPins_eq_ok_iff.mp built with ⟨pins, held⟩
        refine ⟨known_of_driveNamed done, held, ?_⟩
        intro pin
        rcases exists_givesLevel labels bits pin with ⟨high, gives⟩
        have level : state.level pin = high := by
          rw [TimingState.level, pins]
          exact level_of_givesLevel done gives
        rw [level]
        exact gives
  · intro described
    rcases described with ⟨known, held, levels⟩
    rcases exists_driveNamed known 0 with ⟨driven, done⟩
    rw [done]
    apply ofPins_eq_ok_iff.mpr
    refine ⟨?_, held⟩
    apply Pins.eq_of_level
    intro pin _
    exact (level_of_givesLevel done (levels pin)).symm

theorem exists_ofNamedBits_iff : (∃ state, ofNamedBits labels bits holdTime = .ok state) ↔
    (∀ bit ∈ bits, Known labels bit.1) ∧ holdTime ≤ maxHoldTime := by
  constructor
  · intro built
    rcases built with ⟨state, built⟩
    rcases ofNamedBits_eq_ok_iff.mp built with ⟨known, held, -⟩
    rw [← held]
    exact ⟨known, state.holdTime_le⟩
  · intro good
    rcases good with ⟨known, short⟩
    rcases exists_driveNamed known 0 with ⟨driven, done⟩
    refine ⟨⟨driven, holdTime, short⟩, ?_⟩
    rw [ofNamedBits, done]
    exact ofPins_eq_ok_iff.mpr ⟨rfl, rfl⟩

end

section

variable {levels : List Bool} {bits : List (String × Bool)} {holdTime : Nat} {state : TimingState}

theorem level_ofLevels_of_few (few : levels.length ≤ pinCount) (pin : Nat) :
    (Pins.ofLevels levels).level pin = levels.getD pin false := by
  rw [Pins.level_ofLevels]
  by_cases inside : pin < pinCount
  · simp [inside]
  · have beyond : levels.length ≤ pin := by omega
    simp [inside, beyond]

theorem ofBits_eq_ok_iff : (ofBits levels holdTime).outcome = .ok state ↔
    levels.length ≤ pinCount ∧ state.holdTime = holdTime ∧
      ∀ pin, state.level pin = levels.getD pin false := by
  unfold ofBits
  split
  · next many =>
      constructor
      · intro refused
        cases refused
      · intro few
        exact absurd few.1 (Nat.not_le_of_lt many)
  · next few =>
      have fits : levels.length ≤ pinCount := Nat.le_of_not_lt few
      dsimp only
      rw [ofPins_eq_ok_iff]
      constructor
      · intro built
        refine ⟨fits, built.2, ?_⟩
        intro pin
        rw [level, built.1]
        exact level_ofLevels_of_few fits pin
      · intro described
        refine ⟨?_, described.2.1⟩
        apply Pins.eq_of_level
        intro pin _
        exact (described.2.2 pin).trans (level_ofLevels_of_few fits pin).symm

theorem Positions.known (positions : Positions labels levels bits) :
    ∀ bit ∈ bits, Known labels bit.1 := by
  intro bit member
  rcases positions.placed bit.1 bit.2 member with ⟨pin, here, -⟩
  exact ⟨pin, here⟩

theorem Positions.level_eq (positions : Positions labels levels bits) {pin : Nat} {high : Bool}
    (gives : GivesLevel labels bits pin high) : high = levels.getD pin false := by
  cases gives with
  | @last _ _ name _ split here after =>
      have member : (name, high) ∈ bits := by simp [split]
      rcases positions.placed name high member with ⟨pin', here', level⟩
      cases here.symm.trans here'
      simp [level]
  | low nowhere =>
      cases level : levels[pin]? with
      | none => simp [level]
      | some high =>
          rcases positions.given pin high level with ⟨name, member, here⟩
          exact absurd here (nowhere (name, high) member)

theorem ofBits_eq_ofNamedBits (few : levels.length ≤ pinCount)
    (positions : Positions labels levels bits) :
    (ofBits levels holdTime).outcome = ofNamedBits labels bits holdTime := by
  rcases exists_driveNamed positions.known 0 with ⟨driven, done⟩
  have same : driven = Pins.ofLevels levels := by
    apply Pins.eq_of_level
    intro pin _
    rcases exists_givesLevel labels bits pin with ⟨high, gives⟩
    calc
      driven.level pin = high := level_of_givesLevel done gives
      _ = levels.getD pin false := positions.level_eq gives
      _ = (Pins.ofLevels levels).level pin := (level_ofLevels_of_few few pin).symm
  rw [ofBits, if_neg (Nat.not_lt_of_le few), ofNamedBits, done, same]

end

theorem encode_eq (state : TimingState) :
    state.encode = 2 ^ 24 * state.pins.toNat + state.holdTime := by
  simp [encode, stateTag, Nat.shiftLeft_eq, Nat.mul_comm]

theorem holdTime_lt (state : TimingState) : state.holdTime < 2 ^ 24 :=
  Nat.lt_succ_of_le state.holdTime_le

theorem testBit_encode (state : TimingState) (pin : Nat) :
    state.encode.testBit (24 + pin) = state.level pin := by
  have above : ¬ 24 + pin < 24 := by omega
  rw [encode_eq, Nat.testBit_two_pow_mul_add _ state.holdTime_lt, if_neg above,
    Nat.add_sub_cancel_left]
  rfl

theorem encode_mod (state : TimingState) : state.encode % 2 ^ 24 = state.holdTime := by
  rw [encode_eq, Nat.mul_add_mod, Nat.mod_eq_of_lt state.holdTime_lt]

section

variable {rows : List (String × List Bool)} {holdTimes : List Nat} {width : Nat}
  {columns driven : List Pins} {states : List TimingState} {fault : Fault}

theorem getElem?_driveColumns (columns : List Pins) (address : Nat) (levels : List Bool)
    (place : Nat) : (driveColumns columns address levels)[place]? =
      (columns[place]?).bind fun pins => (levels[place]?).map fun high => pins.drive address high := by
  rw [driveColumns, List.getElem?_zipWith]
  cases columns[place]? <;> cases levels[place]? <;> rfl

theorem column_cons {name : String} {levels : List Bool} {place : Nat} {high : Bool}
    (there : levels[place]? = some high) :
    column ((name, levels) :: rows) place = (name, high) :: column rows place := by
  simp [column, there]

/-- Rows that are driven fit, and each column is driven by the bits that it has in the rows. -/
theorem driveRows_ok (done : driveRows labels width columns rows = .ok driven)
    (sizes : columns.length = width) :
    (∀ row ∈ rows, FitsRow labels width row) ∧ driven.length = width ∧
      ∀ place pins pins', columns[place]? = some pins → driven[place]? = some pins' →
        driveNamed labels pins (column rows place) = .ok pins' := by
  induction rows generalizing columns with
  | nil =>
      cases done
      refine ⟨by simp, sizes, ?_⟩
      intro place pins pins' there there'
      cases there.symm.trans there'
      rfl
  | cons row rows ih =>
      rw [driveRows] at done
      split at done
      · cases done
      · next fits =>
          split at done
          · cases done
          · next address here =>
              have length_eq : row.2.length = width := Classical.not_not.mp fits
              have sizes' : (driveColumns columns address row.2).length = width := by
                simp [driveColumns, sizes, length_eq]
              rcases ih done sizes' with ⟨others, length_driven, driven_by⟩
              refine ⟨List.forall_mem_cons.mpr ⟨⟨length_eq, address, here⟩, others⟩, length_driven, ?_⟩
              intro place pins pins' there there'
              have inside : place < row.2.length := by
                rw [length_eq, ← sizes]
                exact (List.getElem?_eq_some_iff.mp there).1
              have level : row.2[place]? = some row.2[place] := List.getElem?_eq_getElem inside
              -- What the first row did to the column is where the other rows go on.
              rw [column_cons level, driveNamed_cons here]
              apply driven_by place _ _ _ there'
              rw [getElem?_driveColumns, there, level]
              rfl

/-- Rows that are not driven are refused for the first that does not fit. -/
theorem driveRows_error (refused : driveRows labels width columns rows = .error fault) :
    ∃ earlier row later, rows = earlier ++ row :: later ∧
      (∀ row ∈ earlier, FitsRow labels width row) ∧ RowFault labels width row fault := by
  induction rows generalizing columns with
  | nil => cases refused
  | cons row rows ih =>
      rw [driveRows] at refused
      split at refused
      · next other =>
          cases refused
          exact ⟨[], row, rows, rfl, by simp, .length other⟩
      · next fits =>
          have length_eq : row.2.length = width := Classical.not_not.mp fits
          split at refused
          · next unknown =>
              cases refused
              rcases PinLabels.addressOf_eq_error_iff.mp unknown with ⟨rfl, nowhere⟩
              exact ⟨[], row, rows, rfl, by simp, .name length_eq (not_exists.mpr nowhere)⟩
          · next address here =>
              rcases ih refused with ⟨earlier, bad, later, split, before, wrong⟩
              have first : FitsRow labels width row := ⟨length_eq, address, here⟩
              refine ⟨row :: earlier, bad, later, by simp [split], ?_, wrong⟩
              exact List.forall_mem_cons.mpr ⟨first, before⟩

theorem RowFault.not_fits {row : String × List Bool} (wrong : RowFault labels width row fault) :
    ¬ FitsRow labels width row := by
  intro fits
  cases wrong with
  | length other => exact other fits.length_eq
  | name _ unknown => exact unknown fits.known

theorem RowFault.unique {row : String × List Bool} {other : Fault}
    (one : RowFault labels width row fault) (another : RowFault labels width row other) :
    fault = other := by
  cases one with
  | length differs =>
      cases another with
      | length => rfl
      | name same => exact absurd same differs
  | name same =>
      cases another with
      | length differs => exact absurd same differs
      | name => rfl

theorem exists_state (built : ((columns.zip holdTimes).mapM fun (pins, holdTime) =>
      ofPins pins holdTime) = .ok states) (sizes : columns.length = holdTimes.length)
    {place holdTime : Nat} (timed : holdTimes[place]? = some holdTime) :
    ∃ pins state, columns[place]? = some pins ∧ states[place]? = some state ∧
      ofPins pins holdTime = .ok state := by
  have inside : place < columns.length := by
    rw [sizes]
    exact (List.getElem?_eq_some_iff.mp timed).1
  have driven : columns[place]? = some columns[place] := List.getElem?_eq_getElem inside
  have paired : (columns.zip holdTimes)[place]? = some (columns[place], holdTime) :=
    List.getElem?_zip_eq_some.mpr ⟨driven, timed⟩
  have each := getElem?_of_mapM built place
  rw [paired, Option.map_some] at each
  rcases Option.map_eq_some_iff.mp each.symm with ⟨state, there, passes⟩
  exact ⟨columns[place], state, driven, there, passes.symm⟩

theorem outcome_ofTable (labels : PinLabels) (rows : List (String × List Bool))
    (holdTimes : List Nat) : TableOutcome labels rows holdTimes (ofTable labels rows holdTimes) := by
  unfold ofTable
  split
  · next refused =>
      rcases driveRows_error refused with ⟨earlier, row, later, split, before, wrong⟩
      exact .row split before wrong
  · next columns done =>
      rcases driveRows_ok done List.length_replicate with ⟨fits, sizes, driven_by⟩
      have times : (columns.zip holdTimes).map Prod.snd = holdTimes :=
        List.map_snd_zip (Nat.le_of_eq sizes.symm)
      cases built : (columns.zip holdTimes).mapM fun (pins, holdTime) => ofPins pins holdTime with
      | error fault =>
          -- A column is never at fault, so the first pair that is refused has the first long hold time.
          rcases mapM_eq_error_iff.mp built with ⟨earlier, item, later, split, before, fails⟩
          rcases ofPins_eq_error_iff.mp fails with ⟨long, rfl⟩
          apply TableOutcome.holdTime fits _ _ long
          · exact earlier.map Prod.snd
          · exact later.map Prod.snd
          · rw [← times, split, List.map_append, List.map_cons]
          · intro holdTime member
            rcases List.mem_map.mp member with ⟨passed, among, rfl⟩
            rcases before passed among with ⟨state, passes⟩
            exact holdTime_of_ofPins passes
      | ok states =>
          have length_states : states.length = holdTimes.length := by
            rw [← (mapM_eq_ok_iff.mp built).length_eq, ← congrArg List.length times, List.length_map]
          apply TableOutcome.states fits _ length_states
          · intro place holdTime state timed there
            rcases exists_state built sizes timed with ⟨pins, state', driven, there', passes⟩
            cases there.symm.trans there'
            have low : (List.replicate holdTimes.length (0 : Pins))[place]? = some 0 := by
              have inside := (List.getElem?_eq_some_iff.mp timed).1
              simp [inside]
            rw [ofNamedBits, driven_by place 0 pins low driven]
            exact passes
          · intro holdTime member
            rcases List.getElem?_of_mem member with ⟨place, timed⟩
            rcases exists_state built sizes timed with ⟨_, _, _, _, passes⟩
            exact holdTime_of_ofPins passes

theorem RowFault.not_all {row : String × List Bool} {earlier later : List (String × List Bool)}
    (split : rows = earlier ++ row :: later) (wrong : RowFault labels width row fault) :
    ¬ ∀ row ∈ rows, FitsRow labels width row := by
  intro fits
  apply wrong.not_fits
  apply fits
  simp [split]

theorem not_all_held {earlier later : List Nat} {holdTime : Nat}
    (split : holdTimes = earlier ++ holdTime :: later) (long : maxHoldTime < holdTime) :
    ¬ ∀ holdTime ∈ holdTimes, holdTime ≤ maxHoldTime := by
  intro held
  have short : holdTime ≤ maxHoldTime := by
    apply held
    simp [split]
  omega

theorem TableOutcome.unique {one other : Except Fault (List TimingState)}
    (first : TableOutcome labels rows holdTimes one)
    (second : TableOutcome labels rows holdTimes other) : one = other := by
  cases first with
  | states fits held length_eq columns =>
      cases second with
      | states _ _ length_eq' columns' =>
          congr 1
          apply List.ext_getElem (length_eq.trans length_eq'.symm)
          intro place inside inside'
          have timed : place < holdTimes.length := length_eq ▸ inside
          have state := columns place _ _ (List.getElem?_eq_getElem timed)
            (List.getElem?_eq_getElem inside)
          have state' := columns' place _ _ (List.getElem?_eq_getElem timed)
            (List.getElem?_eq_getElem inside')
          exact Except.ok.inj (state.symm.trans state')
      | row split _ wrong => exact absurd fits (wrong.not_all split)
      | holdTime _ split _ long => exact absurd held (not_all_held split long)
  | row split before wrong =>
      cases second with
      | states fits => exact absurd fits (wrong.not_all split)
      | row split' before' wrong' =>
          have same := eq_of_first (split.symm.trans split') before before' wrong.not_fits
            wrong'.not_fits
          subst same
          rw [wrong.unique wrong']
      | holdTime fits => exact absurd fits (wrong.not_all split)
  | holdTime fits split before long =>
      cases second with
      | states _ held => exact absurd held (not_all_held split long)
      | row split' _ wrong => exact absurd fits (wrong.not_all split')
      | holdTime _ split' before' long' =>
          have same := eq_of_first (split.symm.trans split') before before' (Nat.not_le_of_lt long)
            (Nat.not_le_of_lt long')
          rw [same]

theorem ofTable_eq_iff (labels : PinLabels) (rows : List (String × List Bool))
    (holdTimes : List Nat) (result : Except Fault (List TimingState)) :
    ofTable labels rows holdTimes = result ↔ TableOutcome labels rows holdTimes result := by
  constructor
  · intro same
    rw [← same]
    exact outcome_ofTable labels rows holdTimes
  · intro outcome
    exact (outcome_ofTable labels rows holdTimes).unique outcome

theorem exists_states_iff : (∃ states, ofTable labels rows holdTimes = .ok states) ↔
    (∀ row ∈ rows, FitsRow labels holdTimes.length row) ∧
      ∀ holdTime ∈ holdTimes, holdTime ≤ maxHoldTime := by
  constructor
  · intro built
    rcases built with ⟨states, built⟩
    cases (ofTable_eq_iff labels rows holdTimes _).mp built with
    | states fits held => exact ⟨fits, held⟩
  · intro good
    rcases good with ⟨fits, held⟩
    cases result : ofTable labels rows holdTimes with
    | ok states => exact ⟨states, rfl⟩
    | error fault =>
        cases (ofTable_eq_iff labels rows holdTimes _).mp result with
        | row split _ wrong => exact absurd fits (wrong.not_all split)
        | holdTime _ split _ long => exact absurd held (not_all_held split long)

end

structure BuildersAgree (labels : PinLabels) : Prop where
  table : ∀ rows holdTimes result,
    ofTable labels rows holdTimes = result ↔ TableOutcome labels rows holdTimes result
  table_ok : ∀ rows holdTimes, (∃ states, ofTable labels rows holdTimes = .ok states) ↔
    (∀ row ∈ rows, FitsRow labels holdTimes.length row) ∧
      ∀ holdTime ∈ holdTimes, holdTime ≤ maxHoldTime
  named_ok : ∀ bits holdTime, (∃ state, ofNamedBits labels bits holdTime = .ok state) ↔
    (∀ bit ∈ bits, Known labels bit.1) ∧ holdTime ≤ maxHoldTime
  named : ∀ bits holdTime state, ofNamedBits labels bits holdTime = .ok state ↔
    (∀ bit ∈ bits, Known labels bit.1) ∧ state.holdTime = holdTime ∧
      ∀ pin, GivesLevel labels bits pin (state.level pin)
  positional : ∀ levels holdTime state, (ofBits levels holdTime).outcome = .ok state ↔
    levels.length ≤ pinCount ∧ state.holdTime = holdTime ∧
      ∀ pin, state.level pin = levels.getD pin false
  at_positions : ∀ levels bits holdTime, levels.length ≤ pinCount → Positions labels levels bits →
    (ofBits levels holdTime).outcome = ofNamedBits labels bits holdTime
  pins_encoded : ∀ (state : TimingState) (pin : Nat),
    state.encode.testBit (24 + pin) = state.level pin
  holdTime_encoded : ∀ state : TimingState, state.encode % 2 ^ 24 = state.holdTime

theorem builders_agree (labels : PinLabels) : BuildersAgree labels where
  table := ofTable_eq_iff labels
  table_ok := fun _ _ => exists_states_iff
  named_ok := fun _ _ => exists_ofNamedBits_iff
  named := fun _ _ _ => ofNamedBits_eq_ok_iff
  positional := fun _ _ _ => ofBits_eq_ok_iff
  at_positions := fun _ _ _ => ofBits_eq_ofNamedBits
  pins_encoded := testBit_encode
  holdTime_encoded := encode_mod

end TimingState

end CcdController
