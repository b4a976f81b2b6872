import CcdController.Assembly
import CcdController.Proofs.Keyed
import CcdController.Proofs.LineCodec

namespace CcdController

namespace Mode

inductive Call where
  | addState (state : TimingState)
  | addStates (states : List TimingState)

def Call.offered : Call → List TimingState
  | addState state => [state]
  | addStates states => states

def perform (mode : Mode) : Call → Mode × Except Fault Unit
  | .addState state =>
      match mode.addState state with
      | .error fault => (mode, .error fault)
      | .ok grown => (grown, .ok ())
  | .addStates states => mode.addStates states

def after (mode : Mode) (calls : List Call) : Mode :=
  calls.foldl (fun mode call => (mode.perform call).1) mode

def encode (mode : Mode) (addresses : AddressTable) : Except Fault Nat :=
  (mode.header addresses).map ModeHeader.encode

def Resolves (addresses : AddressTable) (reference : Option String) (address : UInt16) : Prop :=
  match reference with
  | none => address = 0x3FF
  | some name => addresses.lookup name = some address

/-- A header tells all about a mode that the memory keeps of it. -/
structure Describes (mode : Mode) (addresses : AddressTable) (header : ModeHeader) : Prop where
  states : header.stateCount.toNat = mode.states.length
  loops : header.loopCount = mode.loopCount
  returns : header.nestedLoopCount = mode.nestedLoopCount
  nested : header.isNested = mode.isNested
  next : Resolves addresses mode.next header.nextAddress
  parent : Resolves addresses mode.parent header.parentAddress

structure MadeFrom (name : String) (loops : Nat) (next : Option String)
    (nesting : Option (String × Nat)) (mode : Mode) : Prop where
  name_eq : mode.name = name
  loopCount_eq : mode.loopCount.toNat = loops
  next_eq : mode.next = next
  parent_eq : mode.parent = nesting.map Prod.fst
  nestedLoopCount_eq : mode.nestedLoopCount.toNat = (nesting.map Prod.snd).getD 0

structure Grown (offered : List TimingState) (mode : Mode) : Prop where
  states_eq : mode.states = offered.take 1023
  length_le : mode.states.length ≤ 1023
  call_states : ∀ call, (mode.perform call).1.states =
    mode.states ++ call.offered.take (1023 - mode.states.length)
  call_fails_iff : ∀ call fault, (mode.perform call).2 = .error fault ↔
    1023 < mode.states.length + call.offered.length ∧ fault = .tooManyStates mode.name
  nested_iff : mode.isNested = true ↔ 1 ≤ mode.nestedLoopCount.toNat
  decodes : ∀ addresses : AddressTable,
    (∀ reference, mode.next = some reference ∨ mode.parent = some reference →
      reference ∈ addresses.map Prod.fst) →
    ∃ line header, mode.encode addresses = .ok line ∧ ModeHeader.decode line = .ok header ∧
      mode.Describes addresses header

variable (mode : Mode)

def fill (states : List TimingState) : Mode :=
  { mode with
    states := mode.states ++ states.take (maxStates - mode.states.length)
    states_le := by
      have room := mode.states_le
      rw [List.length_append, List.length_take]
      omega }

def ending (states : List TimingState) : Except Fault Unit :=
  if mode.states.length + states.length ≤ maxStates then .ok () else .error (.tooManyStates mode.name)

variable {mode}

theorem states_fill (states : List TimingState) : (mode.fill states).states =
    mode.states ++ states.take (maxStates - mode.states.length) := rfl

theorem fill_eq_self {states : List TimingState}
    (none : states.take (maxStates - mode.states.length) = []) : mode.fill states = mode := by
  cases mode
  simp only [fill, none, List.append_nil]

theorem fill_fill (one other : List TimingState) : (mode.fill one).fill other = mode.fill (one ++ other) := by
  have room := mode.states_le
  have left : maxStates - (mode.fill one).states.length =
      maxStates - mode.states.length - one.length := by
    simp only [fill, List.length_append, List.length_take]
    omega
  simp only [fill] at left
  cases mode
  simp only [fill, left, List.take_append, List.append_assoc]

section

variable {state : TimingState} {rest : List TimingState}

theorem addState_of_room (room : mode.states.length < maxStates) :
    mode.addState state = .ok (mode.fill [state]) := by
  have taken : [state].take (maxStates - mode.states.length) = [state] := by
    apply List.take_of_length_le
    simp only [List.length_singleton]
    omega
  cases mode
  simp only [addState, fill, dif_pos room, taken]

theorem addState_of_full (full : maxStates ≤ mode.states.length) :
    mode.addState state = .error (.tooManyStates mode.name) := dif_neg (Nat.not_lt.mpr full)

theorem fill_of_full (full : maxStates ≤ mode.states.length) (states : List TimingState) :
    mode.fill states = mode := by
  apply fill_eq_self
  rw [Nat.sub_eq_zero_of_le full, List.take_zero]

theorem ending_of_full (full : maxStates ≤ mode.states.length) :
    mode.ending (state :: rest) = .error (.tooManyStates mode.name) := by
  apply if_neg
  rw [List.length_cons]
  omega

theorem ending_fill_of_room (room : mode.states.length < maxStates) :
    (mode.fill [state]).ending rest = mode.ending (state :: rest) := by
  have one : (mode.fill [state]).states.length = mode.states.length + 1 := by
    simp only [fill, List.length_append, List.length_take, List.length_singleton]
    omega
  have name : (mode.fill [state]).name = mode.name := rfl
  rw [ending, ending, one, name, List.length_cons, Nat.add_assoc, Nat.add_comm 1]

end

theorem addStates_eq (states : List TimingState) :
    mode.addStates states = (mode.fill states, mode.ending states) := by
  induction states generalizing mode with
  | nil =>
      have fits : mode.ending [] = .ok () := if_pos mode.states_le
      rw [fits, fill_eq_self (List.take_nil)]
      rfl
  | cons state rest ih =>
      rw [addStates]
      rcases Nat.lt_or_ge mode.states.length maxStates with room | full
      · rw [addState_of_room room]
        simp only [ih, fill_fill, ending_fill_of_room room, List.singleton_append]
      · rw [addState_of_full full, fill_of_full full, ending_of_full full]

theorem perform_eq (call : Call) :
    mode.perform call = (mode.fill call.offered, mode.ending call.offered) := by
  cases call with
  | addStates states => exact addStates_eq states
  | addState state =>
      rw [← addStates_eq, Call.offered, addStates, perform]
      cases mode.addState state with
      | error fault => rfl
      | ok grown => rfl

/-- After any run of calls there are the first of all states that were offered. -/
theorem after_eq (calls : List Call) : mode.after calls = mode.fill (calls.flatMap Call.offered) := by
  induction calls generalizing mode with
  | nil => exact (fill_eq_self List.take_nil).symm
  | cons call calls ih =>
      calc
        mode.after (call :: calls) = (mode.fill call.offered).after calls := by
          rw [after, List.foldl_cons, perform_eq]
          rfl
        _ = mode.fill ((call :: calls).flatMap Call.offered) := by
          rw [ih, fill_fill, List.flatMap_cons]

theorem ending_eq_error_iff {states : List TimingState} {fault : Fault} :
    mode.ending states = .error fault ↔
      maxStates < mode.states.length + states.length ∧ fault = .tooManyStates mode.name := by
  by_cases fits : mode.states.length + states.length ≤ maxStates
  · simp [ending, fits, Nat.not_lt.mpr fits]
  · simp [ending, fits, Nat.not_le.mp fits, eq_comm]

theorem resolve_eq_ok_iff {addresses : AddressTable} {reference : Option String} {address : UInt16} :
    resolve addresses reference = .ok address ↔ Resolves addresses reference address := by
  cases reference with
  | none => simp [resolve, Resolves, noMode, eq_comm]
  | some name =>
      rw [resolve, Resolves]
      cases addresses.lookup name with
      | none => simp
      | some found => simp

theorem exists_resolves {addresses : AddressTable} {reference : Option String}
    (known : ∀ name, reference = some name → name ∈ addresses.map Prod.fst) :
    ∃ address, Resolves addresses reference address := by
  cases reference with
  | none => exact ⟨_, rfl⟩
  | some name =>
      have held := Keyed.lookup_ne_none_iff.mpr (known name rfl)
      exact Option.ne_none_iff_exists'.mp held

theorem toNat_ofNat_states (mode : Mode) :
    (UInt16.ofNat mode.states.length).toNat = mode.states.length :=
  UInt16.toNat_ofNat_of_lt' (Nat.lt_of_le_of_lt mode.states_le (by decide))

/-- Where its references are known, a mode is read back from its line. -/
theorem exists_decoded {addresses : AddressTable}
    (known : ∀ reference, mode.next = some reference ∨ mode.parent = some reference →
      reference ∈ addresses.map Prod.fst) :
    ∃ line header, mode.encode addresses = .ok line ∧ ModeHeader.decode line = .ok header ∧
      mode.Describes addresses header := by
  obtain ⟨next, nextHeld⟩ := exists_resolves fun name named => known name (.inl named)
  obtain ⟨parent, parentHeld⟩ := exists_resolves fun name named => known name (.inr named)
  let header : ModeHeader := {
    stateCount := UInt16.ofNat mode.states.length
    loopCount := mode.loopCount
    nestedLoopCount := mode.nestedLoopCount
    isNested := mode.isNested
    nextAddress := next
    parentAddress := parent }
  refine ⟨header.encode, header, ?_, header.decode_encode, ?_⟩
  · have first := resolve_eq_ok_iff.mpr nextHeld
    have second := resolve_eq_ok_iff.mpr parentHeld
    rw [encode, Mode.header, first, second]
    rfl
  · exact {
      states := toNat_ofNat_states mode
      loops := rfl
      returns := rfl
      nested := rfl
      next := nextHeld
      parent := parentHeld }

theorem isNested_iff : mode.isNested = true ↔ 1 ≤ mode.nestedLoopCount.toNat := by
  rw [isNested, nestedLoopCount]
  cases nested : mode.nesting with
  | none => simp
  | some nesting =>
      have positive := UInt16.lt_iff_toNat_lt.mp nesting.returns_pos
      simp only [Option.isSome_some, true_iff]
      exact positive

theorem toNat_ofNat_loops {count : Nat} (within : count ≤ maxLoops) :
    (UInt16.ofNat count).toNat = count := UInt16.toNat_ofNat_of_lt' (Nat.lt_succ_of_le within)

theorem tie_of_ofCount {parent : String} {count : Nat} {nesting : Nesting}
    (made : Nesting.ofCount parent count = .ok nesting) :
    nesting.parent = parent ∧ nesting.returns.toNat = count := by
  unfold Nesting.ofCount at made
  split at made
  · next within =>
      cases made
      exact ⟨rfl, toNat_ofNat_loops within.2⟩
  · cases made

section

variable {name : String} {loops : Nat} {next : Option String} {nesting : Option (String × Nat)}
  {made : Mode}

theorem madeFrom_of_ofLoops (start : ofLoops name loops next nesting = .ok made) :
    made.MadeFrom name loops next nesting ∧ made.states = [] := by
  unfold ofLoops at start
  split at start
  · next within =>
      have count := toNat_ofNat_loops within
      cases nesting with
      | none =>
          cases start
          exact ⟨⟨rfl, count, rfl, rfl, rfl⟩, rfl⟩
      | some tie =>
          cases tied : Nesting.ofCount tie.1 tie.2 with
          | error fault =>
              simp only [tied] at start
              cases start
          | ok nesting =>
              simp only [tied] at start
              cases start
              obtain ⟨parent, returns⟩ := tie_of_ofCount tied
              exact ⟨⟨rfl, count, rfl, congrArg some parent, returns⟩, rfl⟩
  · cases start

theorem MadeFrom.after (from_start : made.MadeFrom name loops next nesting) (calls : List Call) :
    (made.after calls).MadeFrom name loops next nesting := by
  rw [after_eq]
  exact ⟨from_start.name_eq, from_start.loopCount_eq, from_start.next_eq, from_start.parent_eq,
    from_start.nestedLoopCount_eq⟩

theorem grown_after (empty : made.states = []) (calls : List Call) :
    (made.after calls).Grown (calls.flatMap Call.offered) where
  states_eq := by
    rw [after_eq, states_fill, empty]
    rfl
  length_le := (made.after calls).states_le
  call_states := by
    intro call
    rw [perform_eq]
    rfl
  call_fails_iff := by
    intro call fault
    rw [perform_eq]
    exact ending_eq_error_iff
  nested_iff := isNested_iff
  decodes := by
    intro addresses known
    exact exists_decoded known

end

end Mode

namespace Assembly

inductive Call where
  | add (mode : Mode)
  | compile

def Call.attempted : Call → Option Mode
  | add mode => some mode
  | compile => none

def perform (assembly : Assembly) : Call → Assembly × Except Fault Unit
  | .add mode =>
      match assembly.add mode with
      | .error fault => (assembly, .error fault)
      | .ok extended => (extended, .ok ())
  | .compile => (assembly, assembly.compile.outcome.map fun _ => ())

def after (assembly : Assembly) (calls : List Call) : Assembly :=
  calls.foldl (fun assembly call => (assembly.perform call).1) assembly

structure Registered (attempted : List Mode) (assembly : Assembly) : Prop where
  modes_eq : assembly.modes = attempted.eraseDupsBy fun mode earlier => mode.name == earlier.name
  names_nodup : (assembly.modes.map Mode.name).Nodup
  add_new : ∀ mode, mode.name ∉ assembly.modes.map Mode.name →
    (assembly.perform (.add mode)).2 = .ok () ∧
      (assembly.perform (.add mode)).1.modes = assembly.modes ++ [mode]
  add_known : ∀ mode, mode.name ∈ assembly.modes.map Mode.name →
    assembly.perform (.add mode) = (assembly, .error (.duplicateMode mode.name))
  compile_either : (assembly.perform .compile).1 = assembly

theorem add_of_new {assembly : Assembly} {mode : Mode}
    (fresh : mode.name ∉ assembly.modes.map Mode.name) : ∃ extended,
      assembly.add mode = .ok extended ∧ extended.modes = assembly.modes ++ [mode] :=
  ⟨_, dif_neg fresh, rfl⟩

theorem add_of_known {assembly : Assembly} {mode : Mode}
    (known : mode.name ∈ assembly.modes.map Mode.name) :
    assembly.add mode = .error (.duplicateMode mode.name) := dif_pos known

theorem perform_new {assembly : Assembly} {mode : Mode}
    (fresh : mode.name ∉ assembly.modes.map Mode.name) :
    (assembly.perform (.add mode)).2 = .ok () ∧
      (assembly.perform (.add mode)).1.modes = assembly.modes ++ [mode] := by
  obtain ⟨extended, added, modes⟩ := add_of_new fresh
  rw [perform, added]
  exact ⟨rfl, modes⟩

theorem perform_known {assembly : Assembly} {mode : Mode}
    (known : mode.name ∈ assembly.modes.map Mode.name) :
    assembly.perform (.add mode) = (assembly, .error (.duplicateMode mode.name)) := by
  rw [perform, add_of_known known]

/-- The modes that are there so far are those that were kept while the attempts were searched for
repeated names. -/
theorem modes_after (assembly : Assembly) (calls : List Call) : (assembly.after calls).modes =
    List.eraseDupsBy.loop (fun mode earlier => mode.name == earlier.name)
      (calls.filterMap Call.attempted) assembly.modes.reverse := by
  -- The search keeps what it has found last to first, as the modes are kept first to last.
  induction calls generalizing assembly with
  | nil => exact assembly.modes.reverse_reverse.symm
  | cons call calls ih =>
      rw [after, List.foldl_cons]
      refine (ih _).trans ?_
      cases call with
      | compile => rfl
      | add mode =>
          have among : (assembly.modes.reverse.any fun earlier => mode.name == earlier.name) = true ↔
              mode.name ∈ assembly.modes.map Mode.name := by
            simp only [List.any_eq_true, List.mem_reverse, beq_iff_eq, List.mem_map]
            exact exists_congr fun earlier => and_congr_right fun _ => eq_comm
          simp only [List.filterMap_cons, Call.attempted, List.eraseDupsBy.loop]
          by_cases known : mode.name ∈ assembly.modes.map Mode.name
          · rw [among.mpr known, perform_known known]
          · rw [(perform_new known).2, Bool.eq_false_iff.mpr (mt among.mp known), List.reverse_append]
            rfl

theorem registered_after (calls : List Call) :
    Registered (calls.filterMap Call.attempted) (empty.after calls) where
  modes_eq := modes_after empty calls
  names_nodup := (empty.after calls).names_nodup
  add_new := fun _ fresh => perform_new fresh
  add_known := fun _ known => perform_known known
  compile_either := rfl

end Assembly

/-- However modes are filled and registered, with calls that succeed and calls that fail: a mode holds
the first states that it was offered and tells in its header what it is, and an assembly holds the first
mode of each name. -/
theorem built_inOrder : (∀ (name : String) (loops : Nat) (next : Option String)
    (nesting : Option (String × Nat)) (made : Mode), Mode.ofLoops name loops next nesting = .ok made →
      ∀ calls : List Mode.Call, (made.after calls).MadeFrom name loops next nesting ∧
        (made.after calls).Grown (calls.flatMap Mode.Call.offered)) ∧
    ∀ calls : List Assembly.Call,
      Assembly.Registered (calls.filterMap Assembly.Call.attempted) (Assembly.empty.after calls) := by
  constructor
  · intro name loops next nesting made start calls
    obtain ⟨from_start, empty⟩ := Mode.madeFrom_of_ofLoops start
    exact ⟨from_start.after calls, Mode.grown_after empty calls⟩
  · exact Assembly.registered_after

def pixelRow : Mode where
  name := "pixels"
  loopCount := 2
  next := some "rest"
  nesting := some ⟨"line", 3, by decide⟩
  states := []
  states_le := Nat.zero_le _

theorem built_inOrder_crowded :
    Mode.ofLoops "pixels" 2 (some "rest") (some ("line", 3)) = .ok pixelRow ∧
      (pixelRow.after [.addStates (List.replicate 1024 ⟨0, 5, by decide⟩),
        .addState ⟨0, 7, by decide⟩]).states = List.replicate 1023 ⟨0, 5, by decide⟩ ∧
      (Assembly.empty.after [.add pixelRow, .compile, .add pixelRow]).modes = [pixelRow] := by
  have start : Mode.ofLoops "pixels" 2 (some "rest") (some ("line", 3)) = .ok pixelRow := by rfl
  have filled := (built_inOrder.1 "pixels" 2 (some "rest") (some ("line", 3)) pixelRow start
    [.addStates (List.replicate 1024 ⟨0, 5, by decide⟩), .addState ⟨0, 7, by decide⟩]).2.states_eq
  have once := (built_inOrder.2 [.add pixelRow, .compile, .add pixelRow]).modes_eq
  refine ⟨start, filled.trans ?_, once.trans ?_⟩
  · simp only [List.flatMap_cons, Mode.Call.offered]
    rw [List.take_append_of_le_length (by rw [List.length_replicate]; decide), List.take_replicate]
    rfl
  · decide

end CcdController
