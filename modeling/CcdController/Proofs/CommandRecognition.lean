import Mathlib.Data.List.Basic
import CcdController.Proofs.EnvelopeReading

namespace CcdController

theorem ControllerModule.ofIndex?_eq_some_iff {index : UInt32} {module : ControllerModule} :
    ofIndex? index = some module ↔ module.index = index := by
  constructor
  · intro known
    unfold ofIndex? at known
    split at known
    · next zero =>
        cases known
        exact (UInt32.toNat_inj.mp zero).symm
    · next one =>
        cases known
        exact (UInt32.toNat_inj.mp one).symm
    · next two =>
        cases known
        exact (UInt32.toNat_inj.mp two).symm
    · cases known
  · intro same
    subst same
    cases module <;> rfl

def Command.addressCount : Command → Nat
  | getImage .. => 2
  | writeSequencerMemory .. => 1
  | _ => 0

namespace Instruction

def normalFlag (word : UInt32) : UInt32 := if word = 0 then 0 else 1

def normalControl (word : UInt32) : UInt32 := UInt32.ofNat (word.toNat % 2 ^ 24)

/-- The instruction with its flag and its control word as a command keeps them. -/
def normal (instruction : Instruction) : Instruction :=
  { instruction with
    operands :=
      match instruction.module.toNat, instruction.submodule.toNat, instruction.operation.toNat,
        instruction.operands with
      | 0, 0, 1, [flag] => [normalFlag flag]
      | 0, 1, 0, [control, data] => [normalControl control, data]
      | 0, 2, 0, [control, data] => [normalControl control, data]
      | 1, 0, 0, [stopCleaning, readOut, shutter] => [stopCleaning, readOut, normalFlag shutter]
      | _, _, _, operands => operands }

/-- The instruction has the codes of the command, as many operand words as it, and addresses of 16 bits
where the command has addresses. -/
structure Fits (instruction : Instruction) (command : Command) : Prop where
  module_eq : instruction.module = command.codes.module.index
  submodule_eq : instruction.submodule = command.codes.submodule
  operation_eq : instruction.operation = command.codes.operation
  length_eq : instruction.operands.length = (command.operands.map Operand.wordCount).sum
  addresses : ∀ word ∈ instruction.operands.take command.addressCount, word.toNat < 2 ^ 16

end Instruction

namespace Command

theorem flagWord_of_word (word : UInt32) : flagWord (word != 0) = Instruction.normalFlag word := by
  by_cases zero : word = 0
  · subst zero
    rfl
  · have set : (word != 0) = true := bne_iff_ne.mpr zero
    rw [set, Instruction.normalFlag, if_neg zero]
    rfl

theorem controlWord_ofWords (control data : UInt32) :
    (SpiTransfer.ofWords control data).controlWord = Instruction.normalControl control := by
  have bound := control.toNat_lt
  rw [← UInt32.toNat_inj]
  simp only [SpiTransfer.controlWord, SpiTransfer.ofWords, Instruction.normalControl,
    UInt8.toNat_ofNat', UInt32.toNat_ofNat', Nat.shiftLeft_eq, Nat.shiftRight_eq_div_pow,
    Nat.reducePow] at *
  omega

theorem addressOperand_of_lt {word : UInt32} (small : word.toNat < 2 ^ 16) :
    addressOperand word = .ok word.toUInt16 := if_pos small

theorem lt_of_addressOperand {word : UInt32} {address : UInt16}
    (known : addressOperand word = .ok address) : word.toNat < 2 ^ 16 := by
  unfold addressOperand at known
  split at known
  · next small => exact small
  · cases known

theorem toUInt32_of_lt {word : UInt32} (small : word.toNat < 2 ^ 16) :
    word.toUInt16.toUInt32 = word := by
  rw [← UInt32.toNat_inj, UInt16.toNat_toUInt32, UInt32.toNat_toUInt16, Nat.mod_eq_of_lt small]

theorem lineWords_lineOfWords (high middle low : UInt32) :
    lineWords (lineOfWords high middle low) = [high, middle, low] := by
  have high_lt := high.toNat_lt
  have middle_lt := middle.toNat_lt
  have low_lt := low.toNat_lt
  simp only [lineWords, lineOfWords, List.cons.injEq, and_true, ← UInt32.toNat_inj,
    UInt32.toNat_ofNat', Nat.shiftLeft_eq, Nat.shiftRight_eq_div_pow, Nat.reducePow] at *
  omega

theorem lineOfWords_lt (high middle low : UInt32) : lineOfWords high middle low < 2 ^ 96 := by
  have high_lt := high.toNat_lt
  have middle_lt := middle.toNat_lt
  have low_lt := low.toNat_lt
  simp only [lineOfWords, Nat.shiftLeft_eq, Nat.reducePow] at *
  omega

theorem halves_pinsOfWords (high low : UInt32) :
    highHalf ⟨pinsOfWords high low⟩ = high ∧ lowHalf ⟨pinsOfWords high low⟩ = low := by
  have high_lt := high.toNat_lt
  have low_lt := low.toNat_lt
  simp only [pinsOfWords, highHalf, lowHalf, ← UInt32.toNat_inj, UInt32.toNat_ofNat', UInt64.toNat,
    BitVec.toNat_ofNat, Nat.shiftLeft_eq, Nat.shiftRight_eq_div_pow, Nat.reducePow] at *
  omega

structure Shape (module : ControllerModule) (submodule operation : Nat) (words : List UInt32)
    (command : Command) : Prop where
  module_eq : command.codes.module = module
  submodule_eq : command.codes.submodule.toNat = submodule
  operation_eq : command.codes.operation.toNat = operation
  length_eq : words.length = (command.operands.map Operand.wordCount).sum
  addresses : ∀ word ∈ words.take command.addressCount, word.toNat < 2 ^ 16

theorem ofWords_getImage (stop readOut shutter : UInt32) :
    ofWords .acquisition 0 0 [stop, readOut, shutter] =
      (addressOperand stop).bind fun stopCleaning => (addressOperand readOut).bind fun readOut =>
        .ok (getImage stopCleaning readOut (shutter != 0)) := rfl

theorem ofWords_writeSequencerMemory (address high middle low : UInt32) :
    ofWords .acquisition 0 1 [address, high, middle, low] =
      (addressOperand address).bind fun address =>
        .ok (writeSequencerMemory address (lineOfWords high middle low)) := rfl

section

variable {submodule operation : Nat} {words : List UInt32} {command : Command}

theorem no_address {bound : Nat} : ∀ word ∈ words.take 0, word.toNat < bound :=
  fun _ member => absurd member List.not_mem_nil

theorem shape_configurator (known : ofWords .configurator submodule operation words = .ok command) :
    Shape .configurator submodule operation words command := by
  -- The codes fix the number of words, and with any other number nothing is recognised.
  match submodule, operation with
  | 0, 1 =>
      rcases words with _ | ⟨flag, _ | ⟨more, rest⟩⟩
      all_goals cases known
      exact ⟨rfl, rfl, rfl, rfl, no_address⟩
  | 0, 2 =>
      rcases words with _ | ⟨more, rest⟩
      all_goals cases known
      exact ⟨rfl, rfl, rfl, rfl, no_address⟩
  | 1, 0 | 2, 0 =>
      rcases words with _ | ⟨control, _ | ⟨data, _ | ⟨more, rest⟩⟩⟩
      all_goals cases known
      exact ⟨rfl, rfl, rfl, rfl, no_address⟩
  | 0, 0 | 0, _ + 3 | 1, _ + 1 | 2, _ + 1 | _ + 3, _ => cases known

theorem shape_getImage {stop readOut shutter : UInt32}
    (known : ofWords .acquisition 0 0 [stop, readOut, shutter] = .ok command) :
    Shape .acquisition 0 0 [stop, readOut, shutter] command := by
  rw [ofWords_getImage] at known
  cases first : addressOperand stop with
  | error fault =>
      rw [first] at known
      cases known
  | ok stopAddress =>
      cases second : addressOperand readOut with
      | error fault =>
          rw [first, second] at known
          cases known
      | ok readOutAddress =>
          rw [first, second] at known
          cases known
          refine ⟨rfl, rfl, rfl, rfl, ?_⟩
          intro word member
          change word ∈ [stop, readOut] at member
          cases member with
          | head => exact lt_of_addressOperand first
          | tail _ member =>
              cases List.mem_singleton.mp member
              exact lt_of_addressOperand second

theorem shape_writeSequencerMemory {address high middle low : UInt32}
    (known : ofWords .acquisition 0 1 [address, high, middle, low] = .ok command) :
    Shape .acquisition 0 1 [address, high, middle, low] command := by
  rw [ofWords_writeSequencerMemory] at known
  cases first : addressOperand address with
  | error fault =>
      rw [first] at known
      cases known
  | ok line =>
      rw [first] at known
      cases known
      refine ⟨rfl, rfl, rfl, rfl, ?_⟩
      exact List.forall_mem_singleton.mpr (lt_of_addressOperand first)

theorem shape_acquisition (known : ofWords .acquisition submodule operation words = .ok command) :
    Shape .acquisition submodule operation words command := by
  match submodule, operation with
  | 0, 0 =>
      rcases words with _ | ⟨stop, _ | ⟨readOut, _ | ⟨shutter, _ | ⟨more, rest⟩⟩⟩⟩
      case cons.cons.cons.nil => exact shape_getImage known
      all_goals cases known
  | 0, 1 =>
      rcases words with _ | ⟨address, _ | ⟨high, _ | ⟨middle, _ | ⟨low, _ | ⟨more, rest⟩⟩⟩⟩⟩
      case cons.cons.cons.cons.nil => exact shape_writeSequencerMemory known
      all_goals cases known
  | 0, 2 | 0, 3 | 0, 5 | 0, 6 | 0, 10 =>
      rcases words with _ | ⟨more, rest⟩
      all_goals cases known
      exact ⟨rfl, rfl, rfl, rfl, no_address⟩
  | 0, 4 | 0, 7 | 0, 8 =>
      rcases words with _ | ⟨number, _ | ⟨more, rest⟩⟩
      all_goals cases known
      exact ⟨rfl, rfl, rfl, rfl, no_address⟩
  | 0, 9 =>
      rcases words with _ | ⟨holdTime, _ | ⟨high, _ | ⟨low, _ | ⟨more, rest⟩⟩⟩⟩
      all_goals cases known
      exact ⟨rfl, rfl, rfl, rfl, no_address⟩
  | 0, _ + 11 | _ + 1, _ => cases known

end

theorem shape_of_ofWords {module : ControllerModule} {submodule operation : Nat}
    {words : List UInt32} {command : Command}
    (known : ofWords module submodule operation words = .ok command) :
    Shape module submodule operation words command := by
  cases module with
  | configurator => exact shape_configurator known
  | acquisition => exact shape_acquisition known
  | pvm => cases known

theorem fits_of_ofInstruction {instruction : Instruction} {command : Command}
    (known : ofInstruction instruction = .ok command) : instruction.Fits command := by
  unfold ofInstruction at known
  split at known
  · cases known
  · next module found =>
      have shape := shape_of_ofWords known
      constructor
      · rw [shape.module_eq]
        exact (ControllerModule.ofIndex?_eq_some_iff.mp found).symm
      · exact UInt16.toNat_inj.mp shape.submodule_eq.symm
      · exact UInt16.toNat_inj.mp shape.operation_eq.symm
      · exact shape.length_eq
      · exact shape.addresses

structure Keeps (instruction : Instruction) (command : Command) : Prop where
  known : ofInstruction instruction = .ok command
  sent : command.instruction = instruction.normal
  whole : command.received = command

theorem keeps_getImage {stop image : UInt32} (shutter : UInt32) (stop_lt : stop.toNat < 2 ^ 16)
    (image_lt : image.toNat < 2 ^ 16) : Keeps ⟨1, 0, 0, [stop, image, shutter]⟩
      (.getImage stop.toUInt16 image.toUInt16 (shutter != 0)) := by
  refine ⟨?_, ?_, rfl⟩
  · change ofWords .acquisition 0 0 [stop, image, shutter] = _
    rw [ofWords_getImage, addressOperand_of_lt stop_lt, addressOperand_of_lt image_lt]
    rfl
  · change (⟨1, 0, 0, [stop.toUInt16.toUInt32, image.toUInt16.toUInt32,
      flagWord (shutter != 0)]⟩ : Instruction) = ⟨1, 0, 0, [stop, image, _]⟩
    rw [toUInt32_of_lt stop_lt, toUInt32_of_lt image_lt, flagWord_of_word]

theorem keeps_writeSequencerMemory {place : UInt32} (high middle low : UInt32)
    (place_lt : place.toNat < 2 ^ 16) : Keeps ⟨1, 0, 1, [place, high, middle, low]⟩
      (.writeSequencerMemory place.toUInt16 (lineOfWords high middle low)) := by
  refine ⟨?_, ?_, ?_⟩
  · change ofWords .acquisition 0 1 [place, high, middle, low] = _
    rw [ofWords_writeSequencerMemory, addressOperand_of_lt place_lt]
    rfl
  · change (⟨1, 0, 1, place.toUInt16.toUInt32 ::
      (lineWords (lineOfWords high middle low)).flatMap (Operand.words ∘ Operand.word)⟩ :
        Instruction) = ⟨1, 0, 1, [place, high, middle, low]⟩
    rw [toUInt32_of_lt place_lt, lineWords_lineOfWords]
    rfl
  · exact congrArg (writeSequencerMemory place.toUInt16)
      (Nat.mod_eq_of_lt (lineOfWords_lt high middle low))

theorem keeps_testSequencerOn (time high low : UInt32) : Keeps ⟨1, 0, 9, [time, high, low]⟩
    (.testSequencerOn time (pinsOfWords high low)) := by
  obtain ⟨high_eq, low_eq⟩ := halves_pinsOfWords high low
  refine ⟨rfl, ?_, rfl⟩
  change (⟨1, 0, 9, [time, highHalf ⟨pinsOfWords high low⟩, lowHalf ⟨pinsOfWords high low⟩]⟩ :
    Instruction) = ⟨1, 0, 9, [time, high, low]⟩
  rw [high_eq, low_eq]

theorem exists_keeps {instruction : Instruction} {command : Command}
    (fits : instruction.Fits command) : ∃ kept, Keeps instruction kept := by
  obtain ⟨module, submodule, operation, words⟩ := instruction
  obtain ⟨module_eq, submodule_eq, operation_eq, length_eq, addresses⟩ := fits
  simp only at module_eq submodule_eq operation_eq length_eq addresses
  subst module_eq submodule_eq operation_eq
  cases command with
  | powerOn on =>
      obtain ⟨flag, rfl⟩ := List.length_eq_one_iff.mp length_eq
      refine ⟨.powerOn (flag != 0), rfl, ?_, rfl⟩
      exact congrArg (fun word => (⟨0, 0, 1, [word]⟩ : Instruction)) (flagWord_of_word flag)
  | spiVideo transfer =>
      obtain ⟨control, data, rfl⟩ := List.length_eq_two.mp length_eq
      refine ⟨.spiVideo (.ofWords control data), rfl, ?_, rfl⟩
      exact congrArg (fun word => (⟨0, 1, 0, [word, data]⟩ : Instruction))
        (controlWord_ofWords control data)
  | spiBiasClocks transfer =>
      obtain ⟨control, data, rfl⟩ := List.length_eq_two.mp length_eq
      refine ⟨.spiBiasClocks (.ofWords control data), rfl, ?_, rfl⟩
      exact congrArg (fun word => (⟨0, 2, 0, [word, data]⟩ : Instruction))
        (controlWord_ofWords control data)
  | getImage stopCleaning readOut openShutter =>
      obtain ⟨stop, image, shutter, rfl⟩ := List.length_eq_three.mp length_eq
      have stop_lt : stop.toNat < 2 ^ 16 := addresses stop List.mem_cons_self
      have image_lt : image.toNat < 2 ^ 16 :=
        addresses image (List.mem_cons_of_mem stop List.mem_cons_self)
      exact ⟨_, keeps_getImage shutter stop_lt image_lt⟩
  | writeSequencerMemory address line =>
      obtain ⟨place, lineWords, rfl⟩ := List.exists_cons_of_length_eq_add_one length_eq
      obtain ⟨high, middle, low, rfl⟩ := List.length_eq_three.mp (Nat.succ.inj length_eq)
      have place_lt : place.toNat < 2 ^ 16 := addresses place List.mem_cons_self
      exact ⟨_, keeps_writeSequencerMemory high middle low place_lt⟩
  | testSequencerOn holdTime pins =>
      obtain ⟨time, high, low, rfl⟩ := List.length_eq_three.mp length_eq
      exact ⟨_, keeps_testSequencerOn time high low⟩
  | writeExposureTime ms =>
      obtain ⟨time, rfl⟩ := List.length_eq_one_iff.mp length_eq
      exact ⟨.writeExposureTime time, rfl, rfl, rfl⟩
  | getData channel samples =>
      obtain ⟨count, rfl⟩ := List.length_eq_one_iff.mp length_eq
      cases channel with
      | one => exact ⟨.getData .one count, rfl, rfl, rfl⟩
      | three => exact ⟨.getData .three count, rfl, rfl, rfl⟩
  | getPixels channel =>
      obtain rfl := List.length_eq_zero_iff.mp length_eq
      cases channel with
      | one => exact ⟨.getPixels .one, rfl, rfl, rfl⟩
      | three => exact ⟨.getPixels .three, rfl, rfl, rfl⟩
  | resetDacs =>
      obtain rfl := List.length_eq_zero_iff.mp length_eq
      exact ⟨.resetDacs, rfl, rfl, rfl⟩
  | enableSequencer =>
      obtain rfl := List.length_eq_zero_iff.mp length_eq
      exact ⟨.enableSequencer, rfl, rfl, rfl⟩
  | disableSequencer =>
      obtain rfl := List.length_eq_zero_iff.mp length_eq
      exact ⟨.disableSequencer, rfl, rfl, rfl⟩
  | testSequencerOff =>
      obtain rfl := List.length_eq_zero_iff.mp length_eq
      exact ⟨.testSequencerOff, rfl, rfl, rfl⟩

theorem keeps_of_ofInstruction {instruction : Instruction} {command : Command}
    (known : ofInstruction instruction = .ok command) : Keeps instruction command := by
  obtain ⟨kept, keeps⟩ := exists_keeps (fits_of_ofInstruction known)
  cases known.symm.trans keeps.known
  exact keeps

theorem encode_instruction (order : ByteOrder) (command : Command) :
    command.instruction.encode order = command.encode order := by
  rw [Instruction.encode, encode, envelope, envelope, envelopeWords, envelopeWords,
    Operand.flatMap_words_word]
  rfl

structure ReadsBack (instruction : Instruction) : Prop where
  known_iff : (∃ command, ofInstruction instruction = .ok command) ↔
    ∃ command, instruction.Fits command
  sent : ∀ command, ofInstruction instruction = .ok command →
    command.codes.module.index = instruction.module ∧
    command.codes.submodule = instruction.submodule ∧
    command.codes.operation = instruction.operation ∧
    command.operands.flatMap Operand.words = instruction.normal.operands ∧
    ∀ order, command.encode order = instruction.normal.encode order
  same_iff : ∀ other command otherCommand, ofInstruction instruction = .ok command →
    ofInstruction other = .ok otherCommand →
    (command = otherCommand ↔ instruction.normal = other.normal)

/-- Exactly the instructions that fit a command of the catalogue are recognised. What is lost of one is what
its normal form leaves out, and no more. -/
theorem readsBack (instruction : Instruction) : ReadsBack instruction where
  known_iff := by
    constructor
    · intro ⟨command, known⟩
      exact ⟨command, fits_of_ofInstruction known⟩
    · intro ⟨command, fits⟩
      obtain ⟨kept, keeps⟩ := exists_keeps fits
      exact ⟨kept, keeps.known⟩
  sent := by
    intro command known
    have fits := fits_of_ofInstruction known
    have keeps := keeps_of_ofInstruction known
    refine ⟨fits.module_eq.symm, fits.submodule_eq.symm, fits.operation_eq.symm,
      congrArg Instruction.operands keeps.sent, ?_⟩
    intro order
    rw [← encode_instruction, keeps.sent]
  same_iff := by
    intro other command otherCommand known otherKnown
    have keeps := keeps_of_ofInstruction known
    have otherKeeps := keeps_of_ofInstruction otherKnown
    rw [← keeps.sent, ← otherKeeps.sent]
    constructor
    · exact congrArg Command.instruction
    · intro same
      have back := congrArg ofInstruction same
      rw [ofInstruction_instruction, ofInstruction_instruction, keeps.whole, otherKeeps.whole] at back
      exact Except.ok.inj back

example : ofInstruction ⟨0, 0, 1, [7]⟩ = .ok (powerOn true) ∧
    (⟨0, 0, 1, [7]⟩ : Instruction).normal = (powerOn true).instruction :=
  ⟨rfl, rfl⟩

end Command

end CcdController
