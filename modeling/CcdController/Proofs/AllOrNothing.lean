import CcdController.Proofs.LastWrites
import CcdController.Proofs.SavedFiles

/-!
Runs of the command line, and what they leave behind. `Rejects` says which dumps a view refuses and `Shows`
which sections it has for the others, neither of which asks for the place of the result. A run that is refused
leaves everything as it was. Any other brings all sections to their place, and in a file there is what
would have been printed.
-/
namespace CcdController

namespace MemoryImage

def WritesTo (instruction : Instruction) (address line : Nat) : Prop :=
  ∃ target : UInt16, target.toNat = address ∧
    Command.ofInstruction instruction = .ok (.writeSequencerMemory target line)

def Written (instructions : List Instruction) (address : Nat) : Prop :=
  ∃ instruction ∈ instructions, ∃ line, WritesTo instruction address line

/-- The line that the last write to an address leaves there. -/
def Leaves (instructions : List Instruction) (address line : Nat) : Prop :=
  ∃ earlier write later, instructions = earlier ++ write :: later ∧ WritesTo write address line ∧
    ¬ Written later address

inductive NoImage (instructions : List Instruction) : Prop
  | gap (broken : ¬ ∃ count, ∀ address, Written instructions address ↔ address < count)
  | invalid {address line : Nat} {fault : Fault} (left : Leaves instructions address line)
      (refused : Word.decode line = .error fault)

variable {instructions : List Instruction} {address line : Nat}

theorem writesTo_iff {instruction : Instruction} :
    WritesTo instruction address line ↔ lineTo address instruction = some line :=
  lineTo_eq_some_iff.symm

theorem not_written_iff :
    ¬ Written instructions address ↔ ∀ other ∈ instructions, lineTo address other = none := by
  simp only [Written, writesTo_iff, ← Option.ne_none_iff_exists']
  simp

theorem leaves_iff : Leaves instructions address line ↔ lastWrite instructions address = some line := by
  rw [lastWrite_eq_some_iff]
  simp only [Leaves, writesTo_iff, not_written_iff]

theorem written_iff : Written instructions address ↔ lastWrite instructions address ≠ none := by
  rw [← not_iff_not, not_written_iff, ne_eq, not_not, lastWrite, List.findSome?_eq_none_iff]
  simp only [List.mem_reverse]

theorem noImage_iff : NoImage instructions ↔ ¬ ∃ words, ofInstructions instructions = .ok words := by
  have gapless : (∃ count, Contiguous (lastWrite instructions) count) ↔
      ∃ count, ∀ address, Written instructions address ↔ address < count := by
    simp only [Contiguous, written_iff]
  rw [exists_words_iff, gapless]
  constructor
  · intro none both
    cases none with
    | gap broken => exact broken both.1
    | invalid left refused => exact both.2 _ _ ⟨_, leaves_iff.mp left, refused⟩
  · intro fails
    -- Without a gap it can only be that some line is no word.
    by_cases whole : ∃ count, ∀ address, Written instructions address ↔ address < count
    · have bad : ∃ address fault, RefusedAt (lastWrite instructions) address fault := by
        by_contra none
        exact fails ⟨whole, fun address fault refused => none ⟨address, fault, refused⟩⟩
      rcases bad with ⟨address, fault, line, last, refused⟩
      exact .invalid (leaves_iff.mpr last) refused
    · exact .gap whole

def isRecognised (instruction : Instruction) : Bool := (Command.ofInstruction instruction).isOk

/-- Instructions that are no commands leave no trace in memory. -/
theorem ofInstructions_recognised (instructions : List Instruction) :
    ofInstructions (instructions.filter isRecognised) = ofInstructions instructions := by
  have same : held (instructions.filter isRecognised) = held instructions := by
    rw [held, held, List.filterMap_filter]
    congr 2
    funext instruction
    unfold isRecognised write?
    cases Command.ofInstruction instruction <;> rfl
  rw [ofInstructions, ofInstructions, same]

theorem noImage_recognised : NoImage (instructions.filter isRecognised) ↔ NoImage instructions := by
  rw [noImage_iff, noImage_iff, ofInstructions_recognised]

end MemoryImage

namespace Cli

inductive Rejects (order : ByteOrder) (text : String) : View → Prop
  | bits {fault : Fault} (refused : Dump.parse order text = .error fault) : Rejects order text .bits
  | disasm {fault : Fault} (refused : Dump.instructions order text = .error fault) :
      Rejects order text .disasm
  | memory {instructions : List Instruction} (decoded : Dump.instructions order text = .ok instructions)
      (broken : MemoryImage.NoImage instructions) : Rejects order text .disasm

inductive Shows (order : ByteOrder) (text : String) : View → List ReportSection → Prop
  | bits {lines : List (List UInt8)} (parsed : Dump.parse order text = .ok lines) :
      Shows order text .bits [⟨"Bits", bitsText order lines⟩]
  | disasm {instructions : List Instruction} {words : List Word}
      (decoded : Dump.instructions order text = .ok instructions)
      (image : MemoryImage.ofInstructions instructions = .ok words) :
      Shows order text .disasm [⟨"Instructions", Text.joinedRows (instructions.mapIdx instructionRow)⟩,
        ⟨"Sequencer memory", memoryText words⟩]

variable {request : Request} {text : String} {parts : List ReportSection}

theorem Rejects.not_shows {order : ByteOrder} {view : View} (rejects : Rejects order text view) :
    ¬ Shows order text view parts := by
  intro shown
  cases shown with
  | bits parsed =>
      cases rejects with
      | bits refused => cases refused.symm.trans parsed
  | disasm decoded image =>
      cases rejects with
      | disasm refused => cases refused.symm.trans decoded
      | memory other broken =>
          cases other.symm.trans decoded
          exact MemoryImage.noImage_iff.mp broken ⟨_, image⟩

theorem Shows.unique {order : ByteOrder} {view : View} {others : List ReportSection}
    (shown : Shows order text view parts) (others_shown : Shows order text view others) :
    parts = others := by
  cases shown with
  | bits parsed =>
      cases others_shown with
      | bits others_parsed =>
          cases parsed.symm.trans others_parsed
          rfl
  | disasm decoded image =>
      cases others_shown with
      | disasm others_decoded others_image =>
          cases decoded.symm.trans others_decoded
          cases image.symm.trans others_image
          rfl

theorem sections_cases (request : Request) (text : String) :
    (∃ failure, sections request text = .error failure ∧ Rejects request.order text request.view) ∨
      ∃ parts, sections request text = .ok parts ∧ Shows request.order text request.view parts := by
  unfold sections
  cases request.view with
  | bits =>
      cases parsed : Dump.parse request.order text with
      | error fault =>
          refine .inl ⟨.fault fault, ?_, .bits parsed⟩
          simp only [bitsSections, parsed]
          rfl
      | ok lines =>
          refine .inr ⟨_, ?_, .bits parsed⟩
          simp only [bitsSections, parsed]
          rfl
  | disasm =>
      cases decoded : Dump.instructions request.order text with
      | error fault =>
          refine .inl ⟨.fault fault, ?_, .disasm decoded⟩
          simp only [disasmSections, decoded]
          rfl
      | ok instructions =>
          have made : disasmSections request.order text =
              (MemoryImage.ofInstructions instructions).mapError .ofImage >>= fun words =>
                .ok [⟨"Instructions", Text.joinedRows (instructions.mapIdx instructionRow)⟩,
                  ⟨"Sequencer memory", memoryText words⟩] := by
            simp only [disasmSections, decoded]
            rfl
          rw [made]
          cases image : MemoryImage.ofInstructions instructions with
          | error failure =>
              refine .inl ⟨.ofImage failure, rfl, .memory decoded (MemoryImage.noImage_iff.mpr ?_)⟩
              simp [image]
          | ok words => exact .inr ⟨_, rfl, .disasm decoded image⟩

theorem sections_eq_ok_iff :
    sections request text = .ok parts ↔ Shows request.order text request.view parts := by
  rcases sections_cases request text with ⟨failure, fails, rejects⟩ | ⟨others, made, shown⟩
  · simp [fails, rejects.not_shows]
  · rw [made, Except.ok.injEq]
    constructor
    · rintro rfl
      exact shown
    · exact shown.unique

theorem sections_eq_error_iff : (∃ failure, sections request text = .error failure) ↔
    Rejects request.order text request.view := by
  rcases sections_cases request text with ⟨failure, fails, rejects⟩ | ⟨parts, made, shown⟩
  · simp [fails, rejects]
  · have accepted : ¬ Rejects request.order text request.view := fun rejects => rejects.not_shows shown
    simp [made, accepted]

structure Aftermath where
  ending : Ending
  stdout : String
  tree : Tree

def Ending.effects : Ending → List Effect
  | finished effects => effects
  | _ => []

def Tree.after (tree : Tree) (arguments : List String) : Aftermath :=
  let ending := Id.run (run tree.files arguments)
  ⟨ending, printed ending.effects, ending.effects.foldl Tree.perform tree⟩

/-- The dump can be read and holds the text, and where the result should go is room for a new file. -/
structure Ready (tree : Tree) (request : Request) (text : String) : Prop where
  dump : tree.read request.dump = .ok text.toUTF8
  free : ∀ path ∈ request.outputs, tree.read path = .error .missing
  room : ∀ path, request.output = some path → tree.obstacle? path = none

def reportText (parts : List ReportSection) : String := String.join (parts.map ReportSection.text)

variable {tree : Tree} {arguments : List String}

theorem getLast?_outputs (asked : Request.ofArguments? arguments = some request) :
    request.outputs.getLast? = request.output := by
  cases arguments with
  | nil => cases asked
  | cons name arguments =>
      rw [Request.ofArguments?, Option.bind_eq_bind, Option.bind_eq_some_iff] at asked
      rcases asked with ⟨view, -, asked⟩
      rw [Option.bind_eq_bind, Option.bind_eq_some_iff] at asked
      rcases asked with ⟨items, -, asked⟩
      simp only [Request.ofItems?, Option.bind_eq_bind, Option.bind_eq_some_iff, Option.pure_def] at asked
      rcases asked with ⟨dump, -, order, -, output, last, asked⟩
      cases asked
      generalize items.filterMap (Item.valueFor? .output) = values at last ⊢
      unfold outputOf? at last
      split at last
      · next none =>
          cases last
          rw [List.getLast?_eq_none_iff.mp none]
          rfl
      · cases last
      · next path ends =>
          cases last
          rcases List.getLast?_eq_some_iff.mp ends with ⟨earlier, rfl⟩
          simp

theorem textOf_toUTF8 (text : String) : textOf text.toUTF8 = .ok text := by
  have valid : String.fromUTF8? text.toUTF8 = some text := by
    unfold String.fromUTF8?
    exact dif_pos text.isValidUTF8
  rw [textOf, valid]

theorem respond_eq (request : Request) (text : String) :
    request.respond (.ok text.toUTF8) = (sections request text).map (effects request) := by
  have read : request.respond (.ok text.toUTF8) =
      textOf text.toUTF8 >>= fun text => sections request text >>= fun parts => .ok (effects request parts) :=
    rfl
  rw [read, textOf_toUTF8]
  change (sections request text >>= fun parts => .ok (effects request parts)) = _
  cases sections request text <;> rfl

theorem not_taken (paths : List String) (free : ∀ path ∈ paths, tree.read path = .error .missing) :
    Id.run (paths.anyM tree.files.isTaken) = false := by
  induction paths with
  | nil => rfl
  | cons path paths ih =>
      have here : Id.run (tree.files.isTaken path) = false := by
        change (!isFree (tree.read path)) = false
        rw [free path List.mem_cons_self]
        rfl
      rw [List.anyM_cons, Id.run_bind, here]
      exact ih fun path member => free path (List.mem_cons_of_mem _ member)

section

variable (asked : Request.ofArguments? arguments = some request) (ready : Ready tree request text)

include asked ready

theorem after_refused {failure : Failure} (fails : sections request text = .error failure) :
    tree.after arguments = ⟨.failed failure, "", tree⟩ := by
  have free := not_taken _ ready.free
  have dump : Id.run (tree.files.read request.dump) = .ok text.toUTF8 := ready.dump
  have responds : request.respond (.ok text.toUTF8) = .error failure := by
    rw [respond_eq, fails]
    rfl
  have ends : Id.run (run tree.files arguments) = .failed failure := by
    simp only [run, asked, Id.run_bind, Id.run_pure, free, dump, responds, Bool.false_eq_true, if_false]
  rw [Tree.after, ends]
  rfl

/-- Once all sections are made, nothing keeps them from their place. -/
theorem after_made (made : sections request text = .ok parts) :
    tree.after arguments = ⟨.finished (effects request parts), printed (effects request parts),
      (effects request parts).foldl Tree.perform tree⟩ := by
  have free := not_taken _ ready.free
  have dump : Id.run (tree.files.read request.dump) = .ok text.toUTF8 := ready.dump
  have responds : request.respond (.ok text.toUTF8) = .ok (effects request parts) := by
    rw [respond_eq, made]
    rfl
  have ends : Id.run (run tree.files arguments) = .finished (effects request parts) := by
    simp only [run, asked, Id.run_bind, free, dump, responds, Bool.false_eq_true, if_false]
    cases place : request.output with
    | none => rfl
    | some path =>
        have room : Id.run (tree.files.obstacle? path) = none := ready.room path place
        simp only [Id.run_map, room, Ending.ofObstacle]
  rw [Tree.after, ends]
  rfl

end

theorem printed_cons_print (piece : String) (later : List Effect) :
    printed (.print piece :: later) = piece ++ printed later := by
  simp [printed]

theorem printed_effects (place : request.output = none) :
    printed (effects request parts) = reportText parts := by
  simp only [effects, place]
  induction parts with
  | nil => rfl
  | cons part parts ih =>
      simp only [List.flatMap_cons, ReportSection.pieces, List.cons_append, List.nil_append, List.map_cons,
        printed_cons_print, ih]
      simp [reportText, ReportSection.text, String.append_assoc]

theorem perform_prints (pieces : List String) : (pieces.map Effect.print).foldl Tree.perform tree = tree := by
  induction pieces with
  | nil => rfl
  | cons piece pieces ih => exact ih

theorem files_of_printed (place : request.output = none) :
    (effects request parts).foldl Tree.perform tree = tree := by
  simp only [effects, place]
  exact perform_prints _

theorem printed_saved {path : String} (place : request.output = some path) :
    printed (effects request parts) = "" := by
  simp only [effects, place]
  induction parts with
  | nil => rfl
  | cons part parts ih => exact ih

theorem read_effects {path : String} (place : request.output = some path)
    (clear : tree.obstacle? path = none) :
    ((effects request parts).foldl Tree.perform tree).read path = .ok (reportText parts).toUTF8 := by
  have saved := Tree.read_saved clear (parts.map ReportSection.text)
  rw [List.map_map] at saved
  simp only [effects, place]
  exact saved

/-- What becomes of a request: all sections at their place, or nothing at all. -/
structure AllOrNothing (tree : Tree) (request : Request) (text : String) (left : Aftermath) : Prop where
  fails_iff : (∃ failure, left.ending = .failed failure) ↔ Rejects request.order text request.view
  unknown : request.view = .disasm →
    ∀ instructions, Dump.instructions request.order text = .ok instructions →
    ((∃ failure, left.ending = .failed failure) ↔
      MemoryImage.NoImage (instructions.filter MemoryImage.isRecognised))
  nothing : Rejects request.order text request.view → left.stdout = "" ∧ left.tree = tree ∧
    ∀ path, request.output = some path → left.tree.read path = .error .missing
  finished : ¬ Rejects request.order text request.view →
    ∃ effects parts, left.ending = .finished effects ∧ Shows request.order text request.view parts
  printed : request.output = none → ∀ parts, Shows request.order text request.view parts →
    left.stdout = reportText parts ∧ left.tree = tree
  saved : ∀ path, request.output = some path → ∀ parts, Shows request.order text request.view parts →
    left.stdout = "" ∧ left.tree.read path = .ok (reportText parts).toUTF8
  /-- A file holds what the same request would have printed. -/
  same_bytes : ∀ path, request.output = some path → ¬ Rejects request.order text request.view →
    ∀ others other, Request.ofArguments? others = some other → other.view = request.view →
      other.dump = request.dump → other.order = request.order → other.output = none →
      left.tree.read path = .ok (tree.after others).stdout.toUTF8

theorem failed_iff (asked : Request.ofArguments? arguments = some request) (ready : Ready tree request text) :
    (∃ failure, (tree.after arguments).ending = .failed failure) ↔
      Rejects request.order text request.view := by
  rw [← sections_eq_error_iff]
  cases came : sections request text with
  | error failure => simp [after_refused asked ready came]
  | ok parts => simp [after_made asked ready came]

/-- With the same view of the same dump, only the place of the result makes a difference. -/
theorem run_allOrNothing (asked : Request.ofArguments? arguments = some request)
    (ready : Ready tree request text) : AllOrNothing tree request text (tree.after arguments) where
  fails_iff := failed_iff asked ready
  unknown := by
    intro disasm instructions decoded
    rw [failed_iff asked ready, disasm, MemoryImage.noImage_recognised]
    constructor
    · intro rejects
      cases rejects with
      | disasm refused => cases refused.symm.trans decoded
      | memory other broken =>
          cases other.symm.trans decoded
          exact broken
    · exact .memory decoded
  nothing := by
    intro rejects
    rcases sections_eq_error_iff.mpr rejects with ⟨failure, fails⟩
    rw [after_refused asked ready fails]
    refine ⟨rfl, rfl, ?_⟩
    intro path place
    apply ready.free
    exact List.mem_of_getLast? ((getLast?_outputs asked).trans place)
  finished := by
    intro accepted
    rcases sections_cases request text with ⟨failure, -, rejects⟩ | ⟨parts, made, shown⟩
    · exact absurd rejects accepted
    · rw [after_made asked ready made]
      exact ⟨_, parts, rfl, shown⟩
  printed := by
    intro place parts shown
    rw [after_made asked ready (sections_eq_ok_iff.mpr shown)]
    exact ⟨printed_effects place, files_of_printed place⟩
  saved := by
    intro path place parts shown
    rw [after_made asked ready (sections_eq_ok_iff.mpr shown)]
    exact ⟨printed_saved place, read_effects place (ready.room path place)⟩
  same_bytes := by
    intro path place accepted others other other_asked view dump order printed
    -- Nothing has to be free for a request that names no place.
    have free : other.outputs = [] := by
      rw [← List.getLast?_eq_none_iff, getLast?_outputs other_asked, printed]
    have other_ready : Ready tree other text := by
      refine ⟨dump ▸ ready.dump, ?_, ?_⟩
      · simp [free]
      · simp [printed]
    rcases sections_cases request text with ⟨failure, -, rejects⟩ | ⟨parts, made, shown⟩
    · exact absurd rejects accepted
    · have other_made : sections other text = .ok parts := by
        rw [sections_eq_ok_iff, view, order]
        exact shown
      rw [after_made asked ready made, after_made other_asked other_ready other_made,
        printed_effects printed]
      exact read_effects place (ready.room path place)

def besideDump (text : String) : Tree :=
  ⟨[(["files"], .directory), (["in", "files"], .file text.toUTF8)], ["files"]⟩

theorem run_allOrNothing_savedBits :
    AllOrNothing (besideDump "1: 0000029A") ⟨.bits, "in", .little, some "out", ["out"]⟩ "1: 0000029A"
        ((besideDump "1: 0000029A").after ["bits", "in", "-o", "out"]) ∧
      ((besideDump "1: 0000029A").after ["bits", "in", "-o", "out"]).tree.read "out" =
        .ok "Bits\n001:\t00000000000000000000001010011010\n\n".toUTF8 := by
  have asked : Request.ofArguments? ["bits", "in", "-o", "out"] =
      some ⟨.bits, "in", .little, some "out", ["out"]⟩ := by decide
  have ready : Ready (besideDump "1: 0000029A") ⟨.bits, "in", .little, some "out", ["out"]⟩
      "1: 0000029A" := by
    refine ⟨rfl, ?_, ?_⟩
    · intro path member
      cases List.mem_singleton.mp member
      rfl
    · intro path place
      cases place
      rfl
  have whole := run_allOrNothing asked ready
  have parsed : Dump.parse .little "1: 0000029A" = .ok [[0x9A, 0x02, 0x00, 0x00]] := rfl
  have text : reportText [⟨"Bits", bitsText .little [[0x9A, 0x02, 0x00, 0x00]]⟩] =
      "Bits\n001:\t00000000000000000000001010011010\n\n" := by decide +kernel
  refine ⟨whole, ?_⟩
  rw [← text]
  exact (whole.saved "out" rfl _ (.bits parsed)).2

end Cli

end CcdController
