import CcdController.Program

namespace CcdController

structure Visit where
  mode : String
  address : UInt16
  repetitions : Nat
  ticks : Nat
  deriving DecidableEq, Repr

structure Site where
  name : String
  header : ModeHeader
  period : Nat
  deriving DecidableEq, Repr

def addressName (address : UInt16) : String := "@" ++ Text.decimal 4 address.toNat

/-- A run of the sequencer: where it goes next, the returns to parents so far, the ticks spent, and
the visits so far with their number, the latest first. -/
structure Run where
  address : UInt16
  returns : Nat
  spent : Nat
  count : Nat
  visits : List Visit
  deriving DecidableEq, Repr

namespace Run

def start (address : UInt16) : Run := ⟨address, 0, 0, 0, []⟩

def record (run : Run) (site : Site) (repetitions : Nat) : Run :=
  let ticks := site.period * repetitions
  { run with
    spent := run.spent + ticks
    count := run.count + 1
    visits := ⟨site.name, run.address, repetitions, ticks⟩ :: run.visits }

def pass (run : Run) (site : Site) : Run :=
  if site.header.isNested then
    if run.returns < site.header.nestedLoopCount.toNat then
      { run.record site 1 with
        returns := run.returns + 1
        address := site.header.parentAddress }
    else { run with returns := 0, address := site.header.nextAddress }
  else
    { run.record site site.header.loopCount.toNat with address := site.header.nextAddress }

end Run

def visitLimit : Nat := 100000

/-- Follows a run through at most `passes` modes. It ends after a mode that loops forever, at the
address of no mode, when the ticks spent reach the budget, or at the limit of visits. -/
def follow (site : UInt16 → Except Fault Site) (budget : Nat) : Nat → Run → Except Fault Run
  | 0, run => .ok run
  | passes + 1, run =>
      if visitLimit ≤ run.count then .ok run
      else
        match site run.address with
        | .error fault => .error fault
        | .ok here =>
            if here.header.isTerminal then .ok (run.record here 0)
            else
              let run := run.pass here
              if run.address = noMode ∨ budget ≤ run.spent then .ok run
              else follow site budget passes run

namespace Program

def siteAt (program : Program) (address : UInt16) : Except Fault Site :=
  match program.words.drop address.toNat with
  | [] => .error (.unknownMode (addressName address))
  | .state state :: _ => .error (.invalidWord state.encode)
  | .header header :: rest =>
      if rest.length < header.stateCount.toNat then .error (.invalidData .modeStates)
      else
        .ok {
          name := (program.nameAt? address).getD (addressName address)
          header
          period := Word.totalTicks (rest.take header.stateCount.toNat) }

def sites (program : Program) : Array (Except Fault Site) :=
  (Array.range program.words.length).map fun i => program.siteAt (UInt16.ofNat i)

def siteOf (sites : Array (Except Fault Site)) (address : UInt16) : Except Fault Site :=
  sites[address.toNat]?.getD (.error (.unknownMode (addressName address)))

theorem siteOf_sites (program : Program) : siteOf program.sites = program.siteAt := by
  funext address
  by_cases inside : address.toNat < program.words.length
  · simp [siteOf, sites, inside]
  · simp [siteOf, sites, inside, siteAt, List.drop_eq_nil_of_le (Nat.le_of_not_lt inside)]

/-- The visits of a run from the mode `start` that may spend `budget` ticks. A mode that goes on
without playing is followed by one that plays, so twice the limit of visits is enough passes. -/
def trace (program : Program) (start : String) (budget : Nat) : Except Fault (List Visit) := do
  let address ← program.addressOf start
  let run ← follow (siteOf program.sites) budget (2 * visitLimit) (Run.start address)
  return run.visits.reverse

end Program

end CcdController
