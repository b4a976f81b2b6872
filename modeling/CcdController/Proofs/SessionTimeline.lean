import CcdController.Proofs.Attempts

namespace CcdController

inductive Mark where
  | call (call : Call)
  | answer (result : Except Fault Status)
  | settled (undecoded : List UInt8)

namespace Mark

def calls : Mark → List Call
  | call made => [made]
  | _ => []

def bytes : Mark → List UInt8
  | call made => made.delivered
  | _ => []

def answers : Mark → List (Except Fault Status)
  | answer result => [result]
  | _ => []

def statuses : Mark → List Status
  | answer (.ok status) => [status]
  | _ => []

def received (timeline : List Mark) : List UInt8 := timeline.flatMap bytes

def obtained (timeline : List Mark) : List Status := timeline.flatMap statuses

end Mark

namespace Attempt

def answers : Attempt → List (Except Fault Status)
  | exchange command found => [(found.exchange command).1]
  | _ => []

def marks (attempt : Attempt) : List Mark :=
  attempt.calls.map .call ++ attempt.answers.map .answer ++ [.settled attempt.left.stream.pending]

end Attempt

def Routine.timeline {ρ : Type} (routine : Routine ρ) (session : Session) : List Mark :=
  (routine.attempts session).flatMap Attempt.marks

def UnknownAt (order : ByteOrder) (bytes : List UInt8) (position : Nat) : Prop :=
  ∃ word, wordAt order bytes position = some word ∧ ∀ status : Status, word ≠ status.code

open Mark

/-- How the answers and the undecoded bytes of a timeline follow from the bytes read, whose packets
are `packet` bytes apart. -/
structure Framed (order : ByteOrder) (packet : Nat) (timeline : List Mark) : Prop where
  reads : ∀ earlier room outcome later,
    timeline = earlier ++ .call (.read room outcome) :: later →
      (received earlier).length < (obtained earlier).length * packet + 4
  statuses : ∀ earlier later, timeline = earlier ++ later →
    ∀ index status, (obtained earlier)[index]? = some status →
      wordAt order (received earlier) (index * packet) = some status.code
  undecoded : ∀ earlier pending later, timeline = earlier ++ .settled pending :: later →
    pending = (received earlier).drop ((obtained earlier).length * packet)
  failed : ∀ earlier fault later, timeline = earlier ++ .answer (.error fault) :: later →
    (∃ front call, earlier = front ++ [.call call] ∧ call.stops = some fault) ∨
      fault = .invalidData .statusWord ∧
        UnknownAt order (received earlier) ((obtained earlier).length * packet)
  unfailing : ∀ earlier later, timeline = earlier ++ later →
    (∀ result ∈ earlier.flatMap Mark.answers, ∃ status, result = .ok status) →
    ∀ index result, (earlier.flatMap Mark.answers)[index]? = some result →
      ∃ status, result = .ok status ∧
        wordAt order (received earlier) (index * packet) = some status.code
  unbroken : ∀ earlier later, timeline = earlier ++ later →
    (∀ call ∈ earlier.flatMap Mark.calls, call.stops = none) →
    (∀ index, ¬ UnknownAt order (received earlier) (index * packet)) →
    ∀ result ∈ earlier.flatMap Mark.answers, ∃ status, result = .ok status

end CcdController
