import CcdController.Command
import CcdController.Link
import CcdController.Program.Upload
import CcdController.Status.Stream

/-!
Sessions: commands sent to a controller over a byte link, each answered by one status packet. Bytes
that have arrived but are not decoded yet stay with the session, whatever becomes of an operation.
-/
namespace CcdController

structure Session where
  order : ByteOrder
  responseLength : Nat
  stream : StatusStream
  link : Link
  log : List LogLine

namespace Session

abbrev Action (α : Type) := Session → Except Fault α × Session

def start (order : ByteOrder) (responseLength : Nat) (link : Link) : Session :=
  ⟨order, responseLength, .start order responseLength, link, []⟩

def note (session : Session) (line : LogLine) : Session :=
  { session with log := session.log ++ [line] }

def announce (session : Session) (command : Command) : Session :=
  (session.note ⟨.trace, "Sending " ++ command.text⟩).note (command.event session.order).logLine

def transmit (command : Command) : Action Unit := fun session =>
  let session := session.announce command
  match session.link.writeAll (command.encode session.order) with
  | (.error failure, link) => (.error (.link failure.text), { session with link })
  | (.ok (), link) =>
      match link.flush with
      | (.error failure, link) => (.error (.link failure.text), { session with link })
      | (.ok (), link) => (.ok (), { session with link })

def lastStatus (session : Session) (stream : StatusStream) : Except Fault Status × Session :=
  match stream.last with
  | (.ok (some status), stream) => (.ok status, { session with stream })
  | (.ok none, stream) => (.error .unexpectedEnd, { session with stream })
  | (.error .cutShort, stream) => (.error .unexpectedEnd, { session with stream })
  | (.error (.fault fault), stream) => (.error fault, { session with stream })

/-- Waits for the next status. The link is read only while the stream holds none. -/
def receive (session : Session) : Except Fault Status × Session :=
  match session.stream.next with
  | (.error fault, stream) => (.error fault, { session with stream })
  | (.ok (some status), stream) => (.ok status, { session with stream })
  | (.ok none, stream) =>
      match _met : (session.link.read session.responseLength).1 with
      | .error failure =>
          (.error (.link failure.text),
            { session with stream, link := (session.link.read session.responseLength).2 })
      | .ok bytes =>
          if _some : bytes = [] then
            lastStatus { session with link := (session.link.read session.responseLength).2 } stream
          else
            receive { session with
              stream := stream.feed bytes
              link := (session.link.read session.responseLength).2 }
termination_by storeSize session.link.reads
decreasing_by exact storeSize_deliver _met _some

def exchange (command : Command) : Action Status := fun session =>
  match session.transmit command with
  | (.error fault, session) => (.error fault, session)
  | (.ok (), session) => session.receive

def send (command : Command) : Action Unit := fun session =>
  match session.exchange command with
  | (.error fault, session) => (.error fault, session)
  | (.ok .ok, session) => (.ok (), session)
  | (.ok status, session) =>
      (.error (.rejected status),
        session.note ⟨.error, command.text ++ " was answered with " ++ status.name⟩)

def sendAll : List Command → Action Unit
  | [], session => (.ok (), session)
  | command :: rest, session =>
      match session.send command with
      | (.error fault, session) => (.error fault, session)
      | (.ok (), session) => session.sendAll rest

def upload (program : Program) : Action Unit := fun session =>
  (session.note ⟨.debug, s!"Uploading {program.size} sequencer memory lines"⟩).sendAll
    (.disableSequencer :: program.writes ++ [.enableSequencer])

/-- Starts an exposure. It is answered with image data, which stays on the link. -/
def startExposure (program : Program) (stopCleaning readOut : String) (openShutter : Bool) :
    Action Unit := fun session =>
  match program.exposure stopCleaning readOut openShutter with
  | .error fault => (.error fault, session)
  | .ok command => session.transmit command

def readRaw (room : Nat) : Action (List UInt8) := fun session =>
  match session.link.read room with
  | (.error failure, link) => (.error (.link failure.text), { session with link })
  | (.ok bytes, link) => (.ok bytes, { session with link })

/-- Drives the pins while `body` runs, and stops driving them whatever `body` comes to. That the pins
could not be released is only logged. -/
def underPattern {α : Type} (holdTime : Nat) (pins : Pins) (body : Session → α × Session) :
    Action α := fun session =>
  match TimingState.ofPins pins holdTime with
  | .error fault => (.error fault, session)
  | .ok state =>
      match session.send (.testSequencerOn (UInt32.ofNat state.holdTime) state.pins) with
      | (.error fault, session) => (.error fault, session)
      | (.ok (), session) =>
          let (result, session) := body session
          match session.send .testSequencerOff with
          | (.ok (), session) => (.ok result, session)
          | (.error fault, session) =>
              (.ok result,
                session.note
                  ⟨.error, "Could not switch off sequencer test output: " ++ fault.message⟩)

end Session

end CcdController
