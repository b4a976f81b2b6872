import CcdController.Proofs.CompiledLayout
import CcdController.Proofs.UnknownStatus

/-!
What lies on the link in front of image data. An exchange reads until it has its status, so that the
end of a packet may stay on the link for the next one to drop. There is no next one where an exposure
is started: image data begins behind the padding of the last packet that has not been read.

`Answers` says that a link answers the commands of a run with one packet each and holds image data
behind them. `Abreast` is what all exchanges of such a run keep.
-/
namespace CcdController

structure Packet where
  status : Status
  padding : List UInt8

namespace Packet

def bytes (order : ByteOrder) (packet : Packet) : List UInt8 :=
  order.bytes packet.status.code ++ packet.padding

def stream (order : ByteOrder) (packets : List Packet) : List UInt8 := packets.flatMap (bytes order)

variable {order : ByteOrder} {packet : Packet} {packets : List Packet} {length : Nat}

theorem length_bytes (order : ByteOrder) (packet : Packet) :
    (packet.bytes order).length = 4 + packet.padding.length := by
  rw [bytes, List.length_append, ByteOrder.length_bytes]

theorem stream_cons (order : ByteOrder) (packet : Packet) (packets : List Packet) :
    stream order (packet :: packets) = packet.bytes order ++ stream order packets := List.flatMap_cons

theorem stream_concat (order : ByteOrder) (packets : List Packet) (packet : Packet) :
    stream order (packets ++ [packet]) = stream order packets ++ packet.bytes order := by
  rw [stream, List.flatMap_append, List.flatMap_singleton, stream]

end Packet

def Arrival.bytesOf : Arrival → List UInt8
  | .bytes carried => carried
  | .failure _ => []

def Link.unread (link : Link) : List UInt8 := link.reads.flatMap Arrival.bytesOf

structure Link.Advances (before : Link) (taken : List UInt8) (after : Link) : Prop where
  made : ∃ calls, after.calls = before.calls ++ calls ∧ calls.flatMap Call.delivered = taken
  unread_eq : before.unread = taken ++ after.unread

theorem unread_deliver (room : Nat) (reads : List Arrival) :
    reads.flatMap Arrival.bytesOf =
      (Call.read room (deliver room reads).1).delivered ++
        (deliver room reads).2.flatMap Arrival.bytesOf := by
  match reads with
  | [] => rfl
  | .failure failure :: later => rfl
  | .bytes bytes :: later =>
      have split : bytes.take room ++ bytes.drop room = bytes := List.take_append_drop room bytes
      simp only [deliver, Call.delivered, List.flatMap_cons, Arrival.bytesOf]
      by_cases all : bytes.drop room = []
      · rw [all, List.append_nil] at split
        rw [if_pos all, split]
      · rw [if_neg all, List.flatMap_cons, Arrival.bytesOf, ← List.append_assoc, split]

namespace Link

variable {first second third : Link} {front back : List UInt8}

theorem Advances.refl (link : Link) : link.Advances [] link :=
  ⟨⟨[], (List.append_nil _).symm, rfl⟩, rfl⟩

theorem Advances.trans (one : first.Advances front second) (other : second.Advances back third) :
    first.Advances (front ++ back) third := by
  obtain ⟨calls, made, rfl⟩ := one.made
  obtain ⟨later, madeLater, rfl⟩ := other.made
  constructor
  · refine ⟨calls ++ later, ?_, List.flatMap_append⟩
    rw [madeLater, made, List.append_assoc]
  · rw [one.unread_eq, other.unread_eq, List.append_assoc]

theorem Advances.taken_eq (advances : first.Advances front second) {calls : List Call}
    (made : second.calls = first.calls ++ calls) : calls.flatMap Call.delivered = front := by
  obtain ⟨others, same, rfl⟩ := advances.made
  rw [List.append_cancel_left (made.symm.trans same)]

theorem advances_read (link : Link) (room : Nat) :
    link.Advances (Call.read room (link.read room).1).delivered (link.read room).2 := by
  constructor
  · exact ⟨[.read room (link.read room).1], rfl, List.flatMap_singleton _ _⟩
  · exact unread_deliver room link.reads

theorem advances_write (link : Link) (offered : List UInt8) :
    link.Advances [] (link.write offered).2 :=
  ⟨⟨[.write offered (link.write offered).1], rfl, rfl⟩, rfl⟩

theorem advances_flush (link : Link) : link.Advances [] link.flush.2 :=
  ⟨⟨[.flush link.flush.1], rfl, rfl⟩, rfl⟩

theorem advances_writeAll (link : Link) (offered : List UInt8) :
    link.Advances [] (link.writeAll offered).2 := by
  fun_induction Link.writeAll link offered with
  | case1 link => exact .refl link
  | case2 link offered some failure met interrupted ih => exact (advances_write link offered).trans ih
  | case3 link offered some failure met final => exact advances_write link offered
  | case4 link offered some met => exact advances_write link offered
  | case5 link offered some accepted met full ih => exact (advances_write link offered).trans ih

end Link

namespace Session

theorem advances_transmit (command : Command) (session : Session) :
    session.link.Advances [] (session.transmit command).2.link := by
  have written := (session.announce command).link.advances_writeAll
    (command.encode (session.announce command).order)
  simp only [transmit]
  rcases ended : (session.announce command).link.writeAll
    (command.encode (session.announce command).order) with ⟨failure | ⟨⟩, link⟩
  · rw [ended] at written
    exact written
  · rw [ended] at written
    have flushed := written.trans link.advances_flush
    rcases met : link.flush with ⟨failure | ⟨⟩, after⟩
    · rw [met] at flushed
      simp only [met]
      exact flushed
    · rw [met] at flushed
      simp only [met]
      exact flushed

theorem advances_receive (session : Session) :
    ∃ taken, session.link.Advances taken session.receive.2.link := by
  fun_induction receive session with
  | case1 session fault stream next => exact ⟨[], .refl session.link⟩
  | case2 session status stream next => exact ⟨[], .refl session.link⟩
  | case3 session stream next failure met => exact ⟨_, session.link.advances_read _⟩
  | case4 session stream next met =>
      rw [lastStatus_of_short (StatusStream.next_of_next_none next)]
      exact ⟨_, session.link.advances_read _⟩
  | case5 session stream next bytes met some ih =>
      obtain ⟨later, advances⟩ := ih
      exact ⟨_, (session.link.advances_read _).trans advances⟩

theorem advances_exchange (command : Command) (session : Session) :
    ∃ taken, session.link.Advances taken (session.exchange command).2.link := by
  have sent := session.advances_transmit command
  rw [exchange]
  rcases transmitted : session.transmit command with ⟨fault | ⟨⟩, after⟩
  · rw [transmitted] at sent
    exact ⟨[], sent⟩
  · rw [transmitted] at sent
    obtain ⟨taken, received⟩ := after.advances_receive
    exact ⟨[] ++ taken, sent.trans received⟩

theorem advances_readRaw (room : Nat) (session : Session) :
    ∃ taken, session.link.Advances taken (session.readRaw room).2.link := by
  have read := session.link.advances_read room
  rw [readRaw]
  rcases met : session.link.read room with ⟨failure | bytes, link⟩
  · rw [met] at read
    exact ⟨_, read⟩
  · rw [met] at read
    exact ⟨_, read⟩

theorem advances_startExposure (program : Program) (stopCleaning readOut : String)
    (openShutter : Bool) (session : Session) : session.link.Advances []
      (session.startExposure program stopCleaning readOut openShutter).2.link := by
  rw [startExposure]
  cases program.exposure stopCleaning readOut openShutter with
  | error fault => exact .refl session.link
  | ok command => exact session.advances_transmit command

end Session

theorem Attempt.advances (attempt : Attempt) :
    ∃ taken, attempt.found.link.Advances taken attempt.left.link := by
  cases attempt with
  | exchange command found => exact found.advances_exchange command
  | transmit command found => exact ⟨[], found.advances_transmit command⟩
  | readRaw room found => exact found.advances_readRaw room

theorem Follow.advances {before after : Session} {attempts : List Attempt}
    (follows : Follow before attempts after) : ∃ taken, before.link.Advances taken after.link := by
  induction attempts generalizing before with
  | nil =>
      rw [Session.UpToLog.link_eq follows]
      exact ⟨[], .refl before.link⟩
  | cons attempt later ih =>
      obtain ⟨front, first⟩ := attempt.advances
      obtain ⟨back, rest⟩ := ih follows.2
      rw [Session.UpToLog.link_eq follows.1] at first
      exact ⟨front ++ back, first.trans rest⟩

def Attempt.answer : Attempt → Option Status
  | exchange command found => (found.exchange command).1.toOption
  | _ => none

/-- `Answers order length image waiting attempts packets left`: each command that goes out is answered
with the next of the packets, of `length` bytes, and image data lies behind them. No exchange reads
beyond its own packet. What it leaves of it is `waiting` before the attempts and `left` behind them. -/
inductive Answers (order : ByteOrder) (length : Nat) (image : List UInt8) :
    List UInt8 → List Attempt → List Packet → List UInt8 → Prop
  | done {waiting : List UInt8} : Answers order length image waiting [] [] waiting
  | unsent {waiting left : List UInt8} {command : Command} {found : Session} {fault : Fault}
      {attempts : List Attempt} {packets : List Packet}
      (stopped : (found.transmit command).1 = .error fault)
      (rest : Answers order length image waiting attempts packets left) :
      Answers order length image waiting (.exchange command found :: attempts) packets left
  | answered {waiting behind left : List UInt8} {command : Command} {found : Session}
      {status : Status} {packet : Packet} {attempts : List Attempt} {packets : List Packet}
      (whole : (packet.bytes order).length = length)
      (answer : (found.exchange command).1 = .ok status)
      (unread : (found.exchange command).2.link.unread =
        behind ++ (Packet.stream order packets ++ image))
      (rest : Answers order length image behind attempts packets left) :
      Answers order length image waiting (.exchange command found :: attempts) (packet :: packets) left

def Packet.Leaves (packets : List Packet) (left : List UInt8) : Prop :=
  left = [] ∨ ∃ front packet, packets = front ++ [packet] ∧ left <:+ packet.padding

structure Abreast (order : ByteOrder) (length : Nat) (packets : List Packet) (left : List UInt8)
    (stream : StatusStream) : Prop where
  length_eq : (Packet.stream order packets).length = packets.length * length
  leaves : Packet.Leaves packets left
  reached : ∃ received, received ++ left = Packet.stream order packets ∧
    stream = .reached order length received packets.length

namespace Abreast

variable {order : ByteOrder} {length : Nat} {packets : List Packet} {packet : Packet}
  {waiting taken behind : List UInt8} {stream after : StatusStream}

theorem start (order : ByteOrder) (length : Nat) : Abreast order length [] [] (.start order length) where
  length_eq := (Nat.zero_mul length).symm
  leaves := .inl rfl
  reached := ⟨[], rfl, (StatusStream.reached_start order length).symm⟩

/-- A status that is decoded from bytes of the next packet is the status of this packet, and what is
then unread of it is padding. -/
theorem next (abreast : Abreast order length packets waiting stream) (room : 4 ≤ length)
    (whole : (packet.bytes order).length = length)
    (split : waiting ++ packet.bytes order = taken ++ behind) {status : Status}
    (next_eq : (stream.feed taken).next = (.ok (some status), after)) :
    status = packet.status ∧ Abreast order length (packets ++ [packet]) behind after := by
  obtain ⟨received, joined, rfl⟩ := abreast.reached
  have stride_eq : stride length = length := Nat.max_eq_left room
  have all : received ++ taken ++ behind = Packet.stream order (packets ++ [packet]) := by
    rw [Packet.stream_concat, ← joined, List.append_assoc, ← split, List.append_assoc]
  obtain ⟨found, rfl⟩ := StatusStream.word_of_next (StatusStream.dropPadding_feed taken) next_eq
  rw [stride_eq] at found
  -- The status word lies in what was read and is the first of the packet.
  have far : packets.length * length + 4 ≤ (received ++ taken).length :=
    Nat.not_lt.mp fun short => Option.some_ne_none _ (found.symm.trans (wordAt_eq_none_iff.mpr short))
  have there : wordAt order (Packet.stream order (packets ++ [packet])) (packets.length * length) =
      some packet.status.code := by
    rw [wordAt, Packet.stream_concat, ← abreast.length_eq, List.drop_left]
    exact wordAt_bytes order packet.status.code packet.padding
  have same := wordAt_append found behind
  rw [all, there] at same
  have status_eq := Status.code_injective (Option.some.inj same)
  refine ⟨status_eq.symm, ?_, .inr ⟨packets, packet, rfl, ?_⟩, ?_⟩
  · rw [Packet.stream_concat, List.length_append, abreast.length_eq, whole, List.length_append,
      List.length_singleton, Nat.succ_mul]
  · -- Of two ends of the bytes so far the padding is the longer.
    have ends : packet.padding <:+ Packet.stream order (packets ++ [packet]) := by
      rw [Packet.stream_concat, Packet.bytes, ← List.append_assoc]
      exact List.suffix_append _ _
    have sizes := congrArg List.length all
    simp only [Packet.stream_concat, List.length_append, abreast.length_eq,
      Packet.length_bytes] at sizes far
    apply List.suffix_of_suffix_length_le ⟨received ++ taken, all⟩ ends
    omega
  · exact ⟨received ++ taken, all, by rw [List.length_append, List.length_singleton]⟩

theorem stream_eq (abreast : Abreast order length packets waiting stream) (room : 4 ≤ length) :
    stream = ⟨order, length, waiting.length, []⟩ := by
  obtain ⟨received, joined, rfl⟩ := abreast.reached
  have stride_eq : stride length = length := Nat.max_eq_left room
  have sizes := congrArg List.length joined
  rw [List.length_append, abreast.length_eq] at sizes
  simp only [StatusStream.reached, stride_eq, StatusStream.mk.injEq, true_and]
  constructor
  · omega
  · exact List.drop_eq_nil_of_le (by omega)

end Abreast

namespace Session

variable {order : ByteOrder} {length : Nat} {earlier later : List Packet} {packet : Packet}
  {waiting behind image : List UInt8} {command : Command} {session : Session}

theorem exchange_of_unsent {fault : Fault} (stopped : (session.transmit command).1 = .error fault) :
    (session.exchange command).2.stream = session.stream ∧
      (session.exchange command).2.link.unread = session.link.unread ∧
      (session.exchange command).1 = .error fault := by
  obtain ⟨calls, -, -, stream_eq, -⟩ := session.transmits_transmit command
  have sent := session.advances_transmit command
  rw [exchange]
  rcases transmitted : session.transmit command with ⟨other | ⟨⟩, after⟩
  · rw [transmitted] at stopped stream_eq sent
    cases stopped
    exact ⟨stream_eq, sent.unread_eq.symm, rfl⟩
  · rw [transmitted] at stopped
    cases stopped

theorem abreast_exchange {status : Status} (abreast : Abreast order length earlier waiting session.stream)
    (room : 4 ≤ length) (whole : (packet.bytes order).length = length)
    (before : session.link.unread = waiting ++ (Packet.stream order (packet :: later) ++ image))
    (answer : (session.exchange command).1 = .ok status)
    (after : (session.exchange command).2.link.unread =
      behind ++ (Packet.stream order later ++ image)) :
    status = packet.status ∧
      Abreast order length (earlier ++ [packet]) behind (session.exchange command).2.stream := by
  obtain ⟨calls, made, exchanges, -⟩ := session.exchanges_exchange command
  obtain ⟨taken, advances⟩ := session.advances_exchange command
  have split : waiting ++ packet.bytes order = taken ++ behind := by
    have unread := advances.unread_eq
    rw [before, after, Packet.stream_cons] at unread
    simp only [← List.append_assoc, List.append_cancel_right_eq] at unread
    exact unread
  rw [answer] at exchanges
  obtain ⟨writes, reads, shape, -⟩ := exchanges.transmitted_of_ok
  have flushed : Call.flush (.ok ()) ∈ calls := by
    rw [shape]
    exact List.mem_append_right _ List.mem_cons_self
  obtain ⟨left_eq, answers⟩ := exchanges.next_eq flushed
  rw [advances.taken_eq made] at left_eq answers
  exact abreast.next room whole split (Prod.ext ((answers status).mp rfl) left_eq)

end Session

namespace Answers

variable {order : ByteOrder} {length : Nat} {image waiting left : List UInt8}
  {attempts : List Attempt} {packets : List Packet} {before after : Session}

/-- What one exchange keeps, all of them keep, and each is answered with the status of its packet. -/
theorem abreast (answers : Answers order length image waiting attempts packets left)
    (follows : Follow before attempts after) (room : 4 ≤ length) {earlier : List Packet}
    (start : Abreast order length earlier waiting before.stream)
    (unread : before.link.unread = waiting ++ (Packet.stream order packets ++ image)) :
    Abreast order length (earlier ++ packets) left after.stream ∧
      after.link.unread = left ++ image ∧
      attempts.filterMap Attempt.answer = packets.map Packet.status := by
  induction answers generalizing before earlier with
  | done =>
      rw [Session.UpToLog.stream_eq follows, Session.UpToLog.link_eq follows, List.append_nil]
      exact ⟨start, unread, rfl⟩
  | @unsent waiting left command found fault attempts packets stopped rest ih =>
      obtain ⟨stream_eq, unread_eq, failed⟩ := Session.exchange_of_unsent stopped
      have none : (Attempt.exchange command found).answer = none := congrArg Except.toOption failed
      rw [← Session.UpToLog.stream_eq follows.1] at start
      rw [← Session.UpToLog.link_eq follows.1] at unread
      rw [List.filterMap_cons_none none]
      exact ih follows.2 (stream_eq ▸ start) (unread_eq.trans unread)
  | @answered waiting behind left command found status packet attempts packets whole answer unread'
      rest ih =>
      rw [← Session.UpToLog.stream_eq follows.1] at start
      rw [← Session.UpToLog.link_eq follows.1] at unread
      obtain ⟨rfl, step⟩ := Session.abreast_exchange start room whole unread answer unread'
      have some : (Attempt.exchange command found).answer = some packet.status :=
        congrArg Except.toOption answer
      obtain ⟨abreast, ended, statuses⟩ := ih follows.2 step unread'
      rw [List.append_assoc, List.singleton_append] at abreast
      rw [List.filterMap_cons_some some, statuses]
      exact ⟨abreast, ended, rfl⟩

end Answers

def Session.taken (before after : Session) : List UInt8 :=
  (after.link.calls.drop before.link.calls.length).flatMap Call.delivered

/-- An exposure is started behind a run whose commands were answered with `packets`, where `left` is what
has not been read of them. -/
structure StartsBehind (order : ByteOrder) (length : Nat) (packets : List Packet)
    (image left : List UInt8) (before after : Session) : Prop where
  taken_eq : before.taken after ++ left = Packet.stream order packets
  leaves : Packet.Leaves packets left
  unread_eq : after.link.unread = left ++ image
  stream_eq : after.stream = ⟨order, length, left.length, []⟩
  whole_iff : before.taken after = Packet.stream order packets ↔ left = []

/-- Whatever a caller does before an exposure, image data starts behind the padding that is left of the last
packet. It is the first on the link exactly where all bytes of the packets have been read. -/
theorem Routine.image_behind_padding {ρ : Type} {order : ByteOrder} {length : Nat}
    {image left : List UInt8} {packets : List Packet} {session after : Session} {program : Program}
    {stopCleaning readOut : String} {openShutter : Bool} (routine : Routine ρ) (room : 4 ≤ length)
    (fresh : session.stream = .start order length)
    (unread : session.link.unread = Packet.stream order packets ++ image)
    (answers : Answers order length image [] (routine.attempts session) packets left)
    (started : (routine.run session).2.startExposure program stopCleaning readOut openShutter =
      (.ok (), after)) :
    (routine.attempts session).filterMap Attempt.answer = packets.map Packet.status ∧
      StartsBehind order length packets image left session after := by
  have follows := routine.follow_run session
  have exposure := (routine.run session).2.advances_startExposure program stopCleaning readOut openShutter
  have kept := (routine.run session).2.stream_startExposure program stopCleaning readOut openShutter
  rw [started] at exposure kept
  have begins : Abreast order length [] [] session.stream := by
    rw [fresh]
    exact .start order length
  obtain ⟨abreast, ended, statuses⟩ := answers.abreast follows room begins unread
  rw [List.nil_append, ← kept] at abreast
  have unread_eq : after.link.unread = left ++ image := exposure.unread_eq.symm.trans ended
  obtain ⟨taken, advances⟩ := follows.advances
  have whole := advances.trans exposure
  obtain ⟨calls, made, -⟩ := whole.made
  have taken_eq : session.taken after ++ left = Packet.stream order packets := by
    have all := whole.unread_eq
    rw [unread, unread_eq, ← List.append_assoc] at all
    rw [Session.taken, made, List.drop_left, whole.taken_eq made]
    exact (List.append_cancel_right all).symm
  refine ⟨statuses, taken_eq, abreast.leaves, unread_eq, abreast.stream_eq room, ?_⟩
  rw [← taken_eq]
  exact List.self_eq_append_right

/-- A packet of eight bytes lies on the link in two pieces, with image data behind it. -/
def splitPacket : Session :=
  .start .little 8 (.fresh
    [.bytes [0x55, 0x55, 0x55, 0x55], .bytes [0, 0, 0, 0], .bytes [0xAA, 0xBB, 0xCC, 0xDD]] [] [])

def powerUp : Routine (Except Fault Unit) := .perform (.send (.powerOn true)) .finish

def earlyExposure : Except Fault Unit × Session :=
  (powerUp.run splitPacket).2.startExposure Assembly.lineReadout.image "line" "pixels" true

theorem answers_splitPacket : Answers .little 8 [0xAA, 0xBB, 0xCC, 0xDD] []
    (powerUp.attempts splitPacket) [⟨.ok, [0, 0, 0, 0]⟩] [0, 0, 0, 0] :=
  .answered (by decide) (by decide +kernel : (splitPacket.exchange (.powerOn true)).1 = .ok .ok)
    (by decide +kernel) .done

theorem image_behind_padding_splitPacket : 4 ≤ 8 ∧ earlyExposure.1 = .ok () ∧
    StartsBehind .little 8 [⟨.ok, [0, 0, 0, 0]⟩] [0xAA, 0xBB, 0xCC, 0xDD] [0, 0, 0, 0] splitPacket
      earlyExposure.2 := by
  have started : earlyExposure.1 = .ok () := by decide +kernel
  have behind := powerUp.image_behind_padding (by decide : 4 ≤ 8) (by rfl) (by decide)
    answers_splitPacket (Prod.ext started rfl : earlyExposure = (.ok (), earlyExposure.2))
  exact ⟨by decide, started, behind.2⟩

/-- Image data is not the first that a caller gets: four bytes of padding are read before it. -/
theorem padding_before_image :
    (∃ left, Answers .little 8 [0xAA, 0xBB, 0xCC, 0xDD] [] (powerUp.attempts splitPacket)
      [⟨.ok, [0, 0, 0, 0]⟩] left) ∧
    earlyExposure.1 = .ok () ∧
    splitPacket.taken earlyExposure.2 ≠ Packet.stream .little [⟨.ok, [0, 0, 0, 0]⟩] ∧
    (earlyExposure.2.readRaw 4).1 = .ok [0, 0, 0, 0] :=
  ⟨⟨_, answers_splitPacket⟩, by decide +kernel, by decide +kernel, by decide +kernel⟩

end CcdController
