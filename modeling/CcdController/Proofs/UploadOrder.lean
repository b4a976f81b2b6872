import Mathlib.Data.List.Basic
import CcdController.Proofs.Exchange

namespace CcdController

/-- A command with the stream of statuses that it found, and the calls that were made for it. -/
structure Delivery where
  command : Command
  stream : StatusStream
  calls : List Call

namespace Delivery

def sent (delivery : Delivery) : List UInt8 := delivery.calls.flatMap Call.accepted

def received (delivery : Delivery) : List UInt8 := delivery.calls.flatMap Call.delivered

def reply (delivery : Delivery) : Except Fault (Option Status) × StatusStream :=
  (delivery.stream.feed delivery.received).next

structure Acknowledged (order : ByteOrder) (delivery : Delivery) : Prop where
  transmitted : ∃ writes reads, delivery.calls = writes ++ .flush (.ok ()) :: reads ∧
    (∀ call ∈ writes, call.IsWrite) ∧
    writes.flatMap Call.accepted = delivery.command.encode order ∧
    ∀ call ∈ reads, call.IsRead
  answered : delivery.reply.1 = .ok (some .ok)

inductive Fails (order : ByteOrder) (delivery : Delivery) : Fault → Prop
  | exchange {fault : Fault} {after : StatusStream}
      (exchanges : Exchanges order delivery.command delivery.stream delivery.calls (.error fault) after) :
      Fails order delivery fault
  | rejected {status : Status} {after : StatusStream}
      (exchanges : Exchanges order delivery.command delivery.stream delivery.calls (.ok status) after)
      (other : status ≠ .ok) : Fails order delivery (.rejected status)

end Delivery

def Threaded : StatusStream → List Delivery → Prop
  | _, [] => True
  | stream, delivery :: later => delivery.stream = stream ∧ Threaded delivery.reply.2 later

inductive Deliveries (order : ByteOrder) :
    StatusStream → List Command → List Delivery → Except Fault Unit → Prop
  | done {stream : StatusStream} : Deliveries order stream [] [] (.ok ())
  | failed {delivery : Delivery} {later : List Command} {fault : Fault}
      (fails : delivery.Fails order fault) :
      Deliveries order delivery.stream (delivery.command :: later) [delivery] (.error fault)
  | acknowledged {delivery : Delivery} {later : List Command} {deliveries : List Delivery}
      {result : Except Fault Unit} (acknowledged : delivery.Acknowledged order)
      (rest : Deliveries order delivery.reply.2 later deliveries result) :
      Deliveries order delivery.stream (delivery.command :: later) (delivery :: deliveries) result

structure SentInOrder (order : ByteOrder) (stream : StatusStream) (commands : List Command)
    (deliveries : List Delivery) (result : Except Fault Unit) : Prop where
  in_order : deliveries.map Delivery.command <+: commands
  threaded : Threaded stream deliveries
  acknowledged : ∀ earlier delivery later, deliveries = earlier ++ delivery :: later →
    ∀ before ∈ earlier, before.Acknowledged order
  sent_prefix : deliveries.flatMap Delivery.sent <+: commands.flatMap (Command.encode order)
  ok_iff : result = .ok () ↔
    deliveries.map Delivery.command = commands ∧ ∀ delivery ∈ deliveries, delivery.Acknowledged order
  error_last : ∀ fault, result = .error fault → ∃ earlier last, deliveries = earlier ++ [last] ∧
    last.sent <+: last.command.encode order ∧ last.Fails order fault
  error_cases : ∀ fault, result = .error fault → (∃ text, fault = .link text) ∨
    fault = .unexpectedEnd ∨ fault = .invalidData .statusWord ∨
    ∃ status, status ≠ .ok ∧ fault = .rejected status

namespace Delivery

variable {order : ByteOrder} {delivery : Delivery} {fault : Fault}

theorem Acknowledged.flush_mem (acknowledged : delivery.Acknowledged order) :
    Call.flush (.ok ()) ∈ delivery.calls := by
  obtain ⟨writes, reads, made, -⟩ := acknowledged.transmitted
  rw [made]
  exact List.mem_append_right writes List.mem_cons_self

theorem Acknowledged.sent_eq (acknowledged : delivery.Acknowledged order) :
    delivery.sent = delivery.command.encode order := by
  obtain ⟨writes, reads, made, -, accepted, reading⟩ := acknowledged.transmitted
  rw [sent, made, List.flatMap_append, List.flatMap_cons, Call.flatMap_accepted_of_isRead reading,
    accepted]
  exact List.append_nil _

theorem acknowledged_of_exchanges {after : StatusStream}
    (exchanges : Exchanges order delivery.command delivery.stream delivery.calls (.ok .ok) after) :
    delivery.Acknowledged order ∧ delivery.reply.2 = after := by
  obtain ⟨writes, reads, made, transmitted⟩ := exchanges.transmitted_of_ok
  have flushed : Call.flush (.ok ()) ∈ delivery.calls := by
    rw [made]
    exact List.mem_append_right writes List.mem_cons_self
  obtain ⟨left, answered_iff⟩ := exchanges.next_eq flushed
  exact ⟨⟨⟨writes, reads, made, transmitted⟩, (answered_iff .ok).mp rfl⟩, left⟩

theorem Fails.not_acknowledged (fails : delivery.Fails order fault) :
    ¬ delivery.Acknowledged order := by
  intro acknowledged
  cases fails with
  | exchange exchanges =>
      obtain ⟨-, answered_iff⟩ := exchanges.next_eq acknowledged.flush_mem
      cases (answered_iff .ok).mpr acknowledged.answered
  | rejected exchanges other =>
      obtain ⟨-, answered_iff⟩ := exchanges.next_eq acknowledged.flush_mem
      exact other (Except.ok.inj ((answered_iff .ok).mpr acknowledged.answered))

theorem Fails.sent_prefix (fails : delivery.Fails order fault) :
    delivery.sent <+: delivery.command.encode order := by
  cases fails with
  | exchange exchanges => exact exchanges.accepted_prefix
  | rejected exchanges other => exact exchanges.accepted_prefix

theorem Fails.cases (fails : delivery.Fails order fault) : (∃ text, fault = .link text) ∨
    fault = .unexpectedEnd ∨ fault = .invalidData .statusWord ∨
    ∃ status, status ≠ .ok ∧ fault = .rejected status := by
  cases fails with
  | exchange exchanges =>
      rcases exchanges.fault_cases with link | ended | unknown
      · exact .inl link
      · exact .inr (.inl ended)
      · exact .inr (.inr (.inl unknown))
  | @rejected status _ exchanges other => exact .inr (.inr (.inr ⟨status, other, rfl⟩))

end Delivery

namespace Deliveries

variable {order : ByteOrder} {stream : StatusStream} {commands : List Command}
  {deliveries : List Delivery} {result : Except Fault Unit}

theorem in_order (sent : Deliveries order stream commands deliveries result) :
    deliveries.map Delivery.command <+: commands := by
  induction sent with
  | done => exact List.prefix_refl []
  | failed _ => exact List.cons_prefix_cons.mpr ⟨rfl, List.nil_prefix⟩
  | acknowledged _ _ ih => exact List.cons_prefix_cons.mpr ⟨rfl, ih⟩

theorem threaded (sent : Deliveries order stream commands deliveries result) :
    Threaded stream deliveries := by
  induction sent with
  | done => trivial
  | failed _ => exact ⟨rfl, trivial⟩
  | acknowledged _ _ ih => exact ⟨rfl, ih⟩

theorem acknowledged_before (sent : Deliveries order stream commands deliveries result)
    {earlier later : List Delivery} {delivery : Delivery}
    (split : deliveries = earlier ++ delivery :: later) :
    ∀ before ∈ earlier, before.Acknowledged order := by
  induction sent generalizing earlier with
  | done => cases (List.append_eq_nil_iff.mp split.symm).2
  | failed _ =>
      cases earlier with
      | nil => exact fun before member => absurd member List.not_mem_nil
      | cons first earlier => cases (List.append_eq_nil_iff.mp (List.cons.inj split).2.symm).2
  | acknowledged acknowledged _ ih =>
      cases earlier with
      | nil => exact fun before member => absurd member List.not_mem_nil
      | cons first earlier =>
          obtain ⟨same, rest⟩ := List.cons.inj split
          exact List.forall_mem_cons.mpr ⟨same ▸ acknowledged, ih rest⟩

theorem sent_prefix (sent : Deliveries order stream commands deliveries result) :
    deliveries.flatMap Delivery.sent <+: commands.flatMap (Command.encode order) := by
  induction sent with
  | done => exact List.prefix_refl []
  | failed fails =>
      rw [List.flatMap_singleton, List.flatMap_cons]
      exact fails.sent_prefix.trans (List.prefix_append _ _)
  | acknowledged acknowledged _ ih =>
      rw [List.flatMap_cons, List.flatMap_cons, acknowledged.sent_eq]
      exact (List.prefix_append_right_inj _).mpr ih

theorem ok_iff (sent : Deliveries order stream commands deliveries result) :
    result = .ok () ↔ deliveries.map Delivery.command = commands ∧
      ∀ delivery ∈ deliveries, delivery.Acknowledged order := by
  induction sent with
  | done => simp
  | failed fails =>
      constructor
      · intro done
        cases done
      · intro all
        exact absurd (all.2 _ List.mem_cons_self) fails.not_acknowledged
  | acknowledged acknowledged _ ih =>
      rw [ih, List.map_cons, List.cons_inj_right, List.forall_mem_cons]
      exact and_congr_right fun _ => (and_iff_right acknowledged).symm

theorem error_last {fault : Fault} (sent : Deliveries order stream commands deliveries (.error fault)) :
    ∃ earlier last, deliveries = earlier ++ [last] ∧ last.Fails order fault := by
  generalize failed : Except.error fault = result at sent
  induction sent with
  | done => cases failed
  | @failed delivery _ _ fails =>
      cases failed
      exact ⟨[], delivery, rfl, fails⟩
  | @acknowledged delivery _ _ _ _ _ ih =>
      obtain ⟨earlier, last, split, fails⟩ := ih failed
      exact ⟨delivery :: earlier, last, congrArg (delivery :: ·) split, fails⟩

theorem sentInOrder (sent : Deliveries order stream commands deliveries result) :
    SentInOrder order stream commands deliveries result where
  in_order := sent.in_order
  threaded := sent.threaded
  acknowledged _ _ _ := sent.acknowledged_before
  sent_prefix := sent.sent_prefix
  ok_iff := sent.ok_iff
  error_last := by
    rintro fault rfl
    obtain ⟨earlier, last, split, fails⟩ := sent.error_last
    exact ⟨earlier, last, split, fails.sent_prefix, fails⟩
  error_cases := by
    rintro fault rfl
    obtain ⟨_, last, -, fails⟩ := sent.error_last
    exact fails.cases

end Deliveries

theorem enableSequencer_notMem (program : Program) :
    Command.enableSequencer ∉ Command.disableSequencer :: program.writes := by
  intro member
  rcases List.mem_cons.mp member with first | write
  · cases first
  · obtain ⟨index, inside, made⟩ := List.mem_mapIdx.mp write
    cases made

/-- `enableSequencer` is the last command of an upload, and comes after all the writes. -/
theorem SentInOrder.enabled {order : ByteOrder} {stream : StatusStream} {program : Program}
    {deliveries : List Delivery} {result : Except Fault Unit}
    (sent : SentInOrder order stream (.disableSequencer :: program.writes ++ [.enableSequencer])
      deliveries result) {delivery : Delivery} (member : delivery ∈ deliveries)
    (enables : delivery.command = .enableSequencer) :
    ∃ earlier, deliveries = earlier ++ [delivery] ∧
      earlier.map Delivery.command = .disableSequencer :: program.writes ∧
      ∀ before ∈ earlier, before.Acknowledged order := by
  obtain ⟨earlier, later, split⟩ := List.append_of_mem member
  obtain ⟨rest, whole⟩ := sent.in_order
  rw [split, List.map_append, List.map_cons, enables, List.append_assoc, List.cons_append] at whole
  -- It stands in the list of commands only once, so the commands before it are the same here.
  obtain ⟨all, -, none⟩ :=
    (List.append_cons_inj_of_notMem (enableSequencer_notMem program) List.not_mem_nil).mp whole.symm
  have last : later = [] := List.map_eq_nil_iff.mp (List.append_eq_nil_iff.mp none.symm).1
  rw [last] at split
  exact ⟨earlier, split, all.symm, sent.acknowledged earlier delivery [] split⟩

/-- After the sequencer was stopped, the lines are written one by one from address 0 on. -/
theorem SentInOrder.written {order : ByteOrder} {stream : StatusStream} {program : Program}
    {deliveries : List Delivery} {result : Except Fault Unit}
    (sent : SentInOrder order stream (.disableSequencer :: program.writes ++ [.enableSequencer])
      deliveries result) {address : Nat} {delivery : Delivery}
    (taken : deliveries[address + 1]? = some delivery) (other : delivery.command ≠ .enableSequencer) :
    ∃ line, program.codes[address]? = some line ∧
      delivery.command = .writeSequencerMemory (UInt16.ofNat address) line := by
  obtain ⟨rest, whole⟩ := sent.in_order
  have made : (deliveries.map Delivery.command)[address + 1]? = some delivery.command := by
    rw [List.getElem?_map, taken]
    rfl
  obtain ⟨inside, -⟩ := List.getElem?_eq_some_iff.mp made
  rw [← List.getElem?_append_left inside, whole, List.cons_append, List.getElem?_cons_succ] at made
  rcases Nat.lt_or_ge address program.writes.length with written | behind
  · rw [List.getElem?_append_left written, Program.getElem?_writes] at made
    obtain ⟨line, found, same⟩ := Option.map_eq_some_iff.mp made
    exact ⟨line, found, same.symm⟩
  · -- Behind the writes there is nothing but the last command.
    rw [List.getElem?_append_right behind] at made
    exact absurd (List.mem_singleton.mp (List.mem_of_getElem? made)) other

namespace Session

theorem delivery_send (command : Command) (session : Session) : ∃ delivery : Delivery,
    delivery.command = command ∧ delivery.stream = session.stream ∧
    (session.send command).2.link.calls = session.link.calls ++ delivery.calls ∧
    (session.send command).2.order = session.order ∧
    ((session.send command).1 = .ok () ∧ delivery.Acknowledged session.order ∧
        (session.send command).2.stream = delivery.reply.2 ∨
      ∃ fault, (session.send command).1 = .error fault ∧ delivery.Fails session.order fault) := by
  obtain ⟨calls, made, exchanges, order_eq⟩ := exchanges_exchange command session
  refine ⟨⟨command, session.stream, calls⟩, rfl, rfl, ?_⟩
  rw [send]
  rcases answered : session.exchange command with ⟨fault | status, after⟩
  · rw [answered] at made exchanges order_eq
    exact ⟨made, order_eq, .inr ⟨fault, rfl, .exchange exchanges⟩⟩
  · rw [answered] at made exchanges order_eq
    by_cases accepted : status = .ok
    · rw [accepted] at exchanges ⊢
      obtain ⟨acknowledged, left⟩ :=
        @Delivery.acknowledged_of_exchanges _ ⟨command, session.stream, calls⟩ _ exchanges
      exact ⟨made, order_eq, .inl ⟨rfl, acknowledged, left.symm⟩⟩
    · have fails : Delivery.Fails session.order ⟨command, session.stream, calls⟩ (.rejected status) :=
        .rejected exchanges accepted
      -- Sending tells the statuses apart by name, though it rejects all but one alike.
      cases status with
      | ok => exact absurd rfl accepted
      | _ => exact ⟨made, order_eq, .inr ⟨_, rfl, fails⟩⟩

theorem deliveries_sendAll (commands : List Command) (session : Session) : ∃ deliveries,
    (session.sendAll commands).2.link.calls =
      session.link.calls ++ deliveries.flatMap Delivery.calls ∧
    Deliveries session.order session.stream commands deliveries (session.sendAll commands).1 := by
  induction commands generalizing session with
  | nil => exact ⟨[], (List.append_nil _).symm, .done⟩
  | cons command later ih =>
      obtain ⟨delivery, rfl, found, made, order_eq, came⟩ := delivery_send command session
      rw [sendAll, ← found]
      rcases sent : session.send delivery.command with ⟨fault | ⟨⟩, after⟩
      · rw [sent] at made came
        obtain ⟨other, failed, fails⟩ := came.resolve_left fun done => nomatch done.1
        cases failed
        refine ⟨[delivery], ?_, .failed fails⟩
        rw [List.flatMap_singleton]
        exact made
      · rw [sent] at made order_eq came
        obtain ⟨-, acknowledged, left⟩ := came.resolve_right fun failed => nomatch failed.choose_spec.1
        obtain ⟨deliveries, others, rest⟩ := ih after
        refine ⟨delivery :: deliveries, ?_, ?_⟩
        · rw [List.flatMap_cons, ← List.append_assoc, ← made]
          exact others
        · simp only at order_eq left
          rw [order_eq, left] at rest
          exact .acknowledged acknowledged rest

/-- Whatever the session and the link are at, an upload sends its commands in their order, each after all
earlier ones were acknowledged, and comes to the fault of the first that was not. The sequencer is
started only after every memory write was acknowledged. -/
theorem upload_sentInOrder (program : Program) (session : Session) : ∃ deliveries : List Delivery,
    (session.upload program).2.link.calls =
      session.link.calls ++ deliveries.flatMap Delivery.calls ∧
    SentInOrder session.order session.stream
      (.disableSequencer :: program.writes ++ [.enableSequencer]) deliveries
      (session.upload program).1 ∧
    (∀ delivery ∈ deliveries, delivery.command = .enableSequencer →
      ∃ earlier, deliveries = earlier ++ [delivery] ∧
        earlier.map Delivery.command = .disableSequencer :: program.writes ∧
        ∀ before ∈ earlier, before.Acknowledged session.order) ∧
    ∀ address delivery, deliveries[address + 1]? = some delivery →
      delivery.command ≠ .enableSequencer →
      ∃ line, program.codes[address]? = some line ∧
        delivery.command = .writeSequencerMemory (UInt16.ofNat address) line := by
  obtain ⟨deliveries, made, sent⟩ := deliveries_sendAll
    (.disableSequencer :: program.writes ++ [.enableSequencer])
    (session.note ⟨.debug, s!"Uploading {program.size} sequencer memory lines"⟩)
  have inOrder := sent.sentInOrder
  exact ⟨deliveries, made, inOrder, fun delivery member => inOrder.enabled member,
    fun address delivery taken other => inOrder.written taken other⟩

end Session

end CcdController
