import CcdController.Proofs.SessionTimeline

/-!
Framing of status packets over whole runs. Each mark is judged by the marks before it; one lemma says what an
attempt adds to them and at which point of the status stream it leaves the session.
-/
namespace CcdController

namespace Mark

variable {order : ByteOrder} {packet : Nat} {earlier : List Mark}

def Fits (order : ByteOrder) (packet : Nat) (earlier : List Mark) : Mark → Prop
  | call (.read _ _) => (received earlier).length < (obtained earlier).length * packet + 4
  | answer (.ok status) =>
      wordAt order (received earlier) ((obtained earlier).length * packet) = some status.code
  | answer (.error fault) =>
      (∃ front call, earlier = front ++ [.call call] ∧ call.stops = some fault) ∨
        fault = .invalidData .statusWord ∧
          UnknownAt order (received earlier) ((obtained earlier).length * packet)
  | settled undecoded => undecoded = (received earlier).drop ((obtained earlier).length * packet)
  | _ => True

def Fit (order : ByteOrder) (packet : Nat) : List Mark → List Mark → Prop
  | _, [] => True
  | earlier, mark :: later =>
      mark.Fits order packet earlier ∧ Fit order packet (earlier ++ [mark]) later

@[simp]
theorem received_nil : received [] = [] := rfl

@[simp]
theorem obtained_nil : obtained [] = [] := rfl

@[simp]
theorem received_cons (mark : Mark) (later : List Mark) :
    received (mark :: later) = mark.bytes ++ received later := List.flatMap_cons

@[simp]
theorem obtained_cons (mark : Mark) (later : List Mark) :
    obtained (mark :: later) = mark.statuses ++ obtained later := List.flatMap_cons

@[simp]
theorem received_append (front back : List Mark) :
    received (front ++ back) = received front ++ received back := List.flatMap_append

@[simp]
theorem obtained_append (front back : List Mark) :
    obtained (front ++ back) = obtained front ++ obtained back := List.flatMap_append

@[simp]
theorem received_calls (calls : List Call) :
    received (calls.map .call) = calls.flatMap Call.delivered := by
  simp [received, List.flatMap_map, bytes]

@[simp]
theorem obtained_calls (calls : List Call) : obtained (calls.map .call) = [] := by
  simp [obtained, List.flatMap_map, statuses]

theorem fit_append {front back : List Mark} : Fit order packet earlier (front ++ back) ↔
    Fit order packet earlier front ∧ Fit order packet (earlier ++ front) back := by
  induction front generalizing earlier with
  | nil => simp [Fit]
  | cons mark front ih => simp [Fit, ih, and_assoc]

theorem Fit.fits {front back : List Mark} {mark : Mark}
    (fit : Fit order packet earlier (front ++ mark :: back)) :
    mark.Fits order packet (earlier ++ front) := (fit_append.mp fit).2.1

theorem fit_of_not_isRead {calls : List Call} (silent : ∀ call ∈ calls, ¬ call.IsRead) :
    Fit order packet earlier (calls.map .call) := by
  induction calls generalizing earlier with
  | nil => trivial
  | cons call calls ih =>
      rcases List.forall_mem_cons.mp silent with ⟨first, rest⟩
      refine ⟨?_, ih rest⟩
      cases call with
      | read room outcome => exact absurd trivial first
      | write offered outcome => trivial
      | flush outcome => trivial

end Mark

open Mark

def StatusStream.Behind (order : ByteOrder) (responseLength : Nat) (marks : List Mark)
    (stream : StatusStream) : Prop :=
  stream = .reached order responseLength (received marks) (obtained marks).length

section

variable {order sent : ByteOrder} {responseLength : Nat} {earlier : List Mark}
  {stream after : StatusStream} {calls reads : List Call} {command : Command}
  {outcome : Except Fault Status}

/-- By induction on the reads. Between two of them the stream may hold padding that it will drop. -/
theorem Awaits.fit (awaits : Awaits stream reads outcome after)
    (at_point : stream.dropPadding =
      .reached order responseLength (received earlier) (obtained earlier).length) :
    Fit order (stride responseLength) earlier (reads.map .call ++ [.answer outcome]) ∧
      after.Behind order responseLength (earlier ++ (reads.map .call ++ [.answer outcome])) := by
  induction awaits generalizing earlier with
  | status next =>
      rcases StatusStream.word_of_next at_point next with ⟨word, taken⟩
      exact ⟨⟨word, trivial⟩, by simpa [StatusStream.Behind, bytes, statuses] using taken⟩
  | unknown next =>
      rcases StatusStream.next_cases at_point with ⟨-, other⟩ | ⟨word, there, unknown, other⟩ | ⟨_, -, other⟩
      · cases next.symm.trans other
      · cases next.symm.trans other
        refine ⟨⟨.inr ⟨rfl, word, there, unknown⟩, trivial⟩, ?_⟩
        simp [StatusStream.Behind, bytes, statuses]
      · cases next.symm.trans other
  | failed next =>
      rcases StatusStream.short_of_next at_point next with ⟨short, stays⟩
      refine ⟨⟨wordAt_eq_none_iff.mp short, .inl ⟨earlier, _, rfl, rfl⟩, trivial⟩, ?_⟩
      simpa [StatusStream.Behind, bytes, statuses, Call.delivered] using stays
  | ended next =>
      rcases StatusStream.short_of_next at_point next with ⟨short, stays⟩
      refine ⟨⟨wordAt_eq_none_iff.mp short, .inl ⟨earlier, _, rfl, rfl⟩, trivial⟩, ?_⟩
      simpa [StatusStream.Behind, bytes, statuses, Call.delivered] using stays
  | @more stream between after room carried reads outcome next some _ ih =>
      rcases StatusStream.short_of_next at_point next with ⟨short, stays⟩
      have fed : (between.feed carried).dropPadding = .reached order responseLength
          (received (earlier ++ [.call (.read room (.ok carried))]))
          (obtained (earlier ++ [.call (.read room (.ok carried))])).length := by
        rw [stays, StatusStream.dropPadding_feed]
        simp [bytes, statuses, Call.delivered]
      rcases ih fed with ⟨fit, behind⟩
      refine ⟨⟨wordAt_eq_none_iff.mp short, fit⟩, ?_⟩
      simpa using behind

theorem Transmits.fit {outcome : Except Fault Unit} (transmits : Transmits sent command calls outcome)
    (behind : stream.Behind order responseLength earlier) :
    Fit order (stride responseLength) earlier (calls.map .call) ∧
      stream.Behind order responseLength (earlier ++ calls.map .call) := by
  refine ⟨fit_of_not_isRead transmits.not_isRead, ?_⟩
  simpa [StatusStream.Behind, transmits.delivered_eq_nil] using behind

theorem Exchanges.fit (exchanges : Exchanges sent command stream calls outcome after)
    (behind : stream.Behind order responseLength earlier) :
    Fit order (stride responseLength) earlier (calls.map .call ++ [.answer outcome]) ∧
      after.Behind order responseLength (earlier ++ (calls.map .call ++ [.answer outcome])) := by
  cases exchanges with
  | unsent transmits =>
      rcases transmits.fit behind with ⟨fit, kept⟩
      rcases transmits.fault_last with ⟨front, call, rfl, stops⟩
      constructor
      · refine fit_append.mpr ⟨fit, .inl ⟨earlier ++ front.map .call, call, ?_, stops⟩, trivial⟩
        simp
      · simpa [StatusStream.Behind, bytes, statuses] using kept
  | @sent calls reads _ _ transmits awaits =>
      rcases transmits.fit behind with ⟨fit, kept⟩
      have at_point := (congrArg StatusStream.dropPadding kept).trans (StatusStream.dropPadding_reached ..)
      rcases awaits.fit at_point with ⟨answered, reached⟩
      rw [List.map_append, List.append_assoc]
      refine ⟨fit_append.mpr ⟨fit, answered⟩, ?_⟩
      rw [← List.append_assoc]
      exact reached

end

variable {order : ByteOrder} {responseLength : Nat} {earlier : List Mark}

theorem Attempt.fit {attempt : Attempt} (framed : ∀ room found, attempt ≠ .readRaw room found)
    (behind : attempt.found.stream.Behind order responseLength earlier) :
    Fit order (stride responseLength) earlier attempt.marks ∧
      attempt.left.stream.Behind order responseLength (earlier ++ attempt.marks) := by
  have made := attempt.calls_eq
  have answered : Fit order (stride responseLength) earlier
        (attempt.calls.map .call ++ attempt.answers.map .answer) ∧
      attempt.left.stream.Behind order responseLength
        (earlier ++ (attempt.calls.map .call ++ attempt.answers.map .answer)) := by
    cases attempt with
    | exchange command found =>
        rcases found.exchanges_exchange command with ⟨calls, same, exchanges, -⟩
        cases List.append_cancel_left (made.symm.trans same)
        exact exchanges.fit behind
    | transmit command found =>
        rcases found.transmits_transmit command with ⟨calls, same, transmits, stream_eq, -⟩
        cases List.append_cancel_left (made.symm.trans same)
        have silent : (Attempt.transmit command found).answers = [] := rfl
        rw [silent, List.map_nil, List.append_nil]
        exact transmits.fit (stream_eq.trans behind)
    | readRaw room found => exact absurd rfl (framed room found)
  rcases answered with ⟨fit, left⟩
  have settled : attempt.left.stream.pending = _ := congrArg StatusStream.pending left
  refine ⟨fit_append.mpr ⟨fit, settled, trivial⟩, ?_⟩
  simpa [marks, StatusStream.Behind, bytes, statuses] using left

theorem Follow.fit {before after : Session} {attempts : List Attempt}
    (follows : Follow before attempts after)
    (framed : ∀ room found, Attempt.readRaw room found ∉ attempts)
    (behind : before.stream.Behind order responseLength earlier) :
    Fit order (stride responseLength) earlier (attempts.flatMap Attempt.marks) ∧
      after.stream.Behind order responseLength (earlier ++ attempts.flatMap Attempt.marks) := by
  induction attempts generalizing before earlier with
  | nil =>
      rw [List.flatMap_nil, List.append_nil, Session.UpToLog.stream_eq follows]
      exact ⟨trivial, behind⟩
  | cons attempt later ih =>
      have first : ∀ room found, attempt ≠ .readRaw room found := by
        rintro room found rfl
        exact framed room found List.mem_cons_self
      have others : ∀ room found, Attempt.readRaw room found ∉ later :=
        fun room found member => framed room found (List.mem_cons_of_mem attempt member)
      rw [← follows.1.stream_eq] at behind
      rcases attempt.fit first behind with ⟨fit, left⟩
      rcases ih follows.2 others left with ⟨rest, ended⟩
      rw [List.flatMap_cons, ← List.append_assoc]
      exact ⟨fit_append.mpr ⟨fit, rest⟩, ended⟩

theorem Attempt.calls_marks (attempt : Attempt) : attempt.marks.flatMap Mark.calls = attempt.calls := by
  simp [marks, Mark.calls, List.flatMap_map]

theorem Routine.calls_timeline {ρ : Type} (routine : Routine ρ) (session : Session) :
    (routine.run session).2.link.calls =
      session.link.calls ++ (routine.timeline session).flatMap Mark.calls := by
  rw [(routine.follow_run session).calls_eq, timeline, List.flatMap_assoc]
  simp only [Attempt.calls_marks]

namespace Mark

variable {packet : Nat}

def InOrder (order : ByteOrder) (packet : Nat) (marks : List Mark) : Prop :=
  ∀ index status, (obtained marks)[index]? = some status →
    wordAt order (received marks) (index * packet) = some status.code

theorem InOrder.after_mark {mark : Mark} (sound : InOrder order packet earlier)
    (fits : mark.Fits order packet earlier) : InOrder order packet (earlier ++ [mark]) := by
  intro index status taken
  rw [obtained_append, obtained_cons, obtained_nil, List.append_nil] at taken
  rw [received_append, received_cons, received_nil, List.append_nil]
  have kept (silent : mark.statuses = []) :
      wordAt order (received earlier ++ mark.bytes) (index * packet) = some status.code := by
    rw [silent, List.append_nil] at taken
    exact wordAt_append (sound index status taken) _
  cases mark with
  | call made => exact kept rfl
  | settled undecoded => exact kept rfl
  | answer result =>
      cases result with
      | error fault => exact kept rfl
      | ok answered =>
          rcases Nat.lt_or_ge index (obtained earlier).length with before | behind
          · rw [List.getElem?_append_left before] at taken
            exact wordAt_append (sound index status taken) _
          · rw [List.getElem?_append_right behind, statuses, List.getElem?_singleton] at taken
            split at taken
            · next zero =>
                have last : index = (obtained earlier).length := by omega
                rw [last, ← Option.some.inj taken]
                exact wordAt_append fits _
            · cases taken

theorem Fit.inOrder {marks : List Mark} (fit : Fit order packet earlier marks)
    (sound : InOrder order packet earlier) : InOrder order packet (earlier ++ marks) := by
  induction marks generalizing earlier with
  | nil =>
      rw [List.append_nil]
      exact sound
  | cons mark marks ih =>
      rw [← List.singleton_append, ← List.append_assoc]
      exact ih fit.2 (sound.after_mark fit.1)

theorem answers_eq_of_unfailing {marks : List Mark}
    (unfailing : ∀ result ∈ marks.flatMap answers, ∃ status, result = .ok status) :
    marks.flatMap answers = (obtained marks).map .ok := by
  induction marks with
  | nil => rfl
  | cons mark marks ih =>
      rw [List.flatMap_cons] at unfailing
      rcases List.forall_mem_append.mp unfailing with ⟨first, rest⟩
      rw [List.flatMap_cons, obtained_cons, List.map_append, ih rest]
      congr 1
      cases mark with
      | call made => rfl
      | settled undecoded => rfl
      | answer result =>
          rcases first result (List.mem_singleton.mpr rfl) with ⟨status, answered⟩
          rw [answered]
          rfl

theorem exists_answer {marks : List Mark} {result : Except Fault Status}
    (member : result ∈ marks.flatMap answers) :
    ∃ front back, marks = front ++ .answer result :: back := by
  rcases List.mem_flatMap.mp member with ⟨mark, inside, found⟩
  rcases List.append_of_mem inside with ⟨front, back, rfl⟩
  cases mark with
  | call made => cases found
  | settled undecoded => cases found
  | answer other =>
      cases List.mem_singleton.mp found
      exact ⟨front, back, rfl⟩

theorem Fit.framed {timeline : List Mark} (fit : Fit order packet [] timeline) :
    Framed order packet timeline := by
  have statuses : ∀ earlier later, timeline = earlier ++ later → InOrder order packet earlier := by
    intro earlier later split
    subst split
    apply (fit_append.mp fit).1.inOrder
    intro index status taken
    cases taken
  have failed : ∀ earlier fault later, timeline = earlier ++ .answer (.error fault) :: later →
      (Mark.answer (.error fault)).Fits order packet earlier := by
    intro earlier fault later split
    subst split
    exact fit.fits
  constructor
  case reads =>
    intro earlier room outcome later split
    subst split
    exact fit.fits
  case statuses => exact statuses
  case undecoded =>
    intro earlier pending later split
    subst split
    exact fit.fits
  case failed => exact failed
  case unfailing =>
    intro earlier later split unfailing index result answered
    rw [answers_eq_of_unfailing unfailing, List.getElem?_map] at answered
    rcases Option.map_eq_some_iff.mp answered with ⟨status, taken, same⟩
    exact ⟨status, same.symm, statuses earlier later split index status taken⟩
  case unbroken =>
    intro earlier later split unbroken known result member
    cases result with
    | ok status => exact ⟨status, rfl⟩
    | error fault =>
        -- The failure would be that of a call or of a packet, and there is neither.
        rcases exists_answer member with ⟨front, back, rfl⟩
        rw [List.append_assoc, List.cons_append] at split
        rcases failed front fault _ split with ⟨before, call, rfl, stops⟩ | ⟨-, word, there, unknown⟩
        · have made : call ∈ (before ++ [Mark.call call] ++ answer (.error fault) :: back).flatMap calls :=
            List.mem_flatMap.mpr ⟨Mark.call call, by simp, List.mem_singleton.mpr rfl⟩
          cases stops.symm.trans (unbroken call made)
        · refine absurd ⟨word, ?_, unknown⟩ (known (obtained front).length)
          rw [received_append]
          exact wordAt_append there _

end Mark

/-- Whatever a caller does and whatever the link has in store, the answers are the status words of the
packets in order, the undecoded bytes are those behind them, and the link is read only while the
next status word is missing. -/
theorem Routine.framed_of_start {ρ : Type} (order : ByteOrder) (responseLength : Nat) (link : Link)
    (routine : Routine ρ) (framed : ∀ room found,
      Attempt.readRaw room found ∉ routine.attempts (.start order responseLength link)) :
    let session := Session.start order responseLength link
    let timeline := routine.timeline session
    Framed order (stride responseLength) timeline ∧
    Follow session (routine.attempts session) (routine.run session).2 ∧
    (routine.run session).2.link.calls = link.calls ++ timeline.flatMap Mark.calls ∧
    (routine.run session).2.stream.pending =
      (received timeline).drop ((obtained timeline).length * stride responseLength) := by
  intro session timeline
  have start : session.stream.Behind order responseLength [] :=
    (StatusStream.reached_start order responseLength).symm
  rcases (routine.follow_run session).fit framed start with ⟨fit, behind⟩
  refine ⟨fit.framed, routine.follow_run session, routine.calls_timeline session, ?_⟩
  exact congrArg StatusStream.pending behind

/-- A packet of eight bytes comes in two pieces, and then the link fails. -/
def brokenLink : Link :=
  .fresh [.bytes [0x55, 0x55, 0x55, 0x55, 0], .bytes [0, 0, 0], .failure ⟨false, "reset"⟩] [] []

def restart : Routine (Except Fault Unit) :=
  .perform (.send (.powerOn false)) fun _ => .perform (.send (.powerOn true)) .finish

theorem Routine.framed_of_start_brokenLink :
    (∀ room found, Attempt.readRaw room found ∉ restart.attempts (.start .little 8 brokenLink)) ∧
    Framed .little (stride 8) (restart.timeline (.start .little 8 brokenLink)) ∧
    obtained (restart.timeline (.start .little 8 brokenLink)) = [.ok] := by
  have framed : ∀ room found,
      Attempt.readRaw room found ∉ restart.attempts (.start .little 8 brokenLink) := by
    simp [restart, attempts, Operation.attempts]
  exact ⟨framed, (restart.framed_of_start .little 8 brokenLink framed).1, by decide +kernel⟩

end CcdController
