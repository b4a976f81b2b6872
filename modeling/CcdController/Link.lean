namespace CcdController

structure LinkFailure where
  interrupted : Bool
  text : String
  deriving DecidableEq, Repr

inductive Arrival where
  | bytes (bytes : List UInt8)
  | failure (failure : LinkFailure)
  deriving DecidableEq, Repr

inductive Acceptance where
  | upTo (count : Nat)
  | failure (failure : LinkFailure)
  deriving DecidableEq, Repr

inductive FlushReply where
  | done
  | failure (failure : LinkFailure)
  deriving DecidableEq, Repr

inductive Call where
  | read (room : Nat) (outcome : Except LinkFailure (List UInt8))
  | write (offered : List UInt8) (outcome : Except LinkFailure (List UInt8))
  | flush (outcome : Except LinkFailure Unit)

structure Link where
  reads : List Arrival
  writes : List Acceptance
  flushes : List FlushReply
  calls : List Call

/-- What a read of at most `room` bytes meets, and what is left in store. What does not fit waits for
the next read. Where nothing is in store no bytes come. -/
def deliver (room : Nat) : List Arrival → Except LinkFailure (List UInt8) × List Arrival
  | [] => (.ok [], [])
  | .failure failure :: later => (.error failure, later)
  | .bytes bytes :: later =>
      (.ok (bytes.take room),
        if bytes.drop room = [] then later else .bytes (bytes.drop room) :: later)

/-- The bytes that a write of `offered` gets rid of, and what is left in store. Where nothing is in
store all are accepted. -/
def accept (offered : List UInt8) :
    List Acceptance → Except LinkFailure (List UInt8) × List Acceptance
  | [] => (.ok offered, [])
  | .failure failure :: later => (.error failure, later)
  | .upTo count :: later => (.ok (offered.take count), later)

def settle : List FlushReply → Except LinkFailure Unit × List FlushReply
  | [] => (.ok (), [])
  | .failure failure :: later => (.error failure, later)
  | .done :: later => (.ok (), later)

def storeSize : List Arrival → Nat
  | [] => 0
  | .failure _ :: later => 1 + storeSize later
  | .bytes bytes :: later => 1 + bytes.length + storeSize later

theorem storeSize_deliver {room : Nat} {reads : List Arrival} {bytes : List UInt8}
    (h : (deliver room reads).1 = .ok bytes) (some : bytes ≠ []) :
    storeSize (deliver room reads).2 < storeSize reads := by
  match reads with
  | [] =>
      cases h
      exact absurd rfl some
  | .failure failure :: later => cases h
  | .bytes stored :: later =>
      simp only [deliver, Except.ok.injEq] at h ⊢
      subst h
      have room_pos : 0 < room := Nat.pos_of_ne_zero fun zero => some (by simp [zero])
      have stored_pos : 0 < stored.length :=
        List.length_pos_iff.mpr fun empty => some (by simp [empty])
      split
      · simp only [storeSize]
        omega
      · simp only [storeSize, List.length_drop]
        omega

theorem length_accept_le (offered : List UInt8) (writes : List Acceptance) :
    (accept offered writes).2.length ≤ writes.length := by
  match writes with
  | [] => exact Nat.le_refl _
  | .failure failure :: later => exact Nat.le_succ _
  | .upTo count :: later => exact Nat.le_succ _

theorem length_accept_lt {offered : List UInt8} {writes : List Acceptance} {failure : LinkFailure}
    (h : (accept offered writes).1 = .error failure) :
    (accept offered writes).2.length < writes.length := by
  match writes with
  | [] => cases h
  | .failure failure :: later => exact Nat.lt_succ_self _
  | .upTo count :: later => cases h

namespace Link

def fresh (reads : List Arrival) (writes : List Acceptance) (flushes : List FlushReply) : Link :=
  ⟨reads, writes, flushes, []⟩

def read (link : Link) (room : Nat) : Except LinkFailure (List UInt8) × Link :=
  let met := deliver room link.reads
  (met.1, { link with reads := met.2, calls := link.calls ++ [.read room met.1] })

def write (link : Link) (offered : List UInt8) : Except LinkFailure (List UInt8) × Link :=
  let met := accept offered link.writes
  (met.1, { link with writes := met.2, calls := link.calls ++ [.write offered met.1] })

def flush (link : Link) : Except LinkFailure Unit × Link :=
  let met := settle link.flushes
  (met.1, { link with flushes := met.2, calls := link.calls ++ [.flush met.1] })

def fullFailure : LinkFailure := ⟨false, "failed to write whole buffer"⟩

/-- Writes until all bytes are accepted. An interrupted write is tried again, and a write that
accepts nothing is a failure. -/
def writeAll (link : Link) (offered : List UInt8) : Except LinkFailure Unit × Link :=
  if _some : offered = [] then (.ok (), link)
  else
    match _met : (link.write offered).1 with
    | .error failure =>
        if failure.interrupted then writeAll (link.write offered).2 offered
        else (.error failure, (link.write offered).2)
    | .ok accepted =>
        if _full : accepted = [] then (.error fullFailure, (link.write offered).2)
        else writeAll (link.write offered).2 (offered.drop accepted.length)
termination_by link.writes.length + offered.length
decreasing_by
  · have : (accept offered link.writes).2.length < link.writes.length := length_accept_lt _met
    simp only [write]
    omega
  · have := length_accept_le offered link.writes
    have := List.length_pos_iff.mpr _some
    have := List.length_pos_iff.mpr _full
    simp only [write, List.length_drop]
    omega

end Link

end CcdController
