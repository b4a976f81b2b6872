namespace CcdController

inductive Status where
  | disabled
  | ok
  | exposeBusy
  | exposeDone
  | timeout
  | error
  deriving DecidableEq, Repr

namespace Status

def all : List Status := [disabled, ok, exposeBusy, exposeDone, timeout, error]

def code : Status → UInt32
  | disabled => 0
  | ok => 0x55555555
  | exposeBusy => 0xEEEEBBBB
  | exposeDone => 0xEEEEDDDD
  | timeout => 0xFEDCBA98
  | error => 0xFFFFFFFF

def ofCode? (word : UInt32) : Option Status := all.find? fun status => status.code = word

def isFailure : Status → Bool
  | timeout | error => true
  | _ => false

def name : Status → String
  | disabled => "Disabled"
  | ok => "Ok"
  | exposeBusy => "ExposeBusy"
  | exposeDone => "ExposeDone"
  | timeout => "Timeout"
  | error => "Error"

@[simp]
theorem ofCode?_code (status : Status) : ofCode? status.code = some status := by
  cases status <;> decide

theorem ofCode?_eq_some_iff {word : UInt32} {status : Status} :
    ofCode? word = some status ↔ status.code = word := by
  constructor
  · intro h
    simpa using List.find?_some h
  · intro same
    subst same
    exact ofCode?_code status

theorem ofCode?_eq_none_iff {word : UInt32} :
    ofCode? word = none ↔ ∀ status : Status, word ≠ status.code := by
  rw [Option.eq_none_iff_forall_ne_some]
  exact forall_congr' fun status => not_congr (ofCode?_eq_some_iff.trans eq_comm)

theorem code_injective {a b : Status} (h : a.code = b.code) : a = b := by
  simpa using congrArg ofCode? h

end Status

end CcdController
