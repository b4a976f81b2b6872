import CcdController.ByteOrder

/-!
Requests on the command line: which view of a hex dump to show, how its bytes are ordered, and where
to put the result.

    bits DUMP [--byte-order little|big] [-o PATH | --output PATH]
    disasm DUMP [--byte-order little|big] [-o PATH | --output PATH]

The last of several outputs counts, but each of them has to be free.
-/
namespace CcdController.Cli

inductive View where
  | bits
  | disasm
  deriving DecidableEq, Repr

structure Request where
  view : View
  dump : String
  order : ByteOrder
  output : Option String
  /-- All paths that were named for the result. No file may be there yet. -/
  outputs : List String
  deriving DecidableEq, Repr

inductive Setting where
  | byteOrder
  | output
  deriving DecidableEq, Repr

/-- An argument by its form: an option with the value attached to it, the mark after which all
arguments are plain, or a plain argument. -/
inductive Argument where
  | long (name : String) (value : Option String)
  | short (letters : List Char)
  | endOfOptions
  | plain (text : String)
  deriving DecidableEq, Repr

def attached (cs : List Char) : Option String :=
  match cs with
  | '=' :: value => some (String.ofList value)
  | _ => none

def Argument.ofString (text : String) : Argument :=
  match text.toList with
  | ['-', '-'] => endOfOptions
  | '-' :: '-' :: cs =>
      long (String.ofList (cs.takeWhile (· ≠ '='))) (attached (cs.dropWhile (· ≠ '=')))
  | '-' :: c :: cs => short (c :: cs)
  | _ => plain text

def attachedToLetter (cs : List Char) : Option String :=
  match cs with
  | [] => none
  | '=' :: value => some (String.ofList value)
  | value => some (String.ofList value)

def settingOf : Argument → Option (Setting × Option String)
  | .long "byte-order" value => some (.byteOrder, value)
  | .long "output" value => some (.output, value)
  | .short ('o' :: cs) => some (.output, attachedToLetter cs)
  | _ => none

inductive Item where
  | dump (path : String)
  | option (setting : Setting) (value : Option String)
  deriving DecidableEq, Repr

def unvalued : Option Setting → List Item
  | none => []
  | some setting => [.option setting none]

def plainItem : Option Setting → String → Item
  | none, text => .dump text
  | some setting, text => .option setting (some text)

/-- The items that the arguments after the name of the view stand for. `waiting` is an option that
still needs its value. -/
def items (waiting : Option Setting) : List String → Option (List Item)
  | [] => some (unvalued waiting)
  | text :: rest =>
      match Argument.ofString text with
      | .plain text => (plainItem waiting text :: ·) <$> items none rest
      | .endOfOptions => some (unvalued waiting ++ rest.map Item.dump)
      | argument => do
          let (setting, value) ← settingOf argument
          match value with
          | none => (unvalued waiting ++ ·) <$> items (some setting) rest
          | some text =>
              (unvalued waiting ++ .option setting (some text) :: ·) <$> items none rest

def Item.dump? : Item → Option String
  | dump path => some path
  | option .. => none

def Item.valueFor? (setting : Setting) : Item → Option (Option String)
  | dump _ => none
  | option other value => if other = setting then some value else none

def dumpOf? : List String → Option String
  | [path] => if path = "" then none else some path
  | _ => none

def orderOf? : List (Option String) → Option ByteOrder
  | [] => some .little
  | [some "little"] => some .little
  | [some "big"] => some .big
  | _ => none

/-- An output may be given any number of times, but the last time with a path. -/
def outputOf? (values : List (Option String)) : Option (Option String) :=
  match values.getLast? with
  | none => some none
  | some none => none
  | some (some path) => some (some path)

def View.ofString? : String → Option View
  | "bits" => some .bits
  | "disasm" => some .disasm
  | _ => none

def Request.ofItems? (view : View) (items : List Item) : Option Request := do
  let dump ← dumpOf? (items.filterMap Item.dump?)
  let order ← orderOf? (items.filterMap (Item.valueFor? .byteOrder))
  let values := items.filterMap (Item.valueFor? .output)
  let output ← outputOf? values
  return { view, dump, order, output, outputs := values.filterMap id }

def Request.ofArguments? : List String → Option Request
  | [] => none
  | name :: arguments => do
      let view ← View.ofString? name
      let items ← items none arguments
      Request.ofItems? view items

end CcdController.Cli
