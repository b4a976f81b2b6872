import CcdController.Text.CharClass

/-!
Lines of a text. Line ends are kept out of the lines, and blanks at both ends of a line do not
count, so a carriage return before the line end disappears as well.
-/
namespace CcdController.Text

def trimmed (cs : List Char) : List Char :=
  ((cs.dropWhile isBlank).reverse.dropWhile isBlank).reverse

def contentLines (cs : List Char) : List (List Char) :=
  ((cs.splitOn '\n').map trimmed).filter fun line => !line.isEmpty

def joinedRows (rows : List String) : String := "\n".intercalate rows

end CcdController.Text
