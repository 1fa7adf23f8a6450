/-!
Lines of a text. A line ends with a newline or with the text; the empty rest after a last
newline is no line.
-/

namespace SettingsLang.Text

/-- The number of lines in a list of characters, where `pending` says that the line at hand has
characters already. -/
def countLines (pending : Bool) : List Char → Nat
  | [] => if pending then 1 else 0
  | '\n' :: rest => countLines false rest + 1
  | _ :: rest => countLines true rest

def lineCount (text : String) : Nat :=
  countLines false text.toList

example : lineCount "" = 0 := by decide
example : lineCount "a\n\nb" = 3 := by decide
example : lineCount "a\nb\n" = 2 := by decide

end SettingsLang.Text
