import Declutter.Text.Blank
import Declutter.Text.Word

/-!
# Method names

A method is named by the first name of its signature that is followed by an opening parenthesis.
-/

namespace Declutter.Method

/-- Whether a text goes on, after blanks, with an opening parenthesis. -/
def opensParameters (s : Text) : Bool := s.trimStart.head? == some '('

/-- The first name that is followed by an opening parenthesis. -/
def name? : Text → Option Text
  | [] => none
  | c :: s =>
    if isNameStart c && opensParameters (s.dropWhile isNameChar) then
      some (c :: s.takeWhile isNameChar)
    else name? s

/-- What a method without a name is called. -/
def placeholder : Text := "Method".toList

/-- The name of a method, for the reader. -/
def shownName (signature : Text) : Text := (name? signature).getD placeholder

end Declutter.Method
