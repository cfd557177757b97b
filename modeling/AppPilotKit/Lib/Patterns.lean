import Mathlib

/-! # Character classes and small patterns

The anchored regular expressions of the sources are all of a few shapes: one class
and then another with a bounded length, or words joined by separators.
-/

namespace Patterns

def lower (c : Char) : Bool := 'a' ≤ c && c ≤ 'z'

def upper (c : Char) : Bool := 'A' ≤ c && c ≤ 'Z'

def digit (c : Char) : Bool := '0' ≤ c && c ≤ '9'

def lowerOrDigit (c : Char) : Bool := lower c || digit c

/-- `[A-Za-z0-9._~-]`. -/
def unreserved (c : Char) : Bool :=
  upper c || lower c || digit c || c == '.' || c == '_' || c == '~' || c == '-'

/-- `[first][rest]*`. -/
def word (first rest : Char → Bool) : List Char → Bool
  | [] => false
  | c :: cs => first c && cs.all rest

/-- `[first][rest]*(?:[separator][again][rest]*)*`. -/
def words (first again rest separator : Char → Bool) : List Char → Bool
  | [] => false
  | c :: cs => first c && tail cs
where
  /-- Inside a word. -/
  tail : List Char → Bool
    | [] => true
    | c :: cs => if separator c then next cs else rest c && tail cs
  /-- After a separator. -/
  next : List Char → Bool
    | [] => false
    | c :: cs => again c && tail cs

/-- `^[a-z][a-z0-9]*(?:[._-][a-z0-9]+)*$`. -/
def dotted (s : String) : Bool :=
  words lower lowerOrDigit lowerOrDigit (fun c => c == '.' || c == '_' || c == '-') s.toList

/-- `text` and then between `least` and `most` characters of a class. -/
def tagged (text : String) (cls : Char → Bool) (least most : Nat) (s : String) : Bool :=
  text.toList.isPrefixOf s.toList &&
    let rest := s.toList.drop text.length
    rest.all cls && least ≤ rest.length && rest.length ≤ most

end Patterns
