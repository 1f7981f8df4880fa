/-!
# Numbers in messages

Digits in groups of three, zero-padded fields, and the two ways in which a sequence of numbers is
shown.
-/

namespace PencilPuzzle.Text

/-- Puts a comma behind every third character; on reversed digits these are the thousands. -/
def groupThrees : List Char → List Char
  | a :: b :: c :: d :: rest => a :: b :: c :: ',' :: groupThrees (d :: rest)
  | short => short

/-- A number with its thousands set apart by commas. -/
def grouped (n : Int) : String :=
  let digits := String.ofList (groupThrees (Nat.toDigits 10 n.natAbs).reverse).reverse
  if n < 0 then "-" ++ digits else digits

/-- A number in at least `width` characters, filled with zeros behind the sign. -/
def zeroPadded (width : Nat) (n : Int) : String :=
  let digits := Nat.toDigits 10 n.natAbs
  if n < 0 then String.ofList ('-' :: List.replicate (width - 1 - digits.length) '0' ++ digits)
  else String.ofList (List.replicate (width - digits.length) '0' ++ digits)

def listing (items : List String) : String := "[" ++ ", ".intercalate items ++ "]"

/-- Round brackets around the items; a single item keeps a comma behind it. -/
def bracketed : List String → String
  | [item] => "(" ++ item ++ ",)"
  | items => "(" ++ ", ".intercalate items ++ ")"

end PencilPuzzle.Text
