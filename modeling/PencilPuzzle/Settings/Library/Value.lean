import PencilPuzzle.Settings.Library.IntegerText
import PencilPuzzle.Settings.Reading

/-!
# Values of settings

A setting is given by a value of any kind, and each reader here either takes it or names the one
problem with it. No setting takes a list or a record.
-/

namespace PencilPuzzle.Settings

inductive Value where
  | null
  | bool (value : Bool)
  | int (value : Int)
  | real (value : Rat)
  | text (value : String)
  | list (items : List Value)
  | record (fields : List (String × Value))
  deriving Inhabited

/-- Whether the value switches something on: empty and zero values do not. -/
def Value.isOn : Value → Bool
  | .null => false
  | .bool value => value
  | .int value => value ≠ 0
  | .real value => value ≠ 0
  | .text value => !value.isEmpty
  | .list items => !items.isEmpty
  | .record fields => !fields.isEmpty

def Value.text? : Value → Option String
  | .text value => some value
  | _ => none

def Value.kindName : Value → String
  | .null => "NoneType"
  | .bool _ => "bool"
  | .int _ => "int"
  | .real _ => "float"
  | .text _ => "str"
  | .list _ => "list"
  | .record _ => "dict"

/-! ### Values of one setting -/

def isWord (n : Int) : Bool := -0x8000000000000000 ≤ n && n < 0x8000000000000000

/-- The integer that a floating-point number is. The least number of 64 bits is out of reach. -/
def integerOfReal (value : Rat) : Except Problem Int :=
  if value.den ≠ 1 then .error .fraction
  else if isWord value.num && isWord (-value.num) then .ok value.num
  else .error .longInteger

def readInteger : Value → Except Problem Int
  | .int value => .ok value
  | .bool value => .ok value.toNat
  | .real value => integerOfReal value
  | .text value =>
    match readIntegerText value with
    | .ok n => .ok n
    | .error .unreadable => .error .unreadableInteger
    | .error .tooLong => .error .longInteger
  | .null | .list _ | .record _ => .error .notInteger

def noWords : List String := ["0", "off", "f", "false", "n", "no"]

def yesWords : List String := ["1", "on", "t", "true", "y", "yes"]

def readBoolean : Value → Except Problem Bool
  | .bool value => .ok value
  | .int value => if isWord value then ofInteger value else .error .notBoolean
  | .real value =>
    match integerOfReal value with
    | .ok n => ofInteger n
    | .error _ => .error .notBoolean
  | .text value =>
    if value.toLower ∈ noWords then .ok false
    else if value.toLower ∈ yesWords then .ok true
    else .error .unreadableBoolean
  | .null | .list _ | .record _ => .error .notBoolean
where
  /-- Only 0 and 1 are truth values. -/
  ofInteger (value : Int) : Except Problem Bool :=
    if value = 0 then .ok false else if value = 1 then .ok true else .error .unreadableBoolean

def readers : Readers Value where
  integer := readInteger
  truth := readBoolean
  text? := Value.text?
  isNull
    | .null => true
    | _ => false

end PencilPuzzle.Settings
