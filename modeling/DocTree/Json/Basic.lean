import DocTree.Text.Decimal

/-!
# JSON values

JSON values as they are written: members of an object keep their order and may repeat a name, and
a number keeps its literal.

## Main definitions

* `Json`: a value.
* `Json.fields?`: the values of a record, given as an object or as an array.
* `Json.word64?`, `Json.text?`: reading numbers and strings out of values.
-/

namespace DocTree

/-- A JSON value. A string literal that names a surrogate without its partner is grammatical but
denotes no text; it is kept as `none`. -/
inductive Json where
  /-- The value `null`. -/
  | null
  /-- A truth value. -/
  | bool (value : Bool)
  /-- A number, by its literal. -/
  | number (literal : List Char)
  /-- A string, by the text it denotes. -/
  | string (value : Option String)
  /-- An array. -/
  | array (items : List Json)
  /-- An object; its members in the order in which they are written. -/
  | object (members : List (Option String × Json))
  deriving Repr, Inhabited

namespace Json

/-- The text of a string. -/
def text? : Json → Option String
  | string value => value
  | _ => none

/-- The string that denotes a text. -/
def ofText (text : String) : Json :=
  string (some text)

/-- The number of 64 bits that a literal of digits alone denotes. -/
def word64? : Json → Option Nat
  | number literal => (Text.readDigits? literal).filter (· < UInt64.size)
  | _ => none

/-- The number with the decimal digits of `n`. -/
def ofNat (n : Nat) : Json :=
  number (Text.writeDigits n)

/-- The items of an array. -/
def items? : Json → Option (List Json)
  | array items => some items
  | _ => none

/-- The value of the only member with a name: `some none` if there is no such member, `none` if
there is more than one. -/
def uniqueMember? (name : String) (members : List (Option String × Json)) : Option (Option Json) :=
  match members.filter fun member => member.1 = some name with
  | [] => some none
  | [member] => some (some member.2)
  | _ => none

/-- The values of a record with the given field names, in their order. A record is an object that
names no field twice, or an array of the values in order, which may end early. Members with other
names are refused, or skipped if `lenient` is set and their names denote texts. -/
def fields? (names : List String) (lenient : Bool) : Json → Option (List (Option Json))
  | object members =>
    if members.all fun member =>
        match member.1 with
        | some name => lenient || names.contains name
        | none => false
    then names.mapM fun name => uniqueMember? name members
    else none
  | array items =>
    if items.length ≤ names.length then
      some (items.map some ++ List.replicate (names.length - items.length) none)
    else none
  | _ => none

/-- The name that a value selects out of a fixed choice: a string, or an object with that name as
its only member and `null` as its value. -/
def choice? : Json → Option String
  | string name => name
  | object [(name, null)] => name
  | _ => none

end Json

end DocTree
