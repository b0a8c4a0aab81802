import DocTree.Json.Reader

/-!
# Writing JSON

Writing a value as text. Where lines break and what stands after a colon is left to a layout.

## Main definitions

* `Json.Layout`: the blanks between tokens, with `Json.Layout.compact` and `Json.Layout.indented`.
* `Json.write`: the text of a value.
-/

namespace DocTree.Json

/-- The blanks between the tokens of a text. -/
structure Layout where
  /-- What precedes an item or member, or the end of its array or object, at a nesting depth. -/
  lineBreak : Nat → List Char
  /-- What follows a colon. -/
  afterColon : List Char

namespace Layout

/-- No blanks. -/
def compact : Layout where
  lineBreak _ := []
  afterColon := []

/-- Each item and member on its own line, two spaces deeper than its array or object, and a space
after each colon. -/
def indented : Layout where
  lineBreak depth := '\n' :: List.replicate (2 * depth) ' '
  afterColon := [' ']

end Layout

/-- The hexadecimal digit of a number below sixteen, in lower case. -/
def hexDigit (n : Nat) : Char :=
  Nat.digitChar n

/-- The form of a character inside a string: quotes, backslashes and control characters are
escaped, everything else stands for itself. -/
def escape (c : Char) : List Char :=
  match c with
  | '"' => ['\\', '"']
  | '\\' => ['\\', '\\']
  | '\x08' => ['\\', 'b']
  | '\x0c' => ['\\', 'f']
  | '\n' => ['\\', 'n']
  | '\r' => ['\\', 'r']
  | '\t' => ['\\', 't']
  | c =>
    if c.toNat < 0x20 then
      ['\\', 'u', '0', '0', hexDigit (c.toNat / 16), hexDigit (c.toNat % 16)]
    else [c]

/-- A string literal. One that denotes no text is written as a lone surrogate. -/
def quote : Option String → List Char
  | some text => '"' :: text.toList.flatMap escape ++ ['"']
  | none => ['"', '\\', 'u', 'd', '8', '0', '0', '"']

mutual

/-- The text of a value at a nesting depth. -/
def writeAt (layout : Layout) (depth : Nat) : Json → List Char
  | .null => ['n', 'u', 'l', 'l']
  | .bool true => ['t', 'r', 'u', 'e']
  | .bool false => ['f', 'a', 'l', 's', 'e']
  | .number literal => literal
  | .string value => quote value
  | .array [] => ['[', ']']
  | .array (item :: rest) =>
    '[' :: layout.lineBreak (depth + 1) ++ writeAt layout (depth + 1) item
      ++ writeItems layout depth rest
  | .object [] => ['\x7b', '\x7d']
  | .object ((key, value) :: rest) =>
    '\x7b' :: layout.lineBreak (depth + 1) ++ quote key ++ ':' :: layout.afterColon
      ++ writeAt layout (depth + 1) value ++ writeMembers layout depth rest

/-- The remaining items of an array at a nesting depth, and its end. -/
def writeItems (layout : Layout) (depth : Nat) : List Json → List Char
  | [] => layout.lineBreak depth ++ [']']
  | item :: rest =>
    ',' :: layout.lineBreak (depth + 1) ++ writeAt layout (depth + 1) item
      ++ writeItems layout depth rest

/-- The remaining members of an object at a nesting depth, and its end. -/
def writeMembers (layout : Layout) (depth : Nat) : Members → List Char
  | [] => layout.lineBreak depth ++ ['\x7d']
  | (key, value) :: rest =>
    ',' :: layout.lineBreak (depth + 1) ++ quote key ++ ':' :: layout.afterColon
      ++ writeAt layout (depth + 1) value ++ writeMembers layout depth rest

end

/-- The text of a value. -/
def write (layout : Layout) (value : Json) : List Char :=
  writeAt layout 0 value

/-- The bytes of a value's text. -/
def toBytes (layout : Layout) (value : Json) : ByteArray :=
  (String.ofList (value.write layout)).toUTF8

end DocTree.Json
