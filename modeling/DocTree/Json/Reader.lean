import DocTree.Json.Token

/-!
# Reading JSON

Strict reading of JSON: one value, blanks around its tokens, nothing else. The reader takes one
token at a time and keeps the arrays and objects that are still open.

## Main definitions

* `Json.Reader` and `Json.Reader.feed`: the reader and what one more token does to it.
* `Json.read?`: the value of a text.
-/

namespace DocTree.Json

/-- The members of an object, each with its name. -/
abbrev Members := List (Option String × Json)

/-- An array or object that is still open; its items or members so far are kept with the last
first. -/
inductive Frame where
  /-- An array. -/
  | array (items : List Json)
  /-- An object, with the name of the member whose value is being read. -/
  | object (members : Members) (key : Option String)
  deriving Repr

/-- What a reader waits for, with the arrays and objects that are still open, innermost first. -/
inductive Reader where
  /-- A value. -/
  | beforeValue (stack : List Frame)
  /-- The first item of an array, or its end. -/
  | itemOrEnd (stack : List Frame)
  /-- The first name of an object, or its end. -/
  | nameOrEnd (stack : List Frame)
  /-- A name of an object. -/
  | beforeName (members : Members) (stack : List Frame)
  /-- The colon after a name. -/
  | beforeColon (members : Members) (key : Option String) (stack : List Frame)
  /-- The comma after an item of an array, or the array's end. -/
  | afterItem (items : List Json) (stack : List Frame)
  /-- The comma after a member of an object, or the object's end. -/
  | afterMember (members : Members) (stack : List Frame)
  /-- Nothing: the value is complete. -/
  | complete (value : Json)
  deriving Repr

namespace Reader

/-- Hands a complete value to the innermost open array or object. -/
def supply (value : Json) : List Frame → Reader
  | [] => .complete value
  | .array items :: stack => .afterItem (value :: items) stack
  | .object members key :: stack => .afterMember ((key, value) :: members) stack

/-- Takes the first token of a value. -/
def feedValue (stack : List Frame) : JsonToken → Option Reader
  | .scalar value => some (supply value stack)
  | .openBracket => some (.itemOrEnd stack)
  | .openBrace => some (.nameOrEnd stack)
  | _ => none

/-- Takes one more token. -/
def feed (reader : Reader) (token : JsonToken) : Option Reader :=
  match reader, token with
  | .beforeValue stack, token => feedValue stack token
  | .itemOrEnd stack, .closeBracket => some (supply (.array []) stack)
  -- An array that does not end at once has a first item; after a comma no end is accepted.
  | .itemOrEnd stack, token => feedValue (.array [] :: stack) token
  | .nameOrEnd stack, .closeBrace => some (supply (.object []) stack)
  | .nameOrEnd stack, .scalar (.string key) => some (.beforeColon [] key stack)
  | .beforeName members stack, .scalar (.string key) => some (.beforeColon members key stack)
  | .beforeColon members key stack, .colon => some (.beforeValue (.object members key :: stack))
  | .afterItem items stack, .comma => some (.beforeValue (.array items :: stack))
  | .afterItem items stack, .closeBracket => some (supply (.array items.reverse) stack)
  | .afterMember members stack, .comma => some (.beforeName members stack)
  | .afterMember members stack, .closeBrace => some (supply (.object members.reverse) stack)
  | _, _ => none

/-- The value of a reader that waits for nothing more. -/
def result? : Reader → Option Json
  | .complete value => some value
  | _ => none

end Reader

/-- The value that a list of tokens writes. -/
def ofTokens? (tokens : List JsonToken) : Option Json := do
  let reader ← tokens.foldlM Reader.feed (.beforeValue [])
  reader.result?

/-- The value that a text writes. -/
def read? (text : List Char) : Option Json := do
  let tokens ← JsonToken.lex? text
  ofTokens? tokens

/-- The value that bytes write: they have to be valid UTF-8. -/
def ofBytes? (bytes : ByteArray) : Option Json := do
  let text ← String.fromUTF8? bytes
  read? text.toList

end DocTree.Json
