import DocTree.Json.Basic

/-!
# JSON tokens

Cutting a text into JSON tokens, one character at a time.

## Main definitions

* `JsonToken`: brackets, separators and scalar literals.
* `Lexer.feed`: what one more character does to a lexer.
* `JsonToken.lex?`: the tokens of a text, or nothing if it holds anything else.
-/

namespace DocTree

/-- A token of a JSON text. -/
inductive JsonToken where
  /-- The start of an object. -/
  | openBrace
  /-- The end of an object. -/
  | closeBrace
  /-- The start of an array. -/
  | openBracket
  /-- The end of an array. -/
  | closeBracket
  /-- What stands between a name and its value. -/
  | colon
  /-- What stands between two items or members. -/
  | comma
  /-- A literal that is a value by itself. -/
  | scalar (value : Json)
  deriving Repr

namespace Json

/-! ### Numbers -/

/-- Whether a text is empty or an exponent: `e` or `E`, a sign if wanted, and digits. -/
def isExponent : List Char → Bool
  | [] => true
  | c :: rest =>
    let digits := match rest with
      | '+' :: digits => digits
      | '-' :: digits => digits
      | digits => digits
    (c == 'e' || c == 'E') && !digits.isEmpty && digits.all Char.isDigit

/-- Whether a text is what may follow the integer part of a number. -/
def isNumberTail : List Char → Bool
  | '.' :: rest =>
    !(rest.takeWhile Char.isDigit).isEmpty && isExponent (rest.dropWhile Char.isDigit)
  | text => isExponent text

/-- Whether a run of digits is an integer part: not empty, and without leading zeros. -/
def isIntegerPart : List Char → Bool
  | [] => false
  | ['0'] => true
  | c :: _ => c != '0'

/-- Whether a text is a JSON number. -/
def isNumber (text : List Char) : Bool :=
  let unsigned := match text with
    | '-' :: rest => rest
    | rest => rest
  isIntegerPart (unsigned.takeWhile Char.isDigit) && isNumberTail (unsigned.dropWhile Char.isDigit)

/-- Whether a character can stand inside a number. -/
def isNumberChar (c : Char) : Bool :=
  c.isDigit || c == '-' || c == '+' || c == '.' || c == 'e' || c == 'E'

/-! ### Strings -/

/-- A part of a string literal. -/
inductive Piece where
  /-- A character that stands for itself or that a short escape names. -/
  | char (c : Char)
  /-- A 16-bit code unit given by four hexadecimal digits. -/
  | unit (code : Nat)
  deriving DecidableEq, Repr

/-- Whether a code unit is the first half of a surrogate pair. -/
def isHighSurrogate (code : Nat) : Bool :=
  0xD800 ≤ code && code < 0xDC00

/-- Whether a code unit is the second half of a surrogate pair. -/
def isLowSurrogate (code : Nat) : Bool :=
  0xDC00 ≤ code && code < 0xE000

/-- The text that the parts of a literal denote. A surrogate has to stand directly beside its
partner. -/
def joinPieces : List Piece → Option (List Char)
  | [] => some []
  | .char c :: rest => (joinPieces rest).map (c :: ·)
  | .unit high :: .unit low :: rest =>
    if isHighSurrogate high then
      if isLowSurrogate low then
        (joinPieces rest).map
          (Char.ofNat (0x10000 + (high - 0xD800) * 0x400 + (low - 0xDC00)) :: ·)
      else none
    -- Two units that are no pair: the first has to stand for a character of its own.
    else if isLowSurrogate high then none
    else (joinPieces (.unit low :: rest)).map (Char.ofNat high :: ·)
  | .unit code :: rest =>
    if isHighSurrogate code || isLowSurrogate code then none
    else (joinPieces rest).map (Char.ofNat code :: ·)

/-- The character that a backslash and one letter stand for. -/
def shortEscape? : Char → Option Char
  | '"' => some '"'
  | '\\' => some '\\'
  | '/' => some '/'
  | 'b' => some '\x08'
  | 'f' => some '\x0c'
  | 'n' => some '\n'
  | 'r' => some '\r'
  | 't' => some '\t'
  | _ => none

/-- The value of a hexadecimal digit of either case. -/
def hexValue? (c : Char) : Option Nat :=
  if c.isDigit then some (c.toNat - '0'.toNat)
  else if 'a' ≤ c && c ≤ 'f' then some (c.toNat - 'a'.toNat + 10)
  else if 'A' ≤ c && c ≤ 'F' then some (c.toNat - 'A'.toNat + 10)
  else none

/-! ### The lexer -/

/-- Where in an escape a lexer stands. -/
inductive Escape where
  /-- In no escape. -/
  | outside
  /-- After the backslash. -/
  | started
  /-- Among the four digits of a code unit: how many were read, and their value. -/
  | unit (count value : Nat)
  deriving DecidableEq, Repr

/-- The token that a lexer is in the middle of; what it has of it is kept with the last first. -/
inductive Pending where
  /-- No token. -/
  | nothing
  /-- One of the words `null`, `true` and `false`. -/
  | word (letters : List Char)
  /-- A number. -/
  | number (chars : List Char)
  /-- A string. -/
  | string (pieces : List Piece) (escape : Escape)
  deriving DecidableEq, Repr

/-- A lexer: the complete tokens, the last first, and the one in the middle. -/
structure Lexer where
  /-- The complete tokens, the last first. -/
  tokens : List JsonToken
  /-- The token in the middle. -/
  pending : Pending
  deriving Repr

namespace Lexer

/-- The lexer at the start of a text. -/
def initial : Lexer :=
  ⟨[], .nothing⟩

/-- Adds a complete token. -/
def emit (tokens : List JsonToken) (token : JsonToken) : Lexer :=
  ⟨token :: tokens, .nothing⟩

/-- The value of a word. -/
def wordValue? (word : List Char) : Option Json :=
  if word = ['n', 'u', 'l', 'l'] then some .null
  else if word = ['t', 'r', 'u', 'e'] then some (.bool true)
  else if word = ['f', 'a', 'l', 's', 'e'] then some (.bool false)
  else none

/-- Completes a word or number at its end; a string does not end without its closing quote. -/
def settle (lexer : Lexer) : Option (List JsonToken) :=
  match lexer.pending with
  | .nothing => some lexer.tokens
  | .word letters => (wordValue? letters.reverse).map fun value => .scalar value :: lexer.tokens
  | .number chars =>
    if isNumber chars.reverse then some (.scalar (.number chars.reverse) :: lexer.tokens) else none
  | .string _ _ => none

/-- Takes the first character of a token, or a blank. -/
def start (tokens : List JsonToken) (c : Char) : Option Lexer :=
  match c with
  | ' ' | '\n' | '\t' | '\r' => some ⟨tokens, .nothing⟩
  | '\x7b' => some (emit tokens .openBrace)
  | '\x7d' => some (emit tokens .closeBrace)
  | '[' => some (emit tokens .openBracket)
  | ']' => some (emit tokens .closeBracket)
  | ':' => some (emit tokens .colon)
  | ',' => some (emit tokens .comma)
  | '"' => some ⟨tokens, .string [] .outside⟩
  | c =>
    if c == '-' || c.isDigit then some ⟨tokens, .number [c]⟩
    else if c.isLower then some ⟨tokens, .word [c]⟩
    else none

/-- Takes a character of a string. -/
def feedString (tokens : List JsonToken) (pieces : List Piece) (escape : Escape) (c : Char) :
    Option Lexer :=
  match escape with
  | .outside =>
    if c = '"' then
      some (emit tokens (.scalar (.string ((joinPieces pieces.reverse).map String.ofList))))
    else if c = '\\' then some ⟨tokens, .string pieces .started⟩
    else if c.toNat < 0x20 then none
    else some ⟨tokens, .string (.char c :: pieces) .outside⟩
  | .started =>
    if c = 'u' then some ⟨tokens, .string pieces (.unit 0 0)⟩
    else (shortEscape? c).map fun e => ⟨tokens, .string (.char e :: pieces) .outside⟩
  | .unit count value =>
    (hexValue? c).map fun digit =>
      if count = 3 then ⟨tokens, .string (.unit (value * 16 + digit) :: pieces) .outside⟩
      else ⟨tokens, .string pieces (.unit (count + 1) (value * 16 + digit))⟩

/-- Takes one more character. -/
def feed (lexer : Lexer) (c : Char) : Option Lexer :=
  match lexer.pending with
  | .nothing => start lexer.tokens c
  | .word letters =>
    if c.isLower then some ⟨lexer.tokens, .word (c :: letters)⟩
    -- The character that ends a word starts the next token.
    else lexer.settle.bind (start · c)
  | .number chars =>
    if isNumberChar c then some ⟨lexer.tokens, .number (c :: chars)⟩
    else lexer.settle.bind (start · c)
  | .string pieces escape => feedString lexer.tokens pieces escape c

end Lexer

end Json

/-- The tokens of a text. -/
def JsonToken.lex? (text : List Char) : Option (List JsonToken) := do
  let lexer ← text.foldlM Json.Lexer.feed Json.Lexer.initial
  let tokens ← lexer.settle
  return tokens.reverse

end DocTree
