import DocTree.Json.Writer
import Mathlib.Data.List.TakeWhile

/-!
# Cutting up written JSON

Written JSON is cut into the tokens it was made from, whatever blanks its layout puts between them.
A word or a number ends only with the character after it, so what matters about a text that follows
one is that it does not begin with a letter or a character of a number; in written JSON it never
does.

## Main definitions

* `Json.Lexes`: a text is cut into tokens, wherever it begins.
* `Json.Piece.Denotes`: a part of a string literal stands for a character.
* `Json.isProper`: every number of a value is given by the literal of a number.
* `Json.tokens`: the tokens of a value.
* `Json.Layout.IsBlank`: a layout puts nothing but blanks between the tokens.

## Main results

* `Json.Lexes.quote`: a string literal is one token for the text that it was made from.
* `Json.Lexes.writeAt`: a written value is cut into its tokens.
* `Json.lex?_write`: so is a text that consists of nothing else.
-/

namespace DocTree.Json

/-! ### Characters of numbers -/

theorem isNumberChar_of_isDigit {c : Char} (h : c.isDigit = true) : isNumberChar c = true := by
  simp [isNumberChar, h]

/-- A text consists of characters of numbers if what follows its digits does. -/
theorem isNumberChar_of_dropWhile {text : List Char}
    (h : ∀ c ∈ text.dropWhile Char.isDigit, isNumberChar c = true) :
    ∀ c ∈ text, isNumberChar c = true := by
  intro c hc
  rw [← List.takeWhile_append_dropWhile (p := Char.isDigit) (l := text)] at hc
  rcases List.mem_append.1 hc with hc | hc
  · exact isNumberChar_of_isDigit (List.mem_takeWhile_imp hc)
  · exact h c hc

/-- An exponent consists of characters of numbers. -/
theorem isNumberChar_of_isExponent {text : List Char} (h : isExponent text = true) :
    ∀ c ∈ text, isNumberChar c = true := by
  cases text with
  | nil => nofun
  | cons e rest =>
    simp only [isExponent, Bool.and_eq_true, Bool.or_eq_true, beq_iff_eq] at h
    obtain ⟨⟨he, -⟩, hdigits⟩ := h
    have hrest : ∀ c ∈ rest, isNumberChar c = true := by
      split at hdigits
      · exact List.forall_mem_cons.2
          ⟨rfl, fun c hc => isNumberChar_of_isDigit (List.all_eq_true.1 hdigits c hc)⟩
      · exact List.forall_mem_cons.2
          ⟨rfl, fun c hc => isNumberChar_of_isDigit (List.all_eq_true.1 hdigits c hc)⟩
      · exact fun c hc => isNumberChar_of_isDigit (List.all_eq_true.1 hdigits c hc)
    refine List.forall_mem_cons.2 ⟨?_, hrest⟩
    rcases he with rfl | rfl <;> rfl

/-- What follows the integer part of a number consists of characters of numbers. -/
theorem isNumberChar_of_isNumberTail {text : List Char} (h : isNumberTail text = true) :
    ∀ c ∈ text, isNumberChar c = true := by
  unfold isNumberTail at h
  split at h
  · rw [Bool.and_eq_true] at h
    exact List.forall_mem_cons.2
      ⟨rfl, isNumberChar_of_dropWhile (isNumberChar_of_isExponent h.2)⟩
  · exact isNumberChar_of_isExponent h

/-- An unsigned number begins with a digit and consists of characters of numbers. -/
theorem exists_digit_of_unsigned {text : List Char}
    (h : (isIntegerPart (text.takeWhile Char.isDigit) &&
      isNumberTail (text.dropWhile Char.isDigit)) = true) :
    ∃ c rest, text = c :: rest ∧ c.isDigit = true ∧ ∀ c ∈ rest, isNumberChar c = true := by
  rw [Bool.and_eq_true] at h
  obtain ⟨hinteger, htail⟩ := h
  cases text with
  | nil => cases hinteger
  | cons c rest =>
    have hall := isNumberChar_of_dropWhile (isNumberChar_of_isNumberTail htail)
    refine ⟨c, rest, rfl, ?_, (List.forall_mem_cons.1 hall).2⟩
    by_contra hdigit
    rw [List.takeWhile_cons_of_neg hdigit] at hinteger
    cases hinteger

/-- A number begins with a sign or a digit and consists of characters of numbers. -/
theorem exists_cons_of_isNumber {literal : List Char} (h : isNumber literal = true) :
    ∃ c rest, literal = c :: rest ∧ (c == '-' || c.isDigit) = true ∧
      ∀ c ∈ rest, isNumberChar c = true := by
  unfold isNumber at h
  dsimp only at h
  split at h
  next unsigned =>
    obtain ⟨c, rest, rfl, hdigit, hrest⟩ := exists_digit_of_unsigned h
    exact ⟨'-', c :: rest, rfl, rfl,
      List.forall_mem_cons.2 ⟨isNumberChar_of_isDigit hdigit, hrest⟩⟩
  next =>
    obtain ⟨c, rest, rfl, hdigit, hrest⟩ := exists_digit_of_unsigned h
    exact ⟨c, rest, rfl, by rw [hdigit, Bool.or_true], hrest⟩

/-! ### Texts that are cut into tokens -/

/-- The characters that may stand between tokens. -/
def blankChars : List Char :=
  [' ', '\n', '\t', '\r']

/-- A text is cut into tokens, wherever it begins. -/
def Lexes (text : List Char) (tokens : List JsonToken) : Prop :=
  ∀ done, (text.foldlM Lexer.feed ⟨done, .nothing⟩).bind Lexer.settle =
    some (tokens.reverse ++ done)

/-- A text does not begin with a character that could continue a word or a number. -/
def IsApart (text : List Char) : Prop :=
  ∀ c ∈ text.head?, c.isLower = false ∧ isNumberChar c = false

theorem isApart_nil : IsApart [] := by
  rintro _ ⟨⟩

theorem isApart_cons {c : Char} (hlower : c.isLower = false) (hnumber : isNumberChar c = false)
    (text : List Char) : IsApart (c :: text) := by
  rintro _ ⟨⟩
  exact ⟨hlower, hnumber⟩

namespace Lexes

variable {text : List Char} {tokens : List JsonToken}

theorem nil : Lexes [] [] :=
  fun _ => rfl

/-- A text that is cut into tokens consists of these tokens. -/
theorem lex?_eq (h : Lexes text tokens) : JsonToken.lex? text = some tokens := by
  obtain ⟨lexer, hlexer, hsettle⟩ := Option.bind_eq_some_iff.1 (h [])
  unfold JsonToken.lex? Lexer.initial
  rw [hlexer]
  dsimp only [Option.bind_eq_bind, Option.bind_some]
  rw [hsettle, List.append_nil]
  exact congrArg some tokens.reverse_reverse

/-- A character that is a token by itself. -/
theorem cons {c : Char} {token : JsonToken}
    (hstart : ∀ done, Lexer.start done c = some (Lexer.emit done token)) (h : Lexes text tokens) :
    Lexes (c :: text) (token :: tokens) := by
  intro done
  have hrest := h (token :: done)
  rw [List.foldlM_cons, show Lexer.feed ⟨done, .nothing⟩ c = Lexer.start done c from rfl, hstart,
    List.reverse_cons, List.append_assoc]
  exact hrest

/-- Blanks are no tokens. -/
theorem blanks {spaces : List Char} (hspaces : ∀ c ∈ spaces, c ∈ blankChars)
    (h : Lexes text tokens) : Lexes (spaces ++ text) tokens := by
  induction spaces with
  | nil => exact h
  | cons c spaces ih =>
    have hrest := ih (List.forall_mem_cons.1 hspaces).2
    intro done
    have hstart : Lexer.feed ⟨done, .nothing⟩ c = some ⟨done, .nothing⟩ := by
      have hc := (List.forall_mem_cons.1 hspaces).1
      simp only [blankChars, List.mem_cons, List.not_mem_nil, or_false] at hc
      rcases hc with rfl | rfl | rfl | rfl <;> rfl
    rw [List.cons_append, List.foldlM_cons, hstart]
    exact hrest done

/-- A word or a number that is complete, and a text apart from it. -/
theorem append {literal : List Char} {token : JsonToken}
    (hliteral : ∀ done, ∃ lexer, literal.foldlM Lexer.feed ⟨done, .nothing⟩ = some lexer ∧
      lexer.settle = some (token :: done))
    (hapart : IsApart text) (h : Lexes text tokens) :
    Lexes (literal ++ text) (token :: tokens) := by
  intro done
  obtain ⟨lexer, hlexer, hsettle⟩ := hliteral done
  rw [List.foldlM_append, hlexer, List.reverse_cons, List.append_assoc]
  refine Eq.trans ?_ (h (token :: done))
  show (text.foldlM Lexer.feed lexer).bind Lexer.settle = _
  cases text with
  | nil => exact hsettle
  | cons c rest =>
    obtain ⟨hlower, hnumber⟩ := hapart c rfl
    -- The next character ends the word or the number and starts a token of its own.
    have hfeed : lexer.feed c = Lexer.feed ⟨token :: done, .nothing⟩ c := by
      obtain ⟨complete, pending⟩ := lexer
      cases pending with
      | nothing =>
        obtain rfl : complete = token :: done := Option.some.inj hsettle
        rfl
      | word letters =>
        rw [Lexer.feed, hlower, hsettle]
        rfl
      | number chars =>
        rw [Lexer.feed, hnumber, hsettle]
        rfl
      | string pieces escape => cases hsettle
    rw [List.foldlM_cons, List.foldlM_cons, hfeed]

end Lexes

/-! ### String literals -/

/-- A part of a string literal stands for a character, whatever follows it. -/
def Piece.Denotes (piece : Piece) (c : Char) : Prop :=
  ∀ rest, joinPieces (piece :: rest) = (joinPieces rest).map (c :: ·)

theorem Piece.denotes_char (c : Char) : (Piece.char c).Denotes c :=
  fun _ => rfl

/-- A code unit that is half of no surrogate pair stands for a character of its own. -/
theorem Piece.denotes_unit {code : Nat} (h : code < 0xD800) :
    (Piece.unit code).Denotes (Char.ofNat code) := by
  have hhigh : isHighSurrogate code = false := by
    simp only [isHighSurrogate, Bool.and_eq_false_iff, decide_eq_false_iff_not]
    omega
  have hlow : isLowSurrogate code = false := by
    simp only [isLowSurrogate, Bool.and_eq_false_iff, decide_eq_false_iff_not]
    omega
  intro rest
  rcases rest with _ | ⟨_ | low, rest⟩
  all_goals simp [joinPieces, hhigh, hlow]

/-- The value of a hexadecimal digit that was written. -/
theorem hexValue?_hexDigit {n : Nat} (h : n < 16) : hexValue? (hexDigit n) = some n := by
  have hall : ∀ n < 16, hexValue? (hexDigit n) = some n := by decide
  exact hall n h

/-- The written form of a character inside a string is one part of a literal, which stands for this
character. -/
theorem exists_piece_escape (c : Char) :
    ∃ piece : Piece, piece.Denotes c ∧ ∀ done pieces,
      (escape c).foldlM Lexer.feed ⟨done, .string pieces .outside⟩ =
        some ⟨done, .string (piece :: pieces) .outside⟩ := by
  unfold escape
  split
  -- Seven characters have an escape with a letter.
  iterate 7 exact ⟨.char _, Piece.denotes_char _, fun _ _ => rfl⟩
  next hquote hbackslash _ _ _ _ _ =>
    split
    next hcontrol =>
      have hdenotes : (Piece.unit c.toNat).Denotes (Char.ofNat c.toNat) :=
        Piece.denotes_unit (by omega)
      rw [Char.ofNat_toNat] at hdenotes
      have hhigh := hexValue?_hexDigit (show c.toNat / 16 < 16 by omega)
      have hlow := hexValue?_hexDigit (show c.toNat % 16 < 16 by omega)
      have hzero : hexValue? '0' = some 0 := rfl
      have hvalue : ((0 * 16 + 0) * 16 + c.toNat / 16) * 16 + c.toNat % 16 = c.toNat := by omega
      refine ⟨.unit c.toNat, hdenotes, fun done pieces => ?_⟩
      simp only [List.foldlM_cons, Lexer.feed, Lexer.feedString, hzero, hhigh, hlow]
      show some (Lexer.mk done (.string (.unit (((0 * 16 + 0) * 16 + c.toNat / 16) * 16 +
        c.toNat % 16) :: pieces) .outside)) = _
      rw [hvalue]
    next hplain =>
      refine ⟨.char c, Piece.denotes_char c, fun done pieces => ?_⟩
      have hfeed : Lexer.feedString done pieces .outside c =
          some ⟨done, .string (.char c :: pieces) .outside⟩ := by
        unfold Lexer.feedString
        dsimp only
        rw [if_neg hquote, if_neg hbackslash, if_neg hplain]
      show (Lexer.feedString done pieces .outside c).bind pure = _
      rw [hfeed]
      rfl

/-- The written form of a text inside a string consists of parts of a literal that denote this
text. -/
theorem exists_pieces_escape (text : List Char) :
    ∃ pieces, joinPieces pieces = some text ∧ ∀ done before,
      (text.flatMap escape).foldlM Lexer.feed ⟨done, .string before .outside⟩ =
        some ⟨done, .string (pieces.reverse ++ before) .outside⟩ := by
  induction text with
  | nil => exact ⟨[], rfl, fun _ _ => rfl⟩
  | cons c text ih =>
    obtain ⟨piece, hdenotes, hpiece⟩ := exists_piece_escape c
    obtain ⟨pieces, hjoin, hpieces⟩ := ih
    refine ⟨piece :: pieces, ?_, fun done before => ?_⟩
    · rw [hdenotes, hjoin]
      rfl
    · rw [List.flatMap_cons, List.foldlM_append, hpiece]
      show (text.flatMap escape).foldlM Lexer.feed ⟨done, .string (piece :: before) .outside⟩ = _
      rw [hpieces, List.reverse_cons, List.append_assoc]
      rfl

/-- A string literal is one token, for the text that it was made from. -/
theorem Lexes.quote {text : List Char} {tokens : List JsonToken} (h : Lexes text tokens)
    (value : Option String) :
    Lexes (Json.quote value ++ text) (.scalar (.string value) :: tokens) := by
  intro done
  have hrest := h (.scalar (.string value) :: done)
  rw [List.reverse_cons, List.append_assoc]
  refine Eq.trans ?_ hrest
  cases value with
  | none => rfl
  | some written =>
    obtain ⟨pieces, hjoin, hpieces⟩ := exists_pieces_escape written.toList
    have hclosed : Lexer.feed ⟨done, .string pieces.reverse .outside⟩ '"' =
        some (Lexer.emit done (.scalar (.string (some written)))) := by
      show some (Lexer.emit done (.scalar (.string
        ((joinPieces pieces.reverse.reverse).map String.ofList)))) = _
      rw [List.reverse_reverse, hjoin, Option.map_some, String.ofList_toList]
    rw [show Json.quote (some written) ++ text =
        '"' :: (written.toList.flatMap escape ++ '"' :: text) by simp [Json.quote],
      List.foldlM_cons]
    show ((written.toList.flatMap escape ++ '"' :: text).foldlM Lexer.feed
      ⟨done, .string [] .outside⟩).bind Lexer.settle = _
    rw [List.foldlM_append, hpieces, List.append_nil]
    show (('"' :: text).foldlM Lexer.feed
      ⟨done, .string pieces.reverse .outside⟩).bind Lexer.settle = _
    rw [List.foldlM_cons, hclosed]
    rfl

/-! ### Values -/

mutual

/-- Whether every number of a value is given by the literal of a number. -/
def isProper : Json → Bool
  | .number literal => isNumber literal
  | .array items => areProper items
  | .object members => areProperMembers members
  | _ => true

/-- Whether this holds of every item of an array. -/
def areProper : List Json → Bool
  | [] => true
  | item :: rest => isProper item && areProper rest

/-- Whether this holds of the value of every member of an object. -/
def areProperMembers : Members → Bool
  | [] => true
  | (_, value) :: rest => isProper value && areProperMembers rest

end

mutual

/-- The tokens of a value. -/
def tokens : Json → List JsonToken
  | .array [] => [.openBracket, .closeBracket]
  | .array (item :: rest) => .openBracket :: tokens item ++ itemTokens rest
  | .object [] => [.openBrace, .closeBrace]
  | .object ((key, value) :: rest) =>
    .openBrace :: .scalar (.string key) :: .colon :: tokens value ++ memberTokens rest
  | value => [.scalar value]

/-- The tokens of the remaining items of an array, and of its end. -/
def itemTokens : List Json → List JsonToken
  | [] => [.closeBracket]
  | item :: rest => .comma :: tokens item ++ itemTokens rest

/-- The tokens of the remaining members of an object, and of its end. -/
def memberTokens : Members → List JsonToken
  | [] => [.closeBrace]
  | (key, value) :: rest =>
    .comma :: .scalar (.string key) :: .colon :: tokens value ++ memberTokens rest

end

/-- A layout puts nothing but blanks between the tokens. -/
structure Layout.IsBlank (layout : Layout) : Prop where
  /-- Lines are broken by blanks. -/
  lineBreak : ∀ depth, ∀ c ∈ layout.lineBreak depth, c ∈ blankChars
  /-- Blanks follow a colon. -/
  afterColon : ∀ c ∈ layout.afterColon, c ∈ blankChars

/-- Without blanks there is nothing but blanks. -/
theorem Layout.isBlank_compact : compact.IsBlank :=
  ⟨nofun, nofun⟩

theorem Layout.isBlank_indented : indented.IsBlank where
  lineBreak depth := by
    refine List.forall_mem_cons.2 ⟨by simp [blankChars], fun c hc => ?_⟩
    rw [(List.mem_replicate.1 hc).2]
    exact List.mem_cons_self
  afterColon := List.forall_mem_singleton.2 List.mem_cons_self

/-- Blanks continue neither a word nor a number. -/
theorem IsApart.blanks {spaces text : List Char}
    (hspaces : ∀ c ∈ spaces, c ∈ blankChars) (h : IsApart text) :
    IsApart (spaces ++ text) := by
  cases spaces with
  | nil => exact h
  | cons c spaces =>
    have hc := (List.forall_mem_cons.1 hspaces).1
    simp only [blankChars, List.mem_cons, List.not_mem_nil, or_false] at hc
    rcases hc with rfl | rfl | rfl | rfl <;> exact isApart_cons rfl rfl _

section

variable {layout : Layout} {depth : Nat}

/-- What follows an item of an array is apart from it. -/
theorem isApart_writeItems (hblank : layout.IsBlank) (items : List Json) (text : List Char) :
    IsApart (writeItems layout depth items ++ text) := by
  cases items with
  | nil =>
    rw [writeItems, List.append_assoc]
    exact .blanks (hblank.lineBreak depth) (isApart_cons rfl rfl text)
  | cons item rest =>
    rw [writeItems]
    exact isApart_cons rfl rfl _

/-- What follows a member of an object is apart from it. -/
theorem isApart_writeMembers (hblank : layout.IsBlank) (members : Members) (text : List Char) :
    IsApart (writeMembers layout depth members ++ text) := by
  cases members with
  | nil =>
    rw [writeMembers, List.append_assoc]
    exact .blanks (hblank.lineBreak depth) (isApart_cons rfl rfl text)
  | cons member rest =>
    rw [writeMembers]
    exact isApart_cons rfl rfl _

end

/-- A sign or a digit starts a number. -/
theorem start_of_number {c : Char} (h : (c == '-' || c.isDigit) = true) (done : List JsonToken) :
    Lexer.start done c = some ⟨done, .number [c]⟩ := by
  unfold Lexer.start
  split
  -- None of the other characters that start a token is a sign or a digit.
  iterate 11 cases h
  rw [if_pos h]

theorem foldlM_feed_number {rest : List Char} (h : ∀ c ∈ rest, isNumberChar c = true)
    (done : List JsonToken) (before : List Char) :
    rest.foldlM Lexer.feed ⟨done, .number before⟩ =
      some ⟨done, .number (rest.reverse ++ before)⟩ := by
  induction rest generalizing before with
  | nil => rfl
  | cons c rest ih =>
    obtain ⟨hc, hrest⟩ := List.forall_mem_cons.1 h
    have hfeed : Lexer.feed ⟨done, .number before⟩ c = some ⟨done, .number (c :: before)⟩ :=
      if_pos hc
    rw [List.foldlM_cons, hfeed, List.reverse_cons, List.append_assoc]
    exact ih hrest (c :: before)

/-- The literal of a number is one token. -/
theorem Lexes.number {literal text : List Char} {tokens : List JsonToken}
    (hnumber : isNumber literal = true) (hapart : IsApart text) (h : Lexes text tokens) :
    Lexes (literal ++ text) (.scalar (.number literal) :: tokens) := by
  refine append (fun done => ?_) hapart h
  obtain ⟨c, rest, rfl, hstart, hrest⟩ := exists_cons_of_isNumber hnumber
  refine ⟨⟨done, .number (rest.reverse ++ [c])⟩, ?_, ?_⟩
  · rw [List.foldlM_cons]
    show (Lexer.start done c).bind _ = _
    rw [start_of_number hstart]
    exact foldlM_feed_number hrest done [c]
  · rw [← List.reverse_cons]
    unfold Lexer.settle
    dsimp only
    rw [List.reverse_reverse, if_pos hnumber]

/-- A name and a colon in front of a value. -/
theorem Lexes.named {layout : Layout} (hblank : layout.IsBlank) {text : List Char}
    {tokens : List JsonToken} (h : Lexes text tokens) (key : Option String) :
    Lexes (Json.quote key ++ ':' :: (layout.afterColon ++ text))
      (.scalar (.string key) :: .colon :: tokens) := by
  have hcolon : Lexes (':' :: (layout.afterColon ++ text)) (.colon :: tokens) :=
    .cons (fun _ => rfl) (h.blanks hblank.afterColon)
  exact hcolon.quote key

mutual

/-- A written value is cut into its tokens. -/
theorem Lexes.writeAt {layout : Layout} (hblank : layout.IsBlank) :
    ∀ (value : Json) (depth : Nat) {text : List Char} {tokens : List JsonToken},
      value.isProper = true → IsApart text → Lexes text tokens →
      Lexes (Json.writeAt layout depth value ++ text) (value.tokens ++ tokens)
  | .null, _, _, _, _, hapart, h => .append (fun _ => ⟨_, rfl, rfl⟩) hapart h
  | .bool true, _, _, _, _, hapart, h => .append (fun _ => ⟨_, rfl, rfl⟩) hapart h
  | .bool false, _, _, _, _, hapart, h => .append (fun _ => ⟨_, rfl, rfl⟩) hapart h
  | .number literal, _, _, _, hproper, hapart, h => by
    rw [isProper] at hproper
    exact .number hproper hapart h
  | .string value, _, _, _, _, _, h => h.quote value
  | .array [], _, _, _, _, _, h => .cons (fun _ => rfl) (.cons (fun _ => rfl) h)
  | .array (item :: rest), depth, text, tokens, hproper, _, h => by
    rw [isProper, areProper, Bool.and_eq_true] at hproper
    have hrest := Lexes.writeItems hblank rest depth hproper.2 h
    have hitem := Lexes.writeAt hblank item (depth + 1) hproper.1
      (isApart_writeItems hblank rest text) hrest
    rw [Json.writeAt, Json.tokens]
    simp only [List.cons_append, List.append_assoc]
    exact .cons (fun _ => rfl) (hitem.blanks (hblank.lineBreak _))
  | .object [], _, _, _, _, _, h => .cons (fun _ => rfl) (.cons (fun _ => rfl) h)
  | .object ((key, value) :: rest), depth, text, tokens, hproper, _, h => by
    rw [isProper, areProperMembers, Bool.and_eq_true] at hproper
    have hrest := Lexes.writeMembers hblank rest depth hproper.2 h
    have hvalue := Lexes.writeAt hblank value (depth + 1) hproper.1
      (isApart_writeMembers hblank rest text) hrest
    rw [Json.writeAt, Json.tokens]
    simp only [List.cons_append, List.append_assoc]
    exact .cons (fun _ => rfl) ((hvalue.named hblank key).blanks (hblank.lineBreak _))

/-- The written items of an array are cut into their tokens. -/
theorem Lexes.writeItems {layout : Layout} (hblank : layout.IsBlank) :
    ∀ (items : List Json) (depth : Nat) {text : List Char} {tokens : List JsonToken},
      areProper items = true → Lexes text tokens →
      Lexes (Json.writeItems layout depth items ++ text) (itemTokens items ++ tokens)
  | [], depth, _, _, _, h => by
    rw [Json.writeItems, itemTokens, List.append_assoc]
    exact .blanks (hblank.lineBreak depth) (.cons (fun _ => rfl) h)
  | item :: rest, depth, text, tokens, hproper, h => by
    rw [areProper, Bool.and_eq_true] at hproper
    have hrest := Lexes.writeItems hblank rest depth hproper.2 h
    have hitem := Lexes.writeAt hblank item (depth + 1) hproper.1
      (isApart_writeItems hblank rest text) hrest
    rw [Json.writeItems, itemTokens]
    simp only [List.cons_append, List.append_assoc]
    exact .cons (fun _ => rfl) (hitem.blanks (hblank.lineBreak _))

/-- The written members of an object are cut into their tokens. -/
theorem Lexes.writeMembers {layout : Layout} (hblank : layout.IsBlank) :
    ∀ (members : Members) (depth : Nat) {text : List Char} {tokens : List JsonToken},
      areProperMembers members = true → Lexes text tokens →
      Lexes (Json.writeMembers layout depth members ++ text) (memberTokens members ++ tokens)
  | [], depth, _, _, _, h => by
    rw [Json.writeMembers, memberTokens, List.append_assoc]
    exact .blanks (hblank.lineBreak depth) (.cons (fun _ => rfl) h)
  | (key, value) :: rest, depth, text, tokens, hproper, h => by
    rw [areProperMembers, Bool.and_eq_true] at hproper
    have hrest := Lexes.writeMembers hblank rest depth hproper.2 h
    have hvalue := Lexes.writeAt hblank value (depth + 1) hproper.1
      (isApart_writeMembers hblank rest text) hrest
    rw [Json.writeMembers, memberTokens]
    simp only [List.cons_append, List.append_assoc]
    exact .cons (fun _ => rfl) ((hvalue.named hblank key).blanks (hblank.lineBreak _))

end

/-- A text that consists of a written value is cut into the tokens of this value. -/
theorem lex?_write {layout : Layout} (hblank : layout.IsBlank) {value : Json}
    (hproper : value.isProper = true) :
    JsonToken.lex? (value.write layout) = some value.tokens := by
  have hwritten := Lexes.writeAt hblank value 0 hproper isApart_nil .nil
  rw [List.append_nil, List.append_nil] at hwritten
  exact hwritten.lex?_eq

end DocTree.Json
