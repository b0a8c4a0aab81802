import DocTree.Proofs.Json.Lexing

/-!
# Reading written JSON

A value that was written is read again. The reader takes the tokens of a value one at a time; when
it has taken them all, it has handed this value to the array or object that was open before.

## Main results

* `Json.feed_tokens`: the tokens of a value make a reader hand the value over.
* `Json.read?_write`: a written value is read again, whatever the layout.
* `Json.ofBytes?_toBytes`: the same for its bytes.
-/

namespace DocTree.Json

/-! ### Readers -/

/-- The first token of a value does not end an array, so it makes no difference that one has just
been opened. -/
theorem feed_itemOrEnd (value : Json) (stack : List Frame) (rest : List JsonToken) :
    (value.tokens ++ rest).foldlM Reader.feed (.itemOrEnd stack) =
      (value.tokens ++ rest).foldlM Reader.feed (.beforeValue (.array [] :: stack)) := by
  rcases value with _ | _ | _ | _ | (_ | _) | (_ | ⟨⟨_, _⟩, _⟩) <;> rfl

mutual

/-- The tokens of a value make a reader hand this value to what is open. -/
theorem feed_tokens : ∀ (value : Json) (stack : List Frame) (rest : List JsonToken),
    (value.tokens ++ rest).foldlM Reader.feed (.beforeValue stack) =
      rest.foldlM Reader.feed (Reader.supply value stack)
  | .null, _, _ => rfl
  | .bool _, _, _ => rfl
  | .number _, _, _ => rfl
  | .string _, _, _ => rfl
  | .array [], _, _ => rfl
  | .array (item :: items), stack, rest => by
    have hitem := feed_tokens item (.array [] :: stack) (itemTokens items ++ rest)
    rw [← feed_itemOrEnd] at hitem
    rw [tokens]
    simp only [List.cons_append, List.append_assoc, List.foldlM_cons]
    exact hitem.trans (feed_itemTokens items [item] stack rest)
  | .object [], _, _ => rfl
  | .object ((key, value) :: members), stack, rest => by
    have hvalue := feed_tokens value (.object [] key :: stack) (memberTokens members ++ rest)
    rw [tokens]
    simp only [List.cons_append, List.append_assoc, List.foldlM_cons]
    exact hvalue.trans (feed_memberTokens members [(key, value)] stack rest)

/-- The tokens of further items make a reader hand over the array of all items. -/
theorem feed_itemTokens : ∀ (items done : List Json) (stack : List Frame) (rest : List JsonToken),
    (itemTokens items ++ rest).foldlM Reader.feed (.afterItem done stack) =
      rest.foldlM Reader.feed (Reader.supply (.array (done.reverse ++ items)) stack)
  | [], done, stack, rest => by
    rw [itemTokens, List.append_nil]
    rfl
  | item :: items, done, stack, rest => by
    have hitem := feed_tokens item (.array done :: stack) (itemTokens items ++ rest)
    have hrest := feed_itemTokens items (item :: done) stack rest
    rw [List.reverse_cons, List.append_assoc] at hrest
    rw [itemTokens]
    simp only [List.cons_append, List.append_assoc, List.foldlM_cons]
    exact hitem.trans hrest

/-- The tokens of further members make a reader hand over the object of all members. -/
theorem feed_memberTokens : ∀ (members done : Members) (stack : List Frame)
    (rest : List JsonToken),
    (memberTokens members ++ rest).foldlM Reader.feed (.afterMember done stack) =
      rest.foldlM Reader.feed (Reader.supply (.object (done.reverse ++ members)) stack)
  | [], done, stack, rest => by
    rw [memberTokens, List.append_nil]
    rfl
  | (key, value) :: members, done, stack, rest => by
    have hvalue := feed_tokens value (.object done key :: stack) (memberTokens members ++ rest)
    have hrest := feed_memberTokens members ((key, value) :: done) stack rest
    rw [List.reverse_cons, List.append_assoc] at hrest
    rw [memberTokens]
    simp only [List.cons_append, List.append_assoc, List.foldlM_cons]
    exact hvalue.trans hrest

end

/-- The tokens of a value are read as this value. -/
theorem ofTokens?_tokens (value : Json) : ofTokens? value.tokens = some value := by
  have hread := feed_tokens value [] []
  rw [List.append_nil] at hread
  unfold ofTokens?
  rw [hread]
  rfl

/-! ### Texts and bytes -/

/-- A written value is read again, whatever the layout. -/
theorem read?_write {layout : Layout} (hblank : layout.IsBlank) {value : Json}
    (hproper : value.isProper = true) : read? (value.write layout) = some value := by
  unfold read?
  rw [lex?_write hblank hproper]
  exact ofTokens?_tokens value

/-- The bytes of a text are read as this text. -/
theorem fromUTF8?_toUTF8 (text : String) : String.fromUTF8? text.toUTF8 = some text :=
  dif_pos text.isValidUTF8

/-- The bytes of a written value are read as this value. -/
theorem ofBytes?_toBytes {layout : Layout} (hblank : layout.IsBlank) {value : Json}
    (hproper : value.isProper = true) : ofBytes? (value.toBytes layout) = some value := by
  unfold ofBytes? toBytes
  rw [fromUTF8?_toUTF8]
  show read? (String.ofList (value.write layout)).toList = some value
  rw [String.toList_ofList]
  exact read?_write hblank hproper

end DocTree.Json
