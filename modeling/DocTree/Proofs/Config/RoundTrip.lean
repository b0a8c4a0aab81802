import DocTree.Config.Document
import DocTree.Proofs.Json.Reading

/-!
# Writing configuration documents and reading them again

A configuration document that was written is read again, with all its rules, declarations and
parameters in order, whatever the texts in it are. Writing what was read therefore loses nothing: a
document keeps its meaning when it is laid out anew, up to the problems that its declarations have.

## Main results

* `IndexRule.ofJson?_toJson`, `Parameter.ofJson?_toJson`, `TriggerDeclaration.ofJson?_toJson` and
  `ConfigDocument.ofJson?_toJson`: every record is read as what it was written for.
* `ConfigDocument.parse_toBytes`: a document that was written is read again.
* `ConfigDocument.parse_rewritten`: writing what was read changes neither the document nor the
  bindings that it declares.
-/

namespace DocTree

/-! ### Lists of records -/

section

variable {α : Type}

/-- The items of an array are read if each of them is. -/
theorem itemsOrNone?_map {toJson : α → Json} {ofJson? : Json → Option α}
    (h : ∀ item, ofJson? (toJson item) = some item) (items : List α) :
    itemsOrNone? ofJson? (some (.array (items.map toJson))) = some items := by
  show (items.map toJson).mapM ofJson? = some items
  induction items with
  | nil => rfl
  | cons item items ih =>
    rw [List.map_cons, List.mapM_cons, h, ih]
    rfl

/-- An array has proper numbers if each of its items has. -/
theorem Json.areProper_map (toJson : α → Json) (h : ∀ item, (toJson item).isProper = true)
    (items : List α) : Json.areProper (items.map toJson) = true := by
  induction items with
  | nil => rfl
  | cons item items ih => rw [List.map_cons, areProper, h, ih, Bool.and_self]

end

/-! ### Records -/

theorem IndexKind.ofName?_name (kind : IndexKind) : ofName? kind.name = some kind := by
  cases kind <;> rfl

/-- A rule is read as what it was written for. -/
theorem IndexRule.ofJson?_toJson (rule : IndexRule) : ofJson? rule.toJson = some rule := by
  have hfields : rule.toJson.fields? ["path", "kind"] false =
      some [some (.ofText rule.path), some (.ofText rule.kind.name)] := rfl
  unfold ofJson?
  rw [hfields]
  show (IndexKind.ofName? rule.kind.name).bind _ = some rule
  rw [IndexKind.ofName?_name]
  rfl

/-- A parameter is read as what it was written for. -/
theorem Parameter.ofJson?_toJson (parameter : Parameter) :
    ofJson? parameter.toJson = some parameter := by
  have hfields : parameter.toJson.fields? ["name", "value"] false =
      some [some (.ofText parameter.name), some (.ofText parameter.value)] := rfl
  unfold ofJson?
  rw [hfields]
  rfl

/-- A declaration is read as what it was written for, with or without a class. -/
theorem TriggerDeclaration.ofJson?_toJson (declaration : TriggerDeclaration) :
    ofJson? declaration.toJson = some declaration := by
  obtain ⟨className, parameters⟩ := declaration
  have hfields : (toJson ⟨className, parameters⟩).fields? ["class", "parameters"] false =
      some [className.map .ofText, some (.array (parameters.map Parameter.toJson))] := by
    cases className <;> rfl
  have hclass : classOfJson? (className.map .ofText) = some className := by
    cases className <;> rfl
  have hparameters := itemsOrNone?_map Parameter.ofJson?_toJson parameters
  unfold ofJson?
  rw [hfields]
  simp only [Option.bind_eq_bind, Option.bind_some, hclass, hparameters]
  rfl

namespace ConfigDocument

/-- A document is read as what it was written for. -/
theorem ofJson?_toJson (document : ConfigDocument) : ofJson? document.toJson = some document := by
  have hfields : document.toJson.fields? ["index", "triggers"] false =
      some [some (.array (document.index.map IndexRule.toJson)),
        some (.array (document.triggers.map TriggerDeclaration.toJson))] := rfl
  have hindex := itemsOrNone?_map IndexRule.ofJson?_toJson document.index
  have htriggers := itemsOrNone?_map TriggerDeclaration.ofJson?_toJson document.triggers
  unfold ofJson?
  rw [hfields]
  simp only [Option.bind_eq_bind, Option.bind_some, hindex, htriggers]
  rfl

/-- There are no numbers in a document. -/
theorem isProper_toJson (document : ConfigDocument) : document.toJson.isProper = true := by
  have hdeclaration : ∀ declaration : TriggerDeclaration, declaration.toJson.isProper = true := by
    rintro ⟨className, parameters⟩
    have hparameters := Json.areProper_map Parameter.toJson (fun _ => rfl) parameters
    cases className <;> simp [TriggerDeclaration.toJson, Json.isProper, Json.areProperMembers,
      Json.ofText, hparameters]
  have hindex := Json.areProper_map IndexRule.toJson (fun _ => rfl) document.index
  have htriggers := Json.areProper_map TriggerDeclaration.toJson hdeclaration document.triggers
  simp [toJson, Json.isProper, Json.areProperMembers, hindex, htriggers]

/-- A document that was written is read again. -/
theorem parse_toBytes (path : Path) (document : ConfigDocument) :
    parse path document.toBytes = .ok document := by
  have hread : Json.ofBytes? document.toBytes = some document.toJson :=
    Json.ofBytes?_toBytes Json.Layout.isBlank_indented document.isProper_toJson
  unfold parse
  rw [hread]
  simp only [Option.bind_eq_bind, Option.bind_some, ofJson?_toJson]

/-- Reading inverts writing. Therefore, what was read from any bytes can be written and read again:
this gives the same document or the same failure to read it, and a document that was read again
declares the same bindings, or has the same problem. -/
theorem parse_rewritten (path : Path) :
    (∀ document : ConfigDocument, parse path document.toBytes = .ok document) ∧
    ∀ bytes,
      (parse path bytes >>= fun document => parse path document.toBytes) = parse path bytes ∧
      ∀ collection stem,
        (parse path bytes >>= fun document => parse path document.toBytes >>= fun again =>
            again.bindings path collection stem) =
          parse path bytes >>= fun document => document.bindings path collection stem := by
  refine ⟨parse_toBytes path, fun bytes => ?_⟩
  -- Bytes that cannot be read give the same failure on both sides.
  cases hparse : parse path bytes with
  | error e => exact ⟨rfl, fun _ _ => rfl⟩
  | ok document =>
    have hagain := parse_toBytes path document
    refine ⟨hagain, fun collection stem => ?_⟩
    show (parse path document.toBytes >>= fun again => again.bindings path collection stem) = _
    rw [hagain]

end ConfigDocument

end DocTree
