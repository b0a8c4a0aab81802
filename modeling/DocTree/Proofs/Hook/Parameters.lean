import DocTree.Proofs.Config.Inheritance

/-!
# The parameters of a binding

A trigger declaration hands some of its parameters to its program: those whose names have no meaning
of their own for the declaration. The binding keeps them in a table, each name once and with the
first value that is given for it.

## Main definitions

* `TriggerDeclaration.ownValue?`: the first value that is given under a name of the user's choice.
* `TriggerDeclaration.parameterTable`: the table of these values.

## Main results

* `Table.find?_reverse`: look-up among different keys does not depend on their order.
* `TriggerDeclaration.parameters_of_bindingFor`: the parameters of a binding.
* `TriggerDeclaration.get?_parameterTable` and `TriggerDeclaration.nodup_parameterTable`: what the
  table holds.
-/

namespace DocTree

namespace Table

variable {κ α β : Type} [DecidableEq κ]

/-! ### Look-up in a list of bindings -/

theorem find?_append (key : κ) (front back : List (κ × α)) :
    find? key (front ++ back) = (find? key front).or (find? key back) := by
  induction front with
  | nil => rfl
  | cons first rest ih => by_cases hfirst : first.1 = key <;> simp [find?, hfirst, ih]

theorem find?_map (key : κ) (f : α → β) (entries : List (κ × α)) :
    find? key (entries.map fun entry => (entry.1, f entry.2)) = (find? key entries).map f := by
  induction entries with
  | nil => rfl
  | cons first rest ih => by_cases hfirst : first.1 = key <;> simp [find?, hfirst, ih]

/-- A key that is not listed has no value. -/
theorem find?_eq_none_iff {key : κ} {entries : List (κ × α)} :
    find? key entries = none ↔ key ∉ entries.map Prod.fst := by
  induction entries with
  | nil => simp [find?]
  | cons first rest ih =>
    by_cases hfirst : first.1 = key
    · simp [find?, hfirst]
    · simp [find?, hfirst, Ne.symm hfirst, ih]

/-- If no key is listed twice, then the order of the bindings does not matter. -/
theorem find?_reverse {entries : List (κ × α)} (h : (entries.map Prod.fst).Nodup) (key : κ) :
    find? key entries.reverse = find? key entries := by
  induction entries with
  | nil => rfl
  | cons first rest ih =>
    rw [List.map_cons, List.nodup_cons] at h
    rw [List.reverse_cons, find?_append, ih h.2]
    -- The first binding is now the last one, so nothing else may be found before it.
    by_cases hfirst : first.1 = key
    · have hrest : find? key rest = none := find?_eq_none_iff.2 (hfirst ▸ h.1)
      simp [find?, hfirst, hrest]
    · simp [find?, hfirst]

/-! ### Keys that are bound once -/

/-- A new key is bound at the end. -/
theorem entries_setNew (table : Table κ α) (key : κ) (value : α) :
    (table.setNew key value).entries =
      if (table.get? key).isSome then table.entries else table.entries ++ [(key, value)] := by
  have hbind : ∀ {entries : List (κ × α)}, find? key entries = none →
      bind key value entries = entries ++ [(key, value)] := by
    intro entries hnone
    induction entries with
    | nil => rfl
    | cons first rest ih =>
      by_cases hfirst : first.1 = key
      · simp [find?, hfirst] at hnone
      · simp only [find?, hfirst, if_false] at hnone
        simp [bind, hfirst, ih hnone]
  unfold setNew
  split
  next => rfl
  next hnone => exact hbind (by simpa [get?] using hnone)

/-- A key that is bound already keeps its value. -/
theorem get?_setNew (table : Table κ α) (key other : κ) (value : α) :
    (table.setNew key value).get? other =
      (table.get? other).or (if key = other then some value else none) := by
  rw [get?, entries_setNew]
  split
  next hbound =>
    by_cases hother : key = other
    · subst hother
      exact (Option.or_of_isSome hbound).symm
    · simp [hother, get?]
  next => simp [find?_append, find?, get?]

theorem nodup_setNew {table : Table κ α} (h : (table.entries.map Prod.fst).Nodup) (key : κ)
    (value : α) : ((table.setNew key value).entries.map Prod.fst).Nodup := by
  rw [entries_setNew]
  split
  next => exact h
  next hnone =>
    have hnew : key ∉ table.entries.map Prod.fst :=
      find?_eq_none_iff.1 (by simpa [get?] using hnone)
    rw [List.map_append, List.nodup_append]
    refine ⟨h, by simp, ?_⟩
    intro old hold last hlast heq
    simp only [List.map_cons, List.map_nil, List.mem_singleton] at hlast
    exact hnew (hlast ▸ heq ▸ hold)

end Table

/-! ### From declarations to bindings -/

@[simp]
theorem Binding.parameters_setStem (binding : Binding) (stem : String) :
    (binding.setStem stem).parameters = binding.parameters := by
  unfold setStem
  split <;> rfl

theorem Binding.parameters_addParameters (parameters : List Parameter) (binding : Binding) :
    (parameters.foldl (fun binding parameter =>
      binding.addParameter parameter.name parameter.value) binding).parameters =
      parameters.foldl (fun table parameter => table.setNew parameter.name parameter.value)
        binding.parameters := by
  induction parameters generalizing binding with
  | nil => rfl
  | cons first rest ih => exact ih _

namespace TriggerDeclaration

variable {declaration : TriggerDeclaration}

/-- The first value that a declaration gives under a name of the user's choice. -/
def ownValue? (declaration : TriggerDeclaration) (name : String) : Option String :=
  if reservedNames.contains name then none else (declaration.valuesOf name).head?

/-- The parameters that are handed to the program, each name once and with its first value. -/
def parameterTable (declaration : TriggerDeclaration) : Table String String :=
  declaration.userParameters.foldl
    (fun table parameter => table.setNew parameter.name parameter.value) .empty

/-- The parameters of a binding are those that the declaration hands to the program. -/
theorem parameters_of_bind {collection : Path} {stem : String} {binding : Binding}
    (h : declaration.bind collection stem = .ok binding) :
    binding.parameters = declaration.parameterTable := by
  -- The class, the events and the source have been accepted.
  obtain ⟨_, -, h⟩ := bind_eq_ok_iff.1 h
  obtain ⟨events, -, h⟩ := bind_eq_ok_iff.1 h
  obtain ⟨source, -, h⟩ := bind_eq_ok_iff.1 h
  cases h
  rw [Binding.parameters_addParameters, parameterTable]
  congr 1
  -- With or without a stem of its own, the binding has no parameters before they are added.
  split <;> simp [Binding.addEvents, Binding.new]

theorem parameters_of_bindingFor {path collection : Path} {stem : String} {binding : Binding}
    (h : declaration.bindingFor path collection stem = .ok binding) :
    binding.parameters = declaration.parameterTable := by
  rw [bindingFor] at h
  cases hbind : declaration.bind collection stem with
  | error problem =>
    rw [hbind] at h
    cases h
  | ok bound =>
    rw [hbind] at h
    cases h
    exact parameters_of_bind hbind

/-- The values under a name are handed to the program unless the name is reserved. -/
theorem filterMap_userParameters (declaration : TriggerDeclaration) (name : String) :
    (declaration.userParameters.filterMap fun parameter =>
        if parameter.name = name then some parameter.value else none) =
      if reservedNames.contains name then [] else declaration.valuesOf name := by
  rw [userParameters, List.filterMap_filter, valuesOf]
  split
  next hreserved =>
    rw [List.filterMap_eq_nil_iff]
    intro parameter _
    by_cases hname : parameter.name = name
    · simpa [hname] using hreserved
    · simp [hname]
  next hown =>
    apply List.filterMap_congr
    intro parameter _
    by_cases hname : parameter.name = name
    · simpa [hname] using hown
    · simp [hname]

/-- Look-up in the table finds the first value that is given for a name. -/
theorem get?_parameterTable (declaration : TriggerDeclaration) (name : String) :
    declaration.parameterTable.get? name = declaration.ownValue? name := by
  -- Whatever is in the table stays; what comes later is found if the name is new.
  have hfold : ∀ (parameters : List Parameter) (table : Table String String),
      (parameters.foldl (fun table parameter => table.setNew parameter.name parameter.value)
        table).get? name =
        (table.get? name).or (parameters.filterMap fun parameter =>
          if parameter.name = name then some parameter.value else none).head? := by
    intro parameters
    induction parameters with
    | nil => simp
    | cons first rest ih =>
      intro table
      rw [List.foldl_cons, ih, Table.get?_setNew, Option.or_assoc]
      by_cases hfirst : first.name = name <;> simp [hfirst]
  rw [parameterTable, hfold, filterMap_userParameters, ownValue?]
  split <;> simp

/-- No name is listed twice. -/
theorem nodup_parameterTable (declaration : TriggerDeclaration) :
    (declaration.parameterTable.entries.map Prod.fst).Nodup := by
  have hfold : ∀ (parameters : List Parameter) (table : Table String String),
      (table.entries.map Prod.fst).Nodup →
      ((parameters.foldl (fun table parameter => table.setNew parameter.name parameter.value)
        table).entries.map Prod.fst).Nodup := by
    intro parameters
    induction parameters with
    | nil => exact fun _ h => h
    | cons first rest ih => exact fun table h => ih _ (Table.nodup_setNew h _ _)
  exact hfold _ _ List.nodup_nil

end TriggerDeclaration

end DocTree
