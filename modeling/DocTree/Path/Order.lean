import DocTree.Path.Basic

/-!
# The order of paths

Paths are ordered by their texts, character by character. For valid texts this is also the order
of their UTF-8 bytes. All paths strictly below a path follow one another directly.

## Main results

* `Path.lt_trans`, `Path.lt_irrefl` and `Path.lt_or_lt_of_ne`: the order is linear.
-/

namespace DocTree.Path

instance : LT Path := ⟨fun a b => a.chars < b.chars⟩

instance : DecidableLT Path := fun a b =>
  inferInstanceAs (Decidable (a.chars < b.chars))

/-- The order of paths is the order of their texts. -/
theorem lt_iff {a b : Path} : a < b ↔ a.chars < b.chars := Iff.rfl

/-- A path below one that comes before a third comes before the third. -/
theorem lt_trans {a b c : Path} (hab : a < b) (hbc : b < c) : a < c :=
  List.lt_trans (α := Char) hab hbc

/-- No path comes before itself. -/
theorem lt_irrefl (a : Path) : ¬a < a :=
  List.lt_irrefl (α := Char) a.chars

/-- Of two different paths one comes before the other. -/
theorem lt_or_lt_of_ne {a b : Path} (h : a ≠ b) : a < b ∨ b < a := by
  by_cases hab : a < b
  · exact .inl hab
  · refine .inr (Classical.byContradiction fun hba => h (ext ?_))
    exact List.le_antisymm (α := Char) (List.not_lt.1 hba) (List.not_lt.1 hab)

/-- A path that does not come after another is it or comes before it. -/
theorem lt_of_not_lt_of_ne {a b : Path} (h : ¬a < b) (ne : a ≠ b) : b < a :=
  (lt_or_lt_of_ne ne).resolve_left h

/-- The order of two paths as one of three answers. -/
def compare (a b : Path) : Ordering :=
  if a < b then .lt else if b < a then .gt else .eq

end DocTree.Path
