import DocTree.Path.Order

/-!
# Maps with paths as keys

Finite maps from paths, kept as lists of entries in strictly increasing order of their keys. The
entries at and below a path are found by one scan over a contiguous range of keys.

## Main definitions

* `PathMap`: a list of entries with strictly increasing keys.
* `PathMap.get?`, `PathMap.insert`, `PathMap.erase`: look-up, binding and removal of a key.
* `PathMap.subtree`: the entry of a path followed by the entries below it.

## Main results

* `PathMap.get?_insert` and `PathMap.get?_erase`: what look-up finds after a change.
* `PathMap.ext_get?`: two maps in which look-up finds the same are equal.
-/

namespace DocTree

/-- Whether the keys of a list of entries increase strictly. -/
def IncreasingKeys {α : Type} (entries : List (Path × α)) : Prop :=
  entries.Pairwise fun a b => a.1 < b.1

/-- A finite map from paths: entries whose keys increase strictly. -/
structure PathMap (α : Type) where
  /-- The entries in order. -/
  entries : List (Path × α)
  /-- The keys increase strictly. -/
  increasing : IncreasingKeys entries

namespace PathMap

variable {α : Type}

/-- The map without entries. -/
def empty : PathMap α :=
  ⟨[], List.Pairwise.nil⟩

instance : Inhabited (PathMap α) := ⟨empty⟩

instance [DecidableEq α] : DecidableEq (PathMap α) := fun a b =>
  if h : a.entries = b.entries then
    .isTrue (by obtain ⟨_, _⟩ := a; obtain ⟨_, _⟩ := b; cases h; rfl)
  else .isFalse fun e => h (congrArg entries e)

/-- The value of a key in a list of entries. -/
def find? (key : Path) : List (Path × α) → Option α
  | [] => none
  | (k, a) :: rest => if k = key then some a else find? key rest

/-- Puts an entry at its place in a list of entries, instead of one with the same key. -/
def place (key : Path) (value : α) : List (Path × α) → List (Path × α)
  | [] => [(key, value)]
  | (k, a) :: rest =>
    if key < k then (key, value) :: (k, a) :: rest
    else if k = key then (key, value) :: rest
    else (k, a) :: place key value rest

/-- The value of a key. -/
def get? (map : PathMap α) (key : Path) : Option α :=
  find? key map.entries

/-- Whether a key has a value. -/
def contains (map : PathMap α) (key : Path) : Bool :=
  (map.get? key).isSome

/-- The keys in increasing order. -/
def keys (map : PathMap α) : List Path :=
  map.entries.map Prod.fst

/-- The values in the order of their keys. -/
def values (map : PathMap α) : List α :=
  map.entries.map Prod.snd

/-- The number of entries. -/
def size (map : PathMap α) : Nat :=
  map.entries.length

/-- The entries of a list after placing one are that one and entries of the list. -/
theorem mem_place {key : Path} {value : α} {entries : List (Path × α)} {entry : Path × α}
    (h : entry ∈ place key value entries) : entry = (key, value) ∨ entry ∈ entries := by
  induction entries with
  | nil => simpa [place] using h
  | cons first rest ih =>
    obtain ⟨k, a⟩ := first
    rw [place] at h
    split at h
    · simpa using h
    · split at h
      · rcases List.mem_cons.1 h with h | h
        · exact .inl h
        · exact .inr (List.mem_cons_of_mem _ h)
      · rcases List.mem_cons.1 h with h | h
        · exact .inr (h ▸ List.mem_cons_self ..)
        · exact (ih h).imp_right (List.mem_cons_of_mem _)

/-- Placing an entry keeps the keys strictly increasing. -/
theorem increasingKeys_place {key : Path} {value : α} {entries : List (Path × α)}
    (h : IncreasingKeys entries) : IncreasingKeys (place key value entries) := by
  induction entries with
  | nil => simp [place, IncreasingKeys]
  | cons first rest ih =>
    obtain ⟨k, a⟩ := first
    have below : ∀ {entry}, entry ∈ rest → k < entry.1 := List.rel_of_pairwise_cons h
    rw [place]
    split
    · next lt =>
      refine List.Pairwise.cons (fun entry he => ?_) h
      rcases List.mem_cons.1 he with rfl | he
      · exact lt
      · exact Path.lt_trans lt (below he)
    · next notLt =>
      split
      · next e => exact List.Pairwise.cons (fun entry he => e ▸ below he) h.of_cons
      · next ne =>
        refine List.Pairwise.cons (fun entry he => ?_) (ih h.of_cons)
        rcases mem_place he with rfl | he
        · exact Path.lt_of_not_lt_of_ne notLt (Ne.symm ne)
        · exact below he

/-- Binds a key to a value. -/
def insert (map : PathMap α) (key : Path) (value : α) : PathMap α :=
  ⟨place key value map.entries, increasingKeys_place map.increasing⟩

/-- Keeps the entries that satisfy a test. -/
def filter (map : PathMap α) (keep : Path → α → Bool) : PathMap α :=
  ⟨map.entries.filter fun entry => keep entry.1 entry.2, map.increasing.filter _⟩

/-- Removes the entry of a key. -/
def erase (map : PathMap α) (key : Path) : PathMap α :=
  map.filter fun k _ => k != key

/-- Removes the entries of several keys. -/
def eraseAll (map : PathMap α) (doomed : List Path) : PathMap α :=
  doomed.foldl erase map

/-- The entries strictly below a path: the range of keys that start with the path's text and a
slash. -/
def below (map : PathMap α) (path : Path) : List (Path × α) :=
  (map.entries.dropWhile fun entry => entry.1.chars < path.descendantKey).takeWhile
    fun entry => path.descendantKey.isPrefixOf entry.1.chars

/-- The entry of a path, if it has one, followed by the entries strictly below it. -/
def subtree (map : PathMap α) (path : Path) : List (Path × α) :=
  ((map.get? path).map (path, ·)).toList ++ map.below path

/-! ### Look-up after a change -/

/-- The empty map binds nothing. -/
@[simp]
theorem get?_empty (key : Path) : (empty : PathMap α).get? key = none := rfl

/-- Placing an entry gives its key the new value and leaves every other key as it was. -/
theorem find?_place (key other : Path) (value : α) (entries : List (Path × α)) :
    find? other (place key value entries) =
      if key = other then some value else find? other entries := by
  induction entries with
  | nil => simp [place, find?]
  | cons first rest ih =>
    obtain ⟨k, a⟩ := first
    rw [place]
    split
    · simp [find?]
    · split
      · next e => by_cases h : key = other <;> simp [find?, e, h]
      · next ne =>
        by_cases h : k = other
        · subst h
          simp [find?, Ne.symm ne]
        · simp [find?, h, ih]

/-- A key that was just bound has its new value, every other key the value it had. -/
theorem get?_insert (map : PathMap α) (key other : Path) (value : α) :
    (map.insert key value).get? other = if key = other then some value else map.get? other :=
  find?_place key other value map.entries

/-- A removed key has no value, every other key the value it had. -/
theorem get?_erase (map : PathMap α) (key other : Path) :
    (map.erase key).get? other = if key = other then none else map.get? other := by
  obtain ⟨entries, _⟩ := map
  simp only [get?, erase, filter]
  induction entries with
  | nil => simp [find?]
  | cons first rest ih =>
    obtain ⟨k, a⟩ := first
    have ih := ih (by assumption : IncreasingKeys _).of_cons
    by_cases hk : k = key
    · subst hk
      by_cases ho : k = other
      · simpa [ho] using ih
      · simpa [find?, ho] using ih
    · by_cases ho : k = other
      · subst ho
        simp [find?, hk, Ne.symm hk]
      · simpa [find?, hk, ho] using ih

/-- A key that comes before every entry has no value. -/
theorem find?_eq_none_of_lt {key : Path} {entries : List (Path × α)}
    (h : ∀ entry ∈ entries, key < entry.1) : find? key entries = none := by
  induction entries with
  | nil => rfl
  | cons first rest ih =>
    obtain ⟨k, a⟩ := first
    have ne : k ≠ key := fun e => Path.lt_irrefl key (e ▸ h (k, a) (List.mem_cons_self ..))
    simp [find?, ne, ih fun entry he => h entry (List.mem_cons_of_mem _ he)]

/-- Two lists of entries with increasing keys in which look-up finds the same are equal. -/
theorem entries_eq_of_find?_eq {a b : List (Path × α)} (ha : IncreasingKeys a)
    (hb : IncreasingKeys b) (h : ∀ key, find? key a = find? key b) : a = b := by
  induction a generalizing b with
  | nil =>
    cases b with
    | nil => rfl
    | cons first rest => simpa [find?] using h first.1
  | cons first rest ih =>
    obtain ⟨k, x⟩ := first
    have aboveA : ∀ {entry}, entry ∈ rest → k < entry.1 := List.rel_of_pairwise_cons ha
    cases b with
    | nil => simpa [find?] using h k
    | cons second others =>
      obtain ⟨l, y⟩ := second
      have aboveB : ∀ {entry}, entry ∈ others → l < entry.1 := List.rel_of_pairwise_cons hb
      have keyEq : k = l := by
        refine Classical.byContradiction fun ne => ?_
        rcases Path.lt_or_lt_of_ne ne with lt | lt
        · have absent : find? k ((l, y) :: others) = none := by
            refine find?_eq_none_of_lt fun entry he => ?_
            rcases List.mem_cons.1 he with rfl | he
            · exact lt
            · exact Path.lt_trans lt (aboveB he)
          have same := h k
          rw [absent] at same
          simp [find?] at same
        · have absent : find? l ((k, x) :: rest) = none := by
            refine find?_eq_none_of_lt fun entry he => ?_
            rcases List.mem_cons.1 he with rfl | he
            · exact lt
            · exact Path.lt_trans lt (aboveA he)
          have same := h l
          rw [absent] at same
          simp [find?] at same
      subst keyEq
      have valueEq : x = y := by simpa [find?] using h k
      subst valueEq
      refine congrArg _ (ih ha.of_cons hb.of_cons fun key => ?_)
      by_cases e : k = key
      · subst e
        rw [find?_eq_none_of_lt fun entry he => aboveA he,
          find?_eq_none_of_lt fun entry he => aboveB he]
      · simpa [find?, e] using h key

/-- Two maps in which look-up finds the same are equal. -/
theorem ext_get? {a b : PathMap α} (h : ∀ key, a.get? key = b.get? key) : a = b := by
  obtain ⟨_, ha⟩ := a
  obtain ⟨_, hb⟩ := b
  cases entries_eq_of_find?_eq ha hb h
  rfl

end PathMap

end DocTree
