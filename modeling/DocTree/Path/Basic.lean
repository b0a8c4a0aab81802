/-!
# Paths

An absolute path in the hierarchy of collections, such as `/db/books/moby.xml`. A path is carried
as its text; the segments between the slashes are a view of it. Every operation is stated on the
text and keeps it well formed.

## Main definitions

* `Path`: a well-formed absolute path, with its view `Path.segments`.
* `Path.parse`: reads a text, accepting one trailing slash, or says what is wrong with it.
* `Path.startsWith`, `Path.stripAncestor?`, `Path.append`, `Path.relocate?`: the relation between a
  path and the paths above it, and moving a path from one ancestor to another.
* `Path.parent?`, `Path.ancestors`, `Path.child?`: the steps of the hierarchy.

## Main results

* `Path.segments_ofSegments` and `Path.ofSegments_segments`: a path is its list of segments.
-/

namespace DocTree

/-- What can be wrong with the text of a path. -/
inductive PathFault where
  /-- The text does not start with a slash. -/
  | notAbsolute
  /-- Nothing follows the first slash. -/
  | noSegments
  /-- Two slashes follow each other. -/
  | emptySegment
  /-- A segment is `.` or `..`. -/
  | relativeSegment
  deriving DecidableEq, Repr

namespace Path

/-- Whether a text can stand between two slashes of a path: it is not empty, holds no slash and is
neither `.` nor `..`. -/
def IsSegment (text : List Char) : Prop :=
  text ≠ [] ∧ '/' ∉ text ∧ text ≠ ['.'] ∧ text ≠ ['.', '.']

instance (text : List Char) : Decidable (IsSegment text) := by
  unfold IsSegment; infer_instance

/-- Whether a text is a slash followed by segments with single slashes between them. -/
def IsWellFormed (text : List Char) : Prop :=
  ∃ body, text = '/' :: body ∧ ∀ segment ∈ body.splitOn '/', IsSegment segment

end Path

/-- An absolute path: a text that starts with a slash, does not end with one, and has no empty, `.`
or `..` segment. -/
structure Path where
  /-- The text of the path. -/
  chars : List Char
  /-- The text is a slash followed by segments with single slashes between them. -/
  wellFormed : Path.IsWellFormed chars

namespace Path

instance : DecidableEq Path := fun a b =>
  if h : a.chars = b.chars then
    .isTrue (by obtain ⟨_, _⟩ := a; obtain ⟨_, _⟩ := b; cases h; rfl)
  else .isFalse fun e => h (congrArg chars e)

/-- Two paths with the same text are equal. -/
@[ext]
theorem ext {a b : Path} (h : a.chars = b.chars) : a = b := by
  obtain ⟨_, _⟩ := a; obtain ⟨_, _⟩ := b; cases h; rfl

/-- The text of a path as a string. -/
def text (p : Path) : String :=
  String.ofList p.chars

instance : ToString Path := ⟨text⟩

instance : Repr Path := ⟨fun p _ => p.text⟩

/-! ### Segments -/

/-- The segments of a path, outermost first. -/
def segments (p : Path) : List (List Char) :=
  p.chars.tail.splitOn '/'

/-- The text of a path splits into its leading slash and a body made of segments. -/
theorem exists_body (p : Path) :
    ∃ body, p.chars = '/' :: body ∧ ∀ segment ∈ body.splitOn '/', IsSegment segment :=
  p.wellFormed

/-- Every segment of a path can stand between two slashes. -/
theorem isSegment_of_mem_segments {p : Path} {segment : List Char} (h : segment ∈ p.segments) :
    IsSegment segment := by
  obtain ⟨body, hp, hb⟩ := p.exists_body
  exact hb segment (by simpa [segments, hp] using h)

/-- A path has at least one segment. -/
theorem segments_ne_nil (p : Path) : p.segments ≠ [] :=
  List.splitOn_ne_nil _ _

/-- The text of a list of segments: a slash before each of them. -/
def textOf (segments : List (List Char)) : List Char :=
  '/' :: ['/'].intercalate segments

/-- The body of a text made of segments splits into these segments. -/
theorem splitOn_intercalate_segments {segments : List (List Char)} (ne : segments ≠ [])
    (valid : ∀ segment ∈ segments, IsSegment segment) :
    (['/'].intercalate segments).splitOn '/' = segments :=
  List.splitOn_intercalate '/' (fun segment h => (valid segment h).2.1) ne

/-- The path with the given segments. -/
def ofSegments (segments : List (List Char)) (ne : segments ≠ [])
    (valid : ∀ segment ∈ segments, IsSegment segment) : Path :=
  ⟨textOf segments, _, rfl, by rwa [splitOn_intercalate_segments ne valid]⟩

/-- The segments of a path made from segments are these segments. -/
@[simp]
theorem segments_ofSegments {segments : List (List Char)} (ne : segments ≠ [])
    (valid : ∀ segment ∈ segments, IsSegment segment) :
    (ofSegments segments ne valid).segments = segments := by
  simp [Path.segments, ofSegments, textOf, splitOn_intercalate_segments ne valid]

/-- The text of a path is a slash before each of its segments. -/
theorem textOf_segments (p : Path) : textOf p.segments = p.chars := by
  obtain ⟨body, hp, -⟩ := p.exists_body
  simp [segments, textOf, hp]

/-- A path is made from its own segments. -/
@[simp]
theorem ofSegments_segments (p : Path) :
    ofSegments p.segments p.segments_ne_nil (fun _ h => isSegment_of_mem_segments h) = p :=
  ext p.textOf_segments

/-- Two paths with the same segments are equal. -/
theorem segments_injective {a b : Path} (h : a.segments = b.segments) : a = b :=
  ext (by rw [← a.textOf_segments, ← b.textOf_segments, h])

/-- The number of segments. -/
def depth (p : Path) : Nat :=
  p.segments.length

/-! ### Reading -/

/-- A text without the slash at its end, unless the slash is the whole text. -/
def dropTrailingSlash (raw : List Char) : List Char :=
  if raw.getLast? = some '/' && raw.length > 1 then raw.dropLast else raw

/-- What is wrong with a text that should be a segment. -/
def segmentFault? (segment : List Char) : Option PathFault :=
  if segment = [] then some .emptySegment
  else if segment = ['.'] ∨ segment = ['.', '.'] then some .relativeSegment
  else none

/-- A text without slashes in which nothing is wrong is a segment. -/
theorem isSegment_of_segmentFault?_eq_none {segment : List Char} (slash : '/' ∉ segment)
    (h : segmentFault? segment = none) : IsSegment segment := by
  unfold segmentFault? at h
  split at h
  · cases h
  · split at h
    · cases h
    · next ne dots => exact ⟨ne, slash, fun e => dots (.inl e), fun e => dots (.inr e)⟩

/-- No piece of a text cut at its slashes holds a slash. -/
theorem slash_notMem_of_mem_splitOn {body segment : List Char} (h : segment ∈ body.splitOn '/') :
    '/' ∉ segment := by
  induction body generalizing segment with
  | nil => simp_all
  | cons c rest ih =>
    rw [List.splitOn_cons_eq_if_modifyHead] at h
    split at h
    · rcases List.mem_cons.1 h with rfl | h
      · simp
      · exact ih h
    · next hc =>
      have slash : c ≠ '/' := by simpa using hc
      generalize hs : rest.splitOn '/' = pieces at h ih
      cases pieces with
      | nil => simp at h
      | cons first others =>
        rcases List.mem_cons.1 h with rfl | h
        · simpa [Ne.symm slash] using ih (List.mem_cons_self ..)
        · exact ih (List.mem_cons_of_mem _ h)

/-- Reads a path. One trailing slash is accepted and dropped; otherwise the text has to be the text
of the path. The fault reported for a segment is that of the first segment with one. -/
def parse (raw : List Char) : Except PathFault Path :=
  match dropTrailingSlash raw with
  | '/' :: body =>
    if body.isEmpty then .error .noSegments
    else
      match h : (body.splitOn '/').findSome? segmentFault? with
      | some fault => .error fault
      | none => .ok ⟨'/' :: body, body, rfl, fun segment hs =>
          isSegment_of_segmentFault?_eq_none (slash_notMem_of_mem_splitOn hs)
            (List.findSome?_eq_none_iff.1 h segment hs)⟩
  | _ => .error .notAbsolute

/-- The root collection `/db`. -/
def root : Path :=
  ⟨['/', 'd', 'b'], ['d', 'b'], rfl, by decide⟩

instance : Inhabited Path := ⟨root⟩

/-! ### The steps of the hierarchy -/

/-- The last segment. -/
def name (p : Path) : List Char :=
  (p.chars.reverse.takeWhile (· ≠ '/')).reverse

/-- The text in front of the last slash. -/
def parentChars (p : Path) : List Char :=
  (p.chars.reverse.dropWhile (· ≠ '/')).tail.reverse

/-- A path's text is its parent's text, a slash and its last segment. -/
theorem parentChars_append_name (p : Path) : p.parentChars ++ '/' :: p.name = p.chars := by
  obtain ⟨body, hp, -⟩ := p.exists_body
  have cut : ∀ l : List Char, '/' ∈ l →
      (l.dropWhile (· ≠ '/')) = '/' :: (l.dropWhile (· ≠ '/')).tail := by
    intro l hl
    induction l with
    | nil => simp at hl
    | cons c rest ih =>
      by_cases hc : c = '/'
      · simp [hc]
      · simpa [hc] using ih (by simpa [Ne.symm hc] using hl)
  have whole := List.takeWhile_append_dropWhile (p := fun c : Char => decide (c ≠ '/'))
    (l := p.chars.reverse)
  rw [cut _ (by simp [hp])] at whole
  have := congrArg List.reverse whole
  simpa [parentChars, name] using this

/-- The last segment holds no slash. -/
theorem slash_notMem_name (p : Path) : '/' ∉ p.name := by
  intro h
  simpa using List.all_eq_true.1 List.all_takeWhile _ (List.mem_reverse.1 h)

/-- If anything stands in front of the last slash, it is the text of a path. -/
theorem isWellFormed_parentChars {p : Path} (h : p.parentChars ≠ []) :
    IsWellFormed p.parentChars := by
  obtain ⟨body, hp, hb⟩ := p.exists_body
  have split := p.parentChars_append_name
  rw [hp] at split
  cases hq : p.parentChars with
  | nil => exact absurd hq h
  | cons c rest =>
    rw [hq, List.cons_append, List.cons.injEq] at split
    obtain ⟨rfl, hrest⟩ := split
    refine ⟨rest, rfl, fun segment hs => hb segment ?_⟩
    rw [← hrest, List.splitOn_append_cons_self]
    exact List.mem_append_left _ hs

/-- The path without its last segment; a path of one segment has none. -/
def parent? (p : Path) : Option Path :=
  if h : p.parentChars = [] then none else some ⟨p.parentChars, isWellFormed_parentChars h⟩

/-- The text of a parent is shorter. -/
theorem length_parentChars_lt (p : Path) : p.parentChars.length < p.chars.length := by
  have := congrArg List.length p.parentChars_append_name
  simp only [List.length_append, List.length_cons] at this
  omega

/-- The path and all paths above it, outermost first. -/
def ancestors (p : Path) : List Path :=
  if h : p.parentChars = [] then [p]
  else
    have := p.length_parentChars_lt
    ancestors ⟨p.parentChars, isWellFormed_parentChars h⟩ ++ [p]
termination_by p.chars.length

/-- Appending a slash and a segment to the text of a path gives the text of a path. -/
theorem isWellFormed_append_segment (p : Path) {segment : List Char} (h : IsSegment segment) :
    IsWellFormed (p.chars ++ '/' :: segment) := by
  obtain ⟨body, hp, hb⟩ := p.exists_body
  refine ⟨body ++ '/' :: segment, by rw [hp]; rfl, fun s hs => ?_⟩
  rw [List.splitOn_append_cons_self, List.splitOn_eq_singleton h.2.1] at hs
  rcases List.mem_append.1 hs with hs | hs
  · exact hb s hs
  · exact (List.mem_singleton.1 hs) ▸ h

/-- The path with one segment more, if the text can be a segment. -/
def child? (p : Path) (segment : List Char) : Option Path :=
  if h : IsSegment segment then
    some ⟨p.chars ++ '/' :: segment, isWellFormed_append_segment p h⟩
  else none

/-! ### Paths above and below one another -/

/-- The texts of two paths after one another are the text of a path. -/
theorem isWellFormed_append (a b : Path) : IsWellFormed (a.chars ++ b.chars) := by
  obtain ⟨abody, ha, hav⟩ := a.exists_body
  obtain ⟨bbody, hb, hbv⟩ := b.exists_body
  refine ⟨abody ++ '/' :: bbody, by rw [ha, hb]; rfl, fun s hs => ?_⟩
  rw [List.splitOn_append_cons_self] at hs
  exact (List.mem_append.1 hs).elim (hav s) (hbv s)

/-- Every segment of `b` appended below `a`. -/
def append (a b : Path) : Path :=
  ⟨a.chars ++ b.chars, isWellFormed_append a b⟩

/-- What follows `front` in a text that starts with it. -/
def textAfter? : List Char → List Char → Option (List Char)
  | [], whole => some whole
  | _ :: _, [] => none
  | c :: front, d :: whole => if c = d then textAfter? front whole else none

/-- Something follows `front` in a text exactly if the text is put together from the two. -/
theorem textAfter?_eq_some_iff {front whole rest : List Char} :
    textAfter? front whole = some rest ↔ whole = front ++ rest := by
  induction front generalizing whole with
  | nil => simp [textAfter?]
  | cons c front ih =>
    cases whole with
    | nil => simp [textAfter?]
    | cons d whole =>
      by_cases h : c = d
      · simp [textAfter?, h, ih]
      · simp [textAfter?, h, Ne.symm h]

/-- What follows the text of `a` in the text of `p`, if that text starts the text of `p`. -/
def rest? (p a : Path) : Option (List Char) :=
  textAfter? a.chars p.chars

/-- Whether `p` is `a` or lies below it. The comparison respects segments: `/db/ab` does not start
with `/db/a`. -/
def startsWith (p a : Path) : Bool :=
  match p.rest? a with
  | some [] => true
  | some (c :: _) => c == '/'
  | none => false

/-- Whether `p` lies strictly below `a`. -/
def isBelow (p a : Path) : Bool :=
  p != a && p.startsWith a

/-- What is found after the text of an ancestor completes that text. -/
theorem chars_eq_of_rest? {p a : Path} {rest : List Char} (h : p.rest? a = some rest) :
    p.chars = a.chars ++ rest :=
  textAfter?_eq_some_iff.1 h

/-- A rest that starts with a slash is the text of a path. -/
theorem isWellFormed_of_rest? {p a : Path} {rest : List Char} (h : p.rest? a = some ('/' :: rest)) :
    IsWellFormed ('/' :: rest) := by
  obtain ⟨pbody, hp, hpv⟩ := p.exists_body
  obtain ⟨abody, ha, -⟩ := a.exists_body
  have split := chars_eq_of_rest? h
  rw [hp, ha, List.cons_append, List.cons.injEq] at split
  refine ⟨rest, rfl, fun s hs => hpv s ?_⟩
  rw [split.2, List.splitOn_append_cons_self]
  exact List.mem_append_right _ hs

/-- The path that leads from `a` down to `p`, if `p` lies strictly below `a`. -/
def stripAncestor? (p a : Path) : Option Path :=
  match h : p.rest? a with
  | some ('/' :: rest) => some ⟨'/' :: rest, isWellFormed_of_rest? h⟩
  | _ => none

/-- The place below `new` that `p` has below `old`, if `p` is `old` or lies below it. -/
def relocate? (p old new : Path) : Option Path :=
  if p = old then some new else (p.stripAncestor? old).map new.append

/-- The text that every path strictly below `p` starts with. -/
def descendantKey (p : Path) : List Char :=
  p.chars ++ ['/']

end Path

end DocTree
