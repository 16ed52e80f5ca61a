import MemShell.Text.Basic

/-!
# Paths

A path is the list of names on the way from the root, with a flag for a slash at its end. Empty
segments and single dots are dropped when a path is read, and two dots take back the name before
them, so a path holds names only and every path is absolute.
-/

namespace MemShell

/-- A text that can name an entry of a directory. -/
def ValidName (name : Text) : Prop :=
  name ≠ [] ∧ name ≠ ['.'] ∧ name ≠ ['.', '.'] ∧ '/' ∉ name

instance : DecidablePred ValidName := fun _ => inferInstanceAs (Decidable (_ ∧ _ ∧ _ ∧ _))

/-- A normalised absolute path. -/
structure Path where
  /-- The names from the root on. -/
  parts : List Text
  /-- Whether the path was written with a slash at its end; the root always is. -/
  isDirectory : Bool
  /-- Every part is a name. -/
  valid : ∀ part ∈ parts, ValidName part
  /-- The root denotes a directory. -/
  root_isDirectory : parts = [] → isDirectory = true
  deriving DecidableEq

/-- Why a question about paths has no answer. -/
inductive PathError
  /-- A path was asked for without any text. -/
  | noFragments
  /-- The first path is neither the second nor above it. -/
  | notAncestor (ancestor path : Path)
  deriving DecidableEq

namespace Path

/-- The names walked to so far after one more segment. -/
def step (walked : List Text) (segment : Text) : List Text :=
  if segment = [] ∨ segment = ['.'] then walked
  else if segment = ['.', '.'] then walked.dropLast
  else walked ++ [segment]

/-- The names that a list of segments leads to from the root. -/
def resolve (segments : List Text) : List Text := segments.foldl step []

private theorem valid_step {walked : List Text} {segment : Text} (hs : '/' ∉ segment)
    (h : ∀ part ∈ walked, ValidName part) : ∀ part ∈ step walked segment, ValidName part := by
  intro part hp
  rw [step] at hp
  split at hp
  · exact h part hp
  · next hd =>
    split at hp
    · exact h part ((List.dropLast_sublist walked).mem hp)
    · next hdd =>
      rcases List.mem_append.1 hp with hp | hp
      · exact h part hp
      · rw [List.mem_singleton.1 hp]
        rw [not_or] at hd
        exact ⟨hd.1, hd.2, hdd, hs⟩

private theorem valid_foldl_step {segments walked : List Text} (hs : ∀ s ∈ segments, '/' ∉ s)
    (h : ∀ part ∈ walked, ValidName part) :
    ∀ part ∈ segments.foldl step walked, ValidName part := by
  induction segments generalizing walked with
  | nil => exact h
  | cons s segments ih =>
    exact ih (fun t ht => hs t (List.mem_cons_of_mem s ht))
      (valid_step (hs s List.mem_cons_self) h)

/-- Segments without slashes lead to names. -/
theorem valid_resolve {segments : List Text} (hs : ∀ s ∈ segments, '/' ∉ s) :
    ∀ part ∈ resolve segments, ValidName part :=
  valid_foldl_step hs fun _ h => absurd h List.not_mem_nil

/-- The path that a text denotes. -/
def ofText (text : Text) : Path where
  parts := resolve (Text.splitOn '/' text)
  isDirectory := (resolve (Text.splitOn '/' text)).isEmpty || text.getLast? == some '/'
  valid := valid_resolve fun _ h => Text.separator_not_mem_of_mem_splitOn h
  root_isDirectory h := by rw [h]; rfl

/-- The path that fragments denote when they are joined by slashes. -/
def ofFragments (first : Text) (rest : List Text) : Path := ofText (Text.join "/" (first :: rest))

/-- The path that a list of fragments denotes, if there is a fragment at all. -/
def ofFragments? : List Text → Except PathError Path
  | [] => .error .noFragments
  | first :: rest => .ok (ofFragments first rest)

/-- The root. -/
def root : Path := ⟨[], true, fun _ h => absurd h List.not_mem_nil, fun _ => rfl⟩

/-- Whether a path is the root. -/
def isRoot (p : Path) : Bool := p.parts.isEmpty

/-- The last name of a path; the root has an empty one. -/
def fileName (p : Path) : Text := p.parts.getLastD []

/-- The path as text, without a slash at the end. -/
def toText (p : Path) : Text := '/' :: Text.join "/" p.parts

/-- The path as a listing shows it, with a slash at the end of a directory path. -/
def display (p : Path) : Text :=
  "Path('" ++ p.toText ++ (if p.isDirectory && !p.isRoot then ['/'] else []) ++ "')"

/-- What fragments denote for someone at a directory: the directory itself without fragments, the
fragments alone when the first is absolute, and the fragments below the directory otherwise. -/
def interpret (cwd : Text) : List Text → Path
  | [] => ofText cwd
  | first :: rest =>
    if first.head? = some '/' then ofFragments first rest else ofFragments cwd (first :: rest)

/-- The path made of the first names of a path. -/
def upTo (p : Path) (depth : Nat) : Path where
  parts := p.parts.take depth
  isDirectory := (p.parts.take depth).isEmpty
  valid part h := p.valid part (List.mem_of_mem_take h)
  root_isDirectory h := by rw [h]; rfl

/-- The path one name up; the root is above itself. -/
def parent (p : Path) : Path := p.upTo (p.parts.length - 1)

/-- Everything above a path, from its parent to the root. -/
def ancestors (p : Path) : List Path := (List.range p.parts.length).reverse.map p.upTo

/-- Whether a path lies strictly above another. -/
def isAncestorOf (p q : Path) : Bool :=
  decide (p.parts.length < q.parts.length) && p.parts.isPrefixOf q.parts

/-- Everything above a path up to a given ancestor; nothing for the path itself. -/
def ancestorsUntil (p ancestor : Path) : Except PathError (List Path) :=
  if ancestor.parts = p.parts then .ok []
  else if ancestor.isAncestorOf p then
    .ok (p.ancestors.take (p.parts.length - ancestor.parts.length))
  else .error (.notAncestor ancestor p)

/-- The path that a text denotes below a path. -/
def child (p : Path) (text : Text) : Path := ofFragments p.toText [text]

/-- Paths are ordered by their names. -/
instance : LT Path := ⟨fun p q => p.parts < q.parts⟩

instance (p q : Path) : Decidable (p < q) := inferInstanceAs (Decidable (p.parts < q.parts))

/-- Paths in order; equal ones keep their places. -/
def sort (paths : List Path) : List Path := paths.mergeSort fun p q => decide ¬q < p

end Path

/-- The message of a path error. -/
def PathError.message : PathError → Text
  | noFragments => "A path requires at least one fragment."
  | notAncestor ancestor path =>
    "'" ++ ancestor.toText ++ "' is not an ancestor of '" ++ path.toText ++ "'."

end MemShell
