import MemShell.Files.FileSystem
import MemShell.Json.Writer
import MemShell.Word.Marked

/-!
# Wildcards

A question mark stands for one character of a name and an asterisk for any number of them. Neither
stands for a slash, and a pattern that starts with a wildcard matches no name that starts with a
dot. Marked text is matched against the file system segment by segment.
-/

namespace MemShell.Glob

/-- The rests of a text after some of its first characters, none of them a slash, have been dropped.
-/
def restsWithinName : Text → List Text
  | [] => [[]]
  | c :: rest => (c :: rest) :: (if c = '/' then [] else restsWithinName rest)

/-- Whether glyphs match a whole text. -/
def matchesGlyphs : List Glyph → Text → Bool
  | [], text => text.isEmpty
  | ⟨'*', true⟩ :: glyphs, text => (restsWithinName text).any (matchesGlyphs glyphs)
  | ⟨_, true⟩ :: glyphs, text =>
    match text with
    | [] => false
    | c :: rest => c != '/' && matchesGlyphs glyphs rest
  | ⟨char, false⟩ :: glyphs, text =>
    match text with
    | [] => false
    | c :: rest => c == char && matchesGlyphs glyphs rest

/-- Whether glyphs start with a wildcard. -/
def startsWild : List Glyph → Bool
  | [] => false
  | glyph :: _ => glyph.isWildcard

/-- Whether a segment of marked text matches a name. -/
def matchesName (segment name : Text) : Bool :=
  let glyphs := Marked.decode segment
  !(startsWild glyphs && name.head? == some '.') && matchesGlyphs glyphs name

/-- The path that a segment without wildcards leads to. -/
def walkTo (path : Path) (segment : Text) : Path :=
  let name := Marked.unmark segment
  if name = [] ∨ name = ['.'] then path
  else if name = ['.', '.'] then path.parent
  else path.child name

/-- Whether there is a directory at a path. -/
def isDirectoryAt (fs : FileSystem) (path : Path) : Bool :=
  match fs.get path with
  | some (.directory ..) => true
  | _ => false

/-- The texts that segments stand for below a path, each after the text that led there. -/
def expandFrom (fs : FileSystem) (path : Path) (written : Text) : List Text → List Text
  | [] => [written]
  | segment :: rest =>
    if !Marked.hasWildcard (Text.join "/" (segment :: rest)) then
      [written ++ Text.join "/" (segment :: rest)]
    else if !Marked.hasWildcard segment then
      if isDirectoryAt fs (walkTo path segment) then
        expandFrom fs (walkTo path segment) (written ++ segment ++ ['/']) rest
      else []
    else
      match fs.get path with
      | some (.directory _ entries) =>
        (Json.sortByName entries).flatMap fun (name, node) =>
          if !matchesName segment name then []
          else if rest.isEmpty then [written ++ Marked.escape name]
          else if node.kind = .directory then
            expandFrom fs (path.child name) (written ++ Marked.escape name ++ ['/']) rest
          else []
      | _ => []

/-- Where marked text starts from: the path, the text that leads there, and the text that follows.
-/
def anchor (cwd : Path) : Text → Path × Text × Text
  | '/' :: rest => (Path.root, ['/'], rest)
  | token => (cwd, [], token)

/-- Whether matches are searched for: there is a wildcard, and the search starts from a directory.
-/
def isSearched (fs : FileSystem) (cwd : Path) (token : Text) : Bool :=
  Marked.hasWildcard token && isDirectoryAt fs (anchor cwd token).1

/-- What marked text stands for at a directory: itself if nothing is searched for, and otherwise
everything that it matches. The result is nothing if nothing matches. -/
def expand? (fs : FileSystem) (cwd : Path) (token : Text) : Option (List Text) :=
  if !isSearched fs cwd token then some [token]
  else
    let (base, written, pattern) := anchor cwd token
    match expandFrom fs base written (Text.splitOn '/' pattern) with
    | [] => none
    | found => some found

end MemShell.Glob
