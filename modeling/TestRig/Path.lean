import TestRig.Text.Pieces

/-!
# TestRig.Path — names of files

A path has a root and parts.  Empty parts and single dots are dropped when a path is read; two dots
are kept.  Exactly two slashes at the beginning are a root of their own.

* `Path.text` writes a path, a single dot if nothing is left of it.
* `Path.name` is the last part, `Path.stem` the name without its suffix.
-/

namespace TestRig

/-- A path: its root (nothing, `/` or `//`) and its parts. -/
structure Path where
  root : String
  parts : List String
  deriving DecidableEq, Repr, Inhabited

namespace Path

/-- The root at the beginning of a path. -/
def rootOf : List Char → String
  | '/' :: '/' :: '/' :: _ => "/"
  | '/' :: '/' :: _ => "//"
  | '/' :: _ => "/"
  | _ => ""

def ofString (s : String) : Path :=
  ⟨rootOf s.toList,
    ((Text.splitAt '/' s.toList).filter fun p => p != [] && p != ['.']).map String.ofList⟩

def text (p : Path) : String :=
  if p.root.isEmpty && p.parts.isEmpty then "." else p.root ++ "/".intercalate p.parts

def name (p : Path) : String := p.parts.getLast?.getD ""

/-- The last part without its suffix, which begins at the last dot.  A dot at the very beginning or
end begins no suffix. -/
def stem (p : Path) : String :=
  match Text.cutLast '.' p.name.toList with
  | some (a@(_ :: _), _ :: _) => String.ofList a
  | _ => p.name

/-- The path begins at the root of the file tree. -/
def isAbsolute (p : Path) : Bool := !p.root.isEmpty

end Path

end TestRig
