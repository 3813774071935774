import TestRig.Path
import TestRig.Suite

/-!
# TestRig.Disk — files and directories

A disk is a tree of directories with a working directory.  Files are opened for appending, and a
file that is missing is created if its directory exists.

* `Disk.locate` follows a path; every part but the last has to be a directory.
* `Disk.openToAppend` and `Disk.append` write to the end of a file.
* `Disk.textOf` reads a file, `Disk.resolve` finds a path without looking at the tree.
-/

namespace TestRig

/-- What a name stands for. -/
inductive Node
  | directory
  | file (text : String) (executable : Bool)
  | suite (s : Suite)
  /-- A file that takes everything and keeps nothing. -/
  | device
  deriving Inhabited

/-- The parts of a path from the root of the tree. -/
abbrev Location := List String

structure Disk where
  nodes : List (Location × Node)
  home : Location
  deriving Inhabited

namespace Disk

/-- Why a file cannot be opened. -/
inductive Fault
  | missing
  | notDirectory
  | isDirectory
  | nameTooLong
  | holdsNul
  deriving DecidableEq, Repr

def Fault.reason : Fault → String
  | missing => "No such file or directory"
  | notDirectory => "Not a directory"
  | isDirectory => "Is a directory"
  | nameTooLong => "File name too long"
  | holdsNul => "embedded null byte"

def blank : Disk :=
  { nodes := [(["dev"], .directory), (["dev", "null"], .device), (["tmp"], .directory),
      (["tmp", "work"], .directory)]
    home := ["tmp", "work"] }

/-- What stands at a location. -/
def node? (d : Disk) : Location → Option Node
  | [] => some .directory
  | l => d.nodes.lookup l

/-- Replace what stands at a location, or put it there. -/
def putNode (l : Location) (n : Node) : List (Location × Node) → List (Location × Node)
  | [] => [(l, n)]
  | (k, m) :: r => if k = l then (k, n) :: r else (k, m) :: putNode l n r

def put (d : Disk) (l : Location) (n : Node) : Disk := { d with nodes := putNode l n d.nodes }

/-- Create the directories on the way to a location that are not there. -/
def makeParents (d : Disk) (l : Location) : Disk :=
  (List.range l.length).foldl (fun d k =>
    let parent := l.take k
    if (d.node? parent).isSome then d else d.put parent .directory) d

/-- Put something under a name in the working directory. -/
def place (d : Disk) (name : String) (n : Node) : Disk :=
  let l := d.home ++ (Path.ofString name).parts
  (d.makeParents l).put l n

def allowExecution (d : Disk) (name : String) : Disk :=
  let l := d.home ++ (Path.ofString name).parts
  match d.node? l with
  | some (.file text _) => d.put l (.file text true)
  | _ => d

/-- The greatest length of a part of a path, and of a path, in bytes. -/
def maxName : Nat := 255
def maxPath : Nat := 4096

/-- Follow parts from a location that has to be a directory; the last part need not exist. -/
def follow (d : Disk) : Location → List String → Except Fault Location
  | l, [] => .ok l
  | l, p :: r => match d.node? l with
    | none => .error .missing
    | some .directory =>
      if maxName < p.utf8ByteSize then .error .nameTooLong
      else d.follow (if p = ".." then l.dropLast else l ++ [p]) r
    | some _ => .error .notDirectory

def locate (d : Disk) (p : Path) : Except Fault Location :=
  if p.text.toList.contains '\x00' then .error .holdsNul
  else if maxPath ≤ p.text.utf8ByteSize then .error .nameTooLong
  else d.follow (if p.isAbsolute then [] else d.home) p.parts

/-- Open a file for appending; it is created if it is missing. -/
def openToAppend (d : Disk) (p : Path) : Except Fault (Location × Disk) := do
  let l ← d.locate p
  match d.node? l with
  | none => return (l, d.put l (.file "" false))
  | some .directory => throw .isDirectory
  | some _ => return (l, d)

def append (d : Disk) (l : Location) (text : String) : Disk :=
  match d.node? l with
  | some (.file old executable) => d.put l (.file (old ++ text) executable)
  | _ => d

def textAt (d : Disk) (l : Location) : Option String :=
  match d.node? l with
  | some (.file text _) => some text
  | _ => none

def textOf (d : Disk) (p : Path) : Option String :=
  match d.locate p with
  | .ok l => d.textAt l
  | .error _ => none

/-- The location that a path means when `..` takes away the part before it, whatever that is. -/
def resolve (d : Disk) (p : Path) : Location :=
  p.parts.foldl (fun l part => if part = ".." then l.dropLast else l ++ [part])
    (if p.isAbsolute then [] else d.home)

/-! ## Appending -/

theorem lookup_putNode (l : Location) (n : Node) :
    ∀ nodes : List (Location × Node), (putNode l n nodes).lookup l = some n
  | [] => by simp [putNode]
  | (k, m) :: r => by
    by_cases h : k = l
    · simp [putNode, h]
    · have hne : (l == k) = false := beq_eq_false_iff_ne.mpr (Ne.symm h)
      rw [putNode, if_neg h, List.lookup_cons, hne]
      exact lookup_putNode l n r

/-- Putting down what stands there already changes nothing. -/
theorem putNode_of_lookup {l : Location} {n : Node} : ∀ {nodes : List (Location × Node)},
    nodes.lookup l = some n → putNode l n nodes = nodes
  | [], h => by cases h
  | (k, m) :: r, h => by
    by_cases hk : k = l
    · subst hk
      rw [List.lookup_cons, beq_self_eq_true] at h
      cases h
      simp [putNode]
    · have hne : (l == k) = false := beq_eq_false_iff_ne.mpr (Ne.symm hk)
      rw [List.lookup_cons, hne] at h
      rw [putNode, if_neg hk, putNode_of_lookup h]

theorem node?_cons (d : Disk) (part : String) (l : Location) :
    d.node? (part :: l) = d.nodes.lookup (part :: l) := rfl

@[simp] theorem append_empty (d : Disk) (l : Location) : d.append l "" = d := by
  unfold append
  split
  · rename_i old executable h
    match l, h with
    | part :: l, h =>
      rw [String.append_empty, put, putNode_of_lookup h]
  · rfl

@[simp] theorem textAt_append (d : Disk) (l : Location) (s : String) :
    (d.append l s).textAt l = (d.textAt l).map (· ++ s) := by
  unfold append textAt
  cases h : d.node? l with
  | none => simp only [h, Option.map_none]
  | some n =>
    cases n with
    | file old executable =>
      match l, h with
      | part :: l, h => simp [put, node?_cons, lookup_putNode]
    | _ => simp only [h, Option.map_none]

end Disk

end TestRig
