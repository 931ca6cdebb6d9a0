import RoadRouting.Store.Path
import Std.Data.HashMap

/-!
# Files

A tree of directories and files of any content, addressed by paths. A path leads somewhere only if all
that it passes are directories; so a path that ends in a slash or a dot leads to no file. An operation
on a file that cannot be done answers nothing. One that walks a tree tells whether it got to its end,
and keeps what it did up to there.
-/

namespace RoadRouting.Store
set_option autoImplicit false

/-- What is found at a location. -/
inductive Item (γ : Type) where
  | directory
  | file (content : γ)

/-- A tree of files. The root directory is always there. -/
structure Files (γ : Type) where
  items : Std.HashMap Location (Item γ)

namespace Files
variable {γ : Type}

/-- The tree without files. -/
def empty : Files γ := ⟨∅⟩

/-- What is found at a location. -/
def at? (f : Files γ) (here : Location) : Option (Item γ) :=
  if here = [] then some .directory else f.items[here]?

/-- Whether there is a directory at a location. -/
def hasDirectory (f : Files γ) (here : Location) : Bool :=
  match f.at? here with
  | some .directory => true
  | _ => false

/-- Whether one can pass along the parts of a path: each of them starts from a directory. -/
def passes (f : Files γ) : Location → List String → Bool
  | _, [] => true
  | here, part :: rest =>
    f.hasDirectory here && Path.isName part && passes f (Path.move here part) rest

/-- Where a path leads, if one can pass along it. Nothing need be there yet. -/
def locate? (f : Files γ) (p : Path) : Option Location :=
  if p.isUsable && f.passes [] p.parts then some p.location else none

/-- What a path leads to. -/
def item? (f : Files γ) (p : Path) : Option (Item γ) := (f.locate? p).bind f.at?

/-- The content of a file. -/
def read? (f : Files γ) (p : Path) : Option γ :=
  match f.item? p with
  | some (.file content) => some content
  | _ => none

/-- Whether the path leads to a file. -/
def isFile (f : Files γ) (p : Path) : Bool := (f.read? p).isSome

/-- Whether the path leads to a directory. -/
def isDirectory (f : Files γ) (p : Path) : Bool :=
  match f.item? p with
  | some .directory => true
  | _ => false

/-- Puts something at a location. -/
def put (f : Files γ) (here : Location) (item : Item γ) : Files γ := ⟨f.items.insert here item⟩

/-- Passes along the parts of a path and makes the directories that are not there, up to a part where
there is a file or none can be made. -/
def make (f : Files γ) : Location → List String → Bool × Files γ
  | _, [] => (true, f)
  | here, part :: rest =>
    let there := Path.move here part
    match f.at? there with
    | some .directory => make f there rest
    | some (.file _) => (false, f)
    | none => if Path.isName part then make (f.put there .directory) there rest else (false, f)

/-- Makes a directory and those above it. A directory that is named with a dot at the end is not made
itself. -/
def makeDirectories (f : Files γ) (p : Path) : Bool × Files γ :=
  if !p.isUsable then (false, f)
  else if p.ending? = some "." then
    let (ok, f) := f.make [] p.parent.parts
    (ok && f.isDirectory p, f)
  else f.make [] p.parts

/-- Writes a file in a directory that is there; a file of that name is replaced. -/
def write? (f : Files γ) (p : Path) (content : γ) : Option (Files γ) :=
  match f.locate? p with
  | some here => if f.hasDirectory here then none else some (f.put here (.file content))
  | none => none

/-- Removes a file. -/
def remove? (f : Files γ) (p : Path) : Option (Files γ) :=
  if f.isFile p then some ⟨f.items.erase p.location⟩ else none

/-- Removes what a directory holds. -/
def clear (f : Files γ) (here : Location) : Files γ :=
  ⟨f.items.filter fun there _ => !here.isPrefixOf there || there = here⟩

/-- Removes a directory with all that it holds. A directory that is named with dots at the end stays;
this passes only if the path then leads nowhere, because it went through what was removed. -/
def removeTree (f : Files γ) (p : Path) : Bool × Files γ :=
  if f.isDirectory p then
    let cleared := f.clear p.location
    if p.endsInDots then (!cleared.isDirectory p, cleared)
    else (true, ⟨cleared.items.erase p.location⟩)
  else (false, f)

/-- Copies a file. The target is emptied first, so a file that is copied to where it is becomes
empty. -/
def copy? [EmptyCollection γ] (f : Files γ) (source target : Path) : Option (Files γ) := do
  let content ← f.read? source
  f.write? target (if source.location = target.location then ∅ else content)

/-- The names of a directory's entries, in ascending order. -/
def names (f : Files γ) (directory : Path) : List String :=
  if f.isDirectory directory then
    let entries := f.items.keys.filterMap fun here =>
      if here.dropLast = directory.location then here.getLast? else none
    entries.mergeSort (· ≤ ·)
  else []

/-- The locations of all files within a directory, in ascending order. -/
def within (f : Files γ) (directory : Path) : List Location :=
  let files := f.items.keys.filter fun here =>
    directory.location.isPrefixOf here && (f.at? here matches some (.file _))
  files.mergeSort fun a b => (compare a b).isLE

end Files
end RoadRouting.Store
