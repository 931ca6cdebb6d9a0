/-!
# Paths

A path is kept as it is spelled, so that messages show the spelling. What it leads to depends only on
its location: empty parts and single dots count for nothing, and two dots lead back to the directory
above.
-/

namespace RoadRouting.Store
set_option autoImplicit false

/-- The names of the directories and of the entry that one passes from the root downwards. -/
abbrev Location := List String

/-- A path: what stands between its slashes. -/
structure Path where
  parts : List String
  deriving DecidableEq, Hashable, Repr, Inhabited

namespace Path

/-- The path that a text spells. -/
def ofText (s : String) : Path := ⟨s.splitOn "/"⟩

/-- The path as text. -/
def text (p : Path) : String := "/".intercalate p.parts

/-- A path continued by another one. A path that ends in a slash needs no further one. -/
def append (p q : Path) : Path :=
  ⟨(if p.parts.getLast? = some "" then p.parts.dropLast else p.parts) ++ q.parts⟩

/-- The path of an entry of a directory. -/
def child (p : Path) (name : String) : Path := p.append ⟨[name]⟩

/-- Whether a part of a path keeps to where one is. -/
def isIdle (part : String) : Bool := part = "" || part = "."

/-- Where a part of a path leads from a location. -/
def move (here : Location) (part : String) : Location :=
  if isIdle part then here else if part = ".." then here.dropLast else here ++ [part]

/-- Where the path leads. -/
def location (p : Path) : Location := p.parts.foldl move []

/-- The path without idle parts at its end. -/
def core (p : Path) : Path := ⟨(p.parts.reverse.dropWhile isIdle).reverse⟩

/-- The directory that an entry is in. -/
def parent (p : Path) : Path := core ⟨p.core.parts.dropLast⟩

/-- The last part of a path, slashes at its end apart. -/
def ending? (p : Path) : Option String := (p.parts.reverse.dropWhile (· = "")).head?

/-- Whether a path ends in one dot or two. -/
def endsInDots (p : Path) : Bool := p.ending? = some "." || p.ending? = some ".."

/-- Whether a path can be used at all: no part holds a zero byte. -/
def isUsable (p : Path) : Bool := p.parts.all fun part => !part.toList.contains '\x00'

/-- Whether a part of a path can name an entry: at most 255 bytes. -/
def isName (part : String) : Bool := part.utf8ByteSize ≤ 255

end Path
end RoadRouting.Store
