/-!
# Tables

A table has named columns of one length. Each column has a type, and any of its cells may be empty.
A table is read in batches of rows.
-/

namespace RoadRouting.Dataset
set_option autoImplicit false

/-- The type of a column. -/
inductive ColumnType where
  | int64
  | int32
  | float64
  | float32
  | utf8
  | largeUtf8
  | bool
  /-- A type that no table of a dataset needs. -/
  | other (name : String)
  deriving DecidableEq, Repr

/-- The name of a type. -/
def ColumnType.name : ColumnType → String
  | .int64 => "Int64"
  | .int32 => "Int32"
  | .float64 => "Float64"
  | .float32 => "Float32"
  | .utf8 => "Utf8"
  | .largeUtf8 => "LargeUtf8"
  | .bool => "Boolean"
  | .other name => name

/-- The values of a type. Of a type that is not needed only matters which cells are empty; a column that
holds nothing but empty cells by its type counts none of them. -/
abbrev ColumnType.Value : ColumnType → Type
  | .int64 => Int64
  | .int32 => Int32
  | .float64 => Float
  | .float32 => Float32
  | .utf8 => String
  | .largeUtf8 => String
  | .bool => Bool
  | .other _ => Unit

/-- A named column. -/
structure Column where
  name : String
  type : ColumnType
  cells : List (Option type.Value)

namespace Column

/-- The number of cells. -/
def size (c : Column) : Nat := c.cells.length

/-- The first cells of a column. -/
def take (n : Nat) (c : Column) : Column := { c with cells := c.cells.take n }

/-- A column without its first cells. -/
def drop (n : Nat) (c : Column) : Column := { c with cells := c.cells.drop n }

/-- Whether a cell is empty. -/
def hasEmpty (c : Column) : Bool := c.cells.any (·.isNone)

end Column

/-- A table: columns with a cell for each row. -/
structure Table where
  rows : Nat
  columns : List Column
  even : ∀ c ∈ columns, c.size = rows

namespace Table

/-- The table of these columns, if there is one and they have one length. -/
def ofColumns? (columns : List Column) : Option Table :=
  match columns.head? with
  | none => none
  | some first =>
    if h : ∀ c ∈ columns, c.size = first.size then some ⟨first.size, columns, h⟩ else none

end Table

/-- Cuts the columns of `rows` rows into batches of `size` rows; the last one may be shorter. -/
def batchesOf (size rows : Nat) (columns : List Column) : List (List Column) :=
  if rows = 0 ∨ size = 0 then []
  else columns.map (.take size) :: batchesOf size (rows - size) (columns.map (.drop size))
termination_by rows
decreasing_by omega

/-- The batches in which a table is read. -/
def Table.batches (size : Nat) (t : Table) : List (List Column) := batchesOf size t.rows t.columns

end RoadRouting.Dataset
