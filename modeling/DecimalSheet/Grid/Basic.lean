import DecimalSheet.Event
import DecimalSheet.Grid.Cell

/-!
# Grids

A grid is a rectangle of cells with at least one row and one column. It is built from rows of raw
values, row by row, and a value that cannot be read makes an unreadable cell, not an unreadable
grid. Only a table that is no such rectangle makes no grid.

## Main definitions

* `Grid`: a rectangle of cells
* `GridError`: why a table makes no grid
* `Grid.ofRows`, `Grid.ofRaw`: building
* `Grid.cell?`, `Grid.find`: the cell at an address
* `Grid.rowAddresses`, `Grid.addresses`: the addresses, in row-major order
* `Grid.listed`, `Grid.withTree`: the grid after the references have been listed, and with another
  tree for a formula

## Main results

* `Grid.isSome_cell?`: there is a cell exactly at the addresses inside of the grid
-/

namespace DecimalSheet

/-- A rectangle of cells. -/
structure Grid where
  height : Nat
  width : Nat
  rows : Vector (Vector Cell width) height

/-- Why a table makes no grid. -/
inductive GridError where
  /-- The value is not a collection of rows. -/
  | notRows (value : RawValue)
  | noRows
  | noColumns
  /-- A row, counted from one, does not have as many cells as the first row. -/
  | unevenRow (row cells expected : Nat)

/-- What is wrong with a table. -/
def GridError.message : GridError → String
  | notRows value => "Expected rows of cells: " ++ value.display
  | noRows => "Grid has no rows"
  | noColumns => "Grid has no columns"
  | unevenRow row cells expected =>
    "Row " ++ toString row ++ " has " ++ toString cells ++ " cells, expected " ++ toString expected

namespace Grid

/-! ## Building -/

/-- The number of the first row that is not as long as it should be, counted from zero, and its
length. -/
def firstUneven? (width : Nat) : List (List RawValue) → Option (Nat × Nat)
  | [] => none
  | row :: rows =>
    if row.length = width then (firstUneven? width rows).map fun uneven => (uneven.1 + 1, uneven.2)
    else some (0, row.length)

/-- The cells of a row. -/
def cellRow (marker : Option String) (i : Nat) (row : List RawValue) : Vector Cell row.length :=
  ⟨row.toArray.mapIdx fun j source => Cell.ofRaw ⟨i, j⟩ source marker, by simp⟩

/-- The grid over rows of one length. -/
def ofEvenRows (marker : Option String) (width : Nat) (rows : List (List RawValue))
    (even : ∀ row ∈ rows, row.length = width) : Grid where
  height := rows.length
  width := width
  rows := Vector.ofFn fun i => (cellRow marker i rows[i]).cast (even _ (List.getElem_mem _))

theorem firstUneven?_eq_none {width : Nat} {rows : List (List RawValue)}
    (h : firstUneven? width rows = none) : ∀ row ∈ rows, row.length = width := by
  induction rows with
  | nil => simp
  | cons row rows ih =>
    rw [firstUneven?] at h
    split at h
    · rw [Option.map_eq_none_iff] at h
      simpa [*] using ih h
    · cases h

/-- The grid over the rows, or what is wrong with them. -/
def ofRows (rows : List (List RawValue)) (marker : Option String) : Except GridError Grid :=
  match rows with
  | [] => .error .noRows
  | [] :: _ => .error .noColumns
  | row :: others =>
    -- The first row says how long the rows should be.
    match h : firstUneven? row.length (row :: others) with
    | some uneven => .error (.unevenRow (uneven.1 + 1) uneven.2 row.length)
    | none => .ok (ofEvenRows marker row.length (row :: others) (firstUneven?_eq_none h))

/-- A row of a table: the members of a collection, and any other value by itself. -/
def rowOfRaw (v : RawValue) : List RawValue := v.items?.getD [v]

/-- The grid over a table, or what is wrong with it. -/
def ofRaw (table : RawValue) (marker : Option String) : Except GridError Grid :=
  match table.items? with
  | none => .error (.notRows table)
  | some rows => ofRows (rows.map rowOfRaw) marker

/-! ## Cells and addresses -/

/-- The number of cells. -/
def size (g : Grid) : Nat := g.height * g.width

/-- The address lies inside of the grid. -/
def Contains (g : Grid) (a : Address) : Prop := a.IsWithin g.height g.width

instance (g : Grid) (a : Address) : Decidable (g.Contains a) :=
  inferInstanceAs (Decidable (a.IsWithin _ _))

/-- The cell at an address, if it lies inside of the grid. -/
def cell? (g : Grid) (a : Address) : Option Cell :=
  g.rows[a.row]?.bind fun row => row[a.col]?

theorem isSome_cell? {g : Grid} {a : Address} : (g.cell? a).isSome ↔ g.Contains a := by
  unfold cell? Contains Address.IsWithin
  by_cases hrow : a.row < g.height <;> simp [hrow]

/-- The cell at an address, which has to lie inside of the grid. -/
def find (g : Grid) (a : Address) : Except Fault Cell :=
  (g.cell? a).elim (.error (.outsideGrid a)) .ok

/-- The cells, row by row. -/
def cellRows (g : Grid) : List (List Cell) := g.rows.toList.map (·.toList)

/-- The cells, in row-major order. -/
def cells (g : Grid) : List Cell := g.cellRows.flatten

/-- The addresses, row by row. -/
def rowAddresses (g : Grid) : List (List Address) :=
  (List.range g.height).map fun i => (List.range g.width).map fun j => ⟨i, j⟩

/-- The addresses, in row-major order. -/
def addresses (g : Grid) : List Address := g.rowAddresses.flatten

/-- The raw values, row by row. -/
def rawRows (g : Grid) : List (List RawValue) := g.cellRows.map fun row => row.map (·.source)

/-- The grid whose cells keep the lists of their references. -/
def listed (g : Grid) : Grid := { g with rows := g.rows.map fun row => row.map Cell.listed }

/-- Why a formula cannot be given another tree. -/
inductive TreeError where
  | fault (fault : Fault)
  /-- The cell has no formula. -/
  | noFormula

/-- What is wrong with giving a formula another tree. -/
def TreeError.message : TreeError → String
  | fault f => f.message
  | noFormula => "'NoneType' object has no attribute '_ast'"

/-- The grid with another cell at an address. -/
def withCell (g : Grid) (a : Address) (c : Cell) : Grid :=
  { g with rows := g.rows.mapIdx fun i row => row.mapIdx fun j old =>
      if Address.mk i j = a then c else old }

/-- The grid with another tree for the formula at an address. -/
def withTree (g : Grid) (a : Address) (tree : Expr) : Except TreeError Grid := do
  let c ← (g.find a).mapError .fault
  (c.withTree? tree).elim (.error .noFormula) fun c => .ok (g.withCell a c)

/-- The grid as a summary shows it. -/
def summary (g : Grid) : String :=
  "Grid<" ++ toString g.height ++ "x" ++ toString g.width ++ ">"

/-- What happens while the grid is built: every unreadable cell is told. -/
def events (g : Grid) : List Event :=
  g.cells.filterMap (fun c => c.error?.map (Event.unreadable c.address)) ++
    [.built g.height g.width]

end Grid

end DecimalSheet
