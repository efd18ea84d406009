import DecimalSheet.Grid.Basic
import DecimalSheet.Proofs.Formula.Parsing

/-!
# Built grids

A grid that is built from a table holds at each of its addresses the cell of a raw value, so the
tree of a formula in it is the one that its text has.

## Main definitions

* `Grid.twoCycle`: the smallest grid in which two cells wait for each other

## Main results

* `Grid.exists_of_ofRaw`: the cells of a built grid
* `Grid.tree_of_ofRaw`: the trees of formulas in a built grid
-/

namespace DecimalSheet

theorem Content.tree_of_ofRaw {source : RawValue} {marker : Option String} {f : Formula}
    {tree : Expr} {references : Option (List Reference)}
    (h : Content.ofRaw source marker = .formula f tree references) : f.tree = .ok tree := by
  unfold Content.ofRaw Content.ofFormula Content.ofLiteral at h
  split at h
  · split at h
    · split at h <;> cases h
      assumption
    · split at h <;> cases h
  · split at h <;> cases h

/-- A formula that has just been read keeps no list of its references. -/
theorem Content.references_of_ofRaw {source : RawValue} {marker : Option String} {f : Formula}
    {tree : Expr} {references : Option (List Reference)}
    (h : Content.ofRaw source marker = .formula f tree references) : references = none := by
  unfold Content.ofRaw Content.ofFormula Content.ofLiteral at h
  split at h
  · split at h
    · split at h <;> cases h
      rfl
    · split at h <;> cases h
  · split at h <;> cases h

/-- A marked text with a tree makes a formula. -/
theorem Content.ofRaw_eq_formula {source : String} {marker : Option String} {tree : Expr}
    (hmarked : Formula.isMarked marker source = true)
    (htree : (⟨source, marker⟩ : Formula).tree = .ok tree) :
    Content.ofRaw (.text source) marker = .formula ⟨source, marker⟩ tree none := by
  rw [ofRaw, if_pos hmarked, ofFormula, htree]

/-- A text without the marker that says a number makes a literal. -/
theorem Content.ofRaw_eq_literal {source : String} {marker : Option String} {v : Decimal}
    (hmarked : Formula.isMarked marker source = false)
    (hliteral : Decimal.ofLiteral? source = some v) :
    Content.ofRaw (.text source) marker = .literal v := by
  rw [ofRaw, hmarked, if_neg (by decide), ofLiteral, Decimal.ofRaw, hliteral]
  rfl

namespace Grid

variable {g : Grid} {marker : Option String}

theorem exists_of_cellRow {width i j : Nat} {row : List RawValue} {c : Cell}
    (even : row.length = width) (h : ((cellRow marker i row).cast even)[j]? = some c) :
    ∃ source, c = Cell.ofRaw ⟨i, j⟩ source marker := by
  simp only [cellRow, Vector.getElem?_cast, Vector.getElem?_mk, Array.getElem?_mapIdx,
    Option.map_eq_some_iff] at h
  obtain ⟨source, -, rfl⟩ := h
  exact ⟨source, rfl⟩

theorem exists_of_ofEvenRows {width : Nat} {rows : List (List RawValue)}
    {even : ∀ row ∈ rows, row.length = width} {a : Address} {c : Cell}
    (h : (ofEvenRows marker width rows even).cell? a = some c) :
    ∃ source, c = Cell.ofRaw a source marker := by
  obtain ⟨row, hrow, hc⟩ := Option.bind_eq_some_iff.1 h
  -- The rows of the grid are those of the table, each with its own index.
  change (Vector.ofFn fun i : Fin rows.length => (cellRow marker i rows[i]).cast
    (even _ (List.getElem_mem _)))[a.row]? = some row at hrow
  rw [Vector.getElem?_ofFn] at hrow
  split at hrow
  · obtain rfl := Option.some.inj hrow
    exact exists_of_cellRow _ hc
  · cases hrow

/-- In a grid that is built from a table, each cell is that of a raw value. -/
theorem exists_of_ofRaw {table : RawValue} (h : ofRaw table marker = .ok g) {a : Address}
    {c : Cell} (hc : g.cell? a = some c) : ∃ source, c = Cell.ofRaw a source marker := by
  -- A table is refused unless it has a row, and rows of one length.
  unfold ofRaw at h
  split at h
  · cases h
  · unfold ofRows at h
    split at h
    · cases h
    · cases h
    · split at h
      · cases h
      · cases h
        exact exists_of_ofEvenRows hc

/-- The tree of a formula in a built grid is the one that its text has. -/
theorem tree_of_ofRaw {table : RawValue} (h : ofRaw table marker = .ok g) {a : Address} {c : Cell}
    (hc : g.cell? a = some c) {f : Formula} {tree : Expr} {references : Option (List Reference)}
    (hcontent : c.content = .formula f tree references) : f.tree = .ok tree := by
  obtain ⟨source, rfl⟩ := exists_of_ofRaw h hc
  exact Content.tree_of_ofRaw hcontent

/-- What a cell holds is read from its value. -/
theorem cell_eq_of_source {g' : Grid} {table table' : RawValue} (h : ofRaw table marker = .ok g)
    (h' : ofRaw table' marker = .ok g') {a : Address} {c c' : Cell} (hc : g.cell? a = some c)
    (hc' : g'.cell? a = some c') (hsource : c'.source = c.source) : c' = c := by
  obtain ⟨source, rfl⟩ := exists_of_ofRaw h hc
  obtain ⟨source', rfl⟩ := exists_of_ofRaw h' hc'
  obtain rfl : source' = source := hsource
  rfl

theorem cell?_eq_of_source {g' : Grid} {table table' : RawValue} (h : ofRaw table marker = .ok g)
    (h' : ofRaw table' marker = .ok g') {a : Address}
    (hsource : (g'.cell? a).map Cell.source = (g.cell? a).map Cell.source) :
    g'.cell? a = g.cell? a := by
  cases hc : g.cell? a with
  | none =>
    rw [hc, Option.map_none, Option.map_eq_none_iff] at hsource
    exact hsource
  | some c =>
    rw [hc, Option.map_some, Option.map_eq_some_iff] at hsource
    obtain ⟨c', hc', hsource⟩ := hsource
    rw [hc', cell_eq_of_source h h' hc hc' hsource]

/-! ## A grid with a cycle -/

/-- The table of two formulas, each of which refers to the cell of the other. -/
def twoCycleTable : RawValue := .sequence .square [.sequence .square [.text "=B1", .text "=A1"]]

/-- The grid of two cells, each of which refers to the other. -/
def twoCycle : Grid := ofEvenRows (some "=") 2 [[.text "=B1", .text "=A1"]] (by simp)

theorem ofRaw_twoCycleTable : ofRaw twoCycleTable (some "=") = .ok twoCycle := rfl

theorem cell?_twoCycle_left :
    twoCycle.cell? ⟨0, 0⟩ =
      some ⟨⟨0, 0⟩, .text "=B1", .formula ⟨"=B1", some "="⟩ (.cell ⟨0, 1⟩) none⟩ := by
  have htree : (⟨"=B1", some "="⟩ : Formula).tree = .ok (.cell ⟨0, 1⟩) :=
    Formula.tree_eq_cell (by cbv) rfl
  rw [← Content.ofRaw_eq_formula rfl htree]
  rfl

theorem cell?_twoCycle_right :
    twoCycle.cell? ⟨0, 1⟩ =
      some ⟨⟨0, 1⟩, .text "=A1", .formula ⟨"=A1", some "="⟩ (.cell ⟨0, 0⟩) none⟩ := by
  have htree : (⟨"=A1", some "="⟩ : Formula).tree = .ok (.cell ⟨0, 0⟩) :=
    Formula.tree_eq_cell (by cbv) rfl
  rw [← Content.ofRaw_eq_formula rfl htree]
  rfl

/-! ## A grid with a large quotient -/

/-- The text of a number whose fourth power is too large for a quotient in 53 significant bits. -/
def largeText : String :=
  "1000000000000000000000000000000000000000000000000000000000000000000000000000000"

/-- The fourth power of the number in the third cell of a row, divided by one. -/
def largeTree : Expr :=
  let c := Expr.cell ⟨0, 2⟩
  .binary .div (.binary .mul (.binary .mul (.binary .mul c c) c) c) (.number .one)

/-- The table of a cell that refers to a quotient, of the quotient, and of what it is made of. -/
def largeTable : RawValue :=
  .sequence .square [.sequence .square [.text "=B1", .text "=C1*C1*C1*C1/1", .text largeText]]

/-- The grid of the table `largeTable`. -/
def large : Grid := ⟨1, 3, #v[#v[
  ⟨⟨0, 0⟩, .text "=B1", .formula ⟨"=B1", some "="⟩ (.cell ⟨0, 1⟩) none⟩,
  ⟨⟨0, 1⟩, .text "=C1*C1*C1*C1/1", .formula ⟨"=C1*C1*C1*C1/1", some "="⟩ largeTree none⟩,
  ⟨⟨0, 2⟩, .text largeText, .literal ⟨false, 10 ^ 78, 0⟩⟩]]⟩

theorem tree_largeTree : (⟨"=C1*C1*C1*C1/1", some "="⟩ : Formula).tree = .ok largeTree := by
  have hts : (⟨"=C1*C1*C1*C1/1", some "="⟩ : Formula).tokens = .ok
      [⟨.reference "C1", 0⟩, ⟨.times, 2⟩, ⟨.reference "C1", 3⟩, ⟨.times, 5⟩, ⟨.reference "C1", 6⟩,
        ⟨.times, 8⟩, ⟨.reference "C1", 9⟩, ⟨.divide, 11⟩, ⟨.number .one, 12⟩] := by cbv
  have hcell : IsFactor 0 [.reference "C1"] (.cell ⟨0, 2⟩) := .atom (.cell rfl)
  have hsquare := (IsProduct.factor hcell).operator (t := .times) rfl hcell
  have hfourth := (hsquare.operator (t := .times) rfl hcell).operator (t := .times) rfl hcell
  have hone : IsFactor 0 [.number .one] (.number .one) := .atom .number
  have hquotient := hfourth.operator (t := .divide) rfl hone
  exact (Formula.tree_eq_ok_iff hts).2 (parse_eq_ok_iff.2 ⟨_, by decide, .product hquotient⟩)

theorem ofRaw_largeTable : ofRaw largeTable (some "=") = .ok large := by
  have hcell : (⟨"=B1", some "="⟩ : Formula).tree = .ok (.cell ⟨0, 1⟩) :=
    Formula.tree_eq_cell (by cbv) rfl
  have hmarked : Formula.isMarked (some "=") largeText = false := by decide
  have hnumber : Decimal.ofLiteral? largeText = some ⟨false, 10 ^ 78, 0⟩ := by decide +kernel
  rw [large, ← Content.ofRaw_eq_formula rfl hcell, ← Content.ofRaw_eq_formula rfl tree_largeTree,
    ← Content.ofRaw_eq_literal hmarked hnumber]
  rfl

end Grid

end DecimalSheet
