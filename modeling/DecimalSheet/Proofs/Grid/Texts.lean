import DecimalSheet.Proofs.Grid.Tables

/-!
# Grids of texts

Whatever the texts of a rectangle are, they make a grid. Each text is read as a number or as a
formula, and one that is neither makes a cell with the fault that has been found, which is told of
this cell; it does not keep the other texts from being read. Only rows that are no rectangle make
no grid, and it is told what is wrong with the first of them that does not fit.

## Main definitions

* `FaultKind.ofReading`: the kinds of faults that a text may have
* `Fault.IsOfReading`: the faults that a text may have
* `Reading`, `Cell.IsReadAs`: the ways to read a text, and what a cell shows of each
* `IsRectangle rows`: rows of one length, with at least one member
* `GridError.Explains e rows`: the error tells why the rows are no rectangle

## Main results

* `Content.isOfReading_of_ofRaw`: what is wrong with a raw value lies in a number, in a character or
  in the order of the tokens
* `Cell.existsUnique_isReadAs`: every text is read in exactly one way
* `Grid.exists_ofRows_eq_error`: rows that are no rectangle are refused with an explanation
* `Grid.ofRaw_texts_total`: rows of texts make the grid of their cells, or are refused
-/

namespace DecimalSheet

/-! ## Faults of a text -/

/-- The kinds of faults for which a text is neither a number nor a formula. -/
def FaultKind.ofReading : List FaultKind :=
  [invalidNumber, strayCharacter, misplacedToken, rangeAsValue]

/-- The faults for which a text is neither a number nor a formula. -/
inductive Fault.IsOfReading : Fault → Prop
  | invalidNumber (value : RawValue) : IsOfReading (.invalidNumber value)
  | strayCharacter (position : Nat) (character : Char) :
    IsOfReading (.strayCharacter position character)
  | misplacedToken (expected found : String) (position : Nat) :
    IsOfReading (.misplacedToken expected found position)
  | rangeAsValue (reference : String) (position : Option Nat) :
    IsOfReading (.rangeAsValue reference position)

namespace Fault.IsOfReading

variable {fault : Fault}

theorem kind_mem (h : fault.IsOfReading) : fault.kind ∈ FaultKind.ofReading := by
  cases h <;> simp [kind, FaultKind.ofReading]

/-- What is wrong with a text does not tell by itself in which cell the text stands. -/
theorem ownOrigin?_eq (h : fault.IsOfReading) : fault.ownOrigin? = none := by
  cases h <;> rfl

end Fault.IsOfReading

/-- The fault of a text that is cut into tokens lies in a number or in a character. -/
theorem Token.isOfReading_of_scanFrom {position : Nat} {cs : List Char} {fault : Fault}
    (h : scanFrom position cs = .error fault) : fault.IsOfReading := by
  fun_induction scanFrom position cs with
  | case1 => cases h
  | case2 position c rest hblank ih => exact ih h
  | case3 position c rest hblank t ht ih => exact ih (eq_error_of_map_eq_error h)
  | case4 position c rest =>
    cases h
    exact .invalidNumber _
  | case5 position c rest hblank hnone hnumeric run d hd ih => exact ih (eq_error_of_map_eq_error h)
  | case6 position c rest hblank hnone hnumeric halpha run ih =>
    exact ih (eq_error_of_map_eq_error h)
  | case7 position c rest =>
    cases h
    exact .strayCharacter _ _

theorem Formula.isOfReading_of_tree {f : Formula} {fault : Fault} (h : f.tree = .error fault) :
    fault.IsOfReading := by
  unfold tree at h
  split at h
  · -- the text has no tokens
    rename_i fault' htokens
    obtain rfl := Except.error.inj h
    exact Token.isOfReading_of_scanFrom htokens
  · split at h
    · rename_i failure hparse
      obtain rfl := Except.error.inj h
      rcases failure.exists_fault_eq _ f.body.length with ⟨_, _, _, hcase⟩ | ⟨_, _, hcase⟩
      · exact hcase ▸ .misplacedToken _ _ _
      · exact hcase ▸ .rangeAsValue _ _
    · cases h

theorem Decimal.isOfReading_of_ofRaw {source : RawValue} {fault : Fault}
    (h : Decimal.ofRaw source = .error fault) : fault.IsOfReading := by
  unfold Decimal.ofRaw at h
  split at h
  · rename_i text
    cases hvalue : ofLiteral? text with
    | none =>
      rw [hvalue] at h
      cases h
      exact .invalidNumber _
    | some value =>
      rw [hvalue] at h
      cases h
  · cases h
    exact .invalidNumber _

/-- What is wrong with a raw value lies in a number, in a character or in the order of tokens. -/
theorem Content.isOfReading_of_ofRaw {source : RawValue} {marker : Option String}
    {formula : Option Formula} {fault : Fault}
    (h : ofRaw source marker = .unreadable formula fault) : fault.IsOfReading := by
  have hliteral : ofLiteral source = .unreadable formula fault → fault.IsOfReading := by
    intro h
    unfold ofLiteral at h
    split at h
    · cases h
    · rename_i fault' hfault
      cases h
      exact Decimal.isOfReading_of_ofRaw hfault
  unfold ofRaw at h
  split at h
  · split at h
    · unfold ofFormula at h
      split at h
      · cases h
      · rename_i fault' htree
        cases h
        exact Formula.isOfReading_of_tree htree
    · exact hliteral h
  · exact hliteral h

/-! ## Readings of a text -/

/-- The ways to read a text. -/
inductive Reading where
  | number
  | formula
  /-- The text is neither of the two. -/
  | neither

namespace Cell

/-- The formula of a cell, also of one that could not be read. -/
def formula? (c : Cell) : Option Formula :=
  match c.content with
  | .literal _ => none
  | .formula f .. => some f
  | .unreadable f _ => f

/-- What a cell shows of a text that has been read as a number, as a formula, or as neither. -/
def IsReadAs (s : String) (marker : Option String) (c : Cell) : Reading → Prop
  | .number => c.formula? = none ∧ c.error? = none ∧
      ∃ v, c.value? = some v ∧ Decimal.ofLiteral? s = some v
  | .formula => c.value? = none ∧ c.error? = none ∧ c.isFormula = true ∧
      ∃ tree, c.content = .formula ⟨s, marker⟩ tree none ∧
        (⟨s, marker⟩ : Formula).tree = .ok tree
  | .neither => c.value? = none ∧ c.isFormula = false ∧
      ∃ fault, c.error? = some ⟨fault, some c.address⟩ ∧ fault.kind ∈ FaultKind.ofReading

variable {a : Address} {s : String} {marker : Option String} {c : Cell}

/-- A cell that cannot be read shows its fault, which is told of the cell itself. -/
theorem isReadAs_neither {formula : Option Formula} {fault : Fault}
    (hcontent : c.content = .unreadable formula fault)
    (hfault : fault.IsOfReading) : c.IsReadAs s marker .neither := by
  refine ⟨?_, ?_, fault, ?_, hfault.kind_mem⟩
  · rw [value?, hcontent]
  · rw [isFormula, hcontent]
  · rw [error?, hcontent]
    simp [CellError.ofFault, CellError.tag, hfault.ownOrigin?_eq]

/-- A text with the marker is read as a formula, or it has a fault. -/
theorem exists_isReadAs_of_ofFormula (hcontent : c.content = Content.ofFormula ⟨s, marker⟩) :
    ∃ r, c.IsReadAs s marker r := by
  unfold Content.ofFormula at hcontent
  cases htree : (⟨s, marker⟩ : Formula).tree with
  | ok tree =>
    rw [htree] at hcontent
    exact ⟨.formula, by rw [value?, hcontent], by rw [error?, hcontent],
      by rw [isFormula, hcontent], tree, hcontent, htree⟩
  | error fault =>
    rw [htree] at hcontent
    exact ⟨.neither, isReadAs_neither hcontent (Formula.isOfReading_of_tree htree)⟩

/-- A text without the marker is read as a number, or it has a fault. -/
theorem exists_isReadAs_of_ofLiteral (hcontent : c.content = Content.ofLiteral (.text s)) :
    ∃ r, c.IsReadAs s marker r := by
  unfold Content.ofLiteral at hcontent
  cases hvalue : Decimal.ofLiteral? s with
  | some v =>
    have hraw : Decimal.ofRaw (.text s) = .ok v := by rw [Decimal.ofRaw, hvalue, Option.elim_some]
    rw [hraw] at hcontent
    exact ⟨.number, by rw [formula?, hcontent], by rw [error?, hcontent], v,
      by rw [value?, hcontent], hvalue⟩
  | none =>
    have hraw : Decimal.ofRaw (.text s) = .error (.invalidNumber (.text s)) := by
      rw [Decimal.ofRaw, hvalue, Option.elim_none]
    rw [hraw] at hcontent
    exact ⟨.neither, isReadAs_neither hcontent (Decimal.isOfReading_of_ofRaw hraw)⟩

/-- A number has no error and is no formula, a formula has no error, and a fault is neither. -/
theorem IsReadAs.unique {r r' : Reading} (h : c.IsReadAs s marker r) (h' : c.IsReadAs s marker r') :
    r' = r := by
  cases r <;> cases r' <;> simp_all [IsReadAs]

/-- Every text is read in exactly one way. -/
theorem existsUnique_isReadAs (a : Address) (s : String) (marker : Option String) :
    ∃! r, (ofRaw a (.text s) marker).IsReadAs s marker r := by
  have hreading : ∃ r, (ofRaw a (.text s) marker).IsReadAs s marker r := by
    by_cases hmarked : Formula.isMarked marker s = true
    · exact exists_isReadAs_of_ofFormula (if_pos hmarked)
    · exact exists_isReadAs_of_ofLiteral (if_neg hmarked)
  obtain ⟨r, hr⟩ := hreading
  exact ⟨r, hr, fun r' hr' => hr.unique hr'⟩

/-- The cell has the address and keeps the text, which it has read in exactly one way. -/
structure IsOf (a : Address) (s : String) (marker : Option String) (c : Cell) : Prop where
  address : c.address = a
  source : c.source = .text s
  reading : ∃! r, c.IsReadAs s marker r

theorem isOf_ofRaw (a : Address) (s : String) (marker : Option String) :
    (ofRaw a (.text s) marker).IsOf a s marker where
  address := rfl
  source := rfl
  reading := existsUnique_isReadAs a s marker

end Cell

/-! ## Rows that are no rectangle -/

section Rectangles

variable {α β : Type}

/-- Rows of one length, at least one row with at least one member. -/
def IsRectangle (rows : List (List α)) : Prop :=
  rows ≠ [] ∧ ∃ width, 0 < width ∧ ∀ row ∈ rows, row.length = width

/-- The error tells why rows of the given lengths are no rectangle. It is the first row whose length
is not that of the first row of all. -/
def GridError.Explains (lengths : List Nat) : GridError → Prop
  | notRows _ => False
  | noRows => lengths = []
  | noColumns => lengths.head? = some 0
  | unevenRow number cells expected => ∃ i, number = i + 1 ∧
      lengths.head? = some expected ∧ 0 < expected ∧ lengths[i]? = some cells ∧ cells ≠ expected ∧
      ∀ length ∈ lengths.take i, length = expected

/-- The member of a row at the place of an address. -/
def memberAt? (rows : List (List α)) (a : Address) : Option α :=
  rows[a.row]?.bind fun row => row[a.col]?

theorem exists_memberAt? {rows : List (List α)} {width : Nat}
    (heven : ∀ row ∈ rows, row.length = width) {a : Address}
    (ha : a.IsWithin rows.length width) : ∃ x, memberAt? rows a = some x := by
  obtain ⟨hrow, hcol⟩ := ha
  have hlength : a.col < rows[a.row].length := by rwa [heven _ (List.getElem_mem hrow)]
  refine ⟨rows[a.row][a.col], ?_⟩
  rw [memberAt?, List.getElem?_eq_getElem hrow, Option.bind_some, List.getElem?_eq_getElem hlength]

end Rectangles

namespace Grid

variable {marker : Option String} {width : Nat} {rows : List (List RawValue)}

/-- The first row that is too long or too short is found. -/
theorem firstUneven?_eq_some {i cells : Nat} (h : firstUneven? width rows = some (i, cells)) :
    (rows.map List.length)[i]? = some cells ∧ cells ≠ width ∧
      ∀ length ∈ (rows.map List.length).take i, length = width := by
  induction rows generalizing i with
  | nil => cases h
  | cons row rows ih =>
    rw [firstUneven?] at h
    split at h
    · rename_i hrow
      obtain ⟨⟨i', cells'⟩, hrest, heq⟩ := Option.map_eq_some_iff.1 h
      obtain ⟨rfl, rfl⟩ := Prod.mk.inj heq
      obtain ⟨hcells, hne, hbefore⟩ := ih hrest
      exact ⟨hcells, hne, List.forall_mem_cons.2 ⟨hrow, hbefore⟩⟩
    · rename_i hrow
      obtain ⟨rfl, rfl⟩ := Prod.mk.inj (Option.some.inj h)
      exact ⟨rfl, hrow, List.forall_mem_nil _⟩

/-- Rows that are no rectangle are refused, and it is told why. -/
theorem exists_ofRows_eq_error (h : ¬IsRectangle rows) :
    ∃ e, ofRows rows marker = .error e ∧ e.Explains (rows.map List.length) := by
  match rows with
  | [] => exact ⟨.noRows, rfl, rfl⟩
  | [] :: _ => exact ⟨.noColumns, rfl, rfl⟩
  | (source :: sources) :: others =>
    unfold ofRows
    dsimp only
    split
    · rename_i uneven huneven
      obtain ⟨hcells, hne, hbefore⟩ := firstUneven?_eq_some huneven
      exact ⟨_, rfl, uneven.1, rfl, rfl, Nat.succ_pos _, hcells, hne, hbefore⟩
    · rename_i heven
      exact absurd ⟨List.cons_ne_nil _ _, _, Nat.succ_pos _, firstUneven?_eq_none heven⟩ h

/-! ## Rows that are a rectangle -/

theorem rawRows_ofEvenRows (even : ∀ row ∈ rows, row.length = width) :
    (ofEvenRows marker width rows even).rawRows = rows := by
  refine List.ext_getElem (by simp [rawRows, cellRows, ofEvenRows]) fun i hi hi' => ?_
  refine List.ext_getElem (by simp [rawRows, cellRows, ofEvenRows, cellRow]) fun j hj hj' => ?_
  simp [rawRows, cellRows, ofEvenRows, cellRow, Cell.ofRaw]

/-- A grid gives back the rows from which it is built. -/
theorem rawRows_of_ofRows {g : Grid} (h : ofRows rows marker = .ok g) : g.rawRows = rows := by
  unfold ofRows at h
  split at h
  · cases h
  · cases h
  · split at h
    · cases h
    · cases h
      exact rawRows_ofEvenRows _

theorem find_eq_ok {g : Grid} {a : Address} {c : Cell} (h : g.cell? a = some c) :
    g.find a = .ok c := by
  rw [find, h, Option.elim_some]

theorem find_eq_error {g : Grid} {a : Address} (h : ¬g.Contains a) :
    g.find a = .error (.outsideGrid a) := by
  rw [← isSome_cell?, Option.not_isSome_iff_eq_none] at h
  rw [find, h, Option.elim_none]

/-- Whatever the texts and the marker are, rows of texts are a grid if they are a rectangle. At each
address it has the cell of the text at this place, which has read the text as a number or as a
formula or else tells its own fault, and what is found at an address, however this is spelled, is
the cell there or that the address lies outside of the grid. Rows that are no rectangle are
refused. -/
theorem ofRaw_texts_total (outer inner : Brackets) (texts : List (List String))
    (marker : Option String) :
    (IsRectangle texts → ∃ g, ofRaw (.ofTexts outer inner texts) marker = .ok g ∧
      g.height = texts.length ∧ (∀ row ∈ texts, row.length = g.width) ∧
      g.rawRows = (texts.map fun row => row.map .text) ∧
      (∀ a, g.Contains a → ∃ s c, memberAt? texts a = some s ∧ g.cell? a = some c ∧
        c.IsOf a s marker) ∧
      ∀ v a, Address.ofRaw v = .ok a →
        (g.Contains a → ∃ s c, memberAt? texts a = some s ∧ g.find a = .ok c ∧
          c.IsOf a s marker) ∧
        (¬g.Contains a → g.find a = .error (.outsideGrid a))) ∧
    (¬IsRectangle texts → ∃ e, ofRaw (.ofTexts outer inner texts) marker = .error e ∧
      e.Explains (texts.map List.length)) := by
  constructor
  · rintro ⟨hne, width, hwidth, heven⟩
    obtain ⟨g, hgrid, hheight, rfl, hcells⟩ :=
      exists_ofTexts hne hwidth heven outer inner marker
    have hcell : ∀ a, g.Contains a → ∃ s c, memberAt? texts a = some s ∧ g.cell? a = some c ∧
        c.IsOf a s marker := by
      intro a ha
      have hwithin : a.IsWithin g.height g.width := ha
      obtain ⟨s, hs⟩ := exists_memberAt? heven (hheight ▸ hwithin)
      obtain ⟨row, hrow, hcol⟩ := Option.bind_eq_some_iff.1 hs
      exact ⟨s, _, hs, hcells a.row a.col row s hrow hcol, Cell.isOf_ofRaw a s marker⟩
    refine ⟨g, hgrid, hheight, heven, ?_, hcell, fun v a _ => ⟨fun ha => ?_, find_eq_error⟩⟩
    · rw [ofRaw_ofTexts] at hgrid
      exact rawRows_of_ofRows hgrid
    · obtain ⟨s, c, hs, hc, hof⟩ := hcell a ha
      exact ⟨s, c, hs, find_eq_ok hc, hof⟩
  · intro hrows
    have hmap : (texts.map fun row => row.map RawValue.text).map List.length =
        texts.map List.length := by simp
    have hraw : ¬IsRectangle (texts.map fun row => row.map RawValue.text) := by
      rintro ⟨hne, width, hwidth, heven⟩
      refine hrows ⟨by simpa using hne, width, hwidth, fun row hrow => ?_⟩
      rw [← heven _ (List.mem_map_of_mem hrow), List.length_map]
    rw [ofRaw_ofTexts, ← hmap]
    exact exists_ofRows_eq_error hraw

/-- A number, a reference, the beginning of a sum and a text that is neither make a grid, in which
the second row is found by the text of its first cell. Without the last text they make none. -/
theorem ofRaw_texts_total_mixed :
    (∃ g, ofRaw (.ofTexts .round .square [["1", "=A1"], ["=1+", "x"]]) (some "=") = .ok g ∧
      Address.ofRaw (.text " a2") = .ok ⟨1, 0⟩ ∧ g.Contains ⟨1, 0⟩ ∧
      ∃ c, g.find ⟨1, 0⟩ = .ok c ∧ c.IsOf ⟨1, 0⟩ "=1+" (some "=")) ∧
    ∃ e, ofRaw (.ofTexts .round .square [["1", "=A1"], ["=1+"]]) (some "=") = .error e ∧
      e.Explains [2, 1] := by
  constructor
  · obtain ⟨g, hgrid, hheight, hwidth, -, -, hfind⟩ :=
      (ofRaw_texts_total .round .square [["1", "=A1"], ["=1+", "x"]] (some "=")).1
        ⟨by decide, 2, by decide, by decide⟩
    have haddress : Address.ofRaw (.text " a2") = .ok ⟨1, 0⟩ := rfl
    have hcontains : g.Contains ⟨1, 0⟩ :=
      ⟨hheight ▸ (by decide : 1 < 2), hwidth ["1", "=A1"] (by decide) ▸ (by decide : 0 < 2)⟩
    obtain ⟨s, c, hs, hc, hof⟩ := (hfind _ _ haddress).1 hcontains
    obtain rfl : "=1+" = s := Option.some.inj hs
    exact ⟨g, hgrid, haddress, hcontains, c, hc, hof⟩
  · refine (ofRaw_texts_total .round .square [["1", "=A1"], ["=1+"]] (some "=")).2 ?_
    rintro ⟨-, width, -, heven⟩
    have hlong := heven ["1", "=A1"] (by decide)
    have hshort := heven ["=1+"] (by decide)
    exact absurd (hlong.trans hshort.symm) (by decide)

end Grid

end DecimalSheet
