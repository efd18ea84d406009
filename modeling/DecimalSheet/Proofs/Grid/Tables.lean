import DecimalSheet.Proofs.Grid.Building

/-!
# Tables of the size of a grid

Every rectangle of texts with at least one row and one column makes a grid, of the same size and
with a cell for each text at its place. What is found for the cells of a grid, row by row, is again
a table of its size.

## Main definitions

* `RawValue.ofTexts outer inner rows`: rows of texts as a table
* `Grid.Tabulates g R values`: a table with an entry for each cell of a grid

## Main results

* `Grid.ofRows_eq_ok`: rows of one length make a grid
* `Grid.exists_ofTexts`: the grid over rows of texts
* `Grid.Tabulates.eq`: a table is given by its entries
* `Grid.tabulates_of_forall₂`: what is found row by row is a table of the size of the grid
-/

namespace DecimalSheet

/-- Rows of texts as a table, with brackets around the table and around each of its rows. -/
def RawValue.ofTexts (outer inner : Brackets) (rows : List (List String)) : RawValue :=
  .sequence outer (rows.map fun row => .sequence inner (row.map .text))

namespace Grid

variable {marker : Option String} {width : Nat} {rows : List (List RawValue)}

theorem firstUneven?_of_forall (even : ∀ row ∈ rows, row.length = width) :
    firstUneven? width rows = none := by
  induction rows with
  | nil => rfl
  | cons row rows ih =>
    obtain ⟨hrow, hrows⟩ := List.forall_mem_cons.1 even
    rw [firstUneven?, if_pos hrow, ih hrows]
    rfl

/-- Rows of one length make a grid, unless there are no cells. -/
theorem ofRows_eq_ok (hne : rows ≠ []) (hwidth : 0 < width)
    (even : ∀ row ∈ rows, row.length = width) :
    ofRows rows marker = .ok (ofEvenRows marker width rows even) := by
  obtain ⟨row, others, rfl⟩ := List.exists_cons_of_ne_nil hne
  obtain rfl : row.length = width := even row List.mem_cons_self
  obtain ⟨source, sources, rfl⟩ := List.exists_cons_of_length_pos hwidth
  unfold ofRows
  dsimp only
  split
  · rename_i uneven h
    rw [firstUneven?_of_forall even] at h
    cases h
  · rfl

theorem cell?_ofEvenRows {even : ∀ row ∈ rows, row.length = width} {i j : Nat}
    {row : List RawValue} {source : RawValue} (hrow : rows[i]? = some row)
    (hsource : row[j]? = some source) :
    (ofEvenRows marker width rows even).cell? ⟨i, j⟩ = some (Cell.ofRaw ⟨i, j⟩ source marker) := by
  obtain ⟨hi, rfl⟩ := List.getElem?_eq_some_iff.1 hrow
  show ((Vector.ofFn fun i : Fin rows.length => (cellRow marker i rows[i]).cast
    (even _ (List.getElem_mem _)))[i]?.bind fun row => row[j]?) = _
  rw [Vector.getElem?_ofFn, dif_pos hi]
  simp [cellRow, hsource]

/-- The grid over rows of texts is the one over the raw values that are these texts. -/
theorem ofRaw_ofTexts (outer inner : Brackets) (texts : List (List String))
    (marker : Option String) :
    ofRaw (.ofTexts outer inner texts) marker =
      ofRows (texts.map fun row => row.map .text) marker := by
  show ofRows ((texts.map fun row => RawValue.sequence inner (row.map .text)).map rowOfRaw) _ = _
  rw [List.map_map]
  rfl

/-- A rectangle of texts makes a grid with a cell for each text at its place. -/
theorem exists_ofTexts {texts : List (List String)} (hne : texts ≠ []) (hwidth : 0 < width)
    (heven : ∀ row ∈ texts, row.length = width) (outer inner : Brackets) (marker : Option String) :
    ∃ g, ofRaw (.ofTexts outer inner texts) marker = .ok g ∧
      g.height = texts.length ∧ g.width = width ∧
      ∀ i j row s, texts[i]? = some row → row[j]? = some s →
        g.cell? ⟨i, j⟩ = some (Cell.ofRaw ⟨i, j⟩ (.text s) marker) := by
  have even : ∀ row ∈ texts.map fun row => row.map RawValue.text, row.length = width :=
    List.forall_mem_map.2 fun row hrow => by rw [List.length_map, heven row hrow]
  refine ⟨ofEvenRows marker width _ even, ?_, List.length_map _, rfl, fun i j row s hrow hs => ?_⟩
  · rw [ofRaw_ofTexts]
    exact ofRows_eq_ok (by simpa using hne) hwidth even
  · have hrow' : (texts.map fun row => row.map RawValue.text)[i]? = some (row.map .text) := by
      rw [List.getElem?_map, hrow]
      rfl
    have hs' : (row.map RawValue.text)[j]? = some (.text s) := by
      rw [List.getElem?_map, hs]
      rfl
    exact cell?_ofEvenRows hrow' hs'

/-! ## Tables of values -/

/-- The table has the size of the grid, and each of its entries has to do with the address of the
cell at its place. -/
structure Tabulates {α : Type} (g : Grid) (R : Address → α → Prop) (values : List (List α)) :
    Prop where
  height : values.length = g.height
  width : ∀ row ∈ values, row.length = g.width
  entry : ∀ i j, g.Contains ⟨i, j⟩ →
    ∃ row a, values[i]? = some row ∧ row[j]? = some a ∧ R ⟨i, j⟩ a

theorem Tabulates.imp {α : Type} {g : Grid} {R S : Address → α → Prop} {values : List (List α)}
    (h : g.Tabulates R values) (hRS : ∀ a x, R a x → S a x) : g.Tabulates S values where
  height := h.height
  width := h.width
  entry i j hcontains := by
    obtain ⟨row, x, hrow, hx, hR⟩ := h.entry i j hcontains
    exact ⟨row, x, hrow, hx, hRS _ x hR⟩

theorem exists_getElem?_of_forall₂ {α β : Type} {R : α → β → Prop} {as : List α} {bs : List β}
    (h : List.Forall₂ R as bs) {i : Nat} {a : α} (ha : as[i]? = some a) :
    ∃ b, bs[i]? = some b ∧ R a b := by
  induction h generalizing i with
  | nil => cases ha
  | cons hR _ ih =>
    cases i with
    | zero => exact ⟨_, rfl, Option.some.inj ha ▸ hR⟩
    | succ i => exact ih ha

theorem getElem?_rowAddresses {g : Grid} {i : Nat} (hi : i < g.height) :
    g.rowAddresses[i]? = some ((List.range g.width).map fun j => ⟨i, j⟩) := by
  simp [rowAddresses, hi]

theorem length_of_mem_rowAddresses {g : Grid} {row : List Address} (h : row ∈ g.rowAddresses) :
    row.length = g.width := by
  obtain ⟨i, -, rfl⟩ := List.mem_map.1 h
  simp

/-- What is found for the addresses of a grid, row by row, is a table of the size of the grid. -/
theorem tabulates_of_forall₂ {α : Type} {g : Grid} {R : Address → α → Prop}
    {values : List (List α)} (h : List.Forall₂ (List.Forall₂ R) g.rowAddresses values) :
    g.Tabulates R values where
  height := by
    rw [← h.length_eq]
    simp [rowAddresses]
  width row hrow := by
    obtain ⟨i, hi⟩ := List.mem_iff_getElem?.1 hrow
    obtain ⟨addresses, haddresses, hrow⟩ := exists_getElem?_of_forall₂ h.flip hi
    rw [← hrow.length_eq]
    exact length_of_mem_rowAddresses (List.mem_of_getElem? haddresses)
  entry i j hcontains := by
    obtain ⟨hi, hj⟩ := hcontains
    obtain ⟨row, hrow, hentries⟩ := exists_getElem?_of_forall₂ h (getElem?_rowAddresses hi)
    have haddress : ((List.range g.width).map fun j => Address.mk i j)[j]? = some ⟨i, j⟩ := by
      rw [List.getElem?_map, List.getElem?_range hj]
      rfl
    obtain ⟨a, ha, hR⟩ := exists_getElem?_of_forall₂ hentries haddress
    exact ⟨row, a, hrow, ha, hR⟩

/-- There is only one table if each address has to do with one entry only. -/
theorem Tabulates.eq {α : Type} {g : Grid} {R : Address → α → Prop} {values values' : List (List α)}
    (h : g.Tabulates R values) (h' : g.Tabulates R values') (hR : ∀ a x y, R a x → R a y → x = y) :
    values = values' := by
  refine List.ext_getElem (h.height.trans h'.height.symm) fun i hi hi' => ?_
  have hwidth := h.width _ (List.getElem_mem hi)
  refine List.ext_getElem (hwidth.trans (h'.width _ (List.getElem_mem hi')).symm) fun j hj hj' => ?_
  have hcontains : g.Contains ⟨i, j⟩ := ⟨h.height ▸ hi, hwidth ▸ hj⟩
  obtain ⟨row, a, hrow, ha, hRa⟩ := h.entry i j hcontains
  obtain ⟨row', a', hrow', ha', hRa'⟩ := h'.entry i j hcontains
  obtain rfl := Option.some.inj ((List.getElem?_eq_getElem hi).symm.trans hrow)
  obtain rfl := Option.some.inj ((List.getElem?_eq_getElem hi').symm.trans hrow')
  obtain rfl := Option.some.inj ((List.getElem?_eq_getElem hj).symm.trans ha)
  obtain rfl := Option.some.inj ((List.getElem?_eq_getElem hj').symm.trans ha')
  exact hR _ _ _ hRa hRa'

end Grid

end DecimalSheet
