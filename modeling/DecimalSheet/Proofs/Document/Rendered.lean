import DecimalSheet.Proofs.Document.Table
import DecimalSheet.Proofs.Evaluation.Literals

/-!
# Rendered tables that are evaluated again

A rendered table may be read as the source of a grid. Its numbers are literals, and they come back
with their signs and in their forms, up to zeros that are written out. A code is no literal, so its
cell cannot be read, and the text of the failure is the code. Rendering the outcomes gives the same
text, except that every code has become that of a cell that cannot be read.

## Main definitions

* `TableValue.readAgain a v`: the outcome of a cell at `a` that holds the text of the value `v`
* `TableValue.ReadsBack a v o`: what is kept of a value

## Main results

* `TableValue.outcome?_ofRaw_text`: the outcome of a cell that holds the text of a value
* `Table.evaluate_rendered`: reading, building and evaluating a rendered table
-/

namespace DecimalSheet

namespace TableValue

/-- The outcome of a cell that holds the text of a value. -/
def readAgain (a : Address) : TableValue → Outcome
  | .ok d => .ok d.spelledOut
  | .error code => .error ⟨.invalidNumber (.text code.text), a, .construction⟩

/-- What is kept of a value in a cell at an address: the sign and the number together with the form
that plain notation keeps, or the code as the text of a failure of that cell. -/
inductive ReadsBack (a : Address) : TableValue → Outcome → Prop
  | number {d d' : Decimal} (h : d.SpellsOut d') : ReadsBack a (.ok d) (.ok d')
  | code {code : ErrorCode} {f : Failure} (hfault : f.fault = .invalidNumber (.text code.text))
    (horigin : f.origin = a) : ReadsBack a (.error code) (.error f)

theorem readsBack_readAgain (a : Address) : (v : TableValue) → ReadsBack a v (v.readAgain a)
  | .ok d => .number d.spellsOut_spelledOut
  | .error _ => .code rfl rfl

/-- The text of a value is no formula. -/
theorem isMarked_text (v : TableValue) : Formula.isMarked (some "=") v.text = false := by
  obtain ⟨c, cs, hcs⟩ := List.exists_cons_of_ne_nil v.toList_text_ne_nil
  have hc : c ≠ '=' := (v.of_mem_text (hcs ▸ List.mem_cons_self)).2.2
  show ("=" != "" && List.isPrefixOf ['='] v.text.toList) = false
  rw [hcs]
  simp [List.isPrefixOf, hc.symm]

/-- A cell that holds the text of a value has its outcome from the start. -/
theorem outcome?_ofRaw_text (a : Address) (v : TableValue) :
    (Content.ofRaw (.text v.text) (some "=")).outcome? a = some (v.readAgain a) := by
  have hcontent : Content.ofRaw (.text v.text) (some "=") = Content.ofLiteral (.text v.text) := by
    rw [Content.ofRaw, if_neg (by simp [isMarked_text])]
  rw [hcontent, Content.ofLiteral]
  cases v with
  | ok d =>
    have hnumber : Decimal.ofRaw (.text (text (.ok d))) = .ok d.spelledOut := Decimal.ofRaw_plain d
    rw [hnumber]
    rfl
  | error code =>
    have hcode : Decimal.ofRaw (.text (text (.error code))) =
        .error (.invalidNumber (.text code.text)) := Decimal.ofRaw_code code
    rw [hcode]
    rfl

/-- An outcome is shown as the value was, except for the code. -/
theorem text_shown_readAgain (a : Address) (v : TableValue) :
    (v.readAgain a).shown.text = text (v.mapError fun _ => .value) := by
  cases v with
  | ok d => exact d.plain_spelledOut
  | error code => rfl

/-- The outcomes of the cells that hold the texts of the values in a table. -/
def readAgainRows (rows : List (List TableValue)) : List (List Outcome) :=
  rows.mapIdx fun i row => row.mapIdx fun j v => v.readAgain ⟨i, j⟩

theorem exists_getElem?_readAgainRows {rows : List (List TableValue)} {row : List TableValue}
    {v : TableValue} {i j : Nat} (hrow : rows[i]? = some row) (hv : row[j]? = some v) :
    ∃ outcomes, (readAgainRows rows)[i]? = some outcomes ∧
      outcomes[j]? = some (v.readAgain ⟨i, j⟩) := by
  refine ⟨row.mapIdx fun j v => readAgain ⟨i, j⟩ v, ?_, ?_⟩
  · rw [readAgainRows, List.getElem?_mapIdx, hrow]
    rfl
  · rw [List.getElem?_mapIdx, hv]
    rfl

theorem length_of_mem_readAgainRows {rows : List (List TableValue)} {width : Nat}
    (heven : ∀ row ∈ rows, row.length = width) :
    ∀ outcomes ∈ readAgainRows rows, outcomes.length = width := by
  intro outcomes houtcomes
  obtain ⟨i, hi, rfl⟩ := List.mem_mapIdx.1 houtcomes
  rw [List.length_mapIdx, heven _ (List.getElem_mem hi)]

end TableValue

namespace Table

open TableValue

variable {rows : List (List TableValue)} {width : Nat}

/-- The outcomes are a table of the size of a grid that holds the texts of the values. -/
theorem tabulates_readAgainRows {g : Grid} (hheight : g.height = rows.length)
    (hwidth : g.width = width) (heven : ∀ row ∈ rows, row.length = width)
    (hholds : ∀ i j row (v : TableValue), rows[i]? = some row → row[j]? = some v →
      g.Holds ⟨i, j⟩ (v.readAgain ⟨i, j⟩)) :
    g.Tabulates g.Holds (readAgainRows rows) where
  height := by rw [readAgainRows, List.length_mapIdx, hheight]
  width := hwidth ▸ length_of_mem_readAgainRows heven
  entry i j hcontains := by
    obtain ⟨hi, hj⟩ : i < g.height ∧ j < g.width := hcontains
    rw [hheight] at hi
    have hrow : rows[i]? = some rows[i] := List.getElem?_eq_getElem hi
    have hlength : j < rows[i].length := by
      rwa [heven _ (List.getElem_mem _), ← hwidth]
    have hv : rows[i][j]? = some rows[i][j] := List.getElem?_eq_getElem hlength
    obtain ⟨outcomes, houtcomes, ho⟩ := exists_getElem?_readAgainRows hrow hv
    exact ⟨outcomes, _, houtcomes, ho, hholds i j _ _ hrow hv⟩

/-- A table whose rows have one length makes a grid of texts, and evaluating that gives the outcomes
of its cells. -/
theorem exists_evaluateAll_ofTexts (hne : rows ≠ []) (hwidth : 0 < width)
    (heven : ∀ row ∈ rows, row.length = width) (functions : Registry) (scale : Int) :
    ∃ g, Grid.ofRaw (.ofTexts .round .round (rows.map fun row => row.map text)) (some "=") = .ok g ∧
      g.height = rows.length ∧ g.width = width ∧
      (Evaluator.start g functions scale).evaluateAll.2 = .ok (readAgainRows rows) := by
  have hne' : rows.map (fun row => row.map text) ≠ [] := by simpa using hne
  have heven' : ∀ row ∈ rows.map fun row => row.map text, row.length = width :=
    List.forall_mem_map.2 fun row hrow => by rw [List.length_map, heven row hrow]
  obtain ⟨g, hg, hheight, hgwidth, hcells⟩ :=
    Grid.exists_ofTexts hne' hwidth heven' .round .round (some "=")
  rw [List.length_map] at hheight
  have hholds : ∀ i j row (v : TableValue), rows[i]? = some row → row[j]? = some v →
      g.Holds ⟨i, j⟩ (v.readAgain ⟨i, j⟩) := by
    intro i j row v hrow hv
    refine ⟨_, hcells i j (row.map text) v.text ?_ ?_, outcome?_ofRaw_text ⟨i, j⟩ v⟩
    · rw [List.getElem?_map, hrow]
      rfl
    · rw [List.getElem?_map, hv]
      rfl
  have htable := tabulates_readAgainRows hheight hgwidth heven hholds
  have hall : ∀ a, g.Contains a → ∃ o, g.Holds a o := by
    rintro ⟨i, j⟩ hcontains
    obtain ⟨-, o, -, -, ho⟩ := htable.entry i j hcontains
    exact ⟨o, ho⟩
  obtain ⟨values, hvalues, htabulates⟩ :=
    Evaluator.exists_evaluateAll_of_holds hall functions scale
  obtain rfl := htabulates.eq htable fun _ _ _ => Grid.Holds.eq
  exact ⟨g, hg, hheight, hgwidth, hvalues⟩

/-- Rendering the outcomes gives the same text, with every code replaced. -/
theorem render_shown_readAgainRows (separator : String) (rows : List (List TableValue)) :
    render separator ((readAgainRows rows).map fun row => row.map Outcome.shown) =
      render separator (rows.map fun row => row.map fun v => v.mapError fun _ => .value) := by
  have htexts : ((readAgainRows rows).map fun row => row.map Outcome.shown).map
        (fun row => row.map text) =
      (rows.map fun row => row.map fun v => v.mapError fun _ => .value).map
        fun row => row.map text := by
    refine List.ext_getElem (by simp [readAgainRows]) fun i hi hi' => ?_
    refine List.ext_getElem (by simp [readAgainRows]) fun j hj hj' => ?_
    simpa [readAgainRows] using text_shown_readAgain _ _
  simpa [render, Function.comp_def] using
    congrArg (fun texts => "\n".intercalate (texts.map separator.intercalate)) htexts

/-- A rendered table that is read as the source of a grid and evaluated has the same size. Its
numbers come back with their signs and, unless the exponent is positive, in their forms, and its
codes as failures of the cells in which they stand. Rendering again gives the same text, with every
code replaced by that of a cell that cannot be read. -/
theorem evaluate_rendered (hne : rows ≠ []) (hwidth : 0 < width)
    (heven : ∀ row ∈ rows, row.length = width) (functions : Registry) (scale : Int) :
    ∃ texts g values,
      read .standard (render standardSeparator rows) = .ok texts ∧
      Grid.ofRaw (.ofTexts .round .round texts) (some "=") = .ok g ∧
      (Evaluator.start g functions scale).evaluateAll.2 = .ok values ∧
      values.length = rows.length ∧ (∀ outcomes ∈ values, outcomes.length = width) ∧
      (∀ i j row (v : TableValue), rows[i]? = some row → row[j]? = some v →
        ∃ outcomes o, values[i]? = some outcomes ∧ outcomes[j]? = some o ∧
          v.ReadsBack ⟨i, j⟩ o) ∧
      render standardSeparator (values.map fun row => row.map Outcome.shown) =
        render standardSeparator
          (rows.map fun row => row.map fun v => v.mapError fun _ => .value) := by
  obtain ⟨g, hg, -, -, hvalues⟩ := exists_evaluateAll_ofTexts hne hwidth heven functions scale
  refine ⟨_, g, readAgainRows rows, read_render fun row hrow => ?_, hg, hvalues,
    List.length_mapIdx, length_of_mem_readAgainRows heven, fun i j row v hrow hv => ?_,
    render_shown_readAgainRows standardSeparator rows⟩
  · exact List.ne_nil_of_length_pos (heven row hrow ▸ hwidth)
  · obtain ⟨outcomes, houtcomes, ho⟩ := exists_getElem?_readAgainRows hrow hv
    exact ⟨outcomes, _, houtcomes, ho, v.readsBack_readAgain ⟨i, j⟩⟩

/-- The code of a circular reference comes back as the text of a failure of the cell in which it
stands. -/
theorem evaluate_rendered_mixedRows :
    mixedRows ≠ [] ∧ (∀ row ∈ mixedRows, row.length = 3) ∧
    ∃ texts g values outcomes f,
      read .standard (render standardSeparator mixedRows) = .ok texts ∧
      Grid.ofRaw (.ofTexts .round .round texts) (some "=") = .ok g ∧
      (Evaluator.start g .standard 28).evaluateAll.2 = .ok values ∧
      values[1]? = some outcomes ∧ outcomes[1]? = some (.error f) ∧
      f.fault = .invalidNumber (.text "#CIRC!") ∧ f.origin = ⟨1, 1⟩ := by
  have hne : mixedRows ≠ [] := by decide
  have heven : ∀ row ∈ mixedRows, row.length = 3 := by decide
  obtain ⟨texts, g, values, htexts, hg, hvalues, -, -, hentries, -⟩ :=
    evaluate_rendered hne (by decide) heven .standard 28
  obtain ⟨outcomes, o, houtcomes, ho, hback⟩ :=
    hentries 1 1 [.ok ⟨false, 150, -2⟩, .error .circular, .ok ⟨true, 7, -4⟩] (.error .circular)
      rfl rfl
  cases hback with
  | @code _ f hfault horigin =>
    exact ⟨hne, heven, texts, g, values, outcomes, f, htexts, hg, hvalues, houtcomes, ho, hfault,
      horigin⟩

end Table

end DecimalSheet
