import DecimalSheet.Grid.Value
import DecimalSheet.Proofs.Decimal.PlainNotation

/-!
# Values that are read from their texts

The text of a value tells whether it is a number or a code: a code has a number sign, which no plain
notation has. So a number is read again from its text up to the zeros that are written out, and a
code is not taken for a number.

## Main definitions

* `TableValue.spelledOut v`: the value with its number spelled out
* `TableValue.Restores v w`: what is kept of a value
* `TableValue.mixedRows`: a table with numbers of several forms and with codes

## Main results

* `ErrorCode.ofText?_plain`: no plain notation is a code
* `ErrorCode.ofLiteral?_text`: no code is a literal
* `TableValue.restores_spelledOut`: the spelled out value keeps the code, or the sign and the number
-/

namespace DecimalSheet

/-! ## Codes and numbers -/

namespace ErrorCode

theorem hash_mem_text (code : ErrorCode) : '#' ∈ code.text.toList := by
  cases code <;> decide

/-- No plain notation is a code. -/
theorem ofText?_plain (d : Decimal) : ofText? d.plain = none := by
  refine List.find?_eq_none.2 fun code _ hcode => ?_
  have hhash : '#' ∈ d.plain.toList := eq_of_beq hcode ▸ hash_mem_text code
  rcases Decimal.mem_plain hhash with h | h | h <;> revert h <;> decide

/-- No code is a literal. -/
theorem ofLiteral?_text (code : ErrorCode) : Decimal.ofLiteral? code.text = none := by
  cases code <;> decide

end ErrorCode

/-- The text of a number says the spelled out number. -/
theorem Decimal.ofRaw_plain (d : Decimal) : ofRaw (.text d.plain) = .ok d.spelledOut := by
  simp only [ofRaw, ofLiteral?_plain_eq]
  rfl

/-- The text of a code says no number. -/
theorem Decimal.ofRaw_code (code : ErrorCode) :
    ofRaw (.text code.text) = .error (.invalidNumber (.text code.text)) := by
  simp only [ofRaw, ErrorCode.ofLiteral?_text]
  rfl

namespace TableValue

/-- The value, with the zeros of a positive exponent in the coefficient of its number. -/
def spelledOut (v : TableValue) : TableValue := v.map Decimal.spelledOut

/-- What is kept of a value: the code of an error, or the sign and the number together with the form
that plain notation keeps. -/
inductive Restores : TableValue → TableValue → Prop
  | error (code : ErrorCode) : Restores (.error code) (.error code)
  | ok {d d' : Decimal} (h : d.SpellsOut d') : Restores (.ok d) (.ok d')

/-- The text of a value is not empty. -/
theorem toList_text_ne_nil (v : TableValue) : v.text.toList ≠ [] := by
  cases v with
  | error code => cases code <;> decide
  | ok d => exact d.toList_plain_ne_nil

/-- A character in the text of a value is not blank, and it neither stands between cells nor marks a
formula. -/
theorem of_mem_text (v : TableValue) {c : Char} (hc : c ∈ v.text.toList) :
    Text.isBlank c = false ∧ c ≠ '|' ∧ c ≠ '=' := by
  cases v with
  | error code =>
    have hcode : code.text.toList.all fun c => !Text.isBlank c && c != '|' && c != '=' := by
      cases code <;> decide
    simpa [and_assoc] using List.all_eq_true.1 hcode c hc
  | ok d =>
    rcases Decimal.mem_plain hc with rfl | hdigit | rfl
    · decide
    · refine ⟨Text.isBlank_of_isAlphanum (Text.isAlphanum_of_isDigit hdigit), ?_, ?_⟩ <;>
        rintro rfl <;> revert hdigit <;> decide
    · decide

theorem restores_spelledOut : (v : TableValue) → Restores v v.spelledOut
  | .error code => .error code
  | .ok d => .ok d.spellsOut_spelledOut

/-- A row with a negative zero, a number with a positive exponent and a code, and a row with places
after the point and another code. -/
def mixedRows : List (List TableValue) :=
  [[.ok ⟨true, 0, 3⟩, .ok ⟨false, 12, 2⟩, .error .division],
    [.ok ⟨false, 150, -2⟩, .error .circular, .ok ⟨true, 7, -4⟩]]

end TableValue

end DecimalSheet
