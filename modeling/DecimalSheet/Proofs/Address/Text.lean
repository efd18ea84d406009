import DecimalSheet.Address.Pair
import DecimalSheet.Proofs.Text.Character

/-!
# The text of an address

The canonical text of an address is read as the same address, as long as the number of its row is
short enough to be read. Every address that was read has such a row.

## Main definitions

* `Address.IsReadable`: the number of the row is short enough to be read

## Main results

* `Column.index_letters`: the letters of a column have its index
* `Address.text_injective`: different addresses have different texts
* `Address.read_text`: the text of an address is read as the address
* `Address.isReadable_of_read`: an address that was read can be read again
-/

namespace DecimalSheet

namespace Column

theorem digit_letter {n : Nat} (h : n < 26) :
    digit (letter n) = n + 1 ∧ (letter n).isAlpha = true := by
  have hall : ∀ i : Fin 26, digit (letter i) = i + 1 ∧ (letter i).isAlpha = true := by decide
  exact hall ⟨n, h⟩

theorem isAlpha_of_mem_letters {n : Nat} : ∀ c ∈ letters n, c.isAlpha = true := by
  fun_induction letters n with
  | case1 n hn => simpa using (digit_letter hn).2
  | case2 n hn ih =>
    have hlast := (digit_letter (Nat.mod_lt n (by decide : 0 < 26))).2
    exact List.forall_mem_append.2 ⟨ih, List.forall_mem_singleton.2 hlast⟩

theorem letters_ne_nil (n : Nat) : letters n ≠ [] := by
  unfold letters
  split <;> simp

theorem foldl_letters (n : Nat) : (letters n).foldl (fun n c => n * 26 + digit c) 0 = n + 1 := by
  fun_induction letters n with
  | case1 n hn => simpa using (digit_letter hn).1
  | case2 n hn ih =>
    -- The letters in front count `n / 26`, and the last one is the remainder.
    rw [List.foldl_append, ih, List.foldl_cons, List.foldl_nil,
      (digit_letter (Nat.mod_lt n (by decide))).1]
    omega

/-- The letters of a column have its index. -/
theorem index_letters (n : Nat) : index (letters n) = n := by
  rw [index, foldl_letters, Nat.add_sub_cancel]

end Column

/-- A number is below the power of ten with as many zeros as the number has digits. -/
theorem ofDigitChars_lt {ds : List Char} (h : ∀ c ∈ ds, c.isDigit = true) (n : Nat) :
    Nat.ofDigitChars 10 ds n < (n + 1) * 10 ^ ds.length := by
  induction ds generalizing n with
  | nil => simp
  | cons d ds ih =>
    have hd : d.toNat - '0'.toNat ≤ 9 := by
      have := Char.isDigit_iff_toNat.1 (h d List.mem_cons_self)
      simp at this ⊢
      omega
    -- A digit makes the number at most ten times as large, and nine larger.
    rw [Nat.ofDigitChars_cons, List.length_cons, Nat.pow_succ']
    refine Nat.lt_of_lt_of_le (ih (fun c hc => h c (List.mem_cons_of_mem d hc)) _) ?_
    rw [← Nat.mul_assoc]
    exact Nat.mul_le_mul_right _ (by omega)

namespace Address

variable {a : Address}

/-- The number of the row is short enough to be read. -/
def IsReadable (a : Address) : Prop := a.row + 1 < rowNumberLimit

theorem isReadable_iff : a.IsReadable ↔ a.row + 1 < 10 ^ maxRowDigits := by
  unfold IsReadable rowNumberLimit
  rw [Nat.pow_eq]

theorem toList_text :
    a.text.toList = Column.letters a.col ++ Nat.toDigits 10 (a.row + 1) := by
  rw [text, String.toList_ofList]

theorem isAlpha_of_mem_head?_rowDigits :
    ∀ c ∈ (Nat.toDigits 10 (a.row + 1)).head?, c.isAlpha = false :=
  fun c hc => Text.isAlpha_of_isDigit (Text.isDigit_of_mem_toDigits c (List.mem_of_mem_head? hc))

theorem takeWhile_text : a.text.toList.takeWhile Char.isAlpha = Column.letters a.col := by
  rw [toList_text]
  exact Text.takeWhile_append_run Column.isAlpha_of_mem_letters isAlpha_of_mem_head?_rowDigits

theorem dropWhile_text : a.text.toList.dropWhile Char.isAlpha = Nat.toDigits 10 (a.row + 1) := by
  rw [toList_text]
  exact Text.dropWhile_append_run Column.isAlpha_of_mem_letters isAlpha_of_mem_head?_rowDigits

/-- Different addresses have different texts. -/
theorem text_injective : Function.Injective text := by
  intro a b h
  -- The letters give the column, and the digits after them the row.
  have hcol := congrArg Column.index
    ((takeWhile_text (a := a)).symm.trans (h ▸ takeWhile_text (a := b)))
  have hrow := congrArg (Nat.ofDigitChars 10 · 0)
    ((dropWhile_text (a := a)).symm.trans (h ▸ dropWhile_text (a := b)))
  simp only [Column.index_letters, Nat.ofDigitChars_ten_toDigits] at hcol hrow
  cases a
  cases b
  simp_all

/-- The text of an address has the form of one. -/
theorem isCoordinate_text : isCoordinate a.text.toList = true := by
  unfold isCoordinate
  rw [takeWhile_text, dropWhile_text]
  simpa [Column.letters_ne_nil] using Text.isDigit_of_mem_toDigits

theorem isAlphanum_of_mem_text : ∀ c ∈ a.text.toList, c.isAlphanum = true := by
  rw [toList_text]
  exact List.forall_mem_append.2
    ⟨fun c hc => Text.isAlphanum_of_isAlpha (Column.isAlpha_of_mem_letters c hc),
      fun c hc => Text.isAlphanum_of_isDigit (Text.isDigit_of_mem_toDigits c hc)⟩

theorem trim_text : Text.trim a.text.toList = a.text.toList :=
  Text.trim_eq_self
    (fun c hc => Text.isBlank_of_isAlphanum (isAlphanum_of_mem_text c (List.mem_of_mem_head? hc)))
    fun c hc => Text.isBlank_of_isAlphanum (isAlphanum_of_mem_text c (List.mem_of_mem_getLast? hc))

/-- The text of an address is read as the address. -/
theorem read_text (h : a.IsReadable) : read a.text = .ok a := by
  have hlength : ¬maxRowDigits < (Nat.toDigits 10 (a.row + 1)).length := by
    rw [Nat.not_lt, Nat.length_toDigits_le_iff (by decide) (by decide)]
    exact isReadable_iff.1 h
  unfold read
  simp only [trim_text, isCoordinate_text, dropWhile_text, takeWhile_text, if_neg hlength,
    Nat.ofDigitChars_ten_toDigits, Column.index_letters]
  rfl

/-- An address that was read can be read again. -/
theorem isReadable_of_read {s : String} (h : read s = .ok a) : a.IsReadable := by
  -- The number has few enough digits, so it is below the limit.
  unfold read at h
  simp only at h
  split at h
  · cases h
  · split at h
    · cases h
    · rename_i hcoordinate hlength
      split at h
      · cases h
      · rename_i row hrow
        cases h
        have hdigits : ((Text.trim s.toList).dropWhile Char.isAlpha).all Char.isDigit = true := by
          simp_all [isCoordinate]
        have hlt := ofDigitChars_lt (List.all_eq_true.1 hdigits) 0
        rw [hrow, Nat.zero_add, Nat.one_mul] at hlt
        have hpow := Nat.pow_le_pow_right (n := 10) (by decide) (Nat.not_lt.1 hlength)
        exact isReadable_iff.2 (Nat.lt_of_lt_of_le hlt hpow)

end Address

end DecimalSheet
