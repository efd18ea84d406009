import DecimalSheet.Evaluation.Program

/-!
# Formulas with less room

The parts of a formula that lie too deep fail when it comes to them. A formula that is not higher
than the room that it has does not come to such a part, and does the same if it has more room.

## Main results

* `Expr.program_succ`, `Expr.argumentsProgram_succ`: expressions and arguments with more room than
  they need
-/

namespace DecimalSheet.Expr

variable {s : Setting}

theorem height_pos (e : Expr) : 0 < e.height := by
  cases e <;> simp [height]

theorem argumentMembers_succ {room : Nat} {r : Range} (h : (range r).height ≤ room)
    (found : List Decimal) :
    s.argumentMembers (room + 1) r found = s.argumentMembers room r found := by
  have hroom : room ≠ 0 := Nat.ne_of_gt (Nat.lt_of_lt_of_le (height_pos _) h)
  rw [Setting.argumentMembers, Setting.argumentMembers, if_neg (Nat.succ_ne_zero room),
    if_neg hroom]

mutual

/-- One level more room is of no importance to an expression that is not higher than the room. -/
theorem program_succ : (e : Expr) → (room : Nat) → e.height ≤ room →
    e.program s (room + 1) = e.program s room
  | e, 0, h => absurd e.height_pos (Nat.not_lt.2 h)
  | number _, _ + 1, _ | range _, _ + 1, _ | foreign _, _ + 1, _ | cell _, _ + 1, _ => by
    rw [program, program]
  | negate operand, room + 1, h => by
    rw [program, program, program_succ operand room (Nat.le_of_succ_le_succ h)]
  | binary op left right, room + 1, h => by
    have hoperands : max left.height right.height ≤ room := Nat.le_of_succ_le_succ h
    obtain ⟨hleft, hright⟩ := Nat.max_le.1 hoperands
    rw [program, program, program_succ left room hleft, program_succ right room hright]
  | call name args, room + 1, h => by
    rw [program, program, argumentsProgram_succ args room [] (Nat.le_of_succ_le_succ h)]

theorem argumentsProgram_succ : (es : List Expr) → (room : Nat) → (found : List Decimal) →
    heightAll es ≤ room →
    argumentsProgram s (room + 1) found es = argumentsProgram s room found es
  | [], _, _, _ => by rw [argumentsProgram, argumentsProgram]
  | e :: es, room, found, h => by
    obtain ⟨he, hes⟩ := Nat.max_le.1 h
    have hargs := fun found => argumentsProgram_succ es room found hes
    by_cases hrange : ∃ r, e = range r
    · obtain ⟨r, rfl⟩ := hrange
      simp only [argumentsProgram, argumentMembers_succ he, hargs]
    · simp only [argumentsProgram_cons hrange, program_succ e room he, hargs]

end

end DecimalSheet.Expr
