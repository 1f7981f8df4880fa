import PencilPuzzle.Proofs.Numeral
import PencilPuzzle.Proofs.Settings
import PencilPuzzle.Settings.Library.Sources

/-!
# Settings as text

An integer that is written out is read back, unless it is too long for that. Of what is read from
sources of any kind, a solver can be made.
-/

namespace PencilPuzzle

namespace Text

theorem Denotes.of_zero_cons {rest : List Char} {n : Nat} (more : rest ≠ [])
    (denotes : Denotes ('0' :: rest) n) : Denotes rest n := by
  obtain ⟨_, values, read, total⟩ := denotes
  cases values with
  | nil => simp at read
  | cons digit values =>
    obtain ⟨zero, behind⟩ := List.cons.inj read
    have nothing : digit? '0' = some 0 := by decide
    cases nothing.symm.trans zero
    refine ⟨more, values, behind, ?_⟩
    simpa [Nat.ofDigits_append] using total

theorem head?_toDigits {n : Nat} (positive : n ≠ 0) : (Nat.toDigits 10 n).head? ≠ some '0' := by
  intro zero
  obtain ⟨rest, digits⟩ := List.head?_eq_some_iff.mp zero
  have denotes := (decimal_toDigits n).denotes
  rw [digits] at denotes
  cases rest with
  | nil =>
    have nothing : Denotes ['0'] 0 := ⟨by simp, [0], by decide, rfl⟩
    exact positive (denotes.unique nothing)
  | cons c rest =>
    have short := (Nat.length_toDigits_le_iff (by decide) (by simp)).mpr (denotes.of_zero_cons (by simp)).lt
    rw [digits, List.length_cons] at short
    omega

end Text

namespace Settings

private theorem splitMinus_toDigits (n : Nat) :
    splitMinus (Nat.toDigits 10 n) = (false, Nat.toDigits 10 n) := by
  cases digits : Nat.toDigits 10 n with
  | nil => rfl
  | cons c rest =>
    have digit : c.isDigit = true :=
      Nat.isDigit_of_mem_toDigits (by decide) (by decide) (digits ▸ List.mem_cons_self ..)
    unfold splitMinus
    split
    next same =>
      cases same
      exact absurd digit (by decide)
    next => rfl

private theorem readPlain_toDigits {text : List Char} {negative : Bool} {n : Nat}
    (signed : splitMinus text = (negative, Nat.toDigits 10 n)) :
    readPlain text =
      if integerLength < (Nat.toDigits 10 n).length then .error .tooLong
      else .ok (if negative then -(n : Int) else n) := by
  have digits : (Nat.toDigits 10 n).takeWhile Char.isDigit = Nat.toDigits 10 n :=
    List.takeWhile_eq_self_iff.mpr fun c member =>
      Nat.isDigit_of_mem_toDigits (by decide) (by decide) member
  have value := Text.number?_eq_some.mpr (Text.decimal_toDigits n).denotes
  obtain rfl | positive := Nat.eq_zero_or_pos n
  · simp [readPlain, signed, integerLength]
  · have notZero : Nat.toDigits 10 n ≠ ['0'] := fun zero =>
      Text.head?_toDigits positive.ne' (zero ▸ rfl)
    simp [readPlain, signed, digits, notZero, Text.head?_toDigits positive.ne', value]

theorem readIntegerText_toString (n : Int) :
    readIntegerText (toString n) =
      if integerLength < (Nat.toDigits 10 n.natAbs).length then .error .tooLong else .ok n := by
  have plain : readPlain (toString n).toList =
      if integerLength < (Nat.toDigits 10 n.natAbs).length then .error .tooLong else .ok n := by
    cases n with
    | ofNat m =>
      have shown : (toString (Int.ofNat m)).toList = Nat.toDigits 10 m := String.toList_ofList
      exact readPlain_toDigits ((congrArg splitMinus shown).trans (splitMinus_toDigits m))
    | negSucc m =>
      have shown : (toString (Int.negSucc m)).toList = '-' :: Nat.toDigits 10 (m + 1) := by
        change ("-" ++ Nat.repr (m + 1)).toList = _
        simp [Nat.repr]
      exact readPlain_toDigits (congrArg splitMinus shown)
  unfold readIntegerText
  rw [plain]
  split_ifs <;> rfl

theorem exists_solver_of_read {sources : Sources} {settings : Settings}
    (accepted : read sources = .ok settings) : ∃ solver, Solver.new settings {} = .ok solver := by
  unfold read at accepted
  cases found : sources.layers with
  | error fault => simp [found, bind, Except.bind, Except.mapError] at accepted
  | ok layers =>
    cases read : layers.findings.settings readers with
    | error problems => simp [found, read, bind, Except.bind, Except.mapError] at accepted
    | ok chosen =>
      simp only [found, read, bind, Except.bind, Except.mapError, Except.ok.injEq] at accepted
      exact exists_solver_of_settings (accepted ▸ read)

end Settings

end PencilPuzzle
