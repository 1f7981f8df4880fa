import Mathlib.Data.List.Chain
import PencilPuzzle.Text.Blank
import PencilPuzzle.Text.Split

/-!
# Cutting and joining text

Cutting at a separator undoes joining with it. Cutting into runs is the only way to write a text as
pieces that are either a run of characters of a class or one other character, with no two runs side
by side.
-/

namespace PencilPuzzle.Text

variable {inClass : Char → Bool} {separator stop c : Char} {text rest run piece block : List Char}
  {pieces : List (List Char)}

/-! ### Separators -/

private theorem splitOn_eq (separator : Char) (text : List Char) :
    splitOn separator text = text.splitOn separator := by
  induction text with
  | nil => simp [splitOn]
  | cons c rest ih =>
    rw [splitOn, List.splitOn_cons_eq_if_modifyHead, ih]
    cases cut : rest.splitOn separator with
    | nil => exact absurd cut (List.splitOn_ne_nil separator rest)
    | cons piece others => simp

private theorem joinWith_eq (separator : Char) (pieces : List (List Char)) :
    joinWith separator pieces = [separator].intercalate pieces := by
  induction pieces with
  | nil => rfl
  | cons piece others ih =>
    cases others with
    | nil => simp [joinWith]
    | cons next later => simp_all [joinWith]

theorem splitOn_joinWith (clean : ∀ piece ∈ pieces, separator ∉ piece) (some : pieces ≠ []) :
    splitOn separator (joinWith separator pieces) = pieces := by
  rw [joinWith_eq, splitOn_eq, List.splitOn_intercalate separator clean some]

theorem joinWith_splitOn (separator : Char) (text : List Char) :
    joinWith separator (splitOn separator text) = text := by
  rw [joinWith_eq, splitOn_eq, List.intercalate_splitOn]

theorem mem_joinWith (member : c ∈ joinWith separator pieces) :
    c = separator ∨ ∃ piece ∈ pieces, c ∈ piece := by
  induction pieces with
  | nil => exact absurd member List.not_mem_nil
  | cons piece others ih =>
    cases others with
    | nil => exact .inr ⟨piece, List.mem_cons_self .., by simpa [joinWith] using member⟩
    | cons next later =>
      rw [joinWith, List.mem_append, List.mem_cons] at member
      · rcases member with here | rfl | there
        · exact .inr ⟨piece, List.mem_cons_self .., here⟩
        · exact .inl rfl
        · exact (ih there).imp_right fun ⟨other, listed, found⟩ =>
            ⟨other, List.mem_cons_of_mem _ listed, found⟩
      · simp

theorem infix_joinWith (member : piece ∈ pieces) : piece <:+: joinWith separator pieces := by
  induction pieces with
  | nil => exact absurd member List.not_mem_nil
  | cons first others ih =>
    cases others with
    | nil => simp_all [joinWith]
    | cons next later =>
      rw [joinWith]
      · rcases List.mem_cons.mp member with rfl | later
        · exact (List.prefix_append ..).isInfix
        · exact (ih later).trans ((List.suffix_cons ..).trans (List.suffix_append ..)).isInfix
      · simp

/-! ### A run up to a character -/

theorem takeWhile_block (inside : ∀ c ∈ block, inClass c = true) (outside : inClass stop = false)
    (rest : List Char) : (block ++ stop :: rest).takeWhile inClass = block := by
  rw [List.takeWhile_append_of_pos inside, List.takeWhile_cons_of_neg (by simp [outside]),
    List.append_nil]

theorem dropWhile_block (inside : ∀ c ∈ block, inClass c = true) (outside : inClass stop = false)
    (rest : List Char) : (block ++ stop :: rest).dropWhile inClass = stop :: rest := by
  rw [List.dropWhile_append_of_pos inside, List.dropWhile_cons_of_neg (by simp [outside])]

theorem runUpTo_eq_some (outside : inClass stop = false) :
    runUpTo inClass stop text = some (run, rest) ↔
      text = run ++ stop :: rest ∧ run ≠ [] ∧ ∀ c ∈ run, inClass c = true := by
  constructor
  · intro found
    unfold runUpTo at found
    split at found
    next c run' d rest' front back =>
      split at found
      next same =>
        cases found
        refine ⟨?_, by simp, fun c member => ?_⟩
        · rw [← front, ← same, ← back, List.takeWhile_append_dropWhile]
        · rw [← front] at member
          exact List.all_eq_true.mp List.all_takeWhile c member
      next => exact nomatch found
    next => exact nomatch found
  · rintro ⟨rfl, some, inside⟩
    obtain ⟨c, run, rfl⟩ := List.exists_cons_of_ne_nil some
    rw [runUpTo, takeWhile_block inside outside, dropWhile_block inside outside]
    exact if_pos rfl

/-! ### Runs -/

/-- Characters of the class, or one other character. -/
def IsPiece (inClass : Char → Bool) (piece : List Char) : Prop :=
  piece ≠ [] ∧ (∀ c ∈ piece, inClass c = true) ∨ ∃ c, inClass c = false ∧ piece = [c]

/-- Two pieces that are not both runs of the class. -/
def Apart (inClass : Char → Bool) (piece next : List Char) : Prop :=
  ¬ ((∀ c ∈ piece, inClass c = true) ∧ ∀ c ∈ next, inClass c = true)

theorem isPiece_singleton (inClass : Char → Bool) (c : Char) : IsPiece inClass [c] := by
  cases inside : inClass c with
  | true => exact .inl ⟨by simp, by simpa using inside⟩
  | false => exact .inr ⟨c, inside, rfl⟩

theorem flatten_runs (inClass : Char → Bool) (text : List Char) : (runs inClass text).flatten = text := by
  fun_induction runs inClass text with
  | case1 => rfl
  | case2 c rest d run others cut joins ih =>
    rw [cut] at ih
    rw [← ih]
    rfl
  | case3 c rest d run others cut ends ih =>
    rw [← cut, List.flatten_cons, ih, List.singleton_append]
  | case4 c rest none ih => rw [List.flatten_cons, ih, List.singleton_append]

theorem isPiece_of_mem_runs (member : piece ∈ runs inClass text) : IsPiece inClass piece := by
  fun_induction runs inClass text generalizing piece with
  | case1 => exact absurd member List.not_mem_nil
  | case2 c rest d run others cut joins ih =>
    rw [cut] at ih
    rw [Bool.and_eq_true] at joins
    rcases List.mem_cons.mp member with rfl | later
    · obtain ⟨_, whole⟩ | ⟨e, outside, same⟩ := ih (List.mem_cons_self ..)
      · exact .inl ⟨by simp, List.forall_mem_cons.mpr ⟨joins.1, whole⟩⟩
      · cases same
        exact absurd joins.2 (by simp [outside])
    · exact ih (List.mem_cons_of_mem _ later)
  | case3 c rest d run others cut ends ih =>
    rw [cut] at ih
    rcases List.mem_cons.mp member with rfl | later
    · exact isPiece_singleton inClass c
    · exact ih later
  | case4 c rest none ih =>
    rcases List.mem_cons.mp member with rfl | later
    · exact isPiece_singleton inClass c
    · exact ih later

theorem isChain_runs (inClass : Char → Bool) (text : List Char) :
    (runs inClass text).IsChain (Apart inClass) := by
  fun_induction runs inClass text with
  | case1 => exact List.IsChain.nil
  | case2 c rest d run others cut joins ih =>
    rw [cut, List.isChain_cons] at ih
    refine List.isChain_cons.mpr ⟨fun next here both => ih.1 next here ⟨fun e member => ?_, both.2⟩, ih.2⟩
    exact both.1 e (List.mem_cons_of_mem c member)
  | case3 c rest d run others cut ends ih =>
    rw [cut] at ih
    refine List.isChain_cons_cons.mpr ⟨fun both => ends ?_, ih⟩
    rw [Bool.and_eq_true]
    exact ⟨both.1 c (List.mem_cons_self ..), both.2 d (List.mem_cons_self ..)⟩
  | case4 c rest none ih =>
    refine List.isChain_cons.mpr ⟨fun next here => ?_, ih⟩
    obtain ⟨others, cut⟩ := List.head?_eq_some_iff.mp here
    have whole : IsPiece inClass next := isPiece_of_mem_runs (by rw [cut]; exact List.mem_cons_self ..)
    cases next with
    | nil => simp [IsPiece] at whole
    | cons d run => exact absurd cut (none d run others)

theorem runs_cons (inClass : Char → Bool) (c : Char) (rest : List Char) :
    ∃ run others, runs inClass (c :: rest) = (c :: run) :: others := by
  rw [runs]
  split
  · split <;> exact ⟨_, _, rfl⟩
  · exact ⟨_, _, rfl⟩

private theorem runs_cons_of_neg (outside : inClass c = false) (rest : List Char) :
    runs inClass (c :: rest) = [c] :: runs inClass rest := by
  rw [runs]
  split
  next d run others cut => rw [cut, outside, Bool.false_and, if_neg Bool.false_ne_true]
  next => rfl

private theorem runs_block (some : block ≠ []) (inside : ∀ c ∈ block, inClass c = true)
    (ends : ∀ c ∈ rest.head?, inClass c = false) :
    runs inClass (block ++ rest) = block :: runs inClass rest := by
  induction block with
  | nil => exact absurd rfl some
  | cons c block ih =>
    obtain ⟨here, inside⟩ := List.forall_mem_cons.mp inside
    cases block with
    | cons d block =>
      have next : inClass d = true := inside d (List.mem_cons_self ..)
      rw [List.cons_append, runs, ih (by simp) inside]
      simp [here, next]
    | nil =>
      cases rest with
      | nil => rfl
      | cons d rest =>
        obtain ⟨run, others, cut⟩ := runs_cons inClass d rest
        rw [List.singleton_append, runs, cut]
        simp [ends d rfl]

/-- Cutting into runs is the only way to write a text as separate pieces. -/
theorem runs_flatten (sound : ∀ piece ∈ pieces, IsPiece inClass piece)
    (apart : pieces.IsChain (Apart inClass)) : runs inClass pieces.flatten = pieces := by
  induction pieces with
  | nil => rfl
  | cons piece others ih =>
    obtain ⟨here, following⟩ := List.forall_mem_cons.mp sound
    obtain ⟨next, chain⟩ := List.isChain_cons.mp apart
    rw [List.flatten_cons]
    obtain ⟨some, inside⟩ | ⟨c, outside, rfl⟩ := here
    · rw [runs_block some inside, ih following chain]
      intro c first
      cases others with
      | nil => simp at first
      | cons follower later =>
        obtain ⟨_, whole⟩ | ⟨d, outside, rfl⟩ := following follower (List.mem_cons_self ..)
        · exact absurd ⟨inside, whole⟩ (next follower rfl)
        · cases first
          exact outside
    · rw [List.singleton_append, runs_cons_of_neg outside, ih following chain]

/-! ### Trimming -/

theorem infix_trimBy (inClass : Char → Bool) (text : List Char) : trimBy inClass text <:+: text := by
  have back : ((text.dropWhile inClass).reverse.dropWhile inClass).reverse <+: text.dropWhile inClass := by
    rw [← List.reverse_suffix, List.reverse_reverse]
    exact List.dropWhile_suffix inClass
  exact back.isInfix.trans (List.dropWhile_suffix inClass).isInfix

theorem trimBy_eq_self (head : ∀ c ∈ text.head?, inClass c = false)
    (last : ∀ c ∈ text.getLast?, inClass c = false) : trimBy inClass text = text := by
  have kept {line : List Char} (first : ∀ c ∈ line.head?, inClass c = false) :
      line.dropWhile inClass = line := by
    cases line with
    | nil => rfl
    | cons c rest => exact List.dropWhile_cons_of_neg (by simp [first c rfl])
  rw [trimBy, kept head, kept (by rw [List.head?_reverse]; exact last), List.reverse_reverse]

theorem isBlank_eq_false (shown : 33 ≤ c.toNat ∧ c.toNat ≤ 126) : isBlank c = false := by
  have away : ∀ range ∈ whiteSpaceRanges, range.2 < 33 ∨ 126 < range.1 := by decide
  have white : isWhiteSpace c = false := by
    refine List.any_eq_false.mpr fun range listed => ?_
    have := away range listed
    simp only [Bool.and_eq_true, decide_eq_true_eq]
    omega
  have high : ¬ c.toNat ≤ 0x1F := by omega
  simp [isBlank, white, high]

end PencilPuzzle.Text
