import PencilPuzzle.Proofs.Loop.GameId
import PencilPuzzle.Proofs.Text.Skip

/-!
# Writing the hints of loop puzzles

A field spells out, face by face, which hint there is, if any: a digit or a capital stands for a hint
and a small letter for faces without one. What is written for a list of hints spells that list, so it is
read again as the same hints. A run of faces without hints can be cut into letters in many ways; writing
takes as few letters as can be, so no field with the same hints is shorter than the written one.
-/

namespace PencilPuzzle.Loop.GameId

open PencilPuzzle.Graph

/-! ### Fields as lists of hints -/

/-- The hint, if there is one, of each face that a text goes over. -/
def hintsOver : List Char → List (Option Nat)
  | [] => []
  | c :: rest =>
    match hint? c with
    | some hint => some hint :: hintsOver rest
    | none => List.replicate (step c) none ++ hintsOver rest

def entriesFrom (face : Nat) (list : List (Option Nat)) : List (Nat × Nat) :=
  (list.zipIdx face).filterMap fun entry => entry.1.map (entry.2, ·)

def hintMark (hint : Nat) : Char :=
  Char.ofNat (if hint < 10 then '0'.toNat + hint else 'A'.toNat + (hint - 10))

/-- What is written for a list of hints, with `run` faces without hints before them. -/
def marksFrom (run : Nat) : List (Option Nat) → List Char
  | [] => Text.skips run
  | none :: rest => marksFrom (run + 1) rest
  | some hint :: rest => Text.skips run ++ hintMark hint :: marksFrom 0 rest

def Bears (graph : Graph) (hints : List (Nat × Nat)) : Prop :=
  ∀ f value, graph.hintOf f = some value ↔ ∃ hint : Nat, (f, hint) ∈ hints ∧ value = hint

variable {limit : DigitLimit} {graph : Graph} {field : String} {c : Char} {text : List Char}
  {run face f hint : Nat} {faces : Int} {hints : List (Nat × Nat)} {list : List (Option Nat)}

private theorem step_le (c : Char) : step c ≤ 26 := by
  unfold step
  split
  next letter =>
    have bounds : 97 ≤ c.toNat ∧ c.toNat ≤ 122 := letter
    show c.toNat - 97 + 1 ≤ 26
    omega
  next => decide

theorem Means.le (means : Means c hint) : hint ≤ 35 := by
  obtain ⟨digit, same⟩ | ⟨capital, same⟩ := means
  · have bounds : 48 ≤ c.toNat ∧ c.toNat ≤ 57 := digit
    have value : c.toNat = 48 + hint := same
    omega
  · have bounds : 65 ≤ c.toNat ∧ c.toNat ≤ 90 := capital
    have value : c.toNat + 10 = 65 + hint := same
    omega

private theorem le_of_mem_hintsOver (member : some hint ∈ hintsOver text) : hint ≤ 35 := by
  induction text with
  | nil => exact absurd member List.not_mem_nil
  | cons c rest ih =>
    rw [hintsOver] at member
    split at member
    next here =>
      obtain same | later := List.mem_cons.mp member
      · cases same
        exact (hint?_eq_some.mp here).le
      · exact ih later
    next =>
      obtain skipped | later := List.mem_append.mp member
      · exact nomatch List.eq_of_mem_replicate skipped
      · exact ih later

theorem hintsOver_append (text rest : List Char) :
    hintsOver (text ++ rest) = hintsOver text ++ hintsOver rest := by
  induction text with
  | nil => rfl
  | cons c text ih =>
    rw [List.cons_append, hintsOver, hintsOver, ih]
    cases hint? c with
    | some hint => rfl
    | none => rw [List.append_assoc]

theorem length_hintsOver (text : List Char) : (hintsOver text).length = advance text := by
  induction text with
  | nil => rfl
  | cons c rest ih =>
    rw [hintsOver, advance_cons, ← ih]
    obtain ⟨hint, here, _, one⟩ | ⟨none, _⟩ | ⟨none, _⟩ := mark_cases c
    · rw [here, one, Nat.add_comm]
      rfl
    · rw [none, List.length_append, List.length_replicate]
    · rw [none, List.length_append, List.length_replicate]

theorem entriesFrom_append (face : Nat) (list rest : List (Option Nat)) :
    entriesFrom face (list ++ rest) = entriesFrom face list ++ entriesFrom (face + list.length) rest := by
  rw [entriesFrom, List.zipIdx_append, List.filterMap_append, entriesFrom, entriesFrom]

private theorem entriesFrom_replicate (face count : Nat) :
    entriesFrom face (List.replicate count none) = [] := by
  refine List.filterMap_eq_nil_iff.mpr fun entry member => ?_
  have listed : entry.1 ∈ List.replicate count none := List.fst_mem_of_mem_zipIdx member
  rw [List.eq_of_mem_replicate listed, Option.map_none]

theorem mem_entriesFrom : (f, hint) ∈ entriesFrom 0 list ↔ list[f]? = some (some hint) := by
  rw [entriesFrom, List.mem_filterMap]
  constructor
  · rintro ⟨⟨given, place⟩, member, same⟩
    obtain ⟨value, rfl, entry⟩ := Option.map_eq_some_iff.mp same
    cases entry
    exact List.mem_zipIdx_iff_getElem?.mp member
  · intro here
    exact ⟨(some hint, f), List.mem_zipIdx_iff_getElem?.mpr here, rfl⟩

private theorem hintsAt_eq (face : Nat) (text : List Char) :
    hintsAt face text = entriesFrom face (hintsOver text) := by
  induction text generalizing face with
  | nil => rfl
  | cons c rest ih =>
    rw [hintsAt, hintsOver]
    obtain ⟨hint, here, _, one⟩ | ⟨none, _⟩ | ⟨none, _⟩ := mark_cases c
    · rw [here]
      dsimp only
      rw [one, ih]
      rfl
    · rw [none]
      dsimp only
      rw [entriesFrom_append, entriesFrom_replicate, List.length_replicate, ih, List.nil_append]
    · rw [none]
      dsimp only
      rw [entriesFrom_append, entriesFrom_replicate, List.length_replicate, ih, List.nil_append]

/-! ### Writing -/

private theorem means_hintMark (low : hint ≤ 35) : Means (hintMark hint) hint := by
  have code : (hintMark hint).toNat = if hint < 10 then 48 + hint else 65 + (hint - 10) := by
    have valid : (if hint < 10 then 48 + hint else 65 + (hint - 10)).isValidChar := by
      refine .inl ?_
      split <;> omega
    show (Char.ofNat (if hint < 10 then 48 + hint else 65 + (hint - 10))).toNat = _
    rw [Char.ofNat, dif_pos valid]
    rfl
  by_cases digit : hint < 10
  · rw [if_pos digit] at code
    refine .inl ⟨?_, code⟩
    show 48 ≤ (hintMark hint).toNat ∧ (hintMark hint).toNat ≤ 57
    omega
  · rw [if_neg digit] at code
    refine .inr ⟨?_, ?_⟩
    · show 65 ≤ (hintMark hint).toNat ∧ (hintMark hint).toNat ≤ 90
      omega
    · show (hintMark hint).toNat + 10 = 65 + hint
      omega

private theorem hintText_eq (low : hint ≤ 35) : hintText hint = .ok [Text.codePoint (hintMark hint)] := by
  have digits : ∀ hint < 10, hintText (hint : Nat) = .ok [Text.codePoint (hintMark hint)] := by decide
  have capitals : ∀ hint < 36, 10 ≤ hint →
      hintText (hint : Nat) = .ok [Text.codePoint (hintMark hint)] := by decide
  by_cases digit : hint < 10
  · exact digits hint digit
  · exact capitals hint (by omega) (by omega)

private theorem fieldFrom_eq (low : ∀ hint, some hint ∈ list → hint ≤ 35) (run : Nat) :
    fieldFrom run (list.map (Option.map Int.ofNat)) = .ok ((marksFrom run list).map Text.codePoint) := by
  induction list generalizing run with
  | nil => rfl
  | cons first rest ih =>
    have later := ih fun hint member => low hint (List.mem_cons_of_mem _ member)
    cases first with
    | none => exact later (run + 1)
    | some hint =>
      have first : hintText (Int.ofNat hint) = .ok [Text.codePoint (hintMark hint)] :=
        hintText_eq (low hint (List.mem_cons_self ..))
      rw [List.map_cons, Option.map_some, fieldFrom, first, later 0, marksFrom, List.map_append,
        List.map_cons]
      show Except.ok _ = Except.ok _
      rw [skipText, List.append_assoc, List.singleton_append]

private theorem hint?_of_letter (letter : 'a' ≤ c ∧ c ≤ 'z') : hint? c = none := by
  have bounds : 97 ≤ c.toNat ∧ c.toNat ≤ 122 := letter
  refine Option.eq_none_iff_forall_ne_some.mpr fun hint found => ?_
  obtain ⟨digit, _⟩ | ⟨capital, _⟩ := hint?_eq_some.mp found
  · have : 48 ≤ c.toNat ∧ c.toNat ≤ 57 := digit
    omega
  · have : 65 ≤ c.toNat ∧ c.toNat ≤ 90 := capital
    omega

private theorem hintsOver_letters (letters : ∀ c ∈ text, 'a' ≤ c ∧ c ≤ 'z') :
    hintsOver text = List.replicate (Marks.advance Text.skipped text) none := by
  induction text with
  | nil => rfl
  | cons c rest ih =>
    obtain ⟨letter, letters⟩ := List.forall_mem_cons.mp letters
    have place : step c = Text.skipped c := if_pos letter
    rw [hintsOver, hint?_of_letter letter, Marks.advance_cons, List.replicate_add, ih letters, place]

private theorem hintsOver_skips (run : Nat) : hintsOver (Text.skips run) = List.replicate run none := by
  rw [hintsOver_letters fun _ => Text.letter_of_mem_skips, Text.advance_skips]

private theorem hintsOver_marksFrom (low : ∀ hint, some hint ∈ list → hint ≤ 35) (run : Nat) :
    hintsOver (marksFrom run list) = List.replicate run none ++ list := by
  induction list generalizing run with
  | nil => rw [marksFrom, hintsOver_skips, List.append_nil]
  | cons first rest ih =>
    have later := ih fun hint member => low hint (List.mem_cons_of_mem _ member)
    cases first with
    | none => rw [marksFrom, later (run + 1), List.replicate_succ', List.append_assoc, List.singleton_append]
    | some hint =>
      have means := means_hintMark (low hint (List.mem_cons_self ..))
      rw [marksFrom, hintsOver_append, hintsOver_skips, hintsOver, hint?_eq_some.mpr means]
      dsimp only
      rw [later 0]
      rfl

private theorem isMark_marksFrom (low : ∀ hint, some hint ∈ list → hint ≤ 35) (run : Nat) :
    ∀ c ∈ marksFrom run list, IsMark c := by
  have letters (run : Nat) (c : Char) (member : c ∈ Text.skips run) : IsMark c :=
    .inr (.inr (Text.letter_of_mem_skips member))
  induction list generalizing run with
  | nil => exact letters run
  | cons first rest ih =>
    have later := ih fun hint member => low hint (List.mem_cons_of_mem _ member)
    cases first with
    | none => exact later (run + 1)
    | some hint =>
      intro c member
      obtain skipped | rfl | after := List.mem_append.mp member |>.imp_right List.mem_cons.mp
      · exact letters run c skipped
      · obtain ⟨digit, _⟩ | ⟨capital, _⟩ := means_hintMark (low hint (List.mem_cons_self ..))
        · exact .inl digit
        · exact .inr (.inl capital)
      · exact later 0 c after

/-! ### The fewest letters -/

private theorem marksFrom_replicate (run count : Nat) (list : List (Option Nat)) :
    marksFrom run (List.replicate count none ++ list) = marksFrom (run + count) list := by
  induction count generalizing run with
  | zero => rfl
  | succ count ih =>
    rw [List.replicate_succ, List.cons_append, marksFrom, ih, Nat.add_right_comm, Nat.add_assoc]

/-- A letter skips at most 26 faces, so a run takes no fewer letters than are written for it. -/
theorem length_marksFrom_le (run : Nat) (text : List Char) :
    (marksFrom run (hintsOver text)).length ≤ (run + 25) / 26 + text.length := by
  induction text generalizing run with
  | nil => exact (Text.length_skips run).le
  | cons c rest ih =>
    rw [hintsOver, List.length_cons]
    cases hint? c with
    | some hint =>
      have later := ih 0
      have letters := Text.length_skips run
      dsimp only
      rw [marksFrom, List.length_append, List.length_cons]
      omega
    | none =>
      have later := ih (run + step c)
      have most := step_le c
      dsimp only
      rw [marksFrom_replicate]
      omega

/-! ### Graphs -/

private theorem encodeHints_eq (low : ∀ hint, some hint ∈ list → hint ≤ 35)
    (same : graph.faceIds.map graph.hintOf = list.map (Option.map Int.ofNat)) :
    encodeHints graph = .ok ((marksFrom 0 list).map Text.codePoint) := by
  rw [encodeHints, same]
  exact fieldFrom_eq low 0

private theorem parseHints_marksFrom (limit : DigitLimit) (low : ∀ hint, some hint ∈ list → hint ≤ 35) :
    parseHints limit (String.ofList (marksFrom 0 list)) list.length = .ok (entriesFrom 0 list) := by
  have spells : hintsOver (marksFrom 0 list) = list := hintsOver_marksFrom low 0
  have covers : 0 + advance (marksFrom 0 list) = list.length := by
    rw [← length_hintsOver, spells, Nat.zero_add]
  rw [parseHints, String.toList_ofList]
  exact hintsFrom_eq_ok.mpr ⟨⟨isMark_marksFrom low 0, covers⟩, by rw [hintsAt_eq, spells]⟩

private theorem parseHints_eq_ok (read : parseHints limit field faces = .ok hints) :
    faces = (hintsOver field.toList).length ∧ hints = entriesFrom 0 (hintsOver field.toList) := by
  have natural : 0 ≤ faces := by
    rw [parseHints] at read
    cases chars : field.toList with
    | nil =>
      rw [chars, hintsFrom] at read
      split at read
      next covers => omega
      next => cases read
    | cons c rest =>
      rw [chars, hintsFrom] at read
      split at read
      next => cases read
      next short => omega
  obtain ⟨count, rfl⟩ := Int.eq_ofNat_of_zero_le natural
  obtain ⟨⟨_, covers⟩, same⟩ := hintsFrom_eq_ok.mp read
  rw [length_hintsOver, ← hintsAt_eq]
  exact ⟨congrArg Int.ofNat (covers.symm.trans (Nat.zero_add _)), same.symm⟩

private theorem hintOf_eq_join (graph : Graph) (f : Nat) :
    graph.hintOf f = ((graph.faceIds.map graph.hintOf)[f]?).join := by
  rw [List.getElem?_map]
  by_cases inside : f < graph.faces.size
  · rw [faceIds, List.getElem?_range inside]
    rfl
  · rw [faceIds, List.getElem?_eq_none (by rw [List.length_range]; omega), hintOf,
      Array.getElem?_eq_none (Nat.le_of_not_lt inside)]
    rfl

theorem bears_iff (size : graph.faces.size = list.length) : Bears graph (entriesFrom 0 list) ↔
    graph.faceIds.map graph.hintOf = list.map (Option.map Int.ofNat) := by
  constructor
  · intro bears
    apply List.ext_getElem?
    intro f
    rw [List.getElem?_map, List.getElem?_map]
    by_cases inside : f < list.length
    · rw [faceIds, List.getElem?_range (size ▸ inside), List.getElem?_eq_getElem inside, Option.map_some,
        Option.map_some]
      refine congrArg some (Option.ext fun value => ?_)
      rw [bears, Option.map_eq_some_iff]
      refine exists_congr fun hint => ?_
      rw [mem_entriesFrom, List.getElem?_eq_getElem inside, Option.some.injEq, eq_comm (a := value)]
      rfl
    · rw [List.getElem?_eq_none (by rw [faceIds, List.length_range]; omega),
        List.getElem?_eq_none (Nat.le_of_not_lt inside)]
      rfl
  · intro same f value
    simp only [hintOf_eq_join graph f, same, List.getElem?_map, mem_entriesFrom]
    cases list[f]? with
    | none => simp
    | some given =>
      cases given with
      | none => simp
      | some hint => simp [eq_comm]

private theorem exists_list (low : ∀ f value, graph.hintOf f = some value → 0 ≤ value ∧ value ≤ 35) :
    ∃ list : List (Option Nat), graph.faces.size = list.length ∧ (∀ hint, some hint ∈ list → hint ≤ 35) ∧
      graph.faceIds.map graph.hintOf = list.map (Option.map Int.ofNat) := by
  refine ⟨graph.faceIds.map fun f => (graph.hintOf f).map Int.toNat, ?_, fun hint member => ?_, ?_⟩
  · rw [List.length_map, faceIds, List.length_range]
  · obtain ⟨f, _, here⟩ := List.mem_map.mp member
    obtain ⟨value, given, rfl⟩ := Option.map_eq_some_iff.mp here
    have := low f value given
    omega
  · rw [List.map_map]
    refine List.map_congr_left fun f _ => ?_
    rw [Function.comp_apply]
    cases given : graph.hintOf f with
    | none => rfl
    | some value => exact congrArg some (Int.toNat_of_nonneg (low f value given).1).symm

/-- What is written for hints up to 35 is read as these hints. And for each field that is read for a number
of faces, every graph of so many faces can be given its hints, and what is written for a graph with them is
no longer and is read as the same hints. -/
theorem parseHints_encodeHints (limit : DigitLimit) :
    (∀ graph : Graph, (∀ f value, graph.hintOf f = some value → 0 ≤ value ∧ value ≤ 35) →
      ∃ written hints, encodeHints graph = .ok (written.map Text.codePoint) ∧
        parseHints limit (String.ofList written) graph.faces.size = .ok hints ∧ Bears graph hints) ∧
    ∀ (field : String) (faces : Int) (hints : List (Nat × Nat)),
      parseHints limit field faces = .ok hints →
        (∀ (vertexCount : Nat) (cycles : List (List Int)) (plain : Graph),
          Graph.build vertexCount cycles [] = .ok plain → plain.faces.size = faces →
            ∃ graph, Graph.build vertexCount cycles (graphHints hints) = .ok graph ∧
              graph.unhinted = plain ∧ Bears graph hints) ∧
        ∀ graph : Graph, graph.faces.size = faces → Bears graph hints →
          ∃ written, encodeHints graph = .ok (written.map Text.codePoint) ∧
            written.length ≤ field.length ∧
            parseHints limit (String.ofList written) faces = .ok hints := by
  constructor
  · intro graph low
    obtain ⟨list, size, bound, same⟩ := exists_list low
    refine ⟨marksFrom 0 list, entriesFrom 0 list, encodeHints_eq bound same, ?_, (bears_iff size).mpr same⟩
    rw [size]
    exact parseHints_marksFrom limit bound
  · intro field faces hints read
    obtain ⟨covers, rfl⟩ := parseHints_eq_ok read
    refine ⟨fun vertexCount cycles plain built size => ?_, fun graph size bears => ?_⟩
    · have whole : advance field.toList = plain.faces.size := by
        rw [← length_hintsOver]
        omega
      rw [← hintsAt_eq]
      obtain ⟨graph, hinted, same, given⟩ := Graph.exists_build built (proper_hintsAt whole)
      exact ⟨graph, hinted, same, fun f value => (given f value).trans mem_graphHints⟩
    · have size : graph.faces.size = (hintsOver field.toList).length := by omega
      have low (hint : Nat) (member : some hint ∈ hintsOver field.toList) : hint ≤ 35 :=
        le_of_mem_hintsOver member
      refine ⟨marksFrom 0 (hintsOver field.toList), encodeHints_eq low ((bears_iff size).mp bears), ?_, ?_⟩
      · have least := length_marksFrom_le 0 field.toList
        rw [String.length_toList] at least
        omega
      · rw [covers]
        exact parseHints_marksFrom limit low

/-- Thirty squares in a row, the first and the last but one with hints. -/
def strip : Graph :=
  .ofCycles 62 ((List.range 30).map fun i => [2 * i, 2 * i + 1, 2 * i + 3, 2 * i + 2])
    (graphHints [(0, 3), (28, 12)])

/-- Two letters `m` skip the 26 faces that one `z` does. -/
theorem parseHints_encodeHints_strip :
    parseHints DigitLimit.usual "3mmaCa" 30 = .ok [(0, 3), (28, 12)] ∧
      encodeHints strip = .ok ("3zaCa".toList.map Text.codePoint) ∧
      parseHints DigitLimit.usual "3zaCa" 30 = .ok [(0, 3), (28, 12)] := by
  have read : parseHints DigitLimit.usual "3mmaCa" 30 = .ok [(0, 3), (28, 12)] := by decide
  have encoded : encodeHints strip = .ok ("3zaCa".toList.map Text.codePoint) := by decide +kernel
  have proper : (graphHints [(0, 3), (28, 12)]).Proper 30 := ⟨by decide, by decide, by decide⟩
  have bears : Bears strip [(0, 3), (28, 12)] :=
    fun f value => (hintOf_ofCycles 62 proper).trans mem_graphHints
  obtain ⟨written, same, _, again⟩ :=
    ((parseHints_encodeHints DigitLimit.usual).2 "3mmaCa" 30 _ read).2 strip (by decide +kernel) bears
  have text : written = "3zaCa".toList :=
    List.map_injective_iff.mpr (fun _ _ => Text.codePoint_injective) (Except.ok.inj (same.symm.trans encoded))
  rw [text] at again
  exact ⟨read, encoded, again⟩

end PencilPuzzle.Loop.GameId
