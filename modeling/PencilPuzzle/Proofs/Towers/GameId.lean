import PencilPuzzle.Proofs.Towers.Spelling

/-!
# Which identifiers of tower grids are read

An identifier of ASCII is read if and only if it has a sound spelling in the digits from 0 to 9, each
number being no longer than the limit on digits allows, and it is refused as an identifier otherwise,
as long as it has no numbers that long. Beyond ASCII there are characters that pass for digits and are
none: one of them where a number is expected, behind a beginning that is in order, is the one thing
that is not refused as an identifier.
-/

namespace PencilPuzzle.Towers.GameId

variable {limit : DigitLimit} {id : String} {numeral other : List Char → Nat → Prop} {spelling : Spelling}
  {parts : Parts} {size v height : Nat} {tokens : List Token} {text digits piece : List Char} {grid : Grid}
  {state : State}

/-! ### Other ways to read numbers -/

/-- Numbers within the text are read in the same way. -/
def Agree (numeral other : List Char → Nat → Prop) (text : List Char) : Prop :=
  ∀ digits n, digits <:+: text → (numeral digits n ↔ other digits n)

theorem Agree.symm (agree : Agree numeral other text) : Agree other numeral text :=
  fun digits n part => (agree digits n part).symm

private theorem infix_size (parts : Parts) : parts.size <:+: parts.text :=
  ((List.prefix_append ..).trans (List.prefix_append ..)).isInfix

private theorem infix_clues (parts : Parts) : parts.clues <:+: parts.text :=
  ((List.suffix_cons ..).trans (List.suffix_append ..)).isInfix.trans (List.prefix_append ..).isInfix

private theorem infix_field {field : List Char} (given : parts.field = some field) :
    field <:+: parts.text := by
  rw [Parts.text, given]
  exact ((List.suffix_cons ..).trans (List.suffix_append ..)).isInfix

private theorem infix_token {token : Token} (member : token ∈ tokens) :
    token.text <:+: fieldText tokens := by
  obtain ⟨before, after, rfl⟩ := List.append_of_mem member
  refine ⟨fieldText before, fieldText after, ?_⟩
  simp only [fieldText, List.flatMap_append, List.flatMap_cons, List.append_assoc]

namespace Spelling

private theorem infix_clue (member : text ∈ spelling.clues) : text <:+: spelling.text :=
  (Text.infix_joinWith member).trans (infix_clues spelling.parts)

private theorem infix_number (given : tokens ∈ spelling.field) (member : Token.number digits ∈ tokens) :
    digits <:+: spelling.text := by
  have field : spelling.parts.field = some (fieldText tokens) :=
    Option.map_eq_some_iff.mpr ⟨tokens, given, rfl⟩
  exact (infix_token member).trans (infix_field field)

theorem Sound.congr (agree : Agree numeral other spelling.text) (sound : spelling.Sound numeral size) :
    spelling.Sound other size where
  reads := (agree _ _ (infix_size spelling.parts)).mp sound.reads
  pos := sound.pos
  count := sound.count
  clues := by
    intro text member
    obtain ⟨clue, low, here⟩ := sound.clues text member
    exact ⟨clue, low, here.imp_right (agree text clue (infix_clue member)).mp⟩
  field := by
    intro tokens given
    obtain ⟨field, covers⟩ := sound.field tokens given
    refine ⟨⟨fun token member => ?_, field.whole⟩, covers⟩
    have here := field.sound token member
    cases token with
    | skip | bar => exact here
    | number digits =>
      obtain ⟨height, low, reads⟩ := here
      exact ⟨height, low, (agree digits height (infix_number given member)).mp reads⟩

theorem Gives.congr (agree : Agree numeral other spelling.text) (gives : spelling.Gives numeral v height) :
    spelling.Gives other v height := by
  obtain ⟨tokens, given, digits, ⟨before, after, rfl, place⟩, reads⟩ := gives
  have member : Token.number digits ∈ before ++ .number digits :: after :=
    List.mem_append_right before (List.mem_cons_self ..)
  exact ⟨_, given, digits, ⟨before, after, rfl, place⟩,
    (agree digits height (infix_number given member)).mp reads⟩

theorem Describes.congr (agree : Agree numeral other spelling.text)
    (describes : spelling.Describes numeral grid state) : spelling.Describes other grid state where
  size := (agree _ _ (infix_size spelling.parts)).mp describes.size
  clues := by
    have listed := (List.forall₂_and_left spelling.clues (Side.all.flatMap grid.clues.on)).mpr
      ⟨fun text => infix_clue, describes.clues⟩
    exact listed.imp fun text clue here => here.2.imp_right (agree text clue here.1).mp
  frame := describes.frame
  trail := describes.trail
  fixed v height gives := describes.fixed v height (gives.congr agree.symm)
  free v inside unset := describes.free v inside fun height gives => unset height (gives.congr agree)

end Spelling

/-! ### Identifiers of ASCII -/

/-- The text consists of digits from 0 to 9, no more than the limit allows, and this is its value. -/
def Plain (limit : DigitLimit) (digits : List Char) (n : Nat) : Prop :=
  Text.Decimal digits n ∧ limit.Allows digits.length

private theorem agree_plain (limit : DigitLimit) (ascii : Text.IsAscii text) :
    Agree limit.Reads (Plain limit) text := by
  intro digits n part
  rw [DigitLimit.reads_iff, Plain, Text.denotes_iff_decimal (ascii.of_part part)]

private theorem infix_trim (id : String) : Text.trim id.toList <:+: id.toList :=
  Text.infix_trimBy Text.isBlank id.toList

private theorem isDigit_of_isDigits (ascii : Text.IsAscii piece) (like : isDigits piece = true) :
    piece ≠ [] ∧ ∀ c ∈ piece, Text.isDigit c = true := by
  rw [isDigits, Bool.and_eq_true, List.all_eq_true] at like
  refine ⟨?_, fun c member => ?_⟩
  · rintro rfl
    exact Bool.false_ne_true like.1
  · rw [← Text.isDigitLike_of_ascii (ascii c member)]
    exact like.2 c member

private theorem infix_piece (leads : parts.LeadTo numeral size piece) : piece <:+: parts.text := by
  cases leads with
  | @clue before after _ cut sound =>
    have member : piece ∈ Text.splitOn '/' parts.clues := by
      rw [cut]
      exact List.mem_append_right before (List.mem_cons_self ..)
    have part : piece <:+: Text.joinWith '/' (Text.splitOn '/' parts.clues) := Text.infix_joinWith member
    rw [Text.joinWith_splitOn] at part
    exact part.trans (infix_clues parts)
  | @token field _ tokens pieces clues given cut sound inside =>
    have whole := Text.flatten_runs Text.isDigit field
    rw [cut, List.flatten_append, List.flatten_cons] at whole
    refine List.IsInfix.trans ?_ (infix_field given)
    exact ⟨(tokens.map Token.text).flatten, pieces.flatten, (List.append_assoc ..).trans whole⟩

/-- The text has so many digits in a row. -/
def HasDigits (text : List Char) (count : Nat) : Prop :=
  ∃ digits, digits <:+: text ∧ (∀ c ∈ digits, '0' ≤ c ∧ c ≤ '9') ∧ digits.length = count

private theorem hasDigits_of_unread {fault : Fault} (ascii : Text.IsAscii text) (part : piece <:+: text)
    (some : piece ≠ []) (inside : ∀ c ∈ piece, Text.isDigit c = true)
    (unread : limit.read piece = .error fault) :
    ∃ most ∈ limit, ∃ count > most, HasDigits text count ∧ fault = .numeral (.longText count most) := by
  obtain ⟨most, given, beyond, rfl⟩ | ⟨none, _⟩ := DigitLimit.read_eq_error unread
  · rw [List.takeWhile_eq_self_iff.mpr inside] at beyond ⊢
    refine ⟨most, given, piece.length, beyond, ⟨piece, part, fun c member => ?_, rfl⟩, rfl⟩
    exact (Text.isDigit_iff (ascii c (part.subset member))).mp (inside c member)
  · obtain ⟨n, denotes⟩ := Text.exists_denotes.mpr ⟨some, inside⟩
    exact absurd denotes (none n)

/-- An identifier of ASCII is read if and only if it has a sound spelling, and then all its spellings
describe what comes out; otherwise it is refused as an identifier, or it has a row of digits that is at
least as long as the limit. -/
theorem parse_ascii (ascii : Text.IsAscii id.toList) (limit : DigitLimit) :
    ((∃ result, parse limit id = .ok result) ↔
        ∃ (spelling : Spelling) (size : Nat), spelling.text = Text.trim id.toList ∧
          spelling.Sound (Plain limit) size) ∧
      (∀ grid state, parse limit id = .ok (grid, state) → ∀ (spelling : Spelling) (size : Nat),
        spelling.text = Text.trim id.toList → spelling.Sound (Plain limit) size →
          spelling.Describes (Plain limit) grid state) ∧
      ∀ fault, parse limit id = .error fault →
        (∃ cause, fault = .gameId cause) ∨
          ∃ most ∈ limit,
            (∃ count > most, HasDigits id.toList count ∧ fault = .numeral (.longText count most)) ∨
              HasDigits id.toList most ∧ fault = .numeral (.longNumber most) := by
  have inside : Text.IsAscii (Text.trim id.toList) := ascii.of_part (infix_trim id)
  have plain := agree_plain limit inside
  have describes (spelling : Spelling) (size : Nat) (same : spelling.text = Text.trim id.toList)
      (sound : spelling.Sound (Plain limit) size) :
      ∃ grid state, parse limit id = .ok (grid, state) ∧ spelling.Describes (Plain limit) grid state := by
    rw [← same] at plain
    obtain ⟨grid, state, read, describes⟩ := parse_of_sound (sound.congr plain.symm) same
    exact ⟨grid, state, read, describes.congr plain⟩
  refine ⟨⟨fun ⟨result, read⟩ => ?_, fun ⟨spelling, size, same, sound⟩ => ?_⟩, ?_, ?_⟩
  · cases outcome limit id with
    | spelled spelling size same sound => exact ⟨spelling, size, same, sound.congr (same ▸ plain)⟩
    | refused _ failed | unreadSize _ _ _ _ _ failed | longCount _ _ _ _ _ _ _ failed
    | unread _ _ _ _ _ _ _ _ _ failed =>
      rw [read] at failed
      exact nomatch failed
  · obtain ⟨grid, state, read, _⟩ := describes spelling size same sound
    exact ⟨(grid, state), read⟩
  · intro grid state read spelling size same sound
    obtain ⟨grid', state', read', described⟩ := describes spelling size same sound
    cases read.symm.trans read'
    exact described
  · intro fault failed
    cases outcome limit id with
    | spelled spelling size same sound =>
      obtain ⟨grid, state, read, _⟩ := parse_of_sound sound same
      rw [read] at failed
      exact nomatch failed
    | refused cause refused =>
      cases refused.symm.trans failed
      exact .inl ⟨cause, rfl⟩
    | unreadSize parts other sound same unread failed' =>
      cases failed'.symm.trans failed
      have part := same ▸ infix_size parts
      obtain ⟨most, given, long⟩ :=
        hasDigits_of_unread ascii (part.trans (infix_trim id)) sound.nonempty sound.digits unread
      exact .inr ⟨most, given, .inl long⟩
    | longCount parts size most same reads given beyond failed' =>
      cases failed'.symm.trans failed
      have part := same ▸ infix_size parts
      have digits := ((plain parts.size size part).mp reads).1.2.1
      refine .inr ⟨most, given, .inr ⟨?_, rfl⟩⟩
      exact ⟨parts.size, part.trans (infix_trim id), digits, reads.length_of_four given beyond⟩
    | unread parts size piece other opens same leads like unread failed' =>
      cases failed'.symm.trans failed
      have part := same ▸ infix_piece leads
      obtain ⟨some, digits⟩ := isDigit_of_isDigits (inside.of_part part) like
      obtain ⟨most, given, long⟩ := hasDigits_of_unread ascii (part.trans (infix_trim id)) some digits unread
      exact .inr ⟨most, given, .inl long⟩

theorem parse_ascii_single :
    ∃ grid state, parse DigitLimit.usual " 1:1///,_1" = .ok (grid, state) ∧
      Plain DigitLimit.usual ['1'] grid.size ∧ state.isLocked 0 = true ∧ state.candidates 0 = [0] := by
  have ascii : Text.IsAscii " 1:1///,_1".toList := by simp [Text.IsAscii]
  have one : Plain DigitLimit.usual ['1'] 1 := by
    refine ⟨⟨by decide, by simp, rfl⟩, fun most given => ?_⟩
    cases given
    decide
  let spelling : Spelling := ⟨['1'], [['1'], [], [], []], some [.bar, .number ['1']]⟩
  have same : spelling.text = Text.trim " 1:1///,_1".toList := by decide
  have sound : spelling.Sound (Plain DigitLimit.usual) 1 := by
    refine ⟨one, le_rfl, rfl, fun text member => ?_, fun tokens given => ?_⟩
    · obtain rfl | blank := List.mem_cons.mp member
      · exact ⟨1, le_rfl, .inr one⟩
      · exact ⟨0, Nat.zero_le 1,
          .inl ⟨List.eq_of_mem_replicate (show text ∈ List.replicate 3 [] from blank), rfl⟩⟩
    · cases given
      refine ⟨⟨fun token member => ?_, by simp [Token.IsNumber]⟩, rfl⟩
      obtain rfl | number := List.mem_cons.mp member
      · trivial
      · rw [List.mem_singleton.mp number]
        exact ⟨1, le_rfl, one⟩
  obtain ⟨reads, describes, _⟩ := parse_ascii ascii DigitLimit.usual
  obtain ⟨⟨grid, state⟩, read⟩ := reads.mpr ⟨spelling, 1, same, sound⟩
  have described := describes grid state read spelling 1 same sound
  have gives : spelling.Gives (Plain DigitLimit.usual) 0 1 :=
    ⟨_, rfl, ['1'], ⟨[.bar], [], rfl, rfl⟩, one⟩
  exact ⟨grid, state, read, described.size, described.fixed 0 1 gives (by decide)⟩

/-- Zeros before a numeral do not change its value, but they count against the limit. -/
theorem parse_zeros (most : Nat) :
    let id := String.ofList (List.replicate most '0' ++ ['1', ':', '/', '/', '/'])
    Text.IsAscii id.toList ∧
      (∃ spelling : Spelling, spelling.text = Text.trim id.toList ∧ spelling.Sound Text.Decimal 1) ∧
      parse (some most) id = .error (.numeral (.longText (most + 1) most)) := by
  intro id
  let zeros : List Char := List.replicate most '0' ++ ['1']
  let spelling : Spelling := ⟨zeros, [[], [], [], []], none⟩
  have decimal : Text.Decimal zeros 1 := by
    refine ⟨List.append_ne_nil_of_right_ne_nil _ (by decide), fun c member => ?_, ?_⟩
    · obtain zero | one := List.mem_append.mp member
      · rw [List.eq_of_mem_replicate zero]
        decide
      · rw [List.mem_singleton.mp one]
        decide
    · have zero : Nat.ofDigitChars 10 (List.replicate most '0') 0 = 0 := by
        induction most with
        | zero => rfl
        | succ most ih => exact ih
      rw [Nat.ofDigitChars_append, zero]
      rfl
  have sound : spelling.Sound Text.Decimal 1 := by
    refine ⟨decimal, le_rfl, rfl, fun text member => ⟨0, Nat.zero_le 1, .inl ⟨?_, rfl⟩⟩, nofun⟩
    exact List.eq_of_mem_replicate (show text ∈ List.replicate 4 [] from member)
  have spelled : id.toList = spelling.text := by
    rw [String.toList_ofList]
    show List.replicate most '0' ++ ['1', ':', '/', '/', '/'] = zeros ++ [':', '/', '/', '/'] ++ []
    simp [zeros]
  have same : spelling.text = Text.trim id.toList := by rw [spelled, sound.trim_text]
  refine ⟨fun c member => ?_, ⟨spelling, same, sound⟩, ?_⟩
  · have := sound.shown (spelled ▸ member)
    omega
  · have digits : ∀ c ∈ zeros, Text.isDigit c = true := decimal.denotes.isDigit
    have length : zeros.length = most + 1 := by simp [zeros]
    have long := @DigitLimit.read_of_long zeros most digits (by omega)
    rw [length] at long
    have slashes : ',' ∉ ['/', '/', '/'] := by decide
    have line : ∀ field ∈ (none : Option (List Char)), '\n' ∉ field := nofun
    exact parse_of_unread ⟨decimal.1, digits, slashes, line⟩ same long

theorem not_parse_ascii :
    let id := String.ofList (List.replicate 4300 '0' ++ ['1', ':', '/', '/', '/'])
    Text.IsAscii id.toList ∧
      (∃ spelling : Spelling, spelling.text = Text.trim id.toList ∧ spelling.Sound Text.Decimal 1) ∧
      parse DigitLimit.usual id = .error (.numeral (.longText 4301 4300)) :=
  parse_zeros 4300

/-! ### Characters that pass for digits -/

/-- Behind a beginning that is in order, the text has a piece that looks like digits and is no number. -/
def Stumbles (text piece : List Char) : Prop :=
  ∃ (parts : Parts) (size : Nat), parts.text = text ∧ parts.Opens Text.Denotes size ∧
    parts.LeadTo Text.Denotes size piece ∧ isDigits piece = true ∧ ∀ n, ¬ Text.Denotes piece n

private theorem reads_none_eq : DigitLimit.Reads none = Text.Denotes := by
  funext text n
  exact propext DigitLimit.reads_none

/-- Without a limit on digits, an identifier is refused as such or stopped at the first piece that
only looks like digits; and it is stopped there whatever follows. -/
theorem parse_faults (id : String) :
    (∀ fault, parse none id = .error fault → (∃ cause, fault = .gameId cause) ∨
      ∃ piece, Stumbles (Text.trim id.toList) piece ∧ fault = .numeral (.notNumeral (String.ofList piece))) ∧
    ∀ piece, Stumbles (Text.trim id.toList) piece →
      parse none id = .error (.numeral (.notNumeral (String.ofList piece))) := by
  constructor
  · intro fault failed
    have unlike {text : List Char} (unread : DigitLimit.read none text = .error fault) :
        (∀ n, ¬ Text.Denotes text n) ∧ fault = .numeral (.notNumeral (String.ofList text)) := by
      obtain ⟨_, given, _⟩ | unread := DigitLimit.read_eq_error unread
      · exact nomatch given
      · exact unread
    cases outcome none id with
    | spelled spelling size same sound =>
      obtain ⟨grid, state, read, _⟩ := parse_of_sound sound same
      rw [read] at failed
      exact nomatch failed
    | refused cause refused =>
      cases refused.symm.trans failed
      exact .inl ⟨cause, rfl⟩
    | unreadSize parts other sound same unread failed' =>
      cases failed'.symm.trans failed
      obtain ⟨n, denotes⟩ := Text.exists_denotes.mpr ⟨sound.nonempty, sound.digits⟩
      exact absurd denotes ((unlike unread).1 n)
    | longCount parts size most same reads given beyond failed' => exact nomatch given
    | unread parts size piece other opens same leads like unread failed' =>
      cases failed'.symm.trans failed
      obtain ⟨number, rfl⟩ := unlike unread
      rw [reads_none_eq] at opens leads
      exact .inr ⟨piece, ⟨parts, size, same, opens, leads, like, number⟩, rfl⟩
  · rintro piece ⟨parts, size, same, opens, leads, like, unlike⟩
    rw [← reads_none_eq] at opens leads
    exact parse_of_leadTo opens same leads like (DigitLimit.read_none_eq_error unlike)

theorem parse_faults_superscript :
    Stumbles (Text.trim "1:///,²".toList) ['²'] ∧
      parse none "1:///,²" = .error (.numeral (.notNumeral "²")) := by
  have stumbles : Stumbles (Text.trim "1:///,²".toList) ['²'] := by
    let parts : Parts := ⟨['1'], ['/', '/', '/'], some ['²']⟩
    have one : Text.Denotes ['1'] 1 := Text.Decimal.denotes ⟨by decide, by simp, rfl⟩
    have line : ∀ field ∈ parts.field, '\n' ∉ field := by
      intro field given
      cases given
      decide
    have opens : parts.Opens Text.Denotes 1 :=
      ⟨⟨by decide, List.forall_mem_singleton.mpr (by decide), by decide, line⟩, one, le_rfl, rfl⟩
    have leads : parts.LeadTo Text.Denotes 1 ['²'] := by
      have cut : Text.runs Text.isDigit ['²'] = ([] : List Token).map Token.text ++ ['²'] :: [] := by decide
      refine .token (fun text member => ⟨0, Nat.zero_le 1, .inl ⟨?_, rfl⟩⟩) rfl cut (fun token member => ?_)
        fun v digits puts => absurd puts not_puts_nil
      · exact List.eq_of_mem_replicate (show text ∈ List.replicate 4 [] from member)
      · exact absurd member List.not_mem_nil
    refine ⟨parts, 1, by decide, opens, leads, by decide, fun n denotes => ?_⟩
    exact nomatch denotes.isDigit '²' (List.mem_singleton_self _)
  exact ⟨stumbles, (parse_faults "1:///,²").2 ['²'] stumbles⟩

theorem not_parse_faults_gameId :
    parse none "1:²///" = .error (.numeral (.notNumeral "²")) ∧
      ¬ ∀ id fault, parse none id = .error fault → ∃ cause, fault = .gameId cause := by
  have failed : parse none "1:²///" = .error (.numeral (.notNumeral "²")) := by decide
  refine ⟨failed, fun all => ?_⟩
  obtain ⟨cause, same⟩ := all _ _ failed
  exact nomatch same

end PencilPuzzle.Towers.GameId
