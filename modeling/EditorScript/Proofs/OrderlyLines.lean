import EditorScript.Proofs.BlockText
import EditorScript.Proofs.CommentedLines
import EditorScript.Proofs.Guards

/-!
# Lines with comments between statements

Recovery finds the ends of statements and of containers without regard to comments that
begin further down.  In orderly lines a comment begins at the start of a line and stands
between statements, and no line inside it holds a call that closes a container.  Then
every end that recovery finds lies in code, so what it goes on with is orderly again.
-/

namespace EditorScript

open Pattern

variable {mode : Mode} {line inside before after : Text} {lines rest behind front more : List Text}
  {block : Block}

/-! ## Orderly lines -/

/-- Whether a line holds a call that closes a container of some kind. -/
def endsContainer (line : Text) : Bool :=
  ContainerShape.all.any fun shape => shape.closes.occurs (codeOf line)

/-- Whether no comment begins a line up to the one that ends with a semicolon, blocks passed
over as a whole; `count` lines are still to be passed over. -/
def reachesSemicolon : Nat → List Text → Bool
  | _, [] => true
  | count + 1, _ :: rest => reachesSemicolon count rest
  | 0, line :: rest =>
    let code := codeOf line
    !code.startsWith "/*" && (code.endsWith ";" ||
      if opensBrace code then
        (findBlock? (line :: rest) 0).all fun block =>
          block.endLine == 0 || reachesSemicolon (block.endLine - 1) rest
      else reachesSemicolon 0 rest)

/-- Whether a brace opens at the start of the first code. -/
def beginsWithBrace (lines : List Text) : Bool :=
  (firstCode? lines).any fun (_, code) => code.startsWith "\x7b"

/-- Whether the statement at the front of some lines takes a block or a semicolon to its
end, and that not in a comment. -/
def endsInCode (line : Text) (rest : List Text) : Bool :=
  opensBrace (codeOf line) || beginsWithBrace rest || reachesSemicolon 0 (line :: rest)

/-- Whether some code is a click on a button with what it does left to the lines below. -/
def isBareClick (code : Text) : Bool :=
  (Step.buttonCall.match? code).any fun found => (Text.trim (found.captured "rest")).isEmpty

/-- The braces of a block stand on one line, or nothing is behind the opening one and in
front of the closing one. -/
def Block.IsNeat (block : Block) (lines : List Text) : Prop :=
  block.openLine = block.endLine ∨
    Text.blank ((lines.getD block.openLine []).drop (block.openColumn + 1)) ∧
      Text.blank ((lines.getD block.endLine []).take block.closeColumn)

instance (block : Block) (lines : List Text) : Decidable (block.IsNeat lines) :=
  inferInstanceAs (Decidable (_ ∨ _))

/-- A line in front of others that is read in code mode and begins with no comment: no
comment goes on behind it, a conditional statement has its braces at the ends of their
lines, and the statement that begins there ends in code. -/
structure CodeLine (line : Text) (rest : List Text) : Prop where
  begins : (codeOf line).startsWith "/*" = false
  ends : lineEnd .code line = .code
  neat : (codeOf line).startsWith "if" → ∀ block ∈ findBlock? (line :: rest) 0,
    block.IsNeat (line :: rest)
  statement : codeOf line = [] ∨ codeOf line = "\x7d" ∨ endsInCode line rest
  click : isBareClick (codeOf line) → beginsWithBrace rest ∨ reachesSemicolon 0 rest

instance (line : Text) (rest : List Text) : Decidable (CodeLine line rest) :=
  decidable_of_iff ((codeOf line).startsWith "/*" = false ∧ lineEnd .code line = .code ∧
      ((codeOf line).startsWith "if" → ∀ block ∈ findBlock? (line :: rest) 0,
        block.IsNeat (line :: rest)) ∧
      (codeOf line = [] ∨ codeOf line = "\x7d" ∨ endsInCode line rest) ∧
      (isBareClick (codeOf line) → beginsWithBrace rest ∨ reachesSemicolon 0 rest))
    ⟨fun ⟨begins, ends, neat, statement, click⟩ => ⟨begins, ends, neat, statement, click⟩,
      fun h => ⟨h.begins, h.ends, h.neat, h.statement, h.click⟩⟩

/-- Lines, the first of which starts in a mode, with comments between statements only. -/
inductive Orderly : Mode → List Text → Prop
  | done (mode : Mode) : Orderly mode []
  | code {line : Text} {rest : List Text} (hline : CodeLine line rest)
      (hrest : Orderly .code rest) : Orderly .code (line :: rest)
  /-- A comment takes the line up to its end and goes on below it. -/
  | inside {mode : Mode} {line inside : Text} {rest : List Text}
      (h : commented? mode line = some inside) (hcut : Text.cutAt? "*/" inside = none)
      (hquiet : endsContainer line = false) (hrest : Orderly .comment rest) :
      Orderly mode (line :: rest)
  /-- A comment ends on the line, with no brace behind it. -/
  | closed {mode : Mode} {line inside before after : Text} {rest : List Text}
      (h : commented? mode line = some inside)
      (hcut : Text.cutAt? "*/" inside = some (before, after)) (hline : CodeLine after rest)
      (hbrace : ∀ c ∈ lineChars .code after, c ≠ '\x7b' ∧ c ≠ '\x7d')
      (hrest : Orderly .code rest) : Orderly mode (line :: rest)

theorem startsWith_of_commented? (h : commented? .code line = some inside) :
    (codeOf line).startsWith "/*" := by
  rw [commented?] at h
  split at h
  · assumption
  · cases h

theorem lineEnd_inside (h : commented? mode line = some inside)
    (hcut : Text.cutAt? "*/" inside = none) : lineEnd mode line = .comment := by
  rw [lineEnd_eq_reading, reading_open h hcut]
  rfl

theorem lineEnd_closed (h : commented? mode line = some inside)
    (hcut : Text.cutAt? "*/" inside = some (before, after)) :
    lineEnd mode line = lineEnd .code after := by
  rw [lineEnd_eq_reading, reading_closed h hcut, ← lineEnd_eq_reading]

/-- What follows a line of orderly lines is orderly in the mode that the line leads to. -/
theorem Orderly.tail (h : Orderly mode (line :: rest)) : Orderly (lineEnd mode line) rest := by
  cases h with
  | code hline hrest => rwa [hline.ends]
  | inside h hcut _ hrest => rwa [lineEnd_inside h hcut]
  | closed h hcut hline _ hrest => rwa [lineEnd_closed h hcut, hline.ends]

/-- What follows some lines of orderly lines is orderly in the mode that they lead to. -/
theorem Orderly.append_right (h : Orderly mode (front ++ behind)) :
    Orderly (modeBehind mode front) behind := by
  induction front generalizing mode with
  | nil => exact h
  | cons line others ih => exact ih h.tail

/-- A line of orderly lines that is read in code mode and begins with no comment. -/
theorem Orderly.codeLine (h : Orderly .code (line :: rest))
    (hbegins : (codeOf line).startsWith "/*" = false) : CodeLine line rest := by
  cases h with
  | code hline _ => exact hline
  | inside h _ _ _ | closed h _ _ _ _ =>
    rw [startsWith_of_commented? h] at hbegins
    cases hbegins

/-- Behind the end of a comment a line of orderly lines is one of code. -/
theorem Orderly.of_closed (h : Orderly mode (line :: rest))
    (hcommented : commented? mode line = some inside)
    (hcut : Text.cutAt? "*/" inside = some (before, after)) :
    CodeLine after rest ∧ Orderly .code rest := by
  cases h with
  | code hline _ =>
    have hbegins := hline.begins
    rw [startsWith_of_commented? hcommented] at hbegins
    cases hbegins
  | inside h hopen _ _ =>
    obtain rfl := Option.some.inj (h.symm.trans hcommented)
    cases hopen.symm.trans hcut
  | closed h hend hline _ hrest =>
    obtain rfl := Option.some.inj (h.symm.trans hcommented)
    obtain ⟨rfl, rfl⟩ := Prod.mk.inj (Option.some.inj (hend.symm.trans hcut))
    exact ⟨hline, hrest⟩

/-! ## Lines that lead back to code -/

/-- The lines left behind are the end of some lines, and those in front of them lead from a
mode to code mode. -/
def LeadsTo (mode : Mode) (lines behind : List Text) : Prop :=
  ∃ front, lines = front ++ behind ∧ modeBehind mode front = .code

namespace LeadsTo

theorem refl (lines : List Text) : LeadsTo .code lines lines := ⟨[], rfl, rfl⟩

theorem trans {others : List Text} (h : LeadsTo mode lines behind)
    (h' : LeadsTo .code behind others) : LeadsTo mode lines others := by
  obtain ⟨front, rfl, hfront⟩ := h
  obtain ⟨between, rfl, hbetween⟩ := h'
  exact ⟨front ++ between, by rw [List.append_assoc], by rw [modeBehind_append, hfront, hbetween]⟩

theorem cons (h : LeadsTo (lineEnd mode line) rest behind) :
    LeadsTo mode (line :: rest) behind := by
  obtain ⟨front, rfl, hfront⟩ := h
  exact ⟨line :: front, rfl, hfront⟩

theorem of_line (h : lineEnd mode line = .code) (rest : List Text) :
    LeadsTo mode (line :: rest) rest :=
  cons (h ▸ refl rest)

/-- Lines without code lead to the first code. -/
theorem of_firstCode? {place : Nat} {code : Text} (h : firstCode? lines = some (place, code)) :
    LeadsTo .code lines (lines.drop place) := by
  induction lines generalizing place with
  | nil => cases h
  | cons line rest ih =>
    rw [firstCode?] at h
    split at h
    · rename_i hempty
      obtain ⟨⟨other, _⟩, hfirst, heq⟩ := Option.map_eq_some_iff.mp h
      obtain ⟨rfl, rfl⟩ := Prod.mk.inj heq
      have hend := (line_of_codeOf_nil (List.isEmpty_iff.mp hempty)).2
      exact (of_line hend rest).trans (ih hfirst)
    · obtain ⟨rfl, -⟩ := Prod.mk.inj (Option.some.inj h)
      exact refl _

/-- What orderly lines lead to is orderly. -/
theorem orderly (h : LeadsTo mode lines behind) (horderly : Orderly mode lines) :
    Orderly .code behind := by
  obtain ⟨front, rfl, hfront⟩ := h
  exact hfront ▸ horderly.append_right

/-- What is left behind lies in comments as it does on its own. -/
theorem isCommented_iff (h : LeadsTo .code lines behind) (place : Nat) :
    IsCommented lines (lines.length - behind.length + place) ↔ IsCommented behind place := by
  obtain ⟨front, rfl, hfront⟩ := h
  rw [List.length_append, Nat.add_sub_cancel, isCommented_append_right hfront]

end LeadsTo

/-! ## Lines with braces -/

/-- A code character stands on a line that is read in the mode behind those above it. -/
theorem exists_line_of_mem {number : Nat} {c : CodeChar} (h : c ∈ codeCharsFrom mode number lines) :
    ∃ above line below, lines = above ++ line :: below ∧ c.line = number + above.length ∧
      c.char ∈ lineChars (modeBehind mode above) line := by
  induction lines generalizing mode number with
  | nil => cases h
  | cons line rest ih =>
    rw [codeCharsFrom, List.mem_append] at h
    rcases h with h | h
    · obtain ⟨entry, hentry, rfl⟩ := List.mem_map.mp h
      exact ⟨[], line, rest, rfl, rfl, List.mem_map.mpr ⟨entry, hentry, rfl⟩⟩
    · obtain ⟨above, other, below, rfl, hline, hchar⟩ := ih h
      exact ⟨line :: above, other, below, rfl, by rw [hline, List.length_cons]; omega, hchar⟩

/-- A brace that is code stands on a line that is read from code mode to code mode and does
not lie in comments. -/
theorem Orderly.of_brace (h : Orderly mode (line :: rest)) {c : Char}
    (hmem : c ∈ lineChars mode line) (hbrace : c = '\x7b' ∨ c = '\x7d') :
    mode = .code ∧ lineEnd .code line = .code ∧ onlyComments .code line = false := by
  have hsolid : c ∈ solid (lineChars mode line) := by
    refine List.mem_filter.mpr ⟨hmem, ?_⟩
    rcases hbrace with rfl | rfl <;> decide
  rw [solid_lineChars_eq_reading] at hsolid
  cases h with
  | code hline hrest =>
    exact ⟨rfl, hline.ends, commented_of_code (List.ne_nil_of_mem hsolid)⟩
  | inside h hcut _ _ =>
    rw [reading_open h hcut] at hsolid
    cases hsolid
  | closed h hcut _ hbraces _ =>
    rw [reading_closed h hcut, ← solid_lineChars_eq_reading] at hsolid
    obtain ⟨hopen, hclose⟩ := hbraces c (List.mem_of_mem_filter hsolid)
    exact (hbrace.elim hopen hclose).elim

/-- Orderly lines lead to a line with a brace and to the lines behind it. -/
theorem Orderly.leadsTo_brace (h : Orderly mode lines) {c : CodeChar}
    (hmem : c ∈ codeCharsFrom mode 0 lines) (hbrace : c.char = '\x7b' ∨ c.char = '\x7d') :
    LeadsTo mode lines (lines.drop c.line) ∧ LeadsTo mode lines (lines.drop (c.line + 1)) := by
  obtain ⟨above, line, below, rfl, hline, hchar⟩ := exists_line_of_mem hmem
  obtain ⟨hmode, hend, -⟩ := h.append_right.of_brace hchar hbrace
  rw [hline, Nat.zero_add, List.drop_left, ← List.drop_drop, List.drop_left]
  have hhere : LeadsTo mode (above ++ line :: below) (line :: below) := ⟨above, rfl, hmode⟩
  exact ⟨hhere, hhere.trans (.of_line hend below)⟩

/-- Orderly lines lead to the last line of a block and to the lines behind it. -/
theorem Orderly.leadsTo_block (h : Orderly .code lines) (hblock : findBlock? lines 0 = some block) :
    LeadsTo .code lines (lines.drop block.endLine) ∧
      LeadsTo .code lines (lines.drop (block.endLine + 1)) := by
  obtain ⟨_, closing, hsublist, -, hclose, rfl⟩ := findBlock?_eq_some hblock
  exact h.leadsTo_brace (hsublist.subset (by simp)) (.inr hclose)

/-! ## The front of orderly lines -/

/-- A block is found whatever follows it. -/
theorem findBlock?_append_left (h : findBlock? front 0 = some block) (more : List Text) :
    findBlock? (front ++ more) 0 = some block := by
  unfold findBlock? at h ⊢
  rw [codeChars, List.drop_zero] at h ⊢
  rw [codeCharsFrom_append, List.dropWhile_append]
  split at h
  · cases h
  · rename_i opening others hchars
    obtain ⟨closing, hclose, rfl⟩ := Option.map_eq_some_iff.mp h
    rw [hchars]
    simp [closingBrace?_append_left hclose]

theorem firstCode?_append_left {found : Nat × Text} (h : firstCode? front = some found)
    (more : List Text) : firstCode? (front ++ more) = some found := by
  induction front generalizing found with
  | nil => cases h
  | cons line rest ih =>
    rw [List.cons_append, firstCode?]
    rw [firstCode?] at h
    split
    · rename_i hempty
      rw [if_pos hempty] at h
      obtain ⟨other, hother, rfl⟩ := Option.map_eq_some_iff.mp h
      rw [ih hother]
      rfl
    · rename_i hempty
      rwa [if_neg hempty] at h

/-- Lines that a semicolon is looked for in behind a line without braces. -/
theorem reachesSemicolon_cons (h : opensBrace (codeOf line) = false) (rest : List Text) :
    reachesSemicolon 0 (line :: rest) = (!(codeOf line).startsWith "/*" &&
      ((codeOf line).endsWith ";" || reachesSemicolon 0 rest)) := by
  rw [reachesSemicolon]
  simp only [h, Bool.false_eq_true, if_false]

theorem reachesSemicolon_drop (count : Nat) (lines : List Text) :
    reachesSemicolon count lines = reachesSemicolon 0 (lines.drop count) := by
  induction count generalizing lines with
  | zero => rfl
  | succ count ih =>
    cases lines with
    | nil => rfl
    | cons line rest => exact ih rest

/-- Nothing is in the way of a semicolon where there is no code. -/
theorem reachesSemicolon_of_codeOf_nil (h : codeOf line = []) (rest : List Text) :
    reachesSemicolon 0 (line :: rest) = reachesSemicolon 0 rest := by
  have hbrace : opensBrace (codeOf line) = false := by rw [h]; rfl
  rw [reachesSemicolon_cons hbrace, h]
  rfl

theorem reachesSemicolon_of_firstCode?_none (h : firstCode? lines = none) :
    reachesSemicolon 0 lines := by
  induction lines with
  | nil => rfl
  | cons line rest ih =>
    rw [firstCode?] at h
    split at h
    · rename_i hempty
      rw [reachesSemicolon_of_codeOf_nil (List.isEmpty_iff.mp hempty)]
      exact ih (Option.map_eq_none_iff.mp h)
    · cases h

theorem reachesSemicolon_firstCode? {place : Nat} {code : Text}
    (h : firstCode? lines = some (place, code)) :
    reachesSemicolon 0 lines = reachesSemicolon 0 (lines.drop place) := by
  induction lines generalizing place with
  | nil => cases h
  | cons line rest ih =>
    rw [firstCode?] at h
    split at h
    · rename_i hempty
      obtain ⟨⟨other, _⟩, hfirst, heq⟩ := Option.map_eq_some_iff.mp h
      obtain ⟨rfl, rfl⟩ := Prod.mk.inj heq
      rw [reachesSemicolon_of_codeOf_nil (List.isEmpty_iff.mp hempty), ih hfirst]
      rfl
    · obtain ⟨rfl, -⟩ := Prod.mk.inj (Option.some.inj h)
      rfl

theorem reachesSemicolon_append_left {count : Nat} (h : reachesSemicolon count (front ++ more)) :
    reachesSemicolon count front := by
  induction front generalizing count with
  | nil => cases count <;> rfl
  | cons line rest ih =>
    cases count with
    | succ count => exact ih h
    | zero =>
      rw [List.cons_append, reachesSemicolon, Bool.and_eq_true, Bool.or_eq_true] at h
      rw [reachesSemicolon, Bool.and_eq_true, Bool.or_eq_true]
      refine ⟨h.1, h.2.imp_right fun hbehind => ?_⟩
      split at hbehind
      · rw [if_pos ‹_›, Option.all_eq_true]
        intro block hblock
        have hwhole := findBlock?_append_left hblock more
        rw [List.cons_append] at hwhole
        rw [hwhole, Option.all_some, Bool.or_eq_true] at hbehind
        rw [Bool.or_eq_true]
        exact hbehind.imp_right ih
      · rw [if_neg ‹_›]
        exact ih hbehind

/-- A brace that opens the first code does so in the front of the lines, or there is no code
in that. -/
theorem beginsWithBrace_append_left (h : beginsWithBrace (front ++ more)) :
    beginsWithBrace front ∨ reachesSemicolon 0 front := by
  cases hfirst : firstCode? front with
  | none => exact .inr (reachesSemicolon_of_firstCode?_none hfirst)
  | some found =>
    rw [beginsWithBrace, firstCode?_append_left hfirst] at h
    rw [beginsWithBrace, hfirst]
    exact .inl h

theorem Block.IsNeat.append_left (hblock : findBlock? front 0 = some block)
    (h : block.IsNeat (front ++ more)) : block.IsNeat front := by
  have hend := endLine_lt hblock
  have hopen := Nat.lt_of_le_of_lt (openLine_le_endLine hblock) hend
  have hget : ∀ {place : Nat}, place < front.length →
      (front ++ more).getD place [] = front.getD place [] := fun hplace => by
    rw [List.getD_eq_getElem?_getD, List.getD_eq_getElem?_getD, List.getElem?_append_left hplace]
  rwa [IsNeat, hget hopen, hget hend] at h

theorem CodeLine.append_left (h : CodeLine line (rest ++ more)) : CodeLine line rest where
  begins := h.begins
  ends := h.ends
  neat hif block hblock :=
    .append_left hblock (h.neat hif block (findBlock?_append_left hblock more))
  statement := by
    refine h.statement.imp_right (Or.imp_right fun hends => ?_)
    by_cases hopen : opensBrace (codeOf line)
    · rw [endsInCode, hopen]
      rfl
    rw [endsInCode, Bool.or_eq_true, Bool.or_eq_true, or_assoc] at hends ⊢
    refine hends.imp_right fun hends => ?_
    rcases hends with hbrace | hreaches
    · refine (beginsWithBrace_append_left hbrace).imp_right fun hreaches => ?_
      rw [reachesSemicolon_cons (Bool.eq_false_iff.mpr hopen), h.begins, hreaches]
      simp
    · exact .inr (reachesSemicolon_append_left hreaches)
  click hclick := by
    rcases h.click hclick with hbrace | hreaches
    · exact beginsWithBrace_append_left hbrace
    · exact .inr (reachesSemicolon_append_left hreaches)

/-- The front of orderly lines is orderly. -/
theorem Orderly.append_left (h : Orderly mode (front ++ more)) : Orderly mode front := by
  induction front generalizing mode with
  | nil => exact .done mode
  | cons line rest ih =>
    cases h with
    | code hline hrest => exact .code hline.append_left (ih hrest)
    | inside h hcut hquiet hrest => exact .inside h hcut hquiet (ih hrest)
    | closed h hcut hline hbrace hrest =>
      exact .closed h hcut hline.append_left hbrace (ih hrest)

/-! ## Where statements end -/

/-- The line that a semicolon is looked for on begins with no comment. -/
theorem begins_of_reachesSemicolon (h : reachesSemicolon 0 (line :: rest)) :
    (codeOf line).startsWith "/*" = false := by
  rw [reachesSemicolon, Bool.and_eq_true] at h
  simpa using h.1

/-- The line that ends with a semicolon leads back to code. -/
theorem Orderly.leadsTo_semicolon (h : Orderly .code lines) (hreaches : reachesSemicolon 0 lines) :
    LeadsTo .code lines (lines.drop (linesToSemicolon lines + 1)) := by
  induction hlength : lines.length using Nat.strong_induction_on generalizing lines with
  | _ length ih =>
  cases lines with
  | nil => exact .refl []
  | cons line rest =>
  have hbelow := LeadsTo.of_line (h.codeLine (begins_of_reachesSemicolon hreaches)).ends rest
  cases rest with
  | nil =>
    rw [linesToSemicolon]
    exact hbelow
  | cons next rest =>
    rw [Moved.drop_linesToSemicolon]
    rw [reachesSemicolon, Bool.and_eq_true, Bool.or_eq_true] at hreaches
    split
    · exact hbelow
    have hbehind := hreaches.2.resolve_left ‹_›
    split
    · rw [if_pos ‹_›] at hbehind
      cases hblock : findBlock? (line :: next :: rest) 0 with
      | none => exact hbelow
      | some block =>
        rw [hblock, Option.all_some, Bool.or_eq_true, beq_iff_eq] at hbehind
        dsimp only
        split
        · exact hbelow
        · rename_i hend
          obtain ⟨count, hcount⟩ := Nat.exists_eq_succ_of_ne_zero hend
          have hrest := hbehind.resolve_left hend
          rw [hcount, Nat.succ_eq_add_one, Nat.add_sub_cancel, reachesSemicolon_drop] at hrest
          have hto := (h.leadsTo_block hblock).1
          rw [hcount, List.drop_succ_cons] at hto ⊢
          refine hto.trans (ih _ ?_ (hto.orderly h) hrest rfl)
          simp only [← hlength, List.length_drop, List.length_cons]
          omega
    · rw [if_neg ‹_›] at hbehind
      exact hbelow.trans (ih _ (by simp [← hlength]) (hbelow.orderly h) hbehind rfl)

/-- A statement without what continues it leads back to code. -/
theorem Orderly.leadsTo_ownExtent? (h : Orderly .code (line :: rest))
    (hends : endsInCode line rest) {own : Nat} (hown : ownExtent? line rest = some own) :
    LeadsTo .code (line :: rest) (rest.drop own) := by
  unfold ownExtent? at hown
  dsimp only at hown
  rw [endsInCode, Bool.or_eq_true] at hends
  split at hown
  · obtain ⟨block, hblock, rfl⟩ := Option.map_eq_some_iff.mp hown
    exact (h.leadsTo_block hblock).2
  · rename_i hblock
    cases hown
    exact h.leadsTo_semicolon (hends.resolve_left hblock)

/-- What continues a statement is no comment and no brace. -/
theorem begins_of_continues {code following : Text} (h : continues code following) :
    following.startsWith "/*" = false ∧ following ≠ [] ∧ following ≠ "\x7d" := by
  have hnot : ∀ {text : Text}, continuingWord.accepts text = false →
      text.startsWith "while" = false → following ≠ text := by
    rintro text hword hwhile rfl
    rw [continues, hword, hwhile, Bool.and_false] at h
    cases h
  refine ⟨Bool.eq_false_iff.mpr fun hcomment => ?_, hnot rfl rfl, hnot rfl rfl⟩
  obtain ⟨behind, hbehind⟩ := List.isPrefixOf_iff_prefix.mp hcomment
  exact hnot rfl rfl hbehind.symm

/-- A statement with what continues it leads back to code. -/
theorem Orderly.leadsTo_extent (h : Orderly .code (line :: rest))
    (hbegins : (codeOf line).startsWith "/*" = false) (hends : endsInCode line rest) :
    LeadsTo .code (line :: rest) ((line :: rest).drop (extent (line :: rest) + 1)) := by
  induction hlength : rest.length using Nat.strong_induction_on generalizing line rest with
  | _ length ih =>
  rw [Moved.drop_extent]
  cases hown : ownExtent? line rest with
  | none => exact .of_line (h.codeLine hbegins).ends rest
  | some own =>
    have hto := h.leadsTo_ownExtent? hends hown
    dsimp only
    cases hfirst : firstCode? (rest.drop own) with
    | none => exact hto
    | some first =>
      dsimp only
      split
      · rename_i hcontinues
        obtain ⟨next, hnext, hcode⟩ := drop_of_firstCode? hfirst
        have hplace := hto.trans (.of_firstCode? hfirst)
        rw [hnext] at hplace ⊢
        obtain ⟨hcomment, hne, hbrace⟩ := begins_of_continues hcontinues
        rw [← hcode] at hcomment hne hbrace
        have horderly := hplace.orderly h
        have hline := horderly.codeLine hcomment
        refine hplace.trans (ih _ ?_ horderly hcomment
          ((hline.statement.resolve_left hne).resolve_left hbrace) rfl)
        have hlt := firstCode?_lt hfirst
        rw [List.length_drop] at hlt
        simp only [List.length_drop]
        omega
      · exact hto

/-- The call that closes a container leads back to code. -/
theorem Orderly.leadsTo_end (h : Orderly mode lines) {shape : ContainerShape}
    (hshape : shape ∈ ContainerShape.all) {depth count : Nat}
    (hend : shape.linesToEnd? depth lines = some count) :
    LeadsTo mode lines (lines.drop (count + 1)) := by
  induction lines generalizing mode depth count with
  | nil => cases hend
  | cons line rest ih =>
    rw [ContainerShape.linesToEnd?] at hend
    rw [List.drop_succ_cons]
    -- the call is on this line, or the search goes on below it
    have hcases : shape.closes.occurs (codeOf line) ∧ count = 0 ∨
        ∃ later below, shape.linesToEnd? later rest = some below ∧ count = below + 1 := by
      generalize (if shape.opens.occurs (codeOf line) then depth + 1 else depth) = open? at hend
      split at hend
      · cases open? with
        | zero => exact .inl ⟨‹_›, (Option.some.inj hend).symm⟩
        | succ outer =>
          obtain ⟨below, hbelow, rfl⟩ := Option.map_eq_some_iff.mp hend
          exact .inr ⟨_, below, hbelow, rfl⟩
      · obtain ⟨below, hbelow, rfl⟩ := Option.map_eq_some_iff.mp hend
        exact .inr ⟨_, below, hbelow, rfl⟩
    rcases hcases with ⟨hcloses, rfl⟩ | ⟨later, below, hbelow, rfl⟩
    · refine .of_line ?_ rest
      cases h with
      | code hline _ => exact hline.ends
      | inside _ _ hquiet _ =>
        have hnot := List.any_eq_false.mp hquiet shape hshape
        exact absurd hcloses hnot
      | closed h hcut hline _ _ => rw [lineEnd_closed h hcut, hline.ends]
    · exact (ih h.tail hbelow).cons

end EditorScript
