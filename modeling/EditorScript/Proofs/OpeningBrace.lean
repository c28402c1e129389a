import EditorScript.Proofs.SolidCode
import EditorScript.Proofs.Tiling

/-!
# The brace behind the head of a statement

A block belongs to a statement when its opening brace is the next code behind the head
of the statement, on the same line or on a later one.  Then nothing but the head is in
front of the first brace among the code characters, and the block that is found is the
one of the statement.
-/

namespace EditorScript

/-- What stands behind the head of a statement, with the lines below it, goes on with an
opening brace. -/
def opensBlock (behind : Text) (rest : List Text) : Bool :=
  behind.trim.startsWith "\x7b" ||
    (behind.trim.isEmpty && (firstCode? rest).any fun (_, code) => code.startsWith "\x7b")

/-- A brace on a line of its own opens a block behind a head that ends with its line. -/
theorem opensBlock_brace (count : Nat) (rest : List Text) :
    opensBlock [] ((Text.spaces count ++ ['\x7b']) :: rest) := by
  have hbrace : codeOf (Text.spaces count ++ ['\x7b']) = ['\x7b'] := by
    rw [codeOf_blanks (spaces_all_isBlank count)]
    decide
  rw [opensBlock, firstCode?, hbrace]
  rfl

/-! ## Lines around their code -/

/-- A line is its code between white space, with a comment at the end or none. -/
theorem exists_codeOf (line : Text) :
    ∃ margin gap tail, line = margin ++ (codeOf line ++ (gap ++ tail)) ∧ margin.all isBlank ∧
      gap.all isBlank ∧ (tail = [] ∨ ∃ comment, tail = '/' :: '/' :: comment) := by
  unfold codeOf stripLineComment
  split
  · rename_i skipped comment hcut
    obtain ⟨hskipped, -⟩ := Text.cutAt?_eq_some (by decide) hcut
    obtain ⟨gap, hgap, hgapBlank⟩ := Text.exists_trimRight (line.take (codeEnd line) ++ skipped)
    obtain ⟨margin, back, hback, hmarginBlank, hbackBlank⟩ :=
      Text.exists_trim (Text.trimRight (line.take (codeEnd line) ++ skipped))
    refine ⟨margin, back ++ gap, '/' :: '/' :: comment, ?_, List.all_eq_true.mpr hmarginBlank,
      List.all_eq_true.mpr (List.forall_mem_append.mpr ⟨hbackBlank, hgapBlank⟩),
      .inr ⟨comment, rfl⟩⟩
    calc line = (line.take (codeEnd line) ++ skipped) ++ ("//" ++ comment) := by
          rw [List.append_assoc, ← hskipped, List.take_append_drop]
      _ = _ := by
          conv_lhs => rw [hgap, hback]
          simp only [List.append_assoc]
          rfl
  · obtain ⟨margin, gap, hline, hmarginBlank, hgapBlank⟩ := Text.exists_trim line
    refine ⟨margin, gap, [], ?_, List.all_eq_true.mpr hmarginBlank,
      List.all_eq_true.mpr hgapBlank, .inl rfl⟩
    rw [List.append_nil, ← List.append_assoc]
    exact hline

/-- The code of a line of plain text with a comment at its end or none is the plain text. -/
theorem line_of_plain {plain tail : Text} (hplain : plain.all isPlain)
    (htail : tail = [] ∨ ∃ comment, tail = '/' :: '/' :: comment) :
    lineChars .code (plain ++ tail) = plain ∧ lineEnd .code (plain ++ tail) = .code := by
  have hreads : Reads [] plain plain := .of_plain hplain []
  rcases htail with rfl | ⟨comment, rfl⟩
  · rw [List.append_nil]
    exact ⟨hreads.lineChars_eq, hreads.lineEnd_eq⟩
  · exact ⟨hreads.lineChars_comment comment, hreads.lineEnd_comment comment⟩

theorem all_isPlain_of_blank {text : Text} (h : text.all isBlank) : text.all isPlain := by
  refine List.all_eq_true.mpr fun c hc => ?_
  have hblank := List.all_eq_true.mp h c hc
  have hne : ∀ d : Char, isBlank d = false → c ≠ d := by
    rintro d hd rfl
    rw [hblank] at hd
    cases hd
  simp [isPlain, hne '/' (by decide), hne '"' (by decide), hne '\'' (by decide)]

/-- A line without code is blank to the automaton and leaves it in code mode. -/
theorem line_of_codeOf_nil {line : Text} (h : codeOf line = []) :
    (lineChars .code line).all isBlank ∧ lineEnd .code line = .code := by
  obtain ⟨margin, gap, tail, hline, hmargin, hgap, htail⟩ := exists_codeOf line
  rw [h, List.nil_append, ← List.append_assoc] at hline
  have hblank : (margin ++ gap).all isBlank := by rw [List.all_append, hmargin, hgap]; rfl
  obtain ⟨hchars, hend⟩ := line_of_plain (all_isPlain_of_blank hblank) htail
  rw [hline, hchars]
  exact ⟨hblank, hend⟩

/-- A line whose code begins with plain text has the code characters of the plain text first. -/
theorem lineChars_of_codeOf {line plain behind : Text} (hcode : codeOf line = plain ++ behind)
    (hplain : plain.all isPlain) :
    ∃ margin, margin.all isBlank ∧ ∃ others, lineChars .code line = margin ++ (plain ++ others) := by
  obtain ⟨margin, gap, tail, hline, hmargin, -⟩ := exists_codeOf line
  have hfront : (margin ++ plain).all isPlain := by
    rw [List.all_append, all_isPlain_of_blank hmargin, hplain]
    rfl
  have hshape : line = (margin ++ plain) ++ (behind ++ (gap ++ tail)) := by
    conv_lhs => rw [hline, hcode]
    simp only [List.append_assoc]
  have hchars := (Reads.of_plain hfront []).codeColumnsFrom_append 0 (behind ++ (gap ++ tail))
  rw [← hshape, List.append_assoc] at hchars
  exact ⟨margin, hmargin, _, hchars⟩

/-- Up to the first code there are only blanks. -/
theorem codeText_of_firstCode? {lines : List Text} {place : Nat} {code : Text}
    (h : firstCode? lines = some (place, code)) :
    ∃ blanks, blanks.all isBlank ∧ codeOf ((lines.drop place).headD []) = code ∧
      codeText .code lines = blanks ++ codeText .code (lines.drop place) := by
  induction lines generalizing place with
  | nil => cases h
  | cons line rest ih =>
    rw [firstCode?] at h
    split at h
    · rename_i hempty
      obtain ⟨⟨behind, _⟩, hfirst, heq⟩ := Option.map_eq_some_iff.mp h
      obtain ⟨rfl, rfl⟩ := Prod.mk.inj heq
      obtain ⟨blanks, hblank, hcode, htext⟩ := ih hfirst
      obtain ⟨hchars, hend⟩ := line_of_codeOf_nil (List.isEmpty_iff.mp hempty)
      refine ⟨lineChars .code line ++ blanks, by rw [List.all_append, hchars, hblank]; rfl, hcode, ?_⟩
      rw [codeText_cons, hend, htext, List.append_assoc]
      rfl
    · obtain ⟨rfl, rfl⟩ := Prod.mk.inj (Option.some.inj h)
      exact ⟨[], rfl, rfl, rfl⟩

/-! ## The code in front of the brace -/

/-- The code characters in front of the first opening brace. -/
def codeToBrace (lines : List Text) : Text :=
  (codeText .code lines).takeWhile (· != '\x7b')

theorem brace_notMem_of_blank {text : Text} (h : text.all isBlank) : '\x7b' ∉ text := fun hmem =>
  absurd (List.all_eq_true.mp h _ hmem) (by decide)

/-- The code characters up to the first brace among them. -/
theorem codeToBrace_eq {lines : List Text} {front others : Text}
    (h : codeText .code lines = front ++ '\x7b' :: others) (hbrace : '\x7b' ∉ front) :
    codeToBrace lines = front := by
  rw [codeToBrace, h, List.takeWhile_append_of_pos]
  · simp
  · intro c hc
    simpa using fun heq : c = '\x7b' => hbrace (heq ▸ hc)

theorem exists_of_startsWith_brace {code : Text} (h : code.startsWith "\x7b") :
    ∃ behind, code = '\x7b' :: behind := by
  obtain ⟨behind, hbehind⟩ := List.isPrefixOf_iff_prefix.mp h
  exact ⟨behind, hbehind.symm⟩

/-- Text that goes on with a brace on the same line. -/
theorem exists_of_trim_startsWith_brace {behind : Text} (h : behind.trim.startsWith "\x7b") :
    ∃ gap more, gap.all isBlank ∧ behind = gap ++ '\x7b' :: more := by
  obtain ⟨more, hmore⟩ := exists_of_startsWith_brace h
  obtain ⟨gap, back, hbehind, hgap, -⟩ := Text.exists_trim behind
  refine ⟨gap, more ++ back, List.all_eq_true.mpr hgap, ?_⟩
  rw [hbehind, hmore]
  simp

/-- Lines whose first code is an opening brace. -/
theorem codeText_of_firstBrace {lines : List Text}
    (h : (firstCode? lines).any fun (_, code) => code.startsWith "\x7b") :
    ∃ blanks, blanks.all isBlank ∧ ∃ others, codeText .code lines = blanks ++ '\x7b' :: others := by
  cases hfirst : firstCode? lines with
  | none =>
    rw [hfirst] at h
    cases h
  | some first =>
  obtain ⟨place, code⟩ := first
  rw [hfirst] at h
  obtain ⟨behind, rfl⟩ := exists_of_startsWith_brace h
  obtain ⟨blanks, hblank, hcode, htext⟩ := codeText_of_firstCode? hfirst
  cases hdrop : lines.drop place with
  | nil =>
    rw [hdrop] at hcode
    cases hcode
  | cons line rest =>
    rw [hdrop] at hcode htext
    obtain ⟨margin, hmargin, others, hchars⟩ :=
      @lineChars_of_codeOf line ['\x7b'] behind hcode (by decide)
    refine ⟨blanks ++ margin, by rw [List.all_append, hblank, hmargin]; rfl,
      others ++ codeText (lineEnd .code line) rest, ?_⟩
    rw [htext, codeText_cons, hchars]
    simp

/-- Behind a head of plain text that goes on with a brace nothing else comes before the brace. -/
theorem solid_codeToBrace {line head behind : Text} {rest : List Text}
    (hcode : codeOf line = head ++ behind) (hplain : head.all isPlain) (hbrace : '\x7b' ∉ head)
    (hopens : opensBlock behind rest) : solid (codeToBrace (line :: rest)) = solid head := by
  rw [opensBlock, Bool.or_eq_true, Bool.and_eq_true] at hopens
  rcases hopens with hopens | ⟨hempty, hopens⟩
  · obtain ⟨gap, more, hgap, rfl⟩ := exists_of_trim_startsWith_brace hopens
    have hcode : codeOf line = (head ++ gap ++ ['\x7b']) ++ more := by
      rw [hcode]
      simp
    obtain ⟨margin, hmargin, others, hchars⟩ := lineChars_of_codeOf hcode (by
      rw [List.all_append, List.all_append, hplain, all_isPlain_of_blank hgap]
      decide)
    have htext : codeText .code (line :: rest) = (margin ++ head ++ gap) ++
        '\x7b' :: (others ++ codeText (lineEnd .code line) rest) := by
      rw [codeText_cons, hchars]
      simp
    rw [codeToBrace_eq htext]
    · rw [solid_append, solid_append, solid_of_blank hmargin, solid_of_blank hgap]
      simp
    · simp [hbrace, brace_notMem_of_blank hmargin, brace_notMem_of_blank hgap]
  · have hblank : behind.all isBlank := Text.blank_of_trim_eq_nil (List.isEmpty_iff.mp hempty)
    obtain ⟨margin, gap, tail, hline, hmargin, hgap, htail⟩ := exists_codeOf line
    have hfront : (margin ++ head ++ behind ++ gap).all isPlain := by
      simp only [List.all_append, hplain, all_isPlain_of_blank hmargin,
        all_isPlain_of_blank hblank, all_isPlain_of_blank hgap, Bool.and_self]
    obtain ⟨hchars, hend⟩ := line_of_plain hfront htail
    obtain ⟨blanks, hblanks, others, hothers⟩ := codeText_of_firstBrace hopens
    have htext : codeText .code (line :: rest) = (margin ++ head ++ behind ++ gap ++ blanks) ++
        '\x7b' :: others := by
      have hshape : line = (margin ++ head ++ behind ++ gap) ++ tail := by
        conv_lhs => rw [hline, hcode]
        simp only [List.append_assoc]
      rw [codeText_cons, hshape, hchars, hend, hothers, List.append_assoc _ blanks]
    rw [codeToBrace_eq htext]
    · simp only [solid_append, solid_of_blank hmargin, solid_of_blank hblank, solid_of_blank hgap,
        solid_of_blank hblanks, List.append_nil, List.nil_append]
    · simp [hbrace, brace_notMem_of_blank hmargin, brace_notMem_of_blank hblank,
        brace_notMem_of_blank hgap, brace_notMem_of_blank hblanks]

/-! ## Statements with a block -/

/-- A brace behind plain text opens a block. -/
theorem opensBrace_append {plain : Text} (hplain : plain.all isPlain) (more : Text) :
    opensBrace (plain ++ '\x7b' :: more) := by
  have hfront : (plain ++ ['\x7b']).all isPlain := by
    rw [List.all_append, hplain]
    decide
  have hchars := (Reads.of_plain hfront []).codeColumnsFrom_append 0 more
  rw [List.append_assoc, List.singleton_append] at hchars
  have hmem : '\x7b' ∈ codeText .code [plain ++ '\x7b' :: more] := by
    rw [codeText_cons, lineChars, codeColumns, hchars]
    simp
  obtain ⟨c, hc, hchar⟩ := List.mem_map.mp hmem
  rw [opensBrace, firstCodeChar?, List.find?_isSome]
  exact ⟨c, hc, by rw [hchar]; rfl⟩

/-- A statement whose head goes on with a brace takes all lines of its block. -/
theorem endLine_le_extent {line head behind : Text} {rest : List Text} {block : Block}
    (hcode : codeOf line = head ++ behind) (hplain : head.all isPlain)
    (hopens : opensBlock behind rest) (hblock : findBlock? (line :: rest) 0 = some block) :
    block.endLine ≤ extent (line :: rest) := by
  have hbrace : (opensBrace (codeOf line) ||
      (firstCode? rest).any fun (_, next) => next.startsWith "\x7b") = true := by
    rw [opensBlock, Bool.or_eq_true, Bool.and_eq_true] at hopens
    rcases hopens with hopens | ⟨-, hopens⟩
    · obtain ⟨gap, more, hgap, rfl⟩ := exists_of_trim_startsWith_brace hopens
      rw [hcode, ← List.append_assoc, opensBrace_append, Bool.true_or]
      rw [List.all_append, hplain, all_isPlain_of_blank hgap]
      rfl
    · rw [hopens, Bool.or_true]
  have hown : ownExtent? line rest = some block.endLine := by
    rw [ownExtent?, if_pos hbrace, hblock]
    rfl
  rw [extent, hown]
  dsimp only
  split
  · exact Nat.le_refl _
  · split
    · omega
    · exact Nat.le_refl _

end EditorScript
