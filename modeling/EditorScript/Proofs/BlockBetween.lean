import EditorScript.Proofs.Margin
import EditorScript.Proofs.NeutralPiece
import EditorScript.Source.Block

/-!
# Blocks between two lines of braces

A block is found behind a header without braces when its own braces stand on
lines of their own and what stands between them is closed; its body is exactly
what stands between them.
-/

namespace EditorScript

/-- All characters of plain text are code, one column after the other. -/
theorem codeColumnsFrom_of_plain {text : Text} (h : text.all isPlain) (passed : Text)
    (column : Nat) :
    codeColumnsFrom .code passed column text = (text.zipIdx column).map fun (c, i) => (i, c) := by
  induction text generalizing passed column with
  | nil => rfl
  | cons c rest ih =>
    simp only [List.all_cons, Bool.and_eq_true] at h
    simp [codeColumnsFrom, Mode.next_code_of_isPlain h.1, ih h.2]

/-- The code characters of a plain line and of the lines behind it. -/
theorem codeCharsFrom_plain_cons {line : Text} (h : line.all isPlain) (number : Nat)
    (lines : List Text) :
    codeCharsFrom .code number (line :: lines) =
      (line.zipIdx.map fun (c, column) => ⟨number, column, c⟩) ++
        codeCharsFrom .code (number + 1) lines := by
  rw [codeCharsFrom, codeColumns, codeColumnsFrom_of_plain h,
    (Reads.of_plain h []).lineEnd_eq, List.map_map]
  rfl

/-- A brace behind a margin is the only code character of its line but blanks. -/
theorem codeCharsFrom_brace_cons {brace : Char} (h : isPlain brace) (count number : Nat)
    (lines : List Text) :
    ∃ margin : List CodeChar, (∀ c ∈ margin, c.char = ' ') ∧
      codeCharsFrom .code number ((Text.spaces count ++ [brace]) :: lines) =
        margin ++ ⟨number, count, brace⟩ :: codeCharsFrom .code (number + 1) lines := by
  have hline : (Text.spaces count ++ [brace]).all isPlain := by
    simp [Text.spaces, h, show isPlain ' ' from rfl]
  refine ⟨(Text.spaces count).zipIdx.map fun (c, column) => ⟨number, column, c⟩, ?_, ?_⟩
  · intro c hc
    obtain ⟨⟨blank, column⟩, hmem, rfl⟩ := List.mem_map.mp hc
    exact (List.mem_replicate.mp (List.fst_mem_of_mem_zipIdx hmem)).2
  · rw [codeCharsFrom_plain_cons hline, List.zipIdx_append]
    simp [Text.spaces]

/-- Blanks do not close a block. -/
theorem closingBrace?_blanks {blanks : List CodeChar} (h : ∀ c ∈ blanks, c.char = ' ')
    (depth : Nat) (rest : List CodeChar) :
    closingBrace? depth (blanks ++ rest) = closingBrace? depth rest := by
  refine closingBrace?_append (nesting?_of_noBrace (fun c hc => ?_) depth) rest
  obtain ⟨place, hplace, rfl⟩ := List.mem_map.mp hc
  rw [h place hplace]
  decide

/-- A header of a block: a line that is read from code mode to code mode and holds no opening
brace. -/
structure BlockHeader (header : Text) : Prop where
  mode : lineEnd .code header = .code
  brace : '\x7b' ∉ lineChars .code header

theorem Reads.blockHeader {header chars : Text} (h : Reads [] header chars)
    (hbrace : '\x7b' ∉ chars) : BlockHeader header :=
  ⟨h.lineEnd_eq, by rwa [h.lineChars_eq]⟩

theorem blockHeader_of_tame {header : Text} (h : header.all isTame) : BlockHeader header := by
  refine (Reads.of_plain (all_isPlain_of_tame h) []).blockHeader fun hmem => ?_
  exact absurd (List.all_eq_true.mp h _ hmem) (by decide)

/-- A header is one behind every margin. -/
theorem BlockHeader.margin {header : Text} (h : BlockHeader header) (count : Nat) :
    BlockHeader (Text.spaces count ++ header) := by
  have hblank := spaces_all_isBlank count
  refine ⟨(lineEnd_blanks rfl hblank header).trans h.mode, ?_⟩
  rw [lineChars_blanks rfl hblank, if_pos rfl, List.mem_append, not_or]
  exact ⟨fun hmem => absurd (List.all_eq_true.mp hblank _ hmem) (by decide), h.brace⟩

/-- The code characters of a header come before those of the lines behind it. -/
theorem codeCharsFrom_header_cons {header : Text} (h : BlockHeader header) (number : Nat)
    (lines : List Text) :
    ∃ front : List CodeChar, (∀ c ∈ front, c.char ≠ '\x7b') ∧
      codeCharsFrom .code number (header :: lines) =
        front ++ codeCharsFrom .code (number + 1) lines := by
  refine ⟨_, ?_, by rw [codeCharsFrom, h.mode]⟩
  intro c hc
  obtain ⟨⟨column, shown⟩, hmem, rfl⟩ := List.mem_map.mp hc
  rintro rfl
  exact h.brace (List.mem_map.mpr ⟨_, hmem, rfl⟩)

/-- The block behind a header whose braces stand on lines of their own, around
lines that are closed. -/
theorem findBlock?_between {header : Text} (hheader : BlockHeader header) {inside : List Text}
    (hinside : Nests 0 inside 0) (above below : List Text) (count : Nat) :
    findBlock? (above ++ header :: (Text.spaces count ++ ['\x7b']) ::
      (inside ++ (Text.spaces count ++ ['\x7d']) :: below)) above.length =
      some ⟨above.length, above.length + 1, count, above.length + 2 + inside.length, count⟩ := by
  obtain ⟨head, hhead, hheader⟩ := codeCharsFrom_header_cons hheader above.length
    ((Text.spaces count ++ ['\x7b']) :: (inside ++ (Text.spaces count ++ ['\x7d']) :: below))
  obtain ⟨front, hfront, hopening⟩ := codeCharsFrom_brace_cons (show isPlain '\x7b' from rfl) count
    (above.length + 1) (inside ++ (Text.spaces count ++ ['\x7d']) :: below)
  obtain ⟨back, hback, hclosing⟩ := codeCharsFrom_brace_cons (show isPlain '\x7d' from rfl) count
    (above.length + 1 + 1 + inside.length) below
  have hchars : (codeChars (above ++ header :: (Text.spaces count ++ ['\x7b']) ::
      (inside ++ (Text.spaces count ++ ['\x7d']) :: below)) above.length).dropWhile
        (·.char != '\x7b') = ⟨above.length + 1, count, '\x7b'⟩ ::
          (codeCharsFrom .code (above.length + 1 + 1) inside ++
            (back ++ ⟨above.length + 1 + 1 + inside.length, count, '\x7d'⟩ ::
              codeCharsFrom .code (above.length + 1 + 1 + inside.length + 1) below)) := by
    rw [codeChars, List.drop_left, hheader, hopening,
      codeCharsFrom_append, hinside.mode, hclosing, List.dropWhile_append_of_pos,
      List.dropWhile_append_of_pos]
    · simp
    · intro c hc
      simp [hfront c hc]
    · intro c hc
      simpa using hhead c hc
  have hdepth : nesting? 0 ((codeCharsFrom .code (above.length + 1 + 1) inside).map (·.char)) =
      some 0 := by
    rw [map_char_codeCharsFrom _ _ 0]
    exact hinside.depth
  rw [findBlock?, hchars]
  dsimp only
  rw [closingBrace?_append hdepth, closingBrace?_blanks hback]
  simp [closingBrace?]

/-- The lines between the braces of such a block. -/
theorem bodyLines_between (header : Text) (above inside below : List Text) (count : Nat) :
    Block.bodyLines
      ⟨above.length, above.length + 1, count, above.length + 2 + inside.length, count⟩
      (above ++ header :: (Text.spaces count ++ ['\x7b']) ::
        (inside ++ (Text.spaces count ++ ['\x7d']) :: below)) = inside := by
  have hshape : above ++ header :: (Text.spaces count ++ ['\x7b']) ::
      (inside ++ (Text.spaces count ++ ['\x7d']) :: below) =
      (above ++ [header, Text.spaces count ++ ['\x7b']]) ++
        (inside ++ (Text.spaces count ++ ['\x7d']) :: below) := by simp
  have hlength : (above ++ [header, Text.spaces count ++ ['\x7b']]).length = above.length + 2 := by
    simp
  have hopening : (above ++ header :: (Text.spaces count ++ ['\x7b']) ::
      (inside ++ (Text.spaces count ++ ['\x7d']) :: below)).getD (above.length + 1) [] =
      Text.spaces count ++ ['\x7b'] := by
    simp [List.getD]
  have hclosing : (above ++ header :: (Text.spaces count ++ ['\x7b']) ::
      (inside ++ (Text.spaces count ++ ['\x7d']) :: below)).getD
        (above.length + 2 + inside.length) [] = Text.spaces count ++ ['\x7d'] := by
    rw [hshape, ← hlength, ← List.length_append, ← List.append_assoc]
    simp [List.getD]
  have hslice : slice (above ++ header :: (Text.spaces count ++ ['\x7b']) ::
      (inside ++ (Text.spaces count ++ ['\x7d']) :: below)) (above.length + 1 + 1)
        (above.length + 2 + inside.length) = inside := by
    rw [hshape, slice, ← hlength, List.take_length_add_append, List.take_left]
    exact List.drop_left
  have hblank : Text.blank (Text.spaces count) = true := spaces_all_isBlank count
  have hwidth : (Text.spaces count).length = count := List.length_replicate
  have hrest : (Text.spaces count ++ ['\x7b']).drop (count + 1) = [] :=
    List.drop_eq_nil_of_le (by simp [hwidth])
  have hstart : (Text.spaces count ++ ['\x7d']).take count = Text.spaces count :=
    List.take_left' hwidth
  have hlines : above.length + 1 ≠ above.length + 2 + inside.length := by omega
  unfold Block.bodyLines
  dsimp only
  rw [if_neg hlines, hopening, hclosing, hslice, hrest, hstart, Block.piece, Block.piece,
    if_pos hblank]
  simp [Text.blank]

end EditorScript
