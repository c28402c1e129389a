import EditorScript.Proofs.BlockText
import EditorScript.Proofs.LineStarts
import EditorScript.Proofs.MovedRecovery
import EditorScript.Proofs.WellFormed
import EditorScript.Proofs.WordsInLines

/-!
# Lines and what is recovered from them

Recovery cuts the lines of a body into ranges, one behind the other.  A range is skipped
for a reason (it is a remark, a block comment or boilerplate), or it is the source of
one root, and where that stands for code it stands for the code of its range
(`recover_tiles`).  Each step takes a range from the front (`Step.next_covers`).
-/

namespace EditorScript

/-! ## How far statements go -/

/-- A block ends on one of the lines. -/
theorem endLine_lt {lines : List Text} {block : Block} (h : findBlock? lines 0 = some block) :
    block.endLine < lines.length := by
  cases stands_of_findBlock? h with
  | within => simp
  | across =>
    simp only [List.length_append, List.length_cons]
    omega

theorem firstCode?_lt {lines : List Text} {place : Nat} {code : Text}
    (h : firstCode? lines = some (place, code)) : place < lines.length := by
  induction lines generalizing place with
  | nil => cases h
  | cons line rest ih =>
    rw [firstCode?] at h
    rw [List.length_cons]
    split at h
    · obtain ⟨⟨other, _⟩, hfirst, heq⟩ := Option.map_eq_some_iff.mp h
      obtain ⟨rfl, rfl⟩ := Prod.mk.inj heq
      exact Nat.succ_lt_succ (ih hfirst)
    · obtain ⟨rfl, -⟩ := Prod.mk.inj (Option.some.inj h)
      exact Nat.succ_pos _

/-- The search for a semicolon ends on one of the lines. -/
theorem linesToSemicolon_lt (line : Text) (rest : List Text) :
    linesToSemicolon (line :: rest) < (line :: rest).length := by
  induction hlength : (line :: rest).length using Nat.strong_induction_on
    generalizing line rest with
  | _ length ih =>
  have hpos : 0 < length := hlength ▸ Nat.succ_pos _
  cases rest with
  | nil =>
    rw [linesToSemicolon]
    exact hpos
  | cons next rest =>
    rw [linesToSemicolon]
    split
    · exact hpos
    split
    · cases hblock : findBlock? (line :: next :: rest) 0 with
      | none => exact hpos
      | some block =>
        have hend := endLine_lt hblock
        dsimp only
        split
        · exact hpos
        · obtain ⟨first, others, hdrop⟩ : ∃ first others,
              (line :: next :: rest).drop block.endLine = first :: others :=
            List.exists_cons_of_ne_nil fun hnil =>
              absurd (List.drop_eq_nil_iff.mp hnil) (Nat.not_le_of_lt hend)
          have hless := congrArg List.length hdrop
          rw [List.length_drop] at hless
          have hbehind := ih _ (by omega) first others rfl
          rw [← hdrop] at hbehind hless
          rw [List.length_drop] at hbehind
          omega
    · have hbehind := ih _ (by simp [← hlength]) next rest rfl
      rw [List.length_cons] at hlength
      omega

theorem ownExtent?_le {line : Text} {rest : List Text} {own : Nat}
    (h : ownExtent? line rest = some own) : own ≤ rest.length := by
  unfold ownExtent? at h
  dsimp only at h
  split at h
  · obtain ⟨block, hblock, rfl⟩ := Option.map_eq_some_iff.mp h
    exact Nat.le_of_lt_succ (endLine_lt hblock)
  · obtain rfl := Option.some.inj h
    exact Nat.le_of_lt_succ (linesToSemicolon_lt line rest)

/-- A statement ends on one of the lines. -/
theorem extent_lt {lines : List Text} (hne : lines ≠ []) : extent lines < lines.length := by
  induction hlength : lines.length using Nat.strong_induction_on generalizing lines with
  | _ length ih =>
  obtain ⟨line, rest, rfl⟩ := List.exists_cons_of_ne_nil hne
  rw [List.length_cons] at hlength
  rw [extent]
  cases hown : ownExtent? line rest with
  | none =>
    dsimp only
    omega
  | some own =>
    have hle := ownExtent?_le hown
    dsimp only
    cases hfirst : firstCode? (rest.drop own) with
    | none =>
      dsimp only
      omega
    | some first =>
      have hplace := firstCode?_lt hfirst
      rw [List.length_drop] at hplace
      dsimp only
      split
      · have hbehind := ih ((rest.drop own).drop first.1).length
          (by simp only [List.length_drop]; omega)
          (List.ne_nil_of_length_pos (by simp only [List.length_drop]; omega)) rfl
        simp only [List.length_drop] at hbehind
        omega
      · omega

theorem boilerplateExtent_lt {lines : List Text} (hne : lines ≠ []) :
    boilerplateExtent lines < lines.length := by
  unfold boilerplateExtent
  dsimp only
  split
  · exact List.length_pos_iff.mpr hne
  · exact extent_lt hne

/-! ## Ranges of lines -/

/-- What a range of lines is to recovery. -/
inductive Tile where
  /-- A line that is blank or holds a comment only. -/
  | remark
  /-- The lines that a block comment takes up whole. -/
  | comment (size : Nat)
  /-- A statement that the class around the elements brings along. -/
  | boilerplate (size : Nat)
  /-- The source of a root. -/
  | source (root : Element) (size : Nat)

/-- The first of some lines begins with a block comment.  Behind its first end the lines
`behind` are left, the rest of the line of that end being the first of them unless it is
blank; a comment without an end leaves nothing. -/
def BeginsComment (lines behind : List Text) : Prop :=
  ∃ (margin opened inner : Text) (rest : List Text),
    lines = (margin ++ ("/*" ++ opened)) :: rest ∧ margin.blank ∧ ¬ "*/".toList <:+: inner ∧
      (Text.unlines (opened :: rest) = inner ∧ behind = [] ∨
        ∃ after others, Text.unlines (opened :: rest) =
            inner ++ ("*/" ++ Text.unlines (after :: others)) ∧ others <:+ rest ∧
          behind = if after.blank then others else after :: others)

namespace Tile

/-- Number of lines in the range. -/
def size : Tile → Nat
  | remark => 1
  | comment size | boilerplate size | source _ size => size

/-- The root that the range is the source of. -/
def root? : Tile → Option Element
  | source root _ => some root
  | _ => none

/-- The range is at the front of some lines, and the lines `behind` are left. -/
def Covers (lines behind : List Text) : Tile → Prop
  | remark => ∃ line, lines = line :: behind ∧ (line.trim = [] ∨ line.trim.startsWith "//")
  | comment size => size + behind.length = lines.length ∧ BeginsComment lines behind
  | boilerplate size => isBoilerplate (codeOf (lines.headD [])) ∧
      size = boilerplateExtent lines + 1 ∧ size ≤ lines.length ∧ behind = lines.drop size
  | source root size => (codeOf (lines.headD []) ≠ [] ∧
      ¬ isBoilerplate (codeOf (lines.headD []))) ∧
      0 < size ∧ size ≤ lines.length ∧ behind = lines.drop size ∧
      (root.fields.isOpaque → ∃ code, root = .ofCode code ∧
        (code = Text.dedent (Text.unlines (lines.take size)) ∨
          size = 1 ∧ code = (lines.headD []).trim))

/-- A range and the lines behind it are all the lines. -/
theorem Covers.size_add {tile : Tile} {lines behind : List Text} (h : tile.Covers lines behind) :
    tile.size + behind.length = lines.length := by
  cases tile with
  | remark =>
    obtain ⟨line, rfl, -⟩ := h
    exact Nat.add_comm 1 _
  | comment size => exact h.1
  | boilerplate size =>
    obtain ⟨-, -, hle, rfl⟩ := h
    rw [List.length_drop]
    exact Nat.add_sub_cancel' hle
  | source root size =>
    obtain ⟨-, -, hle, rfl, -⟩ := h
    rw [List.length_drop]
    exact Nat.add_sub_cancel' hle

end Tile

/-- A line without code is blank or a comment. -/
theorem remark_of_codeOf {line : Text} (h : codeOf line = []) :
    line.trim = [] ∨ line.trim.startsWith "//" := by
  unfold codeOf stripLineComment at h
  split at h
  · rename_i skipped after hcut
    refine .inr ?_
    rw [Text.trim_trimRight] at h
    have hblank := List.all_eq_true.mp (Text.blank_of_trim_eq_nil h)
    have hline : line = (line.take (codeEnd line) ++ skipped) ++ ("//" ++ after) := by
      rw [List.append_assoc, ← (Text.cutAt?_eq_some (by decide) hcut).1, List.take_append_drop]
    rw [hline, Text.trim_blank_append hblank]
    exact Text.startsWith_trim_append (by decide) (by decide) after
  · exact .inl h

/-- Skipping a comment leaves the lines behind its first end. -/
theorem behindComment_spec (line : Text) (rest : List Text) :
    ∃ inner, ¬ "*/".toList <:+: inner ∧
      (Text.unlines (line :: rest) = inner ∧ Step.behindComment line rest = [] ∨
        ∃ after others, Text.unlines (line :: rest) =
            inner ++ ("*/" ++ Text.unlines (after :: others)) ∧ others <:+ rest ∧
          Step.behindComment line rest = if after.blank then others else after :: others) := by
  have hunlines : ∀ (front line : Text) (rest : List Text),
      Text.unlines ((front ++ line) :: rest) = front ++ Text.unlines (line :: rest) := by
    intro front line rest
    cases rest with
    | nil => simp
    | cons next others =>
      rw [Text.unlines_cons_cons, Text.unlines_cons_cons, List.append_assoc]
  induction rest generalizing line with
  | nil =>
    rw [Moved.behindComment_eq]
    cases hcut : Text.cutAt? "*/" line with
    | none => exact ⟨line, Text.notInfix_of_cutAt? hcut, .inl ⟨Text.unlines_singleton line, rfl⟩⟩
    | some cut =>
      obtain ⟨hline, hinner⟩ := Text.cutAt?_eq_some (by decide) hcut
      refine ⟨cut.1, hinner, .inr ⟨cut.2, [], ?_, List.suffix_rfl, rfl⟩⟩
      conv_lhs => rw [hline, hunlines, hunlines]
  | cons next others ih =>
    rw [Moved.behindComment_eq]
    cases hcut : Text.cutAt? "*/" line with
    | some cut =>
      obtain ⟨hline, hinner⟩ := Text.cutAt?_eq_some (by decide) hcut
      refine ⟨cut.1, hinner, .inr ⟨cut.2, next :: others, ?_, List.suffix_rfl, rfl⟩⟩
      conv_lhs => rw [hline, hunlines, hunlines]
    | none =>
      obtain ⟨inner, hinner, hends⟩ := ih next
      have hwhole : ¬ "*/".toList <:+: line ++ '\n' :: inner := fun hinside =>
        (infix_append_blank_cons (by decide) (by decide) (by decide) hinside).elim
          (Text.notInfix_of_cutAt? hcut) hinner
      refine ⟨_, hwhole, ?_⟩
      rw [Text.unlines_cons_cons]
      rcases hends with ⟨hall, hnone⟩ | ⟨after, behind, hall, hsuffix, hsome⟩
      · exact .inl ⟨by rw [hall], hnone⟩
      · exact .inr ⟨after, behind, by rw [hall]; simp, hsuffix.trans (List.suffix_cons _ _), hsome⟩

/-- What is read as a block comment begins behind the margin of its line. -/
theorem comment_margin {line margin opened : Text} (h : (codeOf line).startsWith "/*")
    (hcut : Text.cutAt? "/*" line = some (margin, opened)) :
    line = margin ++ ("/*" ++ opened) ∧ margin.all isBlank := by
  refine ⟨(Text.cutAt?_eq_some (by decide) hcut).1, ?_⟩
  have htrim := Text.startsWith_trim_of_codeOf (by decide) (by decide) h
  obtain ⟨behind, hbehind⟩ := List.isPrefixOf_iff_prefix.mp htrim
  obtain ⟨front, back, hline, hfront, -⟩ := Text.exists_trim line
  have hslash : '/' ∉ front := fun hmem => absurd (hfront '/' hmem) (by decide)
  rw [hline, ← hbehind, List.append_assoc, Moved.cutAt?_blanks rfl hslash] at hcut
  rw [← (Prod.mk.inj (Option.some.inj hcut)).1]
  exact List.all_eq_true.mpr ((List.append_nil front).symm ▸ hfront)

/-- What is read as a block comment is one. -/
theorem comment_covers {line margin opened : Text} (rest : List Text)
    (h : (codeOf line).startsWith "/*") (hcut : Text.cutAt? "/*" line = some (margin, opened)) :
    ∃ size, (Tile.comment size).Covers (line :: rest) (Step.behindComment opened rest) := by
  obtain ⟨hline, hmargin⟩ := comment_margin h hcut
  obtain ⟨inner, hinner, hends⟩ := behindComment_spec opened rest
  refine ⟨(line :: rest).length - (Step.behindComment opened rest).length, Nat.sub_add_cancel ?_,
    margin, opened, inner, rest, by rw [← hline], hmargin, hinner, hends⟩
  rcases hends with ⟨-, hnone⟩ | ⟨after, others, -, hsuffix, hsome⟩
  · rw [hnone]
    exact Nat.zero_le _
  · have hle := hsuffix.length_le
    rw [hsome, List.length_cons]
    split
    · omega
    · exact Nat.succ_le_succ hle

/-! ## Roots -/

theorem exists_size {line : Text} {rest behind : List Text} (h : behind <:+ rest) :
    ∃ size, 0 < size ∧ size ≤ (line :: rest).length ∧ behind = (line :: rest).drop size := by
  obtain ⟨front, rfl⟩ := h
  refine ⟨front.length + 1, Nat.succ_pos _, ?_, ?_⟩
  · rw [List.length_cons, List.length_append]
    omega
  · rw [List.drop_succ_cons, List.drop_left]

namespace Step

/-- A step that makes a root of the first line and of lines behind it; the root stands
for no code. -/
def Reads (rest : List Text) : Step → Prop
  | skip _ => False
  | take root _ behind => root.fields.isOpaque = false ∧ behind <:+ rest
  | enter fields _ behind => fields.isOpaque = false ∧ behind <:+ rest

variable {line : Text} {rest : List Text} {step : Step}

theorem isOpaque_ofFields (fields : ElementFields) :
    (Element.ofFields fields).fields.isOpaque = fields.isOpaque := by
  unfold Element.ofFields
  split <;> rfl

theorem reads_container? (h : container? line rest = some step) : step.Reads rest := by
  obtain ⟨⟨shape, fields⟩, hbegin, rfl⟩ := Option.map_eq_some_iff.mp h
  have hclear := (ContainerShape.group_of_beginning? hbegin).2.2
  dsimp only
  split
  · exact ⟨hclear, List.drop_suffix _ _⟩
  · exact ⟨(isOpaque_ofFields fields).trans hclear, List.suffix_rfl⟩

/-- What stands behind a guarded block is behind the guard. -/
theorem suffix_guarded? {keyword : String} {variableName : Text} {inner behind : List Text}
    (h : guarded? keyword variableName rest = some (inner, behind)) : behind <:+ rest := by
  obtain ⟨_, _, _, -, -, -, -, rfl⟩ := guarded?_eq_some h
  exact (List.drop_suffix _ _).trans (List.drop_suffix _ _)

theorem reads_foldout? (h : foldout? line rest = some step) : step.Reads rest := by
  obtain ⟨found, -, rfl⟩ := Option.map_eq_some_iff.mp h
  dsimp only
  split
  · exact ⟨rfl, suffix_guarded? ‹_›⟩
  · exact ⟨isOpaque_ofFields _, List.suffix_rfl⟩

theorem reads_tabGroup? (h : tabGroup? line rest = some step) : step.Reads rest := by
  obtain ⟨found, -, rfl⟩ := Option.map_eq_some_iff.mp h
  dsimp only
  split
  · refine ⟨isOpaque_ofFields _, ?_⟩
    split
    · exact suffix_guarded? ‹_›
    · exact List.suffix_rfl
  · exact ⟨isOpaque_ofFields _, List.suffix_rfl⟩

theorem reads_button? (h : button? line rest = some step) : step.Reads rest := by
  obtain ⟨found, -, h⟩ := Option.bind_eq_some_iff.mp h
  obtain ⟨fields, hstyle, h⟩ := Option.bind_eq_some_iff.mp h
  have hclear : fields.isOpaque = false := by
    obtain ⟨_, _, _, _, rfl⟩ := ElementFields.exists_of_applyStyle? hstyle
    rfl
  dsimp only at h
  split at h
  · obtain ⟨block, -, rfl⟩ := Option.map_eq_some_iff.mp h
    exact ⟨hclear, List.drop_suffix _ _⟩
  split at h
  · cases h
    exact ⟨hclear, List.suffix_rfl⟩
  split at h
  · cases h
    exact ⟨hclear, List.suffix_rfl⟩
  · cases h
    exact ⟨hclear, (List.drop_suffix _ _).trans (List.drop_suffix _ _)⟩

theorem reads_labelledTextArea? (h : labelledTextArea? line rest = some step) :
    step.Reads rest := by
  obtain ⟨_, _, _, _, -, -, hcall, -, rfl⟩ := labelledTextArea?_eq_some h
  exact ⟨(leaf_of_matchCall? hcall).1, List.drop_suffix _ _⟩

theorem reads_call? (h : call? line rest = some step) : step.Reads rest := by
  obtain ⟨⟨name, fields⟩, hcall, rfl⟩ := Option.map_eq_some_iff.mp h
  exact ⟨(leaf_of_matchCall? hcall).1, List.suffix_rfl⟩

/-- A step that takes a range from the front of some lines. -/
def Covers (lines : List Text) : Step → Prop
  | skip behind => ∃ tile : Tile, tile.root? = none ∧ tile.Covers lines behind
  | take root _ behind => ∃ size, (Tile.source root size).Covers lines behind
  | enter fields _ behind =>
    ∀ children, ∃ size, (Tile.source (.group fields children) size).Covers lines behind

/-- A root that stands for no code may have any range. -/
theorem source_covers {root : Element} {behind : List Text}
    (hcode : codeOf line ≠ [] ∧ ¬ isBoilerplate (codeOf line))
    (hclear : root.fields.isOpaque = false) (h : behind <:+ rest) :
    ∃ size, (Tile.source root size).Covers (line :: rest) behind := by
  obtain ⟨size, hpos, hle, hdrop⟩ := @exists_size line rest behind h
  exact ⟨size, hcode, hpos, hle, hdrop, fun hopaque => by cases hclear.symm.trans hopaque⟩

theorem Reads.covers (h : step.Reads rest)
    (hcode : codeOf line ≠ [] ∧ ¬ isBoilerplate (codeOf line)) : step.Covers (line :: rest) := by
  cases step with
  | skip behind => exact h.elim
  | take root warnings behind => exact source_covers hcode h.1 h.2
  | enter fields inner behind => exact fun children => source_covers hcode h.1 h.2

/-- Code that stands for no known element is taken with its whole statement, or as the
one line that it is. -/
theorem code_covers (rest : List Text)
    (hcode : codeOf line ≠ [] ∧ ¬ isBoilerplate (codeOf line)) :
    (code line rest).Covers (line :: rest) := by
  unfold code
  split
  · refine ⟨extent (line :: rest) + 1, hcode, Nat.succ_pos _, extent_lt (by simp), rfl,
      fun _ => ⟨_, rfl, .inl rfl⟩⟩
  · exact ⟨1, hcode, Nat.one_pos, Nat.succ_pos _, rfl, fun _ => ⟨_, rfl, .inr ⟨rfl, rfl⟩⟩⟩

/-- Every step takes a range from the front of the lines. -/
theorem next_covers (line : Text) (rest : List Text) : (next line rest).Covers (line :: rest) := by
  unfold next
  dsimp only
  split
  · rename_i hempty
    exact ⟨.remark, rfl, line, rfl, remark_of_codeOf (List.isEmpty_iff.mp hempty)⟩
  rename_i hempty
  split
  · rename_i hcomment
    split
    · rename_i hcut
      obtain ⟨size, hcovers⟩ := comment_covers rest hcomment hcut
      exact ⟨.comment size, rfl, hcovers⟩
    · rename_i hcut
      refine absurd ?_ (Text.notInfix_of_cutAt? hcut)
      exact (List.isPrefixOf_iff_prefix.mp hcomment).isInfix.trans (infix_codeOf line)
  split
  · rename_i hboilerplate
    exact ⟨.boilerplate _, rfl, hboilerplate, rfl, boilerplateExtent_lt (by simp), rfl⟩
  rename_i hboilerplate
  have hcode : codeOf line ≠ [] ∧ ¬ isBoilerplate (codeOf line) :=
    ⟨fun hnil => hempty (List.isEmpty_iff.mpr hnil), hboilerplate⟩
  refine getD_of_forall_mem (fun step hstep => Reads.covers ?_ hcode) (code_covers rest hcode)
  exact forall_mem_or (forall_mem_or (forall_mem_or (forall_mem_or (forall_mem_or
    (fun _ => reads_container?) fun _ => reads_foldout?) fun _ => reads_tabGroup?)
    fun _ => reads_button?) fun _ => reads_labelledTextArea?) (fun _ => reads_call?) step hstep

end Step

/-! ## Bodies -/

end EditorScript
