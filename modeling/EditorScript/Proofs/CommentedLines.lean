import EditorScript.Proofs.OpeningBrace

/-!
# Lines in block comments

Recovery tells a block comment by the first code of a line and looks for its end line by
line; the automaton carries its mode from line to line.  Where a line begins a comment or
starts inside one, both agree: up to the end of the comment nothing is read, and what stands
behind that end is read like a line of its own.
-/

namespace EditorScript

variable {mode : Mode} {passed shown text before after line inside : Text}

/-! ## What stands outside of comments -/

/-- Whether a character is a part of a block comment or of its ends, given the modes before
and behind it. -/
def Mode.inComment (mode later : Mode) : Bool :=
  mode == .commentOpening || mode == .comment || mode == .commentClosing || later == .commentOpening

/-- Whether nothing but white space stands outside of block comments in a piece of a line. -/
def onlyCommentsFrom (mode : Mode) (passed : Text) : Text → Bool
  | [] => true
  | c :: rest =>
    let later := mode.next passed c rest.head?
    (isBlank c || mode.inComment later) && onlyCommentsFrom later (c :: passed) rest

/-- Whether nothing but white space stands outside of block comments on a line that starts
in a mode. -/
def onlyComments (mode : Mode) (line : Text) : Bool :=
  onlyCommentsFrom mode [] line

/-- The line at a place lies inside of block comments as a whole. -/
def IsCommented (lines : List Text) (place : Nat) : Prop :=
  ∃ line, lines[place]? = some line ∧ onlyComments (modeBehind .code (lines.take place)) line

/-- What reading a piece of a line gives: the mode behind it, its code without white space,
and whether all else is in block comments. -/
structure Reading where
  mode : Mode
  code : Text
  commented : Bool

/-- A piece of a line behind `passed` as it is read in a mode. -/
def reading (mode : Mode) (passed text : Text) : Reading :=
  ⟨modeAfter mode passed text, solidChars mode passed text, onlyCommentsFrom mode passed text⟩

theorem lineEnd_eq_reading (mode : Mode) (line : Text) :
    lineEnd mode line = (reading mode [] line).mode.atLineBreak := rfl

theorem solid_lineChars_eq_reading (mode : Mode) (line : Text) :
    solid (lineChars mode line) = (reading mode [] line).code := rfl

theorem onlyComments_eq_reading (mode : Mode) (line : Text) :
    onlyComments mode line = (reading mode [] line).commented := rfl

/-- White space and characters of comments are passed over. -/
theorem reading_cons {c : Char} {rest : Text}
    (h : isBlank c || mode.inComment (mode.next passed c rest.head?)) :
    reading mode passed (c :: rest) =
      reading (mode.next passed c rest.head?) (c :: passed) rest := by
  have hsolid : (if mode = .code ∧ mode.next passed c rest.head? = .code then solid [c]
      else []) = [] := by
    split
    · rename_i hcode
      rw [hcode.2, hcode.1] at h
      exact solid_of_blank (by simpa [Mode.inComment] using h)
    · rfl
  rw [reading, modeAfter, solidChars_cons, hsolid, onlyCommentsFrom, h]
  rfl

/-- A code character other than white space stands outside of comments. -/
theorem commented_of_code (h : (reading mode passed text).code ≠ []) :
    (reading mode passed text).commented = false := by
  simp only [reading] at h ⊢
  induction text generalizing mode passed with
  | nil => exact absurd rfl h
  | cons c rest ih =>
    rw [onlyCommentsFrom]
    by_cases hskip : isBlank c || mode.inComment (mode.next passed c rest.head?)
    · have hrest := congrArg Reading.code (reading_cons hskip)
      simp only [reading] at hrest
      rw [hrest] at h
      rw [ih h, Bool.and_false]
    · rw [Bool.eq_false_iff.mpr hskip, Bool.false_and]

/-- Of what stands in front only an `@` among the nearest two characters counts. -/
theorem reading_passed (htwo : (passed.take 2).contains '@' = (shown.take 2).contains '@')
    (hone : (passed.head? == some '@') = (shown.head? == some '@')) (mode : Mode) (text : Text) :
    reading mode passed text = reading mode shown text := by
  induction text generalizing mode passed shown with
  | nil => rfl
  | cons c rest ih =>
    have hnext := @Mode.next_passed passed shown c (fun _ => htwo) mode rest.head?
    have hcons : ((c :: passed).take 2).contains '@' = ((c :: shown).take 2).contains '@' := by
      rw [contains_take_two, contains_take_two, hone]
    have hrest := @ih (c :: passed) (c :: shown) hcons rfl (mode.next passed c rest.head?)
    simp only [reading, Reading.mk.injEq] at hrest ⊢
    rw [modeAfter, modeAfter, solidChars_cons, solidChars_cons, onlyCommentsFrom, onlyCommentsFrom,
      hnext, hrest.1, hrest.2.1, hrest.2.2]
    exact ⟨rfl, rfl, rfl⟩

/-! ## Inside a comment -/

/-- What is read in a comment is all of it or what stands behind its end. -/
theorem reading_comment (passed text : Text) :
    reading .comment passed text =
      match Text.cutAt? "*/" text with
      | none => ⟨.comment, [], true⟩
      | some (_, after) => reading .code [] after := by
  induction text generalizing passed with
  | nil => rfl
  | cons c rest ih =>
    rw [Text.cutAt?]
    by_cases hends : Text.startsWith (c :: rest) "*/"
    · rw [if_pos hends]
      obtain ⟨after, hafter⟩ := List.isPrefixOf_iff_prefix.mp hends
      obtain ⟨rfl, rfl⟩ := List.cons.inj hafter
      exact calc reading .comment passed ('*' :: '/' :: after)
        _ = reading .commentClosing ('*' :: passed) ('/' :: after) := reading_cons rfl
        _ = reading .code ('/' :: '*' :: passed) after := reading_cons rfl
        _ = reading .code [] after :=
          @reading_passed ('/' :: '*' :: passed) [] rfl rfl .code after
    · rw [if_neg hends]
      have hnext : Mode.comment.next passed c rest.head? = .comment := by
        refine if_neg fun hend => hends ?_
        obtain ⟨rfl, hslash⟩ := hend
        obtain ⟨behind, rfl⟩ := List.head?_eq_some_iff.mp hslash
        rfl
      rw [reading_cons (by rw [hnext]; exact Bool.or_true _), hnext, ih]
      cases Text.cutAt? "*/" rest <;> rfl

/-- White space in front of a line is passed over in code mode. -/
theorem reading_blanks {blanks : Text} (h : blanks.all isBlank) (passed text : Text) :
    reading .code passed (blanks ++ text) = reading .code (blanks.reverse ++ passed) text := by
  induction blanks generalizing passed with
  | nil => rfl
  | cons c rest ih =>
    rw [List.all_cons, Bool.and_eq_true] at h
    have hnext : Mode.code.next passed c (rest ++ text).head? = .code :=
      Mode.next_blank rfl h.1 passed _
    rw [List.cons_append, reading_cons (by rw [h.1]; rfl), hnext, ih h.2]
    simp

/-! ## Lines with comments -/

/-- The text of a line that a comment holds from the start of the line on, or behind the
opening that the line begins with; nothing on a line of code. -/
def commented? : Mode → Text → Option Text
  | .comment, line => some line
  | .code, line =>
    if (codeOf line).startsWith "/*" then (Text.cutAt? "/*" line).map (·.2) else none
  | _, _ => none

/-- A line is read like what a comment holds of it. -/
theorem reading_of_commented? (h : commented? mode line = some inside) :
    ∃ passed, reading mode [] line = reading .comment passed inside := by
  cases mode with
  | comment =>
    cases h
    exact ⟨[], rfl⟩
  | code =>
    rw [commented?] at h
    split at h
    · rename_i hcomment
      obtain ⟨⟨margin, opened⟩, hcut, rfl⟩ := Option.map_eq_some_iff.mp h
      obtain ⟨hline, hmargin⟩ := comment_margin hcomment hcut
      refine ⟨'*' :: '/' :: (margin.reverse ++ []), ?_⟩
      exact calc reading .code [] line
        _ = reading .code [] (margin ++ '/' :: '*' :: opened) := congrArg _ hline
        _ = reading .code (margin.reverse ++ []) ('/' :: '*' :: opened) :=
          reading_blanks hmargin _ _
        _ = reading .commentOpening ('/' :: (margin.reverse ++ [])) ('*' :: opened) :=
          reading_cons rfl
        _ = reading .comment ('*' :: '/' :: (margin.reverse ++ [])) opened := reading_cons rfl
    · cases h
  | _ => cases h

/-- A comment that is not closed holds the rest of its line and goes on below. -/
theorem reading_open (h : commented? mode line = some inside)
    (hcut : Text.cutAt? "*/" inside = none) : reading mode [] line = ⟨.comment, [], true⟩ := by
  obtain ⟨passed, hreading⟩ := reading_of_commented? h
  rw [hreading, reading_comment, hcut]

/-- Behind the end of a comment a line is read like one of its own. -/
theorem reading_closed (h : commented? mode line = some inside)
    (hcut : Text.cutAt? "*/" inside = some (before, after)) :
    reading mode [] line = reading .code [] after := by
  obtain ⟨passed, hreading⟩ := reading_of_commented? h
  rw [hreading, reading_comment, hcut]

/-- A trimmed text does not begin with white space. -/
theorem Text.isBlank_of_mem_head?_trim {c : Char} (h : c ∈ text.trim.head?) :
    isBlank c = false := by
  obtain ⟨others, hothers⟩ := List.head?_eq_some_iff.mp h
  obtain ⟨back, hback⟩ := trimRight_prefix text.trimLeft
  have hleft : text.trimLeft = c :: (others ++ back) := by
    rw [← hback, show text.trimLeft.trimRight = c :: others from hothers]
    rfl
  have hnot := List.head?_dropWhile_not isBlank text
  rwa [← trimLeft, hleft] at hnot

/-- A line whose code does not begin with a comment does not lie in comments. -/
theorem onlyComments_of_codeOf (hne : codeOf line ≠ [])
    (hcode : (codeOf line).startsWith "/*" = false) : onlyComments .code line = false := by
  obtain ⟨margin, gap, tail, hline, hmargin, hgap, htail⟩ := exists_codeOf line
  obtain ⟨c, more, hmore⟩ := List.exists_cons_of_ne_nil hne
  rw [hmore, List.cons_append] at hline
  have hblank : isBlank c = false := by
    refine Text.isBlank_of_mem_head?_trim (show c ∈ (codeOf line).head? from ?_)
    rw [hmore]
    rfl
  have hstar : c = '/' → (more ++ (gap ++ tail)).head? ≠ some '*' := by
    rintro rfl hstar
    cases more with
    | cons d others =>
      obtain rfl : d = '*' := Option.some.inj hstar
      rw [hmore] at hcode
      cases hcode
    | nil =>
      cases gap with
      | cons d others =>
        obtain rfl : d = '*' := Option.some.inj hstar
        cases hgap
      | nil => obtain rfl | ⟨comment, rfl⟩ := htail <;> cases hstar
  have hopens : ∀ passed : Text,
      Mode.code.next passed c (more ++ (gap ++ tail)).head? ≠ .commentOpening := by
    intro passed hopening
    rw [Mode.next] at hopening
    split_ifs at hopening with hslash hslash' hopen
    exact hstar hslash hopen
  have hnot := hopens (margin.reverse ++ [])
  rw [onlyComments_eq_reading, hline, reading_blanks hmargin, reading]
  dsimp only
  rw [onlyCommentsFrom, hblank]
  generalize Mode.code.next (margin.reverse ++ []) c (more ++ (gap ++ tail)).head? = later at hnot
  simp [Mode.inComment, hnot]

/-! ## Places among lines -/

variable {front behind : List Text}

theorem isCommented_here (front : List Text) (line : Text) (behind : List Text) :
    IsCommented (front ++ line :: behind) front.length ↔
      onlyComments (modeBehind .code front) line := by
  simp [IsCommented]

/-- Behind lines that lead back to code, lines lie in comments as they do on their own. -/
theorem isCommented_append_right (h : modeBehind .code front = .code) (place : Nat) :
    IsCommented (front ++ behind) (front.length + place) ↔ IsCommented behind place := by
  simp only [IsCommented, List.getElem?_append_right (Nat.le_add_right ..), Nat.add_sub_cancel_left,
    List.take_length_add_append, modeBehind_append, h]

/-- Lines lie in comments whatever follows them. -/
theorem isCommented_append_left {place : Nat} (h : place < front.length) :
    IsCommented (front ++ behind) place ↔ IsCommented front place := by
  simp only [IsCommented, List.getElem?_append_left h, List.take_append_of_le_length h.le]

end EditorScript
