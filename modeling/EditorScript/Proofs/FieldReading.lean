import EditorScript.Proofs.AbsorbedFields
import EditorScript.Proofs.Trimming

/-!
# What is read of a declaration

A declaration that is read has a type, a name, and then the sign that starts its
initial value or ends it.  That sign is the first one of the two in its code, so a
text whose first sign belongs to an arrow is no declaration (`fieldHead?_arrow`), and
in any other text the name is the last word in front of the sign
(`name_of_fieldHead?`).
-/

namespace EditorScript

open Pattern

namespace Pattern

/-- Every character that a pattern consumes belongs to a class. -/
def Within (accepted : Char → Prop) : Pattern → Prop
  | one accepts => ∀ c, accepts c → accepted c
  | seq first second | either first second => first.Within accepted ∧ second.Within accepted
  | loop _ body | capture _ body => body.Within accepted
  | same _ => False
  | empty | check _ => True

variable {accepted : Char → Prop}

theorem within_text {content : Text} (h : ∀ c ∈ content, accepted c) :
    (text content).Within accepted := by
  induction content with
  | nil => trivial
  | cons c rest ih =>
    obtain ⟨hc, hrest⟩ := List.forall_mem_cons.mp h
    exact ⟨fun d hd => by rwa [eq_of_beq hd], ih hrest⟩

theorem Reaches.within {pattern : Pattern} {place later : Position}
    (h : Reaches pattern place later) (hwithin : pattern.Within accepted) :
    ∃ front, place.after = front ++ later.after ∧ ∀ c ∈ front, accepted c := by
  induction h with
  | empty place | stop place | check _ => exact ⟨[], rfl, List.forall_mem_nil _⟩
  | @one accepts before c rest captures haccepts =>
    exact ⟨[c], rfl, List.forall_mem_singleton.mpr (hwithin c haccepts)⟩
  | seq _ _ ihFirst ihSecond =>
    obtain ⟨first, hfirst, hfirstOk⟩ := ihFirst hwithin.1
    obtain ⟨second, hsecond, hsecondOk⟩ := ihSecond hwithin.2
    exact ⟨first ++ second, by rw [hfirst, hsecond, List.append_assoc],
      List.forall_mem_append.mpr ⟨hfirstOk, hsecondOk⟩⟩
  | round _ _ ihBody ihRest =>
    obtain ⟨first, hfirst, hfirstOk⟩ := ihBody hwithin
    obtain ⟨second, hsecond, hsecondOk⟩ := ihRest hwithin
    exact ⟨first ++ second, by rw [hfirst, hsecond, List.append_assoc],
      List.forall_mem_append.mpr ⟨hfirstOk, hsecondOk⟩⟩
  | left _ ih => exact ih hwithin.1
  | right _ ih => exact ih hwithin.2
  | capture _ ih => exact ih hwithin
  | same => exact hwithin.elim

end Pattern

/-- The code of a declaration on one line, without comments and directives. -/
def fieldCode (declaration : Text) : Text :=
  Text.join " " ((declaration.lines.map Text.trim).filter fun line =>
    !line.isEmpty && !isRemark line)

/-- What is read of a declaration is read of its code. -/
theorem fieldHead?_eq (declaration : Text) :
    fieldHead? declaration =
      (fieldHead.match? (fieldModifiers.dropMatch
        (leadingAttributes.dropMatch (fieldCode declaration)))).bind fun found =>
          let type := (found.captured "type").filter (!isBlank ·)
          if type.any ("{}()=;".toList.contains ·) then none
          else some ⟨type, found.captured "name"⟩ :=
  rfl

/-- The signs that end the name of a declared variable. -/
def IsSign (c : Char) : Prop :=
  c = '=' ∨ c = ';'

instance (c : Char) : Decidable (IsSign c) :=
  inferInstanceAs (Decidable (c = '=' ∨ c = ';'))

/-- A text without such signs. -/
def Signless (text : Text) : Prop :=
  ∀ c ∈ text, ¬ IsSign c

theorem signless_append {first second : Text} :
    Signless (first ++ second) ↔ Signless first ∧ Signless second :=
  List.forall_mem_append

theorem not_isSign_of_isWord {c : Char} (h : isWord c) : ¬ IsSign c := by
  rintro (rfl | rfl) <;> exact absurd h (by decide)

theorem not_isSign_of_isBlank {c : Char} (h : isBlank c) : ¬ IsSign c := by
  rintro (rfl | rfl) <;> exact absurd h (by decide)

/-- The first sign of a text is in one place only. -/
theorem eq_of_first_sign {front front' back back' : Text} {sign sign' : Char}
    (hfront : Signless front) (hfront' : Signless front') (hsign : IsSign sign)
    (hsign' : IsSign sign') (h : front ++ sign :: back = front' ++ sign' :: back') :
    front = front' ∧ sign = sign' ∧ back = back' := by
  induction front generalizing front' with
  | nil =>
    cases front' with
    | nil => simpa using h
    | cons c rest =>
      obtain ⟨rfl, -⟩ := List.cons_eq_cons.mp h
      exact absurd hsign (hfront' _ List.mem_cons_self)
  | cons c rest ih =>
    cases front' with
    | nil =>
      obtain ⟨rfl, -⟩ := List.cons_eq_cons.mp h
      exact absurd hsign' (hfront _ List.mem_cons_self)
    | cons d rest' =>
      simp only [List.cons_append, List.cons.injEq] at h
      obtain ⟨rfl, h⟩ := h
      obtain ⟨rfl, hsame⟩ := ih (fun c hc => hfront c (List.mem_cons_of_mem _ hc))
        (fun c hc => hfront' c (List.mem_cons_of_mem _ hc)) h
      exact ⟨rfl, hsame⟩

/-! ## The parts of a declaration -/

/-- The parts of a declaration that is read: what stands in front of its name, the name
as a word of its own, and the sign behind it. -/
structure FieldParts (code name : Text) where
  front : Text
  gap : Text
  behindName : Text
  sign : Char
  back : Text
  code_eq : code = front ++ gap ++ name ++ behindName ++ sign :: back
  front_signless : Signless front
  gap_ne : gap ≠ []
  gap_blank : ∀ c ∈ gap, isBlank c
  name_ne : name ≠ []
  name_word : ∀ c ∈ name, isWord c
  behindName_blank : ∀ c ∈ behindName, isBlank c
  sign_cases : sign = ';' ∨ sign = '=' ∧ ∀ c ∈ back.head?, c ≠ '>'

namespace FieldParts

variable {code name : Text} (parts : FieldParts code name)

theorem sign_isSign : IsSign parts.sign :=
  parts.sign_cases.elim .inr fun h => .inl h.1

theorem signless : Signless (parts.front ++ parts.gap ++ name ++ parts.behindName) := by
  simp only [signless_append]
  exact ⟨⟨⟨parts.front_signless, fun c hc => not_isSign_of_isBlank (parts.gap_blank c hc)⟩,
    fun c hc => not_isSign_of_isWord (parts.name_word c hc)⟩,
    fun c hc => not_isSign_of_isBlank (parts.behindName_blank c hc)⟩

end FieldParts

/-- What is dropped in front of a text is a front of it. -/
theorem dropMatch_eq {pattern : Pattern} {content : Text} {accepted : Char → Prop}
    (hwithin : pattern.Within accepted) :
    ∃ front, content = front ++ pattern.dropMatch content ∧ ∀ c ∈ front, accepted c := by
  unfold Pattern.dropMatch
  cases hmatch : pattern.match? content with
  | none => exact ⟨[], rfl, List.forall_mem_nil _⟩
  | some found =>
    obtain ⟨later, hreaches, heq⟩ := run_sound hmatch
    obtain rfl := Option.some.inj heq
    exact hreaches.within hwithin

theorem within_fieldModifiers : fieldModifiers.Within fun c => ¬ IsSign c := by
  refine ⟨trivial, ?_, ?_⟩
  · simp only [firstOf, Within]
    refine ⟨?_, ?_, ?_, ?_, ?_, ?_, ?_, ?_, ?_⟩ <;> exact within_text (by decide)
  · exact ⟨fun c hc => not_isSign_of_isBlank hc, fun c hc => not_isSign_of_isBlank hc⟩

/-- Without a bracket in front there is no attribute to drop. -/
theorem dropMatch_leadingAttributes {content : Text} (h : ∀ c ∈ content.head?, c ≠ '[') :
    leadingAttributes.dropMatch content = content := by
  unfold Pattern.dropMatch
  cases hmatch : leadingAttributes.match? content with
  | none => rfl
  | some found =>
    obtain ⟨later, hreaches, heq⟩ := run_sound hmatch
    obtain rfl := Option.some.inj heq
    obtain ⟨_, hstart, hreaches⟩ := hreaches.append
    cases hstart
    cases hreaches with
    | stop => rfl
    | round hround _ =>
      obtain ⟨_, hround, -⟩ := hround.append
      obtain ⟨_, hround, -⟩ := hround.append
      obtain ⟨_, hopen, -⟩ := hround.append
      have hcontent := hopen.text_eq
      dsimp only at hcontent
      rw [hcontent] at h
      exact absurd rfl (h '[' rfl)

/-- The sign behind a name is a semicolon, or an equals sign that no arrow starts with. -/
theorem exists_sign {place later : Position}
    (h : Reaches (either ("=" ++ check fun _ after =>
      !(after.head?.any fun c => c == '=' || c == '>')) ";") place later) :
    ∃ sign back, place.after = sign :: back ∧
      (sign = ';' ∨ sign = '=' ∧ ∀ c ∈ back.head?, c ≠ '>') := by
  cases h with
  | left hequals =>
    obtain ⟨_, hequals, hcheck⟩ := hequals.append
    cases hcheck with
    | check hholds =>
      refine ⟨'=', later.after, hequals.text_eq, .inr ⟨rfl, ?_⟩⟩
      rintro c hc rfl
      dsimp only at hholds
      rw [Option.mem_def.mp hc] at hholds
      exact absurd hholds (by decide)
  | right hsemicolon => exact ⟨';', _, hsemicolon.text_eq, .inl rfl⟩

/-- A declaration that is read has the parts of one. -/
theorem exists_fieldParts {declaration : Text} {head : FieldHead}
    (h : fieldHead? declaration = some head)
    (hfront : ∀ c ∈ (fieldCode declaration).head?, c ≠ '[') :
    Nonempty (FieldParts (fieldCode declaration) head.name) := by
  rw [fieldHead?_eq] at h
  obtain ⟨found, hmatch, hhead⟩ := Option.bind_eq_some_iff.mp h
  rw [dropMatch_leadingAttributes hfront] at hmatch
  obtain ⟨dropped, hcode, hdropped⟩ := @dropMatch_eq _ (fieldCode declaration) _
    within_fieldModifiers
  obtain ⟨later, hreaches, heq⟩ := run_sound hmatch
  obtain rfl := Option.some.inj heq
  obtain ⟨beforeSign, hreaches, hsign⟩ := hreaches.append
  obtain ⟨_, hreaches, hbehind⟩ := hreaches.append
  obtain ⟨_, hreaches, hname⟩ := hreaches.append
  obtain ⟨_, hreaches, hgap⟩ := hreaches.append
  obtain ⟨_, hstart, htype⟩ := hreaches.append
  cases hstart
  obtain ⟨type, htypeEq, htypeCapture, -⟩ := htype.capture_eq rfl
  obtain ⟨gap, hgapNe, hgapEq, hgapBlank⟩ := hgap.many1_eq
  obtain ⟨name, hnameEq, hnameCapture, _, hnameBody, hnameAfter⟩ := hname.capture_eq rfl
  obtain ⟨word, hwordNe, hwordEq, hword⟩ := hnameBody.many1_eq
  obtain ⟨behindName, hbehindEq, hbehindBlank⟩ := hbehind.blanks_eq
  have hsignCaptures := hsign.captures_eq rfl
  have hbehindCaptures := hbehind.captures_eq rfl
  have hgapCaptures := hgap.captures_eq rfl
  have hnameIs : later.captured "name" = name := by
    rw [Position.captured, Position.captured?, hsignCaptures, hbehindCaptures, hnameCapture]
    rfl
  have htypeIs : later.captured "type" = type := by
    rw [Position.captured, Position.captured?, hsignCaptures, hbehindCaptures, hnameCapture,
      hgapCaptures, htypeCapture]
    rfl
  obtain rfl : word = name := by
    rw [hnameEq, hnameAfter] at hwordEq
    exact (List.append_cancel_right hwordEq).symm
  rw [htypeIs, hnameIs] at hhead
  dsimp only at hhead
  split at hhead
  · cases hhead
  rename_i hplain
  cases hhead
  have htypeSignless : Signless type := by
    intro c hc hsign
    refine hplain (List.any_eq_true.mpr ⟨c, List.mem_filter.mpr ⟨hc, ?_⟩, ?_⟩)
    · rw [Bool.not_eq_true', ← Bool.not_eq_true]
      exact fun hblank => not_isSign_of_isBlank hblank hsign
    · rcases hsign with rfl | rfl <;> decide
  have hbody : fieldModifiers.dropMatch (fieldCode declaration) =
      type ++ gap ++ word ++ behindName ++ beforeSign.after := by
    dsimp only at htypeEq
    rw [htypeEq, hgapEq, hnameEq, hbehindEq]
    simp only [List.append_assoc]
  rw [hbody] at hcode
  obtain ⟨sign, back, hback, hcases⟩ := exists_sign hsign
  rw [hback] at hcode
  exact ⟨{
    front := dropped ++ type
    gap := gap
    behindName := behindName
    sign := sign
    back := back
    code_eq := by simpa only [List.append_assoc] using hcode
    front_signless := signless_append.mpr ⟨hdropped, htypeSignless⟩
    gap_ne := hgapNe
    gap_blank := hgapBlank
    name_ne := hwordNe
    name_word := hword
    behindName_blank := hbehindBlank
    sign_cases := hcases }⟩

/-! ## The code of a declaration -/

namespace Text

/-- The text in front of the last line goes on in lines of its own. -/
theorem exists_lastLine (front : Text) :
    ∃ (above : List Text) (line : Text), '\n' ∉ line ∧ front = above.flatMap (· ++ ['\n']) ++ line ∧
      ∀ behind : Text, Text.lines (front ++ behind) = above ++ Text.lines (line ++ behind) := by
  induction front with
  | nil => exact ⟨[], [], List.not_mem_nil, rfl, fun _ => rfl⟩
  | cons c rest ih =>
    obtain ⟨above, line, hline, hrest, hlines⟩ := ih
    by_cases hc : c = '\n'
    · subst hc
      exact ⟨[] :: above, line, hline, by rw [hrest]; rfl, fun behind => by
        rw [List.cons_append, lines_newline_cons, hlines, List.cons_append]⟩
    cases above with
    | nil =>
      refine ⟨[], c :: line, ?_, by rw [hrest]; rfl, fun behind => ?_⟩
      · simpa [Ne.symm hc] using hline
      · obtain rfl : rest = line := hrest
        rfl
    | cons first others =>
      exact ⟨(c :: first) :: others, line, hline, by rw [hrest]; rfl, fun behind =>
        lines_cons hc (hlines behind)⟩

/-- A piece of one line continues into the first line of what follows. -/
theorem lines_append_of_noNewline {line : Text} (h : '\n' ∉ line) {behind first : Text}
    {others : List Text} (hbehind : behind.lines = first :: others) :
    Text.lines (line ++ behind) = (line ++ first) :: others := by
  induction line with
  | nil => exact hbehind
  | cons c rest ih =>
    simp only [List.mem_cons, not_or] at h
    exact lines_cons (Ne.symm h.1) (ih h.2)

end Text

/-- A text that starts with another character than comments and directives do. -/
def StartsCode (text : Text) : Prop :=
  ∀ c ∈ text.head?, c ≠ '/' ∧ c ≠ '*' ∧ c ≠ '#'

theorem isRemark_eq_false {text : Text} (h : StartsCode text) : isRemark text = false := by
  cases text with
  | nil => rfl
  | cons c rest =>
    obtain ⟨hslash, hstar, hhash⟩ := h c rfl
    simp [isRemark, Text.startsWith, List.isPrefixOf, Ne.symm hslash, Ne.symm hstar, Ne.symm hhash]

/-- What is left of lines in the code of a declaration. -/
def keptPieces (lines : List Text) : List Text :=
  (lines.map Text.trim).filter fun line => !line.isEmpty && !isRemark line

/-- In front of white space a text starts where it does without it. -/
theorem head?_append_blank {first second : Text} (h : ∀ c ∈ second.head?, isBlank c) {d : Char}
    (hd : isBlank d = false) : (first ++ second).head? = some d ↔ first.head? = some d := by
  cases first with
  | nil =>
    refine ⟨fun heq => ?_, fun heq => by cases heq⟩
    rw [h d heq] at hd
    cases hd
  | cons c rest => exact Iff.rfl

/-- In the code of a declaration a character that is not white space stands behind what
the lines above it and the front of its own line leave, and in front of the character that
follows it or of a space. -/
theorem fieldCode_append_cons {front behind line : Text} {above : List Text} {c : Char}
    (hline : '\n' ∉ line)
    (hlines : ∀ behind : Text, Text.lines (front ++ behind) = above ++ Text.lines (line ++ behind))
    (hc : isBlank c = false) (hkept : StartsCode (line.trimLeft ++ [c])) :
    ∃ back, fieldCode (front ++ c :: behind) =
      (keptPieces above).flatMap (· ++ [' ']) ++ line.trimLeft ++ c :: back ∧
      ∀ d, isBlank d = false → (back.head? = some d ↔ behind.head? = some d) := by
  have hnewline : c ≠ '\n' := by
    rintro rfl
    exact absurd hc (by decide)
  obtain ⟨first, others, hbehind⟩ := List.exists_cons_of_ne_nil (Text.lines_ne_nil behind)
  have hown := Text.lines_append_of_noNewline hline (Text.lines_cons hnewline hbehind)
  have hpiece : Text.trim (line ++ c :: first) = line.trimLeft ++ c :: first.trimRight :=
    Text.trim_append_cons hc line first
  have hstarts : isRemark (line.trimLeft ++ c :: first.trimRight) = false := by
    refine isRemark_eq_false fun d hd => hkept d ?_
    cases h : line.trimLeft with
    | nil => simpa [h] using hd
    | cons _ _ => simpa [h] using hd
  refine ⟨first.trimRight ++ (keptPieces others).flatMap ([' '] ++ ·), ?_, fun d hblank => ?_⟩
  · have hkeeps : (!(line.trimLeft ++ c :: first.trimRight).isEmpty &&
        !isRemark (line.trimLeft ++ c :: first.trimRight)) = true := by
      rw [hstarts]
      simp
    rw [fieldCode, hlines, hown, List.map_append, List.filter_append, List.map_cons, hpiece,
      List.filter_cons, if_pos hkeeps]
    exact (Text.join_append_cons _ _ _ _).trans (by simp [keptPieces, List.append_assoc])
  · obtain ⟨blanks, hblanks, hallBlank⟩ := Text.exists_trimRight first
    have hgaps : ∀ e ∈ ((keptPieces others).flatMap ([' '] ++ ·)).head?, isBlank e := by
      cases keptPieces others <;> rintro e ⟨⟩
      decide
    have hbelow : ∃ below : Text, behind = first ++ below ∧ ∀ e ∈ below.head?, isBlank e := by
      rw [← Text.unlines_lines behind, hbehind]
      cases others with
      | nil => exact ⟨[], by rw [Text.unlines_singleton, List.append_nil], by simp⟩
      | cons next more =>
        exact ⟨'\n' :: Text.unlines (next :: more), Text.unlines_cons_cons _ _ _, by
          rintro e ⟨⟩
          decide⟩
    obtain ⟨below, hbelow, hbelowBlank⟩ := hbelow
    rw [head?_append_blank hgaps hblank, hbelow, head?_append_blank hbelowBlank hblank]
    conv_rhs => rw [hblanks]
    exact (head?_append_blank (fun e he => hallBlank e (List.mem_of_mem_head? he)) hblank).symm

/-- White space in front of a declaration leaves nothing in its code. -/
theorem head?_fieldCode {blanks rest : Text} {c : Char} (hblanks : blanks.all isBlank)
    (hc : isBlank c = false) (hstarts : StartsCode [c]) :
    (fieldCode (blanks ++ c :: rest)).head? = some c := by
  obtain ⟨above, line, hline, heq, hlines⟩ := Text.exists_lastLine blanks
  rw [heq, List.all_append, Bool.and_eq_true] at hblanks
  have htrim : line.trimLeft = [] := by
    rw [Text.trimLeft, List.dropWhile_eq_nil_iff]
    exact List.all_eq_true.mp hblanks.2
  have habove : keptPieces above = [] := by
    refine List.filter_eq_nil_iff.mpr fun piece hpiece => ?_
    obtain ⟨source, hsource, rfl⟩ := List.mem_map.mp hpiece
    have hblank : source.all isBlank := List.all_eq_true.mpr fun d hd =>
      List.all_eq_true.mp hblanks.1 d
        (List.mem_flatMap.mpr ⟨source, hsource, List.mem_append_left _ hd⟩)
    rw [Text.trim, Text.trimLeft, List.dropWhile_eq_nil_iff.mpr (List.all_eq_true.mp hblank)]
    decide
  obtain ⟨back, hcode, -⟩ := @fieldCode_append_cons _ rest _ _ _ hline hlines hc
    (by rw [htrim]; exact hstarts)
  rw [hcode, habove, htrim]
  rfl

/-! ## The name of a declaration -/

/-- The last word of a text: the characters between its last white spaces. -/
def lastWord (text : Text) : Text :=
  (text.trimRight.reverse.takeWhile fun c => !isBlank c).reverse

theorem lastWord_append_blank {text blanks : Text} (h : ∀ c ∈ blanks, isBlank c) :
    lastWord (text ++ blanks) = lastWord text := by
  rw [lastWord, Text.trimRight_append_blank h, lastWord]

/-- What stands in front of white space does not matter for the last word behind it. -/
theorem lastWord_append {front gap text : Text} (hne : gap ≠ []) (hgap : ∀ c ∈ gap, isBlank c)
    (htext : ∃ c ∈ text, isBlank c = false) :
    lastWord (front ++ gap ++ text) = lastWord text := by
  have hright : text.trimRight ≠ [] := by
    obtain ⟨c, hc, hblank⟩ := htext
    intro hempty
    have hall : text.reverse.dropWhile isBlank = [] := by
      simpa [Text.trimRight, Text.dropRightWhile] using hempty
    rw [List.dropWhile_eq_nil_iff.mp hall c (List.mem_reverse.mpr hc)] at hblank
    cases hblank
  have hstop : ((front ++ gap).reverse.takeWhile fun c => !isBlank c) = [] := by
    rw [List.reverse_append]
    obtain ⟨last, rest, hlast⟩ :=
      List.exists_cons_of_ne_nil (List.reverse_eq_nil_iff.not.mpr hne)
    have : isBlank last := hgap last (List.mem_reverse.mp (hlast ▸ List.mem_cons_self))
    rw [hlast, List.cons_append, List.takeWhile_cons, this]
    rfl
  have htake : ((text.trimRight.reverse ++ (front ++ gap).reverse).takeWhile fun c => !isBlank c) =
      text.trimRight.reverse.takeWhile fun c => !isBlank c := by
    rw [List.takeWhile_append, hstop, List.append_nil]
    split
    · rename_i hlength
      exact ((List.takeWhile_prefix _).eq_of_length hlength).symm
    · rfl
  rw [lastWord, Text.trimRight_append hright, List.reverse_append, htake, lastWord]

theorem lastWord_blank {text : Text} (h : ∀ c ∈ text, isBlank c) : lastWord text = [] :=
  @lastWord_append_blank [] _ h

theorem lastWord_eq_nil_iff {text : Text} : lastWord text = [] ↔ ∀ c ∈ text, isBlank c := by
  refine ⟨fun h => ?_, lastWord_blank⟩
  by_contra hblank
  rw [lastWord, List.reverse_eq_nil_iff] at h
  have hne : text.reverse.dropWhile isBlank ≠ [] := by
    simpa [List.dropWhile_eq_nil_iff] using hblank
  have hstop := List.dropWhile_get_zero_not isBlank text.reverse (List.length_pos_iff.mpr hne)
  rw [Text.trimRight, Text.dropRightWhile, List.reverse_reverse] at h
  cases hcons : text.reverse.dropWhile isBlank with
  | nil => exact hne hcons
  | cons c rest => simp_all

/-- White space in front of a text does not matter for its last word. -/
theorem lastWord_blank_append {blanks text : Text} (h : ∀ c ∈ blanks, isBlank c) :
    lastWord (blanks ++ text) = lastWord text := by
  by_cases hne : blanks = []
  · rw [hne, List.nil_append]
  by_cases htext : ∃ c ∈ text, isBlank c = false
  · exact @lastWord_append [] _ _ hne h htext
  · have htext : ∀ c ∈ text, isBlank c := by simpa using htext
    rw [lastWord_blank htext, lastWord_blank (List.forall_mem_append.mpr ⟨h, htext⟩)]

theorem lastWord_word {front gap word : Text} (hgap : gap ≠ []) (hblank : ∀ c ∈ gap, isBlank c)
    (hne : word ≠ []) (hword : ∀ c ∈ word, isWord c) : lastWord (front ++ gap ++ word) = word := by
  have hsolid : ∀ c ∈ word, isBlank c = false := fun c hc => isBlank_of_isWord (hword c hc)
  obtain ⟨c, hc⟩ := List.exists_mem_of_ne_nil word hne
  obtain ⟨last, rest, hlast⟩ := List.exists_cons_of_ne_nil (List.reverse_eq_nil_iff.not.mpr hne)
  have hright : word.trimRight = word := by
    have hsolid := hsolid last (List.mem_reverse.mp (hlast ▸ List.mem_cons_self))
    rw [Text.trimRight, Text.dropRightWhile, hlast, List.dropWhile_cons, hsolid]
    exact List.reverse_eq_iff.mpr hlast.symm
  rw [lastWord_append hgap hblank ⟨c, hc, hsolid c hc⟩, lastWord, hright,
    List.takeWhile_eq_self_iff.mpr, List.reverse_reverse]
  intro d hd
  rw [hsolid d (List.mem_reverse.mp hd)]
  rfl

theorem lastWord_trim (text : Text) : lastWord text.trim = lastWord text := by
  obtain ⟨front, back, heq, hfront, hback⟩ := Text.exists_trim text
  rw [heq, lastWord_append_blank hback, lastWord_blank_append hfront, ← heq]

/-- The last word is the same in the code of a declaration and in the declaration. -/
theorem lastWord_keptPieces {above : List Text} (line : Text)
    (habove : ∀ piece ∈ above, isRemark piece.trim = false) :
    lastWord ((keptPieces above).flatMap (· ++ [' ']) ++ line.trimLeft) =
      lastWord (above.flatMap (· ++ ['\n']) ++ line) := by
  induction above with
  | nil =>
    obtain ⟨blanks, hline, hblanks⟩ := Text.exists_trimLeft line
    conv_rhs => rw [List.flatMap_nil, List.nil_append, hline, lastWord_blank_append hblanks]
    rfl
  | cons piece others ih =>
    obtain ⟨hpiece, hothers⟩ := List.forall_mem_cons.mp habove
    have ih := ih hothers
    have hkept : keptPieces (piece :: others) =
        if piece.trim = [] then keptPieces others else piece.trim :: keptPieces others := by
      by_cases hempty : piece.trim = [] <;> simp [keptPieces, hpiece, hempty]
    have hgap : ∀ c ∈ ['\n'], isBlank c := by decide
    have hspace : ∀ c ∈ [' '], isBlank c := by decide
    rw [List.flatMap_cons, List.append_assoc, hkept]
    by_cases hrest : ∀ c ∈ others.flatMap (· ++ ['\n']) ++ line, isBlank c
    · have hrest' := lastWord_eq_nil_iff.mp (ih.trans (lastWord_eq_nil_iff.mpr hrest))
      rw [List.append_assoc, lastWord_append_blank (List.forall_mem_append.mpr ⟨hgap, hrest⟩),
        ← lastWord_trim piece]
      split
      · rename_i hempty
        rw [hempty, ih, lastWord_eq_nil_iff.mpr hrest]
        rfl
      · rw [List.flatMap_cons, List.append_assoc, List.append_assoc,
          lastWord_append_blank (List.forall_mem_append.mpr ⟨hspace, hrest'⟩)]
    · have hrest' := fun h => hrest (lastWord_eq_nil_iff.mp
        (ih.symm.trans (lastWord_eq_nil_iff.mpr h)))
      rw [lastWord_append (List.cons_ne_nil _ _) hgap (by simpa using hrest)]
      split
      · exact ih
      · rw [List.flatMap_cons, List.append_assoc,
          lastWord_append (List.cons_ne_nil _ _) hspace (by simpa using hrest'), ih]

/-! ## What the first sign decides -/

/-- A text without the characters that comments and directives start with. -/
def Remarkless (text : Text) : Prop :=
  ∀ c ∈ text, c ≠ '/' ∧ c ≠ '*' ∧ c ≠ '#'

theorem startsCode_of_isSign {sign : Char} {rest : Text} (h : IsSign sign) :
    StartsCode (sign :: rest) := by
  intro c hc
  obtain rfl : sign = c := Option.some.inj hc
  rcases h with rfl | rfl <;> decide

theorem StartsCode.append {first second : Text} (hfirst : StartsCode first)
    (hsecond : StartsCode second) : StartsCode (first ++ second) := by
  cases first with
  | nil => exact hsecond
  | cons c rest => exact hfirst

theorem Remarkless.startsCode {line : Text} (h : Remarkless line) : StartsCode line.trimLeft :=
  fun c hc => h c (Text.mem_of_mem_head?_trimLeft hc)

theorem Remarkless.isRemark_trim {piece : Text} (h : Remarkless piece) :
    isRemark piece.trim = false := by
  refine isRemark_eq_false fun c hc => h c ?_
  obtain ⟨front, back, heq, -, -⟩ := Text.exists_trim piece
  rw [heq]
  exact List.mem_append_left _ (List.mem_append_right _ (List.mem_of_mem_head? hc))

/-- Whatever is left of lines in the code of a declaration is left of their characters. -/
theorem signless_keptPieces {above : List Text} {line : Text}
    (h : Signless (above.flatMap (· ++ ['\n']) ++ line)) :
    Signless ((keptPieces above).flatMap (· ++ [' ']) ++ line.trimLeft) := by
  obtain ⟨habove, hline⟩ := signless_append.mp h
  refine signless_append.mpr ⟨fun c hc => ?_, fun c hc =>
    hline c ((List.dropWhile_suffix isBlank).subset hc)⟩
  obtain ⟨piece, hpiece, hc⟩ := List.mem_flatMap.mp hc
  rcases List.mem_append.mp hc with hc | hc
  · obtain ⟨hpiece, -⟩ := List.mem_filter.mp hpiece
    obtain ⟨source, hsource, rfl⟩ := List.mem_map.mp hpiece
    obtain ⟨front, back, heq, -, -⟩ := Text.exists_trim source
    refine habove c (List.mem_flatMap.mpr ⟨source, hsource, List.mem_append_left _ ?_⟩)
    rw [heq]
    exact List.mem_append_left _ (List.mem_append_right _ hc)
  · obtain rfl := List.mem_singleton.mp hc
    decide

/-- A declaration that starts with a word, a modifier say, starts with no attribute. -/
theorem head?_fieldCode_ne {declaration : Text} {c : Char}
    (h : declaration.trimLeft.head? = some c) (hword : isWord c) :
    ∀ d ∈ (fieldCode declaration).head?, d ≠ '[' := by
  obtain ⟨blanks, heq, hblanks⟩ := Text.exists_trimLeft declaration
  obtain ⟨rest, hrest⟩ : ∃ rest, declaration.trimLeft = c :: rest := List.head?_eq_some_iff.mp h
  have hother := fun d => @ne_of_isWord c d hword
  have hstarts : StartsCode [c] := by
    intro d hd
    obtain rfl : c = d := Option.some.inj hd
    exact ⟨hother _ (by decide), hother _ (by decide), hother _ (by decide)⟩
  rw [heq, hrest, head?_fieldCode (List.all_eq_true.mpr hblanks) (isBlank_of_isWord hword) hstarts]
  intro d hd
  obtain rfl : c = d := Option.some.inj hd
  exact hother _ (by decide)

/-- The name of a field is the last word in front of its first sign. -/
theorem name_of_fieldHead? {front behind : Text} {sign first : Char} {head : FieldHead}
    (hhead : fieldHead? (front ++ sign :: behind) = some head) (hsign : IsSign sign)
    (hstart : front.trimLeft.head? = some first) (hfirst : isWord first)
    (hfront : Remarkless front) (hsigns : Signless front) : head.name = lastWord front := by
  obtain ⟨above, line, hlast, heq, hlines⟩ := Text.exists_lastLine front
  have hparts : Remarkless line ∧ ∀ piece ∈ above, Remarkless piece := by
    refine ⟨fun c hc => hfront c (heq ▸ List.mem_append_right _ hc), fun piece hpiece c hc =>
      hfront c (heq ▸ List.mem_append_left _ (List.mem_flatMap.mpr ⟨piece, hpiece, ?_⟩))⟩
    exact List.mem_append_left _ hc
  have hblank : isBlank sign = false := by rcases hsign with rfl | rfl <;> decide
  obtain ⟨rest, hcode, -⟩ := @fieldCode_append_cons _ behind _ _ sign hlast
    hlines hblank (hparts.1.startsCode.append (startsCode_of_isSign hsign))
  obtain ⟨parts⟩ := exists_fieldParts hhead (head?_fieldCode_ne (Text.head?_trimLeft_append hstart _) hfirst)
  obtain ⟨hfrontEq, -, -⟩ := eq_of_first_sign (signless_keptPieces (heq ▸ hsigns)) parts.signless
    hsign parts.sign_isSign (hcode.symm.trans parts.code_eq)
  calc head.name
      = lastWord (parts.front ++ parts.gap ++ head.name ++ parts.behindName) := by
        rw [lastWord_append_blank parts.behindName_blank,
          lastWord_word parts.gap_ne parts.gap_blank parts.name_ne parts.name_word]
    _ = lastWord front := by
        rw [← hfrontEq, lastWord_keptPieces line fun piece hpiece =>
          (hparts.2 piece hpiece).isRemark_trim, ← heq]

end EditorScript
