import EditorScript.Proofs.ReadDeclarations

/-!
# Declarations of several variables

A declaration may introduce several variables, with commas between them.  One of them is
read: the first one that has an initial value, or else the last one
(`declaredNames_fieldList`).  The others are taken for a part of the type, so for elements
that need one of them a further variable of that name is written.
-/

namespace EditorScript

open Pattern

/-- A variable in a declaration, with or without an initial value. -/
structure Declarator where
  name : Text
  value : Option Text
deriving DecidableEq, Repr

/-- The variable with its initial value. -/
def Declarator.text (declarator : Declarator) : Text :=
  declarator.name ++ declarator.value.elim [] fun value => (" = " ++ value : Text)

/-- A declaration: words, a type, and variables with commas between them. -/
def fieldList (modifiers : List Text) (type : Text) (declarators : List Declarator) : Text :=
  spaced modifiers ++ (type ++ ' ' :: (Text.join ", " (declarators.map (·.text)) ++ ";"))

/-- The variable that is read: the first one with an initial value, or the last one where none
has any. -/
def readDeclarator? (declarators : List Declarator) : Option Declarator :=
  (declarators.find? (·.value.isSome)).or declarators.getLast?

/-! ## The words in front of the name -/

theorem spaced_append (first second : List Text) :
    spaced (first ++ second) = spaced first ++ spaced second :=
  List.flatMap_append

/-- A modifier of fields with white space behind it. -/
def IsModifierPiece (piece : Text) : Prop :=
  ∃ word ∈ fieldModifierWords, ∃ blanks, blanks ≠ [] ∧ (∀ c ∈ blanks, isBlank c) ∧
    piece = word ++ blanks

section

variable {modifiers : List Text} {type rest : Text}
  (hmodifiers : ∀ modifier ∈ modifiers, IsVariableName modifier) (htype : IsVariableName type)
  (hnot : type ∉ fieldModifierWords) (hrest : ∀ c ∈ rest.head?, isBlank c = false)
include hmodifiers htype hnot hrest

/-- Modifiers that are read at the start of a declaration are its first words. -/
theorem exists_suffix_of_pieces {pieces : List Text} {behind : Text}
    (hpieces : ∀ piece ∈ pieces, IsModifierPiece piece)
    (heq : spaced modifiers ++ (type ++ ' ' :: rest) = pieces.flatten ++ behind) :
    ∃ left, left <:+ modifiers ∧ behind = spaced left ++ (type ++ ' ' :: rest) := by
  have hwords : ∀ word ∈ fieldModifierWords, IsVariableName word := by decide
  have hclass : ∀ c, isWord c → isBlank c = false := fun c => isBlank_of_isWord
  induction pieces generalizing modifiers with
  | nil => exact ⟨modifiers, List.suffix_rfl, heq.symm⟩
  | cons piece others ih =>
    rw [List.forall_mem_cons] at hpieces
    obtain ⟨⟨word, hword, blanks, hne, hblanks, rfl⟩, hothers⟩ := hpieces
    rw [List.flatten_cons, List.append_assoc _ _ behind] at heq
    cases modifiers with
    | nil =>
      rw [spaced_nil, List.nil_append, List.append_cons] at heq
      obtain ⟨rfl, -⟩ := piece_append_inj hclass (hwords word hword).2 hne hblanks htype.2 hrest
        heq.symm
      exact absurd hword hnot
    | cons modifier more =>
      rw [List.forall_mem_cons] at hmodifiers
      rw [spaced_cons, List.append_assoc _ (spaced more)] at heq
      obtain ⟨-, hbehind⟩ := piece_append_inj hclass (hwords word hword).2 hne hblanks
        hmodifiers.1.2 (head?_spaced_append hmodifiers.2 htype _) heq.symm
      obtain ⟨left, hleft, hfound⟩ := ih hmodifiers.2 hothers hbehind.symm
      exact ⟨left, hleft.trans (List.suffix_cons _ _), hfound⟩

/-- What is dropped in front of a declaration are some of its first words, and not its type. -/
theorem exists_dropMatch_fieldModifiers :
    ∃ left, left <:+ modifiers ∧
      fieldModifiers.dropMatch (spaced modifiers ++ (type ++ ' ' :: rest)) =
        spaced left ++ (type ++ ' ' :: rest) := by
  unfold Pattern.dropMatch
  cases hmatch : fieldModifiers.match? (spaced modifiers ++ (type ++ ' ' :: rest)) with
  | none => exact ⟨modifiers, List.suffix_rfl, rfl⟩
  | some found =>
    obtain ⟨later, hreaches, heq⟩ := run_sound hmatch
    obtain rfl := Option.some.inj heq
    obtain ⟨_, hstart, hreaches⟩ := hreaches.append
    cases hstart
    obtain ⟨pieces, hpieces, hsplit⟩ := @Reaches.loop_eq _ _ _ _ hreaches IsModifierPiece
      fun h => by
        obtain ⟨_, hword, hgap⟩ := h.append
        obtain ⟨word, hmem, hfront⟩ := @Reaches.firstOf_eq _ _ fieldModifierWords hword
        obtain ⟨blanks, hne, hbehind, hblank⟩ := hgap.many1_eq
        exact ⟨word ++ blanks, ⟨word, hmem, blanks, hne, hblank, rfl⟩,
          by rw [hfront, hbehind, List.append_assoc]⟩
    exact exists_suffix_of_pieces hmodifiers htype hnot hrest hpieces hsplit

end

/-! ## Type and name -/

/-- What stands behind the type of a declaration: a gap, the name, and the start of the initial
value or the end. -/
def nameOnwards : Pattern :=
  blanks1 ++ capture "name" word ++ blanks ++
    either ("=" ++ check fun _ after => !(after.head?.any fun c => c == '=' || c == '>')) ";"

theorem match?_fieldHead (code : Text) :
    fieldHead.match? code =
      (capture "type" (few1 any)).run (nameOnwards.run some) ⟨none, code, []⟩ :=
  rfl

/-- The type stays as it was captured. -/
theorem captured_of_nameOnwards {place later : Position} (h : Reaches nameOnwards place later) :
    later.captured "type" = place.captured "type" := by
  obtain ⟨_, h, hsign⟩ := h.append
  obtain ⟨_, h, hblanks⟩ := h.append
  obtain ⟨_, hgap, hname⟩ := h.append
  obtain ⟨_, -, hcapture, -⟩ := hname.capture_eq rfl
  rw [Position.captured, Position.captured?, hsign.captures_eq rfl, hblanks.captures_eq rfl,
    hcapture, hgap.captures_eq rfl]
  rfl

section

variable {front name gap back : Text} {sign : Char} (hname : IsVariableName name)
  (hgap : ∀ c ∈ gap, isBlank c)
  (hsign : sign = ';' ∨ sign = '=' ∧ ∀ c ∈ back.head?, c ≠ '=' ∧ c ≠ '>')
include hname hgap hsign

theorem gives_nameOnwards (before : Option Char) (captures : List (String × Text)) :
    Gives (nameOnwards.run some ⟨before, ' ' :: (name ++ (gap ++ sign :: back)), captures⟩)
      fun _ => True := by
  have hspace : ' ' :: (name ++ (gap ++ sign :: back)) =
      [' '] ++ (name ++ (gap ++ sign :: back)) := rfl
  have hnotBlank : isBlank sign = false := by
    rcases hsign with rfl | ⟨rfl, -⟩ <;> decide
  have hbehindGap := head?_spaced_append (List.forall_mem_nil _) hname (gap ++ sign :: back)
  have hbehindName : ∀ c ∈ (gap ++ sign :: back).head?, isWord c = false := by
    cases gap with
    | nil =>
      rintro _ ⟨⟩
      rcases hsign with rfl | ⟨rfl, -⟩ <;> decide
    | cons blank others =>
      rintro _ ⟨⟩
      exact isWord_of_isBlank (hgap _ List.mem_cons_self)
  simp only [nameOnwards, run_append]
  rw [hspace]
  refine run_many1 (List.cons_ne_nil _ _) (List.forall_mem_singleton.mpr (by decide)) hbehindGap
    (fun before => ?_) before
  refine run_capture_many1 hname.1 hname.2 hbehindName (fun before => ?_) before
  refine run_many hgap (by rintro _ ⟨⟩; exact hnotBlank) (fun before => ?_) before
  rcases hsign with rfl | ⟨rfl, hback⟩
  · exact ⟨_, rfl, trivial⟩
  · have hassigns : (!(back.head?.any fun c => c == '=' || c == '>')) = true := by
      cases hhead : back.head? with
      | none => rfl
      | some c => simpa using hback c hhead
    have hequals : (("=" : Pattern) ++ check fun _ after =>
        !(after.head?.any fun c => c == '=' || c == '>')).run some
          ⟨before, '=' :: back, ("name", name) :: captures⟩ =
        if !(back.head?.any fun c => c == '=' || c == '>') then
          some ⟨some '=', back, ("name", name) :: captures⟩ else none := rfl
    refine Gives.or ?_ _
    rw [hequals, if_pos hassigns]
    exact ⟨_, rfl, trivial⟩

/-- What has the parts of a declaration is read as one, and its type is a part of what stands in
front of its name. -/
theorem exists_match_fieldHead (hfront : front ≠ []) :
    ∃ found, fieldHead.match? (front ++ ' ' :: (name ++ (gap ++ sign :: back))) = some found ∧
      found.captured "type" <+: front := by
  rw [match?_fieldHead]
  -- the type that is read may end earlier, so no more than a front of the text is known of it
  obtain ⟨found, hfound, used, more, later, -, hsplit, hnext⟩ :=
    gives_capture_few1 hfront (fun _ _ => rfl)
      (fun before captures => gives_nameOnwards hname hgap hsign before captures) none
  obtain ⟨place, hreaches, hplace⟩ := run_sound hnext
  obtain rfl := Option.some.inj hplace
  refine ⟨_, hfound, ?_⟩
  rw [captured_of_nameOnwards hreaches]
  exact ⟨more, hsplit.symm⟩

end

/-! ## The name that is read -/

/-- Characters of words, commas and spaces. -/
def IsListChar (c : Char) : Prop :=
  isWord c ∨ c = ',' ∨ c = ' '

theorem IsListChar.ne {c d : Char} (h : IsListChar c)
    (hd : isWord d = false ∧ d ≠ ',' ∧ d ≠ ' ') : c ≠ d := by
  rintro rfl
  rcases h with hword | hother
  · rw [hd.1] at hword
    cases hword
  · exact hother.elim hd.2.1 hd.2.2

/-- A declaration around the name that is read: words, a type, other names with commas behind
them, the name, and the first sign with what stands behind it. -/
structure ListParts where
  modifiers : List Text
  type : Text
  others : List Text
  name : Text
  gap : Text
  sign : Char
  behind : Text
  modifier_word : ∀ modifier ∈ modifiers, IsVariableName modifier
  type_word : IsVariableName type
  type_notModifier : type ∉ fieldModifierWords
  other_word : ∀ other ∈ others, IsVariableName other
  name_word : IsVariableName name
  sign_cases : gap = [] ∧ sign = ';' ∨ gap = [' '] ∧ sign = '=' ∧ behind.head? = some ' '

namespace ListParts

/-- The pieces in front of the name that is read. -/
def pieces (parts : ListParts) : List Text :=
  parts.modifiers ++ parts.type :: parts.others.map (· ++ [','])

/-- The declaration up to the first sign. -/
def line (parts : ListParts) : Text :=
  spaced parts.pieces ++ (parts.name ++ parts.gap)

/-- The whole declaration. -/
def text (parts : ListParts) : Text :=
  parts.line ++ parts.sign :: parts.behind

variable (parts : ListParts)

theorem gap_blank : ∀ c ∈ parts.gap, isBlank c := by
  rcases parts.sign_cases with ⟨hgap, -⟩ | ⟨hgap, -⟩ <;> rw [hgap] <;> decide

theorem isSign_sign : IsSign parts.sign :=
  parts.sign_cases.elim (fun h => .inr h.2) fun h => .inl h.2.1

theorem forall_mem_pieces : ∀ piece ∈ parts.pieces, piece ≠ [] ∧ ∀ c ∈ piece, IsListChar c := by
  have hword : ∀ {word : Text}, IsVariableName word → word ≠ [] ∧ ∀ c ∈ word, IsListChar c :=
    fun h => ⟨h.1, fun c hc => .inl (h.2 c hc)⟩
  refine List.forall_mem_append.mpr ⟨fun modifier hmem => hword (parts.modifier_word modifier hmem),
    List.forall_mem_cons.mpr ⟨hword parts.type_word, List.forall_mem_map.mpr fun other hmem =>
      ⟨List.append_ne_nil_of_right_ne_nil _ (List.cons_ne_nil _ _),
        List.forall_mem_append.mpr ⟨(hword (parts.other_word other hmem)).2,
          List.forall_mem_singleton.mpr (.inr (.inl rfl))⟩⟩⟩⟩

theorem forall_mem_spaced : ∀ c ∈ spaced parts.pieces, IsListChar c := by
  intro c hc
  obtain ⟨piece, hpiece, hc⟩ := List.mem_flatMap.mp hc
  rcases List.mem_append.mp hc with hc | hc
  · exact (parts.forall_mem_pieces piece hpiece).2 c hc
  · exact .inr (.inr (List.mem_singleton.mp hc))

/-- A space stands in front of the name that is read. -/
theorem exists_front : ∃ front : Text, front ≠ [] ∧ spaced parts.pieces = front ++ [' '] ∧
    ∀ rest, parts.line ++ rest = front ++ ' ' :: (parts.name ++ (parts.gap ++ rest)) := by
  have hne : parts.pieces ≠ [] := List.append_ne_nil_of_right_ne_nil _ (List.cons_ne_nil _ _)
  obtain ⟨init, last, heq⟩ := (List.eq_nil_or_concat parts.pieces).resolve_left hne
  rw [List.concat_eq_append] at heq
  have hspaced : spaced parts.pieces = (spaced init ++ last) ++ [' '] := by
    rw [heq, spaced_append, spaced_cons, spaced_nil, List.append_nil, List.append_assoc]
  have hlast : last ∈ parts.pieces := heq ▸ List.mem_append_right _ List.mem_cons_self
  refine ⟨spaced init ++ last, ?_, hspaced, fun rest => ?_⟩
  · exact List.append_ne_nil_of_right_ne_nil _ (parts.forall_mem_pieces last hlast).1
  · simp only [line, hspaced, List.append_assoc, List.cons_append, List.nil_append]

theorem forall_mem_line : ∀ c ∈ parts.line, IsListChar c := by
  refine List.forall_mem_append.mpr ⟨parts.forall_mem_spaced, List.forall_mem_append.mpr
    ⟨fun c hc => .inl (parts.name_word.2 c hc), fun c hc => ?_⟩⟩
  rcases parts.sign_cases with ⟨hgap, -⟩ | ⟨hgap, -⟩ <;> rw [hgap] at hc
  · cases hc
  · exact .inr (.inr (List.mem_singleton.mp hc))

/-- Other characters do not stand in front of the first sign. -/
theorem ne_of_mem_line {c d : Char} (hc : c ∈ parts.line)
    (hd : isWord d = false ∧ d ≠ ',' ∧ d ≠ ' ') : c ≠ d :=
  (parts.forall_mem_line c hc).ne hd

/-- No sign of a declaration is a part of a type that is read. -/
theorem any_sign_eq_false {read : Text} (h : read ⊆ spaced parts.pieces) :
    (read.filter (!isBlank ·)).any ("{}()=;".toList.contains ·) = false := by
  have hsigns : ∀ sign ∈ "{}()=;".toList, isWord sign = false ∧ sign ≠ ',' ∧ sign ≠ ' ' := by
    decide
  rw [List.any_eq_false]
  intro c hc hsign
  have hlist := parts.forall_mem_spaced c (h (List.mem_filter.mp hc).1)
  exact hlist.ne (hsigns c (List.contains_iff_mem.mp hsign)) rfl

/-- What stands behind the type in front of a text. -/
def behindType (rest : Text) : Text :=
  spaced (parts.others.map (· ++ [','])) ++ (parts.name ++ (parts.gap ++ rest))

theorem line_append (rest : Text) :
    parts.line ++ rest =
      spaced parts.modifiers ++ (parts.type ++ ' ' :: parts.behindType rest) := by
  simp only [line, pieces, behindType, spaced_append, spaced_cons, List.append_assoc,
    List.cons_append, List.nil_append]

theorem head?_behindType (rest : Text) :
    ∀ c ∈ (parts.behindType rest).head?, isBlank c = false := by
  unfold behindType
  cases hothers : parts.others with
  | nil => exact head?_spaced_append (List.forall_mem_nil _) parts.name_word _
  | cons other more =>
    have hother := parts.other_word other (hothers ▸ List.mem_cons_self)
    obtain ⟨first, rest, rfl⟩ := List.exists_cons_of_ne_nil hother.1
    rintro _ ⟨⟩
    exact isBlank_of_isWord (hother.2 _ List.mem_cons_self)

/-- A declaration starts with a word. -/
theorem exists_line_eq : ∃ c rest, parts.line = c :: rest ∧ isWord c := by
  rw [← List.append_nil parts.line, parts.line_append]
  exact exists_spaced_eq parts.modifier_word parts.type_word _

theorem trimLeft_line : parts.line.trimLeft = parts.line := by
  obtain ⟨first, rest, hline, hfirst⟩ := parts.exists_line_eq
  rw [hline]
  exact List.dropWhile_cons_of_neg (by simp [isBlank_of_isWord hfirst])

theorem remarkless_line : Remarkless parts.line := fun c hc =>
  ⟨parts.ne_of_mem_line hc (by decide), parts.ne_of_mem_line hc (by decide),
    parts.ne_of_mem_line hc (by decide)⟩

/-- The code of a declaration is the declaration itself up to the first sign. -/
theorem exists_fieldCode_eq :
    ∃ back, fieldCode parts.text = parts.line ++ parts.sign :: back ∧
      (parts.sign = ';' ∨ parts.sign = '=' ∧ ∀ c ∈ back.head?, c ≠ '=' ∧ c ≠ '>') := by
  have hnewline : '\n' ∉ parts.line := fun hmem => parts.ne_of_mem_line hmem (by decide) rfl
  have hblank : isBlank parts.sign = false := by
    rcases parts.isSign_sign with hsign | hsign <;> rw [hsign] <;> decide
  obtain ⟨back, hcode, hback⟩ := @fieldCode_append_cons parts.line parts.behind parts.line []
    parts.sign hnewline (fun _ => rfl) hblank
    (parts.remarkless_line.startsCode.append (startsCode_of_isSign parts.isSign_sign))
  refine ⟨back, by rw [text, hcode, parts.trimLeft_line]; rfl, ?_⟩
  rcases parts.sign_cases with ⟨-, hsign⟩ | ⟨-, hsign, hbehind⟩
  · exact .inl hsign
  · have hspace : ∀ d, isBlank d = false → back.head? ≠ some d := fun d hd heq => by
      rw [hback d hd, hbehind] at heq
      cases heq
      exact absurd hd (by decide)
    refine .inr ⟨hsign, fun c hc => ⟨?_, ?_⟩⟩ <;> rintro rfl
    · exact hspace '=' (by decide) hc
    · exact hspace '>' (by decide) hc

/-- Some of the first words are left out. -/
def dropWords (left : List Text) (h : left <:+ parts.modifiers) : ListParts :=
  { parts with
    modifiers := left
    modifier_word := fun modifier hmem => parts.modifier_word modifier (h.subset hmem) }

/-- A declaration is read. -/
theorem exists_fieldHead? : ∃ head, fieldHead? parts.text = some head := by
  obtain ⟨back, hcode, hsign⟩ := parts.exists_fieldCode_eq
  obtain ⟨first, others, hline, hfirst⟩ := parts.exists_line_eq
  have hbracket : ∀ c ∈ (parts.line ++ parts.sign :: back).head?, c ≠ '[' := by
    rw [hline]
    rintro _ ⟨⟩
    exact ne_of_isWord hfirst (by decide)
  -- however many words are dropped, the type still stands in front of the name
  obtain ⟨left, hleft, hdrop⟩ := exists_dropMatch_fieldModifiers parts.modifier_word
    parts.type_word parts.type_notModifier (parts.head?_behindType (parts.sign :: back))
  obtain ⟨front, hfront, hspaced, hline'⟩ := (parts.dropWords left hleft).exists_front
  have hrest : spaced left ++ (parts.type ++ ' ' :: parts.behindType (parts.sign :: back)) =
      front ++ ' ' :: (parts.name ++ (parts.gap ++ parts.sign :: back)) :=
    ((parts.dropWords left hleft).line_append _).symm.trans (hline' _)
  obtain ⟨found, hfound, htype⟩ := exists_match_fieldHead parts.name_word parts.gap_blank hsign
    hfront
  have hinside : found.captured "type" ⊆ spaced (parts.dropWords left hleft).pieces := by
    rw [hspaced]
    exact fun c hc => List.mem_append_left _ (htype.subset hc)
  rw [fieldHead?_eq, hcode, dropMatch_leadingAttributes hbracket, parts.line_append, hdrop, hrest,
    hfound, Option.bind_some]
  dsimp only
  rw [(parts.dropWords left hleft).any_sign_eq_false hinside]
  exact ⟨_, rfl⟩

/-- The name that is read is the one in front of the first sign. -/
theorem fieldHead?_name : (fieldHead? parts.text).map (·.name) = some parts.name := by
  obtain ⟨head, hhead⟩ := parts.exists_fieldHead?
  obtain ⟨first, others, hline, hfirst⟩ := parts.exists_line_eq
  obtain ⟨front, -, hspaced, -⟩ := parts.exists_front
  have hsignless : Signless parts.line := fun c hc hsign => by
    rcases hsign with rfl | rfl <;> exact parts.ne_of_mem_line hc (by decide) rfl
  have hname := name_of_fieldHead? hhead parts.isSign_sign
    (by rw [parts.trimLeft_line, hline]; rfl) hfirst parts.remarkless_line hsignless
  rw [hhead, Option.map_some, hname, line, hspaced, ← List.append_assoc,
    lastWord_append_blank parts.gap_blank,
    lastWord_word (List.cons_ne_nil _ _) (by decide) parts.name_word.1 parts.name_word.2]

end ListParts

/-! ## The variables of a declaration -/

theorem readDeclarator?_cons_of_some {declarator : Declarator} {value : Text}
    (h : declarator.value = some value) (declarators : List Declarator) :
    readDeclarator? (declarator :: declarators) = some declarator := by
  simp [readDeclarator?, h]

theorem readDeclarator?_cons_of_none {declarator : Declarator} (h : declarator.value = none)
    (next : Declarator) (declarators : List Declarator) :
    readDeclarator? (declarator :: next :: declarators) =
      readDeclarator? (next :: declarators) := by
  simp [readDeclarator?, List.find?_cons, h]

/-- The variables of a declaration around the one that is read: names with commas in front of
it, and the first sign behind its name. -/
theorem exists_readDeclarator? {declarators : List Declarator} (hne : declarators ≠ []) :
    ∃ (others : List Text) (seen : Declarator) (gap : Text) (sign : Char) (behind : Text),
      readDeclarator? declarators = some seen ∧ seen ∈ declarators ∧
      (∀ other ∈ others, other ∈ declarators.map (·.name)) ∧
      (gap = [] ∧ sign = ';' ∨ gap = [' '] ∧ sign = '=' ∧ behind.head? = some ' ') ∧
      Text.join ", " (declarators.map (·.text)) ++ ";" =
        spaced (others.map (· ++ [','])) ++ (seen.name ++ (gap ++ sign :: behind)) := by
  induction declarators with
  | nil => exact absurd rfl hne
  | cons declarator more ih =>
    cases hvalue : declarator.value with
    | some value =>
      have htext : declarator.text = declarator.name ++ ([' '] ++ '=' :: ' ' :: value) := by
        rw [Declarator.text, hvalue]
        rfl
      obtain ⟨tail, htail⟩ : ∃ tail,
          Text.join ", " ((declarator :: more).map (·.text)) = declarator.text ++ tail := by
        cases more with
        | nil => exact ⟨[], (Text.join_singleton _ _).trans (List.append_nil _).symm⟩
        | cons next rest => exact ⟨_, Text.join_cons_cons _ _ _ _⟩
      refine ⟨[], declarator, [' '], '=', ' ' :: (value ++ (tail ++ ";")),
        readDeclarator?_cons_of_some hvalue more, List.mem_cons_self, by simp,
        .inr ⟨rfl, rfl, rfl⟩, ?_⟩
      rw [htail, htext]
      simp
    | none =>
      have htext : declarator.text = declarator.name := by
        rw [Declarator.text, hvalue]
        exact List.append_nil _
      cases more with
      | nil =>
        refine ⟨[], declarator, [], ';', [], ?_, List.mem_cons_self, by simp, .inl ⟨rfl, rfl⟩, ?_⟩
        · simp [readDeclarator?, hvalue]
        · rw [List.map_singleton, Text.join_singleton, htext]
          rfl
      | cons next rest =>
        obtain ⟨others, seen, gap, sign, behind, hread, hseen, hothers, hsign, heq⟩ :=
          ih (List.cons_ne_nil _ _)
        refine ⟨declarator.name :: others, seen, gap, sign, behind, ?_,
          List.mem_cons_of_mem _ hseen, ?_, hsign, ?_⟩
        · rw [readDeclarator?_cons_of_none hvalue, hread]
        · exact List.forall_mem_cons.mpr ⟨List.mem_cons_self, fun other hother =>
            List.mem_cons_of_mem _ (hothers other hother)⟩
        · have hcomma : ∀ rest : Text, (", " : Text) ++ rest = [','] ++ ([' '] ++ rest) :=
            fun _ => rfl
          rw [List.map_cons, List.map_cons, Text.join_cons_cons, ← List.map_cons, htext,
            List.append_assoc, List.append_assoc, heq, hcomma, List.map_cons, spaced_cons]
          simp only [List.append_assoc]

section

variable {modifiers : List Text} {type : Text} {declarators : List Declarator}
  {seen : Declarator}

/-- A declaration has the parts around the name of the variable that is read. -/
theorem exists_listParts (hmodifiers : ∀ modifier ∈ modifiers, IsVariableName modifier)
    (htype : IsVariableName type) (hnot : type ∉ fieldModifierWords)
    (hnames : ∀ declarator ∈ declarators, IsVariableName declarator.name)
    (hne : declarators ≠ []) :
    ∃ seen ∈ declarators, readDeclarator? declarators = some seen ∧
      ∃ parts : ListParts, parts.name = seen.name ∧
        parts.text = fieldList modifiers type declarators := by
  obtain ⟨others, seen, gap, sign, behind, hread, hseen, hothers, hsign, heq⟩ :=
    exists_readDeclarator? hne
  let parts : ListParts := {
    modifiers, type, others, gap, sign, behind
    name := seen.name
    modifier_word := hmodifiers
    type_word := htype
    type_notModifier := hnot
    other_word := fun other hother => by
      obtain ⟨declarator, hmem, rfl⟩ := List.mem_map.mp (hothers other hother)
      exact hnames declarator hmem
    name_word := hnames seen hseen
    sign_cases := hsign }
  refine ⟨seen, hseen, hread, parts, rfl, ?_⟩
  rw [ListParts.text, parts.line_append, fieldList, heq]
  rfl

/-- Among variables with distinct names, all have one name only if there is a single one. -/
theorem forall_name_eq_iff (hseen : seen ∈ declarators)
    (hdistinct : (declarators.map (·.name)).Nodup) :
    (∀ declarator ∈ declarators, declarator.name = seen.name) ↔ declarators.length = 1 := by
  constructor
  · intro hall
    rw [List.eq_replicate_of_mem (List.forall_mem_map.mpr hall), List.nodup_replicate,
      List.length_map] at hdistinct
    exact Nat.le_antisymm hdistinct (List.length_pos_of_mem hseen)
  · intro hlength
    obtain ⟨only, rfl⟩ := List.length_eq_one_iff.mp hlength
    rw [List.mem_singleton.mp hseen]
    exact List.forall_mem_singleton.mpr rfl

end

/-- Of the variables in a declaration one is read, the first one with an initial value or else
the last one.  So all of them are read only if there is a single one, and for elements that need
another one of them a line is written that declares it again. -/
theorem declaredNames_fieldList (modifiers : List Text) (type : Text)
    (declarators : List Declarator) (hmodifiers : ∀ modifier ∈ modifiers, IsVariableName modifier)
    (htype : IsVariableName type) (hnot : type ∉ fieldModifierWords)
    (hnames : ∀ declarator ∈ declarators, IsVariableName declarator.name)
    (hne : declarators ≠ []) :
    let names := declaredNames [fieldList modifiers type declarators]
    ∃ seen ∈ declarators, readDeclarator? declarators = some seen ∧ names = [seen.name] ∧
      ((declarators.map (·.name)).Nodup →
        ((∀ declarator ∈ declarators, declarator.name ∈ names) ↔ declarators.length = 1)) ∧
      ∀ (forest : Forest) (width level : Nat) (serialized : Bool),
        List.Forall₂ (DeclaresVariable width level serialized) (writtenNames names forest)
          (variableDeclarations width level serialized names forest) ∧
        ∀ name, name ∈ writtenNames names forest ↔ forest.Needs name ∧ name ≠ seen.name := by
  intro names
  obtain ⟨seen, hseen, hread, parts, hname, htext⟩ :=
    exists_listParts hmodifiers htype hnot hnames hne
  have hone : names = [seen.name] := by
    have hfound := parts.fieldHead?_name
    rw [htext, hname] at hfound
    simp [names, declaredNames, hfound]
  refine ⟨seen, hseen, hread, hone, fun hdistinct => ?_, fun forest width level serialized =>
    ⟨declares_variableDeclarations width level serialized names forest, fun name => ?_⟩⟩
  · rw [hone, ← forall_name_eq_iff hseen hdistinct]
    simp only [List.mem_singleton]
  · rw [mem_writtenNames, hone, List.mem_singleton]

/-- Three variables, of which the second one is read. -/
theorem declaredNames_fieldList_three :
    let modifiers := ["private".toList, "static".toList]
    let declarators : List Declarator := [⟨"a", none⟩, ⟨"b", some "f(1, 2)"⟩, ⟨"c", none⟩]
    (∀ modifier ∈ modifiers, IsVariableName modifier) ∧ IsVariableName "int" ∧
      "int".toList ∉ fieldModifierWords ∧
      (∀ declarator ∈ declarators, IsVariableName declarator.name) ∧ declarators ≠ [] ∧
      fieldList modifiers "int" declarators = "private static int a, b = f(1, 2), c;".toList ∧
      declaredNames [fieldList modifiers "int" declarators] = ["b".toList] ∧
      ∀ forest : Forest, forest.Needs "a" →
        "a".toList ∈
          writtenNames (declaredNames [fieldList modifiers "int" declarators]) forest := by
  intro modifiers declarators
  have hmodifiers : ∀ modifier ∈ modifiers, IsVariableName modifier := by decide
  have hnames : ∀ declarator ∈ declarators, IsVariableName declarator.name := by decide
  have hnot : "int".toList ∉ fieldModifierWords := by decide
  obtain ⟨seen, -, hread, hone, -, hwritten⟩ := declaredNames_fieldList modifiers "int" declarators
    hmodifiers (by decide) hnot hnames (by decide)
  have hseen : seen = ⟨"b", some "f(1, 2)"⟩ := (Option.some.inj hread).symm
  subst hseen
  exact ⟨hmodifiers, by decide, hnot, hnames, by decide, by decide, hone, fun forest hneeds =>
    ((hwritten forest 4 1 false).2 "a").mpr ⟨hneeds, by decide⟩⟩

/-- Of two variables without initial values the first one is not read, and it is declared a
second time for a number that is kept in it. -/
theorem variableDeclarations_unread :
    let declarators : List Declarator := [⟨"a", none⟩, ⟨"b", none⟩]
    let forest : Forest := [.leaf { widget := .intField, label := "A", variableName := "a" }]
    fieldList ["private"] "int" declarators = "private int a, b;".toList ∧
      (∃ declarator ∈ declarators,
        declarator.name ∉ declaredNames ["private int a, b;".toList]) ∧
      variableDeclarations 4 1 false (declaredNames ["private int a, b;".toList]) forest =
        ["    private int a = 0;".toList] := by
  intro declarators forest
  have hnames : declaredNames ["private int a, b;".toList] = ["b".toList] := by decide +kernel
  have hbound : forest.bound =
      [{ widget := .intField, label := "A", variableName := "a" }] := by
    simp [Forest.bound, Forest.flatten, forest, Element.fields, ElementFields.needsVariable,
      Widget.hasNoVariable]
  have hscroll : forest.hasScrollView = false := by
    simp [Forest.hasScrollView, Forest.flatten, forest, Element.widget, Element.fields]
  refine ⟨by decide, ⟨⟨"a", none⟩, List.mem_cons_self, ?_⟩, ?_⟩
  · rw [hnames]
    decide
  · rw [hnames]
    simp only [variableDeclarations, hbound, hscroll]
    decide +kernel

end EditorScript
