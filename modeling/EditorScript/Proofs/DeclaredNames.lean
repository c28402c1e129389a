import EditorScript.Extraction.Header
import EditorScript.Proofs.Everywhere
import EditorScript.Proofs.PatternRun
import EditorScript.Proofs.Reaches
import EditorScript.Proofs.Trimming

/-!
# Names in declarations

A declaration is some words with a blank behind each of them and then the name that it
declares.  Unless one of the words begins a type, no type is read from it, and the name in
front of its parenthesis is the one that is read for a method.
-/

namespace EditorScript

open Pattern

/-- Words with a blank behind each of them. -/
def spaced (words : List Text) : Text := words.flatMap (· ++ [' '])

@[simp]
theorem spaced_nil : spaced [] = [] := rfl

@[simp]
theorem spaced_cons (word : Text) (words : List Text) :
    spaced (word :: words) = (word ++ [' ']) ++ spaced words :=
  List.flatMap_cons

/-- The words that begin a type. -/
def typeKeywords : List Text := ["class", "struct", "enum", "interface", "record"]

/-- The words that may stand in front of a type. -/
def typeModifierWords : List Text :=
  ["public", "private", "protected", "internal", "static", "sealed", "abstract", "partial",
    "readonly", "unsafe", "new"]

/-- The words that may stand in front of a method. -/
def methodModifierWords : List Text :=
  ["public", "private", "protected", "internal", "static", "override", "virtual", "abstract",
    "sealed", "new", "async", "extern", "unsafe", "partial"]

/-- Characters of a type that stands in front of the name of a method. -/
def isTypeChar (c : Char) : Bool := isWord c || "<>[],.?".toList.contains c

/-- Characters of a class with white space behind them. -/
def IsPiece (accepts : Char → Bool) (piece : Text) : Prop :=
  ∃ core blanks, core ≠ [] ∧ (∀ c ∈ core, accepts c) ∧ blanks ≠ [] ∧ (∀ c ∈ blanks, isBlank c) ∧
    piece = core ++ blanks

/-! ## The front of a text -/

/-- A text goes on in one way behind a front of a class. -/
theorem append_cons_inj_of {accepts : Char → Bool} {front front' rest rest' : Text} {c c' : Char}
    (h : ∀ d ∈ front, accepts d) (h' : ∀ d ∈ front', accepts d) (hc : accepts c = false)
    (hc' : accepts c' = false) (heq : front ++ c :: rest = front' ++ c' :: rest') :
    front = front' ∧ c = c' ∧ rest = rest' := by
  have htake : ∀ {front rest : Text} {c : Char}, (∀ d ∈ front, accepts d) → accepts c = false →
      (front ++ c :: rest).takeWhile accepts = front := by
    intro front rest c h hc
    rw [List.takeWhile_append_of_pos h, List.takeWhile_cons_of_neg (by simp [hc]), List.append_nil]
  have hfront : front = front' := by
    rw [← htake h hc, heq, htake h' hc']
  subst hfront
  obtain ⟨hhead, hrest⟩ := List.cons.inj (List.append_cancel_left heq)
  exact ⟨rfl, hhead, hrest⟩

/-- Without the white space in front of it a text begins where it did. -/
theorem blanks_append_inj {blanks blanks' rest rest' : Text} (hblanks : ∀ c ∈ blanks, isBlank c)
    (hblanks' : ∀ c ∈ blanks', isBlank c) (h : ∀ c ∈ rest.head?, isBlank c = false)
    (h' : ∀ c ∈ rest'.head?, isBlank c = false) (heq : blanks ++ rest = blanks' ++ rest') :
    rest = rest' := by
  have hdrop : ∀ {blanks rest : Text}, (∀ c ∈ blanks, isBlank c) →
      (∀ c ∈ rest.head?, isBlank c = false) → (blanks ++ rest).dropWhile isBlank = rest := by
    intro blanks rest hblanks h
    rw [List.dropWhile_append_of_pos hblanks]
    cases rest with
    | nil => rfl
    | cons c others => exact List.dropWhile_cons_of_neg (by simp [h c rfl])
  rw [← hdrop hblanks h, heq, hdrop hblanks' h']

section

variable {words : List Text} {name : Text} (hwords : ∀ word ∈ words, IsVariableName word)
  (hname : IsVariableName name)
include hwords hname

/-- A declaration begins with a word. -/
theorem exists_spaced_eq (tail : Text) :
    ∃ c rest, spaced words ++ (name ++ tail) = c :: rest ∧ isWord c := by
  cases words with
  | nil =>
    obtain ⟨c, rest, rfl⟩ := List.exists_cons_of_ne_nil hname.1
    exact ⟨c, rest ++ tail, rfl, hname.2 c List.mem_cons_self⟩
  | cons word others =>
    obtain ⟨hne, hword⟩ := hwords word List.mem_cons_self
    obtain ⟨c, rest, rfl⟩ := List.exists_cons_of_ne_nil hne
    exact ⟨c, _, rfl, hword c List.mem_cons_self⟩

theorem head?_spaced_append (tail : Text) :
    ∀ c ∈ (spaced words ++ (name ++ tail)).head?, isBlank c = false := by
  obtain ⟨c, rest, heq, hword⟩ := exists_spaced_eq hwords hname tail
  rw [heq]
  rintro _ ⟨⟩
  exact isBlank_of_isWord hword

end

/-- Pieces begin with a character of their class. -/
theorem head?_pieces_append {accepts : Char → Bool} (haccepts : ∀ c, accepts c → isBlank c = false)
    {pieces : List Text} (hpieces : ∀ piece ∈ pieces, IsPiece accepts piece) {rest : Text}
    (hrest : ∀ c ∈ rest.head?, isBlank c = false) :
    ∀ c ∈ (pieces.flatten ++ rest).head?, isBlank c = false := by
  cases pieces with
  | nil => exact hrest
  | cons piece others =>
    obtain ⟨core, blanks, hne, hcore, -, -, rfl⟩ := hpieces piece List.mem_cons_self
    obtain ⟨c, core, rfl⟩ := List.exists_cons_of_ne_nil hne
    rintro _ ⟨⟩
    exact haccepts c (hcore c List.mem_cons_self)

/-- The first piece of a declaration is its first word. -/
theorem piece_append_inj {accepts : Char → Bool} (haccepts : ∀ c, accepts c → isBlank c = false)
    {core blanks word rest behind : Text} (hcore : ∀ c ∈ core, accepts c) (hne : blanks ≠ [])
    (hblanks : ∀ c ∈ blanks, isBlank c) (hword : ∀ c ∈ word, isWord c)
    (hbehind : ∀ c ∈ behind.head?, isBlank c = false)
    (heq : (core ++ blanks) ++ rest = (word ++ [' ']) ++ behind) : core = word ∧ rest = behind := by
  obtain ⟨blank, others, rfl⟩ := List.exists_cons_of_ne_nil hne
  rw [List.append_assoc, List.append_assoc] at heq
  have hclass : ∀ {text : Text}, (∀ c ∈ text, isBlank c = false) →
      ∀ c ∈ text, (!isBlank c) = true := fun h c hc => by rw [h c hc]; rfl
  obtain ⟨rfl, -, hothers⟩ := append_cons_inj_of (hclass fun c hc => haccepts c (hcore c hc))
    (hclass fun c hc => isBlank_of_isWord (hword c hc))
    (by rw [hblanks blank List.mem_cons_self]; rfl) (by decide) heq
  -- one space stands behind the word, so no other white space is read
  cases others with
  | nil => exact ⟨rfl, hothers⟩
  | cons d more =>
    obtain rfl : (d :: more) ++ rest = behind := hothers
    have hblank := hbehind d rfl
    rw [hblanks d (List.mem_cons_of_mem _ List.mem_cons_self)] at hblank
    cases hblank

/-! ## Headers of types -/

/-- Where a further word follows some pieces, each of them is a word of the declaration. -/
theorem takeWhile_mem_of_pieces {words : List Text} (hwords : ∀ word ∈ words, IsVariableName word)
    {name tail : Text} (hname : IsVariableName name) {mark : Char} (hmark : isWord mark = false)
    (htail : ∀ c ∈ ((mark :: tail).dropWhile isBlank).head?, isWord c = false)
    {pieces : List Text} (hpieces : ∀ piece ∈ pieces, IsPiece isWord piece) {c : Char} {rest : Text}
    (hc : isWord c) (heq : pieces.flatten ++ c :: rest = spaced words ++ (name ++ mark :: tail)) :
    ∀ piece ∈ pieces, piece.takeWhile isWord ∈ words := by
  have hclass : ∀ c, isWord c → isBlank c = false := fun c => isBlank_of_isWord
  have hrest : ∀ d ∈ (c :: rest).head?, isBlank d = false := by
    rintro _ ⟨⟩
    exact hclass c hc
  induction words generalizing pieces with
  | nil =>
    cases pieces with
    | nil => exact List.forall_mem_nil _
    | cons piece others =>
      rw [List.forall_mem_cons] at hpieces
      obtain ⟨⟨core, blanks, -, hcore, hne, hblanks, rfl⟩, hothers⟩ := hpieces
      obtain ⟨blank, blanks, rfl⟩ := List.exists_cons_of_ne_nil hne
      have hblank := isWord_of_isBlank (hblanks blank List.mem_cons_self)
      rw [List.flatten_cons, List.append_assoc, List.append_assoc] at heq
      obtain ⟨-, hfirst, hothersEq⟩ := append_cons_inj_of hcore hname.2 hblank hmark heq
      -- what follows the blanks begins with a word, against the shape of a declaration
      have hbehind := head?_pieces_append hclass hothers hrest
      have hdrop : ((blank :: blanks) ++ (others.flatten ++ c :: rest)).dropWhile isBlank =
          others.flatten ++ c :: rest := by
        rw [List.dropWhile_append_of_pos hblanks]
        revert hbehind
        cases others.flatten ++ c :: rest with
        | nil => exact fun _ => rfl
        | cons d behind => exact fun hd => List.dropWhile_cons_of_neg (by simp [hd d rfl])
      have hword : ∃ d behind, others.flatten ++ c :: rest = d :: behind ∧ isWord d := by
        cases others with
        | nil => exact ⟨c, rest, rfl, hc⟩
        | cons next more =>
          obtain ⟨core', blanks', hne', hcore', -, -, rfl⟩ := hothers next List.mem_cons_self
          obtain ⟨d, core', rfl⟩ := List.exists_cons_of_ne_nil hne'
          exact ⟨d, _, rfl, hcore' d List.mem_cons_self⟩
      obtain ⟨d, behind, hbehindEq, hd⟩ := hword
      have htailEq : mark :: tail = (blank :: blanks) ++ (others.flatten ++ c :: rest) := by
        rw [← hfirst, ← hothersEq]
        rfl
      rw [htailEq, hdrop, hbehindEq] at htail
      rw [htail d rfl] at hd
      cases hd
  | cons word words ih =>
    rw [List.forall_mem_cons] at hwords
    cases pieces with
    | nil => exact List.forall_mem_nil _
    | cons piece others =>
      rw [List.forall_mem_cons] at hpieces
      obtain ⟨⟨core, blanks, -, hcore, hne, hblanks, rfl⟩, hothers⟩ := hpieces
      rw [List.flatten_cons, spaced_cons, List.append_assoc (core ++ blanks),
        List.append_assoc (word ++ [' '])] at heq
      obtain ⟨hword, hbehind⟩ := piece_append_inj hclass hcore hne hblanks hwords.1.2
        (head?_spaced_append hwords.2 hname _) heq
      have htake : (core ++ blanks).takeWhile isWord = core := by
        obtain ⟨blank, blanks, rfl⟩ := List.exists_cons_of_ne_nil hne
        have hblank := isWord_of_isBlank (hblanks blank List.mem_cons_self)
        rw [List.takeWhile_append_of_pos hcore, List.takeWhile_cons_of_neg (by simp [hblank]),
          List.append_nil]
      refine List.forall_mem_cons.mpr ⟨?_, fun piece hpiece => ?_⟩
      · rw [htake, hword]
        exact List.mem_cons_self
      · exact List.mem_cons_of_mem _ (ih hwords.2 hothers hbehind piece hpiece)

namespace Pattern

variable {place later : Position}

/-- What is read in rounds is put together from what each round reads. -/
theorem Reaches.loop_eq {greedy : Bool} {body : Pattern} (h : Reaches (loop greedy body) place later)
    {good : Text → Prop} (hbody : ∀ {place later : Position}, Reaches body place later →
      ∃ piece, good piece ∧ place.after = piece ++ later.after) :
    ∃ pieces : List Text, (∀ piece ∈ pieces, good piece) ∧
      place.after = pieces.flatten ++ later.after := by
  generalize hpattern : loop greedy body = pattern at h
  induction h with
  | stop place => exact ⟨[], List.forall_mem_nil _, rfl⟩
  | round hround _ _ ih =>
    cases hpattern
    obtain ⟨piece, hpiece, heq⟩ := hbody hround
    obtain ⟨pieces, hpieces, hrest⟩ := ih rfl
    refine ⟨piece :: pieces, List.forall_mem_cons.mpr ⟨hpiece, hpieces⟩, ?_⟩
    rw [heq, hrest, List.flatten_cons, List.append_assoc]
  | _ => cases hpattern

/-- One of several words is read. -/
theorem Reaches.firstOf_eq {words : List Text} (h : Reaches (firstOf (words.map text)) place later) :
    ∃ word ∈ words, place.after = word ++ later.after := by
  induction words with
  | nil =>
    cases h with
    | check hnever => cases hnever
  | cons word others ih =>
    cases others with
    | nil => exact ⟨word, List.mem_cons_self, h.text_eq⟩
    | cons next more =>
      cases h with
      | left hword => exact ⟨word, List.mem_cons_self, hword.text_eq⟩
      | right hothers =>
        obtain ⟨other, hother, heq⟩ := ih hothers
        exact ⟨other, List.mem_cons_of_mem _ hother, heq⟩

/-- A word of a list and white space behind it make a piece. -/
theorem Reaches.firstOf_piece {words : List Text} (hwords : ∀ word ∈ words, IsVariableName word)
    (h : Reaches (firstOf (words.map text) ++ blanks1) place later) :
    ∃ piece, IsPiece isWord piece ∧ place.after = piece ++ later.after := by
  obtain ⟨middle, hword, hblanks⟩ := h.append
  obtain ⟨word, hmem, heq⟩ := hword.firstOf_eq
  obtain ⟨blanks, hne, hrest, hblank⟩ := hblanks.many1_eq
  refine ⟨word ++ blanks,
    ⟨word, blanks, (hwords word hmem).1, (hwords word hmem).2, hne, hblank, rfl⟩, ?_⟩
  rw [heq, hrest, List.append_assoc]

end Pattern

/-- What a header of a type is read from. -/
theorem exists_pieces_of_typeHeader {code : Text} (h : typeHeader.accepts code) :
    ∃ (pieces : List Text) (keyword blanks : Text) (c : Char) (rest : Text),
      (∀ piece ∈ pieces, IsPiece isWord piece) ∧ keyword ∈ typeKeywords ∧ blanks ≠ [] ∧
        (∀ c ∈ blanks, isBlank c) ∧ isWord c ∧
      code = pieces.flatten ++ ((keyword ++ blanks) ++ c :: rest) := by
  obtain ⟨place, hplace⟩ := Option.isSome_iff_exists.mp h
  obtain ⟨later, hreaches, -⟩ := run_sound hplace
  obtain ⟨_, h, hname⟩ := hreaches.append
  obtain ⟨_, h, hblanks⟩ := h.append
  obtain ⟨_, h, hkeyword⟩ := h.append
  obtain ⟨_, hstart, hmodifiers⟩ := h.append
  cases hstart with
  | check _ =>
    obtain ⟨pieces, hpieces, hcode⟩ := hmodifiers.loop_eq
      fun h => @Reaches.firstOf_piece _ _ typeModifierWords (by decide) h
    obtain ⟨keyword, hmem, hfront⟩ := @Reaches.firstOf_eq _ _ typeKeywords hkeyword
    obtain ⟨blanks, hne, hbehind, hblank⟩ := hblanks.many1_eq
    obtain ⟨name, hnameNe, hend, hword⟩ := hname.many1_eq
    obtain ⟨c, others, rfl⟩ := List.exists_cons_of_ne_nil hnameNe
    refine ⟨pieces, keyword, blanks, c, others ++ later.after, hpieces, hmem, hne, hblank,
      hword c List.mem_cons_self, ?_⟩
    dsimp only at hcode
    rw [hcode, hfront, hbehind, hend, List.append_assoc keyword]
    rfl

/-- No header of a type is read from a declaration unless one of its words begins a type. -/
theorem typeHeader_accepts_declaration {words : List Text} {name tail : Text} {mark : Char}
    (hwords : ∀ word ∈ words, IsVariableName word ∧ word ∉ typeKeywords)
    (hname : IsVariableName name) (hmark : isWord mark = false)
    (htail : ∀ c ∈ ((mark :: tail).dropWhile isBlank).head?, isWord c = false) :
    typeHeader.accepts (spaced words ++ (name ++ mark :: tail)) = false := by
  rw [← Bool.not_eq_true]
  intro haccepts
  obtain ⟨pieces, keyword, blanks, c, rest, hpieces, hkeyword, hne, hblank, hc, heq⟩ :=
    exists_pieces_of_typeHeader haccepts
  have hkeywords : ∀ word ∈ typeKeywords, IsVariableName word := by decide
  have hpiece : IsPiece isWord (keyword ++ blanks) :=
    ⟨keyword, blanks, (hkeywords _ hkeyword).1, (hkeywords _ hkeyword).2, hne, hblank, rfl⟩
  have hall : (pieces ++ [keyword ++ blanks]).flatten ++ c :: rest =
      spaced words ++ (name ++ mark :: tail) := by
    rw [heq, List.flatten_append, List.append_assoc, List.flatten_singleton]
  have hmem := takeWhile_mem_of_pieces (fun word hword => (hwords word hword).1) hname hmark htail
    (List.forall_mem_append.mpr ⟨hpieces, List.forall_mem_singleton.mpr hpiece⟩) hc hall
    (keyword ++ blanks) (by simp)
  obtain ⟨blank, blanks, rfl⟩ := List.exists_cons_of_ne_nil hne
  have hnot := isWord_of_isBlank (hblank blank List.mem_cons_self)
  rw [List.takeWhile_append_of_pos (hkeywords _ hkeyword).2,
    List.takeWhile_cons_of_neg (by simp [hnot]), List.append_nil] at hmem
  exact (hwords _ hmem).2 hkeyword

/-- The header of a type begins with a word. -/
theorem exists_cons_of_typeHeader {code : Text} (h : typeHeader.accepts code) :
    ∃ c rest, code = c :: rest ∧ isWord c := by
  obtain ⟨pieces, keyword, blanks, -, rest, hpieces, hkeyword, -, -, -, rfl⟩ :=
    exists_pieces_of_typeHeader h
  have hkeywords : ∀ word ∈ typeKeywords, IsVariableName word := by decide
  cases pieces with
  | nil =>
    obtain ⟨c, others, rfl⟩ := List.exists_cons_of_ne_nil (hkeywords _ hkeyword).1
    exact ⟨c, _, rfl, (hkeywords _ hkeyword).2 c List.mem_cons_self⟩
  | cons piece others =>
    obtain ⟨core, gap, hne, hcore, -, -, rfl⟩ := hpieces piece List.mem_cons_self
    obtain ⟨c, core, rfl⟩ := List.exists_cons_of_ne_nil hne
    exact ⟨c, _, rfl, hcore c List.mem_cons_self⟩

/-! ## Names of methods -/

theorem isBlank_of_isTypeChar {c : Char} (h : isTypeChar c) : isBlank c = false := by
  rw [isTypeChar, Bool.or_eq_true] at h
  rcases h with hword | hmark
  · exact isBlank_of_isWord hword
  · have hall : ∀ c ∈ "<>[],.?".toList, isBlank c = false := by decide
    exact hall c (by simpa using hmark)

/-- What the signature of a method is read from. -/
theorem exists_pieces_of_methodSignature {code : Text} {found : Position}
    (h : methodSignature.match? code = some found) :
    ∃ (pieces : List Text) (gap : Text) (mark : Char) (rest : Text),
      (∀ piece ∈ pieces, IsPiece isTypeChar piece) ∧ IsVariableName (found.captured "name") ∧
      (∀ c ∈ gap, isBlank c) ∧ mark ∈ "(<".toList ∧ '(' ∈ mark :: rest ∧
      code = pieces.flatten ++ (found.captured "name" ++ (gap ++ mark :: rest)) := by
  obtain ⟨later, hreaches, hfound⟩ := run_sound h
  obtain rfl := Option.some.inj hfound
  obtain ⟨_, h, hopen⟩ := hreaches.append
  obtain ⟨_, h, hsecond⟩ := h.append
  obtain ⟨front, h, harguments⟩ := h.append
  obtain ⟨_, h, hgap⟩ := h.append
  obtain ⟨_, h, hname⟩ := h.append
  obtain ⟨_, h, htypes⟩ := h.append
  obtain ⟨_, hstart, hmodifiers⟩ := h.append
  obtain ⟨name, hfront, hcaptures, middle, hword, hmiddle⟩ := hname.capture_eq (by decide)
  have hnameRead : later.captured "name" = name := by
    have hlater := (hopen.captures_eq (by decide)).trans ((hsecond.captures_eq (by decide)).trans
      ((harguments.captures_eq (by decide)).trans (hgap.captures_eq (by decide))))
    rw [Position.captured, Position.captured?, hlater, hcaptures]
    rfl
  have hnameWord : IsVariableName name := by
    obtain ⟨content, hne, hcontent, hclass⟩ := hword.many1_eq
    rw [hfront, hmiddle] at hcontent
    obtain rfl := List.append_cancel_right hcontent
    exact ⟨hne, hclass⟩
  obtain ⟨earlier, hearlier, hmodifiers⟩ := hmodifiers.loop_eq
    fun h => @Reaches.firstOf_piece _ _ methodModifierWords (by decide) h
  obtain ⟨pieces, hpieces, htypes⟩ := @Reaches.loop_eq _ _ _ _ htypes (IsPiece isTypeChar)
    fun h => by
      obtain ⟨_, hcore, hblanks⟩ := h.append
      obtain ⟨core, hne, hcoreEq, hclass⟩ := hcore.many1_eq
      obtain ⟨blanks, hblanksNe, hblanksEq, hblank⟩ := hblanks.many1_eq
      exact ⟨core ++ blanks, ⟨core, blanks, hne, hclass, hblanksNe, hblank, rfl⟩,
        by rw [hcoreEq, hblanksEq, List.append_assoc]⟩
  have hwhole : ∀ piece ∈ earlier ++ pieces, IsPiece isTypeChar piece := by
    refine List.forall_mem_append.mpr ⟨fun piece hpiece => ?_, hpieces⟩
    obtain ⟨core, blanks, hne, hcore, hrest⟩ := hearlier piece hpiece
    exact ⟨core, blanks, hne, fun c hc => by rw [isTypeChar, hcore c hc]; rfl, hrest⟩
  obtain ⟨gap, hgapEq, hgapBlank⟩ := hgap.blanks_eq
  obtain ⟨second, hsecondEq, hsecondBlank⟩ := hsecond.blanks_eq
  have hopenEq := hopen.text_eq
  cases hstart with
  | check _ =>
    have hcode : code = (earlier ++ pieces).flatten ++ (name ++ (gap ++ front.after)) := by
      rw [← hgapEq, ← hfront, List.flatten_append, List.append_assoc, ← htypes]
      exact hmodifiers
    cases harguments with
    | left hangles =>
      obtain ⟨_, h, hclose⟩ := hangles.append
      obtain ⟨_, hfirst, hinside⟩ := h.append
      obtain ⟨inside, hinsideEq⟩ := hinside.exists_append
      have hanglesEq := hfirst.text_eq
      rw [hinsideEq, hclose.text_eq, hsecondEq, hopenEq] at hanglesEq
      refine ⟨earlier ++ pieces, gap, '<', inside ++ (">".toList ++ (second ++ '(' :: later.after)),
        hwhole, hnameRead ▸ hnameWord, hgapBlank, by decide, by simp, ?_⟩
      rw [hnameRead, hcode, hanglesEq]
      rfl
    | right hnone =>
      cases hnone with
      | empty place =>
        refine ⟨earlier ++ pieces, gap ++ second, '(', later.after, hwhole, hnameRead ▸ hnameWord,
          List.forall_mem_append.mpr ⟨hgapBlank, hsecondBlank⟩, by decide, List.mem_cons_self, ?_⟩
        rw [hnameRead, hcode, hsecondEq, hopenEq, List.append_assoc gap]
        rfl

/-- The name that is read from the signature of a method is the one in front of its
parenthesis. -/
theorem captured_methodSignature {words : List Text} {name rest : Text} {found : Position}
    (hwords : ∀ word ∈ words, IsVariableName word) (hname : IsVariableName name)
    (h : methodSignature.match? (spaced words ++ (name ++ '(' :: rest)) = some found) :
    found.captured "name" = name := by
  obtain ⟨pieces, gap, mark, behind, hpieces, ⟨hne, hfound⟩, hgap, hmark, -, heq⟩ :=
    exists_pieces_of_methodSignature h
  have hmarks : ∀ mark ∈ "(<".toList, isWord mark = false ∧ isBlank mark = false := by decide
  obtain ⟨hmarkWord, hmarkBlank⟩ := hmarks mark hmark
  have hclass : ∀ c, isTypeChar c → isBlank c = false := fun c => isBlank_of_isTypeChar
  -- the name that is read ends in front of something that is not in it
  obtain ⟨stop, others, hstop, hnotWord⟩ : ∃ stop others, gap ++ mark :: behind = stop :: others ∧
      isWord stop = false := by
    cases gap with
    | nil => exact ⟨mark, behind, rfl, hmarkWord⟩
    | cons blank blanks =>
      exact ⟨blank, blanks ++ mark :: behind, rfl,
        isWord_of_isBlank (hgap blank List.mem_cons_self)⟩
  have hread : ∀ c ∈ (found.captured "name" ++ (gap ++ mark :: behind)).head?, isBlank c = false := by
    obtain ⟨c, content, hcontent⟩ := List.exists_cons_of_ne_nil hne
    rw [hcontent]
    rintro _ ⟨⟩
    exact isBlank_of_isWord (hfound c (hcontent ▸ List.mem_cons_self))
  clear h
  induction words generalizing pieces with
  | nil =>
    cases pieces with
    | nil =>
      rw [hstop] at heq
      exact (append_cons_inj_of hname.2 hfound (by decide) hnotWord heq).1.symm
    | cons piece more =>
      exfalso
      obtain ⟨core, blanks, -, hcore, hblanksNe, hblanks, rfl⟩ := hpieces piece List.mem_cons_self
      obtain ⟨blank, blanks, rfl⟩ := List.exists_cons_of_ne_nil hblanksNe
      have hblank := hblanks blank List.mem_cons_self
      have hnot : isTypeChar blank = false := by
        rw [← Bool.not_eq_true]
        intro htype
        rw [hclass blank htype] at hblank
        cases hblank
      rw [spaced_nil, List.nil_append, List.flatten_cons, List.append_assoc, List.append_assoc] at heq
      obtain ⟨-, hopen, -⟩ := append_cons_inj_of
        (fun c hc => by rw [isTypeChar, hname.2 c hc]; rfl) hcore (by decide) hnot heq
      rw [← hopen] at hblank
      exact absurd hblank (by decide)
  | cons word words ih =>
    rw [List.forall_mem_cons] at hwords
    have hrest := head?_spaced_append hwords.2 hname ('(' :: rest)
    cases pieces with
    | nil =>
      exfalso
      rw [spaced_cons, List.append_assoc, List.append_assoc, List.flatten_nil, List.nil_append,
        hstop] at heq
      obtain ⟨-, hspace, hothers⟩ :=
        append_cons_inj_of hwords.1.2 hfound (by decide) hnotWord heq
      -- the parenthesis would follow the first word
      have hbehind : spaced words ++ (name ++ '(' :: rest) = mark :: behind := by
        refine @blanks_append_inj [' '] gap _ _ (List.forall_mem_singleton.mpr (by decide)) hgap
          hrest ?_ ?_
        · rintro _ ⟨⟩
          exact hmarkBlank
        · rw [hstop, ← hspace, ← hothers]
          rfl
      obtain ⟨c, tail, hhead, hword⟩ := exists_spaced_eq hwords.2 hname ('(' :: rest)
      rw [hhead] at hbehind
      rw [(List.cons.inj hbehind).1, hmarkWord] at hword
      cases hword
    | cons piece more =>
      rw [List.forall_mem_cons] at hpieces
      obtain ⟨⟨core, blanks, -, hcore, hblanksNe, hblanks, rfl⟩, hmore⟩ := hpieces
      rw [List.flatten_cons, spaced_cons, List.append_assoc (core ++ blanks),
        List.append_assoc (word ++ [' '])] at heq
      obtain ⟨-, hbehind⟩ := piece_append_inj hclass hcore hblanksNe hblanks hwords.1.2 hrest
        heq.symm
      exact ih hwords.2 more hmore hbehind.symm

/-- What gives a result without any round gives one. -/
theorem gives_many_none {body : Pattern} {next : Position → Option Position} {place : Position}
    (h : Gives (next place) fun _ => True) : Gives ((many body).run next place) fun _ => True := by
  have hrounds : ∀ count, Gives (rounds true (fun following place => body.run following place) next
      count place) fun _ => True := by
    intro count
    cases count with
    | zero => exact h
    | succ count =>
      rw [rounds, if_pos rfl]
      exact Gives.or_right _ h
  exact hrounds _

/-- Words are passed over up to the name. -/
theorem gives_rounds_spaced {next : Position → Option Position} {rest : Text}
    {captures : List (String × Text)} {words : List Text}
    (hwords : ∀ word ∈ words, IsVariableName word) (hrest : ∀ c ∈ rest.head?, isBlank c = false)
    (h : ∀ before, Gives (next ⟨before, rest, captures⟩) fun _ => True) {count : Nat}
    (hcount : words.length ≤ count) (before : Option Char) :
    Gives (rounds false (fun following place =>
      (many1 (one fun c => isWord c || "<>[],.?".toList.contains c) ++ blanks1).run following place)
        next count ⟨before, spaced words ++ rest, captures⟩) fun _ => True := by
  induction words generalizing count before with
  | nil =>
    cases count with
    | zero => exact h before
    | succ count => exact (h before).or _
  | cons word others ih =>
    rw [List.forall_mem_cons] at hwords
    obtain ⟨count, rfl⟩ := Nat.exists_eq_add_of_le' (Nat.succ_le_of_lt (Nat.zero_lt_of_lt hcount))
    have hbehind : ∀ c ∈ (spaced others ++ rest).head?, isBlank c = false := by
      cases others with
      | nil => exact hrest
      | cons next more =>
        obtain ⟨hne, hword⟩ := hwords.2 next List.mem_cons_self
        obtain ⟨c, content, rfl⟩ := List.exists_cons_of_ne_nil hne
        rintro _ ⟨⟩
        exact isBlank_of_isWord (hword c List.mem_cons_self)
    have hrounds := ih hwords.2 (Nat.le_of_succ_le_succ hcount)
    rw [rounds, if_neg (by decide), spaced_cons, List.append_assoc, List.append_assoc]
    refine Gives.or_right _ (run_many1 hwords.1.1 (fun c hc => ?_) ?_ (fun before => ?_) before)
    · rw [hwords.1.2 c hc]
      rfl
    · rintro _ ⟨⟩
      decide
    · exact run_many1 (List.cons_ne_nil _ _) (List.forall_mem_singleton.mpr (by decide)) hbehind
        hrounds before

/-- A signature is read where words and a name stand in front of a parenthesis. -/
theorem methodSignature_accepts {words : List Text} {name : Text}
    (hwords : ∀ word ∈ words, IsVariableName word) (hname : IsVariableName name) (rest : Text) :
    methodSignature.accepts (spaced words ++ (name ++ '(' :: rest)) := by
  have hopen : '(' :: rest = "(".toList ++ rest := rfl
  have hblank : ∀ c ∈ ('(' :: rest).head?, isBlank c = false := by
    rintro _ ⟨⟩
    decide
  have hhead : ∀ c ∈ (name ++ '(' :: rest).head?, isBlank c = false := by
    obtain ⟨c, content, rfl⟩ := List.exists_cons_of_ne_nil hname.1
    rintro _ ⟨⟩
    exact isBlank_of_isWord (hname.2 c List.mem_cons_self)
  have hnone : ∀ (following : Position → Option Position) (before : Option Char)
      (captures : List (String × Text)),
      (("<" : Pattern) ++ many (noneOf ">") ++ ">").run following
        ⟨before, '(' :: rest, captures⟩ = none := fun _ _ _ => rfl
  have hlength : ∀ {words : List Text} (rest : Text), (∀ word ∈ words, IsVariableName word) →
      words.length ≤ (spaced words ++ rest).length := by
    intro words rest hwords
    induction words with
    | nil => exact Nat.zero_le _
    | cons word others ih =>
      have hothers := ih (List.forall_mem_cons.mp hwords).2
      rw [spaced_cons, List.append_assoc, List.append_assoc, List.length_append, List.length_append]
      simp only [List.length_cons, List.length_nil]
      omega
  have hgives : Gives (methodSignature.match? (spaced words ++ (name ++ '(' :: rest)))
      fun _ => True := by
    simp only [match?, matchAt, methodSignature, run_append, run_start]
    refine gives_many_none (gives_rounds_spaced hwords hhead (fun before => ?_)
      (hlength _ hwords) none)
    refine run_capture_many1 hname.1 hname.2 (by rintro _ ⟨⟩; decide) (fun before => ?_) before
    refine run_blanks_none hblank (fun before => ?_) before
    rw [run_opt_none (hnone _ _ _)]
    refine run_blanks_none hblank (fun before => ?_) before
    rw [hopen]
    exact run_text (fun before => ⟨_, rfl, trivial⟩) before
  obtain ⟨found, hfound, -⟩ := hgives
  rw [accepts, hfound]
  rfl

/-- In front of what follows its name, a declaration holds characters of words and blanks. -/
theorem forall_mem_spaced_append {good : Char → Prop} (hword : ∀ c, isWord c → good c)
    (hspace : good ' ') {words : List Text} {name : Text}
    (hwords : ∀ word ∈ words, IsVariableName word) (hname : IsVariableName name) :
    ∀ c ∈ spaced words ++ name, good c := by
  refine List.forall_mem_append.mpr ⟨fun c hc => ?_, fun c hc => hword c (hname.2 c hc)⟩
  obtain ⟨word, hmemWord, hmem⟩ := List.mem_flatMap.mp hc
  rcases List.mem_append.mp hmem with hmem | hmem
  · exact hword c ((hwords word hmemWord).2 c hmem)
  · rwa [List.mem_singleton.mp hmem]

theorem notMem_spaced_append {c : Char} (hc : ' ' ≠ c) (hword : isWord c = false)
    {words : List Text} {name : Text} (hwords : ∀ word ∈ words, IsVariableName word)
    (hname : IsVariableName name) : c ∉ spaced words ++ name := fun hmem => by
  refine @forall_mem_spaced_append (· ≠ c) (fun d hd => ?_) hc _ _ hwords hname c hmem rfl
  rintro rfl
  rw [hword] at hd
  cases hd

/-- The name of a method is the one that is declared in front of its parenthesis. -/
theorem methodName?_declaration {words : List Text} {name : Text}
    (hwords : ∀ word ∈ words, IsVariableName word) (hname : IsVariableName name)
    (hmethod : name ∉ notMethodNames) (rest : Text) :
    methodName? (spaced words ++ (name ++ '(' :: rest)) = some name := by
  obtain ⟨found, hfound⟩ :=
    Option.isSome_iff_exists.mp (methodSignature_accepts hwords hname rest)
  have hpass : ∀ c ∈ spaced words ++ name, (c != '(') = true := fun c hc => by
    rw [bne_iff_ne]
    rintro rfl
    exact notMem_spaced_append (by decide) (by decide) hwords hname hc
  have hassigns : ((spaced words ++ (name ++ '(' :: rest)).takeWhile (· != '(')).contains '=' =
      false := by
    rw [← List.append_assoc, List.takeWhile_append_of_pos hpass,
      List.takeWhile_cons_of_neg (by decide), List.append_nil]
    simpa using notMem_spaced_append (by decide) (by decide) hwords hname
  have hother : notMethodNames.contains name = false := by simpa using hmethod
  rw [methodName?, hfound, Option.bind_some, captured_methodSignature hwords hname hfound]
  dsimp only
  rw [hother, hassigns, Bool.or_false, if_neg (by decide)]

/-- Without a parenthesis there is no method. -/
theorem methodName?_eq_none {code : Text} (h : '(' ∉ code) : methodName? code = none := by
  rw [methodName?, Option.bind_eq_none_iff]
  intro found hfound
  obtain ⟨pieces, gap, mark, rest, -, -, -, -, hopen, rfl⟩ := exists_pieces_of_methodSignature hfound
  exact absurd (List.mem_append_right _ (List.mem_append_right _ (List.mem_append_right _ hopen))) h

/-- What is assigned in front of its first parenthesis is no method. -/
theorem methodName?_assignment {front : Text} (hfront : '(' ∉ front) (rest : Text) :
    methodName? (front ++ '=' :: rest) = none := by
  have hassigns : ((front ++ '=' :: rest).takeWhile (· != '(')).contains '=' := by
    have hpass : ∀ c ∈ front, (c != '(') = true := by
      intro c hc
      rw [bne_iff_ne]
      rintro rfl
      exact hfront hc
    rw [List.takeWhile_append_of_pos hpass, List.takeWhile_cons_of_pos (by decide)]
    simp
  rw [methodName?]
  cases methodSignature.match? (front ++ '=' :: rest) with
  | none => rfl
  | some found =>
    rw [Option.bind_some]
    dsimp only
    rw [hassigns, Bool.or_true, if_pos rfl]

end EditorScript
