import EditorScript.Number.Reading
import EditorScript.Proofs.CodeMode

/-!
# The meaning of written literals

A string literal is read as a text and a text is written as a literal.  The reader knows a few of
the escapes of C# and drops the backslash of all others, and the writer escapes a few characters
and writes all others as they are.  Here the content of a literal is related to the code units of
the string that it stands for, and a literal that was read and written again is shown to be one
again, and to stand for the same string, exactly for certain escapes in it.
-/

namespace EditorScript

/-- The code units of sixteen bits that a code point is kept as. -/
def codeUnits (point : Nat) : List Nat :=
  if point < 0x10000 then [point]
  else [0xd800 + (point - 0x10000) / 0x400, 0xdc00 + (point - 0x10000) % 0x400]

/-- The code units of a text. -/
def textUnits (text : Text) : List Nat :=
  text.flatMap fun c => codeUnits c.toNat

/-- The characters that end a line of C#. -/
def lineTerminators : Text := ['\n', '\r', '\x85', '\u2028', '\u2029']

/-- The escapes of one character, with the code units they stand for. -/
def simpleEscapes : List (Char × Nat) :=
  [('\'', 0x27), ('"', 0x22), ('\\', 0x5c), ('0', 0x00), ('a', 0x07), ('b', 0x08), ('f', 0x0c),
    ('n', 0x0a), ('r', 0x0d), ('t', 0x09), ('v', 0x0b)]

/-- The value of a hexadecimal number. -/
def hexNumber (digits : Text) : Nat :=
  digits.foldl (fun value digit => value * 16 + (hexValue? digit).getD 0) 0

/-- Some hexadecimal digits. -/
def AreHex (digits : Text) : Prop := ∀ c ∈ digits, (hexValue? c).isSome

instance (digits : Text) : Decidable (AreHex digits) :=
  inferInstanceAs (Decidable (∀ c ∈ digits, (hexValue? c).isSome))

/-- The content of a regular string literal of C# with the code units of the string that the
literal stands for.  The digits behind `x` go as far as there are hexadecimal digits, up to four
of them. -/
inductive Denotes : Text → List Nat → Prop
  | nil : Denotes [] []
  | plain {c : Char} {rest : Text} {units : List Nat} :
      c ≠ '"' → c ≠ '\\' → c ∉ lineTerminators → Denotes rest units →
      Denotes (c :: rest) (codeUnits c.toNat ++ units)
  | simple {c : Char} {unit : Nat} {rest : Text} {units : List Nat} :
      (c, unit) ∈ simpleEscapes → Denotes rest units → Denotes ('\\' :: c :: rest) (unit :: units)
  | hexadecimal {digits rest : Text} {units : List Nat} :
      AreHex digits → digits ≠ [] → digits.length ≤ 4 →
      (digits.length < 4 → ∀ c ∈ rest.head?, hexValue? c = none) → Denotes rest units →
      Denotes ('\\' :: 'x' :: (digits ++ rest)) (hexNumber digits :: units)
  | unicode {digits rest : Text} {units : List Nat} :
      AreHex digits → digits.length = 4 → Denotes rest units →
      Denotes ('\\' :: 'u' :: (digits ++ rest)) (hexNumber digits :: units)
  | longUnicode {digits rest : Text} {units : List Nat} :
      AreHex digits → digits.length = 8 → hexNumber digits ≤ 0x10ffff → Denotes rest units →
      Denotes ('\\' :: 'U' :: (digits ++ rest)) (codeUnits (hexNumber digits) ++ units)

/-- The characters behind the backslashes of a content. -/
def escapeMarks : Text → Text
  | [] => []
  | '\\' :: c :: rest => c :: escapeMarks rest
  | _ :: rest => escapeMarks rest

/-- The escapes that mean the same after the content was read and written again. -/
def keptMarks : Text := ['\\', '"', '\'', 'n', 't', '0']

variable {raw rest text : Text} {units : List Nat}

/-! ## Code units -/

@[simp]
theorem textUnits_nil : textUnits [] = [] := rfl

theorem textUnits_cons (c : Char) (rest : Text) :
    textUnits (c :: rest) = codeUnits c.toNat ++ textUnits rest := rfl

theorem textUnits_append (first second : Text) :
    textUnits (first ++ second) = textUnits first ++ textUnits second :=
  List.flatMap_append

theorem length_codeUnits (point : Nat) :
    1 ≤ (codeUnits point).length ∧ (codeUnits point).length ≤ 2 := by
  unfold codeUnits
  split <;> simp

theorem length_le_textUnits (text : Text) : text.length ≤ (textUnits text).length := by
  induction text with
  | nil => exact Nat.le_refl 0
  | cons c rest ih =>
    have hunits := (length_codeUnits c.toNat).1
    rw [textUnits_cons, List.length_append, List.length_cons]
    omega

/-! ## Written contents -/

/-- A character that is written as it is. -/
theorem denotes_cons_iff {c : Char} (hc : c ≠ '\\') : Denotes (c :: rest) units ↔
    c ≠ '"' ∧ c ∉ lineTerminators ∧
      ∃ others, units = codeUnits c.toNat ++ others ∧ Denotes rest others := by
  constructor
  · intro h
    cases h with
    | plain hquote _ hline hrest => exact ⟨hquote, hline, _, rfl, hrest⟩
    | _ => exact absurd rfl hc
  · rintro ⟨hquote, hline, others, rfl, hrest⟩
    exact .plain hquote hc hline hrest

/-- What a content that begins with a backslash can begin with. -/
theorem Denotes.escape_cases {mark : Char} (h : Denotes ('\\' :: mark :: text) units) :
    (∃ unit others, (mark, unit) ∈ simpleEscapes ∧ Denotes text others ∧ units = unit :: others) ∨
    (mark = 'x' ∧ ∃ digits rest others, text = digits ++ rest ∧ AreHex digits ∧
      digits.length ≤ 4 ∧ (digits.length < 4 → ∀ c ∈ rest.head?, hexValue? c = none) ∧
      Denotes rest others ∧ units = hexNumber digits :: others) ∨
    (mark = 'u' ∧ ∃ digits rest others, text = digits ++ rest ∧ digits.length = 4 ∧
      Denotes rest others ∧ units = hexNumber digits :: others) ∨
    (mark = 'U' ∧ ∃ digits rest others, text = digits ++ rest ∧ digits.length = 8 ∧
      Denotes rest others ∧ units = codeUnits (hexNumber digits) ++ others) := by
  cases h with
  | plain _ hslash => exact absurd rfl hslash
  | simple hmark hrest => exact .inl ⟨_, _, hmark, hrest, rfl⟩
  | hexadecimal hdigits _ hlength hend hrest =>
    exact .inr (.inl ⟨rfl, _, _, _, rfl, hdigits, hlength, hend, hrest, rfl⟩)
  | unicode _ hlength hrest =>
    exact .inr (.inr (.inl ⟨rfl, _, _, _, rfl, hlength, hrest, rfl⟩))
  | longUnicode _ hlength _ hrest =>
    exact .inr (.inr (.inr ⟨rfl, _, _, _, rfl, hlength, hrest, rfl⟩))

theorem simpleEscapes_unique : ∀ entry ∈ simpleEscapes, entry.1 ∉ ['x', 'u', 'U'] ∧
    ∀ other ∈ simpleEscapes, entry.1 = other.1 → entry.2 = other.2 := by decide

/-- A character that is written with a backslash. -/
theorem denotes_escape_cons_iff {mark : Char} {unit : Nat} (hmark : (mark, unit) ∈ simpleEscapes) :
    Denotes ('\\' :: mark :: rest) units ↔
      ∃ others, units = unit :: others ∧ Denotes rest others := by
  obtain ⟨hletter, hunique⟩ := simpleEscapes_unique _ hmark
  constructor
  · intro h
    rcases h.escape_cases with ⟨other, others, hother, hrest, rfl⟩ | ⟨rfl, -⟩ | ⟨rfl, -⟩ | ⟨rfl, -⟩
    · obtain rfl : unit = other := hunique _ hother rfl
      exact ⟨others, rfl, hrest⟩
    all_goals exact absurd (by simp) hletter
  · rintro ⟨others, rfl, hrest⟩
    exact .simple hmark hrest

/-- The digits of an escape end where no digit follows or where no more are taken. -/
theorem AreHex.unique {first second behind other : Text} (hfirst : AreHex first)
    (hsecond : AreHex second) (hlefirst : first.length ≤ 4) (hlesecond : second.length ≤ 4)
    (hend : first.length < 4 → ∀ c ∈ behind.head?, hexValue? c = none)
    (hother : second.length < 4 → ∀ c ∈ other.head?, hexValue? c = none)
    (heq : first ++ behind = second ++ other) : first = second ∧ behind = other := by
  rcases List.append_eq_append_iff.mp heq with ⟨middle, rfl, rfl⟩ | ⟨middle, rfl, rfl⟩
  · cases middle with
    | nil => simp
    | cons c middle =>
      have hnone := hend (by simp at hlesecond; omega) c rfl
      have hsome := hsecond c (by simp)
      rw [hnone] at hsome
      exact absurd hsome (by decide)
  · cases middle with
    | nil => simp
    | cons c middle =>
      have hnone := hother (by simp at hlefirst; omega) c rfl
      have hsome := hfirst c (by simp)
      rw [hnone] at hsome
      exact absurd hsome (by decide)

/-- A content stands for one string only. -/
theorem Denotes.unique {others : List Nat} (h : Denotes raw units) (h' : Denotes raw others) :
    units = others := by
  induction h generalizing others with
  | nil => cases h'; rfl
  | plain hquote hslash _ _ ih =>
    obtain ⟨-, -, _, rfl, hrest⟩ := (denotes_cons_iff hslash).mp h'
    rw [ih hrest]
  | simple hmark _ ih =>
    obtain ⟨_, rfl, hrest⟩ := (denotes_escape_cons_iff hmark).mp h'
    rw [ih hrest]
  | hexadecimal hdigits _ hlength hend _ ih =>
    rcases h'.escape_cases with ⟨_, _, hmark, -⟩ |
      ⟨-, digits, rest, others, htext, hdigits', hlength', hend', hrest, rfl⟩ |
      ⟨hmark, -⟩ | ⟨hmark, -⟩
    · exact absurd (by simp) (simpleEscapes_unique _ hmark).1
    · obtain ⟨rfl, rfl⟩ := hdigits.unique hdigits' hlength hlength' hend hend' htext
      rw [ih hrest]
    all_goals exact absurd hmark (by decide)
  | unicode hdigits hlength _ ih =>
    rcases h'.escape_cases with ⟨_, _, hmark, -⟩ | ⟨hmark, -⟩ |
      ⟨-, digits, rest, others, htext, hlength', hrest, rfl⟩ | ⟨hmark, -⟩
    · exact absurd (by simp) (simpleEscapes_unique _ hmark).1
    · exact absurd hmark (by decide)
    · obtain ⟨rfl, rfl⟩ := List.append_inj htext (by rw [hlength, hlength'])
      rw [ih hrest]
    · exact absurd hmark (by decide)
  | longUnicode hdigits hlength _ _ ih =>
    rcases h'.escape_cases with ⟨_, _, hmark, -⟩ | ⟨hmark, -⟩ | ⟨hmark, -⟩ |
      ⟨-, digits, rest, others, htext, hlength', hrest, rfl⟩
    · exact absurd (by simp) (simpleEscapes_unique _ hmark).1
    · exact absurd hmark (by decide)
    · exact absurd hmark (by decide)
    · obtain ⟨rfl, rfl⟩ := List.append_inj htext (by rw [hlength, hlength'])
      rw [ih hrest]

/-- How a character is written: with an escape that stands for it, or as it is. -/
theorem escapeChar_denotes (c : Char) :
    (∃ mark unit, escapeChar c = ['\\', mark] ∧ (mark, unit) ∈ simpleEscapes ∧
      codeUnits c.toNat = [unit] ∧ (c ∈ lineTerminators → c = '\n')) ∨
    escapeChar c = [c] ∧ c ≠ '"' ∧ c ≠ '\\' ∧ c ≠ '\n' := by
  unfold escapeChar
  split_ifs with h1 h2 h3 h4
  · exact .inl ⟨'\\', 0x5c, rfl, by decide, by rw [h1]; rfl, by rw [h1]; decide⟩
  · exact .inl ⟨'"', 0x22, rfl, by decide, by rw [h2]; rfl, by rw [h2]; decide⟩
  · exact .inl ⟨'n', 0x0a, rfl, by decide, by rw [h3]; rfl, fun _ => h3⟩
  · exact .inl ⟨'t', 0x09, rfl, by decide, by rw [h4]; rfl, by rw [h4]; decide⟩
  · exact .inr ⟨rfl, h2, h1, h3⟩

/-- A written text is the content of a literal unless a line ends in it otherwise than by a
newline, and then it stands for the text. -/
theorem denotes_escape_iff : Denotes (escape text) units ↔
    (∀ c ∈ text, c ∈ lineTerminators → c = '\n') ∧ units = textUnits text := by
  induction text generalizing units with
  | nil =>
    rw [escape_nil, textUnits_nil]
    constructor
    · rintro ⟨⟩
      exact ⟨List.forall_mem_nil _, rfl⟩
    · rintro ⟨-, rfl⟩
      exact .nil
  | cons c rest ih =>
    rw [escape_cons, textUnits_cons, List.forall_mem_cons]
    rcases escapeChar_denotes c with ⟨mark, unit, hshape, hmark, hunit, hline⟩ |
      ⟨hshape, hquote, hslash, hline⟩
    · rw [hshape, hunit]
      refine (denotes_escape_cons_iff hmark).trans ?_
      constructor
      · rintro ⟨others, rfl, hrest⟩
        obtain ⟨hlines, rfl⟩ := ih.mp hrest
        exact ⟨⟨hline, hlines⟩, rfl⟩
      · rintro ⟨⟨-, hlines⟩, rfl⟩
        exact ⟨_, rfl, ih.mpr ⟨hlines, rfl⟩⟩
    · rw [hshape]
      refine (denotes_cons_iff hslash).trans ?_
      constructor
      · rintro ⟨-, hhere, others, rfl, hrest⟩
        obtain ⟨hlines, rfl⟩ := ih.mp hrest
        exact ⟨⟨fun hmem => absurd hmem hhere, hlines⟩, rfl⟩
      · rintro ⟨⟨hhere, hlines⟩, rfl⟩
        exact ⟨hquote, fun hmem => hline (hhere hmem), _, rfl, ih.mpr ⟨hlines, rfl⟩⟩

/-! ## Contents that are read and written again -/

theorem unescape_cons {c : Char} (hc : c ≠ '\\') (rest : Text) :
    unescape (c :: rest) = c :: unescape rest := by
  simp [unescape, hc]

theorem unescape_escape_cons {c : Char} (hc : c ≠ '\n') (rest : Text) :
    unescape ('\\' :: c :: rest) = escapedChar c :: unescape rest := by
  simp [unescape, hc]

theorem escapeMarks_cons {c : Char} (hc : c ≠ '\\') (rest : Text) :
    escapeMarks (c :: rest) = escapeMarks rest := by
  simp [escapeMarks, hc]

/-- A piece without backslashes stands for itself. -/
theorem unescape_append {piece : Text} (h : '\\' ∉ piece) (rest : Text) :
    unescape (piece ++ rest) = piece ++ unescape rest ∧
      escapeMarks (piece ++ rest) = escapeMarks rest := by
  induction piece with
  | nil => exact ⟨rfl, rfl⟩
  | cons c others ih =>
    rw [List.mem_cons, not_or] at h
    obtain ⟨htext, hmarks⟩ := ih h.2
    rw [List.cons_append, unescape_cons (Ne.symm h.1), escapeMarks_cons (Ne.symm h.1), htext,
      hmarks]
    exact ⟨rfl, rfl⟩

/-- What becomes of a content that stands for some code units: reading it gives at least as many
units, the same ones exactly if all its escapes are known to the reader, and no end of a line but
the newline exactly if there is no carriage return among the escapes. -/
structure Rereads (raw : Text) (units : List Nat) : Prop where
  length_le : units.length ≤ (textUnits (unescape raw)).length
  same_iff : textUnits (unescape raw) = units ↔ ∀ c ∈ escapeMarks raw, c ∈ 'r' :: keptMarks
  line_iff : (∀ c ∈ unescape raw, c ∈ lineTerminators → c = '\n') ↔ 'r' ∉ escapeMarks raw

/-- One more piece in front of a content. -/
theorem Rereads.cons (h : Rereads rest units) (shown marks : Text) (denoted : List Nat)
    (htext : unescape raw = shown ++ unescape rest)
    (hmarks : escapeMarks raw = marks ++ escapeMarks rest)
    (hlength : denoted.length ≤ (textUnits shown).length)
    (hsame : textUnits shown = denoted ↔ ∀ c ∈ marks, c ∈ 'r' :: keptMarks)
    (hline : (∀ c ∈ shown, c ∈ lineTerminators → c = '\n') ↔ 'r' ∉ marks) :
    Rereads raw (denoted ++ units) where
  length_le := by
    have hle := h.length_le
    rw [htext, textUnits_append, List.length_append, List.length_append]
    omega
  same_iff := by
    have hle := h.length_le
    rw [htext, textUnits_append, hmarks, List.forall_mem_append, ← hsame, ← h.same_iff]
    constructor
    · intro heq
      have htotal := congrArg List.length heq
      rw [List.length_append, List.length_append] at htotal
      exact List.append_inj heq (by omega)
    · rintro ⟨rfl, hrest⟩
      rw [hrest]
  line_iff := by
    rw [htext, hmarks, List.forall_mem_append, List.mem_append, not_or, hline, h.line_iff]

/-- An escape with hexadecimal digits in front of a content: its letter and its digits remain. -/
theorem Rereads.digits {mark : Char} {digits : Text} (h : Rereads rest units)
    (denoted : List Nat) (hmark : mark ∈ ['x', 'u', 'U']) (hdigits : AreHex digits)
    (hlength : denoted.length ≤ digits.length) :
    Rereads ('\\' :: mark :: (digits ++ rest)) (denoted ++ units) := by
  have hletter : ∀ mark ∈ ['x', 'u', 'U'], mark ≠ '\n' ∧ mark ≠ 'r' ∧ escapedChar mark = mark ∧
      mark ∉ lineTerminators ∧ mark ∉ 'r' :: keptMarks := by decide
  obtain ⟨hnewline, hreturn, hsame, hline, hlost⟩ := hletter mark hmark
  have hplain : ∀ c ∈ '\\' :: lineTerminators, hexValue? c = none := by decide
  have houtside : ∀ c ∈ digits, c ∉ '\\' :: lineTerminators := by
    intro c hc hmem
    have hsome := hdigits c hc
    rw [hplain c hmem] at hsome
    exact absurd hsome (by decide)
  have hslash : '\\' ∉ digits := fun hmem => houtside _ hmem List.mem_cons_self
  obtain ⟨htext, hmarks⟩ := unescape_append hslash rest
  have hunits := length_le_textUnits (mark :: digits)
  rw [List.length_cons] at hunits
  refine h.cons (mark :: digits) [mark] denoted ?_ ?_ (by omega) ?_ ?_
  · rw [unescape_escape_cons hnewline, hsame, htext, List.cons_append]
  · rw [escapeMarks, hmarks, List.singleton_append]
  · refine iff_of_false (fun heq => ?_) (fun hknown => hlost (hknown mark List.mem_cons_self))
    rw [heq] at hunits
    omega
  · refine iff_of_true ?_ (by simpa using Ne.symm hreturn)
    rw [List.forall_mem_cons]
    exact ⟨fun hmem => absurd hmem hline,
      fun c hc hmem => absurd (List.mem_cons_of_mem _ hmem) (houtside c hc)⟩

/-- By the pieces of the content: each one is read alone. -/
theorem rereads_of_denotes (h : Denotes raw units) : Rereads raw units := by
  induction h with
  | nil => exact ⟨Nat.le_refl 0, by decide, by decide⟩
  | @plain c rest units _ hslash hline _ ih =>
    refine ih.cons [c] [] (codeUnits c.toNat) (unescape_cons hslash rest)
      (escapeMarks_cons hslash rest) (by simp [textUnits]) ?_ ?_
    · exact iff_of_true (by simp [textUnits]) (List.forall_mem_nil _)
    · refine iff_of_true (fun d hd hmem => ?_) List.not_mem_nil
      rw [List.mem_singleton.mp hd] at hmem
      exact absurd hmem hline
  | @simple c unit rest units hmark _ ih =>
    have hshown : ∀ entry ∈ simpleEscapes, entry.1 ≠ '\n' ∧
        (textUnits [escapedChar entry.1]).length = 1 ∧
        (textUnits [escapedChar entry.1] = [entry.2] ↔ entry.1 ∈ 'r' :: keptMarks) ∧
        ((escapedChar entry.1 ∈ lineTerminators → escapedChar entry.1 = '\n') ↔
          entry.1 ≠ 'r') := by decide
    obtain ⟨hnewline, hlength, hsame, hline⟩ := hshown _ hmark
    refine ih.cons [escapedChar c] [c] [unit] (unescape_escape_cons hnewline rest) rfl
      (Nat.le_of_eq hlength.symm) ?_ ?_
    · simpa using hsame
    · simpa [eq_comm] using hline
  | @hexadecimal digits _ _ hdigits hne _ _ _ ih =>
    exact ih.digits [hexNumber digits] (by decide) hdigits (List.length_pos_iff.mpr hne)
  | @unicode digits _ _ hdigits hlength _ ih =>
    have hone : [hexNumber digits].length ≤ digits.length := by
      rw [hlength, List.length_singleton]
      omega
    exact ih.digits [hexNumber digits] (by decide) hdigits hone
  | @longUnicode digits _ _ hdigits hlength _ _ ih =>
    have hunits := (length_codeUnits (hexNumber digits)).2
    exact ih.digits (codeUnits (hexNumber digits)) (by decide) hdigits (by omega)

/-! ## Literals -/

/-- A regular string literal of C# on one line and the code units that it stands for. -/
def DenotesLiteral (text : Text) (units : List Nat) : Prop :=
  ∃ content, text = '"' :: (content ++ ['"']) ∧ Denotes content units

theorem denotesLiteral_quote_iff : DenotesLiteral (quote text) units ↔
    (∀ c ∈ text, c ∈ lineTerminators → c = '\n') ∧ units = textUnits text := by
  rw [← denotes_escape_iff]
  constructor
  · rintro ⟨content, heq, hcontent⟩
    rw [quote_eq] at heq
    rwa [List.append_cancel_right (List.cons.inj heq).2]
  · intro h
    exact ⟨escape text, quote_eq text, h⟩

/-- A content that is read and written again gives a literal unless it has a carriage return
among its escapes, and the literal means the same exactly if all escapes are kept ones. -/
theorem quote_unescape_denotes_iff (h : Denotes raw units) :
    ((∃ others, DenotesLiteral (quote (unescape raw)) others) ↔ 'r' ∉ escapeMarks raw) ∧
    (DenotesLiteral (quote (unescape raw)) units ↔ ∀ c ∈ escapeMarks raw, c ∈ keptMarks) := by
  have hreread := rereads_of_denotes h
  have hreturn : 'r' ∉ keptMarks := by decide
  constructor
  · rw [← hreread.line_iff]
    constructor
    · rintro ⟨others, hothers⟩
      exact (denotesLiteral_quote_iff.mp hothers).1
    · intro hline
      exact ⟨_, denotesLiteral_quote_iff.mpr ⟨hline, rfl⟩⟩
  · rw [denotesLiteral_quote_iff, hreread.line_iff, eq_comm, hreread.same_iff]
    constructor
    · rintro ⟨hreturn, hknown⟩ c hc
      refine (List.mem_cons.mp (hknown c hc)).resolve_left ?_
      rintro rfl
      exact hreturn hc
    · intro hkept
      exact ⟨fun hmem => hreturn (hkept 'r' hmem), fun c hc => List.mem_cons_of_mem _ (hkept c hc)⟩

/-- A newline and a quote are written again as they were, a letter in hexadecimal digits is not. -/
theorem quote_unescape_denotes_greeting :
    (Denotes "Hi\\n\\\"" [0x48, 0x69, 0x0a, 0x22] ∧
      DenotesLiteral (quote (unescape "Hi\\n\\\"")) [0x48, 0x69, 0x0a, 0x22]) ∧
    (Denotes "\\x48i" [0x48, 0x69] ∧
      ¬ DenotesLiteral (quote (unescape "\\x48i")) [0x48, 0x69]) := by
  have hplain : Denotes "i" [0x69] := .plain (by decide) (by decide) (by decide) .nil
  have hkept : Denotes "Hi\\n\\\"" [0x48, 0x69, 0x0a, 0x22] :=
    .plain (by decide) (by decide) (by decide) (.plain (by decide) (by decide) (by decide)
      (.simple (by decide) (.simple (by decide) .nil)))
  have hlost : Denotes "\\x48i" [0x48, 0x69] :=
    @Denotes.hexadecimal ['4', '8'] _ _ (by decide) (by decide) (by decide) (by decide) hplain
  exact ⟨⟨hkept, (quote_unescape_denotes_iff hkept).2.mpr (by decide)⟩,
    hlost, fun h => absurd ((quote_unescape_denotes_iff hlost).2.mp h) (by decide)⟩

/-- A letter in hexadecimal digits becomes its digits, and a carriage return ends the line. -/
theorem not_denotesLiteral_quote_unescape :
    (Denotes "\\u0041" [0x41] ∧ ¬ DenotesLiteral (quote (unescape "\\u0041")) [0x41]) ∧
    (Denotes "\\r" [0x0d] ∧ ∀ units, ¬ DenotesLiteral (quote (unescape "\\r")) units) := by
  refine ⟨⟨@Denotes.unicode ['0', '0', '4', '1'] [] [] (by decide) (by decide) .nil, fun h => ?_⟩,
    .simple (by decide) .nil, fun units h => ?_⟩
  · exact absurd (denotesLiteral_quote_iff.mp h).2 (by decide)
  · exact absurd (denotesLiteral_quote_iff.mp h).1 (by decide)

end EditorScript
