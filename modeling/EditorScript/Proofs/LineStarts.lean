import EditorScript.Extraction.Settings
import EditorScript.Proofs.CodeLine
import EditorScript.Proofs.FirstMatch

/-!
# Words at the start of lines

Imports and namespaces are told by the word that a line starts with.  Where no line
starts with such a word, nothing is taken for one.
-/

namespace EditorScript

namespace Text

variable {word : Text}

/-- Without white space at its ends, a word is kept when a text is trimmed that starts
with it. -/
theorem startsWith_trim_append (hfirst : ∀ c ∈ word.head?, isBlank c = false)
    (hlast : ∀ c ∈ word.getLast?, isBlank c = false) (rest : Text) :
    (word ++ rest).trim.startsWith word := by
  rcases List.eq_nil_or_concat word with rfl | ⟨front, last, rfl⟩
  · rfl
  rw [List.concat_eq_append] at hfirst hlast ⊢
  have hblank : isBlank last = false := hlast last (by simp)
  have hleft : Text.trimLeft front = front := by
    cases front with
    | nil => rfl
    | cons c others =>
      have hc : ¬ isBlank c = true := by simp [hfirst c rfl]
      exact List.dropWhile_cons_of_neg hc
  have htrim := trim_append_cons hblank front rest
  rw [List.append_assoc, List.singleton_append, htrim, hleft]
  refine List.isPrefixOf_iff_prefix.mpr ⟨rest.trimRight, ?_⟩
  rw [List.append_assoc, List.singleton_append]

/-- What the code of a line starts with, the line starts with. -/
theorem startsWith_trim_of_codeOf {line : Text} (hfirst : ∀ c ∈ word.head?, isBlank c = false)
    (hlast : ∀ c ∈ word.getLast?, isBlank c = false) (h : (codeOf line).startsWith word) :
    line.trim.startsWith word := by
  obtain ⟨behind, hbehind⟩ := List.isPrefixOf_iff_prefix.mp h
  obtain ⟨rest, hrest⟩ := prefix_stripLineComment line
  obtain ⟨front, back, heq, hfront, -⟩ := exists_trim (stripLineComment line)
  have hcode : (stripLineComment line).trim = word ++ behind := hbehind.symm
  have hline : line = front ++ (word ++ (behind ++ (back ++ rest))) := by
    rw [hcode] at heq
    rw [← hrest, heq]
    simp only [List.append_assoc]
  rw [hline, trim_blank_append hfront]
  exact startsWith_trim_append hfirst hlast _

/-- Behind white space, which may run over lines, some line starts with a word. -/
theorem exists_line_startsWith (hfirst : ∀ c ∈ word.head?, isBlank c = false)
    (hlast : ∀ c ∈ word.getLast?, isBlank c = false) (hnewline : '\n' ∉ word) {blanks : Text}
    (hblank : ∀ c ∈ blanks, isBlank c) (rest : Text) :
    ∃ line ∈ (blanks ++ (word ++ rest)).lines, line.trim.startsWith word := by
  induction blanks with
  | nil =>
    obtain ⟨first, others, hlines⟩ := List.exists_cons_of_ne_nil (lines_ne_nil rest)
    have hword : ∀ {word : Text}, '\n' ∉ word → (word ++ rest).lines = (word ++ first) :: others := by
      intro word hnewline
      induction word with
      | nil => exact hlines
      | cons c others ih =>
        rw [List.mem_cons, not_or] at hnewline
        exact lines_cons (Ne.symm hnewline.1) (ih hnewline.2)
    rw [List.nil_append, hword hnewline]
    exact ⟨_, List.mem_cons_self, startsWith_trim_append hfirst hlast first⟩
  | cons c others ih =>
    rw [List.forall_mem_cons] at hblank
    obtain ⟨line, hline, hstarts⟩ := ih hblank.2
    by_cases hc : c = '\n'
    · subst hc
      rw [List.cons_append, lines_newline_cons]
      exact ⟨line, List.mem_cons_of_mem _ hline, hstarts⟩
    · obtain ⟨first, more, hlines⟩ := List.exists_cons_of_ne_nil
        (lines_ne_nil (others ++ (word ++ rest)))
      rw [hlines] at hline
      rw [List.cons_append, lines_cons hc hlines]
      rcases List.mem_cons.mp hline with rfl | hline
      · refine ⟨c :: line, List.mem_cons_self, ?_⟩
        have htrim := trim_blank_append (List.forall_mem_singleton.mpr hblank.1) line
        rw [List.singleton_append] at htrim
        rwa [htrim]
      · exact ⟨line, List.mem_cons_of_mem _ hline, hstarts⟩

end Text

open Pattern

/-- What a search finds, it finds at a place of the text. -/
theorem Pattern.exists_of_searchFrom {pattern : Pattern} {before : Option Char} {text : Text}
    (h : pattern.searchFrom before text ≠ none) :
    ∃ front rest, text = front ++ rest ∧ pattern.matchAt (front.getLast?.or before) rest ≠ none := by
  induction text generalizing before with
  | nil =>
    refine ⟨[], [], rfl, fun hnone => h ?_⟩
    have hnone : pattern.matchAt before [] = none := hnone
    rw [searchFrom, hnone]
  | cons c others ih =>
    cases hhere : pattern.matchAt before (c :: others) with
    | some place => exact ⟨[], c :: others, rfl, fun hnone => by simp [hhere] at hnone⟩
    | none =>
      rw [searchFrom, hhere] at h
      obtain ⟨front, rest, rfl, hmatch⟩ := @ih (some c) fun hnone => h (by
        dsimp only
        rw [hnone]
        rfl)
      refine ⟨c :: front, rest, rfl, ?_⟩
      rwa [getLast?_cons_or]

/-- What a namespace is read with. -/
def namespacePattern : Pattern :=
  lineStart ++ blanks ++ "namespace" ++ blanks1 ++ capture "name" dotted

/-- Where no line starts with the word, no namespace is found. -/
theorem search?_namespacePattern {text : Text}
    (h : ∀ line ∈ text.lines, line.trim.startsWith "namespace" = false) :
    namespacePattern.search? text = none := by
  rw [search?, Option.map_eq_none_iff]
  by_contra hfound
  obtain ⟨front, rest, rfl, hmatch⟩ := exists_of_searchFrom hfound
  obtain ⟨place, hplace⟩ := Option.ne_none_iff_exists'.mp hmatch
  obtain ⟨later, hreaches, -⟩ := run_sound hplace
  obtain ⟨_, hreaches, -⟩ := hreaches.append
  obtain ⟨_, hreaches, -⟩ := hreaches.append
  obtain ⟨_, hreaches, hword⟩ := hreaches.append
  obtain ⟨_, hstart, hblanks⟩ := hreaches.append
  obtain ⟨blanks, hblanks, hblank⟩ := hblanks.blanks_eq
  cases hstart with
  | check hstart =>
  dsimp only at hblanks hstart
  obtain ⟨line, hline, hstarts⟩ := @Text.exists_line_startsWith "namespace".toList
    (by decide) (by decide) (by decide) _ hblank _
  rw [← hword.text_eq, ← hblanks] at hline
  have hmem : line ∈ (front ++ rest).lines := by
    rcases List.eq_nil_or_concat front with rfl | ⟨before, last, rfl⟩
    · exact hline
    · rw [List.concat_eq_append, List.getLast?_concat] at hstart
      obtain rfl : last = '\n' := by simpa using hstart
      rw [List.concat_eq_append, List.append_assoc, List.singleton_append,
        Text.lines_append_newline]
      exact List.mem_append_right _ hline
  rw [h line hmem] at hstarts
  cases hstarts

/-- Imports start with the word for them. -/
theorem startsWith_using {code : Text} (h : importLine.accepts code) :
    code.startsWith "using" := by
  obtain ⟨place, hplace⟩ := Option.isSome_iff_exists.mp h
  obtain ⟨later, hreaches, -⟩ := run_sound hplace
  obtain ⟨_, hreaches, -⟩ := hreaches.append
  obtain ⟨_, hreaches, -⟩ := hreaches.append
  obtain ⟨_, hreaches, -⟩ := hreaches.append
  obtain ⟨_, hreaches, -⟩ := hreaches.append
  obtain ⟨_, hstart, hword⟩ := hreaches.append
  cases hstart with
  | check => exact List.isPrefixOf_iff_prefix.mpr ⟨_, hword.text_eq.symm⟩

/-- Where no line starts with the word, nothing is an import. -/
theorem importLine_eq_false {line : Text} (h : line.trim.startsWith "using" = false) :
    importLine.accepts (codeOf line) = false := by
  rw [← Bool.not_eq_true]
  intro haccepts
  rw [Text.startsWith_trim_of_codeOf (by decide) (by decide) (startsWith_using haccepts)] at h
  cases h

/-- The imports that the code of one more line makes of those above it. -/
def addImport (imports : List Text) (code : Text) : List Text :=
  if importLine.accepts code && !imports.contains code then imports ++ [code] else imports

/-- Lines that are no imports add none. -/
theorem foldl_addImport {lines : List Text}
    (h : ∀ line ∈ lines, importLine.accepts (codeOf line) = false) (imports : List Text) :
    (lines.map codeOf).foldl addImport imports = imports := by
  induction lines with
  | nil => rfl
  | cons line rest ih =>
    rw [List.forall_mem_cons] at h
    rw [List.map_cons, List.foldl_cons, addImport, h.1]
    exact ih h.2

/-- The imports above lines that are none. -/
theorem importsOf_append {text : Text} {first others : List Text}
    (h : text.lines = first ++ others)
    (hothers : ∀ line ∈ others, line.trim.startsWith "using" = false) :
    importsOf text = (first.map codeOf).foldl addImport [] := by
  rw [importsOf, h, List.map_append, List.foldl_append]
  exact foldl_addImport (fun line hline => importLine_eq_false (hothers line hline)) _

end EditorScript
