import EditorScript.Proofs.Dedenting

/-!
# Margins do not drift

Writing a fragment at a margin and dropping its margin can be repeated in any order: the
text depends on the last margin only.  Tabs are replaced by blanks first, and the text that
comes out of that has no white space but blanks and newlines, for which the laws hold.
-/

namespace EditorScript

/-- Text whose white space is spaces, tabs and newlines only. -/
def CodeBlanks (text : Text) : Prop :=
  ∀ c ∈ text, isBlank c → c = ' ' ∨ c = '\t' ∨ c = '\n'

instance (text : Text) : Decidable (CodeBlanks text) :=
  inferInstanceAs (Decidable (∀ c ∈ text, isBlank c → c = ' ' ∨ c = '\t' ∨ c = '\n'))

namespace Text

/-- A character of the text with its tabs replaced was there before or is a blank. -/
theorem eq_space_or_mem_of_mem_expandTabsFrom {c : Char} {text : Text} {column : Nat}
    (h : c ∈ expandTabsFrom column text) : c = ' ' ∨ c ∈ text := by
  induction text generalizing column with
  | nil => cases h
  | cons first rest ih =>
    have hlater : ∀ {later}, c ∈ expandTabsFrom later rest → c = ' ' ∨ c ∈ first :: rest :=
      fun hmem => (ih hmem).imp_right (List.mem_cons_of_mem first)
    rw [expandTabsFrom] at h
    split_ifs at h
    · rcases List.mem_append.mp h with hspace | h
      · exact .inl (List.mem_replicate.mp hspace).2
      · exact hlater h
    all_goals
      rcases List.mem_cons.mp h with rfl | h
      · exact .inr List.mem_cons_self
      · exact hlater h

/-- Tabs are replaced only once. -/
theorem expandTabs_expandTabs (text : Text) : text.expandTabs.expandTabs = text.expandTabs :=
  expandTabsFrom_eq_self (tab_notMem_expandTabsFrom 0 text) 0

/-- Dropping the margin begins with replacing the tabs. -/
theorem dedent_expandTabs (text : Text) : dedent text.expandTabs = text.dedent := by
  simp only [dedent, expandTabs_expandTabs]

/-- So does writing at a margin. -/
theorem reindent_expandTabs (count : Nat) (text : Text) :
    reindent count text.expandTabs = reindent count text := by
  rw [reindent, dedent_expandTabs]
  rfl

end Text

namespace CodeBlanks

variable {text : Text}

theorem plainBlanks_expandTabs (h : CodeBlanks text) : PlainBlanks text.expandTabs := by
  intro c hc hblank
  rcases Text.eq_space_or_mem_of_mem_expandTabsFrom hc with hspace | hmem
  · exact .inl hspace
  · rcases h c hmem hblank with hspace | rfl | hnewline
    · exact .inl hspace
    · exact absurd hc (Text.tab_notMem_expandTabsFrom 0 text)
    · exact .inr hnewline

/-- The margin is dropped only once. -/
theorem dedent_dedent (h : CodeBlanks text) : text.dedent.dedent = text.dedent := by
  calc text.dedent.dedent
      = text.expandTabs.dedent.dedent := by rw [Text.dedent_expandTabs]
    _ = text.expandTabs.dedent := Text.dedent_dedent h.plainBlanks_expandTabs
    _ = text.dedent := Text.dedent_expandTabs text

/-- Dropping the margin undoes writing at one. -/
theorem dedent_reindent (h : CodeBlanks text) (count : Nat) :
    Text.dedent (Text.reindent count text) = text.dedent := by
  calc Text.dedent (Text.reindent count text)
      = Text.dedent (Text.reindent count text.expandTabs) := by rw [Text.reindent_expandTabs]
    _ = text.expandTabs.dedent := Text.dedent_reindent h.plainBlanks_expandTabs count
    _ = text.dedent := Text.dedent_expandTabs text

/-- A fragment is written alike with and without its own margin. -/
theorem reindent_dedent (h : CodeBlanks text) (count : Nat) :
    Text.reindent count text.dedent = Text.reindent count text := by
  rw [Text.reindent, h.dedent_dedent]
  rfl

/-- Of two margins the later one stays. -/
theorem reindent_reindent (h : CodeBlanks text) (count later : Nat) :
    Text.reindent later (Text.reindent count text) = Text.reindent later text := by
  rw [Text.reindent, h.dedent_reindent]
  rfl

/-- Reading a fragment and writing it can be repeated at any levels: the margin it is read
without and the margin it is written with do not depend on those before. -/
theorem margins_do_not_drift (h : CodeBlanks text) (width level later : Nat) :
    text.dedent.dedent = text.dedent ∧
      Text.dedent (Text.reindent (width * level) text) = text.dedent ∧
      Text.reindent (width * level) text.dedent = Text.reindent (width * level) text ∧
      Text.reindent (width * later) (Text.reindent (width * level) text) =
        Text.reindent (width * later) text :=
  ⟨h.dedent_dedent, h.dedent_reindent _, h.reindent_dedent _, h.reindent_reindent _ _⟩

/-- A block under a tab and blanks, with a line of white space in it and empty lines
around. -/
theorem margins_do_not_drift_tabbed :
    let text : Text := "\n \tif (ready)\n\t\x7b\n \t \n\t\tRun();\n    \x7d\n\n"
    CodeBlanks text ∧ text.dedent = "if (ready)\n\x7b\n\n    Run();\n\x7d" ∧
      text.dedent.dedent = text.dedent ∧
      Text.dedent (Text.reindent (2 * 3) text) = text.dedent ∧
      Text.reindent (2 * 3) text.dedent = Text.reindent (2 * 3) text ∧
      Text.reindent (2 * 1) (Text.reindent (2 * 3) text) = Text.reindent (2 * 1) text := by
  intro text
  have hblanks : CodeBlanks text := by decide +kernel
  exact ⟨hblanks, by decide +kernel, margins_do_not_drift hblanks 2 3 1⟩

end CodeBlanks

end EditorScript
