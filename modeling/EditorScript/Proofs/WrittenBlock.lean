import EditorScript.Proofs.WindowSource

/-!
# Written blocks and the search for them

A block is written around texts of any number of lines, and the search for a block gives
back its lines.  As long as the texts are closed when they stand below each other, nothing in
them is taken for the end of the block: they lead the reader back to code mode and to the depth
that it came with (`findBlock?_blockText`).
-/

namespace EditorScript

variable {signature : Text} {body : List Text}

namespace Text

/-- The lines of texts below each other are their lines, and without a text there are none. -/
theorem unlines_flatMap_lines (texts : List Text) :
    unlines (texts.flatMap lines) = unlines texts := by
  cases texts with
  | nil => rfl
  | cons text others => rw [← lines_unlines (List.cons_ne_nil _ _), unlines_lines]

end Text

/-- The lines of texts that are closed together. -/
theorem nests_flatMap_lines (h : LexicallyClosed (Text.unlines body)) :
    Nests 0 (body.flatMap Text.lines) 0 := by
  cases body with
  | nil => exact ⟨rfl, rfl⟩
  | cons text others => exact (nests_unlines_iff (List.cons_ne_nil _ _) 0 0).mp h

/-- The block that is written behind a signature is found from its first line on: it opens on
the second line, ends on the last one, and its body is the texts that it was written around. -/
theorem findBlock?_blockText (hline : '\n' ∉ signature) (hsignature : BlockHeader signature)
    (hbody : LexicallyClosed (Text.unlines body)) (width level : Nat) :
    ∃ block, findBlock? (blockText width level signature body).lines 0 = some block ∧
      block.openLine = 1 ∧
      block.endLine + 1 = (blockText width level signature body).lines.length ∧
      block.body (blockText width level signature body).lines = Text.unlines body := by
  obtain ⟨block, hfound, hopens, hends, hlines⟩ :=
    findBlock?_blockLines hsignature (nests_flatMap_lines hbody) (width * level)
  rw [lines_blockText hline]
  refine ⟨block, hfound, hopens, hends, ?_⟩
  rw [Block.body, hlines, Text.unlines_flatMap_lines]

/-- A signature whose braces are no code. -/
def drawSignature : Text :=
  "void Draw(char open = '\x7b') // \x7b"

/-- Three texts of a body, with a comment from the first to the second and a string over the
lines of the third. -/
def drawBody : List Text :=
  ["        if (open != '\x7d') \x7b Label(\"\x7d\"); \x7d /* \x7d", "  \x7d */",
    "        text = @\"\x7b\n  \"\"\x7d\n\";\n"]

theorem findBlock?_blockText_draw :
    ∃ block, findBlock? (blockText 4 1 drawSignature drawBody).lines 0 = some block ∧
      block.openLine = 1 ∧
      block.endLine + 1 = (blockText 4 1 drawSignature drawBody).lines.length ∧
      block.body (blockText 4 1 drawSignature drawBody).lines = Text.unlines drawBody :=
  findBlock?_blockText (by decide) ⟨by decide, by decide⟩ (by decide) 4 1

end EditorScript
