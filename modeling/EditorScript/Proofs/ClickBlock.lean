import EditorScript.Proofs.BlockText
import EditorScript.Proofs.CodeSteps
import EditorScript.Proofs.OpeningBrace

/-!
# Click blocks

A click block is taken with the whole lines from the condition to its closing brace.  What
is solid between its braces becomes the action of the button and the lines below are
recovered as if they stood alone, so of the text of the lines that are taken only the head of
the block and what follows its closing brace on the same line are not in the action
(`recoverLines_clickBlock`).  An `else` behind the closing brace is lost in that way, and the
statements of its block stay without their condition (`recover_elseBlock`).
-/

namespace EditorScript

open Step

variable {line : Text} {rest : List Text} {found : Position} {fields : ElementFields} {block : Block}

/-- The body of the block becomes the action of the button. -/
theorem recoverLines_of_button (hcall : buttonCall.match? (codeOf line) = some found)
    (hstyle : (CallShape.labelled .button (CallShape.textOf found "label")).applyStyle?
      (found.captured? "style") "\"button\"" = some fields)
    (hopens : opensBlock (found.captured "rest") rest)
    (hblock : findBlock? (line :: rest) 0 = some block) :
    recoverLines (line :: rest) =
      ⟨.leaf { fields with
            action := some .customCode
            actionParam := some (block.body (line :: rest)).dedent } ::
          (recoverLines (rest.drop block.endLine)).elements,
        (recoverLines (rest.drop block.endLine)).warnings⟩ := by
  have hstep : button? line rest = some (.take (.leaf { fields with
      action := some .customCode, actionParam := some (block.body (line :: rest)).dedent }) []
        (rest.drop block.endLine)) := by
    unfold opensBlock at hopens
    simp only [button?, hcall, Option.bind_some, hstyle, hopens, if_true, hblock, Option.map_some]
  exact recoverLines_of_take (next_of_button? hstep)

/-- A click block is taken with the whole lines from its condition to its closing brace, and
the lines below are recovered as if they stood alone.  What is solid in the lines that are
taken is the head of the block, the action of the button between the braces, and what
stands behind the closing brace on its line. -/
theorem recoverLines_clickBlock (hcall : buttonCall.match? (codeOf line) = some found)
    (hstyle : (CallShape.labelled .button (CallShape.textOf found "label")).applyStyle?
      (found.captured? "style") "\"button\"" = some fields)
    (hopens : opensBlock (found.captured "rest") rest)
    (hblock : findBlock? (line :: rest) 0 = some block) :
    let taken := line :: rest
    let below := recoverLines (taken.drop (block.endLine + 1))
    ∃ action, recoverLines taken =
        ⟨.leaf { fields with action := some .customCode, actionParam := some action } ::
            below.elements, below.warnings⟩ ∧
      solid (Text.unlines (taken.take (block.endLine + 1))) =
        solid (block.front taken) ++
          '\x7b' :: (solid action ++ '\x7d' :: solid (block.behind taken)) := by
  intro taken below
  refine ⟨(block.body taken).dedent, recoverLines_of_button hcall hstyle hopens hblock, ?_⟩
  rw [Text.solid_dedent]
  exact (stands_of_findBlock? hblock).solid_eq

/-- A click block on one line, with a call behind it on the same line and one below. -/
theorem recoverLines_clickBlock_oneLine :
    let line : Text := "if (GUILayout.Button(\"Go\")) \x7b A(); \x7d B();"
    let rest : List Text := ["C();"]
    let found : Position := ⟨some ';', [], [("rest", " \x7b A(); \x7d B();"), ("label", "Go")]⟩
    buttonCall.match? (codeOf line) = some found ∧
      opensBlock (found.captured "rest") rest ∧
      findBlock? (line :: rest) 0 = some ⟨0, 0, 28, 0, 35⟩ ∧
      ∃ action, recoverLines (line :: rest) =
          ⟨.leaf { widget := .button, label := "Go", action := some .customCode,
                   actionParam := some action } :: (recoverLines rest).elements,
            (recoverLines rest).warnings⟩ ∧
        solid line = "if(GUILayout.Button(\"Go\"))" ++
          '\x7b' :: (solid action ++ '\x7d' :: "B();") := by
  intro line rest found
  have hcall : buttonCall.match? (codeOf "if (GUILayout.Button(\"Go\")) \x7b A(); \x7d B();") =
      some ⟨some ';', [], [("rest", " \x7b A(); \x7d B();"), ("label", "Go")]⟩ := by cbv
  have hstyle : (CallShape.labelled .button (CallShape.textOf found "label")).applyStyle?
      (found.captured? "style") "\"button\"" = some { widget := .button, label := "Go" } := by
    decide +kernel
  have hopens : opensBlock (found.captured "rest") rest := by decide +kernel
  have hblock : findBlock? (line :: rest) 0 = some ⟨0, 0, 28, 0, 35⟩ := by decide +kernel
  exact ⟨hcall, hopens, hblock, recoverLines_clickBlock hcall hstyle hopens hblock⟩

/-- An `else` behind the closing brace is lost, and its block is left without a condition. -/
theorem recover_elseBlock :
    recover ("if (GUILayout.Button(\"Go\"))\n\x7b\n    A();\n" ++
      "\x7d else \x7b\n    B();\n\x7d") =
      ⟨[.leaf { widget := .button, label := "Go", action := some .customCode,
                actionParam := some "A();" }, .ofCode "B();"], []⟩ := by
  have hlines : Text.lines ("if (GUILayout.Button(\"Go\"))\n\x7b\n    A();\n" ++
      "\x7d else \x7b\n    B();\n\x7d") =
      ("if (GUILayout.Button(\"Go\"))" ::
        ["\x7b", "    A();", "\x7d else \x7b", "    B();", "\x7d"] : List Text) := by
    decide +kernel
  have hcall : buttonCall.match? (codeOf "if (GUILayout.Button(\"Go\"))") =
      some ⟨some ')', [], [("rest", []), ("label", "Go")]⟩ := by cbv
  have hstyle : (CallShape.labelled .button (CallShape.textOf
      ⟨some ')', [], [("rest", []), ("label", "Go")]⟩ "label")).applyStyle?
        (Position.captured? ⟨some ')', [], [("rest", []), ("label", "Go")]⟩ "style")
        "\"button\"" = some { widget := .button, label := "Go" } := by decide +kernel
  have hopens : opensBlock [] ["\x7b", "    A();", "\x7d else \x7b", "    B();", "\x7d"] := by
    decide +kernel
  have hblock : findBlock? ("if (GUILayout.Button(\"Go\"))" ::
      ["\x7b", "    A();", "\x7d else \x7b", "    B();", "\x7d"] : List Text) 0 =
      some ⟨0, 1, 0, 3, 0⟩ := by decide +kernel
  have hbody : (Block.body ⟨0, 1, 0, 3, 0⟩ ("if (GUILayout.Button(\"Go\"))" ::
      ["\x7b", "    A();", "\x7d else \x7b", "    B();", "\x7d"] : List Text)).dedent =
      "A();".toList := by decide +kernel
  have hbelow : recoverLines ("    B();" :: ["\x7d"] : List Text) = ⟨[.ofCode "B();"], []⟩ := by
    have hextent : extent ("    B();" :: ["\x7d"] : List Text) = 0 := by
      refine extent_of_semicolon (by decide +kernel) (by decide +kernel) ?_
      rintro first ⟨⟩
      decide +kernel
    have hdedent : Text.dedent "    B();" = "B();".toList := by decide +kernel
    rw [recoverLines_of_line (by decide +kernel) (by decide +kernel) hextent,
      recoverLines_of_brace (by decide +kernel), recoverLines_nil, hdedent]
  have hrecover := recoverLines_of_button hcall hstyle hopens hblock
  rw [hbody, show List.drop 3 _ = ("    B();" :: ["\x7d"] : List Text) from rfl, hbelow] at hrecover
  rw [recover, hlines, hrecover]

end EditorScript
