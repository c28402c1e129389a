import EditorScript.Proofs.BlockText
import EditorScript.Proofs.CodeSteps
import EditorScript.Proofs.Guards

/-!
# Foldouts and the statements behind their guards

A foldout takes the first block at or behind a guard on its variable.  When the guarded
statement is that block, the foldout takes the lines up to the closing brace, the body
becomes its children, and the lines below are recovered as if they stood alone
(`recoverLines_foldout_guard`).  A guarded statement without braces leaves the block of a
later statement to the foldout (`recover_unbracedGuard`).
-/

namespace EditorScript

open Step

section

variable {line code : Text} {rest : List Text} {found head : Position} {place : Nat} {block : Block}

/-- The first block at or behind the guard is the inside of the foldout. -/
theorem recoverLines_of_foldout (hcall : foldoutCall.match? (codeOf line) = some found)
    (hcode : firstCode? rest = some (place, code))
    (hguard : (guard "if" (found.captured "variable")).match? code = some head)
    (hblock : findBlock? (rest.drop place) 0 = some block) :
    recoverLines (line :: rest) =
      ⟨.group (CallShape.bound .foldout found)
            (recoverLines (block.bodyLines (rest.drop place))).elements ::
          (recoverLines ((rest.drop place).drop (block.endLine + 1))).elements,
        (recoverLines (block.bodyLines (rest.drop place))).warnings ++
          (recoverLines ((rest.drop place).drop (block.endLine + 1))).warnings⟩ := by
  have haccepts : (guard "if" (found.captured "variable")).accepts code := by
    rw [Pattern.accepts, hguard]
    rfl
  have hstep : foldout? line rest = some (.enter (CallShape.bound .foldout found)
      (block.bodyLines (rest.drop place)) ((rest.drop place).drop (block.endLine + 1))) := by
    simp only [foldout?, hcall, Option.map_some, guarded?, hcode, haccepts, if_true, hblock]
  exact recoverLines_of_enter (next_of_foldout? hstep)

/-- Where a block opens behind a guard on a foldout's variable, nothing but the guard is in
front of its brace: the block is the guarded statement.  Its body becomes the children of
the foldout, and the lines below its closing brace become the siblings, both recovered as if
they stood alone.  Of the text of the lines that are taken the body keeps all that is solid
between the braces. -/
theorem recoverLines_foldout_guard (hcall : foldoutCall.match? (codeOf line) = some found)
    (hcode : firstCode? rest = some (place, code))
    (hguard : (guard "if" (found.captured "variable")).match? code = some head)
    (hopens : opensBlock head.after (rest.drop (place + 1)))
    (hblock : findBlock? (rest.drop place) 0 = some block) :
    let guarded := rest.drop place
    let inside := recoverLines (block.bodyLines guarded)
    let behind := recoverLines (guarded.drop (block.endLine + 1))
    recoverLines (line :: rest) =
        ⟨.group (CallShape.bound .foldout found) inside.elements :: behind.elements,
          inside.warnings ++ behind.warnings⟩ ∧
      solid (codeToBrace guarded) = "if(" ++ (found.captured "variable" ++ ")") ∧
      solid (Text.unlines (guarded.take (block.endLine + 1))) =
        solid (block.front guarded) ++
          '\x7b' :: (solid (block.body guarded) ++ '\x7d' :: solid (block.behind guarded)) := by
  intro guarded inside behind
  refine ⟨recoverLines_of_foldout hcall hcode hguard hblock, ?_,
    (stands_of_findBlock? hblock).solid_eq⟩
  obtain ⟨first, hfirst, hline⟩ := drop_of_firstCode? hcode
  rw [← hline] at hguard
  have hsolid := solid_codeToBrace_guard (by decide)
    (capturesWord_foldoutCall.of_match? hcall).2 hguard hopens
  rw [← hfirst] at hsolid
  exact hsolid

end

/-- A foldout with a guarded block, a comment between them and a call behind them. -/
theorem recoverLines_foldout_guard_commented :
    let guarded : List Text := ["if ( open )", "\x7b", "    Draw();", "\x7d // end", "Run();"]
    foldoutCall.match? (codeOf "open = EditorGUILayout.Foldout(open, \"More\");") =
        some ⟨some ';', [], [("label", "More"), ("variable", "open")]⟩ ∧
      firstCode? ("// advanced" :: guarded) = some (1, "if ( open )".toList) ∧
      (guard "if" "open").match? "if ( open )" = some ⟨some ')', [], []⟩ ∧
      opensBlock [] (guarded.drop 1) ∧ findBlock? guarded 0 = some ⟨0, 1, 0, 3, 0⟩ ∧
      (recoverLines ("open = EditorGUILayout.Foldout(open, \"More\");" :: "// advanced" ::
        guarded)).elements =
        .group { widget := .foldout, label := "More", variableName := "open" }
          (recoverLines [("    Draw();" : Text)]).elements ::
            (recoverLines [("Run();" : Text)]).elements := by
  intro guarded
  have hcall : foldoutCall.match? (codeOf "open = EditorGUILayout.Foldout(open, \"More\");") =
      some ⟨some ';', [], [("label", "More"), ("variable", "open")]⟩ := by cbv
  have hcode : firstCode? ("// advanced" :: guarded) = some (1, "if ( open )".toList) := by
    decide +kernel
  have hguard : (guard "if" "open").match? "if ( open )" = some ⟨some ')', [], []⟩ := by cbv
  have hopens : opensBlock [] (guarded.drop 1) := by decide +kernel
  have hblock : findBlock? guarded 0 = some ⟨0, 1, 0, 3, 0⟩ := by decide +kernel
  have hrecover := (recoverLines_foldout_guard hcall hcode hguard hopens hblock).1
  have hfields : CallShape.bound .foldout ⟨some ';', [], [("label", "More"), ("variable", "open")]⟩ =
      { widget := .foldout, label := "More", variableName := "open" } := by decide +kernel
  have hbody : Block.bodyLines ⟨0, 1, 0, 3, 0⟩ guarded = [("    Draw();" : Text)] := by
    decide +kernel
  rw [hfields] at hrecover
  refine ⟨hcall, hcode, hguard, hopens, hblock, ?_⟩
  rw [hrecover, ← hbody]
  rfl

/-- A guard without braces loses its statement: the block of the button behind it becomes the
inside of the foldout, and neither `Draw();` nor the button is recovered. -/
theorem recover_unbracedGuard :
    recover ("open = EditorGUILayout.Foldout(open, \"More\");\n" ++ ("if (open) Draw();\n" ++
      "if (GUILayout.Button(\"Go\"))\n\x7b\n    Run();\n\x7d")) =
      ⟨[.group { widget := .foldout, label := "More", variableName := "open" }
        [.ofCode "Run();"]], []⟩ := by
  have hlines : Text.lines ("open = EditorGUILayout.Foldout(open, \"More\");\n" ++
      ("if (open) Draw();\n" ++ "if (GUILayout.Button(\"Go\"))\n\x7b\n    Run();\n\x7d")) =
      ("open = EditorGUILayout.Foldout(open, \"More\");" :: "if (open) Draw();" ::
        ["if (GUILayout.Button(\"Go\"))", "\x7b", "    Run();", "\x7d"] : List Text) := by
    decide +kernel
  have hcall : foldoutCall.match? (codeOf "open = EditorGUILayout.Foldout(open, \"More\");") =
      some ⟨some ';', [], [("label", "More"), ("variable", "open")]⟩ := by cbv
  have hguard : (guard "if" "open").match? "if (open) Draw();" =
      some ⟨some ')', " Draw();", []⟩ := by cbv
  have hinside : recoverLines [("    Run();" : Text)] = ⟨[.ofCode "Run();"], []⟩ := by
    have hextent : extent [("    Run();" : Text)] = 0 :=
      extent_of_semicolon (by decide +kernel) (by decide +kernel) (by rintro first ⟨⟩)
    have hdedent : Text.dedent "    Run();" = "Run();".toList := by decide +kernel
    rw [recoverLines_of_line (by decide +kernel) (by decide +kernel) hextent, recoverLines_nil,
      hdedent]
  have hfields : CallShape.bound .foldout ⟨some ';', [], [("label", "More"), ("variable", "open")]⟩ =
      { widget := .foldout, label := "More", variableName := "open" } := by decide +kernel
  have hblock : findBlock? ("if (open) Draw();" ::
      ["if (GUILayout.Button(\"Go\"))", "\x7b", "    Run();", "\x7d"] : List Text) 0 =
      some ⟨0, 2, 0, 4, 0⟩ := by decide +kernel
  have hcode : firstCode? ("if (open) Draw();" ::
      ["if (GUILayout.Button(\"Go\"))", "\x7b", "    Run();", "\x7d"] : List Text) =
      some (0, "if (open) Draw();".toList) := by decide +kernel
  have hbody : Block.bodyLines ⟨0, 2, 0, 4, 0⟩ ("if (open) Draw();" ::
      ["if (GUILayout.Button(\"Go\"))", "\x7b", "    Run();", "\x7d"] : List Text) =
      [("    Run();" : Text)] := by decide +kernel
  have hrecover := recoverLines_of_foldout hcall hcode hguard hblock
  rw [List.drop_zero, hbody, hinside, hfields] at hrecover
  rw [recover, hlines, hrecover, List.drop_of_length_le (by decide), recoverLines_nil]
  rfl

end EditorScript
