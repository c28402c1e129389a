import EditorScript.Proofs.BlockText
import EditorScript.Proofs.CodeSteps
import EditorScript.Proofs.Guards

/-!
# Switches behind groups of tabs

A switch over the variable of a group of tabs belongs to the group when every line of its
body is empty or begins with a label or a `break`, and is kept as a statement otherwise.
Where nothing stands behind a label on its line, that is so only for switches without any
other code (`recoverLines_tabSwitch`).  Code behind a label goes unnoticed, and the switch is
lost with it (`recover_oneLineCases`).
-/

namespace EditorScript

open Pattern Step

/-! ## Labels -/

/-- A label of a switch or a `break`, as it may be written. -/
inductive IdlePiece : Text → Prop
  | case {first digits second : Text} (hfirst : first ≠ []) (hblank : ∀ c ∈ first, isBlank c)
      (hdigits : digits ≠ []) (hdecimal : ∀ c ∈ digits, isDecimal c)
      (hsecond : ∀ c ∈ second, isBlank c) :
      IdlePiece ("case".toList ++ (first ++ (digits ++ (second ++ [':']))))
  | default {blanks : Text} (hblank : ∀ c ∈ blanks, isBlank c) :
      IdlePiece ("default".toList ++ (blanks ++ [':']))
  | break {blanks : Text} (hblank : ∀ c ∈ blanks, isBlank c) :
      IdlePiece ("break".toList ++ (blanks ++ [';']))

/-- A line that holds no code or begins with a label or a `break`. -/
def BeginsIdle (line : Text) : Prop :=
  codeOf line = [] ∨ ∃ piece behind, IdlePiece piece ∧ codeOf line = piece ++ behind

/-- A line on which nothing stands behind a label or a `break` that it begins with. -/
def HoldsOne (line : Text) : Prop :=
  ∀ piece behind, IdlePiece piece → codeOf line = piece ++ behind → behind = []

theorem exists_idlePiece {code : Text} (h : emptyCase.accepts code) :
    ∃ piece behind, IdlePiece piece ∧ code = piece ++ behind := by
  obtain ⟨found, hfound⟩ := Option.isSome_iff_exists.mp h
  obtain ⟨later, hreach, -⟩ := run_sound hfound
  obtain ⟨_, hstart, hreach⟩ := hreach.append
  cases hstart
  cases hreach with
  | left hcase =>
    obtain ⟨_, hcase, hcolon⟩ := hcase.append
    obtain ⟨_, hcase, hsecond⟩ := hcase.append
    obtain ⟨_, hcase, hdigits⟩ := hcase.append
    obtain ⟨_, hword, hfirst⟩ := hcase.append
    obtain ⟨first, hfirstNe, hfirstEq, hfirst⟩ := hfirst.many1_eq
    obtain ⟨digits, hdigitsNe, hdigitsEq, hdigits⟩ := hdigits.many1_eq
    obtain ⟨second, hsecondEq, hsecond⟩ := hsecond.blanks_eq
    have hcode := hword.text_eq
    rw [hfirstEq, hdigitsEq, hsecondEq, hcolon.text_eq] at hcode
    refine ⟨_, later.after, .case hfirstNe hfirst hdigitsNe hdigits hsecond, hcode.trans ?_⟩
    simp only [List.append_assoc]
    rfl
  | right hreach =>
    cases hreach with
    | left hdefault =>
      obtain ⟨_, hdefault, hcolon⟩ := hdefault.append
      obtain ⟨_, hword, hblank⟩ := hdefault.append
      obtain ⟨blanks, hblankEq, hblank⟩ := hblank.blanks_eq
      have hcode := hword.text_eq
      rw [hblankEq, hcolon.text_eq] at hcode
      refine ⟨_, later.after, .default hblank, hcode.trans ?_⟩
      simp only [List.append_assoc]
      rfl
    | right hbreak =>
      obtain ⟨_, hbreak, hsemicolon⟩ := hbreak.append
      obtain ⟨_, hword, hblank⟩ := hbreak.append
      obtain ⟨blanks, hblankEq, hblank⟩ := hblank.blanks_eq
      have hcode := hword.text_eq
      rw [hblankEq, hsemicolon.text_eq] at hcode
      refine ⟨_, later.after, .break hblank, hcode.trans ?_⟩
      simp only [List.append_assoc]
      rfl

theorem accepts_idlePiece {piece : Text} (h : IdlePiece piece) (behind : Text) :
    emptyCase.accepts (piece ++ behind) := by
  have hfound : ∀ before, Gives (some (⟨before, behind, []⟩ : Position)) fun _ => True :=
    fun before => ⟨_, rfl, trivial⟩
  have hblanks : ∀ (mark : String) {blanks : Text}, (∀ c ∈ blanks, isBlank c) →
      (∀ c ∈ (mark.toList ++ behind).head?, isBlank c = false) → ∀ before,
      Gives ((Pattern.blanks ++ mark : Pattern).run some
        ⟨before, blanks ++ (mark.toList ++ behind), []⟩) fun _ => True :=
    fun _ _ hblank hmark => run_many hblank hmark (run_text hfound)
  have hgives : Gives (emptyCase.match? (piece ++ behind)) fun _ => True := by
    rw [match?, matchAt, emptyCase, run_append, run_start]
    cases h with
    | @case first digits second hfirstNe hfirst hdigitsNe hdigits hsecond =>
      have hcolon : ∀ c ∈ (second ++ (":".toList ++ behind)).head?, isDecimal c = false := by
        cases second with
        | nil =>
          rintro c ⟨⟩
          decide
        | cons c others =>
          rintro c ⟨⟩
          have hblank := hsecond c List.mem_cons_self
          rw [← Bool.not_eq_true]
          intro hdecimal
          rw [isBlank_of_isDecimal hdecimal] at hblank
          cases hblank
      have hdigit : ∀ c ∈ (digits ++ (second ++ (":".toList ++ behind))).head?,
          isBlank c = false := by
        obtain ⟨c, others, rfl⟩ := List.exists_cons_of_ne_nil hdigitsNe
        rintro c ⟨⟩
        exact isBlank_of_isDecimal (hdigits _ List.mem_cons_self)
      have hlabel := run_many1 hfirstNe hfirst hdigit
        (run_many1 hdigitsNe hdigits hcolon (hblanks ":" hsecond (by rintro c ⟨⟩; decide)))
      simp only [List.append_assoc]
      exact (run_text hlabel none).or _
    | default hblank =>
      have hmark := hblanks ":" hblank (by rintro c ⟨⟩; decide)
      simp only [List.append_assoc]
      exact Gives.or_right _ ((run_text hmark none).or _)
    | «break» hblank =>
      have hmark := hblanks ";" hblank (by rintro c ⟨⟩; decide)
      simp only [List.append_assoc]
      exact Gives.or_right _ (Gives.or_right _ (run_text hmark none))
  obtain ⟨found, hmatch, -⟩ := hgives
  rw [accepts, hmatch]
  rfl

/-! ## Bodies without other code -/

/-- Whether a switch counts as empty is read off the beginnings of its lines. -/
theorem isEmptySwitch_iff {body : List Text} :
    isEmptySwitch body ↔ ∀ line ∈ body, BeginsIdle line := by
  rw [isEmptySwitch, List.all_eq_true]
  refine forall₂_congr fun line _ => ?_
  rw [Bool.or_eq_true, List.isEmpty_iff, BeginsIdle]
  refine or_congr_right ⟨exists_idlePiece, ?_⟩
  rintro ⟨piece, behind, hpiece, heq⟩
  rw [heq]
  exact accepts_idlePiece hpiece behind

/-- Code that is made of labels and breaks, with white space between them. -/
inductive OnlyIdle : Text → Prop
  | nil : OnlyIdle []
  | blank {c : Char} {code : Text} (hblank : isBlank c) (h : OnlyIdle code) : OnlyIdle (c :: code)
  | piece {piece code : Text} (hpiece : IdlePiece piece) (h : OnlyIdle code) :
      OnlyIdle (piece ++ code)

namespace OnlyIdle

theorem append {first second : Text} (h : OnlyIdle first) (hsecond : OnlyIdle second) :
    OnlyIdle (first ++ second) := by
  induction h with
  | nil => exact hsecond
  | blank hblank _ ih => exact .blank hblank ih
  | piece hpiece _ ih =>
    rw [List.append_assoc]
    exact .piece hpiece ih

theorem of_blank {text : Text} (h : text.all isBlank) : OnlyIdle text := by
  induction text with
  | nil => exact .nil
  | cons c rest ih =>
    rw [List.all_cons, Bool.and_eq_true] at h
    exact .blank h.1 (ih h.2)

theorem of_piece {piece : Text} (h : IdlePiece piece) : OnlyIdle piece := by
  simpa using OnlyIdle.piece h .nil

end OnlyIdle

theorem isPlain_of_isDecimal {c : Char} (h : isDecimal c) : isPlain c := by
  have hne : ∀ d : Char, isDecimal d = false → c ≠ d := by
    rintro d hd rfl
    rw [h] at hd
    cases hd
  simp [isPlain, hne '/' (by decide), hne '"' (by decide), hne '\'' (by decide)]

theorem IdlePiece.all_isPlain {piece : Text} (h : IdlePiece piece) : piece.all isPlain := by
  have hblanks : ∀ {text : Text}, (∀ c ∈ text, isBlank c) → text.all isPlain := fun hblank =>
    all_isPlain_of_blank (List.all_eq_true.mpr hblank)
  cases h with
  | case _ hfirst _ hdigits hsecond =>
    have hplain : _ := List.all_eq_true.mpr fun c hc => isPlain_of_isDecimal (hdigits c hc)
    simp only [List.all_append, hblanks hfirst, hblanks hsecond, hplain]
    decide
  | default hblank | «break» hblank =>
    simp only [List.all_append, hblanks hblank]
    decide

/-- A line with one label and nothing behind it has no other code. -/
theorem onlyIdle_lineChars {line : Text} (hbegins : BeginsIdle line) (hone : HoldsOne line) :
    OnlyIdle (lineChars .code line) ∧ lineEnd .code line = .code := by
  rcases hbegins with hnil | ⟨piece, behind, hpiece, hcode⟩
  · obtain ⟨hblank, hend⟩ := line_of_codeOf_nil hnil
    exact ⟨.of_blank hblank, hend⟩
  · obtain rfl := hone piece behind hpiece hcode
    obtain ⟨margin, gap, tail, hline, hmargin, hgap, htail⟩ := exists_codeOf line
    rw [hcode, List.append_nil, ← List.append_assoc, ← List.append_assoc] at hline
    have hplain : (margin ++ piece ++ gap).all isPlain := by
      rw [List.all_append, List.all_append, all_isPlain_of_blank hmargin, hpiece.all_isPlain,
        all_isPlain_of_blank hgap]
      rfl
    obtain ⟨hchars, hend⟩ := line_of_plain hplain htail
    rw [hline, hchars]
    exact ⟨((OnlyIdle.of_blank hmargin).append (.of_piece hpiece)).append (.of_blank hgap), hend⟩

theorem onlyIdle_codeText {body : List Text} (hbegins : ∀ line ∈ body, BeginsIdle line)
    (hone : ∀ line ∈ body, HoldsOne line) : OnlyIdle (codeText .code body) := by
  induction body with
  | nil => exact .nil
  | cons line rest ih =>
    rw [List.forall_mem_cons] at hbegins hone
    obtain ⟨hline, hend⟩ := onlyIdle_lineChars hbegins.1 hone.1
    rw [codeText_cons, hend]
    exact hline.append (ih hbegins.2 hone.2)

/-! ## Groups of tabs and their switches -/

/-- The group of tabs that a toolbar stands for. -/
def tabGroupOf (found : Position) : Element :=
  .ofFields
    { CallShape.labelled .tabGroup (found.captured "variable") with
      variableName := found.captured "variable"
      tabs := some (literalTexts (found.captured "tabs")) }

section

variable {line code : Text} {rest : List Text} {found head : Position} {place : Nat} {block : Block}

/-- The body of the switch decides with which lines recovery goes on. -/
theorem recoverLines_of_tabGroup (hcall : toolbarCall.match? (codeOf line) = some found)
    (hcode : firstCode? rest = some (place, code))
    (hguard : (guard "switch" (found.captured "variable")).match? code = some head)
    (hblock : findBlock? (rest.drop place) 0 = some block) :
    let below := recoverLines (if isEmptySwitch (block.bodyLines (rest.drop place)) then
      (rest.drop place).drop (block.endLine + 1) else rest)
    recoverLines (line :: rest) = ⟨tabGroupOf found :: below.elements, below.warnings⟩ := by
  have haccepts : (guard "switch" (found.captured "variable")).accepts code := by
    rw [accepts, hguard]
    rfl
  have hstep : tabGroup? line rest = some (.take (tabGroupOf found) []
      (if isEmptySwitch (block.bodyLines (rest.drop place)) then
        (rest.drop place).drop (block.endLine + 1) else rest)) := by
    simp only [tabGroup?, hcall, Option.map_some, guarded?, hcode, haccepts, if_true, hblock]
    rfl
  exact recoverLines_of_take (next_of_tabGroup? hstep)

/-- A switch on a variable is kept as a statement that takes all lines of its block. -/
theorem recoverLines_of_switchGuard {name : Text} (hname : ∀ c ∈ name, isWord c)
    (hcode : firstCode? rest = some (place, code))
    (hguard : (guard "switch" name).match? code = some head)
    (hopens : opensBlock head.after (rest.drop (place + 1)))
    (hblock : findBlock? (rest.drop place) 0 = some block) :
    ∃ size kept, block.endLine < size ∧
      recoverLines rest =
        ⟨.ofCode kept :: (recoverLines ((rest.drop place).drop size)).elements,
          (recoverLines ((rest.drop place).drop size)).warnings⟩ ∧
      solid kept = solid (Text.unlines ((rest.drop place).take size)) := by
  obtain ⟨first, hfirst, rfl⟩ := drop_of_firstCode? hcode
  obtain ⟨front, hfront, hline⟩ := exists_guard hguard
  have hplain : front.all isPlain := hfront.all_isPlain (by decide) hname
  obtain ⟨blanks, second, third, rfl, hblank, -⟩ := hfront.shape
  rw [recoverLines_of_firstCode? hcode]
  rw [hfirst] at hblock ⊢
  have hend : block.endLine ≤ extent (first :: rest.drop (place + 1)) :=
    endLine_le_extent hline hplain hopens hblock
  have hswitch : codeOf first = "switch".toList ++ (blanks ++ '(' ::
      (second ++ (name ++ (third ++ ')' :: head.after)))) := by
    rw [hline]
    simp
  exact ⟨extent (first :: rest.drop (place + 1)) + 1, _, Nat.lt_succ_of_le hend,
    recoverLines_switch hswitch (List.all_eq_true.mp hblank), Text.solid_dedent _⟩

/-- A switch behind a group of tabs belongs to the group exactly when every line of its body
is without code or begins with a label or a `break`.  Where nothing stands behind those, the
body has no other code.  Any other switch is kept with all lines of its block. -/
theorem recoverLines_tabSwitch (hcall : toolbarCall.match? (codeOf line) = some found)
    (hcode : firstCode? rest = some (place, code))
    (hguard : (guard "switch" (found.captured "variable")).match? code = some head)
    (hopens : opensBlock head.after (rest.drop (place + 1)))
    (hblock : findBlock? (rest.drop place) 0 = some block) :
    let switch := rest.drop place
    let body := block.bodyLines switch
    ((∀ line ∈ body, BeginsIdle line) ∧
      recoverLines (line :: rest) =
        ⟨tabGroupOf found :: (recoverLines (switch.drop (block.endLine + 1))).elements,
          (recoverLines (switch.drop (block.endLine + 1))).warnings⟩ ∧
      ((∀ line ∈ body, HoldsOne line) → OnlyIdle (codeText .code body))) ∨
    (¬ (∀ line ∈ body, BeginsIdle line) ∧ ∃ size kept, block.endLine < size ∧
      recoverLines (line :: rest) =
        ⟨tabGroupOf found :: .ofCode kept :: (recoverLines (switch.drop size)).elements,
          (recoverLines (switch.drop size)).warnings⟩ ∧
      solid kept = solid (Text.unlines (switch.take size))) := by
  intro switch body
  have hrecover := recoverLines_of_tabGroup hcall hcode hguard hblock
  by_cases hbegins : ∀ line ∈ body, BeginsIdle line
  · rw [if_pos (isEmptySwitch_iff.mpr hbegins)] at hrecover
    exact .inl ⟨hbegins, hrecover, onlyIdle_codeText hbegins⟩
  · rw [if_neg (mt isEmptySwitch_iff.mp hbegins)] at hrecover
    obtain ⟨size, kept, hsize, hkept, hsolid⟩ := recoverLines_of_switchGuard
      (capturesWord_toolbarCall.of_match? hcall).2 hcode hguard hopens hblock
    rw [hkept] at hrecover
    exact .inr ⟨hbegins, size, kept, hsize, hrecover, hsolid⟩

end

/-- A switch with its statements on lines of their own, behind a comment. -/
theorem recoverLines_tabSwitch_statements :
    let switch : List Text := ["switch (tab)", "\x7b", "    case 0:", "        DrawA();",
      "        break;", "\x7d"]
    let found : Position := ⟨some ';', [], [("tabs", " \"A\", \"B\" "), ("variable", "tab")]⟩
    toolbarCall.match?
        (codeOf "tab = GUILayout.Toolbar(tab, new string[] \x7b \"A\", \"B\" \x7d);") =
        some found ∧
      firstCode? ("// pages" :: switch) = some (1, "switch (tab)".toList) ∧
      (guard "switch" "tab").match? "switch (tab)" = some ⟨some ')', [], []⟩ ∧
      opensBlock [] (switch.drop 1) ∧ findBlock? switch 0 = some ⟨0, 1, 0, 5, 0⟩ ∧
      ∃ size kept, 5 < size ∧
        recoverLines ("tab = GUILayout.Toolbar(tab, new string[] \x7b \"A\", \"B\" \x7d);" ::
            "// pages" :: switch) =
          ⟨tabGroupOf found :: .ofCode kept :: (recoverLines (switch.drop size)).elements,
            (recoverLines (switch.drop size)).warnings⟩ ∧
        solid kept = solid (Text.unlines (switch.take size)) := by
  intro switch found
  have hcall : toolbarCall.match?
      (codeOf "tab = GUILayout.Toolbar(tab, new string[] \x7b \"A\", \"B\" \x7d);") =
      some ⟨some ';', [], [("tabs", " \"A\", \"B\" "), ("variable", "tab")]⟩ := by cbv
  have hcode : firstCode? ("// pages" :: switch) = some (1, "switch (tab)".toList) := by
    decide +kernel
  have hguard : (guard "switch" "tab").match? "switch (tab)" = some ⟨some ')', [], []⟩ := by cbv
  have hopens : opensBlock [] (switch.drop 1) := by decide +kernel
  have hblock : findBlock? switch 0 = some ⟨0, 1, 0, 5, 0⟩ := by decide +kernel
  have hbusy : ¬ isEmptySwitch (Block.bodyLines ⟨0, 1, 0, 5, 0⟩ switch) := by decide +kernel
  refine ⟨hcall, hcode, hguard, hopens, hblock, ?_⟩
  rcases recoverLines_tabSwitch hcall hcode hguard hopens hblock with ⟨hidle, -⟩ | ⟨-, hkept⟩
  · exact absurd (isEmptySwitch_iff.mpr hidle) hbusy
  · exact hkept

/-- Code behind the labels goes unnoticed: the switch is lost. -/
theorem recover_oneLineCases :
    recover ("tab = GUILayout.Toolbar(tab, new string[] \x7b \"A\", \"B\" \x7d);\n" ++
      ("switch (tab)\n\x7b\n    case 0: DrawA(); break;\n" ++
        "    case 1: DrawB(); break;\n\x7d")) =
      ⟨[.ofFields { widget := .tabGroup, label := "tab", variableName := "tab",
                    tabs := some ["A", "B"] }], []⟩ := by
  have hlines : Text.lines ("tab = GUILayout.Toolbar(tab, new string[] \x7b \"A\", \"B\" \x7d);\n" ++
      ("switch (tab)\n\x7b\n    case 0: DrawA(); break;\n" ++
        "    case 1: DrawB(); break;\n\x7d")) =
      ("tab = GUILayout.Toolbar(tab, new string[] \x7b \"A\", \"B\" \x7d);" :: "switch (tab)" ::
        ["\x7b", "    case 0: DrawA(); break;", "    case 1: DrawB(); break;", "\x7d"] :
          List Text) := by
    decide +kernel
  have hcall : toolbarCall.match?
      (codeOf "tab = GUILayout.Toolbar(tab, new string[] \x7b \"A\", \"B\" \x7d);") =
      some ⟨some ';', [], [("tabs", " \"A\", \"B\" "), ("variable", "tab")]⟩ := by cbv
  have hguard : (guard "switch" "tab").match? "switch (tab)" = some ⟨some ')', [], []⟩ := by cbv
  have hcode : firstCode? ("switch (tab)" :: ["\x7b", "    case 0: DrawA(); break;",
      "    case 1: DrawB(); break;", "\x7d"] : List Text) = some (0, "switch (tab)".toList) := by
    decide +kernel
  have hblock : findBlock? ("switch (tab)" :: ["\x7b", "    case 0: DrawA(); break;",
      "    case 1: DrawB(); break;", "\x7d"] : List Text) 0 = some ⟨0, 1, 0, 4, 0⟩ := by
    decide +kernel
  have hidle : isEmptySwitch (Block.bodyLines ⟨0, 1, 0, 4, 0⟩ ("switch (tab)" ::
      ["\x7b", "    case 0: DrawA(); break;", "    case 1: DrawB(); break;", "\x7d"] :
        List Text)) := by decide +kernel
  have hgroup : tabGroupOf ⟨some ';', [], [("tabs", " \"A\", \"B\" "), ("variable", "tab")]⟩ =
      .ofFields { widget := .tabGroup, label := "tab", variableName := "tab",
                  tabs := some ["A", "B"] } := by decide +kernel
  have hrecover := recoverLines_of_tabGroup hcall hcode hguard hblock
  rw [List.drop_zero, if_pos hidle, hgroup, List.drop_of_length_le (by decide),
    recoverLines_nil] at hrecover
  rw [recover, hlines, hrecover]

end EditorScript
