import EditorScript.Proofs.PatternRun
import EditorScript.Proofs.Sketch
import EditorScript.Recovery.Call

/-!
# Reading calls back

The shapes of calls on the statements that are written for them.  What all of
them share, a variable and the value that it gets from a call with a label, is
read once; what follows is left to the shape's own tail.
-/

namespace EditorScript

/-- A character of an ASCII name. -/
def isNameChar (c : Char) : Bool :=
  c.isAlphanum || c == '_'

/-- An ASCII name of at least one character. -/
def isName (name : Text) : Bool :=
  !name.isEmpty && name.all isNameChar

/-- The characters of ASCII names. -/
def nameChars : List Char :=
  ['a', 'b', 'c', 'd', 'e', 'f', 'g', 'h', 'i', 'j', 'k', 'l', 'm', 'n', 'o', 'p', 'q', 'r', 's',
    't', 'u', 'v', 'w', 'x', 'y', 'z', 'A', 'B', 'C', 'D', 'E', 'F', 'G', 'H', 'I', 'J', 'K', 'L',
    'M', 'N', 'O', 'P', 'Q', 'R', 'S', 'T', 'U', 'V', 'W', 'X', 'Y', 'Z', '0', '1', '2', '3', '4',
    '5', '6', '7', '8', '9', '_']

theorem toNat_lt_of_isNameChar {c : Char} (h : isNameChar c) : c.toNat < 128 := by
  simp only [isNameChar, Bool.or_eq_true, beq_iff_eq] at h
  rcases h with h | rfl
  · exact isAscii_of_isAlphanum h
  · decide

private theorem mem_nameChars_of_lt : ∀ code : Fin 128,
    isNameChar (Char.ofNat code) → Char.ofNat code ∈ nameChars := by
  decide

theorem mem_nameChars {c : Char} (h : isNameChar c) : c ∈ nameChars := by
  have hmem := mem_nameChars_of_lt ⟨c.toNat, toNat_lt_of_isNameChar h⟩
  rw [Char.ofNat_toNat] at hmem
  exact hmem h

theorem isWord_of_isNameChar {c : Char} (h : isNameChar c) : isWord c := by
  rw [isWord_ascii (toNat_lt_of_isNameChar h)]
  exact h

theorem isBlank_of_isNameChar {c : Char} (h : isNameChar c) : isBlank c = false := by
  have hall : ∀ c ∈ nameChars, isBlank c = false :=
    Text.forall_mem_of_all (by decide)
  exact hall c (mem_nameChars h)

theorem isNameChar_of_isDigit {c : Char} (h : c.isDigit) : isNameChar c := by
  simp [isNameChar, Char.isAlphanum, h]

theorem ne_nil_of_isName {name : Text} (h : isName name) : name ≠ [] := by
  rintro rfl
  simp [isName] at h

theorem isNameChar_of_mem {name : Text} (h : isName name) {c : Char} (hc : c ∈ name) :
    isNameChar c := by
  simp only [isName, Bool.and_eq_true, List.all_eq_true] at h
  exact h.2 c hc

theorem isWord_of_mem {name : Text} (h : isName name) : ∀ c ∈ name, isWord c :=
  fun _ hc => isWord_of_isNameChar (isNameChar_of_mem h hc)

theorem Fits.name_append {sketch : Sketch} {text name : Text} (h : Fits sketch text)
    (hname : isName name) : Fits (.run nameChars :: sketch) (name ++ text) :=
  h.run_append fun _ hc => mem_nameChars (isNameChar_of_mem hname hc)

namespace Pattern

variable {β : Type} {next : Position → Option β} {good : β → Prop} {rest : Text}
  {captures : List (String × Text)}

/-- A name is captured as a word. -/
theorem run_capture_word {key : String} {name : Text} (hname : isName name)
    (hrest : ∀ c ∈ rest.head?, isWord c = false)
    (h : ∀ before, Gives (next ⟨before, rest, (key, name) :: captures⟩) good)
    (before : Option Char) :
    Gives ((capture key word).run next ⟨before, name ++ rest, captures⟩) good :=
  run_capture_many1 (ne_nil_of_isName hname) (isWord_of_mem hname) hrest h before

/-- A comma and a blank separate arguments. -/
theorem run_comma (hrest : ∀ c ∈ rest.head?, isBlank c = false)
    (h : ∀ before, Gives (next ⟨before, rest, captures⟩) good) (before : Option Char) :
    Gives (comma.run next ⟨before, ',' :: ' ' :: rest, captures⟩) good := by
  have hcomma : ∀ text : Text, ',' :: text = ",".toList ++ text := fun _ => rfl
  simp only [comma, run_append]
  refine run_blanks_none (by rintro c ⟨⟩; decide) (fun before => ?_) before
  rw [hcomma]
  exact run_text (fun before => run_blanks_space hrest h before) before

/-- An opening parenthesis right behind a call's name. -/
theorem run_parenthesis (hrest : ∀ c ∈ rest.head?, isBlank c = false)
    (h : ∀ before, Gives (next ⟨before, rest, captures⟩) good) (before : Option Char) :
    Gives (blanks.run ((text "(".toList).run (blanks.run next))
      ⟨before, '(' :: rest, captures⟩) good := by
  have hparenthesis : '(' :: rest = "(".toList ++ rest := rfl
  refine run_blanks_none (by rintro c ⟨⟩; decide) (fun before => ?_) before
  rw [hparenthesis]
  exact run_text (fun before => run_blanks_none hrest h before) before

/-- A call's name and its opening parenthesis. -/
theorem run_opening {call : Text} (hrest : ∀ c ∈ rest.head?, isBlank c = false)
    (h : ∀ before, Gives (next ⟨before, rest, captures⟩) good) (before : Option Char) :
    Gives ((opening (text call)).run next ⟨before, call ++ '(' :: rest, captures⟩) good := by
  simp only [opening, run_append]
  exact run_text (fun before => run_parenthesis hrest h before) before

/-- What fails behind an opening parenthesis fails on the call. -/
theorem run_opening_none {call : Text} (hrest : ∀ c ∈ rest.head?, isBlank c = false)
    (h : ∀ before, next ⟨before, rest, captures⟩ = none) (before : Option Char) :
    (opening (text call)).run next ⟨before, call ++ '(' :: rest, captures⟩ = none := by
  have hparenthesis : '(' :: rest = "(".toList ++ rest := rfl
  simp only [opening, run_append]
  refine run_text_none (fun before => ?_) before
  rw [run_blanks_eq (by rintro c ⟨⟩; decide), hparenthesis]
  refine run_text_none (fun before => ?_) before
  rw [run_blanks_eq hrest]
  exact h before

end Pattern

open Pattern

namespace CallShape

variable {β : Type} {next : Position → Option β} {good : β → Prop} {rest : Text}
  {captures : List (String × Text)}

/-- A variable that gets a value, named by any word. -/
theorem run_assigned_word {name : Text} (hne : name ≠ []) (hword : ∀ c ∈ name, isWord c)
    (hrest : ∀ c ∈ rest.head?, isBlank c = false)
    (h : ∀ before, Gives (next ⟨before, rest, [("variable", name)]⟩) good) :
    Gives (assigned.run next ⟨none, name ++ (" = ".toList ++ rest), []⟩) good := by
  have hequals : ∀ text : Text, " = ".toList ++ text = ' ' :: ("=".toList ++ ' ' :: text) :=
    fun _ => rfl
  simp only [assigned, run_append, run_start]
  rw [hequals]
  refine run_capture_many1 hne hword (by rintro c ⟨⟩; decide) (fun before => ?_) none
  refine run_blanks_space (by rintro c ⟨⟩; decide) (fun before => ?_) before
  exact run_text (fun before => run_blanks_space hrest h before) before

/-- A variable that gets a value. -/
theorem run_assigned {name : Text} (hname : isName name)
    (hrest : ∀ c ∈ rest.head?, isBlank c = false)
    (h : ∀ before, Gives (next ⟨before, rest, [("variable", name)]⟩) good) :
    Gives (assigned.run next ⟨none, name ++ (" = ".toList ++ rest), []⟩) good :=
  run_assigned_word (ne_nil_of_isName hname) (isWord_of_mem hname) hrest h

/-- The class whose functions lay out what they draw. -/
theorem run_editorGui (h : ∀ before, Gives (next ⟨before, rest, captures⟩) good)
    (before : Option Char) :
    Gives (editorGui.run next ⟨before, "EditorGUILayout".toList ++ rest, captures⟩) good := by
  have hlayout : "EditorGUILayout".toList = "EditorGUI".toList ++ "Layout".toList := by decide
  rw [hlayout, List.append_assoc]
  simp only [editorGui, run_append]
  refine run_text (fun before => ?_) before
  exact run_opt (run_text h before)

/-- A label in front of other arguments. -/
theorem run_labelArgument {label : Text} (hrest : ∀ c ∈ rest.head?, isBlank c = false)
    (h : ∀ before, Gives (next ⟨before, rest, ("label", escape label) :: captures⟩) good)
    (before : Option Char) :
    Gives (labelArgument.run next ⟨before, quote label ++ ',' :: ' ' :: rest, captures⟩)
      good := by
  refine run_opt ?_
  rw [run_append, run_literal]
  exact run_comma hrest h _

/-- A statement that gives a variable its new value from a call with a label. -/
def valueStatement (call : String) (name label rest : Text) : Text :=
  name ++ (" = ".toList ++ ("EditorGUILayout".toList ++ (".".toList ++ (call.toList ++
    '(' :: (quote label ++ ',' :: ' ' :: (name ++ rest))))))

theorem head?_name_append {name : Text} (hname : isName name) (rest : Text) :
    ∀ c ∈ (name ++ rest).head?, isBlank c = false := by
  obtain ⟨first, others, rfl⟩ := List.exists_cons_of_ne_nil (ne_nil_of_isName hname)
  rintro c ⟨⟩
  exact isBlank_of_isNameChar (isNameChar_of_mem hname List.mem_cons_self)

/-- Of such a statement only what follows the variable is left to the shape's tail. -/
theorem run_valueCall {call : String} {tail : Pattern} {name label : Text} (hname : isName name)
    (h : ∀ before, Gives (tail.run next
      ⟨before, rest, [("label", escape label), ("variable", name)]⟩) good) :
    Gives ((valueCall call tail).run next ⟨none, valueStatement call name label rest, []⟩)
      good := by
  have hquote : ∀ tail : Text, ∀ c ∈ (quote label ++ tail).head?, isBlank c = false := by
    rintro tail c ⟨⟩
    decide
  simp only [valueCall, run_append, valueStatement]
  refine run_assigned hname (by rintro c ⟨⟩; decide) (fun before => ?_)
  refine run_editorGui (fun before => ?_) before
  refine run_text (fun before => ?_) before
  refine run_opening (hquote _) (fun before => ?_) before
  refine run_labelArgument (head?_name_append hname _) (fun before => ?_) before
  exact run_same rfl h before

end CallShape

end EditorScript
