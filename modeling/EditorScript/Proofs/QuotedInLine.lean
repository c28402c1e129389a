import EditorScript.Proofs.ButtonRoundTrip
import EditorScript.Proofs.LiteralScan
import EditorScript.Proofs.SolidCode
import EditorScript.Proofs.StyleLook

/-!
# Literals between code

A written literal is no code, whatever its text holds, and the code around it is read as if it
stood alone.  There is one place where this fails: right behind a verbatim literal the opening
quote is taken for the second half of a doubled one.
-/

namespace EditorScript

variable {mode : Mode} {passed shown text front : Text}

/-! ## Context of a piece -/

theorem codeColumnsFrom_cons (mode : Mode) (passed : Text) (column : Nat) (c : Char) (rest : Text) :
    codeColumnsFrom mode passed column (c :: rest) =
      (if mode = .code ∧ mode.next passed c rest.head? = .code then [(column, c)] else []) ++
        codeColumnsFrom (mode.next passed c rest.head?) (c :: passed) (column + 1) rest := by
  rw [codeColumnsFrom]
  split <;> rfl

/-- Behind another piece the columns of a piece are moved by its place. -/
theorem codeColumnsFrom_add (mode : Mode) (passed text : Text) (count column : Nat) :
    codeColumnsFrom mode passed (count + column) text =
      (codeColumnsFrom mode passed column text).map fun (i, c) => (count + i, c) := by
  induction text generalizing mode passed column with
  | nil => rfl
  | cons c rest ih =>
    rw [codeColumnsFrom, codeColumnsFrom, Nat.add_assoc, ih]
    split <;> rfl

/-- Of what stands in front of a piece only an `@` among the nearest two characters counts. -/
theorem codeColumnsFrom_passed (htwo : (passed.take 2).contains '@' = (shown.take 2).contains '@')
    (hone : (passed.head? == some '@') = (shown.head? == some '@')) (mode : Mode) (column : Nat)
    (text : Text) : codeColumnsFrom mode passed column text =
      codeColumnsFrom mode shown column text := by
  induction text generalizing mode passed shown column with
  | nil => rfl
  | cons c rest ih =>
    have hnext := @Mode.next_passed passed shown c (fun _ => htwo) mode rest.head?
    have hcons : ((c :: passed).take 2).contains '@' = ((c :: shown).take 2).contains '@' := by
      rw [contains_take_two, contains_take_two, hone]
    have hrest := @ih (c :: passed) (c :: shown) hcons rfl (mode.next passed c rest.head?)
      (column + 1)
    rw [codeColumnsFrom, codeColumnsFrom, hnext, hrest]

/-- Behind a character that is no `@`, a piece that does not begin with a quote is read as if it
stood at the start of a line. -/
theorem codeColumnsFrom_code_eq (hfirst : text.head? ≠ some '"') (hpassed : passed.head? ≠ some '@')
    (column : Nat) :
    codeColumnsFrom .code passed column text = codeColumnsFrom .code [] column text := by
  cases text with
  | nil => rfl
  | cons c rest =>
    have hc : c ≠ '"' := fun heq => hfirst (by rw [heq]; rfl)
    have hnext := @Mode.next_passed passed [] c (fun heq => absurd heq hc) .code rest.head?
    have hcons : ((c :: passed).take 2).contains '@' = ([c].take 2).contains '@' := by
      have hhead : (passed.head? == some '@') = false := by simpa using hpassed
      rw [contains_take_two, contains_take_two, hhead]
      rfl
    rw [codeColumnsFrom, codeColumnsFrom, hnext, codeColumnsFrom_passed hcons rfl]

/-- Outside of verbatim literals a quote that follows is as good as the end of the line. -/
theorem Mode.next_before_quote (h : mode ≠ .verbatim) (passed : Text) (c : Char) :
    mode.next passed c (some '"') = mode.next passed c none := by
  cases mode <;> simp_all [next]

/-- The mode in front of a quote behind a piece that ends in code mode: right behind a verbatim
literal the quote is the second half of a doubled one. -/
def modeBeforeQuote (mode : Mode) (passed piece : Text) : Mode :=
  if modeAt mode passed piece (piece.length - 1) = .verbatim then .verbatimQuote else .code

/-- In front of a quote a piece that ends in code mode has the same code as alone. -/
theorem codeColumnsFrom_append_quote (hcode : modeAfter mode passed front = .code) (column : Nat)
    (rest : Text) :
    codeColumnsFrom mode passed column (front ++ '"' :: rest) =
      codeColumnsFrom mode passed column front ++
        codeColumnsFrom (modeBeforeQuote mode passed front) (front.reverse ++ passed)
          (column + front.length) ('"' :: rest) := by
  induction front generalizing mode passed column with
  | nil =>
    obtain rfl : mode = .code := hcode
    rfl
  | cons c others ih =>
    rw [modeAfter] at hcode
    cases others with
    | nil =>
      have hend : mode.next passed c none = .code := hcode
      by_cases hverbatim : mode = .verbatim
      · subst hverbatim
        have hquote : c = '"' := by
          by_contra hne
          simp [Mode.next, hne] at hend
        subst hquote
        simp [modeBeforeQuote, codeColumnsFrom, Mode.next]
      · have hnext := Mode.next_before_quote hverbatim passed c
        have hmode : modeBeforeQuote mode passed [c] = .code := if_neg (by simpa using hverbatim)
        rw [hmode, List.singleton_append, codeColumnsFrom_cons, codeColumnsFrom_cons mode _ _ _ [],
          List.head?_cons, hnext, List.head?_nil, hend, List.append_assoc]
        rfl
    | cons d others =>
      have hhead : (d :: others ++ '"' :: rest).head? = (d :: others).head? := rfl
      have hmode : modeBeforeQuote mode passed (c :: d :: others) =
        modeBeforeQuote (mode.next passed c (some d)) (c :: passed) (d :: others) := rfl
      have hlength : column + (c :: d :: others).length = column + 1 + (d :: others).length := by
        rw [List.length_cons]
        omega
      rw [List.cons_append, codeColumnsFrom_cons, codeColumnsFrom_cons mode _ _ _ (d :: others),
        hhead, ih hcode, hmode, hlength, List.reverse_cons (a := c), List.append_assoc,
        List.append_assoc]
      rfl

/-! ## A literal between two pieces -/

/-- A code character that stands by a count of columns further right. -/
def CodeChar.right (count : Nat) (c : CodeChar) : CodeChar :=
  { c with column := count + c.column }

theorem codeChars_singleton (line : Text) :
    codeChars [line] 0 = (codeColumns .code line).map fun (column, c) => ⟨0, column, c⟩ :=
  List.append_nil _

/-- Whether the last character of a piece that ends in code is the quote that closes a verbatim
literal. -/
def EndsVerbatim (front : Text) : Prop :=
  modeAt .code [] front (front.length - 1) = .verbatim

instance (front : Text) : Decidable (EndsVerbatim front) :=
  inferInstanceAs (Decidable (modeAt .code [] front (front.length - 1) = .verbatim))

/-- Behind a piece that ends in code, but not with a verbatim literal, a literal is no code, and
what follows it is read like a line of its own. -/
theorem codeChars_quote_between {back : Text} (hcode : modeAfter .code [] front = .code)
    (hcalm : Calm front.reverse) (hopen : ¬ EndsVerbatim front)
    (hback : back.head? ≠ some '"') (content : Text) :
    codeChars [front ++ (quote content ++ back)] 0 =
      codeChars [front] 0 ++
        (codeChars [back] 0).map (·.right (front ++ quote content).length) := by
  have hcolumns : codeColumns .code (front ++ (quote content ++ back)) =
      codeColumns .code front ++ (codeColumns .code back).map fun (i, c) =>
        ((front ++ quote content).length + i, c) := by
    have hmode : modeBeforeQuote .code [] front = .code := if_neg hopen
    have hfront := codeColumnsFrom_append_quote hcode 0 (escape content ++ '"' :: back)
    have hshape : '"' :: (escape content ++ '"' :: back) = quote content ++ back := by
      simp [quote_eq]
    have hpassed : ((quote content).reverse ++ front.reverse).head? ≠ some '@' := by
      simp [quote_eq]
    rw [hmode, hshape, List.append_nil, codeColumnsFrom_quote hcalm,
      codeColumnsFrom_code_eq hback hpassed, Nat.zero_add, ← List.length_append] at hfront
    rw [codeColumns, hfront]
    exact congrArg _ (codeColumnsFrom_add .code [] back _ 0)
  rw [codeChars_singleton, codeChars_singleton, codeChars_singleton, hcolumns, List.map_append,
    List.map_map, List.map_map]
  rfl

/-- Right behind a verbatim literal a literal brings its text into the code. -/
theorem codeChars_quote_behind_verbatim (hcode : modeAfter .code [] front = .code)
    (hverbatim : EndsVerbatim front) :
    codeChars [front ++ (quote "\"\x7b" ++ [])] 0 =
      codeChars [front] 0 ++ [⟨0, front.length + 3, '\x7b'⟩] := by
  have hmode : modeBeforeQuote .code [] front = .verbatimQuote := if_pos hverbatim
  have hfront := codeColumnsFrom_append_quote hcode 0 "\\\"\x7b\"".toList
  rw [hmode] at hfront
  have hline : front ++ (quote "\"\x7b" ++ []) = front ++ '"' :: "\\\"\x7b\"".toList :=
    congrArg (front ++ ·) (by decide)
  rw [codeChars_singleton, codeChars_singleton, hline, codeColumns, hfront, List.map_append,
    codeColumns]
  congr 1
  simp [codeColumnsFrom, Mode.next]

/-- Quoting is undone by matching and reading, and a literal behind code is no code and leaves the
code around it alone, exactly if it does not stand right behind a verbatim literal. -/
theorem quote_between_code : (∀ text,
      Unbroken (quote text) ∧ ∀ name, ∃ found,
        (Pattern.literal name).matchAll? (quote text) = some found ∧
          unescape (found.captured name) = text) ∧
    ∀ front, modeAfter .code [] front = .code → Calm front.reverse →
      ((∀ content back, back.head? ≠ some '"' →
        codeChars [front ++ (quote content ++ back)] 0 =
          codeChars [front] 0 ++
            (codeChars [back] 0).map (·.right (front ++ quote content).length)) ↔
      ¬ EndsVerbatim front) := by
  constructor
  · refine fun text => ⟨unbroken_quote text, fun name => ⟨_, matchAll?_quote name text, ?_⟩⟩
    have hcaptured :
        Position.captured ⟨some '"', [], [(name, escape text)]⟩ name = escape text := by
      simp [Position.captured, Position.captured?]
    rw [hcaptured, unescape_escape]
  · intro front hcode hcalm
    constructor
    · intro hapart hverbatim
      have hbrace := codeChars_quote_behind_verbatim hcode hverbatim
      have hnone : codeChars [[]] 0 = [] := rfl
      rw [hapart _ [] (by decide), hnone] at hbrace
      exact absurd (List.append_cancel_left hbrace) (List.cons_ne_nil _ _).symm
    · exact fun hopen content back hback =>
        codeChars_quote_between hcode hcalm hopen hback content

/-- A label with a comment, a brace, a quote and a backslash in a call. -/
theorem quote_between_code_label :
    (modeAfter .code [] "Label(" = .code ∧ Calm ("Label(" : Text).reverse ∧
      ¬ EndsVerbatim "Label(") ∧
    codeChars ["Label(".toList ++ (quote "// \x7b\"\\" ++ ");".toList)] 0 =
      codeChars ["Label("] 0 ++ (codeChars [");"] 0).map (·.right 16) := by
  have hcode : modeAfter .code [] "Label(" = .code := by decide
  have hcalm : Calm ("Label(" : Text).reverse := by decide
  have hopen : ¬ EndsVerbatim "Label(" := by decide
  exact ⟨⟨hcode, hcalm, hopen⟩, (quote_between_code.2 _ hcode hcalm).mpr hopen _ _ (by decide)⟩

/-- The first quote of a literal right behind a verbatim one doubles the last quote of that one. -/
theorem codeChars_quote_doubled :
    modeAfter .code [] "x = @\"a\"" = .code ∧ Calm ("x = @\"a\"" : Text).reverse ∧
      (";" : Text).head? ≠ some '"' ∧
      codeChars ["x = @\"a\"".toList ++ (quote "\"\x7b" ++ ";".toList)] 0 ≠
        codeChars ["x = @\"a\""] 0 ++
          (codeChars [";"] 0).map (·.right ("x = @\"a\"".toList ++ quote "\"\x7b").length) := by
  decide

end EditorScript
