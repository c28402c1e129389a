import EditorScript.Proofs.MemberSteps
import EditorScript.Proofs.StoppedSearch
import EditorScript.Proofs.WindowOutline

/-!
# The generated members of a window

A window brings along the method that opens it and the one that draws its elements.
The first is told from a method written by hand by its name and by its body, which
does nothing but open the window; the other gives the body that is drawn.
-/

namespace EditorScript

open Pattern

namespace Pattern

variable {β : Type} {next : Position → Option β} {good : β → Prop} {rest : Text}
  {captures : List (String × Text)}

/-- A run of a class that gives its last character back. -/
theorem run_many_last {accepts : Char → Bool} {content : Text} {last : Char}
    (hcontent : ∀ c ∈ content, accepts c) (hlast : accepts last)
    (hrest : ∀ c ∈ rest.head?, accepts c = false)
    (hnone : ∀ before, next ⟨before, rest, captures⟩ = none)
    (h : ∀ before, Gives (next ⟨before, last :: rest, captures⟩) good) (before : Option Char) :
    Gives ((many (one accepts)).run next ⟨before, content ++ last :: rest, captures⟩) good := by
  have hstop : ∀ count before, rounds true (fun following place => (one accepts).run following place)
      next count ⟨before, rest, captures⟩ = none := by
    intro count before
    cases count with
    | zero => exact hnone before
    | succ count =>
      rw [rounds, if_pos rfl, run_one_of_not hrest, Option.none_or]
      exact hnone before
  have hrounds : ∀ {content : Text}, (∀ c ∈ content, accepts c) → ∀ count before,
      Gives (rounds true (fun following place => (one accepts).run following place) next count
        ⟨before, content ++ last :: rest, captures⟩) good ∨ count < content.length := by
    intro content hcontent
    induction content with
    | nil =>
      intro count before
      left
      cases count with
      | zero => exact h before
      | succ count =>
        rw [rounds, if_pos rfl, List.nil_append, run_one hlast, hstop, Option.none_or]
        exact h before
    | cons c others ih =>
      rw [List.forall_mem_cons] at hcontent
      intro count before
      cases count with
      | zero => exact .inr (Nat.succ_pos _)
      | succ count =>
        rw [rounds, if_pos rfl, List.cons_append, run_one hcontent.1]
        rcases ih hcontent.2 count (some c) with hgives | hlt
        · exact .inl (hgives.or _)
        · exact .inr (Nat.succ_lt_succ hlt)
  refine (hrounds hcontent _ before).resolve_right ?_
  simp

/-- A captured run of a class, which may be empty. -/
theorem run_capture_many {name : String} {accepts : Char → Bool} {content : Text}
    (hcontent : ∀ c ∈ content, accepts c) (hrest : ∀ c ∈ rest.head?, accepts c = false)
    (h : ∀ before, Gives (next ⟨before, rest, (name, content) :: captures⟩) good)
    (before : Option Char) :
    Gives ((capture name (many (one accepts))).run next ⟨before, content ++ rest, captures⟩)
      good := by
  rw [run_capture]
  refine run_many hcontent hrest (fun later => ?_) before
  dsimp only
  rw [upTo_append]
  exact h later

end Pattern

variable {className menuPath title : Text}

/-- The attribute that puts a window into the menu. -/
def menuLine (menuPath : Text) : Text :=
  "[MenuItem(" ++ (quote menuPath ++ ")]")

/-- The header of the method that opens a window. -/
def openerHeader : Text := "public static void ShowWindow()"

/-- The call that opens a window. -/
def openerCall (className title : Text) : Text :=
  "GetWindow<" ++ (className ++ (">(" ++ (quote title ++ ");")))

/-- The header of the method that draws the elements of a window. -/
def guiHeader : Text := "private void OnGUI()"

theorem statement_menuLine (menuPath : Text) : Statement (menuLine menuPath) := by
  have hend : Loose ")]".toList := loose_literal (by decide) (by decide)
  refine ⟨(neutral_literal (by decide)).append ((separable_quote _).append hend), ?_,
    "[MenuItem(" ++ (quote menuPath ++ ")"), ']', ?_, by decide, by decide⟩
  · rintro c ⟨⟩
    decide
  · have hshape : (")]" : Text) = ")" ++ [']'] := by decide
    rewrite [List.append_assoc, List.append_assoc]
    exact congrArg (fun behind => ("[MenuItem(" : Text) ++ (quote menuPath ++ behind)) hshape

theorem statement_openerCall (h : ∀ c ∈ className, isWord c) :
    Statement (openerCall className title) := by
  have hend : Loose ");".toList := loose_literal (by decide) (by decide)
  refine ⟨(neutral_literal (by decide)).append ((neutral_of_tame (tame_of_word h)).append
    ((neutral_literal (by decide)).append ((separable_quote _).append hend))), ?_,
    "GetWindow<" ++ (className ++ (">(" ++ (quote title ++ ")"))), ';', ?_, by decide, by decide⟩
  · rintro c ⟨⟩
    decide
  · have hshape : (");" : Text) = ")" ++ [';'] := by decide
    simp only [List.append_assoc]
    exact congrArg (fun behind =>
      ("GetWindow<" : Text) ++ (className ++ ((">(" : Text) ++ (quote title ++ behind)))) hshape

theorem statement_openerHeader : Statement openerHeader := by
  refine statement_of_tame (by decide) (by rintro c ⟨⟩; decide)
    ⟨"public static void ShowWindow(", ')', by decide, by decide⟩

theorem statement_guiHeader : Statement guiHeader := by
  refine statement_of_tame (by decide) (by rintro c ⟨⟩; decide)
    ⟨"private void OnGUI(", ')', by decide, by decide⟩

/-- A character of a plain text: of a word, a blank or a slash. -/
def isPlainTextChar (c : Char) : Bool :=
  isWord c || c == ' ' || c == '/'

theorem notMem_of_plainText {c : Char} {text : Text} (h : ∀ d ∈ text, isPlainTextChar d)
    (hc : isPlainTextChar c = false) : c ∉ text := fun hmem => by
  rw [h c hmem] at hc
  cases hc

/-- A plain text is quoted as it is. -/
theorem quote_of_plain {text : Text} (h : ∀ c ∈ text, isPlainTextChar c) :
    quote text = '"' :: (text ++ ['"']) := by
  have hescape : escape text = text := by
    induction text with
    | nil => rfl
    | cons c rest ih =>
      rw [List.forall_mem_cons] at h
      have hplain : escapeChar c = [c] := by
        unfold escapeChar
        split_ifs with hc
        all_goals first
          | rfl
          | (subst c; exact absurd h.1 (by decide))
      rw [escape_cons, hplain, ih h.2]
      rfl
  rw [quote_eq, hescape]

/-- A character that stands for itself in a literal stands there as often as in the text. -/
theorem mem_quote_iff {c : Char} (hc : c ∉ "\"\\nt\n\t".toList) {text : Text} :
    c ∈ quote text ↔ c ∈ text := by
  have hne : c ≠ '"' ∧ c ≠ '\\' ∧ c ≠ 'n' ∧ c ≠ 't' ∧ c ≠ '\n' ∧ c ≠ '\t' := by
    simpa [not_or] using hc
  have hescape : c ∈ escape text ↔ c ∈ text := by
    induction text with
    | nil => rfl
    | cons d rest ih =>
      rw [escape_cons, List.mem_append, ih, List.mem_cons]
      refine or_congr_left ?_
      unfold escapeChar
      split_ifs <;> simp_all
  rw [quote_eq, List.mem_cons, List.mem_append, hescape, List.mem_singleton]
  simp [hne.1]

/-- The front of a literal up to the first quote behind the one that opens it. -/
def untilQuote (text : Text) : Text :=
  (escape text).takeWhile (· != '"')

/-- A literal goes up to a quote, which may be an escaped one. -/
theorem exists_quote_eq (text : Text) :
    ∃ behind, quote text = '"' :: (untilQuote text ++ '"' :: behind) := by
  have hsplit := (@List.takeWhile_append_dropWhile _ (· != '"') (escape text)).symm
  rw [quote_eq]
  cases hdrop : (escape text).dropWhile (· != '"') with
  | nil =>
    rw [hdrop, List.append_nil] at hsplit
    exact ⟨[], by rw [untilQuote, ← hsplit]⟩
  | cons c behind =>
    have hc := List.head?_dropWhile_not (· != '"') (escape text)
    rw [hdrop] at hc hsplit
    obtain rfl : c = '"' := by simpa using hc
    exact ⟨behind ++ ['"'], congrArg ('"' :: ·) (by
      conv => lhs; rw [hsplit]
      rw [untilQuote, List.append_assoc, List.cons_append])⟩

theorem quote_notMem_untilQuote (text : Text) : '"' ∉ untilQuote text := fun hmem => by
  simpa using List.mem_takeWhile_imp hmem

/-- The literal of a text does not begin with a quote of its own. -/
theorem untilQuote_ne_nil {text : Text} (h : text ≠ []) : untilQuote text ≠ [] := by
  obtain ⟨c, rest, rfl⟩ := List.exists_cons_of_ne_nil h
  rw [untilQuote, escape_cons]
  unfold escapeChar
  split_ifs with h1 h2 h3 h4 <;> simp_all

/-- A plain text is read up to its end. -/
theorem untilQuote_of_plain {text : Text} (h : ∀ c ∈ text, isPlainTextChar c) :
    untilQuote text = text := by
  have hescape : escape text = text := by
    have hquote := quote_of_plain h
    rw [quote_eq] at hquote
    exact List.append_cancel_right (List.cons.inj hquote).2
  rw [untilQuote, hescape, List.takeWhile_eq_self_iff]
  intro c hc
  rw [bne_iff_ne]
  rintro rfl
  exact notMem_of_plainText h (by decide) hc

/-- The attribute of the menu is read as an attribute. -/
theorem accepts_menuLine (menuPath : Text) : attributeLine.accepts (menuLine menuPath) := by
  have hcontent : ∀ c ∈ ("MenuItem(" : Text) ++ (quote menuPath ++ [')']), (c != '\n') := by
    have hfront : ∀ c ∈ ("MenuItem(" : Text), (c != '\n') := by decide
    refine List.forall_mem_append.mpr ⟨hfront, List.forall_mem_append.mpr ⟨fun c hc => ?_, by decide⟩⟩
    rw [bne_iff_ne]
    rintro rfl
    exact newline_notMem_quote menuPath hc
  have hshape : menuLine menuPath = "[".toList ++
      ((("MenuItem(" : Text) ++ (quote menuPath ++ [')'])) ++ ']' :: []) := by
    have hfront : ("[MenuItem(" : Text) = "[" ++ "MenuItem(" := by decide
    have hback : (")]" : Text) = [')'] ++ [']'] := by decide
    have hassoc : ∀ a b c d e : Text,
        (a ++ b) ++ (c ++ (d ++ e)) = a ++ ((b ++ (c ++ d)) ++ e) := by
      intro a b c d e
      simp only [List.append_assoc]
    exact (congrArg₂ (fun front behind => front ++ (quote menuPath ++ behind)) hfront hback).trans
      (hassoc _ _ _ _ _)
  have hgives : Gives (attributeLine.match? (menuLine menuPath)) fun _ => True := by
    rw [hshape]
    simp only [match?, matchAt, attributeLine, run_append, run_start]
    refine run_text (fun before => ?_) none
    refine run_many_last hcontent (by decide) (by rintro c ⟨⟩) (fun before => rfl)
      (fun before => ?_) before
    exact ⟨_, rfl, trivial⟩
  obtain ⟨found, hfound, -⟩ := hgives
  rw [accepts, hfound]
  rfl

/-- The body of the generated method is told to open the window, unless the title holds a
semicolon. -/
theorem accepts_openerCall (h : IsVariableName className) (htitle : ';' ∉ title) :
    opensWindow.accepts (openerCall className title) := by
  obtain ⟨hne, hword⟩ := h
  have hdotted : ∀ c ∈ className, (isWord c || c == '.') := fun c hc => by rw [hword c hc]; rfl
  have hquote : ∀ c ∈ quote title, !(";".toList.contains c) := by
    intro c hc
    rw [Bool.not_eq_true', List.contains_eq_mem, decide_eq_false_iff_not]
    intro hmem
    obtain rfl := List.mem_singleton.mp hmem
    exact htitle ((mem_quote_iff (by decide)).mp hc)
  have hshape : openerCall className title = "GetWindow".toList ++ ("<".toList ++ (className ++
      (">".toList ++ ("(".toList ++ (quote title ++ ')' :: (";".toList ++ [])))))) := by
    have hfront : ("GetWindow<" : Text) = "GetWindow" ++ "<" := by decide
    have hmiddle : (">(" : Text) = ">" ++ "(" := by decide
    have hback : (");" : Text) = ')' :: (";".toList ++ []) := by decide
    have hassoc : ∀ a b c d e f : Text,
        (a ++ b) ++ (c ++ ((d ++ e) ++ f)) = a ++ (b ++ (c ++ (d ++ (e ++ f)))) := by
      intro a b c d e f
      simp only [List.append_assoc]
    have hpieces : openerCall className title = (("GetWindow" : Text) ++ "<") ++ (className ++
        (((">" : Text) ++ "(") ++ (quote title ++ ')' :: (";".toList ++ [])))) :=
      (congrFun (congrArg₂ (fun front middle behind => front ++ (className ++
        (middle ++ (quote title ++ behind)))) hfront hmiddle) _).trans
          (congrArg (fun behind => (("GetWindow" : Text) ++ "<") ++ (className ++
            (((">" : Text) ++ "(") ++ (quote title ++ behind)))) hback)
    exact hpieces.trans (hassoc _ _ _ _ _ _)
  have hgives : Gives (opensWindow.match? (openerCall className title)) fun _ => True := by
    rw [hshape]
    simp only [match?, matchAt, opensWindow, closing, run_append, run_start]
    rw [run_opt_none rfl]
    refine run_text (fun before => run_opt ?_) none
    refine run_text (fun before => ?_) before
    refine run_many1 hne hdotted (by rintro c ⟨⟩; decide) (fun before => ?_) before
    refine run_text (fun before => ?_) before
    refine run_blanks_none (by rintro c ⟨⟩; decide) (fun before => ?_) before
    refine run_text (fun before => ?_) before
    refine run_many_last hquote (by decide) (by rintro c ⟨⟩; decide) (fun before => ?_)
      (fun before => ?_) before
    · rfl
    · refine run_blanks_none (by rintro c ⟨⟩; decide) (fun before => ?_) before
      refine run_text (fun before => ?_) before
      refine run_blanks_none (by rintro c ⟨⟩; decide) (fun before => ?_) before
      refine run_text (fun before => ?_) before
      exact ⟨_, rfl, trivial⟩
  obtain ⟨found, hfound, -⟩ := hgives
  rw [accepts, hfound]
  rfl

/-- Up to its end the shape of such a body leaves no room for a semicolon. -/
theorem stopsAt_opensWindow : (start ++ opt ("var" ++ blanks1 ++ word ++ blanks ++ "=" ++ blanks) ++
    "GetWindow" ++ opt ("<" ++ dotted ++ ">") ++ blanks ++ "(" ++ many (noneOf ";")).StopsAt ';' := by
  have hblank : isBlank ';' = false := by decide
  have hword : isWord ';' = false := by decide
  have hvariable : (opt ("var" ++ blanks1 ++ word ++ blanks ++ "=" ++ blanks)).StopsAt ';' :=
    ⟨⟨⟨⟨⟨⟨stopsAt_text (by decide), stopsAt_many1 hblank⟩, stopsAt_many1 hword⟩,
      stopsAt_blanks hblank⟩, stopsAt_text (by decide)⟩, stopsAt_blanks hblank⟩, trivial⟩
  have htype : (opt ("<" ++ dotted ++ ">")).StopsAt ';' :=
    ⟨⟨⟨stopsAt_text (by decide), stopsAt_many1 (by decide)⟩, stopsAt_text (by decide)⟩, trivial⟩
  have harguments : (many (noneOf ";")).StopsAt ';' := by
    change (!";".toList.contains ';') = false
    decide
  exact ⟨⟨⟨⟨⟨⟨fun _ _ _ _ => rfl, hvariable⟩, stopsAt_text (by decide)⟩, htype⟩,
    stopsAt_blanks hblank⟩, stopsAt_text (by decide)⟩, harguments⟩

/-- A semicolon in the title hides that the body does nothing but open the window. -/
theorem not_accepts_openerCall (className : Text) (htitle : ';' ∈ title) :
    opensWindow.accepts (openerCall className title) = false := by
  have hshape : openerCall className title =
      ("GetWindow<" ++ (className ++ (">(" ++ (quote title ++ [')'])))) ++ [';'] := by
    have hback : (");" : Text) = [')'] ++ [';'] := by decide
    have hassoc : ∀ a b c d e f : Text,
        a ++ (b ++ (c ++ (d ++ (e ++ f)))) = (a ++ (b ++ (c ++ (d ++ e)))) ++ f := by
      intro a b c d e f
      simp only [List.append_assoc]
    exact (congrArg (fun behind => "GetWindow<".toList ++ (className ++ (">(".toList ++
      (quote title ++ behind)))) hback).trans (hassoc _ _ _ _ _ _)
  have hinside : ';' ∈ ("GetWindow<" ++ (className ++ (">(" ++ (quote title ++ [')']))) : Text) := by
    simp [mem_quote_iff, htitle]
  rw [← Bool.not_eq_true]
  intro haccepts
  obtain ⟨place, hplace⟩ := Option.isSome_iff_exists.mp haccepts
  obtain ⟨later, hreaches, -⟩ := run_sound hplace
  obtain ⟨_, hcall, hclosing⟩ := hreaches.append
  obtain ⟨front, hfront, hnone⟩ := hcall.exists_append_of_stopsAt stopsAt_opensWindow
  obtain ⟨left, right, hbehind, hleft, hright, hend⟩ := hclosing.closing_eq
  dsimp only at hfront
  have hsplit : openerCall className title =
      (front ++ (left ++ ')' :: right)) ++ ';' :: later.after := by
    rw [hfront, hbehind]
    simp only [List.append_assoc, List.cons_append]
  rw [hshape] at hsplit
  rcases hend with hend | hend
  · rw [hend] at hsplit
    rw [List.append_inj_left' hsplit rfl] at hinside
    have hblank : ∀ {text : Text}, (∀ c ∈ text, isBlank c) → ';' ∉ text := fun htext hmem =>
      absurd (htext _ hmem) (by decide)
    exact notMem_append hnone (notMem_append (hblank hleft)
      (List.not_mem_cons_of_ne_of_not_mem (by decide) (hblank hright))) hinside
  · have hlast := congrArg List.getLast? hsplit
    rw [hend, List.getLast?_concat, List.append_cons, List.getLast?_concat] at hlast
    exact absurd (Option.some.inj hlast) (by decide)

/-! ## What the two methods are told to be -/

theorem tame_marginLine {count : Nat} {line : Text} (h : line.all isTame) :
    (Text.spaces count ++ line).all isTame := by
  refine tame_append (List.all_eq_true.mpr fun c hc => ?_) h
  rw [(List.mem_replicate.mp hc).2]
  decide

/-- The lines of a member whose block stands between two lines of braces. -/
def blockLines (count : Nat) (header : Text) (inside : List Text) : List Text :=
  (Text.spaces count ++ header) :: (Text.spaces count ++ ['\x7b']) ::
    (inside ++ [Text.spaces count ++ ['\x7d']])

variable {header : Text} {inside behind pending : List Text} {members : List Member}
  {guiBody? : Option (List Text)} {count : Nat}

/-- The block of such a member opens on the second line, ends on the last one and has as its
body what stands between the braces. -/
theorem findBlock?_blockLines (hheader : BlockHeader header) (hinside : Nests 0 inside 0)
    (count : Nat) :
    ∃ block, findBlock? (blockLines count header inside) 0 = some block ∧ block.openLine = 1 ∧
      block.endLine + 1 = (blockLines count header inside).length ∧
        block.bodyLines (blockLines count header inside) = inside := by
  have hlines : blockLines count header inside = [] ++ (Text.spaces count ++ header) ::
      (Text.spaces count ++ ['\x7b']) :: (inside ++ (Text.spaces count ++ ['\x7d']) :: []) := rfl
  refine ⟨_, findBlock?_between (hheader.margin count) hinside [] [] count, rfl, ?_,
    bodyLines_between (Text.spaces count ++ header) [] inside [] count⟩
  rw [hlines]
  simp only [List.length_append, List.length_cons, List.length_nil]
  omega

theorem body_blockLines (hheader : header.all isTame) (hinside : Nests 0 inside 0) :
    (findBlock? (blockLines count header inside) 0).map
      (fun block => block.bodyLines (blockLines count header inside)) = some inside := by
  obtain ⟨block, hfound, -, -, hbody⟩ :=
    findBlock?_blockLines (blockHeader_of_tame hheader) hinside count
  rw [hfound, Option.map_some, hbody]

/-- Where such a member ends. -/
theorem memberEnd_blockLines (hheader : header.all isTame) (hsemicolon : ';' ∉ header)
    (hinside : Nests 0 inside 0) (hbehind : StartsAnew (codeText .code behind)) :
    memberEnd (blockLines count header inside ++ behind) 0
      (blockLines count header inside ++ behind).length =
        (blockLines count header inside).length - 1 := by
  have hspaces : ';' ∉ Text.spaces count ++ header := by
    simp [Text.spaces, hsemicolon]
  exact (endsWithBlock_between (tame_marginLine hheader) hspaces hinside count).isMember.memberEnd_eq hbehind

/-- The method that opens a window is told to be generated, unless the title holds a
semicolon; then it is kept. -/
theorem classify_opener (hname : IsVariableName className) (title : Text) (inner : Nat)
    (drawn : Bool) (pending : List Text) :
    classify .editorWindow className drawn pending
      (blockLines count openerHeader [Text.spaces inner ++ openerCall className title]) =
        if ';' ∈ title then .kept .custom else .generated := by
  have hcode : codeOf ((blockLines count openerHeader
      [Text.spaces inner ++ openerCall className title]).headD []) = openerHeader :=
    statement_openerHeader.codeOf_eq count
  have htype : typeHeader.accepts openerHeader = false := by decide +kernel
  have hmethod : methodName? openerHeader = some "ShowWindow".toList := by decide +kernel
  have hcall := @statement_openerCall _ title hname.2
  have hbody := @body_blockLines openerHeader [Text.spaces inner ++ openerCall className title] count
    (by decide)
    (.of_neutral ((neutral_spaces inner).append hcall.neutral) 0)
  have htrim : (openerCall className title).trim = openerCall className title :=
    hcall.trim_margin 0
  have hlifecycle : lifecycleNames.contains "ShowWindow".toList = false := by decide
  rw [classify]
  dsimp only
  rw [hcode, htype, if_neg (by decide), hmethod]
  dsimp only
  rw [hbody, hlifecycle, if_neg (by decide)]
  dsimp only
  have hgui : ScriptKind.guiMethodName? .editorWindow ≠ some "ShowWindow".toList := by decide
  rw [if_neg fun h => hgui h.1, isGenerated]
  rw [List.map_cons, List.map_nil, Text.join_singleton, hcall.codeOf_eq, htrim]
  by_cases htitle : ';' ∈ title
  · rw [not_accepts_openerCall className htitle, if_pos htitle]
    rfl
  · rw [accepts_openerCall hname htitle, if_neg htitle]
    rfl

/-- The drawing method gives its body. -/
theorem classify_gui (hinside : Nests 0 inside 0) (pending : List Text) :
    classify .editorWindow className false pending (blockLines count guiHeader inside) =
      .gui inside := by
  have hcode : codeOf ((blockLines count guiHeader inside).headD []) = guiHeader :=
    statement_guiHeader.codeOf_eq count
  have htype : typeHeader.accepts guiHeader = false := by decide +kernel
  have hmethod : methodName? guiHeader = some "OnGUI".toList := by decide +kernel
  have hbody := @body_blockLines guiHeader _ count (by decide) hinside
  rw [classify]
  dsimp only
  rw [hcode, htype, if_neg (by decide), hmethod]
  dsimp only
  rw [hbody]
  dsimp only
  rw [if_pos (by decide)]

/-! ## Reading them -/

/-- The lines of the method that opens a window, with its attribute. -/
def openerLines (count inner : Nat) (menuPath className title : Text) : List Text :=
  (Text.spaces count ++ menuLine menuPath) ::
    blockLines count openerHeader [Text.spaces inner ++ openerCall className title]

/-- The method that opens a window is passed over, unless the title holds a semicolon;
then it is a member. -/
theorem membersOf_opener (hname : IsVariableName className) (title : Text) (inner : Nat)
    (hbehind : StartsAnew (codeText .code behind)) :
    membersOf .editorWindow className [] members guiBody?
      (openerLines count inner menuPath className title ++ behind) =
        membersOf .editorWindow className []
          (if ';' ∈ title then ⟨.custom, openerLines count inner menuPath className title⟩ :: members
            else members) guiBody? behind := by
  have hmenu := statement_menuLine menuPath
  have hmenuCode : codeOf (Text.spaces count ++ menuLine menuPath) = menuLine menuPath :=
    hmenu.codeOf_eq count
  have hmenuTrim : (Text.spaces count ++ menuLine menuPath).trim = menuLine menuPath :=
    hmenu.trim_margin count
  have hunmarked : menuLine menuPath ∉ generatedMarkers := by
    intro hmem
    have hfirst : ∀ marker ∈ generatedMarkers, marker.head? ≠ some '[' := by decide
    exact hfirst _ hmem rfl
  have hattribute : membersOf .editorWindow className [] members guiBody?
      (openerLines count inner menuPath className title ++ behind) =
        membersOf .editorWindow className [Text.spaces count ++ menuLine menuPath] members guiBody?
          (blockLines count openerHeader [Text.spaces inner ++ openerCall className title] ++
            behind) := by
    refine membersOf_attribute ?_ ?_ ?_ ?_
    · rw [hmenuCode]
      exact accepts_menuLine menuPath
    · rw [hmenuCode]
      exact hmenu.ne_nil
    · rw [hmenuTrim]
      rfl
    · rw [hmenuTrim]
      exact hunmarked
  have hcall := @statement_openerCall _ title hname.2
  have hstarts : StartsMember (Text.spaces count ++ openerHeader) :=
    statement_openerHeader.startsMember (by decide) (by decide) (by decide) count
  have hend := @memberEnd_blockLines openerHeader [Text.spaces inner ++ openerCall className title]
    _ count (by decide) (by decide)
    (.of_neutral ((neutral_spaces inner).append hcall.neutral) 0) hbehind
  have hread := @membersOf_member .editorWindow className
    [Text.spaces count ++ menuLine menuPath] members guiBody? _ ((Text.spaces count ++ ['\x7b']) ::
      ([Text.spaces inner ++ openerCall className title] ++ [Text.spaces count ++ ['\x7d']]))
    behind hstarts hend
  have hclassify := @classify_opener className count hname title inner
    guiBody?.isSome [Text.spaces count ++ menuLine menuPath]
  have hdirectives : directives [Text.spaces count ++ menuLine menuPath] = [] := by
    rw [directives, List.filter_cons, hmenuCode]
    rfl
  rw [blockLines] at hclassify
  refine hattribute.trans (hread.trans ?_)
  rw [hclassify, hdirectives]
  by_cases htitle : ';' ∈ title
  · rw [if_pos htitle, if_pos htitle]
    rfl
  · rw [if_neg htitle, if_neg htitle]
    rfl

/-- The drawing method does not go on with what stands above it. -/
theorem startsAnew_gui (count : Nat) (inside behind : List Text) :
    StartsAnew (codeText .code (blockLines count guiHeader inside ++ behind)) := by
  have hfirst : guiHeader = 'p' :: "rivate void OnGUI()".toList := by decide
  rw [blockLines, hfirst]
  exact startsAnew_line (by decide) (by decide) (by decide) _ _ _

/-- The drawing method leaves its body. -/
theorem membersOf_gui (hinside : Nests 0 inside 0)
    (hbehind : StartsAnew (codeText .code behind)) :
    membersOf .editorWindow className [] members none
      (blockLines count guiHeader inside ++ behind) =
        membersOf .editorWindow className [] members (some inside) behind := by
  have hstarts : StartsMember (Text.spaces count ++ guiHeader) :=
    statement_guiHeader.startsMember (by decide) (by decide) (by decide) count
  have hend := @memberEnd_blockLines guiHeader _ _ count (by decide) (by decide)
    hinside hbehind
  have hread := @membersOf_member .editorWindow className [] members none _ ((Text.spaces count ++ ['\x7b']) ::
      (inside ++ [Text.spaces count ++ ['\x7d']])) behind hstarts hend
  refine hread.trans ?_
  have hclassify := @classify_gui className _ count hinside []
  rw [blockLines] at hclassify
  rw [Option.isSome_none, hclassify]
  rfl

end EditorScript
