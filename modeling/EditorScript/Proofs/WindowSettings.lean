import EditorScript.Proofs.Avoids
import EditorScript.Proofs.LineStarts
import EditorScript.Proofs.WindowMembers

/-!
# The settings of a window

The path in the menu and the title of a window stand in the first attribute and in the
first call that opens a window, since nothing in front of them looks like one.
-/

namespace EditorScript

open Pattern

variable {className namespaceName menuPath title rest : Text} {count inner : Nat}

/-- What stands in front of the members of a window, up to the margin of the first one. -/
def windowFront (count inner : Nat) (namespaceName className : Text) : Text :=
  Text.unlines (windowAbove namespaceName ++
    [Text.spaces count ++ windowHeader className, Text.spaces count ++ ['\x7b']]) ++
      '\n' :: Text.spaces inner

/-- What stands between the attribute of the menu and the call that opens a window. -/
def openerFront (count inner : Nat) : Text :=
  '\n' :: (Text.spaces count ++ (openerHeader ++ '\n' ::
    (Text.spaces count ++ '\x7b' :: '\n' :: Text.spaces inner)))

/-- A text that begins like the source of a window. -/
def windowText (outer count inner : Nat) (namespaceName className menuPath title rest : Text) :
    Text :=
  windowFront outer count namespaceName className ++ (menuLine menuPath ++
    (openerFront count inner ++ (openerCall className title ++ rest)))

/-- No bracket or parenthesis stands in front of the members of a window. -/
theorem notMem_windowFront {c : Char} (hc : c = '[' ∨ c = '(')
    (hname : ∀ c ∈ className, isWord c) (hnamespace : ∀ c ∈ namespaceName, isWord c)
    (count inner : Nat) : c ∉ windowFront count inner namespaceName className := by
  have hword : isWord c = false := by rcases hc with rfl | rfl <;> decide
  have hspace : c ≠ ' ' := by rcases hc with rfl | rfl <;> decide
  have hnewline : c ≠ '\n' := by rcases hc with rfl | rfl <;> decide
  have hfixed : c ∉ ("namespace " : Text) ∧ c ∉ ("public class " : Text) ∧
      c ∉ (" : EditorWindow" : Text) ∧ c ∉ (['\x7b'] : Text) ∧
        ∀ line ∈ windowUsings, c ∉ line := by
    rcases hc with rfl | rfl <;> decide
  obtain ⟨hnamespaceFront, hclassFront, hbase, hbrace, husings⟩ := hfixed
  have hlines : ∀ line ∈ windowAbove namespaceName ++
      [Text.spaces count ++ windowHeader className, Text.spaces count ++ ['\x7b']], c ∉ line := by
    refine List.forall_mem_append.mpr ⟨List.forall_mem_append.mpr ⟨husings, ?_⟩, ?_⟩
    · refine List.forall_mem_cons.mpr ⟨List.not_mem_nil, ?_⟩
      split
      · exact List.forall_mem_nil _
      · exact List.forall_mem_cons.mpr
          ⟨notMem_append hnamespaceFront (notMem_of_word hnamespace hword),
            List.forall_mem_singleton.mpr hbrace⟩
    · exact List.forall_mem_cons.mpr ⟨notMem_append (notMem_spaces hspace count)
        (notMem_append hclassFront (notMem_append (notMem_of_word hname hword) hbase)),
          List.forall_mem_singleton.mpr (notMem_append (notMem_spaces hspace count) hbrace)⟩
  exact notMem_append (Text.notMem_join (by simpa using hnewline) hlines)
    (List.not_mem_cons_of_ne_of_not_mem hnewline (notMem_spaces hspace inner))

/-! ## The path in the menu -/

/-- What the path in the menu is read with. -/
def menuPattern : Pattern :=
  attributeCall "MenuItem" ++ plainString "path"

/-- Attributes begin with a bracket. -/
theorem matchAt_attributeCall (name : String) (following : Pattern) (c : Char) (rest : Text)
    (before : Option Char) (hc : c ≠ '[') :
    (attributeCall name ++ following).matchAt before (c :: rest) = none := by
  have hfirst : ∀ d ∈ (c :: rest).head?, d ≠ '[' := by
    rintro d ⟨⟩
    exact hc
  simp only [attributeCall, opening, attributeOf, matchAt, run_append]
  exact @run_text_ne _ _ [] _ hfirst _ before []

theorem forall_noQuote {text : Text} (h : '"' ∉ text) :
    ∀ c ∈ text, !("\"".toList.contains c) := fun c hc => by
  rw [Bool.not_eq_true', List.contains_eq_mem, decide_eq_false_iff_not]
  intro hmem
  obtain rfl := List.mem_singleton.mp hmem
  exact h hc

theorem matchAt_menuLine (hne : menuPath ≠ []) (rest : Text) (before : Option Char) :
    Gives (menuPattern.matchAt before (menuLine menuPath ++ rest)) fun found =>
      found.captured "path" = untilQuote menuPath := by
  have hcontent : ∀ c ∈ untilQuote menuPath, !("\"".toList.contains c) :=
    forall_noQuote (quote_notMem_untilQuote menuPath)
  obtain ⟨behind, hquote⟩ := exists_quote_eq menuPath
  have hshape : menuLine menuPath ++ rest = "[".toList ++ ("MenuItem".toList ++ ("(".toList ++
      (['"'] ++ (untilQuote menuPath ++ (['"'] ++ (behind ++ (")]".toList ++ rest))))))) := by
    have hfront : ("[MenuItem(" : Text) = "[" ++ ("MenuItem" ++ "(") := by decide
    have hassoc : ∀ (a b c d f g h : Text) (q : Char),
        ((a ++ (b ++ c)) ++ ((q :: (d ++ q :: f)) ++ g)) ++ h =
          a ++ (b ++ (c ++ ([q] ++ (d ++ ([q] ++ (f ++ (g ++ h))))))) := by
      intro a b c d f g h q
      simp only [List.append_assoc, List.cons_append, List.nil_append]
    have hpieces : menuLine menuPath = (("[" : Text) ++ ("MenuItem" ++ "(")) ++
        (('"' :: (untilQuote menuPath ++ '"' :: behind)) ++ ")]") :=
      congrArg₂ (fun front quoted => front ++ (quoted ++ ")]".toList)) hfront hquote
    rewrite [hpieces]
    exact hassoc _ _ _ _ _ _ _ _
  rewrite [hshape]
  simp only [menuPattern, attributeCall, opening, attributeOf, plainString, matchAt, run_append]
  refine run_text (fun before => ?_) before
  refine run_blanks_none (by rintro c ⟨⟩; decide) (fun before => ?_) before
  rw [run_engineNamespace_none (by rintro c ⟨⟩; decide)]
  refine run_text (fun before => ?_) before
  refine run_blanks_none (by rintro c ⟨⟩; decide) (fun before => ?_) before
  refine run_text (fun before => ?_) before
  refine run_blanks_none (by rintro c ⟨⟩; decide) (fun before => ?_) before
  refine run_text (fun before => ?_) before
  refine run_capture_many1 (untilQuote_ne_nil hne) hcontent (by rintro c ⟨⟩; decide)
    (fun before => ?_) before
  refine run_text (fun before => ?_) before
  exact ⟨_, rfl, rfl⟩

/-- The path in the menu is the one in the first attribute, up to its first quote. -/
theorem menu_windowText (hname : ∀ c ∈ className, isWord c)
    (hnamespace : ∀ c ∈ namespaceName, isWord c) (hne : menuPath ≠ [])
    (outer count inner : Nat) :
    capturedIn? menuPattern "path"
      (windowText outer count inner namespaceName className menuPath title rest) =
        some (untilQuote menuPath) := by
  obtain ⟨place, hplace, hcaptured⟩ := gives_search?
    (passes_of_notMem (fun c rest before hc => matchAt_attributeCall "MenuItem" _ c rest before hc)
      (notMem_windowFront (.inl rfl) hname hnamespace outer count) none)
    (matchAt_menuLine hne
      (openerFront count inner ++ (openerCall className title ++ rest)) _)
  rw [capturedIn?, windowText]
  exact congrArg (Option.map _) hplace |>.trans (congrArg some hcaptured)

/-- What the path in the menu of components is read with. -/
def componentPattern : Pattern :=
  attributeCall "AddComponentMenu" ++ plainString "path"

/-- A call of an attribute holds its name. -/
theorem attributeCall_infix {name : String} {following : Pattern} {place later : Position}
    (h : Reaches (attributeCall name ++ following) place later) :
    name.toList <:+: place.after := by
  obtain ⟨_, h, -⟩ := h.append
  obtain ⟨_, h, -⟩ := h.append
  obtain ⟨_, h, -⟩ := h.append
  obtain ⟨_, h, -⟩ := h.append
  obtain ⟨_, h, hname⟩ := h.append
  obtain ⟨front, hfront⟩ := h.exists_append
  exact ⟨front, _, by rw [hfront, hname.text_eq, List.append_assoc]⟩

/-- No attribute stands between the one of the menu and the call that opens the window. -/
theorem notMem_openerFront (count inner : Nat) : '[' ∉ openerFront count inner := by
  have hheader : '[' ∉ openerHeader := by decide
  refine List.not_mem_cons_of_ne_of_not_mem (by decide) (notMem_append (notMem_spaces (by decide) _)
    (notMem_append hheader (List.not_mem_cons_of_ne_of_not_mem (by decide)
      (notMem_append (notMem_spaces (by decide) _) ?_))))
  exact List.not_mem_cons_of_ne_of_not_mem (by decide) (List.not_mem_cons_of_ne_of_not_mem
    (by decide) (notMem_spaces (by decide) _))

/-- No other path than the one in the menu is found. -/
theorem component_windowText (hname : ∀ c ∈ className, isWord c)
    (hnamespace : ∀ c ∈ namespaceName, isWord c) (hmenu : ∀ c ∈ menuPath, isPlainTextChar c)
    (htitle : ∀ c ∈ title, isPlainTextChar c)
    (hrest : ¬ "AddComponentMenu".toList <:+: rest) (outer count inner : Nat) :
    capturedIn? componentPattern "path"
      (windowText outer count inner namespaceName className menuPath title rest) = none := by
  have hfirst : ∀ c rest before, c ≠ '[' → componentPattern.matchAt before (c :: rest) = none :=
    fun c rest before hc => matchAt_attributeCall "AddComponentMenu" _ c rest before hc
  have hmenuItem : ∀ rest before, componentPattern.matchAt before ('[' :: 'M' :: rest) = none :=
    fun rest before => rfl
  have hquote : '[' ∉ quote menuPath ∧ '[' ∉ quote title := by
    rw [quote_of_plain hmenu, quote_of_plain htitle]
    exact ⟨List.not_mem_cons_of_ne_of_not_mem (by decide)
        (notMem_append (notMem_of_plainText hmenu (by decide)) (by decide)),
      List.not_mem_cons_of_ne_of_not_mem (by decide)
        (notMem_append (notMem_of_plainText htitle (by decide)) (by decide))⟩
  have hmenuLine : menuLine menuPath =
      '[' :: 'M' :: ("enuItem(".toList ++ (quote menuPath ++ ")]".toList)) := by
    have hfront : ("[MenuItem(" : Text) = '[' :: 'M' :: "enuItem(".toList := by decide
    exact congrArg (· ++ (quote menuPath ++ ")]".toList)) hfront
  have hmenuTail : '[' ∉ 'M' :: ("enuItem(".toList ++ (quote menuPath ++ ")]".toList)) :=
    List.not_mem_cons_of_ne_of_not_mem (by decide)
      (notMem_append (by decide) (notMem_append hquote.1 (by decide)))
  have hcall : '[' ∉ openerFront count inner ++ openerCall className title :=
    notMem_append (notMem_openerFront count inner) (notMem_append (by decide)
      (notMem_append (notMem_of_word hname (by decide))
        (notMem_append (by decide) (notMem_append hquote.2 (by decide)))))
  have hpasses : Passes componentPattern none (windowFront outer count namespaceName className ++
      (menuLine menuPath ++ (openerFront count inner ++ openerCall className title))) rest := by
    refine (passes_of_notMem hfirst
      (notMem_windowFront (.inl rfl) hname hnamespace outer count) _).append ?_
    refine Passes.append ?_ (passes_of_notMem hfirst hcall _)
    rewrite [hmenuLine]
    exact ⟨hmenuItem _ _, passes_of_notMem hfirst hmenuTail _⟩
  have hnone := search?_eq_none hpasses fun before =>
    searchFrom_eq_none (fun _ _ h => attributeCall_infix h) hrest before
  rw [List.append_assoc, List.append_assoc, List.append_assoc] at hnone
  rw [capturedIn?, windowText]
  exact congrArg (Option.map _) hnone

/-! ## The title -/

/-- What the title of a window is read with. -/
def titlePattern : Pattern :=
  opening ("GetWindow" ++ opt ("<" ++ dotted ++ ">")) ++ anyPlainString "title"

/-- In front of the parenthesis stands the end of the name, of a type or a blank, and
behind it stands a literal. -/
theorem titlePattern_eq {place later : Position} (h : Reaches titlePattern place later) :
    ∃ name behind rest, place.after = name ++ '(' :: (behind ++ '"' :: rest) ∧ '(' ∉ name ∧
      name.getLast? ≠ some 'm' ∧ ∀ c ∈ behind, isBlank c := by
  obtain ⟨_, h, hstring⟩ := h.append
  obtain ⟨_, h, hbehind⟩ := h.append
  obtain ⟨_, h, hopen⟩ := h.append
  obtain ⟨typeEnd, h, hblanks⟩ := h.append
  obtain ⟨nameEnd, hname, htype⟩ := h.append
  obtain ⟨_, hstring, -⟩ := hstring.append
  obtain ⟨behindQuote, hquote, -⟩ := hstring.append
  obtain ⟨blanks, hblanks, hblank⟩ := hblanks.blanks_eq
  obtain ⟨behind, hbehind, hbehindBlank⟩ := hbehind.blanks_eq
  obtain ⟨type, htype, htypeOpen, htypeLast⟩ : ∃ type : Text,
      nameEnd.after = type ++ typeEnd.after ∧ '(' ∉ type ∧ type.getLast? ≠ some 'm' := by
    cases htype with
    | right hempty =>
      cases hempty
      exact ⟨[], rfl, List.not_mem_nil, by decide⟩
    | left htype =>
      obtain ⟨_, htype, hclose⟩ := htype.append
      obtain ⟨_, hopen, hdotted⟩ := htype.append
      obtain ⟨inside, -, hinside, hdots⟩ := hdotted.many1_eq
      refine ⟨"<".toList ++ (inside ++ ">".toList), ?_, ?_, ?_⟩
      · rw [hopen.text_eq, hinside, hclose.text_eq, List.append_assoc, List.append_assoc]
      · refine notMem_append (by decide) (notMem_append (fun hmem => ?_) (by decide))
        exact absurd (hdots _ hmem) (by decide)
      · rw [List.getLast?_append, List.getLast?_append]
        exact (by decide : some '>' ≠ some 'm')
  refine ⟨"GetWindow".toList ++ (type ++ blanks), behind, behindQuote.after, ?_, ?_, ?_,
    hbehindBlank⟩
  · rw [hname.text_eq, htype, hblanks, hopen.text_eq, hbehind, hquote.text_eq]
    simp only [List.append_assoc]
    rfl
  · refine notMem_append (by decide) (notMem_append htypeOpen fun hmem => ?_)
    exact absurd (hblank _ hmem) (by decide)
  · rw [List.getLast?_append, List.getLast?_append]
    cases hlast : blanks.getLast? with
    | some c =>
      intro heq
      obtain rfl : c = 'm' := Option.some.inj heq
      exact absurd (hblank _ (List.mem_of_getLast? hlast)) (by decide)
    | none =>
      cases hlastType : type.getLast? with
      | some c =>
        rw [hlastType] at htypeLast
        exact htypeLast
      | none => exact (by decide : some 'w' ≠ some 'm')

theorem takeWhile_append_cons {c : Char} {front : Text} (h : c ∉ front) (rest : Text) :
    (front ++ c :: rest).takeWhile (· != c) = front := by
  have hfront : ∀ d ∈ front, (d != c) = true := fun d hd =>
    bne_iff_ne.mpr fun heq => h (heq ▸ hd)
  rw [List.takeWhile_append_of_pos hfront, List.takeWhile_cons_of_neg (by simp), List.append_nil]

/-- The first places of a character are the same in the same text. -/
theorem append_cons_inj {c : Char} {front front' rest rest' : Text} (h : c ∉ front)
    (h' : c ∉ front') (heq : front ++ c :: rest = front' ++ c :: rest') :
    front = front' ∧ rest = rest' := by
  have hfront : front = front' := by
    rw [← takeWhile_append_cons h rest, heq, takeWhile_append_cons h']
  subst hfront
  exact ⟨rfl, (List.cons.inj (List.append_cancel_left heq)).2⟩

/-- No window is opened with a parenthesis that stands behind an `m` or in front of
another one. -/
theorem passes_titlePattern {front behind : Text} (hfront : '(' ∉ front)
    (h : front.getLast? = some 'm' ∨ behind.head? = some ')') (before : Option Char) :
    Passes titlePattern before front ('(' :: behind) := by
  refine passes_of_forall (fun skipped c others heq before => ?_) before
  refine run_eq_none (fun later hlater => ?_) some
  obtain ⟨name, blanks, rest, heq', hname, hlast, hblank⟩ := titlePattern_eq hlater
  have hends : '(' ∉ c :: others := fun hmem => hfront (heq ▸ List.mem_append_right _ hmem)
  obtain ⟨rfl, rfl⟩ := append_cons_inj hends hname heq'
  rcases h with h | h
  · rw [heq, List.getLast?_append, List.getLast?_cons] at h
    rw [List.getLast?_cons] at hlast
    exact hlast h
  · cases blanks with
    | nil => exact absurd (Option.some.inj h) (by decide)
    | cons d others =>
      obtain rfl : d = ')' := Option.some.inj h
      exact absurd (hblank _ List.mem_cons_self) (by decide)

theorem matchAt_titlePattern (c : Char) (rest : Text) (before : Option Char) (hc : c ≠ 'G') :
    titlePattern.matchAt before (c :: rest) = none := by
  have hfirst : ∀ d ∈ (c :: rest).head?, d ≠ 'G' := by
    rintro d ⟨⟩
    exact hc
  simp only [titlePattern, opening, matchAt, run_append]
  exact @run_text_ne _ _ "etWindow".toList _ hfirst _ before []

theorem matchAt_openerCall (hname : IsVariableName className) (rest : Text)
    (before : Option Char) :
    Gives (titlePattern.matchAt before (openerCall className title ++ rest)) fun found =>
      found.captured "title" = untilQuote title := by
  obtain ⟨hne, hword⟩ := hname
  have hdotted : ∀ c ∈ className, (isWord c || c == '.') := fun c hc => by rw [hword c hc]; rfl
  have hcontent : ∀ c ∈ untilQuote title, !("\"".toList.contains c) :=
    forall_noQuote (quote_notMem_untilQuote title)
  obtain ⟨behind, hquote⟩ := exists_quote_eq title
  have hshape : openerCall className title ++ rest = "GetWindow".toList ++ ("<".toList ++
      (className ++ (">".toList ++ ("(".toList ++ (['"'] ++ (untilQuote title ++ (['"'] ++
        (behind ++ (");".toList ++ rest))))))))) := by
    have hfront : ("GetWindow<" : Text) = "GetWindow" ++ "<" := by decide
    have hmiddle : (">(" : Text) = ">" ++ "(" := by decide
    have hassoc : ∀ (a b c d e g h i j : Text) (q : Char),
        ((a ++ b) ++ (c ++ ((d ++ e) ++ ((q :: (g ++ q :: h)) ++ i)))) ++ j =
          a ++ (b ++ (c ++ (d ++ (e ++ ([q] ++ (g ++ ([q] ++ (h ++ (i ++ j))))))))) := by
      intro a b c d e g h i j q
      simp only [List.append_assoc, List.cons_append, List.nil_append]
    have hpieces : openerCall className title = (("GetWindow" : Text) ++ "<") ++ (className ++
        (((">" : Text) ++ "(") ++ (('"' :: (untilQuote title ++ '"' :: behind)) ++ ");"))) :=
      (congrFun (congrArg₂ (fun front middle quoted => front ++ (className ++
        (middle ++ (quoted ++ ");".toList)))) hfront hmiddle) _).trans
          (congrArg (fun quoted => (("GetWindow" : Text) ++ "<") ++ (className ++
            (((">" : Text) ++ "(") ++ (quoted ++ ");".toList)))) hquote)
    rewrite [hpieces]
    exact hassoc _ _ _ _ _ _ _ _ _ _
  rewrite [hshape]
  simp only [titlePattern, opening, anyPlainString, matchAt, run_append]
  refine run_text (fun before => run_opt ?_) before
  refine run_text (fun before => ?_) before
  refine run_many1 hne hdotted (by rintro c ⟨⟩; decide) (fun before => ?_) before
  refine run_text (fun before => ?_) before
  refine run_blanks_none (by rintro c ⟨⟩; decide) (fun before => ?_) before
  refine run_text (fun before => ?_) before
  refine run_blanks_none (by rintro c ⟨⟩; decide) (fun before => ?_) before
  refine run_text (fun before => ?_) before
  refine run_capture_many hcontent (by rintro c ⟨⟩; decide) (fun before => ?_) before
  refine run_text (fun before => ?_) before
  exact ⟨_, rfl, rfl⟩

/-- A text in which no window is opened: it holds no parenthesis, or not the name of the
call. -/
def OpensNothing (text : Text) : Prop :=
  '(' ∉ text ∨ ¬ "GetWindow".toList <:+: text

theorem opensNothing_of_plain {text : Text} (h : ∀ c ∈ text, isPlainTextChar c) :
    OpensNothing text :=
  .inl (notMem_of_plainText h (by decide))

/-- A call that opens a window begins with its name. -/
theorem titlePattern_prefix {place later : Position} (h : Reaches titlePattern place later) :
    "GetWindow".toList <+: place.after := by
  obtain ⟨_, h, -⟩ := h.append
  obtain ⟨_, h, -⟩ := h.append
  obtain ⟨_, h, -⟩ := h.append
  obtain ⟨_, h, -⟩ := h.append
  obtain ⟨_, hname, -⟩ := h.append
  exact ⟨_, hname.text_eq.symm⟩

/-- In the literal of such a text no window is opened either. -/
theorem passes_quote {text behind : Text} (h : OpensNothing text) (hbehind : '(' ∉ behind)
    (before : Option Char) :
    Passes titlePattern before (quote text ++ behind) ('(' :: ')' :: rest) := by
  rcases h with hopen | hname
  · have hquote : '(' ∉ quote text := fun hmem => hopen ((mem_quote_iff (by decide)).mp hmem)
    exact passes_titlePattern (notMem_append hquote hbehind) (.inr rfl) before
  · have havoids : Avoids ["GetWindow".toList] (quote text) :=
      .quote (by decide) (List.forall_mem_singleton.mpr hname)
    have hlast : ∀ c ∈ (quote text).getLast?, c ∉ "GetWindow".toList := by
      rw [getLast?_quote]
      rintro c ⟨⟩
      decide
    exact (passes_of_word (fun _ _ => titlePattern_prefix)
      (havoids _ (List.mem_singleton_self _)) hlast before).append
        (passes_titlePattern hbehind (.inr rfl) _)

/-- Nothing in front of the call that opens a window looks like one. -/
theorem passes_openerFront (hname : ∀ c ∈ className, isWord c)
    (hnamespace : ∀ c ∈ namespaceName, isWord c) (hmenu : OpensNothing menuPath)
    (outer count inner : Nat) (rest : Text) :
    Passes titlePattern none (windowFront outer count namespaceName className ++
      (menuLine menuPath ++ openerFront count inner)) rest := by
  have hshape : windowFront outer count namespaceName className ++
      (menuLine menuPath ++ openerFront count inner) =
        (windowFront outer count namespaceName className ++ "[MenuItem".toList) ++ '(' ::
          ((quote menuPath ++ (")]".toList ++ '\n' :: (Text.spaces count ++
            "public static void ShowWindow".toList))) ++ '(' :: (')' :: '\n' ::
              (Text.spaces count ++ '\x7b' :: '\n' :: Text.spaces inner))) := by
    have hmenuItem : ("[MenuItem(" : Text) = "[MenuItem" ++ ['('] := by decide
    have hheader : openerHeader = "public static void ShowWindow" ++ '(' :: [')'] := by decide
    have hassoc : ∀ a b d e f g k : Text, ∀ c i j l : Char,
        a ++ (((b ++ [c]) ++ (d ++ e)) ++ i :: (f ++ ((g ++ c :: [l]) ++ j :: k))) =
          (a ++ b) ++ c :: ((d ++ (e ++ i :: (f ++ g))) ++ c :: (l :: j :: k)) := by
      intro a b d e f g k c i j l
      simp only [List.append_assoc, List.cons_append, List.nil_append]
    exact (congrArg₂ (fun opening header => windowFront outer count namespaceName className ++
      ((opening ++ (quote menuPath ++ ")]".toList)) ++ '\n' :: (Text.spaces count ++ (header ++
        '\n' :: (Text.spaces count ++ '\x7b' :: '\n' :: Text.spaces inner))))) hmenuItem
          hheader).trans (hassoc _ _ _ _ _ _ _ _ _ _ _)
  have hfirst : '(' ∉ windowFront outer count namespaceName className ++ "[MenuItem".toList :=
    notMem_append (notMem_windowFront (.inr rfl) hname hnamespace outer count) (by decide)
  have hlast : (windowFront outer count namespaceName className ++
      "[MenuItem".toList).getLast? = some 'm' := by
    have hend : ("[MenuItem" : Text).getLast? = some 'm' := by decide
    rw [List.getLast?_append, hend]
    rfl
  have hsecond : '(' ∉ ")]".toList ++ '\n' :: (Text.spaces count ++
      "public static void ShowWindow".toList) :=
    notMem_append (by decide) (List.not_mem_cons_of_ne_of_not_mem (by decide)
      (notMem_append (notMem_spaces (by decide) _) (by decide)))
  have hthird : 'G' ∉ ')' :: '\n' :: (Text.spaces count ++ '\x7b' :: '\n' :: Text.spaces inner) :=
    List.not_mem_cons_of_ne_of_not_mem (by decide) (List.not_mem_cons_of_ne_of_not_mem (by decide)
      (notMem_append (notMem_spaces (by decide) _) (List.not_mem_cons_of_ne_of_not_mem (by decide)
        (List.not_mem_cons_of_ne_of_not_mem (by decide) (notMem_spaces (by decide) _)))))
  have hparenthesis : ∀ rest before, titlePattern.matchAt before ('(' :: rest) = none :=
    fun rest before => matchAt_titlePattern _ rest before (by decide)
  rw [hshape]
  refine (passes_titlePattern hfirst (.inl hlast) _).append ⟨hparenthesis _ _, ?_⟩
  refine (passes_quote hmenu hsecond _).append ⟨hparenthesis _ _, ?_⟩
  exact passes_of_notMem matchAt_titlePattern hthird _

/-- The title of a window is the one in the first call that opens it, up to its first
quote. -/
theorem title_windowText (hname : IsVariableName className)
    (hnamespace : ∀ c ∈ namespaceName, isWord c) (hmenu : OpensNothing menuPath)
    (outer count inner : Nat) :
    capturedIn? titlePattern "title"
      (windowText outer count inner namespaceName className menuPath title rest) =
        some (untilQuote title) := by
  obtain ⟨place, hplace, hcaptured⟩ := gives_search?
    (passes_openerFront hname.2 hnamespace hmenu outer count inner _)
    (matchAt_openerCall hname rest _)
  rw [List.append_assoc, List.append_assoc] at hplace
  rw [capturedIn?, windowText]
  exact congrArg (Option.map _) hplace |>.trans (congrArg some hcaptured)

/-! ## The namespace -/

theorem matchAt_namespacePattern (c : Char) (rest : Text) (hc : c ≠ '\n') :
    namespacePattern.matchAt (some c) rest = none := by
  simp only [namespacePattern, matchAt, run_append, lineStart, run]
  exact if_neg (by simpa using hc)

/-- Between the imports and the class stands the namespace. -/
theorem namespace_windowText (hname : ∀ c ∈ namespaceName, isWord c) (hne : namespaceName ≠ [])
    (outer count inner : Nat) :
    capturedIn? namespacePattern "name"
      (windowText outer count inner namespaceName className menuPath title rest) =
        some namespaceName := by
  obtain ⟨behind, hshape⟩ : ∃ behind,
      windowText outer count inner namespaceName className menuPath title rest =
        ('u' :: ("sing UnityEditor;".toList ++ ['\n']) ++
          'u' :: ("sing UnityEngine;".toList ++ ['\n'])) ++
          (['\n'] ++ ("namespace".toList ++ ([' '] ++ (namespaceName ++ '\n' :: behind)))) := by
    have hlines : windowAbove namespaceName ++
        [Text.spaces outer ++ windowHeader className, Text.spaces outer ++ ['\x7b']] =
          ('u' :: "sing UnityEditor;".toList) :: ('u' :: "sing UnityEngine;".toList) :: [] ::
            ("namespace".toList ++ ([' '] ++ namespaceName)) :: ['\x7b'] ::
              [Text.spaces outer ++ windowHeader className, Text.spaces outer ++ ['\x7b']] := by
      have husings : windowUsings =
          [('u' :: "sing UnityEditor;".toList), ('u' :: "sing UnityEngine;".toList)] := by decide
      have hline : namespaceLine namespaceName =
          "namespace".toList ++ ([' '] ++ namespaceName) := by
        have hfront : ("namespace " : Text) = "namespace" ++ [' '] := by decide
        exact (congrArg (· ++ namespaceName) hfront).trans (List.append_assoc _ _ _)
      rewrite [windowAbove, if_neg (by simpa using hne), husings, hline]
      rfl
    have hassoc : ∀ (c d : Char) (first second word space name brace margin front : Text)
        (others : List Text),
        (Text.unlines ((c :: first) :: (d :: second) :: [] :: (word ++ (space ++ name)) ::
          brace :: others) ++ '\n' :: margin) ++ front =
          ((c :: (first ++ ['\n'])) ++ d :: (second ++ ['\n'])) ++ (['\n'] ++ (word ++ (space ++
            (name ++ '\n' :: (Text.unlines (brace :: others) ++ '\n' :: (margin ++ front)))))) := by
      intro c d first second word space name brace margin front others
      simp only [Text.unlines_cons_cons, List.append_assoc, List.cons_append, List.nil_append]
    unfold windowText windowFront
    rewrite [hlines, hassoc]
    exact ⟨_, rfl⟩
  have hdotted : ∀ c ∈ namespaceName, (isWord c || c == '.') := fun c hc => by
    rw [hname c hc]
    rfl
  have hblank : ∀ c ∈ (['\n'] : Text), isBlank c := List.forall_mem_singleton.mpr (by decide)
  have hspace : ∀ c ∈ ([' '] : Text), isBlank c := List.forall_mem_singleton.mpr (by decide)
  have hword : ∀ rest : Text, ∀ c ∈ (namespaceName ++ rest).head?, isBlank c = false := by
    obtain ⟨first, others, rfl⟩ := List.exists_cons_of_ne_nil hne
    rintro rest c ⟨⟩
    exact isBlank_of_isWord (hname first List.mem_cons_self)
  have hpasses : Passes namespacePattern none ('u' :: ("sing UnityEditor;".toList ++ ['\n']) ++
      'u' :: ("sing UnityEngine;".toList ++ ['\n']))
        (['\n'] ++ ("namespace".toList ++ ([' '] ++ (namespaceName ++ '\n' :: behind)))) :=
    (passes_line matchAt_namespacePattern rfl (by decide) (by decide)).append
      (passes_line matchAt_namespacePattern rfl (by decide) (by decide))
  have hlast : ('u' :: ("sing UnityEditor;".toList ++ ['\n']) ++
      'u' :: ("sing UnityEngine;".toList ++ ['\n'])).getLast?.or none = some '\n' := by decide
  obtain ⟨place, hplace, hcaptured⟩ := @gives_search? _ _ _
    (fun found => found.captured "name" = namespaceName) hpasses (by
      rw [hlast]
      simp only [namespacePattern, matchAt, run_append, lineStart]
      refine run_many hblank (by rintro c ⟨⟩; decide) (fun before => ?_) (some '\n')
      refine run_text (fun before => ?_) before
      refine run_many1 (List.cons_ne_nil _ _) hspace (hword _) (fun before => ?_) before
      refine run_capture_many1 hne hdotted (by rintro c ⟨⟩; decide) (fun before => ?_) before
      exact ⟨_, rfl, rfl⟩)
  rw [capturedIn?, hshape]
  exact congrArg (Option.map _) hplace |>.trans (congrArg some hcaptured)

end EditorScript
