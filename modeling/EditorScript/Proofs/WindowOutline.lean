import EditorScript.Proofs.WindowLines

/-!
# The outline of a window

Nothing above the class of a bare window counts as a class, a type or an attribute.
So its own header is the main one, the block behind that holds the members, and what
is kept of the rest is read from the lines below the class.
-/

namespace EditorScript

theorem classHeadersFrom_append (number : Nat) (first second : List Text) :
    classHeadersFrom number (first ++ second) =
      classHeadersFrom number first ++ classHeadersFrom (number + first.length) second := by
  induction first generalizing number with
  | nil => rfl
  | cons line rest ih =>
    rw [List.cons_append, classHeadersFrom, classHeadersFrom, ih, List.append_assoc,
      List.length_cons, Nat.add_assoc, Nat.add_comm 1]

/-- A line that holds no header. -/
def HeaderFree (line : Text) : Prop :=
  typeHeader.accepts (codeOf line) = false ∧ classHeader.match? (codeOf line) = none

theorem classHeadersFrom_eq_nil {lines : List Text}
    (h : ∀ line ∈ lines, classHeader.match? (codeOf line) = none) (number : Nat) :
    classHeadersFrom number lines = [] := by
  induction lines generalizing number with
  | nil => rfl
  | cons line rest ih =>
    rw [List.forall_mem_cons] at h
    rw [classHeadersFrom, ClassHeader.ofCode?, h.1, ih h.2]
    rfl

theorem typesBefore_eq_nil (kind : ScriptKind) (settings : Settings) {lines : List Text}
    (h : ∀ line ∈ lines, HeaderFree line) (above : List Text) :
    typesBefore kind settings above lines = [] := by
  induction lines generalizing above with
  | nil => rw [typesBefore]
  | cons line rest ih =>
    rw [List.forall_mem_cons] at h
    rw [typesBefore, h.1.1, if_neg (by decide)]
    exact ih h.2 _

/-- A line that is neither an attribute nor a comment nor empty ends a run of those. -/
theorem leadingRun_eq_zero (acrossBlank : Bool) {line : Text}
    (hattribute : attributeLine.accepts line.trim = false)
    (hcomment : line.trim.startsWith "//" = false) (hne : line.trim ≠ []) (rest : List Text) :
    leadingRun acrossBlank (line :: rest) = 0 := by
  rw [leadingRun, hattribute, hcomment, if_neg (by decide), List.isEmpty_eq_false_iff.mpr hne,
    Bool.and_false, if_neg (by decide)]

variable {className namespaceName : Text}

theorem statement_namespaceLine (h : ∀ c ∈ namespaceName, isWord c) (hne : namespaceName ≠ []) :
    Statement (namespaceLine namespaceName) := by
  have hfront : List.all "namespace " isTame := by decide
  refine statement_of_tame (tame_append hfront (tame_of_word h)) ?_ ?_
  · rintro c ⟨⟩
    decide
  · obtain ⟨front, last, rfl⟩ := List.eq_nil_or_concat namespaceName |>.resolve_left hne
    rw [List.concat_eq_append] at h ⊢
    exact ⟨"namespace " ++ front, last, (List.append_assoc _ front [last]).symm,
      isBlank_of_isWord (h last (by simp))⟩

/-- No line above the class of a window is a header. -/
theorem headerFree_windowAbove (h : ∀ c ∈ namespaceName, isWord c) :
    ∀ line ∈ windowAbove namespaceName, HeaderFree line := by
  have husings : ∀ line ∈ windowUsings ++ [[], ['\x7b']], HeaderFree line := by
    unfold HeaderFree
    decide +kernel
  intro line hline
  rcases List.mem_append.mp hline with hline | hline
  · exact husings line (List.mem_append_left _ hline)
  rcases List.mem_cons.mp hline with rfl | hline
  · exact husings [] (by simp)
  · split at hline
    · cases hline
    rename_i hne
    rcases List.mem_cons.mp hline with rfl | hline
    · have hcode : codeOf (namespaceLine namespaceName) = namespaceLine namespaceName :=
        (statement_namespaceLine h (by simpa using hne)).codeOf_eq 0
      rewrite [HeaderFree, hcode]
      exact ⟨rfl, rfl⟩
    · exact husings line (List.mem_append_right _ (List.mem_cons_of_mem _ hline))

/-- No attribute stands above the class of a window. -/
theorem leadingRun_windowAbove (namespaceName : Text) :
    leadingRun true (windowAbove namespaceName).reverse = 0 := by
  unfold windowAbove
  split
  · decide +kernel
  · rw [List.reverse_append, List.reverse_cons, List.reverse_cons, List.reverse_cons]
    exact leadingRun_eq_zero true (by decide) (by decide) (by decide) _

/-- The class header of a window on its own line. -/
theorem ofCode?_windowHeader (h : IsVariableName className) (count number : Nat) :
    ClassHeader.ofCode? number (codeOf (Text.spaces count ++ windowHeader className)) =
      some ⟨number, className, "EditorWindow".toList⟩ := by
  obtain ⟨found, hfound, hname, hbases⟩ := match?_windowHeader h
  rw [(statement_windowHeader h.2).codeOf_eq, ClassHeader.ofCode?, hfound, Option.map_some, hname,
    hbases]

/-- The outline of a text whose lines are those of a window. -/
theorem ofSource_window {content : Text} {inside below : List Text} {count : Nat}
    (hname : IsVariableName className) (hnamespace : ∀ c ∈ namespaceName, isWord c)
    (hinside : Nests 0 inside 0) (hreturn : content.withoutReturns = content)
    (hkind : detectKind content = .editorWindow)
    (hlines : content.lines = windowAbove namespaceName ++
      (Text.spaces count ++ windowHeader className) :: (Text.spaces count ++ ['\x7b']) ::
        (inside ++ (Text.spaces count ++ ['\x7d']) :: below)) :
    Outline.ofSource content =
      ({ usings := importsOf content
         kind := .editorWindow
         settings := extractSettings content .editorWindow className ["EditorWindow"]
         foundClass := true
         body := .ofLines .editorWindow className inside
         outerCode := splitOuterCode below }, []) := by
  have hfree := headerFree_windowAbove hnamespace
  obtain ⟨others, hheaders⟩ : ∃ others, classHeadersFrom 0 content.lines =
      ⟨(windowAbove namespaceName).length, className, "EditorWindow".toList⟩ :: others := by
    rw [hlines, classHeadersFrom_append,
      classHeadersFrom_eq_nil fun line hline => (hfree line hline).2, classHeadersFrom,
      ofCode?_windowHeader hname, Nat.zero_add]
    exact ⟨_, rfl⟩
  have hmain : mainHeader? .editorWindow (classHeadersFrom 0 content.lines) =
      some ⟨(windowAbove namespaceName).length, className, "EditorWindow".toList⟩ := by
    have hbase : (shortBases "EditorWindow".toList).contains
        (ScriptKind.baseClass .editorWindow) := by decide
    rw [hheaders, mainHeader?, List.find?_cons, hbase]
    rfl
  have hheader : BlockHeader (Text.spaces count ++ windowHeader className) := by
    refine blockHeader_of_tame (tame_append ?_ (tame_windowHeader hname.2))
    refine List.all_eq_true.mpr fun c hc => ?_
    rw [(List.mem_replicate.mp hc).2]
    decide
  have hblock := findBlock?_between hheader hinside (windowAbove namespaceName) below count
  have hbases : splitBases "EditorWindow".toList = ["EditorWindow".toList] := by decide
  have htake : content.lines.take (windowAbove namespaceName).length =
      windowAbove namespaceName := by rw [hlines, List.take_left]
  have hshape : content.lines = (windowAbove namespaceName ++
      [Text.spaces count ++ windowHeader className, Text.spaces count ++ ['\x7b']]) ++
        (inside ++ (Text.spaces count ++ ['\x7d']) :: below) := by simp [hlines]
  have hlength : (windowAbove namespaceName ++ [Text.spaces count ++ windowHeader className,
      Text.spaces count ++ ['\x7b']]).length = (windowAbove namespaceName).length + 2 := by simp
  have hslice : slice content.lines ((windowAbove namespaceName).length + 1 + 1)
      ((windowAbove namespaceName).length + 2 + inside.length) = inside := by
    rw [slice, hshape, ← hlength, List.take_length_add_append, List.take_left]
    exact List.drop_left
  have hbehind : content.lines.drop
      ((windowAbove namespaceName).length + 2 + inside.length + 1) = below := by
    rw [hshape, ← hlength, Nat.add_assoc, List.drop_length_add_append,
      List.drop_length_add_append]
    rfl
  rw [← hlines] at hblock
  rw [Outline.ofSource]
  dsimp only
  rw [hreturn, hkind, hmain]
  dsimp only
  rw [hbases, htake, leadingRun_windowAbove, hblock]
  dsimp only
  rw [hslice, hbehind, Nat.sub_zero, htake, typesBefore_eq_nil _ _ hfree, List.drop_length]
  rfl

end EditorScript
