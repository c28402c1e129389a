import EditorScript.Proofs.CodeSteps
import EditorScript.Proofs.OrderlyLines
import EditorScript.Proofs.Place

/-!
# Lines that elements are built from

Every recovered element has its source: the lines of the body that its call is read from.
In orderly lines no source lies in a block comment.  A step of recovery takes its call from
a line of code, and the lines that it leaves, behind it or inside a container, lie in
comments where the body does; so it is with every run by induction on its steps.
-/

namespace EditorScript

variable {line : Text} {lines rest inner behind front part more : List Text} {block : Block}

/-! ## Sources -/

/-- Places of the lines that an element is built from, with the fields of the element. -/
structure ElementSource where
  places : List Nat
  fields : ElementFields

/-- The source seen from some lines further up. -/
def ElementSource.below (count : Nat) (source : ElementSource) : ElementSource :=
  { source with places := source.places.map (count + ·) }

/-- The place of the first line of a block's body. -/
def Block.bodyStart (block : Block) (lines : List Text) : Nat :=
  if block.openLine ≠ block.endLine ∧
      Text.blank ((lines.getD block.openLine []).drop (block.openColumn + 1)) then
    block.openLine + 1
  else block.openLine

namespace Step

/-- The places of the lines that an element at the front of some lines is read from: the
first line, and for a labelled text area also that of the text area. -/
def placesRead (line : Text) (rest : List Text) : List Nat :=
  match labelledTextArea? line rest, firstCode? rest with
  | some _, some (place, _) => [0, place + 1]
  | _, _ => [0]

/-- The place of the first line inside a container at the front of some lines: for a foldout
the first one in the block of its guard, else the one below the call. -/
def insideStart (fields : ElementFields) (rest : List Text) : Nat :=
  if fields.widget = .foldout then
    (firstCode? rest).elim 1 fun (place, _) => 1 + place +
      (findBlock? (rest.drop place) 0).elim 0 (·.bodyStart (rest.drop place))
  else 1

end Step

/-- The sources of the elements that are recovered from some lines, in the order of the
elements. -/
def sources : List Text → List ElementSource
  | [] => []
  | line :: rest =>
    match _ : Step.next line rest with
    | .skip behind =>
      (sources behind).map (·.below ((line :: rest).length - behind.length))
    | .take element _ behind =>
      (Forest.nodes [element]).map (⟨Step.placesRead line rest, ·⟩) ++
        (sources behind).map (·.below ((line :: rest).length - behind.length))
    | .enter fields inner behind =>
      ⟨[0], fields⟩ :: ((sources inner).map (·.below (Step.insideStart fields rest)) ++
        (sources behind).map (·.below ((line :: rest).length - behind.length)))
termination_by lines => weight lines
decreasing_by
  · exact Step.shrinks_of_next_eq ‹_›
  · exact Step.shrinks_of_next_eq ‹_›
  · exact (Step.shrinks_of_next_eq ‹_› : (Step.enter fields inner behind).Shrinks _).1
  · exact (Step.shrinks_of_next_eq ‹_› : (Step.enter fields inner behind).Shrinks _).2

theorem sources_nil : sources [] = [] := by
  rw [sources]

theorem sources_of_skip (h : Step.next line rest = .skip behind) :
    sources (line :: rest) =
      (sources behind).map (·.below ((line :: rest).length - behind.length)) := by
  rw [sources]
  split <;> rename_i hnext <;> cases h.symm.trans hnext
  rfl

theorem sources_of_take {element : Element} {warnings : List Text}
    (h : Step.next line rest = .take element warnings behind) :
    sources (line :: rest) = (Forest.nodes [element]).map (⟨Step.placesRead line rest, ·⟩) ++
      (sources behind).map (·.below ((line :: rest).length - behind.length)) := by
  rw [sources]
  split <;> rename_i hnext <;> cases h.symm.trans hnext
  rfl

theorem sources_of_enter {fields : ElementFields}
    (h : Step.next line rest = .enter fields inner behind) :
    sources (line :: rest) =
      ⟨[0], fields⟩ :: ((sources inner).map (·.below (Step.insideStart fields rest)) ++
        (sources behind).map (·.below ((line :: rest).length - behind.length))) := by
  rw [sources]
  split <;> rename_i hnext <;> cases h.symm.trans hnext
  rfl

/-- The sources are those of the recovered elements, each before those of its children. -/
theorem map_fields_sources (lines : List Text) :
    (sources lines).map (·.fields) = (recoverLines lines).elements.nodes := by
  fun_induction recoverLines lines with
  | case1 => simp [sources_nil, Forest.nodes, Forest.flatten]
  | case2 line rest behind hstep ih =>
    rw [sources_of_skip hstep, List.map_map]
    exact ih
  | case3 line rest element warnings behind hstep others ih =>
    rw [sources_of_take hstep, List.map_append, List.map_map, List.map_map]
    exact (congrArg₂ (· ++ ·) (List.map_id _) ih).trans (Forest.nodes_append [element] _).symm
  | case4 line rest fields inner behind hstep inside others ihInside ih =>
    rw [sources_of_enter hstep, List.map_cons, List.map_append, List.map_map, List.map_map,
      Forest.nodes_cons]
    exact congrArg₂ (fun first second => fields :: (first ++ second)) ihInside ih

/-! ## Parts of orderly lines -/

/-- From a place on some lines go on with a part: where they lie in comments, the part is
orderly and lies in comments too. -/
def GoesOnWith (lines : List Text) (start : Nat) (part : List Text) : Prop :=
  start + part.length ≤ lines.length ∧
    ∀ place < part.length, IsCommented lines (start + place) →
      Orderly .code part ∧ IsCommented part place

theorem goesOnWith_nil (lines : List Text) {start : Nat} (h : start ≤ lines.length) :
    GoesOnWith lines start [] :=
  ⟨h, fun _ hplace => absurd hplace (Nat.not_lt_zero _)⟩

/-- Orderly lines go on with the front of the lines that they lead to. -/
theorem LeadsTo.goesOnWith_front (h : LeadsTo .code lines (part ++ more))
    (horderly : Orderly .code lines) :
    GoesOnWith lines (lines.length - (part ++ more).length) part := by
  obtain ⟨front, rfl, hfront⟩ := h
  rw [List.length_append, Nat.add_sub_cancel]
  refine ⟨by simp only [List.length_append]; omega, fun place hplace hcommented => ?_⟩
  have hpart : Orderly .code (part ++ more) := hfront ▸ horderly.append_right
  rw [isCommented_append_right hfront, isCommented_append_left hplace] at hcommented
  exact ⟨hpart.append_left, hcommented⟩

theorem LeadsTo.goesOnWith (h : LeadsTo .code lines behind) (horderly : Orderly .code lines) :
    GoesOnWith lines (lines.length - behind.length) behind := by
  have hfront := @goesOnWith_front lines behind []
  rw [List.append_nil] at hfront
  exact hfront h horderly

/-- Behind the end of a comment, orderly lines go on with the lines below and with the rest
of its line, which is read like the whole line. -/
theorem Orderly.goesOnWith_closed {inside before after : Text}
    (h : Orderly .code (front ++ line :: rest))
    (hcommented : commented? (modeBehind .code front) line = some inside)
    (hcut : Text.cutAt? "*/" inside = some (before, after)) :
    GoesOnWith (front ++ line :: rest)
      ((front ++ line :: rest).length - (Step.behindComment inside rest).length)
      (Step.behindComment inside rest) := by
  obtain ⟨hafter, hrest⟩ := h.append_right.of_closed hcommented hcut
  have hend : modeBehind .code (front ++ [line]) = .code := by
    rw [modeBehind_append]
    exact (lineEnd_closed hcommented hcut).trans hafter.ends
  have hbelow : front ++ line :: rest = (front ++ [line]) ++ rest := by simp
  rw [Moved.behindComment_eq, hcut]
  dsimp only [Option.map_some]
  split
  · exact LeadsTo.goesOnWith ⟨front ++ [line], hbelow, hend⟩ h
  rw [List.length_append, List.length_cons, List.length_cons, Nat.add_sub_cancel]
  refine ⟨by simp, fun place _ hplace => ⟨.code hafter hrest, ?_⟩⟩
  cases place with
  | zero =>
    rw [Nat.add_zero, isCommented_here, onlyComments_eq_reading, reading_closed hcommented hcut,
      ← onlyComments_eq_reading] at hplace
    exact (isCommented_here [] after rest).mpr hplace
  | succ place =>
    have hlength : front.length + (place + 1) = (front ++ [line]).length + place := by
      rw [List.length_append, List.length_singleton]
      omega
    rw [hbelow, hlength, isCommented_append_right hend] at hplace
    have hsingle : modeBehind .code [after] = .code := hafter.ends
    have hown := (@isCommented_append_right [after] rest hsingle place).mpr hplace
    rwa [List.length_singleton, Nat.add_comm] at hown

/-- What recovery goes on with behind a block comment, orderly lines go on with. -/
theorem Orderly.goesOnWith_comment {inside : Text} (h : Orderly .code (front ++ line :: rest))
    (hcommented : commented? (modeBehind .code front) line = some inside) :
    GoesOnWith (front ++ line :: rest)
      ((front ++ line :: rest).length - (Step.behindComment inside rest).length)
      (Step.behindComment inside rest) := by
  induction rest generalizing front line inside with
  | nil =>
    cases hcut : Text.cutAt? "*/" inside with
    | some cut => exact h.goesOnWith_closed hcommented hcut
    | none =>
      rw [Moved.behindComment_eq, hcut]
      exact goesOnWith_nil _ (Nat.sub_le _ _)
  | cons next others ih =>
    cases hcut : Text.cutAt? "*/" inside with
    | some cut => exact h.goesOnWith_closed hcommented hcut
    | none =>
      -- the comment goes on, so the next line is read inside of it
      have hmode : modeBehind .code (front ++ [line]) = .comment := by
        rw [modeBehind_append]
        exact lineEnd_inside hcommented hcut
      have hbelow : front ++ line :: next :: others = (front ++ [line]) ++ next :: others := by simp
      rw [Moved.behindComment_eq, hcut]
      rw [hbelow] at h ⊢
      exact ih h (by rw [hmode]; rfl)

/-- The lines of a block's body stand among the lines of the block. -/
theorem bodyStart_add_length_le (h : findBlock? lines 0 = some block) :
    block.bodyStart lines + (block.bodyLines lines).length ≤ block.endLine + 1 := by
  have hle := openLine_le_endLine h
  have hpiece : ∀ part shown, (Block.piece part shown).length ≤ 1 := by
    intro part shown
    unfold Block.piece
    split <;> simp
  unfold Block.bodyStart Block.bodyLines
  dsimp only
  by_cases hsame : block.openLine = block.endLine
  · rw [if_neg (fun hboth => hboth.1 hsame), if_pos hsame, hsame]
    exact Nat.le_refl _
  have hslice : (slice lines (block.openLine + 1) block.endLine).length ≤
      block.endLine - (block.openLine + 1) := by
    rw [slice, List.length_drop, List.length_take]
    omega
  have hclose := hpiece ((lines.getD block.endLine []).take block.closeColumn)
    ((lines.getD block.endLine []).take block.closeColumn)
  rw [if_neg hsame, List.length_append, List.length_append]
  by_cases hblank : Text.blank ((lines.getD block.openLine []).drop (block.openColumn + 1))
  · rw [if_pos ⟨hsame, hblank⟩, Block.piece, if_pos hblank, List.length_nil]
    omega
  · have hopen := hpiece ((lines.getD block.openLine []).drop (block.openColumn + 1))
      (Text.trim ((lines.getD block.openLine []).drop (block.openColumn + 1)))
    rw [if_neg fun hboth => hblank hboth.2]
    omega

/-- A line with a brace that is code does not lie in comments. -/
theorem Orderly.not_isCommented_brace (h : Orderly .code lines) {c : CodeChar}
    (hmem : c ∈ codeCharsFrom .code 0 lines) (hbrace : c.char = '\x7b' ∨ c.char = '\x7d') :
    ¬ IsCommented lines c.line := by
  obtain ⟨above, line, below, rfl, hline, hchar⟩ := exists_line_of_mem hmem
  obtain ⟨hmode, -, hnot⟩ := h.append_right.of_brace hchar hbrace
  rw [hline, Nat.zero_add, isCommented_here, hmode, hnot]
  exact Bool.false_ne_true

/-- Orderly lines go on with the body of a neat block. -/
theorem Orderly.goesOnWith_body (h : Orderly .code lines) (hblock : findBlock? lines 0 = some block)
    (hneat : block.IsNeat lines) :
    GoesOnWith lines (block.bodyStart lines) (block.bodyLines lines) := by
  have hend := endLine_lt hblock
  have hle := openLine_le_endLine hblock
  obtain ⟨opening, closing, hsublist, hopen, -, heq⟩ := findBlock?_eq_some hblock
  have hopening := hsublist.subset (List.mem_cons_self : opening ∈ [opening, closing])
  have hline : opening.line = block.openLine := by rw [heq]
  refine ⟨(bodyStart_add_length_le hblock).trans hend, ?_⟩
  by_cases hsame : block.openLine = block.endLine
  · -- the body is a piece of the line of its braces
    have hnot := h.not_isCommented_brace hopening (.inl hopen)
    intro place hplace hcommented
    rw [Block.bodyLines, if_pos hsame, List.length_singleton, Nat.lt_one_iff] at hplace
    rw [hplace, Block.bodyStart, if_neg (fun hboth => hboth.1 hsame), Nat.add_zero, ← hline]
      at hcommented
    exact absurd hcommented hnot
  · obtain ⟨hbehind, hfront⟩ := hneat.resolve_left hsame
    have hbody : block.bodyLines lines = slice lines (block.openLine + 1) block.endLine := by
      simp only [Block.bodyLines, Block.piece, if_neg hsame, if_pos hbehind, if_pos hfront,
        List.nil_append, List.append_nil]
    have hstart : block.bodyStart lines = block.openLine + 1 := if_pos ⟨hsame, hbehind⟩
    have hsplit : lines.drop (block.openLine + 1) =
        slice lines (block.openLine + 1) block.endLine ++ lines.drop block.endLine := by
      conv_lhs => rw [← List.take_append_drop block.endLine lines]
      refine List.drop_append_of_le_length ?_
      rw [List.length_take]
      omega
    have hto := (h.leadsTo_brace hopening (.inl hopen)).2
    rw [hline, hsplit] at hto
    have hgoes := (hto.goesOnWith_front h).2
    rw [← hsplit, List.length_drop,
      show lines.length - (lines.length - (block.openLine + 1)) = block.openLine + 1 by omega]
      at hgoes
    rw [hbody, hstart]
    exact hgoes

/-- What lines that are led to go on with, the whole lines go on with. -/
theorem GoesOnWith.of_leadsTo {start : Nat} (h : GoesOnWith behind start part)
    (hto : LeadsTo .code lines behind) :
    GoesOnWith lines (lines.length - behind.length + start) part := by
  have hle : behind.length ≤ lines.length := by
    obtain ⟨front, rfl, -⟩ := hto
    rw [List.length_append]
    omega
  refine ⟨by have := h.1; omega, fun place hplace hcommented => h.2 place hplace ?_⟩
  rw [Nat.add_assoc] at hcommented
  exact (hto.isCommented_iff _).mp hcommented

/-! ## Steps on orderly lines -/

namespace Step

variable {fields : ElementFields} {step : Step}

/-- What a step leaves of some lines: lines that they lead to, and inside of a container lines
that they go on with. -/
def Leaves (line : Text) (rest : List Text) : Step → Prop
  | skip behind | take _ _ behind => LeadsTo .code (line :: rest) behind
  | enter fields inner behind => GoesOnWith (line :: rest) (insideStart fields rest) inner ∧
      LeadsTo .code (line :: rest) behind

/-- What is recognised as a call of one line begins with no comment. -/
theorem begins_of_matchCall? {code : Text} {found : String × ElementFields}
    (h : matchCall? code = some found) : code.startsWith "/*" = false := by
  refine Bool.eq_false_iff.mpr fun hcomment => ?_
  obtain ⟨behind, rfl⟩ := List.isPrefixOf_iff_prefix.mp hcomment
  refine Option.some_ne_none _ (h.symm.trans (matchCall?_eq_none ?_))
  intro pattern hpattern
  simp only [CallShape.all, List.map_cons, List.map_nil, List.mem_cons, List.not_mem_nil,
    or_false] at hpattern
  rcases hpattern with rfl | rfl | rfl | rfl | rfl | rfl | rfl | rfl | rfl | rfl | rfl | rfl | rfl |
    rfl | rfl | rfl | rfl | rfl | rfl | rfl | rfl | rfl | rfl <;> rfl

theorem widget_of_beginning? {code : Text} {shape : ContainerShape}
    (h : ContainerShape.beginning? code = some (shape, fields)) : fields.widget ≠ .foldout := by
  intro hwidget
  obtain ⟨-, hvariable, hclear⟩ := ContainerShape.group_of_beginning? h
  rw [ElementFields.needsVariable, hwidget, hclear] at hvariable
  cases hvariable

theorem leaves_container? (h : Orderly .code (line :: rest)) (hline : CodeLine line rest)
    (hstep : container? line rest = some step) : step.Leaves line rest := by
  obtain ⟨⟨shape, fields⟩, hbegin, rfl⟩ := Option.map_eq_some_iff.mp hstep
  have hto : LeadsTo .code (line :: rest) rest := .of_line hline.ends rest
  dsimp only
  split
  · rename_i count hend
    have hfront := @LeadsTo.goesOnWith_front (line :: rest) (rest.take count) (rest.drop count)
    rw [List.take_append_drop, List.length_cons, Nat.add_sub_cancel_left] at hfront
    have hshape := ContainerShape.mem_of_beginning? hbegin
    refine ⟨?_, hto.trans ((hto.orderly h).leadsTo_end hshape hend)⟩
    rw [insideStart, if_neg (widget_of_beginning? hbegin)]
    exact hfront hto h
  · exact hto

theorem startsWith_of_guard {keyword : String} {variableName code : Text}
    (h : (guard keyword variableName).accepts code) : code.startsWith keyword := by
  obtain ⟨found, hfound⟩ := Option.isSome_iff_exists.mp h
  obtain ⟨head, ⟨first, second, third, hhead, -⟩, hcode⟩ := exists_guard hfound
  rw [hcode, hhead, List.append_assoc]
  exact List.isPrefixOf_iff_prefix.mpr (List.prefix_append _ _)

theorem leaves_foldout? (h : Orderly .code (line :: rest)) (hline : CodeLine line rest)
    (hstep : foldout? line rest = some step) : step.Leaves line rest := by
  obtain ⟨found, -, rfl⟩ := Option.map_eq_some_iff.mp hstep
  have hto : LeadsTo .code (line :: rest) rest := .of_line hline.ends rest
  dsimp only
  split
  · rename_i inner behind hguarded
    obtain ⟨place, code, block, hfirst, hguard, hblock, rfl, rfl⟩ := guarded?_eq_some hguarded
    have hkeyword := startsWith_of_guard hguard
    have hplace := hto.trans (.of_firstCode? hfirst)
    refine ⟨?_, hplace.trans ((hplace.orderly h).leadsTo_block hblock).2⟩
    obtain ⟨next, hnext, hcode⟩ := drop_of_firstCode? hfirst
    have horderly := hplace.orderly h
    have hneat : block.IsNeat (rest.drop place) := by
      rw [hnext] at horderly hblock ⊢
      rw [← hcode] at hkeyword
      obtain ⟨others, hothers⟩ := List.isPrefixOf_iff_prefix.mp hkeyword
      exact (horderly.codeLine (by rw [← hothers]; rfl)).neat hkeyword block hblock
    have hinside := (horderly.goesOnWith_body hblock hneat).of_leadsTo hplace
    have hlt := firstCode?_lt hfirst
    have hlength : (line :: rest).length - (rest.drop place).length = 1 + place := by
      rw [List.length_cons, List.length_drop]
      omega
    rw [hlength] at hinside
    rw [insideStart, show (CallShape.bound .foldout found).widget = .foldout from rfl, if_pos rfl,
      hfirst]
    dsimp only [Option.elim_some]
    rw [hblock]
    exact hinside
  · exact hto

theorem leaves_tabGroup? (h : Orderly .code (line :: rest)) (hline : CodeLine line rest)
    (hstep : tabGroup? line rest = some step) : step.Leaves line rest := by
  obtain ⟨found, -, rfl⟩ := Option.map_eq_some_iff.mp hstep
  have hto : LeadsTo .code (line :: rest) rest := .of_line hline.ends rest
  dsimp only
  split
  · rename_i body behind hguarded
    obtain ⟨place, code, block, hfirst, -, hblock, -, rfl⟩ := guarded?_eq_some hguarded
    have hplace := hto.trans (.of_firstCode? hfirst)
    have hbehind := hplace.trans ((hplace.orderly h).leadsTo_block hblock).2
    refine show LeadsTo .code (line :: rest) (if isEmptySwitch body then
      (rest.drop place).drop (block.endLine + 1) else rest) from ?_
    split
    · exact hbehind
    · exact hto
  · exact hto

theorem leaves_button? (h : Orderly .code (line :: rest)) (hline : CodeLine line rest)
    (hstep : button? line rest = some step) : step.Leaves line rest := by
  have hto : LeadsTo .code (line :: rest) rest := .of_line hline.ends rest
  obtain ⟨found, hfound, hstep⟩ := Option.bind_eq_some_iff.mp hstep
  obtain ⟨fields, -, hstep⟩ := Option.bind_eq_some_iff.mp hstep
  dsimp only at hstep
  split at hstep
  · obtain ⟨block, hblock, rfl⟩ := Option.map_eq_some_iff.mp hstep
    exact (h.leadsTo_block hblock).2
  rename_i hbrace
  split at hstep
  · cases hstep
    exact hto
  rename_i hbare
  split at hstep
  · cases hstep
    exact hto
  · rename_i place code hfirst
    cases hstep
    have hclick : isBareClick (codeOf line) := by
      rw [isBareClick, hfound]
      simpa using hbare
    have hreaches := (hline.click hclick).resolve_left fun hbegins => hbrace (by
      rw [beginsWithBrace] at hbegins
      rw [hbegins, Bool.and_true, Bool.or_eq_true]
      exact .inr (by simpa using hbare))
    have hplace := hto.trans (.of_firstCode? hfirst)
    obtain ⟨next, hnext, -⟩ := drop_of_firstCode? hfirst
    rw [reachesSemicolon_firstCode? hfirst] at hreaches
    rw [hnext] at hplace hreaches ⊢
    exact hplace.trans ((hplace.orderly h).leadsTo_extent (begins_of_reachesSemicolon hreaches)
      (by rw [endsInCode, hreaches, Bool.or_true]))

theorem leaves_labelledTextArea? (h : Orderly .code (line :: rest)) (hline : CodeLine line rest)
    (hstep : labelledTextArea? line rest = some step) : step.Leaves line rest := by
  obtain ⟨_, place, _, _, -, hfirst, hcall, -, rfl⟩ := labelledTextArea?_eq_some hstep
  have hplace := (LeadsTo.of_line hline.ends rest).trans (.of_firstCode? hfirst)
  obtain ⟨next, hnext, rfl⟩ := drop_of_firstCode? hfirst
  rw [hnext] at hplace
  have hend := ((hplace.orderly h).codeLine (begins_of_matchCall? hcall)).ends
  exact hplace.trans (.of_line hend _)

theorem leaves_call? (hline : CodeLine line rest) (hstep : call? line rest = some step) :
    step.Leaves line rest := by
  obtain ⟨_, _, rfl⟩ := Option.map_eq_some_iff.mp hstep
  exact .of_line hline.ends rest

theorem leaves_code (h : Orderly .code (line :: rest)) (hline : CodeLine line rest)
    (hne : codeOf line ≠ []) : (code line rest).Leaves line rest := by
  unfold code
  split
  · rename_i hstarts
    have hbrace : codeOf line ≠ "\x7d" := by
      intro hbrace
      rw [hbrace] at hstarts
      revert hstarts
      decide
    exact h.leadsTo_extent hline.begins ((hline.statement.resolve_left hne).resolve_left hbrace)
  · exact .of_line hline.ends rest

theorem leaves_boilerplate (h : Orderly .code (line :: rest)) (hline : CodeLine line rest)
    (hne : codeOf line ≠ []) :
    LeadsTo .code (line :: rest) (rest.drop (boilerplateExtent (line :: rest))) := by
  unfold boilerplateExtent
  dsimp only [List.headD_cons]
  split
  · exact .of_line hline.ends rest
  · rename_i hends
    have hbrace : codeOf line ≠ "\x7d" := fun hbrace => hends (by rw [hbrace]; rfl)
    exact h.leadsTo_extent hline.begins ((hline.statement.resolve_left hne).resolve_left hbrace)

/-- No line that a step builds an element from lies in comments, and the lines that it leaves
lie in comments where the first ones do. -/
def Keeps (line : Text) (rest : List Text) : Step → Prop
  | skip behind =>
    GoesOnWith (line :: rest) ((line :: rest).length - behind.length) behind
  | take _ _ behind => (∀ place ∈ placesRead line rest, ¬ IsCommented (line :: rest) place) ∧
      GoesOnWith (line :: rest) ((line :: rest).length - behind.length) behind
  | enter fields inner behind => ¬ IsCommented (line :: rest) 0 ∧
      GoesOnWith (line :: rest) (insideStart fields rest) inner ∧
      GoesOnWith (line :: rest) ((line :: rest).length - behind.length) behind

/-- The lines that the element at the front is read from are lines of code. -/
theorem not_isCommented_placesRead (hne : codeOf line ≠ []) (hline : CodeLine line rest) :
    ¬ IsCommented (line :: rest) 0 ∧
      ∀ place ∈ placesRead line rest, ¬ IsCommented (line :: rest) place := by
  have hfirst : ¬ IsCommented (line :: rest) 0 := by
    intro hcommented
    have honly := (isCommented_here [] line rest).mp hcommented
    rw [modeBehind_nil, onlyComments_of_codeOf hne hline.begins] at honly
    cases honly
  refine ⟨hfirst, ?_⟩
  unfold placesRead
  split
  · rename_i harea hcode
    rw [List.forall_mem_cons, List.forall_mem_singleton]
    refine ⟨hfirst, fun hcommented => ?_⟩
    obtain ⟨_, place, _, _, -, hplace, hcall, -, -⟩ := labelledTextArea?_eq_some harea
    obtain ⟨rfl, rfl⟩ := Prod.mk.inj (Option.some.inj (hplace.symm.trans hcode))
    obtain ⟨next, hnext, rfl⟩ := drop_of_firstCode? hcode
    have hto := (LeadsTo.of_line hline.ends rest).trans (.of_firstCode? hcode)
    have hlength : (line :: rest).length - (rest.drop place).length = place + 1 := by
      have hlt := firstCode?_lt hcode
      rw [List.length_cons, List.length_drop]
      omega
    have hhere := (hto.isCommented_iff 0).mp (by rwa [Nat.add_zero, hlength])
    rw [hnext] at hhere
    have honly := (isCommented_here [] next _).mp hhere
    rw [modeBehind_nil, onlyComments_of_codeOf ?_ (begins_of_matchCall? hcall)] at honly
    · cases honly
    · intro hnil
      rw [hnil] at hcall
      cases hcall
  · rwa [List.forall_mem_singleton]

theorem Leaves.keeps (h : Orderly .code (line :: rest)) (hne : codeOf line ≠ [])
    (hline : CodeLine line rest) (hleaves : step.Leaves line rest) : step.Keeps line rest := by
  obtain ⟨hfirst, hplaces⟩ := not_isCommented_placesRead hne hline
  cases step with
  | skip behind => exact LeadsTo.goesOnWith hleaves h
  | take element warnings behind => exact ⟨hplaces, LeadsTo.goesOnWith hleaves h⟩
  | enter fields inner behind => exact ⟨hfirst, hleaves.1, hleaves.2.goesOnWith h⟩

/-- Every step on orderly lines reads lines of code and leaves orderly lines. -/
theorem keeps_next (h : Orderly .code (line :: rest)) : (next line rest).Keeps line rest := by
  unfold next
  dsimp only
  split
  · rename_i hempty
    have hnil := List.isEmpty_iff.mp hempty
    exact (LeadsTo.of_line (line_of_codeOf_nil hnil).2 rest).goesOnWith h
  rename_i hempty
  split
  · rename_i hcomment
    split
    · rename_i opened hcut
      have hcommented : commented? .code line = some opened := by
        rw [commented?, if_pos hcomment, hcut]
        rfl
      exact @Orderly.goesOnWith_comment line rest [] opened h hcommented
    · rename_i hcut
      refine absurd ?_ (Text.notInfix_of_cutAt? hcut)
      exact (List.isPrefixOf_iff_prefix.mp hcomment).isInfix.trans (infix_codeOf line)
  rename_i hbegins
  have hne : codeOf line ≠ [] := fun hnil => hempty (List.isEmpty_iff.mpr hnil)
  have hline := h.codeLine (Bool.eq_false_iff.mpr hbegins)
  split
  · exact (leaves_boilerplate h hline hne).goesOnWith h
  have hcode := leaves_code h hline hne
  refine Leaves.keeps h hne hline (getD_of_forall_mem (fun step hstep => ?_) hcode)
  exact forall_mem_or (forall_mem_or (forall_mem_or (forall_mem_or (forall_mem_or
    (fun _ => leaves_container? h hline) fun _ => leaves_foldout? h hline)
    fun _ => leaves_tabGroup? h hline) fun _ => leaves_button? h hline)
    fun _ => leaves_labelledTextArea? h hline) (fun _ => leaves_call? hline) step hstep

/-! ## Bounds of sources -/

/-- The lines inside of a container stand among those at whose front it begins. -/
def EntersWithin (rest : List Text) : Step → Prop
  | skip _ | take _ _ _ => True
  | enter fields inner _ => insideStart fields rest + inner.length ≤ rest.length + 1

theorem entersWithin_container? (hstep : container? line rest = some step) :
    step.EntersWithin rest := by
  obtain ⟨⟨shape, fields⟩, hbegin, rfl⟩ := Option.map_eq_some_iff.mp hstep
  dsimp only
  split
  · refine show insideStart fields rest + (rest.take _).length ≤ rest.length + 1 from ?_
    rw [insideStart, if_neg (widget_of_beginning? hbegin), List.length_take]
    omega
  · trivial

theorem entersWithin_foldout? (hstep : foldout? line rest = some step) :
    step.EntersWithin rest := by
  obtain ⟨found, -, rfl⟩ := Option.map_eq_some_iff.mp hstep
  dsimp only
  split
  · rename_i inner behind hguarded
    obtain ⟨place, code, block, hfirst, -, hblock, rfl, -⟩ := guarded?_eq_some hguarded
    have hbody := bodyStart_add_length_le hblock
    have hend := endLine_lt hblock
    rw [List.length_drop] at hend
    refine show insideStart (CallShape.bound .foldout found) rest +
      (block.bodyLines (rest.drop place)).length ≤ rest.length + 1 from ?_
    rw [insideStart, show (CallShape.bound .foldout found).widget = .foldout from rfl, if_pos rfl,
      hfirst]
    dsimp only [Option.elim_some]
    rw [hblock]
    dsimp only [Option.elim_some]
    omega
  · trivial

theorem entersWithin_tabGroup? (hstep : tabGroup? line rest = some step) :
    step.EntersWithin rest := by
  obtain ⟨found, -, rfl⟩ := Option.map_eq_some_iff.mp hstep
  dsimp only
  split <;> trivial

theorem entersWithin_button? (hstep : button? line rest = some step) : step.EntersWithin rest := by
  obtain ⟨found, -, hstep⟩ := Option.bind_eq_some_iff.mp hstep
  obtain ⟨fields, -, hstep⟩ := Option.bind_eq_some_iff.mp hstep
  dsimp only at hstep
  split at hstep
  · obtain ⟨block, -, rfl⟩ := Option.map_eq_some_iff.mp hstep
    trivial
  split at hstep
  · cases hstep
    trivial
  split at hstep <;> cases hstep <;> trivial

theorem entersWithin_next (line : Text) (rest : List Text) :
    (next line rest).EntersWithin rest := by
  unfold next
  dsimp only
  split
  · trivial
  split
  · split <;> trivial
  split
  · trivial
  refine getD_of_forall_mem ?_ (by unfold code; split <;> trivial)
  refine forall_mem_or (forall_mem_or (forall_mem_or (forall_mem_or (forall_mem_or
    (fun _ => entersWithin_container?) fun _ => entersWithin_foldout?)
    fun _ => entersWithin_tabGroup?) fun _ => entersWithin_button?) ?_) ?_
  · intro step hstep
    obtain ⟨_, _, _, _, -, -, -, -, rfl⟩ := labelledTextArea?_eq_some hstep
    trivial
  · intro step hstep
    obtain ⟨_, _, rfl⟩ := Option.map_eq_some_iff.mp hstep
    trivial

theorem lt_of_mem_placesRead {place : Nat} (h : place ∈ placesRead line rest) :
    place < rest.length + 1 := by
  unfold placesRead at h
  split at h
  · rename_i hfirst
    have hlt := firstCode?_lt hfirst
    simp only [List.mem_cons, List.not_mem_nil, or_false] at h
    omega
  · rw [List.mem_singleton.mp h]
    exact Nat.succ_pos _

end Step

theorem exists_of_mem_below {start place : Nat} {source : ElementSource}
    (h : source ∈ (sources part).map (·.below start)) (hplace : place ∈ source.places) :
    ∃ own ∈ sources part, ∃ behind ∈ own.places, place = start + behind := by
  obtain ⟨own, hown, rfl⟩ := List.mem_map.mp h
  obtain ⟨behind, hbehind, rfl⟩ := List.mem_map.mp hplace
  exact ⟨own, hown, behind, hbehind, rfl⟩

/-- Sources are among the lines that are recovered. -/
theorem lt_of_mem_sources (lines : List Text) : ∀ source ∈ sources lines,
    ∀ place ∈ source.places, place < lines.length := by
  have hbelow : ∀ {part : List Text} {start bound : Nat}, start + part.length ≤ bound →
      (∀ source ∈ sources part, ∀ place ∈ source.places, place < part.length) →
      ∀ source ∈ (sources part).map (·.below start), ∀ place ∈ source.places, place < bound := by
    intro part start bound hbound hpart source hsource place hplace
    obtain ⟨own, hown, behind, hbehind, rfl⟩ := exists_of_mem_below hsource hplace
    have hlt := hpart own hown behind hbehind
    omega
  have hrest : ∀ {total behind : Nat}, behind ≤ total → total - behind + behind ≤ total :=
    fun hle => (Nat.sub_add_cancel hle).le
  fun_induction recoverLines lines with
  | case1 => simp [sources_nil]
  | case2 line rest behind hstep ih =>
    obtain ⟨tile, -, hcovers⟩ : (Step.skip behind).Covers _ := hstep ▸ Step.next_covers line rest
    rw [sources_of_skip hstep]
    exact hbelow (hrest (hcovers.size_add ▸ Nat.le_add_left _ _)) ih
  | case3 line rest element warnings behind hstep others ih =>
    obtain ⟨size, hcovers⟩ : (Step.take element warnings behind).Covers _ :=
      hstep ▸ Step.next_covers line rest
    rw [sources_of_take hstep, List.forall_mem_append]
    refine ⟨fun source hsource place hplace => ?_,
      hbelow (hrest (hcovers.size_add ▸ Nat.le_add_left _ _)) ih⟩
    obtain ⟨_, -, rfl⟩ := List.mem_map.mp hsource
    exact Step.lt_of_mem_placesRead hplace
  | case4 line rest fields inner behind hstep inside others ihInside ih =>
    have hgroup : (Step.enter fields inner behind).Covers _ := hstep ▸ Step.next_covers line rest
    obtain ⟨size, hcovers⟩ := hgroup inside.elements
    have hinner : (Step.enter fields inner behind).EntersWithin rest :=
      hstep ▸ Step.entersWithin_next line rest
    rw [sources_of_enter hstep, List.forall_mem_cons, List.forall_mem_append]
    refine ⟨fun place hplace => ?_, hbelow hinner ihInside,
      hbelow (hrest (hcovers.size_add ▸ Nat.le_add_left _ _)) ih⟩
    rw [List.mem_singleton.mp hplace]
    exact Nat.succ_pos _

/-! ## Sources of orderly lines -/

/-- The sources in a part of some lines lie outside of comments when they do so on their own. -/
theorem GoesOnWith.not_isCommented {start : Nat} (h : GoesOnWith lines start part)
    (hpart : Orderly .code part →
      ∀ source ∈ sources part, ∀ place ∈ source.places, ¬ IsCommented part place) :
    ∀ source ∈ (sources part).map (·.below start), ∀ place ∈ source.places,
      ¬ IsCommented lines place := by
  intro source hsource place hplace hcommented
  obtain ⟨own, hown, behind, hbehind, rfl⟩ := exists_of_mem_below hsource hplace
  obtain ⟨horderly, hinside⟩ :=
    h.2 behind (lt_of_mem_sources part own hown behind hbehind) hcommented
  exact hpart horderly own hown behind hbehind hinside

/-- No element of orderly lines is built from a line that lies in comments. -/
theorem Orderly.not_isCommented (h : Orderly .code lines) :
    ∀ source ∈ sources lines, ∀ place ∈ source.places, ¬ IsCommented lines place := by
  fun_induction recoverLines lines with
  | case1 => simp [sources_nil]
  | case2 line rest behind hstep ih =>
    have hkeeps : (Step.skip behind).Keeps line rest := hstep ▸ Step.keeps_next h
    rw [sources_of_skip hstep]
    exact hkeeps.not_isCommented ih
  | case3 line rest element warnings behind hstep others ih =>
    obtain ⟨hplaces, hbehind⟩ : (Step.take element warnings behind).Keeps line rest :=
      hstep ▸ Step.keeps_next h
    rw [sources_of_take hstep, List.forall_mem_append]
    refine ⟨fun source hsource => ?_, hbehind.not_isCommented ih⟩
    obtain ⟨_, -, rfl⟩ := List.mem_map.mp hsource
    exact hplaces
  | case4 line rest fields inner behind hstep inside others ihInside ih =>
    obtain ⟨hfirst, hinner, hbehind⟩ : (Step.enter fields inner behind).Keeps line rest :=
      hstep ▸ Step.keeps_next h
    rw [sources_of_enter hstep, List.forall_mem_cons, List.forall_mem_append]
    refine ⟨fun place hplace => ?_, hinner.not_isCommented ihInside, hbehind.not_isCommented ih⟩
    rwa [List.mem_singleton.mp hplace]

/-- Where comments stand between statements, every recovered element is built from lines of
code: none of its lines lies in block comments. -/
theorem recover_outside_comments {body : Text} (h : Orderly .code body.lines) :
    (sources body.lines).map (·.fields) = (recover body).elements.nodes ∧
      ∀ source ∈ sources body.lines, ∀ place ∈ source.places, ¬ IsCommented body.lines place :=
  ⟨map_fields_sources body.lines, h.not_isCommented⟩

/-- A container with a call in a comment, and one behind the comment on its last line. -/
def remarkedBody : Text :=
  Text.unlines ["EditorGUILayout.BeginVertical();", "/*", "EditorGUILayout.LabelField(\"old\");",
    "*/ EditorGUILayout.LabelField(\"new\");", "EditorGUILayout.EndVertical();"]

theorem recover_outside_comments_remarkedBody : Orderly .code remarkedBody.lines ∧
    IsCommented remarkedBody.lines 2 ∧
      (sources remarkedBody.lines).map (·.fields) = (recover remarkedBody).elements.nodes ∧
        ∀ source ∈ sources remarkedBody.lines, ∀ place ∈ source.places,
          ¬ IsCommented remarkedBody.lines place := by
  have hlines : remarkedBody.lines = (["EditorGUILayout.BeginVertical();", "/*",
      "EditorGUILayout.LabelField(\"old\");", "*/ EditorGUILayout.LabelField(\"new\");",
      "EditorGUILayout.EndVertical();"] : List Text) := by decide +kernel
  have hopened : commented? .code "/*" = some [] := by decide +kernel
  have hcut : Text.cutAt? "*/" "*/ EditorGUILayout.LabelField(\"new\");" =
      some ([], (" EditorGUILayout.LabelField(\"new\");" : Text)) := by decide +kernel
  have hlast : Orderly .code ["EditorGUILayout.EndVertical();"] :=
    .code (by decide +kernel) (.done .code)
  have hremark : Orderly .code ["/*", "EditorGUILayout.LabelField(\"old\");",
      "*/ EditorGUILayout.LabelField(\"new\");", "EditorGUILayout.EndVertical();"] :=
    .inside hopened rfl (by decide +kernel)
      (.inside rfl (by decide +kernel) (by decide +kernel)
        (.closed rfl hcut (by decide +kernel) (by decide +kernel) hlast))
  have horderly : Orderly .code remarkedBody.lines := by
    rw [hlines]
    exact .code (by decide +kernel) hremark
  exact ⟨horderly, ⟨_, by rw [hlines]; rfl, by rw [hlines]; decide +kernel⟩,
    recover_outside_comments horderly⟩

/-- A call in a comment that ends a container leaves the rest of the comment to be read. -/
theorem sources_endedInComment :
    let body := Text.unlines ["EditorGUILayout.BeginVertical();", "/*",
      "EditorGUILayout.EndVertical();", "GUILayout.Label(\"a\");", "*/",
      "EditorGUILayout.EndVertical();"]
    (⟨[3], { widget := .label, label := "a" }⟩ : ElementSource) ∈ sources body.lines ∧
      IsCommented body.lines 3 := by
  intro body
  have hlines : body.lines = (["EditorGUILayout.BeginVertical();", "/*",
      "EditorGUILayout.EndVertical();", "GUILayout.Label(\"a\");", "*/",
      "EditorGUILayout.EndVertical();"] : List Text) := by decide +kernel
  have hgroup : Step.next "EditorGUILayout.BeginVertical();" ["/*",
      "EditorGUILayout.EndVertical();", "GUILayout.Label(\"a\");", "*/",
      "EditorGUILayout.EndVertical();"] = .enter { widget := .verticalGroup, label := "Vertical" }
        ["/*"] ["GUILayout.Label(\"a\");", "*/", "EditorGUILayout.EndVertical();"] := rfl
  have hlabel : Step.next "GUILayout.Label(\"a\");" ["*/", "EditorGUILayout.EndVertical();"] =
      .take (.leaf { widget := .label, label := "a" }) []
        ["*/", "EditorGUILayout.EndVertical();"] := rfl
  have hplaces : Step.placesRead "GUILayout.Label(\"a\");"
      ["*/", "EditorGUILayout.EndVertical();"] = [0] := by decide +kernel
  have hread : (⟨[0], { widget := .label, label := "a" }⟩ : ElementSource) ∈
      sources ["GUILayout.Label(\"a\");", "*/", "EditorGUILayout.EndVertical();"] := by
    rw [sources_of_take hlabel, hplaces, Forest.nodes_cons]
    exact List.mem_append_left _ List.mem_cons_self
  refine ⟨?_, _, by rw [hlines]; rfl, by rw [hlines]; decide +kernel⟩
  rw [hlines, sources_of_enter hgroup]
  exact List.mem_cons_of_mem _ (List.mem_append_right _ (List.mem_map.mpr ⟨_, hread, rfl⟩))

end EditorScript
