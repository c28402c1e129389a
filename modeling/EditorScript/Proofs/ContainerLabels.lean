import EditorScript.Proofs.CodeSteps
import EditorScript.Proofs.KindSigns
import EditorScript.Proofs.LineStarts
import EditorScript.Proofs.ReadContainers

/-!
# Labels inside containers

The call that ends a container is looked for in whole lines, so a label counts as well when
its text holds the name of such a call.  A container is read back with its labels exactly when
the calls that the labels name are balanced among themselves (`recover_render_labels`): a label
that names the end of its container ends it (`recover_endingLabel`).
-/

namespace EditorScript

/-! ## Names of calls in a text -/

/-- A text holds a name that does not go on with a character of a word. -/
def HoldsName (name text : Text) : Prop :=
  ∃ front behind, text = front ++ (name ++ behind) ∧ ∀ c ∈ behind.head?, isWord c = false

namespace HoldsName

variable {name first second text : Text} {c : Char}

theorem isInfix (h : HoldsName name text) : name <:+: text := by
  obtain ⟨front, behind, rfl, -⟩ := h
  exact ⟨front, behind, List.append_assoc _ _ _⟩

/-- A name lies on one side of a character that neither it nor a word holds. -/
theorem append_cons_iff (hne : name ≠ []) (hname : c ∉ name) (hword : isWord c = false) :
    HoldsName name (first ++ c :: second) ↔ HoldsName name first ∨ HoldsName name second := by
  constructor
  · rintro ⟨front, behind, heq, hbehind⟩
    rcases List.append_eq_append_iff.mp heq with ⟨middle, rfl, hmiddle⟩ | ⟨middle, rfl, hmiddle⟩
    · cases middle with
      | nil =>
        obtain ⟨d, rest, rfl⟩ := List.exists_cons_of_ne_nil hne
        obtain ⟨rfl, -⟩ := List.cons.inj hmiddle
        exact absurd List.mem_cons_self hname
      | cons d middle =>
        obtain ⟨rfl, rfl⟩ := List.cons.inj hmiddle
        exact .inr ⟨middle, behind, rfl, hbehind⟩
    · rcases List.append_eq_append_iff.mp hmiddle with ⟨rest, rfl, hrest⟩ | ⟨rest, rfl, hrest⟩
      · refine .inl ⟨front, rest, by simp, fun d hd => hbehind d ?_⟩
        rw [hrest, List.head?_append, Option.mem_def.mp hd]
        rfl
      · cases rest with
        | nil => exact .inl ⟨front, [], by simp, by rintro d ⟨⟩⟩
        | cons d rest =>
          obtain ⟨rfl, -⟩ := List.cons.inj hrest
          exact absurd (List.mem_append_right _ List.mem_cons_self) hname
  · rintro (⟨front, behind, rfl, hbehind⟩ | ⟨front, behind, rfl, hbehind⟩)
    · refine ⟨front, behind ++ c :: second, by simp, ?_⟩
      cases behind with
      | nil =>
        rintro d ⟨⟩
        exact hword
      | cons d rest => exact hbehind
    · exact ⟨first ++ c :: front, behind, by simp, hbehind⟩

/-- A character with which the name does not begin is passed over. -/
theorem cons_iff (hne : name ≠ []) (hfirst : name.head? ≠ some c) :
    HoldsName name (c :: text) ↔ HoldsName name text := by
  constructor
  · rintro ⟨front, behind, heq, hbehind⟩
    cases front with
    | nil =>
      obtain ⟨d, rest, rfl⟩ := List.exists_cons_of_ne_nil hne
      obtain ⟨rfl, -⟩ := List.cons.inj heq
      exact absurd rfl hfirst
    | cons d front =>
      obtain ⟨-, rfl⟩ := List.cons.inj heq
      exact ⟨front, behind, rfl, hbehind⟩
  · rintro ⟨front, behind, rfl, hbehind⟩
    exact ⟨c :: front, behind, rfl, hbehind⟩

/-- A literal holds the names that its content holds. -/
theorem escape_iff (hquotable : areQuotable [name]) (hnewline : '\n' ∉ name) (htab : '\t' ∉ name)
    (front : Text) :
    HoldsName name (front ++ escape text) ↔ HoldsName name (front ++ text) := by
  obtain ⟨hne, hslash, hquote, hn, ht⟩ := areQuotable_singleton_iff.mp hquotable
  induction text generalizing front with
  | nil => exact Iff.rfl
  | cons c rest ih =>
    have hspecial : ∀ {d : Char}, c ∉ name → isWord c = false → name.head? ≠ some d →
        (HoldsName name (front ++ '\\' :: d :: escape rest) ↔
          HoldsName name (front ++ c :: rest)) := by
      intro d hname hword hd
      rw [append_cons_iff hne hslash (by decide), append_cons_iff hne hname hword,
        cons_iff hne hd]
      exact or_congr_right (ih [])
    have hshape := escape_cons c rest
    unfold escapeChar at hshape
    split_ifs at hshape with h1 h2 h3 h4
    all_goals rw [hshape]
    · exact hspecial (h1 ▸ hslash) (by rw [h1]; decide)
        fun hd => hslash (List.mem_of_mem_head? hd)
    · exact hspecial (h2 ▸ hquote) (by rw [h2]; decide)
        fun hd => hquote (List.mem_of_mem_head? hd)
    · exact hspecial (h3 ▸ hnewline) (by rw [h3]; decide) hn
    · exact hspecial (h4 ▸ htab) (by rw [h4]; decide) ht
    · simpa using ih (front ++ [c])

end HoldsName

open Pattern

namespace ContainerPair

variable {pair : ContainerPair} {call : String} {text : Text}

/-- The name of a class is read off. -/
theorem run_owner {β : Type} (pair : ContainerPair) (next : Position → Option β)
    (before : Option Char) (rest : Text) :
    pair.owner.run next ⟨before, pair.ownerName ++ rest, []⟩ =
      next ⟨pair.ownerName.getLast?.or before, rest, []⟩ := by
  have hlayout : ContainerShape.layoutGui.run next ⟨before, "GUILayout".toList ++ rest, []⟩ =
      next ⟨"GUILayout".toList.getLast?.or before, rest, []⟩ := by
    have hcapital : "Editor".toList = 'E' :: "ditor".toList := by decide
    have hnone : (text "Editor".toList).run ((text "GUILayout".toList).run next)
        ⟨before, "GUILayout".toList ++ rest, []⟩ = none := by
      rw [hcapital]
      exact run_text_ne (by rintro c ⟨⟩; decide) _ before []
    rw [ContainerShape.layoutGui, run_append, run_opt_none hnone, run_text_eq]
  cases pair with
  | disabledGroup => exact run_text_eq _ _ _ _
  | horizontal | vertical | scrollView => exact hlayout

/-- A call occurs in a text that holds its name. -/
theorem occurs_named_iff (hword : call.toList.getLast?.any isWord) :
    (ContainerShape.named pair.owner call).occurs text ↔ HoldsName (pair.callName call) text := by
  constructor
  · intro hoccurs
    rw [occurs, search?, Option.isSome_map, Option.isSome_iff_ne_none] at hoccurs
    obtain ⟨front, rest, rfl, hmatch⟩ := exists_of_searchFrom hoccurs
    obtain ⟨place, hplace⟩ := Option.ne_none_iff_exists'.mp hmatch
    obtain ⟨later, hreaches, -⟩ := run_sound hplace
    obtain ⟨behind, hreaches, hboundary⟩ := hreaches.append
    obtain ⟨_, hreaches, hcall⟩ := hreaches.append
    obtain ⟨_, howner, hpoint⟩ := hreaches.append
    obtain ⟨margin, hmargin⟩ := owner_eq howner
    refine ⟨front ++ margin, behind.after, ?_, ?_⟩
    · dsimp only at hmargin
      rw [hmargin, hpoint.text_eq, hcall.text_eq, callName]
      simp
    · obtain ⟨last, hlast, hlastWord⟩ := (Option.any_eq_true isWord _).mp hword
      have hbefore : behind.before = some last := by
        rw [hcall.before_eq, hlast]
        rfl
      unfold boundary at hboundary
      cases hboundary with
      | check hholds =>
        dsimp only at hholds
        intro c hc
        rw [hbefore] at hholds
        rw [Option.mem_def.mp hc] at hholds
        simpa [hlastWord] using hholds
  · rintro ⟨front, behind, rfl, hbehind⟩
    refine occurs_append (fun before => ?_) front
    obtain ⟨last, hlast, hlastWord⟩ := (Option.any_eq_true isWord _).mp hword
    have hpoint : pair.callName call ++ behind =
        pair.ownerName ++ (".".toList ++ (call.toList ++ behind)) := by
      rw [callName]
      simp
    have hnone : behind.head?.any isWord = false := by
      cases hhead : behind.head? with
      | none => rfl
      | some c => exact hbehind c hhead
    rw [matchAt, hpoint, ContainerShape.named, run_append, run_append, run_append, run_owner,
      run_text_eq, run_text_eq, boundary, run, hlast, hnone, Option.some_or,
      Option.any_some, hlastWord]
    rfl

end ContainerPair

/-! ## Counting the calls in some texts -/

/-- How many containers of a pair are open behind a text, when `depth` are open in front of it;
none when the text ends one although none is open. -/
def ContainerPair.depthAfter? (pair : ContainerPair) (depth : Nat) (text : Text) : Option Nat :=
  let depth :=
    if (ContainerShape.named pair.owner pair.opening).occurs text then depth + 1 else depth
  if (ContainerShape.named pair.owner pair.closing).occurs text then
    match depth with
    | 0 => none
    | outer + 1 => some outer
  else some depth

/-- How many are open behind some texts, one behind the other. -/
def ContainerPair.depthBehind? (pair : ContainerPair) (depth : Nat) (texts : List Text) :
    Option Nat :=
  texts.foldlM pair.depthAfter? depth

/-- In the code of a line the calls of a pair occur that occur in a text. -/
def ContainerPair.SameCalls (pair : ContainerPair) (line text : Text) : Prop :=
  ∀ call ∈ [pair.opening, pair.closing],
    (ContainerShape.named pair.owner call).occurs (codeOf line) =
      (ContainerShape.named pair.owner call).occurs text

namespace ContainerShape

variable {shape : ContainerShape} {pair : ContainerPair} {lines texts : List Text} {depth : Nat}

/-- The search for the end of a container at a line with the calls of a text. -/
theorem linesToEnd?_cons_of_sameCalls (hpair : shape.HasPair pair.owner pair.name)
    {line text : Text} (hsame : pair.SameCalls line text) (depth : Nat) (rest : List Text) :
    shape.linesToEnd? depth (line :: rest) =
      match pair.depthAfter? depth text with
      | none => some 0
      | some later => (shape.linesToEnd? later rest).map (· + 1) := by
  have hopens : shape.opens.occurs (codeOf line) =
      (named pair.owner pair.opening).occurs text := by
    rw [hpair.opens]
    exact hsame _ List.mem_cons_self
  have hcloses : shape.closes.occurs (codeOf line) =
      (named pair.owner pair.closing).occurs text := by
    rw [hpair.closes]
    exact hsame _ (List.mem_cons_of_mem _ List.mem_cons_self)
  rw [linesToEnd?, ContainerPair.depthAfter?, hopens, hcloses]
  by_cases hends : (named pair.owner pair.closing).occurs text
  · simp only [hends, if_true]
    cases (if (named pair.owner pair.opening).occurs text = true then depth + 1 else depth) <;> rfl
  · simp only [hends]
    rfl

/-- The call that ends a container is looked for behind lines that end none. -/
theorem linesToEnd?_of_depthBehind? (hpair : shape.HasPair pair.owner pair.name)
    (hsame : List.Forall₂ pair.SameCalls lines texts) {later : Nat}
    (h : pair.depthBehind? depth texts = some later) (rest : List Text) :
    shape.linesToEnd? depth (lines ++ rest) =
      (shape.linesToEnd? later rest).map (· + lines.length) := by
  induction hsame generalizing depth with
  | nil =>
    obtain rfl := Option.some.inj h
    simp
  | @cons line text lines texts hline _ ih =>
    obtain ⟨inner, hinner, hothers⟩ := Option.bind_eq_some_iff.mp h
    rw [List.cons_append, linesToEnd?_cons_of_sameCalls hpair hline, hinner]
    dsimp only
    rw [ih hothers, Option.map_map]
    rfl

/-- Otherwise one of the lines ends the container. -/
theorem linesToEnd?_of_ending (hpair : shape.HasPair pair.owner pair.name)
    (hsame : List.Forall₂ pair.SameCalls lines texts)
    (h : pair.depthBehind? depth texts = none) (rest : List Text) :
    ∃ count < lines.length, shape.linesToEnd? depth (lines ++ rest) = some count := by
  induction hsame generalizing depth with
  | nil => cases h
  | @cons line text lines texts hline _ ih =>
    rw [List.cons_append, linesToEnd?_cons_of_sameCalls hpair hline]
    cases hinner : pair.depthAfter? depth text with
    | none => exact ⟨0, Nat.succ_pos _, rfl⟩
    | some inner =>
      have hothers : pair.depthBehind? inner texts = none := by
        have hbind : (pair.depthAfter? depth text).bind
            (fun inner => pair.depthBehind? inner texts) = none := h
        rwa [hinner] at hbind
      obtain ⟨count, hcount, hfound⟩ := ih hothers
      exact ⟨count + 1, Nat.succ_lt_succ hcount, by dsimp only; rw [hfound, Option.map_some]⟩

end ContainerShape

/-! ## Containers whose lines may end them -/

open Step

section Enclosed

variable {front back : Text} {shown : ElementFields} {pair : ContainerPair}
  {lines texts : List Text}

/-- The pair of the two calls is the only one whose calls occur in them. -/
theorem Encloses.exists_shape (h : Encloses front back shown)
    (hopens : (ContainerShape.named pair.owner pair.opening).occurs front) :
    ∃ shape, ContainerShape.beginning? front = some (shape, shown) ∧
      shape.HasPair pair.owner pair.name ∧ pair.Around front back := by
  obtain ⟨other, shape, hbegin, hpair, haround⟩ := h.begins
  obtain rfl : pair = other := by simpa [haround.opens pair] using hopens
  exact ⟨shape, hbegin, hpair, haround⟩

/-- The step at the call that begins a container goes by where its end is found. -/
theorem Encloses.next_eq (h : Encloses front back shown) {shape : ContainerShape}
    (hbegin : ContainerShape.beginning? front = some (shape, shown)) (count : Nat)
    (rest : List Text) :
    next (Text.spaces count ++ front) rest =
      match shape.linesToEnd? 0 rest with
      | some place => .enter shown (rest.take place) (rest.drop (place + 1))
      | none =>
        .take (.ofFields shown) ["Missing close call for layout block: " ++ front] rest := by
  refine next_of_container (h.first.codeOf_eq count) h.first.ne_nil h.plainly ?_
  rw [container?, h.first.codeOf_eq, hbegin]
  rfl

/-- The call at the end of a container ends one container of its pair. -/
theorem Encloses.linesToEnd?_last (h : Encloses front back shown) {shape : ContainerShape}
    (hpair : shape.HasPair pair.owner pair.name) (haround : pair.Around front back) (count : Nat) :
    shape.linesToEnd? 0 [Text.spaces count ++ back] = some 0 ∧
      ∀ outer, shape.linesToEnd? (outer + 1) [Text.spaces count ++ back] = none := by
  have hopens : (ContainerShape.named pair.owner ("Begin" ++ pair.name)).occurs back = false :=
    haround.close' pair
  have hcloses : (ContainerShape.named pair.owner ("End" ++ pair.name)).occurs back = true :=
    (haround.closes pair).trans (decide_eq_true rfl)
  simp [ContainerShape.linesToEnd?, hpair.opens, hpair.closes, h.last.codeOf_eq, hopens, hcloses]

/-- A container is left at its own end behind lines that leave none open. -/
theorem Encloses.recoverLines_balanced (h : Encloses front back shown)
    (hopens : (ContainerShape.named pair.owner pair.opening).occurs front)
    (hsame : List.Forall₂ pair.SameCalls lines texts) (hdepth : pair.depthBehind? 0 texts = some 0)
    (count : Nat) :
    recoverLines ((Text.spaces count ++ front) :: (lines ++ [Text.spaces count ++ back])) =
      ⟨[.group shown (recoverLines lines).elements], (recoverLines lines).warnings⟩ := by
  obtain ⟨shape, hbegin, hpair, haround⟩ := h.exists_shape hopens
  have hnext := h.next_eq hbegin count (lines ++ [Text.spaces count ++ back])
  rw [ContainerShape.linesToEnd?_of_depthBehind? hpair hsame hdepth,
    (h.linesToEnd?_last hpair haround count).1] at hnext
  simp only [Option.map_some, Nat.zero_add, List.take_left'] at hnext
  rw [List.drop_of_length_le (by simp)] at hnext
  rw [recoverLines_of_enter hnext, recoverLines_nil, List.append_nil]

/-- Where the lines end the container or leave others open in it, the call at its end is read
behind it, with what is left of the lines. -/
theorem Encloses.recoverLines_unbalanced (h : Encloses front back shown)
    (hopens : (ContainerShape.named pair.owner pair.opening).occurs front)
    (hsame : List.Forall₂ pair.SameCalls lines texts)
    (hdepth : pair.depthBehind? 0 texts ≠ some 0) (count : Nat) :
    ∃ element dropped, (recoverLines ((Text.spaces count ++ front) ::
        (lines ++ [Text.spaces count ++ back]))).elements =
      element :: (recoverLines (lines.drop dropped ++ [Text.spaces count ++ back])).elements := by
  obtain ⟨shape, hbegin, hpair, haround⟩ := h.exists_shape hopens
  have hnext := h.next_eq hbegin count (lines ++ [Text.spaces count ++ back])
  cases hbehind : pair.depthBehind? 0 texts with
  | none =>
    obtain ⟨place, hplace, hend⟩ := ContainerShape.linesToEnd?_of_ending hpair hsame hbehind
      [Text.spaces count ++ back]
    rw [hend] at hnext
    dsimp only at hnext
    rw [List.drop_append_of_le_length (Nat.succ_le_of_lt hplace)] at hnext
    exact ⟨_, _, by rw [recoverLines_of_enter hnext]⟩
  | some later =>
    obtain ⟨outer, rfl⟩ := Nat.exists_eq_succ_of_ne_zero
      (show later ≠ 0 from fun hzero => hdepth (hzero ▸ hbehind))
    rw [ContainerShape.linesToEnd?_of_depthBehind? hpair hsame hbehind,
      (h.linesToEnd?_last hpair haround count).2] at hnext
    exact ⟨_, 0, by rw [recoverLines_of_take hnext, List.drop_zero]⟩

end Enclosed

/-! ## Labels as lines -/

namespace ElementFields

variable {fields : ElementFields} {labels : List ElementFields} {kind : ScriptKind}
  {width level : Nat}

/-- A label that is written as a call and whose style can be read back. -/
structure IsReadableLabel (fields : ElementFields) : Prop where
  widget : fields.widget = .label
  known : fields.isOpaque = false
  style : fields.HasReadableStyle

/-- The call that a label is written as. -/
def labelCall (fields : ElementFields) : Text :=
  "EditorGUILayout.LabelField(" ++
    fields.styledArguments [quote fields.label] "EditorStyles.label" ++ ");"

theorem statement_labelCall (fields : ElementFields) : Statement fields.labelCall :=
  statement_of_textCall fields.labelCall_eq (neutral_styledCall (neutral_literal (by decide))
    (List.forall_mem_singleton.mpr (separable_quote fields.label))
    (neutral_literal (by decide)).separable (loose_literal (by decide) (by decide)))

/-- The names of calls of a pair are read as whole words, also out of a literal. -/
theorem callName_spec (pair : ContainerPair) : ∀ call ∈ [pair.opening, pair.closing],
    pair.callName call ∈ ContainerPair.callNames ∧
      call.toList.getLast?.any isWord ∧ areQuotable [pair.callName call] ∧
        '\n' ∉ pair.callName call ∧ '\t' ∉ pair.callName call ∧ '(' ∉ pair.callName call := by
  cases pair <;> decide

/-- In the call of a label the calls of a pair occur that its text names. -/
theorem sameCalls_labelCall (pair : ContainerPair) (hstyle : fields.HasReadableStyle)
    (count : Nat) : pair.SameCalls (Text.spaces count ++ fields.labelCall) fields.label := by
  intro call hcall
  obtain ⟨hname, hword, hquotable, hnewline, htab, hopen⟩ := callName_spec pair call hcall
  obtain ⟨hne, -, hquote, -⟩ := areQuotable_singleton_iff.mp hquotable
  have hclear : ∀ {text : Text}, Avoids ContainerPair.callNames text →
      ¬ HoldsName (pair.callName call) text := fun havoids hholds =>
    havoids _ hname hholds.isInfix
  have htail : Avoids ContainerPair.callNames
      (commaEach (fields.style? "EditorStyles.label").toList ++ ");".toList) :=
    ContainerPair.avoids_callNames
      (avoids_styleTail foreign_containerCalls (by decide_cbv) hstyle.word)
  have hfront : Avoids ContainerPair.callNames "EditorGUILayout.LabelField".toList := by
    decide +kernel
  have hempty : Avoids ContainerPair.callNames [] := by decide +kernel
  have hquoted : ∀ rest : Text, quote fields.label ++ rest =
      [] ++ '"' :: (escape fields.label ++ '"' :: rest) := by
    intro rest
    simp [quote_eq]
  have hcode : fields.labelCall = "EditorGUILayout.LabelField".toList ++ '(' :: ([] ++ '"' ::
      (escape fields.label ++ '"' ::
        (commaEach (fields.style? "EditorStyles.label").toList ++ ");".toList))) :=
    fields.labelCall_eq.trans (congrArg ("EditorGUILayout.LabelField".toList ++ '(' :: ·)
      (hquoted _))
  rw [(statement_labelCall fields).codeOf_eq, Bool.eq_iff_iff,
    ContainerPair.occurs_named_iff hword, ContainerPair.occurs_named_iff hword, hcode,
    HoldsName.append_cons_iff hne hopen (by decide),
    HoldsName.append_cons_iff hne hquote (by decide),
    HoldsName.append_cons_iff hne hquote (by decide)]
  have hescape := @HoldsName.escape_iff _ fields.label hquotable hnewline htab []
  rw [List.nil_append, List.nil_append] at hescape
  rw [hescape, or_iff_right (hclear hfront), or_iff_right (hclear hempty),
    or_iff_left (hclear htail)]

/-- Labels are written as one call each. -/
theorem renderAll_labels (h : ∀ label ∈ labels, IsReadableLabel label) :
    renderAll width level kind (labels.map .leaf) =
      .ok (labels.map fun label => indentation width level ++ label.labelCall) := by
  induction labels with
  | nil => rfl
  | cons label rest ih =>
    rw [List.forall_mem_cons] at h
    have hrender : (Element.leaf label).render width level kind =
        .ok (indentation width level ++ label.labelCall) := by
      simp only [Element.render, render, h.1.known, lines, h.1.widget, Bool.false_eq_true,
        if_false, Except.map, Text.unlines_singleton]
      rfl
    have hne : (indentation width level ++ label.labelCall).isEmpty = false := by
      rw [List.isEmpty_eq_false_iff, Ne, List.append_eq_nil_iff]
      exact fun hnil => (statement_labelCall label).ne_nil hnil.2
    rw [List.map_cons, renderAll, hrender, ih h.2]
    simp [hne, bind, Except.bind, pure, Except.pure]

/-- They are read back in their order in front of anything that leaves them their texts. -/
theorem recoverLines_labels (h : ∀ label ∈ labels, IsReadableLabel label) (kind : ScriptKind)
    (count : Nat) {rest : List Text} (hrest : LabelSafe rest) :
    recoverLines ((labels.map fun label => Text.spaces count ++ label.labelCall) ++ rest) =
      ⟨(labels.map fun label => .leaf (label.readBack kind)) ++ (recoverLines rest).elements,
        (recoverLines rest).warnings⟩ := by
  have hsafe : ∀ {labels : List ElementFields}, (∀ label ∈ labels, IsReadableLabel label) →
      LabelSafe ((labels.map fun label => Text.spaces count ++ label.labelCall) ++ rest) := by
    intro labels h
    cases labels with
    | nil => exact hrest
    | cons label others =>
      obtain ⟨hwidget, -, hstyle⟩ := h label List.mem_cons_self
      obtain ⟨-, name, hcall⟩ := reads_label hstyle hwidget kind
      refine labelSafe_of_statement (statement_labelCall label) (fun found hfound => ?_) _ _
      obtain rfl := Option.some.inj (hcall.symm.trans hfound)
      rw [widget_readBack, hwidget]
      decide
  induction labels with
  | nil => rfl
  | cons label others ih =>
    rw [List.forall_mem_cons] at h
    obtain ⟨hordinary, name, hcall⟩ := reads_label h.1.style h.1.widget kind
    have hstatement := statement_labelCall label
    have hnext := next_of_call (hstatement.codeOf_eq count) hstatement.ne_nil hordinary
      (hsafe h.2) hcall
    rw [List.map_cons, List.cons_append, recoverLines_of_take hnext, ih h.2]
    rfl

end ElementFields

/-! ## Containers of labels -/

/-- The pair of calls around a container. -/
def ContainerPair.ofWidget : Widget → ContainerPair
  | .horizontalGroup => horizontal
  | .scrollView => scrollView
  | .disabledGroup => disabledGroup
  | _ => vertical

namespace ElementFields

variable {fields : ElementFields} {labels : List ElementFields} {kind : ScriptKind}

/-- What of a container is written into the calls around it. -/
def frame (fields : ElementFields) : ElementFields :=
  match fields.widget with
  | .disabledGroup =>
    { widget := .disabledGroup, label := [], disableCondition := fields.disableCondition }
  | .box =>
    { widget := .box, label := [], boxStyle := fields.boxStyle, fontSize := fields.fontSize,
      fontStyle := fields.fontStyle, alignment := fields.alignment }
  | widget => { widget, label := [] }

/-- The calls around a container enclose it when what is written into them is plain. -/
theorem encloses_frame (h : fields.frame.Plain) (hwidget : fields.widget ∈ groupWidgets)
    (kind : ScriptKind) :
    Encloses fields.groupCalls.1 fields.groupCalls.2 (fields.readBack kind) := by
  have hframe : fields.frame.widget = fields.widget ∧ fields.frame.groupCalls = fields.groupCalls ∧
      fields.frame.readBack kind = fields.readBack kind := by
    simp only [groupWidgets, List.mem_cons, List.not_mem_nil, or_false] at hwidget
    rcases hwidget with hwidget | hwidget | hwidget | hwidget | hwidget
    · simp only [frame, groupCalls, readBack, onlyLabel, hwidget, and_self]
    · simp only [frame, groupCalls, readBack, onlyLabel, hwidget, and_self]
    · simp only [frame, groupCalls, readBack, onlyLabel, hwidget, and_self]
    · simp only [frame, groupCalls, readBack, onlyLabel, hwidget, and_self]
    · simp only [frame, groupCalls, readBack, onlyLabel, withLook, style?, styleChanges, hwidget,
        and_self]
  obtain ⟨hsame, hcalls, hread⟩ := hframe
  rw [← hcalls, ← hread]
  exact encloses_groupCalls h (hsame ▸ hwidget)

theorem occurs_opening_groupCalls (hwidget : fields.widget ∈ groupWidgets) :
    (ContainerShape.named (ContainerPair.ofWidget fields.widget).owner
      (ContainerPair.ofWidget fields.widget).opening).occurs fields.groupCalls.1 := by
  simp only [groupWidgets, List.mem_cons, List.not_mem_nil, or_false] at hwidget
  rcases hwidget with hwidget | hwidget | hwidget | hwidget | hwidget
  all_goals
    simp only [groupCalls, hwidget]
    rfl

/-- The calls at the ends of containers. -/
def containerEnds : List Text :=
  ["EditorGUILayout.EndHorizontal();", "EditorGUILayout.EndVertical();",
    "EditorGUILayout.EndScrollView();", "EditorGUI.EndDisabledGroup();"]

theorem groupCalls_mem_containerEnds (hwidget : fields.widget ∈ groupWidgets) :
    fields.groupCalls.2 ∈ containerEnds := by
  simp only [groupWidgets, List.mem_cons, List.not_mem_nil, or_false] at hwidget
  rcases hwidget with hwidget | hwidget | hwidget | hwidget | hwidget
  all_goals
    simp only [groupCalls, hwidget]
    decide

theorem containerEnd_unrecognised : ∀ back ∈ containerEnds, startsStatement back ∧
    matchCall? back = none ∧ ∀ pattern ∈ Step.shapes, pattern.match? back = none := by
  decide +kernel

/-- Without its container, the call at the end of one is kept as code. -/
theorem recoverLines_containerEnd {back : Text} (hback : back ∈ containerEnds)
    (h : Statement back) (count : Nat) :
    LabelSafe [Text.spaces count ++ back] ∧
      (recoverLines [Text.spaces count ++ back]).elements ≠ [] := by
  obtain ⟨hstarts, hcall, hnone⟩ := containerEnd_unrecognised back hback
  refine ⟨labelSafe_of_statement h (by simp [hcall]) count [], ?_⟩
  rw [← h.codeOf_eq count] at hstarts hnone
  rw [recoverLines_of_unrecognised hnone hstarts]
  exact List.cons_ne_nil _ _

/-- The text of a container of labels. -/
theorem render_labels (hwidget : fields.widget ∈ groupWidgets) (hknown : fields.isOpaque = false)
    (hlabels : ∀ label ∈ labels, IsReadableLabel label) (width level : Nat) (kind : ScriptKind) :
    (Element.group fields (labels.map .leaf)).render width level kind =
      .ok (Text.unlines ((indentation width level ++ fields.groupCalls.1) ::
        ((labels.map fun label => indentation width (level + 1) ++ label.labelCall) ++
          [indentation width level ++ fields.groupCalls.2]))) := by
  have hshows : fields.showsChildren = true := by
    simp only [groupWidgets, List.mem_cons, List.not_mem_nil, or_false] at hwidget
    rw [showsChildren, hknown]
    rcases hwidget with hwidget | hwidget | hwidget | hwidget | hwidget <;> rw [hwidget] <;> rfl
  have hlines : ∀ inner, fields.lines width level kind inner =
      .ok ((indentation width level ++ fields.groupCalls.1) :: inner ++
        [indentation width level ++ fields.groupCalls.2]) := by
    intro inner
    simp only [groupWidgets, List.mem_cons, List.not_mem_nil, or_false] at hwidget
    rcases hwidget with hwidget | hwidget | hwidget | hwidget | hwidget <;>
      simp only [lines, hwidget]
  rw [Element.render, if_pos hshows, renderAll_labels hlabels]
  simp only [bind, Except.bind, render, hknown, hlines]
  rfl

/-- A container with labels is read back as it was, with these labels in their order, exactly
when their texts name the calls of its pair as if each of them began or ended a container
inside it. -/
theorem recover_render_labels (hwidget : fields.widget ∈ groupWidgets)
    (hknown : fields.isOpaque = false) (hframe : fields.frame.Plain)
    (hlabels : ∀ label ∈ labels, IsReadableLabel label) (width level : Nat) (kind : ScriptKind) :
    ∃ text, (Element.group fields (labels.map .leaf)).render width level kind = .ok text ∧
      (recover text = ⟨[.group (fields.readBack kind)
          (labels.map fun label => .leaf (label.readBack kind))], []⟩ ↔
        (ContainerPair.ofWidget fields.widget).depthBehind? 0 (labels.map (·.label)) = some 0) := by
  have hencloses := encloses_frame hframe hwidget kind
  have hopens := occurs_opening_groupCalls hwidget
  obtain ⟨hsafe, hkept⟩ := recoverLines_containerEnd (groupCalls_mem_containerEnds hwidget)
    hencloses.last (width * level)
  have hsame : List.Forall₂ (ContainerPair.ofWidget fields.widget).SameCalls
      (labels.map fun label => Text.spaces (width * (level + 1)) ++ label.labelCall)
      (labels.map (·.label)) := by
    rw [List.forall₂_map_left_iff, List.forall₂_map_right_iff, List.forall₂_same]
    exact fun label hlabel => sameCalls_labelCall _ (hlabels label hlabel).style _
  have hlines : (Text.unlines ((indentation width level ++ fields.groupCalls.1) ::
      ((labels.map fun label => indentation width (level + 1) ++ label.labelCall) ++
        [indentation width level ++ fields.groupCalls.2]))).lines =
      (Text.spaces (width * level) ++ fields.groupCalls.1) ::
        ((labels.map fun label => Text.spaces (width * (level + 1)) ++ label.labelCall) ++
          [Text.spaces (width * level) ++ fields.groupCalls.2]) := by
    have hinner : (labels.map fun label => indentation width (level + 1) ++ label.labelCall).flatMap
        Text.lines = labels.map fun label =>
          Text.spaces (width * (level + 1)) ++ label.labelCall := by
      rw [List.flatMap_map, List.map_eq_flatMap]
      exact List.flatMap_congr fun label _ => (statement_labelCall label).lines_eq _
    rw [Text.lines_unlines (List.cons_ne_nil _ _), List.flatMap_cons, List.flatMap_append, hinner,
      List.flatMap_singleton, indentation, hencloses.first.lines_eq, hencloses.last.lines_eq]
    rfl
  refine ⟨_, render_labels hwidget hknown hlabels width level kind, ?_⟩
  rw [recover, hlines]
  constructor
  · intro hrecover
    by_contra hdepth
    obtain ⟨element, dropped, helements⟩ :=
      hencloses.recoverLines_unbalanced hopens hsame hdepth (width * level)
    have hrest : ∀ label ∈ labels.drop dropped, IsReadableLabel label :=
      fun label hlabel => hlabels label (List.mem_of_mem_drop hlabel)
    rw [← List.map_drop, recoverLines_labels hrest kind _ hsafe, hrecover] at helements
    have hnil := (List.cons.inj helements).2
    exact hkept (List.append_eq_nil_iff.mp hnil.symm).2
  · intro hdepth
    have hinside := recoverLines_labels hlabels kind (width * (level + 1)) labelSafe_nil
    rw [List.append_nil, recoverLines_nil, List.append_nil] at hinside
    rw [hencloses.recoverLines_balanced hopens hsame hdepth, hinside]

/-- Two labels of a box that name a call which begins a container and the one which ends it. -/
theorem recover_render_labels_balanced :
    ({ widget := .box, label := "Log" } : ElementFields).frame.Plain ∧
      (∀ label ∈ [({ widget := .label, label := "GUILayout.BeginVertical" } : ElementFields),
        { widget := .label, label := "\"GUILayout.EndVertical\"" }], IsReadableLabel label) ∧
      ∃ text, (Element.group { widget := .box, label := "Log" }
          [.leaf { widget := .label, label := "GUILayout.BeginVertical" },
            .leaf { widget := .label, label := "\"GUILayout.EndVertical\"" }]).render 4 0
              .editorWindow = .ok text ∧
        recover text = ⟨[.group { widget := .box, label := "Box" }
          [.leaf { widget := .label, label := "GUILayout.BeginVertical" },
            .leaf { widget := .label, label := "\"GUILayout.EndVertical\"" }]], []⟩ := by
  have hframe : ({ widget := .box, label := "Log" } : ElementFields).frame.Plain := by
    constructor <;> simp [frame, limits, texts, needsVariable] <;> decide
  have hlabels : ∀ label ∈ [({ widget := .label, label := "GUILayout.BeginVertical" } :
      ElementFields), { widget := .label, label := "\"GUILayout.EndVertical\"" }],
      IsReadableLabel label := by
    exact List.forall_mem_cons.mpr ⟨⟨rfl, rfl, by rintro name ⟨⟩, by rintro size ⟨⟩⟩,
      List.forall_mem_singleton.mpr ⟨rfl, rfl, by rintro name ⟨⟩, by rintro size ⟨⟩⟩⟩
  have hwidget : ({ widget := .box, label := "Log" } : ElementFields).widget ∈ groupWidgets := by
    decide
  obtain ⟨text, hrender, hrecover⟩ :=
    recover_render_labels hwidget rfl hframe hlabels 4 0 .editorWindow
  exact ⟨hframe, hlabels, text, hrender, hrecover.mpr (by decide +kernel)⟩

/-- A label that names the end of its container ends it. -/
theorem recover_endingLabel :
    let written := Text.unlines ["EditorGUILayout.BeginVertical();",
      "    EditorGUILayout.LabelField(\"GUILayout.EndVertical\");",
      "EditorGUILayout.EndVertical();"]
    (Element.group { widget := .verticalGroup, label := "Steps" }
        [.leaf { widget := .label, label := "GUILayout.EndVertical" }]).render 4 0 .editorWindow =
      .ok written ∧
    recover written = ⟨[.group { widget := .verticalGroup, label := "Vertical" } [],
      .ofCode "EditorGUILayout.EndVertical();"], []⟩ := by
  have hlines : Text.lines (Text.unlines ["EditorGUILayout.BeginVertical();",
      "    EditorGUILayout.LabelField(\"GUILayout.EndVertical\");",
      "EditorGUILayout.EndVertical();"]) = ["EditorGUILayout.BeginVertical();",
      "    EditorGUILayout.LabelField(\"GUILayout.EndVertical\");",
      "EditorGUILayout.EndVertical();"] := by
    decide +kernel
  have hsame : ContainerPair.vertical.SameCalls
      "    EditorGUILayout.LabelField(\"GUILayout.EndVertical\");" "GUILayout.EndVertical" := by
    unfold ContainerPair.SameCalls
    decide +kernel
  have hends : ContainerPair.vertical.depthAfter? 0 "GUILayout.EndVertical" = none := by
    decide +kernel
  have hopens : (ContainerShape.named ContainerPair.vertical.owner
      ContainerPair.vertical.opening).occurs "EditorGUILayout.BeginVertical();" := by
    decide +kernel
  obtain ⟨shape, hbegin, hpair, -⟩ := encloses_vertical.exists_shape hopens
  have hnext := encloses_vertical.next_eq hbegin 0
    ["    EditorGUILayout.LabelField(\"GUILayout.EndVertical\");",
      "EditorGUILayout.EndVertical();"]
  rw [ContainerShape.linesToEnd?_cons_of_sameCalls hpair hsame, hends] at hnext
  have hlast : recoverLines ["EditorGUILayout.EndVertical();"] =
      ⟨[.ofCode "EditorGUILayout.EndVertical();"], []⟩ := by
    have hcode : codeOf "EditorGUILayout.EndVertical();" =
        "EditorGUILayout.EndVertical();".toList :=
      encloses_vertical.last.codeOf_eq 0
    obtain ⟨hstarts, -, hnone⟩ := containerEnd_unrecognised _
      (show "EditorGUILayout.EndVertical();".toList ∈ containerEnds by decide)
    rw [← hcode] at hstarts hnone
    have hextent : extent ["EditorGUILayout.EndVertical();"] = 0 :=
      extent_of_semicolon (by decide +kernel) (by decide +kernel) (by rintro first ⟨⟩)
    have hdedent : Text.dedent "EditorGUILayout.EndVertical();" =
        "EditorGUILayout.EndVertical();".toList := by
      decide +kernel
    rw [recoverLines_of_line hnone hstarts hextent, recoverLines_nil, hdedent]
  refine ⟨by decide +kernel, ?_⟩
  rw [recover, hlines]
  refine (recoverLines_of_enter hnext).trans ?_
  rw [List.take_zero, recoverLines_nil, Nat.zero_add, List.drop_one, List.tail_cons, hlast]
  rfl

end ElementFields

end EditorScript
