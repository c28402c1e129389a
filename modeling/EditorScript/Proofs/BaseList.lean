import EditorScript.Extraction.Header
import EditorScript.Proofs.LineStarts
import EditorScript.Proofs.StoppedSearch

/-!
# Lists of bases

The bases of a class are written with commas between them.  They are read again one by one,
since a comma between angle brackets belongs to the base that it stands in, and what follows
the word `where` belongs to none (`splitBases_join`).  The short name of a type is the text
behind the last point in front of its arguments, without white space around it, and the
arguments.
-/

namespace EditorScript

open Pattern

/-! ## Whole words -/

/-- A word stands in a text with no character of a word beside it. -/
def HasWord (word text : Text) : Prop :=
  ∃ front back, text = front ++ (word ++ back) ∧ (∀ c ∈ front.getLast?, isWord c = false) ∧
    ∀ c ∈ back.head?, isWord c = false

section

variable {word text front back : Text} {c : Char}

theorem HasWord.isInfix (h : HasWord word text) : word <:+: text := by
  obtain ⟨front, back, rfl, -, -⟩ := h
  exact ⟨front, back, List.append_assoc ..⟩

theorem not_hasWord_of_notMem (hc : c ∈ word) (h : c ∉ text) : ¬ HasWord word text :=
  fun hword => h (hword.isInfix.subset hc)

theorem not_hasWord_nil (hne : word ≠ []) : ¬ HasWord word [] :=
  fun h => hne (List.infix_nil.mp h.isInfix)

/-- A word does not lie across a character that belongs to no word. -/
theorem HasWord.append_cons (hword : ∀ d ∈ word, isWord d) (hne : word ≠ [])
    (hc : isWord c = false) (h : HasWord word (front ++ c :: back)) :
    HasWord word front ∨ HasWord word back := by
  obtain ⟨before, behind, heq, hbefore, hbehind⟩ := h
  have hnot : c ∉ word := fun hmem => by
    rw [hword c hmem] at hc
    cases hc
  rcases List.append_eq_append_iff.mp heq with ⟨rest, rfl, hrest⟩ | ⟨rest, rfl, hrest⟩
  · -- the word starts behind the character
    cases rest with
    | nil =>
      obtain ⟨first, others, rfl⟩ := List.exists_cons_of_ne_nil hne
      obtain ⟨rfl, -⟩ := List.cons.inj hrest
      exact absurd List.mem_cons_self hnot
    | cons d others =>
      obtain ⟨rfl, rfl⟩ := List.cons.inj hrest
      refine .inr ⟨others, behind, rfl, fun d hd => hbefore d ?_, hbehind⟩
      rw [List.getLast?_append, List.getLast?_cons, Option.mem_def.mp hd]
      rfl
  · -- the word starts in front of it, and ends there
    rcases List.append_eq_append_iff.mp hrest with ⟨more, rfl, hmore⟩ | ⟨more, rfl, hmore⟩
    · refine .inl ⟨before, more, rfl, hbefore, fun d hd => hbehind d ?_⟩
      rw [hmore, List.head?_append, Option.mem_def.mp hd]
      rfl
    · cases more with
      | nil =>
        rw [List.append_nil] at hnot ⊢
        exact .inl ⟨before, [], by simp, hbefore, by simp⟩
      | cons d others =>
        obtain ⟨rfl, -⟩ := List.cons.inj hmore
        exact absurd (List.mem_append_right _ List.mem_cons_self) hnot

/-- Among texts with commas between them a word stands in one of the texts. -/
theorem exists_hasWord_of_join (hword : ∀ d ∈ word, isWord d) (hne : word ≠ []) {pieces : List Text}
    (h : HasWord word (Text.join ", " pieces)) : ∃ piece ∈ pieces, HasWord word piece := by
  induction pieces with
  | nil => exact absurd h (not_hasWord_nil hne)
  | cons piece rest ih =>
    cases rest with
    | nil =>
      rw [Text.join_singleton] at h
      exact ⟨piece, List.mem_singleton_self piece, h⟩
    | cons next others =>
      rw [Text.join_cons_cons] at h
      rcases h.append_cons hword hne (by decide) with hpiece | hrest
      · exact ⟨piece, List.mem_cons_self, hpiece⟩
      rcases @HasWord.append_cons _ [] _ _ hword hne (by decide) hrest with hnil | hrest
      · exact absurd hnil (not_hasWord_nil hne)
      · obtain ⟨other, hother, hfound⟩ := ih hrest
        exact ⟨other, List.mem_cons_of_mem _ hother, hfound⟩

end

/-- The mark in front of the constraints on type parameters. -/
def wherePattern : Pattern := boundary ++ "where" ++ boundary

/-- The mark is the word with no character of a word beside it. -/
theorem Pattern.Reaches.where_eq {place later : Position} (h : Reaches wherePattern place later) :
    place.after = "where" ++ later.after ∧ (∀ c ∈ place.before, isWord c = false) ∧
      ∀ c ∈ later.after.head?, isWord c = false := by
  have hfirst : isWord 'w' := by decide
  have hlast : isWord 'e' := by decide
  obtain ⟨_, h, hbehind⟩ := h.append
  obtain ⟨_, hbefore, hword⟩ := h.append
  have htext := hword.text_eq
  have hend := hword.before_eq
  cases hbefore with
  | check hbefore =>
  cases hbehind with
  | check hbehind =>
  rw [htext] at hbefore
  rw [hend] at hbehind
  dsimp only at hbefore hbehind
  refine ⟨htext, fun c hc => ?_, fun c hc => ?_⟩
  · rw [Option.mem_def.mp hc] at hbefore
    simpa [hfirst] using hbefore
  · rw [Option.mem_def.mp hc] at hbehind
    simpa [hlast] using hbehind

/-- The mark is found only where the word stands. -/
theorem searchFrom_wherePattern {text : Text} (h : ¬ HasWord "where" text) :
    wherePattern.searchFrom none text = none := by
  by_contra hfound
  obtain ⟨front, rest, rfl, hmatch⟩ := exists_of_searchFrom hfound
  obtain ⟨place, hplace⟩ := Option.ne_none_iff_exists'.mp hmatch
  obtain ⟨later, hreaches, -⟩ := run_sound hplace
  obtain ⟨rfl, hbefore, hbehind⟩ := hreaches.where_eq
  exact h ⟨front, _, rfl, by simpa using hbefore, hbehind⟩

/-- Behind a text without the word, the mark is found where the word comes next. -/
theorem searchFrom_wherePattern_append {text : Text} (h : ¬ HasWord "where" text)
    (constraints : Text) :
    ∃ place, wherePattern.searchFrom none (text ++ (" where " ++ constraints)) =
      some (text ++ [' '], place) := by
  have hstops : wherePattern.StopsAt ' ' := ⟨⟨stopsAt_boundary, stopsAt_text (by decide)⟩,
    stopsAt_boundary⟩
  have hnone : ¬ HasWord "where" (text ++ [' ']) := fun hword =>
    (hword.append_cons (by decide) (by decide) (by decide)).elim h (not_hasWord_nil (by decide))
  have hblank : ∀ before, wherePattern.matchAt before
      (' ' :: ("where".toList ++ ' ' :: constraints)) = none := by
    refine fun before => run_eq_none (fun later hreaches => ?_) some
    have hblank : ' ' = 'w' := (List.cons.inj hreaches.where_eq.1).1
    exact absurd hblank (by decide)
  -- the search cannot read past the space, so what stands behind it does not matter in the text
  have hpasses : Passes wherePattern none (text ++ [' ']) ("where".toList ++ ' ' :: constraints) :=
    ((passes_of_searchFrom (searchFrom_wherePattern hnone)).of_stopsAt hstops).append
      ⟨hblank _, trivial⟩
  have hfound : ∃ place, wherePattern.searchFrom (some ' ') ("where".toList ++ ' ' :: constraints) =
      some ([], place) := ⟨_, rfl⟩
  obtain ⟨place, hplace⟩ := hfound
  refine ⟨place, ?_⟩
  have hshape : text ++ (" where " ++ constraints) =
      (text ++ [' ']) ++ ("where".toList ++ ' ' :: constraints) := by
    rw [List.append_assoc]
    rfl
  rw [hshape, searchFrom_append hpasses, List.getLast?_concat, Option.some_or, hplace]
  simp

/-! ## Commas outside angle brackets -/

/-- How many more angle brackets open in a text than close. -/
def angleDepth (text : Text) : Int :=
  (text.count '<' : Int) - text.count '>'

theorem angleDepth_cons (c : Char) (rest : Text) :
    angleDepth (c :: rest) = angleDepth [c] + angleDepth rest := by
  simp only [angleDepth, List.count_cons, List.count_nil]
  omega

/-- The depth that the split goes on with behind a character. -/
theorem depth_step (depth : Int) (c : Char) :
    (if c = '<' then depth + 1 else if c = '>' then depth - 1 else depth) =
      depth + angleDepth [c] := by
  split_ifs with hopen hclose
  · rw [hopen]
    rfl
  · rw [hclose]
    rfl
  · simp [angleDepth, hopen, hclose]

/-- A base as it stands in a list of bases: no white space is around it, as many angle brackets
close in it as open, its commas stand between them, and the word for constraints is not in it.
That every bracket opens before it closes is not asked for. -/
structure IsBase (token : Text) : Prop where
  nonempty : token ≠ []
  trimmed : token.trim = token
  balanced : angleDepth token = 0
  inside : ∀ index < token.length, token[index]? = some ',' → angleDepth (token.take index) ≠ 0
  lacksWhere : ¬ HasWord "where" token

/-- A piece whose commas stand between angle brackets stays in one piece. -/
theorem splitCommas_append {piece : Text} {depth : Int}
    (h : ∀ index, piece[index]? = some ',' → depth + angleDepth (piece.take index) ≠ 0)
    (current rest : Text) :
    splitCommas depth current (piece ++ rest) =
      splitCommas (depth + angleDepth piece) (current ++ piece) rest := by
  induction piece generalizing depth current with
  | nil =>
    have hnone : angleDepth [] = 0 := rfl
    rw [hnone, Int.add_zero, List.append_nil, List.nil_append]
  | cons c others ih =>
    have hhere : ¬ (c = ',' ∧ depth + angleDepth [c] = 0) := by
      rintro ⟨rfl, hdepth⟩
      exact h 0 rfl hdepth
    have hothers : ∀ index, others[index]? = some ',' →
        depth + angleDepth [c] + angleDepth (others.take index) ≠ 0 := by
      intro index hindex
      have hnext := h (index + 1) hindex
      rwa [List.take_succ_cons, angleDepth_cons, ← Int.add_assoc] at hnext
    rw [List.cons_append, splitCommas, depth_step, if_neg hhere, ih hothers,
      angleDepth_cons c others, Int.add_assoc, List.append_assoc, List.singleton_append]

/-- A comma outside angle brackets and the space behind it end a piece. -/
theorem splitCommas_separator (current rest : Text) :
    splitCommas 0 current (", " ++ rest) = current :: splitCommas 0 [' '] rest := by
  rfl

/-- White space is no piece of its own. -/
theorem splitCommas_blank {back : Text} (h : ∀ c ∈ back, isBlank c) (current : Text) :
    splitCommas 0 current back = [current ++ back] := by
  have hsplit := @splitCommas_append back 0
    (fun index hindex => absurd (h ',' (List.mem_of_getElem? hindex)) (by decide)) current []
  rwa [List.append_nil] at hsplit

/-- The pieces between the commas are the bases, with white space around them. -/
theorem map_trim_splitCommas {tokens : List Text} (h : ∀ token ∈ tokens, IsBase token)
    (hne : tokens ≠ []) {front back : Text} (hfront : ∀ c ∈ front, isBlank c)
    (hback : ∀ c ∈ back, isBlank c) :
    (splitCommas 0 front (Text.join ", " tokens ++ back)).map Text.trim = tokens := by
  induction tokens generalizing front with
  | nil => exact absurd rfl hne
  | cons token others ih =>
    rw [List.forall_mem_cons] at h
    have hinside : ∀ index, token[index]? = some ',' →
        (0 : Int) + angleDepth (token.take index) ≠ 0 := fun index hindex => by
      rw [Int.zero_add]
      exact h.1.inside index (List.getElem?_eq_some_iff.mp hindex).1 hindex
    cases others with
    | nil =>
      rw [Text.join_singleton, splitCommas_append hinside, h.1.balanced, Int.add_zero,
        splitCommas_blank hback, List.map_singleton, List.append_assoc,
        Text.trim_blank_append hfront, Text.trim_append_blank hback, h.1.trimmed]
    | cons next more =>
      -- the space behind the comma goes to the next piece and is trimmed there
      have hrest := @ih h.2 (List.cons_ne_nil _ _) [' '] (by decide)
      rw [Text.join_cons_cons, List.append_assoc, splitCommas_append hinside, h.1.balanced,
        Int.add_zero, List.append_assoc, splitCommas_separator, List.map_cons, hrest,
        Text.trim_blank_append hfront, h.1.trimmed]

/-- The pieces that hold something are the bases. -/
theorem filter_splitCommas {tokens : List Text} (h : ∀ token ∈ tokens, IsBase token) {back : Text}
    (hback : ∀ c ∈ back, isBlank c) :
    ((splitCommas 0 [] (Text.join ", " tokens ++ back)).map Text.trim).filter (!·.isEmpty) =
      tokens := by
  have hkept : ∀ token ∈ tokens, (!token.isEmpty) = true := fun token htoken => by
    simpa using (h token htoken).nonempty
  rcases eq_or_ne tokens [] with rfl | hne
  · have htrim : Text.trim back = [] := by
      rw [← List.append_nil back, Text.trim_blank_append hback]
      rfl
    rw [Text.join_nil, List.nil_append, splitCommas_blank hback, List.nil_append,
      List.map_singleton, htrim]
    rfl
  · rw [map_trim_splitCommas h hne (by simp) hback, List.filter_eq_self.mpr hkept]

/-! ## Short names of types -/

/-- A name of a type in its parts: the qualifier up to its last point, the name behind it, and
the arguments from the first angle bracket on. -/
structure TypeParts (name : Text) where
  qualifier : Text
  own : Text
  arguments : Text
  name_eq : name = qualifier ++ own ++ arguments
  qualifier_ends : ∀ c ∈ qualifier.getLast?, c = '.'
  qualifier_plain : '<' ∉ qualifier
  own_plain : '<' ∉ own
  own_unqualified : '.' ∉ own
  arguments_begin : ∀ c ∈ arguments.head?, c = '<'

/-- A run of characters of a class that is dropped ends where another character follows. -/
theorem eq_false_of_mem_head?_dropWhile {accepts : Char → Bool} {text : Text} {c : Char}
    (h : c ∈ (text.dropWhile accepts).head?) : accepts c = false := by
  have hstop := List.head?_dropWhile_not accepts text
  rwa [Option.mem_def.mp h] at hstop

namespace TypeParts

variable {name : Text}

/-- Every text is a name in its parts. -/
def ofName (name : Text) : TypeParts name where
  qualifier := ((name.takeWhile (· != '<')).reverse.dropWhile (· != '.')).reverse
  own := ((name.takeWhile (· != '<')).reverse.takeWhile (· != '.')).reverse
  arguments := name.dropWhile (· != '<')
  name_eq := by
    rw [← List.reverse_append, List.takeWhile_append_dropWhile, List.reverse_reverse,
      List.takeWhile_append_dropWhile]
  qualifier_ends := by
    intro c hc
    rw [List.getLast?_reverse] at hc
    simpa using eq_false_of_mem_head?_dropWhile hc
  qualifier_plain := fun hmem => by
    have hhead := (List.dropWhile_sublist _).subset (List.mem_reverse.mp hmem)
    simpa using List.mem_takeWhile_imp (List.mem_reverse.mp hhead)
  own_plain := fun hmem => by
    have hhead := (List.takeWhile_sublist _).subset (List.mem_reverse.mp hmem)
    simpa using List.mem_takeWhile_imp (List.mem_reverse.mp hhead)
  own_unqualified := fun hmem => by
    simpa using List.mem_takeWhile_imp (List.mem_reverse.mp hmem)
  arguments_begin := fun c hc => by simpa using eq_false_of_mem_head?_dropWhile hc

/-- The short name is the name without its qualifier and without white space around it, and the
arguments. -/
theorem shortTypeName_eq (parts : TypeParts name) :
    shortTypeName name = parts.own.trim ++ parts.arguments := by
  obtain ⟨qualifier, own, arguments, rfl, hends, hqualifier, hown, hpoint, hbegin⟩ := parts
  have hhead : ∀ c ∈ qualifier ++ own, (c != '<') = true := fun c hc =>
    bne_iff_ne.mpr fun heq => (List.mem_append.mp (heq ▸ hc)).elim hqualifier hown
  have hlast : ∀ c ∈ own.reverse, (c != '.') = true := fun c hc =>
    bne_iff_ne.mpr fun heq => hpoint (List.mem_reverse.mp (heq ▸ hc))
  obtain ⟨htake, hdrop⟩ := takeWhile_run hhead arguments fun c hc => by simp [hbegin c hc]
  obtain ⟨howner, -⟩ := takeWhile_run hlast qualifier.reverse fun c hc => by
    rw [List.head?_reverse] at hc
    simp [hends c hc]
  rw [shortTypeName, htake, hdrop, List.reverse_append, howner, List.reverse_reverse]

end TypeParts

/-- The bases that are joined with commas are split again, whatever constraints stand behind
them; the short name of a type lacks the qualifier in front of its arguments, and the white
space around what is left of the name. -/
theorem splitBases_join (tokens : List Text) (h : ∀ token ∈ tokens, IsBase token) :
    splitBases (Text.join ", " tokens) = tokens ∧
      (∀ constraints, splitBases (Text.join ", " tokens ++ (" where " ++ constraints)) = tokens) ∧
      ∀ name, Nonempty (TypeParts name) ∧ ∀ parts : TypeParts name,
        shortTypeName name = parts.own.trim ++ parts.arguments := by
  have hwhere : ¬ HasWord "where" (Text.join ", " tokens) := fun hword => by
    obtain ⟨token, htoken, hfound⟩ := exists_hasWord_of_join (by decide) (by decide) hword
    exact (h token htoken).lacksWhere hfound
  refine ⟨?_, fun constraints => ?_, fun name => ⟨⟨.ofName name⟩, TypeParts.shortTypeName_eq⟩⟩
  · have hnone := searchFrom_wherePattern hwhere
    unfold wherePattern at hnone
    have hsplit := @filter_splitCommas tokens h [] (by simp)
    rw [List.append_nil] at hsplit
    rw [splitBases, hnone]
    exact hsplit
  · obtain ⟨place, hfound⟩ := searchFrom_wherePattern_append hwhere constraints
    unfold wherePattern at hfound
    rw [splitBases, hfound]
    exact @filter_splitCommas tokens h [' '] (by decide)

/-- A comma between angle brackets, and constraints with a comma behind the list. -/
theorem splitBases_join_arguments :
    (∀ token ∈ ["Lib.Editor".toList, "IMap<Key, List<A, B>>".toList], IsBase token) ∧
      splitBases "Lib.Editor, IMap<Key, List<A, B>>" =
        ["Lib.Editor".toList, "IMap<Key, List<A, B>>".toList] ∧
      splitBases "Lib.Editor, IMap<Key, List<A, B>> where A : class, new()" =
        ["Lib.Editor".toList, "IMap<Key, List<A, B>>".toList] ∧
      shortTypeName "Lib.IMap<Lib.Key, A>" = "IMap<Lib.Key, A>".toList := by
  have hbases : ∀ token ∈ ["Lib.Editor".toList, "IMap<Key, List<A, B>>".toList],
      IsBase token := by
    rintro token (_ | ⟨_, _ | ⟨_, ⟨⟩⟩⟩)
    · exact ⟨by decide, by decide, by decide, by decide,
        not_hasWord_of_notMem (c := 'w') (by decide) (by decide)⟩
    · exact ⟨by decide, by decide, by decide, by decide,
        not_hasWord_of_notMem (c := 'w') (by decide) (by decide)⟩
  have hlist : Text.join ", " ["Lib.Editor".toList, "IMap<Key, List<A, B>>".toList] =
      "Lib.Editor, IMap<Key, List<A, B>>".toList := by decide
  have hname : (TypeParts.ofName "Lib.IMap<Lib.Key, A>").own.trim ++
      (TypeParts.ofName "Lib.IMap<Lib.Key, A>").arguments = "IMap<Lib.Key, A>".toList := by decide
  obtain ⟨hjoin, hwhere, hshort⟩ := splitBases_join _ hbases
  have hconstraints : "Lib.Editor, IMap<Key, List<A, B>>".toList ++
      (" where " ++ "A : class, new()".toList) =
        "Lib.Editor, IMap<Key, List<A, B>> where A : class, new()".toList := by decide
  rw [hlist] at hjoin hwhere
  rw [← hconstraints]
  exact ⟨hbases, hjoin, hwhere _, ((hshort _).2 (.ofName _)).trans hname⟩

/-- White space in front of the arguments belongs to no qualifier, and yet it is left out. -/
theorem shortTypeName_blank :
    IsBase "Foo <T>" ∧ ∃ parts : TypeParts "Foo <T>", parts.qualifier = [] ∧
      shortTypeName "Foo <T>" = "Foo<T>".toList ∧
      shortTypeName "Foo <T>" ≠ parts.own ++ parts.arguments :=
  ⟨⟨by decide, by decide, by decide, by decide,
      not_hasWord_of_notMem (c := 'w') (by decide) (by decide)⟩,
    .ofName _, by decide, by decide, by decide⟩

end EditorScript
