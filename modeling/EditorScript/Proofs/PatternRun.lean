import EditorScript.Proofs.Reaches
import EditorScript.Source.Quoted

/-!
# Running patterns on known text

What a pattern finds on a text that is put together from known pieces.  The
pieces are read off one by one: literal text by its own pattern, runs of a class
as far as they go, a written literal as a whole.  The character before a place
is left open since only the start of a text depends on it.
-/

namespace EditorScript

/-- What a test finds of every character holds of every character. -/
theorem Text.forall_mem_of_all {text : Text} {holds : Char → Prop} [DecidablePred holds]
    (h : text.all fun c => holds c) : ∀ c ∈ text, holds c := by
  simpa using h

/-- The content of a literal as the pattern reads it: characters that are neither a quote nor a
backslash, and pairs of a backslash and another character of the line. -/
inductive IsLiteralContent : Text → Prop
  | nil : IsLiteralContent []
  | plain {c : Char} {rest : Text} :
      c ≠ '"' → c ≠ '\\' → IsLiteralContent rest → IsLiteralContent (c :: rest)
  | escaped {c : Char} {rest : Text} :
      c ≠ '\n' → IsLiteralContent rest → IsLiteralContent ('\\' :: c :: rest)

namespace Pattern

variable {β : Type} {next : Position → Option β} {good : β → Prop} {before : Option Char}
  {rest : Text} {captures : List (String × Text)}

/-- Something is found, and it is good. -/
def Gives (found : Option β) (good : β → Prop) : Prop :=
  ∃ result, found = some result ∧ good result

theorem Gives.imp {good' : β → Prop} {found : Option β} (h : Gives found good)
    (himp : ∀ result, good result → good' result) : Gives found good' := by
  obtain ⟨result, hresult, hgood⟩ := h
  exact ⟨result, hresult, himp result hgood⟩

theorem Gives.or {first : Option β} (h : Gives first good) (second : Option β) :
    Gives (first.or second) good := by
  obtain ⟨result, rfl, hgood⟩ := h
  exact ⟨result, rfl, hgood⟩

/-- Where anything found is good, the other one of two finds will do. -/
theorem Gives.or_right (first : Option β) {second : Option β} (h : Gives second fun _ => True) :
    Gives (first.or second) fun _ => True := by
  cases first with
  | none => exact h
  | some result => exact ⟨result, rfl, trivial⟩

@[simp]
theorem run_append (first second : Pattern) (next : Position → Option β) (place : Position) :
    (first ++ second).run next place = first.run (second.run next) place := rfl

@[simp]
theorem run_start (next : Position → Option β) (text : Text) (captures : List (String × Text)) :
    start.run next ⟨none, text, captures⟩ = next ⟨none, text, captures⟩ := rfl

theorem run_capture (name : String) (body : Pattern) (next : Position → Option β)
    (place : Position) :
    (capture name body).run next place = body.run (fun later =>
      next { later with captures := (name, place.upTo later) :: later.captures }) place := rfl

/-- A text is read off by its own pattern. -/
theorem run_text {content : Text} (h : ∀ before, Gives (next ⟨before, rest, captures⟩) good)
    (before : Option Char) :
    Gives ((text content).run next ⟨before, content ++ rest, captures⟩) good := by
  induction content generalizing before with
  | nil => exact h before
  | cons c others ih =>
    rw [text, run, List.cons_append]
    simpa [run] using ih (some c)

/-- One character of a class. -/
theorem run_one {accepts : Char → Bool} {c : Char} (haccepts : accepts c)
    (next : Position → Option β) (before : Option Char) (rest : Text)
    (captures : List (String × Text)) :
    (one accepts).run next ⟨before, c :: rest, captures⟩ = next ⟨some c, rest, captures⟩ := by
  simp [run, haccepts]

theorem run_one_of_not {accepts : Char → Bool} (h : ∀ c ∈ rest.head?, accepts c = false)
    (next : Position → Option β) (before : Option Char) (captures : List (String × Text)) :
    (one accepts).run next ⟨before, rest, captures⟩ = none := by
  cases rest with
  | nil => rfl
  | cons c others => simp [run, h c rfl]

private theorem rounds_one {accepts : Char → Bool} {run' : Text}
    (hrun : ∀ c ∈ run', accepts c) (hrest : ∀ c ∈ rest.head?, accepts c = false)
    (h : ∀ before, Gives (next ⟨before, rest, captures⟩) good) {count : Nat}
    (hcount : run'.length ≤ count) (before : Option Char) :
    Gives (rounds true (fun following place => (one accepts).run following place) next count
      ⟨before, run' ++ rest, captures⟩) good := by
  induction run' generalizing count before with
  | nil =>
    cases count with
    | zero => exact h before
    | succ count => simpa [rounds, run_one_of_not hrest] using h before
  | cons c others ih =>
    rw [List.forall_mem_cons] at hrun
    cases count with
    | zero => simp at hcount
    | succ count =>
      have hothers := ih hrun.2 (Nat.le_of_succ_le_succ hcount) (some c)
      simpa [rounds, run_one hrun.1] using hothers.or _

/-- A run of a class is read as far as it goes. -/
theorem run_many {accepts : Char → Bool} {run' : Text} (hrun : ∀ c ∈ run', accepts c)
    (hrest : ∀ c ∈ rest.head?, accepts c = false)
    (h : ∀ before, Gives (next ⟨before, rest, captures⟩) good) (before : Option Char) :
    Gives ((many (one accepts)).run next ⟨before, run' ++ rest, captures⟩) good :=
  rounds_one hrun hrest h (by simp) before

theorem run_many1 {accepts : Char → Bool} {run' : Text} (hne : run' ≠ [])
    (hrun : ∀ c ∈ run', accepts c) (hrest : ∀ c ∈ rest.head?, accepts c = false)
    (h : ∀ before, Gives (next ⟨before, rest, captures⟩) good) (before : Option Char) :
    Gives ((many1 (one accepts)).run next ⟨before, run' ++ rest, captures⟩) good := by
  obtain ⟨c, others, rfl⟩ := List.exists_cons_of_ne_nil hne
  rw [List.forall_mem_cons] at hrun
  rw [many1, run, List.cons_append, run_one hrun.1]
  exact run_many hrun.2 hrest h (some c)

/-- A loop over a pattern that matches once and then no more. -/
theorem run_many_once {body : Pattern} {front : Text} (hne : front ≠ [])
    (hbody : ∀ following : Position → Option β,
      (∀ before, Gives (following ⟨before, rest, captures⟩) good) →
        ∀ before, Gives (body.run following ⟨before, front ++ rest, captures⟩) good)
    (hstop : ∀ (following : Position → Option β) before,
      body.run following ⟨before, rest, captures⟩ = none)
    (h : ∀ before, Gives (next ⟨before, rest, captures⟩) good) (before : Option Char) :
    Gives ((many body).run next ⟨before, front ++ rest, captures⟩) good := by
  have hend : ∀ count before, Gives (rounds true
      (fun following place => body.run following place) next count ⟨before, rest, captures⟩)
      good := by
    intro count before
    cases count with
    | zero => exact h before
    | succ count =>
      rw [rounds, if_pos rfl, hstop, Option.none_or]
      exact h before
  obtain ⟨c, others, rfl⟩ := List.exists_cons_of_ne_nil hne
  exact (hbody _ (hend _) before).or _

/-- What stands between two positions. -/
theorem upTo_append (before later : Option Char) (content rest : Text)
    (captures captures' : List (String × Text)) :
    Position.upTo ⟨before, content ++ rest, captures⟩ ⟨later, rest, captures'⟩ = content := by
  simp [Position.upTo]

/-- A captured run of a class. -/
theorem run_capture_many1 {name : String} {accepts : Char → Bool} {run' : Text} (hne : run' ≠ [])
    (hrun : ∀ c ∈ run', accepts c) (hrest : ∀ c ∈ rest.head?, accepts c = false)
    (h : ∀ before, Gives (next ⟨before, rest, (name, run') :: captures⟩) good)
    (before : Option Char) :
    Gives ((capture name (many1 (one accepts))).run next ⟨before, run' ++ rest, captures⟩)
      good := by
  rw [run_capture]
  refine run_many1 hne hrun hrest (fun later => ?_) before
  dsimp only
  rw [upTo_append]
  exact h later

/-- What fails behind a text fails on the text. -/
theorem run_text_none {content : Text} (h : ∀ before, next ⟨before, rest, captures⟩ = none)
    (before : Option Char) :
    (text content).run next ⟨before, content ++ rest, captures⟩ = none := by
  induction content generalizing before with
  | nil => exact h before
  | cons c others ih =>
    rw [text, run, List.cons_append]
    simpa [run] using ih (some c)

/-- Without white space in front, only what follows decides. -/
theorem run_blanks_eq (hrest : ∀ c ∈ rest.head?, isBlank c = false)
    (next : Position → Option β) (before : Option Char) :
    blanks.run next ⟨before, rest, captures⟩ = next ⟨before, rest, captures⟩ := by
  cases rest with
  | nil => rfl
  | cons c others =>
    have hnone := fun following : Position → Option β =>
      run_one_of_not hrest following before captures
    rw [blanks, many, run]
    simp [rounds, hnone]

/-- Without white space in front, white space is none. -/
theorem run_blanks_none (hrest : ∀ c ∈ rest.head?, isBlank c = false)
    (h : ∀ before, Gives (next ⟨before, rest, captures⟩) good) (before : Option Char) :
    Gives (blanks.run next ⟨before, rest, captures⟩) good :=
  run_many (List.forall_mem_nil _) hrest h before

/-- One blank is all white space. -/
theorem run_blanks_space (hrest : ∀ c ∈ rest.head?, isBlank c = false)
    (h : ∀ before, Gives (next ⟨before, rest, captures⟩) good) (before : Option Char) :
    Gives (blanks.run next ⟨before, ' ' :: rest, captures⟩) good :=
  run_many (List.forall_mem_singleton.mpr (by decide)) hrest h before

theorem run_opt {pattern : Pattern} {place : Position}
    (h : Gives (pattern.run next place) good) : Gives ((opt pattern).run next place) good :=
  h.or _

theorem run_opt_none {pattern : Pattern} {place : Position}
    (h : pattern.run next place = none) : (opt pattern).run next place = next place := by
  rw [opt, run, h]
  rfl

/-- What was captured comes again. -/
theorem run_same {name : String} {content : Text} (hname : captures.lookup name = some content)
    (h : ∀ before, Gives (next ⟨before, rest, captures⟩) good) (before : Option Char) :
    Gives ((same name).run next ⟨before, content ++ rest, captures⟩) good := by
  have hstarts : Text.startsWith (content ++ rest) content = true :=
    List.isPrefixOf_iff_prefix.mpr (List.prefix_append content rest)
  simpa [run, Position.captured?, hname, Position.skip?, hstarts] using h _

/-! ## Written literals -/

/-- The round of the content of a literal. -/
private abbrev contentRound : Pattern :=
  either (noneOf "\"\\") (seq "\\" inLine)

theorem escapeChar_cases (c : Char) :
    (escapeChar c = [c] ∧ c ≠ '"' ∧ c ≠ '\\') ∨
      ∃ d, escapeChar c = ['\\', d] ∧ d ≠ '\n' := by
  unfold escapeChar
  split_ifs with h1 h2 h3 h4
  · exact .inr ⟨'\\', rfl, by decide⟩
  · exact .inr ⟨'"', rfl, by decide⟩
  · exact .inr ⟨'n', rfl, by decide⟩
  · exact .inr ⟨'t', rfl, by decide⟩
  · exact .inl ⟨rfl, h2, h1⟩

private theorem run_slash (next : Position → Option β) (before : Option Char) (c : Char)
    (rest : Text) (captures : List (String × Text)) :
    (text "\\".toList).run next ⟨before, c :: rest, captures⟩ =
      if c = '\\' then next ⟨some c, rest, captures⟩ else none := by
  have hslash : text "\\".toList = seq (one (· == '\\')) empty := rfl
  rw [hslash]
  simp [run]

private theorem run_round_plain {c : Char} (hne : c ≠ '"') (hne' : c ≠ '\\')
    (following : Position → Option β) (before : Option Char) (rest : Text)
    (captures : List (String × Text)) :
    contentRound.run following ⟨before, c :: rest, captures⟩ =
      following ⟨some c, rest, captures⟩ := by
  have hfirst : (noneOf "\"\\").run following ⟨before, c :: rest, captures⟩ =
      following ⟨some c, rest, captures⟩ := run_one (by simp [hne, hne']) _ _ _ _
  have hsecond : (text "\\".toList).run (inLine.run following) ⟨before, c :: rest, captures⟩ =
      none := by rw [run_slash, if_neg hne']
  rw [run, run, hfirst, hsecond, Option.or_none]

private theorem run_round_escaped {d : Char} (hline : d ≠ '\n') (following : Position → Option β)
    (before : Option Char) (rest : Text) (captures : List (String × Text)) :
    contentRound.run following ⟨before, '\\' :: d :: rest, captures⟩ =
      following ⟨some d, rest, captures⟩ := by
  have hfirst : (noneOf "\"\\").run following ⟨before, '\\' :: d :: rest, captures⟩ = none :=
    run_one_of_not (by rintro c ⟨⟩; decide) _ _ _
  have hsecond : (text "\\".toList).run (inLine.run following)
      ⟨before, '\\' :: d :: rest, captures⟩ = following ⟨some d, rest, captures⟩ := by
    rw [run_slash, if_pos rfl, inLine, run_one (by simpa using hline)]
  rw [run, run, hfirst, hsecond, Option.none_or]

private theorem run_round_quote (following : Position → Option β) (before : Option Char)
    (rest : Text) (captures : List (String × Text)) :
    contentRound.run following ⟨before, '"' :: rest, captures⟩ = none := by
  have hfirst : (noneOf "\"\\").run following ⟨before, '"' :: rest, captures⟩ = none :=
    run_one_of_not (by rintro c ⟨⟩; decide) _ _ _
  have hsecond : (text "\\".toList).run (inLine.run following) ⟨before, '"' :: rest, captures⟩ =
      none := by rw [run_slash, if_neg (by decide)]
  rw [run, run, hfirst, hsecond, Option.none_or]

private theorem rounds_content
    (hnext : ∀ place : Position, (∀ c ∈ place.after.head?, c ≠ '"') → next place = none)
    {content : Text} (hcontent : IsLiteralContent content) (tail : Text)
    (captures : List (String × Text)) {count : Nat} (hcount : content.length ≤ count)
    (before : Option Char) :
    ∃ later, rounds true (fun following place => contentRound.run following place) next count
      ⟨before, content ++ '"' :: tail, captures⟩ = next ⟨later, '"' :: tail, captures⟩ := by
  induction hcontent generalizing count before with
  | nil =>
    refine ⟨before, ?_⟩
    cases count with
    | zero => rfl
    | succ count =>
      have hround := run_round_quote (rounds true
        (fun following place => contentRound.run following place) next count) before tail captures
      rw [rounds, if_pos rfl]
      exact congrArg (Option.or · _) hround
  | @plain c others hne hne' _ ih =>
    rw [List.length_cons] at hcount
    obtain ⟨count, rfl⟩ : ∃ more, count = more + 1 := ⟨count - 1, by omega⟩
    obtain ⟨later, hlater⟩ := ih (Nat.le_of_succ_le_succ hcount) (some c)
    refine ⟨later, ?_⟩
    rw [rounds, if_pos rfl, hnext _ (by simpa using hne), Option.or_none, List.cons_append,
      ← hlater]
    exact run_round_plain hne hne' _ _ _ _
  | @escaped d others hline _ ih =>
    rw [List.length_cons, List.length_cons] at hcount
    obtain ⟨count, rfl⟩ : ∃ more, count = more + 1 := ⟨count - 1, by omega⟩
    have hothers : others.length ≤ count := by omega
    obtain ⟨later, hlater⟩ := ih hothers (some d)
    refine ⟨later, ?_⟩
    rw [rounds, if_pos rfl, hnext _ (by simp), Option.or_none, List.cons_append, List.cons_append,
      ← hlater]
    exact run_round_escaped hline _ _ _ _

/-- A literal is matched as a whole and in no other way. -/
theorem run_literal_content (name : String) {content : Text} (hcontent : IsLiteralContent content)
    (next : Position → Option β) (before : Option Char) (rest : Text)
    (captures : List (String × Text)) :
    (literal name).run next ⟨before, '"' :: (content ++ '"' :: rest), captures⟩ =
      next ⟨some '"', rest, (name, content) :: captures⟩ := by
  have hquote : ("\"" : Pattern) = seq (one (· == '"')) empty := rfl
  rw [literal, run_append, run_append, hquote, run, run_one (by rfl), run, run_capture,
    literalContent, many, run]
  have hnone : ∀ place : Position, (∀ c ∈ place.after.head?, c ≠ '"') →
      (seq (one (· == '"')) empty).run next { place with
        captures := (name, Position.upTo ⟨some '"', content ++ '"' :: rest, captures⟩
          place) :: place.captures } = none := by
    intro place hplace
    rw [run]
    exact run_one_of_not (fun c hc => by simpa using hplace c hc) _ _ _
  have hlength : content.length ≤ (content ++ '"' :: rest).length := by simp
  obtain ⟨later, hlater⟩ := rounds_content hnone hcontent rest captures hlength (some '"')
  rw [hlater]
  dsimp only
  rw [upTo_append, run, run_one (by rfl), run]

theorem isLiteralContent_escape (text : Text) : IsLiteralContent (escape text) := by
  induction text with
  | nil => exact .nil
  | cons c rest ih =>
    have hshape : escape (c :: rest) = escapeChar c ++ escape rest := by simp [escape]
    rw [hshape]
    rcases escapeChar_cases c with ⟨hplain, hne, hne'⟩ | ⟨d, hescaped, hline⟩
    · rw [hplain]
      exact .plain hne hne' ih
    · rw [hescaped]
      exact .escaped hline ih

/-- A written literal is matched as a whole and in no other way. -/
theorem run_literal (name : String) (content : Text) (next : Position → Option β)
    (before : Option Char) (rest : Text) (captures : List (String × Text)) :
    (literal name).run next ⟨before, quote content ++ rest, captures⟩ =
      next ⟨some '"', rest, (name, escape content) :: captures⟩ := by
  have hshape : quote content ++ rest = '"' :: (escape content ++ '"' :: rest) := by
    simp [quote]
  rw [hshape]
  exact run_literal_content name (isLiteralContent_escape content) next before rest captures

/-! ## The end of a statement -/

/-- The end of a call that is a statement. -/
theorem run_closing (h : ∀ before, Gives (next ⟨before, [], captures⟩) good)
    (before : Option Char) : Gives (closing.run next ⟨before, ");", captures⟩) good := by
  have hshape : (");" : Text) = ")".toList ++ (";".toList ++ []) := by decide
  simp only [closing, run_append]
  refine run_blanks_none (by rintro c ⟨⟩; decide) (fun before => ?_) before
  rw [hshape]
  refine run_text (fun before => ?_) before
  refine run_blanks_none (by rintro c ⟨⟩; decide) (fun before => ?_) before
  have hfinish : ∀ before, Gives (finish.run next ⟨before, [], captures⟩) good := h
  exact run_text hfinish before

/-- Text that ends in something else than white space is no part of the end of a
statement. -/
theorem run_closing_none {back : Text} (hne : back ≠ []) (hlast : ∀ c ∈ back.getLast?, !isBlank c)
    (next : Position → Option β) (before : Option Char) (captures : List (String × Text)) :
    closing.run next ⟨before, back ++ ");", captures⟩ = none := by
  refine run_eq_none (fun later hlater => ?_) next
  obtain ⟨front, middle, heq, hfront, hmiddle, hend⟩ := hlater.closing_eq
  have hreverse := congrArg List.reverse heq
  have hclose : (");" : Text) = [')', ';'] := rfl
  rcases hend with hend | hend
  · simp only [hend, hclose, List.reverse_append, List.reverse_cons, List.reverse_nil,
      List.nil_append, List.cons_append, List.append_assoc, List.cons.injEq, true_and] at hreverse
    cases hmiddle' : middle.reverse with
    | nil =>
      rw [hmiddle'] at hreverse
      have hback : back = front := List.reverse_inj.mp (List.cons.inj hreverse).2
      obtain ⟨last, hlastMem⟩ := List.getLast?_isSome.mpr hne |> Option.isSome_iff_exists.mp
      have hblank := hfront last (hback ▸ List.mem_of_getLast? hlastMem)
      simpa [hblank] using hlast last hlastMem
    | cons d others =>
      rw [hmiddle'] at hreverse
      have hd : d = ')' := (List.cons.inj hreverse).1.symm
      have hmem : d ∈ middle := List.mem_reverse.mp (hmiddle' ▸ List.mem_cons_self)
      exact absurd (hmiddle d hmem) (by rw [hd]; decide)
  · simp [hend, hclose] at hreverse

/-! ## Greedy and lazy runs that stop early -/

/-- A lazy run ends no later than at a place where the rest matches. -/
theorem gives_few {accepts : Char → Bool} {run' : Text} (hrun : ∀ c ∈ run', accepts c)
    (h : ∀ before, Gives (next ⟨before, rest, captures⟩) good) (before : Option Char) :
    Gives ((few (one accepts)).run next ⟨before, run' ++ rest, captures⟩) fun result =>
      ∃ used more later, run' = used ++ more ∧
        next ⟨later, more ++ rest, captures⟩ = some result := by
  have hcount : run'.length ≤ (run' ++ rest).length := by simp
  rw [few, run]
  dsimp only
  generalize (run' ++ rest).length = count at hcount
  induction run' generalizing count before with
  | nil =>
    obtain ⟨result, hresult, -⟩ := h before
    refine ⟨result, ?_, [], [], before, rfl, hresult⟩
    cases count with
    | zero => exact hresult
    | succ count => rw [rounds, if_neg (by decide), List.nil_append, hresult, Option.some_or]
  | cons c others ih =>
    rw [List.forall_mem_cons] at hrun
    cases count with
    | zero => simp at hcount
    | succ count =>
      rw [rounds, if_neg (by decide)]
      cases hhere : next ⟨before, (c :: others) ++ rest, captures⟩ with
      | some result => exact ⟨result, rfl, [], c :: others, before, rfl, hhere⟩
      | none =>
        obtain ⟨result, hresult, used, more, later, rfl, hnext⟩ :=
          ih hrun.2 (some c) count (Nat.le_of_succ_le_succ hcount)
        refine ⟨result, ?_, c :: used, more, later, rfl, hnext⟩
        rw [Option.none_or]
        exact (run_one hrun.1 _ _ _ _).trans hresult

/-- A lazy run ends at the first place where the rest matches. -/
theorem run_few {accepts : Char → Bool} {run' : Text} (hrun : ∀ c ∈ run', accepts c)
    (hstop : ∀ front back, run' = front ++ back → back ≠ [] →
      ∀ before, next ⟨before, back ++ rest, captures⟩ = none)
    (h : ∀ before, Gives (next ⟨before, rest, captures⟩) good) (before : Option Char) :
    Gives ((few (one accepts)).run next ⟨before, run' ++ rest, captures⟩) good := by
  obtain ⟨result, hresult, used, more, later, hsplit, hnext⟩ := gives_few hrun h before
  obtain rfl : more = [] := by
    by_contra hne
    rw [hstop used more hsplit hne] at hnext
    cases hnext
  obtain ⟨_, hfound, hgood⟩ := h later
  obtain rfl := Option.some.inj (hfound.symm.trans hnext)
  exact ⟨_, hresult, hgood⟩

/-- A lazy run of at least one character ends no later than at a place where the rest
matches. -/
theorem gives_few1 {accepts : Char → Bool} {run' : Text} (hne : run' ≠ [])
    (hrun : ∀ c ∈ run', accepts c)
    (h : ∀ before, Gives (next ⟨before, rest, captures⟩) good) (before : Option Char) :
    Gives ((few1 (one accepts)).run next ⟨before, run' ++ rest, captures⟩) fun result =>
      ∃ used more later, used ≠ [] ∧ run' = used ++ more ∧
        next ⟨later, more ++ rest, captures⟩ = some result := by
  obtain ⟨c, others, rfl⟩ := List.exists_cons_of_ne_nil hne
  rw [List.forall_mem_cons] at hrun
  rw [few1, run, List.cons_append, run_one hrun.1]
  obtain ⟨result, hresult, used, more, later, rfl, hnext⟩ := gives_few hrun.2 h (some c)
  exact ⟨result, hresult, c :: used, more, later, List.cons_ne_nil _ _, rfl, hnext⟩

theorem run_few1 {accepts : Char → Bool} {run' : Text} (hne : run' ≠ [])
    (hrun : ∀ c ∈ run', accepts c)
    (hstop : ∀ front back, run' = front ++ back → back ≠ [] →
      ∀ before, next ⟨before, back ++ rest, captures⟩ = none)
    (h : ∀ before, Gives (next ⟨before, rest, captures⟩) good) (before : Option Char) :
    Gives ((few1 (one accepts)).run next ⟨before, run' ++ rest, captures⟩) good := by
  obtain ⟨c, others, rfl⟩ := List.exists_cons_of_ne_nil hne
  rw [List.forall_mem_cons] at hrun
  rw [few1, run, List.cons_append, run_one hrun.1]
  exact run_few hrun.2
    (fun front back heq => hstop (c :: front) back (by rw [heq, List.cons_append])) h (some c)

private theorem rounds_none {accepts : Char → Bool} {text : Text}
    (h : ∀ front back, text = front ++ back → ∀ before, next ⟨before, back, captures⟩ = none)
    (count : Nat) (before : Option Char) :
    rounds true (fun following place => (one accepts).run following place) next count
      ⟨before, text, captures⟩ = none := by
  induction count generalizing text before with
  | zero => exact h [] text rfl before
  | succ count ih =>
    have hhere := h [] text rfl before
    cases text with
    | nil => simp [rounds, run, hhere]
    | cons c others =>
      have hothers : rounds true (fun following place => (one accepts).run following place) next
          count ⟨some c, others, captures⟩ = none :=
        ih (fun front back heq => h (c :: front) back (by rw [heq, List.cons_append])) (some c)
      by_cases haccepts : accepts c
      · simp [rounds, run_one haccepts, hothers, hhere]
      · simp [rounds, run, haccepts, hhere]

/-- A greedy run ends at the last place where the rest matches. -/
theorem run_many_until {accepts : Char → Bool} {run' : Text} (hrun : ∀ c ∈ run', accepts c)
    (hlater : ∀ front back, rest = front ++ back → front ≠ [] →
      ∀ before, next ⟨before, back, captures⟩ = none)
    (h : ∀ before, Gives (next ⟨before, rest, captures⟩) good) (before : Option Char) :
    Gives ((many (one accepts)).run next ⟨before, run' ++ rest, captures⟩) good := by
  have hrounds : ∀ count, run'.length ≤ count → ∀ before,
      Gives (rounds true (fun following place => (one accepts).run following place) next count
        ⟨before, run' ++ rest, captures⟩) good := by
    induction run' with
    | nil =>
      intro count _ before
      cases count with
      | zero => exact h before
      | succ count =>
        have hfurther : (one accepts).run (rounds true
            (fun following place => (one accepts).run following place) next count)
            ⟨before, rest, captures⟩ = none := by
          cases rest with
          | nil => rfl
          | cons c others =>
            by_cases haccepts : accepts c
            · rw [run_one haccepts]
              exact rounds_none (fun front back heq => hlater (c :: front) back
                (by rw [heq, List.cons_append]) (by simp)) count (some c)
            · exact run_one_of_not (by rintro d ⟨⟩; simpa using haccepts) _ _ _
        simpa [rounds, hfurther] using h before
    | cons c others ih =>
      intro count hcount before
      rw [List.forall_mem_cons] at hrun
      cases count with
      | zero => simp at hcount
      | succ count =>
        have hothers := ih hrun.2 count (Nat.le_of_succ_le_succ hcount) (some c)
        simpa [rounds, run_one hrun.1] using hothers.or _
  exact hrounds _ (by simp) before

/-- A captured greedy run. -/
theorem run_capture_many_until {name : String} {accepts : Char → Bool} {run' : Text}
    (hrun : ∀ c ∈ run', accepts c)
    (hlater : ∀ front back, rest = front ++ back → front ≠ [] →
      ∀ before captures, next ⟨before, back, captures⟩ = none)
    (h : ∀ before, Gives (next ⟨before, rest, (name, run') :: captures⟩) good)
    (before : Option Char) :
    Gives ((capture name (many (one accepts))).run next ⟨before, run' ++ rest, captures⟩)
      good := by
  rw [run_capture]
  refine run_many_until hrun ?_ (fun later => ?_) before
  · exact fun front back heq hne later => hlater front back heq hne later _
  · dsimp only
    rw [upTo_append]
    exact h later

/-- A captured lazy run. -/
theorem run_capture_few1 {name : String} {accepts : Char → Bool} {run' : Text} (hne : run' ≠ [])
    (hrun : ∀ c ∈ run', accepts c)
    (hstop : ∀ front back, run' = front ++ back → back ≠ [] →
      ∀ before captures, next ⟨before, back ++ rest, captures⟩ = none)
    (h : ∀ before, Gives (next ⟨before, rest, (name, run') :: captures⟩) good)
    (before : Option Char) :
    Gives ((capture name (few1 (one accepts))).run next ⟨before, run' ++ rest, captures⟩)
      good := by
  rw [run_capture]
  refine run_few1 hne hrun ?_ (fun later => ?_) before
  · exact fun front back heq hne later => hstop front back heq hne later _
  · dsimp only
    rw [upTo_append]
    exact h later

/-- A captured lazy run ends no later than at a place where the rest matches. -/
theorem gives_capture_few1 {name : String} {accepts : Char → Bool} {run' : Text} (hne : run' ≠ [])
    (hrun : ∀ c ∈ run', accepts c)
    (h : ∀ before captures, Gives (next ⟨before, rest, captures⟩) good)
    (before : Option Char) :
    Gives ((capture name (few1 (one accepts))).run next ⟨before, run' ++ rest, captures⟩)
      fun result => ∃ used more later, used ≠ [] ∧ run' = used ++ more ∧
        next ⟨later, more ++ rest, (name, used) :: captures⟩ = some result := by
  rw [run_capture]
  refine (@gives_few1 _ _ good _ _ _ _ hne hrun ?_ before).imp ?_
  · exact fun later => h later _
  · rintro result ⟨used, more, later, hused, rfl, hnext⟩
    rw [List.append_assoc, upTo_append] at hnext
    exact ⟨used, more, later, hused, rfl, hnext⟩

/-- White space and a character do not match where other characters come first. -/
theorem run_blanks_text_none {c : Char} {content back tail : Text} (hne : back ≠ [])
    (hlast : ∀ d ∈ back.getLast?, isBlank d = false) (hmem : c ∉ back)
    (next : Position → Option β) (before : Option Char) (captures : List (String × Text)) :
    blanks.run ((text (c :: content)).run next) ⟨before, back ++ tail, captures⟩ = none := by
  cases hrun : blanks.run ((text (c :: content)).run next) ⟨before, back ++ tail, captures⟩ with
  | none => rfl
  | some result =>
    obtain ⟨middle, hmiddle, htext⟩ := run_sound hrun
    obtain ⟨later, hlater, -⟩ := run_sound htext
    obtain ⟨run', heq, hblank⟩ := hmiddle.blanks_eq
    rw [hlater.text_eq] at heq
    obtain ⟨last, hlastMem⟩ := Option.isSome_iff_exists.mp (List.getLast?_isSome.mpr hne)
    rcases List.append_eq_append_iff.mp heq with ⟨others, hrun', -⟩ | ⟨others, hback, htail⟩
    · have hmemLast : last ∈ run' := by
        rw [hrun']
        exact List.mem_append_left _ (List.mem_of_getLast? hlastMem)
      exact absurd (hlast last hlastMem) (by simp [hblank last hmemLast])
    · cases others with
      | nil =>
        rw [List.append_nil] at hback
        have hmemLast := hback ▸ List.mem_of_getLast? hlastMem
        exact absurd (hlast last hlastMem) (by simp [hblank last hmemLast])
      | cons d left =>
        have hd : c = d := (List.cons.inj htail).1
        exact absurd (by rw [hback, hd]; simp) hmem

end Pattern

end EditorScript
