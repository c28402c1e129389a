import EditorScript.Extraction.Member
import EditorScript.Proofs.BlockBetween
import EditorScript.Proofs.SolidCode

/-!
# Where a member ends

A member with a block ends with the brace that closes it, whatever the block holds
and whatever follows, as long as that does not go on with `=` or `;`.
-/

namespace EditorScript

variable {chars rest : List CodeChar}

/-- Code characters without braces and semicolons end no member. -/
theorem memberStop?_front (h : ∀ c ∈ chars, c.char ≠ '{' ∧ c.char ≠ '}' ∧ c.char ≠ ';')
    (depth : Int) (rest : List CodeChar) :
    memberStop? depth none (chars ++ rest) = memberStop? depth none rest := by
  induction chars with
  | nil => rfl
  | cons c others ih =>
    rw [List.forall_mem_cons] at h
    obtain ⟨⟨hopen, hclose, hsemicolon⟩, hothers⟩ := h
    rw [List.cons_append, memberStop?]
    by_cases hblank : isBlank c.char
    · rw [if_pos hblank]
      exact ih hothers
    · rw [if_neg hblank, if_neg (by simp), if_neg hopen, if_neg hclose,
        if_neg fun hends => hsemicolon hends.1]
      exact ih hothers

/-- Inside a block nothing ends a member. -/
theorem memberStop?_nested {depth later : Nat}
    (h : nesting? depth (chars.map (·.char)) = some later) (rest : List CodeChar) :
    memberStop? (depth + 1 : Nat) none (chars ++ rest) = memberStop? (later + 1 : Nat) none rest := by
  induction chars generalizing depth with
  | nil =>
    obtain rfl := Option.some.inj h
    rfl
  | cons c others ih =>
    rw [List.map_cons] at h
    unfold nesting? at h
    rw [List.cons_append, memberStop?]
    have hblank : isBlank c.char → c.char ≠ '{' ∧ c.char ≠ '}' := fun hblank => by
      constructor <;> intro heq <;> rw [heq] at hblank <;> revert hblank <;> decide
    by_cases hopen : c.char = '{'
    · rw [if_pos hopen] at h
      rw [if_neg fun hb => (hblank hb).1 hopen, if_neg (by simp), if_pos hopen]
      exact ih h
    rw [if_neg hopen] at h
    by_cases hclose : c.char = '}'
    · rw [if_pos hclose] at h
      cases depth with
      | zero => cases h
      | succ outer =>
        have hdepth : ((outer + 1 + 1 : Nat) : Int) - 1 = (outer + 1 : Nat) := by omega
        have hne : ¬ ((outer + 1 : Nat) : Int) = 0 := by omega
        rw [if_neg fun hb => (hblank hb).2 hclose, if_neg (by simp), if_neg hopen, if_pos hclose,
          hdepth, if_neg hne]
        exact ih h
    · rw [if_neg hclose] at h
      have hne : ¬ (c.char = ';' ∧ ((depth + 1 : Nat) : Int) = 0) := by omega
      by_cases hb : isBlank c.char
      · rw [if_pos hb]
        exact ih h
      · rw [if_neg hb, if_neg (by simp), if_neg hopen, if_neg hclose, if_neg hne]
        exact ih h

/-- What follows a member does not go on with it. -/
def StartsAnew (rest : Text) : Prop :=
  ∀ c ∈ (rest.dropWhile isBlank).head?, c ≠ '=' ∧ c ≠ ';'

instance (rest : Text) : Decidable (StartsAnew rest) :=
  inferInstanceAs (Decidable (∀ c ∈ (rest.dropWhile isBlank).head?, c ≠ '=' ∧ c ≠ ';'))

/-- A line that begins with code goes on with nothing, unless it begins with `=` or `;`. -/
theorem startsAnew_line {c : Char} (hplain : isPlain c) (hblank : isBlank c = false)
    (hc : c ≠ '=' ∧ c ≠ ';') (count : Nat) (rest : Text) (lines : List Text) :
    StartsAnew (codeText .code ((Text.spaces count ++ c :: rest) :: lines)) := by
  have hfront : (Text.spaces count ++ [c]).all isPlain := by
    simp [Text.spaces, hplain, show isPlain ' ' from rfl]
  have hline : Text.spaces count ++ c :: rest = (Text.spaces count ++ [c]) ++ rest := by
    rw [List.append_assoc, List.singleton_append]
  have hchars := (Reads.of_plain hfront []).codeColumnsFrom_append 0 rest
  have hspaces : ∀ d ∈ Text.spaces count, isBlank d := List.all_eq_true.mp (spaces_all_isBlank count)
  rw [StartsAnew, codeText_cons, lineChars, codeColumns, hline, hchars, List.append_assoc,
    List.append_assoc, List.dropWhile_append_of_pos hspaces, List.singleton_append,
    List.dropWhile_cons_of_neg (by simp [hblank])]
  rintro d ⟨⟩
  exact hc

/-- Neither does what stands behind an empty line. -/
theorem startsAnew_blank_cons {lines : List Text} :
    StartsAnew (codeText .code ([] :: lines)) ↔ StartsAnew (codeText .code lines) := by
  rw [codeText_cons]
  exact Iff.rfl

theorem startsAnew_nil : StartsAnew (codeText .code []) := by
  rintro c ⟨⟩

/-- The line of a closing brace stands when nothing goes on behind it. -/
theorem memberStop?_candidate (h : StartsAnew (rest.map (·.char))) (depth : Int) (line : Nat) :
    memberStop? depth (some line) rest = some line := by
  induction rest with
  | nil => rfl
  | cons c others ih =>
    unfold StartsAnew at h
    rw [List.map_cons] at h
    rw [memberStop?]
    split
    · rename_i hblank
      rw [List.dropWhile_cons_of_pos hblank] at h
      exact ih h
    · rename_i hblank
      rw [List.dropWhile_cons_of_neg hblank] at h
      rw [if_pos ⟨rfl, h c.char rfl⟩]

/-- Lines that are read as one member, whatever starts anew behind them. -/
structure IsMember (own : List Text) : Prop where
  mode : modeBehind .code own = .code
  ends : ∀ rest : List CodeChar, StartsAnew (rest.map (·.char)) →
    memberStop? 0 none (codeCharsFrom .code 0 own ++ rest) = some (own.length - 1)

/-- A member ends with the last of its lines. -/
theorem IsMember.memberEnd_eq {own : List Text} (h : IsMember own) {behind : List Text}
    (hbehind : StartsAnew (codeText .code behind)) :
    memberEnd (own ++ behind) 0 (own ++ behind).length = own.length - 1 := by
  have hslice : slice (own ++ behind) 0 (own ++ behind).length = own ++ behind := by
    rw [slice, List.take_length, List.drop_zero]
  have hends := h.ends (codeCharsFrom .code (0 + own.length) behind) (by
    rw [map_char_codeCharsFrom _ _ 0]
    exact hbehind)
  rw [memberEnd, hslice, codeCharsFrom_append, h.mode, hends]
  rfl

/-! ## Members with a block -/

/-- White space ends no member. -/
theorem memberStop?_filter (depth : Int) (candidate : Option Nat) (chars rest : List CodeChar) :
    memberStop? depth candidate ((chars.filter fun c => !isBlank c.char) ++ rest) =
      memberStop? depth candidate (chars ++ rest) := by
  induction chars generalizing depth candidate with
  | nil => rfl
  | cons c others ih =>
    by_cases hblank : isBlank c.char
    · rw [List.filter_cons_of_neg (by simp [hblank]), ih, List.cons_append, memberStop?,
        if_pos hblank]
    · rw [List.filter_cons_of_pos (by simp [hblank]), List.cons_append, List.cons_append, memberStop?,
        memberStop?]
      simp only [ih]

/-- Lines of a member that holds no semicolon in front of its block and ends with the
brace that closes it. -/
structure EndsWithBlock (own : List Text) : Prop where
  mode : modeBehind .code own = .code
  shape : ∃ front inner, solid (codeText .code own) = front ++ '{' :: (inner ++ ['}']) ∧
    (∀ c ∈ front, c ≠ '{' ∧ c ≠ '}' ∧ c ≠ ';') ∧ nesting? 0 inner = some 0
  last : ∃ above line, own = above ++ [line] ∧
    solid (lineChars (modeBehind .code above) line) ≠ []

/-- A member with a block closes the braces that it opens. -/
theorem EndsWithBlock.nests {own : List Text} (h : EndsWithBlock own) : Nests 0 own 0 := by
  obtain ⟨front, inner, hcode, hfront, hinner⟩ := h.shape
  have hopen : nesting? 0 ('{' :: (inner ++ ['}'])) = some 0 := by
    rw [nesting?, if_pos rfl, nesting?_append, nesting?_add hinner 1]
    rfl
  refine ⟨h.mode, ?_⟩
  rw [← nesting?_solid, hcode, nesting?_append,
    nesting?_of_noBrace (fun c hc => ⟨(hfront c hc).1, (hfront c hc).2.1⟩)]
  exact hopen

/-- The code characters of some lines without white space. -/
theorem map_char_filter_codeCharsFrom (mode : Mode) (number : Nat) (lines : List Text) :
    ((codeCharsFrom mode number lines).filter fun c => !isBlank c.char).map (·.char) =
      solid (codeText mode lines) := by
  rw [solid, codeText, map_char_codeCharsFrom mode 0 number, List.filter_map]
  rfl

/-- Where the last of some lines has code, the last code character stands on it. -/
theorem line_of_getLast? {above own : List Text} {line : Text} (hown : own = above ++ [line])
    (hline : solid (lineChars (modeBehind .code above) line) ≠ []) {last : CodeChar}
    (h : ((codeCharsFrom .code 0 own).filter fun c => !isBlank c.char).getLast? = some last) :
    last.line = own.length - 1 := by
  have hne : (codeCharsFrom (modeBehind .code above) (0 + above.length) [line]).filter
      (fun c => !isBlank c.char) ≠ [] := by
    intro hnil
    have hempty := map_char_filter_codeCharsFrom (modeBehind .code above) (0 + above.length) [line]
    rw [hnil, codeText_cons, codeText_nil, List.append_nil] at hempty
    exact hline hempty.symm
  rw [hown, codeCharsFrom_append, List.filter_append, List.getLast?_append,
    Option.or_eq_some_iff] at h
  have hmem := List.mem_of_getLast?
    (h.resolve_right fun h => hne (List.getLast?_eq_none_iff.mp h.1))
  rw [codeCharsFrom, codeCharsFrom, List.append_nil] at hmem
  obtain ⟨place, -, rfl⟩ := List.mem_map.mp (List.mem_filter.mp hmem).1
  rw [hown, List.length_append, List.length_singleton, Nat.add_sub_cancel, Nat.zero_add]

/-- A member with a block ends with the block. -/
theorem EndsWithBlock.isMember {own : List Text} (h : EndsWithBlock own) : IsMember own := by
  refine ⟨h.mode, fun rest hrest => ?_⟩
  obtain ⟨front, inner, hcode, hfront, hinner⟩ := h.shape
  obtain ⟨above, line, hown, hline⟩ := h.last
  rw [← map_char_filter_codeCharsFrom .code 0] at hcode
  obtain ⟨first, others, hchars, hfirst, hothers⟩ := List.map_eq_append_iff.mp hcode
  obtain ⟨opening, within, rfl, hopening, hwithin⟩ := List.map_eq_cons_iff.mp hothers
  obtain ⟨nested, ending, rfl, hnested, hending⟩ := List.map_eq_append_iff.mp hwithin
  obtain ⟨closing, behindClosing, rfl, hclosing, hnil⟩ := List.map_eq_cons_iff.mp hending
  obtain rfl := List.map_eq_nil_iff.mp hnil
  have hlast : closing.line = own.length - 1 := by
    refine line_of_getLast? hown hline ?_
    rw [hchars, ← List.cons_append, ← List.append_assoc, List.getLast?_concat]
  have hclose : memberStop? 1 none (closing :: rest) = some closing.line := by
    rw [memberStop?, hclosing, if_neg (by decide), if_neg (by simp), if_neg (by decide), if_pos rfl,
      if_pos (by decide)]
    exact memberStop?_candidate hrest _ _
  have hnest : memberStop? 1 none (nested ++ (closing :: rest)) = some closing.line :=
    (memberStop?_nested (hnested ▸ hinner) _).trans hclose
  have hopen : memberStop? 0 none (opening :: (nested ++ (closing :: rest))) =
      some closing.line := by
    rw [memberStop?, hopening, if_neg (by decide), if_neg (by simp), if_pos rfl]
    exact hnest
  have hwhole := (@memberStop?_front first
    (fun c hc => hfront _ (hfirst ▸ List.mem_map_of_mem hc)) 0 _).trans hopen
  rw [← memberStop?_filter, hchars, List.append_assoc, List.cons_append, List.append_assoc,
    List.singleton_append, hwhole, hlast]

/-- The last line has code at every margin. -/
theorem solid_lineChars_moved {above : List Text} {line : Text} {moved : Text → Text}
    (hmoved : ∀ other ∈ above ++ [line], SameButMargin other (moved other))
    (h : solid (lineChars (modeBehind .code above) line) ≠ []) :
    solid (lineChars (modeBehind .code (above.map moved)) (moved line)) ≠ [] := by
  have habove := @SameBraces.map above moved fun line hline =>
    hmoved line (List.mem_append_left _ hline)
  rwa [(habove .code rfl).1,
    ← (hmoved line (by simp)).solid_lineChars_eq (modeBehind_atLineBreak rfl above)]

/-- A member with a block is one at every margin. -/
theorem EndsWithBlock.map {own : List Text} (h : EndsWithBlock own) {moved : Text → Text}
    (hmoved : ∀ line ∈ own, SameButMargin line (moved line)) : EndsWithBlock (own.map moved) := by
  obtain ⟨above, line, rfl, hline⟩ := h.last
  refine ⟨(SameBraces.map hmoved .code rfl).1.trans h.mode, ?_, above.map moved, moved line,
    List.map_append, ?_⟩
  · rw [solid_codeText_map hmoved rfl]
    exact h.shape
  · exact solid_lineChars_moved hmoved hline

/-! ## Members on one line -/

/-- On one line, a semicolon outside braces ends a member, if nothing in front of it
does. -/
theorem memberStop?_line {number : Nat} (hline : ∀ c ∈ chars, c.line = number) {semicolon : CodeChar}
    (hsemicolon : semicolon.line = number) (hchar : semicolon.char = ';') {depth : Nat}
    (h : nesting? depth (chars.map (·.char)) = some 0) {candidate : Option Nat}
    (hcandidate : ∀ line ∈ candidate, line = number) (rest : List CodeChar) :
    memberStop? depth candidate (chars ++ semicolon :: rest) = some number := by
  induction chars generalizing depth candidate with
  | nil =>
    obtain rfl := Option.some.inj h
    rw [List.nil_append, memberStop?, hchar, if_neg (by decide), if_neg (by simp), if_neg (by decide),
      if_neg (by decide), if_pos ⟨rfl, rfl⟩, hsemicolon]
  | cons c others ih =>
    rw [List.forall_mem_cons] at hline
    rw [List.map_cons] at h
    unfold nesting? at h
    have hnone : ∀ line ∈ (none : Option Nat), line = number := by rintro line ⟨⟩
    rw [List.cons_append, memberStop?]
    by_cases hblank : isBlank c.char
    · have hopen : c.char ≠ '{' := fun heq => by rw [heq] at hblank; exact absurd hblank (by decide)
      have hclose : c.char ≠ '}' := fun heq => by rw [heq] at hblank; exact absurd hblank (by decide)
      rw [if_neg hopen, if_neg hclose] at h
      rw [if_pos hblank]
      exact ih hline.2 h hcandidate
    rw [if_neg hblank]
    by_cases hends : candidate.isSome ∧ c.char ≠ '=' ∧ c.char ≠ ';'
    · obtain ⟨line, rfl⟩ := Option.isSome_iff_exists.mp hends.1
      rw [if_pos hends, hcandidate line rfl]
    rw [if_neg hends]
    by_cases hopen : c.char = '{'
    · rw [if_pos hopen] at h ⊢
      exact ih hline.2 h hnone
    rw [if_neg hopen] at h ⊢
    by_cases hclose : c.char = '}'
    · rw [if_pos hclose] at h ⊢
      cases depth with
      | zero => cases h
      | succ outer =>
        have hdepth : ((outer + 1 : Nat) : Int) - 1 = outer := by omega
        rw [hdepth]
        refine ih hline.2 h fun line hmem => ?_
        split at hmem
        · obtain rfl := Option.some.inj hmem
          exact hline.1
        · cases hmem
    rw [if_neg hclose] at h ⊢
    by_cases hstop : c.char = ';' ∧ (depth : Int) = 0
    · rw [if_pos hstop, hline.1]
    · rw [if_neg hstop]
      exact ih hline.2 h hnone

/-- Lines of a member that ends with a semicolon: on one line the braces in front of it are
closed, on several lines there are none. -/
structure EndsWithSemicolon (own : List Text) : Prop where
  mode : modeBehind .code own = .code
  shape : ∃ front, solid (codeText .code own) = front ++ [';'] ∧ nesting? 0 front = some 0 ∧
    (own.length = 1 ∨ ∀ c ∈ front, c ≠ '{' ∧ c ≠ '}' ∧ c ≠ ';')
  last : ∃ above line, own = above ++ [line] ∧
    solid (lineChars (modeBehind .code above) line) ≠ []

theorem EndsWithSemicolon.nests {own : List Text} (h : EndsWithSemicolon own) : Nests 0 own 0 := by
  obtain ⟨front, hcode, hnesting, -⟩ := h.shape
  refine ⟨h.mode, ?_⟩
  rw [← nesting?_solid, hcode, nesting?_append, hnesting]
  rfl

theorem EndsWithSemicolon.isMember {own : List Text} (h : EndsWithSemicolon own) :
    IsMember own := by
  refine ⟨h.mode, fun rest _ => ?_⟩
  obtain ⟨front, hcode, hnesting, hfront⟩ := h.shape
  obtain ⟨above, line, hown, hline⟩ := h.last
  rw [← map_char_filter_codeCharsFrom .code 0] at hcode
  obtain ⟨first, ending, hchars, hfirst, hending⟩ := List.map_eq_append_iff.mp hcode
  obtain ⟨semicolon, behind, rfl, hsemicolon, hnil⟩ := List.map_eq_cons_iff.mp hending
  obtain rfl := List.map_eq_nil_iff.mp hnil
  have hlast : semicolon.line = own.length - 1 := by
    refine line_of_getLast? hown hline ?_
    rw [hchars, List.getLast?_concat]
  rw [← memberStop?_filter, hchars, List.append_assoc, List.singleton_append]
  rcases hfront with hone | hfront
  · have hzero : ∀ c ∈ first, c.line = own.length - 1 := fun c hc => by
      have hmem : c ∈ codeCharsFrom .code 0 own :=
        (List.mem_filter.mp (hchars ▸ List.mem_append_left _ hc)).1
      obtain ⟨single, rfl⟩ := List.length_eq_one_iff.mp hone
      rw [codeCharsFrom, codeCharsFrom, List.append_nil] at hmem
      obtain ⟨place, -, rfl⟩ := List.mem_map.mp hmem
      rfl
    exact @memberStop?_line _ _ hzero _ hlast hsemicolon 0 (hfirst ▸ hnesting) _
      (by rintro line ⟨⟩) rest
  · have hends : memberStop? 0 none (semicolon :: rest) = some semicolon.line := by
      rw [memberStop?, hsemicolon, if_neg (by decide), if_neg (by simp), if_neg (by decide),
        if_neg (by decide), if_pos ⟨rfl, rfl⟩]
    rw [← hlast, ← hends]
    exact @memberStop?_front first (fun c hc => hfront _ (hfirst ▸ List.mem_map_of_mem hc)) 0 _

theorem EndsWithSemicolon.map {own : List Text} (h : EndsWithSemicolon own) {moved : Text → Text}
    (hmoved : ∀ line ∈ own, SameButMargin line (moved line)) :
    EndsWithSemicolon (own.map moved) := by
  obtain ⟨above, line, rfl, hline⟩ := h.last
  refine ⟨(SameBraces.map hmoved .code rfl).1.trans h.mode, ?_, above.map moved, moved line,
    List.map_append, ?_⟩
  · rw [solid_codeText_map hmoved rfl, List.length_map]
    exact h.shape
  · exact solid_lineChars_moved hmoved hline

/-- The code characters of a line of tame text are its characters. -/
theorem lineChars_of_tame {line : Text} (h : line.all isTame) :
    lineChars .code line = line ∧ lineEnd .code line = .code := by
  have hreads := Reads.of_plain (all_isPlain_of_tame h) []
  exact ⟨hreads.lineChars_eq, hreads.lineEnd_eq⟩

theorem lineChars_brace {brace : Char} (h : isPlain brace) (count : Nat) :
    lineChars .code (Text.spaces count ++ [brace]) = Text.spaces count ++ [brace] ∧
      lineEnd .code (Text.spaces count ++ [brace]) = .code := by
  have hplain : (Text.spaces count ++ [brace]).all isPlain := by
    simp [Text.spaces, h, show isPlain ' ' from rfl]
  have hreads := Reads.of_plain hplain []
  exact ⟨hreads.lineChars_eq, hreads.lineEnd_eq⟩

/-- A header with its block between two lines of braces ends with the block. -/
theorem endsWithBlock_between {header : Text} (hheader : header.all isTame)
    (hsemicolon : ';' ∉ header) {inside : List Text} (hinside : Nests 0 inside 0) (count : Nat) :
    EndsWithBlock (header :: (Text.spaces count ++ ['\x7b']) ::
      (inside ++ [Text.spaces count ++ ['\x7d']])) := by
  obtain ⟨hchars, hend⟩ := lineChars_of_tame hheader
  obtain ⟨hopening, hopeningEnd⟩ := lineChars_brace (show isPlain '\x7b' from rfl) count
  obtain ⟨hclosing, hclosingEnd⟩ := lineChars_brace (show isPlain '\x7d' from rfl) count
  have hbrace : ∀ brace : Char, isBlank brace = false →
      solid (Text.spaces count ++ [brace]) = [brace] := fun brace hbrace => by
    rw [solid_append, solid_of_blank (spaces_all_isBlank count), solid_cons hbrace, solid_nil,
      List.nil_append]
  have hopen := hbrace '\x7b' (by decide)
  have hclose := hbrace '\x7d' (by decide)
  refine ⟨?_, ⟨solid header, solid (codeText .code inside), ?_, fun c hc => ?_, ?_⟩,
    ⟨header :: (Text.spaces count ++ ['\x7b']) :: inside, _, rfl, ?_⟩⟩
  · rw [modeBehind_cons, modeBehind_cons, modeBehind_append, hend, hopeningEnd, hinside.mode,
      modeBehind_cons, hclosingEnd]
    rfl
  · rw [codeText_cons, codeText_cons, codeText_append, hend, hopeningEnd, hinside.mode, hchars,
      hopening, codeText_cons, hclosing, codeText_nil, List.append_nil, solid_append,
      solid_append (Text.spaces count ++ ['\x7b']), hopen, solid_append (codeText .code inside),
      hclose, List.singleton_append]
  · have hmem := (List.mem_filter.mp hc).1
    have htame := List.all_eq_true.mp hheader c hmem
    simp only [isTame, Bool.and_eq_true, bne_iff_ne] at htame
    exact ⟨htame.1.1.1.2, htame.1.1.2, fun heq => hsemicolon (heq ▸ hmem)⟩
  · rw [nesting?_solid, hinside.depth]
  · rw [modeBehind_cons, modeBehind_cons, hend, hopeningEnd, hinside.mode, hclosing, hclose]
    exact List.cons_ne_nil _ _

end EditorScript
