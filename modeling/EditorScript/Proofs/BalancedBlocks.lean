import EditorScript.Proofs.BlockText
import Mathlib.Data.Prod.Lex

/-!
# Blocks at balanced braces

The search for a block keeps the depth of the braces that it has passed.  In terms of the code
characters alone, a block goes from the first opening brace to the first character up to which as
many braces close as open.  Two searches over the same source find blocks that are the same, one
in the other, or apart.
-/

namespace EditorScript

variable {lines : List Text} {start : Nat} {block : Block}
  {chars front rest opened inside behind : List CodeChar} {opening closing c : CodeChar}

/-! ## Counting braces -/

/-- By how many more braces open than close among some code characters. -/
def balance (chars : List CodeChar) : Int :=
  (chars.countP (·.char = '\x7b') : Int) - chars.countP (·.char = '\x7d')

theorem balance_append (first second : List CodeChar) :
    balance (first ++ second) = balance first + balance second := by
  simp only [balance, List.countP_append]
  omega

theorem balance_opening (h : c.char = '\x7b') : balance [c] = 1 := by
  simp [balance, h]

theorem balance_closing (h : c.char = '\x7d') : balance [c] = -1 := by
  simp [balance, h]

theorem balance_other (h : c.char ≠ '\x7b') (h' : c.char ≠ '\x7d') : balance [c] = 0 := by
  simp [balance, h, h']

/-- The first opening brace among some code characters stands behind `front` and in front of
`rest`. -/
structure OpensFirst (chars front : List CodeChar) (opening : CodeChar) (rest : List CodeChar) :
    Prop where
  split : chars = front ++ opening :: rest
  opens : opening.char = '\x7b'
  first : ∀ c ∈ front, c.char ≠ '\x7b'

/-- Behind the characters `opened`, which count, `closing` is the first of some code characters
up to which as many braces close as open. -/
structure ClosesFirst (opened chars inside : List CodeChar) (closing : CodeChar)
    (behind : List CodeChar) : Prop where
  split : chars = inside ++ closing :: behind
  balanced : balance (opened ++ (inside ++ [closing])) = 0
  first : ∀ part, part <+: inside → balance (opened ++ part) ≠ 0

namespace ClosesFirst

theorem head (hopened : balance opened ≠ 0) (h : balance (opened ++ [c]) = 0)
    (rest : List CodeChar) : ClosesFirst opened (c :: rest) [] c rest where
  split := rfl
  balanced := h
  first := by
    intro part hpart
    rw [List.prefix_nil.mp hpart, List.append_nil]
    exact hopened

theorem cons (hopened : balance opened ≠ 0)
    (h : ClosesFirst (opened ++ [c]) chars inside closing behind) :
    ClosesFirst opened (c :: chars) (c :: inside) closing behind where
  split := by rw [h.split, List.cons_append]
  balanced := by simpa using h.balanced
  first := by
    intro part hpart
    rcases List.prefix_cons_iff.mp hpart with rfl | ⟨others, rfl, hothers⟩
    · rwa [List.append_nil]
    · simpa using h.first others hothers

/-- The first character closes, or the count goes on behind it. -/
theorem uncons (h : ClosesFirst opened (c :: chars) inside closing behind) :
    closing = c ∧ balance (opened ++ [c]) = 0 ∨
      balance (opened ++ [c]) ≠ 0 ∧
        ∃ others, ClosesFirst (opened ++ [c]) chars others closing behind := by
  cases inside with
  | nil =>
    obtain ⟨rfl, -⟩ := List.cons.inj h.split
    exact .inl ⟨rfl, h.balanced⟩
  | cons d others =>
    obtain ⟨rfl, hsplit⟩ := List.cons.inj h.split
    refine .inr ⟨h.first [c] (by simp), others, hsplit, by simpa using h.balanced, ?_⟩
    intro part hpart
    simpa using h.first (c :: part) (List.cons_prefix_cons.mpr ⟨rfl, hpart⟩)

end ClosesFirst

/-- The closing brace that leaves some blocks and one more is the first character up to which
all their braces are closed. -/
theorem closingBrace?_eq_some_iff {depth : Nat} (hopened : balance opened = depth + 1) :
    closingBrace? depth chars = some closing ↔
      ∃ inside behind, ClosesFirst opened chars inside closing behind := by
  have hne : balance opened ≠ 0 := by omega
  induction chars generalizing depth opened with
  | nil =>
    refine iff_of_false (by simp [closingBrace?]) ?_
    rintro ⟨inside, behind, h⟩
    simpa using h.split
  | cons c rest ih =>
    have hcount := balance_append opened [c]
    -- The count behind the first character decides whether it is the one.
    have hcons : (∃ inside behind, ClosesFirst opened (c :: rest) inside closing behind) ↔
        closing = c ∧ balance (opened ++ [c]) = 0 ∨ balance (opened ++ [c]) ≠ 0 ∧
          ∃ inside behind, ClosesFirst (opened ++ [c]) rest inside closing behind := by
      constructor
      · rintro ⟨inside, behind, h⟩
        rcases h.uncons with hhere | ⟨hgoes, others, hothers⟩
        · exact .inl hhere
        · exact .inr ⟨hgoes, others, behind, hothers⟩
      · rintro (⟨rfl, hhere⟩ | ⟨-, inside, behind, h⟩)
        · exact ⟨[], rest, .head hne hhere rest⟩
        · exact ⟨c :: inside, behind, h.cons hne⟩
    rw [hcons]
    by_cases hopen : c.char = '\x7b'
    · rw [balance_opening hopen] at hcount
      have hlater : balance (opened ++ [c]) = (depth + 1 : Nat) + 1 := by omega
      have hgoes : balance (opened ++ [c]) ≠ 0 := by omega
      simp only [closingBrace?, hopen, if_true]
      exact (ih hlater hgoes).trans (by simp [hgoes])
    by_cases hclose : c.char = '\x7d'
    · rw [balance_closing hclose] at hcount
      cases depth with
      | zero =>
        have hlater : balance (opened ++ [c]) = 0 := by omega
        simp [closingBrace?, hclose, hlater, eq_comm]
      | succ outer =>
        have hlater : balance (opened ++ [c]) = outer + 1 := by omega
        have hgoes : balance (opened ++ [c]) ≠ 0 := by omega
        simp only [closingBrace?, hclose, if_true]
        rw [if_neg (by decide)]
        exact (ih hlater hgoes).trans (by simp [hgoes])
    · rw [balance_other hopen hclose] at hcount
      have hlater : balance (opened ++ [c]) = depth + 1 := by omega
      have hgoes : balance (opened ++ [c]) ≠ 0 := by omega
      simp only [closingBrace?, hopen, hclose, if_false]
      exact (ih hlater hgoes).trans (by simp [hgoes])

/-- Where the count returns to zero, it does so for a first time. -/
theorem ClosesFirst.exists_of_balanced (hopened : balance opened ≠ 0)
    (h : balance (opened ++ (inside ++ [closing])) = 0) :
    ∃ others first more, ClosesFirst opened (inside ++ closing :: behind) others first more := by
  induction inside generalizing opened with
  | nil => exact ⟨[], closing, behind, .head hopened h behind⟩
  | cons d left ih =>
    by_cases hhere : balance (opened ++ [d]) = 0
    · exact ⟨[], d, _, .head hopened hhere _⟩
    · obtain ⟨others, first, more, hfirst⟩ := ih hhere (by simpa using h)
      exact ⟨d :: others, first, more, hfirst.cons hopened⟩

/-- No closing brace is found where the count never returns to zero. -/
theorem closingBrace?_eq_none_iff {depth : Nat} (hopened : balance opened = depth + 1) :
    closingBrace? depth chars = none ↔ ∀ inside closing behind,
      chars = inside ++ closing :: behind → balance (opened ++ (inside ++ [closing])) ≠ 0 := by
  rw [Option.eq_none_iff_forall_ne_some]
  constructor
  · rintro hnone inside closing behind rfl hbalanced
    obtain ⟨others, first, more, hfirst⟩ :=
      ClosesFirst.exists_of_balanced (by omega) hbalanced
    exact hnone first ((closingBrace?_eq_some_iff hopened).mpr ⟨others, more, hfirst⟩)
  · intro hnever closing hclosing
    obtain ⟨inside, behind, hfirst⟩ := (closingBrace?_eq_some_iff hopened).mp hclosing
    exact hnever inside closing behind hfirst.split hfirst.balanced

/-! ## The block that is found -/

theorem OpensFirst.dropWhile_eq (h : OpensFirst chars front opening rest) :
    chars.dropWhile (·.char != '\x7b') = opening :: rest := by
  rw [h.split, List.dropWhile_append_of_pos (by simpa using h.first)]
  simp [h.opens]

/-- There is a first opening brace, or there is none. -/
theorem exists_opensFirst (chars : List CodeChar) :
    (∀ c ∈ chars, c.char ≠ '\x7b') ∨ ∃ front opening rest, OpensFirst chars front opening rest := by
  cases hdrop : chars.dropWhile (·.char != '\x7b') with
  | nil => exact .inl (by simpa using hdrop)
  | cons opening rest =>
    have hopens := List.head?_dropWhile_not (·.char != '\x7b') chars
    rw [hdrop] at hopens
    refine .inr ⟨chars.takeWhile (·.char != '\x7b'), opening, rest, ?_, by simpa using hopens, ?_⟩
    · rw [← hdrop, List.takeWhile_append_dropWhile]
    · intro c hc
      simpa using List.mem_takeWhile_imp hc

theorem findBlock?_eq (h : OpensFirst (codeChars lines start) front opening rest) :
    findBlock? lines start = (closingBrace? 0 rest).map fun closing =>
      ⟨start, opening.line, opening.column, closing.line, closing.column⟩ := by
  rw [findBlock?, h.dropWhile_eq]

theorem findBlock?_eq_none_of_noBrace (h : ∀ c ∈ codeChars lines start, c.char ≠ '\x7b') :
    findBlock? lines start = none := by
  rw [findBlock?, List.dropWhile_eq_nil_iff.mpr (by simpa using h)]

/-- A block is that of the first opening brace and the brace that closes it. -/
theorem exists_braces (h : findBlock? lines start = some block) :
    ∃ front opening rest closing, OpensFirst (codeChars lines start) front opening rest ∧
      closingBrace? 0 rest = some closing ∧
        block = ⟨start, opening.line, opening.column, closing.line, closing.column⟩ := by
  rcases exists_opensFirst (codeChars lines start) with hnone | ⟨front, opening, rest, hfirst⟩
  · rw [findBlock?_eq_none_of_noBrace hnone] at h
    cases h
  · rw [findBlock?_eq hfirst] at h
    obtain ⟨closing, hclosing, rfl⟩ := Option.map_eq_some_iff.mp h
    exact ⟨front, opening, rest, closing, hfirst, hclosing, rfl⟩

/-- No block is found exactly where no brace opens or the braces from the first one on are never
balanced. -/
theorem findBlock?_eq_none_iff : findBlock? lines start = none ↔
    (∀ c ∈ codeChars lines start, c.char ≠ '\x7b') ∨
      ∃ front opening rest, OpensFirst (codeChars lines start) front opening rest ∧
        ∀ inside closing behind, rest = inside ++ closing :: behind →
          balance ([opening] ++ (inside ++ [closing])) ≠ 0 := by
  constructor
  · intro hnone
    refine (exists_opensFirst (codeChars lines start)).imp_right ?_
    rintro ⟨front, opening, rest, hfirst⟩
    rw [findBlock?_eq hfirst, Option.map_eq_none_iff] at hnone
    exact ⟨front, opening, rest, hfirst,
      (closingBrace?_eq_none_iff (balance_opening hfirst.opens)).mp hnone⟩
  · rintro (hnone | ⟨front, opening, rest, hfirst, hnever⟩)
    · exact findBlock?_eq_none_of_noBrace hnone
    · rw [findBlock?_eq hfirst, Option.map_eq_none_iff]
      exact (closingBrace?_eq_none_iff (balance_opening hfirst.opens)).mpr hnever

/-- The block that is found is the one from the first opening brace to the first character behind
it up to which the braces are balanced. -/
theorem findBlock?_eq_some_iff : findBlock? lines start = some block ↔
    ∃ front opening rest inside closing behind,
      OpensFirst (codeChars lines start) front opening rest ∧
        ClosesFirst [opening] rest inside closing behind ∧
          block = ⟨start, opening.line, opening.column, closing.line, closing.column⟩ := by
  constructor
  · intro hblock
    obtain ⟨front, opening, rest, closing, hfirst, hclosing, rfl⟩ := exists_braces hblock
    obtain ⟨inside, behind, hcloses⟩ :=
      (closingBrace?_eq_some_iff (balance_opening hfirst.opens)).mp hclosing
    exact ⟨front, opening, rest, inside, closing, behind, hfirst, hcloses, rfl⟩
  · rintro ⟨front, opening, rest, inside, closing, behind, hfirst, hcloses, rfl⟩
    have hclosing := (closingBrace?_eq_some_iff (balance_opening hfirst.opens)).mpr
      ⟨inside, behind, hcloses⟩
    rw [findBlock?_eq hfirst, hclosing]
    rfl

/-- The text of a block is its lines from the start of the search to its closing brace. -/
theorem exists_text_eq (h : findBlock? lines start = some block) :
    ∃ above own below, lines = above ++ (own ++ below) ∧ above.length = start ∧
      start + own.length = block.endLine + 1 ∧ block.text lines = Text.unlines own := by
  obtain ⟨_, closing, hsublist, -, -, rfl⟩ := findBlock?_eq_some h
  obtain ⟨above, front, back, below, hlines, hline, -⟩ :=
    mem_codeCharsFrom (hsublist.subset (List.mem_cons_of_mem _ List.mem_cons_self))
  obtain ⟨top, own, htop, hown⟩ :
      ∃ top own, top = lines.take start ∧ own = above ++ [front ++ closing.char :: back] :=
    ⟨_, _, rfl, rfl⟩
  have hsplit : lines = top ++ (own ++ below) := by
    rw [htop, hown, List.append_assoc]
    exact (List.take_append_drop start lines).symm.trans (congrArg _ hlines)
  have hstart : top.length = start := by
    have hlength := congrArg List.length hlines
    rw [List.length_drop, List.length_append, List.length_cons] at hlength
    rw [htop, List.length_take]
    omega
  have hlength : start + own.length = closing.line + 1 := by
    rw [hown, hline, List.length_append, List.length_singleton]
    omega
  have htake : lines.take (closing.line + 1) = top ++ own := by
    rw [hsplit, ← hlength, ← hstart, List.take_length_add_append, List.take_left]
  refine ⟨top, own, below, hsplit, hstart, hlength, ?_⟩
  rw [Block.text, slice, htake]
  exact congrArg Text.unlines (List.drop_left' hstart)

/-! ## Blocks found from two lines -/

/-- Some code characters hold the closing brace of the block around them, or they lead to a
depth inside of it. -/
theorem closingBrace?_or_nesting? (depth : Nat) (chars : List CodeChar) :
    (∃ c, closingBrace? depth chars = some c) ∨
      ∃ later, nesting? depth (chars.map (·.char)) = some later := by
  fun_induction closingBrace? depth chars <;> simp_all [nesting?]

/-- A block inside of others ends where it ends on its own, and what follows is read behind it. -/
theorem exists_closingBrace?_add {depth : Nat} (h : closingBrace? depth chars = some closing) :
    ∃ inside behind, chars = inside ++ closing :: behind ∧
      ∀ outer, closingBrace? (outer + 1 + depth) chars = closingBrace? outer behind := by
  fun_induction closingBrace? depth chars with
  | case1 => cases h
  | case2 depth c rest hopen ih =>
    obtain ⟨inside, behind, rfl, hpast⟩ := ih h
    refine ⟨c :: inside, behind, rfl, fun outer => ?_⟩
    simpa [closingBrace?, hopen, ← Nat.add_assoc] using hpast outer
  | case3 c rest _ hclose =>
    cases h
    exact ⟨[], rest, rfl, fun outer => by simp [closingBrace?, hclose]⟩
  | case4 c rest _ hclose depth ih =>
    obtain ⟨inside, behind, rfl, hpast⟩ := ih h
    refine ⟨c :: inside, behind, rfl, fun outer => ?_⟩
    simpa [closingBrace?, hclose, ← Nat.add_assoc] using hpast outer
  | case5 depth c rest hopen hclose ih =>
    obtain ⟨inside, behind, rfl, hpast⟩ := ih h
    refine ⟨c :: inside, behind, rfl, fun outer => ?_⟩
    simpa [closingBrace?, hopen, hclose] using hpast outer

variable {above below front' rest' : List CodeChar} {opening' closing' : CodeChar}

/-- Of the blocks found in some code characters and in an end of them, the second one is the
first, stands inside of it, or comes behind it. -/
theorem laminar_of_append (houter : OpensFirst (above ++ below) front opening rest)
    (hcloses : closingBrace? 0 rest = some closing)
    (hinner : OpensFirst below front' opening' rest')
    (hcloses' : closingBrace? 0 rest' = some closing') :
    opening' = opening ∧ closing' = closing ∨
      [opening, opening', closing', closing].Sublist (above ++ below) ∨
        [closing, opening'].Sublist (above ++ below) := by
  rcases exists_opensFirst above with hnone | ⟨first, brace, others, hfirst⟩
  · -- No brace opens in front of the end, so both searches go through it alike.
    have hdrop : (above ++ below).dropWhile (·.char != '\x7b') =
        below.dropWhile (·.char != '\x7b') := List.dropWhile_append_of_pos (by simpa using hnone)
    rw [houter.dropWhile_eq, hinner.dropWhile_eq] at hdrop
    obtain ⟨rfl, rfl⟩ := List.cons.inj hdrop
    rw [hcloses] at hcloses'
    exact .inl ⟨rfl, (Option.some.inj hcloses').symm⟩
  · have hdrop : (above ++ below).dropWhile (·.char != '\x7b') = brace :: (others ++ below) := by
      rw [List.dropWhile_append, hfirst.dropWhile_eq]
      rfl
    rw [houter.dropWhile_eq, hinner.split] at hdrop
    obtain ⟨rfl, rfl⟩ := List.cons.inj hdrop
    have hwhole : above ++ below = first ++ opening :: (others ++ front' ++ opening' :: rest') := by
      rw [hfirst.split, hinner.split]
      simp
    rw [hwhole]
    rw [← List.append_assoc] at hcloses
    rcases closingBrace?_or_nesting? 0 (others ++ front') with ⟨c, hfound⟩ | ⟨later, hlater⟩
    · -- The first block closes in front of the second brace.
      rw [closingBrace?_append_left hfound] at hcloses
      obtain rfl := Option.some.inj hcloses
      have hclosing := List.singleton_sublist.mpr (mem_of_closingBrace?_eq_some hfound)
      have hbraces := hclosing.append
        (List.singleton_sublist.mpr (@List.mem_cons_self _ opening' rest'))
      exact .inr (.inr ((hbraces.cons opening).trans (List.sublist_append_right first _)))
    · -- The second brace opens inside of the first block.
      rw [closingBrace?_append hlater] at hcloses
      obtain ⟨inside, behind, rfl, hpast⟩ := exists_closingBrace?_add hcloses'
      have hbehind : closingBrace? later behind = some closing := by
        rw [← hpast later, ← hcloses]
        simp [closingBrace?, hinner.opens]
      have hclosing := List.singleton_sublist.mpr (mem_of_closingBrace?_eq_some hbehind)
      have hinside : [opening', closing', closing].Sublist
          (opening' :: (inside ++ closing' :: behind)) :=
        ((hclosing.cons_cons closing').trans
          (List.sublist_append_right inside _)).cons_cons opening'
      have hbraces :=
        (hinside.trans (List.sublist_append_right (others ++ front') _)).cons_cons opening
      exact .inr (.inl (hbraces.trans (List.sublist_append_right first _)))

/-! ## Places of blocks -/

namespace Block

/-- The place of the opening brace, in reading order. -/
def opensAt (block : Block) : ℕ ×ₗ ℕ := toLex (block.openLine, block.openColumn)

/-- The place of the closing brace, in reading order. -/
def closesAt (block : Block) : ℕ ×ₗ ℕ := toLex (block.endLine, block.closeColumn)

end Block

theorem CodeChar.Before.toLex_lt {first second : CodeChar} (h : first.Before second) :
    toLex (first.line, first.column) < toLex (second.line, second.column) :=
  Prod.Lex.toLex_lt_toLex.mpr h

/-- The code characters from a line on that is read in code mode are those from there. -/
theorem codeChars_eq_append {later : Nat} (hle : start ≤ later) (hlater : later ≤ lines.length)
    (hmode : modeBehind .code (slice lines start later) = .code) :
    codeChars lines start =
      codeCharsFrom .code start (slice lines start later) ++ codeChars lines later := by
  have hsplit : lines.drop start = slice lines start later ++ lines.drop later := by
    have hstart : start ≤ (lines.take later).length := by
      rw [List.length_take]
      omega
    conv_lhs => rw [← List.take_append_drop later lines, List.drop_append_of_le_length hstart]
    rfl
  have hlength : start + (slice lines start later).length = later := by
    rw [slice, List.length_drop, List.length_take]
    omega
  rw [codeChars, hsplit, codeCharsFrom_append, hmode, hlength]
  rfl

/-- A brace opens in front of the brace that closes it. -/
theorem opensAt_lt_closesAt (h : findBlock? lines start = some block) :
    block.opensAt < block.closesAt := by
  obtain ⟨opening, closing, hsublist, -, -, rfl⟩ := findBlock?_eq_some h
  have hbefore := (codeCharsFrom_before .code start (lines.drop start)).sublist hsublist
  exact (List.rel_of_pairwise_cons hbefore List.mem_cons_self).toLex_lt

/-- Of the blocks found from two lines, the second one being read in code mode, the second is the
first but for the start of its search, stands inside of it, or comes behind it. -/
theorem findBlock?_laminar {later : Nat} {outer inner : Block} (hle : start ≤ later)
    (hmode : modeBehind .code (slice lines start later) = .code)
    (houter : findBlock? lines start = some outer) (hinner : findBlock? lines later = some inner) :
    inner = { outer with startLine := later } ∨
      outer.opensAt < inner.opensAt ∧ inner.closesAt < outer.closesAt ∨
        outer.closesAt < inner.opensAt := by
  obtain ⟨front, opening, rest, closing, hopens, hcloses, rfl⟩ := exists_braces houter
  obtain ⟨front', opening', rest', closing', hopens', hcloses', rfl⟩ := exists_braces hinner
  have hlater : later ≤ lines.length := by
    by_contra hbeyond
    have hnil : lines.drop later = [] := List.drop_eq_nil_of_le (by omega)
    have hsplit := hopens'.split
    rw [codeChars, hnil] at hsplit
    simp [codeCharsFrom] at hsplit
  have hbefore := codeCharsFrom_before .code start (lines.drop start)
  rw [← codeChars, codeChars_eq_append hle hlater hmode] at hbefore
  rw [codeChars_eq_append hle hlater hmode] at hopens
  rcases laminar_of_append hopens hcloses hopens' hcloses' with ⟨rfl, rfl⟩ | hinside | hbehind
  · exact .inl rfl
  · have horder := hbefore.sublist hinside
    simp only [List.pairwise_cons, List.mem_cons, forall_eq_or_imp] at horder
    exact .inr (.inl ⟨horder.1.1.toLex_lt, horder.2.2.1.1.toLex_lt⟩)
  · have horder := hbefore.sublist hbehind
    exact .inr (.inr (List.rel_of_pairwise_cons horder List.mem_cons_self).toLex_lt)

/-- Blocks are found at balanced braces: none without an opening brace or where the braces from
the first one on are never balanced, otherwise the one from the first opening brace to the first
character behind it up to which they are, with the lines up to there as its text.  From a later
line that is read in code mode the search finds the same braces, or a block inside, or one
behind. -/
theorem findBlock?_balanced (lines : List Text) (start : Nat) :
    (findBlock? lines start = none ↔
      (∀ c ∈ codeChars lines start, c.char ≠ '\x7b') ∨
        ∃ front opening rest, OpensFirst (codeChars lines start) front opening rest ∧
          ∀ inside closing behind, rest = inside ++ closing :: behind →
            balance ([opening] ++ (inside ++ [closing])) ≠ 0) ∧
    (∀ block, findBlock? lines start = some block ↔
      ∃ front opening rest inside closing behind,
        OpensFirst (codeChars lines start) front opening rest ∧
          ClosesFirst [opening] rest inside closing behind ∧
            block = ⟨start, opening.line, opening.column, closing.line, closing.column⟩) ∧
    (∀ block, findBlock? lines start = some block →
      ∃ above own below, lines = above ++ (own ++ below) ∧ above.length = start ∧
        start + own.length = block.endLine + 1 ∧ block.text lines = Text.unlines own) ∧
    (∀ block, findBlock? lines start = some block → block.opensAt < block.closesAt) ∧
    ∀ later outer inner, start ≤ later → modeBehind .code (slice lines start later) = .code →
      findBlock? lines start = some outer → findBlock? lines later = some inner →
        inner = { outer with startLine := later } ∨
          outer.opensAt < inner.opensAt ∧ inner.closesAt < outer.closesAt ∨
            outer.closesAt < inner.opensAt := by
  exact ⟨findBlock?_eq_none_iff, fun _ => findBlock?_eq_some_iff, fun _ => exists_text_eq,
    fun _ => opensAt_lt_closesAt, fun _ _ _ => findBlock?_laminar⟩

/-- A class with a method, and braces that are no code. -/
def nestedLines : List Text :=
  ["class A // \x7b", "\x7b", "    void Draw() \x7b", "        Label(\"\x7d\");",
    "    \x7d /* \x7d", "    */ int x;", "\x7d"]

/-- The block of the class and the block of the method, which is not the same and not behind. -/
theorem findBlock?_balanced_nested :
    findBlock? nestedLines 0 = some ⟨0, 1, 0, 6, 0⟩ ∧
    findBlock? nestedLines 2 = some ⟨2, 2, 16, 4, 4⟩ ∧
    modeBehind .code (slice nestedLines 0 2) = .code ∧
    Block.opensAt ⟨0, 1, 0, 6, 0⟩ < Block.opensAt ⟨2, 2, 16, 4, 4⟩ ∧
      Block.closesAt ⟨2, 2, 16, 4, 4⟩ < Block.closesAt ⟨0, 1, 0, 6, 0⟩ := by
  have hclass : findBlock? nestedLines 0 = some ⟨0, 1, 0, 6, 0⟩ := by decide
  have hmethod : findBlock? nestedLines 2 = some ⟨2, 2, 16, 4, 4⟩ := by decide
  have hcode : modeBehind .code (slice nestedLines 0 2) = .code := by decide
  have hplaces :=
    (findBlock?_balanced nestedLines 0).2.2.2.2 2 _ _ (by decide) hcode hclass hmethod
  rcases hplaces with hsame | hinside | hbehind
  · exact absurd hsame (by decide)
  · exact ⟨hclass, hmethod, hcode, hinside⟩
  · exact absurd hbehind (by decide)

end EditorScript
