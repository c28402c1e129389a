import EditorScript.Proofs.BalancedBlocks
import EditorScript.Proofs.CommentedSource
import EditorScript.Proofs.MemberExtent
import Mathlib.Data.List.TakeWhile

/-!
# Lines cut into members

The search for the end of a member keeps the depth of the braces and, right behind a brace
that closes the outermost block, the line of this brace.  Both are told by the code characters
that it has passed (`memberStop?_step`).  So it passes a statement up to its last semicolon and
a block up to its last brace, and members below each other are cut where each of them ends,
whatever stands above and however far the search may go (`memberEnd_flatten`).
-/

namespace EditorScript

variable {passed code : List CodeChar} {c : CodeChar} {own behind : List Text}

/-! ## The state of the search -/

/-- The line on which a member ends behind some code characters, unless it goes on: that of the
last one, when it is a brace up to which all braces are closed. -/
def openEnd? (passed : List CodeChar) : Option Nat :=
  (passed.getLast?.filter fun c => c.char = '}' ∧ balance passed = 0).map (·.line)

theorem openEnd?_concat (passed : List CodeChar) (c : CodeChar) :
    openEnd? (passed ++ [c]) =
      if c.char = '}' ∧ balance (passed ++ [c]) = 0 then some c.line else none := by
  rw [openEnd?, List.getLast?_concat, Option.filter_some]
  split <;> simp_all

/-- Behind some code characters, the search ends at the next one. -/
def StopsAt (passed : List CodeChar) (c : CodeChar) : Prop :=
  (openEnd? passed).isSome ∧ c.char ≠ '=' ∧ c.char ≠ ';' ∨ c.char = ';' ∧ balance passed = 0

/-- One step of the search: what it keeps is again told by what it has passed. -/
theorem memberStop?_step (hsolid : isBlank c.char = false) (h : ¬ StopsAt passed c)
    (rest : List CodeChar) :
    memberStop? (balance passed) (openEnd? passed) (c :: rest) =
      memberStop? (balance (passed ++ [c])) (openEnd? (passed ++ [c])) rest := by
  obtain ⟨hgoesOn, hsemicolon⟩ := not_or.mp h
  rw [memberStop?, if_neg (by simp [hsolid]), if_neg hgoesOn, openEnd?_concat, balance_append]
  by_cases hopen : c.char = '{'
  · rw [if_pos hopen, balance_opening hopen, if_neg fun hclose => by
      simp [hopen] at hclose]
  by_cases hclose : c.char = '}'
  · rw [if_neg hopen, if_pos hclose, balance_closing hclose]
    simp only [hclose, true_and, Int.sub_eq_add_neg]
  · rw [if_neg hopen, if_neg hclose, if_neg hsemicolon, balance_other hopen hclose, Int.add_zero,
      if_neg fun h => hclose h.1]

/-- The search passes all characters that it does not end at. -/
theorem memberStop?_take (hsolid : ∀ c ∈ code, isBlank c.char = false) {count : Nat}
    (hcount : count ≤ code.length)
    (h : ∀ i (hi : i < count), ¬ StopsAt (code.take i) code[i]) (rest : List CodeChar) :
    memberStop? 0 none (code ++ rest) =
      memberStop? (balance (code.take count)) (openEnd? (code.take count))
        (code.drop count ++ rest) := by
  induction count with
  | zero => rfl
  | succ passed ih =>
    have hpassed : passed < code.length := hcount
    have hnext := h passed (Nat.lt_succ_self passed)
    rw [ih hpassed.le fun i hi => h i (Nat.lt_succ_of_lt hi), List.drop_eq_getElem_cons hpassed,
      List.cons_append, memberStop?_step (hsolid _ (List.getElem_mem hpassed)) hnext,
      List.take_succ_eq_append_getElem hpassed]

/-- A member may have ended right behind a brace only. -/
theorem exists_closing_of_openEnd? {count : Nat} (hcount : count ≤ code.length)
    (h : (openEnd? (code.take count)).isSome) :
    ∃ i, ∃ hi : i < code.length, count = i + 1 ∧ code[i].char = '}' ∧
      balance (code.take (i + 1)) = 0 := by
  cases count with
  | zero => cases h
  | succ i =>
    have hi : i < code.length := hcount
    rw [List.take_succ_eq_append_getElem hi, openEnd?_concat] at h
    split at h
    · rename_i hcloses
      rw [← List.take_succ_eq_append_getElem hi] at hcloses
      exact ⟨i, hi, rfl, hcloses⟩
    · cases h

/-! ## Statements and blocks -/

/-- Code that ends with its only semicolon at depth zero, and goes on with `=` or `;` behind each
brace that returns to depth zero. -/
structure StatementCode (code : List CodeChar) : Prop where
  balanced : balance code = 0
  ends : code.getLast?.map (·.char) = some ';'
  only : ∀ i (h : i < code.length - 1), code[i].char = ';' → balance (code.take i) ≠ 0
  returns : ∀ i (h : i < code.length - 1), code[i].char = '}' → balance (code.take (i + 1)) = 0 →
    code[i + 1].char = '=' ∨ code[i + 1].char = ';'

/-- Code that ends with the brace that is the first to return to depth zero, and holds no
semicolon at depth zero. -/
structure BlockCode (code : List CodeChar) : Prop where
  balanced : balance code = 0
  ends : code.getLast?.map (·.char) = some '}'
  semicolons : ∀ i (h : i < code.length), code[i].char = ';' → balance (code.take i) ≠ 0
  first : ∀ i (h : i < code.length - 1), code[i].char = '}' → balance (code.take (i + 1)) ≠ 0

instance (code : List CodeChar) : Decidable (StatementCode code) :=
  decidable_of_iff (balance code = 0 ∧ code.getLast?.map (·.char) = some ';' ∧
    (∀ i (h : i < code.length - 1), code[i].char = ';' → balance (code.take i) ≠ 0) ∧
    ∀ i (h : i < code.length - 1), code[i].char = '}' → balance (code.take (i + 1)) = 0 →
      code[i + 1].char = '=' ∨ code[i + 1].char = ';')
    ⟨fun h => ⟨h.1, h.2.1, h.2.2.1, h.2.2.2⟩, fun h => ⟨h.balanced, h.ends, h.only, h.returns⟩⟩

instance (code : List CodeChar) : Decidable (BlockCode code) :=
  decidable_of_iff (balance code = 0 ∧ code.getLast?.map (·.char) = some '}' ∧
    (∀ i (h : i < code.length), code[i].char = ';' → balance (code.take i) ≠ 0) ∧
    ∀ i (h : i < code.length - 1), code[i].char = '}' → balance (code.take (i + 1)) ≠ 0)
    ⟨fun h => ⟨h.1, h.2.1, h.2.2.1, h.2.2.2⟩, fun h => ⟨h.balanced, h.ends, h.semicolons, h.first⟩⟩

theorem StatementCode.goesOn (h : StatementCode code) {i : Nat} (hi : i < code.length - 1) :
    ¬ StopsAt (code.take i) code[i] := by
  rintro (⟨hopen, hequals, hsemicolon⟩ | ⟨hsemicolon, hbalance⟩)
  · obtain ⟨j, hj, rfl, hclose, hbalance⟩ := exists_closing_of_openEnd? (by omega) hopen
    exact (h.returns j (by omega) hclose hbalance).elim hequals hsemicolon
  · exact h.only i hi hsemicolon hbalance

theorem BlockCode.goesOn (h : BlockCode code) {i : Nat} (hi : i < code.length) :
    ¬ StopsAt (code.take i) code[i] := by
  rintro (⟨hopen, -⟩ | ⟨hsemicolon, hbalance⟩)
  · obtain ⟨j, hj, rfl, hclose, hbalance⟩ := exists_closing_of_openEnd? hi.le hopen
    exact h.first j (by omega) hclose hbalance
  · exact h.semicolons i hi hsemicolon hbalance

/-- A statement ends at its last semicolon. -/
theorem StatementCode.memberStop?_eq (h : StatementCode code)
    (hsolid : ∀ c ∈ code, isBlank c.char = false) (rest : List CodeChar) :
    memberStop? 0 none (code ++ rest) = code.getLast?.map (·.line) := by
  obtain ⟨last, hlast, hchar⟩ := Option.map_eq_some_iff.mp h.ends
  obtain ⟨front, rfl⟩ := List.getLast?_eq_some_iff.mp hlast
  have hfront : (front ++ [last]).length - 1 = front.length := by simp
  have hdepth : balance front = 0 := by
    have hbalance := h.balanced
    rwa [balance_append, balance_other (by simp [hchar]) (by simp [hchar]),
      Int.add_zero] at hbalance
  rw [memberStop?_take hsolid (Nat.sub_le _ 1) fun i hi => h.goesOn hi, hfront, List.take_left,
    List.drop_left, hdepth, hlast, List.singleton_append, memberStop?, hchar, if_neg (by decide),
    if_neg (by simp), if_neg (by decide), if_neg (by decide), if_pos ⟨rfl, rfl⟩]
  rfl

/-- A block ends at its last brace, when nothing goes on with it. -/
theorem BlockCode.memberStop?_eq (h : BlockCode code)
    (hsolid : ∀ c ∈ code, isBlank c.char = false) {rest : List CodeChar}
    (hrest : StartsAnew (rest.map (·.char))) :
    memberStop? 0 none (code ++ rest) = code.getLast?.map (·.line) := by
  obtain ⟨last, hlast, hchar⟩ := Option.map_eq_some_iff.mp h.ends
  obtain ⟨front, rfl⟩ := List.getLast?_eq_some_iff.mp hlast
  rw [memberStop?_take hsolid (Nat.le_refl _) fun i hi => h.goesOn hi, List.take_length,
    List.drop_length, List.nil_append, openEnd?_concat, if_pos ⟨hchar, h.balanced⟩,
    memberStop?_candidate hrest, hlast]
  rfl

/-! ## Lines of a member -/

/-- The code characters of some lines, without white space. -/
def memberCode (own : List Text) : List CodeChar :=
  (codeCharsFrom .code 0 own).filter fun c => !isBlank c.char

/-- Lines of a statement or a block: they are read from code mode to code mode, do not begin with
what goes on with the member above, and end on the line of the last code character. -/
structure MemberLines (own : List Text) : Prop where
  mode : modeBehind .code own = .code
  begins : ∀ c ∈ (memberCode own).head?, c.char ≠ '=' ∧ c.char ≠ ';'
  shape : StatementCode (memberCode own) ∨ BlockCode (memberCode own)
  last : ∀ c ∈ (memberCode own).getLast?, c.line + 1 = own.length

instance (own : List Text) : Decidable (MemberLines own) :=
  decidable_of_iff (modeBehind .code own = .code ∧
    (∀ c ∈ (memberCode own).head?, c.char ≠ '=' ∧ c.char ≠ ';') ∧
    (StatementCode (memberCode own) ∨ BlockCode (memberCode own)) ∧
    ∀ c ∈ (memberCode own).getLast?, c.line + 1 = own.length)
    ⟨fun h => ⟨h.1, h.2.1, h.2.2.1, h.2.2.2⟩, fun h => ⟨h.mode, h.begins, h.shape, h.last⟩⟩

namespace MemberLines

theorem exists_last (h : MemberLines own) : ∃ last, (memberCode own).getLast? = some last := by
  rcases h.shape with hshape | hshape
  all_goals
    obtain ⟨last, hlast, -⟩ := Option.map_eq_some_iff.mp hshape.ends
    exact ⟨last, hlast⟩

/-- Such lines are read as one member. -/
theorem isMember (h : MemberLines own) : IsMember own := by
  obtain ⟨last, hlast⟩ := h.exists_last
  have hline : own.length - 1 = last.line := by
    rw [← h.last last hlast, Nat.add_sub_cancel]
  have hsolid : ∀ c ∈ memberCode own, isBlank c.char = false := fun c hc => by
    simpa using (List.mem_filter.mp hc).2
  refine ⟨h.mode, fun rest hrest => ?_⟩
  have hends : memberStop? 0 none (memberCode own ++ rest) =
      (memberCode own).getLast?.map (·.line) :=
    h.shape.elim (·.memberStop?_eq hsolid rest) (·.memberStop?_eq hsolid hrest)
  rw [← memberStop?_filter, hline]
  exact hends.trans (by rw [hlast, Option.map_some])

end MemberLines

/-! ## Members below each other -/

theorem startsAnew_iff {text : Text} :
    StartsAnew text ↔ ∀ c ∈ (solid text).head?, c ≠ '=' ∧ c ≠ ';' := by
  rw [StartsAnew, ← List.find?_not_eq_head?_dropWhile, solid, List.head?_filter]

/-- What starts anew does so however much of it is read. -/
theorem StartsAnew.take {lines : List Text} (h : StartsAnew (codeText .code lines)) (count : Nat) :
    StartsAnew (codeText .code (lines.take count)) := by
  rw [startsAnew_iff] at h ⊢
  intro c hc
  refine h c ?_
  rw [← List.take_append_drop count lines, codeText_append, solid_append, List.head?_append,
    Option.mem_def.mp hc]
  rfl

/-- Members start anew. -/
theorem startsAnew_flatten {members : List (List Text)} (h : ∀ own ∈ members, MemberLines own) :
    StartsAnew (codeText .code members.flatten) := by
  cases members with
  | nil => exact startsAnew_nil
  | cons own others =>
    have hown := h own List.mem_cons_self
    obtain ⟨last, hlast⟩ := hown.exists_last
    have hcode : (memberCode own).map (·.char) = solid (codeText .code own) :=
      map_char_filter_codeCharsFrom .code 0 own
    rw [startsAnew_iff, List.flatten_cons, codeText_append, solid_append, ← hcode]
    cases hfirst : memberCode own with
    | nil => simp [hfirst] at hlast
    | cons first rest =>
      rintro c ⟨⟩
      exact hown.begins first (by rw [hfirst]; rfl)

/-- Further down the search ends further down. -/
theorem memberStop?_below (count : Nat) (depth : Int) (candidate : Option Nat)
    (chars : List CodeChar) :
    memberStop? depth (candidate.map (count + ·)) (chars.map (·.below count)) =
      (memberStop? depth candidate chars).map (count + ·) := by
  induction chars generalizing depth candidate with
  | nil => rfl
  | cons c rest ih =>
    have hnone : ∀ depth, memberStop? depth none (rest.map (·.below count)) =
        (memberStop? depth none rest).map (count + ·) := fun depth => ih depth none
    have hclose : memberStop? (depth - 1) (if depth - 1 = 0 then some (count + c.line) else none)
        (rest.map (·.below count)) =
          (memberStop? (depth - 1) (if depth - 1 = 0 then some c.line else none) rest).map
            (count + ·) := by
      rw [← ih]
      split <;> rfl
    have hchar : (c.below count).char = c.char := rfl
    have hline : (c.below count).line = count + c.line := rfl
    simp only [List.map_cons, memberStop?, hchar, hline, hclose, Option.isSome_map, ih, hnone,
      apply_ite (Option.map (count + ·)), Option.map_some]

/-- A member ends with the last of its lines, wherever it stands and whatever starts anew behind
it, as long as these lines are within reach. -/
theorem IsMember.memberEnd_append (h : IsMember own)
    (hbehind : StartsAnew (codeText .code behind)) (above : List Text) {stop : Nat}
    (hstop : above.length + own.length ≤ stop) :
    memberEnd (above ++ (own ++ behind)) above.length stop = above.length + (own.length - 1) := by
  obtain ⟨reach, rfl⟩ := Nat.exists_eq_add_of_le hstop
  have hslice : slice (above ++ (own ++ behind)) above.length (above.length + own.length + reach) =
      own ++ behind.take reach := by
    have hbelow := slice_append above (own ++ behind) 0 (own.length + reach)
    rw [Nat.add_zero, ← Nat.add_assoc] at hbelow
    rw [hbelow, slice, List.drop_zero, List.take_length_add_append]
  have hends : memberStop? 0 none (codeCharsFrom .code 0 (own ++ behind.take reach)) =
      some (own.length - 1) := by
    rw [codeCharsFrom_append, h.mode]
    refine h.ends _ ?_
    rw [map_char_codeCharsFrom _ _ 0]
    exact hbehind.take reach
  have hchars := codeCharsFrom_add .code above.length 0 (own ++ behind.take reach)
  have hbelow := memberStop?_below above.length 0 none
    (codeCharsFrom .code 0 (own ++ behind.take reach))
  rw [Option.map_none, ← hchars, hends, Nat.add_zero] at hbelow
  rw [memberEnd, hslice, hbelow]
  rfl

/-- Lines that are put together from statements and blocks are cut into them: from its first line
on each is found to end with its last one, however far the search may go beyond. -/
theorem memberEnd_flatten {above below : List (List Text)}
    (h : ∀ member ∈ above ++ own :: below, MemberLines member) {stop : Nat}
    (hstop : above.flatten.length + own.length ≤ stop) :
    memberEnd (above ++ own :: below).flatten above.flatten.length stop =
      above.flatten.length + (own.length - 1) := by
  rw [List.forall_mem_append, List.forall_mem_cons] at h
  rw [List.flatten_append, List.flatten_cons]
  exact h.2.1.isMember.memberEnd_append (startsAnew_flatten h.2.2) _ hstop

/-- A property without an initializer. -/
def readyProperty : List Text :=
  ["bool Ready \x7b get; \x7d // ;"]

/-- A property with an initializer on the next line. -/
def countProperty : List Text :=
  ["int Count \x7b get; \x7d", "    /* ; */ = Start;"]

/-- A field that holds a function. -/
def runField : List Text :=
  ["", "Action run = () => \x7b", "    Draw(\"\x7d;\");", "\x7d;"]

theorem memberEnd_flatten_property :
    (∀ member ∈ [readyProperty] ++ countProperty :: [runField, readyProperty],
      MemberLines member) ∧
    memberEnd ([readyProperty] ++ countProperty :: [runField, readyProperty]).flatten 1 5 = 2 := by
  have hmembers : ∀ member ∈ [readyProperty] ++ countProperty :: [runField, readyProperty],
      MemberLines member := by
    decide +kernel
  exact ⟨hmembers, memberEnd_flatten hmembers (by decide)⟩

end EditorScript
