import EditorScript.Proofs.FirstMatch

/-!
# Characters that a pattern cannot read

A pattern that cannot read a character matches in front of it or not at all: what it
reads does not hold the character, and whether it matches there does not depend on what
stands behind.  So a search that finds nothing up to such a character finds nothing there
in any longer text.
-/

namespace EditorScript

namespace Pattern

variable {β γ : Type} {pattern : Pattern} {stop first : Char}

/-- The pattern cannot read the character `stop`, and the conditions on its places look at
the next character only. -/
def StopsAt (stop : Char) : Pattern → Prop
  | empty => True
  | one accepts | loop _ (one accepts) => accepts stop = false
  | seq first second | either first second => first.StopsAt stop ∧ second.StopsAt stop
  | check holds => ∀ before c rest rest', holds before (c :: rest) = holds before (c :: rest')
  | loop _ _ | capture _ _ | same _ => False

theorem stopsAt_text {content : Text} (h : stop ∉ content) : (text content).StopsAt stop := by
  induction content with
  | nil => trivial
  | cons c rest ih =>
    rw [List.mem_cons, not_or] at h
    exact ⟨beq_eq_false_iff_ne.mpr h.1, ih h.2⟩

theorem stopsAt_many1 {accepts : Char → Bool} (h : accepts stop = false) :
    (many1 (one accepts)).StopsAt stop :=
  ⟨h, h⟩

theorem stopsAt_blanks (h : isBlank stop = false) : blanks.StopsAt stop :=
  h

theorem stopsAt_boundary : boundary.StopsAt stop :=
  fun _ _ _ _ => rfl

/-- What is read does not hold the character. -/
theorem Reaches.exists_append_of_stopsAt {place later : Position} (h : Reaches pattern place later)
    (hstop : pattern.StopsAt stop) : ∃ front, place.after = front ++ later.after ∧ stop ∉ front := by
  induction h with
  | empty place | check _ => exact ⟨[], rfl, List.not_mem_nil⟩
  | stop place => exact ⟨[], rfl, List.not_mem_nil⟩
  | @one accepts before c rest captures haccepts =>
    refine ⟨[c], rfl, fun hmem => ?_⟩
    obtain rfl := List.mem_singleton.mp hmem
    have hstop : accepts stop = false := hstop
    rw [haccepts] at hstop
    cases hstop
  | seq _ _ ihFirst ihSecond =>
    obtain ⟨front, hfront, hnone⟩ := ihFirst hstop.1
    obtain ⟨behind, hbehind, hnone'⟩ := ihSecond hstop.2
    exact ⟨front ++ behind, by rw [hfront, hbehind, List.append_assoc],
      fun hmem => (List.mem_append.mp hmem).elim hnone hnone'⟩
  | left _ ih => exact ih hstop.1
  | right _ ih => exact ih hstop.2
  | @round greedy body place middle later hbody _ ihBody ihRest =>
    obtain ⟨behind, hbehind, hnone'⟩ := ihRest hstop
    obtain ⟨front, hfront, hnone⟩ := ihBody (by
      cases body with
      | one => exact hstop
      | _ => exact absurd hstop id)
    exact ⟨front ++ behind, by rw [hfront, hbehind, List.append_assoc],
      fun hmem => (List.mem_append.mp hmem).elim hnone hnone'⟩
  | capture | same => exact absurd hstop id

variable {next : Position → Option β} {next' : Position → Option γ} {rest rest' : Text}

private theorem isSome_rounds {accepts : Char → Bool} (hstop : accepts stop = false)
    (hnext : ∀ before front captures, (next ⟨before, front ++ stop :: rest, captures⟩).isSome =
      (next' ⟨before, front ++ stop :: rest', captures⟩).isSome) (greedy : Bool)
    {front : Text} {count count' : Nat} (hcount : front.length ≤ count)
    (hcount' : front.length ≤ count') (before : Option Char) (captures : List (String × Text)) :
    (rounds greedy (fun following place => (one accepts).run following place) next count
        ⟨before, front ++ stop :: rest, captures⟩).isSome =
      (rounds greedy (fun following place => (one accepts).run following place) next' count'
        ⟨before, front ++ stop :: rest', captures⟩).isSome := by
  induction front generalizing count count' before with
  | nil =>
    have hnone : ∀ {δ : Type} {next : Position → Option δ} {rest : Text} (count : Nat),
        rounds greedy (fun following place => (one accepts).run following place) next count
          ⟨before, [] ++ stop :: rest, captures⟩ = next ⟨before, [] ++ stop :: rest, captures⟩ := by
      intro δ next rest count
      cases count with
      | zero => rfl
      | succ count => simp [rounds, run, hstop]
    rw [hnone, hnone]
    exact hnext before [] captures
  | cons c others ih =>
    obtain ⟨count, rfl⟩ := Nat.exists_eq_add_of_le' (Nat.succ_le_of_lt (Nat.zero_lt_of_lt hcount))
    obtain ⟨count', rfl⟩ := Nat.exists_eq_add_of_le' (Nat.succ_le_of_lt (Nat.zero_lt_of_lt hcount'))
    have hothers := ih (Nat.le_of_succ_le_succ hcount) (Nat.le_of_succ_le_succ hcount') (some c)
    have hhere := hnext before (c :: others) captures
    rw [List.cons_append, List.cons_append] at hhere
    cases hc : accepts c with
    | true => cases greedy <;> simp [rounds, run_one hc, hothers, hhere]
    | false =>
      have hnone : ∀ {δ : Type} (following : Position → Option δ) (rest : Text),
          (one accepts).run following ⟨before, c :: rest, captures⟩ = none := by
        intro δ following rest
        exact run_one_of_not (by rintro _ ⟨⟩; exact hc) following before captures
      cases greedy <;> simp [rounds, hnone, hhere]

/-- Whether a pattern matches in front of a character that it stops at does not depend on
what stands behind that character. -/
theorem isSome_run_of_stopsAt (h : pattern.StopsAt stop)
    (hnext : ∀ before front captures, (next ⟨before, front ++ stop :: rest, captures⟩).isSome =
      (next' ⟨before, front ++ stop :: rest', captures⟩).isSome)
    (before : Option Char) (front : Text) (captures : List (String × Text)) :
    (pattern.run next ⟨before, front ++ stop :: rest, captures⟩).isSome =
      (pattern.run next' ⟨before, front ++ stop :: rest', captures⟩).isSome := by
  induction pattern generalizing next next' before front captures with
  | empty => exact hnext before front captures
  | one accepts =>
    cases front with
    | nil =>
      have hstop : accepts stop = false := h
      simp [run, hstop]
    | cons c others =>
      have hrest := hnext (some c) others captures
      cases hc : accepts c <;> simp [run, hc, hrest]
  | seq first second ihFirst ihSecond =>
    exact ihFirst h.1 (fun before front captures =>
      ihSecond h.2 hnext before front captures) before front captures
  | either first second ihFirst ihSecond =>
    rw [run, run, Option.isSome_or, Option.isSome_or, ihFirst h.1 hnext, ihSecond h.2 hnext]
  | loop greedy body =>
    cases body with
    | one accepts =>
      exact isSome_rounds h hnext greedy (by simp) (by simp) before captures
    | _ => exact absurd h id
  | capture | same => exact absurd h id
  | check holds =>
    have hholds : holds before (front ++ stop :: rest) = holds before (front ++ stop :: rest') := by
      cases front with
      | nil => exact h before stop rest rest'
      | cons c others => exact h before c _ _
    rw [run, run]
    dsimp only
    rw [hholds]
    split
    · exact hnext before front captures
    · rfl

/-- A front is passed over whatever stands behind the character that the search stops at. -/
theorem Passes.of_stopsAt (h : pattern.StopsAt stop) {before : Option Char} {front : Text}
    (hpasses : Passes pattern before front (stop :: rest)) :
    Passes pattern before front (stop :: rest') := by
  induction front generalizing before with
  | nil => trivial
  | cons c others ih =>
    refine ⟨?_, ih hpasses.2⟩
    have hsame := @isSome_run_of_stopsAt _ _ _ _ some some rest rest' h (fun _ _ _ => rfl) before
      (c :: others) []
    have hnone : (pattern.matchAt before (c :: (others ++ stop :: rest))).isSome = false := by
      rw [hpasses.1]
      rfl
    exact Option.isSome_eq_false_iff.mp (hsame.symm.trans hnone) |> Option.isNone_iff_eq_none.mp

/-- Where nothing is found, every front is passed over. -/
theorem passes_of_searchFrom {before : Option Char} {front : Text}
    (h : pattern.searchFrom before (front ++ rest) = none) : Passes pattern before front rest := by
  induction front generalizing before with
  | nil => trivial
  | cons c others ih =>
    rw [List.cons_append, searchFrom] at h
    cases hhere : pattern.matchAt before (c :: (others ++ rest)) with
    | some place => simp [hhere] at h
    | none =>
      rw [hhere] at h
      exact ⟨hhere, ih (by simpa using h)⟩

/-- Every match of the pattern begins with the character `first`. -/
def BeginsWith (first : Char) : Pattern → Prop
  | one accepts => ∀ c, accepts c → c = first
  | seq front _ => front.BeginsWith first
  | _ => False

theorem run_of_beginsWith (h : pattern.BeginsWith first) {c : Char} (hc : c ≠ first)
    (before : Option Char) (captures : List (String × Text)) :
    pattern.run next ⟨before, c :: rest, captures⟩ = none := by
  induction pattern generalizing next with
  | one accepts =>
    have hnot : accepts c = false := Bool.eq_false_iff.mpr fun haccepts => hc (h c haccepts)
    simp [run, hnot]
  | seq front behind ih => exact ih h
  | _ => exact absurd h id

theorem run_before_of_beginsWith (h : pattern.BeginsWith first) (before other : Option Char)
    (captures : List (String × Text)) :
    pattern.run next ⟨before, rest, captures⟩ = pattern.run next ⟨other, rest, captures⟩ := by
  induction pattern generalizing next with
  | one accepts => cases rest <;> rfl
  | seq front behind ih => exact ih h
  | _ => exact absurd h id

theorem searchFrom_before_of_beginsWith (h : pattern.BeginsWith first)
    (before other : Option Char) (text : Text) :
    pattern.searchFrom before text = pattern.searchFrom other text := by
  have hhere : pattern.matchAt before text = pattern.matchAt other text :=
    run_before_of_beginsWith h before other []
  cases text <;> rw [searchFrom, searchFrom, hhere]

end Pattern

end EditorScript
