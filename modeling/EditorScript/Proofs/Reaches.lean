import EditorScript.Pattern.Combinators
import Mathlib.Tactic.Common

/-!
# What a pattern can match

`run` tries the ways to match a pattern in an order.  `Reaches` forgets the
order: it relates a position to every position behind a way to match.  Whatever
`run` finds is found at a position that is reached, so a pattern that reaches
nothing finds nothing, and a pattern that reaches one place only finds that one.
-/

namespace EditorScript

namespace Pattern

variable {β : Type}

/-- A pattern matches between two positions. -/
inductive Reaches : Pattern → Position → Position → Prop
  | empty (place : Position) : Reaches empty place place
  | one {accepts : Char → Bool} {before : Option Char} {c : Char} {rest : Text}
      {captures : List (String × Text)} : accepts c →
      Reaches (one accepts) ⟨before, c :: rest, captures⟩ ⟨some c, rest, captures⟩
  | seq {first second : Pattern} {place middle later : Position} :
      Reaches first place middle → Reaches second middle later →
      Reaches (seq first second) place later
  | left {first second : Pattern} {place later : Position} :
      Reaches first place later → Reaches (either first second) place later
  | right {first second : Pattern} {place later : Position} :
      Reaches second place later → Reaches (either first second) place later
  | stop {greedy : Bool} {body : Pattern} (place : Position) :
      Reaches (loop greedy body) place place
  | round {greedy : Bool} {body : Pattern} {place middle later : Position} :
      Reaches body place middle → Reaches (loop greedy body) middle later →
      Reaches (loop greedy body) place later
  | capture {name : String} {body : Pattern} {place later : Position} :
      Reaches body place later →
      Reaches (capture name body) place
        { later with captures := (name, place.upTo later) :: later.captures }
  | same {name : String} {place later : Position} {text : Text} :
      place.captured? name = some text → place.skip? text = some later →
      Reaches (same name) place later
  | check {holds : Option Char → Text → Bool} {place : Position} :
      holds place.before place.after → Reaches (check holds) place place

private theorem rounds_sound {greedy : Bool} {body : Pattern} {next : Position → Option β}
    {result : β}
    (h : ∀ (following : Position → Option β) (place : Position),
      body.run following place = some result →
        ∃ later, Reaches body place later ∧ following later = some result)
    {count : Nat} {place : Position}
    (hrun : rounds greedy (fun following place => body.run following place) next count place =
      some result) :
    ∃ later, Reaches (loop greedy body) place later ∧ next later = some result := by
  induction count generalizing place with
  | zero => exact ⟨place, .stop place, hrun⟩
  | succ count ih =>
    have hround : body.run (rounds greedy (fun following place => body.run following place) next
        count) place = some result → ∃ later, Reaches (loop greedy body) place later ∧
          next later = some result := by
      intro hbody
      obtain ⟨middle, hmiddle, hrest⟩ := h _ _ hbody
      obtain ⟨later, hlater, hnext⟩ := ih hrest
      exact ⟨later, .round hmiddle hlater, hnext⟩
    rw [rounds] at hrun
    split at hrun
    · rcases Option.or_eq_some_iff.mp hrun with hbody | ⟨-, hstop⟩
      · exact hround hbody
      · exact ⟨place, .stop place, hstop⟩
    · rcases Option.or_eq_some_iff.mp hrun with hstop | ⟨-, hbody⟩
      · exact ⟨place, .stop place, hstop⟩
      · exact hround hbody

/-- What a run finds, it finds at a position that the pattern reaches. -/
theorem run_sound {pattern : Pattern} {next : Position → Option β} {place : Position} {result : β}
    (h : pattern.run next place = some result) :
    ∃ later, Reaches pattern place later ∧ next later = some result := by
  induction pattern generalizing next place with
  | empty => exact ⟨place, .empty place, h⟩
  | one accepts =>
    obtain ⟨before, after, captures⟩ := place
    cases after with
    | nil => simp [run] at h
    | cons c rest =>
      simp only [run] at h
      split at h
      · rename_i haccepts
        exact ⟨_, .one haccepts, h⟩
      · simp at h
  | seq first second ihFirst ihSecond =>
    obtain ⟨middle, hmiddle, hsecond⟩ := ihFirst h
    obtain ⟨later, hlater, hnext⟩ := ihSecond hsecond
    exact ⟨later, .seq hmiddle hlater, hnext⟩
  | either first second ihFirst ihSecond =>
    rw [run] at h
    rcases Option.or_eq_some_iff.mp h with hfirst | ⟨-, hsecond⟩
    · obtain ⟨later, hlater, hnext⟩ := ihFirst hfirst
      exact ⟨later, .left hlater, hnext⟩
    · obtain ⟨later, hlater, hnext⟩ := ihSecond hsecond
      exact ⟨later, .right hlater, hnext⟩
  | loop greedy body ih =>
    rw [run] at h
    exact rounds_sound (fun _ _ hbody => ih hbody) h
  | capture name body ih =>
    rw [run] at h
    obtain ⟨later, hlater, hnext⟩ := ih h
    exact ⟨_, .capture hlater, hnext⟩
  | same name =>
    rw [run] at h
    obtain ⟨later, hlater, hnext⟩ := Option.bind_eq_some_iff.mp h
    obtain ⟨text, htext, hskip⟩ := Option.bind_eq_some_iff.mp hlater
    exact ⟨later, .same htext hskip, hnext⟩
  | check holds =>
    rw [run] at h
    split at h
    · rename_i hholds
      exact ⟨place, .check hholds, h⟩
    · simp at h

/-- A pattern that reaches nothing finds nothing. -/
theorem run_eq_none {pattern : Pattern} {place : Position}
    (h : ∀ later, ¬ Reaches pattern place later) (next : Position → Option β) :
    pattern.run next place = none := by
  cases hrun : pattern.run next place with
  | none => rfl
  | some result =>
    obtain ⟨later, hlater, -⟩ := run_sound hrun
    exact absurd hlater (h later)

/-- Reading a text off leaves what follows it. -/
theorem Reaches.text_eq {content : Text} {place later : Position}
    (h : Reaches (text content) place later) : place.after = content ++ later.after := by
  induction content generalizing place with
  | nil =>
    cases h
    rfl
  | cons c others ih =>
    cases h with
    | seq hfirst hrest =>
      cases hfirst with
      | one haccepts =>
        rw [List.cons_append, ← ih hrest]
        simpa using haccepts

/-- Behind a text that is read off stands its last character. -/
theorem Reaches.before_eq {content : Text} {place later : Position}
    (h : Reaches (text content) place later) : later.before = content.getLast?.or place.before := by
  induction content generalizing place with
  | nil =>
    cases h
    rfl
  | cons c others ih =>
    cases h with
    | seq hfirst hrest =>
      cases hfirst with
      | one haccepts =>
        rw [ih hrest]
        obtain rfl : _ = c := by simpa using haccepts
        cases others <;> simp [List.getLast?_cons]

/-- Rounds of one character read a run of the class. -/
theorem Reaches.many_eq {greedy : Bool} {accepts : Char → Bool} {place later : Position}
    (h : Reaches (loop greedy (.one accepts)) place later) :
    ∃ run', place.after = run' ++ later.after ∧ ∀ c ∈ run', accepts c := by
  generalize hpattern : loop greedy (.one accepts) = pattern at h
  induction h with
  | stop place => exact ⟨[], rfl, by simp⟩
  | round hbody _ _ ih =>
    cases hpattern
    obtain ⟨run', heq, hrun⟩ := ih rfl
    cases hbody with
    | one haccepts =>
      dsimp only at heq
      subst heq
      exact ⟨_ :: run', rfl, List.forall_mem_cons.mpr ⟨haccepts, hrun⟩⟩
  | _ => cases hpattern

theorem Reaches.blanks_eq {place later : Position} (h : Reaches blanks place later) :
    ∃ run', place.after = run' ++ later.after ∧ ∀ c ∈ run', isBlank c :=
  h.many_eq

theorem Reaches.append {first second : Pattern} {place later : Position}
    (h : Reaches (first ++ second) place later) :
    ∃ middle, Reaches first place middle ∧ Reaches second middle later := by
  cases h with
  | seq hfirst hsecond => exact ⟨_, hfirst, hsecond⟩

/-- What is read is a front of the text. -/
theorem Reaches.exists_append {pattern : Pattern} {place later : Position}
    (h : Reaches pattern place later) : ∃ front, place.after = front ++ later.after := by
  induction h with
  | empty place | stop place | check _ => exact ⟨[], rfl⟩
  | @one accepts before c rest captures _ => exact ⟨[c], rfl⟩
  | seq _ _ ihFirst ihSecond | round _ _ ihFirst ihSecond =>
    obtain ⟨first, hfirst⟩ := ihFirst
    obtain ⟨second, hsecond⟩ := ihSecond
    exact ⟨first ++ second, by rw [hfirst, hsecond, List.append_assoc]⟩
  | left _ ih | right _ ih | capture _ ih => exact ih
  | @same name place later text _ hskip =>
    unfold Position.skip? at hskip
    split at hskip
    · obtain rfl := Option.some.inj hskip
      exact ⟨place.after.take text.length, (List.take_append_drop _ _).symm⟩
    · cases hskip

/-- Whether a pattern remembers nothing of what it matches. -/
def remembersNothing : Pattern → Bool
  | seq first second | either first second => first.remembersNothing && second.remembersNothing
  | loop _ body => body.remembersNothing
  | capture _ _ => false
  | empty | one _ | same _ | check _ => true

theorem Reaches.captures_eq {pattern : Pattern} {place later : Position}
    (h : Reaches pattern place later) (hnothing : pattern.remembersNothing) :
    later.captures = place.captures := by
  induction h with
  | empty | one _ | stop | check _ => rfl
  | seq _ _ ihFirst ihSecond =>
    rw [remembersNothing, Bool.and_eq_true] at hnothing
    rw [ihSecond hnothing.2, ihFirst hnothing.1]
  | round _ _ ihBody ihRest => rw [ihRest hnothing, ihBody hnothing]
  | left _ ih =>
    rw [remembersNothing, Bool.and_eq_true] at hnothing
    exact ih hnothing.1
  | right _ ih =>
    rw [remembersNothing, Bool.and_eq_true] at hnothing
    exact ih hnothing.2
  | capture => cases hnothing
  | @same name place later text _ hskip =>
    unfold Position.skip? at hskip
    split at hskip
    · obtain rfl := Option.some.inj hskip
      rfl
    · cases hskip

theorem remembersNothing_text (content : Text) : (text content).remembersNothing := by
  induction content with
  | nil => rfl
  | cons c rest ih => exact ih

/-- What is captured is what stands between the two places. -/
theorem Reaches.capture_eq {name : String} {body : Pattern} {place later : Position}
    (h : Reaches (Pattern.capture name body) place later) (hnothing : body.remembersNothing) :
    ∃ content, place.after = content ++ later.after ∧
      later.captures = (name, content) :: place.captures ∧
      ∃ middle, Reaches body place middle ∧ middle.after = later.after := by
  cases h with
  | @capture _ _ _ middle hbody =>
    obtain ⟨content, hcontent⟩ := hbody.exists_append
    refine ⟨content, hcontent, ?_, middle, hbody, rfl⟩
    rw [hbody.captures_eq hnothing, Position.upTo, hcontent]
    simp

theorem Reaches.capture_body {name : String} {body : Pattern} {place later : Position}
    (h : Reaches (Pattern.capture name body) place later) :
    ∃ middle, Reaches body place middle ∧ middle.after = later.after := by
  cases h with
  | capture hbody => exact ⟨_, hbody, rfl⟩

/-- A literal stands between two quotes. -/
theorem Reaches.literal_eq {name : String} {place later : Position}
    (h : Reaches (literal name) place later) :
    ∃ content, place.after = '"' :: (content ++ '"' :: later.after) := by
  obtain ⟨_, h, hclose⟩ := h.append
  obtain ⟨_, hopen, hcontent⟩ := h.append
  obtain ⟨content, hcontent⟩ := hcontent.exists_append
  rw [hclose.text_eq] at hcontent
  rw [hopen.text_eq, hcontent]
  exact ⟨content, rfl⟩

/-- At least one round reads at least one character. -/
theorem Reaches.many1_eq {greedy : Bool} {accepts : Char → Bool} {place later : Position}
    (h : Reaches (.seq (.one accepts) (.loop greedy (.one accepts))) place later) :
    ∃ run', run' ≠ [] ∧ place.after = run' ++ later.after ∧ ∀ c ∈ run', accepts c := by
  cases h with
  | seq hfirst hrest =>
    obtain ⟨run', heq, hrun⟩ := hrest.many_eq
    cases hfirst with
    | one haccepts =>
      dsimp only at heq
      subst heq
      exact ⟨_ :: run', List.cons_ne_nil _ _, rfl,
        List.forall_mem_cons.mpr ⟨haccepts, hrun⟩⟩

theorem Reaches.comma_eq {place later : Position} (h : Reaches comma place later) :
    ∃ front back, place.after = front ++ ',' :: (back ++ later.after) ∧
      (∀ c ∈ front, isBlank c) ∧ (∀ c ∈ back, isBlank c) := by
  obtain ⟨_, h, hback⟩ := h.append
  obtain ⟨_, hfront, hcomma⟩ := h.append
  obtain ⟨front, hfront, hfrontBlank⟩ := hfront.blanks_eq
  obtain ⟨back, hback, hbackBlank⟩ := hback.blanks_eq
  rw [hcomma.text_eq, hback] at hfront
  exact ⟨front, back, hfront, hfrontBlank, hbackBlank⟩

/-- What the end of a statement looks like. -/
theorem Reaches.closing_eq {place later : Position} (h : Reaches closing place later) :
    ∃ front back, place.after = front ++ ')' :: (back ++ ';' :: later.after) ∧
      (∀ c ∈ front, isBlank c) ∧ (∀ c ∈ back, isBlank c) ∧
      (later.after = [] ∨ later.after = ['\n']) := by
  obtain ⟨_, h, hfinish⟩ := h.append
  obtain ⟨_, h, hsemicolon⟩ := h.append
  obtain ⟨_, h, hback⟩ := h.append
  obtain ⟨_, hfront, hclose⟩ := h.append
  obtain ⟨front, hfront, hfrontBlank⟩ := hfront.blanks_eq
  obtain ⟨back, hback, hbackBlank⟩ := hback.blanks_eq
  rw [hclose.text_eq, hback, hsemicolon.text_eq] at hfront
  cases hfinish with
  | check hends => exact ⟨front, back, hfront, hfrontBlank, hbackBlank, by simpa using hends⟩

end Pattern

end EditorScript
