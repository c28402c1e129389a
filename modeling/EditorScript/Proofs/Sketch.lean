import EditorScript.Proofs.Reaches

/-!
# Sketches of texts

A sketch says of a text which characters are known and where there are runs of
characters of a set or anything at all.  A pattern is run on a sketch instead
of a text by following all sketches of what may be left behind it.  When none is
left, the pattern matches no text of the sketch; whether that is so can be
computed.
-/

namespace EditorScript

/-- A part of a sketch: one character, any number of characters of a set, or
anything up to the end. -/
inductive Part where
  | char (c : Char)
  | run (characters : List Char)
  | rest
deriving DecidableEq

abbrev Sketch := List Part

/-- A text has a sketch. -/
inductive Fits : Sketch → Text → Prop
  | done : Fits [] []
  | char {c : Char} {sketch : Sketch} {text : Text} :
      Fits sketch text → Fits (.char c :: sketch) (c :: text)
  | stop {characters : List Char} {sketch : Sketch} {text : Text} :
      Fits sketch text → Fits (.run characters :: sketch) text
  | more {characters : List Char} {sketch : Sketch} {c : Char} {text : Text} :
      c ∈ characters → Fits (.run characters :: sketch) text →
      Fits (.run characters :: sketch) (c :: text)
  | rest {sketch : Sketch} {text : Text} : Fits (.rest :: sketch) text

namespace Sketch

/-- The sketch of known characters. -/
def known (text : Text) : Sketch :=
  text.map .char

/-- The sketches of what may be left behind one character of a class. -/
def behind (accepts : Char → Bool) : Sketch → List Sketch
  | [] => []
  | .char c :: sketch => if accepts c then [sketch] else []
  | .run characters :: sketch =>
    (if characters.any accepts then [.run characters :: sketch] else []) ++
      behind accepts sketch
  | .rest :: _ => [[.rest]]

/-- The sketches of what may be left behind any number of rounds; after `fuel`
changes of the sketch nothing is known any more. -/
def behindRounds (round : Sketch → List Sketch) : Nat → Sketch → List Sketch
  | 0, _ => [[.rest]]
  | fuel + 1, sketch =>
    sketch :: ((round sketch).filter (· ≠ sketch)).flatMap (behindRounds round fuel)

end Sketch

namespace Pattern

/-- The sketches of what may be left behind a match. -/
def sketches : Pattern → Sketch → List Sketch
  | empty, sketch => [sketch]
  | one accepts, sketch => sketch.behind accepts
  | seq first second, sketch => (first.sketches sketch).flatMap second.sketches
  | either first second, sketch => first.sketches sketch ++ second.sketches sketch
  | loop _ body, sketch =>
    Sketch.behindRounds (fun place => body.sketches place) (sketch.length + 1) sketch
  | capture _ body, sketch => body.sketches sketch
  | same _, _ => [[.rest]]
  | check _, sketch => [sketch]

/-- Whether the pattern matches no text of a sketch. -/
def rulesOut (pattern : Pattern) (sketch : Sketch) : Bool :=
  (pattern.sketches sketch).isEmpty

end Pattern

theorem Fits.known_append {sketch : Sketch} {text : Text} (h : Fits sketch text)
    (front : Text) : Fits (Sketch.known front ++ sketch) (front ++ text) := by
  induction front with
  | nil => exact h
  | cons c rest ih => exact .char ih

theorem Fits.run_append {characters : List Char} {sketch : Sketch} {text : Text}
    (h : Fits sketch text) {front : Text} (hfront : ∀ c ∈ front, c ∈ characters) :
    Fits (.run characters :: sketch) (front ++ text) := by
  induction front with
  | nil => exact .stop h
  | cons c rest ih =>
    rw [List.forall_mem_cons] at hfront
    exact .more hfront.1 (ih hfront.2)

/-- What is left behind one character has one of the sketches. -/
theorem Fits.behind {sketch : Sketch} {text : Text} (h : Fits sketch text)
    {accepts : Char → Bool} {c : Char} {rest : Text} (htext : text = c :: rest)
    (haccepts : accepts c) : ∃ left ∈ sketch.behind accepts, Fits left rest := by
  induction h with
  | done => cases htext
  | char hfits ih =>
    cases htext
    exact ⟨_, by simp [Sketch.behind, haccepts], hfits⟩
  | stop hfits ih =>
    obtain ⟨left, hleft, hrest⟩ := ih htext
    exact ⟨left, List.mem_append_right _ hleft, hrest⟩
  | @more characters sketch d text hmem hfits ih =>
    cases htext
    have hany : characters.any accepts = true := List.any_eq_true.mpr ⟨c, hmem, haccepts⟩
    exact ⟨_, List.mem_append_left _ (by simp [hany]), hfits⟩
  | rest => exact ⟨_, List.mem_singleton.mpr rfl, .rest⟩

namespace Pattern

/-- A view of characters keeps the classes of a pattern when it leaves each character of
a class in the class. -/
def Respects (view : Char → Char) : Pattern → Prop
  | one accepts => ∀ c, accepts c → accepts (view c)
  | seq first second | either first second => first.Respects view ∧ second.Respects view
  | loop _ body | capture _ body => body.Respects view
  | empty | same _ | check _ => True

private theorem fits_behindRounds {view : Char → Char} {greedy : Bool} {body : Pattern}
    {round : Sketch → List Sketch}
    (hround : ∀ {place later : Position} {sketch : Sketch}, Reaches body place later →
      Fits sketch (place.after.map view) → ∃ left ∈ round sketch, Fits left (later.after.map view))
    {pattern : Pattern} {place later : Position} (h : Reaches pattern place later)
    (hpattern : pattern = loop greedy body) {sketch : Sketch}
    (hfits : Fits sketch (place.after.map view)) (fuel : Nat) :
    ∃ left ∈ Sketch.behindRounds round fuel sketch, Fits left (later.after.map view) := by
  induction h generalizing sketch fuel with
  | stop place =>
    cases fuel with
    | zero => exact ⟨_, List.mem_singleton.mpr rfl, .rest⟩
    | succ fuel => exact ⟨sketch, List.mem_cons_self, hfits⟩
  | @round _ _ place middle later hbody hrest _ ih =>
    cases hpattern
    cases fuel with
    | zero => exact ⟨_, List.mem_singleton.mpr rfl, .rest⟩
    | succ fuel =>
      obtain ⟨next, hnext, hmiddle⟩ := hround hbody hfits
      by_cases hsame : next = sketch
      · subst hsame
        exact ih rfl hmiddle (fuel + 1)
      · obtain ⟨left, hleft, hlater⟩ := ih rfl hmiddle fuel
        refine ⟨left, List.mem_cons_of_mem _ (List.mem_flatMap.mpr ⟨next, ?_, hleft⟩), hlater⟩
        exact List.mem_filter.mpr ⟨hnext, by simpa using hsame⟩
  | _ => cases hpattern

/-- Whatever a pattern leaves of a text has one of the sketches, also when the sketches
are of a view of the text. -/
theorem Reaches.fits_map {view : Char → Char} {pattern : Pattern} {place later : Position}
    (h : Reaches pattern place later) (hview : pattern.Respects view) {sketch : Sketch}
    (hfits : Fits sketch (place.after.map view)) :
    ∃ left ∈ pattern.sketches sketch, Fits left (later.after.map view) := by
  induction pattern generalizing place later sketch with
  | empty =>
    cases h
    exact ⟨sketch, List.mem_singleton.mpr rfl, hfits⟩
  | one accepts =>
    cases h with
    | one haccepts => exact hfits.behind rfl (hview _ haccepts)
  | seq first second ihFirst ihSecond =>
    cases h with
    | seq hfirst hsecond =>
      obtain ⟨middle, hmiddle, hfitsMiddle⟩ := ihFirst hfirst hview.1 hfits
      obtain ⟨left, hleft, hlater⟩ := ihSecond hsecond hview.2 hfitsMiddle
      exact ⟨left, List.mem_flatMap.mpr ⟨middle, hmiddle, hleft⟩, hlater⟩
  | either first second ihFirst ihSecond =>
    cases h with
    | left hfirst =>
      obtain ⟨left, hleft, hlater⟩ := ihFirst hfirst hview.1 hfits
      exact ⟨left, List.mem_append_left _ hleft, hlater⟩
    | right hsecond =>
      obtain ⟨left, hleft, hlater⟩ := ihSecond hsecond hview.2 hfits
      exact ⟨left, List.mem_append_right _ hleft, hlater⟩
  | loop greedy body ih =>
    exact fits_behindRounds (fun hbody hplace => ih hbody hview hplace) h rfl hfits _
  | capture name body ih =>
    cases h with
    | capture hbody => exact ih hbody hview hfits
  | same name => exact ⟨_, List.mem_singleton.mpr rfl, .rest⟩
  | check holds =>
    cases h
    exact ⟨sketch, List.mem_singleton.mpr rfl, hfits⟩

/-- A pattern that rules out a sketch matches no text that has the sketch in a view. -/
theorem match?_eq_none_of_map {view : Char → Char} {pattern : Pattern} {sketch : Sketch}
    (h : pattern.rulesOut sketch) (hview : pattern.Respects view) {text : Text}
    (hfits : Fits sketch (text.map view)) : pattern.match? text = none := by
  refine run_eq_none (fun later hlater => ?_) some
  obtain ⟨left, hleft, -⟩ := hlater.fits_map hview hfits
  rw [List.isEmpty_iff.mp h] at hleft
  exact List.not_mem_nil hleft

theorem respects_id (pattern : Pattern) : pattern.Respects id := by
  induction pattern with
  | one accepts => exact fun _ haccepts => haccepts
  | seq _ _ ihFirst ihSecond | either _ _ ihFirst ihSecond => exact ⟨ihFirst, ihSecond⟩
  | loop _ _ ih | capture _ _ ih => exact ih
  | empty | same _ | check _ => trivial

/-- A pattern that rules out a sketch matches none of its texts. -/
theorem match?_eq_none_of_rulesOut {pattern : Pattern} {sketch : Sketch}
    (h : pattern.rulesOut sketch) {text : Text} (hfits : Fits sketch text) :
    pattern.match? text = none :=
  match?_eq_none_of_map h (respects_id pattern) (by rwa [List.map_id])

end Pattern

end EditorScript
