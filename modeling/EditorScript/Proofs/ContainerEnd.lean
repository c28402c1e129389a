import EditorScript.Proofs.FirstMatch
import EditorScript.Proofs.ShownDisplay

/-!
# Ends of containers

The call that ends a container is found by counting the calls of its pair.  Lines
that keep clear of the names of these calls do not count, and neither does a whole
container with everything inside it.
-/

namespace EditorScript

open Pattern

/-- The pairs of calls around containers. -/
inductive ContainerPair where
  | horizontal | vertical | scrollView | disabledGroup
deriving DecidableEq

namespace ContainerPair

/-- The class that a pair belongs to. -/
def owner : ContainerPair → Pattern
  | disabledGroup => "EditorGUI"
  | _ => ContainerShape.layoutGui

/-- What the name of this class ends with. -/
def ownerName : ContainerPair → Text
  | disabledGroup => "EditorGUI"
  | _ => "GUILayout"

def name : ContainerPair → String
  | horizontal => "Horizontal"
  | vertical => "Vertical"
  | scrollView => "ScrollView"
  | disabledGroup => "DisabledGroup"

/-- The names of the calls that begin and end a container. -/
def opening (pair : ContainerPair) : String := "Begin" ++ pair.name

def closing (pair : ContainerPair) : String := "End" ++ pair.name

def all : List ContainerPair := [horizontal, vertical, scrollView, disabledGroup]

theorem mem_all (pair : ContainerPair) : pair ∈ all := by
  cases pair <;> decide

/-- What a text holds in which a call of the pair occurs. -/
def callName (pair : ContainerPair) (call : String) : Text :=
  pair.ownerName ++ '.' :: call.toList

/-- All names of calls around containers. -/
def callNames : List Text :=
  all.flatMap fun pair => [pair.callName pair.opening, pair.callName pair.closing]

variable {pair : ContainerPair} {call : String} {code : Text}

theorem owner_eq {place later : Position} (h : Reaches pair.owner place later) :
    ∃ front, place.after = front ++ (pair.ownerName ++ later.after) := by
  have hlayout : Reaches ContainerShape.layoutGui place later →
      ∃ front, place.after = front ++ ("GUILayout".toList ++ later.after) := by
    intro howner
    obtain ⟨_, hopt, hname⟩ := howner.append
    obtain ⟨front, hopt⟩ := hopt.exists_append
    exact ⟨front, by rw [hopt, hname.text_eq]⟩
  cases pair with
  | disabledGroup => exact ⟨[], h.text_eq⟩
  | horizontal | vertical | scrollView => exact hlayout h

theorem callName_infix {place later : Position}
    (h : Reaches (ContainerShape.named pair.owner call) place later) :
    pair.callName call <:+: place.after := by
  obtain ⟨behind, h, -⟩ := h.append
  obtain ⟨_, h, hcall⟩ := h.append
  obtain ⟨_, howner, hpoint⟩ := h.append
  obtain ⟨front, hfront⟩ := owner_eq howner
  refine ⟨front, behind.after, ?_⟩
  rw [hfront, hpoint.text_eq, hcall.text_eq, callName]
  simp

/-- A call does not occur in a text without its name. -/
theorem occurs_eq_false (h : ¬ pair.callName call <:+: code) :
    (ContainerShape.named pair.owner call).occurs code = false := by
  rw [occurs, search?, searchFrom_eq_none (fun _ _ => callName_infix) h]
  rfl

/-- What keeps clear of the beginnings of names keeps clear of the names. -/
theorem avoids_callNames {text : Text} (h : Avoids containerCalls text) :
    Avoids callNames text := by
  have hinside : ∀ word ∈ callNames, ∃ front ∈ containerCalls, front <:+: word := by
    decide +kernel
  intro word hword hoccurs
  obtain ⟨front, hfront, hin⟩ := hinside word hword
  exact h front hfront (hin.trans hoccurs)

theorem mem_callNames (pair : ContainerPair) :
    pair.callName pair.opening ∈ callNames ∧ pair.callName pair.closing ∈ callNames := by
  cases pair <;> decide

/-- What the codes of the two lines around a container hold of calls. -/
structure Around (pair : ContainerPair) (front back : Text) : Prop where
  opens : ∀ other : ContainerPair,
    (ContainerShape.named other.owner other.opening).occurs front = decide (other = pair)
  open' : ∀ other : ContainerPair,
    (ContainerShape.named other.owner other.closing).occurs front = false
  close' : ∀ other : ContainerPair,
    (ContainerShape.named other.owner other.opening).occurs back = false
  closes : ∀ other : ContainerPair,
    (ContainerShape.named other.owner other.closing).occurs back = decide (other = pair)

/-- Calls without arguments around a container. -/
theorem around_of_all (front back : Text)
    (h : all.all fun other =>
      (ContainerShape.named other.owner other.opening).occurs front == decide (other = pair) &&
        !(ContainerShape.named other.owner other.closing).occurs front &&
        !(ContainerShape.named other.owner other.opening).occurs back &&
        (ContainerShape.named other.owner other.closing).occurs back == decide (other = pair)) :
    pair.Around front back := by
  have hother : ∀ other : ContainerPair, _ := fun other => List.all_eq_true.mp h other (mem_all other)
  simp only [Bool.and_eq_true, beq_iff_eq, Bool.not_eq_true'] at hother
  exact ⟨fun other => (hother other).1.1.1, fun other => (hother other).1.1.2,
    fun other => (hother other).1.2, fun other => (hother other).2⟩

/-- A call with an argument that keeps clear of all names begins a container just
as the call without it does. -/
theorem Around.of_argument {front argument back bare : Text} (h : pair.Around bare back)
    (hown : (ContainerShape.named pair.owner pair.opening).occurs (front ++ argument))
    (hfront : isFront (callNames.filter (· != pair.callName pair.opening)) front)
    (hargument : Avoids containerCalls argument) : pair.Around (front ++ argument) back := by
  have havoids : Avoids (callNames.filter (· != pair.callName pair.opening))
      (front ++ argument) :=
    ((avoids_callNames hargument).of_subset List.filter_sublist.subset).front hfront
  have hdistinct : ∀ first second : ContainerPair,
      second.callName second.closing ≠ first.callName first.opening ∧
        (second ≠ first → second.callName second.opening ≠ first.callName first.opening) := by
    intro first second
    cases first <;> cases second <;> decide
  have hnone : ∀ {word : Text}, word ∈ callNames → word ≠ pair.callName pair.opening →
      ¬ word <:+: front ++ argument := fun hword hne =>
    havoids _ (List.mem_filter.mpr ⟨hword, bne_iff_ne.mpr hne⟩)
  refine ⟨fun other => ?_, fun other => ?_, h.close', h.closes⟩
  · by_cases hsame : other = pair
    · subst hsame
      rw [hown, decide_eq_true rfl]
    · rw [decide_eq_false hsame]
      exact occurs_eq_false (hnone (mem_callNames other).1 ((hdistinct pair other).2 hsame))
  · exact occurs_eq_false (hnone (mem_callNames other).2 (hdistinct pair other).1)

end ContainerPair

/-! ## Counting -/

namespace ContainerShape

variable {shape : ContainerShape} {lines others : List Text} {line : Text}

/-- A line with no call of the pair does not count. -/
theorem linesToEnd?_cons (hopens : shape.opens.occurs (codeOf line) = false)
    (hcloses : shape.closes.occurs (codeOf line) = false) (depth : Nat) (rest : List Text) :
    shape.linesToEnd? depth (line :: rest) = (shape.linesToEnd? depth rest).map (· + 1) := by
  rw [linesToEnd?]
  simp [hopens, hcloses]

/-- Lines that do not count for any pair. -/
def Passes (lines : List Text) : Prop :=
  ∀ (pair : ContainerPair) (shape : ContainerShape), shape.HasPair pair.owner pair.name →
    ∀ depth rest, shape.linesToEnd? depth (lines ++ rest) =
      (shape.linesToEnd? depth rest).map (· + lines.length)

theorem passes_nil : Passes [] := by
  intro pair shape _ depth rest
  simp

theorem Passes.append (h : Passes lines) (h' : Passes others) : Passes (lines ++ others) := by
  intro pair shape hpair depth rest
  rw [List.append_assoc, h pair shape hpair, h' pair shape hpair, Option.map_map,
    List.length_append]
  congr 1
  funext count
  simp only [Function.comp_apply]
  omega

/-- A line whose code holds no name of a call around containers. -/
theorem passes_of_code (h : Avoids containerCalls (codeOf line)) : Passes [line] := by
  intro pair shape hpair depth rest
  have hcode := ContainerPair.avoids_callNames h
  obtain ⟨hopening, hclosing⟩ := ContainerPair.mem_callNames pair
  refine linesToEnd?_cons ?_ ?_ depth rest
  · rw [hpair.opens]
    exact ContainerPair.occurs_eq_false (hcode _ hopening)
  · rw [hpair.closes]
    exact ContainerPair.occurs_eq_false (hcode _ hclosing)

theorem passes_of_forall (h : ∀ line ∈ lines, Avoids containerCalls line) : Passes lines := by
  induction lines with
  | nil => exact passes_nil
  | cons line rest ih =>
    rw [List.forall_mem_cons] at h
    exact (passes_of_code (h.1.of_part (infix_codeOf line))).append (ih h.2)

variable {pair : ContainerPair} {front back : Text}

/-- The call that ends a container stands behind all that is inside. -/
theorem linesToEnd?_inside (h : Passes lines)
    (haround : pair.Around (codeOf front) (codeOf back))
    (hpair : shape.HasPair pair.owner pair.name) (depth : Nat) (rest : List Text) :
    shape.linesToEnd? depth (lines ++ back :: rest) =
      match depth with
      | 0 => some lines.length
      | outer + 1 => (shape.linesToEnd? outer rest).map (· + (lines.length + 1)) := by
  have hback : shape.opens.occurs (codeOf back) = false := by
    rw [hpair.opens]
    exact haround.close' pair
  have hend : shape.closes.occurs (codeOf back) = true := by
    rw [hpair.closes]
    exact (haround.closes pair).trans (decide_eq_true rfl)
  rw [h pair shape hpair, linesToEnd?]
  simp only [hback, hend, Bool.false_eq_true, if_false, if_true]
  cases depth with
  | zero => simp
  | succ outer =>
    rw [Option.map_map]
    congr 1
    funext count
    simp only [Function.comp_apply]
    omega

/-- A whole container does not count for any pair. -/
theorem passes_container (h : Passes lines)
    (haround : pair.Around (codeOf front) (codeOf back)) :
    Passes (front :: lines ++ [back]) := by
  intro other shape hother depth rest
  have hlength : (front :: lines ++ [back]).length = 1 + (lines.length + 1) := by
    simp
    omega
  have hshape : front :: lines ++ [back] ++ rest = front :: (lines ++ back :: rest) := by simp
  rw [hlength, hshape]
  by_cases hsame : other = pair
  · subst hsame
    have hfront : shape.opens.occurs (codeOf front) = true := by
      rw [hother.opens]
      exact (haround.opens other).trans (decide_eq_true rfl)
    have hopen : shape.closes.occurs (codeOf front) = false := by
      rw [hother.closes]
      exact haround.open' other
    rw [linesToEnd?]
    simp only [hfront, hopen, Bool.false_eq_true, if_false, if_true]
    rw [linesToEnd?_inside h haround hother, Option.map_map]
    congr 1
    funext count
    simp only [Function.comp_apply]
    omega
  · have hnone : ∀ {line : Text}, line = front ∨ line = back →
        shape.opens.occurs (codeOf line) = false ∧ shape.closes.occurs (codeOf line) = false := by
      rintro line (rfl | rfl)
      · rw [hother.opens, hother.closes]
        exact ⟨(haround.opens other).trans (decide_eq_false hsame), haround.open' other⟩
      · rw [hother.opens, hother.closes]
        exact ⟨haround.close' other, (haround.closes other).trans (decide_eq_false hsame)⟩
    obtain ⟨hopens, hcloses⟩ := hnone (.inl rfl)
    obtain ⟨hopens', hcloses'⟩ := hnone (.inr rfl)
    rw [linesToEnd?_cons hopens hcloses, h other shape hother, linesToEnd?_cons hopens' hcloses',
      Option.map_map, Option.map_map]
    congr 1
    funext count
    simp only [Function.comp_apply]
    omega

end ContainerShape

end EditorScript
