import EditorScript.Proofs.OpeningBrace
import EditorScript.Proofs.PreservedMembers
import EditorScript.Proofs.WindowReading

/-!
# Types around the class

The types that a project carries along outside its class are written one below the other
and cut apart again in front of each header, with the attributes and comments above it.
Each line is read by itself there, so a type comes back if its braces nest line by line and
no other type begins in it outside braces.
-/

namespace EditorScript

variable {depth later : Nat} {line : Text} {lines rest current : List Text} {code : Text}

/-! ## Braces line by line -/

/-- A marker is looked up among the markers. -/
local instance decidableMarker (line : Text) : Decidable (line ∈ generatedMarkers) :=
  decidable_of_iff (generatedMarkers.contains line) List.contains_iff_mem

/-- The depth of nested braces behind some lines, each of which is read by itself; nothing
at a marker, and at a type that begins outside braces. -/
def outerDepth? (depth : Nat) : List Text → Option Nat
  | [] => some depth
  | line :: rest =>
    if line.trim ∈ generatedMarkers ∨ depth = 0 ∧ typeHeader.accepts (codeOf line) then none
    else (nesting? depth (lineChars .code line)).bind fun later => outerDepth? later rest

/-- Where braces nest, the depth behind a line is the one that is counted. -/
theorem depthBehind_eq (h : nesting? depth (lineChars .code line) = some later) :
    depthBehind depth line = later := by
  have hcount : ∀ {chars : Text} {depth later : Nat}, nesting? depth chars = some later →
      ((depth : Int) + ((chars.count '\x7b' : Int) - chars.count '\x7d')).toNat = later := by
    intro chars depth later h
    fun_induction nesting? depth chars with
    | case1 depth =>
      obtain rfl := Option.some.inj h
      simp
    | case2 depth rest ih =>
      rw [← ih h, List.count_cons_self, List.count_cons_of_ne (by decide)]
      omega
    | case3 => cases h
    | case4 rest _ outer ih =>
      rw [← ih h, List.count_cons_self, List.count_cons_of_ne (by decide)]
      omega
    | case5 depth c rest hopen hclose ih =>
      rw [← ih h, List.count_cons_of_ne hopen, List.count_cons_of_ne hclose]
  exact hcount h

/-- A line that closes no brace of its surroundings is kept, unless it is a marker. -/
theorem ownLines_cons (hmarker : line.trim ∉ generatedMarkers)
    (h : nesting? depth (lineChars .code line) = some later) (rest : List Text) :
    ownLines depth (line :: rest) = line :: ownLines later rest := by
  have hcloses : ¬ (depth = 0 ∧ codeOf line = ['\x7d']) := by
    rintro ⟨rfl, hcode⟩
    obtain ⟨margin, hmargin, others, hchars⟩ :=
      lineChars_of_codeOf (hcode.trans (List.append_nil _).symm) (by decide)
    rw [hchars, nesting?_append, nesting?_blanks hmargin] at h
    cases h
  rw [ownLines, if_neg (by simpa using hmarker), if_neg hcloses, depthBehind_eq h]

theorem ownLines_append (h : outerDepth? depth lines = some later) (rest : List Text) :
    ownLines depth (lines ++ rest) = lines ++ ownLines later rest := by
  induction lines generalizing depth with
  | nil =>
    obtain rfl := Option.some.inj h
    rfl
  | cons line others ih =>
    rw [outerDepth?] at h
    split at h
    · cases h
    rename_i hnone
    obtain ⟨middle, hline, hothers⟩ := Option.bind_eq_some_iff.mp h
    rw [List.cons_append, ownLines_cons (fun hmarker => hnone (.inl hmarker)) hline, ih hothers]
    rfl

/-- Lines in which no type begins stay with what is read before them. -/
theorem typeChunks_append (h : outerDepth? depth lines = some later) (current rest : List Text) :
    typeChunks depth current (lines ++ rest) = typeChunks later (current ++ lines) rest := by
  induction lines generalizing depth current with
  | nil =>
    obtain rfl := Option.some.inj h
    rw [List.append_nil, List.nil_append]
  | cons line others ih =>
    rw [outerDepth?] at h
    split at h
    · cases h
    rename_i hnone
    obtain ⟨middle, hline, hothers⟩ := Option.bind_eq_some_iff.mp h
    rw [List.cons_append, typeChunks, if_neg fun hstarts => hnone (.inr ⟨hstarts.1, hstarts.2.1⟩),
      depthBehind_eq hline, ih hothers, List.append_assoc, List.singleton_append]

/-! ## One type -/

/-- Attributes and comments at the front go on with those behind them. -/
theorem leadingRun_append {front : List Text} (h : leadingRun false front = front.length)
    (rest : List Text) : leadingRun false (front ++ rest) = front.length + leadingRun false rest := by
  induction front with
  | nil => rw [List.nil_append, List.length_nil, Nat.zero_add]
  | cons line others ih =>
    rw [leadingRun, List.length_cons] at h
    rw [List.cons_append, leadingRun, List.length_cons]
    split at h
    · rename_i hline
      rw [if_pos hline, ih (by omega)]
      omega
    · rw [Bool.false_and, if_neg (by decide)] at h
      cases h

/-- A type with the attributes and comments above it, without white space around it.  Its
braces nest line by line, it holds no marker, no other type begins in it outside braces, and
no attribute or comment is left at its end. -/
structure IsOuterType (code : Text) : Prop extends IsFragment code where
  trim_eq : code.trim = code
  type : ∃ above header inside depth, code.lines = above ++ header :: inside ∧
    leadingRun false above.reverse = above.length ∧ outerDepth? 0 above = some 0 ∧
    typeHeader.accepts (codeOf header) ∧ header.trim ∉ generatedMarkers ∧
    nesting? 0 (lineChars .code header) = some depth ∧ outerDepth? depth inside = some 0
  noneBehind : leadingRun false code.lines.reverse = 0

namespace IsOuterType

variable (h : IsOuterType code)
include h

theorem ownLines_eq (rest : List Text) :
    ownLines 0 (code.lines ++ rest) = code.lines ++ ownLines 0 rest := by
  obtain ⟨above, header, inside, depth, hlines, -, habove, -, hmarker, hheader, hinside⟩ := h.type
  rw [hlines, List.append_assoc, ownLines_append habove, List.cons_append,
    ownLines_cons hmarker hheader, ownLines_append hinside, List.append_assoc, List.cons_append]

/-- In front of the attributes and comments of a type the code is cut. -/
theorem typeChunks_eq (hcurrent : current ≠ []) (hnone : leadingRun false current.reverse = 0)
    (rest : List Text) :
    typeChunks 0 current (code.lines ++ rest) = current :: typeChunks 0 code.lines rest := by
  obtain ⟨above, header, inside, depth, hlines, hleading, habove, htype, -, hheader, hinside⟩ := h.type
  have hkept : (current ++ above).length - leadingRun false (current ++ above).reverse =
      current.length := by
    rw [List.reverse_append, leadingRun_append (by rw [hleading, List.length_reverse]), hnone,
      List.length_append, List.length_reverse]
    omega
  have hstarts : (0 : Nat) = 0 ∧ typeHeader.accepts (codeOf header) ∧ current ++ above ≠ [] :=
    ⟨rfl, htype, by simp [hcurrent]⟩
  rw [hlines, List.append_assoc, typeChunks_append habove, List.cons_append, typeChunks,
    if_pos hstarts, hkept]
  dsimp only
  rw [List.take_left, List.drop_left, depthBehind_eq hheader, typeChunks_append hinside,
    List.append_assoc, List.singleton_append]

theorem ne_nil : code ≠ [] := by
  rintro rfl
  obtain ⟨above, header, inside, depth, hlines, -, -, htype, -⟩ := h.type
  have hempty : header = [] := by
    have hmem : header ∈ Text.lines [] := hlines ▸ List.mem_append_right _ List.mem_cons_self
    exact List.mem_singleton.mp hmem
  rw [hempty] at htype
  exact absurd htype (by decide)

end IsOuterType

/-! ## Types one below the other -/

/-- The fragment that some lines are kept as. -/
def fragmentOf (lines : List Text) : Text := Text.trim (Text.dedent (Text.unlines lines))

theorem splitOuterCode_eq (lines : List Text) :
    splitOuterCode lines =
      ((typeChunks 0 [] (ownLines 0 lines)).map fragmentOf).filter (!·.isEmpty) := rfl

/-- An empty line at the end is dropped with the margin. -/
theorem Text.dedent_append_newline {text : Text} (h : '\t' ∉ text) :
    dedent (text ++ ['\n']) = text.dedent := by
  have hlines : lines (text ++ ['\n']) = text.lines ++ [[]] := by
    rw [lines_append_newline, lines_nil]
  have htab : '\t' ∉ text ++ ['\n'] := List.not_mem_append h (by decide)
  have hmargin : commonMargin (text.lines ++ [[]]) = commonMargin text.lines := by
    rw [commonMargin, List.filter_append]
    exact congrArg (fun kept : List Text => ((kept.map margin).min?).getD 0) (List.append_nil _)
  have hends : ∀ pieces : List Text, trimEmpty (pieces ++ [[]]) = trimEmpty pieces := by
    intro pieces
    rw [trimEmpty, trimEmpty, List.dropWhile_append]
    split
    · rename_i hempty
      rw [List.isEmpty_iff.mp hempty]
      rfl
    · rw [List.reverse_append]
      rfl
  rw [← unlines_lines (dedent _), lines_dedent htab, hlines, hmargin, List.map_append,
    List.map_singleton]
  have hblank : removeMargin (commonMargin text.lines) [] = [] := rfl
  rw [hblank, hends, ← lines_dedent h, unlines_lines]

namespace IsOuterType

variable (h : IsOuterType code)
include h

theorem fragmentOf_eq : fragmentOf code.lines = code := by
  rw [fragmentOf, Text.unlines_lines, h.dedent_eq, h.trim_eq]

theorem fragmentOf_blank : fragmentOf (code.lines ++ [[]]) = code := by
  have hlines : Text.unlines (code.lines ++ [[]]) = code ++ ['\n'] := by
    rw [Text.unlines_append (Text.lines_ne_nil code) (List.cons_ne_nil _ _), Text.unlines_lines]
    rfl
  rw [fragmentOf, hlines, Text.dedent_append_newline h.plainBlanks.tab_notMem, h.dedent_eq,
    h.trim_eq]

end IsOuterType

/-- Behind what is read so far, the types below it are cut apart. -/
theorem fragments_typeChunks {codes : List Text} (h : ∀ code ∈ codes, IsOuterType code)
    (hcurrent : current ≠ []) (hnone : leadingRun false current.reverse = 0)
    (hblank : fragmentOf (current ++ [[]]) = fragmentOf current) :
    ((typeChunks 0 current (codes.flatMap Text.lines ++ [[]])).map fragmentOf).filter (!·.isEmpty) =
      [fragmentOf current].filter (!·.isEmpty) ++ codes := by
  induction codes generalizing current with
  | nil =>
    have hlast : typeChunks 0 current [[]] = [current ++ [[]]] := by
      have hheader : typeHeader.accepts (codeOf []) = false := by decide
      rw [typeChunks, hheader, if_neg (by simp), typeChunks]
    rw [List.flatMap_nil, List.nil_append, hlast, List.map_singleton, hblank, List.append_nil]
  | cons code rest ih =>
    rw [List.forall_mem_cons] at h
    have hcode : [code].filter (!·.isEmpty) = [code] := by
      rw [List.filter_cons_of_pos (by simp [h.1.ne_nil]), List.filter_nil]
    rw [List.flatMap_cons, List.append_assoc, h.1.typeChunks_eq hcurrent hnone, List.map_cons,
      ← List.singleton_append, List.filter_append,
      ih h.2 (Text.lines_ne_nil code) h.1.noneBehind
        (h.1.fragmentOf_blank.trans h.1.fragmentOf_eq.symm),
      h.1.fragmentOf_eq, hcode, List.singleton_append]

theorem ownLines_types {codes : List Text} (h : ∀ code ∈ codes, IsOuterType code)
    (rest : List Text) :
    ownLines 0 (codes.flatMap Text.lines ++ rest) =
      codes.flatMap Text.lines ++ ownLines 0 rest := by
  induction codes with
  | nil => rfl
  | cons code others ih =>
    rw [List.forall_mem_cons] at h
    rw [List.flatMap_cons, List.append_assoc, h.1.ownLines_eq, ih h.2, List.append_assoc]

/-- The types that a window carries along outside its class are the ones that are read below
its class. -/
theorem Project.splitOuterCode_linesBelow {project : Project}
    (h : ∀ code ∈ project.outerCode, IsOuterType code) :
    splitOuterCode project.linesBelow = project.outerCode := by
  have hnamespace : ∀ behind, ownLines 0
      ((if project.settings.namespaceName.isEmpty then [] else [['\x7d']]) ++ behind) =
        ownLines 0 behind := by
    intro behind
    split
    · rfl
    · have hcode : codeOf ['\x7d'] = ['\x7d'] := by decide +kernel
      rw [List.singleton_append, ownLines, if_neg (by decide), if_pos ⟨rfl, hcode⟩]
  have hbrace : (if project.settings.namespaceName.isEmpty then [] else [['\x7d']]).flatMap
      Text.lines = if project.settings.namespaceName.isEmpty then [] else [['\x7d']] := by
    split <;> rfl
  have hends : ownLines 0 [[]] = [[]] := by decide +kernel
  rw [linesBelow, belowClass, List.flatMap_append, hbrace, List.append_assoc, splitOuterCode_eq,
    hnamespace]
  by_cases hempty : project.outerCode = []
  · rw [outerText, hempty]
    decide +kernel
  · have hmarked : project.outerText.lines =
        outerCodeMarker :: project.outerCode.flatMap Text.lines := by
      have hmarker : outerCodeMarker.lines = [outerCodeMarker] := by decide
      rw [outerText, if_neg (by simpa using hempty), Text.lines_unlines (List.cons_ne_nil _ _),
        List.flatMap_cons, hmarker, List.singleton_append]
    have hne : project.outerText.isEmpty = false := by
      rw [List.isEmpty_eq_false_iff]
      intro hnil
      rw [hnil] at hmarked
      exact absurd (List.cons.inj hmarked).1 (by decide)
    have hskipped : ∀ behind, ownLines 0 ([] :: outerCodeMarker :: behind) =
        [] :: ownLines 0 behind := by
      intro behind
      rw [ownLines_cons (by decide) rfl, ownLines, if_pos (by decide)]
    have hread := fragments_typeChunks h (List.cons_ne_nil [] []) (by decide) (by decide)
    rw [hne, if_neg (by decide), List.flatMap_cons, List.flatMap_singleton, hmarked, Text.lines_nil,
      List.singleton_append, List.cons_append, List.cons_append, hskipped, ownLines_types h, hends,
      typeChunks, if_neg (by simp)]
    exact hread

end EditorScript
