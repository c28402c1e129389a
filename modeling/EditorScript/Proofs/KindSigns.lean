import EditorScript.Proofs.KeptMembers
import EditorScript.Proofs.StyleReading
import EditorScript.Proofs.Trimming
import EditorScript.Proofs.Writable

/-!
# The kind of a written script

The kind of a script is told from signs that may stand anywhere in its text.
Every source names the base of its class behind a colon, so the sign of its own
kind is always there; it decides unless a kind that counts earlier has a sign in
the text, too.
-/

namespace EditorScript

open Pattern

/-! ## Signs in a longer text -/

namespace Pattern

/-- What matches at one place of a text, occurs in it. -/
theorem occurs_append {pattern : Pattern} {rest : Text}
    (h : ∀ before, (pattern.matchAt before rest).isSome) (front : Text) :
    pattern.occurs (front ++ rest) := by
  have hfrom : ∀ before, (pattern.searchFrom before (front ++ rest)).isSome := by
    induction front with
    | nil =>
      intro before
      obtain ⟨found, hfound⟩ := Option.isSome_iff_exists.mp (h before)
      cases rest <;> simp [searchFrom, hfound]
    | cons c others ih =>
      intro before
      rw [List.cons_append, searchFrom]
      split
      · rfl
      · simpa using ih (some c)
  simpa [occurs, search?] using hfrom none

variable {β : Type} {next : Position → Option β}

/-- Behind a text stands its last character. -/
theorem run_text_eq (content rest : Text) (before : Option Char)
    (captures : List (String × Text)) :
    (text content).run next ⟨before, content ++ rest, captures⟩ =
      next ⟨content.getLast?.or before, rest, captures⟩ := by
  induction content generalizing before with
  | nil => rfl
  | cons c others ih =>
    rw [text, run, List.cons_append, run_one (by simp), ih]
    cases others <;> simp [List.getLast?_cons]

/-- What does not start like the namespace of the engine has none. -/
theorem run_engineNamespace_none {rest : Text} (h : ∀ c ∈ rest.head?, c ≠ 'U')
    (before : Option Char) (captures : List (String × Text)) :
    engineNamespace.run next ⟨before, rest, captures⟩ = next ⟨before, rest, captures⟩ :=
  run_opt_none (@run_text_ne _ _ "nity".toList _ h _ before captures)

end Pattern

/-- Behind a colon the name of a base is a sign of its kind. -/
theorem matchAt_derivesFrom {base : String} {next : Char} (hne : base.toList ≠ [])
    (hfirst : ∀ c ∈ base.toList.head?, c ≠ 'U') (hword : ∀ c ∈ base.toList, isWord c)
    (hnext : isWord next = false) (before : Option Char) (rest : Text) :
    ((derivesFrom engineNamespace base).matchAt before
      (": " ++ (base.toList ++ next :: rest))).isSome := by
  obtain ⟨first, others, hbase⟩ := List.exists_cons_of_ne_nil hne
  have hhead : (base.toList ++ next :: rest).head? = base.toList.head? := by simp [hbase]
  have hblank : ∀ c ∈ (base.toList ++ next :: rest).head?, isBlank c = false := by
    rw [hhead]
    exact fun c hc => isBlank_of_isWord (hword c (List.mem_of_head? hc))
  obtain ⟨last, hlast⟩ := Option.isSome_iff_exists.mp (List.getLast?_isSome.mpr hne)
  have hlastWord := hword last (List.mem_of_getLast? hlast)
  have hfound : Gives ((derivesFrom engineNamespace base).matchAt before
      (":".toList ++ ' ' :: (base.toList ++ next :: rest))) fun _ => True := by
    simp only [matchAt, derivesFrom, run_append]
    refine run_text (fun before => run_blanks_space hblank (fun before => ?_) before) before
    rw [run_engineNamespace_none (hhead ▸ hfirst), run_text_eq]
    refine ⟨_, if_pos ?_, trivial⟩
    simp [hlast, hlastWord, hnext]
  obtain ⟨found, hfound, -⟩ := hfound
  exact Option.isSome_iff_exists.mpr ⟨found, hfound⟩

/-! ## The sign of the own kind -/

theorem kind_ofSource (content : Text) :
    (Outline.ofSource content).1.kind = detectKind content := by
  unfold Outline.ofSource
  dsimp only
  split
  · rfl
  · split <;> rfl

/-- The kind of a script is told before its body is read. -/
theorem Imported.kind_importFile {stamp : Stamp} {gate : Gate} {file : SourceFile} :
    (importFile stamp gate file).project.kind = (Outline.ofSource file.content).1.kind := by
  unfold importFile
  dsimp only
  split
  · exact withBody_methods.2.2.1.trans kind_ofOutline
  · exact kind_ofOutline

namespace Project

variable {project : Project} {width : Nat} {content : Text}

/-- The header of the class stands on a line of its source. -/
theorem exists_header_of_source (h : project.source width = .ok content) :
    ∃ front behind,
      content = front ++ (project.settings.classHeader project.kind ++ '\n' :: behind) := by
  unfold source at h
  cases hgui : project.guiMethod width (project.level + 1) with
  | error reason => simp [hgui, bind, Except.bind] at h
  | ok gui =>
    simp only [hgui, bind, Except.bind, pure, Except.pure] at h
    obtain rfl := Except.ok.inj h
    refine ⟨(project.aboveClass width).flatMap (· ++ ['\n']) ++ indentation width project.level,
      indentation width project.level ++ ("\x7b" ++ ((project.insideClass width gui ++
        (indentation width project.level ++ ['\x7d']) :: project.belowClass).flatMap
          ('\n' :: ·) ++ "\n")), ?_⟩
    simp only [List.append_assoc, List.cons_append, List.nil_append, Text.unlines,
      Text.join_append_cons, List.flatMap_cons]

/-- A source names the base of its class behind a colon. -/
theorem exists_base_of_source (h : project.source width = .ok content) :
    ∃ front next rest, isWord next = false ∧
      content = front ++ (": " ++ (project.kind.baseClass ++ next :: rest)) := by
  obtain ⟨front, behind, rfl⟩ := exists_header_of_source h
  have hcolon : (" : " : Text) = " " ++ ": " := by decide
  unfold Settings.classHeader
  cases project.settings.interfaces with
  | nil =>
    refine ⟨front ++ ("public class " ++ project.settings.className ++ " "), '\n', behind,
      by decide, ?_⟩
    rw [Text.join_singleton, hcolon]
    simp only [List.append_assoc]
  | cons first others =>
    refine ⟨front ++ ("public class " ++ project.settings.className ++ " "), ',',
      " " ++ (Text.join ", " (first :: others) ++ '\n' :: behind), by decide, ?_⟩
    have hcomma : (", " : Text) = ',' :: " " := by decide
    rw [Text.join_cons_cons, hcolon, hcomma]
    simp only [List.append_assoc, List.cons_append]

/-- One of the signs of its kind occurs in a source. -/
theorem exists_sign_of_source (h : project.source width = .ok content) :
    ∃ signs, (project.kind, signs) ∈ kindSigns ∧ signs.any (·.occurs content) := by
  obtain ⟨front, next, rest, hnext, rfl⟩ := exists_base_of_source h
  have hsign : ∀ base : String, base.toList ≠ [] → (∀ c ∈ base.toList.head?, c ≠ 'U') →
      (∀ c ∈ base.toList, isWord c) → (derivesFrom engineNamespace base).occurs
        (front ++ (": " ++ (base.toList ++ next :: rest))) := fun base hne hfirst hword =>
    occurs_append (fun before => matchAt_derivesFrom hne hfirst hword hnext before rest) front
  cases project.kind
  case editorWindow =>
    exact ⟨_, .head _, List.any_eq_true.mpr ⟨_, .head _,
      hsign "EditorWindow" (by decide) (by decide) (by decide)⟩⟩
  case customEditor =>
    exact ⟨_, .tail _ (.head _), List.any_eq_true.mpr ⟨_, .tail _ (.head _),
      hsign "Editor" (by decide) (by decide) (by decide)⟩⟩
  case monoBehaviour =>
    exact ⟨_, .tail _ (.tail _ (.head _)), List.any_eq_true.mpr ⟨_, .head _,
      hsign "MonoBehaviour" (by decide) (by decide) (by decide)⟩⟩
  case scriptableObject =>
    exact ⟨_, .tail _ (.tail _ (.tail _ (.head _))), List.any_eq_true.mpr ⟨_, .head _,
      hsign "ScriptableObject" (by decide) (by decide) (by decide)⟩⟩
  case settingsProvider =>
    exact ⟨_, .tail _ (.tail _ (.tail _ (.tail _ (.head _)))), List.any_eq_true.mpr ⟨_, .tail _ (.head _),
      hsign "SettingsProvider" (by decide) (by decide) (by decide)⟩⟩
  case propertyDrawer =>
    exact ⟨_, .tail _ (.tail _ (.tail _ (.tail _ (.tail _ (.head _))))), List.any_eq_true.mpr ⟨_, .head _,
      hsign "PropertyDrawer" (by decide) (by decide) (by decide)⟩⟩

/-! ## The kind that decides -/

/-- The first item that passes has the key `key`, when the item of that key
passes, exactly if no item in front of that one does. -/
theorem elim_find?_eq_iff {α β : Type} [DecidableEq α] {items : List (α × β)}
    {passes : α × β → Bool} {key : α} (hnodup : (items.map Prod.fst).Nodup)
    (hkey : ∃ value, (key, value) ∈ items ∧ passes (key, value)) (none : α) :
    (items.find? passes).elim none Prod.fst = key ↔
      ∀ item ∈ items.takeWhile (·.1 ≠ key), passes item = false := by
  induction items with
  | nil => simp at hkey
  | cons item rest ih =>
    obtain ⟨value, hmem, hpasses⟩ := hkey
    rw [List.map_cons, List.nodup_cons] at hnodup
    by_cases hitem : item.1 = key
    · have hown : (key, value) = item := by
        rcases List.mem_cons.mp hmem with hown | hrest
        · exact hown
        · exact absurd (hitem ▸ List.mem_map_of_mem hrest) hnodup.1
      subst hown
      simp [hpasses]
    · have hrest : (key, value) ∈ rest := by
        rcases List.mem_cons.mp hmem with rfl | hrest
        · exact absurd rfl hitem
        · exact hrest
      rw [List.takeWhile_cons_of_pos (by simpa using hitem), List.forall_mem_cons]
      cases hpass : passes item with
      | true => simp [hpass, hitem]
      | false =>
        rw [List.find?_cons_of_neg (by simp [hpass]), ih hnodup.2 ⟨value, hrest, hpasses⟩]
        simp

/-- A source is told to be of its own kind unless it holds a sign of a kind that
counts earlier. -/
theorem detectKind_eq_iff (h : project.source width = .ok content) :
    detectKind content = project.kind ↔
      ∀ entry ∈ kindSigns.takeWhile (·.1 ≠ project.kind), ∀ sign ∈ entry.2,
        sign.occurs content = false := by
  have hdetect : detectKind content =
      (kindSigns.find? fun entry => entry.2.any (·.occurs content)).elim .editorWindow
        Prod.fst := by
    rw [detectKind]
    cases kindSigns.find? fun entry => entry.2.any (·.occurs content) <;> rfl
  rw [hdetect, elim_find?_eq_iff (by decide) (exists_sign_of_source h)]
  simp

/-- The source of a window is told to be one. -/
theorem detectKind_window (hkind : project.kind = .editorWindow)
    (h : project.source width = .ok content) : detectKind content = .editorWindow := by
  rw [← hkind]
  refine (detectKind_eq_iff h).mpr fun entry hentry => ?_
  rw [hkind] at hentry
  exact absurd hentry (List.not_mem_nil (a := entry))

/-- The project that is read from a source has the kind of the project it was written
from exactly if no sign of a kind that counts earlier occurs in it. -/
theorem importFile_source_kind (h : project.source width = .ok content) (stamp : Stamp)
    (gate : Gate) (name : Text) :
    (importFile stamp gate ⟨name, content⟩).project.kind = detectKind content ∧
      (detectKind content = project.kind ↔
        ∀ entry ∈ kindSigns.takeWhile (·.1 ≠ project.kind), ∀ sign ∈ entry.2,
          sign.occurs content = false) :=
  ⟨Imported.kind_importFile.trans (kind_ofSource content), detectKind_eq_iff h⟩

/-- An editor whose label looks like the header of a window. -/
def colonEditor : Project where
  name := "Foo"
  kind := .customEditor
  settings := { className := "Foo", targetType := "Bar" }
  elements := [.leaf { widget := .label, label := "Title: EditorWindow" }]

theorem fieldMembers_colonEditor (width level : Nat) :
    colonEditor.fieldMembers width level = [] := by
  have hbound : Forest.bound colonEditor.elements = [] := by
    simp [colonEditor, Forest.bound, Forest.flatten, Element.fields, ElementFields.needsVariable,
      Widget.hasNoVariable]
  have hscroll : Forest.hasScrollView colonEditor.elements = false := by
    simp [colonEditor, Forest.hasScrollView, Forest.flatten, Element.widget, Element.fields]
  simp only [Project.fieldMembers, variableDeclarations, hbound, hscroll]
  rfl

theorem importFile_source_kind_colonEditor : ∃ content, colonEditor.source 4 = .ok content ∧
    (importFile ⟨[], []⟩ {} ⟨"Foo.cs", content⟩).project.kind = detectKind content ∧
      (detectKind content = .customEditor ↔
        (derivesFrom engineNamespace "EditorWindow").occurs content = false) := by
  have hwritable : Forest.Writable colonEditor.elements :=
    Forest.everywhere_leaf_cons.mpr ⟨by decide, Forest.everywhere_nil⟩
  obtain ⟨content, hcontent⟩ := source_ok hwritable 4
  obtain ⟨hkind, hiff⟩ := importFile_source_kind hcontent ⟨[], []⟩ {} "Foo.cs"
  refine ⟨content, hcontent, hkind, hiff.trans ?_⟩
  have hearlier : kindSigns.takeWhile (·.1 ≠ colonEditor.kind) =
      [(.editorWindow, [derivesFrom engineNamespace "EditorWindow"])] := rfl
  rw [hearlier]
  simp

/-- The source of that editor is told to be a window. -/
theorem detectKind_colonEditor : colonEditor.kind = .customEditor ∧
    (colonEditor.source 4).toOption.map detectKind = some .editorWindow := by
  refine ⟨rfl, ?_⟩
  simp only [source, insideClass, members, fieldMembers_colonEditor]
  decide +kernel

end Project

end EditorScript
