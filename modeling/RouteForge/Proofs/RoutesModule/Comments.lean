import Mathlib.Data.List.Flatten
import RouteForge.Proofs.Configuration.Loading
import RouteForge.Proofs.Route.Grammar
import RouteForge.Proofs.RoutesModule.Registrations
import RouteForge.Proofs.Text.Quoted

/-! The comments of a routes module that copy texts of the configuration: the source in the head, the
package, and the chain of each route. A line comment ends at the first line feed. What is copied is not
escaped as the keys of the routes are, so each comment is one row of the module exactly if no text in it
has a line feed, and the rows behind a line feed are code unless they open a comment themselves. -/
namespace RouteForge

/-! ### Rows -/

namespace Text

variable {separator : Char}

theorem length_splitOn (separator : Char) (cs : List Char) :
    (splitOn separator cs).length = cs.count separator + 1 := by
  induction cs with
  | nil => rfl
  | cons c cs ih =>
    by_cases here : c = separator
    · simp [splitOn, here, ih]
    · cases parts : splitOn separator cs with
      | nil => exact absurd parts (splitOn_ne_nil separator cs)
      | cons part rest =>
        rw [parts] at ih
        simpa [splitOn, here, parts, List.count_cons_of_ne here] using ih

/-- Text in front of the first separator is text of the first part. -/
theorem splitOn_append_of_not_mem {front back first : List Char} {rest : List (List Char)}
    (free : separator ∉ front) (parts : splitOn separator back = first :: rest) :
    splitOn separator (front ++ back) = (front ++ first) :: rest := by
  induction front with
  | nil => exact parts
  | cons c front ih =>
    rw [List.mem_cons, not_or] at free
    simp [splitOn, Ne.symm free.1, ih free.2]

/-- What stands between the line feeds of a text. -/
def rows (text : String) : List (List Char) := splitOn '\n' text.toList

theorem length_rows_eq_one_iff {text : String} : (rows text).length = 1 ↔ '\n' ∉ text.toList := by
  rw [rows, length_splitOn, Nat.add_eq_right, List.count_eq_zero]

/-- The rows of a page are those of its lines, and an empty one behind the last line feed. -/
theorem rows_page (lines : List String) : rows (page lines) = lines.flatMap rows ++ [[]] := by
  induction lines with
  | nil => rfl
  | cons line rest ih =>
    have text : (page (line :: rest)).toList = line.toList ++ '\n' :: (page rest).toList := by
      simp [page, String.join_cons]
    rw [rows, text, splitOn_append_separator, List.flatMap_cons, List.append_assoc, ← ih]
    rfl

/-- A literal is one row, whatever its text is. -/
theorem length_rows_literal (s : String) : (rows (literal s)).length = 1 := by
  rw [length_rows_eq_one_iff]
  intro broken
  rw [literal, String.toList_ofList] at broken
  exact (mem_quote broken).1 rfl

/-- Behind its indentation the row opens a line comment. -/
def IsComment (row : List Char) : Prop := ['/', '/'] <+: row.dropWhile isBlank

instance : DecidablePred IsComment := fun row =>
  inferInstanceAs (Decidable (['/', '/'] <+: row.dropWhile isBlank))

theorem IsComment.append {row : List Char} (comment : IsComment row) (more : List Char) :
    IsComment (row ++ more) := by
  have solid : (row.dropWhile isBlank).isEmpty = false := by
    obtain ⟨rest, whole⟩ := comment
    rw [← whole]
    rfl
  unfold IsComment
  rw [List.dropWhile_append, solid]
  exact comment.trans (List.prefix_append _ _)

end Text

/-! ### Notes -/

/-- A comment with a text of the configuration behind its opening. -/
structure Note where
  opener : String
  text : String
  unbroken : '\n' ∉ opener.toList := by decide +kernel
  opens : Text.IsComment opener.toList := by decide +kernel

namespace Note

def line (n : Note) : String := n.opener ++ n.text

/-- The rows behind the line feeds of the text, where the comment has ended. -/
def spill (n : Note) : List (List Char) := (Text.rows n.text).tail

theorem rows_line (n : Note) : ∃ first, Text.rows n.line = (n.opener.toList ++ first) :: n.spill := by
  obtain ⟨first, rest, parts⟩ := List.exists_cons_of_ne_nil (Text.splitOn_ne_nil '\n' n.text.toList)
  refine ⟨first, ?_⟩
  unfold line spill Text.rows
  rw [String.toList_append, Text.splitOn_append_of_not_mem n.unbroken parts, parts]
  rfl

theorem length_rows_line_eq_one_iff (n : Note) :
    (Text.rows n.line).length = 1 ↔ '\n' ∉ n.text.toList := by
  rw [Text.length_rows_eq_one_iff, line, String.toList_append, List.mem_append, not_or]
  exact and_iff_right n.unbroken

/-- The first row is a comment, whatever the text is. -/
theorem rows_line_comments_iff (n : Note) :
    (∀ row ∈ Text.rows n.line, Text.IsComment row) ↔ ∀ row ∈ n.spill, Text.IsComment row := by
  obtain ⟨first, rows⟩ := n.rows_line
  rw [rows, List.forall_mem_cons]
  exact and_iff_right (n.opens.append first)

theorem spill_eq_nil {n : Note} (unbroken : '\n' ∉ n.text.toList) : n.spill = [] := by
  unfold spill Text.rows
  rw [Text.splitOn_of_not_mem unbroken]
  rfl

end Note

def Stamp.note (s : Stamp) : Note := { opener := "// source: ", text := s.source }

/-- The names of the chain in the order of the calls, the handler first. -/
def Registration.notes (r : Registration) : List Note :=
  if r.chain = [] then []
  else [{ opener := "    // ", text := " <- ".intercalate (r.handler :: r.chain) }]

namespace RoutesModule

def packageNotes (c : Configuration) : List Note :=
  if c.package = "" then []
  else [{ opener := "//! Route registrations for the `", text := c.package ++ "` package." }]

/-- The comments of a module in their order. -/
def notes (c : Configuration) (s : Stamp) : List Note :=
  s.note :: packageNotes c ++ (registrations c).flatMap Registration.notes

theorem comment_eq_notes (r : Registration) : r.comment = r.notes.map Note.line := by
  unfold Registration.comment Registration.notes
  by_cases bare : r.chain = []
  · simp [bare]
  · rw [if_neg bare, if_neg (by simpa using bare), String.intercalate_cons_of_ne_nil bare]
    simp [Note.line, String.append_assoc]

theorem packageNotes_sublist (c : Configuration) :
    ((packageNotes c).map Note.line).Sublist (packageLines c) := by
  unfold packageNotes packageLines
  by_cases bare : c.package = ""
  · simp [bare]
  · simp [bare, Note.line, String.append_assoc]

theorem registration_notes_sublist (rs : List Registration) :
    ((rs.flatMap Registration.notes).map Note.line).Sublist (rs.flatMap Registration.lines) := by
  rw [List.map_flatMap]
  refine List.Sublist.flatMap_right rs fun r _ => ?_
  rw [← comment_eq_notes]
  exact List.sublist_append_left _ _

/-- Each comment is a line of the module, and they stand in their order. -/
theorem notes_sublist (c : Configuration) (s : Stamp) :
    ((notes c s).map Note.line).Sublist (lines c s) := by
  have source : [s.note.line].Sublist (head s) := by simp [head, Note.line, Stamp.note]
  have registered := (registration_notes_sublist (registrations c)).trans
    (List.sublist_append_right (c.vars.flatMap (binding (used c))) _)
  have front := ((source.append (packageNotes_sublist c)).trans
    (List.sublist_append_left _ (importLines c))).trans (List.sublist_append_left _
      ["", "/// Registers every configured route on `mux`.", signature c])
  have whole := (front.append registered).trans (List.sublist_append_left _ ["\x7d"])
  simpa [notes, lines, body] using whole

theorem rows_render (c : Configuration) (s : Stamp) :
    Text.rows (render c s) = (lines c s).flatMap Text.rows ++ [[]] := by
  rw [render, Text.ofList_unlines, Text.rows_page]

/-! ### Texts without line feeds -/

/-- No text that a comment copies has a line feed. A route without a chain has no comment. -/
structure Unbroken (c : Configuration) (s : Stamp) : Prop where
  source : '\n' ∉ s.source.toList
  package : '\n' ∉ c.package.toList
  chains : ∀ r ∈ registrations c, r.chain ≠ [] → ∀ name ∈ r.handler :: r.chain, '\n' ∉ name.toList

theorem packageNotes_unbroken_iff (c : Configuration) :
    (∀ n ∈ packageNotes c, '\n' ∉ n.text.toList) ↔ '\n' ∉ c.package.toList := by
  unfold packageNotes
  by_cases bare : c.package = ""
  · simp [bare]
  · simp [bare]

theorem registration_notes_unbroken_iff (r : Registration) :
    (∀ n ∈ r.notes, '\n' ∉ n.text.toList) ↔
      (r.chain ≠ [] → ∀ name ∈ r.handler :: r.chain, '\n' ∉ name.toList) := by
  unfold Registration.notes
  by_cases bare : r.chain = []
  · simp [bare]
  · have arrow : '\n' ∉ " <- ".toList := by decide +kernel
    simp only [bare, if_false, List.forall_mem_singleton, String.toList_intercalate,
      Route.not_mem_intercalate_iff arrow, List.forall_mem_map, ne_eq, not_false_iff, true_imp_iff]

theorem unbroken_iff (c : Configuration) (s : Stamp) :
    Unbroken c s ↔ ∀ n ∈ notes c s, '\n' ∉ n.text.toList := by
  unfold notes
  rw [List.cons_append, List.forall_mem_cons, List.forall_mem_append, packageNotes_unbroken_iff,
    List.forall_mem_flatMap]
  simp only [registration_notes_unbroken_iff]
  exact ⟨fun ⟨source, package, chains⟩ => ⟨source, package, chains⟩,
    fun ⟨source, package, chains⟩ => ⟨source, package, chains⟩⟩

/-! ### Configurations with line feeds -/

section Sole

variable (package : String) (uses : List String) (r : Route)

def textItems (texts : List String) : Document := .sequence (texts.map fun s => .scalar (.text s))

theorem textItems_isTexts (texts : List String) : (textItems texts).IsTexts := by
  refine .sequence fun d member => ?_
  obtain ⟨s, -, rfl⟩ := List.mem_map.mp member
  exact ⟨.text s, rfl, nofun⟩

theorem textItems_ordered (texts : List String) : (textItems texts).Ordered := by
  refine Document.itemsOrdered_iff.mpr fun d member => ?_
  obtain ⟨s, -, rfl⟩ := List.mem_map.mp member
  trivial

theorem wordings_textItems (texts : List String) : (textItems texts).wordings = texts := by
  simp [textItems, Document.wordings, Document.wording, Scalar.text?, Function.comp_def]

/-- The fields of a group with one route. -/
def soleGroup : Fields Document := [("paths", textItems [r.render]), ("use", textItems uses)]

/-- The fields of a package with one route. -/
def soleFields : Fields Document :=
  [("package", .scalar (.text package)), ("routes", .sequence [.mapping (soleGroup uses r)])]

theorem soleGroup_ascending : (soleGroup uses r).Ascending :=
  List.pairwise_pair.mpr (show "paths" < "use" by decide)

theorem soleFields_ascending : (soleFields package uses r).Ascending :=
  List.pairwise_pair.mpr (show "package" < "routes" by decide)

theorem soleFields_ordered : Document.Ordered (.mapping (soleFields package uses r)) :=
  have group : Document.Ordered (.mapping (soleGroup uses r)) :=
    ⟨soleGroup_ascending uses r, textItems_ordered _, textItems_ordered _, trivial⟩
  ⟨soleFields_ascending package uses r, trivial, ⟨group, trivial⟩, trivial⟩

theorem soleFields_shaped : Configuration.Shaped (soleFields package uses r) := by
  have group : RouteGroup.Shaped (soleGroup uses r) := by
    refine (RouteGroup.shaped_iff (soleGroup_ascending uses r)).mp ?_
    simp [soleGroup, RouteGroup.Fits, textItems_isTexts]
  refine (Configuration.shaped_iff (soleFields_ascending package uses r)).mp ?_
  simp only [soleFields, List.forall_mem_cons, Configuration.Fits]
  exact ⟨⟨.text package, rfl, by simp⟩, .sequence (by simpa using .mapping group), by simp⟩

theorem ofFields_soleFields : Configuration.ofFields (soleFields package uses r) =
    { package := package, groups := [{ uses := uses, lines := [r.render] }] } := by
  simp [Configuration.ofFields, soleFields, soleGroup, Fields.get?, Document.wording,
    Document.groups, Document.group, RouteGroup.ofFields, wordings_textItems, Scalar.text?]

/-- Every package, every list of middlewares and every well-formed route can be configured. -/
theorem ofDocument_soleFields {r : Route} (valid : r.WellFormed) :
    Configuration.ofDocument (.mapping (soleFields package uses r)) =
      .ok { package := package, groups := [{ uses := uses, lines := [r.render], routes := [r] }] } := by
  have group : ([{ uses := uses, lines := [r.render] }] : List RouteGroup).mapM
      RouteGroup.withRoutes = .ok [{ uses := uses, lines := [r.render], routes := [r] }] := by
    refine mapM_eq_ok_iff.mpr (.cons (RouteGroup.withRoutes_eq_ok_iff.mpr ⟨[r], ?_, rfl⟩) .nil)
    exact .cons valid.parse_render .nil
  rw [Configuration.ofDocument_of_shaped (soleFields_ordered package uses r)
    (soleFields_shaped package uses r), ofFields_soleFields, group]
  rfl

/-- The comments of a configuration with one route, by the texts that they copy. -/
theorem unbroken_sole_iff (s : Stamp) :
    Unbroken { package := package, groups := [{ uses := uses, lines := [r.render], routes := [r] }] }
        s ↔
      '\n' ∉ s.source.toList ∧ '\n' ∉ package.toList ∧ (r.middlewares ++ uses ≠ [] →
        ∀ name ∈ r.handler :: (r.middlewares ++ uses), '\n' ∉ name.toList) := by
  have chains := List.forall_mem_singleton (p := fun x : Registration => x.chain ≠ [] →
    ∀ name ∈ x.handler :: x.chain, '\n' ∉ name.toList)
    (a := Registration.ofRoute { uses := uses, lines := [r.render], routes := [r] } r)
  exact ⟨fun whole => ⟨whole.source, whole.package, chains.mp whole.chains⟩,
    fun ⟨source, named, chain⟩ => ⟨source, named, chains.mpr chain⟩⟩

end Sole

/-- The comments for the source, the package and the chains are lines of the module, in their order.
Each of them is one row of the text exactly if no text that it copies has a line feed, and then every
row of it is a comment. Otherwise what stands behind the line feeds is a comment only where it opens
one itself. Keys, which are escaped, are one row whatever they are. No document is refused for a line
feed: whatever the package, the middlewares and the well-formed route are, some document configures
them, and its comments hang on those texts alone. -/
theorem comments_one_row_iff (c : Configuration) (s : Stamp) :
    Text.rows (render c s) = (lines c s).flatMap Text.rows ++ [[]] ∧
    ((notes c s).map Note.line).Sublist (lines c s) ∧
    ((∀ n ∈ notes c s, (Text.rows n.line).length = 1) ↔ Unbroken c s) ∧
    (Unbroken c s → ∀ n ∈ notes c s, ∀ row ∈ Text.rows n.line, Text.IsComment row) ∧
    ((∀ n ∈ notes c s, ∀ row ∈ Text.rows n.line, Text.IsComment row) ↔
      ∀ n ∈ notes c s, ∀ row ∈ n.spill, Text.IsComment row) ∧
    (∀ r ∈ registrations c, (Text.rows (Text.literal r.key)).length = 1) ∧
    ∀ (package : String) (uses : List String) (r : Route), r.WellFormed → ∃ d read, d.Ordered ∧
      Configuration.ofDocument d = .ok read ∧ (Unbroken read s ↔
        '\n' ∉ s.source.toList ∧ '\n' ∉ package.toList ∧ (r.middlewares ++ uses ≠ [] →
          ∀ name ∈ r.handler :: (r.middlewares ++ uses), '\n' ∉ name.toList)) := by
  have comments : (∀ n ∈ notes c s, ∀ row ∈ Text.rows n.line, Text.IsComment row) ↔
      ∀ n ∈ notes c s, ∀ row ∈ n.spill, Text.IsComment row :=
    forall₂_congr fun n _ => n.rows_line_comments_iff
  refine ⟨rows_render c s, notes_sublist c s, ?_, fun unbroken => ?_, comments,
    fun r _ => Text.length_rows_literal r.key, fun package uses r valid => ?_⟩
  · rw [unbroken_iff]
    exact forall₂_congr fun n _ => n.length_rows_line_eq_one_iff
  · refine comments.mpr fun n member => ?_
    rw [Note.spill_eq_nil ((unbroken_iff c s).mp unbroken n member)]
    exact nofun
  · exact ⟨_, _, soleFields_ordered package uses r, ofDocument_soleFields package uses valid,
      unbroken_sole_iff package uses r s⟩

/-- A handler over two rows, in a middleware. -/
def spilledRoute : Route :=
  { method := "", pattern := "/x", handler := "a(\n b)", middlewares := ["m"] }

def spilledDocument : Document :=
  .mapping [("routes", .sequence [.mapping [("paths", textItems ["/x ; a(\n b) ; m"])]])]

def spilled : Configuration where
  groups := [{ lines := ["/x ; a(\n b) ; m"], routes := [spilledRoute] }]

theorem comments_one_row_iff_spilled :
    let s := Stamp.ofPath (Path.ofText "muxc.yaml")
    Document.ofText "routes:\n  - paths: [\"/x ; a(\\n b) ; m\"]\n" = .ok spilledDocument ∧
      Configuration.ofDocument spilledDocument = .ok spilled ∧ ¬ Unbroken spilled s ∧
      " b) <- m".toList ∈ Text.rows (render spilled s) ∧ ¬ Text.IsComment " b) <- m".toList ∧
      spilledRoute.WellFormed ∧
      ∃ d c, d.Ordered ∧ Configuration.ofDocument d = .ok c ∧ ¬ Unbroken c s := by
  intro s
  obtain ⟨rows, lined, one_row, -, -, -, reached⟩ := comments_one_row_iff spilled s
  have parsed : Route.parse "/x ; a(\n b) ; m" = .ok spilledRoute := by decide +kernel
  have valid : spilledRoute.WellFormed := Route.wellFormed_of_parse parsed
  have two : ∃ n ∈ notes spilled s, Text.rows n.line = ["    // a(".toList, " b) <- m".toList] :=
    ⟨_, .tail _ (.head _), by decide +kernel⟩
  obtain ⟨n, member, split⟩ := two
  refine ⟨by decide +kernel, by decide +kernel, fun unbroken => ?_, ?_, by decide +kernel, valid, ?_⟩
  · have count := one_row.mpr unbroken n member
    rw [split] at count
    cases count
  · have inside := lined.subset (List.mem_map_of_mem member)
    rw [rows]
    exact List.mem_append_left _ (List.mem_flatMap.mpr ⟨n.line, inside, by simp [split]⟩)
  · obtain ⟨d, c, ordered, given, broken⟩ := reached "" [] spilledRoute valid
    refine ⟨d, c, ordered, given, fun unbroken => ?_⟩
    have free := (broken.mp unbroken).2.2 (by simp [spilledRoute]) "a(\n b)" (.head _)
    exact free (by decide +kernel)

end RoutesModule
end RouteForge
