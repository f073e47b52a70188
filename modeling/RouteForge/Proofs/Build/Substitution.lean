import RouteForge.Proofs.Build.Stages
import RouteForge.Proofs.Document.RoundTrip
import RouteForge.Proofs.FileTree.Lookup
import RouteForge.Proofs.Include.Folding
import RouteForge.Proofs.Include.Graph
import RouteForge.Proofs.Yaml.Rows

/-! The merged document in place of the files. What is printed for it can be a configuration of one
file, unless a line of it reads as a directive: the lines are looked at before the YAML is, so a line
inside a literal block counts too. -/
namespace RouteForge

open RouteForge.Yaml (Value)
open RouteForge.Yaml.Writer (Calm Hushed Rows Texts ItemTexts EntriesTexts)

namespace Document

mutual

/-- The names of all fields in a document. -/
def names : Document → List String
  | .scalar _ => []
  | .sequence items => itemNames items
  | .mapping fields => fieldNames fields

def itemNames : List Document → List String
  | [] => []
  | d :: rest => d.names ++ itemNames rest

def fieldNames : List (String × Document) → List String
  | [] => []
  | (name, d) :: rest => name :: d.names ++ fieldNames rest

end

mutual

/-- All texts of a document but the names of its fields. -/
def texts : Document → List String
  | .scalar (.text s) => [s]
  | .scalar _ => []
  | .sequence items => itemTexts items
  | .mapping fields => fieldTexts fields

def itemTexts : List Document → List String
  | [] => []
  | d :: rest => d.texts ++ itemTexts rest

def fieldTexts : List (String × Document) → List String
  | [] => []
  | (_, d) :: rest => d.texts ++ fieldTexts rest

end

section Texts

variable {K P : String → Prop}

mutual

theorem texts_toValue : ∀ {d : Document}, (∀ s ∈ d.names, K s) → (∀ s ∈ d.texts, P s) →
    Texts K P d.toValue
  | .scalar s, _, held => by
    cases s with
    | text s => exact held s List.mem_cons_self
    | null | bool | number => trivial
  | .sequence _, named, held => texts_itemValues named held
  | .mapping _, named, held => texts_fieldValues named held

theorem texts_itemValues : ∀ {items : List Document}, (∀ s ∈ itemNames items, K s) →
    (∀ s ∈ itemTexts items, P s) → ItemTexts K P (itemValues items)
  | [], _, _ => trivial
  | _ :: _, named, held =>
    have ⟨named, otherNames⟩ := List.forall_mem_append.mp named
    have ⟨held, others⟩ := List.forall_mem_append.mp held
    ⟨texts_toValue named held, texts_itemValues otherNames others⟩

theorem texts_fieldValues : ∀ {fields : List (String × Document)},
    (∀ s ∈ fieldNames fields, K s) → (∀ s ∈ fieldTexts fields, P s) →
    EntriesTexts K P (fieldValues fields)
  | [], _, _ => trivial
  | (name, _) :: _, named, held =>
    have ⟨own, named⟩ := List.forall_mem_cons.mp named
    have ⟨named, otherNames⟩ := List.forall_mem_append.mp named
    have ⟨held, others⟩ := List.forall_mem_append.mp held
    ⟨⟨⟨name, rfl, own⟩, texts_toValue named held⟩, texts_fieldValues otherNames others⟩

end

end Texts

/-- A printed document has no carriage return. -/
theorem not_mem_toYaml (d : Document) : '\r' ∉ d.toYaml.toList := by
  intro member
  have held : Texts (fun _ => True) (fun _ => True) d.toValue :=
    texts_toValue (fun _ _ => trivial) fun _ _ => trivial
  exact absurd (Yaml.printable_write held _ member) (by decide)

/-- Hushed names and calm texts are printed in quiet lines. -/
theorem rows_toYaml {d : Document} (top : d.shape = .mapping) (hushed : ∀ s ∈ d.names, Hushed s)
    (calm : ∀ s ∈ d.texts, Calm s) : Rows d.toYaml.toList := by
  cases d with
  | scalar | sequence => cases top
  | mapping fields => exact Yaml.Writer.rows_write (texts_fieldValues hushed calm)

end Document

namespace Include

variable {t : FileTree} {config : Path} {text : String}

/-- No line of the text is a directive. -/
def DirectiveFree (text : String) : Prop := ∀ line ∈ Text.lines text.toList, target? line = none

instance (text : String) : Decidable (DirectiveFree text) :=
  inferInstanceAs (Decidable (∀ line ∈ _, _))

theorem targets_eq_nil_iff : (Source.ofText text.toList).targets = [] ↔ DirectiveFree text := by
  simp [Source.ofText, List.filterMap_eq_nil_iff, DirectiveFree]

theorem content_of_directiveFree (directiveFree : DirectiveFree text) (bare : '\r' ∉ text.toList) :
    (Source.ofText text.toList).content = Text.ended text.toList := by
  have kept : (Text.lines text.toList).filter (fun line => (target? line).isNone) =
      Text.lines text.toList := by
    refine List.filter_eq_self.mpr fun line member => ?_
    rw [directiveFree line member]
    rfl
  unfold Source.ofText
  dsimp only
  rw [kept, Text.unlines_lines _ bare]

/-- A file without directives is a tree by itself. -/
theorem resolveRoot_of_directiveFree (opened : t.read (rootOf config) = .ok text.toUTF8)
    (directiveFree : DirectiveFree text) : resolveRoot t config =
      .ok (.node (rootOf config) (String.ofList (Source.ofText text.toList).content) []) := by
  refine resolveRoot_eq_ok_iff.mpr ⟨_, opened, rfl, rfl, _, sourceOf_toUTF8 _ text, rfl, ?_⟩
  exact targets_eq_nil_iff.mpr directiveFree

theorem directiveFree_of_resolveRoot {tree : IncludeTree}
    (opened : t.read (rootOf config) = .ok text.toUTF8) (resolved : resolveRoot t config = .ok tree)
    (single : tree.includes = []) : DirectiveFree text := by
  obtain ⟨bytes, fetched, resolves⟩ := resolveRoot_eq_ok_iff.mp resolved
  rw [opened, Except.ok.injEq] at fetched
  subst fetched
  cases tree with
  | node path content includes =>
    obtain rfl : includes = [] := single
    obtain ⟨-, -, source, said, -, below⟩ := resolves
    rw [sourceOf_toUTF8, Except.ok.injEq] at said
    subst said
    exact targets_eq_nil_iff.mp below

end Include

theorem Yaml.Writer.Rows.directiveFree {text : String} (rows : Rows text.toList)
    (bare : '\r' ∉ text.toList) : Include.DirectiveFree text ∧ Text.ended text.toList = text.toList := by
  obtain ⟨ls, whole, quiet⟩ := rows
  have unbroken : ∀ line ∈ ls, '\n' ∉ line ∧ line.getLast? ≠ some '\r' := by
    intro line member
    refine ⟨(quiet line member).1, fun last => bare ?_⟩
    rw [whole]
    exact List.mem_flatMap.mpr
      ⟨line, member, List.mem_append_left _ (List.mem_of_getLast? last)⟩
  have lines : Text.lines text.toList = ls := by
    have split := Text.lines_unlines_append unbroken []
    rw [List.append_nil, ← whole] at split
    simpa [Text.lines, Text.splitOn, Text.chompAll] using split
  constructor
  · intro line member
    rw [lines] at member
    exact Yaml.Writer.target?_of_quiet (quiet line member).2
  · rw [whole, Text.ended_unlines]

namespace Build

variable {b : Build} {files : FileTree} {y : String}

theorem mergedYaml_eq_ok (written : b.mergedYaml files = .ok y) :
    ∃ tree d, b.resolve files = .ok tree ∧ tree.merged = .ok d ∧ y = d.toYaml := by
  unfold mergedYaml at written
  cases resolved : b.resolve files with
  | error e => rw [resolved] at written; cases written
  | ok tree =>
    cases merged : tree.merged with
    | error e => simp only [resolved, bind, Except.bind, merged] at written; cases written
    | ok d =>
      simp only [resolved, bind, Except.bind, merged, pure, Except.pure, Except.ok.injEq] at written
      exact ⟨tree, d, rfl, merged, written.symm⟩

/-- A file that holds the printed document alone is read as the document, where its text reads as
the value that was printed. -/
theorem merged_of_printed {d : Document} {p : Path} (ordered : d.Ordered) (top : d.shape = .mapping)
    {content : String} (read : Yaml.read content = .ok d.toValue) :
    (IncludeTree.node p content []).merged = .ok d := by
  have own : IncludeTree.decode p content = .ok d := by
    unfold IncludeTree.decode
    rw [Document.ofText_of_read ordered top read]
    rfl
  unfold IncludeTree.merged IncludeTree.mergedOnto
  rw [own]
  simp only [bind, Except.bind, pure, Except.pure, Document.empty_merge ordered top]

/-- The printed document in place of the files. A file that holds it resolves without includes exactly
when no line of it reads as a directive. Then the file keeps all of the text, with a line feed at its
end, and where this reads as the value that was printed the file comes to the same document and the
same configuration as the files. No line reads as a directive, and the text ends in a line feed
already, when no line of a name or a text in the document starts with the word and no text of several
lines ends in another break. -/
theorem mergedYaml_stands_in (written : b.mergedYaml files = .ok y) :
    ∃ tree d, b.resolve files = .ok tree ∧ tree.merged = .ok d ∧ y = d.toYaml ∧
      (∀ (alone : Build) (other : FileTree),
        other.read (Include.rootOf alone.config) = .ok y.toUTF8 →
        ((∃ single, alone.resolve other = .ok single ∧ single.includes = []) ↔
          Include.DirectiveFree y) ∧
        (Include.DirectiveFree y → ∃ single, alone.resolve other = .ok single ∧
          single.includes = [] ∧ single.content = String.ofList (Text.ended y.toList) ∧
          (Yaml.read single.content = .ok d.toValue →
            single.merged = tree.merged ∧ configuration single = configuration tree))) ∧
      ((∀ s ∈ d.names, Hushed s) → (∀ s ∈ d.texts, Calm s) →
        Include.DirectiveFree y ∧ String.ofList (Text.ended y.toList) = y) := by
  obtain ⟨tree, d, resolved, merged, rfl⟩ := mergedYaml_eq_ok written
  obtain ⟨ordered, top⟩ := IncludeTree.merged_sound merged
  have bare := d.not_mem_toYaml
  refine ⟨tree, d, resolved, merged, rfl, fun alone other opened => ⟨⟨?_, ?_⟩, ?_⟩,
    fun hushed calm => ?_⟩
  · rintro ⟨single, found, lone⟩
    exact Include.directiveFree_of_resolveRoot opened found lone
  · exact fun directiveFree => ⟨_, Include.resolveRoot_of_directiveFree opened directiveFree, rfl⟩
  · intro directiveFree
    refine ⟨_, Include.resolveRoot_of_directiveFree opened directiveFree, rfl, ?_, fun read => ?_⟩
    · rw [IncludeTree.content, Include.content_of_directiveFree directiveFree bare]
    · have same := merged_of_printed (p := Include.rootOf alone.config) ordered top read
      refine ⟨same.trans merged.symm, ?_⟩
      unfold configuration
      rw [merged]
      exact congrArg (· >>= Configuration.ofDocument) same
  · obtain ⟨directiveFree, ended⟩ := (Document.rows_toYaml top hushed calm).directiveFree bare
    exact ⟨directiveFree, by rw [ended, String.ofList_toList]⟩

/-! Two files that are merged, and texts whose printed lines are taken for something else. -/

def holding (text : String) : FileTree := FileTree.ofTexts [("muxc.yaml", text)]

def pairFiles : FileTree :=
  FileTree.ofTexts [("muxc.yaml", "out: gen\n!include more.yaml\n"), ("more.yaml", "package: |-\n a\n b\n")]

def pairYaml : String := "out: gen\npackage: |-\n  a\n  b\n"

def packaged (text : String) : Document := .mapping [("package", .scalar (.text text))]

theorem mergedYaml_stands_in_pair : ∃ tree single, sole.resolve pairFiles = .ok tree ∧
    sole.mergedYaml pairFiles = .ok pairYaml ∧ sole.resolve (holding pairYaml) = .ok single ∧
      single.includes = [] ∧ single.merged = tree.merged ∧
      configuration single = configuration tree := by
  have written : sole.mergedYaml pairFiles = .ok pairYaml := by decide +kernel
  have document : (sole.resolve pairFiles >>= IncludeTree.merged) =
      .ok ((packaged "a\nb").merge (.mapping [("out", .scalar (.text "gen"))])) := by
    decide +kernel
  have opened : (holding pairYaml).read (Include.rootOf sole.config) = .ok pairYaml.toUTF8 := by
    decide +kernel
  obtain ⟨tree, d, resolved, merged, -, alone, -⟩ := mergedYaml_stands_in written
  obtain ⟨single, found, lone, content, read⟩ := (alone sole _ opened).2 (by decide +kernel)
  rw [resolved] at document
  obtain rfl := Except.ok.inj (merged.symm.trans document)
  obtain ⟨same, configured⟩ := read (by rw [content]; decide +kernel)
  exact ⟨tree, single, resolved, written, found, lone, same, configured⟩

def blockFiles : FileTree := holding "package: \"a\\n!include b.yaml\"\n"

def blockYaml : String := "package: |-\n  a\n  !include b.yaml\n"

def separatorFiles : FileTree := holding "package: \"x\\n\\u2028\"\n"

def separatorYaml : String := "package: |+\n  x\n\u2028"

/-- A line of a text is taken for a directive, and the line feed behind a text that ends in another
break becomes part of the text. -/
theorem mergedYaml_stands_in_misread :
    ((sole.resolve blockFiles >>= IncludeTree.merged) = .ok (packaged "a\n!include b.yaml") ∧
      sole.mergedYaml blockFiles = .ok blockYaml ∧
      Yaml.read blockYaml = .ok (packaged "a\n!include b.yaml").toValue ∧
      (sole.resolve (holding blockYaml)).isOk = false) ∧
    (sole.resolve separatorFiles >>= IncludeTree.merged) = .ok (packaged "x\n\u2028") ∧
      sole.mergedYaml separatorFiles = .ok separatorYaml ∧
      Yaml.read separatorYaml = .ok (packaged "x\n\u2028").toValue ∧
      (sole.resolve (holding separatorYaml) >>= IncludeTree.merged) =
        .ok (packaged "x\n\u2028\n") := by
  refine ⟨⟨?_, ?_, ?_, ?_⟩, ?_, ?_, ?_, ?_⟩ <;> decide +kernel

end Build
end RouteForge
