import RouteForge.Proofs.Document.Independence
import RouteForge.Proofs.Include.Folding
import RouteForge.Proofs.Include.Unfolding

/-! Neighbouring directives that change places. Where the documents of the two files share nothing but
mappings, the file that includes them comes to the same document. -/
namespace RouteForge

namespace IncludeTree

variable {a b d : Document} {t u : IncludeTree} {ts us : List IncludeTree}

theorem mergedOnto_cons (d : Document) (t : IncludeTree) (ts : List IncludeTree) :
    mergedOnto d (t :: ts) = t.merged.bind fun next => mergedOnto (d.merge next) ts := rfl

/-- Neighbouring trees with independent documents are merged in either order. -/
theorem mergedOnto_interchange (first : t.merged = .ok a) (second : u.merged = .ok b)
    (independent : a.Independent b) (start : d.Ordered) :
    mergedOnto d (ts ++ t :: u :: us) = mergedOnto d (ts ++ u :: t :: us) := by
  induction ts generalizing d with
  | nil =>
    have same := independent.interchange (merged_sound first).1 (merged_sound second).1 d start
    simp only [List.nil_append, mergedOnto_cons, first, second, Except.bind, same]
  | cons s ts ih =>
    rw [List.cons_append, List.cons_append, mergedOnto_cons, mergedOnto_cons]
    cases merged : s.merged with
    | error e => rfl
    | ok next => exact ih (start.merge (merged_sound merged).1)

theorem merged_interchange (first : t.merged = .ok a) (second : u.merged = .ok b)
    (independent : a.Independent b) (p : Path) (content : String) :
    (node p content (ts ++ t :: u :: us)).merged = (node p content (ts ++ u :: t :: us)).merged := by
  have start : Document.empty.Ordered := ⟨.nil, trivial⟩
  unfold merged
  rw [mergedOnto_interchange first second independent start]

end IncludeTree

namespace Include

variable {read read' : Path → Except Refusal ByteArray} {base : Path}

/-- A file whose lines have two directives with none between them. -/
theorem ofText_of_lines {text : List Char} {front between back : List (List Char)}
    {first second x y : List Char}
    (lines : Text.lines text = front ++ first :: (between ++ second :: back))
    (here : target? first = some x) (there : target? second = some y)
    (kept : ∀ line ∈ between, target? line = none) :
    Source.ofText text =
      { content := Text.unlines ((front ++ between ++ back).filter fun line => (target? line).isNone)
        targets := front.filterMap (fun line => (target? line).map Path.mk) ++ ⟨x⟩ :: ⟨y⟩ ::
          back.filterMap fun line => (target? line).map Path.mk } := by
  have none : between.filterMap (fun line => (target? line).map Path.mk) = [] :=
    List.filterMap_eq_nil_iff.mpr fun line member => by rw [kept line member]; rfl
  simp [Source.ofText, lines, here, there, none]

/-- The trees of targets in two rows are those of the first and those of the second. -/
theorem resolvesAll_append {trees : List IncludeTree} {chain : Chain} {xs ys : List Path} :
    ResolvesAll read base trees chain (xs ++ ys) ↔ ∃ ts us, trees = ts ++ us ∧
      ResolvesAll read base ts chain xs ∧ ResolvesAll read base us chain ys := by
  induction xs generalizing trees with
  | nil =>
    constructor
    · exact fun below => ⟨[], trees, rfl, rfl, below⟩
    · rintro ⟨ts, us, rfl, none, below⟩
      cases ts with
      | nil => exact below
      | cons t ts => obtain ⟨_, _, _, some, -⟩ := none; cases some
  | cons x xs ih =>
    constructor
    · intro below
      cases trees with
      | nil => cases below
      | cons t trees =>
        obtain ⟨_, _, bytes, same, fetched, here, others⟩ := below
        cases same
        obtain ⟨ts, us, rfl, front, back⟩ := ih.mp others
        exact ⟨t :: ts, us, rfl, ⟨x, xs, bytes, rfl, fetched, here, front⟩, back⟩
    · rintro ⟨ts, us, rfl, front, back⟩
      cases ts with
      | nil => cases front
      | cons t ts =>
        obtain ⟨_, _, bytes, same, fetched, here, others⟩ := front
        cases same
        exact ⟨x, xs ++ ys, bytes, rfl, fetched, here, ih.mpr ⟨ts, us, rfl, others, back⟩⟩

/-- What is below a file has been read elsewhere. -/
theorem Resolves.includes_elsewhere {path : Path} {content : String} {includes : List IncludeTree}
    {chain : Chain} {target : Path} {bytes : ByteArray}
    (resolves : Resolves read base (.node path content includes) chain target bytes) :
    ∀ p ∈ IncludeTree.pathsOf includes, p ≠ place base target := by
  obtain ⟨rfl, -, source, -, -, below⟩ := resolves
  rw [← List.append_nil (chain ++ [place base target]), resolvesAll_append_iff] at below
  rintro p member rfl
  exact not_mem_of_check_ok (below.2 _ member) (by simp)

/-- Two neighbouring targets that change places take their trees with them. -/
theorem Resolves.interchange {tree : IncludeTree} {chain : Chain} {target x y : Path}
    {bytes bytes' : ByteArray} {content : List Char} {xs ys : List Path}
    (resolves : Resolves read base tree chain target bytes)
    (before : sourceOf (place base target) bytes = .ok ⟨content, xs ++ x :: y :: ys⟩)
    (after : sourceOf (place base target) bytes' = .ok ⟨content, xs ++ y :: x :: ys⟩)
    (elsewhere : ∀ p, p ≠ place base target → read' p = read p) :
    ∃ ts t u us, tree = .node (place base target) (String.ofList content) (ts ++ t :: u :: us) ∧
      ts.map IncludeTree.path = xs.map (place base) ∧ t.path = place base x ∧
      u.path = place base y ∧
      Resolves read' base (.node (place base target) (String.ofList content) (ts ++ u :: t :: us))
        chain target bytes' := by
  cases tree with
  | node path content includes =>
    have apart := resolves.includes_elsewhere
    obtain ⟨rfl, check, source, text, rfl, below⟩ := resolves
    rw [before] at text
    cases text
    have moved := below.transfer fun p member => elsewhere p (apart p member)
    obtain ⟨ts, behind, rfl, front, pair⟩ := resolvesAll_append.mp moved
    match behind, pair with
    | [], pair => cases pair
    | [t], pair => obtain ⟨_, _, _, same, _, _, none⟩ := pair; cases same; cases none
    | t :: u :: us, pair =>
      obtain ⟨_, _, bytesX, same, fetchedX, treeX, pair⟩ := pair
      cases same
      obtain ⟨_, _, bytesY, same, fetchedY, treeY, back⟩ := pair
      cases same
      refine ⟨ts, t, u, us, rfl, front.map_path, treeX.path_eq, treeY.path_eq, rfl, check, _, after,
        rfl, resolvesAll_append.mpr ⟨ts, _, rfl, front, ?_⟩⟩
      exact ⟨y, _, bytesY, rfl, fetchedY, treeY, x, _, bytesX, rfl, fetchedX, treeX, back⟩

/-- Independent documents may be merged into any document in either order, so that neighbouring trees
which come to such documents may change places, and so may two directives with none between them. The
file that holds them, wherever its search has started, is resolved as before but for the two trees and
comes to the same document. -/
theorem merged_of_interchanged_includes {a b : Document} (left : a.Ordered) (right : b.Ordered)
    (independent : a.Independent b) :
    (∀ c : Document, c.Ordered → (c.merge a).merge b = (c.merge b).merge a) ∧
    (∀ p content ts t u us, t.merged = .ok a → u.merged = .ok b →
      (IncludeTree.node p content (ts ++ t :: u :: us)).merged =
        (IncludeTree.node p content (ts ++ u :: t :: us)).merged) ∧
    ∀ (files files' : FileTree) (base : Path) (chain : Chain) (target : Path) (text text' : String)
      front first between second back x y tree,
      Text.lines text.toList = front ++ first :: (between ++ second :: back) →
      Text.lines text'.toList = front ++ second :: (between ++ first :: back) →
      target? first = some x → target? second = some y → (∀ line ∈ between, target? line = none) →
      (∀ p, p ≠ place base target → files'.read p = files.read p) →
      resolve files base chain target text.toUTF8 = .ok tree →
      ∃ ts t u us tree', resolve files' base chain target text'.toUTF8 = .ok tree' ∧
        tree'.path = tree.path ∧ tree'.content = tree.content ∧
        tree.includes = ts ++ t :: u :: us ∧ tree'.includes = ts ++ u :: t :: us ∧
        ts.length = (front.filterMap target?).length ∧
        t.path = place base ⟨x⟩ ∧ u.path = place base ⟨y⟩ ∧
        (t.merged = .ok a → u.merged = .ok b → tree'.merged = tree.merged) := by
  refine ⟨independent.interchange left right, ?trees, ?directives⟩
  case trees =>
    intro p content ts t u us first second
    exact IncludeTree.merged_interchange first second independent p content
  case directives =>
    intro files files' base chain target text text' front first between second back x y tree lines
      lines' here there kept elsewhere resolved
    have before := sourceOf_toUTF8 (place base target) text
    have after := sourceOf_toUTF8 (place base target) text'
    rw [ofText_of_lines lines here there kept] at before
    rw [ofText_of_lines lines' there here kept] at after
    obtain ⟨ts, t, u, us, rfl, front_paths, t_path, u_path, again⟩ :=
      (resolve_eq_ok_iff.mp resolved).interchange before after elsewhere
    have count := congrArg List.length front_paths
    refine ⟨ts, t, u, us, _, resolve_eq_ok_iff.mpr again, rfl, rfl, rfl, rfl, ?_, t_path, u_path,
      fun first second => ?_⟩
    · rw [List.length_map, List.length_map] at count
      rw [count, ← List.length_map (f := Path.mk), List.map_filterMap]
    · exact (IncludeTree.merged_interchange first second independent _ _).symm

/-- Three files, the first of which has null where the others have variables. -/
def partFiles : FileTree := FileTree.ofTexts [("base.yaml", "vars: ~\n"),
  ("left.yaml", "vars:\n  json: a\n"), ("right.yaml", "use: [log]\nvars:\n  spare: b\n")]

def leftPart : Document := .mapping [("vars", .mapping [("json", .scalar (.text "a"))])]

def rightPart : Document :=
  .mapping [("use", .sequence [.scalar (.text "log")]),
    ("vars", .mapping [("spare", .scalar (.text "b"))])]

def leftLine : String := "!include left.yaml"

def rightLine : String := "!include \"right.yaml\""

/-- Includes all three, the last two in the order given. -/
def including (first second : String) : String :=
  "!include base.yaml\n" ++ first ++ "\npackage: p\n" ++ second ++ "\n"

/-- The trees list the files in two orders and come to one document. -/
theorem merged_of_interchanged_includes_parts :
    leftPart.Ordered ∧ rightPart.Ordered ∧ leftPart.Independent rightPart ∧
    ∃ tree tree',
      resolve partFiles ⟨[]⟩ [] ⟨"muxc.yaml".toList⟩ (including leftLine rightLine).toUTF8 =
        .ok tree ∧
      resolve partFiles ⟨[]⟩ [] ⟨"muxc.yaml".toList⟩ (including rightLine leftLine).toUTF8 =
        .ok tree' ∧
      tree.paths = ["muxc.yaml", "base.yaml", "left.yaml", "right.yaml"].map Path.ofText ∧
      tree'.merged = tree.merged := by
  have left : leftPart.Ordered := by
    simp only [leftPart, Document.Ordered, Document.FieldsOrdered]
    decide
  have right : rightPart.Ordered := by
    simp only [rightPart, Document.Ordered, Document.FieldsOrdered, Document.ItemsOrdered]
    decide
  have independent : leftPart.Independent rightPart := by
    refine .of_fields fun name x y here there => ?_
    have shared : name = "vars" ∧ x = .mapping [("json", .scalar (.text "a"))] := by
      simpa using Fields.mem_of_get? here
    obtain ⟨rfl, rfl⟩ := shared
    cases there
    refine .of_fields fun key u v json spare => ?_
    have first : key = "json" ∧ u = .scalar (.text "a") := by simpa using Fields.mem_of_get? json
    have second : key = "spare" ∧ v = .scalar (.text "b") := by
      simpa using Fields.mem_of_get? spare
    exact absurd (first.1.symm.trans second.1) (by decide)
  have run : (resolve partFiles ⟨[]⟩ [] ⟨"muxc.yaml".toList⟩
      (including leftLine rightLine).toUTF8).toOption.map (fun tree => (tree.paths,
        tree.includes.map IncludeTree.merged)) =
      some (["muxc.yaml", "base.yaml", "left.yaml", "right.yaml"].map Path.ofText,
        [.ok (.mapping [("vars", .scalar .null)]), .ok leftPart, .ok rightPart]) := by
    decide +kernel
  cases resolved : resolve partFiles ⟨[]⟩ [] ⟨"muxc.yaml".toList⟩
      (including leftLine rightLine).toUTF8 with
  | error e =>
    rw [resolved] at run
    cases run
  | ok tree =>
    rw [resolved] at run
    obtain ⟨paths, documents⟩ := Prod.mk.inj (Option.some.inj run)
    obtain ⟨-, -, files⟩ := merged_of_interchanged_includes left right independent
    obtain ⟨ts, t, u, us, tree', again, -, -, includes, -, count, -, -, same⟩ :=
      files partFiles partFiles ⟨[]⟩ [] ⟨"muxc.yaml".toList⟩ (including leftLine rightLine)
        (including rightLine leftLine) ["!include base.yaml".toList] leftLine.toList
        ["package: p".toList] rightLine.toList [] "left.yaml".toList "right.yaml".toList tree
        (by decide +kernel) (by decide +kernel) (by decide) (by decide) (by decide)
        (fun _ _ => rfl) resolved
    refine ⟨left, right, independent, tree, tree', rfl, again, paths, ?_⟩
    rw [includes] at documents
    obtain ⟨s, rfl⟩ := List.length_eq_one_iff.mp (count.trans (by decide +kernel))
    simp only [List.singleton_append, List.map_cons, List.cons.injEq] at documents
    exact same documents.2.1 documents.2.2.1

end Include
end RouteForge
