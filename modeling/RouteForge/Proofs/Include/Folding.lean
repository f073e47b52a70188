import RouteForge.Include.Tree
import RouteForge.Proofs.Document.Compatible
import RouteForge.Proofs.Document.Reading
import RouteForge.Proofs.Traversal

/-! The meaning of a tree of files. The files are merged in groups, each with what it includes, but
where their documents are compatible this is the same as merging them in one row, each file after
those it includes and as often as it stands in the tree. -/
namespace RouteForge

namespace IncludeTree

open Document (Family Compatible at? items merge empty)

mutual

/-- Every file with its content, each after those it includes. -/
def files : IncludeTree → List (Path × String)
  | node p c ts => filesOf ts ++ [(p, c)]

def filesOf : List IncludeTree → List (Path × String)
  | [] => []
  | t :: rest => t.files ++ filesOf rest

end

/-- The documents of files. -/
def decodeAll (files : List (Path × String)) : Except Error (List Document) :=
  files.mapM (fun file => decode file.1 file.2)

theorem decode_sound {p : Path} {c : String} {d : Document} (decoded : decode p c = .ok d) :
    d.Ordered ∧ d.shape = .mapping := by
  unfold decode at decoded
  cases read : Document.ofText c with
  | error e => rw [read] at decoded; cases decoded
  | ok e =>
    rw [read] at decoded
    cases decoded
    exact Document.mapping_of_ofText read

theorem merged_node_eq_ok {p : Path} {c : String} {ts : List IncludeTree} {d : Document}
    (whole : (node p c ts).merged = .ok d) : ∃ own below, decode p c = .ok own ∧
      mergedOnto empty ts = .ok below ∧ d = below.merge own := by
  unfold merged at whole
  cases own : decode p c with
  | error e => rw [own] at whole; cases whole
  | ok e =>
    cases below : mergedOnto empty ts with
    | error r => rw [own, below] at whole; cases whole
    | ok b =>
      rw [own, below] at whole
      cases whole
      exact ⟨e, b, rfl, rfl, rfl⟩

theorem mergedOnto_cons_eq_ok {t : IncludeTree} {ts : List IncludeTree} {b d : Document}
    (whole : mergedOnto b (t :: ts) = .ok d) :
    ∃ next, t.merged = .ok next ∧ mergedOnto (b.merge next) ts = .ok d := by
  unfold mergedOnto at whole
  cases next : t.merged with
  | error e => rw [next] at whole; cases whole
  | ok e =>
    rw [next] at whole
    exact ⟨e, rfl, whole⟩

mutual

/-- Merging keeps the order of the fields and the shape of documents. -/
theorem merged_sound : ∀ {t : IncludeTree} {d : Document}, t.merged = .ok d →
    d.Ordered ∧ d.shape = .mapping
  | .node _ _ _, _, whole => by
    obtain ⟨own, below, decoded, onto, rfl⟩ := merged_node_eq_ok whole
    obtain ⟨ordered, top⟩ := decode_sound decoded
    have start : empty.Ordered := ⟨.nil, trivial⟩
    exact ⟨(mergedOnto_sound start onto).merge ordered, (Document.shape_merge below own).trans top⟩

theorem mergedOnto_sound : ∀ {ts : List IncludeTree} {b d : Document}, b.Ordered →
    mergedOnto b ts = .ok d → d.Ordered
  | [], _, _, start, whole => by
    cases whole
    exact start
  | _ :: _, _, _, start, whole => by
    obtain ⟨next, merged, onto⟩ := mergedOnto_cons_eq_ok whole
    exact mergedOnto_sound (start.merge (merged_sound merged).1) onto

end

theorem decodeAll_sound {files : List (Path × String)} {docs : List Document}
    (decoded : decodeAll files = .ok docs) : ∀ d ∈ docs, d.Ordered ∧ d.shape = .mapping :=
  forall_of_mapM_eq_ok (fun _ _ read => decode_sound read) decoded

mutual

theorem merged_of_family : ∀ {t : IncludeTree} {docs : List Document},
    decodeAll t.files = .ok docs → Family docs → t.merged = .ok (docs.foldl merge empty)
  | .node p c ts, docs, decoded, family => by
    obtain ⟨below, last, others, here, rfl⟩ := mapM_append_eq_ok decoded
    cases own : decode p c with
    | error e => simp [own, bind, Except.bind] at here
    | ok d =>
      have single : last = [d] := by simpa [own, bind, Except.bind, pure, Except.pure, eq_comm] using here
      subst single
      have inner : Family below := family.of_sublist (List.sublist_append_left _ _)
      have onto := mergedOnto_of_family others inner.cons_empty
      rw [merged, own]
      simp [bind, Except.bind, pure, Except.pure, onto]

/-- Trees that are merged into a document add the documents of their files one by one. -/
theorem mergedOnto_of_family : ∀ {ts : List IncludeTree} {d : Document} {docs : List Document},
    decodeAll (filesOf ts) = .ok docs → Family (d :: docs) →
    mergedOnto d ts = .ok (docs.foldl merge d)
  | [], d, docs, decoded, _ => by
    cases decoded
    rfl
  | t :: rest, d, docs, decoded, family => by
    obtain ⟨here, behind, first, others, rfl⟩ := mapM_append_eq_ok decoded
    have front : Family (d :: here) :=
      family.of_sublist ((List.sublist_append_left _ _).cons_cons d)
    have next := merged_of_family first (front.of_sublist (List.sublist_cons_self _ _))
    rw [mergedOnto, next]
    simp only [bind, Except.bind]
    rw [front.merge_foldl_empty, mergedOnto_of_family others family.foldl, List.foldl_append]

end

/-- A tree of files with compatible documents comes to these documents merged in one row, each file
after those it includes. At each path a sequence is that of all files behind each other, in this
order, and a scalar is that of the last file that has a value there. -/
theorem merged_eq_foldl {t : IncludeTree} {docs : List Document}
    (decoded : decodeAll t.files = .ok docs) (compatible : docs.Pairwise Compatible) :
    ∃ d, t.merged = .ok d ∧ d = docs.foldl merge empty ∧ ∀ path,
      (∀ xs, d.at? path = some (.sequence xs) ↔
        (∃ v ∈ docs.filterMap (at? path), v.shape = .sequence) ∧
          xs = (docs.filterMap (at? path)).flatMap items) ∧
      ∀ s, d.at? path = some (.scalar s) ↔
        (docs.filterMap (at? path)).getLast? = some (.scalar s) := by
  have sound := decodeAll_sound decoded
  have family : Family docs :=
    ⟨fun d member => (sound d member).1, fun d member => (sound d member).2, compatible⟩
  exact ⟨_, merged_of_family decoded family, rfl, fun path =>
    ⟨fun _ => family.at?_eq_sequence_iff, fun _ => family.at?_eq_scalar_iff⟩⟩

/-- Two files that include a third. -/
def diamond : IncludeTree :=
  let shared := node (Path.ofText "shared.yaml") "use: [log]\nout: lib\n" []
  node (Path.ofText "muxc.yaml") "use: [app]\nout: gen\n"
    [node (Path.ofText "left.yaml") "use: [left]\n" [shared],
      node (Path.ofText "right.yaml") "out: ~\n" [shared]]

def names (xs : List String) : Document := .sequence (xs.map fun x => .scalar (.text x))

def diamondDocuments : List Document :=
  let shared := .mapping [("out", .scalar (.text "lib")), ("use", names ["log"])]
  [shared, .mapping [("use", names ["left"])], shared, .mapping [("out", .scalar .null)],
    .mapping [("out", .scalar (.text "gen")), ("use", names ["app"])]]

/-- The third file counts twice, and the root has the last word. -/
theorem merged_eq_foldl_diamond : ∃ d, diamond.merged = .ok d ∧
    d.at? ["use"] = some (names ["log", "left", "log", "app"]) ∧
    d.at? ["out"] = some (.scalar (.text "gen")) := by
  have decoded : decodeAll diamond.files = .ok diamondDocuments := by decide +kernel
  have agree : diamondDocuments.Pairwise (fun a b => a.agrees b = true) := by decide +kernel
  have compatible : diamondDocuments.Pairwise Compatible :=
    agree.imp_of_mem fun member _ ab =>
      (Document.agrees_iff (decodeAll_sound decoded _ member).1).mp ab
  obtain ⟨d, merged, -, held⟩ := merged_eq_foldl decoded compatible
  refine ⟨d, merged, ((held ["use"]).1 _).mpr ?_, ((held ["out"]).2 _).mpr ?_⟩
  · decide +kernel
  · decide +kernel

end IncludeTree
end RouteForge
