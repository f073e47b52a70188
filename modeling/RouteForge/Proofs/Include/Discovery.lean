import RouteForge.Proofs.Include.Folding

/-! The error of a tree that cannot be merged. Merging decodes each file before it descends to those
that the file includes and stops at the first that is no document. So its error is that of decoding
all files one after the other in the order of their paths, although the documents are merged in
another order. -/
namespace RouteForge

namespace IncludeTree

open Document (empty)

mutual

/-- Every file with its content, each before those it includes. -/
def listing : IncludeTree → List (Path × String)
  | node p c ts => (p, c) :: listingOf ts

def listingOf : List IncludeTree → List (Path × String)
  | [] => []
  | t :: rest => t.listing ++ listingOf rest

end

mutual

theorem map_fst_listing : ∀ t : IncludeTree, t.listing.map Prod.fst = t.paths
  | node p c ts => by rw [listing, paths, List.map_cons, map_fst_listingOf ts]

theorem map_fst_listingOf : ∀ ts : List IncludeTree, (listingOf ts).map Prod.fst = pathsOf ts
  | [] => rfl
  | t :: rest => by
    rw [listingOf, pathsOf, List.map_append, map_fst_listing t, map_fst_listingOf rest]

end

theorem merged_node_eq_error_iff {p : Path} {c : String} {ts : List IncludeTree} {e : Error} :
    (node p c ts).merged = .error e ↔
      decode p c = .error e ∨ (∃ own, decode p c = .ok own) ∧ mergedOnto empty ts = .error e := by
  unfold merged
  cases own : decode p c with
  | error r => simp [bind, Except.bind]
  | ok d => cases below : mergedOnto empty ts <;> simp [bind, Except.bind, pure, Except.pure]

theorem mergedOnto_cons_eq_error_iff {t : IncludeTree} {ts : List IncludeTree} {d : Document}
    {e : Error} : mergedOnto d (t :: ts) = .error e ↔
      t.merged = .error e ∨ ∃ next, t.merged = .ok next ∧ mergedOnto (d.merge next) ts = .error e := by
  rw [mergedOnto]
  cases next : t.merged <;> simp [bind, Except.bind]

mutual

/-- Merging stops where decoding the files in the order of their paths does. -/
theorem merged_eq_error_iff : ∀ (t : IncludeTree) (e : Error),
    t.merged = .error e ↔ decodeAll t.listing = .error e
  | node p c ts, e => by
    rw [merged_node_eq_error_iff, mergedOnto_eq_error_iff ts empty e, listing, decodeAll, decodeAll,
      mapM_cons_eq_error_iff]

/-- What has been merged before does not matter. -/
theorem mergedOnto_eq_error_iff : ∀ (ts : List IncludeTree) (d : Document) (e : Error),
    mergedOnto d ts = .error e ↔ decodeAll (listingOf ts) = .error e
  | [], _, _ => by simp [mergedOnto, listingOf, decodeAll, pure, Except.pure]
  | t :: rest, d, e => by
    have whole : decodeAll (listingOf (t :: rest)) = .error e ↔ decodeAll t.listing = .error e ∨
        (∃ docs, decodeAll t.listing = .ok docs) ∧ decodeAll (listingOf rest) = .error e :=
      mapM_append_eq_error_iff
    have well : (∃ next, t.merged = .ok next) ↔ ∃ docs, decodeAll t.listing = .ok docs :=
      exists_ok_iff_of_error_iff (merged_eq_error_iff t)
    rw [mergedOnto_cons_eq_error_iff, whole, merged_eq_error_iff t e, ← well]
    refine or_congr_right ⟨?_, ?_⟩
    · rintro ⟨next, merged, stopped⟩
      exact ⟨⟨next, merged⟩, (mergedOnto_eq_error_iff rest (d.merge next) e).mp stopped⟩
    · rintro ⟨⟨next, merged⟩, stopped⟩
      exact ⟨next, merged, (mergedOnto_eq_error_iff rest (d.merge next) e).mpr stopped⟩

end

theorem decode_eq_error_iff {p : Path} {c : String} {e : Error} : decode p c = .error e ↔
    ∃ r, Document.ofText c = .error r ∧ e = .decode (.file p) r := by
  unfold decode
  cases Document.ofText c <;> simp [Except.mapError, eq_comm]

theorem exists_decode_iff {p : Path} {c : String} :
    (∃ d, decode p c = .ok d) ↔ ∃ d, Document.ofText c = .ok d := by
  unfold decode
  cases Document.ofText c <;> simp [Except.mapError]

theorem message_decode_file [Yaml.Wording] (p : Path) (r : DecodeError) :
    (Error.decode (.file p) r).message = "error decoding '" ++ p.text ++ "': " ++ r.message := by
  have opening : "error decoding '" = "error decoding " ++ "'" := by simp
  have closing : "': " = "'" ++ ": " := by simp
  have whole : (Error.decode (.file p) r).message =
      "error decoding " ++ ("'" ++ p.text ++ "'") ++ ": " ++ r.message := rfl
  rw [whole, opening, closing]
  simp only [String.append_assoc]

/-- A tree can be merged exactly when the content of each of its files is a document. Otherwise the
error names the first file that is none, in the order in which the files are listed, with the reason
that this file alone gives. -/
theorem merged_stops_at_first [Yaml.Wording] (t : IncludeTree) : t.listing.map Prod.fst = t.paths ∧
    ((∃ d, t.merged = .ok d) ↔ ∀ file ∈ t.listing, ∃ d, Document.ofText file.2 = .ok d) ∧
    ∀ e, t.merged = .error e ↔ ∃ before p c behind r, t.listing = before ++ (p, c) :: behind ∧
      (∀ file ∈ before, ∃ d, Document.ofText file.2 = .ok d) ∧ Document.ofText c = .error r ∧
      e = .decode (.file p) r ∧ e.message = "error decoding '" ++ p.text ++ "': " ++ r.message := by
  refine ⟨map_fst_listing t, ?_, fun e => ?_⟩
  · rw [exists_ok_iff_of_error_iff (merged_eq_error_iff t)]
    simp only [decodeAll, exists_mapM_eq_ok_iff, exists_decode_iff]
  · rw [merged_eq_error_iff, decodeAll, mapM_eq_error_iff]
    simp only [exists_decode_iff, decode_eq_error_iff, Prod.exists]
    constructor
    · rintro ⟨before, p, c, behind, split, well, r, fault, rfl⟩
      exact ⟨before, p, c, behind, r, split, well, fault, rfl, message_decode_file p r⟩
    · rintro ⟨before, p, c, behind, r, split, well, fault, same, -⟩
      exact ⟨before, p, c, behind, split, well, r, fault, same⟩

end IncludeTree
end RouteForge
