import RouteForge.Proofs.Document.Compatible

/-! Documents that share nothing but mappings. They are merged into a third in either order, whatever
it holds at their paths: at each path at most one of them has more than names to add. -/
namespace RouteForge.Document

variable {a b c : Document}

/-- Wherever both have a value, both are mappings. -/
def Independent (a b : Document) : Prop :=
  ∀ path x y, a.at? path = some x → b.at? path = some y → x.shape = .mapping ∧ y.shape = .mapping

/-- The order in which the two are merged into an ordered document does not matter. -/
def Interchange (a b : Document) : Prop :=
  ∀ c : Document, c.Ordered → (c.merge a).merge b = (c.merge b).merge a

/-- Documents that can be interchanged are merged with each other in either order. -/
theorem Interchange.merge_comm (interchange : a.Interchange b) (first : a.Ordered)
    (second : b.Ordered) (topA : a.shape = .mapping) (topB : b.shape = .mapping) :
    a.merge b = b.merge a := by
  have fresh := interchange empty ⟨.nil, trivial⟩
  rwa [empty_merge first topA, empty_merge second topB] at fresh

namespace Independent

theorem tops (independent : a.Independent b) : a.shape = .mapping ∧ b.shape = .mapping :=
  independent [] a b rfl rfl

section Fields

variable {below fields incoming : Fields Document}

theorem field {name : String} {x y : Document}
    (independent : Independent (.mapping fields) (.mapping incoming))
    (left : Fields.get? fields name = some x) (right : Fields.get? incoming name = some y) :
    x.Independent y := by
  intro path u v found next
  exact independent (name :: path) u v (by simpa [at?, left] using found)
    (by simpa [at?, right] using next)

theorem of_fields (each : ∀ name x y, Fields.get? fields name = some x →
    Fields.get? incoming name = some y → x.Independent y) :
    Independent (.mapping fields) (.mapping incoming) := by
  intro path u v left right
  cases path with
  | nil =>
    cases left
    cases right
    exact ⟨rfl, rfl⟩
  | cons name path =>
    obtain ⟨x, old, left⟩ := Option.bind_eq_some_iff.mp left
    obtain ⟨y, new, right⟩ := Option.bind_eq_some_iff.mp right
    exact each name x y old new path u v left right

/-- Fields are interchanged as soon as the values under their common names are. -/
theorem mergeFields_right_comm (independent : Independent (.mapping fields) (.mapping incoming))
    (first : Ordered (.mapping fields)) (second : Ordered (.mapping incoming))
    (base : Ordered (.mapping below))
    (each : ∀ name x y, Fields.get? fields name = some x → Fields.get? incoming name = some y →
      x.Interchange y) :
    mergeFields (mergeFields below fields) incoming =
      mergeFields (mergeFields below incoming) fields := by
  refine Fields.Ascending.ext (ascending_mergeFields (ascending_mergeFields base.1))
    (ascending_mergeFields (ascending_mergeFields base.1)) fun name => ?_
  rw [get?_mergeFields second.1, get?_mergeFields first.1, get?_mergeFields first.1,
    get?_mergeFields second.1]
  cases left : Fields.get? fields name with
  | none => simp
  | some x =>
    cases right : Fields.get? incoming name with
    | none => simp
    | some y =>
      have interchange := each name x y left right
      cases old : Fields.get? below name with
      | some z => exact congrArg some (interchange z (base.field old))
      | none =>
        obtain ⟨topX, topY⟩ := (independent.field left right).tops
        exact congrArg some
          (interchange.merge_comm (first.field left) (second.field right) topX topY)

end Fields

/-- Independent documents are merged into another in either order. -/
theorem interchange (independent : a.Independent b) (first : a.Ordered) (second : b.Ordered) :
    a.Interchange b := by
  induction a using inductionOn generalizing b with
  | scalar | sequence => cases independent.tops.1
  | mapping fields ih =>
    cases b with
    | scalar | sequence => cases independent.tops.2
    | mapping incoming =>
      have onto (below : Fields Document) (base : Ordered (.mapping below)) :=
        mergeFields_right_comm independent first second base fun name x y left right =>
          ih _ (Fields.mem_of_get? left) (independent.field left right) (first.field left)
            (second.field right)
      intro c base
      cases c with
      | mapping below => exact congrArg mapping (onto below base)
      | scalar | sequence =>
        -- What is no mapping is lost to whichever comes first.
        have alone (d : Fields Document) (ordered : Ordered (.mapping d)) : mergeFields [] d = d :=
          mapping.inj (empty_merge ordered rfl)
        have fresh := onto [] ⟨.nil, trivial⟩
        rw [alone fields first, alone incoming second] at fresh
        exact congrArg mapping fresh

end Independent

end RouteForge.Document
