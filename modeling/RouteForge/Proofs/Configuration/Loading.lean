import RouteForge.Proofs.Configuration.Shape

/-! Reading a configuration is exact. It succeeds where every known field has its shape and every line
of every group is a route, and then gives what the document says. Otherwise the error is one of the
shape, or else that of the first line that is no route. Fields of other names do not count. -/
namespace RouteForge

namespace RouteGroup

/-- The error is that of the first line that is no route. -/
def FirstFault (lines : List String) (e : Error) : Prop :=
  ∃ before line behind reason, lines = before ++ line :: behind ∧
    (∀ l ∈ before, ∃ r, Route.parse l = .ok r) ∧ Route.parse line = .error reason ∧
    e = .route line reason

theorem mapError_parse_eq_ok_iff {line : String} {r : Route} :
    (Route.parse line).mapError (Error.route line) = .ok r ↔ Route.parse line = .ok r := by
  cases Route.parse line <;> simp [Except.mapError]

theorem withRoutes_eq_ok_iff {g h : RouteGroup} : g.withRoutes = .ok h ↔
    ∃ routes, List.Forall₂ (fun line r => Route.parse line = .ok r) g.lines routes ∧
      h = { g with routes := routes } := by
  simp only [← mapError_parse_eq_ok_iff, ← mapM_eq_ok_iff]
  unfold withRoutes
  cases g.lines.mapM fun line => (Route.parse line).mapError (Error.route line) with
  | error e => simp [bind, Except.bind]
  | ok routes => simp [bind, Except.bind, pure, Except.pure, eq_comm]

theorem firstFault_of_withRoutes {g : RouteGroup} {e : Error} (stopped : g.withRoutes = .error e) :
    FirstFault g.lines e := by
  unfold withRoutes at stopped
  cases read : g.lines.mapM fun line => (Route.parse line).mapError (Error.route line) with
  | ok routes => rw [read] at stopped; cases stopped
  | error r =>
    rw [read] at stopped
    cases stopped
    obtain ⟨before, line, behind, split, well, here⟩ := mapM_eq_error_iff.mp read
    simp only [mapError_parse_eq_ok_iff] at well
    cases parsed : Route.parse line with
    | ok route => rw [parsed] at here; cases here
    | error reason =>
      rw [parsed] at here
      cases here
      exact ⟨before, line, behind, reason, split, well, parsed, rfl⟩

/-- Groups are read one after the other, so the first fault of all their lines counts. -/
theorem firstFault_of_mapM {groups : List RouteGroup} {e : Error}
    (stopped : groups.mapM withRoutes = .error e) : FirstFault (groups.flatMap lines) e := by
  obtain ⟨before, g, behind, rfl, well, here⟩ := mapM_eq_error_iff.mp stopped
  obtain ⟨front, line, back, reason, split, routes, parsed, rfl⟩ := firstFault_of_withRoutes here
  -- In front of the fault stand the lines of whole groups and the first ones of its own group.
  refine ⟨before.flatMap lines ++ front, line, back ++ behind.flatMap lines, reason, ?_, ?_, parsed,
    rfl⟩
  · simp [split]
  · refine List.forall_mem_append.mpr ⟨fun l member => ?_, routes⟩
    obtain ⟨h, inside, member⟩ := List.mem_flatMap.mp member
    obtain ⟨read, ok⟩ := well h inside
    obtain ⟨found, each, -⟩ := withRoutes_eq_ok_iff.mp ok
    exact exists_of_mapM_eq_ok (mapM_eq_ok_iff.mpr each) l member

/-- A group whose lines have been read, each as one route in its place. -/
structure Parsed (g h : RouteGroup) : Prop where
  same : h = { g with routes := h.routes }
  length : h.routes.length = h.lines.length
  each : List.Forall₂ (fun line r => Route.parse line = .ok r) h.lines h.routes

theorem parsed_of_withRoutes {g h : RouteGroup} (read : g.withRoutes = .ok h) : Parsed g h := by
  obtain ⟨routes, each, rfl⟩ := withRoutes_eq_ok_iff.mp read
  exact ⟨rfl, each.length_eq.symm, each⟩

/-- The lines of all groups are routes exactly if the groups can be read. -/
theorem exists_mapM_withRoutes_iff {groups : List RouteGroup} :
    (∃ read, groups.mapM withRoutes = .ok read) ↔
      ∀ line ∈ groups.flatMap lines, ∃ r, Route.parse line = .ok r := by
  constructor
  · rintro ⟨read, ok⟩ line member
    obtain ⟨g, inside, member⟩ := List.mem_flatMap.mp member
    obtain ⟨h, ok⟩ := exists_of_mapM_eq_ok ok g inside
    obtain ⟨routes, each, -⟩ := withRoutes_eq_ok_iff.mp ok
    exact exists_of_mapM_eq_ok (mapM_eq_ok_iff.mpr each) line member
  · intro all
    cases read : groups.mapM withRoutes with
    | ok hs => exact ⟨hs, rfl⟩
    | error e =>
      obtain ⟨before, line, behind, reason, split, -, fault, -⟩ := firstFault_of_mapM read
      obtain ⟨r, ok⟩ := all line (by simp [split])
      rw [fault] at ok
      cases ok

/-- The names of the fields of a group. -/
def names : List String := ["base", "paths", "use"]

theorem set_of_unknown {name : String} (unknown : name ∉ names) (g : RouteGroup) (d : Document) :
    g.set name d = .ok g := by
  unfold set
  split <;> simp_all [names]

end RouteGroup

/-- Steps that leave the record alone may be left out. -/
theorem foldlM_filter {σ α ε : Type} {step : σ → α → Except ε σ} {p : α → Bool}
    (idle : ∀ s x, p x = false → step s x = .ok s) (xs : List α) (s : σ) :
    (xs.filter p).foldlM step s = xs.foldlM step s := by
  induction xs generalizing s with
  | nil => rfl
  | cons x xs ih =>
    rw [List.filter_cons]
    split
    next known =>
      rw [List.foldlM_cons, List.foldlM_cons]
      exact congrArg _ (funext ih)
    next unknown =>
      rw [List.foldlM_cons, idle s x (by simpa using unknown), ih]
      rfl

namespace Document

/-- A group without the fields of other names. -/
def knownGroup : Document → Document
  | .mapping fields => .mapping (fields.filter fun f => RouteGroup.names.contains f.1)
  | d => d

def knownGroups : Document → Document
  | .sequence items => .sequence (items.map knownGroup)
  | d => d

theorem ofDocument_knownGroup (d : Document) :
    RouteGroup.ofDocument d.knownGroup.asText = RouteGroup.ofDocument d.asText := by
  cases d with
  | scalar | sequence => rfl
  | mapping fields =>
    simp only [knownGroup, asText, fieldsAsText_eq_map, RouteGroup.ofDocument, List.foldlM_map]
    refine foldlM_filter (fun g f unknown => ?_) fields ({} : RouteGroup)
    exact RouteGroup.set_of_unknown (by simpa using unknown) g f.2.asText

theorem readList_knownGroups (d : Document) :
    d.knownGroups.asText.readList RouteGroup.ofDocument =
      d.asText.readList RouteGroup.ofDocument := by
  cases d with
  | scalar | mapping => rfl
  | sequence items =>
    simp only [knownGroups, asText, itemsAsText_eq_map, readList, List.mapM_map, Function.comp_def,
      ofDocument_knownGroup]

end Document

namespace Configuration

/-- The names of the fields of a configuration. -/
def names : List String := ["args", "imports", "mux", "out", "package", "routes", "vars"]

/-- The fields without those of other names, in the groups too. -/
def knownFields (fields : Fields Document) : Fields Document :=
  (fields.filter fun f => names.contains f.1).map fun f =>
    (f.1, if f.1 = "routes" then f.2.knownGroups else f.2)

theorem set_of_unknown {name : String} (unknown : name ∉ names) (c : Configuration) (d : Document) :
    c.set name d = .ok c := by
  unfold set
  split <;> simp_all [names]

theorem ofTextDocument_knownFields (fields : Fields Document) :
    ofTextDocument (Document.mapping (knownFields fields)).asText =
      ofTextDocument (Document.mapping fields).asText := by
  have groups (c : Configuration) (f : String × Document) :
      c.set f.1 (if f.1 = "routes" then f.2.knownGroups else f.2).asText =
        c.set f.1 f.2.asText := by
    split
    next routes =>
      rw [routes]
      simp only [set, Document.readList_knownGroups]
    next => rfl
  simp only [Document.asText, Document.fieldsAsText_eq_map, ofTextDocument, knownFields,
    List.foldlM_map, groups]
  refine foldlM_filter (fun c f unknown => ?_) fields ({} : Configuration)
  exact set_of_unknown (by simpa using unknown) c f.2.asText

theorem ofDocument_of_shaped {fields : Fields Document}
    (ordered : Document.Ordered (.mapping fields)) (shaped : Shaped fields) :
    ofDocument (.mapping fields) = ((ofFields fields).groups.mapM RouteGroup.withRoutes).map
      fun groups => { ofFields fields with groups := groups } := by
  have verdict := ofTextDocument_verdict ordered
  unfold ofDocument
  generalize ofTextDocument (Document.mapping fields).asText = r at verdict
  cases verdict with
  | misfit unfit => exact absurd shaped unfit
  | fit =>
    cases read : (ofFields fields).groups.mapM RouteGroup.withRoutes <;>
      simp [Except.mapError, bind, Except.bind, pure, Except.pure, Except.map, read]

theorem ofDocument_of_misshapen {fields : Fields Document}
    (ordered : Document.Ordered (.mapping fields)) (misshapen : ¬ Shaped fields) :
    ∃ found expected, ofDocument (.mapping fields) =
      .error (.decode .merged (.shape found expected)) := by
  have verdict := ofTextDocument_verdict ordered
  unfold ofDocument
  generalize ofTextDocument (Document.mapping fields).asText = r at verdict
  cases verdict with
  | fit fits => exact absurd fits misshapen
  | misfit unfit found expected => exact ⟨found, expected, rfl⟩

/-- Reading a document is exact and all or nothing. It succeeds exactly when the known fields have
their shapes and all lines of all groups are routes; what it gives is what the fields say, with the
routes of each group in the order of its lines. A misfit of a shape goes before every other fault, and
of the lines the first that is no route, group after group, gives the error. Nothing hangs on fields
of other names. -/
theorem ofDocument_all_or_nothing {fields : Fields Document}
    (ordered : Document.Ordered (.mapping fields)) :
    let said := ofFields fields
    let lines := said.groups.flatMap RouteGroup.lines
    ((∃ c, ofDocument (.mapping fields) = .ok c) ↔
      Shaped fields ∧ ∀ line ∈ lines, ∃ r, Route.parse line = .ok r) ∧
    (∀ c, ofDocument (.mapping fields) = .ok c → c = { said with groups := c.groups } ∧
      List.Forall₂ RouteGroup.Parsed said.groups c.groups) ∧
    (∀ e, ofDocument (.mapping fields) = .error e →
      (¬ Shaped fields ∧ ∃ found expected, e = .decode .merged (.shape found expected)) ∨
        Shaped fields ∧ RouteGroup.FirstFault lines e) ∧
    ofDocument (.mapping (knownFields fields)) = ofDocument (.mapping fields) := by
  intro said lines
  have unknown : ofDocument (.mapping (knownFields fields)) = ofDocument (.mapping fields) := by
    unfold ofDocument
    rw [ofTextDocument_knownFields]
  by_cases shaped : Shaped fields
  · have whole := ofDocument_of_shaped ordered shaped
    have readable : (∃ groups, said.groups.mapM RouteGroup.withRoutes = .ok groups) ↔
        ∀ line ∈ lines, ∃ r, Route.parse line = .ok r := RouteGroup.exists_mapM_withRoutes_iff
    rw [← readable, unknown, whole]
    cases read : said.groups.mapM RouteGroup.withRoutes with
    | error e =>
      refine ⟨by simp [Except.map], nofun, fun e' same => .inr ⟨shaped, ?_⟩, rfl⟩
      cases same
      exact RouteGroup.firstFault_of_mapM read
    | ok groups =>
      refine ⟨by simp [Except.map, shaped], fun c same => ?_, nofun, rfl⟩
      cases same
      exact ⟨rfl, (mapM_eq_ok_iff.mp read).imp fun _ _ => RouteGroup.parsed_of_withRoutes⟩
  · obtain ⟨found, expected, stopped⟩ := ofDocument_of_misshapen ordered shaped
    rw [stopped]
    refine ⟨by simp [shaped], nofun, fun e same => .inl ⟨shaped, found, expected, ?_⟩, by
      rw [unknown, stopped]⟩
    cases same
    rfl

/-- A number for a text, null for a group, and fields of other names beside the known ones. -/
def listing : Fields Document :=
  [("note", .sequence []), ("package", .scalar (.number (.integer 7))),
    ("routes", .sequence [.scalar .null, .mapping [("paths", .sequence [
      .scalar (.text "GET /users ; list_users ; logged"), .scalar (.text "/ ; index")]),
      ("title", .mapping [])]])]

theorem ofDocument_listing : Document.Ordered (.mapping listing) ∧ Shaped listing ∧
    ∃ c, ofDocument (.mapping listing) = .ok c ∧ c.package = "7" ∧ c.mux = "Mux" ∧
      c.groups.length = 2 := by
  have ordered : Document.Ordered (.mapping listing) := by
    simp only [listing, Document.Ordered, Document.FieldsOrdered, Document.ItemsOrdered]
    decide
  obtain ⟨reads, given, -⟩ := ofDocument_all_or_nothing ordered
  cases read : ofDocument (.mapping listing) with
  | error e =>
    have success : (ofDocument (.mapping listing)).toOption.isSome := by decide +kernel
    rw [read] at success
    cases success
  | ok c =>
    obtain ⟨same, each⟩ := given c read
    exact ⟨ordered, (reads.mp ⟨c, read⟩).1, c, rfl, by rw [same]; rfl, by rw [same]; rfl,
      each.length_eq.symm⟩

end Configuration
end RouteForge
