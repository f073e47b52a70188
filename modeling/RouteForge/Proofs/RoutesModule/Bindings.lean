import RouteForge.Proofs.Configuration.Loading
import RouteForge.Proofs.Document.Fields
import RouteForge.Proofs.RoutesModule.Registrations
import RouteForge.Proofs.Text.Octets

/-! The bindings of a routes module. Behind its opening the function binds each variable once, in the
order of the names, and then registers the routes. A binding is marked exactly if no route of any group
has the name in its chain. What a group without routes would wrap them in does not count. -/
namespace RouteForge

/-! ### Order -/

theorem Document.wordingFields_ascending {d : Document} (ordered : d.Ordered) :
    Fields.Ascending d.wordingFields := by
  cases d with
  | scalar | sequence => exact .nil
  | mapping fields => exact ordered.1.map _

/-- Whatever document a configuration is read from, its variables are ascending. -/
theorem Configuration.vars_ascending {fields : Fields Document} {c : Configuration}
    (ordered : Document.Ordered (.mapping fields)) (read : ofDocument (.mapping fields) = .ok c) :
    Fields.Ascending c.vars := by
  have said : Fields.Ascending (ofFields fields).vars := by
    unfold ofFields
    cases found : Fields.get? fields "vars" with
    | none => exact .nil
    | some d =>
      have inside := Document.fieldsOrdered_iff.mp ordered.2 _ (Fields.mem_of_get? found)
      exact Document.wordingFields_ascending inside
  by_cases shaped : Shaped fields
  · rw [ofDocument_of_shaped ordered shaped] at read
    cases groups : (ofFields fields).groups.mapM RouteGroup.withRoutes with
    | error e => rw [groups] at read; cases read
    | ok gs =>
      rw [groups] at read
      cases read
      exact said
  · obtain ⟨found, expected, stopped⟩ := ofDocument_of_misshapen ordered shaped
    rw [stopped] at read
    cases read

namespace RoutesModule

open Registration (wrap)

variable {c : Configuration} {name value : String}

/-! ### Names that are called -/

/-- A route of some group has the name in its chain. -/
def Called (c : Configuration) (name : String) : Prop :=
  ∃ g ∈ c.groups, ∃ r ∈ g.routes, name ∈ r.middlewares ++ g.uses

instance (c : Configuration) (name : String) : Decidable (Called c name) :=
  inferInstanceAs (Decidable (∃ g ∈ c.groups, ∃ r ∈ g.routes, name ∈ r.middlewares ++ g.uses))

/-- The chains of a group behind the names that have been gathered. -/
def gather (found : List String) (g : RouteGroup) : List String :=
  g.routes.foldl (fun found r => found ++ (r.middlewares ++ g.uses)) found

theorem gather_eq (found : List String) (g : RouteGroup) :
    gather found g = found ++ (g.routes.map (Registration.ofRoute g)).flatMap (·.chain) := by
  unfold gather
  rw [List.foldl_append_eq_append, List.flatMap_map, List.flatMap_def]
  rfl

/-- No group loses the names of those before it. -/
theorem foldl_gather (found : List String) (groups : List RouteGroup) :
    groups.foldl gather found = found ++
      (groups.flatMap fun g => g.routes.map (Registration.ofRoute g)).flatMap (·.chain) := by
  induction groups generalizing found with
  | nil => simp
  | cons g gs ih =>
    rw [List.foldl_cons, ih, gather_eq, List.flatMap_cons, List.flatMap_append, List.append_assoc]

theorem foldl_gather_eq_used (c : Configuration) : c.groups.foldl gather [] = used c :=
  foldl_gather [] c.groups

theorem mem_used_iff : name ∈ used c ↔ Called c name := by
  unfold used registrations Called
  simp only [List.mem_flatMap, List.mem_map]
  constructor
  · rintro ⟨-, ⟨g, inside, r, route, rfl⟩, member⟩
    exact ⟨g, inside, r, route, member⟩
  · rintro ⟨g, inside, r, route, member⟩
    exact ⟨_, ⟨g, inside, r, route, rfl⟩, member⟩

/-- The middlewares of a group count if it has a route that they wrap. -/
theorem called_iff : Called c name ↔ (∃ g ∈ c.groups, ∃ r ∈ g.routes, name ∈ r.middlewares) ∨
    ∃ g ∈ c.groups, g.routes ≠ [] ∧ name ∈ g.uses := by
  constructor
  · rintro ⟨g, inside, r, route, member⟩
    rcases List.mem_append.mp member with own | shared
    · exact .inl ⟨g, inside, r, route, own⟩
    · exact .inr ⟨g, inside, List.ne_nil_of_mem route, shared⟩
  · rintro (⟨g, inside, r, route, own⟩ | ⟨g, inside, some_route, shared⟩)
    · exact ⟨g, inside, r, route, List.mem_append_left _ own⟩
    · obtain ⟨r, route⟩ := List.exists_mem_of_ne_nil _ some_route
      exact ⟨g, inside, r, route, List.mem_append_right _ shared⟩

/-! ### Calls -/

/-- The expression of a chain around one of its names: a call of the name on what is inside it, in the
calls of those outside. -/
theorem wrap_append_cons (handler : String) (inside : List String) (name : String)
    (outside : List String) : wrap handler (inside ++ name :: outside) =
      String.join (outside.reverse.map (· ++ "(")) ++
        (name ++ "(" ++ wrap handler inside ++ ")") ++
        String.join (outside.map fun _ => ")") := by
  rw [Registration.openers_closers]
  simp [wrap]

/-- The block of a route registers a call of the name, around what is inside it in the chain and in the
calls of what is outside. -/
def HeadsCall (c : Configuration) (name : String) : Prop :=
  ∃ g ∈ c.groups, ∃ r ∈ g.routes, ∃ inside outside : List String,
    r.middlewares ++ g.uses = inside ++ name :: outside ∧ block g r ∈ blocks c ∧
    ∃ front, block g r = front ++ ",\n        " ++
      (String.join (outside.reverse.map (· ++ "(")) ++
        (name ++ "(" ++ wrap r.handler inside ++ ")") ++
        String.join (outside.map fun _ => ")")) ++ ",\n    );\n"

theorem Called.headsCall (called : Called c name) : HeadsCall c name := by
  obtain ⟨g, inside, r, route, member⟩ := called
  obtain ⟨inner, outer, chain⟩ := List.append_of_mem member
  have registered : block g r ∈ blocks c :=
    List.mem_flatMap.mpr ⟨g, inside, List.mem_map_of_mem route⟩
  refine ⟨g, inside, r, route, inner, outer, chain, registered, ?_⟩
  rw [← wrap_append_cons, ← chain]
  exact ⟨_, rfl⟩

/-! ### Bindings -/

def mark : String := "    #[allow(unused_variables)]\n"

def letText (name value : String) : String := "    let " ++ name ++ " = " ++ value ++ ";\n"

/-- A variable as it is bound, marked unless it is called. -/
def bindingText (c : Configuration) (f : String × String) : String :=
  (if Called c f.1 then "" else mark) ++ letText f.1 f.2

/-- What stands in front of the bindings. -/
def opening (c : Configuration) (s : Stamp) : String :=
  Text.page (head s ++ packageLines c ++ importLines c ++
    ["", "/// Registers every configured route on `mux`.", signature c])

theorem page_binding (c : Configuration) (f : String × String) :
    Text.page (binding (used c) f) = bindingText c f := by
  have contained : (used c).contains f.1 = decide (Called c f.1) := by
    rw [List.contains_eq_mem, decide_eq_decide]
    exact mem_used_iff
  unfold binding bindingText
  dsimp only
  rw [contained]
  by_cases called : Called c f.1 <;>
    simp [called, Text.page, letText, mark, String.append_assoc]

theorem render_eq (c : Configuration) (s : Stamp) : RoutesModule.render c s =
    opening c s ++ String.join (c.vars.map (bindingText c)) ++ String.join (blocks c) ++ "\x7d\n" := by
  have bindings : Text.page (c.vars.flatMap (binding (used c))) =
      String.join (c.vars.map (bindingText c)) := by
    rw [Text.page_flatMap]
    simp only [page_binding]
  rw [← bindings, ← page_registrations]
  unfold render lines body opening
  rw [Text.ofList_unlines]
  simp only [Text.page_append, String.append_assoc]
  rfl

/-- A text that ends in another row than the mark. -/
def EndsPlain (text : String) : Prop :=
  ∃ front last, last ≠ ']' ∧ text.toList = front ++ [last, '\n']

theorem EndsPlain.append_left {text : String} (plain : EndsPlain text) (front : String) :
    EndsPlain (front ++ text) := by
  obtain ⟨inner, last, other, ends⟩ := plain
  refine ⟨front.toList ++ inner, last, other, ?_⟩
  rw [String.toList_append, ends, List.append_assoc]

theorem EndsPlain.not_marked {text : String} (plain : EndsPlain text) :
    ¬ mark.toList <:+ text.toList := by
  obtain ⟨front, last, other, ends⟩ := plain
  rintro ⟨before, marked⟩
  have split : mark.toList = "    #[allow(unused_variables)".toList ++ [']', '\n'] := by decide
  rw [ends, split, ← List.append_assoc] at marked
  cases List.append_inj_right' marked rfl
  exact other rfl

theorem endsPlain_opening (c : Configuration) (s : Stamp) : EndsPlain (opening c s) := by
  have brace : EndsPlain (") \x7b" ++ "\n") := ⟨[')', ' '], '\x7b', by decide, by decide⟩
  have signed : EndsPlain (Text.page [signature c]) := by
    have row : Text.page [signature c] = signature c ++ "\n" := by simp [Text.page]
    rw [row]
    unfold signature
    rw [String.append_assoc]
    exact brace.append_left _
  have split : opening c s = Text.page (head s ++ packageLines c ++ importLines c ++
      ["", "/// Registers every configured route on `mux`."] ++ [signature c]) := by
    simp [opening]
  rw [split, Text.page_append]
  exact signed.append_left _

theorem endsPlain_bindingText (c : Configuration) (f : String × String) :
    EndsPlain (bindingText c f) := by
  have plain : EndsPlain (letText f.1 f.2) :=
    ⟨("    let " ++ f.1 ++ " = " ++ f.2).toList, ';', by decide, by simp [letText]⟩
  exact plain.append_left _

/-- In front of a binding and its mark stands the opening or another binding. -/
theorem endsPlain_bindings (c : Configuration) (s : Stamp) (before : Fields String) :
    EndsPlain (opening c s ++ String.join (before.map (bindingText c))) := by
  rcases List.eq_nil_or_concat before with rfl | ⟨first, f, rfl⟩
  · simpa using endsPlain_opening c s
  · rw [List.concat_eq_append, List.map_append, String.join_append, ← String.append_assoc]
    have last : String.join ([f].map (bindingText c)) = bindingText c f := by simp
    rw [last]
    exact (endsPlain_bindingText c f).append_left _

/-- A binding has the mark just in front of it exactly if it has been marked. -/
theorem marked_iff (c : Configuration) (s : Stamp) (before : Fields String) (name : String) :
    mark.toList <:+ (opening c s ++ String.join (before.map (bindingText c)) ++
      if Called c name then "" else mark).toList ↔ ¬ Called c name := by
  by_cases called : Called c name
  · simpa [called] using (endsPlain_bindings c s before).not_marked
  · rw [if_neg called, String.toList_append]
    exact iff_of_true (List.suffix_append _ _) called

/-- A module binds each variable once, ascending by the octets of the names, behind its opening and in
front of all registrations. A binding stands behind a mark exactly if no route of any group has the name
in its chain. The names of the chains are those that come together group after group and route after
route. The middlewares of a group without routes do not count, and a name without a mark is the head of a
call that some block registers. -/
theorem binding_marked_iff_uncalled (c : Configuration) (ascending : Fields.Ascending c.vars)
    (s : Stamp) :
    RoutesModule.render c s =
      opening c s ++ String.join (c.vars.map (bindingText c)) ++ String.join (blocks c) ++ "\x7d\n" ∧
    c.vars.Pairwise (fun f g => Text.octets f.1 < Text.octets g.1) ∧
    (∀ before name value behind, c.vars = before ++ (name, value) :: behind → ∃ front back,
      RoutesModule.render c s = front ++ letText name value ++ back ∧
      front = opening c s ++ String.join (before.map (bindingText c)) ++
        (if Called c name then "" else mark) ∧
      (mark.toList <:+ front.toList ↔ ¬ Called c name) ∧
      (¬ mark.toList <:+ front.toList → HeadsCall c name)) ∧
    c.groups.foldl gather [] = used c ∧ (∀ name, name ∈ used c ↔ Called c name) ∧
    ∀ name, Called c name ↔ (∃ g ∈ c.groups, ∃ r ∈ g.routes, name ∈ r.middlewares) ∨
      ∃ g ∈ c.groups, g.routes ≠ [] ∧ name ∈ g.uses := by
  refine ⟨render_eq c s, ascending.imp Text.octets_lt, ?_, foldl_gather_eq_used c,
    fun name => mem_used_iff, fun name => called_iff⟩
  intro before name value behind split
  have marked := marked_iff c s before name
  refine ⟨_, String.join (behind.map (bindingText c)) ++ String.join (blocks c) ++ "\x7d\n", ?_, rfl,
    marked, fun plain => ?_⟩
  · rw [render_eq, split, List.map_append, List.map_cons, String.join_append, String.join_cons]
    simp only [bindingText, String.append_assoc]
  · rw [marked, not_not] at plain
    exact plain.headsCall

/-- A group without routes beside one with a route. -/
def spareFields : Fields Document :=
  [("routes", .sequence [.mapping [("use", .sequence [.scalar (.text "spare")])],
      .mapping [("paths", .sequence [.scalar (.text "GET /pet ; list ; json")]),
        ("use", .sequence [.scalar (.text "logger")])]]),
    ("vars", .mapping [("json", .scalar (.text "json()")), ("logger", .scalar (.text "log()")),
      ("spare", .scalar (.text "noop()"))])]

def spare : Configuration where
  vars := [("json", "json()"), ("logger", "log()"), ("spare", "noop()")]
  groups := [{ uses := ["spare"] },
    { uses := ["logger"], lines := ["GET /pet ; list ; json"],
      routes := [{ method := "GET", pattern := "/pet", handler := "list", middlewares := ["json"] }] }]

theorem binding_marked_iff_uncalled_spare :
    let s := Stamp.ofPath (Path.ofText "muxc.yaml")
    Document.Ordered (.mapping spareFields) ∧
      Configuration.ofDocument (.mapping spareFields) = .ok spare ∧ Fields.Ascending spare.vars ∧
      HeadsCall spare "logger" ∧
      ∃ front back, RoutesModule.render spare s = front ++ letText "spare" "noop()" ++ back ∧
        mark.toList <:+ front.toList := by
  intro s
  have ordered : Document.Ordered (.mapping spareFields) := by
    simp only [spareFields, Document.Ordered, Document.FieldsOrdered, Document.ItemsOrdered]
    decide
  have read : Configuration.ofDocument (.mapping spareFields) = .ok spare := by decide +kernel
  have ascending := Configuration.vars_ascending ordered read
  obtain ⟨-, -, bound, -⟩ := binding_marked_iff_uncalled spare ascending s
  obtain ⟨front, back, text, -, marked, -⟩ := bound (spare.vars.take 2) "spare" "noop()" [] rfl
  obtain ⟨_, _, -, -, logged, heads⟩ := bound (spare.vars.take 1) "logger" "log()" _ rfl
  refine ⟨ordered, read, ascending, heads fun here => logged.mp here (by decide), front, back, text,
    marked.mpr (by decide)⟩

end RoutesModule
end RouteForge
