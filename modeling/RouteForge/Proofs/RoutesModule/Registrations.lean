import RouteForge.RoutesModule

/-! What a routes module registers. Behind the bindings stands one block of text for each route, in
the order of the groups and of the routes in each of them, and then the end of the function. The
expression of a block is the handler wrapped by one middleware after the other. -/
namespace RouteForge

/-! ### Positions -/

section Positions

variable {α β γ : Type} {parts : α → List β} {f : α → β → γ}

/-- In lists behind each other, each item stands behind those of the lists before its own. -/
theorem getElem?_flatMap_map_iff {xs : List α} {k : Nat} {z : γ} :
    (xs.flatMap fun x => (parts x).map (f x))[k]? = some z ↔ ∃ i j x y, xs[i]? = some x ∧
      (parts x)[j]? = some y ∧ k = ((xs.take i).flatMap parts).length + j ∧ z = f x y := by
  induction xs generalizing k with
  | nil => simp
  | cons first rest ih =>
    rw [List.flatMap_cons, List.getElem?_append, List.length_map]
    split
    next here =>
      rw [List.getElem?_map]
      constructor
      · intro found
        obtain ⟨y, at_, rfl⟩ := Option.map_eq_some_iff.mp found
        exact ⟨0, k, first, y, rfl, at_, by simp, rfl⟩
      · rintro ⟨i, j, x, y, named, at_, rfl, rfl⟩
        cases i with
        | zero =>
          obtain rfl : first = x := by simpa using named
          simp [at_]
        | succ i =>
          simp only [List.take_succ_cons, List.flatMap_cons, List.length_append] at here
          omega
    next behind =>
      rw [ih]
      constructor
      · rintro ⟨i, j, x, y, named, at_, place, rfl⟩
        refine ⟨i + 1, j, x, y, by simpa using named, at_, ?_, rfl⟩
        simp only [List.take_succ_cons, List.flatMap_cons, List.length_append]
        omega
      · rintro ⟨i, j, x, y, named, at_, rfl, rfl⟩
        cases i with
        | zero =>
          obtain rfl : first = x := by simpa using named
          have inside : j < (parts first).length := (List.getElem?_eq_some_iff.mp at_).1
          simp only [List.take_zero, List.flatMap_nil, List.length_nil] at behind
          omega
        | succ i =>
          refine ⟨i, j, x, y, by simpa using named, at_, ?_, rfl⟩
          simp only [List.take_succ_cons, List.flatMap_cons, List.length_append]
          omega

end Positions

/-! ### Texts -/

/-- Lines as text, each ended by a line feed. -/
def Text.page (lines : List String) : String := String.join (lines.map (· ++ "\n"))

theorem Text.ofList_unlines (lines : List String) :
    String.ofList (unlines (lines.map String.toList)) = page lines := by
  apply String.toList_inj.mp
  simp [unlines, page, List.flatMap_map]

theorem Text.page_append (front back : List String) :
    page (front ++ back) = page front ++ page back := by
  simp [page]

theorem Text.page_flatMap {α : Type} (f : α → List String) (xs : List α) :
    page (xs.flatMap f) = String.join (xs.map fun x => page (f x)) := by
  induction xs with
  | nil => rfl
  | cons x xs ih => rw [List.flatMap_cons, page_append, ih, List.map_cons, String.join_cons]

namespace Registration

/-- A handler inside the calls of middlewares, the first of which is the innermost. -/
def wrap (handler : String) (chain : List String) : String :=
  chain.foldl (fun inner middleware => middleware ++ "(" ++ inner ++ ")") handler

/-- Opening all calls and then closing them nests them. -/
theorem openers_closers (handler : String) (chain : List String) :
    String.join (chain.reverse.map (· ++ "(")) ++ handler ++ String.join (chain.map fun _ => ")") =
      wrap handler chain := by
  induction chain generalizing handler with
  | nil => simp [wrap]
  | cons m chain ih =>
    have inner := ih (m ++ "(" ++ handler ++ ")")
    calc String.join ((m :: chain).reverse.map (· ++ "(")) ++ handler ++
          String.join ((m :: chain).map fun _ => ")")
        = String.join (chain.reverse.map (· ++ "(")) ++ (m ++ "(" ++ handler ++ ")") ++
            String.join (chain.map fun _ => ")") := by
          simp [String.append_assoc]
      _ = wrap (m ++ "(" ++ handler ++ ")") chain := inner
      _ = wrap handler (m :: chain) := rfl

theorem call_eq_wrap (r : Registration) : r.call = wrap r.handler r.chain :=
  openers_closers r.handler r.chain

end Registration

namespace RoutesModule

open Registration (wrap)

/-- The text that registers a route of a group: the chain as a comment, if there is one, and the call
with the key as a literal and the handler in its middlewares. -/
def block (g : RouteGroup) (r : Route) : String :=
  let chain := r.middlewares ++ g.uses
  let key := if r.method = "" then g.base ++ r.pattern else r.method ++ " " ++ g.base ++ r.pattern
  (if chain = [] then "" else "    // " ++ " <- ".intercalate (r.handler :: chain) ++ "\n") ++
    "    mux.handle(\n        " ++ Text.literal key ++ ",\n        " ++ wrap r.handler chain ++
      ",\n    );\n"

/-- The blocks of all routes, group after group. -/
def blocks (c : Configuration) : List String := c.groups.flatMap fun g => g.routes.map (block g)

theorem page_ofRoute (g : RouteGroup) (r : Route) :
    Text.page (Registration.ofRoute g r).lines = block g r := by
  have key : (if r.method.isEmpty then "" else r.method ++ " ") ++ g.base ++ r.pattern =
      if r.method = "" then g.base ++ r.pattern else r.method ++ " " ++ g.base ++ r.pattern := by
    by_cases any : r.method = "" <;> simp [any, String.append_assoc]
  have comment : Text.page (Registration.ofRoute g r).comment =
      if r.middlewares ++ g.uses = [] then ""
      else "    // " ++ " <- ".intercalate (r.handler :: (r.middlewares ++ g.uses)) ++ "\n" := by
    unfold Registration.comment Registration.ofRoute
    dsimp only
    by_cases bare : r.middlewares ++ g.uses = []
    · simp [bare, Text.page]
    · rw [String.intercalate_cons_of_ne_nil bare]
      simp [bare, Text.page, String.append_assoc]
  unfold Registration.lines block
  rw [Text.page_append, comment, Registration.call_eq_wrap]
  simp only [Registration.ofRoute, key, Text.page, List.map_cons, List.map_nil, String.join_cons,
    String.join_nil, String.append_assoc]
  rfl

theorem page_registrations (c : Configuration) :
    Text.page ((registrations c).flatMap Registration.lines) = String.join (blocks c) := by
  rw [Text.page_flatMap]
  simp only [registrations, blocks, List.map_flatMap, List.map_map, Function.comp_def, page_ofRoute]

theorem length_blocks (c : Configuration) : (blocks c).length = c.routeCount := by
  unfold blocks Configuration.routeCount
  induction c.groups with
  | nil => rfl
  | cons g gs ih => simp [ih]

/-- A module ends in the blocks of its routes, behind its head and the bindings, and the end of the
function. There is one block for each route, and it stands behind those of the groups before its own
and of the routes before it in its group. -/
theorem render_registers_routes (c : Configuration) (s : Stamp) :
    RoutesModule.render c s =
      Text.page (head s ++ packageLines c ++ importLines c ++
        ["", "/// Registers every configured route on `mux`.", signature c]) ++
      Text.page (c.vars.flatMap (binding (used c))) ++ String.join (blocks c) ++ "\x7d\n" ∧
    (blocks c).length = c.routeCount ∧
    ∀ k text, (blocks c)[k]? = some text ↔ ∃ i j g r, c.groups[i]? = some g ∧
      g.routes[j]? = some r ∧ k = ((c.groups.take i).flatMap RouteGroup.routes).length + j ∧
      text = block g r := by
  refine ⟨?_, length_blocks c, fun k text => getElem?_flatMap_map_iff⟩
  unfold render lines body
  rw [Text.ofList_unlines]
  simp only [Text.page_append, page_registrations, String.append_assoc]
  rfl

example : block { uses := ["logger", "request_id"], base := "/api/v1" }
    { method := "GET", pattern := "/pet", handler := "handlers::list_pets(ctrl)",
      middlewares := ["json"] } =
    "    // handlers::list_pets(ctrl) <- json <- logger <- request_id\n    mux.handle(\n" ++
      "        \"GET /api/v1/pet\",\n" ++
      "        request_id(logger(json(handlers::list_pets(ctrl)))),\n    );\n" := by
  decide +kernel

end RoutesModule
end RouteForge
