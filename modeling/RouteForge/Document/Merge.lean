import RouteForge.Document.Basic

/-! Merging documents. Mappings are merged field by field, the items of a sequence follow those
already there, and in every other case the incoming document replaces the other. -/
namespace RouteForge.Document

mutual

def merge : Document → Document → Document
  | .mapping fields, .mapping incoming => .mapping (mergeFields fields incoming)
  | .sequence items, .sequence incoming => .sequence (items ++ incoming)
  | _, incoming => incoming

/-- A field that is already there is merged, a new one is put at its place. -/
def mergeFields (fields : List (String × Document)) :
    List (String × Document) → List (String × Document)
  | [] => fields
  | (name, incoming) :: rest =>
    let value := match Fields.get? fields name with
      | some old => merge old incoming
      | none => incoming
    mergeFields (Fields.put name value fields) rest

end

end RouteForge.Document
