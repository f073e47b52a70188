import RouteForge.Document.Error
import RouteForge.Yaml.Reader
import RouteForge.Yaml.Writer

/-! Documents and YAML values. A document keeps neither tags nor the order of entries, and its
keys are the texts of the scalars that stand there, so two different keys can collide. -/
namespace RouteForge

def Scalar.text? : Scalar → Option String
  | .null => none
  | .bool b => some (Yaml.boolText b)
  | .number n => some n.text
  | .text s => some s

def Scalar.toValue : Scalar → Yaml.Value
  | .null => .null
  | .bool b => .bool b
  | .number n => .number n
  | .text s => .string s

namespace Document

open RouteForge.Yaml (Value)

def keyText : Value → Except DecodeError String
  | .null => .ok "null"
  | .bool b => .ok (Yaml.boolText b)
  | .number n => .ok n.text
  | .string s => .ok s
  | .tagged _ key => keyText key
  | .sequence _ => .error (.keyNotScalar .sequence)
  | .mapping _ => .error (.keyNotScalar .mapping)

mutual

def ofValue : Value → Except DecodeError Document
  | .null => .ok (.scalar .null)
  | .bool b => .ok (.scalar (.bool b))
  | .number n => .ok (.scalar (.number n))
  | .string s => .ok (.scalar (.text s))
  | .sequence items => (ofItems items).map .sequence
  | .mapping entries => (ofEntries [] entries).map .mapping
  | .tagged _ content => ofValue content

def ofItems : List Value → Except DecodeError (List Document)
  | [] => .ok []
  | item :: rest => do
    let document ← ofValue item
    let documents ← ofItems rest
    return document :: documents

/-- Entries in their order, each key checked before its value. -/
def ofEntries (fields : List (String × Document)) :
    List (Value × Value) → Except DecodeError (List (String × Document))
  | [] => .ok fields
  | (key, value) :: rest =>
    match keyText key with
    | .error e => .error e
    | .ok name =>
      if (Fields.get? fields name).isSome then .error (.repeatedKey name)
      else match ofValue value with
        | .error e => .error e
        | .ok document => ofEntries (Fields.put name document fields) rest

end

mutual

def toValue : Document → Value
  | .scalar s => s.toValue
  | .sequence items => .sequence (itemValues items)
  | .mapping fields => .mapping (fieldValues fields)

def itemValues : List Document → List Value
  | [] => []
  | item :: rest => item.toValue :: itemValues rest

def fieldValues : List (String × Document) → List (Value × Value)
  | [] => []
  | (name, document) :: rest => (.string name, document.toValue) :: fieldValues rest

end

mutual

/-- The document with the text of every scalar in its place. Null has none and stays. -/
def asText : Document → Document
  | .scalar s => match s.text? with
    | some text => .scalar (.text text)
    | none => .scalar s
  | .sequence items => .sequence (itemsAsText items)
  | .mapping fields => .mapping (fieldsAsText fields)

def itemsAsText : List Document → List Document
  | [] => []
  | item :: rest => item.asText :: itemsAsText rest

def fieldsAsText : List (String × Document) → List (String × Document)
  | [] => []
  | (name, document) :: rest => (name, document.asText) :: fieldsAsText rest

end

/-- A text without a value is the empty mapping, and every other value must be a mapping. -/
def ofText (text : String) : Except DecodeError Document :=
  match Yaml.read text with
  | .error fault => .error (.yaml text fault)
  | .ok value =>
    match ofValue value with
    | .error e => .error e
    | .ok (.scalar .null) => .ok empty
    | .ok (.mapping fields) => .ok (.mapping fields)
    | .ok other => .error (.notAMapping other.kind)

def toYaml (document : Document) : String := Yaml.write document.toValue

end Document
end RouteForge
