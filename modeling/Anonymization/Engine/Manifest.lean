import Anonymization.Settings.Config
/-!
# The job of the engine

The engine gets its job as a JSON object, the manifest: where the input table lies and the output
belongs, the attributes with their roles, data types and hierarchies, the criteria, the subset and
the metric. The criteria are bound to what they refer to: closeness along a hierarchy needs the
hierarchy of its attribute, presence and inclusion need the research subset.
-/

namespace Anonymization

/-! ## 1. The parts -/

/-- A subset for the engine. -/
def Subset.toJson (s : Subset) : Json :=
  Json.record [("kind", .text s.kind.text),
    (match s.kind with
      | .file => "path"
      | .query => "query", .text s.content)]

/-- A data type for the engine. -/
def DataType.toJson (d : DataType) : Json :=
  Json.record (("type", .text d.name.text) ::
    (match d.format with
      | none => []
      | some f => [("format", .text f)]))

/-- A hierarchy for the engine: its table. -/
def Hierarchy.toJson (h : Hierarchy) : Json :=
  .list (h.table.map fun row => .list (row.map fun v => match v with
    | some t => .text t
    | none => .null))

/-! ## 2. Criteria -/

namespace Criterion

/-- The subset, for a criterion that needs one. -/
def needSubset (subset : Option Subset) (criterion : String) : Except Failure Subset :=
  match subset with
  | some s => .ok s
  | none => .error (.missingSubset criterion.toList)

/-- The hierarchy of an attribute. -/
def needHierarchy (hierarchies : Assoc Text Hierarchy) (name : Text) : Except Failure Hierarchy :=
  match hierarchies.get? name with
  | some h => .ok h
  | none => .error (.missingHierarchy .hierarchicalCloseness name)

/-- A criterion for the engine, bound to the hierarchies and the subset. -/
def forEngine (hierarchies : Assoc Text Hierarchy) (subset : Option Subset) :
    Criterion → Except Failure Json
  | kAnonymity k => .ok (Json.record [("type", .string "k-anonymity"), ("k", .int k)])
  | dPresence dMin dMax => do
    let s ← needSubset subset "d-presence"
    return Json.record [("type", .string "d-presence"), ("d_min", .float dMin), ("d_max", .float dMax),
      ("subset", s.toJson)]
  | inclusion => do
    let s ← needSubset subset "inclusion"
    return Json.record [("type", .string "inclusion"), ("subset", s.toJson)]
  | distinctLDiversity a l => .ok (Json.record [("type", .string "l-diversity"),
      ("variant", .string "distinct"), ("attribute", .text a), ("l", .int l)])
  | entropyLDiversity a l => .ok (Json.record [("type", .string "l-diversity"),
      ("variant", .string "entropy"), ("attribute", .text a), ("l", .float l)])
  | recursiveLDiversity a c l => .ok (Json.record [("type", .string "l-diversity"),
      ("variant", .string "recursive"), ("attribute", .text a), ("c", .float c), ("l", .int l)])
  | hierarchicalTCloseness a t => do
    let h ← needHierarchy hierarchies a
    return Json.record [("type", .string "t-closeness"), ("distance", .string "hierarchical"),
      ("attribute", .text a), ("t", .float t), ("hierarchy", h.toJson)]
  | equalTCloseness a t => .ok (Json.record [("type", .string "t-closeness"),
      ("distance", .string "equal"), ("attribute", .text a), ("t", .float t)])

/-- Criteria for the engine, in order. -/
def allForEngine (hierarchies : Assoc Text Hierarchy) (subset : Option Subset) (cs : List Criterion) :
    Except Failure (List Json) :=
  cs.mapM (forEngine hierarchies subset)

end Criterion

/-! ## 3. The manifest -/

namespace Config

/-- The role of every attribute that is named. -/
def roles (c : Config) : Assoc Text Attributes.Role :=
  c.attributes.roles

/-- An attribute for the engine. Only a quasi identifier has a hierarchy. -/
def attributeEntry (c : Config) (name : Text) (role : Attributes.Role) : Except Failure Json := do
  let dataType := match c.dataTypes.get? name with
    | some d => [("data_type", d.toJson)]
    | none => []
  let hierarchy ← match role with
    | .quasiIdentifying =>
      match c.hierarchies.get? name with
      | some h => pure [("hierarchy", h.toJson)]
      | none => throw (.defect .missingEntry)
    | _ => pure []
  return Json.record ([("name", .text name), ("role", .text role.name)] ++ dataType ++ hierarchy)

/-- The criteria of the configuration for the engine. -/
def boundCriteria (c : Config) : Except Failure (List Json) :=
  Criterion.allForEngine c.hierarchies c.subset c.criteria

/-- What is logged whenever the criteria are bound. -/
def boundLine (c : Config) : LogLine where
  level := .debug
  origin := "utils.criteria_adapter".toList
  message := "Adapted criteria ".toList ++ Text.quotedList (c.criteria.map Criterion.text)

/-- The version of the manifest format. -/
def manifestVersion : String := "1"

/-- The job, with the paths of the input and the output table. -/
def manifest (c : Config) (input output : Text) : Except Failure Json := do
  let attributes ← c.roles.mapM fun (name, role) => c.attributeEntry name role
  let criteria ← c.boundCriteria
  return Json.record [
    ("version", .string manifestVersion),
    ("input", Json.record [("path", .text input), ("separator", .text c.separator),
      ("encoding", .string "utf-8"), ("has_header", .bool true)]),
    ("output", Json.record [("path", .text output), ("overwrite", .bool true)]),
    ("attributes", .list attributes),
    ("privacy", Json.record [("criteria", .list criteria),
      ("suppression_limit", .float c.suppression)]),
    ("subset", match c.subset with
      | some s => s.toJson
      | none => .null),
    ("algorithm", Json.record [("metric", .text c.metric.name),
      ("practical_monotonicity", .bool c.practicalMonotonicity)])]

end Config

end Anonymization
