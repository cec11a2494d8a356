import FlowShape.Entry.Kind
import FlowShape.Json
import FlowShape.Timestamp

/-!
# Options of an analysis

Options are read from JSON: an object whose missing fields take their defaults, or an array of the
fields in order with the last ones left out. A field of a wrong type is refused.
-/

namespace FlowShape

structure Options where
  includeLocations : Bool := true
  /-- The only kind of entry points to look for; all kinds if absent. -/
  detect : Option EntryKind := none
  /-- Whether the functions that run a workflow count as imported under their own names. -/
  assumeImported : Bool := false
  reportUnknownStatements : Bool := false
  /-- Whether to add the workflows of the file that a workflow calls. -/
  resolveReferences : Bool := false
  /-- The time of the analysis, if it is fixed. -/
  analyzedAt : Option Timestamp := none
  deriving DecidableEq

namespace Options

/-- Whether entry points of a kind are looked for. -/
def includes (options : Options) (kind : EntryKind) : Bool :=
  options.detect.all (· == kind)

/-! ## Reading -/

def readBool? : Json → Option Bool
  | .bool value => some value
  | _ => none

/-- The kinds to look for by their name: `all`, or one kind. -/
def detectOfName? (name : String) : Option (Option EntryKind) :=
  if name = "all" then some none else (EntryKind.all.find? (·.name == name)).map some

/-- A name, or an object with the name as its only field and nothing in it. -/
def readDetect? : Json → Option (Option EntryKind)
  | .string name => detectOfName? name
  | .object [(name, .null)] => detectOfName? name
  | _ => none

def readTimestamp? : Json → Option (Option Timestamp)
  | .null => some none
  | .string text => (Timestamp.ofText? text).map some
  | _ => none

/-- Reads a field that may be missing. -/
def readOr {α : Type} (default : α) (read? : Json → Option α) : Option Json → Option α
  | none => some default
  | some json => read? json

/-- Reads options field by field, each looked up by its name and its place. -/
def ofFields? (field : String → Nat → Option Json) : Option Options := do
  return {
    includeLocations := ← readOr true readBool? (field "includeLocations" 0)
    detect := ← readOr none readDetect? (field "detect" 1)
    assumeImported := ← readOr false readBool? (field "assumeImported" 2)
    reportUnknownStatements := ← readOr false readBool? (field "reportUnknownStatements" 3)
    resolveReferences := ← readOr false readBool? (field "resolveReferences" 4)
    analyzedAt := ← readOr none readTimestamp? (field "analyzedAt" 5) }

def ofJson? : Json → Option Options
  | .object fields => ofFields? fun name _ => fields.lookup name
  | .array items => if items.length ≤ 6 then ofFields? fun _ place => items[place]? else none
  | _ => none

/-! ## Writing -/

def detectName (options : Options) : String :=
  match options.detect with
  | none => "all"
  | some kind => kind.name

def toJson (options : Options) : Json :=
  .object [
    ("includeLocations", .bool options.includeLocations),
    ("detect", .string options.detectName),
    ("assumeImported", .bool options.assumeImported),
    ("reportUnknownStatements", .bool options.reportUnknownStatements),
    ("resolveReferences", .bool options.resolveReferences),
    ("analyzedAt", .orNull (fun t => .string t.text) options.analyzedAt)]

end Options

end FlowShape
