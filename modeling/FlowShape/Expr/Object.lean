import FlowShape.Source

/-!
# Object literals

The entries of an object literal in source order. A shorthand property and a method stand for their
own value; a spread element is no entry.
-/

namespace FlowShape.Source

/-- The text of a property name, without quotes. -/
def propertyKey (src : Source) (n : Node) : String :=
  if n.kind = .string then String.ofList (Text.unquote (src.text n).toList) else src.text n

/-- The key and the value of one entry. -/
def entry? (src : Source) (n : Node) : Option (String × Node) :=
  match n.kind with
  | .pair => do
    let key ← n.child? .key
    let value ← n.child? .value
    return (src.propertyKey key, value)
  | .shorthandPropertyIdentifier => some (src.text n, n)
  | .methodDefinition => do
    let name ← n.child? .name
    return (src.propertyKey name, n)
  | _ => none

def entries (src : Source) (object : Node) : List (String × Node) :=
  object.parts.filterMap src.entry?

/-- The value of the first entry with a given key. -/
def property? (src : Source) (object : Node) (key : String) : Option Node :=
  ((src.entries object).find? (·.1 == key)).map (·.2)

end FlowShape.Source
