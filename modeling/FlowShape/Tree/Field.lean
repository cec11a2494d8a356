/-!
# Fields of syntax nodes

The field of a node is the part it plays in its parent.
-/

namespace FlowShape

/-- The part a syntax node plays in its parent. -/
inductive Field where
  | name | value | key | body | source | aliasName | declaration
  | condition | consequence | alternative | handler | finalizer
  | initializer | increment | kind | left | right
  | operator | argument | arguments | function | constructor | object | property
  | parameter | parameters | pattern
  | other (name : String)
  deriving DecidableEq

namespace Field

/-- The grammar's name of a field. -/
def text : Field → String
  | .name => "name"
  | .value => "value"
  | .key => "key"
  | .body => "body"
  | .source => "source"
  | .aliasName => "alias"
  | .declaration => "declaration"
  | .condition => "condition"
  | .consequence => "consequence"
  | .alternative => "alternative"
  | .handler => "handler"
  | .finalizer => "finalizer"
  | .initializer => "initializer"
  | .increment => "increment"
  | .kind => "kind"
  | .left => "left"
  | .right => "right"
  | .operator => "operator"
  | .argument => "argument"
  | .arguments => "arguments"
  | .function => "function"
  | .constructor => "constructor"
  | .object => "object"
  | .property => "property"
  | .parameter => "parameter"
  | .parameters => "parameters"
  | .pattern => "pattern"
  | .other text => text

/-- The fields with a constructor of their own. -/
def known : List Field :=
  [.name, .value, .key, .body, .source, .aliasName, .declaration,
   .condition, .consequence, .alternative, .handler, .finalizer,
   .initializer, .increment, .kind, .left, .right,
   .operator, .argument, .arguments, .function, .constructor, .object, .property,
   .parameter, .parameters, .pattern]

/-- The field of a given name; the empty name stands for no field. -/
def ofText? (text : String) : Option Field :=
  if text = "" then none else (known.find? (·.text == text)).getD (.other text)

end Field

end FlowShape
