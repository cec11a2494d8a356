/-!
# Kinds of syntax nodes

The kinds of the TypeScript grammar that the analysis tells apart. Every other kind, a punctuation
token for instance, is kept by its name.
-/

namespace FlowShape

/-- What a syntax node is. -/
inductive Kind where
  | program | comment
  | identifier | string | templateString | number | object | array | pair
  | shorthandPropertyIdentifier | methodDefinition
  | unaryExpression | binaryExpression | updateExpression | augmentedAssignmentExpression
  | ternaryExpression
  | awaitExpression | parenthesizedExpression | asExpression | satisfiesExpression
  | nonNullExpression
  | callExpression | newExpression | arguments | memberExpression
  | arrowFunction | functionExpression | functionKeyword | generatorFunction | functionDeclaration
  | generatorFunctionDeclaration
  | classExpression | classDeclaration | abstractClassDeclaration | classBody
  | statementBlock | expressionStatement | returnStatement | throwStatement | emptyStatement
  | breakStatement | continueStatement
  | lexicalDeclaration | variableDeclaration | variableDeclarator
  | ifStatement | forStatement | forInStatement | whileStatement | doStatement
  | switchStatement | switchCase | switchDefault | tryStatement | catchClause | labeledStatement
  | typeAliasDeclaration | interfaceDeclaration | enumDeclaration | ambientDeclaration
  | importStatement | importClause | namedImports | importSpecifier | exportStatement | typeKeyword
  | formalParameters | requiredParameter | optionalParameter
  | objectPattern | arrayPattern | restPattern | pairPattern | assignmentPattern
  | objectAssignmentPattern
  | shorthandPropertyIdentifierPattern
  | other (name : String)
  deriving DecidableEq

namespace Kind

/-- The grammar's name of a kind. -/
def name : Kind → String
  | .program => "program"
  | .comment => "comment"
  | .identifier => "identifier"
  | .string => "string"
  | .templateString => "template_string"
  | .number => "number"
  | .object => "object"
  | .array => "array"
  | .pair => "pair"
  | .shorthandPropertyIdentifier => "shorthand_property_identifier"
  | .methodDefinition => "method_definition"
  | .unaryExpression => "unary_expression"
  | .binaryExpression => "binary_expression"
  | .updateExpression => "update_expression"
  | .augmentedAssignmentExpression => "augmented_assignment_expression"
  | .ternaryExpression => "ternary_expression"
  | .awaitExpression => "await_expression"
  | .parenthesizedExpression => "parenthesized_expression"
  | .asExpression => "as_expression"
  | .satisfiesExpression => "satisfies_expression"
  | .nonNullExpression => "non_null_expression"
  | .callExpression => "call_expression"
  | .newExpression => "new_expression"
  | .arguments => "arguments"
  | .memberExpression => "member_expression"
  | .arrowFunction => "arrow_function"
  | .functionExpression => "function_expression"
  | .functionKeyword => "function"
  | .generatorFunction => "generator_function"
  | .functionDeclaration => "function_declaration"
  | .generatorFunctionDeclaration => "generator_function_declaration"
  | .classExpression => "class"
  | .classDeclaration => "class_declaration"
  | .abstractClassDeclaration => "abstract_class_declaration"
  | .classBody => "class_body"
  | .statementBlock => "statement_block"
  | .expressionStatement => "expression_statement"
  | .returnStatement => "return_statement"
  | .throwStatement => "throw_statement"
  | .emptyStatement => "empty_statement"
  | .breakStatement => "break_statement"
  | .continueStatement => "continue_statement"
  | .lexicalDeclaration => "lexical_declaration"
  | .variableDeclaration => "variable_declaration"
  | .variableDeclarator => "variable_declarator"
  | .ifStatement => "if_statement"
  | .forStatement => "for_statement"
  | .forInStatement => "for_in_statement"
  | .whileStatement => "while_statement"
  | .doStatement => "do_statement"
  | .switchStatement => "switch_statement"
  | .switchCase => "switch_case"
  | .switchDefault => "switch_default"
  | .tryStatement => "try_statement"
  | .catchClause => "catch_clause"
  | .labeledStatement => "labeled_statement"
  | .typeAliasDeclaration => "type_alias_declaration"
  | .interfaceDeclaration => "interface_declaration"
  | .enumDeclaration => "enum_declaration"
  | .ambientDeclaration => "ambient_declaration"
  | .importStatement => "import_statement"
  | .importClause => "import_clause"
  | .namedImports => "named_imports"
  | .importSpecifier => "import_specifier"
  | .exportStatement => "export_statement"
  | .typeKeyword => "type"
  | .formalParameters => "formal_parameters"
  | .requiredParameter => "required_parameter"
  | .optionalParameter => "optional_parameter"
  | .objectPattern => "object_pattern"
  | .arrayPattern => "array_pattern"
  | .restPattern => "rest_pattern"
  | .pairPattern => "pair_pattern"
  | .assignmentPattern => "assignment_pattern"
  | .objectAssignmentPattern => "object_assignment_pattern"
  | .shorthandPropertyIdentifierPattern => "shorthand_property_identifier_pattern"
  | .other name => name

/-- The kinds with a constructor of their own. -/
def known : List Kind :=
  [.program, .comment,
   .identifier, .string, .templateString, .number, .object, .array, .pair,
   .shorthandPropertyIdentifier, .methodDefinition,
   .unaryExpression, .binaryExpression, .updateExpression, .augmentedAssignmentExpression,
   .ternaryExpression,
   .awaitExpression, .parenthesizedExpression, .asExpression, .satisfiesExpression,
   .nonNullExpression,
   .callExpression, .newExpression, .arguments, .memberExpression,
   .arrowFunction, .functionExpression, .functionKeyword, .generatorFunction, .functionDeclaration,
   .generatorFunctionDeclaration,
   .classExpression, .classDeclaration, .abstractClassDeclaration, .classBody,
   .statementBlock, .expressionStatement, .returnStatement, .throwStatement, .emptyStatement,
   .breakStatement, .continueStatement,
   .lexicalDeclaration, .variableDeclaration, .variableDeclarator,
   .ifStatement, .forStatement, .forInStatement, .whileStatement, .doStatement,
   .switchStatement, .switchCase, .switchDefault, .tryStatement, .catchClause, .labeledStatement,
   .typeAliasDeclaration, .interfaceDeclaration, .enumDeclaration, .ambientDeclaration,
   .importStatement, .importClause, .namedImports, .importSpecifier, .exportStatement, .typeKeyword,
   .formalParameters, .requiredParameter, .optionalParameter,
   .objectPattern, .arrayPattern, .restPattern, .pairPattern, .assignmentPattern,
   .objectAssignmentPattern,
   .shorthandPropertyIdentifierPattern]

/-- The kind of a given name. -/
def ofName (name : String) : Kind :=
  (known.find? (·.name == name)).getD (.other name)

@[simp] theorem name_ofName (name : String) : (ofName name).name = name := by
  unfold ofName
  cases h : known.find? (·.name == name) with
  | none => rfl
  | some k => simpa using List.find?_some h

/-- Function literals: the nodes that can be a callback. -/
def isFunctionLiteral : Kind → Bool
  | .arrowFunction | .functionExpression | .functionKeyword | .generatorFunction => true
  | _ => false

/-- Nodes with parameters and a body of their own. -/
def isFunctionScope : Kind → Bool
  | .functionDeclaration | .generatorFunctionDeclaration | .methodDefinition => true
  | k => k.isFunctionLiteral

/-- Wrappers that leave the value of their operand alone: `await e`, `(e)`, `e as T`,
`e satisfies T` and `e!`. -/
def isTransparent : Kind → Bool
  | .awaitExpression | .parenthesizedExpression | .asExpression | .satisfiesExpression
  | .nonNullExpression => true
  | _ => false

/-- Declarations and jumps, which hold no work of their own. -/
def isInert : Kind → Bool
  | .emptyStatement | .breakStatement | .continueStatement
  | .functionDeclaration | .generatorFunctionDeclaration
  | .classDeclaration | .abstractClassDeclaration
  | .typeAliasDeclaration | .interfaceDeclaration | .enumDeclaration
  | .importStatement | .exportStatement | .ambientDeclaration => true
  | _ => false

theorem isFunctionScope_of_isFunctionLiteral {k : Kind} (h : k.isFunctionLiteral) :
    k.isFunctionScope := by
  cases k <;> simp_all [isFunctionLiteral, isFunctionScope]

end Kind

end FlowShape
