import FlowShape.Expr.Literal
import FlowShape.Expr.Object

/-!
# Settings of steps

The options of a step-like call. Entries are read in source order and a later one replaces an
earlier one of the same key; unknown keys are left alone.
-/

namespace FlowShape

structure Retry where
  attempts : Option Numeric := none
  backoff : Option String := none
  baseDelay : Option Numeric := none
  maxDelay : Option Numeric := none
  deriving DecidableEq

structure Timeout where
  ms : Option Numeric := none
  deriving DecidableEq

namespace Retry

def isKey (key : String) : Bool :=
  key ∈ ["attempts", "backoff", "baseDelay", "initialDelay", "maxDelay"]

def set (src : Source) (retry : Retry) : String × Node → Retry
  | (key, value) =>
    let value := value.unwrap
    match key with
    | "attempts" => { retry with attempts := some (src.numeric value) }
    | "backoff" => { retry with backoff := some (src.staticString value) }
    | "baseDelay" | "initialDelay" => { retry with baseDelay := some (src.numeric value) }
    | "maxDelay" => { retry with maxDelay := some (src.numeric value) }
    | _ => retry

/-- The retry settings in an object literal, if it has any. -/
def read? (src : Source) (object : Node) : Option Retry :=
  let settings := (src.entries object).filter fun e => isKey e.1
  if settings.isEmpty then none else some (settings.foldl (set src) {})

end Retry

namespace Timeout

/-- The timeout in an object literal, if it has one. -/
def read? (src : Source) (object : Node) : Option Timeout :=
  (src.property? object "ms").map fun ms => ⟨some (src.numeric ms.unwrap)⟩

end Timeout

structure StepSettings where
  key : Option String := none
  name : Option String := none
  description : Option String := none
  markdown : Option String := none
  retry : Option Retry := none
  timeout : Option Timeout := none
  deriving DecidableEq

namespace StepSettings

def set (src : Source) (settings : StepSettings) : String × Node → StepSettings
  | (key, value) =>
    let value := value.unwrap
    match key with
    | "key" => { settings with key := some (src.staticString value) }
    | "name" => { settings with name := some (src.staticString value) }
    | "description" => { settings with description := src.stringLiteral? value }
    | "markdown" => { settings with markdown := src.stringLiteral? value }
    | "retry" =>
      if value.kind = .object then
        { settings with retry := some ((Retry.read? src value).getD {}) }
      else if value.kind = .number then
        { settings with retry := some { attempts := some (src.numeric value) } }
      else settings
    | "timeout" =>
      if value.kind = .object then
        { settings with timeout := some ((Timeout.read? src value).getD {}) }
      else
        { settings with timeout := some ⟨some (src.numeric value)⟩ }
    | _ => settings

/-- The settings in an object literal. -/
def read (src : Source) (object : Node) : StepSettings :=
  (src.entries object).foldl (set src) {}

/-- The settings in an object literal, if there is one. -/
def ofOptions (src : Source) (options : Option Node) : StepSettings :=
  (options.map (read src)).getD {}

/-- The settings of a call that always retries: those at the top level of the options come first,
then a nested `retry`. -/
def withRetry (src : Source) (options : Option Node) : StepSettings :=
  let settings := ofOptions src options
  { settings with retry := (options.bind (Retry.read? src) <|> settings.retry) <|> some {} }

/-- The settings of a call that always has a timeout. -/
def withTimeout (src : Source) (options : Option Node) : StepSettings :=
  let settings := ofOptions src options
  { settings with timeout := (options.bind (Timeout.read? src) <|> settings.timeout) <|> some {} }

end StepSettings

end FlowShape
