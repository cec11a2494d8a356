import FlowShape.Analysis
import FlowShape.Files.Analysis
import FlowShape.Main
import FlowShape.Proofs.Tree.Builder
import FlowShape.Proofs.Flow.Id
import FlowShape.Proofs.Call.Classification
import FlowShape.Proofs.Related
import FlowShape.Proofs.Tree.Alike
import FlowShape.Proofs.Emission.Tally
import FlowShape.Proofs.Emission.Numbering
import FlowShape.Proofs.Reading.Passage
import FlowShape.Proofs.Reading.Descent
import FlowShape.Proofs.Emission.Retention
import FlowShape.Proofs.Emission.Presence
import FlowShape.Proofs.Emission.Disclosure
import FlowShape.Proofs.Emission.Rendering
import FlowShape.Proofs.Emission.Relabeling
import FlowShape.Proofs.Reading.Making
import FlowShape.Proofs.Reading.Steps
import FlowShape.Proofs.Reading.Entering
import FlowShape.Proofs.Reading.Coverage
import FlowShape.Proofs.Tree.Order
import FlowShape.Proofs.Reading.Order
import FlowShape.Proofs.Emission.Enclosure
import FlowShape.Proofs.Workflow.Placement
import FlowShape.Proofs.Workflow.Form
import FlowShape.Proofs.Workflow.Provenance
import FlowShape.Proofs.Workflow.Relabeling
import FlowShape.Proofs.Workflow.Sessions
import FlowShape.Proofs.Workflow.Locations
import FlowShape.Proofs.Workflow.Accounting
import FlowShape.Proofs.Workflow.Detection
import FlowShape.Proofs.Workflow.Disclosure
import FlowShape.Proofs.Tree.Preorder
import FlowShape.Proofs.Entry.Exactness
import FlowShape.Proofs.Tree.Meaning
import FlowShape.Proofs.Call.Dressing
import FlowShape.Proofs.Reading.Likeness
import FlowShape.Proofs.Call.Wrapping
import FlowShape.Proofs.Scope.Binding
import FlowShape.Proofs.Reading.Naming
import FlowShape.Proofs.Reading.Origins
import FlowShape.Proofs.Reading.Sagas
import FlowShape.Proofs.Emission.Sagas
import FlowShape.Proofs.Workflow.References
import FlowShape.Proofs.Workflow.Sagas
import FlowShape.Proofs.Table
import FlowShape.Proofs.Workflow.Resolution
import FlowShape.Proofs.Files.Directory
import FlowShape.Proofs.Scope.Declaration
import FlowShape.Proofs.Json
import FlowShape.Proofs.Timestamp
import FlowShape.Proofs.Flow.Serialization
import FlowShape.Proofs.Workflow.Serialization
import FlowShape.Proofs.Number.Rounding
import FlowShape.Proofs.Number.Spelling
import FlowShape.Proofs.Reading.Loops
import FlowShape.Proofs.Outline.Counting
import FlowShape.Proofs.Outline.Elements
import FlowShape.Proofs.Outline.Headers
import FlowShape.Proofs.Step.Operation
import FlowShape.Proofs.Tree.Flaws
import FlowShape.Proofs.Entry.Declarator
import FlowShape.Proofs.Scope.Parameters
import FlowShape.Proofs.Call.Chains
import FlowShape.Proofs.Number.Exactness
import FlowShape.Proofs.Files.Paths
import FlowShape.Proofs.Files.Walk
import FlowShape.Proofs.Step.Settings
import FlowShape.Proofs.Step.Reordering
import FlowShape.Proofs.Step.Repetition
import FlowShape.Proofs.Tree.Recursion
