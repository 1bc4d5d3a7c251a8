import DurableExecution.Workflow.AsyncFunction
import DurableExecution.Workflow.SelfConsistency

/-
This file says which mismatches between the code and the history refuse a decision. The
matcher throws into the code, and the code may go on.
-/

namespace DurableExecution.Workflow

open EventLoop

section Mismatches

variable {H : Type} {replay : Replay} {handler : WorkflowHandler H} {input : JsValue} {fuel : Nat}

end Mismatches

section Examples

end Examples

end DurableExecution.Workflow
