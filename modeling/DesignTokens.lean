import DesignTokens.Main
import DesignTokens.Proofs.AllOrNothing
import DesignTokens.Proofs.Compile
import DesignTokens.Proofs.Containment
import DesignTokens.Proofs.Dependencies
import DesignTokens.Proofs.Diagnostics
import DesignTokens.Proofs.Evaluation
import DesignTokens.Proofs.Flag
import DesignTokens.Proofs.Json.Number
import DesignTokens.Proofs.Kept
import DesignTokens.Proofs.KeyOrder
import DesignTokens.Proofs.LastWrite
import DesignTokens.Proofs.Number.Fifteen
import DesignTokens.Proofs.Number.Reading
import DesignTokens.Proofs.Number.Rounding
import DesignTokens.Proofs.Number.Shortest
import DesignTokens.Proofs.PlanOrder
import DesignTokens.Proofs.Schedule.Acyclic
import DesignTokens.Proofs.Schedule.Fixpoint
import DesignTokens.Proofs.Schedule.Group
import DesignTokens.Proofs.Schedule.History
import DesignTokens.Proofs.Schedule.Reason
import DesignTokens.Proofs.Schedule.Sorted
import DesignTokens.Proofs.Settings
import DesignTokens.Proofs.Target.Header
import DesignTokens.Proofs.Target.NumberLiteral
import DesignTokens.Proofs.Target.Python
import DesignTokens.Proofs.Target.References
import DesignTokens.Proofs.Target.StringLiteral
import DesignTokens.Proofs.Target.Tcl
import DesignTokens.Proofs.Unread
