import DocTree.Config.Callers
import DocTree.Workbench.Setup
import DocTree.Proofs.Engine.Reachable
import DocTree.Proofs.Engine.Firing
import DocTree.Proofs.Store.Effects
import DocTree.Proofs.Store.Hierarchy
import DocTree.Proofs.Store.History
import DocTree.Proofs.Store.Rollback
import DocTree.Proofs.Store.Orderly
import DocTree.Proofs.Engine.Atomicity
import DocTree.Proofs.Lock.Exclusion
import DocTree.Proofs.Engine.Releasing
import DocTree.Proofs.Lock.Register
import DocTree.Proofs.Config.SingleFlight
import DocTree.Proofs.Config.Overlooked
import DocTree.Proofs.Config.Inheritance
import DocTree.Proofs.Path.Grammar
import DocTree.Proofs.Store.Scans
import DocTree.Proofs.Hook.Subjects
import DocTree.Proofs.Hook.Variables
import DocTree.Proofs.Store.Outcomes
import DocTree.Proofs.Engine.Containment
import DocTree.Proofs.Config.RoundTrip
import DocTree.Proofs.Hook.Declarations
import DocTree.Proofs.Lock.Lifetimes
import DocTree.Proofs.Engine.Removals
import DocTree.Proofs.Lock.TimeoutForms
import DocTree.Proofs.Lock.TokenForms
import DocTree.Proofs.Hook.Deliveries
import DocTree.Proofs.Config.RootCreation
import DocTree.Proofs.Config.Reentry
