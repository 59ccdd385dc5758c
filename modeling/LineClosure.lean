import LineClosure.Document.Reader
import LineClosure.Document.Writer
import LineClosure.Calendar.DateText
import LineClosure.Calendar.Window
import LineClosure.Registry.Entity
import LineClosure.Registry.Attachments
import LineClosure.Registry.Edit
import LineClosure.Registry.Centroid
import LineClosure.Registry.TextLimit
import LineClosure.Validation.Verdict
import LineClosure.Closure.Collection
import LineClosure.Snapshot.Row
import LineClosure.Snapshot.Load
import LineClosure.Export.Job
import LineClosure.CommandLine.Options
import LineClosure.CommandLine.Program
import LineClosure.Main
import LineClosure.Proofs.Closure.Lineage
import LineClosure.Proofs.Closure.Ascent
import LineClosure.Proofs.Closure.Traversal
import LineClosure.Proofs.Closure.Walk
import LineClosure.Proofs.Closure.Collected
import LineClosure.Proofs.Closure.Outcome
import LineClosure.Proofs.Calendar.ActiveDates
import LineClosure.Proofs.Calendar.Reduction
import LineClosure.Proofs.Closure.Service
import LineClosure.Proofs.Registry.AttachmentRows
import LineClosure.Proofs.Registry.Below
import LineClosure.Proofs.Registry.Descent
import LineClosure.Proofs.Registry.PlacementMoves
import LineClosure.Proofs.Registry.Actions
import LineClosure.Proofs.Registry.Outcomes
import LineClosure.Proofs.Registry.Containment
import LineClosure.Proofs.Registry.TypeRules
import LineClosure.Proofs.Registry.Refusals
import LineClosure.Proofs.Calendar.Clipping
import LineClosure.Proofs.Closure.Widening
import LineClosure.Proofs.Registry.Changes
import LineClosure.Proofs.Snapshot.Runs
import LineClosure.Proofs.Registry.Closed
import LineClosure.Proofs.Snapshot.Loaded
import LineClosure.Proofs.Validation.Foreseen
import LineClosure.Proofs.Snapshot.Declarations
import LineClosure.Proofs.Snapshot.Containments
import LineClosure.Proofs.Snapshot.Sections
import LineClosure.Proofs.Snapshot.Asides
import LineClosure.Proofs.Snapshot.Reflected
import LineClosure.Proofs.Storage.Names
import LineClosure.Proofs.Export.Steps
import LineClosure.Proofs.Export.LineFiles
import LineClosure.Proofs.Export.AllOrNothing
import LineClosure.Proofs.Export.Accounting
import LineClosure.Proofs.Registry.Persistence
import LineClosure.Proofs.Registry.Anchored
import LineClosure.Proofs.Registry.Queries
import LineClosure.Proofs.Export.Layouts
import LineClosure.Proofs.Export.Overwrites
import LineClosure.Proofs.Closure.Idle
import LineClosure.Proofs.Export.Running
import LineClosure.Proofs.Snapshot.Steps
import LineClosure.Proofs.Snapshot.Links
import LineClosure.Proofs.Validation.Dangling
import LineClosure.Proofs.Closure.Enclosing
import LineClosure.Proofs.Snapshot.Rows
import LineClosure.Proofs.Snapshot.Contents
import LineClosure.Proofs.Snapshot.Ownership
import LineClosure.Proofs.Snapshot.Settling
import LineClosure.Proofs.Snapshot.Acceptance
import LineClosure.Proofs.Calendar.DateTexts
import LineClosure.Proofs.Export.TimetableReadback
import LineClosure.Proofs.Closure.Strict
import LineClosure.Proofs.Closure.Warnings
import LineClosure.Proofs.Calendar.KeptSide
import LineClosure.Proofs.Registry.Centroids
import LineClosure.Proofs.Registry.Relations
import LineClosure.Proofs.Registry.Mutators
import LineClosure.Proofs.Registry.Undo
import LineClosure.Proofs.Closure.Buckets
import LineClosure.Proofs.Calendar.Expansion
import LineClosure.Proofs.Closure.Attached
import LineClosure.Proofs.Export.Totals
import LineClosure.Proofs.Validation.Ranges
import LineClosure.Proofs.Validation.Demands
import LineClosure.Proofs.Calendar.Limits
import LineClosure.Proofs.Registry.Entering
import LineClosure.Proofs.Snapshot.Callers
import LineClosure.Proofs.Document.WholeTexts
import LineClosure.Proofs.Snapshot.WholeRecords
import LineClosure.Proofs.Validation.WholeMessages
import LineClosure.Proofs.CommandLine.ExitStatus
