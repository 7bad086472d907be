import DecisionTables.Codec.Mixed
import DecisionTables.Formula
import DecisionTables.Proofs.Calendar.Spellings
import DecisionTables.Proofs.Codec.RoundTrip
import DecisionTables.Proofs.Context.Changes
import DecisionTables.Proofs.Matcher.Validation
import DecisionTables.Proofs.Scalar.Comparison
import DecisionTables.Proofs.Scalar.Views
import DecisionTables.Proofs.Table.Appending
import DecisionTables.Proofs.Table.Arrays
import DecisionTables.Proofs.Table.Columns
import DecisionTables.Proofs.Table.ExactLevels
import DecisionTables.Proofs.Table.Faults
import DecisionTables.Proofs.Table.Partition
import DecisionTables.Proofs.Table.Projecting
import DecisionTables.Proofs.Table.SearchFaults
import DecisionTables.Proofs.Table.WellFormed
import DecisionTables.Proofs.Tree.Loop
import DecisionTables.Proofs.Workspace.Alike
import DecisionTables.Proofs.Workspace.Calling
import DecisionTables.Proofs.Workspace.EntryPoints
import DecisionTables.Proofs.Workspace.Genuine
import DecisionTables.Proofs.Workspace.Publication
import DecisionTables.Proofs.Workspace.Refusals
import DecisionTables.Proofs.Workspace.Relisting
import DecisionTables.Proofs.Workspace.Shapes
import DecisionTables.Proofs.Workspace.Supplying
import DecisionTables.Proofs.Workspace.Tiling
import DecisionTables.Proofs.Workspace.Twins
import DecisionTables.Session
import DecisionTables.Text.CodeRange
