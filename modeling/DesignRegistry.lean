import DesignRegistry.Main
import DesignRegistry.Proofs.Patch.Undo
import DesignRegistry.Proofs.Workspace.Abort
import DesignRegistry.Script.Inventory
import DesignRegistry.Proofs.Number.Rounding
import DesignRegistry.Proofs.Registry.Validation
import DesignRegistry.Proofs.Workspace.RoundTrip
import DesignRegistry.Proofs.Workspace.Unwritten
import DesignRegistry.Proofs.Workspace.History
import DesignRegistry.Proofs.Scan.Sum
import DesignRegistry.Proofs.Schema.KeyOrder
import DesignRegistry.Proofs.Pattern.Runs
import DesignRegistry.Proofs.Registry.WellFormed
import DesignRegistry.Proofs.Storage.FreeName
import DesignRegistry.Proofs.Storage.Listing
import DesignRegistry.Proofs.Workspace.Saving
import DesignRegistry.Proofs.Storage.Shelf
import DesignRegistry.Proofs.Workspace.Stores
import DesignRegistry.Proofs.Registry.Shapes
import DesignRegistry.Proofs.Workspace.NewestFirst
import DesignRegistry.Proofs.Workspace.Return
import DesignRegistry.Proofs.Workspace.Chronicle
import DesignRegistry.Proofs.Workspace.FirstFailure
import DesignRegistry.Proofs.Workspace.Preview
import DesignRegistry.Proofs.Contract.Independence
import DesignRegistry.Proofs.Scan.Options
import DesignRegistry.Proofs.Text.Matches
import DesignRegistry.Proofs.Scan.Commands
import DesignRegistry.Proofs.Scan.Cases
import DesignRegistry.Proofs.Registry.TokenValues
import DesignRegistry.Proofs.Contract.References
import DesignRegistry.Proofs.Glob.Braces
import DesignRegistry.Proofs.Glob.Directories
import DesignRegistry.Proofs.Json.Reference
import DesignRegistry.Proofs.Schema.Range
import DesignRegistry.Proofs.Script.MapItems
import DesignRegistry.Proofs.Script.Inventory
import DesignRegistry.Proofs.Registry.Examples
import DesignRegistry.Proofs.Workspace.Pruning
import DesignRegistry.Proofs.Workspace.References
import DesignRegistry.Proofs.Time.Timestamp
import DesignRegistry.Proofs.Patch.Summary
import DesignRegistry.Proofs.Script.Walk
import DesignRegistry.Proofs.Text.Decoding
import DesignRegistry.Proofs.Text.Lines
import DesignRegistry.Proofs.Script.Positions
import DesignRegistry.Proofs.Json.Grammar
import DesignRegistry.Proofs.Workspace.Streams
import DesignRegistry.Proofs.Command.Outcome
import DesignRegistry.Proofs.Command.Verdict
