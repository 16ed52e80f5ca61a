import MemShell.Map.Ordered
import MemShell.Log.Timestamp
import MemShell.Settings.Lookup
import MemShell.Program.Run
import MemShell.Main
import MemShell.Proofs.Command.Written
import MemShell.Proofs.Word.Groups
import MemShell.Proofs.Files.Invariant
import MemShell.Proofs.Glob.Denotation
import MemShell.Proofs.Word.References
import MemShell.Proofs.Files.Calls
import MemShell.Proofs.Shell.Sequencing
import MemShell.Proofs.Files.Carrying
import MemShell.Proofs.World.Steps
import MemShell.Proofs.World.Following
import MemShell.Proofs.Files.Walk
import MemShell.Proofs.Json.Distinct
import MemShell.Proofs.Files.Loading
import MemShell.Proofs.World.Walking
import MemShell.Proofs.Json.Strings
import MemShell.Proofs.Json.RoundTrip
import MemShell.Proofs.Files.Encoding
import MemShell.Proofs.Files.Restoring
import MemShell.Proofs.Files.Saving
import MemShell.Proofs.World.Appending
import MemShell.Proofs.Token.Grammar
import MemShell.Proofs.Word.Backslashes
import MemShell.Proofs.Files.Opening
import MemShell.Proofs.Word.Keys
import MemShell.Proofs.World.Sinks
import MemShell.Proofs.Shell.Landing
import MemShell.Proofs.Files.Growing
import MemShell.Proofs.World.Cursors
import MemShell.Proofs.Files.Canonical
import MemShell.Proofs.Files.Decoding
import MemShell.Proofs.Shell.Complaints
import MemShell.Proofs.Shell.Scripts
import MemShell.Proofs.Word.Pieces
import MemShell.Proofs.Word.Meaning
import MemShell.Proofs.Token.Lossless
import MemShell.Proofs.Glob.Patterns
import MemShell.Proofs.Files.Mapping
import MemShell.Proofs.Shell.Stopping
import MemShell.Proofs.Stream.Reading
import MemShell.Proofs.Log.Capturing
import MemShell.Proofs.Log.Recent
import MemShell.Proofs.History.Recalling
import MemShell.Proofs.Environment.Protection
import MemShell.Proofs.Path.Composition
import MemShell.Proofs.Settings.Saving
import MemShell.Proofs.Files.Drafts
import MemShell.Proofs.Files.Layout
import MemShell.Proofs.Shell.Turns
import MemShell.Proofs.Shell.Looping
