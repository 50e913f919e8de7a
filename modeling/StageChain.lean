import StageChain.Main
import StageChain.Preview.Session
import StageChain.Proofs.Graph.Listing
import StageChain.Proofs.Graph.Shape
import StageChain.Proofs.Preview.Generations
import StageChain.Proofs.Preview.Staleness
import StageChain.Proofs.Preview.Progress
import StageChain.Proofs.Preview.RunStructure
import StageChain.Proofs.Graph.Edits
import StageChain.Proofs.Preview.SessionSchedule
import StageChain.Proofs.Preview.Currency
import StageChain.Proofs.Preview.Turns
import StageChain.Proofs.Pipeline.Compilation
import StageChain.Proofs.Graph.Loading
import StageChain.Proofs.Preview.SessionChange
import StageChain.Proofs.Preview.Flags
import StageChain.Proofs.Preview.Settling
import StageChain.Proofs.Preview.View
import StageChain.Proofs.Graph.Faults
import StageChain.Proofs.Graph.Registry
import StageChain.Proofs.Preview.Recompiling
import StageChain.Proofs.Preview.Restarts
import StageChain.Proofs.Pipeline.Alike
import StageChain.Proofs.Graph.Tidy
import StageChain.Proofs.Graph.Reloading
import StageChain.Proofs.Pipeline.Reopening
import StageChain.Proofs.Text.Digits
import StageChain.Proofs.Double.Rounding
import StageChain.Proofs.Double.Layout
import StageChain.Proofs.Json.Numbers
import StageChain.Proofs.Json.Texts
import StageChain.Proofs.Json.RoundTrip
import StageChain.Proofs.Json.Limited
import StageChain.Proofs.Json.Extended
import StageChain.Proofs.Snippet.PythonTexts
import StageChain.Proofs.Snippet.PythonReading
import StageChain.Proofs.Snippet.ReadBack
import StageChain.Proofs.Graph.Removal
import StageChain.Proofs.Pipeline.Shortening
import StageChain.Proofs.Preview.Pages
import StageChain.Proofs.Preview.Agreement
import StageChain.Proofs.Double.Integers
import StageChain.Proofs.Stage.WellFormed
import StageChain.Proofs.Snippet.JavaScriptReading
import StageChain.Proofs.Snippet.JavaScriptNumbers
import StageChain.Proofs.Stage.Rows
import StageChain.Proofs.Stage.Filtering
import StageChain.Proofs.Graph.Normal
import StageChain.Proofs.Graph.InPlace
import StageChain.Proofs.Stage.Sorting
import StageChain.Proofs.Stage.Grouping
import StageChain.Proofs.Graph.Connecting
import StageChain.Proofs.Graph.Standing
import StageChain.Proofs.Graph.Reusing
import StageChain.Proofs.Graph.Dangling
import StageChain.Proofs.Stage.GroupKey
import StageChain.Proofs.Graph.Naming
import StageChain.Proofs.Graph.Endpoints
import StageChain.Proofs.Snippet.JavaScriptTexts
import StageChain.Proofs.Snippet.ShellTarget
import StageChain.Proofs.Source.PairEvents
import StageChain.Proofs.Snippet.PythonTarget
import StageChain.Proofs.Text.Numerals
import StageChain.Proofs.Double.Nearest
import StageChain.Proofs.Stage.Limiting
import StageChain.Proofs.Stage.Literals
import StageChain.Proofs.Stage.Rules
import StageChain.Proofs.Stage.Shaping
import StageChain.Proofs.Pipeline.Results
import StageChain.Proofs.Settings
import StageChain.Proofs.Stage.Computing
import StageChain.Proofs.Stage.FeedingBack
import StageChain.Proofs.Stage.Typing
import StageChain.Proofs.Stage.EitherShape
