import Translit.Grammar.Diagram
import Translit.Grammar.Document.Printer
import Translit.Grammar.Load
import Translit.Parse.Trace
import Translit.Proofs.Grammar.Depth
import Translit.Proofs.Walk.Reading
import Translit.Proofs.Walk.Trie
import Translit.Proofs.Walk.Span
import Translit.Proofs.Walk.Cap
import Translit.Proofs.Walk.Modes
import Translit.Proofs.Token.Alike
import Translit.Proofs.Walk.Locality
import Translit.Proofs.Run.Steps
import Translit.Proofs.Token.Row
import Translit.Proofs.Run.Consumption
import Translit.Proofs.Walk.Finite
import Translit.Proofs.Run.Limits
import Translit.Proofs.Run.Resumed
import Translit.Proofs.Run.Interrupted
import Translit.Proofs.Run.Returns
import Translit.Proofs.Token.Gaps
import Translit.Proofs.Json.Value
import Translit.Proofs.Grammar.Document
import Translit.Proofs.Run.Defects
import Translit.Proofs.Run.Skeleton
import Translit.Proofs.Text.Lines
import Translit.Proofs.Token.Windows
import Translit.Proofs.Token.Guarded
import Translit.Proofs.Walk.Guarded
import Translit.Proofs.Run.Onmatch
import Translit.Proofs.Run.Replay
import Translit.Proofs.Run.Guarded
import Translit.Proofs.Run.Height
import Translit.Proofs.Text.Position
import Translit.Proofs.Grammar.Keys
import Translit.Proofs.Grammar.Load
import Translit.Proofs.Grammar.Renaming
import Translit.Proofs.Run.Renaming
import Translit.Proofs.Text.Quoted
import Translit.Proofs.Token.Caret
import Translit.Proofs.Grammar.Diagram
import Translit.Proofs.Grammar.Drawn
import Translit.Proofs.Run.Trace
