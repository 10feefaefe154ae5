import WhileFrontend.CommandLine.Folder
import WhileFrontend.Grammar
import WhileFrontend.Main
import WhileFrontend.Parsing.Cursor
import WhileFrontend.Token.Scanner
import WhileFrontend.Tree.Outline
import WhileFrontend.Tree.Shown
import WhileFrontend.Tree.Source
import WhileFrontend.Proofs.Grammar.Shape
import WhileFrontend.Proofs.Grammar.Unbounded
import WhileFrontend.Proofs.Parsing.Reading
import WhileFrontend.Proofs.Parsing.Soundness
import WhileFrontend.Proofs.Parsing.Completeness
import WhileFrontend.Proofs.Parsing.Exactness
import WhileFrontend.Proofs.Parsing.Persistence
import WhileFrontend.Proofs.Parsing.Breaking
import WhileFrontend.Proofs.Parsing.Faults
import WhileFrontend.Proofs.Parsing.Opened
import WhileFrontend.Proofs.Parsing.Depth
import WhileFrontend.Proofs.Parsing.Limit
import WhileFrontend.Proofs.Parsing.Continued
import WhileFrontend.Proofs.Parsing.EntryPoints
import WhileFrontend.Proofs.Parsing.Wall
import WhileFrontend.Proofs.Token.Lexeme
import WhileFrontend.Proofs.Token.Munch
import WhileFrontend.Proofs.Token.Scanning
import WhileFrontend.Proofs.Text.Classes
import WhileFrontend.Proofs.Tree.Expressible
import WhileFrontend.Proofs.Rendering.Words
import WhileFrontend.Proofs.Rendering.Tokens
import WhileFrontend.Proofs.Rendering.Derivation
import WhileFrontend.Proofs.Rendering.Image
import WhileFrontend.Proofs.Tree.Kinds
import WhileFrontend.Proofs.Rendering.Roundtrip
import WhileFrontend.Proofs.Rendering.Spelling
import WhileFrontend.Proofs.Parsing.Reports
import WhileFrontend.Proofs.CommandLine.Stages
import WhileFrontend.Proofs.CommandLine.Endings
import WhileFrontend.Proofs.Text.Utf8
import WhileFrontend.Proofs.Token.LineEnds
import WhileFrontend.Proofs.CommandLine.Files
import WhileFrontend.Proofs.CommandLine.Sources
import WhileFrontend.Proofs.CommandLine.Outputs
import WhileFrontend.Json.Grammar
import WhileFrontend.Json.Reader
import WhileFrontend.Proofs.Json.Reading
import WhileFrontend.Proofs.Json.Writing
import WhileFrontend.Json.Same
import WhileFrontend.Proofs.Tree.Rebuilt
import WhileFrontend.Proofs.Json.Faithful
import WhileFrontend.Proofs.Tree.Renamed
import WhileFrontend.Proofs.Parsing.Renaming
import WhileFrontend.Proofs.Text.Quoted
import WhileFrontend.Proofs.Tree.Shown
import WhileFrontend.Proofs.Token.Shown
import WhileFrontend.Proofs.CommandLine.Listing
import WhileFrontend.Proofs.Parsing.Sequencing
import WhileFrontend.Proofs.Parsing.Parentheses
import WhileFrontend.Parsing.Walk
import WhileFrontend.Proofs.Parsing.Following
import WhileFrontend.Proofs.Parsing.Progress
import WhileFrontend.Proofs.Parsing.Positions
import WhileFrontend.Proofs.Token.Stepwise
import WhileFrontend.Proofs.Token.Positions
import WhileFrontend.Proofs.Token.Stepping
import WhileFrontend.Proofs.CommandLine.Spelling
