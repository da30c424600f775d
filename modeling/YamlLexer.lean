import YamlLexer.EventText
import YamlLexer.Proofs.Balance
import YamlLexer.Proofs.Brackets
import YamlLexer.Proofs.Calls
import YamlLexer.Proofs.Coverage
import YamlLexer.Proofs.Decoding
import YamlLexer.Proofs.Dedent
import YamlLexer.Proofs.Documents
import YamlLexer.Proofs.Draining
import YamlLexer.Proofs.Ending
import YamlLexer.Proofs.EventText
import YamlLexer.Proofs.Failure
import YamlLexer.Proofs.FlowLayout
import YamlLexer.Proofs.Indentation
import YamlLexer.Proofs.Injection
import YamlLexer.Proofs.Layers
import YamlLexer.Proofs.LineBreaks
import YamlLexer.Proofs.Lines
import YamlLexer.Proofs.LookAhead
import YamlLexer.Proofs.Nesting.Faults
import YamlLexer.Proofs.Nesting.Lasting
import YamlLexer.Proofs.Nesting.Layers
import YamlLexer.Proofs.Nesting.Levels
import YamlLexer.Proofs.Numbers
import YamlLexer.Proofs.Observation
import YamlLexer.Proofs.Origin
import YamlLexer.Proofs.Overrides
import YamlLexer.Proofs.Position
import YamlLexer.Proofs.Reading.LookAhead
import YamlLexer.Proofs.Refusals
import YamlLexer.Proofs.Schedules
import YamlLexer.Proofs.Translation
import YamlLexer.Proofs.Unwinding
import YamlLexer.Proofs.Words.Cursor
import YamlLexer.Proofs.Words.Scan
