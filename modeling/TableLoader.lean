import TableLoader.Identifier
import TableLoader.Main
import TableLoader.Session
import TableLoader.Proofs.Insert.Literals
import TableLoader.Proofs.Insert.Assembly
import TableLoader.Proofs.Request.Alignment
import TableLoader.Proofs.Request.NotNull
import TableLoader.Proofs.Request.Answers
import TableLoader.Proofs.Request.Numbers
import TableLoader.Proofs.Number.Rounding
import TableLoader.Proofs.Number.Numerals
import TableLoader.Proofs.Cell.Fitting
import TableLoader.Proofs.Sql.Lexing
import TableLoader.Proofs.Sql.Reading
import TableLoader.Proofs.Sql.PlainType
import TableLoader.Proofs.Dump.Clauses
import TableLoader.Proofs.Dump.Inert
import TableLoader.Proofs.Dump.Layout
import TableLoader.Proofs.Dump.RoundTrip
import TableLoader.Proofs.Dump.Spans
import TableLoader.Proofs.Dump.Concatenation
import TableLoader.Proofs.Dump.PlainTable
import TableLoader.Proofs.Dump.PlainGrammar
import TableLoader.Proofs.Dump.Agreement
import TableLoader.Proofs.Dump.ReportedName
import TableLoader.Proofs.Dump.Strings
import TableLoader.Proofs.Dump.PlainNames
import TableLoader.Proofs.Dump.Cleaning
import TableLoader.Proofs.Dump.Comments
import TableLoader.Proofs.Request.StandardStrings
import TableLoader.Proofs.Request.Batches
import TableLoader.Proofs.Request.Spellings
import TableLoader.Proofs.Dump.Fallback
import TableLoader.Proofs.Json.Quoted
import TableLoader.Proofs.Json.Numerals
import TableLoader.Proofs.Json.Rereading
import TableLoader.Proofs.Json.Records
import TableLoader.Proofs.Request.Contract
import TableLoader.Proofs.Insert.ImportedTables
import TableLoader.Proofs.Insert.SelfDelimiting
import TableLoader.Proofs.CommandLine.Generate
import TableLoader.Proofs.Cell.Labels
import TableLoader.Proofs.Dump.TableOptions
import TableLoader.Proofs.Dump.FirstWords
import TableLoader.Proofs.Dump.TableConstraints
import TableLoader.Proofs.Dump.Spacing
import TableLoader.Proofs.Cell.Phrases
import TableLoader.Proofs.Dump.PhraseColumns
import TableLoader.Proofs.Calendar.Layouts
import TableLoader.Proofs.Cell.DateColumns
import TableLoader.Proofs.Number.Finite
import TableLoader.Proofs.Cell.NumericColumns
import TableLoader.Proofs.Dump.Widening
import TableLoader.Proofs.Insert.RowLines
import TableLoader.Proofs.Request.Targets
import TableLoader.Proofs.Cell.BlankTexts
import TableLoader.Proofs.Dump.WholeBody
import TableLoader.Proofs.Cell.LengthBounds
import TableLoader.Proofs.Session.Runs
