import Lineup.Address
import Lineup.Bound
import Lineup.Candidate
import Lineup.Catalog
import Lineup.CommandLine
import Lineup.CommandLine.Arguments
import Lineup.Criteria
import Lineup.Csv.Document
import Lineup.Csv.Scan
import Lineup.Engine
import Lineup.Engine.Exact
import Lineup.Engine.Exhaustive
import Lineup.Engine.Scripted
import Lineup.Expression
import Lineup.Fault
import Lineup.Json.Skip
import Lineup.Json.Token
import Lineup.Json.Value
import Lineup.Linear.Dictionary
import Lineup.Linear.Problem
import Lineup.Linear.Relaxation
import Lineup.Linear.Search
import Lineup.Main
import Lineup.Mode
import Lineup.Number.Exact
import Lineup.Number.Hexadecimal
import Lineup.Number.Layout
import Lineup.Number.Numeral
import Lineup.Number.Shortest
import Lineup.Number.Whole
import Lineup.Program
import Lineup.Proofs.Agreement
import Lineup.Proofs.Alignment
import Lineup.Proofs.Among
import Lineup.Proofs.BoundGrammar
import Lineup.Proofs.BoundOrder
import Lineup.Proofs.BoundText
import Lineup.Proofs.Cells
import Lineup.Proofs.Checks
import Lineup.Proofs.Columns
import Lineup.Proofs.CriteriaGrammar
import Lineup.Proofs.Eligible
import Lineup.Proofs.Entrances
import Lineup.Proofs.Exchange
import Lineup.Proofs.Failures
import Lineup.Proofs.Fields
import Lineup.Proofs.Finite
import Lineup.Proofs.Formulation
import Lineup.Proofs.Greedy
import Lineup.Proofs.Integral
import Lineup.Proofs.Items
import Lineup.Proofs.Keyed
import Lineup.Proofs.Labels
import Lineup.Proofs.Linear.Bound
import Lineup.Proofs.Linear.Search
import Lineup.Proofs.Lines
import Lineup.Proofs.Number.Alike
import Lineup.Proofs.Number.Arithmetic
import Lineup.Proofs.Number.Canonical
import Lineup.Proofs.Number.Counting
import Lineup.Proofs.Number.Integers
import Lineup.Proofs.Number.Nearest
import Lineup.Proofs.Number.Numerals
import Lineup.Proofs.Number.Order
import Lineup.Proofs.Number.Range
import Lineup.Proofs.Number.Rounding
import Lineup.Proofs.Number.Steps
import Lineup.Proofs.Number.Wholes
import Lineup.Proofs.Number.Written
import Lineup.Proofs.Number.Zeros
import Lineup.Proofs.Optimum
import Lineup.Proofs.Partition
import Lineup.Proofs.Prepared
import Lineup.Proofs.Reading
import Lineup.Proofs.Relevant
import Lineup.Proofs.Rows
import Lineup.Proofs.Session
import Lineup.Proofs.SignedZeros
import Lineup.Proofs.Solved
import Lineup.Proofs.Stages
import Lineup.Proofs.Standing
import Lineup.Proofs.Team
import Lineup.Proofs.Text.Pieces
import Lineup.Proofs.Text.Trimming
import Lineup.Proofs.Totals
import Lineup.Proofs.Traversal
import Lineup.Proofs.Variables
import Lineup.Proofs.Weights
import Lineup.Proofs.WellFormed
import Lineup.Proofs.WellPosed
import Lineup.Proofs.Whole
import Lineup.Ranking
import Lineup.Report
import Lineup.Report.Json
import Lineup.Report.Text
import Lineup.Screening
import Lineup.Selection
import Lineup.Service
import Lineup.Service.Body
import Lineup.Service.MediaType
import Lineup.Settings
import Lineup.Settings.File
import Lineup.Settings.LogFilter
import Lineup.Table
import Lineup.Text.Alphanumeric
import Lineup.Text.Blank
import Lineup.Text.Case
import Lineup.Text.Pad
import Lineup.Text.Split
import Lineup.Text.Utf8
