import ObjectQuery.Calendar
import ObjectQuery.Calendar.Layout
import ObjectQuery.Document.Json
import ObjectQuery.Document.Number
import ObjectQuery.Document.Record
import ObjectQuery.Document.Value
import ObjectQuery.Error
import ObjectQuery.Expr
import ObjectQuery.Expr.Equality
import ObjectQuery.Expr.Evaluation
import ObjectQuery.Expr.Parser
import ObjectQuery.Expr.Printer
import ObjectQuery.Expr.Simplify
import ObjectQuery.Number.Binary
import ObjectQuery.Number.Decimal
import ObjectQuery.Number.Decimal.Arithmetic
import ObjectQuery.Number.Decimal.Conversion
import ObjectQuery.Number.Decimal.Text
import ObjectQuery.Number.FloatText
import ObjectQuery.Number.Rounding
import ObjectQuery.Number.Shortest
import ObjectQuery.Number.WordRemainder
import ObjectQuery.Proofs.Value.Joining
import ObjectQuery.Proofs.Expr.Folding
import ObjectQuery.Proofs.Outcome
import ObjectQuery.Schema
import ObjectQuery.Schema.Catalog
import ObjectQuery.Schema.Document
import ObjectQuery.Schema.Involvement
import ObjectQuery.Schema.Resolution
import ObjectQuery.Sql.Config
import ObjectQuery.Sql.Document
import ObjectQuery.Sql.Scope
import ObjectQuery.Sql.Select
import ObjectQuery.Sql.Statement
import ObjectQuery.Sql.Text
import ObjectQuery.Store
import ObjectQuery.Text.Blank
import ObjectQuery.Text.Case
import ObjectQuery.Text.CaseTable
import ObjectQuery.Text.Digits
import ObjectQuery.Text.Like
import ObjectQuery.Text.Lists
import ObjectQuery.Text.Quoted
import ObjectQuery.Token
import ObjectQuery.Token.Lexer
import ObjectQuery.Value
import ObjectQuery.Value.Integer
import ObjectQuery.Value.Operators
import ObjectQuery.Value.Truth
import ObjectQuery.Proofs.Expr.Simplification
import ObjectQuery.Proofs.Store.Agreement
import ObjectQuery.Proofs.Expr.Involvement
import ObjectQuery.Proofs.Number.Decimal.Text
import ObjectQuery.Proofs.Text.Quoted
import ObjectQuery.Proofs.Token.Pieces
import ObjectQuery.Proofs.Token.Scan
import ObjectQuery.Proofs.Expr.Literal
import ObjectQuery.Proofs.Token.Trimming
import ObjectQuery.Proofs.Expr.RawText
import ObjectQuery.Proofs.Expr.Readable
import ObjectQuery.Proofs.Expr.Reading
import ObjectQuery.Proofs.Expr.Matching
import ObjectQuery.Proofs.Expr.Apart
import ObjectQuery.Proofs.Expr.Levels
import ObjectQuery.Proofs.Expr.Taking
import ObjectQuery.Proofs.Expr.Groups
import ObjectQuery.Proofs.Expr.Rereading
import ObjectQuery.Proofs.Expr.Rereading.Operators
import ObjectQuery.Proofs.Expr.Primaries
import ObjectQuery.Proofs.Expr.Rereading.Names
import ObjectQuery.Proofs.Expr.Rereading.Paths
import ObjectQuery.Proofs.Expr.Rereading.Clauses
import ObjectQuery.Proofs.Expr.Rereading.Queries
import ObjectQuery.Proofs.Expr.RoundTrip
import ObjectQuery.Proofs.Sql.Alias
import ObjectQuery.Proofs.Sql.Joins
import ObjectQuery.Proofs.Sql.Rows
import ObjectQuery.Proofs.Sql.Mentions
import ObjectQuery.Proofs.Sql.Tasks
import ObjectQuery.Proofs.Sql.Courses
import ObjectQuery.Proofs.Sql.Sharing
import ObjectQuery.Proofs.Sql.Scoping
import ObjectQuery.Proofs.Sql.Shadowing
import ObjectQuery.Proofs.Sql.Frames
import ObjectQuery.Proofs.Sql.Coverage
import ObjectQuery.Proofs.Expr.Parts
import ObjectQuery.Proofs.Schema.Places
import ObjectQuery.Proofs.Sql.Failures
import ObjectQuery.Proofs.Sql.Declared
import ObjectQuery.Proofs.Sql.Conditions
import ObjectQuery.Proofs.Text.Literals
import ObjectQuery.Proofs.Expr.Strings
import ObjectQuery.Proofs.Schema.Stored
import ObjectQuery.Proofs.Sql.Naming
import ObjectQuery.Proofs.Sql.Characters
import ObjectQuery.Proofs.Sql.Spelling
import ObjectQuery.Proofs.Sql.Uniform
import ObjectQuery.Proofs.Expr.Shelter
import ObjectQuery.Proofs.Expr.Signs
import ObjectQuery.Proofs.Sql.Templates
import ObjectQuery.Proofs.Sql.Contents
import ObjectQuery.Proofs.Sql.Injection
import ObjectQuery.Proofs.Expr.NormalForm
import ObjectQuery.Proofs.Expr.Folded
import ObjectQuery.Proofs.Sql.Comments
import ObjectQuery.Proofs.Sql.Materials
import ObjectQuery.Proofs.Sql.Congruence
import ObjectQuery.Proofs.Sql.Casing
import ObjectQuery.Proofs.Sql.Outlines
import ObjectQuery.Proofs.Sql.Conjuncts
import ObjectQuery.Proofs.Expr.Relabelling
import ObjectQuery.Proofs.Sql.Labels
import ObjectQuery.Proofs.Sql.Mirroring
import ObjectQuery.Proofs.Sql.Relabelling
import ObjectQuery.Proofs.Expr.Analysed
import ObjectQuery.Proofs.Sql.Parameters
import ObjectQuery.Proofs.Expr.Progress
import ObjectQuery.Proofs.Expr.Budget
import ObjectQuery.Proofs.Expr.Termination
import ObjectQuery.Proofs.Token.Draining
import ObjectQuery.Proofs.Schema.Keys
import ObjectQuery.Proofs.Schema.Hierarchy
import ObjectQuery.Proofs.Schema.Rearrangement
import ObjectQuery.Proofs.Schema.Inheritance
import ObjectQuery.Proofs.Schema.Following
import ObjectQuery.Proofs.Sql.Rearrangement
import ObjectQuery.Proofs.Expr.Arithmetic
import ObjectQuery.Proofs.Expr.Admission
import ObjectQuery.Proofs.Expr.Computation
import ObjectQuery.Proofs.Expr.Junctions
import ObjectQuery.Proofs.Expr.Membership
import ObjectQuery.Proofs.Value.Exact
import ObjectQuery.Proofs.Value.Comparison
import ObjectQuery.Proofs.Value.Integers
import ObjectQuery.Proofs.Text.Wildcards
import ObjectQuery.Proofs.Text.InTurn
import ObjectQuery.Proofs.Expr.Composition
import ObjectQuery.Proofs.Sql.Positions
import ObjectQuery.Proofs.Sql.Leaves
import ObjectQuery.Proofs.Sql.Gathering
import ObjectQuery.Proofs.Sql.Booleans
import ObjectQuery.Proofs.Value.Sameness
import ObjectQuery.Proofs.Sql.Selectors
import ObjectQuery.Proofs.Expr.Precedence
import ObjectQuery.Proofs.Expr.Chains
import ObjectQuery.Proofs.Expr.WrittenChains
import ObjectQuery.Proofs.Token.Lossless
import ObjectQuery.Proofs.Token.Quotation
import ObjectQuery.Proofs.Expr.Rejection
import ObjectQuery.Proofs.Token.Casing
import ObjectQuery.Proofs.Expr.Lowered
import ObjectQuery.Proofs.Expr.Casing
import ObjectQuery.Proofs.Expr.Recasing
import ObjectQuery.Proofs.Schema.Composition
import ObjectQuery.Proofs.Sql.Quotation
import ObjectQuery.Proofs.Calendar.Rereading
