import ComputedFields.Text.Alphabetic
import ComputedFields.Text.Blank
import ComputedFields.Text.Quoted
import ComputedFields.Text.Integer
import ComputedFields.Decimal.Layout
import ComputedFields.Decimal.Power
import ComputedFields.Calendar
import ComputedFields.Keyed
import ComputedFields.Token.Cursor
import ComputedFields.Function
import ComputedFields.Formula.Parse
import ComputedFields.Sql.Quote
import ComputedFields.Sql.Expr
import ComputedFields.Sql.Query
import ComputedFields.Schema.Value
import ComputedFields.Dialect.Basic
import ComputedFields.Error
import ComputedFields.Rollup
import ComputedFields.Filter.Basic
import ComputedFields.Schema.Field
import ComputedFields.Schema.Table
import ComputedFields.Filter.Compile
import ComputedFields.Fragment
import ComputedFields.Target.Basic
import ComputedFields.Target.Operator
import ComputedFields.Date.Unit
import ComputedFields.Date.Template
import ComputedFields.Builtin.Call
import ComputedFields.Builtin.Numeric
import ComputedFields.Builtin.Text
import ComputedFields.Builtin.Logical
import ComputedFields.Builtin.Date
import ComputedFields.Builtin.Array
import ComputedFields.Builtin.Apply
import ComputedFields.State
import ComputedFields.Compile.Walk
import ComputedFields.Compile.Basic
import ComputedFields.Compile.Session
import ComputedFields.Compile.Generated
import ComputedFields.Cte.Unit
import ComputedFields.Cte.Leaves
import ComputedFields.Cte.Plan
import ComputedFields.Cte.Rows
import ComputedFields.QueryOptions
import ComputedFields.Cte.Read
import ComputedFields.Cte.LinkBody
import ComputedFields.Cte.ConditionalBody
import ComputedFields.Cte.Build
import ComputedFields.RecordQuery
import ComputedFields.Proofs.BuildOrder
import ComputedFields.Proofs.FormulaReads
import ComputedFields.Proofs.Expansion
import ComputedFields.Proofs.ReadOrder
import ComputedFields.Proofs.DialectTyping
import ComputedFields.Proofs.ReadCoverage
import ComputedFields.Proofs.Selection
import ComputedFields.Proofs.CteScope
import ComputedFields.Proofs.VirtualReads
import ComputedFields.Proofs.SessionAnswers
import ComputedFields.Proofs.Inlining
import ComputedFields.Proofs.GeneratedColumns
import ComputedFields.Proofs.Faults
import ComputedFields.Proofs.Circles
import ComputedFields.Proofs.Lockstep
import ComputedFields.Proofs.SharedBodies
import ComputedFields.Proofs.UnitNames
import ComputedFields.Proofs.Registration
import ComputedFields.Proofs.CompiledWords
import ComputedFields.Proofs.NumberSpelling
import ComputedFields.Proofs.CompiledText
import ComputedFields.Proofs.Subqueries
import ComputedFields.Proofs.LexicalClosure
import ComputedFields.Proofs.QueryText
import ComputedFields.Proofs.BodyText
import ComputedFields.Proofs.QueryClosure
import ComputedFields.Proofs.Independence
import ComputedFields.Proofs.StringValues
import ComputedFields.Proofs.PrintedWords
import ComputedFields.Proofs.DanglingReferences
import ComputedFields.Proofs.RoundTrip
import ComputedFields.Proofs.Culprits
import ComputedFields.Proofs.FilterSides
import ComputedFields.Proofs.GroupedKeys
import ComputedFields.Proofs.NativeSql
import ComputedFields.Proofs.Grammar
import ComputedFields.Proofs.WordOrder
import ComputedFields.Proofs.Precedence
import ComputedFields.Proofs.NullSafety
import ComputedFields.Proofs.NumericRollups
import ComputedFields.Proofs.CommonTypes
import ComputedFields.Proofs.Choices
import ComputedFields.Proofs.RowLimits
import ComputedFields.Proofs.Chains
import ComputedFields.Proofs.FilterValues
import ComputedFields.Proofs.EqualFields
import ComputedFields.Proofs.ProjectedColumns
import ComputedFields.Proofs.DatePatterns
import ComputedFields.Proofs.DateSpecifications
import ComputedFields.Proofs.UrlEncoding
import ComputedFields.Proofs.Tiling
import ComputedFields.Proofs.SchemaIndexes
import ComputedFields.Proofs.StateRuns
import ComputedFields.Proofs.LeafSearch
import ComputedFields.Formula.Arena
import ComputedFields.Proofs.TemplateCuts
import ComputedFields.Proofs.ArenaTrees
import ComputedFields.Proofs.ArenaParsing
import ComputedFields.Proofs.ArenaWalks
import ComputedFields.Proofs.IntegerLiterals
import ComputedFields.Proofs.UnsignedNumbers
import ComputedFields.Proofs.CompiledIntegers
