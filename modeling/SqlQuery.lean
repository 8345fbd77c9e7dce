import SqlQuery.Compile.Parameters
import SqlQuery.Main
import SqlQuery.Proofs.Compile.ColumnScope
import SqlQuery.Proofs.Compile.DialectAgreement
import SqlQuery.Proofs.Compile.EitherOr
import SqlQuery.Proofs.Compile.JoinOrder
import SqlQuery.Proofs.Compile.NamesInPlace
import SqlQuery.Proofs.Compile.OutputName
import SqlQuery.Proofs.Compile.RelationScope
import SqlQuery.Proofs.Compile.ResultColumn
import SqlQuery.Proofs.Compile.Safety
import SqlQuery.Proofs.Compile.StatementText
import SqlQuery.Proofs.Compile.Unwritten
import SqlQuery.Proofs.Query.RoundTrip
import SqlQuery.Proofs.Schema.Registration
import SqlQuery.Proofs.Compile.DepthBound
import SqlQuery.Proofs.Compile.Attachment
import SqlQuery.Proofs.Sql.InsertText
import SqlQuery.Proofs.Compile.InsertedRows
import SqlQuery.Proofs.Compile.Cursor
import SqlQuery.Proofs.Compile.Guard
import SqlQuery.Proofs.Compile.RowShape
import SqlQuery.Proofs.Compile.WellFormed
import SqlQuery.Proofs.Compile.DeclaredFields
import SqlQuery.Proofs.Compile.DistinctColumns
import SqlQuery.Proofs.Compile.UpsertKeys
import SqlQuery.Proofs.Compile.Aggregates
import SqlQuery.Proofs.Compile.ConstantCondition
import SqlQuery.Proofs.Compile.TextSearch
import SqlQuery.Proofs.Compile.Membership
import SqlQuery.Proofs.Compile.RelatedRows
import SqlQuery.Proofs.Schema.Suggestion
import SqlQuery.Proofs.Compile.ChildTable
import SqlQuery.Proofs.Compile.WordsAndNames
import SqlQuery.Proofs.Compile.FilterText
import SqlQuery.Proofs.Sql.NameReader
import SqlQuery.Proofs.Compile.AliasSearch
import SqlQuery.Proofs.Compile.RefusedFilter
