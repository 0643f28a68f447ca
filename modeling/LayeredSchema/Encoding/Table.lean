import LayeredSchema.Datum.Coded
import LayeredSchema.Entity.Table

/-!
# Tables as data

The records that a table and its parts are written as. A field is left out of a document to
mean the value that the type gives it.
-/

namespace LayeredSchema

instance : Coded Grant := Coded.record "Grant" <|
  Fields.start Grant.mk
    |>.optional "roles" [] Grant.roles
    |>.optional "permissions" [] Grant.permissions
    |>.optional "with_grant_option" false Grant.withGrantOption

instance : Coded KeyRef := Coded.record "KeyNames" <|
  Fields.start KeyRef.mk
    |>.optional "schema" "" KeyRef.schema
    |>.required "table" KeyRef.table
    |>.optional "columns" [] KeyRef.columns
    |>.optional "key_name" "" KeyRef.name

instance : Coded StorageOption := Coded.record "TableOption" <|
  Fields.start StorageOption.mk
    |>.required "sql_format" StorageOption.dialect
    |>.required "name" StorageOption.name
    |>.required "value" StorageOption.value

/-- Only the hooks that are there are written. -/
instance : Coded Hooks := Coded.record "ColumnHooks" <|
  Fields.start Hooks.mk
    |>.sparse "before_add_stage1" Hooks.beforeAdd1
    |>.sparse "before_add_stage2" Hooks.beforeAdd2
    |>.sparse "before_add_stage3" Hooks.beforeAdd3
    |>.sparse "after_add_stage1" Hooks.afterAdd1
    |>.sparse "after_add_stage2" Hooks.afterAdd2
    |>.sparse "after_add_stage3" Hooks.afterAdd3

instance : Coded Column := Coded.record "Column" <|
  Fields.start Column.mk
    |>.required "name" Column.name
    |>.optional "type" none Column.type
    |>.optional "nullable" true Column.nullable
    |>.optional "default" none Column.defaultValue
    |>.optional "description" "" Column.description
    |>.optional "unique" false Column.unique
    |>.optional "check" none Column.check
    |>.optional "foreign_schema" "" Column.foreignSchema
    |>.optional "foreign_table" "" Column.foreignTable
    |>.optional "foreign_column" "" Column.foreignColumn
    |>.optional "foreign_key_name" "" Column.foreignKeyName
    |>.optional "foreign_on_update" default Column.onUpdate
    |>.optional "foreign_on_delete" default Column.onDelete
    |>.optional "hooks" {} Column.hooks

instance : Coded ForeignKey := Coded.record "ForeignKey" <|
  Fields.start ForeignKey.mk
    |>.required "columns" ForeignKey.columns
    |>.optional "foreign_schema" "" ForeignKey.foreignSchema
    |>.required "foreign_table" ForeignKey.foreignTable
    |>.optional "foreign_columns" [] ForeignKey.foreignColumns
    |>.optional "constraint_name" "" ForeignKey.name
    |>.optional "index_name" "" ForeignKey.indexName
    |>.optional "on_update" default ForeignKey.onUpdate
    |>.optional "on_delete" default ForeignKey.onDelete

instance : Coded Index.Dimension := Coded.record "IndexDim" <|
  Fields.start Index.Dimension.mk
    |>.optional "name" "" Index.Dimension.name
    |>.optional "sql" false Index.Dimension.isExpression
    |>.required "value" Index.Dimension.value

instance : Coded Index.Condition := Coded.record "IndexCond" <|
  Fields.start Index.Condition.mk
    |>.required "sql_format" Index.Condition.dialect
    |>.required "condition" Index.Condition.text

instance : Coded Index := Coded.record "Index" <|
  Fields.start Index.mk
    |>.required "name" Index.name
    |>.optional "using" default Index.method
    |>.optional "unique" false Index.unique
    |>.optional "concurrently" false Index.concurrently
    |>.optional "dimensions" [] Index.dimensions
    |>.optional "conditions" [] Index.conditions

instance : Coded Constraint := Coded.record "Constraint" <|
  Fields.start Constraint.mk
    |>.required "name" Constraint.name
    |>.required "type" Constraint.kind
    |>.optional "definition" "" Constraint.definition
    |>.optional "foreign_index_name" "" Constraint.foreignIndexName
    |>.optional "foreign_schema" "" Constraint.foreignSchema
    |>.optional "foreign_table" "" Constraint.foreignTable

instance : Coded Row := Coded.record "DataRow" <|
  Fields.start Row.mk
    |>.required "values" Row.values
    |>.optional "delete" false Row.deleted

instance : Coded RowBlock := Coded.record "DataRows" <|
  Fields.start RowBlock.mk
    |>.required "columns" RowBlock.columns
    |>.optional "rows" [] RowBlock.rows

instance : Coded Table := Coded.record "Table" <|
  Fields.start Table.mk
    |>.required "name" Table.name
    |>.optional "owner" "" Table.owner
    |>.optional "description" "" Table.description
    |>.optional "primary_key" [] Table.primaryKey
    |>.optional "primary_key_name" "" Table.primaryKeyName
    |>.optional "cluster_index" none Table.clusterIndex
    |>.optional "inherits_schema" "" Table.parentSchema
    |>.optional "inherits_table" "" Table.parentTable
    |>.optional "table_options" [] Table.options
    |>.optional "columns" [] Table.columns
    |>.optional "foreign_keys" [] Table.foreignKeys
    |>.optional "indexes" [] Table.indexes
    |>.optional "constraints" [] Table.constraints
    |>.optional "grants" [] Table.grants
    |>.optional "rows" none Table.rows

end LayeredSchema
