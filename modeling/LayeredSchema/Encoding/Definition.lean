import LayeredSchema.Encoding.Table
import LayeredSchema.Entity.Definition

/-!
# Definitions as data

The records that a schema, its objects other than tables, and a whole definition are written
as.
-/

namespace LayeredSchema

instance : Coded Sequence := Coded.record "Sequence" <|
  Fields.start Sequence.mk
    |>.required "name" Sequence.name
    |>.optional "owner" "" Sequence.owner
    |>.optional "description" "" Sequence.description
    |>.optional "cache" none Sequence.cache
    |>.optional "start" none Sequence.start
    |>.optional "min" none Sequence.min
    |>.optional "max" none Sequence.max
    |>.optional "increment" none Sequence.increment
    |>.optional "cycle" false Sequence.cycle
    |>.optional "owned_by" "" Sequence.ownedBy
    |>.optional "grants" [] Sequence.grants

instance : Coded Routine.Parameter := Coded.record "FunctionParameter" <|
  Fields.start Routine.Parameter.mk
    |>.optional "name" "" Routine.Parameter.name
    |>.required "type" Routine.Parameter.type
    |>.optional "direction" default Routine.Parameter.direction

instance : Coded Routine.Body := Coded.record "FunctionDefinition" <|
  Fields.start Routine.Body.mk
    |>.optional "sql_format" none Routine.Body.dialect
    |>.optional "language" "" Routine.Body.language
    |>.required "text" Routine.Body.text

instance : Coded Routine := Coded.record "Function" <|
  Fields.start Routine.mk
    |>.required "name" Routine.name
    |>.optional "owner" "" Routine.owner
    |>.optional "description" "" Routine.description
    |>.optional "returns" "" Routine.returns
    |>.optional "cache_policy" "" Routine.cachePolicy
    |>.optional "security_definer" false Routine.securityDefiner
    |>.optional "parameters" [] Routine.parameters
    |>.optional "definitions" [] Routine.bodies
    |>.optional "grants" [] Routine.grants

instance : Coded Trigger := Coded.record "Trigger" <|
  Fields.start Trigger.mk
    |>.required "name" Trigger.name
    |>.required "table" Trigger.table
    |>.optional "events" [] Trigger.events
    |>.optional "timing" default Trigger.timing
    |>.optional "for_each" default Trigger.level
    |>.required "function" Trigger.routine
    |>.optional "sql_format" none Trigger.dialect

instance : Coded View.Query := Coded.record "ViewQuery" <|
  Fields.start View.Query.mk
    |>.required "sql_format" View.Query.dialect
    |>.required "text" View.Query.text

instance : Coded View := Coded.record "View" <|
  Fields.start View.mk
    |>.required "name" View.name
    |>.optional "owner" "" View.owner
    |>.optional "description" "" View.description
    |>.optional "queries" [] View.queries
    |>.optional "depends_on_views" [] View.dependsOn
    |>.optional "grants" [] View.grants

instance : Coded UserType.Field := Coded.record "CompositeField" <|
  Fields.start UserType.Field.mk
    |>.required "name" UserType.Field.name
    |>.required "type" UserType.Field.type

instance : Coded UserType.Base := Coded.record "DomainType" <|
  Fields.start UserType.Base.mk
    |>.required "base_type" UserType.Base.type
    |>.optional "default" none UserType.Base.defaultValue
    |>.optional "nullable" true UserType.Base.nullable

instance : Coded UserType.Check := Coded.record "DomainConstraint" <|
  Fields.start UserType.Check.mk
    |>.required "name" UserType.Check.name
    |>.required "check" UserType.Check.condition

instance : Coded UserType := Coded.record "TypeDef" <|
  Fields.start UserType.mk
    |>.required "name" UserType.name
    |>.required "kind" UserType.kind
    |>.optional "enum_values" [] UserType.labels
    |>.optional "composite_fields" [] UserType.fields
    |>.optional "domain_type" none UserType.base
    |>.optional "domain_constraints" [] UserType.checks

instance : Coded Schema := Coded.record "Schema" <|
  Fields.start Schema.mk
    |>.required "name" Schema.name
    |>.optional "owner" "" Schema.owner
    |>.optional "description" "" Schema.description
    |>.optional "tables" [] Schema.tables
    |>.optional "types" [] Schema.types
    |>.optional "sequences" [] Schema.sequences
    |>.optional "functions" [] Schema.routines
    |>.optional "triggers" [] Schema.triggers
    |>.optional "views" [] Schema.views
    |>.optional "grants" [] Schema.grants

instance : Coded Roles := Coded.record "RoleAssignment" <|
  Fields.start Roles.mk
    |>.optional "application" "" Roles.application
    |>.optional "owner" "" Roles.owner
    |>.optional "replication" "" Roles.replication
    |>.optional "read_only" "" Roles.readOnly
    |>.optional "custom_roles" [] Roles.custom

instance : Coded Setting := Coded.record "ConfigParam" <|
  Fields.start Setting.mk
    |>.required "name" Setting.name
    |>.required "value" Setting.value

instance : Coded Database := Coded.record "Database" <|
  Fields.start Database.mk
    |>.optional "sql_format" none Database.dialect
    |>.optional "roles" none Database.roles
    |>.optional "config_params" [] Database.settings

instance : Coded Language := Coded.record "Language" <|
  Fields.start Language.mk
    |>.required "name" Language.name
    |>.optional "owner" "" Language.owner
    |>.optional "trusted" false Language.trusted
    |>.optional "procedural" false Language.procedural
    |>.optional "handler" "" Language.handler
    |>.optional "validator" "" Language.validator

instance : Coded Snippet := Coded.record "Sql" <|
  Fields.start Snippet.mk
    |>.optional "author" "" Snippet.author
    |>.optional "ticket" "" Snippet.ticket
    |>.optional "version" "" Snippet.version
    |>.optional "comment" "" Snippet.comment
    |>.optional "stage" none Snippet.stage
    |>.required "text" Snippet.text

instance : Coded Definition := Coded.record "Definition" <|
  Fields.start Definition.mk
    |>.optional "database" none Definition.database
    |>.optional "schemas" [] Definition.schemas
    |>.optional "languages" [] Definition.languages
    |>.optional "sql" [] Definition.snippets

end LayeredSchema
