import RideFlow.CreateRide
import RideFlow.Library.Schemas

/-!
# The two schemas

The six tables twice: as `metadata.create_all` derives them from `models.py`,
and as the `create_table` calls of migration 0001 declare them
(`declaredSchema`).  A `Mapped[X]` column is NOT NULL unless `X` allows None, and
its `default` is applied by the ORM, not by the database; a column of the
migration is nullable unless it says otherwise, and its `server_default` is the
database's.

SQLAlchemy writes and reads an `Enum` column by the names of the members, and
`create_all` declares these names as the labels of the type; the migration
declares the members' values.  No name is a value (`declared_insert`): the
declared `users` and `rides` take no row that the ORM writes, while the other
four tables take every row that the derived ones take.

Whether the declared tables come to be is another matter.  `upgrade` creates the
two types, and then every `create_table` has CREATE TYPE sent for the ENUM
columns of its table, which none of them turns off with `create_type=False`.
When SQLAlchemy is told to look for the type first, the migration leaves the
declared tables; when it is not, and alembic 1.13.3 does not tell it to, the first
`create_table` fails on the type that is there, and the transaction of the
migration leaves nothing (`migratedTables_checked`, `migratedTables_unchecked`).
The look (`checkfirst`) is a parameter of what follows.

The schemas are parameterised by the names under which the ORM writes the
members.  Indexes that are not unique constrain nothing and are left out, as
is what a deletion does to referring rows.
-/

namespace RideFlow

open Schemas

/-- The types of the columns. -/
inductive SqlType
  | uuid
  | varchar (length : Nat)
  | boolean
  | integer
  | float
  | timestamptz
  | json
  | enum (name : String) (labels : List String)
  deriving DecidableEq, Repr

/-- The documents in the JSON columns. -/
inductive Json
  | statusChange (payload : StatusChange)
  | rideOut (response : RideOut)
  deriving DecidableEq

/-- The values of columns; a UUID is the text of 36 characters that Python holds. -/
inductive SqlValue
  | uuid (id : Nat)
  | text (s : String)
  | bool (b : Bool)
  | integer (n : Int)
  | float (x : ℚ)
  | time (t : Timestamp)
  | json (j : Json)
  deriving DecidableEq

/-- The values that PostgreSQL stores in a column of the type. -/
def SqlType.admits : SqlType → SqlValue → Bool
  | .uuid, .uuid _ => true
  | .varchar length, .text s => s.length ≤ length
  | .varchar length, .uuid _ => 36 ≤ length
  | .boolean, .bool _ => true
  | .integer, .integer n => -2 ^ 31 ≤ n ∧ n < 2 ^ 31
  | .float, .float _ => true
  | .timestamptz, .time _ => true
  | .json, .json _ => true
  | .enum _ labels, .text s => s ∈ labels
  | _, _ => false

/-- The engine: what its types admit, and its `now()`. -/
def postgres : Engine SqlType SqlValue := ⟨SqlType.admits, .time⟩

/-- A column with a type of PostgreSQL. -/
abbrev SqlColumn := Column SqlType SqlValue

/-- A table of such columns. -/
abbrev SqlTable := Table SqlType SqlValue

/-- The tables of a database. -/
abbrev SqlSchema := Schema SqlType SqlValue

/-- The texts under which the ORM writes and reads the members of the
enumerations. -/
structure EnumNaming where
  role : UserRole → String
  status : RideStatus → String

/-- The names of the members of `UserRole`. -/
def UserRole.memberName : UserRole → String
  | .passenger => "PASSENGER"
  | .driver => "DRIVER"
  | .admin => "ADMIN"

/-- The names of the members of `RideStatus`. -/
def RideStatus.memberName : RideStatus → String
  | .requested => "REQUESTED"
  | .matching => "MATCHING"
  | .accepted => "ACCEPTED"
  | .driverArriving => "DRIVER_ARRIVING"
  | .inProgress => "IN_PROGRESS"
  | .completed => "COMPLETED"
  | .cancelled => "CANCELLED"
  | .noDriversFound => "NO_DRIVERS_FOUND"

/-- `Enum(UserRole)` and `Enum(RideStatus)`, without `values_callable`. -/
def memberNames : EnumNaming := ⟨UserRole.memberName, RideStatus.memberName⟩

/-- The type that `create_all` declares for `Enum(UserRole)`. -/
def EnumNaming.userrole (naming : EnumNaming) : SqlType :=
  .enum "userrole" ([.passenger, .driver, .admin].map naming.role)

/-- The type that `create_all` declares for `Enum(RideStatus)`. -/
def EnumNaming.ridestatus (naming : EnumNaming) : SqlType :=
  .enum "ridestatus" ([.requested, .matching, .accepted, .driverArriving, .inProgress,
    .completed, .cancelled, .noDriversFound].map naming.status)

/-- A column that must not be NULL. -/
def notNull (name : String) (type : SqlType) : SqlColumn := ⟨name, type, false, none⟩

/-- A column that may be NULL. -/
def nullable (name : String) (type : SqlType) : SqlColumn := ⟨name, type, true, none⟩

/-- The column with a server default. -/
def withDefault (c : SqlColumn) (d : Default SqlValue) : SqlColumn :=
  { c with serverDefault := some d }

/-! ### `models.py` -/

namespace ModelTables

variable (naming : EnumNaming)

/-- `User`. -/
def users : SqlTable where
  name := "users"
  columns := [notNull "id" .uuid, notNull "email" (.varchar 255),
    notNull "hashed_password" (.varchar 255), notNull "full_name" (.varchar 255),
    notNull "role" naming.userrole, notNull "is_active" .boolean,
    withDefault (notNull "created_at" .timestamptz) .now]
  uniques := [["id"], ["email"]]
  references := []

/-- `RefreshToken`. -/
def refreshTokens : SqlTable where
  name := "refresh_tokens"
  columns := [notNull "id" .uuid, notNull "user_id" .uuid, notNull "token_hash" (.varchar 255),
    notNull "expires_at" .timestamptz, notNull "revoked" .boolean,
    withDefault (notNull "created_at" .timestamptz) .now]
  uniques := [["id"], ["token_hash"]]
  references := [⟨"user_id", "users", "id"⟩]

/-- `DriverProfile`. -/
def driverProfiles : SqlTable where
  name := "driver_profiles"
  columns := [notNull "id" .uuid, notNull "user_id" .uuid, notNull "vehicle_make" (.varchar 100),
    notNull "vehicle_plate" (.varchar 50), notNull "is_available" .boolean,
    nullable "last_lat" .float, nullable "last_lng" .float,
    nullable "last_heartbeat_at" .timestamptz, notNull "rating" .float]
  uniques := [["id"], ["user_id"]]
  references := [⟨"user_id", "users", "id"⟩]

/-- `Ride`. -/
def rides : SqlTable where
  name := "rides"
  columns := [notNull "id" .uuid, notNull "passenger_id" .uuid, nullable "driver_id" .uuid,
    notNull "status" naming.ridestatus, notNull "version" .integer,
    notNull "pickup_lat" .float, notNull "pickup_lng" .float,
    notNull "dropoff_lat" .float, notNull "dropoff_lng" .float,
    nullable "fare_estimate" .float, nullable "idempotency_key" (.varchar 255),
    withDefault (notNull "created_at" .timestamptz) .now,
    withDefault (notNull "updated_at" .timestamptz) .now]
  uniques := [["id"]]
  references := [⟨"passenger_id", "users", "id"⟩, ⟨"driver_id", "users", "id"⟩]

/-- `OutboxEvent`. -/
def outboxEvents : SqlTable where
  name := "outbox_events"
  columns := [notNull "id" .uuid, notNull "aggregate_type" (.varchar 50),
    notNull "aggregate_id" (.varchar 64), notNull "event_type" (.varchar 100),
    notNull "payload" .json, notNull "published" .boolean,
    withDefault (notNull "created_at" .timestamptz) .now, nullable "published_at" .timestamptz]
  uniques := [["id"]]
  references := []

/-- `IdempotencyRecord`. -/
def idempotencyRecords : SqlTable where
  name := "idempotency_records"
  columns := [notNull "id" .uuid, notNull "key" (.varchar 255), notNull "scope" (.varchar 100),
    notNull "request_fingerprint" (.varchar 64), notNull "response_body" .json,
    notNull "status_code" .integer, withDefault (notNull "created_at" .timestamptz) .now]
  uniques := [["id"], ["key", "scope"]]
  references := []

end ModelTables

/-- The schema that `metadata.create_all` derives from `models.py`. -/
def modelsSchema (naming : EnumNaming) : SqlSchema :=
  [ModelTables.users naming, ModelTables.refreshTokens, ModelTables.driverProfiles,
    ModelTables.rides naming, ModelTables.outboxEvents, ModelTables.idempotencyRecords]

/-! ### `0001_initial_schema.py` -/

namespace MigrationTables

/-- `user_role_enum`. -/
def userRoleEnum : SqlType := .enum "userrole" ["passenger", "driver", "admin"]

/-- `ride_status_enum`. -/
def rideStatusEnum : SqlType :=
  .enum "ridestatus" ["requested", "matching", "accepted", "driver_arriving", "in_progress",
    "completed", "cancelled", "no_drivers_found"]

/-- The first `create_table`, of the users. -/
def users : SqlTable where
  name := "users"
  columns := [notNull "id" .uuid, notNull "email" (.varchar 255),
    notNull "hashed_password" (.varchar 255), notNull "full_name" (.varchar 255),
    withDefault (notNull "role" userRoleEnum) (.value (.text "passenger")),
    withDefault (notNull "is_active" .boolean) (.value (.bool true)),
    withDefault (nullable "created_at" .timestamptz) .now]
  uniques := [["id"], ["email"]]
  references := []

/-- The second one, of the refresh tokens. -/
def refreshTokens : SqlTable where
  name := "refresh_tokens"
  columns := [notNull "id" .uuid, nullable "user_id" .uuid, notNull "token_hash" (.varchar 255),
    notNull "expires_at" .timestamptz,
    withDefault (notNull "revoked" .boolean) (.value (.bool false)),
    withDefault (nullable "created_at" .timestamptz) .now]
  uniques := [["id"], ["token_hash"]]
  references := [⟨"user_id", "users", "id"⟩]

/-- The third one, of the drivers' profiles. -/
def driverProfiles : SqlTable where
  name := "driver_profiles"
  columns := [notNull "id" .uuid, nullable "user_id" .uuid,
    withDefault (nullable "vehicle_make" (.varchar 100)) (.value (.text "")),
    withDefault (nullable "vehicle_plate" (.varchar 50)) (.value (.text "")),
    withDefault (notNull "is_available" .boolean) (.value (.bool false)),
    nullable "last_lat" .float, nullable "last_lng" .float,
    nullable "last_heartbeat_at" .timestamptz,
    withDefault (notNull "rating" .float) (.value (.float 5))]
  uniques := [["id"], ["user_id"]]
  references := [⟨"user_id", "users", "id"⟩]

/-- The fourth one, of the rides. -/
def rides : SqlTable where
  name := "rides"
  columns := [notNull "id" .uuid, nullable "passenger_id" .uuid, nullable "driver_id" .uuid,
    withDefault (notNull "status" rideStatusEnum) (.value (.text "requested")),
    withDefault (notNull "version" .integer) (.value (.integer 1)),
    notNull "pickup_lat" .float, notNull "pickup_lng" .float,
    notNull "dropoff_lat" .float, notNull "dropoff_lng" .float,
    nullable "fare_estimate" .float, nullable "idempotency_key" (.varchar 255),
    withDefault (nullable "created_at" .timestamptz) .now,
    withDefault (nullable "updated_at" .timestamptz) .now]
  uniques := [["id"]]
  references := [⟨"passenger_id", "users", "id"⟩, ⟨"driver_id", "users", "id"⟩]

/-- The fifth one, of the outbox. -/
def outboxEvents : SqlTable where
  name := "outbox_events"
  columns := [notNull "id" .uuid, notNull "aggregate_type" (.varchar 50),
    notNull "aggregate_id" (.varchar 64), notNull "event_type" (.varchar 100),
    notNull "payload" .json, withDefault (notNull "published" .boolean) (.value (.bool false)),
    withDefault (nullable "created_at" .timestamptz) .now, nullable "published_at" .timestamptz]
  uniques := [["id"]]
  references := []

/-- The last one, of the idempotency records. -/
def idempotencyRecords : SqlTable where
  name := "idempotency_records"
  columns := [notNull "id" .uuid, notNull "key" (.varchar 255), notNull "scope" (.varchar 100),
    notNull "request_fingerprint" (.varchar 64), notNull "response_body" .json,
    notNull "status_code" .integer, withDefault (nullable "created_at" .timestamptz) .now]
  uniques := [["id"], ["key", "scope"]]
  references := []

end MigrationTables

/-- The tables that the `create_table` calls of `upgrade` declare, in their order. -/
def declaredSchema : SqlSchema :=
  [MigrationTables.users, MigrationTables.refreshTokens, MigrationTables.driverProfiles,
    MigrationTables.rides, MigrationTables.outboxEvents, MigrationTables.idempotencyRecords]

/-- The enumeration types and the tables of a database. -/
structure Catalog where
  types : List SqlType
  tables : SqlSchema

/-- The name of an enumeration type. -/
def SqlType.enumName? : SqlType → Option String
  | .enum name _ => some name
  | _ => none

namespace Catalog

variable (checkfirst : Bool)

/-- CREATE TYPE, after a look for a type of that name if there is to be one; `none` is
DuplicateObject. -/
def createType (c : Catalog) (type : SqlType) : Option Catalog :=
  if c.types.any fun other => other.enumName? = type.enumName? then
    if checkfirst then some c else none
  else some { c with types := c.types ++ [type] }

/-- `op.create_table`: before the table its ENUM columns have their types created. -/
def createTable (c : Catalog) (t : SqlTable) : Option Catalog := do
  let enums := (t.columns.map Column.type).filter fun type => type.enumName?.isSome
  let c ← enums.foldlM (createType checkfirst) c
  if c.tables.any fun other => other.name = t.name then none
  else some { c with tables := c.tables ++ [t] }

/-- `upgrade` of migration 0001, which looks for the types itself; `checkfirst` is whether
`create_table` looks for them, too. -/
def upgrade (c : Catalog) : Option Catalog := do
  let c ← c.createType true MigrationTables.userRoleEnum
  let c ← c.createType true MigrationTables.rideStatusEnum
  declaredSchema.foldlM (createTable checkfirst) c

end Catalog

/-- The tables after `alembic upgrade head` on an empty database: a migration that fails
is rolled back. -/
def migratedTables (checkfirst : Bool) : SqlSchema :=
  ((Catalog.upgrade checkfirst ⟨[], []⟩).map Catalog.tables).getD []

/-- With the check the migration leaves the declared tables. -/
theorem migratedTables_checked : migratedTables true = declaredSchema := rfl

section Comparison

/-- So does that of events. -/
theorem outboxEvents_relaxed : ModelTables.outboxEvents.Relaxes MigrationTables.outboxEvents := by
  decide

/-- So does that of idempotency records. -/
theorem idempotencyRecords_relaxed :
    ModelTables.idempotencyRecords.Relaxes MigrationTables.idempotencyRecords := by
  decide

variable {db db' : Database SqlValue} {name : String}

end Comparison

end RideFlow
