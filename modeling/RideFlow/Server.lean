import RideFlow.Access
import RideFlow.Accounts
import RideFlow.DriverRequests
import RideFlow.TransitionRide

/-!
# The server

All requests of `auth.py`, `drivers.py` and `rides.py` that write something,
running at once over one database and one Redis: the four systems of the
modules before, side by side, with what they share.

* A request that needs a user arrives with a token (`arrive`).
  `get_current_user` and `require_roles` either refuse it at the door or pass
  its user on to the handler.
* The row that a COMMIT of `create_ride` makes visible is one that transitions
  can read and update.
* The candidates of a search are those that GEOSEARCH finds in the drivers'
  pool at that moment.
* There is one clock, and a registered user can log in.

The rate limiter stands before all of this.  It writes none of these tables,
and its counters are not part of the state.
-/

namespace RideFlow

open Function

/-- The code that is not modelled, as parameters. -/
structure ServerFunctions extends AccountFunctions where
  decodeToken : DecodeToken
  body : BodyFunctions
  dist : GeoDistance

/-- The names of requests, by what they are about. -/
inductive RequestName
  | register (q : RegisterId)
  | auth (q : AuthId)
  | driver (q : DriverReqId)
  | ride (q : ReqId)
  | create (q : CreateId)
  deriving DecidableEq

/-- A request behind `get_current_user`. -/
inductive ProtectedRequest
  | driver (q : DriverReqId) (request : DriverRequest)
  | transitionRide (q : ReqId) (rideId : RideId) (payload : RideTransitionRequest)
  | createRide (q : CreateId) (payload : RideCreateRequest) (idempotencyKey : Option String)

/-- The name of a request with an access token. -/
def ProtectedRequest.name : ProtectedRequest → RequestName
  | .driver q _ => .driver q
  | .transitionRide q _ _ => .ride q
  | .createRide q _ _ => .create q

/-- The role that the route asks for. -/
def ProtectedRequest.authorize (user : User) : ProtectedRequest → Except Rejection User
  | .driver _ _ => requireRoles [.driver] user
  | .transitionRide _ _ _ => .ok user
  | .createRide _ _ _ => requireRoles [.passenger] user

/-- The systems, and the answers to the requests that were refused at the
door. -/
structure ServerState where
  accounts : AccountState
  drivers : DriverState
  rides : RideState
  creates : CreateState
  refused : RequestName → Option Rejection

/-- The registered users, and nothing else. -/
def ServerState.init (users : List User) : ServerState where
  accounts := .init users
  drivers := .init
  rides := .init
  creates := .init
  refused := fun _ => none

/-- A request with a token arrives, a handler or a background task takes a step, or time
passes. -/
inductive ServerAction
  | arrive (request : ProtectedRequest) (token : String)
  | register (a : RegisterAction)
  | auth (a : AuthAction)
  | driver (a : DriverAction)
  | ride (a : RideAction)
  | create (a : CreateAction)
  | advance (seconds : Nat)

/-- The actions of a driver's request or a sweep that has begun: requests begin
by arriving, and the clock is the server's. -/
def DriverAction.within : DriverAction → Bool
  | .begin _ _ _ => false
  | .advance _ => false
  | _ => true

/-- The same for transitions; rides are created by the requests for it. -/
def RideAction.within : RideAction → Bool
  | .create _ _ _ _ _ => false
  | .begin _ _ _ _ => false
  | .advance _ => false
  | _ => true

/-- Is the step inside a handler or a cleanup? -/
def CreateAction.within : CreateAction → Bool
  | .begin _ _ _ _ => false
  | .advance _ => false
  | _ => true

/-- Is it a step of a request? -/
def AuthAction.within : AuthAction → Bool
  | .advance _ => false
  | _ => true

/-- The ride that a COMMIT of `create_ride` makes visible. -/
def CreateState.published (s : CreateState) : CreateAction → Option Ride
  | .commit q =>
      match s.requests q with
      | some (call, .storing ride) => if (s.cached call).isNone then some ride else none
      | _ => none
  | _ => none

/-- The rides with a new one. -/
def RideState.insert (s : RideState) : Option Ride → RideState
  | some ride => { s with rides := update s.rides ride.id (some ride) }
  | none => s

namespace ServerState

variable (s : ServerState)

/-- Has a handler begun to serve the request? -/
def entered : RequestName → Bool
  | .register q => (s.accounts.registers q).isSome
  | .auth q => (s.accounts.auth.requests q).isSome
  | .driver q => (s.drivers.requests q).isSome
  | .ride q => (s.rides.requests q).isSome
  | .create q => (s.creates.requests q).isSome

/-- `get_current_user` and `require_roles`. -/
def authenticated (fns : ServerFunctions) (request : ProtectedRequest) (token : String) :
    Except Rejection User :=
  match getCurrentUser fns.decodeToken s.accounts.auth.users s.accounts.auth.clock token with
  | .error e => .error e
  | .ok user => request.authorize user

/-- The request is refused by the authentication. -/
def refuse (name : RequestName) (error : Rejection) : ServerState :=
  { s with refused := update s.refused name (some error) }

/-- Are the candidates of a search those in the pool? -/
def finds (cfg : Settings) (fns : ServerFunctions) : RideAction → Bool
  | .search q candidates =>
      match s.rides.requests q with
      | some (_, .holding ride _ .search) =>
          findNearbyDrivers cfg fns.dist s.drivers.store.pool ride.pickupLat ride.pickupLng =
            some candidates
      | _ => false
  | _ => true

end ServerState

/-- The handler of an admitted request begins. -/
def enterHandler (cfg : Settings) (fns : ServerFunctions) (s : ServerState) (user : User) :
    ProtectedRequest → Option ServerState
  | .driver q request => (driverStep cfg s.drivers (.begin q user request)).map fun drivers =>
      { s with drivers := drivers }
  | .transitionRide q rideId payload =>
      (rideStep cfg s.rides (.begin q user rideId payload)).map fun rides =>
        { s with rides := rides }
  | .createRide q payload key =>
      (createStep fns.body s.creates (.begin q user payload key)).map fun creates =>
        { s with creates := creates }

/-- The request that an action serves. -/
def ServerAction.serves : ServerAction → Option RequestName
  | .arrive request _ => some request.name
  | .register a => some (.register a.request)
  | .auth a => a.request.map .auth
  | .driver a => a.request.map .driver
  | .ride a => a.request.map .ride
  | .create a => a.request.map .create
  | .advance _ => none

/-- One step of the server, for a request that was not refused. -/
def serverMove (cfg : Settings) (fns : ServerFunctions) (s : ServerState) :
    ServerAction → Option ServerState
  | .arrive request token =>
      match s.authenticated fns request token with
      | .error e => if s.entered request.name then none else some (s.refuse request.name e)
      | .ok user => enterHandler cfg fns s user request
  | .register a => (registerStep fns.toAccountFunctions s.accounts a).map fun accounts =>
      { s with accounts := accounts }
  | .auth a =>
      if a.within then
        (accountStep cfg fns.toAccountFunctions s.accounts (.auth a)).map fun accounts =>
          { s with accounts := accounts }
      else none
  | .driver a =>
      if a.within then
        (driverStep cfg s.drivers a).map fun drivers => { s with drivers := drivers }
      else none
  | .ride a =>
      if a.within ∧ s.finds cfg fns a then
        (rideStep cfg s.rides a).map fun rides => { s with rides := rides }
      else none
  | .create a =>
      if a.within then
        (createStep fns.body s.creates a).map fun creates =>
          { s with creates := creates, rides := s.rides.insert (s.creates.published a) }
      else none
  | .advance seconds => some { s with
      accounts := { s.accounts with
        auth := { s.accounts.auth with clock := s.accounts.auth.clock + seconds } }
      drivers := { s.drivers with clock := s.drivers.clock + seconds }
      rides := { s.rides with clock := s.rides.clock + seconds }
      creates := { s.creates with clock := s.creates.clock + seconds } }

/-- One step of the server; a refused request has ended. -/
def serverStep (cfg : Settings) (fns : ServerFunctions) (s : ServerState) (a : ServerAction) :
    Option ServerState :=
  if a.serves.any fun name => (s.refused name).isSome then none else serverMove cfg fns s a

/-- All requests and background tasks of the server, in any interleaving. -/
def serverSystem (cfg : Settings) (fns : ServerFunctions) :
    Runs.System ServerState ServerAction :=
  ⟨serverStep cfg fns⟩

/-- The request was answered with this error. -/
def ServerState.Rejected (s : ServerState) (name : RequestName) (error : Rejection) : Prop :=
  s.refused name = some error ∨
  match name with
  | .register q =>
      ∃ request, s.accounts.registers q = some (request, .answered (.rejected error))
  | .auth q =>
      ∃ request, s.accounts.auth.requests q = some (request, .answered (.rejected error))
  | .driver q => ∃ call, s.drivers.requests q = some (call, .answered (.rejected error))
  | .ride q => ∃ call, s.rides.requests q = some (call, .answered (.rejected error))
  | .create q => ∃ call, s.creates.requests q = some (call, .answered (.rejected error))

/-- What the database and Redis hold. -/
structure StoredData where
  users : List User
  tokens : TokenHash → Option RefreshToken
  profiles : UserId → Option DriverProfile
  rides : RideId → Option Ride
  outbox : List OutboxEvent
  idempotencyRecords : List IdempotencyRecord
  geoPool : GeoPool
  reservations : Reservations

/-- The tables, the GEO pool and the reservation keys. -/
def ServerState.data (s : ServerState) : StoredData where
  users := s.accounts.auth.users
  tokens := s.accounts.auth.tokens
  profiles := s.drivers.store.profiles
  rides := s.rides.rides
  outbox := s.rides.outbox
  idempotencyRecords := s.creates.records
  geoPool := s.drivers.store.pool
  reservations := s.rides.reservations

/-! ### Who begins what

The actions of a part of the server that begin a request are the arrivals at the
server. -/

/-- The request begins with the arrival of its token. -/
def DriverAction.BegunBy (a : ServerAction) : DriverAction → Prop
  | .begin q _ request => ∃ token, a = .arrive (.driver q request) token
  | _ => True

/-- The creation begins with the arrival of its token. -/
def CreateAction.BegunBy (a : ServerAction) : CreateAction → Prop
  | .begin q _ payload key => ∃ token, a = .arrive (.createRide q payload key) token
  | _ => True

/-- The transition begins with the arrival of its token, and rides are created by
creations. -/
def RideAction.BegunBy (a : ServerAction) : RideAction → Prop
  | .begin q _ rideId payload => ∃ token, a = .arrive (.transitionRide q rideId payload) token
  | .create _ _ _ _ _ => False
  | _ => True

/-- A step inside a handler begins no driver's request. -/
theorem DriverAction.within_begunBy {a : ServerAction} {b : DriverAction}
    (h : b.within = true) : b.BegunBy a := by
  cases b with
  | begin _ _ _ => cases h
  | _ => trivial

/-- A step inside a handler begins no creation. -/
theorem CreateAction.within_begunBy {a : ServerAction} {b : CreateAction}
    (h : b.within = true) : b.BegunBy a := by
  cases b with
  | begin _ _ _ _ => cases h
  | _ => trivial

/-- A step inside a handler begins no transition. -/
theorem RideAction.within_begunBy {a : ServerAction} {b : RideAction}
    (h : b.within = true) : b.BegunBy a := by
  cases b with
  | begin _ _ _ _ => cases h
  | create _ _ _ _ _ => cases h
  | _ => trivial

/-! ### What each step did -/

section Inversion

variable {cfg : Settings} {fns : ServerFunctions} {s t : ServerState}

/-- A step serves no request that was refused. -/
theorem server_cases {a : ServerAction} (h : serverStep cfg fns s a = some t) :
    (∀ name, a.serves = some name → s.refused name = none) ∧ serverMove cfg fns s a = some t := by
  unfold serverStep at h
  split at h
  case isTrue => cases h
  case isFalse hopen =>
      refine ⟨fun name hname => ?_, h⟩
      simpa [hname] using hopen

/-- A request that arrives is refused, or enters its handler as the user of its token. -/
theorem server_arrive {request : ProtectedRequest} {token : String}
    (h : serverMove cfg fns s (.arrive request token) = some t) :
    (∃ error, s.authenticated fns request token = .error error ∧ s.entered request.name = false ∧
      t = s.refuse request.name error) ∨
    ∃ user, s.authenticated fns request token = .ok user ∧
      enterHandler cfg fns s user request = some t := by
  dsimp only [serverMove] at h
  split at h
  case h_1 e he =>
      split at h
      case isTrue => cases h
      case isFalse hentered =>
          exact Or.inl ⟨e, he, Bool.eq_false_iff.mpr hentered, (Option.some.inj h).symm⟩
  case h_2 user huser => exact Or.inr ⟨user, huser, h⟩

/-- A registration steps as it does by itself. -/
theorem server_register {a : RegisterAction} (h : serverMove cfg fns s (.register a) = some t) :
    ∃ accounts, registerStep fns.toAccountFunctions s.accounts a = some accounts ∧
      t = { s with accounts := accounts } := by
  obtain ⟨accounts, haccounts, rfl⟩ := Option.map_eq_some_iff.mp h
  exact ⟨accounts, haccounts, rfl⟩

/-- So does a request about tokens. -/
theorem server_auth {a : AuthAction} (h : serverMove cfg fns s (.auth a) = some t) :
    a.within = true ∧
    ∃ auth, authStep cfg fns.toSecurityFunctions s.accounts.auth a = some auth ∧
      t = { s with accounts := { s.accounts with auth := auth } } := by
  dsimp only [serverMove] at h
  split at h
  case isTrue hwithin =>
      obtain ⟨accounts, haccounts, rfl⟩ := Option.map_eq_some_iff.mp h
      obtain ⟨auth, hauth, rfl⟩ := account_auth haccounts
      exact ⟨hwithin, auth, hauth, rfl⟩
  case isFalse => cases h

/-- So does a driver's request, or a sweep. -/
theorem server_driver {a : DriverAction} (h : serverMove cfg fns s (.driver a) = some t) :
    a.within = true ∧
    ∃ drivers, driverStep cfg s.drivers a = some drivers ∧ t = { s with drivers := drivers } := by
  dsimp only [serverMove] at h
  split at h
  case isTrue hwithin =>
      obtain ⟨drivers, hdrivers, rfl⟩ := Option.map_eq_some_iff.mp h
      exact ⟨hwithin, drivers, hdrivers, rfl⟩
  case isFalse => cases h

/-- So does a transition, whose search finds drivers of the pool. -/
theorem server_ride {a : RideAction} (h : serverMove cfg fns s (.ride a) = some t) :
    a.within = true ∧ s.finds cfg fns a = true ∧
    ∃ rides, rideStep cfg s.rides a = some rides ∧ t = { s with rides := rides } := by
  dsimp only [serverMove] at h
  split at h
  case isTrue hguard =>
      obtain ⟨rides, hrides, rfl⟩ := Option.map_eq_some_iff.mp h
      exact ⟨hguard.1, hguard.2, rides, hrides, rfl⟩
  case isFalse => cases h

/-- So does a creation, whose COMMIT adds its ride to the others. -/
theorem server_create {a : CreateAction} (h : serverMove cfg fns s (.create a) = some t) :
    a.within = true ∧
    ∃ creates, createStep fns.body s.creates a = some creates ∧
      t = { s with creates := creates, rides := s.rides.insert (s.creates.published a) } := by
  dsimp only [serverMove] at h
  split at h
  case isTrue hwithin =>
      obtain ⟨creates, hcreates, rfl⟩ := Option.map_eq_some_iff.mp h
      exact ⟨hwithin, creates, hcreates, rfl⟩
  case isFalse => cases h

/-- What the beginning of a handler does. -/
theorem enterHandler_cases {user : User} {request : ProtectedRequest}
    (h : enterHandler cfg fns s user request = some t) :
    (∃ q body drivers, request = .driver q body ∧
      driverStep cfg s.drivers (.begin q user body) = some drivers ∧
      t = { s with drivers := drivers }) ∨
    (∃ q rideId payload rides, request = .transitionRide q rideId payload ∧
      rideStep cfg s.rides (.begin q user rideId payload) = some rides ∧
      t = { s with rides := rides }) ∨
    ∃ q payload key creates, request = .createRide q payload key ∧
      createStep fns.body s.creates (.begin q user payload key) = some creates ∧
      t = { s with creates := creates } := by
  cases request with
  | driver q body =>
      obtain ⟨drivers, hdrivers, rfl⟩ := Option.map_eq_some_iff.mp h
      exact Or.inl ⟨q, body, drivers, rfl, hdrivers, rfl⟩
  | transitionRide q rideId payload =>
      obtain ⟨rides, hrides, rfl⟩ := Option.map_eq_some_iff.mp h
      exact Or.inr (Or.inl ⟨q, rideId, payload, rides, rfl, hrides, rfl⟩)
  | createRide q payload key =>
      obtain ⟨creates, hcreates, rfl⟩ := Option.map_eq_some_iff.mp h
      exact Or.inr (Or.inr ⟨q, payload, key, creates, rfl, hcreates, rfl⟩)

/-- What a COMMIT of a creation publishes was stored by its request. -/
theorem published_storing {creates : CreateState} {b : CreateAction} {ride : Ride}
    (h : creates.published b = some ride) :
    ∃ q call, creates.requests q = some (call, .storing ride) := by
  unfold CreateState.published at h
  split at h
  case h_1 q =>
      split at h
      case h_1 call stored hreq =>
          obtain ⟨_, hride⟩ := Option.ite_none_right_eq_some.mp h
          obtain rfl := Option.some.inj hride
          exact ⟨q, call, hreq⟩
      case h_2 => cases h
  case h_2 => cases h

/-- A step of the server is, for the transitions, a step of theirs, the COMMIT
of a creation, or nothing; and a step of a request of theirs is a `ride`
action. -/
theorem server_rides {a : ServerAction} (hstep : serverStep cfg fns s a = some t) :
    t.rides = s.rides ∨
      (∃ b, b.BegunBy a ∧ (b.within = true → a = .ride b) ∧ s.finds cfg fns b = true ∧
        rideStep cfg s.rides b = some t.rides) ∨
      ∃ q call ride, s.creates.requests q = some (call, .storing ride) ∧
        t.rides = s.rides.insert (some ride) := by
  have hmove := (server_cases hstep).2
  cases a with
  | arrive request token =>
      rcases server_arrive hmove with ⟨_, _, _, rfl⟩ | ⟨user, _, hbegin⟩
      · exact Or.inl rfl
      · rcases enterHandler_cases hbegin with ⟨_, _, _, _, _, rfl⟩ |
          ⟨_, _, _, _, rfl, hrides, rfl⟩ | ⟨_, _, _, _, _, _, rfl⟩
        · exact Or.inl rfl
        · exact Or.inr (Or.inl ⟨.begin _ _ _ _, ⟨token, rfl⟩, nofun, rfl, hrides⟩)
        · exact Or.inl rfl
  | register _ =>
      obtain ⟨_, _, rfl⟩ := server_register hmove
      exact Or.inl rfl
  | auth _ =>
      obtain ⟨_, _, _, rfl⟩ := server_auth hmove
      exact Or.inl rfl
  | driver _ =>
      obtain ⟨_, _, _, rfl⟩ := server_driver hmove
      exact Or.inl rfl
  | ride b =>
      obtain ⟨hwithin, hfinds, _, hrides, rfl⟩ := server_ride hmove
      exact Or.inr (Or.inl
        ⟨b, RideAction.within_begunBy hwithin, fun _ => rfl, hfinds, hrides⟩)
  | create b =>
      obtain ⟨_, _, _, rfl⟩ := server_create hmove
      cases hpublished : s.creates.published b with
      | none => exact Or.inl (by simp [RideState.insert])
      | some ride =>
          obtain ⟨q, call, hreq⟩ := published_storing hpublished
          exact Or.inr (Or.inr ⟨q, call, ride, hreq, rfl⟩)
  | advance seconds =>
      cases hmove
      exact Or.inr (Or.inl ⟨.advance seconds, trivial, nofun, rfl, rfl⟩)

/-- A step of the server is a step of the creations, or nothing to them. -/
theorem server_creates {a : ServerAction} (hstep : serverStep cfg fns s a = some t) :
    t.creates = s.creates ∨
      ∃ b, b.BegunBy a ∧ createStep fns.body s.creates b = some t.creates := by
  have hmove := (server_cases hstep).2
  cases a with
  | arrive request token =>
      rcases server_arrive hmove with ⟨_, _, _, rfl⟩ | ⟨user, _, hbegin⟩
      · exact Or.inl rfl
      · rcases enterHandler_cases hbegin with ⟨_, _, _, _, _, rfl⟩ |
          ⟨_, _, _, _, _, _, rfl⟩ | ⟨_, _, _, _, rfl, hcreates, rfl⟩
        · exact Or.inl rfl
        · exact Or.inl rfl
        · exact Or.inr ⟨.begin _ _ _ _, ⟨token, rfl⟩, hcreates⟩
  | register _ =>
      obtain ⟨_, _, rfl⟩ := server_register hmove
      exact Or.inl rfl
  | auth _ =>
      obtain ⟨_, _, _, rfl⟩ := server_auth hmove
      exact Or.inl rfl
  | driver _ =>
      obtain ⟨_, _, _, rfl⟩ := server_driver hmove
      exact Or.inl rfl
  | ride _ =>
      obtain ⟨_, _, _, _, rfl⟩ := server_ride hmove
      exact Or.inl rfl
  | create b =>
      obtain ⟨hwithin, _, hcreates, rfl⟩ := server_create hmove
      exact Or.inr ⟨b, CreateAction.within_begunBy hwithin, hcreates⟩
  | advance seconds =>
      cases hmove
      exact Or.inr ⟨.advance seconds, trivial, rfl⟩

/-- A step of the server is a step of the drivers' requests, or nothing to
them; and a step of one that has begun is a `driver` action. -/
theorem server_drivers {a : ServerAction} (hstep : serverStep cfg fns s a = some t) :
    t.drivers = s.drivers ∨
      ∃ b, b.BegunBy a ∧ (b.within = true → a = .driver b) ∧
        driverStep cfg s.drivers b = some t.drivers := by
  have hmove := (server_cases hstep).2
  cases a with
  | arrive request token =>
      rcases server_arrive hmove with ⟨_, _, _, rfl⟩ | ⟨user, _, hbegin⟩
      · exact Or.inl rfl
      · rcases enterHandler_cases hbegin with ⟨_, _, _, rfl, hdrivers, rfl⟩ |
          ⟨_, _, _, _, _, _, rfl⟩ | ⟨_, _, _, _, _, _, rfl⟩
        · exact Or.inr ⟨.begin _ _ _, ⟨token, rfl⟩, nofun, hdrivers⟩
        · exact Or.inl rfl
        · exact Or.inl rfl
  | register _ =>
      obtain ⟨_, _, rfl⟩ := server_register hmove
      exact Or.inl rfl
  | auth _ =>
      obtain ⟨_, _, _, rfl⟩ := server_auth hmove
      exact Or.inl rfl
  | driver b =>
      obtain ⟨hwithin, _, hdrivers, rfl⟩ := server_driver hmove
      exact Or.inr ⟨b, DriverAction.within_begunBy hwithin, fun _ => rfl, hdrivers⟩
  | ride _ =>
      obtain ⟨_, _, _, _, rfl⟩ := server_ride hmove
      exact Or.inl rfl
  | create _ =>
      obtain ⟨_, _, _, rfl⟩ := server_create hmove
      exact Or.inl rfl
  | advance seconds =>
      cases hmove
      exact Or.inr ⟨.advance seconds, trivial, nofun, rfl⟩

end Inversion

end RideFlow
