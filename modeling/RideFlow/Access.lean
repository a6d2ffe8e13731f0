import RideFlow.CreateRide

/-!
# Who may do what

The dependencies of `dependencies.py` that stand before the handlers, and the
check of `get_ride`.  Decoding a token (signature and expiry) is a parameter:
`decode now token` are the claims of a token that is valid at `now`.
-/

namespace RideFlow

/-- The claims that the checks read. -/
structure Claims where
  type : Option String
  sub : Option UserId
  deriving DecidableEq, Repr

/-- `decode_token`; `none` when it raises. -/
abbrev DecodeToken := Timestamp → String → Option Claims

/-- The answer to a token that does not decode, is no access token or names nobody. -/
def couldNotValidate : Rejection := ⟨401, "Could not validate credentials"⟩

/-- The answer to the token of a user who is not there or not active. -/
def userInactive : Rejection := ⟨401, "User not found or inactive"⟩

/-- `get_current_user`. -/
def getCurrentUser (decode : DecodeToken) (users : List User) (now : Timestamp)
    (token : String) : Except Rejection User :=
  match decode now token with
  | none => .error couldNotValidate
  | some claims =>
      if claims.type ≠ some "access" then .error couldNotValidate
      else
        match claims.sub with
        | none => .error couldNotValidate
        | some userId =>
            match users.find? fun user => user.id = userId with
            | none => .error userInactive
            | some user => if user.isActive = false then .error userInactive else .ok user

/-- The values of the members of `UserRole`. -/
def UserRole.value : UserRole → String
  | .passenger => "passenger"
  | .driver => "driver"
  | .admin => "admin"

/-- `require_roles`. -/
def requireRoles (roles : List UserRole) (user : User) : Except Rejection User :=
  if user.role ∈ roles then .ok user
  else
    let names := ", ".intercalate (roles.map fun role => "'" ++ role.value ++ "'")
    .error ⟨403, "Requires one of roles: [" ++ names ++ "]"⟩

/-- The answer of `get_ride` to somebody else. -/
def notYourRide : Rejection := ⟨403, "Not your ride"⟩

/-- `get_ride`, for an authenticated user. -/
def getRide (rides : RideId → Option Ride) (rideId : RideId) (user : User) :
    Except Rejection Ride :=
  match rides rideId with
  | none => .error ⟨404, "Ride not found"⟩
  | some ride =>
      if user.role = .passenger ∧ ride.passengerId ≠ user.id then .error notYourRide
      else if user.role = .driver ∧ ride.driverId ≠ none ∧ ride.driverId ≠ some user.id then
        .error notYourRide
      else .ok ride

section Checks

variable {decode : DecodeToken} {users : List User} {now : Timestamp} {token : String}
  {user : User}

/-- A token authenticates an active user of the table, by an access token whose
subject is its id. -/
theorem getCurrentUser_ok : getCurrentUser decode users now token = .ok user ↔
    ∃ claims, decode now token = some claims ∧ claims.type = some "access" ∧
      ∃ userId, claims.sub = some userId ∧
        users.find? (fun user => user.id = userId) = some user ∧ user.isActive = true := by
  unfold getCurrentUser
  constructor
  · intro h
    split at h
    case h_1 => cases h
    case h_2 claims hclaims =>
        split at h
        case isTrue => cases h
        case isFalse htype =>
            split at h
            case h_1 => cases h
            case h_2 userId hsub =>
                split at h
                case h_1 => cases h
                case h_2 found hfound =>
                    split at h
                    case isTrue => cases h
                    case isFalse hactive =>
                        cases h
                        exact ⟨claims, hclaims, not_not.mp htype, userId, hsub, hfound,
                          Bool.eq_true_of_not_eq_false hactive⟩
  · rintro ⟨claims, hclaims, htype, userId, hsub, hfound, hactive⟩
    simp [hclaims, htype, hsub, hfound, hactive]

/-- A user may read a ride: an admin any, a passenger its own, and a driver its
own and those that no driver has. -/
def MayRead (user : User) (ride : Ride) : Prop :=
  (user.role = .passenger → ride.passengerId = user.id) ∧
    (user.role = .driver → ride.driverId = none ∨ ride.driverId = some user.id)

instance (user : User) (ride : Ride) : Decidable (MayRead user ride) :=
  inferInstanceAs (Decidable (_ ∧ _))

/-- `get_ride` returns the stored ride to those who may read it. -/
theorem getRide_ok {rides : RideId → Option Ride} {rideId : RideId} {ride : Ride} :
    getRide rides rideId user = .ok ride ↔ rides rideId = some ride ∧ MayRead user ride := by
  unfold getRide
  cases hride : rides rideId with
  | none => simp
  | some found =>
      dsimp only
      split
      case isTrue hother =>
          refine iff_of_false (by simp) ?_
          rintro ⟨⟨⟩, hmay⟩
          exact hother.2 (hmay.1 hother.1)
      case isFalse hpassenger =>
          split
          case isTrue hother =>
              refine iff_of_false (by simp) ?_
              rintro ⟨⟨⟩, hmay⟩
              rcases hmay.2 hother.1 with hnone | hown
              · exact hother.2.1 hnone
              · exact hother.2.2 hown
          case isFalse hdriver =>
              have hmay : MayRead user found := by
                refine ⟨fun hrole => ?_, fun hrole => ?_⟩
                · by_contra hother
                  exact hpassenger ⟨hrole, hother⟩
                · by_contra hother
                  exact hdriver ⟨hrole, not_or.mp hother⟩
              constructor
              · rintro ⟨⟩
                exact ⟨rfl, hmay⟩
              · rintro ⟨⟨⟩, _⟩
                rfl

end Checks

end RideFlow
