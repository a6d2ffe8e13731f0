import RideFlow.Gateway
import RideFlow.UniqueAccounts

/-!
# The list of a user's rides

`list_my_rides` of `routers/rides.py`, a SELECT with an ORDER BY over the table of
rides, next to `get_ride`, which looks one ride up and checks who asks.  The two are
written separately, and agree: a ride is in the list of a passenger exactly when the
passenger may read it, and in the list of a driver exactly when the driver may read
it and it has a driver (`lists_agree_with_reads`).  An admin may read every ride and
has an empty list, because no admin creates one.
-/

namespace RideFlow

open Function Runs

/-- The WHERE of `list_my_rides`. -/
def isMine (user : User) (ride : Ride) : Bool :=
  if user.role = .driver then ride.driverId = some user.id else ride.passengerId = user.id

/-- `ORDER BY created_at DESC`; rows of equal times come as the table has them. -/
def newestFirst (rides : List Ride) : List Ride :=
  rides.insertionSort fun a b => b.createdAt ≤ a.createdAt

/-- `list_my_rides`, for an authenticated user and the rows of the table. -/
def listMyRides (rows : List Ride) (user : User) : List Ride :=
  newestFirst (rows.filter (isMine user))

/-- The endpoint of `list_my_rides`, with the token that it is called with. -/
def ServerState.listMyRides (s : ServerState) (fns : ServerFunctions) (rows : List Ride)
    (token : String) : Except Rejection (List Ride) :=
  match getCurrentUser fns.decodeToken s.accounts.auth.users s.now token with
  | .error e => .error e
  | .ok user => .ok (RideFlow.listMyRides rows user)

/-- The rows of the table, in some order. -/
structure ServerState.Rows (s : ServerState) (rows : List Ride) : Prop where
  nodup : rows.Nodup
  mem : ∀ ride, ride ∈ rows ↔ ∃ r, s.data.rides r = some ride

theorem mem_listMyRides {rows : List Ride} {user : User} {ride : Ride} :
    ride ∈ listMyRides rows user ↔ ride ∈ rows ∧ isMine user ride = true := by
  rw [listMyRides, newestFirst, List.mem_insertionSort, List.mem_filter]

theorem newestFirst_sorted (rides : List Ride) :
    (newestFirst rides).Pairwise fun a b => b.createdAt ≤ a.createdAt := by
  have htotal : Std.Total fun a b : Ride => b.createdAt ≤ a.createdAt :=
    ⟨fun a b => Nat.le_total b.createdAt a.createdAt⟩
  have htrans : IsTrans Ride fun a b => b.createdAt ≤ a.createdAt :=
    ⟨fun a b c hab hbc => Nat.le_trans hbc hab⟩
  exact List.pairwise_insertionSort _ rides

section Lists

variable {cfg : Settings} {fns : ServerFunctions} {s : ServerState} {users : List User}
  {acts : List ServerAction} {rows : List Ride} {token : String} {user : User} {ride : Ride}

/-- What is in the list of whom, in terms of who may read. -/
theorem isMine_iff (hadmin : user.role = .admin → ride.passengerId ≠ user.id) :
    isMine user ride = true ↔
      MayRead user ride ∧ user.role ≠ .admin ∧ (user.role = .driver → ride.driverId ≠ none) := by
  unfold isMine MayRead
  cases hrole : user.role with
  | passenger => simp
  | driver =>
      simp only [if_true, decide_eq_true_eq]
      constructor
      · intro hmine
        simp [hmine]
      · rintro ⟨⟨_, hmay⟩, _, hassigned⟩
        exact (hmay trivial).resolve_left (hassigned trivial)
  | admin => simpa using hadmin hrole

theorem authenticated_mem
    (h : getCurrentUser fns.decodeToken s.accounts.auth.users s.now token = .ok user) :
    user ∈ s.data.users := by
  obtain ⟨_, _, _, _, _, hfind, _⟩ := getCurrentUser_ok.mp h
  exact List.mem_of_find?_eq_some hfind

/-- **Lists and reads agree.**  In every reachable state the list that a user gets with
a token has each ride once, the newest first, and it has exactly the rides that
`get_ride` returns with that token, except that an admin's list is empty and a
driver's leaves out the rides without a driver. -/
theorem lists_agree_with_reads (husers : Distinguished users)
    (h : Steps (serverSystem cfg fns) free (.init users) acts s) (hrows : s.Rows rows)
    (huser : getCurrentUser fns.decodeToken s.accounts.auth.users s.now token = .ok user) :
    ∃ answer, s.listMyRides fns rows token = .ok answer ∧ answer.Nodup ∧
      answer.Pairwise (fun a b => b.createdAt ≤ a.createdAt) ∧
      ∀ ride, ride ∈ answer ↔ s.getRide fns ride.id token = .ok ride ∧ user.role ≠ .admin ∧
        (user.role = .driver → ride.driverId ≠ none) := by
  have hresolves := (run_refers h).resolves
  have hdistinct := (run_accountBooks husers h).users
  refine ⟨listMyRides rows user, by simp [ServerState.listMyRides, huser], ?_,
    newestFirst_sorted _, fun ride => ?_⟩
  · exact (List.perm_insertionSort _ _).nodup_iff.mpr (hrows.nodup.filter _)
  · have hread : s.getRide fns ride.id token = .ok ride ↔
        s.data.rides ride.id = some ride ∧ MayRead user ride := by
      rw [ServerState.getRide, huser]
      exact getRide_ok
    rw [mem_listMyRides, hread, hrows.mem]
    constructor
    · rintro ⟨⟨r, hr⟩, hmine⟩
      obtain ⟨rfl, ⟨passenger, hmem, hid, hrole⟩, _⟩ := hresolves.rides r ride hr
      have hadmin : user.role = .admin → ride.passengerId ≠ user.id := by
        intro hadmin hsame
        have heq := hdistinct.ids passenger hmem user (authenticated_mem huser)
          (hid.trans hsame)
        rw [heq, hadmin] at hrole
        cases hrole
      obtain ⟨hmay, hrest⟩ := (isMine_iff hadmin).mp hmine
      exact ⟨⟨hr, hmay⟩, hrest⟩
    · rintro ⟨⟨hr, hmay⟩, hnotAdmin, hassigned⟩
      refine ⟨⟨ride.id, hr⟩, ?_⟩
      exact (isMine_iff fun hadmin => absurd hadmin hnotAdmin).mpr ⟨hmay, hnotAdmin, hassigned⟩

/-- The rows of a table whose rides have all been created and are all here. -/
theorem rows_of_created (h : Steps (serverSystem cfg fns) free (.init users) acts s)
    (hnodup : rows.Nodup) (hrows : ∀ row ∈ rows, s.data.rides row.id = some row)
    (hall : ∀ first ∈ s.creates.rides, ∃ row ∈ rows, row.id = first.id) : s.Rows rows where
  nodup := hnodup
  mem ride := by
    constructor
    · exact fun hmem => ⟨ride.id, hrows ride hmem⟩
    · rintro ⟨r, hr⟩
      have hne : s.data.rides r ≠ none := by simp [hr]
      obtain ⟨first, hfirst, rfl⟩ := (run_refers h).created r hne
      obtain ⟨row, hmem, hid⟩ := hall first hfirst
      have hrow := hrows row hmem
      rw [hid] at hrow
      exact Option.some.inj (hrow.symm.trans hr) ▸ hmem

end Lists

/-- The ride as the passenger's request leaves it. -/
def servedRide : Ride := { townRide.set .accepted (some ⟨1⟩) 0 with version := 3 }

/-- The passenger's list has the ride that was just accepted. -/
theorem accepted_ride_is_listed : ∃ s,
    Steps (serverSystem {} sampleTown) free (.init townUsers)
      (rideRequested ++ servedWhileWaiting) s ∧
    ∃ answer, s.listMyRides sampleTown [servedRide] otherAccessToken = .ok answer ∧
      servedRide ∈ answer := by
  have hreplay : (exec (serverSystem {} sampleTown) (.init townUsers)
      (rideRequested ++ servedWhileWaiting)).any (fun s =>
        s.data.rides 0 = some servedRide ∧ s.creates.rides.map Ride.id = [0] ∧
        s.accounts.auth.users = townUsers ∧ s.now = 0) = true := by decide +kernel
  obtain ⟨s, hrun, hs⟩ := Steps.of_exec_any hreplay
  obtain ⟨hride, hcreated, husers, hnow⟩ := of_decide_eq_true hs
  have hrows : s.Rows [servedRide] := by
    refine rows_of_created hrun (List.nodup_singleton _) ?_ ?_
    · intro row hmem
      obtain rfl := List.mem_singleton.mp hmem
      exact hride
    intro first hfirst
    have hid := List.mem_map_of_mem (f := Ride.id) hfirst
    rw [hcreated] at hid
    exact ⟨servedRide, List.mem_singleton_self _, (List.mem_singleton.mp hid).symm⟩
  have huser : getCurrentUser sampleTown.decodeToken s.accounts.auth.users s.now otherAccessToken =
      .ok { sampleUser 2 .passenger with email := "b@example.com" } := by
    rw [husers, hnow]
    decide +kernel
  obtain ⟨answer, hanswer, _, _, hmem⟩ :=
    lists_agree_with_reads townUsers_distinguished hrun hrows huser
  refine ⟨s, hrun, answer, hanswer, (hmem servedRide).mpr ⟨?_, by decide, by decide⟩⟩
  rw [ServerState.getRide, huser]
  exact getRide_ok.mpr ⟨hride, by decide⟩

end RideFlow
