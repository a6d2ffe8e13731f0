import RideFlow.Gateway
import RideFlow.Rejections

/-!
# Live updates and reads

The handshake of `ride_updates` asks only that the token decodes, where
`get_ride` asks for an access token, an active user, an existing ride and the
right to read it.  So the two agree on a token exactly when it is refused or
passes all of these (`handshake_agrees`).

In a run whose connections are made so, and whose messages reach no socket of
someone who may not read the ride any more, the sockets of a user are what the
log of the events that concern the user makes of them (`sockets_replayed`).
Two such runs that differ only in what a user may not read therefore forward
the same messages to the user.
-/

namespace RideFlow

open Runs

section Handshake

variable {fns : ServerFunctions} {s : ServerState} {rideId : RideId} {token : String}

/-- The handshake accepts the tokens that decode. -/
theorem rideUpdates_accepted {decode : DecodeToken} {now : Timestamp} {id : SocketId} :
    (rideUpdates decode now id rideId token).stage = .accepted ↔ (decode now token).isSome := by
  unfold rideUpdates
  cases decode now token <;> simp

/-- An id that may read is the id of a user for whom `get_ride` returns the
ride. -/
theorem mayRead_iff {userId : UserId} : s.mayRead rideId userId = true ↔
    ∃ user, s.accounts.auth.users.find? (fun user => user.id = userId) = some user ∧
      user.isActive = true ∧ ∃ ride, getRide s.rides.rides rideId user = .ok ride := by
  unfold ServerState.mayRead
  rw [Option.any_eq_true]
  refine exists_congr fun user => and_congr_right fun _ => ?_
  rw [Bool.and_eq_true, Option.any_eq_true]
  refine and_congr_right fun _ => exists_congr fun ride => ?_
  rw [getRide_ok, decide_eq_true_eq]

/-- `get_ride` returns the ride to the access token of a user who may read
it. -/
theorem getRide_endpoint_ok : (∃ ride, s.getRide fns rideId token = .ok ride) ↔
    ∃ claims, fns.decodeToken s.now token = some claims ∧ claims.type = some "access" ∧
      claims.sub.any (s.mayRead rideId) = true := by
  have hendpoint : (∃ ride, s.getRide fns rideId token = .ok ride) ↔
      ∃ user, getCurrentUser fns.decodeToken s.accounts.auth.users s.now token = .ok user ∧
        ∃ ride, getRide s.rides.rides rideId user = .ok ride := by
    unfold ServerState.getRide
    cases getCurrentUser fns.decodeToken s.accounts.auth.users s.now token with
    | error e => simp
    | ok user => simp
  rw [hendpoint]
  constructor
  · rintro ⟨user, hauth, hread⟩
    obtain ⟨claims, hclaims, htype, userId, hsub, hfound, hactive⟩ := getCurrentUser_ok.mp hauth
    refine ⟨claims, hclaims, htype, ?_⟩
    rw [hsub]
    exact mayRead_iff.mpr ⟨user, hfound, hactive, hread⟩
  · rintro ⟨claims, hclaims, htype, hmay⟩
    obtain ⟨userId, hsub, hmay⟩ := (Option.any_eq_true _ _).mp hmay
    obtain ⟨user, hfound, hactive, hread⟩ := mayRead_iff.mp hmay
    exact ⟨user, getCurrentUser_ok.mpr ⟨claims, hclaims, htype, userId, hsub, hfound, hactive⟩,
      hread⟩

/-- **Where the two checks agree.** -/
theorem handshake_agrees {id : SocketId} :
    ((rideUpdates fns.decodeToken s.now id rideId token).stage = .accepted →
      ∃ ride, s.getRide fns rideId token = .ok ride) ↔ s.mayFollow fns rideId token = true := by
  rw [rideUpdates_accepted, getRide_endpoint_ok]
  unfold ServerState.mayFollow
  cases hclaims : fns.decodeToken s.now token with
  | none => simp
  | some claims => simp

end Handshake

section Replay

variable {userId : UserId}

/-- An operation leaves a socket its owner. -/
theorem Socket.run_owner {socket socket' : Socket} {op : SocketOp}
    (h : socket.run op = some socket') : socket'.owner = socket.owner := by
  revert h
  cases op <;> dsimp only [Socket.run] <;> split <;> rintro ⟨⟩ <;> rfl

/-- So does an operation of whatever socket. -/
theorem Socket.operate_owner {id : SocketId} {op : SocketOp} (socket : Socket) :
    (if socket.id = id then (socket.run op).getD socket else socket).owner = socket.owner := by
  split
  case isTrue =>
      cases hrun : socket.run op with
      | none => rfl
      | some socket' => exact run_owner hrun
  case isFalse => rfl

/-- So does a message. -/
theorem Socket.deliver_owner {message : Message} (socket : Socket) :
    (socket.deliver message).owner = socket.owner := by
  unfold Socket.deliver
  split <;> rfl

/-- The sockets of a user are mapped like all others. -/
theorem filter_ownedBy_map {f : Socket → Socket} (hf : ∀ socket, (f socket).owner = socket.owner)
    (sockets : List Socket) :
    (sockets.map f).filter (fun socket => socket.ownedBy userId) =
      (sockets.filter fun socket => socket.ownedBy userId).map f := by
  have hsame : (fun socket => Socket.ownedBy socket userId) ∘ f =
      fun socket => Socket.ownedBy socket userId := by
    funext socket
    simp only [Function.comp, Socket.ownedBy, hf]
  rw [List.filter_map, hsame]

/-- A new socket is one more for its owner alone. -/
theorem filter_ownedBy_connect (sockets : List Socket) (socket : Socket) :
    (WireEvent.apply sockets (.connect socket)).filter (fun socket => socket.ownedBy userId) =
      if socket.ownedBy userId then
        WireEvent.apply (sockets.filter fun socket => socket.ownedBy userId) (.connect socket)
      else sockets.filter fun socket => socket.ownedBy userId := by
  dsimp only [WireEvent.apply]
  rw [List.filter_append]
  cases howner : socket.ownedBy userId <;> simp [howner]

/-- An operation is one on the sockets of the owner of its socket. -/
theorem filter_ownedBy_operate (sockets : List Socket) (id : SocketId) (op : SocketOp) :
    (WireEvent.apply sockets (.operate id op)).filter (fun socket => socket.ownedBy userId) =
      if sockets.any fun socket => socket.id = id ∧ socket.ownedBy userId then
        WireEvent.apply (sockets.filter fun socket => socket.ownedBy userId) (.operate id op)
      else sockets.filter fun socket => socket.ownedBy userId := by
  dsimp only [WireEvent.apply]
  rw [filter_ownedBy_map Socket.operate_owner]
  split
  case isTrue => rfl
  case isFalse hother =>
      refine (List.map_congr_left fun socket hsocket => ?_).trans (List.map_id _)
      obtain ⟨hmem, hown⟩ := List.mem_filter.mp hsocket
      refine if_neg fun hid => hother ?_
      exact List.any_eq_true.mpr ⟨socket, hmem, decide_eq_true ⟨hid, hown⟩⟩

/-- A message changes nothing for a user none of whose sockets listens. -/
theorem filter_ownedBy_publish {concerns : Bool} (sockets : List Socket) {message : Message}
    (hquiet : ∀ socket ∈ sockets, socket.listens message = true → socket.ownedBy userId = true →
      concerns = true) :
    (WireEvent.apply sockets (.publish message)).filter (fun socket => socket.ownedBy userId) =
      if concerns then
        WireEvent.apply (sockets.filter fun socket => socket.ownedBy userId) (.publish message)
      else sockets.filter fun socket => socket.ownedBy userId := by
  dsimp only [WireEvent.apply]
  rw [filter_ownedBy_map Socket.deliver_owner]
  split
  case isTrue => rfl
  case isFalse hother =>
      refine (List.map_congr_left fun socket hsocket => ?_).trans (List.map_id _)
      obtain ⟨hmem, hown⟩ := List.mem_filter.mp hsocket
      exact if_neg fun hlistens => hother (hquiet socket hmem hlistens hown)

variable {cfg : Settings} {fns : ServerFunctions} {s t : GatewayState} {a : GatewayAction}

/-- A checked step leaves the sockets of a user alone, or its event concerns
the user and is applied to them. -/
theorem step_replayed (hok : s.checked fns a = true) (hstep : gatewayStep cfg fns s a = some t) :
    (t.socketsOf userId = s.socketsOf userId ∧ t.wireOf userId = s.wireOf userId) ∨
      ∃ event, t.socketsOf userId = event.apply (s.socketsOf userId) ∧
        t.wireOf userId = s.wireOf userId ++ [event] := by
  rcases step_gateway hstep with ⟨hsockets, hwire⟩ | ⟨event, audience, hsockets, hwire, hevent⟩
  · refine Or.inl ⟨?_, ?_⟩
    · simp only [GatewayState.socketsOf, hsockets]
    · simp only [GatewayState.wireOf, hwire]
  · -- an event that concerns the user is applied to its sockets, any other leaves them alone
    have hseen : t.socketsOf userId =
        if audience userId then event.apply (s.socketsOf userId) else s.socketsOf userId := by
      unfold GatewayState.socketsOf
      rw [hsockets]
      rcases hevent with ⟨id, rideId, token, rfl, rfl, rfl⟩ | ⟨id, op, rfl, rfl, rfl⟩ |
        ⟨b, row, rfl, hrow, rfl, rfl⟩
      · exact filter_ownedBy_connect _ _
      · exact filter_ownedBy_operate _ _ _
      · refine filter_ownedBy_publish _ fun socket hsocket hlistens howner => ?_
        have hsockets := List.all_eq_true.mp ((Option.all_eq_true _ _).mp hok row hrow)
        have howners := of_decide_eq_true (hsockets socket hsocket) hlistens
        exact (Option.all_eq_true _ _).mp howners userId (of_decide_eq_true howner)
    have hlog : t.wireOf userId =
        if audience userId then s.wireOf userId ++ [event] else s.wireOf userId := by
      unfold GatewayState.wireOf
      rw [hwire, List.filter_append, List.map_append]
      cases haudience : audience userId <;> simp [haudience]
    cases haudience : audience userId with
    | false =>
        rw [haudience] at hseen hlog
        exact Or.inl ⟨hseen, hlog⟩
    | true =>
        rw [haudience] at hseen hlog
        exact Or.inr ⟨event, hseen, hlog⟩

/-- **The sockets of a user are what the events that concern the user make of
them**, in a run whose steps are checked. -/
theorem sockets_replayed {users : List User} {acts : List GatewayAction}
    (h : Steps (gatewaySystem cfg fns) (fun s a => s.checked fns a = true) (.init users) acts s) :
    s.socketsOf userId = (s.wireOf userId).foldl WireEvent.apply [] := by
  refine h.invariant (fun s => s.socketsOf userId = (s.wireOf userId).foldl WireEvent.apply [])
    rfl ?_
  intro s a t hs hok hstep
  rcases step_replayed hok hstep with ⟨hsockets, hlog⟩ | ⟨event, hsockets, hlog⟩
  · rw [hsockets, hlog, hs]
  · rw [hsockets, hlog, hs, List.foldl_append]
    rfl

end Replay

/-- **Live updates agree with reads** where the condition of `mayFollow` holds:

* the handshake accepts a token only if `get_ride` returns the ride to it,
  exactly when the token is refused or is the access token of an active user
  who may read the ride;
* two checked runs that differ only in what a user may not read forward the
  same messages to that user. -/
theorem updates_agree_with_reads (cfg : Settings) (fns : ServerFunctions) :
    (∀ (s : GatewayState) id rideId token,
      ((rideUpdates fns.decodeToken s.server.now id rideId token).stage = .accepted →
        ∃ ride, s.server.getRide fns rideId token = .ok ride) ↔
      s.server.mayFollow fns rideId token = true) ∧
    ∀ userId users users' acts acts' s s',
      Steps (gatewaySystem cfg fns) (fun s a => s.checked fns a = true) (.init users) acts s →
      Steps (gatewaySystem cfg fns) (fun s a => s.checked fns a = true) (.init users') acts' s' →
      s.wireOf userId = s'.wireOf userId → s.receivedBy userId = s'.receivedBy userId := by
  refine ⟨fun s id rideId token => handshake_agrees, ?_⟩
  intro userId users users' acts acts' s s' h h' hsame
  unfold GatewayState.receivedBy
  rw [sockets_replayed h, sockets_replayed h', hsame]

/-- The access token of passenger 1 at time 0. -/
def firstAccessToken : String := sampleSecurity.createAccessToken 1 .passenger 0

/-- Two passengers and their access tokens. -/
def samplePassengers : ServerFunctions :=
  { sampleServer with
    decodeToken := fun now token =>
      if token = firstAccessToken ∧ now < 900 then some ⟨some "access", some 1⟩
      else if token = otherAccessToken ∧ now < 900 then some ⟨some "access", some 2⟩
      else none }

/-- The two passengers. -/
def passengerUsers : List User :=
  [sampleUser 1 .passenger, { sampleUser 2 .passenger with email := "b@example.com" }]

/-- A passenger creates a ride. -/
def createOwn (q : CreateId) (rideId : RideId) (token : String) : List GatewayAction :=
  [.server (.arrive (.createRide q sampleBody none) token), .server (.create (.lookup q)),
    .server (.create (.insert q rideId)), .server (.create (.commit q))]

/-- A passenger cancels a new ride. -/
def cancelOwn (q : ReqId) (rideId : RideId) (token : String) : List GatewayAction :=
  [.server (.arrive (.transitionRide q rideId ⟨.cancelled, 1⟩) token), .server (.ride (.read q)),
    .server (.ride (.update q)), .server (.ride (.commit q))]

/-- The event of a ride that is cancelled. -/
def cancelledEvent (id : EventId) (rideId : RideId) (passengerId : UserId) (now : Timestamp) :
    OutboxEvent :=
  ⟨id, "ride", rideId, "ride.status_changed", ⟨rideId, .requested, .cancelled, none, passengerId⟩,
    false, now, none⟩

/-- A batch publishes its one event. -/
def publishOne (b : BatchId) (event : OutboxEvent) : List GatewayAction :=
  [.worker (.select b [event]), .worker (.scan b), .worker (.scan b), .worker (.publish b),
    .worker (.enqueue b event.createdAt), .worker (.commit b)]

/-- Passenger 2 follows a ride. -/
def follow (id : SocketId) (rideId : RideId) : List GatewayAction :=
  [.connect id rideId otherAccessToken, .operate id .subscribe]

/-- Passenger 2 follows its own ride, which it cancels; passenger 1 has a ride,
and cancels it in one of two runs. -/
def ownRide (firstCancels : Bool) : List GatewayAction :=
  createOwn ⟨1, 0⟩ 0 firstAccessToken ++ createOwn ⟨2, 0⟩ 1 otherAccessToken ++ follow 0 1 ++
    (if firstCancels then
      cancelOwn 0 0 firstAccessToken ++ publishOne 0 (cancelledEvent 0 0 1 0) else []) ++
    cancelOwn 1 1 otherAccessToken ++
    publishOne 1 (cancelledEvent (if firstCancels then 1 else 0) 1 2 0) ++ [.operate 0 .forward]

/-- What passenger 2 sees of this. -/
def ownRideWire : List WireEvent :=
  [.connect ⟨0, 1, some 2, .accepted, [], []⟩, .operate 0 .subscribe,
    .publish (cancelledEvent 0 1 2 0).message, .operate 0 .forward]

/-- What the other passenger does with its ride is nothing to passenger 2. -/
theorem own_rides_followed_alike : ∃ s s',
    Steps (gatewaySystem {} samplePassengers) (fun s a => s.checked samplePassengers a = true)
      (.init passengerUsers) (ownRide true) s ∧
    Steps (gatewaySystem {} samplePassengers) (fun s a => s.checked samplePassengers a = true)
      (.init passengerUsers) (ownRide false) s' ∧
    s.wire.length = s'.wire.length + 1 ∧
    s.receivedBy 2 = [(0, [(cancelledEvent 0 1 2 0).message])] ∧
    s.receivedBy 2 = s'.receivedBy 2 := by
  have hreplay : (execWhere (gatewaySystem {} samplePassengers)
      (fun s a => s.checked samplePassengers a = true) (.init passengerUsers) (ownRide true)).any
      (fun s => s.wire.length = 5 ∧ s.wireOf 2 = ownRideWire ∧
        s.receivedBy 2 = [(0, [(cancelledEvent 0 1 2 0).message])]) = true := by
    decide +kernel
  have hreplay' : (execWhere (gatewaySystem {} samplePassengers)
      (fun s a => s.checked samplePassengers a = true) (.init passengerUsers) (ownRide false)).any
      (fun s => s.wire.length = 4 ∧ s.wireOf 2 = ownRideWire) = true := by
    decide +kernel
  obtain ⟨s, hrun, hs⟩ := Steps.of_execWhere_any hreplay
  obtain ⟨s', hrun', hs'⟩ := Steps.of_execWhere_any hreplay'
  obtain ⟨hlength, hwire, hreceived⟩ := of_decide_eq_true hs
  obtain ⟨hlength', hwire'⟩ := of_decide_eq_true hs'
  refine ⟨s, s', hrun, hrun', by rw [hlength, hlength'], hreceived, ?_⟩
  exact (updates_agree_with_reads {} samplePassengers).2 2 _ _ _ _ s s' hrun hrun'
    (hwire.trans hwire'.symm)

/-- Passenger 2 follows the ride of passenger 1, which is cancelled after a
while. -/
def strangersRide (seconds : Nat) : List GatewayAction :=
  createOwn ⟨1, 0⟩ 0 firstAccessToken ++ follow 0 0 ++ [.server (.advance seconds)] ++
    cancelOwn 0 0 firstAccessToken ++ publishOne 0 (cancelledEvent 0 0 1 seconds) ++
    [.operate 0 .forward]

/-- Passenger 2 is accepted on a ride that it may not read, and its messages
tell apart two runs that differ only in that ride. -/
theorem strangers_follow_rides :
    (¬ ∀ acts s, Steps (gatewaySystem {} samplePassengers) free (.init passengerUsers) acts s →
      ∀ id rideId token,
        (rideUpdates samplePassengers.decodeToken s.server.now id rideId token).stage =
          .accepted →
        ∃ ride, s.server.getRide samplePassengers rideId token = .ok ride) ∧
    ¬ ∀ acts acts' s s',
      Steps (gatewaySystem {} samplePassengers) free (.init passengerUsers) acts s →
      Steps (gatewaySystem {} samplePassengers) free (.init passengerUsers) acts' s' →
      s.wireOf 2 = s'.wireOf 2 → s.receivedBy 2 = s'.receivedBy 2 := by
  have hnow : (exec (gatewaySystem {} samplePassengers) (.init passengerUsers)
      (strangersRide 0)).any (fun s =>
        (rideUpdates samplePassengers.decodeToken s.server.now 1 0 otherAccessToken).stage =
          .accepted ∧
        s.server.getRide samplePassengers 0 otherAccessToken = .error notYourRide ∧
        s.wireOf 2 = [.connect ⟨0, 0, some 2, .accepted, [], []⟩, .operate 0 .subscribe,
          .operate 0 .forward] ∧
        s.receivedBy 2 = [(0, [(cancelledEvent 0 0 1 0).message])]) = true := by
    decide +kernel
  have hlater : (exec (gatewaySystem {} samplePassengers) (.init passengerUsers)
      (strangersRide 1)).any (fun s =>
        s.wireOf 2 = [.connect ⟨0, 0, some 2, .accepted, [], []⟩, .operate 0 .subscribe,
          .operate 0 .forward] ∧
        s.receivedBy 2 = [(0, [(cancelledEvent 0 0 1 1).message])]) = true := by
    decide +kernel
  obtain ⟨s, hrun, hs⟩ := Steps.of_exec_any hnow
  obtain ⟨s', hrun', hs'⟩ := Steps.of_exec_any hlater
  obtain ⟨haccepted, hforbidden, hwire, hreceived⟩ := of_decide_eq_true hs
  obtain ⟨hwire', hreceived'⟩ := of_decide_eq_true hs'
  constructor
  · intro hall
    obtain ⟨ride, hride⟩ := hall _ s hrun 1 0 otherAccessToken haccepted
    rw [hforbidden] at hride
    cases hride
  · intro hall
    have hsame := hall _ _ s s' hrun hrun' (hwire.trans hwire'.symm)
    rw [hreceived, hreceived'] at hsame
    exact absurd hsame (by decide)

end RideFlow
