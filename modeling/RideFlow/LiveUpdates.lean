import RideFlow.RateLimit
import RideFlow.RideHistory

/-!
# Live updates are complete

For a socket that is subscribed to the channel of a ride, what the workers publish there
is queued in order and without a gap, and what they publish are the committed changes of
the ride (`KeepsUp`, `GatewayState.InOrder`).  The outbox loses nothing, so for a client
that listens at two moments every change that was committed in between is queued or
forwarded, unless the row of the change is still waiting in the outbox.  The queue is
forwarded from its front, and as many steps of the forwarding task as it has messages
empty it (`Forwards`, `followers_miss_nothing`).  Redis keeps nothing for those who are
not subscribed, and a socket whose forwarding task has died is deaf: the theorem is about
sockets that are subscribed and not deaf.
-/

namespace RideFlow

open Function RowLocks Runs Trails

/-- What was forwarded to the client of a socket, and after it what is queued. -/
def Socket.feed (socket : Socket) : List Message := socket.received ++ socket.inbox

/-- The socket after all that is queued has been forwarded. -/
def Socket.caughtUp (socket : Socket) : Socket :=
  { socket with inbox := [], received := socket.feed }

/-- Nothing is forwarded over this socket any more. -/
def Socket.Over (socket : Socket) : Prop := socket.stage = .deaf ∨ socket.stage = .closed

/-- The messages among what was published that went over the channel of a ride. -/
def onChannel (rideId : RideId) (published : List (EventId × Message)) : List Message :=
  (published.map Prod.snd).filter fun message => rideChannel rideId = message.channel

/-- The server and the outbox are in order, and what is queued for or forwarded to a socket
was published on its channel. -/
structure GatewayState.InOrder (fns : ServerFunctions) (s : GatewayState) : Prop where
  server : s.server.Chronicles fns
  outbox : OutboxBooks s.outbox
  table : s.outbox.table.map OutboxEvent.content = s.server.rides.outbox
  ids : (s.sockets.map Socket.id).Nodup
  feeds : ∀ socket ∈ s.sockets, ∀ message ∈ socket.feed,
    rideChannel socket.rideId = message.channel ∧ message ∈ s.outbox.published.map Prod.snd

section Steps

variable {cfg : Settings} {fns : ServerFunctions} {users : List User} {s t : GatewayState}
  {a : GatewayAction}

/-- What a step did to the server, the outbox and the sockets. -/
theorem gateway_cases (hstep : gatewayStep cfg fns s a = some t) :
    (∃ action, serverStep cfg fns s.server action = some t.server ∧
      t.outbox = s.outbox.insert (insertedRows s.server.rides t.server.rides) ∧
      t.sockets = s.sockets) ∨
    (∃ action, outboxStep s.outbox action = some t.outbox ∧ (∀ rows, action ≠ .insert rows) ∧
      t.server = s.server ∧ t.outbox.published = s.outbox.published ∧ t.sockets = s.sockets) ∨
    (∃ (b : BatchId) (event : OutboxEvent),
      outboxStep s.outbox (.publish b) = some t.outbox ∧ t.server = s.server ∧
      t.outbox.published = s.outbox.published ++ [(event.id, event.message)] ∧
      t.sockets = s.sockets.map fun socket => socket.deliver event.message) ∨
    t.server = s.server ∧ t.outbox = s.outbox ∧
      ((∃ socket, socket.id ∉ s.sockets.map Socket.id ∧ socket.feed = [] ∧
          t.sockets = s.sockets ++ [socket]) ∨
        ∃ id op, t.sockets = s.sockets.map fun socket =>
          if socket.id = id then (socket.run op).getD socket else socket) := by
  cases a with
  | server action =>
      obtain ⟨server, hserver, rfl⟩ := Option.map_eq_some_iff.mp hstep
      exact Or.inl ⟨action, hserver, rfl, rfl⟩
  | connect id rideId token =>
      dsimp only [gatewayStep] at hstep
      split at hstep
      case isTrue => cases hstep
      case isFalse hnew =>
          cases hstep
          refine Or.inr (Or.inr (Or.inr ⟨rfl, rfl, Or.inl ⟨_, ?_, rfl, rfl⟩⟩))
          intro hmem
          obtain ⟨socket, hsocket, hid⟩ := List.mem_map.mp hmem
          exact hnew (List.any_eq_true.mpr ⟨socket, hsocket, decide_eq_true hid⟩)
  | operate id op =>
      dsimp only [gatewayStep] at hstep
      split at hstep
      case isTrue =>
          cases hstep
          exact Or.inr (Or.inr (Or.inr ⟨rfl, rfl, Or.inr ⟨id, op, rfl⟩⟩))
      case isFalse => cases hstep
  | worker action =>
      cases action with
      | insert rows => cases hstep
      | publish b =>
          dsimp only [gatewayStep] at hstep
          split at hstep
          case h_1 => cases hstep
          case h_2 event hevent =>
              obtain ⟨outbox, houtbox, rfl⟩ := Option.map_eq_some_iff.mp hstep
              obtain ⟨next, todo, done, hb, rfl⟩ := outbox_publish houtbox
              obtain rfl : next = event := by
                simpa [OutboxState.next, hb] using hevent
              exact Or.inr (Or.inr (Or.inl ⟨b, next, houtbox, rfl, rfl, rfl⟩))
      | select b snapshot =>
          obtain ⟨outbox, houtbox, rfl⟩ := Option.map_eq_some_iff.mp hstep
          obtain ⟨_, _, rfl⟩ := outbox_select houtbox
          exact Or.inr (Or.inl ⟨_, houtbox, by simp, rfl, rfl, rfl⟩)
      | scan b =>
          obtain ⟨outbox, houtbox, rfl⟩ := Option.map_eq_some_iff.mp hstep
          obtain ⟨_, _, _, rfl | ⟨_, _, _, _, ⟨_, rfl⟩ | ⟨_, _, _, _, rfl⟩⟩⟩ :=
            outbox_scan houtbox
          · exact Or.inr (Or.inl ⟨_, houtbox, by simp, rfl, rfl, rfl⟩)
          · exact Or.inr (Or.inl ⟨_, houtbox, by simp, rfl, rfl, rfl⟩)
          · exact Or.inr (Or.inl ⟨_, houtbox, by simp, rfl, rfl, rfl⟩)
      | enqueue b now =>
          obtain ⟨outbox, houtbox, rfl⟩ := Option.map_eq_some_iff.mp hstep
          obtain ⟨_, _, _, _, rfl⟩ := outbox_enqueue houtbox
          exact Or.inr (Or.inl ⟨_, houtbox, by simp, rfl, rfl, rfl⟩)
      | commit b =>
          obtain ⟨outbox, houtbox, rfl⟩ := Option.map_eq_some_iff.mp hstep
          obtain ⟨_, _, rfl⟩ := outbox_commit houtbox
          exact Or.inr (Or.inl ⟨_, houtbox, by simp, rfl, rfl, rfl⟩)
      | fail b =>
          obtain ⟨outbox, houtbox, rfl⟩ := Option.map_eq_some_iff.mp hstep
          obtain ⟨_, _, _, rfl⟩ := outbox_fail houtbox
          exact Or.inr (Or.inl ⟨_, houtbox, by simp, rfl, rfl, rfl⟩)

/-- The server appends to the events. -/
theorem server_outbox_append {s t : ServerState} {action : ServerAction}
    (hstep : serverStep cfg fns s action = some t) :
    t.rides.outbox = s.rides.outbox ++ insertedRows s.rides t.rides := by
  rcases server_rides hstep with hsame | ⟨b, _, _, _, hride⟩ | ⟨_, _, ride, _, hinsert⟩
  · rw [hsame, insertedRows, List.drop_length, List.append_nil]
  · exact outbox_append hride
  · have hsame : t.rides.outbox = s.rides.outbox := by
      rw [hinsert]
      rfl
    rw [insertedRows, hsame, List.drop_length, List.append_nil]

/-- The ids of the events are distinct. -/
theorem chronicles_ids {s : ServerState} (h : s.Chronicles fns) :
    (s.rides.outbox.map OutboxEvent.id).Nodup := by
  rw [h.books.outbox, List.map_map]
  have hids : OutboxEvent.id ∘ Applied.event = rideSchema.stamp := by
    funext e
    exact e.event_id
  rw [hids]
  exact h.distinct.log

/-- Events are INSERTed without marks. -/
theorem chronicles_unmarked {s : ServerState} (h : s.Chronicles fns) {row : OutboxEvent}
    (hrow : row ∈ s.rides.outbox) : row.content = row := by
  rw [h.books.outbox] at hrow
  obtain ⟨e, _, rfl⟩ := List.mem_map.mp hrow
  exact e.event_content

theorem map_unmarked {rows : List OutboxEvent} (h : ∀ row ∈ rows, row.content = row) :
    rows.map OutboxEvent.content = rows :=
  (List.map_congr_left h).trans (List.map_id _)

/-- **What the server INSERTs is insertable** into a table that holds the events so
far. -/
theorem server_insertable {s t : ServerState} {action : ServerAction} {table : List OutboxEvent}
    (ht : t.Chronicles fns) (hstep : serverStep cfg fns s action = some t)
    (htable : table.map OutboxEvent.content = s.rides.outbox) :
    insertable table (insertedRows s.rides t.rides) := by
  have hids : table.map OutboxEvent.id = s.rides.outbox.map OutboxEvent.id := by
    rw [← htable, List.map_map]
    rfl
  have happend := server_outbox_append hstep
  have hnodup := chronicles_ids ht
  rw [happend, List.map_append] at hnodup
  obtain ⟨_, hnew, hapart⟩ := List.nodup_append.mp hnodup
  refine ⟨hnew, fun row hrow => ?_⟩
  have hmem : row ∈ t.rides.outbox := happend ▸ List.mem_append_right _ hrow
  have hunmarked := chronicles_unmarked ht hmem
  refine ⟨hunmarked ▸ rfl, hunmarked ▸ rfl, ?_⟩
  rw [hids]
  exact fun hold => hapart _ hold _ (List.mem_map_of_mem hrow) rfl

theorem Socket.deliver_id (socket : Socket) (message : Message) :
    (socket.deliver message).id = socket.id ∧ (socket.deliver message).rideId = socket.rideId ∧
      (socket.deliver message).stage = socket.stage ∧
      (socket.deliver message).received = socket.received ∧
      (socket.deliver message).feed =
        socket.feed ++ if socket.listens message then [message] else [] := by
  unfold Socket.deliver
  split
  · exact ⟨rfl, rfl, rfl, rfl, (List.append_assoc _ _ _).symm⟩
  · exact ⟨rfl, rfl, rfl, rfl, (List.append_nil _).symm⟩

/-- What an operation of a socket leaves alone; nothing is forwarded again once that is
over. -/
theorem Socket.run_spec {socket socket' : Socket} {op : SocketOp}
    (h : socket.run op = some socket') :
    socket'.id = socket.id ∧ socket'.rideId = socket.rideId ∧ socket'.feed = socket.feed ∧
      socket.received <+: socket'.received ∧ (socket.Over → socket'.Over) ∧
      (socket.stage = .subscribed → socket'.stage = .subscribed ∨ socket'.Over) := by
  cases op with
  | subscribe =>
      obtain ⟨haccepted, hrun⟩ := Option.ite_none_right_eq_some.mp h
      obtain rfl := Option.some.inj hrun
      exact ⟨rfl, rfl, rfl, List.prefix_rfl, by simp [Socket.Over, haccepted],
        fun _ => Or.inl rfl⟩
  | forward =>
      dsimp only [Socket.run] at h
      split at h
      case h_1 message rest hstage hinbox =>
          obtain rfl := Option.some.inj h
          refine ⟨rfl, rfl, ?_, List.prefix_append _ _, by simp [Socket.Over, hstage],
            fun _ => Or.inl hstage⟩
          simp [Socket.feed, hinbox]
      case h_2 => cases h
  | forwardFails =>
      obtain ⟨_, hrun⟩ := Option.ite_none_right_eq_some.mp h
      obtain rfl := Option.some.inj hrun
      exact ⟨rfl, rfl, rfl, List.prefix_rfl, fun _ => Or.inl rfl, fun _ => Or.inr (Or.inl rfl)⟩
  | disconnect =>
      obtain ⟨_, hrun⟩ := Option.ite_none_right_eq_some.mp h
      obtain rfl := Option.some.inj hrun
      exact ⟨rfl, rfl, rfl, List.prefix_rfl, fun _ => Or.inr rfl, fun _ => Or.inr (Or.inr rfl)⟩

/-- What an operation of some socket does to this one. -/
theorem Socket.operate_spec (socket : Socket) (id : SocketId) (op : SocketOp) :
    let socket' := if socket.id = id then (socket.run op).getD socket else socket
    socket'.id = socket.id ∧ socket'.rideId = socket.rideId ∧ socket'.feed = socket.feed ∧
      socket.received <+: socket'.received ∧ (socket.Over → socket'.Over) ∧
      (socket.stage = .subscribed → socket'.stage = .subscribed ∨ socket'.Over) := by
  intro socket'
  dsimp only [socket']
  split
  case isFalse => exact ⟨rfl, rfl, rfl, List.prefix_rfl, fun h => h, Or.inl⟩
  case isTrue =>
      cases hrun : socket.run op with
      | none => exact ⟨rfl, rfl, rfl, List.prefix_rfl, fun h => h, Or.inl⟩
      | some next => exact Socket.run_spec hrun

/-- The feeds stay in order where sockets only get what is published on their channel. -/
theorem feeds_kept {f : Socket → Socket} (new : List (EventId × Message))
    (h : ∀ socket ∈ s.sockets, ∀ message ∈ socket.feed,
      rideChannel socket.rideId = message.channel ∧ message ∈ s.outbox.published.map Prod.snd)
    (hsockets : t.sockets = s.sockets.map f)
    (hpublished : t.outbox.published = s.outbox.published ++ new)
    (hf : ∀ socket, (f socket).rideId = socket.rideId ∧
      ∀ message ∈ (f socket).feed, message ∈ socket.feed ∨
        rideChannel socket.rideId = message.channel ∧ message ∈ new.map Prod.snd) :
    ∀ socket ∈ t.sockets, ∀ message ∈ socket.feed,
      rideChannel socket.rideId = message.channel ∧
        message ∈ t.outbox.published.map Prod.snd := by
  intro socket' hmem message hmessage
  rw [hsockets] at hmem
  obtain ⟨socket, hsocket, rfl⟩ := List.mem_map.mp hmem
  obtain ⟨hride, hfeed⟩ := hf socket
  rw [hride, hpublished, List.map_append]
  rcases hfeed message hmessage with hold | ⟨hchannel, hnew⟩
  · obtain ⟨hchannel, hout⟩ := h socket hsocket message hold
    exact ⟨hchannel, List.mem_append_left _ hout⟩
  · exact ⟨hchannel, List.mem_append_right _ hnew⟩

theorem mapped_ids {f : Socket → Socket} (hf : ∀ socket, (f socket).id = socket.id)
    (sockets : List Socket) : (sockets.map f).map Socket.id = sockets.map Socket.id := by
  rw [List.map_map]
  exact List.map_congr_left fun socket _ => hf socket

/-- **One step keeps the gateway in order.** -/
theorem step_inOrder (h : s.InOrder fns) (hstep : gatewayStep cfg fns s a = some t) :
    t.InOrder fns := by
  rcases gateway_cases hstep with ⟨action, hserver, houtbox, hsockets⟩ |
    ⟨action, hworker, hno, hserver, hpublished, hsockets⟩ |
    ⟨b, event, hworker, hserver, hpublished, hsockets⟩ | ⟨hserver, houtbox, hsockets⟩
  · have ht := server_chronicles h.server hserver
    have happend := server_outbox_append hserver
    have hinsert : outboxStep s.outbox (.insert (insertedRows s.server.rides t.server.rides)) =
        some t.outbox := by
      rw [houtbox]
      exact if_pos (server_insertable ht hserver h.table)
    refine ⟨ht, step_outboxBooks h.outbox hinsert, ?_, hsockets ▸ h.ids, ?_⟩
    · have hunmarked : (insertedRows s.server.rides t.server.rides).map OutboxEvent.content =
          insertedRows s.server.rides t.server.rides := map_unmarked fun row hrow =>
        chronicles_unmarked ht (happend ▸ List.mem_append_right _ hrow)
      rw [houtbox, happend, OutboxState.insert, List.map_append, h.table, hunmarked]
    · rw [hsockets, houtbox]
      exact h.feeds
  · refine ⟨hserver ▸ h.server, step_outboxBooks h.outbox hworker, ?_, hsockets ▸ h.ids, ?_⟩
    · rcases step_table hworker with ⟨rows, hinsert, _⟩ | ⟨_, hsame⟩
      · exact absurd hinsert (hno rows)
      · rw [hsame, h.table, hserver]
    · rw [hsockets, hpublished]
      exact h.feeds
  · refine ⟨hserver ▸ h.server, step_outboxBooks h.outbox hworker, ?_, ?_, ?_⟩
    · rcases step_table hworker with ⟨rows, hinsert, _⟩ | ⟨_, hsame⟩
      · cases hinsert
      · rw [hsame, h.table, hserver]
    · rw [hsockets, mapped_ids fun socket => (socket.deliver_id event.message).1]
      exact h.ids
    · refine feeds_kept _ h.feeds hsockets hpublished fun socket => ?_
      obtain ⟨_, hride, _, _, hfeed⟩ := socket.deliver_id event.message
      refine ⟨hride, fun message hmem => ?_⟩
      rw [hfeed] at hmem
      rcases List.mem_append.mp hmem with hold | hnew
      · exact Or.inl hold
      · obtain ⟨hlistens, hsame⟩ : socket.listens event.message = true ∧
            message = event.message := by
          split at hnew
          case isTrue hlistens => exact ⟨hlistens, List.mem_singleton.mp hnew⟩
          case isFalse => cases hnew
        rw [hsame]
        exact Or.inr ⟨(of_decide_eq_true hlistens).2, List.mem_singleton_self _⟩
  · rcases hsockets with ⟨socket, hnew, hempty, hsockets⟩ | ⟨id, op, hsockets⟩
    · refine ⟨hserver ▸ h.server, houtbox ▸ h.outbox, ?_, ?_, ?_⟩
      · rw [houtbox, hserver]
        exact h.table
      · rw [hsockets, List.map_append]
        refine List.nodup_append.mpr ⟨h.ids, List.nodup_singleton _, ?_⟩
        rintro id hid _ hlast rfl
        exact hnew (List.mem_singleton.mp hlast ▸ hid)
      · intro other hmem message hmessage
        rw [houtbox]
        rw [hsockets] at hmem
        rcases List.mem_append.mp hmem with hold | hlast
        · exact h.feeds other hold message hmessage
        · rw [List.mem_singleton.mp hlast, hempty] at hmessage
          cases hmessage
    · refine ⟨hserver ▸ h.server, houtbox ▸ h.outbox, ?_, ?_, ?_⟩
      · rw [houtbox, hserver]
        exact h.table
      · rw [hsockets, mapped_ids fun socket => (socket.operate_spec id op).1]
        exact h.ids
      · refine feeds_kept [] h.feeds hsockets (by rw [houtbox, List.append_nil]) fun socket => ?_
        obtain ⟨_, hride, hfeed, _⟩ := socket.operate_spec id op
        exact ⟨hride, fun message hmem => Or.inl (hfeed ▸ hmem)⟩

/-- What became of a socket that was subscribed at `s`: what was published on its channel
since was queued for it, or its forwarding is over. -/
structure KeepsUp (s : GatewayState) (socket : Socket) (t : GatewayState)
    (fresh : List (EventId × Message)) (socket' : Socket) : Prop where
  published : t.outbox.published = s.outbox.published ++ fresh
  mem : socket' ∈ t.sockets
  id : socket'.id = socket.id
  rideId : socket'.rideId = socket.rideId
  received : socket.received <+: socket'.received
  feed : socket'.stage = .subscribed ∧
      socket'.feed = socket.feed ++ onChannel socket.rideId fresh ∨
    socket'.Over

theorem keepsUp_refl {socket : Socket} (hmem : socket ∈ s.sockets)
    (hon : socket.stage = .subscribed) : KeepsUp s socket s [] socket where
  published := (List.append_nil _).symm
  mem := hmem
  id := rfl
  rideId := rfl
  received := List.prefix_rfl
  feed := Or.inl ⟨hon, (List.append_nil _).symm⟩

/-- **One step keeps a subscribed socket up to date.** -/
theorem KeepsUp.step {u : GatewayState} {socket socket' : Socket}
    {fresh : List (EventId × Message)} (h : KeepsUp u socket s fresh socket')
    (hstep : gatewayStep cfg fns s a = some t) :
    ∃ fresh' socket'', KeepsUp u socket t fresh' socket'' := by
  rcases gateway_cases hstep with ⟨_, _, houtbox, hsockets⟩ | ⟨_, _, _, _, hpublished, hsockets⟩ |
    ⟨b, event, _, _, hpublished, hsockets⟩ | ⟨_, houtbox, hsockets⟩
  · refine ⟨fresh, socket', ?_, hsockets ▸ h.mem, h.id, h.rideId, h.received, h.feed⟩
    rw [houtbox]
    exact h.published
  · exact ⟨fresh, socket', hpublished.trans h.published, hsockets ▸ h.mem, h.id, h.rideId,
      h.received, h.feed⟩
  · obtain ⟨hid, hride, hstage, hreceived, hfeed⟩ := socket'.deliver_id event.message
    refine ⟨fresh ++ [(event.id, event.message)], socket'.deliver event.message, ?_, ?_,
      hid.trans h.id, hride.trans h.rideId, hreceived ▸ h.received, ?_⟩
    · rw [hpublished, h.published, List.append_assoc]
    · rw [hsockets]
      exact List.mem_map_of_mem h.mem
    · rcases h.feed with ⟨hon, hgot⟩ | hover
      · refine Or.inl ⟨hstage.trans hon, ?_⟩
        have hlistens : socket'.listens event.message =
            decide (rideChannel socket.rideId = event.message.channel) := by
          simp [Socket.listens, hon, h.rideId]
        rw [hfeed, hgot, List.append_assoc, onChannel, onChannel, List.map_append,
          List.filter_append, hlistens]
        simp [List.filter_singleton]
      · exact Or.inr (hover.imp hstage.trans hstage.trans)
  · rcases hsockets with ⟨other, _, _, hsockets⟩ | ⟨id, op, hsockets⟩
    · refine ⟨fresh, socket', houtbox ▸ h.published, ?_, h.id, h.rideId, h.received, h.feed⟩
      rw [hsockets]
      exact List.mem_append_left _ h.mem
    · obtain ⟨hid, hride, hfeed, hreceived, hover, hopen⟩ := socket'.operate_spec id op
      refine ⟨fresh, _, houtbox ▸ h.published, ?_, hid.trans h.id, hride.trans h.rideId,
        h.received.trans hreceived, ?_⟩
      · rw [hsockets]
        exact List.mem_map_of_mem h.mem
      · rcases h.feed with ⟨hon, hgot⟩ | hgone
        · rcases hopen hon with hstill | hnow
          · exact Or.inl ⟨hstill, hfeed.trans hgot⟩
          · exact Or.inr hnow
        · exact Or.inr (hover hgone)

end Steps

section Runs

variable {cfg : Settings} {fns : ServerFunctions} {users : List User} {s t : GatewayState}
  {acts more : List GatewayAction} {socket socket' : Socket}

theorem inOrder_init (users : List User) : (GatewayState.init users).InOrder fns where
  server := chronicles_init users
  outbox := outboxBooks_init
  table := rfl
  ids := List.nodup_nil
  feeds := fun _ hmem => by cases hmem

theorem run_inOrder (h : Steps (gatewaySystem cfg fns) free (.init users) acts s) :
    s.InOrder fns :=
  h.invariant (GatewayState.InOrder fns) (inOrder_init users)
    fun _ _ _ hs _ hstep => step_inOrder hs hstep

/-- A run of the gateway is a run of its server. -/
theorem gateway_server_run (h : Steps (gatewaySystem cfg fns) free s acts t) :
    ∃ seen, Steps (serverSystem cfg fns) free s.server seen t.server := by
  refine h.simulate GatewayState.server (fun _ => True) trivial (fun _ _ _ _ _ _ => trivial) ?_
  intro u a v _ _ hstep
  rcases gateway_cases hstep with ⟨action, hserver, _, _⟩ | ⟨_, _, _, hsame, _⟩ |
    ⟨_, _, _, hsame, _⟩ | ⟨hsame, _, _⟩
  · exact Or.inr ⟨action, trivial, hserver⟩
  · exact Or.inl hsame
  · exact Or.inl hsame
  · exact Or.inl hsame

/-- A socket keeps up over a run. -/
theorem run_keepsUp (hmore : Steps (gatewaySystem cfg fns) free s more t)
    (hmem : socket ∈ s.sockets) (hon : socket.stage = .subscribed) :
    ∃ fresh socket', KeepsUp s socket t fresh socket' := by
  refine hmore.invariant (fun u => ∃ fresh socket', KeepsUp s socket u fresh socket')
    ⟨[], socket, keepsUp_refl hmem hon⟩ ?_
  rintro u a v ⟨fresh, socket', hkeeps⟩ _ hstep
  exact hkeeps.step hstep

/-- Channels of different rides are different. -/
theorem rideChannel_inj {r r' : RideId} (h : rideChannel r = rideChannel r') : r = r' := by
  unfold rideChannel at h
  have hlists := congrArg String.toList h
  simp only [String.toList_append, List.append_cancel_right_eq, List.append_cancel_left_eq]
    at hlists
  exact repr_inj (String.toList_injective hlists)

/-- The events of a run of the server are kept. -/
theorem server_outbox_grows {s t : ServerState} {acts : List ServerAction}
    (h : Steps (serverSystem cfg fns) free s acts t) : s.rides.outbox <+: t.rides.outbox := by
  refine h.along (fun u v => u.rides.outbox <+: v.rides.outbox) (fun _ => List.prefix_rfl)
    (fun _ _ _ => List.IsPrefix.trans) (fun _ => True) trivial (fun _ _ _ _ _ _ => trivial) ?_
  intro u a v _ _ hstep
  rw [server_outbox_append hstep]
  exact List.prefix_append _ _

/-- What was published is about a committed change. -/
theorem published_change (h : s.InOrder fns) {out : EventId × Message}
    (hout : out ∈ s.outbox.published) :
    ∃ e ∈ s.server.rides.log, out = (e.event.id, e.event.message) := by
  obtain ⟨row, hrow, rfl⟩ := h.outbox.deliveries.genuine out hout
  have hevent : row.content ∈ s.server.rides.log.map Applied.event := by
    rw [← h.server.books.outbox, ← h.table]
    exact List.mem_map_of_mem hrow
  obtain ⟨e, he, hsame⟩ := List.mem_map.mp hevent
  have hcontent : e.event.content = row.content := e.event_content.trans hsame
  exact ⟨e, he, Prod.ext (id_of_content hcontent).symm (message_of_content hcontent).symm⟩

/-- What is queued for or forwarded to a socket tells of a committed change of its ride. -/
theorem feed_change (h : s.InOrder fns) (hmem : socket ∈ s.sockets) {message : Message}
    (hmessage : message ∈ socket.feed) :
    ∃ e ∈ s.server.rides.committed socket.rideId, message = e.event.message := by
  obtain ⟨hchannel, hout⟩ := h.feeds socket hmem message hmessage
  obtain ⟨out, hpublished, rfl⟩ := List.mem_map.mp hout
  obtain ⟨e, he, rfl⟩ := published_change h hpublished
  have hsame : socket.rideId = e.event.aggregateId := rideChannel_inj hchannel
  rw [e.event_aggregateId] at hsame
  exact ⟨e, mem_committed.mpr ⟨he, hsame.symm⟩, rfl⟩

/-- A change of a ride that was committed after `s` was not published before. -/
theorem change_unpublished (hs : s.InOrder fns) (ht : t.InOrder fns)
    (hgrown : s.server.rides.outbox <+: t.server.rides.outbox) {r : RideId}
    {changes : List Applied} (hevents : t.server.rides.events r =
      s.server.rides.events r ++ changes.map Applied.event) {e : Applied} (he : e ∈ changes)
    {message : Message} : (e.event.id, message) ∉ s.outbox.published := by
  intro hout
  obtain ⟨f, hf, hsame⟩ := published_change hs hout
  have hid : f.event.id = e.event.id := (Prod.mk.inj hsame).1.symm
  have hidsAll := chronicles_ids ht.server
  have hfmem : f.event ∈ s.server.rides.outbox :=
    hs.server.books.outbox ▸ List.mem_map_of_mem hf
  have hemem : e.event ∈ t.server.rides.events r :=
    hevents ▸ List.mem_append_right _ (List.mem_map_of_mem he)
  obtain ⟨heout, hride⟩ := List.mem_filter.mp hemem
  have heq : f.event = e.event :=
    List.inj_on_of_nodup_map hidsAll (hgrown.subset hfmem) heout hid
  have hfevents : f.event ∈ s.server.rides.events r :=
    List.mem_filter.mpr ⟨hfmem, heq ▸ hride⟩
  have hnodup : ((t.server.rides.events r).map OutboxEvent.id).Nodup :=
    hidsAll.sublist (List.filter_sublist.map _)
  rw [hevents, List.map_append] at hnodup
  exact (List.nodup_append.mp hnodup).2.2 _ (List.mem_map_of_mem hfevents) _
    (List.mem_map_of_mem (List.mem_map_of_mem he)) hid

/-- The forwarding task sends the first message that is queued. -/
theorem forward_step (hids : (s.sockets.map Socket.id).Nodup) (hmem : socket ∈ s.sockets)
    (hon : socket.stage = .subscribed) {message : Message} {rest : List Message}
    (hinbox : socket.inbox = message :: rest) :
    ∃ t, gatewayStep cfg fns s (.operate socket.id .forward) = some t ∧
      (t.sockets.map Socket.id).Nodup ∧
      { socket with inbox := rest, received := socket.received ++ [message] } ∈ t.sockets := by
  have hrun : socket.run .forward =
      some { socket with inbox := rest, received := socket.received ++ [message] } := by
    simp [Socket.run, hon, hinbox]
  have henabled : s.sockets.any (fun other =>
      other.id = socket.id ∧ (other.run .forward).isSome) = true :=
    List.any_eq_true.mpr ⟨socket, hmem, decide_eq_true ⟨rfl, by rw [hrun]; rfl⟩⟩
  refine ⟨_, if_pos henabled, ?_, ?_⟩
  · have hsame := mapped_ids (fun other => (other.operate_spec socket.id .forward).1) s.sockets
    exact hsame.symm ▸ hids
  · refine List.mem_map.mpr ⟨socket, hmem, ?_⟩
    rw [if_pos rfl, hrun]
    rfl

/-- **The forwarding task empties the queue**, by one step for each message. -/
theorem forwards_all {n : Nat} (hids : (s.sockets.map Socket.id).Nodup)
    (hmem : socket ∈ s.sockets) (hon : socket.stage = .subscribed)
    (hlength : socket.inbox.length = n) :
    ∃ t, Steps (gatewaySystem cfg fns) free s
        (List.replicate n (.operate socket.id .forward)) t ∧
      socket.caughtUp ∈ t.sockets := by
  induction n generalizing s socket with
  | zero =>
      have hempty : socket.inbox = [] := List.length_eq_zero_iff.mp hlength
      have hsame : socket = socket.caughtUp := by
        rw [Socket.caughtUp, Socket.feed, hempty, List.append_nil, ← hempty]
      rw [hsame] at hmem
      exact ⟨s, .nil s, hmem⟩
  | succ n ih =>
      obtain ⟨message, rest, hinbox⟩ := List.exists_cons_of_length_eq_add_one hlength
      obtain ⟨u, hstep, hids', hmem'⟩ : ∃ u,
          gatewayStep cfg fns s (.operate socket.id .forward) = some u ∧
          (u.sockets.map Socket.id).Nodup ∧
          { socket with inbox := rest, received := socket.received ++ [message] } ∈ u.sockets :=
        forward_step hids hmem hon hinbox
      have hrest : rest.length = n := by
        rw [hinbox, List.length_cons] at hlength
        omega
      obtain ⟨t, hrun, hcaught⟩ := ih hids' hmem' hon hrest
      refine ⟨t, (Steps.single trivial hstep).trans hrun, ?_⟩
      have hsame : Socket.caughtUp
          { socket with inbox := rest, received := socket.received ++ [message] } =
          socket.caughtUp := by
        simp [Socket.caughtUp, Socket.feed, hinbox]
      exact hsame ▸ hcaught

/-- What a subscribed socket has been forwarded of its feed, `before` being the socket at
an earlier moment: what had been forwarded stays, it is the front of the feed, and all of
it when nothing is queued; the rest is forwarded by as many steps of the task. -/
structure Forwards (cfg : Settings) (fns : ServerFunctions) (t : GatewayState)
    (before socket : Socket) : Prop where
  kept : before.received <+: socket.received
  front : socket.received <+: socket.feed
  all : socket.inbox = [] → socket.received = socket.feed
  rest : ∃ u, Steps (gatewaySystem cfg fns) free t
      (List.replicate socket.inbox.length (.operate socket.id .forward)) u ∧
    socket.caughtUp ∈ u.sockets

/-- **Followers miss nothing.**  For a socket that is subscribed at two moments exactly
what was published on the channel of its ride in between was queued behind what had been,
in that order, and it is forwarded from the front (`Forwards`); all that was ever queued
or forwarded tells of committed changes of the ride; and of the changes that were
committed in between each was queued so, or waits in the outbox. -/
theorem followers_miss_nothing
    (h : Steps (gatewaySystem cfg fns) free (.init users) acts s)
    (hmore : Steps (gatewaySystem cfg fns) free s more t)
    (hmem : socket ∈ s.sockets) (hon : socket.stage = .subscribed)
    (hmem' : socket' ∈ t.sockets) (hid : socket'.id = socket.id)
    (hon' : socket'.stage = .subscribed) :
    ∃ fresh, t.outbox.published = s.outbox.published ++ fresh ∧
      socket'.feed = socket.feed ++ onChannel socket.rideId fresh ∧
      Forwards cfg fns t socket socket' ∧
      (∀ message ∈ socket'.feed, ∃ e ∈ t.server.rides.committed socket.rideId,
        message = e.event.message) ∧
      ∀ ride, s.server.data.rides socket.rideId = some ride →
        ∃ ride' changes, t.server.data.rides socket.rideId = some ride' ∧
          Later ride changes ride' ∧
          ∀ e ∈ changes, e.event.message ∈ onChannel socket.rideId fresh ∨
            ∃ row ∈ t.outbox.table, row.content = e.event ∧ row.published = false := by
  have hs := run_inOrder h
  have ht := run_inOrder (h.trans hmore)
  obtain ⟨_, hserver⟩ := gateway_server_run hmore
  obtain ⟨fresh, last, hkeeps⟩ := run_keepsUp hmore hmem hon
  obtain rfl : last = socket' :=
    List.inj_on_of_nodup_map ht.ids hkeeps.mem hmem' (hkeeps.id.trans hid.symm)
  have hfeed : last.feed = socket.feed ++ onChannel socket.rideId fresh := by
    rcases hkeeps.feed with ⟨_, hgot⟩ | hdeaf | hclosed
    · exact hgot
    · rw [hon'] at hdeaf
      cases hdeaf
    · rw [hon'] at hclosed
      cases hclosed
  have hforwards : Forwards cfg fns t socket last :=
    ⟨hkeeps.received, List.prefix_append _ _, fun hempty => by simp [Socket.feed, hempty],
      forwards_all ht.ids hmem' hon' rfl⟩
  refine ⟨fresh, hkeeps.published, hfeed, hforwards, fun message hmessage => ?_,
    fun ride hride => ?_⟩
  · exact hkeeps.rideId ▸ feed_change ht hmem' hmessage
  · obtain ⟨ride', changes, hride', hlater, hcommitted, hevents⟩ :=
      rides_go_on hs.server hserver hride
    refine ⟨ride', changes, hride', hlater, fun e he => ?_⟩
    have hlogged : e ∈ t.server.rides.committed socket.rideId :=
      hcommitted ▸ List.mem_append_right _ he
    obtain ⟨helog, hereplaced⟩ := mem_committed.mp hlogged
    have hcontents : e.event ∈ t.outbox.table.map OutboxEvent.content := by
      rw [ht.table, ht.server.books.outbox]
      exact List.mem_map_of_mem helog
    obtain ⟨row, hrow, hcontent⟩ := List.mem_map.mp hcontents
    cases hpublished : row.published with
    | false => exact Or.inr ⟨row, hrow, hcontent, hpublished⟩
    | true =>
        have hsame : row.content = e.event.content := hcontent.trans e.event_content.symm
        have hout := (ht.outbox.delivers.delivered row hrow hpublished).1
        rw [id_of_content hsame, message_of_content hsame, hkeeps.published] at hout
        rcases List.mem_append.mp hout with hold | hnew
        · exact absurd hold (change_unpublished hs ht (server_outbox_grows hserver) hevents he)
        · refine Or.inl (List.mem_filter.mpr ⟨List.mem_map_of_mem (f := Prod.snd) hnew, ?_⟩)
          have hchannel : rideChannel socket.rideId = e.event.message.channel :=
            congrArg rideChannel (e.event_aggregateId.trans hereplaced).symm
          exact decide_eq_true hchannel

end Runs

/-- The passenger follows the new ride. -/
def followsRide : List GatewayAction :=
  rideRequested.map .server ++ [.connect 0 0 otherAccessToken, .operate 0 .subscribe]

/-- A driver is found, and a worker publishes both changes. -/
def changesPublished : List GatewayAction :=
  servedWhileWaiting.map .server ++
  [.worker (.select 0 [
      ⟨0, "ride", 0, "ride.status_changed", ⟨0, .requested, .matching, none, 2⟩, false, 0, none⟩,
      ⟨1, "ride", 0, "ride.status_changed", ⟨0, .matching, .accepted, some 1, 2⟩, false, 0,
        none⟩]),
    .worker (.scan 0), .worker (.scan 0), .worker (.scan 0), .worker (.publish 0),
    .worker (.enqueue 0 0), .operate 0 .forward, .worker (.publish 0), .worker (.enqueue 0 0),
    .worker (.commit 0)]

/-- One of the two messages is still queued when the batch is committed; one more step
forwards it. -/
theorem follower_gets_both_changes : ∃ s t u socket socket' ride ride' changes,
    Steps (gatewaySystem {} sampleTown) free (.init townUsers) followsRide s ∧
    Steps (gatewaySystem {} sampleTown) free s changesPublished t ∧
    Steps (gatewaySystem {} sampleTown) free t [.operate 0 .forward] u ∧
    socket ∈ s.sockets ∧ socket' ∈ t.sockets ∧ socket'.received.length = 1 ∧
    socket'.caughtUp ∈ u.sockets ∧ Later ride changes ride' ∧ changes.length = 2 ∧
    ∀ e ∈ changes, e.event.message ∈ socket'.caughtUp.received := by
  have hfirst : (exec (gatewaySystem {} sampleTown) (.init townUsers) followsRide).any (fun s =>
      s.sockets.any (fun socket => socket.id = 0 ∧ socket.stage = .subscribed ∧
        socket.rideId = 0) ∧
      (s.server.data.rides 0).any fun ride => ride.version = 1) = true := by decide +kernel
  have hboth : (exec (gatewaySystem {} sampleTown) (.init townUsers)
      (followsRide ++ changesPublished)).any (fun t =>
      t.sockets.any (fun socket => socket.id = 0 ∧ socket.stage = .subscribed ∧
        socket.received.length = 1 ∧ socket.inbox.length = 1) ∧
      t.outbox.table.all (fun row => row.published = true) ∧
      (t.server.data.rides 0).any fun ride => ride.version = 3) = true := by decide +kernel
  obtain ⟨s, hbefore, hs⟩ := Steps.of_exec_any hfirst
  obtain ⟨t, hrun, ht⟩ := Steps.of_exec_any hboth
  obtain ⟨s', hbefore', hafter⟩ := hrun.split
  obtain rfl := hbefore'.unique hbefore
  obtain ⟨hsocket, hride⟩ := of_decide_eq_true hs
  obtain ⟨hsocket', hall, hride'⟩ := of_decide_eq_true ht
  obtain ⟨socket, hmem, hon⟩ := List.any_eq_true.mp hsocket
  obtain ⟨hid, hstage, hrideId⟩ := of_decide_eq_true hon
  obtain ⟨socket', hmem', hon'⟩ := List.any_eq_true.mp hsocket'
  obtain ⟨hid', hstage', hsent, hqueued⟩ := of_decide_eq_true hon'
  obtain ⟨ride, hrow, hone⟩ := (Option.any_eq_true _ _).mp hride
  obtain ⟨last, hlast, hthree⟩ := (Option.any_eq_true _ _).mp hride'
  obtain ⟨fresh, _, hfeed, hforwards, _, hchanges⟩ := followers_miss_nothing hbefore hafter hmem
    hstage hmem' (hid'.trans hid.symm) hstage'
  obtain ⟨u, hlast', hcaught⟩ := hforwards.rest
  rw [hqueued, hid'] at hlast'
  rw [hrideId] at hfeed hchanges
  obtain ⟨ride', changes, hrow', hlater, hreached⟩ := hchanges ride hrow
  obtain rfl : last = ride' := Option.some.inj (hlast.symm.trans hrow')
  refine ⟨s', t, u, socket, socket', ride, last, changes, hbefore, hafter, hlast', hmem, hmem',
    hsent, hcaught, hlater, ?_, fun e he => ?_⟩
  · have hversion := hlater.version
    rw [of_decide_eq_true hone, of_decide_eq_true hthree] at hversion
    omega
  · rcases hreached e he with hgot | ⟨row, hin, _, hwaiting⟩
    · change e.event.message ∈ socket'.feed
      rw [hfeed]
      exact List.mem_append_right _ hgot
    · have hpublished := of_decide_eq_true (List.all_eq_true.mp hall row hin)
      rw [hwaiting] at hpublished
      cases hpublished

end RideFlow
