/-
The pool of `FileTransferService`: `connect` fills it, every `readBytes` takes a
connection out and puts it back, and `disconnect` empties it again.
-/
import GEDS.TcpDataTransport

namespace GEDS

open Status

namespace TcpTransport

/-- `MAXIMUM_TCP_THREADS`; the number of threads is an `unsigned int`, 0 if unknown. -/
def maximumTcpThreads (hardwareConcurrency : UInt32) : Nat :=
  min 8 (hardwareConcurrency * 2).toNat

/-- `FileTransferProtocol` -/
inductive FileTransferProtocol where
  | socket
  | rdma
deriving DecidableEq

/-- `rpc::TransportEndpoint` -/
structure TransportEndpoint where
  type : FileTransferProtocol
  address : Bytes
  port : UInt32

/-- How the channel to the other node is opened. -/
inductive ChannelResult where
  | connected
  | timedOut
  | threw (reason : Bytes)

/-- What `connect` is answered: the endpoints, unless the call fails, and whether the
connection of a round to an endpoint succeeds. -/
structure ConnectAnswers where
  channel : ChannelResult
  endpoints : Option (List TransportEndpoint)
  connects : Nat → Nat → Bool

/-- `TcpClient` after `connect`, with a number of its own. -/
structure TcpClient where
  id : Nat
  ip : Bytes
  port : UInt16

/-- `ConnectionState`; it is unknown while `disconnect` waits for connections, with how
many are left. -/
inductive ConnectionState where
  | disconnected
  | connected
  | unknown (left : Nat)
deriving DecidableEq

/-- `FileTransferService`: calls of `readBytes` wait for a connection of the pool or
have one; `broken` are the connections whose socket threw. -/
structure TransferService where
  nodeAddress : Bytes
  connectionState : ConnectionState
  pool : List TcpClient
  waiting : List Nat
  running : List (Nat × TcpClient)
  opened : Nat
  broken : List Nat

inductive ServiceEvent where
  | connect (answers : ConnectAnswers)
  | disconnect
  | disconnectPop
  | check (call : Nat)
  | pop (call : Nat)
  | finish (call : Nat)
  | throw (call : Nat)

namespace TransferService

def new (nodeAddress : Bytes) : TransferService where
  nodeAddress := nodeAddress
  connectionState := .disconnected
  pool := []
  waiting := []
  running := []
  opened := 0
  broken := []

/-- `nodeAddress.substr(0, nodeAddress.find(":"))` -/
def nodeLocation (nodeAddress : Bytes) : Option Bytes :=
  (nodeAddress.findIdx? fun byte => decide (byte = 0x3a)).map nodeAddress.take

/-- The endpoint is tried in a round, and the connection succeeds. -/
def Connectable (location : Bytes) (connects : Nat → Bool) (index : Nat)
    (endpoint : TransportEndpoint) : Prop :=
  endpoint.type = .socket ∧ endpoint.address = location ∧ connects index = true

instance (location : Bytes) (connects : Nat → Bool) (index : Nat)
    (endpoint : TransportEndpoint) : Decidable (Connectable location connects index endpoint) :=
  inferInstanceAs (Decidable (_ ∧ _))

/-- The inner loop of `connect`: the first endpoint that can be connected. -/
def connectRound (location : Bytes) (connects : Nat → Bool) :
    Nat → List TransportEndpoint → Option TransportEndpoint
  | _, [] => none
  | index, endpoint :: rest =>
      if Connectable location connects index endpoint then some endpoint
      else connectRound location connects (index + 1) rest

variable (hardwareConcurrency : UInt32) (s : TransferService)

/-- One round of `connect`; the port is cut to 16 bits. -/
def openConnection (location : Bytes) (endpoints : List TransportEndpoint)
    (connects : Nat → Bool) : TransferService :=
  match connectRound location connects 0 endpoints with
  | none => s
  | some endpoint =>
      { s with
        pool := s.pool ++ [⟨s.opened, endpoint.address, endpoint.port.toUInt16⟩]
        opened := s.opened + 1 }

/-- The loop of `connect` over `MAXIMUM_TCP_THREADS` rounds. -/
def openConnections (location : Bytes) (answers : ConnectAnswers)
    (endpoints : List TransportEndpoint) : TransferService :=
  (List.range (maximumTcpThreads hardwareConcurrency)).foldl
    (fun s round => s.openConnection location endpoints (answers.connects round)) s

/-- `FileTransferService::connect` -/
def connect (answers : ConnectAnswers) : Status × TransferService :=
  if s.connectionState ≠ .disconnected then
    (failedPreconditionError (text "Cannot reinitialize service."), s)
  else
    match answers.channel with
    | .timedOut =>
        (unavailableError (text "Could not connect to " ++ s.nodeAddress ++ text "."), s)
    | .threw reason =>
        (unavailableError (text "Could not open channel with " ++ s.nodeAddress ++
          text ". Reason: " ++ reason), s)
    | .connected =>
        match nodeLocation s.nodeAddress with
        | none => (unknownError (text "Unable to parse node address."), s)
        | some location =>
            match answers.endpoints with
            | none => (unknownError (text "Unable to obtain available endpoints!"), s)
            | some endpoints =>
                (okStatus,
                  { s.openConnections hardwareConcurrency location answers endpoints with
                    connectionState := .connected })

/-- `disconnect` is done when it has taken the last connection. -/
def disconnecting : Nat → ConnectionState
  | 0 => .disconnected
  | left + 1 => .unknown (left + 1)

/-- The beginning of `FileTransferService::disconnect`. -/
def disconnect : Status × TransferService :=
  if s.connectionState ≠ .connected then
    (unknownError (text "The service is in the wrong state!"), s)
  else
    (okStatus,
      { s with connectionState := disconnecting (maximumTcpThreads hardwareConcurrency) })

/-- `pop_wait_until_available` in `disconnect`; on an empty pool it waits. -/
def disconnectPop : Option TransferService :=
  match s.connectionState, s.pool with
  | .unknown (left + 1), _ :: pool =>
      some { s with connectionState := disconnecting left, pool := pool }
  | _, _ => none

/-- The check at the beginning of `FileTransferService::readBytes`. -/
def check (call : Nat) : Status × TransferService :=
  if s.connectionState ≠ .connected then (failedPreconditionError (text "Not connected."), s)
  else (okStatus, { s with waiting := s.waiting ++ [call] })

/-- `pop_wait_until_available` in `readBytes`; on an empty pool it waits. -/
def pop (call : Nat) : Option TransferService :=
  match s.pool with
  | [] => none
  | client :: pool =>
      if call ∈ s.waiting then
        some { s with
          pool := pool
          waiting := s.waiting.erase call
          running := (call, client) :: s.running }
      else none

/-- `TcpClient::readBytes` returns, with a count or with a status. -/
def finish (call : Nat) : Option TransferService :=
  match s.running.find? fun entry => decide (entry.1 = call) with
  | none => none
  | some entry =>
      some { s with
        pool := s.pool ++ [entry.2]
        running := s.running.eraseP fun entry => decide (entry.1 = call) }

/-- `TcpClient::readBytes` throws, and nobody puts the connection back. -/
def throw (call : Nat) : Option TransferService :=
  match s.running.find? fun entry => decide (entry.1 = call) with
  | none => none
  | some entry =>
      some { s with
        running := s.running.eraseP fun entry => decide (entry.1 = call)
        broken := entry.2.id :: s.broken }

/-- `connect` and `disconnect` wait for the lock while connections are taken. -/
def perform : ServiceEvent → Option TransferService
  | .connect answers =>
      match s.connectionState with
      | .unknown _ => none
      | _ => some (s.connect hardwareConcurrency answers).2
  | .disconnect =>
      match s.connectionState with
      | .unknown _ => none
      | _ => some (s.disconnect hardwareConcurrency).2
  | .disconnectPop => s.disconnectPop
  | .check call => some (s.check call).2
  | .pop call => s.pop call
  | .finish call => s.finish call
  | .throw call => s.throw call

def run : List ServiceEvent → TransferService → Option TransferService
  | [], s => some s
  | event :: events, s => (s.perform hardwareConcurrency event).bind (run events)

/-- Every round of `connect` finds an endpoint that it can connect to. -/
def Fills (answers : ConnectAnswers) : Prop :=
  ∀ location endpoints, nodeLocation s.nodeAddress = some location →
    answers.endpoints = some endpoints →
    ∀ round < maximumTcpThreads hardwareConcurrency, ∃ index endpoint,
      endpoints[index]? = some endpoint ∧
        Connectable location (answers.connects round) index endpoint

/-- A connection is missing after the event: a round of `connect` found no endpoint, or
the socket of a call threw. -/
def Loses : ServiceEvent → Prop
  | .connect answers =>
      s.connectionState = .disconnected ∧ answers.channel = .connected ∧
        ¬ s.Fills hardwareConcurrency answers
  | .throw _ => True
  | _ => False

def NeverLoses : List ServiceEvent → TransferService → Prop
  | [], _ => True
  | event :: events, s =>
      ¬ s.Loses hardwareConcurrency event ∧
        ∀ s', s.perform hardwareConcurrency event = some s' → NeverLoses events s'

/-- No call of `readBytes` is under way. -/
def Idle : Prop := s.waiting = [] ∧ s.running = []

/-- The pool has all its connections, no two of them the same, none broken; so a call
gets one, and `disconnect` gets all that it waits for. -/
structure Conserved : Prop where
  count : s.pool.length = maximumTcpThreads hardwareConcurrency
  distinct : (s.pool.map TcpClient.id).Nodup
  usable : ∀ client ∈ s.pool, client.id ∉ s.broken
  serves : ∀ call, ((s.check call).2.pop call).isSome = true
  disconnects : ∃ s', s.run hardwareConcurrency (.disconnect ::
      List.replicate (maximumTcpThreads hardwareConcurrency) .disconnectPop) = some s' ∧
    s'.connectionState = .disconnected

section Runs

/-- The connections of the service, in the pool or with a call. -/
def clients : List TcpClient := s.pool ++ s.running.map Prod.snd

/-- How many connections there should be. -/
def expected (hardwareConcurrency : UInt32) : ConnectionState → Nat
  | .disconnected => 0
  | .connected => maximumTcpThreads hardwareConcurrency
  | .unknown left => left

/-- What holds in every run that loses no connection. -/
structure Invariant : Prop where
  count : s.clients.length = expected hardwareConcurrency s.connectionState
  distinct : (s.clients.map TcpClient.id).Nodup
  numbered : ∀ client ∈ s.clients, client.id < s.opened
  sound : s.broken = []

variable {hardwareConcurrency s}

theorem connectRound_isSome {location : Bytes} {connects : Nat → Bool} {start index : Nat}
    {endpoints : List TransportEndpoint} {endpoint : TransportEndpoint}
    (hget : endpoints[index]? = some endpoint)
    (hconnectable : Connectable location connects (start + index) endpoint) :
    (connectRound location connects start endpoints).isSome = true := by
  induction endpoints generalizing start index with
  | nil => simp at hget
  | cons first rest ih =>
      rw [connectRound]
      split_ifs with hfirst
      · rfl
      · cases index with
        | zero =>
            obtain rfl := Option.some.inj hget
            exact absurd hconnectable hfirst
        | succ index =>
            apply ih hget
            rwa [Nat.add_right_comm, Nat.add_assoc]

/-- Rounds that all find an endpoint add connections with new numbers. -/
theorem openConnections_eq {location : Bytes} {answers : ConnectAnswers}
    {endpoints : List TransportEndpoint} (rounds : List Nat)
    (hfills : ∀ round ∈ rounds, ∃ index endpoint, endpoints[index]? = some endpoint ∧
      Connectable location (answers.connects round) index endpoint) :
    ∃ fresh : List TcpClient,
      rounds.foldl (fun s round => s.openConnection location endpoints (answers.connects round))
        s = { s with pool := s.pool ++ fresh, opened := s.opened + rounds.length } ∧
      fresh.map TcpClient.id = List.range' s.opened rounds.length := by
  induction rounds generalizing s with
  | nil => exact ⟨[], by simp, rfl⟩
  | cons round rest ih =>
      obtain ⟨index, endpoint, hget, hconnectable⟩ := hfills round List.mem_cons_self
      have hsome := @connectRound_isSome location (answers.connects round) 0 index endpoints
        endpoint hget (by rwa [Nat.zero_add])
      obtain ⟨found, hfound⟩ := Option.isSome_iff_exists.1 hsome
      obtain ⟨fresh, hrest, hids⟩ := @ih (s.openConnection location endpoints
        (answers.connects round)) fun other hother => hfills other (List.mem_cons_of_mem _ hother)
      refine ⟨⟨s.opened, found.address, found.port.toUInt16⟩ :: fresh, ?_, ?_⟩
      · rw [List.foldl_cons, hrest]
        simp only [openConnection, hfound, List.append_assoc, List.singleton_append,
          List.length_cons, Nat.add_assoc, Nat.add_comm 1]
      · simp only [openConnection, hfound] at hids
        rw [List.map_cons, hids, List.length_cons, List.range'_succ]

theorem Invariant.new (nodeAddress : Bytes) :
    (new nodeAddress).Invariant hardwareConcurrency :=
  ⟨rfl, List.nodup_nil, fun _ hmem => absurd hmem List.not_mem_nil, rfl⟩

/-- Without connections, `connect` gives the service all that it should have. -/
theorem Invariant.connect (h : s.Invariant hardwareConcurrency) {answers : ConnectAnswers}
    (hkeeps : ¬ s.Loses hardwareConcurrency (.connect answers)) :
    (s.connect hardwareConcurrency answers).2.Invariant hardwareConcurrency := by
  rw [TransferService.connect]
  split_ifs with hstate
  · exact h
  · have hdisconnected : s.connectionState = .disconnected := not_not.1 hstate
    cases hchannel : answers.channel with
    | timedOut => exact h
    | threw reason => exact h
    | connected =>
        have hfills : s.Fills hardwareConcurrency answers := by
          by_contra hmissing
          exact hkeeps ⟨hdisconnected, hchannel, hmissing⟩
        cases hlocation : nodeLocation s.nodeAddress with
        | none => exact h
        | some location =>
            cases hendpoints : answers.endpoints with
            | none => exact h
            | some endpoints =>
                have hnone : s.clients = [] := by
                  have hcount := h.count
                  rw [hdisconnected] at hcount
                  exact List.length_eq_zero_iff.1 hcount
                obtain ⟨hpool, hrunning⟩ := List.append_eq_nil_iff.1 hnone
                obtain ⟨fresh, hopened, hids⟩ := @openConnections_eq s location answers endpoints
                  (List.range (maximumTcpThreads hardwareConcurrency)) fun round hround =>
                    hfills location endpoints hlocation hendpoints round (List.mem_range.1 hround)
                rw [List.length_range] at hopened hids
                have hclients : ∀ state opened, clients { s with
                    connectionState := state, pool := s.pool ++ fresh, opened := opened } =
                      fresh := by
                  intro state opened
                  simp [clients, hpool, hrunning]
                simp only [openConnections, hopened]
                refine ⟨?_, ?_, ?_, h.sound⟩
                · rw [hclients, ← List.length_map TcpClient.id, hids, List.length_range']
                  rfl
                · rw [hclients, hids]
                  exact List.nodup_range'
                · intro client hmem
                  rw [hclients] at hmem
                  have hid := List.mem_map_of_mem (f := TcpClient.id) hmem
                  rw [hids, List.mem_range'_1] at hid
                  exact hid.2

/-- Connections that only move between the pool and the calls. -/
theorem Invariant.of_perm {s' : TransferService} (h : s.Invariant hardwareConcurrency)
    (hclients : s'.clients.Perm s.clients) (hstate : s'.connectionState = s.connectionState)
    (hopened : s'.opened = s.opened) (hbroken : s'.broken = s.broken) :
    s'.Invariant hardwareConcurrency where
  count := by rw [hclients.length_eq, hstate, h.count]
  distinct := (hclients.map TcpClient.id).nodup_iff.2 h.distinct
  numbered client hmem := hopened ▸ h.numbered client (hclients.mem_iff.1 hmem)
  sound := hbroken.trans h.sound

theorem Invariant.pop (h : s.Invariant hardwareConcurrency) {call : Nat} {s' : TransferService}
    (hpop : s.pop call = some s') : s'.Invariant hardwareConcurrency := by
  rw [TransferService.pop] at hpop
  cases hpool : s.pool with
  | nil => simp [hpool] at hpop
  | cons client pool =>
      simp only [hpool] at hpop
      split_ifs at hpop
      obtain rfl := Option.some.inj hpop
      refine h.of_perm ?_ rfl rfl rfl
      simp only [clients, hpool, List.map_cons, List.cons_append]
      exact List.perm_middle

theorem Invariant.finish (h : s.Invariant hardwareConcurrency) {call : Nat}
    {s' : TransferService} (hfinish : s.finish call = some s') :
    s'.Invariant hardwareConcurrency := by
  rw [TransferService.finish] at hfinish
  cases hfind : s.running.find? fun entry => decide (entry.1 = call) with
  | none => simp [hfind] at hfinish
  | some entry =>
      simp only [hfind] at hfinish
      obtain rfl := Option.some.inj hfinish
      obtain ⟨hentry, before, after, hrunning, hothers⟩ := List.find?_eq_some_iff_append.1 hfind
      have herased : s.running.eraseP (fun entry => decide (entry.1 = call)) =
          before ++ after := by
        rw [hrunning, List.eraseP_append_right _ (by simpa using hothers), List.eraseP_cons,
          hentry, cond_true]
      refine h.of_perm ?_ rfl rfl rfl
      simp only [clients, herased]
      rw [hrunning]
      simp only [List.map_append, List.map_cons, List.append_assoc, List.singleton_append]
      exact List.Perm.append_left _ List.perm_middle.symm

theorem Invariant.disconnectPop (h : s.Invariant hardwareConcurrency) {s' : TransferService}
    (hpop : s.disconnectPop = some s') : s'.Invariant hardwareConcurrency := by
  obtain ⟨left, client, pool, hstate, hpool, rfl⟩ : ∃ left client pool,
      s.connectionState = .unknown (left + 1) ∧ s.pool = client :: pool ∧
        s' = { s with connectionState := disconnecting left, pool := pool } := by
    unfold TransferService.disconnectPop at hpop
    split at hpop
    · rename_i left client pool hstate hpool
      exact ⟨left, client, pool, hstate, hpool, (Option.some.inj hpop).symm⟩
    · cases hpop
  have hclients : s.clients = client ::
      clients { s with connectionState := disconnecting left, pool := pool } := by
    simp [clients, hpool]
  have hexpected : expected hardwareConcurrency (disconnecting left) = left := by
    cases left <;> rfl
  refine ⟨?_, ?_, ?_, h.sound⟩
  · have hcount := h.count
    rw [hclients, hstate, List.length_cons] at hcount
    rw [hexpected]
    exact Nat.succ.inj hcount
  · have hdistinct := h.distinct
    rw [hclients, List.map_cons] at hdistinct
    exact hdistinct.tail
  · intro other hmem
    apply h.numbered other
    rw [hclients]
    exact List.mem_cons_of_mem _ hmem

theorem Invariant.disconnect (h : s.Invariant hardwareConcurrency) :
    (s.disconnect hardwareConcurrency).2.Invariant hardwareConcurrency := by
  rw [TransferService.disconnect]
  split_ifs with hstate
  · exact h
  · refine ⟨?_, h.distinct, h.numbered, h.sound⟩
    have hcount := h.count
    rw [not_not.1 hstate] at hcount
    refine hcount.trans ?_
    change maximumTcpThreads hardwareConcurrency = expected hardwareConcurrency
      (disconnecting (maximumTcpThreads hardwareConcurrency))
    cases maximumTcpThreads hardwareConcurrency <;> rfl

theorem Invariant.perform (h : s.Invariant hardwareConcurrency) {event : ServiceEvent}
    (hkeeps : ¬ s.Loses hardwareConcurrency event) {s' : TransferService}
    (hstep : s.perform hardwareConcurrency event = some s') :
    s'.Invariant hardwareConcurrency := by
  cases event with
  | connect answers =>
      simp only [TransferService.perform] at hstep
      split at hstep
      · cases hstep
      · obtain rfl := Option.some.inj hstep
        exact h.connect hkeeps
  | disconnect =>
      simp only [TransferService.perform] at hstep
      split at hstep
      · cases hstep
      · obtain rfl := Option.some.inj hstep
        exact h.disconnect
  | disconnectPop => exact h.disconnectPop hstep
  | check call =>
      obtain rfl := Option.some.inj hstep
      rw [TransferService.check]
      split_ifs
      · exact h
      · exact h.of_perm (List.Perm.refl _) rfl rfl rfl
  | pop call => exact h.pop hstep
  | finish call => exact h.finish hstep
  | throw call => exact absurd trivial hkeeps

theorem Invariant.run (events : List ServiceEvent) (h : s.Invariant hardwareConcurrency)
    (hkeeps : NeverLoses hardwareConcurrency events s) {s' : TransferService}
    (hrun : s.run hardwareConcurrency events = some s') : s'.Invariant hardwareConcurrency := by
  induction events generalizing s with
  | nil =>
      obtain rfl := Option.some.inj hrun
      exact h
  | cons event events ih =>
      obtain ⟨next, hstep, hrest⟩ := Option.bind_eq_some_iff.1 hrun
      exact ih (h.perform hkeeps.1 hstep) (hkeeps.2 next hstep) hrest

/-- A full pool is enough for `disconnect`. -/
theorem run_disconnectPop (left : Nat) (hstate : s.connectionState = disconnecting left)
    (hpool : s.pool.length = left) :
    ∃ s', s.run hardwareConcurrency (List.replicate left .disconnectPop) = some s' ∧
      s'.connectionState = .disconnected := by
  induction left generalizing s with
  | zero => exact ⟨s, rfl, hstate⟩
  | succ left ih =>
      cases hclients : s.pool with
      | nil => simp [hclients] at hpool
      | cons client pool =>
          rw [hclients, List.length_cons] at hpool
          have hstep : s.disconnectPop =
              some { s with connectionState := disconnecting left, pool := pool } := by
            rw [disconnecting] at hstate
            simp only [disconnectPop, hstate, hclients]
          obtain ⟨s', hrun, hdone⟩ := @ih { s with
            connectionState := disconnecting left, pool := pool } rfl (Nat.succ.inj hpool)
          refine ⟨s', ?_, hdone⟩
          rw [List.replicate_succ]
          change s.disconnectPop.bind _ = _
          rw [hstep]
          exact hrun

/-- In a run in which every round of `connect` finds an endpoint and no socket throws,
an idle service has all its connections. -/
theorem run_conserved (hardwareConcurrency : UInt32) (nodeAddress : Bytes)
    (events : List ServiceEvent) {s : TransferService}
    (hknown : 0 < maximumTcpThreads hardwareConcurrency)
    (hkeeps : NeverLoses hardwareConcurrency events (TransferService.new nodeAddress))
    (hrun : (TransferService.new nodeAddress).run hardwareConcurrency events = some s)
    (hconnected : s.connectionState = .connected) (hidle : s.Idle) :
    s.Conserved hardwareConcurrency := by
  have h := (Invariant.new nodeAddress).run events hkeeps hrun
  have hclients : s.clients = s.pool := by
    rw [clients, hidle.2, List.map_nil, List.append_nil]
  have hcount : s.pool.length = maximumTcpThreads hardwareConcurrency := by
    rw [← hclients, h.count, hconnected]
    rfl
  refine ⟨hcount, hclients ▸ h.distinct, ?_, ?_, ?_⟩
  · intro client _
    rw [h.sound]
    exact List.not_mem_nil
  · intro call
    cases hpool : s.pool with
    | nil =>
        rw [hpool, List.length_nil] at hcount
        omega
    | cons client pool => simp [check, hconnected, pop, hpool]
  · have hbegin : s.perform hardwareConcurrency .disconnect =
        some { s with
          connectionState := disconnecting (maximumTcpThreads hardwareConcurrency) } := by
      simp only [perform, TransferService.disconnect, hconnected, ne_eq, not_true_eq_false,
        ↓reduceIte]
    obtain ⟨s', hpops, hdone⟩ := @run_disconnectPop hardwareConcurrency { s with
      connectionState := disconnecting (maximumTcpThreads hardwareConcurrency) } _ rfl hcount
    refine ⟨s', ?_, hdone⟩
    change (s.perform hardwareConcurrency .disconnect).bind _ = _
    rw [hbegin]
    exact hpops

end Runs

namespace Sample

/-- The peer tells of one endpoint, under its own address, and takes all connections. -/
def answering : ConnectAnswers where
  channel := .connected
  endpoints := some [⟨.socket, text "10.0.0.1", 4382⟩]
  connects := fun _ _ => true

/-- The peer is known by its name, and tells of its address. -/
def byName : Bytes := text "node1:4381"

/-- Two processors; a call returns, and the next one is served. -/
theorem answered_conserved : ∃ s, (TransferService.new (text "10.0.0.1:4381")).run 2
      [.connect answering, .check 0, .pop 0, .finish 0] = some s ∧ s.Conserved 2 := by
  refine ⟨_, rfl, run_conserved 2 (text "10.0.0.1:4381")
    [.connect answering, .check 0, .pop 0, .finish 0] (by decide) ?_ rfl rfl ⟨rfl, rfl⟩⟩
  refine ⟨?_, fun _ _ => ⟨id, fun _ _ => ⟨id, fun _ _ => ⟨id, fun _ _ => trivial⟩⟩⟩⟩
  rintro ⟨-, -, hmissing⟩
  apply hmissing
  intro location endpoints hlocation hendpoints round _
  obtain rfl := Option.some.inj hendpoints
  have hhere : location = text "10.0.0.1" :=
    Option.some.inj (hlocation.symm.trans (by decide))
  exact ⟨0, _, rfl, rfl, hhere.symm, rfl⟩

/-- The address that the peer tells is not the name it is known by: the pool is empty. -/
theorem byName_not_conserved : ∃ s, (TransferService.new byName).run 2
      [.connect answering] = some s ∧ s.connectionState = .connected ∧ s.Idle ∧
        ¬ s.Conserved 2 := by
  refine ⟨_, rfl, rfl, ⟨rfl, rfl⟩, fun hconserved => ?_⟩
  exact absurd hconserved.count (by decide)

end Sample

end TransferService

end TcpTransport

end GEDS
