/-
`GEDS::start` with the parts that it starts one after the other: the connection to the metadata
service, the server, and the address to announce.  Nothing is taken back when a later part fails.
-/
import GEDS.Node
import GEDS.NodeAddress
import GEDS.Relocation

namespace GEDS

open Status

/-- `geds::ConnectionState`, as `MetadataService` uses it. -/
inductive MetadataState where
  | disconnected
  | connected
deriving DecidableEq

/-- `MetadataService`; `channel` and `stub` say whether the pointers are set. -/
structure MetadataConnection where
  serverAddress : Bytes
  connectionState : MetadataState
  channel : Bool
  stub : Bool
deriving DecidableEq

/-- How opening the channel ends; an exception may come before there is a channel. -/
inductive ChannelAnswer where
  | connected
  | timedOut
  | threw (hasChannel : Bool) (reason : Bytes)

namespace MetadataConnection

variable (service : MetadataConnection)

/-- `MetadataService::connect` -/
def connect (answer : ChannelAnswer) : Status × MetadataConnection :=
  if service.connectionState ≠ .disconnected then
    (unknownError (text "Cannot reinitialize service."), service)
  else
    match answer with
    | .timedOut =>
        (unavailableError (text "Could not connect to " ++ service.serverAddress ++ text "."),
          { service with channel := true })
    | .threw hasChannel reason =>
        (unavailableError (text "Could not open channel with " ++ service.serverAddress ++
            text ". Reason" ++ reason),
          { service with channel := service.channel || hasChannel })
    | .connected =>
        (okStatus, { service with channel := true, stub := true, connectionState := .connected })

/-- `MetadataService::disconnect` -/
def disconnect : Status × MetadataConnection :=
  if service.connectionState ≠ .connected then
    (unknownError (text "The service is in the wrong state."), service)
  else (okStatus, { service with channel := false, connectionState := .disconnected })

/-- `MetadataService::getConnectionInformation`, with what the call returns. -/
def getConnectionInformation (answer : Except FailedStatus Bytes) : Except Status Bytes :=
  if service.connectionState ≠ .connected then
    .error (failedPreconditionError (text "Not connected."))
  else
    match answer with
    | .error status => .error status.val
    | .ok address => .ok address

end MetadataConnection

/-- An address of a network interface, as `getifaddrs` returns it. -/
structure InterfaceAddress where
  hasAddress : Bool
  isUp : Bool
  isIPv4 : Bool
  address : Bytes

/-- How one try to start the TCP server ends; an exception may come before there is one. -/
inductive TcpAttempt where
  | started
  | failed (status : FailedStatus)
  | threw (created : Bool) (reason : Bytes)

/-- What the system answers to `Server::start`; the port is the first that gRPC can bind. -/
structure ServerAnswers where
  selectedPort : UInt16
  tcp : Nat → TcpAttempt
  interfaces : Option (List InterfaceAddress)

/-- `Server` -/
structure NodeServer where
  state : ServiceState
  port : UInt16
  grpcServer : Bool
  tcpServer : Option UInt16
  endpoints : List (Bytes × UInt16)
deriving DecidableEq

namespace NodeServer

variable (server : NodeServer)

/-- One try to start the TCP server. -/
def tryTcp (attempt : TcpAttempt) (socketServerPort : UInt16) : Status × NodeServer :=
  match attempt with
  | .started => (okStatus, { server with tcpServer := some socketServerPort })
  | .failed status => (status.val, { server with tcpServer := some socketServerPort })
  | .threw created reason =>
      (unknownError (text "Error starting the socket transport " ++ reason),
        if created then { server with tcpServer := some socketServerPort } else server)

/-- The tries from a round on, with so many more to follow. -/
def startTcp (tcp : Nat → TcpAttempt) : Nat → Nat → NodeServer → Status × NodeServer
  | 0, round, server => server.tryTcp (tcp round) (server.port + UInt16.ofNat (round + 1))
  | left + 1, round, server =>
      let tried := server.tryTcp (tcp round) (server.port + UInt16.ofNat (round + 1))
      if tried.1.ok then tried else startTcp tcp left (round + 1) tried.2

/-- `getAvailableEndpoints` of the interfaces that are up. -/
def exported (interfaces : List InterfaceAddress) (port : UInt16) : List (Bytes × UInt16) :=
  (interfaces.filter fun addr =>
    addr.hasAddress && addr.isUp && addr.isIPv4 &&
      !decide (addr.address = text "127.0.0.1")).map fun addr => (addr.address, port)

/-- `Server::start` -/
def start (answers : ServerAnswers) : Status × NodeServer :=
  if server.state = .running then
    (failedPreconditionError (text "The server is already running!"), server)
  else
    let listening := { server with
      grpcServer := true, port := answers.selectedPort, state := .running }
    let tried := startTcp answers.tcp 9 0 listening
    if tried.1.ok = false then tried
    else
      match answers.interfaces with
      | none => (unknownError (text "Could not query iffaddrs."), tried.2)
      | some interfaces =>
          (okStatus, { tried.2 with
            endpoints := tried.2.endpoints ++ exported interfaces (tried.2.tcpServer.getD 0) })

end NodeServer

/-- The members of `GEDS` that `start` changes. -/
structure GEDSInstance where
  state : ServiceState
  hostname : Bytes
  hostURI : Bytes
  metadataService : MetadataConnection
  server : NodeServer
deriving DecidableEq

structure StartAnswers where
  metadata : ChannelAnswer
  server : ServerAnswers
  connectionInformation : Except FailedStatus Bytes

namespace GEDSInstance

/-- An instance that was never started. -/
def new (serverAddress hostname : Bytes) (port : UInt16) : GEDSInstance where
  state := .stopped
  hostname := hostname
  hostURI := []
  metadataService := ⟨serverAddress, .disconnected, false, false⟩
  server := ⟨.stopped, port, false, none, []⟩

variable (geds : GEDSInstance)

/-- The part of `GEDS::start` behind the server. -/
def announce (answer : Except FailedStatus Bytes) : Status × GEDSInstance :=
  if geds.hostname ≠ [] then
    (okStatus, { geds with
      hostURI := computeHostUri geds.hostname geds.server.port, state := .running })
  else
    match geds.metadataService.getConnectionInformation answer with
    | .error status =>
        (unknownError (text "Unable to obtain connection IP! Reason: " ++ status.message), geds)
    | .ok hostIP =>
        (okStatus, { geds with
          hostname := hostIP
          hostURI := computeHostUri hostIP geds.server.port
          state := .running })

/-- `GEDS::start`; that the web server or the object stores fail is only logged. -/
def start (answers : StartAnswers) : Status × GEDSInstance :=
  if geds.state ≠ .stopped then
    (failedPreconditionError (text "The service is " ++ geds.state.toText ++ text "."), geds)
  else
    let connected := geds.metadataService.connect answers.metadata
    let connecting := { geds with state := .unknown, metadataService := connected.2 }
    if connected.1.ok = false then (connected.1, connecting)
    else
      let started := connecting.server.start answers.server
      let starting := { connecting with server := started.2 }
      if started.1.ok = false then (started.1, starting)
      else starting.announce answers.connectionInformation

/-- One call of `start` after the other. -/
def startAll : GEDSInstance → List StartAnswers → List Status × GEDSInstance
  | geds, [] => ([], geds)
  | geds, answers :: rest =>
      let first := geds.start answers
      let later := startAll first.2 rest
      (first.1 :: later.1, later.2)

/-- Every step of `start` succeeds. -/
structure Succeeds (answers : StartAnswers) : Prop where
  disconnected : geds.metadataService.connectionState = .disconnected
  connected : answers.metadata = .connected
  serverStopped : geds.server.state ≠ .running
  tcp : ∃ round < 10, answers.server.tcp round = .started
  interfaces : answers.server.interfaces ≠ none
  announced : geds.hostname = [] → ∃ hostIP, answers.connectionInformation = .ok hostIP

/-- A failed start leaves the instance as it was, also for later calls. -/
def CleanAfter (answers : StartAnswers) : Prop :=
  (geds.start answers).1.ok = false →
    (geds.start answers).2 = geds ∧ ∀ later : List StartAnswers,
      ((geds.start answers).2.startAll later).1 = (geds.startAll later).1

end GEDSInstance

namespace NodeServer

variable {server : NodeServer}

theorem tryTcp_ok (attempt : TcpAttempt) (port : UInt16) :
    (server.tryTcp attempt port).1.ok = true ↔ attempt = .started := by
  cases attempt with
  | started => exact ⟨fun _ => rfl, fun _ => rfl⟩
  | failed status => simp [tryTcp, status.property]
  | threw created reason => simp [tryTcp, unknownError, Status.ok]

/-- The tries succeed if one of them does. -/
theorem startTcp_ok (tcp : Nat → TcpAttempt) (left round : Nat) :
    (startTcp tcp left round server).1.ok = true ↔
      ∃ index, round ≤ index ∧ index ≤ round + left ∧ tcp index = .started := by
  induction left generalizing round server with
  | zero =>
      rw [startTcp, tryTcp_ok]
      constructor
      · intro hstarted
        exact ⟨round, le_rfl, le_rfl, hstarted⟩
      · rintro ⟨index, hfrom, hto, hstarted⟩
        obtain rfl : index = round := by omega
        exact hstarted
  | succ left ih =>
      simp only [startTcp]
      by_cases hround : tcp round = .started
      · rw [if_pos ((tryTcp_ok _ _).2 hround), tryTcp_ok]
        exact ⟨fun _ => ⟨round, le_rfl, by omega, hround⟩, fun _ => hround⟩
      · rw [if_neg (by rw [tryTcp_ok]; exact hround), ih]
        constructor
        · rintro ⟨index, hfrom, hto, hstarted⟩
          exact ⟨index, by omega, by omega, hstarted⟩
        · rintro ⟨index, hfrom, hto, hstarted⟩
          have hne : index ≠ round := by
            rintro rfl
            exact hround hstarted
          exact ⟨index, by omega, by omega, hstarted⟩

theorem tryTcp_state (attempt : TcpAttempt) (port : UInt16) :
    (server.tryTcp attempt port).2.state = server.state ∧
      (server.tryTcp attempt port).2.grpcServer = server.grpcServer := by
  cases attempt with
  | started => exact ⟨rfl, rfl⟩
  | failed status => exact ⟨rfl, rfl⟩
  | threw created reason => cases created <;> exact ⟨rfl, rfl⟩

theorem startTcp_state (tcp : Nat → TcpAttempt) (left round : Nat) :
    (startTcp tcp left round server).2.state = server.state ∧
      (startTcp tcp left round server).2.grpcServer = server.grpcServer := by
  induction left generalizing round server with
  | zero => exact tryTcp_state _ _
  | succ left ih =>
      have htry := @tryTcp_state server (tcp round) (server.port + UInt16.ofNat (round + 1))
      simp only [startTcp]
      split_ifs
      · exact htry
      · rw [(ih _).1, (ih _).2]
        exact htry

theorem start_ok (answers : ServerAnswers) : (server.start answers).1.ok = true ↔
    server.state ≠ .running ∧ (∃ round < 10, answers.tcp round = .started) ∧
      answers.interfaces ≠ none := by
  rw [start]
  by_cases hrunning : server.state = .running
  · simp [hrunning, failedPreconditionError, Status.ok]
  · simp only [hrunning, ↓reduceIte]
    generalize hlistening : ({ server with
      grpcServer := true, port := answers.selectedPort, state := .running } : NodeServer) = listening
    have htcp : (startTcp answers.tcp 9 0 listening).1.ok = true ↔
        ∃ round < 10, answers.tcp round = .started := by
      rw [startTcp_ok]
      constructor
      · rintro ⟨round, -, hround, hstarted⟩
        exact ⟨round, by omega, hstarted⟩
      · rintro ⟨round, hround, hstarted⟩
        exact ⟨round, by omega, by omega, hstarted⟩
    by_cases htried : (startTcp answers.tcp 9 0 listening).1.ok = true
    · rw [if_neg (by simp [htried])]
      cases hinterfaces : answers.interfaces with
      | none => simp [unknownError, Status.ok]
      | some interfaces => simp [htcp.1 htried, hrunning, okStatus, Status.ok]
    · rw [if_pos (by simpa using htried)]
      simp [htried, ← htcp]

/-- A server that is started runs behind the call, also if the call fails. -/
theorem start_running (answers : ServerAnswers) (hstopped : server.state ≠ .running) :
    (server.start answers).2.state = .running ∧ (server.start answers).2.grpcServer = true := by
  simp only [start, hstopped, ↓reduceIte]
  split_ifs
  · exact startTcp_state _ _ _
  · cases answers.interfaces with
    | none => exact startTcp_state _ _ _
    | some interfaces => exact startTcp_state answers.tcp 9 0

end NodeServer

namespace GEDSInstance

variable {geds : GEDSInstance} {answers : StartAnswers}

theorem connect_ok (service : MetadataConnection) (answer : ChannelAnswer) :
    (service.connect answer).1.ok = true ↔
      service.connectionState = .disconnected ∧ answer = .connected := by
  unfold MetadataConnection.connect
  split_ifs with hstate
  · simp [hstate, unknownError, Status.ok]
  · rw [not_not] at hstate
    cases answer <;> simp [hstate, unavailableError, okStatus, Status.ok]

/-- After a successful `connect` the service is connected. -/
theorem connect_state {service : MetadataConnection} {answer : ChannelAnswer}
    (hok : (service.connect answer).1.ok = true) :
    (service.connect answer).2.connectionState = .connected ∧
      (service.connect answer).2.channel = true := by
  obtain ⟨hstate, rfl⟩ := (connect_ok service answer).1 hok
  simp [MetadataConnection.connect, hstate]

theorem announce_ok (hconnected : geds.metadataService.connectionState = .connected)
    (answer : Except FailedStatus Bytes) :
    (geds.announce answer).1.ok = true ↔
      (geds.hostname = [] → ∃ hostIP, answer = .ok hostIP) := by
  rw [announce]
  split_ifs with hhostname
  · simp [hhostname, okStatus, Status.ok]
  · rw [not_not] at hhostname
    cases answer with
    | error status =>
        simp [MetadataConnection.getConnectionInformation, hconnected, hhostname, unknownError,
          Status.ok]
    | ok hostIP =>
        simp [MetadataConnection.getConnectionInformation, hconnected, okStatus, Status.ok]

theorem announce_error {answer : Except FailedStatus Bytes}
    (hfails : (geds.announce answer).1.ok = false) : (geds.announce answer).2 = geds := by
  rw [announce] at hfails ⊢
  split_ifs at hfails ⊢
  · simp [okStatus, Status.ok] at hfails
  · cases hanswer : geds.metadataService.getConnectionInformation answer with
    | error status => rfl
    | ok hostIP => simp [hanswer, okStatus, Status.ok] at hfails

/-- The instance behind a `connect`. -/
def connecting (geds : GEDSInstance) (answers : StartAnswers) : GEDSInstance :=
  { geds with
    state := .unknown, metadataService := (geds.metadataService.connect answers.metadata).2 }

/-- The instance behind the start of the server. -/
def starting (geds : GEDSInstance) (answers : StartAnswers) : GEDSInstance :=
  { geds.connecting answers with server := (geds.server.start answers.server).2 }

/-- The three places where `start` can fail. -/
theorem start_of_stopped (hstopped : geds.state = .stopped) :
    geds.start answers =
      if (geds.metadataService.connect answers.metadata).1.ok = false then
        ((geds.metadataService.connect answers.metadata).1, geds.connecting answers)
      else if (geds.server.start answers.server).1.ok = false then
        ((geds.server.start answers.server).1, geds.starting answers)
      else (geds.starting answers).announce answers.connectionInformation := by
  rw [start, if_neg (by simp [hstopped])]
  rfl

theorem start_ok (hstopped : geds.state = .stopped) :
    (geds.start answers).1.ok = true ↔ geds.Succeeds answers := by
  rw [start_of_stopped hstopped]
  split_ifs with hconnect hserver
  · have hrefused := (connect_ok geds.metadataService answers.metadata).not.1
      (by simp [hconnect])
    refine ⟨fun hok => absurd hok (by simp [hconnect]), fun hsucceeds => ?_⟩
    exact absurd ⟨hsucceeds.disconnected, hsucceeds.connected⟩ hrefused
  · have hrefused := (@NodeServer.start_ok geds.server answers.server).not.1
      (by simp [hserver])
    refine ⟨fun hok => absurd hok (by simp [hserver]), fun hsucceeds => ?_⟩
    exact absurd ⟨hsucceeds.serverStopped, hsucceeds.tcp, hsucceeds.interfaces⟩ hrefused
  · rw [Bool.not_eq_false] at hconnect hserver
    obtain ⟨hdisconnected, hconnected⟩ := (connect_ok _ _).1 hconnect
    obtain ⟨hrunning, htcp, hinterfaces⟩ := (NodeServer.start_ok _).1 hserver
    rw [announce_ok (connect_state hconnect).1]
    exact ⟨fun hannounced =>
        ⟨hdisconnected, hconnected, hrunning, htcp, hinterfaces, hannounced⟩,
      fun hsucceeds => hsucceeds.announced⟩

/-- What is left of a start that fails: the state is unknown in any case; the service stays
connected unless it could not be, and the server runs if it came that far. -/
theorem start_error (hstopped : geds.state = .stopped)
    (hfails : (geds.start answers).1.ok = false) :
    (geds.start answers).2.state = .unknown ∧
      ((geds.metadataService.connect answers.metadata).1.ok = true →
        (geds.start answers).2.metadataService.connectionState = .connected ∧
        (geds.start answers).2.metadataService.channel = true ∧
        (geds.server.state ≠ .running →
          (geds.start answers).2.server.state = .running ∧
          (geds.start answers).2.server.grpcServer = true)) := by
  rw [start_of_stopped hstopped] at hfails ⊢
  split_ifs at hfails ⊢ with hconnect hserver
  · exact ⟨rfl, fun hok => absurd (hconnect.symm.trans hok) (by decide)⟩
  · refine ⟨rfl, fun hok => ?_⟩
    obtain ⟨hconnected, hchannel⟩ := connect_state hok
    exact ⟨hconnected, hchannel, NodeServer.start_running answers.server⟩
  · rw [announce_error hfails]
    refine ⟨rfl, fun hok => ?_⟩
    obtain ⟨hconnected, hchannel⟩ := connect_state hok
    exact ⟨hconnected, hchannel, NodeServer.start_running answers.server⟩

/-- An instance whose state is unknown refuses every call. -/
theorem startAll_of_unknown (hunknown : geds.state = .unknown) (later : List StartAnswers) :
    ∀ status ∈ (geds.startAll later).1,
      status = failedPreconditionError (text "The service is Unknown.") := by
  have hrefused : ∀ answers, geds.start answers =
      (failedPreconditionError (text "The service is Unknown."), geds) := by
    intro answers
    rw [start, if_pos (by simp [hunknown]), hunknown]
    rfl
  induction later with
  | nil => simp [startAll]
  | cons answers rest ih =>
      simp only [startAll, hrefused, List.mem_cons]
      rintro status (rfl | hmem)
      · rfl
      · exact ih status hmem

/-- A start that fails at one of its steps is never clean; all later calls are refused. -/
theorem start_clean_iff (geds : GEDSInstance) (answers : StartAnswers) :
    (geds.CleanAfter answers ↔ geds.state ≠ .stopped ∨ geds.Succeeds answers) ∧
      (¬ geds.CleanAfter answers → ∀ later : List StartAnswers,
        ∀ status ∈ ((geds.start answers).2.startAll later).1,
          status = failedPreconditionError (text "The service is Unknown.")) := by
  have hclean : geds.CleanAfter answers ↔ geds.state ≠ .stopped ∨ geds.Succeeds answers := by
    constructor
    · intro hclean
      by_contra hleft
      simp only [not_or, not_not] at hleft
      obtain ⟨hstopped, hfails⟩ := hleft
      rw [← start_ok hstopped, Bool.not_eq_true] at hfails
      have hunknown := (start_error hstopped hfails).1
      rw [(hclean hfails).1, hstopped] at hunknown
      cases hunknown
    · rintro (hrefused | hsucceeds) hfails
      · have hsame : (geds.start answers).2 = geds := by
          rw [start, if_pos hrefused]
        exact ⟨hsame, fun later => by rw [hsame]⟩
      · by_cases hstopped : geds.state = .stopped
        · rw [(start_ok hstopped).2 hsucceeds] at hfails
          cases hfails
        · have hsame : (geds.start answers).2 = geds := by
            rw [start, if_pos hstopped]
          exact ⟨hsame, fun later => by rw [hsame]⟩
  refine ⟨hclean, fun hdirty => ?_⟩
  rw [hclean, not_or, not_not] at hdirty
  obtain ⟨hstopped, hfails⟩ := hdirty
  rw [← start_ok hstopped, Bool.not_eq_true] at hfails
  exact startAll_of_unknown (start_error hstopped hfails).1

def fresh : GEDSInstance := new (text "localhost:4381") (text "host") 4382

def answering (metadata : ChannelAnswer) : StartAnswers :=
  ⟨metadata, ⟨4382, fun _ => .started, some []⟩, .ok (text "10.0.0.1")⟩

/-- The service cannot be reached at the first call; the second call is refused. -/
theorem start_unreachable :
    ¬ fresh.CleanAfter (answering .timedOut) ∧
      (fresh.startAll [answering .connected]).1 = [okStatus] ∧
      ((fresh.start (answering .timedOut)).2.startAll [answering .connected]).1 =
        [failedPreconditionError (text "The service is Unknown.")] := by
  refine ⟨fun hclean => ?_, by decide, by decide⟩
  have hsame := (hclean rfl).1
  exact absurd hsame (by decide)

end GEDSInstance

end GEDS
