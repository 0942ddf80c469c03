/-
The object stores of a cluster.  The metadata server keeps one config for each bucket;
every node copies the server's list into a map of its own, which never replaces an
entry.  Calls of all nodes, lost answers and the queue of the persistent server
interleave as they like.
-/
import GEDS.PersistentStore

namespace GEDS

/-- `geds::s3::Endpoint`: what it was made with. -/
structure StoreEndpoint where
  endpointUrl : Bytes
  accessKey : Bytes
  secretKey : Bytes
deriving DecidableEq

/-- The endpoint that `registerStore` makes of a config. -/
def ObjectStoreConfig.endpoint (config : ObjectStoreConfig) : StoreEndpoint :=
  ⟨config.endpointUrl, config.accessKey, config.secretKey⟩

/-- `geds::s3::ObjectStores` -/
abbrev ObjectStores := OrderedMap Bytes StoreEndpoint

/-- `ObjectStores::registerStore`; secret keys are not compared. -/
def ObjectStores.registerStore (stores : ObjectStores)
    (label endpointUrl accessKey secretKey : Bytes) : StatusCode × ObjectStores :=
  match stores.find label with
  | some endpoint =>
      if endpoint.accessKey = accessKey ∧ endpoint.endpointUrl = endpointUrl then (.ok, stores)
      else (.alreadyExists, stores)
  | none => (.ok, stores.insert label ⟨endpointUrl, accessKey, secretKey⟩)

/-- `registerStore` as `syncObjectStoreConfigs` calls it. -/
def ObjectStores.registerConfig (stores : ObjectStores) (config : ObjectStoreConfig) :
    StatusCode × ObjectStores :=
  stores.registerStore config.bucket config.endpointUrl config.accessKey config.secretKey

/-- The servers that a node can be connected to. -/
inductive ServerKind where
  | cpp
  | goInMemory
  | goPersistent
deriving DecidableEq

/-- The map of `ObjectStoreHandler` or of the Go server, or `dbObjectStoreConfig` with the
configs that wait in `ObjectStoreConfigChan`. -/
structure ObjectStoreServer where
  kind : ServerKind
  objectStoreConfigs : OrderedMap Bytes ObjectStoreConfig
  objectStoreConfigChan : List ObjectStoreConfig

/-- How far the server is with a `RegisterObjectStore` request. -/
inductive RegisterPhase where
  | arriving
  /-- `insertConfig` is done, `PopulateKVS` is not -/
  | populating
  /-- LevelDB was read and has no config for the bucket -/
  | unregistered
  | answered (code : StatusCode)
deriving DecidableEq

namespace ObjectStoreServer

variable (server : ObjectStoreServer)

/-- The server's next step with a request.  Only the C++ server reports a config that
exists; the Go server sends to its channel in persistent mode, when there is room. -/
def registerObjectStore (config : ObjectStoreConfig) :
    RegisterPhase → ObjectStoreServer × RegisterPhase
  | .arriving =>
      match server.objectStoreConfigs.find config.bucket with
      | some _ => (server, .answered (if server.kind = .cpp then .alreadyExists else .ok))
      | none =>
          let inserted :=
            { server with
              objectStoreConfigs := server.objectStoreConfigs.insert config.bucket config }
          match server.kind with
          | .cpp => (inserted, .populating)
          | .goInMemory => (inserted, .answered .ok)
          | .goPersistent => (server, .unregistered)
  | .unregistered =>
      if server.objectStoreConfigChan.length < PersistentStore.channelBufferSize then
        ({ server with objectStoreConfigChan := server.objectStoreConfigChan ++ [config] },
          .answered .ok)
      else (server, .unregistered)
  | phase => (server, phase)

/-- `runDBOperationsListener` takes a config from the channel. -/
def listen : ObjectStoreServer :=
  match server.objectStoreConfigChan with
  | [] => server
  | config :: rest =>
      { server with
        objectStoreConfigs := server.objectStoreConfigs.insert config.bucket config
        objectStoreConfigChan := rest }

/-- `ListObjectStores` -/
def listObjectStores : List ObjectStoreConfig :=
  server.objectStoreConfigs.entries.map Prod.snd

end ObjectStoreServer

/-- Where a node is in `GEDS::registerObjectStoreConfig` or `syncObjectStoreConfigs`. -/
inductive CallerPhase where
  | registering
  | creatingBucket
  | listing
  | syncing (configs : List ObjectStoreConfig)
  | returned (code : StatusCode)
deriving DecidableEq

/-- A call of a node.  The request of a registration lives on at the server when the
caller does not wait for its answer any more. -/
structure StoreCall where
  node : Nat
  registration : Option (ObjectStoreConfig × RegisterPhase)
  caller : CallerPhase
deriving DecidableEq

structure StoreCluster where
  server : ObjectStoreServer
  stores : Nat → ObjectStores
  calls : List StoreCall

/-- What can happen next.  The results of `PopulateKVS` and `createBucket` are arbitrary,
and a Go map lists its entries in any order. -/
inductive StoreEvent where
  | registerObjectStoreConfig (node : Nat) (config : ObjectStoreConfig)
  | syncObjectStoreConfigs (node : Nat)
  | serve (call : Nat)
  | populateKVS (call : Nat) (code : StatusCode)
  | listen
  | receive (call : Nat)
  | createBucket (call : Nat) (code : StatusCode)
  | listObjectStores (call : Nat) (mappings : List ObjectStoreConfig)
  | registerStore (call : Nat)
  | disconnect (call : Nat)

/-- What the caller does with the server's answer. -/
def CallerPhase.afterRegister (code : StatusCode) : CallerPhase :=
  if code = .ok ∨ code = .alreadyExists then .creatingBucket else .returned code

/-- `GEDS::createBucket` has already turned `AlreadyExists` into success. -/
def CallerPhase.afterCreateBucket (code : StatusCode) : CallerPhase :=
  if code = .ok then .listing else .returned code

namespace StoreCluster

def start (kind : ServerKind) : StoreCluster :=
  ⟨⟨kind, OrderedMap.empty, []⟩, fun _ => OrderedMap.empty, []⟩

variable (s : StoreCluster)

/-- The part of a call that runs at the server. -/
def serve (id : Nat) (call : StoreCall) : StoreCluster :=
  match call.registration with
  | none => s
  | some (config, phase) =>
      let served := s.server.registerObjectStore config phase
      { s with
        server := served.1
        calls := s.calls.set id { call with registration := some (config, served.2) } }

/-- `PopulateKVS` ends; the config stays registered also when it fails. -/
def populateKVS (id : Nat) (call : StoreCall) (code : StatusCode) : StoreCluster :=
  match call.registration with
  | some (config, .populating) =>
      { s with
        calls := s.calls.set id { call with registration := some (config, .answered code) } }
  | _ => s

def setCaller (id : Nat) (call : StoreCall) (caller : CallerPhase) : StoreCluster :=
  { s with calls := s.calls.set id { call with caller := caller } }

def receive (id : Nat) (call : StoreCall) : StoreCluster :=
  match call.registration, call.caller with
  | some (_, .answered code), .registering =>
      s.setCaller id call (CallerPhase.afterRegister code)
  | _, _ => s

def createBucket (id : Nat) (call : StoreCall) (code : StatusCode) : StoreCluster :=
  match call.caller with
  | .creatingBucket => s.setCaller id call (CallerPhase.afterCreateBucket code)
  | _ => s

def listObjectStores (id : Nat) (call : StoreCall) (mappings : List ObjectStoreConfig) :
    StoreCluster :=
  match call.caller with
  | .listing =>
      if mappings.Perm s.server.listObjectStores then s.setCaller id call (.syncing mappings)
      else s
  | _ => s

/-- One round of the loop of `syncObjectStoreConfigs`; a failure is only logged. -/
def registerStore (id : Nat) (call : StoreCall) : StoreCluster :=
  match call.caller with
  | .syncing [] => s.setCaller id call (.returned .ok)
  | .syncing (config :: rest) =>
      { s with
        stores := Function.update s.stores call.node
          ((s.stores call.node).registerConfig config).2
        calls := s.calls.set id { call with caller := .syncing rest } }
  | _ => s

/-- A call that waits for the server gives up. -/
def disconnect (id : Nat) (call : StoreCall) : StoreCluster :=
  match call.caller with
  | .registering | .creatingBucket | .listing => s.setCaller id call (.returned .unavailable)
  | _ => s

/-- What an event does with the call that it is about. -/
def stepCall (id : Nat) (act : StoreCall → StoreCluster) : StoreCluster :=
  match s.calls[id]? with
  | none => s
  | some call => act call

def step : StoreEvent → StoreCluster
  | .registerObjectStoreConfig node config =>
      { s with calls := s.calls ++ [⟨node, some (config, .arriving), .registering⟩] }
  | .syncObjectStoreConfigs node =>
      { s with calls := s.calls ++ [⟨node, none, .listing⟩] }
  | .serve id => s.stepCall id (s.serve id)
  | .populateKVS id code => s.stepCall id (s.populateKVS id · code)
  | .listen => { s with server := s.server.listen }
  | .receive id => s.stepCall id (s.receive id)
  | .createBucket id code => s.stepCall id (s.createBucket id · code)
  | .listObjectStores id mappings => s.stepCall id (s.listObjectStores id · mappings)
  | .registerStore id => s.stepCall id (s.registerStore id)
  | .disconnect id => s.stepCall id (s.disconnect id)

def run (events : List StoreEvent) : StoreCluster := events.foldl step s

/-- Configs that were found to be missing and are not in LevelDB yet. -/
def pending : List ObjectStoreConfig :=
  s.server.objectStoreConfigChan ++ s.calls.filterMap fun call =>
    match call.registration with
    | some (config, .unregistered) => some config
    | _ => none

/-- Some call asked for the config to be registered. -/
def Asked (config : ObjectStoreConfig) : Prop :=
  ∃ call ∈ s.calls, ∃ phase, call.registration = some (config, phase)

end StoreCluster

end GEDS
