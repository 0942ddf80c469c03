/-
Reading from another node: `FileTransferService` takes a connection from its
pool for every call, `TcpClient` writes the request and reads the response, and
`TcpConnection` answers on the other side.  The streams carry bytes in order, in
pieces of any size.
-/
import GEDS.Library.AssocMap
import GEDS.TcpDataTransport

namespace GEDS

open Status

namespace TcpTransport

/-- `tcp_transport::Response` -/
structure Response where
  statusCode : UInt32
  length : UInt64
deriving DecidableEq

/-- An unsigned number of so many bytes in memory. -/
def littleEndian : Nat → Nat → Bytes
  | 0, _ => []
  | size + 1, value => UInt8.ofNat (value % 256) :: littleEndian size (value / 256)

def fromLittleEndian : Bytes → Nat
  | [] => 0
  | byte :: rest => byte.toNat + 256 * fromLittleEndian rest

/-- `sizeof(Response)` -/
def responseSize : Nat := 16

/-- The bytes between the two members of a `Response`, which nobody sets. -/
def Padding := { bytes : Bytes // bytes.length = 4 }

/-- A `Response` as it is in memory, which is how it is sent. -/
def Response.encode (response : Response) (padding : Padding) : Bytes :=
  littleEndian 4 response.statusCode.toNat ++ padding.val ++
    littleEndian 8 response.length.toNat

def Response.decode (bytes : Bytes) : Response where
  statusCode := UInt32.ofNat (fromLittleEndian (bytes.take 4))
  length := UInt64.ofNat (fromLittleEndian (bytes.drop 8))

/-- A status that is not OK, with its raw code. -/
structure RawError where
  code : UInt32
  message : Bytes
  failed : code ≠ 0

/-- `absl::StatusCode::kInvalidArgument` -/
def invalidArgumentCode : UInt32 := 3

/-- An open file on the server: the bytes that are found at the positions in memory,
if it is mapped, or by `sendfile`, if it has a descriptor, and what `read` returns. -/
structure OpenedFile where
  size : UInt64
  rawPtr : Option (Nat → UInt8)
  rawFd : Option (Nat → UInt8)
  read : Except RawError Bytes

/-- So many bytes from a position on. -/
def span (byteAt : Nat → UInt8) (offset length : UInt64) : Bytes :=
  (List.range length.toNat).map fun index => byteAt (offset.toNat + index)

/-- How much of a file of that size is sent. -/
def sentLength (size offset length : UInt64) : UInt64 :=
  if size < offset then 0 else min (size - offset) length

/-- `TcpConnection::handleError`; there is no string that does not fit into memory. -/
def handleError (error : RawError) : Option (Response × Bytes) :=
  if error.message.length < 2 ^ 64 then
    some (⟨error.code, UInt64.ofNat error.message.length⟩, error.message)
  else none

/-- `TcpConnection::handleWrite`, with what `GEDS::open` returns. -/
def handleWrite (offset length : UInt64) : Except RawError OpenedFile → Option (Response × Bytes)
  | .error error => handleError error
  | .ok file =>
      match file.rawPtr with
      | some memory =>
          let length := sentLength file.size offset length
          some (⟨0, length⟩, span memory offset length)
      | none =>
          match file.rawFd, decide (8192 < length) with
          | some content, true =>
              let length := sentLength file.size offset length
              some (⟨0, length⟩, span content offset length)
          | _, _ =>
              match file.read with
              | .error error => handleError error
              | .ok bytes =>
                  let bytes := bytes.take length.toNat
                  some (⟨0, UInt64.ofNat bytes.length⟩, bytes)

/-- The handler in `TcpConnection::awaitRequest`; there is no answer if it throws. -/
def handleRequest (request : Bytes) (file : Except RawError OpenedFile) :
    Option (Response × Bytes) :=
  match parseGetRequest request with
  | .error .outOfRange => none
  | .error (.status status) => handleError ⟨invalidArgumentCode, status.message, by decide⟩
  | .ok parsed => handleWrite parsed.offset parsed.length file

/-- What a `TcpConnection` is doing. -/
inductive ServerPhase where
  | awaiting
  | writing (rest : Bytes)
  | gone

/-- A request that the server took, and its answer. -/
structure Served where
  request : Bytes
  response : Response
  padding : Padding
  payload : Bytes

def Served.bytes (served : Served) : Bytes :=
  served.response.encode served.padding ++ served.payload

/-- A connection: the bytes on the way to the server, in its buffer and on the way
back; with the calls that it was given to, and what the server answered. -/
structure Connection where
  toServer : Bytes
  buffer : Bytes
  server : ServerPhase
  toClient : Bytes
  issued : List (Nat × GetRequest)
  served : List Served

/-- How far `TcpClient::readBytes` has come. -/
inductive CallPhase where
  | sending (rest : Bytes)
  | readingHeader (got : Bytes)
  | readingPayload (response : Response) (got : Bytes)

/-- A call of `FileTransferService::readBytes` that has a connection. -/
structure Call where
  request : GetRequest
  connection : Nat
  phase : CallPhase

/-- What a call got. -/
structure CallResult where
  request : GetRequest
  response : Response
  payload : Bytes

def GetRequest.sent (request : GetRequest) : Bytes :=
  sentRequest request.bucket request.key request.offset request.length

/-- `FileTransferService` with its pool, and the servers of its connections. -/
structure Transfer where
  pool : List Nat
  connections : Nat → Connection
  calls : AssocMap Nat Call
  results : AssocMap Nat CallResult

inductive TransferEvent where
  | begin (call : Nat) (request : GetRequest)
  | send (call count : Nat)
  | receive (call count : Nat)
  | throw (call : Nat)
  | deliver (connection count : Nat) (file : Except RawError OpenedFile) (padding : Padding)
  | transmit (connection count : Nat)
  | finishWrite (connection : Nat)
  | close (connection : Nat)

namespace Transfer

/-- After `FileTransferService::connect`, with the clients that it could connect. -/
def connect (clients : Nat) : Transfer where
  pool := List.range clients
  connections := fun _ => ⟨[], [], .awaiting, [], [], []⟩
  calls := AssocMap.empty
  results := AssocMap.empty

variable (s : Transfer)

def setConnection (connection : Nat) (changed : Connection) : Transfer :=
  { s with connections := Function.update s.connections connection changed }

def setCall (call : Nat) (changed : Call) : Transfer :=
  { s with calls := s.calls.insert call changed }

/-- `pop_wait_until_available`; a call that finds the pool empty waits. -/
def begin (call : Nat) (request : GetRequest) : Option Transfer :=
  match s.pool with
  | [] => none
  | connection :: pool =>
      if (s.calls.find call).isSome ∨ (s.results.find call).isSome then none
      else
        let before := s.connections connection
        some (({ s with pool := pool }.setConnection connection
          { before with issued := before.issued ++ [(call, request)] }).setCall call
            ⟨request, connection, .sending request.sent⟩)

/-- `boost::asio::write` hands some bytes to the socket. -/
def send (call count : Nat) : Option Transfer :=
  match s.calls.find call with
  | some ⟨request, connection, .sending rest⟩ =>
      if count = 0 ∨ rest.length < count then none
      else
        let before := s.connections connection
        let phase := if rest.drop count = [] then .readingHeader []
          else .sending (rest.drop count)
        some ((s.setConnection connection
          { before with toServer := before.toServer ++ rest.take count }).setCall call
            ⟨request, connection, phase⟩)
  | _ => none

/-- `readBytes` returns, and the connection goes back to the pool. -/
def finish (call : Nat) (request : GetRequest) (connection : Nat) (response : Response)
    (payload : Bytes) : Transfer :=
  { s with
    pool := s.pool ++ [connection]
    calls := s.calls.erase call
    results := s.results.insert call ⟨request, response, payload⟩ }

/-- Go on with the payload, if it is not complete. -/
def readOn (call : Nat) (request : GetRequest) (connection : Nat) (response : Response)
    (got : Bytes) : Transfer :=
  if got.length = response.length.toNat then s.finish call request connection response got
  else s.setCall call ⟨request, connection, .readingPayload response got⟩

/-- `boost::asio::read` gets some of the bytes that it waits for. -/
def receive (call count : Nat) : Option Transfer :=
  match s.calls.find call with
  | some ⟨request, connection, .readingHeader got⟩ =>
      let before := s.connections connection
      if count = 0 ∨ before.toClient.length < count ∨ responseSize < got.length + count then none
      else
        let after := s.setConnection connection
          { before with toClient := before.toClient.drop count }
        let got := got ++ before.toClient.take count
        if got.length = responseSize then
          some (after.readOn call request connection (Response.decode got) [])
        else some (after.setCall call ⟨request, connection, .readingHeader got⟩)
  | some ⟨request, connection, .readingPayload response got⟩ =>
      let before := s.connections connection
      if count = 0 ∨ before.toClient.length < count ∨
          response.length.toNat < got.length + count then none
      else
        let after := s.setConnection connection
          { before with toClient := before.toClient.drop count }
        some (after.readOn call request connection response
          (got ++ before.toClient.take count))
  | _ => none

/-- `boost::asio::read` or `write` throws: the connection does not go back. -/
def throw (call : Nat) : Option Transfer :=
  match s.calls.find call with
  | none => none
  | some _ => some { s with calls := s.calls.erase call }

/-- `async_read_until` gets some bytes; with the terminator among them, all that is
in the buffer is the request. -/
def deliver (connection count : Nat) (file : Except RawError OpenedFile) (padding : Padding) :
    Option Transfer :=
  let before := s.connections connection
  match before.server with
  | .awaiting =>
      if count = 0 ∨ before.toServer.length < count then none
      else
        let buffer := before.buffer ++ before.toServer.take count
        let toServer := before.toServer.drop count
        if 0 ∈ buffer then
          match handleRequest buffer file with
          | none =>
              some (s.setConnection connection
                { before with toServer := toServer, buffer := [], server := .gone })
          | some (response, payload) =>
              let served : Served := ⟨buffer, response, padding, payload⟩
              some (s.setConnection connection
                { before with
                  toServer := toServer
                  buffer := []
                  server := .writing served.bytes
                  served := before.served ++ [served] })
        else
          some (s.setConnection connection
            { before with toServer := toServer, buffer := buffer })
  | _ => none

/-- `async_write` or `sendfile64` hands some bytes to the socket. -/
def transmit (connection count : Nat) : Option Transfer :=
  let before := s.connections connection
  match before.server with
  | .writing rest =>
      if count = 0 ∨ rest.length < count then none
      else
        some (s.setConnection connection
          { before with
            server := .writing (rest.drop count)
            toClient := before.toClient ++ rest.take count })
  | _ => none

/-- All is written, and the handler awaits the next request. -/
def finishWrite (connection : Nat) : Option Transfer :=
  let before := s.connections connection
  match before.server with
  | .writing [] => some (s.setConnection connection { before with server := .awaiting })
  | _ => none

/-- The server ends the connection after an error. -/
def close (connection : Nat) : Transfer :=
  s.setConnection connection { s.connections connection with server := .gone }

def perform : TransferEvent → Option Transfer
  | .begin call request => s.begin call request
  | .send call count => s.send call count
  | .receive call count => s.receive call count
  | .throw call => s.throw call
  | .deliver connection count file padding => s.deliver connection count file padding
  | .transmit connection count => s.transmit connection count
  | .finishWrite connection => s.finishWrite connection
  | .close connection => some (s.close connection)

def run : List TransferEvent → Transfer → Option Transfer
  | [], s => some s
  | event :: events, s => (s.perform event).bind (run events)

end Transfer

end TcpTransport

end GEDS
