/-
Every call gets the answer to its own request.  A connection that is in the pool
has nothing under way; one that was taken carries the request of its owner, or
the answer to it, and nothing else.
-/
import GEDS.FileTransfer

namespace GEDS

namespace TcpTransport

section Wire

@[simp] theorem length_littleEndian (size value : Nat) :
    (littleEndian size value).length = size := by
  induction size generalizing value with
  | zero => rfl
  | succ size ih => rw [littleEndian, List.length_cons, ih]

theorem fromLittleEndian_littleEndian (size value : Nat) :
    fromLittleEndian (littleEndian size value) = value % 256 ^ size := by
  induction size generalizing value with
  | zero => simp [littleEndian, fromLittleEndian, Nat.mod_one]
  | succ size ih =>
      have hbyte : (UInt8.ofNat (value % 256)).toNat = value % 256 :=
        Nat.mod_eq_of_lt (Nat.mod_lt value (by decide))
      rw [littleEndian, fromLittleEndian, ih, hbyte, pow_succ', Nat.mod_mul]

theorem Response.length_encode (response : Response) (padding : Padding) :
    (response.encode padding).length = responseSize := by
  have hpadding := padding.property
  simp [Response.encode, responseSize, hpadding]

theorem Response.decode_encode (response : Response) (padding : Padding) :
    Response.decode (response.encode padding) = response := by
  have hpadding := padding.property
  have hcode : (response.encode padding).take 4 = littleEndian 4 response.statusCode.toNat := by
    rw [Response.encode, List.append_assoc]
    exact List.take_left' (length_littleEndian 4 _)
  have hlength : (response.encode padding).drop 8 = littleEndian 8 response.length.toNat := by
    rw [Response.encode]
    exact List.drop_left' (by simp [hpadding])
  have hsmall : response.statusCode.toNat < 256 ^ 4 := response.statusCode.toNat_lt
  have hbig : response.length.toNat < 256 ^ 8 := response.length.toNat_lt
  rw [Response.decode, hcode, hlength, fromLittleEndian_littleEndian,
    fromLittleEndian_littleEndian, Nat.mod_eq_of_lt hsmall, Nat.mod_eq_of_lt hbig,
    UInt32.ofNat_toNat, UInt64.ofNat_toNat]

@[simp] theorem length_span (byteAt : Nat → UInt8) (offset length : UInt64) :
    (span byteAt offset length).length = length.toNat := by
  simp [span]

theorem handleError_length {error : RawError} {response : Response} {payload : Bytes}
    (hanswer : handleError error = some (response, payload)) :
    response.length.toNat = payload.length := by
  rw [handleError] at hanswer
  split_ifs at hanswer with hfits
  obtain ⟨rfl, rfl⟩ := Prod.ext_iff.1 (Option.some.inj hanswer)
  exact Nat.mod_eq_of_lt hfits

theorem handleWrite_length {offset length : UInt64} {file : Except RawError OpenedFile}
    {response : Response} {payload : Bytes}
    (hanswer : handleWrite offset length file = some (response, payload)) :
    response.length.toNat = payload.length := by
  unfold handleWrite at hanswer
  split at hanswer
  · exact handleError_length hanswer
  · split at hanswer
    · obtain ⟨rfl, rfl⟩ := Prod.ext_iff.1 (Option.some.inj hanswer)
      exact (length_span _ _ _).symm
    · split at hanswer
      · obtain ⟨rfl, rfl⟩ := Prod.ext_iff.1 (Option.some.inj hanswer)
        exact (length_span _ _ _).symm
      · split at hanswer
        · exact handleError_length hanswer
        · next bytes _ =>
          obtain ⟨rfl, rfl⟩ := Prod.ext_iff.1 (Option.some.inj hanswer)
          have hbound : (bytes.take length.toNat).length < 2 ^ 64 :=
            lt_of_le_of_lt (List.length_take_le _ _) length.toNat_lt
          exact Nat.mod_eq_of_lt hbound

/-- Whatever the server answers, it announces as many bytes as it sends. -/
theorem handleRequest_length {request : Bytes} {file : Except RawError OpenedFile}
    {response : Response} {payload : Bytes}
    (hanswer : handleRequest request file = some (response, payload)) :
    response.length.toNat = payload.length := by
  unfold handleRequest at hanswer
  split at hanswer
  · exact absurd hanswer nofun
  · exact handleError_length hanswer
  · exact handleWrite_length hanswer

/-- The bucket and the key have no byte that ends a string. -/
def GetRequest.NulFree (request : GetRequest) : Prop :=
  0 ∉ request.bucket ∧ 0 ∉ request.key

theorem not_mem_decimal (number : UInt64) : 0 ∉ decimal number := by
  intro hmem
  exact absurd (decimal_isDigit number 0 hmem) (by decide)

/-- The request ends at the first such byte. -/
theorem GetRequest.NulFree.not_mem_front {request : GetRequest} (hfree : request.NulFree) :
    0 ∉ createGetRequest request.bucket request.key request.offset request.length := by
  have hoffset := not_mem_decimal request.offset
  have hlength := not_mem_decimal request.length
  have hget : 0 ∉ text "GET " := by decide
  have hslash : 0 ∉ text "/" := by decide
  have hrange : 0 ∉ text "\nRANGE " := by decide
  have hblank : 0 ∉ text " " := by decide
  simp [createGetRequest, hfree.1, hfree.2, hoffset, hlength, hget, hslash, hrange, hblank]

theorem GetRequest.sent_ne_nil (request : GetRequest) : request.sent ≠ [] := by
  simp [GetRequest.sent, sentRequest]

/-- Once the end of the request has come, nothing of it is left. -/
theorem GetRequest.NulFree.rest_eq_nil {request : GetRequest} (hfree : request.NulFree)
    {front back : Bytes} (hsplit : front ++ back = request.sent) (hend : 0 ∈ front) :
    back = [] := by
  rcases List.eq_nil_or_concat back with hnil | ⟨rest, last, rfl⟩
  · exact hnil
  · exfalso
    rw [GetRequest.sent, sentRequest, List.concat_eq_append, ← List.append_assoc] at hsplit
    obtain ⟨hfront, -⟩ := List.append_inj' hsplit rfl
    exact hfree.not_mem_front (hfront ▸ List.mem_append_left rest hend)

end Wire

section Connections

/-- The server took these requests, each of them whole, and in this order. -/
def Matched (issued : List (Nat × GetRequest)) (served : List Served) : Prop :=
  issued.map (fun entry => entry.2.sent) = served.map Served.request

/-- What the server still has to write; the rest is lost if the connection is gone. -/
def ServerPhase.Owes : ServerPhase → Bytes → Prop
  | .awaiting, rest => rest = []
  | .writing unwritten, rest => rest = unwritten
  | .gone, _ => True

namespace Connection

/-- Nothing is under way. -/
structure Idle (c : Connection) : Prop where
  matched : Matched c.issued c.served
  toServer : c.toServer = []
  buffer : c.buffer = []
  toClient : c.toClient = []
  server : c.server.Owes []

/-- The request is under way, after those before it were answered. -/
structure Asking (c : Connection) (old : List (Nat × GetRequest)) (request : GetRequest)
    (unsent : Bytes) : Prop where
  matched : Matched old c.served
  request : c.server ≠ .gone → c.buffer ++ c.toServer ++ unsent = request.sent
  buffer : 0 ∉ c.buffer
  toClient : c.toClient = []
  server : c.server.Owes []

/-- The answer to the last request is under way. -/
structure Answering (c : Connection) (entry : Served) (coming : Bytes) : Prop where
  matched : Matched c.issued c.served
  last : c.served.getLast? = some entry
  toServer : c.toServer = []
  buffer : c.buffer = []
  coming : ∃ rest, c.toClient ++ rest = coming ∧ c.server.Owes rest

/-- What the owner of the connection waits for. -/
def Serves (c : Connection) (old : List (Nat × GetRequest)) (request : GetRequest) :
    CallPhase → Prop
  | .sending unsent => unsent ≠ [] ∧ c.Asking old request unsent
  | .readingHeader got =>
      (got = [] ∧ c.Asking old request []) ∨
        ∃ entry coming, c.Answering entry coming ∧ got ++ coming = entry.bytes
  | .readingPayload response got =>
      ∃ entry coming, c.Answering entry coming ∧ response = entry.response ∧
        got ++ coming = entry.payload

def Owned (c : Connection) (call : Nat) (owner : Call) : Prop :=
  ∃ old, c.issued = old ++ [(call, owner.request)] ∧ c.Serves old owner.request owner.phase

/-- The requests come from calls, at most one is not answered, and the server made every
answer. -/
structure Sound (c : Connection) (Begun : Nat → GetRequest → Prop) : Prop where
  begun : ∀ entry ∈ c.issued, Begun entry.1 entry.2
  outstanding : c.issued.length ≤ c.served.length + 1
  produced : ∀ entry ∈ c.served,
    ∃ file, handleRequest entry.request file = some (entry.response, entry.payload)

/-- The call was answered on this connection: as the request that it was given to for,
at the same position. -/
def Gave (c : Connection) (call : Nat) (result : CallResult) : Prop :=
  ∃ (index : Nat) (entry : Served), c.issued[index]? = some (call, result.request) ∧
    c.served[index]? = some entry ∧ entry.request = result.request.sent ∧
    entry.response = result.response ∧ entry.payload = result.payload

/-- What the server does with a connection in one step. -/
inductive ServerStep : Connection → Connection → Prop where
  | buffered (c : Connection) (count : Nat) (hserver : c.server = .awaiting)
      (hopen : 0 ∉ c.buffer ++ c.toServer.take count) :
      ServerStep c { c with
        toServer := c.toServer.drop count
        buffer := c.buffer ++ c.toServer.take count }
  | answered (c : Connection) (count : Nat) (entry : Served)
      (file : Except RawError OpenedFile) (hserver : c.server = .awaiting)
      (hend : 0 ∈ c.buffer ++ c.toServer.take count)
      (hrequest : entry.request = c.buffer ++ c.toServer.take count)
      (hanswer : handleRequest entry.request file = some (entry.response, entry.payload)) :
      ServerStep c { c with
        toServer := c.toServer.drop count
        buffer := []
        server := .writing entry.bytes
        served := c.served ++ [entry] }
  | transmitted (c : Connection) (count : Nat) (rest : Bytes)
      (hserver : c.server = .writing rest) :
      ServerStep c { c with
        server := .writing (rest.drop count)
        toClient := c.toClient ++ rest.take count }
  | finished (c : Connection) (hserver : c.server = .writing []) :
      ServerStep c { c with server := .awaiting }
  | refused (c : Connection) (count : Nat) (hserver : c.server = .awaiting)
      (hend : 0 ∈ c.buffer ++ c.toServer.take count) :
      ServerStep c { c with
        toServer := c.toServer.drop count
        buffer := []
        server := .gone }
  | closed (c : Connection) : ServerStep c { c with server := .gone }

namespace ServerStep

variable {c after : Connection} {Begun : Nat → GetRequest → Prop}

theorem issued (hstep : ServerStep c after) : after.issued = c.issued := by
  cases hstep <;> rfl

/-- The answers so far stay. -/
theorem served_prefix (hstep : ServerStep c after) : c.served <+: after.served := by
  cases hstep with
  | answered => exact List.prefix_append _ _
  | _ => exact List.prefix_refl _

theorem sound (hstep : ServerStep c after) (hsound : c.Sound Begun) :
    after.Sound Begun := by
  refine ⟨?_, ?_, ?_⟩
  · rw [hstep.issued]
    exact hsound.begun
  · have hlength := hstep.served_prefix.length_le
    have hbefore := hsound.outstanding
    rw [hstep.issued]
    omega
  · cases hstep with
    | answered count entry file _ _ _ hanswer =>
        intro other hmem
        rcases List.mem_append.1 hmem with hold | hnew
        · exact hsound.produced other hold
        · rw [List.mem_singleton.1 hnew]
          exact ⟨file, hanswer⟩
    | _ => exact hsound.produced

theorem gave (hstep : ServerStep c after) {call : Nat} {result : CallResult}
    (hgave : c.Gave call result) : after.Gave call result := by
  obtain ⟨index, entry, hissued, hserved, hsame⟩ := hgave
  refine ⟨index, entry, ?_, ?_, hsame⟩
  · rw [hstep.issued, hissued]
  · obtain ⟨added, hadded⟩ := hstep.served_prefix
    rw [← hadded, List.getElem?_append_left (List.getElem?_eq_some_iff.1 hserved).1, hserved]

/-- With no request in sight the server has nothing to do. -/
theorem idle (hstep : ServerStep c after) (hidle : c.Idle) : after.Idle := by
  obtain ⟨hmatched, htoServer, hbuffer, htoClient, hserver⟩ := hidle
  cases hstep with
  | buffered count _ _ =>
      exact ⟨hmatched, by simp [htoServer], by simp [hbuffer, htoServer], htoClient, hserver⟩
  | answered count entry file _ hend _ _ => simp [hbuffer, htoServer] at hend
  | transmitted count rest hwriting =>
      rw [hwriting] at hserver
      obtain rfl : [] = rest := hserver
      exact ⟨hmatched, htoServer, hbuffer, by simp [htoClient], by simp [ServerPhase.Owes]⟩
  | finished hwriting => exact ⟨hmatched, htoServer, hbuffer, htoClient, rfl⟩
  | refused count _ hend => simp [hbuffer, htoServer] at hend
  | closed => exact ⟨hmatched, htoServer, hbuffer, htoClient, trivial⟩

theorem answering (hstep : ServerStep c after) {entry : Served} {coming : Bytes}
    (hanswering : c.Answering entry coming) : after.Answering entry coming := by
  obtain ⟨hmatched, hlast, htoServer, hbuffer, rest, hcoming, hserver⟩ := hanswering
  cases hstep with
  | buffered count _ _ =>
      exact ⟨hmatched, hlast, by simp [htoServer], by simp [hbuffer, htoServer],
        rest, hcoming, hserver⟩
  | answered count entry file _ hend _ _ => simp [hbuffer, htoServer] at hend
  | transmitted count unwritten hwriting =>
      rw [hwriting] at hserver
      obtain rfl : rest = unwritten := hserver
      refine ⟨hmatched, hlast, htoServer, hbuffer, rest.drop count, ?_, rfl⟩
      rw [← hcoming, List.append_assoc, List.take_append_drop]
  | finished hwriting =>
      rw [hwriting] at hserver
      exact ⟨hmatched, hlast, htoServer, hbuffer, rest, hcoming, hserver⟩
  | refused count _ hend => simp [hbuffer, htoServer] at hend
  | closed => exact ⟨hmatched, hlast, htoServer, hbuffer, rest, hcoming, trivial⟩

theorem take_append_rest (buffer toServer unsent : Bytes) (count : Nat) :
    (buffer ++ toServer.take count) ++ (toServer.drop count ++ unsent) =
      buffer ++ toServer ++ unsent := by
  rw [List.append_assoc, ← List.append_assoc (toServer.take count), List.take_append_drop,
    List.append_assoc]

/-- The request is still under way, or it was whole and the answer is. -/
theorem asking (hstep : ServerStep c after) {old : List (Nat × GetRequest)} {call : Nat}
    {request : GetRequest} {unsent : Bytes} (hissued : c.issued = old ++ [(call, request)])
    (hfree : request.NulFree) (hasking : c.Asking old request unsent) :
    after.Asking old request unsent ∨
      unsent = [] ∧ ∃ entry, after.Answering entry entry.bytes := by
  obtain ⟨hmatched, hrequest, hbuffer, htoClient, hserver⟩ := hasking
  cases hstep with
  | buffered count hawaiting hopen =>
      refine Or.inl ⟨hmatched, fun hthere => ?_, hopen, htoClient, hserver⟩
      have hsplit := take_append_rest c.buffer c.toServer unsent count
      rw [← hrequest hthere, ← hsplit, ← List.append_assoc]
  | answered count entry file hawaiting hend hentry hanswer =>
      have hsplit := (take_append_rest c.buffer c.toServer unsent count).trans
        (hrequest (by simp [hawaiting]))
      have hrest := hfree.rest_eq_nil hsplit hend
      obtain ⟨hdrop, hunsent⟩ := List.append_eq_nil_iff.1 hrest
      rw [hrest, List.append_nil] at hsplit
      refine Or.inr ⟨hunsent, entry, ?_, ?_, hdrop, rfl, entry.bytes, ?_, rfl⟩
      · have hold : old.map (fun entry => entry.2.sent) = c.served.map Served.request := hmatched
        simp [Matched, hissued, hold, hentry, hsplit]
      · simp
      · simp [htoClient]
  | transmitted count rest hwriting =>
      rw [hwriting] at hserver
      obtain rfl : [] = rest := hserver
      refine Or.inl ⟨hmatched, fun _ => ?_, hbuffer, by simp [htoClient],
        by simp [ServerPhase.Owes]⟩
      exact hrequest (by simp [hwriting])
  | finished hwriting =>
      refine Or.inl ⟨hmatched, fun _ => ?_, hbuffer, htoClient, rfl⟩
      exact hrequest (by simp [hwriting])
  | refused count _ _ =>
      exact Or.inl ⟨hmatched, fun hthere => absurd rfl hthere, by simp, htoClient, trivial⟩
  | closed =>
      exact Or.inl ⟨hmatched, fun hthere => absurd rfl hthere, hbuffer, htoClient, trivial⟩

theorem owned (hstep : ServerStep c after) {call : Nat} {owner : Call}
    (hfree : owner.request.NulFree) (howned : c.Owned call owner) : after.Owned call owner := by
  obtain ⟨old, hissued, hserves⟩ := howned
  refine ⟨old, by rw [hstep.issued, hissued], ?_⟩
  obtain ⟨request, connection, phase⟩ := owner
  cases phase with
  | sending unsent =>
      obtain ⟨hunsent, hasking⟩ := hserves
      rcases hstep.asking hissued hfree hasking with hstill | ⟨hnil, -⟩
      · exact ⟨hunsent, hstill⟩
      · exact absurd hnil hunsent
  | readingHeader got =>
      rcases hserves with ⟨hgot, hasking⟩ | ⟨entry, coming, hanswering, hbytes⟩
      · rcases hstep.asking hissued hfree hasking with hstill | ⟨-, entry, hanswering⟩
        · exact Or.inl ⟨hgot, hstill⟩
        · exact Or.inr ⟨entry, entry.bytes, hanswering, by rw [hgot, List.nil_append]⟩
      · exact Or.inr ⟨entry, coming, hstep.answering hanswering, hbytes⟩
  | readingPayload response got =>
      obtain ⟨entry, coming, hanswering, hpayload⟩ := hserves
      exact ⟨entry, coming, hstep.answering hanswering, hpayload⟩

end ServerStep

section Client

theorem Sound.of_log {c changed : Connection} {Begun : Nat → GetRequest → Prop}
    (hsound : c.Sound Begun) (hissued : changed.issued = c.issued)
    (hserved : changed.served = c.served) : changed.Sound Begun := by
  refine ⟨?_, ?_, ?_⟩
  · rw [hissued]
    exact hsound.begun
  · rw [hissued, hserved]
    exact hsound.outstanding
  · rw [hserved]
    exact hsound.produced

theorem Gave.of_log {c changed : Connection} {call : Nat} {result : CallResult}
    (hgave : c.Gave call result) (hissued : changed.issued = c.issued)
    (hserved : changed.served = c.served) : changed.Gave call result := by
  rw [Gave, hissued, hserved]
  exact hgave

variable {c : Connection} {old : List (Nat × GetRequest)} {call : Nat} {request : GetRequest}
  {entry : Served} {coming : Bytes} {Begun : Nat → GetRequest → Prop}

theorem Idle.begin (hidle : c.Idle) (call : Nat) (request : GetRequest) (connection : Nat) :
    ({ c with issued := c.issued ++ [(call, request)] } : Connection).Owned call
      ⟨request, connection, .sending request.sent⟩ := by
  obtain ⟨hmatched, htoServer, hbuffer, htoClient, hserver⟩ := hidle
  refine ⟨c.issued, rfl, request.sent_ne_nil, hmatched, fun _ => ?_, ?_, htoClient, hserver⟩
  · simp [hbuffer, htoServer]
  · simp [hbuffer]

theorem Idle.sound_begin (hidle : c.Idle) (hsound : c.Sound Begun)
    (hbegun : Begun call request) :
    ({ c with issued := c.issued ++ [(call, request)] } : Connection).Sound Begun := by
  have hlength := congrArg List.length hidle.matched
  rw [List.length_map, List.length_map] at hlength
  refine ⟨?_, by simp [hlength], hsound.produced⟩
  intro entry hmem
  rcases List.mem_append.1 hmem with hold | hnew
  · exact hsound.begun entry hold
  · rw [List.mem_singleton.1 hnew]
    exact hbegun

theorem Gave.begin {result : CallResult} {other : Nat} (hgave : c.Gave other result)
    (call : Nat) (request : GetRequest) :
    ({ c with issued := c.issued ++ [(call, request)] } : Connection).Gave other result := by
  obtain ⟨index, entry, hissued, hserved, hsame⟩ := hgave
  refine ⟨index, entry, ?_, hserved, hsame⟩
  change (c.issued ++ [(call, request)])[index]? = _
  rw [List.getElem?_append_left (List.getElem?_eq_some_iff.1 hissued).1, hissued]

theorem Asking.send {unsent : Bytes} (hasking : c.Asking old request unsent) (count : Nat) :
    ({ c with toServer := c.toServer ++ unsent.take count } : Connection).Asking old request
      (unsent.drop count) := by
  obtain ⟨hmatched, hrequest, hbuffer, htoClient, hserver⟩ := hasking
  refine ⟨hmatched, fun hthere => ?_, hbuffer, htoClient, hserver⟩
  have hsplit : (c.toServer ++ unsent.take count) ++ unsent.drop count = c.toServer ++ unsent := by
    rw [List.append_assoc, List.take_append_drop]
  have hsent := hrequest hthere
  rw [List.append_assoc] at hsent ⊢
  rw [hsplit, hsent]

theorem Answering.receive (hanswering : c.Answering entry coming) (count : Nat) :
    ∃ left, c.toClient.take count ++ left = coming ∧
      ({ c with toClient := c.toClient.drop count } : Connection).Answering entry left := by
  obtain ⟨hmatched, hlast, htoServer, hbuffer, rest, hcoming, hserver⟩ := hanswering
  refine ⟨c.toClient.drop count ++ rest, ?_,
    hmatched, hlast, htoServer, hbuffer, rest, rfl, hserver⟩
  rw [← hcoming, ← List.append_assoc, List.take_append_drop]

/-- When all has been read, nothing is under way any more. -/
theorem Answering.idle (hanswering : c.Answering entry []) : c.Idle := by
  obtain ⟨hmatched, -, htoServer, hbuffer, rest, hcoming, hserver⟩ := hanswering
  obtain ⟨htoClient, rfl⟩ := List.append_eq_nil_iff.1 hcoming
  exact ⟨hmatched, htoServer, hbuffer, htoClient, hserver⟩

/-- The last answer is the one to the last request. -/
theorem Answering.gave (hanswering : c.Answering entry coming)
    (hissued : c.issued = old ++ [(call, request)]) :
    c.Gave call ⟨request, entry.response, entry.payload⟩ := by
  obtain ⟨before, hserved⟩ := List.getLast?_eq_some_iff.1 hanswering.last
  have hmatched : c.issued.map (fun issued => issued.2.sent) = c.served.map Served.request :=
    hanswering.matched
  rw [hissued, hserved, List.map_append, List.map_append] at hmatched
  obtain ⟨hbefore, hsame⟩ := List.append_inj' hmatched rfl
  have hlength : old.length = before.length := by
    have hlengths := congrArg List.length hbefore
    rwa [List.length_map, List.length_map] at hlengths
  refine ⟨old.length, entry, ?_, ?_, ?_, rfl, rfl⟩
  · simp [hissued]
  · simp [hserved, hlength]
  · exact (List.singleton_inj.1 hsame).symm

theorem Answering.length (hanswering : c.Answering entry coming)
    (hsound : c.Sound Begun) :
    entry.response.length.toNat = entry.payload.length := by
  obtain ⟨file, hanswer⟩ := hsound.produced entry (List.mem_of_getLast? hanswering.last)
  exact handleRequest_length hanswer

end Client

end Connection

end Connections

namespace Transfer

/-- What holds of the pool, of the calls and of every connection in every run. -/
structure Invariant (s : Transfer) (Begun : Nat → GetRequest → Prop) : Prop where
  pool : s.pool.Nodup
  idle : ∀ connection ∈ s.pool, (s.connections connection).Idle
  owned : ∀ call owner, s.calls.find call = some owner →
    owner.connection ∉ s.pool ∧ owner.request.NulFree ∧
      (s.connections owner.connection).Owned call owner
  exclusive : ∀ call other owner another, s.calls.find call = some owner →
    s.calls.find other = some another → owner.connection = another.connection → call = other
  sound : ∀ connection, (s.connections connection).Sound Begun
  answered : ∀ call result, s.results.find call = some result →
    ∃ connection, (s.connections connection).Gave call result

theorem connect_invariant (clients : Nat) (Begun : Nat → GetRequest → Prop) :
    (connect clients).Invariant Begun where
  pool := List.nodup_range
  idle := fun _ _ => ⟨rfl, rfl, rfl, rfl, rfl⟩
  owned := nofun
  exclusive := nofun
  sound := fun _ => ⟨nofun, Nat.zero_le _, nofun⟩
  answered := nofun

variable {s after : Transfer} {Begun : Nat → GetRequest → Prop}

/-- Whether a call was answered does not depend on how the connections change, if the
requests and the answers stay. -/
theorem answered_update {connection : Nat} {changed : Connection}
    (hgave : ∀ call result, (s.connections connection).Gave call result →
      changed.Gave call result)
    {call : Nat} {result : CallResult}
    (hanswered : ∃ connection, (s.connections connection).Gave call result) :
    ∃ other, ((s.setConnection connection changed).connections other).Gave call result := by
  obtain ⟨other, hother⟩ := hanswered
  refine ⟨other, ?_⟩
  by_cases heq : other = connection
  · subst heq
    simpa [setConnection] using hgave call result hother
  · simpa [setConnection, heq] using hother

theorem sound_update (hinv : s.Invariant Begun) {connection : Nat} {changed : Connection}
    (hsound : changed.Sound Begun) (other : Nat) :
    ((s.setConnection connection changed).connections other).Sound Begun := by
  by_cases heq : other = connection
  · subst heq
    simpa [setConnection] using hsound
  · simpa [setConnection, heq] using hinv.sound other

/-- Every step of a server keeps the invariant. -/
theorem Invariant.serverStep (hinv : s.Invariant Begun) {connection : Nat} {changed : Connection}
    (hstep : (s.connections connection).ServerStep changed) :
    (s.setConnection connection changed).Invariant Begun where
  pool := hinv.pool
  idle := by
    intro other hmem
    by_cases heq : other = connection
    · subst heq
      simpa [setConnection] using hstep.idle (hinv.idle other hmem)
    · simpa [setConnection, heq] using hinv.idle other hmem
  owned := by
    intro call owner hfind
    obtain ⟨hpool, hfree, howned⟩ := hinv.owned call owner hfind
    refine ⟨hpool, hfree, ?_⟩
    by_cases heq : owner.connection = connection
    · subst heq
      simpa [setConnection] using hstep.owned hfree howned
    · simpa [setConnection, heq] using howned
  exclusive := hinv.exclusive
  sound := sound_update hinv (hstep.sound (hinv.sound connection))
  answered := fun call result hfind =>
    answered_update (fun _ _ => hstep.gave) (hinv.answered call result hfind)

section Calls

variable {call : Nat} {owner : Call} {changed : Connection}

/-- The connections of the other calls and of the pool are not the one of this call. -/
theorem Invariant.other_connection (hinv : s.Invariant Begun)
    (hfind : s.calls.find call = some owner) {other : Nat} {another : Call}
    (hother : s.calls.find other = some another) (hne : other ≠ call) :
    another.connection ≠ owner.connection :=
  fun heq => hne (hinv.exclusive other call another owner hother hfind heq)

/-- A call goes on. -/
theorem Invariant.advance (hinv : s.Invariant Begun) (hfind : s.calls.find call = some owner)
    (hissued : changed.issued = (s.connections owner.connection).issued)
    (hserved : changed.served = (s.connections owner.connection).served) (phase : CallPhase)
    (howned : changed.Owned call ⟨owner.request, owner.connection, phase⟩) :
    ((s.setConnection owner.connection changed).setCall call
      ⟨owner.request, owner.connection, phase⟩).Invariant Begun where
  pool := hinv.pool
  idle := by
    intro connection hmem
    have hne : connection ≠ owner.connection := by
      rintro rfl
      exact (hinv.owned call owner hfind).1 hmem
    simpa [setConnection, setCall, hne] using hinv.idle connection hmem
  owned := by
    intro other another hother
    by_cases heq : other = call
    · subst heq
      obtain ⟨hpool, hfree, -⟩ := hinv.owned other owner hfind
      obtain rfl : ⟨owner.request, owner.connection, phase⟩ = another := by
        simpa [setCall] using hother
      refine ⟨hpool, hfree, ?_⟩
      simpa [setConnection, setCall] using howned
    · have hold : s.calls.find other = some another := by
        simpa [setCall, setConnection, heq] using hother
      have hne := hinv.other_connection hfind hold heq
      simpa [setConnection, setCall, hne] using hinv.owned other another hold
  exclusive := by
    -- the connection of every call is the one it had
    have hconnection : ∀ other another,
        ((s.setConnection owner.connection changed).setCall call
          ⟨owner.request, owner.connection, phase⟩).calls.find other = some another →
        ∃ before, s.calls.find other = some before ∧ before.connection = another.connection := by
      intro other another hother
      by_cases heq : other = call
      · subst heq
        obtain rfl : ⟨owner.request, owner.connection, phase⟩ = another := by
          simpa [setCall] using hother
        exact ⟨owner, hfind, rfl⟩
      · exact ⟨another, by simpa [setCall, setConnection, heq] using hother, rfl⟩
    intro first second one two hone htwo hsame
    obtain ⟨oneBefore, honeBefore, honeSame⟩ := hconnection first one hone
    obtain ⟨twoBefore, htwoBefore, htwoSame⟩ := hconnection second two htwo
    exact hinv.exclusive first second oneBefore twoBefore honeBefore htwoBefore
      (honeSame.trans (hsame.trans htwoSame.symm))
  sound := sound_update hinv ((hinv.sound owner.connection).of_log hissued hserved)
  answered := fun other result hresult =>
    answered_update (fun _ _ hgave => hgave.of_log hissued hserved)
      (hinv.answered other result hresult)

/-- A call that is over leaves the others as they are. -/
theorem find_of_calls_erase {other : Nat} {another : Call}
    (hother : (s.calls.erase call).find other = some another) :
    other ≠ call ∧ s.calls.find other = some another := by
  by_cases heq : other = call
  · simp [heq] at hother
  · exact ⟨heq, by simpa [heq] using hother⟩

/-- A call returns with all that the server sent for it. -/
theorem Invariant.finish (hinv : s.Invariant Begun) (hfind : s.calls.find call = some owner)
    (hissued : changed.issued = (s.connections owner.connection).issued)
    (hserved : changed.served = (s.connections owner.connection).served) {entry : Served}
    (hanswering : changed.Answering entry []) :
    ((s.setConnection owner.connection changed).finish call owner.request owner.connection
      entry.response entry.payload).Invariant Begun where
  pool := by
    have hpool := (hinv.owned call owner hfind).1
    exact List.nodup_append.2 ⟨hinv.pool, List.nodup_singleton _, by
      intro connection hmem last hlast
      rw [List.mem_singleton.1 hlast]
      rintro rfl
      exact hpool hmem⟩
  idle := by
    intro connection hmem
    by_cases heq : connection = owner.connection
    · subst heq
      simpa [Transfer.finish, setConnection] using hanswering.idle
    · have hold : connection ∈ s.pool := by
        simpa [Transfer.finish, setConnection, heq] using hmem
      simpa [Transfer.finish, setConnection, heq] using hinv.idle connection hold
  owned := by
    intro other another hother
    obtain ⟨hne, hold⟩ := find_of_calls_erase hother
    have hconnection := hinv.other_connection hfind hold hne
    obtain ⟨hpool, hfree, howned⟩ := hinv.owned other another hold
    refine ⟨?_, hfree, ?_⟩
    · simpa [Transfer.finish, setConnection, hconnection] using hpool
    · simpa [Transfer.finish, setConnection, hconnection] using howned
  exclusive := by
    intro first second one two hone htwo hsame
    exact hinv.exclusive first second one two (find_of_calls_erase hone).2
      (find_of_calls_erase htwo).2 hsame
  sound := sound_update hinv ((hinv.sound owner.connection).of_log hissued hserved)
  answered := by
    intro other result hresult
    by_cases heq : other = call
    · subst heq
      obtain rfl : ⟨owner.request, entry.response, entry.payload⟩ = result := by
        simpa [Transfer.finish] using hresult
      obtain ⟨old, hlog, -⟩ := (hinv.owned other owner hfind).2.2
      refine ⟨owner.connection, ?_⟩
      simpa [Transfer.finish, setConnection] using hanswering.gave (hissued.trans hlog)
    · have hold : s.results.find other = some result := by
        simpa [Transfer.finish, setConnection, heq] using hresult
      exact answered_update (fun _ _ hgave => hgave.of_log hissued hserved)
        (hinv.answered other result hold)

/-- A call reads some of the payload, and returns if that was all. -/
theorem Invariant.readOn (hinv : s.Invariant Begun) (hfind : s.calls.find call = some owner)
    (hissued : changed.issued = (s.connections owner.connection).issued)
    (hserved : changed.served = (s.connections owner.connection).served) {entry : Served}
    {coming got : Bytes} (hanswering : changed.Answering entry coming)
    (hpayload : got ++ coming = entry.payload) :
    ((s.setConnection owner.connection changed).readOn call owner.request owner.connection
      entry.response got).Invariant Begun := by
  have hsound := (hinv.sound owner.connection).of_log hissued hserved
  have hlength := hanswering.length hsound
  rw [Transfer.readOn]
  split_ifs with hall
  · have hcoming : coming = [] := by
      have hlengths := congrArg List.length hpayload
      rw [List.length_append] at hlengths
      exact List.length_eq_zero_iff.1 (by omega)
    subst hcoming
    rw [List.append_nil] at hpayload
    rw [hpayload]
    exact hinv.finish hfind hissued hserved hanswering
  · obtain ⟨old, hlog, -⟩ := (hinv.owned call owner hfind).2.2
    exact hinv.advance hfind hissued hserved _
      ⟨old, hissued.trans hlog, entry, coming, hanswering, rfl, hpayload⟩

end Calls

theorem Invariant.begin (hinv : s.Invariant Begun) {call : Nat} {request : GetRequest}
    (hfree : request.NulFree) (hbegun : Begun call request)
    (hperform : s.begin call request = some after) :
    after.Invariant Begun := by
  unfold Transfer.begin at hperform
  split at hperform
  · cases hperform
  · next connection pool hpool =>
    split_ifs at hperform with hknown
    obtain ⟨hcall, -⟩ := not_or.1 hknown
    obtain rfl := Option.some.inj hperform
    have hnodup := List.nodup_cons.1 (hpool ▸ hinv.pool)
    have hmem : ∀ other ∈ pool, other ∈ s.pool := fun other hother =>
      hpool ▸ List.mem_cons_of_mem connection hother
    have hhead : connection ∈ s.pool := hpool ▸ List.mem_cons_self
    have hidle := hinv.idle connection hhead
    have hne : ∀ other owner, s.calls.find other = some owner → owner.connection ≠ connection := by
      rintro other owner hfind rfl
      exact (hinv.owned other owner hfind).1 hhead
    constructor
    case pool => exact hnodup.2
    case idle =>
      intro other hother
      have hother' : other ≠ connection := by
        rintro rfl
        exact hnodup.1 hother
      simpa [setConnection, setCall, hother'] using hinv.idle other (hmem other hother)
    case owned =>
      intro other owner hfind
      by_cases heq : other = call
      · subst heq
        obtain rfl : ⟨request, connection, .sending request.sent⟩ = owner := by
          simpa [setCall] using hfind
        refine ⟨hnodup.1, hfree, ?_⟩
        simpa [setConnection, setCall] using hidle.begin other request connection
      · have hold : s.calls.find other = some owner := by
          simpa [setCall, setConnection, heq] using hfind
        obtain ⟨hnot, hfree', howned⟩ := hinv.owned other owner hold
        refine ⟨fun hother => hnot (hmem _ hother), hfree', ?_⟩
        simpa [setConnection, setCall, hne other owner hold] using howned
    case exclusive =>
      intro first second one two hone htwo hsame
      simp only [setCall, setConnection, AssocMap.find_insert] at hone htwo
      split_ifs at hone htwo with hfirst hsecond hsecond
      · rw [hfirst, hsecond]
      · obtain rfl := Option.some.inj hone
        exact absurd hsame.symm (hne second two htwo)
      · obtain rfl := Option.some.inj htwo
        exact absurd hsame (hne first one hone)
      · exact hinv.exclusive first second one two hone htwo hsame
    case sound =>
      intro other
      exact sound_update hinv (hidle.sound_begin (hinv.sound connection) hbegun) other
    case answered =>
      intro other result hresult
      exact answered_update (fun _ _ hgave => hgave.begin call request)
        (hinv.answered other result hresult)

theorem Invariant.send (hinv : s.Invariant Begun) {call count : Nat}
    (hperform : s.send call count = some after) : after.Invariant Begun := by
  unfold Transfer.send at hperform
  split at hperform
  · next request connection rest hfind =>
    obtain ⟨-, -, old, hlog, -, hasking⟩ := hinv.owned call _ hfind
    have hsent := hasking.send count
    split_ifs at hperform with hcount hdone
    · obtain rfl := Option.some.inj hperform
      rw [hdone] at hsent
      apply hinv.advance hfind
      · rfl
      · rfl
      · exact ⟨old, hlog, Or.inl ⟨rfl, hsent⟩⟩
    · obtain rfl := Option.some.inj hperform
      apply hinv.advance hfind
      · rfl
      · rfl
      · exact ⟨old, hlog, hdone, hsent⟩
  · cases hperform

theorem Invariant.receive (hinv : s.Invariant Begun) {call count : Nat}
    (hperform : s.receive call count = some after) : after.Invariant Begun := by
  unfold Transfer.receive at hperform
  split at hperform
  · next request connection got hfind =>
    obtain ⟨-, -, old, hlog, hserves⟩ := hinv.owned call _ hfind
    rcases hserves with ⟨-, hasking⟩ | ⟨entry, coming, hanswering, hbytes⟩
    · have hnothing : (s.connections connection).toClient.length = 0 := by
        simpa using hasking.toClient
      have hstuck : count = 0 ∨ (s.connections connection).toClient.length < count ∨
          responseSize < got.length + count := by omega
      rw [if_pos hstuck] at hperform
      cases hperform
    · obtain ⟨left, hleft, hafter⟩ := hanswering.receive count
      have hsplit : (got ++ (s.connections connection).toClient.take count) ++ left =
          entry.response.encode entry.padding ++ entry.payload := by
        rw [List.append_assoc, hleft, hbytes]
        rfl
      dsimp only at hperform
      split_ifs at hperform with hcount hheader
      · obtain rfl := Option.some.inj hperform
        obtain ⟨hencoded, hpayload⟩ := List.append_inj hsplit
          (hheader.trans (entry.response.length_encode entry.padding).symm)
        rw [hencoded, Response.decode_encode]
        exact hinv.readOn hfind (by rfl) (by rfl) hafter hpayload
      · obtain rfl := Option.some.inj hperform
        apply hinv.advance hfind
        · rfl
        · rfl
        · exact ⟨old, hlog, Or.inr ⟨entry, left, hafter, hsplit⟩⟩
  · next request connection response got hfind =>
    obtain ⟨-, -, old, hlog, entry, coming, hanswering, rfl, hpayload⟩ := hinv.owned call _ hfind
    obtain ⟨left, hleft, hafter⟩ := hanswering.receive count
    dsimp only at hperform
    split_ifs at hperform with hcount
    obtain rfl := Option.some.inj hperform
    have hrest : (got ++ (s.connections connection).toClient.take count) ++ left =
        entry.payload := by
      rw [List.append_assoc, hleft, hpayload]
    exact hinv.readOn hfind (by rfl) (by rfl) hafter hrest
  · cases hperform

theorem Invariant.throw (hinv : s.Invariant Begun) {call : Nat}
    (hperform : s.throw call = some after) : after.Invariant Begun := by
  unfold Transfer.throw at hperform
  split at hperform
  · cases hperform
  · obtain rfl := Option.some.inj hperform
    exact ⟨hinv.pool, hinv.idle,
      fun other owner hfind => hinv.owned other owner (find_of_calls_erase hfind).2,
      fun first second one two hone htwo => hinv.exclusive first second one two
        (find_of_calls_erase hone).2 (find_of_calls_erase htwo).2,
      hinv.sound, hinv.answered⟩

section Server

variable {connection count : Nat}

theorem deliver_serverStep {file : Except RawError OpenedFile} {padding : Padding}
    (hperform : s.deliver connection count file padding = some after) :
    ∃ changed, after = s.setConnection connection changed ∧
      (s.connections connection).ServerStep changed := by
  unfold deliver at hperform
  dsimp only at hperform
  split at hperform
  · next hserver =>
    split_ifs at hperform with hcount hend
    · split at hperform
      · exact ⟨_, (Option.some.inj hperform).symm, .refused _ count hserver hend⟩
      · next response payload hanswer =>
        exact ⟨_, (Option.some.inj hperform).symm,
          .answered _ count ⟨_, response, padding, payload⟩ file hserver hend rfl hanswer⟩
    · exact ⟨_, (Option.some.inj hperform).symm, .buffered _ count hserver hend⟩
  · cases hperform

theorem transmit_serverStep (hperform : s.transmit connection count = some after) :
    ∃ changed, after = s.setConnection connection changed ∧
      (s.connections connection).ServerStep changed := by
  unfold transmit at hperform
  dsimp only at hperform
  split at hperform
  · next rest hserver =>
    split_ifs at hperform with hcount
    exact ⟨_, (Option.some.inj hperform).symm, .transmitted _ count rest hserver⟩
  · cases hperform

theorem finishWrite_serverStep (hperform : s.finishWrite connection = some after) :
    ∃ changed, after = s.setConnection connection changed ∧
      (s.connections connection).ServerStep changed := by
  unfold finishWrite at hperform
  dsimp only at hperform
  split at hperform
  · next hserver => exact ⟨_, (Option.some.inj hperform).symm, .finished _ hserver⟩
  · cases hperform

end Server

/-- The names that a call is made with. -/
def NulFreeEvent : TransferEvent → Prop
  | .begin _ request => request.NulFree
  | _ => True

theorem Invariant.perform (hinv : s.Invariant Begun) {event : TransferEvent}
    (hfree : NulFreeEvent event)
    (hbegun : ∀ call request, event = .begin call request → Begun call request)
    (hperform : s.perform event = some after) :
    after.Invariant Begun := by
  have hserver : ∀ connection, (∃ changed, after = s.setConnection connection changed ∧
      (s.connections connection).ServerStep changed) → after.Invariant Begun := by
    rintro connection ⟨changed, rfl, hstep⟩
    exact hinv.serverStep hstep
  cases event with
  | begin call request => exact hinv.begin hfree (hbegun call request rfl) hperform
  | send call count => exact hinv.send hperform
  | receive call count => exact hinv.receive hperform
  | throw call => exact hinv.throw hperform
  | deliver connection count file padding => exact hserver _ (deliver_serverStep hperform)
  | transmit connection count => exact hserver _ (transmit_serverStep hperform)
  | finishWrite connection => exact hserver _ (finishWrite_serverStep hperform)
  | close connection =>
      exact hserver connection ⟨_, (Option.some.inj hperform).symm, .closed _⟩

theorem Invariant.run {events : List TransferEvent} (hinv : s.Invariant Begun)
    (hfree : ∀ event ∈ events, NulFreeEvent event)
    (hbegun : ∀ call request, .begin call request ∈ events → Begun call request)
    (hrun : Transfer.run events s = some after) :
    after.Invariant Begun := by
  induction events generalizing s with
  | nil =>
      obtain rfl := Option.some.inj hrun
      exact hinv
  | cons event events ih =>
      obtain ⟨next, hperform, hrest⟩ := Option.bind_eq_some_iff.1 hrun
      have hnext : next.Invariant Begun := by
        apply hinv.perform (hfree event List.mem_cons_self) _ hperform
        rintro call request rfl
        exact hbegun call request List.mem_cons_self
      exact ih hnext (fun later hlater => hfree later (List.mem_cons_of_mem event hlater))
        (fun call request hlater => hbegun call request (List.mem_cons_of_mem event hlater)) hrest

/-- Every call that returned has the header and the payload that the server made for the
request it was made with: its connection answered all requests in the order in which they
were issued.  No connection has two owners, or two requests without an answer. -/
theorem run_answers_own_request {clients : Nat} {events : List TransferEvent} {s : Transfer}
    (hrun : run events (connect clients) = some s)
    (hfree : ∀ event ∈ events, NulFreeEvent event) :
    (∀ call result, s.results.find call = some result →
      .begin call result.request ∈ events ∧
      ∃ (connection index : Nat) (entry : Served) (file : Except RawError OpenedFile),
        (s.connections connection).issued[index]? = some (call, result.request) ∧
        (s.connections connection).served[index]? = some entry ∧
        entry.request = result.request.sent ∧
        handleRequest entry.request file = some (entry.response, entry.payload) ∧
        entry.response = result.response ∧ entry.payload = result.payload) ∧
    (∀ call other owner another, s.calls.find call = some owner →
      s.calls.find other = some another → owner.connection = another.connection →
      call = other) ∧
    ∀ connection,
      (s.connections connection).issued.length ≤ (s.connections connection).served.length + 1 := by
  have hinv := (connect_invariant clients fun call request =>
    TransferEvent.begin call request ∈ events).run hfree (fun _ _ hmem => hmem) hrun
  refine ⟨?_, hinv.exclusive, fun connection => (hinv.sound connection).outstanding⟩
  intro call result hresult
  obtain ⟨connection, index, entry, hissued, hserved, hsame⟩ := hinv.answered call result hresult
  obtain ⟨file, hanswer⟩ :=
    (hinv.sound connection).produced entry (List.mem_of_getElem? hserved)
  have hbegun := (hinv.sound connection).begun _ (List.mem_of_getElem? hissued)
  exact ⟨hbegun, connection, index, entry, file, hissued, hserved, hsame.1, hanswer, hsame.2⟩

namespace Sample

def padding : Padding := ⟨[7, 7, 7, 7], rfl⟩

/-- A mapped file of three bytes. -/
def mapped : OpenedFile := ⟨3, some fun position => UInt8.ofNat (10 + position), none, .ok []⟩

def first : GetRequest := ⟨text "abc", text "k", 1, 8⟩

def second : GetRequest := ⟨text "abc", text "l", 0, 2⟩

/-- Two calls share one connection; the streams are cut at odd places. -/
def events : List TransferEvent :=
  [.begin 0 first, .send 0 5, .deliver 0 3 (.ok mapped) padding, .send 0 15,
    .deliver 0 17 (.ok mapped) padding, .transmit 0 9, .receive 0 9, .transmit 0 9,
    .finishWrite 0, .receive 0 7, .receive 0 2, .begin 1 second, .send 1 20,
    .deliver 0 20 (.ok mapped) padding, .transmit 0 18, .receive 1 16, .receive 1 2]

def finished : Transfer := (run events (connect 1)).get (by decide +kernel)

theorem events_finished : run events (connect 1) = some finished :=
  (Option.some_get _).symm

theorem events_nulFree : ∀ event ∈ events, NulFreeEvent event := by
  simp only [events, List.forall_mem_cons, NulFreeEvent, GetRequest.NulFree, List.not_mem_nil,
    false_implies, implies_true, and_true, true_and]
  decide

theorem both_answered :
    (finished.results.find 0).map CallResult.payload = some [11, 12] ∧
      (finished.results.find 1).map CallResult.payload = some [10, 11] ∧
      ∀ call result, finished.results.find call = some result →
        .begin call result.request ∈ events := by
  refine ⟨by decide +kernel, by decide +kernel, ?_⟩
  intro call result hresult
  exact ((run_answers_own_request events_finished events_nulFree).1 call result hresult).1

end Sample

end Transfer

end TcpTransport

end GEDS
