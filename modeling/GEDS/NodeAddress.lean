/-
The address of a node, from the peer of a call to the location of an object and back to the
host that other nodes compare endpoints with.
-/
import GEDS.FileTransferPool

namespace GEDS

open Status

/-- `"ipv4:"` -/
def ipv4Prefix : Bytes := text "ipv4:"

/-- `"ipv6:"` -/
def ipv6Prefix : Bytes := text "ipv6:"

def colon : UInt8 := 0x3a

def comma : UInt8 := 0x2c

def closingBracket : UInt8 := 0x5d

/-- `GetAddressFromGRPCPeer`; `none` if `substr` throws. -/
def getAddressFromGRPCPeer (peerInfo : Bytes) : Option (Except Status Bytes) :=
  if peerInfo.contains comma then
    some (.error (unknownError (text "Peer information " ++ peerInfo ++
      text " contains multiple IP addresses!")))
  else if peerInfo.length < ipv4Prefix.length then none
  else
    let view := peerInfo.drop ipv4Prefix.length
    if peerInfo.take ipv4Prefix.length = ipv4Prefix then
      match view.findIdx? fun byte => decide (byte = colon) with
      | some 0 =>
          some (.error (unknownError (text "Unable to parse ip from peer " ++ peerInfo ++
            text " (unexpected length)")))
      | some pos => some (.ok (view.take pos))
      | none => some (.ok view)
    else if peerInfo.take ipv6Prefix.length = ipv6Prefix then
      match view.findIdx? fun byte => decide (byte = closingBracket) with
      | some 0 => some (.error (unknownError (text "Invalid IPv6 peer " ++ peerInfo)))
      | some pos => some (.ok (view.take (pos + 1)))
      | none => some (.ok view)
    else
      some (.error (unknownError (text "Unable to parse peer " ++ peerInfo ++
        text " (unknown GRPC peer format)")))

/-- `std::to_string` of a port -/
def portText (port : UInt16) : Bytes := TcpTransport.decimal port.toUInt64

/-- `computeHostUri` -/
def computeHostUri (hostname : Bytes) (port : UInt16) : Bytes :=
  text "geds://" ++ hostname ++ text ":" ++ portText port

/-- The node that `GEDSRemoteFileHandle::factory` asks for a file transfer service. -/
def remoteHostname (location : Bytes) : Except Status Bytes :=
  if location.take (text "geds://").length ≠ text "geds://" then
    .error ⟨.internal,
      text "Location has invalid prefix for GEDSRemoteFileHandle passed: " ++ location⟩
  else
    let hostname := location.drop (text "geds://").length
    if hostname.length = 0 then .error (unknownError (text "Invalid hostname")) else .ok hostname

/-- The host for which `FileTransferService::connect` takes the endpoints of a location. -/
def decodedHost (location : Bytes) : Except Status Bytes :=
  match remoteHostname location with
  | .error status => .error status
  | .ok hostname =>
      match TcpTransport.TransferService.nodeLocation hostname with
      | none => .error (unknownError (text "Unable to parse node address."))
      | some nodeLoc => .ok nodeLoc

/-- The address in an `ipv4` peer. -/
structure IPv4Address where
  text : Bytes
  nonempty : text ≠ []
  noColon : colon ∉ text
  noComma : comma ∉ text

/-- The address between the brackets of an `ipv6` peer; its groups are separated by colons. -/
structure IPv6Address where
  text : Bytes
  grouped : colon ∈ text
  noBracket : closingBracket ∉ text
  noComma : comma ∉ text

inductive Peer where
  | ipv4 (address : IPv4Address) (port : UInt16)
  | ipv6 (address : IPv6Address) (port : UInt16)

namespace Peer

/-- What `context->peer()` returns. -/
def info : Peer → Bytes
  | ipv4 address port => ipv4Prefix ++ (address.text ++ colon :: portText port)
  | ipv6 address port =>
      ipv6Prefix ++ (0x5b :: address.text ++ closingBracket :: colon :: portText port)

/-- The host in it, with the brackets of an IPv6 address. -/
def host : Peer → Bytes
  | ipv4 address _ => address.text
  | ipv6 address _ => 0x5b :: address.text ++ [closingBracket]

def isIPv4 : Peer → Bool
  | ipv4 _ _ => true
  | ipv6 _ _ => false

end Peer

/-- A digit is no separator. -/
theorem not_mem_portText {letter : UInt8} (hletter : TcpTransport.isDigit letter = false)
    (port : UInt16) : letter ∉ portText port := by
  intro hmem
  rw [TcpTransport.decimal_isDigit port.toUInt64 letter hmem] at hletter
  cases hletter

/-- `substr` up to the first separator. -/
theorem findIdx?_separator {sep : UInt8} {left : Bytes} (hleft : sep ∉ left) (right : Bytes) :
    (left ++ sep :: right).findIdx? (fun byte => decide (byte = sep)) = some left.length :=
  (findIdx?_eq_some_iff_split _ _).2 ⟨left, right, rfl, hleft, rfl⟩

/-- Behind `ipv4:` the address ends at the first colon. -/
theorem getAddressFromGRPCPeer_ipv4 {view : Bytes} (hcomma : comma ∉ view) :
    getAddressFromGRPCPeer (ipv4Prefix ++ view) =
      match view.findIdx? fun byte => decide (byte = colon) with
      | some 0 =>
          some (.error (unknownError (text "Unable to parse ip from peer " ++ (ipv4Prefix ++ view) ++
            text " (unexpected length)")))
      | some pos => some (.ok (view.take pos))
      | none => some (.ok view) := by
  have hsingle : ¬ (ipv4Prefix ++ view).contains comma = true := by
    have hscheme : comma ∉ ipv4Prefix := by decide
    simp [hscheme, hcomma]
  have hlong : ¬ (ipv4Prefix ++ view).length < ipv4Prefix.length := by simp
  rw [getAddressFromGRPCPeer, if_neg hsingle, if_neg hlong]
  simp only [List.take_left, List.drop_left, ↓reduceIte]

/-- Behind `ipv6:` it ends with the first closing bracket. -/
theorem getAddressFromGRPCPeer_ipv6 {view : Bytes} (hcomma : comma ∉ view) :
    getAddressFromGRPCPeer (ipv6Prefix ++ view) =
      match view.findIdx? fun byte => decide (byte = closingBracket) with
      | some 0 => some (.error (unknownError (text "Invalid IPv6 peer " ++ (ipv6Prefix ++ view))))
      | some pos => some (.ok (view.take (pos + 1)))
      | none => some (.ok view) := by
  have hsingle : ¬ (ipv6Prefix ++ view).contains comma = true := by
    have hscheme : comma ∉ ipv6Prefix := by decide
    simp [hscheme, hcomma]
  have hsame : ipv4Prefix.length = ipv6Prefix.length := by decide
  have hother : ipv6Prefix ≠ ipv4Prefix := by decide
  have hlong : ¬ (ipv6Prefix ++ view).length < ipv4Prefix.length := by simp [hsame]
  rw [getAddressFromGRPCPeer, if_neg hsingle, if_neg hlong]
  simp only [hsame, List.take_left, List.drop_left, ↓reduceIte, hother]

/-- An address in brackets -/
def bracketed (address : Bytes) : Bytes := 0x5b :: address ++ [closingBracket]

/-- The peers of which the format names the address, each with it. -/
inductive PeerNames : Bytes → Bytes → Prop where
  | ipv4 (address : IPv4Address) : PeerNames (ipv4Prefix ++ address.text) address.text
  | ipv4Port (address : IPv4Address) {port : Bytes} (hport : comma ∉ port) :
      PeerNames (ipv4Prefix ++ (address.text ++ colon :: port)) address.text
  | ipv6 {address : Bytes} (hbracket : closingBracket ∉ address) (hcomma : comma ∉ address) :
      PeerNames (ipv6Prefix ++ bracketed address) (bracketed address)
  | ipv6Port {address port : Bytes} (hbracket : closingBracket ∉ address)
      (hcomma : comma ∉ address) (hport : comma ∉ port) :
      PeerNames (ipv6Prefix ++ (bracketed address ++ colon :: port)) (bracketed address)

/-- The address of an IPv4 peer with a port ends in front of the port. -/
theorem getAddressFromGRPCPeer_ipv4Port (address : IPv4Address) {port : Bytes}
    (hport : comma ∉ port) :
    getAddressFromGRPCPeer (ipv4Prefix ++ (address.text ++ colon :: port)) =
      some (.ok address.text) := by
  have hcomma : comma ∉ address.text ++ colon :: port := by
    have hcolon : comma ≠ colon := by decide
    simp [hcolon, hport, address.noComma]
  rw [getAddressFromGRPCPeer_ipv4 hcomma, findIdx?_separator address.noColon]
  cases hlength : address.text.length with
  | zero => exact absurd (List.length_eq_zero_iff.1 hlength) address.nonempty
  | succ length =>
      change some (Except.ok ((address.text ++ colon :: port).take (length + 1))) = _
      rw [← hlength, List.take_left]

/-- What follows the closing bracket is left out. -/
theorem getAddressFromGRPCPeer_bracketed {address rest : Bytes}
    (hbracket : closingBracket ∉ address) (hcomma : comma ∉ address) (hrest : comma ∉ rest) :
    getAddressFromGRPCPeer (ipv6Prefix ++ (bracketed address ++ rest)) =
      some (.ok (bracketed address)) := by
  have hview : bracketed address ++ rest = (0x5b :: address) ++ closingBracket :: rest := by
    simp [bracketed]
  have hinner : closingBracket ∉ 0x5b :: address := by
    have hopening : closingBracket ≠ 0x5b := by decide
    simp [hopening, hbracket]
  have hsingle : comma ∉ bracketed address ++ rest := by
    have hopening : comma ≠ 0x5b := by decide
    have hclosing : comma ≠ closingBracket := by decide
    simp [bracketed, hopening, hclosing, hcomma, hrest]
  rw [getAddressFromGRPCPeer_ipv6 hsingle, hview, findIdx?_separator hinner]
  simp [bracketed, List.take_append]

/-- An address that the format names is the one that is returned. -/
theorem getAddressFromGRPCPeer_of_names {peerInfo address : Bytes}
    (hnames : PeerNames peerInfo address) :
    getAddressFromGRPCPeer peerInfo = some (.ok address) := by
  cases hnames with
  | ipv4 address =>
      rw [getAddressFromGRPCPeer_ipv4 address.noComma,
        (findIdx?_eq_none_iff_not_mem address.text).2 address.noColon]
  | ipv4Port address hport => exact getAddressFromGRPCPeer_ipv4Port address hport
  | ipv6 hbracket hcomma =>
      have hempty : comma ∉ ([] : Bytes) := by simp
      have hreturned := getAddressFromGRPCPeer_bracketed hbracket hcomma hempty
      rwa [List.append_nil] at hreturned
  | ipv6Port hbracket hcomma hport =>
      have hcolon : comma ≠ colon := by decide
      exact getAddressFromGRPCPeer_bracketed hbracket hcomma (by simp [hcolon, hport])

/-- `substr` throws on the short strings that the search for a comma lets through. -/
theorem getAddressFromGRPCPeer_eq_none_iff (peerInfo : Bytes) :
    getAddressFromGRPCPeer peerInfo = none ↔
      peerInfo.length < ipv4Prefix.length ∧ comma ∉ peerInfo := by
  by_cases hcomma : comma ∈ peerInfo
  · simp [getAddressFromGRPCPeer, hcomma]
  · by_cases hshort : peerInfo.length < ipv4Prefix.length
    · simp [getAddressFromGRPCPeer, hcomma, hshort]
    · rw [getAddressFromGRPCPeer, if_neg (by simp [hcomma]), if_neg hshort]
      simp only [hshort, false_and, iff_false]
      split_ifs
      · split <;> exact Option.some_ne_none _
      · split <;> exact Option.some_ne_none _
      · exact not_false

/-- A value or an error is returned exactly for the strings that reach behind the prefix or have
a comma; where the format names an address, the value is that address. -/
theorem getAddressFromGRPCPeer_answers_iff (peerInfo : Bytes) :
    ((∃ answer, getAddressFromGRPCPeer peerInfo = some answer) ∧
      ∀ address, PeerNames peerInfo address →
        getAddressFromGRPCPeer peerInfo = some (.ok address)) ↔
      5 ≤ peerInfo.length ∨ comma ∈ peerInfo := by
  have hthrows := getAddressFromGRPCPeer_eq_none_iff peerInfo
  have hfive : ipv4Prefix.length = 5 := by decide
  rw [hfive] at hthrows
  constructor
  · rintro ⟨⟨answer, hanswer⟩, -⟩
    by_contra hnot
    rw [not_or, not_le] at hnot
    exact Option.some_ne_none _ (hanswer.symm.trans (hthrows.2 hnot))
  · intro hcond
    refine ⟨Option.ne_none_iff_exists'.1 fun hnone => ?_, fun address hnames =>
      getAddressFromGRPCPeer_of_names hnames⟩
    obtain ⟨hshort, hcomma⟩ := hthrows.1 hnone
    rcases hcond with hlong | hmem
    · exact absurd hlong (not_le.2 hshort)
    · exact hcomma hmem

/-- Of "ipv4" nothing is left to take a substring of. -/
theorem getAddressFromGRPCPeer_throws :
    ¬ ∀ peerInfo, ∃ answer, getAddressFromGRPCPeer peerInfo = some answer := by
  intro hall
  obtain ⟨answer, hanswer⟩ := hall (text "ipv4")
  have hnone : getAddressFromGRPCPeer (text "ipv4") = none := by rfl
  exact Option.some_ne_none _ (hanswer.symm.trans hnone)

/-- The host of a well-formed peer is taken out of it. -/
theorem getAddressFromGRPCPeer_info (peer : Peer) :
    getAddressFromGRPCPeer peer.info = some (.ok peer.host) := by
  cases peer with
  | ipv4 address port =>
      exact getAddressFromGRPCPeer_ipv4Port address (not_mem_portText (by decide) port)
  | ipv6 address port =>
      have hcolon : comma ≠ colon := by decide
      have hdigits : comma ∉ portText port := not_mem_portText (by decide) port
      have hport : comma ∉ colon :: portText port := by simp [hcolon, hdigits]
      have hinfo : (Peer.ipv6 address port).info =
          ipv6Prefix ++ (bracketed address.text ++ colon :: portText port) := by
        simp [Peer.info, bracketed]
      rw [hinfo]
      exact getAddressFromGRPCPeer_bracketed address.noBracket address.noComma hport

/-- A location is decoded to the part before its first colon. -/
theorem decodedHost_of_split {left : Bytes} (hleft : colon ∉ left) (right : Bytes) :
    decodedHost (text "geds://" ++ (left ++ colon :: right)) = .ok left := by
  have hfind := findIdx?_separator hleft right
  rw [colon] at hfind
  simp [decodedHost, remoteHostname, TcpTransport.TransferService.nodeLocation, colon, hfind]

/-- An announced host is decoded to itself exactly if it has no colon. -/
theorem decodedHost_computeHostUri_iff (hostname : Bytes) (port : UInt16) :
    decodedHost (computeHostUri hostname port) = .ok hostname ↔ colon ∉ hostname := by
  have hcolon : text ":" = [colon] := by decide
  have huri : ∀ right, text "geds://" ++ hostname ++ text ":" ++ right =
      text "geds://" ++ (hostname ++ colon :: right) := by
    simp [hcolon]
  rw [computeHostUri, huri]
  constructor
  · intro hdecoded hmem
    obtain ⟨left, right, rfl, hleft⟩ := List.eq_append_cons_of_mem hmem
    rw [List.append_assoc, List.cons_append, decodedHost_of_split hleft, Except.ok.injEq] at hdecoded
    have hlength := congrArg List.length hdecoded
    simp at hlength
  · intro hmem
    exact decodedHost_of_split hmem _

/-- The host of an IPv4 peer comes back; of an IPv6 address only the part before the first
colon does. -/
theorem announced_host_iff (peer : Peer) (port : UInt16) :
    ∃ host, getAddressFromGRPCPeer peer.info = some (.ok host) ∧
      (decodedHost (computeHostUri host port) = .ok host ↔ peer.isIPv4 = true) := by
  refine ⟨peer.host, getAddressFromGRPCPeer_info peer, ?_⟩
  rw [decodedHost_computeHostUri_iff]
  cases peer with
  | ipv4 address _ => simp [Peer.host, Peer.isIPv4, address.noColon]
  | ipv6 address _ => simp [Peer.host, Peer.isIPv4, address.grouped]

/-- The host "[::1]" is decoded to "[". -/
theorem decodedHost_loopback :
    getAddressFromGRPCPeer (text "ipv6:[::1]:443") = some (.ok (text "[::1]")) ∧
      decodedHost (computeHostUri (text "[::1]") 4381) = .ok (text "[") ∧
      ¬ decodedHost (computeHostUri (text "[::1]") 4381) = .ok (text "[::1]") := by
  have haddress : getAddressFromGRPCPeer (text "ipv6:[::1]:443") = some (.ok (text "[::1]")) := by
    rfl
  have hhost : decodedHost (computeHostUri (text "[::1]") 4381) = .ok (text "[") := by
    rfl
  refine ⟨haddress, hhost, ?_⟩
  rw [hhost, Except.ok.injEq]
  decide

end GEDS
