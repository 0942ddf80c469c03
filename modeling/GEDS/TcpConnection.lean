/-
How `TcpConnection` sends a range of a local file: from mapped memory, with
`sendfile`, or through a buffer.  The bytes of the response stay where they are
until they are sent, and there is memory for the buffer.
-/
import GEDS.FileTransfer
import GEDS.FileHandleDownload

namespace GEDS

open Status

namespace TcpConnection

open LocalFile TcpTransport

/-- A local file that is sent: an `MMAPFile` with its mapping, whose last page may go on
behind the bytes of the file, or a `LocalFile`, for which `fsync` succeeds or not. -/
inductive ServedFile where
  | mapped (content : Bytes) (behind : Bytes)
  | descriptor (file : LocalFile) (files : FileSystem Bytes) (synced : Bool)

namespace ServedFile

/-- `GEDSFile::size` -/
def size : ServedFile → UInt64
  | mapped content _ => UInt64.ofNat content.length
  | descriptor file _ _ => file.size

/-- The memory that `GEDSFile::rawPtr` points to. -/
def rawPtr : ServedFile → Option Bytes
  | mapped content behind => some (content ++ behind)
  | descriptor _ _ _ => none

/-- What the descriptor of `GEDSFile::rawFd` refers to; nobody asks for the one of a mapping. -/
def rawFd : ServedFile → Option (LocalFile × FileSystem Bytes)
  | mapped _ _ => none
  | descriptor file files synced => if synced then some (file, files) else none

/-- `MMAPFile::readBytes` of a file that is mapped. -/
def readMapped (content : Bytes) (position length : UInt64) : Except Status Bytes :=
  if int64Max < length then
    .error (failedPreconditionError (text "Lengths > " ++ text (toString int64Max.toNat) ++
      text " are not supported!"))
  else if int64Max ≤ position then
    .error (failedPreconditionError (text "Stream positions > " ++
      text (toString int64Max.toNat) ++ text " are not supported!"))
  else .ok (slice content position.toNat length.toNat)

/-- `GEDSFile::read`, with the answers of the kernel. -/
def read (position length : UInt64) (answers : List Transfer) : ServedFile → Except Status Bytes
  | mapped content _ => readMapped content position length
  | descriptor file files _ => Posix.readBytes file files position length answers

/-- The file has these bytes. -/
def Holds (content : Bytes) : ServedFile → Prop
  | mapped bytes _ => bytes = content ∧ content.length < 2 ^ 64
  | descriptor file files _ => Posix.InStep file files ∧ files.content file.inode = content

end ServedFile

/-- How a call of `sendfile64` on a socket that was writable ends. -/
inductive SendfileAnswer where
  | interrupted
  | wouldBlock
  | failed
  | moved (count : Nat)
deriving DecidableEq

/-- What the connection does after a response. -/
inductive Afterwards where
  | awaitRequest
  | dropped
  /-- `sendfile64` finds nothing more, and is called again and again. -/
  | stuck
deriving DecidableEq

/-- `TcpConnection::handleWriteSendfile`: what is sent, and how it goes on.  When no more
answers are given, a call moves all that it is asked for. -/
def handleWriteSendfile (file : LocalFile) (files : FileSystem Bytes)
    (answers : List SendfileAnswer) (offset count : UInt64) : Bytes × Afterwards :=
  if count = 0 then ([], .awaitRequest)
  else
    match answers with
    | [] =>
        let moved := files.pread file.inode offset.toNat count.toNat
        (moved, if moved.length = count.toNat then .awaitRequest else .stuck)
    | .interrupted :: rest => handleWriteSendfile file files rest offset count
    | .wouldBlock :: rest => handleWriteSendfile file files rest offset count
    | .failed :: _ => ([], .dropped)
    | .moved ready :: rest =>
        let moved := files.pread file.inode offset.toNat (min count.toNat (max 1 ready))
        let sent := UInt64.ofNat moved.length
        let later := handleWriteSendfile file files rest (offset + sent) (count - sent)
        (moved ++ later.1, later.2)

/-- A response with its payload. -/
structure Sent where
  response : TcpTransport.Response
  payload : Bytes
  afterwards : Afterwards
deriving DecidableEq

/-- `TcpConnection::handleWrite` for a file that could be opened; an error goes to
`handleError`. -/
def handleWrite (file : ServedFile) (offset length : UInt64) (reads : List Transfer)
    (sends : List SendfileAnswer) : Except Status Sent :=
  match file.rawPtr with
  | some memory =>
      let length := sentLength file.size offset length
      .ok ⟨⟨0, length⟩, slice memory offset.toNat length.toNat, .awaitRequest⟩
  | none =>
      match file.rawFd, decide (8192 < length) with
      | some (opened, files), true =>
          let length := sentLength file.size offset length
          let sent := handleWriteSendfile opened files sends offset length
          .ok ⟨⟨0, length⟩, sent.1, sent.2⟩
      | _, _ =>
          match file.read offset length reads with
          | .error status => .error status
          | .ok bytes => .ok ⟨⟨0, UInt64.ofNat bytes.length⟩, bytes, .awaitRequest⟩

section Sendfile

variable {file : LocalFile} {files : FileSystem Bytes}

/-- Whatever parts are sent at a time, together they are the range. -/
theorem handleWriteSendfile_eq (hbounded : (files.content file.inode).length < 2 ^ 63)
    {answers : List SendfileAnswer} (hanswers : .failed ∉ answers) {offset count : UInt64}
    (hinside : count.toNat ≤ (files.content file.inode).length - offset.toNat) :
    handleWriteSendfile file files answers offset count =
      (files.pread file.inode offset.toNat count.toNat, .awaitRequest) := by
  have hnothing : ∀ {offset : UInt64}, files.pread file.inode offset.toNat
      (0 : UInt64).toNat = [] := by
    intro offset
    rw [← List.length_eq_zero_iff, FileSystem.length_pread]
    exact Nat.zero_min _
  induction answers generalizing offset count with
  | nil =>
      unfold handleWriteSendfile
      split_ifs with hzero
      · rw [hzero, hnothing]
      · have hall : (files.pread file.inode offset.toNat count.toNat).length = count.toNat := by
          rw [FileSystem.length_pread]
          omega
        simp only [hall, ↓reduceIte]
  | cons answer rest ih =>
      have hrest : .failed ∉ rest := fun hmem => hanswers (List.mem_cons_of_mem _ hmem)
      unfold handleWriteSendfile
      split_ifs with hzero
      · rw [hzero, hnothing]
      · cases answer with
        | interrupted => exact ih hrest hinside
        | wouldBlock => exact ih hrest hinside
        | failed => exact absurd List.mem_cons_self hanswers
        | moved ready =>
            have hmoved := @FileSystem.length_pread _ _ files file.inode offset.toNat
              (min count.toNat (max 1 ready))
            generalize hpart : files.pread file.inode offset.toNat
              (min count.toNat (max 1 ready)) = part at hmoved ⊢
            have hsent : (UInt64.ofNat part.length).toNat = part.length := by
              rw [UInt64.toNat_ofNat']
              omega
            have hplace : (offset + UInt64.ofNat part.length).toNat =
                offset.toNat + part.length := by
              have hlt := offset.toNat_lt
              exact toNat_add_ofNat (by omega)
            have hleft : (count - UInt64.ofNat part.length).toNat =
                count.toNat - part.length := by
              rw [UInt64.toNat_sub_of_le _ _ (UInt64.le_iff_toNat_le.2 (by omega)), hsent]
            have hlater := @ih hrest (offset + UInt64.ofNat part.length)
              (count - UInt64.ofNat part.length) (by omega)
            rw [hplace, hleft] at hlater
            have hwhole := @FileSystem.pread_append _ _ files file.inode offset.toNat part.length
              (count.toNat - part.length)
            rw [Nat.add_sub_cancel' (by omega), ← FileSystem.pread_of_length
              (congrArg List.length hpart), hpart] at hwhole
            simp only [hpart, hlater, hwhole]

end Sendfile

section Paths

variable {offset length : UInt64} {reads : List Transfer} {sends : List SendfileAnswer}

/-- The range that a request for it can get. -/
theorem toNat_sentLength {size : UInt64} :
    (sentLength size offset length).toNat = min length.toNat (size.toNat - offset.toNat) := by
  rw [sentLength]
  split_ifs with hbehind
  · rw [UInt64.lt_iff_toNat_lt] at hbehind
    rw [UInt64.toNat_zero]
    omega
  · rw [UInt64.toNat_min, UInt64.toNat_sub_of_le _ _ (UInt64.not_lt.1 hbehind)]
    exact Nat.min_comm _ _

/-- The response that every path should send for these bytes. -/
def Delivers (content : Bytes) (offset length : UInt64) (sent : Sent) : Prop :=
  ∃ n : UInt64, n.toNat = min length.toNat (content.length - offset.toNat) ∧
    sent = ⟨⟨0, n⟩, slice content offset.toNat n.toNat, .awaitRequest⟩

theorem handleWrite_mapped {content : Bytes} (hfits : content.length < 2 ^ 64) (behind : Bytes) :
    ∃ sent, handleWrite (.mapped content behind) offset length reads sends = .ok sent ∧
      Delivers content offset length sent := by
  have hsize : (UInt64.ofNat content.length).toNat = content.length := Nat.mod_eq_of_lt hfits
  have hn := @toNat_sentLength offset length (UInt64.ofNat content.length)
  rw [hsize] at hn
  refine ⟨_, rfl, _, hn, ?_⟩
  -- what is behind the bytes of the file is never sent
  have hinside := @slice_append_left content offset.toNat
    (sentLength (UInt64.ofNat content.length) offset length).toNat (by omega) behind
  rw [← hinside]
  rfl

variable {file : LocalFile} {files : FileSystem Bytes}

theorem handleWrite_sendfile (hstep : Posix.InStep file files) (hlong : 8192 < length)
    (hsends : .failed ∉ sends) :
    ∃ sent, handleWrite (.descriptor file files true) offset length reads sends = .ok sent ∧
      Delivers (files.content file.inode) offset length sent := by
  have hn := @toNat_sentLength offset length file.size
  rw [hstep.size_eq] at hn
  have hinside : (sentLength file.size offset length).toNat ≤
      (files.content file.inode).length - offset.toNat := by omega
  have hsent := handleWriteSendfile_eq hstep.bounded hsends hinside
  refine ⟨_, ?_, _, hn, rfl⟩
  simp only [handleWrite, ServedFile.rawPtr, ServedFile.rawFd, ServedFile.size, hlong,
    decide_true, ↓reduceIte, hsent]
  rfl

theorem handleWrite_buffered (hstep : Posix.InStep file files) (hoffset : offset < int64Max)
    {synced : Bool} (hpath : synced = true → ¬ 8192 < length)
    (hreads : ∀ reason, .failed reason ∉ reads) :
    ∃ sent, handleWrite (.descriptor file files synced) offset length reads sends = .ok sent ∧
      Delivers (files.content file.inode) offset length sent := by
  have hread : Posix.readBytes file files offset length reads =
      .ok (slice (files.content file.inode) offset.toNat length.toNat) := by
    rcases Posix.readBytes_refines file hstep.bounded offset length reads with
      hread | ⟨reason, hmem, -⟩
    · rw [hread, Posix.readBytes_of_inStep hstep hoffset length]
      rfl
    · exact absurd hmem (hreads reason)
  have hn : (UInt64.ofNat (slice (files.content file.inode) offset.toNat
      length.toNat).length).toNat =
        min length.toNat ((files.content file.inode).length - offset.toNat) := by
    have hlt := length.toNat_lt
    rw [length_slice, UInt64.toNat_ofNat']
    omega
  refine ⟨_, ?_, _, hn, rfl⟩
  rw [hn, slice_min_length]
  cases synced with
  | false =>
      simp only [handleWrite, ServedFile.rawPtr, ServedFile.rawFd, ServedFile.read,
        Bool.false_eq_true, ↓reduceIte, hread]
  | true =>
      simp only [handleWrite, ServedFile.rawPtr, ServedFile.rawFd, ServedFile.read,
        hpath rfl, decide_false, ↓reduceIte, hread]

end Paths

/-- Below the highest position, and if no call fails, all three paths send the range, as
far as the file goes, and never more than was asked for. -/
theorem handleWrite_delivers {file : ServedFile} {content : Bytes}
    (hholds : file.Holds content) {offset : UInt64} (hoffset : offset < int64Max)
    (length : UInt64) {reads : List Transfer} (hreads : ∀ reason, .failed reason ∉ reads)
    {sends : List SendfileAnswer} (hsends : .failed ∉ sends) :
    ∃ n : UInt64, handleWrite file offset length reads sends =
        .ok ⟨⟨0, n⟩, slice content offset.toNat n.toNat, .awaitRequest⟩ ∧
      n.toNat = (if content.length < offset.toNat then 0
        else min length.toNat (content.length - offset.toNat)) ∧
      (slice content offset.toNat n.toNat).length = n.toNat ∧ n ≤ length := by
  have hpath : ∃ sent, handleWrite file offset length reads sends = .ok sent ∧
      Delivers content offset length sent := by
    cases file with
    | mapped bytes behind =>
        obtain ⟨rfl, hfits⟩ := hholds
        exact handleWrite_mapped hfits behind
    | descriptor opened files synced =>
        obtain ⟨hstep, rfl⟩ := hholds
        by_cases hsendfile : synced = true ∧ 8192 < length
        · obtain ⟨rfl, hlong⟩ := hsendfile
          exact handleWrite_sendfile hstep hlong hsends
        · exact handleWrite_buffered hstep hoffset
            (fun hsynced hlong => hsendfile ⟨hsynced, hlong⟩) hreads
  obtain ⟨sent, hsent, n, hn, rfl⟩ := hpath
  refine ⟨n, hsent, ?_, ?_, ?_⟩
  · split_ifs <;> omega
  · rw [length_slice]
    omega
  · rw [UInt64.le_iff_toNat_le]
    omega

namespace Sample

/-- A file of three bytes. -/
def letters : FileSystem Bytes := FileSystem.empty.setContent 0 (text "abc")

theorem letters_holds :
    ServedFile.Holds (text "abc") (.descriptor ⟨text "/tmp/0", 0, 3⟩ letters true) :=
  ⟨⟨rfl, by decide⟩, rfl⟩

theorem letters_sent :
    ∃ n : UInt64, handleWrite (.descriptor ⟨text "/tmp/0", 0, 3⟩ letters true) 1 9000 []
        [.moved 1, .wouldBlock, .interrupted] =
          .ok ⟨⟨0, n⟩, slice (text "abc") 1 n.toNat, .awaitRequest⟩ ∧ n.toNat = 2 := by
  obtain ⟨n, hsent, hn, -, -⟩ := handleWrite_delivers letters_holds
    (by decide : (1 : UInt64) < int64Max) 9000
    (by simp : ∀ reason, Transfer.failed reason ∉ ([] : List Transfer))
    (by simp : SendfileAnswer.failed ∉ [.moved 1, .wouldBlock, .interrupted])
  exact ⟨n, hsent, hn⟩

end Sample

end TcpConnection

end GEDS
