/-
Cache blocks on one node, and what failures leave behind.  `openBlock` registers
the file of a block before the block is downloaded, and whoever finds it in the
registry takes it for the whole block.
-/
import GEDS.NodeBlocks

namespace GEDS

open Status

/-- How far a call of `openBlock` has come with its download; `stream` is what is left
of the bytes from the object store, and `n` bytes were written. -/
inductive BlockPhase where
  | created
  | writing (stream : Bytes) (length n : UInt64)
  | written

/-- A call of `openBlock` that made the file of a block. -/
structure BlockCall where
  object : ObjectID
  idx : UInt64
  handle : Nat
  phase : BlockPhase

/-- A node, and the calls of `openBlock` with a download under way, by their threads. -/
structure BlockCache where
  node : Node
  calls : AssocMap Nat BlockCall

/-- What may happen, with the faults of the object store and of the file system. -/
inductive BlockEvent where
  | call (event : NodeEvent)
  | create (thread : Nat) (object : ObjectID) (idx : UInt64) (answers : CreateAnswers)
  | fetch (thread : Nat) (fault : Option FailedStatus)
  | writeChunk (thread : Nat) (fault : Option WriteFault)
  | finish (thread : Nat) (sealStatus : Status)

namespace BlockCache

def new (pathPrefix : Bytes) : BlockCache := ⟨Node.new pathPrefix, AssocMap.empty⟩

variable (config : CacheConfig) (store : ObjectID → StoredObject) (cache : BlockCache)

section Steps

variable (thread : Nat)

/-- `createAsFileHandle` in `openBlock`, after no block was found. -/
def create (object : ObjectID) (idx : UInt64) (answers : CreateAnswers) : BlockCache :=
  if (cache.calls.find thread).isSome ∨ ¬ HasBlock config (store object).size idx then cache
  else
    let created := cache.node.createAsFileHandle object.bucket (cacheKey object.key idx) false
      answers
    match created.1 with
    | .error _ => { cache with node := created.2 }
    | .ok id => ⟨created.2, cache.calls.insert thread ⟨object, idx, id, .created⟩⟩

/-- `GEDSS3FileHandle::downloadRange` up to the call of `write`.  The pointer to the
handle goes away with a call that fails, and the registry keeps the handle. -/
def fetch (fault : Option FailedStatus) : BlockCache :=
  match cache.calls.find thread with
  | some ⟨object, idx, id, .created⟩ =>
      match (store object).read (config.cacheBlockSize * idx) config.cacheBlockSize fault with
      | .error _ => ⟨cache.node.dropReference id, cache.calls.erase thread⟩
      | .ok stream =>
          { cache with
            calls := cache.calls.insert thread
              ⟨object, idx, id, .writing stream (UInt64.ofNat stream.length) 0⟩ }
  | _ => cache

/-- One round of `LocalFile::write`.  `GEDSAbstractFileHandle::write` does not report
an error of it. -/
def writeChunk (fault : Option WriteFault) : BlockCache :=
  match cache.calls.find thread with
  | some ⟨object, idx, id, .writing stream length n⟩ =>
      let maxRead := min (min 4096 (length - n)) int64Max
      let buffer := stream.take maxRead.toNat
      let status := cache.node.writeBytes id buffer n fault
      let phase :=
        if status.1.ok = false ∨ buffer = [] then .written
        else .writing (stream.drop buffer.length) length (n + UInt64.ofNat buffer.length)
      ⟨status.2, cache.calls.insert thread ⟨object, idx, id, phase⟩⟩
  | _ => cache

/-- The end of `openBlock`: the handle keeps an open file.  `open` on a handle does not
fail, and a failure of `seal` is logged. -/
def finish (_sealStatus : Status) : BlockCache :=
  match cache.calls.find thread with
  | some ⟨_, _, id, .written⟩ =>
      ⟨(cache.node.openFile id).dropReference id, cache.calls.erase thread⟩
  | _ => cache

end Steps

def perform : BlockEvent → BlockCache
  | .call event => { cache with node := cache.node.perform event }
  | .create thread object idx answers => cache.create config store thread object idx answers
  | .fetch thread fault => cache.fetch config store thread fault
  | .writeChunk thread fault => cache.writeChunk thread fault
  | .finish thread sealStatus => cache.finish thread sealStatus

def run (events : List BlockEvent) : BlockCache := events.foldl (perform config store) cache

/-- Some call is at work on the file of the handle. -/
def InProgress (id : Nat) : Prop :=
  ∃ thread call, cache.calls.find thread = some call ∧ call.handle = id

/-- The handle that the registry has for a block. -/
def blockHandle (object : ObjectID) (idx : UInt64) : Option Nat :=
  cache.node.fileHandles.get (getPath object.bucket (cacheKey object.key idx))

/-- `GEDSCachedFileHandle::readBytes` for a handle that has no blocks yet, when it finds
them in the registry. -/
def readBytes (object : ObjectID) (position length : UInt64) : Except Status Bytes :=
  let readBlock := fun idx offset count (_ : Unit) =>
    match cache.blockHandle object idx with
    | none => (.error (notFoundError (cacheKey object.key idx)), ())
    | some id => (cache.node.readBytes id offset count, ())
  (CachedFileHandle.readBytes config readBlock (store object).size position length ()).1

/-- Every block that is registered, and not being downloaded, is complete, and reads
from such blocks give what the object has. -/
structure Intact : Prop where
  blocks : ∀ {object idx id file}, slash ∉ object.bucket →
    cache.blockHandle object idx = some id → cache.node.localFile id = some file →
    ¬ cache.InProgress id → file.Holds cache.node.files ((store object).block config idx)
  reads : ∀ {object position length bytes}, slash ∉ object.bucket →
    (∀ idx id, cache.blockHandle object idx = some id → ¬ cache.InProgress id) →
    cache.readBytes config store object position length = .ok bytes →
    bytes = slice (store object).content position.toNat length.toNat

/-- The object store and the file system serve the download, nobody else writes to
blocks, and no creation truncates the file of a live handle. -/
def Undisturbed : BlockEvent → Prop
  | .call event => ¬ cache.node.MeddlesWithBlocks event ∧ ¬ cache.node.TruncatesLive event
  | .create _ object idx answers =>
      cache.node.TouchesFile object.bucket (cacheKey object.key idx) answers →
        ¬ cache.node.PathTaken object.bucket (cacheKey object.key idx)
  | .fetch _ fault => fault = none
  | .writeChunk _ fault => fault = none
  | .finish _ _ => True

def NeverDisturbed : List BlockEvent → BlockCache → Prop
  | [], _ => True
  | event :: rest, cache =>
      cache.Undisturbed event ∧ NeverDisturbed rest (cache.perform config store event)

section Invariant

variable {config store cache}

/-- How much of its block a call has put into the file. -/
def Progress (config : CacheConfig) (store : ObjectID → StoredObject) (call : BlockCall)
    (files : FileSystem Bytes) (file : LocalFile) : Prop :=
  match call.phase with
  | .created => file.Holds files []
  | .writing stream length n =>
      ∃ done, (store call.object).block config call.idx = done ++ stream ∧
        length = UInt64.ofNat (done ++ stream).length ∧ n = UInt64.ofNat done.length ∧
        file.Holds files done
  | .written => file.Holds files ((store call.object).block config call.idx)

/-- The call knows the handle that it made; if the handle lives, it is that of the
block. -/
structure Tracks (config : CacheConfig) (store : ObjectID → StoredObject) (call : BlockCall)
    (node : Node) : Prop where
  given : call.handle < node.nextHandle
  hasBlock : HasBlock config (store call.object).size call.idx
  names : ∀ {handle}, node.handles.find call.handle = some handle →
    handle.bucket = call.object.bucket ∧ handle.key = cacheKey call.object.key call.idx
  progress : ∀ {file}, node.localFile call.handle = some file →
    Progress config store call node.files file

/-- The file has all bytes of the block whose name the handle has. -/
def Complete (config : CacheConfig) (store : ObjectID → StoredObject) (node : Node)
    (handle : FileHandle) (file : LocalFile) : Prop :=
  ∃ key idx, handle.key = cacheKey key idx ∧
    file.Holds node.files ((store ⟨handle.bucket, key⟩).block config idx)

structure Invariant (config : CacheConfig) (store : ObjectID → StoredObject)
    (cache : BlockCache) : Prop where
  owned : cache.node.Owned
  wellNamed : cache.node.WellNamed
  tracks : ∀ {thread call}, cache.calls.find thread = some call →
    Tracks config store call cache.node
  apart : ∀ {thread thread' call call'}, cache.calls.find thread = some call →
    cache.calls.find thread' = some call' → call.handle = call'.handle → thread = thread'
  blocks : ∀ {id handle file}, cache.node.handles.find id = some handle →
    handle.file = some file → cacheBlockMarker <+: handle.key →
    cache.InProgress id ∨ Complete config store cache.node handle file

theorem new_invariant (pathPrefix : Bytes) : Invariant config store (new pathPrefix) where
  owned := Node.new_owned pathPrefix
  wellNamed := Node.new_wellNamed pathPrefix
  tracks hfind := by simp [new] at hfind
  apart hfind := by simp [new] at hfind
  blocks hfind := by simp [new, Node.new] at hfind

theorem Progress.congr {call : BlockCall} {files files' : FileSystem Bytes} {file : LocalFile}
    (hprogress : Progress config store call files file)
    (hcontent : files'.content file.inode = files.content file.inode) :
    Progress config store call files' file := by
  obtain ⟨object, idx, id, phase⟩ := call
  cases phase <;> simpa only [Progress, LocalFile.Holds, hcontent] using hprogress

theorem Tracks.names_kept {call : BlockCall} {node node' : Node} {changed : Option Nat}
    (h : Tracks config store call node) (hkept : Node.BlocksKept changed node node')
    {handle' : FileHandle} (hfind : node'.handles.find call.handle = some handle') :
    handle'.bucket = call.object.bucket ∧ handle'.key = cacheKey call.object.key call.idx := by
  rcases hkept.handles hfind with ⟨handle, hhandle, hbucket, hkey, -⟩ | ⟨hfresh, -⟩
  · rw [← hbucket, ← hkey]
    exact h.names hhandle
  · exact absurd h.given (Nat.not_lt.2 hfresh)

theorem Tracks.kept {call : BlockCall} {node node' : Node} {changed : Option Nat}
    (h : Tracks config store call node) (hkept : Node.BlocksKept changed node node')
    (hne : changed ≠ some call.handle) : Tracks config store call node' where
  given := h.given.trans_le hkept.next
  hasBlock := h.hasBlock
  names := h.names_kept hkept
  progress := by
    intro file hfile
    obtain ⟨handle', hfind, hsome⟩ := Option.bind_eq_some_iff.1 hfile
    rcases hkept.handles hfind with ⟨handle, hhandle, hbucket, hkey, hsame⟩ | ⟨hfresh, -⟩
    · have hblock : cacheBlockMarker <+: handle'.key := by
        rw [← hkey, (h.names hhandle).2]
        exact marker_prefix_cacheKey
      obtain ⟨hold, hcontent⟩ := hsame hne hblock file hsome
      exact (h.progress (Option.bind_eq_some_iff.2 ⟨handle, hhandle, hold⟩)).congr hcontent
    · exact absurd h.given (Nat.not_lt.2 hfresh)

/-- One step changes the bytes of one block at most; what was under way goes on, ends
with a complete block, or is as far as the step says. -/
theorem Invariant.step (h : Invariant config store cache) {changed : Option Nat} {node' : Node}
    {calls' : AssocMap Nat BlockCall} (hkept : Node.BlocksKept changed cache.node node')
    (howned : node'.Owned)
    (htracks : ∀ {thread call}, calls'.find thread = some call →
      (cache.calls.find thread = some call ∧ changed ≠ some call.handle) ∨
        Tracks config store call node')
    (hapart : ∀ {thread thread' call call'}, calls'.find thread = some call →
      calls'.find thread' = some call' → call.handle = call'.handle → thread = thread')
    (hblocks : ∀ {id handle file}, node'.handles.find id = some handle →
      handle.file = some file → changed = some id ∨ cache.InProgress id →
      InProgress ⟨node', calls'⟩ id ∨ Complete config store node' handle file) :
    Invariant config store ⟨node', calls'⟩ where
  owned := howned
  wellNamed := hkept.wellNamed h.wellNamed
  tracks := by
    intro thread call hcall
    rcases htracks hcall with ⟨hold, hne⟩ | hnew
    · exact (h.tracks hold).kept hkept hne
    · exact hnew
  apart := hapart
  blocks := by
    intro id handle' file hfind hsome hblock
    by_cases hchanged : changed = some id
    · exact hblocks hfind hsome (Or.inl hchanged)
    · rcases hkept.handles hfind with ⟨handle, hhandle, hbucket, hkey, hsame⟩ |
        ⟨-, -, hnone⟩
      · obtain ⟨hold, hcontent⟩ := hsame hchanged hblock file hsome
        rcases h.blocks hhandle hold (hkey ▸ hblock) with hprogress | ⟨key, idx, hname, hholds⟩
        · exact hblocks hfind hsome (Or.inr hprogress)
        · refine Or.inr ⟨key, idx, hkey ▸ hname, ?_⟩
          rw [← hbucket]
          exact ⟨hholds.1, hcontent.trans hholds.2⟩
      · rw [hnone hchanged hblock] at hsome
        cases hsome

/-- The calls go on undisturbed. -/
theorem Invariant.setNode (h : Invariant config store cache) {changed : Option Nat}
    {node' : Node} (hkept : Node.BlocksKept changed cache.node node') (howned : node'.Owned)
    (hnobody : ∀ {id}, changed = some id →
      node'.handles.find id = none ∧ ¬ cache.InProgress id) :
    Invariant config store { cache with node := node' } := by
  refine h.step hkept howned ?_ h.apart ?_
  · intro thread call hcall
    exact Or.inl ⟨hcall, fun hchanged => (hnobody hchanged).2 ⟨thread, call, hcall, rfl⟩⟩
  · intro id handle file hfind hsome hwhich
    rcases hwhich with hchanged | hprogress
    · rw [(hnobody hchanged).1] at hfind
      cases hfind
    · exact Or.inl hprogress

theorem Invariant.call (h : Invariant config store cache) {event : NodeEvent}
    (hforeign : ¬ cache.node.MeddlesWithBlocks event)
    (hlive : ¬ cache.node.TruncatesLive event) :
    Invariant config store { cache with node := cache.node.perform event } := by
  have hkept : Node.BlocksKept none cache.node (cache.node.perform event) :=
    h.owned.blocksKept_perform h.wellNamed hforeign hlive
  refine h.setNode hkept (h.owned.perform fun hshares => hlive hshares.truncatesLive) ?_
  intro id hchanged
  exact absurd hchanged (Option.some_ne_none id).symm

/-- A handle that is not made yet is not that of a call. -/
theorem Invariant.not_inProgress_next (h : Invariant config store cache) :
    ¬ cache.InProgress cache.node.nextHandle := by
  rintro ⟨thread, call, hcall, hhandle⟩
  exact absurd (h.tracks hcall).given (by rw [hhandle]; exact lt_irrefl _)

/-- The call of a thread makes a step; the bytes of no other block change. -/
theorem Invariant.setCall (h : Invariant config store cache) {changed : Option Nat}
    {node' : Node} {thread : Nat} {call call' : BlockCall}
    (hcall : cache.calls.find thread = some call) (hsame : call'.handle = call.handle)
    (hkept : Node.BlocksKept changed cache.node node') (howned : node'.Owned)
    (hchanged : ∀ {id}, changed = some id → id = call.handle)
    (htracks : Tracks config store call' node') :
    Invariant config store ⟨node', cache.calls.insert thread call'⟩ := by
  refine h.step hkept howned ?_ ?_ ?_
  · intro other after hafter
    rcases AssocMap.find_insert_eq_some hafter with ⟨-, rfl⟩ | ⟨hother, hold⟩
    · exact Or.inr htracks
    · exact Or.inl ⟨hold, fun hid => hother (h.apart hold hcall (hchanged hid))⟩
  · -- the handles of the calls are what they were
    have hbefore : ∀ {other after}, (cache.calls.insert thread call').find other = some after →
        ∃ before, cache.calls.find other = some before ∧ before.handle = after.handle := by
      intro other after hafter
      rcases AssocMap.find_insert_eq_some hafter with ⟨rfl, rfl⟩ | ⟨-, hold⟩
      · exact ⟨call, hcall, hsame.symm⟩
      · exact ⟨after, hold, rfl⟩
    intro first second after after' hafter hafter' heq
    obtain ⟨before, hfirst, hhandle⟩ := hbefore hafter
    obtain ⟨before', hsecond, hhandle'⟩ := hbefore hafter'
    exact h.apart hfirst hsecond (hhandle.trans (heq.trans hhandle'.symm))
  · intro id handle file hfind hsome hwhich
    left
    by_cases hid : id = call.handle
    · exact ⟨thread, call', AssocMap.find_insert_self _ _ _, hsame.trans hid.symm⟩
    · rcases hwhich with hself | ⟨other, after, hafter, hhandle⟩
      · exact absurd (hchanged hself) hid
      · have hother : other ≠ thread := by
          rintro rfl
          obtain rfl := Option.some.inj (hafter.symm.trans hcall)
          exact hid hhandle.symm
        exact ⟨other, after, (AssocMap.find_insert_of_ne _ hother _).trans hafter, hhandle⟩

/-- A thread that has no call under way begins one on a new handle. -/
theorem Invariant.beginCall (h : Invariant config store cache) {node' : Node} {thread : Nat}
    {call : BlockCall} (hidle : cache.calls.find thread = none)
    (hnew : call.handle = cache.node.nextHandle)
    (hkept : Node.BlocksKept (some cache.node.nextHandle) cache.node node')
    (howned : node'.Owned) (htracks : Tracks config store call node') :
    Invariant config store ⟨node', cache.calls.insert thread call⟩ := by
  have hlater : ∀ {other before}, cache.calls.find other = some before →
      before.handle ≠ call.handle :=
    fun hbefore heq => h.not_inProgress_next ⟨_, _, hbefore, heq.trans hnew⟩
  refine h.step hkept howned ?_ ?_ ?_
  · intro other after hafter
    rcases AssocMap.find_insert_eq_some hafter with ⟨-, rfl⟩ | ⟨-, hold⟩
    · exact Or.inr htracks
    · refine Or.inl ⟨hold, fun heq => hlater hold ?_⟩
      rw [hnew]
      exact (Option.some.inj heq).symm
  · intro first second after after' hafter hafter' heq
    rcases AssocMap.find_insert_eq_some hafter with ⟨hfirst, rfl⟩ | ⟨-, hold⟩
    · rcases AssocMap.find_insert_eq_some hafter' with ⟨hsecond, -⟩ | ⟨-, hold'⟩
      · rw [hfirst, hsecond]
      · exact absurd heq.symm (hlater hold')
    · rcases AssocMap.find_insert_eq_some hafter' with ⟨-, rfl⟩ | ⟨-, hold'⟩
      · exact absurd heq (hlater hold)
      · exact h.apart hold hold' heq
  · intro id handle file _ _ hwhich
    left
    rcases hwhich with hself | ⟨other, before, hbefore, hhandle⟩
    · exact ⟨thread, call, AssocMap.find_insert_self _ _ _, hnew.trans (Option.some.inj hself)⟩
    · have hother : other ≠ thread := by
        rintro rfl
        rw [hidle] at hbefore
        cases hbefore
      exact ⟨other, before, (AssocMap.find_insert_of_ne _ hother _).trans hbefore, hhandle⟩

theorem Invariant.create (h : Invariant config store cache) {thread : Nat} {object : ObjectID}
    {idx : UInt64} {answers : CreateAnswers}
    (hfree : cache.node.TouchesFile object.bucket (cacheKey object.key idx) answers →
      ¬ cache.node.PathTaken object.bucket (cacheKey object.key idx)) :
    Invariant config store (cache.create config store thread object idx answers) := by
  rw [BlockCache.create]
  split_ifs with hbusy
  · exact h
  · rw [not_or, not_not, Bool.not_eq_true, Option.isSome_eq_false_iff, Option.isNone_iff_eq_none]
      at hbusy
    obtain ⟨hidle, hblock⟩ := hbusy
    have hkept := @Node.Owned.blocksKept_createAsFileHandle cache.node
      (some cache.node.nextHandle) object.bucket (cacheKey object.key idx) false answers
      h.owned hfree fun _ => rfl
    have howned := @Node.Owned.createAsFileHandle cache.node object.bucket
      (cacheKey object.key idx) false answers h.owned
      (fun hopens => hfree (Node.OpensFile.touchesFile hopens))
    have hmade := @Node.createAsFileHandle_made cache.node object.bucket
      (cacheKey object.key idx) answers
    have hfailed := @Node.Owned.find_createAsFileHandle_of_error cache.node object.bucket
      (cacheKey object.key idx) answers h.owned h.wellNamed
    simp only
    generalize cache.node.createAsFileHandle object.bucket (cacheKey object.key idx) false
      answers = created at hkept howned hmade hfailed
    obtain ⟨result, created⟩ := created
    cases result with
    | error status =>
        refine h.setNode hkept howned ?_
        intro id hid
        obtain rfl := Option.some.inj hid
        exact ⟨hfailed rfl, h.not_inProgress_next⟩
    | ok id =>
        obtain ⟨rfl, hnext, handle, file, hfind, hbucket, hkey, hfile, hholds⟩ := hmade rfl
        refine h.beginCall hidle rfl hkept howned ⟨?_, hblock, ?_, ?_⟩
        · rw [hnext]
          exact Nat.lt_succ_self _
        · intro handle' hfind'
          obtain rfl := Option.some.inj (hfind.symm.trans hfind')
          exact ⟨hbucket, hkey⟩
        · intro file' hfile'
          rw [Node.localFile, hfind, Option.bind_some, hfile] at hfile'
          obtain rfl := Option.some.inj hfile'
          exact hholds

theorem Invariant.fetch (h : Invariant config store cache) (thread : Nat) :
    Invariant config store (cache.fetch config store thread none) := by
  rw [BlockCache.fetch]
  split
  · rename_i object idx id hcall
    have htracks := h.tracks hcall
    have hsize : (store object).size.toNat < 2 ^ 63 := by
      rw [StoredObject.toNat_size]
      exact (store object).bounded
    rw [StoredObject.read_block hsize htracks.hasBlock]
    simp only
    have hkept : Node.BlocksKept none cache.node cache.node := Node.blocksKept_refl
    refine h.setCall hcall rfl hkept h.owned ?_ ⟨htracks.given, htracks.hasBlock, htracks.names, ?_⟩
    · intro id' hnone
      exact absurd hnone (Option.some_ne_none id').symm
    · intro file hfile
      exact ⟨[], rfl, rfl, rfl, htracks.progress hfile⟩
  · exact h

/-- A round that gets nothing from the stream is the last one. -/
theorem eq_nil_of_buffer {done stream : Bytes} (hbounded : (done ++ stream).length < 2 ^ 63)
    (hbuffer : stream.take (min (min 4096
      (UInt64.ofNat (done ++ stream).length - UInt64.ofNat done.length)) int64Max).toNat = []) :
    stream = [] := by
  rw [List.length_append] at hbounded hbuffer
  have hsub : (UInt64.ofNat (done.length + stream.length) - UInt64.ofNat done.length).toNat =
      stream.length := by
    rw [UInt64.toNat_sub, UInt64.toNat_ofNat', UInt64.toNat_ofNat']
    omega
  have hmax : int64Max.toNat = 2 ^ 63 - 1 := rfl
  have hbufferSize : (4096 : UInt64).toNat = 4096 := rfl
  rw [UInt64.toNat_min, UInt64.toNat_min, hsub, hmax, hbufferSize, List.take_eq_nil_iff]
    at hbuffer
  rcases hbuffer with hzero | hnil
  · exact List.length_eq_zero_iff.1 (by omega)
  · exact hnil

theorem Progress.writeChunk {object : ObjectID} {idx length n : UInt64} {id : Nat}
    {stream buffer : Bytes} {files : FileSystem Bytes} {file : LocalFile}
    (hprogress : Progress config store ⟨object, idx, id, .writing stream length n⟩ files file)
    (hbuffer : stream.take (min (min 4096 (length - n)) int64Max).toNat = buffer) :
    (file.writeBytes files buffer n none).1 = okStatus ∧
      Progress config store
        ⟨object, idx, id, if buffer = [] then .written
          else .writing (stream.drop buffer.length) length (n + UInt64.ofNat buffer.length)⟩
        (file.writeBytes files buffer n none).2.2 (file.writeBytes files buffer n none).2.1 := by
  obtain ⟨done, hblock, rfl, rfl, hholds⟩ := hprogress
  have hbounded : (done ++ stream).length < 2 ^ 63 :=
    hblock ▸ StoredObject.length_block_lt _ _ idx
  have hstream : buffer ++ stream.drop buffer.length = stream :=
    List.prefix_iff_eq_append.1 (hbuffer ▸ List.take_prefix _ _)
  have hshort : done.length + buffer.length < 2 ^ 63 := by
    rw [← hstream, List.length_append, List.length_append] at hbounded
    omega
  obtain ⟨hok, hwritten⟩ := hholds.writeBytes hshort
  refine ⟨hok, ?_⟩
  by_cases hempty : buffer = []
  · rw [if_pos hempty]
    have hnil : stream = [] := eq_nil_of_buffer hbounded (hbuffer.trans hempty)
    have hdone : done ++ buffer = (store object).block config idx := by
      rw [hblock, hempty, hnil]
    rw [hdone] at hwritten
    exact hwritten
  · rw [if_neg hempty]
    refine ⟨done ++ buffer, ?_, ?_, ?_, hwritten⟩
    · rw [List.append_assoc, hstream]
      exact hblock
    · rw [List.append_assoc, hstream]
    · rw [List.length_append, UInt64.ofNat_add]

theorem Invariant.writeChunk (h : Invariant config store cache) (thread : Nat) :
    Invariant config store (cache.writeChunk thread none) := by
  rw [BlockCache.writeChunk]
  split
  · rename_i object idx id stream length n hcall
    have htracks := h.tracks hcall
    simp only
    generalize hbuffer : stream.take _ = buffer
    have hkept : Node.BlocksKept (some id) cache.node
        (cache.node.writeBytes id buffer n none).2 :=
      h.owned.blocksKept_writeBytes (Or.inl rfl) buffer n none
    refine h.setCall hcall rfl hkept (h.owned.writeBytes id buffer n none) ?_
      ⟨htracks.given.trans_le hkept.next, htracks.hasBlock, htracks.names_kept hkept, ?_⟩
    · intro id' hid
      exact (Option.some.inj hid).symm
    · intro after hafter
      cases hfile : cache.node.localFile id with
      | none =>
          rw [Node.writeBytes, hfile] at hafter
          rw [hfile] at hafter
          cases hafter
      | some file =>
          obtain ⟨hok, hprogress⟩ := (htracks.progress hfile).writeChunk hbuffer
          have hstatus : (file.writeBytes cache.node.files buffer n none).1.ok = true := by
            rw [hok]
            rfl
          rw [Node.writeBytes, hfile] at hafter ⊢
          obtain rfl := Option.some.inj ((Node.localFile_setFile hfile).symm.trans hafter)
          simp only [hstatus, Bool.true_eq_false, false_or]
          exact hprogress
  · exact h

theorem Invariant.finish (h : Invariant config store cache) (thread : Nat)
    (sealStatus : Status) : Invariant config store (cache.finish thread sealStatus) := by
  rw [BlockCache.finish]
  split
  · rename_i object idx id hcall
    have hkept : Node.BlocksKept none cache.node
        ((cache.node.openFile id).dropReference id) :=
      (Node.blocksKept_openFile id).trans (Node.blocksKept_dropReference id)
    refine h.step hkept ((h.owned.openFile id).dropReference id) ?_ ?_ ?_
    · intro other call hfind
      exact Or.inl ⟨(AssocMap.find_erase_eq_some hfind).2, (Option.some_ne_none _).symm⟩
    · intro first second call call' hfirst hsecond heq
      exact h.apart (AssocMap.find_erase_eq_some hfirst).2
        (AssocMap.find_erase_eq_some hsecond).2 heq
    · intro other handle file hfind hsome hwhich
      rcases hwhich with hnone | ⟨thread', call, hcall', hhandle⟩
      · cases hnone
      · by_cases hthread : thread' = thread
        · -- the call of this thread ends, and its block is complete
          subst hthread
          obtain rfl := Option.some.inj (hcall.symm.trans hcall')
          obtain rfl : id = other := hhandle
          have htracks := (h.tracks hcall).kept hkept (Option.some_ne_none _).symm
          obtain ⟨hbucket, hkey⟩ := htracks.names hfind
          have hholds := htracks.progress (Option.bind_eq_some_iff.2 ⟨handle, hfind, hsome⟩)
          right
          refine ⟨object.key, idx, hkey, ?_⟩
          rw [hbucket]
          exact hholds
        · exact Or.inl ⟨thread', call, (AssocMap.find_erase_of_ne _ hthread).trans hcall',
            hhandle⟩
  · exact h

theorem Invariant.perform (h : Invariant config store cache) {event : BlockEvent}
    (hevent : cache.Undisturbed event) : Invariant config store (cache.perform config store event) := by
  cases event with
  | call event => exact h.call hevent.1 hevent.2
  | create thread object idx answers => exact h.create hevent
  | fetch thread fault =>
      obtain rfl : fault = none := hevent
      exact h.fetch thread
  | writeChunk thread fault =>
      obtain rfl : fault = none := hevent
      exact h.writeChunk thread
  | finish thread sealStatus => exact h.finish thread sealStatus

theorem Invariant.run (h : Invariant config store cache) {events : List BlockEvent}
    (hevents : NeverDisturbed config store events cache) :
    Invariant config store (cache.run config store events) := by
  induction events generalizing cache with
  | nil => exact h
  | cons event rest ih => exact ih (h.perform hevents.1) hevents.2

/-- The handle that is registered for a block has the name of the block. -/
theorem Invariant.blockHandle_names (h : Invariant config store cache) {object : ObjectID}
    {idx : UInt64} {id : Nat} {handle : FileHandle} (hbucket : slash ∉ object.bucket)
    (hregistered : cache.blockHandle object idx = some id)
    (hfind : cache.node.handles.find id = some handle) :
    handle.bucket = object.bucket ∧ handle.key = cacheKey object.key idx := by
  have hpath := (h.wellNamed.registry hregistered).2 handle hfind
  obtain ⟨hsame, hkey⟩ := (fullName_inj hbucket (h.wellNamed.buckets hfind)).1 hpath
  exact ⟨hsame.symm, hkey.symm⟩

theorem Invariant.intact (h : Invariant config store cache) : cache.Intact config store := by
  have hblocks : ∀ {object idx id file}, slash ∉ object.bucket →
      cache.blockHandle object idx = some id → cache.node.localFile id = some file →
      ¬ cache.InProgress id →
      file.Holds cache.node.files ((store object).block config idx) := by
    intro object idx id file hbucket hregistered hfile hidle
    obtain ⟨handle, hfind, hsome⟩ := Option.bind_eq_some_iff.1 hfile
    obtain ⟨hsame, hkey⟩ := h.blockHandle_names hbucket hregistered hfind
    rcases h.blocks hfind hsome (hkey ▸ marker_prefix_cacheKey) with
      hprogress | ⟨key, idx', hname, hholds⟩
    · exact absurd hprogress hidle
    · obtain ⟨rfl, rfl⟩ := cacheKey_inj.1 (hkey.symm.trans hname)
      rw [hsame] at hholds
      exact hholds
  refine ⟨hblocks, ?_⟩
  intro object position length bytes hbucket hidle hread
  refine @CachedFileHandle.readBytes_eq Unit config _ (fun _ => True) (store object) ?_ ?_
    position length () trivial bytes hread
  · intro idx offset count _ _
    trivial
  intro idx offset count _ piece _ _ hpiece
  cases hregistered : cache.blockHandle object idx with
  | none =>
      rw [hregistered] at hpiece
      cases hpiece
  | some id =>
      rw [hregistered] at hpiece
      change cache.node.readBytes id offset count = .ok piece at hpiece
      cases hfile : cache.node.localFile id with
      | none =>
          rw [Node.readBytes, hfile] at hpiece
          cases hpiece
      | some file =>
          rw [Node.readBytes, hfile] at hpiece
          have hholds := hblocks hbucket hregistered hfile (hidle idx id hregistered)
          apply hholds.readBytes _ hpiece
          exact (StoredObject.length_block_lt _ _ idx).trans (by decide)

/-- A run in which no download is cut short, nobody else writes to blocks and no
creation truncates the file of a live handle leaves only complete blocks behind. -/
theorem run_intact (config : CacheConfig) (store : ObjectID → StoredObject) (pathPrefix : Bytes)
    (events : List BlockEvent)
    (hevents : NeverDisturbed config store events (new pathPrefix)) :
    ((new pathPrefix).run config store events).Intact config store :=
  ((new_invariant pathPrefix).run hevents).intact

end Invariant

namespace Sample

open CachedFileHandle.Sample

/-- Six bytes: one block, and half of another. -/
def object : StoredObject := CachedFileHandle.Sample.letters

def letters : ObjectID → StoredObject := fun _ => object

def name : ObjectID := ⟨text "abc", text "key"⟩

def answers : CreateAnswers := ⟨okStatus, okStatus, none, .opened⟩

/-- The first block is downloaded; only `seal` fails. -/
def downloaded : List BlockEvent :=
  [.call (.start okStatus), .create 1 name 0 answers, .fetch 1 none, .writeChunk 1 none,
    .writeChunk 1 none, .finish 1 (unavailableError (text "seal"))]

theorem downloaded_intact :
    NeverDisturbed smallBlocks letters downloaded (new (text "/geds")) ∧
      ((new (text "/geds")).run smallBlocks letters downloaded).Intact smallBlocks letters := by
  have hdownloaded : NeverDisturbed smallBlocks letters downloaded (new (text "/geds")) := by
    refine ⟨⟨fun hmeddles => hmeddles, fun hlive => hlive⟩, ?_, rfl, rfl, rfl, trivial, trivial⟩
    rintro - ⟨id, file, hfile, -⟩
    cases hfile
  exact ⟨hdownloaded, run_intact smallBlocks letters (text "/geds") downloaded hdownloaded⟩

example : ((new (text "/geds")).run smallBlocks letters downloaded).readBytes smallBlocks
    letters name 0 3 = .ok (text "abc") := by
  decide

/-- The object store fails after the file of the block was registered. -/
def failed : List BlockEvent :=
  [.call (.start okStatus), .create 1 name 0 answers,
    .fetch 1 (some ⟨unavailableError (text "store"), rfl⟩)]

theorem failed_not_intact :
    ¬ ∀ config store pathPrefix events,
      ((new pathPrefix).run config store events).Intact config store := by
  intro hall
  have hintact := hall smallBlocks letters (text "/geds") failed
  have hidle : ∀ id, ¬ ((new (text "/geds")).run smallBlocks letters failed).InProgress id := by
    rintro id ⟨thread, call, hcall, -⟩
    cases hcall
  -- the next read finds the block, and returns nothing where the object has bytes
  have hread : ((new (text "/geds")).run smallBlocks letters failed).readBytes smallBlocks
      letters name 0 3 = .ok [] := by decide
  have hbytes := hintact.reads (by decide) (fun _ id _ => hidle id) hread
  exact absurd hbytes (by decide)

end Sample

end BlockCache

end GEDS
