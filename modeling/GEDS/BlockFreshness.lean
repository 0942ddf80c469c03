/-
Cached objects over their lives, with one call after the other.  Deleting an
object removes it from the object store and its handle from the registry; the
blocks that were cached are objects of their own, and stay.
-/
import GEDS.CachedFileHandle

namespace GEDS

open Status

/-- What the registry of a node has under a path: a cached object, a block with a local
file, or a block that another node has. -/
inductive CacheEntry where
  | cached (handle : Nat)
  | block (content : Bytes)
  | remote
deriving DecidableEq

/-- A `GEDSCachedFileHandle` in its wrapper; `version` counts how often the object had
been created when the size was looked up. -/
structure CachedHandle where
  node : Nat
  object : ObjectID
  remoteSize : UInt64
  blocks : UInt64 → Option CacheEntry
  version : Nat

/-- An open file, with the version of the object when it was opened. -/
structure OpenedObject where
  object : ObjectID
  handle : Nat
  version : Nat

/-- The object store, the registries of the nodes, and the handles and open files.
`created` has what each object was created with the last time, and `version` how often
it was created. -/
structure CachedObjects where
  stored : ObjectID → Option StoredObject
  created : ObjectID → Option StoredObject
  version : ObjectID → Nat
  registry : Nat → Bytes → Option CacheEntry
  handles : AssocMap Nat CachedHandle
  nextHandle : Nat
  files : AssocMap Nat OpenedObject

/-- A download that fails in the object store, or is cut short on the disk. -/
inductive DownloadFault where
  | store (status : FailedStatus)
  | disk (written : Nat)

/-- What an attempt to read from a block meets: whether the metadata service knows a copy
on another node and which node serves it, how the creation and the download of the
block end, and what the metadata service answers when the block is purged. -/
structure BlockAnswers where
  located : Bool
  server : Option Nat
  createFault : Option FailedStatus
  fault : Option DownloadFault
  purged : Status

/-- The answers for each block and each attempt. -/
abbrev ReadAnswers := UInt64 → Nat → BlockAnswers

inductive CacheEvent where
  | create (object : ObjectID) (content : StoredObject)
  | deleteObject (node : Nat) (object : ObjectID) (answer : Status) (storeDeletes : Bool)
  | openFile (node file : Nat) (object : ObjectID) (answer : Status)
  | read (file : Nat) (position length : UInt64) (answers : ReadAnswers) (reopened : Status)
      (retried : ReadAnswers)
  | relocateBlock (handle : Nat) (idx : UInt64) (answer : Status)
  | evictBlock (node : Nat) (object : ObjectID) (idx : UInt64)
  | stop (node : Nat)

/-- The path of a block in the registries. -/
def blockPath (object : ObjectID) (idx : UInt64) : Bytes :=
  getPath object.bucket (cacheKey object.key idx)

theorem blockPath_inj {object object' : ObjectID} {idx idx' : UInt64}
    (hbucket : slash ∉ object.bucket) (hbucket' : slash ∉ object'.bucket) :
    blockPath object idx = blockPath object' idx' ↔ object = object' ∧ idx = idx' := by
  obtain ⟨bucket, key⟩ := object
  obtain ⟨bucket', key'⟩ := object'
  rw [blockPath, blockPath, getPath_cacheKey_inj hbucket hbucket', ObjectID.mk.injEq, and_assoc]

namespace CachedObjects

def new : CachedObjects where
  stored := fun _ => none
  created := fun _ => none
  version := fun _ => 0
  registry := fun _ _ => none
  handles := AssocMap.empty
  nextHandle := 0
  files := AssocMap.empty

variable (config : CacheConfig) (s : CachedObjects)

section Steps

def setRegistry (node : Nat) (path : Bytes) (entry : Option CacheEntry) : CachedObjects :=
  { s with
    registry := Function.update s.registry node (Function.update (s.registry node) path entry) }

/-- An assignment to `_blocks[idx]`. -/
def setBlock (id : Nat) (idx : UInt64) (entry : Option CacheEntry) : CachedObjects :=
  match s.handles.find id with
  | none => s
  | some handle =>
      { s with
        handles := s.handles.insert id
          { handle with blocks := Function.update handle.blocks idx entry } }

/-- An upload to the object store, by whatever means. -/
def create (object : ObjectID) (content : StoredObject) : CachedObjects :=
  { s with
    stored := Function.update s.stored object (some content)
    created := Function.update s.created object (some content)
    version := Function.update s.version object (s.version object + 1) }

/-- `GEDS::deleteObject`; the answer is that of the metadata service. -/
def deleteObject (node : Nat) (object : ObjectID) (answer : Status) (storeDeletes : Bool) :
    CachedObjects :=
  if ¬ answer.ok ∧ answer.code ≠ .notFound then s
  else
    let stored :=
      if cacheBlockMarker.isPrefixOf object.key = false ∧ storeDeletes then
        Function.update s.stored object none
      else s.stored
    { s with stored := stored }.setRegistry node (getPath object.bucket object.key) none

/-- `GEDS::open` for an object in the object store; the answer is that of the lookup. -/
def openFile (node file : Nat) (object : ObjectID) (answer : Status) : CachedObjects :=
  if (isValid object.bucket object.key).ok then
    let path := getPath object.bucket object.key
    match s.registry node path with
    | some (.cached id) =>
        { s with files := s.files.insert file ⟨object, id, s.version object⟩ }
    | some _ => s
    | none =>
        if answer.ok then
          match s.stored object with
          | none => s
          | some content =>
              let handle : CachedHandle :=
                ⟨node, object, content.size, fun _ => none, s.version object⟩
              { s with
                handles := s.handles.insert s.nextHandle handle
                nextHandle := s.nextHandle + 1
                files := s.files.insert file
                  ⟨object, s.nextHandle, s.version object⟩ }.setRegistry node path
                    (some (.cached s.nextHandle))
        else s
  else s

/-- `downloadRange` in `openBlock`, into the file that was just registered. -/
def downloadBlock (id : Nat) (handle : CachedHandle) (idx : UInt64)
    (fault : Option DownloadFault) : Except Status CacheEntry × CachedObjects :=
  let path := blockPath handle.object idx
  let range : Except Status Bytes := match s.stored handle.object with
    | none => .error (notFoundError handle.object.key)
    | some object =>
        object.read (config.cacheBlockSize * idx) config.cacheBlockSize
          (match fault with
            | some (.store status) => some status
            | _ => none)
  match range with
  | .error status => (.error status, s.setRegistry handle.node path (some (.block [])))
  | .ok stream =>
      let entry := CacheEntry.block (match fault with
        | some (.disk written) => stream.take written
        | _ => stream)
      (.ok entry, (s.setRegistry handle.node path (some entry)).setBlock id idx (some entry))

/-- `openBlock` -/
def openBlock (id : Nat) (idx : UInt64) (answers : BlockAnswers) :
    Except Status CacheEntry × CachedObjects :=
  match s.handles.find id with
  | none => (.error (unavailableError []), s)
  | some handle =>
      let path := blockPath handle.object idx
      -- an index outside of `_blocks` is never asked for
      if ¬ HasBlock config handle.remoteSize idx then (.error (unavailableError []), s)
      else
        match handle.blocks idx with
        | some entry => (.ok entry, s)
        | none =>
            match s.registry handle.node path with
            | some entry => (.ok entry, s.setBlock id idx (some entry))
            | none =>
                if answers.located then
                  (.ok .remote, (s.setRegistry handle.node path (some .remote)).setBlock id idx
                    (some .remote))
                else
                  match answers.createFault with
                  | some status => (.error status.val, s)
                  | none => s.downloadBlock config id handle idx answers.fault

/-- `file.read` on a block. -/
def readEntry (entry : CacheEntry) (path : Bytes) (offset count : UInt64)
    (server : Option Nat) : Except Status Bytes :=
  match entry with
  | .block content => .ok (slice content offset.toNat count.toNat)
  | .remote =>
      match server with
      | none => .error (unavailableError path)
      | some node =>
          match s.registry node path with
          | some (.block content) => .ok (slice content offset.toNat count.toNat)
          | _ => .error (notFoundError path)
  | .cached _ => .error (unavailableError path)

/-- `purgeBlock` -/
def purgeBlock (id : Nat) (idx : UInt64) (answer : Status) : CachedObjects :=
  match s.handles.find id with
  | none => s
  | some handle =>
      (s.setBlock id idx none).deleteObject handle.node
        ⟨handle.object.bucket, cacheKey handle.object.key idx⟩ answer false

/-- One block in `GEDSCachedFileHandle::readBytes`, which is purged and opened again if it
cannot be read. -/
def readBlock (id : Nat) (path : UInt64 → Bytes) (answers : ReadAnswers)
    (idx offset count : UInt64) (s : CachedObjects) : Except Status Bytes × CachedObjects :=
  let opened := s.openBlock config id idx (answers idx 0)
  match opened.1 with
  | .error status => (.error status, opened.2)
  | .ok entry =>
      match opened.2.readEntry entry (path idx) offset count (answers idx 0).server with
      | .ok bytes => (.ok bytes, opened.2)
      | .error _ =>
          let purged := opened.2.purgeBlock id idx (answers idx 0).purged
          let again := purged.openBlock config id idx (answers idx 1)
          match again.1 with
          | .error status => (.error status, again.2)
          | .ok entry =>
              (again.2.readEntry entry (path idx) offset count (answers idx 1).server, again.2)

/-- `GEDSCachedFileHandle::readBytes` -/
def readCached (id : Nat) (position length : UInt64) (answers : ReadAnswers) :
    Except Status Bytes × CachedObjects :=
  match s.handles.find id with
  | none => (.error (unavailableError []), s)
  | some handle =>
      CachedFileHandle.readBytes config (readBlock config id (blockPath handle.object) answers)
        handle.remoteSize position length s

/-- `GEDS::reopenFileHandle` in the wrapper; the answer is that of the lookup. -/
def reopen (id : Nat) (answer : Status) : Except Status CachedObjects :=
  match s.handles.find id with
  | none => .error (unavailableError [])
  | some handle =>
      if answer.ok then
        match s.stored handle.object with
        | none => .error (notFoundError handle.object.key)
        | some content =>
            .ok { s with
              handles := s.handles.insert id
                { handle with
                  remoteSize := content.size
                  blocks := fun _ => none
                  version := s.version handle.object } }
      else .error answer

/-- `GEDSRelocatableFileHandle::readBytes` on an open file. -/
def read (file : Nat) (position length : UInt64) (answers : ReadAnswers) (reopened : Status)
    (retried : ReadAnswers) : Except Status Bytes × CachedObjects :=
  match s.files.find file with
  | none => (.error (unavailableError []), s)
  | some opened =>
      let first := s.readCached config opened.handle position length answers
      match first.1 with
      | .ok bytes => (.ok bytes, first.2)
      | .error _ =>
          match first.2.reopen opened.handle reopened with
          | .error status => (.error status, first.2)
          | .ok again => again.readCached config opened.handle position length retried

/-- One round of `GEDSCachedFileHandle::relocate`; local blocks are deleted. -/
def relocateBlock (id : Nat) (idx : UInt64) (answer : Status) : CachedObjects :=
  match s.handles.find id with
  | none => s
  | some handle =>
      match handle.blocks idx with
      | some (.block (_ :: _)) => s.purgeBlock id idx answer
      | _ => s

def perform : CacheEvent → CachedObjects
  | .create object content => s.create object content
  | .deleteObject node object answer storeDeletes =>
      s.deleteObject node object answer storeDeletes
  | .openFile node file object answer => s.openFile node file object answer
  | .read file position length answers reopened retried =>
      (s.read config file position length answers reopened retried).2
  | .relocateBlock handle idx answer => s.relocateBlock handle idx answer
  | .evictBlock node object idx => s.setRegistry node (blockPath object idx) none
  | .stop node => { s with registry := Function.update s.registry node fun _ => none }

def run (events : List CacheEvent) : CachedObjects := events.foldl (perform config) s

end Steps

section Specification

/-- A read of a file that was opened since the object was last created gives what it was
created with. -/
def ReturnsFresh : CacheEvent → Prop
  | .read file position length answers reopened retried =>
      ∀ opened content bytes, s.files.find file = some opened →
        opened.version = s.version opened.object → s.created opened.object = some content →
        (s.read config file position length answers reopened retried).1 = .ok bytes →
        bytes = slice content.content position.toNat length.toNat
  | _ => True

/-- When an object is created, no node has a handle of it or a block of it, and its key is
not that of a block; while it is read it is there, and no download fails. -/
def Clean : CacheEvent → Prop
  | .create object _ =>
      ¬ cacheBlockMarker <+: object.key ∧
        ∀ node, (∀ id, s.registry node (getPath object.bucket object.key) ≠ some (.cached id)) ∧
          ∀ idx content, s.registry node (blockPath object idx) ≠ some (.block content)
  | .read file _ _ answers _ retried =>
      (∀ opened, s.files.find file = some opened → s.stored opened.object ≠ none) ∧
        ∀ idx attempt, (answers idx attempt).fault = none ∧ (retried idx attempt).fault = none
  | _ => True

def AlwaysFresh : List CacheEvent → CachedObjects → Prop
  | [], _ => True
  | event :: rest, s => s.ReturnsFresh config event ∧ AlwaysFresh rest (s.perform config event)

def AlwaysClean : List CacheEvent → CachedObjects → Prop
  | [], _ => True
  | event :: rest, s => s.Clean event ∧ AlwaysClean rest (s.perform config event)

end Specification

section Invariant

variable {config s}

/-- A local block has the bytes of the object as it was created the last time. -/
def Belongs (config : CacheConfig) (s : CachedObjects) (object : ObjectID) (idx : UInt64)
    (entry : CacheEntry) : Prop :=
  ∀ content, entry = .block content →
    ∃ whole, s.created object = some whole ∧ content = whole.block config idx

/-- What is known of a handle that was made since the object was last created. -/
def Current (config : CacheConfig) (s : CachedObjects) (handle : CachedHandle) : Prop :=
  ∃ whole, s.created handle.object = some whole ∧ handle.remoteSize = whole.size ∧
    ∀ idx content, handle.blocks idx = some (.block content) → content = whole.block config idx

structure Invariant (config : CacheConfig) (s : CachedObjects) : Prop where
  stored : ∀ {object content}, s.stored object = some content → s.created object = some content
  blocks : ∀ {node object idx entry}, slash ∉ object.bucket →
    s.registry node (blockPath object idx) = some entry → Belongs config s object idx entry
  registered : ∀ {node object id}, slash ∉ object.bucket →
    s.registry node (getPath object.bucket object.key) = some (.cached id) →
    ∃ handle, s.handles.find id = some handle ∧ handle.object = object ∧
      handle.version = s.version object
  numbered : ∀ {id handle}, s.handles.find id = some handle → id < s.nextHandle
  bounded : ∀ {id handle}, s.handles.find id = some handle →
    slash ∉ handle.object.bucket ∧ handle.remoteSize.toNat < 2 ^ 63 ∧
      handle.version ≤ s.version handle.object
  current : ∀ {id handle}, s.handles.find id = some handle →
    handle.version = s.version handle.object → Current config s handle
  files : ∀ {file opened}, s.files.find file = some opened →
    opened.version ≤ s.version opened.object ∧
      ∃ handle, s.handles.find opened.handle = some handle ∧ handle.object = opened.object ∧
        (opened.version = s.version opened.object → handle.version = s.version opened.object)

theorem new_invariant : Invariant config new where
  stored hstored := by simp [new] at hstored
  blocks _ hentry := by simp [new] at hentry
  registered _ hentry := by simp [new] at hentry
  numbered hfind := by simp [new] at hfind
  bounded hfind := by simp [new] at hfind
  current hfind := by simp [new] at hfind
  files hfind := by simp [new] at hfind

theorem registry_setRegistry (node node' : Nat) (path path' : Bytes)
    (entry : Option CacheEntry) :
    (s.setRegistry node path entry).registry node' path' =
      if node' = node ∧ path' = path then entry else s.registry node' path' := by
  by_cases hnode : node' = node
  · by_cases hpath : path' = path
    · simp [setRegistry, hnode, hpath]
    · simp [setRegistry, hnode, hpath]
  · simp [setRegistry, hnode]

/-- The registries change, in a way that keeps what is known of their entries. -/
theorem Invariant.setRegistry (h : Invariant config s) {node : Nat} {path : Bytes}
    {entry : Option CacheEntry}
    (hblock : ∀ {object idx found}, slash ∉ object.bucket → path = blockPath object idx →
      entry = some found → Belongs config s object idx found)
    (hcached : ∀ {object id}, slash ∉ object.bucket → path = getPath object.bucket object.key →
      entry = some (.cached id) → ∃ handle, s.handles.find id = some handle ∧
        handle.object = object ∧ handle.version = s.version object) :
    Invariant config (s.setRegistry node path entry) where
  stored := h.stored
  blocks := by
    intro node' object idx found hbucket hfound
    rw [registry_setRegistry] at hfound
    split_ifs at hfound with hsame
    · exact hblock hbucket hsame.2.symm hfound
    · exact h.blocks hbucket hfound
  registered := by
    intro node' object id hbucket hfound
    rw [registry_setRegistry] at hfound
    split_ifs at hfound with hsame
    · exact hcached hbucket hsame.2.symm hfound
    · exact h.registered hbucket hfound
  numbered := h.numbered
  bounded := h.bounded
  current := h.current
  files := h.files

theorem Invariant.unregister (h : Invariant config s) (node : Nat) (path : Bytes) :
    Invariant config (s.setRegistry node path none) := by
  apply h.setRegistry
  · intro object idx found _ _ hnone
    cases hnone
  · intro object id _ _ hnone
    cases hnone

/-- A block is registered under its own path. -/
theorem Invariant.registerBlock (h : Invariant config s) {object : ObjectID} {idx : UInt64}
    (hbucket : slash ∉ object.bucket) (node : Nat) {entry : CacheEntry}
    (hbelongs : Belongs config s object idx entry) (hnot : ∀ id, entry ≠ .cached id) :
    Invariant config (s.setRegistry node (blockPath object idx) (some entry)) := by
  apply h.setRegistry
  · intro object' idx' found hbucket' hpath hfound
    obtain rfl := Option.some.inj hfound
    obtain ⟨rfl, rfl⟩ := (blockPath_inj hbucket hbucket').1 hpath
    exact hbelongs
  · intro object' id _ _ hcached
    exact absurd (Option.some.inj hcached) (hnot id)

/-- A handle changes, and is no older than it was. -/
theorem Invariant.setHandle (h : Invariant config s) {id : Nat} {handle handle' : CachedHandle}
    (hfind : s.handles.find id = some handle) (hobject : handle'.object = handle.object)
    (hsize : handle'.remoteSize.toNat < 2 ^ 63)
    (hversion : handle'.version = handle.version ∨ handle'.version = s.version handle.object)
    (hcurrent : handle'.version = s.version handle'.object → Current config s handle') :
    Invariant config { s with handles := s.handles.insert id handle' } where
  stored := h.stored
  blocks := h.blocks
  registered := by
    intro node object id' hbucket hfound
    obtain ⟨found, hfound', hsame, hnow⟩ := h.registered hbucket hfound
    by_cases heq : id' = id
    · subst heq
      obtain rfl := Option.some.inj (hfind.symm.trans hfound')
      refine ⟨handle', AssocMap.find_insert_self _ _ _,
        hobject.trans hsame, ?_⟩
      rcases hversion with hkept | hnew
      · exact hkept.trans hnow
      · rw [hnew, hsame]
    · exact ⟨found, (AssocMap.find_insert_of_ne _ heq _).trans hfound', hsame, hnow⟩
  numbered := by
    intro id' found hfound
    rcases AssocMap.find_insert_eq_some hfound with ⟨rfl, -⟩ | ⟨-, hold⟩
    · exact h.numbered hfind
    · exact h.numbered hold
  bounded := by
    intro id' found hfound
    rcases AssocMap.find_insert_eq_some hfound with ⟨-, rfl⟩ | ⟨-, hold⟩
    · obtain ⟨hbucket, -, hle⟩ := h.bounded hfind
      refine ⟨hobject ▸ hbucket, hsize, ?_⟩
      rcases hversion with hkept | hnew
      · rw [hkept, hobject]
        exact hle
      · rw [hnew, hobject]
    · exact h.bounded hold
  current := by
    intro id' found hfound hnow
    rcases AssocMap.find_insert_eq_some hfound with ⟨-, rfl⟩ | ⟨-, hold⟩
    · exact hcurrent hnow
    · exact h.current hold hnow
  files := by
    intro file opened hopened
    obtain ⟨hle, found, hfound, hsame, hnow⟩ := h.files hopened
    refine ⟨hle, ?_⟩
    by_cases heq : opened.handle = id
    · rw [heq] at hfound ⊢
      obtain rfl := Option.some.inj (hfind.symm.trans hfound)
      refine ⟨handle', AssocMap.find_insert_self _ _ _, hobject.trans hsame, fun hopen => ?_⟩
      rcases hversion with hkept | hnew
      · exact hkept.trans (hnow hopen)
      · rw [hnew, hsame]
    · exact ⟨found, (AssocMap.find_insert_of_ne _ heq _).trans hfound, hsame, hnow⟩

theorem Invariant.setBlock (h : Invariant config s) {id : Nat} {handle : CachedHandle}
    (hfind : s.handles.find id = some handle) {idx : UInt64} {entry : Option CacheEntry}
    (hbelongs : ∀ found, entry = some found → Belongs config s handle.object idx found) :
    Invariant config (s.setBlock id idx entry) := by
  rw [CachedObjects.setBlock, hfind]
  refine h.setHandle hfind rfl (h.bounded hfind).2.1 (Or.inl rfl) ?_
  intro hnow
  obtain ⟨whole, hcreated, hsize, hblocks⟩ := h.current hfind hnow
  refine ⟨whole, hcreated, hsize, ?_⟩
  intro idx' content hcontent
  simp only [Function.update_apply] at hcontent
  split_ifs at hcontent with heq
  · obtain ⟨whole', hcreated', hbytes⟩ := hbelongs _ hcontent content rfl
    obtain rfl := Option.some.inj (hcreated.symm.trans hcreated')
    rw [heq]
    exact hbytes
  · exact hblocks idx' content hcontent

theorem Invariant.create (h : Invariant config s) {object : ObjectID} {content : StoredObject}
    (hclean : s.Clean (.create object content)) :
    Invariant config (s.create object content) := by
  have hother : ∀ {other : ObjectID}, other ≠ object →
      (s.create object content).created other = s.created other ∧
      (s.create object content).version other = s.version other := by
    intro other hne
    exact ⟨Function.update_of_ne hne _ _, Function.update_of_ne hne _ _⟩
  have hversion : (s.create object content).version object = s.version object + 1 :=
    Function.update_self _ _ _
  have hgrows : ∀ other, s.version other ≤ (s.create object content).version other := by
    intro other
    by_cases heq : other = object
    · rw [heq, hversion]
      exact Nat.le_succ _
    · rw [(hother heq).2]
  refine ⟨?_, ?_, ?_, h.numbered, ?_, ?_, ?_⟩
  · intro other found hfound
    simp only [CachedObjects.create, Function.update_apply] at hfound ⊢
    split_ifs at hfound ⊢
    · exact hfound
    · exact h.stored hfound
  · intro node other idx entry hbucket hentry found hfound
    subst hfound
    by_cases heq : other = object
    · subst heq
      exact absurd hentry ((hclean.2 node).2 idx found)
    · rw [(hother heq).1]
      exact h.blocks hbucket hentry found rfl
  · intro node other id hbucket hentry
    by_cases heq : other = object
    · subst heq
      exact absurd hentry ((hclean.2 node).1 id)
    · rw [(hother heq).2]
      exact h.registered hbucket hentry
  · intro id handle hfind
    obtain ⟨hbucket, hsize, hle⟩ := h.bounded hfind
    exact ⟨hbucket, hsize, hle.trans (hgrows _)⟩
  · intro id handle hfind hnow
    by_cases heq : handle.object = object
    · -- the handle was made before
      have hle := (h.bounded hfind).2.2
      rw [hnow, heq, hversion] at hle
      exact absurd hle (Nat.not_succ_le_self _)
    · rw [(hother heq).2] at hnow
      obtain ⟨whole, hcreated, hrest⟩ := h.current hfind hnow
      exact ⟨whole, (hother heq).1.trans hcreated, hrest⟩
  · intro file opened hopened
    obtain ⟨hle, handle, hfind, hsame, hnow⟩ := h.files hopened
    refine ⟨hle.trans (hgrows _), handle, hfind, hsame, ?_⟩
    intro hopen
    by_cases heq : opened.object = object
    · rw [hopen, heq, hversion] at hle
      exact absurd hle (Nat.not_succ_le_self _)
    · rw [(hother heq).2] at hopen ⊢
      exact hnow hopen

theorem Invariant.deleteObject (h : Invariant config s) (node : Nat) (object : ObjectID)
    (answer : Status) (storeDeletes : Bool) :
    Invariant config (s.deleteObject node object answer storeDeletes) := by
  rw [CachedObjects.deleteObject]
  split_ifs
  · exact h
  · apply Invariant.unregister
    refine ⟨?_, h.blocks, h.registered, h.numbered, h.bounded, h.current, h.files⟩
    intro other content hstored
    simp only [Function.update_apply] at hstored
    split_ifs at hstored
    exact h.stored hstored
  · exact h.unregister node _

theorem Invariant.addFile (h : Invariant config s) (file : Nat) {object : ObjectID} {id : Nat}
    {handle : CachedHandle} (hfind : s.handles.find id = some handle)
    (hobject : handle.object = object) (hversion : handle.version = s.version object) :
    Invariant config { s with files := s.files.insert file ⟨object, id, s.version object⟩ } := by
  refine ⟨h.stored, h.blocks, h.registered, h.numbered, h.bounded, h.current, ?_⟩
  intro other opened hopened
  rcases AssocMap.find_insert_eq_some hopened with ⟨-, rfl⟩ | ⟨-, hold⟩
  · exact ⟨Nat.le_refl _, handle, hfind, hobject, fun _ => hversion⟩
  · exact h.files hold

/-- A new handle takes its size from the object store. -/
theorem Invariant.addHandle (h : Invariant config s) {object : ObjectID} {content : StoredObject}
    (hbucket : slash ∉ object.bucket) (hstored : s.stored object = some content) (node : Nat) :
    Invariant config { s with
      handles := s.handles.insert s.nextHandle
        ⟨node, object, content.size, fun _ => none, s.version object⟩
      nextHandle := s.nextHandle + 1 } := by
  have hkept : ∀ {id found}, s.handles.find id = some found →
      (s.handles.insert s.nextHandle
        ⟨node, object, content.size, fun _ => none, s.version object⟩).find id = some found := by
    intro id found hfound
    have hne : id ≠ s.nextHandle := Nat.ne_of_lt (h.numbered hfound)
    exact (AssocMap.find_insert_of_ne _ hne _).trans hfound
  refine ⟨h.stored, h.blocks, ?_, ?_, ?_, ?_, ?_⟩
  · intro node' other id hother hentry
    obtain ⟨found, hfound, hrest⟩ := h.registered hother hentry
    exact ⟨found, hkept hfound, hrest⟩
  · intro id found hfound
    rcases AssocMap.find_insert_eq_some hfound with ⟨rfl, -⟩ | ⟨-, hold⟩
    · exact Nat.lt_succ_self _
    · exact Nat.lt_succ_of_lt (h.numbered hold)
  · intro id found hfound
    rcases AssocMap.find_insert_eq_some hfound with ⟨-, rfl⟩ | ⟨-, hold⟩
    · refine ⟨hbucket, ?_, Nat.le_refl _⟩
      rw [StoredObject.toNat_size]
      exact content.bounded
    · exact h.bounded hold
  · intro id found hfound hnow
    rcases AssocMap.find_insert_eq_some hfound with ⟨-, rfl⟩ | ⟨-, hold⟩
    · exact ⟨content, h.stored hstored, rfl, fun _ _ hnone => nomatch hnone⟩
    · exact h.current hold hnow
  · intro file opened hopened
    obtain ⟨hle, found, hfound, hrest⟩ := h.files hopened
    exact ⟨hle, found, hkept hfound, hrest⟩

theorem Invariant.openFile (h : Invariant config s) (node file : Nat) (object : ObjectID)
    (answer : Status) : Invariant config (s.openFile node file object answer) := by
  rw [CachedObjects.openFile]
  by_cases hvalid : (isValid object.bucket object.key).ok = true
  · have hbucket := isValid.slash_not_mem hvalid
    rw [if_pos hvalid]
    simp only
    split
    · rename_i id hentry
      obtain ⟨handle, hfind, hobject, hversion⟩ := h.registered hbucket hentry
      exact h.addFile file hfind hobject hversion
    · exact h
    · by_cases hanswer : answer.ok = true
      · rw [if_pos hanswer]
        cases hstored : s.stored object with
        | none => exact h
        | some content =>
            have hfind := AssocMap.find_insert_self s.handles s.nextHandle
              (⟨node, object, content.size, fun _ => none, s.version object⟩ : CachedHandle)
            have hadded := (h.addHandle hbucket hstored node).addFile file hfind rfl rfl
            apply hadded.setRegistry
            · intro other idx found _ _ hfound content' hblock
              rw [← Option.some.inj hfound] at hblock
              cases hblock
            · intro other id hother hpath hid
              obtain ⟨hsame, hkey⟩ := (fullName_inj hbucket hother).1 hpath
              obtain rfl : object = other := by
                rw [ObjectID.mk.injEq]
                exact ⟨hsame, hkey⟩
              obtain rfl := CacheEntry.cached.inj (Option.some.inj hid)
              exact ⟨_, hfind, rfl, rfl⟩
      · rw [if_neg hanswer]
        exact h
  · rw [if_neg hvalid]
    exact h

end Invariant

section Reading

variable {config s} {object : ObjectID} {whole : StoredObject} {id : Nat} {current : Prop}

/-- The state while an object that is in the store is read through a handle of it, which
was made since the object was last created if the read is a current one. -/
structure Reading (config : CacheConfig) (object : ObjectID) (whole : StoredObject) (id : Nat)
    (current : Prop) (s : CachedObjects) : Prop where
  invariant : Invariant config s
  stored : s.stored object = some whole
  handle : ∃ handle, s.handles.find id = some handle ∧ handle.object = object ∧
    (current → handle.version = s.version object)

/-- A local block is that of the object. -/
def PartOf (config : CacheConfig) (whole : StoredObject) (idx : UInt64) (entry : CacheEntry) :
    Prop :=
  ∀ content, entry = .block content → content = whole.block config idx

theorem Reading.partOf (h : Reading config object whole id current s) {idx : UInt64}
    {entry : CacheEntry} (hbelongs : Belongs config s object idx entry) :
    PartOf config whole idx entry := by
  intro content hcontent
  obtain ⟨whole', hcreated, hbytes⟩ := hbelongs content hcontent
  obtain rfl := Option.some.inj ((h.invariant.stored h.stored).symm.trans hcreated)
  exact hbytes

theorem Reading.setRegistry (h : Reading config object whole id current s) {node : Nat}
    {path : Bytes} {entry : Option CacheEntry}
    (hinvariant : Invariant config (s.setRegistry node path entry)) :
    Reading config object whole id current (s.setRegistry node path entry) :=
  ⟨hinvariant, h.stored, h.handle⟩

theorem Reading.setBlock (h : Reading config object whole id current s) {idx : UInt64}
    {entry : Option CacheEntry}
    (hbelongs : ∀ found, entry = some found → Belongs config s object idx found) :
    Reading config object whole id current (s.setBlock id idx entry) := by
  obtain ⟨handle, hfind, rfl, hversion⟩ := h.handle
  refine ⟨h.invariant.setBlock hfind hbelongs, ?_, ?_⟩
  · rw [CachedObjects.setBlock, hfind]
    exact h.stored
  · rw [CachedObjects.setBlock, hfind]
    exact ⟨_, AssocMap.find_insert_self _ _ _, rfl, hversion⟩

theorem Reading.deleteBlock (h : Reading config object whole id current s) (node : Nat)
    (idx : UInt64) (answer : Status) :
    Reading config object whole id current
      (s.deleteObject node ⟨object.bucket, cacheKey object.key idx⟩ answer false) := by
  refine ⟨h.invariant.deleteObject _ _ _ _, ?_, ?_⟩
  · rw [CachedObjects.deleteObject]
    split_ifs with _ hstore
    · exact h.stored
    · exact hstore.2.elim
    · exact h.stored
  · rw [CachedObjects.deleteObject]
    split_ifs <;> exact h.handle

theorem Reading.purgeBlock (h : Reading config object whole id current s) (idx : UInt64)
    (answer : Status) : Reading config object whole id current (s.purgeBlock id idx answer) := by
  rw [CachedObjects.purgeBlock]
  obtain ⟨handle, hfind, rfl, -⟩ := h.handle
  rw [hfind]
  apply Reading.deleteBlock
  apply h.setBlock
  intro found hnone
  cases hnone

/-- The block that a download gives, and registers, is that of the object. -/
theorem Reading.downloadBlock (h : Reading config object whole id current s)
    {handle : CachedHandle} (hfind : s.handles.find id = some handle) {idx : UInt64}
    (hidx : HasBlock config handle.remoteSize idx) :
    Reading config object whole id current (s.downloadBlock config id handle idx none).2 ∧
      ∀ entry, (s.downloadBlock config id handle idx none).1 = .ok entry →
        Belongs config s object idx entry := by
  obtain ⟨handle', hfind', rfl, -⟩ := h.handle
  obtain rfl := Option.some.inj (hfind.symm.trans hfind')
  obtain ⟨hbucket, hsize, -⟩ := h.invariant.bounded hfind
  have hread := @StoredObject.read_block whole config _ idx hsize hidx
  have hbelongs : Belongs config s handle.object idx (.block (whole.block config idx)) := by
    intro content hcontent
    obtain rfl := CacheEntry.block.inj hcontent
    exact ⟨whole, h.invariant.stored h.stored, rfl⟩
  simp only [CachedObjects.downloadBlock, h.stored, hread]
  refine ⟨Reading.setBlock (h.setRegistry (h.invariant.registerBlock hbucket handle.node hbelongs
    fun _ => CacheEntry.noConfusion)) ?_, ?_⟩
  · intro found hfound
    obtain rfl := Option.some.inj hfound
    exact hbelongs
  · intro entry hentry
    obtain rfl := Except.ok.inj hentry
    exact hbelongs

theorem Reading.openBlock (h : Reading config object whole id current s) (idx : UInt64)
    {answers : BlockAnswers} (hfault : answers.fault = none) :
    Reading config object whole id current (s.openBlock config id idx answers).2 ∧
      ∀ entry, (s.openBlock config id idx answers).1 = .ok entry → current →
        PartOf config whole idx entry := by
  obtain ⟨handle, hfind, rfl, hversion⟩ := h.handle
  obtain ⟨hbucket, hsize, -⟩ := h.invariant.bounded hfind
  rw [CachedObjects.openBlock, hfind]
  simp only
  by_cases hidx : HasBlock config handle.remoteSize idx
  · rw [if_neg (not_not.2 hidx)]
    cases hblock : handle.blocks idx with
    | some entry =>
        refine ⟨h, ?_⟩
        intro found hfound hcurrent
        obtain rfl := Except.ok.inj hfound
        apply h.partOf
        intro content hcontent
        obtain ⟨whole', hcreated, -, hblocks⟩ := h.invariant.current hfind (hversion hcurrent)
        exact ⟨whole', hcreated, hblocks idx content (hblock.trans (congrArg some hcontent))⟩
    | none =>
        simp only
        cases hregistered : s.registry handle.node (blockPath handle.object idx) with
        | some entry =>
            have hbelongs := h.invariant.blocks hbucket hregistered
            refine ⟨h.setBlock ?_, ?_⟩
            · intro found hfound
              obtain rfl := Option.some.inj hfound
              exact hbelongs
            · intro found hfound _
              obtain rfl := Except.ok.inj hfound
              exact h.partOf hbelongs
        | none =>
            simp only
            have hremote : Belongs config s handle.object idx .remote := fun _ hno => nomatch hno
            split_ifs
            · refine ⟨Reading.setBlock (h.setRegistry (h.invariant.registerBlock hbucket
                handle.node hremote fun _ => CacheEntry.noConfusion)) ?_, ?_⟩
              · intro found hfound
                obtain rfl := Option.some.inj hfound
                exact hremote
              · intro found hfound _
                obtain rfl := Except.ok.inj hfound
                exact h.partOf hremote
            · cases answers.createFault with
              | some status => exact ⟨h, fun entry herror => nomatch herror⟩
              | none =>
                  rw [hfault]
                  obtain ⟨hreading, hbelongs⟩ := h.downloadBlock hfind hidx
                  exact ⟨hreading, fun entry hentry _ => h.partOf (hbelongs entry hentry)⟩
  · rw [if_pos hidx]
    exact ⟨h, fun entry herror => nomatch herror⟩

theorem Reading.readEntry (h : Reading config object whole id current s) {idx : UInt64}
    {entry : CacheEntry} (hpart : PartOf config whole idx entry) {offset count : UInt64}
    {server : Option Nat} {bytes : Bytes}
    (hread : s.readEntry entry (blockPath object idx) offset count server = .ok bytes) :
    bytes = slice (whole.block config idx) offset.toNat count.toNat := by
  cases entry with
  | cached handle => cases hread
  | block content =>
      obtain rfl := Except.ok.inj hread
      rw [hpart content rfl]
  | remote =>
      obtain ⟨handle, hfind, rfl, -⟩ := h.handle
      have hbucket := (h.invariant.bounded hfind).1
      cases server with
      | none => cases hread
      | some node =>
          simp only [CachedObjects.readEntry] at hread
          split at hread
          · rename_i content hregistered
            obtain rfl := Except.ok.inj hread
            rw [h.partOf (h.invariant.blocks hbucket hregistered) content rfl]
          · cases hread

/-- One block: whatever happens the state stays in order, and what a current read gets is
the part of the object. -/
theorem Reading.readBlock {answers : ReadAnswers}
    (hfault : ∀ idx attempt, (answers idx attempt).fault = none)
    (h : Reading config object whole id current s) (idx offset count : UInt64) :
    Reading config object whole id current
        (CachedObjects.readBlock config id (blockPath object) answers idx offset count s).2 ∧
      ∀ bytes, (CachedObjects.readBlock config id (blockPath object) answers idx offset count
          s).1 = .ok bytes → current →
        bytes = slice (whole.block config idx) offset.toNat count.toNat := by
  obtain ⟨hopened, hpart⟩ := h.openBlock idx (hfault idx 0)
  simp only [CachedObjects.readBlock]
  generalize s.openBlock config id idx (answers idx 0) = opened at hopened hpart
  obtain ⟨result, opened⟩ := opened
  cases result with
  | error status => exact ⟨hopened, fun bytes herror => nomatch herror⟩
  | ok entry =>
      simp only
      cases hread : opened.readEntry entry (blockPath object idx) offset count
          (answers idx 0).server with
      | ok bytes =>
          refine ⟨hopened, fun found hfound hcurrent => ?_⟩
          obtain rfl := Except.ok.inj hfound
          exact hopened.readEntry (hpart entry rfl hcurrent) hread
      | error status =>
          have hpurged := hopened.purgeBlock idx (answers idx 0).purged
          obtain ⟨hagain, hpart'⟩ := hpurged.openBlock idx (hfault idx 1)
          simp only
          generalize (opened.purgeBlock id idx (answers idx 0).purged).openBlock config id idx
            (answers idx 1) = again at hagain hpart'
          obtain ⟨result, again⟩ := again
          cases result with
          | error status => exact ⟨hagain, fun bytes herror => nomatch herror⟩
          | ok entry =>
              refine ⟨hagain, fun bytes hbytes hcurrent => ?_⟩
              exact hagain.readEntry (hpart' entry rfl hcurrent) hbytes

theorem Reading.readCached (h : Reading config object whole id current s) {answers : ReadAnswers}
    (hfault : ∀ idx attempt, (answers idx attempt).fault = none) (position length : UInt64) :
    Reading config object whole id current
        (s.readCached config id position length answers).2 ∧
      ∀ bytes, (s.readCached config id position length answers).1 = .ok bytes → current →
        bytes = slice whole.content position.toNat length.toNat := by
  obtain ⟨handle, hfind, hobject, hversion⟩ := h.handle
  rw [CachedObjects.readCached, hfind]
  simp only [hobject]
  have hkept : ∀ idx offset count t, Reading config object whole id current t →
      Reading config object whole id current
        (CachedObjects.readBlock config id (blockPath object) answers idx offset count t).2 :=
    fun idx offset count t ht => (Reading.readBlock hfault ht idx offset count).1
  refine ⟨CachedFileHandle.readBytes_inv hkept _ _ _ h, ?_⟩
  intro bytes hbytes hcurrent
  have hsize : handle.remoteSize = whole.size := by
    obtain ⟨whole', hcreated, hsize, -⟩ := h.invariant.current hfind
      (hobject.symm ▸ hversion hcurrent)
    rw [hobject] at hcreated
    obtain rfl := Option.some.inj ((h.invariant.stored h.stored).symm.trans hcreated)
    exact hsize
  rw [hsize] at hbytes
  refine CachedFileHandle.readBytes_eq hkept ?_ h hbytes
  intro idx offset count t piece _ ht hpiece
  exact (Reading.readBlock hfault ht idx offset count).2 piece hpiece hcurrent

/-- A handle that was reopened is a current one. -/
theorem Reading.reopen (h : Reading config object whole id current s) {answer : Status}
    {again : CachedObjects} (hreopen : s.reopen id answer = .ok again) :
    Reading config object whole id True again := by
  obtain ⟨handle, hfind, rfl, -⟩ := h.handle
  rw [CachedObjects.reopen, hfind] at hreopen
  simp only [h.stored] at hreopen
  split_ifs at hreopen
  obtain rfl := Except.ok.inj hreopen
  have hcreated := h.invariant.stored h.stored
  refine ⟨h.invariant.setHandle hfind rfl ?_ (Or.inr rfl) fun _ => ?_, h.stored, ?_⟩
  · rw [StoredObject.toNat_size]
    exact whole.bounded
  · exact ⟨whole, hcreated, rfl, fun _ _ hnone => nomatch hnone⟩
  · exact ⟨_, AssocMap.find_insert_self _ _ _, rfl, fun _ => rfl⟩

end Reading

section Run

variable {config s}

theorem Invariant.read (h : Invariant config s) {file : Nat} {position length : UInt64}
    {answers : ReadAnswers} {reopened : Status} {retried : ReadAnswers}
    (hclean : s.Clean (.read file position length answers reopened retried)) :
    Invariant config (s.read config file position length answers reopened retried).2 ∧
      s.ReturnsFresh config (.read file position length answers reopened retried) := by
  obtain ⟨hthere, hfaults⟩ := hclean
  rw [ReturnsFresh, CachedObjects.read]
  cases hfile : s.files.find file with
  | none => exact ⟨h, fun opened content bytes hnone => nomatch hnone⟩
  | some opened =>
      obtain ⟨-, handle, hfind, hobject, hnow⟩ := h.files hfile
      obtain ⟨whole, hstored⟩ := Option.ne_none_iff_exists'.1 (hthere opened hfile)
      have hreading : Reading config opened.object whole opened.handle
          (opened.version = s.version opened.object) s :=
        ⟨h, hstored, handle, hfind, hobject, hnow⟩
      obtain ⟨hfirst, hfresh⟩ := hreading.readCached (fun idx attempt => (hfaults idx attempt).1)
        position length
      -- the object was created with what is stored
      have hsame : ∀ {content}, s.created opened.object = some content → content = whole :=
        fun hcreated => Option.some.inj (hcreated.symm.trans (h.stored hstored))
      simp only
      generalize s.readCached config opened.handle position length answers = first
        at hfirst hfresh
      obtain ⟨result, first⟩ := first
      cases result with
      | ok bytes =>
          refine ⟨hfirst.invariant, ?_⟩
          intro found content bytes' hfound hopen hcreated hbytes
          obtain rfl := Option.some.inj hfound
          obtain rfl := Except.ok.inj hbytes
          rw [hsame hcreated]
          exact hfresh bytes rfl hopen
      | error status =>
          simp only
          cases hreopen : first.reopen opened.handle reopened with
          | error status => exact ⟨hfirst.invariant, fun _ _ _ _ _ _ herror => nomatch herror⟩
          | ok again =>
              obtain ⟨hsecond, hfresh'⟩ := (hfirst.reopen hreopen).readCached
                (fun idx attempt => (hfaults idx attempt).2) position length
              refine ⟨hsecond.invariant, ?_⟩
              intro found content bytes hfound hopen hcreated hbytes
              obtain rfl := Option.some.inj hfound
              rw [hsame hcreated]
              exact hfresh' bytes hbytes trivial

theorem Invariant.purgeBlock (h : Invariant config s) (id : Nat) (idx : UInt64)
    (answer : Status) : Invariant config (s.purgeBlock id idx answer) := by
  rw [CachedObjects.purgeBlock]
  cases hfind : s.handles.find id with
  | none => exact h
  | some handle =>
      apply Invariant.deleteObject
      apply h.setBlock hfind
      intro found hnone
      cases hnone

theorem Invariant.relocateBlock (h : Invariant config s) (id : Nat) (idx : UInt64)
    (answer : Status) : Invariant config (s.relocateBlock id idx answer) := by
  rw [CachedObjects.relocateBlock]
  split
  · exact h
  · split
    · exact h.purgeBlock id idx answer
    · exact h

theorem Invariant.stop (h : Invariant config s) (node : Nat) :
    Invariant config { s with registry := Function.update s.registry node fun _ => none } := by
  have hleft : ∀ {node' path entry},
      Function.update s.registry node (fun _ => none) node' path = some entry →
      s.registry node' path = some entry := by
    intro node' path entry hentry
    rw [Function.update_apply] at hentry
    split_ifs at hentry
    exact hentry
  refine ⟨h.stored, ?_, ?_, h.numbered, h.bounded, h.current, h.files⟩
  · intro node' object idx entry hbucket hentry
    exact h.blocks hbucket (hleft hentry)
  · intro node' object id hbucket hentry
    exact h.registered hbucket (hleft hentry)

theorem Invariant.perform (h : Invariant config s) {event : CacheEvent}
    (hclean : s.Clean event) :
    Invariant config (s.perform config event) ∧ s.ReturnsFresh config event := by
  cases event with
  | create object content => exact ⟨h.create hclean, trivial⟩
  | deleteObject node object answer storeDeletes =>
      exact ⟨h.deleteObject node object answer storeDeletes, trivial⟩
  | openFile node file object answer => exact ⟨h.openFile node file object answer, trivial⟩
  | read file position length answers reopened retried => exact h.read hclean
  | relocateBlock id idx answer => exact ⟨h.relocateBlock id idx answer, trivial⟩
  | evictBlock node object idx => exact ⟨h.unregister node _, trivial⟩
  | stop node => exact ⟨h.stop node, trivial⟩

theorem Invariant.run (h : Invariant config s) {events : List CacheEvent}
    (hclean : AlwaysClean config events s) : AlwaysFresh config events s := by
  induction events generalizing s with
  | nil => trivial
  | cons event rest ih =>
      obtain ⟨hafter, hfresh⟩ := h.perform hclean.1
      exact ⟨hfresh, ih hafter hclean.2⟩

/-- If nothing of an object is left in the registries whenever it is created again, and
no download fails, then every read of a file that was opened since then gives what the
object was created with. -/
theorem run_alwaysFresh (config : CacheConfig) (events : List CacheEvent)
    (hclean : AlwaysClean config events new) : AlwaysFresh config events new :=
  new_invariant.run hclean

end Run

namespace Sample

open CachedFileHandle.Sample

def name : ObjectID := ⟨text "abc", text "key"⟩

def first : StoredObject := ⟨text "abc", by decide⟩

def second : StoredObject := ⟨text "xyz", by decide⟩

/-- No other node has a block, and nothing fails. -/
def quiet : ReadAnswers := fun _ _ => ⟨false, none, none, none, okStatus⟩

/-- The block of an object is deleted before the object, which is then created again. -/
def purged : List CacheEvent :=
  [.create name first, .openFile 0 1 name okStatus, .read 1 0 3 quiet okStatus quiet,
    .relocateBlock 0 0 okStatus, .deleteObject 0 name okStatus true, .create name second,
    .openFile 0 2 name okStatus, .read 2 0 3 quiet okStatus quiet]

/-- What the registries have when the object is created again. -/
theorem purged_registry (node : Nat) (path : Bytes) :
    (new.run smallBlocks (purged.take 5)).registry node path = none := by
  have hchanges : (new.run smallBlocks (purged.take 5)).registry =
      ((((new.setRegistry 0 (text "abc/key") (some (.cached 0))).setRegistry 0
        (blockPath name 0) (some (.block (text "abc")))).setRegistry 0
        (blockPath name 0) none).setRegistry 0 (text "abc/key") none).registry := rfl
  rw [hchanges]
  simp only [registry_setRegistry]
  split_ifs <;> simp_all [new]

theorem purged_fresh :
    AlwaysClean smallBlocks purged new ∧ AlwaysFresh smallBlocks purged new := by
  have hpurged : AlwaysClean smallBlocks purged new := by
    refine ⟨⟨by decide, fun node => ⟨fun id => ?_, fun idx content => ?_⟩⟩, trivial,
      ⟨fun opened hopened => ?_, fun _ _ => ⟨rfl, rfl⟩⟩, trivial, trivial,
      ⟨by decide, fun node => ⟨fun id => ?_, fun idx content => ?_⟩⟩, trivial,
      ⟨fun opened hopened => ?_, fun _ _ => ⟨rfl, rfl⟩⟩, trivial⟩
    · exact (Option.some_ne_none _).symm
    · exact (Option.some_ne_none _).symm
    · obtain rfl : ⟨name, 0, 1⟩ = opened := Option.some.inj hopened
      exact Option.some_ne_none first
    · intro hcached
      cases (purged_registry node _).symm.trans hcached
    · intro hblock
      cases (purged_registry node _).symm.trans hblock
    · obtain rfl : ⟨name, 1, 2⟩ = opened := Option.some.inj hopened
      exact Option.some_ne_none second
  exact ⟨hpurged, run_alwaysFresh smallBlocks purged hpurged⟩

/-- An object is created, read, deleted and created again. -/
def recreated : List CacheEvent :=
  [.create name first, .openFile 0 1 name okStatus, .read 1 0 3 quiet okStatus quiet,
    .deleteObject 0 name okStatus true, .create name second, .openFile 0 2 name okStatus]

/-- The block of the first version is still there, and is what the second read gives. -/
theorem recreated_not_fresh :
    ¬ ∀ config events, AlwaysFresh config events new := by
  intro hall
  have hfresh := hall smallBlocks (recreated ++ [.read 2 0 3 quiet okStatus quiet])
  obtain ⟨-, -, -, -, -, -, hlast, -⟩ := hfresh
  have hread : ((new.run smallBlocks recreated).read smallBlocks 2 0 3 quiet okStatus quiet).1 =
      .ok (text "abc") := by decide
  have hbytes := hlast ⟨name, 1, 2⟩ second (text "abc") rfl rfl rfl hread
  exact absurd hbytes (by decide)

end Sample

end CachedObjects

end GEDS
