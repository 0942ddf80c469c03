/-
A round of the storage monitoring thread on the handles of a node: what it relocates is gone
from the local storage afterwards, and nothing else grows.
-/
import GEDS.StorageSpilling

namespace GEDS

open SharedParts

/-- What comes of one call of `GEDS::relocate` in a round. -/
inductive RelocationOutcome where
  /-- The handle is open again, or the call ends with an exception before it does anything. -/
  | refused
  | ran (unused stored : Bool) (deleted : Nat → Bool)

/-- The handle was closed all along, and the object store took the object. -/
def RelocationOutcome.succeeds : RelocationOutcome → Bool
  | .refused => false
  | .ran unused stored _ => unused && stored

/-- What the loop asks the handles of a node for, besides their sizes. -/
structure HandleView where
  localMemorySize : UInt64
  openCount : Int
  isValid : Bool
  lastReleased : Int

namespace StorageNode

section Round

variable (node : StorageNode)

/-- `isRelocatable`; handles of remote files do not override it. -/
def isRelocatable (id : Nat) : Bool :=
  match node.handles.find id with
  | none => false
  | some handle =>
      match handle.kind with
      | .localFile _ => true
      | .remote => false
      | .relocatable _ => true
      | .cached _ => true

/-- What the handles answer while no other call is running. -/
def answers (view : Nat → HandleView) (id : Nat) : HandleAnswers where
  localStorageSize := node.localStorageSize node.depth id
  localMemorySize := (view id).localMemorySize
  isRelocatable := node.isRelocatable id
  openCount := (view id).openCount
  isValid := (view id).isValid
  lastReleased := (view id).lastReleased
  sizeWhenChosen := node.localStorageSize node.depth id

def allFileHandles : List Nat := node.fileHandles.entries.map Prod.snd

def gather (view : Nat → HandleView) : MonitorCycle Nat :=
  MonitorCycle.gather (node.answers view) node.allFileHandles

def tasks (view : Nat → HandleView) (targetStorage : UInt64) (sorted : List Nat) : List Nat :=
  MonitorCycle.tasks (node.answers view) (node.gather view).storageUsed targetStorage sorted

def relocateOne (id : Nat) : RelocationOutcome → StorageNode
  | .refused => node
  | .ran unused stored deleted => node.relocate id unused stored deleted

/-- The tasks of the thread pool, in the order in which they run. -/
def relocateAll (outcome : Nat → RelocationOutcome) (tasks : List Nat) : StorageNode :=
  tasks.foldl (fun node id => node.relocateOne id (outcome id)) node

/-- The bytes behind the handle that is registered under a path. -/
def usedAt (path : Bytes) : Nat :=
  match node.fileHandles.find path with
  | none => 0
  | some id => node.bytesBehind node.depth id

end Round

variable {node node' node'' : StorageNode} {counted : Prop}

section OwnPath

/-- Handles are registered under their own paths. -/
def AtOwnPath (node : StorageNode) : Prop :=
  ∀ path id, node.fileHandles.find path = some id →
    ∃ handle, node.handles.find id = some handle ∧ path = getPath handle.bucket handle.key

/-- The handles keep their names. -/
def KeepsNames (node node' : StorageNode) : Prop :=
  ∀ id handle, node.handles.find id = some handle → ∃ handle',
    node'.handles.find id = some handle' ∧ handle'.bucket = handle.bucket ∧
      handle'.key = handle.key

theorem KeepsNames.refl : KeepsNames node node :=
  fun _ handle hfind => ⟨handle, hfind, rfl, rfl⟩

theorem KeepsNames.trans (h : KeepsNames node node') (h' : KeepsNames node' node'') :
    KeepsNames node node'' := by
  intro id handle hfind
  obtain ⟨handle', hfind', hbucket, hkey⟩ := h id handle hfind
  obtain ⟨handle'', hfind'', hbucket', hkey'⟩ := h' id handle' hfind'
  exact ⟨handle'', hfind'', hbucket'.trans hbucket, hkey'.trans hkey⟩

theorem keepsNames_addHandle (h : node.Nested) (handle : StorageHandle) :
    KeepsNames node (node.addHandle handle).2 :=
  fun _ found hfind => ⟨found, h.find_addHandle hfind, rfl, rfl⟩

theorem keepsNames_setKind (id : Nat) (kind : StorageKind) :
    KeepsNames node (node.setKind id kind) := by
  intro other found hfound
  cases hfind : node.handles.find id with
  | none =>
      rw [StorageNode.setKind, hfind]
      exact ⟨found, hfound, rfl, rfl⟩
  | some handle =>
      rw [setKind_of_find hfind]
      change ∃ handle', (node.handles.insert id { handle with kind := kind }).find other =
        some handle' ∧ _
      rw [AssocMap.find_insert]
      split_ifs with hother
      · rw [hother, hfind] at hfound
        obtain rfl := Option.some.inj hfound
        exact ⟨_, rfl, rfl, rfl⟩
      · exact ⟨found, hfound, rfl, rfl⟩

/-- Registered handles keep their names, and none is registered anew. -/
theorem AtOwnPath.of_kept (h : node.AtOwnPath) (hnames : KeepsNames node node')
    (hkept : ∀ path id, node'.fileHandles.find path = some id →
      node.fileHandles.find path = some id) : node'.AtOwnPath := by
  intro path id hfind
  obtain ⟨handle, hhandle, hpath⟩ := h path id (hkept path id hfind)
  obtain ⟨handle', hhandle', hbucket, hkey⟩ := hnames id handle hhandle
  exact ⟨handle', hhandle', by rw [hbucket, hkey, hpath]⟩

theorem find_of_sublist {map map' : ConcurrentMap Bytes Nat}
    (hfewer : map'.entries.Sublist map.entries) {path : Bytes} {id : Nat}
    (hfind : map'.find path = some id) : map.find path = some id :=
  (map.find_eq_some_iff path id).2 (hfewer.subset ((map'.find_eq_some_iff path id).1 hfind))

theorem AtOwnPath.unregister (h : node.AtOwnPath) {fileHandles : ConcurrentMap Bytes Nat}
    (hfewer : fileHandles.entries.Sublist node.fileHandles.entries) :
    { node with fileHandles := fileHandles }.AtOwnPath :=
  h.of_kept KeepsNames.refl fun _ _ hfind => find_of_sublist hfewer hfind

theorem AtOwnPath.register (h : node.AtOwnPath) {path : Bytes} {id : Nat}
    {handle : StorageHandle} (hfind : node.handles.find id = some handle)
    (hpath : path = getPath handle.bucket handle.key) :
    { node with fileHandles := node.fileHandles.insertOrReplace path id }.AtOwnPath := by
  intro path' other hother
  change (node.fileHandles.insert path id).find path' = some other at hother
  rw [OrderedMap.find_insert] at hother
  split_ifs at hother with hsame
  · obtain rfl := Option.some.inj hother
    exact ⟨handle, hfind, hsame.trans hpath⟩
  · exact h path' other hother

theorem AtOwnPath.registerNew (h : node.AtOwnPath) {path : Bytes} {id : Nat}
    {handle : StorageHandle} (hfind : node.handles.find id = some handle)
    (hpath : path = getPath handle.bucket handle.key) :
    { node with fileHandles := (node.fileHandles.insertOrExists path id).2 }.AtOwnPath := by
  rw [ConcurrentMap.insertOrExists]
  cases node.fileHandles.find path with
  | none => exact h.register hfind hpath
  | some existing => exact h

theorem AtOwnPath.destroy (h : node.AtOwnPath) (id : Nat) : (node.destroy id).AtOwnPath := by
  rw [StorageNode.destroy]
  cases node.handles.find id with
  | none => exact h
  | some gone =>
      dsimp only
      split_ifs with hheld
      · exact h
      · have hentries := (not_held_iff.1 (Bool.not_eq_true _ ▸ hheld)).1
        intro path other hother
        obtain ⟨handle, hfind, hpath⟩ := h path other hother
        refine ⟨handle, ?_, hpath⟩
        have hentry := (node.fileHandles.find_eq_some_iff path other).1 hother
        exact (AssocMap.find_erase_of_ne _ (hentries _ hentry)).trans hfind

theorem AtOwnPath.addHandle (h : node.AtOwnPath) (hnested : node.Nested)
    (handle : StorageHandle) : (node.addHandle handle).2.AtOwnPath :=
  h.of_kept (keepsNames_addHandle hnested handle) fun _ _ hfind => hfind

theorem AtOwnPath.setKind (h : node.AtOwnPath) (id : Nat) (kind : StorageKind) :
    (node.setKind id kind).AtOwnPath := by
  apply h.of_kept (keepsNames_setKind id kind)
  intro path other hfind
  rw [StorageNode.setKind] at hfind
  split at hfind <;> exact hfind

section Events

theorem AtOwnPath.new (cacheObjectsFromS3 : Bool) (cacheBlockSize : Nat) (pathPrefix : Bytes) :
    (new cacheObjectsFromS3 cacheBlockSize pathPrefix).AtOwnPath := by
  intro path id hfind
  cases hfind

theorem AtOwnPath.registerHandle (h : node.AtOwnPath) {path : Bytes} {id : Nat}
    {handle : StorageHandle} (hfind : node.handles.find id = some handle)
    (hpath : path = getPath handle.bucket handle.key) (overwrite : Bool) :
    (node.registerHandle path id overwrite).AtOwnPath := by
  rw [StorageNode.registerHandle]
  cases overwrite with
  | true => exact h.register hfind hpath
  | false =>
      dsimp only
      rw [if_neg Bool.false_ne_true]
      split_ifs
      · exact (h.registerNew hfind hpath).destroy id
      · exact h.registerNew hfind hpath

theorem AtOwnPath.createAsFileHandle (h : node.AtOwnPath) (hnested : node.Nested)
    (bucket key : Bytes) (overwrite : Bool) (mkdirFault : Option Bytes) (opens : OpenResult) :
    (node.createAsFileHandle bucket key overwrite mkdirFault opens).AtOwnPath := by
  unfold StorageNode.createAsFileHandle
  cases mkdirFault with
  | some reason => exact h
  | none =>
      dsimp only
      generalize LocalFile.new node.files (node.names.getLocalPath ⟨bucket, key⟩).1 true opens =
        opened
      obtain ⟨result, files⟩ := opened
      have hopened : { node with
          names := (node.names.getLocalPath ⟨bucket, key⟩).2, files := files }.AtOwnPath := h
      have hnested' : { node with
          names := (node.names.getLocalPath ⟨bucket, key⟩).2, files := files }.Nested :=
        ⟨hnested.known, hnested.parts, hnested.registered⟩
      cases result with
      | error reason => exact hopened
      | ok file =>
          exact (hopened.addHandle hnested' _).registerHandle find_addHandle_next rfl overwrite

theorem AtOwnPath.reopenFileHandle (h : node.AtOwnPath) (hnested : node.Nested)
    (bucket key : Bytes) (location : ReopenLocation) :
    (node.reopenFileHandle bucket key location).2.AtOwnPath := by
  cases location with
  | geds => exact h.addHandle hnested _
  | s3 size => exact h.addHandle hnested _

theorem AtOwnPath.openAsFileHandle (h : node.AtOwnPath) (hsound : node.Sound counted)
    (bucket key : Bytes) (location : Option ReopenLocation) :
    (node.openAsFileHandle bucket key location).AtOwnPath := by
  unfold StorageNode.openAsFileHandle
  cases node.fileHandles.get (getPath bucket key) with
  | some registered => exact h
  | none =>
      cases location with
      | none => exact h
      | some location =>
          have hreopened := (hsound.reopenFileHandle bucket key location rfl).1.toNested
          exact ((h.reopenFileHandle hsound.toNested bucket key location).addHandle
            hreopened _).registerNew find_addHandle_next rfl

theorem AtOwnPath.reopen (h : node.AtOwnPath) (hnested : node.Nested) (id : Nat)
    (location : ReopenLocation) : (node.reopen id location).AtOwnPath := by
  rw [StorageNode.reopen]
  split
  · exact (h.reopenFileHandle hnested _ _ location).setKind id _
  · exact h

end Events

end OwnPath

section Relocate

/-- A purge changes the registry, and the blocks of one handle. -/
theorem purge_cases (id : Nat) (deleted : Nat → Bool) :
    node.purge id deleted = node ∨ ∃ bucket key blocks kept fileHandles,
      node.handles.find id = some ⟨bucket, key, .cached blocks⟩ ∧
        kept.reduceOption.Sublist blocks.reduceOption ∧
        fileHandles.entries.Sublist node.fileHandles.entries ∧
        node.purge id deleted =
          { node.setKind id (.cached kept) with fileHandles := fileHandles } := by
  rw [StorageNode.purge]
  split
  next bucket key blocks hfind =>
    dsimp only
    generalize hkept : (blocks.map fun block => block.filter fun block =>
      !decide (node.localStorageSize node.depth block ≠ 0)) = kept
    obtain ⟨fileHandles, heq, hfewer⟩ := deleteBlocks_eq deleted
      (blocks.reduceOption.filter fun block =>
        decide (node.localStorageSize node.depth block ≠ 0)) (node.setKind id (.cached kept))
    have hregistry : (node.setKind id (.cached kept)).fileHandles = node.fileHandles := by
      rw [setKind_of_find hfind]
    refine Or.inr ⟨bucket, key, blocks, kept, fileHandles, hfind, ?_, hregistry ▸ hfewer, heq⟩
    rw [← hkept, reduceOption_map_filter]
    exact List.filter_sublist
  · exact Or.inl rfl

/-- What `relocate` makes of a node. -/
inductive Relocates (node : StorageNode) (id : Nat) (handle : StorageHandle)
    (unused stored : Bool) : StorageNode → Prop
  | unregistered (hnone : node.fileHandles.find (getPath handle.bucket handle.key) = none) :
      Relocates node id handle unused stored node
  | block : Relocates node id handle unused stored
      { node with
        fileHandles := (node.fileHandles.removeIf (getPath handle.bucket handle.key)
          fun existing => decide (existing = id) && unused).2 }
  | notStored (hstored : stored = false) : Relocates node id handle unused stored node
  | remote (hkind : handle.kind = .remote) : Relocates node id handle unused stored node
  | moved : Relocates node id handle unused stored
      { (node.addHandle ⟨handle.bucket, handle.key, .remote⟩).2 with
        fileHandles := node.fileHandles.insertOrReplace (getPath handle.bucket handle.key)
          node.nextHandle }
  | purged (purged : Nat) (deleted : Nat → Bool) (hsound : (node.purge purged deleted).Nested)
      (hempty : node.bytesBehind node.depth id < 2 ^ 64 →
        (node.purge purged deleted).Empty id) :
      Relocates node id handle unused stored
        { node.purge purged deleted with
          fileHandles := (node.purge purged deleted).fileHandles.insertOrReplace
            (getPath handle.bucket handle.key) id }

/-- A wrapper holds no local file. -/
theorem Nested.relocateWrapped_eq_purge (h : node.Nested) {id fileHandle : Nat}
    {bucket key : Bytes}
    (hfind : node.handles.find id = some ⟨bucket, key, .relocatable fileHandle⟩) (stored : Bool)
    (deleted : Nat → Bool) :
    node.relocateWrapped id fileHandle stored deleted = node.purge fileHandle deleted := by
  obtain ⟨⟨innerBucket, innerKey, kind⟩, hinner, -, hreopened⟩ :=
    h.parts hfind (List.mem_singleton_self fileHandle)
  rw [StorageNode.relocateWrapped, hinner]
  cases kind with
  | localFile size => cases hreopened
  | remote => rfl
  | relocatable inner => rfl
  | cached blocks => rfl

theorem Sound.relocates (h : node.Sound counted) {id : Nat} {handle : StorageHandle}
    (hfind : node.handles.find id = some handle) (unused stored : Bool) (deleted : Nat → Bool) :
    Relocates node id handle unused stored (node.relocate id unused stored deleted) := by
  obtain ⟨bucket, key, kind⟩ := handle
  rw [StorageNode.relocate, hfind]
  dsimp only
  by_cases hregistered : node.fileHandles.get (getPath bucket key) = none
  · rw [if_pos hregistered]
    exact .unregistered hregistered
  rw [if_neg hregistered]
  by_cases hblock : cacheBlockMarker.isPrefixOf key = true
  · rw [if_pos hblock]
    exact .block
  · rw [if_neg hblock]
    cases kind with
    | localFile file =>
        dsimp only
        split_ifs with hstored
        · exact .moved
        · exact .notStored (Bool.eq_false_iff.2 hstored)
    | remote => exact .remote rfl
    | relocatable fileHandle =>
        dsimp only
        obtain ⟨hsound, hempty, -⟩ := h.relocateWrapped hfind stored deleted
        rw [h.toNested.relocateWrapped_eq_purge hfind] at hsound hempty ⊢
        exact .purged fileHandle deleted hsound.toNested hempty
    | cached blocks =>
        obtain ⟨hsound, hempty, -⟩ := h.purge hfind rfl deleted
        exact .purged id deleted hsound.toNested hempty

theorem AtOwnPath.purge (h : node.AtOwnPath) (id : Nat) (deleted : Nat → Bool) :
    (node.purge id deleted).AtOwnPath := by
  rcases @purge_cases node id deleted with hsame | ⟨_, _, _, _, _, _, _, hfewer, heq⟩
  · rw [hsame]
    exact h
  · rw [heq]
    apply (h.setKind id _).unregister
    rw [setKind_of_find ‹_›]
    exact hfewer

theorem keepsNames_purge (id : Nat) (deleted : Nat → Bool) :
    KeepsNames node (node.purge id deleted) := by
  rcases @purge_cases node id deleted with hsame | ⟨_, _, _, _, _, _, _, _, heq⟩
  · rw [hsame]
    exact KeepsNames.refl
  · rw [heq]
    exact keepsNames_setKind id _

theorem AtOwnPath.relocates (h : node.AtOwnPath) (hnested : node.Nested) {id : Nat}
    {handle : StorageHandle} (hfind : node.handles.find id = some handle) {unused stored : Bool}
    (hrelocates : Relocates node id handle unused stored node') : node'.AtOwnPath := by
  cases hrelocates with
  | unregistered hnone => exact h
  | block => exact h.unregister (removeIf_sublist _ _ _)
  | notStored hstored => exact h
  | remote hkind => exact h
  | moved => exact (h.addHandle hnested _).register find_addHandle_next rfl
  | purged purged deleted hsound hempty =>
      obtain ⟨handle', hfind', hbucket, hkey⟩ := keepsNames_purge purged deleted id handle hfind
      exact (h.purge purged deleted).register hfind' (by rw [hbucket, hkey])

theorem AtOwnPath.perform (h : node.AtOwnPath) (hsound : node.Sound False)
    (event : StorageEvent) : (node.perform event).AtOwnPath := by
  cases event with
  | createAsFileHandle bucket key overwrite mkdirFault opens =>
      exact h.createAsFileHandle hsound.toNested bucket key overwrite mkdirFault opens
  | openAsFileHandle bucket key location => exact h.openAsFileHandle hsound bucket key location
  | reopen id location => exact h.reopen hsound.toNested id location
  | fileCall id call =>
      rw [StorageNode.perform, StorageNode.fileCall]
      split
      · exact h.setKind id _
      · exact h
  | storeBlock id idx block =>
      rw [StorageNode.perform, StorageNode.storeBlock]
      split
      · split_ifs
        · exact h.setKind id _
        · exact h
      · exact h
  | purgeBlock id idx block =>
      rw [StorageNode.perform, StorageNode.purgeBlock]
      split
      · split_ifs
        · exact h.setKind id _
        · exact h
      · exact h
  | removeIf path id => exact h.unregister (removeIf_sublist _ _ _)
  | deleteObject bucket key => exact h.unregister (remove_sublist _ _)
  | deleteObjectPrefix keyPrefix => exact h.unregister (removeRange_sublist _ _)
  | relocate id unused stored deleted =>
      rw [StorageNode.perform]
      cases hfind : node.handles.find id with
      | none =>
          rw [StorageNode.relocate, hfind]
          exact h
      | some handle =>
          exact h.relocates hsound.toNested hfind (hsound.relocates hfind unused stored deleted)
  | destroy id => exact h.destroy id
  | stop => exact h.unregister (List.nil_sublist _)

/-- Whatever happens, handles are registered under their own paths. -/
theorem AtOwnPath.run {start : StorageNode} (h : start.AtOwnPath) (hsound : start.Sound False)
    (events : List StorageEvent) : (start.run events).AtOwnPath := by
  induction events using List.reverseRecOn with
  | nil => exact h
  | append_singleton before event ih =>
      rw [run_append_singleton]
      exact ih.perform (hsound.run False.elim List.prefix_rfl) event

end Relocate

section Shrinks

/-- Without a handle under the path nothing is used there. -/
theorem usedAt_of_none {path : Bytes} (hnone : node.fileHandles.find path = none) :
    node.usedAt path = 0 := by
  rw [usedAt, hnone]

theorem usedAt_of_some {path : Bytes} {id : Nat} (hfind : node.fileHandles.find path = some id) :
    node.usedAt path = node.bytesBehind node.depth id := by
  rw [usedAt, hfind]

/-- The bytes that the loop comes to are those under the paths. -/
theorem bytesReached_eq_sum_usedAt {paths : Finset Bytes}
    (hpaths : ∀ path id, node.fileHandles.find path = some id → path ∈ paths) :
    node.bytesReached = ∑ path ∈ paths, node.usedAt path := by
  have hentries : (node.fileHandles.entries.map fun entry =>
      node.bytesBehind node.depth entry.2) =
        (node.fileHandles.entries.map Prod.fst).map node.usedAt := by
    rw [List.map_map]
    apply List.map_congr_left
    intro entry hentry
    exact (usedAt_of_some ((node.fileHandles.find_eq_some_iff entry.1 entry.2).2 hentry)).symm
  rw [bytesReached_eq, hentries, ← List.sum_toFinset _ node.fileHandles.keys_nodup]
  apply Finset.sum_subset
  · intro path hpath
    obtain ⟨entry, hentry, rfl⟩ := List.mem_map.1 (List.mem_toFinset.1 hpath)
    exact hpaths entry.1 entry.2 ((node.fileHandles.find_eq_some_iff entry.1 entry.2).2 hentry)
  · intro path _ hpath
    apply usedAt_of_none
    rw [OrderedMap.find_eq_none_iff]
    rintro entry hentry rfl
    exact hpath (List.mem_toFinset.2 (List.mem_map_of_mem hentry))

/-- Under no path and behind no handle there are more bytes than before, and under a path that
has another handle now, or none, there are none at all. -/
structure Shrinks (node node' : StorageNode) : Prop where
  names : KeepsNames node node'
  behind : ∀ id handle, node.handles.find id = some handle →
    node'.bytesBehind node'.depth id ≤ node.bytesBehind node.depth id
  used : ∀ path, node'.usedAt path ≤ node.usedAt path
  kept : ∀ path, node'.fileHandles.find path = node.fileHandles.find path ∨ node'.usedAt path = 0

theorem Shrinks.refl : Shrinks node node :=
  ⟨KeepsNames.refl, fun _ _ _ => le_rfl, fun _ => le_rfl, fun _ => Or.inl rfl⟩

theorem Shrinks.trans (h : Shrinks node node') (h' : Shrinks node' node'') :
    Shrinks node node'' := by
  refine ⟨h.names.trans h'.names, fun id handle hfind => ?_,
    fun path => (h'.used path).trans (h.used path), fun path => ?_⟩
  · obtain ⟨handle', hfind', -⟩ := h.names id handle hfind
    exact (h'.behind id handle' hfind').trans (h.behind id handle hfind)
  · rcases h'.kept path with hsame' | hzero
    · rcases h.kept path with hsame | hzero
      · exact Or.inl (hsame'.trans hsame)
      · exact Or.inr (Nat.eq_zero_of_le_zero ((h'.used path).trans_eq hzero))
    · exact Or.inr hzero

theorem Nested.bytesBehind_addHandle (h : node.Nested) (handle : StorageHandle) {id : Nat}
    {found : StorageHandle} (hfind : node.handles.find id = some found) :
    (node.addHandle handle).2.bytesBehind (node.addHandle handle).2.depth id =
      node.bytesBehind node.depth id := by
  have hdepth : node.depth ≤ (node.addHandle handle).2.depth := by
    simp only [depth, StorageNode.addHandle]
    omega
  rw [← h.bytesBehind_of_le hdepth, bytesBehind, bytesBehind, h.walk_addHandle hfind]
  congr 1
  apply List.map_congr_left
  intro met hmet
  obtain ⟨other, hother⟩ := h.find_of_mem_walk hfind hmet
  exact fileSize_addHandle_of_ne (h.ne_next hother)

theorem depth_purge (id : Nat) (deleted : Nat → Bool) :
    (node.purge id deleted).depth = node.depth := by
  rcases @purge_cases node id deleted with hsame | ⟨_, _, _, _, _, hfind, _, _, heq⟩
  · rw [hsame]
  · rw [heq, setKind_of_find hfind]
    rfl

/-- Behind no handle there are more bytes after a purge. -/
theorem bytesBehind_purge_le (id : Nat) (deleted : Nat → Bool) (depth other : Nat) :
    (node.purge id deleted).bytesBehind depth other ≤ node.bytesBehind depth other := by
  rcases @purge_cases node id deleted with hsame | ⟨_, _, _, kept, fileHandles, hfind, hkept, _, heq⟩
  · rw [hsame]
  · have hparts : ∀ whole, ((node.setKind id (.cached kept)).parts whole).Sublist
        (node.parts whole) := by
      intro whole
      rw [parts_setKind hfind]
      split_ifs with hwhole
      · rw [hwhole, parts, hfind]
        exact hkept
      · exact List.Sublist.refl _
    have hsizes : (node.setKind id (.cached kept)).fileSize = node.fileSize := by
      funext met
      exact @fileSize_setKind_other _ _ _ (.cached kept) hfind trivial rfl met
    rw [heq, bytesBehind, bytesBehind]
    change ((walk (node.setKind id (.cached kept)).parts depth other).map
      (node.setKind id (.cached kept)).fileSize).sum ≤ _
    rw [hsizes]
    exact ((walk_sublist hparts).map node.fileSize).sum_le_sum fun _ _ => Nat.zero_le _

theorem usedAt_of_empty {path : Bytes} {id : Nat}
    (hempty : node.Empty id) (hfind : node.fileHandles.find path = some id) :
    node.usedAt path = 0 := by
  rw [usedAt_of_some hfind, bytesBehind, List.sum_eq_zero_iff]
  intro size hsize
  obtain ⟨met, hmet, rfl⟩ := List.mem_map.1 hsize
  exact hempty _ met hmet

theorem Shrinks.unregister {fileHandles : ConcurrentMap Bytes Nat}
    (hfewer : fileHandles.entries.Sublist node.fileHandles.entries) :
    Shrinks node { node with fileHandles := fileHandles } := by
  have hkept : ∀ path, fileHandles.find path = none ∨
      fileHandles.find path = node.fileHandles.find path := by
    intro path
    cases hfind : fileHandles.find path with
    | none => exact Or.inl rfl
    | some id => exact Or.inr (find_of_sublist hfewer hfind).symm
  refine ⟨KeepsNames.refl, fun _ _ _ => le_rfl, fun path => ?_, fun path => ?_⟩
  · rcases hkept path with hnone | hsame
    · rw [usedAt_of_none (show { node with fileHandles := fileHandles }.fileHandles.find path =
        none from hnone)]
      exact Nat.zero_le _
    · cases hfind : node.fileHandles.find path with
      | none =>
          rw [usedAt_of_none (show { node with fileHandles := fileHandles }.fileHandles.find path =
            none from hsame.trans hfind)]
          exact Nat.zero_le _
      | some id =>
          rw [usedAt_of_some hfind, usedAt_of_some (show
            { node with fileHandles := fileHandles }.fileHandles.find path = some id from
              hsame.trans hfind)]
          exact le_rfl
  · rcases hkept path with hnone | hsame
    · exact Or.inr (usedAt_of_none hnone)
    · exact Or.inl hsame

theorem usedAt_register (path : Bytes) {id : Nat} (hempty : node.Empty id) :
    { node with fileHandles := node.fileHandles.insertOrReplace path id }.usedAt path = 0 := by
  apply usedAt_of_empty
  · exact hempty
  · change (node.fileHandles.insert path id).find path = some id
    rw [OrderedMap.find_insert, if_pos rfl]

/-- A handle with nothing behind it takes the place under a path. -/
theorem Shrinks.register (path : Bytes) {id : Nat} (hempty : node.Empty id) :
    Shrinks node { node with fileHandles := node.fileHandles.insertOrReplace path id } := by
  have hother : ∀ {other}, other ≠ path →
      (node.fileHandles.insertOrReplace path id).find other = node.fileHandles.find other := by
    intro other hne
    exact (node.fileHandles.find_insert path id other).trans (if_neg hne)
  refine ⟨KeepsNames.refl, fun _ _ _ => le_rfl, fun other => ?_, fun other => ?_⟩
  · by_cases hsame : other = path
    · rw [hsame, usedAt_register path hempty]
      exact Nat.zero_le _
    · simp only [usedAt, hother hsame]
      exact le_rfl
  · by_cases hsame : other = path
    · rw [hsame]
      exact Or.inr (usedAt_register path hempty)
    · exact Or.inl (hother hsame)

theorem Nested.shrinks_addHandle (h : node.Nested) (handle : StorageHandle) :
    Shrinks node (node.addHandle handle).2 := by
  refine ⟨keepsNames_addHandle h handle,
    fun id found hfound => (h.bytesBehind_addHandle handle hfound).le, fun path => ?_,
    fun path => Or.inl rfl⟩
  cases hfind : node.fileHandles.find path with
  | none => exact (usedAt_of_none (show (node.addHandle handle).2.fileHandles.find path = none from
      hfind)).trans_le (Nat.zero_le _)
  | some id =>
      obtain ⟨found, hfound⟩ := h.registered ((node.fileHandles.find_eq_some_iff path id).1 hfind)
      rw [usedAt_of_some hfind, usedAt_of_some (show
        (node.addHandle handle).2.fileHandles.find path = some id from hfind),
        h.bytesBehind_addHandle handle hfound]

theorem shrinks_purge (id : Nat) (deleted : Nat → Bool) : Shrinks node (node.purge id deleted) := by
  have hregistry : (node.purge id deleted).fileHandles.entries.Sublist
      node.fileHandles.entries := by
    rcases @purge_cases node id deleted with hsame | ⟨_, _, _, _, _, _, _, hfewer, heq⟩
    · rw [hsame]
    · rw [heq]
      exact hfewer
  refine ⟨keepsNames_purge id deleted, fun other _ _ => ?_, fun path => ?_, fun path => ?_⟩
  · rw [depth_purge]
    exact bytesBehind_purge_le id deleted _ other
  · cases hfind : (node.purge id deleted).fileHandles.find path with
    | none => exact (usedAt_of_none hfind).trans_le (Nat.zero_le _)
    | some other =>
        rw [usedAt_of_some hfind, usedAt_of_some (find_of_sublist hregistry hfind), depth_purge]
        exact bytesBehind_purge_le id deleted _ other
  · cases hfind : (node.purge id deleted).fileHandles.find path with
    | none => exact Or.inr (usedAt_of_none hfind)
    | some other => exact Or.inl (find_of_sublist hregistry hfind).symm

theorem Relocates.shrinks (hnested : node.Nested) {id : Nat} {handle : StorageHandle}
    {unused stored : Bool} (h : Relocates node id handle unused stored node')
    (hsmall : node.bytesBehind node.depth id < 2 ^ 64) : Shrinks node node' := by
  cases h with
  | unregistered hnone => exact Shrinks.refl
  | block => exact Shrinks.unregister (removeIf_sublist _ _ _)
  | notStored hstored => exact Shrinks.refl
  | remote hkind => exact Shrinks.refl
  | moved =>
      exact (hnested.shrinks_addHandle _).trans (Shrinks.register _
        (empty_addHandle_next (fileSize_addHandle_next rfl) rfl))
  | purged purged deleted hsound hempty =>
      exact (shrinks_purge purged deleted).trans (Shrinks.register _ (hempty hsmall))

/-- A relocation that succeeds leaves nothing in the local storage. -/
theorem Relocates.gone {id : Nat} {handle : StorageHandle} {unused stored : Bool}
    (h : Relocates node id handle unused stored node')
    (hsmall : node.bytesBehind node.depth id < 2 ^ 64)
    (hfind : node.handles.find id = some handle) (hunused : unused = true)
    (hstored : stored = true)
    (hregistered : node.fileHandles.find (getPath handle.bucket handle.key) = some id) :
    node'.usedAt (getPath handle.bucket handle.key) = 0 := by
  cases h with
  | unregistered hnone => rw [usedAt_of_none hnone]
  | block =>
      apply usedAt_of_none
      simp only [ConcurrentMap.removeIf, hregistered, hunused, decide_true, Bool.and_true, if_true]
      rw [OrderedMap.find_erase, if_pos rfl]
  | notStored hnot =>
      rw [hstored] at hnot
      cases hnot
  | remote hkind =>
      refine usedAt_of_empty (empty_of_parts ?_ fun part hpart => ?_) hregistered
      · rw [fileSize, localFile, hfind, Option.bind_some, StorageHandle.file, hkind]
      · rw [parts, hfind] at hpart
        simp only [StorageHandle.parts, hkind] at hpart
        cases hpart
  | moved => exact usedAt_register _ (empty_addHandle_next (fileSize_addHandle_next rfl) rfl)
  | purged purged deleted hsound hempty => exact usedAt_register _ (hempty hsmall)

end Shrinks

section Rounds

variable {outcome : Nat → RelocationOutcome}

theorem Sound.relocateOne (h : node.Sound False) (id : Nat) (result : RelocationOutcome) :
    (node.relocateOne id result).Sound False := by
  cases result with
  | refused => exact h
  | ran unused stored deleted => exact h.relocate False.elim unused stored deleted

/-- There is a handle, and what is behind it fits a word. -/
def Small (node : StorageNode) (id : Nat) : Prop :=
  (∃ handle, node.handles.find id = some handle) ∧ node.bytesBehind node.depth id < 2 ^ 64

theorem Shrinks.small (h : Shrinks node node') {id : Nat} (hsmall : node.Small id) :
    node'.Small id := by
  obtain ⟨⟨handle, hfind⟩, hbytes⟩ := hsmall
  obtain ⟨handle', hfind', -⟩ := h.names id handle hfind
  exact ⟨⟨handle', hfind'⟩, (h.behind id handle hfind).trans_lt hbytes⟩

theorem Sound.shrinks_relocateOne (h : node.Sound False) {id : Nat} (hsmall : node.Small id)
    (result : RelocationOutcome) : Shrinks node (node.relocateOne id result) := by
  obtain ⟨⟨handle, hfind⟩, hbytes⟩ := hsmall
  cases result with
  | refused => exact Shrinks.refl
  | ran unused stored deleted =>
      exact (h.relocates hfind unused stored deleted).shrinks h.toNested hbytes

/-- Whatever comes of its tasks, a round lets nothing grow. -/
theorem Sound.shrinks_relocateAll (h : node.Sound False) {tasks : List Nat}
    (hsmall : ∀ id ∈ tasks, node.Small id) : Shrinks node (node.relocateAll outcome tasks) := by
  induction tasks generalizing node with
  | nil => exact Shrinks.refl
  | cons id rest ih =>
      have hfirst := h.shrinks_relocateOne (hsmall id List.mem_cons_self) (outcome id)
      exact hfirst.trans (ih (h.relocateOne id (outcome id)) fun other hother =>
        hfirst.small (hsmall other (List.mem_cons_of_mem _ hother)))

theorem Sound.gone_relocateOne (h : node.Sound False) {start : StorageNode}
    (hstart : Shrinks start node) {id : Nat} {handle : StorageHandle}
    (hfind : start.handles.find id = some handle) (hsmall : start.Small id)
    (hregistered : start.fileHandles.find (getPath handle.bucket handle.key) = some id)
    {result : RelocationOutcome} (hsucceeds : result.succeeds = true) :
    (node.relocateOne id result).usedAt (getPath handle.bucket handle.key) = 0 := by
  have hsmall' := hstart.small hsmall
  rcases hstart.kept (getPath handle.bucket handle.key) with hsame | hzero
  · cases result with
    | refused => cases hsucceeds
    | ran unused stored deleted =>
        obtain ⟨hunused, hstored⟩ := Bool.and_eq_true_iff.1 hsucceeds
        obtain ⟨handle', hfind', hbucket, hkey⟩ := hstart.names id handle hfind
        rw [← hbucket, ← hkey] at hsame hregistered ⊢
        exact (h.relocates hfind' unused stored deleted).gone hsmall'.2 hfind' hunused hstored
          (hsame.trans hregistered)
  · -- an earlier task took it away
    exact Nat.eq_zero_of_le_zero
      (((h.shrinks_relocateOne hsmall' result).used _).trans_eq hzero)

/-- What was relocated stays away while the other tasks run. -/
theorem Sound.gone_relocateAll (h : node.Sound False) {start : StorageNode}
    (hstart : Shrinks start node) {id : Nat} {handle : StorageHandle}
    (hfind : start.handles.find id = some handle)
    (hregistered : start.fileHandles.find (getPath handle.bucket handle.key) = some id)
    (hsucceeds : (outcome id).succeeds = true) {tasks : List Nat}
    (hsmall : ∀ id ∈ tasks, start.Small id) (hid : id ∈ tasks) :
    (node.relocateAll outcome tasks).usedAt (getPath handle.bucket handle.key) = 0 := by
  induction tasks generalizing node with
  | nil => cases hid
  | cons first rest ih =>
      have hfirst := h.shrinks_relocateOne (hstart.small (hsmall first List.mem_cons_self))
        (outcome first)
      have hsound := h.relocateOne first (outcome first)
      have hrest : ∀ id ∈ rest, start.Small id := fun other hother =>
        hsmall other (List.mem_cons_of_mem _ hother)
      rcases List.mem_cons.1 hid with rfl | hlater
      · have hzero := h.gone_relocateOne hstart hfind (hsmall id List.mem_cons_self) hregistered
          hsucceeds
        have hshrinks := @Sound.shrinks_relocateAll _ outcome hsound rest fun other hother =>
          (hstart.trans hfirst).small (hrest other hother)
        exact Nat.eq_zero_of_le_zero ((hshrinks.used _).trans_eq hzero)
      · exact ih hsound (hstart.trans hfirst) hrest hlater

/-- The path of a handle. -/
def pathOf (node : StorageNode) (id : Nat) : Bytes :=
  match node.handles.find id with
  | none => []
  | some handle => getPath handle.bucket handle.key

theorem AtOwnPath.find_pathOf (h : node.AtOwnPath) {id : Nat} (hid : id ∈ node.allFileHandles) :
    ∃ handle, node.handles.find id = some handle ∧
      node.pathOf id = getPath handle.bucket handle.key ∧
      node.fileHandles.find (node.pathOf id) = some id := by
  obtain ⟨⟨path, other⟩, hentry, rfl⟩ := List.mem_map.1 hid
  have hregistered := (node.fileHandles.find_eq_some_iff path other).2 hentry
  obtain ⟨handle, hfind, rfl⟩ := h path other hregistered
  have hpath : node.pathOf other = getPath handle.bucket handle.key := by rw [pathOf, hfind]
  exact ⟨handle, hfind, hpath, hpath ▸ hregistered⟩

theorem AtOwnPath.nodup_allFileHandles (h : node.AtOwnPath) : node.allFileHandles.Nodup := by
  apply List.Nodup.of_map node.pathOf
  have hpaths : node.allFileHandles.map node.pathOf = node.fileHandles.entries.map Prod.fst := by
    rw [allFileHandles, List.map_map]
    apply List.map_congr_left
    intro entry hentry
    obtain ⟨handle, hfind, hpath⟩ :=
      h entry.1 entry.2 ((node.fileHandles.find_eq_some_iff entry.1 entry.2).2 hentry)
    rw [Function.comp_apply, pathOf, hfind]
    exact hpath.symm
  rw [hpaths]
  exact node.fileHandles.keys_nodup

/-- What was used under the paths of some handles is missing afterwards, if nothing else grows. -/
theorem Shrinks.freed (h : Shrinks node node') (hpath : node.AtOwnPath) {ids : List Nat}
    (hids : ids ⊆ node.allFileHandles) (hnodup : ids.Nodup)
    (hgone : ∀ id ∈ ids, node'.usedAt (node.pathOf id) = 0) :
    node'.bytesReached + (ids.map (node.bytesBehind node.depth)).sum ≤ node.bytesReached := by
  let paths := (node.fileHandles.keys ++ node'.fileHandles.keys).toFinset
  have hused : node.bytesReached = ∑ path ∈ paths, node.usedAt path := by
    apply bytesReached_eq_sum_usedAt
    intro path id hfind
    exact List.mem_toFinset.2 (List.mem_append_left _
      ((node.fileHandles.mem_keys_iff path).2 ⟨id, hfind⟩))
  have hused' : node'.bytesReached = ∑ path ∈ paths, node'.usedAt path := by
    apply bytesReached_eq_sum_usedAt
    intro path id hfind
    exact List.mem_toFinset.2 (List.mem_append_right _
      ((node'.fileHandles.mem_keys_iff path).2 ⟨id, hfind⟩))
  have hfreed : (ids.map (node.bytesBehind node.depth)).sum =
      ∑ path ∈ (ids.map node.pathOf).toFinset, node.usedAt path := by
    have hinjective : (ids.map node.pathOf).Nodup := by
      apply hnodup.map_on
      intro id hid other hother hsame
      obtain ⟨-, -, -, hfind⟩ := hpath.find_pathOf (hids hid)
      obtain ⟨-, -, -, hfind'⟩ := hpath.find_pathOf (hids hother)
      exact Option.some.inj (hfind.symm.trans (hsame ▸ hfind'))
    rw [List.sum_toFinset _ hinjective, List.map_map]
    congr 1
    apply List.map_congr_left
    intro id hid
    obtain ⟨-, -, -, hfind⟩ := hpath.find_pathOf (hids hid)
    exact (usedAt_of_some hfind).symm
  have hsubset : (ids.map node.pathOf).toFinset ⊆ paths := by
    intro path hmem
    obtain ⟨id, hid, rfl⟩ := List.mem_map.1 (List.mem_toFinset.1 hmem)
    obtain ⟨-, -, -, hfind⟩ := hpath.find_pathOf (hids hid)
    exact List.mem_toFinset.2 (List.mem_append_left _
      ((node.fileHandles.mem_keys_iff _).2 ⟨id, hfind⟩))
  have hzero : ∑ path ∈ (ids.map node.pathOf).toFinset, node'.usedAt path = 0 := by
    apply Finset.sum_eq_zero
    intro path hmem
    obtain ⟨id, hid, rfl⟩ := List.mem_map.1 (List.mem_toFinset.1 hmem)
    exact hgone id hid
  rw [hused, hused', hfreed, ← Finset.sum_sdiff hsubset, hzero, Nat.add_zero,
    ← Finset.sum_sdiff hsubset]
  exact Nat.add_le_add_right (Finset.sum_le_sum fun path _ => h.used path) _

theorem storageUsed_gather (view : Nat → HandleView) :
    (node.gather view).storageUsed = node.storageUsed := by
  rw [gather, MonitorCycle.storageUsed_gather, allFileHandles, List.foldl_map]
  rfl

theorem relocateBytes_eq (view : Nat → HandleView) (ids : List Nat) :
    MonitorCycle.relocateBytes (node.answers view) ids =
      UInt64.ofNat (ids.map (node.bytesBehind node.depth)).sum := by
  rw [MonitorCycle.relocateBytes]
  simp only [answers, localStorageSize_eq]
  exact (foldl_add_ofNat (node.bytesBehind node.depth) ids 0).trans (by rw [Nat.zero_add])

/-- Registered handles are small if all of them together are. -/
theorem AtOwnPath.small (h : node.AtOwnPath) (hsmall : node.bytesReached < 2 ^ 64) {id : Nat}
    (hid : id ∈ node.allFileHandles) : node.Small id := by
  obtain ⟨handle, hfind, -, -⟩ := h.find_pathOf hid
  obtain ⟨entry, hentry, rfl⟩ := List.mem_map.1 hid
  refine ⟨⟨handle, hfind⟩, lt_of_le_of_lt ?_ hsmall⟩
  rw [bytesReached_eq]
  exact List.le_sum_of_mem
    (List.mem_map_of_mem (f := fun entry => node.bytesBehind node.depth entry.2) hentry)

/-- A round on any state that a node can reach, with its tasks in any order and whatever comes
of each of them: under no path more is used than before, and what was behind the handles whose
relocation succeeded is gone.  If all succeed the storage is below its target afterwards, or
there was nothing else to relocate. -/
theorem round_frees (cacheObjectsFromS3 : Bool) (cacheBlockSize : Nat) (pathPrefix : Bytes)
    (events : List StorageEvent) (view : Nat → HandleView) (targetStorage : UInt64)
    {sorted done : List Nat}
    (hnode : (new cacheObjectsFromS3 cacheBlockSize pathPrefix).run events = node)
    (hsmall : node.bytesReached < 2 ^ 64)
    (hsorts : MonitorCycle.Sorts (node.answers view) (node.gather view).relocatable sorted)
    (hdone : done.Perm (node.tasks view targetStorage sorted)) :
    (∀ path, (node.relocateAll outcome done).usedAt path ≤ node.usedAt path) ∧
      (node.relocateAll outcome done).bytesReached +
        ((done.filter fun id => (outcome id).succeeds).map
          (node.bytesBehind node.depth)).sum ≤ node.bytesReached ∧
      ((∀ id ∈ done, (outcome id).succeeds = true) → targetStorage < node.storageUsed →
        (node.relocateAll outcome done).storageUsed < targetStorage ∨
          done.Perm (node.gather view).relocatable) := by
  have hsound : node.Sound False := hnode ▸
    (Sound.new cacheObjectsFromS3 cacheBlockSize pathPrefix).run False.elim List.prefix_rfl
  have hpath : node.AtOwnPath := hnode ▸
    (AtOwnPath.new cacheObjectsFromS3 cacheBlockSize pathPrefix).run
      (Sound.new cacheObjectsFromS3 cacheBlockSize pathPrefix) events
  have hchosen := @MonitorCycle.tasks_isPrefix _ (node.answers view)
    (node.gather view).storageUsed targetStorage sorted
  have hmem : done ⊆ node.allFileHandles := by
    intro id hid
    have hgathered := hsorts.perm.subset (hchosen.subset (hdone.subset hid))
    rw [gather, MonitorCycle.relocatable_gather] at hgathered
    exact List.mem_of_mem_filter hgathered
  have hnodup : done.Nodup := by
    rw [hdone.nodup_iff]
    refine List.Nodup.sublist hchosen.sublist (hsorts.perm.nodup_iff.2 ?_)
    rw [gather, MonitorCycle.relocatable_gather]
    exact hpath.nodup_allFileHandles.filter _
  have hsmalls : ∀ id ∈ done, node.Small id := fun id hid => hpath.small hsmall (hmem hid)
  have hshrinks := @Sound.shrinks_relocateAll _ outcome hsound done hsmalls
  have hfreed : (node.relocateAll outcome done).bytesReached +
      ((done.filter fun id => (outcome id).succeeds).map
        (node.bytesBehind node.depth)).sum ≤ node.bytesReached := by
    apply hshrinks.freed hpath (fun id hid => hmem (List.mem_of_mem_filter hid))
      (hnodup.filter _)
    intro id hid
    obtain ⟨hid, hsucceeds⟩ := List.mem_filter.1 hid
    obtain ⟨handle, hfind, hown, hregistered⟩ := hpath.find_pathOf (hmem hid)
    rw [hown] at hregistered ⊢
    exact hsound.gone_relocateAll Shrinks.refl hfind hregistered hsucceeds hsmalls hid
  refine ⟨hshrinks.used, hfreed, fun hall hover => ?_⟩
  rw [List.filter_eq_self.2 hall] at hfreed
  obtain ⟨chosen, left, hsorted, htasks, -, -, -, henough, -⟩ :=
    MonitorCycle.spills node.allFileHandles targetStorage hsorts
  have hperm : done.Perm chosen := htasks ▸ hdone
  have hsum := (hperm.map (node.bytesBehind node.depth)).sum_nat
  have hused := toNat_storageUsed hsmall
  have hused' : (node.relocateAll outcome done).storageUsed.toNat =
      (node.relocateAll outcome done).bytesReached := toNat_storageUsed (by omega)
  have hbytes : (MonitorCycle.relocateBytes (node.answers view) chosen).toNat =
      (chosen.map (node.bytesBehind node.depth)).sum := by
    rw [relocateBytes_eq, UInt64.toNat_ofNat_of_lt']
    exact lt_of_le_of_lt (by omega) hsmall
  rw [show (MonitorCycle.gather (node.answers view) node.allFileHandles).storageUsed =
    node.storageUsed from storageUsed_gather view] at henough
  rcases henough hover with hnil | hexceeds
  · rw [hnil, List.append_nil] at hsorted
    exact Or.inr (hperm.trans (hsorted ▸ hsorts.perm))
  · have hexceeds := UInt64.lt_iff_toNat_lt.1 hexceeds
    rw [UInt64.toNat_sub_of_le _ _ (UInt64.le_of_lt hover), hbytes, hused] at hexceeds
    have hover := UInt64.lt_iff_toNat_lt.1 hover
    exact Or.inl (UInt64.lt_iff_toNat_lt.2 (by omega))

namespace Sample

/-- Handles that were closed at once. -/
def closed : Nat → HandleView := fun _ => ⟨0, 0, true, 0⟩

/-- The file that was written is relocated. -/
theorem writing_spilled : (((new true 4 (text "/tmp")).run writing).relocateAll
    (fun _ => .ran true true fun _ => true) [0]).bytesReached + 4 ≤ 4 := by
  have hround := @round_frees ((new true 4 (text "/tmp")).run writing)
    (fun _ => .ran true true fun _ => true) true 4 (text "/tmp") writing closed 2 [0] [0] rfl
    (by decide +kernel) ⟨List.Perm.of_eq (by decide +kernel), List.pairwise_singleton _ 0⟩
    (List.Perm.of_eq (by decide +kernel))
  have hused : ((new true 4 (text "/tmp")).run writing).bytesReached = 4 := by decide +kernel
  have hsize : ((new true 4 (text "/tmp")).run writing).bytesBehind
      ((new true 4 (text "/tmp")).run writing).depth 0 = 4 := by decide +kernel
  have hfreed := hround.2.1
  rw [hused] at hfreed
  simpa [RelocationOutcome.succeeds, hsize] using hfreed

end Sample

end Rounds

end StorageNode

end GEDS
