/-
What keeps the storage that is added up right: in which runs the monitoring loop comes to
every local file with bytes in it in one way only.
-/
import GEDS.StorageNesting

namespace GEDS

open SharedParts
open LocalFile.Posix (FileCall InStep Confined perform_confined perform_becomes)

namespace StorageNode

variable {node : StorageNode} {counted : Prop}

section Events

variable {id : Nat} {handle : StorageHandle}

theorem Sound.new (cacheObjectsFromS3 : Bool) (cacheBlockSize : Nat) (pathPrefix : Bytes) :
    (new cacheObjectsFromS3 cacheBlockSize pathPrefix).Sound counted := by
  have hfind : ∀ {id handle},
      (StorageNode.new cacheObjectsFromS3 cacheBlockSize pathPrefix).handles.find id ≠
        some handle := by
    intro id handle hfind
    cases hfind
  have hfile : ∀ {id file},
      (StorageNode.new cacheObjectsFromS3 cacheBlockSize pathPrefix).localFile id ≠ some file := by
    intro id file hfile
    cases hfile
  refine ⟨⟨fun hid => absurd hid hfind, fun hid _ => absurd hid hfind, fun hentry => ?_⟩,
    fun _ id _ => Nat.zero_le 1, fun _ => ⟨fun hid => absurd hid hfile,
      fun hid _ => absurd hid hfile, fun hid => absurd hid hfile⟩⟩
  exact absurd hentry List.not_mem_nil

/-- No handle has the file that the path leads to. -/
def Free (node : StorageNode) (path : Bytes) : Prop :=
  ∀ id file, node.localFile id = some file → node.files.links.find path ≠ some file.inode

theorem Apart.openFile (h : node.Apart) {path : Bytes} (hfree : node.Free path) :
    { node with files := (node.files.openFile path true).2 }.Apart := by
  refine h.of_fewer (fun hfile => hfile) (fun hfile => ?_) FileSystem.next_le_openFile
  exact FileSystem.content_openFile_of_ne (h.used hfile) (hfree _ _ hfile)

/-- A handle for a file that was opened and that no other handle has. -/
theorem Apart.addFile (h : node.Apart) {bucket key path : Bytes} (hfree : node.Free path) :
    ({ node with files := (node.files.openFile path true).2 }.addHandle
      ⟨bucket, key, .localFile ⟨path, (node.files.openFile path true).1, 0⟩⟩).2.Apart := by
  have hopened := h.openFile hfree
  have hcases : ∀ {id file}, ({ node with files := (node.files.openFile path true).2 }.addHandle
      ⟨bucket, key, .localFile ⟨path, (node.files.openFile path true).1, 0⟩⟩).2.localFile id =
        some file → id = node.nextHandle ∧ file = ⟨path, (node.files.openFile path true).1, 0⟩ ∨
          node.localFile id = some file := by
    intro id file hfile
    rw [localFile_addHandle] at hfile
    split_ifs at hfile with hid
    · exact Or.inl ⟨hid, (Option.some.inj hfile).symm⟩
    · exact Or.inr hfile
  have hne : ∀ {id file}, node.localFile id = some file →
      (node.files.openFile path true).1 ≠ file.inode := fun hfile =>
    FileSystem.fst_openFile_ne (h.used hfile) (hfree _ _ hfile)
  refine ⟨fun hfile => ?_, fun hfile hfile' hsame => ?_, fun hfile => ?_⟩
  · rcases hcases hfile with ⟨-, rfl⟩ | hold
    · have hlength : ((node.files.openFile path true).2.content
          (node.files.openFile path true).1).length = 0 :=
        congrArg List.length FileSystem.content_openFile_truncated
      exact ⟨hlength.symm, hlength.trans_lt (Nat.two_pow_pos 63)⟩
    · exact hopened.inStep hold
  · rcases hcases hfile with ⟨rfl, rfl⟩ | hold <;> rcases hcases hfile' with ⟨rfl, rfl⟩ | hold'
    · rfl
    · exact absurd hsame (hne hold')
    · exact absurd hsame.symm (hne hold)
    · exact h.alone hold hold' hsame
  · rcases hcases hfile with ⟨-, rfl⟩ | hold
    · exact FileSystem.fst_openFile_lt
    · exact hopened.used hold

theorem Sound.openFile (h : node.Sound counted) {path : Bytes}
    (hfree : counted → node.Free path) :
    { node with files := (node.files.openFile path true).2 }.Sound counted :=
  ⟨⟨h.known, h.parts, h.registered⟩, h.once,
    fun hcounted => (h.apart hcounted).openFile (hfree hcounted)⟩

theorem Sound.addFile (h : node.Sound counted) (bucket key : Bytes) {path : Bytes}
    (hfree : counted → node.Free path) :
    ({ node with files := (node.files.openFile path true).2 }.addHandle
        ⟨bucket, key, .localFile ⟨path, (node.files.openFile path true).1, 0⟩⟩).2.Sound counted ∧
      ({ node with files := (node.files.openFile path true).2 }.addHandle
        ⟨bucket, key, .localFile ⟨path, (node.files.openFile path true).1, 0⟩⟩).2.Empty
          node.nextHandle := by
  have hsize : ({ node with files := (node.files.openFile path true).2 }.addHandle
      ⟨bucket, key, .localFile ⟨path, (node.files.openFile path true).1, 0⟩⟩).2.fileSize
        node.nextHandle = 0 := by
    rw [fileSize, localFile_addHandle, if_pos rfl]
    rfl
  refine ⟨(h.openFile hfree).addHandle (fun part hpart => absurd hpart List.not_mem_nil) hsize
    fun hcounted => (h.apart hcounted).addFile (hfree hcounted), empty_addHandle_next hsize rfl⟩

/-- A file is created at a path where no handle has one. -/
theorem Sound.createAsFileHandle (h : node.Sound counted) {bucket key : Bytes}
    (hfree : counted → node.Free (node.names.getLocalPath ⟨bucket, key⟩).1) (overwrite : Bool)
    (mkdirFault : Option Bytes) (opens : OpenResult) :
    (node.createAsFileHandle bucket key overwrite mkdirFault opens).Sound counted := by
  have hnamed : { node with
      names := (node.names.getLocalPath ⟨bucket, key⟩).2 }.Sound counted :=
    ⟨⟨h.known, h.parts, h.registered⟩, h.once, fun hcounted =>
      ⟨(h.apart hcounted).inStep, (h.apart hcounted).alone, (h.apart hcounted).used⟩⟩
  unfold StorageNode.createAsFileHandle
  cases mkdirFault with
  | some reason => exact hnamed
  | none =>
      cases opens with
      | openFailed reason => exact hnamed
      | fstatFailed reason => exact hnamed.openFile hfree
      | opened =>
          have hcontent := @FileSystem.content_openFile_truncated _ _ node.files
            (node.names.getLocalPath ⟨bucket, key⟩).1
          simp only [LocalFile.new, hcontent, List.length_nil]
          obtain ⟨hadded, hempty⟩ := hnamed.addFile bucket key hfree
          exact hadded.registerHandle find_addHandle_next (fun _ => hempty) overwrite

/-- What is reopened has no bytes on the disk yet. -/
theorem Sound.reopenFileHandle (h : node.Sound counted) (bucket key : Bytes)
    (location : ReopenLocation) {fileHandle : Nat} {reopened : StorageNode}
    (heq : node.reopenFileHandle bucket key location = (fileHandle, reopened)) :
    reopened.Sound counted ∧ reopened.Empty fileHandle ∧
      (∃ kind : StorageKind, kind.reopened = true ∧
        reopened.handles.find fileHandle = some ⟨bucket, key, kind⟩) ∧
      ∀ {id handle}, node.handles.find id = some handle →
        reopened.handles.find id = some handle := by
  have hadded : ∃ kind : StorageKind, kind.reopened = true ∧
      (⟨bucket, key, kind⟩ : StorageHandle).parts = [] ∧
      (⟨bucket, key, kind⟩ : StorageHandle).file = none ∧
      node.reopenFileHandle bucket key location = node.addHandle ⟨bucket, key, kind⟩ := by
    cases location with
    | geds => exact ⟨.remote, rfl, rfl, rfl, rfl⟩
    | s3 size =>
        rw [StorageNode.reopenFileHandle]
        split_ifs
        · exact ⟨.cached _, rfl, List.reduceOption_replicate_none, rfl, rfl⟩
        · exact ⟨.remote, rfl, rfl, rfl, rfl⟩
  obtain ⟨kind, hreopened, hparts, hfile, hkind⟩ := hadded
  obtain ⟨rfl, rfl⟩ := Prod.mk.inj (hkind.symm.trans heq)
  refine ⟨h.addOther (fun part hpart => ?_) hfile,
    empty_addHandle_next (fileSize_addHandle_next hfile) hparts,
    ⟨kind, hreopened, find_addHandle_next⟩, h.toNested.find_addHandle⟩
  rw [hparts] at hpart
  cases hpart

/-- A wrapper for a handle with no bytes behind it. -/
theorem Sound.wrap (h : node.Sound counted) {bucket key : Bytes} {kind : StorageKind}
    (hfind : node.handles.find id = some ⟨bucket, key, kind⟩) (hreopened : kind.reopened = true)
    (hempty : node.Empty id) :
    (node.addHandle ⟨bucket, key, .relocatable id⟩).2.Sound counted ∧
      (node.addHandle ⟨bucket, key, .relocatable id⟩).2.Empty node.nextHandle := by
  constructor
  · apply h.addOther _ rfl
    intro part hpart
    rw [List.mem_singleton.1 hpart]
    exact ⟨_, hfind, rfl, hreopened⟩
  · apply empty_of_parts (fileSize_addHandle_next rfl)
    · intro part hpart
      rw [parts_addHandle, if_pos rfl] at hpart
      rw [List.mem_singleton.1 hpart]
      exact h.toNested.empty_addHandle hfind hempty

theorem Sound.openAsFileHandle (h : node.Sound counted) (bucket key : Bytes)
    (location : Option ReopenLocation) :
    (node.openAsFileHandle bucket key location).Sound counted := by
  unfold StorageNode.openAsFileHandle
  cases node.fileHandles.get (getPath bucket key) with
  | some registered => exact h
  | none =>
      cases location with
      | none => exact h
      | some location =>
          obtain ⟨hreopened, hempty, ⟨kind, hkind, hfind⟩, -⟩ :=
            h.reopenFileHandle bucket key location rfl
          obtain ⟨hwrapped, hnone⟩ := hreopened.wrap hfind hkind hempty
          exact hwrapped.registerNew find_addHandle_next fun _ => hnone

theorem Sound.reopen (h : node.Sound counted) (id : Nat) (location : ReopenLocation) :
    (node.reopen id location).Sound counted := by
  rw [StorageNode.reopen]
  split
  next bucket key old hold =>
    rcases hreopen : node.reopenFileHandle bucket key location with ⟨newFh, reopened⟩
    obtain ⟨hreopened, hempty, ⟨kind, hkind, hfind⟩, hkept⟩ :=
      h.reopenFileHandle bucket key location hreopen
    refine hreopened.setKind_of_added (hkept hold) trivial (show _ = [] ++ _ :: [] from rfl)
      (List.nil_sublist _) (fun inner hholds => hholds) hfind ⟨rfl, hkind⟩ rfl
      fun hcounted met hmet => ?_
    rw [List.count_eq_zero.2 fun hwalk => hmet (hempty _ met hwalk), Nat.mul_zero, Nat.add_zero]
    exact hreopened.once hcounted met hmet
  next => exact h

/-- A handle has written its file: nobody else's file is another one. -/
theorem Apart.setFile (h : node.Apart) {bucket key : Bytes} {file file' : LocalFile}
    {files : FileSystem Bytes}
    (hfind : node.handles.find id = some ⟨bucket, key, .localFile file⟩)
    (hconfined : Confined file node.files file' files) (hstep : InStep file' files) :
    { node.setKind id (.localFile file') with files := files }.Apart := by
  have hfile : node.localFile id = some file := by
    rw [localFile, hfind]
    rfl
  have hcases : ∀ {other found}, (node.setKind id (.localFile file')).localFile other =
      some found → other = id ∧ found = file' ∨ other ≠ id ∧ node.localFile other = some found := by
    intro other found hfound
    rw [localFile_setKind hfind] at hfound
    split_ifs at hfound with hother
    · exact Or.inl ⟨hother, (Option.some.inj hfound).symm⟩
    · exact Or.inr ⟨hother, hfound⟩
  have hne : ∀ {other found}, other ≠ id → node.localFile other = some found →
      found.inode ≠ file.inode := fun hother hfound hsame =>
    hother (h.alone hfound hfile hsame)
  refine ⟨fun hfound => ?_, fun hfirst hsecond hsame => ?_, fun hfound => ?_⟩
  · rcases hcases hfound with ⟨-, rfl⟩ | ⟨hother, hold⟩
    · exact hstep
    · obtain ⟨hsize, hbounded⟩ := h.inStep hold
      have hcontent := hconfined.others _ (hne hother hold)
      exact ⟨hcontent ▸ hsize, hcontent ▸ hbounded⟩
  · rcases hcases hfirst with ⟨rfl, rfl⟩ | ⟨hother, hold⟩ <;>
      rcases hcases hsecond with ⟨rfl, rfl⟩ | ⟨hother', hold'⟩
    · rfl
    · exact absurd (hsame.symm.trans hconfined.inode_eq) (hne hother' hold')
    · exact absurd (hsame.trans hconfined.inode_eq) (hne hother hold)
    · exact h.alone hold hold' hsame
  · rcases hcases hfound with ⟨-, rfl⟩ | ⟨-, hold⟩
    · rw [hconfined.inode_eq, hconfined.next_eq]
      exact h.used hfile
    · rw [hconfined.next_eq]
      exact h.used hold

/-- A write changes one file, and only the handle of that file knows another size. -/
theorem Sound.fileCall (h : node.Sound counted) {call : FileCall}
    (hharmless : counted → ∀ file, node.localFile id = some file →
      (call.perform file node.files).1.ok = true ∧
        ((call.perform file node.files).2.1.size = 0 ∨ node.reached.count id ≤ 1)) :
    (node.fileCall id call).Sound counted := by
  rw [StorageNode.fileCall]
  split
  next bucket key file hfind =>
    have hfile : node.localFile id = some file := by
      rw [localFile, hfind]
      rfl
    have hconfined := perform_confined file node.files call
    have hnested : (node.setKind id (.localFile (call.perform file node.files).2.1)).Nested :=
      h.toNested.setKind hfind trivial fun part hpart => absurd hpart List.not_mem_nil
    have hreached : (node.setKind id (.localFile (call.perform file node.files).2.1)).reached =
        node.reached := by
      rw [reached_setKind hfind]
      apply List.flatMap_congr
      intro entry _
      apply walk_congr
      intro met _
      rw [parts_setKind hfind]
      split_ifs with hmet
      · rw [hmet, parts, hfind]
        rfl
      · rfl
    refine ⟨⟨hnested.known, hnested.parts, hnested.registered⟩, fun hcounted other hother => ?_,
      fun hcounted => ?_⟩
    · obtain ⟨-, honce⟩ := hharmless hcounted file hfile
      change (node.setKind id (.localFile (call.perform file node.files).2.1)).fileSize other ≠ 0
        at hother
      change (node.setKind id (.localFile (call.perform file node.files).2.1)).reached.count
        other ≤ 1
      rw [hreached]
      rw [fileSize, localFile_setKind hfind] at hother
      by_cases hid : other = id
      · rw [if_pos hid] at hother
        rw [hid]
        exact honce.resolve_left fun hzero => hother (congrArg UInt64.toNat hzero)
      · rw [if_neg hid] at hother
        exact h.once hcounted other hother
    · obtain ⟨hok, -⟩ := hharmless hcounted file hfile
      exact (h.apart hcounted).setFile hfind hconfined
        (perform_becomes ((h.apart hcounted).inStep hfile) hok).inStep
  next => exact h

theorem length_lt_cacheKey (key : Bytes) (idx : UInt64) :
    key.length < (cacheKey key idx).length := by
  have hunderscore : (text "_").length = 1 := by decide
  rw [cacheKey, List.length_append, List.length_append, List.length_append, hunderscore]
  omega

/-- One slot of the blocks changes. -/
theorem reduceOption_set {blocks : List (Option Nat)} {idx : Nat} (hidx : idx < blocks.length)
    (slot : Option Nat) : ∃ front back, (front ++ back).Sublist blocks.reduceOption ∧
      (blocks.set idx slot).reduceOption = front ++ (slot.toList ++ back) := by
  refine ⟨(blocks.take idx).reduceOption, (blocks.drop (idx + 1)).reduceOption, ?_, ?_⟩
  · rw [← List.reduceOption_append]
    apply List.Sublist.filterMap
    conv_rhs => rw [← List.take_append_drop idx blocks]
    exact (List.Sublist.refl _).append (List.drop_sublist_drop_left blocks (Nat.le_succ idx))
  · rw [List.set_eq_take_append_cons_drop, if_pos hidx, List.reduceOption_append]
    cases slot with
    | none => rw [List.reduceOption_cons_of_none, Option.toList_none, List.nil_append]
    | some block => rw [List.reduceOption_cons_of_some, Option.toList_some, List.singleton_append]

/-- A block is stored that adds no second way to a file. -/
theorem Sound.storeBlock (h : node.Sound counted) {idx : UInt64} {block : Nat}
    (honce : counted → ∀ met, node.fileSize met ≠ 0 → node.reached.count met +
      node.reached.count id * (walk node.parts node.depth block).count met ≤ 1) :
    (node.storeBlock id idx block).Sound counted := by
  rw [StorageNode.storeBlock]
  split
  next bucket key blocks file hfind hfile =>
    split_ifs with hkey
    · by_cases hidx : idx.toNat < blocks.length
      · obtain ⟨front, back, hkept, hparts⟩ := reduceOption_set hidx (some block)
        refine h.setKind_of_added hfind trivial hparts hkept (fun inner hold => hold) hfile ?_ rfl
          honce
        change key.length < file.key.length
        rw [hkey.2]
        exact length_lt_cacheKey key idx
      · rw [List.set_eq_of_length_le (Nat.le_of_not_lt hidx)]
        exact h.setKind_of_sublist hfind trivial rfl (List.Sublist.refl _) fun inner hold => hold
    · exact h
  next => exact h

theorem Sound.purgeBlock (h : node.Sound counted) (id : Nat) (idx : UInt64) (block : Nat) :
    (node.purgeBlock id idx block).Sound counted := by
  rw [StorageNode.purgeBlock]
  split
  next bucket key blocks hfind =>
    split_ifs with hslot
    · obtain ⟨hidx, -⟩ := List.getElem?_eq_some_iff.1 hslot
      obtain ⟨front, back, hkept, hparts⟩ := reduceOption_set hidx none
      refine h.setKind_of_sublist hfind trivial rfl ?_ fun inner hold => hold
      change (blocks.set idx.toNat none).reduceOption.Sublist blocks.reduceOption
      rw [hparts]
      exact hkept
    · exact h
  next => exact h

theorem Sound.deleteObject (h : node.Sound counted) (bucket key : Bytes) :
    (node.deleteObject bucket key).Sound counted :=
  h.unregister (remove_sublist _ _)

/-- Deleting the objects of blocks changes the registry only. -/
theorem deleteBlocks_eq (deleted : Nat → Bool) (blocks : List Nat) (node : StorageNode) :
    ∃ fileHandles, deleteBlocks deleted blocks node = { node with fileHandles := fileHandles } ∧
      fileHandles.entries.Sublist node.fileHandles.entries := by
  induction blocks generalizing node with
  | nil => exact ⟨node.fileHandles, rfl, List.Sublist.refl _⟩
  | cons block rest ih =>
      rw [deleteBlocks]
      cases node.handles.find block with
      | none => exact ih node
      | some file =>
          dsimp only
          split_ifs
          · obtain ⟨fileHandles, heq, hfewer⟩ := ih (node.deleteObject file.bucket file.key)
            exact ⟨fileHandles, heq, hfewer.trans (remove_sublist _ _)⟩
          · exact ih node

theorem reduceOption_map_filter (keep : Nat → Bool) (blocks : List (Option Nat)) :
    (blocks.map fun block => block.filter keep).reduceOption =
      blocks.reduceOption.filter keep := by
  induction blocks with
  | nil => rfl
  | cons block rest ih =>
      cases block with
      | none => exact ih
      | some block =>
          rw [List.map_cons, Option.filter_some, List.reduceOption_cons_of_some, List.filter_cons]
          split_ifs
          · rw [List.reduceOption_cons_of_some, ih]
          · rw [List.reduceOption_cons_of_none, ih]

/-- A cached handle keeps only blocks that say they have no bytes, and have none if no size has
wrapped. -/
theorem Sound.keepEmpty (h : node.Sound counted) {bucket key : Bytes}
    {blocks kept : List (Option Nat)}
    (hfind : node.handles.find id = some ⟨bucket, key, .cached blocks⟩)
    (hkept : kept.reduceOption.Sublist blocks.reduceOption)
    (hsize : ∀ block ∈ kept.reduceOption, node.localStorageSize node.depth block = 0) :
    (node.setKind id (.cached kept)).Sound counted ∧
      (node.bytesBehind node.depth id < 2 ^ 64 → (node.setKind id (.cached kept)).Empty id) := by
  have hsound : (node.setKind id (.cached kept)).Sound counted :=
    h.setKind_of_sublist hfind trivial rfl hkept fun inner hold => hold
  refine ⟨hsound, fun hsmall => empty_of_parts ?_ fun part hpart depth met hmet => ?_⟩
  · rw [fileSize, localFile_setKind hfind, if_pos rfl]
    rfl
  · rw [walk_part_setKind hsound.toNested hfind hpart] at hmet
    rw [parts_setKind hfind, if_pos rfl] at hpart
    have hpart' : part ∈ node.parts id := by
      rw [parts, hfind]
      exact hkept.subset hpart
    have hpartSmall := (h.toNested.bytesBehind_part_le hpart').trans_lt hsmall
    rw [@fileSize_setKind_other _ _ _ (.cached kept) hfind trivial rfl]
    exact h.toNested.empty_of_size hpartSmall (hsize part hpart) depth met hmet

/-- After a purge nothing with bytes is behind the handle, unless a size has wrapped, and other
handles stay. -/
theorem Sound.purge (h : node.Sound counted) (hfind : node.handles.find id = some handle)
    (hreopened : handle.kind.reopened = true) (deleted : Nat → Bool) :
    (node.purge id deleted).Sound counted ∧
      (node.bytesBehind node.depth id < 2 ^ 64 → (node.purge id deleted).Empty id) ∧
      (∃ handle, (node.purge id deleted).handles.find id = some handle) ∧
      ∀ other, other ≠ id →
        (node.purge id deleted).handles.find other = node.handles.find other := by
  obtain ⟨bucket, key, kind⟩ := handle
  rw [StorageNode.purge, hfind]
  cases kind with
  | localFile size => cases hreopened
  | relocatable fileHandle => cases hreopened
  | remote =>
      refine ⟨h, fun _ => empty_of_parts ?_ fun part hpart => ?_, ⟨_, hfind⟩, fun other _ => rfl⟩
      · rw [fileSize, localFile, hfind]
        rfl
      · rw [parts, hfind] at hpart
        cases hpart
  | cached blocks =>
      dsimp only
      generalize hkept : (blocks.map fun block => block.filter fun block =>
        !decide (node.localStorageSize node.depth block ≠ 0)) = kept
      have hparts : kept.reduceOption = blocks.reduceOption.filter fun block =>
          !decide (node.localStorageSize node.depth block ≠ 0) := by
        rw [← hkept, reduceOption_map_filter]
      have hsublist : kept.reduceOption.Sublist blocks.reduceOption := by
        rw [hparts]
        exact List.filter_sublist
      obtain ⟨hsound, hempty⟩ := h.keepEmpty hfind hsublist fun block hblock => by
        rw [hparts, List.mem_filter] at hblock
        simpa using hblock.2
      obtain ⟨fileHandles, heq, hfewer⟩ := deleteBlocks_eq deleted
        (blocks.reduceOption.filter fun block =>
          decide (node.localStorageSize node.depth block ≠ 0)) (node.setKind id (.cached kept))
      rw [heq]
      refine ⟨hsound.unregister hfewer, hempty, ?_, fun other hother => ?_⟩
      · rw [setKind_of_find hfind]
        exact ⟨_, AssocMap.find_insert_self _ _ _⟩
      · rw [setKind_of_find hfind]
        exact AssocMap.find_insert_of_ne _ hother _

/-- A wrapper holds no local file, so relocating it is a purge. -/
theorem Sound.relocateWrapped (h : node.Sound counted) {bucket key : Bytes} {fileHandle : Nat}
    (hfind : node.handles.find id = some ⟨bucket, key, .relocatable fileHandle⟩) (stored : Bool)
    (deleted : Nat → Bool) :
    (node.relocateWrapped id fileHandle stored deleted).Sound counted ∧
      (node.bytesBehind node.depth id < 2 ^ 64 →
        (node.relocateWrapped id fileHandle stored deleted).Empty id) ∧
      ∃ handle, (node.relocateWrapped id fileHandle stored deleted).handles.find id =
        some handle := by
  obtain ⟨⟨innerBucket, innerKey, kind⟩, hinner, -, hreopened⟩ :=
    h.parts hfind (List.mem_singleton_self fileHandle)
  have hne : id ≠ fileHandle := by
    rintro rfl
    rw [hfind] at hinner
    obtain ⟨rfl, rfl, rfl⟩ := StorageHandle.mk.inj (Option.some.inj hinner)
    cases hreopened
  have hpurge : node.relocateWrapped id fileHandle stored deleted =
      node.purge fileHandle deleted := by
    rw [StorageNode.relocateWrapped, hinner]
    cases kind with
    | localFile size => cases hreopened
    | remote => rfl
    | relocatable inner => rfl
    | cached blocks => rfl
  obtain ⟨hsound, hempty, -, hothers⟩ := h.purge hinner hreopened deleted
  have hwrapper := (hothers id hne).trans hfind
  rw [hpurge]
  refine ⟨hsound, fun hsmall => empty_of_parts ?_ fun part hpart => ?_, ⟨_, hwrapper⟩⟩
  · rw [fileSize, localFile, hwrapper]
    rfl
  · have hpart' : fileHandle ∈ node.parts id := by
      rw [StorageNode.parts, hfind]
      exact List.mem_singleton_self fileHandle
    rw [StorageNode.parts, hwrapper] at hpart
    rw [List.mem_singleton.1 hpart]
    exact hempty ((h.toNested.bytesBehind_part_le hpart').trans_lt hsmall)

theorem Sound.relocate (h : node.Sound counted) {id : Nat}
    (hsmall : counted → node.bytesBehind node.depth id < 2 ^ 64) (unused stored : Bool)
    (deleted : Nat → Bool) : (node.relocate id unused stored deleted).Sound counted := by
  rw [StorageNode.relocate]
  cases hfind : node.handles.find id with
  | none => exact h
  | some handle =>
      obtain ⟨bucket, key, kind⟩ := handle
      dsimp only
      by_cases hregistered : node.fileHandles.get (getPath bucket key) = none
      · rw [if_pos hregistered]
        exact h
      rw [if_neg hregistered]
      by_cases hblock : cacheBlockMarker.isPrefixOf key = true
      · rw [if_pos hblock]
        exact h.unregister (removeIf_sublist _ _ _)
      · rw [if_neg hblock]
        cases kind with
        | localFile size =>
            dsimp only
            split_ifs
            · have hadded : (node.addHandle ⟨bucket, key, .remote⟩).2.Sound counted :=
                h.addOther (fun part hpart => absurd hpart List.not_mem_nil) rfl
              exact hadded.register find_addHandle_next fun _ =>
                empty_addHandle_next (fileSize_addHandle_next rfl) rfl
            · exact h
        | remote => exact h
        | relocatable fileHandle =>
            obtain ⟨hsound, hempty, wrapper, hwrapper⟩ :=
              h.relocateWrapped hfind stored deleted
            exact hsound.register hwrapper fun hcounted => hempty (hsmall hcounted)
        | cached blocks =>
            obtain ⟨hsound, hempty, ⟨purged, hpurged⟩, -⟩ := h.purge hfind rfl deleted
            exact hsound.register hpurged fun hcounted => hempty (hsmall hcounted)

/-- What an event may do to the files: a file is created where no handle has one, a write
succeeds and goes to a file that is reached in one way at most, the files with bytes behind a
block that is stored are not reached in another way, and no size of a handle that is relocated
has wrapped. -/
def Harmless (node : StorageNode) : StorageEvent → Prop
  | .createAsFileHandle bucket key _ _ _ => node.Free (node.names.getLocalPath ⟨bucket, key⟩).1
  | .fileCall id call => ∀ file, node.localFile id = some file →
      (call.perform file node.files).1.ok = true ∧
        ((call.perform file node.files).2.1.size = 0 ∨ node.reached.count id ≤ 1)
  | .storeBlock id _ block => ∀ met, node.fileSize met ≠ 0 → node.reached.count met +
      node.reached.count id * (walk node.parts node.depth block).count met ≤ 1
  | .relocate id _ _ _ => node.bytesBehind node.depth id < 2 ^ 64
  | _ => True

theorem Sound.perform (h : node.Sound counted) {event : StorageEvent}
    (hharmless : counted → node.Harmless event) : (node.perform event).Sound counted := by
  cases event with
  | createAsFileHandle bucket key overwrite mkdirFault opens =>
      exact h.createAsFileHandle hharmless overwrite mkdirFault opens
  | openAsFileHandle bucket key location => exact h.openAsFileHandle bucket key location
  | reopen id location => exact h.reopen id location
  | fileCall id call => exact h.fileCall hharmless
  | storeBlock id idx block => exact h.storeBlock hharmless
  | purgeBlock id idx block => exact h.purgeBlock id idx block
  | removeIf path id => exact h.unregister (removeIf_sublist _ _ _)
  | deleteObject bucket key => exact h.deleteObject bucket key
  | deleteObjectPrefix keyPrefix => exact h.unregister (removeRange_sublist _ _)
  | relocate id unused stored deleted => exact h.relocate hharmless unused stored deleted
  | destroy id => exact h.destroy id
  | stop => exact h.unregister (List.nil_sublist _)

end Events

section Runs

theorem run_append_singleton (start : StorageNode) (events : List StorageEvent)
    (event : StorageEvent) : start.run (events ++ [event]) = (start.run events).perform event := by
  rw [run, List.foldl_append]
  rfl

/-- Every step of the run is harmless in the state before it. -/
def HarmlessRun (start : StorageNode) (events : List StorageEvent) : Prop :=
  ∀ before event, before ++ [event] <+: events → (start.run before).Harmless event

theorem Sound.run {start : StorageNode} (h : start.Sound counted) {events : List StorageEvent}
    (hharmless : counted → start.HarmlessRun events) {reached : List StorageEvent}
    (hreached : reached <+: events) : (start.run reached).Sound counted := by
  -- From the back: the last event finds the state that the others led to.
  induction reached using List.reverseRecOn with
  | nil => exact h
  | append_singleton before event ih =>
      have hbefore := ih ((List.prefix_append before [event]).trans hreached)
      rw [run_append_singleton]
      exact hbefore.perform fun hcounted => hharmless hcounted before event hreached

/-- Files that are apart have the sizes that their handles know. -/
theorem Apart.sizesKnown (h : node.Apart) : node.SizesKnown :=
  fun _ _ hfile => (h.inStep hfile).size_eq

/-- A file of one handle is reached as often as the handle. -/
theorem Sound.reachedOnce (h : node.Sound True) : node.ReachedOnce := by
  intro inode hlength
  rw [backingFiles, List.count_filterMap]
  by_cases hmet : ∃ id file, node.localFile id = some file ∧ file.inode = inode
  · obtain ⟨id, file, hfile, rfl⟩ := hmet
    have hsize : node.fileSize id ≠ 0 := by
      rw [fileSize, hfile]
      change file.size.toNat ≠ 0
      rw [(h.apart trivial).sizesKnown id file hfile]
      exact hlength
    refine le_trans ?_ (h.once trivial id hsize)
    apply List.countP_mono_left
    intro other _ hother
    obtain ⟨file', hfile', hsame⟩ := Option.map_eq_some_iff.1 (eq_of_beq hother)
    exact beq_iff_eq.2 ((h.apart trivial).alone hfile' hfile hsame)
  · rw [List.countP_eq_zero.2]
    · exact Nat.zero_le 1
    · intro id _ hid
      obtain ⟨file, hfile, hsame⟩ := Option.map_eq_some_iff.1 (eq_of_beq hid)
      exact hmet ⟨id, file, hfile, hsame⟩

/-- Whatever happens, the calls of `localStorageSize` come to their end. -/
theorem run_finishes (cacheObjectsFromS3 : Bool) (cacheBlockSize : Nat) (pathPrefix : Bytes)
    (events : List StorageEvent) :
    ((new cacheObjectsFromS3 cacheBlockSize pathPrefix).run events).Finishes :=
  ((Sound.new cacheObjectsFromS3 cacheBlockSize pathPrefix).run False.elim
    List.prefix_rfl).toNested.finishes

/-- In every state of a run the calls of the monitoring loop come to their end.  As long as the
handles know the sizes of their files and the bytes on all ways fit a word, the loop adds up the
sizes of the distinct files exactly if none with bytes is reached in two ways.  In a run of
harmless steps it does whenever these sizes fit a word. -/
theorem run_storageUsed (cacheObjectsFromS3 : Bool) (cacheBlockSize : Nat) (pathPrefix : Bytes)
    (events : List StorageEvent) :
    (∀ reached, reached <+: events →
      ((new cacheObjectsFromS3 cacheBlockSize pathPrefix).run reached).Finishes ∧
        (((new cacheObjectsFromS3 cacheBlockSize pathPrefix).run reached).SizesKnown →
          ((new cacheObjectsFromS3 cacheBlockSize pathPrefix).run reached).bytesReached < 2 ^ 64 →
            (((new cacheObjectsFromS3 cacheBlockSize pathPrefix).run reached).CountsOnce ↔
              ((new cacheObjectsFromS3 cacheBlockSize pathPrefix).run reached).ReachedOnce))) ∧
      ((new cacheObjectsFromS3 cacheBlockSize pathPrefix).HarmlessRun events →
        ∀ reached, reached <+: events →
          (((new cacheObjectsFromS3 cacheBlockSize pathPrefix).run reached).CountsOnce ↔
            ((new cacheObjectsFromS3 cacheBlockSize pathPrefix).run reached).localFileSizes <
              2 ^ 64)) := by
  constructor
  · intro reached _
    exact ⟨run_finishes cacheObjectsFromS3 cacheBlockSize pathPrefix reached, countsOnce_iff⟩
  · intro hharmless reached hreached
    have hsound := (Sound.new cacheObjectsFromS3 cacheBlockSize pathPrefix).run
      (fun _ : True => hharmless) hreached
    exact hsound.reachedOnce.countsOnce_iff (hsound.apart trivial).sizesKnown

namespace Sample

def fourBytes : FileCall := .writeBytes ⟨[1, 2, 3, 4], by decide⟩ 0 []

/-- A file is created and written. -/
def writing : List StorageEvent :=
  [.createAsFileHandle (text "data") (text "b") false none .opened, .fileCall 0 fourBytes]

theorem writing_counted_once : ((new true 4 (text "/tmp")).run writing).CountsOnce := by
  refine ((run_storageUsed true 4 (text "/tmp") writing).2 ?_ writing List.prefix_rfl).2
    (by decide +kernel)
  intro before event hbefore
  match before with
  | [] =>
      obtain rfl : event = .createAsFileHandle (text "data") (text "b") false none .opened := by
        simpa [writing] using hbefore
      intro id file hfile
      cases hfile
  | [first] =>
      obtain ⟨rfl, rfl⟩ :
          first = .createAsFileHandle (text "data") (text "b") false none .opened ∧
            event = .fileCall 0 fourBytes := by
        simpa [writing] using hbefore
      intro file hfile
      obtain rfl := Option.some.inj hfile
      exact ⟨by decide +kernel, Or.inr (by decide +kernel)⟩
  | first :: second :: rest => simp [writing] at hbefore

/-- A cached object is read: its first block is downloaded. -/
def reading : List StorageEvent :=
  [.openAsFileHandle (text "data") (text "a") (some (.s3 6)),
    .openAsFileHandle (text "data") (cacheKey (text "a") 0) none,
    .createAsFileHandle (text "data") (cacheKey (text "a") 0) false none .opened,
    .fileCall 2 fourBytes,
    .storeBlock 0 0 2]

/-- The block is counted for the cached object, and as a file of its own. -/
theorem reading_counted_twice :
    ((new true 4 (text "/tmp")).run reading).localFileSizes = 4 ∧
      ((new true 4 (text "/tmp")).run reading).storageUsed = 8 ∧
      ¬ ((new true 4 (text "/tmp")).run reading).CountsOnce := by
  unfold CountsOnce
  decide +kernel

end Sample

end Runs

end StorageNode

end GEDS
