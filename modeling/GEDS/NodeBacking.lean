/-
The files behind the handles of a node.  Two handles must not share a path: the
first one that is destroyed removes the file of the other, and a handle finds
its bytes by its path when it is relocated.
-/
import GEDS.NodeCreate

namespace GEDS

open Status

namespace Node

/-- Live local handles have different paths, and the path of each leads to the
bytes of that handle. -/
structure Exclusive (node : Node) : Prop where
  distinct : ∀ {id id' file file'}, node.localFile id = some file →
    node.localFile id' = some file' → file.path = file'.path → id = id'
  linked : ∀ {id file}, node.localFile id = some file →
    node.files.links.find file.path = some file.inode

/-- The invariant: moreover the live handles are among those given out. -/
structure Owned (node : Node) : Prop extends Exclusive node where
  numbered : ∀ {id}, node.handles.find id ≠ none → id < node.nextHandle

variable {node node' : Node}

section Live

theorem new_owned (pathPrefix : Bytes) : (new pathPrefix).Owned where
  distinct hfile := by simp [localFile, new] at hfile
  linked hfile := by simp [localFile, new] at hfile
  numbered hfind := by simp [new] at hfind

/-- A handle may go away, and keeps its place as long as it lives. -/
theorem Owned.of_kept (h : node.Owned) (hnext : node.nextHandle ≤ node'.nextHandle)
    (hhandles : ∀ id, node'.handles.find id ≠ none → node.handles.find id ≠ none)
    (hfiles : ∀ {id file'}, node'.localFile id = some file' →
      ∃ file, node.localFile id = some file ∧ file.path = file'.path ∧
        file.inode = file'.inode ∧
        node'.files.links.find file.path = node.files.links.find file.path) :
    node'.Owned where
  distinct := by
    intro id id' file file' hfile hfile' hpath
    obtain ⟨before, hbefore, hsame, -, -⟩ := hfiles hfile
    obtain ⟨before', hbefore', hsame', -, -⟩ := hfiles hfile'
    exact h.distinct hbefore hbefore' (hsame.trans (hpath.trans hsame'.symm))
  linked := by
    intro id file hfile
    obtain ⟨before, hbefore, hpath, hinode, hlinks⟩ := hfiles hfile
    rw [← hpath, ← hinode, hlinks]
    exact h.linked hbefore
  numbered := by
    intro id hfind
    exact (h.numbered (hhandles id hfind)).trans_le hnext

theorem Owned.of_same (h : node.Owned) (hhandles : node'.handles = node.handles)
    (hfiles : node'.files.links = node.files.links)
    (hnext : node'.nextHandle = node.nextHandle) : node'.Owned := by
  apply h.of_kept hnext.ge
  · intro id hfind
    exact hhandles ▸ hfind
  · intro id file hfile
    rw [localFile, hhandles] at hfile
    exact ⟨file, hfile, rfl, rfl, by rw [hfiles]⟩

/-- A handle is destroyed along with its path, or nothing happens. -/
theorem localFile_release (id : Nat) :
    ((∀ other, (node.release id).localFile other = node.localFile other) ∧
        (node.release id).files = node.files) ∨
      (∀ other, (node.release id).localFile other =
          if other = id then none else node.localFile other) ∧
        (node.release id).files =
          match node.localFile id with
          | none => node.files
          | some file => file.destroy node.files := by
  rw [release]
  cases hfind : node.handles.find id with
  | none => exact Or.inl ⟨fun _ => rfl, rfl⟩
  | some handle =>
      simp only
      split_ifs with hlast
      · refine Or.inr ⟨fun other => ?_, ?_⟩
        · by_cases heq : other = id <;> simp [localFile, heq]
        · cases hfile : handle.file <;> simp [localFile, hfind, hfile]
      · exact Or.inl ⟨fun _ => rfl, rfl⟩

theorem Owned.release (h : node.Owned) (id : Nat) : (node.release id).Owned := by
  have hsame := @sameRegistry_release node id
  apply h.of_kept hsame.2.ge
  · intro other hother hnone
    apply hother
    rw [Node.release]
    cases hfind : node.handles.find id with
    | none => exact hnone
    | some handle =>
        simp only
        split_ifs
        · simp [hnone]
        · exact hnone
  · intro other file hfile
    rcases localFile_release id with ⟨hlocal, hfiles⟩ | ⟨hlocal, hfiles⟩
    · exact ⟨file, hlocal other ▸ hfile, rfl, rfl, by rw [hfiles]⟩
    · rw [hlocal] at hfile
      by_cases heq : other = id
      · simp [heq] at hfile
      · rw [if_neg heq] at hfile
        refine ⟨file, hfile, rfl, rfl, ?_⟩
        rw [hfiles]
        cases hgone : node.localFile id with
        | none => rfl
        | some gone =>
            -- the path that goes away is not the path of a handle that stays
            have hpath : file.path ≠ gone.path := fun heq' => heq (h.distinct hfile hgone heq')
            simp [LocalFile.destroy, hpath]

theorem Owned.releaseAll (h : node.Owned) (ids : List Nat) : (node.releaseAll ids).Owned := by
  induction ids generalizing node with
  | nil => exact h
  | cons id rest ih => exact ih (h.release id)

theorem find_modifyHandle (id other : Nat) (change : FileHandle → FileHandle) :
    (node.modifyHandle id change).handles.find other =
      if other = id then (node.handles.find id).map change else node.handles.find other := by
  rw [modifyHandle]
  cases hfind : node.handles.find id with
  | none =>
      by_cases heq : other = id
      · simp [heq, hfind]
      · simp [heq]
  | some handle => simp

@[simp] theorem files_modifyHandle (id : Nat) (change : FileHandle → FileHandle) :
    (node.modifyHandle id change).files = node.files := by
  rw [modifyHandle]
  cases node.handles.find id <;> rfl

theorem localFile_modifyHandle {id : Nat} {change : FileHandle → FileHandle}
    (hchange : ∀ handle, (change handle).file = handle.file) (other : Nat) :
    (node.modifyHandle id change).localFile other = node.localFile other := by
  rw [localFile, localFile, find_modifyHandle]
  by_cases heq : other = id
  · cases hfind : node.handles.find id <;> simp [heq, hfind, hchange]
  · simp [heq]

theorem Owned.modifyHandle (h : node.Owned) (id : Nat) {change : FileHandle → FileHandle}
    (hchange : ∀ handle, (change handle).file = handle.file) :
    (node.modifyHandle id change).Owned := by
  have hsame := @sameRegistry_modifyHandle node id change
  apply h.of_kept hsame.2.ge
  · intro other hother hnone
    rw [find_modifyHandle] at hother
    by_cases heq : other = id
    · simp [← heq, hnone] at hother
    · simp [heq, hnone] at hother
  · intro other file hfile
    rw [localFile_modifyHandle hchange] at hfile
    exact ⟨file, hfile, rfl, rfl, by rw [files_modifyHandle]⟩

theorem Owned.dropReference (h : node.Owned) (id : Nat) : (node.dropReference id).Owned := by
  apply Owned.release
  apply h.modifyHandle
  intro handle
  rfl

theorem Owned.openFile (h : node.Owned) (id : Nat) : (node.openFile id).Owned :=
  h.modifyHandle id fun _ => rfl

theorem Owned.setFile (h : node.Owned) {id : Nat} {file file' : LocalFile}
    (hfile : node.localFile id = some file) (hpath : file'.path = file.path)
    (hinode : file'.inode = file.inode) {files : FileSystem Bytes}
    (hlinks : files.links = node.files.links) : (node.setFile id file' files).Owned := by
  have hnext : node.nextHandle ≤ (node.setFile id file' files).nextHandle :=
    (sameRegistry_modifyHandle id _).2.ge
  apply h.of_kept hnext
  · intro other hother hnone
    rw [Node.setFile, find_modifyHandle] at hother
    by_cases heq : other = id
    · simp [← heq, hnone] at hother
    · simp [heq, hnone] at hother
  · intro other after hafter
    rw [localFile, Node.setFile, find_modifyHandle] at hafter
    by_cases heq : other = id
    · obtain ⟨handle, hhandle, -⟩ := Option.bind_eq_some_iff.1 hfile
      simp only [heq, ↓reduceIte, hhandle, Option.map_some, Option.bind_some,
        Option.some.injEq] at hafter
      subst hafter
      exact ⟨file, heq ▸ hfile, hpath.symm, hinode.symm, by rw [Node.setFile, hlinks]⟩
    · rw [if_neg heq] at hafter
      exact ⟨after, hafter, rfl, rfl, by rw [Node.setFile, hlinks]⟩

end Live

section Create

variable {bucket key : Bytes} {overwrite : Bool} {answers : CreateAnswers}

/-- The creation gets as far as opening a file. -/
def OpensFile (node : Node) (bucket key : Bytes) (answers : CreateAnswers) : Prop :=
  node.checkServiceRunning.ok = true ∧ (isValid bucket key).ok = true ∧
    (node.createBucket bucket answers.lookupBucket answers.createBucket).1.ok = true ∧
    answers.mkdirFault = none ∧ answers.openFile = .opened

/-- The node with the handle that the factory made, on the path that the name has. -/
def withNewFile (node : Node) (bucket key : Bytes) : Node :=
  (node.factory bucket key none .opened).2

theorem localFile_withNewFile (id : Nat) :
    (node.withNewFile bucket key).localFile id =
      if id = node.nextHandle then
        (LocalFile.new node.files (node.names.getLocalPath ⟨bucket, key⟩).1 true .opened).1.toOption
      else node.localFile id := by
  simp only [localFile, withNewFile, factory, LocalFile.new, addHandle, AssocMap.find_insert]
  split_ifs <;> rfl

theorem Owned.withNewFile (h : node.Owned)
    (hfree : ∀ id file, node.localFile id = some file →
      file.path ≠ (node.names.getLocalPath ⟨bucket, key⟩).1) :
    (node.withNewFile bucket key).Owned := by
  have hold : ∀ {id file}, (node.withNewFile bucket key).localFile id = some file →
      id ≠ node.nextHandle → node.localFile id = some file := by
    intro id file hfile hne
    rwa [localFile_withNewFile, if_neg hne] at hfile
  have hnew : ∀ {file}, (node.withNewFile bucket key).localFile node.nextHandle = some file →
      file.path = (node.names.getLocalPath ⟨bucket, key⟩).1 ∧
      file.inode = (node.files.openFile (node.names.getLocalPath ⟨bucket, key⟩).1 true).1 := by
    intro file hfile
    rw [localFile_withNewFile, if_pos rfl, LocalFile.new, Except.toOption,
      Option.some.injEq] at hfile
    exact hfile ▸ ⟨rfl, rfl⟩
  refine ⟨⟨?_, ?_⟩, ?_⟩
  · intro id id' file file' hfile hfile' hpath
    by_cases hid : id = node.nextHandle
    · by_cases hid' : id' = node.nextHandle
      · rw [hid, hid']
      · rw [hid] at hfile
        exact absurd (hpath.symm.trans (hnew hfile).1) (hfree _ _ (hold hfile' hid'))
    · by_cases hid' : id' = node.nextHandle
      · rw [hid'] at hfile'
        exact absurd (hpath.trans (hnew hfile').1) (hfree _ _ (hold hfile hid))
      · exact h.distinct (hold hfile hid) (hold hfile' hid') hpath
  · intro id file hfile
    have hlinks : (node.withNewFile bucket key).files =
        (node.files.openFile (node.names.getLocalPath ⟨bucket, key⟩).1 true).2 := rfl
    rw [hlinks, FileSystem.find_openFile]
    by_cases hid : id = node.nextHandle
    · rw [hid] at hfile
      rw [if_pos (hnew hfile).1, (hnew hfile).2]
    · rw [if_neg (hfree _ _ (hold hfile hid))]
      exact h.linked (hold hfile hid)
  · intro id hfind
    change id < node.nextHandle + 1
    by_cases hid : id = node.nextHandle
    · exact hid ▸ Nat.lt_succ_self _
    · simp only [Node.withNewFile, factory, LocalFile.new, addHandle, AssocMap.find_insert,
        if_neg hid] at hfind
      exact Nat.lt_succ_of_lt (h.numbered hfind)

/-- The same handles and names of them, and the paths that lead to a file still do. -/
structure HandlesKept (node node' : Node) : Prop where
  handles : node'.handles = node.handles
  registry : node'.fileHandles = node.fileHandles
  next : node'.nextHandle = node.nextHandle
  links : ∀ path inode, node.files.links.find path = some inode →
    node'.files.links.find path = some inode

theorem HandlesKept.owned (hkept : HandlesKept node node') (h : node.Owned) : node'.Owned := by
  apply h.of_kept hkept.next.ge
  · intro id hfind
    exact hkept.handles ▸ hfind
  · intro id file hfile
    rw [localFile, hkept.handles] at hfile
    exact ⟨file, hfile, rfl, rfl, (hkept.links _ _ (h.linked hfile)).trans (h.linked hfile).symm⟩

theorem factory_of_not_opened {mkdirFault : Option Bytes} {opens : OpenResult}
    (hopens : ¬ (mkdirFault = none ∧ opens = .opened)) :
    (∃ status, (node.factory bucket key mkdirFault opens).1 = .error status) ∧
      HandlesKept node (node.factory bucket key mkdirFault opens).2 := by
  cases mkdirFault with
  | some reason => exact ⟨⟨_, rfl⟩, ⟨rfl, rfl, rfl, fun _ _ hfind => hfind⟩⟩
  | none =>
      cases opens with
      | opened => exact absurd ⟨rfl, rfl⟩ hopens
      | openFailed reason => exact ⟨⟨_, rfl⟩, ⟨rfl, rfl, rfl, fun _ _ hfind => hfind⟩⟩
      | fstatFailed reason =>
          refine ⟨⟨_, rfl⟩, ⟨rfl, rfl, rfl, fun path inode hfind => ?_⟩⟩
          -- the file was opened, and a path that led to one leads to the same
          have hopened := @FileSystem.find_openFile _ _ node.files
            (node.names.getLocalPath ⟨bucket, key⟩).1 true path
          by_cases hpath : path = (node.names.getLocalPath ⟨bucket, key⟩).1
          · have hinode : (node.files.openFile (node.names.getLocalPath ⟨bucket, key⟩).1 true).1 =
                inode := by
              rw [FileSystem.openFile_of_some (hpath ▸ hfind)]
            rw [if_pos hpath, hinode] at hopened
            exact hopened
          · rw [if_neg hpath, hfind] at hopened
            exact hopened

/-- A creation that opens no file leaves the handles and their paths alone. -/
theorem createAsFileHandle_of_not_opens (hopens : ¬ node.OpensFile bucket key answers) :
    (∃ status, (node.createAsFileHandle bucket key overwrite answers).1 = .error status) ∧
      HandlesKept node (node.createAsFileHandle bucket key overwrite answers).2 := by
  obtain ⟨known, ⟨status, -, hcreate⟩ | ⟨hready, hfactory⟩⟩ :=
    @createAsFileHandle_cases node bucket key overwrite answers
  · rw [hcreate]
    exact ⟨⟨status, rfl⟩, ⟨rfl, rfl, rfl, fun _ _ hfind => hfind⟩⟩
  · obtain ⟨⟨failure, hfailure⟩, hkept⟩ := @factory_of_not_opened
      { node with knownBuckets := known } bucket key answers.mkdirFault answers.openFile
      fun hopened => hopens ⟨hready.1, hready.2.1, hready.2.2, hopened⟩
    rcases hfactory with ⟨status, made, hmade, hcreate⟩ | ⟨id, made, hmade, hcreate⟩
    · rw [hmade] at hkept
      rw [hcreate]
      exact ⟨⟨status, rfl⟩, ⟨hkept.handles, hkept.registry, hkept.next, hkept.links⟩⟩
    · rw [hmade] at hfailure
      cases hfailure

theorem createAsFileHandle_of_opens (hopens : node.OpensFile bucket key answers) :
    ∃ known, node.createAsFileHandle bucket key overwrite answers =
      if overwrite then
        (.ok node.nextHandle, (withNewFile { node with knownBuckets := known } bucket key).replaceHandle
          (getPath bucket key) node.nextHandle)
      else (withNewFile { node with knownBuckets := known } bucket key).registerHandle
        (getPath bucket key) node.nextHandle := by
  obtain ⟨hrunning, hvalid, hcreated, hmkdir, hopened⟩ := hopens
  obtain ⟨known, hknown⟩ := @createBucket_eq node bucket answers.lookupBucket
    answers.createBucket
  refine ⟨known, ?_⟩
  simp only [createAsFileHandle, hrunning, hvalid, hcreated, hknown, hmkdir, hopened, ↓reduceIte]
  rfl

theorem Owned.replaceHandle (h : node.Owned) (path : Bytes) (id : Nat) :
    (node.replaceHandle path id).Owned := by
  apply Owned.releaseAll
  exact h.of_same rfl rfl rfl

theorem Owned.registerHandle (h : node.Owned) (path : Bytes) (id : Nat) :
    (node.registerHandle path id).2.Owned := by
  rw [Node.registerHandle]
  split_ifs
  · apply Owned.dropReference
    exact h.of_same rfl rfl rfl
  · exact h.of_same rfl rfl rfl

/-- The path that a creation opens belongs to a live handle. -/
def PathTaken (node : Node) (bucket key : Bytes) : Prop :=
  ∃ id file, node.localFile id = some file ∧
    file.path = (node.names.getLocalPath ⟨bucket, key⟩).1

theorem Owned.createAsFileHandle (h : node.Owned)
    (hfree : node.OpensFile bucket key answers → ¬ node.PathTaken bucket key) :
    (node.createAsFileHandle bucket key overwrite answers).2.Owned := by
  by_cases hopens : node.OpensFile bucket key answers
  · obtain ⟨known, hcreated⟩ := @createAsFileHandle_of_opens node bucket key overwrite answers hopens
    have hmade : (Node.withNewFile { node with knownBuckets := known } bucket key).Owned := by
      apply Owned.withNewFile
      · exact h.of_same rfl rfl rfl
      · intro id file hfile hpath
        exact hfree hopens ⟨id, file, hfile, hpath⟩
    rw [hcreated]
    cases overwrite with
    | true => exact hmade.replaceHandle _ _
    | false => exact hmade.registerHandle _ _
  · exact (createAsFileHandle_of_not_opens hopens).2.owned h

theorem Owned.create (h : node.Owned)
    (hfree : node.OpensFile bucket key answers → ¬ node.PathTaken bucket key) :
    (node.create bucket key overwrite answers).2.Owned := by
  have hcreated := @Owned.createAsFileHandle node bucket key overwrite answers h hfree
  rw [Node.create]
  generalize Node.createAsFileHandle _ _ _ _ _ = created at hcreated
  obtain ⟨result, created⟩ := created
  cases result with
  | error status => exact hcreated
  | ok id => exact (hcreated.openFile id).dropReference id

end Create

section Events

/-- The event opens a file on the path of a live handle. -/
def SharesPath (node : Node) : NodeEvent → Prop
  | .createAsFileHandle bucket key _ answers | .create bucket key _ answers =>
      node.OpensFile bucket key answers ∧ node.PathTaken bucket key
  | _ => False

theorem Owned.addRemote (h : node.Owned) (bucket key : Bytes) :
    (node.addHandle bucket key none).2.Owned := by
  have hfile : ∀ {id file}, (node.addHandle bucket key none).2.localFile id = some file →
      node.localFile id = some file := by
    intro id file hfile
    rw [localFile, addHandle, AssocMap.find_insert] at hfile
    by_cases heq : id = node.nextHandle
    · simp [heq] at hfile
    · rwa [if_neg heq] at hfile
  refine ⟨⟨?_, ?_⟩, ?_⟩
  · intro id id' file file' hid hid' hpath
    exact h.distinct (hfile hid) (hfile hid') hpath
  · intro id file hid
    exact h.linked (hfile hid)
  · intro id hfind
    rw [addHandle, AssocMap.find_insert] at hfind
    change id < node.nextHandle + 1
    by_cases heq : id = node.nextHandle
    · exact heq ▸ Nat.lt_succ_self _
    · rw [if_neg heq] at hfind
      exact Nat.lt_succ_of_lt (h.numbered hfind)

theorem Owned.openAsFileHandle (h : node.Owned) (bucket key : Bytes) (reopened : Status) :
    (node.openAsFileHandle bucket key reopened).2.Owned := by
  rcases @openAsFileHandle_cases node bucket key reopened with
    ⟨status, hopen⟩ | ⟨id, hopen⟩ | ⟨-, id, hopen⟩
  · rw [hopen]
    exact h
  · rw [hopen]
    apply h.modifyHandle
    intro handle
    rfl
  · rw [hopen]
    exact (h.addRemote bucket key).of_same rfl rfl rfl

theorem Owned.openFrom (bucket key : Bytes) (attempts : List Status) (h : node.Owned) :
    (Node.openFrom bucket key attempts node).2.Owned := by
  induction attempts generalizing node with
  | nil => exact h
  | cons reopened attempts ih =>
      have hfound := h.openAsFileHandle bucket key reopened
      rw [Node.openFrom]
      generalize Node.openAsFileHandle _ _ _ _ = found at hfound
      obtain ⟨result, found⟩ := found
      cases result with
      | error status => exact hfound
      | ok id =>
          simp only
          split_ifs
          · exact (hfound.openFile id).dropReference id
          · apply Owned.dropReference
            apply ih
            exact hfound.of_same rfl rfl rfl

theorem Owned.writeBytes (h : node.Owned) (id : Nat) (bytes : Bytes) (position : UInt64)
    (fault : Option WriteFault) : (node.writeBytes id bytes position fault).2.Owned := by
  rw [Node.writeBytes]
  cases hfile : node.localFile id with
  | none => exact h
  | some file =>
      obtain ⟨hpath, hinode, hlinks⟩ :=
        @LocalFile.writeBytes_place file node.files bytes position fault
      exact h.setFile hfile hpath hinode hlinks

theorem Owned.truncate (h : node.Owned) (id : Nat) (targetSize : UInt64)
    (fault : Option Bytes) : (node.truncate id targetSize fault).2.Owned := by
  rw [Node.truncate]
  cases hfile : node.localFile id with
  | none => exact h
  | some file =>
      obtain ⟨hpath, hinode, hlinks⟩ :=
        @LocalFile.truncate_place file node.files targetSize fault
      exact h.setFile hfile hpath hinode hlinks

theorem Owned.relocate (h : node.Owned) (id : Nat) (force : Bool) (stored : Status) :
    (node.relocate id force stored).Owned := by
  rcases @relocate_cases node id force stored with
    hrelocate | ⟨path, selector, hrelocate⟩ | ⟨handle, -, hrelocate⟩
  · rw [hrelocate]
    exact h
  · rw [hrelocate]
    apply Owned.release
    exact h.of_same rfl rfl rfl
  · rw [hrelocate]
    apply Owned.dropReference
    apply Owned.replaceHandle
    apply (h.addRemote handle.bucket handle.key).modifyHandle
    intro handle
    rfl

/-- Every event keeps the files apart, unless it opens one on a path in use. -/
theorem Owned.perform (h : node.Owned) {event : NodeEvent} (hevent : ¬ node.SharesPath event) :
    (node.perform event).Owned := by
  cases event with
  | start answer =>
      rw [Node.perform, Node.start]
      split_ifs
      · exact h.of_same rfl rfl rfl
      · exact h.of_same rfl rfl rfl
      · exact h
  | stop =>
      rw [Node.perform, Node.stop]
      split_ifs
      · apply Owned.releaseAll
        exact h.of_same rfl rfl rfl
      · exact h
  | createAsFileHandle bucket key overwrite answers =>
      exact h.createAsFileHandle fun hopens htaken => hevent ⟨hopens, htaken⟩
  | create bucket key overwrite answers =>
      exact h.create fun hopens htaken => hevent ⟨hopens, htaken⟩
  | openObject bucket key reopened retried => exact h.openFrom bucket key _
  | copyFile id => exact h.openFile id
  | closeFile id =>
      apply Owned.dropReference
      apply h.modifyHandle
      intro handle
      rfl
  | addReference id =>
      apply h.modifyHandle
      intro handle
      rfl
  | dropReference id => exact h.dropReference id
  | writeBytes id bytes position fault => exact h.writeBytes id bytes position fault
  | truncate id targetSize fault => exact h.truncate id targetSize fault
  | deleteObject bucket key answer =>
      rw [Node.perform, Node.deleteObject]
      split_ifs
      · exact h
      · apply Owned.releaseAll
        exact h.of_same rfl rfl rfl
  | deleteObjectPrefix bucket keyPrefix metadata =>
      rw [Node.perform, Node.deleteObjectPrefix]
      simp only
      split_ifs
      · exact h
      · apply Owned.releaseAll
        exact h.of_same rfl rfl rfl
  | relocate id force stored => exact h.relocate id force stored

end Events

section Shared

variable {path : Bytes} {bucket key : Bytes} {overwrite : Bool} {answers : CreateAnswers}

/-- Two live handles have the path. -/
def Twice (node : Node) (path : Bytes) : Prop :=
  ∃ id id' file file', id ≠ id' ∧ node.localFile id = some file ∧ file.path = path ∧
    node.localFile id' = some file' ∧ file'.path = path

/-- Two live handles have the path, or one has it and the file is gone. -/
def Spoilt (node : Node) (path : Bytes) : Prop :=
  node.Twice path ∨ ∃ id file, node.localFile id = some file ∧ file.path = path ∧
    node.files.links.find path = none

theorem Spoilt.not_exclusive (h : node.Spoilt path) : ¬ node.Exclusive := by
  intro hexclusive
  rcases h with ⟨id, id', file, file', hne, hfile, hpath, hfile', hpath'⟩ |
    ⟨id, file, hfile, hpath, hnone⟩
  · exact hne (hexclusive.distinct hfile hfile' (hpath.trans hpath'.symm))
  · have hlinked := hexclusive.linked hfile
    rw [hpath, hnone] at hlinked
    cases hlinked

theorem Spoilt.of_same (h : node.Spoilt path)
    (hlocal : ∀ id, node'.localFile id = node.localFile id)
    (hfiles : node'.files = node.files) : node'.Spoilt path := by
  simpa only [Spoilt, Twice, hlocal, hfiles] using h

/-- One of two handles on the path is destroyed: the file of the other is gone. -/
theorem Twice.release (h : node.Twice path) (id : Nat) : (node.release id).Spoilt path := by
  have hspoilt : node.Spoilt path := Or.inl h
  rcases localFile_release id with ⟨hlocal, hfiles⟩ | ⟨hlocal, hfiles⟩
  · exact hspoilt.of_same hlocal hfiles
  · obtain ⟨first, second, file, file', hne, hfile, hpath, hfile', hpath'⟩ := h
    by_cases hfirst : first = id
    · refine Or.inr ⟨second, file', ?_, hpath', ?_⟩
      · rw [hlocal, if_neg (fun heq => hne (hfirst.trans heq.symm)), hfile']
      · rw [hfiles, ← hfirst, hfile]
        simp [LocalFile.destroy, hpath]
    · by_cases hsecond : second = id
      · refine Or.inr ⟨first, file, ?_, hpath, ?_⟩
        · rw [hlocal, if_neg hfirst, hfile]
        · rw [hfiles, ← hsecond, hfile']
          simp [LocalFile.destroy, hpath']
      · refine Or.inl ⟨first, second, file, file', hne, ?_, hpath, ?_, hpath'⟩
        · rw [hlocal, if_neg hfirst, hfile]
        · rw [hlocal, if_neg hsecond, hfile']

theorem Owned.twice_withNewFile (h : node.Owned) (htaken : node.PathTaken bucket key) :
    (node.withNewFile bucket key).Twice (node.names.getLocalPath ⟨bucket, key⟩).1 := by
  obtain ⟨id, file, hfile, hpath⟩ := htaken
  have hlive : node.handles.find id ≠ none := fun hnone => by simp [localFile, hnone] at hfile
  have hne : id ≠ node.nextHandle := Nat.ne_of_lt (h.numbered hlive)
  have hnew : ∃ made, (node.withNewFile bucket key).localFile node.nextHandle = some made ∧
      made.path = (node.names.getLocalPath ⟨bucket, key⟩).1 := by
    rw [localFile_withNewFile, if_pos rfl]
    exact ⟨_, rfl, rfl⟩
  obtain ⟨made, hmade, hpath'⟩ := hnew
  refine ⟨id, node.nextHandle, file, made, hne, ?_, hpath, hmade, hpath'⟩
  rw [localFile_withNewFile, if_neg hne, hfile]

/-- A handle that somebody points to is not destroyed. -/
theorem find_release_of_held {id : Nat} {handle : FileHandle}
    (hfind : node.handles.find id = some handle) (hheld : 0 < handle.references) (gone : Nat) :
    (node.release gone).handles.find id = some handle := by
  rw [release]
  cases hgone : node.handles.find gone with
  | none => exact hfind
  | some other =>
      simp only
      split_ifs with hlast
      · have hne : id ≠ gone := by
          rintro rfl
          obtain rfl := Option.some.inj (hfind.symm.trans hgone)
          exact Nat.ne_of_gt hheld hlast.1
        simpa [hne] using hfind
      · exact hfind

/-- Exchanging a pointer for an open file leaves the files alone. -/
theorem localFile_exchange {id : Nat} {handle : FileHandle}
    (hfind : node.handles.find id = some handle) (hheld : 0 < handle.references) :
    (∀ other, ((node.openFile id).dropReference id).localFile other = node.localFile other) ∧
      ((node.openFile id).dropReference id).files = node.files := by
  have hkept : ∀ other, ((node.openFile id).modifyHandle id fun handle =>
      { handle with references := handle.references - 1 }).localFile other =
        node.localFile other := by
    intro other
    refine (localFile_modifyHandle (by intro handle; rfl) other).trans ?_
    exact localFile_modifyHandle (by intro handle; rfl) other
  have hhandle : ((node.openFile id).modifyHandle id fun handle =>
      { handle with references := handle.references - 1 }).handles.find id =
        some { handle with openCount := handle.openCount + 1 } := by
    simp [find_modifyHandle, openFile, hfind]
  have hnothing : (node.openFile id).dropReference id =
      (node.openFile id).modifyHandle id fun handle =>
        { handle with references := handle.references - 1 } := by
    rw [dropReference, release, hhandle]
    simp only
    rw [if_neg (fun hlast => Nat.ne_of_gt hheld hlast.1)]
  rw [hnothing]
  exact ⟨hkept, by simp [openFile]⟩

theorem find_withNewFile :
    ∃ handle, (node.withNewFile bucket key).handles.find node.nextHandle = some handle ∧
      0 < handle.references := by
  refine ⟨_, AssocMap.find_insert_self _ _ _, ?_⟩
  exact Nat.zero_lt_one

theorem Twice.replaceHandle (h : node.Twice path) (name : Bytes) (id : Nat) :
    (node.replaceHandle name id).Spoilt path := by
  rw [Node.replaceHandle]
  cases node.fileHandles.get name with
  | none => exact Or.inl h
  | some previous =>
      have htwice : Twice { node with fileHandles := node.fileHandles.insertOrReplace name id } path := h
      exact htwice.release previous

theorem Twice.registerHandle (h : node.Twice path) (name : Bytes) (id : Nat) :
    (node.registerHandle name id).2.Spoilt path := by
  rw [Node.registerHandle]
  split_ifs
  · apply Twice.release
    obtain ⟨first, second, file, file', hne, hfile, hpath, hfile', hpath'⟩ := h
    refine ⟨first, second, file, file', hne, ?_, hpath, ?_, hpath'⟩
    · exact (localFile_modifyHandle (by intro handle; rfl) first).trans hfile
    · exact (localFile_modifyHandle (by intro handle; rfl) second).trans hfile'
  · exact Or.inl h

/-- The handle that a successful creation returns is held by its caller. -/
theorem held_of_opens (hopens : node.OpensFile bucket key answers) {id : Nat}
    (hresult : (node.createAsFileHandle bucket key overwrite answers).1 = .ok id) :
    ∃ handle, (node.createAsFileHandle bucket key overwrite answers).2.handles.find id =
      some handle ∧ 0 < handle.references := by
  obtain ⟨known, hcreated⟩ := @createAsFileHandle_of_opens node bucket key overwrite answers hopens
  obtain ⟨handle, hfind, hheld⟩ :=
    @find_withNewFile { node with knownBuckets := known } bucket key
  rw [hcreated] at hresult ⊢
  cases overwrite with
  | true =>
      obtain rfl : node.nextHandle = id := Except.ok.inj hresult
      refine ⟨handle, ?_, hheld⟩
      simp only [↓reduceIte, Node.replaceHandle]
      cases (Node.withNewFile _ _ _).fileHandles.get (getPath bucket key) with
      | none => exact hfind
      | some previous =>
          change (Node.release _ previous).handles.find node.nextHandle = some handle
          apply find_release_of_held _ hheld
          exact hfind
  | false =>
      simp only [Bool.false_eq_true, ↓reduceIte, Node.registerHandle] at hresult ⊢
      split_ifs at hresult ⊢ with hexists
      obtain rfl : node.nextHandle = id := Except.ok.inj hresult
      exact ⟨handle, hfind, hheld⟩

theorem Owned.spoilt_createAsFileHandle (h : node.Owned)
    (hopens : node.OpensFile bucket key answers) (htaken : node.PathTaken bucket key) :
    (node.createAsFileHandle bucket key overwrite answers).2.Spoilt
      (node.names.getLocalPath ⟨bucket, key⟩).1 := by
  obtain ⟨known, hcreated⟩ := @createAsFileHandle_of_opens node bucket key overwrite answers hopens
  have htwice : (Node.withNewFile { node with knownBuckets := known } bucket key).Twice
      (node.names.getLocalPath ⟨bucket, key⟩).1 := by
    have hsame : Owned { node with knownBuckets := known } := h.of_same rfl rfl rfl
    exact hsame.twice_withNewFile htaken
  rw [hcreated]
  cases overwrite with
  | true => exact htwice.replaceHandle _ _
  | false => exact htwice.registerHandle _ _

/-- A file opened on a path in use always does damage. -/
theorem Owned.not_exclusive (h : node.Owned) {event : NodeEvent} (hevent : node.SharesPath event) :
    ¬ (node.perform event).Exclusive := by
  cases event with
  | createAsFileHandle bucket key overwrite answers =>
      exact (h.spoilt_createAsFileHandle hevent.1 hevent.2).not_exclusive
  | create bucket key overwrite answers =>
      have hspoilt := @Owned.spoilt_createAsFileHandle node bucket key overwrite answers h
        hevent.1 hevent.2
      have hheld := @held_of_opens node bucket key overwrite answers hevent.1
      rw [Node.perform, Node.create]
      generalize node.createAsFileHandle bucket key overwrite answers = created at hspoilt hheld ⊢
      obtain ⟨result, created⟩ := created
      cases result with
      | error status => exact hspoilt.not_exclusive
      | ok id =>
          obtain ⟨handle, hfind, hreferences⟩ := hheld rfl
          obtain ⟨hlocal, hfiles⟩ := localFile_exchange hfind hreferences
          exact (hspoilt.of_same hlocal hfiles).not_exclusive
  | _ => exact absurd hevent id

end Shared

theorem Owned.exclusive_throughout_iff (h : node.Owned) (events : List NodeEvent) :
    (∀ done, done <+: events → (node.run done).Exclusive) ↔
      ∀ done event, done ++ [event] <+: events → ¬ (node.run done).SharesPath event := by
  induction events generalizing node with
  | nil =>
      constructor
      · intro _ done event hdone
        simp at hdone
      · intro _ done hdone
        obtain rfl := List.prefix_nil.1 hdone
        exact h.toExclusive
  | cons first events ih =>
      constructor
      · intro hall
        have hfirst : ¬ node.SharesPath first := fun hshares =>
          h.not_exclusive hshares (hall [first] (by simp))
        have hrest := (ih (h.perform hfirst)).1 fun done hdone =>
          hall (first :: done) (List.cons_prefix_cons.2 ⟨rfl, hdone⟩)
        intro done event hdone
        cases done with
        | nil =>
            obtain ⟨rfl, -⟩ := List.cons_prefix_cons.1 hdone
            exact hfirst
        | cons head done =>
            obtain ⟨rfl, htail⟩ := List.cons_prefix_cons.1 hdone
            exact hrest done event htail
      · intro hall done hdone
        cases done with
        | nil => exact h.toExclusive
        | cons head done =>
            obtain ⟨rfl, htail⟩ := List.cons_prefix_cons.1 hdone
            have hfirst : ¬ node.SharesPath head := hall [] head (by simp)
            apply (ih (h.perform hfirst)).2 _ done htail
            intro done event hevent
            exact hall (head :: done) event (List.cons_prefix_cons.2 ⟨rfl, hevent⟩)

/-- The files of the live handles are apart in all states of a run, just if no
creation opens a file on the path of a handle that is still alive. -/
theorem run_exclusive_iff (pathPrefix : Bytes) (events : List NodeEvent) :
    (∀ done, done <+: events → ((new pathPrefix).run done).Exclusive) ↔
      ∀ done event, done ++ [event] <+: events →
        ¬ ((new pathPrefix).run done).SharesPath event :=
  (new_owned pathPrefix).exclusive_throughout_iff events

namespace Sample

/-- An object is created, closed, and created again with `overwrite`. -/
def recreated : List NodeEvent :=
  [.start okStatus, .create (text "abc") (text "key") false answers, .closeFile 0,
    .create (text "abc") (text "key") true answers]

/-- The new handle is alive, and the path that it has is removed with the old one. -/
theorem recreated_not_exclusive :
    ¬ ∀ events done, done <+: events → ((new (text "/geds")).run done).Exclusive := by
  intro hall
  have hexclusive := hall recreated recreated (List.prefix_refl _)
  have hfile : ((new (text "/geds")).run recreated).localFile 1 =
      some ⟨text "/geds/abc/0", 0, 0⟩ := by decide
  have hlinked := hexclusive.linked hfile
  exact absurd hlinked (by decide)

end Sample

end Node

end GEDS
