/-
Cache blocks among the objects of a node.  Most calls leave the files of the
blocks alone: a call can change them if it writes to one, or if it opens a file
on the path of one.
-/
import GEDS.CachedFileHandle

namespace GEDS

open Status

namespace Node

/-- The names of the handles are those under which they are registered. -/
structure WellNamed (node : Node) : Prop where
  buckets : ∀ {id handle}, node.handles.find id = some handle → slash ∉ handle.bucket
  registry : ∀ {path id}, node.fileHandles.find path = some id →
    id < node.nextHandle ∧
      ∀ handle, node.handles.find id = some handle → path = getPath handle.bucket handle.key

/-- The handles keep their names and those of blocks their bytes, and no local file
is made for a block; at most one handle is an exception from the latter two. -/
structure BlocksKept (changed : Option Nat) (node node' : Node) : Prop where
  next : node.nextHandle ≤ node'.nextHandle
  handles : ∀ {id handle'}, node'.handles.find id = some handle' →
    (∃ handle, node.handles.find id = some handle ∧ handle.bucket = handle'.bucket ∧
        handle.key = handle'.key ∧
        (changed ≠ some id → cacheBlockMarker <+: handle'.key →
          ∀ file, handle'.file = some file → handle.file = some file ∧
            node'.files.content file.inode = node.files.content file.inode)) ∨
      (node.nextHandle ≤ id ∧ slash ∉ handle'.bucket ∧
        (changed ≠ some id → cacheBlockMarker <+: handle'.key → handle'.file = none))
  registry : ∀ {path id}, node'.fileHandles.find path = some id →
    node.fileHandles.find path = some id ∨
      (id < node'.nextHandle ∧ ∀ handle', node'.handles.find id = some handle' →
        path = getPath handle'.bucket handle'.key)

variable {node node' node'' : Node} {changed : Option Nat}

theorem new_wellNamed (pathPrefix : Bytes) : (new pathPrefix).WellNamed where
  buckets hfind := by simp [new] at hfind
  registry hfind := by simp [new] at hfind

section Kept

theorem BlocksKept.wellNamed (hkept : BlocksKept changed node node') (h : node.WellNamed) :
    node'.WellNamed where
  buckets := by
    intro id handle' hfind
    rcases hkept.handles hfind with ⟨handle, hhandle, hbucket, -⟩ | ⟨-, hbucket, -⟩
    · exact hbucket ▸ h.buckets hhandle
    · exact hbucket
  registry := by
    intro path id hfind
    rcases hkept.registry hfind with hold | hnew
    · obtain ⟨hid, hpath⟩ := h.registry hold
      refine ⟨hid.trans_le hkept.next, fun handle' hhandle' => ?_⟩
      rcases hkept.handles hhandle' with ⟨handle, hhandle, hbucket, hkey, -⟩ | ⟨hfresh, -⟩
      · rw [← hbucket, ← hkey]
        exact hpath handle hhandle
      · exact absurd hid (Nat.not_lt.2 hfresh)
    · exact hnew

theorem BlocksKept.trans (hfirst : BlocksKept changed node node')
    (hsecond : BlocksKept changed node' node'') : BlocksKept changed node node'' where
  next := hfirst.next.trans hsecond.next
  handles := by
    intro id handle'' hfind
    rcases hsecond.handles hfind with ⟨handle', hhandle', hbucket', hkey', hfile'⟩ |
      ⟨hfresh, hbucket, hfile⟩
    · rcases hfirst.handles hhandle' with ⟨handle, hhandle, hbucket, hkey, hfile⟩ |
        ⟨hfresh, hbucket, hfile⟩
      · refine Or.inl ⟨handle, hhandle, hbucket.trans hbucket', hkey.trans hkey', ?_⟩
        intro hne hblock file hsome
        obtain ⟨hsome', hcontent'⟩ := hfile' hne hblock file hsome
        obtain ⟨hsome, hcontent⟩ := hfile hne (hkey'.symm ▸ hblock) file hsome'
        exact ⟨hsome, hcontent'.trans hcontent⟩
      · refine Or.inr ⟨hfresh, hbucket' ▸ hbucket, ?_⟩
        intro hne hblock
        cases hsome : handle''.file with
        | none => rfl
        | some file =>
            have hnone := hfile hne (hkey'.symm ▸ hblock)
            rw [(hfile' hne hblock file hsome).1] at hnone
            cases hnone
    · exact Or.inr ⟨hfirst.next.trans hfresh, hbucket, hfile⟩
  registry := by
    intro path id hfind
    rcases hsecond.registry hfind with hold | hnew
    · rcases hfirst.registry hold with holder | ⟨hid, hpath⟩
      · exact Or.inl holder
      · refine Or.inr ⟨hid.trans_le hsecond.next, fun handle'' hhandle'' => ?_⟩
        rcases hsecond.handles hhandle'' with ⟨handle', hhandle', hbucket, hkey, -⟩ | ⟨hfresh, -⟩
        · rw [← hbucket, ← hkey]
          exact hpath handle' hhandle'
        · exact absurd hid (Nat.not_lt.2 hfresh)
    · exact Or.inr hnew

/-- Handles and names of them may go away. -/
theorem BlocksKept.of_fewer
    (hhandles : ∀ {id handle'}, node'.handles.find id = some handle' →
      ∃ handle, node.handles.find id = some handle ∧ handle.bucket = handle'.bucket ∧
        handle.key = handle'.key ∧ handle.file = handle'.file)
    (hfiles : ∀ inode, node'.files.content inode = node.files.content inode)
    (hnext : node'.nextHandle = node.nextHandle)
    (hregistry : ∀ {path id}, node'.fileHandles.find path = some id →
      node.fileHandles.find path = some id) : BlocksKept changed node node' where
  next := hnext.ge
  handles := by
    intro id handle' hfind
    obtain ⟨handle, hhandle, hbucket, hkey, hfile⟩ := hhandles hfind
    refine Or.inl ⟨handle, hhandle, hbucket, hkey, ?_⟩
    intro _ _ file hsome
    exact ⟨hfile.trans hsome, hfiles _⟩
  registry hfind := Or.inl (hregistry hfind)

theorem BlocksKept.of_same (hhandles : node'.handles = node.handles)
    (hfiles : node'.files = node.files) (hnext : node'.nextHandle = node.nextHandle)
    (hregistry : ∀ {path id}, node'.fileHandles.find path = some id →
      node.fileHandles.find path = some id) : BlocksKept changed node node' := by
  refine BlocksKept.of_fewer ?_ ?_ hnext hregistry
  · intro id handle' hfind
    exact ⟨handle', hhandles ▸ hfind, rfl, rfl, rfl⟩
  · intro inode
    rw [hfiles]

theorem blocksKept_refl : BlocksKept changed node node :=
  BlocksKept.of_same rfl rfl rfl id

theorem blocksKept_release (id : Nat) : BlocksKept changed node (node.release id) := by
  have hsame := @sameRegistry_release node id
  refine BlocksKept.of_fewer ?_ ?_ hsame.2 ?_
  · intro other handle' hfind
    refine ⟨handle', ?_, rfl, rfl, rfl⟩
    rw [release] at hfind
    cases hgone : node.handles.find id with
    | none =>
        rw [hgone] at hfind
        exact hfind
    | some handle =>
        rw [hgone] at hfind
        simp only at hfind
        split_ifs at hfind
        · rw [AssocMap.find_erase] at hfind
          split_ifs at hfind
          exact hfind
        · exact hfind
  · intro inode
    rcases @localFile_release node id with ⟨-, hfiles⟩ | ⟨-, hfiles⟩
    · rw [hfiles]
    · rw [hfiles]
      cases node.localFile id <;> rfl
  · intro path other hfind
    rwa [hsame.1] at hfind

theorem blocksKept_releaseAll (ids : List Nat) : BlocksKept changed node (node.releaseAll ids) := by
  induction ids generalizing node with
  | nil => exact blocksKept_refl
  | cons id rest ih => exact (blocksKept_release id).trans ih

theorem blocksKept_modifyHandle (id : Nat) {change : FileHandle → FileHandle}
    (hchange : ∀ handle, (change handle).bucket = handle.bucket ∧
      (change handle).key = handle.key ∧ (change handle).file = handle.file) :
    BlocksKept changed node (node.modifyHandle id change) := by
  have hsame := @sameRegistry_modifyHandle node id change
  refine BlocksKept.of_fewer ?_ ?_ hsame.2 ?_
  · intro other handle' hfind
    rw [find_modifyHandle] at hfind
    by_cases heq : other = id
    · rw [if_pos heq] at hfind
      obtain ⟨handle, hhandle, rfl⟩ := Option.map_eq_some_iff.1 hfind
      obtain ⟨hbucket, hkey, hfile⟩ := hchange handle
      exact ⟨handle, heq ▸ hhandle, hbucket.symm, hkey.symm, hfile.symm⟩
    · rw [if_neg heq] at hfind
      exact ⟨handle', hfind, rfl, rfl, rfl⟩
  · intro inode
    rw [files_modifyHandle]
  · intro path other hfind
    rwa [hsame.1] at hfind

theorem blocksKept_dropReference (id : Nat) : BlocksKept changed node (node.dropReference id) := by
  refine BlocksKept.trans ?_ (blocksKept_release id)
  apply blocksKept_modifyHandle
  intro handle
  exact ⟨rfl, rfl, rfl⟩

theorem blocksKept_openFile (id : Nat) : BlocksKept changed node (node.openFile id) :=
  blocksKept_modifyHandle id fun _ => ⟨rfl, rfl, rfl⟩

theorem getPath_addHandle {bucket key : Bytes} {file : Option LocalFile} {handle : FileHandle}
    (hfind : (node.addHandle bucket key file).2.handles.find node.nextHandle = some handle) :
    getPath bucket key = getPath handle.bucket handle.key := by
  obtain rfl := Option.some.inj ((AssocMap.find_insert_self _ _ _).symm.trans hfind)
  rfl

theorem blocksKept_addRemote {bucket : Bytes} (hbucket : slash ∉ bucket) (key : Bytes) :
    BlocksKept changed node (node.addHandle bucket key none).2 where
  next := Nat.le_succ _
  handles := by
    intro id handle' hfind
    rcases AssocMap.find_insert_eq_some hfind with ⟨rfl, rfl⟩ | ⟨-, hold⟩
    · exact Or.inr ⟨Nat.le_refl _, hbucket, fun _ _ => rfl⟩
    · exact Or.inl ⟨handle', hold, rfl, rfl, fun _ _ file hsome => ⟨hsome, rfl⟩⟩
  registry hfind := Or.inl hfind

/-- A handle is registered under its own name. -/
theorem blocksKept_insertHandle {path : Bytes} {id : Nat} (hid : id < node.nextHandle)
    (hpath : ∀ handle, node.handles.find id = some handle →
      path = getPath handle.bucket handle.key) :
    BlocksKept changed node { node with fileHandles := node.fileHandles.insert path id } where
  next := Nat.le_refl node.nextHandle
  handles := by
    intro other handle' hfind
    exact Or.inl ⟨handle', hfind, rfl, rfl, fun _ _ file hsome => ⟨hsome, rfl⟩⟩
  registry := by
    intro other id' hfind
    rw [OrderedMap.find_insert] at hfind
    split_ifs at hfind with heq
    · obtain rfl := Option.some.inj hfind
      exact Or.inr ⟨hid, heq ▸ hpath⟩
    · exact Or.inl hfind

theorem blocksKept_insertOrExists {path : Bytes} {id : Nat} (hid : id < node.nextHandle)
    (hpath : ∀ handle, node.handles.find id = some handle →
      path = getPath handle.bucket handle.key) :
    BlocksKept changed node
      { node with fileHandles := (node.fileHandles.insertOrExists path id).2 } := by
  rw [ConcurrentMap.insertOrExists]
  cases node.fileHandles.find path with
  | none => exact blocksKept_insertHandle hid hpath
  | some existing => exact blocksKept_refl

theorem blocksKept_replaceHandle {path : Bytes} {id : Nat} (hid : id < node.nextHandle)
    (hpath : ∀ handle, node.handles.find id = some handle →
      path = getPath handle.bucket handle.key) :
    BlocksKept changed node (node.replaceHandle path id) :=
  (blocksKept_insertHandle hid hpath).trans (blocksKept_releaseAll _)

theorem blocksKept_registerHandle {path : Bytes} {id : Nat} (hid : id < node.nextHandle)
    (hpath : ∀ handle, node.handles.find id = some handle →
      path = getPath handle.bucket handle.key) :
    BlocksKept changed node (node.registerHandle path id).2 := by
  have hinserted := @blocksKept_insertOrExists node changed path id hid hpath
  rw [registerHandle]
  split_ifs
  · exact hinserted.trans (blocksKept_dropReference id)
  · exact hinserted

end Kept

section Create

variable {bucket key : Bytes} {overwrite : Bool} {answers : CreateAnswers}

/-- The creation gets as far as `open`, which truncates the file, and `open` works. -/
def TouchesFile (node : Node) (bucket key : Bytes) (answers : CreateAnswers) : Prop :=
  node.checkServiceRunning.ok = true ∧ (isValid bucket key).ok = true ∧
    (node.createBucket bucket answers.lookupBucket answers.createBucket).1.ok = true ∧
    answers.mkdirFault = none ∧ ∀ reason, answers.openFile ≠ .openFailed reason

theorem OpensFile.touchesFile (hopens : node.OpensFile bucket key answers) :
    node.TouchesFile bucket key answers := by
  obtain ⟨hrunning, hvalid, hcreated, hmkdir, hopened⟩ := hopens
  refine ⟨hrunning, hvalid, hcreated, hmkdir, fun reason => ?_⟩
  rw [hopened]
  exact OpenResult.noConfusion

theorem Owned.content_openFile (h : node.Owned) {id : Nat} {file : LocalFile}
    (hfile : node.localFile id = some file) {path : Bytes} (hne : file.path ≠ path) :
    (node.files.openFile path true).2.content file.inode = node.files.content file.inode := by
  have hlinked := h.linked hfile
  apply FileSystem.content_openFile_of_ne (node.files.bounded hlinked)
  intro hfind
  exact hne (node.files.single hlinked hfind)

/-- A file is opened on a path that no live handle has. -/
theorem Owned.blocksKept_openPath (h : node.Owned) (hfree : ¬ node.PathTaken bucket key)
    (names : FileNames) :
    BlocksKept changed node
      { node with
        names := names
        files := (node.files.openFile (node.names.getLocalPath ⟨bucket, key⟩).1 true).2 } where
  next := Nat.le_refl node.nextHandle
  handles := by
    intro id handle' hfind
    refine Or.inl ⟨handle', hfind, rfl, rfl, ?_⟩
    intro _ _ file hsome
    have hfile : node.localFile id = some file :=
      Option.bind_eq_some_iff.2 ⟨handle', hfind, hsome⟩
    exact ⟨hsome, h.content_openFile hfile fun hpath => hfree ⟨id, file, hfile, hpath⟩⟩
  registry hfind := Or.inl hfind

theorem blocksKept_addLocal (hbucket : slash ∉ bucket) (file : LocalFile)
    (hchanged : cacheBlockMarker <+: key → changed = some node.nextHandle) :
    BlocksKept changed node (node.addHandle bucket key (some file)).2 where
  next := Nat.le_succ _
  handles := by
    intro id handle' hfind
    rcases AssocMap.find_insert_eq_some hfind with ⟨rfl, rfl⟩ | ⟨-, hold⟩
    · exact Or.inr ⟨Nat.le_refl _, hbucket, fun hne hblock => absurd (hchanged hblock) hne⟩
    · exact Or.inl ⟨handle', hold, rfl, rfl, fun _ _ file hsome => ⟨hsome, rfl⟩⟩
  registry hfind := Or.inl hfind

theorem Owned.blocksKept_factory (h : node.Owned) (hbucket : slash ∉ bucket)
    {mkdirFault : Option Bytes} {opens : OpenResult}
    (hfree : mkdirFault = none → (∀ reason, opens ≠ .openFailed reason) →
      ¬ node.PathTaken bucket key)
    (hchanged : cacheBlockMarker <+: key → changed = some node.nextHandle) :
    BlocksKept changed node (node.factory bucket key mkdirFault opens).2 ∧
      ∀ id, (node.factory bucket key mkdirFault opens).1 = .ok id →
        id < (node.factory bucket key mkdirFault opens).2.nextHandle ∧
        ∀ handle, (node.factory bucket key mkdirFault opens).2.handles.find id = some handle →
          getPath bucket key = getPath handle.bucket handle.key := by
  cases mkdirFault with
  | some reason => exact ⟨BlocksKept.of_same rfl rfl rfl id, fun id hid => nomatch hid⟩
  | none =>
      cases opens with
      | openFailed reason => exact ⟨BlocksKept.of_same rfl rfl rfl id, fun id hid => nomatch hid⟩
      | fstatFailed reason =>
          refine ⟨h.blocksKept_openPath (hfree rfl fun _ => OpenResult.noConfusion) _, ?_⟩
          intro id hid
          cases hid
      | opened =>
          have hopened := @Owned.blocksKept_openPath node changed bucket key h
            (hfree rfl fun _ => OpenResult.noConfusion)
            (node.names.getLocalPath ⟨bucket, key⟩).2
          refine ⟨hopened.trans (blocksKept_addLocal hbucket _ hchanged), ?_⟩
          intro id hid
          obtain rfl := Except.ok.inj hid
          exact ⟨Nat.lt_succ_self _, fun handle hfind => getPath_addHandle hfind⟩

theorem Owned.blocksKept_createAsFileHandle (h : node.Owned)
    (hfree : node.TouchesFile bucket key answers → ¬ node.PathTaken bucket key)
    (hchanged : cacheBlockMarker <+: key → changed = some node.nextHandle) :
    BlocksKept changed node (node.createAsFileHandle bucket key overwrite answers).2 := by
  obtain ⟨known, ⟨status, -, hcreate⟩ | ⟨⟨hrunning, hvalid, hbucket⟩, hfactory⟩⟩ :=
    @createAsFileHandle_cases node bucket key overwrite answers
  · rw [hcreate]
    exact BlocksKept.of_same rfl rfl rfl id
  · have hknown : BlocksKept changed node { node with knownBuckets := known } :=
      BlocksKept.of_same rfl rfl rfl id
    obtain ⟨hkept, hid⟩ := @Owned.blocksKept_factory { node with knownBuckets := known } changed
      bucket key (h.of_same rfl rfl rfl) (isValid.slash_not_mem hvalid) answers.mkdirFault
      answers.openFile
      (fun hmkdir hopens => hfree ⟨hrunning, hvalid, hbucket, hmkdir, hopens⟩) hchanged
    rcases hfactory with ⟨status, made, hmade, hcreate⟩ | ⟨id, made, hmade, hcreate⟩
    · rw [hmade] at hkept
      rw [hcreate]
      exact hknown.trans hkept
    · rw [hmade] at hkept hid
      rw [hcreate]
      obtain ⟨hlt, hpath⟩ := hid id rfl
      refine (hknown.trans hkept).trans ?_
      cases overwrite with
      | true => exact blocksKept_replaceHandle hlt hpath
      | false => exact blocksKept_registerHandle hlt hpath

theorem Owned.blocksKept_create (h : node.Owned)
    (hfree : node.TouchesFile bucket key answers → ¬ node.PathTaken bucket key)
    (hchanged : cacheBlockMarker <+: key → changed = some node.nextHandle) :
    BlocksKept changed node (node.create bucket key overwrite answers).2 := by
  have hcreated := @Owned.blocksKept_createAsFileHandle node changed bucket key overwrite
    answers h hfree hchanged
  rw [Node.create]
  generalize Node.createAsFileHandle _ _ _ _ _ = created at hcreated
  obtain ⟨result, created⟩ := created
  cases result with
  | error status => exact hcreated
  | ok id =>
      refine hcreated.trans ?_
      exact (blocksKept_openFile id).trans (blocksKept_dropReference id)

/-- A creation that succeeds gives its caller the next handle, with an empty file. -/
theorem createAsFileHandle_made {id : Nat}
    (hresult : (node.createAsFileHandle bucket key false answers).1 = .ok id) :
    id = node.nextHandle ∧
      (node.createAsFileHandle bucket key false answers).2.nextHandle = node.nextHandle + 1 ∧
      ∃ handle file,
        (node.createAsFileHandle bucket key false answers).2.handles.find id = some handle ∧
        handle.bucket = bucket ∧ handle.key = key ∧ handle.file = some file ∧
        file.Holds (node.createAsFileHandle bucket key false answers).2.files [] := by
  by_cases hopens : node.OpensFile bucket key answers
  · obtain ⟨known, hcreated⟩ := @createAsFileHandle_of_opens node bucket key false answers hopens
    rw [hcreated] at hresult ⊢
    simp only [Bool.false_eq_true, ↓reduceIte, registerHandle] at hresult ⊢
    split_ifs at hresult ⊢ with hexists
    obtain rfl : node.nextHandle = id := Except.ok.inj hresult
    refine ⟨rfl, rfl, _, _, AssocMap.find_insert_self _ _ _, rfl, rfl, rfl, ?_⟩
    have hempty := @FileSystem.content_openFile_truncated _ _ node.files
      (node.names.getLocalPath ⟨bucket, key⟩).1
    exact ⟨by rw [hempty], hempty⟩
  · obtain ⟨⟨status, hstatus⟩, -⟩ :=
      @createAsFileHandle_of_not_opens node bucket key false answers hopens
    rw [hstatus] at hresult
    cases hresult

theorem find_dropReference_of_last {id : Nat} {handle : FileHandle}
    (hfind : node.handles.find id = some handle) (hlast : handle.references = 1)
    (hunregistered : ∀ path, node.fileHandles.find path ≠ some id) :
    (node.dropReference id).handles.find id = none := by
  have hnone : ∀ handles : AssocMap Nat FileHandle,
      Node.isRegistered { node with handles := handles } id = false :=
    fun _ => isRegistered_eq_false hunregistered
  simp [dropReference, modifyHandle, hfind, release, hnone, hlast]

/-- A creation that fails leaves no handle behind. -/
theorem Owned.find_createAsFileHandle_of_error (h : node.Owned) (hnamed : node.WellNamed)
    {status : Status}
    (hresult : (node.createAsFileHandle bucket key false answers).1 = .error status) :
    (node.createAsFileHandle bucket key false answers).2.handles.find node.nextHandle = none := by
  have hnone : node.handles.find node.nextHandle = none := by
    by_contra hlive
    exact absurd (h.numbered hlive) (lt_irrefl _)
  by_cases hopens : node.OpensFile bucket key answers
  · obtain ⟨known, hcreated⟩ := @createAsFileHandle_of_opens node bucket key false answers hopens
    rw [hcreated] at hresult ⊢
    simp only [Bool.false_eq_true, ↓reduceIte, Node.registerHandle] at hresult ⊢
    split_ifs at hresult ⊢ with hexists
    apply find_dropReference_of_last (AssocMap.find_insert_self _ _ _) rfl
    intro path hnew
    -- the registry has what it had, so it does not know the handle
    have hold : node.fileHandles.find path = some node.nextHandle := by
      change (node.fileHandles.insertOrExists (getPath bucket key) node.nextHandle).2.find path =
        some node.nextHandle at hnew
      change (node.fileHandles.insertOrExists (getPath bucket key) node.nextHandle).1 ≠
        node.nextHandle at hexists
      rw [ConcurrentMap.insertOrExists] at hnew hexists
      cases hfind : node.fileHandles.find (getPath bucket key) with
      | none =>
          rw [hfind] at hexists
          exact absurd rfl hexists
      | some existing =>
          rw [hfind] at hnew
          exact hnew
    exact absurd (hnamed.registry hold).1 (lt_irrefl _)
  · have hkept := (@createAsFileHandle_of_not_opens node bucket key false answers hopens).2
    rw [hkept.handles]
    exact hnone

end Create

section Events

variable {bucket key : Bytes}

theorem blocksKept_openAsFileHandle (bucket key : Bytes) (reopened : Status) :
    BlocksKept changed node (node.openAsFileHandle bucket key reopened).2 := by
  rcases @openAsFileHandle_cases node bucket key reopened with
    ⟨status, hopen⟩ | ⟨id, hopen⟩ | ⟨hbucket, id, hopen⟩
  · rw [hopen]
    exact blocksKept_refl
  · rw [hopen]
    apply blocksKept_modifyHandle
    intro handle
    exact ⟨rfl, rfl, rfl⟩
  · rw [hopen]
    refine (blocksKept_addRemote hbucket key).trans ?_
    apply blocksKept_insertOrExists (addHandle_lt bucket key none)
    intro handle hfind
    exact getPath_addHandle hfind

/-- Names may be taken out of the registry. -/
theorem blocksKept_removed {kept : ConcurrentMap Bytes Nat}
    (hkept : ∀ path, kept.find path = none ∨ kept.find path = node.fileHandles.find path) :
    BlocksKept changed node { node with fileHandles := kept } := by
  refine BlocksKept.of_same rfl rfl rfl ?_
  intro path id hfind
  rcases hkept path with hnone | hsame
  · exact absurd (hnone.symm.trans hfind) (Option.some_ne_none id).symm
  · exact hsame.symm.trans hfind

theorem blocksKept_openFrom (bucket key : Bytes) (attempts : List Status) :
    BlocksKept changed node (openFrom bucket key attempts node).2 := by
  induction attempts generalizing node with
  | nil => exact blocksKept_refl
  | cons reopened attempts ih =>
      have hfound := @blocksKept_openAsFileHandle node changed bucket key reopened
      rw [openFrom]
      generalize openAsFileHandle _ _ _ _ = found at hfound
      obtain ⟨result, found⟩ := found
      cases result with
      | error status => exact hfound
      | ok id =>
          simp only
          split_ifs
          · refine hfound.trans ?_
            exact (blocksKept_openFile id).trans (blocksKept_dropReference id)
          · refine hfound.trans ?_
            refine BlocksKept.trans ?_ (blocksKept_dropReference id)
            exact (blocksKept_removed (find_removeIf _ _ _)).trans ih

theorem handle_setFile {id other : Nat} {file : LocalFile} {files : FileSystem Bytes}
    {handle' : FileHandle} (hfind : (node.setFile id file files).handles.find other = some handle') :
    ∃ handle, node.handles.find other = some handle ∧ handle.bucket = handle'.bucket ∧
      handle.key = handle'.key ∧ (other ≠ id → handle.file = handle'.file) := by
  rw [setFile, find_modifyHandle] at hfind
  by_cases heq : other = id
  · rw [if_pos heq] at hfind
    obtain ⟨handle, hhandle, rfl⟩ := Option.map_eq_some_iff.1 hfind
    exact ⟨handle, heq ▸ hhandle, rfl, rfl, fun hne => absurd heq hne⟩
  · rw [if_neg heq] at hfind
    exact ⟨handle', hfind, rfl, rfl, fun _ => rfl⟩

theorem localFile_setFile {id : Nat} {file file' : LocalFile} {files : FileSystem Bytes}
    (hfile : node.localFile id = some file) :
    (node.setFile id file' files).localFile id = some file' := by
  obtain ⟨handle, hhandle, -⟩ := Option.bind_eq_some_iff.1 hfile
  simp [localFile, setFile, find_modifyHandle, hhandle]

/-- The bytes of one handle change: it is the exception, or no block. -/
theorem Owned.blocksKept_setFile (h : node.Owned) {id : Nat} {file file' : LocalFile}
    (hfile : node.localFile id = some file) {files : FileSystem Bytes}
    (hcontent : ∀ inode, inode ≠ file.inode → files.content inode = node.files.content inode)
    (hchanged : changed = some id ∨
      ∀ handle, node.handles.find id = some handle → ¬ cacheBlockMarker <+: handle.key) :
    BlocksKept changed node (node.setFile id file' files) := by
  have hsame : SameRegistry node (node.setFile id file' files) := sameRegistry_modifyHandle id _
  refine ⟨hsame.2.ge, ?_, ?_⟩
  · intro other handle' hfind
    obtain ⟨handle, hhandle, hbucket, hkey, hother⟩ := handle_setFile hfind
    refine Or.inl ⟨handle, hhandle, hbucket, hkey, ?_⟩
    intro hne hblock after hsome
    have hdifferent : other ≠ id := by
      rintro rfl
      rcases hchanged with hchanged | hforeign
      · exact hne hchanged
      · exact hforeign handle hhandle (hkey ▸ hblock)
    have hafter : node.localFile other = some after :=
      Option.bind_eq_some_iff.2 ⟨handle, hhandle, (hother hdifferent).trans hsome⟩
    refine ⟨(hother hdifferent).trans hsome, hcontent _ fun heq => hdifferent ?_⟩
    -- one inode has one path, and one path one handle
    have hlinked := h.linked hafter
    rw [heq] at hlinked
    exact h.distinct hafter hfile (node.files.single hlinked (h.linked hfile))
  · intro path other hfind
    rw [hsame.1] at hfind
    exact Or.inl hfind

theorem content_writeBytes_of_ne {file : LocalFile} {files : FileSystem Bytes} {inode : Nat}
    (hne : inode ≠ file.inode) (bytes : Bytes) (position : UInt64) (fault : Option WriteFault) :
    (file.writeBytes files bytes position fault).2.2.content inode = files.content inode := by
  have hset : ∀ content, (files.setContent file.inode content).content inode =
      files.content inode := fun content => Heap.get_set_of_ne _ _ hne
  simp only [LocalFile.writeBytes]
  split_ifs
  · rfl
  · rfl
  · cases fault <;> exact hset _

theorem content_truncate_of_ne {file : LocalFile} {files : FileSystem Bytes} {inode : Nat}
    (hne : inode ≠ file.inode) (targetSize : UInt64) (fault : Option Bytes) :
    (file.truncate files targetSize fault).2.2.content inode = files.content inode := by
  cases fault with
  | some reason => rfl
  | none => exact Heap.get_set_of_ne _ _ hne

theorem Owned.blocksKept_writeBytes (h : node.Owned) {id : Nat}
    (hchanged : changed = some id ∨
      ∀ handle, node.handles.find id = some handle → ¬ cacheBlockMarker <+: handle.key)
    (bytes : Bytes) (position : UInt64) (fault : Option WriteFault) :
    BlocksKept changed node (node.writeBytes id bytes position fault).2 := by
  rw [Node.writeBytes]
  cases hfile : node.localFile id with
  | none => exact blocksKept_refl
  | some file =>
      exact h.blocksKept_setFile hfile
        (fun inode hne => content_writeBytes_of_ne hne bytes position fault) hchanged

theorem Owned.blocksKept_truncate (h : node.Owned) {id : Nat}
    (hchanged : changed = some id ∨
      ∀ handle, node.handles.find id = some handle → ¬ cacheBlockMarker <+: handle.key)
    (targetSize : UInt64) (fault : Option Bytes) :
    BlocksKept changed node (node.truncate id targetSize fault).2 := by
  rw [Node.truncate]
  cases hfile : node.localFile id with
  | none => exact blocksKept_refl
  | some file =>
      exact h.blocksKept_setFile hfile
        (fun inode hne => content_truncate_of_ne hne targetSize fault) hchanged

theorem WellNamed.blocksKept_relocate (h : node.WellNamed) (id : Nat) (force : Bool)
    (stored : Status) : BlocksKept changed node (node.relocate id force stored) := by
  rcases @relocate_cases node id force stored with
    hrelocate | ⟨path, selector, hrelocate⟩ | ⟨handle, hfind, hrelocate⟩
  · rw [hrelocate]
    exact blocksKept_refl
  · rw [hrelocate]
    exact (blocksKept_removed (find_removeIf _ _ _)).trans (blocksKept_release id)
  · have hadded := @blocksKept_addRemote node changed _ (h.buckets hfind) handle.key
    have hmarked : BlocksKept changed (node.addHandle handle.bucket handle.key none).2
        ((node.addHandle handle.bucket handle.key none).2.modifyHandle id
          fun handle => { handle with isValid := false }) := by
      apply blocksKept_modifyHandle
      intro handle
      exact ⟨rfl, rfl, rfl⟩
    rw [hrelocate]
    refine BlocksKept.trans ?_ (blocksKept_dropReference _)
    refine (hadded.trans hmarked).trans (blocksKept_replaceHandle ?_ ?_)
    · rw [(sameRegistry_modifyHandle id _).2]
      exact addHandle_lt handle.bucket handle.key none
    · intro after hafter
      rcases hmarked.handles hafter with ⟨before, hbefore, hbucket, hkey, -⟩ | ⟨hfresh, -⟩
      · rw [← hbucket, ← hkey]
        exact getPath_addHandle hbefore
      · exact absurd hfresh (Nat.not_le.2 (addHandle_lt handle.bucket handle.key none))

/-- The call makes a local file for a block, or changes the bytes of one. -/
def MeddlesWithBlocks (node : Node) : NodeEvent → Prop
  | .createAsFileHandle _ key _ _ | .create _ key _ _ => cacheBlockMarker <+: key
  | .writeBytes id _ _ _ | .truncate id _ _ =>
      ∃ handle, node.handles.find id = some handle ∧ cacheBlockMarker <+: handle.key
  | _ => False

/-- The call opens, and truncates, the file of a live handle. -/
def TruncatesLive (node : Node) : NodeEvent → Prop
  | .createAsFileHandle bucket key _ answers | .create bucket key _ answers =>
      node.TouchesFile bucket key answers ∧ node.PathTaken bucket key
  | _ => False

theorem SharesPath.truncatesLive {event : NodeEvent} (hshares : node.SharesPath event) :
    node.TruncatesLive event := by
  cases event with
  | createAsFileHandle bucket key overwrite answers => exact ⟨hshares.1.touchesFile, hshares.2⟩
  | create bucket key overwrite answers => exact ⟨hshares.1.touchesFile, hshares.2⟩
  | _ => exact hshares

theorem Owned.blocksKept_perform (h : node.Owned) (hnamed : node.WellNamed) {event : NodeEvent}
    (hforeign : ¬ node.MeddlesWithBlocks event) (hlive : ¬ node.TruncatesLive event) :
    BlocksKept changed node (node.perform event) := by
  cases event with
  | start answer =>
      rw [Node.perform, Node.start]
      split_ifs
      · exact BlocksKept.of_same rfl rfl rfl id
      · exact BlocksKept.of_same rfl rfl rfl id
      · exact blocksKept_refl
  | stop =>
      rw [Node.perform, Node.stop]
      split_ifs
      · refine BlocksKept.trans ?_ (blocksKept_releaseAll _)
        refine BlocksKept.of_same rfl rfl rfl ?_
        intro path id hfind
        simp at hfind
      · exact blocksKept_refl
  | createAsFileHandle bucket key overwrite answers =>
      apply h.blocksKept_createAsFileHandle (fun htouches htaken => hlive ⟨htouches, htaken⟩)
      exact fun hblock => absurd hblock hforeign
  | create bucket key overwrite answers =>
      apply h.blocksKept_create (fun htouches htaken => hlive ⟨htouches, htaken⟩)
      exact fun hblock => absurd hblock hforeign
  | openObject bucket key reopened retried => exact blocksKept_openFrom bucket key _
  | copyFile id => exact blocksKept_openFile id
  | closeFile id =>
      refine BlocksKept.trans ?_ (blocksKept_dropReference id)
      apply blocksKept_modifyHandle
      intro handle
      exact ⟨rfl, rfl, rfl⟩
  | addReference id =>
      apply blocksKept_modifyHandle
      intro handle
      exact ⟨rfl, rfl, rfl⟩
  | dropReference id => exact blocksKept_dropReference id
  | writeBytes id bytes position fault =>
      apply h.blocksKept_writeBytes
      exact Or.inr fun handle hfind hblock => hforeign ⟨handle, hfind, hblock⟩
  | truncate id targetSize fault =>
      apply h.blocksKept_truncate
      exact Or.inr fun handle hfind hblock => hforeign ⟨handle, hfind, hblock⟩
  | deleteObject bucket key answer =>
      rw [Node.perform, Node.deleteObject]
      split_ifs
      · exact blocksKept_refl
      · refine BlocksKept.trans (blocksKept_removed fun path => ?_) (blocksKept_releaseAll _)
        simp only [ConcurrentMap.find_remove]
        split_ifs
        · exact Or.inl rfl
        · exact Or.inr rfl
  | deleteObjectPrefix bucket keyPrefix metadata =>
      rw [Node.perform, Node.deleteObjectPrefix]
      simp only
      split_ifs
      · exact blocksKept_refl
      · refine BlocksKept.trans (blocksKept_removed fun path => ?_) (blocksKept_releaseAll _)
        simp only [ConcurrentMap.find_removeRange]
        split_ifs
        · exact Or.inl rfl
        · exact Or.inr rfl
  | relocate id force stored => exact hnamed.blocksKept_relocate id force stored

end Events

end Node

end GEDS
