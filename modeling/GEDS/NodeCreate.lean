/-
What a rejected `create` does to the object that exists.  The rejected handle is
made on the path that the object's name has now, and its destructor removes
that path.
-/
import GEDS.NodeRegistry

namespace GEDS

open Status

namespace Node

section Rejected

variable {node : Node} {bucket key : Bytes} {answers : CreateAnswers} {status : Status}

theorem isValidBucketName_code : (isValidBucketName bucket).code ≠ .alreadyExists := by
  rw [isValidBucketName]
  split_ifs <;> decide

theorem isValidKeyName_code : (isValidKeyName key).code ≠ .alreadyExists := by
  rw [isValidKeyName]
  split_ifs <;> decide

theorem isValid_code : (isValid bucket key).code ≠ .alreadyExists := by
  rw [isValid]
  split_ifs
  · decide
  · exact isValidKeyName_code
  · exact isValidBucketName_code

theorem createBucket_code (lookup create : Status) :
    (node.createBucket bucket lookup create).1.code ≠ .alreadyExists := by
  simp only [createBucket]
  split_ifs with _ _ hcreate
  · exact StatusCode.noConfusion
  · exact StatusCode.noConfusion
  · exact fun hcode => hcreate (Or.inr hcode)
  · exact isValidBucketName_code

/-- A factory that fails does not report that something exists. -/
theorem factory_code {mkdirFault : Option Bytes} {opens : OpenResult}
    (herror : (node.factory bucket key mkdirFault opens).1 = .error status) :
    status.code ≠ .alreadyExists := by
  simp only [factory] at herror
  cases mkdirFault with
  | some reason =>
      obtain rfl := Except.error.inj herror
      exact StatusCode.noConfusion
  | none =>
      cases opens with
      | openFailed reason =>
          obtain rfl := Except.error.inj herror
          exact StatusCode.noConfusion
      | fstatFailed reason =>
          obtain rfl := Except.error.inj herror
          exact StatusCode.noConfusion
      | opened => cases herror

/-- Only the registry reports that a file exists: by then the handle was made. -/
theorem createAsFileHandle_alreadyExists
    (hresult : (node.createAsFileHandle bucket key false answers).1 = .error status)
    (hcode : status.code = .alreadyExists) :
    ∃ known made id,
      { node with knownBuckets := known }.factory bucket key answers.mkdirFault
        answers.openFile = (.ok id, made) ∧
      (made.registerHandle (getPath bucket key) id).1 = .error status ∧
      (node.createAsFileHandle bucket key false answers).2 =
        (made.registerHandle (getPath bucket key) id).2 := by
  obtain ⟨known, ⟨failure, hrefused, hcreate⟩ |
      ⟨-, ⟨failure, made, hmade, hcreate⟩ | ⟨id, made, hmade, hcreate⟩⟩⟩ :=
    @createAsFileHandle_cases node bucket key false answers
  · rw [hcreate] at hresult
    obtain rfl := Except.error.inj hresult
    rcases hrefused with rfl | rfl | rfl
    · rw [checkServiceRunning] at hcode
      split_ifs at hcode <;> cases hcode
    · exact absurd hcode isValid_code
    · exact absurd hcode (createBucket_code _ _)
  · rw [hcreate] at hresult
    obtain rfl := Except.error.inj hresult
    exact absurd hcode (factory_code (congrArg Prod.fst hmade))
  · simp only [Bool.false_eq_true, ↓reduceIte] at hcreate
    rw [hcreate] at hresult
    exact ⟨known, made, id, hmade, hresult, congrArg Prod.snd hcreate⟩

theorem create_eq_of_error
    (hresult : (node.create bucket key false answers).1 = .error status) :
    (node.createAsFileHandle bucket key false answers).1 = .error status ∧
      (node.create bucket key false answers).2 =
        (node.createAsFileHandle bucket key false answers).2 := by
  simp only [create] at hresult ⊢
  cases hcreated : (node.createAsFileHandle bucket key false answers).1 with
  | error failure =>
      simp only [hcreated] at hresult
      exact ⟨hresult, rfl⟩
  | ok id =>
      simp only [hcreated] at hresult
      cases hresult

/-- The factory opens the path that the name has now. -/
theorem factory_ok {mkdirFault : Option Bytes} {opens : OpenResult} {id : Nat} {made : Node}
    (hmade : node.factory bucket key mkdirFault opens = (.ok id, made)) :
    id = node.nextHandle ∧ made.fileHandles = node.fileHandles ∧
      made.files = (node.files.openFile (node.names.getLocalPath ⟨bucket, key⟩).1 true).2 ∧
      (∀ other, other ≠ id → made.handles.find other = node.handles.find other) ∧
      ∃ handle file, made.handles.find id = some handle ∧ handle.file = some file ∧
        handle.references = 1 ∧ file.path = (node.names.getLocalPath ⟨bucket, key⟩).1 := by
  simp only [factory] at hmade
  cases mkdirFault with
  | some reason => cases hmade
  | none =>
      cases opens with
      | openFailed reason => cases hmade
      | fstatFailed reason => cases hmade
      | opened =>
          obtain ⟨hid, rfl⟩ := Prod.mk.inj hmade
          obtain rfl := Except.ok.inj hid
          refine ⟨rfl, rfl, rfl, ?_, ?_⟩
          · intro other hother
            exact AssocMap.find_insert_of_ne _ hother _
          · exact ⟨_, _, AssocMap.find_insert_self _ _ _, rfl, rfl, rfl⟩

theorem isRegistered_eq_false {id : Nat}
    (hunregistered : ∀ path, node.fileHandles.find path ≠ some id) :
    node.isRegistered id = false := by
  rw [isRegistered, List.any_eq_false]
  intro entry hentry heq
  rw [decide_eq_true_eq] at heq
  apply hunregistered entry.1
  rw [OrderedMap.find_eq_some_iff, ← heq]
  exact hentry

/-- The last pointer to a handle destroys it. -/
theorem dropReference_of_last {id : Nat} {handle : FileHandle} {file : LocalFile}
    (hfind : node.handles.find id = some handle) (hfile : handle.file = some file)
    (hlast : handle.references = 1)
    (hunregistered : ∀ path, node.fileHandles.find path ≠ some id) :
    (node.dropReference id).files = node.files.unlink file.path ∧
      ∀ other, other ≠ id →
        (node.dropReference id).handles.find other = node.handles.find other := by
  have hnone := isRegistered_eq_false hunregistered
  obtain ⟨bucket, key, maybe, valid, openCount, references⟩ := handle
  obtain rfl : maybe = some file := hfile
  obtain rfl : references = 1 := hlast
  have hunnamed : ∀ handles : AssocMap Nat FileHandle,
      Node.isRegistered { node with handles := handles } id = false := fun _ => hnone
  simp only [dropReference, modifyHandle, hfind, release, AssocMap.find_insert, hunnamed,
    LocalFile.destroy, Nat.sub_self, and_self, ↓reduceIte]
  refine ⟨trivial, ?_⟩
  intro other hother
  rw [AssocMap.find_erase, if_neg hother, AssocMap.find_insert, if_neg hother]

/-- A rejected creation leaves the registry and the other handles as they were;
it opens the path that the name has now and removes it. -/
theorem create_rejected (hnumbered : node.Numbered) {id : Nat}
    (hfind : node.fileHandles.find (getPath bucket key) = some id)
    (hresult : (node.create bucket key false answers).1 = .error status)
    (hcode : status.code = .alreadyExists) :
    (node.create bucket key false answers).2.fileHandles = node.fileHandles ∧
      (∀ other, other ≠ node.nextHandle →
        (node.create bucket key false answers).2.handles.find other =
          node.handles.find other) ∧
      (node.create bucket key false answers).2.files =
        (node.files.openFile (node.names.getLocalPath ⟨bucket, key⟩).1 true).2.unlink
          (node.names.getLocalPath ⟨bucket, key⟩).1 := by
  obtain ⟨hresult, hafter⟩ := create_eq_of_error hresult
  obtain ⟨known, made, id', hmade, _, hnode⟩ :=
    createAsFileHandle_alreadyExists hresult hcode
  obtain ⟨rfl, hregistry, hfiles, hothers, handle, file, hhandle, hfile, hlast, hpath⟩ :=
    factory_ok hmade
  have hne : id ≠ node.nextHandle := Nat.ne_of_lt (hnumbered _ _ hfind)
  have hdrop : (node.create bucket key false answers).2 =
      made.dropReference node.nextHandle := by
    rw [hafter, hnode, registerHandle, ConcurrentMap.insertOrExists]
    simp only [hregistry, hfind, ne_eq, hne, not_false_eq_true, ↓reduceIte]
    rw [← hregistry]
  have hunregistered : ∀ path, made.fileHandles.find path ≠ some node.nextHandle := by
    intro path hnamed
    rw [hregistry] at hnamed
    exact absurd (hnumbered path _ hnamed) (lt_irrefl _)
  obtain ⟨hunlinked, hkept⟩ := dropReference_of_last hhandle hfile hlast hunregistered
  rw [hdrop]
  refine ⟨(sameRegistry_dropReference _).1.trans hregistry, ?_, ?_⟩
  · intro other hother
    exact (hkept other hother).trans (hothers other hother)
  · rw [hunlinked, hfiles, hpath]

end Rejected

section Kept

variable {node : Node} {bucket key : Bytes} {answers : CreateAnswers} {status : Status}

/-- The object under the path can be read as before, has the size it had, and
its file is on disk. -/
structure Kept (node node' : Node) (path : Bytes) (id : Nat) (file : LocalFile) : Prop where
  registered : node'.fileHandles.find path = some id
  bytes : ∀ position length,
    node'.readBytes id position length = node.readBytes id position length
  size : (node'.localFile id).map (·.size) = some file.size
  linked : node'.files.links.find file.path = some file.inode

/-- The file is on disk, and the name does not lead to it any more. -/
def PathMoved (node : Node) (bucket key : Bytes) (file : LocalFile) : Prop :=
  node.files.links.find file.path = some file.inode ∧
    (node.names.getLocalPath ⟨bucket, key⟩).1 ≠ file.path

theorem Numbered.create_keeps_iff (hnumbered : node.Numbered) {id : Nat} {file : LocalFile}
    (hfind : node.fileHandles.find (getPath bucket key) = some id)
    (hfile : node.localFile id = some file)
    (hresult : (node.create bucket key false answers).1 = .error status)
    (hcode : status.code = .alreadyExists) :
    node.Kept (node.create bucket key false answers).2 (getPath bucket key) id file ↔
      node.PathMoved bucket key file := by
  obtain ⟨hregistry, hhandles, hfiles⟩ := create_rejected hnumbered hfind hresult hcode
  have hhandle := hhandles id (Nat.ne_of_lt (hnumbered _ _ hfind))
  have hlinks : (node.create bucket key false answers).2.files.links.find file.path =
      if file.path = (node.names.getLocalPath ⟨bucket, key⟩).1 then none
      else node.files.links.find file.path := by
    rw [hfiles, FileSystem.find_unlink, FileSystem.find_openFile]
    split_ifs <;> rfl
  have hfile' : (node.create bucket key false answers).2.localFile id = some file := by
    rw [localFile, hhandle]
    exact hfile
  constructor
  · intro hkept
    have hlinked := hkept.linked
    rw [hlinks] at hlinked
    split_ifs at hlinked with hpath
    exact ⟨hlinked, Ne.symm hpath⟩
  · rintro ⟨hlinked, hmoved⟩
    refine ⟨?_, ?_, ?_, ?_⟩
    · rw [hregistry]
      exact hfind
    · -- the path that is truncated leads to another inode
      intro position length
      have hother : node.files.links.find (node.names.getLocalPath ⟨bucket, key⟩).1 ≠
          some file.inode := by
        intro hsame
        exact hmoved (node.files.single hsame hlinked)
      rw [readBytes, readBytes, hfile', hfile]
      apply LocalFile.readBytes_congr
      rw [hfiles, FileSystem.content_unlink]
      exact FileSystem.content_openFile_of_ne (node.files.bounded hlinked) hother
    · rw [hfile']
      rfl
    · rw [hlinks, if_neg (Ne.symm hmoved)]
      exact hlinked

/-- In every state that a node reaches, a creation without overwriting that
reports an existing file keeps that file if and only if the file is on disk and
its name leads to another path by now. -/
theorem run_create_keeps_iff (pathPrefix : Bytes) (events : List NodeEvent)
    (bucket key : Bytes) (answers : CreateAnswers) (id : Nat) (file : LocalFile)
    (status : Status)
    (hfind : ((new pathPrefix).run events).fileHandles.find (getPath bucket key) = some id)
    (hfile : ((new pathPrefix).run events).localFile id = some file)
    (hresult : (((new pathPrefix).run events).create bucket key false answers).1 =
      .error status)
    (hcode : status.code = .alreadyExists) :
    ((new pathPrefix).run events).Kept
        (((new pathPrefix).run events).create bucket key false answers).2
        (getPath bucket key) id file ↔
      ((new pathPrefix).run events).PathMoved bucket key file :=
  ((new_numbered pathPrefix).run events).create_keeps_iff hfind hfile hresult hcode

end Kept

namespace Sample

/-- An object with four bytes in it. -/
def stored : List NodeEvent :=
  [.start okStatus, .create (text "abc") (text "key") false answers,
    .writeBytes 0 (text "data") 0 none]

/-- Another object whose key is the full name of the first one. -/
def renamed : List NodeEvent :=
  stored ++ [.create (text "xyz") (text "abc/key") false answers]

def file : LocalFile := ⟨text "/geds/abc/0", 0, 4⟩

def status : Status := alreadyExistsError (text "The file abc/keyalready exists!")

theorem renamed_keeps :
    ((new (text "/geds")).run renamed).Kept
      (((new (text "/geds")).run renamed).create (text "abc") (text "key") false answers).2
      (getPath (text "abc") (text "key")) 0 file := by
  apply (run_create_keeps_iff (text "/geds") renamed (text "abc") (text "key") answers 0 file
    status (by decide) (by decide) (by rfl) rfl).mpr
  exact ⟨by decide, by decide⟩

/-- The object is on disk and can be read; a second creation reports that it
exists, and then it is neither. -/
theorem stored_not_kept :
    (((new (text "/geds")).run stored).create (text "abc") (text "key") false answers).1 =
        .error status ∧
      ((new (text "/geds")).run stored).fileHandles.find (getPath (text "abc") (text "key")) =
        some 0 ∧
      ((new (text "/geds")).run stored).localFile 0 = some file ∧
      ((new (text "/geds")).run stored).files.links.find file.path = some file.inode ∧
      ¬ ((new (text "/geds")).run stored).Kept
        (((new (text "/geds")).run stored).create (text "abc") (text "key") false answers).2
        (getPath (text "abc") (text "key")) 0 file := by
  refine ⟨by rfl, by decide, by decide, by decide, ?_⟩
  intro hkept
  exact absurd hkept.linked (by decide)

end Sample

end Node

end GEDS
