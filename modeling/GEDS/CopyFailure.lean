/-
A copy that fails.  The file of the copy is made before any byte is read, and nothing takes it
back; a copy onto an object of this node empties the file of that object before it is refused.
-/
import GEDS.OpenView
import GEDS.RenameLossless

namespace GEDS

open Status

namespace Node

variable {node node' : Node} {path bucket key : Bytes} {id : Nat} {answers : CreateAnswers}

/-- A creation was refused: the handles are as they were, and the file under the local path of
the name is empty if it was opened. -/
structure Refused (bucket key : Bytes) (answers : CreateAnswers) (node node' : Node) : Prop where
  state : node'.state = node.state
  registry : node'.fileHandles = node.fileHandles
  next : node.nextHandle ≤ node'.nextHandle
  handles : ∀ {id}, id < node.nextHandle → node'.handles.find id = node.handles.find id
  touched : node.TouchesFile bucket key answers → ∀ inode, node'.files.content inode =
    (node.files.openFile (node.names.getLocalPath ⟨bucket, key⟩).1 true).2.content inode
  untouched : ¬ node.TouchesFile bucket key answers → ∀ inode,
    node'.files.content inode = node.files.content inode

/-- A creation was made under a path that had no handle. -/
structure Made (path : Bytes) (node node' : Node) : Prop where
  state : node'.state = node.state
  free : node.fileHandles.find path = none
  registered : node'.fileHandles.find path ≠ none
  others : ∀ {other id}, other ≠ path → node.validHandle other = some id →
    node'.validHandle other = some id
  numbered : node'.Numbered

/-- The path has a valid handle with a file, which has bytes in the inode. -/
def FillsInode (node : Node) (path : Bytes) (inode : Nat) : Prop :=
  ∃ id file, node.validHandle path = some id ∧ node.localFile id = some file ∧
    file.inode = inode ∧ (node.files.content inode).take file.size.toNat ≠ []

theorem SameAt.fillsInode_iff (hsame : SameAt path node node') {inode : Nat} :
    node'.FillsInode path inode ↔ node.FillsInode path inode := by
  rw [FillsInode, FillsInode, hsame.validHandle]
  refine exists_congr fun id => exists_congr fun file => and_congr_right fun hvalid => ?_
  have hfind := (validHandle_eq_some_iff.1 hvalid).1
  rw [hsame.file hfind]
  refine and_congr_right fun hfile => and_congr_right fun hinode => ?_
  rw [← hinode, hsame.content hfind hfile]

/-- The registry stays, and its valid handles stay valid. -/
structure StaysValid (node node' : Node) : Prop where
  state : node'.state = node.state
  registry : SameRegistry node node'
  valid : ∀ {path id}, node.validHandle path = some id → node'.validHandle path = some id

section StaysValid

theorem StaysValid.refl : StaysValid node node := ⟨rfl, ⟨rfl, rfl⟩, fun hvalid => hvalid⟩

theorem StaysValid.trans {node'' : Node} (hfirst : StaysValid node node')
    (hsecond : StaysValid node' node'') : StaysValid node node'' where
  state := hsecond.state.trans hfirst.state
  registry := hfirst.registry.trans hsecond.registry
  valid hvalid := hsecond.valid (hfirst.valid hvalid)

theorem sameRegistry_closeFile (id : Nat) : SameRegistry node (node.closeFile id) :=
  (sameRegistry_modifyHandle id _).trans (sameRegistry_dropReference id)

theorem state_closeFile (id : Nat) : (node.closeFile id).state = node.state := by
  have hclosed : NoNewFile node (node.modifyHandle id fun handle =>
      { handle with openCount := handle.openCount - 1 }) :=
    noNewFile_modifyHandle id fun _ => rfl
  exact (hclosed.trans (noNewFile_dropReference id)).state

theorem staysValid_closeFile (id : Nat) : StaysValid node (node.closeFile id) where
  state := state_closeFile id
  registry := sameRegistry_closeFile id
  valid hvalid := (sameAt_closeFile id).validHandle.trans hvalid

/-- A write changes the file of a handle only. -/
theorem staysValid_writeBytes (id : Nat) (bytes : Bytes) (position : UInt64)
    (fault : Option WriteFault) : StaysValid node (node.writeBytes id bytes position fault).2 := by
  have hregistry := @sameRegistry_writeBytes node id bytes position fault
  rw [writeBytes] at hregistry ⊢
  cases hfile : node.localFile id with
  | none => exact StaysValid.refl
  | some file =>
      rw [hfile] at hregistry
      refine ⟨?_, hregistry, fun {path other} hvalid => ?_⟩
      · simp only [setFile, modifyHandle]
        cases node.handles.find id <;> rfl
      · rw [validHandle_eq_some_iff] at hvalid ⊢
        rw [hregistry.1]
        refine ⟨hvalid.1, ?_⟩
        rw [← hvalid.2]
        simp only [isValidHandle, setFile, find_modifyHandle]
        split_ifs with hother
        · rw [hother]
          cases node.handles.find id <;> rfl
        · rfl

end StaysValid

section Create

theorem Refused.of_names (hstate : node'.state = node.state)
    (hregistry : node'.fileHandles = node.fileHandles) (hnext : node'.nextHandle = node.nextHandle)
    (hhandles : node'.handles = node.handles) (hfiles : node'.files = node.files)
    (huntouched : ¬ node.TouchesFile bucket key answers) : Refused bucket key answers node node' where
  state := hstate
  registry := hregistry
  next := hnext.ge
  handles _ := by rw [hhandles]
  touched htouches := absurd htouches huntouched
  untouched _ _ := by rw [hfiles]

theorem Refused.numbered (h : Refused bucket key answers node node') (hnumbered : node.Numbered) :
    node'.Numbered := by
  refine hnumbered.mono h.next fun path id hfind => ?_
  rw [h.registry] at hfind
  exact Or.inl hfind

theorem Refused.validHandle (h : Refused bucket key answers node node')
    (hnumbered : node.Numbered) (path : Bytes) :
    node'.validHandle path = node.validHandle path := by
  rw [Node.validHandle, Node.validHandle, h.registry]
  cases hfind : node.fileHandles.find path with
  | none => rfl
  | some id =>
      rw [Option.filter_some, Option.filter_some, isValidHandle, isValidHandle,
        h.handles (hnumbered _ _ hfind)]

theorem Refused.localFile (h : Refused bucket key answers node node')
    (hnumbered : node.Numbered) (hfind : node.fileHandles.find path = some id) :
    node'.localFile id = node.localFile id := by
  rw [Node.localFile, Node.localFile, h.handles (hnumbered _ _ hfind)]

/-- What a refused creation takes from a file: all of it, or nothing. -/
theorem Refused.content_eq_iff (h : Refused bucket key answers node node') (inode size : Nat) :
    (node'.files.content inode).take size = (node.files.content inode).take size ↔
      ¬ (node.TouchesFile bucket key answers ∧
        inode = (node.files.openFile (node.names.getLocalPath ⟨bucket, key⟩).1 true).1 ∧
        (node.files.content inode).take size ≠ []) := by
  by_cases htouches : node.TouchesFile bucket key answers
  · rw [h.touched htouches, FileSystem.content_openFile]
    split_ifs with hinode
    · rw [List.take_nil]
      constructor
      · rintro hnil ⟨-, -, hbytes⟩
        exact hbytes hnil.symm
      · intro hnot
        by_contra hbytes
        exact hnot ⟨htouches, hinode, fun hnil => hbytes hnil.symm⟩
    · exact iff_of_true rfl fun hemptied => hinode hemptied.2.1
  · rw [h.untouched htouches]
    exact iff_of_true rfl fun hemptied => htouches hemptied.1

/-- A creation that does not come to a handle. -/
theorem refused_of_not_opens (hopens : ¬ node.OpensFile bucket key answers) :
    ∃ status, (node.create bucket key false answers).1 = .error status ∧
      Refused bucket key answers node (node.create bucket key false answers).2 := by
  obtain ⟨known, hknown⟩ := @createBucket_eq node bucket answers.lookupBucket answers.createBucket
  rw [create, createAsFileHandle]
  by_cases hrunning : node.checkServiceRunning.ok = true
  · by_cases hvalid : (isValid bucket key).ok = true
    · by_cases hbucket :
          (node.createBucket bucket answers.lookupBucket answers.createBucket).1.ok = true
      · simp only [hrunning, hvalid, hbucket, hknown, ↓reduceIte, factory]
        cases hmkdir : answers.mkdirFault with
        | some reason =>
            refine ⟨_, rfl, Refused.of_names rfl rfl rfl rfl rfl fun htouches => ?_⟩
            rw [htouches.2.2.2.1] at hmkdir
            cases hmkdir
        | none =>
            cases hopened : answers.openFile with
            | openFailed reason =>
                refine ⟨_, rfl, Refused.of_names rfl rfl rfl rfl rfl fun htouches => ?_⟩
                exact htouches.2.2.2.2 reason hopened
            | fstatFailed reason =>
                refine ⟨_, rfl, rfl, rfl, le_rfl, fun _ => rfl, fun _ _ => rfl, fun huntouched => ?_⟩
                refine absurd ⟨hrunning, hvalid, hbucket, hmkdir, fun other => ?_⟩ huntouched
                rw [hopened]
                exact OpenResult.noConfusion
            | opened => exact absurd ⟨hrunning, hvalid, hbucket, hmkdir, hopened⟩ hopens
      · simp only [hrunning, hvalid, hbucket, hknown, ↓reduceIte]
        exact ⟨_, rfl, Refused.of_names rfl rfl rfl rfl rfl fun htouches => hbucket htouches.2.2.1⟩
    · simp only [hrunning, hvalid, ↓reduceIte]
      exact ⟨_, rfl, Refused.of_names rfl rfl rfl rfl rfl fun htouches => hvalid htouches.2.1⟩
  · simp only [hrunning]
    exact ⟨_, rfl, Refused.of_names rfl rfl rfl rfl rfl fun htouches => hrunning htouches.1⟩

/-- The path has a handle already: the new one is dropped, and the file was opened. -/
theorem refused_of_registered (hnumbered : node.Numbered)
    (hopens : node.OpensFile bucket key answers) {existing : Nat}
    (hfind : node.fileHandles.find (getPath bucket key) = some existing) :
    ∃ status, (node.create bucket key false answers).1 = .error status ∧
      status.code = .alreadyExists ∧
      Refused bucket key answers node (node.create bucket key false answers).2 := by
  obtain ⟨known, hcreated⟩ := @createAsFileHandle_of_opens node bucket key false answers hopens
  have hne : existing ≠ node.nextHandle := Nat.ne_of_lt (hnumbered _ _ hfind)
  have hfind' : (withNewFile { node with knownBuckets := known } bucket key).fileHandles.find
      (getPath bucket key) = some existing := hfind
  have hcreate : node.create bucket key false answers =
      (.error (alreadyExistsError (text "The file " ++ getPath bucket key ++
        text "already exists!")),
        (withNewFile { node with knownBuckets := known } bucket key).dropReference
          node.nextHandle) := by
    rw [create, hcreated]
    simp only [Bool.false_eq_true, ↓reduceIte, registerHandle, ConcurrentMap.insertOrExists, hfind',
      ne_eq, hne, not_false_eq_true]
  rw [hcreate]
  have hunregistered : ∀ path, (withNewFile { node with knownBuckets := known } bucket
      key).fileHandles.find path ≠ some node.nextHandle := fun path hnamed =>
    absurd (hnumbered path _ hnamed) (lt_irrefl _)
  obtain ⟨hfiles, hothers⟩ := @dropReference_of_last
    (withNewFile { node with knownBuckets := known } bucket key) node.nextHandle _ _
    (AssocMap.find_insert_self _ _ _) rfl rfl hunregistered
  have hdropped := @sameRegistry_dropReference
    (withNewFile { node with knownBuckets := known } bucket key) node.nextHandle
  refine ⟨_, rfl, rfl, (noNewFile_dropReference _).state, hdropped.1, ?_, fun hid => ?_,
    fun _ inode => ?_, fun huntouched => absurd hopens.touchesFile huntouched⟩
  · rw [hdropped.2]
    exact Nat.le_succ _
  · refine (hothers _ (Nat.ne_of_lt hid)).trans ?_
    exact AssocMap.find_insert_of_ne _ (Nat.ne_of_lt hid) _
  · rw [hfiles]
    rfl

/-- The path is free, and has a new handle then. -/
theorem made_of_free (hnumbered : node.Numbered) (hopens : node.OpensFile bucket key answers)
    (hfree : node.fileHandles.find (getPath bucket key) = none) :
    ∃ id, (node.create bucket key false answers).1 = .ok id ∧
      Made (getPath bucket key) node (node.create bucket key false answers).2 := by
  obtain ⟨known, hcreated⟩ := @createAsFileHandle_of_opens node bucket key false answers hopens
  have hfree' : (withNewFile { node with knownBuckets := known } bucket key).fileHandles.find
      (getPath bucket key) = none := hfree
  have hnumbered' := hnumbered.create bucket key false answers
  have hcreate : node.create bucket key false answers = (.ok node.nextHandle,
      ({ withNewFile { node with knownBuckets := known } bucket key with
        fileHandles := node.fileHandles.insert (getPath bucket key) node.nextHandle }.openFile
          node.nextHandle).dropReference node.nextHandle) := by
    rw [create, hcreated]
    simp only [Bool.false_eq_true, ↓reduceIte, registerHandle, ConcurrentMap.insertOrExists, hfree',
      ne_eq, not_true_eq_false]
    rfl
  rw [hcreate] at hnumbered' ⊢
  refine ⟨_, rfl, (noNewFile_exchange _).state, hfree, ?_, fun {other id} hother hvalid => ?_,
    hnumbered'⟩
  · rw [(sameAt_exchange _).registry]
    simp
  · obtain ⟨hfind, hid⟩ := validHandle_eq_some_iff.1 hvalid
    have hne : id ≠ node.nextHandle := Nat.ne_of_lt (hnumbered _ _ hfind)
    rw [(sameAt_exchange _).validHandle, validHandle_eq_some_iff]
    refine ⟨(OrderedMap.find_insert _ _ _ _).trans ((if_neg hother).trans hfind), ?_⟩
    have hhandle : (withNewFile { node with knownBuckets := known } bucket key).handles.find id =
        node.handles.find id := AssocMap.find_insert_of_ne _ hne _
    rw [isValidHandle] at hid ⊢
    rw [← hid]
    simp only [hhandle]

end Create

end Node

namespace Cluster

variable {c c' : Cluster} {source dest : ObjectID} {answers : RenameAnswers}

/-- Every call is answered, and every system call works. -/
def answered : RenameAnswers where
  opened := calm
  retried := calm
  create := ⟨okStatus, okStatus, none, .opened⟩
  read _ := none
  reopen _ := ⟨none, none⟩
  reread _ := none
  write _ := none
  sealReply := .received
  deleteReply := .received

/-- A copy that meets no failing call is refused: the destination exists. -/
def Rejected (c : Cluster) (source dest : ObjectID) : Prop :=
  ∀ fuel, ∃ status c', c.copy answered fuel source dest = some (status, c') ∧
    status.code = .alreadyExists

/-- `open` yields for the destination what it yielded before, and a copy that is refused now
was refused before. -/
def Unharmed (source dest : ObjectID) (c c' : Cluster) : Prop :=
  c'.yields dest = c.yields dest ∧ (c'.Rejected source dest → c.Rejected source dest)

/-- The copy makes a file under a name that has no handle. -/
def Creates (c : Cluster) (source dest : ObjectID) (answers : CreateAnswers) : Prop :=
  c.node.OpensFile dest.bucket dest.key answers ∧ c.node.fileHandles.find dest.path = none ∧
    source ≠ dest

/-- The copy opens, to create it, the file of the object that has the name, which is not
empty. -/
def Empties (c : Cluster) (source dest : ObjectID) (answers : CreateAnswers) : Prop :=
  c.node.TouchesFile dest.bucket dest.key answers ∧
    c.node.FillsInode dest.path
      ((c.node.filesLeft source.path).openFile (c.node.names.getLocalPath dest).1 true).1

/-- The source cannot be opened, or the copy neither makes the destination nor empties it; and a
copy onto itself does not find out that the cache was behind. -/
structure Harmless (c : Cluster) (source dest : ObjectID) (answers : RenameAnswers) : Prop where
  created : ∀ {handle}, (openFrom source [answers.opened, answers.retried] c).1 = .ok handle →
    ¬ c.Creates source dest answers.create
  emptied : ∀ {handle}, (openFrom source [answers.opened, answers.retried] c).1 = .ok handle →
    ¬ c.Empties source dest answers.create
  refreshed : source = dest → ¬ c.Refreshes source answers.opened answers.retried

section Copy

variable {fuel src : Nat}

theorem copy_of_unopened {status : Status}
    (hopen : openFrom source [answers.opened, answers.retried] c = (.error status, c')) :
    c.copy answers fuel source dest = some (status, c') := by
  simp only [copy, hopen]

theorem copy_of_refused {status : Status}
    (hopen : openFrom source [answers.opened, answers.retried] c = (.ok src, c'))
    (hcreate : (c'.node.create dest.bucket dest.key false answers.create).1 = .error status) :
    c.copy answers fuel source dest = some (status,
      { c' with
        node := (c'.node.create dest.bucket dest.key false answers.create).2 }.closeFile src) := by
  simp only [copy, hopen, hcreate]

/-- Once the file is made, the files are closed whatever comes, and nothing else is undone. -/
theorem copy_of_made {dst : Nat} {status : Status} {c'' : Cluster}
    (hopen : openFrom source [answers.opened, answers.retried] c = (.ok src, c'))
    (hcreate : (c'.node.create dest.bucket dest.key false answers.create).1 = .ok dst)
    (hrun : c.copy answers fuel source dest = some (status, c'')) :
    ∃ downloaded c₁,
      download source answers src dst (size src { c' with
          node := (c'.node.create dest.bucket dest.key false answers.create).2 }) fuel 0
        { c' with node := (c'.node.create dest.bucket dest.key false answers.create).2 } =
          some (downloaded, c₁) ∧
      (c'' = (c₁.closeFile dst).closeFile src ∨
        c'' = ((c₁.sealFile dest dst answers.sealReply).2.closeFile dst).closeFile src) := by
  simp only [copy, hopen, hcreate] at hrun
  generalize download source answers src dst _ fuel 0 _ = result at hrun ⊢
  cases result with
  | none => cases hrun
  | some result =>
      refine ⟨result.1, result.2, rfl, ?_⟩
      simp only at hrun
      split_ifs at hrun
      · exact Or.inr (Prod.mk.inj (Option.some.inj hrun)).2.symm
      · exact Or.inl (Prod.mk.inj (Option.some.inj hrun)).2.symm

end Copy

section Rejected

theorem opensFile_answered {node : Node} (hrunning : node.checkServiceRunning.ok = true)
    (hvalid : (isValid dest.bucket dest.key).ok = true) :
    node.OpensFile dest.bucket dest.key answered.create := by
  refine ⟨hrunning, hvalid, ?_, rfl, rfl⟩
  have hbucket : (isValidBucketName dest.bucket).ok = true := by
    rw [isValid] at hvalid
    split_ifs at hvalid <;> assumption
  have hlooked : (node.lookupBucket dest.bucket okStatus).1.ok = true := by
    rw [Node.lookupBucket]
    split_ifs <;> rfl
  simp only [Node.createBucket, hbucket, ↓reduceIte, answered, hlooked]
  rfl

theorem create_of_invalid {node : Node} (hvalid : ¬ (isValid dest.bucket dest.key).ok = true)
    (answers : CreateAnswers) :
    ∃ status, (node.create dest.bucket dest.key false answers).1 = .error status ∧
      status.code ≠ .alreadyExists := by
  rw [Node.create, Node.createAsFileHandle]
  by_cases hrunning : node.checkServiceRunning.ok = true
  · simp only [hrunning, hvalid, ↓reduceIte]
    exact ⟨_, rfl, Node.isValid_code⟩
  · simp only [hrunning]
    refine ⟨_, rfl, ?_⟩
    rw [Node.checkServiceRunning]
    split_ifs <;> exact StatusCode.noConfusion

/-- A copy is refused if its source can be opened and its destination has a handle. -/
theorem rejected_iff (hnumbered : c.node.Numbered) :
    c.Rejected source dest ↔ c.yields source ≠ none ∧ (isValid dest.bucket dest.key).ok = true ∧
      (dest.path = source.path ∨ c.node.fileHandles.find dest.path ≠ none) := by
  cases hopen : openFrom source [calm, calm] c with
  | mk result c₁ =>
      cases result with
      | error status =>
          have hyields : c.yields source = none := by rw [yields, hopen]
          refine iff_of_false (fun hrejected => ?_) fun h => h.1 hyields
          obtain ⟨status', c', hcopy, hcode⟩ := hrejected 0
          rw [@copy_of_unopened c c₁ source dest answered 0 status hopen] at hcopy
          obtain ⟨rfl, -⟩ := Prod.mk.inj (Option.some.inj hcopy)
          exact openFrom_calm_code hnumbered hopen hcode
      | ok src =>
          have hyields : c.yields source ≠ none := by
            rw [yields, hopen]
            exact Option.some_ne_none _
          obtain ⟨hserves, hreopened, hvalid, -⟩ := openFrom_ok hnumbered hopen
          have hrunning : c₁.node.checkServiceRunning.ok = true :=
            ((serves_congr hreopened.noNewFile.state).2 hserves).1
          by_cases hname : (isValid dest.bucket dest.key).ok = true
          · have hopens := @opensFile_answered dest c₁.node hrunning hname
            cases hfind : c₁.node.fileHandles.find dest.path with
            | some existing =>
                obtain ⟨status, hcreate, hcode, -⟩ :=
                  Node.refused_of_registered hreopened.numbered hopens hfind
                refine iff_of_true (fun fuel => ⟨_, _, copy_of_refused hopen hcreate, hcode⟩)
                  ⟨hyields, hname, ?_⟩
                rw [or_iff_not_imp_left]
                intro hpath
                rw [← (hreopened.same hpath).registry, hfind]
                exact Option.some_ne_none _
            | none =>
                obtain ⟨dst, hcreate, -⟩ := Node.made_of_free hreopened.numbered hopens hfind
                refine iff_of_false (fun hrejected => ?_) fun h => ?_
                · obtain ⟨status, c', hcopy, -⟩ := hrejected 0
                  obtain ⟨_, _, hdownload, -⟩ :=
                    @copy_of_made c c₁ source dest answered 0 src dst status c' hopen hcreate hcopy
                  cases hdownload
                · have hpath : dest.path ≠ source.path := by
                    intro hpath
                    rw [hpath, (Node.validHandle_eq_some_iff.1 hvalid).1] at hfind
                    cases hfind
                  have hregistered := h.2.2.resolve_left hpath
                  rw [← (hreopened.same hpath).registry] at hregistered
                  exact hregistered hfind
          · obtain ⟨status, hcreate, hcode⟩ := @create_of_invalid dest c₁.node hname answered.create
            refine iff_of_false (fun hrejected => ?_) fun h => hname h.2.1
            obtain ⟨status', c', hcopy, hcode'⟩ := hrejected 0
            rw [@copy_of_refused c c₁ source dest answered 0 src status hopen hcreate] at hcopy
            obtain ⟨rfl, -⟩ := Prod.mk.inj (Option.some.inj hcopy)
            exact hcode hcode'

end Rejected

section Download

variable {src dst fuel : Nat} {total : UInt64}

/-- Reading asks the metadata service at most. -/
theorem node_readBytes (id : ObjectID) (position length : UInt64) :
    (c.readBytes id answers src position length).2.node = c.node := by
  rw [readBytes]
  cases c.node.localFile src with
  | some file =>
      simp only
      cases answers.read position <;> rfl
  | none =>
      obtain ⟨service, hservice⟩ := @reopenInvalidated_service c id (answers.reopen position)
      simp only
      cases c.readRemote id src position length (answers.read position) with
      | ok bytes => rfl
      | error status =>
          simp only [hservice]
          cases (c.reopenInvalidated id (answers.reopen position)).1 <;> rfl

theorem staysValid_downloadRange {id : ObjectID} {srcPosition length destPosition count : UInt64}
    {result : Except Status UInt64}
    (hrun : downloadRange id answers src dst srcPosition length destPosition fuel count c =
      some (result, c')) : Node.StaysValid c.node c'.node := by
  induction fuel generalizing count c with
  | zero => cases hrun
  | succ fuel ih =>
      have hnode := @node_readBytes c answers src id (srcPosition + count)
        (min (length - count) c.cacheBlockSize)
      rw [downloadRange] at hrun
      split_ifs at hrun
      · obtain ⟨-, rfl⟩ := Prod.mk.inj (Option.some.inj hrun)
        exact Node.StaysValid.refl
      · simp only at hrun
        generalize c.readBytes id answers src (srcPosition + count)
          (min (length - count) c.cacheBlockSize) = read at hrun hnode
        obtain ⟨bytes, c₁⟩ := read
        have hread : Node.StaysValid c.node c₁.node := hnode ▸ Node.StaysValid.refl
        cases bytes with
        | error status =>
            obtain ⟨-, rfl⟩ := Prod.mk.inj (Option.some.inj hrun)
            exact hread
        | ok bytes =>
            have hwritten := hread.trans (Node.staysValid_writeBytes dst bytes
              (destPosition + count) (answers.write (destPosition + count)))
            simp only at hrun
            split_ifs at hrun
            · obtain ⟨-, rfl⟩ := Prod.mk.inj (Option.some.inj hrun)
              exact hread
            · obtain ⟨-, rfl⟩ := Prod.mk.inj (Option.some.inj hrun)
              exact hwritten
            · exact hwritten.trans (ih hrun)
            · obtain ⟨-, rfl⟩ := Prod.mk.inj (Option.some.inj hrun)
              exact hwritten

theorem staysValid_download {id : ObjectID} {pos : UInt64} {status : Status}
    (hrun : download id answers src dst total fuel pos c = some (status, c')) :
    Node.StaysValid c.node c'.node := by
  induction fuel generalizing pos c with
  | zero => cases hrun
  | succ fuel ih =>
      rw [download] at hrun
      cases hrange : downloadRange id answers src dst pos (min c.cacheBlockSize (total - pos)) pos
          (fuel + 1) 0 c with
      | none =>
          rw [hrange] at hrun
          cases hrun
      | some range =>
          obtain ⟨result, c₁⟩ := range
          have hstays := staysValid_downloadRange hrange
          rw [hrange] at hrun
          cases result with
          | error failed =>
              obtain ⟨-, rfl⟩ := Prod.mk.inj (Option.some.inj hrun)
              exact hstays
          | ok count =>
              simp only at hrun
              split_ifs at hrun
              · exact hstays.trans (ih hrun)
              · obtain ⟨-, rfl⟩ := Prod.mk.inj (Option.some.inj hrun)
                exact hstays

theorem node_sealFile (reply : Reply) : (c.sealFile dest dst reply).2.node = c.node := by
  rw [sealFile]
  by_cases hrunning : c.node.checkServiceRunning.ok = true
  · rw [if_pos hrunning]
    cases reply with
    | received => rfl
    | lost reason processed => cases processed <;> rfl
  · rw [if_neg hrunning]

theorem staysValid_closeFiles (src dst : Nat) :
    Node.StaysValid c.node ((c.closeFile dst).closeFile src).node :=
  (Node.staysValid_closeFile dst).trans (Node.staysValid_closeFile src)

end Download

section Opened

variable {opened retried : ReopenAnswer × ReopenAnswer} {create : CreateAnswers}

/-- Opening the source changes what is seen of the destination only if the two are the same. -/
theorem yields_dest_eq_iff (hnumbered : c.node.Numbered) (hwf : c.service.cache.WellFormed) :
    (openFrom source [opened, retried] c).2.yields dest = c.yields dest ↔
      (source = dest → ¬ c.Refreshes source opened retried) := by
  by_cases heq : source = dest
  · rw [← heq, yields_openFrom_eq_iff hnumbered hwf]
    exact ⟨fun hnot _ => hnot, fun hnot => hnot rfl⟩
  · refine iff_of_true ?_ fun h => absurd h heq
    obtain ⟨hnumbered', hstate, -⟩ := @openFrom_kept c source opened retried hnumbered
    by_cases hserves : c.Serves dest
    · exact (sameView_openFrom hnumbered hwf hserves (Ne.symm heq)).yields hnumbered hnumbered'
    · have hserves' : ¬ (openFrom source [opened, retried] c).2.Serves dest := fun hserves' =>
        hserves ((serves_congr hstate).1 hserves')
      rw [yields_of_not_serves hserves, yields_of_not_serves hserves']

/-- A copy that is refused then was refused before. -/
theorem rejected_of_openFrom (hnumbered : c.node.Numbered) (hwf : c.service.cache.WellFormed)
    (hrejected : (openFrom source [opened, retried] c).2.Rejected source dest) :
    c.Rejected source dest := by
  obtain ⟨hnumbered', -, hsame⟩ := @openFrom_kept c source opened retried hnumbered
  rw [rejected_iff hnumbered'] at hrejected
  rw [rejected_iff hnumbered]
  obtain ⟨hyields, hname, hregistered⟩ := hrejected
  refine ⟨yields_ne_none_of_openFrom hnumbered hwf hyields, hname, ?_⟩
  rw [or_iff_not_imp_left] at hregistered ⊢
  intro hpath
  rw [← (hsame hpath).registry]
  exact hregistered hpath

/-- Whether a file is made, or one is emptied, is the same before the source is opened. -/
theorem creates_iff (hnumbered : c.node.Numbered) {src : Nat}
    (hopen : openFrom source [opened, retried] c = (.ok src, c')) :
    c.Creates source dest create ↔
      c'.node.OpensFile dest.bucket dest.key create ∧
        c'.node.fileHandles.find dest.path = none := by
  obtain ⟨hserves, hreopened, hvalid, -⟩ := openFrom_ok hnumbered hopen
  have hfind := (Node.validHandle_eq_some_iff.1 hvalid).1
  rw [Creates, hreopened.noNewFile.opensFile_iff]
  refine and_congr_right fun hopens => ?_
  constructor
  · rintro ⟨hnone, hne⟩
    have hdest : c.Serves dest := ⟨hserves.1, hopens.2.1⟩
    rwa [(hreopened.same (path_ne_of_serves hserves hdest (Ne.symm hne))).registry]
  · intro hnone
    have hpath : dest.path ≠ source.path := by
      intro hpath
      rw [hpath, hfind] at hnone
      cases hnone
    refine ⟨(hreopened.same hpath).registry.symm.trans hnone, fun heq => hpath ?_⟩
    rw [heq]

theorem empties_iff (hnumbered : c.node.Numbered) {src : Nat}
    (hopen : openFrom source [opened, retried] c = (.ok src, c')) :
    c'.Empties source dest create ↔ c.Empties source dest create := by
  obtain ⟨-, hreopened, hvalid, hkept⟩ := openFrom_ok hnumbered hopen
  obtain ⟨hfind, hisValid⟩ := Node.validHandle_eq_some_iff.1 hvalid
  rw [Empties, Empties, hreopened.noNewFile.touchesFile_iff, hreopened.noNewFile.names,
    Node.filesLeft_of_valid hfind hisValid, hreopened.files]
  refine and_congr_right fun _ => ?_
  by_cases hpath : dest.path = source.path
  · rw [hpath]
    rcases hkept with hsame | ⟨hnone, hfile⟩
    · exact hsame.fillsInode_iff
    · refine iff_of_false ?_ ?_
      · rintro ⟨handle, file, hhandle, hfile', -⟩
        obtain rfl := Option.some.inj (hvalid.symm.trans hhandle)
        rw [hfile] at hfile'
        cases hfile'
      · rintro ⟨handle, file, hhandle, -⟩
        rw [hnone] at hhandle
        cases hhandle
  · exact (hreopened.same hpath).fillsInode_iff

end Opened

section Failed

variable {create : CreateAnswers} {node : Node} {src : Nat}

/-- A refused creation changes what is seen of the destination if it empties its file. -/
theorem yields_refused_eq_iff (hnumbered : c.node.Numbered)
    (hrefused : Node.Refused dest.bucket dest.key create c.node node)
    (hsource : c.node.validHandle source.path = some src) :
    { c with node := node }.yields dest = c.yields dest ↔ ¬ c.Empties source dest create := by
  obtain ⟨hfind, hisValid⟩ := Node.validHandle_eq_some_iff.1 hsource
  have hnumbered' := hrefused.numbered hnumbered
  rw [Empties, Node.filesLeft_of_valid hfind hisValid]
  by_cases hserves : c.Serves dest
  · have hserves' : { c with node := node }.Serves dest := (serves_congr hrefused.state).2 hserves
    have hvalid := hrefused.validHandle hnumbered dest.path
    cases hhandle : c.node.validHandle dest.path with
    | none =>
        rw [yields_of_none hserves hnumbered hhandle,
          yields_of_none hserves' hnumbered' (hvalid.trans hhandle)]
        refine iff_of_true rfl ?_
        rintro ⟨-, handle, file, hhandle', -⟩
        rw [hhandle] at hhandle'
        cases hhandle'
    | some handle =>
        have hsame : node.localFile handle = c.node.localFile handle :=
          hrefused.localFile hnumbered (Node.validHandle_eq_some_iff.1 hhandle).1
        rw [yields_of_some hserves hnumbered hhandle,
          yields_of_some hserves' hnumbered' (hvalid.trans hhandle), Option.some.injEq, bytesOf,
          bytesOf]
        simp only [hsame]
        cases hfile : c.node.localFile handle with
        | none =>
            refine iff_of_true rfl ?_
            rintro ⟨-, handle', file, hhandle', hfile', -⟩
            obtain rfl := Option.some.inj (hhandle.symm.trans hhandle')
            rw [hfile] at hfile'
            cases hfile'
        | some file =>
            have hfills : ∀ {inode}, c.node.FillsInode dest.path inode ↔
                file.inode = inode ∧ (c.node.files.content file.inode).take file.size.toNat ≠ [] := by
              intro inode
              simp only [Node.FillsInode, hhandle, Option.some.injEq, exists_and_left,
                exists_eq_left', hfile]
              exact and_congr_right fun hinode => by rw [hinode]
            rw [hfills, Option.some.injEq]
            exact hrefused.content_eq_iff file.inode file.size.toNat
  · have hserves' : ¬ { c with node := node }.Serves dest := fun hserves' =>
      hserves ((serves_congr hrefused.state).1 hserves')
    rw [yields_of_not_serves hserves, yields_of_not_serves hserves']
    exact iff_of_true rfl fun h => hserves ⟨h.1.1, h.1.2.1⟩

theorem rejected_of_refused (hnumbered : c.node.Numbered)
    (hrefused : Node.Refused dest.bucket dest.key create c.node node)
    (hserves : c.Serves source) (hsource : c.node.validHandle source.path = some src)
    (hrejected : { c with node := node }.Rejected source dest) : c.Rejected source dest := by
  rw [rejected_iff (hrefused.numbered hnumbered)] at hrejected
  rw [rejected_iff hnumbered, yields_of_some hserves hnumbered hsource]
  obtain ⟨-, hname, hregistered⟩ := hrejected
  refine ⟨Option.some_ne_none _, hname, ?_⟩
  rwa [hrefused.registry] at hregistered

/-- Closing a file changes nothing that is seen. -/
theorem unharmed_closeFile_iff (hnumbered : c'.node.Numbered) (handle : Nat) :
    Unharmed source dest c (c'.closeFile handle) ↔ Unharmed source dest c c' := by
  have hview : ∀ id, SameView id c' (c'.closeFile handle) := fun id =>
    ⟨Node.state_closeFile handle, Node.sameAt_closeFile handle, fun _ => rfl, rfl, rfl⟩
  have hregistry := @Node.sameRegistry_closeFile c'.node handle
  have hnumbered' : (c'.closeFile handle).node.Numbered := hnumbered.of_sameRegistry hregistry
  have hyields : ∀ id, (c'.closeFile handle).yields id = c'.yields id := fun id =>
    (hview id).yields hnumbered hnumbered'
  have hfind : (c'.closeFile handle).node.fileHandles = c'.node.fileHandles := hregistry.1
  rw [Unharmed, Unharmed, hyields, rejected_iff hnumbered', rejected_iff hnumbered, hyields, hfind]

/-- A file that was made is in the way of the next copy. -/
theorem rejected_of_staysValid (hserves : c.Serves source)
    (hname : (isValid dest.bucket dest.key).ok = true) (hnumbered : c.node.Numbered)
    (hsource : c.node.validHandle source.path = some src)
    (hregistered : c.node.fileHandles.find dest.path ≠ none)
    (hstays : Node.StaysValid c.node c'.node) : c'.Rejected source dest := by
  have hnumbered' := hnumbered.of_sameRegistry hstays.registry
  have hserves' := (serves_congr hstays.state).2 hserves
  rw [rejected_iff hnumbered', yields_of_some hserves' hnumbered' (hstays.valid hsource),
    hstays.registry.1]
  exact ⟨Option.some_ne_none _, hname, Or.inr hregistered⟩

theorem not_empties_of_refreshes {opened retried : ReopenAnswer × ReopenAnswer}
    (hrefreshes : c.Refreshes source opened retried) : ¬ c.Empties source source create := by
  rintro ⟨-, handle, file, hhandle, -⟩
  rw [hrefreshes.2.1] at hhandle
  cases hhandle

/-- The copy is refused once its source is open. -/
theorem refused_unharmed_iff (hnumbered : c.node.Numbered) (hwf : c.service.cache.WellFormed)
    (hopen : openFrom source [answers.opened, answers.retried] c = (.ok src, c'))
    (hrefused : Node.Refused dest.bucket dest.key answers.create c'.node node)
    (hcreates : ¬ c.Creates source dest answers.create) :
    Unharmed source dest c ({ c' with node := node }.closeFile src) ↔
      c.Harmless source dest answers := by
  obtain ⟨hserves, hreopened, hvalid, -⟩ := openFrom_ok hnumbered hopen
  have hserves' := (serves_congr hreopened.noNewFile.state).2 hserves
  have hresult : (openFrom source [answers.opened, answers.retried] c).1 = .ok src := by rw [hopen]
  have hdest := @yields_dest_eq_iff c source dest answers.opened answers.retried hnumbered hwf
  have hrejected : { c' with node := node }.Rejected source dest → c.Rejected source dest := by
    intro hrejected
    have hbefore := rejected_of_refused hreopened.numbered hrefused hserves' hvalid hrejected
    exact @rejected_of_openFrom c source dest answers.opened answers.retried hnumbered hwf
      (hopen ▸ hbefore)
  have hempties := yields_refused_eq_iff hreopened.numbered hrefused hvalid
  rw [empties_iff hnumbered hopen] at hempties
  rw [hopen] at hdest
  rw [unharmed_closeFile_iff (hrefused.numbered hreopened.numbered), Unharmed,
    and_iff_left hrejected]
  constructor
  · intro hyields
    have hrefreshed : source = dest → ¬ c.Refreshes source answers.opened answers.retried := by
      intro heq hrefreshes
      refine hdest.1 ?_ heq hrefreshes
      rw [← hyields, eq_comm, hempties, ← heq]
      exact not_empties_of_refreshes hrefreshes
    refine ⟨fun _ => hcreates, fun _ => ?_, hrefreshed⟩
    rw [← hempties, hyields, eq_comm]
    exact hdest.2 hrefreshed
  · intro hharmless
    rw [hempties.2 (hharmless.emptied hresult)]
    exact hdest.2 hharmless.refreshed

/-- A file that was made stays, whatever comes then, and the next copy is refused for it. -/
theorem made_harmed (hnumbered : c.node.Numbered)
    (hopen : openFrom source [answers.opened, answers.retried] c = (.ok src, c'))
    (hopens : c'.node.OpensFile dest.bucket dest.key answers.create)
    (hfind : c'.node.fileHandles.find dest.path = none) {fuel : Nat} {status : Status}
    {c'' : Cluster} (hrun : c.copy answers fuel source dest = some (status, c'')) :
    ¬ Unharmed source dest c c'' := by
  obtain ⟨hserves, hreopened, hvalid, -⟩ := openFrom_ok hnumbered hopen
  have hpath : dest.path ≠ source.path := by
    intro hpath
    rw [hpath, (Node.validHandle_eq_some_iff.1 hvalid).1] at hfind
    cases hfind
  obtain ⟨dst, hcreate, hmade⟩ := Node.made_of_free hreopened.numbered hopens hfind
  obtain ⟨downloaded, c₁, hdownload, hend⟩ := copy_of_made hopen hcreate hrun
  generalize (c'.node.create dest.bucket dest.key false answers.create).2 = made at hmade hdownload
  have hdownloaded : Node.StaysValid made c₁.node := staysValid_download hdownload
  have hstays : Node.StaysValid made c''.node := by
    rcases hend with rfl | rfl
    · exact hdownloaded.trans (staysValid_closeFiles src dst)
    · rw [← @node_sealFile c₁ dest dst answers.sealReply] at hdownloaded
      exact hdownloaded.trans (staysValid_closeFiles src dst)
  rintro ⟨-, hbefore⟩
  have hserves' : { c' with node := made }.Serves source :=
    (serves_congr (hmade.state.trans hreopened.noNewFile.state)).2 hserves
  have hrejected : c''.Rejected source dest := by
    refine @rejected_of_staysValid { c' with node := made } c'' source dest src hserves' hopens.2.1
      hmade.numbered ?_ hmade.registered hstays
    exact hmade.others (Ne.symm hpath) hvalid
  obtain ⟨-, -, hregistered⟩ := (rejected_iff hnumbered).1 (hbefore hrejected)
  apply hregistered.resolve_left hpath
  rw [← (hreopened.same hpath).registry, hfind]

/-- A copy leaves its destination as it was if and only if it cannot open its source, or it
neither makes the destination nor empties its file, and, onto itself, does not refresh the
cache. -/
theorem copy_unharmed_iff (hnumbered : c.node.Numbered) (hwf : c.service.cache.WellFormed)
    {fuel : Nat} {status : Status} (hrun : c.copy answers fuel source dest = some (status, c')) :
    Unharmed source dest c c' ↔ c.Harmless source dest answers := by
  cases hopen : openFrom source [answers.opened, answers.retried] c with
  | mk result c₁ =>
      cases result with
      | error failed =>
          rw [copy_of_unopened hopen] at hrun
          obtain ⟨-, rfl⟩ := Prod.mk.inj (Option.some.inj hrun)
          have hdest :=
            @yields_dest_eq_iff c source dest answers.opened answers.retried hnumbered hwf
          have hrejected :=
            @rejected_of_openFrom c source dest answers.opened answers.retried hnumbered hwf
          rw [hopen] at hdest hrejected
          rw [Unharmed, and_iff_left hrejected, hdest]
          refine ⟨fun hrefreshed => ⟨?_, ?_, hrefreshed⟩, fun hharmless => hharmless.refreshed⟩
          all_goals
            intro handle hok
            rw [hopen] at hok
            cases hok
      | ok src =>
          obtain ⟨hserves, hreopened, hvalid, -⟩ := openFrom_ok hnumbered hopen
          have hcreates := @creates_iff c c₁ source dest answers.opened answers.retried
            answers.create hnumbered src hopen
          by_cases hopens : c₁.node.OpensFile dest.bucket dest.key answers.create
          · cases hfind : c₁.node.fileHandles.find dest.path with
            | some existing =>
                obtain ⟨refused, hcreate, -, hrefused⟩ :=
                  Node.refused_of_registered hreopened.numbered hopens hfind
                rw [copy_of_refused hopen hcreate] at hrun
                obtain ⟨-, rfl⟩ := Prod.mk.inj (Option.some.inj hrun)
                refine refused_unharmed_iff hnumbered hwf hopen hrefused fun hmakes => ?_
                rw [(hcreates.1 hmakes).2] at hfind
                cases hfind
            | none =>
                have hmakes := hcreates.2 ⟨hopens, hfind⟩
                refine iff_of_false (made_harmed hnumbered hopen hopens hfind hrun) fun h => ?_
                exact @Harmless.created _ _ _ _ h src (by rw [hopen]) hmakes
          · obtain ⟨refused, hcreate, hrefused⟩ := Node.refused_of_not_opens hopens
            rw [copy_of_refused hopen hcreate] at hrun
            obtain ⟨-, rfl⟩ := Prod.mk.inj (Option.some.inj hrun)
            exact refused_unharmed_iff hnumbered hwf hopen hrefused fun hmakes =>
              hopens (hcreates.1 hmakes).1

end Failed

namespace CopyFailure.Sample

open Cluster.Sample

def first : ObjectID := ⟨bucket, text "a"⟩

def second : ObjectID := ⟨bucket, text "aa"⟩

def missing : ObjectID := ⟨bucket, text "b"⟩

/-- The folder for the copy cannot be made. -/
def noFolder : RenameAnswers :=
  { answered with create := ⟨okStatus, okStatus, some (text "full"), .opened⟩ }

/-- The disk is full after two bytes. -/
def diskFull : RenameAnswers :=
  { answered with write := fun position => if position = 2 then some ⟨0, none⟩ else none }

theorem noFolder_unharmed :
    ∃ status c', start.copy noFolder 5 first missing = some (status, c') ∧ status.ok = false ∧
      Unharmed first missing start c' := by
  have hrun : (start.copy noFolder 5 first missing).map (fun result => result.1.ok) =
      some false := by rfl
  obtain ⟨⟨status, c'⟩, hrun, hstatus⟩ := Option.map_eq_some_iff.1 hrun
  refine ⟨status, c', hrun, hstatus, ?_⟩
  refine (copy_unharmed_iff start_namespace.sound.registered start_namespace.wellFormed hrun).2
    ⟨fun _ hcreates => ?_, fun _ hempties => ?_, fun heq => absurd heq (by decide)⟩
  · exact absurd hcreates.1.2.2.2.1 (by decide)
  · exact absurd hempties.1.2.2.2.1 (by decide)

/-- What was written of a copy stays under the new name, and the next copy is refused; a copy
onto a file of this node is refused when the file is empty already. -/
theorem failed_copies_harm :
    (∃ status c', start.copy diskFull 5 first missing = some (status, c') ∧ status.ok = false ∧
      start.yields missing = none ∧ c'.yields missing = some (some (text "on")) ∧
      ¬ start.Rejected first missing ∧ c'.Rejected first missing ∧
      ¬ Unharmed first missing start c') ∧
    ∃ status c', startHere.copy answered 5 first second = some (status, c') ∧
      status.ok = false ∧ startHere.yields second = some (some (text "two")) ∧
      c'.yields second = some (some []) ∧ ¬ Unharmed first second startHere c' := by
  refine ⟨?_, ?_⟩
  · have hrun : (start.copy diskFull 5 first missing).map
        (fun result => (result.1.ok, result.2.yields missing, fun fuel =>
          (result.2.copy answered fuel first missing).map fun again => again.1.code)) =
          some (false, some (some (text "on")), fun _ => some .alreadyExists) := by rfl
    obtain ⟨⟨status, c'⟩, hrun, hresult⟩ := Option.map_eq_some_iff.1 hrun
    obtain ⟨hstatus, hrest⟩ := Prod.mk.inj hresult
    obtain ⟨hyields, hagain⟩ := Prod.mk.inj hrest
    have hbefore : ¬ start.Rejected first missing := by
      intro hrejected
      obtain ⟨_, _, hcopy, -⟩ := hrejected 0
      exact absurd hcopy (Option.some_ne_none _).symm
    have hafter : c'.Rejected first missing := by
      intro fuel
      obtain ⟨⟨again, c''⟩, hcopy, hcode⟩ := Option.map_eq_some_iff.1 (congrFun hagain fuel)
      exact ⟨again, c'', hcopy, hcode⟩
    exact ⟨status, c', hrun, hstatus, rfl, hyields, hbefore, hafter, fun hunharmed =>
      hbefore (hunharmed.2 hafter)⟩
  · have hrun : (startHere.copy answered 5 first second).map
        (fun result => (result.1.ok, result.2.yields second)) =
          some (false, some (some [])) := by rfl
    obtain ⟨⟨status, c'⟩, hrun, hresult⟩ := Option.map_eq_some_iff.1 hrun
    obtain ⟨hstatus, hyields⟩ := Prod.mk.inj hresult
    have hbefore : startHere.yields second = some (some (text "two")) := by rfl
    refine ⟨status, c', hrun, hstatus, hbefore, hyields, fun hunharmed => ?_⟩
    have hsame := hunharmed.1
    rw [hyields, hbefore] at hsame
    exact absurd hsame (by decide)

end CopyFailure.Sample

end Cluster

end GEDS
