/-
How `GEDS::open` ends: it finds a valid handle, or it asks the metadata service and makes a
handle for the answer.  An invalid handle that it finds is taken out of the registry first.
-/
import GEDS.RenameCopy

namespace GEDS

open Status

namespace Node

variable {node node' : Node} {path : Bytes} {id : Nat}

/-- The files that are left when an invalid handle under the path was taken out of the
registry: its own file goes with the last pointer to it. -/
def filesLeft (node : Node) (path : Bytes) : FileSystem Bytes :=
  match node.fileHandles.find path with
  | none => node.files
  | some id =>
      if node.isValidHandle id then node.files
      else ({ node with fileHandles := node.fileHandles.erase path }.release id).files

/-- What opening a path does to the others: nothing.  An invalid handle under the path is gone. -/
structure Reopened (path : Bytes) (node node' : Node) : Prop where
  same : ∀ {other}, other ≠ path → SameAt other node node'
  noNewFile : NoNewFile node node'
  files : node'.files = node.filesLeft path
  numbered : node'.Numbered

section Files

theorem isRegistered_iff :
    node.isRegistered id = true ↔ ∃ path, node.fileHandles.find path = some id := by
  constructor
  · intro hregistered
    by_contra hnone
    push Not at hnone
    rw [isRegistered_eq_false hnone] at hregistered
    cases hregistered
  · rintro ⟨path, hfind⟩
    by_contra hnone
    exact not_registered (Bool.eq_false_iff.2 hnone) hfind

theorem isRegistered_congr
    (hsame : ∀ path, node'.fileHandles.find path = some id ↔ node.fileHandles.find path = some id) :
    node'.isRegistered id = node.isRegistered id := by
  rw [Bool.eq_iff_iff, isRegistered_iff, isRegistered_iff]
  exact exists_congr hsame

/-- A pointer that was taken and is dropped again. -/
theorem files_dropReference (hfiles : node'.files = node.files)
    (hhandle : node'.handles.find id = (node.handles.find id).map fun handle =>
      { handle with references := handle.references + 1 })
    (hregistered : node'.isRegistered id = node.isRegistered id) :
    (node'.dropReference id).files = (node.release id).files := by
  have hunnamed : ∀ handles : AssocMap Nat FileHandle,
      Node.isRegistered { node' with handles := handles } id = node.isRegistered id :=
    fun _ => hregistered
  cases hfind : node.handles.find id with
  | none =>
      rw [hfind, Option.map_none] at hhandle
      simp only [dropReference, modifyHandle, release, hhandle, hfind, hfiles]
  | some handle =>
      rw [hfind, Option.map_some] at hhandle
      simp only [dropReference, modifyHandle, release, hhandle, hfind, AssocMap.find_insert,
        ↓reduceIte, hunnamed, Nat.add_sub_cancel]
      split_ifs
      · simp only [hfiles]
      · exact hfiles

/-- Nothing is destroyed when a pointer is exchanged for an open file. -/
theorem exchange_kept {handle : FileHandle} (hfind : node.handles.find id = some handle)
    (hheld : handle.references ≠ 0) :
    ((node.openFile id).dropReference id).files = node.files ∧
      ∀ other, other ≠ id → ((node.openFile id).dropReference id).handles.find other =
        node.handles.find other := by
  simp only [openFile, dropReference, modifyHandle, hfind, release, AssocMap.find_insert,
    ↓reduceIte, Nat.add_sub_cancel, hheld, false_and, true_and]
  intro other hother
  simp only [hother, ↓reduceIte]

/-- A handle that is found is counted, and nothing else changes. -/
theorem counted_kept (hvalid : node.isValidHandle id = true) :
    (∀ path, SameAt path node (((node.addReference id).openFile id).dropReference id)) ∧
      NoNewFile node (((node.addReference id).openFile id).dropReference id) ∧
      (((node.addReference id).openFile id).dropReference id).files = node.files ∧
      SameRegistry node (((node.addReference id).openFile id).dropReference id) := by
  have hsame : ∀ path, SameAt path node (node.addReference id) :=
    fun path => sameAt_modifyHandle id fun _ => ⟨rfl, rfl⟩
  have hno : NoNewFile node (node.addReference id) := noNewFile_modifyHandle id fun _ => rfl
  have hexchanged : SameRegistry (node.addReference id)
      (((node.addReference id).openFile id).dropReference id) :=
    (sameRegistry_modifyHandle id _).trans (sameRegistry_dropReference id)
  refine ⟨fun path => (hsame path).trans (sameAt_exchange id),
    hno.trans (noNewFile_exchange id), ?_, (sameRegistry_modifyHandle id _).trans hexchanged⟩
  cases hfind : node.handles.find id with
  | none => simp [isValidHandle, hfind] at hvalid
  | some handle =>
      have hcounted : (node.addReference id).handles.find id =
          some { handle with references := handle.references + 1 } := by
        rw [addReference, find_modifyHandle, if_pos rfl, hfind, Option.map_some]
      rw [(exchange_kept hcounted (Nat.succ_ne_zero _)).1]
      exact files_modifyHandle id _

theorem filesLeft_of_valid {id : Nat} (hfind : node.fileHandles.find path = some id)
    (hvalid : node.isValidHandle id = true) : node.filesLeft path = node.files := by
  simp only [filesLeft, hfind, hvalid, ↓reduceIte]

theorem filesLeft_of_none (hfind : node.fileHandles.find path = none) :
    node.filesLeft path = node.files := by
  simp only [filesLeft, hfind]

theorem filesLeft_of_invalid {id : Nat} (hfind : node.fileHandles.find path = some id)
    (hvalid : node.isValidHandle id = false) :
    node.filesLeft path =
      ({ node with fileHandles := node.fileHandles.erase path }.release id).files := by
  simp only [filesLeft, hfind, hvalid, Bool.false_eq_true, ↓reduceIte]

end Files

section Reopen

variable {bucket key : Bytes}

/-- The node with a new handle without a file, which somebody has open. -/
def withRemote (node : Node) (bucket key : Bytes) : Node :=
  ({ (node.addHandle bucket key none).2 with
    fileHandles := node.fileHandles.insert (getPath bucket key) node.nextHandle }.openFile
      node.nextHandle).dropReference node.nextHandle

theorem find_withRemote :
    (node.withRemote bucket key).fileHandles.find path =
      if path = getPath bucket key then some node.nextHandle else node.fileHandles.find path := by
  rw [withRemote, (sameAt_exchange _).registry, OrderedMap.find_insert]
  split_ifs <;> rfl

theorem withRemote_handle :
    (node.withRemote bucket key).isValidHandle node.nextHandle = true ∧
      (node.withRemote bucket key).localFile node.nextHandle = none := by
  have hfind : ({ (node.addHandle bucket key none).2 with
      fileHandles := node.fileHandles.insert (getPath bucket key) node.nextHandle } :
        Node).fileHandles.find (getPath bucket key) = some node.nextHandle :=
    (OrderedMap.find_insert _ _ _ _).trans (if_pos rfl)
  rw [withRemote, (sameAt_exchange _).valid hfind, (sameAt_exchange _).file hfind]
  simp [isValidHandle, localFile, addHandle]

theorem withRemote_kept :
    (node.withRemote bucket key).files = node.files ∧
      ∀ other, other ≠ node.nextHandle →
        (node.withRemote bucket key).handles.find other = node.handles.find other := by
  obtain ⟨hfiles, hothers⟩ := @exchange_kept { (node.addHandle bucket key none).2 with
      fileHandles := node.fileHandles.insert (getPath bucket key) node.nextHandle } node.nextHandle
    ⟨bucket, key, none, true, 0, 1⟩ (AssocMap.find_insert_self _ _ _) Nat.one_ne_zero
  refine ⟨hfiles, fun other hother => (hothers other hother).trans ?_⟩
  exact AssocMap.find_insert_of_ne _ hother _

theorem noNewFile_withRemote : NoNewFile node (node.withRemote bucket key) :=
  (noNewFile_addRemote bucket key _).trans (noNewFile_exchange _)

theorem Numbered.withRemote (h : node.Numbered) : (node.withRemote bucket key).Numbered := by
  apply Numbered.of_sameRegistry _
    ((sameRegistry_modifyHandle _ _).trans (sameRegistry_dropReference _))
  exact (h.addHandle bucket key none).insertHandle (addHandle_lt bucket key none) _

theorem sameAt_withRemote (h : node.Numbered) (hne : path ≠ getPath bucket key) :
    SameAt path node (node.withRemote bucket key) := by
  have hadded : SameAt path node (node.addHandle bucket key none).2 :=
    sameAt_newHandle h rfl rfl fun _ _ => rfl
  have hinserted : SameAt path node { (node.addHandle bucket key none).2 with
      fileHandles := node.fileHandles.insert (getPath bucket key) node.nextHandle } :=
    ⟨(OrderedMap.find_insert _ _ _ _).trans (if_neg hne), hadded.valid, hadded.file, hadded.content⟩
  exact hinserted.trans (sameAt_exchange _)

/-- The node when an invalid handle is taken out of the registry, which somebody points to. -/
def takenOut (node : Node) (path : Bytes) (id : Nat) : Node :=
  { node.addReference id with fileHandles := (node.addReference id).fileHandles.erase path }

theorem find_takenOut (other : Bytes) :
    (node.takenOut path id).fileHandles.find other =
      if other = path then none else node.fileHandles.find other := by
  have hregistry : (node.addReference id).fileHandles = node.fileHandles :=
    (sameRegistry_modifyHandle id _).1
  rw [takenOut, hregistry, OrderedMap.find_erase]
  split_ifs <;> rfl

theorem sameAt_takenOut {other : Bytes} (hne : other ≠ path) :
    SameAt other node (node.takenOut path id) := by
  have hcounted : SameAt other node (node.addReference id) :=
    sameAt_modifyHandle id fun _ => ⟨rfl, rfl⟩
  exact ⟨(find_takenOut other).trans (if_neg hne), hcounted.valid, hcounted.file, hcounted.content⟩

theorem noNewFile_takenOut : NoNewFile node (node.takenOut path id) := by
  obtain ⟨hstate, hnames, hknown, hfiles⟩ : NoNewFile node (node.addReference id) :=
    noNewFile_modifyHandle id fun _ => rfl
  exact ⟨hstate, hnames, hknown, hfiles⟩

theorem nextHandle_takenOut : (node.takenOut path id).nextHandle = node.nextHandle :=
  (sameRegistry_modifyHandle id _).2

theorem Numbered.takenOut (h : node.Numbered) : (node.takenOut path id).Numbered := by
  refine h.mono nextHandle_takenOut.ge fun other id' hfind => ?_
  rw [find_takenOut] at hfind
  split_ifs at hfind
  exact Or.inl hfind

/-- When the pointer is dropped, the invalid handle may be destroyed. -/
theorem reopened_dropReference (hfind : node.fileHandles.find path = some id)
    (hvalid : node.isValidHandle id = false)
    (hsame : ∀ {other}, other ≠ path → SameAt other (node.takenOut path id) node')
    (hno : NoNewFile (node.takenOut path id) node') (hnumbered' : node'.Numbered)
    (hfiles : node'.files = (node.takenOut path id).files)
    (hhandle : node'.handles.find id = (node.takenOut path id).handles.find id)
    (hgone : node'.fileHandles.find path ≠ some id) :
    Reopened path node (node'.dropReference id) := by
  refine ⟨fun hne => ((sameAt_takenOut hne).trans (hsame hne)).trans (sameAt_dropReference id),
    (noNewFile_takenOut.trans hno).trans (noNewFile_dropReference id), ?_,
    hnumbered'.of_sameRegistry (sameRegistry_dropReference id)⟩
  rw [filesLeft_of_invalid hfind hvalid]
  apply files_dropReference
  · exact hfiles.trans (files_modifyHandle id _)
  · rw [hhandle]
    exact (find_modifyHandle id id _).trans (if_pos rfl)
  · apply isRegistered_congr
    intro other
    change _ ↔ (node.fileHandles.erase path).find other = some id
    rw [OrderedMap.find_erase]
    by_cases hother : other = path
    · rw [if_pos hother, hother]
      exact iff_of_false hgone (Option.some_ne_none id).symm
    · rw [if_neg hother, (hsame hother).registry, find_takenOut, if_neg hother]

end Reopen

section Takes

/-- The handle is registered under a path, and nobody else points to it. -/
def Unshared (node : Node) (path : Bytes) (id : Nat) : Prop :=
  node.fileHandles.find path = some id ∧
    (node.handles.find id).map FileHandle.references = some 0

/-- The handles when a path was opened: the others are as they were, and one that only the
registry had is the one that was opened, or it is gone. -/
structure Takes (path : Bytes) (taken : Nat) (node node' : Node) : Prop where
  next : node.nextHandle ≤ node'.nextHandle
  numbered : taken < node'.nextHandle
  found : node.fileHandles.find path = some taken ∨ node.nextHandle ≤ taken
  others : ∀ {id}, id < node.nextHandle → node.fileHandles.find path ≠ some id →
    node'.handles.find id = node.handles.find id
  file : node'.localFile taken = (node.validHandle path).bind node.localFile
  unshared : ∀ {id}, node.Unshared path id →
    node.validHandle path = some id ∧ id = taken ∧
        (node'.handles.find taken).map FileHandle.references = some 1 ∨
      node'.handles.find id = none

theorem find_release_of_ne {other : Nat} (hne : other ≠ id) :
    (node.release id).handles.find other = node.handles.find other := by
  rw [release]
  cases node.handles.find id with
  | none => rfl
  | some handle =>
      simp only
      split_ifs
      · exact (AssocMap.find_erase _ _ _).trans (if_neg hne)
      · rfl

theorem find_dropReference_of_ne {other : Nat} (hne : other ≠ id) :
    (node.dropReference id).handles.find other = node.handles.find other :=
  (find_release_of_ne hne).trans ((find_modifyHandle id other _).trans (if_neg hne))

/-- A pointer to a handle is taken and exchanged for an open file. -/
theorem find_counted (other : Nat) :
    (((node.addReference id).openFile id).dropReference id).handles.find other =
      if other = id then (node.handles.find id).map fun handle =>
        { handle with
          references := handle.references + 1
          openCount := handle.openCount + 1 }
      else node.handles.find other := by
  cases hfind : node.handles.find id with
  | none =>
      simp only [addReference, openFile, dropReference, modifyHandle, release, hfind,
        Option.map_none]
      split_ifs with hother
      · rw [hother, hfind]
      · rfl
  | some handle =>
      simp only [addReference, openFile, dropReference, modifyHandle, release, hfind,
        AssocMap.find_insert, ↓reduceIte, Nat.add_sub_cancel, Nat.add_eq_zero_iff, Nat.one_ne_zero,
        and_false, false_and, Option.map_some]
      split_ifs <;> rfl

theorem takes_of_valid (h : node.Numbered) (hfind : node.fileHandles.find path = some id)
    (hvalid : node.isValidHandle id = true) :
    Takes path id node (((node.addReference id).openFile id).dropReference id) := by
  obtain ⟨hsame, -, -, hregistry⟩ := counted_kept hvalid
  have hvalid' : node.validHandle path = some id := validHandle_eq_some_iff.2 ⟨hfind, hvalid⟩
  refine ⟨hregistry.2.ge, (h _ _ hfind).trans_eq hregistry.2.symm, Or.inl hfind,
    fun {other} _ hother => ?_, ?_, fun {other} hunshared => Or.inl ?_⟩
  · have hne : other ≠ id := by
      rintro rfl
      exact hother hfind
    rw [find_counted, if_neg hne]
  · rw [(hsame path).file hfind, hvalid', Option.bind_some]
  · obtain rfl : id = other := Option.some.inj (hfind.symm.trans hunshared.1)
    obtain ⟨handle, hhandle, hnobody⟩ := Option.map_eq_some_iff.1 hunshared.2
    refine ⟨hvalid', rfl, ?_⟩
    rw [find_counted, if_pos rfl, hhandle]
    simp only [Option.map_some, hnobody]

theorem nextHandle_withRemote {bucket key : Bytes} :
    (node.withRemote bucket key).nextHandle = node.nextHandle + 1 :=
  ((sameRegistry_modifyHandle _ _).trans (sameRegistry_dropReference _)).2

theorem takes_withRemote {bucket key : Bytes}
    (hfind : node.fileHandles.find (getPath bucket key) = none) :
    Takes (getPath bucket key) node.nextHandle node (node.withRemote bucket key) := by
  refine ⟨nextHandle_withRemote ▸ Nat.le_succ _, nextHandle_withRemote ▸ Nat.lt_succ_self _,
    Or.inr le_rfl, fun hlt _ => withRemote_kept.2 _ (Nat.ne_of_lt hlt), ?_, fun hunshared => ?_⟩
  · rw [withRemote_handle.2, validHandle, hfind, Option.filter_none, Option.bind_none]
  · exact absurd (hfind.symm.trans hunshared.1) (Option.some_ne_none _).symm

/-- The invalid handle under a path goes with its last pointer. -/
theorem takes_of_invalid (h : node.Sound) {bucket key : Bytes}
    (hfind : node.fileHandles.find (getPath bucket key) = some id)
    (hvalid : node.isValidHandle id = false) :
    Takes (getPath bucket key) node.nextHandle node
      (((node.takenOut (getPath bucket key) id).withRemote bucket key).dropReference id) := by
  have hlt : id < node.nextHandle := h.registered _ _ hfind
  have hnext : (((node.takenOut (getPath bucket key) id).withRemote bucket key).dropReference
      id).nextHandle = node.nextHandle + 1 := by
    rw [(sameRegistry_dropReference id).2, nextHandle_withRemote, nextHandle_takenOut]
  have hcounted : ∀ other, (node.takenOut (getPath bucket key) id).handles.find other =
      if other = id then (node.handles.find id).map fun handle =>
        { handle with references := handle.references + 1 }
      else node.handles.find other := fun other => find_modifyHandle id other _
  have hkept : ∀ {other}, other < node.nextHandle →
      ((node.takenOut (getPath bucket key) id).withRemote bucket key).handles.find other =
        (node.takenOut (getPath bucket key) id).handles.find other := by
    intro other hother
    apply withRemote_kept.2
    rw [nextHandle_takenOut]
    exact Nat.ne_of_lt hother
  have hmade : ((node.takenOut (getPath bucket key) id).withRemote bucket key).fileHandles.find
      (getPath bucket key) = some node.nextHandle := by
    rw [find_withRemote, if_pos rfl, nextHandle_takenOut]
  refine ⟨hnext ▸ Nat.le_succ _, hnext ▸ Nat.lt_succ_self _, Or.inr le_rfl,
    fun {other} hother hne => ?_, ?_, fun {other} hunshared => Or.inr ?_⟩
  · have hdiffer : other ≠ id := by
      rintro rfl
      exact hne hfind
    rw [find_dropReference_of_ne hdiffer, hkept hother, hcounted, if_neg hdiffer]
  · have hnone : node.validHandle (getPath bucket key) = none := by
      simp [validHandle, hfind, Option.filter_some, hvalid]
    have hfile := @withRemote_handle (node.takenOut (getPath bucket key) id) bucket key
    rw [nextHandle_takenOut] at hfile
    rw [(sameAt_dropReference id).file hmade, hfile.2, hnone, Option.bind_none]
  · obtain rfl : id = other := Option.some.inj (hfind.symm.trans hunshared.1)
    obtain ⟨handle, hhandle, hnobody⟩ := Option.map_eq_some_iff.1 hunshared.2
    refine @find_dropReference_of_last _ id { handle with references := handle.references + 1 } ?_
      (congrArg (· + 1) hnobody) fun other hregistered => ?_
    · rw [hkept hlt, hcounted, if_pos rfl, hhandle, Option.map_some]
    · rw [find_withRemote, nextHandle_takenOut, find_takenOut] at hregistered
      split_ifs at hregistered with hother
      · exact Nat.ne_of_gt hlt (Option.some.inj hregistered)
      · exact hother (h.single hregistered hfind)

end Takes

end Node

namespace Cluster

variable {c c' : Cluster} {id : ObjectID}

section Reopen

theorem lookup_withNode (node : Node) (id : ObjectID) (invalidate : Bool)
    (failure : Option Bytes) :
    { c with node := node }.lookup id invalidate failure =
      ((c.lookup id invalidate failure).1,
        { (c.lookup id invalidate failure).2 with node := node }) := by
  cases failure with
  | none => rfl
  | some reason =>
      simp only [lookup]
      split_ifs
      · rfl
      · cases c.service.cache.lookup id <;> rfl

theorem reopenInvalidated_withNode (node : Node) (id : ObjectID) (answer : ReopenAnswer) :
    { c with node := node }.reopenInvalidated id answer =
      ((c.reopenInvalidated id answer).1,
        { (c.reopenInvalidated id answer).2 with node := node }) := by
  simp only [reopenInvalidated, lookup_withNode]
  cases (c.lookup id true answer.lookup).1 with
  | error status => rfl
  | ok object =>
      simp only
      split_ifs
      · cases answer.factory <;> rfl
      · rfl

theorem reopenFileHandle_withNode (node : Node) (id : ObjectID)
    (answers : ReopenAnswer × ReopenAnswer) :
    { c with node := node }.reopenFileHandle id answers =
      ((c.reopenFileHandle id answers).1,
        { (c.reopenFileHandle id answers).2 with node := node }) := by
  simp only [reopenFileHandle, lookup_withNode]
  cases (c.lookup id false answers.1.lookup).1 with
  | error status => rfl
  | ok object =>
      simp only
      split_ifs
      · cases answers.1.factory with
        | none => rfl
        | some status => exact reopenInvalidated_withNode node id answers.2
      · rfl

theorem lookup_service (id : ObjectID) (invalidate : Bool) (failure : Option Bytes) :
    ∃ service, (c.lookup id invalidate failure).2 = { c with service := service } := by
  cases failure with
  | none => exact ⟨_, rfl⟩
  | some reason =>
      refine ⟨c.service, ?_⟩
      simp only [lookup]
      split_ifs
      · rfl
      · cases c.service.cache.lookup id <;> rfl

theorem reopenInvalidated_service (id : ObjectID) (answer : ReopenAnswer) :
    ∃ service, (c.reopenInvalidated id answer).2 = { c with service := service } := by
  obtain ⟨service, hservice⟩ := @lookup_service c id true answer.lookup
  refine ⟨service, ?_⟩
  rw [← hservice, reopenInvalidated]
  cases (c.lookup id true answer.lookup).1 with
  | error status => rfl
  | ok object =>
      simp only
      split_ifs
      · cases answer.factory <;> rfl
      · rfl

/-- Only the metadata service is asked. -/
theorem reopenFileHandle_service (id : ObjectID) (answers : ReopenAnswer × ReopenAnswer) :
    ∃ service, (c.reopenFileHandle id answers).2 = { c with service := service } := by
  obtain ⟨service, hservice⟩ := @lookup_service c id false answers.1.lookup
  rw [reopenFileHandle]
  cases (c.lookup id false answers.1.lookup).1 with
  | error status => exact ⟨service, hservice⟩
  | ok object =>
      simp only [hservice]
      split_ifs
      · cases answers.1.factory with
        | none => exact ⟨service, rfl⟩
        | some status =>
            obtain ⟨again, hagain⟩ :=
              @reopenInvalidated_service { c with service := service } id answers.2
            exact ⟨again, hagain⟩
      · exact ⟨service, rfl⟩

end Reopen

section Open

variable {attempts : List (ReopenAnswer × ReopenAnswer)} {answers : ReopenAnswer × ReopenAnswer}

/-- The service runs, and the object can have its name. -/
def Serves (c : Cluster) (id : ObjectID) : Prop :=
  c.node.checkServiceRunning.ok = true ∧ (isValid id.bucket id.key).ok = true

theorem openFrom_of_not_serves (hserves : ¬ c.Serves id) :
    ∃ status, status.ok = false ∧ status.code ≠ .alreadyExists ∧
      openFrom id (answers :: attempts) c = (.error status, c) := by
  by_cases hrunning : c.node.checkServiceRunning.ok = true
  · have hname : ¬ (isValid id.bucket id.key).ok = true := fun hname => hserves ⟨hrunning, hname⟩
    refine ⟨_, Bool.eq_false_iff.2 hname, Node.isValid_code, ?_⟩
    simp only [openFrom, openAsFileHandle, hrunning, hname, ↓reduceIte]
    rfl
  · refine ⟨_, Bool.eq_false_iff.2 hrunning, ?_, ?_⟩
    · rw [Node.checkServiceRunning]
      split_ifs <;> exact StatusCode.noConfusion
    · simp only [openFrom, openAsFileHandle, hrunning]
      rfl

theorem openFrom_of_valid (hserves : c.Serves id) {handle : Nat}
    (hfind : c.node.fileHandles.find id.path = some handle)
    (hvalid : c.node.isValidHandle handle = true) :
    openFrom id (answers :: attempts) c =
      (.ok handle, { c with
        node := ((c.node.addReference handle).openFile handle).dropReference handle }) := by
  have hcounted : Node.SameAt id.path c.node (c.node.addReference handle) :=
    Node.sameAt_modifyHandle handle fun _ => ⟨rfl, rfl⟩
  simp only [openFrom, openAsFileHandle, hserves.1, hserves.2, ConcurrentMap.get, hfind,
    ↓reduceIte, hcounted.valid hfind, hvalid]

theorem openFrom_of_unknown (hserves : c.Serves id)
    (hfind : c.node.fileHandles.find id.path = none) {status : Status}
    (hreopened : (c.reopenFileHandle id answers).1 = .error status) :
    openFrom id (answers :: attempts) c =
      (.error status, (c.reopenFileHandle id answers).2) := by
  simp only [openFrom, openAsFileHandle, hserves.1, hserves.2, ConcurrentMap.get, hfind,
    ↓reduceIte, hreopened]

/-- The handle that was made for the object is valid. -/
theorem openFrom_of_known (hserves : c.Serves id)
    (hfind : c.node.fileHandles.find id.path = none) {info : ObjectInfo}
    (hreopened : (c.reopenFileHandle id answers).1 = .ok info) :
    openFrom id (answers :: attempts) c =
      (.ok c.node.nextHandle,
        { (c.reopenFileHandle id answers).2 with
          node := c.node.withRemote id.bucket id.key
          infos := c.infos.insert c.node.nextHandle info }) := by
  obtain ⟨service, hservice⟩ := @reopenFileHandle_service c id answers
  have hadded : (c.node.addHandle id.bucket id.key none).2.fileHandles.find id.path = none := hfind
  simp only [openFrom, openAsFileHandle, hserves.1, hserves.2, ConcurrentMap.get, hfind,
    ↓reduceIte, hreopened, hservice, ConcurrentMap.insertOrExists, hadded]
  have hvalid : Node.isValidHandle { (c.node.addHandle id.bucket id.key none).2 with
      fileHandles := (c.node.addHandle id.bucket id.key none).2.fileHandles.insert id.path
        (c.node.addHandle id.bucket id.key none).1 }
      (c.node.addHandle id.bucket id.key none).1 = true := by
    simp [Node.isValidHandle, Node.addHandle]
  rw [if_pos hvalid]
  rfl

/-- An invalid handle is taken out, and the next attempt is made. -/
theorem openFrom_of_invalid (hserves : c.Serves id) {handle : Nat}
    (hfind : c.node.fileHandles.find id.path = some handle)
    (hvalid : c.node.isValidHandle handle = false) :
    openFrom id (answers :: attempts) c =
      ((openFrom id attempts { c with node := c.node.takenOut id.path handle }).1,
        { (openFrom id attempts { c with node := c.node.takenOut id.path handle }).2 with
          node := (openFrom id attempts
            { c with node := c.node.takenOut id.path handle }).2.node.dropReference handle }) := by
  have hcounted : Node.SameAt id.path c.node (c.node.addReference handle) :=
    Node.sameAt_modifyHandle handle fun _ => ⟨rfl, rfl⟩
  have hkept : ((c.node.addReference handle).fileHandles.removeIf id.path fun check =>
      decide (handle = check)).2 = (c.node.addReference handle).fileHandles.erase id.path := by
    simp only [ConcurrentMap.removeIf, hcounted.registry, hfind, decide_true, ↓reduceIte]
  simp only [openFrom, openAsFileHandle, hserves.1, hserves.2, ConcurrentMap.get, hfind,
    ↓reduceIte, hcounted.valid hfind, hvalid, Bool.false_eq_true, hkept]
  rfl

/-- The answers for the attempt that finds no handle in the registry. -/
def reopenAnswers (c : Cluster) (id : ObjectID) (opened retried : ReopenAnswer × ReopenAnswer) :
    ReopenAnswer × ReopenAnswer :=
  if c.node.fileHandles.find id.path = none then opened else retried

/-- How `open` ends, with what it leaves of the node: it finds a valid handle, or it asks the
metadata service, which does not know the object, or whose answer goes to a new handle. -/
inductive OpenEnd (id : ObjectID) (c : Cluster) (answers : ReopenAnswer × ReopenAnswer)
    (node : Node) : Except Status Nat × Cluster → Prop where
  | found {handle : Nat} (hvalid : c.node.validHandle id.path = some handle)
      (hsame : Node.SameAt id.path c.node node) :
      OpenEnd id c answers node (.ok handle, { c with node := node })
  | unknown {status : Status} (hnone : c.node.validHandle id.path = none)
      (hresult : (c.reopenFileHandle id answers).1 = .error status)
      (hfree : node.fileHandles.find id.path = none) :
      OpenEnd id c answers node
        (.error status, { (c.reopenFileHandle id answers).2 with node := node })
  | made {info : ObjectInfo} (hnone : c.node.validHandle id.path = none)
      (hresult : (c.reopenFileHandle id answers).1 = .ok info)
      (hvalid : node.validHandle id.path = some c.node.nextHandle)
      (hfile : node.localFile c.node.nextHandle = none) :
      OpenEnd id c answers node
        (.ok c.node.nextHandle,
          { (c.reopenFileHandle id answers).2 with
            node := node
            infos := c.infos.insert c.node.nextHandle info })

theorem openEnd_of_free (hserves : c.Serves id) (hnumbered : c.node.Numbered)
    (hfind : c.node.fileHandles.find id.path = none) :
    ∃ node, Node.Reopened id.path c.node node ∧
      OpenEnd id c answers node (openFrom id (answers :: attempts) c) := by
  have hnone : c.node.validHandle id.path = none := by
    rw [Node.validHandle, hfind, Option.filter_none]
  have hfiles := Node.filesLeft_of_none hfind
  cases hreopened : (c.reopenFileHandle id answers).1 with
  | error status =>
      refine ⟨c.node, ⟨fun _ => Node.SameAt.refl, Node.noNewFile_refl, hfiles.symm, hnumbered⟩, ?_⟩
      obtain ⟨service, hservice⟩ := @reopenFileHandle_service c id answers
      have hend := OpenEnd.unknown hnone hreopened hfind
      rw [hservice] at hend
      rwa [openFrom_of_unknown hserves hfind hreopened, hservice]
  | ok info =>
      refine ⟨c.node.withRemote id.bucket id.key, ⟨Node.sameAt_withRemote hnumbered,
        Node.noNewFile_withRemote, Node.withRemote_kept.1.trans hfiles.symm,
        hnumbered.withRemote⟩, ?_⟩
      rw [openFrom_of_known hserves hfind hreopened]
      refine OpenEnd.made hnone hreopened ?_ Node.withRemote_handle.2
      exact Node.validHandle_eq_some_iff.2
        ⟨Node.find_withRemote.trans (if_pos rfl), Node.withRemote_handle.1⟩

theorem openEnd_of_valid (hserves : c.Serves id) (hnumbered : c.node.Numbered) {handle : Nat}
    (hfind : c.node.fileHandles.find id.path = some handle)
    (hvalid : c.node.isValidHandle handle = true) (again : ReopenAnswer × ReopenAnswer) :
    ∃ node, Node.Reopened id.path c.node node ∧
      OpenEnd id c again node (openFrom id (answers :: attempts) c) := by
  obtain ⟨hsame, hno, hfiles, hregistry⟩ := Node.counted_kept hvalid
  refine ⟨_, ⟨fun _ => hsame _, hno, ?_, hnumbered.of_sameRegistry hregistry⟩, ?_⟩
  · rw [hfiles, Node.filesLeft_of_valid hfind hvalid]
  · rw [openFrom_of_valid hserves hfind hvalid]
    exact OpenEnd.found (Node.validHandle_eq_some_iff.2 ⟨hfind, hvalid⟩) (hsame _)

/-- An invalid handle goes, and the second attempt finds none. -/
theorem openEnd_of_invalid (hserves : c.Serves id) (hnumbered : c.node.Numbered) {handle : Nat}
    (hfind : c.node.fileHandles.find id.path = some handle)
    (hvalid : c.node.isValidHandle handle = false) (again : ReopenAnswer × ReopenAnswer) :
    ∃ node, Node.Reopened id.path c.node node ∧
      OpenEnd id c again node (openFrom id [answers, again] c) := by
  have hnone : c.node.validHandle id.path = none := by
    simp [Node.validHandle, hfind, Option.filter_some, hvalid]
  have htaken : (c.node.takenOut id.path handle).fileHandles.find id.path = none :=
    (Node.find_takenOut _).trans (if_pos rfl)
  have hserves' : { c with node := c.node.takenOut id.path handle }.Serves id := by
    refine ⟨?_, hserves.2⟩
    rw [Node.checkServiceRunning, Node.noNewFile_takenOut.state]
    exact hserves.1
  have hopen := @openFrom_of_invalid c id [again] answers hserves handle hfind hvalid
  have hreopen := @reopenFileHandle_withNode c (c.node.takenOut id.path handle) id again
  cases hreopened : (c.reopenFileHandle id again).1 with
  | error status =>
      rw [hreopened] at hreopen
      have hretry := @openFrom_of_unknown { c with node := c.node.takenOut id.path handle } id []
        again hserves' htaken status (congrArg Prod.fst hreopen)
      rw [hreopen] at hretry
      refine ⟨(c.node.takenOut id.path handle).dropReference handle,
        Node.reopened_dropReference hfind hvalid (fun _ => Node.SameAt.refl)
          Node.noNewFile_refl hnumbered.takenOut rfl rfl (by simp [htaken]), ?_⟩
      rw [hopen, hretry]
      refine OpenEnd.unknown hnone hreopened ?_
      rw [(Node.sameRegistry_dropReference handle).1, htaken]
  | ok info =>
      rw [hreopened] at hreopen
      have hretry := @openFrom_of_known { c with node := c.node.takenOut id.path handle } id []
        again hserves' htaken info (congrArg Prod.fst hreopen)
      have hnext : (c.node.takenOut id.path handle).nextHandle = c.node.nextHandle :=
        Node.nextHandle_takenOut
      have hne : handle ≠ (c.node.takenOut id.path handle).nextHandle :=
        hnext ▸ Nat.ne_of_lt (hnumbered _ _ hfind)
      have hmade : ((c.node.takenOut id.path handle).withRemote id.bucket
          id.key).fileHandles.find id.path = some (c.node.takenOut id.path handle).nextHandle :=
        Node.find_withRemote.trans (if_pos rfl)
      have hdropped := @Node.sameAt_dropReference
        ((c.node.takenOut id.path handle).withRemote id.bucket id.key) id.path handle
      rw [hreopen, hnext] at hretry
      refine ⟨((c.node.takenOut id.path handle).withRemote id.bucket id.key).dropReference handle,
        Node.reopened_dropReference hfind hvalid (Node.sameAt_withRemote hnumbered.takenOut)
          Node.noNewFile_withRemote hnumbered.takenOut.withRemote Node.withRemote_kept.1
          (Node.withRemote_kept.2 handle hne) ?_, ?_⟩
      · rw [hmade]
        exact fun heq => hne (Option.some.inj heq).symm
      · rw [hopen, hretry]
        refine OpenEnd.made hnone hreopened ?_ ?_
        · rw [Node.validHandle_eq_some_iff, hdropped.registry, hmade, ← hnext,
            hdropped.valid hmade]
          exact ⟨rfl, Node.withRemote_handle.1⟩
        · rw [← hnext, hdropped.file hmade]
          exact Node.withRemote_handle.2

theorem openFrom_cases (hserves : c.Serves id) (hnumbered : c.node.Numbered)
    (opened retried : ReopenAnswer × ReopenAnswer) :
    ∃ node, Node.Reopened id.path c.node node ∧
      OpenEnd id c (c.reopenAnswers id opened retried) node
        (openFrom id [opened, retried] c) := by
  rw [reopenAnswers]
  cases hfind : c.node.fileHandles.find id.path with
  | none => exact openEnd_of_free hserves hnumbered hfind
  | some handle =>
      cases hvalid : c.node.isValidHandle handle with
      | true => exact openEnd_of_valid hserves hnumbered hfind hvalid _
      | false => exact openEnd_of_invalid hserves hnumbered hfind hvalid _

end Open

section Opens

variable {opened retried : ReopenAnswer × ReopenAnswer} {handle : Nat}

/-- The metadata service has the object, at a place of a known form. -/
def Located (c : Cluster) (id : ObjectID) : Prop :=
  ∃ info, c.service.server.objects.find id = some info ∧ isKnownLocation info.location = true

/-- What a lookup finds if the metadata service answers. -/
def record (c : Cluster) (id : ObjectID) : Option Object :=
  (c.service.cache.entry id).or (c.service.server.lookup id).toOption

theorem record_of_entry {object : Object} (hentry : c.service.cache.entry id = some object) :
    c.record id = some object := by
  rw [record, hentry, Option.some_or]

theorem record_of_no_entry (hentry : c.service.cache.entry id = none) :
    c.record id = (c.service.server.lookup id).toOption := by
  rw [record, hentry, Option.none_or]

/-- Where nothing is touched, a lookup finds what it found before. -/
theorem Confined.record {touched : Set ObjectID} (h : Confined touched c c') (hid : id ∉ touched) :
    c'.record id = c.record id := by
  rw [Cluster.record, Cluster.record, h.cached hid, lookup_congr (h.server hid)]

/-- The place that is known of the object is reached, or the one that the metadata service has
when it is asked again. -/
def Reaches (c : Cluster) (id : ObjectID) (known : Option Object)
    (answers : ReopenAnswer × ReopenAnswer) : Prop :=
  (∃ object, known = some object ∧ isKnownLocation object.info.location = true) ∧
    (answers.1.factory = none ∨
      c.Located id ∧ answers.2.lookup = none ∧ answers.2.factory = none)

/-- The object is opened: it has a valid handle, or the place that is known of it is reached. -/
structure Opens (c : Cluster) (id : ObjectID) (known : Option Object)
    (opened retried : ReopenAnswer × ReopenAnswer) : Prop where
  serves : c.Serves id
  reached : c.node.validHandle id.path = none →
    c.Reaches id known (c.reopenAnswers id opened retried)

theorem reopenInvalidated_ok {answer : ReopenAnswer} {info : ObjectInfo}
    (hreopened : (c.reopenInvalidated id answer).1 = .ok info) :
    c.Located id ∧ answer.lookup = none ∧ answer.factory = none := by
  obtain ⟨lookup, factory⟩ := answer
  rw [reopenInvalidated] at hreopened
  cases lookup with
  | some reason => cases hreopened
  | none =>
      have hlooked : (c.lookup id true none).1 = c.service.server.lookup id := by
        simp only [Cluster.lookup, MetadataService.lookup, MetadataService.lookupRemote, ↓reduceIte]
        cases c.service.server.lookup id <;> rfl
      simp only [hlooked] at hreopened
      cases hserver : c.service.server.lookup id with
      | error status => simp [hserver] at hreopened
      | ok object =>
          simp only [hserver] at hreopened
          split_ifs at hreopened with hknown
          cases factory with
          | some status => cases hreopened
          | none => exact ⟨⟨object.info, (lookup_ok hserver).2, hknown⟩, rfl, rfl⟩

theorem lookup_record {failure : Option Bytes} {object : Object}
    (hlookup : (c.lookup id false failure).1 = .ok object) : c.record id = some object := by
  cases hentry : c.service.cache.entry id with
  | some cached =>
      rw [lookup_of_entry hentry] at hlookup
      rw [record_of_entry hentry, Except.ok.inj hlookup]
  | none =>
      cases failure with
      | some reason =>
          rw [lookup_unreached hentry] at hlookup
          cases hlookup
      | none =>
          rw [lookup_of_no_entry hentry, MetadataService.lookupRemote_fst] at hlookup
          rw [record_of_no_entry hentry, hlookup]
          rfl

theorem reopenFileHandle_ok (hwf : c.service.cache.WellFormed) {info : ObjectInfo}
    (hreopened : (c.reopenFileHandle id answers).1 = .ok info) :
    c.Reaches id (c.record id) answers := by
  have hserver := (asked_lookup hwf id false answers.1.lookup).recached.server
  rw [reopenFileHandle] at hreopened
  cases hlooked : (c.lookup id false answers.1.lookup).1 with
  | error status => simp [hlooked] at hreopened
  | ok object =>
      have hrecord := lookup_record hlooked
      simp only [hlooked] at hreopened
      split_ifs at hreopened with hknown
      refine ⟨⟨object, hrecord, hknown⟩, ?_⟩
      cases hfactory : answers.1.factory with
      | none => exact Or.inl rfl
      | some status =>
          rw [hfactory] at hreopened
          obtain ⟨hlocated, hanswered⟩ := reopenInvalidated_ok hreopened
          rw [Located, hserver] at hlocated
          exact Or.inr ⟨hlocated, hanswered⟩

/-- An object that was opened could be opened. -/
theorem opens_of_ok (h : c.Ready)
    (hopened : (openFrom id [opened, retried] c).1 = .ok handle) :
    c.Opens id (c.record id) opened retried := by
  by_cases hserves : c.Serves id
  · refine ⟨hserves, fun hnone => ?_⟩
    obtain ⟨node, -, hend⟩ := openFrom_cases hserves h.sound.registered opened retried
    generalize openFrom id [opened, retried] c = result at hend hopened
    cases hend with
    | found hvalid => rw [hnone] at hvalid; cases hvalid
    | unknown => cases hopened
    | made _ hresult => exact reopenFileHandle_ok h.wellFormed hresult
  · obtain ⟨status, -, -, hfailed⟩ := @openFrom_of_not_serves c id [retried] opened hserves
    rw [hfailed] at hopened
    cases hopened

theorem cacheBlockSize_openFrom (h : c.node.Numbered) :
    (openFrom id [opened, retried] c).2.cacheBlockSize = c.cacheBlockSize := by
  by_cases hserves : c.Serves id
  · obtain ⟨node, -, hend⟩ := openFrom_cases hserves h opened retried
    obtain ⟨service, hservice⟩ :=
      @reopenFileHandle_service c id (c.reopenAnswers id opened retried)
    have hblocks := congrArg cacheBlockSize hservice
    generalize openFrom id [opened, retried] c = result at hend ⊢
    cases hend with
    | found => rfl
    | unknown => exact hblocks
    | made => exact hblocks
  · obtain ⟨status, -, -, hfailed⟩ := @openFrom_of_not_serves c id [retried] opened hserves
    rw [hfailed]

theorem openFrom_takes (h : c.node.Sound)
    (hopened : (openFrom id [opened, retried] c).1 = .ok handle) :
    Node.Takes id.path handle c.node (openFrom id [opened, retried] c).2.node := by
  have hserves : c.Serves id := by
    by_contra hserves
    obtain ⟨status, -, -, hfailed⟩ := @openFrom_of_not_serves c id [retried] opened hserves
    rw [hfailed] at hopened
    cases hopened
  cases hfind : c.node.fileHandles.find id.path with
  | none =>
      cases hreopened : (c.reopenFileHandle id opened).1 with
      | error status =>
          rw [openFrom_of_unknown hserves hfind hreopened] at hopened
          cases hopened
      | ok info =>
          rw [openFrom_of_known hserves hfind hreopened] at hopened ⊢
          obtain rfl := Except.ok.inj hopened
          exact Node.takes_withRemote hfind
  | some existing =>
      cases hvalid : c.node.isValidHandle existing with
      | true =>
          rw [openFrom_of_valid hserves hfind hvalid] at hopened ⊢
          obtain rfl := Except.ok.inj hopened
          exact Node.takes_of_valid h.registered hfind hvalid
      | false =>
          have hserves' : { c with node := c.node.takenOut id.path existing }.Serves id := by
            refine ⟨?_, hserves.2⟩
            rw [Node.checkServiceRunning, Node.noNewFile_takenOut.state]
            exact hserves.1
          have htaken : (c.node.takenOut id.path existing).fileHandles.find id.path = none :=
            (Node.find_takenOut _).trans (if_pos rfl)
          rw [openFrom_of_invalid hserves hfind hvalid] at hopened ⊢
          cases hreopened : ({ c with node := c.node.takenOut id.path existing }.reopenFileHandle
              id retried).1 with
          | error status =>
              rw [openFrom_of_unknown hserves' htaken hreopened] at hopened
              cases hopened
          | ok info =>
              rw [openFrom_of_known hserves' htaken hreopened] at hopened ⊢
              obtain rfl := Except.ok.inj hopened
              simp only [Node.nextHandle_takenOut]
              exact Node.takes_of_invalid h hfind hvalid

end Opens

end Cluster

end GEDS
