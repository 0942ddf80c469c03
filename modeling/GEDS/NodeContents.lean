/-
What the calls on a node leave of the objects under other names: each call touches a few
paths, and under every other path the registered handle and its bytes stay.
-/
import GEDS.NodeBlocks

namespace GEDS

open Status

namespace Node

/-- The bytes of the local file under a path, if a valid handle with a file is registered. -/
def bytesAt (node : Node) (path : Bytes) : Option Bytes :=
  (node.fileHandles.find path).bind fun id =>
    if node.isValidHandle id then
      (node.localFile id).map fun file =>
        (node.files.content file.inode).take file.size.toNat
    else none

/-- The valid handle that is registered under a path. -/
def validHandle (node : Node) (path : Bytes) : Option Nat :=
  (node.fileHandles.find path).filter node.isValidHandle

/-- The handle under a path is the same, with the same file and the same bytes in it. -/
structure SameAt (path : Bytes) (node node' : Node) : Prop where
  registry : node'.fileHandles.find path = node.fileHandles.find path
  valid : ∀ {id}, node.fileHandles.find path = some id →
    node'.isValidHandle id = node.isValidHandle id
  file : ∀ {id}, node.fileHandles.find path = some id → node'.localFile id = node.localFile id
  content : ∀ {id file}, node.fileHandles.find path = some id → node.localFile id = some file →
    node'.files.content file.inode = node.files.content file.inode

/-- The files are kept apart, and a handle is registered under one path only. -/
structure Sound (node : Node) : Prop extends Owned node where
  registered : node.Numbered
  single : ∀ {path path' id}, node.fileHandles.find path = some id →
    node.fileHandles.find path' = some id → path = path'

/-- The node stays sound, and only some paths are touched. -/
structure Touches (touched : Set Bytes) (node node' : Node) : Prop where
  sound : node'.Sound
  same : ∀ path, path ∉ touched → SameAt path node node'

/-- No file is opened, and nothing changes that decides whether one may be created. -/
structure NoNewFile (node node' : Node) : Prop where
  state : node'.state = node.state
  names : node'.names = node.names
  knownBuckets : node'.knownBuckets = node.knownBuckets
  files : ∀ {id file}, node'.localFile id = some file → node.localFile id = some file

variable {node node' node'' : Node} {path : Bytes} {touched : Set Bytes} {id : Nat}

section Relations

theorem SameAt.refl : SameAt path node node :=
  ⟨rfl, fun _ => rfl, fun _ => rfl, fun _ _ => rfl⟩

theorem SameAt.trans (hfirst : SameAt path node node') (hsecond : SameAt path node' node'') :
    SameAt path node node'' where
  registry := hsecond.registry.trans hfirst.registry
  valid hfind := (hsecond.valid (hfirst.registry.trans hfind)).trans (hfirst.valid hfind)
  file hfind := (hsecond.file (hfirst.registry.trans hfind)).trans (hfirst.file hfind)
  content hfind hfile :=
    (hsecond.content (hfirst.registry.trans hfind) ((hfirst.file hfind).trans hfile)).trans
      (hfirst.content hfind hfile)

theorem SameAt.bytesAt (hsame : SameAt path node node') :
    node'.bytesAt path = node.bytesAt path := by
  rw [Node.bytesAt, Node.bytesAt, hsame.registry]
  cases hfind : node.fileHandles.find path with
  | none => rfl
  | some id =>
      simp only [Option.bind_some]
      rw [hsame.valid hfind, hsame.file hfind]
      cases hfile : node.localFile id with
      | none => rfl
      | some file => simp only [Option.map_some, hsame.content hfind hfile]

theorem validHandle_eq_some_iff : node.validHandle path = some id ↔
    node.fileHandles.find path = some id ∧ node.isValidHandle id = true :=
  Option.filter_eq_some_iff

theorem validHandle_of_free (hfree : node.fileHandles.find path = none) :
    node.validHandle path = none := by
  rw [validHandle, hfree, Option.filter_none]

/-- Bytes under a path are those of a valid handle. -/
theorem bytesAt_eq_none (hnone : node.validHandle path = none) : node.bytesAt path = none := by
  rw [bytesAt]
  cases hfind : node.fileHandles.find path with
  | none => rfl
  | some id =>
      refine (Option.bind_some _ _).trans (if_neg fun hvalid => ?_)
      rw [validHandle_eq_some_iff.2 ⟨hfind, hvalid⟩] at hnone
      cases hnone

theorem SameAt.validHandle (hsame : SameAt path node node') :
    node'.validHandle path = node.validHandle path := by
  rw [Node.validHandle, Node.validHandle, hsame.registry]
  cases hfind : node.fileHandles.find path with
  | none => rfl
  | some id => rw [Option.filter_some, Option.filter_some, hsame.valid hfind]

theorem Touches.refl (hsound : node.Sound) : Touches touched node node :=
  ⟨hsound, fun _ _ => SameAt.refl⟩

theorem Touches.trans (hfirst : Touches touched node node')
    (hsecond : Touches touched node' node'') : Touches touched node node'' :=
  ⟨hsecond.sound, fun path hpath => (hfirst.same path hpath).trans (hsecond.same path hpath)⟩

theorem Touches.mono (h : Touches touched node node') {more : Set Bytes}
    (hmore : touched ⊆ more) : Touches more node node' :=
  ⟨h.sound, fun path hpath => h.same path fun hmem => hpath (hmore hmem)⟩

theorem NoNewFile.trans (hfirst : NoNewFile node node') (hsecond : NoNewFile node' node'') :
    NoNewFile node node'' where
  state := hsecond.state.trans hfirst.state
  names := hsecond.names.trans hfirst.names
  knownBuckets := hsecond.knownBuckets.trans hfirst.knownBuckets
  files hfile := hfirst.files (hsecond.files hfile)

theorem NoNewFile.of_same (hstate : node'.state = node.state) (hnames : node'.names = node.names)
    (hknown : node'.knownBuckets = node.knownBuckets) (hhandles : node'.handles = node.handles) :
    NoNewFile node node' := by
  refine ⟨hstate, hnames, hknown, fun hfile => ?_⟩
  rwa [localFile, hhandles] at hfile

theorem Sound.of_registry (h : node.Sound) (howned : node'.Owned)
    (hregistry : node'.fileHandles = node.fileHandles)
    (hnext : node.nextHandle ≤ node'.nextHandle) : node'.Sound where
  toOwned := howned
  registered path id hfind := (h.registered path id (hregistry ▸ hfind)).trans_le hnext
  single hfind hfind' := h.single (hregistry ▸ hfind) (hregistry ▸ hfind')

end Relations

section Handles

/-- A change of the counters of a handle. -/
theorem sameAt_modifyHandle (id : Nat) {change : FileHandle → FileHandle}
    (hchange : ∀ handle, (change handle).file = handle.file ∧
      (change handle).isValid = handle.isValid) : SameAt path node (node.modifyHandle id change) := by
  refine ⟨by rw [(sameRegistry_modifyHandle id change).1], fun {other} _ => ?_, fun _ => ?_,
    fun _ _ => ?_⟩
  · rw [isValidHandle, isValidHandle, find_modifyHandle]
    by_cases heq : other = id
    · rw [if_pos heq, heq]
      cases node.handles.find id with
      | none => rfl
      | some handle => exact (hchange handle).2
    · rw [if_neg heq]
  · exact localFile_modifyHandle (fun handle => (hchange handle).1) _
  · rw [files_modifyHandle]

theorem not_registered (hnone : node.isRegistered id = false) :
    node.fileHandles.find path ≠ some id := by
  intro hfind
  rw [isRegistered, List.any_eq_false] at hnone
  rw [OrderedMap.find_eq_some_iff] at hfind
  exact hnone _ hfind (decide_eq_true rfl)

/-- A handle that is destroyed is not registered. -/
theorem sameAt_release (id : Nat) : SameAt path node (node.release id) := by
  have hcontent : ∀ inode, (node.release id).files.content inode = node.files.content inode := by
    intro inode
    rcases @localFile_release node id with ⟨-, hfiles⟩ | ⟨-, hfiles⟩
    · rw [hfiles]
    · rw [hfiles]
      cases node.localFile id <;> rfl
  have hhandle : ∀ {other}, node.fileHandles.find path = some other →
      (node.release id).handles.find other = node.handles.find other := by
    intro other hfind
    rw [release]
    cases hgone : node.handles.find id with
    | none => rfl
    | some handle =>
        simp only
        split_ifs with hlast
        · have hne : other ≠ id := by
            rintro rfl
            exact not_registered hlast.2 hfind
          simp [hne]
        · rfl
  refine ⟨by rw [(sameRegistry_release id).1], fun hfind => ?_, fun hfind => ?_,
    fun _ _ => hcontent _⟩
  · rw [isValidHandle, isValidHandle, hhandle hfind]
  · rw [localFile, localFile, hhandle hfind]

theorem sameAt_dropReference (id : Nat) : SameAt path node (node.dropReference id) := by
  have hmodified : SameAt path node (node.modifyHandle id fun handle =>
      { handle with references := handle.references - 1 }) :=
    sameAt_modifyHandle id fun _ => ⟨rfl, rfl⟩
  exact hmodified.trans (sameAt_release id)

/-- Exchanging a pointer for an open file. -/
theorem sameAt_exchange (id : Nat) : SameAt path node ((node.openFile id).dropReference id) := by
  have hopened : SameAt path node (node.openFile id) := sameAt_modifyHandle id fun _ => ⟨rfl, rfl⟩
  exact hopened.trans (sameAt_dropReference id)

theorem sameAt_closeFile (id : Nat) : SameAt path node (node.closeFile id) := by
  have hclosed : SameAt path node (node.modifyHandle id fun handle =>
      { handle with openCount := handle.openCount - 1 }) :=
    sameAt_modifyHandle id fun _ => ⟨rfl, rfl⟩
  exact hclosed.trans (sameAt_dropReference id)

theorem touches_modifyHandle (h : node.Sound) (id : Nat) {change : FileHandle → FileHandle}
    (hchange : ∀ handle, (change handle).file = handle.file ∧
      (change handle).isValid = handle.isValid) :
    Touches ∅ node (node.modifyHandle id change) := by
  obtain ⟨hregistry, hnext⟩ := @sameRegistry_modifyHandle node id change
  have howned := h.toOwned.modifyHandle id fun handle => (hchange handle).1
  exact ⟨h.of_registry howned hregistry hnext.ge, fun _ _ => sameAt_modifyHandle id hchange⟩

theorem touches_release (h : node.Sound) (id : Nat) : Touches ∅ node (node.release id) := by
  obtain ⟨hregistry, hnext⟩ := @sameRegistry_release node id
  exact ⟨h.of_registry (h.toOwned.release id) hregistry hnext.ge, fun _ _ => sameAt_release id⟩

theorem touches_releaseAll (h : node.Sound) (ids : List Nat) :
    Touches ∅ node (node.releaseAll ids) := by
  induction ids generalizing node with
  | nil => exact Touches.refl h
  | cons id rest ih => exact (touches_release h id).trans (ih (touches_release h id).sound)

theorem touches_dropReference (h : node.Sound) (id : Nat) :
    Touches ∅ node (node.dropReference id) := by
  have hmodified : Touches ∅ node (node.modifyHandle id fun handle =>
      { handle with references := handle.references - 1 }) :=
    touches_modifyHandle h id fun _ => ⟨rfl, rfl⟩
  exact hmodified.trans (touches_release hmodified.sound id)

theorem touches_addReference (h : node.Sound) (id : Nat) :
    Touches ∅ node (node.addReference id) :=
  touches_modifyHandle h id fun _ => ⟨rfl, rfl⟩

theorem touches_exchange (h : node.Sound) (id : Nat) :
    Touches ∅ node ((node.openFile id).dropReference id) := by
  have hopened : Touches ∅ node (node.openFile id) := touches_modifyHandle h id fun _ => ⟨rfl, rfl⟩
  exact hopened.trans (touches_dropReference hopened.sound id)

theorem touches_closeFile (h : node.Sound) (id : Nat) : Touches ∅ node (node.closeFile id) := by
  have hclosed : Touches ∅ node (node.modifyHandle id fun handle =>
      { handle with openCount := handle.openCount - 1 }) :=
    touches_modifyHandle h id fun _ => ⟨rfl, rfl⟩
  exact hclosed.trans (touches_dropReference hclosed.sound id)

theorem touches_knownBuckets (h : node.Sound) (known : List Bytes) :
    Touches ∅ node { node with knownBuckets := known } :=
  ⟨h.of_registry (h.toOwned.of_same rfl rfl rfl) rfl le_rfl, fun _ _ =>
    ⟨rfl, fun _ => rfl, fun _ => rfl, fun _ _ => rfl⟩⟩

/-- A name is taken out of the registry. -/
theorem touches_removed (h : node.Sound) {kept : ConcurrentMap Bytes Nat}
    (hkept : ∀ other, other = path ∧ kept.find other = none ∨
      kept.find other = node.fileHandles.find other) :
    Touches {path} node { node with fileHandles := kept } := by
  have hold : ∀ {other id}, kept.find other = some id → node.fileHandles.find other = some id := by
    intro other id hfind
    rcases hkept other with ⟨-, hnone⟩ | hsame
    · rw [hnone] at hfind
      cases hfind
    · exact hsame.symm.trans hfind
  refine ⟨⟨h.toOwned.of_same rfl rfl rfl, ?_, ?_⟩, ?_⟩
  · intro other id hfind
    exact h.registered other id (hold hfind)
  · intro other other' id hfind hfind'
    exact h.single (hold hfind) (hold hfind')
  · intro other hother
    refine ⟨?_, fun _ => rfl, fun _ => rfl, fun _ _ => rfl⟩
    exact (hkept other).resolve_left fun hpath => hother hpath.1

/-- The handle that was just made is registered under a free path. -/
theorem touches_register (h : node.Sound) (hlive : node'.Owned)
    (hnext : node'.nextHandle = node.nextHandle + 1)
    (hregistry : node'.fileHandles = node.fileHandles)
    (hsame : ∀ other, SameAt other node node') :
    Touches {path} node
      { node' with fileHandles := node'.fileHandles.insert path node.nextHandle } := by
  have hcases : ∀ {other id}, (node'.fileHandles.insert path node.nextHandle).find other = some id →
      other = path ∧ id = node.nextHandle ∨
        other ≠ path ∧ node.fileHandles.find other = some id ∧ id ≠ node.nextHandle := by
    intro other id hfind
    rw [OrderedMap.find_insert, hregistry] at hfind
    split_ifs at hfind with hother
    · exact Or.inl ⟨hother, (Option.some.inj hfind).symm⟩
    · exact Or.inr ⟨hother, hfind, Nat.ne_of_lt (h.registered _ _ hfind)⟩
  refine ⟨⟨hlive.of_same rfl rfl rfl, ?_, ?_⟩, ?_⟩
  · intro other id hfind
    change id < node'.nextHandle
    rw [hnext]
    rcases hcases hfind with ⟨-, rfl⟩ | ⟨-, hold, -⟩
    · exact Nat.lt_succ_self _
    · exact Nat.lt_succ_of_lt (h.registered _ _ hold)
  · intro other other' id hfind hfind'
    rcases hcases hfind with ⟨rfl, rfl⟩ | ⟨-, hold, hne⟩
    · rcases hcases hfind' with ⟨rfl, -⟩ | ⟨-, -, hne⟩
      · rfl
      · exact absurd rfl hne
    · rcases hcases hfind' with ⟨-, rfl⟩ | ⟨-, hold', -⟩
      · exact absurd rfl hne
      · exact h.single hold hold'
  · intro other hother
    have hne : other ≠ path := hother
    have hsame := hsame other
    refine ⟨?_, hsame.valid, hsame.file, hsame.content⟩
    change (node'.fileHandles.insert path node.nextHandle).find other = _
    rw [OrderedMap.find_insert, if_neg hne, hregistry]

/-- A handle that was just made is not registered. -/
theorem sameAt_newHandle (h : node.Numbered) {made : Node} {handle : FileHandle} {path : Bytes}
    (hregistry : made.fileHandles = node.fileHandles)
    (hhandles : made.handles = node.handles.insert node.nextHandle handle)
    (hcontent : ∀ {id file}, node.fileHandles.find path = some id → node.localFile id = some file →
      made.files.content file.inode = node.files.content file.inode) : SameAt path node made := by
  have hhandle : ∀ {id}, node.fileHandles.find path = some id →
      made.handles.find id = node.handles.find id := by
    intro id hfind
    rw [hhandles]
    exact AssocMap.find_insert_of_ne _ (Nat.ne_of_lt (h _ _ hfind)) _
  refine ⟨by rw [hregistry], fun hfind => ?_, fun hfind => ?_, hcontent⟩
  · rw [isValidHandle, isValidHandle, hhandle hfind]
  · rw [localFile, localFile, hhandle hfind]

/-- A remote handle is made and registered. -/
theorem touches_addRemote (h : node.Sound) (bucket key path : Bytes) :
    Touches {path} node
      { (node.addHandle bucket key none).2 with
        fileHandles := node.fileHandles.insert path node.nextHandle } :=
  touches_register h (h.toOwned.addRemote bucket key) rfl rfl
    fun _ => sameAt_newHandle h.registered rfl rfl fun _ _ => rfl

end Handles

section NoNewFile

theorem noNewFile_refl : NoNewFile node node := ⟨rfl, rfl, rfl, id⟩

theorem noNewFile_modifyHandle (id : Nat) {change : FileHandle → FileHandle}
    (hchange : ∀ handle, (change handle).file = handle.file) :
    NoNewFile node (node.modifyHandle id change) := by
  have hfile : ∀ other, (node.modifyHandle id change).localFile other = node.localFile other :=
    fun other => localFile_modifyHandle hchange other
  rw [modifyHandle] at hfile ⊢
  cases hfind : node.handles.find id with
  | none => exact noNewFile_refl
  | some handle =>
      rw [hfind] at hfile
      exact ⟨rfl, rfl, rfl, fun {other file} hother => (hfile other).symm.trans hother⟩

theorem noNewFile_release (id : Nat) : NoNewFile node (node.release id) := by
  have hlocal : ∀ {other file}, (node.release id).localFile other = some file →
      node.localFile other = some file := by
    intro other file hfile
    rcases @localFile_release node id with ⟨hsame, -⟩ | ⟨hsame, -⟩
    · rwa [hsame] at hfile
    · rw [hsame] at hfile
      split_ifs at hfile
      exact hfile
  refine ⟨?_, ?_, ?_, hlocal⟩ <;> rw [release] <;> cases node.handles.find id <;>
    simp only <;> split_ifs <;> rfl

theorem noNewFile_dropReference (id : Nat) : NoNewFile node (node.dropReference id) := by
  have hmodified : NoNewFile node (node.modifyHandle id fun handle =>
      { handle with references := handle.references - 1 }) :=
    noNewFile_modifyHandle id fun _ => rfl
  exact hmodified.trans (noNewFile_release id)

theorem noNewFile_exchange (id : Nat) : NoNewFile node ((node.openFile id).dropReference id) := by
  have hopened : NoNewFile node (node.openFile id) := noNewFile_modifyHandle id fun _ => rfl
  exact hopened.trans (noNewFile_dropReference id)

theorem noNewFile_addRemote (bucket key : Bytes) (registry : ConcurrentMap Bytes Nat) :
    NoNewFile node { (node.addHandle bucket key none).2 with fileHandles := registry } := by
  refine ⟨rfl, rfl, rfl, fun {id file} hfile => ?_⟩
  simp only [localFile, addHandle, AssocMap.find_insert] at hfile
  split_ifs at hfile
  · cases hfile
  · exact hfile

theorem NoNewFile.ready (hno : NoNewFile node node') (bucket : Bytes) (lookup create : Status) :
    node'.checkServiceRunning = node.checkServiceRunning ∧
      (node'.createBucket bucket lookup create).1 = (node.createBucket bucket lookup create).1 := by
  refine ⟨by rw [checkServiceRunning, checkServiceRunning, hno.state], ?_⟩
  simp only [createBucket, lookupBucket, hno.knownBuckets]
  split_ifs <;> rfl

theorem NoNewFile.opensFile_iff (hno : NoNewFile node node') {bucket key : Bytes}
    {answers : CreateAnswers} :
    node'.OpensFile bucket key answers ↔ node.OpensFile bucket key answers := by
  obtain ⟨hrunning, hbucket⟩ := hno.ready bucket answers.lookupBucket answers.createBucket
  rw [OpensFile, OpensFile, hrunning, hbucket]

theorem NoNewFile.touchesFile_iff (hno : NoNewFile node node') {bucket key : Bytes}
    {answers : CreateAnswers} :
    node'.TouchesFile bucket key answers ↔ node.TouchesFile bucket key answers := by
  obtain ⟨hrunning, hbucket⟩ := hno.ready bucket answers.lookupBucket answers.createBucket
  rw [TouchesFile, TouchesFile, hrunning, hbucket]

end NoNewFile

section Calls

variable {bucket key : Bytes} {answers : CreateAnswers}

/-- A file is opened on a path that no live handle has. -/
theorem sameAt_openPath (h : node.Sound) (hfree : ¬ node.PathTaken bucket key)
    (names : FileNames) (other : Bytes) :
    SameAt other node
      { node with
        names := names
        files := (node.files.openFile (node.names.getLocalPath ⟨bucket, key⟩).1 true).2 } := by
  refine ⟨rfl, fun _ => rfl, fun _ => rfl, fun {id file} _ hfile => ?_⟩
  exact h.toOwned.content_openFile hfile fun hpath => hfree ⟨id, file, hfile, hpath⟩

/-- The factory fails and leaves what there is, or it makes the next handle with an empty
file. -/
theorem Sound.factory_cases (h : node.Sound) {mkdirFault : Option Bytes} {opens : OpenResult}
    (hfree : mkdirFault = none → (∀ reason, opens ≠ .openFailed reason) →
      ¬ node.PathTaken bucket key) :
    (∃ status made, node.factory bucket key mkdirFault opens = (.error status, made) ∧
        status.ok = false ∧ Touches ∅ node made) ∨
      ∃ made handle file, node.factory bucket key mkdirFault opens = (.ok node.nextHandle, made) ∧
        made.nextHandle = node.nextHandle + 1 ∧ made.fileHandles = node.fileHandles ∧
        made.Owned ∧ (∀ other, SameAt other node made) ∧
        made.handles.find node.nextHandle = some handle ∧ handle.isValid = true ∧
        handle.file = some file ∧ file.Holds made.files [] := by
  have hfailed : ¬ (mkdirFault = none ∧ opens = .opened) →
      (node.factory bucket key mkdirFault opens).2.Sound := by
    intro hopens
    have hkept := (@factory_of_not_opened node bucket key mkdirFault opens hopens).2
    exact h.of_registry (hkept.owned h.toOwned) hkept.registry hkept.next.ge
  cases mkdirFault with
  | some reason =>
      refine Or.inl ⟨_, _, rfl, rfl, hfailed (by simp), fun path _ => ?_⟩
      exact ⟨rfl, fun _ => rfl, fun _ => rfl, fun _ _ => rfl⟩
  | none =>
      cases opens with
      | openFailed reason =>
          refine Or.inl ⟨_, _, rfl, rfl, hfailed (by simp), fun path _ => ?_⟩
          exact ⟨rfl, fun _ => rfl, fun _ => rfl, fun _ _ => rfl⟩
      | fstatFailed reason =>
          refine Or.inl ⟨_, _, rfl, rfl, hfailed (by simp), fun path _ => ?_⟩
          exact sameAt_openPath h (hfree rfl fun _ => OpenResult.noConfusion) _ path
      | opened =>
          have hfree := hfree rfl fun _ => OpenResult.noConfusion
          have hempty := @FileSystem.content_openFile_truncated _ _ node.files
            (node.names.getLocalPath ⟨bucket, key⟩).1
          refine Or.inr ⟨node.withNewFile bucket key, _, _, rfl, rfl, rfl, ?_, fun other => ?_,
            AssocMap.find_insert_self _ _ _, rfl, rfl, ?_⟩
          · exact h.toOwned.withNewFile fun id file hfile hpath => hfree ⟨id, file, hfile, hpath⟩
          · have hopened := sameAt_openPath h hfree (node.names.getLocalPath ⟨bucket, key⟩).2 other
            exact sameAt_newHandle h.registered rfl rfl hopened.content
          · exact ⟨by rw [hempty], hempty⟩

/-- A handle that was just made goes to the registry, or is dropped if the path is taken. -/
theorem registerHandle_cases (h : node.Sound) {made : Node}
    (hnext : made.nextHandle = node.nextHandle + 1)
    (hregistry : made.fileHandles = node.fileHandles) (howned : made.Owned)
    (hsame : ∀ other, SameAt other node made) (path : Bytes) :
    (∃ status, (made.registerHandle path node.nextHandle).1 = .error status ∧
        status.ok = false ∧ Touches ∅ node (made.registerHandle path node.nextHandle).2) ∨
      node.fileHandles.find path = none ∧
        made.registerHandle path node.nextHandle = (.ok node.nextHandle,
          { made with fileHandles := made.fileHandles.insert path node.nextHandle }) ∧
        Touches {path} node (made.registerHandle path node.nextHandle).2 := by
  have hmade : Touches ∅ node made :=
    ⟨h.of_registry howned hregistry (hnext ▸ Nat.le_succ _), fun other _ => hsame other⟩
  rw [registerHandle, ConcurrentMap.insertOrExists, hregistry]
  cases hfind : node.fileHandles.find path with
  | some existing =>
      have hne : existing ≠ node.nextHandle := Nat.ne_of_lt (h.registered _ _ hfind)
      simp only [hne, ne_eq, not_false_eq_true, ↓reduceIte]
      rw [← hregistry]
      exact Or.inl ⟨_, rfl, rfl, hmade.trans (touches_dropReference hmade.sound _)⟩
  | none =>
      simp only [ne_eq, not_true_eq_false, ↓reduceIte]
      refine Or.inr ⟨trivial, trivial, ?_⟩
      rw [← hregistry]
      exact touches_register h howned hnext hregistry hsame

/-- A creation without overwriting fails and leaves what there is, or the path was free and
has an empty file then. -/
theorem Sound.createAsFileHandle_cases (h : node.Sound)
    (hfree : node.TouchesFile bucket key answers → ¬ node.PathTaken bucket key) :
    (∃ status, (node.createAsFileHandle bucket key false answers).1 = .error status ∧
        status.ok = false ∧ Touches ∅ node (node.createAsFileHandle bucket key false answers).2) ∨
      ∃ id file made, node.createAsFileHandle bucket key false answers = (.ok id, made) ∧
        node.fileHandles.find (getPath bucket key) = none ∧
        Touches {getPath bucket key} node made ∧
        made.fileHandles.find (getPath bucket key) = some id ∧ made.isValidHandle id = true ∧
        made.localFile id = some file ∧ file.Holds made.files [] := by
  rw [createAsFileHandle]
  by_cases hrunning : node.checkServiceRunning.ok = true
  · by_cases hvalid : (isValid bucket key).ok = true
    · obtain ⟨known, hknown⟩ := @createBucket_eq node bucket answers.lookupBucket
        answers.createBucket
      have hbucket : Touches ∅ node { node with knownBuckets := known } :=
        touches_knownBuckets h known
      simp only [hrunning, hvalid, hknown, ↓reduceIte]
      by_cases hcreated :
          (node.createBucket bucket answers.lookupBucket answers.createBucket).1.ok = true
      · simp only [hcreated, ↓reduceIte]
        rcases @Sound.factory_cases { node with knownBuckets := known } bucket key hbucket.sound
            answers.mkdirFault answers.openFile
            (fun hmkdir hopens => hfree ⟨hrunning, hvalid, hcreated, hmkdir, hopens⟩) with
          ⟨status, made, hmade, hfailed, htouches⟩ |
          ⟨made, handle, file, hmade, hnext, hregistry, howned, hsame, hhandle, hisValid, hfile,
            hholds⟩
        · rw [hmade]
          exact Or.inl ⟨status, rfl, hfailed, hbucket.trans htouches⟩
        · rw [hmade]
          rcases registerHandle_cases hbucket.sound hnext hregistry howned hsame
              (getPath bucket key) with
            ⟨status, hresult, hfailed, htouches⟩ | ⟨hnone, hresult, htouches⟩
          · exact Or.inl ⟨status, hresult, hfailed, hbucket.trans htouches⟩
          · rw [hresult] at htouches
            refine Or.inr ⟨_, file, _, hresult, hnone,
              (hbucket.mono (Set.empty_subset _)).trans htouches, ?_, ?_, ?_, hholds⟩
            · exact (OrderedMap.find_insert _ _ _ _).trans (if_pos rfl)
            · simp only [isValidHandle, hhandle, hisValid]
            · simp only [localFile, hhandle, Option.bind_some, hfile]
      · simp only [hcreated]
        exact Or.inl ⟨_, rfl, Bool.eq_false_iff.2 hcreated, hbucket⟩
    · simp only [hrunning, hvalid, ↓reduceIte]
      exact Or.inl ⟨_, rfl, Bool.eq_false_iff.2 hvalid, Touches.refl h⟩
  · simp only [hrunning]
    exact Or.inl ⟨_, rfl, Bool.eq_false_iff.2 hrunning, Touches.refl h⟩

theorem Sound.create_cases (h : node.Sound)
    (hfree : node.TouchesFile bucket key answers → ¬ node.PathTaken bucket key) :
    (∃ status, (node.create bucket key false answers).1 = .error status ∧ status.ok = false ∧
        Touches ∅ node (node.create bucket key false answers).2) ∨
      ∃ id file made, node.create bucket key false answers = (.ok id, made) ∧
        node.fileHandles.find (getPath bucket key) = none ∧
        Touches {getPath bucket key} node made ∧
        made.fileHandles.find (getPath bucket key) = some id ∧ made.isValidHandle id = true ∧
        made.localFile id = some file ∧ file.Holds made.files [] := by
  rw [create]
  rcases h.createAsFileHandle_cases hfree with ⟨status, hresult, hfailed, htouches⟩ |
    ⟨id, file, made, hresult, hnone, htouches, hfind, hvalid, hfile, hholds⟩
  · rw [hresult]
    exact Or.inl ⟨status, rfl, hfailed, htouches⟩
  · rw [hresult]
    have hexchanged := touches_exchange htouches.sound id
    have hsame := hexchanged.same (getPath bucket key) (Set.notMem_empty _)
    refine Or.inr ⟨id, file, _, rfl, hnone, htouches.trans (hexchanged.mono (Set.empty_subset _)),
      hsame.registry.trans hfind, (hsame.valid hfind).trans hvalid, (hsame.file hfind).trans hfile,
      hholds.1, (hsame.content hfind hfile).trans hholds.2⟩

/-- What was created got as far as a file. -/
theorem opensFile_of_create_ok (hresult : (node.create bucket key false answers).1 = .ok id) :
    node.OpensFile bucket key answers := by
  by_contra hopens
  obtain ⟨⟨status, hstatus⟩, -⟩ :=
    @createAsFileHandle_of_not_opens node bucket key false answers hopens
  simp only [create, hstatus] at hresult
  cases hresult

/-- Writing to a registered file touches its path. -/
theorem Sound.touches_writeBytes (h : node.Sound)
    (hfind : node.fileHandles.find path = some id) (bytes : Bytes) (position : UInt64)
    (fault : Option WriteFault) :
    Touches {path} node (node.writeBytes id bytes position fault).2 := by
  rw [writeBytes]
  cases hfile : node.localFile id with
  | none => exact Touches.refl h
  | some file =>
      obtain ⟨hpath, hinode, hlinks⟩ :=
        @LocalFile.writeBytes_place file node.files bytes position fault
      have hsame : SameRegistry node (node.setFile id
          (file.writeBytes node.files bytes position fault).2.1
          (file.writeBytes node.files bytes position fault).2.2) := sameRegistry_modifyHandle id _
      have howned := h.toOwned.setFile hfile hpath hinode hlinks
      refine ⟨h.of_registry howned hsame.1 hsame.2.ge, fun other hother => ?_⟩
      have hne : ∀ {id'}, node.fileHandles.find other = some id' → id' ≠ id := by
        rintro _ hfind' rfl
        exact hother (h.single hfind' hfind)
      refine ⟨by rw [hsame.1], fun hfind' => ?_, fun hfind' => ?_,
        fun {id' file'} hfind' hfile' => ?_⟩
      · simp only [isValidHandle, setFile, find_modifyHandle, if_neg (hne hfind')]
      · simp only [localFile, setFile, find_modifyHandle, if_neg (hne hfind')]
      · -- one inode has one path, and one path one handle
        apply content_writeBytes_of_ne
        intro heq
        have hlinked := h.linked hfile'
        rw [heq] at hlinked
        exact hne hfind' (h.distinct hfile' hfile (node.files.single hlinked (h.linked hfile)))

/-- A deletion is refused, or the path is free then. -/
theorem Sound.deleteObject_cases (h : node.Sound) (answer : Status) :
    (node.deleteObject bucket key answer = (answer, node) ∧ answer.ok = false ∧
        answer.code ≠ .notFound) ∨
      (node.deleteObject bucket key answer).1 = okStatus ∧
        Touches {getPath bucket key} node (node.deleteObject bucket key answer).2 ∧
        (node.deleteObject bucket key answer).2.fileHandles.find (getPath bucket key) = none := by
  rw [deleteObject]
  split_ifs with hrefused
  · exact Or.inl ⟨rfl, Bool.eq_false_iff.2 hrefused.1, hrefused.2⟩
  · have hremoved := @touches_removed node (getPath bucket key) h
      (node.fileHandles.remove (getPath bucket key)).2 fun other => by
        rw [ConcurrentMap.find_remove]
        split_ifs with hother
        · exact Or.inl ⟨hother, rfl⟩
        · exact Or.inr rfl
    have hreleased := touches_releaseAll hremoved.sound
      (node.fileHandles.get (getPath bucket key)).toList
    refine Or.inr ⟨rfl, hremoved.trans (hreleased.mono (Set.empty_subset _)), ?_⟩
    refine (hreleased.same _ (Set.notMem_empty _)).registry.trans ?_
    change (node.fileHandles.remove (getPath bucket key)).2.find _ = none
    rw [ConcurrentMap.find_remove, if_pos rfl]

end Calls

end Node

end GEDS
