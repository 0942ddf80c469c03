/-
The registry of a node: which handles it can name, and what `deleteObjectPrefix`
takes out of it.
-/
import GEDS.Node

namespace GEDS

open Status

namespace Node

variable {node node' : Node}

section SameRegistry

/-- The registry and the handles given out so far stay as they are. -/
def SameRegistry (node node' : Node) : Prop :=
  node'.fileHandles = node.fileHandles ∧ node'.nextHandle = node.nextHandle

theorem SameRegistry.trans {node'' : Node} (hfirst : SameRegistry node node')
    (hsecond : SameRegistry node' node'') : SameRegistry node node'' :=
  ⟨hsecond.1.trans hfirst.1, hsecond.2.trans hfirst.2⟩

theorem sameRegistry_release (id : Nat) : SameRegistry node (node.release id) := by
  rw [release]
  cases node.handles.find id with
  | none => exact ⟨rfl, rfl⟩
  | some handle =>
      simp only
      split_ifs <;> exact ⟨rfl, rfl⟩

theorem sameRegistry_releaseAll (ids : List Nat) :
    SameRegistry node (node.releaseAll ids) := by
  induction ids generalizing node with
  | nil => exact ⟨rfl, rfl⟩
  | cons id rest ih => exact (sameRegistry_release id).trans ih

theorem sameRegistry_modifyHandle (id : Nat) (change : FileHandle → FileHandle) :
    SameRegistry node (node.modifyHandle id change) := by
  rw [modifyHandle]
  cases node.handles.find id <;> exact ⟨rfl, rfl⟩

theorem sameRegistry_dropReference (id : Nat) :
    SameRegistry node (node.dropReference id) :=
  (sameRegistry_modifyHandle id _).trans (sameRegistry_release id)

theorem sameRegistry_writeBytes (id : Nat) (bytes : Bytes) (position : UInt64)
    (fault : Option WriteFault) :
    SameRegistry node (node.writeBytes id bytes position fault).2 := by
  rw [writeBytes]
  cases node.localFile id with
  | none => exact ⟨rfl, rfl⟩
  | some file => exact sameRegistry_modifyHandle id _

theorem sameRegistry_truncate (id : Nat) (targetSize : UInt64) (fault : Option Bytes) :
    SameRegistry node (node.truncate id targetSize fault).2 := by
  rw [truncate]
  cases node.localFile id with
  | none => exact ⟨rfl, rfl⟩
  | some file => exact sameRegistry_modifyHandle id _

end SameRegistry

section Cases

/-- Creating a bucket changes nothing but the buckets that are known. -/
theorem createBucket_eq {bucket : Bytes} (lookup create : Status) :
    ∃ known, (node.createBucket bucket lookup create).2 =
      { node with knownBuckets := known } := by
  have hlooked : ∃ known, (node.lookupBucket bucket lookup).2 =
      { node with knownBuckets := known } := by
    rw [lookupBucket]
    split_ifs
    · exact ⟨node.knownBuckets, rfl⟩
    · exact ⟨bucket :: node.knownBuckets, rfl⟩
    · exact ⟨node.knownBuckets, rfl⟩
  simp only [createBucket]
  split_ifs
  · exact hlooked
  · exact hlooked
  · exact hlooked
  · exact ⟨node.knownBuckets, rfl⟩

/-- What a creation does: it is refused, or the factory is asked for a handle, which
then goes to the registry. -/
theorem createAsFileHandle_cases (bucket key : Bytes) (overwrite : Bool)
    (answers : CreateAnswers) :
    ∃ known,
      (∃ status, (status = node.checkServiceRunning ∨ status = isValid bucket key ∨
          status = (node.createBucket bucket answers.lookupBucket answers.createBucket).1) ∧
        node.createAsFileHandle bucket key overwrite answers =
          (.error status, { node with knownBuckets := known })) ∨
      (node.checkServiceRunning.ok = true ∧ (isValid bucket key).ok = true ∧
        (node.createBucket bucket answers.lookupBucket answers.createBucket).1.ok = true) ∧
      ((∃ status made,
        { node with knownBuckets := known }.factory bucket key answers.mkdirFault
          answers.openFile = (.error status, made) ∧
        node.createAsFileHandle bucket key overwrite answers = (.error status, made)) ∨
      ∃ id made,
        { node with knownBuckets := known }.factory bucket key answers.mkdirFault
          answers.openFile = (.ok id, made) ∧
        node.createAsFileHandle bucket key overwrite answers =
          if overwrite then (.ok id, made.replaceHandle (getPath bucket key) id)
          else made.registerHandle (getPath bucket key) id) := by
  by_cases hrunning : node.checkServiceRunning.ok = true
  · by_cases hvalid : (isValid bucket key).ok = true
    · obtain ⟨known, hknown⟩ := @createBucket_eq node bucket answers.lookupBucket
        answers.createBucket
      refine ⟨known, ?_⟩
      simp only [createAsFileHandle, hrunning, hvalid, ↓reduceIte]
      by_cases hcreated :
          (node.createBucket bucket answers.lookupBucket answers.createBucket).1.ok = true
      · right
        simp only [hcreated, hknown, ↓reduceIte, and_self, true_and]
        cases hmade : Node.factory { node with knownBuckets := known } bucket key
          answers.mkdirFault answers.openFile with
        | mk result made =>
            cases result with
            | error status => exact Or.inl ⟨status, made, rfl, rfl⟩
            | ok id => exact Or.inr ⟨id, made, rfl, rfl⟩
      · left
        simp only [hcreated, hknown]
        exact ⟨_, Or.inr (Or.inr rfl), rfl⟩
    · refine ⟨node.knownBuckets, Or.inl ⟨_, Or.inr (Or.inl rfl), ?_⟩⟩
      simp only [createAsFileHandle, hrunning, hvalid, Bool.false_eq_true, ↓reduceIte]
  · refine ⟨node.knownBuckets, Or.inl ⟨_, Or.inl rfl, ?_⟩⟩
    simp only [createAsFileHandle, hrunning, Bool.false_eq_true, ↓reduceIte]

/-- What `openAsFileHandle` can do: fail, find a handle, or register a new one. -/
theorem openAsFileHandle_cases (bucket key : Bytes) (reopened : Status) :
    (∃ status, node.openAsFileHandle bucket key reopened = (.error status, node)) ∨
      (∃ id, node.openAsFileHandle bucket key reopened = (.ok id, node.addReference id)) ∨
      slash ∉ bucket ∧ ∃ id, node.openAsFileHandle bucket key reopened =
        (.ok id, { (node.addHandle bucket key none).2 with
          fileHandles := (node.fileHandles.insertOrExists (getPath bucket key)
            node.nextHandle).2 }) := by
  by_cases hrunning : node.checkServiceRunning.ok = true
  · by_cases hvalid : (isValid bucket key).ok = true
    · simp only [openAsFileHandle, hrunning, hvalid, ↓reduceIte]
      cases node.fileHandles.get (getPath bucket key) with
      | some id => exact Or.inr (Or.inl ⟨id, rfl⟩)
      | none =>
          by_cases hreopened : reopened.ok = true
          · simp only [hreopened, ↓reduceIte]
            exact Or.inr (Or.inr ⟨isValid.slash_not_mem hvalid, _, rfl⟩)
          · simp only [hreopened]
            exact Or.inl ⟨reopened, rfl⟩
    · simp only [openAsFileHandle, hrunning, hvalid, ↓reduceIte]
      exact Or.inl ⟨_, rfl⟩
  · simp only [openAsFileHandle, hrunning]
    exact Or.inl ⟨_, rfl⟩

/-- The node with a handle that takes the place of a relocated one. -/
def relocated (node : Node) (id : Nat) (handle : FileHandle) : Node :=
  (((node.addHandle handle.bucket handle.key none).2.modifyHandle id fun handle =>
    { handle with isValid := false }).replaceHandle (getPath handle.bucket handle.key)
      node.nextHandle).dropReference node.nextHandle

/-- What `relocate` can do: nothing, remove a block, or replace a handle. -/
theorem relocate_cases (id : Nat) (force : Bool) (stored : Status) :
    node.relocate id force stored = node ∨
      (∃ path selector, node.relocate id force stored =
        { node with fileHandles := (node.fileHandles.removeIf path selector).2 }.release id) ∨
      ∃ handle, node.handles.find id = some handle ∧
        node.relocate id force stored = node.relocated id handle := by
  rw [relocate]
  cases hfind : node.handles.find id with
  | none => exact Or.inl rfl
  | some handle =>
      simp only
      split_ifs
      · exact Or.inl rfl
      · exact Or.inr (Or.inl ⟨_, _, rfl⟩)
      · rw [relocateHandle, hfind]
        simp only
        split_ifs
        · exact Or.inr (Or.inr ⟨handle, rfl, rfl⟩)
        · exact Or.inl rfl

end Cases

section Numbered

/-- The registry names only handles that were given out. -/
def Numbered (node : Node) : Prop :=
  ∀ path id, node.fileHandles.find path = some id → id < node.nextHandle

/-- What the registry names was named before or is one of the handles given
out. -/
theorem Numbered.mono (h : node.Numbered) (hnext : node.nextHandle ≤ node'.nextHandle)
    (hnamed : ∀ path id, node'.fileHandles.find path = some id →
      node.fileHandles.find path = some id ∨ id < node'.nextHandle) : node'.Numbered := by
  intro path id hfind
  rcases hnamed path id hfind with hold | hnew
  · exact (h path id hold).trans_le hnext
  · exact hnew

theorem Numbered.of_sameRegistry (h : node.Numbered) (hsame : SameRegistry node node') :
    node'.Numbered := by
  apply h.mono hsame.2.ge
  intro path id hfind
  rw [hsame.1] at hfind
  exact Or.inl hfind

/-- Taking names out of the registry is harmless. -/
theorem Numbered.of_removed (h : node.Numbered) {kept : ConcurrentMap Bytes Nat}
    (hkept : ∀ path, kept.find path = none ∨ kept.find path = node.fileHandles.find path) :
    { node with fileHandles := kept }.Numbered := by
  intro path id hfind
  rcases hkept path with hnone | hsame
  · exact absurd (hnone.symm.trans hfind) (Option.some_ne_none id).symm
  · exact h path id (hsame.symm.trans hfind)

theorem Numbered.addHandle (h : node.Numbered) (bucket key : Bytes)
    (file : Option LocalFile) : (node.addHandle bucket key file).2.Numbered := by
  apply h.mono (Nat.le_succ _)
  intro path id hfind
  exact Or.inl hfind

theorem addHandle_lt (bucket key : Bytes) (file : Option LocalFile) :
    (node.addHandle bucket key file).1 < (node.addHandle bucket key file).2.nextHandle :=
  Nat.lt_succ_self _

theorem Numbered.insertHandle (h : node.Numbered) {id : Nat} (hid : id < node.nextHandle)
    (path : Bytes) :
    { node with fileHandles := node.fileHandles.insert path id }.Numbered := by
  refine h.mono ?_ ?_
  · exact Nat.le_refl node.nextHandle
  · intro other id' hfind
    rw [OrderedMap.find_insert] at hfind
    split_ifs at hfind
    · obtain rfl := Option.some.inj hfind
      exact Or.inr hid
    · exact Or.inl hfind

theorem Numbered.insertOrExists (h : node.Numbered) {id : Nat} (hid : id < node.nextHandle)
    (path : Bytes) :
    { node with fileHandles := (node.fileHandles.insertOrExists path id).2 }.Numbered := by
  rw [ConcurrentMap.insertOrExists]
  cases node.fileHandles.find path with
  | none => exact h.insertHandle hid path
  | some existing => exact h

theorem Numbered.replaceHandle (h : node.Numbered) {id : Nat} (hid : id < node.nextHandle)
    (path : Bytes) : (node.replaceHandle path id).Numbered :=
  (h.insertHandle hid path).of_sameRegistry (sameRegistry_releaseAll _)

theorem Numbered.registerHandle (h : node.Numbered) {id : Nat} (hid : id < node.nextHandle)
    (path : Bytes) : (node.registerHandle path id).2.Numbered := by
  have hinserted := h.insertOrExists hid path
  rw [Node.registerHandle]
  split_ifs
  · exact hinserted.of_sameRegistry (sameRegistry_dropReference id)
  · exact hinserted

theorem Numbered.factory (h : node.Numbered) (bucket key : Bytes)
    (mkdirFault : Option Bytes) (opens : OpenResult) :
    (node.factory bucket key mkdirFault opens).2.Numbered ∧
      ∀ id, (node.factory bucket key mkdirFault opens).1 = .ok id →
        id < (node.factory bucket key mkdirFault opens).2.nextHandle := by
  simp only [Node.factory]
  cases mkdirFault with
  | some reason => exact ⟨h, fun id hid => nomatch hid⟩
  | none =>
      cases opens with
      | openFailed reason => exact ⟨h, fun id hid => nomatch hid⟩
      | fstatFailed reason => exact ⟨h, fun id hid => nomatch hid⟩
      | opened =>
          refine ⟨?_, ?_⟩
          · intro path id hfind
            exact Nat.lt_succ_of_lt (h path id hfind)
          · intro id hid
            obtain rfl := Except.ok.inj hid
            exact Nat.lt_succ_self _

theorem Numbered.createAsFileHandle (h : node.Numbered) (bucket key : Bytes)
    (overwrite : Bool) (answers : CreateAnswers) :
    (node.createAsFileHandle bucket key overwrite answers).2.Numbered := by
  obtain ⟨known, ⟨status, -, hcreate⟩ | ⟨-, hfactory⟩⟩ :=
    @createAsFileHandle_cases node bucket key overwrite answers
  · rw [hcreate]
    exact h
  · obtain ⟨hnumbered, hid⟩ := @Numbered.factory { node with knownBuckets := known } h bucket key
      answers.mkdirFault answers.openFile
    rcases hfactory with ⟨status, made, hmade, hcreate⟩ | ⟨id, made, hmade, hcreate⟩
    · rw [hmade] at hnumbered
      rw [hcreate]
      exact hnumbered
    · rw [hmade] at hnumbered hid
      rw [hcreate]
      cases overwrite with
      | true => exact hnumbered.replaceHandle (hid id rfl) _
      | false => exact hnumbered.registerHandle (hid id rfl) _

theorem Numbered.create (h : node.Numbered) (bucket key : Bytes) (overwrite : Bool)
    (answers : CreateAnswers) : (node.create bucket key overwrite answers).2.Numbered := by
  have hcreated := h.createAsFileHandle bucket key overwrite answers
  rw [Node.create]
  generalize Node.createAsFileHandle _ _ _ _ _ = created at hcreated
  obtain ⟨result, created⟩ := created
  cases result with
  | error status => exact hcreated
  | ok id =>
      apply hcreated.of_sameRegistry
      exact (sameRegistry_modifyHandle id _).trans (sameRegistry_dropReference id)

theorem Numbered.openAsFileHandle (h : node.Numbered) (bucket key : Bytes)
    (reopened : Status) : (node.openAsFileHandle bucket key reopened).2.Numbered := by
  rcases @openAsFileHandle_cases node bucket key reopened with
    ⟨status, hopen⟩ | ⟨id, hopen⟩ | ⟨-, id, hopen⟩
  · rw [hopen]
    exact h
  · rw [hopen]
    exact h.of_sameRegistry (sameRegistry_modifyHandle id _)
  · rw [hopen]
    exact (h.addHandle bucket key none).insertOrExists (addHandle_lt bucket key none) _

theorem find_removeIf (map : ConcurrentMap Bytes Nat) (key : Bytes) (selector : Nat → Bool)
    (path : Bytes) :
    (map.removeIf key selector).2.find path = none ∨
      (map.removeIf key selector).2.find path = map.find path := by
  rw [ConcurrentMap.removeIf]
  cases map.find key with
  | none => exact Or.inr rfl
  | some value =>
      simp only
      split_ifs
      · rw [OrderedMap.find_erase]
        split_ifs
        · exact Or.inl rfl
        · exact Or.inr rfl
      · exact Or.inr rfl

theorem Numbered.openFrom (bucket key : Bytes) (attempts : List Status)
    (h : node.Numbered) : (Node.openFrom bucket key attempts node).2.Numbered := by
  induction attempts generalizing node with
  | nil => exact h
  | cons reopened attempts ih =>
      have hfound := h.openAsFileHandle bucket key reopened
      rw [Node.openFrom]
      generalize Node.openAsFileHandle _ _ _ _ = found at hfound
      obtain ⟨result, found⟩ := found
      cases result with
      | error status => exact hfound
      | ok id =>
          simp only
          split_ifs
          · apply hfound.of_sameRegistry
            exact (sameRegistry_modifyHandle id _).trans (sameRegistry_dropReference id)
          · apply Numbered.of_sameRegistry _ (sameRegistry_dropReference id)
            apply ih
            exact hfound.of_removed (find_removeIf _ _ _)

theorem Numbered.deleteObject (h : node.Numbered) (bucket key : Bytes) (answer : Status) :
    (node.deleteObject bucket key answer).2.Numbered := by
  rw [Node.deleteObject]
  split_ifs
  · exact h
  · apply Numbered.of_sameRegistry _ (sameRegistry_releaseAll _)
    apply h.of_removed
    intro path
    simp only [ConcurrentMap.find_remove]
    split_ifs
    · exact Or.inl rfl
    · exact Or.inr rfl

theorem Numbered.deleteObjectPrefix (h : node.Numbered) (bucket keyPrefix : Bytes)
    (metadata : Bytes → Bytes → Status) :
    (node.deleteObjectPrefix bucket keyPrefix metadata).2.Numbered := by
  rw [Node.deleteObjectPrefix]
  simp only
  split_ifs
  · exact h
  · apply Numbered.of_sameRegistry _ (sameRegistry_releaseAll _)
    apply h.of_removed
    intro path
    simp only [ConcurrentMap.find_removeRange]
    split_ifs
    · exact Or.inl rfl
    · exact Or.inr rfl

theorem Numbered.relocate (h : node.Numbered) (id : Nat) (force : Bool) (stored : Status) :
    (node.relocate id force stored).Numbered := by
  rcases @relocate_cases node id force stored with
    hrelocate | ⟨path, selector, hrelocate⟩ | ⟨handle, -, hrelocate⟩
  · rw [hrelocate]
    exact h
  · rw [hrelocate]
    apply Numbered.of_sameRegistry _ (sameRegistry_release id)
    exact h.of_removed (find_removeIf _ _ _)
  · have hadded := h.addHandle handle.bucket handle.key none
    have hmarked := @sameRegistry_modifyHandle
      (node.addHandle handle.bucket handle.key none).2 id
      (fun handle => { handle with isValid := false })
    rw [hrelocate]
    apply Numbered.of_sameRegistry _ (sameRegistry_dropReference _)
    apply (hadded.of_sameRegistry hmarked).replaceHandle
    rw [hmarked.2]
    exact addHandle_lt handle.bucket handle.key none

theorem Numbered.perform (h : node.Numbered) (event : NodeEvent) :
    (node.perform event).Numbered := by
  cases event with
  | start answer =>
      rw [Node.perform, Node.start]
      split_ifs <;> exact h
  | stop =>
      rw [Node.perform, Node.stop]
      split_ifs
      · apply Numbered.of_sameRegistry _ (sameRegistry_releaseAll _)
        intro path id hfind
        simp at hfind
      · exact h
  | createAsFileHandle bucket key overwrite answers =>
      exact h.createAsFileHandle bucket key overwrite answers
  | create bucket key overwrite answers => exact h.create bucket key overwrite answers
  | openObject bucket key reopened retried => exact h.openFrom bucket key _
  | copyFile id => exact h.of_sameRegistry (sameRegistry_modifyHandle id _)
  | closeFile id =>
      apply h.of_sameRegistry
      exact (sameRegistry_modifyHandle id _).trans (sameRegistry_dropReference id)
  | addReference id => exact h.of_sameRegistry (sameRegistry_modifyHandle id _)
  | dropReference id => exact h.of_sameRegistry (sameRegistry_dropReference id)
  | writeBytes id bytes position fault =>
      exact h.of_sameRegistry (sameRegistry_writeBytes id bytes position fault)
  | truncate id targetSize fault =>
      exact h.of_sameRegistry (sameRegistry_truncate id targetSize fault)
  | deleteObject bucket key answer => exact h.deleteObject bucket key answer
  | deleteObjectPrefix bucket keyPrefix metadata =>
      exact h.deleteObjectPrefix bucket keyPrefix metadata
  | relocate id force stored => exact h.relocate id force stored

theorem new_numbered (pathPrefix : Bytes) : (new pathPrefix).Numbered := by
  intro path id hfind
  simp [new] at hfind

theorem Numbered.run (h : node.Numbered) (events : List NodeEvent) :
    (node.run events).Numbered := by
  induction events generalizing node with
  | nil => exact h
  | cons event rest ih => exact ih (h.perform event)

end Numbered

section DeletePrefix

variable {bucket keyPrefix : Bytes} {metadata : Bytes → Bytes → Status}

/-- The path is in the registry. -/
def Registered (node : Node) (path : Bytes) : Prop := node.fileHandles.find path ≠ none

/-- Exactly the handles under the prefix in the bucket are gone. -/
def RemovedExactly (node node' : Node) (bucket keyPrefix : Bytes) : Prop :=
  ∀ path, node'.fileHandles.find path =
    if getPath bucket keyPrefix <+: path then none else node.fileHandles.find path

/-- The key prefix, taken for the beginning of a path, hits what the full prefix
hits: it begins the full prefix or there is nothing to hit, and it hits nothing
else. -/
def ProbeFits (node : Node) (bucket keyPrefix : Bytes) : Prop :=
  (keyPrefix <+: getPath bucket keyPrefix ∨
      ∀ path, node.Registered path → ¬ getPath bucket keyPrefix <+: path) ∧
    ∀ path, node.Registered path → keyPrefix <+: path → getPath bucket keyPrefix <+: path

theorem find_deleteObjectPrefix
    (hok : (node.deleteObjectPrefix bucket keyPrefix metadata).1.ok = true) (path : Bytes) :
    (node.deleteObjectPrefix bucket keyPrefix metadata).2.fileHandles.find path =
      if keyPrefix <+: path then none else node.fileHandles.find path := by
  simp only [deleteObjectPrefix] at hok ⊢
  by_cases hfailed : ¬ (metadata bucket keyPrefix).ok = true ∧
      (metadata bucket keyPrefix).code ≠ .notFound
  · rw [if_pos hfailed] at hok
    exact absurd hok hfailed.1
  · rw [if_neg hfailed, (sameRegistry_releaseAll _).1, ConcurrentMap.find_removeRange]
    by_cases hstarts : keyPrefix <+: path
    · rw [if_pos hstarts, if_pos ((PathPrefixProbe.accepts_iff ⟨keyPrefix⟩ path).mpr hstarts)]
    · rw [if_neg hstarts,
        if_neg (fun h => hstarts ((PathPrefixProbe.accepts_iff ⟨keyPrefix⟩ path).mp h))]

/-- A deletion by prefix that returns OK removes exactly the handles under the
prefix in the bucket if and only if the probe fits the registry. -/
theorem deleteObjectPrefix_removedExactly_iff (node : Node) (bucket keyPrefix : Bytes)
    (metadata : Bytes → Bytes → Status)
    (hok : (node.deleteObjectPrefix bucket keyPrefix metadata).1.ok = true) :
    node.RemovedExactly (node.deleteObjectPrefix bucket keyPrefix metadata).2 bucket
        keyPrefix ↔
      node.ProbeFits bucket keyPrefix := by
  have hafter := find_deleteObjectPrefix hok
  constructor
  · intro hexactly
    have hboth : ∀ path, node.Registered path →
        (keyPrefix <+: path ↔ getPath bucket keyPrefix <+: path) := by
      intro path hregistered
      have heq := (hafter path).symm.trans (hexactly path)
      by_cases hkey : keyPrefix <+: path
      · by_cases hfull : getPath bucket keyPrefix <+: path
        · exact iff_of_true hkey hfull
        · rw [if_pos hkey, if_neg hfull] at heq
          exact absurd heq.symm hregistered
      · by_cases hfull : getPath bucket keyPrefix <+: path
        · rw [if_neg hkey, if_pos hfull] at heq
          exact absurd heq hregistered
        · exact iff_of_false hkey hfull
    refine ⟨?_, fun path hregistered => (hboth path hregistered).mp⟩
    rw [or_iff_not_imp_right]
    intro hsome
    push Not at hsome
    obtain ⟨path, hregistered, hfull⟩ := hsome
    have hkey := (hboth path hregistered).mpr hfull
    apply List.prefix_of_prefix_length_le hkey hfull
    simp only [getPath, fullName, List.length_append, List.length_cons]
    omega
  · rintro ⟨hhits, honly⟩ path
    rw [hafter path]
    by_cases hregistered : node.Registered path
    · have hfull : getPath bucket keyPrefix <+: path → keyPrefix <+: path := by
        intro hfull
        rcases hhits with hbegins | hnothing
        · exact hbegins.trans hfull
        · exact absurd hfull (hnothing path hregistered)
      have hboth : keyPrefix <+: path ↔ getPath bucket keyPrefix <+: path :=
        ⟨honly path hregistered, hfull⟩
      simp only [hboth]
    · rw [not_not.mp hregistered]
      split_ifs <;> rfl

namespace Sample

def answers : CreateAnswers := ⟨okStatus, okStatus, none, .opened⟩

def metadataOk : Bytes → Bytes → Status := fun _ _ => okStatus

/-- A node on which two objects were created. -/
def withObjects (bucket key bucket' key' : Bytes) : Node :=
  (new (text "/geds")).run [.start okStatus, .create bucket key false answers,
    .create bucket' key' false answers]

theorem forall_registered {node : Node} {p : Bytes → Prop}
    (hentries : ∀ entry ∈ node.fileHandles.entries, p entry.1) :
    ∀ path, node.Registered path → p path := by
  intro path hregistered
  obtain ⟨id, hfind⟩ := Option.ne_none_iff_exists'.mp hregistered
  exact hentries (path, id) ((OrderedMap.find_eq_some_iff _ path id).mp hfind)

/-- A prefix that repeats the name of its bucket happens to fit. -/
theorem repeated_removedExactly :
    ((withObjects (text "abc") (text "abc/key") (text "xyz") (text "key")).deleteObjectPrefix
        (text "abc") (text "abc/") metadataOk).1.ok = true ∧
      (withObjects (text "abc") (text "abc/key") (text "xyz") (text "key")).RemovedExactly
        ((withObjects (text "abc") (text "abc/key") (text "xyz")
          (text "key")).deleteObjectPrefix (text "abc") (text "abc/") metadataOk).2
        (text "abc") (text "abc/") := by
  refine ⟨rfl, (deleteObjectPrefix_removedExactly_iff _ _ _ metadataOk rfl).mpr ?_⟩
  refine ⟨Or.inl (by decide), forall_registered ?_⟩
  decide

/-- Deleting `dir/` in the bucket `abc` leaves `abc/dir/key` and removes a handle
of the bucket `dir`. -/
theorem directory_not_removedExactly :
    ((withObjects (text "abc") (text "dir/key") (text "dir") (text "key")).deleteObjectPrefix
        (text "abc") (text "dir/") metadataOk).1.ok = true ∧
      ¬ (withObjects (text "abc") (text "dir/key") (text "dir") (text "key")).RemovedExactly
        ((withObjects (text "abc") (text "dir/key") (text "dir")
          (text "key")).deleteObjectPrefix (text "abc") (text "dir/") metadataOk).2
        (text "abc") (text "dir/") := by
  refine ⟨rfl, ?_⟩
  intro hexactly
  exact absurd (hexactly (text "abc/dir/key")) (by decide)

end Sample

end DeletePrefix

end Node

end GEDS
