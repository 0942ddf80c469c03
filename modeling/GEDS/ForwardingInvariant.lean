/-
What the nodes know of an object: a node whose file is gone finds no record that is as old
as its own, so a handle that asks another node does so for something newer than what the
node itself had.
-/
import GEDS.ReadForwarding

namespace GEDS

universe u

namespace Forwarding

variable {α : Type u}

/-- What a handle reads from, if that can change. -/
def HandleKind.inner : HandleKind α → Option (Record α)
  | .relocatable inner _ => some inner
  | _ => none

namespace Phase

/-- The record that a lookup has found. -/
def found : Phase α → Option (Record α)
  | .answered _ _ record | .located _ _ record => some record
  | _ => none

/-- The record for which another node is asked. -/
def request : Phase α → Option (Record α)
  | .waiting _ _ record _ => some record
  | _ => none

/-- The handle at work -/
def handle : Phase α → Option Nat
  | .lookup (.reopen handle) _ | .answered (.reopen handle) _ _
  | .located (.reopen handle) _ _ | .opened _ handle | .reading _ handle
  | .waiting _ handle _ _ | .retrying handle _ => some handle
  | _ => none

end Phase

namespace Nodes

section Definitions

variable (s : Nodes α)

/-- The handle that is registered has a file of its own or is for the object store. -/
def HasFile (node : α) : Prop :=
  ∃ id file, s.registry node = some id ∧ s.handles.get id = some file ∧ file.kind.inner = none

/-- A lookup at the node has found the record, or can find it without the metadata service. -/
def Keeps (node : α) (record : Record α) : Prop :=
  s.cache node = some record ∨ (node, record) ∈ s.asked ∨
    ∃ read position length frames, s.reads read = .running position length frames ∧
      ∃ frame ∈ frames, frame.node = node ∧ frame.phase.found = some record

/-- Whatever the node finds is newer than its own last record. -/
def Outdated (node : α) : Prop :=
  (∀ record, s.record = some record → s.recorded node < record.version) ∧
    ∀ record, s.Keeps node record → s.recorded node < record.version

/-- A local file is sealed where a file is registered, a handle is not put back in place of
another, and a file goes only when its node is outdated. -/
def Orderly : Event α → Prop
  | .seal id _ _ => ∀ node isValid content,
      s.handles.get id = some ⟨node, isValid, .localFile content⟩ → s.HasFile node
  | .relocate id _ => ∀ node isValid inner reopened,
      s.handles.get id = some ⟨node, isValid, .relocatable inner reopened⟩ →
        s.registry node = none ∨ s.registry node = some id
  | .removeHandle node => s.HasFile node → s.Outdated node
  | .step read _ => ∀ position length node retry id file rest,
      s.reads read = .running position length (⟨node, .opened retry id⟩ :: rest) →
        s.registry node = some id → s.handles.get id = some file → file.isValid = false →
          s.HasFile node → s.Outdated node
  | _ => True

/-- Every step of the run is orderly. -/
def OrderlyRun [DecidableEq α] : Nodes α → List (Event α) → Prop
  | _, [] => True
  | s, event :: events => s.Orderly event ∧ OrderlyRun (s.perform event) events

/-- The version of what is gone at a node. -/
abbrev Gone (α : Type u) := α → Nat

variable (gone : Gone α)

/-- What is known of any record: if it names a node whose file is not gone since, there is
a file. -/
structure Fits (record : Record α) : Prop where
  pos : 0 < record.version
  le_versions : record.version ≤ s.versions
  le_recorded : ∀ node, record.location = .node node → record.version ≤ s.recorded node
  file : ∀ node, record.location = .node node → record.version ≤ gone node ∨ s.HasFile node

/-- The invariant of what the nodes keep. -/
structure Sound : Prop where
  gone_le : ∀ node, gone node ≤ s.recorded node
  recorded_le : ∀ node, s.recorded node ≤ s.versions
  record : ∀ record, s.record = some record →
    s.Fits gone record ∧ ∀ node, gone node < record.version
  cache : ∀ node record, s.cache node = some record →
    s.Fits gone record ∧ gone node < record.version
  asked : ∀ node record, (node, record) ∈ s.asked →
    s.Fits gone record ∧ gone node < record.version
  registered : ∀ node id, s.registry node = some id → ∃ file, s.handles.get id = some file ∧
    file.node = node ∧ ∀ inner, file.kind.inner = some inner → gone node < inner.version
  handles : ∀ id file inner, s.handles.get id = some file → file.kind.inner = some inner →
    s.Fits gone inner
  unused : ∀ id, s.handles.next ≤ id → s.handles.get id = none

/-- The invariant of what one node does for a read. -/
structure SoundFrame (frame : Frame α) : Prop where
  found : ∀ record, frame.phase.found = some record →
    s.Fits gone record ∧ gone frame.node < record.version
  request : ∀ record, frame.phase.request = some record → s.Fits gone record
  handle : ∀ id, frame.phase.handle = some id →
    ∃ file, s.handles.get id = some file ∧ file.node = frame.node

/-- The first node was asked by the second one.  If it has a handle that may ask others, it
does so under a newer record. -/
structure Asks (asked asks : Frame α) (record : Record α) : Prop where
  request : asks.phase.request = some record
  location : record.location = .node asked.node
  handle : ∀ id file inner, asked.phase.handle = some id → s.handles.get id = some file →
    file.kind.inner = some inner → record.version ≤ gone asked.node ∧
      record.version < inner.version
  rises : ∀ next, asked.phase.request = some next → record.version < next.version

/-- The invariant of the nodes that are at work on a read. -/
structure Stacked (frames : List (Frame α)) : Prop where
  sound : ∀ frame ∈ frames, s.SoundFrame gone frame
  asks : frames.IsChain fun asked asks => ∃ record, s.Asks gone asked asks record

/-- The invariant of every orderly run. -/
structure Invariant : Prop where
  sound : s.Sound gone
  stacked : ∀ read position length frames, s.reads read = .running position length frames →
    s.Stacked gone frames

end Definitions

variable {s s' s'' : Nodes α} {gone gone' : Gone α} {node : α} {record : Record α}

/-- Nothing is gone: records, files and handles stay, and a handle gets newer records. -/
structure Kept (gone : Gone α) (s s' : Nodes α) : Prop where
  recorded_le : ∀ node, s.recorded node ≤ s'.recorded node
  versions_le : s.versions ≤ s'.versions
  file : ∀ node, s.HasFile node → s'.HasFile node
  handle : ∀ id file, s.handles.get id = some file → ∃ file', s'.handles.get id = some file' ∧
    file'.node = file.node ∧ ∀ inner', file'.kind.inner = some inner' →
      ∃ inner, file.kind.inner = some inner ∧ (inner' = inner ∨ gone file.node < inner'.version)

theorem Kept.refl (gone : Gone α) (s : Nodes α) : Kept gone s s :=
  ⟨fun _ => le_rfl, le_rfl, fun _ hfile => hfile, fun _ file hget =>
    ⟨file, hget, rfl, fun inner hinner => ⟨inner, hinner, Or.inl rfl⟩⟩⟩

theorem Kept.trans (hfirst : Kept gone s s') (hsecond : Kept gone s' s'') : Kept gone s s'' where
  recorded_le node := (hfirst.recorded_le node).trans (hsecond.recorded_le node)
  versions_le := hfirst.versions_le.trans hsecond.versions_le
  file node hfile := hsecond.file node (hfirst.file node hfile)
  handle id file hget := by
    obtain ⟨file', hget', hnode', hinner'⟩ := hfirst.handle id file hget
    obtain ⟨file'', hget'', hnode'', hinner''⟩ := hsecond.handle id file' hget'
    refine ⟨file'', hget'', hnode''.trans hnode', fun inner'' hinner => ?_⟩
    obtain ⟨inner', hfile', hsame' | hnewer'⟩ := hinner'' inner'' hinner
    · obtain ⟨inner, hfile, hsame⟩ := hinner' inner' hfile'
      exact ⟨inner, hfile, hsame' ▸ hsame⟩
    · obtain ⟨inner, hfile, -⟩ := hinner' inner' hfile'
      exact ⟨inner, hfile, Or.inr (hnode' ▸ hnewer')⟩

theorem Kept.fits (hkept : Kept gone s s') (hfits : s.Fits gone record) : s'.Fits gone record where
  pos := hfits.pos
  le_versions := hfits.le_versions.trans hkept.versions_le
  le_recorded node hnode := (hfits.le_recorded node hnode).trans (hkept.recorded_le node)
  file node hnode := (hfits.file node hnode).imp_right (hkept.file node)

theorem Kept.soundFrame (hkept : Kept gone s s') {frame : Frame α}
    (hframe : s.SoundFrame gone frame) : s'.SoundFrame gone frame where
  found record hfound := (hframe.found record hfound).imp_left hkept.fits
  request record hrequest := hkept.fits (hframe.request record hrequest)
  handle id hid := by
    obtain ⟨file, hget, hnode⟩ := hframe.handle id hid
    obtain ⟨file', hget', hnode', -⟩ := hkept.handle id file hget
    exact ⟨file', hget', hnode'.trans hnode⟩

theorem Kept.asks (hkept : Kept gone s s') {asked asks : Frame α}
    (hframe : s.SoundFrame gone asked) (hasks : s.Asks gone asked asks record) :
    s'.Asks gone asked asks record where
  request := hasks.request
  location := hasks.location
  handle id file' inner' hid hget' hinner' := by
    obtain ⟨file, hget, hnode⟩ := hframe.handle id hid
    obtain ⟨file'', hget'', -, hfile''⟩ := hkept.handle id file hget
    obtain rfl : file'' = file' := Option.some.inj (hget''.symm.trans hget')
    obtain ⟨inner, hinner, hnewer⟩ := hfile'' inner' hinner'
    have hbefore := hasks.handle id file inner hid hget hinner
    refine ⟨hbefore.1, ?_⟩
    rcases hnewer with rfl | hnewer
    · exact hbefore.2
    · exact hbefore.1.trans_lt (hnode ▸ hnewer)
  rises := hasks.rises

/-- What a change does to the calls that it is not a step of. -/
theorem Kept.stacked (hkept : Kept gone s s') {frames : List (Frame α)}
    (hframes : s.Stacked gone frames) : s'.Stacked gone frames where
  sound frame hframe := hkept.soundFrame (hframes.sound frame hframe)
  asks := by
    obtain ⟨hsound, hasks⟩ := hframes
    induction frames with
    | nil => exact List.IsChain.nil
    | cons asked rest ih =>
        cases rest with
        | nil => exact List.IsChain.singleton asked
        | cons asks rest =>
            obtain ⟨⟨record, hfirst⟩, hrest⟩ := List.isChain_cons_cons.1 hasks
            exact List.isChain_cons_cons.2 ⟨⟨record, hkept.asks (hsound asked List.mem_cons_self)
              hfirst⟩, ih (fun frame hframe => hsound frame (List.mem_cons_of_mem asked hframe))
                hrest⟩

/-- What is left to show of a change under which everything is kept. -/
theorem Sound.of_kept (hsound : s.Sound gone) (hkept : Kept gone s s')
    (hrecorded : ∀ node, s'.recorded node ≤ s'.versions)
    (hrecord : ∀ record, s'.record = some record → s.record = some record ∨
      (s'.Fits gone record ∧ ∀ node, gone node < record.version))
    (hcache : ∀ node record, s'.cache node = some record → s.cache node = some record ∨
      (s'.Fits gone record ∧ gone node < record.version))
    (hasked : ∀ node record, (node, record) ∈ s'.asked → (node, record) ∈ s.asked ∨
      (s'.Fits gone record ∧ gone node < record.version))
    (hregistered : ∀ node id, s'.registry node = some id → s.registry node = some id ∨
      ∃ file, s'.handles.get id = some file ∧ file.node = node ∧
        ∀ inner, file.kind.inner = some inner → gone node < inner.version)
    (hhandles : ∀ id file inner, s'.handles.get id = some file → file.kind.inner = some inner →
      (∃ file, s.handles.get id = some file ∧ file.kind.inner = some inner) ∨
        s'.Fits gone inner)
    (hunused : ∀ id, s'.handles.next ≤ id → s'.handles.get id = none) : s'.Sound gone where
  gone_le node := (hsound.gone_le node).trans (hkept.recorded_le node)
  recorded_le := hrecorded
  record record hsome := (hrecord record hsome).elim
    (fun hbefore => (hsound.record record hbefore).imp_left hkept.fits) id
  cache node record hsome := (hcache node record hsome).elim
    (fun hbefore => (hsound.cache node record hbefore).imp_left hkept.fits) id
  asked node record hmem := (hasked node record hmem).elim
    (fun hbefore => (hsound.asked node record hbefore).imp_left hkept.fits) id
  registered node id hid := by
    rcases hregistered node id hid with hbefore | hnew
    · obtain ⟨file, hget, hnode, hnewer⟩ := hsound.registered node id hbefore
      obtain ⟨file', hget', hnode', hinner'⟩ := hkept.handle id file hget
      refine ⟨file', hget', hnode'.trans hnode, fun inner' hinner => ?_⟩
      obtain ⟨inner, hfile, rfl | hlater⟩ := hinner' inner' hinner
      · exact hnewer inner' hfile
      · exact hnode ▸ hlater
    · exact hnew
  handles id file' inner' hget' hinner' := by
    rcases hhandles id file' inner' hget' hinner' with ⟨file, hget, hinner⟩ | hfits
    · exact hkept.fits (hsound.handles id file inner' hget hinner)
    · exact hfits
  unused := hunused

theorem Sound.lt_next (hsound : s.Sound gone) {id : Nat} {file : FileHandle α}
    (hget : s.handles.get id = some file) : id < s.handles.next := by
  by_contra hnext
  rw [hsound.unused id (Nat.le_of_not_lt hnext)] at hget
  cases hget

/-- A change that the handles and the registries have no part in. -/
theorem Kept.of_same (hrecorded : ∀ node, s.recorded node ≤ s'.recorded node)
    (hversions : s.versions ≤ s'.versions) (hregistry : s'.registry = s.registry)
    (hhandles : s'.handles = s.handles) : Kept gone s s' where
  recorded_le := hrecorded
  versions_le := hversions
  file node hfile := by
    rw [HasFile, hregistry, hhandles]
    exact hfile
  handle id file hget := by
    rw [hhandles]
    exact (Kept.refl gone s).handle id file hget

section Changes

variable [DecidableEq α]

theorem Sound.setCache (hsound : s.Sound gone) (node : α) (value : Option (Record α))
    (hvalue : ∀ record, value = some record → s.Fits gone record ∧ gone node < record.version) :
    (s.setCache node value).Sound gone ∧ Kept gone s (s.setCache node value) := by
  have hkept : Kept gone s (s.setCache node value) :=
    Kept.of_same (fun _ => le_rfl) le_rfl rfl rfl
  refine ⟨hsound.of_kept hkept hsound.recorded_le (fun _ => Or.inl) (fun other record hsome => ?_)
    (fun _ _ => Or.inl) (fun _ _ => Or.inl) (fun id file _ hget hinner =>
      Or.inl ⟨file, hget, hinner⟩) hsound.unused, hkept⟩
  simp only [Nodes.setCache, Function.update_apply] at hsome
  split_ifs at hsome with hother
  · subst other
    exact Or.inr ((hvalue record hsome).imp_left hkept.fits)
  · exact Or.inl hsome

/-- A new handle is registered: for a file, or where there is none. -/
theorem Sound.register (hsound : s.Sound gone) (node : α) (kind : HandleKind α)
    (hinner : ∀ record, kind.inner = some record →
      s.registry node = none ∧ s.Fits gone record ∧ gone node < record.version) :
    (s.register node kind).Sound gone ∧ Kept gone s (s.register node kind) := by
  have hkept : Kept gone s (s.register node kind) := by
    refine ⟨fun _ => le_rfl, le_rfl, fun other hfile => ?_, fun id file hget => ?_⟩
    · obtain ⟨id, file, hid, hget, hfile⟩ := hfile
      by_cases hother : other = node
      · subst other
        refine ⟨s.handles.next, ⟨node, true, kind⟩, Function.update_self .., by
          simp [Nodes.register], ?_⟩
        by_contra hsome
        obtain ⟨record, hrecord⟩ := Option.ne_none_iff_exists'.1 hsome
        rw [(hinner record hrecord).1] at hid
        cases hid
      · refine ⟨id, file, (Function.update_of_ne hother ..).trans hid, ?_, hfile⟩
        exact (Heap.get_alloc_of_ne _ _ (hsound.lt_next hget).ne).trans hget
    · exact ⟨file, (Heap.get_alloc_of_ne _ _ (hsound.lt_next hget).ne).trans hget, rfl,
        fun inner hfile => ⟨inner, hfile, Or.inl rfl⟩⟩
  refine ⟨hsound.of_kept hkept hsound.recorded_le (fun _ => Or.inl) (fun _ _ => Or.inl)
    (fun _ _ => Or.inl) (fun other id hid => ?_) (fun id file inner hget hfile => ?_)
    (fun id hid => ?_), hkept⟩
  · simp only [Nodes.register, Function.update_apply] at hid
    split_ifs at hid with hother
    · cases hid
      exact Or.inr ⟨⟨node, true, kind⟩, by simp [Nodes.register], hother.symm,
        fun inner hkind => hother ▸ (hinner inner hkind).2.2⟩
    · exact Or.inl hid
  · by_cases hid : id = s.handles.next
    · subst id
      simp only [Nodes.register, Heap.get_alloc_next, Option.some.injEq] at hget
      subst file
      exact Or.inr (hkept.fits (hinner inner hfile).2.1)
    · exact Or.inl ⟨file, (Heap.get_alloc_of_ne _ _ hid).symm.trans hget, hfile⟩
  · have hnext : s.handles.next < id := hid
    exact (Heap.get_alloc_of_ne _ _ hnext.ne').trans (hsound.unused id hnext.le)

omit [DecidableEq α] in
/-- A handle changes, on the same node, and reads from where it did or from a newer place. -/
theorem Sound.setHandle (hsound : s.Sound gone) {id : Nat} {file : FileHandle α}
    (file' : FileHandle α) (hget : s.handles.get id = some file) (hnode : file'.node = file.node)
    (hinner : ∀ inner', file'.kind.inner = some inner' → ∃ inner, file.kind.inner = some inner ∧
      (inner' = inner ∨ s.Fits gone inner' ∧ gone file.node < inner'.version)) :
    (s.setHandle id file').Sound gone ∧ Kept gone s (s.setHandle id file') := by
  have hother : ∀ {other}, other ≠ id →
      (s.setHandle id file').handles.get other = s.handles.get other :=
    fun hne => Heap.get_set_of_ne _ _ hne
  have hself : (s.setHandle id file').handles.get id = some file' := Heap.get_set_self ..
  have hkept : Kept gone s (s.setHandle id file') := by
    refine ⟨fun _ => le_rfl, le_rfl, fun node hfile => ?_, fun other value hvalue => ?_⟩
    · obtain ⟨other, value, hregistry, hvalue, hnone⟩ := hfile
      by_cases hid : other = id
      · subst other
        obtain rfl : file = value := Option.some.inj (hget.symm.trans hvalue)
        refine ⟨id, file', hregistry, hself, ?_⟩
        by_contra hsome
        obtain ⟨inner', hinner'⟩ := Option.ne_none_iff_exists'.1 hsome
        obtain ⟨inner, hfile, -⟩ := hinner inner' hinner'
        rw [hnone] at hfile
        cases hfile
      · exact ⟨other, value, hregistry, (hother hid).trans hvalue, hnone⟩
    · by_cases hid : other = id
      · subst other
        obtain rfl : file = value := Option.some.inj (hget.symm.trans hvalue)
        refine ⟨file', hself, hnode, fun inner' hinner' => ?_⟩
        obtain ⟨inner, hfile, hnew⟩ := hinner inner' hinner'
        exact ⟨inner, hfile, hnew.imp_right And.right⟩
      · exact ⟨value, (hother hid).trans hvalue, rfl, fun inner hinner =>
          ⟨inner, hinner, Or.inl rfl⟩⟩
  refine ⟨hsound.of_kept hkept hsound.recorded_le (fun _ => Or.inl) (fun _ _ => Or.inl)
    (fun _ _ => Or.inl) (fun _ _ => Or.inl) (fun other value inner' hvalue hinner' => ?_)
    (fun other hnext => ?_), hkept⟩
  · by_cases hid : other = id
    · subst other
      obtain rfl : file' = value := Option.some.inj (hself.symm.trans hvalue)
      obtain ⟨inner, hfile, rfl | hnew⟩ := hinner inner' hinner'
      · exact Or.inl ⟨file, hget, hfile⟩
      · exact Or.inr (hkept.fits hnew.1)
    · exact Or.inl ⟨value, (hother hid).symm.trans hvalue, hinner'⟩
  · have hid : other ≠ id := by
      rintro rfl
      exact absurd (hsound.lt_next hget) (Nat.not_lt_of_le hnext)
    exact (hother hid).trans (hsound.unused other hnext)

/-- A record is made, of a node only if there is a file. -/
theorem Sound.sealAt (hsound : s.Sound gone) (location : Location α) (update effect : Bool)
    (hfile : ∀ host, location = .node host → host = node ∧ s.HasFile host) :
    (s.sealAt node location update effect).Sound gone ∧
      Kept gone s (s.sealAt node location update effect) := by
  have hle : ∀ host, s.recorded host ≤ s.versions := hsound.recorded_le
  have hgone : ∀ host, gone host < s.versions + 1 := fun host =>
    Nat.lt_succ_of_le ((hsound.gone_le host).trans (hle host))
  have hrecorded : ∀ host, (s.sealAt node location update effect).recorded host =
      s.recorded host ∨ (s.sealAt node location update effect).recorded host =
        s.versions + 1 := by
    intro host
    simp only [Nodes.sealAt]
    split_ifs
    · rw [Function.update_apply]
      split_ifs
      · exact Or.inr rfl
      · exact Or.inl rfl
    · exact Or.inl rfl
  have hkept : Kept gone s (s.sealAt node location update effect) :=
    Kept.of_same (fun host => (hrecorded host).elim Eq.ge fun hnew =>
      hnew ▸ (hle host).trans (Nat.le_succ _)) (Nat.le_succ _) rfl rfl
  have hfits : (s.sealAt node location update effect).Fits gone ⟨location, s.versions + 1⟩ := by
    refine ⟨Nat.succ_pos _, le_rfl, fun host hhost => ?_, fun host hhost =>
      Or.inr (hkept.file host (hfile host hhost).2)⟩
    obtain ⟨rfl, -⟩ := hfile host hhost
    have hlocation : location = .node host := hhost
    simp [Nodes.sealAt, hlocation]
  refine ⟨hsound.of_kept hkept (fun host => ?_) (fun record hsome => ?_)
    (fun host record hsome => ?_) (fun _ _ => Or.inl) (fun _ _ => Or.inl)
    (fun id file _ hget hinner => Or.inl ⟨file, hget, hinner⟩) hsound.unused, hkept⟩
  · rcases hrecorded host with hsame | hnew
    · exact hsame ▸ (hle host).trans (Nat.le_succ _)
    · exact hnew.le
  · simp only [Nodes.sealAt] at hsome
    split_ifs at hsome
    · cases hsome
      exact Or.inr ⟨hfits, hgone⟩
    · exact Or.inl hsome
  · simp only [Nodes.sealAt] at hsome
    split_ifs at hsome
    · rw [Function.update_apply] at hsome
      split_ifs at hsome
      · cases hsome
        exact Or.inr ⟨hfits, hgone host⟩
      · exact Or.inl hsome
    · exact Or.inl hsome

end Changes

/-- The calls that a change is no step of stay sound. -/
def Passes (gone gone' : Gone α) (s s' : Nodes α) : Prop :=
  ∀ frames, s.Stacked gone frames →
    (∀ frame ∈ frames, ∀ record, frame.phase.found = some record → s.Keeps frame.node record) →
      s'.Stacked gone' frames

theorem Kept.passes (hkept : Kept gone s s') : Passes gone gone s s' :=
  fun _ hframes _ => hkept.stacked hframes

section Removal

variable [DecidableEq α]

/-- Where there is no file nothing is gone. -/
theorem Sound.removeHandle (hsound : s.Sound gone) (hfile : ¬ s.HasFile node) :
    (s.setRegistry node none).Sound gone ∧ Kept gone s (s.setRegistry node none) := by
  have hkept : Kept gone s (s.setRegistry node none) := by
    refine ⟨fun _ => le_rfl, le_rfl, fun other hother => ?_, (Kept.refl gone s).handle⟩
    have hne : other ≠ node := fun hsame => hfile (hsame ▸ hother)
    obtain ⟨id, file, hid, hrest⟩ := hother
    exact ⟨id, file, (Function.update_of_ne hne ..).trans hid, hrest⟩
  refine ⟨hsound.of_kept hkept hsound.recorded_le (fun _ => Or.inl) (fun _ _ => Or.inl)
    (fun _ _ => Or.inl) (fun other id hid => Or.inl ?_) (fun id file _ hget hinner =>
      Or.inl ⟨file, hget, hinner⟩) hsound.unused, hkept⟩
  simp only [Nodes.setRegistry, Function.update_apply] at hid
  split_ifs at hid
  exact hid

/-- A file goes from a node that finds newer records only. -/
theorem Sound.removeFile (hsound : s.Sound gone) (houtdated : s.Outdated node) :
    (s.setRegistry node none).Sound (Function.update gone node (s.recorded node)) ∧
      Passes gone (Function.update gone node (s.recorded node)) s (s.setRegistry node none) := by
  have hle : ∀ host, gone host ≤ Function.update gone node (s.recorded node) host := by
    intro host
    rw [Function.update_apply]
    split_ifs with hhost
    · exact hhost ▸ hsound.gone_le host
    · exact le_rfl
  have hnewer : ∀ {version host}, gone host < version →
      (host = node → s.recorded node < version) →
        Function.update gone node (s.recorded node) host < version := by
    intro version host hbefore hnode
    rw [Function.update_apply]
    split_ifs with hhost
    · exact hnode hhost
    · exact hbefore
  have hfits : ∀ {record}, s.Fits gone record → (s.setRegistry node none).Fits
      (Function.update gone node (s.recorded node)) record := by
    intro record hrecord
    refine ⟨hrecord.pos, hrecord.le_versions, hrecord.le_recorded, fun host hhost => ?_⟩
    by_cases hnode : host = node
    · subst host
      rw [Function.update_self]
      exact Or.inl (hrecord.le_recorded node hhost)
    · refine (hrecord.file host hhost).imp (fun hgone => hgone.trans (hle host)) ?_
      rintro ⟨id, file, hid, hrest⟩
      exact ⟨id, file, (Function.update_of_ne hnode ..).trans hid, hrest⟩
  refine ⟨⟨fun host => ?_, hsound.recorded_le, fun record hsome => ?_,
    fun host record hsome => ?_, fun host record hmem => ?_, fun host id hid => ?_,
    fun id file inner hget hinner => hfits (hsound.handles id file inner hget hinner),
    hsound.unused⟩, fun frames hframes hkeeps => ⟨fun frame hframe => ?_, ?_⟩⟩
  · rw [Function.update_apply]
    split_ifs with hhost
    · exact hhost ▸ le_rfl
    · exact hsound.gone_le host
  · obtain ⟨hrecord, hgone⟩ := hsound.record record hsome
    exact ⟨hfits hrecord, fun host => hnewer (hgone host) fun _ => houtdated.1 record hsome⟩
  · obtain ⟨hrecord, hgone⟩ := hsound.cache host record hsome
    exact ⟨hfits hrecord, hnewer hgone fun hhost =>
      houtdated.2 record (hhost ▸ Or.inl hsome)⟩
  · obtain ⟨hrecord, hgone⟩ := hsound.asked host record hmem
    exact ⟨hfits hrecord, hnewer hgone fun hhost =>
      houtdated.2 record (hhost ▸ Or.inr (Or.inl hmem))⟩
  · simp only [Nodes.setRegistry, Function.update_apply] at hid
    split_ifs at hid with hhost
    obtain ⟨file, hget, hnode, hinner⟩ := hsound.registered host id hid
    exact ⟨file, hget, hnode, fun inner hsome => hnewer (hinner inner hsome) fun hsame =>
      absurd hsame hhost⟩
  · have hsoundFrame := hframes.sound frame hframe
    refine ⟨fun record hfound => ?_, fun record hrequest =>
      hfits (hsoundFrame.request record hrequest), hsoundFrame.handle⟩
    obtain ⟨hrecord, hgone⟩ := hsoundFrame.found record hfound
    exact ⟨hfits hrecord, hnewer hgone fun hhost =>
      houtdated.2 record (hhost ▸ hkeeps frame hframe record hfound)⟩
  · refine hframes.asks.imp fun asked asks hasks => ?_
    obtain ⟨record, hasks⟩ := hasks
    exact ⟨record, hasks.request, hasks.location, fun id file inner hid hget hinner =>
      (hasks.handle id file inner hid hget hinner).imp_left fun hgone =>
        hgone.trans (hle asked.node), hasks.rises⟩

/-- A handle goes from the registry. -/
theorem Sound.remove (hsound : s.Sound gone) (horderly : s.HasFile node → s.Outdated node) :
    ∃ gone' : Gone α, (s.setRegistry node none).Sound gone' ∧
      Passes gone gone' s (s.setRegistry node none) := by
  by_cases hfile : s.HasFile node
  · exact ⟨_, hsound.removeFile (horderly hfile)⟩
  · exact ⟨gone, (hsound.removeHandle hfile).imp_right Kept.passes⟩

end Removal

end Nodes

end Forwarding

end GEDS
