/-
How the handles of a node hang together: what one handle holds, that no handle is part of
itself, and what the changes of the registry and of single handles do to the files that the
monitoring loop comes to.
-/
import GEDS.StorageMonitor

namespace GEDS

open SharedParts
open LocalFile.Posix (InStep)

/-- How a handle may hold another one: a wrapper holds one with its own key, a cached handle
holds blocks, whose keys are longer. -/
def StorageHandle.Holds (handle inner : StorageHandle) : Prop :=
  match handle.kind with
  | .relocatable _ => inner.key.length = handle.key.length ∧ inner.kind.reopened = true
  | _ => handle.key.length < inner.key.length

/-- How far down a handle can be with keys of a bounded length. -/
def StorageHandle.rank (handle : StorageHandle) (longestKey : Nat) : Nat :=
  2 * (longestKey - handle.key.length) +
    match handle.kind with
    | .relocatable _ => 1
    | _ => 0

theorem StorageHandle.Holds.rank_lt {handle inner : StorageHandle} (h : handle.Holds inner)
    {longestKey : Nat} (hshort : inner.key.length ≤ longestKey) :
    inner.rank longestKey < handle.rank longestKey := by
  obtain ⟨bucket, key, kind⟩ := handle
  obtain ⟨bucket', key', kind'⟩ := inner
  dsimp only at hshort
  cases kind <;> cases kind' <;> simp_all [Holds, rank, StorageKind.reopened] <;> omega

/-- The kinds that take the place of each other. -/
def StorageKind.Replaces : StorageKind → StorageKind → Prop
  | .localFile _, .localFile _ => True
  | .relocatable _, .relocatable _ => True
  | .cached _, .cached _ => True
  | _, _ => False

namespace StorageNode

variable {node node' : StorageNode}

def rank (node : StorageNode) (id : Nat) : Nat :=
  match node.handles.find id with
  | none => 0
  | some handle => handle.rank node.longestKey

/-- The handles are nested: nothing is part of itself, and the registry names what there is. -/
structure Nested (node : StorageNode) : Prop where
  known : ∀ {id handle}, node.handles.find id = some handle →
    id < node.nextHandle ∧ handle.key.length ≤ node.longestKey
  parts : ∀ {id handle part}, node.handles.find id = some handle → part ∈ handle.parts →
    ∃ inner, node.handles.find part = some inner ∧ handle.Holds inner
  registered : ∀ {entry}, entry ∈ node.fileHandles.entries →
    ∃ handle, node.handles.find entry.2 = some handle

section Nested

theorem mem_parts {id part : Nat} (hpart : part ∈ node.parts id) :
    ∃ handle, node.handles.find id = some handle ∧ part ∈ handle.parts := by
  rw [parts] at hpart
  cases hfind : node.handles.find id with
  | none => simp [hfind] at hpart
  | some handle =>
      rw [hfind] at hpart
      exact ⟨handle, rfl, hpart⟩

theorem Nested.ranked (h : node.Nested) : Ranked node.parts node.rank := by
  intro id part hpart
  obtain ⟨handle, hfind, hpart⟩ := mem_parts hpart
  obtain ⟨inner, hinner, hholds⟩ := h.parts hfind hpart
  simp only [rank, hfind, hinner]
  exact hholds.rank_lt (h.known hinner).2

theorem rank_lt_depth (id : Nat) : node.rank id < node.depth := by
  rw [rank, depth]
  cases node.handles.find id with
  | none => exact Nat.succ_pos _
  | some handle =>
      obtain ⟨bucket, key, kind⟩ := handle
      cases kind <;> simp only [StorageHandle.rank] <;> omega

theorem Nested.bytesBehind_of_le (h : node.Nested) {depth : Nat} (hdepth : node.depth ≤ depth)
    (id : Nat) : node.bytesBehind depth id = node.bytesBehind node.depth id := by
  rw [bytesBehind, walk_of_le h.ranked (rank_lt_depth id) hdepth]
  rfl

theorem Nested.finishes (h : node.Nested) : node.Finishes := by
  intro depth id hdepth
  rw [localStorageSize_eq, localStorageSize_eq, h.bytesBehind_of_le hdepth]

/-- Behind a part there are no more bytes than behind the whole. -/
theorem Nested.bytesBehind_part_le (h : node.Nested) {id part : Nat}
    (hpart : part ∈ node.parts id) :
    node.bytesBehind node.depth part ≤ node.bytesBehind node.depth id := by
  rw [← h.bytesBehind_of_le (Nat.le_succ node.depth) id, bytesBehind_succ]
  exact (List.le_sum_of_mem (List.mem_map_of_mem hpart)).trans (Nat.le_add_left _ _)

theorem Nested.reached_eq (h : node.Nested) {depth : Nat} (hdepth : node.depth ≤ depth) :
    node.reached = node.fileHandles.entries.flatMap fun entry =>
      walk node.parts depth entry.2 := by
  rw [reached]
  congr 1
  funext entry
  exact (walk_of_le h.ranked (rank_lt_depth entry.2) hdepth).symm

/-- Everything that is met from a handle is a handle. -/
theorem Nested.find_of_mem_walk (h : node.Nested) {depth id met : Nat} {handle : StorageHandle}
    (hfind : node.handles.find id = some handle) (hmet : met ∈ walk node.parts depth id) :
    ∃ handle, node.handles.find met = some handle := by
  have hparts : ∀ whole part, part ∈ node.parts whole →
      (∃ handle, node.handles.find whole = some handle) →
        ∃ handle, node.handles.find part = some handle := by
    intro whole part hpart _
    obtain ⟨handle, hwhole, hpart⟩ := mem_parts hpart
    obtain ⟨inner, hinner, -⟩ := h.parts hwhole hpart
    exact ⟨inner, hinner⟩
  exact forall_mem_walk hparts ⟨handle, hfind⟩ met hmet

/-- No local file with bytes is behind the handle. -/
def Empty (node : StorageNode) (id : Nat) : Prop :=
  ∀ depth, ∀ met ∈ walk node.parts depth id, node.fileSize met = 0

theorem Nested.empty_of_bytes (h : node.Nested) {id : Nat}
    (hbytes : node.bytesBehind node.depth id = 0) : node.Empty id := by
  rw [bytesBehind, List.sum_eq_zero_iff] at hbytes
  intro depth met hmet
  apply hbytes
  apply List.mem_map_of_mem
  rcases Nat.le_total depth node.depth with hle | hle
  · exact (walk_sublist_of_le hle).subset hmet
  · rwa [walk_of_le h.ranked (rank_lt_depth id) hle] at hmet

/-- A size of zero says that there are no bytes, unless it has wrapped. -/
theorem Nested.empty_of_size (h : node.Nested) {id : Nat}
    (hsmall : node.bytesBehind node.depth id < 2 ^ 64)
    (hsize : node.localStorageSize node.depth id = 0) : node.Empty id := by
  apply h.empty_of_bytes
  rw [localStorageSize_eq] at hsize
  rw [← UInt64.toNat_ofNat_of_lt' hsmall, hsize, UInt64.toNat_zero]

theorem empty_of_parts {id : Nat} (hsize : node.fileSize id = 0)
    (hparts : ∀ part ∈ node.parts id, node.Empty part) : node.Empty id := by
  intro depth met hmet
  cases depth with
  | zero => cases hmet
  | succ depth =>
      rcases List.mem_cons.1 hmet with rfl | hmet
      · exact hsize
      · obtain ⟨part, hpart, hmet⟩ := List.mem_flatMap.1 hmet
        exact hparts part hpart depth met hmet

end Nested

/-- The local files of the handles are apart: no two handles share one, and each handle knows
how long its own is. -/
structure Apart (node : StorageNode) : Prop where
  inStep : ∀ {id file}, node.localFile id = some file → InStep file node.files
  alone : ∀ {id id' file file'}, node.localFile id = some file →
    node.localFile id' = some file' → file.inode = file'.inode → id = id'
  used : ∀ {id file}, node.localFile id = some file → file.inode < node.files.inodes.next

/-- Handles that keep their files, whose bytes stay. -/
theorem Apart.of_fewer (h : node.Apart)
    (hfewer : ∀ {id file}, node'.localFile id = some file → node.localFile id = some file)
    (hcontent : ∀ {id file}, node.localFile id = some file →
      node'.files.content file.inode = node.files.content file.inode)
    (hnext : node.files.inodes.next ≤ node'.files.inodes.next) : node'.Apart := by
  refine ⟨fun hfile => ?_, fun hfile hfile' => h.alone (hfewer hfile) (hfewer hfile'),
    fun hfile => (h.used (hfewer hfile)).trans_le hnext⟩
  obtain ⟨hsize, hbounded⟩ := h.inStep (hfewer hfile)
  have hsame := hcontent (hfewer hfile)
  exact ⟨hsame ▸ hsize, hsame ▸ hbounded⟩

/-- The state of a run.  If the files are to be counted they are apart, and those with bytes
are reached in one way at most. -/
structure Sound (counted : Prop) (node : StorageNode) : Prop extends Nested node where
  once : counted → ∀ id, node.fileSize id ≠ 0 → node.reached.count id ≤ 1
  apart : counted → node.Apart

variable {counted : Prop}

/-- Files with bytes had bytes before and are not reached more often. -/
theorem Sound.of_le (h : node.Sound counted) (hnested : node'.Nested)
    (hapart : node.Apart → node'.Apart) (hle : counted → ∀ id, node'.fileSize id ≠ 0 →
      node.fileSize id ≠ 0 ∧ node'.reached.count id ≤ node.reached.count id) :
    node'.Sound counted := by
  refine ⟨hnested, fun hcounted id hsize => ?_, fun hcounted => hapart (h.apart hcounted)⟩
  obtain ⟨hsize, hcount⟩ := hle hcounted id hsize
  exact hcount.trans (h.once hcounted id hsize)

section Registry

theorem Sound.unregister (h : node.Sound counted) {fileHandles : ConcurrentMap Bytes Nat}
    (hfewer : fileHandles.entries.Sublist node.fileHandles.entries) :
    { node with fileHandles := fileHandles }.Sound counted := by
  refine h.of_le ⟨h.known, h.parts, fun hentry => h.registered (hfewer.subset hentry)⟩
    (fun hapart => ⟨hapart.inStep, hapart.alone, hapart.used⟩) fun _ id hsize => ?_
  exact ⟨hsize, (hfewer.flatMap fun entry => walk node.parts node.depth entry.2).count_le id⟩

theorem insertEntry_eq {κ ν : Type} [LinearOrder κ] (key : κ) (value : ν)
    (entries : List (κ × ν)) :
    ∃ front back, insertEntry key value entries = front ++ (key, value) :: back ∧
      (front ++ back).Sublist entries := by
  induction entries with
  | nil => exact ⟨[], [], rfl, List.Sublist.refl _⟩
  | cons entry rest ih =>
      rw [insertEntry]
      split_ifs
      · exact ⟨[], entry :: rest, rfl, List.Sublist.refl _⟩
      · exact ⟨[], rest, rfl, List.sublist_cons_self entry rest⟩
      · obtain ⟨front, back, heq, hsub⟩ := ih
        refine ⟨entry :: front, back, ?_, hsub.cons_cons entry⟩
        rw [heq, List.cons_append]

/-- A handle with no bytes behind it may be registered. -/
theorem Sound.register (h : node.Sound counted) {path : Bytes} {id : Nat} {handle : StorageHandle}
    (hfind : node.handles.find id = some handle) (hempty : counted → node.Empty id) :
    { node with fileHandles := node.fileHandles.insertOrReplace path id }.Sound counted := by
  obtain ⟨front, back, heq, hsub⟩ := insertEntry_eq path id node.fileHandles.entries
  have hentries : (node.fileHandles.insertOrReplace path id).entries =
      front ++ (path, id) :: back := heq
  refine h.of_le ⟨h.known, h.parts, fun {entry} hentry => ?_⟩
    (fun hapart => ⟨hapart.inStep, hapart.alone, hapart.used⟩) fun hcounted met hsize => ?_
  · rw [hentries, List.mem_append, List.mem_cons] at hentry
    rcases hentry with hfront | rfl | hback
    · exact h.registered (hsub.subset (List.mem_append_left _ hfront))
    · exact ⟨handle, hfind⟩
    · exact h.registered (hsub.subset (List.mem_append_right _ hback))
  · have hnone : (walk node.parts node.depth id).count met = 0 :=
      List.count_eq_zero.2 fun hmet => hsize (hempty hcounted node.depth met hmet)
    have hrest := (hsub.flatMap fun entry => walk node.parts node.depth entry.2).count_le met
    refine ⟨hsize, ?_⟩
    change ((node.fileHandles.insertOrReplace path id).entries.flatMap fun entry =>
      walk node.parts node.depth entry.2).count met ≤ _
    rw [List.flatMap_append, List.count_append] at hrest
    rw [hentries, List.flatMap_append, List.flatMap_cons, List.count_append, List.count_append,
      hnone, Nat.zero_add]
    exact hrest

theorem Sound.registerNew (h : node.Sound counted) {path : Bytes} {id : Nat} {handle : StorageHandle}
    (hfind : node.handles.find id = some handle) (hempty : counted → node.Empty id) :
    { node with fileHandles := (node.fileHandles.insertOrExists path id).2 }.Sound counted := by
  rw [ConcurrentMap.insertOrExists]
  cases node.fileHandles.find path with
  | none => exact h.register hfind hempty
  | some existing => exact h

theorem remove_sublist (map : ConcurrentMap Bytes Nat) (path : Bytes) :
    (map.remove path).2.entries.Sublist map.entries := by
  rw [ConcurrentMap.remove]
  cases map.find path with
  | none => exact List.Sublist.refl _
  | some id => exact List.filter_sublist

theorem removeIf_sublist (map : ConcurrentMap Bytes Nat) (path : Bytes)
    (selector : Nat → Bool) : (map.removeIf path selector).2.entries.Sublist map.entries := by
  rw [ConcurrentMap.removeIf]
  cases map.find path with
  | none => exact List.Sublist.refl _
  | some id =>
      dsimp only
      split_ifs
      · exact List.filter_sublist
      · exact List.Sublist.refl _

theorem removeRange_sublist (map : ConcurrentMap Bytes Nat) (probe : OrderedMap.Probe Bytes) :
    (map.removeRange probe).entries.Sublist map.entries := by
  rw [ConcurrentMap.removeRange]
  split_ifs
  · conv_rhs => rw [← List.take_append_drop (map.equalRange probe).1 map.entries]
    exact (List.Sublist.refl _).append
      (List.drop_sublist_drop_left map.entries (map.equalRange_le probe))
  · exact List.Sublist.refl _

end Registry

section Destroy

theorem not_held_iff {id : Nat} : node.held id = false ↔
    (∀ entry ∈ node.fileHandles.entries, entry.2 ≠ id) ∧
      ∀ other handle, node.handles.find other = some handle → id ∉ handle.parts := by
  simp only [held, Bool.or_eq_false_iff, List.any_eq_false, decide_eq_true_eq,
    AssocMap.find_eq_some_iff, Prod.forall]
  constructor
  · rintro ⟨hentries, hparts⟩
    exact ⟨hentries, fun other handle hmem hpart => hparts other handle hmem
      (List.any_eq_true.2 ⟨id, hpart, decide_eq_true rfl⟩)⟩
  · rintro ⟨hentries, hparts⟩
    refine ⟨hentries, fun other handle hmem hany => ?_⟩
    obtain ⟨part, hpart, hsame⟩ := List.any_eq_true.1 hany
    exact hparts other handle hmem (of_decide_eq_true hsame ▸ hpart)

/-- Without a handle that nobody holds everything else stays as it was. -/
theorem Sound.erase (h : node.Sound counted) {id : Nat} (hheld : node.held id = false)
    {files : FileSystem Bytes} (hcontent : ∀ inode, files.content inode = node.files.content inode)
    (hnext : files.inodes.next = node.files.inodes.next) :
    { node with handles := node.handles.erase id, files := files }.Sound counted := by
  obtain ⟨hentries, hparts⟩ := not_held_iff.1 hheld
  have hfewer : ∀ {other handle}, (node.handles.erase id).find other = some handle →
      other ≠ id ∧ node.handles.find other = some handle := by
    intro other handle hfind
    rw [AssocMap.find_erase] at hfind
    split_ifs at hfind with hother
    exact ⟨hother, hfind⟩
  have hkept : ∀ {other handle}, node.handles.find other = some handle → other ≠ id →
      (node.handles.erase id).find other = some handle := by
    intro other handle hfind hother
    rw [AssocMap.find_erase, if_neg hother, hfind]
  have hlocal : ∀ {other file},
      { node with handles := node.handles.erase id, files := files }.localFile other = some file →
        node.localFile other = some file := by
    intro other file hfile
    obtain ⟨handle, hfind, hhandle⟩ := Option.bind_eq_some_iff.1 hfile
    exact Option.bind_eq_some_iff.2 ⟨handle, (hfewer hfind).2, hhandle⟩
  have hreached : { node with handles := node.handles.erase id, files := files }.reached =
      node.reached := by
    apply List.flatMap_congr
    intro entry hentry
    apply walk_congr
    intro met hmet
    have hne : met ≠ id := by
      have hfree : ∀ whole part, part ∈ node.parts whole → whole ≠ id → part ≠ id := by
        rintro whole part hpart - rfl
        obtain ⟨handle, hfind, hpart⟩ := mem_parts hpart
        exact hparts whole handle hfind hpart
      exact forall_mem_walk hfree (hentries entry hentry) met hmet
    simp only [StorageNode.parts, AssocMap.find_erase, if_neg hne]
  refine h.of_le ⟨fun hfind => h.known (hfewer hfind).2, fun hfind hpart => ?_,
    fun hentry => ?_⟩ (fun hapart => ?_) fun _ other hother => ?_
  · obtain ⟨inner, hinner, hholds⟩ := h.parts (hfewer hfind).2 hpart
    refine ⟨inner, hkept hinner ?_, hholds⟩
    rintro rfl
    exact hparts _ _ (hfewer hfind).2 hpart
  · obtain ⟨handle, hfind⟩ := h.registered hentry
    exact ⟨handle, hkept hfind (hentries _ hentry)⟩
  · exact hapart.of_fewer hlocal (fun _ => hcontent _) hnext.ge
  · rw [fileSize] at hother
    split at hother
    · exact absurd rfl hother
    next file hfile =>
      refine ⟨?_, (congrArg (List.count other) hreached).le⟩
      rw [fileSize, hlocal hfile]
      exact hother

theorem Sound.destroy (h : node.Sound counted) (id : Nat) : (node.destroy id).Sound counted := by
  rw [StorageNode.destroy]
  cases node.handles.find id with
  | none => exact h
  | some handle =>
      dsimp only
      split_ifs with hheld
      · exact h
      · apply h.erase (Bool.not_eq_true _ ▸ hheld)
        · intro inode
          cases handle.file <;> rfl
        · cases handle.file <;> rfl

theorem Sound.registerHandle (h : node.Sound counted) {path : Bytes} {id : Nat}
    {handle : StorageHandle} (hfind : node.handles.find id = some handle)
    (hempty : counted → node.Empty id) (overwrite : Bool) :
    (node.registerHandle path id overwrite).Sound counted := by
  rw [StorageNode.registerHandle]
  have hregistered : { node with
      fileHandles := (node.fileHandles.insertOrExists path id).2 }.Sound counted :=
    h.registerNew hfind hempty
  cases overwrite with
  | true => exact h.register hfind hempty
  | false =>
      dsimp only
      rw [if_neg Bool.false_ne_true]
      split_ifs
      · exact hregistered.destroy id
      · exact hregistered

end Destroy

section AddHandle

variable {handle : StorageHandle}

theorem parts_addHandle (id : Nat) : (node.addHandle handle).2.parts id =
    if id = node.nextHandle then handle.parts else node.parts id := by
  simp only [parts, addHandle, AssocMap.find_insert]
  split_ifs <;> rfl

theorem localFile_addHandle (id : Nat) : (node.addHandle handle).2.localFile id =
    if id = node.nextHandle then handle.file else node.localFile id := by
  simp only [localFile, addHandle, AssocMap.find_insert]
  split_ifs <;> rfl

theorem fileSize_addHandle_of_ne {id : Nat} (hne : id ≠ node.nextHandle) :
    (node.addHandle handle).2.fileSize id = node.fileSize id := by
  rw [fileSize, localFile_addHandle, if_neg hne]
  rfl

theorem Nested.ne_next (h : node.Nested) {id : Nat} {found : StorageHandle}
    (hfind : node.handles.find id = some found) : id ≠ node.nextHandle :=
  Nat.ne_of_lt (h.known hfind).1

theorem Nested.find_addHandle (h : node.Nested) {id : Nat} {found : StorageHandle}
    (hfind : node.handles.find id = some found) :
    (node.addHandle handle).2.handles.find id = some found := by
  rw [← hfind]
  exact AssocMap.find_insert_of_ne _ (h.ne_next hfind) _

theorem find_addHandle_next :
    (node.addHandle handle).2.handles.find node.nextHandle = some handle :=
  AssocMap.find_insert_self _ _ _

theorem Nested.addHandle (h : node.Nested) (hparts : ∀ part ∈ handle.parts,
    ∃ inner, node.handles.find part = some inner ∧ handle.Holds inner) :
    (node.addHandle handle).2.Nested := by
  have hcases : ∀ {id found}, (node.addHandle handle).2.handles.find id = some found →
      id = node.nextHandle ∧ found = handle ∨ node.handles.find id = some found := by
    intro id found hfind
    simp only [StorageNode.addHandle, AssocMap.find_insert] at hfind
    split_ifs at hfind with hid
    · exact Or.inl ⟨hid, (Option.some.inj hfind).symm⟩
    · exact Or.inr hfind
  refine ⟨fun hfind => ?_, fun {id found part} hfind hpart => ?_, fun hentry => ?_⟩
  · rcases hcases hfind with ⟨rfl, rfl⟩ | hold
    · exact ⟨Nat.lt_succ_self _, Nat.le_max_right _ _⟩
    · obtain ⟨hid, hkey⟩ := h.known hold
      exact ⟨Nat.lt_succ_of_lt hid, hkey.trans (Nat.le_max_left _ _)⟩
  · have hinner : ∃ inner, node.handles.find part = some inner ∧ found.Holds inner := by
      rcases hcases hfind with ⟨-, rfl⟩ | hold
      · exact hparts part hpart
      · exact h.parts hold hpart
    obtain ⟨inner, hinner, hholds⟩ := hinner
    exact ⟨inner, h.find_addHandle hinner, hholds⟩
  · obtain ⟨found, hfind⟩ := h.registered hentry
    exact ⟨found, h.find_addHandle hfind⟩

/-- A new handle is part of nothing that there was. -/
theorem Nested.walk_addHandle (h : node.Nested) {depth id : Nat} {found : StorageHandle}
    (hfind : node.handles.find id = some found) :
    walk (node.addHandle handle).2.parts depth id = walk node.parts depth id := by
  apply walk_congr
  intro met hmet
  obtain ⟨other, hother⟩ := h.find_of_mem_walk hfind hmet
  rw [parts_addHandle, if_neg (h.ne_next hother)]

theorem Nested.reached_addHandle (h : node.Nested) :
    (node.addHandle handle).2.reached = node.reached := by
  have hdepth : node.depth ≤ (node.addHandle handle).2.depth := by
    simp only [depth, StorageNode.addHandle]
    omega
  rw [h.reached_eq hdepth, reached]
  apply List.flatMap_congr
  intro entry hentry
  obtain ⟨found, hfind⟩ := h.registered hentry
  exact h.walk_addHandle hfind

theorem Nested.empty_addHandle (h : node.Nested) {id : Nat} {found : StorageHandle}
    (hfind : node.handles.find id = some found) (hempty : node.Empty id) :
    (node.addHandle handle).2.Empty id := by
  intro depth met hmet
  rw [h.walk_addHandle hfind] at hmet
  obtain ⟨other, hother⟩ := h.find_of_mem_walk hfind hmet
  rw [fileSize_addHandle_of_ne (h.ne_next hother)]
  exact hempty depth met hmet

/-- A handle with no file, or an empty one, may be made. -/
theorem Sound.addHandle (h : node.Sound counted) (hparts : ∀ part ∈ handle.parts,
    ∃ inner, node.handles.find part = some inner ∧ handle.Holds inner)
    (hsize : (node.addHandle handle).2.fileSize node.nextHandle = 0)
    (hapart : counted → (node.addHandle handle).2.Apart) :
    (node.addHandle handle).2.Sound counted := by
  refine ⟨h.toNested.addHandle hparts, fun hcounted id hid => ?_, hapart⟩
  by_cases hnew : id = node.nextHandle
  · rw [hnew] at hid
    exact absurd hsize hid
  · rw [fileSize_addHandle_of_ne hnew] at hid
    rw [h.toNested.reached_addHandle]
    exact h.once hcounted id hid

theorem fileSize_addHandle_next (hfile : handle.file = none) :
    (node.addHandle handle).2.fileSize node.nextHandle = 0 := by
  rw [fileSize, localFile_addHandle, if_pos rfl, hfile]

theorem Apart.addHandle (h : node.Apart) (hfile : handle.file = none) :
    (node.addHandle handle).2.Apart := by
  refine h.of_fewer (fun {id file} hlocal => ?_) (fun _ => rfl) (Nat.le_refl _)
  rw [localFile_addHandle] at hlocal
  split_ifs at hlocal
  · rw [hfile] at hlocal
    cases hlocal
  · exact hlocal

/-- A handle without a file of its own may be made. -/
theorem Sound.addOther (h : node.Sound counted) (hparts : ∀ part ∈ handle.parts,
    ∃ inner, node.handles.find part = some inner ∧ handle.Holds inner)
    (hfile : handle.file = none) : (node.addHandle handle).2.Sound counted :=
  h.addHandle hparts (fileSize_addHandle_next hfile)
    fun hcounted => (h.apart hcounted).addHandle hfile

/-- A handle that was just made, without parts and without bytes. -/
theorem empty_addHandle_next (hsize : (node.addHandle handle).2.fileSize node.nextHandle = 0)
    (hparts : handle.parts = []) : (node.addHandle handle).2.Empty node.nextHandle := by
  apply empty_of_parts hsize
  intro part hpart
  rw [parts_addHandle, if_pos rfl, hparts] at hpart
  cases hpart

end AddHandle

section SetKind

variable {id : Nat} {handle : StorageHandle} {kind : StorageKind}

theorem setKind_of_find (hfind : node.handles.find id = some handle) :
    node.setKind id kind =
      { node with handles := node.handles.insert id { handle with kind := kind } } := by
  rw [setKind, hfind]

theorem parts_setKind (hfind : node.handles.find id = some handle) (other : Nat) :
    (node.setKind id kind).parts other =
      if other = id then ({ handle with kind := kind } : StorageHandle).parts
      else node.parts other := by
  rw [setKind_of_find hfind]
  simp only [parts, AssocMap.find_insert]
  split_ifs <;> rfl

theorem localFile_setKind (hfind : node.handles.find id = some handle) (other : Nat) :
    (node.setKind id kind).localFile other =
      if other = id then ({ handle with kind := kind } : StorageHandle).file
      else node.localFile other := by
  rw [setKind_of_find hfind]
  simp only [localFile, AssocMap.find_insert]
  split_ifs <;> rfl

theorem files_setKind : (node.setKind id kind).files = node.files := by
  rw [setKind]
  split <;> rfl

/-- A handle without a file stays without one. -/
theorem localFile_setKind_other (hfind : node.handles.find id = some handle)
    (hreplaces : StorageKind.Replaces kind handle.kind)
    (hfile : ({ handle with kind := kind } : StorageHandle).file = none) (other : Nat) :
    (node.setKind id kind).localFile other = node.localFile other := by
  rw [localFile_setKind hfind]
  split_ifs with hother
  · rw [hother, localFile, hfind, Option.bind_some, hfile]
    obtain ⟨bucket, key, kind'⟩ := handle
    cases kind with
    | localFile file => exact absurd hfile (Option.some_ne_none file)
    | remote => cases kind' <;> exact hreplaces.elim
    | relocatable fileHandle => cases kind' <;> first | rfl | exact hreplaces.elim
    | cached blocks => cases kind' <;> first | rfl | exact hreplaces.elim
  · rfl

theorem fileSize_setKind_other (hfind : node.handles.find id = some handle)
    (hreplaces : StorageKind.Replaces kind handle.kind)
    (hfile : ({ handle with kind := kind } : StorageHandle).file = none) (other : Nat) :
    (node.setKind id kind).fileSize other = node.fileSize other := by
  rw [fileSize, localFile_setKind_other hfind hreplaces hfile]
  rfl

theorem Apart.setKind (h : node.Apart) (hfind : node.handles.find id = some handle)
    (hreplaces : StorageKind.Replaces kind handle.kind)
    (hfile : ({ handle with kind := kind } : StorageHandle).file = none) :
    (node.setKind id kind).Apart := by
  refine h.of_fewer (fun {other file} hlocal => ?_) (fun _ => ?_) ?_
  · rwa [localFile_setKind_other hfind hreplaces hfile] at hlocal
  · rw [files_setKind]
  · rw [files_setKind]

theorem Nested.setKind (h : node.Nested) (hfind : node.handles.find id = some handle)
    (hreplaces : StorageKind.Replaces kind handle.kind)
    (hparts : ∀ part ∈ ({ handle with kind := kind } : StorageHandle).parts,
      ∃ inner, node.handles.find part = some inner ∧
        ({ handle with kind := kind } : StorageHandle).Holds inner) :
    (node.setKind id kind).Nested := by
  rw [setKind_of_find hfind]
  have hcases : ∀ {other found},
      (node.handles.insert id { handle with kind := kind }).find other = some found →
      other = id ∧ found = { handle with kind := kind } ∨
        node.handles.find other = some found := by
    intro other found hother
    rw [AssocMap.find_insert] at hother
    split_ifs at hother with hid
    · exact Or.inl ⟨hid, (Option.some.inj hother).symm⟩
    · exact Or.inr hother
  have hreopened : kind.reopened = handle.kind.reopened := by
    cases kind <;> cases hkind : handle.kind <;>
      simp_all [StorageKind.Replaces, StorageKind.reopened]
  -- what holds the handle still does: its key and what it is for stay
  have hkept : ∀ {part inner} {outer : StorageHandle}, node.handles.find part = some inner →
      outer.Holds inner → ∃ inner',
        (node.handles.insert id { handle with kind := kind }).find part = some inner' ∧
          outer.Holds inner' := by
    intro part inner outer hinner hholds
    rw [AssocMap.find_insert]
    split_ifs with hpart
    · rw [hpart, hfind] at hinner
      obtain rfl := Option.some.inj hinner
      refine ⟨_, rfl, ?_⟩
      obtain ⟨bucket, key, outerKind⟩ := outer
      cases outerKind with
      | relocatable fileHandle => exact ⟨hholds.1, hreopened.trans hholds.2⟩
      | localFile size => exact hholds
      | remote => exact hholds
      | cached blocks => exact hholds
    · exact ⟨inner, hinner, hholds⟩
  refine ⟨fun hother => ?_, fun {other found part} hother hpart => ?_, fun hentry => ?_⟩
  · rcases hcases hother with ⟨rfl, rfl⟩ | hold
    · obtain ⟨hid, hkey⟩ := h.known hfind
      exact ⟨hid, hkey⟩
    · exact h.known hold
  · rcases hcases hother with ⟨-, rfl⟩ | hold
    · obtain ⟨inner, hinner, hholds⟩ := hparts part hpart
      exact hkept hinner hholds
    · obtain ⟨inner, hinner, hholds⟩ := h.parts hold hpart
      exact hkept hinner hholds
  · obtain ⟨found, hfound⟩ := h.registered hentry
    change ∃ handle', (node.handles.insert id { handle with kind := kind }).find _ = some handle'
    rw [AssocMap.find_insert]
    split_ifs
    · exact ⟨_, rfl⟩
    · exact ⟨found, hfound⟩

theorem reached_setKind (hfind : node.handles.find id = some handle) :
    (node.setKind id kind).reached = node.fileHandles.entries.flatMap fun entry =>
      walk (node.setKind id kind).parts node.depth entry.2 := by
  rw [reached, setKind_of_find hfind]
  rfl

/-- A handle is not behind its own parts, so what is behind them stays when it changes. -/
theorem walk_part_setKind (hnested : (node.setKind id kind).Nested)
    (hfind : node.handles.find id = some handle) {part : Nat}
    (hpart : part ∈ (node.setKind id kind).parts id) (depth : Nat) :
    walk (node.setKind id kind).parts depth part = walk node.parts depth part := by
  symm
  apply walk_congr
  intro met hmet
  have hle := rank_le_of_mem_walk hnested.ranked hmet
  have hlt := hnested.ranked id part hpart
  rw [parts_setKind hfind, if_neg]
  rintro rfl
  omega

/-- A handle loses parts, or keeps them. -/
theorem Sound.setKind_of_sublist (h : node.Sound counted)
    (hfind : node.handles.find id = some handle)
    (hreplaces : StorageKind.Replaces kind handle.kind)
    (hfile : ({ handle with kind := kind } : StorageHandle).file = none)
    (hfewer : ({ handle with kind := kind } : StorageHandle).parts.Sublist handle.parts)
    (hholds : ∀ inner, handle.Holds inner →
      ({ handle with kind := kind } : StorageHandle).Holds inner) :
    (node.setKind id kind).Sound counted := by
  refine h.of_le (h.toNested.setKind hfind hreplaces fun part hpart => ?_)
    (fun hapart => hapart.setKind hfind hreplaces hfile) fun _ other hother => ?_
  · obtain ⟨inner, hinner, hold⟩ := h.parts hfind (hfewer.subset hpart)
    exact ⟨inner, hinner, hholds inner hold⟩
  · have hparts : ∀ other, ((node.setKind id kind).parts other).Sublist (node.parts other) := by
      intro other
      rw [parts_setKind hfind]
      split_ifs with hother
      · rw [hother, parts, hfind]
        exact hfewer
      · exact List.Sublist.refl _
    rw [fileSize_setKind_other hfind hreplaces hfile] at hother
    rw [reached_setKind hfind]
    exact ⟨hother, (List.Sublist.flatMap_right _ fun entry _ => walk_sublist hparts).count_le other⟩

/-- How often a file is met from a handle. -/
theorem Nested.count_walk_le (h : node.Nested) (depth id met : Nat) :
    (walk node.parts depth id).count met ≤ (walk node.parts node.depth id).count met := by
  rcases Nat.le_total depth node.depth with hle | hle
  · exact (walk_sublist_of_le hle).count_le met
  · rw [walk_of_le h.ranked (rank_lt_depth id) hle]

/-- A handle gets a part, through which no file with bytes is reached that was reached
before. -/
theorem Sound.setKind_of_added (h : node.Sound counted)
    (hfind : node.handles.find id = some handle)
    (hreplaces : StorageKind.Replaces kind handle.kind) {front back : List Nat} {added : Nat}
    (hparts : ({ handle with kind := kind } : StorageHandle).parts = front ++ added :: back)
    (hkept : (front ++ back).Sublist handle.parts)
    (hholds : ∀ inner, handle.Holds inner →
      ({ handle with kind := kind } : StorageHandle).Holds inner)
    {inner : StorageHandle} (hadded : node.handles.find added = some inner)
    (hinner : ({ handle with kind := kind } : StorageHandle).Holds inner)
    (hfile : ({ handle with kind := kind } : StorageHandle).file = none)
    (honce : counted → ∀ met, node.fileSize met ≠ 0 → node.reached.count met +
      node.reached.count id * (walk node.parts node.depth added).count met ≤ 1) :
    (node.setKind id kind).Sound counted := by
  have hnested : (node.setKind id kind).Nested := by
    apply h.toNested.setKind hfind hreplaces
    intro part hpart
    rw [hparts, List.mem_append, List.mem_cons] at hpart
    rcases hpart with hfront | rfl | hback
    · obtain ⟨inner, hpart, hold⟩ := h.parts hfind (hkept.subset (List.mem_append_left _ hfront))
      exact ⟨inner, hpart, hholds inner hold⟩
    · exact ⟨inner, hadded, hinner⟩
    · obtain ⟨inner, hpart, hold⟩ := h.parts hfind (hkept.subset (List.mem_append_right _ hback))
      exact ⟨inner, hpart, hholds inner hold⟩
  have howner : (node.setKind id kind).parts id = front ++ added :: back := by
    rw [parts_setKind hfind, if_pos rfl, hparts]
  have hothers : ∀ other, other ≠ id → (node.setKind id kind).parts other = node.parts other := by
    intro other hother
    rw [parts_setKind hfind, if_neg hother]
  refine ⟨hnested, fun hcounted met hmet => ?_,
    fun hcounted => (h.apart hcounted).setKind hfind hreplaces hfile⟩
  rw [fileSize_setKind_other hfind hreplaces hfile] at hmet
  refine le_trans ?_ (honce hcounted met hmet)
  rw [reached_setKind hfind, reached]
  apply count_flatMap_le
  intro entry _
  apply count_walk_le_of_added hothers howner
  · rw [parts, hfind]
    exact hkept
  · intro depth
    rw [walk_part_setKind hnested hfind (by simp [howner])]
    exact h.toNested.count_walk_le depth added met

end SetKind

end StorageNode

end GEDS
