/-
`renamePrefix` loses nothing where no rename that it comes to destroys what is under a new
name.  Which renames it comes to, and what each of them finds, is read off the state before
the call, the keys and the answers.
-/
import GEDS.RenameEffects
import GEDS.RenamePrefix

namespace GEDS

open Status

namespace Cluster

section Condition

variable (c : Cluster) (bucket srcKey destKey : Bytes)

/-- The names of the files when the targets of some keys were made. -/
def namesAfter (earlier : List Bytes) : FileNames :=
  c.node.names.run (earlier.map fun key => ⟨bucket, newKey srcKey destKey key⟩)

/-- The path of the file that the target of a key gets after those of earlier keys. -/
def targetPath (earlier : List Bytes) (key : Bytes) : Bytes :=
  ((c.namesAfter bucket srcKey destKey earlier).getLocalPath
    ⟨bucket, newKey srcKey destKey key⟩).1

/-- The target of one of the keys has the path. -/
def MadePath (keys : List Bytes) (path : Bytes) : Prop :=
  ∃ earlier key, earlier ++ [key] <+: keys ∧ c.targetPath bucket srcKey destKey earlier key = path

/-- The rename of a key gets as far as the file of its target. -/
structure GetsToFile (key : Bytes) (create : CreateAnswers) : Prop where
  named : (isValid bucket (newKey srcKey destKey key)).ok = true
  folder : create.mkdirFault = none
  opened : ∀ reason, create.openFile ≠ .openFailed reason

/-- After the renames of earlier keys, that of a key finds its target free, and all that it asks
for is answered. -/
structure GoesThrough (earlier : List Bytes) (key : Bytes) (answers : RenameAnswers) : Prop where
  opens : c.Opens ⟨bucket, key⟩ (c.listed ⟨bucket, key⟩) answers.opened answers.retried
  reaches : GetsToFile bucket srcKey destKey key answers.create
  created : answers.create.openFile = .opened
  apart : newKey srcKey destKey key ≠ key
  free : newKey srcKey destKey key ∈ earlier ∨
    c.node.fileHandles.find (getPath bucket (newKey srcKey destKey key)) = none
  transfers : c.Transfers ⟨bucket, key⟩ answers
  recorded : answers.sealReply = .received
  deleted : answers.deleteReply = .received

/-- After the renames of earlier keys, that of a key which is opened destroys nothing. -/
structure SparesTarget (earlier : List Bytes) (key : Bytes) (create : CreateAnswers) : Prop where
  /-- What the list found of the object is not out of date, if there is no valid handle. -/
  listed : c.node.validHandle (getPath bucket key) = none → ∀ {object},
    c.listed ⟨bucket, key⟩ = some object → c.UpToDate ⟨bucket, key⟩ object.info
  /-- A remote handle of the object is not out of date. -/
  known : ∀ {handle}, c.node.validHandle (getPath bucket key) = some handle →
    c.node.localFile handle = none →
    ∃ info, c.infos.find handle = some info ∧ c.UpToDate ⟨bucket, key⟩ info
  /-- The path of the target is not that of an earlier target, nor that of a live handle. -/
  file : GetsToFile bucket srcKey destKey key create →
    ¬ c.MadePath bucket srcKey destKey earlier (c.targetPath bucket srcKey destKey earlier key) ∧
    ∀ {id file}, c.node.localFile id = some file →
      file.path = c.targetPath bucket srcKey destKey earlier key →
      (∃ other ∈ earlier, c.node.Unshared (getPath bucket other) id) ∨
        c.node.Unshared (getPath bucket key) id ∧ c.node.isValidHandle id = false
  /-- An object under the target has a handle, or it is moved before, or it is the object. -/
  object : GetsToFile bucket srcKey destKey key create → create.openFile = .opened →
    c.service.server.objects.find ⟨bucket, newKey srcKey destKey key⟩ ≠ none →
    newKey srcKey destKey key ∈ earlier ∨ newKey srcKey destKey key = key ∨
      c.node.fileHandles.find (getPath bucket (newKey srcKey destKey key)) ≠ none

/-- The list finds the objects that there are below the prefix, and every rename that follows on
ones that go through destroys nothing. -/
structure Undisturbed (failure : Option Bytes) (renames : Bytes → RenameAnswers) : Prop where
  complete : ∀ {key}, srcKey <+: key →
    (c.listed ⟨bucket, key⟩ = none ↔ c.service.server.objects.find ⟨bucket, key⟩ = none)
  spares : c.ListAnswered bucket failure → ∀ {keys earlier key}, c.KeysBelow bucket srcKey keys →
    earlier ++ [key] <+: keys →
    (∀ {before other}, before ++ [other] <+: earlier →
      c.GoesThrough bucket srcKey destKey before other (renames other)) →
    c.Opens ⟨bucket, key⟩ (c.listed ⟨bucket, key⟩) (renames key).opened (renames key).retried →
    c.SparesTarget bucket srcKey destKey earlier key (renames key).create

end Condition

section Progress

variable {c now c' : Cluster} {bucket srcKey destKey key other : Bytes}
  {earlier rest : List Bytes} {answers : RenameAnswers}

/-- The objects that the renames of some keys touch. -/
def touchedBy (bucket srcKey destKey : Bytes) (earlier : List Bytes) : Set ObjectID :=
  {id | ∃ key ∈ earlier, id = ⟨bucket, key⟩ ∨ id = ⟨bucket, newKey srcKey destKey key⟩}

/-- The state now, after the renames of some keys, none of which failed. -/
structure Progress (c : Cluster) (bucket srcKey destKey : Bytes) (earlier : List Bytes)
    (now : Cluster) : Prop extends Namespace now where
  leaves : Leaves (touchedBy bucket srcKey destKey earlier) c now
  state : now.node.state = c.node.state
  names : now.node.names = c.namesAfter bucket srcKey destKey earlier
  next : c.node.nextHandle ≤ now.node.nextHandle
  blocks : now.cacheBlockSize = c.cacheBlockSize
  handles : ∀ {id}, id < c.node.nextHandle →
    (∀ key ∈ earlier, c.node.fileHandles.find (getPath bucket key) ≠ some id) →
    now.node.handles.find id = c.node.handles.find id
  files : ∀ {id file}, now.node.localFile id = some file →
    c.MadePath bucket srcKey destKey earlier file.path ∨
      c.node.localFile id = some file ∧
        ∀ key ∈ earlier, ¬ c.node.Unshared (getPath bucket key) id
  gone : ∀ {key}, key ∈ earlier → (∀ other ∈ earlier, newKey srcKey destKey other ≠ key) →
    now.Absent ⟨bucket, key⟩
  free : ∀ {key}, key ∈ earlier → newKey srcKey destKey key ∈ earlier ∨
    c.service.server.objects.find ⟨bucket, newKey srcKey destKey key⟩ = none

theorem KeysBelow.exists_of_mem {keys : List Bytes} (h : c.KeysBelow bucket srcKey keys)
    (hkey : key ∈ keys) : c.service.server.objects.find ⟨bucket, key⟩ ≠ none :=
  ((h.2 key).1 hkey).2

theorem KeysBelow.nodup {keys : List Bytes} (h : c.KeysBelow bucket srcKey keys) : keys.Nodup :=
  h.1.imp fun hlt => hlt.ne

theorem KeysBelow.not_mem (h : c.KeysBelow bucket srcKey (earlier ++ key :: rest)) :
    key ∉ earlier := by
  have hnodup := h.nodup
  rw [List.nodup_append] at hnodup
  exact fun hmem => hnodup.2.2 key hmem key List.mem_cons_self rfl

theorem KeysBelow.target_ne (h : c.KeysBelow bucket srcKey (earlier ++ key :: rest))
    (hother : other ∈ earlier) : newKey srcKey destKey other ≠ newKey srcKey destKey key := by
  intro heq
  have hinj := newKey_injOn (fun key hkey => ((h.2 key).1 hkey).1)
    (List.mem_append_left _ hother) (List.mem_append_right _ List.mem_cons_self) heq
  exact h.not_mem (hinj ▸ hother)

theorem slash_of_touched (hbucket : slash ∉ bucket) :
    ∀ id ∈ touchedBy bucket srcKey destKey earlier, slash ∉ id.bucket := by
  rintro id ⟨key, -, rfl | rfl⟩ <;> exact hbucket

/-- A target that was touched was moved away before. -/
theorem KeysBelow.mem_of_touched (h : c.KeysBelow bucket srcKey (earlier ++ key :: rest))
    (htouched : (⟨bucket, newKey srcKey destKey key⟩ : ObjectID) ∈
      touchedBy bucket srcKey destKey earlier) : newKey srcKey destKey key ∈ earlier := by
  obtain ⟨other, hother, heq | heq⟩ := htouched
  · rwa [(ObjectID.mk.inj heq).2]
  · exact absurd (ObjectID.mk.inj heq).2.symm (h.target_ne hother)

namespace Progress

/-- An object that was there before the call and was not moved was not touched. -/
theorem not_touched_of_exists (h : c.Progress bucket srcKey destKey earlier now)
    (hexists : c.service.server.objects.find ⟨bucket, key⟩ ≠ none) (hnot : key ∉ earlier) :
    (⟨bucket, key⟩ : ObjectID) ∉ touchedBy bucket srcKey destKey earlier := by
  rintro ⟨other, hother, heq | heq⟩ <;> obtain rfl := (ObjectID.mk.inj heq).2
  · exact hnot hother
  · exact (h.free hother).elim hnot hexists

theorem not_touched (h : c.Progress bucket srcKey destKey earlier now)
    (hkeys : c.KeysBelow bucket srcKey (earlier ++ key :: rest)) :
    (⟨bucket, key⟩ : ObjectID) ∉ touchedBy bucket srcKey destKey earlier :=
  h.not_touched_of_exists
    (hkeys.exists_of_mem (List.mem_append_right earlier List.mem_cons_self)) hkeys.not_mem

theorem slash_not_mem (hnamespace : c.Namespace)
    (hkeys : c.KeysBelow bucket srcKey (earlier ++ key :: rest)) : slash ∉ bucket := by
  have hexists := hkeys.exists_of_mem (List.mem_append_right earlier List.mem_cons_self)
  obtain ⟨info, hinfo⟩ := Option.ne_none_iff_exists'.1 hexists
  exact hnamespace.buckets hinfo

theorem path_not_touched (hnamespace : c.Namespace)
    (hkeys : c.KeysBelow bucket srcKey (earlier ++ key :: rest))
    (hother : (⟨bucket, other⟩ : ObjectID) ∉ touchedBy bucket srcKey destKey earlier) :
    getPath bucket other ∉ ObjectID.path '' touchedBy bucket srcKey destKey earlier :=
  path_not_mem (slash_of_touched (slash_not_mem hnamespace hkeys))
    (slash_not_mem hnamespace hkeys) hother

/-- The handle of the object is the one that was there before the call. -/
theorem sameAt (h : c.Progress bucket srcKey destKey earlier now) (hnamespace : c.Namespace)
    (hkeys : c.KeysBelow bucket srcKey (earlier ++ key :: rest)) :
    Node.SameAt (getPath bucket key) c.node now.node :=
  h.leaves.node.same _ (path_not_touched hnamespace hkeys (h.not_touched hkeys))

theorem server (h : c.Progress bucket srcKey destKey earlier now)
    (hkeys : c.KeysBelow bucket srcKey (earlier ++ key :: rest)) :
    now.service.server.objects.find ⟨bucket, key⟩ =
      c.service.server.objects.find ⟨bucket, key⟩ :=
  h.leaves.server (h.not_touched hkeys)

theorem handle (h : c.Progress bucket srcKey destKey earlier now) (hnamespace : c.Namespace)
    (hkeys : c.KeysBelow bucket srcKey (earlier ++ key :: rest)) {id : Nat}
    (hfind : c.node.fileHandles.find (getPath bucket key) = some id) :
    now.node.handles.find id = c.node.handles.find id := by
  refine h.handles (hnamespace.sound.registered _ _ hfind) fun other hother hfind' => ?_
  have hpath := hnamespace.sound.single hfind hfind'
  exact hkeys.not_mem ((fullName_inj_right bucket key other).1 hpath ▸ hother)

theorem unshared_iff (h : c.Progress bucket srcKey destKey earlier now)
    (hnamespace : c.Namespace) (hkeys : c.KeysBelow bucket srcKey (earlier ++ key :: rest))
    {id : Nat} :
    now.node.Unshared (getPath bucket key) id ↔ c.node.Unshared (getPath bucket key) id := by
  rw [Node.Unshared, Node.Unshared, (h.sameAt hnamespace hkeys).registry]
  refine and_congr_right fun hfind => ?_
  rw [h.handle hnamespace hkeys hfind]

theorem opens (h : c.Progress bucket srcKey destKey earlier now) (hnamespace : c.Namespace)
    (hkeys : c.KeysBelow bucket srcKey (earlier ++ key :: rest))
    {known : Option Object} {opened retried : ReopenAnswer × ReopenAnswer}
    (hopens : now.Opens ⟨bucket, key⟩ known opened retried) :
    c.Opens ⟨bucket, key⟩ known opened retried := by
  have hsame := h.sameAt hnamespace hkeys
  obtain ⟨⟨hrunning, hname⟩, hreached⟩ := hopens
  refine ⟨⟨?_, hname⟩, fun hnone => ?_⟩
  · rwa [Node.checkServiceRunning, h.state] at hrunning
  · have hreaches := hreached (hsame.validHandle.trans hnone)
    rw [Reaches, Located, h.server hkeys, reopenAnswers] at hreaches
    rw [Reaches, Located, reopenAnswers]
    rwa [show now.node.fileHandles.find (ObjectID.path ⟨bucket, key⟩) =
      c.node.fileHandles.find (ObjectID.path ⟨bucket, key⟩) from hsame.registry] at hreaches

/-- What the rename of the next key may destroy was there before the call. -/
theorem spares (h : c.Progress bucket srcKey destKey earlier now) (hnamespace : c.Namespace)
    (hkeys : c.KeysBelow bucket srcKey (earlier ++ key :: rest))
    (hrecord : now.record ⟨bucket, key⟩ = c.listed ⟨bucket, key⟩)
    (hspares : c.SparesTarget bucket srcKey destKey earlier key answers.create) :
    now.Spares ⟨bucket, key⟩ ⟨bucket, newKey srcKey destKey key⟩ answers.create := by
  have hsame := h.sameAt hnamespace hkeys
  refine ⟨⟨fun hnone object hentry => ?_, fun {handle} hvalid hfile => ?_⟩,
    fun htouches {id file} hfile hpath => ?_, fun hopens hexists => ?_⟩
  · have hlisted := hspares.listed (hsame.validHandle.symm.trans hnone)
      (hrecord.symm.trans (record_of_entry hentry))
    exact hlisted.congr (h.server hkeys) h.leaves.held
  · have hvalid' := hsame.validHandle.symm.trans hvalid
    have hfind := (Node.validHandle_eq_some_iff.1 hvalid').1
    have hpath := path_not_touched hnamespace hkeys (h.not_touched hkeys)
    obtain ⟨info, hinfo, hknown⟩ := hspares.known hvalid' ((hsame.file hfind).symm.trans hfile)
    exact ⟨info, (h.leaves.infos hpath hfind).trans hinfo,
      hknown.congr (h.server hkeys) h.leaves.held⟩
  · obtain ⟨-, hname, -, hfolder, hopened⟩ := htouches
    obtain ⟨hmade, hlive⟩ := hspares.file ⟨hname, hfolder, hopened⟩
    have hpath : file.path = c.targetPath bucket srcKey destKey earlier key := by
      rw [hpath, h.names]
      rfl
    rcases h.files hfile with hearlier | ⟨hbefore, hkept⟩
    · exact absurd (hpath ▸ hearlier) hmade
    · rcases hlive hbefore hpath with ⟨other, hother, hunshared⟩ | ⟨hunshared, hinvalid⟩
      · exact absurd hunshared (hkept other hother)
      · exact ⟨(h.unshared_iff hnamespace hkeys).2 hunshared,
          (hsame.valid hunshared.1).trans hinvalid⟩
  · obtain ⟨-, hname, -, hfolder, hopened⟩ := hopens
    by_cases htouched : (⟨bucket, newKey srcKey destKey key⟩ : ObjectID) ∈
        touchedBy bucket srcKey destKey earlier
    · have hmem := hkeys.mem_of_touched htouched
      exact absurd (h.gone hmem fun other hother => hkeys.target_ne hother).1 hexists
    · rw [h.leaves.server htouched] at hexists
      have hreaches : GetsToFile bucket srcKey destKey key answers.create :=
        ⟨hname, hfolder, by simp [hopened]⟩
      rcases hspares.object hreaches hopened hexists with hmem | heq | hregistered
      · exact absurd ⟨_, hmem, Or.inl rfl⟩ htouched
      · exact Or.inl (congrArg _ heq)
      · have hpath := path_not_touched hnamespace hkeys htouched
        have hsame' := h.leaves.node.same _ hpath
        exact Or.inr fun hnone => hregistered (hsame'.registry.symm.trans hnone)

/-- What the next rename asked for, if it succeeds. -/
theorem goesThrough (h : c.Progress bucket srcKey destKey earlier now) (hnamespace : c.Namespace)
    (hkeys : c.KeysBelow bucket srcKey (earlier ++ key :: rest))
    (hrecord : now.record ⟨bucket, key⟩ = c.listed ⟨bucket, key⟩)
    (hanswered : now.Answered ⟨bucket, key⟩ ⟨bucket, newKey srcKey destKey key⟩ answers)
    (hmoved : Renamed ⟨bucket, key⟩ ⟨bucket, newKey srcKey destKey key⟩ now c') :
    c.GoesThrough bucket srcKey destKey earlier key answers := by
  have hsame := h.sameAt hnamespace hkeys
  have hcontent : now.content ⟨bucket, key⟩ = c.content ⟨bucket, key⟩ :=
    h.leaves.content (h.not_touched hkeys)
      (path_not_touched hnamespace hkeys (h.not_touched hkeys))
  have hfile : now.fileAt ⟨bucket, key⟩ = c.fileAt ⟨bucket, key⟩ := by
    rw [fileAt, fileAt, show now.node.validHandle (ObjectID.path ⟨bucket, key⟩) =
      c.node.validHandle (ObjectID.path ⟨bucket, key⟩) from hsame.validHandle]
    cases hvalid : c.node.validHandle (ObjectID.path ⟨bucket, key⟩) with
    | none => rfl
    | some handle => exact hsame.file (Node.validHandle_eq_some_iff.1 hvalid).1
  have hsize : now.sizeAt ⟨bucket, key⟩ = c.sizeAt ⟨bucket, key⟩ := by
    rw [sizeAt, sizeAt, hfile, h.server hkeys]
  obtain ⟨hopens, ⟨-, hname, -, hfolder, hopened⟩, ⟨hcomplete, hmoves⟩, hrecorded, hdeleted⟩ :=
    hanswered
  refine ⟨hrecord ▸ h.opens hnamespace hkeys hopens, ⟨hname, hfolder, by simp [hopened]⟩, hopened,
    ?_, ?_, ?_, hrecorded, hdeleted⟩
  · intro heq
    exact hmoved.apart (congrArg (getPath bucket) heq.symm)
  · by_cases htouched : (⟨bucket, newKey srcKey destKey key⟩ : ObjectID) ∈
        touchedBy bucket srcKey destKey earlier
    · exact Or.inl (hkeys.mem_of_touched htouched)
    · have hpath := path_not_touched hnamespace hkeys htouched
      exact Or.inr ((h.leaves.node.same _ hpath).registry.symm.trans hmoved.free.2)
  · rw [hcontent, hsize] at hcomplete
    rw [hfile, hsize] at hmoves
    exact ⟨hcomplete, hmoves.congr h.blocks (h.server hkeys)⟩

theorem touchedBy_append : touchedBy bucket srcKey destKey (earlier ++ [key]) =
    touchedBy bucket srcKey destKey earlier ∪
      {⟨bucket, key⟩, ⟨bucket, newKey srcKey destKey key⟩} := by
  ext id
  simp only [touchedBy, List.mem_append, List.mem_singleton, Set.mem_union, Set.mem_ofPred_eq,
    Set.mem_insert_iff, Set.mem_singleton_iff, or_and_right, exists_or, exists_eq_left]

/-- After one more rename. -/
theorem step (h : c.Progress bucket srcKey destKey earlier now) (hnamespace : c.Namespace)
    (hkeys : c.KeysBelow bucket srcKey (earlier ++ key :: rest))
    (hmoved : Renamed ⟨bucket, key⟩ ⟨bucket, newKey srcKey destKey key⟩ now c')
    (hblocks : c'.cacheBlockSize = now.cacheBlockSize)
    (hfollows : Node.Follows (getPath bucket key) ⟨bucket, newKey srcKey destKey key⟩
      now.node c'.node) :
    c.Progress bucket srcKey destKey (earlier ++ [key]) c' := by
  have hslash := slash_not_mem hnamespace hkeys
  have hsame := h.sameAt hnamespace hkeys
  obtain ⟨info, hinfo⟩ := Option.ne_none_iff_exists'.1
    (hkeys.exists_of_mem (List.mem_append_right earlier List.mem_cons_self))
  obtain ⟨bytes, hcontent⟩ := h.toNamespace.content ((h.server hkeys).trans hinfo)
  have hpath : (now.node.names.getLocalPath ⟨bucket, newKey srcKey destKey key⟩).1 =
      c.targetPath bucket srcKey destKey earlier key := by
    rw [h.names]
    rfl
  refine ⟨hmoved.namespace h.toNamespace hcontent hslash hslash, ?_, hfollows.state.trans h.state,
    ?_, h.next.trans hfollows.next, hblocks.trans h.blocks, fun {id} hlt hother => ?_,
    fun {id file} hfile => ?_, fun {gone} hgone htarget => ?_, fun {moved} hmem => ?_⟩
  · rw [touchedBy_append]
    exact (h.leaves.mono Set.subset_union_left).trans
      (hmoved.toLeaves.mono Set.subset_union_right)
  · rw [hfollows.names, h.names]
    simp [namesAfter, FileNames.run]
  · refine (hfollows.others (hlt.trans_le h.next) ?_).trans
      (h.handles hlt fun other hmem => hother other (List.mem_append_left _ hmem))
    rw [hsame.registry]
    exact hother key (List.mem_append_right _ (List.mem_singleton_self key))
  · rcases hfollows.files hfile with hnew | ⟨hold, hunshared⟩
    · exact Or.inl ⟨earlier, key, List.prefix_refl _, (hnew.trans hpath).symm⟩
    · rcases h.files hold with ⟨before, other, hstarts, hmade⟩ | ⟨hbefore, hkept⟩
      · exact Or.inl ⟨before, other, hstarts.trans (List.prefix_append _ _), hmade⟩
      · refine Or.inr ⟨hbefore, fun other hmem => ?_⟩
        rcases List.mem_append.1 hmem with hearlier | hlast
        · exact hkept other hearlier
        · rw [List.mem_singleton.1 hlast, ← h.unshared_iff hnamespace hkeys]
          exact hunshared
  · by_cases hlast : gone = key
    · rw [hlast]
      exact hmoved.gone
    · have hearlier : gone ∈ earlier := (List.mem_append.1 hgone).resolve_right
        fun hmem => hlast (List.mem_singleton.1 hmem)
      obtain ⟨hserver, hregistry⟩ := h.gone hearlier fun other hmem =>
        htarget other (List.mem_append_left _ hmem)
      have hne := htarget key (List.mem_append_right _ (List.mem_singleton_self key))
      have hnot : (⟨bucket, gone⟩ : ObjectID) ∉
          ({⟨bucket, key⟩, ⟨bucket, newKey srcKey destKey key⟩} : Set ObjectID) := by
        rintro (heq | heq)
        · exact hlast (ObjectID.mk.inj heq).2
        · exact hne (ObjectID.mk.inj heq).2.symm
      have hgonePath := path_not_mem (bucket_of_pair hslash hslash) hslash hnot
      exact ⟨(hmoved.server hnot).trans hserver,
        (hmoved.node.same _ hgonePath).registry.trans hregistry⟩
  · rcases List.mem_append.1 hmem with hearlier | hlast
    · exact (h.free hearlier).imp_left (List.mem_append_left _)
    · rw [List.mem_singleton.1 hlast]
      by_cases htouched : (⟨bucket, newKey srcKey destKey key⟩ : ObjectID) ∈
          touchedBy bucket srcKey destKey earlier
      · exact Or.inl (List.mem_append_left _ (hkeys.mem_of_touched htouched))
      · exact Or.inr ((h.leaves.server htouched).symm.trans hmoved.free.1)

end Progress

end Progress

section Run

variable {c now c' : Cluster} {bucket srcKey destKey : Bytes} {earlier rest keys : List Bytes}
  {failure : Option Bytes} {renames : Bytes → RenameAnswers} {fuel : Nat} {status : Status}

/-- The loop moves the objects one by one, or it stops.  The induction is on the keys that are
left; those before went through. -/
theorem Progress.renameEach_spec (h : c.Progress bucket srcKey destKey earlier now)
    (hnamespace : c.Namespace) (hkeys : c.KeysBelow bucket srcKey (earlier ++ rest))
    (hrecord : ∀ key ∈ rest, now.record ⟨bucket, key⟩ = c.listed ⟨bucket, key⟩)
    (hthrough : ∀ {before other}, before ++ [other] <+: earlier →
      c.GoesThrough bucket srcKey destKey before other (renames other))
    (hspares : ∀ {before key}, before ++ [key] <+: earlier ++ rest →
      (∀ {before' other}, before' ++ [other] <+: before →
        c.GoesThrough bucket srcKey destKey before' other (renames other)) →
      c.Opens ⟨bucket, key⟩ (c.listed ⟨bucket, key⟩) (renames key).opened (renames key).retried →
      c.SparesTarget bucket srcKey destKey before key (renames key).create)
    (hrun : renameEach fuel bucket srcKey bucket destKey renames rest now = some (status, c')) :
    MovedEach (newKey srcKey destKey) bucket rest status now c' := by
  induction rest generalizing earlier now with
  | nil =>
      obtain ⟨rfl, rfl⟩ := Prod.mk.inj (Option.some.inj hrun)
      exact MovedEach.nil
  | cons key rest ih =>
      rw [List.forall_mem_cons] at hrecord
      rw [renameEach] at hrun
      have hbucket := Progress.slash_not_mem hnamespace hkeys
      have hexists : ∀ other ∈ key :: rest, c.service.server.objects.find ⟨bucket, other⟩ ≠ none :=
        fun other hother => hkeys.exists_of_mem (List.mem_append_right _ hother)
      obtain ⟨info, hinfo⟩ := Option.ne_none_iff_exists'.1 (hexists key List.mem_cons_self)
      obtain ⟨bytes, hcontent⟩ := h.toNamespace.content ((h.server hkeys).trans hinfo)
      have hnext : earlier ++ [key] <+: earlier ++ key :: rest :=
        ⟨rest, by rw [List.append_assoc, List.singleton_append]⟩
      have hspared : now.Opens ⟨bucket, key⟩ (now.record ⟨bucket, key⟩) (renames key).opened
            (renames key).retried →
          now.Spares ⟨bucket, key⟩ ⟨bucket, newKey srcKey destKey key⟩ (renames key).create := by
        rw [hrecord.1]
        exact fun hopens => h.spares hnamespace hkeys hrecord.1
          (hspares hnext hthrough (h.opens hnamespace hkeys hopens))
      cases hrename : now.rename (renames key) fuel ⟨bucket, key⟩
          ⟨bucket, newKey srcKey destKey key⟩ with
      | none => simp [hrename] at hrun
      | some renamed =>
          obtain ⟨result, c₁⟩ := renamed
          simp only [hrename] at hrun
          rcases rename_spec h.toNamespace hcontent hbucket hbucket hspared hrename with
            ⟨hfailed, hconfined, hkeeps⟩ | ⟨hok, hmoved⟩
          · rw [if_neg (by simp [hfailed])] at hrun
            obtain ⟨rfl, rfl⟩ := Prod.mk.inj (Option.some.inj hrun)
            exact MovedEach.stopped h.toNamespace hbucket hconfined hfailed hkeeps
          · rw [if_pos hok] at hrun
            obtain ⟨hanswered, hblocks, hfollows⟩ :=
              rename_ok h.toNamespace hcontent hbucket hspared hrename hok
            have hgoes := h.goesThrough hnamespace hkeys hrecord.1 hanswered hmoved
            have hstep := h.step hnamespace hkeys hmoved hblocks hfollows
            have hkeys' : c.KeysBelow bucket srcKey (earlier ++ [key] ++ rest) := by
              rwa [List.append_assoc, List.singleton_append]
            have hleft : ∀ other ∈ rest, (⟨bucket, other⟩ : ObjectID) ∉
                ({⟨bucket, key⟩, ⟨bucket, newKey srcKey destKey key⟩} : Set ObjectID) := by
              intro other hother hmem
              have hnodup := hkeys'.nodup
              rw [List.nodup_append] at hnodup
              refine hstep.not_touched_of_exists (hexists other (List.mem_cons_of_mem _ hother))
                (fun hearlier => hnodup.2.2 other hearlier other hother rfl) ?_
              rw [Progress.touchedBy_append]
              exact Or.inr hmem
            refine MovedEach.cons h.toNamespace hbucket hmoved hcontent
              (fun other hother heq => hleft other hother (Or.inr heq)) ?_
            refine ih hstep hkeys' (fun other hother => ?_) (fun {before other} hstarts => ?_)
              (by rwa [List.append_assoc, List.singleton_append]) hrun
            · exact (hmoved.record (hleft other hother)).trans (hrecord.2 other hother)
            · rcases List.prefix_concat_iff.1 hstarts with heq | hearlier
              · obtain ⟨rfl, hlast⟩ := List.append_inj' heq rfl
                obtain rfl := List.singleton_inj.1 hlast
                exact hgoes
              · exact hthrough hearlier

/-- Before the first rename, a list changed no object. -/
theorem Listing.progress (h : Listing c now) (hnamespace : c.Namespace) :
    c.Progress bucket srcKey destKey [] now := by
  have hleaves := h.leaves hnamespace.toReady
  have hafter := hleaves.namespace_nothing h.wellFormed hnamespace
  obtain ⟨⟨known, service, rfl⟩, -, -⟩ := h
  refine ⟨hafter, hleaves.mono (Set.empty_subset _), rfl, rfl, le_rfl, rfl, fun _ _ => rfl,
    fun hfile => Or.inr ⟨hfile, fun _ hmem => absurd hmem List.not_mem_nil⟩,
    fun hmem => absurd hmem List.not_mem_nil, fun hmem => absurd hmem List.not_mem_nil⟩

end Run

namespace Sample

def bucket : Bytes := text "data"

/-- A far object, of three bytes. -/
def far : ObjectInfo := ⟨text "geds://far", 3, 3, none⟩

/-- No call and no system call fails. -/
def fine : RenameAnswers where
  opened := ⟨⟨none, none⟩, ⟨none, none⟩⟩
  retried := ⟨⟨none, none⟩, ⟨none, none⟩⟩
  create := ⟨okStatus, okStatus, none, .opened⟩
  read _ := none
  reopen _ := ⟨none, none⟩
  reread _ := none
  write _ := none
  sealReply := .received
  deleteReply := .received

/-- Two objects on another node. -/
def start : Cluster where
  node := (Node.new (text "/geds")).start okStatus
  infos := AssocMap.empty
  service :=
    ⟨⟨(AssocMap.empty.insert ⟨bucket, text "a"⟩ far).insert ⟨bucket, text "aa"⟩ far, false⟩,
      MDSKVS.new none⟩
  held _ id := if id.key = text "a" then some (text "one") else some (text "two")
  hostURI := text "geds://here"
  cacheBlockSize := 2
  pubSubEnabled := false

theorem start_namespace : start.Namespace where
  sound := {
    toOwned := (Node.new_owned (text "/geds")).of_same rfl rfl rfl
    registered := Node.new_numbered (text "/geds")
    single := fun hfind => nomatch hfind }
  wellFormed := (MDSKVS.new_wellFormed none).1
  buckets {id info} hinfo := by
    simp only [start, AssocMap.find_insert, AssocMap.find_empty] at hinfo
    split_ifs at hinfo with hid hid'
    · rw [hid]
      decide
    · rw [hid']
      decide
  held {id info} hinfo _ := by
    simp only [start]
    split_ifs <;> exact Option.some_ne_none _

theorem start_undisturbed :
    start.Undisturbed bucket (text "aa") (text "b") none fun _ => fine where
  complete _ := listed_eq_none_iff rfl
  spares _ {keys earlier key} hkeys hstarts _ _ := by
    have honly : ∀ other ∈ keys, other = text "aa" := by
      intro other hother
      obtain ⟨hbelow, hexists⟩ := (hkeys.2 other).1 hother
      simp only [start, AssocMap.find_insert, AssocMap.find_empty] at hexists
      split_ifs at hexists with hsecond hfirst
      · exact (ObjectID.mk.inj hsecond).2
      · rw [(ObjectID.mk.inj hfirst).2] at hbelow
        exact absurd hbelow (by decide)
      · exact absurd rfl hexists
    obtain rfl : earlier = [] := by
      have hnodup := hkeys.nodup.sublist hstarts.sublist
      rw [List.nodup_append] at hnodup
      refine List.eq_nil_iff_forall_not_mem.2 fun other hother => ?_
      refine hnodup.2.2 other hother key (List.mem_singleton_self key) ?_
      rw [honly other (hstarts.subset (List.mem_append_left _ hother)),
        honly key (hstarts.subset (List.mem_append_right _ (List.mem_singleton_self key)))]
    obtain rfl := honly key (hstarts.subset (List.mem_append_right _ (List.mem_singleton_self key)))
    refine ⟨fun _ {object} hlisted => ?_, fun hvalid _ => (nomatch hvalid),
      fun _ => ⟨?_, fun hfile _ => (nomatch hfile)⟩, fun _ _ hexists => absurd rfl hexists⟩
    · have hlookup : (start.service.server.lookup ⟨bucket, text "aa"⟩).toOption = some object :=
        hlisted
      exact UpToDate.of_server (lookup_ok (toOption_eq_some_iff.1 hlookup)).2
    · rintro ⟨before, other, hmade, -⟩
      simp at hmade

/-- The other node is not reached. -/
def unreached : RenameAnswers :=
  { fine with opened := (⟨none, some ⟨unavailableError [], rfl⟩⟩, ⟨some [], none⟩) }

/-- Nothing is opened then, and it does not matter what is under the targets. -/
example : start.Undisturbed bucket (text "a") (text "aa") none fun _ => unreached where
  complete _ := listed_eq_none_iff rfl
  spares _ {_ _ key} _ _ _ hopens := by
    have hnone : start.node.validHandle (ObjectID.path ⟨bucket, key⟩) = none := rfl
    rcases (hopens.reached hnone).2 with hfactory | ⟨-, hlookup, -⟩
    · cases hfactory
    · cases hlookup

/-- The node after a file was written and closed. -/
def withFile (node : Node) (key bytes : Bytes) : Node :=
  let created := node.create bucket key false fine.create
  match created.1 with
  | .error _ => created.2
  | .ok handle => (created.2.writeBytes handle bytes 0 none).2.closeFile handle

/-- Files of the node stay apart. -/
theorem withFile_sound {node : Node} (h : node.Sound) {key : Bytes}
    (hfree : ¬ node.PathTaken bucket key) (bytes : Bytes) : (withFile node key bytes).Sound := by
  rw [withFile]
  rcases @Node.Sound.create_cases node bucket key fine.create h fun _ => hfree with
    ⟨status, hresult, -, htouches⟩ | ⟨handle, file, made, hresult, -, htouches, hcreated, -⟩
  · simp only [hresult]
    exact htouches.sound
  · simp only [hresult]
    have hwritten := htouches.sound.touches_writeBytes hcreated bytes 0 none
    exact (Node.touches_closeFile hwritten.sound handle).sound

/-- Both objects in files of this node. -/
def startHere : Cluster :=
  { start with
    node := withFile (withFile start.node (text "a") (text "one")) (text "aa") (text "two") }

theorem startHere_namespace : startHere.Namespace where
  sound := by
    have hfirst : (withFile start.node (text "a") (text "one")).Sound := by
      refine withFile_sound start_namespace.sound ?_ _
      rintro ⟨id, file, hfile, -⟩
      simp [Node.localFile, start, Node.start, Node.new] at hfile
    apply @withFile_sound (withFile start.node (text "a") (text "one")) hfirst (text "aa") _
      (text "two")
    generalize hnode : withFile start.node (text "a") (text "one") = node
    have hentries : node.handles.entries.map (fun entry => entry.2.file.map (·.path)) =
        [some (text "/geds/data/0")] := by
      rw [← hnode]
      rfl
    have hlocal : (node.names.getLocalPath ⟨bucket, text "aa"⟩).1 = text "/geds/data/1" := by
      rw [← hnode]
      rfl
    rintro ⟨id, file, hfile, hpath⟩
    obtain ⟨handle, hhandle, hfound⟩ := Option.bind_eq_some_iff.1 hfile
    have hmem : some file.path ∈ [some (text "/geds/data/0")] := by
      rw [← hentries]
      refine List.mem_map.2 ⟨_, (AssocMap.find_eq_some_iff _ _ _).1 hhandle, ?_⟩
      simp only [hfound, Option.map_some]
    rw [hpath, hlocal] at hmem
    exact absurd hmem (by decide)
  wellFormed := start_namespace.wellFormed
  buckets := start_namespace.buckets
  held hinfo _ := start_namespace.held hinfo rfl

end Sample

end Cluster

end GEDS
