/-
Renaming one object.  A rename that finds its new name free moves the object, or it fails,
and the bytes are then under the old or the new name.
-/
import GEDS.OpenFrom

namespace GEDS

open Status

namespace Cluster

/-- Every object is in a file of this node or held where the metadata service says. -/
structure Namespace (c : Cluster) : Prop extends Ready c where
  buckets : ∀ {id info}, c.service.server.objects.find id = some info → slash ∉ id.bucket
  held : ∀ {id info}, c.service.server.objects.find id = some info →
    c.node.bytesAt id.path = none → c.held info.location id ≠ none

/-- Neither the metadata service nor the node has the name. -/
def Absent (c : Cluster) (id : ObjectID) : Prop :=
  c.service.server.objects.find id = none ∧ c.node.fileHandles.find id.path = none

/-- The rename of an object that is opened destroys nothing under the new name: no file in use
is opened for it, and an object that is there has a handle, so that it is not created.  The
invalid handle that only the registry has of the object is not in use. -/
structure Spares (c : Cluster) (source dest : ObjectID) (answers : CreateAnswers) : Prop where
  current : c.Current source
  file : c.node.TouchesFile dest.bucket dest.key answers → ∀ {id file},
    c.node.localFile id = some file →
    file.path = (c.node.names.getLocalPath ⟨dest.bucket, dest.key⟩).1 →
    c.node.Unshared source.path id ∧ c.node.isValidHandle id = false
  object : c.node.OpensFile dest.bucket dest.key answers →
    c.service.server.objects.find dest ≠ none →
    dest = source ∨ c.node.fileHandles.find dest.path ≠ none

variable {c c' : Cluster} {id source dest : ObjectID} {answers : RenameAnswers} {bytes : Bytes}

section Content

theorem path_inj {other : ObjectID} (hid : slash ∉ id.bucket) (hother : slash ∉ other.bucket)
    (hpath : id.path = other.path) : id = other := by
  obtain ⟨hbucket, hkey⟩ := (fullName_inj hid hother).1 hpath
  obtain ⟨bucket, key⟩ := id
  obtain ⟨bucket', key'⟩ := other
  exact congrArg₂ ObjectID.mk hbucket hkey

theorem path_not_mem {touched : Set ObjectID} (htouched : ∀ other ∈ touched, slash ∉ other.bucket)
    (hid : slash ∉ id.bucket) (hnot : id ∉ touched) : id.path ∉ ObjectID.path '' touched := by
  rintro ⟨other, hother, hpath⟩
  exact hnot (path_inj (htouched other hother) hid hpath ▸ hother)

theorem bucket_of_pair (hsource : slash ∉ source.bucket) (hdest : slash ∉ dest.bucket) :
    ∀ other ∈ ({source, dest} : Set ObjectID), slash ∉ other.bucket := by
  rintro other (rfl | rfl)
  · exact hsource
  · exact hdest

theorem exists_of_content (hcontent : c.content id = some bytes) :
    ∃ info, c.service.server.objects.find id = some info := by
  rw [content] at hcontent
  obtain ⟨info, hinfo, -⟩ := Option.bind_eq_some_iff.1 hcontent
  exact ⟨info, hinfo⟩

theorem content_eq_none (hnone : c.service.server.objects.find id = none) :
    c.content id = none := by
  rw [content, hnone, Option.bind_none]

theorem Namespace.content (h : c.Namespace) {info : ObjectInfo}
    (hinfo : c.service.server.objects.find id = some info) :
    ∃ bytes, c.content id = some bytes := by
  rw [Cluster.content, hinfo, Option.bind_some]
  cases hbytes : c.node.bytesAt id.path with
  | some bytes => exact ⟨bytes, rfl⟩
  | none =>
      obtain ⟨whole, hwhole⟩ := Option.ne_none_iff_exists'.1 (h.held hinfo hbytes)
      exact ⟨whole.take info.size.toNat, by simp only [heldBytes, hwhole, Option.map_some]⟩

/-- The bytes of an object depend on its entry, its file and its place. -/
theorem content_congr
    (hserver : c'.service.server.objects.find id = c.service.server.objects.find id)
    (hbytes : c'.node.bytesAt id.path = c.node.bytesAt id.path) (hheld : c'.held = c.held) :
    c'.content id = c.content id := by
  rw [Cluster.content, Cluster.content, hserver, hbytes, heldBytes_congr hheld]

/-- Objects that are not touched keep their bytes. -/
theorem Leaves.kept {touched : Set ObjectID} (h : Leaves touched c c')
    (htouched : ∀ other ∈ touched, slash ∉ other.bucket) (hid : slash ∉ id.bucket)
    (hnot : id ∉ touched) : c'.content id = c.content id :=
  h.content hnot (path_not_mem htouched hid hnot)

end Content

section Copy

/-- An object was copied under a free name. -/
structure Copied (source dest : ObjectID) (c c' : Cluster) : Prop
    extends Confined {source, dest} c c' where
  free : c.Absent dest
  apart : source.path ≠ dest.path
  recorded : c'.service.server.objects.find source = c.service.server.objects.find source
  kept : c'.content source = c.content source
  made : c'.service.server.objects.find dest ≠ none
  bytes : c'.node.bytesAt dest.path = c.content source

/-- At most two objects were touched, and no object lost its bytes. -/
structure Keeps (source dest : ObjectID) (c c' : Cluster) : Prop
    extends Confined {source, dest} c c' where
  content : ∀ {id bytes}, c.content id = some bytes → c'.content id = some bytes

/-- The handle of an opened object reads the object. -/
theorem Opening.readsFrom (h : Opening id c c') (hcurrent : c.Current id)
    (hcontent : c.content id = some bytes)
    {handle : Nat} (hfind : c'.node.fileHandles.find id.path = some handle)
    (hvalid : c'.node.isValidHandle handle = true) :
    c'.ReadsFrom id handle bytes (c'.size handle) := by
  have hcontent' : c'.content id = some bytes := by
    rw [content_congr (by rw [h.same]) h.bytes h.held, hcontent]
  rw [content] at hcontent'
  obtain ⟨info, hinfo, hbytes⟩ := Option.bind_eq_some_iff.1 hcontent'
  have hat : c'.node.bytesAt id.path = (c'.node.localFile handle).map fun file =>
      (c'.node.files.content file.inode).take file.size.toNat := by
    simp only [Node.bytesAt, hfind, Option.bind_some, hvalid, ↓reduceIte]
  cases hfile : c'.node.localFile handle with
  | some file =>
      rw [hat, hfile] at hbytes
      have hsize : c'.size handle = file.size := by rw [Cluster.size, hfile]
      rw [ReadsFrom, hfile, hsize]
      exact ⟨rfl, Option.some.inj hbytes⟩
  | none =>
      rw [hat, hfile] at hbytes
      obtain ⟨opened, hopened, hknown⟩ := (h.current hcurrent).opened
        (Node.validHandle_eq_some_iff.2 ⟨hfind, hvalid⟩) hfile
      have hsize : c'.size handle = opened.size := by
        rw [Cluster.size, hfile, hopened]
        rfl
      rw [hsize]
      refine ReadsFrom.remote hfile hopened hknown ?_
      obtain ⟨current, hserver, -, hsame⟩ := hknown
      obtain rfl := Option.some.inj (hserver.symm.trans hinfo)
      exact hsame.trans hbytes

theorem Opening.copies (h : Opening source c c') : Copies source dest c c' where
  toConfined := h.toConfined.of_source
  same := h.same
  bytes := h.bytes

theorem Copies.content_source (h : Copies source dest c c') :
    c'.content source = c.content source :=
  content_congr (by rw [h.same]) h.bytes h.held

/-- Objects keep their bytes if at most two names are touched, one of which had no object and
the other of which is as it was. -/
theorem Confined.keeps (h : Confined {source, dest} c c') (hnamespace : c.Namespace)
    (hsource : slash ∉ source.bucket) (hdest : slash ∉ dest.bucket)
    (hkept : c'.content source = c.content source)
    (hfree : c.service.server.objects.find dest = none ∨ c'.content dest = c.content dest) :
    Keeps source dest c c' := by
  refine ⟨h, fun {id bytes} hcontent => ?_⟩
  obtain ⟨info, hinfo⟩ := exists_of_content hcontent
  by_cases hid : id = source
  · rw [hid] at hcontent ⊢
    rw [hkept, hcontent]
  · by_cases hid' : id = dest
    · rw [hid'] at hcontent hinfo ⊢
      rcases hfree with hnone | hsame
      · rw [hnone] at hinfo
        cases hinfo
      · rw [hsame, hcontent]
    · have hnot : id ∉ ({source, dest} : Set ObjectID) := by simp [hid, hid']
      rw [h.kept (bucket_of_pair hsource hdest) (hnamespace.buckets hinfo) hnot, hcontent]

/-- Where nothing is touched, all objects are as they were. -/
theorem Leaves.content_nothing (h : Leaves ∅ c c') (id : ObjectID) :
    c'.content id = c.content id :=
  h.content (Set.notMem_empty _) (path_not_touched_nothing _)

theorem Leaves.bytesAt_nothing (h : Leaves ∅ c c') (path : Bytes) :
    c'.node.bytesAt path = c.node.bytesAt path :=
  (h.node.same path (path_not_touched_nothing path)).bytesAt

theorem Keeps.trans_nothing (h : Keeps source dest c c') {c'' : Cluster}
    (hnothing : Confined ∅ c' c'') : Keeps source dest c c'' where
  toConfined := h.toConfined.trans (hnothing.mono (Set.empty_subset _))
  content hcontent := by rw [hnothing.content_nothing, h.content hcontent]

theorem Copied.trans_nothing (h : Copied source dest c c') {c'' : Cluster}
    (hnothing : Confined ∅ c' c'') : Copied source dest c c'' where
  toConfined := h.toConfined.trans (hnothing.mono (Set.empty_subset _))
  free := h.free
  apart := h.apart
  recorded := (hnothing.server (Set.notMem_empty _)).trans h.recorded
  kept := (hnothing.content_nothing _).trans h.kept
  made := by
    rw [hnothing.server (Set.notMem_empty _)]
    exact h.made
  bytes := (hnothing.bytesAt_nothing _).trans h.bytes

theorem closeFiles_confined (h : c.Ready) (src dst : Nat) :
    Confined ∅ c ((c.closeFile dst).closeFile src) := by
  have hfirst : Confined ∅ c (c.closeFile dst) := Confined.closeFile h dst
  exact hfirst.trans (Confined.closeFile hfirst.ready src)

theorem Opening.keeps (h : Opening source c c') (hnamespace : c.Namespace)
    (hsource : slash ∉ source.bucket) : Keeps source dest c c' := by
  have hcopies : Copies source source c c' := h.copies
  have hkeeps := hcopies.toConfined.keeps hnamespace hsource hsource hcopies.content_source
    (Or.inr hcopies.content_source)
  exact ⟨hkeeps.toConfined.mono (by simp), hkeeps.content⟩

/-- A name without a handle in the end had none before, and it is not that of the object. -/
theorem Spares.absent {create : CreateAnswers} (h : c.Spares source dest create)
    (hopening : Opening source c c') (hapart : source.path ≠ dest.path)
    (hopens : c'.node.OpensFile dest.bucket dest.key create)
    (hnone : c'.node.fileHandles.find dest.path = none) : c.Absent dest := by
  have hpath := path_not_touched_one (Ne.symm hapart)
  have hunregistered : c.node.fileHandles.find dest.path = none :=
    (hopening.node.same _ hpath).registry.symm.trans hnone
  refine ⟨?_, hunregistered⟩
  by_contra hexists
  rcases h.object (hopening.noNewFile.opensFile_iff.1 hopens) hexists with rfl | hregistered
  · exact hapart rfl
  · exact hregistered hunregistered

/-- When the object is open, no file in use has the path that the new name gets. -/
theorem Spares.pathFree {create : CreateAnswers} (h : c.Spares source dest create)
    (hno : Node.NoNewFile c.node c'.node) {src : Nat}
    (htakes : Node.Takes source.path src c.node c'.node)
    (htouches : c'.node.TouchesFile dest.bucket dest.key create) :
    ¬ c'.node.PathTaken dest.bucket dest.key := by
  rintro ⟨id, file, hfile, hpath⟩
  rw [hno.names] at hpath
  obtain ⟨hunshared, hinvalid⟩ :=
    h.file (hno.touchesFile_iff.1 htouches) (hno.files hfile) hpath
  rcases htakes.unshared hunshared with ⟨hvalid, -⟩ | hgone
  · rw [(Node.validHandle_eq_some_iff.1 hvalid).2] at hinvalid
    cases hinvalid
  · rw [Node.localFile, hgone] at hfile
    cases hfile

/-- An object that cannot be opened is not opened, and nothing is lost. -/
theorem openFrom_of_not_opens (h : c.Namespace) (hsource : slash ∉ source.bucket)
    {opened retried : ReopenAnswer × ReopenAnswer}
    (hopens : ¬ c.Opens source (c.record source) opened retried) :
    ∃ status, (openFrom source [opened, retried] c).1 = .error status ∧ status.ok = false ∧
      Keeps source dest c (openFrom source [opened, retried] c).2 := by
  by_cases hserves : c.Serves source
  · obtain ⟨hopening, hfailed, -⟩ := @openFrom_spec c source [opened, retried] h.toReady
    cases hresult : (openFrom source [opened, retried] c).1 with
    | error status => exact ⟨status, rfl, hfailed hresult, hopening.keeps h hsource⟩
    | ok handle => exact absurd (opens_of_ok h.toReady hresult) hopens
  · obtain ⟨status, hfailed, -, hresult⟩ :=
      @openFrom_of_not_serves c source [retried] opened hserves
    rw [hresult]
    exact ⟨status, rfl, hfailed, Confined.refl h.toReady, fun hcontent => hcontent⟩

/-- A copy that has all bytes is found under the new name. -/
theorem Copying.bytesAt {src dst : Nat} {total : UInt64}
    (h : Copying source dest src dst bytes total bytes.length c) :
    c.node.bytesAt dest.path = some bytes := by
  obtain ⟨file, hfile, hsize, hbytes⟩ := h.holds
  have hlength : (UInt64.ofNat bytes.length).toNat = bytes.length := by
    have hlt := UInt64.toNat_lt total
    have hle := h.reads.length_le
    exact Nat.mod_eq_of_lt (by omega)
  rw [List.take_length] at hsize hbytes
  simp only [Node.bytesAt, h.created, Option.bind_some, h.valid, ↓reduceIte, hfile,
    Option.map_some, hbytes, hsize, hlength, List.take_length]

/-- The copy is recorded, or the metadata service does not answer. -/
theorem sealFile_spec (h : c.Ready) (dst : Nat) (reply : Reply) :
    Confined {dest} c (c.sealFile dest dst reply).2 ∧
      (c.sealFile dest dst reply).2.node = c.node ∧
      ((c.sealFile dest dst reply).1.ok = true →
        (c.sealFile dest dst reply).2.service.server.objects.find dest ≠ none) := by
  have hrecorded : ∀ object : Object, object.id = dest →
      Confined {dest} c { c with service := c.service.createObject object } := by
    intro object hobject
    refine ⟨⟨Node.Touches.refl h.sound, fun _ _ => rfl, fun {id} hid => ?_, rfl⟩, h.wellFormed,
      fun _ => rfl⟩
    have hne : id ≠ object.id := fun heq => hid (heq.trans hobject)
    exact AssocMap.find_insert_of_ne _ hne _
  rw [sealFile]
  by_cases hrunning : c.node.checkServiceRunning.ok = true
  · rw [if_pos hrunning]
    cases reply with
    | received =>
        refine ⟨hrecorded _ rfl, rfl, fun _ => ?_⟩
        simp [Reply.processed, MetadataService.createObject, MapServer.createObject]
    | lost reason processed =>
        cases processed with
        | true => exact ⟨hrecorded _ rfl, rfl, fun hok => by cases hok⟩
        | false => exact ⟨Confined.refl h, rfl, fun hok => by cases hok⟩
  · rw [if_neg hrunning]
    exact ⟨Confined.refl h, rfl, fun hok => absurd hok hrunning⟩

/-- The new file was made under a path that had no handle, and it is empty. -/
theorem copying_created (h : c.Ready) {src dst : Nat} {total : UInt64} {made : Node}
    {file : LocalFile} (hfind : c.node.fileHandles.find source.path = some src)
    (hreads : c.ReadsFrom source src bytes total)
    (hnone : c.node.fileHandles.find dest.path = none)
    (htouches : Node.Touches {dest.path} c.node made)
    (hcreated : made.fileHandles.find dest.path = some dst)
    (hvalid : made.isValidHandle dst = true) (hfile : made.localFile dst = some file)
    (hholds : file.Holds made.files []) :
    Copies source dest c { c with node := made } ∧
      Copying source dest src dst bytes total 0 { c with node := made } := by
  have hapart : source.path ≠ dest.path := by
    intro heq
    rw [heq] at hfind
    exact absurd (hnone.symm.trans hfind) (Option.some_ne_none src).symm
  have hsame := htouches.same source.path hapart
  have hcreation : Confined {dest} c { c with node := made } := Confined.of_file h htouches
  exact ⟨⟨hcreation.of_dest, rfl, hsame.bytesAt⟩, hcreation.ready, hapart,
    hsame.registry.trans hfind, hreads.of_node hsame hfind, hcreated, hvalid, ⟨file, hfile, hholds⟩, Nat.zero_le _⟩

/-- When all bytes are there, the copy is recorded, and both files are closed. -/
theorem Copying.sealFile_spec {src dst : Nat} {total : UInt64}
    (hcopied : Copying source dest src dst bytes total bytes.length c')
    (hall : Copies source dest c c') (h : c.Namespace) (hcontent : c.content source = some bytes)
    (hsource : slash ∉ source.bucket) (hdest : slash ∉ dest.bucket) (hfree : c.Absent dest)
    (reply : Reply) :
    (c'.sealFile dest dst reply).1.ok = false ∧
        Keeps source dest c (((c'.sealFile dest dst reply).2.closeFile dst).closeFile src) ∨
      (c'.sealFile dest dst reply).1.ok = true ∧
        Copied source dest c (((c'.sealFile dest dst reply).2.closeFile dst).closeFile src) := by
  obtain ⟨hsealing, hnode, hrecorded⟩ := @Cluster.sealFile_spec c' dest hcopied.ready dst reply
  have hne : source ∉ ({dest} : Set ObjectID) := fun heq => hcopied.apart (congrArg _ heq)
  have hconfined : Confined {source, dest} c (c'.sealFile dest dst reply).2 :=
    hall.toConfined.trans hsealing.of_dest
  have hkept : (c'.sealFile dest dst reply).2.content source = c.content source :=
    (content_congr (hsealing.server hne) (by rw [hnode]) hsealing.held).trans hall.content_source
  have hclosing := closeFiles_confined hconfined.ready src dst
  by_cases hsealed : (c'.sealFile dest dst reply).1.ok = true
  · have hbytes : (c'.sealFile dest dst reply).2.node.bytesAt dest.path = c.content source := by
      rw [hnode, hcopied.bytesAt, hcontent]
    have hcopy : Copied source dest c (c'.sealFile dest dst reply).2 :=
      ⟨hconfined, hfree, hcopied.apart, by rw [hsealing.server hne, hall.same], hkept,
        hrecorded hsealed, hbytes⟩
    exact Or.inr ⟨hsealed, hcopy.trans_nothing hclosing⟩
  · have hkeeps := hconfined.keeps h hsource hdest hkept (Or.inl hfree.1)
    exact Or.inl ⟨Bool.eq_false_iff.2 hsealed, hkeeps.trans_nothing hclosing⟩

/-- The copy of an object was begun: the object is open, and there is an empty file under the
new name, which was free. -/
structure Begun (source dest : ObjectID) (answers : RenameAnswers) (bytes : Bytes)
    (src dst : Nat) (c opened : Cluster) (made : Node) : Prop where
  opens : c.Opens source (c.record source) answers.opened answers.retried
  takes : Node.Takes source.path src c.node opened.node
  opening : Opening source c opened
  blocks : opened.cacheBlockSize = c.cacheBlockSize
  created : opened.node.create dest.bucket dest.key false answers.create = (.ok dst, made)
  free : c.Absent dest
  copies : Copies source dest c { opened with node := made }
  copying : Copying source dest src dst bytes (opened.size src) 0 { opened with node := made }

/-- How the copy ends after the download. -/
def finishCopy (answers : RenameAnswers) (dest : ObjectID) (src dst : Nat)
    (downloaded : Status × Cluster) : Status × Cluster :=
  if downloaded.1.ok then
    let sealed := downloaded.2.sealFile dest dst answers.sealReply
    (sealed.1, (sealed.2.closeFile dst).closeFile src)
  else (downloaded.1, (downloaded.2.closeFile dst).closeFile src)

/-- A copy fails and takes no bytes from any object, or it is begun and ends with the
download. -/
theorem copy_cases (h : c.Namespace) (hcontent : c.content source = some bytes)
    (hsource : slash ∉ source.bucket)
    (hspares : c.Opens source (c.record source) answers.opened answers.retried →
      c.Spares source dest answers.create) {fuel : Nat}
    {status : Status} (hrun : c.copy answers fuel source dest = some (status, c')) :
    status.ok = false ∧ Keeps source dest c c' ∨
      ∃ src dst opened made downloaded, Begun source dest answers bytes src dst c opened made ∧
        download source answers src dst (opened.size src) fuel 0 { opened with node := made } =
          some downloaded ∧ finishCopy answers dest src dst downloaded = (status, c') := by
  rw [copy] at hrun
  simp only at hrun
  by_cases hopens : c.Opens source (c.record source) answers.opened answers.retried
  case neg =>
    obtain ⟨refused, hresult, hrefused, hkeeps⟩ :=
      @openFrom_of_not_opens c source dest h hsource _ _ hopens
    simp only [hresult] at hrun
    obtain ⟨rfl, rfl⟩ := Prod.mk.inj (Option.some.inj hrun)
    exact Or.inl ⟨hrefused, hkeeps⟩
  have hspares := hspares hopens
  obtain ⟨hopening, hfailed, hfound⟩ :=
    @openFrom_spec c source [answers.opened, answers.retried] h.toReady
  have htakes := fun handle => @openFrom_takes c source answers.opened answers.retried handle
    h.toReady.sound
  have hblocks := @cacheBlockSize_openFrom c source answers.opened answers.retried
    h.toReady.sound.registered
  generalize openFrom source [answers.opened, answers.retried] c = opened at *
  obtain ⟨result, opened⟩ := opened
  cases result with
  | error failed =>
      obtain ⟨rfl, rfl⟩ := Prod.mk.inj (Option.some.inj hrun)
      exact Or.inl ⟨hfailed rfl, hopening.keeps h hsource⟩
  | ok src =>
      obtain ⟨hfind, hvalid⟩ := hfound rfl
      have hreads := hopening.readsFrom hspares.current hcontent hfind hvalid
      have hready := hopening.ready
      have hpath := hspares.pathFree hopening.noNewFile (htakes src rfl)
      rcases hready.sound.create_cases hpath with ⟨refused, hresult, hrefused, htouches⟩ |
        ⟨dst, file, made, hresult, hnone, htouches, hcreated, hmade, hfile, hholds⟩
      · -- nothing was created
        simp only [hresult] at hrun
        obtain ⟨rfl, rfl⟩ := Prod.mk.inj (Option.some.inj hrun)
        have hnothing : Confined ∅ opened { opened with
            node := (opened.node.create dest.bucket dest.key false answers.create).2 } :=
          Confined.of_node hready (htouches.mono (Set.empty_subset _))
        refine Or.inl ⟨hrefused, (hopening.keeps h hsource).trans_nothing ?_⟩
        exact hnothing.trans (Confined.closeFile hnothing.ready src)
      · obtain ⟨hbegun, hcopying⟩ :=
          copying_created hready hfind hreads hnone htouches hcreated hmade hfile hholds
        have hfree := hspares.absent hopening hcopying.apart
          (Node.opensFile_of_create_ok (congrArg Prod.fst hresult)) hnone
        simp only [hresult, hcopying.reads.size] at hrun
        cases hdownload : download source answers src dst (opened.size src) fuel 0
            { opened with node := made } with
        | none => simp [hdownload] at hrun
        | some downloaded =>
            refine Or.inr ⟨src, dst, opened, made, downloaded,
              ⟨hopens, htakes src rfl, hopening, hblocks, hresult, hfree,
                hopening.copies.trans hbegun, hcopying⟩, hdownload, ?_⟩
            simp only [hdownload] at hrun
            rw [finishCopy]
            split_ifs at hrun ⊢ <;> exact Option.some.inj hrun

/-- A copy that fails takes no bytes from any object; one that succeeds leaves the bytes of the
object under a name that was free. -/
theorem copy_spec (h : c.Namespace) (hcontent : c.content source = some bytes)
    (hsource : slash ∉ source.bucket) (hdest : slash ∉ dest.bucket)
    (hspares : c.Opens source (c.record source) answers.opened answers.retried →
      c.Spares source dest answers.create) {fuel : Nat}
    {status : Status} (hrun : c.copy answers fuel source dest = some (status, c')) :
    status.ok = false ∧ Keeps source dest c c' ∨
      status.ok = true ∧ Copied source dest c c' := by
  rcases copy_cases h hcontent hsource hspares hrun with hfailed |
    ⟨src, dst, opened, made, ⟨result, c₂⟩, hbegun, hdownload, hfinish⟩
  · exact Or.inl hfailed
  · obtain ⟨hrest, hdone⟩ := download_spec answers fuel (Nat.zero_le _) hbegun.copying hdownload
    have hall := hbegun.copies.trans hrest
    rw [finishCopy] at hfinish
    split_ifs at hfinish with hok
    · obtain ⟨rfl, rfl⟩ := Prod.mk.inj hfinish
      exact (hdone hok).2.sealFile_spec hall h hcontent hsource hdest hbegun.free answers.sealReply
    · obtain ⟨rfl, rfl⟩ := Prod.mk.inj hfinish
      refine Or.inl ⟨Bool.eq_false_iff.2 hok, ?_⟩
      exact (hall.toConfined.keeps h hsource hdest hall.content_source
        (Or.inl hbegun.free.1)).trans_nothing (closeFiles_confined hall.ready src dst)

end Copy

section Rename

/-- An object was moved to a free name. -/
structure Renamed (source dest : ObjectID) (c c' : Cluster) : Prop
    extends Confined {source, dest} c c' where
  free : c.Absent dest
  apart : source.path ≠ dest.path
  gone : c'.Absent source
  made : c'.service.server.objects.find dest ≠ none
  bytes : c'.node.bytesAt dest.path = c.content source

theorem content_of_bytesAt (hmade : c.service.server.objects.find id ≠ none)
    (hbytes : c.node.bytesAt id.path = some bytes) : c.content id = some bytes := by
  obtain ⟨info, hinfo⟩ := Option.ne_none_iff_exists'.1 hmade
  rw [content, hinfo, Option.bind_some, hbytes]

/-- The object is gone, or the metadata service did not answer and may have deleted its
entry. -/
theorem deleteObject_spec (h : c.Ready) (id : ObjectID) (reply : Reply) :
    Confined {id} c (c.deleteObject id reply).2 ∧
      ((c.deleteObject id reply).1.ok = true ∧ (c.deleteObject id reply).2.Absent id ∨
        (c.deleteObject id reply).1.ok = false ∧ (c.deleteObject id reply).2.node = c.node ∧
        ((c.deleteObject id reply).2.service.server.objects.find id = none ∨
          (c.deleteObject id reply).2.service.server = c.service.server)) := by
  have hcache : (c.service.cache.deleteObject id).2.WellFormed :=
    (MDSKVS.perform_refines h.wellFormed (.deleteObject id)).2.2
  have hothers : ∀ {other}, other ∉ ({id} : Set ObjectID) →
      (c.service.cache.deleteObject id).2.entry other = c.service.cache.entry other := by
    intro other hother
    rw [MDSKVS.deleteObject_entry h.wellFormed]
    exact Function.update_of_ne hother _ _
  have herased : ∀ {other}, other ∉ ({id} : Set ObjectID) →
      (c.service.server.deleteObject id).objects.find other =
        c.service.server.objects.find other := by
    intro other hother
    exact (AssocMap.find_erase _ _ _).trans (if_neg hother)
  have hnone : (c.service.server.deleteObject id).objects.find id = none :=
    (AssocMap.find_erase _ _ _).trans (if_pos rfl)
  cases reply with
  | lost reason processed =>
      have hrefused : c.node.deleteObject id.bucket id.key
          (unavailableError (text "Unable to execute Delete command: " ++ reason)) =
          (unavailableError (text "Unable to execute Delete command: " ++ reason), c.node) :=
        if_pos ⟨by simp [Status.ok, unavailableError], by simp [unavailableError]⟩
      rw [deleteObject]
      simp only [hrefused]
      cases processed with
      | true =>
          exact ⟨⟨⟨Node.Touches.refl h.sound, fun _ _ => rfl, herased, rfl⟩, hcache, hothers⟩,
            Or.inr ⟨rfl, trivial, Or.inl hnone⟩⟩
      | false =>
          exact ⟨⟨⟨Node.Touches.refl h.sound, fun _ _ => rfl, fun _ => rfl, rfl⟩, hcache, hothers⟩,
            Or.inr ⟨rfl, trivial, Or.inr rfl⟩⟩
  | received =>
      rw [deleteObject]
      simp only
      generalize hanswer : (if (c.service.server.objects.find id).isSome then okStatus
        else notFoundError []) = answer
      have haccepted : ¬ (answer.ok = false ∧ answer.code ≠ .notFound) := by
        rw [← hanswer]
        split_ifs <;> simp [Status.ok, okStatus, notFoundError]
      rcases @Node.Sound.deleteObject_cases c.node id.bucket id.key h.sound answer with
        ⟨-, hrefused⟩ | ⟨hok, htouches, hgone⟩
      · exact absurd hrefused haccepted
      · refine ⟨⟨⟨?_, fun _ _ => rfl, herased, rfl⟩, hcache, hothers⟩,
          Or.inl ⟨by rw [hok]; rfl, hnone, hgone⟩⟩
        rwa [Set.image_singleton]

/-- A rename moves one object to a free name, or it fails, and the bytes of the object are then
under its old or its new name. -/
theorem rename_spec (h : c.Namespace) (hcontent : c.content source = some bytes)
    (hsource : slash ∉ source.bucket) (hdest : slash ∉ dest.bucket)
    (hspares : c.Opens source (c.record source) answers.opened answers.retried →
      c.Spares source dest answers.create) {fuel : Nat}
    {status : Status} (hrun : c.rename answers fuel source dest = some (status, c')) :
    status.ok = false ∧ Confined {source, dest} c c' ∧ (∀ id bytes, c.content id = some bytes →
        c'.content id = some bytes ∨ id = source ∧ c'.content dest = some bytes) ∨
      status.ok = true ∧ Renamed source dest c c' := by
  rw [rename] at hrun
  cases hcopy : c.copy answers fuel source dest with
  | none => simp [hcopy] at hrun
  | some copied =>
      obtain ⟨result, c₁⟩ := copied
      simp only [hcopy] at hrun
      rcases copy_spec h hcontent hsource hdest hspares hcopy with
        ⟨hfailed, hkeeps⟩ | ⟨hok, hcopied⟩
      · rw [if_neg (by simp [hfailed])] at hrun
        obtain ⟨rfl, rfl⟩ := Prod.mk.inj (Option.some.inj hrun)
        exact Or.inl ⟨hfailed, hkeeps.toConfined, fun _ _ hid => Or.inl (hkeeps.content hid)⟩
      · rw [if_pos hok] at hrun
        have hdeletion := deleteObject_spec hcopied.ready source answers.deleteReply
        rw [Option.some.inj hrun] at hdeletion
        obtain ⟨hconfined, hdeleted⟩ := hdeletion
        have hne : dest ∉ ({source} : Set ObjectID) :=
          fun heq => hcopied.apart (congrArg ObjectID.path heq).symm
        have hpath := path_not_touched_one (Ne.symm hcopied.apart)
        have hmade : c'.service.server.objects.find dest ≠ none := by
          rw [hconfined.server hne]
          exact hcopied.made
        have hbytes : c'.node.bytesAt dest.path = c.content source :=
          (hconfined.node.same _ hpath).bytesAt.trans hcopied.bytes
        have hboth : Confined {source, dest} c c' := hcopied.toConfined.trans hconfined.of_source
        rcases hdeleted with ⟨hok, hgone⟩ | ⟨hfailed, hnode, hserver⟩
        · exact Or.inr ⟨hok, hboth, hcopied.free, hcopied.apart, hgone, hmade, hbytes⟩
        · refine Or.inl ⟨hfailed, hboth, fun id bytes hid => ?_⟩
          have hkeeps := hcopied.toConfined.keeps h hsource hdest hcopied.kept
            (Or.inl hcopied.free.1)
          by_cases heq : id = source
          · rw [heq] at hid ⊢
            exact Or.inr ⟨rfl, content_of_bytesAt hmade (hbytes.trans hid)⟩
          · obtain ⟨info, hinfo⟩ := exists_of_content hid
            refine Or.inl ?_
            rw [hconfined.kept (by rintro _ rfl; exact hsource) (h.buckets hinfo) heq,
              hkeeps.content hid]

end Rename

end Cluster

end GEDS
