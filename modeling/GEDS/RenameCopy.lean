/-
Copying one object.  Opening it and reading it leave all bytes where they are; the copy is
made under a free name and has the bytes of the object when the download ends.
-/
import GEDS.NodeContents
import GEDS.Rename

namespace GEDS

open Status

namespace Cluster

/-- What a location holds of an object, as far as the size goes. -/
def heldBytes (c : Cluster) (id : ObjectID) (info : ObjectInfo) : Option Bytes :=
  (c.held info.location id).map (·.take info.size.toNat)

/-- The bytes of an object: those of its local file, or what its location holds. -/
def content (c : Cluster) (id : ObjectID) : Option Bytes :=
  (c.service.server.objects.find id).bind fun info =>
    match c.node.bytesAt id.path with
    | some bytes => some bytes
    | none => c.heldBytes id info

/-- The size is the one that the metadata service has, and the location holds the same bytes as
the one that the metadata service has. -/
def UpToDate (c : Cluster) (id : ObjectID) (info : ObjectInfo) : Prop :=
  ∃ current, c.service.server.objects.find id = some current ∧ info.size = current.size ∧
    c.heldBytes id info = c.heldBytes id current

/-- What is cached of an object is not out of date. -/
def CacheCurrent (c : Cluster) (id : ObjectID) : Prop :=
  ∀ object, c.service.cache.entry id = some object → c.UpToDate id object.info

/-- What a valid handle knows of its object is not out of date; without a valid handle, what is
cached of the object. -/
structure Current (c : Cluster) (id : ObjectID) : Prop where
  cached : c.node.validHandle id.path = none → c.CacheCurrent id
  opened : ∀ {handle}, c.node.validHandle id.path = some handle → c.node.localFile handle = none →
    ∃ info, c.infos.find handle = some info ∧ c.UpToDate id info

/-- The node is sound, and its cache is built as it should be. -/
structure Ready (c : Cluster) : Prop where
  sound : c.node.Sound
  wellFormed : c.service.cache.WellFormed

/-- All but some objects are left as they are, whatever is cached. -/
structure Leaves (touched : Set ObjectID) (c c' : Cluster) : Prop where
  node : Node.Touches (ObjectID.path '' touched) c.node c'.node
  infos : ∀ {path handle}, path ∉ ObjectID.path '' touched →
    c.node.fileHandles.find path = some handle → c'.infos.find handle = c.infos.find handle
  server : ∀ {id}, id ∉ touched →
    c'.service.server.objects.find id = c.service.server.objects.find id
  held : c'.held = c.held

/-- All but some objects are left as they are, and so is what is cached of them. -/
structure Confined (touched : Set ObjectID) (c c' : Cluster) : Prop
    extends Leaves touched c c' where
  wellFormed : c'.service.cache.WellFormed
  cached : ∀ {id}, id ∉ touched → c'.service.cache.entry id = c.service.cache.entry id

variable {c c' c'' : Cluster} {touched : Set ObjectID} {id : ObjectID}

section Confined

theorem lookup_congr {server server' : MapServer}
    (hsame : server'.objects.find id = server.objects.find id) :
    server'.lookup id = server.lookup id := by
  rw [MapServer.lookup, MapServer.lookup, hsame]

theorem heldBytes_congr (hheld : c'.held = c.held) : c'.heldBytes = c.heldBytes := by
  funext id info
  rw [heldBytes, heldBytes, hheld]

theorem UpToDate.of_server {info : ObjectInfo}
    (hinfo : c.service.server.objects.find id = some info) : c.UpToDate id info :=
  ⟨info, hinfo, rfl, rfl⟩

theorem UpToDate.congr {info : ObjectInfo} (h : c.UpToDate id info)
    (hserver : c'.service.server.objects.find id = c.service.server.objects.find id)
    (hheld : c'.held = c.held) : c'.UpToDate id info := by
  rw [UpToDate, hserver, heldBytes_congr hheld]
  exact h

theorem path_not_touched_nothing (path : Bytes) : path ∉ ObjectID.path '' (∅ : Set ObjectID) := by
  rw [Set.image_empty]
  exact Set.notMem_empty path

theorem path_not_touched_one {path : Bytes} (hne : path ≠ id.path) :
    path ∉ ObjectID.path '' ({id} : Set ObjectID) := by
  rwa [Set.image_singleton]

theorem Confined.ready (h : Confined touched c c') : c'.Ready := ⟨h.node.sound, h.wellFormed⟩

theorem Confined.refl (h : c.Ready) : Confined touched c c :=
  ⟨⟨Node.Touches.refl h.sound, fun _ _ => rfl, fun _ => rfl, rfl⟩, h.wellFormed, fun _ => rfl⟩

theorem Leaves.trans (hfirst : Leaves touched c c') (hsecond : Leaves touched c' c'') :
    Leaves touched c c'' where
  node := hfirst.node.trans hsecond.node
  infos hpath hfind := by
    have hsame := hfirst.node.same _ hpath
    exact (hsecond.infos hpath (hsame.registry.trans hfind)).trans (hfirst.infos hpath hfind)
  server hid := (hsecond.server hid).trans (hfirst.server hid)
  held := hsecond.held.trans hfirst.held

theorem Leaves.mono (h : Leaves touched c c') {more : Set ObjectID} (hmore : touched ⊆ more) :
    Leaves more c c' where
  node := h.node.mono (Set.image_mono hmore)
  infos hpath hfind := h.infos (fun hmem => hpath (Set.image_mono hmore hmem)) hfind
  server hid := h.server fun hmem => hid (hmore hmem)
  held := h.held

theorem Confined.trans (hfirst : Confined touched c c') (hsecond : Confined touched c' c'') :
    Confined touched c c'' where
  toLeaves := hfirst.toLeaves.trans hsecond.toLeaves
  wellFormed := hsecond.wellFormed
  cached hid := (hsecond.cached hid).trans (hfirst.cached hid)

theorem Confined.mono (h : Confined touched c c') {more : Set ObjectID} (hmore : touched ⊆ more) :
    Confined more c c' where
  toLeaves := h.toLeaves.mono hmore
  wellFormed := h.wellFormed
  cached hid := h.cached fun hmem => hid (hmore hmem)

/-- Only the files of the node change. -/
theorem Confined.of_node (h : c.Ready) {node : Node}
    (htouches : Node.Touches (ObjectID.path '' touched) c.node node) :
    Confined touched c { c with node := node } where
  node := htouches
  infos _ _ := rfl
  wellFormed := h.wellFormed
  server _ := rfl
  cached _ := rfl
  held := rfl

theorem Confined.of_file (h : c.Ready) {node : Node}
    (htouches : Node.Touches {id.path} c.node node) : Confined {id} c { c with node := node } := by
  apply Confined.of_node h
  rwa [Set.image_singleton]

/-- One of two objects is touched. -/
theorem Confined.of_source {source dest : ObjectID} (h : Confined {source} c c') :
    Confined {source, dest} c c' :=
  h.mono (Set.singleton_subset_iff.2 (Set.mem_insert source {dest}))

theorem Confined.of_dest {source dest : ObjectID} (h : Confined {dest} c c') :
    Confined {source, dest} c c' :=
  h.mono (Set.subset_insert source {dest})

theorem Confined.closeFile (h : c.Ready) (handle : Nat) :
    Confined touched c (c.closeFile handle) :=
  Confined.of_node h ((Node.touches_closeFile h.sound handle).mono (Set.empty_subset _))

theorem Leaves.content (h : Leaves touched c c') (hid : id ∉ touched)
    (hpath : id.path ∉ ObjectID.path '' touched) : c'.content id = c.content id := by
  rw [Cluster.content, Cluster.content, h.server hid, heldBytes_congr h.held,
    (h.node.same _ hpath).bytesAt]

theorem Confined.current (h : Confined touched c c') (hid : id ∉ touched)
    (hpath : id.path ∉ ObjectID.path '' touched) (hcurrent : c.Current id) : c'.Current id where
  cached hnone object hentry := by
    rw [(h.node.same _ hpath).validHandle] at hnone
    have hknown := hcurrent.cached hnone object ((h.cached hid).symm.trans hentry)
    exact hknown.congr (h.server hid) h.held
  opened {handle} hvalid hfile := by
    have hsame := h.node.same _ hpath
    rw [hsame.validHandle] at hvalid
    have hfind := (Node.validHandle_eq_some_iff.1 hvalid).1
    rw [hsame.file hfind] at hfile
    obtain ⟨info, hinfo, hknown⟩ := hcurrent.opened hvalid hfile
    exact ⟨info, (h.infos hpath hfind).trans hinfo, hknown.congr (h.server hid) h.held⟩

end Confined

section Lookup

/-- The cluster with another cache of the metadata service. -/
def withCache (c : Cluster) (cache : MDSKVS) : Cluster :=
  { c with service := { c.service with cache := cache } }

/-- At most the cache changes, and it learns of one object what the metadata service has. -/
structure Recached (id : ObjectID) (c c' : Cluster) : Prop where
  eq : c' = c.withCache c'.service.cache
  wellFormed : c'.service.cache.WellFormed
  others : ∀ {other}, other ≠ id → c'.service.cache.entry other = c.service.cache.entry other
  own : c'.service.cache.entry id = c.service.cache.entry id ∨
    c'.service.cache.entry id = (c.service.server.lookup id).toOption

theorem Recached.refl (hwf : c.service.cache.WellFormed) : Recached id c c :=
  ⟨rfl, hwf, fun _ => rfl, Or.inl rfl⟩

theorem Recached.server (h : Recached id c c') : c'.service.server = c.service.server := by
  rw [h.eq]
  rfl

theorem Recached.trans (hfirst : Recached id c c') (hsecond : Recached id c' c'') :
    Recached id c c'' where
  eq := by
    rw [hsecond.eq, hfirst.eq]
    rfl
  wellFormed := hsecond.wellFormed
  others hother := (hsecond.others hother).trans (hfirst.others hother)
  own := by
    rcases hsecond.own with hsame | hnew
    · rw [hsame]
      exact hfirst.own
    · rw [hnew, hfirst.server]
      exact Or.inr rfl

theorem Recached.confined (h : Recached id c c') (hready : c.Ready) : Confined {id} c c' where
  node := by
    rw [h.eq]
    exact Node.Touches.refl hready.sound
  infos _ _ := by
    rw [h.eq]
    rfl
  wellFormed := h.wellFormed
  server _ := by rw [h.server]
  cached hother := h.others hother
  held := by
    rw [h.eq]
    rfl

theorem Recached.held (h : Recached id c c') : c'.held = c.held := by
  rw [h.eq]
  rfl

theorem Recached.upToDate (h : Recached id c c') {info : ObjectInfo} (hknown : c.UpToDate id info) :
    c'.UpToDate id info :=
  hknown.congr (by rw [h.server]) h.held

theorem lookup_ok {server : MapServer} {object : Object} (hlookup : server.lookup id = .ok object) :
    object.id = id ∧ server.objects.find id = some object.info :=
  (MetadataService.lookup_eq_ok_iff id object).1 hlookup

theorem Recached.cached (h : Recached id c c') (hcached : c.CacheCurrent id) :
    c'.CacheCurrent id := by
  intro object hentry
  apply h.upToDate
  rcases h.own with hsame | hnew
  · exact hcached object (hsame.symm.trans hentry)
  · have hserver := toOption_eq_some_iff.1 (hnew.symm.trans hentry)
    exact UpToDate.of_server (lookup_ok hserver).2

/-- The cluster is as before but for the cache, a failure is reported as one, and what was
found is as it should be. -/
structure Asked {α : Type} (id : ObjectID) (c : Cluster) (found : α → Prop)
    (answer : Except Status α × Cluster) : Prop where
  recached : Recached id c answer.2
  failed : ∀ {status}, answer.1 = .error status → status.ok = false
  known : ∀ {result}, answer.1 = .ok result → found result

section Asked

variable {α : Type} {found : α → Prop}

theorem Asked.error (hrecached : Recached id c c') {status : Status} (hfailed : status.ok = false) :
    Asked id c found (.error status, c') := by
  refine ⟨hrecached, fun hstatus => ?_, fun hresult => by cases hresult⟩
  rwa [← Except.error.inj hstatus]

theorem Asked.ok (hrecached : Recached id c c') {result : α} (hfound : found result) :
    Asked id c found (.ok result, c') := by
  refine ⟨hrecached, (fun hstatus => by cases hstatus), fun hresult => ?_⟩
  rwa [← Except.ok.inj hresult]

end Asked

/-- The metadata service is asked: what it has is cached. -/
theorem asked_lookupRemote (hwf : c.service.cache.WellFormed) (id : ObjectID) :
    Asked id c (fun object => c.service.server.lookup id = .ok object)
      ((c.service.lookupRemote id).1, { c with service := (c.service.lookupRemote id).2 }) := by
  rw [MetadataService.lookupRemote]
  cases hlookup : c.service.server.lookup id with
  | error status =>
      refine Asked.error (Recached.refl hwf) ?_
      rw [MapServer.lookup] at hlookup
      cases hfind : c.service.server.objects.find id with
      | none =>
          rw [hfind] at hlookup
          rw [← Except.error.inj hlookup]
          rfl
      | some info =>
          rw [hfind] at hlookup
          cases hlookup
  | ok object =>
      refine Asked.ok ?_ rfl
      obtain ⟨hid, -⟩ := lookup_ok hlookup
      have hentry := MDSKVS.createObject_entry hwf object
      refine ⟨rfl, (MDSKVS.perform_refines hwf (.createObject object true)).2.2, ?_, Or.inr ?_⟩
      · intro other hother
        refine (congrFun hentry other).trans (Function.update_of_ne ?_ _ _)
        rwa [hid]
      · refine (congrFun hentry id).trans ?_
        rw [hlookup, ← hid, Function.update_self]
        rfl

theorem lookup_of_entry {cached : Object} (hentry : c.service.cache.entry id = some cached)
    (failure : Option Bytes) : c.lookup id false failure = (.ok cached, c) := by
  have hcache : c.service.cache.lookup id = .ok cached := toOption_eq_some_iff.1 hentry
  cases failure <;> simp only [lookup, MetadataService.lookup, hcache] <;> rfl

theorem lookup_of_no_entry (hentry : c.service.cache.entry id = none) :
    c.lookup id false none =
      ((c.service.lookupRemote id).1, { c with service := (c.service.lookupRemote id).2 }) := by
  cases hcache : c.service.cache.lookup id with
  | ok cached => simp [MDSKVS.entry, hcache, Except.toOption] at hentry
  | error missing =>
      simp only [lookup, MetadataService.lookup, hcache, Bool.false_eq_true, ↓reduceIte]

theorem lookup_unreached (hentry : c.service.cache.entry id = none) (reason : Bytes) :
    c.lookup id false (some reason) =
      (.error (unavailableError (text "Unable to execute Lookup command: " ++ reason)), c) := by
  cases hcache : c.service.cache.lookup id with
  | ok cached => simp [MDSKVS.entry, hcache, Except.toOption] at hentry
  | error missing => simp only [lookup, hcache, Bool.false_eq_true, ↓reduceIte]

/-- What a lookup finds is in the cache or on the metadata service. -/
theorem asked_lookup (hwf : c.service.cache.WellFormed) (id : ObjectID) (invalidate : Bool)
    (failure : Option Bytes) :
    Asked id c (fun object => c.service.server.lookup id = .ok object ∨
      invalidate = false ∧ c.service.cache.entry id = some object)
      (c.lookup id invalidate failure) := by
  obtain ⟨hremote, hfailed, hfound⟩ := asked_lookupRemote hwf id
  cases invalidate with
  | true =>
      cases failure with
      | some reason => exact Asked.error (Recached.refl hwf) rfl
      | none => exact ⟨hremote, hfailed, fun hresult => Or.inl (hfound hresult)⟩
  | false =>
      cases hentry : c.service.cache.entry id with
      | some object =>
          rw [lookup_of_entry hentry]
          exact Asked.ok (Recached.refl hwf) (Or.inr ⟨rfl, rfl⟩)
      | none =>
          cases failure with
          | some reason =>
              rw [lookup_unreached hentry]
              exact Asked.error (Recached.refl hwf) rfl
          | none =>
              rw [lookup_of_no_entry hentry]
              exact ⟨hremote, hfailed, fun hresult => Or.inl (hfound hresult)⟩

/-- A file that is opened anew is where the metadata service says. -/
theorem asked_reopenInvalidated (hwf : c.service.cache.WellFormed) (id : ObjectID)
    (answer : ReopenAnswer) :
    Asked id c (fun info => c.service.server.objects.find id = some info)
      (c.reopenInvalidated id answer) := by
  obtain ⟨hrecached, hfailed, hfound⟩ := asked_lookup hwf id true answer.lookup
  rw [reopenInvalidated]
  generalize c.lookup id true answer.lookup = looked at hrecached hfailed hfound
  obtain ⟨result, looked⟩ := looked
  cases result with
  | error status => exact Asked.error hrecached (hfailed rfl)
  | ok object =>
      have hserver := (hfound rfl).resolve_right fun h => Bool.noConfusion h.1
      simp only
      split_ifs
      · cases answer.factory with
        | some status => exact Asked.error hrecached status.property
        | none => exact Asked.ok hrecached (lookup_ok hserver).2
      · exact Asked.error hrecached rfl

theorem asked_reopenFileHandle (hwf : c.service.cache.WellFormed) (id : ObjectID)
    (answers : ReopenAnswer × ReopenAnswer) :
    Asked id c (fun info => c.CacheCurrent id → c.UpToDate id info)
      (c.reopenFileHandle id answers) := by
  obtain ⟨hrecached, hfailed, hfound⟩ := asked_lookup hwf id false answers.1.lookup
  rw [reopenFileHandle]
  generalize c.lookup id false answers.1.lookup = looked at hrecached hfailed hfound
  obtain ⟨result, looked⟩ := looked
  cases result with
  | error status => exact Asked.error hrecached (hfailed rfl)
  | ok object =>
      have hknown : c.CacheCurrent id → c.UpToDate id object.info := fun hcached =>
        (hfound rfl).elim (fun hserver => UpToDate.of_server (lookup_ok hserver).2)
          fun hentry => hcached object hentry.2
      simp only
      split_ifs
      · cases answers.1.factory with
        | some status =>
            obtain ⟨hagain, hfailed, hfound⟩ :=
              asked_reopenInvalidated hrecached.wellFormed id answers.2
            rw [hrecached.server] at hfound
            exact ⟨hrecached.trans hagain, hfailed,
              fun hresult _ => UpToDate.of_server (hfound hresult)⟩
        | none => exact Asked.ok hrecached hknown
      · exact Asked.error hrecached rfl

end Lookup

section Open

/-- A file was opened: the registry may have another handle under its name, and all objects
have the bytes they had. -/
structure Opening (id : ObjectID) (c c' : Cluster) : Prop extends Confined {id} c c' where
  noNewFile : Node.NoNewFile c.node c'.node
  bytes : c'.node.bytesAt id.path = c.node.bytesAt id.path
  same : c'.service.server = c.service.server
  current : c.Current id → c'.Current id

theorem Opening.trans (hfirst : Opening id c c') (hsecond : Opening id c' c'') :
    Opening id c c'' where
  toConfined := hfirst.toConfined.trans hsecond.toConfined
  noNewFile := hfirst.noNewFile.trans hsecond.noNewFile
  bytes := hsecond.bytes.trans hfirst.bytes
  same := hsecond.same.trans hfirst.same
  current hcurrent := hsecond.current (hfirst.current hcurrent)

/-- Only counters of handles change, or handles that nobody has are destroyed. -/
theorem Opening.of_node (h : c.Ready) {node : Node}
    (htouches : Node.Touches ∅ c.node node) (hno : Node.NoNewFile c.node node) :
    Opening id c { c with node := node } where
  toConfined := Confined.of_node h (htouches.mono (Set.empty_subset _))
  noNewFile := hno
  bytes := (htouches.same _ (Set.notMem_empty _)).bytesAt
  same := rfl
  current hcurrent := by
    have hnothing : Confined ∅ c { c with node := node } :=
      Confined.of_node h (htouches.mono (Set.empty_subset _))
    exact hnothing.current (Set.notMem_empty _) (path_not_touched_nothing _) hcurrent

theorem Recached.opening (h : Recached id c c') (hready : c.Ready) : Opening id c c' where
  toConfined := h.confined hready
  noNewFile := by
    rw [h.eq]
    exact Node.noNewFile_refl
  bytes := by
    rw [h.eq]
    rfl
  same := h.server
  current hcurrent := by
    have hnode : c'.node = c.node := by
      rw [h.eq]
      rfl
    refine ⟨fun hnone => h.cached (hcurrent.cached (hnode ▸ hnone)), ?_⟩
    rw [h.eq]
    exact hcurrent.opened

/-- A name is taken out of the registry that had no valid handle under it. -/
theorem Opening.of_removed (h : c.Ready) {kept : ConcurrentMap Bytes Nat}
    (hkept : ∀ other, other = id.path ∧ kept.find other = none ∨
      kept.find other = c.node.fileHandles.find other)
    (hgone : kept.find id.path = none) (hnone : c.node.validHandle id.path = none) :
    Opening id c { c with node := { c.node with fileHandles := kept } } where
  toConfined := Confined.of_file h (Node.touches_removed h.sound hkept)
  noNewFile := ⟨rfl, rfl, rfl, fun hfile => hfile⟩
  bytes := by
    rw [Node.bytesAt_eq_none hnone, Node.bytesAt]
    simp only [hgone, Option.bind_none]
  same := rfl
  current hcurrent := by
    refine ⟨fun _ => hcurrent.cached hnone, fun {handle} hvalid => ?_⟩
    exact absurd (hgone.symm.trans (Node.validHandle_eq_some_iff.1 hvalid).1)
      (Option.some_ne_none handle).symm

/-- A handle without a file is made for the object; what it knows is not out of date if the cache
was not. -/
theorem Opening.addRemote (h : Opening id c c') (hbefore : c.node.validHandle id.path = none)
    (hnone : c'.node.fileHandles.find id.path = none) {info : ObjectInfo}
    (hinfo : c.CacheCurrent id → c'.UpToDate id info) :
    Opening id c
      { c' with
        node :=
          { (c'.node.addHandle id.bucket id.key none).2 with
            fileHandles := c'.node.fileHandles.insert id.path c'.node.nextHandle }
        infos := c'.infos.insert c'.node.nextHandle info } where
  toConfined := by
    have hsound := h.node.sound
    refine h.toConfined.trans ⟨⟨?_, fun _ hfind => ?_, fun _ => rfl, rfl⟩, h.wellFormed,
      fun _ => rfl⟩
    · rw [Set.image_singleton]
      exact Node.touches_addRemote hsound id.bucket id.key id.path
    · exact AssocMap.find_insert_of_ne _ (Nat.ne_of_lt (hsound.registered _ _ hfind)) _
  noNewFile := h.noNewFile.trans (Node.noNewFile_addRemote _ _ _)
  bytes := by
    rw [← h.bytes]
    simp only [Node.bytesAt, OrderedMap.find_insert, ↓reduceIte, hnone, Option.bind_some,
      Option.bind_none]
    split_ifs
    · simp [Node.localFile, Node.addHandle]
    · rfl
  same := h.same
  current hcurrent := by
    have hcached : c'.CacheCurrent id :=
      (h.current hcurrent).cached (Node.validHandle_of_free hnone)
    refine ⟨fun _ => hcached, fun {handle} hvalid _ => ?_⟩
    obtain rfl : c'.node.nextHandle = handle := by
      simpa only [OrderedMap.find_insert, ↓reduceIte, Option.some.injEq] using
        (Node.validHandle_eq_some_iff.1 hvalid).1
    exact ⟨info, AssocMap.find_insert_self _ _ _, hinfo (hcurrent.cached hbefore)⟩

/-- A handle is found in the registry or made for what the metadata service has. -/
theorem openAsFileHandle_spec (h : c.Ready) (answers : ReopenAnswer × ReopenAnswer) :
    Opening id c (c.openAsFileHandle id answers).2 ∧
      (∀ {status}, (c.openAsFileHandle id answers).1 = .error status → status.ok = false) ∧
      ∀ {handle}, (c.openAsFileHandle id answers).1 = .ok handle →
        (c.openAsFileHandle id answers).2.node.fileHandles.find id.path = some handle := by
  have hnothing : Opening id c c :=
    Opening.of_node h (Node.Touches.refl h.sound) Node.noNewFile_refl
  rw [openAsFileHandle]
  by_cases hrunning : c.node.checkServiceRunning.ok = true
  · by_cases hvalid : (isValid id.bucket id.key).ok = true
    · simp only [hrunning, hvalid, ↓reduceIte, ConcurrentMap.get]
      cases hfind : c.node.fileHandles.find id.path with
      | some handle =>
          have htouches := Node.touches_addReference h.sound handle
          refine ⟨Opening.of_node h htouches (Node.noNewFile_modifyHandle _ fun _ => rfl),
            (fun hstatus => by cases hstatus), fun hresult => ?_⟩
          obtain rfl := Except.ok.inj hresult
          exact (htouches.same _ (Set.notMem_empty _)).registry.trans hfind
      | none =>
          obtain ⟨hrecached, hfailed, hfound⟩ :=
            asked_reopenFileHandle h.wellFormed id answers
          have hreopened := hrecached.opening h
          have hnone : (c.reopenFileHandle id answers).2.node.fileHandles.find id.path = none := by
            rw [hrecached.eq]
            exact hfind
          simp only
          generalize c.reopenFileHandle id answers = reopened at *
          obtain ⟨result, reopened⟩ := reopened
          cases result with
          | error status =>
              refine ⟨hreopened, fun hstatus => ?_, (fun hresult => by cases hresult)⟩
              rw [← Except.error.inj hstatus]
              exact hfailed rfl
          | ok info =>
              have hinfo : c.CacheCurrent id → reopened.UpToDate id info :=
                fun hcached => hrecached.upToDate (hfound rfl hcached)
              have hnone' : (reopened.node.addHandle id.bucket id.key none).2.fileHandles.find
                  id.path = none := hnone
              simp only [ConcurrentMap.insertOrExists, hnone']
              refine ⟨hreopened.addRemote (Node.validHandle_of_free hfind) hnone hinfo,
                (fun hstatus => by cases hstatus), fun hresult => ?_⟩
              obtain rfl := Except.ok.inj hresult
              exact (OrderedMap.find_insert _ _ _ _).trans (if_pos rfl)
    · simp only [hrunning, hvalid, ↓reduceIte]
      refine ⟨hnothing, fun hstatus => ?_, (fun hresult => by cases hresult)⟩
      rw [← Except.error.inj hstatus]
      exact Bool.eq_false_iff.2 hvalid
  · simp only [hrunning]
    refine ⟨hnothing, fun hstatus => ?_, (fun hresult => by cases hresult)⟩
    rw [← Except.error.inj hstatus]
    exact Bool.eq_false_iff.2 hrunning

/-- An opened object has a valid handle, and its bytes are where they were. -/
theorem openFrom_spec (attempts : List (ReopenAnswer × ReopenAnswer)) (h : c.Ready) :
    Opening id c (openFrom id attempts c).2 ∧
      (∀ {status}, (openFrom id attempts c).1 = .error status → status.ok = false) ∧
      ∀ {handle}, (openFrom id attempts c).1 = .ok handle →
        (openFrom id attempts c).2.node.fileHandles.find id.path = some handle ∧
        (openFrom id attempts c).2.node.isValidHandle handle = true := by
  induction attempts generalizing c with
  | nil =>
      refine ⟨Opening.of_node h (Node.Touches.refl h.sound) Node.noNewFile_refl,
        fun hstatus => ?_, (fun hresult => by cases hresult)⟩
      rw [← Except.error.inj hstatus]
      rfl
  | cons answers attempts ih =>
      obtain ⟨hopening, hfailed, hfound⟩ := openAsFileHandle_spec h answers
      rw [openFrom]
      generalize c.openAsFileHandle id answers = found at *
      obtain ⟨result, found⟩ := found
      cases result with
      | error status =>
          refine ⟨hopening, fun hstatus => ?_, (fun hresult => by cases hresult)⟩
          rw [← Except.error.inj hstatus]
          exact hfailed rfl
      | ok handle =>
          have hfind := hfound rfl
          have hready := hopening.ready
          simp only
          split_ifs with hvalid
          · have htouches := Node.touches_exchange hready.sound handle
            have hsame := htouches.same id.path (Set.notMem_empty _)
            refine ⟨hopening.trans (Opening.of_node hready htouches
              (Node.noNewFile_exchange handle)), (fun hstatus => by cases hstatus),
              fun hresult => ?_⟩
            obtain rfl := Except.ok.inj hresult
            exact ⟨hsame.registry.trans hfind, (hsame.valid hfind).trans hvalid⟩
          · -- the invalid handle is taken out of the registry before the next attempt
            have hkept : (found.node.fileHandles.removeIf id.path fun check =>
                decide (handle = check)).2 = found.node.fileHandles.erase id.path := by
              simp only [ConcurrentMap.removeIf, hfind, decide_true, ↓reduceIte]
            have hnone : found.node.validHandle id.path = none := by
              rw [Node.validHandle, hfind, Option.filter_some, if_neg hvalid]
            have hremoved := @Opening.of_removed found id hready
              (found.node.fileHandles.erase id.path) (fun other => by
                rw [OrderedMap.find_erase]
                split_ifs with hother
                · exact Or.inl ⟨hother, rfl⟩
                · exact Or.inr rfl)
              ((OrderedMap.find_erase _ _ _).trans (if_pos rfl)) hnone
            rw [hkept]
            obtain ⟨hagain, hfailed, hfound⟩ := ih hremoved.ready
            have htouches := Node.touches_dropReference hagain.ready.sound handle
            have hsame := htouches.same id.path (Set.notMem_empty _)
            refine ⟨hopening.trans (hremoved.trans (hagain.trans (Opening.of_node hagain.ready
              htouches (Node.noNewFile_dropReference handle)))), hfailed,
              fun hresult => ?_⟩
            obtain ⟨hfind, hvalid⟩ := hfound hresult
            exact ⟨hsame.registry.trans hfind, (hsame.valid hfind).trans hvalid⟩

end Open

section Read

/-- What a handle reads, up to a size: the bytes of its file, or what is at a location that is
not out of date. -/
def ReadsFrom (c : Cluster) (id : ObjectID) (handle : Nat) (bytes : Bytes) (total : UInt64) :
    Prop :=
  match c.node.localFile handle with
  | some file =>
      file.size = total ∧ (c.node.files.content file.inode).take total.toNat = bytes
  | none => ∃ info, c.infos.find handle = some info ∧ c.UpToDate id info ∧ info.size = total ∧
      c.heldBytes id info = some bytes

variable {handle : Nat} {bytes : Bytes} {total position length : UInt64}

theorem slice_take {whole : Bytes} {start count limit : Nat} (hfit : start + count ≤ limit) :
    slice (whole.take limit) start count = slice whole start count := by
  rw [slice, slice, List.drop_take, List.take_take, min_eq_left (by omega)]

theorem ReadsFrom.remote {info : ObjectInfo} (hfile : c.node.localFile handle = none)
    (hinfo : c.infos.find handle = some info) (hknown : c.UpToDate id info)
    (hbytes : c.heldBytes id info = some bytes) : c.ReadsFrom id handle bytes info.size := by
  rw [ReadsFrom, hfile]
  exact ⟨info, hinfo, hknown, rfl, hbytes⟩

theorem ReadsFrom.length_le (hreads : c.ReadsFrom id handle bytes total) :
    bytes.length ≤ total.toNat := by
  rw [ReadsFrom] at hreads
  split at hreads
  · rw [← hreads.2]
    exact List.length_take_le _ _
  · obtain ⟨info, -, -, rfl, hbytes⟩ := hreads
    obtain ⟨whole, -, rfl⟩ := Option.map_eq_some_iff.1 hbytes
    exact List.length_take_le _ _

theorem ReadsFrom.size (hreads : c.ReadsFrom id handle bytes total) :
    c.size handle = total := by
  rw [ReadsFrom] at hreads
  rw [Cluster.size]
  cases hfile : c.node.localFile handle with
  | some file =>
      rw [hfile] at hreads
      exact hreads.1
  | none =>
      rw [hfile] at hreads
      obtain ⟨info, hinfo, -, hsize, -⟩ := hreads
      simp only [hinfo, Option.map_some, Option.getD_some, hsize]

/-- A local read inside the size of the file. -/
theorem localFile_readBytes {file : LocalFile} {files : FileSystem Bytes}
    (hfit : position.toNat + length.toNat ≤ file.size.toNat) :
    (∀ {status}, file.readBytes files position length = .error status → status.ok = false) ∧
      ∀ {got}, file.readBytes files position length = .ok got →
        got = slice (files.content file.inode) position.toNat length.toNat := by
  by_cases hhigh : position < int64Max
  · have hmin : min length.toNat (file.size.toNat - position.toNat) = length.toNat := by omega
    rw [LocalFile.readBytes_of_lt hhigh, hmin]
    refine ⟨(fun hstatus => by cases hstatus), fun hresult => ?_⟩
    rw [← Except.ok.inj hresult]
    rfl
  · rw [LocalFile.readBytes, if_pos (UInt64.not_lt.1 hhigh)]
    refine ⟨fun hstatus => ?_, (fun hresult => by cases hresult)⟩
    rw [← Except.error.inj hstatus]
    rfl

/-- A read of a place inside the size. -/
theorem readRemote_spec {info : ObjectInfo} (hinfo : c.infos.find handle = some info)
    (hbytes : c.heldBytes id info = some bytes)
    (hfit : position.toNat + length.toNat ≤ info.size.toNat) (failure : Option FailedStatus) :
    (∀ {status}, c.readRemote id handle position length failure = .error status →
        status.ok = false) ∧
      ∀ {got}, c.readRemote id handle position length failure = .ok got →
        got = slice bytes position.toNat length.toNat := by
  obtain ⟨whole, hwhole, rfl⟩ := Option.map_eq_some_iff.1 hbytes
  rw [slice_take hfit]
  unfold readRemote
  split_ifs with hzero
  · refine ⟨(fun hstatus => by cases hstatus), fun hresult => ?_⟩
    rw [← Except.ok.inj hresult, hzero]
    rfl
  · cases failure with
    | some status =>
        refine ⟨fun hstatus => ?_, (fun hresult => by cases hresult)⟩
        rw [← Except.error.inj hstatus]
        exact status.property
    | none =>
        simp only [hinfo, Option.bind_some, hwhole]
        exact ⟨(fun hstatus => by cases hstatus), fun hresult => (Except.ok.inj hresult).symm⟩

/-- A read changes no file; it may open the object anew, at the same place. -/
structure Reread (id : ObjectID) (handle : Nat) (c c' : Cluster) : Prop where
  node : c'.node = c.node
  server : c'.service.server = c.service.server
  held : c'.held = c.held
  wellFormed : c'.service.cache.WellFormed
  others : ∀ {other}, other ≠ id → c'.service.cache.entry other = c.service.cache.entry other
  infos : ∀ {other}, other ≠ handle → c'.infos.find other = c.infos.find other

theorem Recached.reread (h : Recached id c c') : Reread id handle c c' := by
  refine ⟨?_, h.server, ?_, h.wellFormed, h.others, fun _ => ?_⟩ <;>
  · rw [h.eq]
    rfl

theorem Reread.confined (h : Reread id handle c c') (hready : c.Ready)
    (hfind : c.node.fileHandles.find id.path = some handle) : Confined {id} c c' where
  node := by
    rw [h.node]
    exact Node.Touches.refl hready.sound
  infos {path other} hpath hother := by
    apply h.infos
    rintro rfl
    rw [Set.image_singleton] at hpath
    exact hpath (hready.sound.single hother hfind)
  wellFormed := h.wellFormed
  server _ := by rw [h.server]
  cached hother := h.others hother
  held := h.held

/-- A read inside the size gets bytes of the object or fails, and the handle goes on to read
the same object. -/
theorem readBytes_spec (h : c.Ready) (hreads : c.ReadsFrom id handle bytes total)
    (answers : RenameAnswers) (hfit : position.toNat + length.toNat ≤ total.toNat) :
    Reread id handle c (c.readBytes id answers handle position length).2 ∧
      (c.readBytes id answers handle position length).2.ReadsFrom id handle bytes total ∧
      (∀ {status}, (c.readBytes id answers handle position length).1 = .error status →
        status.ok = false) ∧
      ∀ {got}, (c.readBytes id answers handle position length).1 = .ok got →
        got = slice bytes position.toNat length.toNat := by
  have hsame : Reread id handle c c := (Recached.refl h.wellFormed).reread
  have hreads' := hreads
  rw [ReadsFrom] at hreads'
  rw [readBytes]
  cases hfile : c.node.localFile handle with
  | some file =>
      rw [hfile] at hreads'
      obtain ⟨hsize, hbytes⟩ := hreads'
      have hread := @localFile_readBytes position length file c.node.files (hsize ▸ hfit)
      rw [← slice_take hfit, hbytes] at hread
      simp only
      cases answers.read position with
      | some status =>
          refine ⟨hsame, hreads, fun hstatus => ?_, (fun hresult => by cases hresult)⟩
          rw [← Except.error.inj hstatus]
          exact status.property
      | none => exact ⟨hsame, hreads, hread.1, hread.2⟩
  | none =>
      rw [hfile] at hreads'
      obtain ⟨info, hinfo, hknown, rfl, hbytes⟩ := hreads'
      have hread := readRemote_spec hinfo hbytes hfit (answers.read position)
      simp only
      cases hfirst : c.readRemote id handle position length (answers.read position) with
      | ok first =>
          refine ⟨hsame, hreads, (fun hstatus => by cases hstatus), fun hresult => ?_⟩
          exact hread.2 (hfirst.trans hresult)
      | error failed =>
          obtain ⟨hrecached, hfailed, hfound⟩ :=
            asked_reopenInvalidated h.wellFormed id (answers.reopen position)
          have hreopened : Reread id handle c
              (c.reopenInvalidated id (answers.reopen position)).2 := hrecached.reread
          have hinfos : (c.reopenInvalidated id (answers.reopen position)).2.infos = c.infos := by
            rw [hrecached.eq]
            rfl
          generalize c.reopenInvalidated id (answers.reopen position) = reopened at *
          obtain ⟨result, reopened⟩ := reopened
          cases result with
          | error status =>
              refine ⟨hreopened, ?_, fun hstatus => ?_, (fun hresult => by cases hresult)⟩
              · exact ReadsFrom.remote (by rw [hreopened.node, hfile]) (by rw [hinfos, hinfo])
                  (hrecached.upToDate hknown) (by rw [heldBytes_congr hreopened.held, hbytes])
              · rw [← Except.error.inj hstatus]
                exact hfailed rfl
          | ok found =>
              -- the place that was found has the bytes that the handle read
              obtain ⟨current, hcurrent, hsize, hsame⟩ := hknown
              obtain rfl : found = current := Option.some.inj ((hfound rfl).symm.trans hcurrent)
              have hbytes' : heldBytes { reopened with
                  infos := reopened.infos.insert handle found } id found = some bytes := by
                rw [← hbytes, hsame]
                exact congrFun₂ (heldBytes_congr hreopened.held) id found
              have hagain := readRemote_spec
                (AssocMap.find_insert_self reopened.infos handle found) hbytes'
                (hsize ▸ hfit) (answers.reread position)
              refine ⟨⟨hreopened.node, hreopened.server, hreopened.held, hreopened.wellFormed,
                hreopened.others, fun hother => ?_⟩, ?_, hagain.1, hagain.2⟩
              · rw [AssocMap.find_insert_of_ne _ hother]
                exact hreopened.infos hother
              · rw [hsize]
                refine ReadsFrom.remote ?_ (AssocMap.find_insert_self _ _ _) ?_ hbytes'
                · exact (congrArg (fun node => node.localFile handle) hreopened.node).trans hfile
                · exact UpToDate.of_server ((congrArg (·.objects.find id) hreopened.server).trans
                    hcurrent)

end Read

section Download

/-- So far the copy of an object has changed no bytes but those under its new name. -/
structure Copies (source dest : ObjectID) (c c' : Cluster) : Prop
    extends Confined {source, dest} c c' where
  same : c'.service.server = c.service.server
  bytes : c'.node.bytesAt source.path = c.node.bytesAt source.path

theorem Copies.trans {source dest : ObjectID} (hfirst : Copies source dest c c')
    (hsecond : Copies source dest c' c'') : Copies source dest c c'' where
  toConfined := hfirst.toConfined.trans hsecond.toConfined
  same := hsecond.same.trans hfirst.same
  bytes := hsecond.bytes.trans hfirst.bytes

/-- The handles of a copy, and how many bytes of the object are in the new file. -/
structure Copying (source dest : ObjectID) (src dst : Nat) (bytes : Bytes) (total : UInt64)
    (count : Nat) (c : Cluster) : Prop where
  ready : c.Ready
  apart : source.path ≠ dest.path
  opened : c.node.fileHandles.find source.path = some src
  reads : c.ReadsFrom source src bytes total
  created : c.node.fileHandles.find dest.path = some dst
  valid : c.node.isValidHandle dst = true
  holds : ∃ file, c.node.localFile dst = some file ∧
    file.Holds c.node.files (bytes.take count)
  count_le : count ≤ bytes.length

variable {source dest : ObjectID} {src dst count : Nat} {bytes got : Bytes} {total : UInt64}

theorem Copying.ne (h : Copying source dest src dst bytes total count c) : src ≠ dst := by
  rintro rfl
  exact h.apart (h.ready.sound.single h.opened h.created)

theorem Copying.read (h : Copying source dest src dst bytes total count c)
    (hreread : Reread source src c c') (hreads : c'.ReadsFrom source src bytes total) :
    Copies source dest c c' ∧ Copying source dest src dst bytes total count c' := by
  have hconfined := hreread.confined h.ready h.opened
  refine ⟨⟨hconfined.of_source, hreread.server,
    by rw [hreread.node]⟩, hconfined.ready, h.apart, ?_, hreads, ?_, ?_, ?_, h.count_le⟩
  · rw [hreread.node]
    exact h.opened
  · rw [hreread.node]
    exact h.created
  · rw [hreread.node]
    exact h.valid
  · rw [hreread.node]
    exact h.holds

/-- Where the file of the source is the same, its bytes are. -/
theorem ReadsFrom.of_node (h : c.ReadsFrom source src bytes total) {node : Node}
    (hsame : Node.SameAt source.path c.node node)
    (hfind : c.node.fileHandles.find source.path = some src) :
    ReadsFrom { c with node := node } source src bytes total := by
  have hfile := hsame.file hfind
  rw [ReadsFrom] at h ⊢
  simp only [hfile]
  cases hsrc : c.node.localFile src with
  | some file =>
      rw [hsrc] at h
      simp only [hsame.content hfind hsrc]
      exact h
  | none =>
      rw [hsrc] at h
      exact h

/-- A write behind what is there: if it succeeds, the bytes are appended. -/
theorem Copying.write (h : Copying source dest src dst bytes total count c) {position : UInt64}
    (hposition : position.toNat = count) (hbounded : count + got.length < 2 ^ 64)
    (hgot : bytes.take (count + got.length) = bytes.take count ++ got)
    (hle : count + got.length ≤ bytes.length) (fault : Option WriteFault) :
    Copies source dest c { c with node := (c.node.writeBytes dst got position fault).2 } ∧
      ((c.node.writeBytes dst got position fault).1.ok = true →
        Copying source dest src dst bytes total (count + got.length)
          { c with node := (c.node.writeBytes dst got position fault).2 }) := by
  have htouches := h.ready.sound.touches_writeBytes h.created got position fault
  have hsource := htouches.same source.path h.apart
  have hconfined : Confined {dest} c
      { c with node := (c.node.writeBytes dst got position fault).2 } :=
    Confined.of_file h.ready htouches
  refine ⟨⟨hconfined.of_dest, rfl, hsource.bytesAt⟩, fun hok => ?_⟩
  obtain ⟨file, hfile, hholds⟩ := h.holds
  have hlength : (bytes.take count).length = count := by
    rw [List.length_take, min_eq_left h.count_le]
  have hplace : position = UInt64.ofNat (bytes.take count).length := by
    rw [hlength, ← hposition, UInt64.ofNat_toNat]
  have hwritten : c.node.writeBytes dst got position fault =
      ((file.writeBytes c.node.files got position fault).1,
        c.node.setFile dst (file.writeBytes c.node.files got position fault).2.1
          (file.writeBytes c.node.files got position fault).2.2) := by
    simp only [Node.writeBytes, hfile]
  have hregistry := (@Node.sameRegistry_writeBytes c.node dst got position fault).1
  have hvalid : (c.node.writeBytes dst got position fault).2.isValidHandle dst = true := by
    have hbefore := h.valid
    rw [hwritten]
    simp only [Node.isValidHandle, Node.setFile, Node.find_modifyHandle, ↓reduceIte] at hbefore ⊢
    cases hhandle : c.node.handles.find dst with
    | none => rw [hhandle] at hbefore; exact hbefore
    | some handle => rw [hhandle] at hbefore; exact hbefore
  refine ⟨hconfined.ready, h.apart, hsource.registry.trans h.opened,
    h.reads.of_node hsource h.opened, ?_, hvalid, ?_, hle⟩
  · exact (congrArg (fun map => map.find dest.path) hregistry).trans h.created
  · rw [hwritten] at hok ⊢
    refine ⟨_, Node.localFile_setFile hfile, ?_⟩
    rw [hgot]
    rw [hplace] at hok ⊢
    exact LocalFile.Holds.append hholds (by rw [hlength]; exact hbounded) hok

/-- What was read is what comes next. -/
theorem take_add_slice (bytes : Bytes) (count length : Nat) :
    bytes.take (count + (slice bytes count length).length) =
      bytes.take count ++ slice bytes count length := by
  rw [List.take_add, slice, List.length_take, ← List.take_take, List.take_length]

/-- The loop over a range: the new file gets as many bytes as it says. -/
theorem downloadRange_spec (answers : RenameAnswers) {pos length : UInt64}
    (hfit : pos.toNat + length.toNat ≤ total.toNat) (fuel : Nat) {read : UInt64}
    (hread : read.toNat ≤ length.toNat)
    (h : Copying source dest src dst bytes total (pos.toNat + read.toNat) c)
    {result : Except Status UInt64}
    (hrun : downloadRange source answers src dst pos length pos fuel read c = some (result, c')) :
    Copies source dest c c' ∧
      (∀ {status}, result = .error status → status.ok = false) ∧
      ∀ {final}, result = .ok final → final.toNat ≤ length.toNat ∧
        Copying source dest src dst bytes total (pos.toNat + final.toNat) c' := by
  induction fuel generalizing read c with
  | zero => cases hrun
  | succ fuel ih =>
      have hlt := UInt64.toNat_lt total
      have hplace : (pos + read).toNat = pos.toNat + read.toNat :=
        toNat_add_of_lt (by omega)
      have hrest : (length - read).toNat = length.toNat - read.toNat :=
        UInt64.toNat_sub_of_le _ _ (UInt64.le_iff_toNat_le.2 hread)
      have hamount : (min (length - read) c.cacheBlockSize).toNat ≤ length.toNat - read.toNat := by
        rw [UInt64.toNat_min, hrest]
        exact Nat.min_le_left _ _
      have hreadSpec := readBytes_spec h.ready h.reads answers
        (show (pos + read).toNat + (min (length - read) c.cacheBlockSize).toNat ≤ total.toNat by
          omega)
      rw [downloadRange, if_neg h.ne] at hrun
      simp only at hrun
      generalize c.readBytes source answers src (pos + read)
        (min (length - read) c.cacheBlockSize) = answer at hreadSpec hrun
      obtain ⟨gotten, c₁⟩ := answer
      obtain ⟨hreread, hreads, hfailed, hgot⟩ := hreadSpec
      obtain ⟨hcopies, hcopying⟩ := h.read hreread hreads
      cases gotten with
      | error status =>
          obtain ⟨rfl, rfl⟩ := Prod.mk.inj (Option.some.inj hrun)
          exact ⟨hcopies, fun hstatus => Except.error.inj hstatus ▸ hfailed rfl,
            fun hfinal => by cases hfinal⟩
      | ok got =>
          have hslice := hgot rfl
          rw [hplace] at hslice
          have hlength : got.length ≤ length.toNat - read.toNat ∧
              pos.toNat + read.toNat + got.length ≤ bytes.length := by
            have hle := hcopying.count_le
            rw [hslice, length_slice]
            omega
          have hnext : (read + UInt64.ofNat got.length).toNat = read.toNat + got.length :=
            toNat_add_ofNat (by omega)
          simp only at hrun
          split_ifs at hrun with hempty hwritten hmore
          · obtain ⟨rfl, rfl⟩ := Prod.mk.inj (Option.some.inj hrun)
            refine ⟨hcopies, (fun hstatus => by cases hstatus), fun hfinal => ?_⟩
            obtain rfl := Except.ok.inj hfinal
            exact ⟨hread, hcopying⟩
          all_goals
            obtain ⟨hwrites, hafter⟩ := @Copying.write c₁ source dest src dst
              (pos.toNat + read.toNat) bytes got total hcopying (pos + read) hplace (by omega)
              (by rw [hslice]; exact take_add_slice _ _ _) hlength.2 (answers.write (pos + read))
          · obtain ⟨rfl, rfl⟩ := Prod.mk.inj (Option.some.inj hrun)
            exact ⟨hcopies.trans hwrites, fun hstatus => Except.error.inj hstatus ▸ hwritten,
              fun hfinal => by cases hfinal⟩
          · have hafter := hafter (Bool.not_eq_false _ ▸ hwritten)
            rw [Nat.add_assoc, ← hnext] at hafter
            obtain ⟨hrest, hfailed, hfinal⟩ := ih (by omega) hafter hrun
            exact ⟨(hcopies.trans hwrites).trans hrest, hfailed, hfinal⟩
          · have hafter := hafter (Bool.not_eq_false _ ▸ hwritten)
            rw [Nat.add_assoc, ← hnext] at hafter
            obtain ⟨rfl, rfl⟩ := Prod.mk.inj (Option.some.inj hrun)
            refine ⟨hcopies.trans hwrites, (fun hstatus => by cases hstatus), fun hfinal => ?_⟩
            obtain rfl := Except.ok.inj hfinal
            exact ⟨by omega, hafter⟩

/-- The loop over the object: if it ends well, all bytes are in the new file. -/
theorem download_spec (answers : RenameAnswers) (fuel : Nat) {pos : UInt64}
    (hpos : pos.toNat ≤ total.toNat)
    (h : Copying source dest src dst bytes total pos.toNat c) {status : Status}
    (hrun : download source answers src dst total fuel pos c = some (status, c')) :
    Copies source dest c c' ∧
      (status.ok = true → bytes.length = total.toNat ∧
        Copying source dest src dst bytes total bytes.length c') := by
  induction fuel generalizing pos c with
  | zero => cases hrun
  | succ fuel ih =>
      have hlt := UInt64.toNat_lt total
      have hamount : (min c.cacheBlockSize (total - pos)).toNat ≤ total.toNat - pos.toNat := by
        rw [UInt64.toNat_min, UInt64.toNat_sub_of_le _ _ (UInt64.le_iff_toNat_le.2 hpos)]
        exact Nat.min_le_right _ _
      rw [download] at hrun
      cases hrange : downloadRange source answers src dst pos (min c.cacheBlockSize (total - pos))
          pos (fuel + 1) 0 c with
      | none => simp [hrange] at hrun
      | some answer =>
          obtain ⟨result, c₁⟩ := answer
          obtain ⟨hcopies, hfailed, hfinal⟩ := downloadRange_spec answers
            (show pos.toNat + (min c.cacheBlockSize (total - pos)).toNat ≤ total.toNat by omega)
            (fuel + 1) (Nat.zero_le _) h hrange
          rw [hrange] at hrun
          cases result with
          | error failed =>
              obtain ⟨rfl, rfl⟩ := Prod.mk.inj (Option.some.inj hrun)
              exact ⟨hcopies, fun hok => absurd hok (by simp [hfailed rfl])⟩
          | ok count =>
              obtain ⟨hcount, hcopying⟩ := hfinal rfl
              have hnext : (pos + count).toNat = pos.toNat + count.toNat :=
                toNat_add_of_lt (by omega)
              rw [← hnext] at hcopying
              simp only at hrun
              split_ifs at hrun with hmore
              · obtain ⟨hrest, hdone⟩ := ih (by omega) hcopying hrun
                exact ⟨hcopies.trans hrest, hdone⟩
              · obtain ⟨rfl, rfl⟩ := Prod.mk.inj (Option.some.inj hrun)
                refine ⟨hcopies, fun _ => ?_⟩
                -- no more bytes are left than the size says
                have htotal := hcopying.reads.length_le
                have hle := hcopying.count_le
                rw [UInt64.lt_iff_toNat_lt] at hmore
                have hall : (pos + count).toNat = bytes.length := by omega
                rw [hall] at hcopying
                exact ⟨by omega, hcopying⟩

end Download

end Cluster

end GEDS
