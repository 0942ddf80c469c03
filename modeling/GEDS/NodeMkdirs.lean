/-
`GEDS::mkdirs` on a node: which markers it creates, and what it does about a marker that
the node has a handle for.
-/
import GEDS.FileStatus
import GEDS.NodeContents

namespace GEDS

open Status

/-- The system calls of a creation: making the directory and opening the file. -/
structure SystemAnswers where
  mkdirFault : Option Bytes
  openFile : OpenResult

/-- The path and what is left of it when it is cut at its last delimiter, repeatedly: each
with the delimiter at its end. -/
def directoriesOf (path : Bytes) : List Bytes :=
  if path = [] ∨ path = [slash] then []
  else folderOf path ::
    match _hstrip : rfind (folderOf path).dropLast slash with
    | none => []
    | some stripPos => directoriesOf ((folderOf path).take stripPos)
termination_by path.length
decreasing_by
  have hlt := rfind_lt _hstrip
  have hfolder := length_dropLast_folderOf_le path
  rw [List.length_take]
  omega

/-- The markers of these directories. -/
def directoryMarkers (path : Bytes) : List Bytes :=
  (directoriesOf path).map (· ++ defaultDirectoryMarker)

theorem length_folderOf_le (path : Bytes) : (folderOf path).length ≤ path.length + 1 := by
  rw [folderOf]
  split_ifs <;> simp

theorem directoriesOf_of_base {path : Bytes} (hbase : path = [] ∨ path = [slash]) :
    directoriesOf path = [] := by
  rw [directoriesOf, if_pos hbase]

theorem directoriesOf_of_last {path : Bytes} (hbase : ¬ (path = [] ∨ path = [slash]))
    (hstrip : rfind (folderOf path).dropLast slash = none) :
    directoriesOf path = [folderOf path] := by
  rw [directoriesOf, if_neg hbase]
  split
  · rfl
  · simp_all

theorem directoriesOf_of_strip {path : Bytes} (hbase : ¬ (path = [] ∨ path = [slash]))
    {stripPos : Nat} (hstrip : rfind (folderOf path).dropLast slash = some stripPos) :
    directoriesOf path = folderOf path :: directoriesOf ((folderOf path).take stripPos) := by
  rw [directoriesOf, if_neg hbase]
  split
  · simp_all
  · rename_i other hother
    obtain rfl := Option.some.inj (hother.symm.trans hstrip)
    rfl

theorem length_le_of_mem_directoriesOf {path dir : Bytes} (hdir : dir ∈ directoriesOf path) :
    dir.length ≤ path.length + 1 := by
  induction path using directoriesOf.induct with
  | case1 path hbase =>
      rw [directoriesOf_of_base hbase] at hdir
      cases hdir
  | case2 path hbase ih =>
      cases hstrip : rfind (folderOf path).dropLast slash with
      | none =>
          rw [directoriesOf_of_last hbase hstrip] at hdir
          obtain rfl := List.mem_singleton.1 hdir
          exact length_folderOf_le path
      | some stripPos =>
          rw [directoriesOf_of_strip hbase hstrip] at hdir
          rcases List.mem_cons.1 hdir with rfl | hdir
          · exact length_folderOf_le path
          · have hshort := ih stripPos hstrip hdir
            have hcut := rfind_lt hstrip
            have hfolder := length_dropLast_folderOf_le path
            rw [List.length_take] at hshort
            omega

theorem directoryMarkers_of_strip {path : Bytes} (hbase : ¬ (path = [] ∨ path = [slash]))
    {stripPos : Nat} (hstrip : rfind (folderOf path).dropLast slash = some stripPos) :
    directoryMarkers path = (folderOf path ++ defaultDirectoryMarker) ::
      directoryMarkers ((folderOf path).take stripPos) := by
  rw [directoryMarkers, directoriesOf_of_strip hbase hstrip, List.map_cons, directoryMarkers]

/-- A directory is longer than those that contain it. -/
theorem ne_of_mem_directoryMarkers {path marker : Bytes} {stripPos : Nat}
    (hstrip : rfind (folderOf path).dropLast slash = some stripPos)
    (hmarker : marker ∈ directoryMarkers ((folderOf path).take stripPos)) :
    marker ≠ folderOf path ++ defaultDirectoryMarker := by
  obtain ⟨dir, hdir, rfl⟩ := List.mem_map.1 hmarker
  have hshort := length_le_of_mem_directoriesOf hdir
  have hcut := rfind_lt hstrip
  rw [List.length_take] at hshort
  rw [List.length_dropLast] at hcut
  intro heq
  have hlength := congrArg List.length (List.append_cancel_right heq)
  omega

namespace Node

variable (node : Node) (client : StatusClient)

/-- The answers to a creation, with those of the metadata server. -/
def answersOf (bucket : Bytes) (system : SystemAnswers) : CreateAnswers where
  lookupBucket := client.server.bucketStatus bucket
  createBucket := (client.server.createBucket bucket).1
  mkdirFault := system.mkdirFault
  openFile := system.openFile

/-- The server creates the bucket of a creation if it was asked to. -/
def requestBucket (bucket key : Bytes) : StatusClient :=
  if node.checkServiceRunning.ok ∧ (isValid bucket key).ok ∧
      (node.lookupBucket bucket (client.server.bucketStatus bucket)).1.ok = false then
    { client with server := (client.server.createBucket bucket).2 }
  else client

/-- The status in the value of `GEDS::create`. -/
def createdStatus : Except Status Nat → Status
  | .error status => status
  | .ok _ => okStatus

/-- The destructor of the value of `GEDS::create`. -/
def closeCreated (created : Except Status Nat) : Node :=
  match created with
  | .error _ => node
  | .ok id => node.closeFile id

/-- `GEDS::mkdirs` with the delimiter `/`; `none` if the process ends because the value of
a failed creation is used. -/
def mkdirs (hostURI : Bytes) (system : Bytes → SystemAnswers) (node : Node)
    (client : StatusClient) (bucket path : Bytes) : Option (Status × Node × StatusClient) :=
  if path = [] ∨ path = [slash] then some (okStatus, node, client)
  else
    let folderPath := folderOf path ++ defaultDirectoryMarker
    let mkdir := node.create bucket folderPath false
      (answersOf client bucket (system folderPath))
    match (requestBucket node client bucket folderPath).sealMarker hostURI bucket folderPath
        (createdStatus mkdir.1) with
    | none => none
    | some (status, client) =>
        if !status.ok && decide (status.code ≠ .alreadyExists) then
          some (status, mkdir.2.closeCreated mkdir.1, client)
        else
          match _hstrip : rfind (folderOf path).dropLast slash with
          | none => some (okStatus, mkdir.2.closeCreated mkdir.1, client)
          | some stripPos =>
              (mkdirs hostURI system mkdir.2 client bucket ((folderOf path).take stripPos)).map
                fun made => (made.1, made.2.1.closeCreated mkdir.1, made.2.2)
termination_by path.length
decreasing_by
  have hlt := rfind_lt _hstrip
  have hfolder := length_dropLast_folderOf_le path
  rw [List.length_take]
  omega

section Create

variable {node client} {bucket key hostURI : Bytes} {system : SystemAnswers}

/-- The service runs, and a bucket that the node knows is at the server. -/
structure Serves (node : Node) (client : StatusClient) (bucket : Bytes) : Prop where
  numbered : node.Numbered
  running : node.checkServiceRunning.ok = true
  wellFormed : client.server.WellFormed
  known : bucket ∈ node.knownBuckets → client.server.map.find bucket ≠ none

theorem isValidBucketName_of_isValid (hvalid : (isValid bucket key).ok = true) :
    (isValidBucketName bucket).ok = true := by
  rw [isValid] at hvalid
  split_ifs at hvalid <;> assumption

/-- With a server that answers, a valid key is created if the system calls work. -/
theorem opensFile_answersOf (hrunning : node.checkServiceRunning.ok = true)
    (hvalid : (isValid bucket key).ok = true) (hsystem : system = ⟨none, .opened⟩) :
    node.OpensFile bucket key (answersOf client bucket system) := by
  refine ⟨hrunning, hvalid, ?_, ?_, ?_⟩
  · simp only [createBucket, isValidBucketName_of_isValid hvalid, ↓reduceIte]
    split_ifs with hlooked hcreated
    · rfl
    · rfl
    · -- the server creates the bucket, or has it
      exfalso
      apply hcreated
      simp only [answersOf, MDSKVS.createBucket]
      cases client.server.map.find bucket with
      | none => exact Or.inl rfl
      | some ref => exact Or.inr rfl
  · rw [hsystem]
    rfl
  · rw [hsystem]
    rfl

theorem sameRegistry_exchange (id : Nat) :
    SameRegistry node ((node.openFile id).dropReference id) := by
  have hopened : SameRegistry node (node.openFile id) := sameRegistry_modifyHandle id _
  exact hopened.trans (sameRegistry_dropReference id)

/-- A creation under a free path registers the next handle, and nothing else changes in
the registry. -/
theorem create_of_free {answers : CreateAnswers}
    (hopens : node.OpensFile bucket key answers)
    (hfree : node.fileHandles.find (getPath bucket key) = none) :
    ∃ node', node.create bucket key false answers = (.ok node.nextHandle, node') ∧
      node'.state = node.state ∧ ∀ path, node'.fileHandles.find path =
        if path = getPath bucket key then some node.nextHandle
        else node.fileHandles.find path := by
  obtain ⟨known, hcreate⟩ := @createAsFileHandle_of_opens node bucket key false answers hopens
  have hregistered : node.createAsFileHandle bucket key false answers =
      (.ok node.nextHandle,
        { withNewFile { node with knownBuckets := known } bucket key with
          fileHandles := node.fileHandles.insert (getPath bucket key) node.nextHandle }) := by
    rw [hcreate]
    simp only [Bool.false_eq_true, ↓reduceIte, registerHandle, ConcurrentMap.insertOrExists]
    have hregistry : (withNewFile { node with knownBuckets := known } bucket key).fileHandles =
        node.fileHandles := rfl
    simp only [hregistry, hfree, ne_eq, not_true_eq_false, ↓reduceIte]
  generalize hmade : ({ withNewFile { node with knownBuckets := known } bucket key with
    fileHandles := node.fileHandles.insert (getPath bucket key) node.nextHandle } : Node) =
      made at hregistered
  have hstate : made.state = node.state := by
    rw [← hmade]
    rfl
  have hregistry : made.fileHandles =
      node.fileHandles.insert (getPath bucket key) node.nextHandle := by
    rw [← hmade]
  refine ⟨(made.openFile node.nextHandle).dropReference node.nextHandle,
    by rw [create, hregistered], ?_, fun path => ?_⟩
  · exact (noNewFile_exchange node.nextHandle).state.trans hstate
  · rw [(sameRegistry_exchange node.nextHandle).1, hregistry, OrderedMap.find_insert]
    split_ifs <;> rfl

/-- A creation under a path that is taken reports that the file exists. -/
theorem create_of_taken (hnumbered : node.Numbered) {answers : CreateAnswers}
    (hopens : node.OpensFile bucket key answers) (htaken : node.Registered (getPath bucket key)) :
    ∃ status, (node.create bucket key false answers).1 = .error status ∧ status.ok = false ∧
      status.code = .alreadyExists := by
  obtain ⟨known, hcreate⟩ := @createAsFileHandle_of_opens node bucket key false answers hopens
  obtain ⟨id, hfind⟩ := Option.ne_none_iff_exists'.1 htaken
  have hne : id ≠ node.nextHandle := Nat.ne_of_lt (hnumbered _ _ hfind)
  have hregistry : (withNewFile { node with knownBuckets := known } bucket key).fileHandles =
      node.fileHandles := rfl
  simp only [create, hcreate, Bool.false_eq_true, ↓reduceIte, registerHandle,
    ConcurrentMap.insertOrExists, hregistry, hfind, ne_eq, hne, not_false_eq_true]
  exact ⟨_, rfl, rfl, rfl⟩

/-- The bucket is at the server when the marker is registered, and what was stored stays. -/
theorem Serves.requestBucket (h : Serves node client bucket)
    (hvalid : (isValid bucket key).ok = true) :
    (node.requestBucket client bucket key).server.WellFormed ∧
      (∃ ref, (node.requestBucket client bucket key).server.map.find bucket = some ref) ∧
      ∀ id, client.server.stored id ≠ none →
        (node.requestBucket client bucket key).server.stored id ≠ none := by
  rw [Node.requestBucket]
  cases hfind : client.server.map.find bucket with
  | some ref =>
      have hlooked : (node.lookupBucket bucket (client.server.bucketStatus bucket)).1.ok = true := by
        rw [lookupBucket, MDSKVS.bucketStatus, hfind]
        split_ifs with hknown hok
        · rfl
        · rfl
        · exact absurd rfl hok
      simp only [hlooked, Bool.true_eq_false, and_false, ↓reduceIte]
      exact ⟨h.wellFormed, ⟨ref, hfind⟩, fun id hstored => hstored⟩
  | none =>
      have hunknown : bucket ∉ node.knownBuckets := fun hknown => h.known hknown hfind
      have hfailed : (node.lookupBucket bucket (client.server.bucketStatus bucket)).1.ok = false := by
        simp only [lookupBucket, MDSKVS.bucketStatus, hfind, hunknown, ↓reduceIte]
        rfl
      obtain ⟨-, hcreated, hcontents, hwf⟩ := MDSKVS.createBucket_refines h.wellFormed hfind
      rw [if_pos ⟨h.running, hvalid, hfailed⟩]
      refine ⟨hwf, ⟨_, hcreated⟩, fun id hstored => ?_⟩
      have hother : id.bucket ≠ bucket := by
        rintro rfl
        rw [MDSKVS.stored, (MDSKVS.contents_eq_none_iff _ _).2 hfind] at hstored
        exact hstored rfl
      change (client.server.createBucket bucket).2.stored id ≠ none
      rw [MDSKVS.stored, hcontents, Function.update_of_ne hother]
      exact hstored

/-- One marker is created and sealed: it is registered on the node and at the server. -/
theorem Serves.makeMarker (h : Serves node client bucket)
    (hvalid : (isValid bucket key).ok = true) (hsystem : system = ⟨none, .opened⟩)
    (hfree : ¬ node.Registered (getPath bucket key)) :
    ∃ id node' client',
      node.create bucket key false (answersOf client bucket system) = (.ok id, node') ∧
      (node.requestBucket client bucket key).sealMarker hostURI bucket key okStatus =
        some (okStatus, client') ∧
      Serves node' client' bucket ∧
      (∀ path, node'.Registered path ↔ path = getPath bucket key ∨ node.Registered path) ∧
      client'.server.stored ⟨bucket, key⟩ ≠ none ∧
      ∀ id, client.server.stored id ≠ none → client'.server.stored id ≠ none := by
  have hopens : node.OpensFile bucket key (answersOf client bucket system) :=
    opensFile_answersOf h.running hvalid hsystem
  obtain ⟨node', hcreate, hstate, hregistry⟩ := create_of_free hopens (not_not.1 hfree)
  obtain ⟨hwf, ⟨ref, hfind⟩, hkept⟩ := h.requestBucket hvalid
  have hseal : (node.requestBucket client bucket key).sealMarker hostURI bucket key okStatus =
      some (okStatus, { node.requestBucket client bucket key with
        server := (MDSKVSBucket.createObject (node.requestBucket client bucket key).server ref
          ⟨⟨bucket, key⟩, ⟨hostURI, 0, 0, none⟩⟩).2 }) := by
    simp only [StatusClient.sealMarker, MDSKVS.createObject, MDSKVS.getBucket, hfind]
    rfl
  obtain ⟨hextends, -, hmarker⟩ := StatusClient.sealMarker_extends hwf hseal
  have hstored := hmarker rfl
  have hnumbered := h.numbered.create bucket key false (answersOf client bucket system)
  rw [hcreate] at hnumbered
  refine ⟨_, node', _, hcreate, hseal, ⟨hnumbered, ?_, hextends.wellFormed, fun _ hnone => ?_⟩,
    fun path => ?_, hstored, fun id hold => hextends.stored (hkept id hold)⟩
  · rw [checkServiceRunning, hstate]
    exact h.running
  · rw [MDSKVS.stored, (MDSKVS.contents_eq_none_iff _ _).2 hnone] at hstored
    exact hstored rfl
  · rw [Registered, hregistry path]
    split_ifs with hpath
    · simp [hpath]
    · simp [hpath, Registered]

end Create

section Mkdirs

variable {node client} {hostURI bucket path : Bytes} {system : Bytes → SystemAnswers}

/-- The service calls of `mkdirs` succeed: the names are valid, and the system calls work. -/
def Permits (system : Bytes → SystemAnswers) (bucket path : Bytes) : Prop :=
  ∀ marker ∈ directoryMarkers path,
    (isValid bucket marker).ok = true ∧ system marker = ⟨none, .opened⟩

theorem Permits.strip {stripPos : Nat} (h : Permits system bucket path)
    (hbase : ¬ (path = [] ∨ path = [slash]))
    (hstrip : rfind (folderOf path).dropLast slash = some stripPos) :
    Permits system bucket ((folderOf path).take stripPos) := by
  intro marker hmarker
  apply h marker
  rw [directoryMarkers_of_strip hbase hstrip]
  exact List.mem_cons_of_mem _ hmarker

theorem folder_mem_directoryMarkers (hbase : ¬ (path = [] ∨ path = [slash])) :
    folderOf path ++ defaultDirectoryMarker ∈ directoryMarkers path := by
  rw [directoryMarkers, directoriesOf, if_neg hbase, List.map_cons]
  exact List.mem_cons_self

/-- The marker of the path is registered: the value of a failed creation is used. -/
theorem mkdirs_of_taken (h : Serves node client bucket) (hpermits : Permits system bucket path)
    (hbase : ¬ (path = [] ∨ path = [slash]))
    (htaken : node.Registered (getPath bucket (folderOf path ++ defaultDirectoryMarker))) :
    mkdirs hostURI system node client bucket path = none := by
  obtain ⟨hvalid, hsystem⟩ := hpermits _ (folder_mem_directoryMarkers hbase)
  have hopens : node.OpensFile bucket (folderOf path ++ defaultDirectoryMarker)
      (answersOf client bucket (system (folderOf path ++ defaultDirectoryMarker))) :=
    opensFile_answersOf h.running hvalid hsystem
  obtain ⟨status, hcreate, hfailed, hcode⟩ := create_of_taken h.numbered hopens htaken
  rw [mkdirs, if_neg hbase]
  simp only [hcreate, createdStatus, StatusClient.sealMarker, hfailed, hcode, ne_eq,
    Bool.false_eq_true, not_true_eq_false, ↓reduceIte]

theorem registered_closeFile (id : Nat) (other : Bytes) :
    (node.closeFile id).Registered other ↔ node.Registered other := by
  have hsame : SameRegistry node (node.closeFile id) :=
    (sameRegistry_modifyHandle id _).trans (sameRegistry_dropReference id)
  rw [Registered, Registered, hsame.1]

theorem Serves.closeFile (h : Serves node client bucket) (id : Nat) :
    Serves (node.closeFile id) client bucket := by
  have hsame : SameRegistry node (node.closeFile id) :=
    (sameRegistry_modifyHandle id _).trans (sameRegistry_dropReference id)
  have hcounted : NoNewFile node (node.modifyHandle id fun handle =>
      { handle with openCount := handle.openCount - 1 }) := noNewFile_modifyHandle id fun _ => rfl
  have hclosed : NoNewFile node (node.closeFile id) :=
    hcounted.trans (noNewFile_dropReference id)
  refine ⟨h.numbered.of_sameRegistry hsame, ?_, h.wellFormed, fun hknown => h.known ?_⟩
  · rw [checkServiceRunning, hclosed.state]
    exact h.running
  · rwa [← hclosed.knownBuckets]

/-- The markers are registered, on the node and at the server, and what was registered
stays. -/
structure MarkersMade (node node' : Node) (client client' : StatusClient) (bucket : Bytes)
    (markers : List Bytes) : Prop where
  registered : ∀ marker ∈ markers, node'.Registered (getPath bucket marker)
  stored : ∀ marker ∈ markers, client'.server.stored ⟨bucket, marker⟩ ≠ none
  keptRegistered : ∀ {other}, node.Registered other → node'.Registered other
  keptStored : ∀ {id}, client.server.stored id ≠ none → client'.server.stored id ≠ none

theorem MarkersMade.nil : MarkersMade node node client client bucket [] :=
  ⟨by simp, by simp, id, id⟩

/-- One marker first and the rest of them afterwards; the file with the first one is closed
in the end. -/
theorem MarkersMade.cons {node' node'' : Node} {client' client'' : StatusClient} {marker : Bytes}
    {rest : List Bytes} (hfirst : MarkersMade node node' client client' bucket [marker])
    (hrest : MarkersMade node' node'' client' client'' bucket rest) (id : Nat) :
    MarkersMade node (node''.closeFile id) client client'' bucket (marker :: rest) := by
  refine ⟨?_, ?_, fun hold => ?_, fun hold => hrest.keptStored (hfirst.keptStored hold)⟩
  · intro other hother
    rw [registered_closeFile]
    rcases List.mem_cons.1 hother with rfl | hother
    · exact hrest.keptRegistered (hfirst.registered _ List.mem_cons_self)
    · exact hrest.registered other hother
  · intro other hother
    rcases List.mem_cons.1 hother with rfl | hother
    · exact hrest.keptStored (hfirst.stored _ List.mem_cons_self)
    · exact hrest.stored other hother
  · rw [registered_closeFile]
    exact hrest.keptRegistered (hfirst.keptRegistered hold)

/-- One call of `mkdirs` whose marker is free: the marker is made, and the rest is left to
the call for the directory that contains it. -/
theorem mkdirs_of_free (h : Serves node client bucket) (hpermits : Permits system bucket path)
    (hbase : ¬ (path = [] ∨ path = [slash]))
    (hfree : ¬ node.Registered (getPath bucket (folderOf path ++ defaultDirectoryMarker))) :
    ∃ id node' client', Serves node' client' bucket ∧
      MarkersMade node node' client client' bucket [folderOf path ++ defaultDirectoryMarker] ∧
      (∀ other, node'.Registered other →
        other = getPath bucket (folderOf path ++ defaultDirectoryMarker) ∨
          node.Registered other) ∧
      (rfind (folderOf path).dropLast slash = none →
        mkdirs hostURI system node client bucket path =
          some (okStatus, node'.closeFile id, client')) ∧
      ∀ stripPos, rfind (folderOf path).dropLast slash = some stripPos →
        mkdirs hostURI system node client bucket path =
          (mkdirs hostURI system node' client' bucket ((folderOf path).take stripPos)).map
            fun made => (made.1, made.2.1.closeFile id, made.2.2) := by
  obtain ⟨hvalid, hsystem⟩ := hpermits _ (folder_mem_directoryMarkers hbase)
  obtain ⟨id, node', client', hcreate, hseal, hserves, hregistered, hstored, hkept⟩ :=
    @Serves.makeMarker _ _ _ _ hostURI _ h hvalid hsystem hfree
  refine ⟨id, node', client', hserves, ⟨?_, ?_, fun hold => (hregistered _).2 (Or.inr hold),
    fun hold => hkept _ hold⟩, fun other hnow => (hregistered other).1 hnow, fun hlast => ?_,
    fun stripPos hstrip => ?_⟩
  · rw [List.forall_mem_singleton, hregistered]
    exact Or.inl rfl
  · rwa [List.forall_mem_singleton]
  · rw [mkdirs, if_neg hbase]
    simp only [hcreate, createdStatus, hseal]
    rw [if_neg (by decide)]
    split
    · rfl
    · simp_all
  · rw [mkdirs, if_neg hbase]
    simp only [hcreate, createdStatus, hseal]
    rw [if_neg (by decide)]
    split
    · simp_all
    · rename_i other hother
      obtain rfl := Option.some.inj (hother.symm.trans hstrip)
      rfl

/-- A marker that is registered is reached, and the process ends there. -/
theorem mkdirs_of_some_taken (h : Serves node client bucket)
    (hpermits : Permits system bucket path)
    (htaken : ∃ marker ∈ directoryMarkers path, node.Registered (getPath bucket marker)) :
    mkdirs hostURI system node client bucket path = none := by
  induction path using directoriesOf.induct generalizing node client with
  | case1 path hbase =>
      obtain ⟨marker, hmarker, -⟩ := htaken
      rw [directoryMarkers, directoriesOf_of_base hbase] at hmarker
      cases hmarker
  | case2 path hbase ih =>
      by_cases hfirst :
          node.Registered (getPath bucket (folderOf path ++ defaultDirectoryMarker))
      · exact mkdirs_of_taken h hpermits hbase hfirst
      · obtain ⟨id, node', client', hserves, hmade, -, -, hstripped⟩ :=
          @mkdirs_of_free node client hostURI bucket path system h hpermits hbase hfirst
        obtain ⟨marker, hmarker, htaken⟩ := htaken
        cases hstrip : rfind (folderOf path).dropLast slash with
        | none =>
            rw [directoryMarkers, directoriesOf_of_last hbase hstrip] at hmarker
            obtain rfl := List.mem_singleton.1 hmarker
            exact absurd htaken hfirst
        | some stripPos =>
            rw [directoryMarkers_of_strip hbase hstrip] at hmarker
            rcases List.mem_cons.1 hmarker with rfl | hmarker
            · exact absurd htaken hfirst
            · have hrest := ih stripPos hstrip hserves (hpermits.strip hbase hstrip)
                ⟨marker, hmarker, hmade.keptRegistered htaken⟩
              rw [hstripped stripPos hstrip, hrest, Option.map_none]

/-- If no marker is registered, all of them are made. -/
theorem mkdirs_of_all_free (h : Serves node client bucket)
    (hpermits : Permits system bucket path)
    (hfree : ∀ marker ∈ directoryMarkers path, ¬ node.Registered (getPath bucket marker)) :
    ∃ node' client', mkdirs hostURI system node client bucket path =
        some (okStatus, node', client') ∧ Serves node' client' bucket ∧
      MarkersMade node node' client client' bucket (directoryMarkers path) := by
  induction path using directoriesOf.induct generalizing node client with
  | case1 path hbase =>
      rw [directoryMarkers, directoriesOf_of_base hbase]
      exact ⟨node, client, by rw [mkdirs, if_pos hbase], h, MarkersMade.nil⟩
  | case2 path hbase ih =>
      have hfirst := hfree _ (folder_mem_directoryMarkers hbase)
      obtain ⟨id, node', client', hserves, hmarker, hregistered, hlast, hstripped⟩ :=
        @mkdirs_of_free node client hostURI bucket path system h hpermits hbase hfirst
      cases hstrip : rfind (folderOf path).dropLast slash with
      | none =>
          rw [directoryMarkers, directoriesOf_of_last hbase hstrip]
          exact ⟨node'.closeFile id, client', hlast hstrip, hserves.closeFile id,
            hmarker.cons MarkersMade.nil id⟩
      | some stripPos =>
          rw [directoryMarkers_of_strip hbase hstrip] at hfree ⊢
          have hrest : ∀ marker ∈ directoryMarkers ((folderOf path).take stripPos),
              ¬ node'.Registered (getPath bucket marker) := by
            intro marker hmarker hnow
            rcases hregistered _ hnow with heq | hold
            · exact ne_of_mem_directoryMarkers hstrip hmarker
                ((fullName_inj_right bucket _ _).1 heq)
            · exact hfree marker (List.mem_cons_of_mem _ hmarker) hold
          obtain ⟨node'', client'', hmade, hserves', hall⟩ :=
            ih stripPos hstrip hserves (hpermits.strip hbase hstrip) hrest
          refine ⟨node''.closeFile id, client'', ?_, hserves'.closeFile id, hmarker.cons hall id⟩
          rw [hstripped stripPos hstrip, hmade, Option.map_some]

/-- `mkdirs` returns OK, and the marker of each directory is registered, on the node and at
the server. -/
def MakesDirectories (hostURI : Bytes) (system : Bytes → SystemAnswers) (node : Node)
    (client : StatusClient) (bucket path : Bytes) : Prop :=
  ∃ node' client', mkdirs hostURI system node client bucket path =
      some (okStatus, node', client') ∧
    ∀ marker ∈ directoryMarkers path, node'.Registered (getPath bucket marker) ∧
      client'.server.stored ⟨bucket, marker⟩ ≠ none

/-- On a node and a server as they are after any calls, when the service calls succeed:
`mkdirs` makes the directories of a path exactly if the node has no handle for a marker of
them yet.  Otherwise the value of a failed creation is used. -/
theorem mkdirs_makes_iff (pathPrefix : Bytes) (events : List NodeEvent)
    (defaultBucket : Option Bytes) (calls : List Call) (client : StatusClient)
    (hostURI bucket path : Bytes) (system : Bytes → SystemAnswers)
    (hserver : client.server = (MDSKVS.new defaultBucket).run calls)
    (hrunning : ((new pathPrefix).run events).checkServiceRunning.ok = true)
    (hknown : bucket ∈ ((new pathPrefix).run events).knownBuckets →
      client.server.map.find bucket ≠ none)
    (hpermits : Permits system bucket path) :
    MakesDirectories hostURI system ((new pathPrefix).run events) client bucket path ↔
      ∀ marker ∈ directoryMarkers path,
        ¬ ((new pathPrefix).run events).Registered (getPath bucket marker) := by
  have hserves : Serves ((new pathPrefix).run events) client bucket := by
    refine ⟨(new_numbered pathPrefix).run events, hrunning, ?_, hknown⟩
    rw [hserver]
    exact (MDSKVS.run_refines (MDSKVS.new_wellFormed defaultBucket).1 calls).1
  constructor
  · rintro ⟨node', client', hmade, -⟩ marker hmarker htaken
    rw [mkdirs_of_some_taken hserves hpermits ⟨marker, hmarker, htaken⟩] at hmade
    cases hmade
  · intro hfree
    obtain ⟨node', client', hmade, -, hall⟩ := mkdirs_of_all_free hserves hpermits hfree
    exact ⟨node', client', hmade, fun marker hmarker =>
      ⟨hall.registered marker hmarker, hall.stored marker hmarker⟩⟩

/-- After one call, the next one for a path with a common directory ends the process. -/
theorem mkdirs_of_common {path' : Bytes} (h : Serves node client bucket)
    (hpermits : Permits system bucket path) (hpermits' : Permits system bucket path')
    (hfree : ∀ marker ∈ directoryMarkers path, ¬ node.Registered (getPath bucket marker))
    (hcommon : ∃ marker ∈ directoryMarkers path, marker ∈ directoryMarkers path') :
    ∃ node' client',
      mkdirs hostURI system node client bucket path = some (okStatus, node', client') ∧
        mkdirs hostURI system node' client' bucket path' = none := by
  obtain ⟨node', client', hmade, hserves, hall⟩ := mkdirs_of_all_free h hpermits hfree
  obtain ⟨marker, hmarker, hmarker'⟩ := hcommon
  refine ⟨node', client', hmade, ?_⟩
  exact mkdirs_of_some_taken hserves hpermits' ⟨marker, hmarker', hall.registered marker hmarker⟩

end Mkdirs

namespace Sample

def system : Bytes → SystemAnswers := fun _ => ⟨none, .opened⟩

def asking : StatusClient := ⟨(MDSKVS.new none).run [], MDSKVS.new none, [], fun _ => none⟩

/-- A node that made the directory `a` before. -/
def withDirectory : List NodeEvent :=
  [.start okStatus, .create (text "data") (text "a/_$folder$") false answers, .closeFile 0]

def askingAgain : StatusClient :=
  ⟨(MDSKVS.new none).run [.createBucket (text "data"),
    .createObject ⟨⟨text "data", text "a/_$folder$"⟩, ⟨text "geds://node", 0, 0, none⟩⟩ false],
    MDSKVS.new none, [], fun _ => none⟩

theorem directoryMarkers_single : directoryMarkers (text "a") = [text "a/_$folder$"] := by
  rw [directoryMarkers, directoriesOf_of_last (by decide) (by decide)]
  decide

theorem directoryMarkers_nested :
    directoryMarkers (text "a/b") = [text "a/b/_$folder$", text "a/_$folder$"] := by
  have hstrip : rfind (folderOf (text "a/b")).dropLast slash = some 1 := by decide
  rw [directoryMarkers_of_strip (by decide) hstrip]
  have hrest : (folderOf (text "a/b")).take 1 = text "a" := by decide
  rw [hrest, directoryMarkers_single]
  decide

theorem permits_nested : Permits system (text "data") (text "a/b") := by
  rw [Permits, directoryMarkers_nested]
  intro marker hmarker
  refine ⟨?_, rfl⟩
  revert hmarker marker
  decide

theorem mkdirs_makes_nested :
    MakesDirectories (text "geds://node") system ((new (text "/geds")).run [.start okStatus])
      asking (text "data") (text "a/b") := by
  refine (mkdirs_makes_iff (text "/geds") [.start okStatus] none [] asking (text "geds://node")
    (text "data") (text "a/b") system rfl rfl ?_ permits_nested).2 ?_
  · intro hknown
    cases hknown
  · intro marker _ hregistered
    exact hregistered rfl

/-- The directory `a` exists, and the node is asked for `a/b`: the creation of the marker of
`a` fails, and its value is used. -/
theorem mkdirs_existing :
    mkdirs (text "geds://node") system ((new (text "/geds")).run withDirectory) askingAgain
        (text "data") (text "a/b") = none ∧
      ¬ MakesDirectories (text "geds://node") system ((new (text "/geds")).run withDirectory)
        askingAgain (text "data") (text "a/b") := by
  have hserves : Serves ((new (text "/geds")).run withDirectory) askingAgain (text "data") := by
    refine ⟨(new_numbered _).run _, by decide, ?_, fun _ => by decide⟩
    exact (MDSKVS.run_refines (MDSKVS.new_wellFormed none).1 _).1
  have hnone : mkdirs (text "geds://node") system ((new (text "/geds")).run withDirectory)
      askingAgain (text "data") (text "a/b") = none := by
    apply mkdirs_of_some_taken hserves permits_nested
    refine ⟨text "a/_$folder$", ?_, ?_⟩
    · rw [directoryMarkers_nested]
      decide
    · exact Option.isSome_iff_ne_none.1 (by decide)
  refine ⟨hnone, ?_⟩
  rintro ⟨node', client', hmade, -⟩
  rw [hnone] at hmade
  cases hmade

end Sample

end Node

end GEDS
