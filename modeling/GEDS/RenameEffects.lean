/-
What a rename that succeeds leaves of the node: the name of the new file is in the table, and
the only handle that is new has its path.  The handles of other objects are as they were, and
the one of the object is gone if nobody else has it.
-/
import GEDS.RenameObject

namespace GEDS

open Status

namespace Node

variable {node node' node'' : Node} {path : Bytes} {id src dst : Nat}

section Fills

/-- At most one handle is changed, which keeps the path of its file. -/
structure Fills (dst : Nat) (node node' : Node) : Prop where
  state : node'.state = node.state
  names : node'.names = node.names
  next : node'.nextHandle = node.nextHandle
  others : ∀ {id}, id ≠ dst → node'.handles.find id = node.handles.find id
  path : ∀ {file'}, node'.localFile dst = some file' →
    ∃ file, node.localFile dst = some file ∧ file'.path = file.path

theorem Fills.refl : Fills dst node node :=
  ⟨rfl, rfl, rfl, fun _ => rfl, fun hfile => ⟨_, hfile, rfl⟩⟩

theorem Fills.trans (hfirst : Fills dst node node') (hsecond : Fills dst node' node'') :
    Fills dst node node'' where
  state := hsecond.state.trans hfirst.state
  names := hsecond.names.trans hfirst.names
  next := hsecond.next.trans hfirst.next
  others hne := (hsecond.others hne).trans (hfirst.others hne)
  path hfile := by
    obtain ⟨file', hfile', hpath'⟩ := hsecond.path hfile
    obtain ⟨file, hfile, hpath⟩ := hfirst.path hfile'
    exact ⟨file, hfile, hpath'.trans hpath⟩

theorem Fills.localFile (h : Fills dst node node') (hne : id ≠ dst) :
    node'.localFile id = node.localFile id := by
  rw [Node.localFile, Node.localFile, h.others hne]

theorem fills_writeBytes (bytes : Bytes) (position : UInt64) (fault : Option WriteFault) :
    Fills dst node (node.writeBytes dst bytes position fault).2 := by
  rw [writeBytes]
  cases hfile : node.localFile dst with
  | none => exact Fills.refl
  | some file =>
      have hstate : ∀ change, (node.modifyHandle dst change).state = node.state ∧
          (node.modifyHandle dst change).names = node.names := by
        intro change
        rw [modifyHandle]
        cases node.handles.find dst <;> exact ⟨rfl, rfl⟩
      refine ⟨(hstate _).1, (hstate _).2, (sameRegistry_modifyHandle dst _).2,
        fun hne => (find_modifyHandle _ _ _).trans (if_neg hne), fun {file'} hfile' => ?_⟩
      simp only [localFile_setFile hfile, Option.some.injEq] at hfile'
      rw [← hfile']
      exact ⟨file, hfile, (LocalFile.writeBytes_place bytes position fault).1⟩

theorem fills_exchange : Fills dst node ((node.openFile dst).dropReference dst) where
  state := (noNewFile_exchange dst).state
  names := (noNewFile_exchange dst).names
  next := ((sameRegistry_modifyHandle dst _).trans (sameRegistry_dropReference dst)).2
  others hne :=
    (find_dropReference_of_ne hne).trans ((find_modifyHandle dst _ _).trans (if_neg hne))
  path hfile := ⟨_, (noNewFile_exchange dst).files hfile, rfl⟩

theorem noNewFile_closeFile (id : Nat) : NoNewFile node (node.closeFile id) := by
  have hclosed : NoNewFile node (node.modifyHandle id fun handle =>
      { handle with openCount := handle.openCount - 1 }) :=
    noNewFile_modifyHandle id fun _ => rfl
  exact hclosed.trans (noNewFile_dropReference id)

theorem find_closeFile_of_ne (hne : id ≠ dst) :
    (node.closeFile dst).handles.find id = node.handles.find id :=
  (find_dropReference_of_ne hne).trans ((find_modifyHandle dst id _).trans (if_neg hne))

theorem nextHandle_closeFile : (node.closeFile dst).nextHandle = node.nextHandle :=
  ((sameRegistry_modifyHandle dst _).trans (sameRegistry_dropReference dst)).2

theorem fills_closeFile : Fills dst node (node.closeFile dst) where
  state := (noNewFile_closeFile dst).state
  names := (noNewFile_closeFile dst).names
  next := nextHandle_closeFile
  others := find_closeFile_of_ne
  path hfile := ⟨_, (noNewFile_closeFile dst).files hfile, rfl⟩

end Fills

section Makes

variable {bucket key : Bytes} {answers : CreateAnswers}

/-- The next handle was made, with a file on the path that the name gets. -/
structure Makes (bucket key : Bytes) (dst : Nat) (node node' : Node) : Prop where
  state : node'.state = node.state
  names : node'.names = (node.names.getLocalPath ⟨bucket, key⟩).2
  made : dst = node.nextHandle
  next : node'.nextHandle = node.nextHandle + 1
  others : ∀ {id}, id ≠ dst → node'.handles.find id = node.handles.find id
  path : ∀ {file}, node'.localFile dst = some file →
    file.path = (node.names.getLocalPath ⟨bucket, key⟩).1

theorem Makes.fills (h : Makes bucket key dst node node') (hfills : Fills dst node' node'') :
    Makes bucket key dst node node'' where
  state := hfills.state.trans h.state
  names := hfills.names.trans h.names
  made := h.made
  next := hfills.next.trans h.next
  others hne := (hfills.others hne).trans (h.others hne)
  path hfile := by
    obtain ⟨file, hfile, hpath⟩ := hfills.path hfile
    exact hpath.trans (h.path hfile)

theorem makes_register (known : List Bytes) (registry : ConcurrentMap Bytes Nat) :
    Makes bucket key node.nextHandle node
      { withNewFile { node with knownBuckets := known } bucket key with
        fileHandles := registry } where
  state := rfl
  names := rfl
  made := rfl
  next := rfl
  others hne := AssocMap.find_insert_of_ne _ hne _
  path {file} hfile := by
    have hmade := @localFile_withNewFile { node with knownBuckets := known } bucket key
      node.nextHandle
    rw [if_pos rfl] at hmade
    obtain rfl := Option.some.inj (hmade.symm.trans hfile)
    rfl

theorem makes_create (hresult : (node.create bucket key false answers).1 = .ok dst) :
    Makes bucket key dst node (node.create bucket key false answers).2 := by
  have hopens := opensFile_of_create_ok hresult
  obtain ⟨known, hcreated⟩ := @createAsFileHandle_of_opens node bucket key false answers hopens
  simp only [Bool.false_eq_true, ↓reduceIte] at hcreated
  rw [create] at hresult ⊢
  simp only [hcreated, registerHandle] at hresult ⊢
  split_ifs at hresult ⊢ with hexists
  obtain rfl : node.nextHandle = dst := Except.ok.inj hresult
  exact (makes_register known _).fills fills_exchange

end Makes

section Follows

variable {bucket key : Bytes} {target : ObjectID}

/-- A handle goes when the name is taken out of the registry that only the registry had. -/
theorem release_removed (h : node.Sound) {handle : FileHandle}
    (hfind : node.fileHandles.find path = some src)
    (hhandle : node.handles.find src = some handle) (hnobody : handle.references = 0) :
    ({ node with fileHandles := (node.fileHandles.remove path).2 }.release src).handles.find src =
      none := by
  have hgone : Node.isRegistered { node with fileHandles := (node.fileHandles.remove path).2 } src =
      false := by
    apply isRegistered_eq_false
    intro other hregistered
    change (node.fileHandles.remove path).2.find other = some src at hregistered
    rw [ConcurrentMap.find_remove] at hregistered
    split_ifs at hregistered with hother
    exact hother (h.single hregistered hfind)
  simp [release, hhandle, hnobody, hgone]

/-- A handle that is registered is kept when its file is closed. -/
theorem references_closeFile (hfind : node.fileHandles.find path = some src) :
    ((node.closeFile src).handles.find src).map FileHandle.references =
      ((node.handles.find src).map FileHandle.references).map (· - 1) := by
  have hregistered : ∀ handles : AssocMap Nat FileHandle,
      Node.isRegistered { node with handles := handles } src = true :=
    fun _ => isRegistered_iff.2 ⟨path, hfind⟩
  cases hhandle : node.handles.find src with
  | none => simp [closeFile, dropReference, modifyHandle, release, hhandle]
  | some handle =>
      simp [closeFile, dropReference, modifyHandle, release, hhandle, hregistered]

/-- What a rename leaves of a node, where the new name is that of the target. -/
structure Follows (path : Bytes) (target : ObjectID) (node node' : Node) : Prop where
  state : node'.state = node.state
  names : node'.names = (node.names.getLocalPath target).2
  next : node.nextHandle ≤ node'.nextHandle
  others : ∀ {id}, id < node.nextHandle → node.fileHandles.find path ≠ some id →
    node'.handles.find id = node.handles.find id
  files : ∀ {id file}, node'.localFile id = some file →
    file.path = (node.names.getLocalPath target).1 ∨
      node.localFile id = some file ∧ ¬ node.Unshared path id

variable {opened made filled : Node}

/-- The object was opened, its copy was made and filled, and then the object was closed and
deleted. -/
theorem Takes.follows (htakes : Takes path src node opened) (hno : NoNewFile node opened)
    (hmakes : Makes target.bucket target.key dst opened made) (hfills : Fills dst made filled)
    (hsound : filled.Sound) (hfind : filled.fileHandles.find path = some src) :
    Follows path target node
      ({ filled.closeFile src with
        fileHandles := ((filled.closeFile src).fileHandles.remove path).2 }.release src) := by
  have hclosed := (noNewFile_closeFile src : NoNewFile filled (filled.closeFile src))
  have hremoved : NoNewFile (filled.closeFile src) { filled.closeFile src with
      fileHandles := ((filled.closeFile src).fileHandles.remove path).2 } :=
    NoNewFile.of_same rfl rfl rfl rfl
  have hend := (hclosed.trans hremoved).trans (noNewFile_release src)
  have hne : src ≠ dst := by
    rw [hmakes.made]
    exact Nat.ne_of_lt htakes.numbered
  have hkept : ∀ {id}, id ≠ dst → filled.handles.find id = opened.handles.find id :=
    fun hid => (hfills.others hid).trans (hmakes.others hid)
  have hdst : node.nextHandle ≤ dst := hmakes.made ▸ htakes.next
  refine ⟨?_, ?_, ?_, fun {id} hlt hother => ?_, fun {id file} hfile => ?_⟩
  · rw [hend.state, hfills.state, hmakes.state, hno.state]
  · rw [hend.names, hfills.names, hmakes.names, hno.names]
  · have hnext : filled.nextHandle = opened.nextHandle + 1 := hfills.next.trans hmakes.next
    rw [(sameRegistry_release src).2]
    change node.nextHandle ≤ (filled.closeFile src).nextHandle
    rw [nextHandle_closeFile, hnext]
    exact htakes.next.trans (Nat.le_succ _)
  · have hsrc : id ≠ src := by
      rintro rfl
      exact htakes.found.elim hother (Nat.not_le_of_lt hlt)
    rw [find_release_of_ne hsrc]
    change (filled.closeFile src).handles.find id = _
    rw [find_closeFile_of_ne hsrc, hkept (Nat.ne_of_lt (hlt.trans_le hdst))]
    exact htakes.others hlt hother
  · have hfilled := hend.files hfile
    by_cases hid : id = dst
    · rw [hid] at hfilled
      obtain ⟨first, hfirst, hpath⟩ := hfills.path hfilled
      left
      rw [hpath, hmakes.path hfirst, hno.names]
    · have hopened : opened.localFile id = some file := by
        rwa [Node.localFile, hkept hid] at hfilled
      refine Or.inr ⟨hno.files hopened, fun hunshared => ?_⟩
      rcases htakes.unshared hunshared with ⟨-, rfl, hone⟩ | hgone
      · -- the last pointer went with the open file
        have hreferences := @references_closeFile filled path id hfind
        rw [hkept hid, hone] at hreferences
        obtain ⟨handle, hhandle, hnobody⟩ := Option.map_eq_some_iff.1 hreferences
        have hfind' : (filled.closeFile id).fileHandles.find path = some id :=
          (sameAt_closeFile id).registry.trans hfind
        have hgone := release_removed (touches_closeFile hsound id).sound hfind' hhandle hnobody
        rw [Node.localFile, hgone] at hfile
        cases hfile
      · rw [Node.localFile, hgone] at hopened
        cases hopened

end Follows

end Node

namespace Cluster

variable {c c' : Cluster} {source dest : ObjectID} {answers : RenameAnswers}

section Download

variable {src dst : Nat} {bytes : Bytes} {total pos position length : UInt64}

/-- The object is opened anew for a read that failed, and read again. -/
structure Rereads (c : Cluster) (id : ObjectID) (answers : RenameAnswers) (position : UInt64) :
    Prop where
  located : c.Located id
  lookup : (answers.reopen position).lookup = none
  factory : (answers.reopen position).factory = none
  reread : answers.reread position = none

/-- A read succeeds: at once, or, where there is no local file, if it asks for nothing or the
object is read again. -/
def Reads (c : Cluster) (id : ObjectID) (answers : RenameAnswers) (file : Option LocalFile)
    (position length : UInt64) : Prop :=
  answers.read position = none ∨ file = none ∧ (length = 0 ∨ c.Rereads id answers position)

theorem readBytes_ok {handle : Nat} {got : Bytes}
    (hread : (c.readBytes source answers handle position length).1 = .ok got) :
    c.Reads source answers (c.node.localFile handle) position length := by
  rw [readBytes] at hread
  rw [Reads]
  cases hanswer : answers.read position with
  | none => exact Or.inl rfl
  | some failed =>
      cases hfile : c.node.localFile handle with
      | some file => simp [hfile, hanswer] at hread
      | none =>
          refine Or.inr ⟨rfl, ?_⟩
          by_cases hzero : length = 0
          · exact Or.inl hzero
          · simp only [hfile, hanswer, readRemote, if_neg hzero] at hread
            cases hreopened : (c.reopenInvalidated source (answers.reopen position)).1 with
            | error status => simp [hreopened] at hread
            | ok info =>
                obtain ⟨hlocated, hlookup, hfactory⟩ := reopenInvalidated_ok hreopened
                simp only [hreopened] at hread
                cases hreread : answers.reread position with
                | some status => simp [hreread] at hread
                | none => exact Or.inr ⟨hlocated, hlookup, hfactory, hreread⟩

theorem cacheBlockSize_readBytes (handle : Nat) :
    (c.readBytes source answers handle position length).2.cacheBlockSize = c.cacheBlockSize := by
  rw [readBytes]
  cases c.node.localFile handle with
  | some file => cases answers.read position <;> rfl
  | none =>
      simp only
      cases c.readRemote source handle position length (answers.read position) with
      | ok got => rfl
      | error failed =>
          obtain ⟨service, hservice⟩ :=
            @reopenInvalidated_service c source (answers.reopen position)
          simp only [hservice]
          cases (c.reopenInvalidated source (answers.reopen position)).1 <;> rfl

theorem writeBytes_ok {node : Node} {fault : Option WriteFault} (hbytes : bytes ≠ [])
    (hwritten : (node.writeBytes dst bytes position fault).1.ok = true) : fault = none := by
  rw [Node.writeBytes] at hwritten
  cases hfile : node.localFile dst with
  | none => simp [hfile, Status.ok, unavailableError] at hwritten
  | some file =>
      simp only [hfile, LocalFile.writeBytes, if_neg hbytes] at hwritten
      split_ifs at hwritten
      · cases hwritten
      · cases fault with
        | none => rfl
        | some fault => cases hwritten

/-- A range is moved by one read and one write if the object has all its bytes. -/
theorem downloadRange_complete {fuel : Nat} {count : UInt64}
    (hfit : pos.toNat + length.toNat ≤ total.toNat) (hblock : length.toNat ≤ c.cacheBlockSize.toNat)
    (h : Copying source dest src dst bytes total pos.toNat c)
    (hcomplete : bytes.length = total.toNat)
    (hrun : downloadRange source answers src dst pos length pos (fuel + 1) 0 c =
      some (.ok count, c')) :
    count = length ∧ c.Reads source answers (c.node.localFile src) pos length ∧
      (length ≠ 0 → answers.write pos = none) ∧ Node.Fills dst c.node c'.node ∧
      c'.cacheBlockSize = c.cacheBlockSize := by
  have hmin : min (length - 0) c.cacheBlockSize = length := by
    rw [UInt64.sub_zero, ← UInt64.toNat_inj, UInt64.toNat_min]
    exact min_eq_left hblock
  obtain ⟨hreread, -, -, hgot⟩ := readBytes_spec h.ready h.reads answers hfit
  rw [downloadRange, if_neg h.ne, UInt64.add_zero, hmin] at hrun
  cases hread : (c.readBytes source answers src pos length).1 with
  | error status => simp [hread] at hrun
  | ok got =>
      have hreads := readBytes_ok hread
      have hslice := hgot hread
      have hlength : got.length = length.toNat := by
        rw [hslice, length_slice]
        omega
      have hsize : (0 : UInt64) + UInt64.ofNat got.length = length := by
        rw [UInt64.zero_add, hlength, UInt64.ofNat_toNat]
      have hfills : Node.Fills dst c.node (c.readBytes source answers src pos length).2.node :=
        hreread.node ▸ Node.Fills.refl
      simp only [hread] at hrun
      split_ifs at hrun with hempty hwritten hmore
      · obtain ⟨hcount, rfl⟩ := Prod.mk.inj (Option.some.inj hrun)
        have hzero : length = 0 := by
          rw [hempty] at hlength
          exact UInt64.toNat_inj.1 hlength.symm
        exact ⟨(Except.ok.inj hcount).symm.trans hzero.symm, hreads,
          fun hne => absurd hzero hne, hfills, cacheBlockSize_readBytes src⟩
      · cases (Prod.mk.inj (Option.some.inj hrun)).1
      · rw [hsize] at hmore
        exact absurd hmore (UInt64.lt_irrefl _)
      · obtain ⟨hcount, rfl⟩ := Prod.mk.inj (Option.some.inj hrun)
        refine ⟨(Except.ok.inj hcount).symm.trans hsize, hreads, fun _ => ?_,
          hfills.trans (Node.fills_writeBytes _ _ _), cacheBlockSize_readBytes src⟩
        exact writeBytes_ok hempty (Bool.not_eq_false _ ▸ hwritten)

/-- From a position on, each block of the object is read and written. -/
structure Moves (c : Cluster) (id : ObjectID) (answers : RenameAnswers) (file : Option LocalFile)
    (pos total : UInt64) : Prop where
  blocks : pos.toNat < total.toNat → c.cacheBlockSize ≠ 0
  reads : ∀ {position : UInt64}, pos.toNat ≤ position.toNat →
    position = pos ∨ position.toNat < total.toNat →
    c.cacheBlockSize.toNat ∣ position.toNat - pos.toNat →
    c.Reads id answers file position (total - position)
  writes : ∀ {position : UInt64}, pos.toNat ≤ position.toNat → position.toNat < total.toNat →
    c.cacheBlockSize.toNat ∣ position.toNat - pos.toNat → answers.write position = none

theorem Reads.congr {file : Option LocalFile}
    (hserver : c'.service.server.objects.find source = c.service.server.objects.find source)
    (h : c'.Reads source answers file position length) :
    c.Reads source answers file position length := by
  refine h.imp_right (And.imp_right (Or.imp_right fun hagain => ?_))
  obtain ⟨info, hinfo, hknown⟩ := hagain.located
  exact ⟨⟨info, hserver.symm.trans hinfo, hknown⟩, hagain.lookup, hagain.factory, hagain.reread⟩

theorem Moves.congr {file : Option LocalFile} (hblock : c'.cacheBlockSize = c.cacheBlockSize)
    (hserver : c'.service.server.objects.find source = c.service.server.objects.find source)
    (h : c'.Moves source answers file pos total) : c.Moves source answers file pos total := by
  obtain ⟨hblocks, hreads, hwrites⟩ := h
  rw [hblock] at hblocks hreads hwrites
  exact ⟨hblocks, fun hle hlt hdvd => (hreads hle hlt hdvd).congr hserver, hwrites⟩

/-- One block is moved, and then those behind it. -/
theorem Moves.block {file : Option LocalFile} (hpos : pos.toNat ≤ total.toNat)
    (hlength : length.toNat = min c.cacheBlockSize.toNat (total.toNat - pos.toNat))
    (hread : c.Reads source answers file pos length)
    (hwrite : length ≠ 0 → answers.write pos = none)
    (hnext : (pos + length).toNat = pos.toNat + length.toNat)
    (hrest : pos.toNat + length.toNat < total.toNat →
      c.Moves source answers file (pos + length) total) :
    c.Moves source answers file pos total := by
  have hnonzero : ∀ {word : UInt64}, word ≠ 0 ↔ 0 < word.toNat := by
    intro word
    rw [Nat.pos_iff_ne_zero, ← UInt64.toNat_zero, Ne, Ne, UInt64.toNat_inj]
  have hblocks : pos.toNat < total.toNat → 0 < c.cacheBlockSize.toNat := by
    intro hlt
    by_cases hmore : pos.toNat + length.toNat < total.toNat
    · exact hnonzero.1 ((hrest hmore).blocks (hnext ▸ hmore))
    · omega
  -- a block that is not the first one is behind the first one
  have hbehind : ∀ {position : UInt64}, pos.toNat ≤ position.toNat → position ≠ pos →
      position.toNat < total.toNat → c.cacheBlockSize.toNat ∣ position.toNat - pos.toNat →
      pos.toNat + length.toNat < total.toNat ∧ (pos + length).toNat ≤ position.toNat ∧
        c.cacheBlockSize.toNat ∣ position.toNat - (pos + length).toNat := by
    intro position hle hne hlt hdvd
    have hne' : position.toNat ≠ pos.toNat := fun heq => hne (UInt64.toNat_inj.1 heq)
    have hblock : c.cacheBlockSize.toNat ≤ position.toNat - pos.toNat :=
      Nat.le_of_dvd (by omega) hdvd
    have hfull : length.toNat = c.cacheBlockSize.toNat := by omega
    refine ⟨by omega, by omega, ?_⟩
    have hrest : position.toNat - (pos + length).toNat =
        (position.toNat - pos.toNat) - c.cacheBlockSize.toNat := by omega
    rw [hrest]
    exact Nat.dvd_sub hdvd (Nat.dvd_refl _)
  refine ⟨fun hlt => hnonzero.2 (hblocks hlt), fun {position} hle hlt hdvd => ?_,
    fun {position} hle hlt hdvd => ?_⟩
  · by_cases hfirst : position = pos
    · rw [hfirst]
      refine hread.imp_right (And.imp_right (Or.imp_left fun hzero => ?_))
      have hend : pos.toNat = total.toNat := by
        by_contra hne
        have hblock := hblocks (by omega)
        rw [hzero, UInt64.toNat_zero] at hlength
        omega
      rw [UInt64.toNat_inj.1 hend, UInt64.sub_self]
    · obtain ⟨hmore, hle', hdvd'⟩ := hbehind hle hfirst (hlt.resolve_left hfirst) hdvd
      exact (hrest hmore).reads hle' (Or.inr (hlt.resolve_left hfirst)) hdvd'
  · by_cases hfirst : position = pos
    · rw [hfirst] at hlt ⊢
      have hblock := hblocks hlt
      exact hwrite (hnonzero.2 (by omega))
    · obtain ⟨hmore, hle', hdvd'⟩ := hbehind hle hfirst hlt hdvd
      exact (hrest hmore).writes hle' hlt hdvd'

/-- A download that ends well has moved each block. -/
theorem download_moves (fuel : Nat) (hpos : pos.toNat ≤ total.toNat)
    (h : Copying source dest src dst bytes total pos.toNat c)
    (hcomplete : bytes.length = total.toNat) {status : Status}
    (hrun : download source answers src dst total fuel pos c = some (status, c'))
    (hok : status.ok = true) :
    Node.Fills dst c.node c'.node ∧ c'.cacheBlockSize = c.cacheBlockSize ∧
      c.Moves source answers (c.node.localFile src) pos total := by
  induction fuel generalizing pos c with
  | zero => cases hrun
  | succ fuel ih =>
      have hlt := UInt64.toNat_lt total
      have hlength : (min c.cacheBlockSize (total - pos)).toNat =
          min c.cacheBlockSize.toNat (total.toNat - pos.toNat) := by
        rw [UInt64.toNat_min, UInt64.toNat_sub_of_le _ _ (UInt64.le_iff_toNat_le.2 hpos)]
      rw [download] at hrun
      generalize min c.cacheBlockSize (total - pos) = length at hlength hrun
      have hfit : pos.toNat + length.toNat ≤ total.toNat := by omega
      have hnext : (pos + length).toNat = pos.toNat + length.toNat := toNat_add_of_lt (by omega)
      cases hrange : downloadRange source answers src dst pos length pos (fuel + 1) 0 c with
      | none => simp [hrange] at hrun
      | some answer =>
          obtain ⟨result, c₁⟩ := answer
          obtain ⟨hcopies, hfailed, hfinal⟩ :=
            downloadRange_spec answers hfit (fuel + 1) (Nat.zero_le _) h hrange
          simp only [hrange] at hrun
          cases result with
          | error failed =>
              obtain ⟨rfl, rfl⟩ := Prod.mk.inj (Option.some.inj hrun)
              exact absurd hok (by simp [hfailed rfl])
          | ok count =>
              obtain ⟨rfl, hread, hwrite, hfills, hblock⟩ :=
                downloadRange_complete hfit (by omega) h hcomplete hrange
              have hcopying := (hfinal rfl).2
              rw [← hnext] at hcopying
              have hserver : c₁.service.server.objects.find source =
                  c.service.server.objects.find source := by rw [hcopies.same]
              have hfile := hfills.localFile h.ne
              simp only at hrun
              split_ifs at hrun with hmore
              · obtain ⟨hfills', hblock', hmoves⟩ := ih (by omega) hcopying hrun
                rw [hfile] at hmoves
                exact ⟨hfills.trans hfills', hblock'.trans hblock, Moves.block hpos hlength hread
                  hwrite hnext fun _ => hmoves.congr hblock hserver⟩
              · obtain ⟨rfl, rfl⟩ := Prod.mk.inj (Option.some.inj hrun)
                rw [UInt64.lt_iff_toNat_lt, hnext] at hmore
                exact ⟨hfills, hblock, Moves.block hpos hlength hread hwrite hnext
                  fun hless => absurd hless hmore⟩

end Download

section Rename

variable {src dst : Nat} {bytes : Bytes} {fuel : Nat} {status : Status}

/-- The local file of an object, if a valid handle with one is registered. -/
def fileAt (c : Cluster) (id : ObjectID) : Option LocalFile :=
  (c.node.validHandle id.path).bind c.node.localFile

/-- The size that an object has when it is opened. -/
def sizeAt (c : Cluster) (id : ObjectID) : UInt64 :=
  match c.fileAt id with
  | some file => file.size
  | none => ((c.service.server.objects.find id).map (·.size)).getD 0

/-- The object has all its bytes, and each block is moved. -/
structure Transfers (c : Cluster) (id : ObjectID) (answers : RenameAnswers) : Prop where
  complete : (c.content id).map List.length = some (c.sizeAt id).toNat
  moves : c.Moves id answers (c.fileAt id) 0 (c.sizeAt id)

/-- All that a rename asks for is answered. -/
structure Answered (c : Cluster) (source dest : ObjectID) (answers : RenameAnswers) : Prop where
  opens : c.Opens source (c.record source) answers.opened answers.retried
  creates : c.node.OpensFile dest.bucket dest.key answers.create
  transfers : c.Transfers source answers
  recorded : answers.sealReply = .received
  deleted : answers.deleteReply = .received

variable {opened : Cluster} {made : Node}

theorem Begun.makes (h : Begun source dest answers bytes src dst c opened made) :
    Node.Makes dest.bucket dest.key dst opened.node made := by
  have hmakes := Node.makes_create (congrArg Prod.fst h.created)
  rwa [h.created] at hmakes

theorem Begun.file (h : Begun source dest answers bytes src dst c opened made) :
    made.localFile src = c.fileAt source := by
  rw [fileAt, ← h.takes.file, Node.localFile, Node.localFile]
  rw [h.makes.others h.copying.ne]

theorem Begun.size (h : Begun source dest answers bytes src dst c opened made) :
    opened.size src = c.sizeAt source := by
  have hreads := h.copying.reads
  rw [ReadsFrom] at hreads
  rw [sizeAt, ← h.file]
  cases hfile : made.localFile src with
  | some file =>
      simp only [hfile] at hreads
      exact hreads.1.symm
  | none =>
      simp only [hfile] at hreads
      obtain ⟨info, -, ⟨current, hserver, hsame, -⟩, hsize, -⟩ := hreads
      rw [h.opening.same] at hserver
      rw [hserver]
      exact hsize.symm.trans hsame

/-- A copy that ends well has all bytes of the object. -/
theorem Begun.transfers (h : Begun source dest answers bytes src dst c opened made)
    (hcontent : c.content source = some bytes) {result : Status} {downloaded : Cluster}
    (hdownload : download source answers src dst (opened.size src) fuel 0
      { opened with node := made } = some (result, downloaded)) (hok : result.ok = true) :
    Node.Fills dst made downloaded.node ∧ downloaded.cacheBlockSize = c.cacheBlockSize ∧
      c.Transfers source answers := by
  obtain ⟨hcomplete, -⟩ := (download_spec answers fuel (Nat.zero_le _) h.copying hdownload).2 hok
  obtain ⟨hfills, hblocks, hmoves⟩ :=
    download_moves fuel (Nat.zero_le _) h.copying hcomplete hdownload hok
  refine ⟨hfills, hblocks.trans h.blocks, ?_, ?_⟩
  · rw [hcontent, Option.map_some, hcomplete, h.size]
  · rw [← h.size, ← h.file]
    refine Moves.congr ?_ ?_ hmoves
    · exact h.blocks
    · exact congrArg (fun server => server.objects.find source) h.opening.same

theorem sealFile_ok {reply : Reply} (hsealed : (c.sealFile dest dst reply).1.ok = true) :
    reply = .received := by
  rw [sealFile] at hsealed
  by_cases hrunning : c.node.checkServiceRunning.ok = true
  · rw [if_pos hrunning] at hsealed
    cases reply with
    | received => rfl
    | lost reason processed => cases hsealed
  · rw [if_neg hrunning] at hsealed
    exact absurd hsealed hrunning

theorem sealFile_kept (reply : Reply) :
    (c.sealFile dest dst reply).2.node = c.node ∧
      (c.sealFile dest dst reply).2.cacheBlockSize = c.cacheBlockSize := by
  rw [sealFile]
  by_cases hrunning : c.node.checkServiceRunning.ok = true
  · rw [if_pos hrunning]
    cases reply with
    | received => exact ⟨rfl, rfl⟩
    | lost reason processed => cases processed <;> exact ⟨rfl, rfl⟩
  · rw [if_neg hrunning]
    exact ⟨rfl, rfl⟩

/-- A deletion that succeeds was answered, and the name is taken out of the registry. -/
theorem deleteObject_ok {id : ObjectID} {reply : Reply}
    (hdeleted : c.deleteObject id reply = (status, c')) (hok : status.ok = true) :
    reply = .received ∧ c'.cacheBlockSize = c.cacheBlockSize ∧ c'.node =
      { c.node with fileHandles := (c.node.fileHandles.remove id.path).2 }.releaseAll
        (c.node.fileHandles.find id.path).toList := by
  obtain ⟨hstatus, hleft⟩ := Prod.mk.inj hdeleted
  cases reply with
  | lost reason processed =>
      have hrefused : c.node.deleteObject id.bucket id.key
          (unavailableError (text "Unable to execute Delete command: " ++ reason)) =
          (unavailableError (text "Unable to execute Delete command: " ++ reason), c.node) :=
        if_pos ⟨by simp [Status.ok, unavailableError], by simp [unavailableError]⟩
      simp only [hrefused] at hstatus
      rw [← hstatus] at hok
      cases hok
  | received =>
      refine ⟨rfl, by rw [← hleft], ?_⟩
      rw [← hleft]
      simp only
      generalize hanswer : (if (c.service.server.objects.find id).isSome then okStatus
        else notFoundError []) = answer
      have haccepted : ¬ (answer.ok = false ∧ answer.code ≠ .notFound) := by
        rw [← hanswer]
        split_ifs <;> simp [Status.ok, okStatus, notFoundError]
      rw [Node.deleteObject, if_neg (by simpa using haccepted)]
      rfl

/-- What is left of the node when the object was deleted after its copy was sealed. -/
theorem Begun.follows (h : Begun source dest answers bytes src dst c opened made)
    {result : Status} {downloaded : Cluster}
    (hdownload : download source answers src dst (opened.size src) fuel 0
      { opened with node := made } = some (result, downloaded)) (hok : result.ok = true)
    (hfills : Node.Fills dst made downloaded.node) :
    let filled := downloaded.node.closeFile dst
    Node.Follows source.path dest c.node
      ({ filled.closeFile src with
        fileHandles := ((filled.closeFile src).fileHandles.remove source.path).2 }.releaseAll
          ((filled.closeFile src).fileHandles.find source.path).toList) := by
  obtain ⟨-, hcopying⟩ := (download_spec answers fuel (Nat.zero_le _) h.copying hdownload).2 hok
  have hsound := (Node.touches_closeFile hcopying.ready.sound dst).sound
  have hfind : (downloaded.node.closeFile dst).fileHandles.find source.path = some src :=
    (Node.sameAt_closeFile dst).registry.trans hcopying.opened
  have hfind' : ((downloaded.node.closeFile dst).closeFile src).fileHandles.find source.path =
      some src := (Node.sameAt_closeFile src).registry.trans hfind
  intro filled
  rw [hfind']
  exact h.takes.follows h.opening.noNewFile h.makes (hfills.trans Node.fills_closeFile) hsound hfind

/-- A rename that succeeds was answered, and its target is the only new file. -/
theorem rename_ok (h : c.Namespace) (hcontent : c.content source = some bytes)
    (hsource : slash ∉ source.bucket)
    (hspares : c.Opens source (c.record source) answers.opened answers.retried →
      c.Spares source dest answers.create)
    (hrun : c.rename answers fuel source dest = some (status, c')) (hok : status.ok = true) :
    c.Answered source dest answers ∧ c'.cacheBlockSize = c.cacheBlockSize ∧
      Node.Follows source.path dest c.node c'.node := by
  rw [rename] at hrun
  cases hcopy : c.copy answers fuel source dest with
  | none => simp [hcopy] at hrun
  | some copied =>
      obtain ⟨copied, c₁⟩ := copied
      simp only [hcopy] at hrun
      rcases copy_cases h hcontent hsource hspares hcopy with ⟨hfailed, -⟩ |
        ⟨src, dst, opened, made, ⟨result, downloaded⟩, hbegun, hdownload, hfinish⟩
      · rw [if_neg (by simp [hfailed])] at hrun
        obtain ⟨rfl, -⟩ := Prod.mk.inj (Option.some.inj hrun)
        simp [hfailed] at hok
      · split_ifs at hrun with hcopied
        · rw [finishCopy] at hfinish
          split_ifs at hfinish with hresult
          · obtain ⟨rfl, rfl⟩ := Prod.mk.inj hfinish
            obtain ⟨hdeleted, hblocks, hnode⟩ := deleteObject_ok (Option.some.inj hrun) hok
            obtain ⟨hfills, hblocks', htransfers⟩ := hbegun.transfers hcontent hdownload hresult
            have hcreates := hbegun.opening.noNewFile.opensFile_iff.1
              (Node.opensFile_of_create_ok (congrArg Prod.fst hbegun.created))
            obtain ⟨hsealed, hsealed'⟩ := @sealFile_kept downloaded dest dst answers.sealReply
            simp only [closeFile, hsealed, hsealed'] at hblocks hnode
            refine ⟨⟨hbegun.opens, hcreates, htransfers, sealFile_ok hcopied, hdeleted⟩,
              hblocks.trans hblocks', ?_⟩
            rw [hnode]
            exact hbegun.follows hdownload hresult hfills
          · obtain ⟨rfl, rfl⟩ := Prod.mk.inj hfinish
            exact absurd hcopied hresult
        · obtain ⟨rfl, -⟩ := Prod.mk.inj (Option.some.inj hrun)
          exact absurd hok hcopied

end Rename

end Cluster

end GEDS
