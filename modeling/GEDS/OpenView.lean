/-
What `GEDS::open` yields: the bytes of the valid handle under a name, or those of the object
that is cached or that the metadata service has.  Opening an object changes this only if what
is cached turns out to be out of reach.
-/
import GEDS.OpenFrom
import GEDS.RenameObject

namespace GEDS

open Status

namespace Cluster

variable {c c' : Cluster} {id : ObjectID}

section Record

/-- What a file shows that is opened where a record says; it is not opened if the form of the
place is not known. -/
def shown (c : Cluster) (id : ObjectID) (object : Object) : Option (Option Bytes) :=
  if isKnownLocation object.info.location then
    some ((c.held object.info.location id).map (·.take object.info.size.toNat))
  else none

theorem Recached.record_other (h : Recached id c c') {other : ObjectID} (hne : other ≠ id) :
    c'.record other = c.record other := by
  rw [record, record, h.others hne, h.server]

/-- What the metadata service answers is the record then. -/
theorem record_lookupRemote (hwf : c.service.cache.WellFormed) {object : Object}
    (hlookup : c.service.server.lookup id = .ok object) :
    c.service.lookupRemote id = (.ok object, (c.service.lookupRemote id).2) ∧
      { c with service := (c.service.lookupRemote id).2 }.record id = some object := by
  have hremote : c.service.lookupRemote id = (.ok object,
      { c.service with cache := Caching.remember [object] c.service.cache }) := by
    rw [MetadataService.lookupRemote, hlookup]
  rw [hremote]
  refine ⟨rfl, record_of_entry ?_⟩
  refine (congrFun (MDSKVS.createObject_entry hwf object) id).trans ?_
  rw [← (lookup_ok hlookup).1, Function.update_self]

/-- A file is opened anew with what the metadata service has, which is the record then. -/
theorem record_reopenInvalidated (hwf : c.service.cache.WellFormed) (id : ObjectID)
    (answer : ReopenAnswer) :
    (∀ {object}, answer.lookup = none → c.service.server.lookup id = .ok object →
        (c.reopenInvalidated id answer).2.record id = some object) ∧
      (answer.lookup ≠ none ∨ (∀ object, c.service.server.lookup id ≠ .ok object) →
        (c.reopenInvalidated id answer).2 = c) ∧
      ∀ {info}, (c.reopenInvalidated id answer).1 = .ok info →
        ∃ object, (c.reopenInvalidated id answer).2.record id = some object ∧
          object.info = info ∧ isKnownLocation info.location = true := by
  rw [reopenInvalidated]
  cases hfailure : answer.lookup with
  | some reason => simp [lookup]
  | none =>
      cases hlookup : c.service.server.lookup id with
      | error status => simp [lookup, MetadataService.lookup, MetadataService.lookupRemote, hlookup]
      | ok object =>
          obtain ⟨hremote, hrecord⟩ := record_lookupRemote hwf hlookup
          have hlooked : c.lookup id true none =
              (.ok object, { c with service := (c.service.lookupRemote id).2 }) := by
            simp only [lookup, MetadataService.lookup, ↓reduceIte]
            rw [hremote]
          simp only [hlooked]
          split_ifs with hknown
          · cases answer.factory <;> simp [hrecord, hknown]
          · simp [hrecord]

/-- The cached place of an object is not reached, and the metadata service is asked again. -/
def AsksAgain (c : Cluster) (id : ObjectID) (answers : ReopenAnswer × ReopenAnswer)
    (cached : Object) : Prop :=
  c.service.cache.entry id = some cached ∧ isKnownLocation cached.info.location = true ∧
    answers.1.factory ≠ none ∧ answers.2.lookup = none

/-- A cached object keeps its record, unless its place is not reached. -/
theorem record_reopen_cached (hwf : c.service.cache.WellFormed) {cached : Object}
    (hentry : c.service.cache.entry id = some cached) (answers : ReopenAnswer × ReopenAnswer) :
    (∀ {current}, c.AsksAgain id answers cached → c.service.server.lookup id = .ok current →
        (c.reopenFileHandle id answers).2.record id = some current) ∧
      ((∀ current, c.AsksAgain id answers cached → c.service.server.lookup id ≠ .ok current) →
        (c.reopenFileHandle id answers).2.record id = c.record id) ∧
      ∀ {info}, (c.reopenFileHandle id answers).1 = .ok info →
        ∃ object, (c.reopenFileHandle id answers).2.record id = some object ∧
          object.info = info ∧ isKnownLocation info.location = true := by
  simp only [reopenFileHandle, lookup_of_entry hentry]
  split_ifs with hknown
  · cases hfactory : answers.1.factory with
    | none =>
        refine ⟨fun hasks _ => absurd hfactory hasks.2.2.1, fun _ => rfl, fun {info} hresult => ?_⟩
        obtain rfl := Except.ok.inj hresult
        exact ⟨cached, record_of_entry hentry, rfl, hknown⟩
    | some status =>
        obtain ⟨hanswered, hunanswered, hfound⟩ := record_reopenInvalidated hwf id answers.2
        refine ⟨fun hasks hcurrent => hanswered hasks.2.2.2 hcurrent, fun hnone => ?_, hfound⟩
        have hsame : (c.reopenInvalidated id answers.2).2 = c := by
          apply hunanswered
          rw [or_iff_not_imp_left, not_not]
          exact fun hlookup current =>
            hnone current ⟨hentry, hknown, by simp [hfactory], hlookup⟩
        simp only [hsame]
  · exact ⟨fun hasks _ => absurd hasks.2.1 hknown, fun _ => rfl, fun hresult => by cases hresult⟩

/-- An object that is not cached has the record that the metadata service has, before and
after. -/
theorem record_reopen_missing (hwf : c.service.cache.WellFormed)
    (hentry : c.service.cache.entry id = none) (answers : ReopenAnswer × ReopenAnswer) :
    (c.reopenFileHandle id answers).2.record id = c.record id ∧
      ∀ {info}, (c.reopenFileHandle id answers).1 = .ok info →
        ∃ object, (c.reopenFileHandle id answers).2.record id = some object ∧
          object.info = info ∧ isKnownLocation info.location = true := by
  cases hfailure : answers.1.lookup with
  | some reason => simp [reopenFileHandle, hfailure, lookup_unreached hentry]
  | none =>
      cases hlookup : c.service.server.lookup id with
      | error status =>
          simp [reopenFileHandle, hfailure, lookup_of_no_entry hentry,
            MetadataService.lookupRemote, hlookup]
      | ok object =>
          obtain ⟨hremote, hrecord⟩ := record_lookupRemote hwf hlookup
          have hbefore : c.record id = some object := by
            rw [record_of_no_entry hentry, hlookup]
            rfl
          have hlooked := lookup_of_no_entry hentry
          rw [hremote] at hlooked
          have hrecached := (asked_lookupRemote hwf id).recached
          simp only [reopenFileHandle, hfailure, hlooked, hbefore]
          split_ifs with hknown
          · cases answers.1.factory with
            | none => exact ⟨hrecord, fun hresult =>
                ⟨object, hrecord, Except.ok.inj hresult, Except.ok.inj hresult ▸ hknown⟩⟩
            | some status =>
                obtain ⟨hanswered, hunanswered, hfound⟩ :=
                  record_reopenInvalidated hrecached.wellFormed id answers.2
                refine ⟨?_, hfound⟩
                cases hagain : answers.2.lookup with
                | none =>
                    refine hanswered hagain ?_
                    rw [hrecached.server]
                    exact hlookup
                | some reason => simp only [hunanswered (Or.inl (by simp [hagain])), hrecord]
          · exact ⟨hrecord, fun hresult => by cases hresult⟩

/-- A reopened object has the place of its record.  The record changes if the metadata service
is asked although the object is cached. -/
theorem record_reopenFileHandle (hwf : c.service.cache.WellFormed) (id : ObjectID)
    (answers : ReopenAnswer × ReopenAnswer) :
    (∀ {cached current}, c.AsksAgain id answers cached →
        c.service.server.lookup id = .ok current →
        (c.reopenFileHandle id answers).2.record id = some current) ∧
      ((∀ cached current, c.AsksAgain id answers cached →
          c.service.server.lookup id ≠ .ok current) →
        (c.reopenFileHandle id answers).2.record id = c.record id) ∧
      ∀ {info}, (c.reopenFileHandle id answers).1 = .ok info →
        ∃ object, (c.reopenFileHandle id answers).2.record id = some object ∧
          object.info = info ∧ isKnownLocation info.location = true := by
  cases hentry : c.service.cache.entry id with
  | some cached =>
      obtain ⟨hanswered, hunanswered, hfound⟩ := record_reopen_cached hwf hentry answers
      refine ⟨fun {cached' _} hasks hcurrent => ?_, fun hnone => hunanswered (hnone cached), hfound⟩
      obtain rfl := Option.some.inj (hentry.symm.trans hasks.1)
      exact hanswered hasks hcurrent
  | none =>
      obtain ⟨hsame, hfound⟩ := record_reopen_missing hwf hentry answers
      refine ⟨fun hasks => ?_, fun _ => hsame, hfound⟩
      rw [hasks.1] at hentry
      cases hentry

end Record

section Yields

/-- What an open file shows: the bytes of its local file, or what its place holds. -/
def bytesOf (c : Cluster) (id : ObjectID) (handle : Nat) : Option Bytes :=
  match c.node.localFile handle with
  | some file => some ((c.node.files.content file.inode).take file.size.toNat)
  | none =>
      (c.infos.find handle).bind fun info =>
        (c.held info.location id).map (·.take info.size.toNat)

/-- Every call is answered. -/
def calm : ReopenAnswer × ReopenAnswer := (⟨none, none⟩, ⟨none, none⟩)

/-- What `open` yields if every call is answered: no file, or a file and what it shows. -/
def yields (c : Cluster) (id : ObjectID) : Option (Option Bytes) :=
  match (openFrom id [calm, calm] c).1 with
  | .error _ => none
  | .ok handle => some ((openFrom id [calm, calm] c).2.bytesOf id handle)

theorem calm_reopenAnswers : c.reopenAnswers id calm calm = calm := ite_self calm

/-- If every call is answered, an object is reopened where its record says. -/
theorem reopenFileHandle_calm (c : Cluster) (id : ObjectID) :
    (∃ status, (c.reopenFileHandle id calm).1 = .error status ∧ status.code ≠ .alreadyExists ∧
        (c.record id).bind (c.shown id) = none) ∨
      ∃ object, (c.reopenFileHandle id calm).1 = .ok object.info ∧ c.record id = some object ∧
        isKnownLocation object.info.location = true := by
  have hfound : ∀ {object c'}, c.record id = some object →
      c.lookup id false none = (.ok object, c') →
      (∃ status, (c.reopenFileHandle id calm).1 = .error status ∧ status.code ≠ .alreadyExists ∧
        (c.record id).bind (c.shown id) = none) ∨
      ∃ object, (c.reopenFileHandle id calm).1 = .ok object.info ∧ c.record id = some object ∧
        isKnownLocation object.info.location = true := by
    intro object c' hrecord hlooked
    simp only [reopenFileHandle, calm, hlooked]
    split_ifs with hknown
    · exact Or.inr ⟨object, rfl, hrecord, hknown⟩
    · refine Or.inl ⟨_, rfl, StatusCode.noConfusion, ?_⟩
      rw [hrecord, Option.bind_some, shown, if_neg hknown]
  cases hentry : c.service.cache.entry id with
  | some cached => exact hfound (record_of_entry hentry) (lookup_of_entry hentry none)
  | none =>
      have hrecord := record_of_no_entry hentry
      have hlooked := lookup_of_no_entry hentry
      rw [MetadataService.lookupRemote_fst] at hlooked
      cases hserver : c.service.server.lookup id with
      | ok object =>
          rw [hserver] at hrecord hlooked
          exact hfound hrecord hlooked
      | error status =>
          rw [hserver] at hrecord hlooked
          refine Or.inl ⟨status, ?_, ?_, ?_⟩
          · simp only [reopenFileHandle, calm, hlooked]
          · rw [MapServer.lookup] at hserver
            cases hobject : c.service.server.objects.find id <;> rw [hobject] at hserver <;>
              cases hserver
            exact StatusCode.noConfusion
          · rw [hrecord]
            rfl

theorem bytesOf_of_remote {handle : Nat} {info : ObjectInfo}
    (hfile : c.node.localFile handle = none) (hinfo : c.infos.find handle = some info) :
    c.bytesOf id handle = (c.held info.location id).map (·.take info.size.toNat) := by
  rw [bytesOf, hfile, hinfo]
  rfl

theorem yields_of_not_serves (hserves : ¬ c.Serves id) : c.yields id = none := by
  obtain ⟨status, -, -, hopen⟩ := @openFrom_of_not_serves c id [calm] calm hserves
  rw [yields, hopen]

/-- A valid handle shows its own bytes. -/
theorem yields_of_some (hserves : c.Serves id) (hnumbered : c.node.Numbered) {handle : Nat}
    (hvalid : c.node.validHandle id.path = some handle) :
    c.yields id = some (c.bytesOf id handle) := by
  obtain ⟨node, -, hend⟩ := openFrom_cases hserves hnumbered calm calm
  rw [yields]
  generalize openFrom id [calm, calm] c = opened at hend
  cases hend with
  | found hvalid' hsame =>
      obtain rfl := Option.some.inj (hvalid.symm.trans hvalid')
      have hfind := (Node.validHandle_eq_some_iff.1 hvalid).1
      simp only [bytesOf, hsame.file hfind]
      cases hfile : c.node.localFile handle with
      | none => rfl
      | some file => simp only [hsame.content hfind hfile]
  | unknown hnone => simp [hnone] at hvalid
  | made hnone => simp [hnone] at hvalid

/-- Without a valid handle, the file is opened where the record says. -/
theorem yields_of_none (hserves : c.Serves id) (hnumbered : c.node.Numbered)
    (hnone : c.node.validHandle id.path = none) :
    c.yields id = (c.record id).bind (c.shown id) := by
  obtain ⟨node, -, hend⟩ := openFrom_cases hserves hnumbered calm calm
  rw [calm_reopenAnswers] at hend
  rw [yields]
  generalize openFrom id [calm, calm] c = opened at hend
  cases hend with
  | found hvalid => simp [hnone] at hvalid
  | unknown _ hresult =>
      rcases reopenFileHandle_calm c id with ⟨status, -, -, hnothing⟩ | ⟨object, hok, -⟩
      · exact hnothing.symm
      · rw [hok] at hresult
        cases hresult
  | made _ hresult _ hfile =>
      rcases reopenFileHandle_calm c id with ⟨status, herror, -⟩ | ⟨object, hok, hrecord, hknown⟩
      · rw [herror] at hresult
        cases hresult
      · rw [hok] at hresult
        obtain rfl := Except.ok.inj hresult
        obtain ⟨service, hservice⟩ := @reopenFileHandle_service c id calm
        rw [hservice, hrecord, Option.bind_some, shown, if_pos hknown]
        exact congrArg some (bytesOf_of_remote hfile (AssocMap.find_insert_self _ _ _))

theorem serves_congr (hstate : c'.node.state = c.node.state) : c'.Serves id ↔ c.Serves id := by
  rw [Serves, Serves, Node.checkServiceRunning, Node.checkServiceRunning, hstate]

/-- Nothing changes that decides what `open` yields for an object. -/
structure SameView (id : ObjectID) (c c' : Cluster) : Prop where
  state : c'.node.state = c.node.state
  node : Node.SameAt id.path c.node c'.node
  infos : ∀ {handle}, c.node.fileHandles.find id.path = some handle →
    c'.infos.find handle = c.infos.find handle
  record : c'.record id = c.record id
  held : c'.held = c.held

theorem SameView.yields (h : SameView id c c') (hnumbered : c.node.Numbered)
    (hnumbered' : c'.node.Numbered) : c'.yields id = c.yields id := by
  by_cases hserves : c.Serves id
  · have hserves' := (serves_congr h.state).2 hserves
    have hvalid : c'.node.validHandle id.path = c.node.validHandle id.path :=
      h.node.validHandle
    cases hhandle : c.node.validHandle id.path with
    | some handle =>
        have hfind := (Node.validHandle_eq_some_iff.1 hhandle).1
        rw [yields_of_some hserves' hnumbered' (hvalid.trans hhandle),
          yields_of_some hserves hnumbered hhandle, bytesOf, bytesOf, h.node.file hfind,
          h.infos hfind, h.held]
        cases hfile : c.node.localFile handle with
        | none => rfl
        | some file => simp only [h.node.content hfind hfile]
    | none =>
        rw [yields_of_none hserves' hnumbered' (hvalid.trans hhandle),
          yields_of_none hserves hnumbered hhandle, h.record]
        congr 1
        funext object
        rw [shown, shown, h.held]
  · have hserves' : ¬ c'.Serves id := fun hserves' => hserves ((serves_congr h.state).1 hserves')
    rw [yields_of_not_serves hserves, yields_of_not_serves hserves']

end Yields

section Opened

variable {opened retried : ReopenAnswer × ReopenAnswer}

/-- An opened object has a valid handle, the one it had or one without a file, and nothing
changes under other paths. -/
theorem openFrom_ok (hnumbered : c.node.Numbered) {handle : Nat}
    (hopen : openFrom id [opened, retried] c = (.ok handle, c')) :
    c.Serves id ∧ Node.Reopened id.path c.node c'.node ∧
      c'.node.validHandle id.path = some handle ∧
      (Node.SameAt id.path c.node c'.node ∨
        c.node.validHandle id.path = none ∧ c'.node.localFile handle = none) := by
  by_cases hserves : c.Serves id
  · obtain ⟨node, hreopened, hend⟩ := openFrom_cases hserves hnumbered opened retried
    rw [hopen] at hend
    cases hend with
    | found hvalid hsame =>
        exact ⟨hserves, hreopened, hsame.validHandle.trans hvalid, Or.inl hsame⟩
    | made hnone _ hvalid hfile => exact ⟨hserves, hreopened, hvalid, Or.inr ⟨hnone, hfile⟩⟩
  · obtain ⟨status, -, -, hopen'⟩ := @openFrom_of_not_serves c id [retried] opened hserves
    cases (Prod.mk.inj (hopen.symm.trans hopen')).1

/-- `open` does not report that an object exists. -/
theorem openFrom_calm_code (hnumbered : c.node.Numbered) {status : Status}
    (hopen : openFrom id [calm, calm] c = (.error status, c')) :
    status.code ≠ .alreadyExists := by
  by_cases hserves : c.Serves id
  · obtain ⟨node, -, hend⟩ := openFrom_cases hserves hnumbered calm calm
    rw [hopen, calm_reopenAnswers] at hend
    cases hend with
    | unknown _ hresult =>
        rcases reopenFileHandle_calm c id with ⟨status', herror, hcode, -⟩ | ⟨object, hok, -⟩
        · rw [Except.error.inj (hresult.symm.trans herror)]
          exact hcode
        · rw [hok] at hresult
          cases hresult
  · obtain ⟨status', -, hcode, hopen'⟩ := @openFrom_of_not_serves c id [calm] calm hserves
    obtain rfl := Except.error.inj (Prod.mk.inj (hopen.symm.trans hopen')).1
    exact hcode

theorem reopened_openFrom (hserves : c.Serves id) (hnumbered : c.node.Numbered) :
    Node.Reopened id.path c.node (openFrom id [opened, retried] c).2.node := by
  obtain ⟨node, hreopened, hend⟩ := openFrom_cases hserves hnumbered opened retried
  generalize openFrom id [opened, retried] c = result at hend
  cases hend <;> exact hreopened

/-- Whatever is opened, the node stays as it is but for the path of the object. -/
theorem openFrom_kept (hnumbered : c.node.Numbered) :
    (openFrom id [opened, retried] c).2.node.Numbered ∧
      (openFrom id [opened, retried] c).2.node.state = c.node.state ∧
      ∀ {path}, path ≠ id.path →
        Node.SameAt path c.node (openFrom id [opened, retried] c).2.node := by
  by_cases hserves : c.Serves id
  · have hreopened := @reopened_openFrom c id opened retried hserves hnumbered
    exact ⟨hreopened.numbered, hreopened.noNewFile.state, hreopened.same⟩
  · obtain ⟨status, -, -, hopen⟩ := @openFrom_of_not_serves c id [retried] opened hserves
    rw [hopen]
    exact ⟨hnumbered, rfl, fun _ => Node.SameAt.refl⟩

theorem path_ne_of_serves {other : ObjectID} (hserves : c.Serves id) (hother : c.Serves other)
    (hne : other ≠ id) : other.path ≠ id.path := fun hpath =>
  hne (path_inj (isValid.slash_not_mem hother.2) (isValid.slash_not_mem hserves.2) hpath)

/-- Opening an object leaves all others as they are. -/
theorem sameView_openFrom (hnumbered : c.node.Numbered) (hwf : c.service.cache.WellFormed)
    {other : ObjectID} (hother : c.Serves other) (hne : other ≠ id) :
    SameView other c (openFrom id [opened, retried] c).2 := by
  by_cases hserves : c.Serves id
  · have hpath := path_ne_of_serves hserves hother hne
    have hrecached := (asked_reopenFileHandle hwf id (c.reopenAnswers id opened retried)).recached
    have hrecord := hrecached.record_other hne
    obtain ⟨service, hservice⟩ :=
      @reopenFileHandle_service c id (c.reopenAnswers id opened retried)
    rw [hservice] at hrecord
    obtain ⟨node, hreopened, hend⟩ := openFrom_cases hserves hnumbered opened retried
    generalize openFrom id [opened, retried] c = result at hend
    cases hend with
    | found => exact ⟨hreopened.noNewFile.state, hreopened.same hpath, fun _ => rfl, rfl, rfl⟩
    | unknown =>
        rw [hservice]
        exact ⟨hreopened.noNewFile.state, hreopened.same hpath, fun _ => rfl, hrecord, rfl⟩
    | made =>
        rw [hservice]
        refine ⟨hreopened.noNewFile.state, hreopened.same hpath, fun hfind => ?_, hrecord, rfl⟩
        exact AssocMap.find_insert_of_ne _ (Nat.ne_of_lt (hnumbered _ _ hfind)) _
  · obtain ⟨status, -, -, hopen⟩ := @openFrom_of_not_serves c id [retried] opened hserves
    rw [hopen]
    exact ⟨rfl, Node.SameAt.refl, fun _ => rfl, rfl, rfl⟩

/-- The object is opened, and the cached place is not reached: the metadata service is asked,
and what it has shows something else. -/
def Refreshes (c : Cluster) (id : ObjectID) (opened retried : ReopenAnswer × ReopenAnswer) :
    Prop :=
  c.Serves id ∧ c.node.validHandle id.path = none ∧
    ∃ cached current, c.AsksAgain id (c.reopenAnswers id opened retried) cached ∧
      c.service.server.lookup id = .ok current ∧ c.shown id current ≠ c.shown id cached

/-- An object that had no valid handle is seen then as its record says. -/
theorem yields_openFrom_of_none (hserves : c.Serves id) (hnumbered : c.node.Numbered)
    (hwf : c.service.cache.WellFormed) (hnone : c.node.validHandle id.path = none) :
    (openFrom id [opened, retried] c).2.yields id =
      ((c.reopenFileHandle id (c.reopenAnswers id opened retried)).2.record id).bind
        (c.shown id) := by
  obtain ⟨-, -, hfound⟩ := record_reopenFileHandle hwf id (c.reopenAnswers id opened retried)
  obtain ⟨service, hservice⟩ := @reopenFileHandle_service c id (c.reopenAnswers id opened retried)
  obtain ⟨node, hreopened, hend⟩ := openFrom_cases hserves hnumbered opened retried
  generalize openFrom id [opened, retried] c = result at hend
  cases hend with
  | found hvalid => simp [hnone] at hvalid
  | unknown _ _ hfree =>
      rw [hservice]
      refine yields_of_none ((serves_congr hreopened.noNewFile.state).2 hserves)
        hreopened.numbered ?_
      change (node.fileHandles.find id.path).filter node.isValidHandle = none
      rw [hfree, Option.filter_none]
  | made _ hresult hvalid hfile =>
      obtain ⟨object, hrecord, rfl, hknown⟩ := hfound hresult
      rw [hrecord, Option.bind_some, shown, if_pos hknown, hservice]
      refine (yields_of_some ((serves_congr hreopened.noNewFile.state).2 hserves)
        hreopened.numbered hvalid).trans (congrArg some ?_)
      exact bytesOf_of_remote hfile (AssocMap.find_insert_self _ _ _)

theorem yields_openFrom_of_some (hserves : c.Serves id) (hnumbered : c.node.Numbered)
    {handle : Nat} (hvalid : c.node.validHandle id.path = some handle) :
    (openFrom id [opened, retried] c).2.yields id = c.yields id := by
  obtain ⟨node, hreopened, hend⟩ := openFrom_cases hserves hnumbered opened retried
  generalize openFrom id [opened, retried] c = result at hend
  cases hend with
  | found _ hsame =>
      have hview : SameView id c { c with node := node } :=
        ⟨hreopened.noNewFile.state, hsame, fun _ => rfl, rfl, rfl⟩
      exact hview.yields hnumbered hreopened.numbered
  | unknown hnone => simp [hnone] at hvalid
  | made hnone => simp [hnone] at hvalid

/-- After an object was opened, `open` yields what it yielded before, unless the cache was
refreshed. -/
theorem yields_openFrom_eq_iff (hnumbered : c.node.Numbered) (hwf : c.service.cache.WellFormed) :
    (openFrom id [opened, retried] c).2.yields id = c.yields id ↔
      ¬ c.Refreshes id opened retried := by
  by_cases hserves : c.Serves id
  · cases hvalid : c.node.validHandle id.path with
    | some handle =>
        refine iff_of_true (yields_openFrom_of_some hserves hnumbered hvalid) ?_
        rintro ⟨-, hnone, -⟩
        rw [hnone] at hvalid
        cases hvalid
    | none =>
        obtain ⟨hrefreshed, hkept, -⟩ :=
          record_reopenFileHandle hwf id (c.reopenAnswers id opened retried)
        rw [yields_openFrom_of_none hserves hnumbered hwf hvalid,
          yields_of_none hserves hnumbered hvalid]
        by_cases hasked : ∃ cached current, c.AsksAgain id (c.reopenAnswers id opened retried) cached ∧
            c.service.server.lookup id = .ok current
        · obtain ⟨cached, current, hasks, hcurrent⟩ := hasked
          rw [hrefreshed hasks hcurrent, record_of_entry hasks.1, Option.bind_some,
            Option.bind_some]
          constructor
          · rintro hsame ⟨-, -, cached', current', hasks', hcurrent', hdiffer⟩
            obtain rfl := Option.some.inj (hasks.1.symm.trans hasks'.1)
            obtain rfl := Except.ok.inj (hcurrent.symm.trans hcurrent')
            exact hdiffer hsame
          · intro hnot
            by_contra hdiffer
            exact hnot ⟨hserves, hvalid, cached, current, hasks, hcurrent, hdiffer⟩
        · push Not at hasked
          rw [hkept hasked]
          refine iff_of_true rfl ?_
          rintro ⟨-, -, cached, current, hasks, hcurrent, -⟩
          exact hasked cached current hasks hcurrent
  · obtain ⟨status, -, -, hopen⟩ := @openFrom_of_not_serves c id [retried] opened hserves
    rw [hopen]
    exact iff_of_true rfl fun hrefreshes => hserves hrefreshes.1

/-- What can be opened then could be opened before. -/
theorem yields_ne_none_of_openFrom (hnumbered : c.node.Numbered)
    (hwf : c.service.cache.WellFormed)
    (hyields : (openFrom id [opened, retried] c).2.yields id ≠ none) : c.yields id ≠ none := by
  by_cases hrefreshes : c.Refreshes id opened retried
  · obtain ⟨hserves, hnone, cached, current, hasks, -⟩ := hrefreshes
    rw [yields_of_none hserves hnumbered hnone, record_of_entry hasks.1, Option.bind_some, shown,
      if_pos hasks.2.1]
    exact Option.some_ne_none _
  · rwa [(yields_openFrom_eq_iff hnumbered hwf).2 hrefreshes] at hyields

end Opened

end Cluster

end GEDS
