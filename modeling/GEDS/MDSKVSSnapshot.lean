/-
A listing that runs while other calls do.  `listObjects` holds the lock of its bucket, so no
object is created or deleted meanwhile; an update only takes the lock of its container, and
the loop reads one container after the other.
-/
import GEDS.Library.WriteBehind
import GEDS.MDSKVSConcurrent
import GEDS.MDSKVSListing

namespace GEDS

open WriteBehind

/-- Where `MDSKVSBucket::listObjects` stands; it holds the lock inside the loop. -/
inductive ListingPhase where
  | called
  | loop (remaining : List (Bytes × Nat)) (state : List Object × OrderedMap Bytes Unit)
  | returned (result : List Object × List Bytes)

def ListingPhase.locked : ListingPhase → Bool
  | .loop _ _ => true
  | .called | .returned _ => false

/-- The call has to wait for the write lock of the bucket. -/
def Concurrent.waitsForBucket (state : Concurrent) (self : Nat) : Action → Bool
  | .advance id =>
      match state.calls id with
      | some (.createObject _ _, .bucket ref) | some (.deleteObject _, .bucket ref)
      | some (.deleteObjectPrefix _, .bucket ref) => decide (ref = self)
      | _ => false
  | .invoke _ _ | .respond _ => false

/-- The scheduler picks one of the other calls, or the listing. -/
inductive Turn where
  | call (action : Action)
  | list

def Turn.lists : Turn → Bool
  | .call _ => false
  | .list => true

/-- The other calls, and the listing. -/
structure Listing where
  concurrent : Concurrent
  phase : ListingPhase

namespace MDSKVSBucket

variable (kvs : MDSKVS) (self : Nat) (keyPrefix : Bytes) (delimiter : UInt8)

/-- The next step of `MDSKVSBucket::listObjects`: the range is found when the lock is
taken, each container of it is read on its own. -/
def advanceListing : ListingPhase → ListingPhase
  | .called =>
      let map := (kvs.buckets.get self).map
      .loop (map.range (prefixSearch map keyPrefix)) ([], OrderedMap.empty)
  | .loop (entry :: remaining) state =>
      .loop remaining (listObject kvs self keyPrefix.length delimiter state entry)
  | .loop [] state => .returned (state.1, state.2.keys)
  | .returned result => .returned result

end MDSKVSBucket

namespace Listing

section Run

variable (self : Nat) (keyPrefix : Bytes) (delimiter : UInt8)

def step (state : Listing) : Turn → Listing
  | .call action =>
      if state.phase.locked && state.concurrent.waitsForBucket self action then state
      else { state with concurrent := state.concurrent.act action }
  | .list =>
      { state with
        phase := MDSKVSBucket.advanceListing state.concurrent.kvs self keyPrefix delimiter
          state.phase }

def run (state : Listing) (turns : List Turn) : Listing :=
  turns.foldl (step self keyPrefix delimiter) state

/-- The store, if the listing holds the lock of the bucket. -/
def heldNow (state : Listing) : List MDSKVS :=
  if state.phase.locked then [state.concurrent.kvs] else []

/-- The stores at the instants between the start and the end of the listing. -/
def held (state : Listing) : List Turn → List MDSKVS
  | [] => state.heldNow
  | turn :: turns => state.heldNow ++ held (state.step self keyPrefix delimiter turn) turns

end Run

end Listing

namespace MDSKVS

/-- What the next section of a call may do to the store. -/
inductive Changes (kvs : MDSKVS) (call : Call) (phase : Phase) : MDSKVS → Prop where
  | nothing : Changes kvs call phase kvs
  | createBucket (bucket : Bytes) (hmissing : kvs.map.find bucket = none) :
      Changes kvs call phase (kvs.createBucket bucket).2
  | deleteBucket (bucket : Bytes) :
      Changes kvs call phase { kvs with map := kvs.map.erase bucket }
  | createObject (obj : Object) (force : Bool) (ref : Nat)
      (hcall : call = .createObject obj force) (hphase : phase = .bucket ref) :
      Changes kvs call phase (MDSKVSBucket.createObject kvs ref obj).2
  | deleteObjects (id : ObjectID) (ref : Nat) (map : OrderedMap Bytes Nat)
      (hcall : call = .deleteObject id ∨ call = .deleteObjectPrefix id)
      (hphase : phase = .bucket ref)
      (hsub : ∀ {key : Bytes} {container : Nat}, map.find key = some container →
        (kvs.buckets.get ref).map.find key = some container) :
      Changes kvs call phase (MDSKVSBucket.setMap kvs ref map)
  | updateObject (obj : Object) (ref container : Nat)
      (hcall : call = .updateObject obj) (hphase : phase = .container ref container) :
      Changes kvs call phase (MDSKVSBucket.writeContainer kvs container obj.info)

theorem changes_createBucket (kvs : MDSKVS) (call : Call) (phase : Phase) (bucket : Bytes) :
    Changes kvs call phase (kvs.createBucket bucket).2 := by
  cases hfind : kvs.map.find bucket with
  | none => exact .createBucket bucket hfind
  | some ref =>
      simp only [MDSKVS.createBucket, hfind]
      exact .nothing

theorem changes_enter (kvs : MDSKVS) (call : Call) :
    Changes kvs call .start (kvs.enter call).2 := by
  cases call with
  | createBucket bucket => exact changes_createBucket kvs _ _ bucket
  | deleteBucket bucket =>
      simp only [enter, perform, MDSKVS.deleteBucket]
      cases kvs.map.find bucket with
      | none => exact .nothing
      | some ref => exact .deleteBucket bucket
  | bucketStatus bucket => exact .nothing
  | createObject obj force =>
      simp only [enter]
      cases kvs.getBucket obj.id.bucket with
      | ok ref => exact .nothing
      | error status => cases force <;> exact .nothing
  | updateObject obj =>
      simp only [enter]
      cases kvs.getBucket (Call.updateObject obj).bucket <;> exact .nothing
  | deleteObject id =>
      simp only [enter]
      cases kvs.getBucket (Call.deleteObject id).bucket <;> exact .nothing
  | deleteObjectPrefix id =>
      simp only [enter]
      cases kvs.getBucket (Call.deleteObjectPrefix id).bucket <;> exact .nothing
  | lookup id =>
      simp only [enter]
      cases kvs.getBucket (Call.lookup id).bucket <;> exact .nothing

theorem changes_enterBucket (kvs : MDSKVS) (call : Call) (ref : Nat) :
    Changes kvs call (.bucket ref) (kvs.enterBucket call ref).2 := by
  cases call with
  | createObject obj force => exact .createObject obj force ref rfl rfl
  | deleteObject id =>
      simp only [enterBucket, MDSKVSBucket.deleteObject]
      cases (kvs.buckets.get ref).map.find id.key with
      | none => exact .nothing
      | some container =>
          refine .deleteObjects id ref _ (Or.inl rfl) rfl ?_
          intro key container hfind
          rw [OrderedMap.find_erase] at hfind
          split_ifs at hfind
          exact hfind
  | deleteObjectPrefix id =>
      simp only [enterBucket, MDSKVSBucket.deleteObjectPrefix]
      split_ifs
      · exact .nothing
      · refine .deleteObjects id ref _ (Or.inr rfl) rfl ?_
        intro key container hfind
        rw [find_erasePrefixRange] at hfind
        split_ifs at hfind
        exact hfind
  | updateObject obj =>
      simp only [enterBucket]
      cases MDSKVSBucket.getObject kvs ref obj.id.key <;> exact .nothing
  | lookup id =>
      simp only [enterBucket]
      cases MDSKVSBucket.getObject kvs ref id.key <;> exact .nothing
  | createBucket bucket => exact .nothing
  | deleteBucket bucket => exact .nothing
  | bucketStatus bucket => exact .nothing

theorem changes_enterContainer (kvs : MDSKVS) (call : Call) (ref container : Nat) :
    Changes kvs call (.container ref container) (kvs.enterContainer call ref container).2 := by
  cases call with
  | updateObject obj => exact .updateObject obj ref container rfl rfl
  | lookup id => exact .nothing
  | createObject obj force => exact .nothing
  | deleteObject id => exact .nothing
  | deleteObjectPrefix id => exact .nothing
  | createBucket bucket => exact .nothing
  | deleteBucket bucket => exact .nothing
  | bucketStatus bucket => exact .nothing

theorem changes_advance (kvs : MDSKVS) (call : Call) (phase : Phase) :
    Changes kvs call phase (kvs.advance call phase).2 := by
  cases phase with
  | start => exact changes_enter kvs call
  | bucketMissing =>
      simp only [advance]
      split_ifs <;> exact changes_createBucket kvs call _ _
  | bucketCreated =>
      simp only [advance]
      cases kvs.getBucket call.bucket <;> exact .nothing
  | bucket ref => exact changes_enterBucket kvs call ref
  | container ref container => exact changes_enterContainer kvs call ref container
  | finished response => exact .nothing
  | returned response => exact .nothing

theorem Changes.wellFormed {kvs kvs' : MDSKVS} {call : Call} {phase : Phase}
    (hchanges : kvs.Changes call phase kvs') (hwf : kvs.WellFormed) : kvs'.WellFormed := by
  cases hchanges with
  | nothing => exact hwf
  | createBucket bucket hmissing => exact (createBucket_refines hwf hmissing).2.2.2
  | deleteBucket bucket => exact (deleteBucket_refines hwf bucket).2
  | createObject obj force ref hcall hphase => exact (createObject_touches hwf ref obj).wellFormed
  | deleteObjects id ref map hcall hphase hsub => exact (setMap_touches hwf ref map hsub).wellFormed
  | updateObject obj ref container hcall hphase =>
      exact ⟨hwf.named, hwf.bucket_lt, hwf.container_lt, hwf.container_inj⟩

/-- A container is never put under a second key. -/
theorem Changes.find_of_lt {kvs kvs' : MDSKVS} {call : Call} {phase : Phase}
    (hchanges : kvs.Changes call phase kvs') {ref : Nat} {key : Bytes} {container : Nat}
    (hlt : container < kvs.containers.next)
    (hfind : (kvs'.buckets.get ref).map.find key = some container) :
    (kvs.buckets.get ref).map.find key = some container := by
  cases hchanges with
  | nothing => exact hfind
  | createBucket bucket hmissing =>
      simp only [MDSKVS.createBucket, hmissing] at hfind
      by_cases href : ref = kvs.buckets.next
      · subst href
        rw [Heap.get_alloc_next, OrderedMap.find_empty] at hfind
        cases hfind
      · rwa [Heap.get_alloc_of_ne _ _ href] at hfind
  | deleteBucket bucket => exact hfind
  | createObject obj force own hcall hphase =>
      rcases find_createObject_cases hfind with ⟨-, -, hnew⟩ | ⟨-, hold⟩
      · exact absurd hnew hlt.ne
      · exact hold
  | deleteObjects id own map hcall hphase hsub =>
      rw [get_setMap_map] at hfind
      split_ifs at hfind with href
      · subst href
        exact hsub hfind
      · exact hfind
  | updateObject obj own other hcall hphase => exact hfind

theorem Changes.next_le {kvs kvs' : MDSKVS} {call : Call} {phase : Phase}
    (hchanges : kvs.Changes call phase kvs') :
    kvs.buckets.next ≤ kvs'.buckets.next ∧ kvs.containers.next ≤ kvs'.containers.next := by
  cases hchanges with
  | nothing => exact ⟨le_rfl, le_rfl⟩
  | createBucket bucket hmissing =>
      simp only [MDSKVS.createBucket, hmissing]
      exact ⟨Nat.le_succ _, le_rfl⟩
  | deleteBucket bucket => exact ⟨le_rfl, le_rfl⟩
  | createObject obj force ref hcall hphase => exact ⟨le_rfl, Nat.le_succ _⟩
  | deleteObjects id ref map hcall hphase hsub => exact ⟨le_rfl, le_rfl⟩
  | updateObject obj ref container hcall hphase => exact ⟨le_rfl, le_rfl⟩

/-- A bucket stays as it is, and the containers of all keys but these. -/
structure Agrees (ref : Nat) (keys : Set Bytes) (kvs kvs' : MDSKVS) : Prop where
  bucket : kvs'.buckets.get ref = kvs.buckets.get ref
  containers : ∀ {key : Bytes} {container : Nat}, key ∉ keys →
    (kvs.buckets.get ref).map.find key = some container →
      kvs'.containers.get container = kvs.containers.get container

theorem Agrees.refl (self : Nat) (keys : Set Bytes) (kvs : MDSKVS) : Agrees self keys kvs kvs :=
  ⟨rfl, fun _ _ => rfl⟩

theorem Agrees.trans {self : Nat} {keys : Set Bytes} {first second third : MDSKVS}
    (h : Agrees self keys first second) (h' : Agrees self keys second third) :
    Agrees self keys first third := by
  refine ⟨h'.bucket.trans h.bucket, ?_⟩
  intro key container hkey hfind
  exact (h'.containers hkey (by rwa [h.bucket])).trans (h.containers hkey hfind)

end MDSKVS

namespace Concurrent

variable {state : Concurrent}

/-- An update writes the container that its key had when it was fetched, and no other key
has that container. -/
structure Pointing (state : Concurrent) : Prop where
  wellFormed : state.kvs.WellFormed
  fetched : ∀ {id : Nat} {obj : Object} {ref container : Nat},
    state.calls id = some (.updateObject obj, .container ref container) →
      container < state.kvs.containers.next ∧
      ∀ {other : Nat} {key : Bytes}, (state.kvs.buckets.get other).map.find key = some container →
        key = obj.id.key

/-- The key of the object that the action updates. -/
def updatedKey (state : Concurrent) : Action → Option Bytes
  | .advance id =>
      match state.calls id with
      | some (.updateObject obj, .container _ _) => some obj.id.key
      | _ => none
  | .invoke _ _ | .respond _ => none

/-- An update gets to a container only through `getObject`. -/
theorem advance_eq_container {kvs : MDSKVS} {obj : Object} {phase : Phase} {ref container : Nat}
    (hphase : (kvs.advance (.updateObject obj) phase).1 = .container ref container) :
    (kvs.buckets.get ref).map.find obj.id.key = some container ∧
      (kvs.advance (.updateObject obj) phase).2 = kvs := by
  cases phase with
  | bucket other =>
      simp only [MDSKVS.advance, MDSKVS.enterBucket, MDSKVSBucket.getObject] at hphase ⊢
      cases hfind : (kvs.buckets.get other).map.find obj.id.key with
      | none => simp [hfind] at hphase
      | some found =>
          simp only [hfind, Phase.container.injEq] at hphase ⊢
          obtain ⟨rfl, rfl⟩ := hphase
          exact ⟨hfind, trivial⟩
  | start =>
      simp only [MDSKVS.advance, MDSKVS.enter] at hphase
      cases hget : kvs.getBucket (Call.updateObject obj).bucket <;> simp [hget] at hphase
  | bucketMissing =>
      simp only [MDSKVS.advance] at hphase
      split_ifs at hphase
  | bucketCreated =>
      simp only [MDSKVS.advance] at hphase
      cases hget : kvs.getBucket (Call.updateObject obj).bucket <;> simp [hget] at hphase
  | container other found => simp [MDSKVS.advance, MDSKVS.enterContainer] at hphase
  | finished response => simp [MDSKVS.advance] at hphase
  | returned response => simp [MDSKVS.advance] at hphase

/-- What is known of a container stays so in every section. -/
theorem Pointing.advance (h : state.Pointing) {caller : Nat} {call : Call} {phase : Phase}
    (hcall : state.calls caller = some (call, phase)) :
    (state.act (.advance caller)).Pointing := by
  have hchanges := state.kvs.changes_advance call phase
  have hact : state.act (.advance caller) = { state with
      kvs := (state.kvs.advance call phase).2
      calls := Function.update state.calls caller
        (some (call, (state.kvs.advance call phase).1)) } := by
    simp only [act, hcall]
  rw [hact]
  refine ⟨hchanges.wellFormed h.wellFormed, ?_⟩
  intro id obj ref container hother
  change Function.update state.calls caller _ id = _ at hother
  by_cases heq : id = caller
  · subst heq
    rw [Function.update_self, Option.some.injEq, Prod.mk.injEq] at hother
    obtain ⟨rfl, hphase⟩ := hother
    obtain ⟨hfind, hsame⟩ := advance_eq_container hphase
    simp only [hsame]
    exact ⟨h.wellFormed.container_lt hfind,
      fun hother => (h.wellFormed.container_inj hother hfind).2⟩
  · rw [Function.update_of_ne heq] at hother
    obtain ⟨hlt, hkey⟩ := h.fetched hother
    exact ⟨hlt.trans_le hchanges.next_le.2, fun hfind => hkey (hchanges.find_of_lt hlt hfind)⟩

/-- A call that has no container yet, or none any more, may be anywhere else. -/
theorem Pointing.setCall {state' : Concurrent} (h : state.Pointing) (hkvs : state'.kvs = state.kvs)
    {caller : Nat} {entry : Call × Phase}
    (hcalls : state'.calls = Function.update state.calls caller (some entry))
    (hphase : ∀ ref container, entry.2 ≠ .container ref container) : state'.Pointing := by
  constructor
  · rw [hkvs]
    exact h.wellFormed
  · intro id obj ref container hother
    rw [hcalls, Function.update_apply] at hother
    split_ifs at hother
    · exact absurd (congrArg Prod.snd (Option.some.inj hother)) (hphase ref container)
    · rw [hkvs]
      exact h.fetched hother

theorem Pointing.act (h : state.Pointing) (action : Action) : (state.act action).Pointing := by
  cases action with
  | advance caller =>
      cases hcall : state.calls caller with
      | none =>
          simp only [Concurrent.act, hcall]
          exact h
      | some entry => exact h.advance hcall
  | invoke caller call =>
      simp only [Concurrent.act]
      cases state.calls caller with
      | some entry => exact h
      | none => exact h.setCall rfl rfl fun _ _ heq => by cases heq
  | respond caller =>
      simp only [Concurrent.act]
      split
      · exact h.setCall rfl rfl fun _ _ heq => by cases heq
      · exact h

theorem Pointing.run (h : state.Pointing) (actions : List Action) : (state.run actions).Pointing := by
  induction actions generalizing state with
  | nil => exact h
  | cons action rest ih => exact ih (h.act action)

theorem new_pointing (defaultBucket : Option Bytes) : (new defaultBucket).Pointing :=
  ⟨(MDSKVS.new_wellFormed defaultBucket).1, fun hcall => by cases hcall⟩

theorem next_le_act (state : Concurrent) (action : Action) :
    state.kvs.buckets.next ≤ (state.act action).kvs.buckets.next := by
  cases action with
  | advance caller =>
      cases hcall : state.calls caller with
      | none => simp only [act, hcall, le_refl]
      | some entry =>
          simp only [act, hcall]
          exact (state.kvs.changes_advance entry.1 entry.2).next_le.1
  | invoke caller call =>
      simp only [act]
      cases state.calls caller <;> exact le_rfl
  | respond caller =>
      simp only [act]
      split <;> exact le_rfl

/-- A call that does not wait for the lock of the bucket leaves the bucket alone, and its
containers but the one it updates. -/
theorem Pointing.agrees (h : state.Pointing) {self : Nat}
    (hself : self < state.kvs.buckets.next) {action : Action}
    (hfree : state.waitsForBucket self action = false) {keys : Set Bytes}
    (hkeys : ∀ key, state.updatedKey action = some key → key ∈ keys) :
    MDSKVS.Agrees self keys state.kvs (state.act action).kvs := by
  cases action with
  | invoke caller call =>
      simp only [Concurrent.act]
      cases state.calls caller <;> exact .refl self keys _
  | respond caller =>
      simp only [Concurrent.act]
      split <;> exact .refl self keys _
  | advance caller =>
      cases hcall : state.calls caller with
      | none =>
          simp only [Concurrent.act, hcall]
          exact .refl self keys _
      | some entry =>
          obtain ⟨call, phase⟩ := entry
          simp only [waitsForBucket, hcall] at hfree
          simp only [updatedKey, hcall] at hkeys
          simp only [Concurrent.act, hcall]
          have hchanges := state.kvs.changes_advance call phase
          generalize (state.kvs.advance call phase).2 = kvs' at hchanges ⊢
          cases hchanges with
          | nothing => exact .refl self keys _
          | createBucket bucket hmissing =>
              refine ⟨?_, fun _ _ => ?_⟩
              · simp only [MDSKVS.createBucket, hmissing]
                exact Heap.get_alloc_of_ne _ _ hself.ne
              · simp only [MDSKVS.createBucket, hmissing]
          | deleteBucket bucket => exact ⟨rfl, fun _ _ => rfl⟩
          | createObject obj force ref hcreate hphase =>
              subst hcreate hphase
              have hne : self ≠ ref := fun heq => by simp [heq] at hfree
              refine ⟨Heap.get_set_of_ne _ _ hne, ?_⟩
              intro key container hkey hfind
              exact Heap.get_alloc_of_ne _ _ (h.wellFormed.container_lt hfind).ne
          | deleteObjects id ref map hdelete hphase hsub =>
              have hne : self ≠ ref := by
                rintro rfl
                rcases hdelete with rfl | rfl <;> simp [hphase] at hfree
              exact ⟨Heap.get_set_of_ne _ _ hne, fun _ _ => rfl⟩
          | updateObject obj ref container hupdate hphase =>
              subst hupdate hphase
              refine ⟨rfl, ?_⟩
              intro key other hkey hfind
              have hne : other ≠ container := by
                rintro rfl
                exact hkey (hkeys key (congrArg some ((h.fetched hcall).2 hfind).symm))
              exact Heap.get_set_of_ne _ _ hne

end Concurrent

namespace MDSKVSBucket

variable {kvs kvs' : MDSKVS} {self prefixLength : Nat} {delimiter : UInt8}

/-- One turn of the loop reads the same in both stores. -/
theorem listObject_agrees {keys : Set Bytes} (hagrees : MDSKVS.Agrees self keys kvs kvs')
    {entry : Bytes × Nat} (hkey : entry.1 ∉ keys)
    (hfind : (kvs.buckets.get self).map.find entry.1 = some entry.2)
    (state : List Object × OrderedMap Bytes Unit) :
    listObject kvs' self prefixLength delimiter state entry =
      listObject kvs self prefixLength delimiter state entry := by
  rw [listObject_eq, listObject_eq, readContainer, readContainer, hagrees.bucket,
    hagrees.containers hkey hfind]

theorem foldl_listObject_agrees {keys : Set Bytes} (hagrees : MDSKVS.Agrees self keys kvs kvs')
    {entries : List (Bytes × Nat)}
    (hentries : ∀ entry ∈ entries, entry.1 ∉ keys ∧
      (kvs.buckets.get self).map.find entry.1 = some entry.2)
    (state : List Object × OrderedMap Bytes Unit) :
    entries.foldl (listObject kvs' self prefixLength delimiter) state =
      entries.foldl (listObject kvs self prefixLength delimiter) state := by
  induction entries generalizing state with
  | nil => rfl
  | cons entry rest ih =>
      obtain ⟨hkey, hfind⟩ := hentries entry List.mem_cons_self
      rw [List.foldl_cons, List.foldl_cons, listObject_agrees hagrees hkey hfind]
      exact ih (fun other hmem => hentries other (List.mem_cons_of_mem entry hmem)) _

/-- The names in the list and the common prefixes. -/
def shape (state : List Object × OrderedMap Bytes Unit) : List ObjectID × OrderedMap Bytes Unit :=
  (state.1.map Object.id, state.2)

/-- The names and the common prefixes do not depend on the containers. -/
theorem shape_listObject (hbucket : kvs'.buckets.get self = kvs.buckets.get self)
    {state state' : List Object × OrderedMap Bytes Unit} (hshape : shape state' = shape state)
    (entry : Bytes × Nat) :
    shape (listObject kvs' self prefixLength delimiter state' entry) =
      shape (listObject kvs self prefixLength delimiter state entry) := by
  obtain ⟨hnames, hcuts⟩ := Prod.mk.inj hshape
  rw [listObject_eq, listObject_eq]
  cases cutOf prefixLength delimiter entry.1 with
  | none => simp [shape, readContainer, hbucket, hnames, hcuts]
  | some cut => simp [shape, hnames, hcuts]

theorem shape_foldl_listObject (hbucket : kvs'.buckets.get self = kvs.buckets.get self)
    {state state' : List Object × OrderedMap Bytes Unit} (hshape : shape state' = shape state)
    (entries : List (Bytes × Nat)) :
    shape (entries.foldl (listObject kvs' self prefixLength delimiter) state') =
      shape (entries.foldl (listObject kvs self prefixLength delimiter) state) := by
  induction entries generalizing state state' with
  | nil => exact hshape
  | cons entry rest ih => exact ih (shape_listObject hbucket hshape entry)

end MDSKVSBucket

namespace Listing

variable {self : Nat} {keyPrefix : Bytes} {delimiter : UInt8} {state : Listing}

open MDSKVS MDSKVSBucket

/-- While the listing runs, only objects with these keys are updated. -/
def UpdatesOnly (keys : Set Bytes) (state : Listing) : Turn → Prop
  | .call action => state.phase.locked = true →
      ∀ key, state.concurrent.updatedKey action = some key → key ∈ keys
  | .list => True

/-- The listing is called on a bucket that exists. -/
structure Valid (state : Listing) (ref : Nat) : Prop where
  pointing : state.concurrent.Pointing
  allocated : ref < state.concurrent.kvs.buckets.next

theorem Valid.step (h : state.Valid self) (turn : Turn) :
    (state.step self keyPrefix delimiter turn).Valid self := by
  cases turn with
  | call action =>
      rw [Listing.step]
      split_ifs
      · exact h
      · exact ⟨h.pointing.act action,
          h.allocated.trans_le (state.concurrent.next_le_act action)⟩
  | list => exact ⟨h.pointing, h.allocated⟩

/-- Inside the loop a turn of another call does not disturb the bucket. -/
theorem Valid.agrees (h : state.Valid self) (hlocked : state.phase.locked = true) {turn : Turn}
    {keys : Set Bytes} (honly : state.UpdatesOnly keys turn) :
    Agrees self keys state.concurrent.kvs
      (state.step self keyPrefix delimiter turn).concurrent.kvs := by
  cases turn with
  | list => exact .refl self keys _
  | call action =>
      rw [Listing.step]
      split_ifs with hwaits
      · exact .refl self keys _
      · rw [hlocked, Bool.true_and, Bool.not_eq_true] at hwaits
        exact h.pointing.agrees h.allocated hwaits (honly hlocked)

theorem held_returned {result : List Object × List Bytes} (hphase : state.phase = .returned result)
    (turns : List Turn) :
    state.held self keyPrefix delimiter turns = [] ∧
      (state.run self keyPrefix delimiter turns).phase = .returned result := by
  induction turns generalizing state with
  | nil => exact ⟨by simp [held, heldNow, hphase, ListingPhase.locked], hphase⟩
  | cons turn rest ih =>
      have hnext : (state.step self keyPrefix delimiter turn).phase = .returned result := by
        cases turn with
        | call action =>
            rw [step]
            split_ifs <;> exact hphase
        | list => simp [step, hphase, advanceListing]
      obtain ⟨hheld, hend⟩ := ih hnext
      exact ⟨by simp [held, heldNow, hphase, ListingPhase.locked, hheld], hend⟩

section Loop

variable {remaining : List (Bytes × Nat)} {listed : List Object × OrderedMap Bytes Unit}
  {result : List Object × List Bytes} {turns : List Turn} {keys : Set Bytes}

theorem phase_step_call (action : Action) :
    (state.step self keyPrefix delimiter (.call action)).phase = state.phase := by
  rw [step]
  split_ifs <;> rfl

theorem heldNow_loop (hphase : state.phase = .loop remaining listed) :
    state.heldNow = [state.concurrent.kvs] := by
  simp [heldNow, hphase, ListingPhase.locked]

theorem held_cons_loop (hphase : state.phase = .loop remaining listed) (turn : Turn) :
    state.held self keyPrefix delimiter (turn :: turns) = state.concurrent.kvs ::
      (state.step self keyPrefix delimiter turn).held self keyPrefix delimiter turns := by
  rw [held, heldNow_loop hphase, List.singleton_append]

/-- In the loop a turn of the listing reads the next container, or ends it. -/
theorem phase_step_list_cons {entry : Bytes × Nat}
    (hphase : state.phase = .loop (entry :: remaining) listed) :
    (state.step self keyPrefix delimiter .list).phase = .loop remaining
      (listObject state.concurrent.kvs self keyPrefix.length delimiter listed entry) := by
  simp only [step, hphase, advanceListing]

theorem phase_step_list_nil (hphase : state.phase = .loop [] listed) :
    (state.step self keyPrefix delimiter .list).phase = .returned (listed.1, listed.2.keys) := by
  simp only [step, hphase, advanceListing]

/-- As long as the lock is held, the bucket is the same and only the containers of the
updated keys differ. -/
theorem Valid.held_agrees (h : state.Valid self) (hphase : state.phase = .loop remaining listed)
    (honly : Throughout (Listing.step self keyPrefix delimiter) (UpdatesOnly keys) state turns) :
    ∀ kvs ∈ state.held self keyPrefix delimiter turns,
      Agrees self keys state.concurrent.kvs kvs := by
  induction turns generalizing state remaining listed with
  | nil =>
      intro kvs hmem
      rw [held, heldNow_loop hphase, List.mem_singleton] at hmem
      exact hmem ▸ .refl self keys _
  | cons turn rest ih =>
      intro kvs hmem
      rw [held_cons_loop hphase, List.mem_cons] at hmem
      rcases hmem with rfl | hmem
      · exact .refl self keys _
      have hnow : Agrees self keys state.concurrent.kvs
          (state.step self keyPrefix delimiter turn).concurrent.kvs :=
        h.agrees (by rw [hphase, ListingPhase.locked]) honly.1
      cases turn with
      | call action =>
          exact hnow.trans (ih (h.step _) ((phase_step_call action).trans hphase) honly.2 kvs hmem)
      | list =>
          cases remaining with
          | nil =>
              rw [(held_returned (phase_step_list_nil hphase) rest).1] at hmem
              cases hmem
          | cons entry remaining =>
              exact ih (h.step _) (phase_step_list_cons hphase) honly.2 kvs hmem

variable (self keyPrefix delimiter) in
/-- The turns from inside the loop to the end of the listing. -/
inductive Loops (result : List Object × List Bytes) : Listing → List Turn →
    List (Bytes × Nat) → List Object × OrderedMap Bytes Unit → Prop where
  | call {state : Listing} {remaining : List (Bytes × Nat)}
      {listed : List Object × OrderedMap Bytes Unit} (action : Action) (turns : List Turn)
      (hvalid : state.Valid self) (hphase : state.phase = .loop remaining listed)
      (hrest : Loops result (state.step self keyPrefix delimiter (.call action)) turns
        remaining listed) :
      Loops result state (.call action :: turns) remaining listed
  | read {state : Listing} {remaining : List (Bytes × Nat)}
      {listed : List Object × OrderedMap Bytes Unit} (entry : Bytes × Nat) (turns : List Turn)
      (hvalid : state.Valid self) (hphase : state.phase = .loop (entry :: remaining) listed)
      (hrest : Loops result (state.step self keyPrefix delimiter .list) turns remaining
        (listObject state.concurrent.kvs self keyPrefix.length delimiter listed entry)) :
      Loops result state (.list :: turns) (entry :: remaining) listed
  | last {state : Listing} {listed : List Object × OrderedMap Bytes Unit} (turns : List Turn)
      (hvalid : state.Valid self) (hphase : state.phase = .loop [] listed)
      (hresult : result = (listed.1, listed.2.keys)) :
      Loops result state (.list :: turns) [] listed

theorem loops_of_returned (h : state.Valid self) (hphase : state.phase = .loop remaining listed)
    (hend : (state.run self keyPrefix delimiter turns).phase = .returned result) :
    Loops self keyPrefix delimiter result state turns remaining listed := by
  induction turns generalizing state remaining listed with
  | nil =>
      rw [run, List.foldl_nil, hphase] at hend
      cases hend
  | cons turn rest ih =>
      cases turn with
      | call action =>
          exact .call action rest h hphase
            (ih (h.step _) ((phase_step_call action).trans hphase) hend)
      | list =>
          cases remaining with
          | nil =>
              have hreturned : (state.run self keyPrefix delimiter (.list :: rest)).phase =
                  .returned (listed.1, listed.2.keys) :=
                (held_returned (phase_step_list_nil hphase) rest).2
              refine .last rest h hphase ?_
              exact ListingPhase.returned.inj (hend.symm.trans hreturned)
          | cons entry remaining =>
              exact .read entry rest h hphase (ih (h.step _) (phase_step_list_cons hphase) hend)

/-- The rest of the loop, all of it at one instant. -/
def listRest (kvs : MDSKVS) (self : Nat) (keyPrefix : Bytes) (delimiter : UInt8)
    (remaining : List (Bytes × Nat)) (listed : List Object × OrderedMap Bytes Unit) :
    List Object × List Bytes :=
  ((remaining.foldl (listObject kvs self keyPrefix.length delimiter) listed).1,
    (remaining.foldl (listObject kvs self keyPrefix.length delimiter) listed).2.keys)

/-- A turn of another call leaves the bucket as it is. -/
theorem bucket_step_call (h : state.Valid self) (hphase : state.phase = .loop remaining listed)
    (action : Action) :
    (state.step self keyPrefix delimiter (.call action)).concurrent.kvs.buckets.get self =
      state.concurrent.kvs.buckets.get self := by
  have hagrees : Agrees self Set.univ state.concurrent.kvs
      (state.step self keyPrefix delimiter (.call action)).concurrent.kvs :=
    h.agrees (by rw [hphase, ListingPhase.locked]) fun _ _ _ => Set.mem_univ _
  exact hagrees.bucket

/-- The names and the common prefixes are those of any store with this bucket. -/
theorem Loops.shape_eq (h : Loops self keyPrefix delimiter result state turns remaining listed)
    {kvs : MDSKVS} (hbucket : kvs.buckets.get self = state.concurrent.kvs.buckets.get self) :
    result.1.map Object.id =
        (listRest kvs self keyPrefix delimiter remaining listed).1.map Object.id ∧
      result.2 = (listRest kvs self keyPrefix delimiter remaining listed).2 := by
  induction h with
  | call action turns hvalid hphase hrest ih =>
      exact ih (hbucket.trans (bucket_step_call hvalid hphase action).symm)
  | @read state remaining listed entry turns hvalid hphase hrest ih =>
      obtain ⟨hnames, hcuts⟩ := ih hbucket
      have hnow : shape (listObject state.concurrent.kvs self keyPrefix.length delimiter listed
          entry) = shape (listObject kvs self keyPrefix.length delimiter listed entry) :=
        shape_listObject hbucket.symm rfl entry
      have hlater : shape (remaining.foldl (listObject kvs self keyPrefix.length delimiter) _) =
          shape (remaining.foldl (listObject kvs self keyPrefix.length delimiter) _) :=
        shape_foldl_listObject rfl hnow remaining
      obtain ⟨hnames', hcuts'⟩ := Prod.mk.inj hlater
      exact ⟨hnames.trans hnames', hcuts.trans (congrArg OrderedMap.keys hcuts')⟩
  | last turns hvalid hphase hresult =>
      rw [hresult]
      exact ⟨rfl, rfl⟩

variable (self keyPrefix delimiter) in
/-- The object is one of the entries, as the store has it at the instant. -/
def ReadAt (stores : List MDSKVS) (entries : List (Bytes × Nat)) (instant : Nat) (obj : Object) :
    Prop :=
  ∃ kvs, stores[instant]? = some kvs ∧ ∃ entry ∈ entries,
    cutOf keyPrefix.length delimiter entry.1 = none ∧
      obj = readContainer kvs self entry.2 entry.1

theorem readAt_later {stores : List MDSKVS} {entries entries' : List (Bytes × Nat)}
    (hsub : entries ⊆ entries') (now : MDSKVS) {instants : List Nat} {objects : List Object}
    (hread : List.Forall₂ (ReadAt self keyPrefix delimiter stores entries) instants objects) :
    List.Forall₂ (ReadAt self keyPrefix delimiter (now :: stores) entries')
      (instants.map (· + 1)) objects := by
  rw [List.forall₂_map_left_iff]
  refine hread.imp ?_
  rintro instant obj ⟨kvs, hstore, entry, hmem, hcut, hobj⟩
  exact ⟨kvs, by rwa [List.getElem?_cons_succ], entry, hsub hmem, hcut, hobj⟩

theorem pairwise_later {instants : List Nat} (hordered : instants.Pairwise (· ≤ ·)) :
    (instants.map (· + 1)).Pairwise (· ≤ ·) := by
  rw [List.pairwise_map]
  exact hordered.imp fun hle => Nat.succ_le_succ hle

/-- Each container is read at an instant of the listing, one after the other. -/
theorem Loops.instants (h : Loops self keyPrefix delimiter result state turns remaining listed) :
    ∃ (instants : List Nat) (objects : List Object), result.1 = listed.1 ++ objects ∧
      instants.Pairwise (· ≤ ·) ∧
      List.Forall₂ (ReadAt self keyPrefix delimiter (state.held self keyPrefix delimiter turns)
        remaining) instants objects := by
  induction h with
  | call action turns hvalid hphase hrest ih =>
      obtain ⟨instants, objects, hresult, hordered, hread⟩ := ih
      rw [held_cons_loop hphase]
      exact ⟨_, objects, hresult, pairwise_later hordered,
        readAt_later (List.Subset.refl _) _ hread⟩
  | @read state remaining listed entry turns hvalid hphase hrest ih =>
      obtain ⟨instants, objects, hresult, hordered, hread⟩ := ih
      have hlater := readAt_later (List.subset_cons_self entry remaining)
        state.concurrent.kvs hread
      rw [listObject_eq] at hresult
      rw [held_cons_loop hphase]
      cases hcut : cutOf keyPrefix.length delimiter entry.1 with
      | some cut =>
          simp only [hcut] at hresult
          exact ⟨_, objects, hresult, pairwise_later hordered, hlater⟩
      | none =>
          simp only [hcut, List.append_assoc] at hresult
          refine ⟨0 :: instants.map (· + 1), _ :: objects, hresult,
            List.pairwise_cons.2 ⟨fun _ _ => Nat.zero_le _, pairwise_later hordered⟩,
            .cons ?_ hlater⟩
          exact ⟨state.concurrent.kvs, rfl, entry, List.mem_cons_self, hcut, rfl⟩
  | last turns hvalid hphase hresult =>
      exact ⟨[], [], by rw [hresult, List.append_nil], .nil, .nil⟩

/-- If one key at most is updated meanwhile, everything is as at the instant at which that
key was read. -/
theorem Loops.snapshot (h : Loops self keyPrefix delimiter result state turns remaining listed)
    {key : Bytes}
    (honly : Throughout (step self keyPrefix delimiter) (UpdatesOnly {key}) state turns)
    (hentries : ∀ entry ∈ remaining,
      (state.concurrent.kvs.buckets.get self).map.find entry.1 = some entry.2)
    (hnodup : (remaining.map Prod.fst).Nodup) :
    ∃ kvs ∈ state.held self keyPrefix delimiter turns,
      result = listRest kvs self keyPrefix delimiter remaining listed := by
  induction h with
  | call action turns hvalid hphase hrest ih =>
      have hbucket : (step self keyPrefix delimiter _ (.call action)).concurrent.kvs.buckets.get
          self = _ := bucket_step_call hvalid hphase action
      obtain ⟨kvs, hmem, hresult⟩ := ih honly.2 (by rwa [hbucket]) hnodup
      rw [held_cons_loop hphase]
      exact ⟨kvs, List.mem_cons_of_mem _ hmem, hresult⟩
  | @read state remaining listed entry turns hvalid hphase hrest ih =>
      rw [List.map_cons, List.nodup_cons] at hnodup
      have hlater : ∀ other ∈ remaining,
          (state.concurrent.kvs.buckets.get self).map.find other.1 = some other.2 :=
        fun other hmem => hentries other (List.mem_cons_of_mem entry hmem)
      obtain ⟨kvs, hmem, hresult⟩ := ih honly.2 hlater hnodup.2
      have hagrees : Agrees self {key} state.concurrent.kvs kvs :=
        (hvalid.step .list).held_agrees (phase_step_list_cons hphase) honly.2 kvs hmem
      rw [held_cons_loop hphase]
      by_cases hkey : entry.1 = key
      · -- The updated key is read now, and none of the keys that follow is that key.
        refine ⟨state.concurrent.kvs, List.mem_cons_self, ?_⟩
        rw [hresult, listRest, listRest, foldl_listObject_agrees hagrees, List.foldl_cons]
        intro other hother
        refine ⟨?_, hlater other hother⟩
        rintro rfl
        exact hnodup.1 (hkey ▸ List.mem_map_of_mem hother)
      · refine ⟨kvs, List.mem_cons_of_mem _ hmem, ?_⟩
        rw [hresult, listRest, listRest, List.foldl_cons,
          listObject_agrees hagrees hkey (hentries entry List.mem_cons_self)]
  | last turns hvalid hphase hresult =>
      rw [held_cons_loop hphase]
      exact ⟨_, List.mem_cons_self, hresult⟩

end Loop

/-- Before it takes the lock, the listing has seen nothing. -/
theorem exists_lock {turns : List Turn} {result : List Object × List Bytes}
    (h : state.Valid self) (hphase : state.phase = .called)
    (hend : (state.run self keyPrefix delimiter turns).phase = .returned result) :
    ∃ (locking : Listing) (later : List Turn), locking.Valid self ∧ locking.phase = .called ∧
      ((locking.step self keyPrefix delimiter .list).run self keyPrefix delimiter later).phase =
        .returned result ∧
      state.held self keyPrefix delimiter turns =
        (locking.step self keyPrefix delimiter .list).held self keyPrefix delimiter later ∧
      ∀ keys, Throughout (step self keyPrefix delimiter) (UpdatesOnly keys) state turns →
        Throughout (step self keyPrefix delimiter) (UpdatesOnly keys)
          (locking.step self keyPrefix delimiter .list) later := by
  induction turns generalizing state with
  | nil =>
      rw [run, List.foldl_nil, hphase] at hend
      cases hend
  | cons turn rest ih =>
      have hnow : state.heldNow = [] := by simp [heldNow, hphase, ListingPhase.locked]
      have hheld : state.held self keyPrefix delimiter (turn :: rest) =
          (state.step self keyPrefix delimiter turn).held self keyPrefix delimiter rest := by
        rw [held, hnow, List.nil_append]
      cases turn with
      | list => exact ⟨state, rest, h, hphase, hend, hheld, fun _ honly => honly.2⟩
      | call action =>
          obtain ⟨locking, later, hvalid, hcalled, hreturned, hsame, honly⟩ :=
            ih (h.step _) ((phase_step_call action).trans hphase) hend
          exact ⟨locking, later, hvalid, hcalled, hreturned, hheld.trans hsame,
            fun keys hall => honly keys hall.2⟩

theorem throughout_updatesOnly_univ (state : Listing) (turns : List Turn) :
    Throughout (step self keyPrefix delimiter) (UpdatesOnly Set.univ) state turns := by
  induction turns generalizing state with
  | nil => trivial
  | cons turn rest ih =>
      refine ⟨?_, ih _⟩
      cases turn with
      | call action => exact fun _ _ _ => Set.mem_univ _
      | list => trivial

theorem mem_held_of_loop {remaining : List (Bytes × Nat)}
    {listed : List Object × OrderedMap Bytes Unit} (hphase : state.phase = .loop remaining listed)
    (turns : List Turn) :
    state.concurrent.kvs ∈ state.held self keyPrefix delimiter turns := by
  cases turns with
  | nil =>
      rw [held, heldNow_loop hphase]
      exact List.mem_singleton_self _
  | cons turn rest =>
      rw [held_cons_loop hphase]
      exact List.mem_cons_self

theorem listObjects_eq_listRest (kvs : MDSKVS) (ref : Nat) (keyPrefix : Bytes)
    (delimiter : UInt8) :
    listObjects kvs ref keyPrefix delimiter = listRest kvs ref keyPrefix delimiter
      ((kvs.buckets.get ref).map.range (prefixSearch (kvs.buckets.get ref).map keyPrefix))
      ([], OrderedMap.empty) := rfl

theorem find_of_getBucket {kvs : MDSKVS} {bucket : Bytes} {ref : Nat}
    (hget : kvs.getBucket bucket = .ok ref) : kvs.map.find bucket = some ref := by
  cases hfind : kvs.map.find bucket with
  | none => simp [MDSKVS.getBucket, hfind] at hget
  | some found =>
      simp only [MDSKVS.getBucket, hfind, Except.ok.injEq] at hget
      rw [hget]

theorem find_of_mem_range {map : OrderedMap Bytes Nat} {keyPrefix : Bytes} {entry : Bytes × Nat}
    (hmem : entry ∈ map.range (prefixSearch map keyPrefix)) :
    map.find entry.1 = some entry.2 := by
  rw [range_prefixSearch, List.mem_filter] at hmem
  exact (OrderedMap.find_eq_some_iff _ _ _).2 hmem.1

/-- The loop comes to every key once. -/
theorem nodup_keys_range (map : OrderedMap Bytes Nat) (keyPrefix : Bytes) :
    ((map.range (prefixSearch map keyPrefix)).map Prod.fst).Nodup := by
  rw [range_prefixSearch, List.Nodup, List.pairwise_map]
  exact (map.sorted.filter _).imp fun hlt => hlt.ne

/-- Called on a bucket at any moment, `listObjects` returns the names and the common
prefixes that the bucket has at all instants of the listing, and each object as it is at an
instant of its own, the instants in the order of the list.  When the updates that are made
meanwhile are all of one key, there is one instant for all of them. -/
theorem run_listing (defaultBucket : Option Bytes) (earlier : List Action) {bucket : Bytes}
    {ref : Nat} (hget : ((Concurrent.new defaultBucket).run earlier).kvs.getBucket bucket = .ok ref)
    (keyPrefix : Bytes) (delimiter : UInt8) (turns : List Turn)
    {result : List Object × List Bytes}
    (hend : (run ref keyPrefix delimiter ⟨(Concurrent.new defaultBucket).run earlier, .called⟩
      turns).phase = .returned result) :
    held ref keyPrefix delimiter ⟨(Concurrent.new defaultBucket).run earlier, .called⟩ turns ≠ [] ∧
    (∀ kvs ∈ held ref keyPrefix delimiter ⟨(Concurrent.new defaultBucket).run earlier, .called⟩
        turns,
      (listObjects kvs ref keyPrefix delimiter).1.map Object.id = result.1.map Object.id ∧
        (listObjects kvs ref keyPrefix delimiter).2 = result.2) ∧
    (∃ instants : List Nat, instants.Pairwise (· ≤ ·) ∧
      List.Forall₂ (fun instant obj => ∃ kvs, (held ref keyPrefix delimiter
          ⟨(Concurrent.new defaultBucket).run earlier, .called⟩ turns)[instant]? = some kvs ∧
        obj ∈ (listObjects kvs ref keyPrefix delimiter).1) instants result.1) ∧
    ∀ key, Throughout (step ref keyPrefix delimiter) (UpdatesOnly {key})
        ⟨(Concurrent.new defaultBucket).run earlier, .called⟩ turns →
      ∃ kvs ∈ held ref keyPrefix delimiter
          ⟨(Concurrent.new defaultBucket).run earlier, .called⟩ turns,
        listObjects kvs ref keyPrefix delimiter = result := by
  have hpointing := (Concurrent.new_pointing defaultBucket).run earlier
  generalize (Concurrent.new defaultBucket).run earlier = concurrent at *
  have hfind := find_of_getBucket hget
  obtain ⟨locking, later, hvalid, hcalled, hreturned, hsame, honly⟩ :=
    exists_lock ⟨hpointing, hpointing.wellFormed.bucket_lt hfind⟩ rfl hend
  rw [hsame]
  -- The listing has the lock from here on; its range is that of the store it found.
  have hphase : (locking.step ref keyPrefix delimiter .list).phase = .loop
      ((locking.concurrent.kvs.buckets.get ref).map.range
        (prefixSearch (locking.concurrent.kvs.buckets.get ref).map keyPrefix))
      ([], OrderedMap.empty) := by
    simp only [step, hcalled, advanceListing]
  have hlocked : (locking.step ref keyPrefix delimiter .list).Valid ref := hvalid.step _
  have hloops := loops_of_returned hlocked hphase hreturned
  have hbucket : ∀ kvs ∈ (locking.step ref keyPrefix delimiter .list).held ref keyPrefix
      delimiter later, kvs.buckets.get ref = locking.concurrent.kvs.buckets.get ref := by
    intro kvs hmem
    exact (hlocked.held_agrees hphase (throughout_updatesOnly_univ _ later) kvs hmem).bucket
  refine ⟨List.ne_nil_of_mem (mem_held_of_loop hphase later), ?_, ?_, ?_⟩
  · intro kvs hmem
    have hshape := hloops.shape_eq (hbucket kvs hmem)
    rw [listObjects_eq_listRest, hbucket kvs hmem]
    exact ⟨hshape.1.symm, hshape.2.symm⟩
  · obtain ⟨instants, objects, hresult, hordered, hread⟩ := hloops.instants
    refine ⟨instants, hordered, ?_⟩
    rw [hresult, List.nil_append]
    refine hread.imp ?_
    rintro instant obj ⟨kvs, hinstant, entry, hmem, hcut, rfl⟩
    refine ⟨kvs, hinstant, ?_⟩
    rw [range_prefixSearch, List.mem_filter, decide_eq_true_eq] at hmem
    rw [listObjects_fst, hbucket kvs (List.mem_of_getElem? hinstant)]
    refine List.mem_map_of_mem (List.mem_filter.2 ⟨hmem.1, ?_⟩)
    simp [hcut, hmem.2]
  · intro key hkey
    obtain ⟨kvs, hmem, hresult⟩ := hloops.snapshot (honly _ hkey)
      (fun entry hentry => find_of_mem_range hentry) (nodup_keys_range _ keyPrefix)
    refine ⟨kvs, hmem, ?_⟩
    rw [listObjects_eq_listRest, hbucket kvs hmem, hresult]

namespace Sample

def object (key : Bytes) (size : UInt64) : Object :=
  ⟨⟨text "data", key⟩, ⟨text "geds://node", size, size, none⟩⟩

/-- The bucket with two objects, and two updates that have fetched their containers. -/
def earlier : List Action :=
  [.invoke 0 (.createObject (object (text "a") 1) true), .advance 0, .advance 0, .advance 0,
    .advance 0, .invoke 1 (.createObject (object (text "b") 1) true), .advance 1, .advance 1,
    .invoke 2 (.updateObject (object (text "a") 2)), .advance 2, .advance 2,
    .invoke 3 (.updateObject (object (text "b") 2)), .advance 3, .advance 3]

/-- The first object is updated right after it is listed, then the second before it is. -/
def turns : List Turn :=
  [.list, .list, .call (.advance 2), .call (.advance 3), .list, .list]

/-- Only the second object is updated. -/
def oneUpdate : List Turn := [.list, .list, .call (.advance 3), .list, .list]

def sizes (objects : List Object) : List UInt64 := objects.map fun obj => obj.info.size

/-- What the bucket holds at the instants of the listing. -/
theorem sizes_held :
    (held 0 [] 0 ⟨(Concurrent.new none).run earlier, .called⟩ turns).map
      (fun kvs => sizes (listObjects kvs 0 [] 0).1) = [[1, 1], [1, 1], [2, 1], [2, 2], [2, 2]] := by
  decide

theorem torn_listing :
    ¬ ∀ (defaultBucket : Option Bytes) (earlier : List Action) (bucket : Bytes) (ref : Nat)
      (keyPrefix : Bytes) (delimiter : UInt8) (turns : List Turn)
      (result : List Object × List Bytes),
      ((Concurrent.new defaultBucket).run earlier).kvs.getBucket bucket = .ok ref →
      (run ref keyPrefix delimiter ⟨(Concurrent.new defaultBucket).run earlier, .called⟩
        turns).phase = .returned result →
      ∃ kvs ∈ held ref keyPrefix delimiter ⟨(Concurrent.new defaultBucket).run earlier, .called⟩
        turns, (listObjects kvs ref keyPrefix delimiter).1 = result.1 := by
  intro hall
  obtain ⟨kvs, hmem, hlisted⟩ := hall none earlier (text "data") 0 [] 0 turns
    ([object (text "a") 1, object (text "b") 2], []) rfl rfl
  have hsizes := List.mem_map_of_mem (f := fun kvs => sizes (listObjects kvs 0 [] 0).1) hmem
  rw [sizes_held, hlisted] at hsizes
  exact absurd hsizes (by decide)

theorem oneUpdate_snapshot :
    ((Concurrent.new none).run earlier).kvs.getBucket (text "data") = .ok 0 ∧
    (run 0 [] 0 ⟨(Concurrent.new none).run earlier, .called⟩ oneUpdate).phase =
      .returned ([object (text "a") 1, object (text "b") 2], []) ∧
    ∃ kvs ∈ held 0 [] 0 ⟨(Concurrent.new none).run earlier, .called⟩ oneUpdate,
      listObjects kvs 0 [] 0 = ([object (text "a") 1, object (text "b") 2], []) := by
  refine ⟨rfl, rfl, (@run_listing none earlier (text "data") 0 rfl [] 0 oneUpdate _
    rfl).2.2.2 (text "b") ⟨trivial, trivial, ?_, trivial, trivial, trivial⟩⟩
  intro _ key hkey
  exact (Option.some.inj hkey).symm

end Sample

end Listing

end GEDS
