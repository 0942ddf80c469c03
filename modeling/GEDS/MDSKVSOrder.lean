/-
A sequential order that explains the memory of the metadata store.  A section
that works on a bucket that was deleted meanwhile takes effect just before the
`deleteBucket`; one that works on a container that was replaced or erased
meanwhile takes effect just before the call that unlinked the container.
-/
import GEDS.MDSKVSConcurrent

namespace GEDS

/-- The key an object call addresses; calls on buckets have none. -/
def Call.key : Call → Bytes
  | .createObject obj _ | .updateObject obj => obj.id.key
  | .deleteObject id | .deleteObjectPrefix id | .lookup id => id.key
  | .createBucket _ | .deleteBucket _ | .bucketStatus _ => []

/-- The calls that unlink the container of a key. -/
def Call.Unlinks (key : Bytes) : Call → Prop
  | .createObject obj _ => obj.id.key = key
  | .deleteObject id => id.key = key
  | .deleteObjectPrefix id => id.key <+: key
  | _ => False

namespace Reference

variable {model : Reference}

/-- An object call in an existing bucket. -/
theorem perform_of_bucket {call : Call} {contents : Contents}
    (hcall : call.staysInBucket = true) (hbucket : model call.bucket = some contents) :
    model.perform call = ((contents.perform call.bucket call).1,
      Function.update model call.bucket
        (some (contents.perform call.bucket call).2)) := by
  rw [perform_eq_onBucket model hcall, onBucket, hbucket]

theorem perform_createObject_of_bucket {obj : Object} {force : Bool}
    {contents : Contents} (hbucket : model obj.id.bucket = some contents) :
    model.perform (.createObject obj force) = (.status .okStatus,
      Function.update model obj.id.bucket
        (some (Function.update contents obj.id.key (some obj.info)))) := by
  simp [perform, hbucket, onBucket, Call.bucket, Contents.perform]

/-- `deleteBucket` forgets whatever happened inside the bucket. -/
theorem deleteBucket_absorbs {bucket : Bytes} {contents : Contents}
    (hbucket : model bucket = some contents) (after : Contents) :
    perform (Function.update model bucket (some after)) (.deleteBucket bucket) =
      model.perform (.deleteBucket bucket) := by
  simp [perform, hbucket]

/-- Unlinking a key forgets the value it had. -/
theorem unlink_absorbs {call : Call} {key : Bytes} (hunlinks : call.Unlinks key)
    {contents : Contents} (hbucket : model call.bucket = some contents)
    {old : ObjectInfo} (hkey : contents key = some old) (info : ObjectInfo) :
    perform (Function.update model call.bucket
        (some (Function.update contents key (some info)))) call =
      model.perform call := by
  cases call with
  | createObject obj force =>
      have hobj : obj.id.key = key := hunlinks
      subst hobj
      change perform (Function.update model obj.id.bucket _) _ = _
      rw [perform_createObject_of_bucket hbucket,
        perform_createObject_of_bucket (Function.update_self _ _ _)]
      simp
  | deleteObject id =>
      have hid : id.key = key := hunlinks
      subst hid
      rw [perform_of_bucket rfl hbucket, perform_of_bucket rfl (Function.update_self _ _ _)]
      simp [Contents.perform, hkey]
  | deleteObjectPrefix id =>
      have hpre : id.key <+: key := hunlinks
      have hbelow : Contents.AllBelow (Function.update contents key (some info)) id.key ↔
          contents.AllBelow id.key := by
        refine forall_congr' fun other => ?_
        by_cases hother : other = key
        · simp [hother, hkey]
        · rw [Function.update_of_ne hother]
      have herase : Contents.erasePrefix (Function.update contents key (some info))
          id.key = contents.erasePrefix id.key := by
        funext other
        by_cases hother : other = key
        · simp [Contents.erasePrefix, hother, hpre]
        · simp [Contents.erasePrefix, hother]
      rw [perform_of_bucket rfl hbucket, perform_of_bucket rfl (Function.update_self _ _ _)]
      simp only [Contents.perform, herase, Function.update_idem, Prod.mk.injEq,
        Response.status.injEq, and_true]
      by_cases hall : contents.AllBelow id.key
      · rw [if_pos hall, if_pos (hbelow.mpr hall)]
      · rw [if_neg hall, if_neg (mt hbelow.mp hall)]
  | updateObject obj => exact hunlinks.elim
  | lookup id => exact hunlinks.elim
  | createBucket bucket => exact hunlinks.elim
  | deleteBucket bucket => exact hunlinks.elim
  | bucketStatus bucket => exact hunlinks.elim

end Reference

/-- The order built so far, and what explains the memory that calls still
point to: the `deleteBucket` that detached a bucket, the call that unlinked a
container, and the bucket and key the container was made for. -/
structure Ghost where
  order : List (Entry Call Response)
  detachedBy : Nat → Option Nat
  unlinkedBy : Nat → Option Nat
  owner : Nat → Nat × Bytes

/-- The reference state just before an anchor of the order. -/
noncomputable abbrev Reference.before (init : Reference)
    (order : List (Entry Call Response)) (anchor : Option Nat) : Reference :=
  stateBefore Reference.perform init order anchor

/-- Each bucket has the contents the reference has where the bucket left the
table; for a bucket in the table that is the end of the order. -/
structure ExplainsBuckets (init : Reference) (ghost : Ghost) (kvs : MDSKVS) : Prop where
  current : init.before ghost.order none = kvs.contents
  attached : ∀ {bucket : Bytes} {ref : Nat}, kvs.map.find bucket = some ref →
    ghost.detachedBy ref = none
  in_table : ∀ {ref : Nat}, ref < kvs.buckets.next → ghost.detachedBy ref = none →
    kvs.map.find (kvs.buckets.get ref).name = some ref
  past : ∀ {ref id : Nat}, ref < kvs.buckets.next → ghost.detachedBy ref = some id →
    init.before ghost.order (some id) (kvs.buckets.get ref).name =
      some (kvs.bucketContents ref)
  detached : ∀ {ref id : Nat}, ref < kvs.buckets.next →
    ghost.detachedBy ref = some id → ∃ entry ∈ ghost.order, entry.id = id ∧
      entry.call = .deleteBucket (kvs.buckets.get ref).name
  detached_inj : ∀ {ref ref' id : Nat}, ref < kvs.buckets.next →
    ref' < kvs.buckets.next → ghost.detachedBy ref = some id →
    ghost.detachedBy ref' = some id → ref = ref'

/-- Each unlinked container has the value the reference has where it was
unlinked. -/
structure ExplainsContainers (init : Reference) (ghost : Ghost) (kvs : MDSKVS) :
    Prop where
  owner_lt : ∀ {container : Nat}, container < kvs.containers.next →
    (ghost.owner container).1 < kvs.buckets.next
  linked : ∀ {ref : Nat} {key : Bytes} {container : Nat},
    (kvs.buckets.get ref).map.find key = some container →
    ghost.owner container = (ref, key) ∧ ghost.unlinkedBy container = none
  in_bucket : ∀ {container : Nat}, container < kvs.containers.next →
    ghost.unlinkedBy container = none →
    (kvs.buckets.get (ghost.owner container).1).map.find
      (ghost.owner container).2 = some container
  unlinked : ∀ {container id : Nat}, container < kvs.containers.next →
    ghost.unlinkedBy container = some id → ∃ entry ∈ ghost.order, entry.id = id ∧
      entry.call.bucket = (kvs.buckets.get (ghost.owner container).1).name ∧
      entry.call.Unlinks (ghost.owner container).2
  value : ∀ {container id : Nat}, container < kvs.containers.next →
    ghost.unlinkedBy container = some id → ∃ contents : Contents,
      init.before ghost.order (some id)
          (kvs.buckets.get (ghost.owner container).1).name = some contents ∧
        contents (ghost.owner container).2 = some (kvs.containers.get container)
  unlinked_inj : ∀ {container container' id : Nat},
    container < kvs.containers.next → container' < kvs.containers.next →
    ghost.unlinkedBy container = some id → ghost.unlinkedBy container' = some id →
    (ghost.owner container).2 = (ghost.owner container').2 → container = container'

/-- The order is a legal run of the reference that explains the memory. -/
structure Explains (init : Reference) (ghost : Ghost) (kvs : MDSKVS) : Prop where
  wellFormed : kvs.WellFormed
  nodup : (ghost.order.map Entry.id).Nodup
  legal : Legal Reference.perform init ghost.order
  buckets : ExplainsBuckets init ghost kvs
  containers : ExplainsContainers init ghost kvs

/-- What a committed entry does to the anchors that calls already hold: at
most the entry itself appears behind them. -/
structure Commits (init : Reference) (ghost : Ghost) (kvs : MDSKVS)
    (entry : Entry Call Response) (anchor : Option Nat) (ghost' : Ghost)
    (kvs' : MDSKVS) : Prop where
  explains : Explains init ghost' kvs'
  order_eq : ghost'.order = insertBefore entry ghost.order anchor
  buckets_le : kvs.buckets.next ≤ kvs'.buckets.next
  containers_le : kvs.containers.next ≤ kvs'.containers.next
  name_eq : ∀ {ref : Nat}, ref < kvs.buckets.next →
    (kvs'.buckets.get ref).name = (kvs.buckets.get ref).name
  owner_eq : ∀ {container : Nat}, container < kvs.containers.next →
    ghost'.owner container = ghost.owner container
  bucket_grows : ∀ {ref id : Nat}, ref < kvs.buckets.next →
    id ∈ idsFrom ghost'.order (ghost'.detachedBy ref) →
    id = entry.id ∨ id ∈ idsFrom ghost.order (ghost.detachedBy ref)
  container_grows : ∀ {container id : Nat}, container < kvs.containers.next →
    id ∈ idsFrom ghost'.order (ghost'.unlinkedBy container) →
    id = entry.id ∨ id ∈ idsFrom ghost.order (ghost.unlinkedBy container) ∨
      id ∈ idsFrom ghost.order (ghost.detachedBy (ghost.owner container).1)

namespace ExplainsBuckets

variable {init : Reference} {ghost : Ghost} {kvs : MDSKVS}

theorem isAnchor (h : ExplainsBuckets init ghost kvs) {ref : Nat}
    (href : ref < kvs.buckets.next) : IsAnchor ghost.order (ghost.detachedBy ref) := by
  intro id hid
  obtain ⟨entry, hentry, rfl, _⟩ := h.detached href hid
  exact List.mem_map_of_mem hentry

theorem bucket (h : ExplainsBuckets init ghost kvs) {ref : Nat}
    (href : ref < kvs.buckets.next) :
    init.before ghost.order (ghost.detachedBy ref) (kvs.buckets.get ref).name =
      some (kvs.bucketContents ref) := by
  cases hdetached : ghost.detachedBy ref with
  | none => rw [h.current, MDSKVS.contents_of_find (h.in_table href hdetached)]
  | some id => exact h.past href hdetached

end ExplainsBuckets

namespace ExplainsContainers

variable {init : Reference} {ghost : Ghost} {kvs : MDSKVS}

theorem isAnchor (h : ExplainsContainers init ghost kvs) {container : Nat}
    (hlt : container < kvs.containers.next) :
    IsAnchor ghost.order (ghost.unlinkedBy container) := by
  intro id hid
  obtain ⟨entry, hentry, rfl, _⟩ := h.unlinked hlt hid
  exact List.mem_map_of_mem hentry

/-- A commit that leaves every container and its anchor alone. -/
theorem keep (h : ExplainsContainers init ghost kvs) {ghost' : Ghost} {kvs' : MDSKVS}
    {entry : Entry Call Response} {anchor : Option Nat}
    (horder : ghost'.order = insertBefore entry ghost.order anchor)
    (howner : ghost'.owner = ghost.owner)
    (hunlinked : ghost'.unlinkedBy = ghost.unlinkedBy)
    (hcontainers : kvs'.containers = kvs.containers)
    (hle : kvs.buckets.next ≤ kvs'.buckets.next)
    (hget : ∀ {ref : Nat}, ref < kvs.buckets.next →
      kvs'.buckets.get ref = kvs.buckets.get ref)
    (hold : ∀ {ref : Nat} {key : Bytes} {container : Nat},
      (kvs'.buckets.get ref).map.find key = some container →
      (kvs.buckets.get ref).map.find key = some container)
    (hbefore : ∀ {container id : Nat}, container < kvs.containers.next →
      ghost.unlinkedBy container = some id →
      init.before ghost'.order (some id) = init.before ghost.order (some id)) :
    ExplainsContainers init ghost' kvs' := by
  refine ⟨?_, ?_, ?_, ?_, ?_, ?_⟩
  · intro container hlt
    rw [hcontainers] at hlt
    rw [howner]
    exact (h.owner_lt hlt).trans_le hle
  · intro ref key container hfind
    rw [howner, hunlinked]
    exact h.linked (hold hfind)
  · intro container hlt hnone
    rw [hcontainers] at hlt
    rw [hunlinked] at hnone
    rw [howner, hget (h.owner_lt hlt)]
    exact h.in_bucket hlt hnone
  · intro container id hlt hsome
    rw [hcontainers] at hlt
    rw [hunlinked] at hsome
    obtain ⟨other, hmem, hother⟩ := h.unlinked hlt hsome
    rw [horder, howner, hget (h.owner_lt hlt)]
    exact ⟨other, (mem_insertBefore_iff _ _ _ _).mpr (Or.inr hmem), hother⟩
  · intro container id hlt hsome
    rw [hcontainers] at hlt ⊢
    rw [hunlinked] at hsome
    rw [howner, hget (h.owner_lt hlt), hbefore hlt hsome]
    exact h.value hlt hsome
  · intro container container' id hlt hlt' hsome hsome' hkey
    rw [hcontainers] at hlt hlt'
    rw [hunlinked] at hsome hsome'
    rw [howner] at hkey
    exact h.unlinked_inj hlt hlt' hsome hsome' hkey

end ExplainsContainers

namespace Explains

variable {init : Reference} {ghost : Ghost} {kvs kvs' : MDSKVS}
  {entry : Entry Call Response}

section Root

/-- At the end of the order the memory follows the call. -/
theorem before_root_none (h : Explains init ghost kvs)
    (hperform : kvs.contents.perform entry.call = (entry.response, kvs'.contents)) :
    init.before (insertBefore entry ghost.order none) none = kvs'.contents := by
  have hstate : init.before (insertBefore entry ghost.order none) none =
      (Reference.perform (init.before ghost.order none) entry.call).2 :=
    stateBefore_insertBefore_anchor (Option.some_ne_none entry.id)
  rw [hstate, h.buckets.current, hperform]

/-- Nothing changes before an entry of the past. -/
theorem before_root_some {id : Nat} (hanchor : IsAnchor ghost.order (some id))
    (hnew : entry.id ∉ ghost.order.map Entry.id) :
    init.before (insertBefore entry ghost.order none) (some id) =
      init.before ghost.order (some id) :=
  stateBefore_insertBefore_other (absorbedAt_none init ghost.order entry.call)
    (isAnchor_none ghost.order) hanchor (Option.some_ne_none id) (hanchor.ne_new hnew)

/-- Calls on the table of buckets take effect at the end of the order. -/
theorem commit_root (h : Explains init ghost kvs)
    (hnew : entry.id ∉ ghost.order.map Entry.id) (detachedBy : Nat → Option Nat)
    (hperform : kvs.contents.perform entry.call = (entry.response, kvs'.contents))
    (hwf : kvs'.WellFormed) (hcontainers : kvs'.containers = kvs.containers)
    (hle : kvs.buckets.next ≤ kvs'.buckets.next)
    (hget : ∀ {ref : Nat}, ref < kvs.buckets.next →
      kvs'.buckets.get ref = kvs.buckets.get ref)
    (hold : ∀ {ref : Nat} {key : Bytes} {container : Nat},
      (kvs'.buckets.get ref).map.find key = some container →
      (kvs.buckets.get ref).map.find key = some container)
    (hdetached : ∀ {ref : Nat}, ref < kvs.buckets.next →
      detachedBy ref = ghost.detachedBy ref ∨ detachedBy ref = some entry.id)
    (hbuckets : ExplainsBuckets init
      ⟨insertBefore entry ghost.order none, detachedBy, ghost.unlinkedBy, ghost.owner⟩
      kvs') :
    Commits init ghost kvs entry none
      ⟨insertBefore entry ghost.order none, detachedBy, ghost.unlinkedBy, ghost.owner⟩
      kvs' := by
  have hanswer : (Reference.perform (init.before ghost.order none) entry.call).1 =
      entry.response := by
    rw [h.buckets.current, hperform]
  have hcont : ExplainsContainers init
      ⟨insertBefore entry ghost.order none, detachedBy, ghost.unlinkedBy, ghost.owner⟩
      kvs' := by
    refine h.containers.keep rfl rfl rfl hcontainers hle hget hold ?_
    intro container id hlt hsome
    have hanchor := h.containers.isAnchor hlt
    rw [hsome] at hanchor
    exact before_root_some hanchor hnew
  refine ⟨⟨hwf, insertBefore_nodup h.nodup hnew, ?_, hbuckets, hcont⟩, rfl, hle,
    hcontainers ▸ le_rfl, fun href => congrArg _ (hget href), fun _ => rfl, ?_, ?_⟩
  · exact legal_insertBefore h.legal hanswer (absorbedAt_none _ _ _)
  · intro ref id href hmem
    change id ∈ idsFrom (insertBefore entry ghost.order none) (detachedBy ref) at hmem
    rcases hdetached href with hsame | hsome
    · rw [hsame] at hmem
      exact mem_idsFrom_insertBefore ((h.buckets.isAnchor href).ne_new hnew) hmem
    · rw [hsome, idsFrom_insertBefore_self hnew, idsFrom_none,
        List.mem_singleton] at hmem
      exact Or.inl hmem
  · intro container id hlt hmem
    rcases mem_idsFrom_insertBefore ((h.containers.isAnchor hlt).ne_new hnew) hmem with
      hid | hbehind
    · exact Or.inl hid
    · exact Or.inr (Or.inl hbehind)

/-- Buckets that were detached in the past stay as they are. -/
theorem past_root (h : Explains init ghost kvs)
    (hnew : entry.id ∉ ghost.order.map Entry.id)
    (hget : ∀ {ref : Nat}, ref < kvs.buckets.next →
      kvs'.buckets.get ref = kvs.buckets.get ref)
    (hcontainers : kvs'.containers = kvs.containers) {ref id : Nat}
    (href : ref < kvs.buckets.next) (hsome : ghost.detachedBy ref = some id) :
    init.before (insertBefore entry ghost.order none) (some id)
        (kvs'.buckets.get ref).name = some (kvs'.bucketContents ref) ∧
      ∃ other ∈ insertBefore entry ghost.order none, other.id = id ∧
        other.call = .deleteBucket (kvs'.buckets.get ref).name := by
  have hanchor := h.buckets.isAnchor href
  rw [hsome] at hanchor
  have hcontents : kvs'.bucketContents ref = kvs.bucketContents ref := by
    funext key
    rw [MDSKVS.bucketContents, MDSKVS.bucketContents, hget href, hcontainers]
  obtain ⟨other, hmem, hother⟩ := h.buckets.detached href hsome
  rw [before_root_some hanchor hnew, hget href, hcontents]
  exact ⟨h.buckets.past href hsome, other,
    (mem_insertBefore_iff _ _ _ _).mpr (Or.inr hmem), hother⟩

/-- A call that leaves the store as it is. -/
theorem commit_observation (h : Explains init ghost kvs)
    (hnew : entry.id ∉ ghost.order.map Entry.id)
    (hperform : kvs.contents.perform entry.call = (entry.response, kvs.contents)) :
    ∃ ghost', Commits init ghost kvs entry none ghost' kvs := by
  have hpast := @past_root init ghost kvs kvs entry h hnew (fun _ => rfl) rfl
  exact ⟨_, h.commit_root hnew ghost.detachedBy hperform h.wellFormed rfl le_rfl
    (fun _ => rfl) id (fun _ => Or.inl rfl)
    ⟨h.before_root_none hperform, h.buckets.attached, h.buckets.in_table,
      fun href hsome => (hpast href hsome).1, fun href hsome => (hpast href hsome).2,
      h.buckets.detached_inj⟩⟩

/-- A new bucket: no call points to it yet. -/
theorem commit_createBucket (h : Explains init ghost kvs)
    (hnew : entry.id ∉ ghost.order.map Entry.id) {bucket : Bytes}
    (hfind : kvs.map.find bucket = none)
    (hperform : kvs.contents.perform entry.call =
      (entry.response, (kvs.createBucket bucket).2.contents)) :
    ∃ ghost', Commits init ghost kvs entry none ghost' (kvs.createBucket bucket).2 := by
  obtain ⟨_, hcreated, _, hwf⟩ := MDSKVS.createBucket_refines h.wellFormed hfind
  have hkvs : (kvs.createBucket bucket).2 = { kvs with
      map := kvs.map.insert bucket kvs.buckets.next
      buckets := kvs.buckets.alloc ⟨OrderedMap.empty, bucket⟩ } := by
    rw [MDSKVS.createBucket, hfind]
  rw [hkvs] at hperform hcreated hwf ⊢
  set kvs' : MDSKVS := { kvs with
    map := kvs.map.insert bucket kvs.buckets.next
    buckets := kvs.buckets.alloc ⟨OrderedMap.empty, bucket⟩ } with hkvs'
  have hget : ∀ {ref : Nat}, ref < kvs.buckets.next →
      kvs'.buckets.get ref = kvs.buckets.get ref :=
    fun href => Heap.get_alloc_of_ne _ _ href.ne
  have hnamed : ∀ {ref : Nat}, ref < kvs.buckets.next → ghost.detachedBy ref = none →
      (kvs.buckets.get ref).name ≠ bucket := by
    intro ref href hnone hname
    have hattached := h.buckets.in_table href hnone
    rw [hname, hfind] at hattached
    exact absurd hattached.symm (Option.some_ne_none ref)
  have hpast := @past_root init ghost kvs kvs' entry h hnew hget rfl
  have hdetached : ∀ {ref : Nat}, ref < kvs.buckets.next →
      Function.update ghost.detachedBy kvs.buckets.next none ref =
        ghost.detachedBy ref :=
    fun href => Function.update_of_ne href.ne _ _
  -- every bucket is an old one or the new one
  have hcases : ∀ {ref : Nat}, ref < kvs'.buckets.next →
      ref < kvs.buckets.next ∨ ref = kvs.buckets.next :=
    fun href => Nat.lt_succ_iff_lt_or_eq.mp href
  have hsome : ∀ {ref id : Nat}, ref < kvs'.buckets.next →
      Function.update ghost.detachedBy kvs.buckets.next none ref = some id →
      ref < kvs.buckets.next ∧ ghost.detachedBy ref = some id := by
    intro ref id href hid
    rcases hcases href with hlt | rfl
    · exact ⟨hlt, (hdetached hlt).symm.trans hid⟩
    · simp at hid
  refine ⟨_, h.commit_root hnew (Function.update ghost.detachedBy kvs.buckets.next none)
    hperform hwf rfl (Nat.le_succ _) hget ?_ (fun href => Or.inl (hdetached href))
    ⟨h.before_root_none hperform, ?_, ?_, ?_, ?_, ?_⟩⟩
  · intro ref key container hcontainer
    by_cases href : ref = kvs.buckets.next
    · subst href
      simp [hkvs'] at hcontainer
    · rwa [hkvs', Heap.get_alloc_of_ne _ _ href] at hcontainer
  · intro other ref hother
    change (kvs.map.insert bucket kvs.buckets.next).find other = some ref at hother
    rw [OrderedMap.find_insert] at hother
    split_ifs at hother with heq
    · exact (Option.some.inj hother) ▸ Function.update_self _ _ _
    · exact (hdetached (h.wellFormed.bucket_lt hother)).trans (h.buckets.attached hother)
  · intro ref href hnone
    rcases hcases href with hlt | rfl
    · have hold := (hdetached hlt).symm.trans hnone
      rw [hget hlt]
      change (kvs.map.insert bucket kvs.buckets.next).find _ = _
      rw [OrderedMap.find_insert, if_neg (hnamed hlt hold)]
      exact h.buckets.in_table hlt hold
    · rw [hwf.named hcreated]
      exact hcreated
  · intro ref id href hid
    obtain ⟨hlt, hold⟩ := hsome href hid
    exact (hpast hlt hold).1
  · intro ref id href hid
    obtain ⟨hlt, hold⟩ := hsome href hid
    exact (hpast hlt hold).2
  · intro ref ref' id href href' hid hid'
    obtain ⟨hlt, hold⟩ := hsome href hid
    obtain ⟨hlt', hold'⟩ := hsome href' hid'
    exact h.buckets.detached_inj hlt hlt' hold hold'

section DeleteBucket

variable {bucket : Bytes} {ref ref' : Nat}

theorem detachedBy_deleteBucket_eq_none :
    Function.update ghost.detachedBy ref (some entry.id) ref' = none ↔
      ref' ≠ ref ∧ ghost.detachedBy ref' = none := by
  by_cases href : ref' = ref
  · simp [href]
  · simp [href]

/-- The deleted bucket was detached by this call, and the others as before. -/
theorem detachedBy_deleteBucket_eq_some {id : Nat} :
    Function.update ghost.detachedBy ref (some entry.id) ref' = some id ↔
      ref' = ref ∧ entry.id = id ∨ ref' ≠ ref ∧ ghost.detachedBy ref' = some id := by
  by_cases href : ref' = ref
  · simp [href]
  · simp [href]

theorem attached_deleteBucket (h : Explains init ghost kvs)
    (hfind : kvs.map.find bucket = some ref) {other : Bytes}
    (hother : (kvs.map.erase bucket).find other = some ref') :
    ref' ≠ ref ∧ ghost.detachedBy ref' = none := by
  rw [OrderedMap.find_erase] at hother
  split_ifs at hother with hne
  exact ⟨h.wellFormed.ref_ne hfind hother hne, h.buckets.attached hother⟩

theorem inTable_deleteBucket (h : Explains init ghost kvs)
    (hfind : kvs.map.find bucket = some ref) (href : ref' < kvs.buckets.next) (hne : ref' ≠ ref)
    (hnone : ghost.detachedBy ref' = none) :
    (kvs.map.erase bucket).find (kvs.buckets.get ref').name = some ref' := by
  have hold := h.buckets.in_table href hnone
  have hname : (kvs.buckets.get ref').name ≠ bucket := by
    intro heq
    rw [heq, hfind] at hold
    exact hne (Option.some.inj hold).symm
  rw [OrderedMap.find_erase]
  exact (if_neg hname).trans hold

/-- Before the call, the reference has the contents of the deleted bucket. -/
theorem past_deleteBucket (h : Explains init ghost kvs)
    (hnew : entry.id ∉ ghost.order.map Entry.id) (hfind : kvs.map.find bucket = some ref) :
    init.before (insertBefore entry ghost.order none) (some entry.id)
      (kvs.buckets.get ref).name = some (kvs.bucketContents ref) := by
  have hbefore : init.before (insertBefore entry ghost.order none) (some entry.id) =
      init.before ghost.order none := stateBefore_insertBefore_new hnew
  rw [hbefore, h.buckets.current, h.wellFormed.named hfind]
  exact MDSKVS.contents_of_find hfind

theorem buckets_deleteBucket (h : Explains init ghost kvs)
    (hnew : entry.id ∉ ghost.order.map Entry.id)
    (hcall : entry.call = .deleteBucket bucket) (hfind : kvs.map.find bucket = some ref)
    (hperform : kvs.contents.perform entry.call = (entry.response,
      ({ kvs with map := kvs.map.erase bucket } : MDSKVS).contents)) :
    ExplainsBuckets init
      ⟨insertBefore entry ghost.order none, Function.update ghost.detachedBy ref (some entry.id),
        ghost.unlinkedBy, ghost.owner⟩
      { kvs with map := kvs.map.erase bucket } := by
  have hpast := @past_root init ghost kvs { kvs with map := kvs.map.erase bucket } entry h hnew
    (fun _ => rfl) rfl
  have hfresh : ∀ {other : Nat}, other < kvs.buckets.next →
      ghost.detachedBy other ≠ some entry.id :=
    fun href heq => (h.buckets.isAnchor href).ne_new hnew heq.symm
  refine ⟨h.before_root_none hperform, fun {_ other} hother => ?_, fun {other} href hnone => ?_,
    fun {other id} href hid => ?_, fun {other id} href hid => ?_,
    fun {other other' id} href href' hid hid' => ?_⟩
  · exact detachedBy_deleteBucket_eq_none.2 (h.attached_deleteBucket hfind hother)
  · obtain ⟨hne, hnone⟩ := detachedBy_deleteBucket_eq_none.1 hnone
    exact h.inTable_deleteBucket hfind href hne hnone
  · rcases detachedBy_deleteBucket_eq_some.1 hid with ⟨rfl, rfl⟩ | ⟨-, hid⟩
    · exact h.past_deleteBucket hnew hfind
    · exact (hpast href hid).1
  · rcases detachedBy_deleteBucket_eq_some.1 hid with ⟨rfl, rfl⟩ | ⟨-, hid⟩
    · refine ⟨entry, (mem_insertBefore_iff _ _ _ _).mpr (Or.inl rfl), rfl, ?_⟩
      rw [hcall]
      exact congrArg _ (h.wellFormed.named hfind).symm
    · exact (hpast href hid).2
  · -- no call of the past has the id of this one
    rcases detachedBy_deleteBucket_eq_some.1 hid with ⟨rfl, rfl⟩ | ⟨-, hid⟩ <;>
      rcases detachedBy_deleteBucket_eq_some.1 hid' with ⟨heq, hlast⟩ | ⟨-, hid'⟩
    · exact heq.symm
    · exact absurd hid' (hfresh href')
    · exact absurd (hlast ▸ hid) (hfresh href)
    · exact h.buckets.detached_inj href href' hid hid'

/-- A deleted bucket: the calls that still point to it will be placed before
this one. -/
theorem commit_deleteBucket (h : Explains init ghost kvs)
    (hnew : entry.id ∉ ghost.order.map Entry.id)
    (hcall : entry.call = .deleteBucket bucket) (hfind : kvs.map.find bucket = some ref)
    (hperform : kvs.contents.perform entry.call = (entry.response,
      ({ kvs with map := kvs.map.erase bucket } : MDSKVS).contents)) :
    ∃ ghost', Commits init ghost kvs entry none ghost'
      { kvs with map := kvs.map.erase bucket } := by
  have hwf : ({ kvs with map := kvs.map.erase bucket } : MDSKVS).WellFormed :=
    (MDSKVS.deleteBucket_refines h.wellFormed bucket).2
  refine ⟨_, h.commit_root hnew (Function.update ghost.detachedBy ref (some entry.id))
    hperform hwf rfl le_rfl (fun _ => rfl) id (fun {other} _ => ?_)
    (h.buckets_deleteBucket hnew hcall hfind hperform)⟩
  by_cases href : other = ref
  · exact Or.inr (href ▸ Function.update_self _ _ _)
  · exact Or.inl (Function.update_of_ne href _ _)

end DeleteBucket

end Root

end Explains

/-- What one section under a bucket's lock does to the containers: it may
unlink some, and link a fresh one under the key of the call. -/
structure BucketStep (kvs kvs' : MDSKVS) (ref : Nat) (call : Call) : Prop where
  touches : kvs.Touches kvs' ref ((kvs.bucketContents ref).perform call.bucket call).2
  containers_le : kvs.containers.next ≤ kvs'.containers.next
  others : ∀ {other : Nat}, other ≠ ref →
    (kvs'.buckets.get other).map = (kvs.buckets.get other).map
  found : ∀ {key : Bytes} {container : Nat},
    (kvs'.buckets.get ref).map.find key = some container →
    (kvs.buckets.get ref).map.find key = some container ∨
      (key = call.key ∧ kvs.containers.next ≤ container)
  fresh : ∀ {container : Nat}, kvs.containers.next ≤ container →
    container < kvs'.containers.next →
    (kvs'.buckets.get ref).map.find call.key = some container
  unlinks : ∀ {key : Bytes} {container : Nat},
    (kvs.buckets.get ref).map.find key = some container →
    (kvs'.buckets.get ref).map.find key ≠ some container → call.Unlinks key
  kept : ∀ {container : Nat},
    (∀ other key, (kvs'.buckets.get other).map.find key ≠ some container) →
    container < kvs.containers.next →
    kvs'.containers.get container = kvs.containers.get container

namespace Ghost

/-- The container is linked before the step and not after it. -/
def LosesLink (ghost : Ghost) (kvs kvs' : MDSKVS) (container : Nat) : Prop :=
  container < kvs.containers.next ∧ ghost.unlinkedBy container = none ∧
    (kvs'.buckets.get (ghost.owner container).1).map.find
      (ghost.owner container).2 ≠ some container

instance (ghost : Ghost) (kvs kvs' : MDSKVS) (container : Nat) :
    Decidable (ghost.LosesLink kvs kvs' container) :=
  inferInstanceAs (Decidable (_ ∧ _ ∧ _))

/-- The ghost state after a section under the lock of bucket `ref`. -/
def afterBucket (ghost : Ghost) (kvs kvs' : MDSKVS) (ref : Nat)
    (entry : Entry Call Response) : Ghost where
  order := insertBefore entry ghost.order (ghost.detachedBy ref)
  detachedBy := ghost.detachedBy
  unlinkedBy container :=
    if ghost.LosesLink kvs kvs' container then some entry.id
    else if container < kvs.containers.next then ghost.unlinkedBy container
    else none
  owner container :=
    if container < kvs.containers.next then ghost.owner container
    else (ref, entry.call.key)

variable {ghost : Ghost} {kvs kvs' : MDSKVS} {ref container : Nat}
  {entry : Entry Call Response}

theorem owner_afterBucket_of_lt (hlt : container < kvs.containers.next) :
    (ghost.afterBucket kvs kvs' ref entry).owner container = ghost.owner container :=
  if_pos hlt

theorem owner_afterBucket_of_le (hle : kvs.containers.next ≤ container) :
    (ghost.afterBucket kvs kvs' ref entry).owner container = (ref, entry.call.key) :=
  if_neg hle.not_gt

theorem unlinkedBy_afterBucket_eq_none_iff :
    (ghost.afterBucket kvs kvs' ref entry).unlinkedBy container = none ↔
      ¬ ghost.LosesLink kvs kvs' container ∧
        (container < kvs.containers.next → ghost.unlinkedBy container = none) := by
  change ite _ _ _ = none ↔ _
  split_ifs with hloses hlt
  · simp [hloses]
  · simp [hloses, hlt]
  · simp [hloses, hlt]

theorem unlinkedBy_afterBucket_eq_some_iff {id : Nat} :
    (ghost.afterBucket kvs kvs' ref entry).unlinkedBy container = some id ↔
      (ghost.LosesLink kvs kvs' container ∧ id = entry.id) ∨
        (container < kvs.containers.next ∧ ghost.unlinkedBy container = some id) := by
  change ite _ _ _ = some id ↔ _
  split_ifs with hloses hlt
  · have hnone := hloses.2.1
    simp [hloses, hnone, eq_comm]
  · simp [hloses, hlt]
  · simp [hloses, hlt]

/-- Only containers from before the step are unlinked after it. -/
theorem lt_of_unlinkedBy_afterBucket {id : Nat}
    (hsome : (ghost.afterBucket kvs kvs' ref entry).unlinkedBy container = some id) :
    container < kvs.containers.next := by
  rcases unlinkedBy_afterBucket_eq_some_iff.mp hsome with ⟨hloses, _⟩ | hold
  · exact hloses.1
  · exact hold.1

end Ghost

namespace Explains

variable {init : Reference} {ghost : Ghost} {kvs kvs' : MDSKVS}
  {entry : Entry Call Response} {ref : Nat}

/-- Only containers of the bucket whose lock is held lose their link. -/
theorem owner_of_losesLink (h : Explains init ghost kvs)
    (hstep : BucketStep kvs kvs' ref entry.call) {container : Nat}
    (hloses : ghost.LosesLink kvs kvs' container) :
    (ghost.owner container).1 = ref ∧
      (kvs.buckets.get ref).map.find (ghost.owner container).2 = some container := by
  have hbefore := h.containers.in_bucket hloses.1 hloses.2.1
  by_cases heq : (ghost.owner container).1 = ref
  · exact ⟨heq, heq ▸ hbefore⟩
  · have hgone := hloses.2.2
    rw [hstep.others heq] at hgone
    exact absurd hbefore hgone

/-- A bucket and a container are never anchored at the same entry. -/
theorem detached_ne_unlinked (h : Explains init ghost kvs)
    (href : ref < kvs.buckets.next) {container : Nat}
    (hlt : container < kvs.containers.next) {id : Nat}
    (hunlinked : ghost.unlinkedBy container = some id) :
    some id ≠ ghost.detachedBy ref := by
  intro hdetached
  obtain ⟨first, hfirst, hid, hcall⟩ := h.buckets.detached href hdetached.symm
  obtain ⟨second, hsecond, hid', _, hunlinks⟩ := h.containers.unlinked hlt hunlinked
  have heq := entry_eq_of_id_eq h.nodup hfirst hsecond (hid.trans hid'.symm)
  rw [← heq, hcall] at hunlinks
  exact hunlinks

/-- The `deleteBucket` that detached a bucket absorbs every late call in it. -/
theorem absorbed_detached (h : Explains init ghost kvs) (href : ref < kvs.buckets.next)
    {call : Call} (hstays : call.staysInBucket = true)
    (hname : (kvs.buckets.get ref).name = call.bucket) :
    AbsorbedAt Reference.perform init ghost.order (ghost.detachedBy ref) call := by
  cases hdetached : ghost.detachedBy ref with
  | none => exact absorbedAt_none _ _ _
  | some id =>
      obtain ⟨entry, hmem, rfl, hcall⟩ := h.buckets.detached href hdetached
      have hbucket := h.buckets.past href hdetached
      rw [hname] at hbucket
      refine AbsorbedAt.of_entry h.nodup hmem ?_
      rw [Reference.perform_of_bucket hstays hbucket, hcall, hname]
      exact Reference.deleteBucket_absorbs hbucket _

/-- After the step, a container that is found keeps its owner and is not
unlinked. -/
theorem linked_afterBucket (h : Explains init ghost kvs)
    (hstep : BucketStep kvs kvs' ref entry.call) {other : Nat} {key : Bytes}
    {container : Nat}
    (hfind : (kvs'.buckets.get other).map.find key = some container) :
    (ghost.afterBucket kvs kvs' ref entry).owner container = (other, key) ∧
      (ghost.afterBucket kvs kvs' ref entry).unlinkedBy container = none := by
  have hold : (kvs.buckets.get other).map.find key = some container →
      (ghost.afterBucket kvs kvs' ref entry).owner container = (other, key) ∧
        (ghost.afterBucket kvs kvs' ref entry).unlinkedBy container = none := by
    intro hbefore
    obtain ⟨howner, hnone⟩ := h.containers.linked hbefore
    rw [Ghost.owner_afterBucket_of_lt (h.wellFormed.container_lt hbefore),
      Ghost.unlinkedBy_afterBucket_eq_none_iff]
    refine ⟨howner, ?_, fun _ => hnone⟩
    intro hloses
    have hgone := hloses.2.2
    rw [howner] at hgone
    exact hgone hfind
  by_cases heq : other = ref
  · subst heq
    rcases hstep.found hfind with hbefore | ⟨hkey, hle⟩
    · exact hold hbefore
    · rw [Ghost.owner_afterBucket_of_le hle, Ghost.unlinkedBy_afterBucket_eq_none_iff]
      exact ⟨by rw [hkey], fun hloses => hle.not_gt hloses.1,
        fun hlt => absurd hlt hle.not_gt⟩
  · rw [hstep.others heq] at hfind
    exact hold hfind

section InBucket

variable (h : Explains init ghost kvs) (hnew : entry.id ∉ ghost.order.map Entry.id)
  (href : ref < kvs.buckets.next)
  (hname : (kvs.buckets.get ref).name = entry.call.bucket)
  (hstays : entry.call.staysInBucket = true)

include h hnew href hname hstays

/-- The call changes the reference where its bucket left the table. -/
theorem before_bucket_anchor :
    init.before (insertBefore entry ghost.order (ghost.detachedBy ref))
        (ghost.detachedBy ref) =
      Function.update (init.before ghost.order (ghost.detachedBy ref))
        entry.call.bucket
        (some ((kvs.bucketContents ref).perform entry.call.bucket entry.call).2) := by
  have hstate : init.before (insertBefore entry ghost.order (ghost.detachedBy ref))
      (ghost.detachedBy ref) =
      (Reference.perform (init.before ghost.order (ghost.detachedBy ref))
        entry.call).2 :=
    stateBefore_insertBefore_anchor ((h.buckets.isAnchor href).ne_new hnew)
  have hbucket := h.buckets.bucket href
  rw [hname] at hbucket
  rw [hstate, Reference.perform_of_bucket hstays hbucket]

theorem before_bucket_other {other : Option Nat} (hother : IsAnchor ghost.order other)
    (hne : other ≠ ghost.detachedBy ref) :
    init.before (insertBefore entry ghost.order (ghost.detachedBy ref)) other =
      init.before ghost.order other :=
  stateBefore_insertBefore_other (h.absorbed_detached href hstays hname)
    (h.buckets.isAnchor href) hother hne (hother.ne_new hnew)

theorem buckets_afterBucket (hstep : BucketStep kvs kvs' ref entry.call) :
    ExplainsBuckets init (ghost.afterBucket kvs kvs' ref entry) kvs' := by
  have htouch := hstep.touches
  have hother := @before_bucket_other init ghost kvs entry ref h hnew href hname hstays
  refine ⟨?_, ?_, ?_, ?_, ?_, ?_⟩
  · change init.before (insertBefore entry ghost.order (ghost.detachedBy ref)) none = _
    cases hdetached : ghost.detachedBy ref with
    | none =>
        have hfind := h.buckets.in_table href hdetached
        have hanchor := before_bucket_anchor h hnew href hname hstays
        rw [hdetached, h.buckets.current] at hanchor
        rw [hanchor, htouch.contents_update h.wellFormed hfind, hname]
    | some id =>
        have hne : none ≠ ghost.detachedBy ref :=
          fun heq => Option.some_ne_none id (hdetached.symm.trans heq.symm)
        have hsame := hother (isAnchor_none ghost.order) hne
        rw [hdetached, h.buckets.current] at hsame
        rw [hsame]
        refine (htouch.contents_eq_of_not_in_table ?_).symm
        intro bucket hfind
        exact hne.symm (h.buckets.attached hfind)
  · intro bucket other hfind
    rw [htouch.map_eq] at hfind
    exact h.buckets.attached hfind
  · intro other hlt hnone
    rw [htouch.next_eq] at hlt
    rw [htouch.map_eq, htouch.name_eq]
    exact h.buckets.in_table hlt hnone
  · intro other id hlt hsome
    rw [htouch.next_eq] at hlt
    rw [htouch.name_eq, htouch.contents_eq]
    change ghost.detachedBy other = some id at hsome
    change init.before (insertBefore entry ghost.order (ghost.detachedBy ref)) _ _ = _
    by_cases heq : other = ref
    · subst heq
      have hanchor := before_bucket_anchor h hnew hlt hname hstays
      rw [← hsome, hanchor, hname, Function.update_self, Function.update_self]
    · have hanchor := h.buckets.isAnchor hlt
      rw [hsome] at hanchor
      have hne : some id ≠ ghost.detachedBy ref :=
        fun hid => heq (h.buckets.detached_inj hlt href hsome hid.symm)
      rw [hother hanchor hne, Function.update_of_ne heq]
      exact h.buckets.past hlt hsome
  · intro other id hlt hsome
    rw [htouch.next_eq] at hlt
    obtain ⟨first, hmem, hfirst⟩ := h.buckets.detached hlt hsome
    rw [htouch.name_eq]
    exact ⟨first, (mem_insertBefore_iff _ _ _ _).mpr (Or.inr hmem), hfirst⟩
  · intro other other' id hlt hlt' hsome hsome'
    rw [htouch.next_eq] at hlt hlt'
    exact h.buckets.detached_inj hlt hlt' hsome hsome'

theorem containers_afterBucket (hstep : BucketStep kvs kvs' ref entry.call) :
    ExplainsContainers init (ghost.afterBucket kvs kvs' ref entry) kvs' := by
  have htouch := hstep.touches
  have hlinked := @linked_afterBucket init ghost kvs kvs' entry ref h hstep
  -- an unlinked container is out of reach, so nothing writes it
  have hkept : ∀ {container id : Nat}, container < kvs.containers.next →
      (ghost.afterBucket kvs kvs' ref entry).unlinkedBy container = some id →
      kvs'.containers.get container = kvs.containers.get container := by
    intro container id hlt hsome
    apply hstep.kept _ hlt
    intro other key hfind
    rw [(hlinked hfind).2] at hsome
    exact Option.some_ne_none id hsome.symm
  refine ⟨?_, hlinked, ?_, ?_, ?_, ?_⟩
  · intro container _
    rw [htouch.next_eq]
    by_cases hlt : container < kvs.containers.next
    · rw [Ghost.owner_afterBucket_of_lt hlt]
      exact h.containers.owner_lt hlt
    · rw [Ghost.owner_afterBucket_of_le (Nat.le_of_not_lt hlt)]
      exact href
  · intro container hlt' hnone
    obtain ⟨hkeeps, hold⟩ := Ghost.unlinkedBy_afterBucket_eq_none_iff.mp hnone
    by_cases hlt : container < kvs.containers.next
    · rw [Ghost.owner_afterBucket_of_lt hlt]
      by_contra hgone
      exact hkeeps ⟨hlt, hold hlt, hgone⟩
    · rw [Ghost.owner_afterBucket_of_le (Nat.le_of_not_lt hlt)]
      exact hstep.fresh (Nat.le_of_not_lt hlt) hlt'
  · intro container id _ hsome
    rw [Ghost.owner_afterBucket_of_lt (Ghost.lt_of_unlinkedBy_afterBucket hsome), htouch.name_eq]
    rcases Ghost.unlinkedBy_afterBucket_eq_some_iff.mp hsome with
      ⟨hloses, rfl⟩ | ⟨hlt, hold⟩
    · obtain ⟨howner, hbefore⟩ := h.owner_of_losesLink hstep hloses
      have hgone := hloses.2.2
      rw [howner] at hgone ⊢
      exact ⟨entry, (mem_insertBefore_iff _ _ _ _).mpr (Or.inl rfl), rfl, hname.symm,
        hstep.unlinks hbefore hgone⟩
    · obtain ⟨other, hmem, hother⟩ := h.containers.unlinked hlt hold
      exact ⟨other, (mem_insertBefore_iff _ _ _ _).mpr (Or.inr hmem), hother⟩
  · intro container id _ hsome
    have hlt := Ghost.lt_of_unlinkedBy_afterBucket hsome
    rw [Ghost.owner_afterBucket_of_lt hlt, htouch.name_eq, hkept hlt hsome]
    change ∃ contents, init.before (insertBefore entry ghost.order (ghost.detachedBy ref))
      _ _ = _ ∧ _
    rcases Ghost.unlinkedBy_afterBucket_eq_some_iff.mp hsome with
      ⟨hloses, rfl⟩ | ⟨_, hold⟩
    · obtain ⟨howner, hbefore⟩ := h.owner_of_losesLink hstep hloses
      have hstate : init.before (insertBefore entry ghost.order (ghost.detachedBy ref))
          (some entry.id) = init.before ghost.order (ghost.detachedBy ref) :=
        stateBefore_insertBefore_new hnew
      rw [hstate, howner]
      exact ⟨kvs.bucketContents ref, h.buckets.bucket href,
        MDSKVS.bucketContents_of_find hbefore⟩
    · have hanchor := h.containers.isAnchor hlt
      rw [hold] at hanchor
      rw [before_bucket_other h hnew href hname hstays hanchor
        (h.detached_ne_unlinked href hlt hold)]
      exact h.containers.value hlt hold
  · intro container container' id _ _ hsome hsome' hkey
    have hlt := Ghost.lt_of_unlinkedBy_afterBucket hsome
    have hlt' := Ghost.lt_of_unlinkedBy_afterBucket hsome'
    rw [Ghost.owner_afterBucket_of_lt hlt, Ghost.owner_afterBucket_of_lt hlt'] at hkey
    have hfresh : ∀ {other : Nat}, other < kvs.containers.next →
        ghost.unlinkedBy other ≠ some entry.id :=
      fun hother heq => (h.containers.isAnchor hother).ne_new hnew heq.symm
    rcases Ghost.unlinkedBy_afterBucket_eq_some_iff.mp hsome with
      ⟨hloses, rfl⟩ | ⟨_, hold⟩
    · rcases Ghost.unlinkedBy_afterBucket_eq_some_iff.mp hsome' with
        ⟨hloses', _⟩ | ⟨_, hold'⟩
      · have hbefore := (h.owner_of_losesLink hstep hloses).2
        rw [hkey, (h.owner_of_losesLink hstep hloses').2] at hbefore
        exact (Option.some.inj hbefore).symm
      · exact absurd hold' (hfresh hlt')
    · rcases Ghost.unlinkedBy_afterBucket_eq_some_iff.mp hsome' with
        ⟨_, rfl⟩ | ⟨_, hold'⟩
      · exact absurd hold (hfresh hlt)
      · exact h.containers.unlinked_inj hlt hlt' hold hold' hkey

/-- A section under a bucket's lock takes effect where the bucket left the
table. -/
theorem commit_bucket (hstep : BucketStep kvs kvs' ref entry.call)
    (hanswer : ((kvs.bucketContents ref).perform entry.call.bucket entry.call).1 =
      entry.response) :
    ∃ ghost', Commits init ghost kvs entry (ghost.detachedBy ref) ghost' kvs' := by
  have hbucket := h.buckets.bucket href
  rw [hname] at hbucket
  have hlegal : Legal Reference.perform init
      (insertBefore entry ghost.order (ghost.detachedBy ref)) := by
    apply legal_insertBefore h.legal _ (h.absorbed_detached href hstays hname)
    rw [Reference.perform_of_bucket hstays hbucket]
    exact hanswer
  refine ⟨ghost.afterBucket kvs kvs' ref entry,
    ⟨hstep.touches.wellFormed, insertBefore_nodup h.nodup hnew, hlegal,
      buckets_afterBucket h hnew href hname hstays hstep,
      containers_afterBucket h hnew href hname hstays hstep⟩, rfl,
    hstep.touches.next_eq.ge, hstep.containers_le, fun _ => hstep.touches.name_eq _,
    fun hlt => Ghost.owner_afterBucket_of_lt hlt, ?_, ?_⟩
  · intro other id hlt hmem
    exact mem_idsFrom_insertBefore ((h.buckets.isAnchor hlt).ne_new hnew) hmem
  · intro container id hlt hmem
    change id ∈ idsFrom (insertBefore entry ghost.order (ghost.detachedBy ref))
      ((ghost.afterBucket kvs kvs' ref entry).unlinkedBy container) at hmem
    by_cases hloses : ghost.LosesLink kvs kvs' container
    · have howner := (h.owner_of_losesLink hstep hloses).1
      rw [Ghost.unlinkedBy_afterBucket_eq_some_iff.mpr (Or.inl ⟨hloses, rfl⟩),
        idsFrom_insertBefore_self hnew, List.mem_cons] at hmem
      rw [howner]
      exact hmem.imp_right Or.inr
    · have hsame : (ghost.afterBucket kvs kvs' ref entry).unlinkedBy container =
          ghost.unlinkedBy container :=
        (if_neg hloses).trans (if_pos hlt)
      rw [hsame] at hmem
      exact (mem_idsFrom_insertBefore ((h.containers.isAnchor hlt).ne_new hnew)
        hmem).imp_right Or.inl

end InBucket

/-- Writing an unlinked container is visible through no bucket. -/
theorem bucketContents_writeContainer (h : Explains init ghost kvs) {container id : Nat}
    (hunlinked : ghost.unlinkedBy container = some id) (info : ObjectInfo) :
    (MDSKVSBucket.writeContainer kvs container info).bucketContents =
      kvs.bucketContents := by
  funext other key
  change ((kvs.buckets.get other).map.find key).map
    (kvs.containers.set container info).get = _
  rw [MDSKVS.bucketContents]
  cases hfind : (kvs.buckets.get other).map.find key with
  | none => rfl
  | some found =>
      have hne : found ≠ container := by
        intro heq
        have hnone := (h.containers.linked hfind).2
        rw [heq, hunlinked] at hnone
        exact Option.some_ne_none id hnone
      simp [Heap.get_set_of_ne _ _ hne]

/-- A call that still reads or writes a container after `killer` unlinked it;
`info` is the value it leaves there. -/
structure LateAccess (ghost : Ghost) (kvs : MDSKVS) (entry killer : Entry Call Response)
    (container : Nat) (info : ObjectInfo) : Prop where
  lt : container < kvs.containers.next
  unlinked : ghost.unlinkedBy container = some killer.id
  mem : killer ∈ ghost.order
  unlinks : killer.call.Unlinks (ghost.owner container).2
  same_bucket : killer.call.bucket = entry.call.bucket
  stays : entry.call.staysInBucket = true
  named : (kvs.buckets.get (ghost.owner container).1).name = entry.call.bucket
  effect : ∀ contents : Contents,
    contents (ghost.owner container).2 = some (kvs.containers.get container) →
    contents.perform entry.call.bucket entry.call = (entry.response,
      Function.update contents (ghost.owner container).2 (some info))

section Late

variable {killer : Entry Call Response} {container : Nat} {info : ObjectInfo}
  (h : Explains init ghost kvs) (hnew : entry.id ∉ ghost.order.map Entry.id)
  (hlate : LateAccess ghost kvs entry killer container info)

include h hlate

theorem late_isAnchor : IsAnchor ghost.order (some killer.id) :=
  hlate.unlinked ▸ h.containers.isAnchor hlate.lt

/-- Just before the killer the reference answers as the container does. -/
theorem late_perform :
    ∃ contents : Contents,
      init.before ghost.order (some killer.id) entry.call.bucket = some contents ∧
        contents (ghost.owner container).2 = some (kvs.containers.get container) ∧
        Reference.perform (init.before ghost.order (some killer.id)) entry.call =
          (entry.response, Function.update (init.before ghost.order (some killer.id))
            entry.call.bucket
            (some (Function.update contents (ghost.owner container).2 (some info)))) := by
  obtain ⟨contents, hbefore, hvalue⟩ := h.containers.value hlate.lt hlate.unlinked
  rw [hlate.named] at hbefore
  refine ⟨contents, hbefore, hvalue, ?_⟩
  rw [Reference.perform_of_bucket hlate.stays hbefore, hlate.effect contents hvalue]

/-- The killer forgets the value, so it absorbs the late call. -/
theorem late_absorbed :
    AbsorbedAt Reference.perform init ghost.order (some killer.id) entry.call := by
  obtain ⟨contents, hbefore, hvalue, hperform⟩ := late_perform h hlate
  refine AbsorbedAt.of_entry h.nodup hlate.mem ?_
  change Reference.perform (Reference.perform
    (init.before ghost.order (some killer.id)) entry.call).2 killer.call = _
  rw [hperform, ← hlate.same_bucket]
  exact Reference.unlink_absorbs hlate.unlinks (hlate.same_bucket ▸ hbefore) hvalue info

include hnew

theorem before_late_other {anchor : Option Nat} (hpast : IsAnchor ghost.order anchor)
    (hne : anchor ≠ some killer.id) :
    init.before (insertBefore entry ghost.order (some killer.id)) anchor =
      init.before ghost.order anchor :=
  stateBefore_insertBefore_other (late_absorbed h hlate) (late_isAnchor h hlate) hpast
    hne (hpast.ne_new hnew)

theorem buckets_late : ExplainsBuckets init
    { ghost with order := insertBefore entry ghost.order (some killer.id) }
    (MDSKVSBucket.writeContainer kvs container info) := by
  have hother := @before_late_other init ghost kvs entry killer container info h hnew hlate
  have hsame := h.bucketContents_writeContainer hlate.unlinked info
  refine ⟨?_, h.buckets.attached, h.buckets.in_table, ?_, ?_, h.buckets.detached_inj⟩
  · refine (hother (isAnchor_none _) (Option.some_ne_none _).symm).trans ?_
    rw [h.buckets.current]
    funext bucket
    simp only [MDSKVS.contents, hsame]
    rfl
  · intro ref id href hsome
    have hpast := h.buckets.isAnchor href
    have hne := h.detached_ne_unlinked href hlate.lt hlate.unlinked
    rw [show ghost.detachedBy ref = some id from hsome] at hpast hne
    rw [hsame]
    exact (congrFun (hother hpast hne.symm) _).trans (h.buckets.past href hsome)
  · intro ref id href hsome
    obtain ⟨first, hfirst, hrest⟩ := h.buckets.detached href hsome
    exact ⟨first, (mem_insertBefore_iff _ _ _ _).mpr (Or.inr hfirst), hrest⟩

/-- The killer may have unlinked other containers as well; they belong to other
keys and keep their values. -/
theorem value_late {other id : Nat} (hlt : other < kvs.containers.next)
    (hsome : ghost.unlinkedBy other = some id) :
    ∃ contents : Contents,
      init.before (insertBefore entry ghost.order (some killer.id)) (some id)
          (kvs.buckets.get (ghost.owner other).1).name = some contents ∧
        contents (ghost.owner other).2 =
          some ((kvs.containers.set container info).get other) := by
  by_cases hid : id = killer.id
  · subst hid
    obtain ⟨contents, hbefore, _, hperform⟩ := late_perform h hlate
    have hself : init.before (insertBefore entry ghost.order (some killer.id))
        (some killer.id) =
        (Reference.perform (init.before ghost.order (some killer.id)) entry.call).2 :=
      stateBefore_insertBefore_anchor ((late_isAnchor h hlate).ne_new hnew)
    have hname : (kvs.buckets.get (ghost.owner other).1).name = entry.call.bucket := by
      obtain ⟨killer', hmem', hid', hkiller', _⟩ := h.containers.unlinked hlt hsome
      rw [← hkiller', entry_eq_of_id_eq h.nodup hmem' hlate.mem hid', hlate.same_bucket]
    rw [hname, hself, hperform]
    refine ⟨_, Function.update_self _ _ _, ?_⟩
    by_cases hcontainer : other = container
    · subst hcontainer
      simp
    · have hkey : (ghost.owner other).2 ≠ (ghost.owner container).2 :=
        fun hkey => hcontainer
          (h.containers.unlinked_inj hlt hlate.lt hsome hlate.unlinked hkey)
      obtain ⟨contents', hbefore', hvalue'⟩ := h.containers.value hlt hsome
      rw [hname, hbefore, Option.some.injEq] at hbefore'
      rw [Function.update_of_ne hkey, Heap.get_set_of_ne _ _ hcontainer, hbefore']
      exact hvalue'
  · have hpast := h.containers.isAnchor hlt
    rw [hsome] at hpast
    have hne : other ≠ container := by
      intro heq
      rw [heq, hlate.unlinked] at hsome
      exact hid (Option.some.inj hsome).symm
    rw [before_late_other h hnew hlate hpast (fun heq => hid (Option.some.inj heq)),
      Heap.get_set_of_ne _ _ hne]
    exact h.containers.value hlt hsome

/-- Reading or writing an unlinked container takes effect just before the call
that unlinked it. -/
theorem commit_late : ∃ ghost', Commits init ghost kvs entry (some killer.id) ghost'
    (MDSKVSBucket.writeContainer kvs container info) := by
  obtain ⟨contents, _, _, hperform⟩ := late_perform h hlate
  have hcontainers : ExplainsContainers init
      { ghost with order := insertBefore entry ghost.order (some killer.id) }
      (MDSKVSBucket.writeContainer kvs container info) := by
    refine ⟨h.containers.owner_lt, h.containers.linked, h.containers.in_bucket, ?_,
      fun hlt hsome => value_late h hnew hlate hlt hsome, h.containers.unlinked_inj⟩
    intro other id hlt hsome
    obtain ⟨first, hfirst, hrest⟩ := h.containers.unlinked hlt hsome
    exact ⟨first, (mem_insertBefore_iff _ _ _ _).mpr (Or.inr hfirst), hrest⟩
  refine ⟨{ ghost with order := insertBefore entry ghost.order (some killer.id) },
    ⟨⟨h.wellFormed.named, h.wellFormed.bucket_lt, h.wellFormed.container_lt,
      h.wellFormed.container_inj⟩, insertBefore_nodup h.nodup hnew,
      legal_insertBefore h.legal (congrArg Prod.fst hperform) (late_absorbed h hlate),
      buckets_late h hnew hlate, hcontainers⟩,
    rfl, le_rfl, le_rfl, fun _ => rfl, fun _ => rfl, ?_, ?_⟩
  · intro ref id href hmem
    exact mem_idsFrom_insertBefore ((h.buckets.isAnchor href).ne_new hnew) hmem
  · intro other id hlt hmem
    exact (mem_idsFrom_insertBefore ((h.containers.isAnchor hlt).ne_new hnew)
      hmem).imp_right Or.inl

end Late

end Explains

namespace BucketStep

variable {kvs : MDSKVS} {ref : Nat} {call : Call}

/-- The section finds nothing to do. -/
theorem refl (hwf : kvs.WellFormed)
    (hsame : ((kvs.bucketContents ref).perform call.bucket call).2 =
      kvs.bucketContents ref) : BucketStep kvs kvs ref call := by
  refine ⟨?_, le_rfl, fun _ => rfl, Or.inl, ?_, ?_, fun _ _ => rfl⟩
  · rw [hsame]
    exact MDSKVS.Touches.refl hwf ref
  · intro container hle hlt
    exact absurd hlt hle.not_gt
  · intro key container hfind hgone
    exact absurd hfind hgone

/-- The section erases keys of the bucket. -/
theorem setMap {map : OrderedMap Bytes Nat}
    (htouch : kvs.Touches (MDSKVSBucket.setMap kvs ref map) ref
      ((kvs.bucketContents ref).perform call.bucket call).2)
    (hfind : ∀ key, map.find key = (kvs.buckets.get ref).map.find key ∨
      (map.find key = none ∧ call.Unlinks key)) :
    BucketStep kvs (MDSKVSBucket.setMap kvs ref map) ref call := by
  have hmap : ((MDSKVSBucket.setMap kvs ref map).buckets.get ref).map = map := by
    rw [MDSKVS.get_setMap_map, if_pos rfl]
  refine ⟨htouch, le_rfl, ?_, ?_, ?_, ?_, fun _ _ => rfl⟩
  · intro other hother
    rw [MDSKVS.get_setMap_map, if_neg hother]
  · intro key container hfound
    rw [hmap] at hfound
    rcases hfind key with hsame | ⟨hnone, _⟩
    · exact Or.inl (hsame ▸ hfound)
    · rw [hnone] at hfound
      exact absurd hfound.symm (Option.some_ne_none container)
  · intro container hle hlt
    exact absurd hlt hle.not_gt
  · intro key container hbefore hgone
    rw [hmap] at hgone
    rcases hfind key with hsame | ⟨_, hunlinks⟩
    · exact absurd (hsame.trans hbefore) hgone
    · exact hunlinks

theorem createObject (hwf : kvs.WellFormed) (obj : Object) (force : Bool) :
    BucketStep kvs (MDSKVSBucket.createObject kvs ref obj).2 ref
      (.createObject obj force) := by
  refine ⟨MDSKVS.createObject_touches hwf ref obj, Nat.le_succ _, ?_, ?_, ?_, ?_, ?_⟩
  · intro other hother
    exact (MDSKVS.get_setMap_map kvs ref _ other).trans (if_neg hother)
  · intro key container hfind
    rcases MDSKVS.find_createObject_cases hfind with ⟨_, hkey, hcontainer⟩ | ⟨_, hold⟩
    · exact Or.inr ⟨hkey, hcontainer.ge⟩
    · exact Or.inl hold
  · intro container hle hlt
    have heq : container = kvs.containers.next := le_antisymm (Nat.le_of_lt_succ hlt) hle
    change ((MDSKVSBucket.setMap kvs ref _).buckets.get ref).map.find obj.id.key = _
    rw [MDSKVS.get_setMap_map, if_pos rfl, OrderedMap.find_insert, if_pos rfl, heq]
  · intro key container hfind hgone
    change obj.id.key = key
    by_contra hkey
    apply hgone
    change ((MDSKVSBucket.setMap kvs ref _).buckets.get ref).map.find key = _
    rw [MDSKVS.get_setMap_map, if_pos rfl, OrderedMap.find_insert, if_neg (Ne.symm hkey)]
    exact hfind
  · intro container _ hlt
    exact Heap.get_alloc_of_ne _ _ hlt.ne

theorem deleteObject (hwf : kvs.WellFormed) (id : ObjectID)
    (hname : (kvs.buckets.get ref).name = id.bucket) :
    BucketStep kvs (MDSKVSBucket.deleteObject kvs ref id.key).2 ref
      (.deleteObject id) := by
  have htouch := (MDSKVSBucket.perform_refines hwf (.deleteObject id) hname).2
  rw [MDSKVSBucket.perform] at htouch
  change MDSKVS.Touches kvs (MDSKVSBucket.deleteObject kvs ref id.key).2 ref _ at htouch
  cases hfind : (kvs.buckets.get ref).map.find id.key with
  | none =>
      simp only [MDSKVSBucket.deleteObject, hfind]
      apply refl hwf
      simp [Contents.perform, (MDSKVS.bucketContents_eq_none_iff kvs ref _).mpr hfind]
  | some container =>
      simp only [MDSKVSBucket.deleteObject, hfind] at htouch ⊢
      apply setMap htouch
      intro key
      rw [OrderedMap.find_erase]
      by_cases hkey : key = id.key
      · exact Or.inr ⟨if_pos hkey, hkey.symm⟩
      · exact Or.inl (if_neg hkey)

theorem deleteObjectPrefix (hwf : kvs.WellFormed) (id : ObjectID)
    (hname : (kvs.buckets.get ref).name = id.bucket) :
    BucketStep kvs (MDSKVSBucket.deleteObjectPrefix kvs ref id.key).2 ref
      (.deleteObjectPrefix id) := by
  have htouch := (MDSKVSBucket.perform_refines hwf (.deleteObjectPrefix id) hname).2
  change MDSKVS.Touches kvs (MDSKVSBucket.deleteObjectPrefix kvs ref id.key).2 ref _
    at htouch
  rw [MDSKVSBucket.deleteObjectPrefix] at htouch ⊢
  by_cases hend : (prefixSearch (kvs.buckets.get ref).map id.key).1 =
      (kvs.buckets.get ref).map.endPos
  · rw [if_pos hend]
    apply refl hwf
    have hall := (MDSKVS.prefixSearch_eq_endPos_iff kvs ref id.key).mp hend
    exact hall.erasePrefix_eq
  · rw [if_neg hend] at htouch ⊢
    apply setMap htouch
    intro key
    rw [find_erasePrefixRange]
    by_cases hkey : id.key <+: key
    · exact Or.inr ⟨if_pos hkey, hkey⟩
    · exact Or.inl (if_neg hkey)

/-- A container that is still linked is written. -/
theorem writeContainer (hwf : kvs.WellFormed) {obj : Object} {container : Nat}
    (hfind : (kvs.buckets.get ref).map.find obj.id.key = some container) :
    BucketStep kvs (MDSKVSBucket.writeContainer kvs container obj.info) ref
      (.updateObject obj) := by
  refine ⟨?_, le_rfl, fun _ => rfl, Or.inl, ?_, ?_, ?_⟩
  · simp only [Contents.perform, MDSKVS.bucketContents_of_find hfind]
    exact MDSKVS.writeContainer_touches hwf hfind obj.info
  · intro other hle hlt
    exact absurd hlt hle.not_gt
  · intro key other hother hgone
    exact absurd hother hgone
  · intro other hgone _
    apply Heap.get_set_of_ne
    intro heq
    exact hgone ref obj.id.key (heq ▸ hfind)

end BucketStep

end GEDS
