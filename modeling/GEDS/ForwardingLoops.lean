/-
What happens to a read where the records went wrong: nodes that have no file ask each
other, and nobody ever answers.
-/
import GEDS.ForwardingEnds

namespace GEDS

universe u

namespace Forwarding

variable {α : Type u}

namespace Nodes

section Definitions

variable (s : Nodes α) (on : α → Option Nat)

/-- The nodes of a loop have handles registered that ask nodes of the loop. -/
structure Loops : Prop where
  registered : ∀ node id, on node = some id → s.registry node = some id
  lt_next : ∀ node id, on node = some id → id < s.handles.next
  asks : ∀ node id, on node = some id → ∃ host version reopened,
    s.handles.get id = some ⟨node, true, .relocatable ⟨.node host, version⟩ reopened⟩ ∧
      (on host).isSome

/-- The first node is on the loop, and will ask the next. -/
def Caught (on : α → Option Nat) : List (Frame α) → Prop
  | [] => False
  | ⟨node, phase⟩ :: _ => ∃ id, on node = some id ∧
      ((∃ retry, phase = .openFile retry) ∨ (∃ retry, phase = .opened retry id) ∨
        ∃ again, phase = .reading again id)

/-- No call of the read fails and its connections hold, and the handles of the loop are left
alone: nothing else is registered in their place, and they are not reopened. -/
def Spares (read : Nat) : Event α → Prop
  | .create node overwrite => overwrite = false ∨ on node = none
  | .removeHandle node => on node = none
  | .relocate id _ => ∀ file, s.handles.get id = some file → on file.node = none
  | .startRead other _ _ _ | .startOpen other _ _ _ | .lose other _ => other ≠ read
  | .step other ok => (other = read → ok = true) ∧
      ∀ position length node id invalidate record rest, s.reads other = .running position length
        (⟨node, .located (.reopen id) invalidate record⟩ :: rest) → ∀ host, on host ≠ some id
  | _ => True

def SparesRun [DecidableEq α] (on : α → Option Nat) (read : Nat) : Nodes α → List (Event α) → Prop
  | _, [] => True
  | s, event :: events => s.Spares on read event ∧ SparesRun on read (s.perform event) events

end Definitions

variable {s s' : Nodes α} {on : α → Option Nat} {node : α} {record : Record α}

theorem Loops.of_same (hloops : s.Loops on)
    (hregistry : ∀ node id, on node = some id → s'.registry node = s.registry node)
    (hnext : s.handles.next ≤ s'.handles.next)
    (hget : ∀ node id, on node = some id → s'.handles.get id = s.handles.get id) :
    s'.Loops on where
  registered node id hid := (hregistry node id hid).trans (hloops.registered node id hid)
  lt_next node id hid := (hloops.lt_next node id hid).trans_le hnext
  asks node id hid := by
    obtain ⟨host, version, reopened, hfile, hhost⟩ := hloops.asks node id hid
    exact ⟨host, version, reopened, (hget node id hid).trans hfile, hhost⟩

/-- A handle that is not of the loop changes. -/
theorem Loops.setHandle (hloops : s.Loops on) {id : Nat} (file : FileHandle α)
    (hid : ∀ host, on host ≠ some id) : (s.setHandle id file).Loops on :=
  hloops.of_same (fun _ _ _ => rfl) le_rfl fun host _ hother => Heap.get_set_of_ne _ _
    fun hsame => hid host (hsame ▸ hother)

/-- The handles of the loop are valid and have no file. -/
theorem Loops.ne_of_get (hloops : s.Loops on) {id : Nat} {file : FileHandle α}
    (hget : s.handles.get id = some file) (hfile : file.kind.inner = none ∨ file.isValid = false)
    (host : α) : on host ≠ some id := by
  intro hid
  obtain ⟨next, version, reopened, hloop, -⟩ := hloops.asks host id hid
  obtain rfl := Option.some.inj (hget.symm.trans hloop)
  rcases hfile with hnone | hvalid
  · cases hnone
  · cases hvalid

section Steps

variable [DecidableEq α]

theorem Loops.setRegistry (hloops : s.Loops on) (value : Option Nat) (hnode : on node = none) :
    (s.setRegistry node value).Loops on := by
  refine hloops.of_same (fun host id hid => Function.update_of_ne ?_ ..) le_rfl fun _ _ _ => rfl
  rintro rfl
  rw [hnode] at hid
  cases hid

theorem Loops.register (hloops : s.Loops on) (kind : HandleKind α) (hnode : on node = none) :
    (s.register node kind).Loops on := by
  refine hloops.of_same (fun host id hid => Function.update_of_ne ?_ ..) (Nat.le_succ _)
    fun host id hid => Heap.get_alloc_of_ne _ _ (hloops.lt_next host id hid).ne
  rintro rfl
  rw [hnode] at hid
  cases hid

omit [DecidableEq α] in
theorem Loops.not_on (hloops : s.Loops on) (hnone : s.registry node = none) :
    on node = none := by
  by_contra hsome
  obtain ⟨id, hid⟩ := Option.ne_none_iff_exists'.1 hsome
  rw [hloops.registered node id hid] at hnone
  cases hnone

theorem Loops.insertWrapped (hloops : s.Loops on) :
    (s.insertWrapped node record).1.Loops on := by
  cases hid : s.registry node with
  | some id =>
      simp only [Nodes.insertWrapped, hid]
      exact hloops
  | none =>
      simp only [Nodes.insertWrapped, hid]
      exact hloops.register _ (hloops.not_on hid)

theorem Loops.removeIf (hloops : s.Loops on) {id : Nat}
    (hid : ∀ file, s.handles.get id = some file → file.isValid = false) :
    (s.removeIf node id).Loops on := by
  rw [Nodes.removeIf]
  split_ifs with hregistered
  · refine hloops.setRegistry none ?_
    by_contra hsome
    obtain ⟨other, hother⟩ := Option.ne_none_iff_exists'.1 hsome
    obtain rfl : other = id :=
      Option.some.inj ((hloops.registered node other hother).symm.trans hregistered)
    obtain ⟨host, version, reopened, hget, -⟩ := hloops.asks node other hother
    cases hid _ hget
  · exact hloops

omit [DecidableEq α] in
theorem Loops.readBytes (hloops : s.Loops on) (position length : Nat) (ok again : Bool)
    (id : Nat) : (s.readBytes position length ok again id).1.Loops on := by
  rw [Nodes.readBytes]
  split
  · exact hloops
  · exact hloops
  · rename_i host isValid hget
    split_ifs
    · exact hloops
    · exact hloops.setHandle _ (hloops.ne_of_get hget (Or.inl rfl))
  · split_ifs <;> exact hloops
  · split_ifs <;> exact hloops

omit [DecidableEq α] in
theorem Loops.reopen (hloops : s.Loops on) {id : Nat} (hid : ∀ host, on host ≠ some id) :
    (s.reopen id record).Loops on := by
  rw [Nodes.reopen]
  split
  · exact hloops.setHandle _ hid
  · exact hloops

theorem Loops.stepPhase (hloops : s.Loops on) (position length : Nat) (ok : Bool)
    {phase : Phase α} (hphase : ∀ id invalidate record,
      phase = .located (.reopen id) invalidate record → ∀ host, on host ≠ some id) :
    (s.stepPhase node position length ok phase).1.Loops on := by
  cases phase with
  | openFile retry =>
      simp only [Nodes.stepPhase]
      split_ifs
      · split <;> exact hloops
      · exact hloops
  | lookup use invalidate =>
      simp only [Nodes.stepPhase]
      split
      · exact hloops
      · split <;> exact hloops
  | answered use invalidate record =>
      exact hloops.of_same (fun _ _ _ => rfl) le_rfl fun _ _ _ => rfl
  | located use invalidate record =>
      simp only [Nodes.stepPhase]
      split_ifs
      · cases use with
        | «open» retry => exact hloops.insertWrapped
        | reopen id => exact hloops.reopen (hphase id invalidate record rfl)
      · exact hloops
      · exact hloops
  | opened retry id =>
      simp only [Nodes.stepPhase]
      split
      · exact hloops
      · rename_i hnot
        refine hloops.removeIf fun file hget => ?_
        obtain ⟨host, isValid, kind⟩ := file
        cases isValid with
        | false => rfl
        | true => exact absurd hget (hnot host kind)
  | reading again id => exact hloops.readBytes position length ok again id
  | waiting again id record reopened => exact hloops
  | retrying id reopened =>
      simp only [Nodes.stepPhase]
      split
      · split_ifs <;> exact hloops
      · exact hloops
  | finished answer => exact hloops

omit [DecidableEq α] in
theorem Loops.setRead (hloops : s.Loops on) (read : Nat) (value : Read α) :
    (s.setRead read value).Loops on :=
  hloops.of_same (fun _ _ _ => rfl) le_rfl fun _ _ _ => rfl

theorem Loops.stepRead (hloops : s.Loops on) (read : Nat) (ok : Bool)
    (hspares : ∀ position length node id invalidate record rest, s.reads read = .running position
      length (⟨node, .located (.reopen id) invalidate record⟩ :: rest) →
        ∀ host, on host ≠ some id) :
    (s.stepRead read ok).Loops on := by
  rw [Nodes.stepRead]
  split
  · exact hloops.setRead read _
  · exact hloops.setRead read _
  · rename_i position length node phase rest _ _ hread
    refine (hloops.stepPhase position length ok fun id invalidate record hphase => ?_).setRead
      read _
    exact hspares position length node id invalidate record rest (by rw [hread, hphase])
  · exact hloops

theorem Loops.sealHandle (hloops : s.Loops on) (id : Nat) (update effect : Bool) :
    (s.sealHandle id update effect).Loops on := by
  rw [Nodes.sealHandle]
  split
  · split
    · exact hloops.of_same (fun _ _ _ => rfl) le_rfl fun _ _ _ => rfl
    · exact hloops
  · exact hloops

theorem Loops.relocate (hloops : s.Loops on) (id : Nat) (outcome : RelocationEnd)
    (hspares : ∀ file, s.handles.get id = some file → on file.node = none) :
    (s.relocate id outcome).Loops on := by
  have hsame : ∀ {s' : Nodes α}, s'.registry = s.registry → s'.handles = s.handles →
      s'.Loops on := fun hregistry hhandles =>
    hloops.of_same (fun _ _ _ => by rw [hregistry]) (by rw [hhandles])
      fun _ _ _ => by rw [hhandles]
  rw [Nodes.relocate]
  split
  · rename_i node content hget
    split_ifs
    · exact hloops
    · cases outcome with
      | uploaded => exact hsame rfl rfl
      | refused => exact hsame rfl rfl
      | misleading => exact hsame rfl rfl
      | moved =>
          have hsealed : (s.sealAt node .store false true).Loops on := hsame rfl rfl
          have hinvalid := hsealed.setHandle ⟨node, false, .localFile content⟩
            (hloops.ne_of_get hget (Or.inl rfl))
          have hstored : { (s.sealAt node .store false true).setHandle id
              ⟨node, false, .localFile content⟩ with stored := some content }.Loops on :=
            hinvalid.of_same (fun _ _ _ => rfl) le_rfl fun _ _ _ => rfl
          exact hstored.register .s3 (hspares _ hget)
  · rename_i node isValid inner reopened hget
    split_ifs
    · exact hloops
    · exact hloops.setRegistry _ (hspares _ hget)
  · exact hloops

/-- What one step leaves of a loop -/
theorem Loops.perform (hloops : s.Loops on) {read : Nat} {event : Event α}
    (hspares : s.Spares on read event) : (s.perform event).Loops on := by
  cases event with
  | create node overwrite =>
      simp only [Nodes.perform, Nodes.create]
      split_ifs with hexists
      · exact hloops
      · refine hloops.register _ (hspares.elim (fun hkeeps => ?_) id)
        refine hloops.not_on (Option.not_isSome_iff_eq_none.1 fun hsome => ?_)
        exact hexists ⟨hkeeps, hsome⟩
  | write id content =>
      simp only [Nodes.perform, Nodes.write]
      split
      · rename_i hget
        exact hloops.setHandle _ (hloops.ne_of_get hget (Or.inl rfl))
      · exact hloops
  | «seal» id update effect => exact hloops.sealHandle id update effect
  | relocate id outcome => exact hloops.relocate id outcome hspares
  | forgetObject node => exact hloops.of_same (fun _ _ _ => rfl) le_rfl fun _ _ _ => rfl
  | deleteRecord => exact hloops.of_same (fun _ _ _ => rfl) le_rfl fun _ _ _ => rfl
  | deleteStored => exact hloops.of_same (fun _ _ _ => rfl) le_rfl fun _ _ _ => rfl
  | removeHandle node => exact hloops.setRegistry none hspares
  | ask node =>
      simp only [Nodes.perform, Nodes.ask]
      split
      · exact hloops.of_same (fun _ _ _ => rfl) le_rfl fun _ _ _ => rfl
      · exact hloops
  | remember index =>
      simp only [Nodes.perform, Nodes.remember]
      split
      · exact hloops.of_same (fun _ _ _ => rfl) le_rfl fun _ _ _ => rfl
      · exact hloops
  | startRead other id position length =>
      simp only [Nodes.perform, Nodes.startRead]
      split
      · exact hloops.setRead other _
      · exact hloops
  | startOpen other node position length => exact hloops.setRead other _
  | step other ok => exact hloops.stepRead other ok hspares.2
  | lose other more =>
      simp only [Nodes.perform]
      split
      · exact hloops.setRead other _
      · exact hloops

variable {read position length : Nat} {frames : List (Frame α)}

/-- A step of a read on a loop: the node goes on, or asks the next one of the loop. -/
theorem Caught.stepRead (hcaught : Caught on frames) (hloops : s.Loops on) (hlength : length ≠ 0)
    (hread : s.reads read = .running position length frames) :
    ∃ frames', (s.stepRead read true).reads read = .running position length frames' ∧
      Caught on frames' ∧ frames.length ≤ frames'.length := by
  cases frames with
  | nil => exact hcaught.elim
  | cons frame rest =>
      obtain ⟨node, phase⟩ := frame
      obtain ⟨id, hid, hphase⟩ := hcaught
      obtain ⟨host, version, reopened, hget, hhost⟩ := hloops.asks node id hid
      rcases hphase with ⟨retry, rfl⟩ | ⟨retry, rfl⟩ | ⟨again, rfl⟩
      · refine ⟨_, reads_stepRead_work hread (fun _ h => by cases h) ?_, ⟨id, hid,
          Or.inr (Or.inl ⟨retry, ?_⟩)⟩, le_rfl⟩
        all_goals simp [Nodes.stepPhase, hloops.registered node id hid]
      · refine ⟨_, reads_stepRead_work hread (fun _ h => by cases h) ?_, ⟨id, hid,
          Or.inr (Or.inr ⟨false, ?_⟩)⟩, le_rfl⟩
        all_goals simp [Nodes.stepPhase, hget]
      · obtain ⟨next, hnext⟩ := Option.isSome_iff_exists.1 hhost
        have hasked : (s.stepPhase node position length true (.reading again id)).2.2 =
            some host := by
          simp [Nodes.stepPhase, Nodes.readBytes, hget, hlength]
        exact ⟨_, reads_stepRead_ask hread (fun _ h => by cases h) hasked,
          ⟨next, hnext, Or.inl ⟨true, rfl⟩⟩, by simp⟩

/-- Another read's step leaves a read as it is. -/
theorem reads_stepRead_of_ne {other : Nat} (hne : other ≠ read) (ok : Bool) :
    (s.stepRead other ok).reads read = s.reads read := by
  rw [Nodes.stepRead]
  split
  · exact Function.update_of_ne hne.symm ..
  · exact Function.update_of_ne hne.symm ..
  · rename_i phase rest _ _ _
    exact (Function.update_of_ne hne.symm ..).trans (congrFun (reads_stepPhase ..) read)
  · rfl

/-- Whatever else is done, the read stays on the loop. -/
theorem Caught.perform (hcaught : Caught on frames) (hloops : s.Loops on) (hlength : length ≠ 0)
    (hread : s.reads read = .running position length frames) {event : Event α}
    (hspares : s.Spares on read event) :
    ∃ frames', (s.perform event).reads read = .running position length frames' ∧
      Caught on frames' ∧ frames.length ≤ frames'.length := by
  have hsame : ∀ {s' : Nodes α}, s'.reads read = s.reads read →
      ∃ frames', s'.reads read = .running position length frames' ∧ Caught on frames' ∧
        frames.length ≤ frames'.length := fun hreads =>
    ⟨frames, hreads.trans hread, hcaught, le_rfl⟩
  cases event with
  | step other ok =>
      by_cases hother : other = read
      · subst other
        obtain rfl : ok = true := hspares.1 rfl
        exact hcaught.stepRead hloops hlength hread
      · exact hsame (reads_stepRead_of_ne hother ok)
  | startRead other id position length =>
      refine hsame ?_
      simp only [Nodes.perform, Nodes.startRead]
      split
      · exact Function.update_of_ne (Ne.symm hspares) ..
      · rfl
  | startOpen other node position length =>
      exact hsame (Function.update_of_ne (Ne.symm hspares) ..)
  | lose other more =>
      refine hsame ?_
      simp only [Nodes.perform]
      split
      · exact Function.update_of_ne (Ne.symm hspares) ..
      · rfl
  | «seal» id update effect => exact hsame (congrFun (reads_sealHandle id update effect) read)
  | relocate id outcome => exact hsame (congrFun (reads_relocate id outcome) read)
  | forgetObject node => exact hsame rfl
  | deleteRecord => exact hsame rfl
  | deleteStored => exact hsame rfl
  | removeHandle node => exact hsame rfl
  | create node overwrite => exact hsame (congrFun (reads_create node overwrite) read)
  | write id content => exact hsame (congrFun (reads_write id content) read)
  | ask node => exact hsame (congrFun (reads_ask node) read)
  | remember index => exact hsame (congrFun (reads_remember index) read)

/-- A read that has come to a loop is never answered: in every run that leaves the handles of
the loop alone, and in which no call of the read fails, no node that waits goes on. -/
theorem loop_never_answers {events : List (Event α)} (hloops : s.Loops on)
    (hread : s.reads read = .running position length frames) (hlength : length ≠ 0)
    (hcaught : Caught on frames) (hspares : s.SparesRun on read events) :
    ∃ frames', (s.run events).reads read = .running position length frames' ∧
      Caught on frames' ∧ frames.length ≤ frames'.length := by
  induction events generalizing s frames with
  | nil => exact ⟨frames, hread, hcaught, le_rfl⟩
  | cons event events ih =>
      obtain ⟨next, hnext, hstill, hmore⟩ := hcaught.perform hloops hlength hread hspares.1
      obtain ⟨last, hlast, hends, hrest⟩ :=
        ih (hloops.perform hspares.1) hnext hstill hspares.2
      exact ⟨last, hlast, hends, hmore.trans hrest⟩

/-- A node deletes a file that is open and seals it afterwards, and then opens the object: it
is recorded for a node that has no file any more. -/
def orphaned (host : α) : List (Event α) :=
  [.create host false, .removeHandle host, .seal 0 false true, .startOpen 0 host 0 1] ++
    List.replicate 4 (.step 0 true)

/-- The loop of one node that asks itself -/
def loopAt (host : α) (node : α) : Option Nat := if node = host then some 1 else none

theorem orphaned_run (host : α) :
    ((start : Nodes α).run (orphaned host)).registry host = some 1 ∧
      ((start : Nodes α).run (orphaned host)).handles.next = 2 ∧
      ((start : Nodes α).run (orphaned host)).handles.get 1 =
        some ⟨host, true, .relocatable ⟨.node host, 1⟩ 0⟩ ∧
      ((start : Nodes α).run (orphaned host)).reads 0 =
        .running 0 1 [⟨host, .opened true 1⟩] := by
  simp [orphaned, List.replicate, Nodes.run, Nodes.perform, Nodes.create, Nodes.register,
    Nodes.setRegistry, Nodes.sealHandle, sealLocation, Nodes.sealAt, Nodes.setRead,
    Nodes.stepRead, Nodes.stepPhase, canOpen, Nodes.insertWrapped, Nodes.setCache, Heap.alloc,
    Heap.empty, Nodes.start]

theorem orphaned_loops (host : α) :
    ((start : Nodes α).run (orphaned host)).Loops (loopAt host) := by
  obtain ⟨hregistry, hnext, hget, -⟩ := orphaned_run host
  have hself : ∀ {node id}, loopAt host node = some id → node = host ∧ id = 1 := by
    intro node id hid
    rw [loopAt] at hid
    split_ifs at hid with hnode
    exact ⟨hnode, (Option.some.inj hid).symm⟩
  refine ⟨fun node id hid => ?_, fun node id hid => ?_, fun node id hid => ?_⟩
  · obtain ⟨rfl, rfl⟩ := hself hid
    exact hregistry
  · obtain ⟨rfl, rfl⟩ := hself hid
    rw [hnext]
    exact Nat.lt_succ_self 1
  · obtain ⟨rfl, rfl⟩ := hself hid
    exact ⟨node, 1, 0, hget, by simp [loopAt]⟩

theorem orphaned_caught (host : α) : Caught (loopAt host) [⟨host, .opened true 1⟩] :=
  ⟨1, if_pos rfl, Or.inr (Or.inl ⟨true, rfl⟩)⟩

theorem orphaned_never_answers : ∃ frames',
    (((start : Nodes Nat).run (orphaned 0)).run
        [.ask 0, .step 0 true, .startOpen 1 0 0 1, .step 1 true, .step 0 true]).reads 0 =
      .running 0 1 frames' ∧ Caught (loopAt 0) frames' ∧
        [(⟨0, .opened true 1⟩ : Frame Nat)].length ≤ frames'.length := by
  obtain ⟨-, -, -, hread⟩ := orphaned_run (0 : Nat)
  refine loop_never_answers (orphaned_loops 0) hread Nat.one_ne_zero (orphaned_caught 0)
    ⟨trivial, ⟨fun _ => rfl, fun _ _ _ _ _ _ _ h => ?_⟩, Nat.one_ne_zero,
      ⟨fun _ => rfl, fun _ _ _ _ _ _ _ h => ?_⟩, ⟨fun _ => rfl, fun _ _ _ _ _ _ _ h => ?_⟩,
      trivial⟩
  all_goals cases h

end Steps

end Nodes

end Forwarding

end GEDS
