/-
A read that nobody interferes with makes only so many steps, whatever calls fail: each
leaves less to do, when a node that is asked under a newer record counts for less.
-/
import GEDS.ForwardingDepth

namespace GEDS

universe u

namespace Forwarding

variable {α : Type u}

namespace Phase

/-- The steps before the file is opened, from the lookup on, end with this many. -/
def stepsOpened : LookupUse → Nat
  | .open retry => if retry then 18 else 10
  | .reopen _ => 3

/-- How many steps of its own a node has before it at most. -/
def steps : Phase α → Nat
  | .openFile retry => if retry then 25 else 17
  | .lookup use invalidate => stepsOpened use + if invalidate then 3 else 6
  | .answered use invalidate _ => stepsOpened use + if invalidate then 2 else 5
  | .located use invalidate _ => stepsOpened use + if invalidate then 1 else 4
  | .opened retry _ => if retry then 18 else 10
  | .reading again _ => if again then 3 else 9
  | .waiting again _ _ _ => if again then 2 else 8
  | .retrying _ _ => 7
  | .finished _ => 1

end Phase

namespace Nodes

variable {s : Nodes α} {gone : Gone α} {node : α} {phase : Phase α} {frames rest : List (Frame α)}

/-- The node that was asked last is at work: it does not wait. -/
def AtWork (s : Nodes α) : Prop :=
  ∀ read position length frames, s.reads read = .running position length frames →
    ∃ frame rest, frames = frame :: rest ∧ frame.phase.request = none

theorem AtWork.setRead (hwork : s.AtWork) (read : Nat) {value : Read α}
    (hvalue : ∀ position length frames, value = .running position length frames →
      ∃ frame rest, frames = frame :: rest ∧ frame.phase.request = none) :
    (s.setRead read value).AtWork := by
  intro other position length frames hread
  simp only [Nodes.setRead, Function.update_apply] at hread
  split_ifs at hread
  · exact hvalue position length frames hread
  · exact hwork other position length frames hread

theorem AtWork.of_reads {s' : Nodes α} (hwork : s.AtWork) (hreads : s'.reads = s.reads) :
    s'.AtWork := by
  intro read position length frames hread
  rw [hreads] at hread
  exact hwork read position length frames hread

/-- The calls that wait for each other, with what is left to do. -/
def pending : List (Frame α) → List PendingCall
  | [] => []
  | frame :: rest => ⟨requested rest, frame.phase.steps⟩ :: pending rest

/-- The calls of a read -/
def pendingCalls (s : Nodes α) (read : Nat) : List PendingCall :=
  match s.reads read with
  | .running _ _ frames => pending frames
  | _ => []

/-- A node that answers lets the one that asked it go on. -/
theorem steps_afterAnswer {again : Bool} {id reopened : Nat} {record : Record α}
    (answer : Option Bytes) :
    (afterAnswer answer (.waiting again id record reopened)).steps <
      (Phase.waiting again id record reopened).steps := by
  cases again <;> cases answer <;> simp [afterAnswer, Phase.steps]

theorem request_afterAnswer {again : Bool} {id reopened : Nat} (record : Record α)
    (answer : Option Bytes) :
    (afterAnswer answer (.waiting again id record reopened)).request = none := by
  cases again <;> cases answer <;> simp [afterAnswer, Phase.request]

section Steps

variable (s) (node) (position length : Nat) (ok : Bool)

theorem readBytes_steps (again : Bool) (id : Nat) :
    (s.readBytes position length ok again id).2.1.steps <
      (Phase.reading again id : Phase α).steps := by
  cases again with
  | true =>
      simp only [readBytes, if_true]
      split <;> (try split_ifs) <;> simp [Phase.steps]
  | false =>
      simp only [readBytes, Bool.false_eq_true, if_false]
      split <;> (try split_ifs) <;> simp [Phase.steps]

theorem readBytes_request (again : Bool) (id : Nat)
    (hhost : (s.readBytes position length ok again id).2.2 = none) :
    (s.readBytes position length ok again id).2.1.request = none := by
  rw [readBytes] at hhost ⊢
  split at hhost <;> (try split_ifs at hhost) <;> simp_all [Phase.request] <;>
    (try split_ifs) <;> rfl

variable [DecidableEq α]

theorem stepPhase_steps (hrequest : phase.request = none)
    (hfinished : ∀ answer, phase ≠ .finished answer) :
    (s.stepPhase node position length ok phase).2.1.steps < phase.steps := by
  cases phase with
  | openFile retry =>
      simp only [stepPhase]
      split_ifs
      · split <;> cases retry <;> simp [Phase.steps, Phase.stepsOpened]
      · cases retry <;> simp [Phase.steps]
  | lookup use invalidate =>
      simp only [stepPhase]
      split
      · cases invalidate <;> simp [Phase.steps]
      · split
        · cases invalidate <;> simp [Phase.steps]
        · simp only [Phase.steps]
          split_ifs <;> omega
  | answered use invalidate record =>
      cases invalidate <;> simp [stepPhase, Phase.steps]
  | located use invalidate record =>
      simp only [stepPhase]
      split_ifs with hopen hinvalidate
      · cases use with
        | «open» retry => cases retry <;> cases invalidate <;> simp [Phase.steps, Phase.stepsOpened]
        | reopen id => cases invalidate <;> simp [Phase.steps, Phase.stepsOpened]
      · cases use with
        | «open» retry => cases retry <;> simp [Phase.steps, Phase.stepsOpened, hinvalidate]
        | reopen id => simp [Phase.steps, Phase.stepsOpened, hinvalidate]
      · simp [Phase.steps, hinvalidate]
  | opened retry id =>
      simp only [stepPhase]
      split <;> cases retry <;> simp [Phase.steps]
  | reading again id => exact readBytes_steps s position length ok again id
  | waiting again id record reopened => cases hrequest
  | retrying id reopened =>
      simp only [stepPhase]
      split
      · split_ifs <;> simp [Phase.steps, Phase.stepsOpened]
      · simp [Phase.steps]
  | finished answer => exact absurd rfl (hfinished answer)

theorem stepPhase_request (hrequest : phase.request = none)
    (hhost : (s.stepPhase node position length ok phase).2.2 = none) :
    (s.stepPhase node position length ok phase).2.1.request = none := by
  cases phase with
  | reading again id => exact readBytes_request s position length ok again id hhost
  | waiting again id record reopened => cases hrequest
  | located use invalidate record =>
      simp only [stepPhase]
      split_ifs
      · cases use <;> rfl
      · rfl
      · rfl
  | _ =>
      simp only [stepPhase]
      repeat' split
      all_goals rfl

end Steps

section Reads

variable [DecidableEq α] {read position length : Nat} {ok : Bool}

theorem reads_stepRead_work (hread : s.reads read = .running position length
      (⟨node, phase⟩ :: rest)) (hfinished : ∀ answer, phase ≠ .finished answer)
    (hhost : (s.stepPhase node position length ok phase).2.2 = none) :
    (s.stepRead read ok).reads read = .running position length
      (⟨node, (s.stepPhase node position length ok phase).2.1⟩ :: rest) := by
  cases phase with
  | finished answer => exact absurd rfl (hfinished answer)
  | _ => simp [stepRead, hread, hhost, Nodes.setRead]

theorem reads_stepRead_ask {host : α} (hread : s.reads read = .running position length
      (⟨node, phase⟩ :: rest)) (hfinished : ∀ answer, phase ≠ .finished answer)
    (hhost : (s.stepPhase node position length ok phase).2.2 = some host) :
    (s.stepRead read ok).reads read = .running position length
      (⟨host, .openFile true⟩ ::
        ⟨node, (s.stepPhase node position length ok phase).2.1⟩ :: rest) := by
  cases phase with
  | finished answer => exact absurd rfl (hfinished answer)
  | _ => simp [stepRead, hread, hhost, Nodes.setRead]

theorem reads_stepRead_answer {answer : Option Bytes} {below : Frame α}
    (hread : s.reads read = .running position length
      (⟨node, .finished answer⟩ :: below :: rest)) :
    (s.stepRead read ok).reads read = .running position length
      (⟨below.node, afterAnswer answer below.phase⟩ :: rest) := by
  simp [stepRead, hread, Nodes.setRead]

theorem reads_stepRead_done {answer : Option Bytes}
    (hread : s.reads read = .running position length [⟨node, .finished answer⟩]) :
    (s.stepRead read ok).reads read = .done answer := by
  simp [stepRead, hread, Nodes.setRead]

/-- What was answered stays answered. -/
theorem reads_stepRead_of_done {answer : Option Bytes} (hread : s.reads read = .done answer) :
    (s.stepRead read ok).reads read = .done answer := by
  simp [stepRead, hread]

theorem versions_stepPhase (phase : Phase α) :
    (s.stepPhase node position length ok phase).1.versions = s.versions := by
  have hreopen : ∀ id record, (s.reopen id record).versions = s.versions := by
    intro id record
    rw [reopen]
    split <;> rfl
  have hinsert : ∀ record, (s.insertWrapped node record).1.versions = s.versions := by
    intro record
    rw [insertWrapped]
    split <;> rfl
  have hremove : ∀ id, (s.removeIf node id).versions = s.versions := by
    intro id
    rw [removeIf]
    split <;> rfl
  cases phase with
  | reading again id =>
      simp only [stepPhase, readBytes]
      split <;> (try split_ifs) <;> rfl
  | located use invalidate record =>
      simp only [stepPhase]
      split_ifs
      · cases use with
        | «open» retry => exact hinsert record
        | reopen id => exact hreopen id record
      · rfl
      · rfl
  | opened retry id =>
      simp only [stepPhase]
      split
      · rfl
      · exact hremove id
  | _ =>
      simp only [stepPhase]
      repeat' split
      all_goals rfl

theorem versions_stepRead : (s.stepRead read ok).versions = s.versions := by
  rw [stepRead]
  split
  · rfl
  · rfl
  · exact versions_stepPhase _
  · rfl

omit [DecidableEq α] in
theorem pendingCalls_of_running (hread : s.reads read = .running position length frames) :
    s.pendingCalls read = pending frames := by
  rw [pendingCalls, hread]

/-- A step of a read is a step of the calls that wait for each other. -/
theorem pendingCalls_step (hinv : s.Invariant gone) (hwork : s.AtWork)
    (horderly : s.Orderly (.step read ok)) (hcalls : s.pendingCalls read ≠ []) :
    PendingCall.Step 26 s.versions (s.pendingCalls read)
      ((s.stepRead read ok).pendingCalls read) := by
  cases hread : s.reads read with
  | idle => exact absurd (by rw [pendingCalls, hread]) hcalls
  | done answer => exact absurd (by rw [pendingCalls, hread]) hcalls
  | running position length frames =>
      obtain ⟨⟨node, phase⟩, rest, rfl, hrequest⟩ := hwork read position length frames hread
      obtain ⟨gone', hafter⟩ := hinv.stepRead read ok horderly
      rw [pendingCalls_of_running hread]
      by_cases hfinished : ∃ answer, phase = .finished answer
      · obtain ⟨answer, rfl⟩ := hfinished
        cases rest with
        | nil =>
            rw [pendingCalls, reads_stepRead_done hread]
            exact PendingCall.Step.finish Nat.one_pos
        | cons below rest =>
            rw [pendingCalls_of_running (reads_stepRead_answer hread)]
            obtain ⟨⟨record, hasks⟩, -⟩ :=
              List.isChain_cons_cons.1 (hinv.stacked read _ _ _ hread).asks
            obtain ⟨host, phase⟩ := below
            cases phase with
            | waiting again id record reopened =>
                exact PendingCall.Step.answer (steps_afterAnswer answer)
            | _ => cases hasks.request
      · have hnot : ∀ answer, phase ≠ .finished answer := fun answer hsame =>
          hfinished ⟨answer, hsame⟩
        have hfewer := stepPhase_steps s node position length ok hrequest hnot
        cases hhost : (s.stepPhase node position length ok phase).2.2 with
        | none =>
            rw [pendingCalls_of_running (reads_stepRead_work hread hnot hhost)]
            exact PendingCall.Step.proceed hfewer
        | some host =>
            -- The node that is asked now is asked under a newer record.
            have hasked := reads_stepRead_ask hread hnot hhost
            have hframes := hafter.stacked read _ _ _ hasked
            have hrises := (List.isChain_cons_cons.1 hframes.requests_rise).1
            have hbound := hframes.requests_le _ List.mem_cons_self
            rw [versions_stepRead] at hbound
            rw [pendingCalls_of_running hasked]
            exact PendingCall.Step.call hfewer hrises hbound (Nat.lt_succ_self 25)

theorem AtWork.stepRead (hinv : s.Invariant gone) (hwork : s.AtWork) (read : Nat) (ok : Bool) :
    (s.stepRead read ok).AtWork := by
  rw [Nodes.stepRead]
  split
  · exact hwork.setRead read fun _ _ _ hsome => by cases hsome
  · rename_i position length other answer below rest hread
    refine hwork.setRead read fun _ _ _ hsome => ?_
    cases hsome
    refine ⟨_, _, rfl, ?_⟩
    obtain ⟨⟨record, hasks⟩, -⟩ := List.isChain_cons_cons.1 (hinv.stacked read _ _ _ hread).asks
    obtain ⟨host, phase⟩ := below
    cases phase with
    | waiting again id record reopened => exact request_afterAnswer record answer
    | _ => cases hasks.request
  · rename_i position length other phase rest _ _ hread
    obtain ⟨frame, rest', hframes, hrequest⟩ := hwork read _ _ _ hread
    obtain ⟨rfl, rfl⟩ := List.cons.inj hframes
    refine (hwork.of_reads (reads_stepPhase position length ok phase)).setRead read
      fun _ _ _ hsome => ?_
    cases hsome
    split
    · exact ⟨_, _, rfl, rfl⟩
    · rename_i hhost
      exact ⟨_, _, rfl, stepPhase_request s other position length ok hrequest hhost⟩
  · exact hwork

omit [DecidableEq α] in
theorem AtWork.start : (Nodes.start : Nodes α).AtWork := by
  intro read position length frames hread
  cases hread

theorem AtWork.perform (hinv : s.Invariant gone) (hwork : s.AtWork) (event : Event α) :
    (s.perform event).AtWork := by
  cases event with
  | startRead read id position length =>
      simp only [Nodes.perform, Nodes.startRead]
      split
      · refine hwork.setRead read fun _ _ _ hsome => ?_
        cases hsome
        exact ⟨_, _, rfl, rfl⟩
      · exact hwork
  | startOpen read node position length =>
      refine hwork.setRead read fun _ _ _ hsome => ?_
      cases hsome
      exact ⟨_, _, rfl, rfl⟩
  | step read ok => exact hwork.stepRead hinv read ok
  | lose read more =>
      simp only [Nodes.perform]
      split
      · rename_i position length frames hread
        refine hwork.setRead read fun _ _ _ hsome => ?_
        cases hsome
        obtain ⟨frame, rest, rfl, hrequest⟩ := hwork read _ _ _ hread
        exact ⟨frame, rest.take more, rfl, hrequest⟩
      · exact hwork
  | «seal» id update effect => exact hwork.of_reads (reads_sealHandle id update effect)
  | relocate id outcome => exact hwork.of_reads (reads_relocate id outcome)
  | forgetObject node => exact hwork
  | deleteRecord => exact hwork
  | deleteStored => exact hwork
  | removeHandle node => exact hwork
  | create node overwrite => exact hwork.of_reads (reads_create node overwrite)
  | write id content => exact hwork.of_reads (reads_write id content)
  | ask node => exact hwork.of_reads (reads_ask node)
  | remember index => exact hwork.of_reads (reads_remember index)

theorem AtWork.run (hinv : s.Invariant gone) (hwork : s.AtWork) {events : List (Event α)}
    (horderly : s.OrderlyRun events) : (s.run events).AtWork := by
  induction events generalizing s gone with
  | nil => exact hwork
  | cons event events ih =>
      obtain ⟨gone', hnext⟩ := hinv.perform horderly.1
      exact ih hnext (hwork.perform hinv event) horderly.2

/-- So many steps of one read, with nothing in between; some of its calls may fail. -/
def alone (s : Nodes α) (read : Nat) (answers : Nat → Bool) : Nat → Nodes α
  | 0 => s
  | count + 1 => (alone s read answers count).stepRead read (answers count)

/-- A read that is not answered was not answered before. -/
theorem running_of_alone {answers : Nat → Bool} {count earlier : Nat} (hle : earlier ≤ count)
    (hread : (s.alone read answers count).reads read = .running position length frames) :
    ∃ frames, (s.alone read answers earlier).reads read = .running position length frames := by
  induction count, hle using Nat.le_induction generalizing frames with
  | base => exact ⟨frames, hread⟩
  | succ count _ ih =>
      rw [alone, stepRead] at hread
      split at hread
      · simp [Nodes.setRead] at hread
      · rename_i hbefore
        simp only [Nodes.setRead, Function.update_self, Read.running.injEq] at hread
        obtain ⟨rfl, rfl, -⟩ := hread
        exact ih hbefore
      · rename_i hbefore
        simp only [Nodes.setRead, Function.update_self, Read.running.injEq] at hread
        obtain ⟨rfl, rfl, -⟩ := hread
        exact ih hbefore
      · exact ih hread

/-- After an orderly run a read that goes on alone makes only so many steps, whatever calls
fail, if it takes no file from a node that is not outdated: as long as it is not answered, it
has no more behind it. -/
theorem run_read_bounded {events : List (Event α)}
    (horderly : (Nodes.start : Nodes α).OrderlyRun events) (answers : Nat → Bool)
    (halone : ∀ count, (((Nodes.start : Nodes α).run events).alone read answers count).Orderly
      (.step read (answers count))) {count : Nat}
    (hread : (((Nodes.start : Nodes α).run events).alone read answers count).reads read =
      .running position length frames) :
    count < PendingCall.cost 26 ((Nodes.start : Nodes α).run events).versions
      (((Nodes.start : Nodes α).run events).pendingCalls read) := by
  obtain ⟨gone, hinv⟩ := Invariant.start.run horderly
  have hwork := AtWork.start.run Invariant.start horderly
  generalize (Nodes.start : Nodes α).run events = s at hread halone hinv hwork ⊢
  have hstays : ∀ count, (∃ gone, (s.alone read answers count).Invariant gone) ∧
      (s.alone read answers count).AtWork ∧
      (s.alone read answers count).versions = s.versions := by
    intro count
    induction count with
    | zero => exact ⟨⟨gone, hinv⟩, hwork, rfl⟩
    | succ count ih =>
        obtain ⟨⟨gone, hbefore⟩, hat, hversions⟩ := ih
        exact ⟨hbefore.stepRead read _ (halone count), hat.stepRead hbefore read _,
          versions_stepRead.trans hversions⟩
  have hunder : ∀ k < count + 1, (s.alone read answers k).pendingCalls read ≠ [] := by
    intro k hk
    obtain ⟨before, hbefore⟩ := running_of_alone (Nat.le_of_lt_succ hk) hread
    obtain ⟨frame, rest, rfl, -⟩ := (hstays k).2.1 read _ _ _ hbefore
    rw [pendingCalls_of_running hbefore]
    exact List.cons_ne_nil _ _
  have hcost := @PendingCall.steps_le 26 s.versions (by decide)
    (fun count => (s.alone read answers count).pendingCalls read) (fun k hcalls => by
      obtain ⟨⟨gone, hbefore⟩, hat, hversions⟩ := hstays k
      exact hversions ▸ pendingCalls_step hbefore hat (halone k) hcalls) (count + 1) hunder
  exact (Nat.le_add_left _ _).trans hcost

end Reads

namespace Sample

/-- The node that was asked opens the file and reads it. -/
def answering : List (Event Nat) := asking ++ List.replicate 3 (.step 0 true)

theorem answering_orderly : (start : Nodes Nat).OrderlyRun answering := by
  refine asking_orderly.append ⟨orderly_step rfl fun _ _ h => (by cases h),
    orderly_step rfl fun _ _ h => ?_, orderly_step rfl fun _ _ h => (by cases h), trivial⟩
  cases h
  exact ⟨_, rfl, rfl⟩

theorem answering_read : ((start : Nodes Nat).run answering).reads 0 =
    .running 0 3 [⟨0, .finished (some (text "abc"))⟩, ⟨1, .waiting false 1 ⟨.node 0, 1⟩ 0⟩] := rfl

/-- After one step the read is not answered yet. -/
theorem answering_bounded :
    1 < PendingCall.cost 26 ((start : Nodes Nat).run answering).versions
      (((start : Nodes Nat).run answering).pendingCalls 0) := by
  have hdone : ∀ count, (((start : Nodes Nat).run answering).alone 0 (fun _ => true)
      (count + 2)).reads 0 = .done (some (text "abc")) := by
    intro count
    induction count with
    | zero => exact reads_stepRead_done (reads_stepRead_answer answering_read)
    | succ count ih => exact reads_stepRead_of_done ih
  refine @run_read_bounded Nat _ _ 0 _ _ answering answering_orderly (fun _ => true)
    (fun count => ?_) 1 (reads_stepRead_answer answering_read)
  rcases count with _ | _ | count
  · exact orderly_step answering_read fun _ _ h => by cases h
  · exact orderly_step (reads_stepRead_answer answering_read) fun _ _ h => by cases h
  · intro position length node retry id file rest hread
    rw [hdone count] at hread
    cases hread

end Sample

end Nodes

end Forwarding

end GEDS
