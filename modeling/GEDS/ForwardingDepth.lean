/-
Why a read that is handed on from node to node comes to its end: each node is asked under
a newer record than the one before.
-/
import GEDS.ForwardingInvariant
import GEDS.Library.NestedCalls

namespace GEDS

universe u

namespace Forwarding

variable {α : Type u}

namespace Nodes

variable {s s' : Nodes α} {gone gone' : Gone α} {node : α} {record : Record α}

/-- What a step of a node does to its own part of a read. -/
structure Goes (gone : Gone α) (s : Nodes α) (node : α) (phase : Phase α) (gone' : Gone α)
    (result : Nodes α × Phase α × Option α) : Prop where
  sound : result.1.Sound gone'
  passes : Passes gone gone' s result.1
  frame : result.1.SoundFrame gone' ⟨node, result.2.1⟩
  asks : ∀ asks record, s.Fits gone record → s.Asks gone ⟨node, phase⟩ asks record →
    result.1.Asks gone' ⟨node, result.2.1⟩ asks record
  host : ∀ host, result.2.2 = some host →
    ∃ record, result.2.1.request = some record ∧ record.location = .node host

section Steps

variable {phase phase' : Phase α}

/-- The node goes on with the same handle, or without one. -/
theorem Goes.of_handle (hsound : s'.Sound gone) (hkept : Kept gone s s')
    (hframe : s.SoundFrame gone ⟨node, phase⟩)
    (hhandle : ∀ id, phase'.handle = some id → phase.handle = some id)
    (hfound : ∀ record, phase'.found = some record →
      s.Fits gone record ∧ gone node < record.version)
    (hrequest : phase'.request = none) : Goes gone s node phase gone (s', phase', none) where
  sound := hsound
  passes := hkept.passes
  frame := ⟨fun record hsome => (hfound record hsome).imp_left hkept.fits,
    fun record hsome => absurd (hsome.symm.trans hrequest) (Option.some_ne_none record),
    fun id hid => (hkept.soundFrame hframe).handle id (hhandle id hid)⟩
  asks asks record _ hasks := by
    have hasks' := hkept.asks hframe hasks
    exact ⟨hasks'.request, hasks'.location, fun id file inner hid =>
      hasks'.handle id file inner (hhandle id hid), fun next hnext =>
        absurd (hnext.symm.trans hrequest) (Option.some_ne_none next)⟩
  host host hsome := by cases hsome

/-- The node has ended its part, or begins anew. -/
theorem Goes.of_none (hsound : s'.Sound gone') (hpasses : Passes gone gone' s s')
    (hhandle : phase'.handle = none) (hfound : phase'.found = none)
    (hrequest : phase'.request = none) : Goes gone s node phase gone' (s', phase', none) where
  sound := hsound
  passes := hpasses
  frame := ⟨fun record hsome => absurd (hsome.symm.trans hfound) (Option.some_ne_none record),
    fun record hsome => absurd (hsome.symm.trans hrequest) (Option.some_ne_none record),
    fun id hid => absurd (hid.symm.trans hhandle) (Option.some_ne_none id)⟩
  asks asks record _ hasks := ⟨hasks.request, hasks.location,
    fun id _ _ hid => absurd (hid.symm.trans hhandle) (Option.some_ne_none id),
    fun next hnext => absurd (hnext.symm.trans hrequest) (Option.some_ne_none next)⟩
  host host hsome := by cases hsome

/-- The handle that is registered is opened. -/
theorem Goes.of_registered (hsound : s'.Sound gone) (hkept : Kept gone s s') {retry : Bool}
    {id : Nat} (hid : s'.registry node = some id) :
    Goes gone s node phase gone (s', .opened retry id, none) where
  sound := hsound
  passes := hkept.passes
  frame := by
    obtain ⟨file, hget, hnode, -⟩ := hsound.registered node id hid
    refine ⟨fun _ hsome => (by cases hsome), fun _ hsome => (by cases hsome), fun id' hid' => ?_⟩
    cases hid'
    exact ⟨file, hget, hnode⟩
  asks asks record hfits hasks := by
    refine ⟨hasks.request, hasks.location, fun id' file' inner hid' hget' hinner => ?_,
      fun next hnext => (by cases hnext)⟩
    cases hid'
    obtain ⟨file, hget, hnode, hnewer⟩ := hsound.registered node id hid
    obtain rfl : file = file' := Option.some.inj (hget.symm.trans hget')
    have hlater := hnewer inner hinner
    rcases (hkept.fits hfits).file node hasks.location with hgone | hfile'
    · exact ⟨hgone, hgone.trans_lt hlater⟩
    · obtain ⟨other, value, hother, hvalue, hnone⟩ := hfile'
      obtain rfl : id = other := Option.some.inj (hid.symm.trans hother)
      obtain rfl : file = value := Option.some.inj (hget.symm.trans hvalue)
      rw [hnone] at hinner
      cases hinner
  host host hsome := by cases hsome

/-- A file is read, or another node is asked for it. -/
theorem readBytes_goes (hsound : s.Sound gone) {again : Bool} {id : Nat}
    (hframe : s.SoundFrame gone ⟨node, .reading again id⟩) (position length : Nat) (ok : Bool) :
    Goes gone s node (.reading again id) gone (s.readBytes position length ok again id) := by
  have hends : ∀ answer, Goes gone s node (.reading again id) gone
      (s, .finished answer, none) := fun answer =>
    Goes.of_none hsound (Kept.refl gone s).passes rfl rfl rfl
  obtain ⟨file, hget, hnode⟩ := hframe.handle id rfl
  obtain ⟨host, isValid, kind⟩ := file
  obtain rfl : host = node := hnode
  cases kind with
  | localFile content =>
      simp only [readBytes, hget]
      exact hends _
  | s3 =>
      simp only [readBytes, hget]
      split_ifs
      · exact hends _
      · have hset := hsound.setHandle ⟨host, false, .s3⟩ hget rfl
          fun inner hinner => by cases hinner
        exact Goes.of_none hset.1 hset.2.passes rfl rfl rfl
  | relocatable inner reopened =>
      obtain ⟨location, version⟩ := inner
      cases location with
      | store =>
          simp only [readBytes, hget]
          split_ifs
          · exact hends _
          · exact hends _
          · exact Goes.of_handle hsound (Kept.refl gone s) hframe (fun _ hid => hid)
              (fun _ hsome => by cases hsome) rfl
      | node target =>
          simp only [readBytes, hget]
          split_ifs
          · exact hends _
          -- The node that is asked is that of the record behind the handle.
          · refine ⟨hsound, (Kept.refl gone s).passes, ⟨fun _ hsome => (by cases hsome),
              fun record hsome => ?_, fun id' hid' => hframe.handle id' hid'⟩,
              fun asks record _ hasks => ⟨hasks.request, hasks.location, hasks.handle,
                fun next hnext => ?_⟩, fun host' hhost => ⟨⟨.node target, version⟩, rfl, ?_⟩⟩
            · cases hsome
              exact hsound.handles id _ _ hget rfl
            · cases hnext
              exact (hasks.handle id _ _ rfl hget rfl).2
            · cases hhost
              rfl

theorem reopen_goes [DecidableEq α] (hsound : s.Sound gone) {id : Nat} {invalidate : Bool}
    (hframe : s.SoundFrame gone ⟨node, .located (.reopen id) invalidate record⟩) :
    Goes gone s node (.located (.reopen id) invalidate record) gone
      (s.reopen id record, .reading true id, none) := by
  obtain ⟨file, hget, hnode⟩ := hframe.handle id rfl
  obtain ⟨hfits, hnewer⟩ := hframe.found record rfl
  have hreopen : (s.reopen id record).Sound gone ∧ Kept gone s (s.reopen id record) := by
    obtain ⟨host, isValid, kind⟩ := file
    cases kind with
    | localFile content =>
        simp only [reopen, hget]
        exact ⟨hsound, Kept.refl gone s⟩
    | s3 =>
        simp only [reopen, hget]
        exact ⟨hsound, Kept.refl gone s⟩
    | relocatable inner reopened =>
        simp only [reopen, hget]
        refine hsound.setHandle _ hget rfl fun inner' hinner => ⟨inner, rfl, Or.inr ?_⟩
        cases hinner
        exact ⟨hfits, hnode ▸ hnewer⟩
  exact Goes.of_handle hreopen.1 hreopen.2 hframe (fun _ hid => hid)
    (fun _ hsome => by cases hsome) rfl

theorem insertWrapped_goes [DecidableEq α] (hsound : s.Sound gone) {retry invalidate : Bool}
    (hframe : s.SoundFrame gone ⟨node, .located (.open retry) invalidate record⟩) :
    Goes gone s node (.located (.open retry) invalidate record) gone
      ((s.insertWrapped node record).1, .opened retry (s.insertWrapped node record).2, none) := by
  obtain ⟨hfits, hnewer⟩ := hframe.found record rfl
  cases hid : s.registry node with
  | some id =>
      simp only [insertWrapped, hid]
      exact Goes.of_registered hsound (Kept.refl gone s) hid
  | none =>
      simp only [insertWrapped, hid]
      have hregister := hsound.register node (.relocatable record 0) fun inner hinner => by
        cases hinner
        exact ⟨hid, hfits, hnewer⟩
      exact Goes.of_registered hregister.1 hregister.2 (Function.update_self ..)

theorem openFile_goes [DecidableEq α] (hsound : s.Sound gone) {retry : Bool}
    (position length : Nat) (ok : Bool) :
    Goes gone s node (.openFile retry) gone
      (s.stepPhase node position length ok (.openFile retry)) := by
  have hsame := Kept.refl gone s
  cases ok with
  | false => exact Goes.of_none hsound hsame.passes rfl rfl rfl
  | true =>
      cases hid : s.registry node with
      | none =>
          simp only [stepPhase, hid, if_true]
          exact Goes.of_none hsound hsame.passes rfl rfl rfl
      | some id =>
          simp only [stepPhase, hid, if_true]
          exact Goes.of_registered hsound hsame hid

/-- A record that was found is newer than what the node has, in the cache or not. -/
theorem lookup_goes [DecidableEq α] (hsound : s.Sound gone) {use : LookupUse} {invalidate : Bool}
    (hframe : s.SoundFrame gone ⟨node, .lookup use invalidate⟩) (position length : Nat)
    (ok : Bool) :
    Goes gone s node (.lookup use invalidate) gone
      (s.stepPhase node position length ok (.lookup use invalidate)) := by
  have hsame := Kept.refl gone s
  cases hcached : (if invalidate then none else s.cache node) with
  | some record =>
      simp only [stepPhase, hcached]
      refine Goes.of_handle hsound hsame hframe (fun id hid => ?_) (fun record' hsome => ?_) rfl
      · cases use <;> exact hid
      · cases hsome
        split_ifs at hcached
        exact hsound.cache node record hcached
  | none =>
      cases hanswer : (if ok then s.record else none) with
      | some record =>
          simp only [stepPhase, hcached, hanswer]
          refine Goes.of_handle hsound hsame hframe (fun id hid => ?_)
            (fun record' hsome => ?_) rfl
          · cases use <;> exact hid
          · cases hsome
            split_ifs at hanswer
            exact (hsound.record record hanswer).imp_right fun hgone => hgone node
      | none =>
          simp only [stepPhase, hcached, hanswer]
          exact Goes.of_none hsound hsame.passes rfl rfl rfl

theorem answered_goes [DecidableEq α] (hsound : s.Sound gone) {use : LookupUse} {invalidate : Bool}
    (hframe : s.SoundFrame gone ⟨node, .answered use invalidate record⟩) (position length : Nat)
    (ok : Bool) :
    Goes gone s node (.answered use invalidate record) gone
      (s.stepPhase node position length ok (.answered use invalidate record)) := by
  have hfound := hframe.found record rfl
  have hset := hsound.setCache node (some record) fun record' hsome => by
    cases hsome
    exact hfound
  refine Goes.of_handle hset.1 hset.2 hframe (fun id hid => ?_) (fun record' hsome => ?_) rfl
  · cases use <;> exact hid
  · cases hsome
    exact hfound

theorem located_goes [DecidableEq α] (hsound : s.Sound gone) {use : LookupUse} {invalidate : Bool}
    (hframe : s.SoundFrame gone ⟨node, .located use invalidate record⟩) (position length : Nat)
    (ok : Bool) :
    Goes gone s node (.located use invalidate record) gone
      (s.stepPhase node position length ok (.located use invalidate record)) := by
  have hsame := Kept.refl gone s
  simp only [stepPhase]
  split_ifs
  · cases use with
    | «open» retry => exact insertWrapped_goes hsound hframe
    | reopen id => exact reopen_goes hsound hframe
  · exact Goes.of_none hsound hsame.passes rfl rfl rfl
  · refine Goes.of_handle hsound hsame hframe (fun id hid => ?_)
      (fun _ hsome => by cases hsome) rfl
    cases use <;> exact hid

/-- An invalid handle that is opened goes from the registry, if it is still there. -/
theorem opened_goes [DecidableEq α] (hsound : s.Sound gone) {retry : Bool} {id : Nat}
    (hframe : s.SoundFrame gone ⟨node, .opened retry id⟩) (position length : Nat) (ok : Bool)
    (horderly : ∀ file, s.registry node = some id → s.handles.get id = some file →
      file.isValid = false → s.HasFile node → s.Outdated node) :
    ∃ gone', Goes gone s node (.opened retry id) gone'
      (s.stepPhase node position length ok (.opened retry id)) := by
  have hsame := Kept.refl gone s
  obtain ⟨file, hget, -⟩ := hframe.handle id rfl
  obtain ⟨host, isValid, kind⟩ := file
  cases isValid with
  | true =>
      simp only [stepPhase, hget]
      exact ⟨gone, Goes.of_handle hsound hsame hframe (fun _ hid => hid)
        (fun _ hsome => by cases hsome) rfl⟩
  | false =>
      obtain ⟨gone', hremoved, hpasses⟩ : ∃ gone' : Gone α,
          (s.removeIf node id).Sound gone' ∧ Passes gone gone' s (s.removeIf node id) := by
        rw [removeIf]
        split_ifs with hid
        · exact hsound.remove (horderly _ hid hget rfl)
        · exact ⟨gone, hsound, hsame.passes⟩
      refine ⟨gone', ?_⟩
      simp only [stepPhase, hget]
      cases retry with
      | true => exact Goes.of_none hremoved hpasses rfl rfl rfl
      | false => exact Goes.of_none hremoved hpasses rfl rfl rfl

theorem retrying_goes [DecidableEq α] (hsound : s.Sound gone) {id reopened : Nat}
    (hframe : s.SoundFrame gone ⟨node, .retrying id reopened⟩) (position length : Nat)
    (ok : Bool) :
    Goes gone s node (.retrying id reopened) gone
      (s.stepPhase node position length ok (.retrying id reopened)) := by
  have hsame := Kept.refl gone s
  obtain ⟨file, hget, -⟩ := hframe.handle id rfl
  obtain ⟨host, isValid, kind⟩ := file
  cases kind with
  | localFile content =>
      simp only [stepPhase, hget]
      exact Goes.of_none hsound hsame.passes rfl rfl rfl
  | s3 =>
      simp only [stepPhase, hget]
      exact Goes.of_none hsound hsame.passes rfl rfl rfl
  | relocatable inner now =>
      simp only [stepPhase, hget]
      split_ifs
      · exact Goes.of_handle hsound hsame hframe (fun _ hid => hid)
          (fun _ hsome => by cases hsome) rfl
      · exact Goes.of_handle hsound hsame hframe (fun _ hid => hid)
          (fun _ hsome => by cases hsome) rfl

theorem stepPhase_goes [DecidableEq α] (hsound : s.Sound gone)
    (hframe : s.SoundFrame gone ⟨node, phase⟩) (position length : Nat) (ok : Bool)
    (horderly : ∀ retry id file, phase = .opened retry id → s.registry node = some id →
      s.handles.get id = some file → file.isValid = false → s.HasFile node → s.Outdated node) :
    ∃ gone', Goes gone s node phase gone' (s.stepPhase node position length ok phase) := by
  cases phase with
  | openFile retry => exact ⟨gone, openFile_goes hsound position length ok⟩
  | lookup use invalidate => exact ⟨gone, lookup_goes hsound hframe position length ok⟩
  | answered use invalidate record => exact ⟨gone, answered_goes hsound hframe position length ok⟩
  | located use invalidate record => exact ⟨gone, located_goes hsound hframe position length ok⟩
  | opened retry id =>
      exact opened_goes hsound hframe position length ok fun file => horderly retry id file rfl
  | reading again id => exact ⟨gone, readBytes_goes hsound hframe position length ok⟩
  | waiting again id record reopened =>
      exact ⟨gone, hsound, (Kept.refl gone s).passes, hframe, fun _ _ _ hasks => hasks,
        fun _ hsome => by cases hsome⟩
  | retrying id reopened => exact ⟨gone, retrying_goes hsound hframe position length ok⟩
  | finished answer =>
      exact ⟨gone, Goes.of_none hsound (Kept.refl gone s).passes rfl rfl rfl⟩

end Steps

section Stacks

variable {phase phase' : Phase α} {rest : List (Frame α)}

theorem Stacked.tail {frame : Frame α} (hframes : s.Stacked gone (frame :: rest)) :
    s.Stacked gone rest :=
  ⟨fun other hother => hframes.sound other (List.mem_cons_of_mem frame hother),
    hframes.asks.tail⟩

/-- The node that was asked last has made a step. -/
theorem Goes.stacked (host : Option α)
    (hgoes : Goes gone s node phase gone' (s', phase', host))
    (hframes : s.Stacked gone (⟨node, phase⟩ :: rest))
    (hkeeps : ∀ frame ∈ rest, ∀ record, frame.phase.found = some record →
      s.Keeps frame.node record) : s'.Stacked gone' (⟨node, phase'⟩ :: rest) := by
  have hrest := hgoes.passes rest hframes.tail hkeeps
  refine ⟨List.forall_mem_cons.2 ⟨hgoes.frame, hrest.sound⟩, ?_⟩
  cases rest with
  | nil => exact List.IsChain.singleton _
  | cons asks rest =>
      obtain ⟨⟨record, hasks⟩, -⟩ := List.isChain_cons_cons.1 hframes.asks
      have hfits : s.Fits gone record :=
        (hframes.sound asks (List.mem_cons_of_mem _ List.mem_cons_self)).request record
          hasks.request
      exact List.isChain_cons_cons.2 ⟨⟨record, hgoes.asks asks record hfits hasks⟩, hrest.asks⟩

/-- Another node is asked. -/
theorem Stacked.ask (hframes : s.Stacked gone (⟨node, phase⟩ :: rest)) {host : α}
    (hrequest : phase.request = some record) (hlocation : record.location = .node host) :
    s.Stacked gone (⟨host, .openFile true⟩ :: ⟨node, phase⟩ :: rest) := by
  refine ⟨List.forall_mem_cons.2 ⟨⟨fun _ hsome => (by cases hsome), fun _ hsome =>
    (by cases hsome), fun _ hsome => (by cases hsome)⟩, hframes.sound⟩,
    List.isChain_cons_cons.2 ⟨⟨record, hrequest, hlocation, fun _ _ _ hsome => ?_,
      fun _ hsome => ?_⟩, hframes.asks⟩⟩
  · cases hsome
  · cases hsome

/-- The node that was asked last has answered. -/
theorem Stacked.answer (hsound : s.Sound gone) {top below : Frame α}
    (hframes : s.Stacked gone (top :: below :: rest)) (answer : Option Bytes)
    (hkeeps : ∀ frame ∈ rest, ∀ record, frame.phase.found = some record →
      s.Keeps frame.node record) :
    s.Stacked gone (⟨below.node, afterAnswer answer below.phase⟩ :: rest) := by
  obtain ⟨⟨record, hasks⟩, -⟩ := List.isChain_cons_cons.1 hframes.asks
  have hbelow := hframes.tail.sound below List.mem_cons_self
  obtain ⟨host, phase⟩ := below
  refine Goes.stacked none (Goes.of_handle hsound (Kept.refl gone s) hbelow ?_ ?_ ?_)
    hframes.tail hkeeps
  all_goals
    cases phase with
    | waiting again id record reopened =>
        simp only [afterAnswer]
        split_ifs <;> simp [Phase.handle, Phase.found, Phase.request]
    | _ => cases hasks.request

end Stacks

theorem Invariant.of_passes (hinv : s.Invariant gone) (hsound : s'.Sound gone')
    (hpasses : Passes gone gone' s s') (hreads : s'.reads = s.reads) : s'.Invariant gone' := by
  refine ⟨hsound, fun read position length frames hread => ?_⟩
  rw [hreads] at hread
  exact hpasses frames (hinv.stacked read position length frames hread)
    fun frame hframe record hfound => Or.inr (Or.inr ⟨read, position, length, frames, hread,
      frame, hframe, rfl, hfound⟩)

theorem Invariant.setRead (hinv : s.Invariant gone) (read : Nat) {value : Read α}
    (hvalue : ∀ position length frames, value = .running position length frames →
      s.Stacked gone frames) : (s.setRead read value).Invariant gone := by
  have hkept : Kept gone s (s.setRead read value) :=
    Kept.of_same (fun _ => le_rfl) le_rfl rfl rfl
  refine ⟨hinv.sound.of_kept hkept hinv.sound.recorded_le (fun _ => Or.inl) (fun _ _ => Or.inl)
    (fun _ _ => Or.inl) (fun _ _ => Or.inl) (fun id file _ hget hinner =>
      Or.inl ⟨file, hget, hinner⟩) hinv.sound.unused, fun other position length frames hread => ?_⟩
  simp only [Nodes.setRead, Function.update_apply] at hread
  split_ifs at hread
  · exact hkept.stacked (hvalue position length frames hread)
  · exact hkept.stacked (hinv.stacked other position length frames hread)

section Runs

variable [DecidableEq α]

@[simp] theorem reads_setRegistry (value : Option Nat) :
    (s.setRegistry node value).reads = s.reads := rfl

omit [DecidableEq α] in
@[simp] theorem reads_reopen (id : Nat) : (s.reopen id record).reads = s.reads := by
  rw [reopen]
  split <;> rfl

@[simp] theorem reads_insertWrapped : (s.insertWrapped node record).1.reads = s.reads := by
  rw [insertWrapped]
  split <;> rfl

@[simp] theorem reads_removeIf (id : Nat) : (s.removeIf node id).reads = s.reads := by
  rw [removeIf]
  split <;> rfl

omit [DecidableEq α] in
@[simp] theorem reads_readBytes (position length : Nat) (ok again : Bool) (id : Nat) :
    (s.readBytes position length ok again id).1.reads = s.reads := by
  rw [readBytes]
  split <;> (try split_ifs) <;> rfl

theorem reads_stepPhase (position length : Nat) (ok : Bool) (phase : Phase α) :
    (s.stepPhase node position length ok phase).1.reads = s.reads := by
  cases phase with
  | reading again id => exact reads_readBytes ..
  | located use invalidate record =>
      simp only [stepPhase]
      split_ifs
      · cases use <;> simp
      · rfl
      · rfl
  | _ =>
      simp only [stepPhase, setCache]
      repeat' split
      all_goals simp

theorem Invariant.stepRead (hinv : s.Invariant gone) (read : Nat) (ok : Bool)
    (horderly : s.Orderly (.step read ok)) : ∃ gone', (s.stepRead read ok).Invariant gone' := by
  have hkeeps : ∀ {position length frames}, s.reads read = .running position length frames →
      ∀ frame ∈ frames, ∀ record, frame.phase.found = some record →
        s.Keeps frame.node record := fun hread frame hframe record hfound =>
    Or.inr (Or.inr ⟨read, _, _, _, hread, frame, hframe, rfl, hfound⟩)
  rw [Nodes.stepRead]
  split
  · exact ⟨gone, hinv.setRead read fun _ _ _ hsome => by cases hsome⟩
  · rename_i hread
    refine ⟨gone, hinv.setRead read fun _ _ _ hsome => ?_⟩
    cases hsome
    exact (hinv.stacked read _ _ _ hread).answer hinv.sound _ fun frame hframe =>
      hkeeps hread frame (List.mem_cons_of_mem _ (List.mem_cons_of_mem _ hframe))
  · rename_i position length node phase rest _ _ hread
    have hframes := hinv.stacked read _ _ _ hread
    obtain ⟨gone', hgoes⟩ := stepPhase_goes hinv.sound (hframes.sound _ List.mem_cons_self)
      position length ok fun retry id file hphase hid hget hvalid =>
        horderly position length node retry id file rest (by rw [hread, hphase]) hid hget hvalid
    have hafter := hinv.of_passes hgoes.sound hgoes.passes (reads_stepPhase ..)
    have hstack := hgoes.stacked _ hframes fun frame hframe =>
      hkeeps hread frame (List.mem_cons_of_mem _ hframe)
    refine ⟨gone', hafter.setRead read fun _ _ _ hsome => ?_⟩
    cases hsome
    split
    · rename_i host hhost
      obtain ⟨record, hrequest, hlocation⟩ := hgoes.host host hhost
      exact hstack.ask hrequest hlocation
    · exact hstack
  · exact ⟨gone, hinv⟩

omit [DecidableEq α] in
theorem Invariant.of_kept (hinv : s.Invariant gone) (h : s'.Sound gone ∧ Kept gone s s')
    (hreads : s'.reads = s.reads) : ∃ gone', s'.Invariant gone' :=
  ⟨gone, hinv.of_passes h.1 h.2.passes hreads⟩

omit [DecidableEq α] in
/-- What is done to the copy in the object store is nobody's concern. -/
theorem Sound.setStored (hsound : s.Sound gone) (value : Option Bytes) :
    { s with stored := value }.Sound gone ∧ Kept gone s { s with stored := value } := by
  have hkept : Kept gone s { s with stored := value } :=
    Kept.of_same (fun _ => le_rfl) le_rfl rfl rfl
  exact ⟨hsound.of_kept hkept hsound.recorded_le (fun _ => Or.inl) (fun _ _ => Or.inl)
    (fun _ _ => Or.inl) (fun _ _ => Or.inl) (fun id file _ hget hinner =>
      Or.inl ⟨file, hget, hinner⟩) hsound.unused, hkept⟩

theorem Sound.relocate (hsound : s.Sound gone) (id : Nat) (outcome : RelocationEnd)
    (horderly : s.Orderly (.relocate id outcome)) :
    (s.relocate id outcome).Sound gone ∧ Kept gone s (s.relocate id outcome) := by
  have hsame : s.Sound gone ∧ Kept gone s s := ⟨hsound, Kept.refl gone s⟩
  have hstore : ∀ node, (s.sealAt node .store false true).Sound gone ∧
      Kept gone s (s.sealAt node .store false true) := fun node =>
    hsound.sealAt .store false true fun _ hlocation => by cases hlocation
  rw [Nodes.relocate]
  split
  · rename_i node content hget
    split_ifs with hnone
    · exact hsame
    · cases outcome with
      | uploaded => exact hsound.setStored _
      | refused => exact hsound.setStored _
      | misleading =>
          have hset := (hstore node).1.setStored none
          exact ⟨hset.1, (hstore node).2.trans hset.2⟩
      | moved =>
          have hinvalid := (hstore node).1.setHandle ⟨node, false, .localFile content⟩
            hget rfl fun _ hinner => by cases hinner
          have hset := hinvalid.1.setStored (some content)
          have hregister := hset.1.register node .s3 fun _ hinner => by cases hinner
          exact ⟨hregister.1,
            (((hstore node).2.trans hinvalid.2).trans hset.2).trans hregister.2⟩
  · rename_i node isValid inner reopened hget
    split_ifs with hnone
    · exact hsame
    · have hregistered : s.registry node = some id :=
        (horderly node isValid inner reopened hget).resolve_left fun hsome => hnone (by
          simp [hsome])
      rw [setRegistry, ← hregistered, Function.update_eq_self]
      exact hsame
  · exact hsame

theorem Sound.sealHandle (hsound : s.Sound gone) (id : Nat) (update effect : Bool)
    (horderly : s.Orderly (.seal id update effect)) :
    (s.sealHandle id update effect).Sound gone ∧
      Kept gone s (s.sealHandle id update effect) := by
  rw [Nodes.sealHandle]
  split
  · rename_i node isValid kind hget
    split
    · rename_i location hlocation
      refine hsound.sealAt location update effect fun host hhost => ?_
      cases kind with
      | localFile content =>
          simp only [sealLocation, Option.some.injEq] at hlocation
          rw [← hlocation, Location.node.injEq] at hhost
          exact ⟨hhost.symm, hhost ▸ horderly node isValid content hget⟩
      | s3 =>
          simp only [sealLocation, Option.some.injEq] at hlocation
          rw [← hlocation] at hhost
          cases hhost
      | relocatable inner reopened =>
          obtain ⟨place, version⟩ := inner
          cases place with
          | store =>
              simp only [sealLocation, Option.some.injEq] at hlocation
              rw [← hlocation] at hhost
              cases hhost
          | node other => cases hlocation
    · exact ⟨hsound, Kept.refl gone s⟩
  · exact ⟨hsound, Kept.refl gone s⟩

omit [DecidableEq α] in
theorem Sound.write (hsound : s.Sound gone) (id : Nat) (content : Bytes) :
    (s.write id content).Sound gone ∧ Kept gone s (s.write id content) := by
  rw [Nodes.write]
  split
  · rename_i hget
    exact hsound.setHandle _ hget rfl fun _ hinner => by cases hinner
  · exact ⟨hsound, Kept.refl gone s⟩

omit [DecidableEq α] in
theorem Sound.ask (hsound : s.Sound gone) (node : α) :
    (s.ask node).Sound gone ∧ Kept gone s (s.ask node) := by
  have hkept : ∀ asked, Kept gone s { s with asked := asked } := fun _ =>
    Kept.of_same (fun _ => le_rfl) le_rfl rfl rfl
  rw [Nodes.ask]
  split
  · rename_i record hrecord
    refine ⟨hsound.of_kept (hkept _) hsound.recorded_le (fun _ => Or.inl) (fun _ _ => Or.inl)
      (fun host other hmem => ?_) (fun _ _ => Or.inl) (fun id file _ hget hinner =>
        Or.inl ⟨file, hget, hinner⟩) hsound.unused, hkept _⟩
    rcases List.mem_cons.1 hmem with hnew | hold
    · cases hnew
      obtain ⟨hfits, hgone⟩ := hsound.record record hrecord
      exact Or.inr ⟨(hkept _).fits hfits, hgone node⟩
    · exact Or.inl hold
  · exact ⟨hsound, Kept.refl gone s⟩

theorem Sound.remember (hsound : s.Sound gone) (index : Nat) :
    (s.remember index).Sound gone ∧ Kept gone s (s.remember index) := by
  rw [Nodes.remember]
  split
  · rename_i node record hindex
    obtain ⟨hset, hkept⟩ := hsound.setCache node (some record) fun _ hsome => by
      cases hsome
      exact hsound.asked node record (List.mem_of_getElem? hindex)
    have hasked : Kept gone (s.setCache node (some record))
        { s.setCache node (some record) with asked := s.asked.eraseIdx index } :=
      Kept.of_same (fun _ => le_rfl) le_rfl rfl rfl
    exact ⟨hset.of_kept hasked hset.recorded_le (fun _ => Or.inl) (fun _ _ => Or.inl)
      (fun _ _ hmem => Or.inl (List.mem_of_mem_eraseIdx hmem)) (fun _ _ => Or.inl)
      (fun id file _ hget hinner => Or.inl ⟨file, hget, hinner⟩) hset.unused,
      hkept.trans hasked⟩
  · exact ⟨hsound, Kept.refl gone s⟩

omit [DecidableEq α] in
theorem Sound.deleteRecord (hsound : s.Sound gone) :
    { s with record := none }.Sound gone ∧ Kept gone s { s with record := none } := by
  have hkept : Kept gone s { s with record := none } :=
    Kept.of_same (fun _ => le_rfl) le_rfl rfl rfl
  exact ⟨hsound.of_kept hkept hsound.recorded_le (fun _ hsome => by cases hsome)
    (fun _ _ => Or.inl) (fun _ _ => Or.inl) (fun _ _ => Or.inl) (fun id file _ hget hinner =>
      Or.inl ⟨file, hget, hinner⟩) hsound.unused, hkept⟩

theorem Sound.create (hsound : s.Sound gone) (node : α) (overwrite : Bool) :
    (s.create node overwrite).Sound gone ∧ Kept gone s (s.create node overwrite) := by
  rw [Nodes.create]
  split_ifs
  · exact ⟨hsound, Kept.refl gone s⟩
  · exact hsound.register node (.localFile []) fun _ hinner => by cases hinner

omit [DecidableEq α] in
theorem Invariant.start : (Nodes.start : Nodes α).Invariant fun _ => 0 := by
  refine ⟨⟨fun _ => le_rfl, fun _ => le_rfl, fun _ hsome => (by cases hsome), fun _ _ hsome =>
    (by cases hsome), fun _ _ hmem => absurd hmem List.not_mem_nil, fun _ _ hsome =>
    (by cases hsome), fun _ _ _ hsome => (by cases hsome), fun _ _ => rfl⟩, fun _ _ _ _ hread => ?_⟩
  cases hread

omit [DecidableEq α] in
theorem Stacked.take {frames : List (Frame α)} (hframes : s.Stacked gone frames) (count : Nat) :
    s.Stacked gone (frames.take count) :=
  ⟨fun frame hframe => hframes.sound frame (List.mem_of_mem_take hframe), hframes.asks.take count⟩

omit [DecidableEq α] in
/-- A read that has just begun -/
theorem Stacked.single {phase : Phase α} (hfound : phase.found = none)
    (hrequest : phase.request = none)
    (hhandle : ∀ id, phase.handle = some id →
      ∃ file, s.handles.get id = some file ∧ file.node = node) :
    s.Stacked gone [⟨node, phase⟩] := by
  refine ⟨fun frame hframe => ?_, List.IsChain.singleton _⟩
  rw [List.mem_singleton.1 hframe]
  exact ⟨fun record hsome => absurd (hsome.symm.trans hfound) (Option.some_ne_none record),
    fun record hsome => absurd (hsome.symm.trans hrequest) (Option.some_ne_none record), hhandle⟩

theorem reads_create (node : α) (overwrite : Bool) :
    (s.create node overwrite).reads = s.reads := by
  rw [Nodes.create]
  split_ifs <;> rfl

omit [DecidableEq α] in
theorem reads_write (id : Nat) (content : Bytes) : (s.write id content).reads = s.reads := by
  rw [Nodes.write]
  split <;> rfl

omit [DecidableEq α] in
theorem reads_ask (node : α) : (s.ask node).reads = s.reads := by
  rw [Nodes.ask]
  split <;> rfl

theorem reads_remember (index : Nat) : (s.remember index).reads = s.reads := by
  rw [Nodes.remember]
  split <;> rfl

theorem reads_relocate (id : Nat) (outcome : RelocationEnd) :
    (s.relocate id outcome).reads = s.reads := by
  rw [Nodes.relocate]
  split
  · split_ifs
    · rfl
    · cases outcome <;> rfl
  · split_ifs <;> rfl
  · rfl

theorem reads_sealHandle (id : Nat) (update effect : Bool) :
    (s.sealHandle id update effect).reads = s.reads := by
  rw [Nodes.sealHandle]
  split
  · split <;> rfl
  · rfl

/-- What one orderly step preserves -/
theorem Invariant.perform (hinv : s.Invariant gone) {event : Event α}
    (horderly : s.Orderly event) : ∃ gone', (s.perform event).Invariant gone' := by
  cases event with
  | create node overwrite =>
      exact hinv.of_kept (hinv.sound.create node overwrite) (reads_create node overwrite)
  | write id content =>
      exact hinv.of_kept (hinv.sound.write id content) (reads_write id content)
  | «seal» id update effect =>
      exact hinv.of_kept (hinv.sound.sealHandle id update effect horderly)
        (reads_sealHandle id update effect)
  | relocate id outcome =>
      exact hinv.of_kept (hinv.sound.relocate id outcome horderly) (reads_relocate id outcome)
  | forgetObject node =>
      exact hinv.of_kept (hinv.sound.setCache node none fun _ hsome => by cases hsome) rfl
  | deleteRecord => exact hinv.of_kept hinv.sound.deleteRecord rfl
  | deleteStored => exact hinv.of_kept (hinv.sound.setStored none) rfl
  | removeHandle node =>
      obtain ⟨gone', hsound, hpasses⟩ := hinv.sound.remove horderly
      exact ⟨gone', hinv.of_passes hsound hpasses rfl⟩
  | ask node =>
      exact hinv.of_kept (hinv.sound.ask node) (reads_ask node)
  | remember index =>
      exact hinv.of_kept (hinv.sound.remember index) (reads_remember index)
  | startRead read id position length =>
      simp only [Nodes.perform, Nodes.startRead]
      split
      · rename_i node isValid kind hget
        refine ⟨gone, hinv.setRead read fun _ _ _ hsome => ?_⟩
        cases hsome
        refine Stacked.single rfl rfl fun id' hid => ?_
        cases hid
        exact ⟨_, hget, rfl⟩
      · exact ⟨gone, hinv⟩
  | startOpen read node position length =>
      refine ⟨gone, hinv.setRead read fun _ _ _ hsome => ?_⟩
      cases hsome
      exact Stacked.single rfl rfl fun _ hid => by cases hid
  | step read ok => exact hinv.stepRead read ok horderly
  | lose read more =>
      simp only [Nodes.perform]
      split
      · rename_i position length frames hread
        refine ⟨gone, hinv.setRead read fun _ _ _ hsome => ?_⟩
        cases hsome
        exact (hinv.stacked read position length frames hread).take (more + 1)
      · exact ⟨gone, hinv⟩

theorem Invariant.run (hinv : s.Invariant gone) {events : List (Event α)}
    (horderly : s.OrderlyRun events) : ∃ gone', (s.run events).Invariant gone' := by
  induction events generalizing s gone with
  | nil => exact ⟨gone, hinv⟩
  | cons event events ih =>
      obtain ⟨gone', hnext⟩ := hinv.perform horderly.1
      exact ih hnext horderly.2

end Runs

/-- The version of the record for which the first node was asked; nobody asked the last. -/
def requested : List (Frame α) → Nat
  | [] => 0
  | asks :: _ => (asks.phase.request.map Record.version).getD 0

/-- The versions of the records for which the nodes were asked. -/
def requests : List (Frame α) → List Nat
  | [] => []
  | _ :: rest => requested rest :: requests rest

@[simp] theorem length_requests (frames : List (Frame α)) :
    (requests frames).length = frames.length := by
  induction frames with
  | nil => rfl
  | cons frame rest ih => simp [requests, ih]

theorem requested_cons {asks : Frame α} {rest : List (Frame α)}
    (hrequest : asks.phase.request = some record) : requested (asks :: rest) = record.version := by
  simp [requested, hrequest]

theorem Stacked.requests_rise {frames : List (Frame α)} (hframes : s.Stacked gone frames) :
    (requests frames).IsChain (· > ·) := by
  induction frames with
  | nil => exact List.IsChain.nil
  | cons first rest ih =>
      cases rest with
      | nil => exact List.IsChain.singleton _
      | cons second rest =>
          obtain ⟨⟨record, hasks⟩, -⟩ := List.isChain_cons_cons.1 hframes.asks
          refine List.isChain_cons_cons.2 ⟨?_, ih hframes.tail⟩
          rw [requested_cons hasks.request]
          cases rest with
          | nil =>
              exact ((hframes.tail.sound second List.mem_cons_self).request record
                hasks.request).pos
          | cons third rest =>
              obtain ⟨⟨older, hbefore⟩, -⟩ := List.isChain_cons_cons.1 hframes.tail.asks
              rw [requested_cons hbefore.request]
              exact hbefore.rises record hasks.request

theorem Stacked.requests_le {frames : List (Frame α)} (hframes : s.Stacked gone frames) :
    ∀ version ∈ requests frames, version ≤ s.versions := by
  induction frames with
  | nil => exact fun _ hmem => absurd hmem List.not_mem_nil
  | cons first rest ih =>
      refine List.forall_mem_cons.2 ⟨?_, ih hframes.tail⟩
      cases rest with
      | nil => exact Nat.zero_le _
      | cons second rest =>
          obtain ⟨⟨record, hasks⟩, -⟩ := List.isChain_cons_cons.1 hframes.asks
          rw [requested_cons hasks.request]
          exact ((hframes.tail.sound second List.mem_cons_self).request record
            hasks.request).le_versions

/-- In an orderly run a read is handed on under newer and newer records, and so no more often
than the object was recorded. -/
theorem run_forwards [DecidableEq α] {events : List (Event α)}
    (horderly : (start : Nodes α).OrderlyRun events) {read position length : Nat}
    {frames : List (Frame α)}
    (hread : ((start : Nodes α).run events).reads read = .running position length frames) :
    (requests frames).IsChain (· > ·) ∧
      frames.length ≤ ((start : Nodes α).run events).versions + 1 := by
  obtain ⟨gone, hinv⟩ := Invariant.start.run horderly
  have hframes := hinv.stacked read position length frames hread
  refine ⟨hframes.requests_rise, ?_⟩
  rw [← length_requests]
  exact PendingCall.length_le_of_rising hframes.requests_rise hframes.requests_le

/-- A step is orderly if it opens no handle that has become invalid. -/
theorem orderly_step {read position length : Nat} {ok : Bool} {frame : Frame α}
    {rest : List (Frame α)} (hread : s.reads read = .running position length (frame :: rest))
    (hvalid : ∀ retry id, frame.phase = .opened retry id →
      ∃ file, s.handles.get id = some file ∧ file.isValid = true) :
    s.Orderly (.step read ok) := by
  intro position' length' node retry id file rest' hread' _ hget hinvalid
  rw [hread] at hread'
  cases hread'
  obtain ⟨value, hvalue, hvalid⟩ := hvalid retry id rfl
  obtain rfl : file = value := Option.some.inj (hget.symm.trans hvalue)
  exact absurd (hvalid.symm.trans hinvalid) Bool.true_eq_false.mp

theorem OrderlyRun.append [DecidableEq α] {events later : List (Event α)}
    (hevents : s.OrderlyRun events) (hlater : (s.run events).OrderlyRun later) :
    s.OrderlyRun (events ++ later) := by
  induction events generalizing s with
  | nil => exact hlater
  | cons event events ih => exact ⟨hevents.1, ih hevents.2 hlater⟩

namespace Sample

/-- Node 0 seals a file of three bytes, and node 1 opens it and asks for them. -/
def asking : List (Event Nat) :=
  [.create 0 false, .write 0 (text "abc"), .seal 0 false true, .startOpen 0 1 0 3] ++
    List.replicate 6 (.step 0 true)

theorem asking_orderly : (start : Nodes Nat).OrderlyRun asking := by
  refine ⟨trivial, trivial, fun node _ _ hget => ?_, trivial,
    orderly_step rfl fun _ _ h => (by cases h), orderly_step rfl fun _ _ h => (by cases h),
    orderly_step rfl fun _ _ h => (by cases h), orderly_step rfl fun _ _ h => (by cases h),
    orderly_step rfl fun _ _ h => ?_, orderly_step rfl fun _ _ h => (by cases h), trivial⟩
  · cases hget
    exact ⟨0, _, rfl, rfl, rfl⟩
  · cases h
    exact ⟨_, rfl, rfl⟩

theorem asking_forwards :
    (requests [⟨0, .openFile true⟩, ⟨1, .waiting false 1 ⟨.node 0, 1⟩ 0⟩]).IsChain (· > ·) ∧
      [(⟨0, .openFile true⟩ : Frame Nat), ⟨1, .waiting false 1 ⟨.node 0, 1⟩ 0⟩].length ≤
        ((start : Nodes Nat).run asking).versions + 1 :=
  @run_forwards Nat _ asking asking_orderly 0 0 3 _ rfl

end Sample

end Nodes

end Forwarding

end GEDS
