/-
Stores behind queues.  The handler of a request reads the store and sends
operations; an operation waits in the queue of its channel until a listener
applies it, and the listener picks among the channels as it likes.  When
operations that wait in different channels commute, nothing depends on how it
picks; when they moreover do not touch what a request reads, its answer is that
of a store that applies every operation at once.
-/
import Mathlib.Tactic

namespace GEDS

namespace WriteBehind

universe u v w x y

/-- The program of one request. -/
inductive Handler (σ : Type u) (α : Type v) (ρ : Type w) where
  | read (next : σ → Handler σ α ρ)
  | send (operation : α) (next : Handler σ α ρ)
  | answer (response : ρ)

/-- What the operations do, where they wait, and how many fit into a queue. -/
structure Backend (σ : Type u) (α : Type v) (ι : Type w) where
  apply : σ → α → σ
  channel : α → ι
  capacity : Nat

/-- A request that was answered, with the operations it sent. -/
structure Answered (κ : Type u) (α : Type v) (ρ : Type w) where
  request : κ
  sent : List α
  response : ρ

/-- A request under way. -/
structure Active (κ : Type u) (σ : Type v) (α : Type w) (ρ : Type x) where
  request : κ
  sent : List α
  handler : Handler σ α ρ

structure State (κ : Type u) (σ : Type v) (α : Type w) (ρ : Type x) (ι : Type y) where
  store : σ
  queues : ι → List α
  history : List (Answered κ α ρ)
  active : Option (Active κ σ α ρ)

/-- One client issues its requests one after another; its handler and the listener
take turns in any order. -/
inductive Event (κ : Type u) (ι : Type v) where
  | request (request : κ)
  | proceed
  | listen (channel : ι)

variable {κ : Type u} {σ : Type v} {α : Type w} {ρ : Type x} {ι : Type y}

namespace Handler

/-- The handler may send this operation. -/
inductive Sends : Handler σ α ρ → α → Prop
  | read {next : σ → Handler σ α ρ} {operation : α} (store : σ)
      (hnext : Sends (next store) operation) : Sends (.read next) operation
  | here (operation : α) (next : Handler σ α ρ) : Sends (.send operation next) operation
  | later {next : Handler σ α ρ} {operation : α} (first : α)
      (hnext : Sends next operation) : Sends (.send first next) operation

/-- The handler may send these operations and then answer so. -/
inductive Ends : Handler σ α ρ → List α → ρ → Prop
  | read {next : σ → Handler σ α ρ} {operations : List α} {response : ρ} (store : σ)
      (hnext : Ends (next store) operations response) : Ends (.read next) operations response
  | send {next : Handler σ α ρ} {operations : List α} {response : ρ} (operation : α)
      (hnext : Ends next operations response) :
      Ends (.send operation next) (operation :: operations) response
  | answer (response : ρ) : Ends (.answer response) [] response

/-- Nothing is read any more. -/
def Writes : Handler σ α ρ → Prop
  | .read _ => False
  | .send _ next => next.Writes
  | .answer _ => True

end Handler

namespace Backend

variable (backend : Backend σ α ι)

def applyAll (store : σ) (operations : List α) : σ := operations.foldl backend.apply store

@[simp] theorem applyAll_nil (store : σ) : backend.applyAll store [] = store := rfl

@[simp] theorem applyAll_cons (store : σ) (operation : α) (rest : List α) :
    backend.applyAll store (operation :: rest) =
      backend.applyAll (backend.apply store operation) rest := rfl

theorem applyAll_append (store : σ) (first second : List α) :
    backend.applyAll store (first ++ second) =
      backend.applyAll (backend.applyAll store first) second :=
  List.foldl_append

/-- A store that applies every operation at once, with its answer. -/
def exec : Handler σ α ρ → σ → ρ × σ
  | .read next, store => exec (next store) store
  | .send operation next, store => exec next (backend.apply store operation)
  | .answer response, store => (response, store)

/-- The answers of such a store to requests one after another, and what it holds then. -/
def serve (handle : κ → Handler σ α ρ) : σ → List κ → List ρ × σ
  | store, [] => ([], store)
  | store, request :: rest =>
      let served := backend.exec (handle request) store
      let others := serve handle served.2 rest
      (served.1 :: others.1, others.2)

theorem serve_concat (handle : κ → Handler σ α ρ) (store : σ) (requests : List κ)
    (request : κ) :
    backend.serve handle store (requests ++ [request]) =
      ((backend.serve handle store requests).1 ++
          [(backend.exec (handle request) (backend.serve handle store requests).2).1],
        (backend.exec (handle request) (backend.serve handle store requests).2).2) := by
  induction requests generalizing store with
  | nil => rfl
  | cons head tail ih => simp only [List.cons_append, serve, ih]

def Commutes (first second : α) : Prop :=
  ∀ store, backend.apply (backend.apply store first) second =
    backend.apply (backend.apply store second) first

/-- An operation may be applied before others that it commutes with. -/
theorem applyAll_move {front : List α} {operation : α}
    (hcommutes : ∀ other ∈ front, backend.Commutes other operation) (store : σ)
    (back : List α) :
    backend.applyAll store (front ++ operation :: back) =
      backend.applyAll (backend.apply store operation) (front ++ back) := by
  induction front generalizing store with
  | nil => rfl
  | cons head tail ih =>
      rw [List.cons_append, List.cons_append, applyAll_cons, applyAll_cons,
        ih fun other hother => hcommutes other (List.mem_cons_of_mem head hother),
        hcommutes head List.mem_cons_self]

/-- What the handler reads is the same before and after these operations, and it reads
nothing once it has sent something. -/
def Insensitive (touched : α → Prop) : Handler σ α ρ → Prop
  | .read next =>
      (∀ store operation, touched operation →
        next (backend.apply store operation) = next store) ∧
      ∀ store, Insensitive touched (next store)
  | .send _ next => next.Writes
  | .answer _ => True

theorem Insensitive.mono {touched fewer : α → Prop} (hfewer : ∀ {x}, fewer x → touched x)
    {handler : Handler σ α ρ} (h : backend.Insensitive touched handler) :
    backend.Insensitive fewer handler := by
  induction handler with
  | read next ih =>
      exact ⟨fun store operation hx => h.1 store operation (hfewer hx),
        fun store => ih store (h.2 store)⟩
  | send operation next ih => exact h
  | answer response => exact h

theorem insensitive_of_writes {handler : Handler σ α ρ}
    (h : handler.Writes) (touched : α → Prop) : backend.Insensitive touched handler := by
  cases handler with
  | read next => exact h.elim
  | send operation next => exact h
  | answer response => trivial

/-- What an insensitive handler reads behind the operations is what it reads before
them. -/
theorem Insensitive.read_applyAll {touched : α → Prop} {next : σ → Handler σ α ρ}
    (h : backend.Insensitive touched (.read next)) {operations : List α}
    (htouched : ∀ operation ∈ operations, touched operation) (store : σ) :
    next (backend.applyAll store operations) = next store := by
  induction operations generalizing store with
  | nil => rfl
  | cons operation rest ih =>
      rw [applyAll_cons, ih fun other hother => htouched other (List.mem_cons_of_mem _ hother)]
      exact h.1 store operation (htouched operation List.mem_cons_self)

/-- The operations that wait, in the order in which they were sent. -/
structure Waits [DecidableEq ι] (queues : ι → List α) (order : List α) : Prop where
  queues : ∀ channel,
    queues channel = order.filter fun operation => decide (backend.channel operation = channel)
  commutes : order.Pairwise fun first second =>
    backend.channel first ≠ backend.channel second → backend.Commutes first second

namespace Waits

variable {backend} [DecidableEq ι] {queues : ι → List α} {order : List α}

theorem mem_queue (h : backend.Waits queues order) {operation : α} (hmem : operation ∈ order) :
    operation ∈ queues (backend.channel operation) := by
  rw [h.queues]
  exact List.mem_filter.2 ⟨hmem, decide_eq_true rfl⟩

theorem eq_nil (h : backend.Waits queues order) (hempty : ∀ channel, queues channel = []) :
    order = [] := by
  rw [List.eq_nil_iff_forall_not_mem]
  intro operation hmem
  have hqueue := h.mem_queue hmem
  rw [hempty] at hqueue
  exact List.not_mem_nil hqueue

theorem send (h : backend.Waits queues order) {operation : α}
    (hcommutes : ∀ other ∈ order, backend.channel other ≠ backend.channel operation →
      backend.Commutes other operation) :
    backend.Waits (Function.update queues (backend.channel operation)
      (queues (backend.channel operation) ++ [operation])) (order ++ [operation]) := by
  constructor
  · intro channel
    rw [List.filter_append]
    by_cases hchannel : channel = backend.channel operation
    · rw [hchannel, Function.update_self, h.queues]
      simp
    · rw [Function.update_of_ne hchannel, h.queues]
      simp [Ne.symm hchannel]
  · rw [List.pairwise_append]
    refine ⟨h.commutes, List.pairwise_singleton _ _, ?_⟩
    intro other hother last hlast
    rw [List.mem_singleton.1 hlast]
    exact hcommutes other hother

/-- The listener takes the first operation of a channel: those sent before it wait in
other channels and commute with it. -/
theorem take (h : backend.Waits queues order) {channel : ι} {operation : α} {rest : List α}
    (hqueue : queues channel = operation :: rest) :
    ∃ remaining, backend.Waits (Function.update queues channel rest) remaining ∧
      (∀ other ∈ remaining, other ∈ order) ∧
      ∀ store, backend.applyAll store order =
        backend.applyAll (backend.apply store operation) remaining := by
  have hfilter := (h.queues channel).symm.trans hqueue
  obtain ⟨front, back, rfl, hfront, hoperation, hback⟩ := List.filter_eq_cons_iff.1 hfilter
  have hchannel := of_decide_eq_true hoperation
  have hother : ∀ other ∈ front, backend.channel other ≠ channel := fun other hmem heq =>
    hfront other hmem (decide_eq_true heq)
  obtain ⟨hpairfront, hpairback, hacross⟩ := List.pairwise_append.1 h.commutes
  have hcommutes : ∀ other ∈ front, backend.Commutes other operation := by
    intro other hmem
    apply hacross other hmem operation List.mem_cons_self
    rw [hchannel]
    exact hother other hmem
  refine ⟨front ++ back, ⟨?_, ?_⟩, ?_, fun store => backend.applyAll_move hcommutes store back⟩
  · intro asked
    rw [List.filter_append]
    by_cases hasked : asked = channel
    · have hnone : (front.filter fun other => decide (backend.channel other = channel)) = [] :=
        List.filter_eq_nil_iff.2 hfront
      rw [hasked, Function.update_self, hnone, List.nil_append]
      exact hback.symm
    · have hne : backend.channel operation ≠ asked := fun heq =>
        hasked (heq.symm.trans hchannel)
      rw [Function.update_of_ne hasked, h.queues, List.filter_append,
        List.filter_cons_of_neg (by simpa using hne)]
  · exact List.pairwise_append.2 ⟨hpairfront, (List.pairwise_cons.1 hpairback).2,
      fun other hmem last hlast => hacross other hmem last (List.mem_cons_of_mem _ hlast)⟩
  · intro other hmem
    rw [List.mem_append] at hmem ⊢
    exact hmem.imp_right (List.mem_cons_of_mem operation)

end Waits

end Backend

/-- A property of the states and events of a run, at every step of it. -/
def Throughout {τ : Type u} {ε : Type v} (step : τ → ε → τ) (property : τ → ε → Prop) :
    τ → List ε → Prop
  | _, [] => True
  | s, event :: rest => property s event ∧ Throughout step property (step s event) rest

instance {τ : Type u} {ε : Type v} (step : τ → ε → τ) (property : τ → ε → Prop)
    [∀ s event, Decidable (property s event)] :
    ∀ s events, Decidable (Throughout step property s events)
  | _, [] => isTrue trivial
  | s, event :: rest =>
      have : Decidable (Throughout step property (step s event) rest) :=
        instDecidableThroughout step property (step s event) rest
      inferInstanceAs (Decidable (_ ∧ _))

theorem Throughout.mono {τ : Type u} {ε : Type v} {step : τ → ε → τ}
    {property weaker : τ → ε → Prop} (hweaker : ∀ s event, property s event → weaker s event)
    {s : τ} {events : List ε} (h : Throughout step property s events) :
    Throughout step weaker s events := by
  induction events generalizing s with
  | nil => trivial
  | cons event rest ih => exact ⟨hweaker s event h.1, ih h.2⟩

/-- What every step with the property preserves holds at the end of the run. -/
theorem Throughout.invariant {τ : Type u} {ε : Type v} {step : τ → ε → τ}
    {property : τ → ε → Prop} {s : τ} {events : List ε}
    (h : Throughout step property s events) (inv : τ → Prop)
    (hstep : ∀ s event, inv s → property s event → inv (step s event)) (hinv : inv s) :
    inv (events.foldl step s) := by
  induction events generalizing s with
  | nil => exact hinv
  | cons event rest ih => exact ih h.2 (hstep s event hinv h.1)

namespace State

variable (backend : Backend σ α ι) (handle : κ → Handler σ α ρ) [DecidableEq ι]

def start (store : σ) : State κ σ α ρ ι := ⟨store, fun _ => [], [], none⟩

/-- Everything that was sent so far. -/
def sent (s : State κ σ α ρ ι) : List α :=
  s.history.flatMap Answered.sent ++ (s.active.map Active.sent).getD []

/-- The handler takes its next step; it waits for room in a full queue. -/
def proceed (s : State κ σ α ρ ι) : State κ σ α ρ ι :=
  match s.active with
  | none => s
  | some ⟨request, sent, .read next⟩ =>
      { s with active := some ⟨request, sent, next s.store⟩ }
  | some ⟨request, sent, .send operation next⟩ =>
      let channel := backend.channel operation
      if (s.queues channel).length < backend.capacity then
        { s with
          queues := Function.update s.queues channel (s.queues channel ++ [operation])
          active := some ⟨request, sent ++ [operation], next⟩ }
      else s
  | some ⟨request, sent, .answer response⟩ =>
      { s with history := s.history ++ [⟨request, sent, response⟩], active := none }

/-- The listener takes an operation from a channel that has one, and applies it. -/
def listen (s : State κ σ α ρ ι) (channel : ι) : State κ σ α ρ ι :=
  match s.queues channel with
  | [] => s
  | operation :: rest =>
      { s with
        store := backend.apply s.store operation
        queues := Function.update s.queues channel rest }

def step (s : State κ σ α ρ ι) : Event κ ι → State κ σ α ρ ι
  | .request request =>
      match s.active with
      | none => { s with active := some ⟨request, [], handle request⟩ }
      | some _ => s
  | .proceed => s.proceed backend
  | .listen channel => s.listen backend channel

def run (s : State κ σ α ρ ι) (events : List (Event κ ι)) : State κ σ α ρ ι :=
  events.foldl (step backend handle) s

/-- What a request may send commutes with what waits in other channels. -/
def Ordered (s : State κ σ α ρ ι) (request : κ) : Prop :=
  ∀ operation, (handle request).Sends operation → ∀ channel, ∀ other ∈ s.queues channel,
    backend.channel other ≠ backend.channel operation → backend.Commutes other operation

/-- Nothing that waits touches what a request reads. -/
def Quiet (s : State κ σ α ρ ι) (request : κ) : Prop :=
  backend.Insensitive (fun other => ∃ channel, other ∈ s.queues channel) (handle request)

/-- What an event has to do with a condition on requests. -/
def OnRequest (condition : State κ σ α ρ ι → κ → Prop) (s : State κ σ α ρ ι) :
    Event κ ι → Prop
  | .request request => s.active = none → condition s request
  | _ => True

omit [DecidableEq ι] in
theorem OnRequest.mono {condition weaker : State κ σ α ρ ι → κ → Prop} {s : State κ σ α ρ ι}
    (hweaker : ∀ request, condition s request → weaker s request) {event : Event κ ι}
    (h : OnRequest condition s event) : OnRequest weaker s event := by
  cases event with
  | request request => exact fun hidle => hweaker request (h hidle)
  | proceed => trivial
  | listen channel => trivial

instance (condition : State κ σ α ρ ι → κ → Prop)
    [∀ s request, Decidable (condition s request)] (s : State κ σ α ρ ι) :
    ∀ event, Decidable (OnRequest condition s event)
  | .request request =>
      match h : s.active with
      | none => decidable_of_iff (condition s request) (by simp [OnRequest, h])
      | some _ => isTrue (by simp [OnRequest, h])
  | .proceed => isTrue trivial
  | .listen _ => isTrue trivial

/-- What a step does. -/
theorem step_cases (s : State κ σ α ρ ι) (event : Event κ ι) :
    s.step backend handle event = s ∨
    (∃ request, event = .request request ∧ s.active = none ∧
      s.step backend handle event = { s with active := some ⟨request, [], handle request⟩ }) ∨
    (∃ request sent next, s.active = some ⟨request, sent, .read next⟩ ∧
      s.step backend handle event =
        { s with active := some ⟨request, sent, next s.store⟩ }) ∨
    (∃ request sent operation next, s.active = some ⟨request, sent, .send operation next⟩ ∧
      s.step backend handle event =
        { s with
          queues := Function.update s.queues (backend.channel operation)
            (s.queues (backend.channel operation) ++ [operation])
          active := some ⟨request, sent ++ [operation], next⟩ }) ∨
    (∃ request sent response, s.active = some ⟨request, sent, .answer response⟩ ∧
      s.step backend handle event =
        { s with history := s.history ++ [⟨request, sent, response⟩], active := none }) ∨
    ∃ channel operation rest, s.queues channel = operation :: rest ∧
      s.step backend handle event =
        { s with
          store := backend.apply s.store operation
          queues := Function.update s.queues channel rest } := by
  cases event with
  | request request =>
      cases hactive : s.active with
      | none => exact Or.inr (Or.inl ⟨request, rfl, rfl, by simp [step, hactive]⟩)
      | some active => exact Or.inl (by simp [step, hactive])
  | proceed =>
      cases hactive : s.active with
      | none => exact Or.inl (by simp [step, proceed, hactive])
      | some active =>
          obtain ⟨request, sent, handler⟩ := active
          cases handler with
          | read next =>
              exact Or.inr (Or.inr (Or.inl
                ⟨request, sent, next, rfl, by simp [step, proceed, hactive]⟩))
          | send operation next =>
              by_cases hroom :
                  (s.queues (backend.channel operation)).length < backend.capacity
              · exact Or.inr (Or.inr (Or.inr (Or.inl
                  ⟨request, sent, operation, next, rfl, by simp [step, proceed, hactive, hroom]⟩)))
              · exact Or.inl (by simp [step, proceed, hactive, hroom])
          | answer response =>
              exact Or.inr (Or.inr (Or.inr (Or.inr (Or.inl
                ⟨request, sent, response, rfl, by simp [step, proceed, hactive]⟩))))
  | listen channel =>
      cases hqueue : s.queues channel with
      | nil => exact Or.inl (by simp [step, listen, hqueue])
      | cons operation rest =>
          exact Or.inr (Or.inr (Or.inr (Or.inr (Or.inr
            ⟨channel, operation, rest, hqueue, by simp [step, listen, hqueue]⟩))))

section Order

variable {backend handle} {init : σ} {s : State κ σ α ρ ι} {order : List α}

/-- The operations that wait, applied in order, complete what was sent. -/
structure Tracks (backend : Backend σ α ι) (init : σ) (s : State κ σ α ρ ι)
    (order : List α) : Prop where
  waits : backend.Waits s.queues order
  sent : backend.applyAll s.store order = backend.applyAll init s.sent
  ahead : ∀ {active}, s.active = some active → ∀ {operation},
    active.handler.Sends operation → ∀ other ∈ order,
    backend.channel other ≠ backend.channel operation → backend.Commutes other operation
  oneChannel : ∀ {active}, s.active = some active → ∀ {first second},
    active.handler.Sends first → active.handler.Sends second →
    backend.channel first = backend.channel second

theorem start_tracks (init : σ) : (start init : State κ σ α ρ ι).Tracks backend init [] where
  waits := ⟨fun _ => rfl, List.Pairwise.nil⟩
  sent := rfl
  ahead := nofun
  oneChannel := nofun

theorem Tracks.request (h : s.Tracks backend init order) (hidle : s.active = none) {request : κ}
    (hordered : s.Ordered backend handle request)
    (hone : ∀ {first second}, (handle request).Sends first → (handle request).Sends second →
      backend.channel first = backend.channel second) :
    ({ s with active := some ⟨request, [], handle request⟩ } : State κ σ α ρ ι).Tracks
      backend init order where
  waits := h.waits
  sent := by
    rw [h.sent]
    simp [State.sent, hidle]
  ahead := by
    rintro active ⟨⟩ operation hsends other hother
    exact hordered operation hsends _ other (h.waits.mem_queue hother)
  oneChannel := by
    rintro active ⟨⟩ first second
    exact hone

theorem Tracks.read (h : s.Tracks backend init order) {request : κ} {sent : List α}
    {next : σ → Handler σ α ρ} (hactive : s.active = some ⟨request, sent, .read next⟩) :
    ({ s with active := some ⟨request, sent, next s.store⟩ } : State κ σ α ρ ι).Tracks
      backend init order where
  waits := h.waits
  sent := by
    rw [h.sent]
    simp [State.sent, hactive]
  ahead := by
    rintro active ⟨⟩ operation hsends
    exact h.ahead hactive (hsends.read s.store)
  oneChannel := by
    rintro active ⟨⟩ first second hfirst hsecond
    exact h.oneChannel hactive (hfirst.read s.store) (hsecond.read s.store)

theorem Tracks.send (h : s.Tracks backend init order) {request : κ} {sent : List α}
    {operation : α} {next : Handler σ α ρ}
    (hactive : s.active = some ⟨request, sent, .send operation next⟩) :
    ({ s with
        queues := Function.update s.queues (backend.channel operation)
          (s.queues (backend.channel operation) ++ [operation])
        active := some ⟨request, sent ++ [operation], next⟩ } : State κ σ α ρ ι).Tracks
      backend init (order ++ [operation]) where
  waits := h.waits.send (h.ahead hactive (.here operation next))
  sent := by
    have hsent : State.sent { s with
        queues := Function.update s.queues (backend.channel operation)
          (s.queues (backend.channel operation) ++ [operation])
        active := some ⟨request, sent ++ [operation], next⟩ } = s.sent ++ [operation] := by
      simp [State.sent, hactive]
    rw [hsent, backend.applyAll_append, h.sent, ← backend.applyAll_append]
  ahead := by
    rintro active ⟨⟩ later hsends other hother
    rcases List.mem_append.1 hother with hmem | hmem
    · exact h.ahead hactive (hsends.later operation) other hmem
    · -- The operations of one request share a channel.
      rw [List.mem_singleton.1 hmem]
      intro hne
      exact absurd (h.oneChannel hactive (.here operation next) (hsends.later operation)) hne
  oneChannel := by
    rintro active ⟨⟩ first second hfirst hsecond
    exact h.oneChannel hactive (hfirst.later operation) (hsecond.later operation)

theorem Tracks.answer (h : s.Tracks backend init order) {request : κ} {sent : List α}
    {response : ρ} (hactive : s.active = some ⟨request, sent, .answer response⟩) :
    ({ s with history := s.history ++ [⟨request, sent, response⟩], active := none } :
      State κ σ α ρ ι).Tracks backend init order where
  waits := h.waits
  sent := by
    rw [h.sent]
    simp [State.sent, hactive]
  ahead := nofun
  oneChannel := nofun

theorem Tracks.listen (h : s.Tracks backend init order) {channel : ι} {operation : α}
    {rest : List α} (hqueue : s.queues channel = operation :: rest) :
    ∃ remaining, ({ s with
        store := backend.apply s.store operation
        queues := Function.update s.queues channel rest } : State κ σ α ρ ι).Tracks
          backend init remaining ∧
      (∀ other ∈ remaining, other ∈ order) ∧
      backend.applyAll s.store order =
        backend.applyAll (backend.apply s.store operation) remaining := by
  obtain ⟨remaining, hwaits, hsub, hmove⟩ := h.waits.take hqueue
  refine ⟨remaining, ⟨hwaits, (hmove s.store).symm.trans h.sent, ?_, h.oneChannel⟩, hsub,
    hmove s.store⟩
  intro active hactive later hsends other hother
  exact h.ahead hactive hsends other (hsub other hother)

/-- However the listener picks, what was sent in order is what is left. -/
theorem Tracks.step (h : s.Tracks backend init order) {event : Event κ ι}
    (hone : ∀ request {first second}, (handle request).Sends first →
      (handle request).Sends second → backend.channel first = backend.channel second)
    (hordered : OnRequest (Ordered backend handle) s event) :
    ∃ after, (s.step backend handle event).Tracks backend init after := by
  rcases s.step_cases backend handle event with heq | ⟨request, rfl, hidle, heq⟩ |
    ⟨request, sent, next, hactive, heq⟩ | ⟨request, sent, operation, next, hactive, heq⟩ |
    ⟨request, sent, response, hactive, heq⟩ | ⟨channel, operation, rest, hqueue, heq⟩
  · rw [heq]
    exact ⟨order, h⟩
  · exact ⟨order, heq ▸ h.request hidle (hordered hidle) (hone request)⟩
  · exact ⟨order, heq ▸ h.read hactive⟩
  · exact ⟨_, heq ▸ h.send hactive⟩
  · exact ⟨order, heq ▸ h.answer hactive⟩
  · obtain ⟨remaining, hafter, -, -⟩ := h.listen hqueue
    exact ⟨remaining, heq ▸ hafter⟩

theorem run_tracks
    (hone : ∀ request {first second}, (handle request).Sends first →
      (handle request).Sends second → backend.channel first = backend.channel second)
    (init : σ) {events : List (Event κ ι)}
    (hordered : Throughout (State.step backend handle) (OnRequest (Ordered backend handle))
      (start init) events) :
    ∃ order, (run backend handle (start init) events).Tracks backend init order :=
  hordered.invariant (fun s => ∃ order, s.Tracks backend init order)
    (fun _ _ ⟨_, h⟩ hevent => h.step hone hevent) ⟨[], start_tracks init⟩

/-- No update is lost: once the queues are empty, the store is that of everything that
was sent, in the order it was sent. -/
theorem run_drained
    (hone : ∀ request {first second}, (handle request).Sends first →
      (handle request).Sends second → backend.channel first = backend.channel second)
    (init : σ) {events : List (Event κ ι)}
    (hordered : Throughout (State.step backend handle) (OnRequest (Ordered backend handle))
      (start init) events)
    (hempty : ∀ channel, (run backend handle (start init) events).queues channel = []) :
    (run backend handle (start init) events).store =
      backend.applyAll init (run backend handle (start init) events).sent := by
  obtain ⟨order, h⟩ := run_tracks hone init hordered
  have hsent := h.sent
  rwa [h.waits.eq_nil hempty, backend.applyAll_nil] at hsent

end Order

section History

variable {backend handle} {s : State κ σ α ρ ι}

/-- Every answer, and what was sent before it, are those of the handler. -/
structure Handled (handle : κ → Handler σ α ρ) (s : State κ σ α ρ ι) : Prop where
  answered : ∀ answered ∈ s.history,
    (handle answered.request).Ends answered.sent answered.response
  active : ∀ {active}, s.active = some active → ∀ {operations response},
    active.handler.Ends operations response →
    (handle active.request).Ends (active.sent ++ operations) response

theorem Handled.step (h : s.Handled handle) (event : Event κ ι) :
    (s.step backend handle event).Handled handle := by
  rcases s.step_cases backend handle event with heq | ⟨request, rfl, hidle, heq⟩ |
    ⟨request, sent, next, hactive, heq⟩ | ⟨request, sent, operation, next, hactive, heq⟩ |
    ⟨request, sent, response, hactive, heq⟩ | ⟨channel, operation, rest, hqueue, heq⟩
  · rw [heq]
    exact h
  · rw [heq]
    refine ⟨h.answered, ?_⟩
    rintro active ⟨⟩ operations response hends
    exact hends
  · rw [heq]
    refine ⟨h.answered, ?_⟩
    rintro active ⟨⟩ operations response hends
    exact h.active hactive (.read s.store hends)
  · rw [heq]
    refine ⟨h.answered, ?_⟩
    rintro active ⟨⟩ operations response hends
    rw [List.append_assoc]
    exact h.active hactive (.send operation hends)
  · rw [heq]
    refine ⟨?_, nofun⟩
    intro answered hmem
    rcases List.mem_append.1 hmem with hold | hnew
    · exact h.answered answered hold
    · have hends := h.active hactive (.answer response)
      rw [List.append_nil] at hends
      rw [List.mem_singleton.1 hnew]
      exact hends
  · rw [heq]
    exact ⟨h.answered, h.active⟩

theorem run_handled (init : σ) (events : List (Event κ ι)) :
    (run backend handle (start init) events).Handled handle := by
  have hstart : (start init : State κ σ α ρ ι).Handled handle := ⟨nofun, nofun⟩
  revert hstart
  generalize (start init : State κ σ α ρ ι) = s
  intro hstart
  induction events generalizing s with
  | nil => exact hstart
  | cons event rest ih => exact ih _ (hstart.step event)

end History

section Answers

variable {backend handle} {init : σ} {s : State κ σ α ρ ι} {order : List α}

/-- The store with what waits applied to it is one that applies every operation at
once, and it has given the same answers. -/
structure Follows (backend : Backend σ α ι) (handle : κ → Handler σ α ρ) (init : σ)
    (s : State κ σ α ρ ι) (order : List α) : Prop extends s.Tracks backend init order where
  answers : s.history.map Answered.response =
    (backend.serve handle init (s.history.map Answered.request)).1
  idle : s.active = none → backend.applyAll s.store order =
    (backend.serve handle init (s.history.map Answered.request)).2
  busy : ∀ {active}, s.active = some active →
    backend.exec active.handler (backend.applyAll s.store order) =
      backend.exec (handle active.request)
        (backend.serve handle init (s.history.map Answered.request)).2
  insensitive : ∀ {active}, s.active = some active →
    backend.Insensitive (· ∈ order) active.handler

theorem start_follows (init : σ) :
    (start init : State κ σ α ρ ι).Follows backend handle init [] where
  toTracks := start_tracks init
  answers := rfl
  idle := fun _ => rfl
  busy := nofun
  insensitive := nofun

theorem Follows.step (h : s.Follows backend handle init order) {event : Event κ ι}
    (hone : ∀ request {first second}, (handle request).Sends first →
      (handle request).Sends second → backend.channel first = backend.channel second)
    (hevent : OnRequest
      (fun s request => s.Ordered backend handle request ∧ s.Quiet backend handle request)
      s event) :
    ∃ after, (s.step backend handle event).Follows backend handle init after := by
  rcases s.step_cases backend handle event with heq | ⟨request, rfl, hidle, heq⟩ |
    ⟨request, sent, next, hactive, heq⟩ | ⟨request, sent, operation, next, hactive, heq⟩ |
    ⟨request, sent, response, hactive, heq⟩ | ⟨channel, operation, rest, hqueue, heq⟩
  · rw [heq]
    exact ⟨order, h⟩
  · obtain ⟨hordered, hquiet⟩ := hevent hidle
    rw [heq]
    refine ⟨order, h.toTracks.request hidle hordered (hone request), h.answers, nofun, ?_, ?_⟩
    · rintro active ⟨⟩
      exact congrArg (backend.exec (handle request)) (h.idle hidle)
    · rintro active ⟨⟩
      exact hquiet.mono backend fun hmem => ⟨_, h.waits.mem_queue hmem⟩
  · have hinsensitive := h.insensitive hactive
    rw [heq]
    refine ⟨order, h.toTracks.read hactive, h.answers, nofun, ?_, ?_⟩
    · rintro active ⟨⟩
      have hbusy := h.busy hactive
      rw [Backend.exec, hinsensitive.read_applyAll backend (fun _ hmem => hmem)] at hbusy
      exact hbusy
    · rintro active ⟨⟩
      exact hinsensitive.2 s.store
  · have hinsensitive := h.insensitive hactive
    rw [heq]
    refine ⟨_, h.toTracks.send hactive, h.answers, nofun, ?_, ?_⟩
    · rintro active ⟨⟩
      have hbusy := h.busy hactive
      rw [Backend.exec] at hbusy
      rw [backend.applyAll_append]
      exact hbusy
    · rintro active ⟨⟩
      exact backend.insensitive_of_writes hinsensitive _
  · have hbusy := h.busy hactive
    rw [Backend.exec] at hbusy
    rw [heq]
    refine ⟨order, h.toTracks.answer hactive, ?_, fun _ => ?_, nofun, nofun⟩
    · rw [List.map_append, List.map_append, List.map_singleton, List.map_singleton,
        backend.serve_concat, ← hbusy, h.answers]
    · rw [List.map_append, List.map_singleton, backend.serve_concat, ← hbusy]
  · obtain ⟨remaining, hafter, hsub, hmove⟩ := h.toTracks.listen hqueue
    rw [heq]
    refine ⟨remaining, hafter, h.answers, fun hidle => ?_, fun hactive => ?_, fun hactive => ?_⟩
    · exact hmove.symm.trans (h.idle hidle)
    · exact hmove ▸ h.busy hactive
    · exact (h.insensitive hactive).mono backend fun hmem => hsub _ hmem

/-- Every answer is that of a store that applies every operation at once. -/
theorem run_answers
    (hone : ∀ request {first second}, (handle request).Sends first →
      (handle request).Sends second → backend.channel first = backend.channel second)
    (init : σ) {events : List (Event κ ι)}
    (hevents : Throughout (State.step backend handle)
      (OnRequest fun s request =>
        s.Ordered backend handle request ∧ s.Quiet backend handle request)
      (start init) events) :
    (run backend handle (start init) events).history.map Answered.response =
      (backend.serve handle init
        ((run backend handle (start init) events).history.map Answered.request)).1 := by
  obtain ⟨order, h⟩ := hevents.invariant
    (fun s => ∃ order, s.Follows backend handle init order)
    (fun _ _ ⟨_, h⟩ hevent => h.step hone hevent) ⟨[], start_follows init⟩
  exact h.answers

end Answers

end State

end WriteBehind

end GEDS
