/-
Nodes agree about the object stores.  The C++ server and the Go server in memory insert
under a lock, so the first config of a bucket is the only one.  The persistent server
reads LevelDB before it sends to its channel, and two registrations can pass each other.
-/
import GEDS.ObjectStores

namespace GEDS

namespace ObjectStores

theorem find_registerConfig (stores : ObjectStores) (config : ObjectStoreConfig)
    (label : Bytes) :
    (stores.registerConfig config).2.find label =
      (stores.find label).or (if label = config.bucket then some config.endpoint else none) := by
  rw [registerConfig, registerStore]
  cases hfind : stores.find config.bucket with
  | none =>
      rw [OrderedMap.find_insert]
      split_ifs with hlabel
      · rw [hlabel, hfind]
        rfl
      · rw [Option.or_none]
  | some endpoint =>
      dsimp only
      rw [apply_ite Prod.snd, ite_self]
      split_ifs with hlabel
      · rw [hlabel, hfind]
        rfl
      · rw [Option.or_none]

/-- A store that agrees with the config is accepted. -/
theorem registerConfig_ok {stores : ObjectStores} {config : ObjectStoreConfig}
    (hsame : ∀ endpoint, stores.find config.bucket = some endpoint → endpoint = config.endpoint) :
    (stores.registerConfig config).1 = .ok := by
  rw [registerConfig, registerStore]
  cases hfind : stores.find config.bucket with
  | none => rfl
  | some endpoint =>
      rw [hsame endpoint hfind]
      exact congrArg Prod.fst (if_pos ⟨rfl, rfl⟩)

end ObjectStores

/-- What the server can do next with a request. -/
inductive ObjectStoreServer.Serves (server : ObjectStoreServer) (config : ObjectStoreConfig) :
    RegisterPhase → ObjectStoreServer → RegisterPhase → Prop
  | finds {found : ObjectStoreConfig} (code : StatusCode)
      (hfind : server.objectStoreConfigs.find config.bucket = some found) :
      Serves server config .arriving server (.answered code)
  | inserts {phase : RegisterPhase} (hkind : server.kind ≠ .goPersistent)
      (hphase : phase = .populating ∨ phase = .answered .ok)
      (hfind : server.objectStoreConfigs.find config.bucket = none) :
      Serves server config .arriving
        { server with
          objectStoreConfigs := server.objectStoreConfigs.insert config.bucket config } phase
  | misses (hkind : server.kind = .goPersistent)
      (hfind : server.objectStoreConfigs.find config.bucket = none) :
      Serves server config .arriving server .unregistered
  | sends :
      Serves server config .unregistered
        { server with objectStoreConfigChan := server.objectStoreConfigChan ++ [config] }
        (.answered .ok)
  | waits (phase : RegisterPhase) (hphase : phase ≠ .arriving) :
      Serves server config phase server phase

theorem ObjectStoreServer.registerObjectStore_serves (server : ObjectStoreServer)
    (config : ObjectStoreConfig) (phase : RegisterPhase) :
    server.Serves config phase (server.registerObjectStore config phase).1
      (server.registerObjectStore config phase).2 := by
  cases phase with
  | arriving =>
      rw [registerObjectStore]
      cases hfind : server.objectStoreConfigs.find config.bucket with
      | some found => exact .finds _ hfind
      | none =>
          obtain ⟨kind, configs, chan⟩ := server
          cases kind with
          | cpp => exact .inserts ServerKind.noConfusion (Or.inl rfl) hfind
          | goInMemory => exact .inserts ServerKind.noConfusion (Or.inr rfl) hfind
          | goPersistent => exact .misses rfl hfind
  | populating => exact .waits _ RegisterPhase.noConfusion
  | unregistered =>
      rw [registerObjectStore]
      split_ifs
      · exact .sends
      · exact .waits _ RegisterPhase.noConfusion
  | answered code => exact .waits _ RegisterPhase.noConfusion

/-- A request replaces nothing at the server. -/
theorem ObjectStoreServer.Serves.find {server server' : ObjectStoreServer}
    {config found : ObjectStoreConfig} {phase phase' : RegisterPhase} {label : Bytes}
    (h : server.Serves config phase server' phase')
    (hfind : server.objectStoreConfigs.find label = some found) :
    server'.objectStoreConfigs.find label = some found := by
  cases h with
  | finds | misses | sends | waits => exact hfind
  | inserts hkind hphase hnone =>
      dsimp only
      rw [OrderedMap.find_insert]
      split_ifs with hlabel
      · cases (hlabel ▸ hnone).symm.trans hfind
      · exact hfind

/-- A server without a queue knows a config for the bucket after its first step. -/
theorem ObjectStoreServer.Serves.known {server server' : ObjectStoreServer}
    {config : ObjectStoreConfig} {phase phase' : RegisterPhase}
    (h : server.Serves config phase server' phase') (hkind : server.kind ≠ .goPersistent)
    (hbefore : phase ≠ .arriving →
      (server.objectStoreConfigs.find config.bucket).isSome) :
    (server'.objectStoreConfigs.find config.bucket).isSome := by
  cases h with
  | finds code hfind => exact Option.isSome_of_eq_some hfind
  | inserts =>
      dsimp only
      rw [OrderedMap.find_insert, if_pos rfl]
      rfl
  | misses hpersistent => exact absurd hpersistent hkind
  | sends => exact hbefore RegisterPhase.noConfusion
  | waits _ hphase => exact hbefore hphase

theorem ObjectStoreServer.Serves.kind {server server' : ObjectStoreServer}
    {config : ObjectStoreConfig} {phase phase' : RegisterPhase}
    (h : server.Serves config phase server' phase') : server'.kind = server.kind := by
  cases h <;> rfl

namespace StoreCluster

variable {s s' s'' : StoreCluster}

section Steps

/-- What the caller of a registration or synchronisation can do. -/
inductive Move (s : StoreCluster) (call : StoreCall) : CallerPhase → Prop
  | accepted {config : ObjectStoreConfig} {code : StatusCode}
      (hcaller : call.caller = .registering)
      (hanswer : call.registration = some (config, .answered code))
      (hcode : code = .ok ∨ code = .alreadyExists) : Move s call .creatingBucket
  | created (hcaller : call.caller = .creatingBucket) : Move s call .listing
  | listed {mappings : List ObjectStoreConfig} (hcaller : call.caller = .listing)
      (hperm : mappings.Perm s.server.listObjectStores) : Move s call (.syncing mappings)
  | synced (hcaller : call.caller = .syncing []) : Move s call (.returned .ok)
  | failed {code : StatusCode} (hcode : code ≠ .ok) : Move s call (.returned code)

/-- What a step does. -/
inductive Step (s : StoreCluster) : StoreEvent → StoreCluster → Prop
  | stays (event : StoreEvent) : Step s event s
  | registers (node : Nat) (config : ObjectStoreConfig) :
      Step s (.registerObjectStoreConfig node config)
        { s with calls := s.calls ++ [⟨node, some (config, .arriving), .registering⟩] }
  | syncs (node : Nat) :
      Step s (.syncObjectStoreConfigs node)
        { s with calls := s.calls ++ [⟨node, none, .listing⟩] }
  | serves {id : Nat} {call : StoreCall} {config : ObjectStoreConfig} {phase : RegisterPhase}
      (hcall : s.calls[id]? = some call) (hasked : call.registration = some (config, phase)) :
      Step s (.serve id)
        { s with
          server := (s.server.registerObjectStore config phase).1
          calls := s.calls.set id
            { call with
              registration := some (config, (s.server.registerObjectStore config phase).2) } }
  | populates {id : Nat} {call : StoreCall} {config : ObjectStoreConfig} (code : StatusCode)
      (hcall : s.calls[id]? = some call)
      (hasked : call.registration = some (config, .populating)) :
      Step s (.populateKVS id code)
        { s with
          calls := s.calls.set id { call with registration := some (config, .answered code) } }
  | listens : Step s .listen { s with server := s.server.listen }
  | moves {event : StoreEvent} {id : Nat} {call : StoreCall} {caller : CallerPhase}
      (hcall : s.calls[id]? = some call) (hmove : Move s call caller) :
      Step s event (s.setCaller id call caller)
  | stores {id : Nat} {call : StoreCall} {config : ObjectStoreConfig}
      {rest : List ObjectStoreConfig} (hcall : s.calls[id]? = some call)
      (hcaller : call.caller = .syncing (config :: rest)) :
      Step s (.registerStore id)
        { s with
          stores := Function.update s.stores call.node
            ((s.stores call.node).registerConfig config).2
          calls := s.calls.set id { call with caller := .syncing rest } }

theorem step_stepCall {event : StoreEvent} {id : Nat} {act : StoreCall → StoreCluster}
    (hact : ∀ call, s.calls[id]? = some call → Step s event (act call)) :
    Step s event (s.stepCall id act) := by
  rw [stepCall]
  cases hcall : s.calls[id]? with
  | none => exact .stays event
  | some call => exact hact call hcall

theorem step_serve {id : Nat} {call : StoreCall} (hcall : s.calls[id]? = some call) :
    Step s (.serve id) (s.serve id call) := by
  unfold serve
  split
  · exact .stays _
  · exact .serves hcall ‹_›

theorem step_populateKVS {id : Nat} {call : StoreCall} (code : StatusCode)
    (hcall : s.calls[id]? = some call) :
    Step s (.populateKVS id code) (s.populateKVS id call code) := by
  unfold populateKVS
  split
  · exact .populates code hcall ‹_›
  · exact .stays _

theorem step_receive {id : Nat} {call : StoreCall} (hcall : s.calls[id]? = some call) :
    Step s (.receive id) (s.receive id call) := by
  unfold receive
  split
  · rename_i hanswer hcaller
    apply Step.moves hcall
    rw [CallerPhase.afterRegister]
    split_ifs with hcode
    · exact .accepted hcaller hanswer hcode
    · exact .failed fun hok => hcode (Or.inl hok)
  · exact .stays _

theorem step_createBucket {id : Nat} {call : StoreCall} (code : StatusCode)
    (hcall : s.calls[id]? = some call) :
    Step s (.createBucket id code) (s.createBucket id call code) := by
  unfold createBucket
  split
  · apply Step.moves hcall
    rw [CallerPhase.afterCreateBucket]
    split_ifs with hcode
    · exact .created ‹_›
    · exact .failed hcode
  · exact .stays _

theorem step_listObjectStores {id : Nat} {call : StoreCall} (mappings : List ObjectStoreConfig)
    (hcall : s.calls[id]? = some call) :
    Step s (.listObjectStores id mappings) (s.listObjectStores id call mappings) := by
  unfold listObjectStores
  split
  · split_ifs with hperm
    · exact .moves hcall (.listed ‹_› hperm)
    · exact .stays _
  · exact .stays _

theorem step_registerStore {id : Nat} {call : StoreCall} (hcall : s.calls[id]? = some call) :
    Step s (.registerStore id) (s.registerStore id call) := by
  unfold registerStore
  split
  · exact .moves hcall (.synced ‹_›)
  · exact .stores hcall ‹_›
  · exact .stays _

theorem step_disconnect {id : Nat} {call : StoreCall} (hcall : s.calls[id]? = some call) :
    Step s (.disconnect id) (s.disconnect id call) := by
  unfold disconnect
  split
  · exact .moves hcall (.failed (by decide))
  · exact .moves hcall (.failed (by decide))
  · exact .moves hcall (.failed (by decide))
  · exact .stays _

theorem step_spec (s : StoreCluster) (event : StoreEvent) : Step s event (s.step event) := by
  cases event with
  | registerObjectStoreConfig node config => exact .registers node config
  | syncObjectStoreConfigs node => exact .syncs node
  | serve id => exact step_stepCall fun _ hcall => step_serve hcall
  | populateKVS id code => exact step_stepCall fun _ hcall => step_populateKVS code hcall
  | listen => exact .listens
  | receive id => exact step_stepCall fun _ hcall => step_receive hcall
  | createBucket id code => exact step_stepCall fun _ hcall => step_createBucket code hcall
  | listObjectStores id mappings =>
      exact step_stepCall fun _ hcall => step_listObjectStores mappings hcall
  | registerStore id => exact step_stepCall fun _ hcall => step_registerStore hcall
  | disconnect id => exact step_stepCall fun _ hcall => step_disconnect hcall

end Steps

section Invariant

theorem mem_pending {config : ObjectStoreConfig} :
    config ∈ s.pending ↔ config ∈ s.server.objectStoreConfigChan ∨
      ∃ call ∈ s.calls, call.registration = some (config, .unregistered) := by
  rw [pending, List.mem_append, List.mem_filterMap]
  refine or_congr Iff.rfl (exists_congr fun call => and_congr_right fun _ => ?_)
  split <;> simp_all

/-- Two registrations of one bucket with different values: the later one reads LevelDB
while the first is still on its way there. -/
def Disputed (s : StoreCluster) (config : ObjectStoreConfig) : Prop :=
  s.server.kind = .goPersistent ∧ s.server.objectStoreConfigs.find config.bucket = none ∧
    ∃ other ∈ s.pending, other.bucket = config.bucket ∧ other ≠ config

/-- The event is not the reading of LevelDB for a disputed config. -/
def Undisputed (s : StoreCluster) : StoreEvent → Prop
  | .serve id => ∀ call, s.calls[id]? = some call → ∀ config,
      call.registration = some (config, .arriving) → ¬ s.Disputed config
  | _ => True

/-- What the server knows, what waits and what the nodes hold fit together. -/
structure Sound (s : StoreCluster) : Prop where
  keyed : ∀ label config, s.server.objectStoreConfigs.find label = some config →
    config.bucket = label
  asked : ∀ label config, s.server.objectStoreConfigs.find label = some config → s.Asked config
  pendingAsked : ∀ config ∈ s.pending, s.Asked config
  pendingSame : ∀ config ∈ s.pending, ∀ found,
    s.server.objectStoreConfigs.find config.bucket = some found → found = config
  pendingUnique : ∀ config ∈ s.pending, ∀ other ∈ s.pending,
    config.bucket = other.bucket → config = other
  pendingKind : ∀ config ∈ s.pending, s.server.kind = .goPersistent
  stores : ∀ node label endpoint, (s.stores node).find label = some endpoint →
    ∃ config, s.server.objectStoreConfigs.find label = some config ∧ config.endpoint = endpoint
  listed : ∀ call ∈ s.calls, ∀ configs, call.caller = .syncing configs →
    ∀ config ∈ configs, s.server.objectStoreConfigs.find config.bucket = some config

theorem sound_start (kind : ServerKind) : (start kind).Sound where
  keyed _ _ hfind := by cases hfind
  asked _ _ hfind := by cases hfind
  pendingAsked _ hmem := by cases hmem
  pendingSame _ hmem := by cases hmem
  pendingUnique _ hmem := by cases hmem
  pendingKind _ hmem := by cases hmem
  stores _ _ _ hfind := by cases hfind
  listed _ hmem := by cases hmem

/-- Nothing that a server or a node has is replaced. -/
structure Extends (s s' : StoreCluster) : Prop where
  server : ∀ label config, s.server.objectStoreConfigs.find label = some config →
    s'.server.objectStoreConfigs.find label = some config
  stores : ∀ node label endpoint, (s.stores node).find label = some endpoint →
    (s'.stores node).find label = some endpoint

theorem Extends.refl (s : StoreCluster) : Extends s s := ⟨fun _ _ h => h, fun _ _ _ h => h⟩

theorem Extends.trans (h : Extends s s') (h' : Extends s' s'') : Extends s s'' :=
  ⟨fun label config hfind => h'.server label config (h.server label config hfind),
    fun node label endpoint hfind => h'.stores node label endpoint
      (h.stores node label endpoint hfind)⟩

/-- A member of a list stays when another one is replaced. -/
theorem mem_set_of_mem {calls : List StoreCall} {id : Nat} {old call : StoreCall}
    (new : StoreCall) (hold : calls[id]? = some old) (hmem : call ∈ calls) :
    call = old ∨ call ∈ calls.set id new := by
  obtain ⟨other, hother⟩ := List.mem_iff_getElem?.1 hmem
  by_cases hid : id = other
  · rw [← hid, hold] at hother
    exact Or.inl (Option.some.inj hother).symm
  · refine Or.inr (List.mem_iff_getElem?.2 ⟨other, ?_⟩)
    rw [List.getElem?_set_ne hid, hother]

theorem mem_set_self {calls : List StoreCall} {id : Nat} {old : StoreCall} (new : StoreCall)
    (hold : calls[id]? = some old) : new ∈ calls.set id new := by
  obtain ⟨hlt, -⟩ := List.getElem?_eq_some_iff.1 hold
  exact List.mem_iff_getElem?.2 ⟨id, List.getElem?_set_self hlt⟩

/-- What a call asked for is asked for as long as the call is there. -/
theorem Asked.set {config : ObjectStoreConfig} {id : Nat} {old new : StoreCall}
    (h : s.Asked config) (hold : s.calls[id]? = some old)
    (hsame : ∀ asked phase, old.registration = some (asked, phase) →
      ∃ phase', new.registration = some (asked, phase'))
    (hcalls : s'.calls = s.calls.set id new) : s'.Asked config := by
  obtain ⟨call, hmem, phase, hphase⟩ := h
  rcases mem_set_of_mem new hold hmem with rfl | hstays
  · obtain ⟨phase', hnew⟩ := hsame config phase hphase
    exact ⟨new, hcalls ▸ mem_set_self new hold, phase', hnew⟩
  · exact ⟨call, hcalls ▸ hstays, phase, hphase⟩

/-- A step that changes neither the server's map nor any node's, and adds nothing to what
waits, keeps everything in order. -/
theorem Sound.of_frame (h : s.Sound) (hkind : s'.server.kind = s.server.kind)
    (hserver : s'.server.objectStoreConfigs = s.server.objectStoreConfigs)
    (hstores : s'.stores = s.stores) (hasked : ∀ config, s.Asked config → s'.Asked config)
    (hpending : ∀ config ∈ s'.pending, config ∈ s.pending)
    (hlisted : ∀ call ∈ s'.calls, ∀ configs, call.caller = .syncing configs →
      ∀ config ∈ configs, s.server.objectStoreConfigs.find config.bucket = some config) :
    s'.Sound where
  keyed := by
    rw [hserver]
    exact h.keyed
  asked label config hfind := by
    rw [hserver] at hfind
    exact hasked config (h.asked label config hfind)
  pendingAsked config hmem := hasked config (h.pendingAsked config (hpending config hmem))
  pendingSame config hmem := by
    rw [hserver]
    exact h.pendingSame config (hpending config hmem)
  pendingUnique config hmem other hother :=
    h.pendingUnique config (hpending config hmem) other (hpending other hother)
  pendingKind config hmem := hkind.trans (h.pendingKind config (hpending config hmem))
  stores := by
    rw [hserver, hstores]
    exact h.stores
  listed := by
    rw [hserver]
    exact hlisted

/-- The calls are listed when those of before are, and the new one is. -/
theorem Sound.listed_set (h : s.Sound) {id : Nat} {new : StoreCall}
    (hnew : ∀ configs, new.caller = .syncing configs → ∀ config ∈ configs,
      s.server.objectStoreConfigs.find config.bucket = some config) :
    ∀ call ∈ s.calls.set id new, ∀ configs, call.caller = .syncing configs →
      ∀ config ∈ configs, s.server.objectStoreConfigs.find config.bucket = some config := by
  intro call hmem
  rcases List.mem_or_eq_of_mem_set hmem with hstays | rfl
  · exact h.listed call hstays
  · exact hnew

theorem Sound.append (h : s.Sound) {call : StoreCall}
    (hphase : ∀ config, call.registration ≠ some (config, .unregistered))
    (hcaller : ∀ configs, call.caller ≠ .syncing configs) :
    Sound { s with calls := s.calls ++ [call] } := by
  refine h.of_frame rfl rfl rfl ?_ ?_ ?_
  · rintro config ⟨old, hmem, phase, hregistration⟩
    exact ⟨old, List.mem_append_left _ hmem, phase, hregistration⟩
  · intro config hmem
    rw [mem_pending] at hmem ⊢
    refine hmem.imp_right ?_
    rintro ⟨old, hold, hregistration⟩
    rcases List.mem_append.1 hold with hstays | hnew
    · exact ⟨old, hstays, hregistration⟩
    · rw [List.mem_singleton.1 hnew] at hregistration
      exact absurd hregistration (hphase config)
  · intro old hold configs hsyncing
    rcases List.mem_append.1 hold with hstays | hnew
    · exact h.listed old hstays configs hsyncing
    · rw [List.mem_singleton.1 hnew] at hsyncing
      exact absurd hsyncing (hcaller configs)

theorem Asked.setRegistration {asked config : ObjectStoreConfig} (h : s.Asked asked) {id : Nat}
    {call : StoreCall} {phase : RegisterPhase} (phase' : RegisterPhase)
    (hcall : s.calls[id]? = some call) (hasked : call.registration = some (config, phase)) :
    Asked { s with
      calls := s.calls.set id { call with registration := some (config, phase') } } asked := by
  refine h.set hcall ?_ rfl
  intro found before hfound
  rw [hasked] at hfound
  obtain ⟨rfl, -⟩ := Prod.mk.inj (Option.some.inj hfound)
  exact ⟨phase', rfl⟩

/-- A request that goes on without a change at the server. -/
theorem Sound.setRegistration (h : s.Sound) {id : Nat} {call : StoreCall}
    {config : ObjectStoreConfig} {phase phase' : RegisterPhase}
    (hcall : s.calls[id]? = some call) (hasked : call.registration = some (config, phase))
    (hphase : phase' = .unregistered → phase = .unregistered) :
    Sound { s with
      calls := s.calls.set id { call with registration := some (config, phase') } } := by
  refine h.of_frame rfl rfl rfl ?_ ?_ ?_
  · exact fun asked hbefore => hbefore.setRegistration phase' hcall hasked
  · intro found hmem
    rw [mem_pending] at hmem ⊢
    refine hmem.imp_right ?_
    rintro ⟨old, hold, hregistration⟩
    rcases List.mem_or_eq_of_mem_set hold with hstays | rfl
    · exact ⟨old, hstays, hregistration⟩
    · obtain ⟨rfl, heq⟩ := Prod.mk.inj (Option.some.inj hregistration)
      exact ⟨call, List.mem_of_getElem? hcall, hphase heq ▸ hasked⟩
  · exact h.listed_set (h.listed call (List.mem_of_getElem? hcall))

/-- The server's list, in any order, is what the server knows. -/
theorem Sound.find_of_listed (h : s.Sound) {mappings : List ObjectStoreConfig}
    (hperm : mappings.Perm s.server.listObjectStores) {config : ObjectStoreConfig}
    (hmem : config ∈ mappings) :
    s.server.objectStoreConfigs.find config.bucket = some config := by
  obtain ⟨⟨label, found⟩, hentry, rfl⟩ := List.mem_map.1 (hperm.mem_iff.1 hmem)
  have hfind := (s.server.objectStoreConfigs.find_eq_some_iff label found).2 hentry
  rw [h.keyed label found hfind]
  exact hfind

/-- A caller that goes on. -/
theorem Sound.setCaller (h : s.Sound) {id : Nat} {call : StoreCall} {caller : CallerPhase}
    (hcall : s.calls[id]? = some call)
    (hlisted : ∀ configs, caller = .syncing configs → ∀ config ∈ configs,
      s.server.objectStoreConfigs.find config.bucket = some config) :
    (s.setCaller id call caller).Sound := by
  refine h.of_frame rfl rfl rfl ?_ ?_ (h.listed_set hlisted)
  · intro asked hbefore
    refine hbefore.set hcall ?_ rfl
    exact fun found phase hfound => ⟨phase, hfound⟩
  · intro found hmem
    rw [mem_pending] at hmem ⊢
    refine hmem.imp_right ?_
    rintro ⟨old, hold, hregistration⟩
    rcases List.mem_or_eq_of_mem_set hold with hstays | rfl
    · exact ⟨old, hstays, hregistration⟩
    · exact ⟨call, List.mem_of_getElem? hcall, hregistration⟩

theorem Sound.moves (h : s.Sound) {id : Nat} {call : StoreCall} {caller : CallerPhase}
    (hcall : s.calls[id]? = some call) (hmove : Move s call caller) :
    (s.setCaller id call caller).Sound := by
  apply h.setCaller hcall
  intro configs hsyncing config hmem
  cases hmove with
  | listed _ hperm =>
      obtain rfl := CallerPhase.syncing.inj hsyncing
      exact h.find_of_listed hperm hmem
  | accepted | created | synced | failed => cases hsyncing

/-- A store that a node takes from the list is the server's. -/
theorem Sound.registerStore (h : s.Sound) {id : Nat} {call : StoreCall}
    {config : ObjectStoreConfig} {rest : List ObjectStoreConfig}
    (hcall : s.calls[id]? = some call) (hcaller : call.caller = .syncing (config :: rest)) :
    Sound { s with
      stores := Function.update s.stores call.node
        ((s.stores call.node).registerConfig config).2
      calls := s.calls.set id { call with caller := .syncing rest } } := by
  have hlisted := h.listed call (List.mem_of_getElem? hcall) _ hcaller
  have hframe : (s.setCaller id call (.syncing rest)).Sound := by
    apply h.setCaller hcall
    intro configs hsyncing other hmem
    obtain rfl := CallerPhase.syncing.inj hsyncing
    exact hlisted other (List.mem_cons_of_mem config hmem)
  refine { hframe with stores := ?_ }
  intro node label endpoint hfind
  dsimp only at hfind
  by_cases hnode : node = call.node
  · rw [hnode, Function.update_self, ObjectStores.find_registerConfig] at hfind
    rcases Option.or_eq_some_iff.1 hfind with hold | ⟨-, hnew⟩
    · exact h.stores call.node label endpoint hold
    · split_ifs at hnew with hlabel
      exact ⟨config, hlabel ▸ hlisted config List.mem_cons_self, Option.some.inj hnew⟩
  · rw [Function.update_of_ne hnode] at hfind
    exact h.stores node label endpoint hfind

/-- A config goes to the server's map when nothing else is known or waits for its bucket. -/
theorem Sound.insert (h : s.Sound) {config : ObjectStoreConfig} (hasked : s.Asked config)
    (hsame : ∀ found, s.server.objectStoreConfigs.find config.bucket = some found →
      found = config)
    (hpending : ∀ other ∈ s.pending, other.bucket = config.bucket → other = config) :
    Sound { s with
      server := { s.server with
        objectStoreConfigs := s.server.objectStoreConfigs.insert config.bucket config } } := by
  have hkept : ∀ label found, s.server.objectStoreConfigs.find label = some found →
      (s.server.objectStoreConfigs.insert config.bucket config).find label = some found := by
    intro label found hfind
    rw [OrderedMap.find_insert]
    split_ifs with hlabel
    · rw [hsame found (hlabel ▸ hfind)]
    · exact hfind
  have hinserted : ∀ label found,
      (s.server.objectStoreConfigs.insert config.bucket config).find label = some found →
      (label = config.bucket ∧ found = config) ∨
        s.server.objectStoreConfigs.find label = some found := by
    intro label found hfind
    rw [OrderedMap.find_insert] at hfind
    split_ifs at hfind with hlabel
    · exact Or.inl ⟨hlabel, (Option.some.inj hfind).symm⟩
    · exact Or.inr hfind
  exact
    { keyed := by
        intro label found hfind
        rcases hinserted label found hfind with ⟨rfl, rfl⟩ | hold
        · rfl
        · exact h.keyed label found hold
      asked := by
        intro label found hfind
        rcases hinserted label found hfind with ⟨-, rfl⟩ | hold
        · exact hasked
        · exact h.asked label found hold
      pendingAsked := h.pendingAsked
      pendingSame := by
        intro other hmem found hfind
        rcases hinserted other.bucket found hfind with ⟨hbucket, rfl⟩ | hold
        · exact (hpending other hmem hbucket).symm
        · exact h.pendingSame other hmem found hold
      pendingUnique := h.pendingUnique
      pendingKind := h.pendingKind
      stores := by
        intro node label endpoint hfind
        obtain ⟨found, hold, hendpoint⟩ := h.stores node label endpoint hfind
        exact ⟨found, hkept label found hold, hendpoint⟩
      listed := fun call hmem configs hsyncing other hother =>
        hkept other.bucket other (h.listed call hmem configs hsyncing other hother) }

theorem Sound.listens (h : s.Sound) : Sound { s with server := s.server.listen } := by
  rw [ObjectStoreServer.listen]
  cases hchan : s.server.objectStoreConfigChan with
  | nil => exact h
  | cons config rest =>
      have hmem : config ∈ s.pending := mem_pending.2 (Or.inl (hchan ▸ List.mem_cons_self))
      have hinsert := h.insert (h.pendingAsked config hmem) (h.pendingSame config hmem)
        fun other hother => h.pendingUnique other hother config hmem
      refine hinsert.of_frame rfl rfl rfl (fun _ hbefore => hbefore) ?_ hinsert.listed
      intro other hother
      rw [mem_pending] at hother ⊢
      refine hother.imp_left fun hrest => ?_
      change other ∈ s.server.objectStoreConfigChan
      exact hchan ▸ List.mem_cons_of_mem config hrest

/-- LevelDB has nothing for the bucket, and what waits for it is the same config. -/
theorem Sound.misses (h : s.Sound) {id : Nat} {call : StoreCall} {config : ObjectStoreConfig}
    {phase : RegisterPhase} (hcall : s.calls[id]? = some call)
    (hasked : call.registration = some (config, phase))
    (hkind : s.server.kind = .goPersistent)
    (hfind : s.server.objectStoreConfigs.find config.bucket = none)
    (hundisputed : ¬ s.Disputed config) :
    Sound { s with
      calls := s.calls.set id { call with registration := some (config, .unregistered) } } := by
  have hsame : ∀ other ∈ s.pending, other.bucket = config.bucket → other = config := by
    intro other hmem hbucket
    by_contra hne
    exact hundisputed ⟨hkind, hfind, other, hmem, hbucket, hne⟩
  have hnew : ∀ other, other ∈ pending { s with
      calls := s.calls.set id { call with registration := some (config, .unregistered) } } →
      other ∈ s.pending ∨ other = config := by
    intro other hmem
    rw [mem_pending] at hmem ⊢
    rcases hmem with hchan | ⟨old, hold, hregistration⟩
    · exact Or.inl (Or.inl hchan)
    · rcases List.mem_or_eq_of_mem_set hold with hstays | rfl
      · exact Or.inl (Or.inr ⟨old, hstays, hregistration⟩)
      · exact Or.inr (Prod.mk.inj (Option.some.inj hregistration)).1.symm
  exact
    { keyed := h.keyed
      asked := fun label found hfound =>
        (h.asked label found hfound).setRegistration _ hcall hasked
      pendingAsked := by
        intro other hmem
        rcases hnew other hmem with hold | rfl
        · exact (h.pendingAsked other hold).setRegistration _ hcall hasked
        · exact ⟨_, mem_set_self _ hcall, _, rfl⟩
      pendingSame := by
        intro other hmem found hfound
        rcases hnew other hmem with hold | rfl
        · exact h.pendingSame other hold found hfound
        · cases hfind.symm.trans hfound
      pendingUnique := by
        intro first hfirst second hsecond hbucket
        rcases hnew first hfirst with hold | rfl
        · rcases hnew second hsecond with hold' | rfl
          · exact h.pendingUnique first hold second hold' hbucket
          · exact hsame first hold hbucket
        · rcases hnew second hsecond with hold' | rfl
          · exact (hsame second hold' hbucket.symm).symm
          · rfl
      pendingKind := fun _ _ => hkind
      stores := h.stores
      listed := h.listed_set (h.listed call (List.mem_of_getElem? hcall)) }

/-- The config is sent: it waits at the server now. -/
theorem Sound.sends (h : s.Sound) {id : Nat} {call : StoreCall} {config : ObjectStoreConfig}
    (hcall : s.calls[id]? = some call)
    (hasked : call.registration = some (config, .unregistered)) :
    Sound { s with
      server := { s.server with
        objectStoreConfigChan := s.server.objectStoreConfigChan ++ [config] }
      calls := s.calls.set id { call with registration := some (config, .answered .ok) } } := by
  refine h.of_frame rfl rfl rfl ?_ ?_ ?_
  · exact fun asked hbefore => hbefore.setRegistration _ hcall hasked
  · intro other hmem
    rw [mem_pending] at hmem ⊢
    rcases hmem with hchan | ⟨old, hold, hregistration⟩
    · rcases List.mem_append.1 hchan with hwaits | hlast
      · exact Or.inl hwaits
      · rw [List.mem_singleton.1 hlast]
        exact Or.inr ⟨call, List.mem_of_getElem? hcall, hasked⟩
    · rcases List.mem_or_eq_of_mem_set hold with hstays | rfl
      · exact Or.inr ⟨old, hstays, hregistration⟩
      · cases hregistration
  · exact h.listed_set (h.listed call (List.mem_of_getElem? hcall))

theorem Sound.serves (h : s.Sound) {id : Nat} {call : StoreCall} {config : ObjectStoreConfig}
    {phase phase' : RegisterPhase} {server : ObjectStoreServer}
    (hcall : s.calls[id]? = some call) (hasked : call.registration = some (config, phase))
    (hserves : s.server.Serves config phase server phase')
    (hundisputed : phase = .arriving → ¬ s.Disputed config) :
    Sound { s with
      server := server
      calls := s.calls.set id { call with registration := some (config, phase') } } := by
  cases hserves with
  | finds code hfind => exact h.setRegistration hcall hasked RegisterPhase.noConfusion
  | inserts hkind hphase hfind =>
      have hconfig : s.Asked config := ⟨call, List.mem_of_getElem? hcall, _, hasked⟩
      have hinsert := h.insert hconfig (fun found hfound => by cases hfind.symm.trans hfound)
        fun other hmem _ => absurd (h.pendingKind other hmem) hkind
      refine hinsert.setRegistration hcall hasked ?_
      rcases hphase with rfl | rfl <;> exact RegisterPhase.noConfusion
  | misses hkind hfind => exact h.misses hcall hasked hkind hfind (hundisputed rfl)
  | sends => exact h.sends hcall hasked
  | waits => exact h.setRegistration hcall hasked fun hphase => hphase

theorem sound_step (h : s.Sound) {event : StoreEvent} (hundisputed : s.Undisputed event) :
    (s.step event).Sound := by
  have hstep := step_spec s event
  generalize s.step event = s' at hstep ⊢
  cases hstep with
  | stays => exact h
  | registers node config =>
      exact h.append (fun other heq => by cases heq) fun configs heq => by cases heq
  | syncs node => exact h.append (fun other heq => by cases heq) fun configs heq => by cases heq
  | serves hcall hasked =>
      refine h.serves hcall hasked (ObjectStoreServer.registerObjectStore_serves _ _ _) ?_
      rintro rfl
      exact hundisputed _ hcall _ hasked
  | populates code hcall hasked => exact h.setRegistration hcall hasked RegisterPhase.noConfusion
  | listens => exact h.listens
  | moves hcall hmove => exact h.moves hcall hmove
  | stores hcall hcaller => exact h.registerStore hcall hcaller

theorem sound_run {kind : ServerKind} {events : List StoreEvent}
    (h : WriteBehind.Throughout step Undisputed (start kind) events) :
    ((start kind).run events).Sound :=
  h.invariant Sound (fun _ _ hs hevent => sound_step hs hevent) (sound_start kind)

end Invariant

section Delivery

theorem server_listen (h : s.Sound) (label : Bytes) (found : ObjectStoreConfig)
    (hfind : s.server.objectStoreConfigs.find label = some found) :
    s.server.listen.objectStoreConfigs.find label = some found := by
  rw [ObjectStoreServer.listen]
  cases hchan : s.server.objectStoreConfigChan with
  | nil => exact hfind
  | cons config rest =>
      have hmem : config ∈ s.pending := mem_pending.2 (Or.inl (hchan ▸ List.mem_cons_self))
      dsimp only
      rw [OrderedMap.find_insert]
      split_ifs with hlabel
      · rw [h.pendingSame config hmem found (hlabel ▸ hfind)]
      · exact hfind

/-- No node replaces a store. -/
theorem stores_step (s : StoreCluster) (event : StoreEvent) {node : Nat} {label : Bytes}
    {endpoint : StoreEndpoint} (hfind : (s.stores node).find label = some endpoint) :
    ((s.step event).stores node).find label = some endpoint := by
  have hstep := step_spec s event
  generalize s.step event = s' at hstep ⊢
  cases hstep with
  | stays | registers | syncs | serves | populates | listens | moves => exact hfind
  | @stores id call config rest hcall hcaller =>
      dsimp only
      by_cases hnode : node = call.node
      · rw [hnode] at hfind ⊢
        rw [Function.update_self, ObjectStores.find_registerConfig, hfind]
        rfl
      · rw [Function.update_of_ne hnode]
        exact hfind

theorem stores_run {events : List StoreEvent} {node : Nat} {label : Bytes}
    {endpoint : StoreEndpoint} (hfind : (s.stores node).find label = some endpoint) :
    ((s.run events).stores node).find label = some endpoint := by
  induction events generalizing s with
  | nil => exact hfind
  | cons event rest ih => exact ih (stores_step s event hfind)

/-- No step replaces anything. -/
theorem extends_step (h : s.Sound) (event : StoreEvent) : Extends s (s.step event) := by
  refine ⟨?_, fun node label endpoint hfind => stores_step s event hfind⟩
  have hstep := step_spec s event
  generalize s.step event = s' at hstep ⊢
  cases hstep with
  | stays | registers | syncs | populates | moves | stores => exact fun _ _ hfind => hfind
  | @serves id call config phase hcall hasked =>
      exact fun _ _ hfind => (s.server.registerObjectStore_serves config phase).find hfind
  | listens => exact server_listen h

/-- A run from a sound state. -/
theorem sound_extends_run (h : s.Sound) {events : List StoreEvent}
    (hundisputed : WriteBehind.Throughout step Undisputed s events) :
    (s.run events).Sound ∧ Extends s (s.run events) :=
  hundisputed.invariant (fun s' => s'.Sound ∧ Extends s s')
    (fun _ event hs hevent =>
      ⟨sound_step hs.1 hevent, hs.2.trans (extends_step hs.1 event)⟩)
    ⟨h, Extends.refl s⟩

/-- The node of the call will have a store for the label when the call returns `OK`. -/
def Due (s : StoreCluster) (label : Bytes) (call : StoreCall) : Prop :=
  match call.caller with
  | .registering => True
  | .creatingBucket | .listing => (s.server.objectStoreConfigs.find label).isSome
  | .syncing configs =>
      ((s.stores call.node).find label).isSome ∨ ∃ config ∈ configs, config.bucket = label
  | .returned code => code = .ok → ((s.stores call.node).find label).isSome

theorem Extends.isSome_server (h : Extends s s') {label : Bytes}
    (hfind : (s.server.objectStoreConfigs.find label).isSome) :
    (s'.server.objectStoreConfigs.find label).isSome := by
  obtain ⟨config, hconfig⟩ := Option.isSome_iff_exists.1 hfind
  rw [h.server label config hconfig]
  rfl

theorem Extends.isSome_stores (h : Extends s s') {node : Nat} {label : Bytes}
    (hfind : ((s.stores node).find label).isSome) :
    ((s'.stores node).find label).isSome := by
  obtain ⟨endpoint, hendpoint⟩ := Option.isSome_iff_exists.1 hfind
  rw [h.stores node label endpoint hendpoint]
  rfl

theorem Due.extends {label : Bytes} {call : StoreCall} (h : s.Due label call)
    (hextends : Extends s s') : s'.Due label call := by
  rw [Due] at h ⊢
  cases hcaller : call.caller with
  | registering => trivial
  | creatingBucket | listing =>
      rw [hcaller] at h
      exact hextends.isSome_server h
  | syncing configs =>
      rw [hcaller] at h
      exact h.imp_left hextends.isSome_stores
  | returned code =>
      rw [hcaller] at h
      exact fun hcode => hextends.isSome_stores (h hcode)

/-- What a step makes of a call. -/
inductive Goes (s s' : StoreCluster) (call : StoreCall) : StoreCall → Prop
  | stays : Goes s s' call call
  | served {config : ObjectStoreConfig} {phase phase' : RegisterPhase}
      (hasked : call.registration = some (config, phase))
      (hserves : s.server.Serves config phase s'.server phase') :
      Goes s s' call { call with registration := some (config, phase') }
  | populated {config : ObjectStoreConfig} (code : StatusCode)
      (hasked : call.registration = some (config, .populating)) :
      Goes s s' call { call with registration := some (config, .answered code) }
  | moved {caller : CallerPhase} (hmove : Move s call caller) :
      Goes s s' call { call with caller := caller }
  | stored {config : ObjectStoreConfig} {rest : List ObjectStoreConfig}
      (hcaller : call.caller = .syncing (config :: rest))
      (hstores : s'.stores call.node = ((s.stores call.node).registerConfig config).2) :
      Goes s s' call { call with caller := .syncing rest }

/-- The replaced call is the one that goes on. -/
theorem goes_set {id other : Nat} {call old new : StoreCall} (hcall : s.calls[id]? = some call)
    (hold : s.calls[other]? = some old) (hgoes : Goes s s' old new) :
    ∃ call', (s.calls.set other new)[id]? = some call' ∧ Goes s s' call call' := by
  by_cases hid : other = id
  · rw [hid] at hold ⊢
    obtain rfl := Option.some.inj (hcall.symm.trans hold)
    obtain ⟨hlt, -⟩ := List.getElem?_eq_some_iff.1 hcall
    exact ⟨new, List.getElem?_set_self hlt, hgoes⟩
  · exact ⟨call, by rw [List.getElem?_set_ne hid, hcall], .stays⟩

theorem goes_append {id : Nat} {call : StoreCall} (hcall : s.calls[id]? = some call)
    (new : StoreCall) :
    ∃ call', (s.calls ++ [new])[id]? = some call' ∧ Goes s s' call call' := by
  obtain ⟨hlt, -⟩ := List.getElem?_eq_some_iff.1 hcall
  exact ⟨call, by rw [List.getElem?_append_left hlt, hcall], .stays⟩

theorem goes_step {id : Nat} {call : StoreCall} (hcall : s.calls[id]? = some call)
    (event : StoreEvent) :
    ∃ call', (s.step event).calls[id]? = some call' ∧ Goes s (s.step event) call call' := by
  have hstep := step_spec s event
  generalize s.step event = s' at hstep ⊢
  cases hstep with
  | stays | listens => exact ⟨call, hcall, .stays⟩
  | registers node config => exact goes_append hcall _
  | syncs node => exact goes_append hcall _
  | serves hold hasked =>
      exact goes_set hcall hold (.served hasked (ObjectStoreServer.registerObjectStore_serves ..))
  | populates code hold hasked => exact goes_set hcall hold (.populated code hasked)
  | moves hold hmove => exact goes_set hcall hold (.moved hmove)
  | stores hold hcaller =>
      exact goes_set hcall hold (.stored hcaller (Function.update_self ..))

theorem Due.move (h : s.Sound) {label : Bytes} {call : StoreCall} {caller : CallerPhase}
    (hdue : s.Due label call) (hmove : Move s call caller)
    (hanswered : call.caller = .registering → ∀ config code,
      call.registration = some (config, .answered code) →
        (s.server.objectStoreConfigs.find label).isSome) :
    s.Due label { call with caller := caller } := by
  rw [Due] at hdue
  cases hmove with
  | accepted hcaller hanswer hcode => exact hanswered hcaller _ _ hanswer
  | created hcaller =>
      rw [hcaller] at hdue
      exact hdue
  | listed hcaller hperm =>
      rw [hcaller] at hdue
      obtain ⟨config, hfind⟩ := Option.isSome_iff_exists.1 hdue
      have hentry := (s.server.objectStoreConfigs.find_eq_some_iff label config).1 hfind
      have hmem := hperm.mem_iff.2 (List.mem_map_of_mem (f := Prod.snd) hentry)
      exact Or.inr ⟨config, hmem, h.keyed label config hfind⟩
  | synced hcaller =>
      rw [hcaller] at hdue
      intro _
      rcases hdue with hstore | ⟨config, hmem, -⟩
      · exact hstore
      · cases hmem
  | failed hcode => exact fun hok => absurd hok hcode

theorem Due.goes (h : s.Sound) (hextends : Extends s s') {label : Bytes}
    {call call' : StoreCall} (hdue : s.Due label call) (hgoes : Goes s s' call call')
    (hanswered : call.caller = .registering → ∀ config code,
      call.registration = some (config, .answered code) →
        (s.server.objectStoreConfigs.find label).isSome) :
    s'.Due label call' := by
  cases hgoes with
  | stays => exact hdue.extends hextends
  | served | populated => exact (hdue.extends hextends : s'.Due label call)
  | moved hmove => exact (hdue.move h hmove hanswered).extends hextends
  | @stored config rest hcaller hstores =>
      rw [Due, hcaller] at hdue
      rcases hdue with hstore | ⟨other, hmem, hbucket⟩
      · exact Or.inl (hextends.isSome_stores hstore)
      · rcases List.mem_cons.1 hmem with rfl | hrest
        · refine Or.inl ?_
          change ((s'.stores call.node).find label).isSome
          rw [hstores, ObjectStores.find_registerConfig, if_pos hbucket.symm]
          cases (s.stores call.node).find label <;> rfl
        · exact Or.inr ⟨other, hrest, hbucket⟩

end Delivery

section InMemory

theorem kind_step (s : StoreCluster) (event : StoreEvent) :
    (s.step event).server.kind = s.server.kind := by
  have hstep := step_spec s event
  generalize s.step event = s' at hstep ⊢
  cases hstep with
  | stays | registers | syncs | populates | moves | stores => rfl
  | serves => exact (ObjectStoreServer.registerObjectStore_serves ..).kind
  | listens =>
      dsimp only [ObjectStoreServer.listen]
      split <;> rfl

theorem kind_run (s : StoreCluster) (events : List StoreEvent) :
    (s.run events).server.kind = s.server.kind := by
  induction events generalizing s with
  | nil => rfl
  | cons event rest ih => exact (ih (s.step event)).trans (kind_step s event)

/-- Only the persistent server has disputes. -/
theorem throughout_undisputed (s : StoreCluster) (hkind : s.server.kind ≠ .goPersistent)
    (events : List StoreEvent) : WriteBehind.Throughout step Undisputed s events := by
  induction events generalizing s with
  | nil => trivial
  | cons event rest ih =>
      refine ⟨?_, ih (s.step event) (kind_step s event ▸ hkind)⟩
      cases event with
      | serve id => exact fun _ _ _ _ hdisputed => hkind hdisputed.1
      | _ => trivial

/-- Once the server has seen the request, it has a config for the bucket. -/
def Accepted (s : StoreCluster) (call : StoreCall) : Prop :=
  ∀ config phase, call.registration = some (config, phase) → phase ≠ .arriving →
    (s.server.objectStoreConfigs.find config.bucket).isSome

theorem Accepted.goes (hkind : s.server.kind ≠ .goPersistent) (hextends : Extends s s')
    {call call' : StoreCall} (h : s.Accepted call) (hgoes : Goes s s' call call') :
    s'.Accepted call' := by
  have hkept : s'.Accepted call := fun config phase hasked hphase =>
    hextends.isSome_server (h config phase hasked hphase)
  cases hgoes with
  | stays | moved | stored => exact hkept
  | populated code hasked =>
      intro config phase hsame _
      obtain ⟨rfl, -⟩ := Prod.mk.inj (Option.some.inj hsame)
      exact hkept _ _ hasked RegisterPhase.noConfusion
  | served hasked hserves =>
      intro config phase hsame hphase
      obtain ⟨rfl, rfl⟩ := Prod.mk.inj (Option.some.inj hsame)
      exact hserves.known hkind fun hbefore => h _ _ hasked hbefore

theorem Goes.node {call call' : StoreCall} (h : Goes s s' call call') :
    call'.node = call.node := by
  cases h <;> rfl

theorem Goes.asks {call call' : StoreCall} (h : Goes s s' call call')
    {config : ObjectStoreConfig} {phase : RegisterPhase}
    (hasks : call.registration = some (config, phase)) :
    ∃ phase', call'.registration = some (config, phase') := by
  cases h with
  | stays | moved | stored => exact ⟨phase, hasks⟩
  | served hasked | populated code hasked =>
      rw [hasked] at hasks
      obtain ⟨rfl, -⟩ := Prod.mk.inj (Option.some.inj hasks)
      exact ⟨_, rfl⟩

theorem Goes.syncs {call call' : StoreCall} (h : Goes s s' call call')
    (hsync : call.registration = none) : call'.registration = none := by
  cases h with
  | stays | moved | stored => exact hsync
  | served hasked | populated code hasked => cases hasked.symm.trans hsync

/-- A registration on its way to a store for its bucket. -/
def Registers (s : StoreCluster) (id node : Nat) (config : ObjectStoreConfig) : Prop :=
  ∃ call, s.calls[id]? = some call ∧ call.node = node ∧
    (∃ phase, call.registration = some (config, phase)) ∧ s.Accepted call ∧
      s.Due config.bucket call

theorem Registers.step (h : s.Sound) (hkind : s.server.kind ≠ .goPersistent) {id node : Nat}
    {config : ObjectStoreConfig} (hregisters : s.Registers id node config)
    (event : StoreEvent) : (s.step event).Registers id node config := by
  obtain ⟨call, hcall, hnode, ⟨phase, hasks⟩, haccepted, hdue⟩ := hregisters
  obtain ⟨call', hcall', hgoes⟩ := goes_step hcall event
  have hextends := extends_step h event
  refine ⟨call', hcall', hgoes.node.trans hnode, hgoes.asks hasks,
    haccepted.goes hkind hextends hgoes, hdue.goes h hextends hgoes ?_⟩
  intro _ asked code hanswer
  have hknown := haccepted asked _ hanswer RegisterPhase.noConfusion
  rw [hasks] at hanswer
  obtain ⟨rfl, -⟩ := Prod.mk.inj (Option.some.inj hanswer)
  exact hknown

/-- A synchronisation on its way to a store for a bucket that the server knows. -/
def Syncs (s : StoreCluster) (id node : Nat) (label : Bytes) : Prop :=
  ∃ call, s.calls[id]? = some call ∧ call.node = node ∧ call.registration = none ∧
    s.Due label call

theorem Syncs.step (h : s.Sound) {id node : Nat} {label : Bytes}
    (hsyncs : s.Syncs id node label) (event : StoreEvent) :
    (s.step event).Syncs id node label := by
  obtain ⟨call, hcall, hnode, hnone, hdue⟩ := hsyncs
  obtain ⟨call', hcall', hgoes⟩ := goes_step hcall event
  refine ⟨call', hcall', hgoes.node.trans hnode, hgoes.syncs hnone,
    hdue.goes h (extends_step h event) hgoes ?_⟩
  intro _ asked code hanswer
  cases hnone.symm.trans hanswer

theorem registers_run (h : s.Sound) (hkind : s.server.kind ≠ .goPersistent) {id node : Nat}
    {config : ObjectStoreConfig} (hregisters : s.Registers id node config)
    (events : List StoreEvent) :
    (s.run events).Sound ∧ (s.run events).Registers id node config := by
  induction events generalizing s with
  | nil => exact ⟨h, hregisters⟩
  | cons event rest ih =>
      exact ih (sound_step h (throughout_undisputed s hkind [event]).1)
        (kind_step s event ▸ hkind) (hregisters.step h hkind event)

theorem syncs_run (h : s.Sound) (hkind : s.server.kind ≠ .goPersistent) {id node : Nat}
    {label : Bytes} (hsyncs : s.Syncs id node label) (events : List StoreEvent) :
    (s.run events).Sound ∧ (s.run events).Syncs id node label := by
  induction events generalizing s with
  | nil => exact ⟨h, hsyncs⟩
  | cons event rest ih =>
      exact ih (sound_step h (throughout_undisputed s hkind [event]).1)
        (kind_step s event ▸ hkind) (hsyncs.step h event)

/-- A call that is due a store and has returned has it, and it is the server's. -/
theorem Due.returned (h : s.Sound) {label : Bytes} {call : StoreCall}
    (hdue : s.Due label call) (hreturned : call.caller = .returned .ok) :
    ∃ found, s.server.objectStoreConfigs.find label = some found ∧
      (s.stores call.node).find label = some found.endpoint := by
  rw [Due, hreturned] at hdue
  obtain ⟨endpoint, hendpoint⟩ := Option.isSome_iff_exists.1 (hdue rfl)
  obtain ⟨found, hfound, rfl⟩ := h.stores call.node label endpoint hendpoint
  exact ⟨found, hfound, hendpoint⟩

end InMemory

section Runs

/-- The stores of the nodes are what the server has, some call asked for it, nothing
changes later, and `syncObjectStoreConfigs` meets no other values. -/
structure Consistent (s s' : StoreCluster) : Prop where
  stores : ∀ node label endpoint, (s.stores node).find label = some endpoint →
    ∃ config, s.server.objectStoreConfigs.find label = some config ∧ config.bucket = label ∧
      config.endpoint = endpoint ∧ s.Asked config
  agree : ∀ node node' label endpoint endpoint', (s.stores node).find label = some endpoint →
    (s'.stores node').find label = some endpoint' → endpoint' = endpoint
  stable : Extends s s'
  syncs : ∀ call ∈ s.calls, ∀ config rest, call.caller = .syncing (config :: rest) →
    ((s.stores call.node).registerConfig config).1 = .ok

theorem consistent_of_sound (h : s.Sound) (h' : s'.Sound) (hextends : Extends s s') :
    s.Consistent s' where
  stores node label endpoint hfind := by
    obtain ⟨config, hconfig, hendpoint⟩ := h.stores node label endpoint hfind
    exact ⟨config, hconfig, h.keyed label config hconfig, hendpoint, h.asked label config hconfig⟩
  agree node node' label endpoint endpoint' hfind hfind' := by
    obtain ⟨config, hconfig, rfl⟩ := h.stores node label endpoint hfind
    obtain ⟨config', hconfig', rfl⟩ := h'.stores node' label endpoint' hfind'
    rw [hextends.server label config hconfig] at hconfig'
    rw [Option.some.inj hconfig']
  stable := hextends
  syncs call hmem config rest hcaller := by
    apply ObjectStores.registerConfig_ok
    intro endpoint hfind
    obtain ⟨found, hfound, rfl⟩ := h.stores call.node config.bucket endpoint hfind
    have hlisted := h.listed call hmem _ hcaller config List.mem_cons_self
    rw [hlisted] at hfound
    rw [Option.some.inj hfound]

/-- The nodes of a server that inserts under a lock agree in every run. -/
theorem run_consistent {kind : ServerKind} (hkind : kind ≠ .goPersistent)
    (events later : List StoreEvent) :
    ((start kind).run events).Consistent (((start kind).run events).run later) := by
  have hsound := sound_run (throughout_undisputed (start kind) hkind events)
  have hkind' : ((start kind).run events).server.kind ≠ .goPersistent := by
    rw [kind_run]
    exact hkind
  obtain ⟨hsound', hextends⟩ := sound_extends_run hsound (throughout_undisputed _ hkind' later)
  exact consistent_of_sound hsound hsound' hextends

namespace Sample

def first : ObjectStoreConfig := ⟨[98], [49], [107], [115]⟩

def second : ObjectStoreConfig := ⟨[98], [50], [107], [115]⟩

/-- The second registration finds the first one's config. -/
def registrations : List StoreEvent :=
  [.registerObjectStoreConfig 0 first, .registerObjectStoreConfig 1 second, .serve 0,
    .populateKVS 0 .ok, .receive 0, .createBucket 0 .ok, .listObjectStores 0 [first],
    .registerStore 0, .registerStore 0]

theorem registrations_consistent :
    let s := (start .cpp).run registrations
    s.Consistent (s.run [.serve 1]) ∧ (s.stores 0).find first.bucket = some first.endpoint :=
  ⟨run_consistent (by decide) _ _, by decide⟩

end Sample

/-- With such a server, a registration that returns `OK` leaves its node with the store that
the server has for the bucket, and a synchronisation with all that the server had when it
started; also when other calls overtake them or lose their answers. -/
theorem run_stores_delivered {kind : ServerKind} (hkind : kind ≠ .goPersistent)
    (before after : List StoreEvent) (node : Nat) :
    let s := (start kind).run before
    (∀ config, let s' := (s.step (.registerObjectStoreConfig node config)).run after
      ∀ call, s'.calls[s.calls.length]? = some call → call.caller = .returned .ok →
        ∃ found, s'.server.objectStoreConfigs.find config.bucket = some found ∧
          (s'.stores node).find config.bucket = some found.endpoint) ∧
    ∀ label found, s.server.objectStoreConfigs.find label = some found →
      let s' := (s.step (.syncObjectStoreConfigs node)).run after
      ∀ call, s'.calls[s.calls.length]? = some call → call.caller = .returned .ok →
        (s'.stores node).find label = some found.endpoint := by
  intro s
  have hsound : s.Sound := sound_run (throughout_undisputed (start kind) hkind before)
  have hkind' : s.server.kind ≠ .goPersistent := by
    rw [kind_run]
    exact hkind
  have hundisputed : ∀ event, s.Undisputed event := fun event =>
    (throughout_undisputed s hkind' [event]).1
  have hlast : ∀ call : StoreCall, (s.calls ++ [call])[s.calls.length]? = some call := fun call =>
    List.getElem?_concat_length
  constructor
  · intro config s' call hcall hreturned
    have hstarts : (s.step (.registerObjectStoreConfig node config)).Registers s.calls.length
        node config := by
      refine ⟨_, hlast _, rfl, ⟨_, rfl⟩, ?_, trivial⟩
      intro asked phase hasked hphase
      cases hasked
      exact absurd rfl hphase
    obtain ⟨hsound', found, hfound, rfl, -, -, hdue⟩ := registers_run
      (sound_step hsound (hundisputed _)) (by exact hkind') hstarts after
    obtain rfl := Option.some.inj (hcall.symm.trans hfound)
    exact hdue.returned hsound' hreturned
  · intro label config hfind s' call hcall hreturned
    have hstarts : (s.step (.syncObjectStoreConfigs node)).Syncs s.calls.length node label :=
      ⟨_, hlast _, rfl, rfl, Option.isSome_of_eq_some hfind⟩
    obtain ⟨hsound', found, hfound, hnode, -, hdue⟩ := syncs_run
      (sound_step hsound (hundisputed _)) (by exact hkind') hstarts after
    obtain rfl := Option.some.inj (hcall.symm.trans hfound)
    obtain ⟨config', hconfig', hstore⟩ := hdue.returned hsound' hreturned
    have hextends := (sound_extends_run hsound
      (throughout_undisputed s hkind' (.syncObjectStoreConfigs node :: after))).2
    rw [← hnode, hstore, Option.some.inj ((hextends.server label config hfind).symm.trans hconfig')]

namespace Sample

/-- The second registration goes on after the first one and takes over its store. -/
theorem second_delivered :
    let s := (start .cpp).run registrations
    let s' := (s.step (.registerObjectStoreConfig 1 second)).run
      [.serve 2, .receive 2, .createBucket 2 .ok, .listObjectStores 2 [first],
        .registerStore 2, .registerStore 2]
    (s'.calls[2]?.map StoreCall.caller) = some (.returned .ok) ∧
      ∃ found, s'.server.objectStoreConfigs.find second.bucket = some found ∧
        (s'.stores 1).find second.bucket = some found.endpoint :=
  ⟨rfl, (run_stores_delivered (by decide) registrations _ 1).1 second
    ⟨1, some (second, .answered .alreadyExists), .returned .ok⟩ rfl rfl⟩

end Sample

/-- The nodes of the persistent server agree in every run in which no registration reads
LevelDB while another one with different values for the same bucket has read it and is not
applied yet. -/
theorem run_persistent_consistent {events later : List StoreEvent}
    (hevents : WriteBehind.Throughout step Undisputed (start .goPersistent) events)
    (hlater : WriteBehind.Throughout step Undisputed ((start .goPersistent).run events) later) :
    ((start .goPersistent).run events).Consistent
      (((start .goPersistent).run events).run later) := by
  have hsound := sound_run hevents
  obtain ⟨hsound', hextends⟩ := sound_extends_run hsound hlater
  exact consistent_of_sound hsound hsound' hextends

namespace Sample

theorem repeated_consistent :
    let s := (start .goPersistent).run
      [.registerObjectStoreConfig 0 first, .registerObjectStoreConfig 1 first, .serve 0, .serve 1]
    s.Consistent (s.run [.serve 0, .serve 1, .listen]) ∧ s.pending = [first, first] := by
  refine ⟨run_persistent_consistent ⟨trivial, trivial, ?_, ?_, trivial⟩
    ⟨?_, ?_, trivial, trivial⟩, rfl⟩
  · rintro call hcall config hasked ⟨-, -, other, hmem, -⟩
    cases hmem
  · rintro call hcall config hasked ⟨-, -, other, hmem, -, hne⟩
    obtain rfl := Option.some.inj hcall
    cases hasked
    exact hne (List.mem_singleton.1 hmem)
  · rintro call hcall config hasked
    obtain rfl := Option.some.inj hcall
    cases hasked
  · rintro call hcall config hasked
    obtain rfl := Option.some.inj hcall
    cases hasked

end Sample

/-- A call that is listing copies a list of one config. -/
def syncOne (id : Nat) (config : ObjectStoreConfig) : List StoreEvent :=
  [.listObjectStores id [config], .registerStore id, .registerStore id]

/-- Two registrations of which both read LevelDB before either sends; the first config
is applied. -/
def passing (node node' : Nat) (first second : ObjectStoreConfig) : List StoreEvent :=
  [.registerObjectStoreConfig node first, .registerObjectStoreConfig node' second,
    .serve 0, .serve 1, .serve 0, .serve 1, .receive 0, .receive 1, .createBucket 0 .ok,
    .createBucket 1 .ok, .listen]

theorem run_syncOne (s : StoreCluster) {id : Nat} {call : StoreCall} {config : ObjectStoreConfig}
    (hcall : s.calls[id]? = some call) (hcaller : call.caller = .listing)
    (hlist : s.server.listObjectStores = [config]) :
    s.run (syncOne id config) =
      { s with
        stores := Function.update s.stores call.node
          ((s.stores call.node).registerConfig config).2
        calls := s.calls.set id { call with caller := .returned .ok } } := by
  obtain ⟨hlt, -⟩ := List.getElem?_eq_some_iff.1 hcall
  have hself : ∀ new, (s.calls.set id new)[id]? = some new := fun new =>
    List.getElem?_set_self hlt
  have hlisted : s.step (.listObjectStores id [config]) =
      s.setCaller id call (.syncing [config]) := by
    rw [step, stepCall, hcall]
    dsimp only
    rw [listObjectStores, hcaller, hlist]
    exact if_pos (List.Perm.refl _)
  rw [run, syncOne, List.foldl_cons, hlisted, List.foldl_cons, step, stepCall, setCaller, hself]
  dsimp only [registerStore]
  rw [List.foldl_cons, List.foldl_nil, step, stepCall, List.set_set, hself]
  dsimp only [registerStore, setCaller]
  rw [List.set_set]

theorem run_append (s : StoreCluster) (events later : List StoreEvent) :
    s.run (events ++ later) = (s.run events).run later := List.foldl_append

/-- The two calls that passed each other, and what they are doing. -/
def passingCalls (node node' : Nat) (first second : ObjectStoreConfig)
    (caller caller' : CallerPhase) : List StoreCall :=
  [⟨node, some (first, .answered .ok), caller⟩, ⟨node', some (second, .answered .ok), caller'⟩]

/-- Both requests find nothing in LevelDB, and both configs are sent. -/
theorem run_passing (node node' : Nat) (first second : ObjectStoreConfig) :
    (start .goPersistent).run (passing node node' first second) =
      ⟨⟨.goPersistent, OrderedMap.empty.insert first.bucket first, [second]⟩,
        fun _ => OrderedMap.empty, passingCalls node node' first second .listing .listing⟩ := by
  simp [passing, run, step, stepCall, start, serve, receive, createBucket, setCaller,
    ObjectStoreServer.registerObjectStore, ObjectStoreServer.listen, CallerPhase.afterRegister,
    CallerPhase.afterCreateBucket, PersistentStore.channelBufferSize, passingCalls]

theorem listObjectStores_insert (server : ObjectStoreServer) {first second : ObjectStoreConfig}
    (hbucket : second.bucket = first.bucket)
    (hserver : server.objectStoreConfigs = (OrderedMap.empty.insert first.bucket first).insert
      second.bucket second) :
    server.listObjectStores = [second] := by
  rw [ObjectStoreServer.listObjectStores, hserver, hbucket]
  simp [OrderedMap.insert, OrderedMap.empty, insertEntry]

/-- Each node copies what LevelDB has when it lists. -/
theorem run_disagreeing (node node' : Nat) {first second : ObjectStoreConfig}
    (hbucket : second.bucket = first.bucket) :
    ∃ server, (start .goPersistent).run
        (passing node node' first second ++ (syncOne 0 first ++ (.listen :: syncOne 1 second))) =
      ⟨server,
        Function.update
          (Function.update (fun _ => OrderedMap.empty) node
            (ObjectStores.registerConfig OrderedMap.empty first).2) node'
          (ObjectStores.registerConfig (Function.update (fun _ => OrderedMap.empty) node
            (ObjectStores.registerConfig OrderedMap.empty first).2 node') second).2,
        passingCalls node node' first second (.returned .ok) (.returned .ok)⟩ := by
  have hsync := @run_syncOne
    ⟨⟨.goPersistent, OrderedMap.empty.insert first.bucket first, [second]⟩,
      fun _ => OrderedMap.empty, passingCalls node node' first second .listing .listing⟩
    0 ⟨node, some (first, .answered .ok), .listing⟩ first rfl rfl rfl
  have hsync' := @run_syncOne
    ⟨⟨.goPersistent, (OrderedMap.empty.insert first.bucket first).insert second.bucket second, []⟩,
      Function.update (fun _ => OrderedMap.empty) node
        (ObjectStores.registerConfig OrderedMap.empty first).2,
      passingCalls node node' first second (.returned .ok) .listing⟩
    1 ⟨node', some (second, .answered .ok), .listing⟩ second rfl rfl
    (listObjectStores_insert _ hbucket rfl)
  refine ⟨⟨.goPersistent,
    (OrderedMap.empty.insert first.bucket first).insert second.bucket second, []⟩, ?_⟩
  rw [run_append, run_passing, run_append, hsync]
  exact hsync'

namespace Sample

end Sample

end Runs

end StoreCluster

end GEDS
