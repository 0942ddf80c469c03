/-
The locks of file handles are taken in an order, with three exceptions, and what a wrapper wraps
is replaced only while nobody works with it.
-/
import GEDS.HandleLocks

namespace GEDS

namespace HandleLocks

open LockedPrograms

/-- The order of the locks: a wrapper, what it wraps, the blocks of a cached handle, its handle
of the object, and last the handles of the blocks and the registry. -/
def NodeLock.rank : NodeLock → Nat
  | .file (.registered handle) => if handle.isBlock then 7 else 0
  | .io (.registered handle) => if handle.isBlock then 8 else 1
  | .io (.inner wrapper _) => if wrapper.isBlock then 9 else 2
  | .file (.inner wrapper _) => if wrapper.isBlock then 10 else 3
  | .block _ _ _ => 4
  | .file (.remote _ _) => 5
  | .io (.remote _ _) => 6
  | .registry => 11

/-- The bytes of a wrapped handle are accessed behind the lock of the wrapper. -/
def NodeLock.gate : NodeLock → Option NodeLock
  | .io (.inner wrapper _) => some (.io (.registered wrapper))
  | _ => none

/-- What guards `_fileHandle` of a wrapper. -/
def guards (wrapper : Handle) : List NodeLock :=
  [.file (.registered wrapper), .io (.registered wrapper)]

/-- Code that keeps to the order, if it is orderly, and to the guards. -/
abbrev Keeps {α : Type} (orderly : Bool) (held : List (NodeLock × LockMode))
    (inside : List Handle) (code : HandleCode α) : Prop :=
  Fits NodeLock.recursive NodeLock.rank NodeLock.gate NodeHandles.fileHandle guards orderly held
    inside code

/-- Only locks of smaller rank are held. -/
def Below (rank : Nat) (held : List (NodeLock × LockMode)) : Prop :=
  ∀ hold ∈ held, hold.1.rank < rank

@[simp] theorem below_nil {rank : Nat} : Below rank [] := fun _ hmem => absurd hmem List.not_mem_nil

@[simp] theorem below_cons {rank : Nat} {hold : NodeLock × LockMode}
    {held : List (NodeLock × LockMode)} :
    Below rank (hold :: held) ↔ hold.1.rank < rank ∧ Below rank held :=
  List.forall_mem_cons

theorem Below.mono {rank rank' : Nat} {held : List (NodeLock × LockMode)} (h : Below rank held)
    (hle : rank ≤ rank') : Below rank' held :=
  fun hold hhold => (h hold hhold).trans_le hle

section Locks

variable {α : Type} {orderly : Bool} {held : List (NodeLock × LockMode)} {inside : List Handle}
  {lock : NodeLock} {mode : LockMode} {body : HandleCode α} {name : HandleName}

/-- A lock that is taken in the order. -/
theorem keeps_locked (hbelow : Below lock.rank held) (hgate : lock.gate = none)
    (hbody : Keeps orderly ((lock, mode) :: held) inside body) :
    Keeps orderly held inside (body.locked lock mode) :=
  .locked (fun _ => ⟨Or.inl hbelow, fun front hfront => by rw [hgate] at hfront; cases hfront⟩) hbody

theorem keeps_lockFile (hbelow : Below (NodeLock.file name).rank held)
    (hbody : Keeps orderly ((.file name, .exclusive) :: held) inside body) :
    Keeps orderly held inside (lockFile name body) :=
  keeps_locked hbelow rfl hbody

/-- The lock of the file is recursive. -/
theorem keeps_lockFile_again (hheld : (NodeLock.file name, LockMode.exclusive) ∈ held)
    (hbody : Keeps orderly ((.file name, .exclusive) :: held) inside body) :
    Keeps orderly held inside (lockFile name body) :=
  .locked (fun _ => ⟨Or.inr (Or.inl ⟨rfl, hheld⟩), fun _ hfront => by cases hfront⟩) hbody

theorem keeps_readRegistry {read : NodeHandles → α} (hbelow : Below 11 held) :
    Keeps orderly held inside (readRegistry read) :=
  keeps_locked hbelow rfl (.ask _)

theorem keeps_act {effect : NodeHandles → Answer → NodeHandles} {read : NodeHandles → Answer → α}
    (heffect : ∀ s answer, (effect s answer).replaced = s.replaced) :
    Keeps orderly held inside (.act effect read) :=
  .act fun part => Or.inl fun s answer => by
    rw [NodeHandles.fileHandle, NodeHandles.fileHandle, heffect]

theorem keeps_count {change : Int} {read : NodeHandles → Answer → α} :
    Keeps orderly held inside (.act (fun s _ => s.count name change) read) :=
  keeps_act fun _ _ => rfl

theorem keeps_invalidate {read : NodeHandles → Answer → α} :
    Keeps orderly held inside (.act (fun s _ => s.invalidate name) read) :=
  keeps_act fun _ _ => rfl

theorem keeps_setBlock {wrapper : Handle} {number idx : Nat} {block : Option Block}
    {read : NodeHandles → Answer → α} :
    Keeps orderly held inside (.act (fun s _ => s.setBlock wrapper number idx block) read) :=
  keeps_act fun _ _ => rfl

theorem keeps_writeRegistry {effect : NodeHandles → NodeHandles} {read : NodeHandles → α}
    (hbelow : Below 11 held) (heffect : ∀ s, (effect s).replaced = s.replaced) :
    Keeps orderly held inside (writeRegistry effect read) :=
  keeps_locked hbelow rfl (keeps_act fun s _ => heffect s)

theorem keeps_answered : Keeps orderly held inside answered := .ask _

theorem keeps_allAnswered (questions : Nat) : Keeps orderly held inside (allAnswered questions) := by
  induction questions with
  | zero => exact .result true
  | succ questions ih =>
      refine keeps_answered.andThen fun ok => ?_
      cases ok with
      | false => exact .result false
      | true => exact ih

theorem keeps_endpointReadBytes {length : Nat} :
    Keeps orderly held inside (endpointReadBytes length) := by
  rw [endpointReadBytes]
  split_ifs
  · exact .result true
  · exact keeps_answered

theorem keeps_newNumber : Keeps orderly held inside newNumber := keeps_act fun _ _ => rfl

/-- Code that holds the lock of the file, or may take it. -/
def MayLock (name : HandleName) (held : List (NodeLock × LockMode)) : Prop :=
  Below (NodeLock.file name).rank held ∨ (NodeLock.file name, LockMode.exclusive) ∈ held

theorem keeps_lockFile_or (hmay : MayLock name held)
    (hbody : Keeps orderly ((.file name, .exclusive) :: held) inside body) :
    Keeps orderly held inside (lockFile name body) := by
  rcases hmay with hbelow | hheld
  · exact keeps_lockFile hbelow hbody
  · exact keeps_lockFile_again hheld hbody

theorem keeps_increaseOpenCount (hmay : MayLock name held) :
    Keeps orderly held inside (increaseOpenCount name) :=
  keeps_lockFile_or hmay keeps_count

theorem keeps_openHandle (hmay : MayLock name held) :
    Keeps orderly held inside (openHandle name) :=
  keeps_lockFile_or hmay (keeps_increaseOpenCount (Or.inr List.mem_cons_self))

theorem keeps_isValid (hmay : MayLock name held) : Keeps orderly held inside (isValid name) :=
  keeps_lockFile_or hmay (.ask _)

theorem keeps_metadata (hmay : MayLock name held) : Keeps orderly held inside (metadata name) :=
  keeps_lockFile_or hmay (.result ())

theorem keeps_sealObject (hmay : MayLock name held) : Keeps orderly held inside (sealObject name) :=
  (keeps_metadata hmay).andThen fun _ => keeps_answered

theorem keeps_insertOrExists {get : NodeHandles → Option α} {handle : α → Handle} {new : α}
    (hbelow : Below 11 held) : Keeps orderly held inside (insertOrExists get handle new) := by
  refine keeps_writeRegistry hbelow fun s => ?_
  cases get s with
  | none => rfl
  | some found => rfl

theorem keeps_openAs {get : NodeHandles → Option α} {handle : α → Handle}
    {new : Nat → InnerHandle → α} (hbelow : Below 11 held) :
    Keeps orderly held inside (openAs get handle new) := by
  refine (keeps_readRegistry hbelow).andThen fun found => ?_
  cases found with
  | some found => exact .result _
  | none =>
      refine keeps_answered.andThen fun ok => ?_
      cases ok with
      | false => exact .result none
      | true =>
          exact keeps_newNumber.andThen fun inner => keeps_newNumber.andThen fun number =>
            (Fits.ask _).andThen fun opened =>
            (keeps_insertOrExists hbelow).andThen fun item => .result (some item)

end Locks

section Registered

variable {α : Type} {orderly : Bool} {held : List (NodeLock × LockMode)} {inside : List Handle}
  {handle : Handle} {body : HandleCode α} {mode : LockMode}

theorem rank_file_lt_io :
    (NodeLock.file (.registered handle)).rank < (NodeLock.io (.registered handle)).rank := by
  simp only [NodeLock.rank]
  split_ifs <;> omega

theorem rank_io_lt_inner {number : Nat} :
    (NodeLock.io (.registered handle)).rank < (NodeLock.io (.inner handle number)).rank := by
  simp only [NodeLock.rank]
  split_ifs <;> omega

theorem rank_inner_lt_file {number : Nat} :
    (NodeLock.io (.inner handle number)).rank < (NodeLock.file (.inner handle number)).rank := by
  simp only [NodeLock.rank]
  split_ifs <;> omega

theorem rank_io_lt_registry : (NodeLock.io (.registered handle)).rank < NodeLock.registry.rank := by
  simp only [NodeLock.rank]
  split_ifs <;> omega

theorem keeps_lockIo (hbelow : Below (NodeLock.io (.registered handle)).rank held)
    (hbody : Keeps orderly ((.io (.registered handle), mode) :: held) inside body) :
    Keeps orderly held inside (body.locked (.io (.registered handle)) mode) :=
  keeps_locked hbelow rfl hbody

/-- The handle may be locked for a change of what it is. -/
structure MayChange (handle : Handle) (held : List (NodeLock × LockMode)) : Prop where
  mayLock : MayLock (.registered handle) held
  below : Below (NodeLock.io (.registered handle)).rank held

theorem mayChange_of_below (hbelow : Below (NodeLock.file (.registered handle)).rank held) :
    MayChange handle held :=
  ⟨Or.inl hbelow, hbelow.mono rank_file_lt_io.le⟩

/-- Both locks of the handle, on top of the others. -/
def bothLocks (handle : Handle) (held : List (NodeLock × LockMode)) : List (NodeLock × LockMode) :=
  (.io (.registered handle), .exclusive) :: (.file (.registered handle), .exclusive) :: held

theorem MayChange.file (h : MayChange handle held) :
    MayChange handle ((.file (.registered handle), .exclusive) :: held) :=
  ⟨Or.inr List.mem_cons_self, below_cons.2 ⟨rank_file_lt_io, h.below⟩⟩

theorem keeps_lockBoth (hmay : MayChange handle held)
    (hbody : Keeps orderly (bothLocks handle held) inside body) :
    Keeps orderly held inside
      (lockFile (.registered handle) (lockExclusive (.registered handle) body)) :=
  keeps_lockFile_or hmay.mayLock
    (keeps_lockIo (below_cons.2 ⟨rank_file_lt_io, hmay.below⟩) hbody)

theorem mayLock_bothLocks : MayLock (.registered handle) (bothLocks handle held) :=
  Or.inr (List.mem_cons_of_mem _ List.mem_cons_self)

theorem keeps_localAccess (hbelow : Below (NodeLock.io (.registered handle)).rank held) :
    Keeps orderly held inside (localAccess (.registered handle)) :=
  keeps_lockIo hbelow keeps_answered

theorem keeps_localSeal (hmay : MayChange handle held) :
    Keeps orderly held inside (localSeal (.registered handle)) :=
  keeps_lockBoth hmay (keeps_sealObject mayLock_bothLocks)

theorem keeps_localNotifyUnused (hmay : MayChange handle held) :
    Keeps orderly held inside (localNotifyUnused (.registered handle)) := by
  refine keeps_lockBoth hmay ((Fits.ask _).andThen fun used => ?_)
  cases used with
  | true => exact .result ()
  | false => exact keeps_answered.andThen fun _ => .result ()

/-- Somebody works with the wrapped handle under one of the locks that guard it. -/
theorem keeps_working {work : InnerHandle → HandleCode α}
    (hread : MayRead (guards handle) held)
    (hwork : ∀ inner, Keeps orderly held (handle :: inside) (work inner)) :
    Keeps orderly held inside (.working handle work) :=
  .working hread hwork

theorem mayRead_file : MayRead (guards handle) ((.file (.registered handle), mode) :: held) :=
  ⟨_, List.mem_cons_self, List.mem_cons_self⟩

theorem mayRead_io : MayRead (guards handle) ((.io (.registered handle), mode) :: held) :=
  ⟨_, List.mem_cons_self, List.mem_cons_of_mem _ List.mem_cons_self⟩

/-- The wrapper gets a new handle under both of its locks, while nobody works with the old one. -/
theorem keeps_setFileHandle {read : NodeHandles → Answer → α} {inner : InnerHandle}
    (hinside : handle ∉ inside) :
    Keeps orderly (bothLocks handle held) inside
      (.act (fun s _ => s.setFileHandle handle inner) read) := by
  refine .act fun part => ?_
  by_cases hpart : part = handle
  · subst hpart
    refine Or.inr ⟨fun lock hlock => ?_, hinside⟩
    simp only [guards, List.mem_cons, List.not_mem_nil, or_false] at hlock
    rcases hlock with rfl | rfl
    · exact List.mem_cons_of_mem _ List.mem_cons_self
    · exact List.mem_cons_self
  · refine Or.inl fun s answer => ?_
    simp only [NodeHandles.fileHandle, NodeHandles.setFileHandle, Function.update_of_ne hpart]

/-- The locks under which the bytes of what is wrapped are accessed. -/
structure Inside (wrapper : Handle) (held : List (NodeLock × LockMode)) : Prop where
  behind : ∃ hold ∈ held, hold.1 = .io (.registered wrapper)
  below : ∀ number, Below (NodeLock.io (.inner wrapper number)).rank held

theorem inside_io (hbelow : Below (NodeLock.io (.registered handle)).rank held) :
    Inside handle ((.io (.registered handle), mode) :: held) :=
  ⟨⟨_, List.mem_cons_self, rfl⟩,
    fun _ => below_cons.2 ⟨rank_io_lt_inner, hbelow.mono rank_io_lt_inner.le⟩⟩

theorem inside_bothLocks (hmay : MayChange handle held) : Inside handle (bothLocks handle held) :=
  inside_io hmay.file.below

/-- The bytes of a wrapped handle are locked behind the lock of its wrapper. -/
theorem keeps_lockInner (h : Inside handle held) {number : Nat}
    (hbody : Keeps orderly ((.io (.inner handle number), mode) :: held) inside body) :
    Keeps orderly held inside (body.locked (.io (.inner handle number)) mode) := by
  refine .locked (fun _ => ⟨Or.inl (h.below number), fun front hfront => ?_⟩) hbody
  obtain rfl := Option.some.inj hfront
  exact h.behind

theorem keeps_remoteReadBytes (h : Inside handle held) {number length : Nat} :
    Keeps orderly held inside (remoteReadBytes (.inner handle number) length) := by
  rw [remoteReadBytes]
  split_ifs
  · exact .result true
  · exact keeps_lockInner h keeps_answered

/-- A read through a wrapper keeps to the order if reads of what it wraps do. -/
theorem keeps_wrapperReadBytes (hmay : MayChange handle held) (hinside : handle ∉ inside)
    {readInner : InnerHandle → HandleCode Bool} {dropInner : InnerHandle → HandleCode Unit}
    (hread : ∀ held inner, Inside handle held →
      Keeps orderly held (handle :: inside) (readInner inner))
    (hdrop : ∀ inner, Keeps orderly (bothLocks handle held) inside (dropInner inner)) :
    Keeps orderly held inside (wrapperReadBytes handle readInner dropInner) := by
  have hboth := inside_bothLocks hmay
  refine (keeps_lockIo hmay.below (keeps_working mayRead_io fun inner =>
    (hread _ inner (inside_io hmay.below)).andThen fun ok => .result _)).andThen fun first => ?_
  obtain ⟨oldFh, ok⟩ := first
  cases ok with
  | true => exact .result true
  | false =>
      refine keeps_lockBoth hmay ((keeps_working mayRead_io fun inner => ?_).andThen fun again => ?_)
      · change Keeps _ _ _ (if inner.address ≠ oldFh then _ else _)
        split_ifs
        · exact (hread _ inner hboth).andThen fun ok => .result (some ok)
        · exact .result none
      · cases again with
        | some ok => exact .result ok
        | none =>
            refine Fits.andThen ?_ fun newFh => ?_
            · refine keeps_answered.andThen fun ok => ?_
              cases ok with
              | false => exact .result none
              | true => exact keeps_newNumber.andThen fun number => .ask _
            · cases newFh with
              | none => exact .result false
              | some newFh =>
                  exact (keeps_setFileHandle hinside).andThen fun replaced =>
                    (hdrop replaced).andThen fun _ => keeps_working mayRead_io fun inner =>
                      hread _ inner hboth

end Registered

section Blocks

variable {orderly : Bool} {held : List (NodeLock × LockMode)} {inside : List Handle}
  {block : Block}

theorem mayChange_block (hbelow : Below 7 held) : MayChange block.1 held := by
  refine mayChange_of_below (hbelow.mono ?_)
  simp only [NodeLock.rank, if_pos block.2, le_refl]

theorem below_io_block (hbelow : Below 7 held) :
    Below (NodeLock.io (.registered block.1)).rank held :=
  (mayChange_block hbelow).below

/-- Someone who works with wrappers of files works with no wrapper of a block. -/
theorem block_not_mem (hinside : ∀ part ∈ inside, part.isBlock = false) : block.1 ∉ inside := by
  intro hmem
  have hblock := block.2
  rw [hinside _ hmem] at hblock
  cases hblock

theorem keeps_blockRead {length : Nat} (hbelow : Below 7 held)
    (hinside : ∀ part ∈ inside, part.isBlock = false) :
    Keeps orderly held inside (blockRead block length) := by
  rw [blockRead]
  cases hclass : block.1.handleClass with
  | localFile => exact keeps_localAccess (below_io_block hbelow)
  | s3 => exact absurd hclass (block.1.block_ne_s3 block.2)
  | relocatable wrapped =>
      exact keeps_wrapperReadBytes (mayChange_block hbelow) (block_not_mem hinside)
        (fun _ _ h => keeps_remoteReadBytes h) fun _ => .result ()

theorem keeps_blockNotifyUnused (hmay : MayChange block.1 held) :
    Keeps orderly held inside (blockNotifyUnused block) := by
  rw [blockNotifyUnused]
  cases block.1.handleClass with
  | localFile => exact keeps_localNotifyUnused hmay
  | s3 => exact .result ()
  | relocatable wrapped =>
      exact keeps_lockBoth hmay (keeps_working mayRead_io fun _ => .result ())

theorem keeps_dropFile (hbelow : Below 7 held) : Keeps orderly held inside (dropFile block) := by
  have hmay := @mayChange_block held block hbelow
  refine keeps_lockFile_or hmay.mayLock (keeps_count.andThen fun unused => ?_)
  cases unused with
  | true => exact keeps_blockNotifyUnused hmay.file
  | false => exact .result ()

theorem keeps_dropFiles (hbelow : Below 7 held) : Keeps orderly held inside (dropFiles block) :=
  (keeps_dropFile hbelow).andThen fun _ => keeps_dropFile hbelow

theorem keeps_copyFile (hbelow : Below 7 held) : Keeps orderly held inside (copyFile block) :=
  keeps_increaseOpenCount (mayChange_block hbelow).mayLock

theorem keeps_blockLocalSize (hbelow : Below 7 held) :
    Keeps orderly held inside (blockLocalSize block) := by
  rw [blockLocalSize]
  cases block.1.handleClass with
  | localFile => exact keeps_answered
  | s3 => exact .result false
  | relocatable wrapped =>
      exact keeps_lockIo (below_io_block hbelow) (keeps_working mayRead_io fun _ => .result false)

theorem keeps_deleteBlockObject (hbelow : Below 7 held) :
    Keeps orderly held inside (deleteBlockObject block) := by
  refine keeps_answered.andThen fun ok => ?_
  cases ok with
  | false => exact .result ()
  | true => exact keeps_writeRegistry (hbelow.mono (by omega)) fun _ => rfl

end Blocks

section Cached

variable {orderly : Bool} {held : List (NodeLock × LockMode)} {inside : List Handle}
  {wrapper : Handle} {number idx : Nat}

theorem keeps_openBlockFile (hbelow : Below 7 held) :
    Keeps orderly held inside (openBlockFile wrapper idx) := by
  refine (keeps_openAs (hbelow.mono (by omega))).andThen fun opened => ?_
  cases opened with
  | none => exact .result none
  | some block =>
      exact keeps_lockFile_or (mayChange_block hbelow).mayLock
        ((keeps_isValid (Or.inr List.mem_cons_self)).andThen fun _ =>
          (keeps_openHandle (Or.inr List.mem_cons_self)).andThen fun _ => .result (some block))

theorem keeps_createBlock (hbelow : Below 7 held) :
    Keeps orderly held inside (createBlock wrapper idx) := by
  refine (keeps_allAnswered 2).andThen fun ok => ?_
  cases ok with
  | false => exact .result none
  | true =>
      exact keeps_newNumber.andThen fun made =>
        (keeps_insertOrExists (hbelow.mono (by omega))).andThen fun block => .result _

theorem keeps_storeBlock {block : Block} (hbelow : Below 7 held) :
    Keeps orderly held inside (storeBlock wrapper number idx block) := by
  refine keeps_setBlock.andThen fun found => ?_
  cases found with
  | none => exact .result ()
  | some replaced => exact keeps_dropFile hbelow

theorem keeps_downloadBlock (hbelow : Below 7 held) :
    Keeps orderly held inside (downloadBlock wrapper number idx) := by
  refine (keeps_createBlock hbelow).andThen fun created => ?_
  cases created with
  | none => exact .result none
  | some block =>
      have hmay := @mayChange_block held block hbelow
      refine keeps_answered.andThen fun ok => ?_
      cases ok with
      | false => exact .result none
      | true =>
          refine (keeps_localAccess hmay.below).andThen fun written => ?_
          cases written with
          | false => exact .result none
          | true =>
              exact (keeps_openHandle hmay.mayLock).andThen fun _ =>
                (keeps_openHandle hmay.mayLock).andThen fun _ =>
                (keeps_storeBlock hbelow).andThen fun _ =>
                (keeps_localSeal hmay).andThen fun _ =>
                (keeps_copyFile hbelow).andThen fun _ =>
                (keeps_dropFile hbelow).andThen fun _ => .result (some block)

/-- The lock of a block, under which the handles of blocks may be locked. -/
theorem keeps_lockBlock {α : Type} {body : HandleCode α} (hbelow : Below 4 held)
    (hbody : Below 7 ((.block wrapper number idx, LockMode.exclusive) :: held) →
      Keeps orderly ((.block wrapper number idx, .exclusive) :: held) inside body) :
    Keeps orderly held inside (body.locked (.block wrapper number idx) .exclusive) :=
  keeps_locked hbelow rfl
    (hbody (below_cons.2 ⟨by simp only [NodeLock.rank]; omega, hbelow.mono (by omega)⟩))

theorem keeps_openBlock (hbelow : Below 4 held) :
    Keeps orderly held inside (openBlock wrapper number idx) := by
  refine (Fits.ask _).andThen fun found => ?_
  cases found with
  | some block => exact (keeps_copyFile (hbelow.mono (by omega))).andThen fun _ => .result _
  | none =>
      refine keeps_lockBlock hbelow fun hblock => (keeps_openBlockFile hblock).andThen fun opened => ?_
      cases opened with
      | none => exact keeps_downloadBlock hblock
      | some block =>
          exact (keeps_storeBlock hblock).andThen fun _ =>
            (keeps_copyFile hblock).andThen fun _ => .result _

theorem keeps_purgeBlock {file : Block} (hbelow : Below 4 held) :
    Keeps orderly held inside (purgeBlock wrapper number idx file) := by
  refine keeps_lockBlock hbelow fun hblock => (Fits.ask _).andThen fun found => ?_
  cases found with
  | none => exact .result ()
  | some block =>
      change Keeps _ _ _ (if block = file then _ else _)
      split_ifs
      · exact keeps_setBlock.andThen fun _ => (keeps_dropFile hblock).andThen fun _ =>
          keeps_deleteBlockObject hblock
      · exact .result ()

theorem keeps_tryBlock {length : Nat} {failed : Block → HandleCode Bool} (hbelow : Below 4 held)
    (hinside : ∀ part ∈ inside, part.isBlock = false)
    (hfailed : ∀ block, Keeps orderly held inside (failed block)) :
    Keeps orderly held inside (tryBlock wrapper number length idx failed) := by
  have hblock := hbelow.mono (by omega : 4 ≤ 7)
  refine (keeps_openBlock hbelow).andThen fun opened => ?_
  cases opened with
  | none => exact .result false
  | some block =>
      refine (keeps_copyFile hblock).andThen fun _ =>
        (keeps_blockRead hblock hinside).andThen fun ok => ?_
      cases ok with
      | true => exact (keeps_dropFiles hblock).andThen fun _ => .result true
      | false => exact hfailed block

theorem keeps_readBlock {length retries : Nat} (hbelow : Below 4 held)
    (hinside : ∀ part ∈ inside, part.isBlock = false) :
    Keeps orderly held inside (readBlock wrapper number length idx retries) := by
  have hblock := hbelow.mono (by omega : 4 ≤ 7)
  induction retries with
  | zero =>
      exact keeps_tryBlock hbelow hinside fun block =>
        (keeps_dropFiles hblock).andThen fun _ => .result false
  | succ retries ih =>
      exact keeps_tryBlock hbelow hinside fun block => (keeps_purgeBlock hbelow).andThen fun _ =>
        (keeps_dropFiles hblock).andThen fun _ => ih

theorem keeps_readBlocks {length : Nat} {indices : List Nat} (hbelow : Below 4 held)
    (hinside : ∀ part ∈ inside, part.isBlock = false) :
    Keeps orderly held inside (readBlocks wrapper number length indices) := by
  induction indices with
  | nil => exact .result true
  | cons idx rest ih =>
      refine (keeps_readBlock hbelow hinside).andThen fun ok => ?_
      cases ok with
      | false => exact .result false
      | true => exact ih

theorem keeps_cachedLocalSize {size blockSize : Nat} (hbelow : Below 4 held) :
    Keeps orderly held inside (cachedLocalSize wrapper number size blockSize) := by
  refine .forEach fun idx _ => keeps_lockBlock hbelow fun hblock => (Fits.ask _).andThen fun found => ?_
  cases found with
  | none => exact .result ()
  | some block => exact (keeps_blockLocalSize hblock).andThen fun _ => .result ()

/-- What is wrapped is locked for itself by somebody who has the bytes of the wrapper for
himself. -/
theorem keeps_lockInnerBoth {α : Type} {body : HandleCode α} (h : Inside wrapper held)
    (hfront : (NodeLock.io (.registered wrapper), LockMode.exclusive) ∈ held)
    (hbody : Keeps orderly ((.io (.inner wrapper number), .exclusive) ::
      (.file (.inner wrapper number), .exclusive) :: held) inside body) :
    Keeps orderly held inside
      (lockFile (.inner wrapper number) (lockExclusive (.inner wrapper number) body)) := by
  refine keeps_lockFile ((h.below number).mono rank_inner_lt_file.le) (.locked (fun _ => ?_) hbody)
  refine ⟨Or.inr (Or.inr ⟨_, rfl, List.mem_cons_of_mem _ hfront, fun hold hhold heq => ?_⟩),
    fun front hgate => ?_⟩
  · rcases List.mem_cons.1 hhold with rfl | hbefore
    · cases heq
    · have hless := h.below number hold hbefore
      rw [heq] at hless
      exact lt_irrefl _ hless
  · obtain rfl := Option.some.inj hgate
    exact ⟨_, List.mem_cons_of_mem _ hfront, rfl⟩

theorem keeps_innerS3Seal (h : Inside wrapper held)
    (hfront : (NodeLock.io (.registered wrapper), LockMode.exclusive) ∈ held) :
    Keeps orderly held inside (s3Seal (.inner wrapper number)) :=
  keeps_lockInnerBoth h hfront
    (keeps_sealObject (Or.inr (List.mem_cons_of_mem _ List.mem_cons_self)))

theorem keeps_innerS3ReadBytes (h : Inside wrapper held) {length : Nat} :
    Keeps orderly held inside (s3ReadBytes (.inner wrapper number) length) := by
  refine (Fits.ask _).andThen fun valid => ?_
  cases valid with
  | false => exact .result false
  | true =>
      refine keeps_lockInner h (keeps_endpointReadBytes.andThen fun ok => ?_)
      cases ok with
      | true => exact .result true
      | false =>
          have hbelow : Below (NodeLock.file (.inner wrapper number)).rank
              ((.io (.inner wrapper number), .shared) :: held) :=
            below_cons.2 ⟨rank_inner_lt_file, (h.below number).mono rank_inner_lt_file.le⟩
          exact (keeps_lockFile hbelow keeps_invalidate).andThen fun _ => .result false

theorem keeps_remoteS3Seal (hbelow : Below 5 held) :
    Keeps orderly held inside (s3Seal (.remote wrapper number)) := by
  refine keeps_lockFile hbelow (keeps_locked ?_ rfl
    (keeps_sealObject (Or.inr (List.mem_cons_of_mem _ List.mem_cons_self))))
  exact below_cons.2 ⟨by simp only [NodeLock.rank]; omega,
    hbelow.mono (by simp only [NodeLock.rank]; omega)⟩

theorem keeps_dropCached {size blockSize : Nat} (hbelow : Below 5 held) :
    Keeps orderly held inside (dropCached wrapper number size blockSize) := by
  refine (Fits.forEach fun idx _ => keeps_setBlock.andThen fun found => ?_).andThen fun _ =>
    keeps_lockFile hbelow keeps_count
  cases found with
  | none => exact .result ()
  | some block => exact keeps_dropFile (hbelow.mono (by omega))

variable (hfile : wrapper.isBlock = false)
include hfile

theorem rank_inner_of_file :
    (NodeLock.io (.registered wrapper)).rank = 1 ∧ (NodeLock.file (.registered wrapper)).rank = 0 ∧
      (NodeLock.io (.inner wrapper number)).rank = 2 ∧
        (NodeLock.file (.inner wrapper number)).rank = 3 := by
  simp only [NodeLock.rank, hfile, Bool.false_eq_true, if_false, and_self]

theorem below_two (h : Inside wrapper held) : Below 2 held := by
  have hbelow := h.below 0
  rwa [(rank_inner_of_file hfile).2.2.1] at hbelow

theorem below_four_lockInner {mode : LockMode} (h : Inside wrapper held) :
    Below 4 ((.io (.inner wrapper number), mode) :: held) := by
  have hrank := (@rank_inner_of_file wrapper number hfile).2.2.1
  exact below_cons.2 ⟨by rw [hrank]; omega, (below_two hfile h).mono (by omega)⟩

theorem below_four_lockInnerBoth (h : Inside wrapper held) :
    Below 4 ((.io (.inner wrapper number), .exclusive) ::
      (.file (.inner wrapper number), LockMode.exclusive) :: held) := by
  have hrank := @rank_inner_of_file wrapper number hfile
  refine below_cons.2 ⟨by rw [hrank.2.2.1]; omega, below_cons.2 ⟨by rw [hrank.2.2.2]; omega, ?_⟩⟩
  exact (below_two hfile h).mono (by omega)

theorem keeps_cachedReadBytes {size blockSize position length : Nat} (h : Inside wrapper held)
    (hinside : ∀ part ∈ inside, part.isBlock = false) :
    Keeps orderly held inside (cachedReadBytes wrapper number size blockSize position length) := by
  rw [cachedReadBytes]
  split_ifs
  · exact .result true
  · exact keeps_lockInner h (keeps_readBlocks (below_four_lockInner hfile h) hinside)

theorem keeps_cachedSeal (h : Inside wrapper held)
    (hfront : (NodeLock.io (.registered wrapper), LockMode.exclusive) ∈ held) :
    Keeps orderly held inside (cachedSeal wrapper number) :=
  keeps_lockInnerBoth h hfront
    (keeps_remoteS3Seal ((below_four_lockInnerBoth hfile h).mono (by omega)))

theorem keeps_cachedRelocate {size blockSize : Nat} (h : Inside wrapper held)
    (hfront : (NodeLock.io (.registered wrapper), LockMode.exclusive) ∈ held) :
    Keeps orderly held inside (cachedRelocate wrapper number size blockSize) := by
  refine keeps_lockInnerBoth h hfront (.forEach fun idx _ =>
    keeps_lockBlock (below_four_lockInnerBoth hfile h) fun hblock =>
      (Fits.ask _).andThen fun found => ?_)
  cases found with
  | none => exact .result ()
  | some block =>
      refine (keeps_blockLocalSize hblock).andThen fun stored => ?_
      cases stored with
      | false => exact .result ()
      | true =>
          exact (keeps_deleteBlockObject hblock).andThen fun _ =>
            keeps_setBlock.andThen fun _ => keeps_dropFile hblock

end Cached

section Inner

variable {orderly : Bool} {held : List (NodeLock × LockMode)} {wrapper : Handle}
  {inner : InnerHandle}

/-- Behind the wrapper of a block there is only the file of another node. -/
theorem isBlock_of_innerKind (hkind : innerKind wrapper inner ≠ .remote) :
    wrapper.isBlock = false := by
  rw [innerKind] at hkind
  cases hblock : wrapper.isBlock with
  | false => rfl
  | true =>
      rw [hblock] at hkind
      exact absurd rfl hkind

theorem keeps_innerReadBytes {position length : Nat} (h : Inside wrapper held) :
    Keeps orderly held [wrapper] (innerReadBytes wrapper inner position length) := by
  rw [innerReadBytes]
  cases hkind : innerKind wrapper inner with
  | remote => exact keeps_remoteReadBytes h
  | s3 => exact keeps_innerS3ReadBytes h
  | cached size blockSize =>
      have hfile : wrapper.isBlock = false := isBlock_of_innerKind (by rw [hkind]; simp)
      refine keeps_cachedReadBytes hfile h fun part hpart => ?_
      rw [List.mem_singleton.1 hpart]
      exact hfile

theorem keeps_innerSize {inside : List Handle} (h : Inside wrapper held) :
    Keeps orderly held inside (innerSize wrapper inner) := by
  rw [innerSize]
  cases innerKind wrapper inner with
  | remote => exact keeps_lockInner h (.result ())
  | s3 => exact .result ()
  | cached size blockSize => exact .result ()

theorem keeps_innerLocalStorageSize {inside : List Handle} (h : Inside wrapper held) :
    Keeps orderly held inside (innerLocalStorageSize wrapper inner) := by
  rw [innerLocalStorageSize]
  cases hkind : innerKind wrapper inner with
  | remote => exact .result ()
  | s3 => exact .result ()
  | cached size blockSize =>
      have hfile : wrapper.isBlock = false := isBlock_of_innerKind (by rw [hkind]; simp)
      exact keeps_cachedLocalSize ((below_two hfile h).mono (by omega))

theorem keeps_innerLocalMemorySize {inside : List Handle} (h : Inside wrapper held) :
    Keeps orderly held inside (innerLocalMemorySize wrapper inner) := by
  rw [innerLocalMemorySize]
  cases hkind : innerKind wrapper inner with
  | remote => exact .result ()
  | s3 => exact .result ()
  | cached size blockSize =>
      have hfile : wrapper.isBlock = false := isBlock_of_innerKind (by rw [hkind]; simp)
      exact keeps_lockInner h (keeps_cachedLocalSize (below_four_lockInner hfile h))

theorem keeps_innerSeal {inside : List Handle} (h : Inside wrapper held)
    (hfront : (NodeLock.io (.registered wrapper), LockMode.exclusive) ∈ held) :
    Keeps orderly held inside (innerSeal wrapper inner) := by
  rw [innerSeal]
  cases hkind : innerKind wrapper inner with
  | remote => exact .result false
  | s3 => exact keeps_innerS3Seal h hfront
  | cached size blockSize =>
      have hfile : wrapper.isBlock = false := isBlock_of_innerKind (by rw [hkind]; simp)
      exact keeps_cachedSeal hfile h hfront

theorem keeps_innerRelocate {inside : List Handle} (h : Inside wrapper held)
    (hfront : (NodeLock.io (.registered wrapper), LockMode.exclusive) ∈ held) :
    Keeps orderly held inside (innerRelocate wrapper inner) := by
  rw [innerRelocate]
  cases hkind : innerKind wrapper inner with
  | remote => exact .result none
  | s3 => exact .result none
  | cached size blockSize =>
      have hfile : wrapper.isBlock = false := isBlock_of_innerKind (by rw [hkind]; simp)
      exact (keeps_cachedRelocate hfile h hfront).andThen fun _ => .result _

theorem keeps_dropInner {inside : List Handle} (h : Inside wrapper held) :
    Keeps orderly held inside (dropInner wrapper inner) := by
  rw [dropInner]
  cases hkind : innerKind wrapper inner with
  | remote => exact .result ()
  | s3 => exact .result ()
  | cached size blockSize =>
      have hfile : wrapper.isBlock = false := isBlock_of_innerKind (by rw [hkind]; simp)
      exact keeps_dropCached ((below_two hfile h).mono (by omega))

end Inner

section Calls

variable {orderly : Bool} {held : List (NodeLock × LockMode)} {handle : Handle}

theorem keeps_localStorageSize (hbelow : Below (NodeLock.io (.registered handle)).rank held) :
    Keeps orderly held [] (localStorageSize handle) := by
  rw [localStorageSize]
  cases handle.handleClass with
  | localFile => exact .result ()
  | s3 => exact .result ()
  | relocatable wrapped =>
      exact keeps_lockIo hbelow (keeps_working mayRead_io fun _ =>
        keeps_innerLocalStorageSize (inside_io hbelow))

theorem keeps_localMemorySize (hbelow : Below (NodeLock.io (.registered handle)).rank held) :
    Keeps orderly held [] (localMemorySize handle) := by
  rw [localMemorySize]
  cases handle.handleClass with
  | localFile => exact .result ()
  | s3 => exact .result ()
  | relocatable wrapped =>
      exact keeps_lockIo hbelow (keeps_working mayRead_io fun _ =>
        keeps_innerLocalMemorySize (inside_io hbelow))

theorem keeps_size : Keeps orderly [] [] (size handle) := by
  rw [size]
  cases handle.handleClass with
  | localFile => exact .result ()
  | s3 => exact .result ()
  | relocatable wrapped =>
      exact keeps_lockIo below_nil (keeps_working mayRead_io fun _ =>
        keeps_innerSize (inside_io below_nil))

theorem keeps_isWriteable : Keeps orderly [] [] (isWriteable handle) := by
  rw [isWriteable]
  cases handle.handleClass with
  | localFile => exact .result true
  | s3 => exact .result false
  | relocatable wrapped =>
      exact keeps_lockIo below_nil (keeps_working mayRead_io fun _ => .result false)

theorem keeps_readMetadata : Keeps orderly [] [] (readMetadata handle) := by
  rw [readMetadata]
  cases handle.handleClass with
  | localFile => exact keeps_metadata (Or.inl below_nil)
  | s3 => exact keeps_metadata (Or.inl below_nil)
  | relocatable wrapped =>
      refine keeps_lockFile below_nil (keeps_working mayRead_file fun inner =>
        keeps_metadata (Or.inl (below_cons.2 ⟨?_, below_nil⟩)))
      exact rank_file_lt_io.trans (rank_io_lt_inner.trans rank_inner_lt_file)

theorem keeps_setMetadata {andSeal : Bool} : Keeps orderly [] [] (setMetadata handle andSeal) := by
  rw [setMetadata]
  cases handle.handleClass with
  | localFile =>
      have hmay : MayChange handle [] := mayChange_of_below below_nil
      refine keeps_lockFile_or hmay.mayLock ?_
      cases andSeal with
      | false => exact .result true
      | true => exact keeps_localSeal hmay.file
  | s3 => exact .result false
  | relocatable wrapped =>
      exact keeps_lockFile below_nil (keeps_working mayRead_file fun _ => .result false)

/-- A read of an object of a store takes its locks the other way round. -/
theorem keeps_readBytes {position length : Nat}
    (horderly : orderly = true → handle.handleClass ≠ .s3) :
    Keeps orderly [] [] (readBytes handle position length) := by
  rw [readBytes]
  cases hclass : handle.handleClass with
  | localFile => exact keeps_localAccess below_nil
  | s3 =>
      refine (Fits.ask _).andThen fun valid => ?_
      cases valid with
      | false => exact .result false
      | true =>
          refine keeps_lockIo below_nil (keeps_endpointReadBytes.andThen fun ok => ?_)
          cases ok with
          | true => exact .result true
          | false =>
              exact (Fits.locked (fun h => absurd hclass (horderly h)) keeps_invalidate).andThen
                fun _ => .result false
  | relocatable wrapped =>
      have hmay : MayChange handle [] := mayChange_of_below below_nil
      exact keeps_wrapperReadBytes hmay List.not_mem_nil (fun _ _ h => keeps_innerReadBytes h)
        fun _ => keeps_dropInner (inside_bothLocks hmay)

theorem keeps_access : Keeps orderly [] [] (access handle) := by
  rw [access]
  cases handle.handleClass with
  | localFile => exact keeps_localAccess below_nil
  | s3 => exact .result false
  | relocatable wrapped =>
      exact keeps_lockIo below_nil (keeps_working mayRead_io fun _ => .result false)

theorem keeps_truncate : Keeps orderly [] [] (truncate handle) := by
  rw [truncate]
  cases handle.handleClass with
  | localFile => exact keeps_lockIo below_nil keeps_answered
  | s3 => exact .result false
  | relocatable wrapped =>
      exact keeps_lockIo below_nil (keeps_working mayRead_io fun _ => .result false)

theorem keeps_sealHandle : Keeps orderly [] [] (sealHandle handle) := by
  rw [sealHandle]
  cases handle.handleClass with
  | localFile => exact keeps_localSeal (mayChange_of_below below_nil)
  | s3 => exact keeps_lockBoth (mayChange_of_below below_nil) (keeps_sealObject mayLock_bothLocks)
  | relocatable wrapped =>
      exact keeps_lockIo below_nil (keeps_working mayRead_io fun _ =>
        keeps_innerSeal (inside_io below_nil) List.mem_cons_self)

theorem keeps_notifyUnused (hmay : MayChange handle held) :
    Keeps orderly held [] (notifyUnused handle) := by
  rw [notifyUnused]
  cases handle.handleClass with
  | localFile => exact keeps_localNotifyUnused hmay
  | s3 => exact .result ()
  | relocatable wrapped => exact keeps_lockBoth hmay (keeps_working mayRead_io fun _ => .result ())

theorem keeps_decreaseOpenCount : Keeps orderly [] [] (decreaseOpenCount handle) := by
  have hmay : MayChange handle [] := mayChange_of_below below_nil
  refine keeps_lockFile_or hmay.mayLock (keeps_count.andThen fun unused => ?_)
  cases unused with
  | true => exact keeps_notifyUnused hmay.file
  | false => exact .result ()

theorem keeps_localRelocate (hmay : MayChange handle held) (hblock : handle.isBlock = false) :
    Keeps orderly held [] (localRelocate handle hblock) := by
  refine keeps_lockBoth hmay ((keeps_isValid mayLock_bothLocks).andThen fun valid =>
    (Fits.ask _).andThen fun used => ?_)
  change Keeps _ _ _ (if (valid && !used) = true then _ else _)
  split_ifs
  · refine (keeps_allAnswered 4).andThen fun moved => ?_
    cases moved with
    | false => exact .result none
    | true =>
        refine (keeps_metadata mayLock_bothLocks).andThen fun _ =>
          keeps_answered.andThen fun recorded => ?_
        cases recorded with
        | false => exact .result none
        | true => exact keeps_newNumber.andThen fun _ => keeps_invalidate.andThen fun _ => .result _
  · exact .result none

theorem keeps_wrapperRelocate (hmay : MayChange handle held) :
    Keeps orderly held [] (wrapperRelocate handle) := by
  refine keeps_lockBoth hmay ((keeps_working mayRead_io fun _ =>
    keeps_innerRelocate (inside_bothLocks hmay) List.mem_cons_self).andThen fun newFh => ?_)
  cases newFh with
  | none => exact .result ()
  | some newFh => exact keeps_setFileHandle List.not_mem_nil

theorem keeps_relocateHandle (hmay : MayChange handle held) (hblock : handle.isBlock = false) :
    Keeps orderly held [] (relocateHandle handle hblock) := by
  rw [relocateHandle]
  cases handle.handleClass with
  | localFile => exact keeps_localRelocate hmay hblock
  | s3 => exact .result none
  | relocatable wrapped => exact (keeps_wrapperRelocate hmay).andThen fun _ => .result _

theorem below_registry_file :
    Below 11 [(NodeLock.file (.registered handle), LockMode.exclusive)] :=
  below_cons.2 ⟨rank_file_lt_io.trans rank_io_lt_registry, below_nil⟩

theorem keeps_removeIf {condition : NodeHandles → Prop} [DecidablePred condition]
    {bucket key : Bytes} (hbelow : Below 11 held) {inside : List Handle} :
    Keeps orderly held inside
      (writeRegistry (fun s => if condition s then s.remove bucket key else s) fun _ => ()) := by
  refine keeps_writeRegistry hbelow fun s => ?_
  split_ifs <;> rfl

theorem keeps_relocate {force : Bool} : Keeps orderly [] [] (relocate handle force) := by
  have hmay : MayChange handle [(NodeLock.file (.registered handle), LockMode.exclusive)] :=
    (mayChange_of_below below_nil).file
  refine keeps_lockFile below_nil ((Fits.ask _).andThen fun used => ?_)
  cases used with
  | true => exact .result ()
  | false =>
      refine (keeps_readRegistry below_registry_file).andThen fun found => ?_
      cases found with
      | false => exact .result ()
      | true =>
          refine (keeps_localStorageSize hmay.below).andThen fun _ =>
            (keeps_localStorageSize hmay.below).andThen fun _ => ?_
          change Keeps _ _ _ (dite (handle.isBlock = true) _ _)
          split_ifs with hblock
          · exact keeps_removeIf below_registry_file
          · refine (keeps_relocateHandle hmay _).andThen fun newHandle => ?_
            cases newHandle with
            | none => exact .result ()
            | some newHandle => exact keeps_writeRegistry below_registry_file fun _ => rfl

/-- The loop over all handles takes their locks under that of the registry. -/
theorem keeps_collectRelocatable {force : Bool} :
    Keeps false [] [] (collectRelocatable force) := by
  refine .locked (fun h => absurd h Bool.false_ne_true) ((Fits.ask _).andThen fun handles =>
    .forEach fun item _ => (Fits.ask _).andThen fun asked => ?_)
  cases asked with
  | false => exact .result ()
  | true =>
      exact (Fits.locked (fun h => absurd h Bool.false_ne_true) (.ask _)).andThen fun _ =>
        .result ()

theorem keeps_measure : Keeps orderly [] [] measure := by
  refine (keeps_readRegistry below_nil).andThen fun handles => .forEach fun fh _ =>
    (keeps_localStorageSize below_nil).andThen fun _ =>
    (keeps_localMemorySize below_nil).andThen fun _ => (Fits.ask _).andThen fun asked => ?_
  cases asked with
  | false => exact .result ()
  | true => exact (keeps_isValid (Or.inl below_nil)).andThen fun _ => .result ()

end Calls

section Opening

variable {orderly : Bool} {held : List (NodeLock × LockMode)} {bucket key : Bytes}

theorem keeps_removeSame {handle : Handle} {inside : List Handle} (hbelow : Below 11 held) :
    Keeps orderly held inside (removeSame handle) :=
  keeps_removeIf hbelow

/-- Whoever opens a file in order has no other handle locked. -/
theorem keeps_openOr {again : HandleCode Bool} (hregistry : Below 11 held)
    (hlock : orderly = true → held = [])
    (hagain : ∀ fh : Handle,
      Keeps orderly ((.file (.registered fh), .exclusive) :: held) [] again) :
    Keeps orderly held [] (openOr bucket key again) := by
  refine (keeps_openAs hregistry).andThen fun opened => ?_
  cases opened with
  | none => exact .result false
  | some fh =>
      have htake : orderly = true → MayTake NodeLock.recursive NodeLock.rank NodeLock.gate held
          (.file (.registered fh)) := by
        intro horderly
        rw [hlock horderly]
        exact ⟨Or.inl below_nil, fun _ hfront => by cases hfront⟩
      have hbelow : Below 11 ((NodeLock.file (.registered fh), LockMode.exclusive) :: held) :=
        below_cons.2 ⟨rank_file_lt_io.trans rank_io_lt_registry, hregistry⟩
      refine .locked htake ((keeps_isValid (Or.inr List.mem_cons_self)).andThen fun valid => ?_)
      cases valid with
      | true => exact (keeps_openHandle (Or.inr List.mem_cons_self)).andThen fun _ => .result true
      | false => exact (keeps_removeSame hbelow).andThen fun _ => hagain fh

theorem keeps_openFile {retry : Bool} (horderly : orderly = true → retry = false) :
    Keeps orderly [] [] (openFile bucket key retry) := by
  cases retry with
  | false => exact keeps_openOr below_nil (fun _ => rfl) fun _ => .result false
  | true =>
      have hnot : ¬ orderly = true := fun h => absurd (horderly h) Bool.noConfusion
      exact keeps_openOr below_nil (fun _ => rfl) fun fh =>
        keeps_openOr below_registry_file (fun h => absurd h hnot) fun _ => .result false

theorem keeps_localOpen : Keeps orderly [] [] (localOpen bucket key) := by
  refine (keeps_readRegistry below_nil).andThen fun found => ?_
  cases found with
  | none => exact .result false
  | some handle =>
      refine keeps_access.andThen fun ok => ?_
      cases ok with
      | false => exact .result false
      | true =>
          exact (keeps_lockFile below_nil (keeps_openHandle (Or.inr List.mem_cons_self))).andThen
            fun _ => .result true

theorem keeps_reopen {handle : Handle} : Keeps orderly [] [] (reopen handle) :=
  keeps_lockFile below_nil ((keeps_removeSame below_registry_file).andThen fun _ =>
    (keeps_openAs below_registry_file).andThen fun _ => .result ())

/-- Each call works with wrapped handles under their locks, and the orderly ones take their
locks in order. -/
theorem NodeCall.keeps (call : NodeCall) :
    Guarded NodeHandles.fileHandle guards [] [] call.program ∧ (call.orderly = true →
      Ordered NodeLock.recursive NodeLock.rank NodeLock.gate [] call.program) := by
  cases call with
  | openFile bucket key retry =>
      refine (keeps_openFile fun h => ?_).program
      rwa [NodeCall.orderly, Bool.not_eq_true'] at h
  | localOpen bucket key => exact keeps_localOpen.program
  | reopen handle => exact keeps_reopen.program
  | copy handle => exact (keeps_increaseOpenCount (Or.inl below_nil)).program
  | close handle => exact keeps_decreaseOpenCount.program
  | size handle => exact keeps_size.program
  | isWriteable handle => exact keeps_isWriteable.program
  | metadata handle => exact keeps_readMetadata.program
  | setMetadata handle andSeal => exact keeps_setMetadata.program
  | readBytes handle position length =>
      refine (keeps_readBytes fun h => ?_).program
      rwa [NodeCall.orderly, Bool.not_eq_true', decide_eq_false_iff_not] at h
  | access handle => exact keeps_access.program
  | truncate handle => exact keeps_truncate.program
  | sealHandle handle => exact keeps_sealHandle.program
  | measure => exact keeps_measure.program
  | relocate handle force => exact keeps_relocate.program
  | collectRelocatable force =>
      exact ⟨keeps_collectRelocatable.program.1, fun h => absurd h Bool.false_ne_true⟩

end Opening

section Runs

/-- The calls of a node, and their steps. -/
inductive NodeEvent where
  | call (made : NodeCall)
  | advance (index : Nat) (answer : Answer)

def NodeEvent.event : NodeEvent → LockedPrograms.Event NodeLock Handle NodeHandles Answer InnerHandle
  | .call made => .call made.program
  | .advance index answer => .advance index answer

def NodeEvent.call? : NodeEvent → Option NodeCall
  | .call made => some made
  | .advance _ _ => none

abbrev NodeSystem := System NodeLock Handle NodeHandles Answer InnerHandle

/-- A run of calls from any state of the node, with no call before them. -/
def runCalls (shared : NodeHandles) (events : List NodeEvent) : Option NodeSystem :=
  System.run NodeLock.recursive NodeHandles.fileHandle ⟨shared, []⟩ (events.map NodeEvent.event)

variable {shared : NodeHandles} {events : List NodeEvent} {system : NodeSystem}

theorem runCalls_guarding (hrun : runCalls shared events = some system) :
    system.Guarding NodeHandles.fileHandle guards := by
  refine (System.Guarding.start shared).run (fun program hmem => ?_) hrun
  obtain ⟨event, -, hevent⟩ := List.mem_map.1 hmem
  cases event with
  | call call =>
      have hprogram : call.program = program := LockedPrograms.Event.call.inj hevent
      rw [← hprogram]
      exact call.keeps.1
  | advance index answer => cases hevent

theorem filterMap_program : (events.map NodeEvent.event).filterMap LockedPrograms.Event.program =
    (events.filterMap NodeEvent.call?).map NodeCall.program := by
  rw [List.filterMap_map, List.map_filterMap]
  refine List.filterMap_congr fun event _ => ?_
  cases event with
  | call call => rfl
  | advance index answer => rfl

theorem runCalls_arises (hrun : runCalls shared events = some system) :
    system.Arises NodeLock.recursive NodeLock.rank NodeLock.gate
      ((events.filterMap NodeEvent.call?).map NodeCall.program) := by
  have hstart : System.Arises NodeLock.recursive NodeLock.rank NodeLock.gate []
      (⟨shared, []⟩ : NodeSystem) := .nil
  have harises := hstart.run hrun
  rwa [List.nil_append, filterMap_program] at harises

/-- In every run of calls, whoever works with a wrapped handle works with the one that the wrapper
has: a handle is replaced, and taken apart, only while nobody works with it. -/
theorem runCalls_works_with_current (hrun : runCalls shared events = some system)
    (thread : Thread NodeLock Handle NodeHandles Answer InnerHandle)
    (hthread : thread ∈ system.threads) (wrapper : Handle) (inner : InnerHandle)
    (hworks : (wrapper, inner) ∈ thread.relies) : system.shared.fileHandle wrapper = inner :=
  ((runCalls_guarding hrun).relies thread hthread).current _ hworks

/-- No call can make a step. -/
def Stuck (system : NodeSystem) : Prop :=
  ∃ answer, ∀ index, system.perform NodeLock.recursive NodeHandles.fileHandle
    (.advance index answer) = none

/-- A call that takes its locks out of order has begun and not ended. -/
def UnorderedRuns (events : List NodeEvent) (system : NodeSystem) : Prop :=
  ∃ (index : Nat) (call : NodeCall) (thread : Thread NodeLock Handle NodeHandles Answer InnerHandle),
    (events.filterMap NodeEvent.call?)[index]? = some call ∧
      system.threads[index]? = some thread ∧ thread.program ≠ .done ∧ call.orderly = false

end Runs

namespace Sample

/-- A file of another node, whose size is asked for while its wrapper is closed. -/
def remote : InnerHandle := ⟨1, 64, .remote⟩

def wrapper : Handle := ⟨0, text "bucket", text "file", .relocatable remote, by simp⟩

def node : NodeHandles where
  fileHandles := [wrapper]
  openCount := fun _ => 1
  isInvalid := fun _ => false
  replaced := fun _ => none
  blocks := fun _ _ _ => none
  made := 2

def asking : List NodeEvent :=
  [.call (.close wrapper), .call (.size wrapper), .advance 0 default, .advance 0 default,
    .advance 1 default, .advance 1 default]

def asked : NodeSystem := (runCalls node asking).get rfl

theorem runCalls_asking : runCalls node asking = some asked := (Option.some_get _).symm

theorem asking_current : asked.shared.fileHandle wrapper = remote :=
  runCalls_works_with_current runCalls_asking (asked.threads.get ⟨1, by decide⟩)
    (List.get_mem _ _) wrapper remote List.mem_cons_self

end Sample

end HandleLocks

end GEDS
