/-
`GEDSFile` objects and the open counts of their handles.  The count is kept by
hand in the special members of `GEDSFile`; a handle lives as long as a
`GEDSFile` or somebody else, such as the registry, points to it.
-/
import GEDS.Library.AssocMap

namespace GEDS

/-- `GEDSFileHandle`, with the number of pointers to it outside `GEDSFile`s. -/
structure CountedHandle where
  openCount : Int
  pointers : Nat

/-- The handles and the `GEDSFile` objects that are alive.  A file that was moved
from refers to no handle. -/
structure OpenFiles where
  handles : AssocMap Nat CountedHandle
  files : AssocMap Nat (Option Nat)

/-- The special members of `GEDSFile`, and what others do with handles. -/
inductive FileOp where
  | makeHandle (handle : Nat)
  | addPointer (handle : Nat)
  | dropPointer (handle : Nat)
  | construct (file handle : Nat)
  | copyConstruct (file other : Nat)
  | moveConstruct (file other : Nat)
  | copyAssign (file other : Nat)
  | moveAssign (file other : Nat)
  | destroy (file : Nat)
deriving DecidableEq

namespace OpenFiles

def empty : OpenFiles := ⟨AssocMap.empty, AssocMap.empty⟩

variable (s : OpenFiles)

/-- The live `GEDSFile` objects that refer to a handle. -/
def referring (handle : Nat) : Nat := s.files.values.count (some handle)

def openCount (handle : Nat) : Option Int := (s.handles.find handle).map (·.openCount)

def modify (handle : Nat) (change : CountedHandle → CountedHandle) : OpenFiles :=
  match s.handles.find handle with
  | none => s
  | some counted => { s with handles := s.handles.insert handle (change counted) }

/-- `GEDSFileHandle::increaseOpenCount` -/
def increaseOpenCount (handle : Nat) : OpenFiles :=
  s.modify handle fun counted => { counted with openCount := counted.openCount + 1 }

/-- `GEDSFileHandle::decreaseOpenCount` -/
def decreaseOpenCount (handle : Nat) : OpenFiles :=
  s.modify handle fun counted => { counted with openCount := counted.openCount - 1 }

/-- A pointer to the handle went away: the last one takes the handle along. -/
def release (handle : Nat) : OpenFiles :=
  match s.handles.find handle with
  | none => s
  | some counted =>
      if counted.pointers = 0 ∧ s.referring handle = 0 then
        { s with handles := s.handles.erase handle }
      else s

/-- `GEDSFile::_fileHandle` gets a new value. -/
def setFileHandle (file : Nat) (target : Option Nat) : OpenFiles :=
  match s.files.find file with
  | some (some old) => { s with files := s.files.insert file target }.release old
  | _ => { s with files := s.files.insert file target }

/-- One operation.  There is no result where C++ gives the program no meaning: an
object that is not alive, an address in use, or a null handle dereferenced. -/
def perform : FileOp → Option OpenFiles
  | .makeHandle handle =>
      match s.handles.find handle with
      | none => some { s with handles := s.handles.insert handle ⟨0, 1⟩ }
      | some _ => none
  | .addPointer handle =>
      match s.handles.find handle with
      | none => none
      | some _ => some (s.modify handle fun counted =>
          { counted with pointers := counted.pointers + 1 })
  | .dropPointer handle =>
      match s.handles.find handle with
      | none => none
      | some counted =>
          if counted.pointers = 0 then none
          else some ((s.modify handle fun counted =>
            { counted with pointers := counted.pointers - 1 }).release handle)
  | .construct file handle =>
      match s.files.find file, s.handles.find handle with
      | none, some _ =>
          some ({ s with files := s.files.insert file (some handle) }.increaseOpenCount handle)
      | _, _ => none
  | .copyConstruct file other =>
      match s.files.find file, s.files.find other with
      | none, some (some handle) =>
          some ({ s with files := s.files.insert file (some handle) }.increaseOpenCount handle)
      | _, _ => none
  | .moveConstruct file other =>
      match s.files.find file, s.files.find other with
      | none, some held =>
          some { s with files := (s.files.insert file held).insert other none }
      | _, _ => none
  | .copyAssign file other =>
      match s.files.find file, s.files.find other with
      | some _, some held =>
          if file = other then some s
          else match held with
            | none => none
            | some handle => some ((s.setFileHandle file (some handle)).increaseOpenCount handle)
      | _, _ => none
  | .moveAssign file other =>
      match s.files.find file, s.files.find other with
      | some _, some held =>
          if file = other then some s
          else some ({ s with files := s.files.insert other none }.setFileHandle file held)
      | _, _ => none
  | .destroy file =>
      match s.files.find file with
      | none => none
      | some none => some { s with files := s.files.erase file }
      | some (some handle) =>
          let s := s.decreaseOpenCount handle
          some ({ s with files := s.files.erase file }.release handle)

/-- Operation after operation, as long as each has a meaning. -/
def run : List FileOp → OpenFiles → Option OpenFiles
  | [], s => some s
  | op :: ops, s => (s.perform op).bind (run ops)

/-- The count of each handle is the number of files that refer to it. -/
def Counted : Prop :=
  ∀ handle count, s.openCount handle = some count → count = s.referring handle

/-- Something besides the file keeps the handle alive. -/
def HeldBesides (file handle : Nat) : Prop :=
  (∃ counted, s.handles.find handle = some counted ∧ 0 < counted.pointers) ∨
    ∃ other, other ≠ file ∧ s.files.find other = some (some handle)

/-- An assignment between two files, over one that refers to a handle which stays
alive. -/
def LosesCount : FileOp → Prop
  | .copyAssign file other | .moveAssign file other =>
      file ≠ other ∧ ∃ handle, s.files.find file = some (some handle) ∧
        s.HeldBesides file handle
  | _ => False

/-- Files refer to live handles only. -/
def Pointed : Prop :=
  ∀ file handle, s.files.find file = some (some handle) → s.handles.find handle ≠ none

section Members

variable {s} (handle : Nat) (change : CountedHandle → CountedHandle)

theorem counted_iff : s.Counted ↔ ∀ handle counted,
    s.handles.find handle = some counted → counted.openCount = s.referring handle := by
  constructor
  · intro hcounted handle counted hfind
    exact hcounted handle counted.openCount (by rw [openCount, hfind]; rfl)
  · intro hcounted handle count hcount
    obtain ⟨counted, hfind, rfl⟩ := Option.map_eq_some_iff.1 hcount
    exact hcounted handle counted hfind

@[simp] theorem files_modify : (s.modify handle change).files = s.files := by
  rw [modify]
  split <;> rfl

theorem find_modify (other : Nat) :
    (s.modify handle change).handles.find other =
      if other = handle then (s.handles.find handle).map change else s.handles.find other := by
  rw [modify]
  split
  case _ hfind =>
      by_cases heq : other = handle
      · simp [heq, hfind]
      · simp [heq]
  case _ counted hfind => simp [hfind]

@[simp] theorem referring_modify (other : Nat) :
    (s.modify handle change).referring other = s.referring other := by
  simp [referring]

@[simp] theorem files_release : (s.release handle).files = s.files := by
  rw [release]
  split
  · rfl
  · split <;> rfl

@[simp] theorem referring_release (other : Nat) :
    (s.release handle).referring other = s.referring other := by
  simp [referring]

/-- Nothing points to the handle. -/
def Unheld (s : OpenFiles) (handle : Nat) : Prop :=
  ∃ counted, s.handles.find handle = some counted ∧ counted.pointers = 0 ∧
    s.referring handle = 0

theorem find_release (other : Nat) (counted : CountedHandle) :
    (s.release handle).handles.find other = some counted ↔
      s.handles.find other = some counted ∧ ¬ (other = handle ∧ s.Unheld handle) := by
  rw [release]
  split
  case _ hfind => simp [Unheld, hfind]
  case _ held hfind =>
      have hunheld : s.Unheld handle ↔ held.pointers = 0 ∧ s.referring handle = 0 := by
        simp [Unheld, hfind]
      by_cases hlast : held.pointers = 0 ∧ s.referring handle = 0
      · by_cases heq : other = handle <;> simp [hlast, heq, hunheld]
      · simp [hlast, hunheld]

theorem referring_eq_zero_iff :
    s.referring handle = 0 ↔ ∀ file, s.files.find file ≠ some (some handle) := by
  rw [referring, List.count_eq_zero, AssocMap.mem_values_iff, not_exists]

end Members

section Pointers

variable {s}

/-- What a file holds is a handle that is there. -/
theorem Pointed.live (h : s.Pointed) {file : Nat} {held : Option Nat}
    (hfile : s.files.find file = some held) :
    ∀ handle, held = some handle → s.handles.find handle ≠ none := by
  rintro handle rfl
  exact h file handle hfile

theorem Pointed.modify (h : s.Pointed) (handle : Nat) (change : CountedHandle → CountedHandle) :
    (s.modify handle change).Pointed := by
  intro file other hfile
  rw [files_modify] at hfile
  rw [find_modify]
  by_cases heq : other = handle
  · rw [if_pos heq, ne_eq, Option.map_eq_none_iff]
    exact heq ▸ h file other hfile
  · rw [if_neg heq]
    exact h file other hfile

theorem Pointed.release (h : s.Pointed) (handle : Nat) : (s.release handle).Pointed := by
  intro file other hfile
  rw [files_release] at hfile
  obtain ⟨counted, hfind⟩ := Option.ne_none_iff_exists'.1 (h file other hfile)
  have hkept : ¬ (other = handle ∧ s.Unheld handle) := by
    rintro ⟨rfl, held, -, -, hzero⟩
    exact (referring_eq_zero_iff other).1 hzero file hfile
  rw [(find_release handle other counted).2 ⟨hfind, hkept⟩]
  exact Option.some_ne_none counted

theorem Pointed.insertFile (h : s.Pointed) (file : Nat) {target : Option Nat}
    (htarget : ∀ handle, target = some handle → s.handles.find handle ≠ none) :
    Pointed { s with files := s.files.insert file target } := by
  intro other handle hother
  rw [AssocMap.find_insert] at hother
  by_cases heq : other = file
  · rw [if_pos heq, Option.some.injEq] at hother
    exact htarget handle hother
  · rw [if_neg heq] at hother
    exact h other handle hother

theorem Pointed.eraseFile (h : s.Pointed) (file : Nat) :
    Pointed { s with files := s.files.erase file } := by
  intro other handle hother
  rw [AssocMap.find_erase] at hother
  by_cases heq : other = file
  · simp [heq] at hother
  · rw [if_neg heq] at hother
    exact h other handle hother

theorem Pointed.setFileHandle (h : s.Pointed) (file : Nat) {target : Option Nat}
    (htarget : ∀ handle, target = some handle → s.handles.find handle ≠ none) :
    (s.setFileHandle file target).Pointed := by
  rw [OpenFiles.setFileHandle]
  split
  · exact (h.insertFile file htarget).release _
  · exact h.insertFile file htarget

end Pointers

section Surplus

variable {s} {extra : Nat → Int}

/-- By how much the count of each handle exceeds the files that refer to it. -/
def Surplus (s : OpenFiles) (extra : Nat → Int) : Prop :=
  ∀ handle counted, s.handles.find handle = some counted →
    counted.openCount = s.referring handle + extra handle

/-- What a reference to `target` adds to the files that refer to `handle`. -/
def refersTo (target : Option Nat) (handle : Nat) : Int :=
  if target = some handle then 1 else 0

@[simp] theorem refersTo_none (handle : Nat) : refersTo none handle = 0 := rfl

theorem surplus_zero_iff : s.Surplus (fun _ => 0) ↔ s.Counted := by
  simp [Surplus, counted_iff]

theorem Surplus.congr (h : s.Surplus extra) {extra' : Nat → Int}
    (heq : ∀ handle, extra handle = extra' handle) : s.Surplus extra' :=
  funext heq ▸ h

theorem Surplus.release (h : s.Surplus extra) (handle : Nat) :
    (s.release handle).Surplus extra := by
  intro other counted hfind
  rw [referring_release]
  exact h other counted ((find_release handle other counted).1 hfind).1

theorem Surplus.modify (h : s.Surplus extra) (handle : Nat) {change : CountedHandle → CountedHandle}
    (amount : Int) (hchange : ∀ counted, (change counted).openCount = counted.openCount + amount) :
    (s.modify handle change).Surplus fun other =>
      extra other + amount * refersTo (some handle) other := by
  intro other counted hfind
  rw [find_modify] at hfind
  rw [referring_modify]
  by_cases heq : other = handle
  · rw [if_pos heq] at hfind
    obtain ⟨before, hbefore, rfl⟩ := Option.map_eq_some_iff.1 hfind
    subst heq
    have hsurplus := h other before hbefore
    simp only [hchange, refersTo, ↓reduceIte]
    omega
  · rw [if_neg heq] at hfind
    have hne : refersTo (some handle) other = 0 := by simp [refersTo, Ne.symm heq]
    simpa [hne] using h other counted hfind

theorem Surplus.insertFile (h : s.Surplus extra) (file : Nat) (target : Option Nat) :
    Surplus { s with files := s.files.insert file target } fun other =>
      extra other + refersTo ((s.files.find file).getD none) other - refersTo target other := by
  intro handle counted hfind
  have hsurplus := h handle counted hfind
  have hcount := s.files.count_values_insert file (some handle) target
  have hold : (s.files.find file = some (some handle)) ↔
      (s.files.find file).getD none = some handle := by
    cases s.files.find file <;> simp
  simp only [referring, refersTo, hold] at hcount hsurplus ⊢
  split_ifs at hcount ⊢ <;> omega

theorem Surplus.eraseFile (h : s.Surplus extra) (file : Nat) :
    Surplus { s with files := s.files.erase file } fun other =>
      extra other + refersTo ((s.files.find file).getD none) other := by
  intro handle counted hfind
  have hsurplus := h handle counted hfind
  have hcount := s.files.count_values_erase file (some handle)
  have hold : (s.files.find file = some (some handle)) ↔
      (s.files.find file).getD none = some handle := by
    cases s.files.find file <;> simp
  simp only [referring, refersTo, hold] at hcount hsurplus ⊢
  split_ifs at hcount ⊢ <;> omega

theorem Surplus.setFileHandle (h : s.Surplus extra) (file : Nat) (target : Option Nat) :
    (s.setFileHandle file target).Surplus fun other =>
      extra other + refersTo ((s.files.find file).getD none) other - refersTo target other := by
  rw [OpenFiles.setFileHandle]
  split
  · exact (h.insertFile file target).release _
  · exact h.insertFile file target

theorem Surplus.increaseOpenCount (h : s.Surplus extra) (handle : Nat) :
    (s.increaseOpenCount handle).Surplus fun other =>
      extra other + refersTo (some handle) other :=
  (h.modify handle 1 fun _ => rfl).congr fun other => by simp

theorem Surplus.decreaseOpenCount (h : s.Surplus extra) (handle : Nat) :
    (s.decreaseOpenCount handle).Surplus fun other =>
      extra other - refersTo (some handle) other :=
  (h.modify handle (-1) fun _ => rfl).congr fun other => by omega

/-- After an assignment the count of the old handle is one too large. -/
theorem Surplus.counted_iff {old : Option Nat} (h : s.Surplus (refersTo old)) :
    s.Counted ↔ ∀ handle, old = some handle → s.handles.find handle = none := by
  rw [OpenFiles.counted_iff]
  constructor
  · rintro hcounted handle rfl
    by_contra hfind
    obtain ⟨counted, hfind⟩ := Option.ne_none_iff_exists'.1 hfind
    have hexact := hcounted handle counted hfind
    have hsurplus := h handle counted hfind
    simp only [refersTo, ↓reduceIte] at hsurplus
    omega
  · intro hgone handle counted hfind
    have hne : old ≠ some handle := fun heq => by simp [hgone handle heq] at hfind
    simpa [refersTo, hne] using h handle counted hfind

end Surplus

section Step

variable {s} {t : OpenFiles} {file other : Nat}

/-- Which handles an assignment destroys, in terms of the state before it: `files`
are the files after it, of which some refer to the old handle just if others did. -/
theorem find_release_eq_none_iff (hpointed : s.Pointed) {handle : Nat}
    (hfile : s.files.find file = some (some handle)) {files : AssocMap Nat (Option Nat)}
    (hfiles : (∃ other, files.find other = some (some handle)) ↔
      ∃ other, other ≠ file ∧ s.files.find other = some (some handle)) :
    (release { s with files := files } handle).handles.find handle = none ↔
      ¬ s.HeldBesides file handle := by
  obtain ⟨counted, hfind⟩ := Option.ne_none_iff_exists'.1 (hpointed file handle hfile)
  have hreferring : referring { s with files := files } handle = 0 ↔
      ¬ ∃ other, other ≠ file ∧ s.files.find other = some (some handle) := by
    rw [referring_eq_zero_iff, ← hfiles, not_exists]
  have hheld : s.HeldBesides file handle ↔
      0 < counted.pointers ∨ ∃ other, other ≠ file ∧ s.files.find other = some (some handle) := by
    simp [HeldBesides, hfind]
  rw [hheld, not_or, ← hreferring, Nat.not_lt, Nat.le_zero]
  by_cases hlast : counted.pointers = 0 ∧ referring { s with files := files } handle = 0
  · simp [release, hfind, hlast]
  · simp [release, hfind, hlast]

/-- The old handle of a file that is assigned over. -/
theorem losesCount_iff (hne : file ≠ other) :
    (s.LosesCount (.copyAssign file other) ↔
      ∃ handle, s.files.find file = some (some handle) ∧ s.HeldBesides file handle) ∧
    (s.LosesCount (.moveAssign file other) ↔
      ∃ handle, s.files.find file = some (some handle) ∧ s.HeldBesides file handle) := by
  simp [LosesCount, hne]

theorem copyAssign_counted_iff (hpointed : s.Pointed) (hcounted : s.Counted)
    (hne : file ≠ other) {held : Option Nat} {handle : Nat}
    (hfile : s.files.find file = some held) (hother : s.files.find other = some (some handle)) :
    ((s.setFileHandle file (some handle)).increaseOpenCount handle).Counted ↔
      ¬ s.LosesCount (.copyAssign file other) := by
  have hsurplus : ((s.setFileHandle file (some handle)).increaseOpenCount handle).Surplus
      (refersTo held) :=
    (((surplus_zero_iff.2 hcounted).setFileHandle file _).increaseOpenCount handle).congr
      fun _ => by simp [hfile]
  rw [hsurplus.counted_iff, (losesCount_iff hne).1]
  cases held with
  | none => simp [hfile]
  | some old =>
      have hfiles : (∃ after, (s.files.insert file (some handle)).find after = some (some old)) ↔
          ∃ after, after ≠ file ∧ s.files.find after = some (some old) := by
        constructor
        · rintro ⟨after, hafter⟩
          rw [AssocMap.find_insert] at hafter
          by_cases heq : after = file
          · rw [if_pos heq, Option.some.injEq] at hafter
            exact ⟨other, Ne.symm hne, hafter ▸ hother⟩
          · exact ⟨after, heq, by rwa [if_neg heq] at hafter⟩
        · rintro ⟨after, heq, hafter⟩
          exact ⟨after, by rw [AssocMap.find_insert, if_neg heq, hafter]⟩
      have hgone := find_release_eq_none_iff hpointed hfile hfiles
      have hset : s.setFileHandle file (some handle) =
          release { s with files := s.files.insert file (some handle) } old := by
        simp [setFileHandle, hfile]
      have hsame : ∀ x : OpenFiles, (x.increaseOpenCount handle).handles.find old = none ↔
          x.handles.find old = none := by
        intro x
        rw [increaseOpenCount, find_modify]
        by_cases heq : old = handle <;> simp [heq]
      simp [hset, hsame, hgone, hfile]

theorem moveAssign_counted_iff (hpointed : s.Pointed) (hcounted : s.Counted)
    (hne : file ≠ other) {held target : Option Nat}
    (hfile : s.files.find file = some held) (hother : s.files.find other = some target) :
    (setFileHandle { s with files := s.files.insert other none } file target).Counted ↔
      ¬ s.LosesCount (.moveAssign file other) := by
  have hfind : (s.files.insert other none).find file = some held := by
    rw [AssocMap.find_insert, if_neg hne, hfile]
  have hsurplus : (setFileHandle { s with files := s.files.insert other none } file target).Surplus
      (refersTo held) :=
    (((surplus_zero_iff.2 hcounted).insertFile other none).setFileHandle file target).congr
      fun _ => by simp [hfind, hother]
  rw [hsurplus.counted_iff, (losesCount_iff hne).2]
  cases held with
  | none => simp [hfile]
  | some old =>
      have hfiles : (∃ after, ((s.files.insert other none).insert file target).find after =
            some (some old)) ↔
          ∃ after, after ≠ file ∧ s.files.find after = some (some old) := by
        constructor
        · rintro ⟨after, hafter⟩
          rw [AssocMap.find_insert, AssocMap.find_insert] at hafter
          by_cases heq : after = file
          · rw [if_pos heq, Option.some.injEq] at hafter
            exact ⟨other, Ne.symm hne, hafter ▸ hother⟩
          · rw [if_neg heq] at hafter
            by_cases hmoved : after = other
            · simp [hmoved] at hafter
            · exact ⟨after, heq, by rwa [if_neg hmoved] at hafter⟩
        · rintro ⟨after, heq, hafter⟩
          by_cases hmoved : after = other
          · rw [hmoved, hother, Option.some.injEq] at hafter
            exact ⟨file, by rw [AssocMap.find_insert, if_pos rfl, hafter]⟩
          · exact ⟨after, by
              rw [AssocMap.find_insert, if_neg heq, AssocMap.find_insert, if_neg hmoved, hafter]⟩
      have hgone := find_release_eq_none_iff hpointed hfile hfiles
      simp only [setFileHandle, hfind, hfile, Option.some.injEq, forall_eq', exists_eq_left']
      exact hgone

theorem attach_counted (hcounted : s.Counted) (hfile : s.files.find file = none) (handle : Nat) :
    (increaseOpenCount { s with files := s.files.insert file (some handle) } handle).Counted := by
  apply surplus_zero_iff.1
  exact (((surplus_zero_iff.2 hcounted).insertFile file (some handle)).increaseOpenCount
    handle).congr fun _ => by simp [hfile]

theorem moveConstruct_counted (hcounted : s.Counted) (hfile : s.files.find file = none)
    {held : Option Nat} (hother : s.files.find other = some held) :
    Counted { s with files := (s.files.insert file held).insert other none } := by
  have hne : other ≠ file := fun heq => by simp [heq, hfile] at hother
  apply surplus_zero_iff.1
  exact (((surplus_zero_iff.2 hcounted).insertFile file held).insertFile other none).congr
    fun _ => by simp [hfile, hne, hother]

theorem destroy_counted (hcounted : s.Counted) {handle : Nat}
    (hfile : s.files.find file = some (some handle)) :
    (release { s.decreaseOpenCount handle with
      files := (s.decreaseOpenCount handle).files.erase file } handle).Counted := by
  have hfiles : (s.decreaseOpenCount handle).files = s.files := files_modify handle _
  apply surplus_zero_iff.1
  exact ((((surplus_zero_iff.2 hcounted).decreaseOpenCount handle).eraseFile file).release
    handle).congr fun _ => by simp [hfiles, hfile]

theorem pointers_counted (hcounted : s.Counted) (handle : Nat)
    {change : CountedHandle → CountedHandle}
    (hchange : ∀ counted, (change counted).openCount = counted.openCount) :
    (s.modify handle change).Counted :=
  surplus_zero_iff.1 (((surplus_zero_iff.2 hcounted).modify handle 0 (by simpa using hchange)).congr
    fun _ => by simp)

theorem makeHandle_counted (hpointed : s.Pointed) (hcounted : s.Counted) {handle : Nat}
    (hnew : s.handles.find handle = none) :
    Counted { s with handles := s.handles.insert handle ⟨0, 1⟩ } := by
  rw [OpenFiles.counted_iff] at hcounted ⊢
  intro other counted hfind
  rw [AssocMap.find_insert] at hfind
  by_cases heq : other = handle
  · rw [if_pos heq, Option.some.injEq] at hfind
    have hzero : s.referring handle = 0 :=
      (referring_eq_zero_iff handle).2 fun file hfile => hpointed file handle hfile hnew
    rw [← hfind, heq]
    change (0 : Int) = s.referring handle
    rw [hzero]
    rfl
  · rw [if_neg heq] at hfind
    exact hcounted other counted hfind

theorem perform_makeHandle (hpointed : s.Pointed) (hcounted : s.Counted) {handle : Nat}
    (hperform : s.perform (.makeHandle handle) = some t) : t.Pointed ∧ t.Counted := by
  simp only [perform] at hperform
  split at hperform <;> simp only [Option.some.injEq, reduceCtorEq] at hperform
  case _ hnew =>
      subst hperform
      refine ⟨fun file other hfile => ?_, makeHandle_counted hpointed hcounted hnew⟩
      by_cases heq : other = handle
      · simp [heq]
      · simpa [heq] using hpointed file other hfile

theorem perform_addPointer (hpointed : s.Pointed) (hcounted : s.Counted) {handle : Nat}
    (hperform : s.perform (.addPointer handle) = some t) : t.Pointed ∧ t.Counted := by
  simp only [perform] at hperform
  split at hperform <;> simp only [Option.some.injEq, reduceCtorEq] at hperform
  subst hperform
  exact ⟨hpointed.modify handle _, pointers_counted hcounted handle fun _ => rfl⟩

theorem perform_dropPointer (hpointed : s.Pointed) (hcounted : s.Counted) {handle : Nat}
    (hperform : s.perform (.dropPointer handle) = some t) : t.Pointed ∧ t.Counted := by
  simp only [perform] at hperform
  split at hperform
  · simp at hperform
  · split at hperform <;> simp only [Option.some.injEq, reduceCtorEq] at hperform
    subst hperform
    refine ⟨(hpointed.modify handle _).release handle, surplus_zero_iff.1 ?_⟩
    apply Surplus.release
    exact surplus_zero_iff.2 (pointers_counted hcounted handle fun _ => rfl)

theorem perform_construct (hpointed : s.Pointed) (hcounted : s.Counted) {handle : Nat}
    (hperform : s.perform (.construct file handle) = some t) : t.Pointed ∧ t.Counted := by
  simp only [perform] at hperform
  split at hperform <;> simp only [Option.some.injEq, reduceCtorEq] at hperform
  case _ counted hnone hfind =>
      subst hperform
      exact ⟨(hpointed.insertFile file (by simp [hfind])).modify handle _,
        attach_counted hcounted hnone handle⟩

theorem perform_copyConstruct (hpointed : s.Pointed) (hcounted : s.Counted)
    (hperform : s.perform (.copyConstruct file other) = some t) : t.Pointed ∧ t.Counted := by
  simp only [perform] at hperform
  split at hperform <;> simp only [Option.some.injEq, reduceCtorEq] at hperform
  case _ handle hnone hother =>
      subst hperform
      have hlive := hpointed other handle hother
      exact ⟨(hpointed.insertFile file (by simpa using hlive)).modify handle _,
        attach_counted hcounted hnone handle⟩

theorem perform_moveConstruct (hpointed : s.Pointed) (hcounted : s.Counted)
    (hperform : s.perform (.moveConstruct file other) = some t) : t.Pointed ∧ t.Counted := by
  simp only [perform] at hperform
  split at hperform <;> simp only [Option.some.injEq, reduceCtorEq] at hperform
  case _ held hnone hother =>
      subst hperform
      have hlive := hpointed.live hother
      exact ⟨Pointed.insertFile (hpointed.insertFile file hlive) other (by simp),
        moveConstruct_counted hcounted hnone hother⟩

theorem perform_copyAssign (hpointed : s.Pointed) (hcounted : s.Counted)
    (hperform : s.perform (.copyAssign file other) = some t) :
    t.Pointed ∧ (t.Counted ↔ ¬ s.LosesCount (.copyAssign file other)) := by
  simp only [perform] at hperform
  split at hperform
  case _ old held hfile hother =>
      by_cases heq : file = other
      · simp only [heq, ↓reduceIte, Option.some.injEq] at hperform
        subst hperform
        exact ⟨hpointed, iff_of_true hcounted fun hloses => hloses.1 heq⟩
      · cases held <;> simp only [heq, ↓reduceIte, Option.some.injEq, reduceCtorEq] at hperform
        case some handle =>
            subst hperform
            have hlive := hpointed other handle hother
            exact ⟨(hpointed.setFileHandle file (by simpa using hlive)).modify handle _,
              copyAssign_counted_iff hpointed hcounted heq hfile hother⟩
  · simp at hperform

theorem perform_moveAssign (hpointed : s.Pointed) (hcounted : s.Counted)
    (hperform : s.perform (.moveAssign file other) = some t) :
    t.Pointed ∧ (t.Counted ↔ ¬ s.LosesCount (.moveAssign file other)) := by
  simp only [perform] at hperform
  split at hperform
  case _ old held hfile hother =>
      by_cases heq : file = other
      · simp only [heq, ↓reduceIte, Option.some.injEq] at hperform
        subst hperform
        exact ⟨hpointed, iff_of_true hcounted fun hloses => hloses.1 heq⟩
      · simp only [heq, ↓reduceIte, Option.some.injEq] at hperform
        subst hperform
        have hlive := hpointed.live hother
        exact ⟨Pointed.setFileHandle (hpointed.insertFile other (by simp)) file hlive,
          moveAssign_counted_iff hpointed hcounted heq hfile hother⟩
  · simp at hperform

theorem perform_destroy (hpointed : s.Pointed) (hcounted : s.Counted)
    (hperform : s.perform (.destroy file) = some t) : t.Pointed ∧ t.Counted := by
  simp only [perform] at hperform
  split at hperform <;> simp only [Option.some.injEq, reduceCtorEq] at hperform
  case _ hfile =>
      subst hperform
      refine ⟨hpointed.eraseFile file, surplus_zero_iff.1 ?_⟩
      exact ((surplus_zero_iff.2 hcounted).eraseFile file).congr fun _ => by simp [hfile]
  case _ handle hfile =>
      subst hperform
      exact ⟨(Pointed.eraseFile (hpointed.modify _ _) file).release _,
        destroy_counted hcounted hfile⟩

/-- One operation keeps the counts exact unless it is an assignment that loses one. -/
theorem perform_counted_iff (hpointed : s.Pointed) (hcounted : s.Counted) {op : FileOp}
    (hperform : s.perform op = some t) : t.Pointed ∧ (t.Counted ↔ ¬ s.LosesCount op) := by
  -- only assignments can lose a count
  have hexact : t.Pointed ∧ t.Counted → ¬ s.LosesCount op →
      t.Pointed ∧ (t.Counted ↔ ¬ s.LosesCount op) :=
    fun hboth hkeeps => ⟨hboth.1, iff_of_true hboth.2 hkeeps⟩
  cases op with
  | makeHandle handle => exact hexact (perform_makeHandle hpointed hcounted hperform) id
  | addPointer handle => exact hexact (perform_addPointer hpointed hcounted hperform) id
  | dropPointer handle => exact hexact (perform_dropPointer hpointed hcounted hperform) id
  | construct file handle => exact hexact (perform_construct hpointed hcounted hperform) id
  | copyConstruct file other => exact hexact (perform_copyConstruct hpointed hcounted hperform) id
  | moveConstruct file other => exact hexact (perform_moveConstruct hpointed hcounted hperform) id
  | copyAssign file other => exact perform_copyAssign hpointed hcounted hperform
  | moveAssign file other => exact perform_moveAssign hpointed hcounted hperform
  | destroy file => exact hexact (perform_destroy hpointed hcounted hperform) id

end Step

/-- No step of the run is an assignment that loses a count. -/
def LosesNoCount : List FileOp → OpenFiles → Prop
  | [], _ => True
  | op :: ops, s => ∀ t, s.perform op = some t → ¬ s.LosesCount op ∧ LosesNoCount ops t

theorem run_counted_iff {s : OpenFiles} (hpointed : s.Pointed) (hcounted : s.Counted)
    (ops : List FileOp) :
    (∀ done t, done <+: ops → run done s = some t → t.Counted) ↔ LosesNoCount ops s := by
  induction ops generalizing s with
  | nil =>
      simp only [LosesNoCount, iff_true]
      intro done t hdone hrun
      obtain rfl := List.prefix_nil.1 hdone
      exact Option.some.inj hrun ▸ hcounted
  | cons op ops ih =>
      constructor
      · intro hall t hperform
        have hfirst : t.Counted := hall [op] t (by simp) (by simp [run, hperform])
        obtain ⟨hpointed', hiff⟩ := perform_counted_iff hpointed hcounted hperform
        refine ⟨hiff.1 hfirst, (ih hpointed' hfirst).1 fun done u hdone hrun => ?_⟩
        exact hall (op :: done) u (List.cons_prefix_cons.2 ⟨rfl, hdone⟩)
          (by rw [run, hperform]; exact hrun)
      · intro hsteps done u hdone hrun
        cases done with
        | nil => exact Option.some.inj hrun ▸ hcounted
        | cons first done =>
            obtain ⟨rfl, hrest⟩ := List.cons_prefix_cons.1 hdone
            obtain ⟨t, hperform, hrun⟩ := Option.bind_eq_some_iff.1 hrun
            obtain ⟨hkept, hsteps⟩ := hsteps t hperform
            obtain ⟨hpointed', hiff⟩ := perform_counted_iff hpointed hcounted hperform
            exact (ih hpointed' (hiff.2 hkept)).2 hsteps done u hrest hrun

/-- Every handle counts the files that refer to it in all states of a run, just if no
step assigns over a file whose handle lives on: the old handle's count stays. -/
theorem openCount_eq_referring_iff (ops : List FileOp) :
    (∀ done t, done <+: ops → run done empty = some t → t.Counted) ↔
      LosesNoCount ops empty := by
  apply run_counted_iff
  · intro file handle hfile
    simp [empty] at hfile
  · intro handle count hcount
    simp [empty, openCount] at hcount

namespace Sample

/-- Two handles in the registry, an open file of each, and one assigned to the other. -/
def assigned : List FileOp :=
  [.makeHandle 0, .makeHandle 1, .construct 0 0, .construct 1 1, .copyAssign 0 1]

theorem assigned_not_counted :
    ¬ ∀ ops done t, done <+: ops → run done empty = some t → t.Counted := by
  intro hall
  have hrun : (run assigned empty).bind (fun t => t.openCount 0) = some 1 := by decide
  obtain ⟨t, ht, hcount⟩ := Option.bind_eq_some_iff.1 hrun
  have hreferring : (run assigned empty).map (fun t => t.referring 0) = some 0 := by decide
  rw [ht, Option.map_some, Option.some.injEq] at hreferring
  have hexact := hall assigned assigned t (List.prefix_refl assigned) ht 0 1 hcount
  rw [hreferring] at hexact
  exact absurd hexact (by decide)

end Sample

end OpenFiles

end GEDS
