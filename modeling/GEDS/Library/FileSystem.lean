/-
Files as POSIX has them: paths link to inodes, inodes hold bytes, and an inode
outlives its last link while somebody has it open.  There are no hard links
here, so an inode has one path at most.
-/
import GEDS.Library.AssocMap
import GEDS.Library.Heap

namespace GEDS

universe u

/-- A file system; every link leads to an inode of its own. -/
structure FileSystem (π : Type u) [DecidableEq π] where
  links : AssocMap π Nat
  inodes : Heap (List UInt8)
  bounded : ∀ {path inode}, links.find path = some inode → inode < inodes.next
  single : ∀ {path path' inode}, links.find path = some inode →
    links.find path' = some inode → path = path'

namespace FileSystem

variable {π : Type u} [DecidableEq π]

def empty : FileSystem π where
  links := AssocMap.empty
  inodes := Heap.empty
  bounded hfind := by simp at hfind
  single hfind := by simp at hfind

variable (fs : FileSystem π)

/-- Bytes written at a position; a gap before it reads as zeros. -/
def overwrite (content : List UInt8) (position : Nat) (bytes : List UInt8) : List UInt8 :=
  if bytes = [] then content
  else content.take position ++ List.replicate (position - content.length) 0 ++ bytes ++
    content.drop (position + bytes.length)

def content (inode : Nat) : List UInt8 := fs.inodes.get inode

def setContent (inode : Nat) (bytes : List UInt8) : FileSystem π where
  links := fs.links
  inodes := fs.inodes.set inode bytes
  bounded := fs.bounded
  single := fs.single

/-- `open` with `O_CREAT`, for a path without a link: a new inode. -/
def create (path : π) (_hmissing : fs.links.find path = none) : FileSystem π where
  links := fs.links.insert path fs.inodes.next
  inodes := fs.inodes.alloc []
  bounded := by
    intro path' inode hfind
    rw [AssocMap.find_insert] at hfind
    split_ifs at hfind
    · obtain rfl := Option.some.inj hfind
      exact Nat.lt_succ_self _
    · exact Nat.lt_succ_of_lt (fs.bounded hfind)
  single := by
    intro path' path'' inode hfind hfind'
    rw [AssocMap.find_insert] at hfind hfind'
    split_ifs at hfind hfind' with hnew hnew'
    · rw [hnew, hnew']
    · obtain rfl := Option.some.inj hfind
      exact absurd (fs.bounded hfind') (lt_irrefl _)
    · obtain rfl := Option.some.inj hfind'
      exact absurd (fs.bounded hfind) (lt_irrefl _)
    · exact fs.single hfind hfind'

/-- `open` with `O_RDWR | O_CREAT`, and `O_TRUNC` on demand: the inode that the
descriptor refers to. -/
def openFile (path : π) (truncate : Bool) : Nat × FileSystem π :=
  match hfind : fs.links.find path with
  | some inode => (inode, if truncate then fs.setContent inode [] else fs)
  | none => (fs.inodes.next, fs.create path hfind)

def unlink (path : π) : FileSystem π where
  links := fs.links.erase path
  inodes := fs.inodes
  bounded := by
    intro path' inode hfind
    rw [AssocMap.find_erase] at hfind
    split_ifs at hfind
    exact fs.bounded hfind
  single := by
    intro path' path'' inode hfind hfind'
    rw [AssocMap.find_erase] at hfind hfind'
    split_ifs at hfind hfind'
    exact fs.single hfind hfind'

/-- `pwrite` -/
def pwrite (inode position : Nat) (bytes : List UInt8) : FileSystem π :=
  fs.setContent inode (overwrite (fs.content inode) position bytes)

/-- `pread` -/
def pread (inode position length : Nat) : List UInt8 :=
  ((fs.content inode).drop position).take length

/-- `ftruncate` -/
def ftruncate (inode size : Nat) : FileSystem π :=
  fs.setContent inode ((fs.content inode).take size ++
    List.replicate (size - (fs.content inode).length) 0)

variable {fs} {path : π} {truncate : Bool}

/-- The bytes before the position are the same for all writes to it. -/
theorem overwrite_eq (content : List UInt8) (position : Nat) :
    ∃ front : List UInt8, front.length = position ∧
      ∀ bytes : List UInt8, bytes ≠ [] →
        overwrite content position bytes =
          front ++ bytes ++ content.drop (position + bytes.length) := by
  refine ⟨content.take position ++ List.replicate (position - content.length) 0, ?_, ?_⟩
  · rw [List.length_append, List.length_take, List.length_replicate]
    omega
  · intro bytes hbytes
    rw [overwrite, if_neg hbytes]

/-- Two writes, the second behind the first, are one. -/
theorem overwrite_overwrite (content : List UInt8) (position : Nat) (bytes more : List UInt8) :
    overwrite (overwrite content position bytes) (position + bytes.length) more =
      overwrite content position (bytes ++ more) := by
  by_cases hbytes : bytes = []
  · simp [hbytes, overwrite]
  · by_cases hmore : more = []
    · simp [hmore, overwrite]
    · obtain ⟨front, hfront, heq⟩ := overwrite_eq content position
      have hlength : (front ++ bytes).length = position + bytes.length := by
        rw [List.length_append, hfront]
      rw [heq bytes hbytes, heq (bytes ++ more) (by simp [hbytes]), overwrite, if_neg hmore]
      generalize hrest : content.drop (position + bytes.length) = rest
      have hgap : position + bytes.length - (front ++ bytes ++ rest).length = 0 := by
        rw [List.length_append, hlength]
        omega
      rw [hgap, ← hlength, List.take_left, ← List.drop_drop, List.drop_left, ← hrest,
        List.drop_drop, List.length_append, Nat.add_assoc]
      simp

/-- What is found from the position of a write on. -/
theorem drop_overwrite (content : List UInt8) (position : Nat) (bytes : List UInt8) :
    (overwrite content position bytes).drop position =
      bytes ++ content.drop (position + bytes.length) := by
  by_cases hbytes : bytes = []
  · simp [hbytes, overwrite]
  · obtain ⟨front, hfront, heq⟩ := overwrite_eq content position
    rw [heq bytes hbytes, ← hfront, List.append_assoc, List.drop_left]

theorem content_pwrite (inode position : Nat) (bytes : List UInt8) :
    (fs.pwrite inode position bytes).content inode =
      overwrite (fs.content inode) position bytes :=
  Heap.get_set_self _ _ _

theorem length_pread (inode position length : Nat) :
    (fs.pread inode position length).length =
      min length ((fs.content inode).length - position) := by
  rw [pread, List.length_take, List.length_drop]

/-- A read that goes on where the one before it stopped. -/
theorem pread_append (inode position length more : Nat) :
    fs.pread inode position length ++ fs.pread inode (position + length) more =
      fs.pread inode position (length + more) := by
  rw [pread, pread, pread, ← List.drop_drop, ← List.take_add]

/-- A read is determined by how much it finds. -/
theorem pread_of_length {inode position length count : Nat}
    (hlength : (fs.pread inode position count).length = length) :
    fs.pread inode position count = fs.pread inode position length := by
  rw [length_pread] at hlength
  rw [pread, pread, List.take_eq_take_iff, List.length_drop]
  omega

/-- A write that goes on where the one before it stopped. -/
theorem pwrite_pwrite (inode position : Nat) (bytes more : List UInt8) :
    (fs.pwrite inode position bytes).pwrite inode (position + bytes.length) more =
      fs.pwrite inode position (bytes ++ more) := by
  rw [pwrite, content_pwrite, overwrite_overwrite]
  simp [pwrite, setContent, Heap.set]

theorem pwrite_nil (inode position : Nat) : fs.pwrite inode position [] = fs := by
  simp [pwrite, setContent, overwrite, content, Heap.set]

theorem openFile_of_some {inode : Nat} (hfind : fs.links.find path = some inode) :
    fs.openFile path truncate =
      (inode, if truncate then fs.setContent inode [] else fs) := by
  rw [openFile]
  split
  · rename_i linked hlinked
    obtain rfl := Option.some.inj (hlinked.symm.trans hfind)
    rfl
  · rename_i hnone
    exact absurd (hnone.symm.trans hfind) (Option.some_ne_none inode).symm

theorem openFile_of_none (hfind : fs.links.find path = none) :
    fs.openFile path truncate = (fs.inodes.next, fs.create path hfind) := by
  rw [openFile]
  split
  · rename_i linked hlinked
    exact absurd (hlinked.symm.trans hfind) (Option.some_ne_none linked)
  · rfl

/-- The path leads to the opened inode, all other paths lead where they led. -/
theorem find_openFile (other : π) :
    (fs.openFile path truncate).2.links.find other =
      if other = path then some (fs.openFile path truncate).1 else fs.links.find other := by
  cases hfind : fs.links.find path with
  | some inode =>
      rw [openFile_of_some hfind]
      have hlinks : (if truncate then fs.setContent inode [] else fs).links = fs.links := by
        split_ifs <;> rfl
      simp only [hlinks]
      split_ifs with hother
      · rw [hother, hfind]
      · rfl
  | none =>
      rw [openFile_of_none hfind]
      exact fs.links.find_insert path fs.inodes.next other

/-- Opening a path can change the bytes of the inode that it leads to, and of no
other inode in use. -/
theorem content_openFile_of_ne {inode : Nat} (hused : inode < fs.inodes.next)
    (hne : fs.links.find path ≠ some inode) :
    (fs.openFile path truncate).2.content inode = fs.content inode := by
  cases hfind : fs.links.find path with
  | some linked =>
      rw [openFile_of_some hfind]
      rw [hfind] at hne
      split_ifs
      · exact Heap.get_set_of_ne _ _ (fun heq => hne (congrArg some heq.symm))
      · rfl
  | none =>
      rw [openFile_of_none hfind]
      exact Heap.get_alloc_of_ne _ _ (Nat.ne_of_lt hused)

/-- Opening a path with `O_TRUNC` empties the inode that it leads to, and no other one. -/
theorem content_openFile (inode : Nat) :
    (fs.openFile path true).2.content inode =
      if inode = (fs.openFile path true).1 then [] else fs.content inode := by
  cases hfind : fs.links.find path with
  | some linked =>
      rw [openFile_of_some hfind]
      exact Function.update_apply _ _ _ _
  | none =>
      rw [openFile_of_none hfind]
      exact Function.update_apply _ _ _ _

/-- A file that is opened with `O_TRUNC` is empty. -/
theorem content_openFile_truncated :
    (fs.openFile path true).2.content (fs.openFile path true).1 = [] :=
  (content_openFile _).trans (if_pos rfl)

/-- The inode that is opened is in use then. -/
theorem fst_openFile_lt : (fs.openFile path truncate).1 <
    (fs.openFile path truncate).2.inodes.next := by
  cases hfind : fs.links.find path with
  | some linked =>
      rw [openFile_of_some hfind]
      split_ifs <;> exact fs.bounded hfind
  | none =>
      rw [openFile_of_none hfind]
      exact Nat.lt_succ_self _

theorem next_le_openFile : fs.inodes.next ≤ (fs.openFile path truncate).2.inodes.next := by
  cases hfind : fs.links.find path with
  | some linked =>
      rw [openFile_of_some hfind]
      split_ifs <;> exact Nat.le_refl _
  | none =>
      rw [openFile_of_none hfind]
      exact Nat.le_succ _

/-- The inode that is opened is the one that the path leads to, or a new one. -/
theorem fst_openFile_ne {inode : Nat} (hused : inode < fs.inodes.next)
    (hne : fs.links.find path ≠ some inode) : (fs.openFile path truncate).1 ≠ inode := by
  rintro rfl
  cases hfind : fs.links.find path with
  | some linked =>
      rw [openFile_of_some hfind] at hne
      exact hne hfind
  | none =>
      rw [openFile_of_none hfind] at hused
      exact Nat.lt_irrefl _ hused

@[simp] theorem find_unlink (other : π) :
    (fs.unlink path).links.find other =
      if other = path then none else fs.links.find other :=
  fs.links.find_erase path other

@[simp] theorem content_unlink (inode : Nat) :
    (fs.unlink path).content inode = fs.content inode := rfl

end FileSystem

end GEDS
