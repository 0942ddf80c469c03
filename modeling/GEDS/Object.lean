/-
Byte strings, objects and status values shared by the C++ and Go code.  Both
languages treat names as byte sequences and compare them byte by byte without
sign, so one type serves bucket names, keys, locations and error texts.
-/
import GEDS.Library.MachineWord
import GEDS.Library.Separator
import Mathlib.Data.List.Lex
import Mathlib.Tactic

namespace GEDS

/-- `std::string` and Go `string`: a sequence of bytes. -/
abbrev Bytes := List UInt8

/-- Bytes are ordered as unsigned values, as `std::char_traits<char>::compare`
orders them. -/
instance byteOrder : LinearOrder UInt8 where
  le := (· ≤ ·)
  lt := (· < ·)
  le_refl := UInt8.le_refl
  le_trans _ _ _ := UInt8.le_trans
  le_antisymm _ _ := UInt8.le_antisymm
  le_total := UInt8.le_total
  lt_iff_le_not_ge left right := by
    rw [UInt8.lt_iff_toNat_lt, UInt8.le_iff_toNat_le, UInt8.le_iff_toNat_le]
    omega
  toDecidableLE := inferInstance
  toDecidableEq := inferInstance
  toDecidableLT := inferInstance

/-- The bytes of a string literal. -/
def text (literal : String) : Bytes := literal.toUTF8.data.toList

/-- The separator between a bucket and a key, and between directories. -/
def slash : UInt8 := 0x2f

theorem text_slash : text "/" = [slash] := by
  decide

/-- `bucket + "/" + key`. -/
def fullName (bucket key : Bytes) : Bytes := bucket ++ slash :: key

/-- A bucket name without a separator is recovered from the full name. -/
theorem fullName_inj {bucket key bucket' key' : Bytes} (hbucket : slash ∉ bucket)
    (hbucket' : slash ∉ bucket') :
    fullName bucket key = fullName bucket' key' ↔
      bucket = bucket' ∧ key = key' :=
  append_cons_inj_of_not_mem hbucket hbucket'

theorem fullName_inj_right (bucket key key' : Bytes) :
    fullName bucket key = fullName bucket key' ↔ key = key' := by
  simp [fullName]

theorem fullName_ne_right (bucket key : Bytes) : fullName bucket key ≠ key := by
  intro heq
  have hlength := congrArg List.length heq
  simp only [fullName, List.length_append, List.length_cons] at hlength
  omega

/-- `geds::ObjectInfo` -/
structure ObjectInfo where
  location : Bytes
  size : UInt64
  sealedOffset : UInt64
  metadata : Option Bytes
deriving DecidableEq

/-- `geds::ObjectID` -/
structure ObjectID where
  bucket : Bytes
  key : Bytes
deriving DecidableEq

/-- `geds::Object` -/
structure Object where
  id : ObjectID
  info : ObjectInfo
deriving DecidableEq

/-- The status codes that the modelled code constructs. -/
inductive StatusCode where
  | ok
  | unknown
  | invalidArgument
  | notFound
  | alreadyExists
  | failedPrecondition
  | internal
  | unavailable
deriving DecidableEq

/-- `absl::Status` -/
structure Status where
  code : StatusCode
  message : Bytes
deriving DecidableEq

namespace Status

def okStatus : Status := ⟨.ok, []⟩

def notFoundError (message : Bytes) : Status := ⟨.notFound, message⟩

def alreadyExistsError (message : Bytes) : Status := ⟨.alreadyExists, message⟩

def failedPreconditionError (message : Bytes) : Status :=
  ⟨.failedPrecondition, message⟩

def unknownError (message : Bytes) : Status := ⟨.unknown, message⟩

def unavailableError (message : Bytes) : Status := ⟨.unavailable, message⟩

def ok (status : Status) : Bool := decide (status.code = .ok)

end Status

end GEDS
