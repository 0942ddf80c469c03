/-
The local path of an object.  `getLocalPath` looks an object up under its full
name but files it under its key, so which objects share a backing file depends
on the names and on the order of the calls.
-/
import GEDS.ConcurrentMap
import GEDS.Names
import Std.Data.String.ToNat

namespace GEDS

/-- The members of `GEDS` that name local files. -/
structure FileNames where
  pathPrefix : Bytes
  fileNames : ConcurrentMap Bytes UInt64
  fileNameCounter : UInt64

namespace FileNames

def new (pathPrefix : Bytes) : FileNames := ⟨pathPrefix, OrderedMap.empty, 0⟩

variable (names : FileNames)

/-- `_pathPrefix + "/" + bucket + "/" + std::to_string(number)` -/
def localPath (bucket : Bytes) (number : UInt64) : Bytes :=
  fullName names.pathPrefix (fullName bucket (text (toString number.toNat)))

/-- `GEDS::getLocalPath` -/
def getLocalPath (objectID : ObjectID) : Bytes × FileNames :=
  let postfixName := fullName objectID.bucket objectID.key
  match names.fileNames.get postfixName with
  | some number => (names.localPath objectID.bucket number, names)
  | none =>
      let value := names.fileNameCounter
      let inserted := names.fileNames.insertOrExists objectID.key value
      (names.localPath objectID.bucket inserted.1,
        { names with fileNames := inserted.2, fileNameCounter := value + 1 })

/-- The names after a sequence of calls. -/
def run (calls : List ObjectID) : FileNames :=
  calls.foldl (fun names objectID => (names.getLocalPath objectID).2) names

/-- The table has an entry under the full name of the object. -/
def FoundInFull (objectID : ObjectID) : Prop :=
  names.fileNames.find (fullName objectID.bucket objectID.key) ≠ none

instance (objectID : ObjectID) : Decidable (names.FoundInFull objectID) :=
  inferInstanceAs (Decidable (_ ≠ none))

/-- The name in the table whose number the call returns. -/
def answerName (objectID : ObjectID) : Bytes :=
  if names.FoundInFull objectID then fullName objectID.bucket objectID.key
  else objectID.key

variable {names} {objectID : ObjectID}

theorem getLocalPath_of_found (hfound : names.FoundInFull objectID) :
    (names.getLocalPath objectID).2 = names := by
  obtain ⟨number, hfind⟩ := Option.ne_none_iff_exists'.mp hfound
  simp only [getLocalPath, ConcurrentMap.get, hfind]

theorem getLocalPath_of_not_found (hfound : ¬ names.FoundInFull objectID) :
    (names.getLocalPath objectID).2 =
      { names with
        fileNames := (names.fileNames.insertOrExists objectID.key names.fileNameCounter).2
        fileNameCounter := names.fileNameCounter + 1 } := by
  have hfind := not_not.mp hfound
  simp only [getLocalPath, ConcurrentMap.get, hfind]

@[simp] theorem pathPrefix_getLocalPath :
    (names.getLocalPath objectID).2.pathPrefix = names.pathPrefix := by
  by_cases hfound : names.FoundInFull objectID
  · rw [getLocalPath_of_found hfound]
  · rw [getLocalPath_of_not_found hfound]

/-- Only a call that is not found in full enters anything, and only its key. -/
theorem find_getLocalPath (name : Bytes) :
    (names.getLocalPath objectID).2.fileNames.find name =
      if ¬ names.FoundInFull objectID ∧ name = objectID.key then
        some ((names.fileNames.find name).getD names.fileNameCounter)
      else names.fileNames.find name := by
  by_cases hfound : names.FoundInFull objectID
  · rw [getLocalPath_of_found hfound, if_neg (fun h => h.1 hfound)]
  · rw [getLocalPath_of_not_found hfound, ConcurrentMap.find_insertOrExists]
    by_cases hname : name = objectID.key
    · rw [if_pos hname, if_pos ⟨hfound, hname⟩, hname]
    · rw [if_neg hname, if_neg (fun h => hname h.2)]

/-- An entry never changes. -/
theorem find_getLocalPath_of_some {name : Bytes} {number : UInt64}
    (hfind : names.fileNames.find name = some number) :
    (names.getLocalPath objectID).2.fileNames.find name = some number := by
  rw [find_getLocalPath]
  split_ifs
  · rw [hfind]
    rfl
  · exact hfind

/-- A call returns the number that the table has for its answering name
afterwards. -/
theorem getLocalPath_fst : ∃ number,
    (names.getLocalPath objectID).2.fileNames.find (names.answerName objectID) =
      some number ∧
    (names.getLocalPath objectID).1 = names.localPath objectID.bucket number := by
  by_cases hfound : names.FoundInFull objectID
  · obtain ⟨number, hfind⟩ := Option.ne_none_iff_exists'.mp hfound
    refine ⟨number, ?_, ?_⟩
    · rw [getLocalPath_of_found hfound, answerName, if_pos hfound]
      exact hfind
    · simp only [getLocalPath, ConcurrentMap.get, hfind]
  · have hfind := not_not.mp hfound
    refine ⟨(names.fileNames.find objectID.key).getD names.fileNameCounter, ?_, ?_⟩
    · rw [find_getLocalPath, answerName, if_neg hfound, if_pos ⟨hfound, rfl⟩]
    · simp only [getLocalPath, ConcurrentMap.get, hfind, ConcurrentMap.insertOrExists_fst]

theorem find_run_of_some {name : Bytes} {number : UInt64}
    (hfind : names.fileNames.find name = some number) (calls : List ObjectID) :
    (names.run calls).fileNames.find name = some number := by
  induction calls generalizing names with
  | nil => exact hfind
  | cons call rest ih => exact ih (find_getLocalPath_of_some hfind)

@[simp] theorem pathPrefix_run (calls : List ObjectID) :
    (names.run calls).pathPrefix = names.pathPrefix := by
  induction calls generalizing names with
  | nil => rfl
  | cons call rest ih => exact ih.trans pathPrefix_getLocalPath

section Turn

/-- How often the counter is read until the name is in the table. -/
def turn (names : FileNames) (name : Bytes) : List ObjectID → Nat
  | [] => 0
  | call :: rest =>
      if names.fileNames.find name ≠ none then 0
      else (if names.FoundInFull call then 0 else 1) +
        turn (names.getLocalPath call).2 name rest

variable {name : Bytes} {calls : List ObjectID}

theorem turn_of_some (hsome : names.fileNames.find name ≠ none) :
    names.turn name calls = 0 := by
  cases calls with
  | nil => rfl
  | cons call rest => rw [turn, if_pos hsome]

theorem turn_le_length : names.turn name calls ≤ calls.length := by
  induction calls generalizing names with
  | nil => exact le_rfl
  | cons call rest ih =>
      have hrest := @ih (names.getLocalPath call).2
      rw [turn, List.length_cons]
      split_ifs <;> omega

/-- The call that enters a name reads the counter for it. -/
theorem number_eq_turn (hnone : names.fileNames.find name = none) {number : UInt64}
    (hfind : (names.run calls).fileNames.find name = some number) :
    number + 1 = names.fileNameCounter + UInt64.ofNat (names.turn name calls) ∧
      0 < names.turn name calls := by
  induction calls generalizing names with
  | nil =>
      change names.fileNames.find name = some number at hfind
      rw [hnone] at hfind
      cases hfind
  | cons call rest ih =>
      change ((names.getLocalPath call).2.run rest).fileNames.find name = some number
        at hfind
      rw [turn, if_neg (not_not.mpr hnone)]
      have hnext := @find_getLocalPath names call name
      by_cases henters : ¬ names.FoundInFull call ∧ name = call.key
      · rw [if_pos henters, hnone] at hnext
        rw [find_run_of_some hnext] at hfind
        have hsome : (names.getLocalPath call).2.fileNames.find name ≠ none := by
          rw [hnext]
          exact Option.some_ne_none _
        rw [if_neg henters.1, turn_of_some hsome]
        refine ⟨?_, Nat.one_pos⟩
        rw [← Option.some.inj hfind]
        rfl
      · rw [if_neg henters, hnone] at hnext
        obtain ⟨hnumber, hpos⟩ := ih hnext hfind
        refine ⟨?_, by omega⟩
        rw [hnumber]
        by_cases hfound : names.FoundInFull call
        · rw [getLocalPath_of_found hfound, if_pos hfound, Nat.zero_add]
        · rw [getLocalPath_of_not_found hfound, if_neg hfound]
          simp only [UInt64.ofNat_add, UInt64.add_assoc]
          rfl

/-- No two names are entered by the same call. -/
theorem turn_injective {other : Bytes} (hnone : names.fileNames.find name = none)
    (hother : names.fileNames.find other = none)
    (hsome : (names.run calls).fileNames.find name ≠ none)
    (hsome' : (names.run calls).fileNames.find other ≠ none)
    (hturn : names.turn name calls = names.turn other calls) : name = other := by
  induction calls generalizing names with
  | nil => exact absurd hnone hsome
  | cons call rest ih =>
      change ((names.getLocalPath call).2.run rest).fileNames.find name ≠ none at hsome
      change ((names.getLocalPath call).2.run rest).fileNames.find other ≠ none at hsome'
      rw [turn, turn, if_neg (not_not.mpr hnone), if_neg (not_not.mpr hother)] at hturn
      have hrest := Nat.add_left_cancel hturn
      have hentered : ∀ entered, names.fileNames.find entered = none →
          (names.getLocalPath call).2.fileNames.find entered ≠ none →
          entered = call.key := by
        intro entered habsent hpresent
        rw [find_getLocalPath] at hpresent
        split_ifs at hpresent with henters
        · exact henters.2
        · exact absurd habsent hpresent
      -- a name that is still missing has a turn ahead of it
      have hahead : ∀ missing, (names.getLocalPath call).2.fileNames.find missing = none →
          ((names.getLocalPath call).2.run rest).fileNames.find missing ≠ none →
          0 < (names.getLocalPath call).2.turn missing rest := by
        intro missing habsent hpresent
        obtain ⟨number, hnumber⟩ := Option.ne_none_iff_exists'.mp hpresent
        exact (number_eq_turn habsent hnumber).2
      by_cases hname : (names.getLocalPath call).2.fileNames.find name = none
      · by_cases hname' : (names.getLocalPath call).2.fileNames.find other = none
        · exact ih hname hname' hsome hsome' hrest
        · rw [turn_of_some hname'] at hrest
          exact absurd hrest (Nat.ne_of_gt (hahead name hname hsome))
      · by_cases hname' : (names.getLocalPath call).2.fileNames.find other = none
        · rw [turn_of_some hname] at hrest
          exact absurd hrest.symm (Nat.ne_of_gt (hahead other hname' hsome'))
        · rw [hentered name hnone hname, hentered other hother hname']

end Turn

section Exclusive

theorem text_injective {literal literal' : String} (htext : text literal = text literal') :
    literal = literal' := by
  apply String.toByteArray_inj.mp
  apply ByteArray.ext
  exact Array.toList_inj.mp htext

/-- A path in the local folder shows the bucket and the number. -/
theorem localPath_inj {bucket bucket' : Bytes} {number number' : UInt64}
    (hslash : slash ∉ bucket) (hslash' : slash ∉ bucket') :
    names.localPath bucket number = names.localPath bucket' number' ↔
      bucket = bucket' ∧ number = number' := by
  rw [localPath, localPath, fullName_inj_right, fullName_inj hslash hslash']
  refine and_congr_right fun _ => ?_
  constructor
  · intro htext
    exact UInt64.toNat_inj.mp (Nat.repr_inj.mp (text_injective htext))
  · rintro rfl
    rfl

/-- The call is made after the earlier ones. -/
def MadeAfter (calls earlier : List ObjectID) (call : ObjectID) : Prop :=
  earlier ++ [call] <+: calls

instance (calls earlier : List ObjectID) (call : ObjectID) :
    Decidable (MadeAfter calls earlier call) :=
  inferInstanceAs (Decidable (_ <+: _))

/-- Two calls return the same path exactly if they are made for the same
object. -/
def Exclusive (names : FileNames) (calls : List ObjectID) : Prop :=
  ∀ earlier call earlier' call', MadeAfter calls earlier call →
    MadeAfter calls earlier' call' →
    (((names.run earlier).getLocalPath call).1 =
      ((names.run earlier').getLocalPath call').1 ↔ call = call')

/-- The reading of the counter for which the name that answers the call was
entered. -/
def turnAt (names : FileNames) (calls earlier : List ObjectID) (call : ObjectID) : Nat :=
  names.turn ((names.run earlier).answerName call) calls

/-- Within a bucket, the names that answer two calls were entered at the same
reading of the counter, up to its overflow, exactly if the keys are the same. -/
def Separated (names : FileNames) (calls : List ObjectID) : Prop :=
  ∀ earlier call earlier' call', MadeAfter calls earlier call →
    MadeAfter calls earlier' call' → call.bucket = call'.bucket →
    (names.turnAt calls earlier call % 2 ^ 64 =
      names.turnAt calls earlier' call' % 2 ^ 64 ↔ call.key = call'.key)

/-- Within a bucket, a call that is found in full and one that is not concern
different objects, and the key of the second is not the full name of the
first. -/
def Unmixed (names : FileNames) (calls : List ObjectID) : Prop :=
  ∀ earlier call earlier' call', MadeAfter calls earlier call →
    MadeAfter calls earlier' call' → call.bucket = call'.bucket →
    (names.run earlier).FoundInFull call → ¬ (names.run earlier').FoundInFull call' →
    call'.key ≠ call.key ∧ call'.key ≠ fullName call.bucket call.key

variable {calls earlier : List ObjectID} {call : ObjectID}

/-- What a call returned is the entry that the table has for its answering name
in the end. -/
theorem MadeAfter.getLocalPath_eq (names : FileNames)
    (hmade : MadeAfter calls earlier call) : ∃ number,
    (names.run calls).fileNames.find ((names.run earlier).answerName call) =
      some number ∧
    ((names.run earlier).getLocalPath call).1 = names.localPath call.bucket number := by
  obtain ⟨later, rfl⟩ := hmade
  obtain ⟨number, hfind, hpath⟩ := @getLocalPath_fst (names.run earlier) call
  refine ⟨number, ?_, ?_⟩
  · have hrun : names.run (earlier ++ [call] ++ later) =
        ((names.run earlier).getLocalPath call).2.run later := by
      simp [run]
    rw [hrun]
    exact find_run_of_some hfind later
  · rw [hpath, localPath, pathPrefix_run, localPath]

theorem MadeAfter.mem (hmade : MadeAfter calls earlier call) : call ∈ calls :=
  hmade.subset (List.mem_append_right _ List.mem_cons_self)

/-- From an empty table, equal numbers mean equal turns up to the overflow of
the counter. -/
theorem number_eq_iff {pathPrefix name name' : Bytes} {number number' : UInt64}
    (hfind : ((new pathPrefix).run calls).fileNames.find name = some number)
    (hfind' : ((new pathPrefix).run calls).fileNames.find name' = some number') :
    number = number' ↔
      (new pathPrefix).turn name calls % 2 ^ 64 =
        (new pathPrefix).turn name' calls % 2 ^ 64 := by
  have hnumber := (number_eq_turn rfl hfind).1
  have hnumber' := (number_eq_turn rfl hfind').1
  have hzero : (new pathPrefix).fileNameCounter = 0 := rfl
  rw [hzero, UInt64.zero_add] at hnumber hnumber'
  rw [← UInt64.toNat_ofNat', ← UInt64.toNat_ofNat', UInt64.toNat_inj, ← hnumber, ← hnumber']
  exact (UInt64.add_left_inj 1).symm

/-- Two calls return the same path if their buckets are the same and their
answering names have the same turn, up to the overflow of the counter. -/
theorem getLocalPath_eq_iff {pathPrefix : Bytes}
    (hplain : ∀ call ∈ calls, slash ∉ call.bucket) {earlier' : List ObjectID}
    {call' : ObjectID} (hmade : MadeAfter calls earlier call)
    (hmade' : MadeAfter calls earlier' call') :
    (((new pathPrefix).run earlier).getLocalPath call).1 =
        (((new pathPrefix).run earlier').getLocalPath call').1 ↔
      call.bucket = call'.bucket ∧
        (new pathPrefix).turnAt calls earlier call % 2 ^ 64 =
          (new pathPrefix).turnAt calls earlier' call' % 2 ^ 64 := by
  obtain ⟨number, hfind, hpath⟩ := hmade.getLocalPath_eq (new pathPrefix)
  obtain ⟨number', hfind', hpath'⟩ := hmade'.getLocalPath_eq (new pathPrefix)
  rw [hpath, hpath', localPath_inj (hplain call hmade.mem) (hplain call' hmade'.mem),
    number_eq_iff hfind hfind', turnAt, turnAt]

theorem exclusive_iff_separated {pathPrefix : Bytes}
    (hplain : ∀ call ∈ calls, slash ∉ call.bucket) :
    (new pathPrefix).Exclusive calls ↔ (new pathPrefix).Separated calls := by
  have hsame : ∀ call call' : ObjectID,
      call = call' ↔ call.bucket = call'.bucket ∧ call.key = call'.key := by
    rintro ⟨bucket, key⟩ ⟨bucket', key'⟩
    exact ObjectID.mk.injEq .. ▸ Iff.rfl
  constructor
  · intro hexclusive earlier call earlier' call' hmade hmade' hbucket
    have heq := hexclusive earlier call earlier' call' hmade hmade'
    rw [getLocalPath_eq_iff hplain hmade hmade', hsame, and_iff_right hbucket,
      and_iff_right hbucket] at heq
    exact heq
  · intro hseparated earlier call earlier' call' hmade hmade'
    rw [getLocalPath_eq_iff hplain hmade hmade', hsame]
    exact and_congr_right (hseparated earlier call earlier' call' hmade hmade')

/-- As long as the counter does not overflow, a number belongs to one name. -/
theorem turnAt_eq_iff {pathPrefix : Bytes} (hlength : calls.length ≤ 2 ^ 64)
    {earlier' : List ObjectID} {call' : ObjectID} (hmade : MadeAfter calls earlier call)
    (hmade' : MadeAfter calls earlier' call') :
    (new pathPrefix).turnAt calls earlier call % 2 ^ 64 =
        (new pathPrefix).turnAt calls earlier' call' % 2 ^ 64 ↔
      ((new pathPrefix).run earlier).answerName call =
        ((new pathPrefix).run earlier').answerName call' := by
  obtain ⟨number, hfind, _⟩ := hmade.getLocalPath_eq (new pathPrefix)
  obtain ⟨number', hfind', _⟩ := hmade'.getLocalPath_eq (new pathPrefix)
  rw [turnAt, turnAt]
  constructor
  · intro hmod
    have hpos := (number_eq_turn rfl hfind).2
    have hpos' := (number_eq_turn rfl hfind').2
    have hle := @turn_le_length (new pathPrefix)
      (((new pathPrefix).run earlier).answerName call) calls
    have hle' := @turn_le_length (new pathPrefix)
      (((new pathPrefix).run earlier').answerName call') calls
    apply turn_injective rfl rfl (hfind ▸ Option.some_ne_none _)
      (hfind' ▸ Option.some_ne_none _)
    omega
  · intro hname
    rw [hname]

theorem separated_iff_unmixed {pathPrefix : Bytes} (hlength : calls.length ≤ 2 ^ 64) :
    (new pathPrefix).Separated calls ↔ (new pathPrefix).Unmixed calls := by
  constructor
  · intro hseparated earlier call earlier' call' hmade hmade' hbucket hfound hmissing
    have heq := hseparated earlier call earlier' call' hmade hmade' hbucket
    rw [turnAt_eq_iff hlength hmade hmade', answerName, answerName, if_pos hfound,
      if_neg hmissing] at heq
    constructor
    · intro hkey
      have hname := heq.mpr hkey.symm
      rw [hkey] at hname
      exact fullName_ne_right _ _ hname
    · intro hname
      have hkey := heq.mp hname.symm
      rw [← hkey] at hname
      exact fullName_ne_right _ _ hname.symm
  · intro hunmixed earlier call earlier' call' hmade hmade' hbucket
    have hforth := hunmixed earlier call earlier' call' hmade hmade' hbucket
    have hback := hunmixed earlier' call' earlier call hmade' hmade hbucket.symm
    rw [turnAt_eq_iff hlength hmade hmade', answerName, answerName]
    by_cases hfound : ((new pathPrefix).run earlier).FoundInFull call
    · by_cases hfound' : ((new pathPrefix).run earlier').FoundInFull call'
      · rw [if_pos hfound, if_pos hfound', hbucket, fullName_inj_right]
      · rw [if_pos hfound, if_neg hfound']
        obtain ⟨hkey, hname⟩ := hforth hfound hfound'
        exact iff_of_false hname.symm hkey.symm
    · by_cases hfound' : ((new pathPrefix).run earlier').FoundInFull call'
      · rw [if_neg hfound, if_pos hfound']
        obtain ⟨hkey, hname⟩ := hback hfound' hfound
        exact iff_of_false hname hkey
      · rw [if_neg hfound, if_neg hfound']

/-- When paths are exclusive: exactly if the answering names are kept apart by
their turns, which up to the overflow of the counter means that no call that is
found in full is mixed with one that is not. -/
theorem getLocalPath_exclusive_iff (pathPrefix : Bytes) (calls : List ObjectID)
    (hvalid : ∀ call ∈ calls, (isValid call.bucket call.key).ok = true) :
    ((new pathPrefix).Exclusive calls ↔ (new pathPrefix).Separated calls) ∧
      (calls.length ≤ 2 ^ 64 →
        ((new pathPrefix).Exclusive calls ↔ (new pathPrefix).Unmixed calls)) := by
  have hplain : ∀ call ∈ calls, slash ∉ call.bucket :=
    fun call hmem => isValid.slash_not_mem (hvalid call hmem)
  refine ⟨exclusive_iff_separated hplain, ?_⟩
  intro hlength
  rw [exclusive_iff_separated hplain]
  exact separated_iff_unmixed hlength

namespace Sample

def folder : FileNames := new (text "/geds")

/-- Equal keys in two buckets, one of them asked for twice. -/
def plain : List ObjectID :=
  [⟨text "abc", text "key"⟩, ⟨text "xyz", text "key"⟩, ⟨text "abc", text "other"⟩,
    ⟨text "abc", text "key"⟩]

theorem plain_exclusive :
    (∀ call ∈ plain, (isValid call.bucket call.key).ok = true) ∧
      folder.Exclusive plain := by
  have hvalid : ∀ call ∈ plain, (isValid call.bucket call.key).ok = true := by
    decide
  have hmissing : ∀ earlier ∈ plain.inits, ∀ call ∈ plain,
      ¬ (folder.run earlier).FoundInFull call := by
    decide
  refine ⟨hvalid, ((getLocalPath_exclusive_iff _ plain hvalid).2 (by decide)).mpr ?_⟩
  intro earlier call earlier' call' hmade _ _ hfound
  have hinits := (List.mem_inits _ _).mpr ((List.prefix_append earlier [call]).trans hmade)
  exact absurd hfound (hmissing earlier hinits call hmade.mem)

/-- The key in the second call is the full name of the object of the others. -/
def moving : List ObjectID :=
  [⟨text "abc", text "key"⟩, ⟨text "xyz", text "abc/key"⟩, ⟨text "abc", text "key"⟩]

/-- The second and the third object lie in one bucket. -/
def sharing : List ObjectID :=
  [⟨text "xyz", text "abc/key"⟩, ⟨text "abc", text "key"⟩, ⟨text "abc", text "abc/key"⟩]

/-- One object moves from `abc/0` to `abc/1`; two others share `abc/0`. -/
theorem paths_not_exclusive :
    (∀ call ∈ moving ++ sharing, (isValid call.bucket call.key).ok = true) ∧
      ¬ folder.Exclusive moving ∧ ¬ folder.Exclusive sharing := by
  refine ⟨by decide, ?_, ?_⟩
  · intro hexclusive
    have hsame := (hexclusive [] ⟨text "abc", text "key"⟩ (moving.take 2)
      ⟨text "abc", text "key"⟩ (by decide) (by decide)).mpr rfl
    exact absurd hsame (by decide)
  · intro hexclusive
    have hsame := (hexclusive (sharing.take 1) ⟨text "abc", text "key"⟩ (sharing.take 2)
      ⟨text "abc", text "abc/key"⟩ (by decide) (by decide)).mp (by decide)
    exact absurd hsame (by decide)

end Sample

end Exclusive

end FileNames

end GEDS
