/-
`GEDS::list` and `Endpoint::list`: the entries of a listing are put in a `std::set`, by the
`operator<` of `GEDSFileStatus`.
-/
import GEDS.FileStatus
import GEDS.Library.SearchTree
import Mathlib.Data.Prod.Lex

namespace GEDS

open Status

universe v

variable {β : Type v}

namespace FileStatus

/-- `GEDSFileStatus::operator<` -/
def less (status other : FileStatus) : Bool :=
  if other.isDirectory < status.isDirectory then true else decide (status.key < other.key)

/-- `GEDSFileStatus::operator==` -/
def same (status other : FileStatus) : Bool :=
  decide (status.key = other.key) && decide (status.isDirectory = other.isDirectory)

/-- No file has a key below the key of a directory. -/
def FilesBehind (entries : List FileStatus) : Prop :=
  ∀ file ∈ entries, ∀ directory ∈ entries, file.isDirectory = false →
    directory.isDirectory = true → ¬ file.key < directory.key

end FileStatus

/-- `std::set<GEDSFileStatus>` -/
abbrev StatusSet (β : Type v) := SearchTree β FileStatus

/-- The entries that the two loops of a listing emplace: a file for each object that is not the
marker of a directory, and a directory for each prefix. -/
def listedEntries (delimiter : UInt8) (objects : List (Bytes × UInt64)) (prefixes : List Bytes) :
    List FileStatus :=
  let folderString := delimiter :: defaultDirectoryMarker
  let files := objects.filter fun obj =>
    !(decide (delimiter ≠ 0) && folderString.isSuffixOf obj.1)
  files.map (fun obj => ⟨obj.1, obj.2, false⟩) ++ prefixes.map fun key => ⟨key, 0, true⟩

namespace StatusClient

variable (client : StatusClient)

/-- `MetadataService::listPrefixFromCache` -/
def listPrefixFromCache (id : ObjectID) (delimiter : UInt8) :
    Except Status (List Object × List Bytes) × StatusClient :=
  match client.cache.listObjects id delimiter with
  | .ok listing => (.ok listing, client)
  | .error _ => client.listPrefix id delimiter

/-- The listing that `GEDS::list` asks the metadata service for. -/
def listing (pubSubEnabled : Bool) (id : ObjectID) (delimiter : UInt8) :
    Except Status (List Object × List Bytes) × StatusClient :=
  if pubSubEnabled then client.listPrefixFromCache id delimiter else client.listPrefix id delimiter

/-- What `GEDS::list` puts in the set, in this order. -/
def entriesOf (delimiter : UInt8) (listing : List Object × List Bytes) : List FileStatus :=
  listedEntries delimiter (listing.1.map fun value => (value.id.key, value.info.size)) listing.2

/-- `GEDS::list` -/
def list (balancing : Balancing β FileStatus) (pubSubEnabled : Bool) (bucket keyPrefix : Bytes)
    (delimiter : UInt8) : Except Status (List FileStatus) × StatusClient :=
  let list := client.listing pubSubEnabled ⟨bucket, keyPrefix⟩ delimiter
  match list.1 with
  | .error status => (.error status, list.2)
  | .ok listing =>
      let known := { list.2 with
        knownBuckets :=
          if list.2.knownBuckets.contains bucket then list.2.knownBuckets
          else bucket :: list.2.knownBuckets }
      let result : StatusSet β := SearchTree.leaf.emplaceAll FileStatus.less balancing
        (entriesOf delimiter listing)
      if result.toList.isEmpty ∧ delimiter ≠ 0 ∧ listing.1.isEmpty then
        (.error (notFoundError (text "Prefix not found: " ++ keyPrefix)), known)
      else (.ok result.toList, known)

end StatusClient

/-- What `ListObjectsV2` answers: objects with their sizes, common prefixes, and the token of
the next page. -/
structure ListPage where
  objects : List (Bytes × UInt64)
  prefixes : List Bytes
  nextToken : Bytes

namespace Endpoint

/-- `Endpoint::list` into a result, with the answers of the service to one request after the
other; `none` while it waits for an answer.  A page goes in behind the pages after it. -/
def listInto (balancing : Balancing β FileStatus) (delimiter : UInt8) :
    List (Except Status ListPage) → StatusSet β → Option (Status × StatusSet β)
  | [], _ => none
  | .error status :: _, result => some (status, result)
  | .ok page :: rest, result =>
      let entries := listedEntries delimiter page.objects page.prefixes
      if page.nextToken ≠ [] then
        match listInto balancing delimiter rest result with
        | none => none
        | some (subRequest, result) =>
            if subRequest.ok then
              some (okStatus, result.emplaceAll FileStatus.less balancing entries)
            else some (subRequest, result)
      else some (okStatus, result.emplaceAll FileStatus.less balancing entries)

/-- `Endpoint::list` -/
def list (balancing : Balancing β FileStatus) (delimiter : UInt8)
    (answers : List (Except Status ListPage)) : Option (Except Status (List FileStatus)) :=
  match listInto balancing delimiter answers SearchTree.leaf with
  | none => none
  | some (status, result) => if status.ok then some (.ok result.toList) else some (.error status)

/-- What `Endpoint::list` puts in the set, in this order. -/
def entriesOf (delimiter : UInt8) : List (Except Status ListPage) → List FileStatus
  | [] => []
  | .error _ :: _ => []
  | .ok page :: rest =>
      (if page.nextToken ≠ [] then entriesOf delimiter rest else []) ++
        listedEntries delimiter page.objects page.prefixes

theorem listInto_ok {balancing : Balancing β FileStatus} {delimiter : UInt8}
    {answers : List (Except Status ListPage)} {result after : StatusSet β} {status : Status}
    (hlist : listInto balancing delimiter answers result = some (status, after))
    (hok : status.ok = true) :
    after = result.emplaceAll FileStatus.less balancing (entriesOf delimiter answers) := by
  induction answers generalizing status after with
  | nil => simp [listInto] at hlist
  | cons answer rest ih =>
      cases answer with
      | error failure =>
          simp only [listInto, Option.some.injEq, Prod.mk.injEq] at hlist
          rw [← hlist.2]
          rfl
      | ok page =>
          simp only [listInto] at hlist
          by_cases htoken : page.nextToken ≠ []
          · rw [if_pos htoken] at hlist
            cases hsub : listInto balancing delimiter rest result with
            | none => simp [hsub] at hlist
            | some sub =>
                obtain ⟨subRequest, subResult⟩ := sub
                by_cases hsubOk : subRequest.ok = true
                · simp only [hsub, hsubOk, ↓reduceIte, Option.some.injEq,
                    Prod.mk.injEq] at hlist
                  rw [← hlist.2, ih hsub hsubOk, entriesOf, if_pos htoken]
                  simp [SearchTree.emplaceAll]
                · simp_all
          · rw [if_neg htoken, Option.some.injEq, Prod.mk.injEq] at hlist
            rw [← hlist.2, entriesOf, if_neg htoken, List.nil_append]

end Endpoint

namespace FileStatus

variable {entries : List FileStatus}

/-- What `operator<` compares: a directory first, then the key. -/
def rank (status : FileStatus) : Bool ×ₗ Bytes := toLex (!status.isDirectory, status.key)

theorem less_eq_true_iff (hbehind : FilesBehind entries) {status other : FileStatus}
    (hstatus : status ∈ entries) (hother : other ∈ entries) :
    less status other = true ↔ status.rank < other.rank := by
  have hcross := hbehind status hstatus other hother
  cases hleft : status.isDirectory <;> cases hright : other.isDirectory <;>
    simp_all [less, rank, Prod.Lex.toLex_lt_toLex]

theorem same_eq_true_iff {status other : FileStatus} :
    same status other = true ↔ status.rank = other.rank := by
  simp [same, rank, and_comm]

/-- `operator<` orders a sequence exactly if no file is below a directory by its key: then each
of the two is less than the other. -/
theorem ranks_iff : Ranks less same entries ↔ FilesBehind entries := by
  constructor
  · intro hranks file hfile directory hdirectory hisFile hisDirectory hkey
    have hless : less file directory = true := by
      simp [less, hisFile, hisDirectory, hkey]
    have hback : less directory file = true := by
      simp [less, hisFile, hisDirectory]
    rw [hranks.asymm hfile hdirectory hless] at hback
    cases hback
  · intro hbehind
    refine ⟨?_, ?_⟩
    · refine @IsStrictWeakOrder.mk _ _ (@IsStrictOrder.mk _ _ ⟨?_⟩ ⟨?_⟩) ?_
      · intro value hless
        exact lt_irrefl _ ((less_eq_true_iff hbehind value.2 value.2).1 hless)
      · intro first second third hless hless'
        rw [less_eq_true_iff hbehind first.2 second.2] at hless
        rw [less_eq_true_iff hbehind second.2 third.2] at hless'
        rw [less_eq_true_iff hbehind first.2 third.2]
        exact hless.trans hless'
      · intro first second third hfirst hthird
        rw [less_eq_true_iff hbehind first.2 second.2,
          less_eq_true_iff hbehind second.2 first.2, not_lt, not_lt] at hfirst
        rw [less_eq_true_iff hbehind second.2 third.2,
          less_eq_true_iff hbehind third.2 second.2, not_lt, not_lt] at hthird
        rw [less_eq_true_iff hbehind first.2 third.2,
          less_eq_true_iff hbehind third.2 first.2, not_lt, not_lt]
        exact ⟨hthird.1.trans hfirst.1, hfirst.2.trans hthird.2⟩
    · intro status hstatus other hother
      rw [same_eq_true_iff, ← Bool.not_eq_true, ← Bool.not_eq_true,
        less_eq_true_iff hbehind hstatus hother, less_eq_true_iff hbehind hother hstatus, not_lt,
        not_lt, le_antisymm_iff, and_comm]

/-- A file below a directory: each of the two is less than the other. -/
theorem file_below_directory :
    ¬ (Ranks less same [⟨text "a", 1, false⟩, ⟨text "b/", 0, true⟩] ∧
      ∀ order, order.Perm [⟨text "a", 1, false⟩, ⟨text "b/", 0, true⟩] →
        EachOnce same [⟨text "a", 1, false⟩, ⟨text "b/", 0, true⟩]
          ((SearchTree.leaf : StatusSet Unit).emplaceAll less ⟨(), id, fun _ => rfl⟩
            order).toList) := by
  rintro ⟨hranks, -⟩
  have hasymm := @Ranks.asymm _ _ _ _ hranks ⟨text "a", 1, false⟩ ⟨text "b/", 0, true⟩
    (by simp) (by simp) (by decide)
  exact absurd hasymm (by decide)

/-- The vectors of both listings have each entry once if no file is below a directory. -/
theorem list_set_iff (balancing : Balancing β FileStatus) :
    (∀ entries : List FileStatus,
      (Ranks less same entries ∧ ∀ order, order.Perm entries →
          EachOnce same entries
            ((SearchTree.leaf : StatusSet β).emplaceAll less balancing order).toList) ↔
        FilesBehind entries) ∧
    (∀ (client : StatusClient) (pubSubEnabled : Bool) (bucket keyPrefix : Bytes)
        (delimiter : UInt8) (listing : List Object × List Bytes) (files : List FileStatus),
      (client.listing pubSubEnabled ⟨bucket, keyPrefix⟩ delimiter).1 = .ok listing →
      (client.list balancing pubSubEnabled bucket keyPrefix delimiter).1 = .ok files →
      FilesBehind (StatusClient.entriesOf delimiter listing) →
      EachOnce same (StatusClient.entriesOf delimiter listing) files) ∧
    (∀ (delimiter : UInt8) (answers : List (Except Status ListPage)) (files : List FileStatus),
      Endpoint.list balancing delimiter answers = some (.ok files) →
      FilesBehind (Endpoint.entriesOf delimiter answers) →
      EachOnce same (Endpoint.entriesOf delimiter answers) files) := by
  have hset : ∀ entries : List FileStatus, FilesBehind entries → ∀ order : List FileStatus,
      order.Perm entries → EachOnce same entries
        ((SearchTree.leaf : StatusSet β).emplaceAll less balancing order).toList :=
    fun entries hbehind order horder =>
      SearchTree.eachOnce_emplaceAll (ranks_iff.2 hbehind) balancing horder
  refine ⟨fun entries => ⟨fun hproperty => ranks_iff.1 hproperty.1, fun hbehind =>
    ⟨ranks_iff.2 hbehind, hset entries hbehind⟩⟩, ?_, ?_⟩
  · intro client pubSubEnabled bucket keyPrefix delimiter listing files hlisting hfiles hbehind
    simp only [StatusClient.list, hlisting, apply_ite Prod.fst] at hfiles
    split_ifs at hfiles
    rw [Except.ok.injEq] at hfiles
    rw [← hfiles]
    exact hset _ hbehind _ (List.Perm.refl _)
  · intro delimiter answers files hfiles hbehind
    rw [Endpoint.list] at hfiles
    cases hinto : Endpoint.listInto balancing delimiter answers SearchTree.leaf with
    | none => simp [hinto] at hfiles
    | some into =>
        obtain ⟨status, result⟩ := into
        by_cases hok : status.ok = true
        · simp only [hinto, hok, ↓reduceIte, Option.some.injEq, Except.ok.injEq] at hfiles
          rw [← hfiles, Endpoint.listInto_ok hinto hok]
          exact hset _ hbehind _ (List.Perm.refl _)
        · simp [hinto, hok] at hfiles

/-- The order of the vector is then the order of insertion. -/
example :
    let file : FileStatus := ⟨text "a", 1, false⟩
    let directory : FileStatus := ⟨text "b/", 0, true⟩
    let set : List FileStatus → StatusSet Unit :=
      SearchTree.leaf.emplaceAll less ⟨(), id, fun _ => rfl⟩
    (set [file, directory]).toList = [directory, file] ∧
      (set [directory, file]).toList = [file, directory] := by
  decide

end FileStatus

end GEDS
