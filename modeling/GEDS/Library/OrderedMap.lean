/-
Ordered association maps: a list of entries with strictly increasing keys, so
that an unsorted or duplicated table cannot be built.  Iterators are positions
in the entry list.  A heterogeneous probe splits the entries into those below
it, those equivalent to it and those above it, and `equalRange` is the middle
block.
-/
import GEDS.Library.AssocMap

namespace GEDS

universe u v

variable {κ : Type u} {ν : Type v} [LinearOrder κ]

/-- A map ordered by its keys. -/
structure OrderedMap (κ : Type u) (ν : Type v) [LinearOrder κ] where
  entries : List (κ × ν)
  sorted : entries.Pairwise (fun left right => left.1 < right.1)

/-- Place an entry in key order, replacing an entry under the same key. -/
def insertEntry (key : κ) (value : ν) : List (κ × ν) → List (κ × ν)
  | [] => [(key, value)]
  | entry :: rest =>
      if key < entry.1 then (key, value) :: entry :: rest
      else if key = entry.1 then (key, value) :: rest
      else entry :: insertEntry key value rest

theorem mem_insertEntry_imp {key : κ} {value : ν} {entries : List (κ × ν)}
    {entry : κ × ν} (hmem : entry ∈ insertEntry key value entries) :
    entry = (key, value) ∨ entry ∈ entries := by
  induction entries with
  | nil => simpa [insertEntry] using hmem
  | cons head tail ih =>
      rw [insertEntry] at hmem
      split_ifs at hmem with hlt heq
      · simpa using hmem
      · rcases List.mem_cons.mp hmem with rfl | htail
        · exact Or.inl rfl
        · exact Or.inr (List.mem_cons_of_mem head htail)
      · rcases List.mem_cons.mp hmem with rfl | htail
        · exact Or.inr List.mem_cons_self
        · exact (ih htail).imp_right (List.mem_cons_of_mem head)

theorem insertEntry_sorted (key : κ) (value : ν) {entries : List (κ × ν)}
    (hsorted : entries.Pairwise (fun left right => left.1 < right.1)) :
    (insertEntry key value entries).Pairwise
      (fun left right => left.1 < right.1) := by
  induction entries with
  | nil => simp [insertEntry]
  | cons head tail ih =>
      rw [List.pairwise_cons] at hsorted
      rw [insertEntry]
      split_ifs with hlt heq
      · rw [List.pairwise_cons, List.pairwise_cons]
        refine ⟨?_, hsorted⟩
        intro entry hentry
        rcases List.mem_cons.mp hentry with rfl | htail
        · exact hlt
        · exact hlt.trans (hsorted.1 entry htail)
      · rw [List.pairwise_cons]
        exact ⟨fun entry hentry => heq ▸ hsorted.1 entry hentry, hsorted.2⟩
      · rw [List.pairwise_cons]
        refine ⟨?_, ih hsorted.2⟩
        intro entry hentry
        rcases mem_insertEntry_imp hentry with rfl | htail
        · exact lt_of_le_of_ne (not_lt.mp hlt) (Ne.symm heq)
        · exact hsorted.1 entry htail

theorem lookup_insertEntry (key : κ) (value : ν) (entries : List (κ × ν))
    (other : κ) :
    (insertEntry key value entries).lookup other =
      if other = key then some value else entries.lookup other := by
  induction entries with
  | nil => simp only [insertEntry, lookup_cons_eq_ite]
  | cons head tail ih =>
      rw [insertEntry, lookup_cons_eq_ite other head]
      by_cases hlt : key < head.1
      · rw [if_pos hlt, lookup_cons_eq_ite, lookup_cons_eq_ite]
      · rw [if_neg hlt]
        by_cases heq : key = head.1
        · rw [if_pos heq, lookup_cons_eq_ite]
          by_cases hother : other = key
          · rw [if_pos hother, if_pos hother]
          · rw [if_neg hother, if_neg hother, if_neg (heq ▸ hother)]
        · rw [if_neg heq, lookup_cons_eq_ite, ih]
          by_cases hhead : other = head.1
          · have hother : other ≠ key := fun h => heq (h.symm.trans hhead)
            rw [if_pos hhead, if_neg hother, if_pos hhead]
          · rw [if_neg hhead, if_neg hhead]

namespace OrderedMap

/-- A heterogeneous search key.  Its two comparisons are monotone in the map
key and exclude each other. -/
structure Probe (κ : Type u) [LinearOrder κ] where
  below : κ → Bool
  above : κ → Bool
  below_of_le : ∀ {left right : κ}, left ≤ right →
    below right = true → below left = true
  above_of_le : ∀ {left right : κ}, left ≤ right →
    above left = true → above right = true
  disjoint : ∀ {key : κ}, below key = true → above key = false

/-- The probe and the key are equivalent. -/
def Probe.accepts (probe : Probe κ) (key : κ) : Bool :=
  !probe.below key && !probe.above key

def empty : OrderedMap κ ν := ⟨[], List.Pairwise.nil⟩

def find (table : OrderedMap κ ν) (key : κ) : Option ν :=
  table.entries.lookup key

def contains (table : OrderedMap κ ν) (key : κ) : Bool :=
  (table.find key).isSome

def keys (table : OrderedMap κ ν) : List κ :=
  table.entries.map Prod.fst

def insert (table : OrderedMap κ ν) (key : κ) (value : ν) : OrderedMap κ ν :=
  ⟨insertEntry key value table.entries, insertEntry_sorted key value table.sorted⟩

def erase (table : OrderedMap κ ν) (key : κ) : OrderedMap κ ν :=
  ⟨table.entries.filter (fun entry => decide (entry.1 ≠ key)),
    table.sorted.filter _⟩

/-- The first position whose key is not below the probe. -/
def lowerBound (table : OrderedMap κ ν) (probe : Probe κ) : Nat :=
  (table.entries.takeWhile (fun entry => probe.below entry.1)).length

/-- The first position whose key is above the probe. -/
def upperBound (table : OrderedMap κ ν) (probe : Probe κ) : Nat :=
  (table.entries.takeWhile (fun entry => !probe.above entry.1)).length

def equalRange (table : OrderedMap κ ν) (probe : Probe κ) : Nat × Nat :=
  (table.lowerBound probe, table.upperBound probe)

/-- The past-the-end position. -/
def endPos (table : OrderedMap κ ν) : Nat := table.entries.length

/-- The entries visited by iterating from `first` up to `last`. -/
def range (table : OrderedMap κ ν) (bounds : Nat × Nat) : List (κ × ν) :=
  (table.entries.drop bounds.1).take (bounds.2 - bounds.1)

/-- Erase the entries from position `first` up to position `last`. -/
def eraseRange (table : OrderedMap κ ν) (bounds : Nat × Nat)
    (hbounds : bounds.1 ≤ bounds.2) : OrderedMap κ ν :=
  ⟨table.entries.take bounds.1 ++ table.entries.drop bounds.2, by
    refine table.sorted.sublist ?_
    conv_rhs => rw [← List.take_append_drop bounds.1 table.entries]
    exact (List.Sublist.refl _).append
      (List.drop_sublist_drop_left table.entries hbounds)⟩

theorem keys_nodup (table : OrderedMap κ ν) : (table.entries.map Prod.fst).Nodup := by
  rw [List.Nodup, List.pairwise_map]
  exact table.sorted.imp ne_of_lt

theorem find_eq_some_iff (table : OrderedMap κ ν) (key : κ) (value : ν) :
    table.find key = some value ↔ (key, value) ∈ table.entries :=
  lookup_eq_some_iff_mem table.keys_nodup key value

theorem find_eq_none_iff (table : OrderedMap κ ν) (key : κ) :
    table.find key = none ↔ ∀ entry ∈ table.entries, entry.1 ≠ key :=
  lookup_eq_none_iff_forall key table.entries

@[simp] theorem find_empty (key : κ) :
    (empty : OrderedMap κ ν).find key = none := rfl

@[simp] theorem find_insert (table : OrderedMap κ ν) (key : κ) (value : ν)
    (other : κ) : (table.insert key value).find other =
      if other = key then some value else table.find other :=
  lookup_insertEntry key value table.entries other

@[simp] theorem find_erase (table : OrderedMap κ ν) (key other : κ) :
    (table.erase key).find other =
      if other = key then none else table.find other :=
  lookup_assocErase key other table.entries

theorem mem_keys_iff (table : OrderedMap κ ν) (key : κ) :
    key ∈ table.keys ↔ ∃ value, table.find key = some value := by
  simp [keys, find_eq_some_iff]

theorem keys_sorted (table : OrderedMap κ ν) : table.keys.Pairwise (· < ·) := by
  rw [keys, List.pairwise_map]
  exact table.sorted

/-- Maps that agree on some keys list the same entries for them. -/
theorem filter_entries_congr {table other : OrderedMap κ ν} {keep : κ → Bool}
    (hsame : ∀ key, keep key = true → table.find key = other.find key) :
    (table.entries.filter fun entry => keep entry.1) =
      other.entries.filter fun entry => keep entry.1 := by
  have hsorted : ∀ map : OrderedMap κ ν,
      (map.entries.filter fun entry => keep entry.1).Pairwise fun left right =>
        left.1 < right.1 := fun map => map.sorted.sublist List.filter_sublist
  have hnodup : ∀ map : OrderedMap κ ν, (map.entries.filter fun entry => keep entry.1).Nodup :=
    fun map => (hsorted map).imp fun hlt heq => hlt.ne (congrArg Prod.fst heq)
  apply List.Perm.eq_of_pairwise _ (hsorted table) (hsorted other)
  · rw [List.perm_ext_iff_of_nodup (hnodup table) (hnodup other)]
    rintro ⟨key, value⟩
    rw [List.mem_filter, List.mem_filter, ← find_eq_some_iff, ← find_eq_some_iff]
    exact and_congr_left fun hkeep => by rw [hsame key hkeep]
  · intro left right _ _ hlt hgt
    exact absurd hgt hlt.asymm

/-- A map is what it finds. -/
theorem ext_find {table other : OrderedMap κ ν}
    (hsame : ∀ key, table.find key = other.find key) : table = other := by
  have hentries := @filter_entries_congr _ _ _ table other (fun _ => true) fun key _ => hsame key
  rw [List.filter_true, List.filter_true] at hentries
  obtain ⟨entries, sorted⟩ := table
  obtain ⟨others, sorted'⟩ := other
  obtain rfl : entries = others := hentries
  rfl

@[simp] theorem Probe.accepts_eq_true (probe : Probe κ) (key : κ) :
    probe.accepts key = true ↔
      probe.below key = false ∧ probe.above key = false := by
  simp [Probe.accepts]

/-- The two comparisons cut a sorted table into three consecutive blocks. -/
theorem split_by_probe (probe : Probe κ) (entries : List (κ × ν))
    (hsorted : entries.Pairwise (fun left right => left.1 < right.1)) :
    entries = entries.filter (fun entry => probe.below entry.1) ++
      (entries.filter (fun entry => probe.accepts entry.1) ++
        entries.filter (fun entry => probe.above entry.1)) := by
  induction entries with
  | nil => rfl
  | cons head tail ih =>
      rw [List.pairwise_cons] at hsorted
      have hrest := ih hsorted.2
      cases hbelow : probe.below head.1 with
      | true =>
          have habove := probe.disjoint hbelow
          simp only [List.filter_cons, Probe.accepts, hbelow, habove, ↓reduceIte,
            Bool.not_true, Bool.false_and, Bool.false_eq_true, List.cons_append,
            List.cons.injEq, true_and]
          exact hrest
      | false =>
          have hnone : ∀ entry ∈ tail, probe.below entry.1 = false := by
            intro entry hentry
            by_contra hnot
            have htrue : probe.below entry.1 = true := by simpa using hnot
            have := probe.below_of_le (hsorted.1 entry hentry).le htrue
            simp [hbelow] at this
          have hempty : tail.filter (fun entry => probe.below entry.1) = [] := by
            rw [List.filter_eq_nil_iff]
            intro entry hentry
            simp [hnone entry hentry]
          rw [hempty, List.nil_append] at hrest
          cases habove : probe.above head.1 with
          | false =>
              simp only [List.filter_cons, Probe.accepts, hbelow, habove,
                Bool.not_false, Bool.and_self, ↓reduceIte, Bool.false_eq_true,
                List.cons_append, hempty, List.nil_append, List.cons.injEq, true_and]
              exact hrest
          | true =>
              have hall : ∀ entry ∈ tail, probe.above entry.1 = true :=
                fun entry hentry => probe.above_of_le (hsorted.1 entry hentry).le habove
              have hmid : tail.filter (fun entry => probe.accepts entry.1) = [] := by
                rw [List.filter_eq_nil_iff]
                intro entry hentry
                simp [hall entry hentry]
              have htop : tail.filter (fun entry => probe.above entry.1) = tail := by
                rw [List.filter_eq_self]
                exact hall
              simp [hbelow, habove, hempty, hmid, htop]

omit [LinearOrder κ] in
theorem takeWhile_append_of_neg {p : κ × ν → Bool} {front back : List (κ × ν)}
    (hfront : ∀ entry ∈ front, p entry = true)
    (hback : ∀ entry ∈ back, p entry = false) :
    (front ++ back).takeWhile p = front := by
  rw [List.takeWhile_append_of_pos hfront]
  cases back with
  | nil => simp
  | cons head tail =>
      have hhead := hback head List.mem_cons_self
      simp [hhead]

section Probing

variable (table : OrderedMap κ ν) (probe : Probe κ)

/-- Entries below the probe, in key order. -/
def lower : List (κ × ν) :=
  table.entries.filter (fun entry => probe.below entry.1)

/-- Entries equivalent to the probe, in key order. -/
def accepted : List (κ × ν) :=
  table.entries.filter (fun entry => probe.accepts entry.1)

/-- Entries above the probe, in key order. -/
def upper : List (κ × ν) :=
  table.entries.filter (fun entry => probe.above entry.1)

theorem entries_split : table.lower probe ++
    (table.accepted probe ++ table.upper probe) = table.entries :=
  (split_by_probe probe table.entries table.sorted).symm

theorem lowerBound_eq : table.lowerBound probe = (table.lower probe).length := by
  rw [lowerBound, ← table.entries_split probe, takeWhile_append_of_neg]
  · intro entry hentry
    exact (List.mem_filter.mp hentry).2
  · intro entry hentry
    rcases List.mem_append.mp hentry with hmid | htop
    · exact ((probe.accepts_eq_true entry.1).mp (List.mem_filter.mp hmid).2).1
    · by_contra hnot
      have hbelow : probe.below entry.1 = true := by simpa using hnot
      have habove := (List.mem_filter.mp htop).2
      simp [probe.disjoint hbelow] at habove

theorem upperBound_eq : table.upperBound probe =
    (table.lower probe ++ table.accepted probe).length := by
  rw [upperBound, ← table.entries_split probe, ← List.append_assoc,
    takeWhile_append_of_neg]
  · intro entry hentry
    rcases List.mem_append.mp hentry with hlow | hmid
    · simp [probe.disjoint (List.mem_filter.mp hlow).2]
    · simp [((probe.accepts_eq_true entry.1).mp (List.mem_filter.mp hmid).2).2]
  · intro entry hentry
    simp [(List.mem_filter.mp hentry).2]

theorem equalRange_le :
    (table.equalRange probe).1 ≤ (table.equalRange probe).2 := by
  rw [equalRange, lowerBound_eq, upperBound_eq]
  simp

/-- Iterating over the equal range visits exactly the equivalent entries. -/
theorem range_equalRange :
    table.range (table.equalRange probe) = table.accepted probe := by
  rw [range, equalRange, lowerBound_eq, upperBound_eq, List.length_append,
    Nat.add_sub_cancel_left, ← table.entries_split probe]
  rw [List.drop_left, List.take_left]

/-- The lower bound is the end position exactly when every key is below. -/
theorem lowerBound_eq_endPos_iff : table.lowerBound probe = table.endPos ↔
    ∀ entry ∈ table.entries, probe.below entry.1 = true := by
  rw [lowerBound_eq, endPos, lower, List.length_filter_eq_length_iff]

/-- What is left after erasing the equal range. -/
theorem entries_eraseRange_equalRange :
    (table.eraseRange (table.equalRange probe)
      (table.equalRange_le probe)).entries =
      table.lower probe ++ table.upper probe := by
  simp only [eraseRange, equalRange, lowerBound_eq, upperBound_eq]
  rw [← table.entries_split probe, List.take_left, ← List.append_assoc,
    List.drop_left]

/-- Erasing the equal range removes exactly the equivalent entries. -/
theorem find_eraseRange_equalRange (key : κ) :
    (table.eraseRange (table.equalRange probe)
      (table.equalRange_le probe)).find key =
      if probe.accepts key then none else table.find key := by
  apply Option.ext
  intro value
  rw [find_eq_some_iff, entries_eraseRange_equalRange]
  have hmem : (key, value) ∈ table.lower probe ++ table.upper probe ↔
      (key, value) ∈ table.entries ∧ probe.accepts key = false := by
    rw [List.mem_append, lower, upper, List.mem_filter, List.mem_filter, ← and_or_left]
    refine and_congr_right fun _ => ?_
    rw [← Bool.not_eq_true, probe.accepts_eq_true, not_and_or]
    simp
  rw [hmem]
  cases haccepts : probe.accepts key with
  | true => simp
  | false => simp [find_eq_some_iff]

end Probing

end OrderedMap

end GEDS
