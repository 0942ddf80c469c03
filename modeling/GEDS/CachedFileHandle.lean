/-
`GEDSCachedFileHandle`: an object of the object store is read block by block.  The
blocks are objects of their own, under keys that no other object should have.
-/
import GEDS.NodeBacking
import GEDS.Relocation
import GEDS.TcpDataTransport

namespace GEDS

open Status

/-- The bytes of a range, as far as there are any. -/
def slice (content : Bytes) (position length : Nat) : Bytes :=
  (content.drop position).take length

section Slice

variable {content : Bytes} {position length : Nat}

@[simp] theorem length_slice :
    (slice content position length).length = min length (content.length - position) := by
  simp [slice]

@[simp] theorem slice_zero : slice content position 0 = [] := rfl

theorem slice_eq_nil (hend : content.length ≤ position) : slice content position length = [] := by
  rw [slice, List.drop_eq_nil_of_le hend, List.take_nil]

theorem slice_min_length :
    slice content position (min length (content.length - position)) =
      slice content position length := by
  rw [slice, slice, ← List.take_take, ← List.length_drop, List.take_length]

theorem slice_append (rest : Nat) :
    slice content position length ++ slice content (position + length) rest =
      slice content position (length + rest) := by
  rw [slice, slice, slice, List.take_add, List.drop_drop]

theorem slice_slice (start size : Nat) :
    slice (slice content start size) position length =
      slice content (start + position) (min length (size - position)) := by
  rw [slice, slice, slice, List.drop_take, List.take_take, List.drop_drop]

/-- A range inside of the bytes does not depend on what follows them. -/
theorem slice_append_left (hinside : length ≤ content.length - position) (behind : Bytes) :
    slice (content ++ behind) position length = slice content position length := by
  rcases Nat.eq_zero_or_pos length with rfl | hpositive
  · rfl
  · rw [slice, slice, List.drop_append_of_le_length (by omega),
      List.take_append_of_le_length (by rw [List.length_drop]; exact hinside)]

end Slice

/-- The part of `GEDSConfig` for the cache; `cacheBlockSize` is a size of memory. -/
structure CacheConfig where
  cacheBlockSize : UInt64
  positive : 0 < cacheBlockSize.toNat

/-- The handle of an object of this size has a place for the block in `_blocks`. -/
def HasBlock (config : CacheConfig) (size idx : UInt64) : Prop :=
  idx < size / config.cacheBlockSize + 1

instance decidableHasBlock (config : CacheConfig) (size idx : UInt64) :
    Decidable (HasBlock config size idx) :=
  inferInstanceAs (Decidable (_ < _))

theorem hasBlock_iff {config : CacheConfig} {size idx : UInt64} (hsize : size.toNat < 2 ^ 63) :
    HasBlock config size idx ↔ idx.toNat ≤ size.toNat / config.cacheBlockSize.toNat := by
  have hle : size.toNat / config.cacheBlockSize.toNat ≤ size.toNat := Nat.div_le_self _ _
  have hone : (1 : UInt64).toNat = 1 := rfl
  rw [HasBlock, UInt64.lt_iff_toNat_lt, UInt64.toNat_add, UInt64.toNat_div, hone,
    Nat.mod_eq_of_lt (by omega)]
  exact Nat.lt_succ_iff

theorem toNat_le_of_hasBlock {config : CacheConfig} {size idx : UInt64}
    (hsize : size.toNat < 2 ^ 63) (hblock : HasBlock config size idx) :
    idx.toNat * config.cacheBlockSize.toNat ≤ size.toNat :=
  calc idx.toNat * config.cacheBlockSize.toNat
      ≤ size.toNat / config.cacheBlockSize.toNat * config.cacheBlockSize.toNat :=
        Nat.mul_le_mul_right _ ((hasBlock_iff hsize).1 hblock)
    _ ≤ size.toNat := Nat.div_mul_le_self _ _

/-- An object in the object store. -/
structure StoredObject where
  content : Bytes
  bounded : content.length < 2 ^ 63

/-- The key of a block; `CacheBlockMarker + key + "_" + std::to_string(idx)`. -/
def cacheKey (key : Bytes) (idx : UInt64) : Bytes :=
  cacheBlockMarker ++ key ++ text "_" ++ TcpTransport.decimal idx

section CacheKey

variable {key key' : Bytes} {idx idx' : UInt64}

theorem marker_prefix_cacheKey : cacheBlockMarker <+: cacheKey key idx := by
  rw [cacheKey, List.append_assoc, List.append_assoc]
  exact List.prefix_append _ _

theorem underscore_not_mem_decimal : (0x5f : UInt8) ∉ (TcpTransport.decimal idx).reverse := by
  intro hmem
  have hdigit := TcpTransport.decimal_isDigit idx _ (List.mem_reverse.1 hmem)
  exact absurd hdigit (by decide)

/-- The last underscore ends the key of the object. -/
theorem cacheKey_inj : cacheKey key idx = cacheKey key' idx' ↔ key = key' ∧ idx = idx' := by
  constructor
  · intro heq
    have hunderscore : text "_" = [0x5f] := by decide
    simp only [cacheKey, List.append_assoc, List.append_cancel_left_eq, hunderscore] at heq
    have hreverse := congrArg List.reverse heq
    simp only [List.singleton_append, List.reverse_append, List.reverse_cons,
      List.append_assoc] at hreverse
    obtain ⟨hnumber, hkey⟩ := (append_cons_inj_of_not_mem underscore_not_mem_decimal
      underscore_not_mem_decimal).1 hreverse
    have hvalue := congrArg TcpTransport.digitsValue (List.reverse_inj.1 hnumber)
    rw [TcpTransport.digitsValue_decimal, TcpTransport.digitsValue_decimal] at hvalue
    exact ⟨List.reverse_inj.1 hkey, UInt64.toNat_inj.1 hvalue⟩
  · rintro ⟨rfl, rfl⟩
    rfl

theorem getPath_cacheKey_inj {bucket bucket' : Bytes} (hbucket : slash ∉ bucket)
    (hbucket' : slash ∉ bucket') :
    getPath bucket (cacheKey key idx) = getPath bucket' (cacheKey key' idx') ↔
      bucket = bucket' ∧ key = key' ∧ idx = idx' := by
  rw [getPath, getPath, fullName_inj hbucket hbucket', cacheKey_inj]

end CacheKey

/-- The last position of a range that ends at the largest word at most -/
theorem toNat_endPos_of_le {position length : UInt64} (hlength : length ≠ 0)
    (hsum : position.toNat + length.toNat ≤ 2 ^ 64) :
    (position + length - 1).toNat + 1 = position.toNat + length.toNat := by
  have hpositive := toNat_pos_of_ne_zero hlength
  have hone : (1 : UInt64).toNat = 1 := rfl
  rw [UInt64.toNat_sub, UInt64.toNat_add, hone]
  omega

/-- The last position of a range that wraps lies before the first one. -/
theorem endPos_lt_of_wrap {position length : UInt64}
    (hsum : 2 ^ 64 < position.toNat + length.toNat) : position + length - 1 < position := by
  have hposition := position.toNat_lt
  have hlength := length.toNat_lt
  have hone : (1 : UInt64).toNat = 1 := rfl
  rw [UInt64.lt_iff_toNat_lt, UInt64.toNat_sub, UInt64.toNat_add, hone]
  omega

namespace StoredObject

variable (object : StoredObject) (config : CacheConfig)

def size : UInt64 := UInt64.ofNat object.content.length

theorem toNat_size : object.size.toNat = object.content.length :=
  Nat.mod_eq_of_lt (object.bounded.trans (by decide))

/-- The handle has a place for every block up to the one behind the last byte. -/
theorem hasBlock_of_le {idx : UInt64}
    (hle : idx.toNat ≤ object.content.length / config.cacheBlockSize.toNat) :
    HasBlock config object.size idx := by
  rw [hasBlock_iff (by rw [toNat_size]; exact object.bounded), toNat_size]
  exact hle

/-- The bytes that belong into a block of the object. -/
def block (idx : UInt64) : Bytes :=
  slice object.content (idx.toNat * config.cacheBlockSize.toNat) config.cacheBlockSize.toNat

/-- How much of a range the object has. -/
theorem toNat_min_size {position length : UInt64} (hinside : ¬ object.size ≤ position) :
    (min length (object.size - position)).toNat =
      min length.toNat (object.content.length - position.toNat) := by
  rw [UInt64.toNat_min, UInt64.toNat_sub_of_le _ _ (UInt64.le_of_lt (UInt64.not_le.1 hinside)),
    toNat_size]

theorem length_block_lt (idx : UInt64) : (object.block config idx).length < 2 ^ 63 := by
  rw [block, length_slice]
  exact ((Nat.min_le_right _ _).trans (Nat.sub_le _ _)).trans_lt object.bounded

/-- What `GetObject` answers to a range; `InvalidRange` if it begins behind the end.  A header
whose last position is before the first is no range, and is ignored. -/
def getRange (startPos endPos : UInt64) : Option Bytes :=
  if endPos < startPos then some object.content
  else if object.content.length ≤ startPos.toNat then none
  else some (slice object.content startPos.toNat (endPos.toNat + 1 - startPos.toNat))

/-- `Endpoint::read` with a position and a length. -/
def read (position length : UInt64) (fault : Option FailedStatus) : Except Status Bytes :=
  if length = 0 then .ok []
  else
    match fault with
    | some status => .error status.val
    | none =>
        match object.getRange position (position + length - 1) with
        | some body => .ok (body.take length.toNat)
        | none => .ok []

variable {object config}

theorem read_eq {position length : UInt64} (hend : position.toNat + length.toNat ≤ 2 ^ 64) :
    object.read position length none =
      .ok (slice object.content position.toNat length.toNat) := by
  by_cases hlength : length = 0
  · simp [read, hlength]
  · have hpositive := toNat_pos_of_ne_zero hlength
    have hlast := toNat_endPos_of_le hlength hend
    have hlater : position ≤ position + length - 1 := by
      rw [UInt64.le_iff_toNat_le]
      omega
    rw [read, if_neg hlength, getRange, if_neg (UInt64.not_lt.2 hlater)]
    by_cases hbehind : object.content.length ≤ position.toNat
    · simp only [if_pos hbehind, slice_eq_nil hbehind]
    · have hcount : (position + length - 1).toNat + 1 - position.toNat = length.toNat := by
        omega
      simp only [if_neg hbehind, hcount]
      rw [slice, List.take_take, Nat.min_self]

/-- A request that is not refused is answered. -/
theorem exists_read (position length : UInt64) :
    ∃ stream, object.read position length none = .ok stream := by
  rw [read]
  split_ifs
  · exact ⟨_, rfl⟩
  · cases object.getRange position (position + length - 1) with
    | none => exact ⟨_, rfl⟩
    | some body => exact ⟨_, rfl⟩

/-- A range that ends behind the largest word asks for the start of the object. -/
theorem read_of_wrap {position length : UInt64}
    (hwrap : 2 ^ 64 < position.toNat + length.toNat) :
    object.read position length none = .ok (object.content.take length.toNat) := by
  have hposition := position.toNat_lt
  have hnonzero : ¬ length = 0 := by
    rintro rfl
    rw [UInt64.toNat_zero] at hwrap
    omega
  simp only [read, if_neg hnonzero, getRange, if_pos (endPos_lt_of_wrap hwrap)]

theorem read_nil (hempty : object.content = []) (position length : UInt64) :
    object.read position length none = .ok [] := by
  rcases Nat.lt_or_ge (2 ^ 64) (position.toNat + length.toNat) with hwrap | hsum
  · rw [read_of_wrap hwrap, hempty, List.take_nil]
  · rw [read_eq hsum, hempty, slice_eq_nil (Nat.zero_le _)]

/-- The range that `openBlock` asks for is the block. -/
theorem read_block {size idx : UInt64} (hsize : size.toNat < 2 ^ 63)
    (hblock : HasBlock config size idx) :
    object.read (config.cacheBlockSize * idx) config.cacheBlockSize none =
      .ok (object.block config idx) := by
  have hstart := toNat_le_of_hasBlock hsize hblock
  have hbounded := config.cacheBlockSize.toNat_lt
  have hposition : (config.cacheBlockSize * idx).toNat =
      idx.toNat * config.cacheBlockSize.toNat := by
    rw [UInt64.toNat_mul, Nat.mul_comm]
    exact Nat.mod_eq_of_lt (by omega)
  -- a block behind the first one begins at its size or later
  have hend : idx.toNat * config.cacheBlockSize.toNat + config.cacheBlockSize.toNat ≤ 2 ^ 64 := by
    rcases Nat.eq_zero_or_pos idx.toNat with hzero | hpositive
    · rw [hzero, Nat.zero_mul, Nat.zero_add]
      exact hbounded.le
    · have hle := Nat.le_mul_of_pos_left config.cacheBlockSize.toNat hpositive
      omega
  rw [read_eq (by omega), hposition, block]

end StoredObject

namespace LocalFile

/-- The file has just these bytes. -/
def Holds (file : LocalFile) (files : FileSystem Bytes) (bytes : Bytes) : Prop :=
  file.size = UInt64.ofNat bytes.length ∧ files.content file.inode = bytes

theorem Holds.readBytes {file : LocalFile} {files : FileSystem Bytes} {content bytes : Bytes}
    (hholds : file.Holds files content) (hbounded : content.length < 2 ^ 64)
    {position length : UInt64} (hread : file.readBytes files position length = .ok bytes) :
    bytes = slice content position.toNat length.toNat := by
  have hsize : file.size.toNat = content.length := by
    rw [hholds.1]
    exact Nat.mod_eq_of_lt hbounded
  by_cases hposition : position < int64Max
  · rw [LocalFile.readBytes_of_lt hposition, Except.ok.injEq, FileSystem.pread, hholds.2,
      hsize] at hread
    rw [← hread, ← slice_min_length, slice]
  · rw [LocalFile.readBytes, if_pos (UInt64.not_lt.1 hposition)] at hread
    cases hread

/-- A write at the end that succeeds appends. -/
theorem Holds.append {file : LocalFile} {files : FileSystem Bytes} {content : Bytes}
    (hholds : file.Holds files content) {bytes : Bytes}
    (hbounded : content.length + bytes.length < 2 ^ 64) {fault : Option WriteFault}
    (hok : (file.writeBytes files bytes (UInt64.ofNat content.length) fault).1.ok = true) :
    (file.writeBytes files bytes (UInt64.ofNat content.length) fault).2.1.Holds
      (file.writeBytes files bytes (UInt64.ofNat content.length) fault).2.2
      (content ++ bytes) := by
  have hlength : (UInt64.ofNat content.length).toNat = content.length :=
    Nat.mod_eq_of_lt (by omega)
  by_cases hposition : int64Max < UInt64.ofNat content.length
  · simp [LocalFile.writeBytes, hposition, Status.ok, failedPreconditionError] at hok
  · by_cases hempty : bytes = []
    · simp only [LocalFile.writeBytes, hposition, hempty, ↓reduceIte, List.append_nil]
      exact hholds
    · simp only [LocalFile.writeBytes, hposition, hempty, ↓reduceIte] at hok ⊢
      cases fault with
      | some fault => cases hok
      | none =>
          constructor
          · change max file.size _ = _
            rw [hholds.1, ← UInt64.ofNat_add, ← List.length_append]
            have hle : UInt64.ofNat content.length ≤ UInt64.ofNat (content ++ bytes).length := by
              rw [UInt64.le_iff_toNat_le, hlength, List.length_append, UInt64.toNat_ofNat']
              omega
            exact if_pos hle
          · rw [FileSystem.pwrite, hholds.2, hlength, FileSystem.overwrite, if_neg hempty]
            refine (Heap.get_set_self _ _ _).trans ?_
            simp

/-- A write at the end, without a fault, appends. -/
theorem Holds.writeBytes {file : LocalFile} {files : FileSystem Bytes} {content : Bytes}
    (hholds : file.Holds files content) {bytes : Bytes}
    (hbounded : content.length + bytes.length < 2 ^ 63) :
    (file.writeBytes files bytes (UInt64.ofNat content.length) none).1 = okStatus ∧
      (file.writeBytes files bytes (UInt64.ofNat content.length) none).2.1.Holds
        (file.writeBytes files bytes (UInt64.ofNat content.length) none).2.2
        (content ++ bytes) := by
  have hposition : ¬ int64Max < UInt64.ofNat content.length := by
    have hlength : (UInt64.ofNat content.length).toNat = content.length :=
      Nat.mod_eq_of_lt (by omega)
    have hmax : int64Max.toNat = 2 ^ 63 - 1 := rfl
    rw [UInt64.lt_iff_toNat_lt, hlength, hmax]
    omega
  have hok : (file.writeBytes files bytes (UInt64.ofNat content.length) none).1 = okStatus := by
    by_cases hempty : bytes = [] <;>
      simp only [LocalFile.writeBytes, hposition, hempty, ↓reduceIte]
  exact ⟨hok, hholds.append (by omega) (by rw [hok]; rfl)⟩

end LocalFile

namespace CachedFileHandle

universe u

variable {σ : Type u} (config : CacheConfig)
  (readBlock : UInt64 → UInt64 → UInt64 → σ → Except Status Bytes × σ)

/-- The loop over the blocks in `readBytes`; `readBlock` opens a block and reads from
it, and `rounds` is the number of blocks that are left. -/
def readBlocks (position length : UInt64) : Nat → UInt64 → UInt64 → σ → Except Status Bytes × σ
  | 0, _, _, s => (.ok [], s)
  | rounds + 1, idx, count, s =>
      let expectedCount := min (length - count) config.cacheBlockSize
      let copied := readBlock idx ((position + count) % config.cacheBlockSize) expectedCount s
      match copied.1 with
      | .error status => (.error status, copied.2)
      | .ok bytes =>
          let rest := readBlocks position length rounds (idx + 1)
            (count + UInt64.ofNat bytes.length) copied.2
          (rest.1.map fun more => bytes ++ more, rest.2)

/-- `GEDSCachedFileHandle::readBytes` -/
def readBytes (remoteSize position length : UInt64) (s : σ) : Except Status Bytes × σ :=
  if remoteSize ≤ position ∨ length = 0 then (.ok [], s)
  else
    let length := min length (remoteSize - position)
    let startBlock := position / config.cacheBlockSize
    let endBlock := (position + length) / config.cacheBlockSize
    readBlocks config readBlock position length ((endBlock - startBlock).toNat + 1) startBlock 0 s

variable {config readBlock} {Inv : σ → Prop} {object : StoredObject}

/-- What one round takes from its block: the bytes up to the end of the block, or up
to the end of what was asked for. -/
theorem slice_block {idx : UInt64} {position remaining : Nat}
    (hidx : 0 < remaining → position / config.cacheBlockSize.toNat = idx.toNat) :
    slice (object.block config idx) (position % config.cacheBlockSize.toNat)
        (min remaining config.cacheBlockSize.toNat) =
      slice object.content position
        (min (config.cacheBlockSize.toNat - position % config.cacheBlockSize.toNat)
          remaining) := by
  rcases Nat.eq_zero_or_pos remaining with hzero | hpos
  · simp [hzero]
  · have hstart : idx.toNat * config.cacheBlockSize.toNat +
        position % config.cacheBlockSize.toNat = position := by
      rw [← hidx hpos, Nat.mul_comm]
      exact Nat.div_add_mod _ _
    rw [StoredObject.block, slice_slice, hstart]
    congr 1
    omega

/-- One round that finds all of its bytes: they continue what was read, and the next byte is in
the next block unless everything was read. -/
theorem round_spec {position length idx count : UInt64} {bytes : Bytes}
    (hsum : position.toNat + length.toNat < 2 ^ 64)
    (hfound : position.toNat + count.toNat + min (config.cacheBlockSize.toNat -
        (position.toNat + count.toNat) % config.cacheBlockSize.toNat)
      (length.toNat - count.toNat) ≤ object.content.length)
    (hcount : count.toNat ≤ length.toNat)
    (hidx : count.toNat < length.toNat →
      (position.toNat + count.toNat) / config.cacheBlockSize.toNat = idx.toNat)
    (hbytes : bytes = slice (object.block config idx)
      ((position + count) % config.cacheBlockSize).toNat
      (min (length - count) config.cacheBlockSize).toNat) :
    bytes = slice object.content (position.toNat + count.toNat) bytes.length ∧
      (count + UInt64.ofNat bytes.length).toNat = count.toNat + bytes.length ∧
      count.toNat + bytes.length ≤ length.toNat ∧
      (count.toNat + bytes.length < length.toNat →
        (position.toNat + (count.toNat + bytes.length)) / config.cacheBlockSize.toNat =
          idx.toNat + 1) := by
  have hpositive := config.positive
  have hposition : (position + count).toNat = position.toNat + count.toNat :=
    toNat_add_of_lt (by omega)
  have hremaining : (length - count).toNat = length.toNat - count.toNat :=
    UInt64.toNat_sub_of_le _ _ (UInt64.le_iff_toNat_le.2 hcount)
  rw [UInt64.toNat_mod, UInt64.toNat_min, hposition, hremaining,
    slice_block (fun hpos => hidx (by omega))] at hbytes
  have hoffset : (position.toNat + count.toNat) % config.cacheBlockSize.toNat <
      config.cacheBlockSize.toNat := Nat.mod_lt _ hpositive
  have hdivMod := Nat.div_add_mod (position.toNat + count.toNat) config.cacheBlockSize.toNat
  generalize (position.toNat + count.toNat) % config.cacheBlockSize.toNat = offset
    at hbytes hoffset hdivMod hfound
  have hlength : bytes.length = min (config.cacheBlockSize.toNat - offset)
      (length.toNat - count.toNat) := by
    rw [hbytes, length_slice]
    omega
  refine ⟨?_, ?_, by omega, ?_⟩
  · rw [hlength]
    exact hbytes
  · exact toNat_add_ofNat (by omega)
  · intro hlt
    -- the block was read to its end
    have hwhich : position.toNat + (count.toNat + bytes.length) =
        config.cacheBlockSize.toNat * (idx.toNat + 1) := by
      rw [Nat.mul_succ, ← hidx (by omega)]
      omega
    rw [hwhich, Nat.mul_div_cancel_left _ hpositive]

/-- Behind the last block, everything was read. -/
theorem count_eq_length {position length idx count : UInt64}
    (hlast : idx.toNat = (position.toNat + length.toNat) / config.cacheBlockSize.toNat + 1)
    (hcount : count.toNat ≤ length.toNat)
    (hidx : count.toNat < length.toNat →
      (position.toNat + count.toNat) / config.cacheBlockSize.toNat = idx.toNat) :
    count.toNat = length.toNat := by
  by_contra hne
  have hlt : count.toNat < length.toNat := lt_of_le_of_ne hcount hne
  have hle : (position.toNat + count.toNat) / config.cacheBlockSize.toNat ≤
      (position.toNat + length.toNat) / config.cacheBlockSize.toNat :=
    Nat.div_le_div_right (by omega)
  have hnow := hidx hlt
  omega

theorem readBlocks_inv (hkept : ∀ idx offset count s, Inv s →
      Inv (readBlock idx offset count s).2) {position length : UInt64} (rounds : Nat)
    {idx count : UInt64} {s : σ} (hinv : Inv s) :
    Inv (readBlocks config readBlock position length rounds idx count s).2 := by
  induction rounds generalizing idx count s with
  | zero => exact hinv
  | succ rounds ih =>
      have hinv' := hkept idx ((position + count) % config.cacheBlockSize)
        (min (length - count) config.cacheBlockSize) s hinv
      simp only [readBlocks]
      generalize readBlock idx _ _ s = copied at hinv'
      obtain ⟨result, after⟩ := copied
      cases result with
      | error status => exact hinv'
      | ok bytes => exact ih hinv'

theorem readBytes_inv (hkept : ∀ idx offset count s, Inv s →
      Inv (readBlock idx offset count s).2) (remoteSize position length : UInt64) {s : σ}
    (hinv : Inv s) : Inv (readBytes config readBlock remoteSize position length s).2 := by
  rw [readBytes]
  split_ifs
  · exact hinv
  · exact readBlocks_inv hkept _ hinv

/-- Blocks with the bytes that belong into them give the bytes that were asked for.
Before each round, the next byte is the one at `position + count`; it lies in the
block of this round unless everything was read. -/
theorem readBlocks_eq
    (hkept : ∀ idx offset count s, Inv s → Inv (readBlock idx offset count s).2)
    (hexact : ∀ idx offset count s bytes, HasBlock config object.size idx → Inv s →
      (readBlock idx offset count s).1 = .ok bytes →
      bytes = slice (object.block config idx) offset.toNat count.toNat)
    {position length : UInt64}
    (hend : position.toNat + length.toNat ≤ object.content.length) (rounds : Nat)
    {idx count : UInt64} {s : σ} (hinv : Inv s)
    (hlast : idx.toNat + rounds =
      (position.toNat + length.toNat) / config.cacheBlockSize.toNat + 1)
    (hcount : count.toNat ≤ length.toNat)
    (hidx : count.toNat < length.toNat →
      (position.toNat + count.toNat) / config.cacheBlockSize.toNat = idx.toNat)
    {bytes : Bytes}
    (hread : (readBlocks config readBlock position length rounds idx count s).1 = .ok bytes) :
    bytes = slice object.content (position.toNat + count.toNat)
      (length.toNat - count.toNat) := by
  have hbounded := object.bounded
  induction rounds generalizing idx count s bytes with
  | zero =>
      obtain rfl := Except.ok.inj hread
      rw [count_eq_length hlast hcount hidx, Nat.sub_self, slice_zero]
  | succ rounds ih =>
      have hinv' := hkept idx ((position + count) % config.cacheBlockSize)
        (min (length - count) config.cacheBlockSize) s hinv
      have hpieces := hexact idx ((position + count) % config.cacheBlockSize)
        (min (length - count) config.cacheBlockSize) s
      simp only [readBlocks] at hread
      generalize readBlock idx _ _ s = copied at hinv' hpieces hread
      obtain ⟨result, after⟩ := copied
      cases result with
      | error status => cases hread
      | ok piece =>
          have hblock : HasBlock config object.size idx := by
            have hlastLe := @Nat.div_le_div_right _ _ config.cacheBlockSize.toNat hend
            exact StoredObject.hasBlock_of_le object config (by omega)
          obtain ⟨hpiece, hcount', hle, hnext⟩ :=
            round_spec (by omega) (by omega) hcount hidx (hpieces piece hblock hinv rfl)
          have hidx' : (idx + 1).toNat = idx.toNat + 1 := by
            have hdivLe := Nat.div_le_self (position.toNat + length.toNat)
              config.cacheBlockSize.toNat
            exact toNat_add_one (by omega)
          simp only at hread
          cases htail : (readBlocks config readBlock position length rounds (idx + 1)
              (count + UInt64.ofNat piece.length) after).1 with
          | error status =>
              rw [htail] at hread
              cases hread
          | ok more =>
              rw [htail] at hread
              obtain rfl := Except.ok.inj hread
              have hmore := ih hinv' (by omega) (by omega) (by rw [hcount', hidx']; exact hnext)
                htail
              rw [hcount'] at hmore
              calc piece ++ more
                  = slice object.content (position.toNat + count.toNat) piece.length ++
                      slice object.content (position.toNat + count.toNat + piece.length)
                        (length.toNat - (count.toNat + piece.length)) := by
                    rw [← hpiece, Nat.add_assoc, ← hmore]
                _ = slice object.content (position.toNat + count.toNat)
                      (length.toNat - count.toNat) := by
                    rw [slice_append]
                    congr 1
                    omega

/-- The loop of a read inside of the object. -/
theorem readBytes_eq_readBlocks {object : StoredObject} {position length : UInt64}
    (hposition : position < object.size) (hlength : 0 < length) :
    ∃ clipped : UInt64, clipped.toNat =
        min length.toNat (object.content.length - position.toNat) ∧
      ∀ {τ : Type u} (readBlock : UInt64 → UInt64 → UInt64 → τ → Except Status Bytes × τ) (s : τ),
        readBytes config readBlock object.size position length s =
          readBlocks config readBlock position clipped
            ((position.toNat + clipped.toNat) / config.cacheBlockSize.toNat -
              position.toNat / config.cacheBlockSize.toNat + 1)
            (position / config.cacheBlockSize) 0 s := by
  have hinside : ¬ object.size ≤ position := UInt64.not_le.2 hposition
  have hclipped := @StoredObject.toNat_min_size object position length hinside
  have hbounded := object.bounded
  have hlt := UInt64.lt_iff_toNat_lt.1 hposition
  rw [StoredObject.toNat_size] at hlt
  have hpositive : 0 < length.toNat := UInt64.lt_iff_toNat_lt.1 hlength
  refine ⟨min length (object.size - position), hclipped, ?_⟩
  intro τ readBlock s
  have hnothing : ¬ (object.size ≤ position ∨ length = 0) := by
    rintro (hle | rfl)
    · exact hinside hle
    · exact absurd hpositive (lt_irrefl _)
  rw [readBytes, if_neg hnothing]
  dsimp only
  generalize min length (object.size - position) = clipped at hclipped ⊢
  have hend : (position + clipped).toNat = position.toNat + clipped.toNat :=
    toNat_add_of_lt (by omega)
  have hle : position / config.cacheBlockSize ≤ (position + clipped) / config.cacheBlockSize := by
    rw [UInt64.le_iff_toNat_le, UInt64.toNat_div, UInt64.toNat_div, hend]
    exact Nat.div_le_div_right (by omega)
  rw [UInt64.toNat_sub_of_le _ _ hle, UInt64.toNat_div, UInt64.toNat_div, hend]

theorem readBytes_eq
    (hkept : ∀ idx offset count s, Inv s → Inv (readBlock idx offset count s).2)
    (hexact : ∀ idx offset count s bytes, HasBlock config object.size idx → Inv s →
      (readBlock idx offset count s).1 = .ok bytes →
      bytes = slice (object.block config idx) offset.toNat count.toNat)
    {position length : UInt64} {s : σ} (hinv : Inv s) {bytes : Bytes}
    (hread : (readBytes config readBlock object.size position length s).1 = .ok bytes) :
    bytes = slice object.content position.toNat length.toNat := by
  by_cases hnothing : object.size ≤ position ∨ length = 0
  · rw [readBytes, if_pos hnothing] at hread
    obtain rfl := Except.ok.inj hread
    rcases hnothing with hbehind | hzero
    · rw [UInt64.le_iff_toNat_le, StoredObject.toNat_size] at hbehind
      rw [slice_eq_nil hbehind]
    · simp [hzero]
  · obtain ⟨hinside, hnonzero⟩ := not_or.1 hnothing
    have hposition : position < object.size := UInt64.not_le.1 hinside
    obtain ⟨clipped, hlength, hloop⟩ :=
      @readBytes_eq_readBlocks.{u} config object position length hposition
        (UInt64.pos_iff_ne_zero.2 hnonzero)
    have hlt := UInt64.lt_iff_toNat_lt.1 hposition
    rw [StoredObject.toNat_size] at hlt
    have hstart : position.toNat / config.cacheBlockSize.toNat ≤
        (position.toNat + clipped.toNat) / config.cacheBlockSize.toNat :=
      Nat.div_le_div_right (by omega)
    have hzero : (0 : UInt64).toNat = 0 := rfl
    rw [hloop] at hread
    have hbytes := readBlocks_eq hkept hexact (by omega) _ hinv
      (by rw [UInt64.toNat_div]; omega) (by omega)
      (fun _ => by rw [hzero, Nat.add_zero, UInt64.toNat_div]) hread
    rw [hbytes, hzero, Nat.add_zero, Nat.sub_zero, hlength, slice_min_length]

namespace Sample

/-- Blocks of four bytes. -/
def smallBlocks : CacheConfig := ⟨4, by decide⟩

/-- An object with one block and a half. -/
def letters : StoredObject := ⟨text "abcdef", by decide⟩

end Sample

end CachedFileHandle

end GEDS
