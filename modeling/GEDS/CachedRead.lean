/-
`GEDSCachedFileHandle::readBytes` over blocks that are all there: what it leaves in
the buffer, that its arithmetic does not wrap and that it stays inside of `_blocks`;
and which blocks it opens.
-/
import GEDS.CachedFileHandle

namespace GEDS

open Status

/-- `left + right` of `size_t`, unless it wraps. -/
def checkedAdd (left right : UInt64) : Option UInt64 :=
  if left.toNat + right.toNat < 2 ^ 64 then some (left + right) else none

/-- `left - right` of `size_t`, unless it wraps. -/
def checkedSub (left right : UInt64) : Option UInt64 :=
  if right.toNat ≤ left.toNat then some (left - right) else none

/-- `left * right` of `size_t`, unless it wraps. -/
def checkedMul (left right : UInt64) : Option UInt64 :=
  if left.toNat * right.toNat < 2 ^ 64 then some (left * right) else none

section Checked

variable {left right : UInt64}

theorem checkedAdd_eq_some (hfits : left.toNat + right.toNat < 2 ^ 64) :
    checkedAdd left right = some (left + right) :=
  if_pos hfits

theorem checkedSub_eq_some (hle : right.toNat ≤ left.toNat) :
    checkedSub left right = some (left - right) :=
  if_pos hle

theorem checkedMul_eq_some (hfits : left.toNat * right.toNat < 2 ^ 64) :
    checkedMul left right = some (left * right) :=
  if_pos hfits

end Checked

/-- The caller's buffer after bytes were copied to a place in it. -/
def copyTo (buffer : Bytes) (count : Nat) (bytes : Bytes) : Bytes :=
  buffer.take count ++ bytes ++ buffer.drop (count + bytes.length)

theorem copyTo_append (front back bytes : Bytes) :
    copyTo (front ++ back) front.length bytes = front ++ bytes ++ back.drop bytes.length := by
  rw [copyTo, List.take_left, ← List.drop_drop, List.drop_left]

namespace CachedFileHandle

section Checked

variable (config : CacheConfig) (blocks : UInt64 → Bytes)

/-- Blocks that are all there, and give what they have. -/
def readPresent (idx offset count : UInt64) (s : Unit) : Except Status Bytes × Unit :=
  (.ok (slice (blocks idx) offset.toNat count.toNat), s)

/-- The loop of `readBytes` with every operation checked; `blockCount` is the size of
`_blocks` and of `_blockMutex`. -/
def readBlocksChecked (blockCount position length : UInt64) :
    Nat → UInt64 → UInt64 → Bytes → Option (UInt64 × Bytes)
  | 0, _, count, buffer => some (count, buffer)
  | rounds + 1, idx, count, buffer =>
      if idx < blockCount then do
        -- where `openBlock` begins to download
        let _ ← checkedMul config.cacheBlockSize idx
        let remaining ← checkedSub length count
        let current ← checkedAdd position count
        let bytes := slice (blocks idx) (current % config.cacheBlockSize).toNat
          (min remaining config.cacheBlockSize).toNat
        let total ← checkedAdd count (UInt64.ofNat bytes.length)
        let next ← checkedAdd idx 1
        readBlocksChecked blockCount position length rounds next total
          (copyTo buffer count.toNat bytes)
      else none

/-- `GEDSCachedFileHandle::readBytes` with every operation checked: the number of
bytes, and what is in the buffer afterwards. -/
def readBytesChecked (remoteSize position length : UInt64) (buffer : Bytes) :
    Option (UInt64 × Bytes) :=
  if remoteSize ≤ position ∨ length = 0 then some (0, buffer)
  else do
    let blockCount ← checkedAdd (remoteSize / config.cacheBlockSize) 1
    let available ← checkedSub remoteSize position
    let length := min length available
    let startBlock := position / config.cacheBlockSize
    let endPosition ← checkedAdd position length
    let endBlock := endPosition / config.cacheBlockSize
    readBlocksChecked config blocks blockCount position length
      (endBlock.toNat + 1 - startBlock.toNat) startBlock 0 buffer

variable {config blocks} {object : StoredObject}

/-- The loop on blocks that are complete.  Before each round, the buffer begins with
the bytes that were read, and the next byte lies in the block of this round unless
everything was read. -/
theorem readBlocksChecked_eq
    (hblocks : ∀ idx, HasBlock config object.size idx → blocks idx = object.block config idx)
    {position length : UInt64}
    (hend : position.toNat + length.toNat ≤ object.content.length) (original : Bytes)
    (rounds : Nat) {idx count : UInt64}
    (hlast : idx.toNat + rounds =
      (position.toNat + length.toNat) / config.cacheBlockSize.toNat + 1)
    (hcount : count.toNat ≤ length.toNat)
    (hidx : count.toNat < length.toNat →
      (position.toNat + count.toNat) / config.cacheBlockSize.toNat = idx.toNat) :
    readBlocksChecked config blocks (object.size / config.cacheBlockSize + 1) position length
        rounds idx count
        (slice object.content position.toNat count.toNat ++ original.drop count.toNat) =
      some (length,
        slice object.content position.toNat length.toNat ++ original.drop length.toNat) := by
  have hbounded := object.bounded
  induction rounds generalizing idx count with
  | zero =>
      have hdone := count_eq_length hlast hcount hidx
      rw [readBlocksChecked, UInt64.toNat_inj.1 hdone]
  | succ rounds ih =>
      have hlastLe : (position.toNat + length.toNat) / config.cacheBlockSize.toNat ≤
          object.content.length / config.cacheBlockSize.toNat := Nat.div_le_div_right hend
      have hsizeLe := Nat.div_le_self object.content.length config.cacheBlockSize.toNat
      have hone : (1 : UInt64).toNat = 1 := rfl
      have hblock : HasBlock config object.size idx :=
        StoredObject.hasBlock_of_le object config (by omega)
      have hstart : config.cacheBlockSize.toNat * idx.toNat < 2 ^ 64 := by
        have hle := toNat_le_of_hasBlock (by rw [StoredObject.toNat_size]; exact hbounded) hblock
        rw [StoredObject.toNat_size] at hle
        rw [Nat.mul_comm]
        omega
      have hnext : (idx + 1).toNat = idx.toNat + 1 :=
        toNat_add_one (by omega)
      obtain ⟨hpiece, hcount', hle, hidx'⟩ := round_spec (by omega) (by omega) hcount hidx
        (congrArg (slice · ((position + count) % config.cacheBlockSize).toNat
          (min (length - count) config.cacheBlockSize).toNat) (hblocks idx hblock))
      have hrest := @ih (idx + 1) (count + UInt64.ofNat (slice (blocks idx)
        ((position + count) % config.cacheBlockSize).toNat
        (min (length - count) config.cacheBlockSize).toNat).length) (by omega) (by omega)
        (by rw [hcount', hnext]; exact hidx')
      have hblockCount : idx < object.size / config.cacheBlockSize + 1 := hblock
      rw [readBlocksChecked, if_pos hblockCount, checkedMul_eq_some hstart,
        checkedSub_eq_some hcount, checkedAdd_eq_some (by omega)]
      simp only [Option.bind_eq_bind, Option.bind_some]
      generalize slice (blocks idx) _ _ = bytes at hpiece hcount' hle hidx' hrest ⊢
      have hbytes : (UInt64.ofNat bytes.length).toNat = bytes.length :=
        Nat.mod_eq_of_lt (by omega)
      have hread : (slice object.content position.toNat count.toNat).length = count.toNat := by
        rw [length_slice]
        omega
      have hbuffer := copyTo_append (slice object.content position.toNat count.toNat)
        (original.drop count.toNat) bytes
      have htogether : slice object.content position.toNat count.toNat ++ bytes =
          slice object.content position.toNat (count.toNat + bytes.length) := by
        rw [← slice_append, ← hpiece]
      rw [hread, List.drop_drop, htogether, ← hcount'] at hbuffer
      rw [checkedAdd_eq_some (by omega), checkedAdd_eq_some (by omega)]
      simp only [Option.bind_some]
      rw [hbuffer]
      exact hrest

theorem readBlocks_readPresent (position length : UInt64) (rounds : Nat) (idx count : UInt64) :
    ∃ bytes, (readBlocks config (readPresent blocks) position length rounds idx count ()).1 =
      .ok bytes := by
  induction rounds generalizing idx count with
  | zero => exact ⟨[], rfl⟩
  | succ rounds ih =>
      simp only [readBlocks, readPresent]
      obtain ⟨more, hmore⟩ := ih (idx + 1) (count + UInt64.ofNat (slice (blocks idx)
        ((position + count) % config.cacheBlockSize).toNat
        (min (length - count) config.cacheBlockSize).toNat).length)
      exact ⟨_, congrArg (Except.map _) hmore⟩

/-- Blocks with what belongs into them give the bytes that were asked for, as far as
the object has them: nothing wraps, no index is outside of `_blocks`, and the rest of
the buffer stays as it was. -/
theorem readBytesChecked_eq
    (hblocks : ∀ idx, HasBlock config object.size idx → blocks idx = object.block config idx)
    (position length : UInt64) (buffer : Bytes) :
    readBytesChecked config blocks object.size position length buffer =
        some (UInt64.ofNat (min length.toNat (object.content.length - position.toNat)),
          slice object.content position.toNat length.toNat ++
            buffer.drop (min length.toNat (object.content.length - position.toNat))) ∧
      (readBytes config (readPresent blocks) object.size position length ()).1 =
        .ok (slice object.content position.toNat length.toNat) := by
  constructor
  · rw [readBytesChecked]
    split_ifs with hnothing
    · rcases hnothing with hbehind | rfl
      · rw [UInt64.le_iff_toNat_le, StoredObject.toNat_size] at hbehind
        simp [slice_eq_nil hbehind, Nat.sub_eq_zero_of_le hbehind]
      · simp
    · obtain ⟨hinside, hnonzero⟩ := not_or.1 hnothing
      have hlt : position.toNat < object.size.toNat :=
        UInt64.lt_iff_toNat_lt.1 (UInt64.not_le.1 hinside)
      have hlength := @StoredObject.toNat_min_size object position length hinside
      have hbounded := object.bounded
      have hsizeLe := Nat.div_le_self object.content.length config.cacheBlockSize.toNat
      have hone : (1 : UInt64).toNat = 1 := rfl
      have hzero : (0 : UInt64).toNat = 0 := rfl
      rw [StoredObject.toNat_size] at hlt
      rw [checkedAdd_eq_some (by rw [UInt64.toNat_div, StoredObject.toNat_size, hone]; omega),
        checkedSub_eq_some (by rw [StoredObject.toNat_size]; omega)]
      simp only [Option.bind_eq_bind, Option.bind_some]
      rw [← slice_min_length, ← hlength, UInt64.ofNat_toNat]
      generalize min length (object.size - position) = clipped at hlength ⊢
      rw [checkedAdd_eq_some (by omega)]
      simp only [Option.bind_some]
      have hend : (position + clipped).toNat = position.toNat + clipped.toNat :=
        toNat_add_of_lt (by omega)
      have hstart : position.toNat / config.cacheBlockSize.toNat ≤
          (position.toNat + clipped.toNat) / config.cacheBlockSize.toNat :=
        Nat.div_le_div_right (by omega)
      have hloop := @readBlocksChecked_eq config blocks object hblocks position clipped (by omega)
        buffer (((position + clipped) / config.cacheBlockSize).toNat + 1 -
          (position / config.cacheBlockSize).toNat) (position / config.cacheBlockSize) 0
        (by rw [UInt64.toNat_div, UInt64.toNat_div, hend]; omega) (by omega)
        (fun _ => by rw [hzero, Nat.add_zero, UInt64.toNat_div])
      simpa only [hzero, slice_zero, List.nil_append, List.drop_zero] using hloop
  · have hok : ∃ bytes,
        (readBytes config (readPresent blocks) object.size position length ()).1 = .ok bytes := by
      rw [readBytes]
      split_ifs
      · exact ⟨[], rfl⟩
      · exact readBlocks_readPresent _ _ _ _ _
    obtain ⟨bytes, hbytes⟩ := hok
    rw [hbytes]
    congr 1
    refine @readBytes_eq Unit config _ (fun _ => True) object (fun _ _ _ _ _ => trivial) ?_
      position length () trivial bytes hbytes
    intro idx offset count s piece hblock _ hpiece
    rw [← hblocks idx hblock]
    exact (Except.ok.inj hpiece).symm

end Checked

section Opened

universe u

variable {σ : Type u}

/-- Keep a list of the blocks that are opened. -/
def logged (readBlock : UInt64 → UInt64 → UInt64 → σ → Except Status Bytes × σ)
    (idx offset count : UInt64) (s : σ × List UInt64) :
    Except Status Bytes × σ × List UInt64 :=
  let copied := readBlock idx offset count s.1
  (copied.1, copied.2, s.2 ++ [idx])

variable {config : CacheConfig}
  {readBlock : UInt64 → UInt64 → UInt64 → σ → Except Status Bytes × σ}

/-- The loop opens blocks in order, and all of them unless it fails. -/
theorem readBlocks_opened (position length : UInt64) (rounds : Nat) (idx count : UInt64) (s : σ)
    (opened : List UInt64) (hfits : idx.toNat + rounds < 2 ^ 64) :
    (∀ other ∈ (readBlocks config (logged readBlock) position length rounds idx count
        (s, opened)).2.2,
      other ∈ opened ∨ idx.toNat ≤ other.toNat ∧ other.toNat < idx.toNat + rounds) ∧
    (∀ bytes, (readBlocks config (logged readBlock) position length rounds idx count
        (s, opened)).1 = .ok bytes →
      ∀ other : UInt64,
        other ∈ opened ∨ idx.toNat ≤ other.toNat ∧ other.toNat < idx.toNat + rounds →
        other ∈ (readBlocks config (logged readBlock) position length rounds idx count
          (s, opened)).2.2) := by
  induction rounds generalizing idx count s opened with
  | zero =>
      refine ⟨fun other hmem => Or.inl hmem, ?_⟩
      intro bytes _ other hother
      rcases hother with hmem | hrange
      · exact hmem
      · omega
  | succ rounds ih =>
      have hnext : (idx + 1).toNat = idx.toNat + 1 :=
        toNat_add_one (by omega)
      simp only [readBlocks, logged]
      generalize readBlock idx _ _ s = copied
      obtain ⟨result, after⟩ := copied
      cases result with
      | error status =>
          refine ⟨?_, fun bytes hok => by cases hok⟩
          intro other hmem
          rcases List.mem_append.1 hmem with hold | hnew
          · exact Or.inl hold
          · obtain rfl := List.mem_singleton.1 hnew
            exact Or.inr ⟨Nat.le_refl _, by omega⟩
      | ok piece =>
          obtain ⟨honly, hall⟩ := ih (idx + 1) (count + UInt64.ofNat piece.length) after
            (opened ++ [idx]) (by omega)
          rw [hnext] at honly hall
          constructor
          · intro other hmem
            rcases honly other hmem with hold | hrange
            · rcases List.mem_append.1 hold with hbefore | hnow
              · exact Or.inl hbefore
              · obtain rfl := List.mem_singleton.1 hnow
                exact Or.inr ⟨Nat.le_refl _, by omega⟩
            · exact Or.inr ⟨by omega, by omega⟩
          · intro bytes hok other hother
            simp only at hok
            cases htail : (readBlocks config (logged readBlock) position length rounds (idx + 1)
                (count + UInt64.ofNat piece.length) (after, opened ++ [idx])).1 with
            | error status =>
                rw [htail] at hok
                cases hok
            | ok more =>
                apply hall more htail other
                rcases hother with hold | hrange
                · exact Or.inl (List.mem_append_left _ hold)
                · by_cases hfirst : other = idx
                  · exact Or.inl (List.mem_append_right _ (List.mem_singleton.2 hfirst))
                  · have hne : other.toNat ≠ idx.toNat := fun heq =>
                      hfirst (UInt64.toNat_inj.1 heq)
                    exact Or.inr ⟨by omega, by omega⟩

/-- If no block of the loop fails, the loop does not fail. -/
theorem readBlocks_ok (position length : UInt64) (rounds : Nat) (idx count : UInt64) (s : σ)
    (hfits : idx.toNat + rounds < 2 ^ 64)
    (hblocks : ∀ other : UInt64, idx.toNat ≤ other.toNat → other.toNat < idx.toNat + rounds →
      ∀ offset count t, ∃ bytes, (readBlock other offset count t).1 = .ok bytes) :
    ∃ bytes, (readBlocks config readBlock position length rounds idx count s).1 = .ok bytes := by
  induction rounds generalizing idx count s with
  | zero => exact ⟨[], rfl⟩
  | succ rounds ih =>
      have hnext : (idx + 1).toNat = idx.toNat + 1 :=
        toNat_add_one (by omega)
      obtain ⟨piece, hpiece⟩ := hblocks idx (Nat.le_refl _) (by omega)
        ((position + count) % config.cacheBlockSize) (min (length - count) config.cacheBlockSize) s
      simp only [readBlocks, hpiece]
      obtain ⟨more, hmore⟩ := ih (idx + 1) (count + UInt64.ofNat piece.length)
        (readBlock idx ((position + count) % config.cacheBlockSize)
          (min (length - count) config.cacheBlockSize) s).2 (by omega)
        (fun other hle hlt => hblocks other (by omega) (by omega))
      exact ⟨_, congrArg (Except.map _) hmore⟩

/-- The block has a byte of the range. -/
def Overlaps (config : CacheConfig) (first last : Nat) (idx : UInt64) : Prop :=
  idx.toNat * config.cacheBlockSize.toNat < last ∧
    first < (idx.toNat + 1) * config.cacheBlockSize.toNat

/-- The blocks with a byte of the range are those from the first byte's to the last
byte's. -/
theorem overlaps_iff {first last : Nat} (hlt : first < last) (idx : UInt64) :
    Overlaps config first last idx ↔
      first / config.cacheBlockSize.toNat ≤ idx.toNat ∧
        idx.toNat ≤ (last - 1) / config.cacheBlockSize.toNat := by
  rw [Overlaps, Nat.le_div_iff_mul_le config.positive, ← Nat.lt_add_one_iff (n := idx.toNat),
    Nat.div_lt_iff_lt_mul config.positive]
  omega

/-- What a read of this range may open, and has to: for blocks that behave in any way,
only blocks of the range are opened, all of them are if the read succeeds, and it does
so if they can be read. -/
structure FetchesNeeded (config : CacheConfig) (remoteSize position length : UInt64) : Prop where
  opened : ∀ {τ : Type} (readBlock : UInt64 → UInt64 → UInt64 → τ → Except Status Bytes × τ)
    (s : τ), ∀ idx ∈ (readBytes config (logged readBlock) remoteSize position length
      (s, [])).2.2,
    Overlaps config position.toNat (min (position.toNat + length.toNat) remoteSize.toNat) idx
  complete : ∀ {τ : Type} (readBlock : UInt64 → UInt64 → UInt64 → τ → Except Status Bytes × τ)
    (s : τ) (bytes : Bytes),
    (readBytes config (logged readBlock) remoteSize position length (s, [])).1 = .ok bytes →
    ∀ idx, Overlaps config position.toNat
        (min (position.toNat + length.toNat) remoteSize.toNat) idx →
      idx ∈ (readBytes config (logged readBlock) remoteSize position length (s, [])).2.2
  succeeds : ∀ {τ : Type} (readBlock : UInt64 → UInt64 → UInt64 → τ → Except Status Bytes × τ)
    (s : τ), (∀ idx, Overlaps config position.toNat
        (min (position.toNat + length.toNat) remoteSize.toNat) idx →
      ∀ offset count t, ∃ bytes, (readBlock idx offset count t).1 = .ok bytes) →
    ∃ bytes, (readBytes config readBlock remoteSize position length s).1 = .ok bytes

/-- A read opens just the blocks of its range, unless the range ends where a block
ends: then it opens the next one, too. -/
theorem fetchesNeeded_iff (config : CacheConfig) (object : StoredObject)
    {position length : UInt64} (hposition : position < object.size) (hlength : 0 < length) :
    FetchesNeeded config object.size position length ↔
      ¬ config.cacheBlockSize.toNat ∣
        min (position.toNat + length.toNat) object.content.length := by
  obtain ⟨clipped, hclipped, hloop⟩ :=
    @readBytes_eq_readBlocks.{0} config object position length hposition hlength
  have hlt := UInt64.lt_iff_toNat_lt.1 hposition
  have hpositive : 0 < length.toNat := UInt64.lt_iff_toNat_lt.1 hlength
  have hsize := object.toNat_size
  have hbounded := object.bounded
  have hlast : min (position.toNat + length.toNat) object.content.length =
      position.toNat + clipped.toNat := by omega
  have hstart : position.toNat / config.cacheBlockSize.toNat ≤
      (position.toNat + clipped.toNat) / config.cacheBlockSize.toNat :=
    Nat.div_le_div_right (by omega)
  have hdivLe := Nat.div_le_self (position.toNat + clipped.toNat) config.cacheBlockSize.toNat
  have hfits : (position / config.cacheBlockSize).toNat +
      ((position.toNat + clipped.toNat) / config.cacheBlockSize.toNat -
        position.toNat / config.cacheBlockSize.toNat + 1) < 2 ^ 64 := by
    rw [UInt64.toNat_div]
    omega
  rw [hlast]
  constructor
  · -- behind a range that ends with a block, blocks that are all there are opened
    rintro hneeded ⟨idx, hidx⟩
    have hquotient : (position.toNat + clipped.toNat) / config.cacheBlockSize.toNat = idx := by
      rw [hidx, Nat.mul_div_cancel_left _ config.positive]
    have hidxNat : (UInt64.ofNat idx).toNat = idx := Nat.mod_eq_of_lt (by omega)
    obtain ⟨bytes, hbytes⟩ := @readBlocks_ok _ config (logged (readPresent fun _ => []))
      position clipped _ _ 0 ((), []) hfits fun _ _ _ _ _ _ => ⟨_, rfl⟩
    have hopened := (readBlocks_opened position clipped _ _ 0 () [] hfits).2 bytes hbytes
      (UInt64.ofNat idx) (Or.inr ⟨by rw [UInt64.toNat_div]; omega,
        by rw [UInt64.toNat_div]; omega⟩)
    rw [← hloop] at hopened
    have hoverlaps := (hneeded.opened _ _ _ hopened).1
    rw [hidxNat, hsize, hlast, hidx, Nat.mul_comm] at hoverlaps
    exact lt_irrefl _ hoverlaps
  · intro hends
    -- the last byte and the end of the range lie in one block
    have hsame : (position.toNat + clipped.toNat - 1) / config.cacheBlockSize.toNat =
        (position.toNat + clipped.toNat) / config.cacheBlockSize.toNat := by
      have hpred := Nat.succ_div_of_not_dvd (a := position.toNat + clipped.toNat - 1)
        (b := config.cacheBlockSize.toNat) (by rwa [Nat.sub_add_cancel (by omega)])
      rw [Nat.sub_add_cancel (by omega)] at hpred
      exact hpred.symm
    have hrange : ∀ idx : UInt64, Overlaps config position.toNat
          (min (position.toNat + length.toNat) object.size.toNat) idx ↔
        (position / config.cacheBlockSize).toNat ≤ idx.toNat ∧
          idx.toNat < (position / config.cacheBlockSize).toNat +
            ((position.toNat + clipped.toNat) / config.cacheBlockSize.toNat -
              position.toNat / config.cacheBlockSize.toNat + 1) := by
      intro idx
      rw [hsize, hlast, overlaps_iff (by omega), hsame, UInt64.toNat_div]
      omega
    refine ⟨?_, ?_, ?_⟩
    · intro τ readBlock s idx hmem
      rw [hloop] at hmem
      rcases (readBlocks_opened position clipped _ _ 0 s [] hfits).1 idx hmem with hnone | hidx
      · exact absurd hnone List.not_mem_nil
      · exact (hrange idx).2 hidx
    · intro τ readBlock s bytes hok idx hidx
      rw [hloop] at hok ⊢
      exact (readBlocks_opened position clipped _ _ 0 s [] hfits).2 bytes hok idx
        (Or.inr ((hrange idx).1 hidx))
    · intro τ readBlock s hblocks
      rw [hloop]
      exact readBlocks_ok position clipped _ _ 0 s hfits fun idx hle hidx =>
        hblocks idx ((hrange idx).2 ⟨hle, hidx⟩)

end Opened

namespace Sample

theorem letters_read :
    readBytesChecked smallBlocks (letters.block smallBlocks) letters.size 2 9 [0, 0, 0, 0, 0] =
      some (4, text "cdef" ++ [0]) :=
  (readBytesChecked_eq (fun _ _ => rfl) 2 9 [0, 0, 0, 0, 0]).1.trans (by decide)

theorem inner_fetchesNeeded : FetchesNeeded smallBlocks letters.size 1 2 :=
  (fetchesNeeded_iff smallBlocks letters (by decide) (by decide)).2 (by decide)

/-- The second block is opened for the bytes of the first one. -/
theorem aligned_not_fetchesNeeded :
    0 < letters.size ∧ ¬ FetchesNeeded smallBlocks letters.size 0 4 := by
  refine ⟨by decide, fun hneeded => ?_⟩
  have hsecond := hneeded.opened (readPresent fun _ => []) () 1 (by decide)
  exact absurd hsecond.1 (by decide)

end Sample

end CachedFileHandle

end GEDS
