/-
What an `MMAPFile` shows of the file behind it: the bytes up to the size that it keeps.  What it
kept behind that size comes back when the size grows, as nothing is cleared.
-/
import GEDS.MMAPFile

namespace GEDS

open Status

/-- The kernel carries out every call. -/
def KernelAnswers.Willing (answers : KernelAnswers) : Prop :=
  answers.fallocates = true ∧ answers.maps = true

namespace MMAPFile

variable (page : PageSize) (file : MMAPFile)

/-- The bytes that can be read. -/
def shown : SparseArray UInt8 := file.bytes.truncate file.size.toNat

/-- The size of the mapping behind a growth. -/
def mmapSizeFor (requestSize : UInt64) : UInt64 :=
  if file.mmapSize < requestSize then page.roundUp requestSize else file.mmapSize

/-- The file has every byte of the mapping, and of the pages of its size: an access to the mapping
does not leave the file. -/
structure Backed : Prop where
  whole : page.bytes.toNat ∣ file.mmapSize.toNat
  mapping : file.mmapSize.toNat ≤ file.bytes.length
  pages : ∃ whole, page.bytes.toNat ∣ whole ∧ file.size.toNat ≤ whole ∧
    whole ≤ file.bytes.length

/-- The mapping holds the file and is held by it, and the pages of the file end in front of the
largest position. -/
structure Kept : Prop where
  covers : file.Covers page
  released : file.Released
  backed : file.Backed page
  bounded : file.size.toNat + page.bytes.toNat ≤ 2 ^ 63

variable {page file} {answers : KernelAnswers} {position length requestSize : UInt64}

/-- Whole pages in front of the largest position can be mapped. -/
theorem growthFails_of_willing (hwilling : answers.Willing) (hless : file.mmapSize < requestSize)
    (hfits : requestSize.toNat + page.bytes.toNat ≤ 2 ^ 63) :
    file.growthFails (page.roundUp requestSize) answers = false := by
  have hmax : int64Max.toNat = 2 ^ 63 - 1 := rfl
  rw [UInt64.lt_iff_toNat_lt] at hless
  have hrequest : requestSize ≠ 0 := by
    rintro rfl
    exact absurd hless (Nat.not_lt_zero _)
  have hnonzero : page.roundUp requestSize ≠ 0 :=
    PageSize.roundUp_ne_zero hrequest (hfits.trans (by omega))
  rcases page.roundUp_spec requestSize with hzero | ⟨-, hle, hlt⟩
  · exact absurd hzero hnonzero
  · have hgrowth : (page.roundUp requestSize - file.mmapSize).toNat =
        (page.roundUp requestSize).toNat - file.mmapSize.toNat :=
      UInt64.toNat_sub_of_le _ _ (UInt64.le_iff_toNat_le.2 (by omega))
    have hroom : (int64Max - file.mmapSize).toNat = 2 ^ 63 - 1 - file.mmapSize.toNat := by
      rw [UInt64.toNat_sub_of_le _ _ (UInt64.le_iff_toNat_le.2 (by omega)), hmax]
    have haccepts : rejectsRange file.mmapSize (page.roundUp requestSize - file.mmapSize) =
        false := by
      rw [rejectsRange, decide_eq_false_iff_not]
      simp only [UInt64.lt_iff_toNat_lt, ← UInt64.toNat_inj, UInt64.toNat_zero, hgrowth, hroom,
        hmax]
      omega
    rw [growthFails, haccepts, hwilling.1, hwilling.2]
    rfl

/-- A growth in front of the largest position: the mapping is as large as was asked, and no byte
has changed. -/
theorem increaseMmap_of_willing (hwilling : answers.Willing)
    (hfits : requestSize.toNat + page.bytes.toNat ≤ 2 ^ 63) :
    (file.increaseMmap page requestSize answers).1.ok = true ∧
      (file.increaseMmap page requestSize answers).2.mmapSize =
        file.mmapSizeFor page requestSize ∧
      (file.increaseMmap page requestSize answers).2.bytes.get = file.bytes.get := by
  rcases increaseMmap_cases page file requestSize answers with
    ⟨hle, heq⟩ | ⟨hless, hfails, -⟩ | ⟨hless, -, heq⟩
  · rw [heq, mmapSizeFor, if_neg (UInt64.not_lt.2 hle)]
    exact ⟨rfl, rfl, rfl⟩
  · rw [growthFails_of_willing hwilling hless hfits] at hfails
    cases hfails
  · rw [heq, mmapSizeFor, if_pos hless]
    exact ⟨rfl, rfl, SparseArray.get_truncate_of_le (Nat.le_max_left _ _)⟩

/-- A file can be mapped again unless it is empty. -/
theorem reopen_ok_iff (hwilling : answers.Willing)
    (hbounded : file.size.toNat + page.bytes.toNat ≤ 2 ^ 63) :
    (file.reopen page answers).1.ok = true ↔ file.mapped = true ∨ file.size ≠ 0 := by
  rcases reopen_cases page file answers with
    ⟨hmapped, heq⟩ | ⟨hmapped, hfails, status, hstatus, heq⟩ | ⟨-, hnonzero, -, heq⟩
  · rw [heq]
    exact iff_of_true rfl (Or.inl hmapped)
  · rw [heq]
    refine iff_of_false (by simp [hstatus]) ?_
    rintro (hsome | hsize)
    · rw [hsome] at hmapped
      cases hmapped
    · rcases hfails with hzero | hmaps
      · exact PageSize.roundUp_ne_zero hsize (hbounded.trans (by omega)) hzero
      · rw [hwilling.2] at hmaps
        cases hmaps
  · rw [heq]
    refine iff_of_true rfl (Or.inr ?_)
    intro hzero
    rw [hzero] at hnonzero
    exact hnonzero PageSize.roundUp_zero

section Read

variable (hposition : position < int64Max) (hlength : length ≤ int64Max)
include hposition hlength

/-- What a read returns is what is shown, once there is a mapping. -/
theorem readBytes_shown (hcan : length = 0 ∨ (file.reopen page answers).1.ok = true) :
    (file.readBytes page position length answers).result =
      .ok (file.shown.read position.toNat length.toNat) := by
  rw [shown, SparseArray.read_truncate]
  by_cases hzero : length = 0
  · rw [readBytes, if_neg (UInt64.not_lt.2 hlength), if_neg (UInt64.not_le.2 hposition),
      if_pos hzero, hzero, UInt64.toNat_zero, Nat.zero_min]
    rfl
  · rw [readBytes_of_reopen hlength hposition hzero (hcan.resolve_left hzero)]
    rfl

theorem readBytes_not_mapped (hnonzero : length ≠ 0)
    (hfails : (file.reopen page answers).1.ok = false) :
    (file.readBytes page position length answers).result =
      .error (file.reopen page answers).1 := by
  rw [readBytes, if_neg (UInt64.not_lt.2 hlength), if_neg (UInt64.not_le.2 hposition),
    if_neg hnonzero]
  simp only [hfails, ↓reduceIte]

end Read

theorem shown_readBytes (page : PageSize) (file : MMAPFile) (position length : UInt64)
    (answers : KernelAnswers) :
    (file.readBytes page position length answers).file.shown = file.shown := by
  rcases readBytes_file page file position length answers with hfile | hfile
  · rw [hfile]
  · obtain ⟨hsize, hbytes⟩ := size_reopen page file answers
    rw [hfile, shown, hsize, hbytes, shown]

/-- A `truncate` shows the bytes of the file up to the new size, also such as were cut off
before. -/
theorem truncate_shown (hwilling : answers.Willing) {targetSize : UInt64}
    (hfits : targetSize.toNat + page.bytes.toNat ≤ 2 ^ 63) :
    (file.truncate page targetSize answers).result = .ok () ∧
      (file.truncate page targetSize answers).copied = none ∧
      (file.truncate page targetSize answers).file.shown =
        file.bytes.truncate targetSize.toNat := by
  obtain ⟨hok, -, hget⟩ := @increaseMmap_of_willing page file answers targetSize hwilling hfits
  rw [truncate]
  split_ifs with hless
  · simp only [hok, Bool.true_eq_false, ↓reduceIte, true_and]
    exact SparseArray.truncate_congr hget _
  · exact ⟨rfl, rfl, rfl⟩

section Store

variable {newSize : UInt64} (bytes : Bytes)

/-- What is shown when bytes were stored in the mapping and the size has grown. -/
theorem shown_store {grown : MMAPFile} (hget : grown.bytes.get = file.bytes.get)
    (hsize : grown.size = file.size) (hinside : position.toNat + bytes.length ≤
      grown.mmapSize.toNat) :
    ({ grown.store position bytes with
      size := max (grown.store position bytes).size newSize } : MMAPFile).shown =
      (file.bytes.write position.toNat bytes).truncate
        (max file.size.toNat newSize.toNat) := by
  have hwhole : bytes.take (grown.mmapSize.toNat - position.toNat) = bytes :=
    List.take_of_length_le (by omega)
  rw [shown]
  simp only [store, hsize, hwhole, UInt64.toNat_max]
  exact SparseArray.truncate_congr (SparseArray.get_write_congr hget _ _) _

end Store

section Write

variable {buffer : Buffer}

theorem ofNat_length_ne_zero (hnonempty : buffer.bytes ≠ []) :
    UInt64.ofNat buffer.bytes.length ≠ 0 := by
  intro hzero
  rw [← List.length_pos_iff, ← toNat_length, hzero] at hnonempty
  exact absurd hnonempty (Nat.lt_irrefl _)

theorem grownFor_of_willing {newSize : UInt64} (hwilling : answers.Willing)
    (hfits : newSize.toNat + page.bytes.toNat ≤ 2 ^ 63) :
    (grownFor page file newSize answers).1.ok = true ∧
      (grownFor page file newSize answers).2.size = file.size ∧
      (grownFor page file newSize answers).2.bytes.get = file.bytes.get := by
  obtain ⟨hok, -, hget⟩ := @increaseMmap_of_willing page file answers newSize hwilling hfits
  rw [grownFor]
  split_ifs
  · exact ⟨hok, size_increaseMmap page file newSize answers, hget⟩
  · exact ⟨rfl, rfl, rfl⟩

/-- A write through a mapping, or to a file that grows, shows its bytes. -/
theorem writeBytes_shown (hkept : file.Kept page) (hwilling : answers.Willing)
    (hnonempty : buffer.bytes ≠ [])
    (hfits : position.toNat + buffer.bytes.length + page.bytes.toNat ≤ 2 ^ 63)
    (hcan : file.mapped = true ∨ file.size.toNat < position.toNat + buffer.bytes.length) :
    (file.writeBytes page buffer position answers).result = .ok () ∧
      (file.writeBytes page buffer position answers).copied =
        some ⟨position, buffer.bytes.length⟩ ∧
      position.toNat + buffer.bytes.length ≤
        (file.writeBytes page buffer position answers).file.mmapSize.toNat ∧
      (file.writeBytes page buffer position answers).file.shown =
        (file.bytes.write position.toNat buffer.bytes).truncate
          (max file.size.toNat (position.toNat + buffer.bytes.length)) := by
  have hend : (position + UInt64.ofNat buffer.bytes.length).toNat =
      position.toNat + buffer.bytes.length := toNat_add_ofNat (by omega)
  generalize hnewSize : position + UInt64.ofNat buffer.bytes.length = newSize at hend
  rw [← hend] at hfits hcan ⊢
  obtain ⟨hok, hsize, hget⟩ := @grownFor_of_willing page file answers newSize hwilling hfits
  have hmapped := (mapped_grownFor hkept.released hok).2
    (hcan.imp_right UInt64.lt_iff_toNat_lt.2)
  have hreaches := UInt64.le_iff_toNat_le.1
    (grownFor_reaches hkept.covers hkept.released hok hmapped)
  rw [writeBytes_mapped (ofNat_length_ne_zero hnonempty) hnewSize hok hmapped]
  refine ⟨rfl, rfl, hreaches, ?_⟩
  exact shown_store buffer.bytes hget hsize (hend ▸ hreaches)

/-- A write inside a file that is not mapped fails. -/
theorem writeBytes_not_mapped (page : PageSize) (answers : KernelAnswers)
    (hnonempty : buffer.bytes ≠ [])
    (hend : position.toNat + buffer.bytes.length < 2 ^ 64)
    (hmapped : file.mapped = false)
    (hinside : position.toNat + buffer.bytes.length ≤ file.size.toNat) :
    ∃ status, (file.writeBytes page buffer position answers).result = .error status := by
  have hnot : ¬ file.size < position + UInt64.ofNat buffer.bytes.length := by
    rw [UInt64.lt_iff_toNat_lt, toNat_add_ofNat hend]
    omega
  have hsame : grownFor page file (position + UInt64.ofNat buffer.bytes.length) answers =
      (okStatus, file) := if_neg hnot
  rw [writeBytes_unmapped (ofNat_length_ne_zero hnonempty) rfl (by rw [hsame]; rfl)
    (by rw [hsame]; exact hmapped)]
  exact ⟨_, rfl⟩

end Write

section Stream

variable {stream : Bytes} {lengthArg : Option UInt64}

/-- A write of a stream grows the file by its length, and copies what it copies. -/
theorem write_shown (hkept : file.Kept page) (hwilling : answers.Willing)
    (hnonzero : streamLength stream lengthArg ≠ 0)
    (hfits : position.toNat + (streamLength stream lengthArg).toNat + page.bytes.toNat ≤ 2 ^ 63) :
    (file.write page stream position lengthArg answers).result =
        .ok (streamLength stream lengthArg) ∧
      (file.write page stream position lengthArg answers).copied =
        some ⟨position, (copiedCharacters stream lengthArg).length⟩ ∧
      (file.write page stream position lengthArg answers).file.mmapSize =
        file.mmapSizeFor page (position + streamLength stream lengthArg) ∧
      (position.toNat + (copiedCharacters stream lengthArg).length ≤
          (file.mmapSizeFor page (position + streamLength stream lengthArg)).toNat →
        (file.write page stream position lengthArg answers).file.shown =
          (file.bytes.write position.toNat (copiedCharacters stream lengthArg)).truncate
            (max file.size.toNat (position.toNat + (streamLength stream lengthArg).toNat))) := by
  have hend : (position + streamLength stream lengthArg).toNat =
      position.toNat + (streamLength stream lengthArg).toNat := toNat_add_of_lt (by omega)
  generalize hnewSize : position + streamLength stream lengthArg = newSize at hend ⊢
  rw [← hend] at hfits ⊢
  have hpositive := toNat_pos_of_ne_zero hnonzero
  have hnew : newSize ≠ 0 := by
    rintro rfl
    rw [UInt64.toNat_zero] at hend
    omega
  obtain ⟨hok, hmmapSize, hget⟩ :=
    @increaseMmap_of_willing page file answers newSize hwilling hfits
  have hmapped := (mapped_of_increaseMmap hkept.released hnew hok).1
  rw [write_mapped hnonzero hnewSize hok hmapped]
  refine ⟨rfl, rfl, hmmapSize, fun hinside => ?_⟩
  exact shown_store _ hget (size_increaseMmap page file newSize answers) (hmmapSize ▸ hinside)

/-- The mapping holds the file behind a write of a stream, if there was one or the new one is
large enough. -/
theorem covers_write_iff (hkept : file.Kept page) (hwilling : answers.Willing)
    (hnonzero : streamLength stream lengthArg ≠ 0)
    (hfits : position.toNat + (streamLength stream lengthArg).toNat + page.bytes.toNat ≤ 2 ^ 63) :
    (file.write page stream position lengthArg answers).file.Covers page ↔
      file.mapped = true ∨
        file.size ≤ page.roundUp (position + streamLength stream lengthArg) := by
  rw [MappedCall.covers_write_iff hkept.covers hkept.released]
  cases hmapped : file.mapped with
  | true => exact iff_of_true (Or.inl rfl) (Or.inl rfl)
  | false =>
      have hpositive := toNat_pos_of_ne_zero hnonzero
      have hend : (position + streamLength stream lengthArg).toNat =
          position.toNat + (streamLength stream lengthArg).toNat := toNat_add_of_lt (by omega)
      have hnew : position + streamLength stream lengthArg ≠ 0 := by
        intro hzero
        rw [hzero, UInt64.toNat_zero] at hend
        omega
      have hgrows : file.growthFails (page.roundUp (position + streamLength stream lengthArg))
          answers = false := by
        refine growthFails_of_willing hwilling ?_ (by rwa [hend])
        rw [hkept.released hmapped]
        exact UInt64.pos_iff_ne_zero.2 hnew
      simp only [hnonzero, hnew, hgrows, Bool.false_eq_true, false_or]

end Stream

section Backed

/-- A size up to the one that there was, or up to that of the mapping. -/
theorem Backed.resize (hbacked : file.Backed page) {size : UInt64}
    (hsize : size.toNat ≤ max file.size.toNat file.mmapSize.toNat) :
    ({ file with size := size } : MMAPFile).Backed page := by
  obtain ⟨hmultiple, hmapping, whole, hdvd, hold, hwhole⟩ := hbacked
  rcases Nat.le_total file.size.toNat file.mmapSize.toNat with hle | hle
  · rw [Nat.max_eq_right hle] at hsize
    exact ⟨hmultiple, hmapping, _, hmultiple, hsize, hmapping⟩
  · rw [Nat.max_eq_left hle] at hsize
    exact ⟨hmultiple, hmapping, whole, hdvd, hsize.trans hold, hwhole⟩

/-- Bytes stored and a size that the mapping reaches -/
theorem Backed.store (hbacked : file.Backed page) {newSize : UInt64}
    (hreaches : newSize ≤ file.mmapSize) (bytes : Bytes) :
    ({ file.store position bytes with
      size := max (file.store position bytes).size newSize } : MMAPFile).Backed page := by
  have hlength : file.bytes.length ≤ (file.store position bytes).bytes.length := by
    simp only [MMAPFile.store, SparseArray.write]
    split_ifs
    · exact Nat.le_refl _
    · exact Nat.le_max_left _ _
  obtain ⟨hmultiple, hmapping, whole, hdvd, hsize, hwhole⟩ := hbacked
  have hstored : (file.store position bytes).Backed page :=
    ⟨hmultiple, hmapping.trans hlength, whole, hdvd, hsize, hwhole.trans hlength⟩
  refine hstored.resize ?_
  rw [UInt64.toNat_max]
  exact max_le_max (Nat.le_refl _) (UInt64.le_iff_toNat_le.1 hreaches)

/-- A growth extends the file before the mapping. -/
theorem Backed.increaseMmap (hbacked : file.Backed page) :
    (file.increaseMmap page requestSize answers).2.Backed page := by
  obtain ⟨hmultiple, hmapping, whole, hdvd, hsize, hwhole⟩ := hbacked
  have hlonger : file.bytes.length ≤
      max file.bytes.length (page.roundUp requestSize).toNat := Nat.le_max_left _ _
  rw [MMAPFile.increaseMmap]
  dsimp only
  split_ifs
  · exact ⟨hmultiple, hmapping, whole, hdvd, hsize, hwhole⟩
  · exact ⟨page.dvd_roundUp requestSize, Nat.le_max_right _ _, whole, hdvd, hsize,
      hwhole.trans hlonger⟩
  · exact ⟨hmultiple, hmapping.trans hlonger, whole, hdvd, hsize, hwhole.trans hlonger⟩
  · exact ⟨hmultiple, hmapping.trans hlonger, whole, hdvd, hsize, hwhole.trans hlonger⟩
  · exact ⟨hmultiple, hmapping, whole, hdvd, hsize, hwhole⟩

/-- The pages that are mapped again are those of the size. -/
theorem Backed.reopen (hbacked : file.Backed page) :
    (file.reopen page answers).2.Backed page := by
  rcases reopen_cases page file answers with
    ⟨-, heq⟩ | ⟨-, -, status, -, heq⟩ | ⟨-, -, -, heq⟩
  · rwa [heq]
  · rwa [heq]
  · rw [heq]
    obtain ⟨-, -, whole, hdvd, hsize, hwhole⟩ := hbacked
    exact ⟨page.dvd_roundUp file.size, (PageSize.roundUp_le_of_dvd hdvd hsize).trans hwhole,
      whole, hdvd, hsize, hwhole⟩

theorem Backed.truncate (hbacked : file.Backed page) (hreleased : file.Released)
    (targetSize : UInt64) : (file.truncate page targetSize answers).file.Backed page := by
  have hgrown := @Backed.increaseMmap page file answers targetSize hbacked
  simp only [MMAPFile.truncate]
  split_ifs with hless hfails
  · exact hgrown
  · have hnonzero : targetSize ≠ 0 := by
      rintro rfl
      exact UInt64.not_lt_zero hless
    have hreaches := (mapped_of_increaseMmap hreleased hnonzero (Bool.not_eq_false _ ▸ hfails)).2
    exact hgrown.resize (le_max_of_le_right (UInt64.le_iff_toNat_le.1 hreaches))
  · exact hbacked.resize
      (le_max_of_le_left (UInt64.le_iff_toNat_le.1 (UInt64.not_lt.1 hless)))

theorem Backed.writeBytes (hbacked : file.Backed page) (hcovers : file.Covers page)
    (hreleased : file.Released) (buffer : Buffer) (position : UInt64) :
    (file.writeBytes page buffer position answers).file.Backed page := by
  by_cases hzero : UInt64.ofNat buffer.bytes.length = 0
  · rwa [writeBytes_zero hzero]
  generalize hnewSize : position + UInt64.ofNat buffer.bytes.length = newSize
  have hgrown : (grownFor page file newSize answers).2.Backed page := by
    rw [grownFor]
    split_ifs
    · exact hbacked.increaseMmap
    · exact hbacked
  cases hok : (grownFor page file newSize answers).1.ok with
  | false => rwa [writeBytes_refused hzero hnewSize hok]
  | true =>
      cases hmapped : (grownFor page file newSize answers).2.mapped with
      | false => rwa [writeBytes_unmapped hzero hnewSize hok hmapped]
      | true =>
          rw [writeBytes_mapped hzero hnewSize hok hmapped]
          exact hgrown.store (grownFor_reaches hcovers hreleased hok hmapped) _

theorem Backed.write (hbacked : file.Backed page) (hreleased : file.Released) (stream : Bytes)
    (position : UInt64) (lengthArg : Option UInt64) :
    (file.write page stream position lengthArg answers).file.Backed page := by
  by_cases hzero : streamLength stream lengthArg = 0
  · rwa [write_zero hzero]
  generalize hnewSize : position + streamLength stream lengthArg = newSize
  have hgrown := @Backed.increaseMmap page file answers newSize hbacked
  cases hok : (file.increaseMmap page newSize answers).1.ok with
  | false => rwa [write_refused hzero hnewSize hok]
  | true =>
      cases hmapped : (file.increaseMmap page newSize answers).2.mapped with
      | false => rwa [write_unmapped hzero hnewSize hok hmapped]
      | true =>
          have hreaches : newSize ≤ (file.increaseMmap page newSize answers).2.mmapSize := by
            by_cases hnew : newSize = 0
            · rw [hnew]
              exact UInt64.zero_le
            · exact (mapped_of_increaseMmap hreleased hnew hok).2
          rw [write_mapped hzero hnewSize hok hmapped]
          exact hgrown.store hreaches _

/-- No call lets the mapping leave the file. -/
theorem Backed.perform (hbacked : file.Backed page) (hcovers : file.Covers page)
    (hreleased : file.Released) (call : MappedCall) :
    (call.perform page file).file.Backed page := by
  cases call with
  | readBytes position length answers =>
      rcases readBytes_file page file position length answers with hfile | hfile
      · rwa [MappedCall.perform, MappedResult.forget, hfile]
      · rw [MappedCall.perform, MappedResult.forget, hfile]
        exact hbacked.reopen
  | rawPtr answers =>
      rw [MappedCall.perform, MMAPFile.rawPtr]
      split_ifs <;> exact hbacked.reopen
  | truncate targetSize answers => exact hbacked.truncate hreleased targetSize
  | writeBytes buffer position answers =>
      exact hbacked.writeBytes hcovers hreleased buffer position
  | write stream position lengthArg answers =>
      exact hbacked.write hreleased stream position lengthArg
  | notifyUnused =>
      rw [MappedCall.perform, MMAPFile.notifyUnused, MMAPFile.release]
      split_ifs
      · exact ⟨Nat.dvd_zero _, Nat.zero_le _, hbacked.pages⟩
      · exact hbacked

end Backed

end MMAPFile

end GEDS
