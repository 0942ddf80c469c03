/-
Sizes rounded up to whole pages in words of 64 bits.  A page divides the number of words, so the
multiple that does not fit is zero and never a small one.
-/
import Mathlib.Tactic

namespace GEDS

/-- What `getpagesize` returns, as a word. -/
structure PageSize where
  bytes : UInt64
  positive : 0 < bytes.toNat
  divides : bytes.toNat ∣ 2 ^ 64
  isInt : bytes.toNat < 2 ^ 31

namespace PageSize

variable (page : PageSize)

/-- `size / pageSize + (size % pageSize > 0 ? 1 : 0)` -/
def pageCount (size : UInt64) : UInt64 :=
  size / page.bytes + if 0 < size % page.bytes then 1 else 0

def roundUp (size : UInt64) : UInt64 := page.pageCount size * page.bytes

variable {page} {size : UInt64}

/-- The pages of a size: the last one is not empty. -/
theorem pageCount_spec : (page.pageCount size).toNat * page.bytes.toNat <
      size.toNat + page.bytes.toNat ∧
    size.toNat ≤ (page.pageCount size).toNat * page.bytes.toNat := by
  have hpositive := page.positive
  have hword := size.toNat_lt
  have hdiv := Nat.div_add_mod size.toNat page.bytes.toNat
  have hmod := Nat.mod_lt size.toNat hpositive
  have hone : (1 : UInt64).toNat = 1 := rfl
  rw [Nat.mul_comm] at hdiv
  rw [pageCount]
  split_ifs with hrest
  · rw [UInt64.lt_iff_toNat_lt, UInt64.toNat_mod, UInt64.toNat_zero] at hrest
    -- a page of one byte leaves no rest
    have htwo : 2 ≤ page.bytes.toNat := by omega
    have hhalf : size.toNat / page.bytes.toNat * 2 ≤ size.toNat :=
      (Nat.mul_le_mul_left _ htwo).trans (Nat.div_mul_le_self _ _)
    have hsum : (size / page.bytes + 1).toNat = size.toNat / page.bytes.toNat + 1 := by
      rw [UInt64.toNat_add, UInt64.toNat_div, hone]
      omega
    rw [hsum, Nat.succ_mul]
    omega
  · rw [UInt64.lt_iff_toNat_lt, UInt64.toNat_mod, UInt64.toNat_zero] at hrest
    rw [UInt64.add_zero, UInt64.toNat_div]
    omega

/-- A size is rounded up to whole pages, or to zero. -/
theorem roundUp_spec (page : PageSize) (size : UInt64) : page.roundUp size = 0 ∨
    page.bytes.toNat ∣ (page.roundUp size).toNat ∧ size.toNat ≤ (page.roundUp size).toNat ∧
      (page.roundUp size).toNat < size.toNat + page.bytes.toNat := by
  obtain ⟨hbelow, habove⟩ := @pageCount_spec page size
  have hword := size.toNat_lt
  have hround : (page.roundUp size).toNat =
      (page.pageCount size).toNat * page.bytes.toNat % 2 ^ 64 := UInt64.toNat_mul _ _
  rcases Nat.lt_or_ge ((page.pageCount size).toNat * page.bytes.toNat) (2 ^ 64) with hfits | hwraps
  · rw [Nat.mod_eq_of_lt hfits] at hround
    right
    rw [hround]
    exact ⟨Nat.dvd_mul_left _ _, habove, hbelow⟩
  · left
    -- the multiple is less than a page above the number of words, which is a multiple as well
    have hexcess : page.bytes.toNat ∣
        (page.pageCount size).toNat * page.bytes.toNat - 2 ^ 64 :=
      Nat.dvd_sub (Nat.dvd_mul_left _ _) page.divides
    have hnone := Nat.eq_zero_of_dvd_of_lt hexcess (by omega)
    refine UInt64.toNat_inj.1 (hround.trans ?_)
    rw [UInt64.toNat_zero]
    omega

theorem dvd_roundUp (page : PageSize) (size : UInt64) :
    page.bytes.toNat ∣ (page.roundUp size).toNat := by
  rcases page.roundUp_spec size with hzero | ⟨hdvd, -, -⟩
  · rw [hzero]
    exact Nat.dvd_zero _
  · exact hdvd

/-- No whole pages that hold a size are fewer than those that it is rounded to. -/
theorem roundUp_le_of_dvd {whole : Nat} (hdvd : page.bytes.toNat ∣ whole)
    (hsize : size.toNat ≤ whole) : (page.roundUp size).toNat ≤ whole := by
  rcases page.roundUp_spec size with hzero | ⟨hpages, -, hlt⟩
  · rw [hzero]
    exact Nat.zero_le _
  · obtain ⟨count, hcount⟩ := hpages
    obtain ⟨count', rfl⟩ := hdvd
    rw [hcount] at hlt ⊢
    have hnext : page.bytes.toNat * count < page.bytes.toNat * (count' + 1) := by
      rw [Nat.mul_succ]
      omega
    exact Nat.mul_le_mul_left _ (Nat.le_of_lt_succ (Nat.lt_of_mul_lt_mul_left hnext))

/-- What is not zero is not rounded to zero, as long as a page fits behind it. -/
theorem roundUp_ne_zero (hsize : size ≠ 0) (hfits : size.toNat + page.bytes.toNat ≤ 2 ^ 64) :
    page.roundUp size ≠ 0 := by
  obtain ⟨hbelow, habove⟩ := @pageCount_spec page size
  have hround : (page.roundUp size).toNat =
      (page.pageCount size).toNat * page.bytes.toNat % 2 ^ 64 := UInt64.toNat_mul _ _
  have hpositive : 0 < size.toNat := by
    rw [Nat.pos_iff_ne_zero]
    exact fun hzero => hsize (UInt64.toNat_inj.1 hzero)
  intro hzero
  rw [hzero, UInt64.toNat_zero, Nat.mod_eq_of_lt (by omega)] at hround
  omega

theorem roundUp_zero : page.roundUp 0 = 0 := by
  rcases page.roundUp_spec 0 with hzero | ⟨hdvd, -, hlt⟩
  · exact hzero
  · rw [UInt64.toNat_zero, Nat.zero_add] at hlt
    exact UInt64.toNat_inj.1 (Nat.eq_zero_of_dvd_of_lt hdvd hlt)

end PageSize

end GEDS
