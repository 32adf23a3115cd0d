import Mathlib.Data.Int.ModEq

/-!
# Sequence numbers modulo `M`

A wire id is a sequence number modulo `M`. Sequence numbers are integers, `wrap M n` is the id of
`n`, and `dist M` is the forward distance between two ids. As long as two numbers are less than `M`
apart, their ids tell them apart (`eq_of_wrap_eq`) and the distance of the ids is the difference of
the numbers modulo `M` (`dist_wrap`, `wrap_of_lt`, `wrap_of_neg`).
-/

namespace SeqNum

def wrap (M : ℕ) (n : ℤ) : ℕ := (n % M).toNat

/-- The forward distance from one id to another. -/
def dist (M src dst : ℕ) : ℕ := if src ≤ dst then dst - src else M - src + dst

variable {M : ℕ} (hM : 0 < M)

include hM

theorem coe_wrap (n : ℤ) : (wrap M n : ℤ) = n % M :=
  Int.toNat_of_nonneg (Int.emod_nonneg n (by omega))

theorem wrap_lt (n : ℤ) : wrap M n < M := by
  have h := Int.emod_lt_of_pos n (show (0 : ℤ) < M by omega)
  have hc := coe_wrap hM n
  omega

omit hM in
theorem wrap_of_lt {n : ℤ} (h0 : 0 ≤ n) (h : n < M) : wrap M n = n.toNat := by
  rw [wrap, Int.emod_eq_of_lt h0 h]

omit hM in
theorem wrap_of_neg {n : ℤ} (h0 : n < 0) (h : -M ≤ n) : wrap M n = (n + M).toNat := by
  rw [wrap, ← Int.add_emod_right, Int.emod_eq_of_lt (by omega) (by omega)]

theorem wrap_add (n : ℤ) (k : ℕ) : (wrap M n + k) % M = wrap M (n + k) := by
  have hc := coe_wrap hM n
  have h : (((wrap M n + k) % M : ℕ) : ℤ) = (n + k) % M := by
    rw [Int.natCast_mod, Int.natCast_add, hc, Int.emod_add_emod]
  have hn := coe_wrap hM (n + k)
  omega

omit hM in
theorem wrap_sub_one (K : ℕ) (n : ℤ) : (wrap (K + 1) n + K) % (K + 1) = wrap (K + 1) (n - 1) := by
  rw [wrap_add K.succ_pos, wrap, wrap, ← Int.add_emod_right (n - 1) (K + 1 : ℕ)]
  congr 2
  omega

theorem eq_of_wrap_eq {a b : ℤ} (h : wrap M a = wrap M b) (hab : a - b < M) (hba : b - a < M) :
    a = b := by
  have hm : a % M = b % M := by rw [← coe_wrap hM, ← coe_wrap hM, h]
  have hd : (M : ℤ) ∣ a - b := Int.ModEq.dvd (Int.ModEq.symm hm)
  have hz := Int.eq_zero_of_abs_lt_dvd hd (abs_lt.mpr ⟨by omega, hab⟩)
  omega

theorem dist_wrap (a b : ℤ) : dist M (wrap M a) (wrap M b) = wrap M (b - a) := by
  have ha := coe_wrap hM a
  have hb := coe_wrap hM b
  have hal := wrap_lt hM a
  have hbl := wrap_lt hM b
  have hsub : wrap M (b - a) = (((wrap M b : ℤ) - wrap M a) % M).toNat := by
    rw [ha, hb, wrap, ← Int.sub_emod]
  rw [hsub]
  unfold dist
  split
  · rw [Int.emod_eq_of_lt (by omega) (by omega)]
    omega
  · rw [← Int.add_emod_right, Int.emod_eq_of_lt (by omega) (by omega)]
    omega

end SeqNum
