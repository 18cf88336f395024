/-
Interpolation in the table of the reciprocal unit.

A normalized number is looked up at a position of 17 bits: nine say which entry of a column it is at or after, eight how
far it is to the next. The value there, times 256, is the chord between the two entries. One position further it has
changed by what the two entries differ, also where one pair of entries gives way to the next (`chord_succ`). So it falls
along the column of reciprocals and rises along that of logarithms, and never leaves the range of the column's ends
(`interpolate_recip_anti`, `interpolate_log_mono`). The digits of the logarithms are found by squaring, and a larger
number has larger squares (`logDigits_mono`); nothing else about them is needed.

The chord of the reciprocals is above the curve, by no more than the 2^20th part, and the entries are below it, by less
than one each: what is interpolated is the reciprocal with an error of less than two (`chord_recips_accuracy`). What is
lost below the 17 bits weighs more (`interpolate_accuracy`).

Results: `interpolate_accuracy`, `interpolate_recip_anti`, `interpolate_log_mono`, `interpolate?_eq` (no index, product
or sum of an interpolation leaves its range).
-/
import Mathlib.Tactic.Ring
import Accel3D.Reciprocal

namespace Accel3D.Reciprocal

/-! ## Chords -/

/-- 256 times the value of a column at a position, between the entry at or before it and the next -/
def chord (column : Nat → Nat) (t : Nat) : Nat :=
  column (t / 256) * (256 - t % 256) + column (t / 256 + 1) * (t % 256)

theorem chord_entry (column : Nat → Nat) (i : Nat) : chord column (256 * i) = 256 * column i := by
  have hi : 256 * i / 256 = i := Nat.mul_div_cancel_left i (by decide)
  have hf : 256 * i % 256 = 0 := Nat.mul_mod_right 256 i
  rw [chord, hi, hf, Nat.mul_zero, Nat.add_zero, Nat.mul_comm]

/-- one position further the chord has changed by the difference of its two entries -/
theorem chord_succ (column : Nat → Nat) (t : Nat) :
    chord column (t + 1) + column (t / 256) = chord column t + column (t / 256 + 1) := by
  have hlt : t % 256 < 256 := Nat.mod_lt t (by decide)
  rcases Nat.lt_or_ge (t % 256 + 1) 256 with hinside | hlast
  · have hi : (t + 1) / 256 = t / 256 := by omega
    have hf : (t + 1) % 256 = t % 256 + 1 := by omega
    obtain ⟨rest, hrest⟩ : ∃ rest, 256 = t % 256 + 1 + rest := ⟨256 - (t % 256 + 1), by omega⟩
    have hafter : 256 - (t % 256 + 1) = rest := by omega
    have hbefore : 256 - t % 256 = rest + 1 := by omega
    simp only [chord, hi, hf, hafter, hbefore]
    ring
  · have hf : t % 256 = 255 := by omega
    have hnext : t + 1 = 256 * (t / 256 + 1) := by omega
    rw [hnext, chord_entry, chord, hf]
    ring

theorem chord_mono {column : Nat → Nat} {k : Nat} (h : ∀ i < k, column i ≤ column (i + 1)) {s t : Nat} (hst : s ≤ t)
    (ht : t ≤ 256 * k) : chord column s ≤ chord column t := by
  induction t, hst using Nat.le_induction with
  | base => exact Nat.le_refl _
  | succ t hst ih =>
    have hstep := chord_succ column t
    have hentries := h (t / 256) (by omega)
    have hbefore := ih (by omega)
    omega

theorem chord_anti {column : Nat → Nat} {k : Nat} (h : ∀ i < k, column (i + 1) ≤ column i) {s t : Nat} (hst : s ≤ t)
    (ht : t ≤ 256 * k) : chord column t ≤ chord column s := by
  induction t, hst using Nat.le_induction with
  | base => exact Nat.le_refl _
  | succ t hst ih =>
    have hstep := chord_succ column t
    have hentries := h (t / 256) (by omega)
    have hbefore := ih (by omega)
    omega

/-! ## The columns of the table -/

def recips (i : Nat) : Nat := (entry i).recip

def logs (i : Nat) : Nat := (entry i).log

theorem recips_anti (i : Nat) : recips (i + 1) ≤ recips i := Nat.div_le_div_left (by omega) (by omega)

theorem logDigits_lt (n x : Nat) : logDigits n x < 2 ^ n := by
  induction n generalizing x with
  | zero => exact Nat.one_pos
  | succ n ih =>
    have hpow : 2 ^ (n + 1) = 2 ^ n + 2 ^ n := by rw [Nat.pow_succ, Nat.mul_two]
    rw [logDigits, hpow]
    split
    · exact Nat.lt_add_right _ (ih _)
    · exact Nat.add_lt_add_left (ih _) _

/-- the digits of a larger number are not smaller: nor is its square -/
theorem logDigits_mono (n : Nat) {x y : Nat} (h : x ≤ y) : logDigits n x ≤ logDigits n y := by
  induction n generalizing x y with
  | zero => exact Nat.le_refl _
  | succ n ih =>
    have hsquare : x * x / 2 ^ guardBits ≤ y * y / 2 ^ guardBits := Nat.div_le_div_right (Nat.mul_le_mul h h)
    rw [logDigits, logDigits]
    split
    · split
      · exact ih hsquare
      · exact Nat.le_trans (Nat.le_of_lt (logDigits_lt n _)) (Nat.le_add_right _ _)
    · rename_i hx
      rw [if_neg fun hy => hx (Nat.lt_of_le_of_lt hsquare hy)]
      exact Nat.add_le_add_left (ih (Nat.div_le_div_right hsquare)) _

theorem logs_eq {i : Nat} (h : i < 512) : logs i = logDigits 22 ((512 + i) * 2 ^ guardBits / 2 ^ 9) := by
  have hlog : (512 + i).log2 = 9 := (Nat.log2_eq_iff (by omega)).2 ⟨by omega, by omega⟩
  rw [logs, entry, logOf, hlog, Nat.sub_self, Nat.zero_mul, Nat.zero_add]

theorem logs_last : logs 512 = 2 ^ 22 := by decide +kernel

theorem logs_mono (i : Nat) (h : i < 512) : logs i ≤ logs (i + 1) := by
  rcases Nat.lt_or_ge (i + 1) 512 with hnext | hlast
  · rw [logs_eq h, logs_eq hnext]
    exact logDigits_mono 22 (Nat.div_le_div_right (Nat.mul_le_mul_right _ (by omega)))
  · obtain rfl : i = 511 := by omega
    rw [logs_eq h, logs_last]
    exact Nat.le_of_lt (logDigits_lt 22 _)

theorem recips_ends : recips 0 = 2 ^ 22 ∧ recips 512 = 2 ^ 21 := ⟨rfl, rfl⟩

theorem chord_recips_range {t : Nat} (ht : t ≤ 2 ^ 17) : 2 ^ 29 ≤ chord recips t ∧ chord recips t ≤ 2 ^ 30 := by
  have hanti := fun i (_ : i < 512) => recips_anti i
  constructor
  · have hlast := chord_anti hanti ht (Nat.le_refl _)
    rwa [show 2 ^ 17 = 256 * 512 from rfl, chord_entry, recips_ends.2] at hlast
  · have hfirst := chord_anti hanti (Nat.zero_le t) ht
    rwa [show 0 = 256 * 0 from rfl, chord_entry, recips_ends.1] at hfirst

/-- chords of logarithms are at most that of the last entry -/
theorem chord_logs_le {t : Nat} (ht : t ≤ 2 ^ 17) : chord logs t ≤ 2 ^ 30 := by
  have hlast := chord_mono logs_mono ht (Nat.le_refl _)
  rwa [show 2 ^ 17 = 256 * 512 from rfl, chord_entry, logs_last] at hlast

/-! ## Interpolated entries -/

/-- where a normalized number is looked up: the 17 bits below its leading one -/
def position (n : Nat) : Nat := n / 2 ^ 14 % 2 ^ 17

theorem position_le (n : Nat) : position n ≤ 2 ^ 17 := Nat.le_of_lt (Nat.mod_lt _ (by decide))

theorem interpolate_eq (n : Nat) :
    interpolate n = ⟨chord recips (position n) / 256, chord logs (position n) / 256⟩ := by
  have hi : n / 2 ^ 22 % 512 = position n / 256 := by
    unfold position
    omega
  have hf : n / 2 ^ 14 % 256 = position n % 256 := by
    unfold position
    omega
  simp only [interpolate, blend, getElem_table, hi, hf]
  rfl

theorem recip_interpolate (n : Nat) : (interpolate n).recip = chord recips (position n) / 256 := by rw [interpolate_eq]

theorem log_interpolate (n : Nat) : (interpolate n).log = chord logs (position n) / 256 := by rw [interpolate_eq]

/-- a normalized number after its leading one -/
theorem div_eq_position {n : Nat} (h : 2 ^ 31 ≤ n) (h' : n < 2 ^ 32) : n / 2 ^ 14 = 2 ^ 17 + position n := by
  unfold position
  omega

theorem position_mono {n m : Nat} (h : 2 ^ 31 ≤ n) (hnm : n ≤ m) (h' : m < 2 ^ 32) : position n ≤ position m := by
  have hn := div_eq_position h (Nat.lt_of_le_of_lt hnm h')
  have hm := div_eq_position (Nat.le_trans h hnm) h'
  have hdiv : n / 2 ^ 14 ≤ m / 2 ^ 14 := Nat.div_le_div_right hnm
  omega

/-- **A larger normalized number has no larger reciprocal.** -/
theorem interpolate_recip_anti {n m : Nat} (h : 2 ^ 31 ≤ n) (hnm : n ≤ m) (h' : m < 2 ^ 32) :
    (interpolate m).recip ≤ (interpolate n).recip := by
  rw [recip_interpolate, recip_interpolate]
  exact Nat.div_le_div_right (chord_anti (k := 512) (fun i _ => recips_anti i) (position_mono h hnm h') (position_le m))

/-- **A larger normalized number has no smaller logarithm.** -/
theorem interpolate_log_mono {n m : Nat} (h : 2 ^ 31 ≤ n) (hnm : n ≤ m) (h' : m < 2 ^ 32) :
    (interpolate n).log ≤ (interpolate m).log := by
  rw [log_interpolate, log_interpolate]
  exact Nat.div_le_div_right (chord_mono logs_mono (position_mono h hnm h') (position_le m))

theorem interpolate_recip_range (n : Nat) : 2 ^ 21 ≤ (interpolate n).recip ∧ (interpolate n).recip ≤ 2 ^ 22 := by
  have hrange := chord_recips_range (position_le n)
  rw [recip_interpolate]
  omega

theorem interpolate_log_le (n : Nat) : (interpolate n).log ≤ 2 ^ 22 := by
  have hle := chord_logs_le (position_le n)
  rw [log_interpolate]
  omega

/-! ## How far interpolated reciprocals are off -/

section

variable {k f g low high : Nat}

theorem weigh (k f g low high : Nat) :
    (low * g + high * f) * (k * (k + 1)) = low * k * ((k + 1) * g) + high * (k + 1) * (k * f) := by ring

/-- the weights of 1/k and 1/(k + 1), times the number that the value between them is the reciprocal of -/
theorem weights_mul (k : Nat) (h : f + g = 256) :
    ((k + 1) * g + k * f) * (256 * k + f) = 2 ^ 16 * (k * (k + 1)) + f * g := by
  have hsquare : 2 ^ 16 = (f + g) * (f + g) := by
    rw [h]
    rfl
  rw [hsquare, ← h]
  ring

/-- the chord is above the curve, by the product of its parts -/
theorem chord_mul_le (hk : 512 ≤ k) (h : f + g = 256) (hlow : low * k ≤ 2 ^ 31) (hhigh : high * (k + 1) ≤ 2 ^ 31) :
    (low * g + high * f) * (256 * k + f) ≤ 2 ^ 47 + 2 ^ 27 := by
  have hparts : f * g ≤ 2 ^ 14 := by
    have hsquare := four_mul_le_sq_add f g
    rw [h, Nat.mul_assoc] at hsquare
    omega
  have hentries : 512 * 512 ≤ k * (k + 1) := Nat.mul_le_mul hk (Nat.le_succ_of_le hk)
  have hscaled : (low * g + high * f) * (256 * k + f) * (k * (k + 1)) ≤ (2 ^ 47 + 2 ^ 27) * (k * (k + 1)) := by
    calc (low * g + high * f) * (256 * k + f) * (k * (k + 1))
        = (low * k * ((k + 1) * g) + high * (k + 1) * (k * f)) * (256 * k + f) := by
          rw [Nat.mul_right_comm, weigh]
      _ ≤ (2 ^ 31 * ((k + 1) * g) + 2 ^ 31 * (k * f)) * (256 * k + f) :=
          Nat.mul_le_mul_right _ (Nat.add_le_add (Nat.mul_le_mul_right _ hlow) (Nat.mul_le_mul_right _ hhigh))
      _ = 2 ^ 31 * (2 ^ 16 * (k * (k + 1)) + f * g) := by rw [← Nat.mul_add, Nat.mul_assoc, weights_mul k h]
      _ ≤ (2 ^ 47 + 2 ^ 27) * (k * (k + 1)) := by omega
  exact Nat.le_of_mul_le_mul_right hscaled (by omega)

theorem le_chord_mul (hk : 512 ≤ k) (h : f + g = 256) (hlow : 2 ^ 31 ≤ low * k) (hhigh : 2 ^ 31 ≤ high * (k + 1)) :
    2 ^ 47 ≤ (low * g + high * f) * (256 * k + f) := by
  have hentries : 512 * 512 ≤ k * (k + 1) := Nat.mul_le_mul hk (Nat.le_succ_of_le hk)
  have hscaled : 2 ^ 47 * (k * (k + 1)) ≤ (low * g + high * f) * (256 * k + f) * (k * (k + 1)) := by
    calc 2 ^ 47 * (k * (k + 1)) ≤ 2 ^ 31 * (2 ^ 16 * (k * (k + 1)) + f * g) := by omega
      _ = (2 ^ 31 * ((k + 1) * g) + 2 ^ 31 * (k * f)) * (256 * k + f) := by
          rw [← Nat.mul_add, Nat.mul_assoc, weights_mul k h]
      _ ≤ (low * k * ((k + 1) * g) + high * (k + 1) * (k * f)) * (256 * k + f) :=
          Nat.mul_le_mul_right _ (Nat.add_le_add (Nat.mul_le_mul_right _ hlow) (Nat.mul_le_mul_right _ hhigh))
      _ = (low * g + high * f) * (256 * k + f) * (k * (k + 1)) := by rw [← weigh, Nat.mul_right_comm]
  exact Nat.le_of_mul_le_mul_right hscaled (by omega)

end

/-- **Chords of reciprocals are accurate:** at most the 2^20th part above, and less than 256, one entry, below. -/
theorem chord_recips_accuracy (t : Nat) :
    chord recips t * (2 ^ 17 + t) ≤ 2 ^ 47 + 2 ^ 27 ∧ 2 ^ 47 ≤ (chord recips t + 256) * (2 ^ 17 + t) := by
  have hparts : t % 256 + (256 - t % 256) = 256 := by omega
  have hnumber : 2 ^ 17 + t = 256 * (512 + t / 256) + t % 256 := by omega
  have hk : 512 ≤ 512 + t / 256 := Nat.le_add_right _ _
  have hfloor : ∀ i, recips i * (512 + i) ≤ 2 ^ 31 := fun i => Nat.div_mul_le_self _ _
  have hceil : ∀ i, 2 ^ 31 ≤ (recips i + 1) * (512 + i) := fun i => by
    rw [Nat.mul_comm]
    exact Nat.le_of_lt (Nat.lt_mul_div_succ _ (by omega))
  have hraised : chord recips t + 256 =
      (recips (t / 256) + 1) * (256 - t % 256) + (recips (t / 256 + 1) + 1) * (t % 256) := by
    rw [Nat.succ_mul, Nat.succ_mul, chord]
    omega
  rw [hraised, hnumber]
  exact ⟨chord_mul_le hk hparts (hfloor _) (hfloor _), le_chord_mul hk hparts (hceil _) (hceil _)⟩

/-- **Interpolated reciprocals are accurate.** A normalized number times its reciprocal is one, that is 2^53, to the
2^17th part above for the bits that are not looked up, the 2^20th above for the chord, and less than two units of the
reciprocal below. -/
theorem interpolate_accuracy {n : Nat} (h : 2 ^ 31 ≤ n) (h' : n < 2 ^ 32) :
    (interpolate n).recip * n ≤ 2 ^ 53 + 2 ^ 36 + 2 ^ 33 ∧ 2 ^ 53 ≤ (interpolate n).recip * n + 2 ^ 33 := by
  obtain ⟨habove, hbelow⟩ := chord_recips_accuracy (position n)
  have hrange := interpolate_recip_range n
  have hrecip := recip_interpolate n
  have hlooked := div_eq_position h h'
  generalize (interpolate n).recip = r at *
  generalize 2 ^ 17 + position n = looked at *
  have hn : looked * 2 ^ 14 ≤ n ∧ n ≤ (looked + 1) * 2 ^ 14 := by omega
  constructor
  · have hchord : 256 * (r * looked) ≤ chord recips (position n) * looked := by
      rw [← Nat.mul_assoc]
      exact Nat.mul_le_mul_right _ (by omega)
    calc r * n ≤ r * ((looked + 1) * 2 ^ 14) := Nat.mul_le_mul_left r hn.2
      _ = (r * looked + r) * 2 ^ 14 := by rw [← Nat.mul_succ, Nat.mul_assoc]
      _ ≤ 2 ^ 53 + 2 ^ 36 + 2 ^ 33 := by omega
  · have hchord : (chord recips (position n) + 256) * looked ≤ 256 * ((r + 2) * looked) := by
      rw [← Nat.mul_assoc]
      exact Nat.mul_le_mul_right _ (by omega)
    calc 2 ^ 53 ≤ (r + 2) * looked * 2 ^ 14 := by omega
      _ ≤ (r + 2) * n := by
          rw [Nat.mul_assoc]
          exact Nat.mul_le_mul_left _ hn.1
      _ = r * n + 2 * n := Nat.add_mul r 2 n
      _ ≤ r * n + 2 ^ 33 := by omega

/-! ## Checked evaluation -/

def word? (n : Nat) : Option Nat := if n < 2 ^ 32 then some n else none

def blend? (low high fraction : Nat) : Option Nat := do
  let first ← word? (low * (256 - fraction))
  let second ← word? (high * fraction)
  let sum ← word? (first + second)
  return sum / 256

def interpolate? (normal : Nat) : Option Entry := do
  let i := normal / 2 ^ 22 % 512
  let fraction := normal / 2 ^ 14 % 256
  let low ← table[i]?
  let high ← table[i + 1]?
  let recip ← blend? low.recip high.recip fraction
  let log ← blend? low.log high.log fraction
  return ⟨recip, log⟩

theorem blend?_eq {low high fraction : Nat} (h : low * (256 - fraction) + high * fraction < 2 ^ 32) :
    blend? low high fraction = some (blend low high fraction) := by
  have hfirst : word? (low * (256 - fraction)) = some (low * (256 - fraction)) :=
    if_pos (Nat.lt_of_le_of_lt (Nat.le_add_right _ _) h)
  have hsecond : word? (high * fraction) = some (high * fraction) :=
    if_pos (Nat.lt_of_le_of_lt (Nat.le_add_left _ _) h)
  have hsum : word? (low * (256 - fraction) + high * fraction) = some (low * (256 - fraction) + high * fraction) :=
    if_pos h
  simp only [blend?, hfirst, hsecond, hsum, Option.bind_eq_bind, Option.bind_some]
  rfl

/-- **No interpolation leaves the table or 32 bits.** -/
theorem interpolate?_eq (n : Nat) : interpolate? n = some (interpolate n) := by
  have hi : n / 2 ^ 22 % 512 < 512 := Nat.mod_lt _ (by decide)
  have hposition : position n / 256 = n / 2 ^ 22 % 512 ∧ position n % 256 = n / 2 ^ 14 % 256 := by
    unfold position
    omega
  have hrecips := (chord_recips_range (position_le n)).2
  have hlogs := chord_logs_le (position_le n)
  rw [chord, hposition.1, hposition.2] at hrecips hlogs
  simp only [recips, logs] at hrecips hlogs
  have hlow : table[n / 2 ^ 22 % 512]? = some (entry (n / 2 ^ 22 % 512)) := by
    rw [Vector.getElem?_eq_getElem (Nat.lt_succ_of_lt hi), getElem_table]
  have hhigh : table[n / 2 ^ 22 % 512 + 1]? = some (entry (n / 2 ^ 22 % 512 + 1)) := by
    rw [Vector.getElem?_eq_getElem (Nat.succ_lt_succ hi), getElem_table]
  simp only [interpolate?, hlow, hhigh, Option.bind_eq_bind, Option.bind_some]
  rw [blend?_eq (Nat.lt_of_le_of_lt hrecips (by decide)), blend?_eq (Nat.lt_of_le_of_lt hlogs (by decide))]
  simp only [interpolate, getElem_table]
  rfl

end Accel3D.Reciprocal
