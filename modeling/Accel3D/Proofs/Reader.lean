/-
The laws of readers.

Of a reader only what is left to read (`rest`) and how many bytes are read or reserved (`used`) matter. Reading moves it
on (`skip`), and succeeds on a value exactly where the bytes of the value stand and the limit leaves room (`Holds`).

Results: `holds_append` (bytes that stand one behind the other are read one after the other); `number_eq_ok` (a number is
read exactly where its digits stand); `take_eq_ok` (so are bytes taken as they are).
-/
import Mathlib.Tactic.SplitIfs
import Accel3D.Snapshot.Codec

namespace Accel3D

theorem append_prefix_iff {α : Type} (a b l : List α) : a ++ b <+: l ↔ a <+: l ∧ b <+: l.drop a.length := by
  refine ⟨?_, ?_⟩
  · intro hx
    rcases hx with ⟨t, rfl⟩
    rw [List.append_assoc, List.drop_left]
    exact ⟨List.prefix_append a _, List.prefix_append b t⟩
  · intro hx
    rcases hx with ⟨⟨t, rfl⟩, h⟩
    rw [List.drop_left] at h
    exact (List.prefix_append_right_inj a).2 h

theorem bind_eq_ok {ε α β : Type} {x : Except ε α} {f : α → Except ε β} {b : β} :
    (x >>= f) = .ok b ↔ ∃ a, x = .ok a ∧ f a = .ok b := by
  cases x with
  | error e => simp [bind, Except.bind]
  | ok a => simp [bind, Except.bind]

/-! ## Readers -/

namespace Reader

/-- bytes read or reserved -/
def used (r : Reader) : Nat := r.position + r.reserved

/-- the bytes left to read -/
def rest (r : Reader) : List UInt8 := r.bytes.data.toList.drop r.position

/-- moved on by `n` bytes -/
def skip (r : Reader) (n : Nat) : Reader := { r with position := r.position + n }

variable (r r' : Reader)

theorem rest_skip (n : Nat) : (r.skip n).rest = r.rest.drop n := by
  rw [rest, rest, List.drop_drop]
  rfl

theorem used_skip (n : Nat) : (r.skip n).used = r.used + n := by
  simp only [used, skip]
  omega

theorem skip_skip (m n : Nat) : (r.skip m).skip n = r.skip (m + n) := by
  simp only [skip, Nat.add_assoc]

/-- these bytes come next, with room for `need` bytes, and `r'` is the reader behind them -/
def Holds (need : Nat) (image : List UInt8) : Prop :=
  r.used + need ≤ limit ∧ image <+: r.rest ∧ r' = r.skip image.length

/-- bytes that stand one behind the other are read one after the other -/
theorem holds_append (m n : Nat) (a b : List UInt8) :
    r.Holds r' (max m (a.length + n)) (a ++ b) ↔ ∃ r1, r.Holds r1 m a ∧ r1.Holds r' n b := by
  simp only [Holds, append_prefix_iff, List.length_append]
  refine ⟨?_, ?_⟩
  · intro hx
    rcases hx with ⟨hroom, ⟨ha, hb⟩, rfl⟩
    refine ⟨_, ⟨by omega, ha, rfl⟩, ?_, ?_, ?_⟩
    · rw [used_skip]
      omega
    · rw [rest_skip]
      exact hb
    · rw [skip_skip]
  · intro hx
    rcases hx with ⟨r1, ⟨hroom, ha, rfl⟩, hroom', hb, rfl⟩
    rw [used_skip] at hroom'
    rw [rest_skip] at hb
    exact ⟨by omega, ⟨ha, hb⟩, skip_skip r _ _⟩

theorem holds_nil : r.Holds r' 0 [] ↔ r.used ≤ limit ∧ r' = r := by
  simp only [Holds, Nat.add_zero, List.nil_prefix, true_and]
  rfl

theorem Holds.used_le {r r' : Reader} {need : Nat} {image : List UInt8} (h : r.Holds r' need image)
    (hlen : image.length ≤ need) : r'.used ≤ limit := by
  obtain ⟨hroom, -, rfl⟩ := h
  rw [used_skip]
  omega

theorem Holds.reserved_eq {r r' : Reader} {need : Nat} {image : List UInt8} (h : r.Holds r' need image) :
    r'.reserved = r.reserved := by
  obtain ⟨-, -, rfl⟩ := h
  rfl

theorem release_release (m n : Nat) : (r.release m).release n = r.release (n + m) := by
  simp only [release, Nat.sub_sub, Nat.add_comm]

/-- reserved room that is given back counts as room that is needed -/
theorem holds_release {k : Nat} (hk : k ≤ r.reserved) (need : Nat) (image : List UInt8) :
    (r.release k).Holds r' (k + need) image ↔ ∃ r1, r.Holds r1 need image ∧ r' = r1.release k := by
  have hused : (r.release k).used + (k + need) = r.used + need := by
    simp only [used, release]
    omega
  simp only [Holds, hused]
  refine ⟨?_, ?_⟩
  · intro hx
    rcases hx with ⟨hroom, hp, rfl⟩
    exact ⟨_, ⟨hroom, hp, rfl⟩, rfl⟩
  · intro hx
    rcases hx with ⟨r1, ⟨hroom, hp, rfl⟩, rfl⟩
    exact ⟨hroom, hp, rfl⟩

theorem claim_eq_ok {n : Nat} {u : Unit} : r.claim n = .ok u ↔ r.used + n ≤ limit := by
  unfold claim used
  split_ifs with h
  · simp [h]
  · simp [h]

theorem reserve_eq_ok {n : Nat} :
    r.reserve n = .ok r' ↔ r.used + n ≤ limit ∧ r' = { r with reserved := r.reserved + n } := by
  simp only [reserve, bind_eq_ok, claim_eq_ok, exists_const, pure, Except.pure, Except.ok.injEq]
  rw [eq_comm (a := r')]

theorem has_iff {n : Nat} (hn : 0 < n) : r.has n = true ↔ n ≤ r.rest.length := by
  have hs : r.bytes.data.toList.length = r.bytes.size := rfl
  simp only [has, decide_eq_true_eq, rest, List.length_drop, hs]
  omega

theorem next_eq_ok {b : UInt8} : r.next = .ok (b, r') ↔ [b] <+: r.rest ∧ r' = r.skip 1 := by
  unfold next
  by_cases h : r.position < r.bytes.size
  · rw [dif_pos h]
    have hb : r.rest = r.bytes.get r.position h :: r.bytes.data.toList.drop (r.position + 1) :=
      List.drop_eq_getElem_cons (l := r.bytes.data.toList) h
    rw [hb, List.cons_prefix_cons]
    generalize r.bytes.get r.position h = x
    simp [skip, eq_comm]
  · rw [dif_neg h]
    have hb : r.rest = [] := List.drop_eq_nil_of_le (Nat.le_of_not_lt h)
    simp [hb]

end Reader

def digits : (size : Nat) → Nat → List UInt8
  | 0, _ => []
  | size + 1, n => UInt8.ofNat n :: digits size (n / 256)

theorem length_digits (size n : Nat) : (digits size n).length = size := by
  induction size generalizing n with
  | zero => rfl
  | succ size ih => rw [digits, List.length_cons, ih]

/-- a number is read exactly where its digits stand -/
theorem Reader.number_eq_ok (size n : Nat) (r r' : Reader) :
    r.number size = .ok (n, r') ↔ n < 256 ^ size ∧ digits size n <+: r.rest ∧ r' = r.skip size := by
  induction size generalizing n r r' with
  | zero =>
    simp only [number, digits, Except.ok.injEq, Prod.mk.injEq, List.nil_prefix, true_and, Nat.pow_zero, Nat.lt_one_iff]
    exact ⟨fun ⟨h, h'⟩ => ⟨h.symm, h'.symm⟩, fun ⟨h, h'⟩ => ⟨h.symm, h'.symm⟩⟩
  | succ size ih =>
    have hcons : ∀ b n, b :: digits size n <+: r.rest ↔ [b] <+: r.rest ∧ digits size n <+: (r.skip 1).rest := by
      intro b n
      rw [rest_skip]
      exact append_prefix_iff [b] _ r.rest
    simp only [number, bind_eq_ok, Prod.exists, next_eq_ok, ih, digits, hcons, pure, Except.pure, Except.ok.injEq,
      Prod.mk.injEq]
    refine ⟨?_, ?_⟩
    · intro hx
      rcases hx with ⟨low, r1, ⟨hlow, rfl⟩, high, r2, ⟨hhigh, hd, rfl⟩, rfl, rfl⟩
      have hb : low.toNat < 256 := low.toNat_lt
      have hv : UInt8.ofNat (low.toNat + 256 * high) = low := by
        apply UInt8.toNat_inj.1
        rw [UInt8.toNat_ofNat']
        omega
      rw [hv, show (low.toNat + 256 * high) / 256 = high by omega, Reader.skip_skip, Nat.add_comm 1 size, Nat.pow_succ]
      exact ⟨by omega, ⟨hlow, hd⟩, rfl⟩
    · intro hx
      rcases hx with ⟨hn, ⟨hlow, hd⟩, rfl⟩
      rw [Nat.pow_succ] at hn
      refine ⟨UInt8.ofNat n, _, ⟨hlow, rfl⟩, n / 256, _, ⟨by omega, hd, rfl⟩, ?_, ?_⟩
      · rw [UInt8.toNat_ofNat']
        omega
      · rw [Reader.skip_skip, Nat.add_comm]

/-- bytes are taken exactly where they stand -/
theorem Reader.take_eq_ok {n : Nat} (hn : 0 < n) {r r' : Reader} {b : ByteArray} :
    r.take n = .ok (b, r') ↔ b.size = n ∧ b.data.toList <+: r.rest ∧ r' = r.skip n := by
  have hextract : (r.bytes.extract r.position (r.position + n)).data.toList = r.rest.take n := by
    rw [ByteArray.data_extract, Array.toList_extract, List.extract_eq_take_drop, Nat.add_sub_cancel_left]
    rfl
  have hlen : ∀ b : ByteArray, b.data.toList.length = b.size := fun _ => rfl
  simp only [take]
  split_ifs with hs
  · have hle := (has_iff r hn).1 hs
    simp only [Except.ok.injEq, Prod.mk.injEq]
    refine ⟨?_, ?_⟩
    · intro hx
      rcases hx with ⟨rfl, rfl⟩
      refine ⟨?_, ?_, rfl⟩
      · rw [← hlen, hextract, List.length_take]
        omega
      · rw [hextract]
        exact List.take_prefix n r.rest
    · intro hx
      rcases hx with ⟨hb, hp, rfl⟩
      refine ⟨?_, rfl⟩
      apply ByteArray.ext
      apply Array.toList_inj.1
      rw [hextract, List.prefix_iff_eq_take.1 hp, hlen, hb]
  · refine ⟨fun h => by simp at h, ?_⟩
    intro hx
    rcases hx with ⟨rfl, hp, -⟩
    exact absurd ((has_iff r hn).2 hp.length_le) hs

end Accel3D
