/-
The laws of codecs.

A codec is lawful (`Codec.Reads`) for the values that it can carry when its reader gives such a value exactly where the
bytes of the value stand and the reader may still go that far, and then moves on by just these bytes. So what is read
back is what was written (no bytes are read in two ways, and none are skipped), and what stands behind the bytes of a
value does not matter. Every combinator of codecs is lawful when its parts are.

Results: `reads_number`, `reads_memory` (the ground codecs are lawful); `Reads.pair`, `Reads.refine`, `Reads.sequence`
and others (so are the combinations); `Fixed` and its rules (codecs that carry every value of their type in a fixed
amount of room).
-/
import Mathlib.Algebra.Group.Int.Defs
import Mathlib.Algebra.Group.Nat.Defs
import Accel3D.Proofs.Reader

namespace Accel3D

namespace Codec

variable {α β : Type}

def image (c : Codec α) (v : α) : List UInt8 := (c.encode v).data.toList

/-- a codec that reads a value exactly where its bytes stand, provided that it can carry the value at all and that the
limit leaves the room which the value needs -/
structure ReadsIn (c : Codec α) (readable : α → Prop) (need : α → Nat) : Prop where
  length_le : ∀ v, (c.image v).length ≤ need v
  get_eq : ∀ r v r', c.get r = .ok (v, r') ↔ readable v ∧ r.Holds r' (need v) (c.image v)

/-- a codec that puts the bytes of a value behind what is there, and reads it where they stand; the room that a value
needs is bounded by its cost -/
structure Reads (c : Codec α) (readable : α → Prop) (cost : α → Nat) : Prop where
  put_eq : ∀ v out, (c.put v out).data.toList = out.data.toList ++ c.image v
  get_eq : ∃ need : α → Nat, (∀ v, need v ≤ cost v) ∧ c.ReadsIn readable need

/-- a codec that carries every value of its type, with room for `n` bytes at most -/
def Fixed (c : Codec α) (n : Nat) : Prop := c.Reads (fun _ => True) (fun _ => n)

/-! ## What the readers do -/

section Readers

variable (c : Codec α) (d : Codec β) (r r' : Reader)

theorem get_number {size : Nat} (h : 0 < size) (n : Nat) :
    (number size).get r = .ok (n, r') ↔
      r.used + size ≤ Reader.limit ∧ size ≤ r.rest.length ∧ r.number size = .ok (n, r') := by
  simp only [number, bind_eq_ok, Reader.claim_eq_ok, exists_const]
  split_ifs with hs
  · simp [(Reader.has_iff r h).1 hs]
  · have hlt : ¬size ≤ r.rest.length := fun hle => hs ((Reader.has_iff r h).2 hle)
    simp [hlt]

theorem get_refine (pack : α → Except CodecError β) (unpack : β → α) (b : β) :
    (c.refine pack unpack).get r = .ok (b, r') ↔ ∃ a, c.get r = .ok (a, r') ∧ pack a = .ok b := by
  simp only [Codec.refine, bind_eq_ok, Prod.exists, pure, Except.pure, Except.ok.injEq, Prod.mk.injEq]
  refine ⟨?_, ?_⟩
  · intro hx
    rcases hx with ⟨a, r1, ha, b', hb, rfl, rfl⟩
    exact ⟨a, ha, hb⟩
  · intro hx
    rcases hx with ⟨a, ha, hb⟩
    exact ⟨a, r', ha, b, hb, rfl, rfl⟩

theorem get_pair (a : α) (b : β) :
    (c.pair d).get r = .ok ((a, b), r') ↔ ∃ r1, c.get r = .ok (a, r1) ∧ d.get r1 = .ok (b, r') := by
  simp only [Codec.pair, bind_eq_ok, Prod.exists, pure, Except.pure, Except.ok.injEq, Prod.mk.injEq]
  refine ⟨?_, ?_⟩
  · intro hx
    rcases hx with ⟨a', r1, ha, b', r2, hb, ⟨rfl, rfl⟩, rfl⟩
    exact ⟨r1, ha, hb⟩
  · intro hx
    rcases hx with ⟨r1, ha, hb⟩
    exact ⟨a, r1, ha, b, r', hb, ⟨rfl, rfl⟩, rfl⟩

theorem get_optional (v : Option α) :
    c.optional.get r = .ok (v, r') ↔
      (v = none ∧ byte.get r = .ok (0, r')) ∨
        ∃ a, v = some a ∧ ∃ r1, byte.get r = .ok (1, r1) ∧ c.get r1 = .ok (a, r') := by
  simp only [Codec.optional, bind_eq_ok, Prod.exists]
  refine ⟨?_, ?_⟩
  · intro hx
    rcases hx with ⟨tag, r1, htag, hrest⟩
    split_ifs at hrest with h0 h1
    · cases hrest
      exact .inl ⟨rfl, h0 ▸ htag⟩
    · obtain ⟨a, r2, ha, hv⟩ := by simpa only [bind_eq_ok, Prod.exists] using hrest
      cases hv
      exact .inr ⟨a, rfl, r1, h1 ▸ htag, ha⟩
  · intro hx
    rcases hx with ⟨rfl, htag⟩ | ⟨a, rfl, r1, htag, ha⟩
    · exact ⟨0, r', htag, rfl⟩
    · refine ⟨1, r1, htag, ?_⟩
      simp [ha, bind, Except.bind, pure, Except.pure]

theorem getSequence_succ (footprint n : Nat) (read : Array α) :
    c.getSequence footprint (n + 1) read r = (c.getSequence footprint n read r >>= fun (a, r) =>
      c.get (r.release footprint) >>= fun (v, r) => .ok (a.push v, r)) := by
  induction n generalizing read r with
  | zero => rfl
  | succ n ih =>
    rw [getSequence, getSequence, bind_assoc]
    simp only [ih]

theorem getVector_eq_ok (footprint n : Nat) (v : Vector α n) :
    c.getVector footprint n r = .ok (v, r') ↔ c.getSequence footprint n #[] r = .ok (v.toArray, r') := by
  induction n generalizing r' with
  | zero =>
    obtain rfl : v = #v[] := by ext i hi; omega
    simp [getVector, getSequence]
  | succ n ih =>
    rw [getSequence_succ]
    simp only [getVector, bind_eq_ok, Prod.exists, pure, Except.pure, Except.ok.injEq, Prod.mk.injEq]
    refine ⟨?_, ?_⟩
    · intro hx
      rcases hx with ⟨w, r1, hw, a, r2, ha, rfl, rfl⟩
      exact ⟨w.toArray, r1, (ih r1 w).1 hw, a, r2, ha, rfl, rfl⟩
    · intro hx
      rcases hx with ⟨w, r1, hw, a, r2, ha, hv, rfl⟩
      have hn : w.size = n := by
        have hsize := congrArg Array.size hv
        simpa using hsize
      exact ⟨⟨w, hn⟩, r1, (ih r1 ⟨w, hn⟩).2 hw, a, r2, ha, Vector.toArray_inj.1 hv, rfl⟩

theorem get_vector (footprint n : Nat) (v : Vector α n) :
    (c.vector footprint n).get r = .ok (v, r') ↔
      ∃ r1, r.reserve (n * footprint) = .ok r1 ∧ c.getSequence footprint n #[] r1 = .ok (v.toArray, r') := by
  simp only [Codec.vector, bind_eq_ok, getVector_eq_ok]

theorem get_sequence (footprint : Nat) (a : Array α) :
    (c.sequence footprint).get r = .ok (a, r') ↔ ∃ n r1, word64.get r = .ok (n, r1) ∧
      ∃ r2, r1.reserve (n.toNat * footprint) = .ok r2 ∧ c.getSequence footprint n.toNat #[] r2 = .ok (a, r') := by
  simp only [Codec.sequence, bind_eq_ok, Prod.exists]

end Readers

/-! ## Numbers -/

theorem toList_putNumber (size n : Nat) (out : ByteArray) :
    (putNumber size n out).data.toList = out.data.toList ++ digits size n := by
  induction size generalizing n out with
  | zero => simp [putNumber, digits]
  | succ size ih => simp [putNumber, digits, ih, ByteArray.data_push]

theorem image_number (size n : Nat) : (number size).image n = digits size n := toList_putNumber size n ByteArray.empty

/-- numbers that fit are read exactly where their digits stand -/
theorem reads_number (size : Nat) (h : 0 < size) : (number size).Reads (fun n => n < 256 ^ size) (fun _ => size) := by
  have hlength : ∀ n, ((number size).image n).length = size := fun n => by rw [image_number, length_digits]
  refine ⟨fun n out => by rw [image_number]; exact toList_putNumber size n out, fun _ => size, fun _ => Nat.le_refl size,
    fun n => Nat.le_of_eq (hlength n), fun r n r' => ?_⟩
  rw [get_number r r' h, Reader.number_eq_ok, Reader.Holds, hlength, image_number]
  refine ⟨?_, ?_⟩
  · intro hx
    rcases hx with ⟨hu, -, hn, hd, hr⟩
    exact ⟨hn, hu, hd, hr⟩
  · intro hx
    rcases hx with ⟨hn, hu, hd, hr⟩
    have hle := hd.length_le
    rw [length_digits] at hle
    exact ⟨hu, hle, hn, hd, hr⟩

/-! ## Combinations -/

section Combinations

variable {c : Codec α} {d : Codec β} {readable : α → Prop} {cost : α → Nat} {readable' : β → Prop} {cost' : β → Nat}

/-- a codec that refuses some values, and none but those that are packed with loss -/
theorem Reads.refine (h : c.Reads readable cost) {pack : α → Except CodecError β} {unpack : β → α}
    (hp : ∀ a b, readable a → pack a = .ok b → unpack b = a) :
    (c.refine pack unpack).Reads (fun b => readable (unpack b) ∧ pack (unpack b) = .ok b) (fun b => cost (unpack b)) := by
  obtain ⟨hput, need, hneed, hlength, hget⟩ := h
  refine ⟨fun b => hput (unpack b), fun b => need (unpack b), fun b => hneed (unpack b), fun b => hlength (unpack b),
    fun r b r' => ?_⟩
  rw [get_refine]
  refine ⟨?_, ?_⟩
  · intro hx
    rcases hx with ⟨a, ha, hb⟩
    obtain ⟨hr, hh⟩ := (hget r a r').1 ha
    obtain rfl := hp a b hr hb
    exact ⟨⟨hr, hb⟩, hh⟩
  · intro hx
    rcases hx with ⟨⟨hr, hb⟩, hh⟩
    exact ⟨unpack b, (hget r (unpack b) r').2 ⟨hr, hh⟩, hb⟩

theorem Reads.map (h : c.Reads readable cost) {pack : α → β} {unpack : β → α}
    (hp : ∀ a, readable a → unpack (pack a) = a) :
    (c.map pack unpack).Reads (fun b => readable (unpack b) ∧ pack (unpack b) = b) (fun b => cost (unpack b)) := by
  have hr : (c.refine (fun a => .ok (pack a)) unpack).Reads _ _ := h.refine fun a b ha hb => by
    cases hb
    exact hp a ha
  simp only [Except.ok.injEq] at hr
  exact hr

/-- one value after the other -/
theorem Reads.pair (hc : c.Reads readable cost) (hd : d.Reads readable' cost') :
    (c.pair d).Reads (fun v => readable v.1 ∧ readable' v.2) (fun v => cost v.1 + cost' v.2) := by
  obtain ⟨hput, need, hneed, hlength, hget⟩ := hc
  obtain ⟨hput', need', hneed', hlength', hget'⟩ := hd
  have himage : ∀ v, (c.pair d).image v = c.image v.1 ++ d.image v.2 := fun v => hput' v.2 (c.put v.1 ByteArray.empty)
  refine ⟨fun v out => ?_, fun v => max (need v.1) ((c.image v.1).length + need' v.2), fun v => ?_, fun v => ?_,
    fun r v r' => ?_⟩
  · rw [himage]
    show (d.put v.2 (c.put v.1 out)).data.toList = _
    rw [hput', hput, List.append_assoc]
  · have h1 := hneed v.1
    have h2 := hneed' v.2
    have h3 := hlength v.1
    dsimp only
    omega
  · have h2 := hlength' v.2
    rw [himage, List.length_append]
    omega
  · obtain ⟨a, b⟩ := v
    rw [get_pair, himage, Reader.holds_append]
    simp only [hget, hget']
    refine ⟨?_, ?_⟩
    · intro hx
      rcases hx with ⟨r1, ⟨ha, h1⟩, hb, h2⟩
      exact ⟨⟨ha, hb⟩, r1, h1, h2⟩
    · intro hx
      rcases hx with ⟨⟨ha, hb⟩, r1, h1, h2⟩
      exact ⟨r1, ⟨ha, h1⟩, hb, h2⟩

theorem Reads.congr {readable' : α → Prop} {cost' : α → Nat} (h : c.Reads readable cost)
    (hr : ∀ v, readable v ↔ readable' v) (hc : ∀ v, cost v ≤ cost' v) : c.Reads readable' cost' := by
  obtain ⟨hput, need, hneed, hlength, hget⟩ := h
  refine ⟨hput, need, fun v => Nat.le_trans (hneed v) (hc v), hlength, fun r v r' => ?_⟩
  rw [hget, hr]

/-! ### Elements one after the other -/

def listImage (c : Codec α) (l : List α) : List UInt8 := l.flatMap c.image

/-- the room that a list of values needs, each reserved until it is read -/
def listNeed (c : Codec α) (footprint : Nat) (need : α → Nat) : List α → Nat
  | [] => 0
  | a :: l => max (l.length * footprint + need a) ((c.image a).length + listNeed c footprint need l)

theorem listImage_cons (c : Codec α) (a : α) (l : List α) : c.listImage (a :: l) = c.image a ++ c.listImage l :=
  List.flatMap_cons

theorem toList_putList (h : c.Reads readable cost) (l : List α) (out : ByteArray) :
    (l.foldl (fun out a => c.put a out) out).data.toList = out.data.toList ++ c.listImage l := by
  induction l generalizing out with
  | nil => simp [listImage]
  | cons a l ih => simp [listImage, ih, h.put_eq]

/-- the room for a list holds its bytes, and is bounded by what is reserved and the costs of the values -/
theorem listNeed_bounds {need : α → Nat} (hneed : ∀ v, need v ≤ cost v) (hlength : ∀ v, (c.image v).length ≤ need v)
    (footprint : Nat) (l : List α) : (c.listImage l).length ≤ c.listNeed footprint need l ∧
      c.listNeed footprint need l ≤ l.length * footprint + (l.map cost).sum := by
  induction l with
  | nil => simp [listImage, listNeed]
  | cons a l ih =>
    have h1 := hneed a
    have h2 := hlength a
    simp only [listImage, listNeed, List.flatMap_cons, List.length_append, List.length_cons, List.map_cons,
      List.sum_cons, Nat.succ_mul] at ih ⊢
    omega

/-- elements are read exactly where the bytes of a list of them stand; by induction on the number that waits, with as
much reserved as the waiting elements ask for -/
theorem ReadsIn.getSequence {need : α → Nat} (h : c.ReadsIn readable need) (footprint n : Nat) (read a : Array α)
    (r r' : Reader) (hr : n * footprint ≤ r.reserved) (hu : r.used ≤ Reader.limit) :
    c.getSequence footprint n read r = .ok (a, r') ↔ ∃ l : List α, l.length = n ∧ a.toList = read.toList ++ l ∧
      (∀ v ∈ l, readable v) ∧
      (r.release (n * footprint)).Holds r' (c.listNeed footprint need l) (c.listImage l) := by
  induction n generalizing read r r' with
  | zero =>
    have hzero : r.release (0 * footprint) = r := by simp [Reader.release]
    simp only [Codec.getSequence, Except.ok.injEq, Prod.mk.injEq, List.length_eq_zero_iff, hzero]
    refine ⟨?_, ?_⟩
    · intro hx
      rcases hx with ⟨rfl, rfl⟩
      exact ⟨[], rfl, by simp, by simp, (Reader.holds_nil r r).2 ⟨hu, rfl⟩⟩
    · intro hx
      rcases hx with ⟨l, rfl, ha, -, hh⟩
      obtain ⟨-, rfl⟩ := (Reader.holds_nil r r').1 hh
      rw [List.append_nil] at ha
      exact ⟨(Array.toList_inj.1 ha).symm, rfl⟩
  | succ n ih =>
    rw [Nat.succ_mul] at hr
    have hk : n * footprint ≤ (r.release footprint).reserved := by
      simp only [Reader.release]
      omega
    have hrelease : r.release ((n + 1) * footprint) = (r.release footprint).release (n * footprint) := by
      rw [Reader.release_release, Nat.succ_mul]
    -- the state in which the other elements are read, for the induction hypothesis
    have hnext : ∀ v r1, (r.release footprint).Holds r1 (need v) (c.image v) →
        n * footprint ≤ r1.reserved ∧ r1.used ≤ Reader.limit := by
      intro v r1 hv
      exact ⟨hv.reserved_eq ▸ hk, hv.used_le (h.length_le v)⟩
    simp only [Codec.getSequence, bind_eq_ok, Prod.exists, h.get_eq, hrelease]
    refine ⟨?_, ?_⟩
    · intro hx
      rcases hx with ⟨v, r1, ⟨hv, hv1⟩, hs⟩
      obtain ⟨h1, h2⟩ := hnext v r1 hv1
      obtain ⟨l, rfl, ha, hl, hh⟩ := (ih _ _ r' h1 h2).1 hs
      refine ⟨v :: l, rfl, by simp [ha], by simpa using ⟨hv, hl⟩, ?_⟩
      rw [listNeed, listImage_cons, Reader.holds_append]
      exact ⟨_, (Reader.holds_release _ _ hk _ _).2 ⟨r1, hv1, rfl⟩, hh⟩
    · intro hx
      rcases hx with ⟨l, hl, ha, hv, hh⟩
      obtain ⟨v, l, rfl⟩ := List.exists_cons_of_length_eq_add_one hl
      obtain rfl : l.length = n := by simpa using hl
      rw [listNeed, listImage_cons, Reader.holds_append] at hh
      obtain ⟨r2, h1, h2⟩ := hh
      obtain ⟨r1, hv1, rfl⟩ := (Reader.holds_release _ _ hk _ _).1 h1
      obtain ⟨h3, h4⟩ := hnext v r1 hv1
      refine ⟨v, r1, ⟨hv v List.mem_cons_self, hv1⟩, (ih _ _ r' h3 h4).2 ?_⟩
      exact ⟨l, rfl, by simp [ha], fun w hw => hv w (List.mem_cons_of_mem v hw), h2⟩

theorem ReadsIn.reserve_getSequence {need : α → Nat} (h : c.ReadsIn readable need) (footprint n : Nat) (a : Array α)
    (r r' : Reader) :
    (∃ r1, r.reserve (n * footprint) = .ok r1 ∧ c.getSequence footprint n #[] r1 = .ok (a, r')) ↔
      a.size = n ∧ (∀ v ∈ a.toList, readable v) ∧
        r.Holds r' (max (n * footprint) (c.listNeed footprint need a.toList)) (c.listImage a.toList) := by
  have hback : ({ r with reserved := r.reserved + n * footprint } : Reader).release (n * footprint) = r := by
    simp [Reader.release]
  have hused : ({ r with reserved := r.reserved + n * footprint } : Reader).used = r.used + n * footprint := by
    simp only [Reader.used]
    omega
  simp only [Reader.reserve_eq_ok]
  refine ⟨?_, ?_⟩
  · intro hx
    rcases hx with ⟨r1, ⟨hroom, rfl⟩, hs⟩
    rw [h.getSequence _ _ _ _ _ _ (Nat.le_add_left _ _) (hused ▸ hroom), hback] at hs
    obtain ⟨l, hn, ha, hv, hneed, hp, hr⟩ := hs
    obtain rfl : a.toList = l := by simpa using ha
    exact ⟨hn, hv, by omega, hp, hr⟩
  · intro hx
    rcases hx with ⟨hn, hv, hroom, hp, hr⟩
    refine ⟨_, ⟨by omega, rfl⟩, ?_⟩
    rw [h.getSequence _ _ _ _ _ _ (Nat.le_add_left _ _) (by omega), hback]
    exact ⟨a.toList, hn, by simp, hv, by omega, hp, hr⟩

theorem Reads.vector (h : c.Reads readable cost) (footprint n : Nat) :
    (c.vector footprint n).Reads (fun v => ∀ a ∈ v.toList, readable a)
      (fun v => n * footprint + (v.toList.map cost).sum) := by
  have hput : ∀ (v : Vector α n) out, ((c.vector footprint n).put v out).data.toList =
      out.data.toList ++ c.listImage v.toList := by
    intro v out
    rw [← toList_putList h]
    show (v.toArray.foldl _ out).data.toList = _
    rw [← Array.foldl_toList]
    rfl
  have himage : ∀ v : Vector α n, (c.vector footprint n).image v = c.listImage v.toList :=
    fun v => hput v ByteArray.empty
  obtain ⟨-, need, hneed, hc⟩ := h
  have hbounds := fun v : Vector α n => listNeed_bounds hneed hc.length_le footprint v.toList
  simp only [Vector.length_toList] at hbounds
  refine ⟨fun v out => by rw [himage, hput], fun v => max (n * footprint) (c.listNeed footprint need v.toList),
    fun v => ?_, fun v => ?_, fun r v r' => ?_⟩
  · exact Nat.max_le.2 ⟨Nat.le_add_right _ _, (hbounds v).2⟩
  · rw [himage]
    exact Nat.le_trans (hbounds v).1 (Nat.le_max_right _ _)
  · rw [get_vector, himage, hc.reserve_getSequence]
    exact and_iff_right v.size_toArray

/-- their number and the values -/
theorem Reads.sequence (h : c.Reads readable cost) (hw : word64.Fixed 8) (footprint : Nat) :
    (c.sequence footprint).Reads (fun a => a.size < 2 ^ 64 ∧ ∀ v ∈ a.toList, readable v)
      (fun a => 8 + a.size * footprint + (a.toList.map cost).sum) := by
  have hput : ∀ (a : Array α) out, ((c.sequence footprint).put a out).data.toList =
      out.data.toList ++ (word64.image (UInt64.ofNat a.size) ++ c.listImage a.toList) := by
    intro a out
    rw [← List.append_assoc, ← hw.put_eq, ← toList_putList h, Array.foldl_toList]
    rfl
  have himage : ∀ a : Array α, (c.sequence footprint).image a =
      word64.image (UInt64.ofNat a.size) ++ c.listImage a.toList := fun a => hput a ByteArray.empty
  obtain ⟨-, need, hneed, hc⟩ := h
  obtain ⟨-, need64, hneed64, hw⟩ := hw
  have hbounds := fun a : Array α => listNeed_bounds hneed hc.length_le footprint a.toList
  simp only [Array.length_toList] at hbounds
  refine ⟨fun a out => by rw [himage, hput], fun a => max (need64 (UInt64.ofNat a.size))
    ((word64.image (UInt64.ofNat a.size)).length + max (a.size * footprint) (c.listNeed footprint need a.toList)),
    fun a => ?_, fun a => ?_, fun r a r' => ?_⟩
  · have h1 := hbounds a
    have h2 := hneed64 (UInt64.ofNat a.size)
    have h3 := hw.length_le (UInt64.ofNat a.size)
    dsimp only
    omega
  · have h1 := hbounds a
    rw [himage, List.length_append]
    omega
  · rw [get_sequence, himage, Reader.holds_append]
    simp only [hw.get_eq, hc.reserve_getSequence]
    refine ⟨?_, ?_⟩
    · intro hx
      rcases hx with ⟨n, r1, ⟨-, h1⟩, hn, hv, h2⟩
      obtain rfl : UInt64.ofNat a.size = n := by rw [hn, UInt64.ofNat_toNat]
      rw [← hn] at h2
      exact ⟨⟨hn ▸ UInt64.toNat_lt _, hv⟩, r1, h1, h2⟩
    · intro hx
      rcases hx with ⟨⟨hlt, hv⟩, r1, h1, h2⟩
      have hn : (UInt64.ofNat a.size).toNat = a.size := UInt64.toNat_ofNat_of_lt hlt
      exact ⟨UInt64.ofNat a.size, r1, ⟨trivial, h1⟩, hn.symm, hv, hn.symm ▸ h2⟩

end Combinations

/-! ## Codecs of a fixed size -/

section Fixed

variable {c : Codec α} {d : Codec β} {m n : Nat}

theorem Fixed.map (h : c.Fixed n) {pack : α → β} {unpack : β → α} (hup : ∀ a, unpack (pack a) = a)
    (hpu : ∀ b, pack (unpack b) = b) : (c.map pack unpack).Fixed n :=
  (Reads.map h fun a _ => hup a).congr (fun b => by simp [hpu]) fun _ => Nat.le_refl n

theorem Fixed.pair (hc : c.Fixed m) (hd : d.Fixed n) : (c.pair d).Fixed (m + n) :=
  (Reads.pair hc hd).congr (fun _ => by simp) fun _ => Nat.le_refl (m + n)

theorem Fixed.vector (h : c.Fixed m) (footprint n : Nat) : (c.vector footprint n).Fixed (n * footprint + n * m) :=
  (Reads.vector h footprint n).congr (fun _ => by simp) fun v => by simp [List.map_const']

theorem Fixed.refine (h : c.Fixed n) {pack : α → Except CodecError β} {unpack : β → α}
    (hp : ∀ a b, pack a = .ok b ↔ unpack b = a) : (c.refine pack unpack).Fixed n :=
  (Reads.refine h fun a b _ => (hp a b).1).congr (fun b => by simp [hp]) fun _ => Nat.le_refl n

theorem Fixed.ofNumber {size : Nat} (hs : 0 < size) {pack : Nat → α} {unpack : α → Nat}
    (hup : ∀ k < 256 ^ size, unpack (pack k) = k) (hpu : ∀ a, pack (unpack a) = a) (hlt : ∀ a, unpack a < 256 ^ size) :
    ((number size).map pack unpack).Fixed size :=
  (Reads.map (reads_number size hs) hup).congr (fun a => by simp [hpu, hlt]) fun _ => Nat.le_refl size

end Fixed

theorem fixed_byte : byte.Fixed 1 :=
  Fixed.ofNumber (by decide) (fun _ h => UInt8.toNat_ofNat_of_lt h) (fun _ => UInt8.ofNat_toNat) UInt8.toNat_lt

theorem fixed_word32 : word32.Fixed 4 :=
  Fixed.ofNumber (by decide) (fun _ h => UInt32.toNat_ofNat_of_lt h) (fun _ => UInt32.ofNat_toNat) UInt32.toNat_lt

theorem fixed_word64 : word64.Fixed 8 :=
  Fixed.ofNumber (by decide) (fun _ h => UInt64.toNat_ofNat_of_lt h) (fun _ => UInt64.ofNat_toNat) UInt64.toNat_lt

theorem fixed_int16 : int16.Fixed 2 := by
  refine Fixed.ofNumber (by decide) ?_ ?_ ?_
  · intro k h
    rw [UInt16.toUInt16_toInt16]
    exact UInt16.toNat_ofNat_of_lt h
  · intro v
    rw [UInt16.ofNat_toNat, Int16.toInt16_toUInt16]
  · exact fun v => v.toUInt16.toNat_lt

theorem fixed_int32 : int32.Fixed 4 := fixed_word32.map UInt32.toUInt32_toInt32 Int32.toInt32_toUInt32

theorem fixed_int64 : int64.Fixed 8 := fixed_word64.map UInt64.toUInt64_toInt64 Int64.toInt64_toUInt64

theorem fixed_flag : flag.Fixed 1 := by
  refine fixed_byte.refine fun a b => ?_
  by_cases h0 : a = 0
  · cases b <;> simp [h0]
  · by_cases h1 : a = 1
    · cases b <;> simp [h1]
    · cases b <;> simp [h0, h1, eq_comm]

theorem Fixed.optional {c : Codec α} {n : Nat} (h : c.Fixed n) : c.optional.Fixed (1 + n) := by
  obtain ⟨hput, need, hneed, hlength, hget⟩ := h
  obtain ⟨hput1, need1, hneed1, hlength1, hget1⟩ := fixed_byte
  have hsome : ∀ a, c.optional.image (some a) = byte.image 1 ++ c.image a := fun a => hput a _
  have hnone : c.optional.image none = byte.image 0 := rfl
  refine ⟨fun v out => ?_, fun v => v.elim (need1 0) fun a => max (need1 1) ((byte.image 1).length + need a),
    fun v => ?_, fun v => ?_, fun r v r' => ?_⟩
  · cases v with
    | none => exact hput1 0 out
    | some a =>
      rw [hsome, ← List.append_assoc, ← hput1]
      exact hput a _
  · cases v with
    | none => exact Nat.le_trans (hneed1 0) (Nat.le_add_right 1 n)
    | some a =>
      have h1 := hneed1 1
      have h2 := hlength1 1
      have h3 := hneed a
      dsimp only [Option.elim_some]
      omega
  · cases v with
    | none => exact hlength1 0
    | some a =>
      have h1 := hlength a
      rw [hsome, List.length_append]
      dsimp only [Option.elim_some]
      omega
  · rw [get_optional]
    cases v with
    | none => simp [hget1, hnone]
    | some a =>
      simp only [hget, hget1, hsome, Option.elim_some, Reader.holds_append, reduceCtorEq, false_and, false_or,
        Option.some.injEq, true_and, exists_eq_left']

/-! ## Memories -/

theorem memory_ext {m m' : Memory} (h : m.contents = m'.contents) : m = m' := by
  obtain ⟨b, k, hk⟩ := m
  obtain ⟨b', k', hk'⟩ := m'
  obtain rfl : b = b' := h
  obtain rfl : k = k' := (Nat.pow_right_inj (by decide)).1 (hk.symm.trans hk')
  rfl

theorem size_eq_pow_log2 (m : Memory) : m.size = 2 ^ m.size.log2 := by
  have h : m.size = 2 ^ m.logSize := m.size_eq
  rw [h, Nat.log2_two_pow]

theorem ofBytes_eq_some {b : ByteArray} {m : Memory} : Memory.ofBytes? b = some m ↔ b = m.contents := by
  unfold Memory.ofBytes?
  split_ifs with hb
  · rw [Option.some.injEq]
    exact ⟨fun h => congrArg Memory.contents h, fun h => memory_ext h⟩
  · refine ⟨fun h => by simp at h, fun h => absurd ?_ hb⟩
    rw [h]
    exact size_eq_pow_log2 m

theorem get_memory (m : Memory) (r r' : Reader) :
    memory.get r = .ok (m, r') ↔ ∃ n r1, word64.get r = .ok (n, r1) ∧ n.toNat = m.size ∧
      r1.Holds r' m.size m.contents.data.toList := by
  have hlen : ∀ m : Memory, m.contents.data.toList.length = m.size := fun _ => rfl
  simp only [memory, bind_eq_ok, Prod.exists, Reader.claim_eq_ok, exists_const]
  refine ⟨?_, ?_⟩
  · intro hx
    rcases hx with ⟨n, r1, hn, hroom, hbytes⟩
    split_ifs at hbytes with hpow
    have hpos : 0 < n.toNat := by
      have h2 : 0 < 2 ^ n.toNat.log2 := Nat.two_pow_pos _
      omega
    obtain ⟨b, r2, hb, hm⟩ := by simpa only [bind_eq_ok, Prod.exists] using hbytes
    cases hm' : Memory.ofBytes? b with
    | none => simp [hm'] at hm
    | some m' =>
      rw [hm'] at hm
      cases hm
      obtain rfl := ofBytes_eq_some.1 hm'
      obtain ⟨hs, hp, rfl⟩ := (Reader.take_eq_ok hpos).1 hb
      have hsize : m.size = n.toNat := hs
      exact ⟨n, r1, hn, hsize.symm, hsize ▸ hroom, hp, by rw [hlen, hsize]⟩
  · intro hx
    rcases hx with ⟨n, r1, hn, hs, hroom, hp, rfl⟩
    have hpow : n.toNat = 2 ^ n.toNat.log2 := hs ▸ size_eq_pow_log2 m
    have hpos : 0 < n.toNat := by
      rw [hpow]
      exact Nat.two_pow_pos _
    have htake : r1.take n.toNat = .ok (m.contents, r1.skip m.contents.data.toList.length) :=
      (Reader.take_eq_ok hpos).2 ⟨hs.symm, hp, by rw [hlen, hs]⟩
    refine ⟨n, r1, hn, hs.symm ▸ hroom, ?_⟩
    simp [← hpow, htake, ofBytes_eq_some.2 rfl, bind, Except.bind, pure, Except.pure]

/-- a memory is read where its size and its bytes stand -/
theorem reads_memory : memory.Reads (fun m => m.size < 2 ^ 64) (fun m => 8 + m.size) := by
  obtain ⟨hput64, need, hneed, hw⟩ := fixed_word64
  have hput : ∀ m out, (memory.put m out).data.toList =
      out.data.toList ++ (word64.image (UInt64.ofNat m.size) ++ m.contents.data.toList) := by
    intro m out
    rw [← List.append_assoc, ← hput64]
    exact ByteArray.toList_data_append
  have himage : ∀ m, memory.image m = word64.image (UInt64.ofNat m.size) ++ m.contents.data.toList :=
    fun m => hput m ByteArray.empty
  have hlen : ∀ m : Memory, m.contents.data.toList.length = m.size := fun _ => rfl
  refine ⟨fun m out => by rw [himage, hput], fun m => max (need (UInt64.ofNat m.size))
    ((word64.image (UInt64.ofNat m.size)).length + m.size), fun m => ?_, fun m => ?_, fun r m r' => ?_⟩
  · have h1 := hneed (UInt64.ofNat m.size)
    have h2 := hw.length_le (UInt64.ofNat m.size)
    dsimp only
    omega
  · rw [himage, List.length_append, hlen]
    exact Nat.le_max_right _ _
  · rw [get_memory, himage, Reader.holds_append]
    simp only [hw.get_eq]
    refine ⟨?_, ?_⟩
    · intro hx
      rcases hx with ⟨n, r1, ⟨-, h1⟩, hn, h2⟩
      obtain rfl : UInt64.ofNat m.size = n := by rw [← hn, UInt64.ofNat_toNat]
      exact ⟨hn ▸ UInt64.toNat_lt _, r1, h1, h2⟩
    · intro hx
      rcases hx with ⟨hlt, r1, h1, h2⟩
      exact ⟨UInt64.ofNat m.size, r1, ⟨trivial, h1⟩, UInt64.toNat_ofNat_of_lt hlt, h2⟩

end Codec
end Accel3D
