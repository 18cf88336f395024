/-
The cache of decoded modes is a map of at most 1024 keys.

The entries of all buckets stand one behind the other in `entries`, and those of one bucket stand together there, so
that a change of a bucket changes nothing before and behind it (`exists_entries`). Looking a key up moves its entry to
the front of its bucket, which only permutes the entries, or puts a new one in front; counting a triangle changes no key.
So no key comes twice, every entry stays in the bucket of its key, and the number kept is that of the entries.

Results: `takeKey_eq_some_iff` (what is taken out of a bucket), `Ordered.fetch` and `Ordered.credit` (one step),
`Reachable.ordered` (every cache), `bounded_map` (the cache as a map, and what looking a key up does to it).
-/
import Mathlib.Data.List.Nodup
import Mathlib.Data.List.Perm.Basic
import Accel3D.Proofs.ModeCache

namespace Accel3D.ModeCache

/-! ## One bucket -/

/-- the entry of a key is the first one that has it, and the others stay in order -/
theorem takeKey_eq_some_iff {k : ModeKey} {es : List ModeEntry} {e : ModeEntry} {others : List ModeEntry} :
    takeKey k es = some (e, others) ↔
      ∃ front back, es = front ++ e :: back ∧ others = front ++ back ∧ e.key = k ∧ ∀ x ∈ front, x.key ≠ k := by
  induction es generalizing others with
  | nil => simp [takeKey]
  | cons y es ih =>
    simp only [takeKey]
    split_ifs with hy
    · constructor
      · intro h
        cases h
        exact ⟨[], es, rfl, rfl, hy, by simp⟩
      · rintro ⟨front, back, hes, hothers, he, hfront⟩
        cases front with
        | nil =>
          cases hes
          rw [hothers]
          rfl
        | cons z front =>
          cases hes
          exact absurd hy (hfront _ List.mem_cons_self)
    · constructor
      · intro h
        obtain ⟨⟨f, rest⟩, ht, heq⟩ := Option.map_eq_some_iff.1 h
        cases heq
        obtain ⟨front, back, rfl, rfl, he, hfront⟩ := ih.1 ht
        exact ⟨y :: front, back, rfl, rfl, he, List.forall_mem_cons.2 ⟨hy, hfront⟩⟩
      · rintro ⟨front, back, hes, hothers, he, hfront⟩
        cases front with
        | nil =>
          cases hes
          exact absurd he hy
        | cons z front =>
          cases hes
          have hrest := ih.2 ⟨front, back, rfl, rfl, he, fun x hx => hfront x (List.mem_cons_of_mem _ hx)⟩
          rw [hrest, hothers]
          rfl

theorem takeKey_eq_none_iff {k : ModeKey} {es : List ModeEntry} : takeKey k es = none ↔ ∀ x ∈ es, x.key ≠ k := by
  induction es with
  | nil => simp [takeKey]
  | cons y es ih =>
    simp only [takeKey, List.forall_mem_cons]
    split_ifs with hy
    · simp [hy]
    · simp [hy, ih]

theorem perm_takeKey {k : ModeKey} {es : List ModeEntry} {e : ModeEntry} {others : List ModeEntry}
    (h : takeKey k es = some (e, others)) : (e :: others).Perm es := by
  obtain ⟨front, back, rfl, rfl, -, -⟩ := takeKey_eq_some_iff.1 h
  exact List.perm_middle.symm

/-- where no key comes twice, the others are the entries of the other keys -/
theorem others_takeKey {k : ModeKey} {es : List ModeEntry} {e : ModeEntry} {others : List ModeEntry}
    (h : takeKey k es = some (e, others)) (hnodup : (es.map (·.key)).Nodup) : others = es.filter (·.key ≠ k) := by
  obtain ⟨front, back, rfl, rfl, he, hfront⟩ := takeKey_eq_some_iff.1 h
  have hback : ∀ x ∈ back, x.key ≠ k := by
    intro x hx hk
    rw [List.map_append, List.map_cons] at hnodup
    have hcons := (List.nodup_append.1 hnodup).2.1
    exact (List.nodup_cons.1 hcons).1 (he.trans hk.symm ▸ List.mem_map_of_mem hx)
  have hall : ∀ {l : List ModeEntry}, (∀ x ∈ l, x.key ≠ k) → l.filter (·.key ≠ k) = l := fun hl =>
    List.filter_eq_self.2 fun x hx => decide_eq_true (hl x hx)
  rw [List.filter_append, List.filter_cons_of_neg (by simpa using he), hall hfront, hall hback]

/-! ## All buckets -/

/-- the entries of a bucket stand together -/
theorem exists_entries (m : ModeCache) (i : Fin 97) : ∃ front back, m.entries = front ++ m.buckets.get i ++ back ∧
    ∀ es, (m.setBucket i es).entries = front ++ es ++ back := by
  have hi : i.val < m.buckets.toList.length := by simp
  refine ⟨(m.buckets.toList.take i.val).flatten, (m.buckets.toList.drop (i.val + 1)).flatten, ?_, ?_⟩
  · have hsplit := List.take_append_drop i.val m.buckets.toList
    rw [List.drop_eq_getElem_cons hi] at hsplit
    calc m.entries = (m.buckets.toList.take i.val ++ m.buckets.get i :: m.buckets.toList.drop (i.val + 1)).flatten :=
          congrArg List.flatten hsplit.symm
      _ = _ := by simp
  · intro es
    simp only [entries, setBucket]
    rw [Vector.toList_set, List.set_eq_take_append_cons_drop, if_pos hi]
    simp

theorem mem_entries (m : ModeCache) (e : ModeEntry) : e ∈ m.entries ↔ ∃ i : Fin 97, e ∈ m.buckets.get i := by
  simp only [entries, List.mem_flatten, Vector.mem_toList_iff, Vector.mem_iff_getElem]
  constructor
  · rintro ⟨es, ⟨i, hi, rfl⟩, he⟩
    exact ⟨⟨i, hi⟩, he⟩
  · rintro ⟨i, he⟩
    exact ⟨_, ⟨i.val, i.isLt, rfl⟩, he⟩

theorem get_setBucket (m : ModeCache) (i j : Fin 97) (es : List ModeEntry) :
    (m.setBucket i es).buckets.get j = if j = i then es else m.buckets.get j := by
  have hset : (m.setBucket i es).buckets.get j = (m.buckets.set i es)[j.val] := rfl
  rw [hset, Vector.getElem_set]
  simp only [Fin.ext_iff, eq_comm (a := j.val)]
  rfl

/-- the entries of a map, each in the bucket of its key, and as many as the cache says -/
structure Ordered (m : ModeCache) : Prop where
  distinct : (m.entries.map (·.key)).Nodup
  placed : ∀ i : Fin 97, ∀ e ∈ m.buckets.get i, e.key.bucket = i
  length : m.length = m.entries.length
  bounded : m.length ≤ capacity

namespace Ordered

variable {m : ModeCache}

/-- a key that its own bucket has not is in no bucket -/
theorem absent (h : m.Ordered) {k : ModeKey} (hk : ∀ x ∈ m.buckets.get k.bucket, x.key ≠ k) :
    ∀ x ∈ m.entries, x.key ≠ k := by
  intro x hx hkey
  obtain ⟨i, hi⟩ := (m.mem_entries x).1 hx
  have hplace := h.placed i x hi
  rw [hkey] at hplace
  subst hplace
  exact hk x hi hkey

theorem setBucket (h : m.Ordered) (i : Fin 97) {es : List ModeEntry}
    (hes : (es.map (·.key)).Perm ((m.buckets.get i).map (·.key))) : (m.setBucket i es).Ordered := by
  obtain ⟨front, back, hbefore, hafter⟩ := m.exists_entries i
  have hperm : ((m.setBucket i es).entries.map (·.key)).Perm (m.entries.map (·.key)) := by
    rw [hbefore, hafter]
    simp only [List.map_append]
    exact (hes.append_left _).append_right _
  refine ⟨hperm.nodup_iff.2 h.distinct, ?_, ?_, h.bounded⟩
  · intro j e he
    rw [get_setBucket] at he
    split_ifs at he with hj
    · obtain ⟨x, hx, hkey⟩ := List.mem_map.1 (hes.mem_iff.1 (List.mem_map_of_mem he))
      rw [hj, ← hkey]
      exact h.placed i x hx
    · exact h.placed j e he
  · have hlength := hperm.length_eq
    rw [List.length_map, List.length_map] at hlength
    rw [hlength]
    exact h.length

theorem insertNew (h : m.Ordered) {k : ModeKey} (hk : ∀ x ∈ m.entries, x.key ≠ k) (hroom : m.length < capacity) :
    (m.insertNew k).Ordered := by
  obtain ⟨front, back, hbefore, hafter⟩ := m.exists_entries k.bucket
  have hperm : (m.insertNew k).entries.Perm (ModeEntry.ofKey k :: m.entries) := by
    show (m.setBucket k.bucket _).entries.Perm _
    rw [hbefore, hafter]
    simp only [List.append_assoc, List.cons_append]
    exact List.perm_middle
  refine ⟨?_, ?_, ?_, hroom⟩
  · rw [(hperm.map _).nodup_iff, List.map_cons, List.nodup_cons]
    refine ⟨fun hmem => ?_, h.distinct⟩
    obtain ⟨x, hx, hkey⟩ := List.mem_map.1 hmem
    exact hk x hx hkey
  · intro j e he
    have hset : (m.insertNew k).buckets.get j = if j = k.bucket then _ else m.buckets.get j := m.get_setBucket k.bucket j _
    rw [hset] at he
    split_ifs at he with hj
    · rcases List.mem_cons.1 he with rfl | he
      · exact hj.symm
      · rw [hj]
        exact h.placed k.bucket e he
    · exact h.placed j e he
  · rw [hperm.length_eq, List.length_cons, ← h.length]
    rfl

theorem fetch (h : m.Ordered) (k : ModeKey) : (m.fetch k).1.Ordered := by
  unfold ModeCache.fetch
  split
  next e others ht => exact h.setBucket k.bucket ((perm_takeKey ht).map _)
  next ht =>
    split_ifs with hfull
    · exact ⟨h.distinct, h.placed, h.length, h.bounded⟩
    · exact h.insertNew (h.absent (takeKey_eq_none_iff.1 ht)) (Nat.lt_of_not_le hfull)

theorem credit (h : m.Ordered) (k : ModeKey) (pixels : Nat) : (m.credit k pixels).Ordered := by
  unfold ModeCache.credit
  split
  next => exact h
  next e rest hb =>
    split_ifs
    · have hbucket : m.buckets.get k.bucket = e :: rest := hb
      refine h.setBucket k.bucket ?_
      rw [hbucket]
      exact List.Perm.refl _
    · exact h

/-- a key that was there before: its entry comes to the front of its bucket, as it was -/
theorem fetch_of_mem (h : m.Ordered) {k : ModeKey} {x : ModeEntry} (hx : x ∈ m.entries) (hk : x.key = k) :
    m.fetch k = (m.setBucket k.bucket (x :: (m.buckets.get k.bucket).filter (·.key ≠ k)), some x) := by
  have hin : x ∈ m.buckets.get k.bucket := by
    obtain ⟨i, hi⟩ := (m.mem_entries x).1 hx
    have hplace := h.placed i x hi
    rw [hk] at hplace
    subst hplace
    exact hi
  have hnodup : ((m.buckets.get k.bucket).map (·.key)).Nodup := by
    obtain ⟨front, back, hentries, -⟩ := m.exists_entries k.bucket
    have hall := h.distinct
    rw [hentries, List.map_append, List.map_append] at hall
    exact (List.nodup_append.1 (List.nodup_append.1 hall).1).2.1
  cases ht : takeKey k m.buckets[k.bucket] with
  | none => exact absurd hk (takeKey_eq_none_iff.1 ht x hin)
  | some found =>
    obtain ⟨e, others⟩ := found
    have he : e ∈ m.buckets.get k.bucket := mem_of_takeKey ht e List.mem_cons_self
    have hsame : e = x := List.inj_on_of_nodup_map hnodup he hin ((key_takeKey others ht).trans hk.symm)
    have hothers : others = (m.buckets.get k.bucket).filter (·.key ≠ k) := others_takeKey ht hnodup
    rw [ModeCache.fetch, ht, hothers, hsame]

end Ordered

/-- a new key: a new entry in front of its bucket, or none if there is no room -/
theorem fetch_of_absent {m : ModeCache} {k : ModeKey} (hk : ∀ x ∈ m.entries, x.key ≠ k) :
    m.fetch k = if capacity ≤ m.length then ({ m with warned := true }, none)
      else (m.insertNew k, some (ModeEntry.ofKey k)) := by
  have hnone : takeKey k m.buckets[k.bucket] = none :=
    takeKey_eq_none_iff.2 fun x hx => hk x ((m.mem_entries x).2 ⟨k.bucket, hx⟩)
  rw [fetch, hnone]

/-- every cache is ordered -/
theorem Reachable.ordered {m : ModeCache} (h : m.Reachable) : m.Ordered := by
  induction h with
  | empty =>
    have hnone : ModeCache.empty.entries = [] := by decide
    refine ⟨by rw [hnone]; exact List.nodup_nil, ?_, by rw [hnone]; rfl, Nat.zero_le _⟩
    intro i e he
    have hmem := (ModeCache.empty.mem_entries e).2 ⟨i, he⟩
    rw [hnone] at hmem
    cases hmem
  | fetch m k _ ih => exact ih.fetch k
  | credit m k pixels _ ih => exact ih.credit k pixels

/-- **The cache is a map of at most 1024 keys.** After any look-ups from the empty cache on, with triangles counted in
between, no key comes twice, every entry lies in the bucket of its key and holds the combine units decoded from it, and
the length is the number of entries, 1024 at most. A look-up finds no entry exactly when the key is new and the cache is
full, and then only the warning is marked. Otherwise the entry with the key, as it was left if it was there and a fresh
one if not, is in front of its bucket; the other entries of the bucket follow in the order that they had, the other
buckets stay as they were, and so does the mark. -/
theorem bounded_map {m : ModeCache} (h : m.Reachable) :
    (m.entries.map (·.key)).Nodup ∧ (∀ i : Fin 97, ∀ e ∈ m.buckets.get i, e.key.bucket = i) ∧
      m.length = m.entries.length ∧ m.length ≤ 1024 ∧ (∀ e ∈ m.entries, e.Decoded) ∧
      ∀ k : ModeKey,
        ((m.fetch k).2 = none ↔ (∀ x ∈ m.entries, x.key ≠ k) ∧ m.length = 1024) ∧
        ((m.fetch k).2 = none → (m.fetch k).1 = { m with warned := true }) ∧
        ∀ e, (m.fetch k).2 = some e →
          e.key = k ∧ (∀ x ∈ m.entries, x.key = k → e = x) ∧
          ((∀ x ∈ m.entries, x.key ≠ k) → e = ModeEntry.ofKey k) ∧
          (m.fetch k).1.buckets.get k.bucket = e :: (m.buckets.get k.bucket).filter (·.key ≠ k) ∧
          (∀ i : Fin 97, i ≠ k.bucket → (m.fetch k).1.buckets.get i = m.buckets.get i) ∧
          (m.fetch k).1.warned = m.warned := by
  have ho := h.ordered
  refine ⟨ho.distinct, ho.placed, ho.length, ho.bounded, ?_, fun k => ?_⟩
  · intro e he
    obtain ⟨i, hi⟩ := (m.mem_entries e).1 he
    exact h.decoded m i.val i.isLt e hi
  by_cases hold : ∃ x ∈ m.entries, x.key = k
  · obtain ⟨x, hx, hk⟩ := hold
    have hfetch := ho.fetch_of_mem hx hk
    have hnew : ¬∀ x ∈ m.entries, x.key ≠ k := fun hall => hall x hx hk
    rw [hfetch]
    refine ⟨iff_of_false (Option.some_ne_none x) fun hfull => hnew hfull.1, fun hnone => ?_, fun e he => ?_⟩
    · cases hnone
    · cases he
      refine ⟨hk, fun y hy hyk => ?_, fun hall => absurd hall hnew, ?_, fun i hi => ?_, rfl⟩
      · exact List.inj_on_of_nodup_map ho.distinct hx hy (hk.trans hyk.symm)
      · rw [get_setBucket, if_pos rfl]
      · rw [get_setBucket, if_neg hi]
  have hnew : ∀ x ∈ m.entries, x.key ≠ k := fun x hx hk => hold ⟨x, hx, hk⟩
  rw [fetch_of_absent hnew]
  rcases Nat.lt_or_ge m.length capacity with hroom | hfull
  · rw [if_neg (Nat.not_le_of_lt hroom)]
    refine ⟨iff_of_false (Option.some_ne_none _) fun hfull => absurd hfull.2 (Nat.ne_of_lt hroom), fun hnone => ?_,
      fun e he => ?_⟩
    · cases hnone
    · cases he
      refine ⟨rfl, fun x hx hk => absurd hk (hnew x hx), fun _ => rfl, ?_, fun i hi => ?_, rfl⟩
      · have hother : (m.buckets.get k.bucket).filter (·.key ≠ k) = m.buckets.get k.bucket :=
          List.filter_eq_self.2 fun x hx => decide_eq_true (hnew x ((m.mem_entries x).2 ⟨k.bucket, hx⟩))
        rw [hother]
        exact (m.get_setBucket k.bucket k.bucket _).trans (if_pos rfl)
      · exact (m.get_setBucket k.bucket i _).trans (if_neg hi)
  · rw [if_pos hfull]
    refine ⟨iff_of_true rfl ⟨hnew, Nat.le_antisymm ho.bounded hfull⟩, fun _ => rfl, fun e he => ?_⟩
    cases he

/-- two keys of one bucket, with a triangle of six pixels counted for the first one before the second one came -/
theorem bounded_map_moved :
    let a : ModeKey := ⟨0, 0, 0, 0, 0, 0⟩
    let b : ModeKey := ⟨97, 0, 0, 0, 0, 0⟩
    let m := (((empty.fetch a).1.credit a 6).fetch b).1
    m.Reachable ∧ a.bucket = b.bucket ∧ m.buckets.get a.bucket = [ModeEntry.ofKey b, (ModeEntry.ofKey a).credit 6] ∧
      (m.fetch a).2 = some ((ModeEntry.ofKey a).credit 6) ∧
      (m.fetch a).1.buckets.get a.bucket = [(ModeEntry.ofKey a).credit 6, ModeEntry.ofKey b] := by
  intro a b m
  have hm : m.Reachable := .fetch _ b (.credit _ a 6 (.fetch _ a .empty))
  have hbucket : m.buckets.get a.bucket = [ModeEntry.ofKey b, (ModeEntry.ofKey a).credit 6] := by decide +kernel
  have hfound : (m.fetch a).2 = some ((ModeEntry.ofKey a).credit 6) := by decide +kernel
  obtain ⟨-, -, -, -, -, hfetch⟩ := bounded_map hm
  obtain ⟨-, -, -, hfront, -⟩ := (hfetch a).2.2 _ hfound
  refine ⟨hm, by decide +kernel, hbucket, hfound, ?_⟩
  rw [hfront, hbucket]
  decide +kernel

end Accel3D.ModeCache
