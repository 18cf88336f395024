/-
Every pixel is accounted for.

A pixel enters, its color is judged, and it is stored or not. Whichever way it goes, it is counted once on the way in
and once on the way out, under the test that rejects it or as drawn (`Pipeline.outcome`). It changes the memory only
when it is drawn, and then only the halfwords of its own place in the buffers that the rules have written
(`Pipeline.written`). What holds of one pixel holds of a row of them and of a triangle: as many pixels go in as come
out one way or another, and that is the number of pixels that the triangle covers.

Results: `conserves_drawColored` (one pixel), `gains_draw` (a triangle), `coverage_lt` (the number of pixels of a
triangle fits in a word), `pixel_conservation` (all of it).
-/
import Accel3D.Proofs.Shape

namespace Accel3D

/-! ## Counters -/

namespace Counters

/-- the counter of an outcome: of pixels drawn, or of those that a test rejected -/
def count (c : Counters) : Option Reject → UInt32
  | none => c.pixelsOut
  | some .clipped => c.clipped
  | some .stippled => c.stippled
  | some .depth => c.depthFail
  | some .chroma => c.chromaFail
  | some .alpha => c.alphaFail

def tally (c : Counters) : Option Reject → Counters
  | none => c.drawn 1
  | some r => c.reject r

theorem count_tally (c : Counters) (o o' : Option Reject) :
    (c.tally o).count o' = c.count o' + if o' = o then 1 else 0 := by
  have hreject : ∀ r s, (c.reject r).count (some s) = c.count (some s) + if s = r then 1 else 0 := fun r s => by
    cases r <;> cases s <;> simp [reject, count]
  cases o with
  | none => cases o' with
    | none => rfl
    | some s => cases s <;> simp [tally, drawn, count]
  | some r => cases o' with
    | none => cases r <;> simp [tally, reject, count]
    | some s => simpa [tally] using hreject r s

theorem pixelsIn_tally (c : Counters) (o : Option Reject) : (c.tally o).pixelsIn = c.pixelsIn := by
  cases o with
  | none => rfl
  | some r => exact pixelsIn_reject c r

theorem outcomes_tally (c : Counters) (o : Option Reject) : (c.tally o).outcomes = c.outcomes + 1 := by
  cases o with
  | none => simp only [tally, drawn, outcomes]; ac_rfl
  | some r => exact outcomes_reject c r

/-- as many pixels more on the way in as on the way out -/
structure Gains (before after : Counters) (n : Nat) : Prop where
  entered : after.pixelsIn = before.pixelsIn + UInt32.ofNat n
  accounted : after.outcomes = before.outcomes + UInt32.ofNat n

theorem Gains.none (c : Counters) : c.Gains c 0 := ⟨(UInt32.add_zero _).symm, (UInt32.add_zero _).symm⟩

theorem Gains.trans {a b c : Counters} {m n : Nat} (h : a.Gains b m) (h' : b.Gains c n) : a.Gains c (m + n) where
  entered := by rw [h'.entered, h.entered, UInt32.ofNat_add, UInt32.add_assoc]
  accounted := by rw [h'.accounted, h.accounted, UInt32.ofNat_add, UInt32.add_assoc]

theorem gains_enter_tally (c : Counters) (o : Option Reject) : c.Gains (c.enter.tally o) 1 where
  entered := pixelsIn_tally c.enter o
  accounted := outcomes_tally c.enter o

end Counters

/-! ## Memory -/

namespace Memory

/-- the two bytes of a halfword -/
def halfword (address : UInt32) : List UInt32 := [address, address + 1]

theorem read8_write16_of_ne (m : Memory) (address a : UInt32) (v : UInt16)
    (h : ∀ b ∈ halfword address, m.index a ≠ m.index b) : (m.write16 address v).read8 a = m.read8 a := by
  have h0 := h address List.mem_cons_self
  have h1 := h (address + 1) (List.mem_cons_of_mem _ List.mem_cons_self)
  rw [write16, read8_write8, index_write8, index_write8, if_neg h1.symm, read8_write8, if_neg h0.symm]

theorem index_write16 (m : Memory) (address a : UInt32) (v : UInt16) : (m.write16 address v).index a = m.index a := by
  rw [write16, index_write8, index_write8]

end Memory

namespace Pipeline

/-! ## One pixel -/

/-- a pixel whose color is judged once it has entered -/
def drawColored (p : Pipeline) (pos : PixelPosition) (dither : Dither) (f : Fragment) (verdict : Except Reject Argb)
    (c : Canvas) : Canvas :=
  match p.enter pos f c with
  | (c, none) => c
  | (c, some depth) =>
    match c.judge verdict with
    | (c, none) => c
    | (c, some color) => p.settle pos dither depth color f c

theorem drawGiven_eq (p : Pipeline) (pos : PixelPosition) (dither : Dither) (f : Fragment) (c : Canvas) :
    p.drawGiven pos dither f c = p.drawColored pos dither f (p.rules.testColor f.color) c := rfl

/-- the test that rejects a pixel, if one does -/
def outcome (p : Pipeline) (pos : PixelPosition) (f : Fragment) (verdict : Except Reject Argb) (c : Canvas) :
    Option Reject :=
  match (p.entry c pos f).2, verdict with
  | .error r, _ => some r
  | .ok _, .error r => some r
  | .ok _, .ok _ => none

/-- the bytes that a drawn pixel writes: its halfwords in the color and the aux buffer, if those are written -/
def written (p : Pipeline) (pos : PixelPosition) : List UInt32 :=
  (if p.rules.frame.writeColor then Memory.halfword (p.surface.color pos.x pos.screenY) else []) ++
    if p.rules.frame.writeAux then ((p.surface.aux pos.x pos.screenY).map Memory.halfword).getD [] else []

/-- what a pixel at a place may do: count once on the way in and once as its outcome, and write its own halfwords if it
is drawn -/
structure Conserves (p : Pipeline) (pos : PixelPosition) (outcome : Option Reject) (before after : Canvas) : Prop where
  entered : after.counters.pixelsIn = before.counters.pixelsIn + 1
  counted : ∀ o, after.counters.count o = before.counters.count o + if o = outcome then 1 else 0
  unchanged : outcome ≠ none → after.memory = before.memory
  size : after.memory.size = before.memory.size
  framed : ∀ a, (∀ b ∈ p.written pos, before.memory.index a ≠ before.memory.index b) →
    after.memory.read8 a = before.memory.read8 a

variable (p : Pipeline) (pos : PixelPosition) (dither : Dither) (f : Fragment) (verdict : Except Reject Argb)
  (c : Canvas)

theorem read8_settle (depth : PixelDepth) (color : Argb) (a : UInt32)
    (h : ∀ b ∈ p.written pos, c.memory.index a ≠ c.memory.index b) :
    (p.settle pos dither depth color f c).memory.read8 a = c.memory.read8 a := by
  have hcolor : ∀ v, (p.writeColor pos v c.memory).read8 a = c.memory.read8 a := fun v => by
    unfold writeColor
    split
    · rename_i hw
      exact Memory.read8_write16_of_ne _ _ _ _ fun b hb => h b (by simp [written, hw, hb])
    · rfl
  have hindex : ∀ v b, (p.writeColor pos v c.memory).index b = c.memory.index b := fun v b => by
    unfold writeColor
    split
    · exact Memory.index_write16 ..
    · rfl
  simp only [settle]
  generalize dither.quantize _ _ _ _ = v
  generalize UInt16.ofInt _ = w
  rw [← hcolor v, writeAux]
  split
  · rename_i hw
    split
    · rfl
    · rename_i address haddress
      refine Memory.read8_write16_of_ne _ _ _ _ fun b hb => ?_
      rw [hindex, hindex]
      exact h b (by simp [written, hw, haddress, hb])
  · rfl

/-- what becomes of the counters and, if a test rejects the pixel, of the memory -/
theorem counters_drawColored :
    (p.drawColored pos dither f verdict c).counters = c.counters.enter.tally (p.outcome pos f verdict c) := by
  unfold drawColored enter outcome
  generalize p.entry c pos f = entered
  obtain ⟨stipple, _ | depth⟩ := entered
  · rfl
  · cases verdict with
    | error r => rfl
    | ok color => rfl

theorem memory_drawColored_cases :
    p.outcome pos f verdict c ≠ none ∧ (p.drawColored pos dither f verdict c).memory = c.memory ∨
    p.outcome pos f verdict c = none ∧ ∃ depth color d, d.memory = c.memory ∧
      p.drawColored pos dither f verdict c = p.settle pos dither depth color f d := by
  unfold drawColored enter outcome
  generalize p.entry c pos f = entered
  obtain ⟨stipple, r | depth⟩ := entered
  · exact .inl ⟨Option.some_ne_none r, rfl⟩
  · cases verdict with
    | error r => exact .inl ⟨Option.some_ne_none r, rfl⟩
    | ok color => exact .inr ⟨rfl, depth, color, { c with counters := c.counters.enter, stipple := stipple }, rfl, rfl⟩

theorem size_settle (depth : PixelDepth) (color : Argb) :
    (p.settle pos dither depth color f c).memory.size = c.memory.size := by
  have h := (p.keeps_logSize c.memory.logSize).settle pos dither depth color f c rfl
  rw [Memory.size, Memory.size, Memory.size_eq, Memory.size_eq, h]

/-- **One pixel is conserved,** whatever judges its color. -/
theorem conserves_drawColored :
    p.Conserves pos (p.outcome pos f verdict c) c (p.drawColored pos dither f verdict c) where
  entered := by rw [counters_drawColored, Counters.pixelsIn_tally]; rfl
  counted o := by
    rw [counters_drawColored, Counters.count_tally]
    cases o with
    | none => rfl
    | some r => cases r <;> rfl
  unchanged h := by
    obtain ⟨-, hm⟩ | ⟨hnone, -⟩ := p.memory_drawColored_cases pos dither f verdict c
    · exact hm
    · exact absurd hnone h
  size := by
    obtain ⟨-, hm⟩ | ⟨-, depth, color, d, hd, e⟩ := p.memory_drawColored_cases pos dither f verdict c
    · rw [hm]
    · rw [e, size_settle, hd]
  framed a h := by
    obtain ⟨-, hm⟩ | ⟨-, depth, color, d, hd, e⟩ := p.memory_drawColored_cases pos dither f verdict c
    · rw [hm]
    · rw [← hd] at h ⊢
      rw [e, read8_settle p pos dither f d depth color a h]

end Pipeline

/-! ## A triangle -/

namespace Raster

theorem drawPixel_eq (r : Raster) (x y : Int) (dither : Dither) (i : Iterators) (c : Canvas) :
    r.drawPixel x y dither i c =
      r.pipeline.drawColored ⟨x, y, screenRow r.flip y⟩ dither (r.fragment i)
        (r.pipeline.rules.colorOf (r.fragment i) (r.texel x dither i.coords)) c := rfl

theorem gains_drawPixel (r : Raster) (x y : Int) (dither : Dither) (i : Iterators) (c : Canvas) :
    c.counters.Gains (r.drawPixel x y dither i c).counters 1 := by
  rw [drawPixel_eq, Pipeline.counters_drawColored]
  exact Counters.gains_enter_tally _ _

theorem gains_drawRun (r : Raster) (y : Int) (dither : Dither) (n : Nat) (x : Int) (i : Iterators) (c : Canvas) :
    c.counters.Gains (r.drawRun y dither n x i c).counters n := by
  induction n generalizing x i c with
  | zero => exact .none _
  | succ n ih =>
    have h := (r.gains_drawPixel x y dither i c).trans (ih (x + 1) (r.step i) (r.drawPixel x y dither i c))
    rwa [Nat.add_comm 1 n] at h

/-- **A triangle counts as many pixels in, and out one way or another, as it covers.** -/
theorem gains_draw (r : Raster) (c : Canvas) : c.counters.Gains (r.draw c).counters r.pixelCount := by
  unfold draw pixelCount
  induction r.spans generalizing c with
  | nil => exact .none _
  | cons s spans ih => exact (r.gains_drawRun _ _ _ _ _ c).trans (ih _)

end Raster

/-! ### The number of its pixels -/

namespace Edge

theorem natAbs_step_le (top bottom : Vertex) (y : Int) (h : top.y.toInt ≤ y) (h' : y ≤ bottom.y.toInt) :
    ((y - top.y.toInt) * (between top bottom).slope).natAbs ≤ ((bottom.x.toInt - top.x.toInt) * 65536).natAbs := by
  rw [Int.natAbs_mul]
  unfold between
  simp only
  split
  · exact Nat.zero_le _
  · rw [Int.natAbs_tdiv]
    have hy : (y - top.y.toInt).natAbs ≤ (bottom.y.toInt - top.y.toInt).natAbs := by omega
    exact Nat.le_trans (Nat.mul_le_mul_right _ hy) (Nat.mul_div_le _ _)

theorem xAt_bounds (top bottom : Vertex) (y : Int) (h : top.y.toInt ≤ y) (h' : y ≤ bottom.y.toInt) :
    -98304 ≤ (between top bottom).xAt y ∧ (between top bottom).xAt y ≤ 98304 := by
  have hstep := natAbs_step_le top bottom y h h'
  have htop := And.intro top.x.le_toInt top.x.toInt_lt
  have hbottom := And.intro bottom.x.le_toInt bottom.x.toInt_lt
  show -98304 ≤ top.x.toInt + (y - top.y.toInt) * (between top bottom).slope / 65536 ∧
    top.x.toInt + (y - top.y.toInt) * (between top bottom).slope / 65536 ≤ 98304
  generalize (y - top.y.toInt) * (between top bottom).slope = moved at hstep ⊢
  omega

end Edge

theorem width_spanBetween_le (long short : Edge) (y : Int)
    (hl : -98304 ≤ long.xAt (16 * y + 8) ∧ long.xAt (16 * y + 8) ≤ 98304)
    (hs : -98304 ≤ short.xAt (16 * y + 8) ∧ short.xAt (16 * y + 8) ≤ 98304) :
    (spanBetween long short y).width ≤ 12288 := by
  simp only [spanBetween, Span.width, pixelCeil]
  omega

theorem length_triangleSpans_le (a b c : Vertex) : (triangleSpans a b c).length ≤ 4097 := by
  unfold triangleSpans
  obtain ⟨top, middle, bottom⟩ := sortByY a b c
  have htop := And.intro top.y.le_toInt top.y.toInt_lt
  have hbottom := And.intro bottom.y.le_toInt bottom.y.toInt_lt
  simp only [List.length_map, List.length_range, pixelCeil]
  omega

/-- the sample line of each row lies between the highest and the lowest vertex, so its two edges are those of the row -/
theorem width_triangleSpans_le (a b c : Vertex) (s : Span) (h : s ∈ triangleSpans a b c) : s.width ≤ 12288 := by
  unfold triangleSpans at h
  generalize sortByY a b c = sorted at h
  obtain ⟨top, middle, bottom⟩ := sorted
  obtain ⟨i, hi, rfl⟩ := List.mem_map.1 h
  have hrow := List.mem_range.1 hi
  have hlow : top.y.toInt ≤ 16 * (pixelCeil top.y.toInt + i) + 8 := by
    unfold pixelCeil
    omega
  have hhigh : 16 * (pixelCeil top.y.toInt + i) + 8 ≤ bottom.y.toInt := by
    unfold pixelCeil at hrow ⊢
    omega
  refine width_spanBetween_le _ _ _ (Edge.xAt_bounds top bottom _ hlow hhigh) ?_
  split
  · exact Edge.xAt_bounds top middle _ hlow (by omega)
  · exact Edge.xAt_bounds middle bottom _ (by omega) hhigh

theorem coverage_le (n : Nat) (spans : List Span) (h : ∀ s ∈ spans, s.width ≤ n) :
    coverage spans ≤ spans.length * n := by
  induction spans with
  | nil => exact Nat.zero_le _
  | cons s spans ih =>
    have hrest := ih fun t ht => h t (List.mem_cons_of_mem s ht)
    have hfirst := h s List.mem_cons_self
    simp only [coverage, List.map_cons, List.sum_cons, List.length_cons, Nat.succ_mul] at hrest ⊢
    omega

/-- **The number of pixels of a triangle fits in a word.** -/
theorem coverage_lt (a b c : Vertex) : coverage (triangleSpans a b c) < 2 ^ 32 := by
  have hsum := coverage_le 12288 (triangleSpans a b c) (width_triangleSpans_le a b c)
  have hrows := length_triangleSpans_le a b c
  omega

/-! ## All pixels -/

/-- **Every pixel is accounted for.** Of every pixel, its color looked up or given: one counter of the six outcomes
goes up by one, and that of the pixels on the way in; the memory changes only if the outcome is that it is drawn, and
then only in the halfwords that it writes. Of every triangle: each of its pixels is such a pixel, and their number, a
word, is what both the pixels on the way in and those on the way out go up by. -/
theorem pixel_conservation :
    (∀ (p : Pipeline) (pos : PixelPosition) (dither : Dither) (f : Fragment) (c : Canvas),
      (∀ texel, p.Conserves pos (p.outcome pos f (p.rules.colorOf f texel) c) c
        (p.drawColored pos dither f (p.rules.colorOf f texel) c)) ∧
      (∀ color, p.Conserves pos (p.outcome pos f (p.rules.testColor color) c) c
        (p.drawColored pos dither f (p.rules.testColor color) c)) ∧
      p.Conserves pos (p.outcome pos f (p.rules.testColor f.color) c) c (p.drawGiven pos dither f c)) ∧
    ∀ (r : Raster) (c : Canvas),
      (∀ x y dither i, ∃ o, r.pipeline.Conserves ⟨x, y, screenRow r.flip y⟩ o c (r.drawPixel x y dither i c)) ∧
      (UInt32.ofNat r.pixelCount).toNat = r.pixelCount ∧
      (r.draw c).counters.pixelsIn - c.counters.pixelsIn = UInt32.ofNat r.pixelCount ∧
      (r.draw c).counters.outcomes - c.counters.outcomes = UInt32.ofNat r.pixelCount := by
  refine ⟨fun p pos dither f c => ⟨fun texel => ?_, fun color => ?_, ?_⟩,
    fun r c => ⟨fun x y dither i => ?_, ?_, ?_, ?_⟩⟩
  · exact p.conserves_drawColored pos dither f _ c
  · exact p.conserves_drawColored pos dither f _ c
  · rw [p.drawGiven_eq pos dither f c]
    exact p.conserves_drawColored pos dither f _ c
  · rw [r.drawPixel_eq x y dither i c]
    exact ⟨_, r.pipeline.conserves_drawColored _ dither _ _ c⟩
  · exact UInt32.toNat_ofNat_of_lt' (coverage_lt r.triangle.a r.triangle.b r.triangle.c)
  · rw [(r.gains_draw c).entered, UInt32.add_comm, UInt32.add_sub_cancel]
  · rw [(r.gains_draw c).accounted, UInt32.add_comm, UInt32.add_sub_cancel]

end Accel3D
