/-
The stipple register through all drawing.

Under a rotating stipple every pixel that is not clipped turns the stipple register by one bit and passes if the bit
that comes to the top is set; a clipped pixel turns nothing. So the register after a primitive is the one before, turned
by the number of pixels that are not clipped, and the results of the test are the bits of the old register in turn. The
register is written back, and nothing but drawing and storing in it changes it, so it is turned on and on from one
primitive to the next, by triangles and linear writes alike.

Results: `drawJudged_rotating` (one pixel), `Primitive.threads` (a primitive), `stipple_act` (an action),
`stipple_foldl` (any actions), `stipple_threading` (all of it).
-/
import Accel3D.Proofs.BusOrder
import Accel3D.Proofs.FilledRectangle
import Accel3D.Proofs.Primitive

namespace Accel3D

/-! ## Rotation -/

def rotated (w : UInt32) (n : Nat) : UInt32 := ⟨w.toBitVec.rotateLeft n⟩

theorem bit_rotated (w : UInt32) (n : Nat) {i : Nat} (hi : i < 32) :
    bit (rotated w n) i = bit w ((i + (32 - n % 32)) % 32) := by
  have hbit : ∀ (v : UInt32) j, bit v j = v.toBitVec.getLsbD j := fun _ _ => rfl
  simp only [hbit, rotated, BitVec.getLsbD_rotateLeft]
  have hn : n % 32 < 32 := Nat.mod_lt _ (by omega)
  by_cases hlow : i < n % 32
  · have hplace : (i + (32 - n % 32)) % 32 = 32 - n % 32 + i := by omega
    simp [hlow, hplace]
  · have hplace : (i + (32 - n % 32)) % 32 = i - n % 32 := by omega
    simp [hlow, hplace, hi]

theorem rotated_zero (w : UInt32) : rotated w 0 = w := by
  apply word_ext
  intro i hi
  rw [bit_rotated w 0 hi]
  congr 1
  omega

theorem rotated_rotated (w : UInt32) (m n : Nat) : rotated (rotated w m) n = rotated w (m + n) := by
  apply word_ext
  intro i hi
  rw [bit_rotated _ n hi, bit_rotated w m (Nat.mod_lt _ (by omega)), bit_rotated w (m + n) hi]
  congr 1
  omega

theorem rotateOne_eq (w : UInt32) : rotateOne w = rotated w 1 := by
  apply word_ext
  intro i hi
  have h1 : (1 : UInt32).toNat = 1 := rfl
  have h31 : (31 : UInt32).toNat = 31 := rfl
  rw [bit_rotated w 1 hi, rotateOne, bit_or, bit_shl w 1 (by decide) hi, bit_shr w 31 (by decide), h1, h31]
  cases i with
  | zero => simp
  | succ i =>
    have hplace : (i + 1 + (32 - 1 % 32)) % 32 = i := by omega
    rw [bit_of_le w (i := 31 + (i + 1)) (by omega)]
    simp [hplace]

/-- the bits that come to the top: the first, and those of the word that was rotated once -/
theorem map_bit_rotated (w : UInt32) (n : Nat) :
    (List.range (1 + n)).map (fun j => bit (rotated w (j + 1)) 31) =
      bit (rotated w 1) 31 :: (List.range n).map fun j => bit (rotated (rotated w 1) (j + 1)) 31 := by
  rw [Nat.add_comm, List.range_succ_eq_map, List.map_cons, List.map_map]
  congr 1
  refine List.map_congr_left fun j _ => ?_
  rw [rotated_rotated, Nat.add_comm 1]
  rfl

/-! ## One pixel -/

/-- the stipple is on and takes one bit after the other -/
def FrameMode.rotating (m : FrameMode) : Bool := m.stipple && !m.stipplePattern

namespace Pipeline

variable (p : Pipeline)

def clips (d : JudgedPixel) : Bool := p.rules.frame.clipping && !p.rules.clip.contains d.pos.x d.pos.screenY

theorem stipple_drawJudged (c : Canvas) (d : JudgedPixel) :
    (p.drawJudged c d).stipple = (p.entry c d.pos d.values).1 := by
  unfold drawJudged drawColored enter
  generalize p.entry c d.pos d.values = entered
  obtain ⟨stipple, r | depth⟩ := entered
  · rfl
  · cases d.verdict <;> rfl

/-- only the tests on the way in clip and stipple -/
theorem judgedOutcome_eq_iff (c : Canvas) (d : JudgedPixel) {r : Reject} (hr : r.isOfColor = false) :
    p.judgedOutcome c d = some r ↔ (p.entry c d.pos d.values).2 = .error r := by
  unfold judgedOutcome outcome
  generalize (p.entry c d.pos d.values).2 = entered
  cases entered with
  | error s => simp
  | ok depth =>
    cases hverdict : d.verdict with
    | ok color => simp
    | error s =>
      have hcolor := d.judged s hverdict
      have hne : s ≠ r := by
        rintro rfl
        rw [hr] at hcolor
        cases hcolor
      simp [hne]

/-- a clipped pixel is turned away before it is stippled -/
theorem entry_clipped (c : Canvas) (d : JudgedPixel) (h : p.clips d = true) :
    p.entry c d.pos d.values = (c.stipple, .error .clipped) := by
  unfold clips at h
  simp only [entry, h, if_true]

theorem entry_unclipped (c : Canvas) (d : JudgedPixel) (h : p.clips d = false) :
    (p.entry c d.pos d.values).1 = (p.rules.stippleTest c.stipple d.pos.x d.pos.y).1 ∧
      (p.entry c d.pos d.values).2 ≠ .error .clipped ∧
      ((p.entry c d.pos d.values).2 = .error .stippled ↔
        (p.rules.stippleTest c.stipple d.pos.x d.pos.y).2 = false) := by
  unfold clips at h
  simp only [entry, h, Bool.false_eq_true, if_false]
  generalize p.rules.stippleTest c.stipple d.pos.x d.pos.y = tested
  obtain ⟨stipple, passes⟩ := tested
  cases passes with
  | false => simp
  | true =>
    simp only [Bool.not_true, Bool.false_eq_true, if_false]
    generalize p.rules.depthPasses _ _ = deep
    cases deep <;> simp

theorem judgedOutcome_clipped (c : Canvas) (d : JudgedPixel) :
    p.judgedOutcome c d = some .clipped ↔ p.clips d = true := by
  rw [judgedOutcome_eq_iff p c d rfl]
  cases h : p.clips d with
  | true => simp [entry_clipped p c d h]
  | false => simp [(entry_unclipped p c d h).2.1]

variable {p}

theorem drawJudged_still (h : p.rules.frame.rotating = false) (c : Canvas) (d : JudgedPixel) :
    (p.drawJudged c d).stipple = c.stipple := by
  rw [stipple_drawJudged]
  cases hclips : p.clips d with
  | true => rw [entry_clipped p c d hclips]
  | false =>
    rw [(entry_unclipped p c d hclips).1, PixelRules.stippleTest]
    cases hon : p.rules.frame.stipple with
    | false => rfl
    | true =>
      have hpattern : p.rules.frame.stipplePattern = true := by simpa [FrameMode.rotating, hon] using h
      simp [hpattern]

/-- **One pixel under a rotating stipple.** Unless it is clipped it turns the register by one bit, and is stippled if
the bit that comes to the top is clear. -/
theorem drawJudged_rotating (h : p.rules.frame.rotating = true) (c : Canvas) (d : JudgedPixel) :
    (p.drawJudged c d).stipple = rotated c.stipple (if p.clips d then 0 else 1) ∧
      (p.clips d = false → (p.judgedOutcome c d = some .stippled ↔ bit (rotated c.stipple 1) 31 = false)) := by
  have htest : ∀ x y, p.rules.stippleTest c.stipple x y = (rotated c.stipple 1, bit (rotated c.stipple 1) 31) := by
    intro x y
    obtain ⟨hon, hpattern⟩ := Bool.and_eq_true_iff.1 h
    rw [Bool.not_eq_true'] at hpattern
    simp only [PixelRules.stippleTest, hon, hpattern, Bool.not_true, Bool.false_eq_true, if_false, rotateOne_eq]
  rw [stipple_drawJudged]
  cases hclips : p.clips d with
  | true =>
    rw [entry_clipped p c d hclips]
    simp [rotated_zero]
  | false =>
    obtain ⟨hstipple, -, hstippled⟩ := entry_unclipped p c d hclips
    rw [htest] at hstipple hstippled
    exact ⟨hstipple, fun _ => (judgedOutcome_eq_iff p c d rfl).trans hstippled⟩

/-! ## Pixels one after the other -/

variable (p)

def unclipped (ds : List JudgedPixel) : Nat := ds.countP fun d => !p.clips d

/-- whether each pixel that is not clipped passes the stipple test, in the order of drawing -/
def passes (ds : List JudgedPixel) (c : Canvas) : List Bool :=
  ((p.outcomes ds c).filter (· ≠ some .clipped)).map (· ≠ some .stippled)

theorem unclipped_cons (d : JudgedPixel) (ds : List JudgedPixel) :
    p.unclipped (d :: ds) = (if p.clips d then 0 else 1) + p.unclipped ds := by
  unfold unclipped
  rw [List.countP_cons]
  cases p.clips d <;> simp [Nat.add_comm]

theorem passes_cons (d : JudgedPixel) (ds : List JudgedPixel) (c : Canvas) :
    p.passes (d :: ds) c =
      (if p.clips d then [] else [decide (p.judgedOutcome c d ≠ some .stippled)]) ++
        p.passes ds (p.drawJudged c d) := by
  have houtcome := p.judgedOutcome_clipped c d
  unfold passes
  rw [outcomes, List.filter_cons]
  cases hclips : p.clips d with
  | true => simp [houtcome.2 hclips]
  | false =>
    have hne : p.judgedOutcome c d ≠ some .clipped := fun e => by simp [houtcome.1 e] at hclips
    simp [hne]

theorem count_clipped (ds : List JudgedPixel) (c : Canvas) :
    (p.outcomes ds c).count (some .clipped) + p.unclipped ds = ds.length := by
  induction ds generalizing c with
  | nil => rfl
  | cons d ds ih =>
    have hrest := ih (p.drawJudged c d)
    have houtcome := p.judgedOutcome_clipped c d
    rw [outcomes, unclipped_cons, List.length_cons]
    cases hclips : p.clips d with
    | true =>
      rw [houtcome.2 hclips, List.count_cons_self, if_pos rfl]
      omega
    | false =>
      have hne : p.judgedOutcome c d ≠ some .clipped := fun e => by simp [houtcome.1 e] at hclips
      rw [List.count_cons_of_ne hne, if_neg Bool.false_ne_true]
      omega

/-- the pixels that are stippled are those that do not pass -/
theorem count_stippled (ds : List JudgedPixel) (c : Canvas) :
    (p.outcomes ds c).count (some .stippled) = (p.passes ds c).count false := by
  unfold passes
  generalize p.outcomes ds c = os
  induction os with
  | nil => rfl
  | cons o os ih =>
    by_cases hclipped : o = some .clipped
    · subst hclipped
      simpa using ih
    · by_cases hstippled : o = some .stippled
      · subst hstippled
        simpa using ih
      · simpa [hclipped, hstippled] using ih

variable {p}

theorem stipple_still (h : p.rules.frame.rotating = false) (ds : List JudgedPixel) (c : Canvas) :
    (ds.foldl p.drawJudged c).stipple = c.stipple := by
  induction ds generalizing c with
  | nil => rfl
  | cons d ds ih => exact (ih (p.drawJudged c d)).trans (drawJudged_still h c d)

/-- pixels under a rotating stipple, by induction on them: what is turned before a pixel comes is what the pixels before
it have turned -/
theorem stipple_rotating (h : p.rules.frame.rotating = true) (ds : List JudgedPixel) (c : Canvas) :
    (ds.foldl p.drawJudged c).stipple = rotated c.stipple (p.unclipped ds) ∧
      p.passes ds c = (List.range (p.unclipped ds)).map fun j => bit (rotated c.stipple (j + 1)) 31 := by
  induction ds generalizing c with
  | nil => exact ⟨(rotated_zero _).symm, rfl⟩
  | cons d ds ih =>
    obtain ⟨hturned, hstippled⟩ := drawJudged_rotating h c d
    obtain ⟨hstipple, hpasses⟩ := ih (p.drawJudged c d)
    rw [hturned] at hstipple hpasses
    rw [unclipped_cons, passes_cons]
    cases hclips : p.clips d with
    | true =>
      simp only [hclips, if_true, rotated_zero] at hstipple hpasses
      simp only [if_true, Nat.zero_add, List.nil_append]
      exact ⟨hstipple, hpasses⟩
    | false =>
      simp only [hclips, Bool.false_eq_true, if_false] at hstipple hpasses
      have hfirst : decide (p.judgedOutcome c d ≠ some .stippled) = bit (rotated c.stipple 1) 31 := by
        cases htop : bit (rotated c.stipple 1) 31 <;> simp [hstippled hclips, htop]
      simp only [Bool.false_eq_true, if_false]
      refine ⟨hstipple.trans (rotated_rotated _ _ _), ?_⟩
      rw [map_bit_rotated, hfirst, hpasses]
      rfl

end Pipeline

/-- the pixels that came in between two counts and were not clipped -/
def Counters.unclippedSince (before after : Counters) : Nat :=
  ((after.pixelsIn - before.pixelsIn) - (after.clipped - before.clipped)).toNat

namespace Primitive

variable (t : Primitive)

def unclipped : Nat := t.pipeline.unclipped t.pixels

/-- the counters tell how many pixels were not clipped -/
theorem unclippedSince_draw (hlength : t.pixels.length < 2 ^ 32) (c : Canvas) :
    c.counters.unclippedSince (t.draw c).counters = t.unclipped := by
  obtain ⟨hin, hcount⟩ := t.pipeline.counters_foldl t.pixels c
  have hclipped := hcount (some .clipped)
  have hsum := t.pipeline.count_clipped t.pixels c
  simp only [Counters.count] at hclipped
  rw [Counters.unclippedSince, draw, hin, hclipped, UInt32.add_comm c.counters.pixelsIn, UInt32.add_sub_cancel,
    UInt32.add_comm c.counters.clipped, UInt32.add_sub_cancel, ← hsum, UInt32.ofNat_add, UInt32.add_comm,
    UInt32.add_sub_cancel, unclipped]
  exact UInt32.toNat_ofNat_of_lt' (by have hsize : UInt32.size = 2 ^ 32 := rfl; omega)

end Primitive

/-- what a drawing of `k` pixels that are not clipped, with these results of the stipple test, does under a rotating
stipple -/
structure Canvas.Threads (before after : Canvas) (k : Nat) (passes : List Bool) : Prop where
  register : after.stipple = rotated before.stipple k
  tested : passes = (List.range k).map fun j => bit (rotated before.stipple (j + 1)) 31
  counted : after.counters.stippled = before.counters.stippled + UInt32.ofNat (passes.count false)

/-- **A primitive under a rotating stipple.** -/
theorem Primitive.threads (t : Primitive) (h : t.pipeline.rules.frame.rotating = true) (c : Canvas) :
    c.Threads (t.draw c) t.unclipped (t.pipeline.passes t.pixels c) := by
  obtain ⟨hregister, hpasses⟩ := Pipeline.stipple_rotating h t.pixels c
  refine ⟨hregister, hpasses, ?_⟩
  rw [← t.pipeline.count_stippled]
  exact (t.pipeline.counters_foldl t.pixels c).2 (some .stippled)

/-! ## Actions -/

/-- a direct write takes no part in the stipple -/
theorem LinearWrite.stipple_runDirect (w : LinearWrite) (frame : FrameMode) (surface : Surface) (c : Canvas) :
    (w.runDirect frame surface c).stipple = c.stipple := by
  have hone : ∀ x pixel q (c : Canvas), (storePixel frame surface w.y x pixel q c).stipple = c.stipple := by
    intro x pixel q c
    unfold storePixel
    split <;> rfl
  rw [runDirect, hone, hone]

namespace Chip

variable {c : Chip} {t : Primitive}

/-- an effect that sends nothing through the pipeline leaves the stipple register as it is -/
theorem stipple_run_none {command : Command} (h : c.commandPrimitive? command = none) (select : ChipSelect)
    (data : UInt32) : (c.run command select data).canvas.stipple = c.canvas.stipple := by
  cases command with
  | triangle => exact congrArg Canvas.stipple (canvas_drawTriangle_none h)
  | extendStrip =>
    simp only [commandPrimitive?] at h
    simp only [run]
    rw [extendStrip_eq]
    split_ifs at h ⊢ with hdrawn
    · exact congrArg Canvas.stipple (canvas_drawTriangle_none h)
    · rfl
  | fastFill =>
    have hfill : ∀ f : FastFill, (c.paint f.run).canvas.stipple = c.canvas.stipple := by
      intro f
      rw [canvas_paint, f.run_eq]
    exact hfill _
  | unpackColor =>
    show (SetupVertex.unpackColor c.regs data).get Reg.stipple = c.regs.get Reg.stipple
    simp only [SetupVertex.unpackColor, RegisterFile.get_set]
    rfl
  | vertex n form => simp only [run]; split <;> rfl
  | pixelParameter p term form => simp only [run]; split <;> rfl
  | coordParameter p term form => simp only [run, writeCoord]; split <;> rfl
  | fogTable n => simp only [run]; split <;> rfl
  | _ => rfl

theorem stipple_act_none {a : Action} (h : c.primitive? a = none)
    (hstores : ∀ w, a = .write w → c.storesStipple w = false) :
    (c.act a).canvas.stipple = c.canvas.stipple := by
  cases a with
  | write w =>
    show (c.execute w).canvas.stipple = _
    rw [canvas_execute (hstores w rfl)]
    exact stipple_run_none h _ _
  | linearWrite offset data byteMask =>
    show (c.linearWrite offset data byteMask).canvas.stipple = _
    simp only [primitive?, linearPrimitive?] at h
    rw [canvas_linearWrite]
    split at h
    next hpipeline => rw [Option.map_eq_none_iff.1 h]
    next hdirect =>
      cases c.linearTarget offset data byteMask with
      | none => rfl
      | some target =>
        simp only [linearDraw, hdirect, Bool.false_eq_true, if_false]
        exact LinearWrite.stipple_runDirect _ _ _ _
  | upload i offset data => rfl
  | retrace => rfl
  | endRetrace => rfl

/-! ## Runs -/

/-- by how many bits an action turns the stipple register: one for each pixel that is not clipped under a rotating
stipple -/
def turn (c : Chip) (a : Action) : Nat :=
  match c.primitive? a with
  | none => 0
  | some t => if c.frameMode.rotating then t.unclipped else 0

/-- by how many bits actions turn it -/
def turns (c : Chip) : List Action → Nat
  | [] => 0
  | a :: as => c.turn a + (c.act a).turns as

theorem stipple_act (a : Action) (hstores : ∀ w, a = .write w → c.storesStipple w = false) :
    (c.act a).canvas.stipple = rotated c.canvas.stipple (c.turn a) := by
  unfold turn
  cases h : c.primitive? a with
  | none => rw [stipple_act_none h hstores, rotated_zero]
  | some t =>
    have hframe := (primitive_spec h).1
    rw [canvas_act h]
    cases hrotating : c.frameMode.rotating with
    | true => exact (t.threads (by rw [hframe, hrotating]) c.canvas).register
    | false =>
      rw [Primitive.draw, Pipeline.stipple_still (by rw [hframe, hrotating])]
      exact (rotated_zero _).symm

theorem storesStipple_act (c : Chip) (a : Action) (w : RegisterWrite) :
    (c.act a).storesStipple w = c.storesStipple w := by
  unfold storesStipple reach
  rw [revision_act]

/-- **Actions between two stores in the stipple register** turn it on. -/
theorem stipple_foldl (as : List Action) (hstores : ∀ w, .write w ∈ as → c.storesStipple w = false) :
    (as.foldl act c).canvas.stipple = rotated c.canvas.stipple (c.turns as) := by
  induction as generalizing c with
  | nil => exact (rotated_zero _).symm
  | cons a as ih =>
    have hfirst := stipple_act a fun w hw => hstores w (hw ▸ List.mem_cons_self)
    have hrest := ih (c := c.act a) fun w hw => by
      rw [storesStipple_act]
      exact hstores w (List.mem_cons_of_mem a hw)
    rw [List.foldl_cons, hrest, hfirst, rotated_rotated, turns]

/-- **The stipple register is threaded through all drawing.** Of every action that sends pixels through the pipeline, a
triangle command, a strip command that completes a triangle or a linear write: with `k` the pixels that come in less
those that are clipped, as the counters have it, under a rotating stipple the register is turned by `k` bits, the
results of the stipple test are the bits that come to the top in turn, and as many pixels are counted as stippled as
these bits are clear; with the stipple off or a pattern the register stays. So over every run that stores nothing in the
register, it is turned by as many bits as pixels were not clipped under a rotating stipple. -/
theorem stipple_threading (c : Chip) :
    (∀ a t, c.primitive? a = some t →
      let after := (c.act a).canvas
      let k := c.canvas.counters.unclippedSince after.counters
      after = t.draw c.canvas ∧ k = t.unclipped ∧
        (c.frameMode.rotating = true → c.canvas.Threads after k (t.pipeline.passes t.pixels c.canvas)) ∧
        (c.frameMode.rotating = false → after.stipple = c.canvas.stipple)) ∧
    ∀ calls, (∀ w, .write w ∈ c.history calls → c.storesStipple w = false) →
      (c.runCalls calls).1.regs.get Reg.stipple = rotated (c.regs.get Reg.stipple) (c.turns (c.history calls)) := by
  refine ⟨?_, ?_⟩
  · intro a t h after k
    obtain ⟨hframe, hlength⟩ := primitive_spec h
    have hdrawn : after = t.draw c.canvas := canvas_act h
    have hcounted : k = t.unclipped := by rw [← t.unclippedSince_draw hlength c.canvas, ← hdrawn]
    rw [hcounted, hdrawn]
    refine ⟨rfl, rfl, ?_, ?_⟩
    · intro hrotating
      exact t.threads (by rw [hframe, hrotating]) c.canvas
    · intro hstill
      exact Pipeline.stipple_still (by rw [hframe, hstill]) t.pixels c.canvas
  · intro calls hstores
    obtain ⟨q, hq⟩ := run_eq_foldl c calls
    rw [hq]
    exact stipple_foldl (c.history calls) hstores

/-- a Banshee set up for a triangle of six pixels, one of them clipped, under a rotating stipple that lets the first and
the fourth pixel through -/
def stippledBanshee : Chip :=
  let calls : List Call := [.writeRegister 0x7C 0x100, .writeRegister 0x44 0x205, .writeRegister 0x46 2,
    .writeRegister 0x47 10, .writeRegister 0x45 0x100, .writeRegister 0x50 0x48000000, .writeRegister 0x04 0x40,
    .writeRegister 0x07 0x40]
  ((initial { ChipConfig.standard with revision := .banshee }).runCalls calls).1

/-- the triangle turns the register by five bits, and a linear write of two pixels by two more -/
theorem stipple_threading_banshee :
    let c := stippledBanshee
    let after := (c.act (.write ⟨0x20, 0⟩)).canvas
    c.canvas.counters.unclippedSince after.counters = 5 ∧ after.stipple = rotated 0x48000000 5 ∧
      after.counters.stippled = 3 ∧
      (c.runCalls [.writeRegister 0x20 0, .writeLinear 0 0x07E0F800 0xFFFFFFFF]).1.regs.get Reg.stipple =
        rotated 0x48000000 7 := by
  intro c after
  obtain ⟨hactions, hruns⟩ := c.stipple_threading
  have hbefore : c.canvas.stipple = 0x48000000 := by decide +kernel
  have hrotating : c.frameMode.rotating = true := by decide +kernel
  have hdraws : (c.primitive? (.write ⟨0x20, 0⟩)).isSome = true := by decide +kernel
  have hk : c.canvas.counters.unclippedSince after.counters = 5 := by decide +kernel
  obtain ⟨t, ht⟩ := Option.isSome_iff_exists.1 hdraws
  obtain ⟨-, -, hthreads, -⟩ := hactions _ t ht
  have hthread := hthreads hrotating
  refine ⟨hk, ?_, ?_, ?_⟩
  · rw [← hbefore, ← hk]
    exact hthread.register
  · have hpasses := hthread.tested
    rw [hk, hbefore] at hpasses
    have hcount := hthread.counted
    rw [hpasses] at hcount
    exact hcount.trans (by decide +kernel)
  · have hhistory : c.history [.writeRegister 0x20 0, .writeLinear 0 0x07E0F800 0xFFFFFFFF] =
        [.write ⟨0x20, 0⟩, .linearWrite 0 0x07E0F800 0xFFFFFFFF] := by decide +kernel
    have hstores : c.storesStipple ⟨0x20, 0⟩ = false := by decide +kernel
    have hturns : c.turns [.write ⟨0x20, 0⟩, .linearWrite 0 0x07E0F800 0xFFFFFFFF] = 7 := by decide +kernel
    rw [← hbefore, ← hturns, ← hhistory]
    refine hruns _ ?_
    intro w hw
    rw [hhistory] at hw
    simp only [List.mem_cons, Action.write.injEq, List.not_mem_nil, or_false, reduceCtorEq] at hw
    rw [hw]
    exact hstores

end Chip
end Accel3D
