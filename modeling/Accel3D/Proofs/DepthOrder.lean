/-
The depth buffer does not depend on the order of drawing.

With the depth test on and depths written, a comparison that orders depths keeps, at each place, the nearer or the
farther of the stored depth and a new one. A pixel that the clip rectangle or a test on its color rejects leaves the
place alone whatever is stored there, since none of these looks at the memory. So one pixel turns the depth of its own
place into an extremum and no other (`depthAt_drawTextured`), and a list of pixels makes a running extremum of it
(`depthAt_drawAll`), which is the same in every order.

Result: `depth_order`.
-/
import Accel3D.Proofs.Halfword
import Accel3D.Proofs.Pixels

namespace Accel3D

/-! ## Comparisons that order depths -/

/-- what a comparison keeps of the stored depth and a new one, if it orders them -/
def Comparison.kept? : Comparison → Option (Int → Int → Int)
  | less => some min
  | lessOrEqual => some min
  | greater => some max
  | greaterOrEqual => some max
  | _ => none

theorem Comparison.kept_eq {f : Comparison} {keep : Int → Int → Int} (h : f.kept? = some keep) (stored new : Int) :
    keep stored new = if f.passes new stored then new else stored := by
  cases f with
  | never | equal | notEqual | always => cases h
  | less | lessOrEqual | greater | greaterOrEqual =>
    obtain rfl := Option.some.inj h
    simp only [passes, decide_eq_true_eq]
    split <;> omega

/-- it does not matter which of two new depths comes first -/
theorem Comparison.kept_right_comm {f : Comparison} {keep : Int → Int → Int} (h : f.kept? = some keep) (a b c : Int) :
    keep (keep a b) c = keep (keep a c) b := by
  cases f with
  | never | equal | notEqual | always => cases h
  | less | lessOrEqual | greater | greaterOrEqual =>
    obtain rfl := Option.some.inj h
    omega

/-! ## The depth of a pixel -/

theorem PixelRules.depth_bounds (r : PixelRules) (h : r.frame.wBuffer = false) (f : Fragment) :
    0 ≤ r.depth f ∧ r.depth f < 65536 := by
  have hraw : r.rawDepth f ≤ 0xFFFF := by
    simp only [rawDepth, h, Bool.not_false, if_true, cutZ]
    exact cut_le _ _ _ _
  unfold depth
  cases r.frame.depthBias with
  | true => simp only [if_true]; omega
  | false => simp only [Bool.false_eq_true, if_false]; omega

/-! ## The depth buffer -/

def TexturedPixel.place (d : TexturedPixel) : Int × Int := (d.pos.x, d.pos.screenY)

namespace Pipeline

/-- a pipeline that tests depths from Z against the aux buffer at `base` and writes what passes, `keep` being what its
comparison keeps -/
structure KeepsDepth (p : Pipeline) (base : UInt32) (keep : Int → Int → Int) : Prop where
  buffer : p.surface.auxBase = some base
  depthTest : p.rules.frame.depthTest = true
  function : p.rules.frame.depthFunction.kept? = some keep
  writeAux : p.rules.frame.writeAux = true
  wBuffer : p.rules.frame.wBuffer = false
  depthFromConstant : p.rules.frame.depthFromConstant = false
  alphaPlanes : p.rules.frame.alphaPlanes = false
  stipple : p.rules.frame.stipple = false

def auxPlace (p : Pipeline) (base : UInt32) (q : Int × Int) : UInt32 := base + p.surface.offset q.1 q.2

def depthAt (p : Pipeline) (base : UInt32) (m : Memory) (q : Int × Int) : Int := (m.read16 (p.auxPlace base q)).toNat

/-- the aux halfwords of these places overlap neither each other nor the color halfwords -/
structure Separate (p : Pipeline) (base : UInt32) (m : Memory) (places : Int × Int → Prop) : Prop where
  aux : ∀ q q', places q → places q' → q ≠ q' → m.Apart (p.auxPlace base q) (p.auxPlace base q')
  color : ∀ q q', places q → places q' → m.Apart (p.auxPlace base q) (p.surface.color q'.1 q'.2)

/-- a pixel that the clip rectangle and the tests on its color let through -/
def accepts (p : Pipeline) (d : TexturedPixel) : Bool :=
  !(p.rules.frame.clipping && !p.rules.clip.contains d.pos.x d.pos.screenY) &&
    (p.rules.colorOf d.values d.texel).isOk

variable {p : Pipeline} {base : UInt32} {keep : Int → Int → Int} {places : Int × Int → Prop}

theorem Separate.of_size {m m' : Memory} (h : p.Separate base m places) (hsize : m'.size = m.size) :
    p.Separate base m' places := by
  have hindex : ∀ a, m'.index a = m.index a := fun a => by
    show a.toNat % m'.size = a.toNat % m.size
    rw [hsize]
  constructor
  · intro q q' hq hq' hne
    simpa only [Memory.Apart, hindex] using h.aux q q' hq hq' hne
  · intro q q' hq hq'
    simpa only [Memory.Apart, hindex] using h.color q q' hq hq'

theorem Separate.one_lt_size {m : Memory} (h : p.Separate base m places) {q : Int × Int} (hq : places q) :
    1 < m.size := by
  refine Nat.lt_of_not_le fun hsmall => ?_
  have hindex : ∀ a, m.index a = 0 := fun a => by
    have hlt : m.index a < m.size := m.index_lt a
    omega
  refine h.color q q hq hq _ List.mem_cons_self _ List.mem_cons_self ?_
  rw [hindex, hindex]

/-! ### One pixel -/

theorem entry_keepsDepth (h : p.KeepsDepth base keep) (c : Canvas) (d : TexturedPixel) :
    p.entry c d.pos d.values =
      (c.stipple,
        if p.rules.frame.clipping && !p.rules.clip.contains d.pos.x d.pos.screenY then .error .clipped
        else if p.rules.frame.depthFunction.passes (p.rules.depth d.values) (p.depthAt base c.memory d.place) then
          .ok ⟨p.rules.depth d.values, floatW d.values.w⟩
        else .error .depth) := by
  simp only [entry, PixelRules.stippleTest, h.stipple, h.depthTest, Surface.aux, h.buffer, PixelRules.depthPasses,
    h.depthFromConstant, Option.map_some, Bool.not_false, Bool.not_true, Bool.false_eq_true, if_true, if_false]
  by_cases hclip : (p.rules.frame.clipping && !p.rules.clip.contains d.pos.x d.pos.screenY) = true
  · rw [if_pos hclip, if_pos hclip]
  · rw [if_neg hclip, if_neg hclip]
    exact (apply_ite (Prod.mk c.stipple) _ _ _).symm

/-- a pixel that is let through and whose depth passes is written; any other leaves the memory alone -/
theorem memory_drawTextured (h : p.KeepsDepth base keep) (c : Canvas) (d : TexturedPixel) :
    ∃ v, (p.drawTextured c d).memory =
      if p.accepts d &&
          p.rules.frame.depthFunction.passes (p.rules.depth d.values) (p.depthAt base c.memory d.place) then
        (p.writeColor d.pos v c.memory).write16 (p.auxPlace base d.place) (UInt16.ofInt (p.rules.depth d.values))
      else c.memory := by
  simp only [drawTextured, drawColored, enter, entry_keepsDepth h, accepts]
  by_cases hclip : (p.rules.frame.clipping && !p.rules.clip.contains d.pos.x d.pos.screenY) = true
  · simp only [hclip, if_true, Bool.not_true, Bool.false_and, Bool.false_eq_true, if_false, Canvas.judge]
    exact ⟨0, trivial⟩
  · by_cases hpass :
        p.rules.frame.depthFunction.passes (p.rules.depth d.values) (p.depthAt base c.memory d.place) = true
    · simp only [hclip, hpass, if_true, Bool.not_false, Bool.true_and, Bool.and_true, Bool.false_eq_true, if_false,
        Canvas.judge]
      cases p.rules.colorOf d.values d.texel with
      | error r => exact ⟨0, rfl⟩
      | ok color =>
        simp only [settle, Pipeline.writeAux, h.writeAux, Surface.aux, h.buffer, h.alphaPlanes, Option.map_some,
          Except.isOk, Except.toBool, if_true, Bool.false_eq_true, if_false]
        exact ⟨_, rfl⟩
    · simp only [hclip, hpass, Bool.not_false, Bool.true_and, Bool.and_false, Bool.false_eq_true, if_false,
        Canvas.judge]
      exact ⟨0, trivial⟩

/-- **What a pixel does to the depth of a place:** at its own place, if it is let through, it leaves the extremum of the
stored depth and its own; every other place keeps its depth. -/
theorem depthAt_drawTextured (h : p.KeepsDepth base keep) (c : Canvas) (hs : p.Separate base c.memory places)
    (d : TexturedPixel) (hd : places d.place) (q : Int × Int) (hq : places q) :
    p.depthAt base (p.drawTextured c d).memory q =
      if d.place = q ∧ p.accepts d = true then keep (p.depthAt base c.memory q) (p.rules.depth d.values)
      else p.depthAt base c.memory q := by
  obtain ⟨v, hmemory⟩ := memory_drawTextured h c d
  -- what is written to the color buffer is no depth
  have hcolor : ∀ q, places q → p.depthAt base (p.writeColor d.pos v c.memory) q = p.depthAt base c.memory q := by
    intro q hq
    have hapart : c.memory.Apart (p.auxPlace base q) (p.surface.color d.pos.x d.pos.screenY) :=
      hs.color q d.place hq hd
    unfold Pipeline.writeColor depthAt
    split
    · rw [Memory.read16_write16_of_apart hapart]
    · rfl
  have hs' : p.Separate base (p.writeColor d.pos v c.memory) places := hs.of_size (p.size_writeColor _ _ _)
  rw [hmemory]
  by_cases hplace : d.place = q
  · subst hplace
    rw [Comparison.kept_eq h.function]
    by_cases haccept : p.accepts d = true
    · by_cases hpass :
          p.rules.frame.depthFunction.passes (p.rules.depth d.values) (p.depthAt base c.memory d.place) = true
      · obtain ⟨hlow, hhigh⟩ := p.rules.depth_bounds h.wBuffer d.values
        simp only [haccept, hpass, Bool.and_self, and_self, if_true]
        rw [depthAt, Memory.read16_write16 _ _ _ (hs'.one_lt_size hq), toNat_ofInt16 _ hlow hhigh]
        exact Int.toNat_of_nonneg hlow
      · simp only [haccept, hpass, Bool.and_false, Bool.false_eq_true, and_self, if_true, if_false]
    · simp only [haccept, Bool.false_and, Bool.false_eq_true, and_false, if_false]
  · have hother : ¬(d.place = q ∧ p.accepts d = true) := fun hboth => hplace hboth.1
    rw [if_neg hother]
    split
    · have hapart : (p.writeColor d.pos v c.memory).Apart (p.auxPlace base q) (p.auxPlace base d.place) :=
        hs'.aux q d.place hq hd (Ne.symm hplace)
      rw [depthAt, Memory.read16_write16_of_apart hapart, ← depthAt, hcolor q hq]
    · rfl

/-! ### Pixels in any order -/

def depthsAt (p : Pipeline) (q : Int × Int) (ds : List TexturedPixel) : List Int :=
  (ds.filter fun d => d.place = q ∧ p.accepts d = true).map fun d => p.rules.depth d.values

theorem size_drawTextured (p : Pipeline) (c : Canvas) (d : TexturedPixel) :
    (p.drawTextured c d).memory.size = c.memory.size :=
  (p.conserves_drawColored _ _ _ _ c).size

/-- **A list of pixels leaves the running extremum of the depths at each place.** -/
theorem depthAt_drawAll (h : p.KeepsDepth base keep) (ds : List TexturedPixel) (c : Canvas)
    (hs : p.Separate base c.memory places) (hds : ∀ d ∈ ds, places d.place) (q : Int × Int) (hq : places q) :
    p.depthAt base (p.drawAll ds c).memory q = (p.depthsAt q ds).foldl keep (p.depthAt base c.memory q) := by
  induction ds generalizing c with
  | nil => rfl
  | cons d ds ih =>
    have hrest : ∀ d' ∈ ds, places d'.place := fun d' hd' => hds d' (List.mem_cons_of_mem d hd')
    have hone := depthAt_drawTextured h c hs d (hds d List.mem_cons_self) q hq
    have hall := ih (p.drawTextured c d) (hs.of_size (p.size_drawTextured c d)) hrest
    rw [hone] at hall
    refine hall.trans ?_
    by_cases hd : d.place = q ∧ p.accepts d = true
    · rw [if_pos hd, depthsAt, depthsAt, List.filter_cons_of_pos (by simpa using hd)]
      rfl
    · rw [if_neg hd, depthsAt, depthsAt, List.filter_cons_of_neg (by simpa using hd)]

/-- the running extremum does not depend on the order -/
theorem foldl_depthsAt_perm (h : p.KeepsDepth base keep) (q : Int × Int) {ds es : List TexturedPixel}
    (hperm : ds.Perm es) (initial : Int) :
    (p.depthsAt q ds).foldl keep initial = (p.depthsAt q es).foldl keep initial := by
  have hdepths : (p.depthsAt q ds).Perm (p.depthsAt q es) := (hperm.filter _).map _
  exact hdepths.foldl_eq' (fun x _ y _ z => Comparison.kept_right_comm h.function z x y) initial

theorem drawAll_triangles (ts : List Raster) (hts : ∀ t ∈ ts, t.pipeline = p) (c : Canvas) :
    ts.foldl (fun c t => t.draw c) c = p.drawAll (ts.flatMap Raster.pixels) c := by
  induction ts generalizing c with
  | nil => rfl
  | cons t ts ih =>
    have hdraw : t.draw c = p.drawAll t.pixels c := by
      rw [t.draw_eq, hts t List.mem_cons_self]
    rw [List.foldl_cons, hdraw, ih fun u hu => hts u (List.mem_cons_of_mem t hu), List.flatMap_cons]
    exact (List.foldl_append ..).symm

/-- triangles of one pipeline leave the same depths in every order -/
theorem depthAt_triangles (h : p.KeepsDepth base keep) (c : Canvas) (hs : p.Separate base c.memory places)
    {ts us : List Raster} (hperm : ts.Perm us) (hts : ∀ t ∈ ts, t.pipeline = p)
    (hplaces : ∀ t ∈ ts, ∀ d ∈ t.pixels, places d.place) (q : Int × Int) (hq : places q) :
    p.depthAt base (us.foldl (fun c t => t.draw c) c).memory q =
      p.depthAt base (ts.foldl (fun c t => t.draw c) c).memory q := by
  have hpixels : ∀ d ∈ ts.flatMap Raster.pixels, places d.place := by
    intro d hd
    obtain ⟨t, ht, hd⟩ := List.mem_flatMap.1 hd
    exact hplaces t ht d hd
  have hperm' : (ts.flatMap Raster.pixels).Perm (us.flatMap Raster.pixels) := hperm.flatMap_right _
  have hus : ∀ t ∈ us, t.pipeline = p := fun t ht => hts t (hperm.mem_iff.2 ht)
  rw [drawAll_triangles us hus, drawAll_triangles ts hts, depthAt_drawAll h _ c hs hpixels q hq,
    depthAt_drawAll h _ c hs (fun d hd => hpixels d (hperm'.mem_iff.2 hd)) q hq, foldl_depthsAt_perm h q hperm']

/-- **The depth buffer does not depend on the order of drawing.** In a pipeline that keeps the nearer or the farther
depth, with an aux buffer whose halfwords overlap neither each other nor the color halfwords: after any list of pixels
through the whole pipeline, the aux halfword of each place is the extremum of what it held and the depths of the pixels
there that the clip rectangle and the tests on the color let through; and any other order of the pixels leaves the same
aux halfwords. -/
theorem depth_order (h : p.KeepsDepth base keep) (c : Canvas) (hs : p.Separate base c.memory places)
    (ds : List TexturedPixel) (hds : ∀ d ∈ ds, places d.place) :
    (∀ q, places q →
      p.depthAt base (p.drawAll ds c).memory q = (p.depthsAt q ds).foldl keep (p.depthAt base c.memory q)) ∧
    ∀ es, ds.Perm es → ∀ q, places q →
      (p.drawAll es c).memory.read16 (p.auxPlace base q) = (p.drawAll ds c).memory.read16 (p.auxPlace base q) := by
  refine ⟨fun q hq => depthAt_drawAll h ds c hs hds q hq, fun es hperm q hq => ?_⟩
  have hes : ∀ d ∈ es, places d.place := fun d hd => hds d (hperm.mem_iff.2 hd)
  have hsame : p.depthAt base (p.drawAll es c).memory q = p.depthAt base (p.drawAll ds c).memory q := by
    calc p.depthAt base (p.drawAll es c).memory q
        = (p.depthsAt q es).foldl keep (p.depthAt base c.memory q) := depthAt_drawAll h es c hs hes q hq
      _ = (p.depthsAt q ds).foldl keep (p.depthAt base c.memory q) := (foldl_depthsAt_perm h q hperm _).symm
      _ = p.depthAt base (p.drawAll ds c).memory q := (depthAt_drawAll h ds c hs hds q hq).symm
  exact UInt16.toNat_inj.1 (Int.ofNat.inj hsame)

/-- the pipeline of a register file that tests for greater depths, with color at 0 and depths at 32 -/
def greaterPipeline : Pipeline where
  rules := PixelRules.ofRegisters .voodoo2 (RegisterFile.zero.set Reg.fbzMode 0x690) Combine.plain
  fog := FogTable.zero
  surface := ⟨0, some 32, 4⟩

/-- two pixels at one place, the farther one first or last -/
theorem depth_order_greater :
    let c : Canvas := ⟨Memory.zeroed 6, Counters.zero, 0⟩
    let d : TexturedPixel := ⟨⟨0, 0, 0⟩, ⟨Argb.black, 0x5000, 0⟩, Argb.black⟩
    let e : TexturedPixel := ⟨⟨0, 0, 0⟩, ⟨Argb.black, 0x3000, 0⟩, Argb.black⟩
    greaterPipeline.depthAt 32 (greaterPipeline.drawAll [d, e] c).memory (0, 0) = 5 ∧
      (greaterPipeline.drawAll [e, d] c).memory.read16 32 = (greaterPipeline.drawAll [d, e] c).memory.read16 32 := by
  intro c d e
  have hkeeps : greaterPipeline.KeepsDepth 32 max := ⟨rfl, rfl, rfl, rfl, rfl, rfl, rfl, rfl⟩
  have hsize : c.memory.size = 2 ^ 6 := size_filledBytes 0 6
  have hseparate : greaterPipeline.Separate 32 c.memory fun q => q = (0, 0) := by
    constructor
    · rintro _ _ rfl rfl hne
      exact absurd rfl hne
    · rintro _ _ rfl rfl
      have haux : (greaterPipeline.auxPlace 32 (0, 0)).toNat = 32 := by decide +kernel
      have hcolor : (greaterPipeline.surface.color 0 0).toNat = 0 := by decide +kernel
      refine Memory.apart_of_inside ?_ ?_ ?_ ?_ <;> simp only [haux, hcolor, hsize] <;> decide
  have hplaces : ∀ x ∈ [d, e], x.place = (0, 0) := by decide
  obtain ⟨hvalue, horder⟩ := depth_order hkeeps c hseparate [d, e] hplaces
  refine ⟨(hvalue (0, 0) rfl).trans ?_, horder [e, d] (List.Perm.swap e d []) (0, 0) rfl⟩
  decide +kernel

end Pipeline
end Accel3D
