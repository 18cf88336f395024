/-
The pixel counters.

Every pixel that enters the pipeline is counted once on the way in and once on the way out: either as drawn, or under
the test that rejected it. The counters wrap at 32 bits.
-/

namespace Accel3D

/-- the test that keeps a pixel from being drawn -/
inductive Reject where
  | clipped
  | stippled
  | depth
  | chroma
  | alpha
deriving DecidableEq, Repr, Inhabited

structure Counters where
  pixelsIn : UInt32
  pixelsOut : UInt32
  chromaFail : UInt32
  depthFail : UInt32
  alphaFail : UInt32
  clipped : UInt32
  stippled : UInt32
deriving DecidableEq, Repr, Inhabited

namespace Counters

def zero : Counters := ⟨0, 0, 0, 0, 0, 0, 0⟩

/-- one more pixel in -/
def enter (c : Counters) : Counters := { c with pixelsIn := c.pixelsIn + 1 }

/-- `n` more pixels drawn -/
def drawn (c : Counters) (n : UInt32) : Counters := { c with pixelsOut := c.pixelsOut + n }

/-- one more pixel rejected -/
def reject (c : Counters) : Reject → Counters
  | .clipped => { c with clipped := c.clipped + 1 }
  | .stippled => { c with stippled := c.stippled + 1 }
  | .depth => { c with depthFail := c.depthFail + 1 }
  | .chroma => { c with chromaFail := c.chromaFail + 1 }
  | .alpha => { c with alphaFail := c.alphaFail + 1 }

/-- the five counters that registers show set to zero -/
def clearRegisters (c : Counters) : Counters :=
  { c with pixelsIn := 0, pixelsOut := 0, chromaFail := 0, depthFail := 0, alphaFail := 0 }

/-- pixels accounted for on the way out -/
def outcomes (c : Counters) : UInt32 :=
  c.pixelsOut + c.chromaFail + c.depthFail + c.alphaFail + c.clipped + c.stippled

theorem outcomes_reject (c : Counters) (r : Reject) : (c.reject r).outcomes = c.outcomes + 1 := by
  cases r <;> simp only [reject, outcomes] <;> ac_rfl

theorem pixelsIn_reject (c : Counters) (r : Reject) : (c.reject r).pixelsIn = c.pixelsIn := by
  cases r <;> rfl

end Counters
end Accel3D
