import Dialogue.Proofs.State

/-!
Laws of confidence. A confidence that is not below a threshold up to one is still not below it when
it is kept in a state, where it is clamped and replaces only one of another value.
-/
namespace Dialogue

namespace Binary32

variable {x y t : Binary32}

theorem lt_congr (same : (x == y) = true) : x.lt t = y.lt t := by
  have keys : x.key? = y.key? := by
    simp only [BEq.beq] at same
    cases a : x.key? <;> cases b : y.key? <;> simp_all
  simp [lt, keys]

theorem not_lt_of_le (h : t.le x = true) : x.lt t = false := by
  unfold le lt at *
  cases a : t.key? <;> cases b : x.key? <;> simp_all

theorem le_of_le_of_lt (upTo : t.le y = true) (below : y.lt x = true) : t.le x = true := by
  unfold le lt at *
  cases a : t.key? <;> cases b : x.key? <;> cases c : y.key? <;> simp_all
  omega

/-- What is not below a bound up to one is not below it after clamping. -/
theorem clampUnit_not_lt (bound : t.le one = true) (h : x.lt t = false) :
    x.clampUnit.lt t = false := by
  have zero_key : zero.key? = some 0 := by decide
  have one_key : one.key? = some 0x3F800000 := by decide
  unfold clampUnit
  split
  · rename_i negative
    unfold le lt at *
    cases a : t.key? <;> cases b : x.key? <;> simp_all
    omega
  · split
    · exact not_lt_of_le bound
    · exact h

/-- Clamping does not decide whether a number is below a positive bound up to one. -/
theorem clampUnit_lt (positive : zero.lt t = true) (bound : t.le one = true) :
    x.clampUnit.lt t = x.lt t := by
  cases below : x.lt t with
  | false => exact clampUnit_not_lt bound below
  | true =>
    unfold clampUnit
    split
    · exact positive
    · split
      · rename_i above
        simp [not_lt_of_le (le_of_le_of_lt bound above)] at below
      · exact below

end Binary32

theorem Config.threshold_le_one {c : Config} (valid : c.validate = .ok ()) :
    c.threshold.le .one = true := by
  have range : c.thresholdInRange = true := by
    cases range : c.thresholdInRange with
    | true => rfl
    | false =>
      simp only [validate, range] at valid
      cases valid
  simp only [thresholdInRange, Bool.and_eq_true] at range
  exact range.2

theorem State.setConfidence_lt {s : State} {x t : Binary32} :
    (s.setConfidence x).lastConfidence.lt t = x.clampUnit.lt t := by
  unfold setConfidence
  split
  · rename_i same
    exact Binary32.lt_congr same
  · simp

/-- After a move was taken that is not below the threshold, there is no reason to clarify. -/
theorem State.consume_sure {s : State} {m : Move} {c : Config} (valid : c.validate = .ok ())
    (sure : m.confidence.lt c.threshold = false) :
    (s.consume m).lastConfidence.lt c.threshold = false := by
  simp only [consume, recordMove_frame, setConfidence_lt]
  exact Binary32.clampUnit_not_lt (Config.threshold_le_one valid) sure

end Dialogue
