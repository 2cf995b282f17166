import Lintel.Number.Binary64

/-!
# Trying again

What fails for a passing reason is tried again after a delay (`Retry.run`). The first delay is given;
each later one is the one before times a factor, but at most a greatest delay (`Retry.next`).
-/

namespace Lintel

/-- How often and after which delays something is tried. -/
structure Retry (δ : Type) where
  attempts : Int
  first : δ
  factor : δ
  most : δ

namespace Retry

variable {m : Type → Type} [Monad m] {δ ε α : Type} [Mul δ] [LT δ] [DecidableLT δ]

/-- The delay after another. -/
def next (retry : Retry δ) (delay : δ) : δ :=
  let grown := delay * retry.factor
  if retry.most < grown then retry.most else grown

/-- Calls up to a number of times, pausing for `delay` before the second time; only faults that
`retried` accepts are tried again. -/
def runFrom (retry : Retry δ) (retried : ε → Bool) (pause : δ → m Unit) (call : m (Except ε α)) :
    Nat → δ → m (Option (Except ε α))
  | 0, _ => return none
  | left + 1, delay => do
    match ← call with
    | .ok value => return some (.ok value)
    | .error fault =>
      if left == 0 || !retried fault then return some (.error fault)
      else
        pause delay
        runFrom retry retried pause call left (retry.next delay)

/-- The outcome of the last call; none if there is no attempt at all. -/
def run (retry : Retry δ) (retried : ε → Bool) (pause : δ → m Unit) (call : m (Except ε α)) :
    m (Option (Except ε α)) :=
  runFrom retry retried pause call retry.attempts.toNat retry.first

end Retry

end Lintel
