/-!
# Sweeps

A sweep goes through a list once, from front to back, with a state.  Its result
on the first part of a list is the first part of its result, which is why no
indicator built from sweeps looks ahead.
-/

namespace RuleBacktest

variable {σ ι ο : Type}

def sweep (step : σ → ι → σ × ο) (state : σ) : List ι → List ο
  | [] => []
  | x :: xs =>
      let (next, y) := step state x
      y :: sweep step next xs

/-- Pairs every element with the one `lag` places before it, if there is one. -/
def withLag (lag : Nat) (xs : List ι) : List (ι × Option ι) :=
  xs.zip (List.replicate (min lag xs.length) none ++ xs.map some)

/-- Applies `f` to every stretch of present values on its own, with a missing
result at each missing value between them.  `stretch` holds the values of the
stretch at hand, the last one first. -/
def acrossGapsFrom (f : List ι → List (Option ο)) (stretch : List ι) :
    List (Option ι) → List (Option ο)
  | [] => f stretch.reverse
  | none :: xs => f stretch.reverse ++ none :: acrossGapsFrom f [] xs
  | some x :: xs => acrossGapsFrom f (x :: stretch) xs

def acrossGaps (f : List ι → List (Option ο)) (xs : List (Option ι)) :
    List (Option ο) :=
  acrossGapsFrom f [] xs

end RuleBacktest
