/-!
# Iteration

A loop runs rounds until one of them ends it. Every round that goes on has to make the state smaller; a loop with
a round that does not would never end, and its result says so.
-/

namespace CSharpStyle

/-- What a round of a loop decides: to go on from a state, or to end with a result. -/
inductive Round (σ ρ : Type)
  | again (state : σ)
  | done (result : ρ)

/-- Runs rounds until one ends the loop. The result is `stalled` as soon as a round goes on with a state that is
not smaller. -/
def rounds {σ ρ : Type} (size : σ → Nat) (round : σ → Round σ ρ) (stalled : σ → ρ) (state : σ) : ρ :=
  match round state with
  | .done result => result
  | .again next => if size next < size state then rounds size round stalled next else stalled next
termination_by size state

section

variable {σ ρ : Type} {size : σ → Nat} {round : σ → Round σ ρ} {stalled : σ → ρ} {s t : σ}

theorem rounds_of_done {result : ρ} (h : round s = .done result) : rounds size round stalled s = result := by
  rw [rounds, h]

theorem rounds_of_again (h : round s = .again t) (hsize : size t < size s) :
    rounds size round stalled s = rounds size round stalled t := by
  rw [rounds, h]
  exact if_pos hsize

/-- What every round keeps holds at the end of the loop, also when it stalls. -/
theorem rounds_induction {P : σ → Prop} {Q : ρ → Prop}
    (hagain : ∀ {s t : σ}, P s → round s = .again t → P t) (hdone : ∀ {s : σ} {r : ρ}, P s → round s = .done r → Q r)
    (hstalled : ∀ {s : σ}, P s → Q (stalled s)) (h : P s) : Q (rounds size round stalled s) := by
  fun_induction rounds size round stalled s with
  | case1 s result hs => exact hdone h hs
  | case2 s next hs hsize ih => exact ih (hagain h hs)
  | case3 s next hs hsize => exact hstalled (hagain h hs)

end

end CSharpStyle
