import Kboard.Concurrency.Interleaving
import Mathlib.Data.Nat.Basic

/-!
# Increments without a lock

A counter that threads increment by a load and a store, with nothing to keep
them apart. Increments may be lost, and a slow thread may even take the counter
back, but it never counts an increment that has not been stored.
-/

set_option autoImplicit false

namespace Kboard.Concurrency

universe u v w

variable {ι : Type u} {σ : Type v} {τ : Type w} {width : ℕ}

def stores (loaded : τ → Option (BitVec width)) (moves : List (Move ι τ)) : ℕ :=
  moves.countP fun move => (loaded move.source).isSome

end Kboard.Concurrency
